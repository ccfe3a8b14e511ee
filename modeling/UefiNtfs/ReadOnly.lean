import UefiNtfs.Lifetime

set_option autoImplicit false

/-! # Read-only values and read-only volumes

A value issued read-only points at the instance's `EfiFileRO` member, and `RO_ACCESS` tells it
from the read-write value of the same instance by the word that follows it. `FileWrite` and
`FileFlush` refuse a read-only value before they reach the engine, and `FileSetInfo` passes the
mode on to `NtfsSetFileInfo`. Its two label branches, though, rename the volume without looking
at the mode, so a read-only reopen of the root can rename the volume
(`readOnlyValue_renames_volume`).

A read-only volume is another matter: every call that could write checks
`NtfsIsVolumeReadOnly` first, or refuses every mode but `EFI_FILE_MODE_READ`, and the log of a
run on such a volume holds no primitive that writes (`readOnly_volume_unwritten`).
-/

namespace UefiNtfs

/-! ## Read-only values -/

section Value

variable {s s' : EfiFs} {This : Nat}

/-- `FileWrite` on a read-only value changes nothing. -/
theorem fileWrite_of_roAccess {Len n : UInt64} {r : IoOutcome} {st : EfiStatus}
    (hro : roAccess s This = true) (h : fileWrite s This Len r = .ok (s', st, n)) : s' = s := by
  dsimp only [fileWrite] at h
  split at h
  · cases h
  split at h
  · cases h; rfl
  · cases h; rfl

/-- `FileFlush` on a read-only value changes nothing. -/
theorem fileFlush_of_roAccess {onFlush st : EfiStatus} (hro : roAccess s This = true)
    (h : fileFlush s This onFlush = .ok (s', st)) : s' = s := by
  dsimp only [fileFlush] at h
  split at h
  · cases h
  split at h
  · cases h; rfl
  · cases h; rfl

end Value

/-- **A read-only value out keeps to its mode**, but for the volume label: `RO_ACCESS` and
`BASE_FILE` recover the mode and the instance it was issued for, `FileWrite` and `FileFlush` on
it change nothing, and `FileSetInfo` on it calls `NtfsSetFileInfo` only with the read-only flag
set, and otherwise at most `NtfsRenameVolume`. -/
theorem roValue_mode_kept {PATH_MAX : Nat} {w : World} (hw : Reachable PATH_MAX w) {h : Handle}
    (hh : h ∈ w.out) (hro : h.ro = true) :
    roAccess w.fs h.value = true ∧ baseFile w.fs h.value = h.file ∧
    (∀ Len r s' st n, fileWrite w.fs h.value Len r = .ok (s', st, n) → s' = w.fs) ∧
    (∀ onFlush s' st, fileFlush w.fs h.value onFlush = .ok (s', st) → s' = w.fs) ∧
    (∀ t Len Data onSet s' st, fileSetInfo w.fs h.value t Len Data onSet = .ok (s', st) →
      ∃ calls, s'.log = w.fs.log ++ calls ∧
        ∀ c ∈ calls, c = .setFileInfo h.file true ∨ c = .renameVolume) := by
  obtain ⟨F, -, hbase, hmode⟩ := (refInv_reachable hw).decode hh
  rw [hro] at hmode
  refine ⟨hmode, hbase, fun _ _ _ _ _ h => fileWrite_of_roAccess hmode h,
    fun _ _ _ h => fileFlush_of_roAccess hmode h, fun _ _ _ _ _ _ h => ?_⟩
  obtain ⟨-, calls, hlog, hcalls⟩ := fileSetInfo_spec h
  rw [hbase, hmode] at hcalls
  exact ⟨calls, hlog, hcalls⟩

/-- The name `"."`. -/
def nameDot : Str16 := ⟨[dotChar], by decide⟩

/-- An open in which the allocators have nothing to give; a reopen asks them for nothing. -/
def nullOracle : OpenOracle :=
  { pathAddr := 0, fileAddr := 0, onOpen := .fail efiNotFound, onCreate := .fail efiNotFound }

theorem nullOracle_sound (s : EfiFs) : nullOracle.Sound s :=
  ⟨fun h => absurd rfl h, fun h => absurd rfl h, trivial, trivial⟩

/-- A writable volume whose root is open twice: read-write by `FileOpenVolume`, then read-only by
`FileOpen (Root, ".", EFI_FILE_MODE_READ)`. -/
def rootReopenedRO : World := ⟨(rootOpened false).fs.addRef 256, [⟨256, true⟩, ⟨256, false⟩]⟩

theorem rootReopenedRO_reachable : Reachable 8 rootReopenedRO := by
  have h := Reachable.step (rootOpened_reachable 8 false) (Step.open _ ⟨256, false⟩
    (by simp [rootOpened]) nameDot efiFileModeRead 0 nullOracle (nullOracle_sound _) rfl
    fun _ _ _ _ _ => ⟨trivial, trivial⟩)
  exact h

/-- The read-only value of the reopened root keeps to its mode for writes and flushes. -/
theorem roValue_mode_kept_rootReopened :
    roAccess rootReopenedRO.fs (roHandle 256) = true ∧
      baseFile rootReopenedRO.fs (roHandle 256) = 256 ∧
      (∀ Len r s' st n, fileWrite rootReopenedRO.fs (roHandle 256) Len r = .ok (s', st, n) →
        s' = rootReopenedRO.fs) ∧
      (∀ onFlush s' st, fileFlush rootReopenedRO.fs (roHandle 256) onFlush = .ok (s', st) →
        s' = rootReopenedRO.fs) ∧
      (∀ t Len Data onSet s' st,
        fileSetInfo rootReopenedRO.fs (roHandle 256) t Len Data onSet = .ok (s', st) →
        ∃ calls, s'.log = rootReopenedRO.fs.log ++ calls ∧
          ∀ c ∈ calls, c = .setFileInfo 256 true ∨ c = .renameVolume) :=
  @roValue_mode_kept 8 _ rootReopenedRO_reachable ⟨256, true⟩ (by decide) rfl

/-- **A read-only value renames the volume.** On the writable volume `rootReopenedRO`,
`FileSetInfo` on the read-only value of the root, with an empty label as
`EFI_FILE_SYSTEM_VOLUME_LABEL` or as `EFI_FILE_SYSTEM_INFO`, calls `NtfsRenameVolume`. -/
theorem readOnlyValue_renames_volume :
    Reachable 8 rootReopenedRO ∧ ⟨256, true⟩ ∈ rootReopenedRO.out ∧
    (∃ s' st, fileSetInfo rootReopenedRO.fs (roHandle 256) .volumeLabel 2 (fun _ => 0) efiSuccess =
      .ok (s', st) ∧ s'.log = rootReopenedRO.fs.log ++ [.renameVolume]) ∧
    (∃ s' st, fileSetInfo rootReopenedRO.fs (roHandle 256) .fileSystemInfo 38 (fun _ => 0)
      efiSuccess = .ok (s', st) ∧ s'.log = rootReopenedRO.fs.log ++ [.renameVolume]) :=
  ⟨rootReopenedRO_reachable, by decide, ⟨_, _, rfl, rfl⟩, ⟨_, _, rfl, rfl⟩⟩

/-! ## Read-only volumes -/

/-- **One call's log.** What a call adds to the log holds no primitive that writes when the volume
is read-only. -/
theorem step_logExt {PATH_MAX : Nat} {w w' : World} (hs : Step PATH_MAX w w')
    (hi : RefInv w.fs.refs w.fs.totalRefCount w.out) : LogExt w.fs w'.fs := by
  cases hs with
  | @openVolume o fs st r env hr =>
    cases herr : efiError st
    · obtain ⟨-, b, rfl, hv⟩ := fileOpenVolume_success env hr herr
      cases hv with
      | fresh _ _ _ _ _ hc => exact .of_writes (by simp) hc
      | reused _ hc => exact .of_writes (by simp) hc
    · obtain ⟨rfl, calls, rfl, hc⟩ := fileOpenVolume_error env hr herr
      exact .of_writes rfl hc
  | @«open» h hh Name Mode Attributes o fs st r env hr =>
    cases herr : efiError st
    · obtain ⟨-, b, rfl, ho⟩ := fileOpen_success env hr herr
      cases ho with
      | reopen => exact .of_log (by simp)
      | fresh _ _ _ _ _ _ _ _ hq => exact ⟨_, by simp, hq⟩
      | reused _ hq => exact ⟨_, by simp, hq⟩
    · obtain ⟨rfl, calls, rfl, -, hq⟩ := fileOpen_error env hr herr
      exact ⟨calls, rfl, hq⟩
  | close h hh hr =>
    obtain ⟨F, -, hrel, -⟩ := hi.close_release hh hr
    exact hrel.log
  | delete h hh onDelete hr =>
    obtain ⟨F, -, ⟨-, rfl⟩ | ⟨-, hrel, -⟩⟩ := hi.delete_release hh hr
    · exact .refl _
    · exact hrel.log
  | access h hh a hr => exact (Access.run_frame hr).log

/-- **A read-only volume is never written.** No run on a volume the engine reports read-only
calls `NtfsCreateFile`, `NtfsWriteFile`, `NtfsDeleteFile`, `NtfsSetFileInfo`,
`NtfsRenameVolume` or `NtfsFlushFile`. -/
theorem readOnly_volume_unwritten {PATH_MAX : Nat} {w : World} (hw : Reachable PATH_MAX w)
    (hro : w.fs.readOnly = true) : ∀ c ∈ w.fs.log, c.writes = false := by
  induction hw with
  | init => intro c hc; cases hc
  | step hw hs ih =>
    have hi := refInv_reachable hw
    have hro' := (step_readOnly hs hi).symm.trans hro
    obtain ⟨calls, hlog, hq⟩ := step_logExt hs hi
    intro c hc
    rw [hlog] at hc
    rcases List.mem_append.mp hc with hc | hc
    · exact ih hro' c hc
    · exact hq hro' c hc

/-- The log of the root's opening on a read-only volume. -/
theorem readOnly_volume_unwritten_rootOpened :
    (rootOpened true).fs.log.all (fun c => !c.writes) = true :=
  List.all_eq_true.mpr fun c hc => by
    simp [readOnly_volume_unwritten (rootOpened_reachable 8 true) rfl c hc]

end UefiNtfs
