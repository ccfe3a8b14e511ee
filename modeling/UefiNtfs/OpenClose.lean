import UefiNtfs.Lifetime

set_option autoImplicit false

/-! # Opening and closing again

`FileOpen` and `FileOpenVolume` hand out a value, and `FileClose` takes one back. On a writable
volume the two are inverse: in every reachable world, a `FileOpen` that returns a value, followed
by `FileClose` of that value, leaves the volume as it was but for the log
(`open_close_restores`), whichever of its three ways the open took. `FileOpenVolume` followed by
`FileClose` does the same, except that the volume is then mounted exactly when values were out
before (`openVolume_close_restores`).

## Why the close undoes the open

* A reopen of `""` or `"."`, or an instance the engine handed back, already held a reference: on
  a writable volume every instance does (`Settled`). So `RefCount - 1` stays positive in
  `FileClose`, which takes back the one reference the open added (`fileClose_addRef`).
* A new instance holds the open's reference only. `FileClose` takes it to zero, closes the
  instance and releases it together with its path (`fileClose_setFile_addRef`); the allocators
  had taken both from free memory, so what is left is the volume before the open.
* `TotalRefCount` goes up by one and down by one, and the value the open was called on is still
  out, so `FileClose` does not unmount.

On a read-only volume the law fails: `FileDelete` there can leave an instance without references
(`Lifetime`), and an open the engine answers with that instance is undone by a close that
releases it.
-/

namespace UefiNtfs

/-- The end of `FileClose` and `FileDelete` as one update: the mount cleared when no value is
left, with the unmount logged. -/
theorem unmountIfIdle_eq (s : EfiFs) :
    unmountIfIdle s = { s with
      mounted := s.mounted && decide (0 < s.totalRefCount)
      log := s.log ++ if s.totalRefCount ≤ 0 then [.unmountVolume] else [] } := by
  unfold unmountIfIdle
  split <;> simp [EfiFs.ext_iff, ntfsUnmountVolume, EfiFs.record] <;> omega

/-- The value of the handle `FileOpen` hands out is the value it returns. -/
theorem value_issued (Mode : UInt64) (b : Nat) :
    (⟨b, issuedReadOnly Mode⟩ : Handle).value = openedHandle Mode b := by
  by_cases hw : Mode &&& efiFileModeWrite = 0 <;>
    simp [Handle.value, openedHandle, issuedReadOnly, hw, rwHandle, roHandle]

/-- `addRef` on an instance that is there. -/
theorem EfiFs.addRef_of_some {s : EfiFs} {b : Nat} {f : NtfsFile} (h : s.files b = some f) :
    s.addRef b = { s.setFile b { f with refCount := f.refCount + 1 } with
      totalRefCount := s.totalRefCount + 1 } := by
  simp only [EfiFs.addRef, EfiFs.modifyFile_of_some _ h]

/-! ## The two exits of `FileClose` -/

section Close

variable {s : EfiFs} {v b : Nat} {G : NtfsFile}

/-- `FileClose` of a value for `b` whose instance holds other references: both counts drop. -/
theorem fileClose_of_kept (hv : baseFile s v = b) (hG : s.files b = some G)
    (hpos : 0 < G.refCount - 1) :
    fileClose s v = .ok (unmountIfIdle (s.setFile b { G with refCount := G.refCount - 1 }).decTotal,
      efiSuccess) := by
  simp only [fileClose, hv, hG]
  rw [if_neg (by omega)]

/-- `FileClose` of the last value for `b ≠ 0`: the instance is closed, then released with its
path. -/
theorem fileClose_of_last (hv : baseFile s v = b) (hG : s.files b = some G) (h0 : b ≠ 0)
    (h1 : G.refCount = 1) :
    fileClose s v = .ok (unmountIfIdle ((freePool (((s.record (.closeFile b)).setFile b
      { G with refCount := 0, ntfsInode := false }).record (.freeFile b)) G.path).dropFile b).decTotal,
      efiSuccess) := by
  simp only [fileClose, hv, hG, h1, sub_self, le_refl, if_true]
  rw [@ntfsCloseFile_of_some _ _ { G with refCount := 0 } h0 (by simp), ← EfiFs.record_setFile,
    EfiFs.setFile_setFile,
    @ntfsFreeFile_of_unref _ _ { G with refCount := 0, ntfsInode := false } (by simp) h0 rfl]

/-- **A reference taken and given back.** `FileClose` of a value for `b`, after `addRef` gave one
more reference to an instance that holds one already, only takes that reference back. -/
theorem fileClose_addRef {F : NtfsFile} (hv : baseFile (s.addRef b) v = b) (hF : s.files b = some F)
    (hpos : 0 < F.refCount) : fileClose (s.addRef b) v = .ok (unmountIfIdle s, efiSuccess) := by
  rw [fileClose_of_kept hv (by rw [EfiFs.addRef_files _ _ hF, Function.update_same])
    (by simpa using hpos)]
  congr
  simp [EfiFs.ext_iff, EfiFs.addRef, EfiFs.modifyFile_of_some _ hF, EfiFs.setFile, EfiFs.decTotal,
    ← hF]

/-- **A new instance given back.** `FileClose` of a value for `A ≠ 0`, after an instance `g`
without references was stored there and given its first reference, closes it and releases it
together with its path: the volume is the one before the instance was stored, with the three
calls logged. -/
theorem fileClose_setFile_addRef {A : Nat} {g : NtfsFile}
    (hv : baseFile ((s.setFile A g).addRef A) v = A) (hA : A ≠ 0) (hg : g.refCount = 0)
    (hp : g.path ≠ 0) :
    fileClose ((s.setFile A g).addRef A) v = .ok (unmountIfIdle
      ((freePool ((s.record (.closeFile A)).record (.freeFile A)) g.path).dropFile A), efiSuccess) := by
  rw [fileClose_of_last hv (by rw [EfiFs.addRef_files _ _ (EfiFs.setFile_files_self _ _ _),
    Function.update_same]) hA (by simp [hg]), EfiFs.addRef_of_some (EfiFs.setFile_files_self _ _ _)]
  congr
  simp [EfiFs.ext_iff, EfiFs.setFile, EfiFs.decTotal, EfiFs.record, EfiFs.dropFile,
    freePool_of_ne _ hp]

end Close

/-! ## Along a run -/

/-- **`FileClose` undoes `FileOpen`.** In every reachable world of a writable volume, for a value
out, any name, mode and attributes, and any environment that keeps its promises: when `FileOpen`
returns a value, `FileClose` of that value succeeds and leaves the volume as it was before the
open, but for the calls it appends to the log. -/
theorem open_close_restores {PATH_MAX : Nat} {w : World} (hw : Reachable PATH_MAX w)
    (hro : w.fs.readOnly = false) {h : Handle} (hh : h ∈ w.out) {Name : Str16}
    {Mode Attributes : UInt64} {o : OpenOracle} (env : o.Sound w.fs) {s' : EfiFs} {st : EfiStatus}
    {v : Nat} (hopen : fileOpen PATH_MAX w.fs h.value Name Mode Attributes o = .ok (s', st, some v)) :
    ∃ calls, fileClose s' v = .ok ({ w.fs with log := w.fs.log ++ calls }, efiSuccess) := by
  have hi := refInv_reachable hw
  have hS := settled_reachable hw hro
  have hT : 0 < w.fs.totalRefCount := by
    rw [hi.total]; exact_mod_cast List.length_pos_of_mem hh
  have hok : efiError st = false := by
    cases herr : efiError st
    · rfl
    · cases (fileOpen_error env hopen herr).1
  obtain ⟨-, b, hv, hs⟩ := fileOpen_success env hopen hok
  obtain rfl := Option.some.inj hv
  -- the world after the open decodes the value it returned
  have hdec : baseFile s' (openedHandle Mode b) = b := by
    obtain ⟨-, -, hbase, -⟩ := (refInv_open hi env hopen).decode
      (show (⟨b, issuedReadOnly Mode⟩ : Handle) ∈ _ by simp [ofValue_openedHandle])
    rwa [value_issued] at hbase
  have held : ∀ {c : Nat} {F : NtfsFile}, w.fs.files c = some F → 0 < F.refCount := by
    intro c F hF; exact hS.held c F.refPart (by simp [EfiFs.refs, hF])
  cases hs with
  | reopen hF =>
    -- the parent: one more reference, taken back
    refine ⟨if w.fs.totalRefCount ≤ 0 then [.unmountVolume] else [], ?_⟩
    rw [fileClose_addRef hdec hF (held hF), unmountIfIdle_eq]
    simp [hT]
  | @fresh F s₁ buf n g calls ha hp _ _ _ hg hgp _ _ =>
    -- a new instance: released with its path, both taken from free memory
    have hg0 : g.refCount = 0 := by
      simpa [NtfsFile.refPart, NtfsFile.fresh] using congrArg Prod.fst hg
    refine ⟨calls ++ [.closeFile o.fileAddr, .freeFile o.fileAddr, .freePool o.pathAddr] ++
      if w.fs.totalRefCount ≤ 0 then [.unmountVolume] else [], ?_⟩
    rw [fileClose_setFile_addRef hdec ha hg0 (hgp ▸ hp), unmountIfIdle_eq]
    simp only [EfiFs.ext_iff]
    simp [EfiFs.record, EfiFs.dropFile, freePool_of_ne _ hp, hgp, hT, Function.update_eq_self_iff,
      (env.file ha).1, env.path hp]
  | @reused c calls _ _ _ hc _ =>
    -- an instance the engine handed back: on a writable volume it holds a reference already
    obtain ⟨F, hF⟩ := Option.isSome_iff_exists.mp hc
    refine ⟨calls ++ if w.fs.totalRefCount ≤ 0 then [.unmountVolume] else [], ?_⟩
    rw [fileClose_addRef hdec (by exact hF) (held hF), unmountIfIdle_eq]
    simp [hT]

/-- After `FileOpenVolume`, a read-write open of `"a"` below the root, closed again, leaves the
volume as the open found it. -/
theorem open_close_restores_fileA :
    ∃ s' calls, fileOpen 8 (rootOpened false).fs (rwHandle 256) nameA
        (efiFileModeRead ||| efiFileModeWrite) 0 fileAOracle = .ok (s', efiSuccess, some 4096) ∧
      fileClose s' 4096 = .ok ({ (rootOpened false).fs with
        log := (rootOpened false).fs.log ++ calls }, efiSuccess) := by
  have hopen : fileOpen 8 (rootOpened false).fs (rwHandle 256) nameA
      (efiFileModeRead ||| efiFileModeWrite) 0 fileAOracle = .ok (_, efiSuccess, some 4096) := rfl
  obtain ⟨calls, hc⟩ := @open_close_restores 8 _ (rootOpened_reachable 8 false) rfl ⟨256, false⟩
    (by simp [rootOpened]) nameA _ 0 fileAOracle (fileAOracle_sound false) _ _ 4096 hopen
  exact ⟨_, calls, hopen, hc⟩

/-- **`FileClose` undoes `FileOpenVolume`, but for the mount.** In every reachable world of a
writable volume, for any environment that keeps its promises: when `FileOpenVolume` returns a
value, `FileClose` of that value succeeds and leaves the volume as it was before, but for the
calls it appends to the log and the mount, which is then set exactly when values are out. -/
theorem openVolume_close_restores {PATH_MAX : Nat} {w : World} (hw : Reachable PATH_MAX w)
    (hro : w.fs.readOnly = false) {o : VolumeOracle} (env : o.Sound w.fs) {s' : EfiFs}
    {st : EfiStatus} {v : Nat} (hopen : fileOpenVolume w.fs o = (s', st, some v)) :
    ∃ calls, fileClose s' v = .ok ({ w.fs with
      mounted := decide (0 < w.fs.totalRefCount)
      log := w.fs.log ++ calls }, efiSuccess) := by
  have hS := settled_reachable hw hro
  rcases fileOpenVolume_cases env hopen with ⟨-, hr, -⟩ | ⟨-, b, hv, hs⟩
  · cases hr
  obtain rfl : v = b := Option.some.inj hv
  -- the world after the call decodes the value it returned
  have hdec : baseFile s' v = v := by
    obtain ⟨-, -, hbase, -⟩ := (refInv_openVolume (refInv_reachable hw) env hopen).decode
      (show (⟨v, false⟩ : Handle) ∈ _ by simp [Handle.ofValue])
    exact hbase
  cases hs with
  | @fresh g calls ha hp hg hgp _ _ =>
    -- a new root instance: released with its path, both taken from free memory
    have hg0 : g.refCount = 0 := by
      simpa [NtfsFile.refPart, NtfsFile.fresh] using congrArg Prod.fst hg
    refine ⟨calls ++ [.closeFile o.fileAddr, .freeFile o.fileAddr, .freePool o.pathAddr] ++
      if w.fs.totalRefCount ≤ 0 then [.unmountVolume] else [], ?_⟩
    rw [fileClose_setFile_addRef hdec ha hg0 (hgp ▸ hp), unmountIfIdle_eq]
    simp only [EfiFs.ext_iff]
    simp [EfiFs.record, EfiFs.dropFile, freePool_of_ne _ hp, hgp, Function.update_eq_self_iff,
      (env.file ha).1, env.path hp]
  | @reused _ calls hc _ =>
    -- a root instance the engine handed back: on a writable volume it holds a reference already
    obtain ⟨F, hF⟩ := Option.isSome_iff_exists.mp hc
    refine ⟨calls ++ if w.fs.totalRefCount ≤ 0 then [.unmountVolume] else [], ?_⟩
    rw [fileClose_addRef hdec (by exact hF) (hS.held v F.refPart (by simp [EfiFs.refs, hF])),
      unmountIfIdle_eq]
    simp

/-- `FileOpenVolume` on a writable volume before the first call, and a `FileClose` of the root:
the volume is empty and unmounted again. -/
theorem openVolume_close_restores_blank :
    ∃ s' calls, fileOpenVolume (blankVolume false) rootOracle = (s', efiSuccess, some 256) ∧
      fileClose s' 256 = .ok ({ blankVolume false with
        mounted := decide (0 < (blankVolume false).totalRefCount)
        log := (blankVolume false).log ++ calls }, efiSuccess) := by
  have hopen : fileOpenVolume (blankVolume false) rootOracle = (_, efiSuccess, some 256) := rfl
  obtain ⟨calls, hc⟩ := @openVolume_close_restores 8 ⟨blankVolume false, []⟩ (.init _ _ _ _) rfl
    rootOracle (rootOracle_sound false none) _ _ 256 hopen
  exact ⟨_, calls, hopen, hc⟩

end UefiNtfs
