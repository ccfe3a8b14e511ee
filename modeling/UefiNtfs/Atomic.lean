import UefiNtfs.Run

set_option autoImplicit false

/-! # A failed `FileOpen` leaves the volume as it found it

`FileOpen` allocates two things before the engine has the last word: the `PATH_MAX` path buffer
and the new instance. Every exit with an error status goes through `out:`, which calls
`NtfsFreeFile (NewFile)` (a no-op on `NULL` and on an instance with references) and
`FreePool (Path)` (a no-op on `NULL`, and `Path` is `NULL` once the instance owns it). This
module shows that these two calls undo exactly what was done: after an error the volume differs
from the one before the call only in the log of engine and pool calls, and that log frees every
buffer it allocated once, and releases the instance it allocated and no other.

The proof follows the call: the checks before any allocation (`openCheck`), the failed path
allocation, `openPath` (which only adds the path buffer), and `openInstance`, whose error exits
each undo the allocation of the instance and of the path.
-/

namespace UefiNtfs

/-! ## What a failed open may call -/

/-- The calls of a failed `FileOpen` that leave nothing behind: each pool buffer it allocates
is freed exactly once, `NtfsFreeFile` is called only on `NULL` or on the instance allocated at
`fileAddr`, and once an instance has been allocated it is passed to `NtfsFreeFile`. -/
structure RollbackCalls (fileAddr : Nat) (calls : List Call) : Prop where
  pool : ∀ p, calls.count (.freePool p) = calls.count (.allocatePool p) ∧
    calls.count (.allocatePool p) ≤ 1
  freed : ∀ b, Call.freeFile b ∈ calls → b = 0 ∨ b = fileAddr
  released : Call.allocateFile ∈ calls → Call.freeFile fileAddr ∈ calls

/-- The call the engine's open logs on the instance at `b`: `NtfsOpenFile`, or `NtfsCreateFile`
when `Mode` creates. -/
def OpenCall (Mode : UInt64) (b : Nat) (c : Call) : Prop :=
  c = .openFile b ∨ (c = .createFile b ∧ (Mode &&& efiFileModeCreate != 0) = true)

theorem OpenCall.writes_eq_false {Mode : UInt64} {b : Nat} {c : Call} (hc : OpenCall Mode b c)
    (hm : Mode = efiFileModeRead) : c.writes = false := by
  rcases hc with rfl | ⟨rfl, hcr⟩
  · rfl
  · subst hm; exact absurd hcr (by decide)

theorem OpenCall.isOpen {Mode : UInt64} {b : Nat} {c : Call} (hc : OpenCall Mode b c) :
    c = .openFile b ∨ c = .createFile b :=
  hc.imp_right And.left

theorem rollbackCalls_nil (fa : Nat) : RollbackCalls fa [] :=
  ⟨fun _ => by simp, fun _ h => by simp at h, fun h => by simp at h⟩

theorem rollbackCalls_null (fa : Nat) : RollbackCalls fa [.freeFile 0] :=
  ⟨fun _ => by simp, fun _ h => .inl (by simpa using h), fun h => by simp at h⟩

/-- The calls of an open that got as far as allocating its path buffer at `P` and its instance
at `fa`: the engine's calls `cs` on the instance sit between the allocations and the
releases. -/
theorem rollbackCalls_instance (fa P : Nat) (cs : List Call)
    (hcs : ∀ c ∈ cs, c = .openFile fa ∨ c = .createFile fa) :
    RollbackCalls fa ([.allocatePool P, .allocateFile] ++ cs ++ [.freeFile fa, .freePool P]) where
  pool p := by
    have hf : cs.count (.freePool p) = 0 := List.count_eq_zero.mpr fun h => by simpa using hcs _ h
    have ha : cs.count (.allocatePool p) = 0 :=
      List.count_eq_zero.mpr fun h => by simpa using hcs _ h
    rcases eq_or_ne p P with rfl | hp <;> simp [List.count_cons, hf, ha, *]
  freed b h := by
    rcases List.mem_append.mp h with h | h
    · rcases List.mem_append.mp h with h | h
      · simp at h
      · simpa using hcs _ h
    · exact .inr (by simpa using h)
  released _ := by simp

/-! ## The parts of `FileOpen` -/

section Parts

variable {PATH_MAX : Nat} {s s' : EfiFs} {Path : Nat} {buf : Buf} {Mode Attributes : UInt64}
  {o : OpenOracle} {st : EfiStatus} {r : Option Nat}

/-- On a read-only volume only `EFI_FILE_MODE_READ` passes the checks. -/
theorem openCheck_readOnly {F : NtfsFile} {Name : Str16} (h : openCheck s F Name Mode = none)
    (hro : s.readOnly = true) : Mode = efiFileModeRead := by
  unfold openCheck at h
  split at h
  · cases h
  next hm => simpa [ntfsIsVolumeReadOnly, hro] using hm

/-- `openPath` only adds the path buffer. -/
theorem openPath_ok {F : NtfsFile} {Name : Str16} (hp : Path ≠ 0)
    (h : openPath PATH_MAX s F Name Path = .ok (s', buf)) :
    s' = { s with
      pool := Function.update s.pool Path (some buf)
      log := s.log ++ [.allocatePool Path] } := by
  simp only [openPath, bind, Except.bind, allocateZeroPool_of_ne _ hp] at h
  split at h
  · cases h
  · split at h
    · cases h
    · split at h
      · cases h
      · simp only [pure, Except.pure, Except.ok.injEq, Prod.mk.injEq] at h
        obtain ⟨rfl, rfl⟩ := h
        simp [EfiFs.record]

/-- The engine's open or create fails only on the instance it was given, after changing none of
its reference words or its path. -/
theorem engineOpen_error {b nb : Nat} {f : NtfsFile} (hb : s.files b = some f)
    (h : engineOpen s b Mode Attributes o = (s', st, nb)) (herr : efiError st = true) :
    nb = b ∧ ∃ g c, s' = (s.setFile b g).record c ∧ g.refCount = f.refCount ∧ g.path = f.path ∧
      OpenCall Mode b c := by
  unfold engineOpen at h
  split at h
  next hcr =>
    rw [EfiFs.modifyFile_of_some _ hb] at h
    cases hc : o.onCreate <;> simp only [hc, ntfsCreateFile, Prod.mk.injEq] at h
    case fail => obtain ⟨rfl, rfl, rfl⟩ := h; exact ⟨rfl, _, _, rfl, rfl, rfl, .inr ⟨rfl, hcr⟩⟩
    all_goals obtain ⟨-, rfl, -⟩ := h; simp at herr
  · cases hc : o.onOpen <;> simp only [hc, ntfsOpenFile, Prod.mk.injEq] at h
    case fail =>
      obtain ⟨rfl, rfl, rfl⟩ := h
      exact ⟨rfl, f, _, by rw [s.setFile_of_eq hb], rfl, rfl, .inl rfl⟩
    all_goals obtain ⟨-, rfl, -⟩ := h; simp at herr

/-- **Rollback of `openInstance`.** Once the path buffer at `Path` is live, every error exit of
lines 142-188 releases the instance it allocated and frees the buffer. -/
theorem openInstance_error (hp : Path ≠ 0) (hfresh : o.fileAddr ≠ 0 → s.files o.fileAddr = none)
    (h : openInstance s Path buf Mode Attributes o = .ok (s', st, r)) (herr : efiError st = true) :
    r = none ∧ ∃ calls, s' = { s with
      pool := Function.update s.pool Path none
      log := s.log ++ calls } ∧ RollbackCalls o.fileAddr (.allocatePool Path :: calls) ∧
      ∀ c ∈ calls, c.writes = false ∨ OpenCall Mode o.fileAddr c := by
  unfold openInstance openEngine at h
  by_cases ha : o.fileAddr = 0
  · -- `NtfsAllocateFile` fails
    rw [ha, ntfsAllocateFile_zero] at h
    simp only [efiError_outOfResources, if_true, Except.ok.injEq, Prod.mk.injEq] at h
    obtain ⟨rfl, rfl, rfl⟩ := h
    refine ⟨rfl, [.allocateFile, .freeFile 0, .freePool Path], ?_, ?_, ?_⟩
    · simp [fileOpenOut, freePool_of_ne _ hp, EfiFs.record]
    · simpa [ha] using rollbackCalls_instance 0 Path [] (by simp)
    · exact fun c hc => .inl (Call.writes_eq_false_of_all (by rfl) c hc)
  have hfresh := hfresh ha
  rw [ntfsAllocateFile_of_ne _ ha] at h
  simp only [efiError_success, Bool.false_eq_true, if_false] at h
  split at h
  · -- the cleaned path is the root and the mode creates
    simp only [Except.ok.injEq, Prod.mk.injEq] at h
    obtain ⟨rfl, rfl, rfl⟩ := h
    refine ⟨rfl, [.allocateFile, .freeFile o.fileAddr, .freePool Path], ?_, ?_, ?_⟩
    · rw [fileOpenOut, if_pos efiError_accessDenied,
        @ntfsFreeFile_of_unref _ _ NtfsFile.fresh (by simp) ha rfl]
      simp [EfiFs.ext_iff, freePool_of_ne _ hp, EfiFs.record, EfiFs.setFile, EfiFs.dropFile,
        NtfsFile.fresh, hfresh]
    · simpa using rollbackCalls_instance o.fileAddr Path [] (by simp)
    · exact fun c hc => .inl (Call.writes_eq_false_of_all (by rfl) c hc)
  split at h
  · cases h
  rw [@EfiFs.modifyFile_of_some _ _ NtfsFile.fresh (by simp)] at h
  generalize h3 : engineOpen _ o.fileAddr Mode Attributes o = e at h
  obtain ⟨s3, st3, nb⟩ := e
  dsimp only at h
  split at h
  · -- the engine's open or create fails
    next herr3 =>
    obtain ⟨rfl, g, c, rfl, hg, hpath, hc⟩ := engineOpen_error (EfiFs.setFile_files_self _ _ _) h3 herr3
    simp only [Except.ok.injEq, Prod.mk.injEq] at h
    obtain ⟨rfl, rfl, rfl⟩ := h
    refine ⟨rfl, [.allocateFile, c, .freeFile o.fileAddr, .freePool Path], ?_, ?_, ?_⟩
    · rw [fileOpenOut, if_pos herr3, @ntfsFreeFile_of_unref _ _ g (by simp) ha
        (by simpa [NtfsFile.fresh] using hg), freePool_zero, hpath]
      simp [EfiFs.ext_iff, freePool_of_ne _ hp, EfiFs.record, EfiFs.setFile, EfiFs.dropFile,
        hfresh]
    · simpa using rollbackCalls_instance o.fileAddr Path [c] (by simpa using hc.isOpen)
    · simp [Call.writes, hc]
  · simp only [Except.ok.injEq, Prod.mk.injEq] at h
    obtain ⟨-, rfl, -⟩ := h
    simp at herr

end Parts

/-! ## `FileOpen` -/

/-- The rollback of a failed `FileOpen`, in the form the invariants of later modules use. -/
theorem fileOpen_error {PATH_MAX : Nat} {s s' : EfiFs} {This : Nat} {Name : Str16}
    {Mode Attributes : UInt64} {o : OpenOracle} {st : EfiStatus} {r : Option Nat}
    (env : o.Sound s) (h : fileOpen PATH_MAX s This Name Mode Attributes o = .ok (s', st, r))
    (herr : efiError st = true) :
    r = none ∧ ∃ calls, s' = { s with log := s.log ++ calls } ∧ RollbackCalls o.fileAddr calls ∧
      (s.readOnly = true → ∀ c ∈ calls, c.writes = false) := by
  unfold fileOpen at h
  dsimp only at h
  split at h
  · cases h
  next F _ =>
  split at h
  · -- a check before any allocation fails
    simp only [Except.ok.injEq, Prod.mk.injEq] at h
    obtain ⟨rfl, rfl, rfl⟩ := h
    exact ⟨rfl, [], by simp, rollbackCalls_nil _, by simp⟩
  next hcheck =>
  split at h
  · -- the reopen of `""` or `"."` succeeds
    simp only [Except.ok.injEq, Prod.mk.injEq] at h
    obtain ⟨-, rfl, -⟩ := h
    simp at herr
  split at h
  · -- the path buffer cannot be allocated
    simp only [Except.ok.injEq, Prod.mk.injEq] at h
    obtain ⟨rfl, rfl, rfl⟩ := h
    exact ⟨rfl, [.freeFile 0], by simp [fileOpenOut, EfiFs.record], rollbackCalls_null _,
      fun _ => Call.writes_eq_false_of_all rfl⟩
  next hp =>
  split at h
  · cases h
  next s1 buf hs1 =>
  obtain ⟨rfl, calls, rfl, hcalls, hw⟩ :=
    openInstance_error hp (fun ha => by simpa [openPath_ok hp hs1] using (env.file ha).1) h herr
  refine ⟨rfl, .allocatePool o.pathAddr :: calls, ?_, hcalls, fun hro c hc => ?_⟩
  · rw [openPath_ok hp hs1]
    simp [Function.update_idem, env.path hp]
  · rcases List.mem_cons.mp hc with rfl | hc
    · rfl
    · have hro' : s1.readOnly = true := by rw [openPath_ok hp hs1]; exact hro
      exact (hw c hc).elim id fun hc => hc.writes_eq_false (openCheck_readOnly hcheck hro)

/-- **`FileOpen` is atomic on failure.** Whatever the handle value, name, mode and attributes,
and whatever the allocators and the engine do (as long as they keep their promises), a
`FileOpen` that returns an error status does not write `*New`, and leaves the volume as it was
(its instances with their reference counts, `TotalRefCount`, the pool and the mount state) but
for the calls it made: each pool buffer they allocate they free exactly once, they call
`NtfsFreeFile` only on `NULL` or on the instance they allocated, and they release that
instance. -/
theorem fileOpen_error_rolls_back {PATH_MAX : Nat} {s s' : EfiFs} {This : Nat} {Name : Str16}
    {Mode Attributes : UInt64} {o : OpenOracle} {st : EfiStatus} {r : Option Nat}
    (env : o.Sound s) (h : fileOpen PATH_MAX s This Name Mode Attributes o = .ok (s', st, r))
    (herr : efiError st = true) :
    r = none ∧ ∃ calls, s' = { s with log := s.log ++ calls } ∧
      (∀ p, calls.count (.freePool p) = calls.count (.allocatePool p) ∧
        calls.count (.allocatePool p) ≤ 1) ∧
      (∀ b, Call.freeFile b ∈ calls → b = 0 ∨ b = o.fileAddr) ∧
      (Call.allocateFile ∈ calls → Call.freeFile o.fileAddr ∈ calls) := by
  obtain ⟨hr, calls, hs, hc, -⟩ := fileOpen_error env h herr
  exact ⟨hr, calls, hs, hc.pool, hc.freed, hc.released⟩

/-- A volume whose root directory is open once, read-write: the instance at `256`, its path
`"/"` in a pool buffer at `512`. -/
def rootVolume : EfiFs :=
  { files := fun b => if b = 256 then some { NtfsFile.fresh with
      isDir := true, isRoot := true, path := 512, baseName := 1, refCount := 1, ntfsInode := true }
      else none
    pool := fun p => if p = 512 then some ((Buf.zero 2).set 0 pathChar) else none
    totalRefCount := 1
    mounted := true
    readOnly := false
    volumeLabel := none
    blockIo := ⟨512, 0⟩
    blockIo2 := none
    log := [] }

/-- An open of `"a"` in which the allocators succeed and the engine answers `EFI_NOT_FOUND`. -/
def notFoundOracle : OpenOracle :=
  { pathAddr := 1024, fileAddr := 4096, onOpen := .fail efiNotFound,
    onCreate := .fail efiNotFound }

theorem notFoundOracle_sound : notFoundOracle.Sound rootVolume where
  file _ := ⟨rfl, fun b f h => by
    simp only [rootVolume] at h
    split at h
    · subst b; simp [notFoundOracle, objSize, sizeOfEfiFile, sizeOfUintn]
    · cases h⟩
  path _ := rfl
  onOpen := trivial
  onCreate := trivial

/-- The open of `"a"` that the engine refuses, rolled back. -/
theorem fileOpen_error_rolls_back_notFound :
    ∃ s', fileOpen 8 rootVolume 256 ⟨[0x61], by decide⟩ efiFileModeRead 0 notFoundOracle =
      .ok (s', efiNotFound, none) ∧
      ∃ calls, s' = { rootVolume with log := rootVolume.log ++ calls } ∧
        (∀ p, calls.count (.freePool p) = calls.count (.allocatePool p) ∧
          calls.count (.allocatePool p) ≤ 1) ∧
        (∀ b, Call.freeFile b ∈ calls → b = 0 ∨ b = notFoundOracle.fileAddr) ∧
        (Call.allocateFile ∈ calls → Call.freeFile notFoundOracle.fileAddr ∈ calls) := by
  have h : fileOpen 8 rootVolume 256 ⟨[0x61], by decide⟩ efiFileModeRead 0 notFoundOracle =
      .ok (_, efiNotFound, none) := rfl
  exact ⟨_, h, (fileOpen_error_rolls_back notFoundOracle_sound h (by decide)).2⟩

end UefiNtfs
