import UefiNtfs.OpenClose
import UefiNtfs.PathInvariant
import UefiNtfs.Delete

set_option autoImplicit false

/-! # The root flag

`IsRoot` is not read from the volume: `NtfsOpenFile` sets it when it opens an instance whose
path is `"/"`, and nothing changes it afterwards. `FileOpen` reads it to refuse `".."` on the root
and `FileDelete` to refuse deleting the root, so both rely on it matching the path.

It does, over every run (`root_flag_truthful`): an open instance is flagged as the root exactly
when it holds an inode for the path `"/"` (`RootTruth`). An instance the engine opens is flagged
by its path; one it creates is not flagged, and the check of line 150 refuses to create at
`"/"`; one the engine fails to open holds no inode and is not flagged; and every other call keeps
the instances' flags and paths, and the string at each path (`RootFlag.of_keep`). So
`FileDelete` refuses a value exactly when its instance holds no inode or is `"/"`.
-/

namespace UefiNtfs

/-! ## What the flag should say -/

/-- What the root flag of an instance should say: that it holds an inode for the path `"/"`. -/
def RootTruth (s : EfiFs) (f : NtfsFile) : Prop :=
  f.isRoot = true ↔ f.ntfsInode = true ∧ s.pathStr f = some rootPath

/-- The root's path is the one-cell string `"/"`. -/
theorem cells_of_rootPath {buf : Buf} (h : buf.str 0 = some rootPath) :
    buf.cell 0 = pathChar ∧ buf.cell 1 = 0 := by
  obtain ⟨-, hcells, hnul, -⟩ := Buf.hasStr_iff.mp (Buf.str_eq_some_iff.mp h)
  exact ⟨hcells 0 (by decide), hnul⟩

/-- The truth of a root flag reads the instance's flags and path, and the pool. -/
theorem RootTruth.of_pool {s s' : EfiFs} {f : NtfsFile} (h : s'.pool f.path = s.pool f.path) :
    RootTruth s' f ↔ RootTruth s f := by
  simp [RootTruth, EfiFs.pathStr, h]

/-- One more reference keeps every instance's flags and path, and the pool. -/
theorem rootTruth_addRef {s : EfiFs} {b x : Nat} {g : NtfsFile} (hg : (s.addRef b).files x = some g)
    (h : ∀ f, s.files x = some f → RootTruth s f) : RootTruth (s.addRef b) g := by
  rw [@RootTruth.of_pool s (s.addRef b) g (by simp)]
  cases hb : s.files b with
  | none =>
    rw [show (s.addRef b).files = s.files by
      show (s.modifyFile b _).files = _; rw [EfiFs.modifyFile_of_none _ hb]] at hg
    exact h g hg
  | some f =>
    rw [EfiFs.addRef_files _ _ hb, Function.update_apply] at hg
    split at hg
    · next hx => subst hx; obtain rfl := Option.some.inj hg; exact h f hb
    · exact h g hg

/-- An instance that is not there is not there after one more reference. -/
theorem EfiFs.addRef_files_of_none {s : EfiFs} {b x : Nat} (h : s.files x = none) :
    (s.addRef b).files x = none := by
  show (s.modifyFile b _).files x = none
  unfold EfiFs.modifyFile; split
  · next f hf => simp only [EfiFs.setFile_files, Function.update_apply]; split <;> simp_all
  · exact h

/-- One more reference to `b` leaves every other instance where it is. -/
theorem EfiFs.addRef_files_of_ne {s : EfiFs} {b x : Nat} (hx : x ≠ b) :
    (s.addRef b).files x = s.files x := by
  show (s.modifyFile b _).files x = _
  unfold EfiFs.modifyFile; split
  · simp [hx]
  · rfl

/-! ## The instance the engine opens -/

section Engine

variable {s s' : EfiFs} {st : EfiStatus} {b nb : Nat} {f : NtfsFile}

/-- The instance the engine's open leaves at `b`, if it leaves one: the root exactly when it
holds an inode for `"/"`, and with the path it had. -/
theorem ntfsOpenFile_rootTruth (hb : s.files b = some f) (h0 : b ≠ 0) (hf : f.refCount = 0)
    (hroot : f.isRoot = false) (hino : f.ntfsInode = false) {out : OpenOutcome} (h : ntfsOpenFile s b out = (s', st, nb))
    {g : NtfsFile} (hg : s'.files b = some g) : g.path = f.path ∧ RootTruth s' g := by
  cases out <;> simp only [ntfsOpenFile, Prod.mk.injEq] at h <;> obtain ⟨rfl, -, -⟩ := h
  case fail =>
    obtain rfl : g = f := Option.some.inj (hg.symm.trans hb)
    simp [RootTruth, hroot, hino]
  case opened dir =>
    rw [EfiFs.modifyFile_of_some _ (by simpa using hb)] at hg ⊢
    simp only [EfiFs.setFile_files, Function.update_same, Option.some.injEq] at hg
    subst hg
    simp [RootTruth, EfiFs.pathStr]
  case reused =>
    rw [ntfsFreeFile_of_unref _ (by simpa using hb) h0 hf] at hg
    simp at hg

/-- The same for the engine's open or create: an instance the engine creates is not flagged as
the root, so it holds an inode for `"/"` only if its path was `"/"` already, which the caller
rules out. -/
theorem engineOpen_rootTruth {Mode Attributes : UInt64} {o : OpenOracle} (hb : s.files b = some f)
    (h0 : b ≠ 0) (hf : f.refCount = 0) (hroot : f.isRoot = false) (hino : f.ntfsInode = false)
    (hcr : (Mode &&& efiFileModeCreate != 0) = true → s.pathStr f ≠ some rootPath)
    (h : engineOpen s b Mode Attributes o = (s', st, nb)) {g : NtfsFile} (hg : s'.files b = some g) :
    g.path = f.path ∧ RootTruth s' g := by
  unfold engineOpen at h
  split at h
  · next hc =>
    rw [EfiFs.modifyFile_of_some _ hb] at h
    cases hout : o.onCreate <;> simp only [hout, ntfsCreateFile, Prod.mk.injEq] at h <;>
      obtain ⟨rfl, -, -⟩ := h
    case fail =>
      simp only [EfiFs.record_files, EfiFs.setFile_files, Function.update_same,
        Option.some.injEq] at hg
      subst hg
      simp [RootTruth, hroot, hino]
    case created =>
      rw [EfiFs.modifyFile_record, EfiFs.modifyFile_setFile] at hg ⊢
      simp only [EfiFs.record_files, EfiFs.setFile_files, Function.update_same,
        Option.some.injEq] at hg
      subst hg
      simpa [RootTruth, hroot, EfiFs.pathStr] using hcr hc
    case reused =>
      rw [@ntfsFreeFile_of_unref _ _ { f with isDir := Attributes &&& efiFileDirectory != 0 }
        (by simp) h0 hf] at hg
      simp at hg
  · exact ntfsOpenFile_rootTruth hb h0 hf hroot hino h hg

end Engine

/-! ## The new instance of `FileOpen` and of `FileOpenVolume` -/

section Open

variable {s s' : EfiFs} {st : EfiStatus} {Path : Nat} {buf : Buf} {Mode Attributes : UInt64}
  {o : OpenOracle} {r : Option Nat}

/-- **The new instance of a successful `openInstance`** is flagged as the root exactly when it
holds an inode for `"/"`: an opened instance is flagged when its path is `"/"`, and the check of
line 150 keeps a created one off `"/"`. -/
theorem openInstance_rootTruth (hbuf : s.pool Path = some buf)
    (h : openInstance s Path buf Mode Attributes o = .ok (s', st, r)) (hok : efiError st = false)
    {g : NtfsFile} (hg : s'.files o.fileAddr = some g) : RootTruth s' g := by
  unfold openInstance openEngine at h
  by_cases ha : o.fileAddr = 0
  · rw [ha, ntfsAllocateFile_zero] at h
    simp only [efiError_outOfResources, if_true, Except.ok.injEq, Prod.mk.injEq] at h
    obtain ⟨-, rfl, -⟩ := h
    simp at hok
  rw [ntfsAllocateFile_of_ne _ ha] at h
  simp only [efiError_success, Bool.false_eq_true, if_false] at h
  split at h
  · simp only [Except.ok.injEq, Prod.mk.injEq] at h
    obtain ⟨-, rfl, -⟩ := h
    simp at hok
  next hcr =>
  split at h
  · cases h
  next n hn =>
  rw [@EfiFs.modifyFile_of_some _ _ NtfsFile.fresh (by simp)] at h
  generalize h3 : engineOpen _ o.fileAddr Mode Attributes o = e at h
  obtain ⟨s3, st3, nb⟩ := e
  dsimp only at h
  split at h
  · simp only [Except.ok.injEq, Prod.mk.injEq] at h
    obtain ⟨-, rfl, -⟩ := h
    simp_all
  simp only [Except.ok.injEq, Prod.mk.injEq] at h
  obtain ⟨rfl, rfl, rfl⟩ := h
  refine rootTruth_addRef hg fun g₃ hg₃ => (engineOpen_rootTruth
    (EfiFs.setFile_files_self _ _ _) ha rfl rfl rfl ?_ h3 hg₃).2
  -- the check of line 150: a created path is not `"/"`
  intro hc hroot
  have hstr : buf.str 0 = some rootPath := by simpa [EfiFs.pathStr, hbuf] using hroot
  obtain ⟨h0, h1⟩ := cells_of_rootPath hstr
  simp [createsRoot, h0, h1, hc] at hcr

/-- **The new instance of a successful `FileOpen`** is flagged as the root exactly when it holds
an inode for `"/"`. -/
theorem fileOpen_rootTruth {PATH_MAX This : Nat} {Name : Str16} (hA : s.files o.fileAddr = none)
    (h : fileOpen PATH_MAX s This Name Mode Attributes o = .ok (s', st, r)) (hok : efiError st = false)
    {g : NtfsFile} (hg : s'.files o.fileAddr = some g) : RootTruth s' g := by
  unfold fileOpen at h
  dsimp only at h
  split at h
  · cases h
  split at h
  · -- a check before any allocation: nothing changes
    simp only [Except.ok.injEq, Prod.mk.injEq] at h
    obtain ⟨rfl, -, -⟩ := h
    simp [hA] at hg
  split at h
  · -- the reopen: one more reference to the parent
    simp only [Except.ok.injEq, Prod.mk.injEq] at h
    obtain ⟨rfl, -, -⟩ := h
    simp [EfiFs.addRef_files_of_none hA] at hg
  split at h
  · simp only [Except.ok.injEq, Prod.mk.injEq] at h
    obtain ⟨-, rfl, -⟩ := h
    simp at hok
  next hp =>
  split at h
  · cases h
  next s₁ buf hs₁ =>
  exact openInstance_rootTruth (by simp [openPath_ok hp hs₁]) h hok hg

end Open

section Volume

variable {s s' : EfiFs} {st : EfiStatus} {o : VolumeOracle} {r : Option Nat}

/-- **The root instance of a successful `FileOpenVolume`** is flagged as the root exactly when
it holds an inode; its path is `"/"`. -/
theorem fileOpenVolume_rootTruth (h : fileOpenVolume s o = (s', st, r)) (hok : efiError st = false)
    {g : NtfsFile} (hg : s'.files o.fileAddr = some g) : RootTruth s' g := by
  unfold fileOpenVolume at h
  dsimp only at h
  split at h
  · simp only [Prod.mk.injEq] at h
    obtain ⟨-, rfl, -⟩ := h
    simp_all
  by_cases ha : o.fileAddr = 0
  · simp only [ha, ntfsAllocateFile_zero, efiError_outOfResources, if_true, Prod.mk.injEq] at h
    obtain ⟨-, rfl, -⟩ := h
    simp at hok
  rw [ntfsAllocateFile_of_ne _ ha] at h
  simp only [efiError_success, Bool.false_eq_true, if_false] at h
  split at h
  · simp only [Prod.mk.injEq] at h
    obtain ⟨-, rfl, -⟩ := h
    simp at hok
  next hp =>
  rw [setupRootPath_eq hp (EfiFs.setFile_files_self _ _ _)] at h
  generalize h3 : ntfsOpenFile _ o.fileAddr o.onOpen = e at h
  obtain ⟨s3, st3, nb⟩ := e
  dsimp only at h
  split at h
  · simp only [Prod.mk.injEq] at h
    obtain ⟨-, rfl, -⟩ := h
    simp_all
  simp only [Prod.mk.injEq] at h
  obtain ⟨rfl, rfl, rfl⟩ := h
  exact rootTruth_addRef hg fun g₃ hg₃ =>
    (ntfsOpenFile_rootTruth (EfiFs.setFile_files_self _ _ _) ha rfl rfl rfl h3 hg₃).2

end Volume

/-! ## The invariant -/

/-- **The root-flag invariant**: every open instance is flagged as the root exactly when it holds
an inode for `"/"`. -/
def RootFlag (s : EfiFs) : Prop := ∀ b f, s.files b = some f → RootTruth s f

namespace RootFlag

variable {s s' : EfiFs}

theorem init (readOnly : Bool) (label : Option Str16) (blockIo : Media) (blockIo2 : Option Media) :
    RootFlag (EfiFs.init readOnly label blockIo blockIo2) := fun _ _ h => (by cases h)

/-- The flags survive a call after which every instance is one that was there, with its flags and
its path, and the same buffer at its path. -/
theorem of_keep (h : RootFlag s) (hk : ∀ b g, s'.files b = some g → ∃ f, s.files b = some f ∧
    g.isRoot = f.isRoot ∧ g.ntfsInode = f.ntfsInode ∧ g.path = f.path ∧ s'.pool g.path = s.pool g.path) :
    RootFlag s' := by
  intro b g hg
  obtain ⟨f, hf, hr, hn, hp, hpool⟩ := hk b g hg
  have := h b f hf
  simp only [RootTruth, EfiFs.pathStr] at this ⊢
  rw [hpool, hr, hn, hp]
  exact this

/-- A call that keeps the instances and the buffers. -/
theorem of_eq (h : RootFlag s) (hf : s'.files = s.files) (hp : s'.pool = s.pool) : RootFlag s' :=
  h.of_keep fun b g hg => ⟨g, hf ▸ hg, rfl, rfl, rfl, by rw [hp]⟩

/-- One more reference, after a call that kept the instances and the buffers. -/
theorem addRef (h : RootFlag s) {s₀ : EfiFs} (b : Nat) (hf : s₀.files = s.files) (hp : s₀.pool = s.pool) :
    RootFlag (s₀.addRef b) :=
  fun _ _ hg => rootTruth_addRef hg fun f hf' => (RootTruth.of_pool (by rw [hp])).mpr (h _ f (hf ▸ hf'))

/-- A call that lowers the count of the instance `F` at `b`, changing nothing else. -/
theorem of_setFile (h : RootFlag s) {b : Nat} {F G : NtfsFile} (hF : s.files b = some F)
    (hG : G.isRoot = F.isRoot ∧ G.ntfsInode = F.ntfsInode ∧ G.path = F.path)
    (hf : s'.files = Function.update s.files b (some G)) (hp : s'.pool = s.pool) : RootFlag s' :=
  h.of_keep fun x g hg => by
    rw [hf, Function.update_apply] at hg
    split at hg
    · next hx => subst hx; obtain rfl := Option.some.inj hg; exact ⟨F, hF, hG.1, hG.2.1, hG.2.2, by rw [hp]⟩
    · exact ⟨g, hg, rfl, rfl, rfl, by rw [hp]⟩

/-- A call that releases the instance `F` at `b` and changes the pool at most at its path: the
other instances' buffers are elsewhere. -/
theorem of_release (h : RootFlag s) (hi : PathInv s) {b : Nat} {F : NtfsFile} (hF : s.files b = some F)
    (hf : s'.files = Function.update s.files b none) (hp : ∀ p, p ≠ F.path → s'.pool p = s.pool p) :
    RootFlag s' :=
  h.of_keep fun x g hg => by
    rw [hf, Function.update_apply] at hg
    split at hg
    · cases hg
    · next hx => exact ⟨g, hg, rfl, rfl, rfl, hp _ fun hpath => hx (hi.apart x b g F hg hF hpath)⟩

end RootFlag

/-! ## The calls that take a value back -/

/-- **`FileClose`** keeps the root flags: it lowers a count, or releases an instance with its
path. -/
theorem rootFlag_close {s s' : EfiFs} {out : List Handle} (hr : RefInv s.refs s.totalRefCount out)
    (hi : PathInv s) (h : RootFlag s) {hd : Handle} (hh : hd ∈ out) {st : EfiStatus}
    (hc : fileClose s hd.value = .ok (s', st)) : RootFlag s' := by
  obtain ⟨F, hF, hbase, -⟩ := hr.decode hh
  have h1 := hr.refCount_pos hh hF
  rcases eq_or_lt_of_le h1 with h1 | h1
  · rw [fileClose_of_last hbase hF (hr.file_ne_zero hh) h1.symm] at hc
    obtain ⟨rfl, -⟩ := Prod.mk.inj (Except.ok.inj hc)
    refine h.of_release hi hF (by simp) fun p hp => ?_
    simp [freePool_pool]
    split <;> simp [Function.update_apply, hp]
  · rw [fileClose_of_kept hbase hF (by omega)] at hc
    obtain ⟨rfl, -⟩ := Prod.mk.inj (Except.ok.inj hc)
    exact @RootFlag.of_setFile s _ h _ F { F with refCount := F.refCount - 1 } hF ⟨rfl, rfl, rfl⟩
      (by simp) (by simp)


/-- **`FileDelete`** keeps the root flags: it refuses, lowers a count, or deletes and releases an
instance with its path. -/
theorem rootFlag_delete {s s' : EfiFs} {out : List Handle} (hr : RefInv s.refs s.totalRefCount out)
    (hi : PathInv s) (h : RootFlag s) {hd : Handle} (hh : hd ∈ out) {onDelete st : EfiStatus}
    (hdel : fileDelete s hd.value onDelete = .ok (s', st)) : RootFlag s' := by
  obtain ⟨F, hF, hbase, -⟩ := hr.decode hh
  rcases fileDelete_cases (hbase ▸ hF) hdel with ⟨-, -, rfl⟩ | ⟨-, -, -, rfl⟩ | ⟨-, -, hle, -, rfl⟩
  · exact h
  · exact @RootFlag.of_setFile s _ h _ F { F with refCount := F.refCount - 1 } (hbase ▸ hF)
      ⟨rfl, rfl, rfl⟩ (by simp) (by simp)
  -- the last value: the instance is deleted, then released with its path
  have h1 : F.refCount - 1 = 0 := by have := hr.refCount_pos hh hF; omega
  rw [hbase]
  simp only [ntfsDeleteFile]
  rw [@EfiFs.modifyFile_of_some _ _ { F with refCount := F.refCount - 1 } (by simp),
    @ntfsFreeFile_of_unref _ _ { F with refCount := F.refCount - 1, ntfsInode := false } (by simp)
      (hr.file_ne_zero hh) h1]
  refine h.of_release hi hF (by simp) fun p hp => ?_
  simp only [unmountIfIdle_pool, EfiFs.dropFile_pool, freePool_pool]
  split <;> simp [Function.update_apply, hp]

/-- An access call keeps the root flags. -/
theorem AccessFrame.rootFlag {s s' : EfiFs} (hf : AccessFrame s s') (h : RootFlag s) : RootFlag s' :=
  h.of_keep fun b g hg => by
    have hb := hf.files b
    rw [hg] at hb
    cases hs : s.files b with
    | none => simp [hs] at hb
    | some f =>
      obtain hfix : g.fixed = f.fixed := by simpa [hs] using hb
      have hroot := congrArg NtfsFile.isRoot hfix
      have hino := congrArg NtfsFile.ntfsInode hfix
      have hpath := congrArg NtfsFile.path hfix
      exact ⟨f, rfl, hroot, hino, hpath, by rw [hf.pool]⟩

/-! ## Runs -/

/-- **One call keeps the root flags.** -/
theorem rootFlag_step {PATH_MAX : Nat} {w w' : World} (hs : Step PATH_MAX w w')
    (hr : RefInv w.fs.refs w.fs.totalRefCount w.out) (hi : PathInv w.fs) (h : RootFlag w.fs) :
    RootFlag w'.fs := by
  cases hs with
  | @openVolume o fs st r env hrun =>
    cases herr : efiError st
    · obtain ⟨-, b, -, hv⟩ := fileOpenVolume_success env hrun herr
      cases hv with
      | fresh ha hp _ _ _ _ =>
        intro x g hg
        by_cases hx : x = o.fileAddr
        · subst hx; exact fileOpenVolume_rootTruth hrun herr hg
        -- an instance that was there, its path clear of the new buffer
        rw [EfiFs.addRef_files_of_ne hx] at hg
        simp only [EfiFs.setFile_files, Function.update_apply, hx, if_false] at hg
        exact (RootTruth.of_pool (by simp [hi.path_ne hg (env.path hp)])).mpr (h x g hg)
      | reused => exact h.addRef _ rfl rfl
    · obtain ⟨-, calls, rfl, -⟩ := fileOpenVolume_error env hrun herr
      exact h.of_eq rfl rfl
  | @«open» hd hh Name Mode Attributes o fs st r env hrun =>
    cases herr : efiError st
    · obtain ⟨-, b, -, ho⟩ := fileOpen_success env hrun herr
      cases ho with
      | reopen => exact h.addRef _ rfl rfl
      | fresh ha hp _ _ _ _ _ _ _ =>
        intro x g hg
        by_cases hx : x = o.fileAddr
        · subst hx; exact fileOpen_rootTruth (env.file ha).1 hrun herr hg
        rw [EfiFs.addRef_files_of_ne hx] at hg
        simp only [EfiFs.setFile_files, Function.update_apply, hx, if_false] at hg
        exact (RootTruth.of_pool (by simp [hi.path_ne hg (env.path hp)])).mpr (h x g hg)
      | reused => exact h.addRef _ rfl rfl
    · obtain ⟨-, calls, rfl, -⟩ := fileOpen_error env hrun herr
      exact h.of_eq rfl rfl
  | close hd hh hrun => exact rootFlag_close hr hi h hh hrun
  | delete hd hh onDelete hrun =>
    show RootFlag _
    exact rootFlag_delete hr hi h hh hrun
  | access hd hh a hrun => exact (Access.run_frame hrun).rootFlag h

/-- Every reachable world keeps the root flags. -/
theorem rootFlag_reachable {PATH_MAX : Nat} {w : World} (hw : Reachable PATH_MAX w) : RootFlag w.fs := by
  induction hw with
  | init readOnly label blockIo blockIo2 => exact RootFlag.init readOnly label blockIo blockIo2
  | step hw hs ih => exact rootFlag_step hs (refInv_reachable hw) (pathInv_reachable hw) ih

/-- **`IsRoot` tells the truth.** In every reachable world, an open instance is flagged as the
root exactly when it holds an inode for the path `"/"`: `FileOpen` never creates an instance at
`"/"`, and whatever the engine does, no other instance is taken for the root. So `FileDelete`
refuses a value out exactly when its instance holds no inode or is the root directory `"/"`. -/
theorem root_flag_truthful {PATH_MAX : Nat} {w : World} (hw : Reachable PATH_MAX w) :
    (∀ b f, w.fs.files b = some f →
      (f.isRoot = true ↔ f.ntfsInode = true ∧ w.fs.pathStr f = some rootPath)) ∧
    ∀ h ∈ w.out, ∃ F, w.fs.files h.file = some F ∧
      (deleteRefused w.fs h.value = true ↔ F.ntfsInode = false ∨ w.fs.pathStr F = some rootPath) := by
  have hf := rootFlag_reachable hw
  refine ⟨hf, fun h hh => ?_⟩
  obtain ⟨F, hF, hbase, -⟩ := (refInv_reachable hw).decode hh
  have hroot : F.isRoot = true ↔ F.ntfsInode = true ∧ w.fs.pathStr F = some rootPath := hf _ F hF
  refine ⟨F, hF, ?_⟩
  cases hino : F.ntfsInode <;> simp_all [deleteRefused]

/-- The root instance `FileOpenVolume` opened is flagged as the root, and FileDelete refuses its
value. -/
theorem root_flag_truthful_rootOpened :
    (∀ b f, (rootOpened false).fs.files b = some f →
      (f.isRoot = true ↔ f.ntfsInode = true ∧ (rootOpened false).fs.pathStr f = some rootPath)) ∧
    ∀ h ∈ (rootOpened false).out, ∃ F, (rootOpened false).fs.files h.file = some F ∧
      (deleteRefused (rootOpened false).fs h.value = true ↔
        F.ntfsInode = false ∨ (rootOpened false).fs.pathStr F = some rootPath) :=
  root_flag_truthful (rootOpened_reachable 8 false)

end UefiNtfs
