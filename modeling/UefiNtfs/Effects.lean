import UefiNtfs.Atomic
import UefiNtfs.Frame

set_option autoImplicit false

/-! # What the calls that hand out and take back values do

`FileOpen` succeeds in three ways: it reopens its parent for `""` or `"."`; it opens or creates
a new instance at the address the allocator gave, which then owns the path buffer; or the engine
hands back an instance already open for the path, and the new instance and its path are released
again. `FileOpenVolume` succeeds in the last two ways, and when it fails it leaves everything as
it was but the mount state, which it clears. Either way the instance the returned value stands
for gains one reference, and so does the volume.

The lemmas here say this once per call (`fileOpen_success`, `fileOpenVolume_success`,
`fileOpenVolume_error`), so that the invariants of the later modules never unfold the calls.
-/

namespace UefiNtfs

/-! ## The engine's open -/

section Engine

variable {s s' : EfiFs} {st : EfiStatus}

/-- What `NtfsOpenFile` does to the instance at `b`: it opens it in place, or releases it and
hands back the one the outcome names; it changes none of the instance's reference words, its
path, its base name or its `DirPos`. -/
theorem ntfsOpenFile_spec {b nb : Nat} {f : NtfsFile} {out : OpenOutcome} (hb : s.files b = some f)
    (h : ntfsOpenFile s b out = (s', st, nb)) :
    ∃ g, g.refPart = f.refPart ∧ g.path = f.path ∧ g.baseName = f.baseName ∧ g.dirPos = f.dirPos ∧
      ((nb = b ∧ s' = (s.setFile b g).record (.openFile b)) ∨
       (out = .reused nb ∧ s' = ntfsFreeFile ((s.setFile b g).record (.openFile b)) b)) := by
  cases out <;> simp only [ntfsOpenFile, Prod.mk.injEq] at h
  case fail =>
    obtain ⟨rfl, -, rfl⟩ := h; exact ⟨f, rfl, rfl, rfl, rfl, .inl ⟨rfl, by rw [s.setFile_of_eq hb]⟩⟩
  case opened dir =>
    obtain ⟨rfl, -, rfl⟩ := h
    refine ⟨{ f with ntfsInode := true, isDir := dir, isRoot := s.pathStr f == some rootPath }, rfl,
      rfl, rfl, rfl, .inl ⟨rfl, ?_⟩⟩
    rw [EfiFs.modifyFile_record, EfiFs.modifyFile_of_some _ hb]
  case reused b' =>
    obtain ⟨rfl, -, rfl⟩ := h
    exact ⟨f, rfl, rfl, rfl, rfl, .inr ⟨rfl, by rw [s.setFile_of_eq hb]⟩⟩

variable {Mode Attributes : UInt64} {o : OpenOracle}

/-- What the engine's open or create does to the new instance at `b`, as `ntfsOpenFile_spec`
says, with `NtfsCreateFile` in place of `NtfsOpenFile` when the mode creates. -/
theorem engineOpen_spec {b nb : Nat} {f : NtfsFile} (hb : s.files b = some f)
    (h : engineOpen s b Mode Attributes o = (s', st, nb)) :
    ∃ c g, OpenCall Mode b c ∧ g.refPart = f.refPart ∧ g.path = f.path ∧
      g.baseName = f.baseName ∧ g.dirPos = f.dirPos ∧
      ((nb = b ∧ s' = (s.setFile b g).record c) ∨
       ((o.onOpen = .reused nb ∨ o.onCreate = .reused nb) ∧
         s' = ntfsFreeFile ((s.setFile b g).record c) b)) := by
  unfold engineOpen at h
  split at h
  next hcr =>
    rw [EfiFs.modifyFile_of_some _ hb] at h
    cases hc : o.onCreate <;> simp only [hc, ntfsCreateFile, Prod.mk.injEq] at h
    case fail =>
      obtain ⟨rfl, -, rfl⟩ := h
      exact ⟨_, { f with isDir := Attributes &&& efiFileDirectory != 0 }, .inr ⟨rfl, hcr⟩, rfl, rfl,
        rfl, rfl, .inl ⟨rfl, rfl⟩⟩
    case created =>
      obtain ⟨rfl, -, rfl⟩ := h
      refine ⟨_, { f with isDir := Attributes &&& efiFileDirectory != 0, ntfsInode := true },
        .inr ⟨rfl, hcr⟩, rfl, rfl, rfl, rfl, .inl ⟨rfl, ?_⟩⟩
      rw [EfiFs.modifyFile_record, EfiFs.modifyFile_setFile]
    case reused b' =>
      obtain ⟨rfl, -, rfl⟩ := h
      exact ⟨_, { f with isDir := Attributes &&& efiFileDirectory != 0 }, .inr ⟨rfl, hcr⟩, rfl, rfl,
        rfl, rfl, .inr ⟨.inr rfl, rfl⟩⟩
  · obtain ⟨g, hg, hgp, hgb, hgd, hcase⟩ := ntfsOpenFile_spec hb h
    refine ⟨_, g, .inl rfl, hg, hgp, hgb, hgd, ?_⟩
    rcases hcase with h | ⟨hre, h⟩
    · exact .inl h
    · exact .inr ⟨.inl hre, h⟩

end Engine

/-! ## `FileOpen` -/

section Open

variable {PATH_MAX : Nat} {s s' : EfiFs} {This Path : Nat} {Name : Str16} {buf : Buf}
  {Mode Attributes : UInt64} {o : OpenOracle} {st : EfiStatus} {r : Option Nat}

/-- The checks of lines 64-96 fail only with error statuses. -/
theorem openCheck_error {F : NtfsFile} (h : openCheck s F Name Mode = some st) :
    efiError st = true := by
  unfold openCheck at h
  repeat' split at h
  all_goals cases h <;> simp

/-- **Success of `openInstance`.** The engine opened or created the new instance, which gets the
path and its first reference, or it handed back another instance, which gets the reference
while the new one and the path buffer are released. -/
theorem openInstance_success (hp : Path ≠ 0)
    (hfresh : o.fileAddr ≠ 0 → s.files o.fileAddr = none)
    (h : openInstance s Path buf Mode Attributes o = .ok (s', st, r)) (hok : efiError st = false) :
    st = efiSuccess ∧ o.fileAddr ≠ 0 ∧ ∃ (nb : Nat) (c : Call), r = some (openedHandle Mode nb) ∧
      OpenCall Mode o.fileAddr c ∧
      ((nb = o.fileAddr ∧ ∃ (n : Nat) (g : NtfsFile), safeStrLen buf 0 = .ok n ∧
          g.refPart = NtfsFile.fresh.refPart ∧ g.path = Path ∧ g.baseName = baseNameIndex buf n ∧
          g.dirPos = 0 ∧
          s' = ({ s with log := s.log ++ [Call.allocateFile, c] }.setFile o.fileAddr g).addRef nb) ∨
       ((o.onOpen = .reused nb ∨ o.onCreate = .reused nb) ∧
          s' = { s with
            pool := Function.update s.pool Path none
            log := s.log ++ [Call.allocateFile, c, Call.freeFile o.fileAddr, Call.freePool Path] }.addRef
              nb)) := by
  unfold openInstance openEngine at h
  by_cases ha : o.fileAddr = 0
  · rw [ha, ntfsAllocateFile_zero] at h
    simp only [efiError_outOfResources, if_true, Except.ok.injEq, Prod.mk.injEq] at h
    obtain ⟨-, rfl, -⟩ := h
    simp at hok
  have hfresh := hfresh ha
  rw [ntfsAllocateFile_of_ne _ ha] at h
  simp only [efiError_success, Bool.false_eq_true, if_false] at h
  split at h
  · simp only [Except.ok.injEq, Prod.mk.injEq] at h
    obtain ⟨-, rfl, -⟩ := h
    simp at hok
  split at h
  · cases h
  next n hn =>
  rw [@EfiFs.modifyFile_of_some _ _ NtfsFile.fresh (by simp)] at h
  generalize h3 : engineOpen _ o.fileAddr Mode Attributes o = e at h
  obtain ⟨s3, st3, nb⟩ := e
  dsimp only at h
  split at h
  · simp only [Except.ok.injEq, Prod.mk.injEq] at h
    obtain ⟨-, rfl, -⟩ := h
    simp_all
  next hok3 =>
  simp only [Bool.not_eq_true] at hok3
  simp only [Except.ok.injEq, Prod.mk.injEq] at h
  obtain ⟨rfl, rfl, rfl⟩ := h
  obtain ⟨c, g, hc, hg, hgp, hgb, hgd, hcase⟩ := engineOpen_spec (EfiFs.setFile_files_self _ _ _) h3
  refine ⟨rfl, ha, nb, c, rfl, hc, ?_⟩
  rcases hcase with ⟨rfl, rfl⟩ | ⟨hre, rfl⟩
  · -- the new instance is open
    refine .inl ⟨rfl, n, g, hn, hg, hgp, hgb, hgd, ?_⟩
    congr 1
    simp [EfiFs.ext_iff, EfiFs.record, EfiFs.setFile]
  · -- the engine handed back another instance
    refine .inr ⟨hre, ?_⟩
    have hg0 : g.refCount = 0 := by
      simpa [NtfsFile.refPart, NtfsFile.fresh] using congrArg Prod.fst hg
    rw [@ntfsFreeFile_of_unref _ _ g (by simp) ha hg0, hgp]
    congr 1
    simp [EfiFs.ext_iff, freePool_of_ne _ hp, EfiFs.record, EfiFs.setFile, EfiFs.dropFile,
      hfresh]

/-- The three ways a `FileOpen (This, Name)` succeeds, from `s` to `s'`, the value it returns
standing for the instance at `b`. -/
inductive OpenSuccess (PATH_MAX : Nat) (s : EfiFs) (This : Nat) (Name : Str16) (o : OpenOracle) :
    EfiFs → Nat → Prop
  /-- `""` or `"."`: one more reference to the parent. -/
  | reopen {F : NtfsFile} : s.files (baseFile s This) = some F →
      (Name.units = [] ∨ Name.units = [dotChar]) →
      OpenSuccess PATH_MAX s This Name o (s.addRef (baseFile s This)) (baseFile s This)
  /-- A new instance at `o.fileAddr`, which owns the path buffer at `o.pathAddr`. -/
  | fresh {F : NtfsFile} {s₁ : EfiFs} {buf : Buf} {n : Nat} {g : NtfsFile} {calls : List Call} :
      o.fileAddr ≠ 0 → o.pathAddr ≠ 0 → s.files (baseFile s This) = some F →
      openPath PATH_MAX s F Name o.pathAddr = .ok (s₁, buf) → safeStrLen buf 0 = .ok n →
      g.refPart = NtfsFile.fresh.refPart → g.path = o.pathAddr → g.baseName = baseNameIndex buf n →
      Quiet s calls → g.dirPos = 0 →
      OpenSuccess PATH_MAX s This Name o
        (({ s with
            pool := Function.update s.pool o.pathAddr (some buf)
            log := s.log ++ calls }.setFile o.fileAddr g).addRef o.fileAddr) o.fileAddr
  /-- An instance already open, which the engine handed back in place of the new one, whose path
  `openPath` had built. -/
  | reused {b : Nat} {calls : List Call} {F : NtfsFile} {s₁ : EfiFs} {buf : Buf} :
      (s.files b).isSome → Quiet s calls → s.files (baseFile s This) = some F → o.pathAddr ≠ 0 →
      openPath PATH_MAX s F Name o.pathAddr = .ok (s₁, buf) →
      (o.onOpen = .reused b ∨ o.onCreate = .reused b) →
      OpenSuccess PATH_MAX s This Name o ({ s with log := s.log ++ calls }.addRef b) b

/-- **Success of `FileOpen`.** A `FileOpen` that does not fail returns `EFI_SUCCESS` and a value
for one of the instances `OpenSuccess` describes. -/
theorem fileOpen_success (env : o.Sound s)
    (h : fileOpen PATH_MAX s This Name Mode Attributes o = .ok (s', st, r))
    (hok : efiError st = false) :
    st = efiSuccess ∧ ∃ b, r = some (openedHandle Mode b) ∧ OpenSuccess PATH_MAX s This Name o s' b := by
  unfold fileOpen at h
  dsimp only at h
  split at h
  · cases h
  next F hF =>
  split at h
  next st₀ hst =>
    simp only [Except.ok.injEq, Prod.mk.injEq] at h
    obtain ⟨-, rfl, -⟩ := h
    simp [openCheck_error hst] at hok
  next hcheck =>
  split at h
  next hn =>
    -- the reopen of `""` or `"."`
    simp only [Except.ok.injEq, Prod.mk.injEq] at h
    obtain ⟨rfl, rfl, rfl⟩ := h
    exact ⟨rfl, _, rfl, .reopen hF (by simpa using hn)⟩
  split at h
  · simp only [Except.ok.injEq, Prod.mk.injEq] at h
    obtain ⟨-, rfl, -⟩ := h
    simp at hok
  next hp =>
  split at h
  · cases h
  next s₁ buf hs₁ =>
  have hs₁' := openPath_ok hp hs₁
  obtain ⟨rfl, ha, nb, c, rfl, hc, hcase⟩ := openInstance_success hp
    (fun ha => by simpa [hs₁'] using (env.file ha).1) h hok
  have hq : ∀ calls : List Call, (∀ c' ∈ calls, c' = c ∨ c'.writes = false) → Quiet s calls := by
    intro calls hcalls hro c' hc'
    rcases hcalls c' hc' with rfl | hw
    · exact hc.writes_eq_false (openCheck_readOnly hcheck hro)
    · exact hw
  refine ⟨rfl, nb, rfl, ?_⟩
  rcases hcase with ⟨rfl, n, g, hn, hg, hgp, hgb, hgd, rfl⟩ | ⟨hre, rfl⟩
  · -- a new instance
    have e : { s₁ with log := s₁.log ++ [Call.allocateFile, c] } = { s with
        pool := Function.update s.pool o.pathAddr (some buf)
        log := s.log ++ [Call.allocatePool o.pathAddr, Call.allocateFile, c] } := by
      rw [hs₁']; simp
    rw [e]
    exact .fresh ha hp hF hs₁ hn hg hgp hgb (hq _ (by simp [Call.writes])) hgd
  · -- an instance the engine handed back
    have hsome : (s.files nb).isSome := by
      rcases hre with hre | hre
      · simpa [OpenOutcome.Sound, hre] using env.onOpen
      · simpa [CreateOutcome.Sound, hre] using env.onCreate
    have e : { s₁ with
        pool := Function.update s₁.pool o.pathAddr none
        log := s₁.log ++ [Call.allocateFile, c, Call.freeFile o.fileAddr, Call.freePool o.pathAddr] } =
        { s with log := s.log ++ [Call.allocatePool o.pathAddr, Call.allocateFile, c,
          Call.freeFile o.fileAddr, Call.freePool o.pathAddr] } := by
      rw [hs₁']; simp [Function.update_idem, env.path hp]
    rw [e]
    exact .reused hsome (hq _ (by simp [Call.writes])) hF hp hs₁ hre

end Open

/-! ## Giving back a reference -/

/-- A call that only releases instances or changes them in place, keeping their paths and base
names, and frees no buffer but the path of an instance it releases. -/
structure PathFrame (s s' : EfiFs) : Prop where
  files : ∀ b f', s'.files b = some f' →
    ∃ f, s.files b = some f ∧ f'.path = f.path ∧ f'.baseName = f.baseName
  pool : ∀ p, s'.pool p ≠ s.pool p → ∃ b f, s.files b = some f ∧ s'.files b = none ∧ f.path = p

namespace PathFrame

variable {s s' s'' : EfiFs}

theorem of_eq (hf : s'.files = s.files) (hp : s'.pool = s.pool) : PathFrame s s' where
  files _ f' h := ⟨f', hf ▸ h, rfl, rfl⟩
  pool _ h := absurd (congrFun hp _) h

theorem trans (h₁ : PathFrame s s') (h₂ : PathFrame s' s'') : PathFrame s s'' where
  files b f'' h := by
    obtain ⟨f', h', hp', hb'⟩ := h₂.files b f'' h
    obtain ⟨f, hf, hp, hb⟩ := h₁.files b f' h'
    exact ⟨f, hf, hp'.trans hp, hb'.trans hb⟩
  pool p h := by
    by_cases h' : s''.pool p = s'.pool p
    · obtain ⟨b, f, hf, hb, rfl⟩ := h₁.pool p (h' ▸ h)
      refine ⟨b, f, hf, ?_, rfl⟩
      cases hb'' : s''.files b with
      | none => rfl
      | some f'' => obtain ⟨_, hf', -⟩ := h₂.files b f'' hb''; simp [hb] at hf'
    · obtain ⟨b, f', hf', hb, rfl⟩ := h₂.pool p h'
      obtain ⟨f, hf, hp, -⟩ := h₁.files b f' hf'
      exact ⟨b, f, hf, hb, hp.symm⟩

theorem setFile {b : Nat} {f g : NtfsFile} (hb : s.files b = some f) (hp : g.path = f.path)
    (hn : g.baseName = f.baseName) : PathFrame s (s.setFile b g) where
  files x f' h := by
    by_cases hx : x = b
    · subst hx; obtain rfl : g = f' := by simpa using h
      exact ⟨f, hb, hp, hn⟩
    · exact ⟨f', by simpa [hx] using h, rfl, rfl⟩
  pool _ h := absurd rfl h

theorem modifyFile {b : Nat} {g : NtfsFile → NtfsFile} (hp : ∀ f, (g f).path = f.path)
    (hn : ∀ f, (g f).baseName = f.baseName) : PathFrame s (s.modifyFile b g) := by
  cases hb : s.files b with
  | none => rw [EfiFs.modifyFile_of_none _ hb]; exact of_eq rfl rfl
  | some f => rw [EfiFs.modifyFile_of_some _ hb]; exact setFile hb (hp f) (hn f)

/-- Releasing an instance together with its path buffer. -/
theorem release {b : Nat} {f : NtfsFile} (hb : s.files b = some f) :
    PathFrame s ((freePool s f.path).dropFile b) where
  files x f' h := by
    by_cases hx : x = b
    · subst hx; simp at h
    · exact ⟨f', by simpa [hx] using h, rfl, rfl⟩
  pool p h := by
    refine ⟨b, f, hb, by simp, ?_⟩
    simp only [EfiFs.dropFile_pool, freePool_pool] at h
    split at h
    · exact absurd rfl h
    · by_contra hp; exact h (by simp [Ne.symm hp])

theorem ntfsFreeFile {b : Nat} : PathFrame s (ntfsFreeFile s b) := by
  rcases ntfsFreeFile_cases s b with h | ⟨f, hf, h⟩ <;> rw [h]
  · exact of_eq rfl rfl
  · exact (@of_eq s (s.record (.freeFile b)) rfl rfl).trans (release hf)

theorem ntfsCloseFile {b : Nat} : PathFrame s (ntfsCloseFile s b) := by
  unfold UefiNtfs.ntfsCloseFile
  split
  · exact of_eq rfl rfl
  · exact (@of_eq s (s.record (.closeFile b)) rfl rfl).trans
      (@modifyFile _ b (fun f => { f with ntfsInode := false }) (fun _ => rfl) fun _ => rfl)

end PathFrame

namespace LogExt

variable {s : EfiFs}

theorem freePool {p : Nat} : LogExt s (freePool s p) := by
  unfold UefiNtfs.freePool
  split
  · exact refl s
  · exact of_writes rfl (Call.writes_eq_false_of_all rfl)

theorem ntfsFreeFile {b : Nat} : LogExt s (ntfsFreeFile s b) := by
  rcases ntfsFreeFile_cases s b with h | ⟨f, -, h⟩ <;> rw [h]
  · exact record fun _ => rfl
  · exact ((@record s (.freeFile b) fun _ => rfl).trans freePool rfl).trans
      (of_log rfl) (by simp)

theorem ntfsCloseFile {b : Nat} : LogExt s (ntfsCloseFile s b) := by
  unfold UefiNtfs.ntfsCloseFile
  split
  · exact record fun _ => rfl
  · exact (@record s (.closeFile b) fun _ => rfl).trans (of_log (by simp)) rfl

theorem unmountIfIdle : LogExt s (unmountIfIdle s) := by
  obtain ⟨calls, h, hc⟩ := unmountIfIdle_log s
  exact of_writes h hc

end LogExt

/-- How `FileClose` and `FileDelete` give back the reference of a value standing for the
instance `F` at `b`: `RefCount` and `TotalRefCount` drop by one, and the instance is released
with its path when `released` says so. -/
structure Release (s s' : EfiFs) (b : Nat) (F : NtfsFile) (released : Bool) : Prop where
  totalRefCount : s'.totalRefCount = s.totalRefCount - 1
  refs : s'.refs = Function.update s.refs b
    (if released then none else some (F.refCount - 1, F.detectRO, F.markerRO))
  readOnly : s'.readOnly = s.readOnly
  log : LogExt s s'
  paths : PathFrame s s'

section Release

variable {s s' : EfiFs} {This : Nat} {F : NtfsFile} {st : EfiStatus}

/-- The common end of `FileClose` and `FileDelete`: `TotalRefCount--`, and the unmount when it
reaches zero, keep a release. -/
theorem Release.finish {s₂ : EfiFs} {b : Nat} {released : Bool}
    (h : Release s s₂ b F released) : Release s (unmountIfIdle s₂) b F released where
  totalRefCount := by simp [h.totalRefCount]
  refs := by simp [h.refs]
  readOnly := by simp [h.readOnly]
  log := h.log.trans .unmountIfIdle h.readOnly
  paths := h.paths.trans (.of_eq (by simp) (by simp))

/-- Giving back the reference of the instance `F` at `b ≠ 0`, when the engine's close or delete
leaves its count, its path and its base name alone: the instance is released exactly when the
count reaches zero. -/
theorem release_of_free {b : Nat} {X : EfiFs} {F' : NtfsFile} {c : Call} (hF : s.files b = some F)
    (h0 : b ≠ 0) (hX : X = (s.setFile b F').record c) (hc : s.readOnly = true → c.writes = false)
    (hr : F'.refCount = F.refCount - 1) (hm : F'.detectRO = F.detectRO ∧ F'.markerRO = F.markerRO)
    (hp : F'.path = F.path ∧ F'.baseName = F.baseName) :
    Release s (ntfsFreeFile X b).decTotal b F (decide (F.refCount = 1)) where
  totalRefCount := by subst hX; simp
  refs := by
    subst hX
    by_cases h1 : F.refCount = 1
    · rw [@ntfsFreeFile_of_unref _ _ F' (by simp) h0 (by omega)]
      simp [h1]
    · rw [@ntfsFreeFile_of_kept _ _ F' (by simp) (by omega)]
      simp [h1, NtfsFile.refPart, hr, hm]
  readOnly := by subst hX; simp
  log := by
    subst hX
    have h₁ : LogExt s ((s.setFile b F').record c) := (LogExt.of_log rfl).trans (.record hc) rfl
    exact (h₁.trans .ntfsFreeFile rfl).trans (.of_log rfl) (by simp)
  paths := by
    subst hX
    have h₁ : PathFrame s ((s.setFile b F').record c) :=
      (PathFrame.setFile hF hp.1 hp.2).trans (.of_eq rfl rfl)
    exact (h₁.trans .ntfsFreeFile).trans (.of_eq rfl rfl)

/-- **`FileClose`** gives back the reference, releasing the instance when it was the last, and
unmounts the volume when no value is left. -/
theorem fileClose_release (hF : s.files (baseFile s This) = some F) (h0 : baseFile s This ≠ 0)
    (h : fileClose s This = .ok (s', st)) :
    st = efiSuccess ∧ Release s s' (baseFile s This) F (decide (F.refCount = 1)) ∧
      s'.mounted = (s.mounted && decide (0 < s.totalRefCount - 1)) := by
  simp only [fileClose, hF, Except.ok.injEq, Prod.mk.injEq] at h
  obtain ⟨rfl, rfl⟩ := h
  refine ⟨rfl, ?_, by split <;> simp⟩
  apply Release.finish
  split
  · -- the count reached zero: close, then free
    rw [ntfsCloseFile_of_some _ h0 (EfiFs.setFile_files_self _ _ _), ← EfiFs.record_setFile,
      EfiFs.setFile_setFile]
    exact release_of_free hF h0 rfl (fun _ => rfl) rfl ⟨rfl, rfl⟩ ⟨rfl, rfl⟩
  · -- other values are still out
    next hrc =>
    have h1 : F.refCount ≠ 1 := by omega
    exact ⟨by simp, by simp [h1, NtfsFile.refPart], by simp, .of_log rfl,
      (@PathFrame.setFile _ _ F { F with refCount := F.refCount - 1 } hF rfl rfl).trans
        (.of_eq rfl rfl)⟩

/-- `NtfsFreeFile` does not read `TotalRefCount`. -/
theorem ntfsFreeFile_decTotal (s : EfiFs) (b : Nat) :
    ntfsFreeFile s.decTotal b = (ntfsFreeFile s b).decTotal := by
  cases hb : s.files b with
  | none => rw [ntfsFreeFile_of_none _ (by simpa using hb), ntfsFreeFile_of_none _ hb]; rfl
  | some f =>
    by_cases h : b ≠ 0 ∧ f.refCount = 0
    · rw [ntfsFreeFile_of_unref _ (by simpa using hb) h.1 h.2, ntfsFreeFile_of_unref _ hb h.1 h.2]
      by_cases hp : f.path = 0
      · rw [hp, freePool_zero, freePool_zero]; rfl
      · rw [freePool_of_ne _ hp, freePool_of_ne _ hp]; rfl
    · rw [ntfsFreeFile_of_kept _ (by simpa using hb) h, ntfsFreeFile_of_kept _ hb h]; rfl

/-- `FileDelete`'s early return: the root, or an instance without an inode, is not deleted, and
nothing changes. -/
theorem fileDelete_refused {onDelete : EfiStatus} (hF : s.files (baseFile s This) = some F)
    (hr : (F.isRoot || !F.ntfsInode) = true) (h : fileDelete s This onDelete = .ok (s', st)) :
    s' = s ∧ st = efiAccessDenied := by
  simp only [fileDelete, hF, hr, if_true, Except.ok.injEq, Prod.mk.injEq] at h
  exact ⟨h.1.symm, h.2.symm⟩

/-- The three exits of `FileDelete` on a value standing for the instance `F`: the refusal of the
root and of an instance without an inode; `EFI_WARN_DELETE_FAILURE` with the reference given
back, while other values are out or on a read-only volume; and the engine's status, after its
delete, the release of the instance and the unmount when no value is left. -/
theorem fileDelete_cases {onDelete : EfiStatus} (hF : s.files (baseFile s This) = some F)
    (h : fileDelete s This onDelete = .ok (s', st)) :
    ((F.isRoot || !F.ntfsInode) = true ∧ st = efiAccessDenied ∧ s' = s) ∨
    ((F.isRoot || !F.ntfsInode) = false ∧ st = efiWarnDeleteFailure ∧
      (0 < F.refCount - 1 ∨ s.readOnly = true) ∧
      s' = (s.setFile (baseFile s This) { F with refCount := F.refCount - 1 }).decTotal) ∨
    ((F.isRoot || !F.ntfsInode) = false ∧ st = onDelete ∧ F.refCount - 1 ≤ 0 ∧
      s.readOnly = false ∧
      s' = unmountIfIdle (ntfsFreeFile (ntfsDeleteFile (s.setFile (baseFile s This)
        { F with refCount := F.refCount - 1 }).decTotal (baseFile s This) onDelete).1
        (baseFile s This))) := by
  simp only [fileDelete, hF] at h
  by_cases hr : (F.isRoot || !F.ntfsInode) = true
  · -- the root, or an instance without an inode
    rw [if_pos hr] at h
    obtain ⟨rfl, rfl⟩ := Prod.mk.inj (Except.ok.inj h)
    exact .inl ⟨hr, rfl, rfl⟩
  rw [if_neg hr] at h
  replace hr : (F.isRoot || !F.ntfsInode) = false := by simpa using hr
  have hroot : F.isRoot = false := (Bool.or_eq_false_iff.mp hr).1
  by_cases hpos : 0 < F.refCount - 1
  · -- other values are still out
    rw [if_pos (by simp [hpos])] at h
    obtain ⟨rfl, rfl⟩ := Prod.mk.inj (Except.ok.inj h)
    exact .inr (.inl ⟨hr, rfl, .inl hpos, rfl⟩)
  rw [if_neg (by simp [hroot, hpos])] at h
  by_cases hro : s.readOnly = true
  · -- a read-only volume
    rw [if_pos (by simpa [ntfsIsVolumeReadOnly] using hro)] at h
    obtain ⟨rfl, rfl⟩ := Prod.mk.inj (Except.ok.inj h)
    exact .inr (.inl ⟨hr, rfl, .inr hro, rfl⟩)
  -- the engine deletes, and the instance is released
  rw [if_neg (by simpa [ntfsIsVolumeReadOnly] using hro)] at h
  obtain ⟨rfl, rfl⟩ := Prod.mk.inj (Except.ok.inj h)
  exact .inr (.inr ⟨hr, rfl, by omega, by simpa using hro, rfl⟩)

/-- **`FileDelete`**, past its early return, gives back the reference as `FileClose` does, but
releases the instance only on a writable volume, where the engine deletes it first, and unmounts
the volume only then. -/
theorem fileDelete_release {onDelete : EfiStatus} (hF : s.files (baseFile s This) = some F)
    (h0 : baseFile s This ≠ 0) (hr : (F.isRoot || !F.ntfsInode) = false)
    (h : fileDelete s This onDelete = .ok (s', st)) :
    Release s s' (baseFile s This) F (decide (F.refCount = 1 ∧ s.readOnly = false)) ∧
      s'.mounted = (s.mounted && (decide (0 < F.refCount - 1) || s.readOnly ||
        decide (0 < s.totalRefCount - 1))) := by
  rcases fileDelete_cases hF h with ⟨hr', -⟩ | ⟨-, -, hk, rfl⟩ | ⟨-, -, hpos, hro, rfl⟩
  · rw [hr] at hr'; cases hr'
  · -- the value is given back, the instance kept
    have hk' : F.refCount ≠ 1 ∨ s.readOnly = true := hk.imp (by omega) id
    refine ⟨⟨by simp, by rcases hk' with h1 | h1 <;> simp [h1, NtfsFile.refPart], by simp,
      .of_log rfl, (@PathFrame.setFile _ _ F { F with refCount := F.refCount - 1 } hF rfl rfl).trans
        (.of_eq rfl rfl)⟩, ?_⟩
    rcases hk with hk | hk <;> simp [hk]
  -- the engine deletes the instance, which is then released
  have hX : (ntfsDeleteFile (s.setFile (baseFile s This) { F with refCount := F.refCount - 1 }).decTotal
      (baseFile s This) onDelete).1 = ((s.setFile (baseFile s This) { F with
        refCount := F.refCount - 1, ntfsInode := false }).record (.deleteFile (baseFile s This))).decTotal := by
    simp only [ntfsDeleteFile]
    rw [@EfiFs.modifyFile_of_some _ _ { F with refCount := F.refCount - 1 } (by simp)]
    simp [EfiFs.ext_iff, EfiFs.record, EfiFs.setFile, EfiFs.decTotal]
  rw [hX, ntfsFreeFile_decTotal]
  refine ⟨?_, by simp [show ¬ 0 < F.refCount - 1 by omega, hro]⟩
  have := (@release_of_free s F (baseFile s This) _
    { F with refCount := F.refCount - 1, ntfsInode := false } (.deleteFile (baseFile s This)) hF h0
    rfl (fun h => absurd h (by simp [hro])) rfl ⟨rfl, rfl⟩ ⟨rfl, rfl⟩).finish
  simpa [hro] using this

end Release

/-! ## `FileOpenVolume` -/

section Volume

variable {s s' : EfiFs} {o : VolumeOracle} {st : EfiStatus} {r : Option Nat}

theorem ntfsMountVolume_ok {st : EfiStatus} (h : efiError (ntfsMountVolume s st).2 = false) :
    (ntfsMountVolume s st).1 = { s.record .mountVolume with mounted := true } := by
  unfold ntfsMountVolume at h ⊢
  by_cases hm : s.mounted
  · simp [EfiFs.ext_iff, hm]
  · by_cases he : efiError st <;> simp_all

theorem ntfsMountVolume_error {st : EfiStatus} (h : efiError (ntfsMountVolume s st).2 = true) :
    (ntfsMountVolume s st).1 = s.record .mountVolume ∧ s.mounted = false := by
  unfold ntfsMountVolume at h ⊢
  by_cases hm : s.mounted
  · simp_all
  · by_cases he : efiError st <;> simp_all

/-- The error exit of `FileOpenVolume` once the root instance exists: it is closed, then released
with its path. -/
theorem fileOpenVolumeOut_unref {X : EfiFs} {b : Nat} {f : NtfsFile} (hb : X.files b = some f)
    (h0 : b ≠ 0) (hr : f.refCount = 0) :
    fileOpenVolumeOut X b = ntfsUnmountVolume ((freePool
      (((X.record (.closeFile b)).setFile b { f with ntfsInode := false }).record (.freeFile b))
      f.path).dropFile b) := by
  rw [fileOpenVolumeOut, ntfsCloseFile_of_some _ h0 hb,
    @ntfsFreeFile_of_unref _ _ { f with ntfsInode := false } (by simp) h0 hr]

theorem setupRootPath_eq {b P : Nat} {f : NtfsFile} (hp : P ≠ 0) (hb : s.files b = some f) :
    setupRootPath s b P = { s.record (.allocatePool P) with
      pool := Function.update s.pool P (some ((Buf.zero 2).set 0 pathChar)) }.setFile b
      { f with path := P, baseName := 1 } := by
  rw [setupRootPath, allocateZeroPool_of_ne _ hp, EfiFs.modifyFile_of_some _ (by simpa using hb)]
  simp [EfiFs.record]

/-- The two ways `FileOpenVolume` succeeds, from `s` to `s'`, the value it returns standing for
the instance at `b`. -/
inductive VolumeSuccess (s : EfiFs) (o : VolumeOracle) : EfiFs → Nat → Prop
  /-- A new root instance at `o.fileAddr`, which owns the path `"/"` at `o.pathAddr`. -/
  | fresh {g : NtfsFile} {calls : List Call} : o.fileAddr ≠ 0 → o.pathAddr ≠ 0 →
      g.refPart = NtfsFile.fresh.refPart → g.path = o.pathAddr → g.baseName = 1 →
      (∀ c ∈ calls, c.writes = false) → g.dirPos = 0 →
      VolumeSuccess s o (({ s with
          mounted := true
          pool := Function.update s.pool o.pathAddr (some ((Buf.zero 2).set 0 pathChar))
          log := s.log ++ calls }.setFile o.fileAddr g).addRef o.fileAddr) o.fileAddr
  /-- A root instance already open, which the engine handed back. -/
  | reused {b : Nat} {calls : List Call} : (s.files b).isSome → (∀ c ∈ calls, c.writes = false) →
      o.onOpen = .reused b →
      VolumeSuccess s o ({ s with mounted := true, log := s.log ++ calls }.addRef b) b

/-- The exits of `FileOpenVolume`: an error status, with the volume left as it was but for the
log, in which nothing writes, and the mount state, which is cleared; or success, with the
read-write value of a root instance `VolumeSuccess` describes. -/
theorem fileOpenVolume_cases (env : o.Sound s) (h : fileOpenVolume s o = (s', st, r)) :
    (efiError st = true ∧ r = none ∧ ∃ calls, s' = { s with mounted := false, log := s.log ++ calls } ∧
      ∀ c ∈ calls, c.writes = false) ∨
    (st = efiSuccess ∧ ∃ b, r = some (rwHandle b) ∧ VolumeSuccess s o s' b) := by
  unfold fileOpenVolume at h
  dsimp only at h
  split at h
  · -- the mount fails
    next hm =>
    obtain ⟨hs₁, hmf⟩ := ntfsMountVolume_error hm
    simp only [hs₁, Prod.mk.injEq] at h
    obtain ⟨rfl, rfl, rfl⟩ := h
    refine .inl ⟨hm, rfl, [.mountVolume, .closeFile 0, .freeFile 0, .unmountVolume], ?_,
      Call.writes_eq_false_of_all rfl⟩
    simp [EfiFs.ext_iff, fileOpenVolumeOut, ntfsUnmountVolume, EfiFs.record, hmf]
  next hm =>
  rw [ntfsMountVolume_ok (by simpa using hm)] at h
  by_cases ha : o.fileAddr = 0
  · -- `NtfsAllocateFile` fails
    simp only [ha, ntfsAllocateFile_zero, efiError_outOfResources, if_true, Prod.mk.injEq] at h
    obtain ⟨rfl, rfl, rfl⟩ := h
    refine .inl ⟨by simp, rfl, [.mountVolume, .allocateFile, .closeFile 0, .freeFile 0,
      .unmountVolume], ?_, Call.writes_eq_false_of_all rfl⟩
    simp [EfiFs.ext_iff, fileOpenVolumeOut, ntfsUnmountVolume, EfiFs.record]
  have hfresh := (env.file ha).1
  rw [ntfsAllocateFile_of_ne _ ha] at h
  simp only [efiError_success, Bool.false_eq_true, if_false] at h
  split at h
  · -- the path cannot be allocated
    simp only [Prod.mk.injEq] at h
    obtain ⟨rfl, rfl, rfl⟩ := h
    refine .inl ⟨by simp, rfl, [.mountVolume, .allocateFile, .closeFile o.fileAddr,
      .freeFile o.fileAddr, .unmountVolume], ?_, Call.writes_eq_false_of_all rfl⟩
    rw [fileOpenVolumeOut_unref (EfiFs.setFile_files_self _ _ _) ha rfl]
    simp [EfiFs.ext_iff, ntfsUnmountVolume, EfiFs.record, EfiFs.setFile, EfiFs.dropFile,
      NtfsFile.fresh, hfresh]
  next hp =>
  rw [setupRootPath_eq hp (EfiFs.setFile_files_self _ _ _)] at h
  generalize h3 : ntfsOpenFile _ o.fileAddr o.onOpen = e at h
  obtain ⟨s3, st3, nb⟩ := e
  dsimp only at h
  split at h
  · -- the engine cannot open the root
    next herr3 =>
    simp only [Prod.mk.injEq] at h
    obtain ⟨rfl, rfl, rfl⟩ := h
    refine .inl ⟨herr3, rfl, ?_⟩
    cases hon : o.onOpen <;> simp only [hon, ntfsOpenFile, Prod.mk.injEq] at h3
    case fail st₀ =>
      obtain ⟨rfl, rfl, rfl⟩ := h3
      refine ⟨[.mountVolume, .allocateFile, .allocatePool o.pathAddr, .openFile o.fileAddr,
        .closeFile o.fileAddr, .freeFile o.fileAddr, .freePool o.pathAddr, .unmountVolume], ?_,
        Call.writes_eq_false_of_all rfl⟩
      rw [@fileOpenVolumeOut_unref _ _ { NtfsFile.fresh with path := o.pathAddr, baseName := 1 }
        (by simp) ha rfl]
      simp [EfiFs.ext_iff, ntfsUnmountVolume, EfiFs.record, EfiFs.setFile, EfiFs.dropFile,
        freePool_of_ne _ hp, hfresh, env.path hp]
    all_goals obtain ⟨-, rfl, -⟩ := h3; simp at herr3
  -- the root is open
  simp only [Prod.mk.injEq] at h
  obtain ⟨rfl, rfl, rfl⟩ := h
  refine .inr ⟨rfl, nb, rfl, ?_⟩
  obtain ⟨g, hg, hgp, hgb, hgd, ⟨rfl, rfl⟩ | ⟨hre, rfl⟩⟩ :=
    ntfsOpenFile_spec (EfiFs.setFile_files_self _ _ _) h3
  · -- a new root instance
    have := @VolumeSuccess.fresh s o g [.mountVolume, .allocateFile, .allocatePool o.pathAddr,
      .openFile o.fileAddr] ha hp hg hgp hgb (Call.writes_eq_false_of_all rfl) hgd
    convert this using 2
    simp [EfiFs.ext_iff, EfiFs.record, EfiFs.setFile]
  · -- a root instance the engine handed back
    have hg0 : g.refCount = 0 := by simpa [NtfsFile.refPart, NtfsFile.fresh] using congrArg Prod.fst hg
    rw [@ntfsFreeFile_of_unref _ _ g (by simp) ha hg0, hgp]
    have hsome : (s.files nb).isSome := by simpa [OpenOutcome.Sound, hre] using env.onOpen
    have := @VolumeSuccess.reused s o nb [.mountVolume, .allocateFile, .allocatePool o.pathAddr,
      .openFile o.fileAddr, .freeFile o.fileAddr, .freePool o.pathAddr] hsome
      (Call.writes_eq_false_of_all rfl) hre
    convert this using 2
    simp [EfiFs.ext_iff, EfiFs.record, EfiFs.setFile, EfiFs.dropFile, freePool_of_ne _ hp,
      hfresh, env.path hp]

/-- **Failure of `FileOpenVolume`.** Whatever the exit, the volume is left as it was but for the
log, in which nothing writes, and the mount state, which is cleared. -/
theorem fileOpenVolume_error (env : o.Sound s) (h : fileOpenVolume s o = (s', st, r))
    (herr : efiError st = true) :
    r = none ∧ ∃ calls, s' = { s with mounted := false, log := s.log ++ calls } ∧
      ∀ c ∈ calls, c.writes = false := by
  rcases fileOpenVolume_cases env h with ⟨-, hfail⟩ | ⟨rfl, -⟩
  · exact hfail
  · simp at herr

/-- **Success of `FileOpenVolume`.** It mounts the volume and returns the read-write value of a
root instance `VolumeSuccess` describes. -/
theorem fileOpenVolume_success (env : o.Sound s) (h : fileOpenVolume s o = (s', st, r))
    (hok : efiError st = false) :
    st = efiSuccess ∧ ∃ b, r = some (rwHandle b) ∧ VolumeSuccess s o s' b := by
  rcases fileOpenVolume_cases env h with ⟨herr, -⟩ | hsucc
  · rw [hok] at herr; cases herr
  · exact hsucc

end Volume

end UefiNtfs
