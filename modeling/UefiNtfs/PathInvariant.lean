import UefiNtfs.PathSpec
import UefiNtfs.RefCount

set_option autoImplicit false

/-! # The paths of open instances

Every instance a run has open owns a pool buffer, at `Path`, that holds an absolute path with no
`DOS_PATH_CHAR`, and its `BaseName` is the cell after the last `PATH_CHAR` of that path
(`PathInv`). `FileOpenVolume` gives the root the path `"/"` and `BaseName = 1`; `FileOpen`
composes, converts and cleans a path from its parent's (`PathSpec`); every other call keeps the
instances' paths and frees no buffer but the path of an instance it releases (`PathFrame`).

So the check `FS_ASSERT (Path[0] == PATH_CHAR)` in `FileOpen` never fails, whatever the parent
and the name (`paths_absolute`): the parent's path is absolute, and so is what `FileOpen` makes
of it.
-/

namespace UefiNtfs

/-- **The path invariant**: the buffer of every open instance holds an absolute path with its
`BaseName` after the last `PATH_CHAR`, and no two instances share a buffer. -/
structure PathInv (s : EfiFs) : Prop where
  shape : ∀ b f, s.files b = some f →
    ∃ buf p, s.pool f.path = some buf ∧ buf.HasStr 0 p ∧ PathShape p f.baseName
  apart : ∀ b b' f f', s.files b = some f → s.files b' = some f' → f.path = f'.path → b = b'

/-- An access call keeps the instances' paths and every buffer. -/
theorem AccessFrame.pathFrame {s s' : EfiFs} (h : AccessFrame s s') : PathFrame s s' where
  files b f' hf' := by
    have hb := h.files b
    rw [hf'] at hb
    cases hf : s.files b with
    | none => simp [hf] at hb
    | some f =>
      obtain hfix : f'.fixed = f.fixed := by simpa [hf] using hb
      have hpath := congrArg NtfsFile.path hfix
      have hbase := congrArg NtfsFile.baseName hfix
      exact ⟨f, rfl, hpath, hbase⟩
  pool p hp := absurd (congrFun h.pool p) hp

/-- One more reference, after a call that kept the instances and the buffers. -/
theorem PathFrame.addRef {s s₀ : EfiFs} (b : Nat) (hf : s₀.files = s.files) (hp : s₀.pool = s.pool) :
    PathFrame s (s₀.addRef b) :=
  (PathFrame.of_eq hf hp).trans ((@PathFrame.modifyFile s₀ b
    (fun f => { f with refCount := f.refCount + 1 }) (fun _ => rfl) fun _ => rfl).trans
      (.of_eq rfl rfl))

namespace PathInv

variable {s s' : EfiFs}

theorem init (readOnly : Bool) (label : Option Str16) (blockIo : Media) (blockIo2 : Option Media) :
    PathInv (EfiFs.init readOnly label blockIo blockIo2) :=
  ⟨fun _ _ h => (by cases h), fun _ _ _ _ h => (by cases h)⟩

/-- The instances' buffers are live, so a buffer the pool does not hold is no instance's. -/
theorem path_ne (hi : PathInv s) {b P : Nat} {f : NtfsFile} (hf : s.files b = some f)
    (hP : s.pool P = none) : f.path ≠ P := by
  rintro rfl
  obtain ⟨buf, -, hbuf, -⟩ := hi.shape b f hf
  simp [hbuf] at hP

/-- The paths survive a call that keeps them. -/
theorem of_pathFrame (hi : PathInv s) (h : PathFrame s s') : PathInv s' where
  shape b f' hf' := by
    obtain ⟨f, hf, hp, hn⟩ := h.files b f' hf'
    obtain ⟨buf, p, hbuf, hstr, hshape⟩ := hi.shape b f hf
    refine ⟨buf, p, ?_, hstr, hn ▸ hshape⟩
    rw [hp, ← hbuf]
    by_contra hne
    -- the buffer was freed with an instance that had it too, so that instance is `b` itself
    obtain ⟨b₀, f₀, hf₀, hgone, hpath⟩ := h.pool f.path hne
    obtain rfl := hi.apart b₀ b f₀ f hf₀ hf hpath
    simp [hgone] at hf'
  apart b b' f f' hf hf' hpath := by
    obtain ⟨g, hg, hgp, -⟩ := h.files b f hf
    obtain ⟨g', hg', hgp', -⟩ := h.files b' f' hf'
    exact hi.apart b b' g g' hg hg' (hgp.symm.trans (hpath.trans hgp'))

/-- A new instance at a free address `A`, with a new buffer at a free address `P` that holds
its path. -/
theorem fresh (hi : PathInv s) {s₀ : EfiFs} {A P : Nat} {buf : Buf} {p : List UInt16}
    {g : NtfsFile} (hfiles : s₀.files = s.files) (hpool : s₀.pool = Function.update s.pool P (some buf))
    (hP : s.pool P = none) (hg : g.path = P) (hbuf : buf.HasStr 0 p)
    (hshape : PathShape p g.baseName) : PathInv ((s₀.setFile A g).addRef A) := by
  refine of_pathFrame ⟨fun x f hf => ?_, fun x x' f f' hf hf' hpath => ?_⟩ (PathFrame.addRef A rfl rfl)
  · simp only [EfiFs.setFile_files, EfiFs.setFile_pool, hfiles, hpool, Function.update_apply] at hf ⊢
    split at hf
    · obtain rfl := Option.some.inj hf
      exact ⟨buf, p, by simp [hg], hbuf, hshape⟩
    · obtain ⟨buf', p', hbuf', hstr, hsh⟩ := hi.shape x f hf
      exact ⟨buf', p', by simp [hi.path_ne hf hP, hbuf'], hstr, hsh⟩
  · simp only [EfiFs.setFile_files, hfiles, Function.update_apply] at hf hf'
    split at hf <;> split at hf'
    · simp_all
    · exact absurd (hg ▸ (Option.some.inj hf) ▸ hpath) (hi.path_ne hf' hP).symm
    · exact absurd (hg ▸ (Option.some.inj hf') ▸ hpath) (hi.path_ne hf hP)
    · exact hi.apart x x' f f' hf hf' hpath

end PathInv

/-! ## The parent's path during `FileOpen` -/

section Parent

variable {s : EfiFs} {b : Nat} {F : NtfsFile}

theorem pathStr_allocateZeroPool (P n : Nat) (F : NtfsFile) :
    (allocateZeroPool s P n).pathStr F =
      if P ≠ 0 ∧ F.path = P then (Buf.zero n).str 0 else s.pathStr F := by
  unfold allocateZeroPool EfiFs.pathStr
  by_cases hP : P = 0
  · simp [hP]
  · by_cases hF : F.path = P <;> simp [hP, hF, Function.update_apply]

/-- A buffer just allocated holds the empty string, if any. -/
theorem str_zero {n : Nat} {pp : List UInt16} (h : (Buf.zero n).str 0 = some pp) : pp = [] := by
  obtain ⟨-, hcells, -, hfree⟩ := Buf.hasStr_iff.mp (Buf.str_eq_some_iff.mp h)
  cases pp with
  | nil => rfl
  | cons c cs =>
    obtain rfl : 0 = c := by simpa [Buf.zero] using hcells 0 (by simp)
    simp at hfree

/-- What `FileOpen` copies as the parent's path: the parent's absolute path, or, when the
allocator hands out the parent's own buffer, the empty string it was cleared to. -/
theorem parent_absolute (hi : PathInv s) (hF : s.files b = some F) (P n : Nat) :
    ∀ pp, (allocateZeroPool s P n).pathStr F = some pp →
      0 ∉ pp ∧ (pp = [] ∨ pp.head? = some pathChar) := by
  intro pp hpp
  rw [pathStr_allocateZeroPool] at hpp
  split at hpp
  · obtain rfl := str_zero hpp
    simp
  · obtain ⟨buf, p, hbuf, hstr, hshape⟩ := hi.shape b F hF
    simp only [EfiFs.pathStr, hbuf, Option.some_bind, Buf.str_eq_some_iff.mpr hstr,
      Option.some.injEq] at hpp
    subst hpp
    exact ⟨hstr.nul_free, .inr hshape.absolute⟩

end Parent

/-! ## `FileOpen`'s path -/

section OpenPath

variable {PATH_MAX : Nat} {s s₁ : EfiFs} {F : NtfsFile} {Name : Str16} {Path : Nat} {buf : Buf}

/-- The checks after `CleanPath`: a path composed from an absolute or empty parent's path cleans
to an absolute path. -/
theorem cleanPath_absolute {parent : Option (List UInt16)} {b₀ b₁ : Buf}
    (hpar : ∀ pp, parent = some pp → 0 ∉ pp ∧ (pp = [] ∨ pp.head? = some pathChar))
    (h₀ : composePath PATH_MAX parent Name = .ok b₀) (h₁ : cleanPath b₀ = .ok b₁) :
    ∃ p, b₁.HasStr 0 p ∧ p.head? = some pathChar ∧
      ((∀ pp, parent = some pp → dosPathChar ∉ pp) → dosPathChar ∉ p) := by
  obtain ⟨q, hq, hhead, hdos⟩ := composePath_absolute hpar h₀
  rw [cleanPath_of_hasStr hq, Except.ok.injEq] at h₁
  subst h₁
  exact ⟨_, hasStr_cleanString hq hhead, cleanString_head hhead,
    fun hd hm => hdos hd ((cleanString_sublist hhead).subset hm)⟩

/-- **`FS_ASSERT (Path[0] == PATH_CHAR)` holds** when the parent's path is absolute or empty. -/
theorem openPath_ne_notAbsolute
    (hpar : ∀ pp, (allocateZeroPool s Path PATH_MAX).pathStr F = some pp →
      0 ∉ pp ∧ (pp = [] ∨ pp.head? = some pathChar)) :
    openPath PATH_MAX s F Name Path ≠ .error .pathNotAbsolute := by
  unfold openPath
  simp only [bind, Except.bind, pure, Except.pure]
  split
  next e h₀ =>
    rcases composePath_error h₀ with rfl | rfl <;> simp
  next b₀ h₀ =>
  split
  next e h₁ => simp [cleanPath_of_hasStr (composePath_absolute hpar h₀).choose_spec.1] at h₁
  next b₁ h₁ =>
  obtain ⟨p, hp, hhead, -⟩ := cleanPath_absolute hpar h₀ h₁
  obtain ⟨rest, rfl⟩ := List.head?_eq_some_iff.mp hhead
  have h0 : b₁.cell 0 = pathChar := by simpa using (Buf.hasStr_iff.mp hp).2.1 0 (by simp)
  simp [h0]

/-- The path a successful `openPath` leaves in the new buffer, when the allocator gave a buffer
that is not the parent's. -/
theorem openPath_shape (hi : PathInv s) {b : Nat} (hF : s.files b = some F) (hP : s.pool Path = none)
    (h : openPath PATH_MAX s F Name Path = .ok (s₁, buf)) :
    ∃ p, buf.HasStr 0 p ∧ p.head? = some pathChar ∧ dosPathChar ∉ p := by
  have hparent : (allocateZeroPool s Path PATH_MAX).pathStr F = s.pathStr F := by
    rw [pathStr_allocateZeroPool, if_neg fun h => hi.path_ne hF hP h.2]
  obtain ⟨pbuf, pp, hpbuf, hpstr, hpshape⟩ := hi.shape b F hF
  have hpar : s.pathStr F = some pp := by
    simp [EfiFs.pathStr, hpbuf, Buf.str_eq_some_iff.mpr hpstr]
  unfold openPath at h
  simp only [bind, Except.bind, pure, Except.pure, hparent, hpar] at h
  split at h
  · cases h
  next b₀ h₀ =>
  split at h
  · cases h
  next b₁ h₁ =>
  split at h
  · cases h
  obtain rfl : b₁ = buf := (Prod.mk.inj (Except.ok.inj h)).2
  obtain ⟨p, hp, hhead, hdos⟩ := cleanPath_absolute
    (fun q hq => by cases hq; exact ⟨hpstr.nul_free, .inr hpshape.absolute⟩) h₀ h₁
  exact ⟨p, hp, hhead, hdos fun q hq => by cases hq; exact hpshape.no_dos⟩

end OpenPath

/-- `openInstance` faults only when the path holds no terminator. -/
theorem openInstance_ne_notAbsolute {s : EfiFs} {Path : Nat} {buf : Buf} {Mode Attributes : UInt64}
    {o : OpenOracle} : openInstance s Path buf Mode Attributes o ≠ .error .pathNotAbsolute := by
  unfold openInstance openEngine
  split
  split
  · simp
  split
  · simp
  split
  next e he => simp [safeStrLen_error he]
  dsimp only
  split <;> simp

/-- **`FileOpen` never fails its `FS_ASSERT`** on an instance whose parent path is well formed:
whatever the name, mode and environment, it does not fault with `pathNotAbsolute`. -/
theorem fileOpen_ne_notAbsolute {PATH_MAX : Nat} {s : EfiFs} (hi : PathInv s) (This : Nat)
    (Name : Str16) (Mode Attributes : UInt64) (o : OpenOracle) :
    fileOpen PATH_MAX s This Name Mode Attributes o ≠ .error .pathNotAbsolute := by
  unfold fileOpen
  dsimp only
  split
  · simp
  next F hF =>
  split
  · simp
  split
  · simp
  split
  · simp
  split
  next e he =>
    intro h
    cases h
    exact openPath_ne_notAbsolute (parent_absolute hi hF o.pathAddr PATH_MAX) he
  · exact openInstance_ne_notAbsolute

/-! ## Along a run -/

/-- **One call keeps the path invariant.** -/
theorem pathInv_step {PATH_MAX : Nat} {w w' : World} (hs : Step PATH_MAX w w')
    (hr : RefInv w.fs.refs w.fs.totalRefCount w.out) (hi : PathInv w.fs) : PathInv w'.fs := by
  cases hs with
  | @openVolume o fs st r env hrun =>
    cases herr : efiError st
    · obtain ⟨-, b, -, hv⟩ := fileOpenVolume_success env hrun herr
      cases hv with
      | fresh _ hp _ hgp hgb _ =>
        -- the root's path `"/"`, its `BaseName` the empty string after it
        have hbuf : ((Buf.zero 2).set 0 pathChar).HasStr 0 [pathChar] :=
          Buf.hasStr_iff.mpr ⟨by decide, fun k hk => by
            obtain rfl : k = 0 := by simpa using hk
            rfl, rfl, by decide⟩
        exact hi.fresh rfl rfl (env.path hp) hgp hbuf (hgb ▸ ⟨rfl, by decide, ⟨by decide, rfl⟩, by simp⟩)
      | reused => exact hi.of_pathFrame (.addRef _ rfl rfl)
    · obtain ⟨-, calls, rfl, -⟩ := fileOpenVolume_error env hrun herr
      exact hi.of_pathFrame (.of_eq rfl rfl)
  | @«open» h hh Name Mode Attributes o fs st r env hrun =>
    cases herr : efiError st
    · obtain ⟨-, b, -, ho⟩ := fileOpen_success env hrun herr
      cases ho with
      | reopen => exact hi.of_pathFrame (.addRef _ rfl rfl)
      | fresh ha hp hF hpath hn _ hgp hgb _ =>
        obtain ⟨p, hbuf, hhead, hdos⟩ := openPath_shape hi hF (env.path hp) hpath
        rw [safeStrLen_of_hasStr hbuf, Except.ok.injEq] at hn
        subst hn
        exact hi.fresh rfl rfl (env.path hp) hgp hbuf (hgb ▸ pathShape_baseNameIndex hbuf hhead hdos)
      | reused => exact hi.of_pathFrame (.addRef _ rfl rfl)
    · obtain ⟨-, calls, rfl, -⟩ := fileOpen_error env hrun herr
      exact hi.of_pathFrame (.of_eq rfl rfl)
  | close h hh hrun =>
    obtain ⟨F, -, hrel, -⟩ := hr.close_release hh hrun
    exact hi.of_pathFrame hrel.paths
  | delete h hh onDelete hrun =>
    obtain ⟨F, -, ⟨-, rfl⟩ | ⟨-, hrel, -⟩⟩ := hr.delete_release hh hrun
    · exact hi
    · exact hi.of_pathFrame hrel.paths
  | access h hh a hrun => exact hi.of_pathFrame (Access.run_frame hrun).pathFrame

/-- **Every reachable world keeps the path invariant.** -/
theorem pathInv_reachable {PATH_MAX : Nat} {w : World} (hw : Reachable PATH_MAX w) : PathInv w.fs := by
  induction hw with
  | init readOnly label blockIo blockIo2 => exact PathInv.init readOnly label blockIo blockIo2
  | step hw hs ih => exact pathInv_step hs (refInv_reachable hw) ih

/-- **The paths of open instances are absolute.** In every reachable world, the `Path` of each
allocated instance is a NUL-terminated string in its buffer that begins with `PATH_CHAR` and
holds no `DOS_PATH_CHAR`, with `BaseName` one cell past its last `PATH_CHAR`; and
`FS_ASSERT (Path[0] == PATH_CHAR)` in `FileOpen` never fails, for any value out, name, mode,
attributes and environment. -/
theorem paths_absolute {PATH_MAX : Nat} {w : World} (hw : Reachable PATH_MAX w) :
    (∀ b f, w.fs.files b = some f →
      ∃ buf p, w.fs.pool f.path = some buf ∧ buf.HasStr 0 p ∧ PathShape p f.baseName) ∧
    ∀ h ∈ w.out, ∀ Name Mode Attributes o,
      fileOpen PATH_MAX w.fs h.value Name Mode Attributes o ≠ .error .pathNotAbsolute :=
  ⟨(pathInv_reachable hw).shape, fun h _ => fileOpen_ne_notAbsolute (pathInv_reachable hw) h.value⟩

/-- The paths after the root's opening. -/
theorem paths_absolute_rootOpened :
    (∀ b f, (rootOpened false).fs.files b = some f →
      ∃ buf p, (rootOpened false).fs.pool f.path = some buf ∧ buf.HasStr 0 p ∧
        PathShape p f.baseName) ∧
    ∀ h ∈ (rootOpened false).out, ∀ Name Mode Attributes o,
      fileOpen 8 (rootOpened false).fs h.value Name Mode Attributes o ≠ .error .pathNotAbsolute :=
  paths_absolute (rootOpened_reachable 8 false)

end UefiNtfs
