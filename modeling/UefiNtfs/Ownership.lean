import UefiNtfs.PathInvariant
import UefiNtfs.Lifetime

set_option autoImplicit false

/-! # The pool holds exactly the paths of open instances

`FileOpen` and `FileOpenVolume` allocate the path buffer of a new instance before the instance
exists, and hand it over (`NewFile->Path = Path; Path = NULL`, `RootFile->Path = ...`) only once
it does. An exit that keeps no new instance frees the buffer again, through `FreePool (Path)` at
`out:` or through `NtfsFreeFile`, which releases an instance together with its path; `FileClose`
and `FileDelete` release an instance only through `NtfsFreeFile`.

So, over every run, the pool holds a buffer exactly at the path of each open instance, no two
instances share one, and nothing lives at `NULL` (`pool_holds_paths`): no path buffer leaks,
and none is freed while an instance still points to it. On a writable volume, where every
instance is referenced, a world in which the environment holds no value is the volume before the
first call but for its log and its label (`writable_idle_empty`).

The proof is a frame argument: every call but the allocating ones is a `Frees` step (it
allocates nothing, keeps the instances' paths, and frees the path of each instance it releases),
and the allocating ones are read off `OpenSuccess` and `VolumeSuccess`.
-/

namespace UefiNtfs

/-- **Ownership of the pool**: nothing lives at `NULL`, and every buffer the pool holds is the
path of an open instance. -/
structure Owned (s : EfiFs) : Prop where
  null : s.pool 0 = none
  owner : ∀ p, (s.pool p).isSome → ∃ b f, s.files b = some f ∧ f.path = p

/-- A call that allocates no buffer, keeps the paths of the instances it keeps, and frees the
path of every instance it releases. -/
structure Frees (s s' : EfiFs) extends PathFrame s s' : Prop where
  live : ∀ p, (s'.pool p).isSome → s'.pool p = s.pool p
  released : ∀ b f, s.files b = some f → s'.files b = none → f.path ≠ 0 → s'.pool f.path = none

namespace Frees

variable {s s' s'' : EfiFs}

theorem of_eq (hf : s'.files = s.files) (hp : s'.pool = s.pool) : Frees s s' where
  toPathFrame := .of_eq hf hp
  live p _ := congrFun hp p
  released _ _ hb hb' _ := by rw [hf, hb] at hb'; cases hb'

/-- A buffer that was not live is not live after the call. -/
theorem pool_none (h : Frees s s') {p : Nat} (hp : s.pool p = none) : s'.pool p = none := by
  by_contra hne
  exact hne ((h.live p (Option.ne_none_iff_isSome.mp hne)).trans hp)

theorem trans (h₁ : Frees s s') (h₂ : Frees s' s'') : Frees s s'' where
  toPathFrame := h₁.toPathFrame.trans h₂.toPathFrame
  live p hp := by
    have h := h₂.live p hp
    exact h.trans (h₁.live p (h ▸ hp))
  released b f hf hf'' h0 := by
    cases hf' : s'.files b with
    | none => exact h₂.pool_none (h₁.released b f hf hf' h0)
    | some f' =>
      -- the instance survived the first call, with its path
      obtain ⟨f₀, hf₀, hpath, -⟩ := h₁.files b f' hf'
      obtain rfl : f₀ = f := Option.some.inj (hf₀.symm.trans hf)
      rw [← hpath] at h0 ⊢
      exact h₂.released b f' hf' hf'' h0

theorem setFile {b : Nat} {f g : NtfsFile} (hb : s.files b = some f) (hp : g.path = f.path)
    (hn : g.baseName = f.baseName) : Frees s (s.setFile b g) where
  toPathFrame := .setFile hb hp hn
  live _ _ := rfl
  released x _ hx hx' _ := by
    by_cases h : x = b
    · subst h; simp at hx'
    · simp [h, hx] at hx'

theorem modifyFile {b : Nat} {g : NtfsFile → NtfsFile} (hp : ∀ f, (g f).path = f.path)
    (hn : ∀ f, (g f).baseName = f.baseName) : Frees s (s.modifyFile b g) := by
  cases hb : s.files b with
  | none => rw [EfiFs.modifyFile_of_none _ hb]; exact of_eq rfl rfl
  | some f => rw [EfiFs.modifyFile_of_some _ hb]; exact setFile hb (hp f) (hn f)

/-- Releasing an instance together with its path buffer. -/
theorem release {b : Nat} {f : NtfsFile} (hb : s.files b = some f) :
    Frees s ((freePool s f.path).dropFile b) where
  toPathFrame := .release hb
  live p hp := by
    simp only [EfiFs.dropFile_pool, freePool_pool] at hp ⊢
    split_ifs at hp ⊢
    · rfl
    · by_cases hpf : p = f.path
      · subst hpf; simp at hp
      · simp [hpf]
  released x f' hx hx' h0 := by
    have hxb : x = b := by by_contra hne; simp [hne, hx] at hx'
    subst hxb
    obtain rfl : f' = f := Option.some.inj (hx.symm.trans hb)
    simp [freePool_of_ne _ h0]

theorem ntfsFreeFile {b : Nat} : Frees s (ntfsFreeFile s b) := by
  rcases ntfsFreeFile_cases s b with h | ⟨f, hf, h⟩ <;> rw [h]
  · exact of_eq rfl rfl
  · exact (@of_eq s (s.record (.freeFile b)) rfl rfl).trans (release hf)

theorem ntfsCloseFile {b : Nat} : Frees s (ntfsCloseFile s b) := by
  unfold UefiNtfs.ntfsCloseFile
  split
  · exact of_eq rfl rfl
  · exact (@of_eq s (s.record (.closeFile b)) rfl rfl).trans (modifyFile (fun _ => rfl) fun _ => rfl)

theorem ntfsDeleteFile {b : Nat} {st : EfiStatus} : Frees s (ntfsDeleteFile s b st).1 :=
  (@of_eq s (s.record (.deleteFile b)) rfl rfl).trans (modifyFile (fun _ => rfl) fun _ => rfl)

/-- One more reference, after a call that kept the instances and the buffers. -/
theorem addRef {s₀ : EfiFs} (b : Nat) (hf : s₀.files = s.files) (hp : s₀.pool = s.pool) :
    Frees s (s₀.addRef b) :=
  (of_eq hf hp).trans ((@modifyFile s₀ b (fun f => { f with refCount := f.refCount + 1 })
    (fun _ => rfl) fun _ => rfl).trans (of_eq rfl rfl))

/-- The common end of `FileClose` and `FileDelete`, `TotalRefCount--` and the unmount. -/
theorem unmountIfIdle : Frees s (unmountIfIdle s) := of_eq (by simp) (by simp)

theorem decTotal : Frees s s.decTotal := of_eq rfl rfl

end Frees

/-- An access call keeps every instance and every buffer. -/
theorem AccessFrame.frees {s s' : EfiFs} (h : AccessFrame s s') : Frees s s' where
  toPathFrame := h.pathFrame
  live p _ := congrFun h.pool p
  released b _ hb hb' _ := by simpa [hb, hb'] using h.files b

section Calls

variable {s s' : EfiFs} {This : Nat} {F : NtfsFile} {st : EfiStatus}

/-- **`FileClose`** frees the path of the instance it releases, and nothing else. -/
theorem fileClose_frees (hF : s.files (baseFile s This) = some F)
    (h : fileClose s This = .ok (s', st)) : Frees s s' := by
  simp only [fileClose, hF, Except.ok.injEq, Prod.mk.injEq] at h
  obtain ⟨rfl, -⟩ := h
  have h₁ : Frees s (s.setFile (baseFile s This) { F with refCount := F.refCount - 1 }) :=
    .setFile hF rfl rfl
  refine (Frees.trans ?_ .decTotal).trans .unmountIfIdle
  split
  · exact (h₁.trans .ntfsCloseFile).trans .ntfsFreeFile
  · exact h₁

/-- **`FileDelete`**, at each of its exits, frees the path of the instance it releases, and
nothing else. -/
theorem fileDelete_frees {onDelete : EfiStatus} (hF : s.files (baseFile s This) = some F)
    (h : fileDelete s This onDelete = .ok (s', st)) : Frees s s' := by
  have h₀ : Frees s (s.setFile (baseFile s This) { F with refCount := F.refCount - 1 }) :=
    .setFile hF rfl rfl
  have h₁ := h₀.trans .decTotal
  rcases fileDelete_cases hF h with ⟨-, -, rfl⟩ | ⟨-, -, -, rfl⟩ | ⟨-, -, -, -, rfl⟩
  · exact .of_eq rfl rfl
  · exact h₁
  · exact ((h₁.trans .ntfsDeleteFile).trans .ntfsFreeFile).trans .unmountIfIdle

end Calls

namespace Owned

variable {s s' : EfiFs}

theorem init (readOnly : Bool) (label : Option Str16) (blockIo : Media) (blockIo2 : Option Media) :
    Owned (EfiFs.init readOnly label blockIo blockIo2) :=
  ⟨rfl, fun _ h => by simp [EfiFs.init] at h⟩

/-- Ownership survives a call that only frees. -/
theorem of_frees (ho : Owned s) (h : Frees s s') : Owned s' where
  null := h.pool_none ho.null
  owner p hp := by
    obtain ⟨b, f, hf, rfl⟩ := ho.owner _ (by rwa [h.live _ hp] at hp)
    cases hf' : s'.files b with
    | none =>
      -- the owner was released, and its path freed with it
      have h0 : f.path ≠ 0 := by rintro h0; rw [h0, h.pool_none ho.null] at hp; cases hp
      rw [h.released b f hf hf' h0] at hp; cases hp
    | some f' =>
      obtain ⟨f₀, hf₀, hpath, -⟩ := h.files b f' hf'
      obtain rfl : f₀ = f := Option.some.inj (hf₀.symm.trans hf)
      exact ⟨b, f', hf', hpath⟩

/-- A new instance at a free address `A`, which owns the new buffer at `P`. -/
theorem fresh (ho : Owned s) {s₀ : EfiFs} {A P : Nat} {buf : Buf} {g : NtfsFile}
    (hfiles : s₀.files = s.files) (hpool : s₀.pool = Function.update s.pool P (some buf))
    (hP : P ≠ 0) (hA : s.files A = none) (hg : g.path = P) : Owned ((s₀.setFile A g).addRef A) := by
  refine of_frees ⟨?_, fun p hp => ?_⟩ (.addRef A rfl rfl)
  · simp [hpool, Ne.symm hP, ho.null]
  · simp only [EfiFs.setFile_pool, hpool, Function.update_apply] at hp
    split at hp
    · next hpP => exact ⟨A, g, by simp, hg.trans hpP.symm⟩
    · obtain ⟨b, f, hf, rfl⟩ := ho.owner _ hp
      have hbA : b ≠ A := by rintro rfl; rw [hA] at hf; cases hf
      exact ⟨b, f, by simp [hbA, hfiles, hf], rfl⟩

end Owned

/-! ## Along a run -/

/-- **One call keeps the pool owned.** -/
theorem owned_step {PATH_MAX : Nat} {w w' : World} (hs : Step PATH_MAX w w')
    (hr : RefInv w.fs.refs w.fs.totalRefCount w.out) (ho : Owned w.fs) : Owned w'.fs := by
  cases hs with
  | @openVolume o fs st r env hrun =>
    rcases fileOpenVolume_cases env hrun with ⟨-, -, calls, rfl, -⟩ | ⟨-, b, -, hv⟩
    · exact ho.of_frees (.of_eq rfl rfl)
    · cases hv with
      | fresh ha hp _ hgp _ _ => exact ho.fresh rfl rfl hp (env.file ha).1 hgp
      | reused => exact ho.of_frees (.addRef _ rfl rfl)
  | @«open» h hh Name Mode Attributes o fs st r env hrun =>
    cases herr : efiError st
    · obtain ⟨-, b, -, hsucc⟩ := fileOpen_success env hrun herr
      cases hsucc with
      | reopen => exact ho.of_frees (.addRef _ rfl rfl)
      | fresh ha hp _ _ _ _ hgp _ _ => exact ho.fresh rfl rfl hp (env.file ha).1 hgp
      | reused => exact ho.of_frees (.addRef _ rfl rfl)
    · obtain ⟨-, calls, rfl, -⟩ := fileOpen_error env hrun herr
      exact ho.of_frees (.of_eq rfl rfl)
  | close h hh hrun =>
    obtain ⟨F, hF, hbase, -⟩ := hr.decode hh
    exact ho.of_frees (fileClose_frees (hbase ▸ hF) hrun)
  | delete h hh onDelete hrun =>
    obtain ⟨F, hF, hbase, -⟩ := hr.decode hh
    exact ho.of_frees (fileDelete_frees (hbase ▸ hF) hrun)
  | access h hh a hrun => exact ho.of_frees (Access.run_frame hrun).frees

/-- Every reachable world keeps the pool owned. -/
theorem owned_reachable {PATH_MAX : Nat} {w : World} (hw : Reachable PATH_MAX w) : Owned w.fs := by
  induction hw with
  | init readOnly label blockIo blockIo2 => exact Owned.init readOnly label blockIo blockIo2
  | step hw hs ih => exact owned_step hs (refInv_reachable hw) ih

/-- **The pool holds exactly the paths of open instances.** In every reachable world nothing
lives at `NULL`, a buffer lives at `p` exactly when `p` is the `Path` of an open instance, and no
two instances share a path buffer: no path leaks, and none is freed while an instance still
points to it. -/
theorem pool_holds_paths {PATH_MAX : Nat} {w : World} (hw : Reachable PATH_MAX w) :
    w.fs.pool 0 = none ∧
    (∀ p, (w.fs.pool p).isSome ↔ ∃ b f, w.fs.files b = some f ∧ f.path = p) ∧
    ∀ b b' f f', w.fs.files b = some f → w.fs.files b' = some f' → f.path = f'.path → b = b' := by
  have ho := owned_reachable hw
  have hi := pathInv_reachable hw
  refine ⟨ho.null, fun p => ⟨ho.owner p, ?_⟩, hi.apart⟩
  rintro ⟨b, f, hf, rfl⟩
  obtain ⟨buf, -, hbuf, -⟩ := hi.shape b f hf
  simp [hbuf]

/-- The pool after the root's opening: the root's path `"/"`, and nothing else. -/
theorem pool_holds_paths_rootOpened :
    (rootOpened false).fs.pool 0 = none ∧
    (∀ p, ((rootOpened false).fs.pool p).isSome ↔
      ∃ b f, (rootOpened false).fs.files b = some f ∧ f.path = p) ∧
    ∀ b b' f f', (rootOpened false).fs.files b = some f → (rootOpened false).fs.files b' = some f' →
      f.path = f'.path → b = b' :=
  pool_holds_paths (rootOpened_reachable 8 false)

/-! ## An idle writable volume -/

/-- **A writable volume with no value out is back where it started.** In every reachable world of
a writable volume in which the environment holds no value, no instance is open, the pool holds no
buffer, `TotalRefCount` is zero and the volume is unmounted: the world is the volume before the
first call, but for the log and the label. -/
theorem writable_idle_empty {PATH_MAX : Nat} {w : World} (hw : Reachable PATH_MAX w)
    (hro : w.fs.readOnly = false) (hout : w.out = []) :
    w.fs = { EfiFs.init false w.fs.volumeLabel w.fs.blockIo w.fs.blockIo2 with log := w.fs.log } := by
  have hi := refInv_reachable hw
  have hS := settled_reachable hw hro
  have ho := owned_reachable hw
  have htot : w.fs.totalRefCount = 0 := by simp [hi.total, hout]
  -- an instance would hold a reference, and no value is out to account for it
  have hfiles : ∀ b, w.fs.files b = none := by
    intro b
    cases hb : w.fs.files b with
    | none => rfl
    | some f =>
      have hr : w.fs.refs b = some f.refPart := by simp [EfiFs.refs, hb]
      have := hS.held b _ hr
      rw [hi.count b _ hr, hout] at this
      simp [refsOut] at this
  have hpool : ∀ p, w.fs.pool p = none := fun p =>
    Option.not_isSome_iff_eq_none.mp fun hp => by
      obtain ⟨b, f, hf, -⟩ := ho.owner p hp
      simp [hfiles b] at hf
  have hm : w.fs.mounted = false := by
    cases hmt : w.fs.mounted
    · rfl
    · have := hS.mounted hmt; omega
  simp [EfiFs.ext_iff, EfiFs.init, funext hfiles, funext hpool, htot, hm, hro]

/-- After `FileOpenVolume` on a writable volume and a `FileClose` of the root, the volume is empty
and unmounted again. -/
theorem writable_idle_empty_rootClosed :
    ∃ w : World, Reachable 8 w ∧ w.fs.readOnly = false ∧ w.out = [] ∧
      w.fs = { EfiFs.init false w.fs.volumeLabel w.fs.blockIo w.fs.blockIo2 with log := w.fs.log } := by
  have hw := Reachable.step (rootOpened_reachable 8 false)
    (.close _ ⟨256, false⟩ (by simp [rootOpened]) rfl)
  exact ⟨_, hw, rfl, rfl, writable_idle_empty hw rfl rfl⟩

end UefiNtfs
