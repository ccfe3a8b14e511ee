import UefiNtfs.RefCount

set_option autoImplicit false

/-! # Lifetime of instances and of the mount

`FileClose` and `FileDelete` end alike: the instance is closed and freed when its last value is
given back, and the volume is unmounted when its last value is. On a writable volume this keeps
every allocated instance referenced and the volume mounted only while values are out
(`settled_reachable`).

Two paths break the agreement between the mount and `TotalRefCount`. `FileDelete` on a
read-only volume gives the value back and returns `EFI_WARN_DELETE_FAILURE` before the
instance is freed and before the volume is unmounted, so the last value deleted leaves an
instance without references, and a mounted volume with `TotalRefCount` at zero. And the error
path of `FileOpenVolume` unmounts the volume whatever is still open on it.
-/

namespace UefiNtfs

/-! ## The read-only flag -/

/-- No call changes whether the volume is read-only. -/
theorem step_readOnly {PATH_MAX : Nat} {w w' : World} (hs : Step PATH_MAX w w')
    (hi : RefInv w.fs.refs w.fs.totalRefCount w.out) : w'.fs.readOnly = w.fs.readOnly := by
  cases hs with
  | @openVolume o fs st r env hr =>
    cases herr : efiError st
    · obtain ⟨-, b, rfl, hv⟩ := fileOpenVolume_success env hr herr
      cases hv <;> simp
    · obtain ⟨rfl, calls, rfl, -⟩ := fileOpenVolume_error env hr herr
      rfl
  | @«open» h hh Name Mode Attributes o fs st r env hr =>
    cases herr : efiError st
    · obtain ⟨-, b, rfl, ho⟩ := fileOpen_success env hr herr
      cases ho <;> simp
    · obtain ⟨rfl, calls, rfl, -⟩ := fileOpen_error env hr herr
      rfl
  | close h hh hr =>
    obtain ⟨F, -, hrel, -⟩ := hi.close_release hh hr
    exact hrel.readOnly
  | delete h hh onDelete hr =>
    obtain ⟨F, -, ⟨-, rfl⟩ | ⟨-, hrel, -⟩⟩ := hi.delete_release hh hr
    · rfl
    · exact hrel.readOnly
  | access h hh a hr => exact (Access.run_frame hr).readOnly

/-! ## Writable volumes -/

/-- What a run on a writable volume keeps: every allocated instance is referenced, and the volume
is mounted only while values are out. -/
structure Settled (s : EfiFs) : Prop where
  held : ∀ b r, s.refs b = some r → 0 < r.1
  mounted : s.mounted = true → 0 < s.totalRefCount

section Settled

variable {s s' : EfiFs}

theorem held_update {refs : Nat → Option (Int × Nat × Nat)} (hH : ∀ b r, refs b = some r → 0 < r.1)
    {b : Nat} {v : Option (Int × Nat × Nat)} (hv : ∀ r, v = some r → 0 < r.1) :
    ∀ x r, Function.update refs b v x = some r → 0 < r.1 := by
  intro x r hx
  rw [Function.update_apply] at hx
  split_ifs at hx
  · exact hv r hx
  · exact hH x r hx

/-- One more value for a live instance. -/
theorem settled_addRef (hH : ∀ b r, s.refs b = some r → 0 < r.1) (hnn : 0 ≤ s.totalRefCount)
    {b : Nat} (hb : (s.files b).isSome) : Settled (s.addRef b) where
  held := by
    obtain ⟨f, hf⟩ := Option.isSome_iff_exists.mp hb
    have hr : s.refs b = some f.refPart := by simp [EfiFs.refs, hf]
    rw [EfiFs.refs_addRef, hr]
    have := hH b _ hr
    exact held_update hH fun r h => by cases h; simp only; omega
  mounted _ := by simp; omega

/-- The first value for an instance just allocated. -/
theorem settled_setFile_addRef (hH : ∀ b r, s.refs b = some r → 0 < r.1)
    (hnn : 0 ≤ s.totalRefCount) {b : Nat} {g : NtfsFile} (hg : g.refPart = NtfsFile.fresh.refPart) :
    Settled ((s.setFile b g).addRef b) where
  held := by
    have hg0 : g.refCount = 0 := congrArg Prod.fst hg
    rw [EfiFs.refs_setFile_addRef]
    exact held_update hH fun r h => by cases h; simp [hg0]
  mounted _ := by simp; omega

/-- A value given back by `FileClose`, or by `FileDelete` on a writable volume. -/
theorem Settled.release {b : Nat} {F : NtfsFile} (hS : Settled s) (hF : s.files b = some F)
    (hr : Release s s' b F (decide (F.refCount = 1)))
    (hm : s'.mounted = true → 0 < s'.totalRefCount) : Settled s' where
  held := by
    have hpos : 0 < F.refCount := hS.held b F.refPart (by simp [EfiFs.refs, hF])
    rw [hr.refs]
    refine held_update hS.held fun r h => ?_
    by_cases h1 : F.refCount = 1
    · simp [h1] at h
    · simp [h1] at h
      subst h; show 0 < F.refCount - 1; omega
  mounted := hm

end Settled

/-- **One call on a writable volume keeps it settled.** -/
theorem settled_step {PATH_MAX : Nat} {w w' : World} (hs : Step PATH_MAX w w')
    (hi : RefInv w.fs.refs w.fs.totalRefCount w.out) (hro : w.fs.readOnly = false)
    (hS : Settled w.fs) : Settled w'.fs := by
  have hnn : 0 ≤ w.fs.totalRefCount := by rw [hi.total]; omega
  cases hs with
  | @openVolume o fs st r env hr =>
    cases herr : efiError st
    · obtain ⟨-, b, rfl, hv⟩ := fileOpenVolume_success env hr herr
      cases hv with
      | fresh _ _ hg _ _ _ => refine settled_setFile_addRef ?_ ?_ hg; exacts [hS.held, hnn]
      | reused hb _ => refine settled_addRef ?_ ?_ hb; exacts [hS.held, hnn]
    · obtain ⟨rfl, calls, rfl, -⟩ := fileOpenVolume_error env hr herr
      exact ⟨hS.held, fun h => absurd h Bool.false_ne_true⟩
  | @«open» h hh Name Mode Attributes o fs st r env hr =>
    cases herr : efiError st
    · obtain ⟨-, b, rfl, ho⟩ := fileOpen_success env hr herr
      cases ho with
      | reopen hF => exact settled_addRef hS.held hnn (by simp [hF])
      | fresh _ _ _ _ _ hg _ _ _ => refine settled_setFile_addRef ?_ ?_ hg; exacts [hS.held, hnn]
      | reused hb _ => refine settled_addRef ?_ ?_ hb; exacts [hS.held, hnn]
    · obtain ⟨rfl, calls, rfl, -⟩ := fileOpen_error env hr herr
      exact ⟨hS.held, hS.mounted⟩
  | close h hh hr =>
    obtain ⟨F, hF, hrel, hm⟩ := hi.close_release hh hr
    refine hS.release hF hrel fun h => ?_
    simp only [hm, Bool.and_eq_true, decide_eq_true_eq] at h
    rw [hrel.totalRefCount]; exact h.2
  | delete h hh onDelete hr =>
    obtain ⟨F, hF, ⟨-, rfl⟩ | ⟨-, hrel, hm⟩⟩ := hi.delete_release hh hr
    · exact hS
    simp only [hro, and_true] at hrel hm
    -- the instance's values are among all the values out
    have hle : F.refCount ≤ w.fs.totalRefCount := by
      have hc : F.refCount = refsOut w.out h.file := hi.count _ F.refPart (by simp [EfiFs.refs, hF])
      have : refsOut w.out h.file ≤ w.out.length := List.countP_le_length _
      rw [hc, hi.total]; omega
    refine hS.release hF hrel fun hmt => ?_
    simp only [hm, Bool.or_false, Bool.and_eq_true, Bool.or_eq_true, decide_eq_true_eq] at hmt
    rw [hrel.totalRefCount]; omega
  | access h hh a hr =>
    have hf := Access.run_frame hr
    exact ⟨hf.refs ▸ hS.held, fun h => hf.totalRefCount ▸ hS.mounted (hf.mounted ▸ h)⟩

/-- Every world a run on a writable volume reaches is settled. -/
theorem settled_reachable {PATH_MAX : Nat} {w : World} (hw : Reachable PATH_MAX w)
    (hro : w.fs.readOnly = false) : Settled w.fs := by
  induction hw with
  | init => exact ⟨fun _ _ h => (by cases h), fun h => (by cases h)⟩
  | step hw hs ih =>
    have hi := refInv_reachable hw
    have hro' := (step_readOnly hs hi).symm.trans hro
    exact settled_step hs hi hro' (ih hro')

/-- **On a writable volume every allocated instance is referenced.** -/
theorem writable_refCount_pos {PATH_MAX : Nat} {w : World} (hw : Reachable PATH_MAX w)
    (hro : w.fs.readOnly = false) : ∀ b f, w.fs.files b = some f → 1 ≤ f.refCount := fun b f hb =>
  (settled_reachable hw hro).held b f.refPart (by simp [EfiFs.refs, hb])

/-- The root instance a writable volume's `FileOpenVolume` opened is referenced. -/
theorem writable_refCount_pos_rootOpened :
    ∃ f, (rootOpened false).fs.files 256 = some f ∧ 1 ≤ f.refCount :=
  ⟨_, rfl, writable_refCount_pos (rootOpened_reachable 8 false) rfl 256 _ rfl⟩

/-- **On a writable volume the volume is mounted only while values are out**: the call that
gives back the last value unmounts it. -/
theorem writable_mounted_pos {PATH_MAX : Nat} {w : World} (hw : Reachable PATH_MAX w)
    (hro : w.fs.readOnly = false) (hm : w.fs.mounted = true) : 0 < w.fs.totalRefCount :=
  (settled_reachable hw hro).mounted hm

/-- The writable volume `FileOpenVolume` mounted has a value out. -/
theorem writable_mounted_pos_rootOpened : 0 < (rootOpened false).fs.totalRefCount :=
  writable_mounted_pos (rootOpened_reachable 8 false) rfl rfl

/-! ## Where the agreement breaks -/

/-- The open of `"a"`: the allocators place the instance at `4096` and its path at `1024`, and
the engine opens a file. -/
def fileAOracle : OpenOracle :=
  { pathAddr := 1024, fileAddr := 4096, onOpen := .opened false, onCreate := .created }

/-- The name `"a"`. -/
def nameA : Str16 := ⟨[0x61], by decide⟩

/-- After `FileOpenVolume`, the root instance is the only one. -/
theorem rootOpened_files {ro : Bool} {b : Nat} {f : NtfsFile}
    (h : (rootOpened ro).fs.files b = some f) : b = 256 := by
  by_contra hb
  simp [rootOpened, fileOpenVolume, blankVolume, rootOracle, ntfsMountVolume, ntfsAllocateFile,
    setupRootPath, ntfsOpenFile, EfiFs.addRef, EfiFs.modifyFile, EfiFs.record, EfiFs.setFile,
    allocateZeroPool, EfiFs.init, hb, Function.update_apply] at h

theorem fileAOracle_sound (ro : Bool) : fileAOracle.Sound (rootOpened ro).fs where
  file _ := ⟨rfl, fun b f h => by
    rw [rootOpened_files h]; simp [fileAOracle, objSize, sizeOfEfiFile, sizeOfUintn]⟩
  path _ := rfl
  onOpen := trivial
  onCreate := trivial

/-- The engine of `fileAOracle` opens or creates and never hands back an instance. -/
theorem fileAOracle_samePath {PATH_MAX This : Nat} {s : EfiFs} {Name : Str16} :
    fileAOracle.SamePath PATH_MAX s This Name :=
  fun _ _ _ _ _ => ⟨trivial, trivial⟩

/-- On a read-only volume: open the root, open `"a"` read-only from it, close the root, and
delete `"a"`. The delete gives back the last value, and leaves the volume mounted and the
instance of `"a"` allocated without references. -/
theorem readOnlyDelete_run : ∃ w : World, Reachable 8 w ∧ w.fs.readOnly = true ∧ w.out = [] ∧
    w.fs.mounted = true ∧ w.fs.totalRefCount = 0 ∧
    ∃ f, w.fs.files 4096 = some f ∧ f.refCount = 0 :=
  ⟨_, .step (.step (.step (rootOpened_reachable 8 true)
    (.open _ ⟨256, false⟩ (by simp [rootOpened]) nameA efiFileModeRead 0 fileAOracle
      (fileAOracle_sound true) rfl fileAOracle_samePath))
    (.close _ ⟨256, false⟩ (by decide) rfl))
    (.delete _ ⟨4096, true⟩ (by decide) efiSuccess rfl), rfl, by decide, rfl, rfl, _, rfl, rfl⟩

/-- `FileOpenVolume` in which the engine's mount succeeds (or the volume is mounted already) and
`NtfsAllocateFile` fails. -/
def allocFailOracle : VolumeOracle :=
  { mount := efiSuccess, fileAddr := 0, pathAddr := 0, onOpen := .fail efiNotFound }

theorem allocFailOracle_sound (s : EfiFs) : allocFailOracle.Sound s :=
  ⟨fun h => absurd rfl h, fun h => absurd rfl h, trivial⟩

/-- **The mount and `TotalRefCount` disagree** in two reachable worlds. After the read-only
delete of `readOnlyDelete_run` the volume is mounted with no value out. And a second
`FileOpenVolume` whose allocation fails unmounts the volume while the root's first value is
still out. -/
theorem mount_agreement_broken :
    (∃ w : World, Reachable 8 w ∧ w.fs.mounted = true ∧ w.fs.totalRefCount = 0) ∧
    (∃ w : World, Reachable 8 w ∧ w.out = [⟨256, false⟩] ∧ w.fs.mounted = false ∧
      w.fs.totalRefCount = 1) :=
  ⟨by
    obtain ⟨w, hw, -, -, hm, ht, -⟩ := readOnlyDelete_run
    exact ⟨w, hw, hm, ht⟩,
   ⟨_, .step (rootOpened_reachable 8 false) (.openVolume _ allocFailOracle
      (allocFailOracle_sound _) rfl trivial), rfl, rfl, rfl⟩⟩

/-- **An allocated instance without references** in a reachable world: the instance of `"a"`
after the read-only delete of `readOnlyDelete_run`, which nothing will free. -/
theorem unreferenced_instance_kept :
    ∃ w : World, Reachable 8 w ∧ ∃ b f, w.fs.files b = some f ∧ f.refCount = 0 := by
  obtain ⟨w, hw, -, -, -, -, f, hf, h0⟩ := readOnlyDelete_run
  exact ⟨w, hw, 4096, f, hf, h0⟩

end UefiNtfs
