import UefiNtfs.Effects

set_option autoImplicit false

/-! # Reference counting

`RefCount` of an instance counts the handle values out for it, and `TotalRefCount` counts all
the values out on the volume. This module proves that the file layer keeps both counts exact
along every run: each allocated instance's `RefCount` is the number of values out that
`BASE_FILE` decodes to it, `TotalRefCount` is the number of values out, and each value out
decodes, by `RO_ACCESS` and `BASE_FILE`, to a live instance and the mode it was issued with.

The invariant reads only the reference view (`EfiFs.refs`) and `TotalRefCount`, so it is stated
over those. The calls that hand out or take back a value change the view in three ways:
`NtfsAllocateFile` adds an instance without references (`RefInv.allocate`), a successful open
adds a reference (`RefInv.addRef`), and `FileClose` or `FileDelete` give one back
(`RefInv.release`). Every other call leaves the view alone (`AccessFrame`).
-/

namespace UefiNtfs

/-- The number of values out for the instance at `b`. -/
def refsOut (out : List Handle) (b : Nat) : Nat := out.countP (·.file == b)

/-- `Layout` as the reference view sees it. -/
structure RefLayout (refs : Nat → Option (Int × Nat × Nat)) : Prop where
  null : refs 0 = none
  marks : ∀ b r, refs b = some r → r.2.1 ≠ uintnMax ∧ r.2.2 = uintnMax
  apart : ∀ b b' r r', refs b = some r → refs b' = some r' → b ≠ b' →
    b + objSize ≤ b' ∨ b' + objSize ≤ b

/-- **The reference invariant** of a volume whose reference view is `refs` and whose
`TotalRefCount` is `total`, while the environment holds the values `out`. -/
structure RefInv (refs : Nat → Option (Int × Nat × Nat)) (total : Int) (out : List Handle) :
    Prop where
  layout : RefLayout refs
  /-- Every value out stands for a live instance. -/
  live : ∀ h ∈ out, (refs h.file).isSome
  /-- `RefCount` counts the values out for the instance. -/
  count : ∀ b r, refs b = some r → r.1 = refsOut out b
  /-- `TotalRefCount` counts all the values out. -/
  total : total = out.length

/-! ## The three changes of the view -/

section View

variable {refs : Nat → Option (Int × Nat × Nat)} {total : Int} {out : List Handle}

theorem refsOut_cons (h : Handle) (out : List Handle) (b : Nat) :
    refsOut (h :: out) b = refsOut out b + if h.file = b then 1 else 0 := by
  simp [refsOut, List.countP_cons]

theorem refsOut_erase {h : Handle} (hh : h ∈ out) (b : Nat) :
    refsOut out b = refsOut (out.erase h) b + if h.file = b then 1 else 0 := by
  rw [refsOut, (List.perm_cons_erase hh).countP_eq, ← refsOut, refsOut_cons]

/-- A layout survives any change that keeps no instance but old ones with their markers. -/
theorem RefLayout.mono {refs' : Nat → Option (Int × Nat × Nat)} (hl : RefLayout refs)
    (h : ∀ b r', refs' b = some r' → ∃ r, refs b = some r ∧ r'.2 = r.2) : RefLayout refs' where
  null := by
    cases h0 : refs' 0 with
    | none => rfl
    | some r' => obtain ⟨r, hr, -⟩ := h 0 r' h0; simp [hl.null] at hr
  marks b r' hb := by
    obtain ⟨r, hr, he⟩ := h b r' hb
    rw [he]; exact hl.marks b r hr
  apart b b' r₁ r₂ h₁ h₂ hne := by
    obtain ⟨_, hg₁, -⟩ := h b r₁ h₁
    obtain ⟨_, hg₂, -⟩ := h b' r₂ h₂
    exact hl.apart b b' _ _ hg₁ hg₂ hne

/-- A change of one instance's count that keeps its markers keeps the layout. -/
theorem RefLayout.update {b : Nat} {r : Int × Nat × Nat} (hl : RefLayout refs)
    (hb : refs b = some r) (v : Option (Int × Nat × Nat)) (hv : ∀ r', v = some r' → r'.2 = r.2) :
    RefLayout (Function.update refs b v) := by
  refine hl.mono fun x r' hx => ?_
  rw [Function.update_apply] at hx
  split_ifs at hx with hxb
  · subst hxb; exact ⟨r, hb, hv r' hx⟩
  · exact ⟨r', hx, rfl⟩

/-- No value is out for an instance that is not there. -/
theorem RefInv.refsOut_eq_zero (hi : RefInv refs total out) {b : Nat} (hb : refs b = none) :
    refsOut out b = 0 := by
  refine List.countP_eq_zero.mpr fun h hh he => ?_
  have := hi.live h hh
  rw [beq_iff_eq.mp he, hb] at this
  exact Bool.false_ne_true this

/-- `NtfsAllocateFile`: a new instance, without references, at an address clear of the
others. -/
theorem RefInv.allocate (hi : RefInv refs total out) {a : Nat} (h0 : a ≠ 0) (hnone : refs a = none)
    (hapart : ∀ b r, refs b = some r → a + objSize ≤ b ∨ b + objSize ≤ a) :
    RefInv (Function.update refs a (some NtfsFile.fresh.refPart)) total out where
  layout := by
    have hl := hi.layout
    refine ⟨by simp [Ne.symm h0, hl.null], fun b r hb => ?_, fun b b' r r' hb hb' hne => ?_⟩
    · rw [Function.update_apply] at hb
      split_ifs at hb
      · cases hb; simp [NtfsFile.fresh, NtfsFile.refPart, uintnMax]
      · exact hl.marks b r hb
    · rw [Function.update_apply] at hb hb'
      split_ifs at hb hb' with h₁ h₂ h₂
      · exact absurd (h₁.trans h₂.symm) hne
      · subst h₁; exact hapart b' r' hb'
      · subst h₂; exact (hapart b r hb).symm
      · exact hl.apart b b' r r' hb hb' hne
  live h hh := by
    by_cases hx : h.file = a
    · rw [hx]; simp
    · simpa [hx] using hi.live h hh
  count b r hb := by
    rw [Function.update_apply] at hb
    split_ifs at hb with hba
    · cases hb; subst hba; simp [NtfsFile.fresh, NtfsFile.refPart, hi.refsOut_eq_zero hnone]
    · exact hi.count b r hb
  total := hi.total

/-- A successful open: one more value out for the instance at `b`. -/
theorem RefInv.addRef (hi : RefInv refs total out) {b : Nat} {r : Int × Nat × Nat}
    (hb : refs b = some r) (ro : Bool) :
    RefInv (Function.update refs b (some (r.1 + 1, r.2))) (total + 1) (⟨b, ro⟩ :: out) where
  layout := hi.layout.update hb _ (by simp)
  live h hh := by
    by_cases hx : h.file = b
    · rw [hx]; simp
    · rcases List.mem_cons.mp hh with rfl | hh
      · exact absurd rfl hx
      · simpa [hx] using hi.live h hh
  count x r' hx := by
    rw [refsOut_cons, Function.update_apply] at *
    split_ifs at hx with hxb
    · cases hx; subst hxb; simp [hi.count _ _ hb]
    · simp [Ne.symm hxb, hi.count x r' hx]
  total := by simp [hi.total]

/-- `FileClose` or `FileDelete` on the value `h`: one value less for its instance, which is
released (`rel`) only when that was its last. -/
theorem RefInv.release (hi : RefInv refs total out) {h : Handle} (hh : h ∈ out)
    {r : Int × Nat × Nat} (hb : refs h.file = some r) {rel : Bool} (hrel : rel = true → r.1 = 1) :
    RefInv (Function.update refs h.file (if rel then none else some (r.1 - 1, r.2))) (total - 1)
      (out.erase h) where
  layout := hi.layout.update hb _ (by split <;> simp)
  live h' hh' := by
    by_cases hx : h'.file = h.file
    · cases rel
      · rw [hx]; simp
      · -- the last value for the instance is gone, so `h'` cannot be another
        have hc := hi.count _ _ hb
        rw [hrel rfl, refsOut_erase hh, if_pos rfl] at hc
        have : 0 < refsOut (out.erase h) h.file :=
          List.countP_pos_iff.mpr ⟨h', hh', by simp [hx]⟩
        omega
    · simpa [hx] using hi.live h' (List.mem_of_mem_erase hh')
  count x r' hx := by
    have hc := refsOut_erase hh x
    by_cases hxh : x = h.file
    · subst hxh
      cases rel
      · simp only [Bool.false_eq_true, if_false, Function.update_same, Option.some.injEq] at hx
        subst hx; simp [hi.count _ _ hb] at hc ⊢; omega
      · simp at hx
    · rw [Function.update_noteq hxh] at hx
      simp [Ne.symm hxh, hi.count x r' hx] at hc ⊢; omega
  total := by
    have := List.length_pos_of_mem hh
    rw [List.length_erase_of_mem hh, hi.total]; omega

end View

/-! ## The view of a volume -/

section Volume

variable {s s' : EfiFs} {out : List Handle}

/-- The view's layout is the volume's. -/
theorem RefLayout.toLayout (hl : RefLayout s.refs) : Layout s where
  null := by simpa [EfiFs.refs] using hl.null
  marks b f hb := hl.marks b f.refPart (by simp [EfiFs.refs, hb])
  apart b b' f f' hb hb' := hl.apart b b' f.refPart f'.refPart (by simp [EfiFs.refs, hb])
    (by simp [EfiFs.refs, hb'])

/-- **Decoding a value out.** It stands for a live instance, and `BASE_FILE` and `RO_ACCESS`
recover that instance and the mode the value was issued with. -/
theorem RefInv.decode (hi : RefInv s.refs s.totalRefCount out) {h : Handle} (hh : h ∈ out) :
    ∃ F, s.files h.file = some F ∧ baseFile s h.value = h.file ∧ roAccess s h.value = h.ro := by
  obtain ⟨F, hF⟩ := Option.isSome_iff_exists.mp (by simpa [EfiFs.refs] using hi.live h hh)
  exact ⟨F, hF, baseFile_value hi.layout.toLayout hF h.ro, roAccess_value hi.layout.toLayout hF h.ro⟩

/-- No value out stands for `NULL`. -/
theorem RefInv.file_ne_zero (hi : RefInv s.refs s.totalRefCount out) {h : Handle} (hh : h ∈ out) :
    h.file ≠ 0 := by
  intro h0
  have := hi.live h hh
  rw [h0, hi.layout.null] at this
  exact Bool.false_ne_true this

/-- An instance `NtfsAllocateFile` places at an address it may give. -/
theorem RefInv.setFile_fresh (hi : RefInv s.refs s.totalRefCount out) {a : Nat} (hfresh : FreshFile s a)
    (h0 : a ≠ 0) {g : NtfsFile} (hg : g.refPart = NtfsFile.fresh.refPart) :
    RefInv (s.setFile a g).refs (s.setFile a g).totalRefCount out := by
  obtain ⟨hnone, hapart⟩ := hfresh h0
  rw [EfiFs.refs_setFile, hg]
  refine hi.allocate h0 (by simp [EfiFs.refs, hnone]) fun b r hb => ?_
  obtain ⟨f, hf, -⟩ := Option.map_eq_some'.mp hb
  exact hapart b f hf

/-- `EfiFs.addRef` on a live instance hands out one more value. -/
theorem RefInv.addRef_fs (hi : RefInv s.refs s.totalRefCount out) {b : Nat}
    (hb : (s.files b).isSome) (ro : Bool) :
    RefInv (s.addRef b).refs (s.addRef b).totalRefCount (⟨b, ro⟩ :: out) := by
  obtain ⟨f, hf⟩ := Option.isSome_iff_exists.mp hb
  have hr : s.refs b = some f.refPart := by simp [EfiFs.refs, hf]
  rw [EfiFs.refs_addRef, EfiFs.addRef_totalRefCount, hr]
  exact hi.addRef hr ro

/-- A `Release` of the value `h` takes it back. -/
theorem RefInv.of_release (hi : RefInv s.refs s.totalRefCount out) {h : Handle} (hh : h ∈ out)
    {F : NtfsFile} (hF : s.files h.file = some F) {rel : Bool} (hr : Release s s' h.file F rel)
    (hrel : rel = true → F.refCount = 1) :
    RefInv s'.refs s'.totalRefCount (out.erase h) := by
  rw [hr.refs, hr.totalRefCount]
  have hb : s.refs h.file = some F.refPart := by simp [EfiFs.refs, hF]
  exact hi.release hh hb hrel

/-- **`FileClose` on a value out** gives back its reference. -/
theorem RefInv.close_release (hi : RefInv s.refs s.totalRefCount out) {h : Handle} (hh : h ∈ out)
    {st : EfiStatus} (hr : fileClose s h.value = .ok (s', st)) :
    ∃ F, s.files h.file = some F ∧ Release s s' h.file F (decide (F.refCount = 1)) ∧
      s'.mounted = (s.mounted && decide (0 < s.totalRefCount - 1)) := by
  obtain ⟨F, hF, hbase, -⟩ := hi.decode hh
  obtain ⟨-, hrel, hm⟩ := fileClose_release (hbase ▸ hF) (hbase ▸ hi.file_ne_zero hh) hr
  exact ⟨F, hF, hbase ▸ hrel, hm⟩

/-- **`FileDelete` on a value out** either refuses, keeping the value and changing nothing, or
gives back its reference. -/
theorem RefInv.delete_release (hi : RefInv s.refs s.totalRefCount out) {h : Handle} (hh : h ∈ out)
    {onDelete st : EfiStatus} (hr : fileDelete s h.value onDelete = .ok (s', st)) :
    ∃ F, s.files h.file = some F ∧
      ((deleteRefused s h.value = true ∧ s' = s) ∨
       (deleteRefused s h.value = false ∧
        Release s s' h.file F (decide (F.refCount = 1 ∧ s.readOnly = false)) ∧
        s'.mounted = (s.mounted && (decide (0 < F.refCount - 1) || s.readOnly ||
          decide (0 < s.totalRefCount - 1))))) := by
  obtain ⟨F, hF, hbase, -⟩ := hi.decode hh
  have hd : deleteRefused s h.value = (F.isRoot || !F.ntfsInode) := by
    simp [deleteRefused, hbase, hF]
  refine ⟨F, hF, ?_⟩
  cases hr' : F.isRoot || !F.ntfsInode
  · obtain ⟨hrel, hm⟩ := fileDelete_release (hbase ▸ hF) (hbase ▸ hi.file_ne_zero hh) hr' hr
    exact .inr ⟨hd.trans hr', hbase ▸ hrel, hm⟩
  · exact .inl ⟨hd.trans hr', (fileDelete_refused (hbase ▸ hF) hr' hr).1⟩

end Volume

/-! ## Along a run -/

/-- The value `FileOpen` returns, read back as the handle it stands for. -/
theorem ofValue_openedHandle (Mode : UInt64) (b : Nat) :
    Handle.ofValue (openedHandle Mode b) (issuedReadOnly Mode) = ⟨b, issuedReadOnly Mode⟩ := by
  by_cases hw : Mode &&& efiFileModeWrite = 0 <;>
    simp [Handle.ofValue, openedHandle, issuedReadOnly, hw, rwHandle, roHandle]

/-- The invariant holds before the first call. -/
theorem refInv_init (readOnly : Bool) (label : Option Str16) (blockIo : Media)
    (blockIo2 : Option Media) :
    RefInv (EfiFs.init readOnly label blockIo blockIo2).refs 0 [] where
  layout := ⟨rfl, fun _ _ h => (by cases h), fun _ _ _ _ h => (by cases h)⟩
  live _ h := by cases h
  count _ _ h := by cases h
  total := rfl

section Opens

variable {s fs : EfiFs} {out : List Handle} {st : EfiStatus} {r : Option Nat}

/-- `FileOpenVolume` keeps the reference invariant, the value it returns joining those out. -/
theorem refInv_openVolume {o : VolumeOracle} (hi : RefInv s.refs s.totalRefCount out)
    (env : o.Sound s) (hr : fileOpenVolume s o = (fs, st, r)) :
    RefInv fs.refs fs.totalRefCount ((r.map fun v => Handle.ofValue v false).toList ++ out) := by
  cases herr : efiError st
  · obtain ⟨-, b, rfl, hv⟩ := fileOpenVolume_success env hr herr
    cases hv with
    | fresh ha _ hg _ _ _ =>
      refine RefInv.addRef_fs (RefInv.setFile_fresh ?_ ?_ ha hg) (by simp) _
      exacts [hi, env.file]
    | reused hb _ => refine RefInv.addRef_fs ?_ ?_ _; exacts [hi, hb]
  · obtain ⟨rfl, calls, rfl, -⟩ := fileOpenVolume_error env hr herr
    exact hi

/-- `FileOpen` keeps the reference invariant, the value it returns joining those out. -/
theorem refInv_open {PATH_MAX This : Nat} {Name : Str16} {Mode Attributes : UInt64}
    {o : OpenOracle} (hi : RefInv s.refs s.totalRefCount out) (env : o.Sound s)
    (hr : fileOpen PATH_MAX s This Name Mode Attributes o = .ok (fs, st, r)) :
    RefInv fs.refs fs.totalRefCount
      ((r.map fun v => Handle.ofValue v (issuedReadOnly Mode)).toList ++ out) := by
  cases herr : efiError st
  · obtain ⟨-, b, rfl, ho⟩ := fileOpen_success env hr herr
    show RefInv fs.refs fs.totalRefCount
      (Handle.ofValue (openedHandle Mode b) (issuedReadOnly Mode) :: out)
    rw [ofValue_openedHandle]
    cases ho with
    | reopen hF => exact hi.addRef_fs (by simp [hF]) _
    | fresh ha _ _ _ _ hg _ _ _ =>
      refine RefInv.addRef_fs (RefInv.setFile_fresh ?_ ?_ ha hg) (by simp) _
      exacts [hi, env.file]
    | reused hb _ => refine RefInv.addRef_fs ?_ ?_ _; exacts [hi, hb]
  · obtain ⟨rfl, calls, rfl, -⟩ := fileOpen_error env hr herr
    exact hi

end Opens

/-- **One call keeps the reference invariant.** -/
theorem refInv_step {PATH_MAX : Nat} {w w' : World} (hs : Step PATH_MAX w w')
    (hi : RefInv w.fs.refs w.fs.totalRefCount w.out) :
    RefInv w'.fs.refs w'.fs.totalRefCount w'.out := by
  cases hs with
  | openVolume o env hr => exact refInv_openVolume hi env hr
  | «open» h hh Name Mode Attributes o env hr => exact refInv_open hi env hr
  | close h hh hr =>
    obtain ⟨F, hF, hrel, -⟩ := hi.close_release hh hr
    exact hi.of_release hh hF hrel of_decide_eq_true
  | delete h hh onDelete hr =>
    obtain ⟨F, hF, ⟨hd, rfl⟩ | ⟨hd, hrel, -⟩⟩ := hi.delete_release hh hr
    · simpa [hd] using hi
    · simpa [hd] using hi.of_release hh hF hrel fun h => (of_decide_eq_true h).1
  | access h hh a hr =>
    have hf := Access.run_frame hr
    rw [hf.refs, hf.totalRefCount]
    exact hi

/-- The reference invariant holds in every reachable world. -/
theorem refInv_reachable {PATH_MAX : Nat} {w : World} (hw : Reachable PATH_MAX w) :
    RefInv w.fs.refs w.fs.totalRefCount w.out := by
  induction hw with
  | init readOnly label blockIo blockIo2 => exact refInv_init readOnly label blockIo blockIo2
  | step _ hs ih => exact refInv_step hs ih

/-- **Reference-count accounting.** After every call of every run, each allocated instance's
`RefCount` is the number of values out that `BASE_FILE` decodes to it, `TotalRefCount` is the
number of values out, and each value out decodes, by `RO_ACCESS` and `BASE_FILE`, to a live
instance and the mode it was issued with. -/
theorem refCount_accounting {PATH_MAX : Nat} {w : World} (hw : Reachable PATH_MAX w) :
    (∀ b f, w.fs.files b = some f →
      f.refCount = (w.out.map Handle.value).countP (fun v => baseFile w.fs v == b)) ∧
    w.fs.totalRefCount = w.out.length ∧
    ∀ h ∈ w.out, (w.fs.files h.file).isSome ∧ baseFile w.fs h.value = h.file ∧
      roAccess w.fs h.value = h.ro := by
  have hi := refInv_reachable hw
  refine ⟨fun b f hb => ?_, hi.total, fun h hh => ?_⟩
  · have hc : f.refCount = refsOut w.out b := hi.count b f.refPart (by simp [EfiFs.refs, hb])
    rw [hc, refsOut, List.countP_map]
    congr 1
    refine List.countP_congr fun h hh => ?_
    obtain ⟨F, -, hbase, -⟩ := hi.decode hh
    simp [hbase]
  · obtain ⟨F, hF, hbase, hro⟩ := hi.decode hh
    exact ⟨by simp [hF], hbase, hro⟩

/-- The accounting in the world where the root has just been opened. -/
theorem refCount_accounting_rootOpened : ∃ w : World, Reachable 8 w ∧ w.out = [⟨256, false⟩] ∧
    (∀ b f, w.fs.files b = some f →
      f.refCount = (w.out.map Handle.value).countP (fun v => baseFile w.fs v == b)) ∧
    w.fs.totalRefCount = w.out.length ∧
    ∀ h ∈ w.out, (w.fs.files h.file).isSome ∧ baseFile w.fs h.value = h.file ∧
      roAccess w.fs h.value = h.ro :=
  ⟨_, rootOpened_reachable 8 true, rfl, refCount_accounting (rootOpened_reachable 8 true)⟩

end UefiNtfs
