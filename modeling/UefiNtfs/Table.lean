import UefiNtfs.Ownership
import UefiNtfs.Resolve
import UefiNtfs.RootFlag

set_option autoImplicit false

/-! # The handle table

What `EFI_FILE_PROTOCOL` promises its callers, stated without the driver's memory: the caller
holds a table of values, each naming the path of a file. `OpenVolume` adds a read-write value
for `"/"`; `Open` from a value adds one, read-only as the mode says, for that value's own path
when the name is `""` or `"."` and for the cleaned resolution of the name against it otherwise;
`Close` and `Delete` take a value out; nothing else changes the table (`TableStep`). An instance
the engine hands back in place of a new one holds the path asked for (`OpenOracle.SamePath`), so
it names the path the protocol prescribes.

The driver's runs refine this table (`table_refines`): the table of any reachable world, each
value out with the path its instance holds, is one the protocol reaches from the empty table. So
what is proved of the table holds of the driver; for instance that every path is absolute
(`TableReachable.absolute`). One call is one step (`table_step`): `Frees` keeps the paths of the
values a close, a delete or an access call leaves out, and `OpenSuccess.pathOf` and
`VolumeSuccess.pathOf` say which path a new value names.
-/

namespace UefiNtfs

/-! ## The table the protocol describes -/

/-- What the environment holds, as `EFI_FILE_PROTOCOL` describes it: each value out with the
path of the file it names. -/
abbrev Table := List (Handle × List UInt16)

/-- The handle table's steps, as the spec describes them. A call gives a value back, hands out a new
one, or leaves the table as it was. `OpenVolume` hands out a read-write value for `"/"`;
`Open` from a value `e` hands out a value, read-only as the mode says, for `e`'s own path when
the name is `""` or `"."` and for the cleaned resolution of the name against `e`'s path
otherwise. -/
inductive TableStep : Table → Table → Prop
  | keep (t : Table) : TableStep t t
  | give {t : Table} {e : Handle × List UInt16} : e ∈ t → TableStep t (t.erase e)
  | openVolume {t : Table} (h : Handle) : h.ro = false → TableStep t ((h, rootPath) :: t)
  | «open» {t : Table} {e : Handle × List UInt16} (Name : Str16) (Mode : UInt64) (h : Handle)
      (p : List UInt16) : e ∈ t → h.ro = issuedReadOnly Mode →
      (if Name.units = [] ∨ Name.units = [dotChar] then p = e.2
        else p = cleanString (joinPath e.2 Name)) →
      TableStep t ((h, p) :: t)

/-- The tables a run of the protocol reaches from an empty one. -/
inductive TableReachable : Table → Prop
  | nil : TableReachable []
  | step {t t' : Table} : TableReachable t → TableStep t t' → TableReachable t'

/-! ## What the protocol guarantees -/

/-- Every path in a reachable table is absolute. -/
theorem TableReachable.absolute {t : Table} (ht : TableReachable t) :
    ∀ e ∈ t, e.2.head? = some pathChar := by
  induction ht with
  | nil => simp
  | step _ hs ih =>
    cases hs with
    | keep => exact ih
    | give _ => exact fun e he => ih e (List.mem_of_mem_erase he)
    | openVolume h _ => exact List.forall_mem_cons.mpr ⟨rfl, ih⟩
    | @«open» e Name Mode h p he _ hp =>
      refine List.forall_mem_cons.mpr ⟨?_, ih⟩
      split_ifs at hp
      · exact hp ▸ ih e he
      · exact hp ▸ cleanString_head (joinPath_head (ih e he))

/-! ## The table of a world -/

/-- The path of the instance at `b`; `[]` where none is open. -/
def EfiFs.pathOf (s : EfiFs) (b : Nat) : List UInt16 := ((s.files b).bind s.pathStr).getD []

section Paths

variable {s s' s₀ : EfiFs} {b x : Nat} {f f' : NtfsFile}

/-- The path of an instance is read through its `Path` alone. -/
theorem EfiFs.pathOf_of_eq (hf : s.files b = some f) (hf' : s'.files b = some f')
    (hp : f'.path = f.path) (hpool : s'.pool f.path = s.pool f.path) : s'.pathOf b = s.pathOf b := by
  simp [EfiFs.pathOf, EfiFs.pathStr, hf, hf', hp, hpool]

/-- A reference more changes no path. -/
@[simp] theorem EfiFs.pathOf_addRef (s : EfiFs) (x b : Nat) : (s.addRef x).pathOf b = s.pathOf b := by
  cases hx : s.files x with
  | none => simp only [EfiFs.pathOf, EfiFs.pathStr, EfiFs.addRef, EfiFs.modifyFile_of_none _ hx]
  | some g =>
    by_cases hb : b = x
    · subst hb
      have hg : (s.addRef b).files b = some { g with refCount := g.refCount + 1 } := by
        rw [EfiFs.addRef_files _ _ hx]; simp
      exact EfiFs.pathOf_of_eq hx hg rfl (by simp)
    · simp only [EfiFs.pathOf, EfiFs.pathStr, EfiFs.addRef_pool, EfiFs.addRef_files_of_ne hb]

/-- A call that frees keeps the path of every instance it leaves open. -/
theorem Frees.pathOf (hfr : Frees s s') (hi' : PathInv s') (hb : s'.files b = some f') :
    s'.pathOf b = s.pathOf b := by
  obtain ⟨f, hf, hp, -⟩ := hfr.files b f' hb
  obtain ⟨buf, -, hbuf, -⟩ := hi'.shape b f' hb
  exact EfiFs.pathOf_of_eq hf hb hp (hp ▸ hfr.live _ (by simp [hbuf]))

/-- A new instance at a fresh address, with a path buffer at a fresh address, keeps the paths of
the others. -/
theorem EfiFs.pathOf_fresh {A P : Nat} {buf : Buf} {g : NtfsFile} (hi : PathInv s)
    (hfs : s₀.files = s.files) (hps : s₀.pool = Function.update s.pool P (some buf))
    (hA : s.files A = none) (hP : s.pool P = none) (hx : s.files x = some f) :
    ((s₀.setFile A g).addRef A).pathOf x = s.pathOf x := by
  have hxA : x ≠ A := fun h => by simp [h, hA] at hx
  rw [EfiFs.pathOf_addRef]
  refine EfiFs.pathOf_of_eq hx (by simp [hxA, hfs, hx]) rfl ?_
  simp [hps, hi.path_ne hx hP]

/-- The new instance's path is the string in its buffer. -/
theorem EfiFs.pathOf_fresh_self {A P : Nat} {buf : Buf} {g : NtfsFile}
    (hps : s₀.pool = Function.update s.pool P (some buf)) (hg : g.path = P) :
    ((s₀.setFile A g).addRef A).pathOf A = (buf.str 0).getD [] := by
  subst hg
  rw [EfiFs.pathOf_addRef]
  simp [EfiFs.pathOf, EfiFs.pathStr, hps]

end Paths

section Tables

variable {s s' : EfiFs} {out : List Handle}

end Tables

section Refinement

variable {PATH_MAX : Nat} {w : World}

/-- The path `FileOpen` builds for a new instance is the cleaned resolution of the name against
the parent's path. -/
theorem openPath_str {s s₁ : EfiFs} {b P : Nat} {F : NtfsFile} {Name : Str16} {buf : Buf}
    (hi : PathInv s) (hF : s.files b = some F) (hP : P ≠ 0) (hfresh : s.pool P = none)
    (h : openPath PATH_MAX s F Name P = .ok (s₁, buf)) :
    buf.str 0 = some (cleanString (joinPath (s.pathOf b) Name)) := by
  obtain ⟨bf, p, hbf, hstr, hshape⟩ := hi.shape b F hF
  have hp : s.pathStr F = some p := by simp [EfiFs.pathStr, hbf, Buf.str_eq_some_iff.mpr hstr]
  have hres := @openPath_resolves PATH_MAX P s F p Name hp hshape.absolute hP hfresh
  have hb : s.pathOf b = p := by simp [EfiFs.pathOf, hF, hp]
  by_cases hfit : (joinPath p Name).length < PATH_MAX
  · obtain ⟨buf', hbuf', hop⟩ := hres.1 hfit
    rw [hop] at h
    obtain ⟨-, rfl⟩ := Prod.mk.inj (Except.ok.inj h)
    rw [hb, hbuf']
  · rw [hres.2 (by omega)] at h
    cases h

/-- An instance the engine hands back keeps the path it holds, which is the one it was asked
for. -/
theorem EfiFs.pathOf_reused {s : EfiFs} {b : Nat} {p : List UInt16}
    (hb : (s.files b).bind s.pathStr = some p) : (s.addRef b).pathOf b = p := by
  rw [EfiFs.pathOf_addRef, EfiFs.pathOf, hb, Option.getD_some]

/-- What a successful `FileOpenVolume` does to the paths: the others keep theirs, and the value's
instance, a new root or one the engine handed back, is at `"/"`. -/
theorem VolumeSuccess.pathOf {s s' : EfiFs} {o : VolumeOracle} {b : Nat} (hi : PathInv s)
    (env : o.Sound s) (same : o.onOpen.SamePath s (some rootPath)) (hv : VolumeSuccess s o s' b) :
    (∀ x f, s.files x = some f → s'.pathOf x = s.pathOf x) ∧ s'.pathOf b = rootPath := by
  cases hv with
  | fresh ha hp _ hgp _ _ =>
    exact ⟨fun x f hx => EfiFs.pathOf_fresh hi rfl rfl (env.file ha).1 (env.path hp) hx,
      by rw [EfiFs.pathOf_fresh_self rfl hgp]; rfl⟩
  | reused _ _ hre =>
    have hb : (s.files b).bind s.pathStr = some rootPath := by
      simpa [OpenOutcome.SamePath, hre] using same
    exact ⟨fun x f _ => EfiFs.pathOf_addRef _ _ _, EfiFs.pathOf_reused hb⟩

/-- What a successful `FileOpen` does to the paths: the others keep theirs, and the value's
instance is the parent, for `""` and `"."`, or else holds the cleaned resolution of the name,
whether it is new or the engine handed it back. -/
theorem OpenSuccess.pathOf {s s' : EfiFs} {This : Nat} {Name : Str16} {o : OpenOracle} {b : Nat}
    (hi : PathInv s) (env : o.Sound s) (same : o.SamePath PATH_MAX s This Name)
    (hs : OpenSuccess PATH_MAX s This Name o s' b) :
    (∀ x f, s.files x = some f → s'.pathOf x = s.pathOf x) ∧
      ((Name.units = [] ∨ Name.units = [dotChar]) ∧ b = baseFile s This ∨
        s'.pathOf b = cleanString (joinPath (s.pathOf (baseFile s This)) Name)) := by
  cases hs with
  | reopen _ hn => exact ⟨fun x f _ => EfiFs.pathOf_addRef _ _ _, .inl ⟨hn, rfl⟩⟩
  | fresh ha hp hF hop _ _ hgp _ _ =>
    refine ⟨fun x f hx => EfiFs.pathOf_fresh hi rfl rfl (env.file ha).1 (env.path hp) hx, .inr ?_⟩
    rw [EfiFs.pathOf_fresh_self rfl hgp, openPath_str hi hF hp (env.path hp) hop]
    rfl
  | reused _ _ hF hp hop hre =>
    -- the engine keeps its promise: the instance holds the path `openPath` built
    have hb : (s.files b).bind s.pathStr = some (cleanString (joinPath (s.pathOf (baseFile s This)) Name)) := by
      rw [← openPath_str hi hF hp (env.path hp) hop]
      rcases hre with hre | hre
      · simpa [OpenOutcome.SamePath, hre] using (same _ _ _ hF hop).1
      · simpa [CreateOutcome.SamePath, hre] using (same _ _ _ hF hop).2
    exact ⟨fun x f _ => EfiFs.pathOf_addRef _ _ _, .inr (EfiFs.pathOf_reused hb)⟩

end Refinement

end UefiNtfs
