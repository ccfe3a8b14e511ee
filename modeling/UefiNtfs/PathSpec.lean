import Mathlib.Data.List.Basic
import UefiNtfs.Path

set_option autoImplicit false

/-! # What `FileOpen` makes of a path

The string-level facts behind the paths of open instances. A buffer holds a string from a cell
when the string's cells are there and a NUL follows within the buffer (`Buf.HasStr`), which is
exactly when `StrLen` finds it (`Buf.str_eq_some_iff`). On that footing:

* `composePath` leaves the parent's path, a `PATH_CHAR` and the name in the buffer, or the name
  alone when it starts with a delimiter, with the name's delimiters made `PATH_CHAR`s
  (`composePath_ok`), so the result is absolute when the parent's path is
  (`composePath_absolute`);
* the cleaner only deletes characters from an absolute path (`cleanString_sublist`), so the
  cleaned path fits where the path was and keeps its leading `PATH_CHAR`;
* the `BaseName` loop finds the cell after the last `PATH_CHAR` (`baseNameIndex_spec`), so an
  instance's path is absolute and free of `DOS_PATH_CHAR`, and its `BaseName` starts one cell
  past its last `PATH_CHAR` (`PathShape`, `pathShape_baseNameIndex`).
-/

namespace UefiNtfs

/-! ## Strings in a buffer -/

namespace Buf

variable {b : Buf} {i n j : Nat} {u : List UInt16}

@[simp] theorem length_cells (b : Buf) (i n : Nat) : (b.cells i n).length = n := by simp [cells]

@[simp] theorem getElem_cells {k : Nat} (hk : k < (b.cells i n).length) :
    (b.cells i n)[k] = b.cell (i + k) := by simp [cells]

/-- The scan for a NUL stops at the first one in its window. -/
theorem findNul_eq_some :
    b.findNul i n = some j ↔ i ≤ j ∧ j < i + n ∧ b.cell j = 0 ∧ ∀ k, i ≤ k → k < j → b.cell k ≠ 0 := by
  induction n generalizing i with
  | zero => simp only [findNul, reduceCtorEq, false_iff]; omega
  | succ n ih =>
    rw [findNul]
    split
    next h0 =>
      simp only [Option.some.injEq]
      constructor
      · rintro rfl; exact ⟨Nat.le_refl _, by omega, h0, fun k h1 h2 => absurd h2 (by omega)⟩
      · rintro ⟨h1, -, -, h4⟩
        by_contra hne
        exact h4 i (Nat.le_refl _) (by omega) h0
    next h0 =>
      rw [ih]
      constructor
      · rintro ⟨h1, h2, h3, h4⟩
        refine ⟨by omega, by omega, h3, fun k hk1 hk2 => ?_⟩
        rcases Nat.eq_or_lt_of_le hk1 with rfl | hk1
        · exact h0
        · exact h4 k hk1 hk2
      · rintro ⟨h1, h2, h3, h4⟩
        have : j ≠ i := by rintro rfl; exact h0 h3
        exact ⟨by omega, by omega, h3, fun k hk1 hk2 => h4 k (by omega) hk2⟩

/-- `HasStr` cell by cell. -/
theorem hasStr_iff : b.HasStr i u ↔ i + u.length < b.cap ∧
    (∀ (k : Nat) (hk : k < u.length), b.cell (i + k) = u[k]) ∧ b.cell (i + u.length) = 0 ∧ 0 ∉ u := by
  constructor
  · rintro ⟨hfit, hcells, hnul, hfree⟩
    exact ⟨hfit, fun k hk => (getElem_cells (by simpa using hk)).symm.trans
      (List.getElem_of_eq hcells _), hnul, hfree⟩
  · rintro ⟨hfit, hcells, hnul, hfree⟩
    refine ⟨hfit, List.ext_getElem (by simp) fun k h₁ h₂ => ?_, hnul, hfree⟩
    simp [hcells k h₂]

/-- The string at a cell is the one the buffer holds there. -/
theorem str_eq_some_iff : b.str i = some u ↔ b.HasStr i u := by
  rw [hasStr_iff]
  constructor
  · intro h
    simp only [str, strLen, Option.map_map, Option.map_eq_some'] at h
    obtain ⟨j, hj, rfl⟩ := h
    obtain ⟨h1, h2, h3, h4⟩ := findNul_eq_some.mp hj
    refine ⟨by simp; omega, fun k hk => by simp, by simp [Nat.add_sub_cancel' h1, h3], ?_⟩
    intro hmem
    obtain ⟨k, hk, hk0⟩ := List.getElem_of_mem hmem
    simp only [length_cells, Function.comp_apply] at hk hk0
    simp at hk0
    exact h4 (i + k) (by omega) (by omega) hk0
  · rintro ⟨hfit, hcells, hnul, hfree⟩
    have hj : b.findNul i (b.cap - i) = some (i + u.length) :=
      findNul_eq_some.mpr ⟨by omega, by omega, hnul, fun k hk1 hk2 => by
        have := hcells (k - i) (by omega)
        rw [Nat.add_sub_cancel' hk1] at this
        rw [this]; exact fun h => hfree (h ▸ List.getElem_mem _)⟩
    simp only [str, strLen, hj, Option.map_some', Nat.add_sub_cancel_left, Option.some.injEq]
    exact List.ext_getElem (by simp) fun k h₁ h₂ => by simp [hcells k h₂]

@[simp] theorem write_cap (b : Buf) (off : Nat) (cs : List UInt16) : (b.write off cs).cap = b.cap :=
  rfl

theorem write_cell (b : Buf) (off : Nat) (cs : List UInt16) (k : Nat) :
    (b.write off cs).cell k = if off ≤ k ∧ k < off + cs.length then cs.getD (k - off) 0 else b.cell k :=
  rfl

theorem set_cell (b : Buf) (i : Nat) (c : UInt16) (k : Nat) :
    (b.set i c).cell k = if k = i then c else b.cell k := Function.update_apply _ _ _ _

/-- A string written with its terminator is the string the buffer holds there. -/
theorem hasStr_write (hc : 0 ∉ u) (hfit : i + u.length < b.cap) : (b.write i (u ++ [0])).HasStr i u := by
  refine hasStr_iff.mpr ⟨hfit, fun k hk => ?_, ?_, hc⟩
  · rw [write_cell, if_pos (by simp; omega), Nat.add_sub_cancel_left]
    simp [List.getElem?_append_left hk, List.getElem?_eq_getElem hk]
  · rw [write_cell, if_pos (by simp), Nat.add_sub_cancel_left]
    simp

end Buf

theorem safeStrCpy_ok {b b' : Buf} {off m : Nat} {src : List UInt16}
    (h : safeStrCpy b off m src = .ok b') : src.length < m ∧ b' = b.write off (src ++ [0]) := by
  unfold safeStrCpy at h
  split at h
  · exact ⟨‹_›, (Except.ok.inj h).symm⟩
  · cases h

theorem safeStrLen_of_hasStr {b : Buf} {i : Nat} {c : List UInt16} (h : b.HasStr i c) :
    safeStrLen b i = .ok c.length := by
  have : b.strLen i = some c.length := by
    have := Buf.str_eq_some_iff.mpr h
    simp only [Buf.str, Option.map_eq_some'] at this
    obtain ⟨n, hn, hc⟩ := this
    rw [hn, ← hc, Buf.length_cells]
  simp [safeStrLen, this]

/-! ## Delimiters -/

theorem toPathChar_ne_dos (c : UInt16) : toPathChar c ≠ dosPathChar := by
  unfold toPathChar; split <;> [decide; assumption]

theorem toPathChar_eq_zero {c : UInt16} : toPathChar c = 0 ↔ c = 0 := by
  unfold toPathChar; split <;> [subst_vars; rfl]
  decide

theorem toPathChar_of_delimiter {c : UInt16} (h : isPathDelimiter c = true) : toPathChar c = pathChar := by
  unfold toPathChar isPathDelimiter at *
  split
  · rfl
  · simp only [Bool.or_eq_true, beq_iff_eq] at h
    exact h.resolve_right ‹_›

/-- The conversion loop maps the cells from `Len` on, `k` of them, and leaves the others. -/
theorem convertDelimiters_cell (B : Buf) (Len k j : Nat) :
    (convertDelimiters B Len k).cell j =
      if Len ≤ j ∧ j < Len + k then toPathChar (B.cell j) else B.cell j := by
  induction k generalizing B with
  | zero => rw [if_neg (by omega)]; rfl
  | succ k ih =>
    rw [convertDelimiters, ih, Buf.set_cell]
    by_cases hj : j = Len + k
    · subst hj; simp
    · simp only [hj, if_false]
      by_cases h₁ : Len ≤ j ∧ j < Len + k
      · rw [if_pos h₁, if_pos (by omega)]
      · rw [if_neg h₁, if_neg (by omega)]

theorem convertDelimiters_cap (B : Buf) (Len k : Nat) : (convertDelimiters B Len k).cap = B.cap := by
  induction k generalizing B with
  | zero => rfl
  | succ k ih => simp [convertDelimiters, ih]

/-- After the conversion the buffer holds the name with its delimiters turned into `PATH_CHAR`. -/
theorem hasStr_convertDelimiters {B : Buf} {pre q : List UInt16} (h : B.HasStr 0 (pre ++ q)) :
    (convertDelimiters B pre.length q.length).HasStr 0 (pre ++ q.map toPathChar) := by
  obtain ⟨hfit, hcells, hnul, hfree⟩ := Buf.hasStr_iff.mp h
  refine Buf.hasStr_iff.mpr ⟨by simpa [convertDelimiters_cap] using hfit, fun k hk => ?_, ?_, ?_⟩
  · rw [convertDelimiters_cell]
    have := hcells k (by simpa using hk)
    split
    · rw [this]
      simp [List.getElem_append_right (show pre.length ≤ k by omega)]
    · rw [this, List.getElem_append_left (show k < pre.length by simp at hk; omega),
        List.getElem_append_left (show k < pre.length by simp at hk; omega)]
  · rw [convertDelimiters_cell, if_neg (by simp)]
    simpa using hnul
  · simp only [List.mem_append, List.mem_map, not_or, not_exists, not_and] at hfree ⊢
    exact ⟨hfree.1, fun c hc hz => hfree.2 (toPathChar_eq_zero.mp hz ▸ hc)⟩

/-! ## `composePath` -/

/-- A string written after `pre`, with its terminator, makes the buffer hold `pre` and the string. -/
theorem hasStr_write_after {P : Buf} (pre src : List UInt16) (hcap : pre.length + src.length < P.cap)
    (hpre : ∀ (k : Nat) (hk : k < pre.length), P.cell k = pre[k]) (hpre0 : 0 ∉ pre) (hsrc : 0 ∉ src) :
    (P.write pre.length (src ++ [0])).HasStr 0 (pre ++ src) := by
  refine Buf.hasStr_iff.mpr ⟨by simpa using hcap, fun k hk => ?_, ?_, ?_⟩
  · rw [Nat.zero_add, Buf.write_cell]
    by_cases hk' : k < pre.length
    · rw [if_neg (by omega), hpre k hk', List.getElem_append_left hk']
    · rw [if_pos (by simp at hk ⊢; omega), List.getElem_append_right (by omega)]
      simp at hk
      simp [List.getElem?_append_left (show k - pre.length < src.length by omega),
        List.getElem?_eq_getElem (show k - pre.length < src.length by omega)]
  · rw [Nat.zero_add, Buf.write_cell, if_pos (by simp)]
    simp [Nat.add_sub_cancel_left]
  · simp only [List.mem_append, not_or]
    exact ⟨hpre0, hsrc⟩

/-- Lines 126-134 of `FileOpen`: with `pre` in the cells below `Len`, the name is copied at
`Len`, and the delimiters from `Len` on become `PATH_CHAR`s. -/
theorem copyName_ok {PATH_MAX Len n : Nat} {P B : Buf} {Name : Str16} (pre : List UInt16)
    (hLen : pre.length = Len) (hcap : P.cap = PATH_MAX)
    (hpre : ∀ (k : Nat) (hk : k < pre.length), P.cell k = pre[k]) (hpre0 : 0 ∉ pre)
    (h₁ : safeStrCpy P Len (PATH_MAX - Len) Name.units = .ok B) (h₂ : safeStrLen B 0 = .ok n) :
    (convertDelimiters B Len (n - Len)).HasStr 0 (pre ++ Name.units.map toPathChar) := by
  subst hLen
  obtain ⟨hlt, rfl⟩ := safeStrCpy_ok h₁
  have hB := hasStr_write_after pre Name.units (by omega) hpre hpre0 Name.nul_free
  rw [safeStrLen_of_hasStr hB] at h₂
  cases h₂
  rw [List.length_append, Nat.add_sub_cancel_left]
  exact hasStr_convertDelimiters hB

/-- **The path `FileOpen` composes** is the parent's path, a `PATH_CHAR` and the name, or the
name alone when it starts with a delimiter, with the name's delimiters made `PATH_CHAR`s. -/
theorem composePath_ok {PATH_MAX : Nat} {parent : Option (List UInt16)} {Name : Str16} {buf : Buf}
    (hpar : ∀ pp, parent = some pp → 0 ∉ pp) (h : composePath PATH_MAX parent Name = .ok buf) :
    ∃ pre, buf.HasStr 0 (pre ++ Name.units.map toPathChar) ∧
      (pre = [] ∧ isPathDelimiter (Name.units.headD 0) = true ∨
        ∃ pp, parent = some pp ∧ pre = pp ++ [pathChar]) := by
  unfold composePath at h
  simp only [bind, Except.bind, pure, Except.pure] at h
  split at h
  next hd =>
    -- an absolute name
    split at h
    · cases h
    next B h₁ =>
    split at h
    · cases h
    next n h₂ =>
    cases h
    exact ⟨[], copyName_ok [] rfl rfl (fun k hk => absurd hk (Nat.not_lt_zero k)) (by simp) h₁ h₂,
      .inl ⟨rfl, hd⟩⟩
  next hd =>
    -- a relative name, after the parent's path and a `PATH_CHAR`
    cases parent with
    | none => simp at h
    | some pp =>
    simp only at h
    split at h
    · cases h
    next P₁ hcpy =>
    obtain ⟨hlt, rfl⟩ := safeStrCpy_ok hcpy
    have hP₁ : ((Buf.zero PATH_MAX).write 0 (pp ++ [0])).HasStr 0 pp :=
      Buf.hasStr_write (hpar pp rfl) (by simpa using hlt)
    rw [safeStrLen_of_hasStr hP₁] at h
    simp only at h
    split at h
    · cases h
    next B h₁ =>
    split at h
    · cases h
    next n h₂ =>
    cases h
    refine ⟨pp ++ [pathChar], copyName_ok _ (by simp) rfl (fun k hk => ?_) ?_ h₁ h₂, .inr ⟨pp, rfl, rfl⟩⟩
    · obtain ⟨-, hcells, -, -⟩ := Buf.hasStr_iff.mp hP₁
      rw [Buf.set_cell]
      by_cases hk' : k < pp.length
      · rw [if_neg (by omega), List.getElem_append_left hk']
        simpa using hcells k hk'
      · have : k = pp.length := by simp at hk; omega
        subst this
        simp
    · simp only [List.mem_append, List.mem_singleton, not_or]
      exact ⟨hpar pp rfl, by decide⟩

/-! ## The cleaner -/

section Cleaner

variable {α : Type}

theorem intercalate_cons_cons (sep a b : List α) (l : List (List α)) :
    sep.intercalate (a :: b :: l) = a ++ sep ++ sep.intercalate (b :: l) := by
  simp [List.intercalate, List.intersperse_cons₂]

theorem intercalate_singleton (sep a : List α) : sep.intercalate [a] = a := by
  simp [List.intercalate]

/-- Leaving segments out of a path leaves characters out of it. -/
theorem intercalate_sublist (sep : List α) {l₁ l₂ : List (List α)} (h : List.Sublist l₁ l₂) :
    List.Sublist (sep.intercalate l₁) (sep.intercalate l₂) := by
  induction h with
  | slnil => exact .slnil
  | @cons l₁ l₂ a _ ih =>
    refine ih.trans ?_
    cases l₂ with
    | nil => exact List.nil_sublist _
    | cons b l => rw [intercalate_cons_cons]; exact List.sublist_append_right _ _
  | @cons₂ l₁ l₂ a h ih =>
    cases l₁ with
    | nil =>
      rw [intercalate_singleton]
      cases l₂ with
      | nil => rw [intercalate_singleton]
      | cons c l => rw [intercalate_cons_cons, List.append_assoc]; exact List.sublist_append_left _ _
    | cons b l =>
      cases l₂ with
      | nil => cases h
      | cons c l' =>
        rw [intercalate_cons_cons, intercalate_cons_cons]
        exact ih.append_left _

end Cleaner

/-- The segments the cleaner keeps are some of those it was given, in order. -/
theorem cleanSegments_sublist (kept segs : List (List UInt16)) :
    List.Sublist (cleanSegments kept segs) (kept ++ segs) := by
  induction segs generalizing kept with
  | nil => simp [cleanSegments]
  | cons seg rest ih =>
    rw [cleanSegments]
    split
    · exact (ih kept).trans ((List.sublist_cons_self seg rest).append_left kept)
    · split
      · exact (ih _).trans ((List.dropLast_sublist kept).append (List.sublist_cons_self seg rest))
      · simpa using ih (kept ++ [seg])

/-- **The cleaner only deletes**: an absolute path cleans to a sublist of itself. -/
theorem cleanString_sublist {p : List UInt16} (h : p.head? = some pathChar) :
    List.Sublist (cleanString p) p := by
  obtain ⟨rest, rfl⟩ := List.head?_eq_some_iff.mp h
  have hsplit : (pathChar :: rest).splitOn pathChar = [] :: rest.splitOn pathChar := by
    simp [List.splitOn, List.splitOnP_cons]
  rw [cleanString, if_pos h, hsplit, cleanSegments, if_pos (.inl rfl)]
  conv_rhs => rw [← List.intercalate_splitOn rest pathChar]
  exact (intercalate_sublist _ (by simpa using cleanSegments_sublist [] _)).cons₂ _

theorem cleanString_head {p : List UInt16} (h : p.head? = some pathChar) :
    (cleanString p).head? = some pathChar := by
  simp [cleanString, h]

theorem cleanPath_of_hasStr {b : Buf} {p : List UInt16} (h : b.HasStr 0 p) :
    cleanPath b = .ok (b.write 0 (cleanString p ++ [0])) := by
  simp [cleanPath, Buf.str_eq_some_iff.mpr h]

/-- The cleaned path fits where the path was. -/
theorem hasStr_cleanString {b : Buf} {p : List UInt16} (h : b.HasStr 0 p)
    (ha : p.head? = some pathChar) : (b.write 0 (cleanString p ++ [0])).HasStr 0 (cleanString p) :=
  Buf.hasStr_write (fun h0 => h.nul_free ((cleanString_sublist ha).subset h0))
    (by have := (cleanString_sublist ha).length_le; have := h.fits; omega)

/-! ## `BaseName` -/

/-- The `BaseName` loop finds the last `PATH_CHAR` below `i`, if there is one. -/
theorem baseNameIndex_spec (B : Buf) (i : Nat) (h : ∃ j < i, B.cell j = pathChar) :
    0 < baseNameIndex B i ∧ baseNameIndex B i ≤ i ∧ B.cell (baseNameIndex B i - 1) = pathChar ∧
      ∀ j, baseNameIndex B i ≤ j → j < i → B.cell j ≠ pathChar := by
  induction i with
  | zero => obtain ⟨j, hj, -⟩ := h; omega
  | succ i ih =>
    rw [baseNameIndex]
    split
    next hi => exact ⟨by omega, Nat.le_refl _, hi, fun j h₁ h₂ => absurd h₂ (by omega)⟩
    next hi =>
      have h' : ∃ j < i, B.cell j = pathChar := by
        obtain ⟨j, hj, hc⟩ := h
        exact ⟨j, by rcases Nat.lt_succ_iff_lt_or_eq.mp hj with hj | rfl; exacts [hj, absurd hc hi], hc⟩
      obtain ⟨h₁, h₂, h₃, h₄⟩ := ih h'
      refine ⟨h₁, by omega, h₃, fun j hj₁ hj₂ => ?_⟩
      rcases Nat.lt_succ_iff_lt_or_eq.mp hj₂ with hj₂ | rfl
      exacts [h₄ j hj₁ hj₂, hi]

/-! ## Absolute paths -/

/-- The shape the spec gives an open instance's path string `p` with its `BaseName`: absolute,
free of `DOS_PATH_CHAR`, and `BaseName` one cell past the last `PATH_CHAR`. -/
structure PathShape (p : List UInt16) (baseName : Nat) : Prop where
  absolute : p.head? = some pathChar
  no_dos : dosPathChar ∉ p
  after_delim : 0 < baseName ∧ p[baseName - 1]? = some pathChar
  base_free : pathChar ∉ p.drop baseName

/-- On an absolute path free of `DOS_PATH_CHAR`, the `BaseName` loop of `FileOpen` stops one cell
before the base name: the path has `PathShape` with the index it returns. -/
theorem pathShape_baseNameIndex {buf : Buf} {p : List UInt16} (h : buf.HasStr 0 p)
    (ha : p.head? = some pathChar) (hd : dosPathChar ∉ p) :
    PathShape p (baseNameIndex buf p.length) := by
  obtain ⟨-, hcells, -, -⟩ := Buf.hasStr_iff.mp h
  obtain ⟨rest, rfl⟩ := List.head?_eq_some_iff.mp ha
  obtain ⟨h₁, h₂, h₃, h₄⟩ :=
    baseNameIndex_spec buf (pathChar :: rest).length ⟨0, by simp, by simpa using hcells 0 (by simp)⟩
  refine ⟨ha, hd, ⟨h₁, ?_⟩, fun hm => ?_⟩
  · have := hcells _ (show baseNameIndex buf (pathChar :: rest).length - 1 < (pathChar :: rest).length by omega)
    rw [Nat.zero_add, h₃] at this
    rw [List.getElem?_eq_getElem (by omega), ← this]
  · obtain ⟨m, hm, hmeq⟩ := List.getElem_of_mem hm
    simp only [List.length_drop, List.getElem_drop] at hm hmeq
    have := hcells (baseNameIndex buf (pathChar :: rest).length + m) (by omega)
    rw [Nat.zero_add, hmeq] at this
    exact h₄ _ (by omega) (by omega) this

/-- **The composed path is absolute**, if the parent's path is absolute or empty: either it
starts with the parent's path, or the name starts with a delimiter, which became `PATH_CHAR`. It
holds a `DOS_PATH_CHAR` only if the parent's path does. -/
theorem composePath_absolute {PATH_MAX : Nat} {parent : Option (List UInt16)} {Name : Str16}
    {buf : Buf} (hpar : ∀ pp, parent = some pp → 0 ∉ pp ∧ (pp = [] ∨ pp.head? = some pathChar))
    (h : composePath PATH_MAX parent Name = .ok buf) :
    ∃ q, buf.HasStr 0 q ∧ q.head? = some pathChar ∧
      ((∀ pp, parent = some pp → dosPathChar ∉ pp) → dosPathChar ∉ q) := by
  obtain ⟨pre, hq, hpre⟩ := composePath_ok (fun pp h => (hpar pp h).1) h
  refine ⟨_, hq, ?_, fun hd => ?_⟩
  · rcases hpre with ⟨rfl, hdel⟩ | ⟨pp, rfl, rfl⟩
    · cases hN : Name.units with
      | nil => simp [hN, isPathDelimiter, pathChar, dosPathChar] at hdel
      | cons c cs => simp [hN, toPathChar_of_delimiter (by simpa [hN] using hdel)]
    · rcases (hpar pp rfl).2 with rfl | hh
      · simp
      · simp [List.head?_append, hh]
  · simp only [List.mem_append, List.mem_map, not_or, not_exists, not_and]
    refine ⟨?_, fun c _ hc => toPathChar_ne_dos c hc⟩
    rcases hpre with ⟨rfl, -⟩ | ⟨pp, rfl, rfl⟩
    · simp
    · simp only [List.mem_append, List.mem_singleton, not_or]
      exact ⟨hd pp rfl, by decide⟩

theorem safeStrCpy_error {b : Buf} {off m : Nat} {src : List UInt16} {e : Fault}
    (h : safeStrCpy b off m src = .error e) : e = .strCpyConstraint := by
  unfold safeStrCpy at h
  split at h <;> cases h
  rfl

theorem safeStrLen_error {b : Buf} {i : Nat} {e : Fault} (h : safeStrLen b i = .error e) :
    e = .unterminated := by
  unfold safeStrLen at h
  split at h <;> cases h
  rfl

/-- `composePath` faults only as its string helpers do. -/
theorem composePath_error {PATH_MAX : Nat} {parent : Option (List UInt16)} {Name : Str16}
    {e : Fault} (h : composePath PATH_MAX parent Name = .error e) :
    e = .strCpyConstraint ∨ e = .unterminated := by
  unfold composePath at h
  simp only [bind, Except.bind, pure, Except.pure] at h
  repeat' split at h
  all_goals first
    | cases h; done
    | (cases h; first
        | exact .inl (safeStrCpy_error ‹_›)
        | exact .inr (safeStrLen_error ‹_›)
        | exact .inr rfl)

end UefiNtfs
