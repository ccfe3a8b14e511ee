import UefiNtfs.PathInvariant

set_option autoImplicit false

/-! # Path resolution and the bounds of the path buffer

`FileOpen` resolves a name against its parent's path in a `PATH_MAX`-cell buffer (lines 110-137
of `uefi_file.c`). The string it composes there is `joinPath p Name`: the name alone when it
starts with a delimiter, and otherwise the parent's path `p`, a `PATH_CHAR` and the name, with
the name's `DOS_PATH_CHAR`s turned into `PATH_CHAR`s. Two facts settle what the buffer does:

* when `joinPath p Name` and its terminator fit in `PATH_MAX` cells, `composePath` leaves exactly
  that string in the buffer and writes nothing from cell `PATH_MAX` on (`composePath_fits`);
* when they do not, one of the two `SafeStrCpy` calls finds too little room and the driver stops
  there, before any scan of the buffer (`composePath_too_long`).

`CleanPath` then cleans the string in place, and `FileOpen` makes the buffer the new instance's
`Path` before the engine's open or create (`fileOpen_resolves_path`).
-/

namespace UefiNtfs

/-- The spec's `r`, the path `Resolve (parentAbsolutePath, childName)` cleans: the
name alone when it starts with a delimiter, and otherwise the parent's path, a delimiter and the
name; the name's alternate delimiters become `PATH_CHAR`, the parent's path is kept as it is. -/
def joinPath (p : List UInt16) (Name : Str16) : List UInt16 :=
  if isPathDelimiter (Name.units.headD 0) then Name.units.map toPathChar
  else p ++ pathChar :: Name.units.map toPathChar

/-! ## Writes below a bound -/

/-- `b'` is `b` from cell `n` on: whatever made `b'` out of `b` wrote only below `n`. -/
def Buf.SameFrom (n : Nat) (b b' : Buf) : Prop := ∀ i, n ≤ i → b'.cell i = b.cell i

namespace Buf.SameFrom

variable {n : Nat} {b b' : Buf}

theorem refl (n : Nat) (b : Buf) : Buf.SameFrom n b b := fun _ _ => rfl

/-- A write that ends at or below `n` keeps the cells from `n` on. -/
theorem write (hb : Buf.SameFrom n b b') {off : Nat} {cs : List UInt16}
    (h : off + cs.length ≤ n) : Buf.SameFrom n b (b'.write off cs) := fun i hi => by
  rw [Buf.write_cell, if_neg (by omega)]; exact hb i hi

theorem set (hb : Buf.SameFrom n b b') {i : Nat} {c : UInt16} (h : i < n) :
    Buf.SameFrom n b (b'.set i c) := fun j hj => by
  rw [Buf.set_cell, if_neg (by omega)]; exact hb j hj

/-- The conversion loop over cells below `n` keeps the cells from `n` on. -/
theorem convertDelimiters (hb : Buf.SameFrom n b b') {Len k : Nat} (h : Len + k ≤ n) :
    Buf.SameFrom n b (UefiNtfs.convertDelimiters b' Len k) := fun j hj => by
  rw [convertDelimiters_cell, if_neg (by omega)]; exact hb j hj

end Buf.SameFrom

/-! ## `composePath` -/

section Compose

variable {PATH_MAX : Nat} {p : List UInt16} {Name : Str16}

/-- **The composed path, when it fits**: `composePath` leaves `joinPath p Name` and its
terminator in the buffer, and writes no cell from `PATH_MAX` on. -/
theorem composePath_fits (hp : 0 ∉ p) (hfit : (joinPath p Name).length < PATH_MAX) :
    ∃ buf, composePath PATH_MAX (some p) Name = .ok buf ∧ buf.cap = PATH_MAX ∧
      buf.HasStr 0 (joinPath p Name) ∧ Buf.SameFrom PATH_MAX (Buf.zero PATH_MAX) buf := by
  unfold composePath joinPath at *
  simp only [bind, Except.bind, pure, Except.pure]
  split
  next hd =>
    -- an absolute name, copied at cell `0`
    rw [if_pos hd, List.length_map] at hfit
    have hB : ((Buf.zero PATH_MAX).write 0 (Name.units ++ [0])).HasStr 0 ([] ++ Name.units) :=
      hasStr_write_after [] Name.units (by simpa [Buf.zero] using hfit)
        (fun k hk => absurd hk (Nat.not_lt_zero k)) (by simp) Name.nul_free
    rw [Nat.sub_zero, safeStrCpy, if_pos hfit]
    simp only [safeStrLen_of_hasStr hB, List.nil_append, Nat.sub_zero]
    refine ⟨_, rfl, by simp [convertDelimiters_cap, Buf.zero],
      by simpa using hasStr_convertDelimiters hB, ?_⟩
    exact ((Buf.SameFrom.refl _ _).write (by simp; omega)).convertDelimiters (by omega)
  next hd =>
    -- a relative name, after the parent's path and a `PATH_CHAR`
    rw [if_neg hd] at hfit
    simp only [List.length_append, List.length_cons, List.length_map] at hfit
    have hP : ((Buf.zero PATH_MAX).write 0 (p ++ [0])).HasStr 0 p :=
      Buf.hasStr_write hp (by simp [Buf.zero]; omega)
    rw [safeStrCpy, if_pos (by omega)]
    simp only [safeStrLen_of_hasStr hP]
    have hcells : ∀ (k : Nat) (hk : k < (p ++ [pathChar]).length),
        (((Buf.zero PATH_MAX).write 0 (p ++ [0])).set p.length pathChar).cell k =
          (p ++ [pathChar])[k] := by
      intro k hk
      obtain ⟨-, hc, -, -⟩ := Buf.hasStr_iff.mp hP
      rw [Buf.set_cell]
      by_cases hk' : k < p.length
      · rw [if_neg (by omega), List.getElem_append_left hk']
        simpa using hc k hk'
      · have : k = p.length := by simp at hk; omega
        subst this
        simp
    have hB := hasStr_write_after (p ++ [pathChar]) Name.units (by simp [Buf.zero]; omega) hcells
      (by simp [hp, pathChar]) Name.nul_free
    simp only [List.length_append, List.length_singleton] at hB
    rw [safeStrCpy, if_pos (by omega)]
    simp only [safeStrLen_of_hasStr hB, List.length_append, List.length_singleton,
      Nat.add_sub_cancel_left]
    refine ⟨_, rfl, by simp [convertDelimiters_cap, Buf.zero],
      by simpa using hasStr_convertDelimiters hB, ?_⟩
    exact ((((Buf.SameFrom.refl _ _).write (by simp; omega)).set (by omega)).write
      (by simp; omega)).convertDelimiters (by omega)

/-- **The composed path, when it does not fit**: the room one of the `SafeStrCpy` calls is given
is too small, and the driver stops there. -/
theorem composePath_too_long (hp : 0 ∉ p) (hfit : PATH_MAX ≤ (joinPath p Name).length) :
    composePath PATH_MAX (some p) Name = .error .strCpyConstraint := by
  unfold composePath joinPath at *
  simp only [bind, Except.bind, pure, Except.pure]
  split
  next hd =>
    rw [if_pos hd, List.length_map] at hfit
    rw [safeStrCpy, if_neg (by omega)]
  next hd =>
    rw [if_neg hd] at hfit
    simp only [List.length_append, List.length_cons, List.length_map] at hfit
    by_cases hlt : p.length < PATH_MAX
    · have hP : ((Buf.zero PATH_MAX).write 0 (p ++ [0])).HasStr 0 p :=
        Buf.hasStr_write hp (by simpa [Buf.zero] using hlt)
      rw [safeStrCpy, if_pos hlt]
      simp only [safeStrLen_of_hasStr hP]
      rw [safeStrCpy, if_neg (by omega)]
    · rw [safeStrCpy, if_neg hlt]

/-- **The path buffer's bounds.** For every parent path and every name, the composition of
lines 110-134 (the copy of the parent's path, the `PATH_CHAR` at `Path[Len++]`, the copy of the
name and the conversion loop) writes no cell from `PATH_MAX` on and, when it completes, leaves the
composed string with a NUL after it below `PATH_MAX`, where the scans of `SafeStrLen` and
`CleanPath` find it. The one way it does not complete is a `SafeStrCpy` given too little room,
which stops the driver before any scan: its scans never run past the buffer. A parent path of
`PATH_MAX - 1` units is that case for every relative name, the `PATH_CHAR` taking the cell of the
parent's terminator and the name's copy being given no room. -/
theorem pathBuffer_bounds (PATH_MAX : Nat) (p Name : Str16) :
    (∀ buf, composePath PATH_MAX (some p.units) Name = .ok buf →
      buf.cap = PATH_MAX ∧ Buf.SameFrom PATH_MAX (Buf.zero PATH_MAX) buf ∧
        buf.HasStr 0 (joinPath p.units Name)) ∧
    (∀ e, composePath PATH_MAX (some p.units) Name = .error e → e = .strCpyConstraint) ∧
    (p.units.length = PATH_MAX - 1 → isPathDelimiter (Name.units.headD 0) = false →
      composePath PATH_MAX (some p.units) Name = .error .strCpyConstraint) := by
  have hlong (hlen : p.units.length = PATH_MAX - 1)
      (hd : isPathDelimiter (Name.units.headD 0) = false) :
      PATH_MAX ≤ (joinPath p.units Name).length := by
    simp only [joinPath, hd, Bool.false_eq_true, if_false, List.length_append, List.length_cons]
    omega
  by_cases hfit : (joinPath p.units Name).length < PATH_MAX
  · -- the composition completes
    obtain ⟨buf, h, hcap, hstr, hsame⟩ := composePath_fits p.nul_free hfit
    rw [h]
    exact ⟨fun _ hb => by cases hb; exact ⟨hcap, hsame, hstr⟩, fun _ he => (by cases he),
      fun hlen hd => absurd (hlong hlen hd) (by omega)⟩
  · -- a `SafeStrCpy` given too little room stops the driver
    rw [composePath_too_long p.nul_free (by omega)]
    exact ⟨fun _ hb => (by cases hb), fun _ he => by cases he; rfl, fun _ _ => rfl⟩

end Compose

/-! ## Resolution in `FileOpen` -/

section Open

variable {PATH_MAX Path : Nat} {s : EfiFs} {F : NtfsFile} {p : List UInt16} {Name : Str16}

/-- A parent's path as `FileOpen` reads it is a string: it holds no NUL. -/
theorem nul_free_of_pathStr (hp : s.pathStr F = some p) : 0 ∉ p := by
  simp only [EfiFs.pathStr, Option.bind_eq_some] at hp
  obtain ⟨b, -, hb⟩ := hp
  exact (Buf.str_eq_some_iff.mp hb).nul_free

/-- The composed path of an absolute parent starts with a `PATH_CHAR`. -/
theorem joinPath_head (habs : p.head? = some pathChar) :
    (joinPath p Name).head? = some pathChar := by
  unfold joinPath
  split
  next hd =>
    cases hN : Name.units with
    | nil => simp [hN, isPathDelimiter, pathChar, dosPathChar] at hd
    | cons c cs => simp [hN, toPathChar_of_delimiter (by simpa [hN] using hd)]
  next => simp [List.head?_append, habs]

/-- **Lines 110-141 of `FileOpen`** on a fresh buffer at `Path`: when `joinPath p Name` fits, the
buffer ends up holding its cleaned form, and only that buffer is added to the volume; when it does
not fit, the driver stops at a `SafeStrCpy`. -/
theorem openPath_resolves (hp : s.pathStr F = some p) (habs : p.head? = some pathChar)
    (hP : Path ≠ 0) (hfresh : s.pool Path = none) :
    ((joinPath p Name).length < PATH_MAX → ∃ buf, buf.str 0 = some (cleanString (joinPath p Name)) ∧
      openPath PATH_MAX s F Name Path = .ok ({ s with
        pool := Function.update s.pool Path (some buf)
        log := s.log ++ [.allocatePool Path] }, buf)) ∧
    (PATH_MAX ≤ (joinPath p Name).length →
      openPath PATH_MAX s F Name Path = .error .strCpyConstraint) := by
  have hne : F.path ≠ Path := fun h => by simp [EfiFs.pathStr, h, hfresh] at hp
  have hpar : (allocateZeroPool s Path PATH_MAX).pathStr F = some p := by
    rw [pathStr_allocateZeroPool, if_neg fun h => hne h.2, hp]
  have hp0 := nul_free_of_pathStr hp
  unfold openPath
  simp only [bind, Except.bind, pure, Except.pure, hpar]
  refine ⟨fun hfit => ?_, fun hfit => by rw [composePath_too_long hp0 hfit]⟩
  obtain ⟨b₀, h₀, -, hstr, -⟩ := composePath_fits hp0 hfit
  have hclean := hasStr_cleanString hstr (joinPath_head habs)
  have hcell0 : (b₀.write 0 (cleanString (joinPath p Name) ++ [0])).cell 0 = pathChar := by
    obtain ⟨rest, hrest⟩ := List.head?_eq_some_iff.mp (cleanString_head (joinPath_head habs))
    have := (Buf.hasStr_iff.mp hclean).2.1 0 (by rw [hrest]; simp)
    simpa [hrest] using this
  refine ⟨_, Buf.str_eq_some_iff.mpr hclean, ?_⟩
  rw [h₀]
  simp only [cleanPath_of_hasStr hstr, hcell0, ne_eq, not_true_eq_false, if_false,
    allocateZeroPool_of_ne _ hP, EfiFs.record, Function.update_idem]

/-- Line 150 refuses a create only of the root: on a buffer holding an absolute path, the check
holds when the path is `"/"` and the mode creates. -/
theorem root_of_createsRoot {buf : Buf} {q : List UInt16} {Mode : UInt64} (hq : buf.HasStr 0 q)
    (habs : q.head? = some pathChar) (h : createsRoot buf Mode = true) :
    q = rootPath ∧ Mode &&& efiFileModeCreate ≠ 0 := by
  simp only [createsRoot, Bool.and_eq_true, decide_eq_true_eq, bne_iff_ne, ne_eq] at h
  refine ⟨?_, h.2⟩
  obtain ⟨rest, rfl⟩ := List.head?_eq_some_iff.mp habs
  cases rest with
  | nil => rfl
  | cons c cs =>
    -- a second character would stand in cell 1, where the check found the terminator
    obtain ⟨-, hcells, -, hfree⟩ := Buf.hasStr_iff.mp hq
    have hc : c = 0 := by simpa [h.1.2] using (hcells 1 (by simp)).symm
    exact absurd (hc ▸ List.mem_cons_of_mem _ (List.mem_cons_self c cs)) hfree

/-- Lines 142-165 of `FileOpen` on a path buffer at `Path` that holds the string `q`: the
allocation of the instance fails, or line 150 refuses to create the root, or the new instance
gets the buffer as its `Path` and the engine's open or create follows (`openEngine`). -/
theorem openInstance_engine {Mode Attributes : UInt64} {o : OpenOracle} {buf : Buf}
    {q : List UInt16} (hq : buf.HasStr 0 q) (hpool : s.pool Path = some buf) :
    (o.fileAddr = 0 ∧ ∃ s', openInstance s Path buf Mode Attributes o =
        .ok (s', efiOutOfResources, none)) ∨
    (createsRoot buf Mode = true ∧ ∃ s', openInstance s Path buf Mode Attributes o =
        .ok (s', efiAccessDenied, none)) ∨
    ∃ s₁ G, s₁.files o.fileAddr = some G ∧ G.path = Path ∧ s₁.pathStr G = some q ∧
      openInstance s Path buf Mode Attributes o = .ok (openEngine s₁ o.fileAddr Mode Attributes o) := by
  unfold openInstance
  by_cases ha : o.fileAddr = 0
  · exact .inl ⟨ha, _, by rw [ha, ntfsAllocateFile_zero]; exact if_pos efiError_outOfResources⟩
  rw [ntfsAllocateFile_of_ne _ ha]
  dsimp only
  rw [if_neg (by simp)]
  by_cases hc : createsRoot buf Mode = true
  · exact .inr (.inl ⟨hc, _, if_pos hc⟩)
  rw [if_neg hc, safeStrLen_of_hasStr hq]
  dsimp only
  rw [EfiFs.modifyFile_of_some _ (EfiFs.setFile_files_self _ _ NtfsFile.fresh)]
  refine .inr (.inr ⟨_, _, EfiFs.setFile_files_self _ _ _, rfl, ?_, rfl⟩)
  simp [EfiFs.pathStr, hpool, Buf.str_eq_some_iff.mpr hq]

/-- **Path resolution in `FileOpen`.** Take a handle value whose instance `F` has the absolute
path `p`, a name other than `""` and `"."`, and a call that passes the checks of lines 64-96 (so
`F` is a directory, and the name is not `".."` on the root) and gets a fresh path buffer. When
`joinPath p Name` fits in `PATH_MAX` cells, the open either stops before the engine
(`NtfsAllocateFile` fails, or the cleaned path is `"/"` and the mode creates), or it hands the
engine's open or create (`openEngine`) a state in which the new instance's `Path` holds `CleanPath`
of `joinPath p Name`. When it does not fit, the open stops at a `SafeStrCpy`, with no instance
made and no path used. -/
theorem fileOpen_resolves_path {This : Nat} {Mode Attributes : UInt64} {o : OpenOracle}
    (hF : s.files (baseFile s This) = some F) (hp : s.pathStr F = some p)
    (habs : p.head? = some pathChar) (hname : Name.units ≠ [] ∧ Name.units ≠ [dotChar])
    (hcheck : openCheck s F Name Mode = none) (hpa : o.pathAddr ≠ 0)
    (hfresh : FreshPool s o.pathAddr) :
    ((joinPath p Name).length < PATH_MAX →
      (o.fileAddr = 0 ∧ ∃ s', fileOpen PATH_MAX s This Name Mode Attributes o =
          .ok (s', efiOutOfResources, none)) ∨
      (cleanString (joinPath p Name) = rootPath ∧ Mode &&& efiFileModeCreate ≠ 0 ∧
        ∃ s', fileOpen PATH_MAX s This Name Mode Attributes o = .ok (s', efiAccessDenied, none)) ∨
      ∃ s₁ G, s₁.files o.fileAddr = some G ∧ G.path = o.pathAddr ∧
        s₁.pathStr G = some (cleanString (joinPath p Name)) ∧
        fileOpen PATH_MAX s This Name Mode Attributes o =
          .ok (openEngine s₁ o.fileAddr Mode Attributes o)) ∧
    (PATH_MAX ≤ (joinPath p Name).length →
      fileOpen PATH_MAX s This Name Mode Attributes o = .error .strCpyConstraint) := by
  have hn : (Name.units == [] || Name.units == [dotChar]) = false := by simp [hname.1, hname.2]
  have hres := @openPath_resolves PATH_MAX o.pathAddr s F p Name hp habs hpa (hfresh hpa)
  refine ⟨fun hfit => ?_, fun hfit => ?_⟩
  · obtain ⟨buf, hbuf, h⟩ := hres.1 hfit
    have hq := Buf.str_eq_some_iff.mp hbuf
    -- past line 141 the buffer is live at `o.pathAddr`
    let s₀ : EfiFs := { s with
      pool := Function.update s.pool o.pathAddr (some buf)
      log := s.log ++ [.allocatePool o.pathAddr] }
    have hopen : fileOpen PATH_MAX s This Name Mode Attributes o =
        openInstance s₀ o.pathAddr buf Mode Attributes o := by
      simp only [fileOpen, hF, hcheck, hn, Bool.false_eq_true, if_false, if_neg hpa, h, s₀]
    have hpool : s₀.pool o.pathAddr = some buf := Function.update_same _ _ _
    rw [hopen]
    rcases openInstance_engine hq hpool with h₁ | ⟨hc, h₂⟩ | h₃
    · exact .inl h₁
    · obtain ⟨hroot, hcreate⟩ := root_of_createsRoot hq (cleanString_head (joinPath_head habs)) hc
      exact .inr (.inl ⟨hroot, hcreate, h₂⟩)
    · exact .inr (.inr h₃)
  · simp only [fileOpen, hF, hcheck, hn, Bool.false_eq_true, if_false, if_neg hpa, hres.2 hfit]

/-- The open of `"a"` below the root of `rootVolume`: the engine is asked to open the new instance
at `4096`, whose `Path` holds `"/a"`. -/
theorem fileOpen_resolves_path_rootVolume :
    ∃ s₁ G, s₁.files 4096 = some G ∧ G.path = 1024 ∧ s₁.pathStr G = some [pathChar, 0x61] ∧
      fileOpen 8 rootVolume 256 ⟨[0x61], by decide⟩ efiFileModeRead 0 notFoundOracle =
        .ok (openEngine s₁ 4096 efiFileModeRead 0 notFoundOracle) := by
  have hF : rootVolume.files (baseFile rootVolume 256) = some _ := rfl
  rcases (@fileOpen_resolves_path 8 rootVolume _ [pathChar] ⟨[0x61], by decide⟩
    256 efiFileModeRead 0 notFoundOracle hF rfl rfl ⟨by decide, by decide⟩ rfl (by decide)
    (fun _ => rfl)).1 (by decide) with ⟨ha, -⟩ | ⟨hroot, -⟩ | h
  · exact absurd ha (by decide)
  · exact absurd hroot (by decide)
  · exact h

end Open

end UefiNtfs
