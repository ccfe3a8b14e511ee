import Mathlib.Logic.Function.Basic
import Mathlib.Algebra.Order.Ring.Nat
import Mathlib.Algebra.BigOperators.Group.List
import Mathlib.Data.List.Count

set_option autoImplicit false

/-! # The UEFI vocabulary of the driver

`uefi_file.c` implements `EFI_SIMPLE_FILE_SYSTEM_PROTOCOL` and `EFI_FILE_PROTOCOL` on top of the
NTFS engine. This file fixes what it speaks: `EFI_STATUS` as the 64-bit word UEFI defines (an
error has its top bit set, `EFI_ERROR`), the open modes and attribute bits, the sizes of the
64-bit UEFI ABI that the handle encoding and the info records rely on, `CHAR16` strings, and the
caller's `Data` buffer as byte memory.

`Data` is modelled from its first byte on and without an end: the caller's buffer is its first
`*Len` bytes, and what lies after them is the memory a call must not touch. A statement that a
call "writes nothing outside the buffer" is then a statement about the bytes from `*Len` on.
-/

namespace UefiNtfs

/-! ## Status codes -/

/-- `EFI_STATUS`, a `UINTN`. -/
abbrev EfiStatus := UInt64

/-- `EFI_ERROR (Status)`: the status is negative as an `INTN`, i.e. its top bit is set. -/
def efiError (st : EfiStatus) : Bool := decide ((0x8000000000000000 : UInt64) ≤ st)

def efiSuccess : EfiStatus := 0
def efiWarnDeleteFailure : EfiStatus := 2
def efiInvalidParameter : EfiStatus := 0x8000000000000002
def efiUnsupported : EfiStatus := 0x8000000000000003
def efiBadBufferSize : EfiStatus := 0x8000000000000004
def efiBufferTooSmall : EfiStatus := 0x8000000000000005
def efiDeviceError : EfiStatus := 0x8000000000000007
def efiWriteProtected : EfiStatus := 0x8000000000000008
def efiOutOfResources : EfiStatus := 0x8000000000000009
def efiNotFound : EfiStatus := 0x800000000000000E
def efiAccessDenied : EfiStatus := 0x800000000000000F
def efiEndOfFile : EfiStatus := 0x800000000000001F

@[simp] theorem efiError_success : efiError efiSuccess = false := by decide
@[simp] theorem efiError_warnDeleteFailure : efiError efiWarnDeleteFailure = false := by decide
@[simp] theorem efiError_invalidParameter : efiError efiInvalidParameter = true := by decide
@[simp] theorem efiError_unsupported : efiError efiUnsupported = true := by decide
@[simp] theorem efiError_badBufferSize : efiError efiBadBufferSize = true := by decide
@[simp] theorem efiError_bufferTooSmall : efiError efiBufferTooSmall = true := by decide
@[simp] theorem efiError_deviceError : efiError efiDeviceError = true := by decide
@[simp] theorem efiError_writeProtected : efiError efiWriteProtected = true := by decide
@[simp] theorem efiError_outOfResources : efiError efiOutOfResources = true := by decide
@[simp] theorem efiError_notFound : efiError efiNotFound = true := by decide
@[simp] theorem efiError_accessDenied : efiError efiAccessDenied = true := by decide
@[simp] theorem efiError_endOfFile : efiError efiEndOfFile = true := by decide

/-- An error status is not `EFI_SUCCESS`. -/
theorem ne_success_of_efiError {st : EfiStatus} (h : efiError st = true) : st ≠ efiSuccess := by
  rintro rfl; simp at h

/-! ## Open modes and attributes -/

def efiFileModeRead : UInt64 := 0x0000000000000001
def efiFileModeWrite : UInt64 := 0x0000000000000002
def efiFileModeCreate : UInt64 := 0x8000000000000000

def efiFileDirectory : UInt64 := 0x0000000000000010
/-- `EFI_FILE_VALID_ATTR`: read-only, hidden, system, directory and archive. -/
def efiFileValidAttr : UInt64 := 0x0000000000000037

/-! ## Sizes of the 64-bit ABI

These are the UEFI headers' sizes on a 64-bit target (X64, AArch64); the driver's sources take
them from the headers. -/

/-- `sizeof (EFI_FILE)`: `EFI_FILE_PROTOCOL`, a revision word and fourteen function pointers. -/
def sizeOfEfiFile : Nat := 120
/-- `sizeof (UINTN)`. -/
def sizeOfUintn : Nat := 8
/-- `(UINTN) -1`, the value of `MarkerRO`. -/
def uintnMax : Nat := 2 ^ 64 - 1
/-- `SIZE_OF_EFI_FILE_INFO`: the offset of `FileName` in `EFI_FILE_INFO`. -/
def sizeOfEfiFileInfo : Nat := 80
/-- `SIZE_OF_EFI_FILE_SYSTEM_INFO`: the offset of `VolumeLabel` in `EFI_FILE_SYSTEM_INFO`. -/
def sizeOfEfiFileSystemInfo : Nat := 36
/-- `sizeof (CHAR16)`. -/
def sizeOfChar16 : Nat := 2

/-! ## `CHAR16` strings -/

/-- A `CHAR16` string argument: the code units before its NUL terminator. -/
structure Str16 where
  units : List UInt16
  nul_free : 0 ∉ units

/-- `L'/'`, `PATH_CHAR`. -/
def pathChar : UInt16 := 0x2F
/-- `L'\\'`, `DOS_PATH_CHAR`. -/
def dosPathChar : UInt16 := 0x5C
/-- `L'.'`. -/
def dotChar : UInt16 := 0x2E

/-- `IS_PATH_DELIMITER (c)`. -/
def isPathDelimiter (c : UInt16) : Bool := c == pathChar || c == dosPathChar

/-- `StrSize (s)`: the bytes of the string and its terminator. -/
def Str16.size (s : Str16) : Nat := (s.units.length + 1) * sizeOfChar16

/-! ## Byte memory -/

/-- Memory from a buffer's first byte on. -/
abbrev Mem := Nat → UInt8

/-- `CopyMem (Data + off, bytes, length)`. -/
def Mem.write (m : Mem) (off : Nat) (bytes : List UInt8) : Mem :=
  fun i => if off ≤ i ∧ i < off + bytes.length then bytes.getD (i - off) 0 else m i

/-- The `n` little-endian bytes of `v` (a `UINTn` store truncates `v` to `8 n` bits). -/
def leBytes (n v : Nat) : List UInt8 := (List.range n).map (fun k => (v / 256 ^ k).toUInt8)

/-- The little-endian value of the `n` bytes at `off`. -/
def Mem.read (m : Mem) (off n : Nat) : Nat :=
  ((List.range n).map (fun k => (m (off + k)).toNat * 256 ^ k)).sum

/-- The bytes of a `CHAR16` string, without its terminator. -/
def char16Bytes (s : List UInt16) : List UInt8 := s.flatMap (fun c => leBytes 2 c.toNat)

@[simp] theorem leBytes_length (n v : Nat) : (leBytes n v).length = n := by simp [leBytes]

@[simp] theorem char16Bytes_length (s : List UInt16) :
    (char16Bytes s).length = sizeOfChar16 * s.length := by
  induction s with
  | nil => rfl
  | cons c s ih =>
    simp only [char16Bytes, List.flatMap_cons, List.length_append, leBytes_length] at *
    simp only [ih, sizeOfChar16, List.length_cons]; omega

/-- A write leaves every byte outside its range as it was. -/
theorem Mem.write_of_not_mem (m : Mem) (off : Nat) (bytes : List UInt8) {i : Nat}
    (h : i < off ∨ off + bytes.length ≤ i) : m.write off bytes i = m i := by
  simp only [Mem.write]; rw [if_neg (by omega)]

theorem toNat_toUInt8 (n : Nat) : n.toUInt8.toNat = n % 256 := by
  simp [Nat.toUInt8, UInt8.ofNat, UInt8.toNat, BitVec.toNat_ofNat]

/-- The first `n` base-256 digits of `v`, each at its weight, add up to `v` modulo `256 ^ n`. -/
theorem sum_leDigits (v n : Nat) :
    ((List.range n).map fun k => v / 256 ^ k % 256 * 256 ^ k).sum = v % 256 ^ n := by
  induction n with
  | zero => simp [Nat.mod_one]
  | succ n ih =>
    rw [List.range_succ, List.map_append, List.sum_append, ih, Nat.mod_pow_succ]
    simp [Nat.mul_comm]

/-- A store of `n` little-endian bytes reads back as the stored value modulo `256 ^ n`. -/
theorem Mem.read_write_leBytes_mod (m : Mem) (off n v : Nat) :
    (m.write off (leBytes n v)).read off n = v % 256 ^ n := by
  rw [← sum_leDigits, Mem.read]
  congr 1
  refine List.map_congr_left fun k hk => ?_
  have hk : k < n := List.mem_range.mp hk
  simp [Mem.write, leBytes, hk, toNat_toUInt8]

/-- A 64-bit store reads back as the stored value modulo `2 ^ 64`. -/
theorem Mem.read_write_leBytes (m : Mem) (off v : Nat) :
    (m.write off (leBytes 8 v)).read off 8 = v % 2 ^ 64 :=
  Mem.read_write_leBytes_mod m off 8 v

/-- The bytes `off, …, off + n - 1`. -/
def Mem.bytes (m : Mem) (off n : Nat) : List UInt8 := (List.range n).map fun j => m (off + j)

theorem Mem.bytes_add (m : Mem) (off a b : Nat) :
    m.bytes off (a + b) = m.bytes off a ++ m.bytes (off + a) b := by
  simp [Mem.bytes, List.range_add, Nat.add_assoc]

/-- A write reads back as what was written. -/
theorem Mem.bytes_write_self (m : Mem) (off : Nat) (bytes : List UInt8) :
    (m.write off bytes).bytes off bytes.length = bytes := by
  refine List.ext_getElem (by simp [Mem.bytes]) fun j h _ => ?_
  simp only [Mem.bytes, List.length_map, List.length_range] at h
  simp [Mem.bytes, Mem.write, h, Nat.add_sub_cancel_left, List.getElem?_eq_getElem h]

/-- A write leaves the bytes of a range clear of it as they were. -/
theorem Mem.bytes_write_of_disjoint (m : Mem) {off off' n : Nat} (bytes : List UInt8)
    (h : off' + n ≤ off ∨ off + bytes.length ≤ off') : (m.write off bytes).bytes off' n = m.bytes off' n :=
  List.map_congr_left fun j hj => m.write_of_not_mem off bytes (by simp at hj; omega)

/-- A write leaves the value of a range clear of it as it was. -/
theorem Mem.read_write_of_disjoint (m : Mem) {off off' n : Nat} (bytes : List UInt8)
    (h : off' + n ≤ off ∨ off + bytes.length ≤ off') : (m.write off bytes).read off' n = m.read off' n := by
  simp only [Mem.read]
  congr 1
  exact List.map_congr_left fun j hj => by
    rw [m.write_of_not_mem off bytes (by simp at hj; omega)]

/-- `m'` is `m` from byte `n` on: whatever made `m'` out of `m` wrote only below `n`. -/
def Mem.SameFrom (n : Nat) (m m' : Mem) : Prop := ∀ i, n ≤ i → m' i = m i

namespace Mem.SameFrom

variable {n : Nat} {m m' : Mem}

theorem refl (n : Nat) (m : Mem) : Mem.SameFrom n m m := fun _ _ => rfl

/-- A write that ends at or below `n` keeps the bytes from `n` on. -/
theorem write (hm : Mem.SameFrom n m m') {off : Nat} {bytes : List UInt8}
    (h : off + bytes.length ≤ n) : Mem.SameFrom n m (m'.write off bytes) :=
  fun i hi => (m'.write_of_not_mem off bytes (.inr (by omega))).trans (hm i hi)

theorem mono (hm : Mem.SameFrom n m m') {n' : Nat} (h : n ≤ n') : Mem.SameFrom n' m m' :=
  fun i hi => hm i (Nat.le_trans h hi)

end Mem.SameFrom

/-! ## Faults

A failed assertion of the driver stops it, and so does a read or write past a buffer, whose
behaviour C leaves undefined. A call that faults returns nothing. -/

inductive Fault where
  /-- `FS_ASSERT (Path[0] == PATH_CHAR)` in `FileOpen` fails. -/
  | pathNotAbsolute
  /-- `FS_ASSERT (NameLen < 256)` in `DirHook` fails. -/
  | nameTooLong
  /-- A constraint of `SafeStrCpy` (room for the source and its terminator) is violated. -/
  | strCpyConstraint
  /-- A string is read from a buffer that holds no terminator, so the scan runs past it. -/
  | unterminated
  /-- A handle value decodes to an address where no instance is allocated. -/
  | badHandle
  deriving DecidableEq, Repr

end UefiNtfs
