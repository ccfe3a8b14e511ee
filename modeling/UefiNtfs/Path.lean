import UefiNtfs.Engine

set_option autoImplicit false

/-! # Paths

How `FileOpen` builds the path of the instance it opens (lines 110-164 of `uefi_file.c`): a
`PATH_MAX`-cell pool buffer receives the parent's path, a `PATH_CHAR` and the name (or the name
alone when it starts with a delimiter), its `DOS_PATH_CHAR`s after the parent's part become
`PATH_CHAR`s, `CleanPath` normalises it, and `BaseName` is set one cell after its last
`PATH_CHAR`.

The string helpers come from `uefi_support.h`, which is not among the sources. `SafeStrCpy` is
EDK2's `StrCpyS` under the driver's assertion that it succeeds: the source and its terminator
must fit in the room given, or the driver stops. `SafeStrLen` is `StrLen`; on a buffer with no
terminator the scan runs past the buffer, which the model reports as a fault. `CleanPath`
follows the spec's path cleaner.
-/

namespace UefiNtfs

/-! ## Buffers as strings -/

/-- `CopyMem (&Buf[off], cs, ...)`, cell by cell. -/
def Buf.write (b : Buf) (off : Nat) (cs : List UInt16) : Buf :=
  { b with cell := fun i => if off ≤ i ∧ i < off + cs.length then cs.getD (i - off) 0 else b.cell i }

/-- The buffer holds the string `c` from cell `i` on: its cells, then a NUL, all in the
buffer. -/
structure Buf.HasStr (b : Buf) (i : Nat) (c : List UInt16) : Prop where
  fits : i + c.length < b.cap
  cells : b.cells i c.length = c
  nul : b.cell (i + c.length) = 0
  nul_free : 0 ∉ c

/-- `SafeStrLen (&Buf[i])`. `uefi_support.h`, which defines it, is not among the sources: this is
EDK2's `StrLen`, which scans for the terminator. On a buffer that holds none the scan would run
past the buffer; the model stops there with a fault. -/
def safeStrLen (b : Buf) (i : Nat) : Except Fault Nat :=
  match b.strLen i with
  | some n => .ok n
  | none => .error .unterminated

/-- `SafeStrCpy (&Buf[off], DestMax, Source)`: `Source` and its NUL must fit in `DestMax`
cells. `uefi_support.h`, which defines it, is not among the sources: this is EDK2's `StrCpyS`
under the driver's assertion that it succeeds, so a copy that does not fit stops the driver
rather than truncating. That choice decides what the path results say at `PATH_MAX`: a path
that does not fit makes `FileOpen` stop, where a truncating copy would go on with a prefix. -/
def safeStrCpy (b : Buf) (off destMax : Nat) (src : List UInt16) : Except Fault Buf :=
  if src.length < destMax then .ok (b.write off (src ++ [0])) else .error .strCpyConstraint

/-! ## The cleaner -/

/-- Walk the segments of a path over the stack of those kept: empty segments (from repeated or
trailing delimiters) and `.` vanish, `..` drops the last kept segment (none at the root). -/
def cleanSegments : List (List UInt16) → List (List UInt16) → List (List UInt16)
  | kept, [] => kept
  | kept, seg :: rest =>
    if seg = [] ∨ seg = [dotChar] then cleanSegments kept rest
    else if seg = [dotChar, dotChar] then cleanSegments kept.dropLast rest
    else cleanSegments (kept ++ [seg]) rest

/-- Modelled from the spec: the path cleaner of `CleanPath` (uefi_support.c). Runs of
delimiters collapse, `.` segments are removed, `..` removes itself and the segment before it
without climbing above the root, and a leading delimiter is kept. -/
def cleanString (p : List UInt16) : List UInt16 :=
  let kept := cleanSegments [] (p.splitOn pathChar)
  if p.head? = some pathChar then pathChar :: [pathChar].intercalate kept
  else [pathChar].intercalate kept

/-- Modelled from the spec: `CleanPath (Path)` (uefi_support.c), in place: the string in the
buffer is replaced by its cleaned form. -/
def cleanPath (b : Buf) : Except Fault Buf :=
  match b.str 0 with
  | some p => .ok (b.write 0 (cleanString p ++ [0]))
  | none => .error .unterminated

/-! ## `FileOpen`'s loops -/

/-- `DOS_PATH_CHAR` becomes `PATH_CHAR`, anything else stays. -/
def toPathChar (c : UInt16) : UInt16 := if c = dosPathChar then pathChar else c

/-- The conversion loop `for (i = SafeStrLen (Path) - 1; i >= Len; i--)`, with `k` iterations
left, the next one at cell `Len + k - 1`. -/
def convertDelimiters (Path : Buf) (Len : Nat) : Nat → Buf
  | 0 => Path
  | k + 1 => convertDelimiters (Path.set (Len + k) (toPathChar (Path.cell (Len + k)))) Len k

/-- The `BaseName` loop `for (i = n - 1; i >= 0; i--) if (Path[i] == PATH_CHAR) break;`:
`i + 1`, the cell after the last `PATH_CHAR` below `n` (`0` when there is none). -/
def baseNameIndex (Path : Buf) : Nat → Nat
  | 0 => 0
  | i + 1 => if Path.cell i = pathChar then i + 1 else baseNameIndex Path i

/-- Lines 110-134 of `FileOpen`: the path buffer before `CleanPath`, from the parent's path
string and the name. -/
def composePath (PATH_MAX : Nat) (parent : Option (List UInt16)) (Name : Str16) :
    Except Fault Buf := do
  let Path := Buf.zero PATH_MAX
  let (Path, Len) ← if isPathDelimiter (Name.units.headD 0) then pure (Path, 0) else do
    let src ← match parent with
      | some p => pure p
      | none => throw Fault.unterminated
    let Path ← safeStrCpy Path 0 PATH_MAX src
    let Len ← safeStrLen Path 0
    pure (Path.set Len pathChar, Len + 1)
  let Path ← safeStrCpy Path Len (PATH_MAX - Len) Name.units
  let n ← safeStrLen Path 0
  pure (convertDelimiters Path Len (n - Len))

end UefiNtfs
