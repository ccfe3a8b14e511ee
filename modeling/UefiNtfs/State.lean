import UefiNtfs.Efi

set_option autoImplicit false

/-! # Open instances, the volume, and handle values

The state of one volume (`EFI_FS`) as the file layer sees it: the open instances
(`EFI_NTFS_FILE`) at their addresses, the pool buffers that hold their paths, `TotalRefCount`,
the engine's mount state and read-only flag, the volume label, the media, and the list of engine
primitives called so far. Pointers are addresses, `0` standing for `NULL`.

A handle value is the address of one of an instance's two `EFI_FILE` members: `EfiFileRW` at
offset `0`, `EfiFileRO` after the `DetectRO` word. `RO_ACCESS` reads the word that follows the
member the value points to, which is `DetectRO` for the read-write member and `MarkerRO` for the
read-only one; `MarkerRO` holds `(UINTN) -1`. `BASE_FILE` then subtracts the member's offset.
That decoding is right as long as the instances do not overlap and their marker words hold what
`NtfsAllocateFile` put there (`Layout`, `baseFile_value`).
-/

namespace UefiNtfs

/-! ## Pool buffers of `CHAR16` -/

/-- A pool buffer of `CHAR16` cells: `cap` cells from its address on and, past them, the memory
that follows it. -/
structure Buf where
  cap : Nat
  cell : Nat → UInt16

/-- `AllocateZeroPool (n * sizeof (CHAR16))`. -/
def Buf.zero (n : Nat) : Buf := ⟨n, fun _ => 0⟩

/-- `Buf[i] = c`. -/
def Buf.set (b : Buf) (i : Nat) (c : UInt16) : Buf := { b with cell := Function.update b.cell i c }

/-- The first NUL at or after cell `i`, looking at `n` cells. -/
def Buf.findNul (b : Buf) (i : Nat) : Nat → Option Nat
  | 0 => none
  | n + 1 => if b.cell i = 0 then some i else b.findNul (i + 1) n

/-- `StrLen` of the string at cell `i`; `none` when the buffer holds no NUL from `i` on, so that
the scan would run past its end. -/
def Buf.strLen (b : Buf) (i : Nat) : Option Nat := (b.findNul i (b.cap - i)).map (· - i)

/-- The cells `i, …, i + n - 1`. -/
def Buf.cells (b : Buf) (i n : Nat) : List UInt16 := (List.range n).map (fun k => b.cell (i + k))

/-- The string at cell `i`: its code units before the NUL. -/
def Buf.str (b : Buf) (i : Nat) : Option (List UInt16) := (b.strLen i).map (b.cells i)

@[simp] theorem Buf.set_cap (b : Buf) (i : Nat) (c : UInt16) : (b.set i c).cap = b.cap := rfl

/-! ## Instances and the volume -/

/-- `EFI_NTFS_FILE`. The two `EFI_FILE` members are where handle values point; `FileSystem` is
left out, as the model has one volume. `Path` is the address of a pool buffer and `BaseName` an
index into it. -/
structure NtfsFile where
  detectRO : Nat
  markerRO : Nat
  isDir : Bool
  isRoot : Bool
  dirPos : Nat
  offset : Nat
  path : Nat
  baseName : Nat
  refCount : Int
  /-- `NtfsInode != NULL`. -/
  ntfsInode : Bool

/-- A zeroed instance with its read-only marker, as `NtfsAllocateFile` returns it. -/
def NtfsFile.fresh : NtfsFile :=
  { detectRO := 0, markerRO := uintnMax, isDir := false, isRoot := false, dirPos := 0,
    offset := 0, path := 0, baseName := 0, refCount := 0, ntfsInode := false }

/-- The `Media` of a block I/O protocol, as far as `FileGetInfo` and `FSInstall` read it:
`BlockSize` is a `UINT32`, `LastBlock` an `EFI_LBA`. -/
structure Media where
  blockSize : UInt32
  lastBlock : Nat

/-- An engine primitive called by the file layer, with the instance it was called on. -/
inductive Call where
  | mountVolume
  | unmountVolume
  | allocateFile
  | openFile (file : Nat)
  | createFile (file : Nat)
  | closeFile (file : Nat)
  | freeFile (file : Nat)
  | deleteFile (file : Nat)
  | readFile (file : Nat)
  | writeFile (file : Nat)
  | readDirectory (file : Nat)
  | getFileInfo (file : Nat) (mref : Nat)
  | setFileInfo (file : Nat) (readOnly : Bool)
  | getFileSize (file : Nat)
  | getVolumeFreeSpace
  | renameVolume
  | flushFile (file : Nat)
  | allocatePool (addr : Nat)
  | freePool (addr : Nat)
  deriving DecidableEq, Repr

/-- The engine primitives that modify the volume. -/
def Call.writes : Call → Bool
  | .createFile _ | .writeFile _ | .deleteFile _ | .setFileInfo _ _ | .renameVolume
  | .flushFile _ => true
  | _ => false

/-- Calls none of which writes, checked by evaluating the list. -/
theorem Call.writes_eq_false_of_all {calls : List Call} (h : calls.all (fun c => !c.writes) = true) :
    ∀ c ∈ calls, c.writes = false := by
  simpa using h

/-- `EFI_FS`, one volume: its open instances by address, the live pool buffers by address, and
the engine state the file layer consults. `log` lists the engine primitives called so far. -/
@[ext] structure EfiFs where
  files : Nat → Option NtfsFile
  pool : Nat → Option Buf
  totalRefCount : Int
  mounted : Bool
  readOnly : Bool
  volumeLabel : Option Str16
  blockIo : Media
  blockIo2 : Option Media
  log : List Call

namespace EfiFs

variable (s : EfiFs)

/-- Append a call to the log. -/
def record (c : Call) : EfiFs := { s with log := s.log ++ [c] }

/-- Store an instance at `b`. -/
def setFile (b : Nat) (f : NtfsFile) : EfiFs := { s with files := Function.update s.files b (some f) }

/-- Release the instance at `b`. -/
def dropFile (b : Nat) : EfiFs := { s with files := Function.update s.files b none }

/-- Apply `g` to the instance at `b`, if there is one. -/
def modifyFile (b : Nat) (g : NtfsFile → NtfsFile) : EfiFs :=
  match s.files b with
  | some f => s.setFile b (g f)
  | none => s

@[simp] theorem record_files (c : Call) : (s.record c).files = s.files := rfl
@[simp] theorem record_pool (c : Call) : (s.record c).pool = s.pool := rfl
@[simp] theorem record_totalRefCount (c : Call) : (s.record c).totalRefCount = s.totalRefCount := rfl
@[simp] theorem record_mounted (c : Call) : (s.record c).mounted = s.mounted := rfl
@[simp] theorem record_readOnly (c : Call) : (s.record c).readOnly = s.readOnly := rfl
@[simp] theorem record_volumeLabel (c : Call) : (s.record c).volumeLabel = s.volumeLabel := rfl
@[simp] theorem record_log (c : Call) : (s.record c).log = s.log ++ [c] := rfl

@[simp] theorem setFile_files (b : Nat) (f : NtfsFile) :
    (s.setFile b f).files = Function.update s.files b (some f) := rfl
@[simp] theorem setFile_pool (b : Nat) (f : NtfsFile) : (s.setFile b f).pool = s.pool := rfl
@[simp] theorem setFile_totalRefCount (b : Nat) (f : NtfsFile) :
    (s.setFile b f).totalRefCount = s.totalRefCount := rfl
@[simp] theorem setFile_mounted (b : Nat) (f : NtfsFile) : (s.setFile b f).mounted = s.mounted := rfl
@[simp] theorem setFile_readOnly (b : Nat) (f : NtfsFile) :
    (s.setFile b f).readOnly = s.readOnly := rfl
@[simp] theorem setFile_log (b : Nat) (f : NtfsFile) : (s.setFile b f).log = s.log := rfl

@[simp] theorem dropFile_files (b : Nat) :
    (s.dropFile b).files = Function.update s.files b none := rfl
@[simp] theorem dropFile_pool (b : Nat) : (s.dropFile b).pool = s.pool := rfl
@[simp] theorem dropFile_totalRefCount (b : Nat) :
    (s.dropFile b).totalRefCount = s.totalRefCount := rfl
@[simp] theorem dropFile_mounted (b : Nat) : (s.dropFile b).mounted = s.mounted := rfl
@[simp] theorem dropFile_readOnly (b : Nat) : (s.dropFile b).readOnly = s.readOnly := rfl
@[simp] theorem dropFile_log (b : Nat) : (s.dropFile b).log = s.log := rfl

@[simp] theorem setFile_files_self (b : Nat) (f : NtfsFile) : (s.setFile b f).files b = some f :=
  Function.update_same _ _ _

/-- Storing the instance that is already there changes nothing. -/
theorem setFile_of_eq {b : Nat} {f : NtfsFile} (h : s.files b = some f) : s.setFile b f = s := by
  simp [setFile, ← h]

@[simp] theorem setFile_setFile (b : Nat) (f g : NtfsFile) : (s.setFile b f).setFile b g = s.setFile b g := by
  simp [setFile]

theorem record_setFile (c : Call) (b : Nat) (f : NtfsFile) :
    (s.record c).setFile b f = (s.setFile b f).record c := rfl

@[simp] theorem modifyFile_setFile (b : Nat) (f : NtfsFile) (g : NtfsFile → NtfsFile) :
    (s.setFile b f).modifyFile b g = s.setFile b (g f) := by
  simp [modifyFile]

theorem modifyFile_record (c : Call) (b : Nat) (g : NtfsFile → NtfsFile) :
    (s.record c).modifyFile b g = (s.modifyFile b g).record c := by
  cases h : s.files b with
  | none => simp [modifyFile, h]
  | some f => simp [modifyFile, h, record_setFile]

@[simp] theorem modifyFile_log (b : Nat) (g : NtfsFile → NtfsFile) : (s.modifyFile b g).log = s.log := by
  unfold modifyFile; split <;> rfl
@[simp] theorem modifyFile_pool (b : Nat) (g : NtfsFile → NtfsFile) :
    (s.modifyFile b g).pool = s.pool := by
  unfold modifyFile; split <;> rfl
@[simp] theorem modifyFile_readOnly (b : Nat) (g : NtfsFile → NtfsFile) :
    (s.modifyFile b g).readOnly = s.readOnly := by
  unfold modifyFile; split <;> rfl
@[simp] theorem modifyFile_totalRefCount (b : Nat) (g : NtfsFile → NtfsFile) :
    (s.modifyFile b g).totalRefCount = s.totalRefCount := by
  unfold modifyFile; split <;> rfl
@[simp] theorem modifyFile_mounted (b : Nat) (g : NtfsFile → NtfsFile) :
    (s.modifyFile b g).mounted = s.mounted := by
  unfold modifyFile; split <;> rfl

theorem modifyFile_of_some {b : Nat} {f : NtfsFile} (h : s.files b = some f)
    (g : NtfsFile → NtfsFile) : s.modifyFile b g = s.setFile b (g f) := by
  simp [modifyFile, h]

theorem modifyFile_of_none {b : Nat} (h : s.files b = none) (g : NtfsFile → NtfsFile) :
    s.modifyFile b g = s := by
  simp [modifyFile, h]

end EfiFs

/-! ## Handle values -/

/-- The offset of `DetectRO`, right after `EfiFileRW`. -/
def detectOff : Nat := sizeOfEfiFile
/-- The offset of `EfiFileRO`, right after `DetectRO`. -/
def roOff : Nat := sizeOfEfiFile + sizeOfUintn
/-- The offset of `MarkerRO`, right after `EfiFileRO`. -/
def markerOff : Nat := 2 * sizeOfEfiFile + sizeOfUintn
/-- The bytes of an instance up to and including `MarkerRO`; instances are at least this far
apart. -/
def objSize : Nat := 2 * (sizeOfEfiFile + sizeOfUintn)

/-- `&File->EfiFileRW`. -/
def rwHandle (b : Nat) : Nat := b
/-- `&File->EfiFileRO`. -/
def roHandle (b : Nat) : Nat := b + roOff

/-- The words of an instance that reference counting and the handle encoding read. -/
def NtfsFile.refPart (f : NtfsFile) : Int × Nat × Nat := (f.refCount, f.detectRO, f.markerRO)

/-- The reference part of the instance at each address. -/
def EfiFs.refs (s : EfiFs) (b : Nat) : Option (Int × Nat × Nat) := (s.files b).map NtfsFile.refPart

/-- The `UINTN` at address `a` as far as the model knows memory: the `DetectRO` or the `MarkerRO`
word of the instance it lies in, and `0` anywhere else. -/
def EfiFs.readWord (s : EfiFs) (a : Nat) : Nat :=
  match (if detectOff ≤ a then s.refs (a - detectOff) else none),
        (if markerOff ≤ a then s.refs (a - markerOff) else none) with
  | some r, _ => r.2.1
  | none, some r => r.2.2
  | none, none => 0

/-- `RO_ACCESS (Handle)`: the word after the `EFI_FILE` that `Handle` points to is `(UINTN) -1`. -/
def roAccess (s : EfiFs) (h : Nat) : Bool := s.readWord (h + sizeOfEfiFile) == uintnMax

/-- `BASE_FILE (Handle)`: `BASE_CR` from the member `RO_ACCESS` says `Handle` points to. -/
def baseFile (s : EfiFs) (h : Nat) : Nat := if roAccess s h then h - roOff else h

/-- What a handle value stands for: an instance and the access mode it was issued with. -/
structure Handle where
  file : Nat
  ro : Bool
  deriving DecidableEq, Repr

/-- The handle value `FileOpen` returns for an instance and a mode. -/
def Handle.value (h : Handle) : Nat := if h.ro then roHandle h.file else rwHandle h.file

/-- What `NtfsAllocateFile` and the allocator guarantee of the instances: none at `NULL`, the
markers as allocated, and no two instances overlapping. -/
structure Layout (s : EfiFs) : Prop where
  null : s.files 0 = none
  marks : ∀ b f, s.files b = some f → f.detectRO ≠ uintnMax ∧ f.markerRO = uintnMax
  apart : ∀ b b' f f', s.files b = some f → s.files b' = some f' → b ≠ b' →
    b + objSize ≤ b' ∨ b' + objSize ≤ b

section Decode

variable {s : EfiFs} {b : Nat} {f : NtfsFile}

theorem roAccess_rw (hs : Layout s) (hb : s.files b = some f) : roAccess s (rwHandle b) = false := by
  simp [roAccess, EfiFs.readWord, EfiFs.refs, NtfsFile.refPart, rwHandle, detectOff, hb,
    (hs.marks b f hb).1]

theorem roAccess_ro (hs : Layout s) (hb : s.files b = some f) : roAccess s (roHandle b) = true := by
  have hnone : s.files (b + roOff) = none := by
    cases h : s.files (b + roOff) with
    | none => rfl
    | some f' =>
      have := hs.apart _ _ _ _ hb h (by simp [roOff, sizeOfEfiFile])
      simp only [objSize, roOff, sizeOfEfiFile, sizeOfUintn] at this; omega
  have hread : s.readWord (roHandle b + sizeOfEfiFile) = uintnMax := by
    have h1 : roHandle b + sizeOfEfiFile - detectOff = b + roOff := by
      simp [roHandle, detectOff]
    have h2 : roHandle b + sizeOfEfiFile - markerOff = b := by
      simp [roHandle, markerOff, roOff]; omega
    unfold EfiFs.readWord
    rw [if_pos (by simp [roHandle, detectOff]), h1, show s.refs (b + roOff) = none by
      simp [EfiFs.refs, hnone], if_pos (by simp [roHandle, markerOff, roOff]; omega), h2,
      show s.refs b = some f.refPart by simp [EfiFs.refs, hb]]
    exact (hs.marks b f hb).2
  simp [roAccess, hread]

/-- **Handle decoding.** `RO_ACCESS` recovers the mode a value was issued with. -/
theorem roAccess_value (hs : Layout s) (hb : s.files b = some f) (ro : Bool) :
    roAccess s (Handle.value ⟨b, ro⟩) = ro := by
  cases ro
  · exact roAccess_rw hs hb
  · exact roAccess_ro hs hb

/-- **Handle decoding.** `BASE_FILE` recovers the instance a value was issued for. -/
theorem baseFile_value (hs : Layout s) (hb : s.files b = some f) (ro : Bool) :
    baseFile s (Handle.value ⟨b, ro⟩) = b := by
  have := roAccess_value hs hb ro
  cases ro <;> simp_all [baseFile, Handle.value, rwHandle, roHandle]

end Decode

/-! ## The reference view

Reference counting and the handle encoding look at three words of an instance: `RefCount`,
`DetectRO` and `MarkerRO`. A call that leaves them, and `TotalRefCount`, as they were cannot
disturb either. -/

/-- `RO_ACCESS` reads only the reference view. -/
theorem roAccess_of_refs {s s' : EfiFs} (h : s'.refs = s.refs) : roAccess s' = roAccess s := by
  funext v; simp only [roAccess, EfiFs.readWord, h]

/-- `BASE_FILE` reads only the reference view. -/
theorem baseFile_of_refs {s s' : EfiFs} (h : s'.refs = s.refs) : baseFile s' = baseFile s := by
  funext v; simp only [baseFile, roAccess_of_refs h]

namespace EfiFs

variable (s : EfiFs)

@[simp] theorem refs_record (c : Call) : (s.record c).refs = s.refs := rfl

@[simp] theorem refs_setFile (b : Nat) (f : NtfsFile) :
    (s.setFile b f).refs = Function.update s.refs b (some f.refPart) := by
  funext x; by_cases h : x = b
  · subst h; simp [refs]
  · simp [refs, h]

@[simp] theorem refs_dropFile (b : Nat) : (s.dropFile b).refs = Function.update s.refs b none := by
  funext x; by_cases h : x = b
  · subst h; simp [refs]
  · simp [refs, h]

theorem refs_modifyFile (b : Nat) {g : NtfsFile → NtfsFile} (hg : ∀ f, (g f).refPart = f.refPart) :
    (s.modifyFile b g).refs = s.refs := by
  funext x
  cases h : s.files b with
  | none => rw [modifyFile_of_none _ h]
  | some f => by_cases hx : x = b <;> simp_all [modifyFile_of_some _ h, refs]

end EfiFs

/-- A layout survives any change that keeps no instance but old ones with their markers. -/
theorem Layout.mono {s s' : EfiFs} (hs : Layout s)
    (h : ∀ b f', s'.files b = some f' → ∃ f, s.files b = some f ∧ f'.detectRO = f.detectRO ∧
      f'.markerRO = f.markerRO) : Layout s' where
  null := by
    cases h0 : s'.files 0 with
    | none => rfl
    | some f' => obtain ⟨f, hf, -⟩ := h 0 f' h0; simp [hs.null] at hf
  marks b f' hb := by
    obtain ⟨f, hf, hd, hm⟩ := h b f' hb
    rw [hd, hm]; exact hs.marks b f hf
  apart b b' f₁ f₂ h₁ h₂ hne := by
    obtain ⟨g₁, hg₁, -⟩ := h b f₁ h₁
    obtain ⟨g₂, hg₂, -⟩ := h b' f₂ h₂
    exact hs.apart b b' g₁ g₂ hg₁ hg₂ hne

/-- A layout only depends on the reference view. -/
theorem Layout.of_refs {s s' : EfiFs} (hs : Layout s) (h : s'.refs = s.refs) : Layout s' := by
  refine hs.mono fun b f' hb => ?_
  have := congrFun h b
  simp only [EfiFs.refs, hb, Option.map_some'] at this
  obtain ⟨f, hf, hp⟩ := Option.map_eq_some'.mp this.symm
  simp only [NtfsFile.refPart, Prod.mk.injEq] at hp
  exact ⟨f, hf, hp.2.1.symm, hp.2.2.symm⟩

end UefiNtfs
