import UefiNtfs.State

set_option autoImplicit false

/-! # The NTFS engine and the pool, as the file layer calls them

The engine (`uefi_bridge.c`) is not among the sources; the spec describes its interface (mount
and unmount, allocate, open, create, close, free, delete, read, write, per-entry information,
set information, file size, free space, read-only state, volume rename). Each primitive below
follows that description. What the engine decides by itself (whether a mount or an open
succeeds, which instance an open hands back, the status of a write) is an argument, so that
every statement about the file layer holds whatever the engine decides. Every primitive appends
itself to the log.

The engine's volume object exists only while the volume is mounted (spec, section 3). The
primitives act on the state the file layer keeps, whatever the mount state: what the engine
would do when called on an unmounted volume is not modelled, so results about what the engine is
asked to do hold for a mounted volume (`faults_only_at_source_stops`).

The pool is UEFI's allocator: `AllocateZeroPool` gives a zeroed buffer at an address the caller
of the model chooses (`0` when allocation fails), and `FreePool` releases one; `FreePool (NULL)`
does nothing, as the driver relies on when it frees a path it has handed over.
-/

namespace UefiNtfs

/-! ## The pool -/

/-- `AllocateZeroPool (n * sizeof (CHAR16))` at address `p`; `p = 0` is a failed allocation. -/
def allocateZeroPool (s : EfiFs) (p n : Nat) : EfiFs :=
  if p = 0 then s else { s.record (.allocatePool p) with pool := Function.update s.pool p (some (Buf.zero n)) }

/-- `FreePool (p)`. -/
def freePool (s : EfiFs) (p : Nat) : EfiFs :=
  if p = 0 then s else { s.record (.freePool p) with pool := Function.update s.pool p none }

/-- The string an instance's `Path` points to. -/
def EfiFs.pathStr (s : EfiFs) (f : NtfsFile) : Option (List UInt16) := (s.pool f.path).bind (·.str 0)

/-! ## Mounting -/

/-- Modelled from the spec: `NtfsMountVolume` (uefi_bridge.c), the Unmounted-to-Mounted
transition. A mounted volume stays mounted; an unmounted one is mounted unless the engine fails
with `st`. -/
def ntfsMountVolume (s : EfiFs) (st : EfiStatus) : EfiFs × EfiStatus :=
  let s := s.record .mountVolume
  if s.mounted then (s, efiSuccess)
  else if efiError st then (s, st) else ({ s with mounted := true }, st)

/-- Modelled from the spec: `NtfsUnmountVolume` (uefi_bridge.c), the Mounted-to-Unmounted
transition. -/
def ntfsUnmountVolume (s : EfiFs) : EfiFs := { s.record .unmountVolume with mounted := false }

/-- Modelled from the spec: `NtfsIsVolumeReadOnly` (uefi_bridge.c). -/
def ntfsIsVolumeReadOnly (s : EfiFs) : Bool := s.readOnly

/-! ## Instances -/

/-- Modelled from the spec: `NtfsAllocateFile` (uefi_bridge.c): a zeroed instance, with
`MarkerRO` set, at the address `b` the allocator gives; `b = 0` is a failed allocation. -/
def ntfsAllocateFile (s : EfiFs) (b : Nat) : EfiFs × EfiStatus :=
  let s := s.record .allocateFile
  if b = 0 then (s, efiOutOfResources) else (s.setFile b NtfsFile.fresh, efiSuccess)

/-- Modelled from the spec: `NtfsFreeFile` (uefi_bridge.c): an instance whose reference count
is zero is released together with its path; otherwise, and for `NULL`, nothing happens. -/
def ntfsFreeFile (s : EfiFs) (b : Nat) : EfiFs :=
  let s := s.record (.freeFile b)
  match s.files b with
  | some f => if b ≠ 0 ∧ f.refCount = 0 then (freePool s f.path).dropFile b else s
  | none => s

/-- Modelled from the spec: `NtfsCloseFile` (uefi_bridge.c): the engine lets go of the
instance's inode. -/
def ntfsCloseFile (s : EfiFs) (b : Nat) : EfiFs :=
  if b = 0 then s.record (.closeFile b)
  else (s.record (.closeFile b)).modifyFile b fun f => { f with ntfsInode := false }

/-- What the engine does with `NtfsOpenFile`. -/
inductive OpenOutcome where
  /-- It fails with `st`. -/
  | fail (st : EfiStatus)
  /-- It opens the inode at the instance's path, a directory when `dir`. -/
  | opened (dir : Bool)
  /-- An instance of the same path is open already: the engine releases the new one and hands
  back that one. -/
  | reused (file : Nat)

/-- What the engine does with `NtfsCreateFile`. -/
inductive CreateOutcome where
  /-- It fails with `st`. -/
  | fail (st : EfiStatus)
  /-- It creates the file or directory, as the instance's `IsDir` says, and opens it. -/
  | created
  /-- An instance of the same path is open already and is handed back instead. -/
  | reused (file : Nat)

/-- The path of the root directory. -/
def rootPath : List UInt16 := [pathChar]

/-- Modelled from the spec: `NtfsOpenFile (&File)` (uefi_bridge.c). Returns the status and the
instance `File` points to afterwards. `uefi_file.c` reads `IsRoot` (lines 70, 262, 272, 597, 665
and 674) but never sets it, and the spec names the flag without saying who sets it: the model
lets the engine's open set it when the instance's path is `"/"`, the path `FileOpenVolume` gives
the root instance (lines 766-774) and the one path `FileOpen` refuses to create (line 150). -/
def ntfsOpenFile (s : EfiFs) (b : Nat) : OpenOutcome → EfiFs × EfiStatus × Nat
  | .fail st => (s.record (.openFile b), st, b)
  | .opened dir =>
    ((s.record (.openFile b)).modifyFile b fun f =>
      { f with ntfsInode := true, isDir := dir, isRoot := s.pathStr f == some rootPath },
     efiSuccess, b)
  | .reused b' => (ntfsFreeFile (s.record (.openFile b)) b, efiSuccess, b')

/-- Modelled from the spec: `NtfsCreateFile (&File)` (uefi_bridge.c). -/
def ntfsCreateFile (s : EfiFs) (b : Nat) : CreateOutcome → EfiFs × EfiStatus × Nat
  | .fail st => (s.record (.createFile b), st, b)
  | .created => ((s.record (.createFile b)).modifyFile b fun f => { f with ntfsInode := true },
      efiSuccess, b)
  | .reused b' => (ntfsFreeFile (s.record (.createFile b)) b, efiSuccess, b')

/-- Modelled from the spec: `NtfsDeleteFile` (uefi_bridge.c): the engine removes the file,
closing its inode, and reports `st`. -/
def ntfsDeleteFile (s : EfiFs) (b : Nat) (st : EfiStatus) : EfiFs × EfiStatus :=
  ((s.record (.deleteFile b)).modifyFile b fun f => { f with ntfsInode := false }, st)

/-! ## Data and metadata -/

/-- What the engine does with a read or a write: its status and the bytes it moves. -/
structure IoOutcome where
  st : EfiStatus
  data : List UInt8

/-- Modelled from the spec: `NtfsReadFile (File, Data, Len)` (uefi_bridge.c): on success at
most `Len` bytes are read into `Data`, the offset advances past them and `Len` becomes their
number. -/
def ntfsReadFile (s : EfiFs) (b : Nat) (Data : Mem) (Len : Nat) (r : IoOutcome) :
    EfiFs × EfiStatus × Nat × Mem :=
  let s := s.record (.readFile b)
  if efiError r.st then (s, r.st, Len, Data)
  else
    let bytes := r.data.take Len
    (s.modifyFile b (fun f => { f with offset := f.offset + bytes.length }), r.st, bytes.length,
      Data.write 0 bytes)

/-- Modelled from the spec: `NtfsWriteFile (File, Data, Len)` (uefi_bridge.c): on success the
engine writes `n ≤ Len` bytes (the length of `r.data`, capped), the offset advances past them and
`Len` becomes `n`. -/
def ntfsWriteFile (s : EfiFs) (b : Nat) (Len : Nat) (r : IoOutcome) : EfiFs × EfiStatus × Nat :=
  let s := s.record (.writeFile b)
  if efiError r.st then (s, r.st, Len)
  else
    let n := min r.data.length Len
    (s.modifyFile b (fun f => { f with offset := f.offset + n }), r.st, n)

/-- Modelled from the spec: `NtfsFlushFile` (uefi_bridge.c). -/
def ntfsFlushFile (s : EfiFs) (b : Nat) (st : EfiStatus) : EfiFs × EfiStatus :=
  (s.record (.flushFile b), st)

/-- Modelled from the spec: `NtfsGetFileSize` (uefi_bridge.c), the size the engine reports. -/
def ntfsGetFileSize (s : EfiFs) (b : Nat) (size : Nat) : EfiFs × Nat :=
  (s.record (.getFileSize b), size)

/-- Modelled from the spec: `NtfsGetVolumeFreeSpace` (uefi_bridge.c). -/
def ntfsGetVolumeFreeSpace (s : EfiFs) (free : Nat) : EfiFs × Nat :=
  (s.record .getVolumeFreeSpace, free)

/-- What the engine does with a metadata query: it fails with `st`, or fills the 72 bytes of
`EFI_FILE_INFO` between `Size` and `FileName` with `fields`. -/
inductive InfoOutcome where
  | fail (st : EfiStatus)
  | filled (fields : List UInt8)

/-- Modelled from the spec: `NtfsGetFileInfo (File, Info, MRef, IsDir)` (uefi_bridge.c), asked
through the instance at `b`: the size, times and attributes of the inode `mref` (`0`: the
instance's own). -/
def ntfsGetFileInfo (s : EfiFs) (b mref : Nat) (Info : Mem) : InfoOutcome → EfiFs × EfiStatus × Mem
  | .fail st => (s.record (.getFileInfo b mref), st, Info)
  | .filled fields =>
    (s.record (.getFileInfo b mref), efiSuccess, Info.write 8 (fields.take (sizeOfEfiFileInfo - 8)))

/-- Modelled from the spec: `NtfsSetFileInfo (File, Info, ReadOnly)` (uefi_bridge.c). -/
def ntfsSetFileInfo (s : EfiFs) (b : Nat) (ro : Bool) (st : EfiStatus) : EfiFs × EfiStatus :=
  (s.record (.setFileInfo b ro), st)

/-- Modelled from the spec: `NtfsRenameVolume (Volume, Label, Len)` (uefi_bridge.c): on success
the label becomes `label`. -/
def ntfsRenameVolume (s : EfiFs) (label : Str16) (st : EfiStatus) : EfiFs × EfiStatus :=
  let s := s.record .renameVolume
  if efiError st then (s, st) else ({ s with volumeLabel := some label }, st)

/-! ## Spec lemmas

One lemma per primitive and case, so that proofs about the driver never unfold a primitive. -/

section Spec

variable (s : EfiFs) {b p : Nat} {f : NtfsFile}

@[simp] theorem allocateZeroPool_zero (n : Nat) : allocateZeroPool s 0 n = s := if_pos rfl

theorem allocateZeroPool_of_ne (hp : p ≠ 0) (n : Nat) :
    allocateZeroPool s p n =
      { s.record (.allocatePool p) with pool := Function.update s.pool p (some (Buf.zero n)) } :=
  if_neg hp

@[simp] theorem freePool_zero : freePool s 0 = s := if_pos rfl

theorem freePool_of_ne (hp : p ≠ 0) :
    freePool s p = { s.record (.freePool p) with pool := Function.update s.pool p none } := if_neg hp

@[simp] theorem ntfsAllocateFile_zero :
    ntfsAllocateFile s 0 = (s.record .allocateFile, efiOutOfResources) := rfl

theorem ntfsAllocateFile_of_ne (hb : b ≠ 0) :
    ntfsAllocateFile s b = ((s.record .allocateFile).setFile b NtfsFile.fresh, efiSuccess) := by
  simp [ntfsAllocateFile, hb]

theorem ntfsFreeFile_of_none (hb : s.files b = none) : ntfsFreeFile s b = s.record (.freeFile b) := by
  simp [ntfsFreeFile, hb]

theorem ntfsFreeFile_of_kept (hb : s.files b = some f) (h : ¬ (b ≠ 0 ∧ f.refCount = 0)) :
    ntfsFreeFile s b = s.record (.freeFile b) := by
  simp only [ntfsFreeFile, EfiFs.record_files, hb]; rw [if_neg h]

theorem ntfsFreeFile_of_unref (hb : s.files b = some f) (h0 : b ≠ 0) (hr : f.refCount = 0) :
    ntfsFreeFile s b = (freePool (s.record (.freeFile b)) f.path).dropFile b := by
  simp only [ntfsFreeFile, EfiFs.record_files, hb]; rw [if_pos ⟨h0, hr⟩]

/-- `NtfsFreeFile (NULL)` only logs the call. -/
@[simp] theorem ntfsFreeFile_zero : ntfsFreeFile s 0 = s.record (.freeFile 0) := by
  cases hb : s.files 0 with
  | none => exact ntfsFreeFile_of_none s hb
  | some f => exact ntfsFreeFile_of_kept s hb (by simp)

theorem ntfsCloseFile_of_some (h0 : b ≠ 0) (hb : s.files b = some f) :
    ntfsCloseFile s b = (s.record (.closeFile b)).setFile b { f with ntfsInode := false } := by
  simp only [ntfsCloseFile, h0, if_false]; exact EfiFs.modifyFile_of_some _ (by simpa using hb) _

@[simp] theorem ntfsCloseFile_zero : ntfsCloseFile s 0 = s.record (.closeFile 0) := rfl

/-! ### What the primitives leave alone -/

@[simp] theorem allocateZeroPool_files (n : Nat) : (allocateZeroPool s p n).files = s.files := by
  unfold allocateZeroPool; split <;> rfl
@[simp] theorem allocateZeroPool_totalRefCount (n : Nat) :
    (allocateZeroPool s p n).totalRefCount = s.totalRefCount := by unfold allocateZeroPool; split <;> rfl
@[simp] theorem allocateZeroPool_readOnly (n : Nat) : (allocateZeroPool s p n).readOnly = s.readOnly := by
  unfold allocateZeroPool; split <;> rfl

theorem freePool_pool : (freePool s p).pool = if p = 0 then s.pool else Function.update s.pool p none := by
  unfold freePool; split <;> rfl

@[simp] theorem freePool_files : (freePool s p).files = s.files := by unfold freePool; split <;> rfl
@[simp] theorem freePool_totalRefCount : (freePool s p).totalRefCount = s.totalRefCount := by
  unfold freePool; split <;> rfl
@[simp] theorem freePool_readOnly : (freePool s p).readOnly = s.readOnly := by
  unfold freePool; split <;> rfl
@[simp] theorem freePool_mounted : (freePool s p).mounted = s.mounted := by
  unfold freePool; split <;> rfl
@[simp] theorem freePool_refs : (freePool s p).refs = s.refs := by
  unfold freePool; split <;> rfl

@[simp] theorem ntfsUnmountVolume_files : (ntfsUnmountVolume s).files = s.files := rfl
@[simp] theorem ntfsUnmountVolume_refs : (ntfsUnmountVolume s).refs = s.refs := rfl
@[simp] theorem ntfsUnmountVolume_pool : (ntfsUnmountVolume s).pool = s.pool := rfl
@[simp] theorem ntfsUnmountVolume_totalRefCount :
    (ntfsUnmountVolume s).totalRefCount = s.totalRefCount := rfl
@[simp] theorem ntfsUnmountVolume_readOnly : (ntfsUnmountVolume s).readOnly = s.readOnly := rfl
@[simp] theorem ntfsUnmountVolume_mounted : (ntfsUnmountVolume s).mounted = false := rfl

/-- `NtfsFreeFile` either only logs the call or releases the instance and its path. -/
theorem ntfsFreeFile_cases (s : EfiFs) (b : Nat) :
    ntfsFreeFile s b = s.record (.freeFile b) ∨
      ∃ f, s.files b = some f ∧ ntfsFreeFile s b = (freePool (s.record (.freeFile b)) f.path).dropFile b := by
  cases hb : s.files b with
  | none => exact .inl (ntfsFreeFile_of_none s hb)
  | some f =>
    by_cases h : b ≠ 0 ∧ f.refCount = 0
    · exact .inr ⟨f, rfl, ntfsFreeFile_of_unref s hb h.1 h.2⟩
    · exact .inl (ntfsFreeFile_of_kept s hb h)

@[simp] theorem ntfsFreeFile_totalRefCount : (ntfsFreeFile s b).totalRefCount = s.totalRefCount := by
  rcases ntfsFreeFile_cases s b with h | ⟨f, -, h⟩ <;> simp [h]
@[simp] theorem ntfsFreeFile_readOnly : (ntfsFreeFile s b).readOnly = s.readOnly := by
  rcases ntfsFreeFile_cases s b with h | ⟨f, -, h⟩ <;> simp [h]
@[simp] theorem ntfsFreeFile_mounted : (ntfsFreeFile s b).mounted = s.mounted := by
  rcases ntfsFreeFile_cases s b with h | ⟨f, -, h⟩ <;> simp [h]

@[simp] theorem ntfsCloseFile_refs : (ntfsCloseFile s b).refs = s.refs := by
  unfold ntfsCloseFile; split
  · rfl
  · exact EfiFs.refs_modifyFile _ _ fun _ => rfl
@[simp] theorem ntfsCloseFile_totalRefCount : (ntfsCloseFile s b).totalRefCount = s.totalRefCount := by
  unfold ntfsCloseFile EfiFs.modifyFile; split <;> (try split) <;> rfl
@[simp] theorem ntfsCloseFile_readOnly : (ntfsCloseFile s b).readOnly = s.readOnly := by
  unfold ntfsCloseFile EfiFs.modifyFile; split <;> (try split) <;> rfl
@[simp] theorem ntfsCloseFile_mounted : (ntfsCloseFile s b).mounted = s.mounted := by
  unfold ntfsCloseFile EfiFs.modifyFile; split <;> (try split) <;> rfl
@[simp] theorem ntfsCloseFile_pool : (ntfsCloseFile s b).pool = s.pool := by
  unfold ntfsCloseFile EfiFs.modifyFile; split <;> (try split) <;> rfl

end Spec

end UefiNtfs
