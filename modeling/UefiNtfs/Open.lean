import UefiNtfs.Path

set_option autoImplicit false

/-! # `FileOpen` and `FileOpenVolume`

The two calls that hand out handle values. `FileOpenVolume` mounts the volume and opens the root
instance; `FileOpen` reopens its parent for `""` and `"."`, and otherwise builds the new path,
allocates an instance and lets the engine open or create it, which may hand back an instance
already open for the same path. Either way the instance's `RefCount` and the volume's
`TotalRefCount` go up by one, and the value returned is the instance's read-write member when
the mode asks for writing and its read-only member otherwise.

Whatever the environment decides along the way (the addresses the allocators give, the engine's
outcomes) is an argument of the call, an oracle.
-/

namespace UefiNtfs

/-- What the environment decides during `FileOpen`: the addresses `AllocateZeroPool` and
`NtfsAllocateFile` give (`0` for a failure), and what the engine does with an open or a
create. -/
structure OpenOracle where
  pathAddr : Nat
  fileAddr : Nat
  onOpen : OpenOutcome
  onCreate : CreateOutcome

/-- The three modes UEFI allows: read, read-write, create-read-write. -/
def validMode (Mode : UInt64) : Bool :=
  Mode == efiFileModeRead || Mode == (efiFileModeRead ||| efiFileModeWrite) ||
    Mode == (efiFileModeCreate ||| efiFileModeRead ||| efiFileModeWrite)

/-- The member a successful open returns: `&File->EfiFileRW` when `Mode` asks for writing. -/
def openedHandle (Mode : UInt64) (b : Nat) : Nat :=
  if Mode &&& efiFileModeWrite != 0 then rwHandle b else roHandle b

/-- One more reference to the instance at `b`: `File->RefCount++` and `TotalRefCount++`. -/
def EfiFs.addRef (s : EfiFs) (b : Nat) : EfiFs :=
  { s.modifyFile b (fun f => { f with refCount := f.refCount + 1 }) with
    totalRefCount := s.totalRefCount + 1 }

section AddRef

variable (s : EfiFs) (b : Nat)

@[simp] theorem EfiFs.addRef_totalRefCount : (s.addRef b).totalRefCount = s.totalRefCount + 1 :=
  rfl
@[simp] theorem EfiFs.addRef_pool : (s.addRef b).pool = s.pool := by
  unfold EfiFs.addRef EfiFs.modifyFile; split <;> rfl
@[simp] theorem EfiFs.addRef_mounted : (s.addRef b).mounted = s.mounted := by
  unfold EfiFs.addRef EfiFs.modifyFile; split <;> rfl
@[simp] theorem EfiFs.addRef_readOnly : (s.addRef b).readOnly = s.readOnly := by
  unfold EfiFs.addRef EfiFs.modifyFile; split <;> rfl
@[simp] theorem EfiFs.addRef_log : (s.addRef b).log = s.log := by
  unfold EfiFs.addRef EfiFs.modifyFile; split <;> rfl

theorem EfiFs.addRef_files {f : NtfsFile} (h : s.files b = some f) :
    (s.addRef b).files = Function.update s.files b (some { f with refCount := f.refCount + 1 }) := by
  show (s.modifyFile b _).files = _
  rw [EfiFs.modifyFile_of_some _ h]; rfl

theorem EfiFs.addRef_files_self {f : NtfsFile} (h : s.files b = some f) :
    (s.addRef b).files b = some { f with refCount := f.refCount + 1 } := by
  rw [EfiFs.addRef_files _ _ h, Function.update_same]

/-- `addRef` raises the reference word of the instance at `b`, if there is one. -/
theorem EfiFs.refs_addRef :
    (s.addRef b).refs = Function.update s.refs b ((s.refs b).map fun r => (r.1 + 1, r.2)) := by
  funext x
  cases h : s.files b with
  | none =>
    have : (s.addRef b).files = s.files := by
      show (s.modifyFile b _).files = _; rw [EfiFs.modifyFile_of_none _ h]
    by_cases hx : x = b
    · subst hx; simp [EfiFs.refs, this, h]
    · simp [EfiFs.refs, this, hx]
  | some f =>
    by_cases hx : x = b
    · subst hx; simp [EfiFs.refs, EfiFs.addRef_files _ _ h, h, NtfsFile.refPart]
    · simp [EfiFs.refs, EfiFs.addRef_files _ _ h, hx]

/-- `addRef` on an instance just stored. -/
theorem EfiFs.refs_setFile_addRef (g : NtfsFile) :
    ((s.setFile b g).addRef b).refs =
      Function.update s.refs b (some (g.refCount + 1, g.detectRO, g.markerRO)) := by
  simp [EfiFs.refs_addRef, NtfsFile.refPart]

end AddRef

/-- The `out:` label of `FileOpen`: on an error `NtfsFreeFile (NewFile)` (which only releases an
instance without references), then `FreePool (Path)`. -/
def fileOpenOut (s : EfiFs) (st : EfiStatus) (NewFile Path : Nat) : EfiFs :=
  freePool (if efiError st then ntfsFreeFile s NewFile else s) Path

/-- Lines 64-96 of `FileOpen`: the checks made before anything is allocated, and the status
of the first that fails. -/
def openCheck (s : EfiFs) (F : NtfsFile) (Name : Str16) (Mode : UInt64) : Option EfiStatus :=
  if ntfsIsVolumeReadOnly s && Mode != efiFileModeRead then some efiWriteProtected
  else if Name.units == [dotChar, dotChar] && F.isRoot then some efiNotFound
  else if !F.isDir then some efiNotFound
  else if !validMode Mode then some efiInvalidParameter
  else if Mode &&& efiFileModeCreate != 0 &&
      (Name.units == [] || Name.units == [dotChar] || Name.units == [dotChar, dotChar]) then
    some efiAccessDenied
  else none

/-- Lines 166-180 of `FileOpen`: the engine creates the instance, with the type `Attributes`
asks for, or opens it. -/
def engineOpen (s : EfiFs) (NewFile : Nat) (Mode Attributes : UInt64) (o : OpenOracle) :
    EfiFs × EfiStatus × Nat :=
  if Mode &&& efiFileModeCreate != 0 then
    ntfsCreateFile (s.modifyFile NewFile fun f =>
      { f with isDir := Attributes &&& efiFileDirectory != 0 }) NewFile o.onCreate
  else ntfsOpenFile s NewFile o.onOpen

/-- The check of line 150: the cleaned path is the root and the mode creates. -/
def createsRoot (buf : Buf) (Mode : UInt64) : Bool :=
  buf.cell 0 = pathChar && buf.cell 1 = 0 && Mode &&& efiFileModeCreate != 0

/-- Lines 166-188 of `FileOpen`, once the new instance at `NewFile` holds its path (and `Path`
is `NULL`): the engine opens or creates it, and the instance it answers with gets the reference;
on an error the `out:` label releases that instance. -/
def openEngine (s : EfiFs) (NewFile : Nat) (Mode Attributes : UInt64) (o : OpenOracle) :
    EfiFs × EfiStatus × Option Nat :=
  match engineOpen s NewFile Mode Attributes o with
  | (s, st, NewFile) =>
    if efiError st then (fileOpenOut s st NewFile 0, st, none)
    else (s.addRef NewFile, efiSuccess, some (openedHandle Mode NewFile))

/-- Lines 142-188 of `FileOpen`, once the cleaned path is in the pool buffer at `Path`:
allocate the instance, refuse to create the root, hand the path to the instance, let the engine
open or create it, and count the reference. -/
def openInstance (s : EfiFs) (Path : Nat) (buf : Buf) (Mode Attributes : UInt64)
    (o : OpenOracle) : Except Fault (EfiFs × EfiStatus × Option Nat) :=
  match ntfsAllocateFile s o.fileAddr with
  | (s, st) =>
    if efiError st then .ok (fileOpenOut s st 0 Path, st, none)
    else if createsRoot buf Mode then
      .ok (fileOpenOut s efiAccessDenied o.fileAddr Path, efiAccessDenied, none)
    else
      match safeStrLen buf 0 with
      | .error f => .error f
      | .ok n =>
        .ok (openEngine (s.modifyFile o.fileAddr fun f =>
          { f with path := Path, baseName := baseNameIndex buf n }) o.fileAddr Mode Attributes o)

/-- Lines 110-141 of `FileOpen`: the path buffer is allocated at `Path`, filled and cleaned,
and must then hold an absolute path. -/
def openPath (PATH_MAX : Nat) (s : EfiFs) (F : NtfsFile) (Name : Str16) (Path : Nat) :
    Except Fault (EfiFs × Buf) := do
  let s := allocateZeroPool s Path PATH_MAX
  let buf ← composePath PATH_MAX (s.pathStr F) Name
  let buf ← cleanPath buf
  if buf.cell 0 ≠ pathChar then throw Fault.pathNotAbsolute
  return ({ s with pool := Function.update s.pool Path (some buf) }, buf)

/-- `FileOpen (This, &New, Name, Mode, Attributes)`: the state after the call, its status and the
value written to `*New` (`none`: not written). `PATH_MAX` is the length of path buffers. -/
def fileOpen (PATH_MAX : Nat) (s : EfiFs) (This : Nat) (Name : Str16) (Mode Attributes : UInt64)
    (o : OpenOracle) : Except Fault (EfiFs × EfiStatus × Option Nat) :=
  let File := baseFile s This
  match s.files File with
  | none => .error .badHandle
  | some F =>
    match openCheck s F Name Mode with
    | some st => .ok (s, st, none)
    | none =>
      if Name.units == [] || Name.units == [dotChar] then
        .ok (s.addRef File, efiSuccess, some (openedHandle Mode File))
      else if o.pathAddr = 0 then
        .ok (fileOpenOut s efiOutOfResources 0 0, efiOutOfResources, none)
      else
        match openPath PATH_MAX s F Name o.pathAddr with
        | .error f => .error f
        | .ok (s, buf) => openInstance s o.pathAddr buf Mode Attributes o

/-- What the environment decides during `FileOpenVolume`: the engine's mount status, the
addresses of the root instance and of its two-cell path (`0` for a failure), and what the engine
does with the open. -/
structure VolumeOracle where
  mount : EfiStatus
  fileAddr : Nat
  pathAddr : Nat
  onOpen : OpenOutcome

/-- The `out:` label of `FileOpenVolume` on an error: close and free the root instance, and
unmount the volume. -/
def fileOpenVolumeOut (s : EfiFs) (RootFile : Nat) : EfiFs :=
  ntfsUnmountVolume (ntfsFreeFile (ntfsCloseFile s RootFile) RootFile)

/-- Lines 766-774 of `FileOpenVolume`, the path buffer allocated at `Path`: the root instance's
path is `"/"` and its base name the empty string after it. -/
def setupRootPath (s : EfiFs) (RootFile Path : Nat) : EfiFs :=
  let s := allocateZeroPool s Path 2
  let s := { s with pool := Function.update s.pool Path (some ((Buf.zero 2).set 0 pathChar)) }
  s.modifyFile RootFile fun f => { f with path := Path, baseName := 1 }

/-- `FileOpenVolume (This, &Root)`: the state after the call, its status and the value written
to `*Root`. -/
def fileOpenVolume (s : EfiFs) (o : VolumeOracle) : EfiFs × EfiStatus × Option Nat :=
  let (s, st) := ntfsMountVolume s o.mount
  if efiError st then (fileOpenVolumeOut s 0, st, none) else
  let (s, st) := ntfsAllocateFile s o.fileAddr
  if efiError st then (fileOpenVolumeOut s 0, st, none) else
  let RootFile := o.fileAddr
  if o.pathAddr = 0 then (fileOpenVolumeOut s RootFile, efiOutOfResources, none) else
  let s := setupRootPath s RootFile o.pathAddr
  let (s, st, RootFile) := ntfsOpenFile s RootFile o.onOpen
  if efiError st then (fileOpenVolumeOut s RootFile, st, none) else
  (s.addRef RootFile, efiSuccess, some (rwHandle RootFile))

end UefiNtfs
