import UefiNtfs.Ops

set_option autoImplicit false

/-! # Reading: directory enumeration and file reads

A read on a directory returns one entry per call. `FileReadDir` stores the caller's `*Len` in
the `Size` field of the `EFI_FILE_INFO` the caller's buffer holds and hands `DirHook` to the
engine's `NtfsReadDirectory`, which visits the directory's entries from the instance's `DirPos`
on. `DirHook` skips the system files other than the root, fills the buffer with the first entry
it keeps and stops; the end of the directory becomes a successful read of zero bytes.
-/

namespace UefiNtfs

/-- One entry as the engine offers it to the visitor: its name (`NameLen` units), its MFT
reference and its `DtType`. -/
structure DirEntry where
  name : List UInt16
  mref : Nat
  dtType : Nat

/-- Modelled from the spec: `GetInodeNumber (MRef)`, the inode number of an MFT reference (its
low 48 bits). -/
def getInodeNumber (mref : Nat) : Nat := mref % 2 ^ 48

/-- Modelled from the spec: `FILE_FIRST_USER`, the first inode that is not a system file. -/
def fileFirstUser : Nat := 16
/-- Modelled from the spec: `FILE_ROOT`, the inode of the root directory. -/
def fileRoot : Nat := 5

/-- What a visitor returns: `0` (go on), `1` (stop, one entry taken), or `-1` after
`NtfsSetErrno (st)`. -/
inductive HookResult where
  | skip
  | stop
  | fail (st : EfiStatus)

/-- The entries `DirHook` lists: the root and those from `FILE_FIRST_USER` on. -/
def listed (e : DirEntry) : Bool :=
  !(getInodeNumber e.mref < fileFirstUser && getInodeNumber e.mref != fileRoot)

/-- `DirHook (&HookData, Name, NameLen, ...)` with `HookData = { Parent, Info }`, the
`EFI_FILE_INFO` at the start of `Info`; `info` is what `NtfsGetFileInfo` does for an inode and its
directory flag. -/
def dirHook (info : Nat → Bool → InfoOutcome) (Parent : Nat) (s : EfiFs) (Info : Mem)
    (e : DirEntry) : Except Fault (EfiFs × Mem × HookResult) :=
  if !listed e then .ok (s, Info, .skip)
  else if ¬ e.name.length < 256 then .error .nameTooLong
  else if Info.read 0 8 < (e.name.length + 1) * sizeOfChar16 then
    .ok (s, Info, .fail efiBufferTooSmall)
  else
    let Info := (Info.write sizeOfEfiFileInfo (char16Bytes e.name)).write
      (sizeOfEfiFileInfo + sizeOfChar16 * e.name.length) (leBytes 2 0)
    let Info := Info.write 0 (leBytes 8 (sizeOfEfiFileInfo + (e.name.length + 1) * sizeOfChar16))
    let (s, st, Info) := ntfsGetFileInfo s Parent e.mref Info (info e.mref (e.dtType == 4))
    if efiError st then .ok (s, Info, .fail st) else .ok (s, Info, .stop)

/-- The visitor loop of `NtfsReadDirectory` over the entries from position `pos` on: the state,
the buffer, the status and the position reached. -/
def visitEntries (hook : EfiFs → Mem → DirEntry → Except Fault (EfiFs × Mem × HookResult))
    (s : EfiFs) (Info : Mem) : List DirEntry → Nat → Except Fault (EfiFs × Mem × EfiStatus × Nat)
  | [], pos => .ok (s, Info, efiEndOfFile, pos)
  | e :: es, pos =>
    match hook s Info e with
    | .error f => .error f
    | .ok (s, Info, .skip) => visitEntries hook s Info es (pos + 1)
    | .ok (s, Info, .stop) => .ok (s, Info, efiSuccess, pos + 1)
    | .ok (s, Info, .fail st) => .ok (s, Info, st, pos)

/-- Modelled from the spec: `NtfsReadDirectory (File, Hook, &HookData)` (uefi_bridge.c). The
engine visits `entries`, the directory's listing, in order from the instance's `DirPos`,
advancing past each entry the visitor returns `0` or `1` for, stopping after a `1`, and reports
`EFI_END_OF_FILE` at the end; a `-1` stops it at that entry with the visitor's error. -/
def ntfsReadDirectory (s : EfiFs) (b : Nat) (Info : Mem) (entries : List DirEntry)
    (hook : EfiFs → Mem → DirEntry → Except Fault (EfiFs × Mem × HookResult)) :
    Except Fault (EfiFs × Mem × EfiStatus) :=
  let s := s.record (.readDirectory b)
  match s.files b with
  | none => .error .badHandle
  | some F =>
    match visitEntries hook s Info (entries.drop F.dirPos) F.dirPos with
    | .error f => .error f
    | .ok (s, Info, st, pos) => .ok (s.modifyFile b (fun f => { f with dirPos := pos }), Info, st)

/-- `FileReadDir (File, &Len, Data)`: the state, the status, `*Len` and the buffer. -/
def fileReadDir (s : EfiFs) (File : Nat) (Len : UInt64) (Data : Mem) (entries : List DirEntry)
    (info : Nat → Bool → InfoOutcome) : Except Fault (EfiFs × EfiStatus × UInt64 × Mem) :=
  let Data := Data.write 0 (leBytes 8 Len.toNat)
  match ntfsReadDirectory s File Data entries (dirHook info File) with
  | .error f => .error f
  | .ok (s, Data, st) =>
    if efiError st then
      if st = efiEndOfFile then .ok (s, efiSuccess, 0, Data) else .ok (s, st, Len, Data)
    else .ok (s, efiSuccess, UInt64.ofNat (Data.read 0 8), Data)

/-- What the engine holds for a read: the directory's listing, its per-entry information, and
the outcome of a file read. -/
structure ReadOracle where
  entries : List DirEntry
  info : Nat → Bool → InfoOutcome
  io : IoOutcome

/-- `FileRead (This, &Len, Data)`: the state, the status, `*Len` and the buffer. -/
def fileRead (s : EfiFs) (This : Nat) (Len : UInt64) (Data : Mem) (o : ReadOracle) :
    Except Fault (EfiFs × EfiStatus × UInt64 × Mem) :=
  let File := baseFile s This
  match s.files File with
  | none => .error .badHandle
  | some F =>
    if !F.ntfsInode then .ok (s, efiDeviceError, Len, Data)
    else if F.isDir then fileReadDir s File Len Data o.entries o.info
    else
      let (s, st, n, Data) := ntfsReadFile s File Data Len.toNat o.io
      .ok (s, st, UInt64.ofNat n, Data)

end UefiNtfs
