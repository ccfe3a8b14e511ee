import UefiNtfs.Open

set_option autoImplicit false

/-! # Closing, deleting, writing, seeking, flushing and setting information

The calls of `EFI_FILE_PROTOCOL` other than opening, reading and `GetInfo`. Each decodes its
handle value with `BASE_FILE` and acts on that instance. `FileClose` and `FileDelete` give back
a reference: the instance is closed and released when its count reaches zero, and the volume is
unmounted when `TotalRefCount` does. `FileWrite`, `FileFlush` and `FileSetInfo` are the calls
that may write to the volume; the first two refuse a read-only value, and `FileSetInfo` passes
`RO_ACCESS` on to the engine for file information.
-/

namespace UefiNtfs

/-- `FileSystem->TotalRefCount--`. -/
def EfiFs.decTotal (s : EfiFs) : EfiFs := { s with totalRefCount := s.totalRefCount - 1 }

/-- The end of `FileClose` and `FileDelete`: "If there are no more files open on the volume,
unmount it". -/
def unmountIfIdle (s : EfiFs) : EfiFs := if s.totalRefCount ≤ 0 then ntfsUnmountVolume s else s

section Idle

variable (s : EfiFs)

@[simp] theorem EfiFs.decTotal_files : s.decTotal.files = s.files := rfl
@[simp] theorem EfiFs.decTotal_pool : s.decTotal.pool = s.pool := rfl
@[simp] theorem EfiFs.decTotal_refs : s.decTotal.refs = s.refs := rfl
@[simp] theorem EfiFs.decTotal_totalRefCount : s.decTotal.totalRefCount = s.totalRefCount - 1 :=
  rfl
@[simp] theorem EfiFs.decTotal_mounted : s.decTotal.mounted = s.mounted := rfl
@[simp] theorem EfiFs.decTotal_readOnly : s.decTotal.readOnly = s.readOnly := rfl
@[simp] theorem EfiFs.decTotal_log : s.decTotal.log = s.log := rfl

@[simp] theorem unmountIfIdle_files : (unmountIfIdle s).files = s.files := by
  unfold unmountIfIdle; split <;> rfl
@[simp] theorem unmountIfIdle_pool : (unmountIfIdle s).pool = s.pool := by
  unfold unmountIfIdle; split <;> rfl
@[simp] theorem unmountIfIdle_refs : (unmountIfIdle s).refs = s.refs := by
  unfold unmountIfIdle; split <;> rfl
@[simp] theorem unmountIfIdle_totalRefCount :
    (unmountIfIdle s).totalRefCount = s.totalRefCount := by
  unfold unmountIfIdle; split <;> rfl
@[simp] theorem unmountIfIdle_readOnly : (unmountIfIdle s).readOnly = s.readOnly := by
  unfold unmountIfIdle; split <;> rfl

/-- The volume stays mounted exactly when it was and values are still out. -/
@[simp] theorem unmountIfIdle_mounted :
    (unmountIfIdle s).mounted = (s.mounted && decide (0 < s.totalRefCount)) := by
  unfold unmountIfIdle; split <;> simp [ntfsUnmountVolume] <;> omega

theorem unmountIfIdle_log : ∃ calls, (unmountIfIdle s).log = s.log ++ calls ∧
    ∀ c ∈ calls, c.writes = false := by
  unfold unmountIfIdle; split
  · exact ⟨[.unmountVolume], rfl, Call.writes_eq_false_of_all rfl⟩
  · exact ⟨[], by simp, by simp⟩

end Idle

/-- `FileClose (This)`. -/
def fileClose (s : EfiFs) (This : Nat) : Except Fault (EfiFs × EfiStatus) :=
  let File := baseFile s This
  match s.files File with
  | none => .error .badHandle
  | some F =>
    let s := s.setFile File { F with refCount := F.refCount - 1 }
    let s := if F.refCount - 1 ≤ 0 then ntfsFreeFile (ntfsCloseFile s File) File else s
    .ok (unmountIfIdle s.decTotal, efiSuccess)

/-- `FileDelete (This)`; `onDelete` is the status `NtfsDeleteFile` reports. -/
def fileDelete (s : EfiFs) (This : Nat) (onDelete : EfiStatus) : Except Fault (EfiFs × EfiStatus) :=
  let File := baseFile s This
  match s.files File with
  | none => .error .badHandle
  | some F =>
    if F.isRoot || !F.ntfsInode then .ok (s, efiAccessDenied) else
    let s := (s.setFile File { F with refCount := F.refCount - 1 }).decTotal
    if F.isRoot || decide (0 < F.refCount - 1) then .ok (s, efiWarnDeleteFailure) else
    if ntfsIsVolumeReadOnly s then .ok (s, efiWarnDeleteFailure) else
    let (s, st) := ntfsDeleteFile s File onDelete
    let s := ntfsFreeFile s File
    .ok (unmountIfIdle s, st)

/-- `FileWrite (This, &Len, Data)`: the state, the status and `*Len`. -/
def fileWrite (s : EfiFs) (This : Nat) (Len : UInt64) (r : IoOutcome) :
    Except Fault (EfiFs × EfiStatus × UInt64) :=
  let File := baseFile s This
  match s.files File with
  | none => .error .badHandle
  | some F =>
    if !F.ntfsInode then .ok (s, efiDeviceError, Len)
    else if roAccess s This then .ok (s, efiAccessDenied, Len)
    else if ntfsIsVolumeReadOnly s then .ok (s, efiWriteProtected, Len)
    else if F.isDir then .ok (s, efiUnsupported, Len)
    else
      let (s, st, n) := ntfsWriteFile s File Len.toNat r
      .ok (s, st, UInt64.ofNat n)

/-- `FileSetPosition (This, Position)`; `size` is what `NtfsGetFileSize` reports. -/
def fileSetPosition (s : EfiFs) (This : Nat) (Position : UInt64) (size : Nat) :
    Except Fault (EfiFs × EfiStatus) :=
  let File := baseFile s This
  match s.files File with
  | none => .error .badHandle
  | some F =>
    if !F.ntfsInode then .ok (s, efiDeviceError)
    else if F.isDir then
      if Position != 0 then .ok (s, efiUnsupported)
      else .ok (s.setFile File { F with dirPos := 0 }, efiSuccess)
    else
      let (s, FileSize) := ntfsGetFileSize s File size
      let Position := if Position = 0xFFFFFFFFFFFFFFFF then FileSize else Position.toNat
      if Position > FileSize then .ok (s, efiUnsupported)
      else .ok (s.setFile File { F with offset := Position }, efiSuccess)

/-- `FileGetPosition (This, &Position)`: the state, the status and `*Position` if written. -/
def fileGetPosition (s : EfiFs) (This : Nat) : Except Fault (EfiFs × EfiStatus × Option Nat) :=
  let File := baseFile s This
  match s.files File with
  | none => .error .badHandle
  | some F =>
    if !F.ntfsInode then .ok (s, efiDeviceError, none)
    else if F.isDir then .ok (s, efiUnsupported, none)
    else .ok (s, efiSuccess, some F.offset)

/-- `FileFlush (This)`; `onFlush` is the status `NtfsFlushFile` reports. -/
def fileFlush (s : EfiFs) (This : Nat) (onFlush : EfiStatus) : Except Fault (EfiFs × EfiStatus) :=
  let File := baseFile s This
  match s.files File with
  | none => .error .badHandle
  | some F =>
    if !F.ntfsInode then .ok (s, efiDeviceError)
    else if roAccess s This then .ok (s, efiAccessDenied)
    else if ntfsIsVolumeReadOnly s then .ok (s, efiSuccess)
    else .ok (ntfsFlushFile s File onFlush)

/-! ## `FileSetInfo` -/

/-- The information types, by the GUID the caller passes. -/
inductive InfoType where
  | fileInfo
  | fileSystemInfo
  | volumeLabel
  | other
  deriving DecidableEq, Repr

/-- The `CHAR16` string at byte `off` of `Data`, scanning the `n` units that still lie in the
buffer; `none` when none of them is a NUL. -/
def Mem.str16 (m : Mem) (off : Nat) : Nat → Option (List UInt16)
  | 0 => none
  | n + 1 =>
    let c := (m.read off 2).toUInt16
    if c = 0 then some [] else (Mem.str16 m (off + 2) n).map (c :: ·)

theorem Mem.str16_nul_free (m : Mem) (off n : Nat) {c : List UInt16}
    (h : m.str16 off n = some c) : 0 ∉ c := by
  induction n generalizing off c with
  | zero => simp [Mem.str16] at h
  | succ n ih =>
    simp only [Mem.str16] at h
    split at h
    · cases h; simp
    · obtain ⟨c', hc', rfl⟩ := Option.map_eq_some'.mp h
      simp only [List.mem_cons, not_or]
      exact ⟨fun h0 => by simp_all, ih _ hc'⟩

/-- The string at byte `off` of a `Len`-byte buffer; a fault when it does not end inside the
buffer, so that `StrSize` would scan past it. -/
def strAt (m : Mem) (off Len : Nat) : Except Fault Str16 :=
  match h : m.str16 off ((Len - off) / 2) with
  | some c => .ok ⟨c, m.str16_nul_free _ _ h⟩
  | none => .error .unterminated

/-- `FileSetInfo (This, Type, Len, Data)`; `onSet` is the status the engine's `NtfsSetFileInfo`
or `NtfsRenameVolume` reports. -/
def fileSetInfo (s : EfiFs) (This : Nat) (infoType : InfoType) (Len : UInt64) (Data : Mem)
    (onSet : EfiStatus) : Except Fault (EfiFs × EfiStatus) :=
  let File := baseFile s This
  let Len := Len.toNat
  match s.files File with
  | none => .error .badHandle
  | some F =>
    if ntfsIsVolumeReadOnly s then .ok (s, efiWriteProtected)
    else if !F.ntfsInode then .ok (s, efiDeviceError)
    else match infoType with
    | .fileInfo =>
      if Len < sizeOfEfiFileInfo + sizeOfChar16 then .ok (s, efiBadBufferSize) else do
      let name ← strAt Data sizeOfEfiFileInfo Len
      if name.size > Len - sizeOfEfiFileInfo then
        return (s, efiBadBufferSize)
      if Data.read 72 8 &&& (uintnMax ^^^ efiFileValidAttr.toNat) != 0 then
        return (s, efiInvalidParameter)
      return ntfsSetFileInfo s File (roAccess s This) onSet
    | .fileSystemInfo =>
      if !F.isRoot then .ok (s, efiAccessDenied)
      else if Len < sizeOfEfiFileSystemInfo + sizeOfChar16 then .ok (s, efiBadBufferSize) else do
      let label ← strAt Data sizeOfEfiFileSystemInfo Len
      if label.size > Len - sizeOfEfiFileSystemInfo then
        return (s, efiBadBufferSize)
      return ntfsRenameVolume s label onSet
    | .volumeLabel =>
      if !F.isRoot then .ok (s, efiAccessDenied)
      else if Len < sizeOfChar16 then .ok (s, efiBadBufferSize) else do
      let label ← strAt Data 0 Len
      if label.size > Len then return (s, efiBadBufferSize)
      return ntfsRenameVolume s label onSet
    | .other => .ok (s, efiUnsupported)

end UefiNtfs
