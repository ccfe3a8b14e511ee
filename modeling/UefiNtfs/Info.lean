import UefiNtfs.Dir

set_option autoImplicit false

/-! # `FileGetInfo`

The three information records a caller can ask for, each written into the caller's buffer
`Data` of `*Len` bytes: `EFI_FILE_INFO` (the fixed header, then the base name),
`EFI_FILE_SYSTEM_INFO` (the fixed header, then the volume label) and
`EFI_FILE_SYSTEM_VOLUME_LABEL` (the label alone, on the root only). A buffer too small for the
record is answered with `EFI_BUFFER_TOO_SMALL` and the size the record needs.
-/

namespace UefiNtfs

/-- What the engine answers during `FileGetInfo`: the per-inode information and the volume's
free space. -/
structure GetInfoOracle where
  info : Nat → Bool → InfoOutcome
  freeSpace : Nat

/-- The string `File->BaseName` points to, inside the instance's path buffer. -/
def EfiFs.baseNameStr (s : EfiFs) (f : NtfsFile) : Option (List UInt16) :=
  (s.pool f.path).bind (·.str f.baseName)

/-- `SafeStrSize` of the volume label, `sizeof (CHAR16)` when there is none. -/
def labelSize : Option Str16 → Nat
  | none => sizeOfChar16
  | some l => l.size

/-- The label and its terminator, as `CopyMem` writes it (a lone NUL when there is none). -/
def labelBytes : Option Str16 → List UInt8
  | none => leBytes 2 0
  | some l => char16Bytes l.units ++ leBytes 2 0

theorem labelBytes_length (l : Option Str16) : (labelBytes l).length = labelSize l := by
  cases l with
  | none => rfl
  | some l =>
    simp only [labelBytes, labelSize, Str16.size, List.length_append, char16Bytes_length,
      leBytes_length, sizeOfChar16]
    omega

theorem sizeOfChar16_le_labelSize (l : Option Str16) : sizeOfChar16 ≤ labelSize l := by
  cases l with
  | none => exact Nat.le_refl _
  | some l => simp only [labelSize, Str16.size, sizeOfChar16]; omega

/-- `FileGetInfo (This, Type, &Len, Data)`: the state, the status, `*Len` and the buffer. -/
def fileGetInfo (s : EfiFs) (This : Nat) (infoType : InfoType) (Len : UInt64) (Data : Mem)
    (o : GetInfoOracle) : Except Fault (EfiFs × EfiStatus × UInt64 × Mem) :=
  let File := baseFile s This
  match s.files File with
  | none => .error .badHandle
  | some F =>
    if !F.ntfsInode then .ok (s, efiDeviceError, Len, Data) else
    match infoType with
    | .fileInfo =>
      match s.baseNameStr F with
      | none => .error .unterminated
      | some bn =>
        let Size := (bn.length + 1) * sizeOfChar16
        if Len.toNat < sizeOfEfiFileInfo + Size then
          .ok (s, efiBufferTooSmall, UInt64.ofNat (sizeOfEfiFileInfo + Size), Data)
        else
          let Data := Data.write 0 (List.replicate sizeOfEfiFileInfo 0)
          let (s, st, Data) := ntfsGetFileInfo s File 0 Data (o.info 0 F.isDir)
          if efiError st then .ok (s, st, Len, Data)
          else
            let Data := Data.write sizeOfEfiFileInfo (char16Bytes bn ++ leBytes 2 0)
            let Data := Data.write 0 (leBytes 8 (Size + sizeOfEfiFileInfo))
            .ok (s, efiSuccess, UInt64.ofNat (Size + sizeOfEfiFileInfo), Data)
    | .fileSystemInfo =>
      let Size := labelSize s.volumeLabel
      if Len.toNat < sizeOfEfiFileSystemInfo + Size then
        .ok (s, efiBufferTooSmall, UInt64.ofNat (sizeOfEfiFileSystemInfo + Size), Data)
      else
        let Data := Data.write 0 (List.replicate (sizeOfEfiFileSystemInfo + sizeOfChar16) 0)
        let Data := Data.write 8 [if ntfsIsVolumeReadOnly s then 1 else 0]
        let media := s.blockIo2.getD s.blockIo
        let blockSize := if media.blockSize = 0 then 512 else media.blockSize.toNat
        let Data := Data.write 32 (leBytes 4 blockSize)
        let Data := Data.write 16 (leBytes 8 ((media.lastBlock + 1) * blockSize))
        let (s, free) := ntfsGetVolumeFreeSpace s o.freeSpace
        let Data := Data.write 24 (leBytes 8 free)
        let Data := match s.volumeLabel with
          | some _ => Data.write sizeOfEfiFileSystemInfo (labelBytes s.volumeLabel)
          | none => Data
        let Data := Data.write 0 (leBytes 8 (Size + sizeOfEfiFileSystemInfo))
        .ok (s, efiSuccess, UInt64.ofNat (Size + sizeOfEfiFileSystemInfo), Data)
    | .volumeLabel =>
      if !F.isRoot then .ok (s, efiAccessDenied, Len, Data)
      else if Len.toNat < sizeOfChar16 then .ok (s, efiBufferTooSmall, Len, Data)
      else
        let Size := labelSize s.volumeLabel
        if Size < Len.toNat then .ok (s, efiBufferTooSmall, UInt64.ofNat Size, Data)
        else .ok (s, efiSuccess, UInt64.ofNat Size, Data.write 0 (labelBytes s.volumeLabel))
    | .other => .ok (s, efiUnsupported, Len, Data)

end UefiNtfs
