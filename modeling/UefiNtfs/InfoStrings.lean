import Mathlib.Data.List.GetD
import UefiNtfs.Buffers
import UefiNtfs.Safety
import UefiNtfs.Lifetime

set_option autoImplicit false

/-! # Strings in the information records

Two strings cross the `EFI_FILE_PROTOCOL` boundary inside information records, as `CHAR16`
strings with their terminator in the caller's buffer: the volume label and the file name.

`FileSetInfo` (lines 635-684 of `uefi_file.c`) parses a label with `StrSize` from `VolumeLabel`
of `EFI_FILE_SYSTEM_INFO`, byte 36, or from byte 0 of `EFI_FILE_SYSTEM_VOLUME_LABEL`, and hands it
to `NtfsRenameVolume`; `FileGetInfo` (lines 510-623) copies the volume's label back with `CopyMem`
at the same places. The two directions are inverse (`label_round_trip`): the label a successful
`FileSetInfo` parsed is the one every later `FileGetInfo` writes. Underneath is the round trip of
the encoding itself (`Mem.str16_char16Bytes`): a string without a NUL, written with its
terminator, reads back from where it was written.

Before either call into the engine, `FileSetInfo` checks the record: the volume is writable, the
instance holds an inode, the string ends inside the buffer, and a label goes only to the root
(`fileSetInfo_exits`).

`FileGetInfo` with `EFI_FILE_INFO` copies `File->BaseName` to `FileName`, byte 80. In every
reachable world that is the last segment of the value's path (`getInfo_reports_name`).
-/

namespace UefiNtfs

/-! ## `CHAR16` strings in memory -/

/-- A write of two pieces is the write of the second after the first, placed after it. -/
theorem Mem.write_append (m : Mem) (off : Nat) (a b : List UInt8) :
    m.write off (a ++ b) = (m.write (off + a.length) b).write off a := by
  funext i
  simp only [Mem.write, List.length_append]
  by_cases h1 : off ≤ i ∧ i < off + a.length
  · rw [if_pos ⟨h1.1, by omega⟩, if_pos h1, List.getD_append _ _ _ _ (by omega)]
  · rw [if_neg h1]
    by_cases h2 : off + a.length ≤ i ∧ i < off + a.length + b.length
    · rw [if_pos ⟨by omega, by omega⟩, if_pos h2, List.getD_append_right _ _ _ _ (by omega)]
      congr 1; omega
    · rw [if_neg (by omega), if_neg h2]

/-- The string scan from `off'` reads nothing a write below `off'` wrote. -/
theorem Mem.str16_write_below (m : Mem) {off off' : Nat} (a : List UInt8) (h : off + a.length ≤ off')
    (n : Nat) : (m.write off a).str16 off' n = m.str16 off' n := by
  induction n generalizing off' with
  | zero => rfl
  | succ n ih =>
    simp only [Mem.str16, m.read_write_of_disjoint a (.inr h), ih (by omega : off + a.length ≤ off' + 2)]

/-- **`CHAR16` strings round trip.** A NUL-free string stored with its terminator reads back
from where it was stored, when the scan has room for it. -/
theorem Mem.str16_char16Bytes (m : Mem) (off : Nat) {u : List UInt16} (hu : 0 ∉ u) {n : Nat}
    (hn : u.length < n) : (m.write off (char16Bytes u ++ leBytes 2 0)).str16 off n = some u := by
  induction u generalizing m off n with
  | nil =>
    obtain ⟨n, rfl⟩ : ∃ k, n = k + 1 := ⟨n - 1, by simp at hn; omega⟩
    simp [char16Bytes, Mem.str16, Mem.read_write_leBytes_mod]
    rfl
  | cons c u ih =>
    obtain ⟨n, rfl⟩ : ∃ k, n = k + 1 := ⟨n - 1, by simp at hn; omega⟩
    have hc : c ≠ 0 := fun h => hu (h ▸ List.mem_cons_self _ _)
    rw [show char16Bytes (c :: u) ++ leBytes 2 0 = leBytes 2 c.toNat ++ (char16Bytes u ++ leBytes 2 0)
      by simp [char16Bytes], Mem.write_append]
    have hcc : c.toNat.toUInt16 = c :=
      UInt16.toNat.inj (UInt16.toNat_ofNat_of_lt (UInt16.toNat_lt_size c))
    have hlt : c.toNat < 256 ^ 2 := UInt16.toNat_lt_size c
    simp only [Mem.str16, Mem.read_write_leBytes_mod, Nat.mod_eq_of_lt hlt, hcc, hc, if_false]
    rw [Mem.str16_write_below _ _ (by simp), leBytes_length, ih _ _ (fun h => hu (List.mem_cons_of_mem _ h))
        (by simpa using hn)]
    rfl


/-! ## The string at an offset of a buffer -/

/-- `strAt` gives the string the scan finds. -/
theorem strAt_of_str16 {m : Mem} {off Len : Nat} {l : Str16}
    (h : m.str16 off ((Len - off) / 2) = some l.units) : strAt m off Len = .ok l := by
  unfold strAt
  split
  · next c hc => rw [h] at hc; cases hc; rfl
  · next hc => rw [h] at hc; cases hc

/-- A label `CopyMem` wrote at `off`, with room for it in the buffer, reads back at `off`. -/
theorem strAt_labelBytes (m : Mem) {off Len : Nat} {l : Str16} (h : off + l.size ≤ Len) :
    strAt (m.write off (labelBytes (some l))) off Len = .ok l :=
  strAt_of_str16 (Mem.str16_char16Bytes m off l.nul_free
    (by simp only [Str16.size, sizeOfChar16] at h; omega))

/-! ## `FileSetInfo` -/

section SetInfo

variable {s s' : EfiFs} {This : Nat} {t : InfoType} {Len : UInt64} {Data : Mem} {onSet st : EfiStatus}

/-- The exits of `FileSetInfo`: an error status with the volume as it was, or, past the checks
of its information type, the engine's call. That is `NtfsSetFileInfo` for `EFI_FILE_INFO`, whose
`FileName` ends inside the buffer and whose `Attribute` is within `EFI_FILE_VALID_ATTR`, or
`NtfsRenameVolume` on the root, with a label that ends inside the buffer. -/
theorem fileSetInfo_exits (h : fileSetInfo s This t Len Data onSet = .ok (s', st)) :
    (s' = s ∧ efiError st = true) ∨
    ∃ F, s.files (baseFile s This) = some F ∧ s.readOnly = false ∧ F.ntfsInode = true ∧
      ((t = .fileInfo ∧ ∃ name : Str16, strAt Data sizeOfEfiFileInfo Len.toNat = .ok name ∧
          sizeOfEfiFileInfo + name.size ≤ Len.toNat ∧
          Data.read 72 8 &&& (uintnMax ^^^ efiFileValidAttr.toNat) = 0 ∧
          (s', st) = ntfsSetFileInfo s (baseFile s This) (roAccess s This) onSet) ∨
        (F.isRoot = true ∧ ∃ (off : Nat) (label : Str16),
          (t = .fileSystemInfo ∧ off = sizeOfEfiFileSystemInfo ∨ t = .volumeLabel ∧ off = 0) ∧
          strAt Data off Len.toNat = .ok label ∧ off + label.size ≤ Len.toNat ∧
          (s', st) = ntfsRenameVolume s label onSet)) := by
  cases hF : s.files (baseFile s This) with
  | none => simp [fileSetInfo, hF] at h
  | some F =>
  simp only [fileSetInfo, hF] at h
  -- the checks every information type shares
  by_cases hro : ntfsIsVolumeReadOnly s = true
  · rw [if_pos hro] at h; cases h; exact .inl ⟨rfl, rfl⟩
  rw [if_neg hro] at h
  by_cases hino : (!F.ntfsInode) = true
  · rw [if_pos hino] at h; cases h; exact .inl ⟨rfl, rfl⟩
  rw [if_neg hino] at h
  have hro' : s.readOnly = false := by simpa [ntfsIsVolumeReadOnly] using hro
  have hino' : F.ntfsInode = true := by simpa using hino
  -- the checks of each information type, then the engine's call
  cases t with
  | other => cases h; exact .inl ⟨rfl, rfl⟩
  | fileInfo =>
    simp only at h
    cases hs : strAt Data sizeOfEfiFileInfo Len.toNat <;>
      simp only [hs, bind, Except.bind, pure, Except.pure] at h <;>
      split_ifs at h <;>
      first | (cases h; done) | (cases h; exact .inl ⟨rfl, rfl⟩) | skip
    rename_i hlen hsz hattr
    exact .inr ⟨F, rfl, hro', hino', .inl ⟨rfl, _, rfl, by omega, by simpa using hattr,
      (Except.ok.inj h).symm⟩⟩
  | fileSystemInfo =>
    simp only at h
    cases hs : strAt Data sizeOfEfiFileSystemInfo Len.toNat <;>
      simp only [hs, bind, Except.bind, pure, Except.pure] at h <;>
      split_ifs at h <;>
      first | (cases h; done) | (cases h; exact .inl ⟨rfl, rfl⟩) | skip
    rename_i hroot hlen hsz
    exact .inr ⟨F, rfl, hro', hino', .inr ⟨by simpa using hroot, _, _, .inl ⟨rfl, rfl⟩, hs, by omega,
      (Except.ok.inj h).symm⟩⟩
  | volumeLabel =>
    simp only at h
    cases hs : strAt Data 0 Len.toNat <;>
      simp only [hs, bind, Except.bind, pure, Except.pure] at h <;>
      split_ifs at h <;>
      first | (cases h; done) | (cases h; exact .inl ⟨rfl, rfl⟩) | skip
    rename_i hroot hlen hsz
    exact .inr ⟨F, rfl, hro', hino', .inr ⟨by simpa using hroot, _, _, .inr ⟨rfl, rfl⟩, hs, by omega,
      (Except.ok.inj h).symm⟩⟩

/-- **What a successful label change stores.** `FileSetInfo` with `EFI_FILE_SYSTEM_INFO` (label at
`VolumeLabel`, byte 36) or `EFI_FILE_SYSTEM_VOLUME_LABEL` (label at byte 0) that reports
`EFI_SUCCESS` was made on the root with an inode, parsed the label at that offset, and
renamed the volume to it. -/
theorem fileSetInfo_label {off : Nat}
    (ht : t = .fileSystemInfo ∧ off = sizeOfEfiFileSystemInfo ∨ t = .volumeLabel ∧ off = 0)
    (h : fileSetInfo s This t Len Data onSet = .ok (s', efiSuccess)) :
    ∃ F l, s.files (baseFile s This) = some F ∧ F.isRoot = true ∧ F.ntfsInode = true ∧
      strAt Data off Len.toNat = .ok l ∧ l.size ≤ Len.toNat - off ∧
      s' = { s.record .renameVolume with volumeLabel := some l } := by
  rcases fileSetInfo_exits h with ⟨-, he⟩ | ⟨F, hF, -, hino, ⟨rfl, -⟩ | ⟨hroot, off', l, ht', hl, hsz, hr⟩⟩
  · simp at he
  · rcases ht with ⟨h1, -⟩ | ⟨h1, -⟩ <;> cases h1
  -- the information type fixes the offset of the label
  obtain rfl : off' = off := by
    rcases ht with ⟨rfl, rfl⟩ | ⟨rfl, rfl⟩ <;> rcases ht' with ⟨h1, rfl⟩ | ⟨h1, rfl⟩ <;>
      first | rfl | cases h1
  -- the engine renamed the volume and reported success
  unfold ntfsRenameVolume at hr
  split_ifs at hr with he
  · exact absurd (Prod.mk.inj hr).2 (ne_success_of_efiError he).symm
  obtain ⟨rfl, -⟩ := Prod.mk.inj hr
  exact ⟨F, l, hF, hroot, hino, hl, by omega, rfl⟩

end SetInfo

/-! ## `FileGetInfo` -/

section GetInfo

variable {s : EfiFs} {This : Nat} {F : NtfsFile} {Len : UInt64} {l : Str16}

/-- **`FileGetInfo` reports the label.** With a volume label set and a buffer with room for
`EFI_FILE_SYSTEM_INFO` and the label, `FileGetInfo` succeeds and the string at `VolumeLabel` of
the buffer it fills is the label. -/
theorem fileGetInfo_fileSystemInfo_label (hF : s.files (baseFile s This) = some F)
    (hino : F.ntfsInode = true) (hl : s.volumeLabel = some l)
    (hLen : sizeOfEfiFileSystemInfo + l.size ≤ Len.toNat) (Data : Mem) (o : GetInfoOracle) :
    ∃ s' D, fileGetInfo s This .fileSystemInfo Len Data o =
        .ok (s', efiSuccess, UInt64.ofNat (l.size + sizeOfEfiFileSystemInfo), D) ∧
      strAt D sizeOfEfiFileSystemInfo Len.toNat = .ok l := by
  simp only [fileGetInfo, hF, hino, Bool.not_true, Bool.false_eq_true, if_false, labelSize, hl,
    if_neg (Nat.not_lt_of_le hLen), ntfsGetVolumeFreeSpace, EfiFs.record_volumeLabel]
  refine ⟨_, _, rfl, strAt_of_str16 ?_⟩
  rw [Mem.str16_write_below _ _ (by simp [leBytes_length, sizeOfEfiFileSystemInfo])]
  exact Mem.str16_char16Bytes _ _ l.nul_free (by simp only [Str16.size, sizeOfChar16] at hLen; omega)

/-- **`FileGetInfo` reports the label** through `EFI_FILE_SYSTEM_VOLUME_LABEL` too, on the root
and for a buffer of exactly the label's size. -/
theorem fileGetInfo_volumeLabel_label (hF : s.files (baseFile s This) = some F)
    (hino : F.ntfsInode = true) (hroot : F.isRoot = true) (hl : s.volumeLabel = some l)
    (hLen : Len.toNat = l.size) (Data : Mem) (o : GetInfoOracle) :
    ∃ D, fileGetInfo s This .volumeLabel Len Data o = .ok (s, efiSuccess, UInt64.ofNat l.size, D) ∧
      strAt D 0 Len.toNat = .ok l := by
  have h2 := sizeOfChar16_le_labelSize (some l)
  simp only [labelSize] at h2
  simp only [fileGetInfo, hF, hino, hroot, Bool.not_true, Bool.false_eq_true, if_false, labelSize,
    hl, hLen, if_neg (Nat.not_lt_of_le h2), lt_irrefl]
  exact ⟨_, rfl, strAt_labelBytes _ (by omega)⟩

end GetInfo

/-! ## The round trip -/

/-- **A label set is the label read back.** When `FileSetInfo` with `EFI_FILE_SYSTEM_INFO` or
`EFI_FILE_SYSTEM_VOLUME_LABEL` reports `EFI_SUCCESS`, the string it parsed at the label's offset
of the caller's buffer is the volume's label from then on: `FileGetInfo` hands it back at
`VolumeLabel` of `EFI_FILE_SYSTEM_INFO` into any buffer with room for it, and as
`EFI_FILE_SYSTEM_VOLUME_LABEL` into a buffer of the label's size. -/
theorem label_round_trip {s s' : EfiFs} {This : Nat} {t : InfoType} {Len : UInt64} {Data : Mem}
    {onSet : EfiStatus} {off : Nat}
    (ht : t = .fileSystemInfo ∧ off = sizeOfEfiFileSystemInfo ∨ t = .volumeLabel ∧ off = 0)
    (h : fileSetInfo s This t Len Data onSet = .ok (s', efiSuccess)) :
    ∃ l, strAt Data off Len.toNat = .ok l ∧ s'.volumeLabel = some l ∧
      (∀ (Len' : UInt64) (Data' : Mem) (o : GetInfoOracle),
        sizeOfEfiFileSystemInfo + l.size ≤ Len'.toNat → ∃ s'' D,
          fileGetInfo s' This .fileSystemInfo Len' Data' o =
            .ok (s'', efiSuccess, UInt64.ofNat (l.size + sizeOfEfiFileSystemInfo), D) ∧
          strAt D sizeOfEfiFileSystemInfo Len'.toNat = .ok l) ∧
      (∀ (Len' : UInt64) (Data' : Mem) (o : GetInfoOracle), Len'.toNat = l.size → ∃ D,
        fileGetInfo s' This .volumeLabel Len' Data' o = .ok (s', efiSuccess, UInt64.ofNat l.size, D) ∧
          strAt D 0 Len'.toNat = .ok l) := by
  obtain ⟨F, l, hF, hroot, hino, hl, -, rfl⟩ := fileSetInfo_label ht h
  have hF' : (({ s.record .renameVolume with volumeLabel := some l } : EfiFs).files
      (baseFile { s.record .renameVolume with volumeLabel := some l } This)) = some F := by
    rw [baseFile_of_refs rfl]; exact hF
  exact ⟨l, hl, rfl, fun Len' Data' o hLen => fileGetInfo_fileSystemInfo_label hF' hino rfl hLen Data' o,
    fun Len' Data' o hLen => fileGetInfo_volumeLabel_label hF' hino hroot rfl hLen Data' o⟩

/-- The label `"A"` as a caller lays it out: one `CHAR16` and the terminator. -/
def labelBufferA : Mem := fullBuffer.write 0 (labelBytes (some labelA))

/-- The root of a writable volume renamed to `"A"` through `EFI_FILE_SYSTEM_VOLUME_LABEL`. -/
theorem label_round_trip_rootOpened :
    ∃ s', fileSetInfo (rootOpened false).fs 256 .volumeLabel 4 labelBufferA efiSuccess =
        .ok (s', efiSuccess) ∧
      ∃ l, strAt labelBufferA 0 4 = .ok l ∧ s'.volumeLabel = some l ∧
      (∀ (Len' : UInt64) (Data' : Mem) (o : GetInfoOracle),
        sizeOfEfiFileSystemInfo + l.size ≤ Len'.toNat → ∃ s'' D,
          fileGetInfo s' 256 .fileSystemInfo Len' Data' o =
            .ok (s'', efiSuccess, UInt64.ofNat (l.size + sizeOfEfiFileSystemInfo), D) ∧
          strAt D sizeOfEfiFileSystemInfo Len'.toNat = .ok l) ∧
      (∀ (Len' : UInt64) (Data' : Mem) (o : GetInfoOracle), Len'.toNat = l.size → ∃ D,
        fileGetInfo s' 256 .volumeLabel Len' Data' o = .ok (s', efiSuccess, UInt64.ofNat l.size, D) ∧
          strAt D 0 Len'.toNat = .ok l) :=
by
  have h : fileSetInfo (rootOpened false).fs 256 .volumeLabel 4 labelBufferA efiSuccess =
      .ok (_, efiSuccess) := rfl
  exact ⟨_, h, label_round_trip (.inr ⟨rfl, rfl⟩) h⟩

/-! ## The file name -/

/-- A path of the shape `FileOpen` gives splits at its `BaseName`: what comes before ends in
`PATH_CHAR`, and the base name holds none. -/
theorem PathShape.split {p : List UInt16} {n : Nat} (h : PathShape p n) :
    n ≤ p.length ∧ (p.take n).getLast? = some pathChar ∧ pathChar ∉ p.drop n := by
  obtain ⟨hpos, hlast⟩ := h.after_delim
  have hn : n ≤ p.length := by
    have := (List.getElem?_eq_some_iff.mp hlast).1
    omega
  refine ⟨hn, ?_, h.base_free⟩
  rw [List.getLast?_eq_getElem?, List.length_take, Nat.min_eq_left hn, List.getElem?_take_of_lt (by omega), hlast]

section Name

variable {PATH_MAX : Nat} {w : World}

/-- **`FileGetInfo` reports the value's file name.** In every reachable world, an
`EFI_FILE_INFO` that `FileGetInfo` fills with `EFI_SUCCESS` holds at `FileName` the last segment
of the value's path: the path is a prefix ending in `PATH_CHAR`, then that name, which holds no
`PATH_CHAR`. -/
theorem getInfo_reports_name (hw : Reachable PATH_MAX w) {h : Handle} (hh : h ∈ w.out)
    {Len Len' : UInt64} {Data D : Mem} {o : GetInfoOracle} {s' : EfiFs}
    (hg : fileGetInfo w.fs h.value .fileInfo Len Data o = .ok (s', efiSuccess, Len', D)) :
    ∃ (F : NtfsFile) (pre : List UInt16) (name : Str16), w.fs.files h.file = some F ∧
      w.fs.pathStr F = some (pre ++ name.units) ∧ pre.getLast? = some pathChar ∧
      pathChar ∉ name.units ∧ strAt D sizeOfEfiFileInfo Len.toNat = .ok name := by
  obtain ⟨F, hF, hbase, -⟩ := (refInv_reachable hw).decode hh
  have hF' : w.fs.files (baseFile w.fs h.value) = some F := hbase ▸ hF
  obtain ⟨buf, p, hbuf, hstr, hshape⟩ := (pathInv_reachable hw).shape _ F hF
  obtain ⟨hk, hlast, hfree⟩ := hshape.split
  have hp : w.fs.pathStr F = some p := by simp [EfiFs.pathStr, hbuf, Buf.str_eq_some_iff.mpr hstr]
  have hbn : w.fs.baseNameStr F = some (p.drop F.baseName) := by
    simp [EfiFs.baseNameStr, hbuf, Buf.str_eq_some_iff.mpr (hstr.drop hk)]
  simp only [fileGetInfo, hF', hbn] at hg
  split_ifs at hg with hino hlen he
  · cases hg
  · cases hg
  · exact absurd (Prod.mk.inj (Prod.mk.inj (Except.ok.inj hg)).2).1 (ne_success_of_efiError he)
  -- past the engine's answer: the name and its terminator at `FileName`
  obtain ⟨-, -, -, rfl⟩ : _ ∧ _ ∧ _ ∧ _ := by simpa only [Except.ok.injEq, Prod.mk.injEq] using hg
  have h0 : 0 ∉ p.drop F.baseName := fun h0 => hstr.nul_free (List.mem_of_mem_drop h0)
  refine ⟨F, p.take F.baseName, ⟨p.drop F.baseName, h0⟩, hF, by rw [List.take_append_drop]; exact hp,
    hlast, hfree, strAt_of_str16 ?_⟩
  rw [Mem.str16_write_below _ _ (by simp [sizeOfEfiFileInfo])]
  exact Mem.str16_char16Bytes _ _ h0 (by simp only [sizeOfEfiFileInfo, sizeOfChar16] at hlen ⊢; omega)

/-- `EFI_FILE_INFO` of `"a"` after its read-write open below the root: `FileName` is `"a"`. -/
theorem getInfo_reports_name_fileA :
    ∃ w : World, Reachable 8 w ∧ (⟨4096, false⟩ : Handle) ∈ w.out ∧
      ∃ r : EfiFs × UInt64 × Mem, fileGetInfo w.fs (⟨4096, false⟩ : Handle).value .fileInfo 128 fullBuffer emptyInfo =
          .ok (r.1, efiSuccess, r.2.1, r.2.2) ∧
        ∃ (F : NtfsFile) (pre : List UInt16) (name : Str16), w.fs.files 4096 = some F ∧
          w.fs.pathStr F = some (pre ++ name.units) ∧ pre.getLast? = some pathChar ∧
          pathChar ∉ name.units ∧ strAt r.2.2 sizeOfEfiFileInfo (128 : UInt64).toNat = .ok name := by
  have hw := Reachable.step (rootOpened_reachable 8 false) (.open _ ⟨256, false⟩
    (by simp [rootOpened]) nameA (efiFileModeRead ||| efiFileModeWrite) 0 fileAOracle
    (fileAOracle_sound false) rfl fileAOracle_samePath)
  obtain ⟨w, hw, hh, hg⟩ : ∃ w : World, Reachable 8 w ∧ (⟨4096, false⟩ : Handle) ∈ w.out ∧
      fileGetInfo w.fs (⟨4096, false⟩ : Handle).value .fileInfo 128 fullBuffer emptyInfo =
        .ok (_, efiSuccess, _, _) := ⟨_, hw, List.mem_cons_self _ _, rfl⟩
  exact ⟨w, hw, hh, (_, _, _), hg, getInfo_reports_name hw hh hg⟩

end Name

end UefiNtfs
