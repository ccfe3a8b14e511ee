import UefiNtfs.Enumerate

set_option autoImplicit false

/-! # Buffer sizes

`FileGetInfo` and a read of a directory fill the caller's buffer `Data` of `*Len` bytes with a
record whose size depends on a name or a label. What a caller relies on is a protocol: a
buffer too small for the record gets `EFI_BUFFER_TOO_SMALL`, `*Len` set to the size needed and
no write; a large enough one gets the record and nothing past its end (`BufferProtocol`).

`FileGetInfo` keeps to it for `EFI_FILE_INFO` and `EFI_FILE_SYSTEM_INFO`
(`getInfo_buffer_protocol`), so there a call that succeeds keeps succeeding with a larger
buffer (`getInfo_success_mono`). Its `EFI_FILE_SYSTEM_VOLUME_LABEL` branch compares the other
way round (`Size < *Len`), and `DirHook` compares `*Len` with the name alone, leaving out the
`EFI_FILE_INFO` header in front of it: both write past the end of a short buffer
(`volumeLabel_protocol_broken`, `dirRead_overruns_buffer`). A directory read whose buffer holds
every entry does keep within it (`dirRead_within_buffer`).
-/

namespace UefiNtfs

/-! ## The protocol -/

/-- The buffer protocol the spec describes, for a call whose record takes `R` bytes, from a
buffer `Data` of `Len` bytes to the status `st`, `*Len = Len'` and the buffer `Data'`.
`failure` is the error the engine answered with while the record was filled, if it did. -/
def BufferProtocol (R : Nat) (failure : Option EfiStatus) (Len : UInt64) (Data : Mem)
    (st : EfiStatus) (Len' : UInt64) (Data' : Mem) : Prop :=
  (Len.toNat < R → st = efiBufferTooSmall ∧ Len' = UInt64.ofNat R ∧ Data' = Data) ∧
  (R ≤ Len.toNat → Mem.SameFrom R Data Data' ∧
    match failure with
    | none => st = efiSuccess ∧ Len' = UInt64.ofNat R
    | some st₀ => st = st₀ ∧ efiError st₀ = true)

section Protocol

variable {R : Nat} {failure : Option EfiStatus} {Len Len' : UInt64} {Data Data' : Mem}
  {st : EfiStatus}

/-- A call that keeps to the protocol writes nothing past the caller's buffer. -/
theorem BufferProtocol.frame (hp : BufferProtocol R failure Len Data st Len' Data') :
    Mem.SameFrom Len.toNat Data Data' := by
  intro i hi
  by_cases hR : Len.toNat < R
  · rw [(hp.1 hR).2.2]
  · exact (hp.2 (Nat.le_of_not_lt hR)).1 i (by omega)

/-- Under the protocol, a buffer that was filled once is filled again at any larger size, as
long as the engine answers the same. -/
theorem BufferProtocol.success_mono {Len₂ Len₂' : UInt64} {Data₂ Data₂' : Mem} {st₂ : EfiStatus}
    (hp₁ : BufferProtocol R failure Len Data efiSuccess Len' Data')
    (hp₂ : BufferProtocol R failure Len₂ Data₂ st₂ Len₂' Data₂') (hle : Len.toNat ≤ Len₂.toNat) :
    st₂ = efiSuccess := by
  have hR : R ≤ Len.toNat := Nat.le_of_not_lt fun h => absurd (hp₁.1 h).1 (by decide)
  have h₁ := (hp₁.2 hR).2
  have h₂ := (hp₂.2 (Nat.le_trans hR hle)).2
  cases failure with
  | none => exact h₂.1
  | some st₀ => obtain ⟨rfl, h⟩ := h₁; simp at h

end Protocol

/-! ## `FileGetInfo` -/

/-- The size `R` the spec gives the record `FileGetInfo` returns for the instance
`F`: the fixed header, if any, then the base name or the volume label and its terminator;
`none` for a type it does not return. -/
def requiredSize (s : EfiFs) (F : NtfsFile) : InfoType → Option Nat
  | .fileInfo => (s.baseNameStr F).map fun bn => sizeOfEfiFileInfo + (bn.length + 1) * sizeOfChar16
  | .fileSystemInfo => some (sizeOfEfiFileSystemInfo + labelSize s.volumeLabel)
  | .volumeLabel => some (labelSize s.volumeLabel)
  | .other => none

/-- The error an information query of the engine ended with, if it did. -/
def InfoOutcome.failure : InfoOutcome → Option EfiStatus
  | .fail st => if efiError st then some st else none
  | .filled _ => none

section GetInfo

variable {s s' : EfiFs} {This : Nat} {F : NtfsFile} {Len Len' : UInt64} {Data Data' : Mem}
  {o : GetInfoOracle} {st : EfiStatus}

theorem fileGetInfo_fileInfo (hF : s.files (baseFile s This) = some F) (hino : F.ntfsInode = true)
    (h : fileGetInfo s This .fileInfo Len Data o = .ok (s', st, Len', Data')) :
    ∃ R, requiredSize s F .fileInfo = some R ∧
      BufferProtocol R (o.info 0 F.isDir).failure Len Data st Len' Data' := by
  cases hbn : s.baseNameStr F with
  | none => simp [fileGetInfo, hF, hino, hbn] at h
  | some bn =>
    have hlen := char16Bytes_length bn
    refine ⟨sizeOfEfiFileInfo + (bn.length + 1) * sizeOfChar16, by simp [requiredSize, hbn],
      fun hlt => ?_, fun hge => ?_⟩
    · -- the record does not fit
      simp only [fileGetInfo, hF, hino, hbn, Bool.not_true, Bool.false_eq_true, if_false, if_pos hlt,
        Except.ok.injEq, Prod.mk.injEq] at h
      obtain ⟨-, rfl, rfl, rfl⟩ := h
      exact ⟨rfl, rfl, rfl⟩
    · -- the header, the engine's fields, then the name and `Size`
      have hhead : Mem.SameFrom (sizeOfEfiFileInfo + (bn.length + 1) * sizeOfChar16) Data
          (Data.write 0 (List.replicate sizeOfEfiFileInfo 0)) :=
        (Mem.SameFrom.refl _ _).write (by simp)
      have htail : ∀ D, Mem.SameFrom (sizeOfEfiFileInfo + (bn.length + 1) * sizeOfChar16) Data D →
          Mem.SameFrom (sizeOfEfiFileInfo + (bn.length + 1) * sizeOfChar16) Data
            ((D.write sizeOfEfiFileInfo (char16Bytes bn ++ leBytes 2 0)).write 0
              (leBytes 8 ((bn.length + 1) * sizeOfChar16 + sizeOfEfiFileInfo))) :=
        fun D hD => (hD.write (by simp [hlen, sizeOfChar16]; omega)).write
          (by simp only [leBytes_length, Nat.zero_add, sizeOfEfiFileInfo]; omega)
      simp only [fileGetInfo, hF, hino, hbn, Bool.not_true, Bool.false_eq_true, if_false,
        if_neg (Nat.not_lt_of_le hge)] at h
      cases ho : o.info 0 F.isDir with
      | filled fields =>
        simp only [ho, ntfsGetFileInfo, efiError_success, Bool.false_eq_true, if_false,
          Except.ok.injEq, Prod.mk.injEq] at h
        obtain ⟨-, rfl, rfl, rfl⟩ := h
        exact ⟨htail _ (hhead.write (by simp [sizeOfEfiFileInfo]; omega)), rfl, by rw [Nat.add_comm]⟩
      | fail st₀ =>
        cases he : efiError st₀ <;>
          simp only [ho, ntfsGetFileInfo, he, InfoOutcome.failure, Bool.false_eq_true, if_false,
            if_true, Except.ok.injEq, Prod.mk.injEq] at h ⊢ <;>
          obtain ⟨-, rfl, rfl, rfl⟩ := h
        · exact ⟨htail _ hhead, rfl, by rw [Nat.add_comm]⟩
        · exact ⟨hhead, rfl, trivial⟩

theorem fileGetInfo_fileSystemInfo (hF : s.files (baseFile s This) = some F)
    (hino : F.ntfsInode = true)
    (h : fileGetInfo s This .fileSystemInfo Len Data o = .ok (s', st, Len', Data')) :
    ∃ R, requiredSize s F .fileSystemInfo = some R ∧ BufferProtocol R none Len Data st Len' Data' := by
  have hl := sizeOfChar16_le_labelSize s.volumeLabel
  refine ⟨_, rfl, fun hlt => ?_, fun hge => ?_⟩
  · simp only [fileGetInfo, hF, hino, Bool.not_true, Bool.false_eq_true, if_false, if_pos hlt,
      Except.ok.injEq, Prod.mk.injEq] at h
    obtain ⟨-, rfl, rfl, rfl⟩ := h
    exact ⟨rfl, rfl, rfl⟩
  · simp only [fileGetInfo, hF, hino, Bool.not_true, Bool.false_eq_true, if_false,
      if_neg (Nat.not_lt_of_le hge), ntfsGetVolumeFreeSpace, Except.ok.injEq, Prod.mk.injEq] at h
    obtain ⟨-, rfl, rfl, rfl⟩ := h
    refine ⟨?_, rfl, by rw [Nat.add_comm]⟩
    -- the fixed fields lie below `VolumeLabel`, the label from it on
    split <;> repeat (first | exact Mem.SameFrom.refl _ _ | refine Mem.SameFrom.write ?_ ?_)
    all_goals simp only [List.length_replicate, List.length_singleton, leBytes_length,
      labelBytes_length, EfiFs.record_volumeLabel, sizeOfEfiFileSystemInfo, sizeOfChar16] at hl ⊢
    all_goals omega

/-- `FileGetInfo` for `EFI_FILE_INFO` or `EFI_FILE_SYSTEM_INFO` keeps to the buffer protocol. -/
theorem fileGetInfo_protocol {t : InfoType} (hF : s.files (baseFile s This) = some F)
    (hino : F.ntfsInode = true) (ht : t = .fileInfo ∨ t = .fileSystemInfo)
    (h : fileGetInfo s This t Len Data o = .ok (s', st, Len', Data')) :
    ∃ R, requiredSize s F t = some R ∧
      BufferProtocol R (if t = .fileInfo then (o.info 0 F.isDir).failure else none)
        Len Data st Len' Data' := by
  rcases ht with rfl | rfl
  · exact fileGetInfo_fileInfo hF hino h
  · exact fileGetInfo_fileSystemInfo hF hino h

/-- **`FileGetInfo` keeps to the buffer protocol** for `EFI_FILE_INFO` and
`EFI_FILE_SYSTEM_INFO`: a buffer smaller than the record gets `EFI_BUFFER_TOO_SMALL`, `*Len` the
record's size and no write; a large enough one gets nothing past the record and, unless the
engine's information query fails, `EFI_SUCCESS` with `*Len` the record's size. Either way
nothing past the caller's buffer changes. -/
theorem getInfo_buffer_protocol {t : InfoType} (hF : s.files (baseFile s This) = some F)
    (hino : F.ntfsInode = true) (ht : t = .fileInfo ∨ t = .fileSystemInfo)
    (h : fileGetInfo s This t Len Data o = .ok (s', st, Len', Data')) :
    ∃ R, requiredSize s F t = some R ∧
      BufferProtocol R (if t = .fileInfo then (o.info 0 F.isDir).failure else none)
        Len Data st Len' Data' ∧
      Mem.SameFrom Len.toNat Data Data' := by
  obtain ⟨R, hR, hp⟩ := fileGetInfo_protocol hF hino ht h
  exact ⟨R, hR, hp, hp.frame⟩

/-- The engine's answer to every information query in the examples: no fields, no free space. -/
def emptyInfo : GetInfoOracle := ⟨fun _ _ => .filled [], 0⟩

/-- A caller's buffer before the call, every byte `0xFF`. -/
def fullBuffer : Mem := fun _ => 0xFF

/-- `EFI_FILE_SYSTEM_INFO` of the root, into a buffer of 10 bytes. -/
theorem getInfo_buffer_protocol_rootOpened :
    ∃ F, (rootOpened false).fs.files 256 = some F ∧
      ∃ r, fileGetInfo (rootOpened false).fs 256 .fileSystemInfo 10 fullBuffer emptyInfo = .ok r ∧
        ∃ R, requiredSize (rootOpened false).fs F .fileSystemInfo = some R ∧
          BufferProtocol R none 10 fullBuffer r.2.1 r.2.2.1 r.2.2.2 ∧
          Mem.SameFrom 10 fullBuffer r.2.2.2 := by
  have hF : (rootOpened false).fs.files (baseFile (rootOpened false).fs 256) = some _ := rfl
  have h : fileGetInfo (rootOpened false).fs 256 .fileSystemInfo 10 fullBuffer emptyInfo =
      .ok (_, _, _, _) := rfl
  exact ⟨_, hF, _, h, getInfo_buffer_protocol hF rfl (.inr rfl) h⟩

/-- **Success is monotone in `*Len`** for `EFI_FILE_INFO` and `EFI_FILE_SYSTEM_INFO`: once a
call succeeds, the same call with a buffer at least as large succeeds too. -/
theorem getInfo_success_mono {t : InfoType} {Len₂ Len₁' Len₂' : UInt64} {Data₂ Data₁' Data₂' : Mem}
    {s₁ s₂ : EfiFs} {st₂ : EfiStatus} (hF : s.files (baseFile s This) = some F)
    (hino : F.ntfsInode = true) (ht : t = .fileInfo ∨ t = .fileSystemInfo)
    (h₁ : fileGetInfo s This t Len Data o = .ok (s₁, efiSuccess, Len₁', Data₁'))
    (h₂ : fileGetInfo s This t Len₂ Data₂ o = .ok (s₂, st₂, Len₂', Data₂'))
    (hle : Len.toNat ≤ Len₂.toNat) : st₂ = efiSuccess := by
  obtain ⟨R, hR, hp₁⟩ := fileGetInfo_protocol hF hino ht h₁
  obtain ⟨R₂, hR₂, hp₂⟩ := fileGetInfo_protocol hF hino ht h₂
  obtain rfl : R = R₂ := Option.some.inj (hR.symm.trans hR₂)
  exact hp₁.success_mono hp₂ hle

/-- `EFI_FILE_SYSTEM_INFO` of the root fits in 40 bytes, and so in 100. -/
theorem getInfo_success_mono_rootOpened :
    ∃ r₁ r₂, fileGetInfo (rootOpened false).fs 256 .fileSystemInfo 40 fullBuffer emptyInfo = .ok r₁ ∧
      fileGetInfo (rootOpened false).fs 256 .fileSystemInfo 100 fullBuffer emptyInfo = .ok r₂ ∧
      r₁.2.1 = efiSuccess ∧ r₂.2.1 = efiSuccess := by
  have hF : (rootOpened false).fs.files (baseFile (rootOpened false).fs 256) = some _ := rfl
  have h₁ : fileGetInfo (rootOpened false).fs 256 .fileSystemInfo 40 fullBuffer emptyInfo =
      .ok (_, efiSuccess, _, _) := rfl
  have h₂ : fileGetInfo (rootOpened false).fs 256 .fileSystemInfo 100 fullBuffer emptyInfo =
      .ok (_, _, _, _) := rfl
  exact ⟨_, _, h₁, h₂, rfl, getInfo_success_mono hF rfl (.inr rfl) h₁ h₂ (by decide)⟩

end GetInfo

/-- The label `"A"`. -/
def labelA : Str16 := ⟨[0x41], by decide⟩

/-- A writable volume labelled `"A"` whose root the firmware has just opened. -/
def labelledRoot : World :=
  ⟨(fileOpenVolume (EfiFs.init false (some labelA) ⟨512, 0⟩ none) rootOracle).1, [⟨256, false⟩]⟩

theorem labelledRoot_reachable : Reachable 8 labelledRoot :=
  .step (.init _ _ _ _) (.openVolume _ rootOracle (rootOracle_sound false _) rfl trivial)

/-- **The volume label branch breaks the protocol.** The label `"A"` with its terminator takes 4
bytes. A buffer of 2 bytes receives all 4 (byte 2 is overwritten) with `EFI_SUCCESS`; buffers
of 5 and 6 bytes, large enough, get `EFI_BUFFER_TOO_SMALL`; a buffer of 1 byte gets
`EFI_BUFFER_TOO_SMALL` with `*Len` left at 1. So success is not monotone either: 4 bytes
succeed, 5 do not. -/
theorem volumeLabel_protocol_broken (o : GetInfoOracle) :
    Reachable 8 labelledRoot ∧ ⟨256, false⟩ ∈ labelledRoot.out ∧
    labelSize labelledRoot.fs.volumeLabel = 4 ∧
    (∃ s' Data', fileGetInfo labelledRoot.fs 256 .volumeLabel 2 fullBuffer o =
      .ok (s', efiSuccess, 4, Data') ∧ Data' 2 = 0) ∧
    (∃ s' Data', fileGetInfo labelledRoot.fs 256 .volumeLabel 6 fullBuffer o =
      .ok (s', efiBufferTooSmall, 4, Data')) ∧
    (∃ s' Data', fileGetInfo labelledRoot.fs 256 .volumeLabel 1 fullBuffer o =
      .ok (s', efiBufferTooSmall, 1, Data')) ∧
    (∃ s' Data', fileGetInfo labelledRoot.fs 256 .volumeLabel 4 fullBuffer o =
      .ok (s', efiSuccess, 4, Data')) ∧
    (∃ s' Data', fileGetInfo labelledRoot.fs 256 .volumeLabel 5 fullBuffer o =
      .ok (s', efiBufferTooSmall, 4, Data')) :=
  ⟨labelledRoot_reachable, by decide, rfl, ⟨_, _, rfl, rfl⟩, ⟨_, _, rfl⟩, ⟨_, _, rfl⟩, ⟨_, _, rfl⟩,
    ⟨_, _, rfl⟩⟩

/-! ## Directory reads -/

/-- **A directory read whose buffer holds every entry keeps within it.** With names shorter
than 256 units, every listed entry's record no larger than `*Len`, the engine's information
query succeeding and room for `Size`, a read returns the next listed entry or the end of the
directory, sets `*Len` to no more than the buffer holds, and writes nothing past the buffer. -/
theorem dirRead_within_buffer {s : EfiFs} {This : Nat} {F : NtfsFile} {Len : UInt64} {Data : Mem}
    {o : ReadOracle} (hF : s.files (baseFile s This) = some F) (hdir : F.isDir = true)
    (hino : F.ntfsInode = true)
    (hbig : ∀ x ∈ o.entries, listed x = true → x.name.length < 256 ∧ x.infoSize ≤ Len.toNat)
    (hinfo : ∀ m d, ∃ fields, o.info m d = .filled fields) (h8 : sizeOfUintn ≤ Len.toNat) :
    ∃ s' st Len' Data', fileRead s This Len Data o = .ok (s', st, Len', Data') ∧
      ReadReturns st Len' Data' ((o.entries.drop F.dirPos).filter listed).head? ∧
      Len'.toNat ≤ Len.toNat ∧ Mem.SameFrom Len.toNat Data Data' := by
  obtain ⟨s', st, Len', Data', -, hr, hret, hsame, -⟩ :=
    @fileReadDir_next s _ F Len Data _ _ hF hbig hinfo
  refine ⟨s', st, Len', Data', (fileRead_dir hF hdir hino).trans hr, hret, ?_,
    hsame.mono (Nat.max_le.mpr ⟨h8, Nat.le_refl _⟩)⟩
  -- `*Len` is `0` at the end of the directory, the entry's record size otherwise
  cases he : ((o.entries.drop F.dirPos).filter listed).head? with
  | none => rw [he] at hret; simp [hret.2]
  | some e =>
    rw [he] at hret
    have hmem := List.mem_filter.mp (List.mem_of_mem_head? he)
    rw [hret.2.1]
    exact (hbig e (List.mem_of_mem_drop hmem.1) hmem.2).2

/-- A read of the root, listing `sampleDir`, into a buffer of 100 bytes. -/
theorem dirRead_within_buffer_sampleDir :
    ∃ F, (rootOpened false).fs.files 256 = some F ∧
      ∃ s' st Len' Data', fileRead (rootOpened false).fs 256 100 fullBuffer sampleDir =
          .ok (s', st, Len', Data') ∧
        ReadReturns st Len' Data' ((sampleDir.entries.drop F.dirPos).filter listed).head? ∧
        Len'.toNat ≤ 100 ∧ Mem.SameFrom 100 fullBuffer Data' :=
  ⟨_, rfl, dirRead_within_buffer rfl rfl rfl (by decide) (fun _ _ => ⟨[], rfl⟩) (by decide)⟩

/-- A directory holding one entry, `"a"`. -/
def oneEntryDir : ReadOracle :=
  { entries := [⟨[0x61], 64, 1⟩]
    info := fun _ _ => .filled []
    io := ⟨efiSuccess, []⟩ }

/-- **`DirHook` overruns a short buffer.** The record of `"a"` takes
`SIZE_OF_EFI_FILE_INFO + 4 = 84` bytes. A read of the root into a buffer of 4 bytes, room for
the name alone, returns the entry with `EFI_SUCCESS` and `*Len = 84`, its name written at byte
80. A read into a buffer of 1 byte returns `EFI_BUFFER_TOO_SMALL`, but `FileReadDir` has
already stored `Size` into bytes 0 to 7. -/
theorem dirRead_overruns_buffer :
    Reachable 8 (rootOpened false) ∧ ⟨256, false⟩ ∈ (rootOpened false).out ∧
    (∃ s' Data', fileRead (rootOpened false).fs 256 4 fullBuffer oneEntryDir =
      .ok (s', efiSuccess, 84, Data') ∧ Data' 80 = 0x61) ∧
    (∃ s' Data', fileRead (rootOpened false).fs 256 1 fullBuffer oneEntryDir =
      .ok (s', efiBufferTooSmall, 1, Data') ∧ Data' 1 = 0) :=
  ⟨rootOpened_reachable 8 false, by decide, ⟨_, _, rfl, rfl⟩, ⟨_, _, rfl, rfl⟩⟩

end UefiNtfs
