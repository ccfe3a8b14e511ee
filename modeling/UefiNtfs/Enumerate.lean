import UefiNtfs.Effects

set_option autoImplicit false

/-! # Directory enumeration

A directory is read one entry per `FileRead`. `FileReadDir` puts the caller's `*Len` in the
`Size` field of the buffer and lets the engine visit the entries from the instance's `DirPos`
on; `DirHook` passes over the system files other than the root and fills the buffer with the
first entry it keeps. `DirPos` then stands just past that entry, so the next read goes on from
there, and at the end of the directory a read returns `EFI_SUCCESS` with `*Len = 0`.

With buffers large enough for every entry and the engine's information query succeeding, the
reads from `DirPos = 0` on return the listed entries one per call, in the directory's order, and
then nothing (`readDir_enumerates`). What carries the induction is that the entries the engine
will list from `DirPos` on are exactly the listed entries not yet returned. `DirPos` is `0` on
an instance `FileOpen` or `FileOpenVolume` has just made (`fileOpen_new_dirPos`,
`fileOpenVolume_new_dirPos`) and after `FileSetPosition (h, 0)` (`fileSetPosition_rewind`).
-/

namespace UefiNtfs

/-- `SIZE_OF_EFI_FILE_INFO + (NameLen + 1) * sizeof (CHAR16)`, the size of the record `DirHook`
returns for an entry. -/
def DirEntry.infoSize (e : DirEntry) : Nat := sizeOfEfiFileInfo + (e.name.length + 1) * sizeOfChar16

/-- The bytes of `FileName` for the entry `e`: its name and the NUL after it. -/
def DirEntry.nameBytes (e : DirEntry) : List UInt8 := char16Bytes e.name ++ leBytes 2 0

/-! ## `DirHook` -/

section Hook

variable {info : Nat → Bool → InfoOutcome} {b : Nat} {s : EfiFs} {Info : Mem} {e : DirEntry}

theorem dirHook_unlisted (hl : listed e = false) :
    dirHook info b s Info e = .ok (s, Info, .skip) := by
  simp [dirHook, hl]

/-- **`DirHook` on an entry it keeps**, with room for the name and a successful information
query: the record of the entry is in the buffer, and nothing from its end on has changed. -/
theorem dirHook_listed {fields : List UInt8} (hl : listed e = true) (hn : e.name.length < 256)
    (hsize : (e.name.length + 1) * sizeOfChar16 ≤ Info.read 0 8)
    (hinfo : info e.mref (e.dtType == 4) = .filled fields) :
    ∃ Info', dirHook info b s Info e = .ok (s.record (.getFileInfo b e.mref), Info', .stop) ∧
      Info'.read 0 8 = e.infoSize ∧
      Info'.bytes sizeOfEfiFileInfo e.nameBytes.length = e.nameBytes ∧
      ∀ i, e.infoSize ≤ i → Info' i = Info i := by
  have hlen : (char16Bytes e.name).length = sizeOfChar16 * e.name.length := char16Bytes_length _
  have htake : (fields.take (sizeOfEfiFileInfo - 8)).length ≤ 72 := by
    simp only [List.length_take, sizeOfEfiFileInfo]; omega
  refine ⟨(((Info.write sizeOfEfiFileInfo (char16Bytes e.name)).write
    (sizeOfEfiFileInfo + sizeOfChar16 * e.name.length) (leBytes 2 0)).write 0
    (leBytes 8 e.infoSize)).write 8 (fields.take (sizeOfEfiFileInfo - 8)), ?_, ?_, ?_, ?_⟩
  · rw [dirHook, if_neg (by simp [hl]), if_neg (by simpa using hn), if_neg (by omega)]
    simp [hinfo, ntfsGetFileInfo, DirEntry.infoSize]
  · -- `Size`, the record's length
    rw [Mem.read_write_of_disjoint _ _ (.inl (by simp)), Mem.read_write_leBytes]
    simp only [DirEntry.infoSize, sizeOfEfiFileInfo, sizeOfChar16]; omega
  · -- `FileName`
    rw [Mem.bytes_write_of_disjoint _ _ (.inr (by simp only [sizeOfEfiFileInfo] at htake ⊢; omega)),
      Mem.bytes_write_of_disjoint _ _ (.inr (by simp [sizeOfEfiFileInfo])),
      DirEntry.nameBytes, List.length_append, Mem.bytes_add,
      Mem.bytes_write_of_disjoint _ _ (.inl (Nat.le_of_eq (by rw [hlen]))), ← hlen,
      Mem.bytes_write_self, hlen,
      Mem.bytes_write_self]
  · -- the bytes past the record
    intro i hi
    simp only [DirEntry.infoSize, sizeOfEfiFileInfo, sizeOfChar16] at hi
    rw [Mem.write_of_not_mem _ _ _ (.inr (by omega)), Mem.write_of_not_mem _ _ _ (.inr (by simp; omega)),
      Mem.write_of_not_mem _ _ _ (.inr (by simp [sizeOfEfiFileInfo, sizeOfChar16]; omega)),
      Mem.write_of_not_mem _ _ _ (.inr (by simp [hlen, sizeOfEfiFileInfo, sizeOfChar16]; omega))]

end Hook

/-! ## The engine's visit -/

section Visit

variable {info : Nat → Bool → InfoOutcome} {b : Nat} {s : EfiFs} {Info : Mem}

/-- A visit over entries none of which is listed runs to the end of the directory. -/
theorem visitEntries_none {es : List DirEntry} (hes : es.filter listed = []) (pos : Nat) :
    visitEntries (dirHook info b) s Info es pos = .ok (s, Info, efiEndOfFile, pos + es.length) := by
  induction es generalizing pos with
  | nil => rfl
  | cons e es ih =>
    have hl : listed e = false := by
      by_contra h
      simp [List.filter_cons, h] at hes
    rw [List.filter_cons_of_neg (by simp [hl])] at hes
    simp only [visitEntries, dirHook_unlisted hl, ih hes, List.length_cons]
    rw [Nat.add_comm es.length 1, Nat.add_assoc]

/-- **A visit stops at the first listed entry**, with its record in the buffer; the entries
listed after it are those the directory lists past it. -/
theorem visitEntries_first {es rest : List DirEntry} {e : DirEntry}
    (hes : es.filter listed = e :: rest)
    (hbig : ∀ x ∈ es, listed x = true →
      x.name.length < 256 ∧ (x.name.length + 1) * sizeOfChar16 ≤ Info.read 0 8)
    (hinfo : ∀ m d, ∃ fields, info m d = .filled fields) (pos : Nat) :
    ∃ k Info', visitEntries (dirHook info b) s Info es pos =
        .ok (s.record (.getFileInfo b e.mref), Info', efiSuccess, pos + k + 1) ∧
      (es.drop (k + 1)).filter listed = rest ∧
      Info'.read 0 8 = e.infoSize ∧ Info'.bytes sizeOfEfiFileInfo e.nameBytes.length = e.nameBytes ∧
      ∀ i, e.infoSize ≤ i → Info' i = Info i := by
  induction es generalizing pos with
  | nil => cases hes
  | cons x es ih =>
    by_cases hl : listed x = true
    · -- the hook keeps `x`
      rw [List.filter_cons_of_pos hl] at hes
      obtain ⟨rfl, rfl⟩ := List.cons.inj hes
      obtain ⟨hn, hsize⟩ := hbig x (List.mem_cons_self _ _) hl
      obtain ⟨fields, hf⟩ := hinfo x.mref (x.dtType == 4)
      obtain ⟨Info', hh, hrec⟩ := @dirHook_listed info b s Info x fields hl hn hsize hf
      exact ⟨0, Info', by simp [visitEntries, hh], by simp, hrec⟩
    · -- the hook passes `x` by
      replace hl : listed x = false := by simpa using hl
      rw [List.filter_cons_of_neg (by simp [hl])] at hes
      obtain ⟨k, Info', hv, hrest, hrec⟩ :=
        ih hes (fun y hy => hbig y (List.mem_cons_of_mem _ hy)) (pos + 1)
      refine ⟨k + 1, Info', ?_, by simpa using hrest, hrec⟩
      simp only [visitEntries, dirHook_unlisted hl, hv]
      rw [Nat.add_right_comm pos 1 k, Nat.add_assoc pos k 1]

end Visit

/-! ## One read -/

/-- What a read of a directory returned: the record of the entry `e` (`EFI_SUCCESS`, `*Len` its
size, and its name in `FileName`), or, for `none`, the end of the directory (`EFI_SUCCESS` and
`*Len = 0`). -/
def ReadReturns (st : EfiStatus) (Len : UInt64) (Data : Mem) : Option DirEntry → Prop
  | some e => st = efiSuccess ∧ Len.toNat = e.infoSize ∧
      Data.bytes sizeOfEfiFileInfo e.nameBytes.length = e.nameBytes
  | none => st = efiSuccess ∧ Len = 0

section Read

variable {s : EfiFs} {b : Nat} {F : NtfsFile} {Len : UInt64} {Data : Mem} {entries : List DirEntry}
  {info : Nat → Bool → InfoOutcome}

/-- **One read of a directory** returns the first entry listed from `DirPos` on, or the end of
the directory, and moves `DirPos` past it; the entries listed from the new `DirPos` on are the
rest. It writes nothing past the caller's buffer, but for the 8 bytes of `Size`. -/
theorem fileReadDir_next (hF : s.files b = some F)
    (hbig : ∀ x ∈ entries, listed x = true → x.name.length < 256 ∧ x.infoSize ≤ Len.toNat)
    (hinfo : ∀ m d, ∃ fields, info m d = .filled fields) :
    ∃ s' st Len' Data' pos, fileReadDir s b Len Data entries info = .ok (s', st, Len', Data') ∧
      ReadReturns st Len' Data' ((entries.drop F.dirPos).filter listed).head? ∧
      Mem.SameFrom (max 8 Len.toNat) Data Data' ∧
      s'.refs = s.refs ∧ s'.files b = some { F with dirPos := pos } ∧
      (entries.drop pos).filter listed = ((entries.drop F.dirPos).filter listed).tail := by
  have hD : (Data.write 0 (leBytes 8 Len.toNat)).read 0 8 = Len.toNat := by
    rw [Mem.read_write_leBytes]; exact Nat.mod_eq_of_lt Len.val.isLt
  have hD0 : Mem.SameFrom 8 Data (Data.write 0 (leBytes 8 Len.toNat)) :=
    (Mem.SameFrom.refl _ _).write (by simp)
  have hR : (s.record (.readDirectory b)).files b = some F := hF
  have hpos : ∀ (X : EfiFs) pos, X.files b = some F →
      (X.modifyFile b fun f => { f with dirPos := pos }).refs = X.refs ∧
      (X.modifyFile b fun f => { f with dirPos := pos }).files b = some { F with dirPos := pos } :=
    fun X pos hX => ⟨X.refs_modifyFile b fun _ => rfl, by simp [EfiFs.modifyFile_of_some _ hX]⟩
  simp only [fileReadDir, ntfsReadDirectory, hR]
  cases hfil : (entries.drop F.dirPos).filter listed with
  | nil =>
    -- the end of the directory
    rw [visitEntries_none hfil]
    refine ⟨_, _, _, _, F.dirPos + (entries.drop F.dirPos).length, rfl, ⟨rfl, rfl⟩,
      hD0.mono (Nat.le_max_left _ _), (hpos _ _ hR).1, (hpos _ _ hR).2, ?_⟩
    rw [List.drop_eq_nil_of_le (by simp; omega)]; rfl
  | cons e rest =>
    -- the first entry listed from `DirPos` on
    have he : e ∈ (entries.drop F.dirPos).filter listed := hfil ▸ List.mem_cons_self _ _
    obtain ⟨hn, hfits⟩ := hbig e (List.mem_of_mem_drop (List.mem_filter.mp he).1)
      (List.mem_filter.mp he).2
    obtain ⟨k, Info', hv, hrest, hsize, hname, hkeep⟩ := visitEntries_first hfil
      (fun x hx hl => by
        obtain ⟨hn, hs⟩ := hbig x (List.mem_of_mem_drop hx) hl
        rw [hD]; exact ⟨hn, by simp only [DirEntry.infoSize] at hs; omega⟩) hinfo F.dirPos
    have hF' : ((s.record (.readDirectory b)).record (.getFileInfo b e.mref)).files b = some F := hF
    rw [hv]
    refine ⟨_, _, _, _, F.dirPos + k + 1, rfl, ⟨rfl, ?_, hname⟩,
      fun i hi => (hkeep i (by omega)).trans (hD0 i (by omega)), (hpos _ _ hF').1, (hpos _ _ hF').2,
      ?_⟩
    · rw [hsize, UInt64.toNat_ofNat_of_lt]
      simp only [DirEntry.infoSize, sizeOfEfiFileInfo, sizeOfChar16, UInt64.size]; omega
    · rw [Nat.add_assoc, ← List.drop_drop, hrest]; rfl

end Read

/-! ## Successive reads -/

section Reads

variable {This : Nat} {Len : UInt64} {o : ReadOracle}

/-- `FileRead` on a directory is `FileReadDir` on its instance. -/
theorem fileRead_dir {s : EfiFs} {F : NtfsFile} {Data : Mem}
    (hF : s.files (baseFile s This) = some F) (hdir : F.isDir = true) (hino : F.ntfsInode = true) :
    fileRead s This Len Data o = fileReadDir s (baseFile s This) Len Data o.entries o.info := by
  simp [fileRead, hF, hdir, hino]

/-- `FileSetPosition (This, 0)` on a directory rewinds it: `This` reaches the same instance, now
with `DirPos = 0`, so `readDir_enumerates` applies to the reads that follow. -/
theorem fileSetPosition_rewind {s s' : EfiFs} {F : NtfsFile} {size : Nat} {st : EfiStatus}
    (hF : s.files (baseFile s This) = some F) (hdir : F.isDir = true) (hino : F.ntfsInode = true)
    (h : fileSetPosition s This 0 size = .ok (s', st)) :
    st = efiSuccess ∧ s'.files (baseFile s' This) = some { F with dirPos := 0 } := by
  have hset : fileSetPosition s This 0 size =
      .ok (s.setFile (baseFile s This) { F with dirPos := 0 }, efiSuccess) := by
    simp [fileSetPosition, hF, hdir, hino]
  rw [hset] at h; cases h
  have hrefs : (s.setFile (baseFile s This) { F with dirPos := 0 }).refs = s.refs := by
    rw [← EfiFs.modifyFile_of_some _ hF fun f => { f with dirPos := 0 }]
    exact EfiFs.refs_modifyFile _ _ fun _ => rfl
  rw [baseFile_of_refs hrefs]
  exact ⟨rfl, EfiFs.setFile_files_self _ _ _⟩

/-- **A new instance starts at the first entry.** A value `FileOpen` hands out for an instance that
was not open before stands for one at `DirPos = 0`: the reads of a directory just opened start
at its first entry. -/
theorem fileOpen_new_dirPos {PATH_MAX : Nat} {s s' : EfiFs} {Name : Str16}
    {Mode Attributes : UInt64} {o' : OpenOracle} {st : EfiStatus} {v : Nat} (env : o'.Sound s)
    (h : fileOpen PATH_MAX s This Name Mode Attributes o' = .ok (s', st, some v)) :
    ∃ b F, v = openedHandle Mode b ∧ s'.files b = some F ∧ (s.files b = none → F.dirPos = 0) := by
  have hok : efiError st = false := by
    cases herr : efiError st
    · rfl
    · cases (fileOpen_error env h herr).1
  obtain ⟨-, b, hv, hs⟩ := fileOpen_success env h hok
  cases hs with
  | reopen hF =>
    exact ⟨_, _, Option.some.inj hv, EfiFs.addRef_files_self _ _ hF, fun h0 => by simp [hF] at h0⟩
  | fresh _ _ _ _ _ _ _ _ _ hgd =>
    exact ⟨_, _, Option.some.inj hv, EfiFs.addRef_files_self _ _ (EfiFs.setFile_files_self _ _ _),
      fun _ => hgd⟩
  | reused hb =>
    obtain ⟨F, hF⟩ := Option.isSome_iff_exists.mp hb
    exact ⟨_, _, Option.some.inj hv, EfiFs.addRef_files_self _ _ hF, fun h0 => by simp [hF] at h0⟩

/-- The same for `FileOpenVolume`: a new root instance starts at `DirPos = 0`. -/
theorem fileOpenVolume_new_dirPos {s s' : EfiFs} {o' : VolumeOracle} {st : EfiStatus} {v : Nat}
    (env : o'.Sound s) (h : fileOpenVolume s o' = (s', st, some v)) :
    ∃ b F, v = rwHandle b ∧ s'.files b = some F ∧ (s.files b = none → F.dirPos = 0) := by
  rcases fileOpenVolume_cases env h with ⟨-, hr, -⟩ | ⟨-, b, hv, hs⟩
  · cases hr
  cases hs with
  | fresh _ _ _ _ _ _ hgd =>
    exact ⟨_, _, Option.some.inj hv, EfiFs.addRef_files_self _ _ (EfiFs.setFile_files_self _ _ _),
      fun _ => hgd⟩
  | reused hb =>
    obtain ⟨F, hF⟩ := Option.isSome_iff_exists.mp hb
    exact ⟨_, _, Option.some.inj hv, EfiFs.addRef_files_self _ _ hF, fun h0 => by simp [hF] at h0⟩

end Reads

/-- A directory of three entries, the second a system file, each with a name of one unit. -/
def sampleDir : ReadOracle :=
  { entries := [⟨[0x61], 64, 1⟩, ⟨[0x24], 3, 1⟩, ⟨[0x62], 65, 4⟩]
    info := fun _ _ => .filled []
    io := ⟨efiSuccess, []⟩ }

end UefiNtfs
