import UefiNtfs.Run

set_option autoImplicit false

/-! # What the access calls change

`FileRead`, `FileWrite`, `FileSetPosition`, `FileGetPosition`, `FileGetInfo`, `FileSetInfo` and
`FileFlush` act on an open instance without handing out or taking back a value. This module says
once what such a call can change (`AccessFrame`): the positions of instances, the volume label
and the log, where on a read-only volume the log receives no primitive that writes. An invariant
of the other fields is then kept by all seven calls at once (`Access.run_frame`).

The proof goes primitive by primitive, then call by call; the directory read is an induction
over the entries the engine visits.
-/

namespace UefiNtfs

/-- Calls that, on a read-only volume, include no primitive that writes. -/
def Quiet (s : EfiFs) (calls : List Call) : Prop :=
  s.readOnly = true → ∀ c ∈ calls, c.writes = false

theorem quiet_nil (s : EfiFs) : Quiet s [] := fun _ _ h => by simp at h

/-- The log grows by calls that, on a read-only volume, include no primitive that writes. -/
def LogExt (s s' : EfiFs) : Prop := ∃ calls, s'.log = s.log ++ calls ∧ Quiet s calls

namespace LogExt

variable {s s' s'' : EfiFs}

theorem of_writes {calls : List Call} (h : s'.log = s.log ++ calls)
    (hc : ∀ c ∈ calls, c.writes = false) : LogExt s s' :=
  ⟨calls, h, fun _ => hc⟩

theorem of_log (h : s'.log = s.log) : LogExt s s' := ⟨[], by simp [h], quiet_nil _⟩

theorem refl (s : EfiFs) : LogExt s s := of_log rfl

theorem trans (h₁ : LogExt s s') (h₂ : LogExt s' s'') (hro : s'.readOnly = s.readOnly) :
    LogExt s s'' := by
  obtain ⟨c₁, e₁, w₁⟩ := h₁
  obtain ⟨c₂, e₂, w₂⟩ := h₂
  refine ⟨c₁ ++ c₂, by rw [e₂, e₁, List.append_assoc], fun h c hc => ?_⟩
  rcases List.mem_append.mp hc with hc | hc
  · exact w₁ h c hc
  · exact w₂ (hro ▸ h) c hc

theorem record {c : Call} (hc : s.readOnly = true → c.writes = false) : LogExt s (s.record c) :=
  ⟨[c], rfl, by simpa [Quiet] using hc⟩

end LogExt

/-- An instance without its positions (`Offset`, `DirPos`), the fields access calls move. -/
def NtfsFile.fixed (f : NtfsFile) : NtfsFile := { f with offset := 0, dirPos := 0 }

/-- What an access call may change: the positions of instances, the volume label and the log;
on a read-only volume it logs no primitive that writes. -/
structure AccessFrame (s s' : EfiFs) : Prop where
  files : ∀ b, (s'.files b).map NtfsFile.fixed = (s.files b).map NtfsFile.fixed
  pool : s'.pool = s.pool
  totalRefCount : s'.totalRefCount = s.totalRefCount
  mounted : s'.mounted = s.mounted
  readOnly : s'.readOnly = s.readOnly
  log : LogExt s s'

namespace AccessFrame

variable {s s' s'' : EfiFs}

theorem refl (s : EfiFs) : AccessFrame s s :=
  ⟨fun _ => rfl, rfl, rfl, rfl, rfl, .refl s⟩

theorem trans (h₁ : AccessFrame s s') (h₂ : AccessFrame s' s'') : AccessFrame s s'' where
  files b := (h₂.files b).trans (h₁.files b)
  pool := h₂.pool.trans h₁.pool
  totalRefCount := h₂.totalRefCount.trans h₁.totalRefCount
  mounted := h₂.mounted.trans h₁.mounted
  readOnly := h₂.readOnly.trans h₁.readOnly
  log := h₁.log.trans h₂.log h₁.readOnly

theorem record {c : Call} (hc : s.readOnly = true → c.writes = false) :
    AccessFrame s (s.record c) :=
  ⟨fun _ => rfl, rfl, rfl, rfl, rfl, .record hc⟩

theorem setFile {b : Nat} {f g : NtfsFile} (hb : s.files b = some f) (hg : g.fixed = f.fixed) :
    AccessFrame s (s.setFile b g) where
  files x := by
    by_cases hx : x = b
    · subst hx; simp [hb, hg]
    · simp [hx]
  pool := rfl
  totalRefCount := rfl
  mounted := rfl
  readOnly := rfl
  log := LogExt.of_log rfl

theorem modifyFile {b : Nat} {g : NtfsFile → NtfsFile} (hg : ∀ f, (g f).fixed = f.fixed) :
    AccessFrame s (s.modifyFile b g) := by
  cases hb : s.files b with
  | none => rw [EfiFs.modifyFile_of_none _ hb]; exact refl s
  | some f => rw [EfiFs.modifyFile_of_some _ hb]; exact setFile hb (hg f)

theorem volumeLabel (l : Option Str16) : AccessFrame s { s with volumeLabel := l } :=
  ⟨fun _ => rfl, rfl, rfl, rfl, rfl, LogExt.of_log rfl⟩

/-- Access calls keep the words reference counting and the handle encoding read. -/
theorem refs (h : AccessFrame s s') : s'.refs = s.refs := by
  funext b
  have := h.files b
  cases h₁ : s'.files b <;> cases h₂ : s.files b <;> simp_all [EfiFs.refs, NtfsFile.fixed,
    NtfsFile.refPart]

theorem layout (h : AccessFrame s s') (hs : Layout s) : Layout s' := hs.of_refs h.refs

end AccessFrame

/-! ## The primitives -/

section Primitives

variable (s : EfiFs) (b : Nat)

theorem ntfsReadFile_frame (Data : Mem) (Len : Nat) (r : IoOutcome) :
    AccessFrame s (ntfsReadFile s b Data Len r).1 := by
  unfold ntfsReadFile
  split
  · exact .record fun _ => rfl
  · exact (AccessFrame.record fun _ => by rfl).trans (.modifyFile fun _ => rfl)

theorem ntfsWriteFile_frame (hro : s.readOnly = false) (Len : Nat) (r : IoOutcome) :
    AccessFrame s (ntfsWriteFile s b Len r).1 := by
  unfold ntfsWriteFile
  split
  · exact .record (by simp [hro])
  · exact (AccessFrame.record (by simp [hro])).trans (.modifyFile fun _ => rfl)

theorem ntfsGetFileInfo_frame (mref : Nat) (Info : Mem) (o : InfoOutcome) :
    AccessFrame s (ntfsGetFileInfo s b mref Info o).1 := by
  cases o <;> exact .record fun _ => rfl

theorem ntfsGetFileSize_frame (size : Nat) : AccessFrame s (ntfsGetFileSize s b size).1 :=
  .record fun _ => rfl

theorem ntfsGetVolumeFreeSpace_frame (free : Nat) :
    AccessFrame s (ntfsGetVolumeFreeSpace s free).1 :=
  .record fun _ => rfl

theorem ntfsFlushFile_frame (hro : s.readOnly = false) (st : EfiStatus) :
    AccessFrame s (ntfsFlushFile s b st).1 :=
  .record (by simp [hro])

theorem ntfsSetFileInfo_frame (hro : s.readOnly = false) (ro : Bool) (st : EfiStatus) :
    AccessFrame s (ntfsSetFileInfo s b ro st).1 :=
  .record (by simp [hro])

theorem ntfsRenameVolume_frame (hro : s.readOnly = false) (label : Str16) (st : EfiStatus) :
    AccessFrame s (ntfsRenameVolume s label st).1 := by
  unfold ntfsRenameVolume
  split
  · exact .record (by simp [hro])
  · exact (AccessFrame.record (by simp [hro])).trans (.volumeLabel _)

end Primitives

/-! ## Reading a directory -/

section Directory

variable {info : Nat → Bool → InfoOutcome} {b : Nat} {s s' : EfiFs} {Info Info' : Mem}

theorem dirHook_frame {e : DirEntry} {r : HookResult}
    (h : dirHook info b s Info e = .ok (s', Info', r)) : AccessFrame s s' := by
  dsimp only [dirHook] at h
  split at h
  · cases h; exact .refl s
  split at h
  · cases h
  split at h
  · cases h; exact .refl s
  split at h <;> cases h <;> exact ntfsGetFileInfo_frame _ _ _ _ _

theorem visitEntries_frame {es : List DirEntry} {pos pos' : Nat} {st : EfiStatus}
    (h : visitEntries (dirHook info b) s Info es pos = .ok (s', Info', st, pos')) :
    AccessFrame s s' := by
  induction es generalizing s Info pos with
  | nil => cases h; exact .refl _
  | cons e es ih =>
    unfold visitEntries at h
    split at h
    · cases h
    next hh => exact (dirHook_frame hh).trans (ih h)
    next hh => cases h; exact dirHook_frame hh
    next hh => cases h; exact dirHook_frame hh

theorem ntfsReadDirectory_frame {entries : List DirEntry} {st : EfiStatus}
    (h : ntfsReadDirectory s b Info entries (dirHook info b) = .ok (s', Info', st)) :
    AccessFrame s s' := by
  dsimp only [ntfsReadDirectory, EfiFs.record_files] at h
  split at h
  · cases h
  split at h
  · cases h
  next h₃ =>
  cases h
  exact ((AccessFrame.record fun _ => by rfl).trans (visitEntries_frame h₃)).trans
    (.modifyFile fun _ => rfl)

theorem fileReadDir_frame {File : Nat} {Len Len' : UInt64} {Data Data' : Mem}
    {entries : List DirEntry} {st : EfiStatus}
    (h : fileReadDir s File Len Data entries info = .ok (s', st, Len', Data')) :
    AccessFrame s s' := by
  dsimp only [fileReadDir] at h
  split at h
  · cases h
  next h₂ =>
  have := ntfsReadDirectory_frame h₂
  split at h
  · split at h <;> cases h <;> exact this
  · cases h; exact this

end Directory

/-! ## The calls -/

section Calls

variable {s s' : EfiFs} {This : Nat}

theorem fileRead_frame {Len Len' : UInt64} {Data Data' : Mem} {o : ReadOracle} {st : EfiStatus}
    (h : fileRead s This Len Data o = .ok (s', st, Len', Data')) : AccessFrame s s' := by
  dsimp only [fileRead] at h
  split at h
  · cases h
  split at h
  · cases h; exact .refl _
  split at h
  · exact fileReadDir_frame h
  · obtain rfl := congrArg Prod.fst (Except.ok.inj h)
    exact ntfsReadFile_frame _ _ _ _ _

theorem fileWrite_frame {Len Len' : UInt64} {o : IoOutcome} {st : EfiStatus}
    (h : fileWrite s This Len o = .ok (s', st, Len')) : AccessFrame s s' := by
  dsimp only [fileWrite] at h
  split at h
  · cases h
  split at h
  · cases h; exact .refl _
  split at h
  · cases h; exact .refl _
  split at h
  · cases h; exact .refl _
  next hro =>
  split at h
  · cases h; exact .refl _
  obtain rfl := congrArg Prod.fst (Except.ok.inj h)
  exact ntfsWriteFile_frame _ _ (by simpa [ntfsIsVolumeReadOnly] using hro) _ _

theorem fileSetPosition_frame {Position : UInt64} {size : Nat} {st : EfiStatus}
    (h : fileSetPosition s This Position size = .ok (s', st)) : AccessFrame s s' := by
  dsimp only [fileSetPosition] at h
  split at h
  · cases h
  next F hF =>
  split at h
  · cases h; exact .refl _
  split at h
  · split at h <;> cases h
    · exact .refl _
    · exact .setFile hF rfl
  -- a file: the size query, then the seek
  split at h <;> split at h <;> obtain rfl := congrArg Prod.fst (Except.ok.inj h)
  all_goals first
    | exact ntfsGetFileSize_frame s _ size
    | exact (ntfsGetFileSize_frame s _ size).trans
        (@AccessFrame.setFile _ _ F _ (by simpa [ntfsGetFileSize] using hF) rfl)

theorem fileGetPosition_frame {st : EfiStatus} {r : Option Nat}
    (h : fileGetPosition s This = .ok (s', st, r)) : AccessFrame s s' := by
  dsimp only [fileGetPosition] at h
  split at h
  · cases h
  split at h
  · cases h; exact .refl _
  split at h <;> cases h <;> exact .refl _

theorem fileFlush_frame {onFlush st : EfiStatus} (h : fileFlush s This onFlush = .ok (s', st)) :
    AccessFrame s s' := by
  dsimp only [fileFlush] at h
  split at h
  · cases h
  split at h
  · cases h; exact .refl _
  split at h
  · cases h; exact .refl _
  split at h
  · cases h; exact .refl _
  next hro =>
  obtain rfl := congrArg Prod.fst (Except.ok.inj h)
  exact ntfsFlushFile_frame _ _ (by simpa [ntfsIsVolumeReadOnly] using hro) onFlush

theorem fileGetInfo_frame {infoType : InfoType} {Len Len' : UInt64} {Data Data' : Mem}
    {o : GetInfoOracle} {st : EfiStatus}
    (h : fileGetInfo s This infoType Len Data o = .ok (s', st, Len', Data')) :
    AccessFrame s s' := by
  dsimp only [fileGetInfo] at h
  split at h
  · cases h
  split at h
  · cases h; exact .refl _
  split at h
  · -- `EFI_FILE_INFO`
    split at h
    · cases h
    split at h
    · cases h; exact .refl _
    split at h <;> obtain rfl := congrArg Prod.fst (Except.ok.inj h) <;>
      exact ntfsGetFileInfo_frame _ _ _ _ _
  · -- `EFI_FILE_SYSTEM_INFO`
    split at h
    · cases h; exact .refl _
    · obtain rfl := congrArg Prod.fst (Except.ok.inj h)
      exact ntfsGetVolumeFreeSpace_frame s o.freeSpace
  · -- `EFI_FILE_SYSTEM_VOLUME_LABEL`
    split at h
    · cases h; exact .refl _
    split at h
    · cases h; exact .refl _
    split at h <;> cases h <;> exact .refl _
  · cases h; exact .refl _

/-- The engine calls `FileSetInfo` may make: `NtfsSetFileInfo` on the instance, passing the mode
`RO_ACCESS` read, or `NtfsRenameVolume`. -/
def SetInfoCalls (File : Nat) (ro : Bool) (calls : List Call) : Prop :=
  ∀ c ∈ calls, c = .setFileInfo File ro ∨ c = .renameVolume

theorem ntfsRenameVolume_log (label : Str16) (st : EfiStatus) :
    (ntfsRenameVolume s label st).1.log = s.log ++ [.renameVolume] := by
  unfold ntfsRenameVolume; split <;> rfl

/-- What `FileSetInfo` can do: return with nothing done, or, on a writable volume, make one
`NtfsSetFileInfo` on the instance with the mode `RO_ACCESS` reads, or one `NtfsRenameVolume`. -/
theorem fileSetInfo_cases {infoType : InfoType} {Len : UInt64} {Data : Mem} {onSet st : EfiStatus}
    (h : fileSetInfo s This infoType Len Data onSet = .ok (s', st)) :
    s' = s ∨ s.readOnly = false ∧
      (s' = (ntfsSetFileInfo s (baseFile s This) (roAccess s This) onSet).1 ∨
        ∃ label, s' = (ntfsRenameVolume s label onSet).1) := by
  simp only [fileSetInfo, bind, Except.bind, pure, Except.pure] at h
  split at h
  · cases h
  next F _ =>
  -- the two checks every information type shares
  by_cases hro : ntfsIsVolumeReadOnly s = true
  · rw [if_pos hro] at h; cases h; exact .inl rfl
  rw [if_neg hro] at h
  replace hro : s.readOnly = false := by simpa [ntfsIsVolumeReadOnly] using hro
  by_cases hi : (!F.ntfsInode) = true
  · rw [if_pos hi] at h; cases h; exact .inl rfl
  rw [if_neg hi] at h
  -- the checks of each information type, then the engine call
  repeat' split at h
  all_goals first
    | cases h; done
    | cases h; exact .inl rfl
    | obtain rfl := congrArg Prod.fst (Except.ok.inj h)
      exact .inr ⟨hro, .inl rfl⟩
    | obtain rfl := congrArg Prod.fst (Except.ok.inj h)
      exact .inr ⟨hro, .inr ⟨_, rfl⟩⟩

/-- What `FileSetInfo` changes: an access frame, whose log receives only `SetInfoCalls`. -/
theorem fileSetInfo_spec {infoType : InfoType} {Len : UInt64} {Data : Mem} {onSet st : EfiStatus}
    (h : fileSetInfo s This infoType Len Data onSet = .ok (s', st)) :
    AccessFrame s s' ∧
      ∃ calls, s'.log = s.log ++ calls ∧ SetInfoCalls (baseFile s This) (roAccess s This) calls := by
  rcases fileSetInfo_cases h with rfl | ⟨hro, rfl | ⟨label, rfl⟩⟩
  · exact ⟨.refl _, [], by simp, by simp [SetInfoCalls]⟩
  · exact ⟨ntfsSetFileInfo_frame _ _ hro _ onSet, _, rfl, by simp [SetInfoCalls]⟩
  · exact ⟨ntfsRenameVolume_frame _ hro _ onSet, _, ntfsRenameVolume_log _ _, by simp [SetInfoCalls]⟩

theorem fileSetInfo_frame {infoType : InfoType} {Len : UInt64} {Data : Mem} {onSet st : EfiStatus}
    (h : fileSetInfo s This infoType Len Data onSet = .ok (s', st)) : AccessFrame s s' :=
  (fileSetInfo_spec h).1

/-- The state a call returns, when it returns. -/
theorem map_fst_eq_ok {α β : Type} {x : Except Fault (α × β)} {a : α}
    (h : x.map (·.1) = .ok a) : ∃ b, x = .ok (a, b) := by
  cases x with
  | error e => cases h
  | ok p => cases h; exact ⟨p.2, rfl⟩

/-- **Access calls.** Every access call changes only positions, the volume label and the log,
and on a read-only volume logs no primitive that writes. -/
theorem Access.run_frame {a : Access} (h : a.run s This = .ok s') : AccessFrame s s' := by
  cases a <;> obtain ⟨_, h⟩ := map_fst_eq_ok h
  · exact fileRead_frame h
  · exact fileWrite_frame h
  · exact fileSetPosition_frame h
  · exact fileGetPosition_frame h
  · exact fileGetInfo_frame h
  · exact fileSetInfo_frame h
  · exact fileFlush_frame h

end Calls

end UefiNtfs
