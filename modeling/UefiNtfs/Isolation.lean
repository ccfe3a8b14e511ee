import UefiNtfs.RootFlag

set_option autoImplicit false

/-! # Calls through one value leave the other instances alone

Every call of `EFI_FILE_PROTOCOL` on a handle value decodes it with `BASE_FILE` and acts on that
one instance (`Confined`): `FileRead`, `FileWrite`, `FileSetPosition` and the directory read move
only its `Offset` or `DirPos`, `FileClose` and `FileDelete` close and release only it, and every
engine primitive they call that takes an instance is passed that one
(`engine_told_own_instance`). `FileOpen` and `FileOpenVolume` put a new instance where none is,
or add a reference to one that is open: the parent for `""` and `"."`, or the one the engine
hands back.

So in a run, an instance changes only through its own values (`step_changes_only_own_instance`).
The values of one instance share all of it: the reopen of `""` and an open that the engine
answers with an instance already open hand out a second value of the same instance, with the
same `Offset`.

An instance that was open before a call is released only by `FileClose` or `FileDelete` of its
last value, and both let the engine close the inode before they free the instance
(`release_closes_inode_first`).
-/

namespace UefiNtfs

/-! ## Changes confined to one instance -/

/-- The instance an engine primitive is passed, if it is passed one. -/
def Call.target : Call → Option Nat
  | .openFile b | .createFile b | .closeFile b | .freeFile b | .deleteFile b | .readFile b
  | .writeFile b | .readDirectory b | .getFileInfo b _ | .setFileInfo b _ | .getFileSize b
  | .flushFile b => some b
  | _ => none

/-- Engine calls that are passed no instance but the one at `b`. -/
def CallsOn (b : Nat) (calls : List Call) : Prop :=
  ∀ c ∈ calls, c.target = none ∨ c.target = some b

/-- A change of the volume confined to the instance at `b`: every other instance is as it was,
and the log grows by engine calls that are passed no other instance. -/
structure Confined (b : Nat) (s s' : EfiFs) : Prop where
  files : ∀ x, x ≠ b → s'.files x = s.files x
  log : ∃ calls, s'.log = s.log ++ calls ∧ CallsOn b calls

namespace Confined

variable {b : Nat} {s s' s'' : EfiFs}

theorem of_eq (hf : s'.files = s.files) (hl : s'.log = s.log) : Confined b s s' :=
  ⟨fun x _ => congrFun hf x, [], by simp [hl], by simp [CallsOn]⟩

theorem refl (s : EfiFs) : Confined b s s := of_eq rfl rfl

theorem trans (h₁ : Confined b s s') (h₂ : Confined b s' s'') : Confined b s s'' where
  files x hx := (h₂.files x hx).trans (h₁.files x hx)
  log := by
    obtain ⟨c₁, e₁, t₁⟩ := h₁.log
    obtain ⟨c₂, e₂, t₂⟩ := h₂.log
    exact ⟨c₁ ++ c₂, by rw [e₂, e₁, List.append_assoc],
      fun c hc => (List.mem_append.mp hc).elim (t₁ c) (t₂ c)⟩

/-- A change that keeps the instances and logs one call. -/
theorem of_call (c : Call) (hc : c.target = none ∨ c.target = some b) (hf : s'.files = s.files)
    (hl : s'.log = s.log ++ [c]) : Confined b s s' :=
  ⟨fun x _ => congrFun hf x, [c], hl, by simpa [CallsOn] using hc⟩

theorem record (c : Call) (hc : c.target = none ∨ c.target = some b) : Confined b s (s.record c) :=
  of_call c hc rfl rfl

theorem setFile (f : NtfsFile) : Confined b s (s.setFile b f) :=
  ⟨fun x hx => by simp [hx], [], by simp, by simp [CallsOn]⟩

theorem dropFile : Confined b s (s.dropFile b) :=
  ⟨fun x hx => by simp [hx], [], by simp, by simp [CallsOn]⟩

theorem modifyFile (g : NtfsFile → NtfsFile) : Confined b s (s.modifyFile b g) := by
  unfold EfiFs.modifyFile; split
  · exact setFile _
  · exact refl _

theorem freePool (p : Nat) : Confined b s (freePool s p) := by
  unfold UefiNtfs.freePool; split
  · exact refl _
  · exact of_call (.freePool p) (.inl rfl) rfl rfl

theorem decTotal (h : Confined b s s') : Confined b s s'.decTotal := h.trans (of_eq rfl rfl)

theorem unmountIfIdle (h : Confined b s s') : Confined b s (unmountIfIdle s') := by
  rw [unmountIfIdle_eq]
  split
  · exact h.trans (of_call .unmountVolume (.inl rfl) rfl rfl)
  · exact h.trans (of_eq rfl (by simp))

end Confined

/-! ## The primitives -/

section Primitives

variable (s : EfiFs) (b : Nat)

theorem ntfsReadFile_confined (Data : Mem) (Len : Nat) (r : IoOutcome) :
    Confined b s (ntfsReadFile s b Data Len r).1 := by
  unfold ntfsReadFile; split
  · exact .record (.readFile b) (.inr rfl)
  · exact (Confined.record (.readFile b) (.inr rfl)).trans (.modifyFile _)

theorem ntfsWriteFile_confined (Len : Nat) (r : IoOutcome) :
    Confined b s (ntfsWriteFile s b Len r).1 := by
  unfold ntfsWriteFile; split
  · exact .record (.writeFile b) (.inr rfl)
  · exact (Confined.record (.writeFile b) (.inr rfl)).trans (.modifyFile _)

theorem ntfsCloseFile_confined : Confined b s (ntfsCloseFile s b) := by
  unfold ntfsCloseFile; split
  · exact .record (.closeFile b) (.inr rfl)
  · exact (Confined.record (.closeFile b) (.inr rfl)).trans (.modifyFile _)

theorem ntfsFreeFile_confined : Confined b s (ntfsFreeFile s b) := by
  rcases ntfsFreeFile_cases s b with h | ⟨f, -, h⟩ <;> rw [h]
  · exact .record (.freeFile b) (.inr rfl)
  · exact ((Confined.record (.freeFile b) (.inr rfl)).trans (.freePool _)).trans .dropFile

theorem ntfsDeleteFile_confined (st : EfiStatus) : Confined b s (ntfsDeleteFile s b st).1 :=
  (Confined.record (.deleteFile b) (.inr rfl)).trans (.modifyFile _)

theorem ntfsGetFileSize_confined (size : Nat) : Confined b s (ntfsGetFileSize s b size).1 :=
  .record (.getFileSize b) (.inr rfl)

theorem ntfsFlushFile_confined (st : EfiStatus) : Confined b s (ntfsFlushFile s b st).1 :=
  .record (.flushFile b) (.inr rfl)

theorem ntfsSetFileInfo_confined (ro : Bool) (st : EfiStatus) :
    Confined b s (ntfsSetFileInfo s b ro st).1 :=
  .record (.setFileInfo b ro) (.inr rfl)

theorem ntfsGetFileInfo_confined (mref : Nat) (Info : Mem) (o : InfoOutcome) :
    Confined b s (ntfsGetFileInfo s b mref Info o).1 := by
  cases o <;> exact .record (.getFileInfo b mref) (.inr rfl)

theorem ntfsGetVolumeFreeSpace_confined (free : Nat) :
    Confined b s (ntfsGetVolumeFreeSpace s free).1 :=
  .record .getVolumeFreeSpace (.inl rfl)

theorem ntfsRenameVolume_confined (label : Str16) (st : EfiStatus) :
    Confined b s (ntfsRenameVolume s label st).1 := by
  unfold ntfsRenameVolume; split
  · exact .record .renameVolume (.inl rfl)
  · exact .of_call .renameVolume (.inl rfl) rfl rfl

end Primitives

/-! ## Reading a directory -/

section Directory

variable {info : Nat → Bool → InfoOutcome} {s s' : EfiFs} {Info Info' : Mem} {b : Nat}

/-- `DirHook` changes no instance: it only asks the engine for the entry's information. -/
theorem dirHook_confined {e : DirEntry} {r : HookResult}
    (h : dirHook info b s Info e = .ok (s', Info', r)) : Confined b s s' := by
  dsimp only [dirHook] at h
  split at h
  · cases h; exact .refl _
  split at h
  · cases h
  split at h
  · cases h; exact .refl _
  split at h <;> cases h <;> exact ntfsGetFileInfo_confined _ _ _ _ _

theorem visitEntries_confined {es : List DirEntry} {pos pos' : Nat} {st : EfiStatus}
    (h : visitEntries (dirHook info b) s Info es pos = .ok (s', Info', st, pos')) :
    Confined b s s' := by
  induction es generalizing s Info pos with
  | nil => cases h; exact .refl _
  | cons e es ih =>
    unfold visitEntries at h
    split at h
    · cases h
    next hh => exact (dirHook_confined hh).trans (ih h)
    next hh => cases h; exact dirHook_confined hh
    next hh => cases h; exact dirHook_confined hh

theorem ntfsReadDirectory_confined {entries : List DirEntry} {st : EfiStatus}
    (h : ntfsReadDirectory s b Info entries (dirHook info b) = .ok (s', Info', st)) :
    Confined b s s' := by
  dsimp only [ntfsReadDirectory, EfiFs.record_files] at h
  split at h
  · cases h
  split at h
  · cases h
  next h₃ =>
  cases h
  exact ((Confined.record (.readDirectory b) (.inr rfl)).trans (visitEntries_confined h₃)).trans
    (.modifyFile _)

theorem fileReadDir_confined {Len Len' : UInt64} {Data Data' : Mem}
    {entries : List DirEntry} {st : EfiStatus}
    (h : fileReadDir s b Len Data entries info = .ok (s', st, Len', Data')) :
    Confined b s s' := by
  dsimp only [fileReadDir] at h
  split at h
  · cases h
  next h₂ =>
  have := ntfsReadDirectory_confined h₂
  split at h
  · split at h <;> cases h <;> exact this
  · cases h; exact this

end Directory

/-! ## The access calls -/

section Access

variable {s s' : EfiFs} {This : Nat}

theorem fileRead_confined {Len Len' : UInt64} {Data Data' : Mem} {o : ReadOracle} {st : EfiStatus}
    (h : fileRead s This Len Data o = .ok (s', st, Len', Data')) : Confined (baseFile s This) s s' := by
  dsimp only [fileRead] at h
  split at h
  · cases h
  split at h
  · cases h; exact .refl _
  split at h
  · exact fileReadDir_confined h
  · obtain rfl := congrArg Prod.fst (Except.ok.inj h)
    exact ntfsReadFile_confined _ _ _ _ _

theorem fileWrite_confined {Len Len' : UInt64} {o : IoOutcome} {st : EfiStatus}
    (h : fileWrite s This Len o = .ok (s', st, Len')) : Confined (baseFile s This) s s' := by
  dsimp only [fileWrite] at h
  split at h
  · cases h
  repeat' split at h
  all_goals first
    | cases h; exact .refl _
    | obtain rfl := congrArg Prod.fst (Except.ok.inj h); exact ntfsWriteFile_confined _ _ _ _

theorem fileSetPosition_confined {Position : UInt64} {size : Nat} {st : EfiStatus}
    (h : fileSetPosition s This Position size = .ok (s', st)) : Confined (baseFile s This) s s' := by
  dsimp only [fileSetPosition] at h
  split at h
  · cases h
  split at h
  · cases h; exact .refl _
  split at h
  · split at h <;> cases h
    · exact .refl _
    · exact .setFile _
  -- a file: the size query, then the seek
  split at h <;> split at h <;> obtain rfl := congrArg Prod.fst (Except.ok.inj h) <;> dsimp only
  all_goals first
    | exact ntfsGetFileSize_confined _ _ _
    | exact (ntfsGetFileSize_confined _ _ _).trans (.setFile _)

theorem fileGetPosition_confined {st : EfiStatus} {r : Option Nat}
    (h : fileGetPosition s This = .ok (s', st, r)) : Confined (baseFile s This) s s' := by
  dsimp only [fileGetPosition] at h
  split at h
  · cases h
  repeat' split at h
  all_goals cases h; exact .refl _

theorem fileFlush_confined {onFlush st : EfiStatus} (h : fileFlush s This onFlush = .ok (s', st)) :
    Confined (baseFile s This) s s' := by
  dsimp only [fileFlush] at h
  split at h
  · cases h
  repeat' split at h
  all_goals first
    | cases h; exact .refl _
    | obtain rfl := congrArg Prod.fst (Except.ok.inj h); exact ntfsFlushFile_confined _ _ _

theorem fileGetInfo_confined {infoType : InfoType} {Len Len' : UInt64} {Data Data' : Mem}
    {o : GetInfoOracle} {st : EfiStatus}
    (h : fileGetInfo s This infoType Len Data o = .ok (s', st, Len', Data')) :
    Confined (baseFile s This) s s' := by
  dsimp only [fileGetInfo] at h
  split at h
  · cases h
  repeat' split at h
  all_goals first
    | cases h; done
    | cases h; exact .refl _
    | obtain rfl := congrArg Prod.fst (Except.ok.inj h); exact ntfsGetFileInfo_confined _ _ _ _ _
    | obtain rfl := congrArg Prod.fst (Except.ok.inj h); exact ntfsGetVolumeFreeSpace_confined _ _ o.freeSpace

theorem fileSetInfo_confined {infoType : InfoType} {Len : UInt64} {Data : Mem} {onSet st : EfiStatus}
    (h : fileSetInfo s This infoType Len Data onSet = .ok (s', st)) :
    Confined (baseFile s This) s s' := by
  rcases fileSetInfo_cases h with rfl | ⟨-, rfl | ⟨label, rfl⟩⟩
  · exact .refl _
  · exact ntfsSetFileInfo_confined _ _ _ _
  · exact ntfsRenameVolume_confined _ _ _ _

/-- An access call changes no instance but the one its value stands for, and passes the engine
no other. -/
theorem Access.run_confined {a : Access} (h : a.run s This = .ok s') :
    Confined (baseFile s This) s s' := by
  cases a <;> obtain ⟨_, h⟩ := map_fst_eq_ok h
  · exact fileRead_confined h
  · exact fileWrite_confined h
  · exact fileSetPosition_confined h
  · exact fileGetPosition_confined h
  · exact fileGetInfo_confined h
  · exact fileSetInfo_confined h
  · exact fileFlush_confined h

end Access

/-! ## Giving back a value -/

section Release

variable {s s' : EfiFs} {This : Nat} {st : EfiStatus}

theorem fileClose_confined (h : fileClose s This = .ok (s', st)) : Confined (baseFile s This) s s' := by
  dsimp only [fileClose] at h
  split at h
  · cases h
  cases h
  refine .unmountIfIdle (.decTotal ?_)
  split
  · exact ((Confined.setFile _).trans (ntfsCloseFile_confined _ _)).trans (ntfsFreeFile_confined _ _)
  · exact .setFile _

theorem fileDelete_confined {onDelete : EfiStatus} (h : fileDelete s This onDelete = .ok (s', st)) :
    Confined (baseFile s This) s s' := by
  dsimp only [fileDelete] at h
  split at h
  · cases h
  split at h
  · cases h; exact .refl _
  split at h
  · cases h; exact .decTotal (.setFile _)
  split at h
  · cases h; exact .decTotal (.setFile _)
  obtain rfl := congrArg Prod.fst (Except.ok.inj h)
  apply Confined.unmountIfIdle
  refine Confined.trans ?_ (ntfsFreeFile_confined _ _)
  exact (Confined.setFile _).decTotal.trans (ntfsDeleteFile_confined _ _ _)

end Release

/-! ## What the engine is told -/

/-- An access call through a value whose instance holds no inode returns before it calls the
engine, with the volume as it was. -/
theorem Access.run_no_inode {s s' : EfiFs} {This : Nat} {a : Access} {F : NtfsFile}
    (hF : s.files (baseFile s This) = some F) (hino : F.ntfsInode = false)
    (h : a.run s This = .ok s') : s' = s := by
  cases a <;> obtain ⟨_, h⟩ := map_fst_eq_ok h <;>
    simp only [fileRead, fileWrite, fileSetPosition, fileGetPosition, fileGetInfo, fileSetInfo,
      fileFlush, hF, hino, Bool.not_false, if_true] at h
  -- `FileSetInfo` checks the volume first; both exits return the state as it was
  all_goals (try split at h) <;> exact (congrArg Prod.fst (Except.ok.inj h)).symm

/-- **A call through a value tells the engine only about the value's instance.** Take a value out
in a reachable world. An access call, `FileClose` or `FileDelete` through it passes every engine
primitive that takes an instance the value's own instance. And an access call or `FileDelete`
through a value whose instance holds no inode calls no primitive and changes nothing: the
`NtfsInode == NULL` checks come before every engine call. -/
theorem engine_told_own_instance {PATH_MAX : Nat} {w : World} (hw : Reachable PATH_MAX w)
    {h : Handle} (hh : h ∈ w.out) :
    (∀ (a : Access) fs, a.run w.fs h.value = .ok fs →
      ∃ calls, fs.log = w.fs.log ++ calls ∧ CallsOn h.file calls) ∧
    (∀ fs st, fileClose w.fs h.value = .ok (fs, st) →
      ∃ calls, fs.log = w.fs.log ++ calls ∧ CallsOn h.file calls) ∧
    (∀ onDelete fs st, fileDelete w.fs h.value onDelete = .ok (fs, st) →
      ∃ calls, fs.log = w.fs.log ++ calls ∧ CallsOn h.file calls) ∧
    (∀ F, w.fs.files h.file = some F → F.ntfsInode = false →
      (∀ (a : Access) fs, a.run w.fs h.value = .ok fs → fs = w.fs) ∧
      (∀ onDelete fs st, fileDelete w.fs h.value onDelete = .ok (fs, st) → fs = w.fs)) := by
  obtain ⟨-, -, hbase, -⟩ := (refInv_reachable hw).decode hh
  refine ⟨fun _ _ hr => hbase ▸ (Access.run_confined hr).log,
    fun _ _ hr => hbase ▸ (fileClose_confined hr).log,
    fun _ _ _ hr => hbase ▸ (fileDelete_confined hr).log, fun F hF hino => ?_⟩
  rw [← hbase] at hF
  exact ⟨fun _ _ hr => Access.run_no_inode hF hino hr,
    fun _ _ _ hr => (fileDelete_refused hF (by simp [hino]) hr).1⟩

/-- The root value of a writable volume. -/
theorem engine_told_own_instance_root :
    (⟨256, false⟩ : Handle) ∈ (rootOpened false).out ∧
    (∀ (a : Access) fs, a.run (rootOpened false).fs (⟨256, false⟩ : Handle).value = .ok fs →
      ∃ calls, fs.log = (rootOpened false).fs.log ++ calls ∧ CallsOn 256 calls) ∧
    (∀ fs st, fileClose (rootOpened false).fs (⟨256, false⟩ : Handle).value = .ok (fs, st) →
      ∃ calls, fs.log = (rootOpened false).fs.log ++ calls ∧ CallsOn 256 calls) ∧
    (∀ onDelete fs st,
      fileDelete (rootOpened false).fs (⟨256, false⟩ : Handle).value onDelete = .ok (fs, st) →
      ∃ calls, fs.log = (rootOpened false).fs.log ++ calls ∧ CallsOn 256 calls) ∧
    (∀ F, (rootOpened false).fs.files 256 = some F → F.ntfsInode = false →
      (∀ (a : Access) fs, a.run (rootOpened false).fs (⟨256, false⟩ : Handle).value = .ok fs →
        fs = (rootOpened false).fs) ∧
      (∀ onDelete fs st,
        fileDelete (rootOpened false).fs (⟨256, false⟩ : Handle).value onDelete = .ok (fs, st) →
        fs = (rootOpened false).fs)) :=
  ⟨by simp [rootOpened], engine_told_own_instance (rootOpened_reachable 8 false) (by simp [rootOpened])⟩

/-! ## Handing out a value -/

/-- One more reference to `c` leaves an instance as it was, or adds the reference to it. -/
theorem EfiFs.addRef_keeps {s : EfiFs} {b c : Nat} {F : NtfsFile} (hb : s.files b = some F) :
    (s.addRef c).files b = some F ∨
      (s.addRef c).files b = some { F with refCount := F.refCount + 1 } := by
  by_cases hc : b = c
  · subst hc; exact .inr (by rw [EfiFs.addRef_files _ _ hb, Function.update_same])
  · exact .inl (by rw [EfiFs.addRef_files_of_ne hc, hb])

section Open

variable {s s' : EfiFs} {b : Nat} {F : NtfsFile} {st : EfiStatus} {r : Option Nat}

/-- `FileOpen` leaves every open instance as it was, but for the reference it may add: a new
instance goes where none is. -/
theorem fileOpen_keeps {PATH_MAX This : Nat} {Name : Str16} {Mode Attributes : UInt64}
    {o : OpenOracle} (env : o.Sound s)
    (h : fileOpen PATH_MAX s This Name Mode Attributes o = .ok (s', st, r))
    (hb : s.files b = some F) :
    s'.files b = some F ∨ s'.files b = some { F with refCount := F.refCount + 1 } := by
  cases herr : efiError st
  · obtain ⟨-, c, -, ho⟩ := fileOpen_success env h herr
    cases ho with
    | reopen => exact EfiFs.addRef_keeps hb
    | fresh hf =>
      have hne : b ≠ o.fileAddr := fun he => by simp [he, (env.file hf).1] at hb
      exact EfiFs.addRef_keeps (by simp [hne, hb])
    | reused => exact EfiFs.addRef_keeps hb
  · obtain ⟨-, calls, rfl, -⟩ := fileOpen_error env h herr
    exact .inl hb

/-- `FileOpenVolume` leaves every open instance as it was, but for the reference it may add. -/
theorem fileOpenVolume_keeps {o : VolumeOracle} (env : o.Sound s)
    (h : fileOpenVolume s o = (s', st, r)) (hb : s.files b = some F) :
    s'.files b = some F ∨ s'.files b = some { F with refCount := F.refCount + 1 } := by
  rcases fileOpenVolume_cases env h with ⟨-, -, calls, rfl, -⟩ | ⟨-, c, -, hv⟩
  · exact .inl hb
  cases hv with
  | fresh hf =>
    have hne : b ≠ o.fileAddr := fun he => by simp [he, (env.file hf).1] at hb
    exact EfiFs.addRef_keeps (by simp [hne, hb])
  | reused => exact EfiFs.addRef_keeps hb

end Open

/-! ## In every reachable world -/

/-- **A call changes only the instance it is made through.** Take a step from a reachable world
and an instance `b` allocated before it. Either `b` is as it was, but for the one reference a
`FileOpen` or `FileOpenVolume` may add to it, or the step was an access call, `FileClose` or
`FileDelete` through a value of `b`. So an instance's `Offset`, `DirPos`, `Path`, `BaseName`,
flags and inode change only through its own values, whatever calls through other values come
in between. -/
theorem step_changes_only_own_instance {PATH_MAX : Nat} {w w' : World} (hw : Reachable PATH_MAX w)
    (hs : Step PATH_MAX w w') {b : Nat} {F : NtfsFile} (hb : w.fs.files b = some F) :
    w'.fs.files b = some F ∨ w'.fs.files b = some { F with refCount := F.refCount + 1 } ∨
      ∃ h ∈ w.out, h.file = b ∧
        ((∃ a : Access, a.run w.fs h.value = .ok w'.fs) ∨
          (∃ st, fileClose w.fs h.value = .ok (w'.fs, st)) ∨
          (∃ onDelete st, fileDelete w.fs h.value onDelete = .ok (w'.fs, st))) := by
  -- a call through a value of another instance: the value decodes to that instance
  have other : ∀ h ∈ w.out, h.file ≠ b → ∀ {fs : EfiFs}, Confined (baseFile w.fs h.value) w.fs fs →
      fs.files b = some F := fun h hh hne _ hc => by
    obtain ⟨-, -, hbase, -⟩ := (refInv_reachable hw).decode hh
    exact (hc.files b (hbase ▸ hne.symm)).trans hb
  cases hs with
  | openVolume o env hr => exact (fileOpenVolume_keeps env hr hb).imp_right .inl
  | «open» h hh Name Mode Attributes o env hr => exact (fileOpen_keeps env hr hb).imp_right .inl
  | close h hh hr =>
    by_cases hne : h.file = b
    · exact .inr (.inr ⟨h, hh, hne, .inr (.inl ⟨_, hr⟩)⟩)
    · exact .inl (other h hh hne (fileClose_confined hr))
  | delete h hh onDelete hr =>
    by_cases hne : h.file = b
    · exact .inr (.inr ⟨h, hh, hne, .inr (.inr ⟨_, _, hr⟩)⟩)
    · exact .inl (other h hh hne (fileDelete_confined hr))
  | access h hh a hr =>
    by_cases hne : h.file = b
    · exact .inr (.inr ⟨h, hh, hne, .inl ⟨_, hr⟩⟩)
    · exact .inl (other h hh hne (Access.run_confined hr))

/-- The open of `"a"` below the root of a writable volume keeps the root instance but for the
reference count. -/
theorem step_changes_only_own_instance_openA :
    ∃ (w' : World) (F : NtfsFile), Step 8 (rootOpened false) w' ∧
      (rootOpened false).fs.files 256 = some F ∧
      (w'.fs.files 256 = some F ∨ w'.fs.files 256 = some { F with refCount := F.refCount + 1 } ∨
        ∃ h ∈ (rootOpened false).out, h.file = 256 ∧
          ((∃ a : Access, a.run (rootOpened false).fs h.value = .ok w'.fs) ∨
            (∃ st, fileClose (rootOpened false).fs h.value = .ok (w'.fs, st)) ∨
            (∃ onDelete st, fileDelete (rootOpened false).fs h.value onDelete = .ok (w'.fs, st)))) := by
  have hs : Step 8 (rootOpened false) _ := .open _ ⟨256, false⟩ (by simp [rootOpened]) nameA
    (efiFileModeRead ||| efiFileModeWrite) 0 fileAOracle (fileAOracle_sound false) rfl fileAOracle_samePath
  exact ⟨_, _, hs, rfl, step_changes_only_own_instance (rootOpened_reachable 8 false) hs rfl⟩

/-! ## Releasing an instance -/

/-- `NtfsFreeFile` logs itself, then the `FreePool` of the path of an instance it releases. -/
theorem ntfsFreeFile_log (s : EfiFs) (b : Nat) :
    ∃ rest, (ntfsFreeFile s b).log = s.log ++ .freeFile b :: rest := by
  rcases ntfsFreeFile_cases s b with h | ⟨f, -, h⟩ <;> rw [h]
  · exact ⟨[], rfl⟩
  · unfold freePool; split
    · exact ⟨[], rfl⟩
    · exact ⟨[.freePool f.path], by simp [EfiFs.record]⟩

/-- The engine calls of the release that ends `FileClose`: the inode is closed, then the instance
is freed. -/
theorem closeFree_log (X : EfiFs) (b : Nat) :
    ∃ calls, (unmountIfIdle (ntfsFreeFile (ntfsCloseFile X b) b).decTotal).log =
      X.log ++ .closeFile b :: calls ∧ Call.freeFile b ∈ calls := by
  obtain ⟨rest, hrest⟩ := ntfsFreeFile_log (ntfsCloseFile X b) b
  obtain ⟨um, hum, -⟩ := unmountIfIdle_log (ntfsFreeFile (ntfsCloseFile X b) b).decTotal
  have hc : (ntfsCloseFile X b).log = X.log ++ [.closeFile b] := by
    unfold ntfsCloseFile; split <;> simp
  exact ⟨.freeFile b :: (rest ++ um), by rw [hum, EfiFs.decTotal_log, hrest, hc]; simp,
    List.mem_cons_self _ _⟩

/-- The engine calls of the release that ends `FileDelete`: the file is deleted, then the
instance is freed. -/
theorem deleteFree_log (X : EfiFs) (b : Nat) (onDelete : EfiStatus) :
    ∃ calls, (unmountIfIdle (ntfsFreeFile (ntfsDeleteFile X b onDelete).1 b)).log =
      X.log ++ .deleteFile b :: calls ∧ Call.freeFile b ∈ calls := by
  obtain ⟨rest, hrest⟩ := ntfsFreeFile_log (ntfsDeleteFile X b onDelete).1 b
  obtain ⟨um, hum, -⟩ := unmountIfIdle_log (ntfsFreeFile (ntfsDeleteFile X b onDelete).1 b)
  exact ⟨.freeFile b :: (rest ++ um), by rw [hum, hrest]; simp [ntfsDeleteFile],
    List.mem_cons_self _ _⟩

section Release

variable {s s' : EfiFs} {v : Nat} {F : NtfsFile} {st : EfiStatus}

/-- A `FileClose` that releases its instance first closes the inode, then frees the instance. -/
theorem fileClose_closes_first (hF : s.files (baseFile s v) = some F)
    (hr : fileClose s v = .ok (s', st)) (hgone : s'.files (baseFile s v) = none) :
    ∃ calls, s'.log = s.log ++ .closeFile (baseFile s v) :: calls ∧
      Call.freeFile (baseFile s v) ∈ calls := by
  simp only [fileClose, hF] at hr
  obtain ⟨rfl, -⟩ := Prod.mk.inj (Except.ok.inj hr)
  by_cases hz : F.refCount - 1 ≤ 0
  · rw [if_pos hz]; exact closeFree_log _ _
  · rw [if_neg hz] at hgone
    rw [unmountIfIdle_files, EfiFs.decTotal_files, EfiFs.setFile_files, Function.update_same] at hgone
    cases hgone

/-- A `FileDelete` that releases its instance first deletes the file, then frees the instance. -/
theorem fileDelete_deletes_first {onDelete : EfiStatus} (hF : s.files (baseFile s v) = some F)
    (hr : fileDelete s v onDelete = .ok (s', st)) (hgone : s'.files (baseFile s v) = none) :
    ∃ calls, s'.log = s.log ++ .deleteFile (baseFile s v) :: calls ∧
      Call.freeFile (baseFile s v) ∈ calls := by
  rcases fileDelete_cases hF hr with ⟨-, -, rfl⟩ | ⟨-, -, -, rfl⟩ | ⟨-, -, -, -, rfl⟩
  · rw [hF] at hgone; cases hgone
  · rw [EfiFs.decTotal_files, EfiFs.setFile_files, Function.update_same] at hgone
    cases hgone
  · exact deleteFree_log _ _ _

end Release

/-- **An instance is released only after its inode is closed.** Take a step from a reachable
world that releases an instance `b` allocated before it. The step's first call to the engine
closes `b`'s inode (`NtfsCloseFile`, from `FileClose`) or deletes its file (`NtfsDeleteFile`,
from `FileDelete`), and `NtfsFreeFile` of `b` comes later in the same step: the file layer never
frees an instance while the engine still holds its inode open. -/
theorem release_closes_inode_first {PATH_MAX : Nat} {w w' : World} (hw : Reachable PATH_MAX w)
    (hs : Step PATH_MAX w w') {b : Nat} {F : NtfsFile} (hb : w.fs.files b = some F)
    (hgone : w'.fs.files b = none) :
    ∃ c calls, w'.fs.log = w.fs.log ++ c :: calls ∧ (c = .closeFile b ∨ c = .deleteFile b) ∧
      Call.freeFile b ∈ calls := by
  have gone : ∀ {G : NtfsFile}, w'.fs.files b = some G → False := fun h => by simp [h] at hgone
  have hi := refInv_reachable hw
  cases hs with
  | openVolume o env hr => exact ((fileOpenVolume_keeps env hr hb).elim gone gone).elim
  | «open» h hh Name Mode Attributes o env hr => exact ((fileOpen_keeps env hr hb).elim gone gone).elim
  | access h hh a hr =>
    have := (Access.run_frame hr).files b
    dsimp only at hgone
    simp [hgone, hb] at this
  | close h hh hr =>
    obtain ⟨G, hG, hbase, -⟩ := hi.decode hh
    by_cases hne : h.file = b
    · subst hne
      rw [← hbase] at hG hgone ⊢
      obtain ⟨calls, hc, hm⟩ := fileClose_closes_first hG hr hgone
      exact ⟨_, calls, hc, .inl rfl, hm⟩
    · exact (gone (((fileClose_confined hr).files b (hbase ▸ Ne.symm hne)).trans hb)).elim
  | delete h hh onDelete hr =>
    obtain ⟨G, hG, hbase, -⟩ := hi.decode hh
    by_cases hne : h.file = b
    · subst hne
      rw [← hbase] at hG hgone ⊢
      obtain ⟨calls, hc, hm⟩ := fileDelete_deletes_first hG hr hgone
      exact ⟨_, calls, hc, .inr rfl, hm⟩
    · exact (gone (((fileDelete_confined hr).files b (hbase ▸ Ne.symm hne)).trans hb)).elim

/-- The `FileClose` of the root of a writable volume, its only value, closes the root's inode
and then frees the instance. -/
theorem release_closes_inode_first_rootClosed :
    ∃ (w' : World) (F : NtfsFile), Step 8 (rootOpened false) w' ∧
      (rootOpened false).fs.files 256 = some F ∧ w'.fs.files 256 = none ∧
      ∃ c calls, w'.fs.log = (rootOpened false).fs.log ++ c :: calls ∧
        (c = .closeFile 256 ∨ c = .deleteFile 256) ∧ Call.freeFile 256 ∈ calls := by
  have hs : Step 8 (rootOpened false) _ := .close _ ⟨256, false⟩ (by simp [rootOpened]) rfl
  exact ⟨_, _, hs, rfl, rfl, release_closes_inode_first (rootOpened_reachable 8 false) hs rfl rfl⟩

end UefiNtfs
