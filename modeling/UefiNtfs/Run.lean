import UefiNtfs.Info

set_option autoImplicit false

/-! # Runs of the file layer

The environment (the firmware and its applications) calls the file layer one call at a time.
Besides the volume, the world records the handle values the environment holds, each with the
instance and the mode it was issued for: `FileOpenVolume` and `FileOpen` add one,
`FileClose` takes one back, and so does `FileDelete` except on its early `EFI_ACCESS_DENIED`
return. The environment only passes values it holds, and its allocators and engine keep their
promises (`OpenOracle.Sound`, `OpenOracle.SamePath`): a new instance or buffer is placed in free
memory, and an instance the engine hands back is one that is open, for the path the new one was
given. A call that faults has no successor.
-/

namespace UefiNtfs

/-! ## What the environment promises -/

/-- An address `NtfsAllocateFile` may return: `0` (failure), or one where no instance is and
that is clear of every instance. -/
def FreshFile (s : EfiFs) (b : Nat) : Prop :=
  b ≠ 0 → s.files b = none ∧ ∀ b' f', s.files b' = some f' → b + objSize ≤ b' ∨ b' + objSize ≤ b

/-- An address `AllocateZeroPool` may return: `0` (failure), or one that is not live. -/
def FreshPool (s : EfiFs) (p : Nat) : Prop := p ≠ 0 → s.pool p = none

/-- The engine hands back only instances that are open. Which path such an instance holds is the
other half of the engine's promise (`OpenOutcome.SamePath`): the reference counts and the pool
rest on this half alone, the paths of the values out on both. -/
def OpenOutcome.Sound (s : EfiFs) : OpenOutcome → Prop
  | .reused b => (s.files b).isSome
  | _ => True

/-- The engine hands back only instances that are open (`OpenOutcome.Sound`, for
`NtfsCreateFile`). -/
def CreateOutcome.Sound (s : EfiFs) : CreateOutcome → Prop
  | .reused b => (s.files b).isSome
  | _ => True

/-- The spec's condition on a hand-back (`OpenFile` "may substitute a pre-existing object for the
same path"): an instance the engine hands back holds the path `p` of the one it was given. -/
def OpenOutcome.SamePath (s : EfiFs) (p : Option (List UInt16)) : OpenOutcome → Prop
  | .reused b => (s.files b).bind s.pathStr = p
  | _ => True

/-- The same condition on the hand-back of `NtfsCreateFile`. -/
def CreateOutcome.SamePath (s : EfiFs) (p : Option (List UInt16)) : CreateOutcome → Prop
  | .reused b => (s.files b).bind s.pathStr = p
  | _ => True

/-- The promises behind one `FileOpen`. -/
structure OpenOracle.Sound (o : OpenOracle) (s : EfiFs) : Prop where
  file : FreshFile s o.fileAddr
  path : FreshPool s o.pathAddr
  onOpen : o.onOpen.Sound s
  onCreate : o.onCreate.Sound s

/-- The engine's promise behind one `FileOpen (This, Name)`: an instance it hands back in place of
the new one holds the path lines 110-141 built for the new one. -/
def OpenOracle.SamePath (PATH_MAX : Nat) (o : OpenOracle) (s : EfiFs) (This : Nat) (Name : Str16) :
    Prop :=
  ∀ F s₁ buf, s.files (baseFile s This) = some F →
    openPath PATH_MAX s F Name o.pathAddr = .ok (s₁, buf) →
    o.onOpen.SamePath s (buf.str 0) ∧ o.onCreate.SamePath s (buf.str 0)

/-- The promises behind one `FileOpenVolume`. -/
structure VolumeOracle.Sound (o : VolumeOracle) (s : EfiFs) : Prop where
  file : FreshFile s o.fileAddr
  path : FreshPool s o.pathAddr
  onOpen : o.onOpen.Sound s

/-! ## Calls and steps -/

/-- A call on a handle value that neither hands out nor takes back a value, with its
arguments and what the environment decides during it. -/
inductive Access where
  | read (Len : UInt64) (Data : Mem) (o : ReadOracle)
  | write (Len : UInt64) (o : IoOutcome)
  | setPosition (Position : UInt64) (size : Nat)
  | getPosition
  | getInfo (infoType : InfoType) (Len : UInt64) (Data : Mem) (o : GetInfoOracle)
  | setInfo (infoType : InfoType) (Len : UInt64) (Data : Mem) (onSet : EfiStatus)
  | flush (onFlush : EfiStatus)

/-- The state after an access call on the value `This`. -/
def Access.run (s : EfiFs) (This : Nat) : Access → Except Fault EfiFs
  | .read Len Data o => (fileRead s This Len Data o).map (·.1)
  | .write Len o => (fileWrite s This Len o).map (·.1)
  | .setPosition Position size => (fileSetPosition s This Position size).map (·.1)
  | .getPosition => (fileGetPosition s This).map (·.1)
  | .getInfo t Len Data o => (fileGetInfo s This t Len Data o).map (·.1)
  | .setInfo t Len Data onSet => (fileSetInfo s This t Len Data onSet).map (·.1)
  | .flush onFlush => (fileFlush s This onFlush).map (·.1)

/-- The handle a value returned by `FileOpen` stands for: the value less the offset of the
member the mode selected. -/
def Handle.ofValue (v : Nat) (ro : Bool) : Handle := ⟨if ro then v - roOff else v, ro⟩

/-- Whether `FileOpen` with `Mode` hands out a read-only value. -/
def issuedReadOnly (Mode : UInt64) : Bool := Mode &&& efiFileModeWrite == 0

/-- `FileDelete`'s early return, which keeps the value. -/
def deleteRefused (s : EfiFs) (This : Nat) : Bool :=
  match s.files (baseFile s This) with
  | some F => F.isRoot || !F.ntfsInode
  | none => true

/-- The volume and the handles the environment holds. -/
structure World where
  fs : EfiFs
  out : List Handle

/-- One call of the environment. -/
inductive Step (PATH_MAX : Nat) : World → World → Prop
  | openVolume (w : World) (o : VolumeOracle) {fs : EfiFs} {st : EfiStatus} {r : Option Nat}
      (env : o.Sound w.fs) (hr : fileOpenVolume w.fs o = (fs, st, r))
      (same : o.onOpen.SamePath w.fs (some rootPath)) :
      Step PATH_MAX w ⟨fs, (r.map fun v => Handle.ofValue v false).toList ++ w.out⟩
  | open (w : World) (h : Handle) (hh : h ∈ w.out) (Name : Str16) (Mode Attributes : UInt64)
      (o : OpenOracle) {fs : EfiFs} {st : EfiStatus} {r : Option Nat} (env : o.Sound w.fs)
      (hr : fileOpen PATH_MAX w.fs h.value Name Mode Attributes o = .ok (fs, st, r))
      (same : o.SamePath PATH_MAX w.fs h.value Name) :
      Step PATH_MAX w ⟨fs, (r.map fun v => Handle.ofValue v (issuedReadOnly Mode)).toList ++ w.out⟩
  | close (w : World) (h : Handle) (hh : h ∈ w.out) {fs : EfiFs} {st : EfiStatus}
      (hr : fileClose w.fs h.value = .ok (fs, st)) : Step PATH_MAX w ⟨fs, w.out.erase h⟩
  | delete (w : World) (h : Handle) (hh : h ∈ w.out) (onDelete : EfiStatus) {fs : EfiFs}
      {st : EfiStatus} (hr : fileDelete w.fs h.value onDelete = .ok (fs, st)) :
      Step PATH_MAX w ⟨fs, if deleteRefused w.fs h.value then w.out else w.out.erase h⟩
  | access (w : World) (h : Handle) (hh : h ∈ w.out) (a : Access) {fs : EfiFs}
      (hr : a.run w.fs h.value = .ok fs) : Step PATH_MAX w ⟨fs, w.out⟩

/-- A volume before the first call: nothing open, not mounted. -/
def EfiFs.init (readOnly : Bool) (label : Option Str16) (blockIo : Media)
    (blockIo2 : Option Media) : EfiFs :=
  { files := fun _ => none, pool := fun _ => none, totalRefCount := 0, mounted := false,
    readOnly := readOnly, volumeLabel := label, blockIo := blockIo, blockIo2 := blockIo2,
    log := [] }

/-- The worlds a run from an unmounted volume with nothing open can reach. -/
inductive Reachable (PATH_MAX : Nat) : World → Prop
  | init (readOnly : Bool) (label : Option Str16) (blockIo : Media) (blockIo2 : Option Media) :
      Reachable PATH_MAX ⟨EfiFs.init readOnly label blockIo blockIo2, []⟩
  | step {w w' : World} : Reachable PATH_MAX w → Step PATH_MAX w w' → Reachable PATH_MAX w'

/-! ## The first call of a run

The world most witnesses start from: a volume, read-only or not, whose root directory the
firmware has just opened. -/

/-- A volume before the first call, read-only when `ro`. -/
def blankVolume (ro : Bool) : EfiFs := EfiFs.init ro none ⟨512, 0⟩ none

/-- `FileOpenVolume` in which the engine mounts the volume and opens the root directory; the
allocators place the root instance at `256` and its path at `512`. -/
def rootOracle : VolumeOracle :=
  { mount := efiSuccess, fileAddr := 256, pathAddr := 512, onOpen := .opened true }

theorem rootOracle_sound (ro : Bool) (label : Option Str16) :
    rootOracle.Sound (EfiFs.init ro label ⟨512, 0⟩ none) where
  file _ := ⟨rfl, fun _ _ h => by cases h⟩
  path _ := rfl
  onOpen := trivial

/-- The world after that call: the root open once, read-write. -/
def rootOpened (ro : Bool) : World :=
  ⟨(fileOpenVolume (blankVolume ro) rootOracle).1, [⟨256, false⟩]⟩

theorem rootOpened_reachable (PATH_MAX : Nat) (ro : Bool) : Reachable PATH_MAX (rootOpened ro) :=
  .step (.init _ _ _ _) (.openVolume _ rootOracle (rootOracle_sound ro none) rfl trivial)

end UefiNtfs
