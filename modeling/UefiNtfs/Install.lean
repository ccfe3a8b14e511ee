import UefiNtfs.Lifetime

set_option autoImplicit false

/-! # Installing the file system on a volume and taking it off

`FSInstall` (lines 809-844 of `uefi_file.c`) probes a volume: it reads block 0 into a buffer
from the pool and compares the OEM ID at byte 3 with `"NTFS    "`, frees the buffer, and installs
the protocol on the controller. `FSUninstall` (lines 848-860) forces the unmount when
`TotalRefCount` says values are still out, and removes the protocol. Neither touches the
instances.

On a writable volume the two agree with the runs of the file layer: `FSInstall` leaves the state
as it found it (`install_accepts_ntfs`), and `FSUninstall` leaves the volume unmounted
(`uninstall_unmounts`). Two things fall outside: `CompareMem` reads past a buffer of fewer than
11 bytes (`install_reads_past_block`), and `TotalRefCount` is not the mount state in every
reachable world (`uninstall_mount_mismatch`).
-/

namespace UefiNtfs

/-! ## `FSInstall` -/

/-- The OEM ID of an NTFS boot sector, at its byte 3: `"NTFS    "`. -/
def ntfsMagic : List UInt8 := [0x4E, 0x54, 0x46, 0x53, 0x20, 0x20, 0x20, 0x20]

/-- What the environment decides during `FSInstall`. -/
structure InstallOracle where
  /-- The address `AllocateZeroPool` returns for the block buffer; `0` when it fails. -/
  bufAddr : Nat
  /-- The status `ReadBlocks` reports. -/
  read : EfiStatus
  /-- The volume's first block. -/
  block : Mem
  /-- Memory from the buffer's address on, as the heap holds it past the buffer. -/
  heap : Mem
  /-- The status `InstallMultipleProtocolInterfaces` reports. -/
  onInstall : EfiStatus

/-- The block buffer after `ReadBlocks`: the volume's first `BlockSize` bytes, the heap after
them. -/
def InstallOracle.buffer (o : InstallOracle) (BlockSize : Nat) : Mem :=
  o.heap.write 0 (o.block.bytes 0 BlockSize)

/-- `FSInstall (This, ControllerHandle)`: the volume after the call and its status. The pool
tracks buffers in `CHAR16` cells; the block buffer is never read as a string. -/
def fsInstall (s : EfiFs) (o : InstallOracle) : EfiFs × EfiStatus :=
  let BlockSize := s.blockIo.blockSize.toNat
  if o.bufAddr = 0 then (s, efiOutOfResources) else
  let s := allocateZeroPool s o.bufAddr (BlockSize / sizeOfChar16)
  let Status := if efiError o.read then o.read
    else if (o.buffer BlockSize).bytes 3 8 != ntfsMagic then efiUnsupported else efiSuccess
  let s := freePool s o.bufAddr
  if efiError Status then (s, Status)
  else if efiError o.onInstall then (s, o.onInstall)
  else (s, efiSuccess)

/-- On blocks of 11 bytes or more, bytes 3-10 of the buffer are those of the volume's first
block. -/
theorem InstallOracle.buffer_bytes (o : InstallOracle) {BlockSize : Nat} (h : 11 ≤ BlockSize) :
    (o.buffer BlockSize).bytes 3 8 = o.block.bytes 3 8 := by
  refine List.map_congr_left fun j hj => ?_
  simp only [List.mem_range] at hj
  simp [InstallOracle.buffer, Mem.write, Mem.bytes, show 3 + j < BlockSize by omega]

section Install

variable {s : EfiFs} {o : InstallOracle}

/-- `FSInstall` frees the block buffer on every path past its allocation, and touches nothing
else but the log. -/
theorem fsInstall_state (hfresh : FreshPool s o.bufAddr) :
    (fsInstall s o).1 = { s with log := s.log ++
      if o.bufAddr = 0 then [] else [.allocatePool o.bufAddr, .freePool o.bufAddr] } := by
  unfold fsInstall
  by_cases hp : o.bufAddr = 0
  · simp [hp]
  · have hnone := hfresh hp
    simp only [if_neg hp, allocateZeroPool_of_ne _ hp, freePool_of_ne _ hp]
    split_ifs <;> simp [EfiFs.ext_iff, EfiFs.record, hnone]

/-- `FSInstall` succeeds exactly when the allocation, the read and the installation do and the
buffer holds the NTFS OEM ID at byte 3. -/
theorem fsInstall_success :
    (fsInstall s o).2 = efiSuccess ↔ o.bufAddr ≠ 0 ∧ efiError o.read = false ∧
      (o.buffer s.blockIo.blockSize.toNat).bytes 3 8 = ntfsMagic ∧ efiError o.onInstall = false := by
  unfold fsInstall
  by_cases hp : o.bufAddr = 0
  · simp [hp, ne_success_of_efiError efiError_outOfResources]
  by_cases hr : efiError o.read = true
  · simp [hp, hr, ne_success_of_efiError hr]
  by_cases hm : (o.buffer s.blockIo.blockSize.toNat).bytes 3 8 = ntfsMagic
  · by_cases hi : efiError o.onInstall = true
    · simp [hp, hr, hm, hi, ne_success_of_efiError hi]
    · simp [hp, hr, hm, hi]
  · simp [hp, hr, hm, ne_success_of_efiError efiError_unsupported]

end Install

/-- **`FSInstall` takes exactly the NTFS volumes, and leaves nothing behind.** On a medium whose
blocks hold 11 bytes or more, and given a fresh address for the block buffer (or none),
`FSInstall` reports `EFI_SUCCESS` exactly when the buffer is allocated, block 0 is read, the
volume's OEM ID at byte 3 is `"NTFS    "` and the protocol is installed. Whatever it reports, the
volume's state is as before but for the log: no instance, no reference, no mount, and no buffer,
since the block buffer is freed on every path past its allocation. -/
theorem install_accepts_ntfs {s : EfiFs} {o : InstallOracle} (hfresh : FreshPool s o.bufAddr)
    (hbs : 11 ≤ s.blockIo.blockSize.toNat) :
    (∃ calls, (fsInstall s o).1 = { s with log := s.log ++ calls }) ∧
    ((fsInstall s o).2 = efiSuccess ↔ o.bufAddr ≠ 0 ∧ efiError o.read = false ∧
      o.block.bytes 3 8 = ntfsMagic ∧ efiError o.onInstall = false) :=
  ⟨⟨_, fsInstall_state hfresh⟩, o.buffer_bytes hbs ▸ fsInstall_success⟩

/-- The first block of a freshly formatted NTFS volume, as far as `FSInstall` reads it. -/
def ntfsBootBlock : Mem := Mem.write (fun _ => 0) 3 ntfsMagic

/-- The block size matters: on a medium of 4-byte blocks, `CompareMem` reads 7 of its 8 bytes past
the buffer, and `FSInstall` takes a volume whose first block is not NTFS when the heap after the
buffer happens to hold the rest of the OEM ID. -/
theorem install_reads_past_block :
    ∃ (s : EfiFs) (o : InstallOracle), FreshPool s o.bufAddr ∧ s.blockIo.blockSize = 4 ∧
      o.block.bytes 3 8 ≠ ntfsMagic ∧ (fsInstall s o).2 = efiSuccess :=
  ⟨EfiFs.init false none ⟨4, 0⟩ none,
    ⟨4096, efiSuccess, Mem.write (fun _ => 0) 3 [0x4E], ntfsBootBlock, efiSuccess⟩,
    fun _ => rfl, rfl, by decide, by decide⟩

/-! ## `FSUninstall` -/

/-- `FSUninstall (This, ControllerHandle)`: "Files are still open on this volume! Forcing
unmount...". The protocol's removal from the controller is not tracked. -/
def fsUninstall (s : EfiFs) : EfiFs := if s.totalRefCount > 0 then ntfsUnmountVolume s else s

@[simp] theorem fsUninstall_files (s : EfiFs) : (fsUninstall s).files = s.files := by
  unfold fsUninstall; split <;> rfl

/-- **`FSUninstall` leaves a writable volume unmounted, and its open instances allocated.** In
every reachable world of a writable volume, the engine's volume is unmounted after
`FSUninstall`: either values are out and it forces the unmount, or none is and the last one given
back unmounted it. Every value still out keeps its instance: `FSUninstall` frees none. -/
theorem uninstall_unmounts {PATH_MAX : Nat} {w : World} (hw : Reachable PATH_MAX w)
    (hro : w.fs.readOnly = false) :
    (fsUninstall w.fs).mounted = false ∧ ∀ h ∈ w.out, ∃ F, (fsUninstall w.fs).files h.file = some F := by
  refine ⟨?_, fun h hh => ?_⟩
  · unfold fsUninstall
    split
    · rfl
    · cases hm : w.fs.mounted
      · rfl
      · exact absurd ((settled_reachable hw hro).mounted hm) ‹_›
  · obtain ⟨F, hF, -⟩ := (refInv_reachable hw).decode hh
    exact ⟨F, by rw [fsUninstall_files, hF]⟩

/-- The volume after `FileOpenVolume`, taken off. -/
theorem uninstall_unmounts_rootOpened :
    (fsUninstall (rootOpened false).fs).mounted = false ∧
      ∀ h ∈ (rootOpened false).out, ∃ F, (fsUninstall (rootOpened false).fs).files h.file = some F :=
  uninstall_unmounts (rootOpened_reachable 8 false) rfl

/-- Where `FSUninstall` misjudges the mount: it looks at `TotalRefCount`, which two reachable
worlds set apart from the mount. After the read-only delete of `readOnlyDelete_run` it leaves the
volume mounted; after a `FileOpenVolume` whose allocation fails it unmounts a volume already
unmounted. -/
theorem uninstall_mount_mismatch :
    (∃ w : World, Reachable 8 w ∧ w.fs.readOnly = true ∧ (fsUninstall w.fs).mounted = true) ∧
    ∃ w : World, Reachable 8 w ∧ w.fs.readOnly = false ∧ w.fs.mounted = false ∧
      (fsUninstall w.fs).log = w.fs.log ++ [.unmountVolume] := by
  refine ⟨?_, ⟨_, .step (rootOpened_reachable 8 false) (.openVolume _ allocFailOracle
      (allocFailOracle_sound _) rfl trivial), rfl, rfl, rfl⟩⟩
  obtain ⟨w, hw, hro, -, hm, ht, -⟩ := readOnlyDelete_run
  exact ⟨w, hw, hro, by simp [fsUninstall, ht, hm]⟩

end UefiNtfs
