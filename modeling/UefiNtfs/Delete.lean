import UefiNtfs.Lifetime

set_option autoImplicit false

/-! # What `FileDelete` reports

`FileDelete` (lines 251-289 of `uefi_file.c`) has three exits. It refuses the root and an
instance without an inode with `EFI_ACCESS_DENIED`, before touching anything. Past that check it
gives back the value's reference (`RefCount--`, `TotalRefCount--`) and returns
`EFI_WARN_DELETE_FAILURE` while other values of the instance are out or the volume is read-only.
Otherwise it returns whatever status the engine's delete reports, after the instance has been
released. `fileDelete_cases` (in `Effects`) says this once.

The third exit is where the result stops telling the caller what happened: an engine that fails
the delete (a directory that is not empty, say) makes `FileDelete` return that error, although
the value has been consumed and its instance released (`deleteError_consumes_value`). The other
two statuses are truthful (`deleteStatus_truthful`): `EFI_SUCCESS` follows the engine's delete,
and `EFI_WARN_DELETE_FAILURE` a reference given back with nothing removed.
-/

namespace UefiNtfs

/-- The instance a value out stands for holds that value's reference. -/
theorem RefInv.refCount_pos {s : EfiFs} {out : List Handle} (hi : RefInv s.refs s.totalRefCount out)
    {h : Handle} (hh : h ∈ out) {F : NtfsFile} (hF : s.files h.file = some F) : 1 ≤ F.refCount := by
  have hc : F.refCount = refsOut out h.file := hi.count _ F.refPart (by simp [EfiFs.refs, hF])
  rw [hc, refsOut_erase hh, if_pos rfl]
  omega

/-- The log of `FileDelete`'s third exit goes on from the engine's delete. -/
theorem fileDelete_engine_log (s : EfiFs) (b : Nat) (G : NtfsFile) (onDelete : EfiStatus) :
    ∃ calls, (unmountIfIdle (ntfsFreeFile (ntfsDeleteFile (s.setFile b G).decTotal b onDelete).1
      b)).log = s.log ++ .deleteFile b :: calls := by
  obtain ⟨calls, e, -⟩ := (@LogExt.ntfsFreeFile
    (ntfsDeleteFile (s.setFile b G).decTotal b onDelete).1 b).trans .unmountIfIdle (by simp)
  exact ⟨calls, by rw [e]; simp [ntfsDeleteFile]⟩

/-! ## The engine's error -/

/-- **A failed engine delete still consumes the value.** In every reachable world, a
`FileDelete` of a value out for a non-root instance with an inode, its last value on a writable
volume, returns whatever status the engine's delete reports, an error included. Yet the call is
past its refusal, so the run takes the value back, and the instance has been released and
`TotalRefCount` lowered by one: for an engine error, a status that is neither `EFI_SUCCESS` nor
`EFI_WARN_DELETE_FAILURE`, after which things have changed. -/
theorem deleteError_consumes_value {PATH_MAX : Nat} {w : World} (hw : Reachable PATH_MAX w)
    {h : Handle} (hh : h ∈ w.out) {F : NtfsFile} (hF : w.fs.files h.file = some F)
    (hroot : F.isRoot = false) (hino : F.ntfsInode = true) (hlast : F.refCount = 1)
    (hro : w.fs.readOnly = false) (st₀ : EfiStatus) :
    ∃ s', fileDelete w.fs h.value st₀ = .ok (s', st₀) ∧ deleteRefused w.fs h.value = false ∧
      s'.files h.file = none ∧ s'.totalRefCount = w.fs.totalRefCount - 1 := by
  have hi := refInv_reachable hw
  obtain ⟨F', hF', hbase, -⟩ := hi.decode hh
  obtain rfl : F' = F := Option.some.inj (hF'.symm.trans hF)
  have hF₀ : w.fs.files (baseFile w.fs h.value) = some F' := hbase ▸ hF'
  have hr : (F'.isRoot || !F'.ntfsInode) = false := by simp [hroot, hino]
  obtain ⟨⟨s', st⟩, hd⟩ : ∃ r, fileDelete w.fs h.value st₀ = .ok r := by
    simp only [fileDelete, hF₀]; split_ifs <;> exact ⟨_, rfl⟩
  -- past the refusal, with no other value out on a writable volume: the third exit
  rcases fileDelete_cases hF₀ hd with ⟨hr', -⟩ | ⟨-, -, hk, -⟩ | ⟨-, rfl, -, -, -⟩
  · rw [hr] at hr'; cases hr'
  · rcases hk with hk | hk <;> simp [hlast, hro] at hk
  obtain ⟨hrel, -⟩ := fileDelete_release hF₀ (hbase ▸ hi.file_ne_zero hh) hr hd
  have hnone := congrFun hrel.refs (baseFile w.fs h.value)
  simp only [hlast, hro, and_self, decide_True, if_true, Function.update_same] at hnone
  exact ⟨s', hd, by simp [deleteRefused, hF₀, hr], by simpa [EfiFs.refs, hbase] using hnone,
    hrel.totalRefCount⟩

/-- After `FileOpenVolume` and a read-write open of `"a"` below the root, an engine that refuses
to delete `"a"` with `EFI_ACCESS_DENIED` leaves `FileDelete` returning it, with the value taken
back and the instance of `"a"` released. -/
theorem deleteError_consumes_value_fileA :
    efiError efiAccessDenied = true ∧
      ∃ w : World, Reachable 8 w ∧ (⟨4096, false⟩ : Handle) ∈ w.out ∧
        ∃ s', fileDelete w.fs (rwHandle 4096) efiAccessDenied = .ok (s', efiAccessDenied) ∧
          deleteRefused w.fs (rwHandle 4096) = false ∧ s'.files 4096 = none ∧
          s'.totalRefCount = w.fs.totalRefCount - 1 := by
  have hw := Reachable.step (rootOpened_reachable 8 false) (.open _ ⟨256, false⟩
    (by simp [rootOpened]) nameA (efiFileModeRead ||| efiFileModeWrite) 0 fileAOracle
    (fileAOracle_sound false) rfl fileAOracle_samePath)
  exact ⟨by decide, _, hw, by decide, @deleteError_consumes_value 8 _ hw ⟨4096, false⟩
    (by decide) _ rfl rfl rfl rfl rfl efiAccessDenied⟩

/-! ## What the other two statuses say -/

/-- **`EFI_SUCCESS` and `EFI_WARN_DELETE_FAILURE` are truthful.** In every reachable world, for a
value out and an engine whose delete does not itself report the warning: `EFI_SUCCESS` comes only
from the engine's successful delete of the value's instance, the first call after the world's log,
after which the value is consumed, the instance released and `TotalRefCount` lowered by one.
`EFI_WARN_DELETE_FAILURE` comes only with the value consumed, the instance's `RefCount` and
`TotalRefCount` each lowered by one, no engine call made and the mount state kept. -/
theorem deleteStatus_truthful {PATH_MAX : Nat} {w : World} (hw : Reachable PATH_MAX w)
    {h : Handle} (hh : h ∈ w.out) {onDelete st : EfiStatus} {s' : EfiFs}
    (hon : onDelete ≠ efiWarnDeleteFailure) (hd : fileDelete w.fs h.value onDelete = .ok (s', st)) :
    (st = efiSuccess → deleteRefused w.fs h.value = false ∧ onDelete = efiSuccess ∧
      (∃ calls, s'.log = w.fs.log ++ .deleteFile h.file :: calls) ∧ s'.files h.file = none ∧
      s'.totalRefCount = w.fs.totalRefCount - 1) ∧
    (st = efiWarnDeleteFailure → deleteRefused w.fs h.value = false ∧ s'.log = w.fs.log ∧
      s'.totalRefCount = w.fs.totalRefCount - 1 ∧ s'.mounted = w.fs.mounted ∧
      ∃ F, w.fs.files h.file = some F ∧
        s'.files h.file = some { F with refCount := F.refCount - 1 }) := by
  have hi := refInv_reachable hw
  obtain ⟨F, hF, hbase, -⟩ := hi.decode hh
  have hF' : w.fs.files (baseFile w.fs h.value) = some F := hbase ▸ hF
  have hd' : deleteRefused w.fs h.value = (F.isRoot || !F.ntfsInode) := by
    simp [deleteRefused, hF']
  rcases fileDelete_cases hF' hd with ⟨-, rfl, -⟩ | ⟨hr, rfl, -, rfl⟩ | ⟨hr, rfl, hle, hro, hs'⟩
  · -- the refusal reports neither
    exact ⟨fun he => absurd he (by decide), fun he => absurd he (by decide)⟩
  · -- the warning: the reference given back, the instance kept
    refine ⟨fun he => absurd he (by decide),
      fun _ => ⟨hd'.trans hr, by simp, by simp, by simp, F, hF, ?_⟩⟩
    simp [hbase]
  -- the engine's delete, then the release
  refine ⟨fun hs => ⟨hd'.trans hr, hs, ?_, ?_, ?_⟩, fun hwarn => absurd hwarn hon⟩
  · rw [hs', ← hbase]
    exact fileDelete_engine_log _ _ _ _
  all_goals obtain ⟨hrel, -⟩ := fileDelete_release hF' (hbase ▸ hi.file_ne_zero hh) hr hd
  · have h1 : F.refCount = 1 := by have := hi.refCount_pos hh hF; omega
    have hnone := congrFun hrel.refs (baseFile w.fs h.value)
    simp only [h1, hro, and_self, decide_True, if_true, Function.update_same] at hnone
    simpa [EfiFs.refs, hbase] using hnone
  · exact hrel.totalRefCount

/-- After `FileOpenVolume` and a read-write open of `"a"` below the root, an engine that deletes
`"a"` makes `FileDelete` report `EFI_SUCCESS`, its delete the first call of the exit. -/
theorem deleteStatus_truthful_fileA :
    ∃ w : World, Reachable 8 w ∧
      ∃ s', fileDelete w.fs (rwHandle 4096) efiSuccess = .ok (s', efiSuccess) ∧
        deleteRefused w.fs (rwHandle 4096) = false ∧
        (∃ calls, s'.log = w.fs.log ++ .deleteFile 4096 :: calls) ∧ s'.files 4096 = none ∧
        s'.totalRefCount = w.fs.totalRefCount - 1 := by
  have hw := Reachable.step (rootOpened_reachable 8 false) (.open _ ⟨256, false⟩
    (by simp [rootOpened]) nameA (efiFileModeRead ||| efiFileModeWrite) 0 fileAOracle
    (fileAOracle_sound false) rfl fileAOracle_samePath)
  obtain ⟨hd, -, hlog, hfiles, htot⟩ := (@deleteStatus_truthful 8 _ hw ⟨4096, false⟩ (by decide)
    efiSuccess efiSuccess _ (by decide) rfl).1 rfl
  exact ⟨_, hw, _, rfl, hd, hlog, hfiles, htot⟩

end UefiNtfs
