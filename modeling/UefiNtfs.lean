import UefiNtfs.Efi
import UefiNtfs.State
import UefiNtfs.Engine
import UefiNtfs.Path
import UefiNtfs.Open
import UefiNtfs.Ops
import UefiNtfs.Dir
import UefiNtfs.Info
import UefiNtfs.Run
import UefiNtfs.Atomic
import UefiNtfs.Frame
import UefiNtfs.Effects
import UefiNtfs.RefCount
import UefiNtfs.Lifetime
import UefiNtfs.ReadOnly
import UefiNtfs.Enumerate
import UefiNtfs.Buffers
import UefiNtfs.PathSpec
import UefiNtfs.PathInvariant
import UefiNtfs.Resolve
import UefiNtfs.Delete
import UefiNtfs.Position
import UefiNtfs.Ownership
import UefiNtfs.OpenClose
import UefiNtfs.RootFlag
import UefiNtfs.Safety
import UefiNtfs.InfoStrings
import UefiNtfs.Install
import UefiNtfs.Table
import UefiNtfs.Isolation
