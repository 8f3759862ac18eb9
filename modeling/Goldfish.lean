import Goldfish.Adb.HostServer
import Goldfish.Adb.KeyPath
import Goldfish.Adb.MessageLogger
import Goldfish.Adb.PublicKey
import Goldfish.Archive.Values
import Goldfish.Async.DeadTimers
import Goldfish.Async.DefaultLooper
import Goldfish.Async.DueTimers
import Goldfish.Async.Tasks
import Goldfish.Async.TimerDiscipline
import Goldfish.Async.TimerInvariant
import Goldfish.Battery.Interrupts
import Goldfish.Battery.Snapshot
import Goldfish.Broadcasting.Arguments
import Goldfish.Broadcasting.Subscriptions
import Goldfish.Cmdline.ParseOptionsSound
import Goldfish.Cmdline.Ports
import Goldfish.Cmdline.TokenValue
import Goldfish.Config.Avd
import Goldfish.Devices.ClipboardStream
import Goldfish.Devices.Handshake
import Goldfish.Devices.QemudSnapshot
import Goldfish.Devices.QemudStream
import Goldfish.Devices.Refusal
import Goldfish.Devices.SensorProtocol
import Goldfish.Files.Advertisement
import Goldfish.Files.CopyDir
import Goldfish.Files.DeleteInside
import Goldfish.Files.Dirty
import Goldfish.Files.DiskSize
import Goldfish.Files.FileLock
import Goldfish.Files.FileLockExclusion
import Goldfish.Files.Layout
import Goldfish.Files.LockTimeout
import Goldfish.Files.MkdirIfNeeded
import Goldfish.Files.PathEscape
import Goldfish.Files.PathParent
import Goldfish.Files.ShortWrite
import Goldfish.Files.StaleLocks
import Goldfish.Filesystems.EmptyPartition
import Goldfish.Filesystems.Extraction
import Goldfish.Filesystems.Fstab
import Goldfish.Filesystems.Preserving
import Goldfish.Grpc.QueueWriter
import Goldfish.Grpc.SyncToAsync
import Goldfish.Input.Axis
import Goldfish.Input.Contacts
import Goldfish.Input.Contenders
import Goldfish.Input.Displays
import Goldfish.Input.Expiry
import Goldfish.Keyboard.KeyEventSender
import Goldfish.Launcher.Bootconfig
import Goldfish.Lib.NodeList
import Goldfish.Lib.StdSet
import Goldfish.Lib.Trace
import Goldfish.Logging.NoDuplicateLines
import Goldfish.Memory.ContiguousRangeMapper
import Goldfish.Process.QuoteParameter
import Goldfish.Security.JwkFilter
import Goldfish.Security.JwkLifeCycle
import Goldfish.Security.JwkMirror
import Goldfish.Security.Mediation
import Goldfish.Security.Validators
import Goldfish.Sockets.AsyncSocket
import Goldfish.Sockets.PendingFds
import Goldfish.Sockets.PortForward
import Goldfish.Sockets.SocketWaiter
import Goldfish.Sockets.WriteInterest
import Goldfish.System.Ext4Mounts
import Goldfish.System.StorageCapacity
import Goldfish.System.Version
import Goldfish.VirtioInput.Buttons
import Goldfish.Vsock.Credit
import Goldfish.Vsock.Descriptors
import Goldfish.Vsock.EarlyData
import Goldfish.Vsock.Gather
import Goldfish.Vsock.HalfOpen
import Goldfish.Vsock.Integrity
import Goldfish.Vsock.Lifecycle
import Goldfish.Vsock.Ordering
import Goldfish.Vsock.Packed
import Goldfish.Vsock.Reset
import Goldfish.Vsock.Shrinking
import Goldfish.Vsock.Snapshot
import Goldfish.Ext4.Allocations
import Goldfish.Ext4.Contents
import Goldfish.Ext4.Crc16
import Goldfish.Ext4.Descriptors
import Goldfish.Ext4.Metadata
