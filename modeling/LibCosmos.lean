import LibCosmos.Foundation.Machine
import LibCosmos.Foundation.Command
import LibCosmos.Foundation.Custody
import LibCosmos.Foundation.PathStack
import LibCosmos.Core.Types
import LibCosmos.Core.Bytes
import LibCosmos.Core.Str
import LibCosmos.IO.IOVector
import LibCosmos.FS.Path
import LibCosmos.FS.FileDescriptor
import LibCosmos.Foundation.Terminated
import LibCosmos.FS.DirEntry
import LibCosmos.FS.DirStream
import LibCosmos.FS.FDFile
import LibCosmos.FS.Ownership
import LibCosmos.Core.Split
import LibCosmos.Core.SplitRuns
import LibCosmos.Core.Strip
import LibCosmos.Foundation.Numerals
import LibCosmos.Core.OStream
import LibCosmos.Core.Formatting
import LibCosmos.Error.CosmosError
import LibCosmos.IO.EventFile
import LibCosmos.IO.ILogger
import LibCosmos.FS.FileSystem
import LibCosmos.FS.INotify
import LibCosmos.FS.MakeAllDirs
import LibCosmos.FS.RemoveTree
import LibCosmos.Net.ControlMessage
import LibCosmos.Net.MessageHeader
import LibCosmos.Net.UnixAddress
import LibCosmos.Net.UnixAux
import LibCosmos.Net.UnixRights
import LibCosmos.Proc.RunClone2
import LibCosmos.Proc.SigAction
import LibCosmos.Thread.PosixThread
import LibCosmos.Core.BitMask
import LibCosmos.Core.SizedArray
import LibCosmos.Proc.WaitStatus
import LibCosmos.Proc.Ptrace
import LibCosmos.Proc.Tracee
import LibCosmos.Time.TimeSpec
import LibCosmos.Time.Durations
import LibCosmos.Foundation.KeyMap
import LibCosmos.Core.InfoBase
import LibCosmos.Core.Initable
import LibCosmos.Thread.LockGuard
import LibCosmos.Thread.ErrorCodes
import LibCosmos.Foundation.Places
import LibCosmos.Core.Ledger
import LibCosmos.Core.Growing
import LibCosmos.Net.ResultList
import LibCosmos.Proc.Mapping
import LibCosmos.FS.TempFile
import LibCosmos.FS.Fcntl
import LibCosmos.Foundation.Holdings
import LibCosmos.FS.FileLock
import LibCosmos.FS.Which
import LibCosmos.Foundation.Blocks
import LibCosmos.Proc.AuxVector
import LibCosmos.Proc.AuxMap
import LibCosmos.Proc.Groups
import LibCosmos.Net.SockOpts
import LibCosmos.Net.SocketMessages
import LibCosmos.Net.SocketError
import LibCosmos.Proc.Exec
import LibCosmos.Proc.LimitSettings
import LibCosmos.Foundation.Moves
import LibCosmos.Proc.ChildCloner
import LibCosmos.Proc.RunChild
import LibCosmos.Proc.ErrorPipe
import LibCosmos.Proc.MapFlags
import LibCosmos.Proc.SignalFD
import LibCosmos.Proc.SignalSource
import LibCosmos.Proc.PidFdSignal
import LibCosmos.Proc.SubProc
import LibCosmos.IO.StreamRead
import LibCosmos.Core.InitFailure
import LibCosmos.Thread.MutexAttr
import LibCosmos.Net.SendControl
import LibCosmos.FS.TempTemplate
import LibCosmos.Foundation.Escape
import LibCosmos.IO.Color
import LibCosmos.IO.Logger
import LibCosmos.Foundation.Shared
import LibCosmos.IO.EventCounter
import LibCosmos.Foundation.Schedule
import LibCosmos.Time.TimerFD
import LibCosmos.Foundation.Framing
import LibCosmos.IO.PipeTransfer
import LibCosmos.Sample.NetCat
import LibCosmos.FS.ModeText
import LibCosmos.FS.OpenFlags
import LibCosmos.Net.SocketOwnership
import LibCosmos.Foundation.Contents
import LibCosmos.Foundation.Copies
import LibCosmos.FS.CopyRange
import LibCosmos.Foundation.Mail
import LibCosmos.Net.Datagrams
