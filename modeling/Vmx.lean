import Vmx.Lib.Transition
import Vmx.Lib.KeyedList
import Vmx.Lib.Timers
import Vmx.Util.QLib
import Vmx.Os.FfsLib
import Vmx.Util.QPriBmp
import Vmx.Util.QClasses
import Vmx.Kernel.State
import Vmx.Kernel.VmxLib
import Vmx.Kernel.Frame
import Vmx.Kernel.Coherence
import Vmx.Kernel.Timeout
import Vmx.Kernel.Waiters
import Vmx.Lib.Counting
import Vmx.Sem.Mutex
import Vmx.Sem.MutexRuns
import Vmx.Sem.SemLib
import Vmx.Sem.Conservation
import Vmx.Fs.Ext2Map
import Vmx.Fs.Ext2BlockMap
import Vmx.Kernel.WorkQ
import Vmx.Lib.Tiling
import Vmx.Os.MemPartLib
import Vmx.Os.MemHeap
import Vmx.Os.MemPart
import Vmx.Os.MemPartRuns
import Vmx.Util.RngLib
import Vmx.Util.RngFifo
import Vmx.Lib.Chain
import Vmx.Util.HashLib
import Vmx.Util.Hash
import Vmx.Os.SymLib
import Vmx.Os.SymTable
import Vmx.Util.ListLib
import Vmx.Fs.VnodeLib
import Vmx.Fs.Vnode
import Vmx.Fs.Rt11Dir
import Vmx.Fs.Rt11Vops
import Vmx.Fs.Rt11Extents
import Vmx.Fs.Rt11Open
import Vmx.Os.TyLib
import Vmx.Os.TyLine
import Vmx.Os.TyWrite
import Vmx.Fs.XbdLib
import Vmx.Fs.XbdCalls
import Vmx.Fs.XbdPartTable
import Vmx.Fs.XbdPartition
import Vmx.Lib.FreeLists
import Vmx.Net.NetBuf
import Vmx.Net.NetPool
import Vmx.Net.NetPoolInit
import Vmx.Net.NetPoolRuns
import Vmx.Fs.BufLib
import Vmx.Fs.BufOwner
import Vmx.Fs.FsBufLeak
import Vmx.Fs.VncioErrors
import Vmx.Ugl.UdcClr
import Vmx.Ugl.ClutLists
import Vmx.Ugl.ClutRuns
import Vmx.Ugl.ClutNearest
import Vmx.Ugl.CubeLib
import Vmx.Ugl.CubeRuns
import Vmx.Ugl.EllipseGet
import Vmx.Ugl.EllipseRuns
import Vmx.Lib.Transfer
import Vmx.Ugl.BitCopy
import Vmx.Ugl.BitPieces
import Vmx.Ugl.BitCopyRuns
import Vmx.Ugl.BitCopyFit
import Vmx.Ugl.GenClip
import Vmx.Lib.InPlace
import Vmx.Ugl.BitmapBlt
import Vmx.Ugl.BitmapBltRuns
import Vmx.Lib.DigitalLine
import Vmx.Ugl.GenLine
import Vmx.Ugl.LineClip
import Vmx.Ugl.LineRuns
import Vmx.Ugl.GenPoly
import Vmx.Ugl.PolyOutline
import Vmx.Ugl.PolyRuns
import Vmx.Os.TaskHook
import Vmx.Os.TaskSwapHook
import Vmx.Os.TaskVarLib
import Vmx.Os.ModuleLib
import Vmx.Os.ModuleRegistry
import Vmx.Os.TaskVar
import Vmx.Os.MemRealloc
import Vmx.Os.MemReallocRuns
import Vmx.Net.SbLib
import Vmx.Net.SbRuns
import Vmx.Os.IoLib
import Vmx.Os.IoRuns
import Vmx.Fs.Ext2ConvLib
import Vmx.Fs.Ext2Conv
import Vmx.Kernel.CallTrace
import Vmx.Kernel.Undelay
import Vmx.Fs.Ext2InodeGet
import Vmx.Kernel.CallBalance
import Vmx.Kernel.MsgQCalls
import Vmx.Fs.Ext2DirLib
import Vmx.Fs.FileRead
import Vmx.Fs.Ext2Dir
import Vmx.Kernel.WatchdogLib
import Vmx.Kernel.Watchdog
import Vmx.Kernel.DeleteSafety
import Vmx.Os.PipeDrv
import Vmx.Os.PipeWakeups
import Vmx.Os.SymByValue
import Vmx.Os.SymLocks
import Vmx.Fs.Rt11NameLib
import Vmx.Fs.Rt11Name
import Vmx.Fs.Rt11Readdir
import Vmx.Os.PathLib
import Vmx.Os.TyFlow
import Vmx.Os.PathNames
import Vmx.Os.ErfLib
import Vmx.Os.PathCondense
import Vmx.Os.ErfEvents
import Vmx.Os.IosLib
import Vmx.Os.IosTable
import Vmx.Os.IosRuns
import Vmx.Lib.Words
import Vmx.Fs.VfsLib
import Vmx.Fs.VfsNamei
import Vmx.Fs.VfsCreate
import Vmx.Fs.VfsDelete
import Vmx.Os.SelectLib
import Vmx.Os.SelectRuns
import Vmx.Os.SelectCalls
import Vmx.Fs.Ext2Sparse
import Vmx.Lib.Calendar
import Vmx.Libc.TimeLib
import Vmx.Libc.LocalTime
import Vmx.Libc.MkTime
import Vmx.Os.PathCat
import Vmx.Net.MbufLib
import Vmx.Net.ClusterClass
import Vmx.Net.MbufChain
import Vmx.Net.ClusterFit
import Vmx.Net.ShareLib
import Vmx.Net.ShareFrame
import Vmx.Net.NetBufWait
import Vmx.Lib.OnesComplement
import Vmx.Util.CksumLib
import Vmx.Util.DllLib
import Vmx.Util.QPrioLib
import Vmx.Util.QPriBmpLib
import Vmx.Lib.Copies
import Vmx.Os.UioLib
import Vmx.Os.PipeDelete
import Vmx.Os.EnvLib
import Vmx.Os.EnvMemory
import Vmx.Os.EnvRuns
import Vmx.Libc.StdioRead
import Vmx.Libc.StdioInput
import Vmx.Libc.StdioInputRuns
import Vmx.Libc.StdioWrite
import Vmx.Libc.StdioOutput
import Vmx.Libc.StdioOutputRuns
import Vmx.Os.SigMask
