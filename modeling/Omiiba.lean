import Omiiba.Loader.TitlePath
import Omiiba.Sm.ListLanes
import Omiiba.Lib.System
import Omiiba.Lib.Table
import Omiiba.Sm.Common
import Omiiba.Sm.Processes
import Omiiba.Sm.Srv
import Omiiba.Sm.Main
import Omiiba.Lib.KeyedTable
import Omiiba.Sm.Names
import Omiiba.Sm.ServiceMap
import Omiiba.Sm.NotificationQueue
import Omiiba.Sm.Actions
import Omiiba.Sm.Owned
import Omiiba.Sm.Loop
import Omiiba.Sm.WakeUp
import Omiiba.Sm.HandleList
import Omiiba.Sm.Script
import Omiiba.Sm.WaitQueue
import Omiiba.Sm.Replay
import Omiiba.Sm.NotificationCommands
import Omiiba.Sm.NotificationTokens
import Omiiba.Lib.Memory
import Omiiba.Loader.IpsPatch
import Omiiba.Loader.BpsPatcher
import Omiiba.Loader.BpsFormat
import Omiiba.Loader.BpsApply
import Omiiba.Lib.Words
import Omiiba.Loader.BpsCommands
import Omiiba.Loader.BpsRobust
import Omiiba.Lib.Effects
import Omiiba.Rosalina.CheatVm
import Omiiba.Rosalina.CheatFrame
import Omiiba.Rosalina.CheatControl
import Omiiba.Rosalina.CheatOperands
import Omiiba.Rosalina.CheatFile
import Omiiba.Rosalina.CheatLoader
import Omiiba.Rosalina.CheatPlacement
import Omiiba.Arm9.Ini
import Omiiba.Arm9.Options
import Omiiba.Arm9.ConfigIni
import Omiiba.Arm9.ConfigKeys
import Omiiba.Arm9.ConfigParse
import Omiiba.Lib.Hex
import Omiiba.Rosalina.GdbNet
import Omiiba.Rosalina.GdbTio
import Omiiba.Rosalina.GdbThread
import Omiiba.Rosalina.GdbXfer
import Omiiba.Lib.Slots
import Omiiba.Rosalina.GdbBreakpoints
import Omiiba.Lib.Patches
import Omiiba.Rosalina.GdbTransparency
import Omiiba.Rosalina.GdbWatchpoints
import Omiiba.Loader.Lzss
import Omiiba.Loader.Homebrew3dsx
import Omiiba.Loader.ProgramCache
import Omiiba.Lib.Writes
import Omiiba.Rosalina.GdbMem
import Omiiba.Rosalina.GdbReceive
import Omiiba.Lib.Handles
import Omiiba.Lib.Worklist
import Omiiba.Rosalina.GdbTioFiles
import Omiiba.Rosalina.GdbContexts
import Omiiba.Rosalina.SockUtil
import Omiiba.Pxi.Sender
import Omiiba.Pxi.Threads
import Omiiba.Pxi.Replies
import Omiiba.Pm.ProcessData
import Omiiba.Pm.Termination
import Omiiba.Pm.Launch
import Omiiba.Pm.LaunchCleanup
import Omiiba.Pm.LaunchClosure
import Omiiba.Lib.Bits
import Omiiba.Pxi.StaticBuffers
import Omiiba.K11.SessionTable
import Omiiba.Arm9.FirmCheck
import Omiiba.K11.SyscallDebug
import Omiiba.K11.LangEmu
import Omiiba.K11.ThreadLock
import Omiiba.Rosalina.GdbDebug
import Omiiba.Arm9.MergeModules
import Omiiba.Rosalina.PluginLoad
import Omiiba.Arm9.FloatText
import Omiiba.Rosalina.CheatMemory
import Omiiba.Rosalina.CheatSkip
import Omiiba.Rosalina.CheatBlocks
import Omiiba.Rosalina.CheatReader
import Omiiba.Sm.SessionClose
import Omiiba.Lib.Ledger
import Omiiba.Loader.ServiceManager
import Omiiba.Loader.ServiceRun
import Omiiba.Rosalina.PluginState
import Omiiba.Rosalina.PluginRun
import Omiiba.Rosalina.GdbPacket
import Omiiba.Arm9.OptionFractions
import Omiiba.Loader.Paslr
import Omiiba.Arm9.ReadConfig
import Omiiba.Loader.LzssReference
import Omiiba.Loader.Relocation
import Omiiba.Lib.Search
import Omiiba.Loader.PatchMemory
import Omiiba.Lib.Locks
import Omiiba.Rosalina.GdbLocks
import Omiiba.Rosalina.GdbWrite
import Omiiba.Rosalina.GdbWriteRaw
import Omiiba.Rosalina.GdbFrame
import Omiiba.Rosalina.GdbTransfer
import Omiiba.Pm.Reslimit
import Omiiba.Lib.FreeList
import Omiiba.Lib.BitFields
import Omiiba.Pm.ExHeaderInfoHeap
import Omiiba.K11.Mmu
import Omiiba.Rosalina.PluginFailure
import Omiiba.Lib.Toggle
import Omiiba.Rosalina.InputRedirection
import Omiiba.Lib.Scan
import Omiiba.Rosalina.GdbSearch
import Omiiba.Arm9.Crc
import Omiiba.Arm9.DeliverArg
import Omiiba.Loader.SysmoduleCxi
import Omiiba.Rosalina.GdbThreadId
import Omiiba.Rosalina.GdbResume
import Omiiba.Rosalina.GdbHandles
import Omiiba.Rosalina.GdbConsole
import Omiiba.Rosalina.GdbHio
import Omiiba.Rosalina.GdbStat
import Omiiba.Rosalina.Screenshot
import Omiiba.Loader.LayeredFs
import Omiiba.Arm9.FileCopy
import Omiiba.Arm9.Pin
import Omiiba.Loader.HbldrCommands
import Omiiba.Rosalina.GdbRegs
import Omiiba.Lib.Periods
import Omiiba.Rosalina.DateTime
import Omiiba.Rosalina.GdbSupported
import Omiiba.Lib.Scaling
import Omiiba.Rosalina.Ntp
import Omiiba.Lib.Files
import Omiiba.Updater.Install
import Omiiba.Lib.Intrusive
import Omiiba.Pm.ProcessList
import Omiiba.Lib.BlockModes
import Omiiba.Arm9.Aes
import Omiiba.Lib.Simulation
import Omiiba.Arm9.CtrNand
import Omiiba.Arm9.Fmt
import Omiiba.Rosalina.TaskRunner
