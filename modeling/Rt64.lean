import Rt64.Lib.ByteMemory
import Rt64.Lib.LinkedChain
import Rt64.Lib.RadixTree
import Rt64.Lib.Numeral
import Rt64.Lib.Record
import Rt64.Lib.Transition
import Rt64.Lib.WordArray
import Rt64.Lib.X64
import Rt64.Include.Defs
import Rt64.Include.Access
import Rt64.Klib.String
import Rt64.Klib.StringCopy
import Rt64.Boot.Bootmain
import Rt64.Boot.BootHeader
import Rt64.Kernel.Kalloc
import Rt64.Kernel.Paging
import Rt64.Kernel.PageTree
import Rt64.Kernel.PagingMap
import Rt64.Kernel.PagingRange
import Rt64.Kernel.PagingDeepcopy
import Rt64.Kernel.Process
import Rt64.Kernel.Spawn
import Rt64.Kernel.Isolation
import Rt64.Kernel.Processor
import Rt64.Kernel.Rounds
import Rt64.Kernel.Scheduler
import Rt64.Kernel.SleepAccounting
import Rt64.Kernel.RoundRobin
import Rt64.Kernel.IdleLoop
import Rt64.Kernel.InterruptLatency
import Rt64.Kernel.Switch
import Rt64.Kernel.Threads
import Rt64.Kernel.Trap
import Rt64.Kernel.Contracts
import Rt64.Kernel.SleepReturn
import Rt64.Kernel.Main
import Rt64.Kernel.ProcessTable
import Rt64.Kernel.HardwareContext
import Rt64.Kernel.Creation
import Rt64.Kernel.ProcessLife
import Rt64.Kernel.Lapic
import Rt64.Kernel.Acpi
import Rt64.Kernel.TrapSafety
import Rt64.Kernel.Trapinit
import Rt64.Kernel.Descriptors
import Rt64.Kernel.Acpiinit
import Rt64.Kernel.RunnableSearch
import Rt64.Kernel.Cga
import Rt64.Kernel.Console
import Rt64.Kernel.ConsoleFormat
import Rt64.Kapp.Rt
import Rt64.Kapp.Minctest
import Rt64.Kapp.MinctestStats
import Rt64.Kapp.MinctestTiming
import Rt64.Kernel.WaitingTime
import Rt64.Kernel.TimerInterrupts
import Rt64.Kernel.UserMemory
import Rt64.Kernel.TableSize
import Rt64.Kernel.BootChain
import Rt64.Kernel.ResponseTime
import Rt64.Kernel.Uart
import Rt64.Kernel.Startup
import Rt64.Kernel.UserPrint
import Rt64.Kapp.Kernctest
import Rt64.Kernel.Bringup
import Rt64.Kernel.Lapicstartap
