import Netclover.Lib.Proc
import Netclover.Lib.Blocks
import Netclover.Lib.Runs
import Netclover.Libc.Basic
import Netclover.Stage2.Fat
import Netclover.Stage2.FatSpec
import Netclover.Fat12.Volume
import Netclover.Stage2.Mount
import Netclover.Stage2.Chain
import Netclover.Stage2.Load
import Netclover.Stage2.Client
import Netclover.Stage2.RootDir
import Netclover.Stage2.Names
import Netclover.Stage2.Rewind
import Netclover.Stage2.Geometry
import Netclover.Stage2.Boot
import Netclover.Stdio.Console
import Netclover.Stdio.Screen
import Netclover.Kernel.Idt
import Netclover.Stdio.Canvas
import Netclover.Stdio.Safety
import Netclover.Kernel.Paging
import Netclover.Lib.Numeral
import Netclover.Libc.Division
import Netclover.Stdio.Printf
import Netclover.Stdio.Format
import Netclover.Stdio.Vprintf
import Netclover.Stage2.MemDetect
import Netclover.Kernel.Handoff
import Netclover.Stage2.LoadingBar
import Netclover.Stage2.Failures
import Netclover.Stage2.Components
import Netclover.Stage2.OpenPasses
import Netclover.Stage2.Detect
import Netclover.Stage2.Walk
import Netclover.Stage2.SearchEnds
import Netclover.Stage2.Directory
import Netclover.Lib.I386
import Netclover.Stage1.DiskRoutines
import Netclover.Stage2.RealMode
import Netclover.Stage2.DiskRetries
import Netclover.Stage2.E820
import Netclover.Stage2.Initialize
import Netclover.Stage2.Keys
import Netclover.Stage2.LiveEntries
import Netclover.Stage2.Contained
import Netclover.Kernel.Exceptions
import Netclover.Kernel.InitIdt
import Netclover.Kernel.Windows
import Netclover.Stdio.Roll
import Netclover.Stdio.Typing
import Netclover.Stdio.Tabs
import Netclover.Kernel.Keyboard
import Netclover.Kernel.KeyboardPort
import Netclover.Stdio.CutOff
import Netclover.Kernel.FaultReport
import Netclover.Fat12.Packing
import Netclover.Stage2.Unpacking
import Netclover.Fat12.Regions
import Netclover.Stage2.DataSection
import Netclover.Stdio.Scrollback
import Netclover.Kernel.Service
import Netclover.Kernel.Wakeup
import Netclover.Kernel.Session
import Netclover.Lib.I8042
import Netclover.Stage1.A20
import Netclover.Stage1.Init
import Netclover.Kernel.Gdt
import Netclover.Stage2.Start
import Netclover.Stage2.Cmain
import Netclover.Kernel.LongMode
import Netclover.Libc.Strings
import Netclover.Stage2.DiskLog
