import MiniKernel.Bitmap
import MiniKernel.Memory.Manager
import MiniKernel.Memory.Invariant
import MiniKernel.Memory.Contracts
import MiniKernel.Memory.Optimized
import MiniKernel.Memory.SmallPool
import MiniKernel.Scheduler.Core
import MiniKernel.Scheduler.RunQueue
import MiniKernel.Scheduler.Invariant
import MiniKernel.Scheduler.Contracts
import MiniKernel.Scheduler.Balance
import MiniKernel.Scheduler.Starvation
import MiniKernel.FileSystem.Core
import MiniKernel.FileSystem.Step
import MiniKernel.FileSystem.Blocks
import MiniKernel.FileSystem.Loops
import MiniKernel.FileSystem.Tree
import MiniKernel.Paging
import MiniKernel.Console.Vga
import MiniKernel.Console.Format
import MiniKernel.Shell.Command
import MiniKernel.Shell.Loop
import MiniKernel.Strlen
import MiniKernel.Profiler
import MiniKernel.Security.Strings
import MiniKernel.Security.State
import MiniKernel.Security.Invariant
import MiniKernel.Security.Accounts
import MiniKernel.Console.Keyboard
import MiniKernel.Shell.Login
import MiniKernel.Console.KeyboardBuffer
import MiniKernel.Console.VgaOptimized
import MiniKernel.FileSystem.Query
