import Fluke.Mem.AllocRuns
import Fluke.Mem.PmmTail
import Fluke.Containers.Queue
import Fluke.Containers.Tree.Runs
import Fluke.User.Vm.Placement
import Fluke.User.Vm.Edits
import Fluke.User.Vm.Tlb
import Fluke.X86.Mmu.Isolation
import Fluke.X86.Mmu.Visits
import Fluke.X86.Mmu.Edit
import Fluke.Mem.UserCopy
import Fluke.Share.ElfLoader
import Fluke.Libc.Getline
import Fluke.User.Descriptor.Syscalls
import Fluke.User.Ipc.Calls
import Fluke.Print.Printf
import Fluke.Libc.Directive
import Fluke.X86.Clock
import Fluke.Libc.Fopen
import Fluke.User.Module
import Fluke.User.Process
import Fluke.Forth.Parse
import Fluke.Forth.Number
import Fluke.Symbols
import Fluke.Forth.Definitions
import Fluke.Mem.StringInstructions
import Fluke.Libc.Strlen
import Fluke.Libc.Memmove
import Fluke.Libc.UserShare
import Fluke.Libc.Atexit
import Fluke.Libc.Dup
import Fluke.Print.Console
import Fluke.User.UserRange
import Fluke.User.Irq.Runs
import Fluke.User.Schedule.Timeouts
import Fluke.User.Descriptor.Processes
import Fluke.User.Fork
import Fluke.Libc.ProgramStack
