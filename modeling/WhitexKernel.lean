import WhitexKernel.Asm.Copies
import WhitexKernel.Asm.Interrupts
import WhitexKernel.Asm.Model
import WhitexKernel.Asm.Syscall
import WhitexKernel.Boot.Descriptors
import WhitexKernel.Calc.Correct
import WhitexKernel.Calc.Decimal
import WhitexKernel.Calc.InPlace
import WhitexKernel.Calc.Indices
import WhitexKernel.Calc.Machine
import WhitexKernel.Calc.Model
import WhitexKernel.Calc.Reading
import WhitexKernel.Calc.Rendering
import WhitexKernel.Fault.Protection
import WhitexKernel.Heap.Chain
import WhitexKernel.Heap.FreeRam
import WhitexKernel.Heap.Model
import WhitexKernel.Heap.Runs
import WhitexKernel.Heap.Walk
import WhitexKernel.Lib.Ancestry
import WhitexKernel.Lib.BitField
import WhitexKernel.Lib.Bitmap
import WhitexKernel.Lib.BoundedMap
import WhitexKernel.Lib.Bytes
import WhitexKernel.Lib.Descriptor
import WhitexKernel.Lib.FlatMemory
import WhitexKernel.Lib.Handover
import WhitexKernel.Lib.I386
import WhitexKernel.Lib.Keyed
import WhitexKernel.Lib.Loans
import WhitexKernel.Lib.OnesComplement
import WhitexKernel.Lib.Orbit
import WhitexKernel.Lib.Outcome
import WhitexKernel.Lib.OwnedLock
import WhitexKernel.Lib.Page
import WhitexKernel.Lib.PageWalk
import WhitexKernel.Lib.Rank
import WhitexKernel.Lib.Recorded
import WhitexKernel.Lib.Recovery
import WhitexKernel.Lib.RegisterFrame
import WhitexKernel.Lib.ReversePolish
import WhitexKernel.Lib.Ring
import WhitexKernel.Lib.ShuntingYard
import WhitexKernel.Lib.Since
import WhitexKernel.Lib.Stateful
import WhitexKernel.Lib.Transition
import WhitexKernel.Lib.WordArray
import WhitexKernel.Machine.Word
import WhitexKernel.Nano.Document
import WhitexKernel.Nano.Model
import WhitexKernel.Nano.Session
import WhitexKernel.Net.ArpTable
import WhitexKernel.Net.Bounds
import WhitexKernel.Net.Checksum
import WhitexKernel.Net.Delivery
import WhitexKernel.Net.Echo
import WhitexKernel.Net.Emission
import WhitexKernel.Net.Handshake
import WhitexKernel.Net.Listening
import WhitexKernel.Net.Model
import WhitexKernel.Net.Peers
import WhitexKernel.Net.Pool
import WhitexKernel.Net.Receiver
import WhitexKernel.Net.Rules
import WhitexKernel.Net.Sockets
import WhitexKernel.Net.SynAck
import WhitexKernel.Net.System
import WhitexKernel.Net.Transmitter
import WhitexKernel.Net.Untouched
import WhitexKernel.Net.Wire
import WhitexKernel.Oom.Badness
import WhitexKernel.Oom.Model
import WhitexKernel.Oom.Pages
import WhitexKernel.Oom.Selection
import WhitexKernel.Oom.Victims
import WhitexKernel.Oom.Watermarks
import WhitexKernel.Oom.Zones
import WhitexKernel.Paging.Accounting
import WhitexKernel.Paging.Booted
import WhitexKernel.Paging.Clone
import WhitexKernel.Paging.Copying
import WhitexKernel.Paging.Coverage
import WhitexKernel.Paging.Demand
import WhitexKernel.Paging.Detected
import WhitexKernel.Paging.FirstFit
import WhitexKernel.Paging.Flat
import WhitexKernel.Paging.Frames
import WhitexKernel.Paging.FramesAccounted
import WhitexKernel.Paging.FramesKept
import WhitexKernel.Paging.Image
import WhitexKernel.Paging.Kept
import WhitexKernel.Paging.KeptByClones
import WhitexKernel.Paging.Layout
import WhitexKernel.Paging.Model
import WhitexKernel.Paging.Neutral
import WhitexKernel.Paging.Region
import WhitexKernel.Paging.Release
import WhitexKernel.Paging.Requests
import WhitexKernel.Paging.Structures
import WhitexKernel.Paging.Sweep
import WhitexKernel.Paging.Taking
import WhitexKernel.Paging.Tidy
import WhitexKernel.Paging.Translation
import WhitexKernel.Paging.Vacant
import WhitexKernel.Sched.Accounting
import WhitexKernel.Sched.Aging
import WhitexKernel.Sched.Choice
import WhitexKernel.Sched.Commands
import WhitexKernel.Sched.Daemons
import WhitexKernel.Sched.Death
import WhitexKernel.Sched.Echo
import WhitexKernel.Sched.Events
import WhitexKernel.Sched.Exit
import WhitexKernel.Sched.Fields
import WhitexKernel.Sched.Ipc
import WhitexKernel.Sched.Lifecycle
import WhitexKernel.Sched.Memory
import WhitexKernel.Sched.Messages
import WhitexKernel.Sched.Model
import WhitexKernel.Sched.Mutex
import WhitexKernel.Sched.Operations
import WhitexKernel.Sched.PidText
import WhitexKernel.Sched.Pids
import WhitexKernel.Sched.Protection
import WhitexKernel.Sched.Registration
import WhitexKernel.Sched.Resources
import WhitexKernel.Sched.Roster
import WhitexKernel.Sched.Selection
import WhitexKernel.Sched.Signals
import WhitexKernel.Sched.Sleep
import WhitexKernel.Sched.Startup
import WhitexKernel.Sched.Supply
import WhitexKernel.Sched.System
import WhitexKernel.Sched.Turns
import WhitexKernel.Sched.TypedPids
import WhitexKernel.Sched.Wait
import WhitexKernel.Sched.WaitReturn
import WhitexKernel.Sched.Wakeup
import WhitexKernel.Shell.CommandLine
import WhitexKernel.Shell.Comparisons
import WhitexKernel.Shell.Dialogue
import WhitexKernel.Shell.Dispatch
import WhitexKernel.Shell.Echo
import WhitexKernel.Shell.Keyboard
import WhitexKernel.Shell.Log
import WhitexKernel.Shell.Login
import WhitexKernel.Shell.Model
import WhitexKernel.Shell.Modifiers
import WhitexKernel.Shell.Output
import WhitexKernel.Shell.PrintInt
import WhitexKernel.Shell.Privilege
import WhitexKernel.Shell.Screen
import WhitexKernel.Shell.SelfCheck
import WhitexKernel.Shell.Session
import WhitexKernel.Shell.Strings
import WhitexKernel.Vfs.Disk
import WhitexKernel.Vfs.Listing
import WhitexKernel.Vfs.Model
import WhitexKernel.Vfs.Names
import WhitexKernel.Vfs.Shells
import WhitexKernel.Vfs.Sync
import WhitexKernel.Vfs.Tree
import WhitexKernel.Vm.Halting
import WhitexKernel.Vm.Model
import WhitexKernel.Vm.Reproducible
import WhitexKernel.Vm.Sandbox
