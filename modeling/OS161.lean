import OS161.Libc.Malloc
import OS161.Threads.Conservation
import OS161.Data.Tiling
import OS161.Libc.MallocInvariant
import OS161.Libc.HeapIntegrity
import OS161.Data.Links
import OS161.Kheap.Heap
import OS161.Kheap.Pages
import OS161.Kheap.Spec
import OS161.Kheap.Kmalloc
import OS161.Kheap.Kfree
import OS161.Kheap.Integrity
import OS161.Data.BitWords
import OS161.Lib.Bitmap
import OS161.VM.Machine
import OS161.VM.Paging
import OS161.VM.SwapRoundTrip
import OS161.VM.Ownership
import OS161.VM.FrameOwnership
import OS161.VM.MemoryStable
import OS161.Vfs.Uio
import OS161.Sfs.Fs
import OS161.Sfs.Vnode
import OS161.VM.Pager
import OS161.VM.Tlb
import OS161.VM.Frames
import OS161.VM.Isolation
import OS161.VM.TlbSlots
import OS161.Asst1.Catlock
import OS161.Asst1.CatlockStuck
import OS161.Asst1.Stoplight
import OS161.Asst1.StoplightDeadlock
import OS161.Data.Ledger
import OS161.Dev.Emufs
import OS161.Sfs.Durability
import OS161.Threads.Calls
import OS161.Threads.Cv
import OS161.Threads.Lock
import OS161.Threads.Reserve
import OS161.Threads.Semaphore
import OS161.VM.AsCopy
import OS161.VM.CopyPages
import OS161.VM.Forking
import OS161.VM.KernelBlocks
import OS161.VM.KpagesUndone
import OS161.VM.Pinning
import OS161.Vfs.DeviceNames
import OS161.Vfs.Path
import OS161.Vfs.References
import OS161.Userprog.Pidlist
import OS161.Userprog.Procs
import OS161.Userprog.WaitExit
import OS161.Data.Runs
import OS161.Userprog.MenuJoin
import OS161.Userprog.Fork
import OS161.Userprog.ForkInvariant
import OS161.Userprog.ForkExit
import OS161.Data.GrowTree
import OS161.Data.Holding
import OS161.Dev.Lhd
import OS161.Dev.LhdIsolation
import OS161.Lib.BitmapSet
import OS161.Lib.Copyinout
import OS161.Lib.Fifo
import OS161.Mazewar.Agreement
import OS161.Mazewar.Broadcast
import OS161.Mazewar.Lockstep
import OS161.Mazewar.Maze
import OS161.Mazewar.Occupancy
import OS161.Mazewar.PerfectMaze
import OS161.Mazewar.Replica
import OS161.Mazewar.Server
import OS161.Sfs.Directory
import OS161.Sfs.Truncate
import OS161.Userprog.Args
import OS161.Userprog.Sbrk
import OS161.Userprog.Syscall
import OS161.Sfs.Table
import OS161.Sfs.Volume
import OS161.Sfs.Reclaim
import OS161.Sfs.Names
import OS161.Sfs.Rename
import OS161.Sfs.Creat
import OS161.Sfs.TruncateExact
import OS161.VM.Loading
import OS161.VM.RegionMap
import OS161.VM.LoadElf
import OS161.VM.ProgramImage
import OS161.VM.FirstTouch
import OS161.VM.Teardown
import OS161.Userprog.Break
import OS161.VM.TlbTag
import OS161.Lib.UserCopy
import OS161.Data.FirstFit
import OS161.VM.FirstFit
import OS161.Threads.Levels
import OS161.Data.LastLeast
import OS161.VM.Victim
import OS161.VM.Spaces
import OS161.VM.CopyEnds
import OS161.Libc.Memmove
import OS161.Libc.Strtok
import OS161.Lib.Kgets
import OS161.Libc.Atoi
import OS161.Lib.ArrayList
import OS161.Vfs.Transfer
import OS161.Vfs.Getdevice
import OS161.Libc.MallocLimits
import OS161.Threads.ForkUndone
import OS161.Data.Loop
import OS161.Threads.Wakeup
import OS161.Dev.LhdBounds
import OS161.Sfs.BlockMap
import OS161.Mazewar.Projectiles
import OS161.Data.Fifo
import OS161.Data.FlatStore
import OS161.Data.OneByOne
import OS161.Dev.Console
import OS161.Dev.ConsoleInput
import OS161.Dev.ConsoleProgress
import OS161.Sfs.CallRuns
import OS161.Threads.Clocksleep
import OS161.Data.Serial
import OS161.Data.Sheet
import OS161.Dev.Emu
import OS161.Dev.EmuSerial
import OS161.Dev.Lscreen
import OS161.Mazewar.ScoreTable
