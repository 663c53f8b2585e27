import Mathlib.Algebra.Group.Int.Defs
import Mathlib.Algebra.Group.Nat.Defs

namespace OS161.Kern

/-- A result of `int` arithmetic. -/
def int32 (n : Int) : Int :=
  n.bmod (2 ^ 32)

/-- The same bits in a `u_int32_t`. -/
def u32 (n : Int) : Nat :=
  (n % 2 ^ 32).toNat

theorem int32_of_lt {n : Int} (hnonneg : 0 ≤ n) (hlt : n < 2 ^ 31) : int32 n = n := by
  apply Int.bmod_eq_of_le_mul_two <;> omega

/-- Of `kern/limits.h`. -/
def PATH_MAX : Nat := 1024

/-- The codes of `kern/errno.h`; `EIOERR` is its `EIO`. -/
inductive Errno where
  | EINVAL
  | EFAULT
  | ENAMETOOLONG
  | ENOMEM
  | EIOERR
  | ENOENT
  | ENOTDIR
  | EISDIR
  | EEXIST
  | EXDEV
  | EAGAIN
  | ESPIPE
  | EUNIMP
  | ENXIO
  | ENODEV
  | EBUSY
  | EIOCTL
  | ENOTEMPTY
  | ERANGE
  | ENOSPC
  | EMFILE
  | ENFILE
  | ENOSYS
  | ENOEXEC
  | E2BIG
  | EBADF
  deriving DecidableEq, Repr

def Errno.number : Errno → Nat
  | .EINVAL => 1
  | .EFAULT => 2
  | .ENAMETOOLONG => 3
  | .ENOMEM => 4
  | .EIOERR => 5
  | .ENOENT => 6
  | .ENOTDIR => 7
  | .EISDIR => 8
  | .EEXIST => 9
  | .EXDEV => 10
  | .EAGAIN => 11
  | .ESPIPE => 12
  | .EUNIMP => 13
  | Errno.ENXIO => 14
  | .ENODEV => 15
  | .EBUSY => 16
  | .EIOCTL => 17
  | .ENOTEMPTY => 18
  | .ERANGE => 19
  | .ENOSPC => 20
  | .EMFILE => 21
  | .ENFILE => 22
  | .ENOSYS => 23
  | .ENOEXEC => 24
  | .E2BIG => 25
  | .EBADF => 26

theorem Errno.number_pos (err : Errno) : 0 < err.number := by
  cases err <;> decide

theorem Errno.number_lt (err : Errno) : err.number < 2 ^ 32 := by
  cases err <;> decide

/-- The assertion or `panic` call that stopped the kernel, by the function
it stands in. -/
inductive Fault where
  | arrayGetguy
  | arrayPreallocate
  | arraySetsize
  | arraySetguy
  | arrayRemove
  | queueSize
  | queueGrow
  | queueRemheadEmpty
  | queueGetguy
  | queueLoop
  | queueOverrun
  | uninitialised
  | exorciseCurthread
  | threadDestroyVmspace
  | threadDestroyCwd
  | miSwitchInsert
  | threadExitCount
  | threadWakeupInsert
  | bitmapCreateWords
  | bitmapCreateOverbits
  | bitmapAllocFull
  | bitmapAllocRange
  | bitmapMarkRange
  | bitmapMarkSet
  | bitmapUnmarkRange
  | bitmapUnmarkClear
  | evictIsset
  | nullTable
  | nullAddrspace
  | coremapRange
  | swapHolderRange
  | lhdDeadlock
  | evictLoop
  | faultLoop
  | kernelFault
  | kernelStack
  | vmFaultReadonly
  | vmFaultSetup
  | vmFaultNoReturn
  | getppagesZero
  | coremapRemovePa
  | tableRange
  | heapLoop
  | uiomoveSize
  | uiomovezerosRead
  | rwblockEinval
  | ballocInvalid
  | busedRange
  | bmapMarkedFree
  | partialioSpan
  | partialioHole
  | blockioHole
  | blockioResid
  | sfsIoExtra
  | sfsIoAligned
  | sfsIoTail
  | readdirShort
  | writedirShort
  | nentriesType
  | nentriesSize
  | findnameTwice
  | lookonceUnlinked
  | loadvnodeTableFree
  | loadvnodeForced
  | loadvnodeFree
  | loadvnodeForceType
  | loadvnodeType
  | reclaimRefcount
  | reclaimMissing
  | decrefZero
  | killRefcount
  | semaphoreP
  | semaphoreV
  | sfsReadRw
  | sfsWriteRw
  | removeUnlinked
  | renameDirs
  | renameRoot
  | renameType
  | renameUnlinked
  | renameRecover
  | getrootLoad
  | getrootFs
  | getrootRawname
  | getrootDevice
  | mountDevice
  | unmountDevice
  | vnodeCheck
  | decopenZero
  | getdeviceFs
  | unmountSuper
  | unmountFreemap
  | doallocbitSet
  | schedulerSpl
  deriving DecidableEq, Repr

end OS161.Kern
