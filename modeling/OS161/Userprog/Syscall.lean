import OS161.Userprog.Sbrk

namespace OS161.Userprog

open OS161.Data
open OS161.Kern
open OS161.VM

/-! `mips_syscall` of `kern/arch/mips/mips/syscall.c`, and how each of its
handlers comes back.  What a handler finds when it calls other parts of the
kernel is given to it. -/

/-- The registers that `mips_syscall` uses. -/
structure Trapframe where
  tfV0 : Nat
  tfA0 : Nat
  tfA1 : Nat
  tfA2 : Nat
  tfA3 : Nat
  tfEpc : Nat
  deriving DecidableEq, Repr

def SYS__exit : Int := 0
def SYS_execv : Int := 1
def SYS_fork : Int := 2
def SYS_waitpid : Int := 3
def SYS_reboot : Int := 8
def SYS_sbrk : Int := 10
def SYS_getpid : Int := 11
def SYS_printchar : Int := 32
def SYS_readchar : Int := 33

/-- How a handler comes back: through one of its `return E...`, through its
`return -1`, or with a result. -/
inductive Exit where
  | code (err : Errno)
  | minusOne
  | value (v : Int)
  deriving DecidableEq, Repr

/-- The `int` that the caller gets. -/
def Exit.int : Exit → Int
  | .code err => err.number
  | .minusOne => -1
  | .value v => v

/-- What `sys_execv` finds: whether each `kmalloc` and `as_create` have memory,
the length of the first argument, and the results of the calls that can fail. -/
structure ExecvFinds where
  argumentsMem : Bool
  stringsMem : List Bool
  firstLen : Nat
  prognameMem : Bool
  vfsOpen : Option Errno
  asCreateMem : Bool
  loadElf : Option Errno
  asDefineStack : Option Errno
  deriving DecidableEq, Repr

/-- A program that is loaded runs in user mode, and the call does not come
back. -/
def sysExecv (program args : Nat) (finds : ExecvFinds) : Option Exit :=
  if program = 0 then some (.code .EFAULT)
  else if args = 0 then some (.code .EFAULT)
  else if finds.argumentsMem = false then some (.code .ENOMEM)
  else if false ∈ finds.stringsMem then some (.code .ENOMEM)
  else if finds.firstLen > PATH_MAX then some (.code .E2BIG)
  else if finds.prognameMem = false then some (.code .ENOMEM)
  else if finds.vfsOpen.isSome then some (.code .EIOERR)
  else if finds.asCreateMem = false then some (.code .ENOMEM)
  else match finds.loadElf with
    | some err => some (.code err)
    | none => finds.asDefineStack.map .code

/-- The codes that shut the system down do not come back. -/
def sysReboot (code : Int) : Option Exit :=
  if code = 0 ∨ code = 1 ∨ code = 2 then none else some (.code .EINVAL)

def sysPrintchar (_word : Int) : Exit :=
  .value 0

/-- `ch` is what `getch` gives. -/
def sysReadchar (ch : Int) : Exit :=
  if ch = 10 ∨ ch = 13 then .value 12
  else if 32 ≤ ch ∧ ch < 127 then .value ch
  else if ch = 4 then .value 0
  else .value ch

/-- What `sys_fork` finds: whether the copy of the trapframe, the copy of the
address space and the entry of the list have memory, and whether `thread_fork`
fails; and the `pid` that it reads from the new thread at its end. -/
structure ForkFinds where
  trapframeMem : Bool
  asCopyMem : Bool
  threadFork : Option Errno
  entryMem : Bool
  childPid : Int
  deriving DecidableEq, Repr

def sysFork (finds : ForkFinds) : Exit :=
  if finds.trapframeMem = false then .minusOne
  else if finds.asCopyMem = false then .minusOne
  else if finds.threadFork.isSome then .minusOne
  else if finds.entryMem = false then .minusOne
  else .value finds.childPid

def sysGetPid (pid : Int) : Exit :=
  .value pid

/-- The loop of `sys_waitpid`, over what the searches of the list find one after
the other.  A search that finds nothing puts the thread to sleep, perhaps for
good. -/
def waitLoop (pid : Int) : (hasExited : Int) → (searches : List Int) → Option Exit
  | hasExited, [] => if hasExited = 0 then none else some (.value pid)
  | hasExited, found :: rest =>
      if hasExited = 0 then
        if found = 1 then some (.value pid) else waitLoop pid found rest
      else some (.value pid)

def sysWaitpid (pid : Int) (status : Nat) (options globalPid ownPid : Int)
    (searches : List Int) : Option Exit :=
  if options ≠ 0 then some (.code .EINVAL)
  else if status = 0 then some (.code .EFAULT)
  else if pid > globalPid then some (.value pid)
  else if pid ≤ ownPid then some (.value pid)
  else waitLoop pid 0 searches

/-- What the handlers find. -/
structure Finds where
  machine : Machine
  pid : Int
  globalPid : Int
  searches : List Int
  ch : Int
  execv : ExecvFinds
  fork : ForkFinds

namespace Trapframe

def callno (tf : Trapframe) : Int :=
  int32 tf.tfV0

/-- The common tail, for the calls that leave their result in `err`. -/
def common (tf : Trapframe) (err : Int) : Trapframe :=
  if err ≠ 0 then { tf with tfV0 := u32 err, tfA3 := 1 }
  else { tf with tfV0 := 0, tfA3 := 0 }

def result (tf : Trapframe) (v : Int) : Trapframe :=
  { tf with tfV0 := u32 v, tfA3 := 0 }

def forked (tf : Trapframe) (pidreturn : Int) : Trapframe :=
  if pidreturn = -1 then { tf with tfV0 := Errno.ENOMEM.number, tfA3 := 1 }
  else tf.result pidreturn

/-- The `else` of the source has no braces: it ends before `tf_a3` is cleared. -/
def broken (tf : Trapframe) (htop : Nat) (retval : Int) : Trapframe :=
  let tf :=
    if htop = minusOne then { tf with tfV0 := u32 retval, tfA3 := 1 }
    else { tf with tfV0 := u32 htop }
  { tf with tfA3 := 0 }

def advance (tf : Trapframe) : Trapframe :=
  { tf with tfEpc := (tf.tfEpc + 4) % 2 ^ 32 }

end Trapframe

/-- `retval` as `mips_syscall` has it after `sys_sbrk`. -/
def SbrkReturn.stored (r : SbrkReturn) : Int :=
  match r.retval with
  | some err => err.number
  | none => 0

/-- The trapframe afterwards, where the handler comes back. -/
def mipsSyscall (tf : Trapframe) (finds : Finds) : Option Trapframe :=
  if tf.callno = SYS__exit then none
  else if tf.callno = SYS_execv then
    (sysExecv tf.tfA0 tf.tfA1 finds.execv).map fun err => (tf.common err.int).advance
  else if tf.callno = SYS_reboot then
    (sysReboot (int32 tf.tfA0)).map fun err => (tf.common err.int).advance
  else if tf.callno = SYS_printchar then
    some (tf.common (sysPrintchar (int32 tf.tfA0)).int).advance
  else if tf.callno = SYS_readchar then some (tf.result (sysReadchar finds.ch).int).advance
  else if tf.callno = SYS_fork then some (tf.forked (sysFork finds.fork).int).advance
  else if tf.callno = SYS_getpid then some (tf.result (sysGetPid finds.pid).int).advance
  else if tf.callno = SYS_waitpid then
    (sysWaitpid (int32 tf.tfA0) tf.tfA1 (int32 tf.tfA2) finds.globalPid finds.pid
      finds.searches).map fun pidreturn => (tf.result pidreturn.int).advance
  else if tf.callno = SYS_sbrk then
    (sysSbrk (int32 tf.tfA0) finds.machine).returned.map fun r =>
      (tf.broken r.htop r.stored).advance
  else some (tf.common (Exit.code .ENOSYS).int).advance

/-! The convention for the callers of system calls. -/

def SbrkReturn.exit (r : SbrkReturn) : Exit :=
  match r.retval with
  | some err => .code err
  | none => .value r.htop

/-- The way in which the handler of the call came back. -/
def handlerExit (tf : Trapframe) (finds : Finds) : Option Exit :=
  if tf.callno = SYS__exit then none
  else if tf.callno = SYS_execv then sysExecv tf.tfA0 tf.tfA1 finds.execv
  else if tf.callno = SYS_reboot then sysReboot (int32 tf.tfA0)
  else if tf.callno = SYS_printchar then some (sysPrintchar (int32 tf.tfA0))
  else if tf.callno = SYS_readchar then some (sysReadchar finds.ch)
  else if tf.callno = SYS_fork then some (sysFork finds.fork)
  else if tf.callno = SYS_getpid then some (sysGetPid finds.pid)
  else if tf.callno = SYS_waitpid then
    sysWaitpid (int32 tf.tfA0) tf.tfA1 (int32 tf.tfA2) finds.globalPid finds.pid finds.searches
  else if tf.callno = SYS_sbrk then
    (sysSbrk (int32 tf.tfA0) finds.machine).returned.map SbrkReturn.exit
  else some (.code .ENOSYS)

/-- The error that an exit stands for; `-1` is how `sys_fork` says that there is
no memory. -/
def Exit.error : Exit → Option Errno
  | .code err => some err
  | .minusOne => some .ENOMEM
  | .value _ => none

/-- The registers tell the caller how the handler came back. -/
structure Reported (tf tf' : Trapframe) (exit : Exit) : Prop where
  epc : tf'.tfEpc = (tf.tfEpc + 4) % 2 ^ 32
  error : ∀ err, exit.error = some err → tf'.tfA3 = 1 ∧ tf'.tfV0 = err.number
  result : exit.error = none → tf'.tfA3 = 0 ∧ tf'.tfV0 = u32 exit.int

/-- `sys_sbrk` takes one of its error exits. -/
def SbrkRefuses (as : Addrspace) (change : Int) : Prop :=
  let newHpos := int32 (as.heaptop + change)
  u32 (as.heaptop + change) < as.heapbottom ∨
    change ≠ 0 ∧ u32 (int32 (newHpos + newHpos.tmod 4)) > as.asStackvbase

/-- The break that `sys_sbrk` gives back where it refuses nothing. -/
def oldBreak (as : Addrspace) (change : Int) : Nat :=
  if change = 0 then as.heapbottom else u32 (int32 as.heaptop)

/-- The call is no `waitpid` with bad arguments, no `sbrk` that is refused or
whose break is the pointer `-1`, and no `fork` that succeeds with the pid `-1`. -/
structure Clear (tf : Trapframe) (finds : Finds) : Prop where
  waitpid : tf.callno = SYS_waitpid → int32 tf.tfA2 = 0 ∧ tf.tfA1 ≠ 0
  sbrk : tf.callno = SYS_sbrk → ∀ a ∈ finds.machine.tVmspace,
    ¬ SbrkRefuses (finds.machine.addrspace a) (int32 tf.tfA0) ∧
      oldBreak (finds.machine.addrspace a) (int32 tf.tfA0) ≠ minusOne
  fork : tf.callno = SYS_fork → finds.fork ≠ ⟨true, true, none, true, -1⟩

section Registers

variable {tf tf' : Trapframe} {finds : Finds}

theorem Trapframe.common_code (tf : Trapframe) (err : Errno) :
    tf.common (Exit.code err).int = { tf with tfV0 := err.number, tfA3 := 1 } := by
  have hpos := err.number_pos
  have hlt := err.number_lt
  have hne : (Exit.code err).int ≠ 0 := by
    rw [Exit.int]
    omega
  have hsame : u32 (Exit.code err).int = err.number := by
    rw [Exit.int, u32]
    omega
  rw [Trapframe.common, if_pos hne, hsame]

theorem common_reported (tf : Trapframe) (err : Errno) :
    Reported tf (tf.common (Exit.code err).int).advance (.code err) := by
  rw [Trapframe.common_code]
  refine ⟨rfl, ?_, fun hnone => by cases hnone⟩
  intro _ hcode
  cases hcode
  exact ⟨rfl, rfl⟩

theorem common_zero_reported (tf : Trapframe) :
    Reported tf (tf.common (Exit.value 0).int).advance (.value 0) := by
  refine ⟨rfl, ?_, fun _ => ⟨rfl, rfl⟩⟩
  intro _ hnone
  cases hnone

theorem result_reported_iff (tf : Trapframe) (exit : Exit) :
    Reported tf (tf.result exit.int).advance exit ↔ exit.error = none := by
  constructor
  · intro hreported
    cases herror : exit.error with
    | none => rfl
    | some err =>
        have hset := (hreported.error err herror).1
        simp [Trapframe.result, Trapframe.advance] at hset
  · intro hnone
    refine ⟨rfl, ?_, fun _ => ⟨rfl, rfl⟩⟩
    intro err herr
    rw [hnone] at herr
    cases herr

theorem forked_reported_iff (tf : Trapframe) (finds : ForkFinds) :
    Reported tf (tf.forked (sysFork finds).int).advance (sysFork finds) ↔
      finds ≠ ⟨true, true, none, true, -1⟩ := by
  have hminus : Reported tf (tf.forked Exit.minusOne.int).advance .minusOne := by
    refine ⟨rfl, ?_, fun hnone => by cases hnone⟩
    intro err herr
    cases herr
    exact ⟨rfl, rfl⟩
  have hvalue (v : Int) : Reported tf (tf.forked (Exit.value v).int).advance (.value v) ↔
      v ≠ -1 := by
    by_cases hv : v = -1
    · subst hv
      refine iff_of_false ?_ (fun h => h rfl)
      intro hreported
      exact Nat.one_ne_zero (hreported.result rfl).1
    · refine iff_of_true ?_ hv
      have hforked : tf.forked (Exit.value v).int = tf.result (Exit.value v).int := if_neg hv
      rw [hforked]
      exact (result_reported_iff tf (.value v)).mpr rfl
  obtain ⟨trapframeMem, asCopyMem, failed, entryMem, childPid⟩ := finds
  cases trapframeMem
  case false => simp [sysFork, hminus]
  case true =>
  cases asCopyMem
  case false => simp [sysFork, hminus]
  case true =>
  cases failed
  case some err => simp [sysFork, hminus]
  case none =>
  cases entryMem
  case false => simp [sysFork, hminus]
  case true => simp [sysFork, hvalue]

theorem broken_reported_iff (tf : Trapframe) (r : SbrkReturn) :
    Reported tf (tf.broken r.htop r.stored).advance r.exit ↔
      r.retval = none ∧ r.htop ≠ minusOne := by
  obtain ⟨htop, retval⟩ := r
  cases retval with
  | some err =>
      refine iff_of_false ?_ (fun h => by cases h.1)
      intro hreported
      have hset := (hreported.error err rfl).1
      simp [Trapframe.broken, Trapframe.advance] at hset
  | none =>
      simp only [true_and]
      by_cases hm : htop = minusOne
      · subst hm
        refine iff_of_false ?_ (fun h => h rfl)
        intro hreported
        have hzero : 0 = u32 minusOne := (hreported.result rfl).2
        exact absurd hzero (by decide)
      · refine iff_of_true ⟨?_, ?_, ?_⟩ hm
        · simp [Trapframe.broken, Trapframe.advance, hm]
        · intro _ hnone
          cases hnone
        · intro _
          simp [Trapframe.broken, Trapframe.advance, hm, SbrkReturn.exit, Exit.int]

end Registers

/-! How the handlers come back. -/

section Handlers

theorem sysExecv_code (hexit : sysExecv program args finds = some exit) :
    ∃ err, exit = .code err := by
  simp only [sysExecv] at hexit
  repeat
    split at hexit
    case isTrue =>
      cases hexit
      exact ⟨_, rfl⟩
  split at hexit
  · cases hexit
    exact ⟨_, rfl⟩
  · cases hstack : finds.asDefineStack with
    | none => simp [hstack] at hexit
    | some err =>
        rw [hstack] at hexit
        cases hexit
        exact ⟨_, rfl⟩

theorem sysReboot_code (hexit : sysReboot code = some exit) : ∃ err, exit = .code err := by
  rw [sysReboot] at hexit
  split at hexit
  · cases hexit
  · cases hexit
    exact ⟨_, rfl⟩

theorem sysReadchar_error (ch : Int) : (sysReadchar ch).error = none := by
  simp only [sysReadchar]
  repeat
    split
    case isTrue => rfl
  rfl

theorem waitLoop_value (hexit : waitLoop pid hasExited searches = some exit) :
    exit = .value pid := by
  induction searches generalizing hasExited with
  | nil =>
      rw [waitLoop] at hexit
      split at hexit
      · cases hexit
      · cases hexit
        rfl
  | cons found rest ih =>
      rw [waitLoop] at hexit
      split at hexit
      · split at hexit
        · cases hexit
          rfl
        · exact ih hexit
      · cases hexit
        rfl

theorem sysWaitpid_error_iff
    (hexit : sysWaitpid pid status options globalPid ownPid searches = some exit) :
    exit.error = none ↔ options = 0 ∧ status ≠ 0 := by
  rw [sysWaitpid] at hexit
  split at hexit
  case isTrue hoptions =>
    cases hexit
    exact iff_of_false (fun h => by cases h) fun h => hoptions h.1
  case isFalse hoptions =>
  rw [ne_eq, not_not] at hoptions
  split at hexit
  case isTrue hstatus =>
    cases hexit
    exact iff_of_false (fun h => by cases h) fun h => h.2 hstatus
  case isFalse hstatus =>
  refine iff_of_true ?_ ⟨hoptions, hstatus⟩
  split at hexit
  · cases hexit
    rfl
  · split at hexit
    · cases hexit
      rfl
    · rw [waitLoop_value hexit]
      rfl

theorem sysSbrk_wp (change : Int) (m : Machine) :
    (sysSbrk change).wp (fun r _ => ∃ a, m.tVmspace = some a ∧
        (r.retval = none ∧ r.htop ≠ minusOne ↔
          ¬ SbrkRefuses (m.addrspace a) change ∧ oldBreak (m.addrspace a) change ≠ minusOne))
      (fun _ _ => False) (fun _ => True) m := by
  simp only [sysSbrk, ↓Prog.wp_bind, ↓Prog.wp_get]
  cases hcur : m.tVmspace with
  | none => trivial
  | some a =>
      have hrefused (err : Errno) (hrefuses : SbrkRefuses (m.addrspace a) change) :
          (some err = none ∧ minusOne ≠ minusOne ↔ ¬ SbrkRefuses (m.addrspace a) change ∧
            oldBreak (m.addrspace a) change ≠ minusOne) :=
        iff_of_false (fun h => by cases h.1) fun h => h.1 hrefuses
      simp only [Machine.setAddrspace, ↓Prog.wp_ite, ↓Prog.wp_bind, ↓Prog.wp_pure,
        ↓Prog.wp_modify]
      split
      case isTrue hunder => exact ⟨a, rfl, hrefused .EINVAL (.inl hunder)⟩
      case isFalse hunder =>
      split
      case isTrue hzero =>
        have hallowed : ¬ SbrkRefuses (m.addrspace a) change := by
          intro hrefuses
          cases hrefuses with
          | inl h => exact hunder h
          | inr h => exact h.1 hzero
        refine ⟨a, rfl, ?_⟩
        rw [oldBreak, if_pos hzero]
        simp [hallowed]
      case isFalse hzero =>
      split
      case isTrue hover => exact ⟨a, rfl, hrefused .ENOMEM (.inr ⟨hzero, hover⟩)⟩
      case isFalse hover =>
        have hallowed : ¬ SbrkRefuses (m.addrspace a) change := by
          intro hrefuses
          cases hrefuses with
          | inl h => exact hunder h
          | inr h => exact hover h.2
        exact ⟨a, rfl, by simp [hallowed, oldBreak, hzero]⟩

theorem sysSbrk_returned {m : Machine} (hr : (sysSbrk change m).returned = some r) :
    ∃ a, m.tVmspace = some a ∧
      (r.retval = none ∧ r.htop ≠ minusOne ↔
        ¬ SbrkRefuses (m.addrspace a) change ∧ oldBreak (m.addrspace a) change ≠ minusOne) :=
  (sysSbrk_wp change m).post_of_ok (Result.eq_ok_of_returned m hr)

end Handlers

/-- The caller is told how the handler came back, but for a `waitpid` with bad
arguments, an `sbrk` that is refused, and a break or a pid that is `-1`. -/
theorem syscall_reported_iff {tf tf' : Trapframe} {finds : Finds}
    (hrun : mipsSyscall tf finds = some tf') :
    ∃ exit, handlerExit tf finds = some exit ∧ (Reported tf tf' exit ↔ Clear tf finds) := by
  have hclear {callno : Int} (hcallno : tf.callno = callno) (hwaitpid : callno ≠ SYS_waitpid)
      (hsbrk : callno ≠ SYS_sbrk) (hfork : callno ≠ SYS_fork) : Clear tf finds :=
    ⟨fun h => absurd (hcallno.symm.trans h) hwaitpid, fun h => absurd (hcallno.symm.trans h) hsbrk,
      fun h => absurd (hcallno.symm.trans h) hfork⟩
  rw [mipsSyscall] at hrun
  rw [handlerExit]
  split at hrun
  case isTrue => cases hrun
  case isFalse hexit =>
  rw [if_neg hexit]
  split at hrun
  case isTrue hexecv =>
    rw [if_pos hexecv]
    obtain ⟨exit, hreturns, rfl⟩ := Option.map_eq_some_iff.mp hrun
    obtain ⟨err, rfl⟩ := sysExecv_code hreturns
    exact ⟨_, hreturns, iff_of_true (common_reported tf err)
      (hclear hexecv (by decide) (by decide) (by decide))⟩
  case isFalse hexecv =>
  rw [if_neg hexecv]
  split at hrun
  case isTrue hreboot =>
    rw [if_pos hreboot]
    obtain ⟨exit, hreturns, rfl⟩ := Option.map_eq_some_iff.mp hrun
    obtain ⟨err, rfl⟩ := sysReboot_code hreturns
    exact ⟨_, hreturns, iff_of_true (common_reported tf err)
      (hclear hreboot (by decide) (by decide) (by decide))⟩
  case isFalse hreboot =>
  rw [if_neg hreboot]
  split at hrun
  case isTrue hprintchar =>
    rw [if_pos hprintchar]
    cases hrun
    exact ⟨_, rfl, iff_of_true (common_zero_reported tf)
      (hclear hprintchar (by decide) (by decide) (by decide))⟩
  case isFalse hprintchar =>
  rw [if_neg hprintchar]
  split at hrun
  case isTrue hreadchar =>
    rw [if_pos hreadchar]
    cases hrun
    exact ⟨_, rfl, iff_of_true ((result_reported_iff tf _).mpr (sysReadchar_error _))
      (hclear hreadchar (by decide) (by decide) (by decide))⟩
  case isFalse hreadchar =>
  rw [if_neg hreadchar]
  split at hrun
  case isTrue hfork =>
    rw [if_pos hfork]
    cases hrun
    refine ⟨_, rfl, (forked_reported_iff tf finds.fork).trans ?_⟩
    constructor
    · intro hpid
      refine ⟨fun h => ?_, fun h => ?_, fun _ => hpid⟩
      · rw [hfork] at h
        exact absurd h (by decide)
      · rw [hfork] at h
        exact absurd h (by decide)
    · intro hc
      exact hc.fork hfork
  case isFalse hfork =>
  rw [if_neg hfork]
  split at hrun
  case isTrue hgetpid =>
    rw [if_pos hgetpid]
    cases hrun
    exact ⟨_, rfl, iff_of_true ((result_reported_iff tf _).mpr rfl)
      (hclear hgetpid (by decide) (by decide) (by decide))⟩
  case isFalse hgetpid =>
  rw [if_neg hgetpid]
  split at hrun
  case isTrue hwaitpid =>
    rw [if_pos hwaitpid]
    obtain ⟨exit, hreturns, rfl⟩ := Option.map_eq_some_iff.mp hrun
    refine ⟨_, hreturns, (result_reported_iff tf exit).trans ?_⟩
    rw [sysWaitpid_error_iff hreturns]
    constructor
    · intro hargs
      refine ⟨fun _ => hargs, fun h => ?_, fun h => absurd h hfork⟩
      rw [hwaitpid] at h
      exact absurd h (by decide)
    · intro hc
      exact hc.waitpid hwaitpid
  case isFalse hwaitpid =>
  rw [if_neg hwaitpid]
  split at hrun
  case isTrue hsbrk =>
    rw [if_pos hsbrk]
    obtain ⟨r, hreturns, rfl⟩ := Option.map_eq_some_iff.mp hrun
    refine ⟨_, by rw [hreturns]; rfl, (broken_reported_iff tf r).trans ?_⟩
    obtain ⟨a, hcur, hiff⟩ := sysSbrk_returned hreturns
    rw [hiff]
    constructor
    · intro hallowed
      refine ⟨fun h => absurd h hwaitpid, fun _ b hb => ?_, fun h => absurd h hfork⟩
      rw [hcur] at hb
      cases hb
      exact hallowed
    · intro hc
      exact hc.sbrk hsbrk a hcur
  case isFalse hsbrk =>
    rw [if_neg hsbrk]
    cases hrun
    exact ⟨_, rfl, iff_of_true (common_reported tf .ENOSYS) ⟨fun h => absurd h hwaitpid,
      fun h => absurd h hsbrk, fun h => absurd h hfork⟩⟩

/-- A process with pid 2 in a system whose last pid is 3. -/
private def quiet : Finds where
  machine := threeStackPages
  pid := 2
  globalPid := 3
  searches := []
  ch := 0
  execv := ⟨true, [], 0, true, none, true, none, none⟩
  fork := ⟨true, true, none, true, 3⟩

/-- A call of `fork`. -/
private def forkCall : Trapframe :=
  ⟨2, 0, 0, 0, 0, 0x400100⟩

theorem syscall_reported_iff_fork : ∃ exit, handlerExit forkCall quiet = some exit ∧
    (Reported forkCall ⟨3, 0, 0, 0, 0, 0x400104⟩ exit ↔ Clear forkCall quiet) :=
  syscall_reported_iff (by decide)

/-- A call of `sbrk` that would take the break below the heap. -/
private def sbrkCall : Trapframe :=
  ⟨10, 0xfffff000 - 0x1000, 0, 0, 0, 0x400100⟩

/-- A call of `waitpid` with an option. -/
private def waitpidCall : Trapframe :=
  ⟨3, 3, 0x7fffff00, 1, 0, 0x400100⟩

/-- Both errors look like successes to the caller. -/
theorem syscall_error_unreported :
    handlerExit sbrkCall quiet = some (.code .EINVAL) ∧
    mipsSyscall sbrkCall quiet = some ⟨1, 0xffffe000, 0, 0, 0, 0x400104⟩ ∧
    ¬ Reported sbrkCall ⟨1, 0xffffe000, 0, 0, 0, 0x400104⟩ (.code .EINVAL) ∧
    handlerExit waitpidCall quiet = some (.code .EINVAL) ∧
    mipsSyscall waitpidCall quiet = some ⟨1, 3, 0x7fffff00, 1, 0, 0x400104⟩ ∧
    ¬ Reported waitpidCall ⟨1, 3, 0x7fffff00, 1, 0, 0x400104⟩ (.code .EINVAL) := by
  refine ⟨by decide, by decide, ?_, by decide, by decide, ?_⟩
  · intro hreported
    cases (hreported.error .EINVAL rfl).1
  · intro hreported
    cases (hreported.error .EINVAL rfl).1

end OS161.Userprog
