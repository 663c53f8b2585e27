import OS161.Data.Runs
import OS161.Kern.Base
import OS161.Userprog.Procs

namespace OS161.Userprog.Waitpid

open OS161.Data
open OS161.Kern
open OS161.Threads

/-! `sys_waitpid` of `kern/userprog/wait.c` beside `sys_exit`, for processes
that are in the list of `fork.c`. -/

inductive Point where
  | kernel
  | user
  /-- At the head of the loop of `sys_waitpid`. -/
  | waiting (pid status : Nat)
  /-- In the page fault of the store `*exitcode = current->exitcode`; the value
  to store is in a register. -/
  | storing (pid status : Nat) (exitcode : Int)
  | asleep (pid status : Nat)
  | exiting
  deriving DecidableEq, Repr

namespace Point

def isProcess : Point → Bool
  | .kernel | .exiting => false
  | _ => true

/-- The pid whose exit a call of `sys_waitpid` is about. -/
def target : Point → Option Nat
  | .waiting pid _ | .storing pid _ _ | .asleep pid _ => some pid
  | _ => none

/-- `thread_sleep` comes back inside the loop. -/
def resume : Point → Point
  | .asleep pid status => .waiting pid status
  | point => point

/-- What else the thread, or an interrupt handler over it, does with the thread
system. -/
def allows : Point → Act → Bool
  | _, .fork _ | _, .dispatch | .asleep _ _, _ => false
  | .waiting _ _, .exit | .waiting _ _, .sleep _ | .storing _ _ _, .exit => false
  | _, _ => true

end Point

/-- A return through the has-exited case, with `*status` at that time. -/
structure WaitReturn where
  caller : Tid
  pid : Nat
  code : Int
  deriving DecidableEq, Repr

/-- `word` is the memory of each process; `exitCode` is what the process with
the pid passed to `sys_exit`. -/
structure State extends Procs where
  point : Tid → Point
  word : Tid → Nat → Int
  exitCode : Nat → Option Int
  returned : List WaitReturn

/-- Where the kernel's own addresses start. -/
def MIPS_KSEG0 : Nat := 0x80000000

namespace State

def moved (t : Tid) (point : Point) (s : State) : State :=
  { s with point := Function.update s.point t point }

def stored (t : Tid) (status : Nat) (exitcode : Int) (s : State) : State :=
  { s with word := Function.update s.word t (Function.update (s.word t) status exitcode) }

def take (act : Act) (s : State) : Option State :=
  (s.toProcs.take act).map fun procs => { s with toProcs := procs }

/-- What `sys_waitpid` returns before its loop. -/
def refusal (t : Tid) (pid : Int) (status : Nat) (options : Int) (s : State) : Option Int :=
  if options ≠ 0 then some (Errno.number .EINVAL)
  else if status = 0 then some (Errno.number .EFAULT)
  else if s.forkC.globalPid < pid then some pid
  else if pid ≤ s.pid t then some pid
  else none

def sysWaitpid (pid : Int) (status : Nat) (options : Int) (t : Tid) (s : State) :
    Option State :=
  match s.point t with
  | .user =>
      match s.refusal t pid status options with
      | some _ => some s
      | none => some (s.moved t (.waiting pid.toNat status))
  | _ => none

def sleeps (t : Tid) (pid status : Nat) (s : State) : Option State :=
  (s.take (.sleep pid)).map (moved t (.asleep pid status))

/-- The turn of the loop from the store through `status` on. -/
def searched (t : Tid) (pid status : Nat) (exitcode : Int) (hasExited : Bool) (s : State) :
    Option State :=
  let s := s.stored t status exitcode
  if hasExited then
    some { s.moved t .user with returned := ⟨t, pid, s.word t status⟩ :: s.returned }
  else s.sleeps t pid status

/-- The turn of the loop, where the store through `status` keeps the
processor. -/
def search (lock : SleepAddr) (t : Tid) (s : State) : Option State :=
  match s.point t with
  | .waiting pid status =>
      (s.pidlistSearch lock t pid).bind fun result =>
        let s := { s with toProcs := result.2 }
        match result.1 with
        | some entry =>
            if status < MIPS_KSEG0 then s.searched t pid status entry.exitcode entry.hasExited
            else none
        | none => s.sleeps t pid status
  | _ => none

/-- The store faults, and `vm_fault` sleeps on `addr` for `paginglock` or for
the disk. -/
def searchFaults (lock addr : SleepAddr) (t : Tid) (s : State) : Option State :=
  match s.point t with
  | .waiting pid status =>
      (s.pidlistSearch lock t pid).bind fun result =>
        match result.1 with
        | some entry =>
            (take (.sleep addr) { s with toProcs := result.2 }).map
              (moved t (.storing pid status entry.exitcode))
        | none => none
  | _ => none

/-- The handler has come back, and the store is made once more. -/
def faultReturns (t : Tid) (s : State) : Option State :=
  match s.point t with
  | .storing pid status exitcode =>
      match pidlistFind pid s.forkC.pidlist with
      | some entry => s.searched t pid status exitcode entry.hasExited
      | none => none
  | _ => none

/-- Nothing checks `status`: an address of the kernel can be anything there. -/
def searchWild (next : State) (t : Tid) (s : State) : Option State :=
  match s.point t with
  | .waiting pid status =>
      if MIPS_KSEG0 ≤ status ∧ (pidlistFind pid s.forkC.pidlist).isSome then some next else none
  | _ => none

def sysExit (exitcode : Int) (t : Tid) (s : State) : Option State :=
  match s.point t with
  | .user =>
      (s.toProcs.sysExit exitcode t).map fun procs => { s with
        toProcs := procs
        point := Function.update s.point t .exiting
        exitCode := Function.update s.exitCode (s.pid t) (some exitcode) }
  | _ => none

/-- With no thread running, the handlers that `cpu_idle` lets in. -/
def system (act : Act) (s : State) : Option State :=
  if (s.curthread.elim .kernel s.point).allows act then s.take act else none

def dispatch (s : State) : Option State :=
  (s.take .dispatch).map fun s =>
    match s.curthread with
    | some t => s.moved t (s.point t).resume
    | none => s

end State

inductive Call where
  | waitpid (pid : Int) (status : Nat) (options : Int)
  | search (lock : SleepAddr)
  | searchFaults (lock addr : SleepAddr)
  | faultReturns
  | searchWild (next : State)
  | exit (exitcode : Int)
  | system (act : Act)
  | dispatch

namespace Call

open State

def run (call : Call) (s : State) : Option State :=
  match call with
  | .waitpid pid status options => s.curthread.bind (sysWaitpid pid status options · s)
  | .search lock => s.curthread.bind (State.search lock · s)
  | .searchFaults lock addr => s.curthread.bind (State.searchFaults lock addr · s)
  | .faultReturns => s.curthread.bind (State.faultReturns · s)
  | .searchWild next => s.curthread.bind (State.searchWild next · s)
  | .exit exitcode => s.curthread.bind (sysExit exitcode · s)
  | .system act => s.system act
  | .dispatch => s.dispatch

/-- The store through `status` is to the process's own memory and keeps the
processor. -/
def StoresAtOnce (call : Call) (_ : State) : Prop :=
  match call with
  | .searchFaults _ _ | .searchWild _ => False
  | _ => True

instance : (call : Call) → (s : State) → Decidable (call.StoresAtOnce s)
  | .searchFaults _ _, _ | .searchWild _, _ => inferInstanceAs (Decidable False)
  | .waitpid _ _ _, _ | .search _, _ | .faultReturns, _ | .exit _, _ | .system _, _
  | .dispatch, _ => inferInstanceAs (Decidable True)

end Call

/-- Nobody sleeps for an exit that the list has. -/
def NoLostExit (s : State) : Prop :=
  ∀ t pid addr, (s.point t).target = some pid → s.Asleep t addr →
    ∀ entry ∈ s.forkC.pidlist, entry.pid = pid → entry.hasExited = false

def CodesReturned (s : State) : Prop :=
  ∀ result ∈ s.returned, s.exitCode result.pid = some result.code

/-- Processes with pids of their own, none of them in `sys_waitpid`. -/
structure Start (s : State) : Prop where
  inv : Config.Inv s.config
  nodup : (s.forkC.pidlist.map PidEntry.pid).Nodup
  outside : ∀ t, (s.point t).target = none
  running : ∀ t, (s.point t).isProcess = true →
    ∀ entry ∈ s.forkC.pidlist, entry.pid = s.pid t → entry.hasExited = false
  distinct : ∀ t u, (s.point t).isProcess = true → (s.point u).isProcess = true →
    s.pid t = s.pid u → t = u
  codes : ∀ entry ∈ s.forkC.pidlist, entry.hasExited = true →
    s.exitCode entry.pid = some entry.exitcode
  returned : s.returned = []

structure Inv (s : State) : Prop where
  inv : Config.Inv s.config
  nodup : (s.forkC.pidlist.map PidEntry.pid).Nodup
  asleep : ∀ t pid status addr, s.point t = .asleep pid status → s.Asleep t addr →
    addr = pid ∧ ∀ entry ∈ s.forkC.pidlist, entry.pid = pid → entry.hasExited = false
  unfaulted : ∀ t pid status exitcode, s.point t ≠ .storing pid status exitcode
  awake : ∀ t pid status addr, s.point t = .waiting pid status → ¬ s.Asleep t addr
  running : ∀ t, (s.point t).isProcess = true →
    ∀ entry ∈ s.forkC.pidlist, entry.pid = s.pid t → entry.hasExited = false
  distinct : ∀ t u, (s.point t).isProcess = true → (s.point u).isProcess = true →
    s.pid t = s.pid u → t = u
  codes : ∀ entry ∈ s.forkC.pidlist, entry.hasExited = true →
    s.exitCode entry.pid = some entry.exitcode
  returned : ∀ result ∈ s.returned, ∃ entry ∈ s.forkC.pidlist,
    entry.pid = result.pid ∧ entry.hasExited = true ∧ entry.exitcode = result.code

namespace Inv

open State

variable {s next : State}

theorem of_start (hstart : Start s) : Inv s where
  inv := hstart.inv
  nodup := hstart.nodup
  asleep := by
    intro t pid status addr hpoint
    have hnone := hstart.outside t
    rw [hpoint] at hnone
    cases hnone
  unfaulted := by
    intro t pid status exitcode hpoint
    have hnone := hstart.outside t
    rw [hpoint] at hnone
    cases hnone
  awake := by
    intro t pid status addr hpoint
    have hnone := hstart.outside t
    rw [hpoint] at hnone
    cases hnone
  running := hstart.running
  distinct := hstart.distinct
  codes := hstart.codes
  returned := by
    rw [hstart.returned]
    intro result hmem
    cases hmem

theorem noLostExit (h : Inv s) : NoLostExit s := by
  intro t pid addr htarget hasleep
  cases hpoint : s.point t with
  | waiting waited status => exact absurd hasleep (h.awake t waited status addr hpoint)
  | storing waited status exitcode => exact absurd hpoint (h.unfaulted t waited status exitcode)
  | asleep waited status =>
      rw [hpoint] at htarget
      cases htarget
      exact (h.asleep t _ status addr hpoint hasleep).2
  | _ =>
      rw [hpoint] at htarget
      cases htarget

theorem codesReturned (h : Inv s) : CodesReturned s := by
  intro result hmem
  obtain ⟨entry, hentry, hpid, hexited, hcode⟩ := h.returned result hmem
  rw [← hpid, ← hcode]
  exact h.codes entry hentry hexited

/-- Calls that put no thread to sleep inside `sys_waitpid`. -/
theorem setConfig (h : Inv s) (hinv : Config.Inv config)
    (hasleep : ∀ t addr, (s.point t).target ≠ none → t ∈ config.sys.sleepersOn addr →
      s.Asleep t addr) : Inv { s with config := config } where
  inv := hinv
  nodup := h.nodup
  asleep := by
    intro t pid status addr hpoint hafter
    apply h.asleep t pid status addr hpoint
    apply hasleep t addr ?_ hafter
    change s.point t = _ at hpoint
    rw [hpoint]
    exact Option.some_ne_none _
  unfaulted := h.unfaulted
  awake := by
    intro t pid status addr hpoint hafter
    apply h.awake t pid status addr hpoint
    apply hasleep t addr ?_ hafter
    change s.point t = _ at hpoint
    rw [hpoint]
    exact Option.some_ne_none _
  running := h.running
  distinct := h.distinct
  codes := h.codes
  returned := h.returned

theorem setProcs {procs : Procs} (h : Inv s) (hsearched : Procs.Searched t s.toProcs procs) :
    Inv { s with toProcs := procs } := by
  obtain ⟨config, pid, ⟨globalPid, pidLock, pidlist⟩, birth, born⟩ := procs
  obtain ⟨hstays, rfl, -, -, -, rfl, -⟩ := hsearched
  obtain ⟨hinv, -, hasleep, -⟩ := hstays
  have hconfig := h.setConfig hinv fun t addr _ => hasleep t addr
  exact ⟨hinv, h.nodup, hconfig.asleep, h.unfaulted, hconfig.awake, h.running, h.distinct,
    h.codes, h.returned⟩

theorem stored (h : Inv s) : Inv (s.stored t status exitcode) :=
  ⟨h.inv, h.nodup, h.asleep, h.unfaulted, h.awake, h.running, h.distinct, h.codes, h.returned⟩

theorem isProcess_moved {place : Point} (hprocess : place.isProcess = (s.point t).isProcess)
    (u : Tid) : ((s.moved t place).point u).isProcess = (s.point u).isProcess := by
  simp only [moved, Function.update_apply]
  split
  case isTrue heq => rw [heq, hprocess]
  case isFalse => rfl

/-- The running thread goes to another place, and stays a process if it is
one. -/
theorem moved {place : Point} (h : Inv s) (hcur : s.curthread = some t)
    (hprocess : place.isProcess = (s.point t).isProcess)
    (hstoring : ∀ pid status exitcode, place ≠ .storing pid status exitcode) :
    Inv (s.moved t place) where
  inv := h.inv
  nodup := h.nodup
  asleep := by
    intro u pid status addr hpoint hasleep
    have hne : u ≠ t := fun heq => Procs.running_awake h.inv hcur (heq ▸ hasleep)
    simp only [State.moved, Function.update_of_ne hne] at hpoint
    exact h.asleep u pid status addr hpoint hasleep
  unfaulted := by
    intro u pid status exitcode hpoint
    simp only [State.moved, Function.update_apply] at hpoint
    split at hpoint
    case isTrue => exact hstoring pid status exitcode hpoint
    case isFalse => exact h.unfaulted u pid status exitcode hpoint
  awake := by
    intro u pid status addr hpoint hasleep
    have hne : u ≠ t := fun heq => Procs.running_awake h.inv hcur (heq ▸ hasleep)
    simp only [State.moved, Function.update_of_ne hne] at hpoint
    exact h.awake u pid status addr hpoint hasleep
  running := by
    intro u hu
    rw [isProcess_moved hprocess] at hu
    exact h.running u hu
  distinct := by
    intro u v hu hv
    rw [isProcess_moved hprocess] at hu hv
    exact h.distinct u v hu hv
  codes := h.codes
  returned := h.returned

/-- `thread_sleep(pid)`, where the list has no exit of the pid. -/
theorem sleeps (h : Inv s) (hcur : s.curthread = some t)
    (hprocess : (s.point t).isProcess = true)
    (hrunning : ∀ entry ∈ s.forkC.pidlist, entry.pid = pid → entry.hasExited = false)
    (hrun : s.sleeps t pid status = some next) : Inv next := by
  simp only [State.sleeps, State.take, Option.map_map, Option.map_eq_some_iff] at hrun
  obtain ⟨procs, htake, rfl⟩ := hrun
  obtain ⟨config, htakes, rfl⟩ := Procs.take_eq_some.mp htake
  have hmoved : ∀ u, ((s.moved t (.asleep pid status)).point u).isProcess =
      (s.point u).isProcess :=
    isProcess_moved (by rw [hprocess]; rfl)
  constructor
  case inv => exact h.inv.step htakes.step
  case nodup => exact h.nodup
  case asleep =>
    intro u target status' addr hpoint hafter
    simp only [Function.comp_apply, State.moved, Function.update_apply] at hpoint
    have hsleep := htakes.asleep_before h.inv hafter
    split at hpoint
    case isTrue heq =>
      subst heq
      cases hpoint
      cases hsleep with
      | inl hbefore => exact absurd hbefore (Procs.running_awake h.inv hcur)
      | inr hslept =>
          cases hslept.1
          exact ⟨rfl, hrunning⟩
    case isFalse hne =>
      cases hsleep with
      | inl hbefore => exact h.asleep u target status' addr hpoint hbefore
      | inr hslept => exact absurd (Option.some.inj (hslept.2.symm.trans hcur)) hne
  case unfaulted =>
    intro u target status' exitcode hpoint
    simp only [Function.comp_apply, State.moved, Function.update_apply] at hpoint
    split at hpoint
    case isTrue => cases hpoint
    case isFalse => exact h.unfaulted u target status' exitcode hpoint
  case awake =>
    intro u target status' addr hpoint hafter
    simp only [Function.comp_apply, State.moved, Function.update_apply] at hpoint
    split at hpoint
    case isTrue => cases hpoint
    case isFalse hne =>
      cases htakes.asleep_before h.inv hafter with
      | inl hbefore => exact h.awake u target status' addr hpoint hbefore
      | inr hslept => exact absurd (Option.some.inj (hslept.2.symm.trans hcur)) hne
  case running =>
    intro u hu
    exact h.running u ((hmoved u).symm.trans hu)
  case distinct =>
    intro u v hu hv
    exact h.distinct u v ((hmoved u).symm.trans hu) ((hmoved v).symm.trans hv)
  case codes => exact h.codes
  case returned => exact h.returned

/-- A turn of the loop that stores the code of the entry. -/
theorem searched {entry : PidEntry} (h : Inv s) (hcur : s.curthread = some t)
    (hprocess : (s.point t).isProcess = true) (hfind : pidlistFind pid s.forkC.pidlist = some entry)
    (hrun : s.searched t pid status entry.exitcode entry.hasExited = some next) : Inv next := by
  obtain ⟨hmem, hpid⟩ := pidlistFind_mem hfind
  simp only [State.searched] at hrun
  split at hrun
  case isTrue hexited =>
    cases hrun
    have huser : Inv ((s.stored t status entry.exitcode).moved t .user) :=
      h.stored.moved hcur (by rw [State.stored, hprocess]; rfl) (by intros; exact Point.noConfusion)
    refine ⟨huser.inv, huser.nodup, huser.asleep, huser.unfaulted, huser.awake, huser.running,
      huser.distinct, huser.codes, ?_⟩
    intro result hresult
    cases hresult with
    | head =>
        refine ⟨entry, hmem, hpid, hexited, ?_⟩
        simp [State.stored]
    | tail _ hbefore => exact h.returned result hbefore
  case isFalse hrunning =>
    have hentry : ∀ other ∈ s.forkC.pidlist, other.pid = pid → other.hasExited = false := by
      intro other hother heq
      have hsame := pidlistFind_of_mem h.nodup hother
      rw [heq, hfind] at hsame
      cases hsame
      exact Bool.eq_false_of_not_eq_true hrunning
    exact h.stored.sleeps hcur hprocess hentry hrun

theorem search (h : Inv s) (hcur : s.curthread = some t)
    (hrun : s.search lock t = some next) : Inv next := by
  simp only [State.search] at hrun
  split at hrun
  case h_2 => cases hrun
  case h_1 pid status hpoint =>
    have hprocess : (s.point t).isProcess = true := by
      rw [hpoint]
      rfl
    rw [Option.bind_eq_some_iff] at hrun
    obtain ⟨⟨found, procs⟩, hsearch, hrest⟩ := hrun
    obtain ⟨hfound, hsearched⟩ := Procs.pidlistSearch_spec h.inv hsearch
    have hprocs := h.setProcs hsearched
    have hcur' : procs.curthread = some t := hsearched.stays.curthread.trans hcur
    cases found with
    | some entry =>
        simp only at hrest
        split at hrest
        case isFalse => cases hrest
        case isTrue =>
          apply hprocs.searched hcur' hprocess ?_ hrest
          rw [hfound, ← hsearched.pidlist]
    | none =>
        apply hprocs.sleeps hcur' hprocess ?_ hrest
        -- The pid is not in the list.
        intro entry hmem hpid
        have hfind : pidlistFind entry.pid procs.forkC.pidlist = some entry :=
          pidlistFind_of_mem hprocs.nodup hmem
        rw [hpid, hsearched.pidlist, ← hfound] at hfind
        cases hfind

theorem sysWaitpid (h : Inv s) (hcur : s.curthread = some t)
    (hrun : s.sysWaitpid pid status options t = some next) : Inv next := by
  simp only [State.sysWaitpid] at hrun
  split at hrun
  case h_2 => cases hrun
  case h_1 hpoint =>
    split at hrun
    case h_1 =>
      cases hrun
      exact h
    case h_2 =>
      cases hrun
      exact h.moved hcur (by rw [hpoint]; rfl) (by intros; exact Point.noConfusion)

theorem sysExit (h : Inv s) (hrun : s.sysExit exitcode t = some next) : Inv next := by
  simp only [State.sysExit] at hrun
  split at hrun
  case h_2 => cases hrun
  case h_1 huser =>
    have hprocess : (s.point t).isProcess = true := by
      rw [huser]
      rfl
    rw [Option.map_eq_some_iff] at hrun
    obtain ⟨procs, hexit, rfl⟩ := hrun
    obtain ⟨config, htakes, rfl⟩ := Procs.sysExit_spec hexit
    have hstays := Procs.Stays.of_wakeup h.inv htakes
    -- Whoever is left in `sys_waitpid` waits for another pid.
    have hothers : ∀ u place, place ≠ Point.exiting →
        Function.update s.point t .exiting u = place → u ≠ t ∧ s.point u = place := by
      intro u place hplace hpoint
      rw [Function.update_apply] at hpoint
      split at hpoint
      case isTrue => exact absurd hpoint.symm hplace
      case isFalse hne => exact ⟨hne, hpoint⟩
    have hprocesses : ∀ u, (Function.update s.point t .exiting u).isProcess = true →
        u ≠ t ∧ (s.point u).isProcess = true := by
      intro u hu
      rw [Function.update_apply] at hu
      split at hu
      case isTrue => cases hu
      case isFalse hne => exact ⟨hne, hu⟩
    constructor
    case inv => exact hstays.inv
    case nodup =>
      simp only [pidlistExit_pids]
      exact h.nodup
    case asleep =>
      intro u pid status addr hpoint hafter
      obtain ⟨-, hbefore⟩ := hothers u _ Point.noConfusion hpoint
      obtain ⟨rfl, hrunning⟩ := h.asleep u pid status addr hbefore (hstays.asleep u addr hafter)
      refine ⟨rfl, ?_⟩
      intro entry hmem hpid
      cases mem_pidlistExit h.nodup hmem with
      | inl hkept => exact hrunning entry hkept.2 hpid
      | inr hexited =>
          have hnobody := Procs.exit_wakes h.inv htakes
          rw [← hexited.1, hpid] at hnobody
          change u ∈ config.sys.sleepersOn addr at hafter
          rw [hnobody] at hafter
          cases hafter
    case unfaulted =>
      intro u pid status code hpoint
      exact h.unfaulted u pid status code (hothers u _ Point.noConfusion hpoint).2
    case awake =>
      intro u pid status addr hpoint hafter
      exact h.awake u pid status addr (hothers u _ Point.noConfusion hpoint).2
        (hstays.asleep u addr hafter)
    case running =>
      intro u hu entry hmem hpid
      obtain ⟨hne, hprocess'⟩ := hprocesses u hu
      cases mem_pidlistExit h.nodup hmem with
      | inl hkept => exact h.running u hprocess' entry hkept.2 hpid
      | inr hexited =>
          exact absurd (h.distinct u t hprocess' hprocess (hpid.symm.trans hexited.1)) hne
    case distinct =>
      intro u v hu hv
      exact h.distinct u v (hprocesses u hu).2 (hprocesses v hv).2
    case codes =>
      intro entry hmem hexited
      cases mem_pidlistExit h.nodup hmem with
      | inl hkept =>
          simp only [Function.update_of_ne hkept.1]
          exact h.codes entry hkept.2 hexited
      | inr hself => simp only [hself.1, hself.2.2, Function.update_self]
    case returned =>
      intro result hresult
      obtain ⟨entry, hmem, hpid, hexited, hcode⟩ := h.returned result hresult
      have hne : entry.pid ≠ s.pid t := by
        intro heq
        rw [h.running t hprocess entry hmem heq] at hexited
        cases hexited
      exact ⟨entry, mem_pidlistExit_of_ne h.nodup hmem hne, hpid, hexited, hcode⟩

theorem system (h : Inv s) (hrun : s.system act = some next) : Inv next := by
  simp only [State.system, State.take] at hrun
  split at hrun
  case isFalse => cases hrun
  case isTrue hallows =>
    rw [Option.map_eq_some_iff] at hrun
    obtain ⟨procs, htake, rfl⟩ := hrun
    obtain ⟨config, htakes, rfl⟩ := Procs.take_eq_some.mp htake
    apply h.setConfig (h.inv.step htakes.step)
    intro t addr htarget hafter
    cases htakes.asleep_before h.inv hafter with
    | inl hbefore => exact hbefore
    | inr hslept =>
        obtain ⟨rfl, hcur⟩ := hslept
        have hcur' : s.curthread = some t := hcur
        rw [hcur'] at hallows
        simp only [Option.elim] at hallows
        cases hpoint : s.point t with
        | storing pid status exitcode => exact absurd hpoint (h.unfaulted t pid status exitcode)
        | waiting pid status =>
            rw [hpoint] at hallows
            cases hallows
        | asleep pid status =>
            rw [hpoint] at hallows
            cases hallows
        | _ =>
            rw [hpoint] at htarget
            exact absurd rfl htarget

theorem dispatch (h : Inv s) (hrun : s.dispatch = some next) : Inv next := by
  simp only [State.dispatch, State.take, Option.map_map, Option.map_eq_some_iff] at hrun
  obtain ⟨procs, htake, rfl⟩ := hrun
  obtain ⟨config, htakes, rfl⟩ := Procs.take_eq_some.mp htake
  have hconfig : Inv { s with config := config } := by
    apply h.setConfig (h.inv.step htakes.step)
    intro t addr _ hafter
    cases htakes.asleep_before h.inv hafter with
    | inl hbefore => exact hbefore
    | inr hslept => cases hslept.1
  simp only [Function.comp_apply]
  split
  case h_1 t hcur =>
    apply hconfig.moved hcur
    · cases s.point t <;> rfl
    · intro pid status exitcode hpoint
      apply h.unfaulted t pid status exitcode
      cases hold : s.point t <;> simp_all [Point.resume]
  case h_2 => exact hconfig

theorem run {call : Call} (h : Inv s) (hcondition : call.StoresAtOnce s)
    (hrun : call.run s = some next) : Inv next := by
  cases call with
  | waitpid pid status options =>
      obtain ⟨t, hcur, hcall⟩ := Option.bind_eq_some_iff.mp hrun
      exact h.sysWaitpid hcur hcall
  | search lock =>
      obtain ⟨t, hcur, hcall⟩ := Option.bind_eq_some_iff.mp hrun
      exact h.search hcur hcall
  | searchFaults lock addr => exact hcondition.elim
  | faultReturns =>
      obtain ⟨t, hcur, hcall⟩ := Option.bind_eq_some_iff.mp hrun
      simp only [faultReturns] at hcall
      split at hcall
      case h_1 pid status exitcode hpoint => exact absurd hpoint (h.unfaulted t _ _ _)
      case h_2 => cases hcall
  | searchWild next => exact hcondition.elim
  | exit exitcode =>
      obtain ⟨t, -, hcall⟩ := Option.bind_eq_some_iff.mp hrun
      exact h.sysExit hcall
  | system act => exact h.system hrun
  | dispatch => exact h.dispatch hrun

end Inv

/-- In runs where no store through `status` gives the processor away, nobody
sleeps through an exit, and each waiter gets the code of its process. -/
theorem exits_reach_waiters (hstart : Start s)
    (hruns : Runs Call.run Call.StoresAtOnce s next) :
    NoLostExit next ∧ CodesReturned next := by
  have hinv := hruns.preserves (fun _ _ _ => Inv.run) (Inv.of_start hstart)
  exact ⟨hinv.noLostExit, hinv.codesReturned⟩

/-- Threads 1 and 2 have the pids 2 and 3; the codes are what `kmalloc` left. -/
def parentAndChild : State where
  config := Procs.threeThreads
  pid := fun t => t + 1
  forkC := ⟨3, none, [⟨1, false, 0xdead⟩, ⟨2, false, 0xdead⟩, ⟨3, false, 0xdead⟩]⟩
  birth := id
  born := 3
  point := fun t => if t = 1 ∨ t = 2 then .user else .kernel
  word := fun _ _ => 0
  exitCode := fun _ => none
  returned := []

theorem parentAndChild_start : Start parentAndChild where
  inv := Procs.threeThreads_inv
  nodup := by decide
  outside := by
    intro t
    simp only [parentAndChild]
    split <;> rfl
  running := by
    intro t _ entry hmem _
    simp only [parentAndChild, List.mem_cons, List.not_mem_nil, or_false] at hmem
    rcases hmem with rfl | rfl | rfl <;> rfl
  distinct := by
    intro t u _ _ hpid
    exact Nat.succ_injective hpid
  codes := by
    intro entry hmem hexited
    simp only [parentAndChild, List.mem_cons, List.not_mem_nil, or_false] at hmem
    rcases hmem with rfl | rfl | rfl <;> cases hexited
  returned := rfl

/-- The parent waits, the child exits with 7, and the parent returns. -/
def waitThenExit : List Call :=
  [.waitpid 3 0x1000 0, .search 0x80002000, .dispatch, .exit 7, .system .exit, .dispatch,
    .system .yield, .dispatch, .search 0x80002000]

theorem exits_reach_waiters_seven :
    Start parentAndChild ∧
    (runAll Call.run waitThenExit parentAndChild).returned = [⟨1, 3, 7⟩] ∧
    NoLostExit (runAll Call.run waitThenExit parentAndChild) ∧
    CodesReturned (runAll Call.run waitThenExit parentAndChild) :=
  ⟨parentAndChild_start, by decide,
    exits_reach_waiters parentAndChild_start (runs_runAll _ _ (by decide))⟩

/-- The store of the parent's search faults, and the child exits meanwhile. -/
def exitInFault : List Call :=
  [.waitpid 3 0x1000 0, .searchFaults 0x80002000 0x80001000, .dispatch, .exit 7]

def faultEnds : List Call :=
  [.system (.wakeup 0x80001000), .system .exit, .dispatch, .system .yield, .dispatch,
    .faultReturns]

theorem exit_lost_in_fault :
    Start parentAndChild ∧
    Runs Call.run (fun _ _ => True) parentAndChild (runAll Call.run exitInFault parentAndChild) ∧
    ¬ NoLostExit (runAll Call.run exitInFault parentAndChild) ∧
    Runs Call.run (fun _ _ => True) parentAndChild
      (runAll Call.run (exitInFault ++ faultEnds) parentAndChild) ∧
    ¬ CodesReturned (runAll Call.run (exitInFault ++ faultEnds) parentAndChild) := by
  refine ⟨parentAndChild_start, runs_runAll_free _ _, ?_,
    runs_runAll_free _ _, ?_⟩
  · intro hnone
    have hrunning := hnone 1 3 0x80001000 (by decide) (by unfold Procs.Asleep; decide)
      ⟨3, true, 7⟩ (by decide) rfl
    cases hrunning
  · intro hcodes
    have hcode := hcodes ⟨1, 3, 0xdead⟩ (by decide)
    revert hcode
    decide

end OS161.Userprog.Waitpid
