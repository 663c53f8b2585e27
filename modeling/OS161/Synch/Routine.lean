import Mathlib.Logic.Function.Basic
import OS161.Data.Seq

set_option linter.unusedSectionVars false

namespace OS161.Synch

open OS161.Data

/-! Threads that run routines over shared variables, the locks and the
condition variables of `kern/thread/synch.c`.  What a function of `synch.c`
does with interrupts off is one step; between two steps any other thread may
run. -/

abbrev Tid := Nat

/-- The statement that a thread is about to execute, and where it goes on.
`cv_wait` is `enqueue`, then `fallAsleep`, then `acquire`. -/
inductive Instr (Lock Cv Var Val P : Type) where
  | acquire (l : Lock) (k : P)
  | release (l : Lock) (k : P)
  | enqueue (cv : Cv) (k : P)
  | fallAsleep (cv : Cv) (l : Lock) (k : P)
  | signal (cv : Cv) (k : P)
  | assign (x : Var) (v : Val) (k : P)
  | test (x : Var) (p : Val → Bool) (yes no : P)
  | pause (k : P)
  | halt

/-- The address on which a thread sleeps. -/
inductive Sleep (Lock Cv : Type) where
  | awake
  | onLock (l : Lock)
  | onCv (cv : Cv)
  deriving DecidableEq, Repr

structure State (Lock Cv Var Val P : Type) where
  mem : Var → Val
  threadAddr : Lock → Option Tid
  cvQueue : Cv → List Tid
  point : Tid → P
  sleep : Tid → Sleep Lock Cv
  /-- The thread runs with interrupts off: `cv_signal` of an empty queue
  returns without `splx`. -/
  masked : Tid → Bool
  /-- The thread on the processor. -/
  running : Option Tid

variable {Lock Cv Var Val P : Type} [DecidableEq Lock] [DecidableEq Cv] [DecidableEq Var]

namespace State

def goOn (t : Tid) (k : P) (s : State Lock Cv Var Val P) : State Lock Cv Var Val P :=
  { s with point := Function.update s.point t k, running := some t }

/-- `thread_sleep`. -/
def threadSleep (t : Tid) (place : Sleep Lock Cv) (s : State Lock Cv Var Val P) :
    State Lock Cv Var Val P :=
  { s with sleep := Function.update s.sleep t place, running := none }

/-- `thread_wakeup(lock)`. -/
def threadWakeup (l : Lock) (s : State Lock Cv Var Val P) : State Lock Cv Var Val P :=
  { s with sleep := fun t => if s.sleep t = .onLock l then .awake else s.sleep t }

def lockRelease (t : Tid) (l : Lock) (s : State Lock Cv Var Val P) :
    State Lock Cv Var Val P :=
  if s.threadAddr l = some t then
    threadWakeup l { s with threadAddr := Function.update s.threadAddr l none }
  else s

/-- `thread_wakeup_head` on the queue of the condition variable. -/
def threadWakeupHead (cv : Cv) (head : Tid) (rest : List Tid)
    (s : State Lock Cv Var Val P) : State Lock Cv Var Val P :=
  { s with
    cvQueue := Function.update s.cvQueue cv rest
    sleep := if s.sleep head = .onCv cv then Function.update s.sleep head .awake
      else s.sleep }

def cvSignal (t : Tid) (cv : Cv) (s : State Lock Cv Var Val P) : State Lock Cv Var Val P :=
  match s.cvQueue cv with
  | [] => { s with masked := Function.update s.masked t true }
  | head :: rest => threadWakeupHead cv head rest s

def assign (x : Var) (v : Val) (s : State Lock Cv Var Val P) : State Lock Cv Var Val P :=
  { s with mem := Function.update s.mem x v }

def qAddtail (cv : Cv) (t : Tid) (s : State Lock Cv Var Val P) : State Lock Cv Var Val P :=
  { s with cvQueue := Function.update s.cvQueue cv (s.cvQueue cv ++ [t]) }

/-- What a thread that is awake does next; a lock that is taken sends it to
sleep in the loop of `lock_acquire`. -/
def execute (t : Tid) (s : State Lock Cv Var Val P) :
    Instr Lock Cv Var Val P → Option (State Lock Cv Var Val P)
  | .acquire l k =>
      if s.threadAddr l = none ∨ s.threadAddr l = some t then
        some (goOn t k { s with threadAddr := Function.update s.threadAddr l (some t) })
      else some (threadSleep t (.onLock l) s)
  | .release l k => some (goOn t k (lockRelease t l s))
  | .enqueue cv k => some (goOn t k (qAddtail cv t s))
  | .fallAsleep cv l k => some (threadSleep t (.onCv cv) (goOn t k (lockRelease t l s)))
  | .signal cv k => some (goOn t k (cvSignal t cv s))
  | .assign x v k => some (goOn t k (assign x v s))
  | .test x p yes no => some (goOn t (if p (s.mem x) then yes else no) s)
  | .pause k => some { goOn t k s with running := none }
  | .halt => none

def step (code : P → Instr Lock Cv Var Val P) (t : Tid) (s : State Lock Cv Var Val P) :
    Option (State Lock Cv Var Val P) :=
  if s.sleep t = .awake then execute t s (code (s.point t)) else none

/-- A thread comes out of `thread_sleep` in `cv_wait` without a signal. -/
def wakeSpuriously (t : Tid) (s : State Lock Cv Var Val P) : State Lock Cv Var Val P :=
  { s with sleep := Function.update s.sleep t .awake }

inductive Step (code : P → Instr Lock Cv Var Val P) :
    State Lock Cv Var Val P → State Lock Cv Var Val P → Prop
  | run (t : Tid) (hstep : step code t s = some next) : Step code s next
  | spurious (t : Tid) (hsleep : s.sleep t = .onCv cv) : Step code s (wakeSpuriously t s)

/-- A step whose thread, in the state before it, meets a condition. -/
inductive StepMeeting (code : P → Instr Lock Cv Var Val P)
    (meets : Tid → State Lock Cv Var Val P → Prop) :
    State Lock Cv Var Val P → State Lock Cv Var Val P → Prop
  | run (t : Tid) (hmeets : meets t s) (hstep : step code t s = some next) :
      StepMeeting code meets s next
  | spurious (t : Tid) (hsleep : s.sleep t = .onCv cv) :
      StepMeeting code meets s (wakeSpuriously t s)

theorem StepMeeting.step {code : P → Instr Lock Cv Var Val P}
    {meets : Tid → State Lock Cv Var Val P → Prop} {s next : State Lock Cv Var Val P}
    (hstep : StepMeeting code meets s next) : Step code s next := by
  cases hstep with
  | run t hmeets hstep => exact .run t hstep
  | spurious t hsleep => exact .spurious t hsleep

/-- Whether the thread can have the processor: nobody is on it, or whoever is
can be interrupted. -/
def canRun (t : Tid) (s : State Lock Cv Var Val P) : Bool :=
  match s.running with
  | none => true
  | some u => u == t || !s.masked u

/-- Let the listed threads take a step each, in this order, as long as each
passes a check in the state before its step. -/
def followChecked (code : P → Instr Lock Cv Var Val P)
    (check : Tid → State Lock Cv Var Val P → Bool) :
    List Tid → State Lock Cv Var Val P → Option (State Lock Cv Var Val P)
  | [], s => some s
  | t :: rest, s =>
      if check t s && canRun t s then (step code t s).bind (followChecked code check rest)
      else none

def follow (code : P → Instr Lock Cv Var Val P) :
    List Tid → State Lock Cv Var Val P → Option (State Lock Cv Var Val P) :=
  followChecked code fun _ _ => true

section Follow

variable {code : P → Instr Lock Cv Var Val P} {s final : State Lock Cv Var Val P}

theorem steps_of_followChecked {check : Tid → State Lock Cv Var Val P → Bool}
    {meets : Tid → State Lock Cv Var Val P → Prop} (hcheck : ∀ t s, check t s → meets t s)
    (hfollow : followChecked code check schedule s = some final) :
    Relation.ReflTransGen (StepMeeting code meets) s final := by
  induction schedule generalizing s with
  | nil =>
      cases hfollow
      exact .refl
  | cons t rest ih =>
      simp only [followChecked] at hfollow
      split at hfollow
      case isTrue hpasses =>
        rw [Bool.and_eq_true] at hpasses
        obtain ⟨next, hstep, hrest⟩ := Option.bind_eq_some_iff.mp hfollow
        exact .head (.run t (hcheck t s hpasses.1) hstep) (ih hrest)
      case isFalse => cases hfollow

theorem steps_of_follow (hfollow : follow code schedule s = some final) :
    Relation.ReflTransGen (Step code) s final := by
  have hsteps : Relation.ReflTransGen (StepMeeting code fun _ _ => True) s final :=
    steps_of_followChecked (fun _ _ _ => trivial) hfollow
  have hle : StepMeeting code (fun _ _ => True) ≤ Step code := fun _ _ hstep => hstep.step
  exact Relation.ReflTransGen.mono hle _ _ hsteps

end Follow

/-! What the parts of a step leave alone. -/

section Frame

variable {s next : State Lock Cv Var Val P} {t u : Tid}

@[simp] theorem goOn_mem (k : P) : (goOn t k s).mem = s.mem := rfl

@[simp] theorem goOn_threadAddr (k : P) : (goOn t k s).threadAddr = s.threadAddr := rfl

@[simp] theorem goOn_cvQueue (k : P) : (goOn t k s).cvQueue = s.cvQueue := rfl

@[simp] theorem goOn_sleep (k : P) : (goOn t k s).sleep = s.sleep := rfl

@[simp] theorem goOn_point (k : P) : (goOn t k s).point = Function.update s.point t k := rfl

@[simp] theorem threadSleep_mem (place : Sleep Lock Cv) :
    (threadSleep t place s).mem = s.mem := rfl

@[simp] theorem threadSleep_threadAddr (place : Sleep Lock Cv) :
    (threadSleep t place s).threadAddr = s.threadAddr := rfl

@[simp] theorem threadSleep_cvQueue (place : Sleep Lock Cv) :
    (threadSleep t place s).cvQueue = s.cvQueue := rfl

@[simp] theorem threadSleep_point (place : Sleep Lock Cv) :
    (threadSleep t place s).point = s.point := rfl

@[simp] theorem threadSleep_sleep (place : Sleep Lock Cv) :
    (threadSleep t place s).sleep = Function.update s.sleep t place := rfl

@[simp] theorem lockRelease_mem (l : Lock) : (lockRelease t l s).mem = s.mem := by
  unfold lockRelease
  split <;> rfl

@[simp] theorem lockRelease_cvQueue (l : Lock) :
    (lockRelease t l s).cvQueue = s.cvQueue := by
  unfold lockRelease
  split <;> rfl

@[simp] theorem lockRelease_point (l : Lock) : (lockRelease t l s).point = s.point := by
  unfold lockRelease
  split <;> rfl

theorem lockRelease_threadAddr (l : Lock) :
    (lockRelease t l s).threadAddr =
      if s.threadAddr l = some t then Function.update s.threadAddr l none
      else s.threadAddr := by
  unfold lockRelease
  split <;> rfl

theorem lockRelease_threadAddr_of_ne {other l : Lock} (hne : other ≠ l) :
    (lockRelease t l s).threadAddr other = s.threadAddr other := by
  rw [lockRelease_threadAddr]
  split
  · exact Function.update_of_ne hne _ _
  · rfl

/-- A release wakes some of those who sleep on the lock and nobody else. -/
theorem lockRelease_sleep (l : Lock) (u : Tid) :
    (lockRelease t l s).sleep u = s.sleep u ∨
      (s.sleep u = .onLock l ∧ (lockRelease t l s).sleep u = .awake) := by
  unfold lockRelease
  split
  · by_cases hu : s.sleep u = .onLock l
    · exact .inr ⟨hu, if_pos hu⟩
    · exact .inl (if_neg hu)
  · exact .inl rfl

@[simp] theorem lockRelease_awake (l : Lock) (hawake : s.sleep u = .awake) :
    (lockRelease t l s).sleep u = .awake := by
  rcases lockRelease_sleep (s := s) (t := t) l u with hsame | ⟨-, hwoken⟩
  · rw [hsame]
    exact hawake
  · exact hwoken

@[simp] theorem cvSignal_mem (cv : Cv) : (cvSignal t cv s).mem = s.mem := by
  unfold cvSignal
  split <;> rfl

@[simp] theorem cvSignal_threadAddr (cv : Cv) :
    (cvSignal t cv s).threadAddr = s.threadAddr := by
  unfold cvSignal
  split <;> rfl

@[simp] theorem cvSignal_point (cv : Cv) : (cvSignal t cv s).point = s.point := by
  unfold cvSignal
  split <;> rfl

/-- A signal wakes at most the head of the queue. -/
theorem cvSignal_sleep (cv : Cv) (u : Tid) :
    (cvSignal t cv s).sleep u = s.sleep u ∨ (cvSignal t cv s).sleep u = .awake := by
  unfold cvSignal
  split
  · exact .inl rfl
  case h_2 head rest hqueue =>
    simp only [threadWakeupHead]
    split
    · by_cases hhead : u = head
      · subst hhead
        exact .inr (Function.update_self _ _ _)
      · exact .inl (Function.update_of_ne hhead _ _)
    · exact .inl rfl

@[simp] theorem cvSignal_awake (cv : Cv) (hawake : s.sleep u = .awake) :
    (cvSignal t cv s).sleep u = .awake := by
  rcases cvSignal_sleep (s := s) (t := t) cv u with hsame | hwoken
  · rw [hsame]
    exact hawake
  · exact hwoken

theorem cvSignal_cons {head : Tid} {rest : List Tid} (cv : Cv)
    (hqueue : s.cvQueue cv = head :: rest) (hasleep : s.sleep head = .onCv cv) :
    (cvSignal t cv s).sleep head = .awake := by
  simp [cvSignal, hqueue, threadWakeupHead, hasleep]

@[simp] theorem qAddtail_mem (cv : Cv) : (qAddtail cv t s).mem = s.mem := rfl

@[simp] theorem qAddtail_threadAddr (cv : Cv) :
    (qAddtail cv t s).threadAddr = s.threadAddr := rfl

@[simp] theorem qAddtail_point (cv : Cv) : (qAddtail cv t s).point = s.point := rfl

@[simp] theorem qAddtail_sleep (cv : Cv) : (qAddtail cv t s).sleep = s.sleep := rfl

@[simp] theorem assign_mem (x : Var) (v : Val) :
    (assign x v s).mem = Function.update s.mem x v := rfl

@[simp] theorem assign_threadAddr (x : Var) (v : Val) :
    (assign x v s).threadAddr = s.threadAddr := rfl

@[simp] theorem assign_cvQueue (x : Var) (v : Val) :
    (assign x v s).cvQueue = s.cvQueue := rfl

@[simp] theorem assign_point (x : Var) (v : Val) : (assign x v s).point = s.point := rfl

@[simp] theorem assign_sleep (x : Var) (v : Val) : (assign x v s).sleep = s.sleep := rfl

end Frame

/-- The ways in which a thread that is awake can take a step, one for each
branch of `execute`. -/
inductive Does (code : P → Instr Lock Cv Var Val P) (t : Tid)
    (s : State Lock Cv Var Val P) : State Lock Cv Var Val P → Prop
  | acquired (hcode : code (s.point t) = .acquire l k)
      (hfree : s.threadAddr l = none ∨ s.threadAddr l = some t) :
      Does code t s
        (goOn t k { s with threadAddr := Function.update s.threadAddr l (some t) })
  | blocked (hcode : code (s.point t) = .acquire l k)
      (hbusy : s.threadAddr l ≠ none) (hother : s.threadAddr l ≠ some t) :
      Does code t s (threadSleep t (.onLock l) s)
  | released (hcode : code (s.point t) = .release l k) :
      Does code t s (goOn t k (lockRelease t l s))
  | queued (hcode : code (s.point t) = .enqueue cv k) :
      Does code t s (goOn t k (qAddtail cv t s))
  | slept (hcode : code (s.point t) = .fallAsleep cv l k) :
      Does code t s (threadSleep t (.onCv cv) (goOn t k (lockRelease t l s)))
  | signalled (hcode : code (s.point t) = .signal cv k) :
      Does code t s (goOn t k (cvSignal t cv s))
  | assigned (hcode : code (s.point t) = .assign x v k) :
      Does code t s (goOn t k (assign x v s))
  | tested (hcode : code (s.point t) = .test x p yes no) :
      Does code t s (goOn t (if p (s.mem x) then yes else no) s)
  | paused (hcode : code (s.point t) = .pause k) :
      Does code t s { goOn t k s with running := none }

theorem does_of_step {code : P → Instr Lock Cv Var Val P}
    (hstep : step code t s = some next) : s.sleep t = .awake ∧ Does code t s next := by
  unfold step at hstep
  split at hstep
  case isFalse => cases hstep
  case isTrue hawake =>
    refine ⟨hawake, ?_⟩
    cases hcode : code (s.point t) with
    | acquire l k =>
        rw [hcode] at hstep
        simp only [execute] at hstep
        split at hstep
        case isTrue hfree =>
          cases hstep
          exact .acquired hcode hfree
        case isFalse hbusy =>
          cases hstep
          rw [not_or] at hbusy
          exact .blocked hcode hbusy.1 hbusy.2
    | release l k =>
        rw [hcode] at hstep
        cases hstep
        exact .released hcode
    | enqueue cv k =>
        rw [hcode] at hstep
        cases hstep
        exact .queued hcode
    | fallAsleep cv l k =>
        rw [hcode] at hstep
        cases hstep
        exact .slept hcode
    | signal cv k =>
        rw [hcode] at hstep
        cases hstep
        exact .signalled hcode
    | assign x v k =>
        rw [hcode] at hstep
        cases hstep
        exact .assigned hcode
    | test x p yes no =>
        rw [hcode] at hstep
        cases hstep
        exact .tested hcode
    | pause k =>
        rw [hcode] at hstep
        cases hstep
        exact .paused hcode
    | halt =>
        rw [hcode] at hstep
        cases hstep

section Others

variable {code : P → Instr Lock Cv Var Val P} {s next : State Lock Cv Var Val P}

theorem Does.point_of_ne (hdoes : Does code t s next) (hu : u ≠ t) :
    next.point u = s.point u := by
  cases hdoes <;> simp [hu]

/-- Nobody else's step takes a lock from its holder. -/
theorem Does.holds_of_ne (hdoes : Does code t s next) (hu : u ≠ t)
    (hholds : s.threadAddr l = some u) : next.threadAddr l = some u := by
  have hother : s.threadAddr l ≠ some t := by
    rw [hholds]
    exact fun heq => hu (Option.some.inj heq)
  have hrelease : ∀ l', (lockRelease t l' s).threadAddr l = some u := by
    intro l'
    rw [lockRelease_threadAddr]
    split
    case isTrue hmine =>
      have hl : l ≠ l' := fun heq => hother (heq ▸ hmine)
      rw [Function.update_of_ne hl]
      exact hholds
    case isFalse => exact hholds
  cases hdoes with
  | @acquired l' k hcode hfree =>
      have hl : l ≠ l' := by
        rintro rfl
        rw [hholds] at hfree
        rcases hfree with hnone | hmine
        · cases hnone
        · exact hu (Option.some.inj hmine)
      simp [hl, hholds]
  | released hcode => exact hrelease _
  | slept hcode => exact hrelease _
  | _ => simpa using hholds

/-- Nobody else's step gives a lock to a thread. -/
theorem Does.held_of_ne (hdoes : Does code t s next) (hu : u ≠ t)
    (hholds : next.threadAddr l = some u) : s.threadAddr l = some u := by
  have hrelease : ∀ l', (lockRelease t l' s).threadAddr l = some u →
      s.threadAddr l = some u := by
    intro l' hafter
    by_cases hl : l = l'
    · subst hl
      rw [lockRelease_threadAddr] at hafter
      split at hafter
      · simp at hafter
      · exact hafter
    · rwa [lockRelease_threadAddr_of_ne hl] at hafter
  cases hdoes with
  | @acquired l' k hcode hfree =>
      by_cases hl : l = l'
      · subst hl
        simp only [goOn_threadAddr, Function.update_self, Option.some.injEq] at hholds
        exact absurd hholds.symm hu
      · simpa [hl] using hholds
  | released hcode => exact hrelease _ hholds
  | slept hcode => exact hrelease _ hholds
  | _ => simpa using hholds

/-- Others are woken by a step or left as they are. -/
theorem Does.sleep_of_ne (hdoes : Does code t s next) (hu : u ≠ t) :
    next.sleep u = s.sleep u ∨ next.sleep u = .awake := by
  have hrelease : ∀ l, (lockRelease t l s).sleep u = s.sleep u ∨
      (lockRelease t l s).sleep u = .awake := by
    intro l
    rcases lockRelease_sleep (s := s) (t := t) l u with hsame | ⟨-, hwoken⟩
    · exact .inl hsame
    · exact .inr hwoken
  cases hdoes with
  | blocked hcode hbusy hother => exact .inl (Function.update_of_ne hu _ _)
  | released hcode => exact hrelease _
  | slept hcode =>
      rw [threadSleep_sleep, Function.update_of_ne hu]
      exact hrelease _
  | signalled hcode => exact cvSignal_sleep _ u
  | _ => exact .inl rfl

/-- Nobody falls asleep on a lock but in `lock_acquire`. -/
theorem Does.onLock_self (hdoes : Does code t s next) (hawake : s.sleep t = .awake)
    (hsleep : next.sleep t = .onLock l) :
    (∃ k, code (s.point t) = .acquire l k) ∧ s.threadAddr l ≠ none ∧
      s.threadAddr l ≠ some t ∧ next.threadAddr = s.threadAddr := by
  cases hdoes with
  | @blocked l' k hcode hbusy hother =>
      simp only [threadSleep_sleep, Function.update_self, Sleep.onLock.injEq] at hsleep
      subst hsleep
      exact ⟨⟨k, hcode⟩, hbusy, hother, rfl⟩
  | _ => simp [hawake] at hsleep

/-- Nobody falls asleep on a condition variable but in `cv_wait`. -/
theorem Does.onCv_self (hdoes : Does code t s next) (hawake : s.sleep t = .awake)
    (hsleep : next.sleep t = .onCv cv) :
    ∃ l, code (s.point t) = .fallAsleep cv l (next.point t) ∧ next.cvQueue = s.cvQueue := by
  cases hdoes with
  | @slept _ l k hcode =>
      simp only [threadSleep_sleep, Function.update_self, Sleep.onCv.injEq] at hsleep
      subst hsleep
      refine ⟨l, ?_, ?_⟩
      · simpa using hcode
      · simp
  | _ => simp [hawake] at hsleep

theorem Does.signal_wakes {head : Tid} {rest : List Tid} (hdoes : Does code t s next)
    (hcode : code (s.point t) = .signal cv k) (hqueue : s.cvQueue cv = head :: rest)
    (hasleep : s.sleep head = .onCv cv) : next.sleep head = .awake := by
  cases hdoes with
  | signalled hsignal =>
      rw [hcode] at hsignal
      cases hsignal
      exact cvSignal_cons cv hqueue hasleep
  | _ => simp_all

/-- A thread leaves the queue of a condition variable by a signal only. -/
theorem Does.mem_cvQueue (hdoes : Does code t s next) (hmem : u ∈ s.cvQueue cv) :
    u ∈ next.cvQueue cv ∨
    ∃ rest k, code (s.point t) = .signal cv k ∧ s.cvQueue cv = u :: rest := by
  cases hdoes with
  | @queued cv' k hcode =>
      left
      by_cases heq : cv = cv'
      · subst heq
        simp [qAddtail, hmem]
      · simpa [qAddtail, heq] using hmem
  | @signalled cv' k hcode =>
      simp only [goOn_cvQueue, cvSignal]
      split
      · exact .inl hmem
      case h_2 head rest hqueue =>
        by_cases heq : cv = cv'
        · subst heq
          rw [hqueue] at hmem
          rcases List.mem_cons.mp hmem with hhead | hrest
          · subst hhead
            exact .inr ⟨rest, k, hcode, hqueue⟩
          · exact .inl (by simpa [threadWakeupHead] using hrest)
        · exact .inl (by simpa [threadWakeupHead, heq] using hmem)
  | _ => exact .inl (by simpa using hmem)

end Others

end State

end OS161.Synch
