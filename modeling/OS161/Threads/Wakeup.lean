import OS161.Data.Loop
import OS161.Threads.Reserve

namespace OS161.Threads

open OS161.Data
open OS161.Kern
open OS161.Lib

namespace ThreadSystem

/-! The loop of `thread_wakeup`, turn by turn. -/

/-- The turn at index `i`: the thread it looks at and the index of the next turn, or `none`
where the test of the loop fails.  `addr` is `none` for `NULL`. -/
def wakeupTurn (mem : Bool) (addr : Option SleepAddr) (i : Nat) : Op (Option (Tid × Nat)) := do
  let num ← onSleepers KArray.arrayGetnum
  if i < num then
    let t ← onSleepers (KArray.arrayGetguy i)
    let s ← Prog.get
    if (s.thread t).tSleepaddr = addr then
      onSleepers (KArray.arrayRemove i)
      mustInsert .threadWakeupInsert (makeRunnable mem t)
      -- `i--` here and `i++` in the head of the loop
      pure (some (t, i))
    else
      pure (some (t, i + 1))
  else
    pure none

/-- The loop of `thread_wakeup(addr)`.  `mem` says for each turn whether `kmalloc` finds
memory in it. -/
abbrev WakeupLoop (mem : Nat → Bool) (addr : Option SleepAddr) :
    (turn i : Nat) → ThreadSystem → List Tid → Result Errno Fault ThreadSystem Unit → Prop :=
  Loop fun turn i => wakeupTurn (mem turn) addr i

/-- Whether the thread's `t_sleepaddr` is `addr`. -/
def sleepsAt (s : ThreadSystem) (addr : Option SleepAddr) (t : Tid) : Bool :=
  (s.thread t).tSleepaddr == addr

section Turns

variable {s : ThreadSystem} {ready kept rest asleep : List Tid}

/-- `make_runnable` fails only where a full run queue gets no memory to grow. -/
theorem makeRunnable_wp (hready : s.runqueue.Rep ready) (mem : Bool) (t : Tid) :
    (makeRunnable mem t).wp
      (fun _ next => next.runqueue.Rep (ready ++ [t]) ∧ s.runqueue.size ≤ next.runqueue.size ∧
        next = { s with runqueue := next.runqueue })
      (fun _ _ => mem = false ∧ ready.length + 1 = s.runqueue.size) (fun _ => False) s := by
  have hsize := Queue.le_size_qAddtail mem t s.runqueue
  simp only [makeRunnable, onRunqueue, ↓Prog.wp_zoom]
  cases mem with
  | true =>
      have hadd : (Queue.qAddtail true t).Returns (fun _ next => next.Rep (ready ++ [t]))
          s.runqueue := hready.qAddtail t
      refine Prog.wp_mono (Prog.wp_and hadd hsize) ?_ (fun _ _ h => h.1.elim) (fun _ h => h.1)
      intro _ q hq
      exact ⟨hq.1, hq.2, trivial⟩
  | false =>
      have hadd : (Queue.qAddtail false t).wp (fun _ next => next.Rep (ready ++ [t]) ∧
          next.size = s.runqueue.size ∧ ready.length + 1 < s.runqueue.size)
          (fun _ _ => ready.length + 1 = s.runqueue.size) (fun _ => False) s.runqueue :=
        hready.qAddtail_starved t
      refine Prog.wp_mono (Prog.wp_and hadd hsize) ?_ ?_ (fun _ h => h.1)
      · intro _ q hq
        exact ⟨hq.1.1, hq.2, trivial⟩
      · intro _ _ hfull
        exact ⟨rfl, hfull.1⟩

theorem wakeupTurn_ends (hsleepers : s.sleepers.Rep asleep) (mem : Bool)
    (addr : Option SleepAddr) : wakeupTurn mem addr asleep.length s = .ok none s := by
  have hend : (wakeupTurn mem addr asleep.length).Returns
      (fun turn next => turn = none ∧ next = s) s := by
    simp only [wakeupTurn, onSleepers, KArray.arrayGetnum, Prog.Returns, ↓Prog.wp_bind,
      ↓Prog.wp_zoom, ↓Prog.wp_read, ↓Prog.wp_ite, hsleepers.num_eq]
    rw [if_neg (Nat.lt_irrefl _)]
    exact ⟨rfl, rfl⟩
  obtain ⟨_, _, hrun, rfl, rfl⟩ := hend.exists_ok
  exact hrun

/-- A turn that looks at a thread. -/
theorem wakeupTurn_looks {post : Option (Tid × Nat) → ThreadSystem → Prop}
    {bad : Fault → Prop} (hsleepers : s.sleepers.Rep (kept ++ t :: rest)) (mem : Bool)
    (hkeeps : sleepsAt s addr t = false → post (some (t, kept.length + 1)) s)
    (hwakes : sleepsAt s addr t = true → ∀ sleepers : KArray Tid, sleepers.Rep (kept ++ rest) →
      (mustInsert .threadWakeupInsert (makeRunnable mem t)).wp
        (fun _ next => post (some (t, kept.length)) next) (fun _ _ => False) bad
        { s with sleepers := sleepers }) :
    (wakeupTurn mem addr kept.length).wp post (fun _ _ => False) bad s := by
  have hlt : kept.length < (kept ++ t :: rest).length := by simp
  have hget : (kept ++ t :: rest)[kept.length] = t := by simp
  simp only [wakeupTurn, onSleepers, KArray.arrayGetnum, ↓Prog.wp_bind, ↓Prog.wp_zoom,
    ↓Prog.wp_read, ↓Prog.wp_get, ↓Prog.wp_ite, hsleepers.num_eq, if_pos hlt]
  refine Prog.wp_mono (hsleepers.arrayGetguy hlt) ?_ (fun _ _ h => h) (fun _ h => h)
  rintro guy a ⟨rfl, rfl⟩
  simp only [hget]
  split
  case isTrue haddr =>
    refine Prog.wp_mono (hsleepers.arrayRemove hlt) ?_ (fun _ _ h => h) (fun _ h => h)
    intro _ sleepers hremoved
    rw [List.eraseIdx_append_of_length_le (Nat.le_refl _), Nat.sub_self,
      List.eraseIdx_cons_zero] at hremoved
    exact hwakes (by simp [sleepsAt, haddr]) sleepers hremoved
  case isFalse haddr => exact hkeeps (by simp [sleepsAt, haddr])

theorem wakeupTurn_passes (hsleepers : s.sleepers.Rep (kept ++ t :: rest))
    (hother : sleepsAt s addr t = false) (mem : Bool) :
    wakeupTurn mem addr kept.length s = .ok (some (t, kept.length + 1)) s := by
  have hturn : (wakeupTurn mem addr kept.length).Returns
      (fun turn next => turn = some (t, kept.length + 1) ∧ next = s) s := by
    refine wakeupTurn_looks hsleepers mem (fun _ => ⟨rfl, rfl⟩) ?_
    intro hsleeps
    rw [hother] at hsleeps
    cases hsleeps
  obtain ⟨_, _, hrun, rfl, rfl⟩ := hturn.exists_ok
  exact hrun

/-- A turn that wakes a thread leaves the index where it is, and `make_runnable` may fail. -/
theorem wakeupTurn_wakes (hsleepers : s.sleepers.Rep (kept ++ t :: rest))
    (hready : s.runqueue.Rep ready) (hsleeps : sleepsAt s addr t = true) (mem : Bool) :
    (∃ next, wakeupTurn mem addr kept.length s = .ok (some (t, kept.length)) next ∧
      next.sleepers.Rep (kept ++ rest) ∧ next.runqueue.Rep (ready ++ [t]) ∧
      s.runqueue.size ≤ next.runqueue.size ∧
      next = { s with sleepers := next.sleepers, runqueue := next.runqueue }) ∨
    (wakeupTurn mem addr kept.length s = .panic .threadWakeupInsert ∧ mem = false ∧
      ready.length + 1 = s.runqueue.size) := by
  have hturn : (wakeupTurn mem addr kept.length).wp
      (fun turn next => turn = some (t, kept.length) ∧
        next.sleepers.Rep (kept ++ rest) ∧ next.runqueue.Rep (ready ++ [t]) ∧
        s.runqueue.size ≤ next.runqueue.size ∧
        next = { s with sleepers := next.sleepers, runqueue := next.runqueue })
      (fun _ _ => False)
      (fun reason => reason = .threadWakeupInsert ∧ mem = false ∧
        ready.length + 1 = s.runqueue.size) s := by
    refine wakeupTurn_looks hsleepers mem ?_ ?_
    · intro hother
      rw [hsleeps] at hother
      cases hother
    · intro _ sleepers hremoved
      have hinsert := makeRunnable_wp (s := { s with sleepers := sleepers }) hready mem t
      simp only [mustInsert, ↓Prog.wp_bind, ↓Prog.wp_attempt]
      refine Prog.wp_mono hinsert ?_ ?_ (fun _ h => h.elim)
      · rintro _ next ⟨hadded, hsize, heq⟩
        refine ⟨trivial, ?_, hadded, hsize, ?_⟩
        · rw [heq]
          exact hremoved
        · rw [heq]
      · intro _ _ hfull
        exact ⟨rfl, hfull⟩
  cases hrun : wakeupTurn mem addr kept.length s with
  | ok turn next =>
      obtain ⟨rfl, hnext⟩ := hturn.post_of_ok hrun
      exact .inl ⟨next, rfl, hnext⟩
  | error code next => exact (hturn.fails_of_error hrun).elim
  | panic reason =>
      rw [Prog.wp, hrun] at hturn
      obtain ⟨rfl, hfull⟩ := hturn
      exact .inr ⟨rfl, hfull⟩

end Turns

/-! Whole runs of the loop. -/

/-- The sleepers on `addr` have gone to the end of the run queue in their order, the others
are left in theirs. -/
structure Woken (addr : Option SleepAddr) (ready asleep : List Tid) (s next : ThreadSystem) :
    Prop where
  sleepers : next.sleepers.Rep (asleep.filter fun t => !sleepsAt s addr t)
  runqueue : next.runqueue.Rep (ready ++ asleep.filter (sleepsAt s addr))
  others : next = { s with sleepers := next.sleepers, runqueue := next.runqueue }

/-- After the threads `seen` comes one that sleeps on `addr`, the run queue is full of the
threads woken before it, and there is no memory to grow it. -/
structure NoCell (mem : Nat → Bool) (addr : Option SleepAddr) (ready asleep : List Tid)
    (s : ThreadSystem) (seen : List Tid) : Prop where
  next : ∃ t later, asleep = seen ++ t :: later ∧ sleepsAt s addr t = true
  starved : mem seen.length = false
  full : s.runqueue.size ≤ ready.length + (seen.filter (sleepsAt s addr)).length + 1

section Runs

variable {s : ThreadSystem} {ready kept rest asleep : List Tid} {mem : Nat → Bool}

theorem sleepsAt_congr {s next : ThreadSystem} (hsame : next.thread = s.thread)
    (addr : Option SleepAddr) : sleepsAt next addr = sleepsAt s addr := by
  funext t
  rw [sleepsAt, sleepsAt, hsame]

/-- The loop has passed `kept`, none of which it wakes, and looks at `rest`. -/
theorem wakeupLoop_scans (hsleepers : s.sleepers.Rep (kept ++ rest))
    (hready : s.runqueue.Rep ready) (mem : Nat → Bool) (addr : Option SleepAddr) (turn : Nat) :
    (∃ next, WakeupLoop mem addr turn kept.length s rest (.ok () next) ∧
      next.sleepers.Rep (kept ++ rest.filter fun t => !sleepsAt s addr t) ∧
      next.runqueue.Rep (ready ++ rest.filter (sleepsAt s addr)) ∧
      next = { s with sleepers := next.sleepers, runqueue := next.runqueue }) ∨
    ∃ seen, WakeupLoop mem addr turn kept.length s seen (.panic .threadWakeupInsert) ∧
      NoCell (fun k => mem (turn + k)) addr ready rest s seen := by
  induction rest generalizing s ready kept turn with
  | nil =>
      rw [List.append_nil] at hsleepers
      refine .inl ⟨s, .ends ?_, by simpa using hsleepers, by simpa using hready, rfl⟩
      simp only [wakeupTurn_ends hsleepers, Result.last]
  | cons t rest ih =>
      cases hsleeps : sleepsAt s addr t with
      | false =>
          have hturn := wakeupTurn_passes hsleepers hsleeps (mem turn)
          have hpassed : s.sleepers.Rep ((kept ++ [t]) ++ rest) := by simpa using hsleepers
          have hscan := ih hpassed hready (turn + 1)
          rw [List.length_append, List.length_singleton] at hscan
          rcases hscan with ⟨next, hloop, hkept, hwoken, heq⟩ | ⟨seen, hloop, hnocell⟩
          · exact .inl ⟨next, .again hturn hloop, by simpa [hsleeps] using hkept,
              by simpa [hsleeps] using hwoken, heq⟩
          · obtain ⟨u, later, hrest, hu⟩ := hnocell.next
            refine .inr ⟨t :: seen, .again hturn hloop,
              ⟨u, later, by rw [hrest, List.cons_append], hu⟩, ?_, ?_⟩
            · have hstarved := hnocell.starved
              rw [List.length_cons, ← Nat.add_assoc, Nat.add_right_comm]
              exact hstarved
            · simpa [hsleeps] using hnocell.full
      | true =>
          rcases wakeupTurn_wakes hsleepers hready hsleeps (mem turn) with
            ⟨mid, hturn, hremoved, hadded, hsize, hmid⟩ | ⟨hturn, hstarved, hfull⟩
          · have hsame : sleepsAt mid addr = sleepsAt s addr :=
              sleepsAt_congr (by rw [hmid]) addr
            rcases ih hremoved hadded (turn + 1) with
              ⟨next, hloop, hkept, hwoken, heq⟩ | ⟨seen, hloop, hnocell⟩
            · rw [hsame] at hkept hwoken
              refine .inl ⟨next, .again hturn hloop, by simpa [hsleeps] using hkept,
                by simpa [hsleeps] using hwoken, ?_⟩
              rw [heq, hmid]
            · obtain ⟨u, later, hrest, hu⟩ := hnocell.next
              rw [hsame] at hu
              refine .inr ⟨t :: seen, .again hturn hloop,
                ⟨u, later, by rw [hrest, List.cons_append], hu⟩, ?_, ?_⟩
              · have hstarved := hnocell.starved
                rw [List.length_cons, ← Nat.add_assoc, Nat.add_right_comm]
                exact hstarved
              · have hfull := hnocell.full
                rw [hsame, List.length_append, List.length_singleton] at hfull
                rw [List.filter_cons_of_pos hsleeps, List.length_cons]
                omega
          · refine .inr ⟨[], .ends ?_, ⟨t, rest, rfl, hsleeps⟩, hstarved, ?_⟩
            · simp only [hturn, Result.last]
            · simp
              omega

/-- `thread_wakeup(addr)` comes to an end, in one way.  It has looked at every sleeper once, in
order, and has moved those on `addr` to the run queue; unless the run queue was full and could
not grow, which `assert(result==0)` stops. -/
theorem threadWakeup_exact (hsleepers : s.sleepers.Rep asleep) (hready : s.runqueue.Rep ready)
    (mem : Nat → Bool) (addr : Option SleepAddr) :
    ∃ seen out, (∀ seen' out', WakeupLoop mem addr 0 0 s seen' out' ↔ seen' = seen ∧ out' = out) ∧
      ((seen = asleep ∧ ∃ next, out = .ok () next ∧ Woken addr ready asleep s next) ∨
        (out = .panic .threadWakeupInsert ∧ NoCell mem addr ready asleep s seen)) := by
  have honly : ∀ {seen out}, WakeupLoop mem addr 0 0 s seen out →
      ∀ seen' out', WakeupLoop mem addr 0 0 s seen' out' ↔ seen' = seen ∧ out' = out := by
    intro seen out hloop seen' out'
    constructor
    · exact hloop.unique
    · rintro ⟨rfl, rfl⟩
      exact hloop
  have hstart : s.sleepers.Rep ([] ++ asleep) := hsleepers
  rcases wakeupLoop_scans hstart hready mem addr 0 with
    ⟨next, hloop, hkept, hwoken, heq⟩ | ⟨seen, hloop, hnocell⟩
  · exact ⟨asleep, .ok () next, honly hloop, .inl ⟨rfl, next, rfl, hkept, hwoken, heq⟩⟩
  · simp only [Nat.zero_add] at hnocell
    exact ⟨seen, _, honly hloop, .inr ⟨rfl, hnocell⟩⟩

end Runs

/-- Threads 1 and 3 sleep on one address, thread 2 between them on another. -/
def threeSleepers : ThreadSystem :=
  { threadBootstrap 0 with
    thread := fun t => {
      tPcb := .threadSleep
      tSleepaddr := some (if t = 2 then 5 else 8)
      tVmspace := none
      tCwd := none }
    sleepers := { num := 3, max := 6, v := some fun i => some (i + 1) } }

theorem threeSleepers_rep : threeSleepers.sleepers.Rep [1, 2, 3] where
  num_eq := rfl
  num_le_max := by decide
  cells _ := rfl
  guys_eq i hi := by
    match i, hi with
    | 0, _ => rfl
    | 1, _ => rfl
    | 2, _ => rfl

theorem threadWakeup_exact_three :
    ∃ next, WakeupLoop (fun _ => true) (some 8) 0 0 threeSleepers [1, 2, 3] (.ok () next) ∧
      next.sleepers.Rep [2] ∧ next.runqueue.Rep [1, 3] := by
  obtain ⟨seen, out, honly, hends⟩ := threadWakeup_exact threeSleepers_rep
    (Queue.qCreate_rep (by decide)) (fun _ => true) (some 8)
  rcases hends with ⟨rfl, next, rfl, hwoken⟩ | ⟨-, hnocell⟩
  · exact ⟨next, (honly _ _).mpr ⟨rfl, rfl⟩, hwoken.sleepers, hwoken.runqueue⟩
  · exact absurd hnocell.starved (by decide)

/-! The scan with a bound on its turns. -/

theorem wakeupScan_succ (mem : Bool) (addr : SleepAddr) (turns i : Nat) :
    wakeupScan mem addr (turns + 1) i =
      wakeupTurn mem (some addr) i >>= fun looked =>
        match looked with
        | none => pure ()
        | some (_, j) => wakeupScan mem addr turns j := by
  rw [wakeupScan, wakeupTurn, Prog.andThen_assoc]
  congr
  funext num
  split
  case isFalse => rfl
  case isTrue =>
    simp only [Prog.andThen_assoc]
    congr
    funext t
    congr
    funext s
    split
    case isFalse => rfl
    case isTrue =>
      simp only [Prog.andThen_assoc]
      rfl

/-- As long as a turn is left for every sleeper, the scan is the loop. -/
theorem WakeupLoop.scan {addr : SleepAddr} {kept rest : List Tid}
    (hloop : WakeupLoop (fun _ => mem) (some addr) turn kept.length s seen out)
    (hsleepers : s.sleepers.Rep (kept ++ rest)) (hready : s.runqueue.Rep ready) :
    wakeupScan mem addr rest.length kept.length s = out := by
  induction rest generalizing s ready kept turn seen with
  | nil =>
      rw [List.append_nil] at hsleepers
      have hend : WakeupLoop (fun _ => mem) (some addr) turn kept.length s [] (.ok () s) :=
        .ends (by simp only [wakeupTurn_ends hsleepers, Result.last])
      exact (hloop.unique hend).2
  | cons t rest ih =>
      rw [List.length_cons, wakeupScan_succ]
      simp only [bind, Prog.andThen]
      cases hsleeps : sleepsAt s (some addr) t with
      | false =>
          have hpassed : s.sleepers.Rep ((kept ++ [t]) ++ rest) := by simpa using hsleepers
          have hturn := wakeupTurn_passes hsleepers hsleeps mem
          cases hloop with
          | ends hlast =>
              rw [hturn] at hlast
              cases hlast
          | again hturn' hrest =>
              rw [hturn] at hturn' ⊢
              cases hturn'
              have hlength : kept.length + 1 = (kept ++ [t]).length := by simp
              rw [hlength] at hrest ⊢
              exact ih hrest hpassed hready
      | true =>
          rcases wakeupTurn_wakes hsleepers hready hsleeps mem with
            ⟨mid, hturn, hremoved, hadded, -⟩ | ⟨hturn, -⟩
          · cases hloop with
            | ends hlast =>
                rw [hturn] at hlast
                cases hlast
            | again hturn' hrest =>
                rw [hturn] at hturn' ⊢
                cases hturn'
                exact ih hrest hremoved hadded
          · cases hloop with
            | ends hlast =>
                rw [hturn] at hlast ⊢
                cases hlast
                rfl
            | again hturn' hrest =>
                rw [hturn] at hturn'
                cases hturn'

theorem WakeupLoop.threadWakeup {addr : SleepAddr} {asleep : List Tid}
    (hloop : WakeupLoop (fun _ => mem) (some addr) 0 0 s seen out)
    (hsleepers : s.sleepers.Rep asleep) (hready : s.runqueue.Rep ready) :
    ThreadSystem.threadWakeup mem addr s = out := by
  have hstart : s.sleepers.Rep ([] ++ asleep) := hsleepers
  have hfirst : WakeupLoop (fun _ => mem) (some addr) 0 ([] : List Tid).length s seen out := hloop
  have hscan := hfirst.scan hstart hready
  rw [← hsleepers.num_eq] at hscan
  exact hscan

end ThreadSystem

end OS161.Threads
