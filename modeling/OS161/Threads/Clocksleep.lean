import Mathlib.Algebra.Order.Ring.Int
import Mathlib.Tactic.Ring
import OS161.Threads.Hardclock

namespace OS161.Threads

open OS161.Data

/-! How long `clocksleep` takes. -/

/-- A thread in `clocksleep`: asleep with this many seconds to go, or in the run queue with this
many threads before it; `counter` is the clock's. -/
inductive Nap where
  | asleep (secs counter : Int)
  | ready (secs counter : Int) (ahead : Nat)
  | done

namespace Nap

/-- Ticks, ticks that come while it is asleep, and threads that go before it. -/
structure Tally where
  ticks : Nat
  asleep : Nat
  passed : Nat

def Tally.add (a b : Tally) : Tally where
  ticks := a.ticks + b.ticks
  asleep := a.asleep + b.asleep
  passed := a.passed + b.passed

section

variable (second : Int) (threads : Nat)

/-- A second has `second` ticks, and there are at most this many threads. -/
inductive Step : Tally → Nap → Nap → Prop
  | idle (nap : Nap) : Step ⟨0, 0, 0⟩ nap nap
  | tick (hless : counter + 1 < second) :
      Step ⟨1, 1, 0⟩ (.asleep secs counter) (.asleep secs (counter + 1))
  | wake (hfull : second ≤ counter + 1) (hahead : ahead < threads) :
      Step ⟨1, 1, 0⟩ (.asleep secs counter) (.ready secs 0 ahead)
  | late (hless : counter + 1 < second) :
      Step ⟨1, 0, 0⟩ (.ready secs counter ahead) (.ready secs (counter + 1) ahead)
  | miss (hfull : second ≤ counter + 1) :
      Step ⟨1, 0, 0⟩ (.ready secs counter ahead) (.ready secs 0 ahead)
  | pass : Step ⟨0, 0, 1⟩ (.ready secs counter (ahead + 1)) (.ready secs counter ahead)
  | again (hmore : 0 < secs - 1) :
      Step ⟨0, 0, 0⟩ (.ready secs counter 0) (.asleep (secs - 1) counter)
  | leave (hlast : secs - 1 ≤ 0) : Step ⟨0, 0, 0⟩ (.ready secs counter 0) .done

/-- It is asleep for this many more ticks at most. -/
def most : Nap → Int
  | .asleep secs counter => secs * second - counter
  | .ready secs _ _ => (secs - 1) * second
  | .done => 0

/-- It has this many more ticks to wait at least. -/
def least : Nap → Int
  | .asleep secs counter => secs * second - counter
  | .ready secs counter _ => (secs - 1) * second - counter
  | .done => 0

/-- This many more threads go before it at most. -/
def crowd : Nap → Int
  | .asleep secs _ => secs * (threads - 1)
  | .ready secs _ ahead => (secs - 1) * (threads - 1) + ahead
  | .done => 0

/-- The clock's counter is in its range, and there is time to go. -/
def Ok : Nap → Prop
  | .asleep secs counter => 0 < secs ∧ 0 ≤ counter ∧ counter < second
  | .ready secs counter _ => 0 < secs ∧ 0 ≤ counter ∧ counter < second
  | .done => True

variable {second : Int} {threads : Nat}

theorem Step.ok (hstep : Step second threads tally nap next) (hok : nap.Ok second) :
    next.Ok second := by
  cases hstep with
  | idle => exact hok
  | tick hless => exact ⟨hok.1, by have := hok.2.1; omega, hless⟩
  | wake hfull hahead => exact ⟨hok.1, le_refl 0, by have := hok.2; omega⟩
  | late hless => exact ⟨hok.1, by have := hok.2.1; omega, hless⟩
  | miss hfull => exact ⟨hok.1, le_refl 0, by have := hok.2; omega⟩
  | pass => exact hok
  | again hmore => exact ⟨hmore, hok.2⟩
  | leave => trivial

theorem Step.most_le (hstep : Step second threads tally nap next) (hok : nap.Ok second) :
    tally.asleep + next.most second ≤ nap.most second := by
  cases hstep with
  | idle => simp
  | tick hless => simp only [most]; omega
  | @wake counter ahead secs hfull hahead =>
      have hone : (secs - 1) * second = secs * second - second := by ring
      have hcounter := hok.2.2
      simp only [most]
      omega
  | late => simp [most]
  | miss => simp [most]
  | pass => simp [most]
  | again =>
      have hcounter := hok.2.1
      simp only [most]
      omega
  | @leave secs counter hlast =>
      have hsecs : secs = 1 := by have := hok.1; omega
      simp [most, hsecs]

theorem Step.least_le (hstep : Step second threads tally nap next) (hok : nap.Ok second) :
    nap.least second ≤ tally.ticks + next.least second := by
  cases hstep with
  | idle => simp
  | tick hless => simp only [least]; omega
  | @wake counter ahead secs hfull hahead =>
      have hone : (secs - 1) * second = secs * second - second := by ring
      simp only [least]
      omega
  | late hless => simp only [least]; omega
  | miss hfull =>
      have hcounter := hok.2.1
      simp only [least]
      omega
  | pass => simp [least]
  | again => simp [least]
  | @leave secs counter hlast =>
      have hsecs : secs = 1 := by have := hok.1; omega
      have hcounter := hok.2.1
      simp only [least, hsecs]
      omega

theorem Step.crowd_le (hstep : Step second threads tally nap next) (hok : nap.Ok second) :
    tally.passed + next.crowd threads ≤ nap.crowd threads := by
  cases hstep with
  | idle => simp
  | tick => simp [crowd]
  | @wake counter ahead secs hfull hahead =>
      have hone : (secs - 1) * ((threads : Int) - 1) =
          secs * ((threads : Int) - 1) - ((threads : Int) - 1) := by ring
      simp only [crowd]
      omega
  | late => simp [crowd]
  | miss => simp [crowd]
  | pass =>
      simp only [crowd]
      omega
  | again => simp [crowd]
  | @leave secs counter hlast =>
      have hsecs : secs = 1 := by have := hok.1; omega
      simp [crowd, hsecs]

/-- One step after the other, with what they tally. -/
inductive Steps (second : Int) (threads : Nat) : Tally → Nap → Nap → Prop
  | refl (nap : Nap) : Steps second threads ⟨0, 0, 0⟩ nap nap
  | step (hsteps : Steps second threads tally nap mid)
      (hstep : Step second threads more mid next) :
      Steps second threads (tally.add more) nap next

theorem Steps.ok (hsteps : Steps second threads tally nap next) (hok : nap.Ok second) :
    next.Ok second := by
  induction hsteps with
  | refl => exact hok
  | step _ hstep ih => exact hstep.ok (ih hok)

theorem Steps.bounds (hsteps : Steps second threads tally nap next) (hok : nap.Ok second) :
    tally.asleep + next.most second ≤ nap.most second ∧
      nap.least second ≤ tally.ticks + next.least second ∧
      tally.passed + next.crowd threads ≤ nap.crowd threads := by
  induction hsteps with
  | refl => simp
  | step hsteps hstep ih =>
      obtain ⟨hmost, hleast, hcrowd⟩ := ih hok
      have hmid := hsteps.ok hok
      have hmost' := hstep.most_le hmid
      have hleast' := hstep.least_le hmid
      have hcrowd' := hstep.crowd_le hmid
      simp only [Tally.add, Nat.cast_add]
      omega

theorem Ok.most_nonneg {nap : Nap} (hok : nap.Ok second) : 0 ≤ nap.most second := by
  cases nap with
  | asleep secs counter =>
      obtain ⟨hsecs, hzero, hless⟩ := hok
      have hsecond : second ≤ secs * second := le_mul_of_one_le_left (by omega) (by omega)
      simp only [most]
      omega
  | ready secs counter ahead =>
      obtain ⟨hsecs, hzero, hless⟩ := hok
      exact mul_nonneg (by omega) (by omega)
  | done => exact le_refl 0

theorem Ok.crowd_nonneg {nap : Nap} (hok : nap.Ok second) (hthreads : 0 < threads) :
    0 ≤ nap.crowd threads := by
  cases nap with
  | asleep secs counter => exact mul_nonneg (by have := hok.1; omega) (by omega)
  | ready secs counter ahead =>
      have hsecs : 0 ≤ (secs - 1) * ((threads : Int) - 1) :=
        mul_nonneg (by have := hok.1; omega) (by omega)
      simp only [crowd]
      omega
  | done => exact le_refl 0

end

end Nap

namespace Config

open ThreadSystem

theorem Inv.waiting_not_running (hinv : Inv c) (hmem : t ∈ c.waiting) :
    c.sys.curthread ≠ some t := by
  obtain ⟨ready, asleep, dead, h⟩ := hinv
  rw [h.waiting_eq] at hmem
  intro hcur
  have hnodup := h.nodup
  rw [hcur] at hnodup
  exact (List.nodup_cons.mp hnodup).1 hmem

theorem Inv.asleep_not_running (hinv : Inv c) (hmem : t ∈ c.sys.sleepersOn addr) :
    c.sys.curthread ≠ some t := by
  obtain ⟨ready, asleep, dead, h⟩ := hinv
  rw [h.lists.sleepersOn_eq] at hmem
  intro hcur
  exact h.curthread_not_asleep hcur (List.mem_filter.mp hmem).1

theorem Inv.asleep_not_waiting (hinv : Inv c) (hasleep : t ∈ c.sys.sleepersOn addr) :
    t ∉ c.waiting := by
  obtain ⟨ready, asleep, dead, h⟩ := hinv
  rw [h.waiting_eq]
  rw [h.lists.sleepersOn_eq] at hasleep
  intro hready
  have hplaced := h.placed t
  have hone := List.count_pos_iff.mpr hready
  have htwo := List.count_pos_iff.mpr (List.mem_filter.mp hasleep).1
  simp only [List.count_append] at hplaced
  split at hplaced <;> omega

theorem Inv.ahead_lt (hinv : Inv c) (hwaits : c.waiting = front ++ t :: back) :
    front.length < c.sys.numthreads := by
  obtain ⟨ready, asleep, dead, h⟩ := hinv
  have hlength := h.length_le
  rw [← h.waiting_eq, hwaits] at hlength
  rw [h.counted]
  simp only [List.length_append, List.length_cons] at hlength
  omega

theorem Inv.numthreads_pos (hinv : Inv c) (hasleep : t ∈ c.sys.sleepersOn addr) :
    0 < c.sys.numthreads := by
  obtain ⟨ready, asleep, dead, h⟩ := hinv
  rw [h.lists.sleepersOn_eq] at hasleep
  rw [h.counted]
  exact Finset.card_pos.mpr ⟨t, h.asleep_live (List.mem_filter.mp hasleep).1⟩

/-- The thread at the head of the run queue gets the processor. -/
theorem Inv.dispatched {c d : Config} (hinv : Inv c) (htakes : Act.dispatch.Takes c d)
    (hcur : d.sys.curthread = some head) :
    c.waiting = head :: d.waiting ∧ ∀ addr, d.sys.sleepersOn addr = c.sys.sleepersOn addr := by
  have hserves := htakes.serves hinv
  simp only [Serves, Act.added, Act.picked, hcur, List.append_nil, Option.toList_some,
    List.singleton_append] at hserves
  exact ⟨hserves, htakes.sleepersOn hinv⟩

theorem Inv.yield (hinv : Inv c) : ∃ d, Act.yield.Takes c d := by
  obtain ⟨ready, asleep, dead, h⟩ := hinv
  cases hcur : c.sys.curthread with
  | none =>
      refine ⟨c, trivial, ⟨true, ?_⟩, rfl⟩
      simp only [Act.run, threadYield, miSwitch, bind, Prog.andThen, Prog.read, hcur]
      rfl
  | some cur =>
      obtain ⟨_, next, hrun, -⟩ := (h.lists.miSwitch hcur .ready .threadYield).exists_ok
      exact ⟨⟨next, c.live⟩, trivial, ⟨true, hrun⟩, rfl⟩

theorem Inv.wakeup (hinv : Inv c) (addr : SleepAddr) : ∃ d, (Act.wakeup addr).Takes c d := by
  obtain ⟨ready, asleep, dead, h⟩ := hinv
  obtain ⟨_, next, hrun, -⟩ := (h.lists.threadWakeup addr).exists_ok
  exact ⟨⟨next, c.live⟩, trivial, ⟨true, hrun⟩, rfl⟩

theorem Inv.sleep (hinv : Inv c) (hcur : c.sys.curthread = some cur) (addr : SleepAddr) :
    ∃ d, (Act.sleep addr).Takes c d := by
  obtain ⟨ready, asleep, dead, h⟩ := hinv
  obtain ⟨_, next, hrun, -⟩ := (h.lists.threadSleep hcur addr).exists_ok
  exact ⟨⟨next, c.live⟩, Option.isSome_iff_exists.mpr ⟨cur, hcur⟩, ⟨true, hrun⟩, rfl⟩

/-- Who sleeps on `lbolt` stays asleep, and nobody overtakes who waits. -/
structure Stays (lbolt : SleepAddr) (c d : Config) : Prop where
  asleep : ∀ t ∈ c.sys.sleepersOn lbolt, t ∈ d.sys.sleepersOn lbolt
  waits : ∃ more, d.waiting = c.waiting ++ more

end Config

theorem Act.Takes.stays {act : Act} (htakes : act.Takes c d) (hinv : Config.Inv c)
    (hplain : Clock.Event.plain lbolt act ∨ act = .sleep lbolt) : Config.Stays lbolt c d := by
  have hserves := htakes.serves hinv
  have hsleepers := htakes.sleepersOn hinv lbolt
  refine ⟨?_, ?_⟩
  · intro t ht
    rw [hsleepers]
    rcases hplain with hplain | rfl
    · cases act with
      | sleep addr =>
          rw [Act.asleep, if_neg (Ne.symm hplain)]
          exact ht
      | wakeup addr =>
          rw [Act.asleep, if_neg (Ne.symm hplain)]
          exact ht
      | wakeupHead addr cvQueue =>
          simp only [Act.asleep, if_neg (Ne.symm hplain)]
          split <;> exact ht
      | dispatch => exact hplain.elim
      | _ => exact ht
    · rw [Act.asleep, if_pos rfl]
      exact List.mem_append_left _ ht
  · have hnobody : act.picked d.sys = [] := by
      rcases hplain with hplain | rfl
      · cases act with
        | dispatch => exact hplain.elim
        | _ => rfl
      · rfl
    rw [Serves, hnobody] at hserves
    exact ⟨_, hserves.symm⟩

namespace Clock

/-- The nap that a thread takes. -/
inductive View (lbolt : SleepAddr) (t : Tid) (k : Clock) : Nap → Prop
  | asleep (hin : k.numSecs t = some secs) (hasleep : t ∈ k.config.sys.sleepersOn lbolt) :
      View lbolt t k (.asleep secs k.lboltCounter)
  | ready (hin : k.numSecs t = some secs) (hwaits : k.config.waiting = front ++ t :: back) :
      View lbolt t k (.ready secs k.lboltCounter front.length)
  | done (hout : k.numSecs t = none) : View lbolt t k .done

namespace Event

def tally (lbolt : SleepAddr) (t : Tid) (k : Clock) : Event → Nap.Tally
  | .hardclock => ⟨1, if t ∈ k.config.sys.sleepersOn lbolt then 1 else 0, 0⟩
  | .dispatch =>
      ⟨0, 0, if t ∈ k.config.waiting ∧ k.config.waiting.head? ≠ some t then 1 else 0⟩
  | _ => ⟨0, 0, 0⟩

end Event

section

variable {k mid d : Clock} {t u : Tid} {nap : Nap} {optSynchprobs : Bool} {lbolt : SleepAddr}
  {threads : Nat}

theorem View.stays (hview : View lbolt t k nap) (hstays : Config.Stays lbolt k.config d.config)
    (hsecs : d.numSecs t = k.numSecs t) (hcounter : d.lboltCounter = k.lboltCounter) :
    View lbolt t d nap := by
  cases hview with
  | asleep hin hasleep =>
      rw [← hcounter]
      exact .asleep (hsecs.trans hin) (hstays.asleep t hasleep)
  | ready hin hwaits =>
      obtain ⟨more, hmore⟩ := hstays.waits
      rw [hwaits, List.append_assoc, List.cons_append] at hmore
      rw [← hcounter]
      exact .ready (hsecs.trans hin) hmore
  | done hout => exact .done (hsecs.trans hout)

theorem View.not_running (hview : View lbolt t k nap) (hin : (k.numSecs t).isSome = true)
    (hinv : k.config.Inv) : k.curthread ≠ some t := by
  cases hview with
  | asleep _ hasleep => exact hinv.asleep_not_running hasleep
  | ready _ hwaits =>
      refine hinv.waiting_not_running ?_
      rw [hwaits]
      simp
  | done hout =>
      rw [hout] at hin
      cases hin

/-- The loop of another thread. -/
theorem Loops.other (hloops : Loops lbolt u secs k d) (hne : t ≠ u) (hinv : k.config.Inv) :
    Config.Stays lbolt k.config d.config ∧ d.numSecs t = k.numSecs t ∧
      d.lboltCounter = k.lboltCounter := by
  cases hloops with
  | sleeps hpos htakes =>
      exact ⟨htakes.stays hinv (.inr rfl), Function.update_of_ne hne _ _, rfl⟩
  | ends hdone =>
      exact ⟨⟨fun _ ht => ht, [], (List.append_nil _).symm⟩, Function.update_of_ne hne _ _, rfl⟩

theorem Loops.inv (hloops : Loops lbolt u secs k d) (hinv : k.config.Inv) : d.config.Inv := by
  cases hloops with
  | sleeps hpos htakes => exact hinv.step htakes.step
  | ends hdone => exact hinv

theorem Effect.inv (heffect : Effect optSynchprobs lbolt event k d) (hinv : k.config.Inv) :
    d.config.Inv := by
  cases heffect with
  | system hplain htakes => exact hinv.step htakes.step
  | calls hcur hloops => exact hloops.inv hinv
  | ticks hless htakes => exact hinv.step htakes.step
  | wakes hfull hwakes htakes => exact (hinv.step hwakes.step).step htakes.step
  | dispatches htakes hcur hout => exact hinv.step htakes.step
  | goesOn htakes hcur hin hloops => exact hloops.inv (hinv.step htakes.step)

/-- `hardclock` keeps the counter below a second. -/
theorem Effect.counter (heffect : Effect optSynchprobs lbolt event k d)
    (hcounter : 0 ≤ k.lboltCounter ∧ k.lboltCounter < hz optSynchprobs) :
    0 ≤ d.lboltCounter ∧ d.lboltCounter < hz optSynchprobs := by
  cases heffect with
  | system => exact hcounter
  | calls hcur hloops => cases hloops <;> exact hcounter
  | ticks hless htakes => exact ⟨by have := hcounter.1; simp only; omega, hless⟩
  | wakes => exact ⟨le_refl 0, hz_pos optSynchprobs⟩
  | dispatches => exact hcounter
  | goesOn htakes hcur hin hloops => cases hloops <;> exact hcounter

/-- A dispatch that picks another thread. -/
theorem View.dispatched {next : Config} (hview : View lbolt t k nap) (hinv : k.config.Inv)
    (htakes : Act.dispatch.Takes k.config next) (hcur : next.sys.curthread = some u)
    (hin : (k.numSecs t).isSome = true) (hne : t ≠ u) (second : Int) (threads : Nat) :
    ∃ nap', Nap.Step second threads (Event.dispatch.tally lbolt t k) nap nap' ∧
      View lbolt t { k with config := next } nap' := by
  obtain ⟨hhead, hsleepers⟩ := hinv.dispatched htakes hcur
  cases hview with
  | asleep hsecs hasleep =>
      have hnot := hinv.asleep_not_waiting hasleep
      simp only [Event.tally, hnot, false_and, if_false]
      refine ⟨_, .idle _, .asleep hsecs ?_⟩
      rw [hsleepers]
      exact hasleep
  | @ready secs front back hsecs hwaits =>
      cases front with
      | nil =>
          rw [hhead, List.nil_append] at hwaits
          exact absurd (List.cons.inj hwaits).1.symm hne
      | cons v front =>
          have hmem : t ∈ k.config.waiting := by
            rw [hwaits]
            simp
          have hother : k.config.waiting.head? ≠ some t := by
            rw [hhead, List.head?_cons]
            exact fun heq => hne (Option.some.inj heq).symm
          simp only [Event.tally, hmem, hother, ne_eq, not_false_eq_true, and_self, if_true]
          rw [hhead, List.cons_append] at hwaits
          exact ⟨_, .pass, .ready hsecs (List.cons.inj hwaits).2⟩
  | done hout =>
      rw [hout] at hin
      cases hin

/-- Its own dispatch. -/
theorem View.goes_on {next : Config} (hview : View lbolt t k nap) (hinv : k.config.Inv)
    (htakes : Act.dispatch.Takes k.config next) (hcur : next.sys.curthread = some t)
    (hin : k.numSecs t = some secs)
    (hloops : Loops lbolt t (secs - 1) { k with config := next } d) (second : Int)
    (threads : Nat) :
    ∃ nap', Nap.Step second threads (Event.dispatch.tally lbolt t k) nap nap' ∧
      View lbolt t d nap' := by
  obtain ⟨hhead, hsleepers⟩ := hinv.dispatched htakes hcur
  have hmem : t ∈ k.config.waiting := by
    rw [hhead]
    simp
  have hself : k.config.waiting.head? = some t := by rw [hhead, List.head?_cons]
  simp only [Event.tally, hself, ne_eq, not_true_eq_false, and_false, if_false]
  cases hview with
  | asleep _ hasleep => exact absurd hmem (hinv.asleep_not_waiting hasleep)
  | @ready secs' front back hsecs hwaits =>
      obtain rfl : secs' = secs := Option.some.inj (hsecs.symm.trans hin)
      cases front with
      | cons v front =>
          -- the head of the run queue stands nowhere else in it
          rw [hhead, List.cons_append] at hwaits
          have hrest : t ∈ next.waiting := by
            rw [(List.cons.inj hwaits).2]
            simp
          exact absurd hcur ((hinv.step htakes.step).waiting_not_running hrest)
      | nil =>
          cases hloops with
          | @sleeps final hpos hsleep =>
              have hafter := hsleep.sleepersOn (hinv.step htakes.step) lbolt
              rw [Act.asleep, if_pos rfl] at hafter
              refine ⟨_, .again hpos, .asleep (Function.update_self _ _ _) ?_⟩
              rw [hafter]
              simp [hcur]
          | ends hdone => exact ⟨_, .leave hdone, .done (Function.update_self _ _ _)⟩
  | done hout =>
      rw [hout] at hin
      cases hin

/-- A tick that is not the last of its second. -/
theorem View.ticks {next : Config} (hview : View lbolt t k nap) (hinv : k.config.Inv)
    (hless : k.lboltCounter + 1 < second) (htakes : Act.yield.Takes k.config next)
    (hin : (k.numSecs t).isSome = true) (threads : Nat) :
    ∃ nap', Nap.Step second threads (Event.hardclock.tally lbolt t k) nap nap' ∧
      View lbolt t { k with config := next, lboltCounter := k.lboltCounter + 1 } nap' := by
  have hstays : Config.Stays lbolt k.config next := htakes.stays hinv (.inl trivial)
  cases hview with
  | asleep hsecs hasleep =>
      simp only [Event.tally, hasleep, if_true]
      exact ⟨_, .tick hless, .asleep (k := { k with config := next, lboltCounter := _ }) hsecs
        (hstays.asleep t hasleep)⟩
  | @ready secs front back hsecs hwaits =>
      have hnot : t ∉ k.config.sys.sleepersOn lbolt := by
        intro hasleep
        apply hinv.asleep_not_waiting hasleep
        rw [hwaits]
        simp
      obtain ⟨more, hmore⟩ := hstays.waits
      rw [hwaits, List.append_assoc, List.cons_append] at hmore
      simp only [Event.tally, hnot, if_false]
      exact ⟨_, .late hless, .ready (k := { k with config := next, lboltCounter := _ }) hsecs
        hmore⟩
  | done hout =>
      rw [hout] at hin
      cases hin

/-- The last tick of a second wakes everybody that sleeps on `lbolt`. -/
theorem View.wakes {next middle : Config} (hview : View lbolt t k nap) (hinv : k.config.Inv)
    (hfull : second ≤ k.lboltCounter + 1) (hwakes : (Act.wakeup lbolt).Takes k.config middle)
    (htakes : Act.yield.Takes middle next) (hin : (k.numSecs t).isSome = true)
    (hthreads : next.sys.numthreads ≤ threads) :
    ∃ nap', Nap.Step second threads (Event.hardclock.tally lbolt t k) nap nap' ∧
      View lbolt t { k with config := next, lboltCounter := 0 } nap' := by
  have hmiddle := hinv.step hwakes.step
  have hserves : middle.waiting = k.config.waiting ++ k.config.sys.sleepersOn lbolt :=
    (hwakes.serves hinv).symm
  have hstays : Config.Stays lbolt middle next := htakes.stays hmiddle (.inl trivial)
  obtain ⟨more, hmore⟩ := hstays.waits
  rw [hserves] at hmore
  cases hview with
  | asleep hsecs hasleep =>
      obtain ⟨front, back, hsplit⟩ := List.append_of_mem hasleep
      have hwaits : next.waiting =
          (k.config.waiting ++ front) ++ t :: (back ++ more) := by
        rw [hmore, hsplit]
        simp
      have hahead := (hmiddle.step htakes.step).ahead_lt hwaits
      simp only [Event.tally, hasleep, if_true]
      exact ⟨_, .wake hfull (by omega),
        .ready (k := { k with config := next, lboltCounter := 0 }) hsecs hwaits⟩
  | @ready secs front back hsecs hwaits =>
      have hnot : t ∉ k.config.sys.sleepersOn lbolt := by
        intro hasleep
        apply hinv.asleep_not_waiting hasleep
        rw [hwaits]
        simp
      rw [hwaits, List.append_assoc, List.append_assoc, List.cons_append] at hmore
      simp only [Event.tally, hnot, if_false]
      exact ⟨_, .miss hfull, .ready (k := { k with config := next, lboltCounter := 0 }) hsecs
        hmore⟩
  | done hout =>
      rw [hout] at hin
      cases hin

/-- What an event does with a thread in `clocksleep` is a step of its nap. -/
theorem Effect.naps (heffect : Effect optSynchprobs lbolt event k d)
    (hview : View lbolt t k nap) (hinv : k.config.Inv) (hin : (k.numSecs t).isSome = true)
    (hthreads : d.config.sys.numthreads ≤ threads) :
    ∃ nap', Nap.Step (hz optSynchprobs) threads (event.tally lbolt t k) nap nap' ∧
      View lbolt t d nap' := by
  have hnot := hview.not_running hin hinv
  cases heffect with
  | system hplain htakes =>
      exact ⟨nap, .idle nap, hview.stays (htakes.stays hinv (.inl hplain)) rfl rfl⟩
  | @calls u _ _ _ hcur hloops =>
      have hne : t ≠ u := by
        rintro rfl
        exact hnot hcur
      obtain ⟨hstays, hsecs, hcounter⟩ := hloops.other hne hinv
      exact ⟨nap, .idle nap, hview.stays hstays hsecs hcounter⟩
  | ticks hless htakes => exact hview.ticks hinv hless htakes hin threads
  | wakes hfull hwakes htakes => exact hview.wakes hinv hfull hwakes htakes hin hthreads
  | @dispatches next u _ htakes hcur hout =>
      have hne : t ≠ u := by
        rintro rfl
        rw [hout] at hin
        cases hin
      exact hview.dispatched hinv htakes hcur hin hne _ _
  | @goesOn middle u secs _ _ htakes hcur hsecs hloops =>
      by_cases hne : t = u
      · subst hne
        exact hview.goes_on hinv htakes hcur hsecs hloops _ _
      · obtain ⟨nap', hstep, hmid⟩ :=
          hview.dispatched hinv htakes hcur hin hne (hz optSynchprobs) threads
        obtain ⟨hstays, hsecs', hcounter⟩ := hloops.other hne (hinv.step htakes.step)
        exact ⟨nap', hstep, hmid.stays hstays hsecs' hcounter⟩

end

section

/-! While a thread is in `clocksleep` something can always happen. -/

variable {k : Clock} {t : Tid}

theorem system_run {k : Clock} {act : Act} {next : Config} (htakes : act.Takes k.config next) :
    system true act k = .ok () { k with config := next } := by
  have hlives := htakes.lives
  obtain ⟨sys, live⟩ := next
  simp only at hlives
  simp only [system, htakes.run_true, hlives]

theorem sleepLoop_run (secs : Int) (lbolt : SleepAddr) (hinv : k.config.Inv)
    (hcur : k.curthread = some t) : ∃ d, sleepLoop true lbolt secs k = .ok () d := by
  by_cases hpos : 0 < secs
  · obtain ⟨next, htakes⟩ := hinv.sleep hcur lbolt
    let mid : Clock := { k with numSecs := Function.update k.numSecs t (some secs) }
    refine ⟨{ mid with config := next }, ?_⟩
    simp only [sleepLoop, bind, Prog.andThen, Prog.read, hcur, if_pos hpos, Prog.modify]
    exact system_run (k := mid) htakes
  · refine ⟨{ k with numSecs := Function.update k.numSecs t none }, ?_⟩
    simp only [sleepLoop, bind, Prog.andThen, Prog.read, hcur, if_neg hpos, Prog.modify]

/-- No tick fails. -/
theorem hardclock_run (optSynchprobs : Bool) (lbolt : SleepAddr) (hinv : k.config.Inv) :
    ∃ d, Event.hardclock.Takes optSynchprobs lbolt k d := by
  by_cases hfull : hz optSynchprobs ≤ k.lboltCounter + 1
  · obtain ⟨middle, hwakes⟩ := hinv.wakeup lbolt
    obtain ⟨next, htakes⟩ := (hinv.step hwakes.step).yield
    let mid : Clock := { k with lboltCounter := 0 }
    refine ⟨{ mid with config := next }, trivial, true, ?_⟩
    simp only [Event.run, hardclock, bind, Prog.andThen, Prog.modify, Prog.get, if_pos hfull]
    rw [system_run (k := mid) hwakes]
    exact system_run (k := { mid with config := middle }) htakes
  · obtain ⟨next, htakes⟩ := hinv.yield
    let mid : Clock := { k with lboltCounter := k.lboltCounter + 1 }
    refine ⟨{ mid with config := next }, trivial, true, ?_⟩
    simp only [Event.run, hardclock, bind, Prog.andThen, Prog.modify, Prog.get, if_neg hfull]
    exact system_run (k := mid) htakes

theorem dispatch_run (optSynchprobs : Bool) (lbolt : SleepAddr) (hinv : k.config.Inv)
    (hidle : k.curthread = none) (hmem : t ∈ k.config.waiting) :
    ∃ d, Event.dispatch.Takes optSynchprobs lbolt k d := by
  obtain ⟨next, htakes⟩ := hinv.dispatch hidle hmem
  obtain ⟨u, hcur, -⟩ := htakes.curthread hinv
  have hmid := system_run htakes
  cases hin : k.numSecs u with
  | none =>
      refine ⟨{ k with config := next }, hidle, true, ?_⟩
      simp only [Event.run, resume, bind, Prog.andThen, hmid, Prog.get, curthread, hcur,
        Option.bind_some, hin]
      rfl
  | some secs =>
      obtain ⟨d, hd⟩ := sleepLoop_run (k := { k with config := next }) (t := u) (secs - 1) lbolt
        (hinv.step htakes.step) hcur
      refine ⟨d, hidle, true, ?_⟩
      simp only [Event.run, resume, bind, Prog.andThen, hmid, Prog.get, curthread, hcur,
        Option.bind_some, hin]
      exact hd

end

/-- Any events, in any order. -/
def Runs (optSynchprobs : Bool) (lbolt : SleepAddr) : Clock → Clock → Prop :=
  Relation.ReflTransGen fun k d => ∃ event : Event, event.Takes optSynchprobs lbolt k d

/-- A run in which the thread does not come back from `clocksleep` but in its last event, with
what happens to it; there are never more than this many threads. -/
inductive Naps (optSynchprobs : Bool) (lbolt : SleepAddr) (threads : Nat) (t : Tid) :
    Nap.Tally → Clock → Clock → Prop
  | refl (hthreads : k.config.sys.numthreads ≤ threads) :
      Naps optSynchprobs lbolt threads t ⟨0, 0, 0⟩ k k
  | event (hnaps : Naps optSynchprobs lbolt threads t tally k mid)
      (hin : (mid.numSecs t).isSome = true) (event : Event)
      (htakes : event.Takes optSynchprobs lbolt mid d)
      (hthreads : d.config.sys.numthreads ≤ threads) :
      Naps optSynchprobs lbolt threads t (tally.add (event.tally lbolt t mid)) k d

theorem Naps.steps (hnaps : Naps optSynchprobs lbolt threads t tally k d)
    (hview : View lbolt t k nap) (hinv : k.config.Inv) :
    d.config.Inv ∧ ∃ nap', Nap.Steps (hz optSynchprobs) threads tally nap nap' ∧
      View lbolt t d nap' := by
  induction hnaps with
  | refl => exact ⟨hinv, nap, .refl nap, hview⟩
  | event hnaps hin event htakes hthreads ih =>
      obtain ⟨hmid, nap', hsteps, hview'⟩ := ih hview hinv
      have heffect := htakes.effect hmid
      obtain ⟨nap'', hstep, hview''⟩ := heffect.naps hview' hmid hin hthreads
      exact ⟨heffect.inv hmid, nap'', .step hsteps hstep, hview''⟩

theorem Runs.sound (hrun : Runs optSynchprobs lbolt (boot me) k) :
    k.config.Inv ∧ 0 ≤ k.lboltCounter ∧ k.lboltCounter < hz optSynchprobs := by
  refine invariant_of_steps (fun k : Clock => k.config.Inv ∧ 0 ≤ k.lboltCounter ∧
    k.lboltCounter < hz optSynchprobs) hrun ?_ ?_
  · exact ⟨⟨_, _, _, Config.boot_conserved me⟩, le_refl 0, hz_pos optSynchprobs⟩
  · rintro before next ⟨hinv, hcounter⟩ ⟨event, htakes⟩
    have heffect := htakes.effect hinv
    exact ⟨heffect.inv hinv, heffect.counter hcounter⟩

theorem clocksleep_starts {k₀ k : Clock}
    (hcall : (Event.clocksleep secs).Takes optSynchprobs lbolt k₀ k) (hinv : k₀.config.Inv) (hcur : k₀.curthread = some t) (hpos : 0 < secs) :
    k.config.Inv ∧ k.lboltCounter = k₀.lboltCounter ∧ t ∈ k.config.sys.sleepersOn lbolt ∧
      View lbolt t k (.asleep secs k.lboltCounter) := by
  have heffect := hcall.effect hinv
  have hinv' := heffect.inv hinv
  cases heffect with
  | @calls u _ _ _ hcur' hloops =>
      obtain rfl : t = u := Option.some.inj (hcur.symm.trans hcur')
      cases hloops with
      | @sleeps next _ htakes =>
          have hafter := htakes.sleepersOn hinv lbolt
          rw [Act.asleep, if_pos rfl] at hafter
          have hasleep : t ∈ next.sys.sleepersOn lbolt := by
            simp only [curthread] at hcur
            rw [hafter, hcur]
            simp
          exact ⟨hinv', rfl, hasleep, .asleep (Function.update_self _ _ _) hasleep⟩
      | ends hdone => omega

theorem Naps.numthreads_le {k d : Clock} (hnaps : Naps optSynchprobs lbolt threads t tally k d) :
    k.config.sys.numthreads ≤ threads := by
  induction hnaps with
  | refl hthreads => exact hthreads
  | event _ _ _ _ _ ih => exact ih

/-- `clocksleep(secs)` does not come back before more than `secs - 1` seconds of ticks; it is
asleep for `secs` seconds of ticks at most, and in the run queue no other thread goes before it
more than once for each second; and neither the clock nor the scheduler gets stuck meanwhile. -/
theorem clocksleep_time {me t : Tid} {k₀ k d : Clock}
    (hstart : Runs optSynchprobs lbolt (boot me) k₀) (hcur : k₀.curthread = some t)
    (hcall : (Event.clocksleep secs).Takes optSynchprobs lbolt k₀ k) (hpos : 0 < secs)
    (hnaps : Naps optSynchprobs lbolt threads t tally k d) :
    tally.asleep ≤ secs * hz optSynchprobs ∧ tally.passed ≤ secs * (threads - 1) ∧
      (d.numSecs t = none → (secs - 1) * hz optSynchprobs < tally.ticks) ∧
      ((∃ next, Event.hardclock.Takes optSynchprobs lbolt d next) ∧
        (d.curthread = none → t ∈ d.config.waiting →
          ∃ next, Event.dispatch.Takes optSynchprobs lbolt d next)) := by
  obtain ⟨hinv₀, hzero, hless⟩ := hstart.sound
  obtain ⟨hinv, hcounter, hasleep, hview⟩ := clocksleep_starts hcall hinv₀ hcur hpos
  have hok : (Nap.asleep secs k.lboltCounter).Ok (hz optSynchprobs) := by
    rw [hcounter]
    exact ⟨hpos, hzero, hless⟩
  obtain ⟨hinv', nap, hsteps, hview'⟩ := hnaps.steps hview hinv
  obtain ⟨hmost, hleast, hcrowd⟩ := hsteps.bounds hok
  have hok' := hsteps.ok hok
  have hthreads : 0 < threads := (hinv.numthreads_pos hasleep).trans_le hnaps.numthreads_le
  have hnonneg := hok'.most_nonneg
  have hnonneg' := hok'.crowd_nonneg hthreads
  rw [Nap.most] at hmost
  rw [Nap.least] at hleast
  rw [Nap.crowd] at hcrowd
  refine ⟨by omega, by omega, ?_, hardclock_run optSynchprobs lbolt hinv', ?_⟩
  · intro hout
    have hone : (secs - 1) * hz optSynchprobs = secs * hz optSynchprobs - hz optSynchprobs := by
      ring
    cases hview' with
    | asleep hin => simp [hout] at hin
    | ready hin => simp [hout] at hin
    | done =>
        rw [Nap.least] at hleast
        omega
  · exact dispatch_run optSynchprobs lbolt hinv'

/-- Ticks of an idle processor before the second is over. -/
theorem idle_ticks {k : Clock} (lbolt : SleepAddr) (hidle : k.curthread = none) (hin : (k.numSecs t).isSome = true)
    (hasleep : t ∈ k.config.sys.sleepersOn lbolt)
    (hthreads : k.config.sys.numthreads ≤ threads) (n : Nat)
    (hless : k.lboltCounter + n < hz optSynchprobs) :
    Naps optSynchprobs lbolt threads t ⟨n, n, 0⟩ k
      { k with lboltCounter := k.lboltCounter + n } := by
  induction n with
  | zero => simpa using Naps.refl hthreads
  | succ n ih =>
      have hrun := ih (by omega)
      have htick : Event.hardclock.Takes optSynchprobs lbolt
          { k with lboltCounter := k.lboltCounter + n }
          { k with lboltCounter := k.lboltCounter + (n + 1 : Nat) } := by
        refine ⟨trivial, true, ?_⟩
        have hnot : ¬ hz optSynchprobs ≤ k.lboltCounter + n + 1 := by omega
        have hyield : Act.yield.Takes k.config k.config := by
          refine ⟨trivial, ⟨true, ?_⟩, rfl⟩
          simp only [curthread] at hidle
          simp only [Act.run, ThreadSystem.threadYield, ThreadSystem.miSwitch, bind, Prog.andThen,
            Prog.read, hidle]
          rfl
        simp only [Event.run, hardclock, bind, Prog.andThen, Prog.modify, Prog.get, if_neg hnot]
        let next : Clock := { k with lboltCounter := k.lboltCounter + n + 1 }
        rw [Nat.cast_succ, ← add_assoc]
        exact system_run (k := next) hyield
      have hnext := hrun.event hin .hardclock htick hthreads
      simpa [Nap.Tally.add, Event.tally, hasleep] using hnext

/-- The event as it comes back, and the state as it was where it does not. -/
def after (k : Clock) (optSynchprobs : Bool) (lbolt : SleepAddr) (event : Event) : Clock :=
  (event.run optSynchprobs true lbolt k).stateD k

theorem takes_after {k : Clock} {event : Event} (hallowed : event.Allowed lbolt k)
    (hreturned : (event.run optSynchprobs true lbolt k).returned = some ()) :
    event.Takes optSynchprobs lbolt k (k.after optSynchprobs lbolt event) where
  allowed := hallowed
  runs := ⟨true, Result.eq_ok_of_returned k hreturned⟩

/-- The first thread sleeps a second, alone. -/
theorem clocksleep_time_alone : ∃ k d tally,
    (Event.clocksleep 1).Takes false 8 (boot 0) k ∧ Naps false 8 1 0 tally k d ∧
      d.numSecs 0 = none ∧ (1 - 1) * hz false < tally.ticks ∧ tally.asleep ≤ 1 * hz false := by
  let k := (boot 0).after false 8 (.clocksleep 1)
  have hcall : (Event.clocksleep 1).Takes false 8 (boot 0) k := takes_after rfl rfl
  let full : Clock := { k with lboltCounter := k.lboltCounter + (99 : Nat) }
  have hticks : Naps false 8 1 0 ⟨99, 99, 0⟩ k full :=
    idle_ticks 8 rfl rfl (by decide) (by decide) 99 (by decide)
  let awake := full.after false 8 .hardclock
  have hwake : Naps false 8 1 0 _ k awake :=
    hticks.event rfl .hardclock (takes_after trivial rfl) (by decide)
  let d := awake.after false 8 .dispatch
  have hback : Naps false 8 1 0 _ k d := hwake.event rfl .dispatch (takes_after rfl rfl) (by decide)
  obtain ⟨hmost, -, hleast, -⟩ := clocksleep_time .refl rfl hcall (by decide) hback
  exact ⟨k, d, _, hcall, hback, rfl, hleast rfl, hmost⟩

end Clock

end OS161.Threads
