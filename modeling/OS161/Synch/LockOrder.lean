import Mathlib.Data.Set.Basic
import OS161.Synch.Routine

set_option linter.unusedSectionVars false

namespace OS161.Synch.State

/-! Threads that block on locks in a fixed order do not block each other in a
circle. -/

variable {Lock Cv Var Val P : Type} [DecidableEq Lock] [DecidableEq Cv] [DecidableEq Var]

/-- Every thread of the set, which is not empty, is blocked in `lock_acquire` on
a lock of the kind that another thread of the set holds. -/
structure CircularWait (kind : Lock → Prop) (s : State Lock Cv Var Val P)
    (threads : Set Tid) : Prop where
  nonempty : threads.Nonempty
  blocked : ∀ t ∈ threads, ∃ l, kind l ∧ s.sleep t = .onLock l ∧
    ∃ u ∈ threads, u ≠ t ∧ s.threadAddr l = some u

/-- A thread that is about to block on a lock of the kind holds only such locks
of that kind as come before it. -/
def BlocksInOrder (code : P → Instr Lock Cv Var Val P) (kind : Lock → Prop)
    (rank : Lock → Nat) (t : Tid) (s : State Lock Cv Var Val P) : Prop :=
  ∀ l k, code (s.point t) = .acquire l k → kind l →
    s.threadAddr l ≠ none → s.threadAddr l ≠ some t →
    ∀ held, kind held → s.threadAddr held = some t → rank held < rank l

/-- What a blocked thread holds comes before what it is blocked on. -/
def Ranked (kind : Lock → Prop) (rank : Lock → Nat) (s : State Lock Cv Var Val P) : Prop :=
  ∀ t l, kind l → s.sleep t = .onLock l →
    ∀ held, kind held → s.threadAddr held = some t → rank held < rank l

variable {code : P → Instr Lock Cv Var Val P} {kind : Lock → Prop} {rank : Lock → Nat}
variable {s next : State Lock Cv Var Val P}

theorem Ranked.run (hranked : Ranked kind rank s) (hmeets : BlocksInOrder code kind rank t s)
    (hstep : step code t s = some next) : Ranked kind rank next := by
  obtain ⟨hawake, hdoes⟩ := does_of_step hstep
  intro u l hkind hsleep held hheld hholds
  by_cases hu : u = t
  · subst hu
    obtain ⟨⟨k, hcode⟩, hbusy, hother, haddr⟩ := hdoes.onLock_self hawake hsleep
    rw [haddr] at hholds
    exact hmeets l k hcode hkind hbusy hother held hheld hholds
  · have hbefore : s.sleep u = .onLock l := by
      rcases hdoes.sleep_of_ne hu with hsame | hwoken
      · rw [← hsame]
        exact hsleep
      · rw [hsleep] at hwoken
        cases hwoken
    exact hranked u l hkind hbefore held hheld (hdoes.held_of_ne hu hholds)

theorem Ranked.step (hranked : Ranked kind rank s)
    (hstep : StepMeeting code (BlocksInOrder code kind rank) s next) :
    Ranked kind rank next := by
  cases hstep with
  | run t hmeets hstep => exact hranked.run hmeets hstep
  | spurious t hsleep =>
      intro u l hkind hblocked
      apply hranked u l hkind
      by_cases hu : u = t
      · subst hu
        simp [wakeSpuriously] at hblocked
      · simpa [wakeSpuriously, hu] using hblocked

theorem Ranked.steps (hranked : Ranked kind rank s)
    (hrun : Relation.ReflTransGen (StepMeeting code (BlocksInOrder code kind rank)) s next) :
    Ranked kind rank next := by
  induction hrun with
  | refl => exact hranked
  | tail _ hstep ih => exact ih.step hstep

/-- Along a circle the ranks would grow for ever. -/
theorem Ranked.climbs (hranked : Ranked kind rank s) {threads : Set Tid}
    (hcircular : CircularWait kind s threads) (n : Nat) :
    ∃ t ∈ threads, ∃ l, kind l ∧ s.sleep t = .onLock l ∧ n ≤ rank l := by
  induction n with
  | zero =>
      obtain ⟨t, ht⟩ := hcircular.nonempty
      obtain ⟨l, hkind, hsleep, -⟩ := hcircular.blocked t ht
      exact ⟨t, ht, l, hkind, hsleep, Nat.zero_le _⟩
  | succ n ih =>
      obtain ⟨t, ht, l, hkind, hsleep, hn⟩ := ih
      obtain ⟨l', hkind', hsleep', u, hu, -, hholds⟩ := hcircular.blocked t ht
      rw [hsleep] at hsleep'
      cases hsleep'
      obtain ⟨above, habove, hblocked, -⟩ := hcircular.blocked u hu
      have hless := hranked u above habove hblocked l hkind hholds
      exact ⟨u, hu, above, habove, hblocked, by omega⟩

theorem Ranked.not_circularWait (hranked : Ranked kind rank s) {bound : Nat}
    (hbound : ∀ l, kind l → rank l ≤ bound) (threads : Set Tid) :
    ¬ CircularWait kind s threads := by
  intro hcircular
  obtain ⟨t, -, l, hkind, -, hrank⟩ := hranked.climbs hcircular (bound + 1)
  have := hbound l hkind
  omega

end OS161.Synch.State
