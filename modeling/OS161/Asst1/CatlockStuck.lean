import OS161.Asst1.Catlock

namespace OS161.Asst1.Catlock

open OS161.Synch
open OS161.Synch.State

/-! Whether the animals can all end up asleep on `free_bowl`. -/

/-- Both bowls are free, nobody eats, and those who have not finished, of whom
there are some, are asleep on `free_bowl`. -/
structure Stuck (s : Kitchen) : Prop where
  free : ∀ b, s.mem b = .free
  nobody : ∀ t b, ¬ EatsAt s t b
  unfinished : ∃ t, (s.point t).label ≠ .done
  asleep : ∀ t, (s.point t).label ≠ .done → s.sleep t = .onCv .freeBowl

/-- An animal that is about to signal finds at the head of the queue somebody
who is asleep, or finds the queue empty while nobody is about to join it. -/
def SignalHeard (t : Tid) (s : Kitchen) : Prop :=
  ∀ b, (s.point t).label = .signal b →
    (∀ head rest, s.cvQueue .freeBowl = head :: rest → s.sleep head = .onCv .freeBowl) ∧
    (s.cvQueue .freeBowl = [] → ∀ u loop, (s.point u).label ≠ .wait loop)

/-- In `cv_wait`, before `thread_sleep`. -/
def Label.Waits : Label → Bool
  | .wait _ | .sleep _ => true
  | _ => false

/-- On the way to a bowl or to a signal. -/
def Label.Active : Label → Bool
  | .wait _ | .sleep _ | .drop _ | .done => false
  | _ => true

def Waiting (s : Kitchen) (t : Tid) : Prop :=
  s.sleep t = .onCv .freeBowl ∨ (s.point t).label.Waits

def Useful (s : Kitchen) (t : Tid) : Prop :=
  s.sleep t ≠ .onCv .freeBowl ∧ (s.point t).label.Active

structure Attended (s : Kitchen) : Prop where
  queued : ∀ t loop, (s.point t).label = .sleep loop → t ∈ s.cvQueue .freeBowl
  sleeper : ∀ t, s.sleep t = .onCv .freeBowl → t ∈ s.cvQueue .freeBowl
  rejoins : ∀ t, s.sleep t = .onCv .freeBowl → ∃ loop, (s.point t).label = .rejoin loop
  eater : ∀ b, s.mem b ≠ .free → ∃ t, EatsAt s t b
  counts : ∀ t, (s.point t).label ≠ .done → (s.point t).i < timesEating
  useful : ∀ t, Waiting s t → ∃ v, Useful s v

/-- What an animal is up to after a step of its own. -/
inductive Outcome (t : Tid) (s next : Kitchen) : Prop
  | useful (huseful : Useful next t)
  | gaveUp (b : Bowl) (htaken : s.mem b ≠ .free) (hnotEats : ∀ c, ¬ EatsAt s t c)
  | waiting (hwaiting : Waiting s t) (hinactive : (s.point t).label.Active = false)
  | signalled (b : Bowl) (hlabel : (s.point t).label = .signal b)
      (hleft : ¬ Waiting next t)
  | finished (b : Bowl) (hlabel : (s.point t).label = .drop b) (hleft : ¬ Waiting next t)

structure Proceeds (t : Tid) (s next : Kitchen) : Prop where
  marks : ∀ b, (s.point t).label = .mark b → (next.point t).label = .leave b
  queued : ∀ loop, (next.point t).label = .sleep loop → t ∈ next.cvQueue .freeBowl
  eats : ∀ b, EatsAt s t b → EatsAt next t b ∨ next.mem b = .free
  counts : (next.point t).label ≠ .done → (next.point t).i < timesEating

theorem counts_advance (p : Point) (i : Int) (hlabel : (p.advance i).label ≠ .done) :
    (p.advance i).i < timesEating := by
  simp only [Point.advance] at hlabel ⊢
  by_cases hless : i + 1 < timesEating
  · exact hless
  · simp [hless] at hlabel

@[simp] theorem advance_label_ne_sleep (p : Point) (i : Int) (loop : Loop) :
    (p.advance i).label ≠ .sleep loop := by
  rcases p.advance_label i with hlabel | hlabel <;> simp [hlabel]

theorem proceeds_of_step {s next : Kitchen} (hattended : Attended s)
    (hstep : step code t s = some next) : Proceeds t s next := by
  have hcounts := hattended.counts t
  have hqueued := hattended.queued t
  unfold step at hstep
  split at hstep
  case isFalse => cases hstep
  case isTrue hawake =>
    cases hlabel : (s.point t).label with
    | done =>
        simp only [code, hlabel, execute] at hstep
        cases hstep
    | enter =>
        simp only [code, hlabel, execute] at hstep
        split at hstep <;> cases hstep <;> constructor <;> simp_all [EatsAt, Label.EatsAt]
    | rejoin loop =>
        simp only [code, hlabel, execute] at hstep
        split at hstep <;> cases hstep <;> cases loop <;> constructor <;>
          simp_all [EatsAt, Label.EatsAt, Loop.start]
    | take b =>
        simp only [code, hlabel, execute] at hstep
        split at hstep <;> cases hstep <;> constructor <;> simp_all [EatsAt, Label.EatsAt]
    | busy b =>
        cases b <;> simp only [code, hlabel, execute] at hstep <;> cases hstep <;>
          constructor <;> split <;> simp_all [EatsAt, Label.EatsAt]
    | foe b =>
        cases b <;> simp only [code, hlabel, execute] at hstep <;> cases hstep <;>
          constructor <;> split <;> simp_all [EatsAt, Label.EatsAt]
    | pick b =>
        cases b <;> simp only [code, hlabel, execute] at hstep <;> cases hstep <;>
          constructor <;> split <;> simp_all [EatsAt, Label.EatsAt]
        -- `i--` and `i++` again.
        exact counts_advance _ _
    | wait loop =>
        simp only [code, hlabel, execute] at hstep
        cases hstep
        constructor <;> simp_all [EatsAt, Label.EatsAt, qAddtail]
    | drop b =>
        simp only [code, hlabel, execute] at hstep
        cases hstep
        constructor <;> simp_all [EatsAt, Label.EatsAt]
        exact counts_advance _ _
    | _ =>
        simp only [code, hlabel, execute] at hstep
        cases hstep
        constructor <;> simp_all [EatsAt, Label.EatsAt]

theorem foe_ne_free (species : Species) : species.foe ≠ .free := by
  cases species <;> decide

/-- An animal stops being useful only when somebody eats, when it waits
already, or when it has signalled. -/
theorem outcome_of_step {s next : Kitchen} (hattended : Attended s)
    (hstep : step code t s = some next) : Outcome t s next := by
  have hcounts := hattended.counts t
  unfold step at hstep
  split at hstep
  case isFalse => cases hstep
  case isTrue hawake =>
    cases hlabel : (s.point t).label with
    | done =>
        simp only [code, hlabel, execute] at hstep
        cases hstep
    | enter =>
        simp only [code, hlabel, execute] at hstep
        split at hstep <;> cases hstep <;> apply Outcome.useful <;>
          simp [Useful, hawake, hlabel, Label.Active]
    | rejoin loop =>
        simp only [code, hlabel, execute] at hstep
        split at hstep <;> cases hstep <;> cases loop <;> apply Outcome.useful <;>
          simp [Useful, hawake, hlabel, Label.Active, Loop.start]
    | take b =>
        simp only [code, hlabel, execute] at hstep
        split at hstep <;> cases hstep <;> apply Outcome.useful <;>
          simp [Useful, hawake, hlabel, Label.Active]
    | busy b =>
        by_cases hfree : s.mem b = .free
        · cases b <;> simp only [code, hlabel, execute] at hstep <;> cases hstep <;>
            apply Outcome.useful <;> simp [Useful, hawake, hfree, Label.Active]
        · exact .gaveUp b hfree (by simp [EatsAt, Label.EatsAt, hlabel])
    | foe b =>
        by_cases hfoe : s.mem b = (s.point t).species.foe
        · exact .gaveUp b (hfoe ▸ foe_ne_free _) (by simp [EatsAt, Label.EatsAt, hlabel])
        · cases b <;> simp only [code, hlabel, execute] at hstep <;> cases hstep <;>
            apply Outcome.useful <;> simp [Useful, hawake, hfoe, Label.Active]
    | pick b =>
        apply Outcome.useful
        cases b <;> simp only [code, hlabel, execute] at hstep <;> cases hstep <;>
          simp only [Useful, goOn_sleep, goOn_point, Function.update_self] <;> split <;>
          simp_all [Label.Active, Point.advance]
    | wait loop => exact .waiting (.inr (by simp [hlabel, Label.Waits])) (by simp [hlabel, Label.Active])
    | sleep loop => exact .waiting (.inr (by simp [hlabel, Label.Waits])) (by simp [hlabel, Label.Active])
    | signal b =>
        simp only [code, hlabel, execute] at hstep
        cases hstep
        exact .signalled b hlabel (by simp [Waiting, hawake, Label.Waits])
    | drop b =>
        simp only [code, hlabel, execute] at hstep
        cases hstep
        refine .finished b hlabel ?_
        rcases (s.point t).advance_label (s.point t).i with hnext | hnext <;>
          simp [Waiting, hawake, hnext, Label.Waits]
    | _ =>
        simp only [code, hlabel, execute] at hstep
        cases hstep
        apply Outcome.useful
        simp [Useful, hawake, Label.Active]

theorem label_of_signal {p : Point} (hcode : code p = .signal cv k) :
    ∃ b, p.label = .signal b := by
  cases hlabel : p.label with
  | signal b => exact ⟨b, rfl⟩
  | busy b => cases b <;> simp [code, hlabel] at hcode
  | foe b => cases b <;> simp [code, hlabel] at hcode
  | pick b => cases b <;> simp [code, hlabel] at hcode
  | _ => simp [code, hlabel] at hcode

theorem label_of_fallAsleep {p : Point} (hcode : code p = .fallAsleep cv l k) :
    ∃ loop, p.label = .sleep loop ∧ k.label = .rejoin loop := by
  cases hlabel : p.label with
  | sleep loop =>
      simp only [code, hlabel] at hcode
      cases hcode
      exact ⟨loop, rfl, rfl⟩
  | busy b => cases b <;> simp [code, hlabel] at hcode
  | foe b => cases b <;> simp [code, hlabel] at hcode
  | pick b => cases b <;> simp [code, hlabel] at hcode
  | _ => simp [code, hlabel] at hcode

section Steps

variable {s next : Kitchen}

theorem Attended.awake_of_sleep (hattended : Attended s)
    (hlabel : (s.point t).label = .sleep loop) : s.sleep t ≠ .onCv .freeBowl := by
  intro hsleep
  obtain ⟨other, hrejoin⟩ := hattended.rejoins t hsleep
  rw [hlabel] at hrejoin
  cases hrejoin

theorem Attended.useful_of_eatsAt (hattended : Attended s) (heats : EatsAt s t b) :
    Useful s t := by
  constructor
  · intro hsleep
    obtain ⟨loop, hrejoin⟩ := hattended.rejoins t hsleep
    simp [EatsAt, Label.EatsAt, hrejoin] at heats
  · rcases heats with hlabel | hlabel | hlabel <;> simp [hlabel, Label.Active]

theorem Useful.step_of_ne (huseful : Useful s v) (hdoes : Does code t s next) (hv : v ≠ t) :
    Useful next v := by
  rw [Useful, hdoes.point_of_ne hv]
  refine ⟨?_, huseful.2⟩
  rcases hdoes.sleep_of_ne hv with hsleep | hsleep
  · rw [hsleep]
    exact huseful.1
  · rw [hsleep]
    intro heq
    cases heq

theorem Waiting.of_step_of_ne (hwaiting : Waiting next w) (hdoes : Does code t s next)
    (hw : w ≠ t) : Waiting s w := by
  rw [Waiting, hdoes.point_of_ne hw] at hwaiting
  refine hwaiting.imp_left ?_
  intro hasleep
  rcases hdoes.sleep_of_ne hw with hsleep | hsleep
  · rw [← hsleep]
    exact hasleep
  · rw [hasleep] at hsleep
    cases hsleep

/-- A signal that is heard takes from the queue only whom it wakes. -/
theorem SignalHeard.stays_queued (hheard : SignalHeard t s) (hdoes : Does code t s next) (hmem : u ∈ s.cvQueue .freeBowl) :
    u ∈ next.cvQueue .freeBowl ∨
      (s.sleep u = .onCv .freeBowl ∧ next.sleep u = .awake) := by
  rcases hdoes.mem_cvQueue hmem with hstays | ⟨rest, k, hcode, hqueue⟩
  · exact .inl hstays
  · right
    obtain ⟨b, hlabel⟩ := label_of_signal hcode
    have hasleep := (hheard b hlabel).1 u rest hqueue
    exact ⟨hasleep, hdoes.signal_wakes hcode hqueue hasleep⟩

/-- An empty queue and nobody about to join it: nobody waits. -/
theorem Attended.nobody_waits (hattended : Attended s) (hempty : s.cvQueue .freeBowl = [])
    (hnone : ∀ u loop, (s.point u).label ≠ .wait loop) : ¬ Waiting s u := by
  have hnotQueued : ∀ t, t ∉ s.cvQueue .freeBowl := by simp [hempty]
  rintro (hsleep | hwaits)
  · exact hnotQueued u (hattended.sleeper u hsleep)
  · cases hlabel : (s.point u).label with
    | wait loop => exact hnone u loop hlabel
    | sleep loop => exact hnotQueued u (hattended.queued u loop hlabel)
    | _ => simp [hlabel, Label.Waits] at hwaits

theorem Attended.useful_step (hattended : Attended s) (hheard : SignalHeard t s)
    (hstep : step code t s = some next) (hwaiting : Waiting next w) :
    ∃ v, Useful next v := by
  obtain ⟨hawake, hdoes⟩ := does_of_step hstep
  cases outcome_of_step hattended hstep with
  | useful huseful => exact ⟨t, huseful⟩
  | gaveUp b htaken hnotEats =>
      obtain ⟨v, heats⟩ := hattended.eater b htaken
      have hv : v ≠ t := fun heq => hnotEats b (heq ▸ heats)
      exact ⟨v, (hattended.useful_of_eatsAt heats).step_of_ne hdoes hv⟩
  | waiting hbefore hinactive =>
      obtain ⟨v, huseful⟩ := hattended.useful t hbefore
      have hv : v ≠ t := by
        intro heq
        have hactive := huseful.2
        rw [heq, hinactive] at hactive
        cases hactive
      exact ⟨v, huseful.step_of_ne hdoes hv⟩
  | signalled b hlabel hleft =>
      have hw : w ≠ t := fun heq => hleft (heq ▸ hwaiting)
      have hbefore := hwaiting.of_step_of_ne hdoes hw
      obtain ⟨hhead, hnone⟩ := hheard b hlabel
      cases hqueue : s.cvQueue .freeBowl with
      | nil => exact absurd hbefore (hattended.nobody_waits hqueue (hnone hqueue))
      | cons head rest =>
          -- The head is woken and comes back from `cv_wait`.
          have hasleep := hhead head rest hqueue
          obtain ⟨loop, hrejoin⟩ := hattended.rejoins head hasleep
          have hne : head ≠ t := by
            intro heq
            rw [heq, hawake] at hasleep
            cases hasleep
          have hcode : code (s.point t) = .signal .freeBowl ((s.point t).goto (.drop b)) := by
            simp [code, hlabel]
          refine ⟨head, ?_, ?_⟩
          · rw [hdoes.signal_wakes hcode hqueue hasleep]
            intro heq
            cases heq
          · rw [hdoes.point_of_ne hne, hrejoin]
            rfl
  | finished b hlabel hleft =>
      have hw : w ≠ t := fun heq => hleft (heq ▸ hwaiting)
      obtain ⟨v, huseful⟩ := hattended.useful w (hwaiting.of_step_of_ne hdoes hw)
      have hv : v ≠ t := by
        intro heq
        have hactive := huseful.2
        rw [heq, hlabel] at hactive
        cases hactive
      exact ⟨v, huseful.step_of_ne hdoes hv⟩

theorem Attended.eater_step (hattended : Attended s) (hstep : step code t s = some next)
    (htaken : next.mem b ≠ .free) : ∃ u, EatsAt next u b := by
  obtain ⟨-, hdoes⟩ := does_of_step hstep
  have hproceeds := proceeds_of_step hattended hstep
  have hstays : s.mem b ≠ .free → ∃ u, EatsAt next u b := by
    intro hbefore
    obtain ⟨u, heats⟩ := hattended.eater b hbefore
    by_cases hu : u = t
    · subst hu
      exact ⟨u, (hproceeds.eats b heats).resolve_right htaken⟩
    · refine ⟨u, ?_⟩
      rw [EatsAt, hdoes.point_of_ne hu]
      exact heats
  rcases mem_of_step hstep with hmem | ⟨c, hlabel, hmem⟩ | ⟨c, hlabel, hmem⟩
  · exact hstays (hmem ▸ htaken)
  · by_cases heq : b = c
    · subst heq
      exact ⟨t, .inl (hproceeds.marks b hlabel)⟩
    · rw [hmem, Function.update_of_ne heq] at htaken
      exact hstays htaken
  · by_cases heq : b = c
    · subst heq
      simp [hmem] at htaken
    · rw [hmem, Function.update_of_ne heq] at htaken
      exact hstays htaken

theorem Attended.run (hattended : Attended s) (hheard : SignalHeard t s)
    (hstep : step code t s = some next) : Attended next := by
  obtain ⟨hawake, hdoes⟩ := does_of_step hstep
  have hproceeds := proceeds_of_step hattended hstep
  have hpoint : ∀ u, u ≠ t → next.point u = s.point u := fun u hu => hdoes.point_of_ne hu
  have hbefore : ∀ u, u ≠ t → next.sleep u = .onCv .freeBowl →
      s.sleep u = .onCv .freeBowl := by
    intro u hu hsleep
    rcases hdoes.sleep_of_ne hu with hsame | hwoken
    · rw [← hsame]
      exact hsleep
    · rw [hsleep] at hwoken
      cases hwoken
  constructor
  case queued =>
    intro u loop hlabel
    by_cases hu : u = t
    · subst hu
      exact hproceeds.queued loop hlabel
    · rw [hpoint u hu] at hlabel
      have hmem := hattended.queued u loop hlabel
      rcases hheard.stays_queued hdoes hmem with hstays | ⟨hasleep, -⟩
      · exact hstays
      · exact absurd hasleep (hattended.awake_of_sleep hlabel)
  case sleeper =>
    intro u hsleep
    by_cases hu : u = t
    · subst hu
      obtain ⟨l, hcode, hqueue⟩ := hdoes.onCv_self hawake hsleep
      obtain ⟨loop, hlabel, -⟩ := label_of_fallAsleep hcode
      rw [hqueue]
      exact hattended.queued u loop hlabel
    · have hmem := hattended.sleeper u (hbefore u hu hsleep)
      rcases hheard.stays_queued hdoes hmem with hstays | ⟨-, hwoken⟩
      · exact hstays
      · rw [hsleep] at hwoken
        cases hwoken
  case rejoins =>
    intro u hsleep
    by_cases hu : u = t
    · subst hu
      obtain ⟨l, hcode, -⟩ := hdoes.onCv_self hawake hsleep
      obtain ⟨loop, -, hrejoin⟩ := label_of_fallAsleep hcode
      exact ⟨loop, hrejoin⟩
    · rw [hpoint u hu]
      exact hattended.rejoins u (hbefore u hu hsleep)
  case eater => exact fun b htaken => hattended.eater_step hstep htaken
  case counts =>
    intro u hlabel
    by_cases hu : u = t
    · subst hu
      exact hproceeds.counts hlabel
    · rw [hpoint u hu] at hlabel ⊢
      exact hattended.counts u hlabel
  case useful => exact fun w hwaiting => hattended.useful_step hheard hstep hwaiting

theorem Attended.spurious (hattended : Attended s) (t : Tid) :
    Attended (wakeSpuriously t s) := by
  have hbefore : ∀ u, (wakeSpuriously t s).sleep u = .onCv .freeBowl →
      s.sleep u = .onCv .freeBowl := by
    intro u hsleep
    by_cases hu : u = t
    · subst hu
      simp [wakeSpuriously] at hsleep
    · simpa [wakeSpuriously, hu] using hsleep
  constructor
  case queued => exact hattended.queued
  case sleeper => exact fun u hsleep => hattended.sleeper u (hbefore u hsleep)
  case rejoins => exact fun u hsleep => hattended.rejoins u (hbefore u hsleep)
  case eater => exact hattended.eater
  case counts => exact hattended.counts
  case useful =>
    intro u hwaiting
    obtain ⟨v, hawake, hactive⟩ := hattended.useful u (hwaiting.imp_left (hbefore u))
    exact ⟨v, fun hsleep => hawake (hbefore v hsleep), hactive⟩

theorem Attended.step (hattended : Attended s)
    (hstep : StepMeeting code SignalHeard s next) : Attended next := by
  cases hstep with
  | run t hheard hstep => exact hattended.run hheard hstep
  | spurious t hsleep => exact hattended.spurious t

theorem Attended.not_stuck (hattended : Attended s) : ¬ Stuck s := by
  intro hstuck
  obtain ⟨t, hlabel⟩ := hstuck.unfinished
  obtain ⟨v, hawake, hactive⟩ := hattended.useful t (.inl (hstuck.asleep t hlabel))
  apply hawake
  apply hstuck.asleep v
  intro hdone
  simp [hdone, Label.Active] at hactive

end Steps

theorem attended_catmouselock (animals : Tid → Option Species) :
    Attended (catmouselock animals) := by
  have hpoint : ∀ t, (catmouselock animals).point t = ⟨.cat, .done, 0⟩ ∨
      (∃ species, (catmouselock animals).point t = ⟨species, .enter, 0⟩) := by
    intro t
    cases hanimal : animals t with
    | none => exact .inl (by simp [catmouselock, hanimal])
    | some species =>
        right
        refine ⟨species, ?_⟩
        cases species <;> simp [catmouselock, hanimal, Species.entry, catlock, mouselock]
  constructor
  case queued =>
    intro t loop hlabel
    rcases hpoint t with hpoint | ⟨species, hpoint⟩ <;> simp [hpoint] at hlabel
  case sleeper =>
    intro t hsleep
    cases hsleep
  case rejoins =>
    intro t hsleep
    cases hsleep
  case eater => exact fun b htaken => absurd rfl htaken
  case counts =>
    intro t hlabel
    rcases hpoint t with hpoint | ⟨species, hpoint⟩
    · simp [hpoint] at hlabel
    · simp [hpoint, timesEating]
  case useful =>
    rintro t (hsleep | hwaits)
    · cases hsleep
    · rcases hpoint t with hpoint | ⟨species, hpoint⟩ <;>
        simp [hpoint, Label.Waits] at hwaits

/-- Where every signal is heard, the animals are never stuck. -/
theorem never_stuck_of_heard {animals : Tid → Option Species} {s : Kitchen}
    (hrun : Relation.ReflTransGen (StepMeeting code SignalHeard) (catmouselock animals) s) :
    ¬ Stuck s := by
  have hattended : Attended s := by
    induction hrun with
    | refl => exact attended_catmouselock animals
    | tail _ hstep ih => exact ih.step hstep
  exact hattended.not_stuck

/-- No signal, or one that wakes the head of the queue. -/
def wakesHead (t : Tid) (s : Kitchen) : Bool :=
  match (s.point t).label, s.cvQueue .freeBowl with
  | .signal _, head :: _ => s.sleep head == .onCv .freeBowl
  | .signal _, [] => false
  | _, _ => true

theorem signalHeard_of_wakesHead {s : Kitchen} (hwakes : wakesHead t s) : SignalHeard t s := by
  intro b hlabel
  cases hqueue : s.cvQueue .freeBowl with
  | nil => simp [wakesHead, hlabel, hqueue] at hwakes
  | cons head rest =>
      simp only [wakesHead, hlabel, hqueue, beq_iff_eq] at hwakes
      constructor
      · intro other others heq
        cases heq
        exact hwakes
      · intro hempty
        cases hempty

/-- The mouse falls asleep while the cat eats, and the cat wakes it. -/
theorem never_stuck_of_heard_pair :
    ∃ s : Kitchen,
      Relation.ReflTransGen (StepMeeting code SignalHeard) (catmouselock pair) s ∧
      s.sleep 1 = .awake ∧ ¬ Stuck s := by
  have hfollow : followChecked code wakesHead
      [0, 0, 0, 0, 0, 0, 0, 0, 1, 1, 1, 1, 1, 1, 0, 0, 0] (catmouselock pair) =
      some ((followChecked code wakesHead
        [0, 0, 0, 0, 0, 0, 0, 0, 1, 1, 1, 1, 1, 1, 0, 0, 0] (catmouselock pair)).get rfl) :=
    rfl
  have hrun := steps_of_followChecked (fun _ _ => signalHeard_of_wakesHead) hfollow
  exact ⟨_, hrun, rfl, never_stuck_of_heard hrun⟩

/-- The cat eats from the first bowl while the mouse joins the queue; the cat
signals before the mouse is asleep, blocks on `openbowl_lock`, and when the
mouse has gone to sleep it eats three more times. -/
def lostSignal : List Tid :=
  [0, 0, 0, 0, 0, 0, 0, 0, 1, 1, 1, 1, 1, 0, 0, 0, 0, 0, 1] ++
    List.replicate 36 0

/-- The mouse is left asleep, with both bowls free and the cat gone. -/
theorem stuck_after_lost_signal :
    ∃ s : Kitchen, follow code lostSignal (catmouselock pair) = some s ∧
      Reachable pair s ∧ Stuck s := by
  have hfollow : follow code lostSignal (catmouselock pair) =
      some ((follow code lostSignal (catmouselock pair)).get rfl) :=
    rfl
  have hanimal : ∀ t, (((follow code lostSignal (catmouselock pair)).get rfl).point t).label =
        .done ∨
      (((follow code lostSignal (catmouselock pair)).get rfl).point t).label =
        .rejoin .foeEats ∧
      ((follow code lostSignal (catmouselock pair)).get rfl).sleep t = .onCv .freeBowl
    | 0 => .inl rfl
    | 1 => .inr ⟨rfl, rfl⟩
    | _ + 2 => .inl rfl
  refine ⟨_, hfollow, steps_of_follow hfollow, ?_⟩
  constructor
  case free =>
    intro b
    cases b <;> rfl
  case nobody =>
    intro t b
    rcases hanimal t with hlabel | ⟨hlabel, -⟩ <;> simp [EatsAt, Label.EatsAt, hlabel]
  case unfinished => exact ⟨1, by decide⟩
  case asleep =>
    intro t hlabel
    rcases hanimal t with hdone | ⟨-, hasleep⟩
    · exact absurd hdone hlabel
    · exact hasleep

end OS161.Asst1.Catlock
