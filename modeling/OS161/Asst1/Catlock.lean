import OS161.Synch.Routine

namespace OS161.Asst1.Catlock

open OS161.Synch
open OS161.Synch.State

/-! The cats and the mice of `kern/asst1/catlock.c`. -/

/-- `TIMES_EATING`. -/
def timesEating : Int := 4

/-- The `who` of a bowl. -/
inductive Who where
  | free
  | cat
  | mouse
  deriving DecidableEq, Repr

inductive Species where
  | cat
  | mouse
  deriving DecidableEq, Repr

namespace Species

def who : Species → Who
  | .cat => .cat
  | .mouse => .mouse

def foe : Species → Who
  | .cat => .mouse
  | .mouse => .cat

@[simp] theorem who_ne_free (species : Species) : species.who ≠ .free := by
  cases species <;> decide

@[simp] theorem free_ne_foe (species : Species) : Who.free ≠ species.foe := by
  cases species <;> decide

@[simp] theorem who_ne_foe (species : Species) : species.who ≠ species.foe := by
  cases species <;> decide

theorem who_inj {species other : Species} (heq : species.who = other.who) :
    species = other := by
  cases species <;> cases other <;> first | rfl | cases heq

/-- Whoever is not a foe is absent or one's own. -/
theorem who_of_ne_foe {species : Species} {who : Who} (hfoe : who ≠ species.foe)
    (hfree : who ≠ .free) : who = species.who := by
  cases species <;> cases who <;> first | rfl | exact absurd rfl hfoe | exact absurd rfl hfree

end Species

inductive Bowl where
  | one
  | two
  deriving DecidableEq, Repr

theorem Bowl.forall_iff {p : Bowl → Prop} : (∀ b, p b) ↔ p .one ∧ p .two := by
  constructor
  · intro hall
    exact ⟨hall .one, hall .two⟩
  · intro hboth b
    cases b with
    | one => exact hboth.1
    | two => exact hboth.2

inductive LockName where
  | openbowl
  | bowl (b : Bowl)
  deriving DecidableEq, Repr

inductive Condition where
  | freeBowl
  deriving DecidableEq, Repr

/-- The two `while` loops around `cv_wait`. -/
inductive Loop where
  | bothTaken
  | foeEats
  deriving DecidableEq, Repr

/-- The statements of the body of the `for` loop.  `busy` and `foe` read the
`who` of a bowl in the conditions of the two loops, `wait`, `sleep` and
`rejoin` are the parts of `cv_wait`, `pick` reads a `who` in the conditions of
the `if`, and the rest stands in its branches. -/
inductive Label where
  | enter
  | busy (b : Bowl)
  | foe (b : Bowl)
  | wait (loop : Loop)
  | sleep (loop : Loop)
  | rejoin (loop : Loop)
  | pick (b : Bowl)
  | take (b : Bowl)
  | mark (b : Bowl)
  | leave (b : Bowl)
  | eat (b : Bowl)
  | clear (b : Bowl)
  | signal (b : Bowl)
  | drop (b : Bowl)
  | done
  deriving DecidableEq, Repr

structure Point where
  species : Species
  label : Label
  i : Int
  deriving DecidableEq, Repr

namespace Point

def goto (p : Point) (label : Label) : Point :=
  { p with label := label }

@[simp] theorem goto_species (p : Point) (label : Label) :
    (p.goto label).species = p.species := rfl

@[simp] theorem goto_label (p : Point) (label : Label) : (p.goto label).label = label := rfl

@[simp] theorem goto_i (p : Point) (label : Label) : (p.goto label).i = p.i := rfl

/-- `i++` and the condition of the `for` loop. -/
def advance (p : Point) (i : Int) : Point :=
  { p with
    label := if i + 1 < timesEating then .enter else .done
    i := i + 1 }

theorem advance_label (p : Point) (i : Int) :
    (p.advance i).label = .enter ∨ (p.advance i).label = .done := by
  simp only [advance]
  split
  · exact .inl rfl
  · exact .inr rfl

@[simp] theorem advance_species (p : Point) (i : Int) :
    (p.advance i).species = p.species := rfl

end Point

/-- The first statement of the body of a loop's condition. -/
def Loop.start : Loop → Label
  | .bothTaken => .busy .one
  | .foeEats => .foe .one

/-- `catlock` and `mouselock`, which differ in the species only. -/
def code (p : Point) : Instr LockName Condition Bowl Who Point :=
  match p.label with
  | .enter => .acquire .openbowl (p.goto (.busy .one))
  | .busy .one => .test .one (· != .free) (p.goto (.busy .two)) (p.goto (.foe .one))
  | .busy .two => .test .two (· != .free) (p.goto (.wait .bothTaken)) (p.goto (.foe .one))
  | .foe .one => .test .one (· == p.species.foe) (p.goto (.wait .foeEats)) (p.goto (.foe .two))
  | .foe .two => .test .two (· == p.species.foe) (p.goto (.wait .foeEats)) (p.goto (.pick .one))
  | .wait loop => .enqueue .freeBowl (p.goto (.sleep loop))
  | .sleep loop => .fallAsleep .freeBowl .openbowl (p.goto (.rejoin loop))
  | .rejoin loop => .acquire .openbowl (p.goto loop.start)
  | .pick .one => .test .one (· == .free) (p.goto (.take .one)) (p.goto (.pick .two))
  | .pick .two => .test .two (· == .free) (p.goto (.take .two)) (p.advance (p.i - 1))
  | .take b => .acquire (.bowl b) (p.goto (.mark b))
  | .mark b => .assign b p.species.who (p.goto (.leave b))
  | .leave b => .release .openbowl (p.goto (.eat b))
  | .eat b => .pause (p.goto (.clear b))
  | .clear b => .assign b .free (p.goto (.signal b))
  | .signal b => .signal .freeBowl (p.goto (.drop b))
  | .drop b => .release (.bowl b) (p.advance p.i)
  | .done => .halt

def catlock : Point := ⟨.cat, .enter, 0⟩

def mouselock : Point := ⟨.mouse, .enter, 0⟩

def Species.entry : Species → Point
  | .cat => catlock
  | .mouse => mouselock

abbrev Kitchen := State LockName Condition Bowl Who Point

/-- `catmouselock` has made the bowls, the locks and the condition variable,
and the threads of the animals have been forked. -/
def catmouselock (animals : Tid → Option Species) : Kitchen where
  mem _ := .free
  threadAddr _ := none
  cvQueue _ := []
  point t := match animals t with
    | some species => species.entry
    | none => ⟨.cat, .done, 0⟩
  sleep _ := .awake
  masked _ := false
  running := none

/-- The states that any interleaving of the animals' steps can reach. -/
def Reachable (animals : Tid → Option Species) (s : Kitchen) : Prop :=
  Relation.ReflTransGen (Step code) (catmouselock animals) s

/-- The `who` of the bowl has been set and not yet been set back. -/
def Label.EatsAt (b : Bowl) (label : Label) : Prop :=
  label = .leave b ∨ label = .eat b ∨ label = .clear b

def EatsAt (s : Kitchen) (t : Tid) (b : Bowl) : Prop :=
  (s.point t).label.EatsAt b

/-- From its `lock_acquire` to its `lock_release` or its `thread_sleep` an
animal holds `openbowl_lock`. -/
def HoldsOpenbowl : Label → Bool
  | .busy _ | .foe _ | .wait _ | .sleep _ | .pick _ | .take _ | .mark _ | .leave _ => true
  | _ => false

/-- What an animal has learnt of the bowls from its tests. -/
def Knows (mem : Bowl → Who) (p : Point) : Prop :=
  match p.label with
  | .foe .two => mem .one ≠ p.species.foe
  | .pick _ => ∀ b, mem b ≠ p.species.foe
  | .take b | .mark b => (∀ c, mem c ≠ p.species.foe) ∧ mem b = .free
  | .leave b | .eat b | .clear b => mem b = p.species.who
  | _ => True

@[simp] theorem holdsOpenbowl_advance (p : Point) (i : Int) :
    HoldsOpenbowl (p.advance i).label = false := by
  rcases p.advance_label i with hlabel | hlabel <;> simp [HoldsOpenbowl, hlabel]

@[simp] theorem not_eatsAt_advance (p : Point) (i : Int) (b : Bowl) :
    ¬ (p.advance i).label.EatsAt b := by
  rcases p.advance_label i with hlabel | hlabel <;> simp [Label.EatsAt, hlabel]

@[simp] theorem knows_advance (mem : Bowl → Who) (p : Point) (i : Int) :
    Knows mem (p.advance i) := by
  rcases p.advance_label i with hlabel | hlabel <;> simp [Knows, hlabel]

structure Orderly (s : Kitchen) : Prop where
  holds : ∀ t, HoldsOpenbowl (s.point t).label → s.threadAddr .openbowl = some t
  knows : ∀ t, Knows s.mem (s.point t)
  alone : ∀ t u b, EatsAt s t b → EatsAt s u b → t = u
  peace : ∀ b c, s.mem b ≠ .free → s.mem c ≠ .free → s.mem b = s.mem c

theorem orderly_catmouselock (animals : Tid → Option Species) :
    Orderly (catmouselock animals) := by
  have hlabel : ∀ t, ((catmouselock animals).point t).label = .enter ∨
      ((catmouselock animals).point t).label = .done := by
    intro t
    cases hanimal : animals t with
    | none => exact .inr (by simp [catmouselock, hanimal])
    | some species =>
        cases species <;>
          exact .inl (by simp [catmouselock, hanimal, Species.entry, catlock, mouselock])
  have hnotEats : ∀ t b, ¬ EatsAt (catmouselock animals) t b := by
    intro t b heats
    rcases hlabel t with hlabel | hlabel <;> simp [EatsAt, Label.EatsAt, hlabel] at heats
  constructor
  · intro t hholds
    rcases hlabel t with hlabel | hlabel <;> simp [HoldsOpenbowl, hlabel] at hholds
  · intro t
    rcases hlabel t with hlabel | hlabel <;> simp [Knows, hlabel]
  · intro t u b heats
    exact absurd heats (hnotEats t b)
  · intro b c hb
    exact absurd rfl hb

/-- What an animal's own step makes of its part of the invariant. -/
structure Follows (t : Tid) (s next : Kitchen) : Prop where
  species : (next.point t).species = (s.point t).species
  holds : HoldsOpenbowl (next.point t).label → next.threadAddr .openbowl = some t
  knows : Knows next.mem (next.point t)
  eats : ∀ b, EatsAt next t b → EatsAt s t b ∨ (s.point t).label = .mark b

theorem follows_of_step {s next : Kitchen} (horderly : Orderly s)
    (hstep : step code t s = some next) : Follows t s next := by
  have hholds := horderly.holds t
  have hknows := horderly.knows t
  unfold step at hstep
  split at hstep
  case isFalse => cases hstep
  case isTrue hawake =>
    cases hlabel : (s.point t).label with
    | done =>
        simp only [code, hlabel, execute] at hstep
        cases hstep
    | enter =>
        simp only [code, hlabel, execute] at hstep
        split at hstep <;> cases hstep <;> constructor <;>
          simp [hlabel, HoldsOpenbowl, Knows, EatsAt, Label.EatsAt]
    | rejoin loop =>
        simp only [code, hlabel, execute] at hstep
        split at hstep <;> cases hstep <;> cases loop <;> constructor <;>
          simp [hlabel, HoldsOpenbowl, Knows, EatsAt, Label.EatsAt, Loop.start]
    | take b =>
        simp only [code, hlabel, execute] at hstep
        split at hstep <;> cases hstep <;> constructor <;>
          simp_all [HoldsOpenbowl, Knows, EatsAt, Label.EatsAt]
    | busy b =>
        -- The condition of the first loop; a bowl that is free leads out of it.
        cases b <;> simp only [code, hlabel, execute] at hstep <;> cases hstep <;>
          constructor <;> split <;> simp_all [HoldsOpenbowl, Knows, EatsAt, Label.EatsAt]
    | foe b =>
        -- Only after both tests have failed does the animal know of no foe.
        cases b <;> simp only [code, hlabel, execute] at hstep <;> cases hstep <;>
          constructor <;> split <;> simp_all [HoldsOpenbowl, Knows, EatsAt, Label.EatsAt, Bowl.forall_iff]
    | pick b =>
        cases b with
        | one =>
            simp only [code, hlabel, execute] at hstep
            cases hstep
            constructor <;> split <;> simp_all [HoldsOpenbowl, Knows, EatsAt, Label.EatsAt]
        | two =>
            simp only [code, hlabel, execute] at hstep
            cases hstep
            by_cases hfree : s.mem .two = .free
            · constructor <;> simp_all [HoldsOpenbowl, Knows, EatsAt, Label.EatsAt]
            · constructor <;> simp [hfree, EatsAt]
    | drop b =>
        simp only [code, hlabel, execute] at hstep
        cases hstep
        constructor <;> simp [EatsAt]
    | _ =>
        simp only [code, hlabel, execute] at hstep
        cases hstep
        constructor <;> simp_all [HoldsOpenbowl, Knows, EatsAt, Label.EatsAt]

/-- Only the two assignments to a `who` change a bowl. -/
theorem mem_of_step {s next : Kitchen} (hstep : step code t s = some next) :
    next.mem = s.mem ∨
    (∃ b, (s.point t).label = .mark b ∧
      next.mem = Function.update s.mem b (s.point t).species.who) ∨
    (∃ b, (s.point t).label = .clear b ∧ next.mem = Function.update s.mem b .free) := by
  obtain ⟨-, hdoes⟩ := does_of_step hstep
  cases hdoes with
  | assigned hcode =>
      right
      cases hlabel : (s.point t).label with
      | mark b =>
          simp only [code, hlabel] at hcode
          cases hcode
          exact .inl ⟨_, rfl, rfl⟩
      | clear b =>
          simp only [code, hlabel] at hcode
          cases hcode
          exact .inr ⟨_, rfl, rfl⟩
      | busy b => cases b <;> simp [code, hlabel] at hcode
      | foe b => cases b <;> simp [code, hlabel] at hcode
      | pick b => cases b <;> simp [code, hlabel] at hcode
      | _ => simp [code, hlabel] at hcode
  | _ => exact .inl (by simp)

/-- A bowl that becomes free misleads only those who eat from it. -/
theorem Knows.update_free {mem : Bowl → Who} {p : Point} (hknows : Knows mem p)
    (hnotEats : ¬ p.label.EatsAt b) : Knows (Function.update mem b .free) p := by
  have hfoe : ∀ c, mem c ≠ p.species.foe →
      Function.update mem b .free c ≠ p.species.foe := by
    intro c hc
    by_cases heq : c = b
    · subst heq
      simp
    · rwa [Function.update_of_ne heq]
  have hfree : ∀ c, mem c = .free → Function.update mem b .free c = .free := by
    intro c hc
    by_cases heq : c = b
    · subst heq
      simp
    · rwa [Function.update_of_ne heq]
  have hother : ∀ c, p.label.EatsAt c → c ≠ b := by
    intro c heats heq
    exact hnotEats (heq ▸ heats)
  unfold Knows at hknows ⊢
  split at hknows
  · exact hfoe _ hknows
  · exact fun c => hfoe c (hknows c)
  · exact ⟨fun c => hfoe c (hknows.1 c), hfree _ hknows.2⟩
  · exact ⟨fun c => hfoe c (hknows.1 c), hfree _ hknows.2⟩
  case h_5 c hlabel =>
    rwa [Function.update_of_ne (hother c (.inl hlabel))]
  case h_6 c hlabel =>
    rwa [Function.update_of_ne (hother c (.inr (.inl hlabel)))]
  case h_7 c hlabel =>
    rwa [Function.update_of_ne (hother c (.inr (.inr hlabel)))]
  · trivial

/-- Without `openbowl_lock` an animal knows of its own bowl only. -/
theorem Knows.update_taken {mem : Bowl → Who} {p : Point} (hknows : Knows mem p)
    (hholds : ¬ HoldsOpenbowl p.label) (hfree : mem b = .free) (v : Who) :
    Knows (Function.update mem b v) p := by
  have hother : ∀ c, mem c = p.species.who → c ≠ b := by
    intro c hwho heq
    rw [heq, hfree] at hwho
    exact p.species.who_ne_free hwho.symm
  cases hlabel : p.label with
  | eat c =>
      simp only [Knows, hlabel] at hknows ⊢
      rwa [Function.update_of_ne (hother c hknows)]
  | clear c =>
      simp only [Knows, hlabel] at hknows ⊢
      rwa [Function.update_of_ne (hother c hknows)]
  | _ => simp_all [Knows, HoldsOpenbowl]

theorem Orderly.who_of_eatsAt {s : Kitchen} (horderly : Orderly s) (heats : EatsAt s t b) :
    s.mem b = (s.point t).species.who := by
  have hknows := horderly.knows t
  rcases heats with hlabel | hlabel | hlabel <;> simpa [Knows, hlabel] using hknows

section Steps

variable {s next : Kitchen}

theorem Orderly.knows_of_ne (horderly : Orderly s) (hstep : step code t s = some next)
    (hu : u ≠ t) : Knows next.mem (s.point u) := by
  have hknows := horderly.knows u
  rcases mem_of_step hstep with hmem | ⟨b, hlabel, hmem⟩ | ⟨b, hlabel, hmem⟩
  · rwa [hmem]
  · have hmark := horderly.knows t
    simp only [Knows, hlabel] at hmark
    have hholder := horderly.holds t (by simp [HoldsOpenbowl, hlabel])
    have hnotHolds : ¬ HoldsOpenbowl (s.point u).label := by
      intro hholds
      have hother := horderly.holds u hholds
      rw [hholder] at hother
      exact hu (Option.some.inj hother).symm
    rw [hmem]
    exact hknows.update_taken hnotHolds hmark.2 _
  · have hnotEats : ¬ (s.point u).label.EatsAt b := by
      intro heats
      exact hu (horderly.alone u t b heats (.inr (.inr hlabel)))
    rw [hmem]
    exact hknows.update_free hnotEats

/-- Whoever comes to eat from a bowl found it free. -/
theorem Orderly.alone_step (horderly : Orderly s) (hstep : step code t s = some next)
    (hu : u ≠ t) (heats : EatsAt next t b) : ¬ EatsAt s u b := by
  intro hother
  rcases (follows_of_step horderly hstep).eats b heats with hbefore | hlabel
  · exact hu (horderly.alone u t b hother hbefore)
  · have hmark := horderly.knows t
    simp only [Knows, hlabel] at hmark
    rw [horderly.who_of_eatsAt hother] at hmark
    exact (s.point u).species.who_ne_free hmark.2

theorem Orderly.peace_step (horderly : Orderly s) (hstep : step code t s = some next) :
    ∀ b c, next.mem b ≠ .free → next.mem c ≠ .free → next.mem b = next.mem c := by
  rcases mem_of_step hstep with hmem | ⟨taken, hlabel, hmem⟩ | ⟨cleared, hlabel, hmem⟩
  · rw [hmem]
    exact horderly.peace
  · -- The animal has seen no foe, so every bowl in use is its own kind's.
    have hmark := horderly.knows t
    simp only [Knows, hlabel] at hmark
    have hown : ∀ b, next.mem b ≠ .free → next.mem b = (s.point t).species.who := by
      intro b hb
      rw [hmem] at hb ⊢
      by_cases heq : b = taken
      · subst heq
        simp
      · rw [Function.update_of_ne heq] at hb ⊢
        exact Species.who_of_ne_foe (hmark.1 b) hb
    intro b c hb hc
    rw [hown b hb, hown c hc]
  · have hbefore : ∀ b, next.mem b ≠ .free → next.mem b = s.mem b := by
      intro b hb
      rw [hmem] at hb ⊢
      by_cases heq : b = cleared
      · subst heq
        simp at hb
      · rw [Function.update_of_ne heq]
    intro b c hb hc
    rw [hbefore b hb, hbefore c hc]
    apply horderly.peace
    · rwa [← hbefore b hb]
    · rwa [← hbefore c hc]

theorem Orderly.run (horderly : Orderly s) (hstep : step code t s = some next) :
    Orderly next := by
  have hfollows := follows_of_step horderly hstep
  obtain ⟨-, hdoes⟩ := does_of_step hstep
  have hpoint : ∀ u, u ≠ t → next.point u = s.point u := fun u hu => hdoes.point_of_ne hu
  constructor
  case holds =>
    intro u hholds
    by_cases hu : u = t
    · subst hu
      exact hfollows.holds hholds
    · rw [hpoint u hu] at hholds
      exact hdoes.holds_of_ne hu (horderly.holds u hholds)
  case knows =>
    intro u
    by_cases hu : u = t
    · subst hu
      exact hfollows.knows
    · rw [hpoint u hu]
      exact horderly.knows_of_ne hstep hu
  case alone =>
    intro u v b hu hv
    by_cases hut : u = t
    · subst hut
      by_contra hne
      have hvs : EatsAt s v b := by
        rwa [EatsAt, hpoint v (Ne.symm hne)] at hv
      exact horderly.alone_step hstep (Ne.symm hne) hu hvs
    · have hus : EatsAt s u b := by
        rwa [EatsAt, hpoint u hut] at hu
      by_cases hvt : v = t
      · subst hvt
        exact absurd hus (horderly.alone_step hstep hut hv)
      · rw [EatsAt, hpoint v hvt] at hv
        exact horderly.alone u v b hus hv
  case peace => exact horderly.peace_step hstep

theorem Orderly.step (horderly : Orderly s) (hstep : Step code s next) : Orderly next := by
  cases hstep with
  | run t hstep => exact horderly.run hstep
  | spurious t hsleep =>
      exact ⟨horderly.holds, horderly.knows, horderly.alone, horderly.peace⟩

end Steps

theorem Reachable.orderly {s : Kitchen} (hreach : Reachable animals s) : Orderly s := by
  induction hreach with
  | refl => exact orderly_catmouselock animals
  | tail _ hstep ih => exact ih.step hstep

theorem Reachable.species {s : Kitchen} {species : Species} (hreach : Reachable animals s)
    (hanimal : animals t = some species) : (s.point t).species = species := by
  induction hreach with
  | refl => cases species <;> simp [catmouselock, hanimal, Species.entry, catlock, mouselock]
  | tail hbefore hstep ih =>
      cases hstep with
      | run u hstep =>
          by_cases hu : t = u
          · subst hu
            rw [(follows_of_step (Reachable.orderly hbefore) hstep).species]
            exact ih
          · obtain ⟨-, hdoes⟩ := does_of_step hstep
            rw [hdoes.point_of_ne hu]
            exact ih
      | spurious u hsleep => exact ih

theorem Orderly.same_species {s : Kitchen} (horderly : Orderly s) (ht : EatsAt s t b)
    (hu : EatsAt s u c) : (s.point t).species = (s.point u).species := by
  have hb := horderly.who_of_eatsAt ht
  have hc := horderly.who_of_eatsAt hu
  have heq : s.mem b = s.mem c := by
    apply horderly.peace
    · rw [hb]
      exact (s.point t).species.who_ne_free
    · rw [hc]
      exact (s.point u).species.who_ne_free
  rw [hb, hc] at heq
  exact Species.who_inj heq

/-- No cat eats while a mouse eats, and no two animals eat from one bowl. -/
theorem eat_in_peace {animals : Tid → Option Species} {s : Kitchen}
    (hreach : Reachable animals s) :
    (∀ cat mouse, animals cat = some .cat → animals mouse = some .mouse →
      ∀ b c, ¬ (EatsAt s cat b ∧ EatsAt s mouse c)) ∧
    (∀ t u b, EatsAt s t b → EatsAt s u b → t = u) := by
  have horderly := hreach.orderly
  constructor
  · intro cat mouse hcat hmouse b c heats
    have hsame := horderly.same_species heats.1 heats.2
    rw [hreach.species hcat, hreach.species hmouse] at hsame
    cases hsame
  · exact horderly.alone

/-- A cat and a mouse. -/
def pair : Tid → Option Species
  | 0 => some .cat
  | 1 => some .mouse
  | _ => none

/-- The cat eats from the first bowl and the mouse cannot be eating. -/
theorem eat_in_peace_pair :
    ∃ s : Kitchen, Reachable pair s ∧ EatsAt s 0 .one ∧ ¬ EatsAt s 1 .two := by
  have hfollow : follow code [0, 0, 0, 0, 0, 0, 0, 0] (catmouselock pair) =
      some ((follow code [0, 0, 0, 0, 0, 0, 0, 0] (catmouselock pair)).get rfl) :=
    rfl
  have hreach := steps_of_follow hfollow
  have heats : EatsAt ((follow code [0, 0, 0, 0, 0, 0, 0, 0] (catmouselock pair)).get rfl) 0
      .one := .inr (.inl rfl)
  refine ⟨_, hreach, heats, ?_⟩
  intro hmouse
  exact (eat_in_peace hreach).1 0 1 rfl rfl .one .two ⟨heats, hmouse⟩

end OS161.Asst1.Catlock
