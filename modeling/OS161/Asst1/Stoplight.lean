import OS161.Synch.Routine

namespace OS161.Asst1.Stoplight

open OS161.Synch
open OS161.Synch.State

/-! The cars of `kern/asst1/stoplight.c`. -/

inductive Direction where
  | N
  | E
  | S
  | W
  deriving DecidableEq, Repr

inductive Turn where
  | straight
  | left
  | right
  deriving DecidableEq, Repr

/-- The squares 1 to 4 of the intersection. -/
inductive Square where
  | NW
  | NE
  | SW
  | SE
  deriving DecidableEq, Repr

/-- What a flag, the lock and the condition variable that go with it are
called after: a square, an approach, or `printout`. -/
inductive Place where
  | square (q : Square)
  | approach (d : Direction)
  | print
  deriving DecidableEq, Repr

/-- What is left of the routine of a car.  `cv_wait` is made of `enqueue`,
`fallAsleep` and `acquire`, and `orElse` is a `whileEither` of which the first
flag has been read. -/
inductive Code where
  | done
  | acquire (l : Place) (k : Code)
  | release (l : Place) (k : Code)
  | enqueue (cv : Place) (k : Code)
  | fallAsleep (cv : Place) (k : Code)
  | signal (cv : Place) (k : Code)
  | assign (x : Place) (locked : Bool) (k : Code)
  | ifLocked (x : Place) (body k : Code)
  | whileLocked (x : Place) (body k : Code)
  | whileEither (x y : Place) (body k : Code)
  | orElse (x y : Place) (body k : Code)
  deriving DecidableEq, Repr

namespace Code

def append : Code → Code → Code
  | .done, next => next
  | .acquire l k, next => .acquire l (k.append next)
  | .release l k, next => .release l (k.append next)
  | .enqueue cv k, next => .enqueue cv (k.append next)
  | .fallAsleep cv k, next => .fallAsleep cv (k.append next)
  | .signal cv k, next => .signal cv (k.append next)
  | .assign x locked k, next => .assign x locked (k.append next)
  | .ifLocked x body k, next => .ifLocked x body (k.append next)
  | .whileLocked x body k, next => .whileLocked x body (k.append next)
  | .whileEither x y body k, next => .whileEither x y body (k.append next)
  | .orElse x y body k, next => .orElse x y body (k.append next)

end Code

/-- `cv_wait` on the condition variable of a place, with its lock. -/
def cvWait (x : Place) (k : Code) : Code :=
  .enqueue x (.fallAsleep x (.acquire x k))

/-- `message`. -/
def message (k : Code) : Code :=
  .whileLocked .print (cvWait .print .done) <|
  .acquire .print <|
  .assign .print true <|
  .assign .print false <|
  .signal .print <|
  .release .print k

/-- A car gives a place back. -/
def vacate (x : Place) (k : Code) : Code :=
  .assign x false <|
  .signal x <|
  .release x k

/-- The part of `gostraight` and of `turnleft` in which a car waits for two
squares, enters both and leaves its approach. -/
def enterTwo (d : Direction) (first second : Square) (k : Code) : Code :=
  .whileEither (.square first) (.square second)
    (.ifLocked (.square first)
      (.signal (.square second) <|
        .release (.square second) <|
        cvWait (.square first) .done) <|
    .ifLocked (.square second)
      (.signal (.square first) <|
        .release (.square first) <|
        cvWait (.square second) .done)
      .done) <|
  .acquire (.square first) <|
  .acquire (.square second) <|
  .assign (.square first) true <|
  .assign (.square second) true <|
  message <|
  vacate (.approach d) k

/-- The part of `turnleft` and of `turnright` in which a car waits for a
square and enters it. -/
def enterOne (q : Square) (k : Code) : Code :=
  .whileLocked (.square q) (cvWait (.square q) .done) <|
  .acquire (.square q) <|
  .assign (.square q) true k

/-- A branch of `gostraight`. -/
def passTwo (d : Direction) (first second : Square) (k : Code) : Code :=
  enterTwo d first second <|
  message <|
  vacate (.square first) <|
  message <|
  vacate (.square second) k

def gostraight (cardirection : Direction) : Code → Code :=
  match cardirection with
  | .N => passTwo .N .NW .SW
  | .E => passTwo .E .NE .NW
  | .W => passTwo .W .SW .SE
  | .S => passTwo .S .SE .NE

/-- A branch of `turnleft`. -/
def passThree (d : Direction) (first second third : Square) (k : Code) : Code :=
  enterTwo d first second <|
  message <|
  vacate (.square first) <|
  enterOne third <|
  message <|
  vacate (.square second) <|
  message <|
  vacate (.square third) k

def turnleft (cardirection : Direction) : Code → Code :=
  match cardirection with
  | .N => passThree .N .NW .SW .SE
  | .E => passThree .E .NE .NW .SW
  | .W => passThree .W .SW .SE .NE
  | .S => passThree .S .SE .NE .NW

/-- A branch of `turnright`. -/
def passOne (d : Direction) (q : Square) (k : Code) : Code :=
  enterOne q <|
  message <|
  vacate (.approach d) <|
  message <|
  vacate (.square q) k

def turnright (cardirection : Direction) : Code → Code :=
  match cardirection with
  | .N => passOne .N .NW
  | .E => passOne .E .NE
  | .W => passOne .W .SW
  | .S => passOne .S .SE

def approachintersection (cardirection : Direction) (turnDirection : Turn) : Code :=
  message <|
  .whileLocked (.approach cardirection) (cvWait (.approach cardirection) .done) <|
  .acquire (.approach cardirection) <|
  .assign (.approach cardirection) true <|
  match turnDirection with
  | .straight => gostraight cardirection .done
  | .left => turnleft cardirection .done
  | .right => turnright cardirection .done

namespace Place

/-- The squares of a list, and this one. -/
def gain : Place → List Square → List Square
  | .square q, squares => q :: squares
  | _, squares => squares

/-- The squares of a list, without this one. -/
def lose : Place → List Square → List Square
  | .square q, squares => squares.filter (· ≠ q)
  | _, squares => squares

theorem mem_gain {x : Place} {squares : List Square} :
    q ∈ x.gain squares ↔ x = .square q ∨ q ∈ squares := by
  cases x with
  | square r => simp [gain, eq_comm]
  | approach d => simp [gain]
  | print => simp [gain]

theorem mem_lose {x : Place} {squares : List Square} :
    q ∈ x.lose squares ↔ q ∈ squares ∧ x ≠ .square q := by
  cases x with
  | square r =>
      rw [lose, List.mem_filter, decide_eq_true_eq, ne_eq, ne_eq, Place.square.injEq,
        eq_comm (a := q)]
  | approach d => simp [lose]
  | print => simp [lose]

end Place

/-- Where a car is in its routine, and the squares whose flag it has set and
not yet set back. -/
structure Point where
  rest : Code
  inside : List Square
  deriving DecidableEq, Repr

def code (p : Point) : Instr Place Place Place Bool Point :=
  match p.rest with
  | .done => .halt
  | .acquire l k => .acquire l ⟨k, p.inside⟩
  | .release l k => .release l ⟨k, p.inside⟩
  | .enqueue cv k => .enqueue cv ⟨k, p.inside⟩
  | .fallAsleep cv k => .fallAsleep cv cv ⟨k, p.inside⟩
  | .signal cv k => .signal cv ⟨k, p.inside⟩
  | .assign x true k => .assign x true ⟨k, x.gain p.inside⟩
  | .assign x false k => .assign x false ⟨k, x.lose p.inside⟩
  | .ifLocked x body k => .test x id ⟨body.append k, p.inside⟩ ⟨k, p.inside⟩
  | .whileLocked x body k =>
      .test x id ⟨body.append (.whileLocked x body k), p.inside⟩ ⟨k, p.inside⟩
  | .whileEither x y body k =>
      .test x id ⟨body.append (.whileEither x y body k), p.inside⟩
        ⟨.orElse x y body k, p.inside⟩
  | .orElse x y body k =>
      .test y id ⟨body.append (.whileEither x y body k), p.inside⟩ ⟨k, p.inside⟩

abbrev Intersection := State Place Place Place Bool Point

/-- `createcars` has made the flags, the locks and the condition variables,
and the threads of the cars have been forked. -/
def createcars (cars : Tid → Option (Direction × Turn)) : Intersection where
  mem _ := false
  threadAddr _ := none
  cvQueue _ := []
  point t := match cars t with
    | some (cardirection, turnDirection) =>
        ⟨approachintersection cardirection turnDirection, []⟩
    | none => ⟨.done, []⟩
  sleep _ := .awake
  masked _ := false
  running := none

/-- The states that any interleaving of the cars' steps can reach. -/
def Reachable (cars : Tid → Option (Direction × Turn)) (s : Intersection) : Prop :=
  Relation.ReflTransGen (Step code) (createcars cars) s

def IsIn (s : Intersection) (t : Tid) (q : Square) : Prop :=
  q ∈ (s.point t).inside

instance (s : Intersection) (t : Tid) (q : Square) : Decidable (IsIn s t q) :=
  inferInstanceAs (Decidable (q ∈ (s.point t).inside))

/-! A discipline for the locks of the squares.  A car sets the flag of a square
whose lock it holds, and does not release the lock of a square it is in. -/

/-- If the place is a square, it is one of these. -/
def Place.among (x : Place) (squares : List Square) : Bool :=
  match x with
  | .square q => q ∈ squares
  | _ => true

def Place.outside (x : Place) (squares : List Square) : Bool :=
  match x with
  | .square q => q ∉ squares
  | _ => true

/-- Whether a routine that starts inside some squares, with the locks of some
held for certain, keeps to the discipline and ends as `post` says.  After a
loop only the locks of the squares it is in are known to be held. -/
def Disciplined : Code → (List Square → List Square → Bool) →
    List Square → List Square → Bool
  | .done, post, inside, held => post inside held
  | .acquire l k, post, inside, held => Disciplined k post inside (l.gain held)
  | .release l k, post, inside, held =>
      l.outside inside && Disciplined k post inside (l.lose held)
  | .enqueue _ k, post, inside, held => Disciplined k post inside held
  | .fallAsleep cv k, post, inside, held =>
      cv.outside inside && Disciplined k post inside (cv.lose held)
  | .signal _ k, post, inside, held => Disciplined k post inside held
  | .assign x true k, post, inside, held =>
      x.among held && Disciplined k post (x.gain inside) held
  | .assign x false k, post, inside, held =>
      x.among inside && Disciplined k post (x.lose inside) held
  | .ifLocked _ body k, post, inside, held =>
      Disciplined body (fun inside held => Disciplined k post inside held) inside held &&
        Disciplined k post inside held
  | .whileLocked _ body k, post, inside, _ =>
      Disciplined body (fun after _ => after == inside) inside inside &&
        Disciplined k post inside inside
  | .whileEither _ _ body k, post, inside, _ =>
      Disciplined body (fun after _ => after == inside) inside inside &&
        Disciplined k post inside inside
  | .orElse _ _ body k, post, inside, _ =>
      Disciplined body (fun after _ => after == inside) inside inside &&
        Disciplined k post inside inside

theorem Disciplined.mono {body : Code} {post weaker : List Square → List Square → Bool}
    (hpost : ∀ inside held, post inside held → weaker inside held)
    (hbody : Disciplined body post inside held) : Disciplined body weaker inside held := by
  induction body generalizing post weaker inside held with
  | done => exact hpost _ _ hbody
  | acquire l k ih => exact ih hpost hbody
  | enqueue cv k ih => exact ih hpost hbody
  | signal cv k ih => exact ih hpost hbody
  | release l k ih =>
      simp only [Disciplined, Bool.and_eq_true] at hbody ⊢
      exact ⟨hbody.1, ih hpost hbody.2⟩
  | fallAsleep cv k ih =>
      simp only [Disciplined, Bool.and_eq_true] at hbody ⊢
      exact ⟨hbody.1, ih hpost hbody.2⟩
  | assign x locked k ih =>
      cases locked <;> simp only [Disciplined, Bool.and_eq_true] at hbody ⊢ <;>
        exact ⟨hbody.1, ih hpost hbody.2⟩
  | ifLocked x inner k ihInner ih =>
      simp only [Disciplined, Bool.and_eq_true] at hbody ⊢
      exact ⟨ihInner (fun _ _ => ih hpost) hbody.1, ih hpost hbody.2⟩
  | whileLocked x inner k ihInner ih =>
      simp only [Disciplined, Bool.and_eq_true] at hbody ⊢
      exact ⟨hbody.1, ih hpost hbody.2⟩
  | whileEither x y inner k ihInner ih =>
      simp only [Disciplined, Bool.and_eq_true] at hbody ⊢
      exact ⟨hbody.1, ih hpost hbody.2⟩
  | orElse x y inner k ihInner ih =>
      simp only [Disciplined, Bool.and_eq_true] at hbody ⊢
      exact ⟨hbody.1, ih hpost hbody.2⟩

theorem Disciplined.append {body next : Code} {post : List Square → List Square → Bool}
    (hbody : Disciplined body (fun inside held => Disciplined next post inside held)
      inside held) : Disciplined (body.append next) post inside held := by
  induction body generalizing inside held with
  | done => exact hbody
  | acquire l k ih => exact ih hbody
  | enqueue cv k ih => exact ih hbody
  | signal cv k ih => exact ih hbody
  | release l k ih =>
      simp only [Disciplined, Code.append, Bool.and_eq_true] at hbody ⊢
      exact ⟨hbody.1, ih hbody.2⟩
  | fallAsleep cv k ih =>
      simp only [Disciplined, Code.append, Bool.and_eq_true] at hbody ⊢
      exact ⟨hbody.1, ih hbody.2⟩
  | assign x locked k ih =>
      cases locked <;> simp only [Disciplined, Code.append, Bool.and_eq_true] at hbody ⊢ <;>
        exact ⟨hbody.1, ih hbody.2⟩
  | ifLocked x inner k ihInner ih =>
      simp only [Disciplined, Code.append, Bool.and_eq_true] at hbody ⊢
      exact ⟨Disciplined.mono (fun _ _ => ih) hbody.1, ih hbody.2⟩
  | whileLocked x inner k ihInner ih =>
      simp only [Disciplined, Code.append, Bool.and_eq_true] at hbody ⊢
      exact ⟨hbody.1, ih hbody.2⟩
  | whileEither x y inner k ihInner ih =>
      simp only [Disciplined, Code.append, Bool.and_eq_true] at hbody ⊢
      exact ⟨hbody.1, ih hbody.2⟩
  | orElse x y inner k ihInner ih =>
      simp only [Disciplined, Code.append, Bool.and_eq_true] at hbody ⊢
      exact ⟨hbody.1, ih hbody.2⟩

/-- A car that ends is in no square. -/
def endsOutside (inside _held : List Square) : Bool :=
  inside.isEmpty

/-- Every route keeps to the discipline. -/
theorem disciplined_approachintersection (cardirection : Direction) (turnDirection : Turn) :
    Disciplined (approachintersection cardirection turnDirection) endsOutside [] [] := by
  cases cardirection <;> cases turnDirection <;> decide

theorem Place.among_iff {x : Place} {squares : List Square} :
    x.among squares ↔ ∀ q, x = .square q → q ∈ squares := by
  cases x with
  | square r =>
      simp only [among, decide_eq_true_eq]
      constructor
      · intro hmem q heq
        cases heq
        exact hmem
      · intro hall
        exact hall r rfl
  | approach d => simp [among]
  | print => simp [among]

theorem Place.outside_iff {x : Place} {squares : List Square} :
    x.outside squares ↔ ∀ q, x = .square q → q ∉ squares := by
  cases x with
  | square r =>
      simp only [outside, decide_eq_true_eq]
      constructor
      · intro hmem q heq
        cases heq
        exact hmem
      · intro hall
        exact hall r rfl
  | approach d => simp [outside]
  | print => simp [outside]

/-- What a car has still to do keeps to the discipline, with the locks of some
squares held, among them those it is in. -/
structure Keeps (s : Intersection) (t : Tid) (held : List Square) : Prop where
  rest : Disciplined (s.point t).rest endsOutside (s.point t).inside held
  inside : (s.point t).inside ⊆ held
  holds : ∀ q ∈ held, s.threadAddr (.square q) = some t

structure Lawful (s : Intersection) : Prop where
  keeps : ∀ t, ∃ held, Keeps s t held
  flags : ∀ q, s.mem (.square q) = true ↔ ∃ t, IsIn s t q

theorem Lawful.holds_of_isIn {s : Intersection} (hlawful : Lawful s) (hin : IsIn s t q) :
    s.threadAddr (.square q) = some t := by
  obtain ⟨held, hkeeps⟩ := hlawful.keeps t
  exact hkeeps.holds q (hkeeps.inside hin)

theorem Lawful.alone {s : Intersection} (hlawful : Lawful s) (ht : IsIn s t q)
    (hu : IsIn s u q) : t = u := by
  have hholds := hlawful.holds_of_isIn ht
  rw [hlawful.holds_of_isIn hu] at hholds
  exact (Option.some.inj hholds).symm

/-- How a car's step changes the flag of a square and whether the car is in
it. -/
inductive Change (q : Square) (t : Tid) (s next : Intersection) : Prop
  | none (hmem : next.mem (.square q) = s.mem (.square q))
      (hsame : IsIn next t q ↔ IsIn s t q)
  | enters (hmem : next.mem (.square q) = true) (hin : IsIn next t q)
  | leaves (hmem : next.mem (.square q) = false) (hbefore : IsIn s t q)
      (hout : ¬ IsIn next t q)

section Steps

variable {s next : Intersection} {held : List Square}

theorem Keeps.lockRelease_holds (hkeeps : Keeps s t held) (l : Place) :
    ∀ q ∈ l.lose held, (lockRelease t l s).threadAddr (.square q) = some t := by
  intro q hmem
  rw [Place.mem_lose] at hmem
  rw [lockRelease_threadAddr_of_ne (Ne.symm hmem.2)]
  exact hkeeps.holds q hmem.1

theorem Keeps.inside_lose (hkeeps : Keeps s t held) {l : Place}
    (houtside : l.outside (s.point t).inside) : (s.point t).inside ⊆ l.lose held := by
  intro q hmem
  rw [Place.mem_lose]
  refine ⟨hkeeps.inside hmem, ?_⟩
  intro heq
  exact Place.outside_iff.mp houtside q heq hmem

/-- A round of a loop. -/
theorem disciplined_round {body loop : Code} {post : List Square → List Square → Bool}
    {inside : List Square}
    (hbody : Disciplined body (fun after _ => after == inside) inside inside)
    (hloop : ∀ held, Disciplined loop post inside held) :
    Disciplined (body.append loop) post inside inside := by
  apply Disciplined.append
  refine Disciplined.mono ?_ hbody
  intro after held hsame
  rw [beq_iff_eq] at hsame
  subst hsame
  exact hloop held

/-- After a loop a car is sure of the locks of the squares it is in. -/
theorem Keeps.known (hkeeps : Keeps s t held) {k : Code}
    (hk : Disciplined k endsOutside (s.point t).inside (s.point t).inside) :
    Keeps (goOn t ⟨k, (s.point t).inside⟩ s) t (s.point t).inside := by
  constructor
  · simpa using hk
  · simp
  · intro q hmem
    exact hkeeps.holds q (hkeeps.inside hmem)

theorem keeps_of_step (hkeeps : Keeps s t held) (hstep : step code t s = some next) :
    ∃ held, Keeps next t held := by
  have hrest := hkeeps.rest
  unfold step at hstep
  split at hstep
  case isFalse => cases hstep
  case isTrue hawake =>
    cases hcode : (s.point t).rest with
    | done =>
        simp only [code, hcode, execute] at hstep
        cases hstep
    | acquire l k =>
        simp only [code, hcode, execute] at hstep
        split at hstep
        · cases hstep
          rw [hcode] at hrest
          simp only [Disciplined] at hrest
          refine ⟨l.gain held, ?_, ?_, ?_⟩
          · simpa using hrest
          · intro q hmem
            rw [Place.mem_gain]
            exact .inr (hkeeps.inside (by simpa using hmem))
          · intro q hmem
            by_cases heq : Place.square q = l
            · subst heq
              simp
            · rw [Place.mem_gain] at hmem
              have hbefore := hkeeps.holds q (hmem.resolve_left (Ne.symm heq))
              simpa [heq] using hbefore
        · cases hstep
          exact ⟨held, hkeeps.rest, hkeeps.inside, hkeeps.holds⟩
    | release l k =>
        simp only [code, hcode, execute] at hstep
        cases hstep
        rw [hcode] at hrest
        simp only [Disciplined, Bool.and_eq_true] at hrest
        refine ⟨l.lose held, ?_, ?_, ?_⟩
        · simpa using hrest.2
        · simpa using hkeeps.inside_lose hrest.1
        · exact hkeeps.lockRelease_holds l
    | fallAsleep cv k =>
        simp only [code, hcode, execute] at hstep
        cases hstep
        rw [hcode] at hrest
        simp only [Disciplined, Bool.and_eq_true] at hrest
        refine ⟨cv.lose held, ?_, ?_, ?_⟩
        · simpa using hrest.2
        · simpa using hkeeps.inside_lose hrest.1
        · exact hkeeps.lockRelease_holds cv
    | enqueue cv k =>
        simp only [code, hcode, execute] at hstep
        cases hstep
        rw [hcode] at hrest
        simp only [Disciplined] at hrest
        refine ⟨held, ?_, ?_, hkeeps.holds⟩
        · simpa using hrest
        · simpa using hkeeps.inside
    | signal cv k =>
        simp only [code, hcode, execute] at hstep
        cases hstep
        rw [hcode] at hrest
        simp only [Disciplined] at hrest
        refine ⟨held, ?_, ?_, ?_⟩
        · simpa using hrest
        · simpa using hkeeps.inside
        · simpa using hkeeps.holds
    | assign x locked k =>
        rw [hcode] at hrest
        cases locked with
        | true =>
            simp only [code, hcode, execute] at hstep
            cases hstep
            simp only [Disciplined, Bool.and_eq_true] at hrest
            refine ⟨held, ?_, ?_, hkeeps.holds⟩
            · simpa using hrest.2
            · intro q hmem
              simp only [goOn_point, Function.update_self, Place.mem_gain] at hmem
              rcases hmem with heq | hmem
              · exact Place.among_iff.mp hrest.1 q heq
              · exact hkeeps.inside hmem
        | false =>
            simp only [code, hcode, execute] at hstep
            cases hstep
            simp only [Disciplined, Bool.and_eq_true] at hrest
            refine ⟨held, ?_, ?_, hkeeps.holds⟩
            · simpa using hrest.2
            · intro q hmem
              simp only [goOn_point, Function.update_self, Place.mem_lose] at hmem
              exact hkeeps.inside hmem.1
    | ifLocked x body k =>
        simp only [code, hcode, execute] at hstep
        cases hstep
        rw [hcode] at hrest
        simp only [Disciplined, Bool.and_eq_true] at hrest
        refine ⟨held, ?_, ?_, hkeeps.holds⟩
        · split
          · simpa using Disciplined.append hrest.1
          · simpa using hrest.2
        · split <;> simpa using hkeeps.inside
    | whileLocked x body k =>
        simp only [code, hcode, execute] at hstep
        cases hstep
        have hloop : ∀ held, Disciplined (.whileLocked x body k) endsOutside
            (s.point t).inside held := by
          intro _
          rwa [hcode] at hrest
        rw [hcode] at hrest
        simp only [Disciplined, Bool.and_eq_true] at hrest
        refine ⟨(s.point t).inside, ?_⟩
        split
        · exact hkeeps.known (disciplined_round hrest.1 hloop)
        · exact hkeeps.known hrest.2
    | whileEither x y body k =>
        simp only [code, hcode, execute] at hstep
        cases hstep
        have hloop : ∀ held, Disciplined (.whileEither x y body k) endsOutside
            (s.point t).inside held := by
          intro _
          rwa [hcode] at hrest
        rw [hcode] at hrest
        refine ⟨(s.point t).inside, ?_⟩
        split
        · simp only [Disciplined, Bool.and_eq_true] at hrest
          exact hkeeps.known (disciplined_round hrest.1 hloop)
        · exact hkeeps.known hrest
    | orElse x y body k =>
        simp only [code, hcode, execute] at hstep
        cases hstep
        have hloop : ∀ held, Disciplined (.whileEither x y body k) endsOutside
            (s.point t).inside held := by
          intro _
          rwa [hcode] at hrest
        rw [hcode] at hrest
        simp only [Disciplined, Bool.and_eq_true] at hrest
        refine ⟨(s.point t).inside, ?_⟩
        split
        · exact hkeeps.known (disciplined_round hrest.1 hloop)
        · exact hkeeps.known hrest.2

theorem Change.of_goOn {k : Point} (hinside : k.inside = (s.point t).inside) :
    Change q t s (goOn t k s) := by
  apply Change.none
  · rfl
  · simp [IsIn, hinside]

theorem change_of_step (hkeeps : Keeps s t held) (hstep : step code t s = some next)
    (q : Square) : Change q t s next := by
  have hrest := hkeeps.rest
  unfold step at hstep
  split at hstep
  case isFalse => cases hstep
  case isTrue hawake =>
    cases hcode : (s.point t).rest with
    | done =>
        simp only [code, hcode, execute] at hstep
        cases hstep
    | assign x locked k =>
        rw [hcode] at hrest
        cases locked with
        | true =>
            simp only [code, hcode, execute] at hstep
            cases hstep
            by_cases heq : Place.square q = x
            · subst heq
              apply Change.enters
              · simp
              · simp [IsIn, Place.gain]
            · apply Change.none
              · simp [heq]
              · simp [IsIn, Place.mem_gain, Ne.symm heq]
        | false =>
            simp only [code, hcode, execute] at hstep
            cases hstep
            by_cases heq : Place.square q = x
            · subst heq
              simp only [Disciplined, Bool.and_eq_true] at hrest
              apply Change.leaves
              · simp
              · exact Place.among_iff.mp hrest.1 q rfl
              · simp [IsIn, Place.lose]
            · apply Change.none
              · simp [heq]
              · simp [IsIn, Place.mem_lose, Ne.symm heq]
    | acquire l k =>
        simp only [code, hcode, execute] at hstep
        split at hstep <;> cases hstep <;> apply Change.none <;> simp [IsIn]
    | ifLocked x body k =>
        simp only [code, hcode, execute] at hstep
        cases hstep
        exact Change.of_goOn (by split <;> rfl)
    | whileLocked x body k =>
        simp only [code, hcode, execute] at hstep
        cases hstep
        exact Change.of_goOn (by split <;> rfl)
    | whileEither x y body k =>
        simp only [code, hcode, execute] at hstep
        cases hstep
        exact Change.of_goOn (by split <;> rfl)
    | orElse x y body k =>
        simp only [code, hcode, execute] at hstep
        cases hstep
        exact Change.of_goOn (by split <;> rfl)
    | _ =>
        simp only [code, hcode, execute] at hstep
        cases hstep
        apply Change.none <;> simp [IsIn]

theorem Lawful.flags_step (hlawful : Lawful s) (hstep : step code t s = some next)
    (q : Square) : next.mem (.square q) = true ↔ ∃ u, IsIn next u q := by
  obtain ⟨held, hkeeps⟩ := hlawful.keeps t
  obtain ⟨-, hdoes⟩ := does_of_step hstep
  have hothers : ∀ u, u ≠ t → (IsIn next u q ↔ IsIn s u q) := by
    intro u hu
    rw [IsIn, IsIn, hdoes.point_of_ne hu]
  cases change_of_step hkeeps hstep q with
  | none hmem hsame =>
      have hiff : ∀ u, IsIn next u q ↔ IsIn s u q := by
        intro u
        by_cases hu : u = t
        · subst hu
          exact hsame
        · exact hothers u hu
      rw [hmem, hlawful.flags q]
      exact exists_congr fun u => (hiff u).symm
  | enters hmem hin =>
      constructor
      · intro _
        exact ⟨t, hin⟩
      · intro _
        exact hmem
  | leaves hmem hbefore hout =>
      -- The car was alone in the square.
      constructor
      · intro hlocked
        rw [hmem] at hlocked
        cases hlocked
      · intro ⟨u, hin⟩
        by_cases hu : u = t
        · subst hu
          exact absurd hin hout
        · exact absurd (hlawful.alone ((hothers u hu).mp hin) hbefore) hu

theorem Lawful.run (hlawful : Lawful s) (hstep : step code t s = some next) :
    Lawful next := by
  obtain ⟨-, hdoes⟩ := does_of_step hstep
  constructor
  case keeps =>
    intro u
    obtain ⟨held, hkeeps⟩ := hlawful.keeps u
    by_cases hu : u = t
    · subst hu
      exact keeps_of_step hkeeps hstep
    · refine ⟨held, ?_, ?_, ?_⟩
      · rw [hdoes.point_of_ne hu]
        exact hkeeps.rest
      · rw [hdoes.point_of_ne hu]
        exact hkeeps.inside
      · intro q hmem
        exact hdoes.holds_of_ne hu (hkeeps.holds q hmem)
  case flags => exact hlawful.flags_step hstep

theorem Lawful.step (hlawful : Lawful s) (hstep : Step code s next) : Lawful next := by
  cases hstep with
  | run t hstep => exact hlawful.run hstep
  | spurious t hsleep =>
      constructor
      case keeps =>
        intro u
        obtain ⟨held, hkeeps⟩ := hlawful.keeps u
        exact ⟨held, hkeeps.rest, hkeeps.inside, hkeeps.holds⟩
      case flags => exact hlawful.flags

end Steps

theorem lawful_createcars (cars : Tid → Option (Direction × Turn)) :
    Lawful (createcars cars) := by
  have hinside : ∀ t, ((createcars cars).point t).inside = [] := by
    intro t
    simp only [createcars]
    split <;> rfl
  constructor
  case keeps =>
    intro t
    refine ⟨[], ?_, ?_, ?_⟩
    · simp only [createcars]
      split
      · exact disciplined_approachintersection _ _
      · rfl
    · rw [hinside]
      exact List.nil_subset _
    · intro q hmem
      cases hmem
  case flags =>
    intro q
    constructor
    · intro hlocked
      cases hlocked
    · intro ⟨t, hin⟩
      rw [IsIn, hinside] at hin
      cases hin

theorem Reachable.lawful {cars : Tid → Option (Direction × Turn)} {s : Intersection}
    (hreach : Reachable cars s) : Lawful s := by
  induction hreach with
  | refl => exact lawful_createcars cars
  | tail _ hstep ih => exact ih.step hstep

/-- No two cars are in one square, and the flag of a square is set exactly
while a car is in it. -/
theorem squares_exclusive {cars : Tid → Option (Direction × Turn)} {s : Intersection}
    (hreach : Reachable cars s) :
    (∀ t u q, IsIn s t q → IsIn s u q → t = u) ∧
    (∀ q, s.mem (.square q) = true ↔ ∃ t, IsIn s t q) := by
  have hlawful := hreach.lawful
  constructor
  · intro t u q ht hu
    exact hlawful.alone ht hu
  · exact hlawful.flags

/-- Cars from the four directions, all going straight, and a fifth one. -/
def crossing : Tid → Option (Direction × Turn)
  | 0 => some (.N, .straight)
  | 1 => some (.E, .straight)
  | 2 => some (.W, .straight)
  | 3 => some (.S, .straight)
  | 4 => some (.N, .right)
  | _ => none

/-- The car from the north is in its two squares, and alone in the first. -/
theorem squares_exclusive_crossing :
    ∃ s : Intersection, Reachable crossing s ∧ IsIn s 0 .NW ∧ IsIn s 0 .SW ∧
      ∀ t, IsIn s t .NW → t = 0 := by
  have hfollow : follow code (List.replicate 15 0) (createcars crossing) =
      some ((follow code (List.replicate 15 0) (createcars crossing)).get rfl) :=
    rfl
  have hreach := steps_of_follow hfollow
  have hin : IsIn ((follow code (List.replicate 15 0) (createcars crossing)).get rfl) 0 .NW := by
    decide
  refine ⟨_, hreach, hin, by decide, ?_⟩
  intro t ht
  exact (squares_exclusive hreach).1 t 0 .NW ht hin

end OS161.Asst1.Stoplight
