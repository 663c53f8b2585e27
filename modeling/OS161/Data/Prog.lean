import Mathlib.Algebra.Group.Int.Defs
import Mathlib.Algebra.Group.Nat.Defs

namespace OS161.Data

/-! Programs that read and write a state, may return an error code and may
stop the machine.  An error code does not undo the writes made before it. -/

inductive Result (ε π σ α : Type) where
  | ok (value : α) (state : σ)
  | error (code : ε) (state : σ)
  | panic (reason : π)
  deriving DecidableEq, Repr

namespace Result

/-- Every way the call can end satisfies the condition given for it. -/
def Sat (result : Result ε π σ α) (post : α → σ → Prop)
    (fail : ε → σ → Prop) (bad : π → Prop) : Prop :=
  match result with
  | .ok value state => post value state
  | .error code state => fail code state
  | .panic reason => bad reason

/-- The state a call leaves; `fallback` stands in where it stops. -/
def stateD (result : Result ε π σ α) (fallback : σ) : σ :=
  match result with
  | .ok _ state => state
  | .error _ state => state
  | .panic _ => fallback

/-- The value a call comes back with. -/
def returned (result : Result ε π σ α) : Option α :=
  match result with
  | .ok value _ => some value
  | .error _ _ => none
  | .panic _ => none

theorem eq_ok_of_returned {result : Result ε π σ α} (fallback : σ)
    (hvalue : result.returned = some value) :
    result = .ok value (result.stateD fallback) := by
  cases result with
  | ok value' state =>
      cases hvalue
      rfl
  | error code state => cases hvalue
  | panic reason => cases hvalue

/-- The error code a call fails with. -/
def failed (result : Result ε π σ α) : Option ε :=
  match result with
  | .ok _ _ => none
  | .error code _ => some code
  | .panic _ => none

theorem eq_error_of_failed {result : Result ε π σ α} (fallback : σ)
    (hcode : result.failed = some code) :
    result = .error code (result.stateD fallback) := by
  cases result with
  | ok value state => cases hcode
  | error code' state =>
      cases hcode
      rfl
  | panic reason => cases hcode

/-- Where a call stops the machine. -/
def stopped (result : Result ε π σ α) : Option π :=
  match result with
  | .ok _ _ => none
  | .error _ _ => none
  | .panic reason => some reason

theorem eq_panic_of_stopped {result : Result ε π σ α}
    (hstop : result.stopped = some reason) : result = .panic reason := by
  cases result with
  | ok value state => cases hstop
  | error code state => cases hstop
  | panic reason' =>
      cases hstop
      rfl

theorem Sat.mono {result : Result ε π σ α}
    {post post' : α → σ → Prop} {fail fail' : ε → σ → Prop}
    {bad bad' : π → Prop} (hsat : result.Sat post fail bad)
    (hpost : ∀ value state, post value state → post' value state)
    (hfail : ∀ code state, fail code state → fail' code state)
    (hbad : ∀ reason, bad reason → bad' reason) :
    result.Sat post' fail' bad' := by
  cases result with
  | ok value state => exact hpost value state hsat
  | error code state => exact hfail code state hsat
  | panic reason => exact hbad reason hsat

end Result

def Prog (ε π σ α : Type) := σ → Result ε π σ α

namespace Prog

def ret (value : α) : Prog ε π σ α := fun state => .ok value state

def andThen (first : Prog ε π σ α) (rest : α → Prog ε π σ β) :
    Prog ε π σ β := fun state =>
  match first state with
  | .ok value next => rest value next
  | .error code next => .error code next
  | .panic reason => .panic reason

instance : Monad (Prog ε π σ) where
  pure := ret
  bind := andThen

def read (f : σ → α) : Prog ε π σ α := fun state => .ok (f state) state

def get : Prog ε π σ σ := fun state => .ok state state

def modify (f : σ → σ) : Prog ε π σ Unit := fun state => .ok () (f state)

def fail (code : ε) : Prog ε π σ α := fun state => .error code state

def panic (reason : π) : Prog ε π σ α := fun _ => .panic reason

def assert (condition : Prop) [Decidable condition] (reason : π) :
    Prog ε π σ Unit :=
  if condition then ret () else panic reason

/-- An `if` without `else`. -/
def when (condition : Prop) [Decidable condition] (body : Prog ε π σ Unit) :
    Prog ε π σ Unit :=
  if condition then body else ret ()

/-- Hand the error code of a call to its caller as a value. -/
def attempt (body : Prog ε π σ α) : Prog ε π σ (Except ε α) := fun state =>
  match body state with
  | .ok value next => .ok (.ok value) next
  | .error code next => .ok (.error code) next
  | .panic reason => .panic reason

/-- Run a program on one part of a larger state. -/
def zoom (view : σ → τ) (set : σ → τ → σ) (body : Prog ε π τ α) :
    Prog ε π σ α := fun state =>
  match body (view state) with
  | .ok value part => .ok value (set state part)
  | .error code part => .error code (set state part)
  | .panic reason => .panic reason

/-- The same where the part has errors and stops of its own. -/
def embed (view : σ → τ) (set : σ → τ → σ) (error : ε' → ε) (stop : π' → π)
    (body : Prog ε' π' τ α) : Prog ε π σ α := fun state =>
  match body (view state) with
  | .ok value part => .ok value (set state part)
  | .error code part => .error (error code) (set state part)
  | .panic reason => .panic (stop reason)

/-- The loop `for (i = start; i < start + count; i++)` carrying a value. -/
def forFrom (body : Nat → β → Prog ε π σ β) :
    (count start : Nat) → β → Prog ε π σ β
  | 0, _, carried => ret carried
  | count + 1, start, carried =>
      andThen (body start carried) (forFrom body count (start + 1))

def wp (body : Prog ε π σ α) (post : α → σ → Prop)
    (fail : ε → σ → Prop) (bad : π → Prop) (state : σ) : Prop :=
  (body state).Sat post fail bad

section Rules

variable {post : α → σ → Prop} {fails : ε → σ → Prop} {bad : π → Prop}
variable {state : σ}

/-! The rules rewrite from the outside in, so that `simp` runs a program in
the order of its statements. -/

@[simp ↓] theorem wp_ret (value : α) :
    wp (ret value) post fails bad state ↔ post value state := Iff.rfl

@[simp ↓] theorem wp_pure (value : α) :
    wp (pure value) post fails bad state ↔ post value state := Iff.rfl

@[simp ↓] theorem wp_andThen (first : Prog ε π σ β)
    (rest : β → Prog ε π σ α) :
    wp (andThen first rest) post fails bad state ↔
      wp first (fun value next => wp (rest value) post fails bad next)
        fails bad state := by
  unfold wp andThen
  cases first state <;> rfl

@[simp ↓] theorem wp_bind (first : Prog ε π σ β) (rest : β → Prog ε π σ α) :
    wp (first >>= rest) post fails bad state ↔
      wp first (fun value next => wp (rest value) post fails bad next)
        fails bad state :=
  wp_andThen first rest

@[simp ↓] theorem wp_read (f : σ → α) :
    wp (read f) post fails bad state ↔ post (f state) state := Iff.rfl

@[simp ↓] theorem wp_get {post : σ → σ → Prop} :
    wp get post fails bad state ↔ post state state := Iff.rfl

@[simp ↓] theorem wp_modify {post : Unit → σ → Prop} (f : σ → σ) :
    wp (modify f) post fails bad state ↔ post () (f state) := Iff.rfl

@[simp ↓] theorem wp_fail (code : ε) :
    wp (fail code) post fails bad state ↔ fails code state := Iff.rfl

@[simp ↓] theorem wp_panic (reason : π) :
    wp (panic reason : Prog ε π σ α) post fails bad state ↔ bad reason :=
  Iff.rfl

@[simp ↓] theorem wp_ite (condition : Prop) [Decidable condition]
    (first second : Prog ε π σ α) :
    wp (if condition then first else second) post fails bad state ↔
      if condition then wp first post fails bad state
      else wp second post fails bad state := by
  split <;> rfl

@[simp ↓] theorem wp_assert {post : Unit → σ → Prop} (condition : Prop)
    [Decidable condition] (reason : π) :
    wp (assert condition reason) post fails bad state ↔
      if condition then post () state else bad reason :=
  wp_ite condition _ _

@[simp ↓] theorem wp_when {post : Unit → σ → Prop} (condition : Prop)
    [Decidable condition] (body : Prog ε π σ Unit) :
    wp (when condition body) post fails bad state ↔
      if condition then wp body post fails bad state else post () state :=
  wp_ite condition _ _

@[simp ↓] theorem wp_attempt {post : Except ε α → σ → Prop}
    (body : Prog ε π σ α) :
    wp (attempt body) post fails bad state ↔
      wp body (fun value next => post (.ok value) next)
        (fun code next => post (.error code) next) bad state := by
  unfold wp attempt
  cases body state <;> rfl

@[simp ↓] theorem wp_zoom (view : σ → τ) (set : σ → τ → σ)
    (body : Prog ε π τ α) :
    wp (zoom view set body) post fails bad state ↔
      wp body (fun value part => post value (set state part))
        (fun code part => fails code (set state part)) bad (view state) := by
  unfold wp zoom
  cases body (view state) <;> rfl

@[simp ↓] theorem wp_embed (view : σ → τ) (set : σ → τ → σ) (error : ε' → ε) (stop : π' → π)
    (body : Prog ε' π' τ α) :
    wp (embed view set error stop body) post fails bad state ↔
      wp body (fun value part => post value (set state part))
        (fun code part => fails (error code) (set state part)) (fun reason => bad (stop reason))
        (view state) := by
  unfold wp embed
  cases body (view state) <;> rfl

theorem wp_mono {body : Prog ε π σ α}
    {post' : α → σ → Prop} {fails' : ε → σ → Prop} {bad' : π → Prop}
    (hbody : wp body post fails bad state)
    (hpost : ∀ value next, post value next → post' value next)
    (hfails : ∀ code next, fails code next → fails' code next)
    (hbad : ∀ reason, bad reason → bad' reason) :
    wp body post' fails' bad' state :=
  hbody.mono hpost hfails hbad

/-- Where a call comes back, it comes back as it does. -/
theorem wp_run (body : Prog ε π σ α) (state : σ) :
    wp body (fun value next => body state = .ok value next) (fun _ _ => True)
      (fun _ => True) state := by
  rw [wp]
  cases body state with
  | ok value next => rfl
  | error code next => trivial
  | panic reason => trivial

/-- A run ends in one of the three ways. -/
theorem not_wp_false (body : Prog ε π σ α) (state : σ) :
    ¬ wp body (fun _ _ => False) (fun _ _ => False) (fun _ => False) state := by
  rw [wp]
  cases body state with
  | ok value next => exact id
  | error code next => exact id
  | panic reason => exact id

theorem wp.post_of_ok {body : Prog ε π σ α} (hbody : wp body post fails bad state)
    (hok : body state = .ok value next) : post value next := by
  rw [wp, hok] at hbody
  exact hbody

theorem wp.fails_of_error {body : Prog ε π σ α} (hbody : wp body post fails bad state)
    (herror : body state = .error code next) : fails code next := by
  rw [wp, herror] at hbody
  exact hbody

theorem wp_and {body : Prog ε π σ α}
    {post' : α → σ → Prop} {fails' : ε → σ → Prop} {bad' : π → Prop}
    (hbody : wp body post fails bad state) (hbody' : wp body post' fails' bad' state) :
    wp body (fun value next => post value next ∧ post' value next)
      (fun code next => fails code next ∧ fails' code next)
      (fun reason => bad reason ∧ bad' reason) state := by
  unfold wp at hbody hbody' ⊢
  cases heq : body state with
  | ok value next =>
      rw [heq] at hbody hbody'
      exact ⟨hbody, hbody'⟩
  | error code next =>
      rw [heq] at hbody hbody'
      exact ⟨hbody, hbody'⟩
  | panic reason =>
      rw [heq] at hbody hbody'
      exact ⟨hbody, hbody'⟩

/-- A fact that an `if` without `else` leaves true on both ways. -/
theorem wp_when_of {post : Unit → σ → Prop} {condition : Prop} [Decidable condition]
    {body : Prog ε π σ Unit} (hbody : condition → wp body post fails bad state)
    (hskip : post () state) : wp (when condition body) post fails bad state := by
  rw [wp_when]
  split
  case isTrue htrue => exact hbody htrue
  case isFalse => exact hskip

/-- A fact that holds at every turn of a loop holds when the loop ends. -/
theorem wp_forFrom {body : Nat → β → Prog ε π σ β}
    (inv : Nat → β → σ → Prop)
    (hbody : ∀ i carried next, start ≤ i → i < start + count →
      inv i carried next →
      wp (body i carried) (inv (i + 1)) fails bad next)
    {carried : β} (hstart : inv start carried state) :
    wp (forFrom body count start carried) (inv (start + count))
      fails bad state := by
  induction count generalizing start carried state with
  | zero => simpa [forFrom] using hstart
  | succ count ih =>
      simp only [forFrom, wp_andThen]
      refine wp_mono (hbody start carried state (Nat.le_refl _) (by omega)
        hstart) ?_ (fun _ _ h => h) (fun _ h => h)
      intro value next hnext
      rw [show start + (count + 1) = start + 1 + count by omega]
      apply ih _ hnext
      intro i carried' next' hle hlt
      exact hbody i carried' next' (by omega) (by omega)

end Rules

/-- A program that comes back has come back from its first part. -/
theorem bind_eq_ok_iff {first : Prog ε π σ α} {rest : α → Prog ε π σ β} :
    (first >>= rest) state = .ok value final ↔
      ∃ mid next, first state = .ok mid next ∧ rest mid next = .ok value final := by
  simp only [Bind.bind, andThen]
  cases first state with
  | ok mid next =>
      constructor
      · intro hrest
        exact ⟨mid, next, rfl, hrest⟩
      · intro ⟨mid', next', heq, hrest⟩
        cases heq
        exact hrest
  | error code next => simp
  | panic reason => simp

theorem andThen_assoc (first : Prog ε π σ α) (next : α → Prog ε π σ β)
    (last : β → Prog ε π σ γ) :
    first >>= next >>= last = first >>= fun value => next value >>= last := by
  funext state
  simp only [Bind.bind, andThen]
  cases first state with
  | ok value mid => rfl
  | error code mid => rfl
  | panic reason => rfl

/-- Whenever the first program comes back with a value, the second does so with
the same value and state. -/
def Follows (body other : Prog ε π σ α) : Prop :=
  ∀ state value next, body state = .ok value next → other state = .ok value next

theorem Follows.refl (body : Prog ε π σ α) : body.Follows body :=
  fun _ _ _ h => h

theorem Follows.bind {first first' : Prog ε π σ α} {rest rest' : α → Prog ε π σ β}
    (hfirst : first.Follows first') (hrest : ∀ value, (rest value).Follows (rest' value)) :
    (first >>= rest).Follows (first' >>= rest') := by
  intro state value final hrun
  simp only [Bind.bind, andThen] at hrun ⊢
  cases hmid : first state with
  | ok mid next =>
      rw [hmid] at hrun
      rw [hfirst _ _ _ hmid]
      exact hrest mid _ _ _ hrun
  | error code next =>
      rw [hmid] at hrun
      cases hrun
  | panic reason =>
      rw [hmid] at hrun
      cases hrun

theorem Follows.zoom {body other : Prog ε π τ α} (hbody : body.Follows other)
    (view : σ → τ) (set : σ → τ → σ) :
    (Prog.zoom view set body).Follows (Prog.zoom view set other) := by
  intro state value final hrun
  simp only [Prog.zoom] at hrun ⊢
  cases hpart : body (view state) with
  | ok mid part =>
      rw [hpart] at hrun
      rw [hbody _ _ _ hpart]
      exact hrun
  | error code part =>
      rw [hpart] at hrun
      cases hrun
  | panic reason =>
      rw [hpart] at hrun
      cases hrun

theorem Follows.ite {first second first' second' : Prog ε π σ α} (condition : Prop)
    [Decidable condition] (hfirst : first.Follows first')
    (hsecond : second.Follows second') :
    (if condition then first else second).Follows
      (if condition then first' else second') := by
  split
  · exact hfirst
  · exact hsecond

/-- A fact that is true before the program is true when it comes back. -/
def Preserves (inv : σ → Prop) (body : Prog ε π σ α) : Prop :=
  ∀ state value next, inv state → body state = .ok value next → inv next

section Preserves

variable {inv : σ → Prop}

theorem Preserves.of_wp {body : Prog ε π σ α}
    (hbody : ∀ state, inv state → wp body (fun _ next => inv next) (fun _ _ => True)
      (fun _ => True) state) : Preserves inv body :=
  fun state _ _ hinv hrun => (hbody state hinv).post_of_ok hrun

theorem Preserves.wp {body : Prog ε π σ α} (hbody : Preserves inv body)
    (hinv : inv state) :
    wp body (fun _ next => inv next) (fun _ _ => True) (fun _ => True) state := by
  unfold Prog.wp
  cases hrun : body state with
  | ok value next => exact hbody _ _ _ hinv hrun
  | error code next => exact trivial
  | panic reason => exact trivial

theorem Preserves.bind {first : Prog ε π σ α} {rest : α → Prog ε π σ β}
    (hfirst : Preserves inv first) (hrest : ∀ value, Preserves inv (rest value)) :
    Preserves inv (first >>= rest) := by
  refine .of_wp fun state hinv => ?_
  rw [wp_bind]
  exact wp_mono (hfirst.wp hinv) (fun value _ hnext => (hrest value).wp hnext)
    (fun _ _ h => h) (fun _ h => h)

theorem Preserves.ite {first second : Prog ε π σ α} (condition : Prop)
    [Decidable condition] (hfirst : Preserves inv first)
    (hsecond : Preserves inv second) :
    Preserves inv (if condition then first else second) := by
  split
  · exact hfirst
  · exact hsecond

theorem Preserves.ret (value : α) : Preserves inv (Prog.ret value : Prog ε π σ α) :=
  .of_wp fun _ hinv => hinv

theorem Preserves.get : Preserves inv (Prog.get : Prog ε π σ σ) :=
  .of_wp fun _ hinv => hinv

theorem Preserves.read (f : σ → α) : Preserves inv (Prog.read f : Prog ε π σ α) :=
  .of_wp fun _ hinv => hinv

theorem Preserves.modify {f : σ → σ} (hf : ∀ state, inv state → inv (f state)) :
    Preserves inv (Prog.modify f : Prog ε π σ Unit) :=
  .of_wp hf

theorem Preserves.fail (code : ε) : Preserves inv (Prog.fail code : Prog ε π σ α) :=
  .of_wp fun _ _ => trivial

theorem Preserves.assert (condition : Prop) [Decidable condition] (reason : π) :
    Preserves inv (Prog.assert condition reason : Prog ε π σ Unit) := by
  refine .of_wp fun state hinv => ?_
  rw [wp_assert]
  split
  · exact hinv
  · exact trivial

theorem Preserves.when (condition : Prop) [Decidable condition] {body : Prog ε π σ Unit}
    (hbody : Preserves inv body) : Preserves inv (Prog.when condition body) :=
  .of_wp fun _ hinv => wp_when_of (fun _ => hbody.wp hinv) hinv

theorem Preserves.zoom {body : Prog ε π τ α} (view : σ → τ) {set : σ → τ → σ}
    (hset : ∀ state part, inv state → inv (set state part)) :
    Preserves inv (Prog.zoom view set body) := by
  intro state value next hinv hrun
  simp only [Prog.zoom] at hrun
  cases hpart : body (view state) with
  | ok mid part =>
      rw [hpart] at hrun
      cases hrun
      exact hset state part hinv
  | error code part =>
      rw [hpart] at hrun
      cases hrun
  | panic reason =>
      rw [hpart] at hrun
      cases hrun

theorem Preserves.panic (reason : π) :
    Preserves inv (Prog.panic reason : Prog ε π σ α) :=
  .of_wp fun _ _ => trivial

theorem Preserves.forFrom {body : Nat → β → Prog ε π σ β}
    (hbody : ∀ i carried, Preserves inv (body i carried)) (count start : Nat) (carried : β) :
    Preserves inv (Prog.forFrom body count start carried) := by
  refine .of_wp fun state hinv => ?_
  refine wp_forFrom (fun _ _ next => inv next) ?_ hinv
  intro i carried next _ _ hnext
  exact (hbody i carried).wp hnext

end Preserves

/-- The call comes back with a value: no error code and no stop. -/
abbrev Returns (body : Prog ε π σ α) (post : α → σ → Prop) (state : σ) : Prop :=
  wp body post (fun _ _ => False) (fun _ => False) state

/-- The call comes back with a value exactly if `room` is true. -/
abbrev ReturnsIff (body : Prog ε π σ α) (room : Prop) (state : σ) : Prop :=
  wp body (fun _ _ => room) (fun _ _ => ¬room) (fun _ => ¬room) state

theorem ReturnsIff.exists_ok_iff {body : Prog ε π σ α} {room : Prop}
    (hbody : ReturnsIff body room state) :
    (∃ value next, body state = .ok value next) ↔ room := by
  unfold ReturnsIff wp at hbody
  cases heq : body state with
  | ok value next =>
      rw [heq] at hbody
      exact ⟨fun _ => hbody, fun _ => ⟨value, next, rfl⟩⟩
  | error code next =>
      rw [heq] at hbody
      refine ⟨?_, fun h => absurd h hbody⟩
      rintro ⟨value, next', hok⟩
      cases hok
  | panic reason =>
      rw [heq] at hbody
      refine ⟨?_, fun h => absurd h hbody⟩
      rintro ⟨value, next', hok⟩
      cases hok

theorem ReturnsIff.exists_unit_iff {body : Prog ε π σ Unit} {room : Prop}
    (hbody : ReturnsIff body room state) :
    (∃ next, body state = .ok () next) ↔ room := by
  rw [← hbody.exists_ok_iff]
  exact ⟨fun ⟨next, hok⟩ => ⟨(), next, hok⟩, fun ⟨_, next, hok⟩ => ⟨next, hok⟩⟩

theorem Returns.mono {body : Prog ε π σ α} {post post' : α → σ → Prop}
    (hbody : Returns body post state)
    (hpost : ∀ value next, post value next → post' value next) :
    Returns body post' state :=
  wp_mono hbody hpost (fun _ _ h => h) (fun _ h => h)

theorem Returns.exists_ok {body : Prog ε π σ α} {post : α → σ → Prop}
    (hbody : Returns body post state) :
    ∃ value next, body state = .ok value next ∧ post value next := by
  unfold Returns wp at hbody
  cases heq : body state with
  | ok value next =>
      rw [heq] at hbody
      exact ⟨value, next, rfl, hbody⟩
  | error code next => simp [heq, Result.Sat] at hbody
  | panic reason => simp [heq, Result.Sat] at hbody

theorem Returns.post_of_ok {body : Prog ε π σ α} {post : α → σ → Prop}
    (hbody : Returns body post state) (hok : body state = .ok value next) :
    post value next := by
  obtain ⟨value', next', heq, hpost⟩ := hbody.exists_ok
  rw [hok] at heq
  cases heq
  exact hpost

end Prog

end OS161.Data
