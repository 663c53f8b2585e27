import Mathlib.Algebra.Group.Basic
import Mathlib.Algebra.Group.Int.Defs
import Mathlib.Algebra.Group.Pi.Basic
import Mathlib.Algebra.Ring.Int.Defs
import OS161.Data.Prog

namespace OS161.Data

/-! Programs that hand out what a ledger counts and take it back.  `owed` reads from
the state what is out under each key. -/

variable {owed : σ → κ → Int} {body : Prog ε π σ α} {first : Prog ε π σ β}
variable {ok : α → κ → Int} {err : κ → Int}

/-- The program changes what is owed by `ok` when it returns a value and by `err` when
it returns an error code. -/
def Moves (owed : σ → κ → Int) (body : Prog ε π σ α) (ok : α → κ → Int) (err : κ → Int) :
    Prop :=
  ∀ state, Prog.wp body (fun value next => owed next = owed state + ok value)
    (fun _ next => owed next = owed state + err) (fun _ => True) state

namespace Moves

theorem mono {ok' : α → κ → Int} {err' : κ → Int} (hbody : Moves owed body ok err)
    (hok : ∀ value, ok value = ok' value) (herr : err = err') : Moves owed body ok' err' := by
  obtain rfl : ok = ok' := funext hok
  rw [← herr]
  exact hbody

theorem pure {value : α} (hok : ok value = 0) :
    Moves owed (Pure.pure value : Prog ε π σ α) ok err := by
  intro state
  show owed state = owed state + ok value
  rw [hok, add_zero]

theorem fail {code : ε} (herr : err = 0) :
    Moves owed (Prog.fail code : Prog ε π σ α) ok err := by
  intro state
  show owed state = owed state + err
  rw [herr, add_zero]

theorem panic (reason : π) : Moves owed (Prog.panic reason : Prog ε π σ α) ok err :=
  fun _ => trivial

/-- What the first program handed out the rest starts with. -/
theorem bind {rest : β → Prog ε π σ α} {handed : β → κ → Int}
    (hfirst : Moves owed first handed err)
    (hrest : ∀ value, Moves owed (rest value) (fun value' => ok value' - handed value)
      (err - handed value)) : Moves owed (first >>= rest) ok err := by
  intro state
  rw [Prog.wp_bind]
  refine Prog.wp_mono (hfirst state) ?_ (fun _ _ h => h) (fun _ h => h)
  intro value next hnext
  refine Prog.wp_mono (hrest value next) ?_ ?_ (fun _ h => h)
  · intro value' last hlast
    rw [hlast, hnext, add_assoc, add_sub_cancel]
  · intro code last hlast
    rw [hlast, hnext, add_assoc, add_sub_cancel]

theorem get : Moves owed (Prog.get : Prog ε π σ σ) (fun _ => 0) err := by
  intro state
  exact (add_zero _).symm

theorem modify {f : σ → σ} {ok : Unit → κ → Int}
    (hok : ∀ state, owed (f state) = owed state + ok ()) :
    Moves owed (Prog.modify f : Prog ε π σ Unit) ok err :=
  hok

theorem assert {condition : Prop} [Decidable condition] {reason : π} {ok : Unit → κ → Int}
    (hok : ok () = 0) :
    Moves owed (Prog.assert condition reason : Prog ε π σ Unit) ok err := by
  unfold Prog.assert
  split
  case isTrue => exact pure hok
  case isFalse => exact panic reason

/-- A test that may end the call. -/
theorem guard {condition : Prop} [Decidable condition] {code : ε} (herr : err = 0) :
    Moves owed (Prog.when condition (Prog.fail code) : Prog ε π σ Unit) (fun _ => 0) err := by
  unfold Prog.when
  split
  case isTrue => exact fail herr
  case isFalse => exact pure rfl

theorem attempt (hbody : Moves owed body ok err) :
    Moves owed (Prog.attempt body)
      (fun result => match result with
        | .ok value => ok value
        | .error _ => err) err' := by
  intro state
  rw [Prog.wp_attempt]
  exact hbody state

end Moves

end OS161.Data
