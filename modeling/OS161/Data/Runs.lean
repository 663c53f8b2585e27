import Mathlib.Logic.Relation

namespace OS161.Data

/-! Runs of a system whose calls are functions on its state. -/

section

variable {Call State : Type} {run : Call → State → Option State}
  {meets : Call → State → Prop} {s next : State}

/-- One call after the other, each of which meets the condition in the state it
is made in. -/
def Runs (run : Call → State → Option State) (meets : Call → State → Prop) :
    State → State → Prop :=
  Relation.ReflTransGen fun s next => ∃ call, meets call s ∧ run call s = some next

theorem Runs.refl (s : State) : Runs run meets s s := Relation.ReflTransGen.refl

theorem Runs.single (hmeets : meets call s) (hrun : run call s = some next) :
    Runs run meets s next :=
  Relation.ReflTransGen.single ⟨call, hmeets, hrun⟩

theorem Runs.trans (hfirst : Runs run meets s mid) (hrest : Runs run meets mid next) :
    Runs run meets s next :=
  Relation.ReflTransGen.trans hfirst hrest

/-- What each call preserves where it meets the condition, a run preserves. -/
theorem Runs.preserves {inv : State → Prop} (hruns : Runs run meets s next)
    (hstep : ∀ call s next, inv s → meets call s → run call s = some next → inv next)
    (hinv : inv s) : inv next := by
  induction hruns with
  | refl => exact hinv
  | tail _ hcall ih =>
      obtain ⟨call, hmeets, hrun⟩ := hcall
      exact hstep call _ _ ih hmeets hrun

/-- The calls one after the other; one that does not come back is passed
over. -/
def runAll (run : Call → State → Option State) : List Call → State → State
  | [], s => s
  | call :: rest, s => runAll run rest ((run call s).getD s)

def allMeet (run : Call → State → Option State) (meets : Call → State → Prop)
    [∀ call s, Decidable (meets call s)] : List Call → State → Bool
  | [], _ => true
  | call :: rest, s => decide (meets call s) && allMeet run meets rest ((run call s).getD s)

theorem runs_runAll [∀ call s, Decidable (meets call s)] (calls : List Call) (s : State)
    (hcalls : allMeet run meets calls s = true) : Runs run meets s (runAll run calls s) := by
  induction calls generalizing s with
  | nil => exact .refl s
  | cons call rest ih =>
      rw [allMeet, Bool.and_eq_true, decide_eq_true_eq] at hcalls
      have hfirst : Runs run meets s ((run call s).getD s) := by
        cases hrun : run call s with
        | none => exact .refl s
        | some next => exact .single hcalls.1 hrun
      exact hfirst.trans (ih _ hcalls.2)

/-- Where nothing is asked of the calls. -/
theorem runs_runAll_free (calls : List Call) (s : State) :
    Runs run (fun _ _ => True) s (runAll run calls s) := by
  induction calls generalizing s with
  | nil => exact .refl s
  | cons call rest ih =>
      have hfirst : Runs run (fun _ _ => True) s ((run call s).getD s) := by
        cases hrun : run call s with
        | none => exact .refl s
        | some next => exact .single trivial hrun
      exact hfirst.trans (ih _)

end

end OS161.Data
