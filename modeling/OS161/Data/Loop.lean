import OS161.Data.Prog

namespace OS161.Data

/-! A loop without a bound on its turns.  A turn hands back what it looked at and where the
next turn is, or `none` where the loop ends. -/

variable {ε π σ α ι : Type}

/-- How the loop ends with a turn that goes on to no other. -/
def Result.last : Result ε π σ (Option (α × ι)) → Option (Result ε π σ Unit)
  | .ok none state => some (.ok () state)
  | .ok (some _) _ => none
  | .error code state => some (.error code state)
  | .panic reason => some (.panic reason)

/-- The run of the loop from `i` on: what it has seen, and how it ends.  The turns are
numbered, and the next one is `turn`. -/
inductive Loop (body : Nat → ι → Prog ε π σ (Option (α × ι))) :
    (turn : Nat) → ι → σ → (seen : List α) → Result ε π σ Unit → Prop
  | ends (hturn : (body turn i state).last = some out) : Loop body turn i state [] out
  | again (hturn : body turn i state = .ok (some (a, j)) mid)
      (hrest : Loop body (turn + 1) j mid seen out) :
      Loop body turn i state (a :: seen) out

variable {body : Nat → ι → Prog ε π σ (Option (α × ι))}

/-- The body leaves no choice. -/
theorem Loop.unique (h : Loop body turn i state seen out)
    (h' : Loop body turn i state seen' out') : seen' = seen ∧ out' = out := by
  induction h generalizing seen' with
  | ends hturn =>
      cases h' with
      | ends hturn' =>
          rw [hturn] at hturn'
          cases hturn'
          exact ⟨rfl, rfl⟩
      | again hturn' =>
          rw [hturn'] at hturn
          cases hturn
  | again hturn _ ih =>
      cases h' with
      | ends hturn' =>
          rw [hturn] at hturn'
          cases hturn'
      | again hturn' hrest' =>
          rw [hturn] at hturn'
          cases hturn'
          obtain ⟨hseen, hout⟩ := ih hrest'
          exact ⟨by rw [hseen], hout⟩

end OS161.Data
