import OS161.Data.Prog

namespace OS161.Data

/-! Two programs side by side, each on a state of its own. -/

/-- Both calls end in the same way, in states that stand in the relation. -/
inductive Result.Related (rel : σ → τ → Prop) : Result ε π σ α → Result ε π τ α → Prop
  | ok (value : α) (hrel : rel s t) : Related rel (.ok value s) (.ok value t)
  | error (code : ε) (hrel : rel s t) : Related rel (.error code s) (.error code t)
  | panic (reason : π) : Related rel (.panic reason) (.panic reason)

/-- The state that a call leaves, unless it stops the machine. -/
def Result.leaves : Result ε π σ α → Option σ
  | .ok _ s => some s
  | .error _ s => some s
  | .panic _ => none

theorem Result.Related.leaves {rel : σ → τ → Prop} {first : Result ε π σ α}
    {second : Result ε π τ α} (hrelated : Related rel first second)
    (hfirst : first.leaves = some s) (hsecond : second.leaves = some t) : rel s t := by
  cases hrelated with
  | ok value hrel =>
      cases hfirst
      cases hsecond
      exact hrel
  | error code hrel =>
      cases hfirst
      cases hsecond
      exact hrel
  | panic reason => cases hfirst

namespace Prog

theorem wp.leaves {body : Prog ε π σ α} {inv : σ → Prop} {bad : π → Prop}
    (hbody : wp body (fun _ next => inv next) (fun _ next => inv next) bad s)
    (hleaves : (body s).leaves = some next) : inv next := by
  unfold wp at hbody
  cases hrun : body s with
  | ok value final =>
      rw [hrun] at hbody hleaves
      cases hleaves
      exact hbody
  | error code final =>
      rw [hrun] at hbody hleaves
      cases hleaves
      exact hbody
  | panic reason =>
      rw [hrun] at hleaves
      cases hleaves

def Related (rel : σ → τ → Prop) (first : Prog ε π σ α) (second : Prog ε π τ α)
    (s : σ) (t : τ) : Prop :=
  (first s).Related rel (second t)

section Related

variable {rel : σ → τ → Prop} {s : σ} {t : τ}

theorem Related.pure (value : α) (hrel : rel s t) :
    Related rel (pure value : Prog ε π σ α) (pure value) s t :=
  .ok value hrel

theorem Related.fail (code : ε) (hrel : rel s t) :
    Related rel (fail code : Prog ε π σ α) (fail code) s t :=
  .error code hrel

theorem Related.modify (f : σ → σ) (f' : τ → τ) (hrel : rel (f s) (f' t)) :
    Related rel (modify f : Prog ε π σ Unit) (modify f') s t :=
  .ok () hrel

theorem Related.bind {first : Prog ε π σ α} {first' : Prog ε π τ α}
    {rest : α → Prog ε π σ β} {rest' : α → Prog ε π τ β}
    (hfirst : Related rel first first' s t)
    (hrest : ∀ value next next', first s = .ok value next → rel next next' →
      Related rel (rest value) (rest' value) next next') :
    Related rel (first >>= rest) (first' >>= rest') s t := by
  simp only [Related, Bind.bind, andThen] at hfirst ⊢
  generalize hs : first s = result, first' t = result' at hfirst
  cases hfirst with
  | ok value hrel => exact hrest value _ _ hs hrel
  | error code hrel => exact .error code hrel
  | panic reason => exact .panic reason

theorem Related.pure_bind (value : α) {rest : α → Prog ε π σ β} {rest' : α → Prog ε π τ β}
    (hrest : Related rel (rest value) (rest' value) s t) :
    Related rel (Pure.pure value >>= rest) (Pure.pure value >>= rest') s t :=
  hrest

/-- A program may look at its whole state. -/
theorem Related.get_bind {rest : σ → Prog ε π σ α} {rest' : τ → Prog ε π τ α}
    (hrest : Related rel (rest s) (rest' t) s t) :
    Related rel (get >>= rest) (get >>= rest') s t :=
  hrest

theorem Related.ite {first second : Prog ε π σ α} {first' second' : Prog ε π τ α}
    {condition condition' : Prop} [Decidable condition] [Decidable condition']
    (hiff : condition ↔ condition')
    (hfirst : condition → Related rel first first' s t)
    (hsecond : ¬condition → Related rel second second' s t) :
    Related rel (if condition then first else second)
      (if condition' then first' else second') s t := by
  by_cases htrue : condition
  · rw [if_pos htrue, if_pos (hiff.mp htrue)]
    exact hfirst htrue
  · rw [if_neg htrue, if_neg (htrue ∘ hiff.mpr)]
    exact hsecond htrue

theorem Related.attempt {body : Prog ε π σ α} {body' : Prog ε π τ α}
    (hbody : Related rel body body' s t) :
    Related rel (attempt body) (attempt body') s t := by
  simp only [Related, Prog.attempt] at hbody ⊢
  generalize body s = result, body' t = result' at hbody
  cases hbody with
  | ok value hrel => exact .ok (Except.ok value) hrel
  | error code hrel => exact .ok (Except.error code) hrel
  | panic reason => exact .panic reason

end Related

end Prog

end OS161.Data
