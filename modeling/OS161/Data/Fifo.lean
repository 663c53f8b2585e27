import Mathlib.Data.List.Infix

namespace OS161.Data

/-! A queue that is joined at the back and served from the front. -/

section

variable {α : Type} {before mid after arrived arrived' served served' front back : List α} {x : α}

/-- From one moment to a later one: who waited and who came is who was served and who waits. -/
def Serves (before arrived served after : List α) : Prop :=
  before ++ arrived = served ++ after

namespace Serves

theorem refl (before : List α) : Serves before [] [] before :=
  List.append_nil before

theorem join (before arrived : List α) : Serves before arrived [] (before ++ arrived) := rfl

theorem serve (x : α) (after : List α) : Serves (x :: after) [] [x] after :=
  List.append_nil (x :: after)

theorem trans (hfirst : Serves before arrived served mid) (hrest : Serves mid arrived' served' after) :
    Serves before (arrived ++ arrived') (served ++ served') after := by
  unfold Serves at hfirst hrest ⊢
  calc before ++ (arrived ++ arrived') = (before ++ arrived) ++ arrived' := by
        rw [List.append_assoc]
    _ = served ++ (mid ++ arrived') := by rw [hfirst, List.append_assoc]
    _ = (served ++ served') ++ after := by rw [hrest, List.append_assoc]

/-- Nobody overtakes: one that waits still waits, and only who stood before it was served, in
order; or it was served, right after them. -/
theorem waits_or_served (h : Serves (front ++ x :: back) arrived served after) :
    (∃ rest, front = served ++ rest ∧ after = rest ++ x :: (back ++ arrived)) ∨
      front ++ [x] <+: served := by
  have hsplit : front ++ (x :: (back ++ arrived)) = served ++ after := by
    rw [← h, List.append_assoc, List.cons_append]
  rcases List.append_eq_append_iff.mp hsplit with ⟨more, hserved, hmore⟩ | ⟨rest, hfront, hafter⟩
  · cases more with
    | nil =>
        refine .inl ⟨[], ?_, ?_⟩
        · simpa using hserved.symm
        · simpa using hmore.symm
    | cons y more =>
        injection hmore with hy _
        refine .inr ⟨more, ?_⟩
        rw [hserved, ← hy, List.append_assoc, List.singleton_append]
  · exact .inl ⟨rest, hfront, hafter⟩

/-- Who has not been served has fewer before it the more have been. -/
theorem length_le (h : Serves (front ++ x :: back) arrived served after)
    (hnot : ¬ front ++ [x] <+: served) : served.length ≤ front.length := by
  rcases h.waits_or_served with ⟨rest, hfront, -⟩ | hserved
  · rw [hfront, List.length_append]
    omega
  · exact absurd hserved hnot

end Serves

end

end OS161.Data
