import Mathlib.Data.Nat.Count
import Mathlib.Logic.Relation

namespace OS161.Data

/-! A list read out of numbered cells, a search in any order, a count where one place
changes, and facts kept along a run. -/

theorem filterMap_range_eq {cell : Nat → Option α} {values : List α}
    (hcells : ∀ i (h : i < values.length), cell i = some values[i]) :
    (List.range values.length).filterMap cell = values := by
  induction values generalizing cell with
  | nil => rfl
  | cons head tail ih =>
      have hhead : cell 0 = some head := hcells 0 (by simp)
      have htail : (List.range tail.length).filterMap (cell ∘ Nat.succ) =
          tail := by
        apply ih
        intro i hi
        exact hcells (i + 1) (by simpa using hi)
      rw [List.length_cons, List.range_succ_eq_map,
        List.filterMap_cons_some hhead, List.filterMap_map, htail]

/-- A count before and after the change of one place. -/
theorem count_change {p q : Nat → Prop} [DecidablePred p] [DecidablePred q]
    (hsame : ∀ i, i ≠ place → (q i ↔ p i)) (hplace : place < m) :
    Nat.count q m + (if p place then 1 else 0) = Nat.count p m + (if q place then 1 else 0) := by
  induction m with
  | zero => exact absurd hplace (Nat.not_lt_zero place)
  | succ m ih =>
      rw [Nat.count_succ, Nat.count_succ]
      by_cases hlast : place = m
      · have hbefore : Nat.count q m = Nat.count p m := by
          rw [Nat.count_eq_card_filter_range, Nat.count_eq_card_filter_range]
          congr 1
          apply Finset.filter_congr
          intro i hi
          have hlt := Finset.mem_range.mp hi
          exact hsame i (by omega)
        rw [hlast, hbefore]
        omega
      · have hother : (if q m then 1 else 0) = if p m then 1 else 0 :=
          if_congr (hsame m (Ne.symm hlast)) rfl rfl
        have hrest := ih (by omega)
        omega

/-- A fact that every step keeps holds at the end of every run. -/
theorem invariant_of_steps {step : σ → σ → Prop} (inv : σ → Prop)
    {start finish : σ} (hrun : Relation.ReflTransGen step start finish)
    (hstart : inv start)
    (hstep : ∀ before next, inv before → step before next → inv next) :
    inv finish := by
  induction hrun with
  | refl => exact hstart
  | tail _ hlast ih => exact hstep _ _ ih hlast

end OS161.Data
