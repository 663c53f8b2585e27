import Mathlib.Data.List.Nodup
import Mathlib.Logic.Function.Basic

namespace OS161.Data

/-! Places that hold numbers, no number in two of them.  A place with 0 is empty. -/

variable {P : Type} {held held' : P → Nat} {fit fit' : P → Nat → Prop} {p : P} {b : Nat}

/-- Every number fits the place that holds it, and no other place holds it. -/
structure Holding (held : P → Nat) (fit : P → Nat → Prop) : Prop where
  fits : ∀ p, held p ≠ 0 → fit p (held p)
  apart : ∀ p q, held p = held q → held p ≠ 0 → p = q

namespace Holding

theorem mono (h : Holding held fit) (hfit : ∀ p, held p ≠ 0 → fit p (held p) → fit' p (held p)) :
    Holding held fit' :=
  ⟨fun p hp => hfit p hp (h.fits p hp), h.apart⟩

/-- All that is held is listed, and no number twice. -/
theorem of_list {l : List (P × Nat)} (hheld : ∀ p, held p ≠ 0 → (p, held p) ∈ l)
    (hnodup : (l.map Prod.snd).Nodup) (hfits : ∀ x ∈ l, fit x.1 x.2) : Holding held fit := by
  constructor
  · intro p hp
    exact hfits _ (hheld p hp)
  · intro p q hsame hp
    have hq : held q ≠ 0 := by
      rw [← hsame]
      exact hp
    have hboth := List.inj_on_of_nodup_map hnodup (hheld p hp) (hheld q hq) hsame
    exact congrArg Prod.fst hboth

variable [DecidableEq P]

/-- A number that no place holds goes into one. -/
theorem put (h : Holding held fit) (hfits : fit p b) (hfree : ∀ q, held q ≠ b) :
    Holding (Function.update held p b) fit := by
  constructor
  · intro q hq
    by_cases heq : q = p
    · rw [heq, Function.update_self]
      exact hfits
    · rw [Function.update_of_ne heq] at hq ⊢
      exact h.fits q hq
  · intro q r hsame hq
    by_cases hqp : q = p
    · by_cases hrp : r = p
      · rw [hqp, hrp]
      · rw [hqp, Function.update_self, Function.update_of_ne hrp] at hsame
        exact absurd hsame.symm (hfree r)
    · rw [Function.update_of_ne hqp] at hsame hq
      by_cases hrp : r = p
      · rw [hrp, Function.update_self] at hsame
        exact absurd hsame (hfree q)
      · rw [Function.update_of_ne hrp] at hsame
        exact h.apart q r hsame hq

/-- A place is emptied, and its number need not fit anywhere any more. -/
theorem drop (h : Holding held fit)
    (hfit : ∀ q, q ≠ p → held q ≠ 0 → held q ≠ held p → fit q (held q) → fit' q (held q)) :
    Holding (Function.update held p 0) fit' := by
  constructor
  · intro q hq
    by_cases heq : q = p
    · rw [heq, Function.update_self] at hq
      exact absurd rfl hq
    · rw [Function.update_of_ne heq] at hq ⊢
      refine hfit q heq hq ?_ (h.fits q hq)
      intro hsame
      exact heq (h.apart q p hsame hq)
  · intro q r hsame hq
    by_cases hqp : q = p
    · rw [hqp, Function.update_self] at hq
      exact absurd rfl hq
    · rw [Function.update_of_ne hqp] at hsame hq
      by_cases hrp : r = p
      · rw [hrp, Function.update_self] at hsame
        exact absurd hsame hq
      · rw [Function.update_of_ne hrp] at hsame
        exact h.apart q r hsame hq

end Holding

end OS161.Data
