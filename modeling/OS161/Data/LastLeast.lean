import Mathlib.Data.List.Range
import Mathlib.Order.Basic
import Mathlib.Order.Lattice

namespace OS161.Data

/-! The place with the least key among those that pass a test, the last one where
keys are equal, found in one pass that keeps the best place so far. -/

section

variable {α : Type} [LinearOrder α]

/-- No place that passes has a smaller key, and none with the same key comes
later. -/
structure LastLeast (test : Nat → Prop) (key : Nat → α) (i : Nat) : Prop where
  passes : test i
  least : ∀ j, test j → key i ≤ key j
  last : ∀ j, test j → key j ≤ key i → j ≤ i

variable {test : Nat → Prop} {key : Nat → α}

theorem LastLeast.unique (hi : LastLeast test key i) (hj : LastLeast test key j) : i = j :=
  Nat.le_antisymm (hj.last i hi.passes (hi.least j hj.passes))
    (hi.last j hj.passes (hj.least i hi.passes))

/-- One turn of the pass, with the least key so far and its place. -/
def keepLast (test : Nat → Prop) [DecidablePred test] (key : Nat → α) (carried : α × Nat)
    (i : Nat) : α × Nat :=
  if key i ≤ carried.1 ∧ test i then (key i, i) else carried

/-- What the pass knows once it has seen `count` places. -/
inductive Kept (test : Nat → Prop) (key : Nat → α) (start count : Nat) (carried : α × Nat) :
    α × Nat → Prop
  | nothing (hnone : ∀ j, start ≤ j → j < start + count → ¬ test j) :
      Kept test key start count carried carried
  | best {i : Nat} (hbest : LastLeast (fun j => start ≤ j ∧ j < start + count ∧ test j) key i) :
      Kept test key start count carried (key i, i)

variable [DecidablePred test] {carried seen : α × Nat}

theorem Kept.turn (h : Kept test key start count carried seen)
    (hbound : ∀ j, test j → key j ≤ carried.1) :
    Kept test key start (count + 1) carried (keepLast test key seen (start + count)) := by
  unfold keepLast
  cases h with
  | nothing hnone =>
      split
      case isTrue htake =>
        refine .best ⟨⟨by omega, by omega, htake.2⟩, ?_, ?_⟩
        · intro j hj
          obtain rfl : j = start + count := by
            by_contra hne
            exact hnone j hj.1 (by omega) hj.2.2
          exact le_refl _
        · intro j hj _
          omega
      case isFalse hleave =>
        refine .nothing ?_
        intro j hlow hhigh htest
        by_cases heq : j = start + count
        · subst heq
          exact hleave ⟨hbound _ htest, htest⟩
        · exact hnone j hlow (by omega) htest
  | @best i hbest =>
      split
      case isTrue htake =>
        refine .best ⟨⟨by omega, by omega, htake.2⟩, ?_, ?_⟩
        · intro j hj
          by_cases heq : j = start + count
          · rw [heq]
          · exact htake.1.trans (hbest.least j ⟨hj.1, by omega, hj.2.2⟩)
        · intro j hj _
          omega
      case isFalse hleave =>
        have hpasses := hbest.passes
        refine .best ⟨⟨hpasses.1, by omega, hpasses.2.2⟩, ?_, ?_⟩
        · intro j hj
          by_cases heq : j = start + count
          · subst heq
            exact le_of_not_ge fun hle => hleave ⟨hle, hj.2.2⟩
          · exact hbest.least j ⟨hj.1, by omega, hj.2.2⟩
        · intro j hj hle
          by_cases heq : j = start + count
          · subst heq
            exact (hleave ⟨hle, hj.2.2⟩).elim
          · exact hbest.last j ⟨hj.1, by omega, hj.2.2⟩ hle

theorem kept_foldl (hbound : ∀ j, test j → key j ≤ carried.1) (start count : Nat) :
    Kept test key start count carried
      ((List.range' start count).foldl (keepLast test key) carried) := by
  induction count with
  | zero =>
      refine .nothing ?_
      intro j hlow hhigh
      omega
  | succ count ih =>
      rw [List.range'_concat, List.foldl_append, Nat.one_mul]
      exact ih.turn hbound

/-- Where a place passes, the pass ends at the last of the least. -/
theorem foldl_keepLast_eq_iff (hbound : ∀ j, test j → key j ≤ carried.1)
    (hrange : ∀ j, test j → start ≤ j ∧ j < start + count) (hsome : test j) :
    ((List.range' start count).foldl (keepLast test key) carried).2 = i ↔
      LastLeast test key i := by
  have hsame : (fun j => start ≤ j ∧ j < start + count ∧ test j) = test := by
    funext j
    exact propext ⟨fun h => h.2.2, fun h => ⟨(hrange j h).1, (hrange j h).2, h⟩⟩
  have hkept : Kept test key start count carried _ := kept_foldl hbound start count
  generalize (List.range' start count).foldl (keepLast test key) carried = seen at hkept
  cases hkept with
  | nothing hnone => exact (hnone j (hrange j hsome).1 (hrange j hsome).2 hsome).elim
  | best hbest =>
      rw [hsame] at hbest
      constructor
      · rintro rfl
        exact hbest
      · exact hbest.unique

end

end OS161.Data
