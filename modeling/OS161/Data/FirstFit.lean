import Mathlib.Order.Bounds.Basic

namespace OS161.Data

/-! First fit: the lowest run of free places of a given length, found in one pass that
counts the free places in a row. -/

/-- The `n` places from `s` on are free. -/
def FreeRun (free : Nat → Bool) (n s : Nat) : Prop := ∀ k, s ≤ k → k < s + n → free k = true

/-- `s` is where the lowest run of `n` free places below `top` begins. -/
def LowestRun (free : Nat → Bool) (n top s : Nat) : Prop :=
  IsLeast {s | s + n ≤ top ∧ FreeRun free n s} s

/-- The pass from `i` on: where it stops, and the free places it has counted in a row. -/
def scanRun (free : Nat → Bool) (n : Nat) : (turns i count : Nat) → Nat × Nat
  | 0, i, count => (i, count)
  | turns + 1, i, count =>
      if free i then
        if count + 1 = n then (i, count + 1) else scanRun free n turns (i + 1) (count + 1)
      else scanRun free n turns (i + 1) 0

variable {free : Nat → Bool} {n i count turns top s : Nat}

/-- What the pass knows at `i`: the last `count` places are free, and no run begins
before them. -/
structure Scanning (free : Nat → Bool) (n i count : Nat) : Prop where
  le : count ≤ i
  few : count < n
  clear : ∀ k, i - count ≤ k → k < i → free k = true
  later : ∀ s, FreeRun free n s → i - count ≤ s

theorem Scanning.taken (hscan : Scanning free n i count) (htaken : free i = false) :
    Scanning free n (i + 1) 0 where
  le := Nat.zero_le _
  few := Nat.lt_of_le_of_lt (Nat.zero_le _) hscan.few
  clear k hlow hhigh := by omega
  later s hrun := by
    have hge := hscan.later s hrun
    have hle := hscan.le
    have hfew := hscan.few
    by_contra hlt
    rw [hrun i (by omega) (by omega)] at htaken
    cases htaken

/-- The free place makes the row longer. -/
theorem Scanning.row (hscan : Scanning free n i count) (hfree : free i = true) :
    FreeRun free (count + 1) (i - count) := by
  intro k hlow hhigh
  have hle := hscan.le
  by_cases heq : k = i
  · rw [heq]
    exact hfree
  · exact hscan.clear k hlow (by omega)

theorem Scanning.found (hscan : Scanning free n i count) (hfree : free i = true)
    (hfew : count + 1 ≠ n) : Scanning free n (i + 1) (count + 1) where
  le := Nat.succ_le_succ hscan.le
  few := by
    have hlt := hscan.few
    omega
  clear k hlow hhigh := hscan.row hfree k (by omega) (by have hle := hscan.le; omega)
  later s hrun := by
    have hge := hscan.later s hrun
    omega

/-- The pass ends with `n` places in a row at the lowest run, and with fewer where there
is none. -/
theorem Scanning.scanRun (hscan : Scanning free n i count) :
    ((scanRun free n turns i count).2 = n ∧ n ≤ (scanRun free n turns i count).1 + 1 ∧
      LowestRun free n (i + turns) ((scanRun free n turns i count).1 + 1 - n)) ∨
    ((scanRun free n turns i count).2 ≠ n ∧
      ∀ s, s + n ≤ i + turns → ¬ FreeRun free n s) := by
  induction turns generalizing i count with
  | zero =>
      right
      have hle := hscan.le
      have hfew := hscan.few
      refine ⟨Nat.ne_of_lt hfew, ?_⟩
      intro s hs hrun
      have hge := hscan.later s hrun
      omega
  | succ turns ih =>
      rw [show i + (turns + 1) = i + 1 + turns by omega, OS161.Data.scanRun]
      cases hbit : free i with
      | false => exact ih (hscan.taken hbit)
      | true =>
          simp only [if_true]
          by_cases henough : count + 1 = n
          · left
            have hle := hscan.le
            have hstart : i + 1 - n = i - count := by omega
            have hrow := hscan.row hbit
            rw [henough] at hrow
            rw [if_pos henough, hstart]
            exact ⟨henough, by omega, ⟨by omega, hrow⟩, fun s hs => hscan.later s hs.2⟩
          · rw [if_neg henough]
            exact ih (hscan.found hbit henough)

/-- After a place that is not free, whatever was counted before it. -/
theorem scanning_after (hpos : 0 < n) (htaken : free 0 = false) : Scanning free n 1 0 where
  le := Nat.zero_le 1
  few := hpos
  clear k hlow hhigh := by omega
  later s hrun := by
    by_contra hlt
    rw [hrun 0 (by omega) (by omega)] at htaken
    cases htaken

end OS161.Data
