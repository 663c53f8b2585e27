import Mathlib.Data.Nat.Digits.Lemmas

namespace OS161.Data

/-! Numbers written in a base, the highest digit first. -/

/-- The digits of a number; 0 has one. -/
def numeral (base n : Nat) : List Nat :=
  if n = 0 then [0] else (Nat.digits base n).reverse

/-- The number that digits denote. -/
def numeralValue (base : Nat) (ds : List Nat) : Nat :=
  ds.foldl (fun value d => value * base + d) 0

theorem numeralValue_concat (base : Nat) (ds : List Nat) (d : Nat) :
    numeralValue base (ds ++ [d]) = numeralValue base ds * base + d := by
  rw [numeralValue, List.foldl_append]
  rfl

theorem numeralValue_le_append (hbase : 0 < base) (ds ds' : List Nat) :
    numeralValue base ds ≤ numeralValue base (ds ++ ds') := by
  induction ds' using List.reverseRecOn with
  | nil => rw [List.append_nil]
  | append_singleton ds' d ih =>
      have hscale := Nat.le_mul_of_pos_right (numeralValue base (ds ++ ds')) hbase
      rw [← List.append_assoc, numeralValue_concat]
      omega

/-- Only zeros make 0. -/
theorem eq_zero_of_numeralValue (hbase : 0 < base) (hvalue : numeralValue base ds = 0)
    (hd : d ∈ ds) : d = 0 := by
  induction ds using List.reverseRecOn with
  | nil => cases hd
  | append_singleton ds last ih =>
      rw [numeralValue_concat] at hvalue
      obtain ⟨hfront, hlast⟩ := Nat.add_eq_zero_iff.mp hvalue
      rw [List.mem_append, List.mem_singleton] at hd
      rcases hd with hd | rfl
      · exact ih ((Nat.mul_eq_zero.mp hfront).resolve_right (Nat.ne_of_gt hbase)) hd
      · exact hlast

variable {base : Nat}

theorem numeral_of_lt (hn : n < base) : numeral base n = [n] := by
  unfold numeral
  split
  case isTrue hzero => rw [hzero]
  case isFalse hpos => rw [Nat.digits_of_lt base n hpos hn, List.reverse_singleton]

theorem numeral_of_ge (hbase : 1 < base) (hn : base ≤ n) :
    numeral base n = numeral base (n / base) ++ [n % base] := by
  have hquot : n / base ≠ 0 := Nat.ne_of_gt (Nat.div_pos hn (by omega))
  rw [numeral, if_neg (by omega), Nat.digits_def' hbase (by omega), List.reverse_cons, numeral,
    if_neg hquot]

theorem numeral_ne_nil (hbase : 1 < base) (n : Nat) : numeral base n ≠ [] := by
  rcases Nat.lt_or_ge n base with hlt | hge
  · rw [numeral_of_lt hlt]
    exact List.cons_ne_nil _ _
  · rw [numeral_of_ge hbase hge]
    exact List.append_ne_nil_of_right_ne_nil _ (List.cons_ne_nil _ _)

theorem numeralValue_numeral (hbase : 1 < base) (n : Nat) :
    numeralValue base (numeral base n) = n := by
  induction n using Nat.strongRecOn with
  | ind n ih =>
      rcases Nat.lt_or_ge n base with hlt | hge
      · rw [numeral_of_lt hlt]
        exact (congrArg (· + n) (Nat.zero_mul base)).trans (Nat.zero_add n)
      · rw [numeral_of_ge hbase hge, numeralValue_concat,
          ih (n / base) (Nat.div_lt_self (by omega) hbase)]
        exact Nat.div_add_mod' n base

theorem numeral_digit_lt (hbase : 1 < base) (hd : d ∈ numeral base n) : d < base := by
  unfold numeral at hd
  split at hd
  case isTrue =>
    rw [List.mem_singleton] at hd
    omega
  case isFalse => exact Nat.digits_lt_base hbase (List.mem_reverse.mp hd)

theorem length_numeral_le (hbase : 1 < base) (hk : 0 < k) (hn : n < base ^ k) :
    (numeral base n).length ≤ k := by
  unfold numeral
  split
  case isTrue => exact hk
  case isFalse =>
    rw [List.length_reverse]
    exact (Nat.digits_length_le_iff hbase n).mpr hn

/-- No digit could be left out at the front. -/
theorem numeral_head (hbase : 1 < base) (n : Nat) :
    numeral base n = [0] ∨ (numeral base n).head? ≠ some 0 := by
  rcases Nat.eq_zero_or_pos n with rfl | hpos
  · exact Or.inl (numeral_of_lt (by omega))
  · right
    have hne : Nat.digits base n ≠ [] := Nat.digits_ne_nil_iff_ne_zero.mpr (by omega)
    rw [numeral, if_neg (by omega), List.head?_reverse, List.getLast?_eq_getLast_of_ne_nil hne]
    intro hzero
    exact Nat.getLast_digit_ne_zero base (Nat.ne_of_gt hpos) (Option.some.inj hzero)

end OS161.Data
