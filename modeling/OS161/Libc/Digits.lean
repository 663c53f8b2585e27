import Mathlib.Data.List.TakeWhile
import OS161.Data.Numeral
import OS161.Libc.Printf

namespace OS161.Libc

open OS161.Data

/-! The digits that `__pf_printnum` puts together in its buffer. -/

/-- The digits of a number as characters. -/
def digitText (base n : Nat) : List Byte := (numeral base n).map fun d => digits.getD d 0

theorem length_digitText (base n : Nat) : (digitText base n).length = (numeral base n).length :=
  List.length_map _

theorem digitText_of_lt (hn : n < base) : digitText base n = [digits.getD n 0] := by
  rw [digitText, numeral_of_lt hn]
  rfl

theorem digitText_of_ge (hbase : 1 < base) (hn : base ≤ n) :
    digitText base n = digitText base (n / base) ++ [digits.getD (n % base) 0] := by
  rw [digitText, numeral_of_ge hbase hn, List.map_append]
  rfl

theorem digit_ne_zero (hd : d < 16) : digits.getD d 0 ≠ 0 := by
  have hall : ∀ d < 16, digits.getD d 0 ≠ 0 := by decide
  exact hall d hd

theorem digitText_noNul (hbase : 1 < base) (hbase16 : base ≤ 16) (n : Nat) :
    0 ∉ digitText base n := by
  intro hzero
  obtain ⟨d, hd, hchar⟩ := List.mem_map.mp hzero
  have hlt := numeral_digit_lt hbase hd
  exact digit_ne_zero (by omega) hchar

/-- The loop fills the slots from the right, and stops at the first digit. -/
theorem putDigits_eq (hbase : 1 < base) (hfits : (numeral base n).length ≤ left) (buf : Bytes) :
    putDigits base left n buf =
      some (left - (numeral base n).length,
        buf.splice (left - (numeral base n).length) (digitText base n)) := by
  induction left generalizing n buf with
  | zero =>
      have hnil := List.eq_nil_of_length_eq_zero (Nat.le_zero.mp hfits)
      exact absurd hnil (numeral_ne_nil hbase n)
  | succ left ih =>
      rw [putDigits, Bytes.update_eq_splice]
      rcases Nat.lt_or_ge n base with hlt | hge
      · have hdone : ¬ n / base > 0 := by
          rw [Nat.div_eq_of_lt hlt]
          exact Nat.lt_irrefl 0
        rw [if_neg hdone, Nat.mod_eq_of_lt hlt, numeral_of_lt hlt, digitText_of_lt hlt]
        rfl
      · have hmore : n / base > 0 := Nat.div_pos hge (by omega)
        rw [numeral_of_ge hbase hge, List.length_append, List.length_singleton] at hfits ⊢
        have hslots : left + 1 - ((numeral base (n / base)).length + 1) =
            left - (numeral base (n / base)).length := by omega
        have hsplice := Bytes.splice_before buf (left - (numeral base (n / base)).length)
          (digitText base (n / base)) [digits.getD (n % base) 0]
        rw [length_digitText, Nat.sub_add_cancel (by omega)] at hsplice
        rw [if_pos hmore, ih (by omega), hslots, digitText_of_ge hbase hge, hsplice]

theorem cstr_append_nul (hnonul : 0 ∉ s) (rest : List Byte) : cstr (s ++ 0 :: rest) = s := by
  rw [cstr, List.takeWhile_append_of_pos]
  · simp
  · intro c hc
    rw [decide_eq_true_eq]
    rintro rfl
    exact hnonul hc

theorem cstr_eq_self (hnonul : 0 ∉ s) : cstr s = s := by
  rw [cstr, List.takeWhile_eq_self_iff]
  intro c hc
  rw [decide_eq_true_eq]
  rintro rfl
  exact hnonul hc

/-- The digits fit in the buffer, with the NUL behind them. -/
theorem length_numeral_lt (hbase : 8 ≤ base) (hn : n < 2 ^ 32) :
    (numeral base n).length < NUMBER_BUF_SIZE := by
  have hlt : n < base ^ 11 := by
    calc n < 8 ^ 11 := by omega
      _ ≤ base ^ 11 := Nat.pow_le_pow_left hbase 11
  have hle := length_numeral_le (by omega : 1 < base) (by decide : 0 < 11) hlt
  exact Nat.lt_succ_of_le hle

theorem numberText_eq (hbase : 8 ≤ base) (hbase16 : base ≤ 16) (hn : n < 2 ^ 32)
    (buf : Bytes) : numberText base n buf = some (digitText base n) := by
  have hlt := length_numeral_lt hbase hn
  have hput := putDigits_eq (by omega : 1 < base)
    (Nat.le_sub_one_of_lt hlt : (numeral base n).length ≤ NUMBER_BUF_SIZE - 1)
    (Function.update buf (NUMBER_BUF_SIZE - 1) 0)
  have hlen := length_digitText base n
  have hplace : NUMBER_BUF_SIZE - 1 - (numeral base n).length + (digitText base n).length =
      NUMBER_BUF_SIZE - 1 := by omega
  have hbuf : Bytes.splice (Function.update buf (NUMBER_BUF_SIZE - 1) 0)
      (NUMBER_BUF_SIZE - 1 - (numeral base n).length) (digitText base n) =
      buf.splice (NUMBER_BUF_SIZE - 1 - (numeral base n).length)
        (digitText base n ++ [0]) := by
    rw [← Bytes.splice_before, hplace, Bytes.update_eq_splice]
  have hread := Bytes.slice_splice buf (NUMBER_BUF_SIZE - 1 - (numeral base n).length)
    (digitText base n ++ [0])
  rw [List.length_append, List.length_singleton, hlen] at hread
  have hrest : NUMBER_BUF_SIZE - (NUMBER_BUF_SIZE - 1 - (numeral base n).length) =
      (numeral base n).length + 1 := by omega
  simp only [numberText, Option.bind_eq_bind, Option.pure_def, hput, Option.bind_some, hbuf,
    hrest, hread]
  rw [cstr_append_nul (digitText_noNul (by omega) hbase16 n)]

end OS161.Libc
