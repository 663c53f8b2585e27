import OS161.Libc.Snprintf

namespace OS161.Libc

open OS161.Data
open OS161.Kern

/-! `atoi.c`, and that it reads back what `printf` prints. -/

/-- `"0123456789"`. -/
def decimalDigits : List Byte := [48, 49, 50, 51, 52, 53, 54, 55, 56, 57]

def isBlank (c : Byte) : Bool := c = 32 || c = 9

/-- The loop over the digits. -/
def accumulate : (s : List Byte) → (val : BitVec 32) → BitVec 32
  | [], val => val
  | c :: s, val =>
      if c = 0 then val
      else
        match strchr decimalDigits c with
        | none => val
        | some digit => accumulate s (val * 10 + BitVec.ofNat 32 digit)

def atoi (s : List Byte) : BitVec 32 :=
  let s := s.dropWhile isBlank
  if s.head? = some 45 then -accumulate s.tail 0
  else if s.head? = some 43 then accumulate s.tail 0
  else accumulate s 0

theorem strchr_decimal (hd : d < 10) :
    strchr decimalDigits (digits.getD d 0) = some d ∧ digits.getD d 0 ≠ 0 := by
  have hall : ∀ d < 10, strchr decimalDigits (digits.getD d 0) = some d ∧
      digits.getD d 0 ≠ 0 := by decide
  exact hall d hd

/-- Digits shift the number over, whatever it has come to. -/
theorem accumulate_digits {ds : List Nat} (hdigits : ∀ d ∈ ds, d < 10) (rest : List Byte) (v : Nat) :
    accumulate ((ds.map fun d => digits.getD d 0) ++ rest) (BitVec.ofNat 32 v) =
      accumulate rest (BitVec.ofNat 32 (ds.foldl (fun v d => v * 10 + d) v)) := by
  induction ds generalizing v with
  | nil => rfl
  | cons d ds ih =>
      obtain ⟨hfound, hne⟩ := strchr_decimal (hdigits d (List.mem_cons_self ..))
      have hval : BitVec.ofNat 32 v * 10 + BitVec.ofNat 32 d = BitVec.ofNat 32 (v * 10 + d) := by
        rw [BitVec.ofNat_add, BitVec.ofNat_mul]
        rfl
      rw [List.map_cons, List.cons_append, accumulate, if_neg hne, hfound]
      simp only [hval, List.foldl_cons]
      exact ih (fun d' hd' => hdigits d' (List.mem_cons_of_mem d hd')) _

theorem strchr_other : ∀ c : Byte, isDigit c = false →
    c = 0 ∨ strchr decimalDigits c = none := by
  decide

/-- Any other text ends the number. -/
theorem accumulate_end (hrest : ∀ c, rest.head? = some c → isDigit c = false)
    (val : BitVec 32) : accumulate rest val = val := by
  cases rest with
  | nil => rfl
  | cons c rest =>
      have hc := hrest c rfl
      rw [accumulate]
      rcases strchr_other c hc with hnul | hnone
      · rw [if_pos hnul]
      · rw [hnone]
        split <;> rfl

theorem accumulate_digitText (m : Nat) (hrest : ∀ c, rest.head? = some c → isDigit c = false) :
    accumulate (digitText 10 m ++ rest) 0 = BitVec.ofNat 32 m := by
  have hdigits := accumulate_digits (fun (d : Nat) (hd : d ∈ numeral 10 m) =>
    numeral_digit_lt (by decide) hd) rest 0
  rw [accumulate_end hrest] at hdigits
  rw [digitText]
  exact hdigits.trans (congrArg (BitVec.ofNat 32) (numeralValue_numeral (by decide) m))

/-- The first character of a number is a digit. -/
theorem digitText_head (m : Nat) (rest : List Byte) :
    ∃ d, d < 10 ∧ (digitText 10 m ++ rest).head? = some (digits.getD d 0) := by
  cases hnumeral : numeral 10 m with
  | nil => exact absurd hnumeral (numeral_ne_nil (by decide) m)
  | cons d ds =>
      have hd := numeral_digit_lt (by decide : 1 < 10) (hnumeral ▸ List.mem_cons_self ..)
      refine ⟨d, hd, ?_⟩
      rw [digitText, hnumeral]
      rfl

theorem digit_head {d : Nat} (hd : d < 10) : isBlank (digits.getD d 0) = false ∧
    digits.getD d 0 ≠ 45 ∧ digits.getD d 0 ≠ 43 := by
  have hall : ∀ d < 10, isBlank (digits.getD d 0) = false ∧ digits.getD d 0 ≠ 45 ∧
      digits.getD d 0 ≠ 43 := by decide
  exact hall d hd

/-- Blanks in front of something else are skipped. -/
theorem atoi_blanks (hblanks : ∀ c ∈ blanks, isBlank c = true) (s : List Byte) :
    atoi (blanks ++ s) = atoi s := by
  have hskip : (blanks ++ s).dropWhile isBlank = s.dropWhile isBlank :=
    List.dropWhile_append_of_pos hblanks
  rw [atoi, atoi, hskip]

theorem dropWhile_of_head {s : List Byte} (hhead : s.head? = some c) (hc : isBlank c = false) :
    s.dropWhile isBlank = s := by
  cases s with
  | nil => rfl
  | cons c' s =>
      obtain rfl : c' = c := Option.some.inj hhead
      exact List.dropWhile_cons_of_neg (by simp [hc])

theorem atoi_number (n : BitVec 32) (hrest : ∀ c, rest.head? = some c → isDigit c = false) :
    atoi (signText 100 n ++ digitText 10 (magnitude 100 n) ++ rest) = n := by
  obtain ⟨d, hd, hhead⟩ := digitText_head (magnitude 100 n) rest
  obtain ⟨hblank, hminus, hplus⟩ := digit_head hd
  by_cases hneg : n.toInt < 0
  · have hsign : signText 100 n = [45] := if_pos ⟨rfl, hneg⟩
    have hvalue : BitVec.ofNat 32 (magnitude 100 n) = -n := by
      rw [← PF.magnitude_neg hneg, BitVec.ofNat_toNat, BitVec.setWidth_eq]
    rw [hsign, List.append_assoc, List.singleton_append, atoi,
      dropWhile_of_head rfl (by decide), List.head?_cons, if_pos rfl, List.tail_cons,
      accumulate_digitText _ hrest, hvalue, BitVec.neg_neg]
  · have hsign : signText 100 n = [] := if_neg fun hboth => hneg hboth.2
    have hvalue : BitVec.ofNat 32 (magnitude 100 n) = n := by
      rw [← PF.magnitude_nonneg hneg, BitVec.ofNat_toNat, BitVec.setWidth_eq]
    rw [hsign, List.nil_append, atoi, dropWhile_of_head hhead hblank, hhead,
      if_neg (by simpa using hminus), if_neg (by simpa using hplus),
      accumulate_digitText _ hrest, hvalue]

/-- What `%d` prints. -/
theorem prints_decimal (n : BitVec 32) :
    Prints [37, 100] [.word n] (signText 100 n ++ digitText 10 (magnitude 100 n)) := by
  have hformats : Formats (37 :: ([] ++ 100 :: [])) [.word n] [.integer (Flags.of []) 100 n] :=
    Formats.integer (fun m hm => by cases hm) (by decide) (Formats.done [])
  have htext : (Piece.integer (Flags.of []) 100 n).text =
      signText 100 n ++ digitText 10 (magnitude 100 n) := by
    have hlayout : (Piece.integer (Flags.of []) 100 n).text =
        layout (Flags.of []) (signText 100 n ++ []) (digitText 10 (magnitude 100 n)) := rfl
    rw [hlayout, List.append_nil, layout_of_le (Nat.zero_le _)]
  have hlen : (signText 100 n ++ digitText 10 (magnitude 100 n)).length < 2 ^ 31 := by
    have hsign := PF.length_signText_le 100 n
    have hfits : _ < 12 := length_numeral_lt (by decide : 8 ≤ 10) (PF.magnitude_lt 100 n)
    rw [List.length_append, length_digitText]
    omega
  have hprints := hformats.prints (by simp [Piece.width, Flags.of, numeralValue])
    (by rw [List.flatMap_singleton, htext]; exact hlen)
  rw [List.flatMap_singleton] at hprints
  exact htext ▸ hprints

/-- The digits of a text, as the numbers that they stand for. -/
def digitValues (text : List Byte) : List Nat := text.map fun c => digits.idxOf c

theorem digitValues_digitText (hbase : 1 < base) (hbase16 : base ≤ 16) (n : Nat) :
    digitValues (digitText base n) = numeral base n := by
  have hall : ∀ d < 16, digits.idxOf (digits.getD d 0) = d := by decide
  rw [digitValues, digitText, List.map_map]
  refine (List.map_congr_left ?_).trans (List.map_id _)
  intro d hd
  have hlt := numeral_digit_lt hbase hd
  exact hall d (by omega)

theorem digitText_head_ne (hbase : 1 < base) (hbase16 : base ≤ 16)
    (hhead : (numeral base m).head? ≠ some 0) : (digitText base m).head? ≠ some 48 := by
  have hall : ∀ d < 16, digits.getD d 0 = 48 → d = 0 := by decide
  cases hnumeral : numeral base m with
  | nil => exact absurd hnumeral (numeral_ne_nil hbase m)
  | cons d ds =>
      have hd := numeral_digit_lt hbase (hnumeral ▸ List.mem_cons_self ..)
      rw [digitText, hnumeral, List.map_cons, List.head?_cons]
      intro hzero
      rw [hnumeral, List.head?_cons, hall d (by omega) (Option.some.inj hzero)] at hhead
      exact hhead rfl

/-- What `%d` prints is read back as the same number, with any blanks in front of it and
any text behind it that does not go on with a digit; and in every base the digits fit in
the buffer, none of them is left over, and they denote the number. -/
theorem decimal_round_trip (n : BitVec 32) (hblanks : ∀ c ∈ blanks, isBlank c = true)
    (hrest : ∀ c, rest.head? = some c → isDigit c = false)
    (hbase : base = 8 ∨ base = 10 ∨ base = 16) (hm : m < 2 ^ 32) (stack : Bytes) :
    (∃ text, Prints [37, 100] [.word n] text ∧ atoi (blanks ++ text ++ rest) = n) ∧
    ∃ text, numberText base m stack = some text ∧ text.length + 1 ≤ NUMBER_BUF_SIZE ∧
      (text = [48] ∨ text.head? ≠ some 48) ∧ numeralValue base (digitValues text) = m := by
  have hbounds : 8 ≤ base ∧ base ≤ 16 := by omega
  constructor
  · refine ⟨_, prints_decimal n, ?_⟩
    rw [List.append_assoc, atoi_blanks hblanks]
    exact atoi_number n hrest
  · refine ⟨_, numberText_eq hbounds.1 hbounds.2 hm stack, ?_, ?_, ?_⟩
    · rw [length_digitText]
      exact length_numeral_lt hbounds.1 hm
    · rcases numeral_head (by omega : 1 < base) m with hzero | hhead
      · left
        rw [digitText, hzero]
        rfl
      · exact Or.inr (digitText_head_ne (by omega) hbounds.2 hhead)
    · rw [digitValues_digitText (by omega) hbounds.2, numeralValue_numeral (by omega)]

/-- The least number there is, and the longest text. -/
theorem decimal_round_trip_least :
    (∃ text, Prints [37, 100] [.word (BitVec.intMin 32)] text ∧
      atoi ([32, 9] ++ text ++ [46, 53]) = BitVec.intMin 32) ∧
    ∃ text, numberText 8 (2 ^ 32 - 1) (fun _ => 7) = some text ∧
      text.length + 1 ≤ NUMBER_BUF_SIZE ∧ (text = [48] ∨ text.head? ≠ some 48) ∧
      numeralValue 8 (digitValues text) = 2 ^ 32 - 1 :=
  decimal_round_trip (BitVec.intMin 32) (by decide) (by intro c hc; cases hc; decide)
    (Or.inl rfl) (by decide) _

end OS161.Libc
