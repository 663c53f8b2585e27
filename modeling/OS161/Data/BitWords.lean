import Mathlib.Logic.Function.Basic

namespace OS161.Data

/-! Bits kept in an array of machine words, bit `j` at place `j % w` of word
`j / w`. -/

section Word

variable {w : Nat} {word : BitVec w}

theorem getLsbD_mask (hi : i < w) : (1#w <<< j).getLsbD i = decide (i = j) := by
  rw [BitVec.getLsbD_shiftLeft, BitVec.getLsbD_one, Bool.eq_iff_iff]
  simp
  omega

theorem and_mask_eq_zero (hj : j < w) :
    word &&& 1#w <<< j = 0 ↔ word.getLsbD j = false := by
  constructor
  · intro hzero
    have hget := congrArg (fun v : BitVec w => v.getLsbD j) hzero
    simpa [getLsbD_mask hj] using hget
  · intro hclear
    apply BitVec.eq_of_getLsbD_eq
    intro i hi
    by_cases heq : i = j
    · simp [heq, hclear]
    · simp [getLsbD_mask hi, heq]

theorem eq_allOnes_of_getLsbD (hset : ∀ i < w, word.getLsbD i = true) :
    word = BitVec.allOnes w := by
  apply BitVec.eq_of_getLsbD_eq
  intro i hi
  rw [hset i hi, BitVec.getLsbD_allOnes, decide_eq_true hi]

end Word

abbrev BitWords (w : Nat) := Nat → BitVec w

namespace BitWords

variable {w : Nat} (v : BitWords w)

def bit (j : Nat) : Bool := (v (j / w)).getLsbD (j % w)

def orMask (ix offset : Nat) : BitWords w :=
  Function.update v ix (v ix ||| 1#w <<< offset)

def andNotMask (ix offset : Nat) : BitWords w :=
  Function.update v ix (v ix &&& ~~~(1#w <<< offset))

theorem place_eq_iff (hoffset : offset < w) (ix j : Nat) :
    j = ix * w + offset ↔ j / w = ix ∧ j % w = offset := by
  have hw : 0 < w := by omega
  constructor
  · rintro rfl
    rw [Nat.mul_comm, Nat.mul_add_div hw, Nat.div_eq_of_lt hoffset, Nat.mul_add_mod,
      Nat.mod_eq_of_lt hoffset]
    exact ⟨rfl, rfl⟩
  · rintro ⟨rfl, rfl⟩
    exact (Nat.div_add_mod' j w).symm

theorem bit_place (hoffset : offset < w) (ix : Nat) :
    v.bit (ix * w + offset) = (v ix).getLsbD offset := by
  obtain ⟨hix, hoff⟩ := (place_eq_iff hoffset ix _).mp rfl
  rw [bit, hix, hoff]

theorem bit_orMask (hoffset : offset < w) (ix j : Nat) :
    (v.orMask ix offset).bit j = (v.bit j || decide (j = ix * w + offset)) := by
  have hj : j % w < w := Nat.mod_lt _ (by omega)
  simp only [place_eq_iff hoffset]
  by_cases hix : j / w = ix
  · simp [bit, orMask, hix, getLsbD_mask hj]
  · simp [bit, orMask, hix]

theorem bit_andNotMask (hoffset : offset < w) (ix j : Nat) :
    (v.andNotMask ix offset).bit j = (v.bit j && decide (j ≠ ix * w + offset)) := by
  have hj : j % w < w := Nat.mod_lt _ (by omega)
  simp only [ne_eq, place_eq_iff hoffset]
  by_cases hix : j / w = ix
  · simp only [bit, andNotMask, hix, Function.update_self, BitVec.getLsbD_and,
      BitVec.getLsbD_not, getLsbD_mask hj, decide_eq_true hj, Bool.true_and,
      true_and, decide_not]
  · simp [bit, andNotMask, hix]

end BitWords

end OS161.Data
