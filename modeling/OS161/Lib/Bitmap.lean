import OS161.Data.BitWords
import OS161.Data.Prog
import OS161.Kern.Base

namespace OS161.Lib

open OS161.Data
open OS161.Kern

/-! The bit arrays of `kern/lib/bitmap.c`, whose words are single bytes. -/

structure Bitmap where
  nbits : Nat
  v : BitWords 8

namespace Bitmap

abbrev Op := Prog Errno Fault Bitmap

def words (b : Bitmap) : Nat := (b.nbits + 7) / 8

/-- Bits past the end that share the last word are marked in use. -/
def bitmapCreate (nbits : Nat) : Bitmap where
  nbits := nbits
  v ix :=
    if nbits / 8 < (nbits + 7) / 8 ∧ ix = (nbits + 7) / 8 - 1 then
      (List.range 8).foldl (fun word j =>
        if nbits - ix * 8 ≤ j then word ||| 1#8 <<< j else word) 0
    else 0

/-- The inner loop of `bitmap_alloc`. -/
def findOffset (word : BitVec 8) : (turns offset : Nat) → Option Nat
  | 0, _ => none
  | turns + 1, offset =>
      if word &&& 1#8 <<< offset = 0 then some offset
      else findOffset word turns (offset + 1)

def bitmapAllocFrom : (turns ix : Nat) → Op Nat
  | 0, _ => Prog.fail .ENOSPC
  | turns + 1, ix => do
      let b ← Prog.get
      if b.v ix = 0xff#8 then
        bitmapAllocFrom turns (ix + 1)
      else
        match findOffset (b.v ix) 8 0 with
        | none => Prog.panic .bitmapAllocFull
        | some offset => do
            Prog.modify fun b => { b with v := b.v.orMask ix offset }
            Prog.assert (ix * 8 + offset < b.nbits) .bitmapAllocRange
            pure (ix * 8 + offset)

def bitmapAlloc : Op Nat := do
  let b ← Prog.get
  bitmapAllocFrom b.words 0

def bitmapIsset (b : Bitmap) (index : Nat) : Bool :=
  b.v (index / 8) &&& 1#8 <<< (index % 8) ≠ 0

def bitmapMark (index : Nat) : Op Unit := do
  let b ← Prog.get
  Prog.assert (index < b.nbits) .bitmapMarkRange
  Prog.assert (b.v (index / 8) &&& 1#8 <<< (index % 8) = 0) .bitmapMarkSet
  Prog.modify fun b => { b with v := b.v.orMask (index / 8) (index % 8) }

def bitmapUnmark (index : Nat) : Op Unit := do
  let b ← Prog.get
  Prog.assert (index < b.nbits) .bitmapUnmarkRange
  Prog.assert (b.v (index / 8) &&& 1#8 <<< (index % 8) ≠ 0) .bitmapUnmarkClear
  Prog.modify fun b => { b with v := b.v.andNotMask (index / 8) (index % 8) }

/-! What the operations do to single bits. -/

variable {b : Bitmap}

theorem bitmapIsset_eq (b : Bitmap) (index : Nat) :
    b.bitmapIsset index = b.v.bit index := by
  have hmask := @and_mask_eq_zero 8 (b.v (index / 8)) (index % 8) (by omega)
  rw [bitmapIsset, BitWords.bit]
  simp only [ne_eq, hmask, Bool.not_eq_false, Bool.decide_eq_true]

theorem lastWord_clear : ∀ used < 8, ∀ j < used,
    ((List.range 8).foldl (fun word j => if used ≤ j then word ||| 1#8 <<< j else word)
      0).getLsbD j = false := by
  decide

/-- A new bitmap is clear up to its end. -/
theorem isset_bitmapCreate {size : Nat} (hlt : index < size) :
    (bitmapCreate size).bitmapIsset index = false := by
  rw [bitmapIsset_eq, BitWords.bit, bitmapCreate]
  dsimp only
  split
  case isTrue hlast =>
      obtain ⟨hrest, hix⟩ := hlast
      exact lastWord_clear (size - index / 8 * 8) (by omega) (index % 8) (by omega)
  case isFalse => simp

/-- The bitmap with one more bit set. -/
def mark (b : Bitmap) (index : Nat) : Bitmap :=
  { b with v := b.v.orMask (index / 8) (index % 8) }

/-- The bitmap with one bit cleared. -/
def unmark (b : Bitmap) (index : Nat) : Bitmap :=
  { b with v := b.v.andNotMask (index / 8) (index % 8) }

@[simp] theorem nbits_mark (index : Nat) : (b.mark index).nbits = b.nbits := rfl

@[simp] theorem nbits_unmark (index : Nat) : (b.unmark index).nbits = b.nbits := rfl

theorem isset_mark (index j : Nat) :
    (b.mark index).bitmapIsset j = (b.bitmapIsset j || decide (j = index)) := by
  have hplace : index / 8 * 8 + index % 8 = index := Nat.div_add_mod' index 8
  rw [bitmapIsset_eq, bitmapIsset_eq, mark,
    BitWords.bit_orMask _ (Nat.mod_lt _ (by decide)), hplace]

theorem isset_unmark (index j : Nat) :
    (b.unmark index).bitmapIsset j = (b.bitmapIsset j && decide (j ≠ index)) := by
  have hplace : index / 8 * 8 + index % 8 = index := Nat.div_add_mod' index 8
  rw [bitmapIsset_eq, bitmapIsset_eq, unmark,
    BitWords.bit_andNotMask _ (Nat.mod_lt _ (by decide)), hplace]

theorem wp_bitmapMark {post : Unit → Bitmap → Prop} {fails : Errno → Bitmap → Prop}
    {bad : Fault → Prop} (index : Nat) :
    Prog.wp (bitmapMark index) post fails bad b ↔
      if index < b.nbits then
        if b.bitmapIsset index = false then post () (b.mark index)
        else bad .bitmapMarkSet
      else bad .bitmapMarkRange := by
  simp [bitmapMark, bitmapIsset, mark]

theorem wp_bitmapUnmark {post : Unit → Bitmap → Prop}
    {fails : Errno → Bitmap → Prop} {bad : Fault → Prop} (index : Nat) :
    Prog.wp (bitmapUnmark index) post fails bad b ↔
      if index < b.nbits then
        if b.bitmapIsset index = true then post () (b.unmark index)
        else bad .bitmapUnmarkClear
      else bad .bitmapUnmarkRange := by
  simp [bitmapUnmark, bitmapIsset, unmark]

theorem findOffset_spec {word : BitVec 8} (hturns : offset + turns = 8)
    (hset : ∀ i < offset, word.getLsbD i = true) :
    (∃ found, findOffset word turns offset = some found ∧ found < 8 ∧
      word.getLsbD found = false ∧ ∀ i < found, word.getLsbD i = true) ∨
    word = 0xff#8 := by
  induction turns generalizing offset with
  | zero =>
      right
      apply eq_allOnes_of_getLsbD
      intro i hi
      exact hset i (by omega)
  | succ turns ih =>
      simp only [findOffset, and_mask_eq_zero (show offset < 8 by omega)]
      split
      case isTrue hclear => exact Or.inl ⟨offset, rfl, by omega, hclear, hset⟩
      case isFalse hused =>
          apply ih (by omega)
          intro i hi
          by_cases heq : i = offset
          · simpa [heq] using hused
          · exact hset i (by omega)

/-- `bitmap_alloc` takes the lowest clear bit. -/
structure Lowest (b : Bitmap) (index : Nat) : Prop where
  clear : b.bitmapIsset index = false
  below : ∀ j < index, b.bitmapIsset j = true

theorem bitmapAllocFrom_wp (hturns : ix + turns = b.words)
    (hset : ∀ j < ix * 8, b.bitmapIsset j = true) :
    Prog.wp (bitmapAllocFrom turns ix)
      (fun index b' => b.Lowest index ∧ index < b.nbits ∧ b' = b.mark index)
      (fun code b' => code = .ENOSPC ∧ b' = b ∧
        ∀ j < b.words * 8, b.bitmapIsset j = true)
      (fun reason => reason = .bitmapAllocRange ∧
        ∃ index, b.Lowest index ∧ b.nbits ≤ index ∧ index < b.words * 8) b := by
  induction turns generalizing ix with
  | zero =>
      obtain rfl : ix = b.words := by omega
      exact ⟨rfl, rfl, hset⟩
  | succ turns ih =>
      simp only [bitmapAllocFrom, ↓Prog.wp_bind, ↓Prog.wp_get, ↓Prog.wp_ite]
      have hword (j : Nat) (hj : j < 8) :
          b.bitmapIsset (ix * 8 + j) = (b.v ix).getLsbD j := by
        rw [bitmapIsset_eq, BitWords.bit_place _ hj]
      split
      case isTrue hfull =>
          apply ih (by omega)
          intro j hj
          by_cases hlow : j < ix * 8
          · exact hset j hlow
          · have heq : j = ix * 8 + (j - ix * 8) := by omega
            rw [heq, hword _ (by omega), hfull]
            exact (by decide : ∀ i < 8, (0xff#8).getLsbD i = true) _ (by omega)
      case isFalse hfull =>
          rcases @findOffset_spec 0 8 (b.v ix) rfl (by omega) with
            ⟨found, hfound, hlt, hclear, hbelow⟩ | hones
          · have hlowest : b.Lowest (ix * 8 + found) := by
              refine ⟨by rw [hword found hlt, hclear], ?_⟩
              intro j hj
              by_cases hlow : j < ix * 8
              · exact hset j hlow
              · have heq : j = ix * 8 + (j - ix * 8) := by omega
                rw [heq, hword _ (by omega)]
                exact hbelow _ (by omega)
            have hplace := (BitWords.place_eq_iff hlt ix _).mp rfl
            simp only [hfound, ↓Prog.wp_bind, ↓Prog.wp_modify, ↓Prog.wp_assert,
              ↓Prog.wp_pure]
            split
            case isTrue hrange =>
                refine ⟨hlowest, hrange, ?_⟩
                rw [mark, hplace.1, hplace.2]
            case isFalse hrange => exact ⟨trivial, _, hlowest, by omega, by omega⟩
          · exact absurd hones hfull

theorem bitmapAlloc_wp (b : Bitmap) :
    Prog.wp bitmapAlloc
      (fun index b' => b.Lowest index ∧ index < b.nbits ∧ b' = b.mark index)
      (fun code b' => code = .ENOSPC ∧ b' = b ∧
        ∀ j < b.words * 8, b.bitmapIsset j = true)
      (fun reason => reason = .bitmapAllocRange ∧
        ∃ index, b.Lowest index ∧ b.nbits ≤ index ∧ index < b.words * 8) b := by
  simp only [bitmapAlloc, ↓Prog.wp_bind, ↓Prog.wp_get]
  exact bitmapAllocFrom_wp (by omega) (by simp)

end Bitmap

end OS161.Lib
