import Mathlib.Data.Finset.Basic
import Mathlib.Data.Finset.Range
import OS161.Lib.Bitmap

namespace OS161.Lib.Bitmap

open OS161.Data
open OS161.Kern

/-! A bitmap as the set of the indices that are in use.  The sizes are in
`u_int32_t` arithmetic, which wraps around. -/

/-- `DIVROUNDUP(nbits, BITS_PER_WORD)`. -/
def divroundup (nbits : Nat) : Nat :=
  (nbits + 7) % 2 ^ 32 / 8

/-- The word that the loop over the leftover bits leaves behind. -/
def leftover (overbits : Nat) : BitVec 8 :=
  (List.range' overbits (8 - overbits)).foldl (fun word j => word ||| 1#8 <<< j) 0

/-- `bitmap_create`, which hands out nothing where an allocation fails. -/
def bitmapCreate32 (mem : Bool) (nbits : Nat) : Prog Errno Fault σ (Option Bitmap) := do
  let words := divroundup nbits
  if mem = false then
    pure none
  else if nbits / 8 < words then do
    let ix := words - 1
    let overbits := (nbits + 2 ^ 32 - ix * 8) % 2 ^ 32
    Prog.assert (nbits / 8 = words - 1) .bitmapCreateWords
    Prog.assert (0 < overbits ∧ overbits < 8) .bitmapCreateOverbits
    pure (some ⟨nbits, fun word => if word = ix then leftover overbits else 0⟩)
  else
    pure (some ⟨nbits, fun _ => 0⟩)

def bitmapAlloc32 : Op Nat := do
  let b ← Prog.get
  bitmapAllocFrom (divroundup b.nbits) 0

inductive Call where
  | alloc
  | mark (index : Nat)
  | unmark (index : Nat)
  deriving DecidableEq, Repr

/-- What a call hands back: an error code, or the index that was allocated. -/
abbrev Reply := Except Errno (Option Nat)

def Call.run : Call → Op Reply
  | .alloc => Prog.attempt do return some (← bitmapAlloc32)
  | .mark index => Prog.attempt do
      bitmapMark index
      return none
  | .unmark index => Prog.attempt do
      bitmapUnmark index
      return none

def runCalls : List Call → Op (List Reply)
  | [] => pure []
  | call :: rest => do
      let reply ← call.run
      let replies ← runCalls rest
      pure (reply :: replies)

/-! The set. -/

/-- The least index that is not in use. -/
def leastFree (nbits : Nat) (used : Finset Nat) : Option Nat :=
  (List.range nbits).find? fun index => decide (index ∉ used)

def Call.onSet (nbits : Nat) (used : Finset Nat) : Call → Reply × Finset Nat
  | .alloc =>
      match leastFree nbits used with
      | some index => (.ok (some index), insert index used)
      | none => (.error .ENOSPC, used)
  | .mark index => (.ok none, insert index used)
  | .unmark index => (.ok none, used.erase index)

/-- `bitmap_mark` is called on a clear index, `bitmap_unmark` on one in use. -/
def Call.Allowed (nbits : Nat) (used : Finset Nat) : Call → Prop
  | .alloc => True
  | .mark index => index < nbits ∧ index ∉ used
  | .unmark index => index < nbits ∧ index ∈ used

def onSetCalls (nbits : Nat) : List Call → Finset Nat → List Reply × Finset Nat
  | [], used => ([], used)
  | call :: rest, used =>
      let (reply, next) := call.onSet nbits used
      let (replies, final) := onSetCalls nbits rest next
      (reply :: replies, final)

def AllAllowed (nbits : Nat) : List Call → Finset Nat → Prop
  | [], _ => True
  | call :: rest, used =>
      call.Allowed nbits used ∧ AllAllowed nbits rest (call.onSet nbits used).2

instance Call.decidableAllowed (nbits : Nat) (used : Finset Nat) :
    (call : Call) → Decidable (call.Allowed nbits used)
  | .alloc => inferInstanceAs (Decidable True)
  | .mark index => inferInstanceAs (Decidable (index < nbits ∧ index ∉ used))
  | .unmark index => inferInstanceAs (Decidable (index < nbits ∧ index ∈ used))

instance decidableAllAllowed (nbits : Nat) :
    (calls : List Call) → (used : Finset Nat) → Decidable (AllAllowed nbits calls used)
  | [], _ => inferInstanceAs (Decidable True)
  | call :: rest, used =>
      @instDecidableAnd _ _ (Call.decidableAllowed nbits used call)
        (decidableAllAllowed nbits rest (call.onSet nbits used).2)

/-! The array and the set in step. -/

structure InStep (nbits : Nat) (used : Finset Nat) (b : Bitmap) : Prop where
  nbits_eq : b.nbits = nbits
  bounded : used ⊆ Finset.range nbits
  isset : ∀ index < nbits, (b.bitmapIsset index = true ↔ index ∈ used)
  padding : ∀ index, nbits ≤ index → index < divroundup nbits * 8 →
    b.bitmapIsset index = true

theorem divroundup_eq {nbits : Nat} (hnbits : nbits ≤ 2 ^ 32 - 8) :
    divroundup nbits = (nbits + 7) / 8 := by
  rw [divroundup, Nat.mod_eq_of_lt (by omega)]

theorem leftover_getLsbD : ∀ overbits < 8, ∀ j < 8,
    (leftover overbits).getLsbD j = decide (overbits ≤ j) := by
  decide

theorem leastFree_eq_some_iff {nbits : Nat} {used : Finset Nat} :
    leastFree nbits used = some index ↔
      index < nbits ∧ index ∉ used ∧ ∀ j < index, j ∈ used := by
  rw [leastFree, List.find?_range_eq_some]
  simp only [decide_eq_true_eq, List.mem_range, Bool.not_eq_true', decide_eq_false_iff_not,
    not_not]
  tauto

theorem leastFree_eq_none_iff {nbits : Nat} {used : Finset Nat} :
    leastFree nbits used = none ↔ ∀ index < nbits, index ∈ used := by
  rw [leastFree, List.find?_range_eq_none]
  simp

theorem bitmapCreate32_returns {nbits : Nat} (hnbits : nbits ≤ 2 ^ 32 - 8) (state : σ) :
    (bitmapCreate32 true nbits).Returns
      (fun made _ => ∃ b, made = some b ∧ InStep nbits ∅ b) state := by
  have hwords := divroundup_eq hnbits
  simp only [bitmapCreate32, Bool.true_eq_false, if_false, Prog.Returns, ↓Prog.wp_ite,
    ↓Prog.wp_bind, ↓Prog.wp_assert, ↓Prog.wp_pure]
  split
  case isTrue hrest =>
    have hover : (nbits + 2 ^ 32 - (divroundup nbits - 1) * 8) % 2 ^ 32 = nbits % 8 := by
      omega
    rw [if_pos (by omega), hover, if_pos (by omega)]
    have hlast (index : Nat) (hword : index / 8 = divroundup nbits - 1) :=
      leftover_getLsbD (nbits % 8) (by omega) (index % 8) (by omega)
    refine ⟨_, rfl, rfl, by simp, ?_, ?_⟩
    · intro index hindex
      rw [bitmapIsset_eq, BitWords.bit]
      dsimp only
      by_cases hword : index / 8 = divroundup nbits - 1
      · rw [if_pos hword, hlast index hword]
        simp only [decide_eq_true_eq, Finset.notMem_empty, iff_false]
        omega
      · rw [if_neg hword]
        simp
    · intro index hlow hhigh
      have hword : index / 8 = divroundup nbits - 1 := by omega
      rw [bitmapIsset_eq, BitWords.bit]
      dsimp only
      rw [if_pos hword, hlast index hword, decide_eq_true_eq]
      omega
  case isFalse hrest =>
    refine ⟨_, rfl, rfl, by simp, ?_, ?_⟩
    · intro index hindex
      simp [bitmapIsset]
    · intro index hlow hhigh
      omega

section Calls

variable {nbits : Nat} {used : Finset Nat} {b : Bitmap}

theorem InStep.mark (hstep : InStep nbits used b) (hindex : index < nbits) :
    InStep nbits (insert index used) (b.mark index) where
  nbits_eq := hstep.nbits_eq
  bounded := Finset.insert_subset (Finset.mem_range.mpr hindex) hstep.bounded
  isset j hj := by
    rw [isset_mark, Bool.or_eq_true, decide_eq_true_eq, hstep.isset j hj, Finset.mem_insert,
      or_comm]
  padding j hlow hhigh := by
    rw [isset_mark, hstep.padding j hlow hhigh, Bool.true_or]

theorem InStep.unmark (hstep : InStep nbits used b) (hindex : index < nbits) :
    InStep nbits (used.erase index) (b.unmark index) where
  nbits_eq := hstep.nbits_eq
  bounded := (Finset.erase_subset index used).trans hstep.bounded
  isset j hj := by
    rw [isset_unmark, Bool.and_eq_true, decide_eq_true_eq, hstep.isset j hj,
      Finset.mem_erase, and_comm]
  padding j hlow hhigh := by
    have hne : j ≠ index := by omega
    rw [isset_unmark, hstep.padding j hlow hhigh, Bool.true_and, decide_eq_true hne]

/-- The padding keeps the scan of `bitmap_alloc` below `nbits`. -/
theorem InStep.lowest_lt (hstep : InStep nbits used b) (hlowest : b.Lowest index)
    (hword : index < divroundup nbits * 8) : index < nbits := by
  by_contra hlarge
  have hset := hstep.padding index (by omega) hword
  rw [hlowest.clear] at hset
  cases hset

theorem InStep.leastFree (hstep : InStep nbits used b) (hlowest : b.Lowest index)
    (hindex : index < nbits) : Bitmap.leastFree nbits used = some index := by
  rw [leastFree_eq_some_iff]
  refine ⟨hindex, ?_, ?_⟩
  · intro hused
    have hset := (hstep.isset index hindex).mpr hused
    rw [hlowest.clear] at hset
    cases hset
  · intro j hj
    exact (hstep.isset j (by omega)).mp (hlowest.below j hj)

theorem InStep.alloc (hstep : InStep nbits used b) (hnbits : nbits ≤ 2 ^ 32 - 8) :
    Call.alloc.run.Returns
      (fun reply next => reply = (Call.alloc.onSet nbits used).1 ∧
        InStep nbits (Call.alloc.onSet nbits used).2 next) b := by
  have hwords : divroundup nbits = b.words := by
    rw [divroundup_eq hnbits, words, hstep.nbits_eq]
  have halloc := bitmapAlloc_wp b
  simp only [bitmapAlloc, ↓Prog.wp_bind, ↓Prog.wp_get] at halloc
  simp only [Call.run, bitmapAlloc32, Prog.Returns, ↓Prog.wp_attempt, ↓Prog.wp_bind,
    ↓Prog.wp_get, ↓Prog.wp_pure]
  rw [hstep.nbits_eq, hwords]
  refine Prog.wp_mono halloc ?_ ?_ ?_
  · rintro index next ⟨hlowest, hindex, rfl⟩
    rw [hstep.nbits_eq] at hindex
    rw [Call.onSet, hstep.leastFree hlowest hindex]
    exact ⟨rfl, hstep.mark hindex⟩
  · rintro code next ⟨rfl, rfl, hfull⟩
    have hnone : Bitmap.leastFree nbits used = none := by
      rw [leastFree_eq_none_iff]
      intro index hindex
      refine (hstep.isset index hindex).mp (hfull index ?_)
      rw [words, hstep.nbits_eq]
      omega
    rw [Call.onSet, hnone]
    exact ⟨rfl, hstep⟩
  · rintro reason ⟨-, index, hlowest, hlarge, hword⟩
    have hindex := hstep.lowest_lt hlowest (hwords ▸ hword)
    rw [hstep.nbits_eq] at hlarge
    omega

theorem InStep.call (hstep : InStep nbits used b) (hnbits : nbits ≤ 2 ^ 32 - 8)
    {call : Call} (hallowed : call.Allowed nbits used) :
    call.run.Returns
      (fun reply next => reply = (call.onSet nbits used).1 ∧
        InStep nbits (call.onSet nbits used).2 next) b := by
  cases call with
  | alloc => exact hstep.alloc hnbits
  | mark index =>
      obtain ⟨hindex, hclear⟩ := hallowed
      have hisset : b.bitmapIsset index = false := by
        rw [← Bool.not_eq_true, hstep.isset index hindex]
        exact hclear
      simp only [Call.run, Prog.Returns, ↓Prog.wp_attempt, ↓Prog.wp_bind, wp_bitmapMark,
        ↓Prog.wp_pure]
      rw [hstep.nbits_eq, if_pos hindex, if_pos hisset]
      exact ⟨rfl, hstep.mark hindex⟩
  | unmark index =>
      obtain ⟨hindex, hused⟩ := hallowed
      have hisset : b.bitmapIsset index = true := (hstep.isset index hindex).mpr hused
      simp only [Call.run, Prog.Returns, ↓Prog.wp_attempt, ↓Prog.wp_bind, wp_bitmapUnmark,
        ↓Prog.wp_pure]
      rw [hstep.nbits_eq, if_pos hindex, if_pos hisset]
      exact ⟨rfl, hstep.unmark hindex⟩

theorem InStep.runCalls (hstep : InStep nbits used b) (hnbits : nbits ≤ 2 ^ 32 - 8)
    {calls : List Call} (hallowed : AllAllowed nbits calls used) :
    (Bitmap.runCalls calls).Returns
      (fun replies next => replies = (onSetCalls nbits calls used).1 ∧
        InStep nbits (onSetCalls nbits calls used).2 next) b := by
  induction calls generalizing used b with
  | nil => exact ⟨rfl, hstep⟩
  | cons call rest ih =>
      simp only [Bitmap.runCalls, Prog.Returns, ↓Prog.wp_bind, ↓Prog.wp_pure]
      refine (hstep.call hnbits hallowed.1).mono ?_
      rintro reply mid ⟨rfl, hmid⟩
      refine (ih hmid hallowed.2).mono ?_
      rintro replies next ⟨rfl, hnext⟩
      exact ⟨rfl, hnext⟩

end Calls

/-- Any calls on a new bitmap answer as the set of the indices in use does, stop
at no assertion, and leave the bits past the end set. -/
theorem bitmap_refines_set {nbits : Nat} (hnbits : nbits ≤ 2 ^ 32 - 8) (calls : List Call)
    (hallowed : AllAllowed nbits calls ∅) :
    ∃ new final, bitmapCreate32 true nbits () = .ok (some new) () ∧
      runCalls calls new = .ok (onSetCalls nbits calls ∅).1 final ∧
      InStep nbits (onSetCalls nbits calls ∅).2 final := by
  obtain ⟨made, _, hcreate, new, rfl, hnew⟩ := (bitmapCreate32_returns hnbits ()).exists_ok
  obtain ⟨_, final, hrun, rfl, hfinal⟩ := (hnew.runCalls hnbits hallowed).exists_ok
  exact ⟨new, final, hcreate, hrun, hfinal⟩

/-- Three bits: the first is allocated, the second marked, and the third is the
next to be allocated; then the bitmap is full. -/
theorem bitmap_refines_set_three_bits :
    ∃ new final, bitmapCreate32 true 3 () = .ok (some new) () ∧
      runCalls [.alloc, .mark 1, .alloc, .alloc] new =
        .ok [.ok (some 0), .ok none, .ok (some 2), .error .ENOSPC] final ∧
      InStep 3 (insert 2 (insert 1 (insert 0 ∅))) final :=
  bitmap_refines_set (show 3 ≤ 2 ^ 32 - 8 by decide) [.alloc, .mark 1, .alloc, .alloc]
    (by decide)

end OS161.Lib.Bitmap
