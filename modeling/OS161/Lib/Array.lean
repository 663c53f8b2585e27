import Mathlib.Logic.Function.Basic
import OS161.Data.Prog
import OS161.Data.Seq
import OS161.Kern.Base

namespace OS161.Lib

open OS161.Data
open OS161.Kern

/-! The growable pointer array of `kern/lib/array.c`.  A cell that was never
written holds `none`; `v` is `none` while the C pointer is `NULL`. -/

structure KArray (α : Type) where
  num : Nat
  max : Nat
  v : Option (Nat → Option α)

namespace KArray

abbrev Op (α β : Type) := Prog Errno Fault (KArray α) β

def arrayCreate : KArray α where
  num := 0
  max := 0
  v := none

def cell (a : KArray α) (index : Nat) : Option α :=
  a.v.bind fun cells => cells index

def arrayGetnum : Op α Nat := Prog.read num

def arrayGetguy (index : Nat) : Op α α := do
  let a ← Prog.get
  Prog.assert (a.num ≤ a.max) .arrayGetguy
  Prog.assert (index < a.num) .arrayGetguy
  match a.cell index with
  | some guy => pure guy
  | none => Prog.panic .uninitialised

/-- `while (nguys > newmax) newmax = (newmax+1)*2;`  One turn adds at least
two, so `nguys` turns are enough. -/
def growMax (nguys : Nat) : (turns newmax : Nat) → Nat
  | 0, newmax => newmax
  | turns + 1, newmax =>
      if nguys > newmax then growMax nguys turns ((newmax + 1) * 2)
      else newmax

/-- `mem` says whether `kmalloc` finds memory for the new cells. -/
def arrayPreallocate (mem : Bool) (nguys : Nat) : Op α Unit := do
  let a ← Prog.get
  Prog.assert (a.num ≤ a.max) .arrayPreallocate
  if mem then
    Prog.modify fun a => {
      a with
      max := growMax nguys nguys a.max
      v := some fun i => if i < a.num then a.cell i else none }
  else
    Prog.fail .ENOMEM

def arraySetsize (mem : Bool) (nguys : Nat) : Op α Unit := do
  let a ← Prog.get
  Prog.assert (a.num ≤ a.max) .arraySetsize
  if nguys > a.max then
    arrayPreallocate mem nguys
  else if nguys = 0 ∧ a.max > 16 then
    Prog.assert (a.v.isSome = true) .arraySetsize
    Prog.modify fun a => { a with v := none, max := 0 }
  else
    pure ()
  Prog.modify fun a => { a with num := nguys }

def writeCell (index : Nat) (guy : α) : Op α Unit := do
  let a ← Prog.get
  match a.v with
  | some cells =>
      Prog.modify fun a => {
        a with v := some (Function.update cells index (some guy)) }
  | none => Prog.panic .uninitialised

def arraySetguy (index : Nat) (guy : α) : Op α Unit := do
  let a ← Prog.get
  Prog.assert (a.num ≤ a.max) .arraySetguy
  Prog.assert (index < a.num) .arraySetguy
  writeCell index guy

def arrayAdd (mem : Bool) (guy : α) : Op α Unit := do
  let ix ← arrayGetnum
  arraySetsize mem (ix + 1)
  writeCell ix guy

/-- The `memmove` pulls every later cell one place down. -/
def arrayRemove (index : Nat) : Op α Unit := do
  let a ← Prog.get
  Prog.assert (a.num ≤ a.max) .arrayRemove
  Prog.assert (index < a.num) .arrayRemove
  Prog.modify fun a => {
    a with
    num := a.num - 1
    v := a.v.map fun cells i =>
      if index ≤ i ∧ i < a.num - 1 then cells (i + 1) else cells i }

/-! The array as the list of its first `num` cells. -/

structure Rep (a : KArray α) (guys : List α) : Prop where
  num_eq : a.num = guys.length
  num_le_max : a.num ≤ a.max
  cells : 0 < a.max → a.v.isSome = true
  guys_eq : ∀ i (h : i < guys.length), a.cell i = some guys[i]

def contents (a : KArray α) : List α :=
  (List.range a.num).filterMap a.cell

theorem Rep.contents_eq {a : KArray α} (hrep : Rep a guys) :
    a.contents = guys := by
  rw [contents, hrep.num_eq]
  exact filterMap_range_eq hrep.guys_eq

theorem arrayCreate_rep : Rep (arrayCreate : KArray α) [] where
  num_eq := rfl
  num_le_max := Nat.le_refl _
  cells := by simp [arrayCreate]
  guys_eq := by simp

theorem le_growMax (nguys turns newmax : Nat) :
    newmax ≤ growMax nguys turns newmax := by
  induction turns generalizing newmax with
  | zero => exact Nat.le_refl _
  | succ turns ih =>
      simp only [growMax]
      split
      · have := ih ((newmax + 1) * 2)
        omega
      · exact Nat.le_refl _

theorem nguys_le_growMax (nguys turns newmax : Nat)
    (hturns : nguys ≤ newmax + turns) :
    nguys ≤ growMax nguys turns newmax := by
  induction turns generalizing newmax with
  | zero => simpa [growMax] using hturns
  | succ turns ih =>
      simp only [growMax]
      split
      · exact ih ((newmax + 1) * 2) (by omega)
      · omega

/-! Growing needs memory, and only `array_setsize(a, 0)` gives cells back. -/

theorem arrayPreallocate_follows (mem : Bool) (nguys : Nat) :
    (arrayPreallocate mem nguys : Op α Unit).Follows (arrayPreallocate true nguys) := by
  cases mem with
  | true => exact .refl _
  | false =>
      refine .bind (.refl _) fun _ => .bind (.refl _) fun _ => ?_
      intro a value next hrun
      cases hrun

theorem arraySetsize_follows (mem : Bool) (nguys : Nat) :
    (arraySetsize mem nguys : Op α Unit).Follows (arraySetsize true nguys) :=
  .bind (.refl _) fun _ => .bind (.refl _) fun _ =>
    .ite _ (.bind (arrayPreallocate_follows mem nguys) fun _ => .refl _) (.refl _)

theorem arrayAdd_follows (mem : Bool) (guy : α) :
    (arrayAdd mem guy).Follows (arrayAdd true guy) :=
  .bind (.refl _) fun _ => .bind (arraySetsize_follows mem _) fun _ => .refl _

theorem le_max_arrayPreallocate (mem : Bool) (nguys : Nat) (a : KArray α) :
    (arrayPreallocate mem nguys).wp
      (fun _ b => a.max ≤ b.max ∧ b.max = growMax nguys nguys a.max ∧ b.num = a.num)
      (fun _ _ => True) (fun _ => True) a := by
  simp only [arrayPreallocate, ↓Prog.wp_bind, ↓Prog.wp_get, ↓Prog.wp_assert,
    ↓Prog.wp_ite, ↓Prog.wp_modify, ↓Prog.wp_fail]
  split
  case isTrue =>
    split
    case isTrue => exact ⟨le_growMax nguys nguys a.max, trivial, trivial⟩
    case isFalse => exact trivial
  case isFalse => exact trivial

theorem le_max_writeCell (index : Nat) (guy : α) (a : KArray α) :
    (writeCell index guy).wp (fun _ b => a.max ≤ b.max)
      (fun _ _ => True) (fun _ => True) a := by
  simp only [writeCell, ↓Prog.wp_bind, ↓Prog.wp_get]
  split
  case h_1 => exact Nat.le_refl _
  case h_2 => exact trivial

theorem le_max_arrayAdd (mem : Bool) (guy : α) (a : KArray α) :
    (arrayAdd mem guy).wp (fun _ b => a.max ≤ b.max)
      (fun _ _ => True) (fun _ => True) a := by
  simp only [arrayAdd, arrayGetnum, arraySetsize, ↓Prog.wp_bind, ↓Prog.wp_read,
    ↓Prog.wp_get, ↓Prog.wp_assert, ↓Prog.wp_ite, ↓Prog.wp_modify]
  split
  case isFalse => exact trivial
  case isTrue =>
    split
    case isTrue =>
      refine Prog.wp_mono (le_max_arrayPreallocate mem _ a) ?_ (fun _ _ h => h)
        (fun _ h => h)
      intro _ b hb
      refine Prog.wp_mono (le_max_writeCell _ guy _) ?_ (fun _ _ h => h) (fun _ h => h)
      intro _ final hfinal
      exact Nat.le_trans hb.1 hfinal
    case isFalse =>
      rw [if_neg (by omega)]
      exact le_max_writeCell _ guy _

section Specs

variable {a : KArray α} {guys : List α} {fails : Errno → KArray α → Prop}
variable {bad : Fault → Prop}

theorem Rep.arrayGetguy (hrep : Rep a guys) {i : Nat} (hi : i < guys.length) :
    (KArray.arrayGetguy i).wp (fun guy b => guy = guys[i] ∧ b = a)
      fails bad a := by
  have hcell := hrep.guys_eq i hi
  have hnum := hrep.num_eq
  have hmax := hrep.num_le_max
  rw [hnum] at hmax
  simp [KArray.arrayGetguy, hnum, hi, hcell, hmax]

theorem Rep.arrayPreallocate (hrep : Rep a guys) (nguys : Nat) :
    (KArray.arrayPreallocate true nguys).wp
      (fun _ b => Rep b guys ∧ nguys ≤ b.max) fails bad a := by
  have hgrow := nguys_le_growMax nguys nguys a.max (by omega)
  have hle := le_growMax nguys nguys a.max
  have hmax := hrep.num_le_max
  simp only [KArray.arrayPreallocate, ↓Prog.wp_bind, ↓Prog.wp_get,
    ↓Prog.wp_assert, if_true, ↓Prog.wp_modify, if_pos hmax]
  refine ⟨⟨hrep.num_eq, Nat.le_trans hmax hle, by simp, ?_⟩, hgrow⟩
  intro i hi
  have hi' : i < a.num := hrep.num_eq ▸ hi
  simpa [cell, hi'] using hrep.guys_eq i hi

theorem Rep.writeCell (hrep : Rep a guys) (guy : α)
    (hroom : guys.length < a.max) :
    (KArray.writeCell guys.length guy).wp (fun _ b => Rep b (guys ++ [guy]))
      fails bad { a with num := guys.length + 1 } := by
  obtain ⟨cells, hcells⟩ :=
    Option.isSome_iff_exists.mp (hrep.cells (by omega))
  simp only [KArray.writeCell, ↓Prog.wp_bind, ↓Prog.wp_get, hcells,
    ↓Prog.wp_modify]
  refine ⟨by simp, hroom, by simp, ?_⟩
  intro i hi
  by_cases hlast : i = guys.length
  · subst hlast
    simp [cell]
  · have hi' : i < guys.length := by simp at hi; omega
    have hold := hrep.guys_eq i hi'
    simp only [cell, hcells, Option.bind_some] at hold
    simp [cell, hlast, hold, List.getElem_append_left hi']

theorem Rep.arrayAdd (hrep : Rep a guys) (guy : α) :
    (KArray.arrayAdd true guy).wp (fun _ b => Rep b (guys ++ [guy]))
      fails bad a := by
  have hnum := hrep.num_eq
  have hmax := hrep.num_le_max
  simp only [KArray.arrayAdd, arrayGetnum, KArray.arraySetsize, ↓Prog.wp_bind,
    ↓Prog.wp_read, ↓Prog.wp_get, ↓Prog.wp_assert, ↓Prog.wp_ite, ↓Prog.wp_modify,
    if_pos hmax]
  split
  · refine Prog.wp_mono (hrep.arrayPreallocate _) ?_ (fun _ _ h => h)
      (fun _ h => h)
    rintro _ b ⟨hb, hbmax⟩
    rw [hnum]
    exact hb.writeCell guy (by omega)
  · rw [if_neg (by omega), hnum]
    exact hrep.writeCell guy (by omega)

/-- Without memory the insertion works exactly while a cell is to spare. -/
theorem Rep.arrayAdd_starved (hrep : Rep a guys) (guy : α) :
    (KArray.arrayAdd false guy).wp
      (fun _ b => Rep b (guys ++ [guy]) ∧ guys.length < a.max)
      (fun _ _ => guys.length = a.max) bad a := by
  have hnum := hrep.num_eq
  have hmax := hrep.num_le_max
  simp only [KArray.arrayAdd, arrayGetnum, KArray.arraySetsize,
    KArray.arrayPreallocate, ↓Prog.wp_bind, ↓Prog.wp_read, ↓Prog.wp_get,
    ↓Prog.wp_assert, ↓Prog.wp_ite, ↓Prog.wp_modify, if_pos hmax,
    Bool.false_eq_true, if_false, ↓Prog.wp_fail]
  split
  case isTrue hfull => omega
  case isFalse hfull =>
    rw [if_neg (by omega), hnum]
    have hroom : guys.length < a.max := by omega
    exact Prog.wp_mono (hrep.writeCell guy hroom) (fun _ _ hb => ⟨hb, hroom⟩)
      (fun _ _ h => h) (fun _ h => h)

theorem Rep.arrayRemove (hrep : Rep a guys) {i : Nat} (hi : i < guys.length) :
    (KArray.arrayRemove i).wp (fun _ b => Rep b (guys.eraseIdx i))
      fails bad a := by
  have hnum := hrep.num_eq
  have hmax := hrep.num_le_max
  have hia : i < a.num := hnum ▸ hi
  obtain ⟨cells, hcells⟩ :=
    Option.isSome_iff_exists.mp (hrep.cells (by omega))
  simp only [KArray.arrayRemove, ↓Prog.wp_bind, ↓Prog.wp_get,
    ↓Prog.wp_assert, ↓Prog.wp_modify, if_pos hmax, if_pos hia]
  refine ⟨by simp [List.length_eraseIdx, hi, hnum], by simp; omega,
    by simp [hcells], ?_⟩
  intro k hk
  have hk' : k < guys.length - 1 := by
    simpa [List.length_eraseIdx, hi] using hk
  have hold : ∀ j (hj : j < guys.length), cells j = some guys[j] := by
    intro j hj
    simpa [cell, hcells] using hrep.guys_eq j hj
  rw [List.getElem_eraseIdx]
  by_cases hlt : k < i
  · have : ¬ i ≤ k := by omega
    simp [cell, hcells, hlt, this, hold k (by omega)]
  · have hik : i ≤ k := by omega
    have hkn : k < a.num - 1 := by omega
    simp [cell, hcells, hlt, hik, hkn, hold (k + 1) (by omega)]

/-- `array_setsize(a, 0)`, the only shrinking call in the kernel. -/
theorem Rep.arraySetsize_zero (hrep : Rep a guys) (mem : Bool) :
    (KArray.arraySetsize mem 0).wp (fun _ b => Rep b []) fails bad a := by
  have hmax := hrep.num_le_max
  simp only [KArray.arraySetsize, ↓Prog.wp_bind, ↓Prog.wp_get,
    ↓Prog.wp_assert, ↓Prog.wp_ite, ↓Prog.wp_modify, if_pos hmax]
  rw [if_neg (by omega)]
  split
  case isTrue hbig =>
    rw [if_pos (hrep.cells (by omega))]
    exact ⟨rfl, Nat.le_refl _, by simp, by simp⟩
  case isFalse =>
    exact ⟨rfl, Nat.zero_le _, hrep.cells, by simp⟩

end Specs

end KArray

end OS161.Lib
