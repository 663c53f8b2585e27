import OS161.Data.Runs
import OS161.Lib.Array

namespace OS161.Lib.KArray

open OS161.Data
open OS161.Kern

/-! The array under any calls, against a list some of whose elements may be unspecified. -/

inductive Call (α : Type) where
  | add (guy : α)
  | setguy (index : Nat) (guy : α)
  | remove (index : Nat)
  | setsize (nguys : Nat)
  | preallocate (nguys : Nat)
  deriving DecidableEq, Repr

namespace Call

/-- The call; `mem` says whether `kmalloc` finds memory in it. -/
def run (mem : Bool) : Call α → Op α Unit
  | .add guy => arrayAdd mem guy
  | .setguy index guy => arraySetguy index guy
  | .remove index => arrayRemove index
  | .setsize nguys => arraySetsize mem nguys
  | .preallocate nguys => arrayPreallocate mem nguys

/-- What it does to the list. An element that a larger size exposes is unspecified. -/
def applyTo : Call α → List (Option α) → List (Option α)
  | .add guy, l => l ++ [some guy]
  | .setguy index guy, l => l.set index (some guy)
  | .remove index, l => l.eraseIdx index
  | .setsize nguys, l => l.take nguys ++ List.replicate (nguys - l.length) none
  | .preallocate _, l => l

def InRange : Call α → List (Option α) → Prop
  | .add _, l => l.length + 1 < 2 ^ 29
  | .setguy index _, l => index < l.length
  | .remove index, l => index < l.length
  | .setsize nguys, _ => nguys < 2 ^ 29
  | .preallocate nguys, _ => nguys < 2 ^ 29

instance (call : Call α) (l : List (Option α)) : Decidable (call.InRange l) := by
  cases call <;> exact inferInstanceAs (Decidable (_ < _))

end Call

/-! The capacity. -/

/-- The capacities that there are: 0, 2, 6, 14 and so on. -/
structure Capacity (cap : Nat) : Prop where
  power : ∃ k, cap + 2 = 2 ^ (k + 1)
  bound : cap + 2 ≤ 2 ^ 30

/-- A turn of the loop leads to the next one, which is not too large for the sizes that
are asked for. -/
theorem Capacity.next (hcap : Capacity cap) (hlt : cap < nguys) (hnguys : nguys < 2 ^ 29) :
    Capacity ((cap + 1) * 2) := by
  obtain ⟨k, hk⟩ := hcap.power
  have hdouble : (cap + 1) * 2 + 2 = 2 ^ (k + 1 + 1) := by
    rw [Nat.pow_succ, ← hk]
    omega
  have hexp : k + 1 ≤ 29 := by
    by_contra hlarge
    have hpow : 2 ^ 30 ≤ 2 ^ (k + 1) := Nat.pow_le_pow_right (by decide) (by omega)
    omega
  have hle : 2 ^ (k + 1) ≤ 2 ^ 29 := Nat.pow_le_pow_right (by decide) hexp
  exact ⟨⟨k + 1, hdouble⟩, by omega⟩

theorem Capacity.growMax (hcap : Capacity cap) (hnguys : nguys < 2 ^ 29) (turns : Nat) :
    Capacity (KArray.growMax nguys turns cap) := by
  induction turns generalizing cap with
  | zero => exact hcap
  | succ turns ih =>
      rw [KArray.growMax]
      split
      case isTrue hgt => exact ih (hcap.next hgt hnguys)
      case isFalse => exact hcap

/-- The loop as the machine computes it. -/
def growMaxInt (nguys : Int) : (turns : Nat) → (newmax : Int) → Int
  | 0, newmax => newmax
  | turns + 1, newmax =>
      if nguys > newmax then growMaxInt nguys turns (int32 (int32 (newmax + 1) * 2))
      else newmax

/-- Neither the loop nor the number of bytes asked for wraps. -/
theorem Capacity.growMaxInt {nguys : Nat} (hcap : Capacity cap) (hnguys : nguys < 2 ^ 29) (turns : Nat) :
    KArray.growMaxInt nguys turns cap = KArray.growMax nguys turns cap ∧
      u32 (KArray.growMax nguys turns cap * 4) = KArray.growMax nguys turns cap * 4 := by
  constructor
  · induction turns generalizing cap with
    | zero => rfl
    | succ turns ih =>
        rw [KArray.growMaxInt, KArray.growMax]
        rcases Nat.lt_or_ge cap nguys with hlt | hge
        · have hbound := hcap.bound
          have hturn : int32 (int32 (cap + 1) * 2) = ((cap + 1) * 2 : Nat) := by
            have hsucc : int32 ((cap : Int) + 1) = cap + 1 := int32_of_lt (by omega) (by omega)
            rw [hsucc, int32_of_lt (by omega) (by omega)]
            omega
          rw [if_pos (by omega), if_pos hlt, hturn, ih (hcap.next hlt hnguys)]
        · rw [if_neg (by omega), if_neg (by omega)]
  · have hbound := (hcap.growMax hnguys turns).bound
    rw [u32]
    omega

/-! The array and the list. -/

/-- The elements are those of the list where it specifies them. -/
structure Refines (a : KArray α) (l : List (Option α)) : Prop where
  num_eq : a.num = l.length
  num_le_max : a.num ≤ a.max
  capacity : Capacity a.max
  stored : 0 < a.max → a.v.isSome = true
  elements : ∀ i guy, l[i]? = some (some guy) → a.cell i = some guy

theorem arrayCreate_refines : Refines (arrayCreate : KArray α) [] where
  num_eq := rfl
  num_le_max := Nat.le_refl 0
  capacity := ⟨⟨0, rfl⟩, show 0 + 2 ≤ 2 ^ 30 by decide⟩
  stored hpos := absurd hpos (Nat.lt_irrefl 0)
  elements i guy hi := by cases hi

section Calls

variable {a : KArray α} {l : List (Option α)}

/-- What every call keeps: a call that fails has changed nothing. -/
abbrev Keeps (call : Op α Unit) (l : List (Option α)) (a : KArray α) : Prop :=
  call.wp (fun _ b => Refines b l) (fun code b => code = .ENOMEM ∧ b = a) (fun _ => False) a

/-- The array is read where the list specifies it. -/
theorem Refines.arrayGetguy (h : Refines a l) (hi : l[i]? = some (some guy)) :
    (KArray.arrayGetguy i).Returns (fun value b => value = guy ∧ b = a) a := by
  have hlt : i < a.num := by
    rw [h.num_eq]
    exact (List.getElem?_eq_some_iff.mp hi).1
  simp only [KArray.arrayGetguy, Prog.Returns, ↓Prog.wp_bind, ↓Prog.wp_get, ↓Prog.wp_assert,
    if_pos h.num_le_max, if_pos hlt, h.elements i guy hi, ↓Prog.wp_pure, and_self]

theorem Refines.arrayPreallocate (h : Refines a l) (hnguys : nguys < 2 ^ 29) (mem : Bool) :
    (KArray.arrayPreallocate mem nguys).wp (fun _ b => Refines b l ∧ nguys ≤ b.max)
      (fun code b => code = .ENOMEM ∧ b = a) (fun _ => False) a := by
  simp only [KArray.arrayPreallocate, ↓Prog.wp_bind, ↓Prog.wp_get, ↓Prog.wp_assert,
    if_pos h.num_le_max, ↓Prog.wp_ite, ↓Prog.wp_modify, ↓Prog.wp_fail]
  cases mem with
  | false => exact ⟨trivial, trivial⟩
  | true =>
      refine ⟨⟨h.num_eq, Nat.le_trans h.num_le_max (le_growMax _ _ _),
        h.capacity.growMax hnguys nguys, fun _ => rfl, ?_⟩, nguys_le_growMax _ _ _ (by omega)⟩
      intro i guy hi
      have hlt : i < a.num := by
        rw [h.num_eq]
        exact (List.getElem?_eq_some_iff.mp hi).1
      simp only [cell, Option.bind_some, if_pos hlt]
      exact h.elements i guy hi

/-- The list after `array_setsize`, where there is room for it. -/
theorem Refines.resized (h : Refines a l) (hroom : nguys ≤ a.max) :
    Refines { a with num := nguys } (l.take nguys ++ List.replicate (nguys - l.length) none) where
  num_eq := by
    rw [List.length_append, List.length_take, List.length_replicate]
    show nguys = _
    omega
  num_le_max := hroom
  capacity := h.capacity
  stored := h.stored
  elements i guy hi := by
    rcases Nat.lt_or_ge i (l.take nguys).length with hlt | hge
    · rw [List.getElem?_append_left hlt] at hi
      rw [List.length_take] at hlt
      rw [List.getElem?_take_of_lt (by omega)] at hi
      exact h.elements i guy hi
    · rw [List.getElem?_append_right hge] at hi
      have hnone := List.eq_of_mem_replicate (List.mem_of_getElem? hi)
      cases hnone

theorem Refines.arraySetsize (h : Refines a l) (hnguys : nguys < 2 ^ 29) (mem : Bool) :
    (KArray.arraySetsize mem nguys).wp
      (fun _ b => Refines b ((Call.setsize nguys).applyTo l) ∧ nguys ≤ b.max)
      (fun code b => code = .ENOMEM ∧ b = a) (fun _ => False) a := by
  simp only [KArray.arraySetsize, ↓Prog.wp_bind, ↓Prog.wp_get, ↓Prog.wp_assert,
    if_pos h.num_le_max, ↓Prog.wp_ite]
  split
  case isTrue =>
    refine Prog.wp_mono (h.arrayPreallocate hnguys mem) ?_ (fun _ _ h => h) (fun _ h => h)
    intro _ b hb
    rw [Prog.wp_modify]
    exact ⟨hb.1.resized hb.2, hb.2⟩
  case isFalse hfits =>
    split
    case isTrue hshrink =>
      simp only [↓Prog.wp_modify, if_pos (h.stored (by omega))]
      obtain ⟨rfl, _⟩ := hshrink
      have hempty : (Call.setsize 0).applyTo l = [] := by simp [Call.applyTo]
      rw [hempty]
      refine ⟨⟨rfl, Nat.le_refl 0, arrayCreate_refines.capacity, ?_, ?_⟩, Nat.le_refl 0⟩
      · exact fun hpos => absurd hpos (Nat.lt_irrefl 0)
      · intro i guy hi
        cases hi
    case isFalse =>
      simp only [↓Prog.wp_modify]
      exact ⟨h.resized (by omega), by omega⟩

/-- An element set where there is one. -/
theorem Refines.writeCell (h : Refines a l) (hi : index < l.length) (guy : α) :
    (KArray.writeCell index guy).Returns (fun _ b => Refines b (l.set index (some guy))) a := by
  have hmax := h.num_le_max
  have hnum := h.num_eq
  obtain ⟨cells, hcells⟩ := Option.isSome_iff_exists.mp (h.stored (by omega))
  simp only [KArray.writeCell, Prog.Returns, ↓Prog.wp_bind, ↓Prog.wp_get, hcells,
    ↓Prog.wp_modify]
  refine ⟨by simp [hnum], hmax, h.capacity, fun _ => rfl, ?_⟩
  intro i guy' hget
  have hold := h.elements i guy'
  rw [cell, hcells, Option.bind_some] at hold
  rw [cell, Option.bind_some]
  rw [List.getElem?_set] at hget
  split at hget
  case isTrue hsame =>
    subst hsame
    rw [Function.update_self]
    exact Option.some.inj hget
  case isFalse hother =>
    rw [Function.update_of_ne (Ne.symm hother)]
    exact hold hget

theorem Refines.arrayAdd (h : Refines a l) (hsize : l.length + 1 < 2 ^ 29) (mem : Bool)
    (guy : α) : Keeps (KArray.arrayAdd mem guy) (l ++ [some guy]) a := by
  have hnum := h.num_eq
  simp only [Keeps, KArray.arrayAdd, arrayGetnum, ↓Prog.wp_bind, ↓Prog.wp_read]
  rw [hnum]
  refine Prog.wp_mono (h.arraySetsize hsize mem) ?_ (fun _ _ h => h) (fun _ h => h)
  intro _ b hb
  have hgrown : (Call.setsize (l.length + 1)).applyTo l = l ++ [none] := by
    simp [Call.applyTo, List.take_of_length_le]
  rw [hgrown] at hb
  have hset : (l ++ [none]).set l.length (some guy) = l ++ [some guy] := by
    simp
  have hlast : l.length < (l ++ [none]).length := by simp
  have hwrite := hb.1.writeCell hlast guy
  rw [hset] at hwrite
  exact Prog.wp_mono hwrite (fun _ _ h => h) (fun _ _ h => h.elim) (fun _ h => h)

theorem Refines.arrayRemove (h : Refines a l) (hi : index < l.length) :
    (KArray.arrayRemove index).Returns (fun _ b => Refines b (l.eraseIdx index)) a := by
  have hmax := h.num_le_max
  have hnum := h.num_eq
  obtain ⟨cells, hcells⟩ := Option.isSome_iff_exists.mp (h.stored (by omega))
  simp only [KArray.arrayRemove, Prog.Returns, ↓Prog.wp_bind, ↓Prog.wp_get, ↓Prog.wp_assert,
    if_pos hmax, if_pos (hnum ▸ hi), ↓Prog.wp_modify]
  refine ⟨?_, ?_, h.capacity, ?_, ?_⟩
  · simp [List.length_eraseIdx, hi, hnum]
  · exact Nat.le_trans (Nat.sub_le _ _) hmax
  · simp [hcells]
  · intro i guy hget
    have hcell : ∀ j, l[j]? = some (some guy) → cells j = some guy := by
      intro j hj
      have hold := h.elements j guy hj
      rwa [cell, hcells, Option.bind_some] at hold
    simp only [cell, hcells, Option.map_some, Option.bind_some]
    rw [List.getElem?_eraseIdx] at hget
    split at hget
    case isTrue hbefore =>
      rw [if_neg (by omega)]
      exact hcell i hget
    case isFalse hafter =>
      have hlt := (List.getElem?_eq_some_iff.mp hget).1
      rw [if_pos (by omega)]
      exact hcell (i + 1) hget

/-- A call with arguments in range. -/
theorem Refines.call (h : Refines a l) (call : Call α) (hrange : call.InRange l) (mem : Bool) :
    Keeps (call.run mem) (call.applyTo l) a := by
  cases call with
  | add guy => exact h.arrayAdd hrange mem guy
  | setguy index guy =>
      have hlt : index < a.num := h.num_eq ▸ hrange
      simp only [Keeps, Call.run, KArray.arraySetguy, ↓Prog.wp_bind, ↓Prog.wp_get,
        ↓Prog.wp_assert, if_pos h.num_le_max, if_pos hlt]
      exact Prog.wp_mono (h.writeCell hrange guy) (fun _ _ h => h) (fun _ _ h => h.elim)
        (fun _ h => h)
  | remove index =>
      exact Prog.wp_mono (h.arrayRemove hrange) (fun _ _ h => h) (fun _ _ h => h.elim)
        (fun _ h => h)
  | setsize nguys =>
      exact Prog.wp_mono (h.arraySetsize hrange mem) (fun _ _ h => h.1) (fun _ _ h => h)
        (fun _ h => h)
  | preallocate nguys =>
      exact Prog.wp_mono (h.arrayPreallocate hrange mem) (fun _ _ h => h.1) (fun _ _ h => h)
        (fun _ h => h)

end Calls

/-! Runs. -/

/-- The array and the list after a call; only one that succeeds changes the list. -/
def step (call : Call α × Bool) (s : KArray α × List (Option α)) :
    Option (KArray α × List (Option α)) :=
  match call.1.run call.2 s.1 with
  | .ok _ a => some (a, call.1.applyTo s.2)
  | .error _ a => some (a, s.2)
  | .panic _ => none

theorem Refines.step {s : KArray α × List (Option α)} (h : Refines s.1 s.2)
    (call : Call α × Bool) (hrange : call.1.InRange s.2) :
    ∃ next, KArray.step call s = some next ∧ Refines next.1 next.2 := by
  have hcall := h.call call.1 hrange call.2
  unfold Keeps Prog.wp at hcall
  unfold KArray.step
  cases hrun : call.1.run call.2 s.1 with
  | ok value a =>
      rw [hrun] at hcall
      exact ⟨_, rfl, hcall⟩
  | error code a =>
      rw [hrun] at hcall
      refine ⟨_, rfl, ?_⟩
      rw [hcall.2]
      exact h
  | panic reason =>
      rw [hrun] at hcall
      exact hcall.elim

abbrev Reaches (s : KArray α × List (Option α)) : Prop :=
  Runs step (fun call s => call.1.InRange s.2) (arrayCreate, []) s

end OS161.Lib.KArray
