import Mathlib.Data.Nat.Find
import Mathlib.Logic.Function.Basic
import OS161.Data.Bytes

namespace OS161.Libc

open OS161.Data

/-! Strings in a memory of `2^32` bytes: the loops that walk them, and `strchr.c`. -/

/-- `while (test(*p)) p++`. Where no byte of the memory ends the loop, it never ends. -/
def scan (test : Byte → Bool) (mem : Bytes) : (room p : Nat) → Option Nat
  | 0, _ => none
  | room + 1, p => if test (mem p) then scan test mem room ((p + 1) % 2 ^ 32) else some p

/-- The place that `strchr` finds in a string, the NUL at its end included. -/
def strchr : (s : List Byte) → (ch : Byte) → Option Nat
  | [], ch => if ch = 0 then some 0 else none
  | c :: rest, ch => if c = ch then some 0 else (strchr rest ch).map (· + 1)

/-- The characters from `p` up to a NUL. -/
def readString (mem : Bytes) : (room p : Nat) → List Byte
  | 0, _ => []
  | room + 1, p =>
      if mem p = 0 then [] else mem p :: readString mem room ((p + 1) % 2 ^ 32)

theorem strchr_isSome (s : List Byte) (hch : ch ≠ 0) : (strchr s ch).isSome ↔ ch ∈ s := by
  induction s with
  | nil => rw [strchr, if_neg hch]; simp
  | cons c rest ih =>
      rw [strchr, List.mem_cons]
      split
      case isTrue heq => simp [heq]
      case isFalse hne => simp [ih, Ne.symm hne]

/-- The characters of `s` stand at `p`, and a NUL after them. -/
structure StringAt (mem : Bytes) (p : Nat) (s : List Byte) : Prop where
  text : ∀ i, i ≤ s.length → mem (p + i) = s.getD i 0
  noNul : 0 ∉ s

/-- The first place from `start` on where a test fails. -/
theorem exists_stop (passes : Nat → Prop) (hle : start ≤ stop) (hstop : ¬ passes stop) :
    ∃ q, start ≤ q ∧ q ≤ stop ∧ (∀ k, start ≤ k → k < q → passes k) ∧ ¬ passes q := by
  classical
  have hfails : ∃ q, start ≤ q ∧ ¬ passes q := ⟨stop, hle, hstop⟩
  have hfound := Nat.find_spec hfails
  refine ⟨Nat.find hfails, hfound.1, Nat.find_min' hfails ⟨hle, hstop⟩, ?_, hfound.2⟩
  intro k hk hlt
  by_contra hno
  exact Nat.find_min hfails hlt ⟨hk, hno⟩

theorem scan_stops {test : Byte → Bool} {mem : Bytes} (hle : p ≤ q) (hq : q < 2 ^ 32)
    (hroom : q - p < room) (hpasses : ∀ k, p ≤ k → k < q → test (mem k) = true)
    (hstop : test (mem q) = false) : scan test mem room p = some q := by
  induction room generalizing p with
  | zero => exact absurd hroom (Nat.not_lt_zero _)
  | succ room ih =>
      rcases Nat.lt_or_ge p q with hlt | hge
      · have hnext := ih (p := p + 1) hlt (by omega)
          (fun k hk hkq => hpasses k (by omega) hkq)
        rw [scan, if_pos (hpasses p (Nat.le_refl p) hlt), Nat.mod_eq_of_lt (by omega), hnext]
      · obtain rfl : p = q := Nat.le_antisymm hle hge
        rw [scan, if_neg (by simp [hstop])]

theorem StringAt.readString (hstring : StringAt mem p s) (hfits : p + s.length < 2 ^ 32)
    (hroom : s.length < room) : readString mem room p = s := by
  induction s generalizing p room with
  | nil =>
      have hend : mem p = 0 := hstring.text 0 (Nat.le_refl 0)
      cases room with
      | zero => exact absurd hroom (Nat.not_lt_zero _)
      | succ room => rw [Libc.readString, if_pos hend]
  | cons c rest ih =>
      rw [List.length_cons] at hfits hroom
      have hfirst : mem p = c := hstring.text 0 (Nat.zero_le _)
      have hrest : StringAt mem (p + 1) rest := by
        refine ⟨?_, fun hzero => hstring.noNul (List.mem_cons_of_mem c hzero)⟩
        intro i hi
        have hnext := hstring.text (i + 1) (Nat.succ_le_succ hi)
        rw [Nat.add_assoc, Nat.add_comm 1 i]
        exact hnext
      have hne : c ≠ 0 := by
        rintro rfl
        exact hstring.noNul (List.mem_cons_self ..)
      cases room with
      | zero => exact absurd hroom (Nat.not_lt_zero _)
      | succ room =>
          rw [Libc.readString, hfirst, if_neg hne, Nat.mod_eq_of_lt (by omega),
            ih hrest (by omega) (by omega)]

end OS161.Libc
