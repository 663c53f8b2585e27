import Mathlib.Logic.Function.Basic
import OS161.Data.Bytes
import OS161.Data.Prog
import OS161.Kern.Base

namespace OS161.Lib.Copy

open OS161.Data
open OS161.Kern

/-! `kern/lib/copyinout.c`, on the memory that is copied to. -/

abbrev Op := Prog Errno Fault Bytes

def USERTOP : Nat := 0x80000000

/-- The loop of `strlen`; no string is longer than the address space. -/
def strlenFrom (s : Bytes) : (turns i : Nat) → Nat
  | 0, i => i
  | turns + 1, i => if s i = 0 then i else strlenFrom s turns (i + 1)

def strlen (s : Bytes) : Nat := strlenFrom s (2 ^ 32) 0

/-- The bytes of a string, with zeros behind them. -/
def cstring (s : List Byte) : Bytes := fun k => s.getD k 0

/-- The result is `stoplen`. -/
def copycheck (userptr len : Nat) : Op Nat := do
  let top := (userptr + len + (2 ^ 32 - 1)) % 2 ^ 32
  if top < userptr then Prog.fail .EFAULT
  else if userptr ≥ USERTOP then Prog.fail .EFAULT
  else if top ≥ USERTOP then pure (USERTOP - userptr)
  else pure len

/-- `copyout` of the `int` or the pointer `x`. -/
def copyoutWord (x userdest : Nat) : Op Unit := do
  let stoplen ← copycheck userdest 4
  Prog.when (stoplen ≠ 4) (Prog.fail .EFAULT)
  Prog.modify fun mem => mem.putNumber userdest 4 x

/-- The loop of `copystr` and what follows it; `turns` counts down from the
smaller one of `maxlen` and `stoplen`. -/
def copystrLoop (dest : Nat) (src : Bytes) (maxlen stoplen : Nat) : (turns i : Nat) → Op Nat
  | 0, _ => if stoplen < maxlen then Prog.fail .EFAULT else Prog.fail .ENAMETOOLONG
  | turns + 1, i => do
      Prog.modify fun mem => Function.update mem (dest + i) (src i)
      if src i = 0 then pure (i + 1) else copystrLoop dest src maxlen stoplen turns (i + 1)

def copystr (dest : Nat) (src : Bytes) (maxlen stoplen : Nat) : Op Nat :=
  copystrLoop dest src maxlen stoplen (min maxlen stoplen) 0

/-- The memory is that from `dest` on. -/
def copyinstr (usersrc : Nat) (src : Bytes) (len : Nat) : Op Nat := do
  let stoplen ← copycheck usersrc len
  copystr 0 src len stoplen

def copyoutstr (src : Bytes) (userdest len : Nat) : Op Nat := do
  let stoplen ← copycheck userdest len
  copystr userdest src len stoplen

/-! Strings. -/

variable {mem src : Bytes}

theorem splice_slice_at (mem src : Bytes) (dest : Nat) (hk : k < len) :
    mem.splice dest (src.slice i len) (dest + k) = src (i + k) := by
  rw [Bytes.splice_of_mem (by omega) (by simp; omega), Nat.add_sub_cancel_left, Bytes.slice,
    List.getD_eq_getElem _ _ (by simp; omega)]
  simp

theorem splice_update (mem src : Bytes) (dest i len : Nat) :
    Bytes.splice (Function.update mem (dest + i) (src i)) (dest + (i + 1)) (src.slice (i + 1) len) =
      mem.splice (dest + i) (src.slice i (len + 1)) := by
  have hfirst : Function.update mem (dest + i) (src i) = mem.splice (dest + i) (src.slice i 1) := by
    funext a
    by_cases ha : a = dest + i
    · subst ha
      rw [Function.update_self]
      exact (splice_slice_at mem src (dest + i) (show 0 < 1 by omega)).symm
    · rw [Function.update_of_ne ha]
      by_cases hlow : a < dest + i
      · exact (Bytes.splice_of_lt hlow _).symm
      · exact (Bytes.splice_of_ge (by simp; omega)).symm
  have happend := Bytes.splice_append mem (dest + i) (src.slice i 1) (src.slice (i + 1) len)
  rw [Bytes.length_slice, Bytes.slice_append, Nat.add_comm 1 len] at happend
  rw [hfirst, ← happend, Nat.add_assoc]

theorem copystrLoop_wp (hbytes : ∀ k, i ≤ k → k < i + turns → src k ≠ 0)
    (dest maxlen stoplen : Nat) :
    (copystrLoop dest src maxlen stoplen turns i).wp (fun _ _ => False)
      (fun _ mem' => mem' = mem.splice (dest + i) (src.slice i turns)) (fun _ => False) mem := by
  induction turns generalizing i mem with
  | zero =>
      rw [copystrLoop]
      have hnothing : mem = mem.splice (dest + i) (src.slice i 0) := by
        simp [Bytes.slice]
      simp only [↓Prog.wp_ite, ↓Prog.wp_fail]
      split <;> exact hnothing
  | succ turns ih =>
      have hne : src i ≠ 0 := hbytes i (Nat.le_refl i) (by omega)
      simp only [copystrLoop, ↓Prog.wp_bind, ↓Prog.wp_modify, if_neg hne]
      rw [← splice_update]
      exact ih fun k hk hlt => hbytes k (by omega) (by omega)

end OS161.Lib.Copy
