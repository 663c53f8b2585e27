import Mathlib.Algebra.Group.Nat.Defs
import Mathlib.Data.List.GetD
import Mathlib.Logic.Function.Basic

namespace OS161.Data

/-! Memory as bytes, numbers laid out in it with the highest byte first, and
ranges of it replaced by a list. -/

abbrev Byte := BitVec 8

instance : LawfulBEq Byte := inferInstance

abbrev Bytes := Nat → Byte

namespace Bytes

variable {b b' : Bytes}

/-- The number in the `len` bytes from `off` on. -/
def number (b : Bytes) (off : Nat) : (len : Nat) → Nat
  | 0 => 0
  | len + 1 => b.number off len * 256 + (b (off + len)).toNat

/-- Lay out `x` in the `len` bytes from `off` on. -/
def putNumber (b : Bytes) (off len x : Nat) : Bytes := fun k =>
  if off ≤ k ∧ k < off + len then BitVec.ofNat 8 (x / 256 ^ (off + len - 1 - k)) else b k

theorem number_congr (hsame : ∀ k, off ≤ k → k < off + len → b' k = b k) :
    b'.number off len = b.number off len := by
  induction len with
  | zero => rfl
  | succ len ih =>
      have hprev := ih (fun k hle hlt => hsame k hle (by omega))
      rw [number, number, hprev, hsame (off + len) (by omega) (by omega)]

theorem number_zero (off len : Nat) : number (fun _ => 0) off len = 0 := by
  induction len with
  | zero => rfl
  | succ len ih =>
      rw [number, ih]
      rfl

theorem putNumber_of_disjoint (hdisjoint : k < off ∨ off + len ≤ k) (b : Bytes) (x : Nat) :
    b.putNumber off len x k = b k := by
  rw [putNumber, if_neg (by omega)]

@[simp] theorem putNumber_none (b : Bytes) (off x : Nat) : b.putNumber off 0 x = b := by
  funext k
  exact putNumber_of_disjoint (by omega) b x

theorem number_putNumber_of_disjoint (hdisjoint : off + len ≤ off' ∨ off' + len' ≤ off)
    (b : Bytes) (x : Nat) :
    (b.putNumber off len x).number off' len' = b.number off' len' := by
  apply number_congr
  intro k hle hlt
  rw [putNumber, if_neg (by omega)]

theorem number_putNumber_upto (b : Bytes) (off x : Nat) (hn : n ≤ len) :
    (b.putNumber off len x).number off n = x / 256 ^ (len - n) % 256 ^ n := by
  induction n with
  | zero => simp [number, Nat.mod_one]
  | succ n ih =>
      have hbyte : ((b.putNumber off len x) (off + n)).toNat =
          x / 256 ^ (len - (n + 1)) % 256 := by
        rw [putNumber, if_pos (by omega), BitVec.toNat_ofNat,
          show off + len - 1 - (off + n) = len - (n + 1) by omega]
      have hshift : x / 256 ^ (len - n) = x / 256 ^ (len - (n + 1)) / 256 := by
        rw [Nat.div_div_eq_div_mul, ← Nat.pow_succ,
          show (len - (n + 1)).succ = len - n by omega]
      rw [number, ih (by omega), hbyte, hshift, Nat.pow_succ, Nat.mul_comm (256 ^ n) 256,
        Nat.mod_mul]
      omega

theorem number_putNumber (b : Bytes) (off len : Nat) (hx : x < 256 ^ len) :
    (b.putNumber off len x).number off len = x := by
  rw [number_putNumber_upto b off x (Nat.le_refl len), Nat.sub_self, Nat.pow_zero,
    Nat.div_one, Nat.mod_eq_of_lt hx]

/-- A byte of a number is the byte that it was read from. -/
theorem number_byte (b : Bytes) (off : Nat) (hi : i < len) :
    BitVec.ofNat 8 (b.number off len / 256 ^ (len - 1 - i)) = b (off + i) := by
  induction len with
  | zero => exact absurd hi (Nat.not_lt_zero i)
  | succ len ih =>
      have hlast := (b (off + len)).isLt
      rcases Nat.lt_or_ge i len with hbefore | hend
      · have hdiv : b.number off (len + 1) / 256 = b.number off len := by
          rw [number]
          omega
        rw [show len + 1 - 1 - i = (len - 1 - i) + 1 by omega, Nat.pow_succ, Nat.mul_comm,
          ← Nat.div_div_eq_div_mul, hdiv, ih hbefore]
      · have hi : i = len := by omega
        apply BitVec.eq_of_toNat_eq
        rw [BitVec.toNat_ofNat, hi, number, show len + 1 - 1 - len = 0 by omega, Nat.pow_zero,
          Nat.div_one]
        omega

/-- A number read in one place and laid out in another carries its bytes along. -/
theorem putNumber_number (b b' : Bytes) (off off' : Nat) (hi : i < len) :
    b.putNumber off len (b'.number off' len) (off + i) = b' (off' + i) := by
  rw [putNumber, if_pos (by omega), show off + len - 1 - (off + i) = len - 1 - i by omega,
    number_byte b' off' hi]

/-- A number of a record: where it starts and how many bytes it has. -/
structure Field where
  off : Nat
  len : Nat
  deriving DecidableEq, Repr

def get (b : Bytes) (field : Field) : Nat := b.number field.off field.len

def set (b : Bytes) (field : Field) (x : Nat) : Bytes := b.putNumber field.off field.len x

theorem get_set (b : Bytes) {field : Field} (hx : x < 256 ^ field.len) :
    (b.set field x).get field = x :=
  number_putNumber b field.off field.len hx

theorem get_set_of_disjoint {field field' : Field} (b : Bytes) (x : Nat)
    (hdisjoint : field.off + field.len ≤ field'.off ∨ field'.off + field'.len ≤ field.off) :
    (b.set field x).get field' = b.get field' :=
  number_putNumber_of_disjoint hdisjoint b x

@[simp] theorem get_zero (field : Field) : get (fun _ => 0) field = 0 :=
  number_zero field.off field.len

theorem get_lt (b : Bytes) (field : Field) : b.get field < 256 ^ field.len := by
  unfold get
  induction field.len with
  | zero => simp [number]
  | succ len ih =>
      have hbyte := (b (field.off + len)).isLt
      rw [number, Nat.pow_succ]
      omega

/-- The `n` bytes from `off` on. -/
def slice (b : Bytes) (off n : Nat) : List Byte := (List.range n).map fun k => b (off + k)

/-- Replace the bytes from `off` on by those of the list. -/
def splice (b : Bytes) (off : Nat) (l : List Byte) : Bytes := fun k =>
  if off ≤ k then l.getD (k - off) (b k) else b k

@[simp] theorem length_slice (b : Bytes) (off n : Nat) : (b.slice off n).length = n := by
  simp [slice]

theorem slice_congr (hsame : ∀ k, off ≤ k → k < off + n → b' k = b k) :
    b'.slice off n = b.slice off n := by
  apply List.map_congr_left
  intro k hk
  exact hsame _ (by omega) (by have := List.mem_range.mp hk; omega)

theorem slice_append (b : Bytes) (off n n' : Nat) :
    b.slice off n ++ b.slice (off + n) n' = b.slice off (n + n') := by
  simp only [slice, List.range_add, List.map_append, List.map_map]
  congr 1
  apply List.map_congr_left
  intro k _
  simp [Nat.add_assoc]

theorem splice_of_lt (hlt : k < off) (l : List Byte) : b.splice off l k = b k := by
  rw [splice, if_neg (by omega)]

theorem splice_of_ge (hge : off + l.length ≤ k) : b.splice off l k = b k := by
  rw [splice, if_pos (by omega), List.getD_eq_default _ _ (by omega)]

theorem splice_of_mem (hle : off ≤ k) (hlt : k < off + l.length) (b : Bytes) :
    b.splice off l k = l.getD (k - off) 0 := by
  rw [splice, if_pos hle, List.getD_eq_getElem _ _ (by omega),
    List.getD_eq_getElem _ _ (by omega)]

@[simp] theorem splice_nil (b : Bytes) (off : Nat) : b.splice off [] = b := by
  funext k
  simp [splice]

theorem splice_append (b : Bytes) (off : Nat) (l l' : List Byte) :
    (b.splice off l).splice (off + l.length) l' = b.splice off (l ++ l') := by
  funext k
  by_cases hlow : k < off
  · rw [splice_of_lt (by omega), splice_of_lt hlow, splice_of_lt hlow]
  · by_cases hmid : k < off + l.length
    · rw [splice_of_lt hmid, splice_of_mem (by omega) hmid,
        splice_of_mem (by omega) (by simp; omega), List.getD_append _ _ _ _ (by omega)]
    · by_cases hhigh : k < off + l.length + l'.length
      · rw [splice_of_mem (by omega) hhigh, splice_of_mem (by omega) (by simp; omega),
          List.getD_append_right _ _ _ _ (by omega), Nat.sub_sub]
      · rw [splice_of_ge (by omega), splice_of_ge (by omega),
          splice_of_ge (by simp; omega)]

theorem splice_before (b : Bytes) (off : Nat) (l l' : List Byte) :
    (b.splice (off + l.length) l').splice off l = b.splice off (l ++ l') := by
  funext k
  rcases Nat.lt_or_ge k off with hlow | hoff
  · rw [splice_of_lt hlow, splice_of_lt hlow, splice_of_lt (by omega)]
  · rcases Nat.lt_or_ge k (off + l.length) with hmid | hrest
    · rw [splice_of_mem hoff hmid, splice_of_mem hoff (by simp; omega),
        List.getD_append _ _ _ _ (by omega)]
    · rw [splice_of_ge hrest]
      rcases Nat.lt_or_ge k (off + l.length + l'.length) with hhigh | hend
      · rw [splice_of_mem hrest hhigh, splice_of_mem hoff (by simp; omega),
          List.getD_append_right _ _ _ _ (by omega), Nat.sub_sub]
      · rw [splice_of_ge hend, splice_of_ge (by simp; omega)]

theorem update_eq_splice (b : Bytes) (off : Nat) (x : Byte) :
    Function.update b off x = b.splice off [x] := by
  funext k
  rcases Nat.lt_trichotomy k off with hlt | rfl | hgt
  · rw [splice_of_lt hlt, Function.update_of_ne (by omega)]
  · rw [splice_of_mem (Nat.le_refl k) (by simp), Function.update_self, Nat.sub_self]
    rfl
  · rw [splice_of_ge (by simp; omega), Function.update_of_ne (by omega)]

theorem slice_splice (b : Bytes) (off : Nat) (l : List Byte) :
    (b.splice off l).slice off l.length = l := by
  apply List.ext_getElem (length_slice _ _ _)
  intro k hk hkl
  simp only [slice, List.getElem_map, List.getElem_range]
  rw [splice_of_mem (by omega) (by omega), Nat.add_sub_cancel_left,
    List.getD_eq_getElem _ _ hkl]

end Bytes

/-- A record of `n` bytes. -/
abbrev Record (n : Nat) := Fin n → Byte

namespace Record

variable {n : Nat} {field field' : Bytes.Field}

def bytes (r : Record n) : Bytes := fun k => if h : k < n then r ⟨k, h⟩ else 0

def ofBytes (b : Bytes) : Record n := fun k => b k

def zeros : Record n := fun _ => 0

def list (r : Record n) : List Byte := r.bytes.slice 0 n

def ofList (l : List Byte) : Record n := fun k => l.getD k 0

def get (r : Record n) (field : Bytes.Field) : Nat := r.bytes.get field

def set (r : Record n) (field : Bytes.Field) (x : Nat) : Record n :=
  ofBytes (r.bytes.set field x)

@[simp] theorem bytes_ofBytes (hk : k < n) (b : Bytes) :
    (ofBytes b : Record n).bytes k = b k := by
  rw [bytes, dif_pos hk, ofBytes]

@[simp] theorem bytes_zeros (k : Nat) : (zeros : Record n).bytes k = 0 := by
  unfold bytes
  split <;> rfl

@[simp] theorem get_zeros (field : Bytes.Field) : (zeros : Record n).get field = 0 := by
  have hzero : (zeros : Record n).bytes = fun _ => 0 := funext bytes_zeros
  rw [get, hzero, Bytes.get_zero]

@[simp] theorem length_list (r : Record n) : r.list.length = n := Bytes.length_slice _ _ _

@[simp] theorem ofList_list (r : Record n) : ofList r.list = r := by
  funext k
  simp [ofList, list, Bytes.slice, bytes]

theorem get_ofBytes (hfield : field.off + field.len ≤ n) (b : Bytes) :
    (ofBytes b : Record n).get field = b.get field := by
  apply Bytes.number_congr
  intro k _ hlt
  exact bytes_ofBytes (by omega) b

theorem get_set (r : Record n) (hfield : field.off + field.len ≤ n)
    (hx : x < 256 ^ field.len) : (r.set field x).get field = x := by
  rw [set, get_ofBytes hfield, Bytes.get_set _ hx]

theorem get_set_of_disjoint (r : Record n) (x : Nat) (hfield : field'.off + field'.len ≤ n)
    (hdisjoint : field.off + field.len ≤ field'.off ∨ field'.off + field'.len ≤ field.off) :
    (r.set field x).get field' = r.get field' := by
  rw [set, get_ofBytes hfield, Bytes.get_set_of_disjoint _ _ hdisjoint, get]

theorem get_lt (r : Record n) (field : Bytes.Field) : r.get field < 256 ^ field.len :=
  Bytes.get_lt r.bytes field

end Record

end OS161.Data
