import OS161.Data.Bytes

namespace OS161.Libc

open OS161.Data

/-! `memcpy.c`, `memmove.c` and `bzero.c`. -/

/-- `sizeof(long)`. -/
def sizeofLong : Nat := 4

/-- `d[i] = s[i]`, where an element has `size` bytes. -/
def copyElement (size dst src i : Nat) (mem : Bytes) : Bytes :=
  mem.putNumber ((dst + size * i) % 2 ^ 32) size
    (mem.number ((src + size * i) % 2 ^ 32) size)

/-- `for (i=0; i<n; i++) d[i] = s[i]`. -/
def copyUp (size dst src : Nat) : (n : Nat) → Bytes → Bytes
  | 0, mem => mem
  | n + 1, mem => copyElement size dst src n (copyUp size dst src n mem)

/-- `for (i=n; i>0; i--) d[i-1] = s[i-1]`. -/
def copyDown (size dst src : Nat) : (n : Nat) → Bytes → Bytes
  | 0, mem => mem
  | n + 1, mem => copyDown size dst src n (copyElement size dst src n mem)

/-- The test for copying by words. -/
def wordAligned (dst src len : Nat) : Prop :=
  dst % sizeofLong = 0 ∧ src % sizeofLong = 0 ∧ len % sizeofLong = 0

instance (dst src len : Nat) : Decidable (wordAligned dst src len) :=
  inferInstanceAs (Decidable (_ ∧ _ ∧ _))

def memcpy (dst src len : Nat) (mem : Bytes) : Nat × Bytes :=
  if wordAligned dst src len then
    (dst, copyUp sizeofLong dst src (len / sizeofLong) mem)
  else
    (dst, copyUp 1 dst src len mem)

def memmove (dst src len : Nat) (mem : Bytes) : Nat × Bytes :=
  if dst < src then memcpy dst src len mem
  else if wordAligned dst src len then
    (dst, copyDown sizeofLong dst src (len / sizeofLong) mem)
  else
    (dst, copyDown 1 dst src len mem)

/-- What a copy of all bytes at once leaves. -/
structure Copied (dst src len : Nat) (mem mem' : Bytes) : Prop where
  inside : ∀ i, i < len → mem' (dst + i) = mem (src + i)
  outside : ∀ a, a < dst ∨ dst + len ≤ a → mem' a = mem a

theorem copied_nothing (dst src : Nat) (mem : Bytes) : Copied dst src 0 mem mem where
  inside _ hi := absurd hi (Nat.not_lt_zero _)
  outside _ _ := rfl

section Element

variable {size dst src n : Nat}
  (hdst : dst + size * (n + 1) ≤ 2 ^ 32) (hsrc : src + size * (n + 1) ≤ 2 ^ 32)

include hdst hsrc

/-- One element is read whole before it is written. -/
theorem copyElement_copied (mem : Bytes) :
    Copied (dst + size * n) (src + size * n) size mem (copyElement size dst src n mem) := by
  rw [Nat.mul_succ] at hdst hsrc
  rcases Nat.eq_zero_or_pos size with rfl | hsize
  · rw [copyElement, Bytes.putNumber_none]
    exact copied_nothing _ _ mem
  · have hto : (dst + size * n) % 2 ^ 32 = dst + size * n := Nat.mod_eq_of_lt (by omega)
    have hfrom : (src + size * n) % 2 ^ 32 = src + size * n := Nat.mod_eq_of_lt (by omega)
    rw [copyElement, hto, hfrom]
    exact ⟨fun i hi => Bytes.putNumber_number mem mem _ _ hi,
      fun a ha => Bytes.putNumber_of_disjoint (by omega) mem _⟩

/-- Upwards, the bytes still to be read are beyond those already written. -/
theorem Copied.up {mem mem' : Bytes} (hcopied : Copied dst src (size * n) mem mem')
    (hup : dst ≤ src ∨ src + size * (n + 1) ≤ dst) :
    Copied dst src (size * (n + 1)) mem (copyElement size dst src n mem') := by
  have helement := copyElement_copied hdst hsrc mem'
  rw [Nat.mul_succ] at hup ⊢
  constructor
  case inside =>
    intro i hi
    rcases Nat.lt_or_ge i (size * n) with hbefore | hlast
    · rw [helement.outside _ (by omega), hcopied.inside i hbefore]
    · obtain ⟨k, rfl⟩ := Nat.exists_eq_add_of_le hlast
      have hunread : mem' (src + size * n + k) = mem (src + size * n + k) :=
        hcopied.outside _ (by omega)
      rw [← Nat.add_assoc, helement.inside k (by omega), hunread, Nat.add_assoc]
  case outside =>
    intro a ha
    rw [helement.outside a (by omega), hcopied.outside a (by omega)]

/-- Downwards, they are below them. -/
theorem Copied.down {mem mem' : Bytes} (hdown : src ≤ dst)
    (hcopied : Copied dst src (size * n) (copyElement size dst src n mem) mem') :
    Copied dst src (size * (n + 1)) mem mem' := by
  have helement := copyElement_copied hdst hsrc mem
  rw [Nat.mul_succ]
  constructor
  case inside =>
    intro i hi
    rcases Nat.lt_or_ge i (size * n) with hbefore | hlast
    · rw [hcopied.inside i hbefore, helement.outside _ (by omega)]
    · obtain ⟨k, rfl⟩ := Nat.exists_eq_add_of_le hlast
      rw [← Nat.add_assoc, hcopied.outside _ (by omega), helement.inside k (by omega),
        Nat.add_assoc]
  case outside =>
    intro a ha
    rw [hcopied.outside a (by omega), helement.outside a (by omega)]

end Element

theorem copyUp_copied (hlen : size * n = len) (hdst : dst + len ≤ 2 ^ 32)
    (hsrc : src + len ≤ 2 ^ 32) (hup : dst ≤ src ∨ src + len ≤ dst) (mem : Bytes) :
    Copied dst src len mem (copyUp size dst src n mem) := by
  subst hlen
  induction n with
  | zero => exact copied_nothing dst src mem
  | succ n ih =>
      have hless : size * n ≤ size * (n + 1) := Nat.mul_le_mul_left size (Nat.le_succ n)
      have hprev := ih (by omega) (by omega) (by omega)
      exact hprev.up hdst hsrc hup

theorem copyDown_copied (hlen : size * n = len) (hdst : dst + len ≤ 2 ^ 32)
    (hsrc : src + len ≤ 2 ^ 32) (hdown : src ≤ dst) (mem : Bytes) :
    Copied dst src len mem (copyDown size dst src n mem) := by
  subst hlen
  induction n generalizing mem with
  | zero => exact copied_nothing dst src mem
  | succ n ih =>
      have hless : size * n ≤ size * (n + 1) := Nat.mul_le_mul_left size (Nat.le_succ n)
      have hrest := ih (copyElement size dst src n mem) (by omega) (by omega)
      exact Copied.down hdst hsrc hdown hrest

theorem wordAligned.words (haligned : wordAligned dst src len) :
    sizeofLong * (len / sizeofLong) = len :=
  Nat.mul_div_cancel' (Nat.dvd_of_mod_eq_zero haligned.2.2)

/-- `memcpy` copies upwards: right where the blocks are apart or the destination is the
lower one. -/
theorem memcpy_copied (hdst : dst + len ≤ 2 ^ 32) (hsrc : src + len ≤ 2 ^ 32)
    (hup : dst ≤ src ∨ src + len ≤ dst) (mem : Bytes) :
    (memcpy dst src len mem).1 = dst ∧ Copied dst src len mem (memcpy dst src len mem).2 := by
  unfold memcpy
  split
  case isTrue haligned =>
    exact ⟨rfl, copyUp_copied haligned.words hdst hsrc hup mem⟩
  case isFalse =>
    exact ⟨rfl, copyUp_copied (Nat.one_mul len) hdst hsrc hup mem⟩

/-- Whatever the overlap and the alignment, `memmove` copies the block as it was before
the call. -/
theorem memmove_copied (hdst : dst + len ≤ 2 ^ 32) (hsrc : src + len ≤ 2 ^ 32)
    (mem : Bytes) :
    (memmove dst src len mem).1 = dst ∧ Copied dst src len mem (memmove dst src len mem).2 := by
  unfold memmove
  split
  case isTrue hlt => exact memcpy_copied hdst hsrc (Or.inl (Nat.le_of_lt hlt)) mem
  case isFalse hge =>
    have hdown : src ≤ dst := Nat.le_of_not_lt hge
    split
    case isTrue haligned =>
      exact ⟨rfl, copyDown_copied haligned.words hdst hsrc hdown mem⟩
    case isFalse =>
      exact ⟨rfl, copyDown_copied (Nat.one_mul len) hdst hsrc hdown mem⟩

/-- Two words moved up by one word: the second one is read before it is written over. -/
theorem memmove_overlapping_words :
    (memmove 8 4 8 fun a => BitVec.ofNat 8 a).1 = 8 ∧
    Copied 8 4 8 (fun a => BitVec.ofNat 8 a) (memmove 8 4 8 fun a => BitVec.ofNat 8 a).2 :=
  memmove_copied (by decide) (by decide) _

/-- `for (i=0; i<n; i++) block[i] = 0`, where an element has `size` bytes. -/
def clearUp (size block : Nat) : (n : Nat) → Bytes → Bytes
  | 0, mem => mem
  | n + 1, mem => (clearUp size block n mem).putNumber ((block + size * n) % 2 ^ 32) size 0

def bzero (vblock len : Nat) (mem : Bytes) : Bytes :=
  if vblock % sizeofLong = 0 ∧ len % sizeofLong = 0 then
    clearUp sizeofLong vblock (len / sizeofLong) mem
  else
    clearUp 1 vblock len mem

/-- What clearing all bytes at once leaves. -/
structure Cleared (block len : Nat) (mem mem' : Bytes) : Prop where
  inside : ∀ i, i < len → mem' (block + i) = 0
  outside : ∀ a, a < block ∨ block + len ≤ a → mem' a = mem a

theorem clearUp_cleared (hlen : size * n = len) (hblock : block + len ≤ 2 ^ 32) (mem : Bytes) :
    Cleared block len mem (clearUp size block n mem) := by
  subst hlen
  induction n with
  | zero => exact ⟨fun _ hi => absurd hi (Nat.not_lt_zero _), fun _ _ => rfl⟩
  | succ n ih =>
      rw [Nat.mul_succ] at hblock ⊢
      have hprev := ih (by omega)
      rcases Nat.eq_zero_or_pos size with rfl | hsize
      · rw [clearUp, Bytes.putNumber_none]
        exact hprev
      rw [clearUp, Nat.mod_eq_of_lt (by omega)]
      constructor
      case inside =>
        intro i hi
        rcases Nat.lt_or_ge i (size * n) with hbefore | hlast
        · rw [Bytes.putNumber_of_disjoint (by omega), hprev.inside i hbefore]
        · rw [Bytes.putNumber, if_pos (by omega), Nat.zero_div]
          rfl
      case outside =>
        intro a ha
        rw [Bytes.putNumber_of_disjoint (by omega), hprev.outside a (by omega)]

theorem bzero_cleared (hblock : vblock + len ≤ 2 ^ 32) (mem : Bytes) :
    Cleared vblock len mem (bzero vblock len mem) := by
  unfold bzero
  split
  case isTrue haligned =>
    exact clearUp_cleared (Nat.mul_div_cancel' (Nat.dvd_of_mod_eq_zero haligned.2)) hblock mem
  case isFalse =>
    exact clearUp_cleared (Nat.one_mul len) hblock mem

end OS161.Libc
