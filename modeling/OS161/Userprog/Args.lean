import OS161.Lib.Copyinout

namespace OS161.Userprog.Args

open OS161.Data
open OS161.Kern
open OS161.Lib.Copy

/-! How `runprogram` and `sys_execv` pass the arguments of a program, on the
memory of its new stack.  The sums stay below 2 ^ 32 where the arguments fit. -/

def USERSTACK : Nat := USERTOP

/-- The room on the stack for a string of the length. -/
def slot (len : Nat) : Nat := len + (16 - len % 16)

/-- `numchars` after `i` turns of its loop. -/
def numchars (lens : Nat → Nat) : (i : Nat) → Nat
  | 0 => 0
  | i + 1 => numchars lens i + slot (lens i)

def argoffsets (lens : Nat → Nat) (numargs : Nat) : (i : Nat) → Nat
  | 0 => 4 * (numargs + 1)
  | i + 1 => argoffsets lens numargs i + slot (lens i)

def totalData (lens : Nat → Nat) (numargs : Nat) : Nat :=
  (numargs + 1) * 4 + numchars lens numargs + 4

def stackptr (lens : Nat → Nat) (numargs : Nat) : Nat :=
  USERSTACK - totalData lens numargs

/-- What `md_usermode` is given, and the memory of the stack. -/
structure Entry where
  argc : Nat
  argv : Nat
  stackptr : Nat
  mem : Bytes

def putPointers (lens : Nat → Nat) (numargs : Nat) : Op Nat :=
  Prog.forFrom (fun i tempStptr => do
    let src := stackptr lens numargs + 4 + argoffsets lens numargs i
    let _ ← Prog.attempt (copyoutWord src tempStptr)
    pure (tempStptr + 4)) numargs 0 (stackptr lens numargs + 4)

def putStrings (strings : Nat → Bytes) (numargs tempStptr : Nat) : Op Nat :=
  Prog.forFrom (fun i tempStptr => do
    let _ ← Prog.attempt (copyoutstr (strings i) tempStptr (strlen (strings i)))
    pure (tempStptr + slot (strlen (strings i)))) numargs 0 tempStptr

/-- The lines that the two functions share, from `total_data` on.  The results
of the copies are ignored. -/
def putArgs (strings : Nat → Bytes) (numargs : Nat) : Op Entry := do
  let lens i := strlen (strings i)
  let _ ← Prog.attempt (copyoutWord numargs (stackptr lens numargs))
  let tempStptr ← putPointers lens numargs
  let _ ← putStrings strings numargs (tempStptr + 4)
  let mem ← Prog.get
  pure {
    argc := numargs
    argv := stackptr lens numargs + 4
    stackptr := stackptr lens numargs
    mem := mem }

/-- A block of `kmalloc`, as `sys_execv` copies the string from the address into
it. -/
def copiedIn (block : Bytes) (addr : Nat) (arg : List Byte) : Bytes :=
  (copyinstr addr (cstring arg) (strlen (cstring arg)) block).stateD block

/-- A string longer than the argument is cut. -/
def cut (len : Nat) (block : Bytes) : Bytes :=
  if strlen block > len then Function.update block len 0 else block

/-- The strings of `arguments`, in blocks with the contents `heap`.  The loop of
`copyinstr` begins at 1. -/
def arguments (args : Nat → List Byte) (addr : Nat → Nat) (heap : Nat → Bytes) (i : Nat) :
    Bytes :=
  cut (strlen (cstring (args i)))
    (if 1 ≤ i then copiedIn (heap i) (addr i) (args i) else heap i)

/-- Where there is memory, and the program is found and loaded.  The strings of
the caller are at the addresses `addr`.  A block of `kmalloc` is the memory from
its address on: the stores behind its end, to `arguments[numargs]`, to
`argoffsets[numargs]` and to the end of a string, hit no other block. -/
def sysExecv (args : Nat → List Byte) (addr : Nat → Nat) (numargs : Nat) (heap : Nat → Bytes) :
    Op Entry := do
  Prog.when (strlen (cstring (args 0)) > PATH_MAX) (Prog.fail .E2BIG)
  putArgs (arguments args addr heap) numargs

/-! What a program may expect. -/

/-- An argument list that fits below the top of the stack. -/
structure ArgList where
  args : Nat → List Byte
  numargs : Nat
  pos : 0 < numargs
  clean : ∀ i < numargs, 0 ∉ args i
  fits : totalData (fun i => (args i).length) numargs ≤ USERSTACK

def Entry.pointer (e : Entry) (i : Nat) : Nat :=
  e.mem.number (e.argv + 4 * i) 4

/-- The `m` bytes from `a` on and the `n` bytes from `b` on have none in common. -/
def Disjoint (a m b n : Nat) : Prop :=
  a + m ≤ b ∨ b + n ≤ a

structure ArgList.Passed (l : ArgList) (e : Entry) : Prop where
  argc : e.argc = l.numargs
  aligned : e.argv % 4 = 0
  argvInside : e.stackptr ≤ e.argv ∧ e.argv + 4 * (l.numargs + 1) ≤ USERSTACK
  string : ∀ i < l.numargs, ∀ k ≤ (l.args i).length, e.mem (e.pointer i + k) = cstring (l.args i) k
  inside : ∀ i < l.numargs,
    e.stackptr ≤ e.pointer i ∧ e.pointer i + ((l.args i).length + 1) ≤ USERSTACK
  apart : ∀ i < l.numargs,
    Disjoint e.argv (4 * (l.numargs + 1)) (e.pointer i) ((l.args i).length + 1)
  disjoint : ∀ i < l.numargs, ∀ j < l.numargs, i ≠ j →
    Disjoint (e.pointer i) ((l.args i).length + 1) (e.pointer j) ((l.args j).length + 1)
  null : e.pointer l.numargs = 0

/-! Where things go. -/

section Places

variable {lens : Nat → Nat} {n i j : Nat}

/-- Where string `i` goes. -/
def place (lens : Nat → Nat) (n i : Nat) : Nat :=
  stackptr lens n + 4 + argoffsets lens n i

theorem lt_slot (len : Nat) : len < slot len := by
  rw [slot]
  omega

theorem argoffsets_eq (lens : Nat → Nat) (n i : Nat) :
    argoffsets lens n i = 4 * (n + 1) + numchars lens i := by
  induction i with
  | zero => rfl
  | succ i ih => rw [argoffsets, numchars, ih, Nat.add_assoc]

theorem place_zero (lens : Nat → Nat) (n : Nat) :
    place lens n 0 = stackptr lens n + 4 + 4 * (n + 1) := rfl

theorem place_succ (lens : Nat → Nat) (n i : Nat) :
    place lens n (i + 1) = place lens n i + slot (lens i) :=
  (Nat.add_assoc _ _ _).symm

theorem place_last (hfits : totalData lens n ≤ USERSTACK) : place lens n n = USERSTACK := by
  rw [place, argoffsets_eq, stackptr]
  rw [totalData] at hfits ⊢
  omega

theorem place_mono (hij : i ≤ j) : place lens n i ≤ place lens n j := by
  induction hij with
  | refl => exact Nat.le_refl _
  | step _ ih =>
      rw [place_succ]
      omega

theorem place_slot_le (hij : i < j) : place lens n i + slot (lens i) ≤ place lens n j := by
  rw [← place_succ]
  exact place_mono hij

theorem place_slot_le_top (hfits : totalData lens n ≤ USERSTACK) (hi : i < n) :
    place lens n i + slot (lens i) ≤ USERSTACK := by
  rw [← place_last hfits]
  exact place_slot_le hi

end Places

/-! What is on the stack at the end. -/

section Placed

variable {strings : Nat → Bytes} {lens : Nat → Nat} {n : Nat} {old : Bytes}

structure Placed (old : Bytes) (strings : Nat → Bytes) (lens : Nat → Nat) (n : Nat) (mem : Bytes) :
    Prop where
  pointer : ∀ i < n, mem.number (stackptr lens n + 4 + 4 * i) 4 = place lens n i
  null : ∀ k < 4, mem (stackptr lens n + 4 + 4 * n + k) = old (stackptr lens n + 4 + 4 * n + k)
  string : ∀ i < n, ∀ k < slot (lens i),
    mem (place lens n i + k) = if k < lens i then strings i k else old (place lens n i + k)

/-- After `i` turns of the loop of the pointers. -/
structure PointersPut (old : Bytes) (lens : Nat → Nat) (n i tempStptr : Nat) (mem : Bytes) :
    Prop where
  temp : tempStptr = stackptr lens n + 4 + 4 * i
  pointer : ∀ j < i, mem.number (stackptr lens n + 4 + 4 * j) 4 = place lens n j
  rest : ∀ a, tempStptr ≤ a → mem a = old a

theorem putNumber_of_ge {mem : Bytes} (ha : off + len ≤ a) (x : Nat) :
    mem.putNumber off len x a = mem a := by
  rw [Bytes.putNumber, if_neg (by omega)]

theorem PointersPut.step (hfits : totalData lens n ≤ USERSTACK) (hi : i < n)
    (hput : PointersPut old lens n i tempStptr mem) :
    PointersPut old lens n (i + 1) (tempStptr + 4)
      (mem.putNumber tempStptr 4 (place lens n i)) := by
  obtain ⟨rfl, hpointer, hrest⟩ := hput
  refine ⟨by omega, ?_, ?_⟩
  · intro j hj
    by_cases hji : j = i
    · subst hji
      have hplace := place_slot_le_top hfits hi
      apply Bytes.number_putNumber
      rw [USERSTACK, USERTOP] at hplace
      omega
    · rw [Bytes.number_putNumber_of_disjoint (by omega)]
      exact hpointer j (by omega)
  · intro a ha
    rw [putNumber_of_ge ha]
    exact hrest a (by omega)

/-- After `i` turns of the loop of the strings. -/
structure StringsPut (old : Bytes) (strings : Nat → Bytes) (lens : Nat → Nat) (n : Nat)
    (i tempStptr : Nat) (mem : Bytes) : Prop where
  temp : tempStptr = place lens n i
  pointer : ∀ j < n, mem.number (stackptr lens n + 4 + 4 * j) 4 = place lens n j
  null : ∀ k < 4, mem (stackptr lens n + 4 + 4 * n + k) = old (stackptr lens n + 4 + 4 * n + k)
  string : ∀ j < i, ∀ k < slot (lens j),
    mem (place lens n j + k) = if k < lens j then strings j k else old (place lens n j + k)
  rest : ∀ a, tempStptr ≤ a → mem a = old a

theorem StringsPut.step (hput : StringsPut old strings lens n i tempStptr mem) (hi : i < n) :
    StringsPut old strings lens n (i + 1) (tempStptr + slot (lens i))
      (mem.splice tempStptr ((strings i).slice 0 (lens i))) := by
  obtain ⟨rfl, hpointer, hnull, hstring, hrest⟩ := hput
  have hslot := lt_slot (lens i)
  have hbefore (a : Nat) (ha : a < place lens n i) :
      mem.splice (place lens n i) ((strings i).slice 0 (lens i)) a = mem a :=
    Bytes.splice_of_lt ha _
  have hafter (a : Nat) (ha : place lens n i + lens i ≤ a) :
      mem.splice (place lens n i) ((strings i).slice 0 (lens i)) a = mem a :=
    Bytes.splice_of_ge (by rw [Bytes.length_slice]; exact ha)
  have hfirst : stackptr lens n + 4 + 4 * (n + 1) ≤ place lens n i := by
    rw [← place_zero]
    exact place_mono (Nat.zero_le i)
  refine ⟨(place_succ lens n i).symm, ?_, ?_, ?_, ?_⟩
  · intro j hj
    rw [← hpointer j hj]
    apply Bytes.number_congr
    intro a _ ha
    exact hbefore a (by omega)
  · intro k hk
    rw [hbefore _ (by omega)]
    exact hnull k hk
  · intro j hj k hk
    by_cases hji : j = i
    · subst hji
      split
      case isTrue hlen => rw [splice_slice_at mem _ _ hlen, Nat.zero_add]
      case isFalse hlen =>
        rw [hafter _ (by omega)]
        exact hrest _ (by omega)
    · have hslots : place lens n j + slot (lens j) ≤ place lens n i :=
        place_slot_le (by omega)
      rw [hbefore _ (by omega)]
      exact hstring j (by omega) k hk
  · intro a ha
    rw [hafter a (by omega)]
    exact hrest a (by omega)

end Placed

/-! When the program gets what it may expect. -/

section Passed

variable {l : ArgList} {e : Entry} {strings : Nat → Bytes} {lens : Nat → Nat} {old : Bytes}

/-- There is room for each string, and for its NUL, before the next. -/
theorem ArgList.Passed.room (hpassed : l.Passed e) (hfits : totalData lens l.numargs ≤ USERSTACK)
    (hpointer : ∀ i < l.numargs, e.pointer i = place lens l.numargs i) (hi : i < l.numargs) :
    (l.args i).length < slot (lens i) := by
  have hnext := place_succ lens l.numargs i
  have hslot := lt_slot (lens i)
  by_cases hlast : i + 1 = l.numargs
  · have htop := (hpassed.inside i hi).2
    rw [hpointer i hi] at htop
    rw [hlast, place_last hfits] at hnext
    omega
  · have happart := hpassed.disjoint i hi (i + 1) (by omega) (by omega)
    rw [Disjoint, hpointer i hi, hpointer (i + 1) (by omega)] at happart
    omega

/-- Where string `i` of the list belongs. -/
def ArgList.place (l : ArgList) (i : Nat) : Nat :=
  Args.place (fun i => (l.args i).length) l.numargs i

theorem ArgList.length_lt (l : ArgList) (hi : i < l.numargs) : (l.args i).length < 2 ^ 31 := by
  have htop := place_slot_le_top l.fits hi
  have hslot := lt_slot (l.args i).length
  rw [USERSTACK, USERTOP] at htop
  omega

end Passed

private def zeroed : Bytes := fun _ => 0

private def dirty : Bytes := fun _ => 0xff

end OS161.Userprog.Args
