import Mathlib.Logic.Function.Basic
import OS161.Data.Prog

namespace OS161.Libc

open OS161.Data

/-! The first-fit allocator of `lib/libc/malloc.c` on a 32-bit machine.
Addresses are byte addresses, memory is read and written by 4-byte words, and
a block header is two words.  Both words have the same layout: 29 bits of
block offset, one flag bit and two magic bits. -/

/-- Why the process was ended from inside the allocator. -/
inductive Exit where
  | badInitCall
  | initialSbrkFailed
  | heapAtZero
  | alignSbrkFailed
  | heapBaseMoved
  | localDataCorrupt
  | heapTopMoved
  | splitSize
  | splitScrewedUp
  | badMagicBits
  | badPreviousBlock
  | ranOffEnd
  | neverEnds
  | freeLocalDataCorrupt
  | freeOutOfRange
  | freeCorruptHeader
  | freeAlreadyFree
  | freeInconsistent
  deriving DecidableEq, Repr

structure Heap where
  mem : Nat → Nat
  heapbase : Nat
  heaptop : Nat
  /-- The kernel's idea of where the heap ends. -/
  brk : Nat

/-- What the calls of `sbrk` in one call of `malloc` do: the two of the setup
function and the one that grows the heap. -/
structure Grants where
  initial : Bool
  align : Bool
  grow : Bool
  deriving DecidableEq, Repr

abbrev Op := Prog Empty Exit Heap

def MBLOCKSIZE : Nat := 8

def MMAGIC : Nat := 2

/-- `size_t` arithmetic. -/
def wrap (n : Nat) : Nat := n % 2 ^ 32

def setBlock (w value : Nat) : Nat := value % 2 ^ 29 * 8 + w % 8

def setFlag (w value : Nat) : Nat := w / 8 * 8 + value % 2 * 4 + w % 4

def setMagic (w value : Nat) : Nat := w / 4 * 4 + value % 4

namespace Heap

def mhPrevblock (h : Heap) (mh : Nat) : Nat := h.mem mh / 8

def mhMagic1 (h : Heap) (mh : Nat) : Nat := h.mem mh % 4

def mhNextblock (h : Heap) (mh : Nat) : Nat := h.mem (mh + 4) / 8

def mhInuse (h : Heap) (mh : Nat) : Nat := h.mem (mh + 4) / 4 % 2

def mhMagic2 (h : Heap) (mh : Nat) : Nat := h.mem (mh + 4) % 4

def mNextoff (h : Heap) (mh : Nat) : Nat := wrap (h.mhNextblock mh * 8)

def mPrevoff (h : Heap) (mh : Nat) : Nat := wrap (h.mhPrevblock mh * 8)

def mNext (h : Heap) (mh : Nat) : Nat := wrap (mh + h.mNextoff mh)

def mPrev (h : Heap) (mh : Nat) : Nat := wrap (mh + 2 ^ 32 - h.mPrevoff mh)

def mSize (h : Heap) (mh : Nat) : Nat :=
  wrap (h.mNextoff mh + 2 ^ 32 - MBLOCKSIZE)

def mOk (h : Heap) (mh : Nat) : Prop :=
  h.mhMagic1 mh = MMAGIC ∧ h.mhMagic2 mh = MMAGIC

instance : Decidable (mOk h mh) := inferInstanceAs (Decidable (_ ∧ _))

def write (h : Heap) (address value : Nat) : Heap :=
  { h with mem := Function.update h.mem address value }

def setPrevblock (h : Heap) (mh value : Nat) : Heap :=
  h.write mh (setBlock (h.mem mh) value)

def setPad (h : Heap) (mh value : Nat) : Heap :=
  h.write mh (setFlag (h.mem mh) value)

def setMagic1 (h : Heap) (mh value : Nat) : Heap :=
  h.write mh (setMagic (h.mem mh) value)

def setNextblock (h : Heap) (mh value : Nat) : Heap :=
  h.write (mh + 4) (setBlock (h.mem (mh + 4)) value)

def setInuse (h : Heap) (mh value : Nat) : Heap :=
  h.write (mh + 4) (setFlag (h.mem (mh + 4)) value)

def setMagic2 (h : Heap) (mh value : Nat) : Heap :=
  h.write (mh + 4) (setMagic (h.mem (mh + 4)) value)

end Heap

/-- `M_MKFIELD`. -/
def mMkfield (off : Nat) : Nat := off / 8

/-- `M_DATA`. -/
def mData (mh : Nat) : Nat := mh + MBLOCKSIZE

/-- Where a change moves the break: the kernel grants it, and the break ends neither below
the base of the heap nor past `2^31`.  The change is an `int`: from `2^31` on it is
negative. -/
def breakMoves (h : Heap) (grant : Bool) (change : Nat) : Prop :=
  grant = true ∧ h.heapbase ≤ wrap (h.brk + change) ∧ wrap (h.brk + change) ≤ 2 ^ 31

instance : Decidable (breakMoves h grant change) := inferInstanceAs (Decidable (_ ∧ _))

/-- The system call: `none` is `(void *)-1`.  A successful call hands back the
old break. -/
def sbrk (grant : Bool) (change : Nat) : Op (Option Nat) := do
  let h ← Prog.get
  if breakMoves h grant change then
    Prog.modify fun h => { h with brk := wrap (h.brk + change) }
    pure (some h.brk)
  else
    pure none

/-- The checks of constants at the top of `__malloc_init` compare known
numbers and are left out. -/
def mallocInit (grants : Grants) : Op Unit := do
  let h ← Prog.get
  Prog.assert (h.heapbase = 0 ∧ h.heaptop = 0) .badInitCall
  match ← sbrk grants.initial 0 with
  | none => Prog.panic .initialSbrkFailed
  | some x => do
      Prog.assert (x ≠ 0) .heapAtZero
      Prog.modify fun h => { h with heapbase := x, heaptop := x }
      if x % MBLOCKSIZE ≠ 0 then
        let adjust := MBLOCKSIZE - x % MBLOCKSIZE
        match ← sbrk grants.align adjust with
        | none => Prog.panic .alignSbrkFailed
        | some y => do
            Prog.assert (y = x) .heapBaseMoved
            Prog.modify fun h => {
              h with heapbase := wrap (x + adjust), heaptop := wrap (x + adjust) }
      else
        pure ()

def mallocSbrk (grant : Bool) (size : Nat) : Op (Option Nat) := do
  match ← sbrk grant size with
  | none => pure none
  | some x => do
      let h ← Prog.get
      Prog.assert (x = h.heaptop) .heapTopMoved
      Prog.modify fun h => { h with heaptop := wrap (h.heaptop + size) }
      pure (some x)

def mallocSplit (mh size : Nat) : Op Unit := do
  let h ← Prog.get
  Prog.assert (size % MBLOCKSIZE = 0) .splitSize
  if wrap (h.mSize mh + 2 ^ 32 - size) < 2 * MBLOCKSIZE then
    pure ()
  else do
    let mhnext := h.mNext mh
    let oldsize := h.mSize mh
    Prog.modify fun h => h.setNextblock mh (mMkfield (wrap (size + MBLOCKSIZE)))
    let h ← Prog.get
    let mhnew := h.mNext mh
    Prog.assert (mhnew ≠ mhnext) .splitScrewedUp
    Prog.modify fun h => h.setPrevblock mhnew (mMkfield (wrap (size + MBLOCKSIZE)))
    Prog.modify fun h => h.setPad mhnew 0
    Prog.modify fun h => h.setMagic1 mhnew MMAGIC
    Prog.modify fun h =>
      h.setNextblock mhnew (mMkfield (wrap (oldsize + 2 ^ 32 - size)))
    Prog.modify fun h => h.setInuse mhnew 0
    Prog.modify fun h => h.setMagic2 mhnew MMAGIC
    let h ← Prog.get
    Prog.when (mhnext ≠ h.heaptop) (Prog.modify fun h =>
      h.setPrevblock mhnext (h.mhNextblock mhnew))

/-- How the search of `malloc` over the headers ends: at a block to use, or
behind the last header with the size of the last block. -/
inductive Search where
  | found (mh : Nat)
  | done (i rightprevblock : Nat)
  deriving DecidableEq, Repr

/-- Turns of the loop are bounded by the bytes of the heap: a turn that does
not move on would go on for ever. -/
def search (size : Nat) : (turns i rightprevblock : Nat) → Op Search
  | 0, _, _ => Prog.panic .neverEnds
  | turns + 1, i, rightprevblock => do
      let h ← Prog.get
      if i < h.heaptop then
        Prog.assert (h.mOk i) .badMagicBits
        Prog.assert (h.mhPrevblock i = rightprevblock) .badPreviousBlock
        if h.mhInuse i ≠ 0 then
          search size turns (wrap (i + h.mNextoff i)) (h.mhNextblock i)
        else if h.mSize i < size then
          search size turns (wrap (i + h.mNextoff i)) (h.mhNextblock i)
        else
          pure (.found i)
      else
        pure (.done i rightprevblock)

/-- The pointer handed out; `0` is `NULL`. -/
def malloc (grants : Grants) (size : Nat) : Op Nat := do
  let h ← Prog.get
  Prog.when (h.heapbase = 0) (mallocInit grants)
  let h ← Prog.get
  Prog.assert (¬(h.heapbase = 0 ∨ h.heaptop = 0 ∨ h.heapbase > h.heaptop))
    .localDataCorrupt
  let size := wrap (size + MBLOCKSIZE - 1) / MBLOCKSIZE * MBLOCKSIZE
  match ← search size (h.heaptop - h.heapbase + 1) h.heapbase 0 with
  | .found mh => do
      mallocSplit mh size
      Prog.modify fun h => h.setInuse mh 1
      pure (mData mh)
  | .done i rightprevblock => do
      Prog.assert (i = h.heaptop) .ranOffEnd
      match ← mallocSbrk grants.grow (wrap (size + MBLOCKSIZE)) with
      | none => pure 0
      | some mh => do
          Prog.modify fun h => h.setPrevblock mh rightprevblock
          Prog.modify fun h => h.setMagic1 mh MMAGIC
          Prog.modify fun h => h.setMagic2 mh MMAGIC
          Prog.modify fun h => h.setPad mh 0
          Prog.modify fun h => h.setInuse mh 1
          Prog.modify fun h =>
            h.setNextblock mh (mMkfield (wrap (size + MBLOCKSIZE)))
          pure (mData mh)

/-- `for (i=0; i<n; i++) x[i] = 0xdeadbeef;` -/
def deadbeefWords (h : Heap) (x : Nat) : (n : Nat) → Heap
  | 0 => h
  | n + 1 => (deadbeefWords h x n).write (x + 4 * n) 0xdeadbeef

def mallocDeadbeef (ptr size : Nat) : Op Unit :=
  Prog.modify fun h => deadbeefWords h ptr (size / 4)

def mallocTrymerge (mh mhnext : Nat) : Op Unit := do
  let h ← Prog.get
  Prog.assert (h.mhNextblock mh = h.mhPrevblock mhnext) .freeInconsistent
  if h.mhInuse mh ≠ 0 ∨ h.mhInuse mhnext ≠ 0 then
    pure ()
  else do
    let mhnextnext := h.mNext mhnext
    Prog.modify fun h => h.setNextblock mh (mMkfield
      (wrap (MBLOCKSIZE + h.mSize mh + MBLOCKSIZE + h.mSize mhnext)))
    let h ← Prog.get
    Prog.when (mhnextnext ≠ h.heaptop) (Prog.modify fun h =>
      h.setPrevblock mhnextnext (h.mhNextblock mh))
    mallocDeadbeef mhnext MBLOCKSIZE

def free (x : Nat) : Op Unit := do
  if x = 0 then
    pure ()
  else do
    let h ← Prog.get
    Prog.assert (¬(h.heapbase = 0 ∨ h.heaptop = 0 ∨ h.heapbase > h.heaptop))
      .freeLocalDataCorrupt
    Prog.assert (¬(x < h.heapbase ∨ x ≥ h.heaptop)) .freeOutOfRange
    let mh := wrap (x + 2 ^ 32 - MBLOCKSIZE)
    Prog.assert (h.mOk mh) .freeCorruptHeader
    Prog.assert (h.mhInuse mh ≠ 0) .freeAlreadyFree
    Prog.modify fun h => h.setInuse mh 0
    let h ← Prog.get
    mallocDeadbeef (mData mh) (h.mSize mh)
    let h ← Prog.get
    let mhnext := h.mNext mh
    Prog.when (mhnext ≠ h.heaptop) (mallocTrymerge mh mhnext)
    let h ← Prog.get
    Prog.when (mh ≠ h.heapbase) (mallocTrymerge (h.mPrev mh) mh)

end OS161.Libc
