import Mathlib.Logic.Function.Basic
import OS161.Data.Seq
import OS161.Vfs.Uio

namespace OS161.Dev.Lhd

open OS161.Data
open OS161.Kern
open OS161.Vfs

/-! The LAMEbus disk driver `kern/dev/lamebus/lhd.c`, with any number of threads
inside `lhd_io`.  An access to a register, to `lh_result` or to one byte of the
card's buffer is one step, and so is a `P` or a `V`. -/

abbrev Tid := Nat

def LHD_IDLE : Nat := 0
def LHD_WORKING : Nat := 1
def LHD_OK : Nat := 4
def LHD_INVSECT : Nat := 12
def LHD_MEDIA : Nat := 20
def LHD_ISWRITE : Nat := 2
def LHD_STATEMASK : Nat := 0x1d

def LHD_SECTSIZE : Nat := 512

def lhdCodeToErrno (code : Nat) : Option Errno :=
  if code &&& LHD_STATEMASK = LHD_OK then none
  else if code &&& LHD_STATEMASK = LHD_INVSECT then some .EINVAL
  else if code &&& LHD_STATEMASK = LHD_MEDIA then some .EIOERR
  else some .EAGAIN

/-- The statement of `lhd_io` that a thread is about to execute.  The second
`V(lh_clear)` is `clearing`, the one after a failed `uiomove` into the buffer is
`fillFailed`. -/
inductive Point where
  | returned
  | turn
  | filling
  | fillFailed
  | wregSect
  | wregStat
  | waiting
  | reading
  | draining
  | clearing
  deriving DecidableEq, Repr

/-- The variables of a call of `lhd_io`. -/
structure Frame where
  uioRw : UioRw
  sector : Nat
  len : Nat
  i : Nat
  result : Option Errno
  /-- The bytes that the last `uiomove` has moved. -/
  moved : List Byte
  /-- The number of the operation that the thread started last. -/
  op : Nat
  /-- The `lh_result` that it read last. -/
  status : Option Errno
  point : Point
  deriving DecidableEq, Repr

/-- An operation that was started, as the card saw it. -/
structure Operation where
  number : Nat
  startedBy : Tid
  sector : Nat
  isWrite : Bool
  deriving DecidableEq, Repr

/-- The operation's end: the code in the status register, and the sector that
the card took from its buffer or put there. -/
structure Completion where
  operation : Operation
  code : Nat
  data : Bytes

/-- What a thread has of an operation when it lets the disk go. -/
structure Receipt where
  operation : Operation
  status : Option Errno
  result : Option Errno
  moved : List Byte
  deriving DecidableEq, Repr

/-- The softc, the card behind it and the threads in `lhd_io`; the last three
fields are a record of what happened. -/
structure LhdSoftc where
  regSect : Nat
  regStat : Nat
  lhBuf : Bytes
  lhResult : Option Errno
  lhClear : Nat
  lhDone : Nat
  dBlocks : Nat
  frame : Tid → Frame
  pending : List Operation
  started : Nat
  completed : Nat → Option Completion
  received : List Receipt

/-- The operation that the thread starts for the sector of this turn. -/
def Frame.operation (f : Frame) (t : Tid) : Operation where
  number := f.op
  startedBy := t
  sector := (f.sector + f.i) % 2 ^ 32
  isWrite := f.uioRw == .UIO_WRITE

def Frame.receipt (f : Frame) (t : Tid) : Receipt where
  operation := f.operation t
  status := f.status
  result := f.result
  moved := f.moved

/-- `lhd_io` up to its loop. -/
def lhdIo (dBlocks : Nat) (uioRw : UioRw) (uioOffset : Int) (uioResid : Nat) (f : Frame) :
    Frame :=
  let sector := u32 (uioOffset.tdiv LHD_SECTSIZE)
  let sectoff := u32 (uioOffset.tmod LHD_SECTSIZE)
  let len := uioResid / LHD_SECTSIZE
  let lenoff := uioResid % LHD_SECTSIZE
  if sectoff ≠ 0 ∨ lenoff ≠ 0 then { f with result := some .EINVAL }
  else if (sector + len) % 2 ^ 32 > dBlocks then { f with result := some .EINVAL }
  else { f with uioRw := uioRw, sector := sector, len := len, i := 0, point := .turn }

namespace LhdSoftc

def setFrame (s : LhdSoftc) (t : Tid) (f : Frame) : LhdSoftc :=
  { s with frame := Function.update s.frame t f }

def goAt (s : LhdSoftc) (t : Tid) (p : Point) : LhdSoftc :=
  s.setFrame t { s.frame t with point := p }

def lhdIodone (s : LhdSoftc) (err : Option Errno) : LhdSoftc :=
  { s with lhResult := err, lhDone := s.lhDone + 1 }

/-- The codes for which `lhd_irq` reports that an operation finished. -/
def Finished (val : Nat) : Prop :=
  val &&& LHD_STATEMASK ∈ [LHD_OK, LHD_INVSECT, LHD_MEDIA]

instance (val : Nat) : Decidable (Finished val) :=
  inferInstanceAs (Decidable (_ ∈ _))

def lhdIrq (s : LhdSoftc) : LhdSoftc :=
  let val := s.regStat
  if Finished val then { s with regStat := 0 }.lhdIodone (lhdCodeToErrno val) else s

/-- What follows `P(lh_clear)`. -/
def cleared (s : LhdSoftc) (t : Tid) : LhdSoftc :=
  let f := s.frame t
  { s with lhClear := s.lhClear - 1 }.setFrame t { f with
    moved := []
    point := if f.uioRw = UioRw.UIO_WRITE then .filling else .wregSect }

/-- A byte goes from the uio into the card's buffer. -/
def fillByte (s : LhdSoftc) (t : Tid) (b : Byte) : LhdSoftc :=
  let f := s.frame t
  { s with lhBuf := Function.update s.lhBuf f.moved.length b }.setFrame t
    { f with moved := f.moved ++ [b] }

/-- The `V(lh_clear)` after `uiomove` failed. -/
def fillFailed (s : LhdSoftc) (t : Tid) : LhdSoftc :=
  { s with lhClear := s.lhClear + 1 }.goAt t .returned

def wregSect (s : LhdSoftc) (t : Tid) : LhdSoftc :=
  { s with regSect := ((s.frame t).sector + (s.frame t).i) % 2 ^ 32 }.goAt t .wregStat

/-- The write to the status register, by which the card starts the operation. -/
def wregStat (s : LhdSoftc) (t : Tid) : LhdSoftc :=
  let f := s.frame t
  let statval := if f.uioRw = .UIO_WRITE then LHD_WORKING ||| LHD_ISWRITE else LHD_WORKING
  let operation : Operation := {
    number := s.started
    startedBy := t
    sector := s.regSect
    isWrite := statval &&& LHD_ISWRITE ≠ 0 }
  { s with
    regStat := statval
    pending := operation :: s.pending
    started := s.started + 1 }.setFrame t { f with op := s.started, point := .waiting }

/-- What follows `P(lh_done)`. -/
def awaited (s : LhdSoftc) (t : Tid) : LhdSoftc :=
  { s with lhDone := s.lhDone - 1 }.goAt t .reading

/-- `result = lh->lh_result`, and the test after it. -/
def readResult (s : LhdSoftc) (t : Tid) : LhdSoftc :=
  let f := s.frame t
  let drains := s.lhResult = none ∧ f.uioRw = .UIO_READ
  s.setFrame t { f with
    result := s.lhResult
    status := s.lhResult
    moved := if drains then [] else f.moved
    point := if drains then .draining else .clearing }

/-- A byte goes from the card's buffer into the uio. -/
def drainByte (s : LhdSoftc) (t : Tid) : LhdSoftc :=
  let f := s.frame t
  s.setFrame t { f with moved := f.moved ++ [s.lhBuf f.moved.length] }

/-- `uiomove` comes back. -/
def moveEnds (s : LhdSoftc) (t : Tid) (result : Option Errno) (p : Point) : LhdSoftc :=
  s.setFrame t { s.frame t with result := result, point := p }

/-- The second `V(lh_clear)`, and the end of the turn. -/
def clearing (s : LhdSoftc) (t : Tid) : LhdSoftc :=
  let f := s.frame t
  { s with
    lhClear := s.lhClear + 1
    received := s.received ++ [f.receipt t] }.setFrame t
      (if f.result.isSome then { f with point := .returned }
      else { f with i := f.i + 1, point := .turn })

/-- The card ends an operation with a code.  A read puts the sector into the
buffer, a write takes it from there. -/
def complete (s : LhdSoftc) (operation : Operation) (code : Nat) (sectorData : Bytes) : LhdSoftc :=
  let data := if operation.isWrite then s.lhBuf else sectorData
  { s with
    regStat := code
    lhBuf := data
    pending := s.pending.erase operation
    completed := Function.update s.completed operation.number
      (some ⟨operation, code, data⟩) }

end LhdSoftc

/-- The threads take their steps in any order.  The card ends each operation once,
whenever it likes, and an interrupt comes at any time, also when no operation has
ended.  Every `uiomove` is asked for `LHD_SECTSIZE` bytes of a residue that has
them, and can fail at any byte. -/
inductive Step (s : LhdSoftc) : LhdSoftc → Prop
  | call (t : Tid) (hat : (s.frame t).point = .returned) (uioRw : UioRw) (uioOffset : Int)
      (uioResid : Nat) :
      Step s (s.setFrame t (lhdIo s.dBlocks uioRw uioOffset uioResid (s.frame t)))
  | finish (t : Tid) (hat : (s.frame t).point = .turn)
      (hall : ¬ (s.frame t).i < (s.frame t).len) :
      Step s (s.moveEnds t none .returned)
  | clear (t : Tid) (hat : (s.frame t).point = .turn) (hmore : (s.frame t).i < (s.frame t).len)
      (hP : 0 < s.lhClear) : Step s (s.cleared t)
  | fillByte (t : Tid) (hat : (s.frame t).point = .filling)
      (hmore : (s.frame t).moved.length < LHD_SECTSIZE) (b : Byte) : Step s (s.fillByte t b)
  | filled (t : Tid) (hat : (s.frame t).point = .filling)
      (hall : (s.frame t).moved.length = LHD_SECTSIZE) : Step s (s.moveEnds t none .wregSect)
  | fillError (t : Tid) (hat : (s.frame t).point = .filling) (code : Errno) :
      Step s (s.moveEnds t (some code) .fillFailed)
  | fillFailed (t : Tid) (hat : (s.frame t).point = .fillFailed) : Step s (s.fillFailed t)
  | wregSect (t : Tid) (hat : (s.frame t).point = .wregSect) : Step s (s.wregSect t)
  | wregStat (t : Tid) (hat : (s.frame t).point = .wregStat) : Step s (s.wregStat t)
  | done (t : Tid) (hat : (s.frame t).point = .waiting) (hP : 0 < s.lhDone) :
      Step s (s.awaited t)
  | readResult (t : Tid) (hat : (s.frame t).point = .reading) : Step s (s.readResult t)
  | drainByte (t : Tid) (hat : (s.frame t).point = .draining)
      (hmore : (s.frame t).moved.length < LHD_SECTSIZE) : Step s (s.drainByte t)
  | drained (t : Tid) (hat : (s.frame t).point = .draining)
      (hall : (s.frame t).moved.length = LHD_SECTSIZE) : Step s (s.moveEnds t none .clearing)
  | drainError (t : Tid) (hat : (s.frame t).point = .draining) (code : Errno) :
      Step s (s.moveEnds t (some code) .clearing)
  | clearing (t : Tid) (hat : (s.frame t).point = .clearing) : Step s (s.clearing t)
  | complete (operation : Operation) (hpending : operation ∈ s.pending) (code : Nat)
      (sectorData : Bytes) : Step s (s.complete operation code sectorData)
  | irq : Step s s.lhdIrq

abbrev Runs : LhdSoftc → LhdSoftc → Prop :=
  Relation.ReflTransGen Step

/-- After `config_lhd`: the card is idle, and no thread is in `lhd_io`. -/
def configLhd (dBlocks : Nat) (lhBuf : Bytes) (lhResult : Option Errno) : LhdSoftc where
  regSect := 0
  regStat := LHD_IDLE
  lhBuf := lhBuf
  lhResult := lhResult
  lhClear := 1
  lhDone := 0
  dBlocks := dBlocks
  frame _ := ⟨.UIO_READ, 0, 0, 0, none, [], 0, none, .returned⟩
  pending := []
  started := 0
  completed _ := none
  received := []

/-! Who has the disk. -/

namespace Point

/-- Between a `P(lh_clear)` and the `V(lh_clear)` after it. -/
def Holds : Point → Prop
  | .returned => False
  | .turn => False
  | _ => True

/-- From the filling of the buffer, or the start of a read, until the result and
the data of the operation have been taken. -/
def InUse : Point → Prop
  | .filling | .wregSect | .wregStat | .waiting | .reading | .draining => True
  | _ => False

/-- The next step may be an access to the buffer. -/
def TouchesBuf : Point → Prop
  | .filling | .draining => True
  | _ => False

theorem InUse.holds {p : Point} (huse : p.InUse) : p.Holds := by
  cases p <;> trivial

theorem TouchesBuf.holds {p : Point} (htouches : p.TouchesBuf) : p.Holds := by
  cases p <;> trivial

end Point

/-- The result code, and the sector that went through the buffer, are those of
the thread's own operation. -/
structure Receipt.Own (completed : Nat → Option Completion) (r : Receipt) (c : Completion) :
    Prop where
  completed : completed r.operation.number = some c
  operation : c.operation = r.operation
  status : r.status = lhdCodeToErrno c.code
  failed : r.status ≠ none → r.result = r.status
  data : r.result = none → r.moved = c.data.slice 0 LHD_SECTSIZE

end OS161.Dev.Lhd
