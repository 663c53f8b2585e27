import Mathlib.Logic.Function.Basic
import OS161.Data.Bytes
import OS161.Data.Prog
import OS161.Data.Seq
import OS161.Kern.Base

namespace OS161.Dev.Con

open OS161.Data
open OS161.Kern

/-! The console `kern/dev/generic/console.c` on the LAMEbus serial card `lser.c`, with any
number of threads that print and read.  What runs with interrupts off is one step, and so is
a `P`; the card works at any time. -/

abbrev Tid := Nat

/-- Where the kernel stops, or spins for ever. -/
inductive Stop where
  | delayedOutbuf
  | notClearToWrite
  | spinUntilWrite
  deriving DecidableEq, Repr

/-- What a call that prints is: `con_io`, `kprintf`, or a bare `putch`. -/
inductive Channel where
  | conIo
  | kprintf
  | putch
  deriving DecidableEq, Repr

/-- `con_userlock_write` and `kprintf_lock`. -/
def Channel.locked : Channel → Bool
  | .conIo => true
  | .kprintf => true
  | .putch => false

/-- What is put for a character of the caller. -/
def Channel.puts : Channel → Byte → List Byte
  | .conIo, ch => if ch = 10 then [13, 10] else [ch]
  | .kprintf, ch => [ch]
  | .putch, ch => [ch]

/-- The statement of a call that prints which a thread is about to execute: the acquiring of the
lock, the fetching of a character, the `P` of `putch_intr`, its `cs_send`, the release. -/
inductive Point where
  | outside
  | locking
  | fetching
  | putting
  | sending
  | releasing
  deriving DecidableEq, Repr

/-- The variables of a call that prints. -/
structure Frame where
  point : Point
  channel : Channel
  data : List Byte
  /-- What is not fetched yet of the data. -/
  rest : List Byte
  /-- What is to be put of the last character. -/
  todo : List Byte
  /-- The characters that were fetched, and what was put. -/
  moved : List Byte
  said : List Byte
  deriving DecidableEq, Repr

inductive ReadPoint where
  | outside
  | locking
  | getting
  | got
  | releasing
  deriving DecidableEq, Repr

/-- The variables of a call that reads, of `con_io` or a bare `getch`. -/
structure Reader where
  point : ReadPoint
  conIo : Bool
  asked : Nat
  resid : Nat
  /-- What went into the uio. -/
  moved : List Byte
  deriving DecidableEq, Repr

/-- The card, the softcs of the two drivers and the threads in them; the last fields are a
record of what happened. -/
structure Console where
  /-- The character that the card is sending. -/
  onWire : Option Byte
  wirqActive : Bool
  regChar : Byte
  rirqActive : Bool
  lsWbusy : Bool
  csRsem : Nat
  csWsem : Nat
  csGotchar : Byte
  theConsole : Bool
  delayedOutbuf : List Byte
  frame : Tid → Frame
  writeLock : Channel → Option Tid
  reader : Tid → Reader
  readLock : Option Tid
  /-- A character came to the card while it was sending one. -/
  overrun : Bool
  /-- What has left the card. -/
  line : List Byte
  /-- What was given to the card, and in what call: `none` is for `putch_polled`. -/
  sent : List (Option Channel × Byte)
  finished : Channel → List Frame
  typed : List Byte
  inputs : List Byte
  gotten : List Byte
  delivered : List Byte
  reads : List Reader

abbrev Op := Prog Errno Stop Console

/-! The card. -/

/-- A character is written to `LSER_REG_CHAR`. -/
def Console.wregChar (s : Console) (ch : Byte) : Console :=
  { s with
    overrun := s.overrun || s.onWire.isSome
    onWire := some ch }

/-- `LSER_IRQ_ENABLE` is written to `LSER_REG_WIRQ`. -/
def Console.wregWirq (s : Console) : Console := { s with wirqActive := false }

/-- The card is through with a character. -/
def Console.complete (s : Console) (ch : Byte) : Console :=
  { s with
    onWire := none
    wirqActive := true
    line := s.line ++ [ch] }

/-- A character is typed. -/
def Console.arrive (s : Console) (ch : Byte) : Console :=
  { s with
    regChar := ch
    rirqActive := true
    typed := s.typed ++ [ch] }

/-! `lser.c`. -/

/-- The loop ends when the card is through with the character that it has. -/
def lserSpinUntilWrite : Op Unit := do
  let s ← Prog.get
  Prog.when (s.wirqActive = false) (match s.onWire with
    | some ch => Prog.modify fun s => s.complete ch
    | none => Prog.panic .spinUntilWrite)

def lserWrite (ch : Byte) : Op Unit := do
  let s ← Prog.get
  Prog.when (s.lsWbusy = true) (Prog.panic .notClearToWrite)
  Prog.modify fun s => { s with lsWbusy := true }.wregChar ch

def lserWritepolled (ch : Byte) : Op Unit := do
  let s ← Prog.get
  let irqpending := s.lsWbusy
  Prog.when (irqpending = true) (do
    lserSpinUntilWrite
    Prog.modify Console.wregWirq)
  Prog.modify fun s => s.wregChar ch
  lserSpinUntilWrite
  Prog.when (irqpending = false) (Prog.modify Console.wregWirq)

/-! `console.c`. -/

def conStart (s : Console) : Console := { s with csWsem := s.csWsem + 1 }

def conInput (s : Console) (ch : Byte) : Console :=
  { s with
    csGotchar := ch
    csRsem := s.csRsem + 1
    inputs := s.inputs ++ [ch] }

/-- Of `lser.c`.  `ls_start` and `ls_input` are set with the console. -/
def lserIrq (s : Console) : Console :=
  let clearToWrite := s.wirqActive
  let s := if clearToWrite then { s with lsWbusy := false }.wregWirq else s
  let gotARead := s.rirqActive
  let ch := s.regChar
  let s := if gotARead then { s with rirqActive := false } else s
  let s := if clearToWrite && s.theConsole then conStart s else s
  if gotARead && s.theConsole then conInput s ch else s

def putchDelayed (ch : Byte) : Op Unit := do
  let s ← Prog.get
  Prog.when (¬ s.delayedOutbuf.length < 1024) (Prog.panic .delayedOutbuf)
  Prog.modify fun s => { s with delayedOutbuf := s.delayedOutbuf ++ [ch] }

namespace Console

def setFrame (s : Console) (t : Tid) (f : Frame) : Console :=
  { s with frame := Function.update s.frame t f }

def setReader (s : Console) (t : Tid) (r : Reader) : Console :=
  { s with reader := Function.update s.reader t r }

def record (s : Console) (channel : Option Channel) (ch : Byte) : Console :=
  { s with sent := s.sent ++ [(channel, ch)] }

/-- A call begins, at its lock if it has one. -/
def call (s : Console) (t : Tid) (channel : Channel) (data : List Byte) : Console :=
  s.setFrame t {
    point := if channel.locked then .locking else .fetching
    channel := channel
    data := data
    rest := data
    todo := []
    moved := []
    said := [] }

def acquired (s : Console) (t : Tid) : Console :=
  let f := s.frame t
  { s with writeLock := Function.update s.writeLock f.channel (some t) }.setFrame t
    { f with point := .fetching }

/-- The next character comes out of the uio, or out of the text that is printed. -/
def fetched (s : Console) (t : Tid) (ch : Byte) (rest : List Byte) : Console :=
  let f := s.frame t
  s.setFrame t { f with
    point := .putting
    rest := rest
    todo := f.channel.puts ch
    moved := f.moved ++ [ch] }

/-- The `P` of `putch_intr` comes back. -/
def gotWsem (s : Console) (t : Tid) : Console :=
  { s with csWsem := s.csWsem - 1 }.setFrame t { s.frame t with point := .sending }

/-- `cs_send` comes back to `putch_intr`. -/
def put (s : Console) (t : Tid) (ch : Byte) (more : List Byte) : Console :=
  s.setFrame t { s.frame t with
    point := if more = [] then .fetching else .putting
    todo := more
    said := (s.frame t).said ++ [ch] }

def leaving (s : Console) (t : Tid) : Console :=
  s.setFrame t { s.frame t with point := .releasing }

/-- The end of the call. -/
def released (s : Console) (t : Tid) : Console :=
  let f := s.frame t
  { s with
    writeLock := if f.channel.locked then Function.update s.writeLock f.channel none
      else s.writeLock
    finished := Function.update s.finished f.channel (s.finished f.channel ++ [f]) }.setFrame t
      { f with point := .outside }

/-- `config_con` up to `flush_delay_buf`, which puts what was printed before. -/
def configCon (s : Console) (t : Tid) : Console :=
  { s with
    csRsem := 0
    csWsem := 1
    csGotchar := 0
    theConsole := true
    delayedOutbuf := [] }.call t .putch s.delayedOutbuf

def callGetch (s : Console) (t : Tid) : Console :=
  s.setReader t { point := .getting, conIo := false, asked := 1, resid := 1, moved := [] }

def callRead (s : Console) (t : Tid) (resid : Nat) : Console :=
  s.setReader t { point := .locking, conIo := true, asked := resid, resid := resid, moved := [] }

def readAcquired (s : Console) (t : Tid) : Console :=
  { s with readLock := some t }.setReader t { s.reader t with point := .getting }

/-- The `P` of `getch_intr` comes back. -/
def gotRsem (s : Console) (t : Tid) : Console :=
  { s with csRsem := s.csRsem - 1 }.setReader t { s.reader t with point := .got }

/-- What `con_io` makes of a character that `getch` returns. -/
def newline (ch : Byte) : Byte := if ch = 13 then 10 else ch

/-- `getch` returns, and in `con_io` the character goes into the uio. -/
def took (s : Console) (t : Tid) : Console :=
  let r := s.reader t
  let ch := newline s.csGotchar
  { s with
    gotten := s.gotten ++ [s.csGotchar]
    delivered := s.delivered ++ if r.conIo then [ch] else [] }.setReader t
      (if r.conIo then { r with
        point := if ch = 10 then .releasing else .getting
        resid := r.resid - 1
        moved := r.moved ++ [ch] }
      else { r with point := .outside })

/-- `getch` returns, but the character does not go into the uio. -/
def tookFault (s : Console) (t : Tid) : Console :=
  { s with gotten := s.gotten ++ [s.csGotchar] }.setReader t
    { s.reader t with point := .releasing }

def readReleased (s : Console) (t : Tid) : Console :=
  { s with
    readLock := none
    reads := s.reads ++ [s.reader t] }.setReader t { s.reader t with point := .outside }

def readLeaving (s : Console) (t : Tid) : Console :=
  s.setReader t { s.reader t with point := .releasing }

end Console

/-- The threads take their steps in any order, the card is through with a character whenever it
likes, and an interrupt comes at any time.  So does a `putch_polled`: an interrupt handler, or
a thread that has interrupts off, may print. -/
inductive Step (s : Console) : Console → Prop
  | putchDelayed (ch : Byte) (s' : Console) (hboot : s.theConsole = false)
      (hdone : putchDelayed ch s = .ok () s') : Step s s'
  | configCon (t : Tid) (hboot : s.theConsole = false) (hat : (s.frame t).point = .outside) :
      Step s (s.configCon t)
  | putchPolled (ch : Byte) (s' : Console) (hcon : s.theConsole = true)
      (hdone : lserWritepolled ch s = .ok () s') : Step s (s'.record none ch)
  | irq : Step s (lserIrq s)
  | complete (ch : Byte) (hwire : s.onWire = some ch) : Step s (s.complete ch)
  | arrive (ch : Byte) : Step s (s.arrive ch)
  | call (t : Tid) (channel : Channel) (data : List Byte) (hcon : s.theConsole = true)
      (hat : (s.frame t).point = .outside) : Step s (s.call t channel data)
  | acquire (t : Tid) (hat : (s.frame t).point = .locking)
      (hfree : s.writeLock (s.frame t).channel = none) : Step s (s.acquired t)
  | fetch (t : Tid) (ch : Byte) (rest : List Byte) (hat : (s.frame t).point = .fetching)
      (hrest : (s.frame t).rest = ch :: rest) : Step s (s.fetched t ch rest)
  | fault (t : Tid) (hat : (s.frame t).point = .fetching) (hio : (s.frame t).channel = .conIo)
      (hmore : (s.frame t).rest ≠ []) : Step s (s.leaving t)
  | wsem (t : Tid) (hat : (s.frame t).point = .putting) (hP : 0 < s.csWsem) : Step s (s.gotWsem t)
  | send (t : Tid) (ch : Byte) (more : List Byte) (s' : Console)
      (hat : (s.frame t).point = .sending) (htodo : (s.frame t).todo = ch :: more)
      (hdone : lserWrite ch s = .ok () s') :
      Step s ((s'.record (s.frame t).channel ch).put t ch more)
  | leave (t : Tid) (hat : (s.frame t).point = .fetching) (hall : (s.frame t).rest = []) :
      Step s (s.leaving t)
  | release (t : Tid) (hat : (s.frame t).point = .releasing) : Step s (s.released t)
  | callGetch (t : Tid) (hcon : s.theConsole = true) (hat : (s.reader t).point = .outside) :
      Step s (s.callGetch t)
  | callRead (t : Tid) (resid : Nat) (hcon : s.theConsole = true)
      (hat : (s.reader t).point = .outside) : Step s (s.callRead t resid)
  | readAcquire (t : Tid) (hat : (s.reader t).point = .locking) (hfree : s.readLock = none) :
      Step s (s.readAcquired t)
  | rsem (t : Tid) (hat : (s.reader t).point = .getting) (hmore : 0 < (s.reader t).resid)
      (hP : 0 < s.csRsem) : Step s (s.gotRsem t)
  | take (t : Tid) (hat : (s.reader t).point = .got) : Step s (s.took t)
  | takeFault (t : Tid) (hat : (s.reader t).point = .got) (hio : (s.reader t).conIo = true) :
      Step s (s.tookFault t)
  | readLeave (t : Tid) (hat : (s.reader t).point = .getting) (hall : (s.reader t).resid = 0) :
      Step s (s.readLeaving t)
  | readRelease (t : Tid) (hat : (s.reader t).point = .releasing) : Step s (s.readReleased t)

abbrev Runs : Console → Console → Prop :=
  Relation.ReflTransGen Step

/-- After `config_lser`: the card is attached, but there is no console yet. -/
def configLser (regChar : Byte) : Console where
  onWire := none
  wirqActive := false
  regChar := regChar
  rirqActive := false
  lsWbusy := false
  csRsem := 0
  csWsem := 0
  csGotchar := 0
  theConsole := false
  delayedOutbuf := []
  frame _ := ⟨.outside, .putch, [], [], [], [], []⟩
  writeLock _ := none
  reader _ := ⟨.outside, false, 0, 0, []⟩
  readLock := none
  overrun := false
  line := []
  sent := []
  finished _ := []
  typed := []
  inputs := []
  gotten := []
  delivered := []
  reads := []

end OS161.Dev.Con
