import OS161.Data.Serial
import OS161.Vfs.Uio

namespace OS161.Dev.Emu

open OS161.Data
open OS161.Kern
open OS161.Vfs

/-! The driver of the emulator card, in `kern/dev/lamebus/emu.c`: the calls that make the card do
something on a file of the host.  An access to a register is one step, and so is one to the
buffer. -/

def EMU_MAXIO : Nat := 16384

def EMU_OP_OPEN : Nat := 1
def EMU_OP_CREATE : Nat := 2
def EMU_OP_EXCLCREATE : Nat := 3
def EMU_OP_CLOSE : Nat := 4
def EMU_OP_READ : Nat := 5
def EMU_OP_READDIR : Nat := 6
def EMU_OP_WRITE : Nat := 7
def EMU_OP_GETSIZE : Nat := 8
def EMU_OP_TRUNC : Nat := 9

/-- `translate_err`; `none` is its panic. -/
def translateErr : Nat → Option (Option Errno)
  | 1 => some none
  | 2 | 3 | 5 => none
  | 4 => some (some .ENOENT)
  | 6 => some (some .EEXIST)
  | 7 => some (some .EISDIR)
  | 8 => some (some .EIOERR)
  | 9 => some (some .ENFILE)
  | 10 => some (some .ENOSPC)
  | 11 => some (some .ENOTDIR)
  | 12 => some (some .EIOERR)
  | 13 => some (some .EUNIMP)
  | _ => some (some .EAGAIN)

/-- What the card finds when an operation is started. -/
structure Request where
  oper : Nat
  handle : Nat
  offset : Nat
  iolen : Nat
  iobuf : Bytes

/-- What it leaves when the operation has ended. -/
structure Reply where
  result : Nat
  handle : Nat
  offset : Nat
  iolen : Nat
  iobuf : Bytes

/-- The registers and the buffer of the card, the driver's variables, and the files of the host.
`oper` is the operation that is under way, and `irq` the card's interrupt. -/
structure EmuSoftc (Host : Type) where
  regHandle : Nat
  regOffset : Nat
  regIolen : Nat
  regResult : Nat
  eIobuf : Bytes
  oper : Option Nat
  irq : Bool
  eSem : Nat
  eResult : Nat
  host : Host

section

variable {Host : Type} (serve : Request → Host → Reply × Host)

namespace EmuSoftc

def request (s : EmuSoftc Host) (op : Nat) : Request where
  oper := op
  handle := s.regHandle
  offset := s.regOffset
  iolen := s.regIolen
  iobuf := s.eIobuf

/-- The operation ends, and the card interrupts. -/
def complete (s : EmuSoftc Host) (op : Nat) : EmuSoftc Host :=
  let (reply, host) := serve (s.request op) s.host
  { s with
    regHandle := reply.handle
    regOffset := reply.offset
    regIolen := reply.iolen
    regResult := reply.result
    eIobuf := reply.iobuf
    oper := none
    irq := true
    host := host }

def emuIrq (s : EmuSoftc Host) : EmuSoftc Host :=
  { s with
    eResult := s.regResult
    regResult := 0
    irq := false
    eSem := s.eSem + 1 }

/-- At most one of these is so: an operation is under way, there is an interrupt, or the
semaphore is up. -/
def Sound (s : EmuSoftc Host) : Prop :=
  s.oper.toList.length + s.irq.toNat + s.eSem ≤ 1

def Quiet (s : EmuSoftc Host) : Prop :=
  s.oper.toList.length + s.irq.toNat + s.eSem = 0

/-- What happens by itself. -/
def step (s : EmuSoftc Host) : Option (EmuSoftc Host) :=
  match s.oper with
  | some op => some (s.complete serve op)
  | none => if s.irq = true then some s.emuIrq else none

/-- The operation ends, and the interrupt is taken. -/
def settle (s : EmuSoftc Host) : EmuSoftc Host :=
  match s.oper with
  | some op => (s.complete serve op).emuIrq
  | none => if s.irq = true then s.emuIrq else s

@[simp] theorem oper_complete (s : EmuSoftc Host) : (s.complete serve op).oper = none := rfl

@[simp] theorem irq_complete (s : EmuSoftc Host) : (s.complete serve op).irq = true := rfl

@[simp] theorem eSem_complete (s : EmuSoftc Host) : (s.complete serve op).eSem = s.eSem := rfl

theorem Sound.step {s s' : EmuSoftc Host} (hsound : s.Sound) (hstep : s.step serve = some s') :
    s'.Sound ∧ ¬ s'.Quiet ∧ s'.settle serve = s.settle serve ∧ ¬ s.Quiet := by
  simp only [EmuSoftc.step] at hstep
  split at hstep
  case h_1 op hop =>
    cases hstep
    simp only [Sound, Quiet, settle, hop, Option.toList_some, List.length_singleton] at hsound ⊢
    simp
    omega
  case h_2 hop =>
    split at hstep
    case isTrue hirq =>
      cases hstep
      simp only [Sound, Quiet, settle, emuIrq, hop, hirq, Option.toList_none, List.length_nil,
        Bool.toNat_true] at hsound ⊢
      simp
      omega
    case isFalse => cases hstep

end EmuSoftc

open EmuSoftc

/-- The card and `emu_irq` beside the callers, who wait in `P(sc->e_sem)`. -/
def card : Device (EmuSoftc Host) where
  sound := Sound
  quiet := Quiet
  step := EmuSoftc.step serve
  ready s := decide (0 < s.eSem)
  take s := { s with eSem := s.eSem - 1 }
  settle := EmuSoftc.settle serve
  not_quiet := by
    intro s s' hstep hquiet
    exact (Sound.step serve (by simp only [Quiet] at hquiet; simp only [Sound]; omega) hstep).2.2.2
      hquiet
  sound_step hsound hstep := ⟨(hsound.step serve hstep).1, (hsound.step serve hstep).2.1⟩
  settle_step hsound hstep := (hsound.step serve hstep).2.2.1
  settle_ready := by
    intro s hsound hready
    rw [decide_eq_true_eq] at hready
    simp only [Sound] at hsound
    have hop : s.oper = none := by
      cases hop : s.oper with
      | none => rfl
      | some op =>
          rw [hop, Option.toList_some, List.length_singleton] at hsound
          omega
    have hirq : s.irq = false := by
      cases hirq : s.irq with
      | false => rfl
      | true =>
          rw [hirq, Bool.toNat_true] at hsound
          omega
    simp [settle, hop, hirq]
  quiet_take := by
    intro s hsound hready
    rw [decide_eq_true_eq] at hready
    simp only [Sound] at hsound
    simp only [Quiet]
    omega
  goes_on := by
    intro s _ hbusy
    simp only [Quiet] at hbusy
    cases hop : s.oper with
    | some op => exact .inr ⟨_, by rw [EmuSoftc.step, hop]⟩
    | none =>
        cases hirq : s.irq with
        | true => exact .inr ⟨s.emuIrq, by rw [EmuSoftc.step, hop]; exact if_pos hirq⟩
        | false =>
            refine .inl (decide_eq_true ?_)
            rw [hop, hirq] at hbusy
            simp at hbusy
            omega

/-! The calls, from `lock_acquire` to `lock_release`. -/

/-- What a call comes back with. -/
inductive Answer where
  /-- The error, and the new handle with whether it is a directory. -/
  | opened (result : Option Errno) (new : Option (Nat × Bool))
  | result (result : Option Errno)
  | moved (result : Option Errno) (uio : Uio)
  | size (result : Option Errno) (size : Option Nat)
  deriving DecidableEq, Repr

abbrev Code (Host : Type) := Section (EmuSoftc Host) Answer

variable {Host : Type}

def wregHandle (val : Nat) (next : Code Host) : Code Host :=
  .act (fun s => { s with regHandle := val }) fun _ => next

def wregIolen (val : Nat) (next : Code Host) : Code Host :=
  .act (fun s => { s with regIolen := val }) fun _ => next

def wregOffset (val : Nat) (next : Code Host) : Code Host :=
  .act (fun s => { s with regOffset := val }) fun _ => next

def rreg (reg : EmuSoftc Host → Nat) (next : Nat → Code Host) : Code Host :=
  .act id fun s => next (reg s)

def putIobuf (data : List Byte) (next : Code Host) : Code Host :=
  .act (fun s => { s with eIobuf := s.eIobuf.splice 0 data }) fun _ => next

def getIobuf (n : Nat) (next : List Byte → Code Host) : Code Host :=
  .act id fun s => next (s.eIobuf.slice 0 n)

/-- The write to `REG_OPER`, and `emu_waitdone`. -/
def operate (op : Nat) (next : Option Errno → Code Host) : Code Host :=
  .operate (fun s => { s with oper := some op }) fun s =>
    match translateErr s.eResult with
    | some result => next result
    | none => .stop

/-- The operation of `emu_open`. -/
def openOper (create excl : Bool) : Nat :=
  if create && excl then EMU_OP_EXCLCREATE
  else if create then EMU_OP_CREATE
  else EMU_OP_OPEN

/-- `emu_open` with a name that fits the buffer. -/
def emuOpen (handle : Nat) (name : List Byte) (create excl : Bool) : Code Host :=
  putIobuf (name ++ [0]) <| wregIolen name.length <| wregHandle handle <|
    operate (openOper create excl) fun result =>
      if result = none then
        rreg EmuSoftc.regHandle fun newhandle =>
          rreg EmuSoftc.regIolen fun iolen =>
            .done (.opened none (some (newhandle, decide (iolen > 0))))
      else .done (.opened result none)

/-- The loop of `emu_close`, with this many retries left. -/
def closeLoop (handle : Nat) : (retries : Nat) → Code Host
  | 0 => wregHandle handle <| operate EMU_OP_CLOSE fun result => .done (.result result)
  | retries + 1 => wregHandle handle <| operate EMU_OP_CLOSE fun result =>
      if result = some .EIOERR then closeLoop handle retries else .done (.result result)

/-- `emu_close`, by a caller that has the lock or takes it. -/
def emuClose (handle : Nat) : Code Host := closeLoop handle 10

/-- `uiomove` between the buffer and the uio of the caller; only the result and the uio are left
of it, and the bytes in the buffer. -/
def uiomove (ptr : List Byte) (n : Nat) (uio : Uio)
    (next : Option Errno → List Byte → Uio → Code Host) : Code Host :=
  match Uio.uiomove ptr n uio with
  | .ok bytes uio' => next none bytes uio'
  | .error err uio' => next (some err) (uio'.passed.drop uio.passed.length) uio'
  | .panic _ => .stop

def emuDoread (handle len op : Nat) (uio : Uio) : Code Host :=
  wregHandle handle <| wregIolen len <| wregOffset uio.uioOffset <| operate op fun result =>
    if result = none then
      rreg EmuSoftc.regIolen fun n => getIobuf n fun ptr =>
        uiomove ptr n uio fun result _ uio' =>
          rreg EmuSoftc.regOffset fun offset =>
            .done (.moved result { uio' with uioOffset := offset })
    else .done (.moved result uio)

def emuRead (handle len : Nat) (uio : Uio) : Code Host := emuDoread handle len EMU_OP_READ uio

def emuReaddir (handle len : Nat) (uio : Uio) : Code Host :=
  emuDoread handle len EMU_OP_READDIR uio

def emuWrite (handle len : Nat) (uio : Uio) : Code Host :=
  wregHandle handle <| wregIolen len <| wregOffset uio.uioOffset <| getIobuf len fun ptr =>
    uiomove ptr len uio fun result bytes uio' =>
      putIobuf bytes <|
        if result = none then
          operate EMU_OP_WRITE fun result => .done (.moved result uio')
        else .done (.moved result uio')

def emuGetsize (handle : Nat) : Code Host :=
  wregHandle handle <| operate EMU_OP_GETSIZE fun result =>
    if result = none then
      rreg EmuSoftc.regIolen fun size => .done (.size none (some size))
    else .done (.size result none)

def emuTrunc (handle : Nat) (len : Int) : Code Host :=
  wregHandle handle <| wregIolen (u32 len) <| operate EMU_OP_TRUNC fun result =>
    .done (.result result)

/-- A name that `emu_open` lets through. -/
abbrev Name := { name : List Byte // name.length + 1 ≤ EMU_MAXIO }

/-- A uio that passes the first assertion of the call. -/
abbrev UioOf (rw : UioRw) := { uio : Uio // uio.uioRw = rw }

inductive Call where
  | openName (handle : Nat) (name : Name) (create excl : Bool)
  | close (handle : Nat)
  | read (handle len : Nat) (uio : UioOf .UIO_READ)
  | readdir (handle len : Nat) (uio : UioOf .UIO_READ)
  | write (handle len : Nat) (uio : UioOf .UIO_WRITE)
  | getsize (handle : Nat)
  | trunc (handle : Nat) (len : Int)

def Call.code : Call → Code Host
  | .openName handle name create excl => emuOpen handle name create excl
  | .close handle => emuClose handle
  | .read handle len uio => emuRead handle len uio
  | .readdir handle len uio => emuReaddir handle len uio
  | .write handle len uio => emuWrite handle len uio
  | .getsize handle => emuGetsize handle
  | .trunc handle len => emuTrunc handle len

/-- `config_emu`, and whatever is in the registers then. -/
def configEmu (regHandle regOffset regIolen eResult : Nat) (eIobuf : Bytes) (host : Host) :
    EmuSoftc Host where
  regHandle := regHandle
  regOffset := regOffset
  regIolen := regIolen
  regResult := 0
  eIobuf := eIobuf
  oper := none
  irq := false
  eSem := 0
  eResult := eResult
  host := host

end

end OS161.Dev.Emu
