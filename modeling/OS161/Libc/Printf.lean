import OS161.Kern.Base
import OS161.Libc.Strings

namespace OS161.Libc

open OS161.Data
open OS161.Kern

/-! `__printf.c`. -/

/-- Room for the digits of a `long` and a NUL. -/
def NUMBER_BUF_SIZE : Nat := 4 * 8 / 3 + 2

/-- An argument: a word, which is an `int`, a `long` or a pointer to be printed as a number,
or a pointer to a string, which may be `NULL`. -/
inductive Arg where
  | word (w : BitVec 32)
  | string (s : Option (List Byte))
  deriving DecidableEq, Repr

inductive Size where
  | INTSZ
  | LONGSZ
  deriving DecidableEq, Repr

/-- The state of a call: `σ` is what the send function keeps. -/
structure PF (σ : Type) where
  clientdata : σ
  ap : List Arg
  charcount : Int
  inPct : Bool
  size : Size
  num : BitVec 32
  sign : Int
  spacing : Int
  rightspc : Bool
  fillchar : Byte
  base : Nat
  baseprefix : Bool
  altformat : Bool
  deriving DecidableEq, Repr

/-- The characters of a string, its first NUL and what follows left out. -/
def cstr (s : List Byte) : List Byte := s.takeWhile (· ≠ 0)

def strlen (s : List Byte) : Nat := (cstr s).length

/-- `"0123456789abcdef"`. -/
def digits : List Byte :=
  [48, 49, 50, 51, 52, 53, 54, 55, 56, 57, 97, 98, 99, 100, 101, 102]

/-- The loop of `__pf_printnum`, with `left` slots of the buffer before the last digit: the
place of the first digit and the buffer. Where the slots are used up the loop would write
in front of the buffer. -/
def putDigits (base : Nat) : (left xnum : Nat) → (buf : Bytes) → Option (Nat × Bytes)
  | 0, _, _ => none
  | left + 1, xnum, buf =>
      let buf := Function.update buf left (digits.getD (xnum % base) 0)
      let xnum := xnum / base
      if xnum > 0 then putDigits base left xnum buf else some (left, buf)

/-- The text that `__pf_printnum` builds in its buffer. -/
def numberText (base xnum : Nat) (buf : Bytes) : Option (List Byte) := do
  let buf := Function.update buf (NUMBER_BUF_SIZE - 1) 0
  let (x, buf) ← putDigits base (NUMBER_BUF_SIZE - 1) xnum buf
  pure (cstr (buf.slice x (NUMBER_BUF_SIZE - x)))

namespace PF

variable {σ : Type}

def endfield (pf : PF σ) : PF σ :=
  { pf with
    inPct := false, size := .INTSZ, num := 0, sign := 0, spacing := 0, rightspc := false,
    fillchar := 32, base := 0, baseprefix := false, altformat := false }

/-- The modifiers; any other character fails the assertion. -/
def modifier (ch : Byte) (pf : PF σ) : Option (PF σ) :=
  if ch = 35 then some { pf with altformat := true }
  else if ch = 45 then some { pf with rightspc := true }
  else if ch = 108 then
    some (if pf.size = .LONGSZ then pf else { pf with size := .LONGSZ })
  else if ch = 113 then some { pf with size := .LONGSZ }
  else if ch = 48 then
    some (if pf.spacing > 0 then { pf with spacing := int32 (pf.spacing * 10) }
      else { pf with fillchar := 48 })
  else if 48 < ch ∧ ch ≤ 57 then
    some { pf with spacing := int32 (int32 (pf.spacing * 10) + (ch.toNat - 48)) }
  else none

/-- `va_arg` for a word. An `int` and a `long` are one, whatever the size says. -/
def vaWord (pf : PF σ) : Option (BitVec 32 × PF σ) :=
  match pf.ap with
  | .word w :: ap => some (w, { pf with ap })
  | _ => none

def vaString (pf : PF σ) : Option (Option (List Byte) × PF σ) :=
  match pf.ap with
  | .string s :: ap => some (s, { pf with ap })
  | _ => none

def getnum (ch : Byte) (pf : PF σ) : Option (PF σ) := do
  let (w, pf) ← pf.vaWord
  if ch = 112 then pure { pf with num := w }
  else if ch = 100 then
    if w.toInt < 0 then pure { pf with sign := -1, num := -w } else pure { pf with num := w }
  else pure { pf with num := w }

def setbase (ch : Byte) (pf : PF σ) : PF σ :=
  let pf :=
    if ch = 100 ∨ ch = 117 then { pf with base := 10 }
    else if ch = 120 ∨ ch = 112 then { pf with base := 16 }
    else if ch = 111 then { pf with base := 8 }
    else pf
  if pf.altformat = true ∨ ch = 112 then { pf with baseprefix := true } else pf

variable (send : σ → List Byte → σ)

/-- Send some text on, and count it. -/
def print (txt : List Byte) (pf : PF σ) : PF σ :=
  { pf with
    clientdata := send pf.clientdata txt, charcount := int32 (pf.charcount + txt.length) }

def fill : (spc : Nat) → PF σ → PF σ
  | 0, pf => pf
  | spc + 1, pf => fill spc (pf.print send [pf.fillchar])

/-- The prefixes and the text, extended to the field width. -/
def printstuff (pre pre2 stuff : List Byte) (pf : PF σ) : PF σ :=
  let len := int32 (int32 (strlen pre + strlen pre2) + strlen stuff)
  let spc := if pf.spacing > len then int32 (pf.spacing - len) else 0
  let pf := if spc > 0 ∧ pf.rightspc = false ∧ pf.fillchar ≠ 48 then pf.fill send spc.toNat
    else pf
  let pf := pf.print send (cstr pre)
  let pf := pf.print send (cstr pre2)
  let pf := if spc > 0 ∧ pf.rightspc = false ∧ pf.fillchar = 48 then pf.fill send spc.toNat
    else pf
  let pf := pf.print send (cstr stuff)
  if spc > 0 ∧ pf.rightspc = true then pf.fill send spc.toNat else pf

/-- The buffer holds whatever was on the stack. -/
def printnum (buf : Bytes) (pf : PF σ) : Option (PF σ) := do
  let x ← numberText pf.base pf.num.toNat buf
  let bprefix :=
    if pf.baseprefix = true ∧ pf.base = 16 then [48, 120]
    else if pf.baseprefix = true ∧ pf.base = 8 then [48]
    else []
  let sprefix := if pf.sign ≠ 0 then [45] else []
  pure (pf.printstuff send sprefix bprefix x)

/-- `"#-ql0123456789"`. -/
def modifiers : List Byte := [35, 45, 113, 108, 48, 49, 50, 51, 52, 53, 54, 55, 56, 57]

/-- `"doupx"`. -/
def integerTypes : List Byte := [100, 111, 117, 112, 120]

/-- `"(null)"`. -/
def nullText : List Byte := [40, 110, 117, 108, 108, 41]

/-- One character of the format. -/
def pfSend (buf : Bytes) (ch : Byte) (pf : PF σ) : Option (PF σ) :=
  if ch = 0 then none
  else if pf.inPct = false ∧ ch ≠ 37 then some (pf.print send [ch])
  else if pf.inPct = false then some { pf with inPct := true }
  else if (strchr modifiers ch).isSome then pf.modifier ch
  else if (strchr integerTypes ch).isSome then do
    let pf ← pf.getnum ch
    let pf ← (pf.setbase ch).printnum send buf
    pure pf.endfield
  else if ch = 115 then do
    let (str, pf) ← pf.vaString
    pure (pf.printstuff send [] [] (str.getD nullText)).endfield
  else do
    let (x, pf) ← if ch = 99 then do
        let (w, pf) ← pf.vaWord
        pure (w.setWidth 8, pf)
      else pure (ch, pf)
    pure (pf.printstuff send [] [] [x, 0]).endfield

/-- The state before the first character. -/
def start (clientdata : σ) (ap : List Arg) : PF σ :=
  { clientdata, ap, charcount := 0, inPct := false, size := .INTSZ, num := 0, sign := 0,
    spacing := 0, rightspc := false, fillchar := 32, base := 0, baseprefix := false,
    altformat := false }

/-- The loop over the format. -/
def sendAll (buf : Bytes) : (format : List Byte) → PF σ → Option (PF σ)
  | [], pf => some pf
  | ch :: format, pf => do
      let pf ← pf.pfSend send buf ch
      sendAll buf format pf

end PF

/-- `__vprintf`: what the send function has come to and the number of characters; nothing
where an assertion fails or an argument is not of the type that the format says. -/
def vprintf (send : σ → List Byte → σ) (buf : Bytes) (clientdata : σ) (format : List Byte)
    (ap : List Arg) : Option (σ × Int) := do
  let pf ← PF.sendAll send buf (cstr format) (PF.start clientdata ap)
  pure (pf.clientdata, pf.charcount)

end OS161.Libc
