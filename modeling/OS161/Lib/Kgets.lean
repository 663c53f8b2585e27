import Mathlib.Data.List.DropRight
import OS161.Libc.Strings

namespace OS161.Lib

open OS161.Data
open OS161.Libc

/-! `kgets.c`: a line typed at the console. -/

/-- What appears on the console. -/
inductive Echo where
  | putch (ch : Int)
  | kprintf (text : List Byte)
  | beep
  deriving DecidableEq, Repr

structure Typing where
  pos : Nat
  mem : Bytes
  echo : List Echo

namespace Typing

def print (s : Typing) (echo : List Echo) : Typing := { s with echo := s.echo ++ echo }

/-- `buf[pos] = ch`. -/
def put (buf : Nat) (ch : Int) (s : Typing) : Typing :=
  { s with mem := Function.update s.mem ((buf + s.pos) % 2 ^ 32) (BitVec.ofInt 8 ch) }

def backsp : List Echo := [.putch 8, .putch 32, .putch 8]

/-- `while (pos > 0 && test(buf[pos-1])) pos--`. -/
def eraseWhile (buf : Nat) (test : Byte → Bool) (mem : Bytes) : (pos : Nat) → Nat
  | 0 => 0
  | pos + 1 =>
      if test (mem ((buf + pos) % 2 ^ 32)) then eraseWhile buf test mem pos else pos + 1

/-- A loop of `backsp` calls. -/
def erase (buf : Nat) (test : Byte → Bool) (s : Typing) : Typing :=
  let pos := eraseWhile buf test s.mem s.pos
  { s with pos, echo := s.echo ++ (List.replicate (s.pos - pos) backsp).flatten }

/-- `kprintf("^R\n%s", buf)`. -/
def reprint (buf : Nat) (s : Typing) : Typing :=
  s.print [.kprintf ([94, 82, 10] ++ readString s.mem (2 ^ 32) buf)]

/-- `"end of file was found\n"`. -/
def endOfFile : List Byte :=
  [101, 110, 100, 32, 111, 102, 32, 102, 105, 108, 101, 32, 119, 97, 115, 32, 102, 111, 117,
    110, 100, 10]

/-- One round of the loop, and whether it was the last one. -/
def key (buf maxlen : Nat) (ch : Int) (s : Typing) : Bool × Typing :=
  if ch = 10 ∨ ch = 13 then (true, s.print [.putch 10])
  else if 32 ≤ ch ∧ ch < 127 ∧ s.pos < (maxlen + 2 ^ 32 - 1) % 2 ^ 32 then
    let s := (s.print [.putch ch]).put buf ch
    (false, { s with pos := s.pos + 1 })
  else if (ch = 8 ∨ ch = 127) ∧ 0 < s.pos then
    (false, { s.print backsp with pos := s.pos - 1 })
  else if ch = 3 then
    (true, { s.print [.putch 94, .putch 67, .putch 10] with pos := 0 })
  else if ch = 18 then (false, (s.put buf 0).reprint buf)
  else if ch = 21 then (false, s.erase buf fun _ => true)
  else if ch = 23 then (false, (s.erase buf (· = 32)).erase buf (· ≠ 32))
  else if ch = 4 then (false, s.print [.kprintf endOfFile])
  else (false, s.print [.beep])

/-- The characters typed so far, and whether the call has returned. -/
def keys (buf maxlen : Nat) : (input : List Int) → Typing → Bool × Typing
  | [], s => (false, s)
  | ch :: input, s =>
      let r := key buf maxlen ch s
      if r.1 then (true, r.2.put buf 0) else keys buf maxlen input r.2

end Typing

def kgets (buf maxlen : Nat) (input : List Int) (mem : Bytes) : Bool × Typing :=
  Typing.keys buf maxlen input ⟨0, mem, []⟩

/-! The line that the characters make. -/

/-- A line of at most `limit` characters after one more character. -/
def edit (limit : Nat) (line : List Byte) (ch : Int) : List Byte :=
  if 32 ≤ ch ∧ ch ≤ 126 then
    if line.length < limit then line ++ [BitVec.ofInt 8 ch] else line
  else if ch = 8 ∨ ch = 127 then line.dropLast
  else if ch = 21 then []
  else if ch = 23 then (line.rdropWhile (· = 32)).rdropWhile (· ≠ 32)
  else line

/-- The line, and whether it has been ended. -/
def typed (limit : Nat) : (input : List Int) → (line : List Byte) → Bool × List Byte
  | [], line => (false, line)
  | ch :: input, line =>
      if ch = 10 ∨ ch = 13 then (true, line)
      else if ch = 3 then (true, [])
      else typed limit input (edit limit line ch)

/-- The buffer holds the line, and nothing around it has changed since the call. -/
structure Holds (buf maxlen : Nat) (before : Bytes) (line : List Byte) (s : Typing) : Prop where
  pos : s.pos = line.length
  room : line.length < maxlen
  text : ∀ i (hi : i < line.length), s.mem (buf + i) = (line)[i]
  noNul : 0 ∉ line
  outside : ∀ a, a < buf ∨ buf + maxlen ≤ a → s.mem a = before a

section Keys

variable {buf maxlen : Nat} {before : Bytes} {line : List Byte} {s : Typing}

@[simp] theorem print_pos (s : Typing) (echo : List Echo) : (s.print echo).pos = s.pos := rfl

@[simp] theorem print_mem (s : Typing) (echo : List Echo) : (s.print echo).mem = s.mem := rfl

@[simp] theorem put_pos (buf : Nat) (ch : Int) (s : Typing) : (s.put buf ch).pos = s.pos := rfl

/-- What is printed does not matter to the line. -/
theorem Holds.print (h : Holds buf maxlen before line s) (echo : List Echo) :
    Holds buf maxlen before line (s.print echo) :=
  ⟨h.pos, h.room, h.text, h.noNul, h.outside⟩

/-- The line is cut where the position is set back to. -/
theorem Holds.take (h : Holds buf maxlen before line s) (hle : n ≤ line.length)
    (hmem : s'.mem = s.mem) (hpos : s'.pos = n) : Holds buf maxlen before (line.take n) s' where
  pos := by rw [hpos, List.length_take, Nat.min_eq_left hle]
  room := by
    have hroom := h.room
    rw [List.length_take]
    omega
  text i hi := by
    rw [List.length_take] at hi
    rw [hmem, h.text i (by omega), List.getElem_take]
  noNul hzero := h.noNul (List.mem_of_mem_take hzero)
  outside a ha := by rw [hmem, h.outside a ha]

variable (hfits : buf + maxlen ≤ 2 ^ 32)

include hfits

/-- A character put at the position stands behind the line. -/
theorem Holds.put (h : Holds buf maxlen before line s) (ch : Int) :
    Holds buf maxlen before line (s.put buf ch) ∧
      (s.put buf ch).mem (buf + line.length) = BitVec.ofInt 8 ch := by
  have hroom := h.room
  have hplace : (buf + s.pos) % 2 ^ 32 = buf + line.length := by
    rw [h.pos]
    exact Nat.mod_eq_of_lt (by omega)
  have hother : ∀ a, a ≠ buf + line.length → (s.put buf ch).mem a = s.mem a := by
    intro a ha
    rw [Typing.put, hplace]
    exact Function.update_of_ne ha _ _
  refine ⟨⟨h.pos, hroom, ?_, h.noNul, ?_⟩, ?_⟩
  · intro i hi
    rw [hother _ (by omega), h.text i hi]
  · intro a ha
    rw [hother _ (by omega), h.outside a ha]
  · rw [Typing.put, hplace]
    exact Function.update_self _ _ _

theorem Holds.stringAt (h : Holds buf maxlen before line s) :
    StringAt (s.put buf 0).mem buf line := by
  obtain ⟨hput, hend⟩ := h.put hfits 0
  refine ⟨?_, h.noNul⟩
  intro i hi
  rcases Nat.lt_or_ge i line.length with hlt | hge
  · rw [hput.text i hlt, List.getD_eq_getElem _ _ hlt]
  · obtain rfl : i = line.length := Nat.le_antisymm hi hge
    rw [hend, List.getD_eq_default _ _ (Nat.le_refl _)]
    rfl

/-- `^R` shows the line as it is. -/
theorem Holds.reprint (h : Holds buf maxlen before line s) :
    (s.put buf 0).reprint buf = (s.put buf 0).print [.kprintf ([94, 82, 10] ++ line)] := by
  have hroom := h.room
  rw [Typing.reprint, (h.stringAt hfits).readString (by omega) (by omega)]

/-- A loop that goes back over the line drops what it goes over. -/
theorem Holds.eraseWhile (h : Holds buf maxlen before line s) (test : Byte → Bool)
    (hle : n ≤ line.length) :
    Typing.eraseWhile buf test s.mem n = ((line.take n).rdropWhile test).length := by
  induction n with
  | zero => simp [Typing.eraseWhile]
  | succ n ih =>
      have hroom := h.room
      have hlast : s.mem ((buf + n) % 2 ^ 32) = (line)[n] := by
        rw [Nat.mod_eq_of_lt (by omega)]
        exact h.text n (by omega)
      rw [Typing.eraseWhile, hlast, ← List.take_append_getElem (l := line) (by omega),
        List.rdropWhile_concat]
      split
      case isTrue => exact ih (by omega)
      case isFalse =>
        rw [List.length_append, List.length_take, List.length_singleton]
        omega

theorem Holds.erase (h : Holds buf maxlen before line s) (test : Byte → Bool) :
    Holds buf maxlen before (line.rdropWhile test) (s.erase buf test) := by
  have hwhile := h.eraseWhile hfits test (Nat.le_refl _)
  rw [List.take_length] at hwhile
  have hfront := List.rdropWhile_prefix test (l := line)
  rw [List.prefix_iff_eq_take.mp hfront]
  refine h.take hfront.length_le rfl ?_
  rw [Typing.erase, h.pos]
  exact hwhile

omit hfits in
theorem Holds.key_newline (h : Holds buf maxlen before line s) (hch : ch = 10 ∨ ch = 13) :
    (Typing.key buf maxlen ch s).1 = true ∧
      Holds buf maxlen before line (Typing.key buf maxlen ch s).2 := by
  rw [Typing.key, if_pos hch]
  exact ⟨rfl, h.print _⟩

omit hfits in
theorem Holds.key_interrupt (h : Holds buf maxlen before line s) :
    (Typing.key buf maxlen 3 s).1 = true ∧
      Holds buf maxlen before [] (Typing.key buf maxlen 3 s).2 := by
  have hempty : Holds buf maxlen before (line.take 0)
      { s.print [.putch 94, .putch 67, .putch 10] with pos := 0 } :=
    h.take (Nat.zero_le _) rfl rfl
  exact ⟨rfl, hempty⟩

/-- Any other character leaves the loop running and edits the line. A printable character
that the buffer has no room for, and a backspace on the empty line, are taken for one that
means nothing. -/
theorem Holds.key_edit (h : Holds buf maxlen before line s) (hnewline : ¬ (ch = 10 ∨ ch = 13))
    (hinterrupt : ch ≠ 3) :
    (Typing.key buf maxlen ch s).1 = false ∧
      Holds buf maxlen before (edit (maxlen - 1) line ch) (Typing.key buf maxlen ch s).2 := by
  have hroom := h.room
  have hlimit : (maxlen + 2 ^ 32 - 1) % 2 ^ 32 = maxlen - 1 := by omega
  rw [Typing.key, if_neg hnewline, hlimit, h.pos]
  split
  case isTrue hprintable =>
    obtain ⟨hput, hchar⟩ := (h.print [.putch ch]).put hfits ch
    have hedit : edit (maxlen - 1) line ch = line ++ [BitVec.ofInt 8 ch] := by
      rw [edit, if_pos (by omega), if_pos hprintable.2.2]
    rw [hedit]
    refine ⟨rfl, ?_⟩
    constructor
    case pos => simp [h.pos]
    case room =>
      rw [List.length_append, List.length_singleton]
      omega
    case text =>
      intro i hi
      rw [List.length_append, List.length_singleton] at hi
      rcases Nat.lt_or_ge i line.length with hlt | hge
      · rw [List.getElem_append_left hlt]
        exact hput.text i hlt
      · obtain rfl : i = line.length := by omega
        rw [List.getElem_concat_length rfl]
        exact hchar
    case noNul =>
      rw [List.mem_append, List.mem_singleton]
      rintro (hzero | hzero)
      · exact h.noNul hzero
      · have hvalue : 0 = (ch % 256).toNat := congrArg BitVec.toNat hzero
        omega
    case outside => exact hput.outside
  case isFalse hfull =>
    split
    case isTrue hback =>
      have hedit : edit (maxlen - 1) line ch = line.take (line.length - 1) := by
        rw [edit, if_neg (by omega), if_pos hback.1, List.dropLast_eq_take]
      rw [hedit]
      exact ⟨rfl, h.take (Nat.sub_le _ _) rfl rfl⟩
    case isFalse hempty =>
      have hkept : (ch = 18 ∨ ch ≠ 21 ∧ ch ≠ 23) → edit (maxlen - 1) line ch = line := by
        intro hother
        unfold edit
        split
        case isTrue => rw [if_neg (by omega)]
        case isFalse =>
          split
          case isTrue hback =>
            have hnil : line = [] := List.eq_nil_of_length_eq_zero (by omega)
            rw [hnil]
            rfl
          case isFalse => rw [if_neg (by omega), if_neg (by omega)]
      split
      case isTrue hreprint =>
        rw [hkept (Or.inl hreprint)]
        exact ⟨rfl, (h.put hfits 0).1.print _⟩
      case isFalse =>
        split
        case isTrue herase =>
          have hedit : edit (maxlen - 1) line ch = line.rdropWhile fun _ => true := by
            rw [edit, if_neg (by omega), if_neg (by omega), if_pos herase]
            exact (List.rdropWhile_eq_nil_iff.mpr fun _ _ => rfl).symm
          rw [hedit]
          exact ⟨rfl, h.erase hfits _⟩
        case isFalse hline =>
          split
          case isTrue hword =>
            have hedit : edit (maxlen - 1) line ch =
                (line.rdropWhile (· = 32)).rdropWhile (· ≠ 32) := by
              rw [edit, if_neg (by omega), if_neg (by omega), if_neg hline, if_pos hword]
            rw [hedit]
            exact ⟨rfl, (h.erase hfits _).erase hfits _⟩
          case isFalse hword =>
            rw [hkept (Or.inr ⟨hline, hword⟩)]
            split
            case isTrue => exact ⟨rfl, h.print _⟩
            case isFalse => exact ⟨rfl, h.print _⟩

theorem Holds.keys (h : Holds buf maxlen before line s) (input : List Int) :
    (Typing.keys buf maxlen input s).1 = (typed (maxlen - 1) input line).1 ∧
      (∀ a, a < buf ∨ buf + maxlen ≤ a → (Typing.keys buf maxlen input s).2.mem a = before a) ∧
      ((Typing.keys buf maxlen input s).1 = true →
        StringAt (Typing.keys buf maxlen input s).2.mem buf (typed (maxlen - 1) input line).2) := by
  induction input generalizing line s with
  | nil => exact ⟨rfl, h.outside, fun hreturned => by cases hreturned⟩
  | cons ch input ih =>
      have hended : ∀ {line'}, (Typing.key buf maxlen ch s).1 = true ∧
          Holds buf maxlen before line' (Typing.key buf maxlen ch s).2 →
          Typing.keys buf maxlen (ch :: input) s =
            (true, (Typing.key buf maxlen ch s).2.put buf 0) ∧
          (∀ a, a < buf ∨ buf + maxlen ≤ a →
            ((Typing.key buf maxlen ch s).2.put buf 0).mem a = before a) ∧
          StringAt ((Typing.key buf maxlen ch s).2.put buf 0).mem buf line' := by
        intro line' hkey
        refine ⟨?_, (hkey.2.put hfits 0).1.outside, hkey.2.stringAt hfits⟩
        rw [Typing.keys, if_pos hkey.1]
      by_cases hnewline : ch = 10 ∨ ch = 13
      · obtain ⟨hrun, houtside, hstring⟩ := hended (h.key_newline hnewline)
        rw [hrun, typed, if_pos hnewline]
        exact ⟨rfl, houtside, fun _ => hstring⟩
      · by_cases hinterrupt : ch = 3
        · subst hinterrupt
          obtain ⟨hrun, houtside, hstring⟩ := hended h.key_interrupt
          rw [hrun, typed, if_neg hnewline, if_pos rfl]
          exact ⟨rfl, houtside, fun _ => hstring⟩
        · obtain ⟨hgoes, hholds⟩ := h.key_edit hfits hnewline hinterrupt
          have hrun : Typing.keys buf maxlen (ch :: input) s =
              Typing.keys buf maxlen input (Typing.key buf maxlen ch s).2 := by
            rw [Typing.keys]
            exact if_neg (by simp [hgoes])
          rw [hrun, typed, if_neg hnewline, if_neg hinterrupt]
          exact ih hholds

end Keys

/-- Whatever is typed, nothing outside of the buffer changes, and where the call returns
the buffer holds the line that was typed. -/
theorem kgets_line (hmaxlen : 0 < maxlen) (hfits : buf + maxlen ≤ 2 ^ 32) (input : List Int)
    (mem : Bytes) :
    (kgets buf maxlen input mem).1 = (typed (maxlen - 1) input []).1 ∧
      (∀ a, a < buf ∨ buf + maxlen ≤ a → (kgets buf maxlen input mem).2.mem a = mem a) ∧
      ((kgets buf maxlen input mem).1 = true →
        StringAt (kgets buf maxlen input mem).2.mem buf (typed (maxlen - 1) input []).2) := by
  have hstart : Holds buf maxlen mem [] ⟨0, mem, []⟩ :=
    ⟨rfl, hmaxlen, fun i hi => absurd hi (Nat.not_lt_zero i), List.not_mem_nil, fun _ _ => rfl⟩
  exact hstart.keys hfits input

/-- Two words, the second one erased, in a buffer of six bytes. -/
theorem kgets_line_erased :
    (kgets 8 6 [97, 98, 32, 99, 100, 100, 23, 13] fun _ => 7).1 =
        (typed 5 [97, 98, 32, 99, 100, 100, 23, 13] []).1 ∧
      (∀ a, a < 8 ∨ 8 + 6 ≤ a →
        (kgets 8 6 [97, 98, 32, 99, 100, 100, 23, 13] fun _ => 7).2.mem a = 7) ∧
      ((kgets 8 6 [97, 98, 32, 99, 100, 100, 23, 13] fun _ => 7).1 = true →
        StringAt (kgets 8 6 [97, 98, 32, 99, 100, 100, 23, 13] fun _ => 7).2.mem 8
          (typed 5 [97, 98, 32, 99, 100, 100, 23, 13] []).2) :=
  kgets_line (by decide) (by decide) _ _

end OS161.Lib
