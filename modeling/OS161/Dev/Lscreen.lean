import OS161.Data.Sheet
import OS161.Kern.Base
import OS161.Libc.Memmove

namespace OS161.Dev.Lscreen

open OS161.Data
open OS161.Kern
open OS161.Libc

/-! `lscreen.c`, the full-screen console, and its attachment in `con_lscreen.c`. -/

def LSCR_IRQ_ENABLE : Nat := 1

def LSCR_IRQ_ACTIVE : BitVec 32 := 2

/-- Where the screen buffer starts within the card's slot. -/
def LSCR_SCREEN : Nat := 32768

def LB_NSLOTS : Nat := 32

def LB_SLOT_SIZE : Nat := 65536

/-- `MIPS_KSEG1 + 0x1fe00000`. -/
def LB_BASEADDR : Nat := 0xbfe00000

def lamebusMapArea (slot offset : Nat) : Nat := u32 (LB_BASEADDR + slot * LB_SLOT_SIZE + offset)

def splitxy (xy : Nat) : Nat × Nat := (xy >>> 16, xy &&& 0xffff)

def mergexy (x y : Nat) : Nat := u32 (x <<< 16) ||| y

/-- The `struct lscreen_softc`, the registers that the driver writes, the memory, and the
characters handed to the console above. -/
structure LscreenSoftc where
  lsWidth : Nat
  lsHeight : Nat
  lsCx : Nat
  lsCy : Nat
  lsScreen : Nat
  lsInput : Bool
  posn : Nat
  rirq : Nat
  mem : Bytes
  inputs : List (BitVec 32)

namespace LscreenSoftc

def lscreenIrq (rirq char : BitVec 32) (sc : LscreenSoftc) : LscreenSoftc :=
  if rirq &&& LSCR_IRQ_ACTIVE ≠ 0 then
    { sc with
      rirq := LSCR_IRQ_ENABLE
      inputs := if sc.lsInput then sc.inputs ++ [char] else sc.inputs }
  else sc

def lscreenNewline (sc : LscreenSoftc) : LscreenSoftc :=
  if u32 (sc.lsHeight - 1) ≤ sc.lsCy then
    let moved := u32 (sc.lsWidth * u32 (sc.lsHeight - 1))
    let scrolled := (memmove sc.lsScreen (u32 (sc.lsScreen + sc.lsWidth)) moved sc.mem).2
    { sc with
      mem := bzero (u32 (sc.lsScreen + moved)) sc.lsWidth scrolled
      lsCx := 0 }
  else
    { sc with
      lsCy := u32 (sc.lsCy + 1)
      lsCx := 0 }

def lscreenChar (ch : BitVec 32) (sc : LscreenSoftc) : LscreenSoftc :=
  let sc := if sc.lsWidth ≤ sc.lsCx then sc.lscreenNewline else sc
  { sc with
    mem := Function.update sc.mem
      (u32 (sc.lsScreen + u32 (u32 (sc.lsCy * sc.lsWidth) + sc.lsCx))) (ch.setWidth 8)
    lsCx := u32 (sc.lsCx + 1) }

def lscreenWrite (ch : BitVec 32) (sc : LscreenSoftc) : LscreenSoftc :=
  let sc := if ch = 10 then sc.lscreenNewline else sc.lscreenChar ch
  -- the cursor stays on the screen also behind the last character of a full row
  let ccx := if sc.lsCx = sc.lsWidth then u32 (sc.lsCx - 1) else sc.lsCx
  { sc with posn := mergexy ccx sc.lsCy }

def attachConToLscreen (sc : LscreenSoftc) : LscreenSoftc := { sc with lsInput := true }

end LscreenSoftc

/-- A card as it comes up: its slot, its size, its cursor and what its screen shows. -/
structure Display where
  slot : Nat
  width : Nat
  height : Nat
  x : Nat
  y : Nat
  mem : Bytes
  slot_lt : slot < LB_NSLOTS
  width_lt : width < 2 ^ 16
  x_lt : x < width
  y_lt : y < height
  /-- The screen ends with the slot. -/
  area : width * height ≤ LB_SLOT_SIZE - LSCR_SCREEN

def configLscreen (d : Display) : LscreenSoftc :=
  let size := splitxy (mergexy d.width d.height)
  let cursor := splitxy (mergexy d.x d.y)
  { lsWidth := size.1
    lsHeight := size.2
    lsCx := cursor.1
    lsCy := cursor.2
    lsScreen := lamebusMapArea d.slot LSCR_SCREEN
    lsInput := false
    posn := mergexy d.x d.y
    rirq := LSCR_IRQ_ENABLE
    mem := d.mem
    inputs := [] }

inductive Event where
  | write (ch : BitVec 32)
  | irq (rirq char : BitVec 32)
  | attach

namespace Event

def exec : Event → LscreenSoftc → LscreenSoftc
  | .write ch => .lscreenWrite ch
  | .irq rirq char => .lscreenIrq rirq char
  | .attach => .attachConToLscreen

end Event

def LscreenSoftc.after (sc : LscreenSoftc) (events : List Event) : LscreenSoftc :=
  events.foldl (fun sc event => event.exec sc) sc

theorem u32_of_lt {n : Nat} (hlt : n < 2 ^ 32) : u32 n = n := by
  unfold u32
  omega

theorem u32_pred {n : Nat} (hpos : 0 < n) (hlt : n < 2 ^ 32) : u32 (n - 1) = n - 1 := by
  unfold u32
  omega

theorem splitxy_mergexy {x y : Nat} (hx : x < 2 ^ 16) (hy : y < 2 ^ 16) :
    splitxy (mergexy x y) = (x, y) := by
  have hshift : x <<< 16 = x * 2 ^ 16 := Nat.shiftLeft_eq x 16
  have hmerge : mergexy x y = x * 2 ^ 16 + y := by
    rw [mergexy, u32_of_lt (by omega), ← Nat.shiftLeft_add_eq_or_of_lt hy, hshift]
  rw [splitxy, hmerge, Nat.shiftRight_eq_div_pow, Nat.and_two_pow_sub_one_eq_mod _ 16]
  exact Prod.ext (by omega) (by omega)

namespace Display

variable (d : Display)

/-- The address of the screen buffer. -/
def screen : Nat := LB_BASEADDR + d.slot * LB_SLOT_SIZE + LSCR_SCREEN

theorem screen_lt : d.screen + d.width * d.height < 2 ^ 32 := by
  have hslot := d.slot_lt
  have harea := d.area
  simp only [LB_NSLOTS, LB_SLOT_SIZE, LSCR_SCREEN] at hslot harea
  simp only [screen, LB_BASEADDR, LB_SLOT_SIZE, LSCR_SCREEN]
  omega

theorem width_pos : 0 < d.width := Nat.zero_lt_of_lt d.x_lt

theorem height_pos : 0 < d.height := Nat.zero_lt_of_lt d.y_lt

instance : NeZero d.width := ⟨Nat.ne_of_gt d.width_pos⟩

theorem height_lt : d.height < 2 ^ 16 := by
  have harea := d.area
  have hle : 1 * d.height ≤ d.width * d.height := Nat.mul_le_mul_right _ d.width_pos
  simp only [LB_SLOT_SIZE, LSCR_SCREEN] at harea
  omega

/-- A cell of the buffer is in it. -/
theorem cell_lt {x y : Nat} (hx : x < d.width) (hy : y < d.height) :
    y * d.width + x < d.width * d.height := by
  have hrows : (y + 1) * d.width ≤ d.height * d.width := Nat.mul_le_mul_right _ hy
  rw [Nat.add_mul, Nat.one_mul, Nat.mul_comm d.height] at hrows
  omega

/-- Two cells with one address are one cell. -/
theorem cell_inj {x y x' y' : Nat} (hx : x < d.width) (hx' : x' < d.width)
    (hsame : y * d.width + x = y' * d.width + x') : y = y' ∧ x = x' := by
  have hrow : (y * d.width + x) / d.width = (y' * d.width + x') / d.width := by rw [hsame]
  rw [Nat.mul_comm y, Nat.mul_comm y', Nat.mul_add_div d.width_pos, Nat.mul_add_div d.width_pos,
    Nat.div_eq_of_lt hx, Nat.div_eq_of_lt hx'] at hrow
  obtain rfl : y = y' := hrow
  exact ⟨rfl, Nat.add_left_cancel hsame⟩

/-- The rows that stand on the screen when the card comes up, as if they had been typed. -/
def rows : List (List Byte) :=
  (List.range d.y).map fun r => d.mem.slice (d.screen + r * d.width) d.width

/-- What stands left of the cursor. -/
def row : List Byte := d.mem.slice (d.screen + d.y * d.width) d.x

/-- What stands below the text: the rest of the first screen, and then empty rows. -/
def blank (r x : Nat) : Byte :=
  if r < d.height then d.mem (d.screen + (r * d.width + x)) else 0

def sheet : Sheet Byte d.width where
  above := d.rows
  row := d.row
  fits r hr := by
    obtain ⟨k, -, rfl⟩ := List.mem_map.mp hr
    rw [Bytes.length_slice, Nat.le_iff_lt_or_eq]
    exact .inr rfl
  row_le := by
    rw [row, Bytes.length_slice]
    exact Nat.le_of_lt d.x_lt

theorem cell_sheet {x y : Nat} (hy : y < d.height) :
    d.sheet.cell d.blank y x = d.mem (d.screen + (y * d.width + x)) := by
  have hblank : d.blank y x = d.mem (d.screen + (y * d.width + x)) := by
    rw [blank, if_pos hy]
  have hslice : ∀ n, (d.mem.slice (d.screen + y * d.width) n).getD x (d.blank y x) =
      d.mem (d.screen + (y * d.width + x)) := by
    intro n
    rw [hblank, ← Nat.add_assoc]
    rcases Nat.lt_or_ge x n with hin | hout
    · rw [List.getD_eq_getElem _ _ (by rw [Bytes.length_slice]; exact hin)]
      simp [Bytes.slice]
    · rw [List.getD_eq_default _ _ (by rw [Bytes.length_slice]; exact hout)]
  have habove : d.rows.length = d.y := by
    rw [rows, List.length_map, List.length_range]
  have htext : d.sheet.text = d.rows ++ [d.row] := rfl
  rw [Sheet.cell, htext, getD_concat, habove]
  rcases Nat.lt_trichotomy y d.y with hlt | rfl | hgt
  · have hrow : d.rows.getD y [] = d.mem.slice (d.screen + y * d.width) d.width := by
      rw [List.getD_eq_getElem _ _ (by omega)]
      simp [rows]
    rw [if_pos hlt, hrow]
    exact hslice d.width
  · rw [if_neg (Nat.lt_irrefl _), if_pos rfl]
    exact hslice d.x
  · rw [if_neg (by omega), if_neg (by omega)]
    exact hblank

/-- One row up, and the last row cleared. -/
structure Scrolled (mem mem' : Bytes) : Prop where
  moved : ∀ y, y + 1 < d.height → ∀ x < d.width,
    mem' (d.screen + (y * d.width + x)) = mem (d.screen + ((y + 1) * d.width + x))
  cleared : ∀ x < d.width, mem' (d.screen + ((d.height - 1) * d.width + x)) = 0
  outside : ∀ a, a < d.screen ∨ d.screen + d.width * d.height ≤ a → mem' a = mem a

theorem scrolled {moved : Nat} (hmoved : (d.height - 1) * d.width = moved) (mem : Bytes) :
    d.Scrolled mem (bzero (d.screen + moved) d.width
      (memmove d.screen (d.screen + d.width) moved mem).2) := by
  have hend := d.screen_lt
  have hsize : d.width * d.height = moved + d.width := by
    rw [← hmoved, ← Nat.succ_mul, Nat.succ_eq_add_one, Nat.sub_add_cancel d.height_pos,
      Nat.mul_comm]
  have hdst : d.screen + moved ≤ 2 ^ 32 := by omega
  have hsrc : d.screen + d.width + moved ≤ 2 ^ 32 := by omega
  have hlast : d.screen + moved + d.width ≤ 2 ^ 32 := by omega
  obtain ⟨-, hcopied⟩ := memmove_copied hdst hsrc mem
  have hcleared := bzero_cleared hlast (memmove d.screen (d.screen + d.width) moved mem).2
  constructor
  case moved =>
    intro y hy x hx
    have hrows : (y + 1) * d.width ≤ moved := by
      rw [← hmoved]
      exact Nat.mul_le_mul_right _ (Nat.le_sub_one_of_lt hy)
    rw [Nat.add_mul, Nat.one_mul] at hrows ⊢
    rw [hcleared.outside _ (by omega), hcopied.inside _ (by omega)]
    exact congrArg mem (by omega)
  case cleared =>
    intro x hx
    rw [hmoved, ← Nat.add_assoc]
    exact hcleared.inside x hx
  case outside =>
    intro a ha
    rw [hcleared.outside a (by omega), hcopied.outside a (by omega)]

/-- The rows that have left the screen. -/
def gone (s : Sheet Byte d.width) : Nat := s.text.length - d.height

/-- The screen shows the last rows of the sheet, with the cursor behind the text. -/
structure Shows (s : Sheet Byte d.width) (sc : LscreenSoftc) : Prop where
  width : sc.lsWidth = d.width
  height : sc.lsHeight = d.height
  screen : sc.lsScreen = d.screen
  x : sc.lsCx = s.row.length
  y : d.gone s + sc.lsCy = s.above.length
  y_lt : sc.lsCy < d.height
  cells : ∀ y < d.height, ∀ x < d.width,
    sc.mem (d.screen + (y * d.width + x)) = s.cell d.blank (d.gone s + y) x
  outside : ∀ a, a < d.screen ∨ d.screen + d.width * d.height ≤ a → sc.mem a = d.mem a

end Display

namespace Display.Shows

variable {d : Display} {s : Sheet Byte d.width} {sc : LscreenSoftc}

theorem lscreenNewline (h : d.Shows s sc) : d.Shows s.feed sc.lscreenNewline := by
  have hheight := d.height_pos
  have hlt := d.height_lt
  have hend := d.screen_lt
  have hy := h.y
  have hylt := h.y_lt
  have htext : d.gone s = s.above.length + 1 - d.height := by
    rw [Display.gone, Sheet.length_text]
  have hfed : d.gone s.feed = s.above.length + 2 - d.height := by
    rw [Display.gone, Sheet.length_text, Sheet.above_feed, Sheet.length_text]
  have hpred : u32 (sc.lsHeight - 1) = d.height - 1 := by
    rw [h.height]
    exact u32_pred hheight (by omega)
  rw [LscreenSoftc.lscreenNewline, hpred]
  split
  case isTrue hlast =>
    have hscrolled : d.gone s.feed = d.gone s + 1 := by omega
    generalize hmoved : (d.height - 1) * d.width = moved
    have hmoved_le : moved ≤ d.width * d.height := by
      rw [← hmoved, Nat.mul_comm d.width]
      exact Nat.mul_le_mul_right _ (Nat.sub_le _ 1)
    have hone : d.width ≤ d.width * d.height := Nat.le_mul_of_pos_right _ hheight
    have hcount : u32 (sc.lsWidth * (d.height - 1 : Nat)) = moved := by
      rw [h.width, ← Int.natCast_mul, Nat.mul_comm, hmoved]
      exact u32_of_lt (by omega)
    have hsecond : u32 (sc.lsScreen + sc.lsWidth) = d.screen + d.width := by
      rw [h.screen, h.width, ← Int.natCast_add]
      exact u32_of_lt (by omega)
    have hlastRow : u32 (sc.lsScreen + moved) = d.screen + moved := by
      rw [h.screen, ← Int.natCast_add]
      exact u32_of_lt (by omega)
    have hscroll := d.scrolled hmoved sc.mem
    simp only [hcount, hsecond, hlastRow]
    rw [h.screen, h.width]
    exact {
      width := rfl
      height := h.height
      screen := rfl
      x := rfl
      y := by
        rw [hscrolled, Sheet.above_feed, Sheet.length_text]
        show d.gone s + 1 + sc.lsCy = _
        omega
      y_lt := h.y_lt
      cells := by
        intro y hy x hx
        show bzero _ _ _ _ = _
        rw [Sheet.cell_feed, hscrolled]
        rcases Nat.lt_or_ge (y + 1) d.height with hmoves | hnew
        · rw [hscroll.moved y hmoves x hx, h.cells (y + 1) hmoves x hx, Nat.add_assoc,
            Nat.add_comm 1]
        · obtain rfl : y = d.height - 1 := by omega
          rw [hscroll.cleared x hx, Sheet.cell_below (by rw [Sheet.length_text]; omega),
            Display.blank, if_neg (by omega)]
      outside := by
        intro a ha
        show bzero _ _ _ a = _
        rw [hscroll.outside a ha, h.outside a ha] }
  case isFalse hroom =>
    have hsame : d.gone s.feed = d.gone s := by omega
    have hnext : u32 (sc.lsCy + 1) = sc.lsCy + 1 := by
      unfold u32
      omega
    exact {
      width := h.width
      height := h.height
      screen := h.screen
      x := rfl
      y := by
        rw [hsame, Sheet.above_feed, Sheet.length_text]
        show d.gone s + u32 (sc.lsCy + 1) = _
        omega
      y_lt := by
        show u32 (sc.lsCy + 1) < _
        omega
      cells := fun y hy x hx => by rw [Sheet.cell_feed, hsame, ← h.cells y hy x hx]
      outside := h.outside }

theorem ready (h : d.Shows s sc) :
    d.Shows s.ready (if sc.lsWidth ≤ sc.lsCx then sc.lscreenNewline else sc) := by
  have hle := s.row_le
  rcases Nat.lt_or_ge s.row.length d.width with hroom | hfull
  · rw [Sheet.ready_of_lt hroom, if_neg (by rw [h.width, h.x]; omega)]
    exact h
  · rw [Sheet.ready_of_full (Nat.le_antisymm hle hfull), if_pos (by rw [h.width, h.x]; omega)]
    exact h.lscreenNewline

theorem lscreenChar (h : d.Shows s sc) (ch : BitVec 32) :
    d.Shows (s.put (ch.setWidth 8)) (sc.lscreenChar ch) := by
  have hready := h.ready
  rw [LscreenSoftc.lscreenChar]
  generalize (if sc.lsWidth ≤ sc.lsCx then sc.lscreenNewline else sc) = sc' at hready
  have hwidth := d.width_lt
  have hend := d.screen_lt
  have hroom := s.ready_lt
  have hx : sc'.lsCx < d.width := by
    rw [hready.x]
    exact hroom
  have hcell := d.cell_lt hx hready.y_lt
  have hindex : u32 (u32 (sc'.lsCy * sc'.lsWidth) + sc'.lsCx) = sc'.lsCy * d.width + sc'.lsCx := by
    rw [hready.width, ← Int.natCast_mul, u32_of_lt (by omega), ← Int.natCast_add]
    exact u32_of_lt (by omega)
  have haddr : u32 (sc'.lsScreen + (sc'.lsCy * d.width + sc'.lsCx : Nat)) =
      d.screen + (sc'.lsCy * d.width + sc'.lsCx) := by
    rw [hready.screen, ← Int.natCast_add]
    exact u32_of_lt (by omega)
  have hnext : u32 (sc'.lsCx + 1) = sc'.lsCx + 1 := by
    unfold u32
    omega
  have hsame : d.gone (s.put (ch.setWidth 8)) = d.gone s.ready := by
    rw [Display.gone, Display.gone, Sheet.length_text, Sheet.length_text]
    rfl
  simp only [hindex, haddr, hnext]
  exact {
    width := hready.width
    height := hready.height
    screen := hready.screen
    x := by
      show sc'.lsCx + 1 = (s.ready.row ++ [ch.setWidth 8]).length
      rw [List.length_append, hready.x]
      rfl
    y := by
      rw [hsame]
      exact hready.y
    y_lt := hready.y_lt
    cells := by
      intro y hy x hx'
      rw [Sheet.cell_put, hsame, ← Sheet.cell_ready, ← hready.x, ← hready.y]
      by_cases hat : y = sc'.lsCy ∧ x = sc'.lsCx
      · obtain ⟨rfl, rfl⟩ := hat
        rw [if_pos ⟨rfl, rfl⟩]
        exact Function.update_self ..
      · rw [if_neg (by omega), ← hready.cells y hy x hx']
        refine Function.update_of_ne ?_ _ _
        intro haddr'
        exact hat (d.cell_inj hx' hx (Nat.add_left_cancel haddr'))
    outside := by
      intro a ha
      rw [← hready.outside a ha]
      exact Function.update_of_ne (by omega) _ _ }

end Display.Shows

/-- The key for a character of the console. -/
def key (ch : BitVec 32) : Option Byte := if ch = 10 then none else some (ch.setWidth 8)

namespace Event

def key? : Event → Option (Option Byte)
  | .write ch => some (key ch)
  | .irq _ _ => none
  | .attach => none

end Event

/-- Between two calls the card's cursor is the driver's, held back at the end of a row. -/
structure Display.Drawn (d : Display) (s : Sheet Byte d.width) (sc : LscreenSoftc) : Prop
    extends d.Shows s sc where
  cursor : splitxy sc.posn = (min sc.lsCx (d.width - 1), sc.lsCy)

namespace Display.Drawn

variable {d : Display} {s : Sheet Byte d.width} {sc : LscreenSoftc}

theorem of_shows (h : d.Shows s sc) (hposn : sc.posn =
      mergexy (if sc.lsCx = sc.lsWidth then u32 (sc.lsCx - 1) else sc.lsCx) sc.lsCy) :
    d.Drawn s sc := by
  refine ⟨h, ?_⟩
  have hwidth := d.width_lt
  have hpos := d.width_pos
  have hheight := d.height_lt
  have hy := h.y_lt
  have hx : sc.lsCx ≤ d.width := by
    rw [h.x]
    exact s.row_le
  have hheld : (if sc.lsCx = sc.lsWidth then u32 (sc.lsCx - 1) else sc.lsCx) =
      min sc.lsCx (d.width - 1) := by
    rw [h.width]
    split
    case isTrue hfull => rw [u32_pred (by omega) (by omega), hfull, Nat.min_eq_right (by omega)]
    case isFalse hroom => rw [Nat.min_eq_left (by omega)]
  rw [hposn, hheld]
  exact splitxy_mergexy (by omega) (by omega)

theorem lscreenWrite (h : d.Drawn s sc) (ch : BitVec 32) :
    d.Drawn (s.type (key ch)) (sc.lscreenWrite ch) := by
  rw [LscreenSoftc.lscreenWrite, key]
  split
  case isTrue hfeed =>
    have hfed := h.lscreenNewline
    exact of_shows { hfed with } rfl
  case isFalse hchar =>
    have hput := h.toShows.lscreenChar ch
    exact of_shows { hput with } rfl

theorem exec (h : d.Drawn s sc) (event : Event) :
    d.Drawn (s.typed event.key?.toList) (event.exec sc) := by
  cases event with
  | write ch => exact h.lscreenWrite ch
  | irq rirq char =>
      rw [Event.exec, LscreenSoftc.lscreenIrq]
      split
      · exact { h with }
      · exact h
  | attach => exact { h with }

theorem after (h : d.Drawn s sc) (events : List Event) :
    d.Drawn (s.typed (events.filterMap Event.key?)) (sc.after events) := by
  induction events generalizing s sc with
  | nil => exact h
  | cons event events ih =>
      have hrest := ih (h.exec event)
      rw [← Sheet.typed_append] at hrest
      rw [List.filterMap_cons]
      cases hkey : event.key? with
      | none =>
          rw [hkey] at hrest
          exact hrest
      | some key =>
          rw [hkey] at hrest
          exact hrest

theorem start (d : Display) : d.Drawn d.sheet (configLscreen d) := by
  have hwidth := d.width_lt
  have hheight := d.height_lt
  have hx := d.x_lt
  have hy := d.y_lt
  have harea := d.screen_lt
  have hsize := splitxy_mergexy hwidth hheight
  have hcursor := splitxy_mergexy (x := d.x) (y := d.y) (by omega) (by omega)
  have habove : d.sheet.above.length = d.y := by
    show (List.map _ _).length = d.y
    rw [List.length_map, List.length_range]
  have hgone : d.gone d.sheet = 0 := by
    rw [Display.gone, Sheet.length_text, habove]
    omega
  refine ⟨?_, ?_⟩
  case refine_1 =>
    exact {
      width := congrArg Prod.fst hsize
      height := congrArg Prod.snd hsize
      screen := by
        show lamebusMapArea d.slot LSCR_SCREEN = d.screen
        have hslot := d.slot_lt
        simp only [LB_NSLOTS] at hslot
        simp only [lamebusMapArea, Display.screen, LB_BASEADDR, LB_SLOT_SIZE, LSCR_SCREEN, u32]
        omega
      x := by
        rw [configLscreen, hcursor]
        exact (Bytes.length_slice ..).symm
      y := by
        rw [configLscreen, hcursor, hgone, habove, Nat.zero_add]
      y_lt := by
        rw [configLscreen, hcursor]
        exact hy
      cells := by
        intro y hy x hx
        rw [hgone, Nat.zero_add, d.cell_sheet hy]
        rfl
      outside := fun _ _ => rfl }
  case refine_2 =>
    have hx' : d.x ≤ d.width - 1 := by omega
    simp only [configLscreen, hcursor, Nat.min_eq_left hx']

end Display.Drawn

/-- What stood up to the cursor and what was written behind it, cut into rows. -/
def Display.written (d : Display) (events : List Event) : List (List Byte) :=
  d.rows ++ (linesOf (d.row.map some ++ events.filterMap Event.key?)).flatMap (rowsOf d.width)

theorem LscreenSoftc.lscreenNewline_input (sc : LscreenSoftc) :
    sc.lscreenNewline.lsInput = sc.lsInput ∧ sc.lscreenNewline.inputs = sc.inputs := by
  rw [lscreenNewline]
  split
  · exact ⟨rfl, rfl⟩
  · exact ⟨rfl, rfl⟩

theorem LscreenSoftc.lscreenWrite_input (sc : LscreenSoftc) (ch : BitVec 32) :
    (sc.lscreenWrite ch).lsInput = sc.lsInput ∧ (sc.lscreenWrite ch).inputs = sc.inputs := by
  rw [lscreenWrite]
  split
  · exact sc.lscreenNewline_input
  · show (if sc.lsWidth ≤ sc.lsCx then sc.lscreenNewline else sc).lsInput = _ ∧
      (if sc.lsWidth ≤ sc.lsCx then sc.lscreenNewline else sc).inputs = _
    split
    · exact sc.lscreenNewline_input
    · exact ⟨rfl, rfl⟩

/-- A character that an interrupt brings. -/
def Event.typed? : Event → Option (BitVec 32)
  | .write _ => none
  | .irq rirq char => if rirq &&& LSCR_IRQ_ACTIVE ≠ 0 then some char else none
  | .attach => none

/-- From the attachment on what interrupts bring goes up to the console, once and in order. -/
theorem inputs_after {sc : LscreenSoftc} (hinput : sc.lsInput = true) (events : List Event) :
    (sc.after events).inputs = sc.inputs ++ events.filterMap Event.typed? := by
  induction events generalizing sc with
  | nil => exact (List.append_nil _).symm
  | cons event events ih =>
      have hstep : (event.exec sc).lsInput = true ∧
          (event.exec sc).inputs = sc.inputs ++ event.typed?.toList := by
        cases event with
        | write ch =>
            have hsame := sc.lscreenWrite_input ch
            exact ⟨hsame.1.trans hinput, hsame.2.trans (List.append_nil _).symm⟩
        | irq rirq char =>
            rw [Event.exec, LscreenSoftc.lscreenIrq, Event.typed?]
            by_cases hactive : rirq &&& LSCR_IRQ_ACTIVE ≠ 0
            · rw [if_pos hactive, if_pos hactive, if_pos hinput]
              exact ⟨hinput, rfl⟩
            · rw [if_neg hactive, if_neg hactive]
              exact ⟨hinput, (List.append_nil _).symm⟩
        | attach => exact ⟨rfl, (List.append_nil _).symm⟩
      have hrest := ih hstep.1
      rw [hstep.2, List.append_assoc] at hrest
      rw [List.filterMap_cons]
      cases htyped : event.typed? with
      | none =>
          rw [htyped] at hrest
          exact hrest
      | some char =>
          rw [htyped] at hrest
          exact hrest

end OS161.Dev.Lscreen
