import Mathlib

namespace OS161.Data

/-! Text typed on rows of a fixed width. A key is a character, or `none` for a line feed. -/

universe u

variable {α : Type u} {width : Nat} {line : List α} {c : α}

/-- The characters between the line feeds. -/
def linesOf (keys : List (Option α)) : List (List α) :=
  (keys.splitOnP Option.isNone).map (List.filterMap id)

/-- A line cut into rows; only an empty line makes an empty row. -/
def rowsOf (width : Nat) [NeZero width] (line : List α) : List (List α) :=
  if line.length ≤ width then [line]
  else line.take width :: rowsOf width (line.drop width)
termination_by line.length
decreasing_by
  have := Nat.pos_of_ne_zero (NeZero.ne width)
  rw [List.length_drop]
  omega

section

variable [NeZero width]

end

theorem getD_concat (l : List α) (a d : α) (i : Nat) :
    (l ++ [a]).getD i d =
      if i < l.length then l.getD i d else if i = l.length then a else d := by
  rcases Nat.lt_trichotomy i l.length with hlt | rfl | hgt
  · rw [if_pos hlt, List.getD_append _ _ _ _ hlt]
  · rw [if_neg (Nat.lt_irrefl _), if_pos rfl, List.getD_append_right _ _ _ _ (Nat.le_refl _),
      Nat.sub_self, List.getD_cons_zero]
  · have hout : (l ++ [a]).length ≤ i := by
      rw [List.length_append, List.length_singleton]
      omega
    rw [if_neg (by omega), if_neg (by omega), List.getD_eq_default _ _ hout]

/-- The rows done and the row in hand, each of at most `width` cells. -/
@[ext] structure Sheet (α : Type u) (width : Nat) where
  above : List (List α)
  row : List α
  fits : ∀ r ∈ above, r.length ≤ width
  row_le : row.length ≤ width

namespace Sheet

variable {s : Sheet α width} {keys : List (Option α)} {blank : Nat → Nat → α} {r x : Nat}

def text (s : Sheet α width) : List (List α) := s.above ++ [s.row]

/-- What stands in a cell that text may cover. -/
def cell (s : Sheet α width) (blank : Nat → Nat → α) (r x : Nat) : α :=
  (s.text.getD r []).getD x (blank r x)

def feed (s : Sheet α width) : Sheet α width where
  above := s.text
  row := []
  fits r hr := by
    rcases List.mem_append.mp hr with habove | hrow
    · exact s.fits r habove
    · rw [List.mem_singleton.mp hrow]
      exact s.row_le
  row_le := Nat.zero_le _

/-- The sheet with room for one more character in its row. -/
def ready (s : Sheet α width) : Sheet α width :=
  if s.row.length < width then s else s.feed

theorem ready_lt [NeZero width] (s : Sheet α width) : s.ready.row.length < width := by
  rw [ready]
  split
  · assumption
  · exact Nat.pos_of_ne_zero (NeZero.ne width)

def put [NeZero width] (s : Sheet α width) (c : α) : Sheet α width where
  above := s.ready.above
  row := s.ready.row ++ [c]
  fits := s.ready.fits
  row_le := by
    have := s.ready_lt
    rw [List.length_append, List.length_singleton]
    omega

def type [NeZero width] (s : Sheet α width) : Option α → Sheet α width
  | none => s.feed
  | some c => s.put c

def typed [NeZero width] (s : Sheet α width) (keys : List (Option α)) : Sheet α width :=
  keys.foldl type s

theorem typed_append [NeZero width] (s : Sheet α width) (keys more : List (Option α)) :
    s.typed (keys ++ more) = (s.typed keys).typed more :=
  List.foldl_append

@[simp] theorem length_text (s : Sheet α width) : s.text.length = s.above.length + 1 := by
  rw [text, List.length_append, List.length_singleton]

@[simp] theorem above_feed (s : Sheet α width) : s.feed.above = s.text := rfl

@[simp] theorem row_feed (s : Sheet α width) : s.feed.row = [] := rfl

theorem text_feed (s : Sheet α width) : s.feed.text = s.text ++ [[]] := rfl

theorem ready_of_lt (hlt : s.row.length < width) : s.ready = s := by rw [ready, if_pos hlt]

theorem ready_of_full (hfull : s.row.length = width) : s.ready = s.feed := by
  rw [ready, if_neg (by omega)]

/-- A line feed uncovers nothing. -/
theorem cell_feed (s : Sheet α width) (blank : Nat → Nat → α) (r x : Nat) :
    s.feed.cell blank r x = s.cell blank r x := by
  rw [cell, cell, text_feed, getD_concat]
  split
  case isTrue => rfl
  case isFalse hout =>
    rw [List.getD_eq_default _ _ (Nat.le_of_not_lt hout)]
    split <;> rfl

theorem cell_ready (s : Sheet α width) (blank : Nat → Nat → α) (r x : Nat) :
    s.ready.cell blank r x = s.cell blank r x := by
  rw [ready]
  split
  · rfl
  · exact s.cell_feed blank r x

/-- A character covers the next cell of the row and no other. -/
theorem cell_put [NeZero width] (s : Sheet α width) (c : α) (blank : Nat → Nat → α) (r x : Nat) :
    (s.put c).cell blank r x =
      if r = s.ready.above.length ∧ x = s.ready.row.length then c else s.cell blank r x := by
  have hput : (s.put c).text = s.ready.above ++ [s.ready.row ++ [c]] := rfl
  rw [← s.cell_ready, cell, cell, hput, text, getD_concat, getD_concat]
  rcases Nat.lt_trichotomy r s.ready.above.length with hlt | rfl | hgt
  · rw [if_pos hlt, if_pos hlt, if_neg (by omega)]
  · rw [if_neg (Nat.lt_irrefl _), if_pos rfl, if_neg (Nat.lt_irrefl _), if_pos rfl, getD_concat]
    rcases Nat.lt_trichotomy x s.ready.row.length with hlt | rfl | hgt
    · rw [if_pos hlt, if_neg (by omega)]
    · rw [if_neg (Nat.lt_irrefl _), if_pos rfl, if_pos ⟨rfl, rfl⟩]
    · rw [if_neg (by omega), if_neg (by omega), if_neg (by omega),
        List.getD_eq_default _ _ (Nat.le_of_lt hgt)]
  · rw [if_neg (by omega), if_neg (by omega), if_neg (by omega), if_neg (by omega),
      if_neg (by omega)]

/-- Below the text everything is blank. -/
theorem cell_below (hbelow : s.text.length ≤ r) : s.cell blank r x = blank r x := by
  rw [cell, List.getD_eq_default _ _ hbelow]
  rfl

end Sheet

end OS161.Data
