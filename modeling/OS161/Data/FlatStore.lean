import OS161.Data.Bytes

namespace OS161.Data

/-! A flat store of files: names for files, handles on files that are in use, and the bytes
of each file. A file is there as long as it has a name or a handle. -/

/-- The bytes of a file, and how many of them count. -/
structure FileData where
  bytes : Bytes
  size : Nat

namespace FileData

def empty : FileData where
  bytes _ := 0
  size := 0

def write (d : FileData) (pos : Nat) (data : List Byte) : FileData where
  bytes := d.bytes.splice pos data
  size := max d.size (pos + data.length)

/-- The file cut to another length; of the bytes past it each is gone or still there. -/
structure Cut (len : Nat) (d d' : FileData) : Prop where
  size : d'.size = len
  bytes : ∀ pos, d'.bytes pos = d.bytes pos ∨ len ≤ pos ∧ d'.bytes pos = 0

end FileData

structure FlatStore (N I H : Type) where
  names : N → Option I
  /-- The file that a handle is on. -/
  handles : H → Option I
  /-- How often a handle was given out. -/
  refs : H → Nat
  data : I → FileData

/-- What a call does to a store. -/
inductive Effect (N I H : Type) where
  | none
  | hold (h : H) (i : I)
  | drop (h : H)
  | make (name : N) (i : I) (h : H)
  | link (name : N) (i : I)
  | unlink (name : N)
  | rename (old new : N)
  | write (i : I) (pos : Nat) (data : List Byte)
  | cut (i : I) (len : Nat)

theorem ne_of_none {f : A → Option B} (hsome : f x = some y) (hnone : f x' = none) :
    x ≠ x' := by
  rintro rfl
  rw [hsome] at hnone
  cases hnone

namespace FlatStore

variable {N I H : Type} {s s' : FlatStore N I H} {e : Effect N I H} {root i : I} {name : N}

/-- The file has a name or a handle. -/
def Alive (s : FlatStore N I H) (i : I) : Prop :=
  (∃ name, s.names name = some i) ∨ ∃ h, s.handles h = some i

section

variable [DecidableEq N] [DecidableEq I] [DecidableEq H]

/-- Where the effect may happen. -/
def Enabled (s : FlatStore N I H) : Effect N I H → Prop
  | .none => True
  | .hold h i => s.handles h = some i ∨
      s.handles h = Option.none ∧ ∀ other, s.handles other ≠ some i
  | .drop h => s.handles h ≠ Option.none
  | .make name i h => s.names name = Option.none ∧ ¬ s.Alive i ∧ s.handles h = Option.none
  | .link name i => s.names name = Option.none ∧ ∃ h, s.handles h = some i
  | .unlink name => s.names name ≠ Option.none
  | .rename old new => s.names old ≠ Option.none ∧ s.names new = Option.none
  | .write i _ _ => ∃ h, s.handles h = some i
  | .cut i _ => ∃ h, s.handles h = some i

def namesAfter (s : FlatStore N I H) : Effect N I H → N → Option I
  | .make name i _ => Function.update s.names name (some i)
  | .link name i => Function.update s.names name (some i)
  | .unlink name => Function.update s.names name Option.none
  | .rename old new =>
      Function.update (Function.update s.names old Option.none) new (s.names old)
  | _ => s.names

def handlesAfter (s : FlatStore N I H) : Effect N I H → H → Option I
  | .hold h i => Function.update s.handles h (some i)
  | .make _ i h => Function.update s.handles h (some i)
  | .drop h => if s.refs h = 1 then Function.update s.handles h Option.none else s.handles
  | _ => s.handles

def refsAfter (s : FlatStore N I H) : Effect N I H → H → Nat
  | .hold h _ => Function.update s.refs h (s.refs h + 1)
  | .make _ _ h => Function.update s.refs h (s.refs h + 1)
  | .drop h => Function.update s.refs h (s.refs h - 1)
  | _ => s.refs

/-- What may become of the data of a file. -/
def Leaves (i : I) (d d' : FileData) : Effect N I H → Prop
  | .make _ j _ => d' = if j = i then FileData.empty else d
  | .write j pos data => d' = if j = i then d.write pos data else d
  | .cut j len => if j = i then FileData.Cut len d d' else d' = d
  | _ => d' = d

/-- The store before and after a call with this effect; the directory `root` has no data of
its own, and what is left of a file that is gone is of no account. -/
structure Step (root : I) (e : Effect N I H) (s s' : FlatStore N I H) : Prop where
  enabled : s.Enabled e
  names : s'.names = s.namesAfter e
  handles : s'.handles = s.handlesAfter e
  refs : s'.refs = s.refsAfter e
  data : ∀ i, i ≠ root → s'.Alive i → Leaves i (s.data i) (s'.data i) e

/-- A handle is on a file as long as it is given out. -/
def Counted (s : FlatStore N I H) : Prop := ∀ h, s.handles h = Option.none ↔ s.refs h = 0

/-- The file has a name or a handle after the effect. -/
def AliveAfter (s : FlatStore N I H) (e : Effect N I H) (i : I) : Prop :=
  (∃ name, s.namesAfter e name = some i) ∨ ∃ h, s.handlesAfter e h = some i

omit [DecidableEq N] [DecidableEq I] in
theorem counted_after (hcounted : s.Counted) (henabled : s.Enabled e) (h : H) :
    s.handlesAfter e h = Option.none ↔ s.refsAfter e h = 0 := by
  cases e with
  | hold other i =>
      by_cases heq : h = other
      · rw [heq, handlesAfter, refsAfter, Function.update_self, Function.update_self]
        simp
      · rw [handlesAfter, refsAfter, Function.update_of_ne heq, Function.update_of_ne heq]
        exact hcounted h
  | make name i other =>
      by_cases heq : h = other
      · rw [heq, handlesAfter, refsAfter, Function.update_self, Function.update_self]
        simp
      · rw [handlesAfter, refsAfter, Function.update_of_ne heq, Function.update_of_ne heq]
        exact hcounted h
  | drop other =>
      have hused : s.refs other ≠ 0 := mt (hcounted other).mpr henabled
      rw [handlesAfter, refsAfter]
      by_cases heq : h = other
      · rw [heq, Function.update_self]
        split
        case isTrue hlast => simp [hlast]
        case isFalse hmore =>
            rw [hcounted other]
            omega
      · rw [Function.update_of_ne heq]
        split
        case isTrue => rw [Function.update_of_ne heq]; exact hcounted h
        case isFalse => exact hcounted h
  | _ => exact hcounted h

omit [DecidableEq I] in
/-- Only a name taken away or a handle given back can be the last that a file had. -/
theorem Alive.after (halive : s.Alive i) (henabled : s.Enabled e)
    (hunlink : ∀ name, e ≠ .unlink name) (hdrop : ∀ h, e ≠ .drop h) : s.AliveAfter e i := by
  cases e with
  | unlink name => exact absurd rfl (hunlink name)
  | drop h => exact absurd rfl (hdrop h)
  | hold h j =>
      rcases halive with hnamed | ⟨other, hother⟩
      · exact Or.inl hnamed
      · right
        by_cases heq : other = h
        · rcases henabled with hsame | ⟨hfree, _⟩
          · rw [heq, hsame] at hother
            exact ⟨h, by rw [handlesAfter, Function.update_self, hother]⟩
          · rw [heq, hfree] at hother
            cases hother
        · exact ⟨other, by rw [handlesAfter, Function.update_of_ne heq, hother]⟩
  | make name j h =>
      obtain ⟨hfree, _, hunused⟩ := henabled
      rcases halive with ⟨other, hother⟩ | ⟨other, hother⟩
      · have hne := ne_of_none hother hfree
        exact Or.inl ⟨other, by rw [namesAfter, Function.update_of_ne hne, hother]⟩
      · have hne := ne_of_none hother hunused
        exact Or.inr ⟨other, by rw [handlesAfter, Function.update_of_ne hne, hother]⟩
  | link name j =>
      obtain ⟨hfree, _⟩ := henabled
      rcases halive with ⟨other, hother⟩ | hheld
      · have hne := ne_of_none hother hfree
        exact Or.inl ⟨other, by rw [namesAfter, Function.update_of_ne hne, hother]⟩
      · exact Or.inr hheld
  | rename old new =>
      obtain ⟨_, hfree⟩ := henabled
      rcases halive with ⟨other, hother⟩ | hheld
      · left
        have hne := ne_of_none hother hfree
        by_cases heq : other = old
        · exact ⟨new, by rw [namesAfter, Function.update_self, ← heq, hother]⟩
        · exact ⟨other, by
            rw [namesAfter, Function.update_of_ne hne, Function.update_of_ne heq, hother]⟩
      · exact Or.inr hheld
  | _ => exact halive

end

end FlatStore

end OS161.Data
