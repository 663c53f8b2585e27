import Mathlib.Data.List.Sort
import Mathlib.Data.List.TakeWhile
import OS161.Data.Prog
import OS161.Kern.Base
import OS161.Mazewar.Game

namespace OS161.Mazewar

open OS161.Data
open OS161.Kern

/-! The score table: `ScoreTableModel.java` over `SortedMultiSet.java`. -/

namespace SortedMultiSet

variable {α : Type} [DecidableEq α]

/-- `add`, with what it returns and what it leaves. -/
def add (compare : α → α → Int) (o1 : α) (set : List α) : Bool × List α :=
  if o1 ∈ set then
    (false, set)
  else
    match set.find? fun o2 => compare o1 o2 ≤ 0 with
    | some o2 => (true, set.insertIdx (set.idxOf o2) o1)
    | none => (true, set ++ [o1])

theorem add_present {compare : α → α → Int} {o1 : α} {set : List α} (hmem : o1 ∈ set) :
    add compare o1 set = (false, set) := by
  rw [add, if_pos hmem]

/-- A new element goes in front of the first one that is not before it. -/
theorem add_absent {compare : α → α → Int} {o1 : α} {set : List α} (hmem : o1 ∉ set) :
    add compare o1 set = (true, set.orderedInsert (fun a b => compare a b ≤ 0) o1) := by
  rw [add, if_neg hmem]
  induction set with
  | nil => rfl
  | cons o2 set ih =>
      rw [List.orderedInsert_cons]
      by_cases hbefore : compare o1 o2 ≤ 0
      · rw [List.find?_cons_of_pos (by simpa using hbefore), if_pos hbefore]
        simp
      · have hrest := ih (fun hin => hmem (List.mem_cons_of_mem _ hin))
        rw [List.find?_cons_of_neg (by simpa using hbefore), if_neg hbefore]
        cases hfind : set.find? fun o2 => compare o1 o2 ≤ 0 with
        | none =>
            rw [hfind] at hrest
            have htail := congrArg Prod.snd hrest
            exact congrArg (fun tail => (true, o2 :: tail)) htail
        | some o3 =>
            rw [hfind] at hrest
            have htail := congrArg Prod.snd hrest
            have hne : o2 ≠ o3 := by
              rintro rfl
              have hfound := List.find?_some hfind
              exact hbefore (by simpa using hfound)
            show (true, (o2 :: set).insertIdx ((o2 :: set).idxOf o3) o1) = _
            rw [List.idxOf_cons_ne _ hne, List.insertIdx_succ_cons]
            exact congrArg (fun tail => (true, o2 :: tail)) htail

end SortedMultiSet

/-- A score wrapper is an object, told apart from the others by its number; its score is a
field that changes. -/
structure ScoreWrapper (Client : Type) where
  client : Client
  serial : Nat
  deriving DecidableEq, Repr

structure ScoreTableModel (Client : Type) where
  scoreSet : List (ScoreWrapper Client)
  clientMap : Client → Option (ScoreWrapper Client)
  score : ScoreWrapper Client → Int
  /-- The number of the next wrapper. -/
  serial : Nat

/-- What the maze tells its listeners. -/
inductive MazeEvent (Client : Type) where
  | mazeUpdate
  | clientAdded (client : Client)
  | clientFired (client : Client)
  | clientKilled (source target : Client)
  | clientRemoved (client : Client)
  deriving DecidableEq, Repr

namespace ScoreTableModel

variable {Client : Type} [DecidableEq Client]

abbrev Op (Client : Type) := Prog Thrown Empty (ScoreTableModel Client)

def scoreAdjKill : Int := 11

def scoreAdjFire : Int := -1

def scoreAdjKilled : Int := -5

def initial : ScoreTableModel Client where
  scoreSet := []
  clientMap _ := none
  score _ := 0
  serial := 0

/-- `ScoreWrapper.compareTo`: the higher score stands first. -/
def compareTo (score : ScoreWrapper Client → Int) (s o : ScoreWrapper Client) : Int :=
  if score s < score o then 1 else if score s = score o then 0 else -1

/-- `scoreSet.remove(o)`, `s.adjustScore(mod)` and `scoreSet.add(s)`. -/
def adjusted (s : ScoreWrapper Client) (mod : Int) (t : ScoreTableModel Client) :
    ScoreTableModel Client :=
  let score := Function.update t.score s (int32 (t.score s + mod))
  { t with
    score := score
    scoreSet := (SortedMultiSet.add (compareTo score) s (t.scoreSet.erase s)).2 }

/-- `clientMap.get(client)`, whose result is used as it is. -/
def getWrapper (client : Client) : Op Client (ScoreWrapper Client) := do
  let t ← Prog.get
  match t.clientMap client with
  | some s => pure s
  | none => Prog.fail .nullPointer

/-- `new ScoreWrapper(client)`, added to the set and put into the map. -/
def added (client : Client) (t : ScoreTableModel Client) : ScoreTableModel Client :=
  let s : ScoreWrapper Client := ⟨client, t.serial⟩
  let score := Function.update t.score s 0
  { t with
    score := score
    scoreSet := (SortedMultiSet.add (compareTo score) s t.scoreSet).2
    clientMap := Function.update t.clientMap client (some s)
    serial := t.serial + 1 }

def clientAdded (client : Client) : Op Client Unit := Prog.modify (added client)

def clientFired (client : Client) : Op Client Unit := do
  let s ← getWrapper client
  Prog.modify (adjusted s scoreAdjFire)

def clientKilled (source target : Client) : Op Client Unit := do
  let s ← getWrapper source
  Prog.modify (adjusted s scoreAdjKill)
  let s ← getWrapper target
  Prog.modify (adjusted s scoreAdjKilled)

/-- The wrapper leaves the set; no key of the map is a wrapper, so that the map keeps it. -/
def removed (client : Client) (t : ScoreTableModel Client) : ScoreTableModel Client :=
  match t.clientMap client with
  | some s => { t with scoreSet := t.scoreSet.erase s }
  | none => t

def clientRemoved (client : Client) : Op Client Unit := Prog.modify (removed client)

def getRowCount (t : ScoreTableModel Client) : Nat := t.scoreSet.length

/-- What `instanceof` tells the table about a player. -/
inductive ClientKind where
  | guiClient
  | remoteClient
  | robotClient
  | otherClient
  deriving DecidableEq, Repr

def ClientKind.type : ClientKind → String
  | guiClient => "GUI"
  | remoteClient => "Remote"
  | robotClient => "Robot"
  | otherClient => "Unknown"

inductive Value where
  | string (s : String)
  | integer (n : Int)
  deriving DecidableEq, Repr

def column (getName : Client → String) (kind : Client → ClientKind) (t : ScoreTableModel Client)
    (columnIndex : Int) (s : ScoreWrapper Client) : Option Value :=
  if columnIndex = 0 then some (.string (getName s.client))
  else if columnIndex = 1 then some (.integer (t.score s))
  else if columnIndex = 2 then some (.string (kind s.client).type)
  else none

/-- The loop of `getValueAt`; without a value it stays at the row and goes on in the set. -/
def valueFrom (value : ScoreWrapper Client → Option Value) (rowIndex : Int) :
    Int → List (ScoreWrapper Client) → Option Value
  | _, [] => none
  | j, s :: rest =>
      if j = rowIndex then
        match value s with
        | some v => some v
        | none => valueFrom value rowIndex j rest
      else valueFrom value rowIndex (j + 1) rest

def getValueAt (getName : Client → String) (kind : Client → ClientKind) (t : ScoreTableModel Client)
    (rowIndex columnIndex : Int) : Option Value :=
  valueFrom (t.column getName kind columnIndex) rowIndex 0 t.scoreSet

def handle : MazeEvent Client → Op Client Unit
  | .mazeUpdate => pure ()
  | .clientAdded client => clientAdded client
  | .clientFired client => clientFired client
  | .clientKilled source target => clientKilled source target
  | .clientRemoved client => clientRemoved client

def handleAll : List (MazeEvent Client) → Op Client Unit
  | [] => pure ()
  | event :: events => do
      handle event
      handleAll events

end ScoreTableModel

namespace ScoreTableModel

theorem valueFrom_eq {Client : Type} {value : ScoreWrapper Client → Option Value}
    (hvalue : ∀ s, (value s).isSome) (row : Nat) (j : Int) (set : List (ScoreWrapper Client)) :
    valueFrom value (j + row) j set = set[row]?.bind value := by
  induction set generalizing row j with
  | nil => rfl
  | cons s set ih =>
      rw [valueFrom]
      cases row with
      | zero =>
          obtain ⟨v, hv⟩ := Option.isSome_iff_exists.mp (hvalue s)
          rw [if_pos (by omega), hv]
          exact hv.symm
      | succ row =>
          have hnext := ih row (j + 1)
          rw [if_neg (by omega), List.getElem?_cons_succ, ← hnext]
          congr 1
          omega

/-- Each row of the table is an element of the set. -/
theorem getValueAt_eq {Client : Type} (getName : Client → String) (kind : Client → ClientKind)
    (t : ScoreTableModel Client) (row : Nat) {columnIndex : Int} (hlow : 0 ≤ columnIndex)
    (hhigh : columnIndex ≤ 2) :
    t.getValueAt getName kind row columnIndex =
      t.scoreSet[row]?.bind (t.column getName kind columnIndex) := by
  have hvalue : ∀ s, (t.column getName kind columnIndex s).isSome := by
    intro s
    rw [column]
    split
    · rfl
    · split
      · rfl
      · rw [if_pos (by omega)]
        rfl
  have heq := valueFrom_eq hvalue row 0 t.scoreSet
  rwa [Int.zero_add] at heq

variable {Client : Type} {score : ScoreWrapper Client → Int} {s x : ScoreWrapper Client}
  {t : ScoreTableModel Client}

theorem compareTo_nonpos (a b : ScoreWrapper Client) :
    compareTo score a b ≤ 0 ↔ score b ≤ score a := by
  unfold compareTo
  split
  · omega
  · split <;> omega

/-- Each wrapper once, the highest score first. -/
structure Ordered (t : ScoreTableModel Client) : Prop where
  nodup : t.scoreSet.Nodup
  sorted : t.scoreSet.Pairwise fun a b => t.score b ≤ t.score a

variable [DecidableEq Client]

theorem add_perm {set : List (ScoreWrapper Client)} (hmem : s ∉ set) :
    (SortedMultiSet.add (compareTo score) s set).2.Perm (s :: set) := by
  rw [SortedMultiSet.add_absent hmem]
  exact List.perm_orderedInsert _ s set

theorem add_sorted {set : List (ScoreWrapper Client)} (hmem : s ∉ set)
    (hsorted : set.Pairwise fun a b => score b ≤ score a) :
    (SortedMultiSet.add (compareTo score) s set).2.Pairwise fun a b => score b ≤ score a := by
  have hrel : (fun a b => score b ≤ score a) = fun a b => compareTo score a b ≤ 0 := by
    funext a b
    exact propext (compareTo_nonpos a b).symm
  have htotal : Std.Total fun a b : ScoreWrapper Client => compareTo score a b ≤ 0 :=
    ⟨fun a b => by rw [compareTo_nonpos, compareTo_nonpos]; omega⟩
  have htrans : IsTrans (ScoreWrapper Client) fun a b => compareTo score a b ≤ 0 :=
    ⟨fun a b c => by rw [compareTo_nonpos, compareTo_nonpos, compareTo_nonpos]; omega⟩
  rw [hrel] at hsorted ⊢
  rw [SortedMultiSet.add_absent hmem]
  exact hsorted.orderedInsert s set

theorem Ordered.erase (h : t.Ordered) (s : ScoreWrapper Client) :
    ({ t with scoreSet := t.scoreSet.erase s } : ScoreTableModel Client).Ordered where
  nodup := h.nodup.erase s
  sorted := h.sorted.sublist List.erase_sublist

/-- A wrapper that was not in the set joins it with a score of its own. -/
theorem Ordered.join (h : t.Ordered) (hmem : s ∉ t.scoreSet) (points : Int) :
    ({ t with
      score := Function.update t.score s points
      scoreSet := (SortedMultiSet.add (compareTo (Function.update t.score s points)) s
        t.scoreSet).2 } : ScoreTableModel Client).Ordered where
  nodup := (add_perm hmem).nodup_iff.mpr (List.nodup_cons.mpr ⟨hmem, h.nodup⟩)
  sorted := by
    have hsame : ∀ x ∈ t.scoreSet, Function.update t.score s points x = t.score x :=
      fun x hx => Function.update_of_ne (ne_of_mem_of_not_mem hx hmem) _ _
    refine add_sorted hmem (h.sorted.imp_of_mem ?_)
    intro a b ha hb hle
    show Function.update t.score s points b ≤ Function.update t.score s points a
    rw [hsame a ha, hsame b hb]
    exact hle

theorem Ordered.adjusted (h : t.Ordered) (s : ScoreWrapper Client) (mod : Int) :
    (t.adjusted s mod).Ordered :=
  (h.erase s).join h.nodup.not_mem_erase _

theorem Ordered.mem_adjusted (h : t.Ordered) (s : ScoreWrapper Client) (mod : Int) :
    x ∈ (t.adjusted s mod).scoreSet ↔ x = s ∨ x ∈ t.scoreSet := by
  show x ∈ (SortedMultiSet.add _ s (t.scoreSet.erase s)).2 ↔ _
  rw [(add_perm h.nodup.not_mem_erase).mem_iff, List.mem_cons, h.nodup.mem_erase_iff]
  tauto

end ScoreTableModel

section Added

variable {Client : Type} [DecidableEq Client]

theorem ScoreTableModel.added_clientMap (c : Client) (t : ScoreTableModel Client) :
    (t.added c).clientMap = Function.update t.clientMap c (some ⟨c, t.serial⟩) := rfl

theorem ScoreTableModel.added_score (c : Client) (t : ScoreTableModel Client) :
    (t.added c).score = Function.update t.score ⟨c, t.serial⟩ 0 := rfl

end Added

/-! What the score of a player should be, read off the events alone. -/

namespace MazeEvent

variable {Client : Type} [DecidableEq Client]

def added? : MazeEvent Client → Option Client
  | .clientAdded client => some client
  | _ => none

def names (c : Client) : MazeEvent Client → Bool
  | .mazeUpdate => false
  | .clientAdded client => client = c
  | .clientFired client => client = c
  | .clientKilled source target => source = c ∨ target = c
  | .clientRemoved client => client = c

/-- The points that an event is worth to a player. -/
def gain (c : Client) : MazeEvent Client → Int
  | .clientFired client => if client = c then -1 else 0
  | .clientKilled source target => (if source = c then 11 else 0) + if target = c then -5 else 0
  | _ => 0

theorem gain_of_not_names {c : Client} (event : MazeEvent Client)
    (hnames : event.names c = false) : event.gain c = 0 := by
  cases event with
  | mazeUpdate => rfl
  | clientAdded client => rfl
  | clientFired client => simp_all [names, gain]
  | clientKilled source target => simp_all [names, gain]
  | clientRemoved client => rfl

end MazeEvent

section History

variable {Client : Type} {w : ScoreWrapper Client}
  {events more : List (MazeEvent Client)} {event : MazeEvent Client} {c : Client} {n : Nat}

/-- The players in the order they were added, each as often as it was. -/
def additions (events : List (MazeEvent Client)) : List Client :=
  events.filterMap MazeEvent.added?

/-- What came after the `n`th adding. -/
def since : Nat → List (MazeEvent Client) → List (MazeEvent Client)
  | _, [] => []
  | n, event :: events =>
      match event.added? with
      | none => since n events
      | some _ =>
          match n with
          | 0 => events
          | n + 1 => since n events

def Made (w : ScoreWrapper Client) (events : List (MazeEvent Client)) : Prop :=
  (additions events)[w.serial]? = some w.client

/-- Made by the last adding of its player. -/
def Current (w : ScoreWrapper Client) (events : List (MazeEvent Client)) : Prop :=
  Made w events ∧ ∀ event ∈ since w.serial events, event.added? ≠ some w.client

theorem additions_append (events more : List (MazeEvent Client)) :
    additions (events ++ more) = additions events ++ additions more :=
  List.filterMap_append

theorem additions_cons_none (hadded : event.added? = none) (events : List (MazeEvent Client)) :
    additions (event :: events) = additions events :=
  List.filterMap_cons_none hadded

theorem additions_cons_some (hadded : event.added? = some c) (events : List (MazeEvent Client)) :
    additions (event :: events) = c :: additions events :=
  List.filterMap_cons_some hadded

theorem since_cons_none (hadded : event.added? = none) (n : Nat) (events : List (MazeEvent Client)) :
    since n (event :: events) = since n events := by
  simp [since, hadded]

theorem since_cons_zero (hadded : event.added? = some c) (events : List (MazeEvent Client)) :
    since 0 (event :: events) = events := by
  simp [since, hadded]

theorem since_cons_succ (hadded : event.added? = some c) (n : Nat) (events : List (MazeEvent Client)) :
    since (n + 1) (event :: events) = since n events := by
  simp [since, hadded]

theorem since_append (hlt : n < (additions events).length) (more : List (MazeEvent Client)) :
    since n (events ++ more) = since n events ++ more := by
  induction events generalizing n with
  | nil => exact absurd hlt (Nat.not_lt_zero _)
  | cons event events ih =>
      rw [List.cons_append]
      cases hadded : event.added? with
      | none =>
          rw [additions_cons_none hadded] at hlt
          rw [since_cons_none hadded, since_cons_none hadded, ih hlt]
      | some client =>
          rw [additions_cons_some hadded] at hlt
          cases n with
          | zero => rw [since_cons_zero hadded, since_cons_zero hadded]
          | succ n =>
              rw [since_cons_succ hadded, since_cons_succ hadded, ih (Nat.lt_of_succ_lt_succ hlt)]

/-- Nothing has come after an adding that is the last event. -/
theorem since_added (c : Client) (events : List (MazeEvent Client)) :
    since (additions events).length (events ++ [.clientAdded c]) = [] := by
  induction events with
  | nil => rfl
  | cons event events ih =>
      rw [List.cons_append]
      cases hadded : event.added? with
      | none => rw [additions_cons_none hadded, since_cons_none hadded, ih]
      | some client =>
          rw [additions_cons_some hadded, List.length_cons, since_cons_succ hadded, ih]

theorem Made.lt (hmade : Made w events) : w.serial < (additions events).length :=
  (List.getElem?_eq_some_iff.mp hmade).1

theorem Made.append (hmade : Made w events) (more : List (MazeEvent Client)) :
    Made w (events ++ more) := by
  rw [Made, additions_append, List.getElem?_append_left hmade.lt]
  exact hmade

theorem made_append (hadded : event.added? = none) :
    Made w (events ++ [event]) ↔ Made w events := by
  have hnone : additions [event] = [] := additions_cons_none hadded []
  rw [Made, additions_append, hnone, List.append_nil, Made]

theorem made_added : Made w (events ++ [.clientAdded c]) ↔
    Made w events ∨ w = ⟨c, (additions events).length⟩ := by
  have hone : additions [MazeEvent.clientAdded c] = [c] := rfl
  rw [Made, additions_append, hone, Made]
  rcases Nat.lt_trichotomy w.serial (additions events).length with hlt | heq | hgt
  · rw [List.getElem?_append_left hlt]
    refine ⟨.inl, ?_⟩
    rintro (hmade | rfl)
    · exact hmade
    · exact absurd hlt (Nat.lt_irrefl _)
  · rw [List.getElem?_append_right (Nat.le_of_eq heq.symm), heq, Nat.sub_self,
      List.getElem?_eq_none (Nat.le_refl _)]
    obtain ⟨client, serial⟩ := w
    simp_all
    exact eq_comm
  · have hout : (additions events ++ [c]).length ≤ w.serial := by
      rw [List.length_append, List.length_singleton]
      omega
    rw [List.getElem?_eq_none hout, List.getElem?_eq_none (Nat.le_of_lt hgt)]
    refine ⟨fun habsurd => (by cases habsurd), ?_⟩
    rintro (habsurd | rfl)
    · cases habsurd
    · exact absurd hgt (Nat.lt_irrefl _)

theorem current_append (hmade : Made w events) : Current w (events ++ [event]) ↔
    Current w events ∧ event.added? ≠ some w.client := by
  rw [Current, Current, since_append hmade.lt]
  simp [hmade, hmade.append, or_imp, forall_and]

/-- The wrapper that an adding makes. -/
theorem current_new (c : Client) (events : List (MazeEvent Client)) :
    Current ⟨c, (additions events).length⟩ (events ++ [.clientAdded c]) := by
  refine ⟨made_added.mpr (.inr rfl), ?_⟩
  rw [since_added]
  exact fun _ habsurd => absurd habsurd List.not_mem_nil

variable [DecidableEq Client]

/-- From the adding that made the wrapper to the next adding of its player. -/
def life (w : ScoreWrapper Client) (events : List (MazeEvent Client)) : List (MazeEvent Client) :=
  (since w.serial events).takeWhile fun event => event.added? ≠ some w.client

/-- Eleven for each kill, one off for each shot and five for each death, as an `int`. -/
def points (w : ScoreWrapper Client) (events : List (MazeEvent Client)) : Int :=
  int32 ((life w events).map (MazeEvent.gain w.client)).sum

/-- The last event about the player did not remove it. -/
def Listed (w : ScoreWrapper Client) (events : List (MazeEvent Client)) : Prop :=
  ((life w events).filter (MazeEvent.names w.client)).getLast? ≠ some (.clientRemoved w.client)

theorem Current.life_eq (hcurrent : Current w events) : life w events = since w.serial events :=
  List.takeWhile_eq_self_iff.mpr fun event hmem => by simpa using hcurrent.2 event hmem

/-- The life goes on with each event until the player is added again. -/
theorem life_append (hmade : Made w events) (event : MazeEvent Client) :
    (Current w (events ++ [event]) → life w (events ++ [event]) = life w events ++ [event]) ∧
      (¬ Current w (events ++ [event]) → life w (events ++ [event]) = life w events) := by
  constructor
  · intro hcurrent
    rw [hcurrent.life_eq, ((current_append hmade).mp hcurrent).1.life_eq, since_append hmade.lt]
  · intro hover
    rw [current_append hmade] at hover
    rw [life, since_append hmade.lt, List.takeWhile_append]
    split
    case isTrue hwhole =>
      have hself := (List.takeWhile_prefix _).eq_of_length hwhole
      have hall : ∀ event ∈ since w.serial events, event.added? ≠ some w.client := by
        simpa using List.takeWhile_eq_self_iff.mp hself
      have hend : event.added? = some w.client := by
        by_contra hother
        exact hover ⟨⟨hmade, hall⟩, hother⟩
      rw [List.takeWhile_cons_of_neg (by simpa using hend), List.append_nil, life, hself]
    case isFalse => rfl

theorem int32_add (m n : Int) : int32 (int32 m + n) = int32 (m + n) :=
  Int.bmod_add_bmod

theorem points_append (hmade : Made w events) (event : MazeEvent Client) :
    (Current w (events ++ [event]) →
      points w (events ++ [event]) = int32 (points w events + event.gain w.client)) ∧
      (¬ Current w (events ++ [event]) → points w (events ++ [event]) = points w events) := by
  obtain ⟨hlives, hover⟩ := life_append hmade event
  constructor
  · intro hcurrent
    rw [points, hlives hcurrent, points, int32_add, List.map_append, List.sum_append]
    simp
  · intro hnot
    rw [points, hover hnot, points]

theorem listed_append (hmade : Made w events) (event : MazeEvent Client) :
    (Current w (events ++ [event]) → event.names w.client = true →
      (Listed w (events ++ [event]) ↔ event ≠ .clientRemoved w.client)) ∧
      (¬ (Current w (events ++ [event]) ∧ event.names w.client = true) →
        (Listed w (events ++ [event]) ↔ Listed w events)) := by
  obtain ⟨hlives, hover⟩ := life_append hmade event
  constructor
  · intro hcurrent hnames
    rw [Listed, hlives hcurrent, List.filter_append, List.filter_cons_of_pos hnames,
      List.filter_nil, List.getLast?_concat]
    simp
  · intro hnot
    by_cases hcurrent : Current w (events ++ [event])
    · have hother : ¬ event.names w.client = true := fun hnames => hnot ⟨hcurrent, hnames⟩
      rw [Listed, hlives hcurrent, List.filter_append, List.filter_cons_of_neg hother,
        List.filter_nil, List.append_nil, Listed]
    · rw [Listed, hover hcurrent, Listed]

/-- The table is what the events say. -/
structure Table (events : List (MazeEvent Client)) (t : ScoreTableModel Client) : Prop
    extends t.Ordered where
  serial : t.serial = (additions events).length
  current : ∀ w, t.clientMap w.client = some w ↔ Current w events
  keyed : ∀ c w, t.clientMap c = some w → w.client = c
  known : ∀ c ∈ additions events, ∃ w, t.clientMap c = some w
  score : ∀ w, Made w events → t.score w = points w events
  listed : ∀ w, w ∈ t.scoreSet ↔ Made w events ∧ Listed w events

theorem Table.initial : Table [] (ScoreTableModel.initial : ScoreTableModel Client) where
  nodup := List.nodup_nil
  sorted := List.Pairwise.nil
  serial := rfl
  current w := ⟨fun habsurd => (by cases habsurd), fun hcurrent => (by cases hcurrent.1)⟩
  keyed _ _ habsurd := by cases habsurd
  known _ habsurd := absurd habsurd List.not_mem_nil
  score _ hmade := by cases hmade
  listed w := ⟨fun habsurd => absurd habsurd List.not_mem_nil, fun h => (by cases h.1)⟩

variable {t t' : ScoreTableModel Client}

/-- An event that adds no player. -/
theorem Table.step (h : Table events t) (hadded : event.added? = none) (hordered : t'.Ordered)
    (hserial : t'.serial = t.serial) (hmap : t'.clientMap = t.clientMap)
    (hscore : ∀ w, t'.score w =
      if t.clientMap w.client = some w ∧ event.names w.client = true then
        int32 (t.score w + event.gain w.client)
      else t.score w)
    (hmem : ∀ w, w ∈ t'.scoreSet ↔
      if t.clientMap w.client = some w ∧ event.names w.client = true then
        event ≠ .clientRemoved w.client
      else w ∈ t.scoreSet) :
    Table (events ++ [event]) t' := by
  have hadds : additions (events ++ [event]) = additions events := by
    rw [additions_append, additions_cons_none hadded]
    exact List.append_nil _
  have hcurrent : ∀ w, t.clientMap w.client = some w ↔ Current w (events ++ [event]) := by
    intro w
    rw [h.current]
    refine ⟨fun hwas => (current_append hwas.1).mpr ⟨hwas, by simp [hadded]⟩,
      fun his => ((current_append ((made_append hadded).mp his.1)).mp his).1⟩
  refine { hordered with serial := ?_, current := ?_, keyed := ?_, known := ?_, score := ?_, listed := ?_ }
  · rw [hserial, h.serial, hadds]
  · rw [hmap]
    exact hcurrent
  · rw [hmap]
    exact h.keyed
  · rw [hmap, hadds]
    exact h.known
  · intro w hmade
    have hmade' := (made_append hadded).mp hmade
    rw [hscore, h.score w hmade']
    split
    case isTrue hnamed => rw [(points_append hmade' event).1 ((hcurrent w).mp hnamed.1)]
    case isFalse hother =>
      by_cases hnow : Current w (events ++ [event])
      · have hnames : event.names w.client = false :=
          Bool.not_eq_true _ ▸ fun hnames => hother ⟨(hcurrent w).mpr hnow, hnames⟩
        rw [(points_append hmade' event).1 hnow, event.gain_of_not_names hnames, points,
          int32_add, Int.add_zero]
      · rw [(points_append hmade' event).2 hnow]
  · intro w
    rw [hmem, made_append hadded]
    split
    case isTrue hnamed =>
      have hnow := (hcurrent w).mp hnamed.1
      have hmade := (made_append hadded).mp hnow.1
      rw [(listed_append hmade event).1 hnow hnamed.2]
      exact (and_iff_right hmade).symm
    case isFalse hother =>
      rw [h.listed]
      refine and_congr_right fun hmade => ?_
      rw [(listed_append hmade event).2]
      rintro ⟨hnow, hnames⟩
      exact hother ⟨(hcurrent w).mpr hnow, hnames⟩

theorem life_new (c : Client) (events : List (MazeEvent Client)) :
    life ⟨c, (additions events).length⟩ (events ++ [.clientAdded c]) = [] := by
  rw [(current_new c events).life_eq, since_added]

/-- A player is added, whether or not it was before. -/
theorem Table.added (h : Table events t) (c : Client) :
    Table (events ++ [.clientAdded c]) (t.added c) := by
  have hfresh : ∀ w, Made w events → w ≠ ⟨c, t.serial⟩ := by
    rintro w hmade rfl
    have hlt := hmade.lt
    rw [h.serial] at hlt
    exact Nat.lt_irrefl _ hlt
  have hmem : (⟨c, t.serial⟩ : ScoreWrapper Client) ∉ t.scoreSet :=
    fun hin => hfresh _ ((h.listed _).mp hin).1 rfl
  have hjoin := h.toOrdered.join hmem 0
  refine {
    nodup := hjoin.nodup
    sorted := hjoin.sorted
    serial := ?serial
    current := ?current
    keyed := ?keyed
    known := ?known
    score := ?score
    listed := ?listed }
  case serial =>
    rw [additions_append, List.length_append, ← h.serial]
    rfl
  case current =>
    intro w
    by_cases hclient : w.client = c
    · rw [ScoreTableModel.added_clientMap, hclient, Function.update_self, Option.some.injEq,
        eq_comm, h.serial]
      refine ⟨?_, ?_⟩
      · rintro rfl
        exact current_new c events
      · intro hcurrent
        refine (made_added.mp hcurrent.1).resolve_left fun hmade => ?_
        exact ((current_append hmade).mp hcurrent).2 (congrArg some hclient.symm)
    · have hother : (MazeEvent.clientAdded c).added? ≠ some w.client :=
        fun heq => hclient (Option.some.inj heq).symm
      rw [ScoreTableModel.added_clientMap, Function.update_of_ne hclient, h.current]
      refine ⟨fun hwas => (current_append hwas.1).mpr ⟨hwas, hother⟩, fun his => ?_⟩
      rcases made_added.mp his.1 with hmade | rfl
      · exact ((current_append hmade).mp his).1
      · exact absurd rfl hclient
  case keyed =>
    intro client w hget
    rw [ScoreTableModel.added_clientMap] at hget
    by_cases hclient : client = c
    · rw [hclient, Function.update_self] at hget
      rw [← Option.some.inj hget, hclient]
    · rw [Function.update_of_ne hclient] at hget
      exact h.keyed client w hget
  case known =>
    intro client hclient
    rw [ScoreTableModel.added_clientMap]
    by_cases hsame : client = c
    · rw [hsame, Function.update_self]
      exact ⟨_, rfl⟩
    · rw [Function.update_of_ne hsame]
      rw [additions_append, List.mem_append] at hclient
      refine h.known client (hclient.resolve_right fun hnew => hsame ?_)
      exact List.mem_singleton.mp hnew
  case score =>
    intro w hmade
    rw [ScoreTableModel.added_score]
    rcases made_added.mp hmade with hold | rfl
    · rw [Function.update_of_ne (hfresh w hold), h.score w hold]
      by_cases hnow : Current w (events ++ [.clientAdded c])
      · have hzero : MazeEvent.gain w.client (.clientAdded c) = 0 := rfl
        rw [(points_append hold _).1 hnow, points, int32_add, hzero, Int.add_zero]
      · rw [(points_append hold _).2 hnow]
    · rw [← h.serial, Function.update_self, h.serial, points, life_new]
      rfl
  case listed =>
    intro w
    show w ∈ (SortedMultiSet.add _ ⟨c, t.serial⟩ t.scoreSet).2 ↔ _
    rw [(ScoreTableModel.add_perm hmem).mem_iff, List.mem_cons, h.listed, made_added, h.serial]
    by_cases hnew : w = ⟨c, (additions events).length⟩
    · subst hnew
      simp [Listed, life_new]
    · rw [or_iff_right hnew, or_iff_left hnew]
      refine and_congr_right fun hold => ?_
      rw [(listed_append hold _).2]
      rintro ⟨hnow, hnames⟩
      refine ((current_append hold).mp hnow).2 (congrArg some ?_)
      simpa [MazeEvent.names] using hnames

theorem Table.idle (h : Table events t) : Table (events ++ [.mazeUpdate]) t :=
  h.step rfl h.toOrdered rfl rfl (fun w => by simp [MazeEvent.names]) fun w => by
    simp [MazeEvent.names]

/-- An event about a player is about its present wrapper. -/
theorem Table.concerns {s : ScoreWrapper Client} (h : Table events t)
    (hget : t.clientMap c = some s) (w : ScoreWrapper Client) :
    t.clientMap w.client = some w ∧ c = w.client ↔ w = s := by
  constructor
  · rintro ⟨hcurrent, rfl⟩
    exact Option.some.inj (hcurrent.symm.trans hget)
  · rintro rfl
    have hclient := h.keyed c w hget
    exact ⟨hclient ▸ hget, hclient.symm⟩

/-- A player shoots. -/
theorem Table.fired {s : ScoreWrapper Client} (h : Table events t) (hget : t.clientMap c = some s) :
    Table (events ++ [.clientFired c]) (t.adjusted s ScoreTableModel.scoreAdjFire) := by
  refine h.step rfl (h.adjusted s _) rfl rfl (fun w => ?_) fun w => ?_
  · have hconcerns := h.concerns hget w
    simp only [MazeEvent.names, decide_eq_true_eq, hconcerns]
    split
    case isTrue his =>
      have hclient := (hconcerns.mpr his).2
      subst his
      rw [MazeEvent.gain, if_pos hclient]
      exact Function.update_self ..
    case isFalse hother => exact Function.update_of_ne hother _ _
  · rw [h.mem_adjusted]
    simp only [MazeEvent.names, decide_eq_true_eq, h.concerns hget w]
    split
    case isTrue his => simp [his]
    case isFalse hother => rw [or_iff_right hother]

/-- One player kills another, or itself. -/
theorem Table.killed {source target : Client} {s o : ScoreWrapper Client} (h : Table events t)
    (hsource : t.clientMap source = some s) (htarget : t.clientMap target = some o) :
    Table (events ++ [.clientKilled source target])
      ((t.adjusted s ScoreTableModel.scoreAdjKill).adjusted o ScoreTableModel.scoreAdjKilled) := by
  have hkill := h.adjusted s ScoreTableModel.scoreAdjKill
  have hnamed : ∀ w, (t.clientMap w.client = some w ∧
      MazeEvent.names w.client (.clientKilled source target) = true) ↔ w = s ∨ w = o := by
    intro w
    rw [← h.concerns hsource w, ← h.concerns htarget w, ← and_or_left]
    simp [MazeEvent.names]
  refine h.step rfl (hkill.adjusted o _) rfl rfl (fun w => ?_) fun w => ?_
  · have hfirst := h.concerns hsource w
    have hsecond := h.concerns htarget w
    show Function.update (Function.update t.score s _) o _ w = _
    simp only [hnamed]
    split
    case isTrue hone =>
      have hcurrent : t.clientMap w.client = some w := by
        rcases hone with his | his
        · exact (hfirst.mpr his).1
        · exact (hsecond.mpr his).1
      rw [and_iff_right hcurrent] at hfirst hsecond
      simp only [MazeEvent.gain, hfirst, hsecond]
      by_cases htwo : w = o
      · subst htwo
        rw [Function.update_self, if_pos rfl]
        by_cases hboth : w = s
        · subst hboth
          rw [if_pos rfl]
          show int32 (Function.update t.score w _ w + _) = _
          rw [Function.update_self, int32_add, Int.add_assoc]
          rfl
        · rw [if_neg hboth, Int.zero_add]
          show int32 (Function.update t.score s _ w + _) = _
          rw [Function.update_of_ne hboth]
          rfl
      · have his := hone.resolve_right htwo
        subst his
        rw [Function.update_of_ne htwo, Function.update_self, if_pos rfl, if_neg htwo,
          Int.add_zero]
        rfl
    case isFalse hneither =>
      rw [not_or] at hneither
      rw [Function.update_of_ne hneither.2, Function.update_of_ne hneither.1]
  · rw [hkill.mem_adjusted, h.mem_adjusted]
    simp only [hnamed]
    split
    case isTrue hone =>
      rw [← or_assoc, or_comm (a := w = o)]
      simp [hone]
    case isFalse hneither =>
      rw [not_or] at hneither
      rw [or_iff_right hneither.2, or_iff_right hneither.1]

/-- A score is an `int` already. -/
theorem Table.score_add_zero (h : Table events t) (hcurrent : t.clientMap w.client = some w) :
    int32 (t.score w + 0) = t.score w := by
  rw [h.score w ((h.current w).mp hcurrent).1, points, int32_add, Int.add_zero]

theorem Table.removed (h : Table events t) (c : Client) :
    Table (events ++ [.clientRemoved c]) (t.removed c) := by
  have hscore : ∀ w, t.score w =
      if t.clientMap w.client = some w ∧ MazeEvent.names w.client (.clientRemoved c) = true then
        int32 (t.score w + MazeEvent.gain w.client (.clientRemoved c))
      else t.score w := by
    intro w
    split
    case isTrue hnamed => exact (h.score_add_zero hnamed.1).symm
    case isFalse => rfl
  rw [ScoreTableModel.removed]
  cases hget : t.clientMap c with
  | none =>
      refine h.step rfl h.toOrdered rfl rfl hscore fun w => ?_
      rw [if_neg]
      rintro ⟨hcurrent, hnames⟩
      obtain rfl : c = w.client := by simpa [MazeEvent.names] using hnames
      rw [hget] at hcurrent
      cases hcurrent
  | some s =>
      refine h.step rfl (h.erase s) rfl rfl hscore fun w => ?_
      have hconcerns := h.concerns hget w
      simp only [MazeEvent.names, decide_eq_true_eq, hconcerns]
      rw [h.nodup.mem_erase_iff]
      split
      case isTrue his =>
        have hclient := (hconcerns.mpr his).2
        exact ⟨fun hleft => absurd his hleft.1, fun hne => absurd (congrArg _ hclient) hne⟩
      case isFalse hother => rw [and_iff_right hother]

/-- Who shoots, kills or dies was added before. -/
def Knows (events : List (MazeEvent Client)) : MazeEvent Client → Prop
  | .clientFired client => client ∈ additions events
  | .clientKilled source target => source ∈ additions events ∧ target ∈ additions events
  | _ => True

def Proper (events : List (MazeEvent Client)) : Prop :=
  ∀ before event after, events = before ++ event :: after → Knows before event

theorem Table.getWrapper (h : Table events t) (hmap : t'.clientMap = t.clientMap) (c : Client) :
    Prog.wp (ScoreTableModel.getWrapper c) (fun s next => next = t' ∧ t.clientMap c = some s)
      (fun code _ => code = .nullPointer ∧ c ∉ additions events) (fun _ => False) t' := by
  rw [ScoreTableModel.getWrapper, Prog.wp_bind, Prog.wp_get, hmap]
  cases hget : t.clientMap c with
  | some s => exact ⟨rfl, rfl⟩
  | none =>
      refine ⟨rfl, fun hmem => ?_⟩
      obtain ⟨s, hs⟩ := h.known c hmem
      rw [hget] at hs
      cases hs

/-- A player with a wrapper was added. -/
theorem Table.mem_additions {s : ScoreWrapper Client} (h : Table events t)
    (hget : t.clientMap c = some s) : c ∈ additions events := by
  have hclient := h.keyed c s hget
  have hcurrent : t.clientMap s.client = some s := by rw [hclient, hget]
  rw [← hclient]
  exact List.mem_of_getElem? ((h.current s).mp hcurrent).1

theorem Table.handle (h : Table events t) (event : MazeEvent Client) :
    Prog.wp (ScoreTableModel.handle event)
      (fun _ t' => Knows events event ∧ Table (events ++ [event]) t')
      (fun code _ => code = .nullPointer ∧ ¬ Knows events event) (fun _ => False) t := by
  cases event with
  | mazeUpdate => exact ⟨trivial, h.idle⟩
  | clientAdded c => exact ⟨trivial, h.added c⟩
  | clientRemoved c => exact ⟨trivial, h.removed c⟩
  | clientFired c =>
      rw [ScoreTableModel.handle, ScoreTableModel.clientFired, Prog.wp_bind]
      refine Prog.wp_mono (h.getWrapper rfl c) ?_ (fun _ _ hnull => hnull) fun _ habsurd => habsurd
      rintro s _ ⟨rfl, hget⟩
      exact ⟨h.mem_additions hget, h.fired hget⟩
  | clientKilled source target =>
      rw [ScoreTableModel.handle, ScoreTableModel.clientKilled, Prog.wp_bind]
      refine Prog.wp_mono (h.getWrapper rfl source) ?_
        (fun _ _ hnull => ⟨hnull.1, fun hknows => hnull.2 hknows.1⟩) fun _ habsurd => habsurd
      rintro s next ⟨hsame, hsource⟩
      rw [hsame, Prog.wp_bind, Prog.wp_modify, Prog.wp_bind]
      have hmap : (t.adjusted s ScoreTableModel.scoreAdjKill).clientMap = t.clientMap := rfl
      refine Prog.wp_mono (h.getWrapper hmap target) ?_
        (fun _ _ hnull => ⟨hnull.1, fun hknows => hnull.2 hknows.2⟩) fun _ habsurd => habsurd
      rintro o _ ⟨rfl, htarget⟩
      exact ⟨⟨h.mem_additions hsource, h.mem_additions htarget⟩, h.killed hsource htarget⟩

theorem Table.handleAll {past : List (MazeEvent Client)} (h : Table past t)
    (events : List (MazeEvent Client)) :
    Prog.wp (ScoreTableModel.handleAll events)
      (fun _ t' => (∀ before event after, events = before ++ event :: after →
        Knows (past ++ before) event) ∧ Table (past ++ events) t')
      (fun code _ => code = .nullPointer ∧ ¬ ∀ before event after,
        events = before ++ event :: after → Knows (past ++ before) event)
      (fun _ => False) t := by
  induction events generalizing past t with
  | nil =>
      refine ⟨fun before event after habsurd => ?_, ?_⟩
      · exact absurd habsurd.symm (by simp)
      · rw [List.append_nil]
        exact h
  | cons event events ih =>
      rw [ScoreTableModel.handleAll, Prog.wp_bind]
      refine Prog.wp_mono (h.handle event) ?_ ?_ fun _ habsurd => habsurd
      · rintro _ next ⟨hknows, hnext⟩
        refine Prog.wp_mono (ih hnext) ?_ ?_ fun _ habsurd => habsurd
        · rintro _ last ⟨hrest, htable⟩
          rw [List.append_assoc] at htable
          refine ⟨?_, htable⟩
          intro before event' after hsplit
          cases before with
          | nil =>
              obtain ⟨rfl, -⟩ := List.cons.inj hsplit
              rw [List.append_nil]
              exact hknows
          | cons first before =>
              obtain ⟨rfl, htail⟩ := List.cons.inj hsplit
              have := hrest before event' after htail
              rwa [List.append_assoc] at this
        · rintro code _ ⟨hcode, hnot⟩
          refine ⟨hcode, fun hall => hnot ?_⟩
          intro before event' after hsplit
          have := hall (event :: before) event' after (by rw [hsplit]; rfl)
          rwa [List.append_assoc]
      · rintro code _ ⟨hcode, hnot⟩
        refine ⟨hcode, fun hall => hnot ?_⟩
        have := hall [] event events rfl
        rwa [List.append_nil] at this

/-- Down the rows the scores do not rise. -/
theorem Table.scores_sorted (h : Table events t) (getName : Client → String)
    (kind : Client → ScoreTableModel.ClientKind) {i j : Nat} {m n : Int} (hlt : i < j)
    (hi : t.getValueAt getName kind i 1 = some (.integer m))
    (hj : t.getValueAt getName kind j 1 = some (.integer n)) : n ≤ m := by
  rw [ScoreTableModel.getValueAt_eq _ _ _ _ (by omega) (by omega)] at hi hj
  obtain ⟨a, ha, hm⟩ := Option.bind_eq_some_iff.mp hi
  obtain ⟨b, hb, hn⟩ := Option.bind_eq_some_iff.mp hj
  obtain ⟨hialt, rfl⟩ := List.getElem?_eq_some_iff.mp ha
  obtain ⟨hjlt, rfl⟩ := List.getElem?_eq_some_iff.mp hb
  have hle := List.pairwise_iff_getElem.mp h.sorted i j hialt hjlt hlt
  simp only [ScoreTableModel.column] at hm hn
  simp_all

/-- Whatever the maze tells the table from its first moment on: where each player that shoots,
kills or dies was added before, the table lists, highest score first and each once, just the
players whose last event was not their removal, each with the points of its events since it
was added; and else, and only then, an exception ends the handling. -/
theorem score_table (events : List (MazeEvent Client)) :
    Prog.wp (ScoreTableModel.handleAll events) (fun _ t => Proper events ∧ Table events t)
      (fun code _ => code = .nullPointer ∧ ¬ Proper events) (fun _ => False)
      ScoreTableModel.initial :=
  Table.initial.handleAll events

end History

end OS161.Mazewar
