import OS161.Asst1.Stoplight
import OS161.Synch.LockOrder

namespace OS161.Asst1.Stoplight

open OS161.Synch
open OS161.Synch.State

/-! Whether the cars can block each other in a circle on the locks of the
squares. -/

def IsSquare : Place → Prop
  | .square _ => True
  | _ => False

/-- An order of the squares, as an order of their locks. -/
def lockRank (rank : Square → Nat) : Place → Nat
  | .square q => rank q
  | _ => 0

theorem lockRank_le (rank : Square → Nat) (l : Place) :
    lockRank rank l ≤ rank .NW + rank .NE + rank .SW + rank .SE := by
  cases l with
  | square q => cases q <;> simp only [lockRank] <;> omega
  | approach d => exact Nat.zero_le _
  | print => exact Nat.zero_le _

/-- Where the cars block on the locks of the squares in a fixed order, there is
no circular wait. -/
theorem no_circular_wait_in_order {rank : Square → Nat}
    {cars : Tid → Option (Direction × Turn)} {s : Intersection}
    (hrun : Relation.ReflTransGen
      (StepMeeting code (BlocksInOrder code IsSquare (lockRank rank))) (createcars cars) s)
    (threads : Set Tid) : ¬ CircularWait IsSquare s threads := by
  have hstart : Ranked IsSquare (lockRank rank) (createcars cars) := by
    intro t l hkind hsleep
    cases hsleep
  exact (hstart.steps hrun).not_circularWait (fun l _ => lockRank_le rank l) threads

/-- Whether a car is not about to block, or holds only locks of squares that come
before the one it blocks on. -/
def blocksInOrder (rank : Square → Nat) (t : Tid) (s : Intersection) : Bool :=
  match code (s.point t) with
  | .acquire (.square q) _ =>
      s.threadAddr (.square q) == none || s.threadAddr (.square q) == some t ||
        [Square.NW, .NE, .SW, .SE].all fun r =>
          s.threadAddr (.square r) != some t || decide (rank r < rank q)
  | _ => true

theorem blocksInOrder_sound {rank : Square → Nat} {s : Intersection}
    (hcheck : blocksInOrder rank t s) :
    BlocksInOrder code IsSquare (lockRank rank) t s := by
  intro l k hcode hkind hbusy hother held hheld hholds
  cases l with
  | square q =>
      cases held with
      | square r =>
          have hall : [Square.NW, .NE, .SW, .SE].all fun r =>
              s.threadAddr (.square r) != some t || decide (rank r < rank q) := by
            simpa [blocksInOrder, hcode, hbusy, hother] using hcheck
          have hmem : r ∈ [Square.NW, .NE, .SW, .SE] := by cases r <;> simp
          have hr := List.all_eq_true.mp hall r hmem
          simpa [hholds, lockRank] using hr
      | approach d => cases hheld
      | print => cases hheld
  | approach d => cases hkind
  | print => cases hkind

/-- The other cars queue on `cv_print` while the first one prints.  Then each
car in turn prints, wakes the next one and takes the lock of its first square,
and all but the last block on the lock of their second square. -/
def threeBlocked : List Tid :=
  [0, 0, 0, 1, 1, 1, 2, 2, 2, 3, 3, 3, 4, 4, 4] ++ List.replicate 9 0 ++
    List.replicate 13 1 ++ List.replicate 13 2 ++ List.replicate 13 3 ++ [1, 0, 2]

/-- The order in which these three meet the squares. -/
def eastToWest : Square → Nat
  | .NE => 0
  | .NW => 1
  | .SW => 2
  | .SE => 3

theorem no_circular_wait_three_blocked :
    ∃ s : Intersection,
      Relation.ReflTransGen
        (StepMeeting code (BlocksInOrder code IsSquare (lockRank eastToWest)))
        (createcars crossing) s ∧
      s.sleep 0 = .onLock (.square .SW) ∧ s.sleep 1 = .onLock (.square .NW) ∧
      s.sleep 2 = .onLock (.square .SE) ∧ ∀ threads, ¬ CircularWait IsSquare s threads := by
  have hfollow : followChecked code (blocksInOrder eastToWest) threeBlocked
      (createcars crossing) =
      some ((followChecked code (blocksInOrder eastToWest) threeBlocked
        (createcars crossing)).get (by decide)) := by
    rw [Option.some_get]
  have hrun := steps_of_followChecked (fun _ _ => blocksInOrder_sound) hfollow
  exact ⟨_, hrun, by decide, by decide, by decide,
    no_circular_wait_in_order hrun⟩

/-- The last car blocks too, and each of the four waits for the next. -/
theorem circular_wait_of_four :
    ∃ s : Intersection, follow code (threeBlocked ++ [3]) (createcars crossing) = some s ∧
      Reachable crossing s ∧ CircularWait IsSquare s {t | t < 4} := by
  have hfollow : follow code (threeBlocked ++ [3]) (createcars crossing) =
      some ((follow code (threeBlocked ++ [3]) (createcars crossing)).get
        (by decide)) := by
    rw [Option.some_get]
  refine ⟨_, hfollow, steps_of_follow hfollow, ?_⟩
  constructor
  case nonempty => exact ⟨0, by decide⟩
  case blocked =>
    intro t ht
    match t with
    | 0 => exact ⟨.square .SW, trivial, by decide, 2, by decide, by decide,
        by decide⟩
    | 1 => exact ⟨.square .NW, trivial, by decide, 0, by decide, by decide,
        by decide⟩
    | 2 => exact ⟨.square .SE, trivial, by decide, 3, by decide, by decide,
        by decide⟩
    | 3 => exact ⟨.square .NE, trivial, by decide, 1, by decide, by decide,
        by decide⟩
    | n + 4 => exact absurd ht (Nat.not_lt.mpr (Nat.le_add_left 4 n))

end OS161.Asst1.Stoplight
