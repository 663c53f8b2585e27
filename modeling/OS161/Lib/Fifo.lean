import OS161.Lib.Queue

namespace OS161.Lib

open OS161.Data
open OS161.Kern

/-! `q_grow` puts the elements back through `q_addtail`, which may call `q_grow`
in turn.  Here both call each other as in the source, in `int` arithmetic and
with an outcome for each call of `kmalloc`. -/

/-- A queue, and which of the calls of `kmalloc` to come find memory. -/
structure Supplied (α : Type) where
  queue : Queue α
  supply : Nat → Bool

namespace Supplied

abbrev Op (α β : Type) := Prog Errno Fault (Supplied α) β

def kmalloc : Op α Bool := fun s =>
  .ok (s.supply 0) { s with supply := fun n => s.supply (n + 1) }

def onQueue (body : Queue.Op α β) : Op α β :=
  Prog.zoom queue (fun s q => { s with queue := q }) body

/-- `while (nsize < targetsize)`.  A positive `int` is doubled at most 31 times
before it is no longer positive. -/
def doubleSize (targetsize : Int) : (turns : Nat) → Int → Op α Int
  | 0, _ => Prog.panic .queueLoop
  | turns + 1, nsize =>
      if nsize < targetsize then do
        let nsize := int32 (nsize * 2)
        Prog.assert (0 < nsize) .queueGrow
        doubleSize targetsize turns nsize
      else
        pure nsize

/-- `for (i=onr; i!=onw; i = (i+1)%osize)`.  A turn needs a cell of its own. -/
def putBack (addtail : Option α → Op α Unit) (old : Queue α) :
    (turns i : Nat) → Op α Unit
  | 0, i => if i = old.nextwrite then pure () else Prog.panic .queueLoop
  | turns + 1, i =>
      if i = old.nextwrite then
        pure ()
      else do
        match ← Prog.attempt (addtail (old.data i)) with
        | .ok _ => putBack addtail old turns ((i + 1) % old.size)
        | .error _ => Prog.panic .queueGrow

/-- `q_grow`, with the `q_addtail` that it calls.  From `2 ^ 30` cells on,
`nsize * sizeof(void *)` wraps around and the block is smaller than the ring. -/
def qGrow (addtail : Option α → Op α Unit) (targetsize : Int) : Op α Unit := do
  let old ← Prog.read queue
  let nsize ← doubleSize targetsize 32 old.size
  if ← kmalloc then
    Prog.assert (nsize < 2 ^ 30) .queueOverrun
    Prog.modify fun s => { s with queue := Queue.qCreate nsize.toNat }
    putBack addtail old old.size old.nextread
  else
    Prog.fail .ENOMEM

/-- `q_addtail` in calls of `q_grow` that are nested at most this deep. -/
def qAddtailNested : (depth : Nat) → Option α → Op α Unit
  | 0, _ => Prog.panic .queueLoop
  | depth + 1, ptr => do
      let q ← Prog.read queue
      Prog.assert (0 < q.size) .queueSize
      if (q.nextwrite + 1) % q.size = q.nextread then
        qGrow (qAddtailNested depth) (int32 (q.size + 1))
      else
        pure ()
      Prog.modify fun s => { s with queue := s.queue.put ptr }

def qAddtail (ptr : α) : Op α Unit :=
  qAddtailNested 2 (some ptr)

def qPreallocate (size : Int) : Op α Unit := do
  let q ← Prog.read queue
  Prog.assert (0 < q.size) .queueSize
  if size > q.size then qGrow (qAddtailNested 1) size else pure ()

def qRemhead : Op α α :=
  onQueue Queue.qRemhead

def qEmpty (s : Supplied α) : Bool :=
  s.queue.qEmpty

/-! What the nested calls compute. -/

theorem wp_kmalloc {post : Bool → Supplied α → Prop}
    {fails : Errno → Supplied α → Prop} {bad : Fault → Prop} {s : Supplied α} :
    kmalloc.wp post fails bad s ↔
      post (s.supply 0) { s with supply := fun n => s.supply (n + 1) } := Iff.rfl

theorem doubleSize_wp {post : Int → Supplied α → Prop}
    {fails : Errno → Supplied α → Prop} {bad : Fault → Prop} {s : Supplied α}
    {targetsize nsize : Nat} (hpos : 0 < nsize) (hsmall : nsize < 2 ^ 31)
    (htarget : targetsize ≤ 2 ^ 30) (hends : 2 ^ 31 ≤ nsize * 2 ^ turns)
    (hturns : targetsize ≤ nsize + count)
    (hpost : post (Queue.growSize targetsize count nsize) s) :
    (doubleSize targetsize turns nsize).wp post fails bad s := by
  induction turns generalizing nsize count with
  | zero => omega
  | succ turns ih =>
      simp only [doubleSize, ↓Prog.wp_ite]
      split
      case isTrue hless =>
        have hdouble : int32 ((nsize : Int) * 2) = ((nsize * 2 : Nat) : Int) := by
          rw [int32_of_lt (by omega) (by omega), Int.natCast_mul]
          rfl
        have hpower : nsize * 2 * 2 ^ turns = nsize * 2 ^ (turns + 1) := by
          rw [Nat.pow_succ', Nat.mul_assoc]
        rw [← hpower] at hends
        have hmore : targetsize ≤ nsize * 2 + (count - 1) := by
          clear hends
          omega
        have hturn : Queue.growSize targetsize count nsize =
            Queue.growSize targetsize (count - 1) (nsize * 2) := by
          clear hends
          rw [← Nat.succ_pred_eq_of_ne_zero (show count ≠ 0 by omega), Queue.growSize,
            if_pos (by omega)]
          rfl
        rw [hturn] at hpost
        simp only [↓Prog.wp_bind, ↓Prog.wp_assert]
        rw [hdouble, if_pos (by omega)]
        exact ih (by omega) (by omega) hends hmore hpost
      case isFalse hless =>
        have hstays : Queue.growSize targetsize count nsize = nsize := by
          cases count with
          | zero => rfl
          | succ count => rw [Queue.growSize, if_neg (by omega)]
        rw [hstays] at hpost
        exact hpost

theorem qAddtailNested_of_room {s : Supplied α} (hpos : 0 < s.queue.size)
    (hroom : ¬ (s.queue.nextwrite + 1) % s.queue.size = s.queue.nextread)
    (depth : Nat) (ptr : Option α) :
    qAddtailNested (depth + 1) ptr s = .ok () { s with queue := s.queue.put ptr } := by
  simp only [qAddtailNested, bind, Prog.andThen, Prog.read, Prog.assert, if_pos hpos,
    Prog.ret, if_neg hroom, Prog.modify]

/-- As long as no insertion finds the new ring full, none of them grows it. -/
theorem putBack_of_copyCells {old : Queue α} {s : Supplied α} (hpos : 0 < s.queue.size)
    (hcopy : Queue.copyCells old turns i s.queue = some next) (depth : Nat) :
    putBack (qAddtailNested (depth + 1)) old turns i s =
      .ok () { s with queue := next } := by
  induction turns generalizing i s with
  | zero =>
      simp only [Queue.copyCells, Option.ite_none_right_eq_some, Option.some.injEq] at hcopy
      obtain ⟨hend, hsame⟩ := hcopy
      simp only [putBack, if_pos hend, pure, Prog.ret, hsame.symm]
  | succ turns ih =>
      simp only [Queue.copyCells] at hcopy
      simp only [putBack]
      split at hcopy
      case isTrue hend =>
        cases hcopy
        simp only [if_pos hend, pure, Prog.ret]
      case isFalse hend =>
        split at hcopy
        case isTrue => cases hcopy
        case isFalse hroom =>
          have hput := qAddtailNested_of_room hpos hroom depth (old.data i)
          have hrest := ih (s := { s with queue := s.queue.put (old.data i) }) hpos hcopy
          simp only [if_neg hend, bind, Prog.andThen, Prog.attempt, hput]
          exact hrest

section Specs

variable {s : Supplied α} {ptrs : List α}

/-- The new ring takes all the elements before it is full. -/
theorem putBack_rep (hrep : s.queue.Rep ptrs) (hgrow : s.queue.size < nsize)
    (supply : Nat → Bool) (depth : Nat) :
    ∃ next, putBack (qAddtailNested (depth + 1)) s.queue s.queue.size s.queue.nextread
        ⟨Queue.qCreate nsize, supply⟩ = .ok () ⟨next, supply⟩ ∧
      next.Rep ptrs ∧ next.size = nsize := by
  have hold : s.queue.Rep ([] ++ ptrs) := hrep
  have hpos : 0 < nsize := Nat.zero_lt_of_lt hgrow
  obtain ⟨next, hcopy, hnext, hsame⟩ :=
    Queue.copyCells_rep hold (Queue.qCreate_rep hpos) hgrow s.queue.size
      (Nat.le_of_lt hrep.length_lt)
  rw [List.length_nil, Nat.add_zero, Nat.mod_eq_of_lt hrep.nextread_lt] at hcopy
  exact ⟨next, putBack_of_copyCells hpos hcopy depth, hnext, hsame⟩

theorem qGrow_wp (hrep : s.queue.Rep ptrs) (hgrow : s.queue.size < targetsize)
    (htarget : targetsize ≤ 2 ^ 30)
    (hsmall : Queue.growSize targetsize targetsize s.queue.size < 2 ^ 30)
    (depth : Nat) :
    (qGrow (qAddtailNested (depth + 1)) targetsize).wp
      (fun _ next => next.queue.Rep ptrs ∧
        next.queue.size = Queue.growSize targetsize targetsize s.queue.size)
      (fun code next => code = .ENOMEM ∧ next.queue = s.queue) (fun _ => False) s := by
  have hread := hrep.nextread_lt
  have hsize : targetsize ≤ Queue.growSize targetsize targetsize s.queue.size :=
    Queue.targetsize_le_growSize _ _ _ (by omega) (by omega)
  have hends : 2 ^ 31 ≤ s.queue.size * 2 ^ 32 := by omega
  simp only [qGrow, ↓Prog.wp_bind, ↓Prog.wp_read]
  refine doubleSize_wp (by omega) (by omega) htarget hends
    (show targetsize ≤ s.queue.size + targetsize by omega) ?_
  generalize Queue.growSize targetsize targetsize s.queue.size = nsize at hsmall hsize ⊢
  rw [wp_kmalloc]
  cases s.supply 0 with
  | false =>
      simp only [Bool.false_eq_true, if_false, ↓Prog.wp_fail, and_self]
  | true =>
      have hless : (nsize : Int) < 2 ^ 30 := by omega
      simp only [if_true, ↓Prog.wp_bind, ↓Prog.wp_assert, ↓Prog.wp_modify]
      rw [if_pos hless, Int.toNat_natCast]
      clear hsmall htarget hends hless
      obtain ⟨next, hrun, hnext, hsame⟩ := putBack_rep hrep
        (Nat.lt_of_lt_of_le hgrow hsize) (fun n => s.supply (n + 1)) depth
      rw [Prog.wp, hrun]
      exact ⟨hnext, hsame⟩

end Specs

/-! Any calls, in any order. -/

inductive Call (α : Type) where
  | addtail (ptr : α)
  | remhead
  | preallocate (size : Int)
  | empty

/-- How large the ring is after the call, if it finds memory. -/
def Call.sizeAfter (q : Queue α) : Call α → Nat
  | .addtail _ =>
      if (q.nextwrite + 1) % q.size = q.nextread then
        Queue.growSize (q.size + 1) (q.size + 1) q.size
      else q.size
  | .preallocate size =>
      if size > q.size then Queue.growSize size.toNat size.toNat q.size else q.size
  | .remhead => q.size
  | .empty => q.size

/-- A call beside what it does to the list of the elements.  `q_remhead` is
called on a queue that is not empty. -/
inductive Step : Supplied α × List α → Supplied α × List α → Prop
  | added (hsize : (Call.addtail ptr).sizeAfter s.queue < 2 ^ 30)
      (hrun : qAddtail ptr s = .ok () next) : Step (s, ptrs) (next, ptrs ++ [ptr])
  | refused (hsize : (Call.addtail ptr).sizeAfter s.queue < 2 ^ 30)
      (hrun : qAddtail ptr s = .error code next) : Step (s, ptrs) (next, ptrs)
  | removed (hrun : qRemhead s = .ok head next) : Step (s, ptr :: ptrs) (next, ptrs)
  | preallocated (hsize : (Call.preallocate size).sizeAfter s.queue < 2 ^ 30)
      (hrun : qPreallocate size s = .ok () next) : Step (s, ptrs) (next, ptrs)
  | unallocated (hsize : (Call.preallocate size).sizeAfter s.queue < 2 ^ 30)
      (hrun : qPreallocate size s = .error code next) : Step (s, ptrs) (next, ptrs)

/-- The state holds the list, in a ring whose size in bytes does not wrap. -/
structure Holds (s : Supplied α) (ptrs : List α) : Prop where
  rep : s.queue.Rep ptrs
  small : s.queue.size < 2 ^ 30

section Calls

variable {s : Supplied α} {ptrs : List α}

theorem Holds.of_queue_eq {next : Supplied α} (hholds : s.Holds ptrs)
    (hsame : next.queue = s.queue) : next.Holds ptrs where
  rep := hsame ▸ hholds.rep
  small := hsame ▸ hholds.small

theorem Holds.qGrow (hholds : s.Holds ptrs) (hgrow : s.queue.size < targetsize)
    (hsmall : Queue.growSize targetsize targetsize s.queue.size < 2 ^ 30)
    (depth : Nat) :
    (Supplied.qGrow (qAddtailNested (depth + 1)) targetsize).wp
      (fun _ next => next.Holds ptrs ∧ targetsize ≤ next.queue.size)
      (fun code next => code = .ENOMEM ∧ next.queue = s.queue) (fun _ => False) s := by
  have hread := hholds.rep.nextread_lt
  have hsize : targetsize ≤ Queue.growSize targetsize targetsize s.queue.size :=
    Queue.targetsize_le_growSize _ _ _ (by omega) (by omega)
  refine Prog.wp_mono (qGrow_wp hholds.rep hgrow (by omega) hsmall depth) ?_
    (fun _ _ h => h) (fun _ h => h)
  intro _ next hnext
  exact ⟨⟨hnext.1, hnext.2 ▸ hsmall⟩, hnext.2 ▸ hsize⟩

theorem Holds.qAddtail (hholds : s.Holds ptrs) (ptr : α)
    (hsize : (Call.addtail ptr).sizeAfter s.queue < 2 ^ 30) :
    (Supplied.qAddtail ptr).wp (fun _ next => next.Holds (ptrs ++ [ptr]))
      (fun code next => code = .ENOMEM ∧ next.queue = s.queue) (fun _ => False) s := by
  have hread := hholds.rep.nextread_lt
  have hsmall := hholds.small
  have htarget : int32 ((s.queue.size : Int) + 1) = ((s.queue.size + 1 : Nat) : Int) := by
    rw [int32_of_lt (by omega) (by omega)]
    rfl
  simp only [Supplied.qAddtail, qAddtailNested, ↓Prog.wp_bind, ↓Prog.wp_read,
    ↓Prog.wp_assert, ↓Prog.wp_ite, ↓Prog.wp_modify]
  rw [if_pos (by omega)]
  simp only [Call.sizeAfter] at hsize
  split
  case isTrue hfull =>
    rw [if_pos hfull] at hsize
    rw [hholds.rep.full_iff] at hfull
    rw [htarget]
    refine Prog.wp_mono (hholds.qGrow (by omega) hsize 0) ?_ (fun _ _ h => h) (fun _ h => h)
    intro _ next hnext
    exact ⟨hnext.1.rep.put ptr (by omega), hnext.1.small⟩
  case isFalse hfull =>
    rw [hholds.rep.full_iff] at hfull
    have hlen := hholds.rep.length_lt
    exact ⟨hholds.rep.put ptr (by omega), hsmall⟩

theorem Holds.qPreallocate (hholds : s.Holds ptrs) (size : Int)
    (hsize : (Call.preallocate size : Call α).sizeAfter s.queue < 2 ^ 30) :
    (Supplied.qPreallocate size).wp (fun _ next => next.Holds ptrs)
      (fun code next => code = .ENOMEM ∧ next.queue = s.queue) (fun _ => False) s := by
  have hread := hholds.rep.nextread_lt
  simp only [Supplied.qPreallocate, ↓Prog.wp_bind, ↓Prog.wp_read, ↓Prog.wp_assert,
    ↓Prog.wp_ite, ↓Prog.wp_pure]
  rw [if_pos (by omega)]
  simp only [Call.sizeAfter] at hsize
  split
  case isTrue hmore =>
    rw [if_pos hmore] at hsize
    have hnat : size = (size.toNat : Int) := by omega
    rw [hnat]
    refine Prog.wp_mono (hholds.qGrow (by omega) hsize 0) ?_ (fun _ _ h => h) (fun _ h => h)
    intro _ next hnext
    exact hnext.1
  case isFalse => exact hholds

theorem Holds.qRemhead (hholds : s.Holds (ptr :: ptrs)) :
    Supplied.qRemhead.Returns (fun head next => head = ptr ∧ next.Holds ptrs) s := by
  have hhead : Queue.qRemhead.Returns (fun head q => head = ptr ∧ q.Rep ptrs) s.queue :=
    hholds.rep.qRemhead
  have hsame := Queue.size_qRemhead s.queue
  simp only [Supplied.qRemhead, onQueue, Prog.Returns, ↓Prog.wp_zoom]
  refine Prog.wp_mono (Prog.wp_and hhead hsame) ?_ ?_ ?_
  · intro head q hq
    exact ⟨hq.1.1, hq.1.2, hq.2 ▸ hholds.small⟩
  · intro _ _ h
    exact h.1
  · intro _ h
    exact h.1

theorem Holds.step {next : Supplied α} {ptrs' : List α} (hholds : s.Holds ptrs)
    (hstep : Step (s, ptrs) (next, ptrs')) : next.Holds ptrs' := by
  cases hstep with
  | added hsize hrun => exact (hholds.qAddtail _ hsize).post_of_ok hrun
  | refused hsize hrun =>
      exact hholds.of_queue_eq ((hholds.qAddtail _ hsize).fails_of_error hrun).2
  | removed hrun => exact (hholds.qRemhead.post_of_ok hrun).2
  | preallocated hsize hrun => exact (hholds.qPreallocate _ hsize).post_of_ok hrun
  | unallocated hsize hrun =>
      exact hholds.of_queue_eq ((hholds.qPreallocate _ hsize).fails_of_error hrun).2

/-- What a caller sees of the queue: it behaves as the list does. -/
structure Fifo (s : Supplied α) (ptrs : List α) : Prop where
  contents : s.queue.contents = ptrs
  empty : s.qEmpty = true ↔ ptrs = []
  addtail : ∀ ptr, (Call.addtail ptr).sizeAfter s.queue < 2 ^ 30 →
    (Supplied.qAddtail ptr).wp (fun _ next => next.queue.contents = ptrs ++ [ptr])
      (fun code next => code = .ENOMEM ∧ next.queue = s.queue) (fun _ => False) s
  remhead : ∀ ptr rest, ptrs = ptr :: rest →
    Supplied.qRemhead.Returns (fun head next => head = ptr ∧ next.queue.contents = rest) s
  preallocate : ∀ size, (Call.preallocate size : Call α).sizeAfter s.queue < 2 ^ 30 →
    (Supplied.qPreallocate size).wp (fun _ next => next.queue.contents = ptrs)
      (fun code next => code = .ENOMEM ∧ next.queue = s.queue) (fun _ => False) s

theorem Holds.fifo (hholds : s.Holds ptrs) : s.Fifo ptrs where
  contents := hholds.rep.contents_eq
  empty := hholds.rep.qEmpty_iff
  addtail ptr hsize :=
    Prog.wp_mono (hholds.qAddtail ptr hsize) (fun _ _ hnext => hnext.rep.contents_eq)
      (fun _ _ h => h) (fun _ h => h)
  remhead ptr rest hcons := by
    subst hcons
    exact hholds.qRemhead.mono fun _ _ hnext => ⟨hnext.1, hnext.2.rep.contents_eq⟩
  preallocate size hsize :=
    Prog.wp_mono (hholds.qPreallocate size hsize) (fun _ _ hnext => hnext.rep.contents_eq)
      (fun _ _ h => h) (fun _ h => h)

end Calls

/-- The queue that `q_create` hands out. -/
def start (size : Nat) (supply : Nat → Bool) : Supplied α :=
  ⟨Queue.qCreate size, supply⟩

/-- From any size on, with any of the allocations failing, the ring is the list
of what was put in and not yet taken out, in this order. -/
theorem queue_refines_fifo {size : Nat} (hpos : 1 ≤ size) (hsmall : size < 2 ^ 30)
    (supply : Nat → Bool) {s : Supplied α} {ptrs : List α}
    (hrun : Relation.ReflTransGen Step (start size supply, []) (s, ptrs)) :
    s.Fifo ptrs := by
  have hstart : Holds (start size supply : Supplied α) [] :=
    ⟨Queue.qCreate_rep hpos, hsmall⟩
  have hholds : Holds (s, ptrs).1 (s, ptrs).2 :=
    invariant_of_steps (fun state : Supplied α × List α => state.1.Holds state.2) hrun hstart
      fun _ _ hbefore hstep => hbefore.step hstep
  exact hholds.fifo

/-- A ring of two cells has room for one element. -/
theorem queue_refines_fifo_two_cells :
    Fifo ⟨(Queue.qCreate 2).put (some 7), fun _ => true⟩ [7] :=
  queue_refines_fifo (by decide) (by decide) (fun _ => true)
    (.single (.added (by decide) (qAddtailNested_of_room (s := start 2 fun _ => true)
      (by decide) (by decide) 1 (some 7))))

end Supplied

end OS161.Lib
