import Mathlib.Data.Nat.ModEq
import Mathlib.Logic.Function.Basic
import OS161.Data.Prog
import OS161.Data.Seq
import OS161.Kern.Base

namespace OS161.Lib

open OS161.Data
open OS161.Kern

/-! The ring of `kern/lib/queue.c`.  One cell always stays unused, so equal
indices mean an empty queue.  A cell that was never written holds `none`. -/

structure Queue (α : Type) where
  size : Nat
  nextwrite : Nat
  nextread : Nat
  data : Nat → Option α

namespace Queue

abbrev Op (α β : Type) := Prog Errno Fault (Queue α) β

def qCreate (size : Nat) : Queue α where
  size := size
  nextwrite := 0
  nextread := 0
  data := fun _ => none

/-- `while (nsize < targetsize) nsize *= 2;`  A positive size reaches the
target in at most `targetsize` turns. -/
def growSize (targetsize : Nat) : (turns nsize : Nat) → Nat
  | 0, nsize => nsize
  | turns + 1, nsize =>
      if nsize < targetsize then growSize targetsize turns (nsize * 2)
      else nsize

/-- The end of `q_addtail`, after any growth. -/
def put (q : Queue α) (ptr : Option α) : Queue α := {
  q with
  data := Function.update q.data q.nextwrite ptr
  nextwrite := (q.nextwrite + 1) % q.size }

/-- `for (i=onr; i!=onw; i = (i+1)%osize) q_addtail(q, olddata[i]);`  At most
`osize` cells are visited. -/
def copyCells (old : Queue α) : (turns i : Nat) → Queue α → Option (Queue α)
  | 0, i, q => if i = old.nextwrite then some q else none
  | turns + 1, i, q =>
      if i = old.nextwrite then some q
      else if (q.nextwrite + 1) % q.size = q.nextread then none
      else copyCells old turns ((i + 1) % old.size) (q.put (old.data i))

def qGrow (mem : Bool) (targetsize : Nat) : Op α Unit := do
  let old ← Prog.get
  let nsize := growSize targetsize targetsize old.size
  Prog.assert (0 < nsize) .queueGrow
  if mem then
    match copyCells old old.size old.nextread (qCreate nsize) with
    | some q => Prog.modify fun _ => q
    | none => Prog.panic .queueGrow
  else
    Prog.fail .ENOMEM

def qPreallocate (mem : Bool) (size : Nat) : Op α Unit := do
  let q ← Prog.get
  Prog.assert (0 < q.size) .queueSize
  if size > q.size then qGrow mem size else pure ()

def qEmpty (q : Queue α) : Bool := q.nextwrite == q.nextread

def qAddtail (mem : Bool) (ptr : α) : Op α Unit := do
  let q ← Prog.get
  Prog.assert (0 < q.size) .queueSize
  if (q.nextwrite + 1) % q.size = q.nextread then
    qGrow mem (q.size + 1)
  else
    pure ()
  Prog.modify fun q => q.put (some ptr)

def qRemhead : Op α α := do
  let q ← Prog.get
  Prog.assert (0 < q.size) .queueSize
  Prog.assert (q.qEmpty = false) .queueRemheadEmpty
  Prog.modify fun q => { q with nextread := (q.nextread + 1) % q.size }
  match q.data q.nextread with
  | some ptr => pure ptr
  | none => Prog.panic .uninitialised

/-! The queue as the list of its cells from `nextread` on. -/

structure Rep (q : Queue α) (ptrs : List α) : Prop where
  nextread_lt : q.nextread < q.size
  length_lt : ptrs.length < q.size
  nextwrite_eq : q.nextwrite = (q.nextread + ptrs.length) % q.size
  cells : ∀ i (h : i < ptrs.length),
    q.data ((q.nextread + i) % q.size) = some ptrs[i]

def contents (q : Queue α) : List α :=
  (List.range ((q.nextwrite + q.size - q.nextread) % q.size)).filterMap
    fun i => q.data ((q.nextread + i) % q.size)

theorem Rep.contents_eq {q : Queue α} (hrep : Rep q ptrs) :
    q.contents = ptrs := by
  have hread := hrep.nextread_lt
  have hlen := hrep.length_lt
  have hcount : (q.nextwrite + q.size - q.nextread) % q.size =
      ptrs.length := by
    rw [hrep.nextwrite_eq]
    by_cases hwrap : q.nextread + ptrs.length < q.size
    · rw [Nat.mod_eq_of_lt hwrap,
        show q.nextread + ptrs.length + q.size - q.nextread =
          ptrs.length + q.size by omega,
        Nat.add_mod_right, Nat.mod_eq_of_lt hlen]
    · have hmod : (q.nextread + ptrs.length) % q.size =
          q.nextread + ptrs.length - q.size := by
        rw [Nat.mod_eq_sub_mod (by omega), Nat.mod_eq_of_lt (by omega)]
      rw [hmod,
        show q.nextread + ptrs.length - q.size + q.size - q.nextread =
          ptrs.length by omega,
        Nat.mod_eq_of_lt hlen]
  rw [contents, hcount]
  exact filterMap_range_eq hrep.cells

theorem qCreate_rep {capacity : Nat} (hpos : 0 < capacity) :
    Rep (qCreate capacity : Queue α) [] where
  nextread_lt := hpos
  length_lt := hpos
  nextwrite_eq := by simp [qCreate]
  cells := by simp

theorem index_inj {start size i j : Nat} (hi : i < size) (hj : j < size)
    (heq : (start + i) % size = (start + j) % size) : i = j := by
  have h : i % size = j % size := Nat.ModEq.add_left_cancel' start heq
  rwa [Nat.mod_eq_of_lt hi, Nat.mod_eq_of_lt hj] at h

theorem index_succ (start size i : Nat) :
    ((start + 1) % size + i) % size = (start + (i + 1)) % size := by
  rw [Nat.mod_add_mod]
  congr 1
  omega

theorem Rep.qEmpty_iff {q : Queue α} (hrep : Rep q ptrs) :
    q.qEmpty = true ↔ ptrs = [] := by
  have hread : q.nextread = (q.nextread + 0) % q.size := by
    rw [Nat.add_zero, Nat.mod_eq_of_lt hrep.nextread_lt]
  simp only [qEmpty, beq_iff_eq, hrep.nextwrite_eq]
  constructor
  · intro heq
    rw [hread, Nat.mod_add_mod, Nat.add_zero] at heq
    have hlt := hrep.length_lt
    exact List.eq_nil_of_length_eq_zero
      (index_inj hlt (by omega) (heq.trans (by rw [Nat.add_zero])))
  · rintro rfl
    exact hread.symm

theorem le_growSize (targetsize turns nsize : Nat) :
    nsize ≤ growSize targetsize turns nsize := by
  induction turns generalizing nsize with
  | zero => exact Nat.le_refl _
  | succ turns ih =>
      simp only [growSize]
      split
      · exact Nat.le_trans (by omega) (ih (nsize * 2))
      · exact Nat.le_refl _

theorem targetsize_le_growSize (targetsize turns nsize : Nat)
    (hpos : 0 < nsize) (hturns : targetsize ≤ nsize + turns) :
    targetsize ≤ growSize targetsize turns nsize := by
  induction turns generalizing nsize with
  | zero => simpa [growSize] using hturns
  | succ turns ih =>
      simp only [growSize]
      split
      · exact ih (nsize * 2) (by omega) (by omega)
      · omega

theorem Rep.put {q : Queue α} (hrep : Rep q ptrs) (ptr : α)
    (hroom : ptrs.length + 1 < q.size) :
    Rep (q.put (some ptr)) (ptrs ++ [ptr]) := by
  refine ⟨hrep.nextread_lt, by simpa [Queue.put] using hroom, ?_, ?_⟩
  · simp only [Queue.put, hrep.nextwrite_eq, List.length_append,
      List.length_singleton, Nat.mod_add_mod]
    congr 1
  · intro i hi
    simp only [Queue.put, hrep.nextwrite_eq]
    by_cases hlast : i = ptrs.length
    · subst hlast
      simp
    · have hi' : i < ptrs.length := by simp at hi; omega
      have hne : (q.nextread + i) % q.size ≠
          (q.nextread + ptrs.length) % q.size := by
        intro heq
        exact hlast (index_inj (by omega) (by omega) heq)
      simp [Function.update_of_ne hne, hrep.cells i hi',
        List.getElem_append_left hi']

theorem Rep.full_iff {q : Queue α} (hrep : Rep q ptrs) :
    (q.nextwrite + 1) % q.size = q.nextread ↔ ptrs.length + 1 = q.size := by
  have hread := hrep.nextread_lt
  have hlen := hrep.length_lt
  rw [hrep.nextwrite_eq, Nat.mod_add_mod, Nat.add_assoc]
  constructor
  · intro heq
    by_contra hne
    have hlen' : ptrs.length + 1 < q.size := by omega
    have hzero : (q.nextread + 0) % q.size = q.nextread :=
      Nat.mod_eq_of_lt hread
    have := index_inj hlen' (by omega) (heq.trans hzero.symm)
    omega
  · intro heq
    rw [heq, Nat.add_mod_right, Nat.mod_eq_of_lt hread]

/-- Copying starts at the first old cell; `done` has been copied already. -/
theorem copyCells_rep {old q : Queue α} (hold : Rep old (done ++ rest))
    (hrep : Rep q done) (hsize : old.size < q.size)
    (turns : Nat) (hturns : rest.length ≤ turns) :
    ∃ next, copyCells old turns ((old.nextread + done.length) % old.size) q =
        some next ∧ Rep next (done ++ rest) ∧ next.size = q.size := by
  induction rest generalizing done q turns with
  | nil =>
      have hend : (old.nextread + done.length) % old.size = old.nextwrite := by
        simpa using hold.nextwrite_eq.symm
      refine ⟨q, ?_, by simpa using hrep, rfl⟩
      cases turns <;> simp [copyCells, hend]
  | cons ptr rest ih =>
      have hlen := hold.length_lt
      simp only [List.length_append, List.length_cons] at hlen
      cases turns with
      | zero => simp at hturns
      | succ turns =>
          have hmore : (old.nextread + done.length) % old.size ≠
              old.nextwrite := by
            rw [hold.nextwrite_eq]
            intro heq
            have := index_inj (by omega) (by simpa using hlen) heq
            simp at this
          have hroom : ¬ (q.nextwrite + 1) % q.size = q.nextread := by
            rw [hrep.full_iff]
            omega
          have hcell : old.data ((old.nextread + done.length) % old.size) =
              some ptr := by
            rw [hold.cells done.length (by simp)]
            simp
          have hold' : Rep old ((done ++ [ptr]) ++ rest) := by simpa using hold
          obtain ⟨next, hnext, hresult, hsame⟩ :=
            ih hold' (hrep.put ptr (by omega)) hsize turns
              (by simpa using hturns)
          refine ⟨next, ?_, by simpa using hresult, hsame⟩
          simp only [copyCells, if_neg hmore, if_neg hroom, hcell]
          rw [← hnext]
          congr 1
          rw [Nat.mod_add_mod]
          simp [Nat.add_assoc]

theorem copyCells_size (hcopy : copyCells old turns i q = some next) :
    next.size = q.size := by
  induction turns generalizing i q with
  | zero =>
      simp only [copyCells, Option.ite_none_right_eq_some, Option.some.injEq] at hcopy
      rw [← hcopy.2]
  | succ turns ih =>
      simp only [copyCells] at hcopy
      split at hcopy
      · cases hcopy
        rfl
      · split at hcopy
        · cases hcopy
        · exact (ih hcopy).trans rfl

/-! Growing needs memory, and no operation makes the ring smaller. -/

theorem qGrow_follows (mem : Bool) (targetsize : Nat) :
    (qGrow mem targetsize : Op α Unit).Follows (qGrow true targetsize) := by
  cases mem with
  | true => exact .refl _
  | false =>
      refine .bind (.refl _) fun old => .bind (.refl _) fun _ => ?_
      intro q value next hrun
      cases hrun

theorem qAddtail_follows (mem : Bool) (ptr : α) :
    (qAddtail mem ptr).Follows (qAddtail true ptr) :=
  .bind (.refl _) fun _ => .bind (.refl _) fun _ =>
    .ite _ (.bind (qGrow_follows mem _) fun _ => .refl _) (.refl _)

theorem size_qGrow (mem : Bool) (targetsize : Nat) (q : Queue α) :
    (qGrow mem targetsize).wp
      (fun _ next => next.size = growSize targetsize targetsize q.size)
      (fun _ _ => True) (fun _ => True) q := by
  simp only [qGrow, ↓Prog.wp_bind, ↓Prog.wp_get, ↓Prog.wp_assert, ↓Prog.wp_ite,
    ↓Prog.wp_fail]
  split
  case isTrue =>
    split
    case isTrue =>
      split
      case h_1 next hcopy => exact copyCells_size hcopy
      case h_2 => exact trivial
    case isFalse => exact trivial
  case isFalse => exact trivial

theorem le_size_qPreallocate (mem : Bool) (size : Nat) (q : Queue α) :
    (qPreallocate mem size).wp (fun _ next => q.size ≤ next.size ∧ size ≤ next.size)
      (fun _ _ => True) (fun _ => True) q := by
  simp only [qPreallocate, ↓Prog.wp_bind, ↓Prog.wp_get, ↓Prog.wp_assert,
    ↓Prog.wp_ite, ↓Prog.wp_pure]
  split
  case isTrue hpos =>
    split
    case isTrue =>
      refine Prog.wp_mono (size_qGrow mem size q) ?_ (fun _ _ h => h) (fun _ h => h)
      intro _ next hnext
      rw [hnext]
      exact ⟨le_growSize size size q.size,
        targetsize_le_growSize size size q.size hpos (by omega)⟩
    case isFalse => exact ⟨Nat.le_refl _, by omega⟩
  case isFalse => exact trivial

theorem le_size_qAddtail (mem : Bool) (ptr : α) (q : Queue α) :
    (qAddtail mem ptr).wp (fun _ next => q.size ≤ next.size)
      (fun _ _ => True) (fun _ => True) q := by
  simp only [qAddtail, ↓Prog.wp_bind, ↓Prog.wp_get, ↓Prog.wp_assert,
    ↓Prog.wp_ite, ↓Prog.wp_modify]
  split
  case isTrue =>
    split
    case isTrue =>
      refine Prog.wp_mono (size_qGrow mem _ q) ?_ (fun _ _ h => h) (fun _ h => h)
      intro _ next hnext
      exact Nat.le_trans (le_growSize _ _ q.size) (Nat.le_of_eq hnext.symm)
    case isFalse => exact Nat.le_refl _
  case isFalse => exact trivial

theorem size_qRemhead (q : Queue α) :
    qRemhead.wp (fun _ next => next.size = q.size) (fun _ _ => True)
      (fun _ => True) q := by
  simp only [qRemhead, ↓Prog.wp_bind, ↓Prog.wp_get, ↓Prog.wp_assert, ↓Prog.wp_modify]
  split
  case isTrue =>
    split
    case isTrue =>
      cases q.data q.nextread with
      | some ptr => exact rfl
      | none => exact trivial
    case isFalse => exact trivial
  case isFalse => exact trivial

section Specs

variable {q : Queue α} {ptrs : List α} {fails : Errno → Queue α → Prop}
variable {bad : Fault → Prop}

theorem Rep.qGrow (hrep : Rep q ptrs) (hgrow : q.size < targetsize) :
    (Queue.qGrow true targetsize).wp
      (fun _ next => Rep next ptrs ∧ targetsize ≤ next.size)
      fails bad q := by
  have hread := hrep.nextread_lt
  have hlen := hrep.length_lt
  let nsize := growSize targetsize targetsize q.size
  have htarget : targetsize ≤ nsize :=
    targetsize_le_growSize targetsize targetsize q.size (by omega) (by omega)
  have hnsize : 0 < nsize := by omega
  have hfresh : Rep (qCreate nsize : Queue α) [] := qCreate_rep hnsize
  have hold : Rep q ([] ++ ptrs) := hrep
  obtain ⟨next, hnext, hresult, hsize⟩ :=
    copyCells_rep hold hfresh (show q.size < nsize by omega) q.size (by omega)
  rw [List.length_nil, Nat.add_zero, Nat.mod_eq_of_lt hread] at hnext
  simp only [Queue.qGrow, ↓Prog.wp_bind, ↓Prog.wp_get, ↓Prog.wp_assert,
    if_true]
  rw [if_pos hnsize, hnext]
  exact ⟨hresult, hsize ▸ htarget⟩

theorem Rep.qPreallocate (hrep : Rep q ptrs) (size : Nat) :
    (Queue.qPreallocate true size).wp
      (fun _ next => Rep next ptrs ∧ size ≤ next.size) fails bad q := by
  have hpos := hrep.nextread_lt
  simp only [Queue.qPreallocate, ↓Prog.wp_bind, ↓Prog.wp_get,
    ↓Prog.wp_assert, ↓Prog.wp_ite, ↓Prog.wp_pure]
  rw [if_pos (by omega)]
  split
  · exact hrep.qGrow (by omega)
  · exact ⟨hrep, by omega⟩

theorem Rep.qAddtail (hrep : Rep q ptrs) (ptr : α) :
    (Queue.qAddtail true ptr).wp (fun _ next => Rep next (ptrs ++ [ptr]))
      fails bad q := by
  have hpos := hrep.nextread_lt
  simp only [Queue.qAddtail, ↓Prog.wp_bind, ↓Prog.wp_get,
    ↓Prog.wp_assert, ↓Prog.wp_ite, ↓Prog.wp_modify]
  rw [if_pos (by omega)]
  split
  case isTrue hfull =>
    rw [hrep.full_iff] at hfull
    refine Prog.wp_mono (hrep.qGrow (by omega)) ?_ (fun _ _ h => h)
      (fun _ h => h)
    rintro _ next ⟨hnext, hsize⟩
    exact hnext.put ptr (by omega)
  case isFalse hfull =>
    rw [hrep.full_iff] at hfull
    have hlen := hrep.length_lt
    exact hrep.put ptr (by omega)

/-- Without memory the insertion works exactly while a cell is to spare. -/
theorem Rep.qAddtail_starved (hrep : Rep q ptrs) (ptr : α) :
    (Queue.qAddtail false ptr).wp
      (fun _ next => Rep next (ptrs ++ [ptr]) ∧ next.size = q.size ∧
        ptrs.length + 1 < q.size)
      (fun _ _ => ptrs.length + 1 = q.size) bad q := by
  have hpos := hrep.nextread_lt
  have hlen := hrep.length_lt
  simp only [Queue.qAddtail, ↓Prog.wp_bind, ↓Prog.wp_get,
    ↓Prog.wp_assert, ↓Prog.wp_ite, ↓Prog.wp_modify]
  rw [if_pos (by omega)]
  split
  case isTrue hfull =>
    rw [hrep.full_iff] at hfull
    have hgrown := le_growSize (q.size + 1) (q.size + 1) q.size
    simp only [Queue.qGrow, ↓Prog.wp_bind, ↓Prog.wp_get, ↓Prog.wp_assert,
      Bool.false_eq_true, if_false, ↓Prog.wp_fail]
    rw [if_pos (by omega)]
    exact hfull
  case isFalse hfull =>
    rw [hrep.full_iff] at hfull
    exact ⟨hrep.put ptr (by omega), rfl, by omega⟩

theorem Rep.qRemhead (hrep : Rep q (ptr :: ptrs)) :
    Queue.qRemhead.wp (fun head next => head = ptr ∧ Rep next ptrs)
      fails bad q := by
  have hread := hrep.nextread_lt
  have hlen := hrep.length_lt
  have hempty : q.qEmpty = false := by
    rw [Bool.eq_false_iff, Ne, hrep.qEmpty_iff]
    simp
  have hhead : q.data q.nextread = some ptr := by
    have := hrep.cells 0 (by simp)
    rwa [Nat.add_zero, Nat.mod_eq_of_lt hread] at this
  simp only [Queue.qRemhead, ↓Prog.wp_bind, ↓Prog.wp_get,
    ↓Prog.wp_assert, ↓Prog.wp_modify, hhead, ↓Prog.wp_pure]
  rw [if_pos (by omega), if_pos hempty]
  refine ⟨trivial, Nat.mod_lt _ (by omega), by simp at hlen ⊢; omega, ?_, ?_⟩
  · exact hrep.nextwrite_eq.trans (index_succ _ _ _).symm
  · intro i hi
    exact (congrArg q.data (index_succ _ _ _)).trans
      (hrep.cells (i + 1) (by simpa using hi))

theorem Rep.qRemhead_nil (hrep : Rep q []) :
    Queue.qRemhead q = .panic .queueRemheadEmpty := by
  have hread := hrep.nextread_lt
  have hpos : 0 < q.size := by omega
  have hempty : q.qEmpty = true := hrep.qEmpty_iff.mpr rfl
  simp [Queue.qRemhead, bind, Prog.andThen, Prog.get, Prog.assert, hpos,
    hempty, Prog.ret, Prog.panic]

end Specs

end Queue

end OS161.Lib
