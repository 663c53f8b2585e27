import OS161.Dev.Lhd

namespace OS161.Dev.Lhd

open OS161.Data
open OS161.Kern
open OS161.Vfs

/-! The disk goes from thread to thread with `lh_clear`, and an operation's
result goes back to its thread with `lh_done`. -/

variable {s : LhdSoftc} {t u : Tid} {f : Frame}

open LhdSoftc

/-- Nothing is under way and nothing is reported. -/
structure Idle (s : LhdSoftc) : Prop where
  pending : s.pending = []
  done : s.lhDone = 0
  stat : ¬ Finished s.regStat

/-- What was moved is what the buffer begins with. -/
def Moved (s : LhdSoftc) (f : Frame) : Prop :=
  f.moved = s.lhBuf.slice 0 f.moved.length

/-- A write has its sector in the buffer. -/
def Loaded (s : LhdSoftc) (f : Frame) : Prop :=
  f.uioRw = .UIO_WRITE → f.moved = s.lhBuf.slice 0 LHD_SECTSIZE

/-- The thread's operation has ended, and its sector is in the buffer. -/
structure Ended (s : LhdSoftc) (t : Tid) (f : Frame) (c : Completion) : Prop where
  completed : s.completed f.op = some c
  operation : c.operation = f.operation t
  data : s.lhBuf = c.data
  loaded : Loaded s f

/-- How far the operation of a thread in `P(lh_done)` is. -/
inductive Underway (s : LhdSoftc) (t : Tid) (f : Frame) : Prop
  | working (hpending : s.pending = [f.operation t]) (hdone : s.lhDone = 0)
      (hstat : ¬ Finished s.regStat) (hfresh : s.completed f.op = none)
      (hloaded : Loaded s f)
  | ended (c : Completion) (hpending : s.pending = []) (hdone : s.lhDone = 0)
      (hstat : s.regStat = c.code) (hended : Ended s t f c)
  | reported (c : Completion) (hpending : s.pending = []) (hdone : s.lhDone = 1)
      (hstat : ¬ Finished s.regStat) (hresult : s.lhResult = lhdCodeToErrno c.code)
      (hended : Ended s t f c)

/-- Where the thread that has the disk stands. -/
def Stage (s : LhdSoftc) (t : Tid) (f : Frame) : Prop :=
  match f.point with
  | .returned => False
  | .turn => False
  | .filling => Idle s ∧ f.uioRw = .UIO_WRITE ∧ Moved s f
  | .fillFailed => Idle s
  | .wregSect => Idle s ∧ Loaded s f
  | .wregStat => Idle s ∧ Loaded s f ∧ s.regSect = (f.sector + f.i) % 2 ^ 32
  | .waiting => Underway s t f
  | .reading => Idle s ∧ ∃ c, Ended s t f c ∧ s.lhResult = lhdCodeToErrno c.code
  | .draining => Idle s ∧ f.uioRw = .UIO_READ ∧ f.status = none ∧ Moved s f ∧
      ∃ c, Ended s t f c ∧ f.status = lhdCodeToErrno c.code
  | .clearing => Idle s ∧ ∃ c, Receipt.Own s.completed (f.receipt t) c

section SetFrame

variable {g : Frame}

theorem Idle.setFrame (hidle : Idle s) : Idle (s.setFrame t f) :=
  ⟨hidle.pending, hidle.done, hidle.stat⟩

theorem Ended.setFrame (hended : Ended s u g c) : Ended (s.setFrame t f) u g c :=
  ⟨hended.completed, hended.operation, hended.data, hended.loaded⟩

theorem Underway.setFrame (hunderway : Underway s u g) : Underway (s.setFrame t f) u g := by
  cases hunderway with
  | working hpending hdone hstat hfresh hloaded =>
      exact .working hpending hdone hstat hfresh hloaded
  | ended c hpending hdone hstat hended => exact .ended c hpending hdone hstat hended.setFrame
  | reported c hpending hdone hstat hresult hended =>
      exact .reported c hpending hdone hstat hresult hended.setFrame

theorem Stage.setFrame (hstage : Stage s u g) : Stage (s.setFrame t f) u g := by
  rw [Stage] at hstage ⊢
  generalize g.point = p at hstage ⊢
  cases p with
  | returned => exact hstage
  | turn => exact hstage
  | filling => exact ⟨hstage.1.setFrame, hstage.2⟩
  | fillFailed => exact hstage.setFrame
  | wregSect => exact ⟨hstage.1.setFrame, hstage.2⟩
  | wregStat => exact ⟨hstage.1.setFrame, hstage.2⟩
  | waiting => exact hstage.setFrame
  | reading =>
      obtain ⟨hidle, c, hended, hresult⟩ := hstage
      exact ⟨hidle.setFrame, c, hended.setFrame, hresult⟩
  | draining =>
      obtain ⟨hidle, hread, hstatus, hmoved, c, hended, hresult⟩ := hstage
      exact ⟨hidle.setFrame, hread, hstatus, hmoved, c, hended.setFrame, hresult⟩
  | clearing => exact ⟨hstage.1.setFrame, hstage.2⟩

end SetFrame

/-- One thread has the disk, or nobody has. -/
inductive Turn (s : LhdSoftc) : Prop
  | free (hclear : s.lhClear = 1) (hidle : Idle s) (hnone : ∀ u, ¬ (s.frame u).point.Holds)
  | taken (t : Tid) (hclear : s.lhClear = 0) (hstage : Stage s t (s.frame t))
      (hothers : ∀ u, u ≠ t → ¬ (s.frame u).point.Holds)

/-- The operations are numbered as they start, and whoever let the disk go had
the result of its own. -/
structure Past (s : LhdSoftc) : Prop where
  fresh : ∀ n, s.started ≤ n → s.completed n = none
  pending : ∀ operation ∈ s.pending, operation.number < s.started
  received : ∀ r ∈ s.received, ∃ c, Receipt.Own s.completed r c

theorem Stage.holds (hstage : Stage s t f) : f.point.Holds := by
  cases hpoint : f.point <;> simp [Stage, hpoint, Point.Holds] at hstage ⊢

namespace Turn

variable {s' : LhdSoftc}

theorem taken_by (hturn : Turn s) (hholds : (s.frame t).point.Holds) :
    s.lhClear = 0 ∧ Stage s t (s.frame t) ∧ ∀ u, u ≠ t → ¬ (s.frame u).point.Holds := by
  cases hturn with
  | free hclear hidle hnone => exact absurd hholds (hnone t)
  | taken holder hclear hstage hothers =>
      by_cases ht : t = holder
      · subst ht
        exact ⟨hclear, hstage, hothers⟩
      · exact absurd hholds (hothers t ht)

/-- The thread that has the disk takes a step and keeps it. -/
theorem keep (hturn : Turn s) (hholds : (s.frame t).point.Holds)
    (hframe : s'.frame = Function.update s.frame t f) (hclear : s'.lhClear = s.lhClear)
    (hstep : Stage s t (s.frame t) → Stage s' t f) : Turn s' := by
  obtain ⟨hzero, hstage, hothers⟩ := hturn.taken_by hholds
  refine .taken t (hclear.trans hzero) ?_ ?_
  · rw [hframe, Function.update_self]
    exact hstep hstage
  · intro u hu
    rw [hframe, Function.update_of_ne hu]
    exact hothers u hu

/-- `V(lh_clear)` by the thread that has the disk. -/
theorem letGo (hturn : Turn s) (hholds : (s.frame t).point.Holds)
    (hframe : s'.frame = Function.update s.frame t f) (hclear : s'.lhClear = s.lhClear + 1)
    (hout : ¬ f.point.Holds) (hstep : Stage s t (s.frame t) → Idle s') : Turn s' := by
  obtain ⟨hzero, hstage, hothers⟩ := hturn.taken_by hholds
  refine .free (by rw [hclear, hzero]) (hstep hstage) ?_
  intro u
  rw [hframe]
  by_cases hu : u = t
  · subst hu
    rw [Function.update_self]
    exact hout
  · rw [Function.update_of_ne hu]
    exact hothers u hu

/-- `P(lh_clear)` comes back. -/
theorem take (hturn : Turn s) (hP : 0 < s.lhClear)
    (hframe : s'.frame = Function.update s.frame t f) (hclear : s'.lhClear = s.lhClear - 1)
    (hstep : Idle s → Stage s' t f) : Turn s' := by
  cases hturn with
  | taken holder hzero hstage hothers => omega
  | free hone hidle hnone =>
      refine .taken t (by rw [hclear, hone]) ?_ ?_
      · rw [hframe, Function.update_self]
        exact hstep hidle
      · intro u hu
        rw [hframe, Function.update_of_ne hu]
        exact hnone u

/-- A thread without the disk takes a step and is still without it. -/
theorem outside (hturn : Turn s) (hout : ¬ (s.frame t).point.Holds) (hout' : ¬ f.point.Holds) :
    Turn (s.setFrame t f) := by
  have hstill (u : Tid) (hu : ¬ (s.frame u).point.Holds) :
      ¬ ((s.setFrame t f).frame u).point.Holds := by
    rw [setFrame]
    by_cases hut : u = t
    · subst hut
      simpa using hout'
    · simpa [hut] using hu
  cases hturn with
  | free hclear hidle hnone => exact .free hclear hidle.setFrame fun u => hstill u (hnone u)
  | taken holder hclear hstage hothers =>
      have hne : holder ≠ t := by
        intro heq
        subst heq
        exact hout hstage.holds
      refine .taken holder hclear ?_ fun u hu => hstill u (hothers u hu)
      have hframe : (s.setFrame t f).frame holder = s.frame holder :=
        Function.update_of_ne hne _ _
      rw [hframe]
      exact hstage.setFrame

/-- The card and the interrupt handler move no thread. -/
theorem card (hturn : Turn s) (hframe : s'.frame = s.frame) (hclear : s'.lhClear = s.lhClear)
    (hidle : Idle s → Idle s') (hstage : ∀ t, Stage s t (s.frame t) → Stage s' t (s.frame t)) :
    Turn s' := by
  cases hturn with
  | free hone hidle' hnone =>
      refine .free (hclear.trans hone) (hidle hidle') ?_
      rw [hframe]
      exact hnone
  | taken holder hzero hstage' hothers =>
      refine .taken holder (hclear.trans hzero) ?_ ?_
      · rw [hframe]
        exact hstage holder hstage'
      · rw [hframe]
        exact hothers

end Turn

theorem slice_update (b : Bytes) (n : Nat) (x : Byte) :
    Bytes.slice (Function.update b n x) 0 (n + 1) = b.slice 0 n ++ [x] := by
  rw [← Bytes.slice_append]
  congr 1
  · apply Bytes.slice_congr
    intro k _ hk
    exact Function.update_of_ne (by omega) _ _
  · simp [Bytes.slice]

theorem slice_succ (b : Bytes) (n : Nat) : b.slice 0 (n + 1) = b.slice 0 n ++ [b n] := by
  rw [← Bytes.slice_append]
  simp [Bytes.slice]

theorem lhdIrq_of_not_finished (hstat : ¬ Finished s.regStat) : s.lhdIrq = s :=
  if_neg hstat

/-! The card and the interrupt handler. -/

theorem Stage.underway (hstage : Stage s t f) (hbusy : ¬ Idle s) : f.point = .waiting ∧ Underway s t f := by
  cases hpoint : f.point <;> simp only [Stage, hpoint] at hstage
  case waiting => exact ⟨rfl, hstage⟩
  case fillFailed => exact absurd hstage hbusy
  all_goals exact absurd hstage.1 hbusy

theorem Idle.lhdIrq (hidle : Idle s) : Idle s.lhdIrq := by
  rw [lhdIrq_of_not_finished hidle.stat]
  exact hidle

theorem Stage.lhdIrq (hstage : Stage s t f) : Stage s.lhdIrq t f := by
  by_cases hfinished : Finished s.regStat
  · obtain ⟨hpoint, hunderway⟩ := hstage.underway fun hidle => hidle.stat hfinished
    rw [Stage, hpoint, LhdSoftc.lhdIrq, if_pos hfinished]
    cases hunderway with
    | working hpending hdone hstat hfresh hloaded => exact absurd hfinished hstat
    | reported c hpending hdone hstat hresult hended => exact absurd hfinished hstat
    | ended c hpending hdone hstat hended =>
        refine .reported c hpending ?_ (show ¬ Finished 0 by decide) ?_
          ⟨hended.completed, hended.operation, hended.data, hended.loaded⟩
        · rw [lhdIodone, hdone]
        · rw [lhdIodone, hstat]
  · rw [lhdIrq_of_not_finished hfinished]
    exact hstage

theorem Stage.complete {operation : Operation} (hstage : Stage s t f)
    (hpending : operation ∈ s.pending) (code : Nat) (sectorData : Bytes) :
    Stage (s.complete operation code sectorData) t f := by
  have hbusy (hidle : Idle s) : False := by
    rw [hidle.pending] at hpending
    cases hpending
  obtain ⟨hpoint, hunderway⟩ := hstage.underway hbusy
  rw [Stage, hpoint]
  cases hunderway with
  | ended c hnone hdone hstat hended => simp [hnone] at hpending
  | reported c hnone hdone hstat hresult hended => simp [hnone] at hpending
  | working hone hdone hstat hfresh hloaded =>
      rw [hone, List.mem_singleton] at hpending
      subst hpending
      refine .ended ⟨f.operation t, code, _⟩ ?_ hdone rfl ⟨?_, rfl, rfl, ?_⟩
      · simp [LhdSoftc.complete, hone]
      · exact Function.update_self _ _ _
      · intro hwrite
        simp only [LhdSoftc.complete, Frame.operation, hwrite, beq_self_eq_true, if_true]
        exact hloaded hwrite

/-! The threads. -/

theorem lhdIo_out (dBlocks : Nat) (uioRw : UioRw) (uioOffset : Int) (uioResid : Nat)
    (hat : f.point = .returned) :
    ¬ (lhdIo dBlocks uioRw uioOffset uioResid f).point.Holds := by
  simp only [lhdIo]
  split
  · simp [hat, Point.Holds]
  · split
    · simp [hat, Point.Holds]
    · simp [Point.Holds]

theorem Step.turn {s' : LhdSoftc} (hstep : Step s s') (hturn : Turn s) (hpast : Past s) :
    Turn s' := by
  cases hstep with
  | call t hat uioRw uioOffset uioResid =>
      exact hturn.outside (by simp [hat, Point.Holds]) (lhdIo_out _ _ _ _ hat)
  | finish t hat hall => exact hturn.outside (by simp [hat, Point.Holds]) (by simp [Point.Holds])
  | clear t hat hmore hP =>
      refine hturn.take hP rfl rfl ?_
      intro hidle
      by_cases hwrite : (s.frame t).uioRw = .UIO_WRITE
      · simp only [Stage, hwrite, if_true]
        exact ⟨⟨hidle.pending, hidle.done, hidle.stat⟩, trivial, rfl⟩
      · simp only [Stage, hwrite, if_false]
        exact ⟨⟨hidle.pending, hidle.done, hidle.stat⟩, fun h => absurd h hwrite⟩
  | fillByte t hat hmore b =>
      refine hturn.keep (by simp [hat, Point.Holds]) rfl rfl ?_
      intro hstage
      simp only [Stage, hat] at hstage ⊢
      obtain ⟨hidle, hwrite, hmoved⟩ := hstage
      refine ⟨⟨hidle.pending, hidle.done, hidle.stat⟩, hwrite, ?_⟩
      simp only [Moved, List.length_append, List.length_singleton]
      exact (congrArg (· ++ [b]) hmoved).trans (slice_update _ _ _).symm
  | filled t hat hall =>
      refine hturn.keep (by simp [hat, Point.Holds]) rfl rfl ?_
      intro hstage
      simp only [Stage, hat] at hstage ⊢
      obtain ⟨hidle, hwrite, hmoved⟩ := hstage
      refine ⟨hidle.setFrame, fun _ => ?_⟩
      rw [Moved, hall] at hmoved
      exact hmoved
  | fillError t hat code =>
      refine hturn.keep (by simp [hat, Point.Holds]) rfl rfl ?_
      intro hstage
      simp only [Stage, hat] at hstage ⊢
      exact hstage.1.setFrame
  | fillFailed t hat =>
      refine hturn.letGo (by simp [hat, Point.Holds]) rfl rfl (by simp [Point.Holds]) ?_
      intro hstage
      simp only [Stage, hat] at hstage
      exact ⟨hstage.pending, hstage.done, hstage.stat⟩
  | wregSect t hat =>
      refine hturn.keep (by simp [hat, Point.Holds]) rfl rfl ?_
      intro hstage
      simp only [Stage, hat] at hstage ⊢
      exact ⟨⟨hstage.1.pending, hstage.1.done, hstage.1.stat⟩, hstage.2, rfl⟩
  | wregStat t hat =>
      refine hturn.keep (by simp [hat, Point.Holds]) rfl rfl ?_
      intro hstage
      simp only [Stage, hat] at hstage ⊢
      obtain ⟨hidle, hloaded, hsect⟩ := hstage
      refine .working ?_ hidle.done ?_ (hpast.fresh _ (Nat.le_refl _)) hloaded
      · simp only [LhdSoftc.wregStat, LhdSoftc.setFrame, hidle.pending, hsect, Frame.operation]
        cases (s.frame t).uioRw <;> rfl
      · simp only [LhdSoftc.wregStat, LhdSoftc.setFrame]
        cases (s.frame t).uioRw <;> decide
  | done t hat hP =>
      refine hturn.keep (by simp [hat, Point.Holds]) rfl rfl ?_
      intro hstage
      simp only [Stage, hat] at hstage ⊢
      cases hstage with
      | working hpending hdone hstat hfresh hloaded => omega
      | ended c hpending hdone hstat hended => omega
      | reported c hpending hdone hstat hresult hended =>
          refine ⟨⟨hpending, ?_, hstat⟩, c, ?_, hresult⟩
          · simp [awaited, goAt, LhdSoftc.setFrame, hdone]
          · exact ⟨hended.completed, hended.operation, hended.data, hended.loaded⟩
  | readResult t hat =>
      refine hturn.keep (by simp [hat, Point.Holds]) rfl rfl ?_
      intro hstage
      simp only [Stage, hat] at hstage
      obtain ⟨hidle, c, hended, hresult⟩ := hstage
      by_cases hdrains : s.lhResult = none ∧ (s.frame t).uioRw = .UIO_READ
      · simp only [Stage, hdrains.1, hdrains.2, and_self, if_true]
        refine ⟨hidle.setFrame, trivial, trivial, rfl, c, ?_, hdrains.1 ▸ hresult⟩
        refine ⟨hended.completed, ?_, hended.data, fun hwrite => by cases hwrite⟩
        rw [hended.operation, Frame.operation, Frame.operation, hdrains.2]
      · simp only [Stage, if_neg hdrains]
        refine ⟨hidle.setFrame, c, hended.completed, hended.operation, hresult, fun _ => rfl, ?_⟩
        intro hnone
        have hwrite : (s.frame t).uioRw = .UIO_WRITE := by
          cases hrw : (s.frame t).uioRw with
          | UIO_WRITE => rfl
          | UIO_READ => exact absurd ⟨hnone, hrw⟩ hdrains
        rw [← hended.data]
        exact hended.loaded hwrite
  | drainByte t hat hmore =>
      refine hturn.keep (by simp [hat, Point.Holds]) rfl rfl ?_
      intro hstage
      simp only [Stage, hat] at hstage ⊢
      obtain ⟨hidle, hread, hstatus, hmoved, c, hended, hresult⟩ := hstage
      refine ⟨hidle.setFrame, hread, hstatus, ?_, c, ?_, hresult⟩
      · simp only [Moved, List.length_append, List.length_singleton]
        exact (congrArg (· ++ [_]) hmoved).trans (slice_succ _ _).symm
      · refine ⟨hended.completed, hended.operation, hended.data, ?_⟩
        intro hwrite
        rw [hread] at hwrite
        cases hwrite
  | drained t hat hall =>
      refine hturn.keep (by simp [hat, Point.Holds]) rfl rfl ?_
      intro hstage
      simp only [Stage, hat] at hstage ⊢
      obtain ⟨hidle, hread, hstatus, hmoved, c, hended, hresult⟩ := hstage
      refine ⟨hidle.setFrame, c, hended.completed, hended.operation, hresult, ?_, fun _ => ?_⟩
      · exact fun hfailed => absurd hstatus hfailed
      · rw [Moved, hall, hended.data] at hmoved
        exact hmoved
  | drainError t hat code =>
      refine hturn.keep (by simp [hat, Point.Holds]) rfl rfl ?_
      intro hstage
      simp only [Stage, hat] at hstage ⊢
      obtain ⟨hidle, hread, hstatus, hmoved, c, hended, hresult⟩ := hstage
      refine ⟨hidle.setFrame, c, hended.completed, hended.operation, hresult, ?_, fun hnone => ?_⟩
      · exact fun hfailed => absurd hstatus hfailed
      · cases hnone
  | clearing t hat =>
      refine hturn.letGo (by simp [hat, Point.Holds]) rfl rfl ?_ ?_
      · split <;> simp [Point.Holds]
      · intro hstage
        simp only [Stage, hat] at hstage
        exact ⟨hstage.1.pending, hstage.1.done, hstage.1.stat⟩
  | complete operation hpending code sectorData =>
      refine hturn.card rfl rfl ?_ fun t hstage => hstage.complete hpending code sectorData
      intro hidle
      rw [hidle.pending] at hpending
      cases hpending
  | irq =>
      refine hturn.card ?_ ?_ Idle.lhdIrq fun t hstage => hstage.lhdIrq
      · rw [LhdSoftc.lhdIrq]
        split <;> rfl
      · rw [LhdSoftc.lhdIrq]
        split <;> rfl

/-! The records. -/

theorem Receipt.Own.mono {completed completed' : Nat → Option Completion} {r : Receipt}
    {c : Completion} (hown : Receipt.Own completed r c)
    (hkept : ∀ n c, completed n = some c → completed' n = some c) :
    Receipt.Own completed' r c :=
  ⟨hkept _ _ hown.completed, hown.operation, hown.status, hown.failed, hown.data⟩

/-- An operation that is pending has not ended. -/
theorem Turn.not_completed {operation : Operation} (hturn : Turn s)
    (hpending : operation ∈ s.pending) : s.completed operation.number = none := by
  have hbusy (hidle : Idle s) : False := by
    rw [hidle.pending] at hpending
    cases hpending
  cases hturn with
  | free hclear hidle hnone => exact (hbusy hidle).elim
  | taken t hclear hstage hothers =>
      obtain ⟨-, hunderway⟩ := hstage.underway hbusy
      cases hunderway with
      | ended c hnone hdone hstat hended => simp [hnone] at hpending
      | reported c hnone hdone hstat hresult hended => simp [hnone] at hpending
      | working hone hdone hstat hfresh hloaded =>
          rw [hone, List.mem_singleton] at hpending
          subst hpending
          exact hfresh

theorem Past.complete {operation : Operation} (hpast : Past s) (hturn : Turn s)
    (hpending : operation ∈ s.pending) (code : Nat) (sectorData : Bytes) :
    Past (s.complete operation code sectorData) := by
  have hnumber := hpast.pending operation hpending
  refine ⟨?_, ?_, ?_⟩
  · intro n hn
    have hne : n ≠ operation.number := by
      intro heq
      subst heq
      exact absurd hnumber (Nat.not_lt.mpr hn)
    exact (Function.update_of_ne hne _ _).trans (hpast.fresh n hn)
  · intro other hother
    exact hpast.pending other (List.mem_of_mem_erase hother)
  · intro r hr
    obtain ⟨c, hown⟩ := hpast.received r hr
    refine ⟨c, hown.mono ?_⟩
    intro n c' hc'
    have hne : n ≠ operation.number := by
      intro heq
      rw [heq, hturn.not_completed hpending] at hc'
      cases hc'
    exact (Function.update_of_ne hne _ _).trans hc'

theorem Step.past {s' : LhdSoftc} (hstep : Step s s') (hturn : Turn s) (hpast : Past s) :
    Past s' := by
  cases hstep with
  | wregStat t hat =>
      refine ⟨fun n hn => hpast.fresh n (Nat.le_of_succ_le hn), ?_, hpast.received⟩
      intro operation hoperation
      cases hoperation with
      | head => exact Nat.lt_succ_self _
      | tail _ hearlier => exact Nat.lt_succ_of_lt (hpast.pending _ hearlier)
  | clearing t hat =>
      refine ⟨hpast.fresh, hpast.pending, ?_⟩
      intro r hr
      rcases List.mem_append.mp hr with hearlier | hlast
      · exact hpast.received r hearlier
      · rw [List.mem_singleton] at hlast
        subst hlast
        obtain ⟨-, hstage, -⟩ := hturn.taken_by (show (s.frame t).point.Holds by simp [hat, Point.Holds])
        simp only [Stage, hat] at hstage
        exact hstage.2
  | complete operation hpending code sectorData =>
      exact hpast.complete hturn hpending code sectorData
  | irq =>
      rw [LhdSoftc.lhdIrq]
      split
      · exact ⟨hpast.fresh, hpast.pending, hpast.received⟩
      · exact hpast
  | _ => exact ⟨hpast.fresh, hpast.pending, hpast.received⟩

/-! Whole runs. -/

variable {dBlocks : Nat} {lhBuf : Bytes} {lhResult : Option Errno}

theorem Runs.turn (hrun : Runs (configLhd dBlocks lhBuf lhResult) s) : Turn s ∧ Past s := by
  refine invariant_of_steps (fun s => Turn s ∧ Past s) hrun ⟨?_, ?_⟩ ?_
  · exact .free rfl ⟨rfl, rfl, show ¬ Finished LHD_IDLE by decide⟩ fun _ hholds => hholds
  · refine ⟨fun _ _ => rfl, ?_, ?_⟩
    · intro operation hnone
      cases hnone
    · intro r hnone
      cases hnone
  · rintro before next ⟨hturn, hpast⟩ hstep
    exact ⟨hstep.turn hturn hpast, hstep.past hturn hpast⟩

end OS161.Dev.Lhd
