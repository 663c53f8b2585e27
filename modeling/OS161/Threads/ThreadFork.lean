import OS161.Threads.Levels
import OS161.Vfs.Vnode

namespace OS161.Threads

open OS161.Data
open OS161.Kern
open OS161.Lib

/-! `thread_fork` with the blocks that it takes from `kmalloc` and what it does when one of
them is refused. -/

/-- The tables that keep room for every thread. -/
inductive Table where
  | sleepers
  | zombies
  | runqueue
  deriving DecidableEq, Repr

/-- The calls of `kmalloc` in `thread_fork`. -/
inductive Site where
  | thread
  | name
  | stack
  | preallocate (table : Table)
  | insertion
  deriving DecidableEq, Repr

/-- What `kmalloc` answers at each of them when these blocks are in use; `none` is `NULL`. -/
abbrev Grants := Site → Finset Nat → Option Nat

/-- `kmalloc` hands out blocks that are not in use. -/
def Grants.Fresh (grants : Grants) : Prop :=
  ∀ site blocks addr, grants site blocks = some addr → addr ≠ 0 ∧ addr ∉ blocks

/-- The new thread gets its structure and its name. -/
def Grants.Creates (grants : Grants) (blocks : Finset Nat) : Prop :=
  ∃ thread name, grants .thread blocks = some thread ∧
    grants .name (insert thread blocks) = some name

/-- It gets its stack too, and the first of the tables gets its cells. -/
def Grants.Begins (grants : Grants) (blocks : Finset Nat) : Prop :=
  ∃ thread name stack cells, grants .thread blocks = some thread ∧
    grants .name (insert thread blocks) = some name ∧
    grants .stack (insert name (insert thread blocks)) = some stack ∧
    grants (.preallocate .sleepers) (insert stack (insert name (insert thread blocks))) =
      some cells

structure ForkState (σ : Type) where
  sys : ThreadSystem
  vfs : Vfs.VfsState σ
  /-- The blocks of `kmalloc` that are in use. -/
  blocks : Finset Nat
  tName : Tid → Nat
  tStack : Tid → Nat
  pid : Tid → Nat
  parentPid : Tid → Nat
  /-- The cells of each table: `v` of the arrays and `data` of the queue. -/
  vector : Table → Nat
  curspl : Nat
  /-- The calls of `kmalloc` that were refused.  Nothing in the source keeps them and no
  function here reads them. -/
  refused : List Site

namespace ForkState

variable {σ : Type}

abbrev Op (σ α : Type) := Prog Errno Fault (ForkState σ) α

def onSys (body : Threads.Op α) : Op σ α :=
  Prog.zoom sys (fun st s => { st with sys := s }) body

def onVfs (body : Vfs.Op σ α) : Op σ α :=
  Prog.zoom vfs (fun st v => { st with vfs := v }) body

def splx (newspl : Nat) : Op σ Nat := fun st =>
  .ok st.curspl { st with curspl := newspl }

def kmalloc (grants : Grants) (site : Site) : Op σ Nat := do
  let st ← Prog.get
  match grants site st.blocks with
  | none => do
      Prog.modify fun st => { st with refused := site :: st.refused }
      pure 0
  | some addr => do
      Prog.modify fun st => { st with blocks := insert addr st.blocks }
      pure addr

/-- `kfree` stops the kernel over a pointer that is not a block in use. -/
def kfree (addr : Nat) : Op σ Unit :=
  Prog.when (addr ≠ 0) (do
    let st ← Prog.get
    Prog.assert (addr ∈ st.blocks) .kernelFault
    Prog.modify fun st => { st with blocks := st.blocks.erase addr })

/-- The pointer to the new `struct thread`; `0` is `NULL`. -/
def threadCreate (grants : Grants) : Op σ Tid := do
  let thread ← kmalloc grants .thread
  if thread = 0 then pure 0
  else do
    let name ← kmalloc grants .name
    Prog.modify fun st => { st with tName := Function.update st.tName thread name }
    if name = 0 then do
      kfree thread
      pure 0
    else do
      onSys (ThreadSystem.threadCreate thread)
      Prog.modify fun st => { st with
        tStack := Function.update st.tStack thread 0
        pid := Function.update st.pid thread 0
        parentPid := Function.update st.parentPid thread 0 }
      pure thread

/-! The tables. -/

/-- A call that first asks for new cells, where it needs them. -/
def replacing (grants : Grants) (site : Site) (table : Table) (needed : Bool)
    (body : Bool → Threads.Op Unit) : Op σ Unit := do
  if needed = true then do
    let st ← Prog.get
    let newv ← kmalloc grants site
    onSys (body (newv ≠ 0))
    kfree (st.vector table)
    Prog.modify fun st => { st with vector := Function.update st.vector table newv }
  else onSys (body false)

end ForkState

/-- `array_preallocate` always asks for new cells, `q_preallocate` where it has too few. -/
def Table.needs (s : ThreadSystem) (n : Nat) : Table → Bool
  | .sleepers => true
  | .zombies => true
  | .runqueue => n > s.runqueue.size

def Table.preallocate (mem : Bool) (n : Nat) : Table → Threads.Op Unit
  | .sleepers => ThreadSystem.onSleepers (KArray.arrayPreallocate mem n)
  | .zombies => ThreadSystem.onZombies (KArray.arrayPreallocate mem n)
  | .runqueue => ThreadSystem.onRunqueue (Queue.qPreallocate mem n)

namespace ForkState

variable {σ : Type}

def preallocate (grants : Grants) (table : Table) (n : Nat) : Op σ Unit := do
  let st ← Prog.get
  replacing grants (.preallocate table) table (table.needs st.sys n) fun mem =>
    table.preallocate mem n

/-- The run queue has no cell to spare. -/
def full (q : Queue Tid) : Bool := (q.nextwrite + 1) % q.size = q.nextread

def schedulerPreallocate (grants : Grants) (nthreads : Nat) : Op σ Unit := do
  let st ← Prog.get
  Prog.assert (0 < st.curspl) .schedulerSpl
  preallocate grants .runqueue nthreads

def makeRunnable (grants : Grants) (t : Tid) : Op σ Unit := do
  let st ← Prog.get
  Prog.assert (0 < st.curspl) .schedulerSpl
  replacing grants .insertion .runqueue (full st.sys.runqueue) fun mem =>
    ThreadSystem.makeRunnable mem t

/-- What is done with interrupts off, up to the label `fail`. -/
def enroll (grants : Grants) (newguy : Tid) : Op σ Unit := do
  let st ← Prog.get
  let n := st.sys.numthreads
  preallocate grants .sleepers (n + 1)
  preallocate grants .zombies (n + 1)
  schedulerPreallocate grants (n + 1)
  makeRunnable grants newguy

variable (ops : Vfs.VnodeOps σ)

/-- Inherit the current directory. -/
def inheritCwd (cur newguy : Tid) : Op σ Unit := do
  let st ← Prog.get
  match (st.sys.thread cur).tCwd with
  | none => pure ()
  | some cwd => do
      onVfs (Vfs.vnodeIncref cwd)
      onSys (ThreadSystem.setThread newguy fun t => { t with tCwd := some cwd })

/-- The label `fail`. -/
def forkFail (newguy : Tid) (s : Nat) (result : Errno) : Op σ Tid := do
  let _ ← splx s
  let st ← Prog.get
  match (st.sys.thread newguy).tCwd with
  | none => pure ()
  | some cwd => onVfs (Vfs.vnodeDecref ops cwd)
  kfree (st.tStack newguy)
  kfree (st.tName newguy)
  kfree newguy
  Prog.fail result

def threadFork (grants : Grants) : Op σ Tid := do
  let newguy ← threadCreate grants
  let st ← Prog.get
  match st.sys.curthread with
  | none => Prog.panic .kernelFault
  | some cur => do
      -- The store through `newguy` stands before the test for `NULL`.
      Prog.assert (newguy ≠ 0) .kernelFault
      Prog.modify fun st => { st with
        parentPid := Function.update st.parentPid newguy (st.pid cur) }
      if newguy = 0 then Prog.fail .ENOMEM
      else do
        let stack ← kmalloc grants .stack
        Prog.modify fun st => { st with tStack := Function.update st.tStack newguy stack }
        if stack = 0 then do
          let st ← Prog.get
          kfree (st.tName newguy)
          kfree newguy
          Prog.fail .ENOMEM
        else do
          inheritCwd cur newguy
          let s ← splx SPL_HIGH
          match ← Prog.attempt (enroll grants newguy) with
          | .error result => forkFail ops newguy s result
          | .ok _ => do
              onSys (Prog.modify fun s => { s with numthreads := s.numthreads + 1 })
              let _ ← splx s
              pure newguy

/-! Allocation. -/

section Allocation

variable {grants : Grants} {st st' st'' mid : ForkState σ} {addr newv newguy : Nat}

theorem kmalloc_wp (hfresh : grants.Fresh) (site : Site) (st : ForkState σ) :
    (kmalloc grants site).wp
      (fun addr st' =>
        (addr = 0 ∧ grants site st.blocks = none ∧
          st' = { st with refused := site :: st.refused }) ∨
        (addr ≠ 0 ∧ addr ∉ st.blocks ∧ grants site st.blocks = some addr ∧
          st' = { st with blocks := insert addr st.blocks }))
      (fun _ _ => False) (fun _ => False) st := by
  simp only [kmalloc, ↓Prog.wp_bind, ↓Prog.wp_get]
  cases hgrant : grants site st.blocks with
  | none => exact .inl ⟨rfl, rfl, rfl⟩
  | some addr =>
      obtain ⟨hne, hnew⟩ := hfresh _ _ _ hgrant
      exact .inr ⟨hne, hnew, rfl, rfl⟩

theorem kfree_returns (hlive : addr ≠ 0 → addr ∈ st.blocks) :
    (kfree addr).Returns (fun _ st' => st' =
      { st with blocks := if addr = 0 then st.blocks else st.blocks.erase addr }) st := by
  simp only [kfree, ↓Prog.wp_when, ↓Prog.wp_bind, ↓Prog.wp_get, ↓Prog.wp_assert, ↓Prog.wp_modify]
  by_cases hzero : addr = 0
  · simp only [hzero, ne_eq, not_true_eq_false, if_false, if_true]
  · rw [if_pos hzero, if_pos (hlive hzero), if_neg hzero]

/-! Tables with new cells. -/

/-- The block is the cells of a table. -/
def Stores (st : ForkState σ) (addr : Nat) : Prop :=
  addr ≠ 0 ∧ ∃ table, st.vector table = addr

/-- A block in use that no table stores its threads in. -/
def Plain (st : ForkState σ) (addr : Nat) : Prop :=
  addr ∈ st.blocks ∧ ¬ st.Stores addr

structure Stored (st : ForkState σ) : Prop where
  live : ∀ addr, st.Stores addr → addr ∈ st.blocks
  apart : ∀ table table', st.vector table = st.vector table' → st.vector table ≠ 0 →
    table = table'

/-- Tables may have new cells in the place of their old ones. -/
structure Replaced (st st' : ForkState σ) : Prop where
  vfs : st'.vfs = st.vfs
  tName : st'.tName = st.tName
  tStack : st'.tStack = st.tStack
  pid : st'.pid = st.pid
  parentPid : st'.parentPid = st.parentPid
  curspl : st'.curspl = st.curspl
  plain : ∀ addr, st'.Plain addr ↔ st.Plain addr
  stored : Stored st'

theorem Replaced.refl (hstored : Stored st) : Replaced st st :=
  ⟨rfl, rfl, rfl, rfl, rfl, rfl, fun _ => Iff.rfl, hstored⟩

theorem Replaced.trans (hfirst : Replaced st st') (hsecond : Replaced st' st'') :
    Replaced st st'' where
  vfs := hsecond.vfs.trans hfirst.vfs
  tName := hsecond.tName.trans hfirst.tName
  tStack := hsecond.tStack.trans hfirst.tStack
  pid := hsecond.pid.trans hfirst.pid
  parentPid := hsecond.parentPid.trans hfirst.parentPid
  curspl := hsecond.curspl.trans hfirst.curspl
  plain addr := (hsecond.plain addr).trans (hfirst.plain addr)
  stored := hsecond.stored

/-- The cells of a table are exchanged for a block that was not in use. -/
def exchange (st : ForkState σ) (table : Table) (newv : Nat) (s : ThreadSystem) :
    ForkState σ :=
  { st with
    sys := s
    blocks := if st.vector table = 0 then insert newv st.blocks
      else (insert newv st.blocks).erase (st.vector table)
    vector := Function.update st.vector table newv }

theorem exchange_stores (hstored : Stored st) (table : Table) (hne : newv ≠ 0)
    (s : ThreadSystem) :
    (st.exchange table newv s).Stores addr ↔
      addr = newv ∨ st.Stores addr ∧ addr ≠ st.vector table := by
  constructor
  · rintro ⟨haddr, other, hother⟩
    by_cases hsame : other = table
    · subst hsame
      simp only [exchange, Function.update_self] at hother
      exact .inl hother.symm
    · simp only [exchange, Function.update_of_ne hsame] at hother
      refine .inr ⟨⟨haddr, other, hother⟩, ?_⟩
      intro hold
      exact hsame (hstored.apart other table (hother.trans hold) (by rwa [hother]))
  · rintro (rfl | ⟨⟨haddr, other, hother⟩, hold⟩)
    · exact ⟨hne, table, by simp [exchange]⟩
    · have hsame : other ≠ table := by
        rintro rfl
        exact hold hother.symm
      exact ⟨haddr, other, by simpa [exchange, hsame] using hother⟩

theorem mem_exchange (hne : newv ≠ 0) (hnew : newv ∉ st.blocks) (hstored : Stored st)
    (table : Table) (s : ThreadSystem) :
    addr ∈ (st.exchange table newv s).blocks ↔
      addr = newv ∨ addr ∈ st.blocks ∧ (addr = st.vector table → addr = 0) := by
  have hfar : st.vector table ≠ newv := by
    intro hsame
    exact hnew (hstored.live newv ⟨hne, table, hsame⟩)
  simp only [exchange]
  split
  case isTrue hzero =>
    rw [Finset.mem_insert, hzero]
    tauto
  case isFalse hsome =>
    rw [Finset.mem_erase, Finset.mem_insert]
    constructor
    · rintro ⟨hold, rfl | hmem⟩
      · exact .inl rfl
      · exact .inr ⟨hmem, fun h => absurd h hold⟩
    · rintro (rfl | ⟨hmem, hold⟩)
      · exact ⟨hfar.symm, .inl rfl⟩
      · refine ⟨?_, .inr hmem⟩
        intro hsame
        exact hsome (hsame.symm.trans (hold hsame))

theorem Stored.exchange (hstored : Stored st) (table : Table) (hne : newv ≠ 0)
    (hnew : newv ∉ st.blocks) (s : ThreadSystem) :
    Replaced st (st.exchange table newv s) where
  vfs := rfl
  tName := rfl
  tStack := rfl
  pid := rfl
  parentPid := rfl
  curspl := rfl
  plain addr := by
    rw [Plain, mem_exchange hne hnew hstored, exchange_stores hstored table hne, Plain]
    constructor
    · rintro ⟨rfl | ⟨hmem, hold⟩, hstores⟩
      · exact absurd (.inl rfl) hstores
      · refine ⟨hmem, fun hcells => hstores (.inr ⟨hcells, ?_⟩)⟩
        intro hsame
        exact hcells.1 (hold hsame)
    · rintro ⟨hmem, hstores⟩
      refine ⟨.inr ⟨hmem, ?_⟩, ?_⟩
      · rintro rfl
        by_contra hsome
        exact hstores ⟨hsome, table, rfl⟩
      · rintro (rfl | ⟨hcells, -⟩)
        · exact hnew hmem
        · exact hstores hcells
  stored := by
    constructor
    · intro addr hstores
      rw [exchange_stores hstored table hne] at hstores
      rw [mem_exchange hne hnew hstored]
      obtain rfl | ⟨hcells, hold⟩ := hstores
      · exact .inl rfl
      · exact .inr ⟨hstored.live addr hcells, fun h => absurd h hold⟩
    · have hfar (other : Table) : st.vector other ≠ newv := by
        intro hsame
        exact hnew (hstored.live newv ⟨hne, other, hsame⟩)
      intro first second hsame hsome
      simp only [ForkState.exchange, Function.update_apply] at hsame hsome
      split at hsame <;> split at hsame
      · exact (‹first = table›).trans (‹second = table›).symm
      · exact absurd hsame.symm (hfar second)
      · exact absurd hsame (hfar first)
      · refine hstored.apart first second hsame ?_
        simpa [‹first ≠ table›] using hsome

theorem replacing_wp (hfresh : grants.Fresh) (hstored : Stored st) {needed : Bool}
    {body : Bool → Threads.Op Unit} (done : ThreadSystem → Prop) (site : Site) (table : Table)
    (hgrown : (body true).Returns (fun _ s => done s) st.sys)
    (hrefused : needed = true → body false st.sys = .error .ENOMEM st.sys)
    (hspared : needed = false → (body false).Returns (fun _ s => done s) st.sys) :
    (replacing grants site table needed body).wp
      (fun _ st' => done st'.sys ∧ Replaced st st' ∧ st'.refused = st.refused ∧
        (needed = true → grants site st.blocks ≠ none ∧ st'.vector table ≠ 0 ∧
          st'.vector table ∉ st.blocks) ∧
        ∀ other, other ≠ table → st'.vector other = st.vector other)
      (fun _ st' => st' = { st with refused := site :: st.refused } ∧
        grants site st.blocks = none)
      (fun _ => False) st := by
  simp only [replacing, ↓Prog.wp_ite, onSys, ↓Prog.wp_zoom]
  split
  case isFalse hskip =>
    refine Prog.wp_mono (hspared (by simpa using hskip)) ?_ (fun _ _ h => h.elim) (fun _ h => h)
    intro _ s hdone
    refine ⟨hdone, ⟨rfl, rfl, rfl, rfl, rfl, rfl, fun _ => Iff.rfl, ?_⟩, trivial, ?_,
      fun _ _ => trivial⟩
    · exact ⟨hstored.live, hstored.apart⟩
    · exact fun hneeded => absurd hneeded hskip
  case isTrue hneeded =>
    simp only [↓Prog.wp_bind, ↓Prog.wp_get]
    refine Prog.wp_mono (kmalloc_wp hfresh site st) ?_ (fun _ _ h => h.elim) (fun _ h => h)
    rintro newv _ (⟨rfl, hnone, rfl⟩ | ⟨hne, hnew, hsome, rfl⟩)
    · simp only [ne_eq, not_true_eq_false, decide_false, ↓Prog.wp_zoom, Prog.wp,
        hrefused hneeded]
      exact ⟨rfl, hnone⟩
    · simp only [ne_eq, hne, not_false_eq_true, decide_true, ↓Prog.wp_zoom]
      refine Prog.wp_mono hgrown ?_ (fun _ _ h => h.elim) (fun _ h => h)
      intro _ s hdone
      refine Prog.wp_mono (kfree_returns ?_) ?_ (fun _ _ h => h.elim) (fun _ h => h)
      · intro hold
        exact Finset.mem_insert_of_mem (hstored.live _ ⟨hold, table, rfl⟩)
      · rintro _ _ rfl
        refine ⟨hdone, hstored.exchange table hne hnew s, rfl, ?_, ?_⟩
        · intro _
          change _ ∧ Function.update st.vector table newv table ≠ 0 ∧
            Function.update st.vector table newv table ∉ st.blocks
          rw [hsome, Function.update_self]
          exact ⟨Option.some_ne_none newv, hne, hnew⟩
        · intro other hother
          exact Function.update_of_ne hother _ _

end Allocation

end ForkState

/-- The same threads in these lists; how many cells a list has is left open. -/
structure SameThreads (ready asleep dead : List Tid) (s s' : ThreadSystem) : Prop where
  lists : ThreadSystem.Lists s' ready asleep dead
  thread : s'.thread = s.thread
  curthread : s'.curthread = s.curthread
  numthreads : s'.numthreads = s.numthreads

theorem SameThreads.trans (hfirst : SameThreads ready asleep dead s mid)
    (hsecond : SameThreads ready' asleep' dead' mid s') :
    SameThreads ready' asleep' dead' s s' where
  lists := hsecond.lists
  thread := hsecond.thread.trans hfirst.thread
  curthread := hsecond.curthread.trans hfirst.curthread
  numthreads := hsecond.numthreads.trans hfirst.numthreads

namespace Table

open ThreadSystem

variable {s : ThreadSystem} {ready asleep dead : List Tid}

theorem preallocate_returns (hlists : Lists s ready asleep dead) (n : Nat) (table : Table) :
    (table.preallocate true n).Returns
      (fun _ s' => SameThreads ready asleep dead s s') s := by
  cases table with
  | sleepers =>
      simp only [preallocate, onSleepers, ↓Prog.wp_zoom]
      refine Prog.Returns.mono (hlists.sleepers.arrayPreallocate n) ?_
      rintro _ a ⟨ha, -⟩
      exact ⟨⟨hlists.runqueue, ha, hlists.zombies⟩, rfl, rfl, rfl⟩
  | zombies =>
      simp only [preallocate, onZombies, ↓Prog.wp_zoom]
      refine Prog.Returns.mono (hlists.zombies.arrayPreallocate n) ?_
      rintro _ a ⟨ha, -⟩
      exact ⟨⟨hlists.runqueue, hlists.sleepers, ha⟩, rfl, rfl, rfl⟩
  | runqueue =>
      simp only [preallocate, onRunqueue, ↓Prog.wp_zoom]
      refine Prog.Returns.mono (hlists.runqueue.qPreallocate n) ?_
      rintro _ q ⟨hq, -⟩
      exact ⟨⟨hq, hlists.sleepers, hlists.zombies⟩, rfl, rfl, rfl⟩

/-- A table that is refused its cells stays as it is. -/
theorem preallocate_refused (hlists : Lists s ready asleep dead) {n : Nat} {table : Table}
    (hneeds : table.needs s n = true) : table.preallocate false n s = .error .ENOMEM s := by
  cases table with
  | sleepers =>
      simp [preallocate, onSleepers, Prog.zoom, KArray.arrayPreallocate, bind, Prog.andThen,
        Prog.get, Prog.assert, hlists.sleepers.num_le_max, Prog.ret, Prog.fail]
  | zombies =>
      simp [preallocate, onZombies, Prog.zoom, KArray.arrayPreallocate, bind, Prog.andThen,
        Prog.get, Prog.assert, hlists.zombies.num_le_max, Prog.ret, Prog.fail]
  | runqueue =>
      have hmore : n > s.runqueue.size := by simpa [needs] using hneeds
      have hread := hlists.runqueue.nextread_lt
      have hgrown := Queue.le_growSize n n s.runqueue.size
      simp [preallocate, onRunqueue, Prog.zoom, Queue.qPreallocate, Queue.qGrow, bind,
        Prog.andThen, Prog.get, Prog.assert, hmore, show 0 < s.runqueue.size by omega,
        show 0 < Queue.growSize n n s.runqueue.size by omega, Prog.ret, Prog.fail]

theorem preallocate_spared (hlists : Lists s ready asleep dead) {n : Nat} {table : Table}
    (hneeds : table.needs s n = false) :
    (table.preallocate false n).Returns (fun _ s' => SameThreads ready asleep dead s s') s := by
  cases table with
  | sleepers => cases hneeds
  | zombies => cases hneeds
  | runqueue =>
      have hroom : ¬ n > s.runqueue.size := by simpa [needs] using hneeds
      have hread := hlists.runqueue.nextread_lt
      simp only [preallocate, onRunqueue, Queue.qPreallocate, ↓Prog.wp_zoom, ↓Prog.wp_bind,
        ↓Prog.wp_get, ↓Prog.wp_assert, ↓Prog.wp_ite, ↓Prog.wp_pure]
      rw [if_pos (by omega), if_neg hroom]
      exact ⟨hlists, rfl, rfl, rfl⟩

end Table

namespace ForkState

variable {σ : Type}

section Enroll

open ThreadSystem

variable {grants : Grants} {st st' mid : ForkState σ} {ready asleep dead : List Tid}
variable {s : ThreadSystem}

/-- What the calls for room leave, and whether the first of them got its cells. -/
structure Roomed (ready asleep dead : List Tid) (grown : Prop) (st st' : ForkState σ) : Prop where
  same : SameThreads ready asleep dead st.sys st'.sys
  replaced : Replaced st st'
  fresh : grown → st'.vector .sleepers ≠ 0 ∧ st'.vector .sleepers ∉ st.blocks
  old : ¬ grown → st'.vector = st.vector

theorem Roomed.refuse (h : Roomed ready asleep dead grown st mid) (site : Site) :
    Roomed ready asleep dead grown st { mid with refused := site :: mid.refused } where
  same := ⟨h.same.lists, h.same.thread, h.same.curthread, h.same.numthreads⟩
  replaced := h.replaced.trans ⟨rfl, rfl, rfl, rfl, rfl, rfl, fun _ => Iff.rfl,
    ⟨h.replaced.stored.live, h.replaced.stored.apart⟩⟩
  fresh := h.fresh
  old := h.old

theorem Roomed.more (h : Roomed ready asleep dead grown st mid) (hgrown : grown)
    (hsame : SameThreads ready asleep dead mid.sys st'.sys) (hreplaced : Replaced mid st')
    (hvector : st'.vector .sleepers = mid.vector .sleepers) :
    Roomed ready asleep dead grown st st' where
  same := h.same.trans hsame
  replaced := h.replaced.trans hreplaced
  fresh hgrown := hvector ▸ h.fresh hgrown
  old hnot := absurd hgrown hnot

theorem preallocate_wp (hfresh : grants.Fresh) (hstored : Stored st)
    (hlists : Lists st.sys ready asleep dead) (table : Table) (n : Nat) :
    (preallocate grants table n).wp
      (fun _ st' => SameThreads ready asleep dead st.sys st'.sys ∧ Replaced st st' ∧
        st'.refused = st.refused ∧
        (table.needs st.sys n = true →
          grants (.preallocate table) st.blocks ≠ none ∧ st'.vector table ≠ 0 ∧
            st'.vector table ∉ st.blocks) ∧
        ∀ other, other ≠ table → st'.vector other = st.vector other)
      (fun _ st' => st' = { st with refused := .preallocate table :: st.refused } ∧
        grants (.preallocate table) st.blocks = none)
      (fun _ => False) st := by
  simp only [preallocate, ↓Prog.wp_bind, ↓Prog.wp_get]
  exact replacing_wp hfresh hstored _ (.preallocate table) table
    (table.preallocate_returns hlists n) (fun hneeds => table.preallocate_refused hlists hneeds)
    fun hneeds => table.preallocate_spared hlists hneeds

theorem makeRunnable_refused (hlists : Lists s ready asleep dead) (t : Tid)
    (hfull : full s.runqueue = true) :
    ThreadSystem.makeRunnable false t s = .error .ENOMEM s := by
  have hread := hlists.runqueue.nextread_lt
  have hgrown := Queue.le_growSize (s.runqueue.size + 1) (s.runqueue.size + 1) s.runqueue.size
  have hnext : (s.runqueue.nextwrite + 1) % s.runqueue.size = s.runqueue.nextread := by
    simpa [full] using hfull
  simp [ThreadSystem.makeRunnable, onRunqueue, Prog.zoom, Queue.qAddtail, Queue.qGrow, bind,
    Prog.andThen, Prog.get, Prog.assert, hnext, show 0 < s.runqueue.size by omega,
    show 0 < Queue.growSize (s.runqueue.size + 1) (s.runqueue.size + 1) s.runqueue.size by omega,
    Prog.ret, Prog.fail]

theorem makeRunnable_spared (t : Tid) (hfull : full s.runqueue = false) :
    ThreadSystem.makeRunnable false t s = ThreadSystem.makeRunnable true t s := by
  have hnext : ¬ (s.runqueue.nextwrite + 1) % s.runqueue.size = s.runqueue.nextread := by
    simpa [full] using hfull
  simp [ThreadSystem.makeRunnable, onRunqueue, Prog.zoom, Queue.qAddtail, bind, Prog.andThen,
    Prog.get, hnext]

theorem makeRunnable_wp (hfresh : grants.Fresh) (hstored : Stored st)
    (hlists : Lists st.sys ready asleep dead) (hspl : 0 < st.curspl) (t : Tid) :
    (makeRunnable grants t).wp
      (fun _ st' => SameThreads (ready ++ [t]) asleep dead st.sys st'.sys ∧ Replaced st st' ∧
        st'.refused = st.refused)
      (fun _ st' => st' = { st with refused := .insertion :: st.refused })
      (fun _ => False) st := by
  have hmade : (ThreadSystem.makeRunnable true t).Returns
      (fun _ s => SameThreads (ready ++ [t]) asleep dead st.sys s) st.sys := by
    refine Prog.Returns.mono (hlists.makeRunnable t) ?_
    rintro _ s ⟨hnext, heq⟩
    exact ⟨hnext, by rw [heq], by rw [heq], by rw [heq]⟩
  simp only [makeRunnable, ↓Prog.wp_bind, ↓Prog.wp_get, ↓Prog.wp_assert, if_pos hspl]
  refine Prog.wp_mono (replacing_wp hfresh hstored _ .insertion .runqueue hmade
    (makeRunnable_refused hlists t) ?_) ?_ ?_ (fun _ h => h)
  · intro hroom
    rwa [Prog.Returns, Prog.wp, makeRunnable_spared t hroom]
  · rintro _ st' ⟨hsame, hreplaced, hrefused, -⟩
    exact ⟨hsame, hreplaced, hrefused⟩
  · rintro _ st' ⟨hst, -⟩
    exact hst

/-- Where a later call is refused, an earlier table keeps its new cells. -/
theorem enroll_wp (hfresh : grants.Fresh) (hstored : Stored st)
    (hlists : Lists st.sys ready asleep dead) (hspl : 0 < st.curspl) (newguy : Tid) :
    (enroll grants newguy).wp
      (fun _ st' => SameThreads (ready ++ [newguy]) asleep dead st.sys st'.sys ∧
        Replaced st st' ∧ st'.refused = st.refused)
      (fun _ st' => Roomed ready asleep dead
        (grants (.preallocate .sleepers) st.blocks ≠ none) st st')
      (fun _ => False) st := by
  simp only [enroll, ↓Prog.wp_bind, ↓Prog.wp_get]
  refine Prog.wp_mono (preallocate_wp hfresh hstored hlists .sleepers _) ?_ ?_ (fun _ h => h)
  case refine_2 =>
    rintro _ _ ⟨rfl, hnone⟩
    exact ⟨⟨hlists, rfl, rfl, rfl⟩, ⟨rfl, rfl, rfl, rfl, rfl, rfl, fun _ => Iff.rfl,
      ⟨hstored.live, hstored.apart⟩⟩, fun hgrown => absurd hnone hgrown, fun _ => rfl⟩
  rintro _ first ⟨hsame, hreplaced, hrefused, hnew, -⟩
  obtain ⟨hgrown, hsleepers⟩ := hnew rfl
  have hfirst : Roomed ready asleep dead (grants (.preallocate .sleepers) st.blocks ≠ none)
      st first := ⟨hsame, hreplaced, fun _ => hsleepers, fun hnot => absurd hgrown hnot⟩
  refine Prog.wp_mono (preallocate_wp hfresh hreplaced.stored hsame.lists .zombies _) ?_ ?_
    (fun _ h => h)
  case refine_2 =>
    rintro _ _ ⟨rfl, -⟩
    exact hfirst.refuse _
  rintro _ second ⟨hsame, hreplaced, hrefused', -, hothers⟩
  have hsecond := hfirst.more hgrown hsame hreplaced (hothers .sleepers (by decide))
  have hspl' : 0 < second.curspl := by rwa [hsecond.replaced.curspl]
  simp only [schedulerPreallocate, ↓Prog.wp_bind, ↓Prog.wp_get, ↓Prog.wp_assert, if_pos hspl']
  refine Prog.wp_mono (preallocate_wp hfresh hreplaced.stored hsame.lists .runqueue _) ?_ ?_
    (fun _ h => h)
  case refine_2 =>
    rintro _ _ ⟨rfl, -⟩
    exact hsecond.refuse _
  rintro _ third ⟨hsame, hreplaced, hrefused'', -, hothers⟩
  have hthird := hsecond.more hgrown hsame hreplaced (hothers .sleepers (by decide))
  have hspl'' : 0 < third.curspl := by rwa [hthird.replaced.curspl]
  refine Prog.wp_mono (makeRunnable_wp hfresh hreplaced.stored hsame.lists hspl'' newguy) ?_ ?_
    (fun _ h => h)
  · rintro _ last ⟨hadded, hreplaced, hlast⟩
    exact ⟨hthird.same.trans hadded, hthird.replaced.trans hreplaced,
      hlast.trans (hrefused''.trans (hrefused'.trans hrefused))⟩
  · rintro _ _ rfl
    exact hthird.refuse _

end Enroll

end ForkState

end OS161.Threads
