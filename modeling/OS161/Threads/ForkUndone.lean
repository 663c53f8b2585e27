import Mathlib.Data.Finset.Lattice.Fold
import Mathlib.Order.Lattice.Nat
import OS161.Threads.ThreadFork
import OS161.Vfs.References

namespace OS161.Threads

open OS161.Data
open OS161.Kern
open OS161.Lib

/-! What a `thread_fork` that fails gives back. -/

namespace ForkState

variable {σ : Type}

open ThreadSystem

variable {grants : Grants} {st st' mid : ForkState σ} {ready asleep dead : List Tid}
variable {addr newguy name stack cur : Nat} {own : Finset Nat}

/-- `own` are the blocks that the call has taken and not given back. -/
structure Holding (ready asleep dead : List Tid) (newguy : Tid) (own : Finset Nat)
    (st st' : ForkState σ) : Prop where
  lists : Lists st'.sys ready asleep dead
  curthread : st'.sys.curthread = st.sys.curthread
  numthreads : st'.sys.numthreads = st.sys.numthreads
  threads : ∀ t, t ≠ newguy → st'.sys.thread t = st.sys.thread t ∧ st'.tName t = st.tName t ∧
    st'.tStack t = st.tStack t ∧ st'.pid t = st.pid t ∧ st'.parentPid t = st.parentPid t
  plain : ∀ addr, st'.Plain addr ↔ st.Plain addr ∨ addr ∈ own
  apart : ∀ addr ∈ own, addr ≠ 0 ∧ ¬ st.Plain addr
  stored : Stored st'

theorem Holding.take (h : Holding ready asleep dead newguy own st mid) (hne : addr ≠ 0)
    (hnew : addr ∉ mid.blocks) :
    Holding ready asleep dead newguy (insert addr own) st
      { mid with blocks := insert addr mid.blocks } where
  lists := h.lists
  curthread := h.curthread
  numthreads := h.numthreads
  threads := h.threads
  plain addr' := by
    have hcells : ¬ mid.Stores addr := fun hcells => hnew (h.stored.live addr hcells)
    have hplain := h.plain addr'
    change addr' ∈ insert addr mid.blocks ∧ ¬ mid.Stores addr' ↔ _
    rw [Finset.mem_insert, Finset.mem_insert]
    constructor
    · rintro ⟨rfl | hmem, hother⟩
      · exact .inr (.inl rfl)
      · exact (hplain.mp ⟨hmem, hother⟩).imp_right .inr
    · rintro (hold | rfl | hmine)
      · obtain ⟨hmem, hother⟩ := hplain.mpr (.inl hold)
        exact ⟨.inr hmem, hother⟩
      · exact ⟨.inl rfl, hcells⟩
      · obtain ⟨hmem, hother⟩ := hplain.mpr (.inr hmine)
        exact ⟨.inr hmem, hother⟩
  apart addr' hmine := by
    obtain rfl | hmine := Finset.mem_insert.mp hmine
    · exact ⟨hne, fun hold => hnew ((h.plain addr').mpr (.inl hold)).1⟩
    · exact h.apart addr' hmine
  stored := ⟨fun addr' hcells => Finset.mem_insert_of_mem (h.stored.live addr' hcells),
    h.stored.apart⟩

theorem Holding.giveBack (h : Holding ready asleep dead newguy own st mid)
    (hmine : addr ∈ own) :
    (kfree addr).Returns (fun _ st' => st' = { mid with blocks := mid.blocks.erase addr } ∧
      Holding ready asleep dead newguy (own.erase addr) st st') mid := by
  obtain ⟨hne, hapart⟩ := h.apart addr hmine
  obtain ⟨hmem, hother⟩ := (h.plain addr).mpr (.inr hmine)
  refine Prog.Returns.mono (kfree_returns fun _ => hmem) ?_
  rintro _ _ rfl
  rw [if_neg hne]
  refine ⟨rfl, h.lists, h.curthread, h.numthreads, h.threads, ?_, ?_, ?_, h.stored.apart⟩
  · intro addr'
    have hplain := h.plain addr'
    change addr' ∈ mid.blocks.erase addr ∧ ¬ mid.Stores addr' ↔ _
    rw [Finset.mem_erase, Finset.mem_erase]
    constructor
    · rintro ⟨⟨hdiff, hmem'⟩, hother'⟩
      exact (hplain.mp ⟨hmem', hother'⟩).imp_right fun hmine' => ⟨hdiff, hmine'⟩
    · rintro (hold | ⟨hdiff, hmine'⟩)
      · obtain ⟨hmem', hother'⟩ := hplain.mpr (.inl hold)
        refine ⟨⟨?_, hmem'⟩, hother'⟩
        rintro rfl
        exact hapart hold
      · obtain ⟨hmem', hother'⟩ := hplain.mpr (.inr hmine')
        exact ⟨⟨hdiff, hmem'⟩, hother'⟩
  · exact fun addr' hmine' => h.apart addr' (Finset.mem_of_mem_erase hmine')
  · intro addr' hcells
    refine Finset.mem_erase.mpr ⟨?_, h.stored.live addr' hcells⟩
    rintro rfl
    exact hother hcells

theorem Holding.replaced (h : Holding ready asleep dead newguy own st mid)
    (hsame : SameThreads ready asleep dead mid.sys st'.sys) (hreplaced : Replaced mid st') :
    Holding ready asleep dead newguy own st st' where
  lists := hsame.lists
  curthread := hsame.curthread.trans h.curthread
  numthreads := hsame.numthreads.trans h.numthreads
  threads t ht := by
    rw [hsame.thread, hreplaced.tName, hreplaced.tStack, hreplaced.pid, hreplaced.parentPid]
    exact h.threads t ht
  plain addr := (hreplaced.plain addr).trans (h.plain addr)
  apart := h.apart
  stored := hreplaced.stored

/-- The reference to the directory that the new thread inherits. -/
def shared (vfs : Vfs.VfsState σ) : Option Nat → Vfs.VfsState σ
  | none => vfs
  | some cwd =>
      { vfs with vnRefcount := Function.update vfs.vnRefcount cwd (vfs.vnRefcount cwd + 1) }

theorem vnodeDecref_shared (ops : Vfs.VnodeOps σ) {vfs : Vfs.VfsState σ} {cwd : Nat}
    (href : 0 < vfs.vnRefcount cwd) :
    (Vfs.vnodeDecref ops cwd).Returns (fun _ vfs' => vfs' = vfs) (shared vfs (some cwd)) := by
  simp only [Vfs.vnodeDecref, shared, Vfs.setRefcount, ↓Prog.wp_bind, ↓Prog.wp_get,
    ↓Prog.wp_assert, ↓Prog.wp_ite, ↓Prog.wp_modify, Function.update_self, Nat.add_sub_cancel,
    Function.update_idem, Function.update_eq_self]
  rw [if_pos (by omega), if_pos (by omega)]
  exact trivial

/-- The new thread as it stands before the call asks the tables for room. -/
structure Prepared (ready asleep dead : List Tid) (newguy : Tid) (name stack : Nat)
    (cwd : Option Nat) (st st' : ForkState σ) : Prop where
  holding : Holding ready asleep dead newguy {stack, name, newguy} st st'
  tName : st'.tName newguy = name
  tStack : st'.tStack newguy = stack
  tCwd : (st'.sys.thread newguy).tCwd = cwd
  vfs : st'.vfs = shared st.vfs cwd

theorem wp_splx {post : Nat → ForkState σ → Prop} {fails : Errno → ForkState σ → Prop}
    {bad : Fault → Prop} (newspl : Nat) :
    (splx newspl).wp post fails bad st ↔ post st.curspl { st with curspl := newspl } :=
  Iff.rfl

theorem Holding.set (h : Holding ready asleep dead newguy own st mid) (vfs : Vfs.VfsState σ)
    (curspl : Nat) : Holding ready asleep dead newguy own st
      { mid with vfs := vfs, curspl := curspl } :=
  ⟨h.lists, h.curthread, h.numthreads, h.threads, h.plain, h.apart, h.stored.live, h.stored.apart⟩

/-- What the failed call leaves. -/
structure Undone (st st' : ForkState σ) : Prop where
  curthread : st'.sys.curthread = st.sys.curthread
  numthreads : st'.sys.numthreads = st.sys.numthreads
  runqueue : st'.sys.runqueue.contents = st.sys.runqueue.contents
  sleepers : st'.sys.sleepers.contents = st.sys.sleepers.contents
  zombies : st'.sys.zombies.contents = st.sys.zombies.contents
  vfs : st'.vfs = st.vfs
  curspl : st'.curspl = st.curspl
  threads : ∀ t ∈ st.blocks, st'.sys.thread t = st.sys.thread t ∧ st'.tName t = st.tName t ∧
    st'.tStack t = st.tStack t ∧ st'.pid t = st.pid t ∧ st'.parentPid t = st.parentPid t
  freed : ∀ addr, st'.Plain addr ↔ st.Plain addr
  stored : Stored st'

theorem Holding.undone (h : Holding ready asleep dead newguy ∅ st st')
    (hlists : Lists st.sys ready asleep dead) (hnew : newguy ∉ st.blocks)
    (hvfs : st'.vfs = st.vfs) (hcurspl : st'.curspl = st.curspl) : Undone st st' where
  curthread := h.curthread
  numthreads := h.numthreads
  runqueue := h.lists.runqueue.contents_eq.trans hlists.runqueue.contents_eq.symm
  sleepers := h.lists.sleepers.contents_eq.trans hlists.sleepers.contents_eq.symm
  zombies := h.lists.zombies.contents_eq.trans hlists.zombies.contents_eq.symm
  vfs := hvfs
  curspl := hcurspl
  threads t ht := h.threads t fun heq => hnew (heq ▸ ht)
  freed addr := (h.plain addr).trans (or_iff_left (Finset.notMem_empty addr))
  stored := h.stored

theorem Holding.giveBackNew (h : Holding ready asleep dead newguy {name, newguy} st mid)
    (hname : name ≠ newguy) :
    (do kfree name; kfree newguy : Op σ Unit).Returns (fun _ st' =>
      st' = { mid with blocks := (mid.blocks.erase name).erase newguy } ∧
        Holding ready asleep dead newguy ∅ st st') mid := by
  simp only [↓Prog.wp_bind]
  refine Prog.wp_mono (h.giveBack (by simp)) ?_ (fun _ _ h => h) (fun _ h => h)
  rintro _ _ ⟨rfl, hfirst⟩
  rw [Finset.erase_insert (by simpa using hname)] at hfirst
  refine Prog.Returns.mono (hfirst.giveBack (by simp)) ?_
  rintro _ _ ⟨rfl, hsecond⟩
  rw [Finset.erase_singleton] at hsecond
  exact ⟨rfl, hsecond⟩

theorem Prepared.forkFail (h : Prepared ready asleep dead newguy name stack cwd st mid)
    (ops : Vfs.VnodeOps σ) (hlists : Lists st.sys ready asleep dead) (hnew : newguy ∉ st.blocks)
    (href : ∀ vn, cwd = some vn → 0 < st.vfs.vnRefcount vn) (hname : name ≠ newguy)
    (hstack : stack ∉ ({name, newguy} : Finset Nat)) (result : Errno) :
    (ForkState.forkFail ops newguy st.curspl result).wp (fun _ _ => False)
      (fun _ st' => Undone st st' ∧ st'.vector = mid.vector) (fun _ => False) mid := by
  have hfreed (vfs : Vfs.VfsState σ) (hvfs : vfs = st.vfs) :
      (do
        kfree (mid.tStack newguy)
        kfree (mid.tName newguy)
        kfree newguy
        Prog.fail result : Op σ Tid).wp (fun _ _ => False)
        (fun _ st' => Undone st st' ∧ st'.vector = mid.vector) (fun _ => False)
        { mid with vfs := vfs, curspl := st.curspl } := by
    rw [h.tStack, h.tName]
    simp only [↓Prog.wp_bind]
    refine Prog.wp_mono ((h.holding.set vfs st.curspl).giveBack (by simp)) ?_
      (fun _ _ h => h.elim) (fun _ h => h)
    rintro _ _ ⟨rfl, hfirst⟩
    rw [Finset.erase_insert hstack] at hfirst
    have hrest := hfirst.giveBackNew hname
    simp only [↓Prog.wp_bind] at hrest
    refine Prog.wp_mono hrest ?_ (fun _ _ h => h.elim) (fun _ h => h)
    intro _ _ hsecond
    refine Prog.wp_mono hsecond ?_ (fun _ _ h => h.elim) (fun _ h => h)
    rintro _ _ ⟨rfl, hlast⟩
    exact ⟨hlast.undone hlists hnew hvfs rfl, rfl⟩
  simp only [ForkState.forkFail, ↓Prog.wp_bind, wp_splx, ↓Prog.wp_get, h.tCwd]
  cases cwd with
  | none => exact hfreed mid.vfs h.vfs
  | some vn =>
      simp only [onVfs, ↓Prog.wp_bind, ↓Prog.wp_zoom, h.vfs]
      refine Prog.wp_mono (vnodeDecref_shared ops (href vn rfl)) ?_ (fun _ _ h => h.elim)
        (fun _ h => h)
      rintro _ vfs rfl
      have hrest := hfreed st.vfs rfl
      simp only [↓Prog.wp_bind] at hrest
      exact hrest

/-- The new thread as `thread_create` returns it. -/
def created (st : ForkState σ) (newguy name : Nat) : ForkState σ :=
  { st with
    sys := { st.sys with thread := Function.update st.sys.thread newguy {
      tPcb := .threadstart
      tSleepaddr := none
      tVmspace := none
      tCwd := none } }
    blocks := insert name (insert newguy st.blocks)
    tName := Function.update st.tName newguy name
    tStack := Function.update st.tStack newguy 0
    pid := Function.update st.pid newguy 0
    parentPid := Function.update st.parentPid newguy 0 }

theorem threadCreate_wp (hfresh : grants.Fresh) (st : ForkState σ) :
    (threadCreate grants).wp
      (fun newguy st' =>
        (newguy = 0 ∧ ¬ grants.Creates st.blocks ∧ st'.sys = st.sys) ∨
        (newguy ≠ 0 ∧ newguy ∉ st.blocks ∧ grants .thread st.blocks = some newguy ∧
          ∃ name, name ≠ 0 ∧ name ∉ insert newguy st.blocks ∧
            grants .name (insert newguy st.blocks) = some name ∧
            st' = st.created newguy name))
      (fun _ _ => False) (fun _ => False) st := by
  simp only [threadCreate, ↓Prog.wp_bind]
  refine Prog.wp_mono (kmalloc_wp hfresh .thread st) ?_ (fun _ _ h => h) (fun _ h => h)
  rintro thread _ (⟨rfl, hnone, rfl⟩ | ⟨hne, hnew, hthread, rfl⟩)
  · simp only [if_true, ↓Prog.wp_pure]
    refine .inl ⟨trivial, ?_, trivial⟩
    rintro ⟨thread, name, hthread, -⟩
    rw [hnone] at hthread
    cases hthread
  · rw [if_neg hne]
    simp only [↓Prog.wp_bind, ↓Prog.wp_modify]
    refine Prog.wp_mono (kmalloc_wp hfresh .name _) ?_ (fun _ _ h => h) (fun _ h => h)
    rintro name _ (⟨rfl, hnone, rfl⟩ | ⟨hname, hfar, hsome, rfl⟩)
    · simp only [if_true, ↓Prog.wp_bind]
      refine Prog.wp_mono (kfree_returns fun _ => Finset.mem_insert_self _ _) ?_
        (fun _ _ h => h) (fun _ h => h)
      rintro _ _ rfl
      refine .inl ⟨rfl, ?_, rfl⟩
      rintro ⟨thread', name, hthread', hname⟩
      rw [hthread] at hthread'
      cases hthread'
      rw [hnone] at hname
      cases hname
    · rw [if_neg hname]
      simp only [onSys, ThreadSystem.threadCreate, setThread, ↓Prog.wp_bind, ↓Prog.wp_zoom,
        ↓Prog.wp_modify, ↓Prog.wp_pure]
      exact .inr ⟨hne, hnew, hthread, name, hname, hfar, hsome, rfl⟩

structure Ready (ready asleep dead : List Tid) (cur : Tid) (st : ForkState σ) : Prop where
  lists : Lists st.sys ready asleep dead
  stored : Stored st
  curthread : st.sys.curthread = some cur
  live : cur ∈ st.blocks
  /-- The running thread has a reference to its directory. -/
  cwd : ∀ vn, (st.sys.thread cur).tCwd = some vn → 0 < st.vfs.vnRefcount vn

theorem Ready.created (hready : Ready ready asleep dead cur st) (hne : newguy ≠ 0)
    (hnew : newguy ∉ st.blocks) (hname : name ≠ 0) (hfar : name ∉ insert newguy st.blocks)
    (refused : List Site) (stack ppid : Nat) :
    Holding ready asleep dead newguy {name, newguy} st { st.created newguy name with
      parentPid := Function.update (st.created newguy name).parentPid newguy ppid
      tStack := Function.update (st.created newguy name).tStack newguy stack
      refused := refused } := by
  have hfresh (addr : Nat) (hmine : addr ∈ ({name, newguy} : Finset Nat)) :
      addr ≠ 0 ∧ addr ∉ st.blocks := by
    rw [Finset.mem_insert, Finset.mem_singleton] at hmine
    obtain rfl | rfl := hmine
    · exact ⟨hname, fun hmem => hfar (Finset.mem_insert_of_mem hmem)⟩
    · exact ⟨hne, hnew⟩
  refine ⟨⟨hready.lists.runqueue, hready.lists.sleepers, hready.lists.zombies⟩, rfl, rfl, ?_, ?_,
    ?_, ?_⟩
  · intro t ht
    simp only [ForkState.created, Function.update_of_ne ht, and_self]
  · intro addr
    change addr ∈ insert name (insert newguy st.blocks) ∧ ¬ st.Stores addr ↔ _
    rw [Finset.mem_insert, Finset.mem_insert, Finset.mem_insert, Finset.mem_singleton, Plain]
    have hcells (hmine : addr = name ∨ addr = newguy) : ¬ st.Stores addr := by
      intro hcells
      exact (hfresh addr (by simpa using hmine)).2 (hready.stored.live addr hcells)
    tauto
  · intro addr hmine
    obtain ⟨hsome, hout⟩ := hfresh addr hmine
    exact ⟨hsome, fun hplain => hout hplain.1⟩
  · refine ⟨?_, hready.stored.apart⟩
    intro addr hcells
    exact Finset.mem_insert_of_mem (Finset.mem_insert_of_mem (hready.stored.live addr hcells))

theorem Holding.inheritCwd (h : Holding ready asleep dead newguy {stack, name, newguy} st mid)
    (htName : mid.tName newguy = name) (htStack : mid.tStack newguy = stack)
    (htCwd : (mid.sys.thread newguy).tCwd = none) (hvfs : mid.vfs = st.vfs)
    (hcur : cur ≠ newguy) :
    (ForkState.inheritCwd cur newguy).Returns (fun _ st' =>
      Prepared ready asleep dead newguy name stack (st.sys.thread cur).tCwd st st' ∧
        st'.vector = mid.vector ∧ st'.curspl = mid.curspl ∧ st'.refused = mid.refused ∧
        st'.blocks = mid.blocks) mid := by
  simp only [ForkState.inheritCwd, ↓Prog.wp_bind, ↓Prog.wp_get, (h.threads cur hcur).1]
  cases hcwd : (st.sys.thread cur).tCwd with
  | none => exact ⟨⟨h, htName, htStack, htCwd, hvfs⟩, rfl, rfl, rfl, rfl⟩
  | some cwd =>
      simp only [onVfs, onSys, Vfs.vnodeIncref, Vfs.setRefcount, setThread, ↓Prog.wp_bind,
        ↓Prog.wp_zoom, ↓Prog.wp_get, ↓Prog.wp_modify]
      refine ⟨⟨⟨⟨h.lists.runqueue, h.lists.sleepers, h.lists.zombies⟩, h.curthread, h.numthreads,
        ?_, h.plain, h.apart, h.stored.live, h.stored.apart⟩, htName, htStack, ?_, ?_⟩, trivial,
        trivial, trivial, trivial⟩
      · intro t ht
        simp only [Function.update_of_ne ht]
        exact h.threads t ht
      · simp only [Function.update_self]
      · rw [hvfs]
        rfl

theorem Undone.blocks_eq (h : Undone st st') (hstored : Stored st)
    (hvector : st'.vector = st.vector) : st'.blocks = st.blocks := by
  ext addr
  have hcells : st'.Stores addr ↔ st.Stores addr := by rw [Stores, Stores, hvector]
  by_cases hstores : st.Stores addr
  · exact iff_of_true (h.stored.live addr (hcells.mpr hstores)) (hstored.live addr hstores)
  · have hfreed := h.freed addr
    rwa [Plain, Plain, hcells, and_iff_left hstores, and_iff_left hstores] at hfreed

theorem Prepared.replaced (h : Prepared ready asleep dead newguy name stack cwd st mid)
    (hsame : SameThreads ready asleep dead mid.sys st'.sys) (hreplaced : Replaced mid st') :
    Prepared ready asleep dead newguy name stack cwd st st' where
  holding := h.holding.replaced hsame hreplaced
  tName := by rw [hreplaced.tName, h.tName]
  tStack := by rw [hreplaced.tStack, h.tStack]
  tCwd := by rw [hsame.thread, h.tCwd]
  vfs := hreplaced.vfs.trans h.vfs

theorem begins_iff {blocks : Finset Nat} (hthread : grants .thread blocks = some newguy)
    (hname : grants .name (insert newguy blocks) = some name)
    (hstack : grants .stack (insert name (insert newguy blocks)) = some stack) :
    grants.Begins blocks ↔
      grants (.preallocate .sleepers) (insert stack (insert name (insert newguy blocks))) ≠
        none := by
  rw [← Option.isSome_iff_ne_none, Option.isSome_iff_exists]
  constructor
  · rintro ⟨thread', name', stack', cells, hthread', hname', hstack', hcells⟩
    rw [hthread] at hthread'
    cases hthread'
    rw [hname] at hname'
    cases hname'
    rw [hstack] at hstack'
    cases hstack'
    exact ⟨cells, hcells⟩
  · rintro ⟨cells, hcells⟩
    exact ⟨newguy, name, stack, cells, hthread, hname, hstack, hcells⟩

theorem Ready.threadFork (hready : Ready ready asleep dead cur st) (hfresh : grants.Fresh)
    (ops : Vfs.VnodeOps σ) :
    (ForkState.threadFork ops grants).wp
      (fun _ st' => grants.Creates st.blocks ∧ st'.refused = st.refused)
      (fun _ st' => grants.Creates st.blocks ∧ Undone st st' ∧
        (st'.blocks = st.blocks ↔ ¬ grants.Begins st.blocks))
      (fun _ => ¬ grants.Creates st.blocks) st := by
  simp only [ForkState.threadFork, ↓Prog.wp_bind, ↓Prog.wp_get]
  refine Prog.wp_mono (threadCreate_wp hfresh st) ?_ (fun _ _ h => h.elim) (fun _ h => h.elim)
  rintro newguy mid (⟨rfl, hcreates, hsys⟩ | ⟨hne, hnew, hthread, name, hname, hfar, hsome, rfl⟩)
  · rw [hsys, hready.curthread]
    simpa using hcreates
  have hcreates : grants.Creates st.blocks := ⟨newguy, name, hthread, hsome⟩
  have hcur : cur ≠ newguy := by
    rintro rfl
    exact hnew hready.live
  have hdiff : name ≠ newguy := by
    rintro rfl
    exact hfar (Finset.mem_insert_self _ _)
  simp only [show (st.created newguy name).sys.curthread = some cur from hready.curthread,
    ↓Prog.wp_bind, ↓Prog.wp_assert, ↓Prog.wp_modify, ↓Prog.wp_ite]
  rw [if_pos hne, if_neg hne]
  refine Prog.wp_mono (kmalloc_wp hfresh .stack _) ?_ (fun _ _ h => h.elim) (fun _ h => h.elim)
  rintro stack _ (⟨rfl, hnone, rfl⟩ | ⟨hstack, hfree, hgrant, rfl⟩)
  · have hholding := hready.created hne hnew hname hfar (.stack :: st.refused) 0
      ((st.created newguy name).pid cur)
    have hrest := hholding.giveBackNew hdiff
    simp only [↓Prog.wp_bind] at hrest
    simp only [if_true, ↓Prog.wp_get, ForkState.created, Function.update_self] at hrest ⊢
    refine Prog.wp_mono hrest ?_ (fun _ _ h => h.elim) (fun _ h => h.elim)
    intro _ _ hfirst
    refine Prog.wp_mono hfirst ?_ (fun _ _ h => h.elim) (fun _ h => h.elim)
    rintro _ _ ⟨rfl, hlast⟩
    have hundone := hlast.undone hready.lists hnew rfl rfl
    refine ⟨hcreates, hundone, iff_of_true (hundone.blocks_eq hready.stored rfl) ?_⟩
    rintro ⟨thread', name', stack, cells, hthread', hname', hstack, -⟩
    rw [hthread] at hthread'
    cases hthread'
    rw [hsome] at hname'
    cases hname'
    exact absurd (hnone.symm.trans hstack) (by simp)
  · have hholding := (hready.created hne hnew hname hfar st.refused stack
      ((st.created newguy name).pid cur)).take hstack hfree
    simp only [if_neg hstack]
    refine Prog.wp_mono (hholding.inheritCwd ?_ ?_ ?_ rfl hcur) ?_ (fun _ _ h => h.elim)
      (fun _ h => h.elim)
    · exact Function.update_self _ _ _
    · exact Function.update_self _ _ _
    · simp only [ForkState.created, Function.update_self]
    rintro _ mid ⟨hprepared, hvector, hcurspl, hrefused, hblocks⟩
    have hapart : stack ∉ ({name, newguy} : Finset Nat) := by
      intro hmem
      apply hfree
      change stack ∈ insert name (insert newguy st.blocks)
      simp only [Finset.mem_insert, Finset.mem_singleton] at hmem ⊢
      tauto
    have hbegins : grants.Begins st.blocks ↔ grants (.preallocate .sleepers) mid.blocks ≠ none := by
      rw [hblocks]
      exact begins_iff hthread hsome hgrant
    have hraised : Prepared ready asleep dead newguy name stack (st.sys.thread cur).tCwd st
        { mid with curspl := SPL_HIGH } :=
      ⟨hprepared.holding.set mid.vfs SPL_HIGH, hprepared.tName, hprepared.tStack,
        hprepared.tCwd, hprepared.vfs⟩
    simp only [wp_splx, ↓Prog.wp_attempt]
    refine Prog.wp_mono (enroll_wp hfresh hraised.holding.stored hraised.holding.lists
      (show 0 < SPL_HIGH by decide) newguy) ?_ ?_ (fun _ h => h.elim)
    · rintro _ last ⟨-, -, hlast⟩
      exact ⟨hcreates, hlast.trans hrefused⟩
    · intro result last hroomed
      have hfail := (hraised.replaced hroomed.same hroomed.replaced).forkFail ops hready.lists
        hnew hready.cwd hdiff hapart result
      rw [hcurspl]
      refine Prog.wp_mono hfail (fun _ _ h => h.elim) ?_ (fun _ h => h.elim)
      rintro _ last' ⟨hundone, hcells⟩
      refine ⟨hcreates, hundone, ?_⟩
      rw [hbegins]
      by_cases hgrown : grants (.preallocate .sleepers) mid.blocks ≠ none
      · obtain ⟨hsome', hout⟩ := hroomed.fresh hgrown
        refine iff_of_false ?_ (not_not_intro hgrown)
        intro heq
        rw [← hcells] at hsome' hout
        have hlive := hundone.stored.live _ ⟨hsome', .sleepers, rfl⟩
        rw [heq] at hlive
        apply hout
        change _ ∈ mid.blocks
        rw [hblocks]
        exact Finset.mem_insert_of_mem (Finset.mem_insert_of_mem (Finset.mem_insert_of_mem hlive))
      · refine iff_of_true (hundone.blocks_eq hready.stored ?_) hgrown
        rw [hcells, hroomed.old hgrown]
        exact hvector

/-- Where it fails, `thread_fork` comes back with an error and without a trace if and only
if the thread structure and its name find memory; without them it stores through `NULL`.
Cells that a table got before the refusal stay with it, in the place of its old ones. -/
theorem threadFork_undone_iff (ops : Vfs.VnodeOps σ) (hfresh : grants.Fresh)
    (hready : Ready ready asleep dead cur st) :
    ((ForkState.threadFork ops grants).wp (fun _ st' => st'.refused = st.refused)
        (fun _ st' => Undone st st') (fun _ => False) st ↔ grants.Creates st.blocks) ∧
      ∀ code st', ForkState.threadFork ops grants st = .error code st' →
        (st'.blocks = st.blocks ↔ ¬ grants.Begins st.blocks) := by
  have hfork := hready.threadFork hfresh ops
  refine ⟨⟨?_, ?_⟩, ?_⟩
  · intro hundone
    by_contra hnone
    apply Prog.not_wp_false (ForkState.threadFork ops grants) st
    refine Prog.wp_mono (Prog.wp_and hfork hundone) ?_ ?_ ?_
    · exact fun _ _ h => hnone h.1.1
    · exact fun _ _ h => hnone h.1.1
    · exact fun _ h => h.2
  · intro hcreates
    refine Prog.wp_mono hfork ?_ ?_ ?_
    · exact fun _ _ h => h.2
    · exact fun _ _ h => h.2.1
    · exact fun _ hnone => hnone hcreates
  · intro code st' herror
    exact (hfork.fails_of_error herror).2.2

/-- `kmalloc` refuses this one call. -/
def refusing (site : Site) : Grants := fun site' blocks =>
  if site' = site then none else some (blocks.sup id + 1)

theorem refusing_fresh (site : Site) : (refusing site).Fresh := by
  intro site' blocks addr hgrant
  unfold refusing at hgrant
  split at hgrant
  · cases hgrant
  · cases hgrant
    refine ⟨Nat.succ_ne_zero _, fun hmem => ?_⟩
    have hle : blocks.sup id + 1 ≤ blocks.sup id := Finset.le_sup (f := id) hmem
    omega

/-- The boot thread, whose structure is block 1, in the directory of vnode 3; block 2 holds
the cells of the run queue. -/
def booted : ForkState Unit where
  sys := { threadBootstrap 1 with
    thread := fun t => { (threadBootstrap 1).thread t with tCwd := some 3 } }
  vfs := { Vfs.oneOpen with vnRefcount := fun _ => 1 }
  blocks := {1, 2}
  tName _ := 0
  tStack _ := 0
  pid _ := 0
  parentPid _ := 0
  vector
    | .sleepers => 0
    | .zombies => 0
    | .runqueue => 2
  curspl := 0
  refused := []

theorem booted_ready : Ready [] [] [] 1 booted where
  lists := ⟨Queue.qCreate_rep (by decide), KArray.arrayCreate_rep, KArray.arrayCreate_rep⟩
  stored := by
    constructor
    · rintro addr ⟨hne, table, rfl⟩
      cases table with
      | sleepers => exact absurd rfl hne
      | zombies => exact absurd rfl hne
      | runqueue => decide
    · intro table table'
      cases table <;> cases table' <;> decide
  curthread := rfl
  live := by decide
  cwd _ _ := Nat.one_pos

/-- The zombies' array gets no cells. -/
theorem threadFork_undone_zombies :
    (ForkState.threadFork (Vfs.oneFile true) (refusing (.preallocate .zombies))).wp
      (fun _ st' => st'.refused = booted.refused) (fun _ st' => Undone booted st')
      (fun _ => False) booted :=
  (threadFork_undone_iff (Vfs.oneFile true) (refusing_fresh (.preallocate .zombies))
    booted_ready).1.mpr ⟨_, _, rfl, rfl⟩

/-- No memory for the thread structure. -/
theorem threadFork_null :
    (refusing .thread).Fresh ∧ Ready [] [] [] 1 booted ∧
      ForkState.threadFork (Vfs.oneFile true) (refusing .thread) booted = .panic .kernelFault :=
  ⟨refusing_fresh .thread, booted_ready, rfl⟩

end ForkState

end OS161.Threads
