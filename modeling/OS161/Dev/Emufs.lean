import Mathlib.Data.List.InsertIdx
import Mathlib.Data.List.Nodup
import OS161.Data.Seq
import OS161.Vfs.Vnode

namespace OS161.Dev

open OS161.Data
open OS161.Kern
open OS161.Vfs

/-! Reference counts of the emulated file system of `kern/dev/lamebus/emu.c`,
with any number of threads inside `vnode_incref`, `vnode_decref`,
`emufs_reclaim` and `emufs_loadvnode`.  What is done under `vn_countlock` is
one step; `e_lock` is held over several. -/

abbrev Tid := Nat

structure EmufsVnode where
  ev : VnodeId
  evHandle : Nat
  deriving DecidableEq, Repr

/-- Where a thread is inside the calls. -/
inductive Point where
  | out
  /-- In `vnode_decref`, with `actually_do_it` set and `vn_countlock` released. -/
  | decided (v : VnodeId)
  /-- In `emufs_reclaim`, holding `e_lock`, before the count is checked. -/
  | entered (v : VnodeId)
  /-- In `emufs_reclaim`, holding `e_lock`, about to call `emu_close`. -/
  | closing (v : VnodeId)
  /-- In `emufs_reclaim`, out of the table and of `e_lock`, before `VOP_KILL`. -/
  | killing (v : VnodeId)
  /-- In `emufs_loadvnode`, holding `e_lock`, before the search. -/
  | loading (handle : Nat)
  /-- In `emufs_loadvnode`, holding `e_lock`, before `VOP_INCREF`. -/
  | found (v : VnodeId)
  deriving DecidableEq, Repr

structure Emufs where
  eLock : Option Tid
  efVnodes : List EmufsVnode
  vnRefcount : VnodeId → Nat
  point : Tid → Point
  /-- The references that the callers hold.  Nothing in the source keeps this
  count or the next one, and nothing here depends on them. -/
  held : VnodeId → Nat
  /-- How often `emufs_reclaim` came back and left the reference that
  `vnode_decref` had handed it. -/
  unconsumed : VnodeId → Nat

abbrev Op := Prog Errno Fault Emufs

namespace Emufs

def setPoint (t : Tid) (p : Point) (s : Emufs) : Emufs :=
  { s with point := Function.update s.point t p }

def setLock (holder : Option Tid) (s : Emufs) : Emufs := { s with eLock := holder }

def setRefcount (v : VnodeId) (n : Nat) (s : Emufs) : Emufs :=
  { s with vnRefcount := Function.update s.vnRefcount v n }

def setHeld (v : VnodeId) (n : Nat) (s : Emufs) : Emufs :=
  { s with held := Function.update s.held v n }

def noteUnconsumed (v : VnodeId) (s : Emufs) : Emufs :=
  { s with unconsumed := Function.update s.unconsumed v (s.unconsumed v + 1) }

def vnodeIncref (v : VnodeId) : Op Unit := do
  let s ← Prog.get
  Prog.modify (setRefcount v (s.vnRefcount v + 1))

/-- Up to the release of `vn_countlock`. -/
def vnodeDecref (t : Tid) (v : VnodeId) : Op Unit := do
  let s ← Prog.get
  Prog.assert (0 < s.vnRefcount v) .decrefZero
  if 1 < s.vnRefcount v then
    Prog.modify (setRefcount v (s.vnRefcount v - 1))
  else
    Prog.modify (setPoint t (.decided v))

/-- `lock_acquire(ef->ef_emu->e_lock)` at the head of `emufs_reclaim`. -/
def emufsReclaimEnter (t : Tid) (v : VnodeId) : Op Unit := do
  Prog.modify (setLock (some t))
  Prog.modify (setPoint t (.entered v))

/-- The check of the count.  The first branch returns `EBUSY`, which
`vnode_decref` passes over. -/
def emufsReclaimCheck (t : Tid) (v : VnodeId) : Op Unit := do
  let s ← Prog.get
  if s.vnRefcount v ≠ 1 then do
    Prog.modify (setLock none)
    Prog.modify (setPoint t .out)
    Prog.modify (noteUnconsumed v)
  else
    Prog.modify (setPoint t (.closing v))

/-- `closed` says whether `emu_close` succeeds.  Where it does not, its error
comes back from `emufs_reclaim` and `vnode_decref` prints a warning. -/
def emufsReclaimClose (t : Tid) (v : VnodeId) (closed : Bool) : Op Unit := do
  if closed then do
    let s ← Prog.get
    match s.efVnodes.findIdx? fun evx => evx.ev == v with
    | none => Prog.panic .reclaimMissing
    | some ix =>
        Prog.modify fun s => { s with efVnodes := s.efVnodes.eraseIdx ix }
        Prog.modify (setLock none)
        Prog.modify (setPoint t (.killing v))
  else do
    Prog.modify (setLock none)
    Prog.modify (setPoint t .out)
    Prog.modify (noteUnconsumed v)

/-- `VOP_KILL`, and `kfree` of the vnode. -/
def emufsReclaimKill (t : Tid) (v : VnodeId) : Op Unit := do
  let s ← Prog.get
  Prog.assert (s.vnRefcount v = 1) .killRefcount
  Prog.modify (setRefcount v 0)
  Prog.modify (setPoint t .out)

def emufsLoadvnodeEnter (t : Tid) (handle : Nat) : Op Unit := do
  Prog.modify (setLock (some t))
  Prog.modify (setPoint t (.loading handle))

/-- The search of the table and, where it finds nothing, the rest of
`emufs_loadvnode`.  `mem` is the address of the new vnode, if its allocation,
`VOP_INIT` and `array_add` all find memory. -/
def emufsLoadvnodeSearch (t : Tid) (handle : Nat) (mem : Option VnodeId) : Op Unit := do
  let s ← Prog.get
  match s.efVnodes.find? fun ev => ev.evHandle == handle with
  | some ev => Prog.modify (setPoint t (.found ev.ev))
  | none => do
      match mem with
      | some v =>
          Prog.modify (setRefcount v 1)
          Prog.modify fun s => { s with efVnodes := s.efVnodes ++ [⟨v, handle⟩] }
          Prog.modify (setHeld v (s.held v + 1))
      | none => pure ()
      Prog.modify (setLock none)
      Prog.modify (setPoint t .out)

def emufsLoadvnodeIncref (t : Tid) (v : VnodeId) : Op Unit := do
  vnodeIncref v
  let s ← Prog.get
  Prog.modify (setHeld v (s.held v + 1))
  Prog.modify (setLock none)
  Prog.modify (setPoint t .out)

/-- `emufs_mount`, before it loads the root directory. -/
def emufsMount : Emufs where
  eLock := none
  efVnodes := []
  vnRefcount := fun _ => 0
  point := fun _ => .out
  held := fun _ => 0
  unconsumed := fun _ => 0

end Emufs

/-! Runs.  A reference belongs to no thread in particular: whoever holds one
may copy it or drop it. -/

inductive Action where
  | incref (v : VnodeId)
  | decref (t : Tid) (v : VnodeId)
  | reclaimEnter (t : Tid) (v : VnodeId)
  | reclaimCheck (t : Tid) (v : VnodeId)
  | reclaimClose (t : Tid) (v : VnodeId) (closed : Bool)
  | reclaimKill (t : Tid) (v : VnodeId)
  | loadEnter (t : Tid) (handle : Nat)
  | loadSearch (t : Tid) (handle : Nat) (mem : Option VnodeId)
  | loadIncref (t : Tid) (v : VnodeId)

namespace Action

open Emufs

def run : Action → Op Unit
  | .incref v => do
      vnodeIncref v
      Prog.modify fun s => setHeld v (s.held v + 1) s
  | .decref t v => do
      Prog.modify fun s => setHeld v (s.held v - 1) s
      vnodeDecref t v
  | .reclaimEnter t v => emufsReclaimEnter t v
  | .reclaimCheck t v => emufsReclaimCheck t v
  | .reclaimClose t v closed => emufsReclaimClose t v closed
  | .reclaimKill t v => emufsReclaimKill t v
  | .loadEnter t handle => emufsLoadvnodeEnter t handle
  | .loadSearch t handle mem => emufsLoadvnodeSearch t handle mem
  | .loadIncref t v => emufsLoadvnodeIncref t v

/-- Where the call can be made: the thread is at its point, `e_lock` is free
where it is taken, a reference is there where one is used, and `kmalloc` hands
out no memory that is still in use. -/
def Allowed (s : Emufs) : Action → Prop
  | .incref v => 0 < s.held v
  | .decref t v => s.point t = .out ∧ 0 < s.held v
  | .reclaimEnter t v => s.point t = .decided v ∧ s.eLock = none
  | .reclaimCheck t v => s.point t = .entered v
  | .reclaimClose t v _ => s.point t = .closing v
  | .reclaimKill t v => s.point t = .killing v
  | .loadEnter t _ => s.point t = .out ∧ s.eLock = none
  | .loadSearch t handle mem => s.point t = .loading handle ∧
      ∀ v ∈ mem, v ∉ s.efVnodes.map EmufsVnode.ev ∧ ∀ u, s.point u ≠ .killing v
  | .loadIncref t v => s.point t = .found v

end Action

def Step (s next : Emufs) : Prop :=
  ∃ action : Action, action.Allowed s ∧ action.run s = .ok () next

/-! Who answers for the references of a vnode. -/

/-- The thread is about to reclaim the vnode, with the reference it dropped
still counted. -/
def Point.Pursues (v : VnodeId) : Point → Prop
  | .decided w => w = v
  | .entered w => w = v
  | .closing w => w = v
  | _ => False

/-- The thread holds `e_lock`. -/
def Point.Locked : Point → Prop
  | .entered _ => True
  | .closing _ => True
  | .loading _ => True
  | .found _ => True
  | _ => False

/-- The vnode that the thread's place in the calls concerns. -/
def Point.About (v : VnodeId) : Point → Prop
  | .decided w => w = v
  | .entered w => w = v
  | .closing w => w = v
  | .killing w => w = v
  | .found w => w = v
  | _ => False

theorem Point.Pursues.about {p : Point} (h : p.Pursues v) : p.About v := by
  cases p <;> first | exact h | cases h

namespace Emufs

def Listed (s : Emufs) (v : VnodeId) : Prop := v ∈ s.efVnodes.map EmufsVnode.ev

/-- The count of a vnode in the table is made up of the references held, the
one that a pursuer carries and those left behind. -/
structure Account (s : Emufs) (v : VnodeId) (pursuer : Option Tid) : Prop where
  pursues : ∀ t, (s.point t).Pursues v ↔ pursuer = some t
  counted : s.Listed v → s.vnRefcount v =
    s.held v + pursuer.toList.length + s.unconsumed v ∧ 0 < s.vnRefcount v
  last : pursuer ≠ none → s.unconsumed v = 0
  gone : ¬s.Listed v → pursuer = none ∧ s.held v = 0 ∧ s.unconsumed v = 0

structure Inv (s : Emufs) : Prop where
  accounts : ∀ v, ∃ pursuer, Account s v pursuer
  locked : ∀ t, (s.point t).Locked → s.eLock = some t
  nodup : (s.efVnodes.map EmufsVnode.ev).Nodup
  found : ∀ t v, s.point t = .found v → s.Listed v
  closing : ∀ t v, s.point t = .closing v → s.vnRefcount v = 1
  killing : ∀ t v, s.point t = .killing v → ¬s.Listed v

theorem emufsMount_inv : Inv emufsMount where
  accounts := fun v => ⟨none, {
    pursues := by simp [emufsMount, Point.Pursues]
    counted := by simp [Listed, emufsMount]
    last := by simp
    gone := by simp [emufsMount] }⟩
  locked := by simp [emufsMount, Point.Locked]
  nodup := List.nodup_nil
  found := by simp [emufsMount]
  closing := by simp [emufsMount]
  killing := by simp [emufsMount]

section Frame

variable {s next : Emufs}

/-- A step that leaves the counts of a vnode alone leaves its account alone. -/
theorem Account.frame (haccount : Account s v pursuer)
    (hpoint : ∀ t, (next.point t).Pursues v ↔ (s.point t).Pursues v)
    (hlisted : next.Listed v ↔ s.Listed v)
    (hcount : next.vnRefcount v = s.vnRefcount v) (hheld : next.held v = s.held v)
    (hleft : next.unconsumed v = s.unconsumed v) : Account next v pursuer where
  pursues := fun t => (hpoint t).trans (haccount.pursues t)
  counted := by
    rw [hlisted, hcount, hheld, hleft]
    exact haccount.counted
  last := by
    rw [hleft]
    exact haccount.last
  gone := by
    rw [hlisted, hheld, hleft]
    exact haccount.gone

theorem Inv.listed_of_held (h : Inv s) (hheld : 0 < s.held v) : s.Listed v := by
  obtain ⟨pursuer, haccount⟩ := h.accounts v
  by_contra hnot
  have := (haccount.gone hnot).2.1
  omega

/-- Whoever is about to reclaim a vnode is the only one, and its reference is
the one that is counted beside those held. -/
theorem Inv.pursued (h : Inv s) (hpursues : (s.point t).Pursues v) :
    Account s v (some t) ∧ s.Listed v ∧ s.vnRefcount v = s.held v + 1 ∧
      s.unconsumed v = 0 := by
  obtain ⟨pursuer, haccount⟩ := h.accounts v
  have hwho := (haccount.pursues t).mp hpursues
  subst hwho
  have hlisted : s.Listed v := by
    by_contra hnot
    cases (haccount.gone hnot).1
  have hleft := haccount.last (by simp)
  have hcount := (haccount.counted hlisted).1
  simp only [Option.toList_some, List.length_singleton, hleft] at hcount
  exact ⟨haccount, hlisted, by omega, hleft⟩

end Frame

/-- A step of thread `t` that concerns only vnode `v`. -/
structure Concerns (s next : Emufs) (t : Tid) (v : VnodeId) : Prop where
  points : ∀ u, u ≠ t → next.point u = s.point u
  before : ∀ w, w ≠ v → ¬(s.point t).About w
  after : ∀ w, w ≠ v → ¬(next.point t).About w
  counts : ∀ w, w ≠ v → next.vnRefcount w = s.vnRefcount w ∧ next.held w = s.held w ∧
    next.unconsumed w = s.unconsumed w ∧ (next.Listed w ↔ s.Listed w)

section Steps

variable {s next : Emufs}

theorem Concerns.pursues_iff (hstep : Concerns s next t v) (hw : w ≠ v) (u : Tid) :
    (next.point u).Pursues w ↔ (s.point u).Pursues w := by
  by_cases hu : u = t
  · subst hu
    exact ⟨fun h => absurd h.about (hstep.after w hw),
      fun h => absurd h.about (hstep.before w hw)⟩
  · rw [hstep.points u hu]

theorem Concerns.inv (hstep : Concerns s next t v) (h : Inv s) (pursuer : Option Tid)
    (haccount : Account next v pursuer)
    (hlocked : ∀ u, (next.point u).Locked → next.eLock = some u)
    (hnodup : (next.efVnodes.map EmufsVnode.ev).Nodup)
    (hfound : ∀ u, next.point u = .found v → next.Listed v)
    (hclosing : ∀ u, next.point u = .closing v → next.vnRefcount v = 1)
    (hkilling : ∀ u, next.point u = .killing v → ¬next.Listed v) : Inv next where
  accounts := by
    intro w
    by_cases hw : w = v
    · exact ⟨pursuer, hw ▸ haccount⟩
    · obtain ⟨pursuer', haccount'⟩ := h.accounts w
      obtain ⟨hcount, hheld, hleft, hlisted⟩ := hstep.counts w hw
      exact ⟨pursuer', haccount'.frame (hstep.pursues_iff hw) hlisted hcount hheld hleft⟩
  locked := hlocked
  nodup := hnodup
  found := by
    intro u w hpoint
    by_cases hw : w = v
    · subst hw
      exact hfound u hpoint
    · by_cases hu : u = t
      · subst hu
        exact absurd (by rw [hpoint]; rfl) (hstep.after w hw)
      · rw [hstep.points u hu] at hpoint
        exact (hstep.counts w hw).2.2.2.mpr (h.found u w hpoint)
  closing := by
    intro u w hpoint
    by_cases hw : w = v
    · subst hw
      exact hclosing u hpoint
    · by_cases hu : u = t
      · subst hu
        exact absurd (by rw [hpoint]; rfl) (hstep.after w hw)
      · rw [hstep.points u hu] at hpoint
        exact (hstep.counts w hw).1.trans (h.closing u w hpoint)
  killing := by
    intro u w hpoint
    by_cases hw : w = v
    · subst hw
      exact hkilling u hpoint
    · by_cases hu : u = t
      · subst hu
        exact absurd (by rw [hpoint]; rfl) (hstep.after w hw)
      · rw [hstep.points u hu] at hpoint
        exact fun hlisted => h.killing u w hpoint ((hstep.counts w hw).2.2.2.mp hlisted)

/-- No other thread is locked while one is. -/
theorem Inv.locked_unique (h : Inv s) (ht : (s.point t).Locked) (hu : (s.point u).Locked) :
    u = t := by
  have := (h.locked t ht).symm.trans (h.locked u hu)
  cases this
  rfl

/-- The step takes the free `e_lock`. -/
theorem Concerns.locked_taken (hstep : Concerns s next t v) (h : Inv s)
    (hfree : s.eLock = none) (htaken : next.eLock = some t) :
    ∀ u, (next.point u).Locked → next.eLock = some u := by
  intro u hu
  by_cases hut : u = t
  · rw [hut, htaken]
  · rw [hstep.points u hut] at hu
    have := h.locked u hu
    rw [hfree] at this
    cases this

/-- The step gives `e_lock` up. -/
theorem Concerns.locked_released (hstep : Concerns s next t v) (h : Inv s)
    (hbefore : (s.point t).Locked) (hafter : ¬(next.point t).Locked) :
    ∀ u, (next.point u).Locked → next.eLock = some u := by
  intro u hu
  by_cases hut : u = t
  · subst hut
    exact absurd hu hafter
  · rw [hstep.points u hut] at hu
    exact absurd (h.locked_unique hbefore hu) hut

theorem Inv.incref (h : Inv s) (hheld : 0 < s.held v)
    (hrun : (Action.incref v).run s = .ok () next) : Inv next := by
  have hnext : next = setHeld v (s.held v + 1) (setRefcount v (s.vnRefcount v + 1) s) := by
    cases hrun
    rfl
  have hlisted := h.listed_of_held hheld
  subst hnext
  refine ⟨?_, h.locked, h.nodup, h.found, ?_, h.killing⟩
  · intro w
    obtain ⟨pursuer, haccount⟩ := h.accounts w
    by_cases hw : w = v
    · subst hw
      refine ⟨pursuer, haccount.pursues, ?_, haccount.last, fun hnot => absurd hlisted hnot⟩
      intro _
      have := haccount.counted hlisted
      simp only [setHeld, setRefcount, Function.update_self]
      omega
    · exact ⟨pursuer, haccount.frame (fun _ => Iff.rfl) Iff.rfl
        (Function.update_of_ne hw _ _) (Function.update_of_ne hw _ _) rfl⟩
  · intro t w (hpoint : s.point t = .closing w)
    have hw : w ≠ v := by
      rintro rfl
      have hpursues : (s.point t).Pursues w := by
        rw [hpoint]
        rfl
      have hone := h.closing t w hpoint
      have hcount := (h.pursued hpursues).2.2.1
      omega
    exact (Function.update_of_ne hw _ _).trans (h.closing t w hpoint)

theorem Inv.decref (h : Inv s) (hout : s.point t = .out) (hheld : 0 < s.held v)
    (hrun : (Action.decref t v).run s = .ok () next) : Inv next := by
  have hlisted := h.listed_of_held hheld
  obtain ⟨pursuer, haccount⟩ := h.accounts v
  have hcount := haccount.counted hlisted
  by_cases hmore : 1 < s.vnRefcount v
  · have hnext : next = setRefcount v (s.vnRefcount v - 1) (setHeld v (s.held v - 1) s) := by
      simp only [Action.run, vnodeDecref, bind, Prog.andThen, Prog.modify, Prog.get,
        Prog.assert, setHeld, hcount.2, hmore, if_true] at hrun
      cases hrun
      rfl
    have hconcerns : Concerns s next t v := by
      subst hnext
      exact ⟨fun _ _ => rfl, by simp [hout, Point.About],
        by simp [setRefcount, setHeld, hout, Point.About], fun w hw =>
          ⟨Function.update_of_ne hw _ _, Function.update_of_ne hw _ _, rfl, Iff.rfl⟩⟩
    subst hnext
    refine hconcerns.inv h pursuer ⟨haccount.pursues, ?_, haccount.last,
      fun hnot => absurd hlisted hnot⟩ h.locked h.nodup (fun u => h.found u v) ?_
      (fun u => h.killing u v)
    · intro _
      simp only [setRefcount, setHeld, Function.update_self]
      omega
    · intro u hu
      have := h.closing u v hu
      omega
  · have hone : s.vnRefcount v = 1 := by omega
    have hnext : next = setPoint t (.decided v) (setHeld v (s.held v - 1) s) := by
      simp only [Action.run, vnodeDecref, bind, Prog.andThen, Prog.modify, Prog.get,
        Prog.assert, setHeld, hcount.2, hmore, if_true, if_false] at hrun
      cases hrun
      rfl
    have hself : next.point t = .decided v := by
      rw [hnext]
      exact Function.update_self _ _ _
    have hothers : ∀ u, u ≠ t → next.point u = s.point u := by
      intro u hu
      rw [hnext]
      exact Function.update_of_ne hu _ _
    have hnone : pursuer = none := by
      cases pursuer with
      | none => rfl
      | some u =>
          simp only [Option.toList_some, List.length_singleton] at hcount
          omega
    subst hnone
    simp only [Option.toList_none, List.length_nil] at hcount
    have hconcerns : Concerns s next t v := by
      refine ⟨hothers, by simp [hout, Point.About], ?_, ?_⟩
      · intro w hw
        rw [hself]
        exact fun heq => hw heq.symm
      · intro w hw
        rw [hnext]
        exact ⟨rfl, Function.update_of_ne hw _ _, rfl, Iff.rfl⟩
    have haccount' : Account next v (some t) := by
      refine ⟨?_, ?_, ?_, ?_⟩
      · intro u
        by_cases hu : u = t
        · subst hu
          simp [hself, Point.Pursues]
        · rw [hothers u hu, haccount.pursues u]
          simp [Ne.symm hu]
      · intro _
        rw [hnext]
        simp only [setPoint, setHeld, Function.update_self, Option.toList_some,
          List.length_singleton]
        omega
      · intro _
        rw [hnext]
        exact (show s.unconsumed v = 0 by omega)
      · rw [hnext]
        exact fun hnot => absurd hlisted hnot
    refine hconcerns.inv h (some t) haccount' ?_ ?_ ?_ ?_ ?_
    · intro u hlocked
      by_cases hu : u = t
      · subst hu
        rw [hself] at hlocked
        cases hlocked
      · rw [hothers u hu] at hlocked
        rw [hnext]
        exact h.locked u hlocked
    · rw [hnext]
      exact h.nodup
    · rw [hnext]
      exact fun _ _ => hlisted
    · rw [hnext]
      exact fun _ _ => hone
    · intro u hu
      by_cases hut : u = t
      · subst hut
        rw [hself] at hu
        cases hu
      · rw [hothers u hut] at hu
        exact absurd hlisted (h.killing u v hu)
/-- A step of `t` that moves it from one point to another, both about `v`. -/
theorem Concerns.of_move (hpoint : next.point = Function.update s.point t p)
    (hbefore : ∀ w, w ≠ v → ¬(s.point t).About w) (hafter : ∀ w, w ≠ v → ¬p.About w)
    (hcounts : ∀ w, w ≠ v → next.vnRefcount w = s.vnRefcount w ∧ next.held w = s.held w ∧
      next.unconsumed w = s.unconsumed w ∧ (next.Listed w ↔ s.Listed w)) :
    Concerns s next t v where
  points := by
    intro u hu
    rw [hpoint]
    exact Function.update_of_ne hu _ _
  before := hbefore
  after := by
    rw [hpoint, Function.update_self]
    exact hafter
  counts := hcounts

theorem about_ne (hpoint : s.point t = p) (hp : p.About v) :
    ∀ w, w ≠ v → ¬(s.point t).About w := by
  intro w hw hw'
  rw [hpoint] at hw'
  cases p <;> first | exact hw (hw'.symm.trans hp) | cases hp

/-- The thread carries its reference one stage further on the way to
`emu_close`. -/
theorem Inv.pursue (h : Inv s) (hpoint : s.point t = p) (hp : p.Pursues v)
    (hq : q.Pursues v) (hnext : next = setPoint t q (setLock holder s))
    (hlocked : Concerns s next t v → ∀ u, (next.point u).Locked → next.eLock = some u)
    (hclosing : q = .closing v → s.vnRefcount v = 1) : Inv next := by
  have hpursues : (s.point t).Pursues v := hpoint ▸ hp
  obtain ⟨haccount, hlisted, hcount, hleft⟩ := h.pursued hpursues
  have hmoved : next.point = Function.update s.point t q := by
    rw [hnext]
    rfl
  have hafter : ∀ w, w ≠ v → ¬q.About w := by
    intro w hw hw'
    cases q <;> first | exact hw (hw'.symm.trans hq) | cases hq
  have hconcerns : Concerns s next t v := by
    refine .of_move hmoved (about_ne hpoint hp.about) hafter ?_
    rw [hnext]
    exact fun w _ => ⟨rfl, rfl, rfl, Iff.rfl⟩
  have hpursued : ∀ u, (next.point u).Pursues v ↔ (s.point u).Pursues v := by
    intro u
    by_cases hu : u = t
    · subst hu
      rw [hmoved, Function.update_self]
      exact ⟨fun _ => hpursues, fun _ => hq⟩
    · rw [hconcerns.points u hu]
  have haccount' : Account next v (some t) := by
    refine haccount.frame hpursued ?_ ?_ ?_ ?_ <;> rw [hnext] <;> rfl
  have hlisted' : next.Listed v := by
    rw [hnext]
    exact hlisted
  refine hconcerns.inv h (some t) haccount' (hlocked hconcerns) ?_ (fun _ _ => hlisted') ?_ ?_
  · rw [hnext]
    exact h.nodup
  · intro u hu
    by_cases hut : u = t
    · subst hut
      rw [hmoved, Function.update_self] at hu
      rw [hnext]
      exact hclosing hu
    · rw [hconcerns.points u hut] at hu
      rw [hnext]
      exact h.closing u v hu
  · intro u hu
    by_cases hut : u = t
    · subst hut
      rw [hmoved, Function.update_self] at hu
      subst hu
      cases hq
    · rw [hconcerns.points u hut] at hu
      exact absurd hlisted (h.killing u v hu)

/-- `emufs_reclaim` comes back and the reference stays counted. -/
theorem Inv.leaveBehind (h : Inv s) (hpoint : s.point t = p) (hp : p.Pursues v)
    (hlock : p.Locked) (hnext : next = noteUnconsumed v (setPoint t .out (setLock none s))) :
    Inv next := by
  have hpursues : (s.point t).Pursues v := hpoint ▸ hp
  obtain ⟨haccount, hlisted, hcount, hleft⟩ := h.pursued hpursues
  have hmoved : next.point = Function.update s.point t .out := by
    rw [hnext]
    rfl
  have hconcerns : Concerns s next t v := by
    refine .of_move hmoved (about_ne hpoint hp.about) (fun _ _ h => h) ?_
    rw [hnext]
    exact fun w hw => ⟨rfl, rfl, Function.update_of_ne hw _ _, Iff.rfl⟩
  have hself : next.point t = .out := by
    rw [hmoved, Function.update_self]
  have haccount' : Account next v none := by
    refine ⟨?_, ?_, by simp, ?_⟩
    · intro u
      by_cases hu : u = t
      · subst hu
        simp [hself, Point.Pursues]
      · rw [hconcerns.points u hu, haccount.pursues u]
        simp [Ne.symm hu]
    · intro _
      rw [hnext]
      simp only [noteUnconsumed, setPoint, setLock, Function.update_self,
        Option.toList_none, List.length_nil]
      omega
    · rw [hnext]
      exact fun hnot => absurd hlisted hnot
  have hlisted' : next.Listed v := by
    rw [hnext]
    exact hlisted
  refine hconcerns.inv h none haccount' ?_ ?_ (fun _ _ => hlisted') ?_ ?_
  · exact hconcerns.locked_released h (hpoint ▸ hlock) (by simp [hself, Point.Locked])
  · rw [hnext]
    exact h.nodup
  · intro u hu
    by_cases hut : u = t
    · subst hut
      rw [hself] at hu
      cases hu
    · rw [hconcerns.points u hut] at hu
      rw [hnext]
      exact h.closing u v hu
  · intro u hu
    by_cases hut : u = t
    · subst hut
      rw [hself] at hu
      cases hu
    · rw [hconcerns.points u hut] at hu
      exact absurd hlisted (h.killing u v hu)

/-- Taking the vnode at its place out of the table takes nothing else out. -/
theorem ev_eraseIdx {vnodes : List EmufsVnode}
    (hnodup : (vnodes.map EmufsVnode.ev).Nodup)
    (hix : vnodes.findIdx? (fun evx => evx.ev == v) = some ix) :
    (vnodes.eraseIdx ix).map EmufsVnode.ev = (vnodes.map EmufsVnode.ev).erase v := by
  obtain ⟨hlt, hev, -⟩ := List.findIdx?_eq_some_iff_getElem.mp hix
  have hlt' : ix < (vnodes.map EmufsVnode.ev).length := by simpa using hlt
  have hget : (vnodes.map EmufsVnode.ev)[ix] = v := by simpa using hev
  rw [← List.eraseIdx_map, ← hnodup.erase_getElem ix hlt', hget]

theorem Inv.close (h : Inv s) (hpoint : s.point t = .closing v)
    (hrun : (Action.reclaimClose t v true).run s = .ok () next) : Inv next := by
  have hpursues : (s.point t).Pursues v := by
    rw [hpoint]
    rfl
  obtain ⟨haccount, hlisted, hcount, hleft⟩ := h.pursued hpursues
  have hone := h.closing t v hpoint
  cases hix : s.efVnodes.findIdx? fun evx => evx.ev == v with
  | none =>
      simp [Action.run, emufsReclaimClose, bind, Prog.andThen, Prog.get, hix,
        Prog.panic] at hrun
  | some ix =>
      have hnext : next = setPoint t (.killing v) (setLock none
          { s with efVnodes := s.efVnodes.eraseIdx ix }) := by
        simp only [Action.run, emufsReclaimClose, bind, Prog.andThen, Prog.get, hix,
          Prog.modify, if_true] at hrun
        cases hrun
        rfl
      have hvnodes : next.efVnodes.map EmufsVnode.ev =
          (s.efVnodes.map EmufsVnode.ev).erase v := by
        rw [hnext]
        exact ev_eraseIdx h.nodup hix
      have hnot : ¬next.Listed v := by
        rw [Listed, hvnodes, h.nodup.mem_erase_iff]
        exact fun hmem => hmem.1 rfl
      have hmoved : next.point = Function.update s.point t (.killing v) := by
        rw [hnext]
        rfl
      have hself : next.point t = .killing v := by
        rw [hmoved, Function.update_self]
      have hconcerns : Concerns s next t v := by
        refine .of_move hmoved (about_ne hpoint rfl) ?_ ?_
        · exact fun w hw heq => hw heq.symm
        · intro w hw
          have hlisted : next.Listed w ↔ s.Listed w := by
            rw [Listed, hvnodes, h.nodup.mem_erase_iff]
            exact ⟨fun hmem => hmem.2, fun hmem => ⟨hw, hmem⟩⟩
          refine ⟨?_, ?_, ?_, hlisted⟩ <;> rw [hnext] <;> rfl
      have haccount' : Account next v none := by
        refine ⟨?_, fun hmem => absurd hmem hnot, by simp, ?_⟩
        · intro u
          by_cases hu : u = t
          · subst hu
            simp [hself, Point.Pursues]
          · rw [hconcerns.points u hu, haccount.pursues u]
            simp [Ne.symm hu]
        · intro _
          rw [hnext]
          exact ⟨rfl, show s.held v = 0 by omega, hleft⟩
      have hothers : ∀ u, u ≠ t → ¬(s.point u).Locked := fun u hu hlocked =>
        hu (h.locked_unique (by rw [hpoint]; trivial) hlocked)
      refine hconcerns.inv h none haccount' ?_ ?_ ?_ ?_ (fun _ _ => hnot)
      · exact hconcerns.locked_released h (by rw [hpoint]; trivial)
          (by simp [hself, Point.Locked])
      · rw [hvnodes]
        exact h.nodup.erase v
      · intro u hu
        by_cases hut : u = t
        · subst hut
          rw [hself] at hu
          cases hu
        · rw [hconcerns.points u hut] at hu
          exact absurd (by rw [hu]; trivial) (hothers u hut)
      · intro u hu
        rw [hnext]
        exact hone

theorem Inv.kill (h : Inv s) (hpoint : s.point t = .killing v)
    (hrun : (Action.reclaimKill t v).run s = .ok () next) : Inv next := by
  have hnot := h.killing t v hpoint
  obtain ⟨pursuer, haccount⟩ := h.accounts v
  have hspec : ((Action.reclaimKill t v).run).wp
      (fun _ next => next = setPoint t .out (setRefcount v 0 s)) (fun _ _ => True)
      (fun _ => True) s := by
    simp only [Action.run, emufsReclaimKill, ↓Prog.wp_bind, ↓Prog.wp_get, ↓Prog.wp_assert,
      ↓Prog.wp_modify]
    split_ifs
  have hnext := hspec.post_of_ok hrun
  have hmoved : next.point = Function.update s.point t .out := by
    rw [hnext]
    rfl
  have hself : next.point t = .out := by
    rw [hmoved, Function.update_self]
  have hconcerns : Concerns s next t v := by
    refine .of_move hmoved (about_ne hpoint rfl) (fun _ _ h => h) ?_
    rw [hnext]
    exact fun w hw => ⟨Function.update_of_ne hw _ _, rfl, rfl, Iff.rfl⟩
  have hnot' : ¬next.Listed v := by
    rw [hnext]
    exact hnot
  have hpursues : ∀ u, (next.point u).Pursues v ↔ pursuer = some u := by
    intro u
    rw [← haccount.pursues u]
    by_cases hu : u = t
    · subst hu
      rw [hself, hpoint]
      exact Iff.rfl
    · rw [hconcerns.points u hu]
  have haccount' : Account next v pursuer := by
    refine ⟨hpursues, fun hmem => absurd hmem hnot', ?_, ?_⟩
    · rw [hnext]
      exact haccount.last
    · rw [hnext]
      exact fun _ => haccount.gone hnot
  refine hconcerns.inv h pursuer haccount' ?_ ?_ ?_ ?_ (fun _ _ => hnot')
  · intro u hu
    by_cases hut : u = t
    · subst hut
      rw [hself] at hu
      cases hu
    · rw [hconcerns.points u hut] at hu
      rw [hnext]
      exact h.locked u hu
  · rw [hnext]
    exact h.nodup
  · intro u hu
    by_cases hut : u = t
    · subst hut
      rw [hself] at hu
      cases hu
    · rw [hconcerns.points u hut] at hu
      exact absurd (h.found u v hu) hnot
  · intro u hu
    have hclosing : (next.point u).Pursues v := by
      rw [hu]
      rfl
    rw [hpursues u, (haccount.gone hnot).1] at hclosing
    cases hclosing

/-- A step of a thread that is not on its way to reclaim, and that leaves the
counts and the table alone. -/
theorem Inv.move (h : Inv s) (hp : ∀ v, ¬(s.point t).Pursues v)
    (hq : ∀ v, ¬q.Pursues v) (hnext : next = setPoint t q (setLock holder s))
    (hlocked : ∀ u, ((Function.update s.point t q) u).Locked → holder = some u)
    (hfound : ∀ v, q = .found v → s.Listed v) (hkill : ∀ v, q ≠ .killing v) :
    Inv next := by
  have hmoved : ∀ u, next.point u = s.point u ∨ (u = t ∧ next.point u = q) := by
    intro u
    rw [hnext]
    by_cases hu : u = t
    · exact .inr ⟨hu, by simp [setPoint, hu]⟩
    · exact .inl (Function.update_of_ne hu _ _)
  refine ⟨?_, ?_, ?_, ?_, ?_, ?_⟩
  · intro v
    obtain ⟨pursuer, haccount⟩ := h.accounts v
    refine ⟨pursuer, haccount.frame ?_ ?_ ?_ ?_ ?_⟩
    · intro u
      rcases hmoved u with hu | ⟨rfl, hu⟩
      · rw [hu]
      · rw [hu]
        exact ⟨fun hpursues => absurd hpursues (hq v), fun hpursues => absurd hpursues (hp v)⟩
    all_goals rw [hnext]; rfl
  · intro u hu
    rw [hnext] at hu ⊢
    exact hlocked u hu
  · rw [hnext]
    exact h.nodup
  · intro u v hu
    have hlisted : s.Listed v := by
      rcases hmoved u with hsame | ⟨-, hother⟩
      · exact h.found u v (hsame ▸ hu)
      · exact hfound v (hother.symm.trans hu)
    rw [hnext]
    exact hlisted
  · intro u v hu
    rcases hmoved u with hsame | ⟨-, hother⟩
    · rw [hnext]
      exact h.closing u v (hsame ▸ hu)
    · refine absurd ?_ (hq v)
      rw [← hother, hu]
      rfl
  · intro u v hu
    rcases hmoved u with hsame | ⟨-, hother⟩
    · rw [hnext]
      exact h.killing u v (hsame ▸ hu)
    · exact absurd (hother.symm.trans hu) (hkill v)

theorem Inv.loadEnter (h : Inv s) (hpoint : s.point t = .out) (hfree : s.eLock = none)
    (hrun : (Action.loadEnter t handle).run s = .ok () next) : Inv next := by
  have hnext : next = setPoint t (.loading handle) (setLock (some t) s) := by
    cases hrun
    rfl
  refine h.move (by simp [hpoint, Point.Pursues]) (by simp [Point.Pursues]) hnext ?_ (by simp)
    (by simp)
  intro u hu
  by_cases hut : u = t
  · rw [hut]
  · rw [Function.update_of_ne hut] at hu
    have := h.locked u hu
    rw [hfree] at this
    cases this

/-- A new vnode comes into the table with the one reference of its loader. -/
theorem Inv.create (h : Inv s) (hpoint : s.point t = .loading handle)
    (hnew : ¬s.Listed v) (hfree : ∀ u, s.point u ≠ .killing v)
    (hnext : next = setPoint t .out (setLock none (setHeld v (s.held v + 1)
      { setRefcount v 1 s with efVnodes := s.efVnodes ++ [⟨v, handle⟩] }))) :
    Inv next := by
  obtain ⟨pursuer, haccount⟩ := h.accounts v
  obtain ⟨rfl, hheld, hleft⟩ := haccount.gone hnew
  have hmoved : next.point = Function.update s.point t .out := by
    rw [hnext]
    rfl
  have hself : next.point t = .out := by
    rw [hmoved, Function.update_self]
  have hvnodes : next.efVnodes.map EmufsVnode.ev = s.efVnodes.map EmufsVnode.ev ++ [v] := by
    rw [hnext]
    simp [setPoint, setLock, setHeld]
  have hconcerns : Concerns s next t v := by
    refine .of_move hmoved (by simp [hpoint, Point.About]) (fun _ _ h => h) ?_
    intro w hw
    have hlisted : next.Listed w ↔ s.Listed w := by
      simp [Listed, hvnodes, hw]
    rw [hnext] at hlisted ⊢
    exact ⟨Function.update_of_ne hw _ _, Function.update_of_ne hw _ _, rfl, hlisted⟩
  have hlisted : next.Listed v := by simp [Listed, hvnodes]
  have haccount' : Account next v none := by
    refine ⟨?_, ?_, by simp, fun hnot => absurd hlisted hnot⟩
    · intro u
      by_cases hu : u = t
      · subst hu
        simp [hself, Point.Pursues]
      · rw [hconcerns.points u hu]
        exact haccount.pursues u
    · intro _
      rw [hnext]
      simp [setPoint, setLock, setHeld, setRefcount, hheld, hleft]
  have hlocked : (s.point t).Locked := by
    rw [hpoint]
    trivial
  refine hconcerns.inv h none haccount' ?_ ?_ (fun _ _ => hlisted) ?_ ?_
  · exact hconcerns.locked_released h hlocked (by simp [hself, Point.Locked])
  · rw [hvnodes]
    exact h.nodup.append (List.nodup_singleton v) (by simpa [Listed] using hnew)
  · intro u hu
    rw [hnext]
    exact Function.update_self _ _ _
  · intro u hu
    by_cases hut : u = t
    · subst hut
      rw [hself] at hu
      cases hu
    · rw [hconcerns.points u hut] at hu
      exact absurd hu (hfree u)

theorem Inv.loadSearch (h : Inv s) (hpoint : s.point t = .loading handle)
    (hnew : ∀ v ∈ mem, ¬s.Listed v ∧ ∀ u, s.point u ≠ .killing v)
    (hrun : (Action.loadSearch t handle mem).run s = .ok () next) : Inv next := by
  have hlocked : (s.point t).Locked := by
    rw [hpoint]
    trivial
  have hholds := h.locked t hlocked
  have hnone : ∀ v, ¬(s.point t).Pursues v := by simp [hpoint, Point.Pursues]
  cases hfind : s.efVnodes.find? fun ev => ev.evHandle == handle with
  | some ev =>
      have hnext : next = setPoint t (.found ev.ev) (setLock (some t) s) := by
        simp only [Action.run, emufsLoadvnodeSearch, bind, Prog.andThen, Prog.get,
          hfind] at hrun
        cases hrun
        rw [← hholds]
        rfl
      refine h.move hnone (by simp [Point.Pursues]) hnext ?_ ?_ (by simp)
      · intro u hu
        by_cases hut : u = t
        · rw [hut]
        · rw [Function.update_of_ne hut] at hu
          exact absurd (h.locked_unique hlocked hu) hut
      · intro v hv
        cases hv
        exact List.mem_map_of_mem (List.mem_of_find?_eq_some hfind)
  | none =>
      cases mem with
      | none =>
          have hnext : next = setPoint t .out (setLock none s) := by
            simp only [Action.run, emufsLoadvnodeSearch, bind, Prog.andThen, Prog.get,
              hfind] at hrun
            cases hrun
            rfl
          refine h.move hnone (by simp [Point.Pursues]) hnext ?_ (by simp) (by simp)
          intro u hu
          by_cases hut : u = t
          · subst hut
            rw [Function.update_self] at hu
            cases hu
          · rw [Function.update_of_ne hut] at hu
            exact absurd (h.locked_unique hlocked hu) hut
      | some v =>
          obtain ⟨hlisted, hfree⟩ := hnew v rfl
          refine h.create hpoint hlisted hfree ?_
          simp only [Action.run, emufsLoadvnodeSearch, bind, Prog.andThen, Prog.get,
            hfind] at hrun
          cases hrun
          rfl

theorem Inv.loadIncref (h : Inv s) (hpoint : s.point t = .found v)
    (hrun : (Action.loadIncref t v).run s = .ok () next) : Inv next := by
  have hlisted := h.found t v hpoint
  have hlocked : (s.point t).Locked := by
    rw [hpoint]
    trivial
  obtain ⟨pursuer, haccount⟩ := h.accounts v
  have hcount := haccount.counted hlisted
  have hnext : next = setPoint t .out (setLock none (setHeld v (s.held v + 1)
      (setRefcount v (s.vnRefcount v + 1) s))) := by
    cases hrun
    rfl
  have hmoved : next.point = Function.update s.point t .out := by
    rw [hnext]
    rfl
  have hself : next.point t = .out := by
    rw [hmoved, Function.update_self]
  have hconcerns : Concerns s next t v := by
    refine .of_move hmoved (about_ne hpoint rfl) (fun _ _ h => h) ?_
    rw [hnext]
    exact fun w hw => ⟨Function.update_of_ne hw _ _, Function.update_of_ne hw _ _, rfl,
      Iff.rfl⟩
  have hlisted' : next.Listed v := by
    rw [hnext]
    exact hlisted
  have haccount' : Account next v pursuer := by
    refine ⟨?_, ?_, ?_, fun hnot => absurd hlisted' hnot⟩
    · intro u
      rw [← haccount.pursues u]
      by_cases hu : u = t
      · subst hu
        rw [hself, hpoint]
        exact Iff.rfl
      · rw [hconcerns.points u hu]
    · intro _
      rw [hnext]
      simp only [setPoint, setLock, setHeld, setRefcount, Function.update_self]
      omega
    · rw [hnext]
      exact haccount.last
  refine hconcerns.inv h pursuer haccount' ?_ ?_ (fun _ _ => hlisted') ?_ ?_
  · exact hconcerns.locked_released h hlocked (by simp [hself, Point.Locked])
  · rw [hnext]
    exact h.nodup
  · intro u hu
    by_cases hut : u = t
    · subst hut
      rw [hself] at hu
      cases hu
    · -- whoever closes a vnode holds `e_lock`, and the loader holds it
      rw [hconcerns.points u hut] at hu
      have hother : (s.point u).Locked := by
        rw [hu]
        trivial
      exact absurd (h.locked_unique hlocked hother) hut
  · intro u hu
    by_cases hut : u = t
    · subst hut
      rw [hself] at hu
      cases hu
    · rw [hconcerns.points u hut] at hu
      exact absurd hlisted (h.killing u v hu)

theorem emufsReclaimCheck_spec (t : Tid) (v : VnodeId) (s : Emufs) :
    (emufsReclaimCheck t v).Returns (fun _ next =>
      if s.vnRefcount v ≠ 1 then next = noteUnconsumed v (setPoint t .out (setLock none s))
      else next = setPoint t (.closing v) s) s := by
  simp only [emufsReclaimCheck, ↓Prog.wp_bind, ↓Prog.wp_get, ↓Prog.wp_ite, ↓Prog.wp_modify]
  split <;> trivial

theorem Inv.step (h : Inv s) (hstep : Step s next) : Inv next := by
  obtain ⟨action, hallowed, hrun⟩ := hstep
  cases action with
  | incref v => exact h.incref hallowed hrun
  | decref t v => exact h.decref hallowed.1 hallowed.2 hrun
  | reclaimEnter t v =>
      obtain ⟨hpoint, hfree⟩ := hallowed
      have hnext : next = setPoint t (.entered v) (setLock (some t) s) := by
        cases hrun
        rfl
      refine h.pursue (q := .entered v) hpoint rfl rfl hnext ?_ (by simp)
      intro hconcerns
      exact hconcerns.locked_taken h hfree (by rw [hnext]; rfl)
  | reclaimCheck t v =>
      have hlocked : (s.point t).Locked := by
        rw [hallowed]
        trivial
      have hcheck := (emufsReclaimCheck_spec t v s).post_of_ok hrun
      by_cases hbusy : s.vnRefcount v ≠ 1
      · rw [if_pos hbusy] at hcheck
        exact h.leaveBehind hallowed rfl trivial hcheck
      · rw [if_neg hbusy] at hcheck
        have hnext : next = setPoint t (.closing v) (setLock (some t) s) := by
          rw [hcheck, ← h.locked t hlocked]
          rfl
        refine h.pursue (q := .closing v) hallowed rfl rfl hnext ?_ (fun _ => by omega)
        intro hconcerns u hu
        by_cases hut : u = t
        · rw [hut, hnext]
          rfl
        · rw [hconcerns.points u hut] at hu
          exact absurd (h.locked_unique hlocked hu) hut
  | reclaimClose t v closed =>
      cases closed with
      | true => exact h.close hallowed hrun
      | false =>
          refine h.leaveBehind hallowed rfl trivial ?_
          cases hrun
          rfl
  | reclaimKill t v => exact h.kill hallowed hrun
  | loadEnter t handle => exact h.loadEnter hallowed.1 hallowed.2 hrun
  | loadSearch t handle mem => exact h.loadSearch hallowed.1 hallowed.2 hrun
  | loadIncref t v => exact h.loadIncref hallowed hrun

end Steps

/-- The vnode is in the table with as many references counted as are held, or
it is gone and none is held. -/
def Accounted (s : Emufs) (v : VnodeId) : Prop :=
  if v ∈ s.efVnodes.map EmufsVnode.ev then s.vnRefcount v = s.held v ∧ 0 < s.held v
  else s.held v = 0

/-- After any interleaving, when all threads have finished their calls, a
vnode's count is right exactly if no `emufs_reclaim` of it came back by its
`EBUSY` exit or with an error of `emu_close`. -/
theorem refcount_accounted_iff (hrun : Relation.ReflTransGen Step emufsMount s)
    (hquiet : ∀ t, s.point t = .out) (v : VnodeId) :
    s.Accounted v ↔ s.unconsumed v = 0 := by
  have h : Inv s := invariant_of_steps Inv hrun emufsMount_inv fun _ _ => Inv.step
  obtain ⟨pursuer, haccount⟩ := h.accounts v
  have hnone : pursuer = none := by
    cases pursuer with
    | none => rfl
    | some t =>
        have hpursues := (haccount.pursues t).mpr rfl
        rw [hquiet t] at hpursues
        cases hpursues
  subst hnone
  unfold Accounted
  split
  case isTrue hlisted =>
    have hcount := haccount.counted hlisted
    simp only [Option.toList_none, List.length_nil] at hcount
    omega
  case isFalse hnot =>
    have hgone := haccount.gone hnot
    exact ⟨fun _ => hgone.2.2, fun _ => hgone.2.1⟩

end Emufs

namespace Action

def next (action : Action) (s : Emufs) : Emufs := (action.run s).stateD s

theorem step_next (action : Action) (hallowed : action.Allowed s)
    (hreturned : (action.run s).returned = some ()) : Step s (action.next s) :=
  ⟨action, hallowed, Result.eq_ok_of_returned s hreturned⟩

end Action

namespace Emufs

/-- Thread 1 opens handle 7 and drops the vnode's only reference, up to the
decision to reclaim. -/
def dropped : Emufs :=
  (Action.decref 1 10).next ((Action.loadSearch 1 7 (some 10)).next
    ((Action.loadEnter 1 7).next emufsMount))

theorem dropped_reached : Relation.ReflTransGen Step emufsMount dropped := by
  have hfresh : ∀ u, ((Action.loadEnter 1 7).next emufsMount).point u ≠ .killing 10 := by
    intro u
    have hpoint : ((Action.loadEnter 1 7).next emufsMount).point u =
        Function.update (fun _ => Point.out) 1 (.loading 7) u := rfl
    rw [hpoint, Function.update_apply]
    split <;> simp
  have hload : Step ((Action.loadEnter 1 7).next emufsMount)
      ((Action.loadSearch 1 7 (some 10)).next ((Action.loadEnter 1 7).next emufsMount)) := by
    refine Action.step_next _ ⟨rfl, ?_⟩ rfl
    rintro v ⟨rfl⟩
    exact ⟨List.not_mem_nil, hfresh⟩
  exact .tail (.tail (.single (Action.step_next (.loadEnter 1 7) ⟨rfl, rfl⟩ rfl)) hload)
    (Action.step_next (.decref 1 10) ⟨rfl, Nat.one_pos⟩ rfl)

/-- Nobody comes in between, and the vnode is reclaimed. -/
def reclaimed : Emufs :=
  (Action.reclaimKill 1 10).next ((Action.reclaimClose 1 10 true).next
    ((Action.reclaimCheck 1 10).next ((Action.reclaimEnter 1 10).next dropped)))

/-- Thread 2 loads the vnode again before thread 1 has entered
`emufs_reclaim`. -/
def reloaded : Emufs :=
  (Action.reclaimCheck 1 10).next ((Action.reclaimEnter 1 10).next
    ((Action.loadIncref 2 10).next ((Action.loadSearch 2 7 none).next
      ((Action.loadEnter 2 7).next dropped))))

theorem refcount_accounted_reclaimed :
    Relation.ReflTransGen Step emufsMount reclaimed ∧ reclaimed.Accounted 10 ∧
      reclaimed.efVnodes = [] := by
  have hrun : Relation.ReflTransGen Step emufsMount reclaimed :=
    .tail (.tail (.tail (.tail dropped_reached
      (Action.step_next (.reclaimEnter 1 10) ⟨rfl, rfl⟩ rfl))
      (Action.step_next (.reclaimCheck 1 10) rfl rfl))
      (Action.step_next (.reclaimClose 1 10 true) rfl rfl))
      (Action.step_next (.reclaimKill 1 10) rfl rfl)
  have hquiet : ∀ t, reclaimed.point t = .out
    | 0 => rfl
    | 1 => rfl
    | _ + 2 => rfl
  exact ⟨hrun, (refcount_accounted_iff hrun hquiet 10).mpr rfl, rfl⟩

/-- Thread 2 holds the only reference and two are counted; when it drops its
own, one stays for ever. -/
theorem refcount_left_behind :
    ∃ s, Relation.ReflTransGen Step emufsMount s ∧ (∀ t, s.point t = .out) ∧
      s.vnRefcount 10 = 2 ∧ s.held 10 = 1 ∧ ¬s.Accounted 10 := by
  have hrun : Relation.ReflTransGen Step emufsMount reloaded :=
    .tail (.tail (.tail (.tail (.tail dropped_reached
      (Action.step_next (.loadEnter 2 7) ⟨rfl, rfl⟩ rfl))
      (Action.step_next (.loadSearch 2 7 none) ⟨rfl, by simp⟩ rfl))
      (Action.step_next (.loadIncref 2 10) rfl rfl))
      (Action.step_next (.reclaimEnter 1 10) ⟨rfl, rfl⟩ rfl))
      (Action.step_next (.reclaimCheck 1 10) rfl rfl)
  have hquiet : ∀ t, reloaded.point t = .out
    | 0 => rfl
    | 1 => rfl
    | 2 => rfl
    | _ + 3 => rfl
  refine ⟨reloaded, hrun, hquiet, rfl, rfl, ?_⟩
  have hlisted : 10 ∈ reloaded.efVnodes.map EmufsVnode.ev := List.mem_singleton.mpr rfl
  rw [Accounted, if_pos hlisted]
  exact fun haccounted => absurd haccounted.1 (by decide)

end Emufs

end OS161.Dev
