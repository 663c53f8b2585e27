import Mathlib.Algebra.Group.Pi.Lemmas
import Mathlib.Tactic.Abel
import OS161.Data.Ledger
import OS161.Vfs.Path

namespace OS161.Vfs

open OS161.Data
open OS161.Kern

/-! What the VFS calls do to the reference counts and open counts of vnodes. -/

variable {σ : Type} {ops : VnodeOps σ} {vn : VnodeId}

/-- One reference to the vnode. -/
def reference (vn : VnodeId) : VnodeId → Int := Pi.single vn 1

/-- The references that the VFS layer stores itself. -/
def stored (s : VfsState σ) : VnodeId → Int :=
  s.tCwd.elim 0 reference + s.bootfsVnode.elim 0 reference

def refcounts (s : VfsState σ) : VnodeId → Int := fun vn => s.vnRefcount vn

def keptCounts (s : VfsState σ) : VnodeId → Int := fun vn => s.kept vn

def opencounts (s : VfsState σ) : VnodeId → Int := fun vn => s.vnOpencount vn

/-- The references that callers hold. -/
def lent (s : VfsState σ) : VnodeId → Int := refcounts s - keptCounts s - stored s

/-- What an operation of a file system leaves alone. -/
structure SameBooks (s s' : VfsState σ) : Prop where
  vnOpencount : s'.vnOpencount = s.vnOpencount
  kept : s'.kept = s.kept
  bootfsVnode : s'.bootfsVnode = s.bootfsVnode
  tCwd : s'.tCwd = s.tCwd

/-- An operation that hands out the references `given` of what it returns, and none when
it fails. -/
def HandsOut (body : Op σ α) (given : α → VnodeId → Int) : Prop :=
  ∀ s, Prog.wp body (fun value s' => SameBooks s s' ∧ refcounts s' = refcounts s + given value)
    (fun _ s' => SameBooks s s' ∧ refcounts s' = refcounts s) (fun _ => True) s

/-- What is asked of the file systems: lookups hand out one reference to the vnode that
they return, and the other operations none.  `FSOP_GETROOT` has no error code to return.
`VOP_RECLAIM` of a vnode makes it go away or leaves its count as it is. -/
structure VnodeOps.Balanced (ops : VnodeOps σ) : Prop where
  lookup : ∀ dir path, HandsOut (ops.vopLookup dir path) reference
  lookparent : ∀ dir path, HandsOut (ops.vopLookparent dir path) (fun r => reference r.1)
  creat : ∀ dir name excl, HandsOut (ops.vopCreat dir name excl) reference
  getroot : ∀ fs s, Prog.wp (ops.fsopGetroot fs)
    (fun vn s' => SameBooks s s' ∧ refcounts s' = refcounts s + reference vn)
    (fun _ _ => False) (fun _ => True) s
  vopOpen : ∀ vn flags, HandsOut (ops.vopOpen vn flags) (fun _ => 0)
  close : ∀ vn, HandsOut (ops.vopClose vn) (fun _ => 0)
  gettype : ∀ vn, HandsOut (ops.vopGettype vn) (fun _ => 0)
  truncate : ∀ vn len, HandsOut (ops.vopTruncate vn len) (fun _ => 0)
  link : ∀ dir name file, HandsOut (ops.vopLink dir name file) (fun _ => 0)
  remove : ∀ dir name, HandsOut (ops.vopRemove dir name) (fun _ => 0)
  rename : ∀ vn1 name1 vn2 name2, HandsOut (ops.vopRename vn1 name1 vn2 name2) (fun _ => 0)
  reclaim : ∀ vn s, Prog.wp (ops.vopReclaim vn)
    (fun _ s' => SameBooks s s' ∧
      (s'.vnRefcount = Function.update s.vnRefcount vn 0 ∨ s'.vnRefcount = s.vnRefcount))
    (fun _ s' => SameBooks s s' ∧ s'.vnRefcount = s.vnRefcount) (fun _ => True) s

theorem stored_congr {s s' : VfsState σ} (hsame : SameBooks s s') : stored s' = stored s := by
  rw [stored, stored, hsame.tCwd, hsame.bootfsVnode]

theorem lent_congr {s s' : VfsState σ} (hsame : SameBooks s s') (h : refcounts s' = refcounts s + given) :
    lent s' = lent s + given := by
  have hkept : keptCounts s' = keptCounts s := by
    funext vn
    rw [keptCounts, keptCounts, hsame.kept]
  rw [lent, lent, stored_congr hsame, hkept, h]
  abel

theorem HandsOut.lent {body : Op σ α} {given : α → VnodeId → Int} (hbody : HandsOut body given) :
    Moves lent body given 0 := by
  intro s
  refine Prog.wp_mono (hbody s) ?_ ?_ (fun _ h => h)
  · intro value s' hs'
    exact lent_congr hs'.1 hs'.2
  · intro code s' hs'
    apply lent_congr hs'.1
    rw [hs'.2, add_zero]

/-- Counts that the file systems leave alone. -/
theorem HandsOut.same {owed : VfsState σ → VnodeId → Int}
    (howed : ∀ s s', SameBooks s s' → owed s' = owed s + 0) {body : Op σ α}
    {given : α → VnodeId → Int} (hbody : HandsOut body given) :
    Moves owed body (fun _ => 0) 0 := by
  intro s
  refine Prog.wp_mono (hbody s) ?_ ?_ (fun _ h => h)
  · intro value s' hs'
    exact howed s s' hs'.1
  · intro code s' hs'
    exact howed s s' hs'.1

theorem opencounts_congr (s s' : VfsState σ) (hsame : SameBooks s s') :
    opencounts s' = opencounts s + 0 := by
  funext vn
  simp [opencounts, hsame.vnOpencount]

theorem keptCounts_congr (s s' : VfsState σ) (hsame : SameBooks s s') :
    keptCounts s' = keptCounts s + 0 := by
  funext vn
  simp [keptCounts, hsame.kept]

/-! Counts. -/

theorem update_counts (counts : VnodeId → Nat) (vn : VnodeId) (n : Nat) :
    (fun w => ((Function.update counts vn n w : Nat) : Int)) =
      (fun w => (counts w : Int)) + Pi.single vn ((n : Int) - counts vn) := by
  funext w
  by_cases heq : w = vn
  · subst heq
    simp
  · simp [heq]

theorem vnodeCheck_moves {owed : VfsState σ → VnodeId → Int} {err : VnodeId → Int}
    (vn : VnodeId) : Moves owed (vnodeCheck vn : Op σ Unit) (fun _ => 0) err := by
  intro s
  simp only [vnodeCheck, ↓Prog.wp_bind, ↓Prog.wp_get, ↓Prog.wp_assert]
  split
  case isTrue => exact (add_zero _).symm
  case isFalse => trivial

theorem vop_moves {owed : VfsState σ → VnodeId → Int} {body : Op σ α}
    {ok : α → VnodeId → Int} {err : VnodeId → Int} (hbody : Moves owed body ok err)
    (vn : VnodeId) : Moves owed (vop vn body) ok err := by
  apply Moves.bind (vnodeCheck_moves vn)
  intro _
  apply hbody.mono
  · intro value
    exact (sub_zero _).symm
  · exact (sub_zero _).symm

theorem vnodeIncref_lent {err : VnodeId → Int} (vn : VnodeId) :
    Moves lent (vnodeIncref vn : Op σ Unit) (fun _ => reference vn) err := by
  intro s
  have hcount := update_counts s.vnRefcount vn (s.vnRefcount vn + 1)
  rw [Nat.cast_add, Nat.cast_one, add_sub_cancel_left] at hcount
  exact lent_congr ⟨rfl, rfl, rfl, rfl⟩ hcount

theorem noteKept_lent (s : VfsState σ) (vn : VnodeId) :
    lent { s with kept := Function.update s.kept vn (s.kept vn + s.vnRefcount vn) } =
      lent s - Pi.single vn (s.vnRefcount vn : Int) := by
  have hcount := update_counts s.kept vn (s.kept vn + s.vnRefcount vn)
  rw [Nat.cast_add, add_sub_cancel_left] at hcount
  show refcounts s - (fun w => ((Function.update s.kept vn _ w : Nat) : Int)) - stored s =
    refcounts s - keptCounts s - stored s - _
  rw [hcount]
  show refcounts s - (keptCounts s + _) - stored s = _
  abel

/-- A drop takes one reference back: the count goes down, or the vnode goes away, or it is
kept. -/
theorem vnodeDecref_lent (hops : ops.Balanced) {err : VnodeId → Int} (vn : VnodeId) :
    Moves lent (vnodeDecref ops vn) (fun _ => -reference vn) err := by
  intro s
  simp only [vnodeDecref, ↓Prog.wp_bind, ↓Prog.wp_get, ↓Prog.wp_assert, ↓Prog.wp_ite]
  split
  case isFalse => trivial
  case isTrue hpos =>
  split
  case isTrue hmany =>
      have hcount := update_counts s.vnRefcount vn (s.vnRefcount vn - 1)
      rw [Nat.cast_sub (by omega), Nat.cast_one, sub_sub_cancel_left, Pi.single_neg] at hcount
      exact lent_congr ⟨rfl, rfl, rfl, rfl⟩ hcount
  case isFalse hlast =>
  have hone : s.vnRefcount vn = 1 := by
    omega
  have hkept (s' : VfsState σ) (hsame : SameBooks s s') (hcounts : s'.vnRefcount = s.vnRefcount) :
      lent { s' with kept := Function.update s'.kept vn (s'.kept vn + s'.vnRefcount vn) } =
        lent s + -reference vn := by
    have hlent : lent s' = lent s + 0 := by
      apply lent_congr hsame
      funext w
      simp [refcounts, hcounts]
    rw [noteKept_lent, hlent, hcounts, hone]
    simp [reference, sub_eq_add_neg]
  have hgone (s' : VfsState σ) (hsame : SameBooks s s')
      (hcounts : s'.vnRefcount = Function.update s.vnRefcount vn 0) :
      lent { s' with kept := Function.update s'.kept vn (s'.kept vn + s'.vnRefcount vn) } =
        lent s + -reference vn := by
    have hcount := update_counts s.vnRefcount vn 0
    have hlent : lent s' = lent s + -reference vn := by
      apply lent_congr hsame
      funext w
      have hw := congrFun hcount w
      rw [hone] at hw
      simp only [refcounts, hcounts]
      rw [hw]
      simp [reference, refcounts, Pi.single_neg]
    rw [noteKept_lent, hlent, hcounts]
    simp
  simp only [↓Prog.wp_attempt, noteKept, ↓Prog.wp_modify]
  refine Prog.wp_mono (hops.reclaim vn s) ?_ ?_ (fun _ h => h)
  · intro _ s' hs'
    cases hs'.2 with
    | inl hcounts => exact hgone s' hs'.1 hcounts
    | inr hcounts => exact hkept s' hs'.1 hcounts
  · intro _ s' hs'
    exact hkept s' hs'.1 hs'.2

theorem vnodeIncopen_lent {err : VnodeId → Int} (vn : VnodeId) :
    Moves lent (vnodeIncopen vn : Op σ Unit) (fun _ => 0) err := by
  intro s
  exact (add_zero _).symm

theorem vnodeDecopen_lent (hops : ops.Balanced) {err : VnodeId → Int} (vn : VnodeId) :
    Moves lent (vnodeDecopen ops vn) (fun _ => 0) err := by
  intro s
  simp only [vnodeDecopen, setOpencount, ↓Prog.wp_bind, ↓Prog.wp_get, ↓Prog.wp_assert,
    ↓Prog.wp_modify, ↓Prog.wp_when]
  split
  case isFalse => trivial
  case isTrue =>
  split
  case isFalse => exact (add_zero _).symm
  case isTrue =>
      have hclose := vop_moves (hops.close vn).lent vn
      simp only [↓Prog.wp_attempt, ↓Prog.wp_pure]
      exact Prog.wp_mono (hclose _) (fun _ _ h => h) (fun _ _ h => h) (fun _ h => h)

theorem exchangeCwd_lent {err : VnodeId → Int} (dir : VnodeId) :
    Moves lent (exchangeCwd dir : Op σ (Option VnodeId))
      (fun old => old.elim 0 reference - reference dir) err := by
  intro s
  show refcounts s - keptCounts s - (reference dir + s.bootfsVnode.elim 0 reference) =
    refcounts s - keptCounts s - (s.tCwd.elim 0 reference + s.bootfsVnode.elim 0 reference) +
      (s.tCwd.elim 0 reference - reference dir)
  abel

theorem exchangeBootfs_lent {err : VnodeId → Int} (newguy : Option VnodeId) :
    Moves lent (exchangeBootfs newguy : Op σ (Option VnodeId))
      (fun old => old.elim 0 reference - newguy.elim 0 reference) err := by
  intro s
  show refcounts s - keptCounts s - (s.tCwd.elim 0 reference + newguy.elim 0 reference) =
    refcounts s - keptCounts s - (s.tCwd.elim 0 reference + s.bootfsVnode.elim 0 reference) +
      (s.bootfsVnode.elim 0 reference - newguy.elim 0 reference)
  abel

/-! Open counts. -/

theorem vnodeDecref_opencounts (hops : ops.Balanced) {err : VnodeId → Int} (vn : VnodeId) :
    Moves opencounts (vnodeDecref ops vn) (fun _ => 0) err := by
  intro s
  simp only [vnodeDecref, setRefcount, noteKept, ↓Prog.wp_bind, ↓Prog.wp_get, ↓Prog.wp_assert,
    ↓Prog.wp_ite, ↓Prog.wp_modify, ↓Prog.wp_attempt]
  split
  case isFalse => trivial
  case isTrue =>
  split
  case isTrue => exact (add_zero _).symm
  case isFalse =>
      refine Prog.wp_mono (hops.reclaim vn s) ?_ ?_ (fun _ h => h)
      · intro _ s' hs'
        exact opencounts_congr s s' hs'.1
      · intro _ s' hs'
        exact opencounts_congr s s' hs'.1

theorem vnodeIncopen_opencounts {err : VnodeId → Int} (vn : VnodeId) :
    Moves opencounts (vnodeIncopen vn : Op σ Unit) (fun _ => reference vn) err := by
  intro s
  have hcount := update_counts s.vnOpencount vn (s.vnOpencount vn + 1)
  rw [Nat.cast_add, Nat.cast_one, add_sub_cancel_left] at hcount
  exact hcount

theorem vnodeDecopen_opencounts (hops : ops.Balanced) {err : VnodeId → Int} (vn : VnodeId) :
    Moves opencounts (vnodeDecopen ops vn) (fun _ => -reference vn) err := by
  intro s
  simp only [vnodeDecopen, setOpencount, ↓Prog.wp_bind, ↓Prog.wp_get, ↓Prog.wp_assert,
    ↓Prog.wp_modify, ↓Prog.wp_when]
  split
  case isFalse => trivial
  case isTrue hpos =>
  have hcount := update_counts s.vnOpencount vn (s.vnOpencount vn - 1)
  rw [Nat.cast_sub (by omega), Nat.cast_one, sub_sub_cancel_left, Pi.single_neg] at hcount
  split
  case isFalse => exact hcount
  case isTrue =>
      have hclose := vop_moves ((hops.close vn).same opencounts_congr) vn
      simp only [↓Prog.wp_attempt, ↓Prog.wp_pure]
      refine Prog.wp_mono (hclose _) ?_ ?_ (fun _ h => h)
      · intro _ s' hs'
        rw [hs', add_zero]
        exact hcount
      · intro _ s' hs'
        rw [hs', add_zero]
        exact hcount

/-! Both at once. -/

/-- Counts kept for each vnode: a reference is worth `each` of it and an open `opened`. -/
structure Books (ops : VnodeOps σ) (owed : VfsState σ → VnodeId → Int)
    (each opened : VnodeId → VnodeId → Int) : Prop where
  incref : ∀ vn err, Moves owed (vnodeIncref vn) (fun _ => each vn) err
  decref : ∀ vn err, Moves owed (vnodeDecref ops vn) (fun _ => -each vn) err
  incopen : ∀ vn err, Moves owed (vnodeIncopen vn) (fun _ => opened vn) err
  decopen : ∀ vn err, Moves owed (vnodeDecopen ops vn) (fun _ => -opened vn) err
  exchangeCwd : ∀ dir err, Moves owed (exchangeCwd dir)
    (fun old => old.elim 0 each - each dir) err
  exchangeBootfs : ∀ newguy err, Moves owed (exchangeBootfs newguy)
    (fun old => old.elim 0 each - newguy.elim 0 each) err
  lookup : ∀ dir path, Moves owed (ops.vopLookup dir path) each 0
  lookparent : ∀ dir path, Moves owed (ops.vopLookparent dir path) (fun r => each r.1) 0
  creat : ∀ dir name excl, Moves owed (ops.vopCreat dir name excl) each 0
  getroot : ∀ fs err, Moves owed (ops.fsopGetroot fs) each err
  vopOpen : ∀ vn flags, Moves owed (ops.vopOpen vn flags) (fun _ => 0) 0
  gettype : ∀ vn, Moves owed (ops.vopGettype vn) (fun _ => 0) 0
  truncate : ∀ vn len, Moves owed (ops.vopTruncate vn len) (fun _ => 0) 0
  link : ∀ dir name file, Moves owed (ops.vopLink dir name file) (fun _ => 0) 0
  remove : ∀ dir name, Moves owed (ops.vopRemove dir name) (fun _ => 0) 0
  rename : ∀ vn1 name1 vn2 name2, Moves owed (ops.vopRename vn1 name1 vn2 name2) (fun _ => 0) 0

theorem VnodeOps.Balanced.references (hops : ops.Balanced) : Books ops lent reference 0 where
  incref vn _ := vnodeIncref_lent vn
  decref vn _ := vnodeDecref_lent hops vn
  incopen vn _ := vnodeIncopen_lent vn
  decopen vn _ := (vnodeDecopen_lent hops vn).mono (fun _ => neg_zero.symm) rfl
  exchangeCwd dir _ := exchangeCwd_lent dir
  exchangeBootfs newguy _ := exchangeBootfs_lent newguy
  lookup dir path := (hops.lookup dir path).lent
  lookparent dir path := (hops.lookparent dir path).lent
  creat dir name excl := (hops.creat dir name excl).lent
  getroot fs _ s := Prog.wp_mono (hops.getroot fs s) (fun _ _ h => lent_congr h.1 h.2)
    (fun _ _ h => h.elim) (fun _ h => h)
  vopOpen vn flags := (hops.vopOpen vn flags).lent
  gettype vn := (hops.gettype vn).lent
  truncate vn len := (hops.truncate vn len).lent
  link dir name file := (hops.link dir name file).lent
  remove dir name := (hops.remove dir name).lent
  rename vn1 name1 vn2 name2 := (hops.rename vn1 name1 vn2 name2).lent

theorem elim_zero (vn : Option VnodeId) :
    vn.elim (0 : VnodeId → Int) (0 : VnodeId → VnodeId → Int) = 0 := by
  cases vn with
  | none => rfl
  | some vn => rfl

/-- Counts in which a reference is worth nothing. -/
theorem VnodeOps.Balanced.untouched (hops : ops.Balanced)
    {owed : VfsState σ → VnodeId → Int} {opened : VnodeId → VnodeId → Int}
    (howed : ∀ s s', SameBooks s s' → owed s' = owed s + 0)
    (hrefcount : ∀ s vn n, owed { s with vnRefcount := Function.update s.vnRefcount vn n } = owed s)
    (hcwd : ∀ s cwd, owed { s with tCwd := cwd } = owed s)
    (hbootfs : ∀ s bootfs, owed { s with bootfsVnode := bootfs } = owed s)
    (hdecref : ∀ vn err, Moves owed (vnodeDecref ops vn) (fun _ => 0) err)
    (hincopen : ∀ vn err, Moves owed (vnodeIncopen vn) (fun _ => opened vn) err)
    (hdecopen : ∀ vn err, Moves owed (vnodeDecopen ops vn) (fun _ => -opened vn) err) :
    Books ops owed 0 opened where
  incref vn _ s := (hrefcount s vn _).trans (add_zero _).symm
  decref vn err := (hdecref vn err).mono (fun _ => neg_zero.symm) rfl
  incopen := hincopen
  decopen := hdecopen
  exchangeCwd dir _ s := by
    show owed { s with tCwd := some dir } = owed s + (s.tCwd.elim 0 0 - 0)
    rw [hcwd, elim_zero, sub_zero, add_zero]
  exchangeBootfs newguy _ s := by
    show owed { s with bootfsVnode := newguy } =
      owed s + (s.bootfsVnode.elim 0 0 - newguy.elim 0 0)
    rw [hbootfs, elim_zero, elim_zero, sub_zero, add_zero]
  lookup dir path := (hops.lookup dir path).same howed
  lookparent dir path := (hops.lookparent dir path).same howed
  creat dir name excl := (hops.creat dir name excl).same howed
  getroot fs _ s := Prog.wp_mono (hops.getroot fs s) (fun _ s' h => howed s s' h.1)
    (fun _ _ h => h.elim) (fun _ h => h)
  vopOpen vn flags := (hops.vopOpen vn flags).same howed
  gettype vn := (hops.gettype vn).same howed
  truncate vn len := (hops.truncate vn len).same howed
  link dir name file := (hops.link dir name file).same howed
  remove dir name := (hops.remove dir name).same howed
  rename vn1 name1 vn2 name2 := (hops.rename vn1 name1 vn2 name2).same howed

theorem VnodeOps.Balanced.opens (hops : ops.Balanced) : Books ops opencounts 0 reference :=
  hops.untouched opencounts_congr (fun _ _ _ => rfl) (fun _ _ => rfl) (fun _ _ => rfl)
    (fun vn _ => vnodeDecref_opencounts hops vn) (fun vn _ => vnodeIncopen_opencounts vn)
    (fun vn _ => vnodeDecopen_opencounts hops vn)

/-- Every `VOP_RECLAIM` makes its vnode go away. -/
def VnodeOps.Reclaims (ops : VnodeOps σ) : Prop :=
  ∀ vn s, Prog.wp (ops.vopReclaim vn) (fun _ s' => s'.vnRefcount vn = 0) (fun _ _ => False)
    (fun _ => True) s

theorem vnodeDecref_kept (hops : ops.Balanced) (hreclaims : ops.Reclaims)
    {err : VnodeId → Int} (vn : VnodeId) :
    Moves keptCounts (vnodeDecref ops vn) (fun _ => 0) err := by
  intro s
  simp only [vnodeDecref, setRefcount, noteKept, ↓Prog.wp_bind, ↓Prog.wp_get, ↓Prog.wp_assert,
    ↓Prog.wp_ite, ↓Prog.wp_modify, ↓Prog.wp_attempt]
  split
  case isFalse => trivial
  case isTrue =>
  split
  case isTrue => exact (add_zero _).symm
  case isFalse =>
      refine Prog.wp_mono (Prog.wp_and (hops.reclaim vn s) (hreclaims vn s)) ?_
        (fun _ _ h => h.2.elim) (fun _ h => h.1)
      rintro _ s' ⟨⟨hsame, -⟩, hgone⟩
      rw [hgone, Nat.add_zero, Function.update_eq_self]
      exact keptCounts_congr s s' hsame

theorem VnodeOps.Balanced.keeps (hops : ops.Balanced) (hreclaims : ops.Reclaims) :
    Books ops keptCounts 0 0 := by
  apply hops.untouched keptCounts_congr (fun _ _ _ => rfl) (fun _ _ => rfl) (fun _ _ => rfl)
    (fun vn _ => vnodeDecref_kept hops hreclaims vn)
  · intro vn err s
    exact (add_zero _).symm
  · intro vn err s
    simp only [vnodeDecopen, setOpencount, ↓Prog.wp_bind, ↓Prog.wp_get, ↓Prog.wp_assert,
      ↓Prog.wp_modify, ↓Prog.wp_when]
    split
    case isFalse => trivial
    case isTrue =>
    split
    case isFalse => exact (add_zero _).symm
    case isTrue =>
        have hclose := vop_moves ((hops.close vn).same keptCounts_congr) vn
        simp only [↓Prog.wp_attempt, ↓Prog.wp_pure]
        exact Prog.wp_mono (hclose _) (fun _ _ h => h) (fun _ _ h => h) (fun _ h => h)

namespace Books

variable {owed : VfsState σ → VnodeId → Int} {each opened : VnodeId → VnodeId → Int}
variable {err : VnodeId → Int}

theorem vfsGetcurdir (h : Books ops owed each opened) :
    Moves owed (vfsGetcurdir : Op σ VnodeId) each 0 := by
  apply Moves.bind Moves.get
  intro s
  split
  case h_1 cwd _ =>
      apply Moves.bind (h.incref cwd _)
      intro _
      apply Moves.pure
      abel
  case h_2 =>
      apply Moves.fail
      abel

theorem vfsGetroot (h : Books ops owed each opened) (devname : CString) :
    Moves owed (vfsGetroot ops devname) each 0 := by
  apply Moves.bind Moves.get
  intro s
  split
  case h_1 fs _ =>
      apply (h.getroot fs _).mono
      · intro vn
        exact (sub_zero _).symm
      · rfl
  case h_2 vnode _ =>
      apply Moves.bind (h.incref vnode _)
      intro _
      apply Moves.pure
      abel
  case h_3 =>
      apply Moves.fail
      abel
  case h_4 reason _ => exact Moves.panic reason

theorem dropOld (h : Books ops owed each opened) (old : Option VnodeId) :
    Moves owed (dropOld ops old) (fun _ => -old.elim 0 each) err := by
  cases old with
  | none => exact Moves.pure neg_zero
  | some old => exact h.decref old _

theorem vfsSetcurdir (h : Books ops owed each opened) (dir : VnodeId) :
    Moves owed (vfsSetcurdir ops dir) 0 0 := by
  apply Moves.bind (vop_moves (h.gettype dir) dir)
  intro vtype
  apply Moves.bind (Moves.guard (sub_self 0))
  intro _
  apply Moves.bind (h.incref dir _)
  intro _
  apply Moves.bind (h.exchangeCwd dir _)
  intro old
  apply (h.dropOld old).mono
  · intro _
    abel
  · rfl

theorem thenDecref (h : Books ops owed each opened) {body : Op σ α} {ok : α → VnodeId → Int}
    (vn : VnodeId) (hbody : Moves owed body ok err) :
    Moves owed (thenDecref ops vn body) (fun value => ok value - each vn) (err - each vn) := by
  apply Moves.bind hbody.attempt
  intro result
  apply Moves.bind (h.decref vn _)
  intro _
  cases result with
  | ok value =>
      apply Moves.pure
      abel
  | error code =>
      apply Moves.fail
      abel

theorem rootOf (h : Books ops owed each opened) (first : Byte) :
    Moves owed (rootOf ops first) each 0 := by
  unfold Vfs.rootOf
  split
  case isTrue =>
      apply Moves.bind Moves.get
      intro s
      split
      case h_1 => exact Moves.fail (sub_self 0)
      case h_2 bootfs _ =>
          apply Moves.bind (h.incref bootfs _)
          intro _
          apply Moves.pure
          abel
  case isFalse =>
      apply Moves.bind h.vfsGetcurdir
      intro vn
      apply Moves.bind Moves.get
      intro s
      split
      case h_1 => exact Moves.panic _
      case h_2 fs _ =>
          apply Moves.bind (h.getroot fs _)
          intro startvn
          apply Moves.bind (h.decref vn _)
          intro _
          apply Moves.pure
          abel

theorem getdevice (h : Books ops owed each opened) (path : CString) :
    Moves owed (getdevice ops path) (fun r => each r.2) 0 := by
  have hstart (body : Op σ VnodeId) (subpath : CString) (hbody : Moves owed body each 0) :
      Moves owed (do let startvn ← body; pure (subpath, startvn)) (fun r => each r.2) 0 := by
    apply Moves.bind hbody
    intro startvn
    exact Moves.pure (sub_self _)
  unfold Vfs.getdevice
  split
  case h_1 first rest _ => exact hstart _ _ (h.rootOf first)
  case h_2 =>
      split
      case isTrue => exact hstart _ _ (h.vfsGetroot _)
      case isFalse => exact hstart _ _ h.vfsGetcurdir
  case h_3 => exact hstart _ _ h.vfsGetcurdir

theorem vfsLookparent (h : Books ops owed each opened) (path : CString) :
    Moves owed (vfsLookparent ops path) (fun r => each r.1) 0 := by
  apply Moves.bind (h.getdevice path)
  rintro ⟨subpath, startvn⟩
  apply h.thenDecref startvn
  split
  case isTrue => exact Moves.fail rfl
  case isFalse => exact vop_moves (h.lookparent startvn subpath) startvn

theorem vfsLookup (h : Books ops owed each opened) (path : CString) :
    Moves owed (vfsLookup ops path) each 0 := by
  apply Moves.bind (h.getdevice path)
  rintro ⟨subpath, startvn⟩
  dsimp only
  split
  case isTrue => exact Moves.pure (sub_self _)
  case isFalse =>
      exact h.thenDecref startvn (vop_moves (h.lookup startvn subpath) startvn)

theorem vfsChdir (h : Books ops owed each opened) (path : CString) :
    Moves owed (vfsChdir ops path) (fun _ => 0) 0 := by
  apply Moves.bind (h.vfsLookup path)
  intro vn
  exact h.thenDecref vn (h.vfsSetcurdir vn)

theorem changeBootfs (h : Books ops owed each opened) (newguy : VnodeId) :
    Moves owed (changeBootfs ops (some newguy)) (fun _ => -each newguy) err := by
  apply Moves.bind (h.exchangeBootfs (some newguy) _)
  intro old
  apply (h.dropOld old).mono
  · intro _
    show -old.elim 0 each = -each newguy - (old.elim 0 each - each newguy)
    abel
  · rfl

theorem vfsSetbootfs (h : Books ops owed each opened) (fsname : CString) :
    Moves owed (vfsSetbootfs ops fsname) (fun _ => 0) 0 := by
  unfold Vfs.vfsSetbootfs
  dsimp only
  split
  case isTrue => exact Moves.fail rfl
  case isFalse =>
      have hchange : Moves owed (do
          let newguy ← Vfs.vfsGetcurdir
          Vfs.changeBootfs ops (some newguy)) (fun _ => 0) 0 := by
        apply Moves.bind h.vfsGetcurdir
        intro newguy
        apply (h.changeBootfs newguy).mono
        · intro _
          exact (zero_sub _).symm
        · rfl
      apply Moves.bind (h.vfsChdir _)
      intro _
      exact hchange.mono (fun _ => (sub_zero _).symm) (sub_zero _).symm

theorem openVnode (h : Books ops owed each opened) (path : CString) (openflags : Nat) :
    Moves owed (openVnode ops path openflags) each 0 := by
  unfold Vfs.openVnode
  split
  case isTrue =>
      apply Moves.bind (h.vfsLookparent path)
      rintro ⟨dir, name⟩
      exact h.thenDecref dir (vop_moves (h.creat dir name _) dir)
  case isFalse => exact h.vfsLookup path

theorem openUndo {β : Type} (h : Books ops owed each opened) (vn : VnodeId) (code : Errno)
    {ok : β → VnodeId → Int} :
    Moves owed (openUndo ops vn code : Op σ β) ok (-opened vn - each vn) := by
  apply Moves.bind (h.decopen vn _)
  intro _
  apply Moves.bind (h.decref vn _)
  intro _
  apply Moves.fail
  abel

theorem openTruncate (h : Books ops owed each opened) (vn : VnodeId) (canwrite : Bool) :
    Moves owed (openTruncate ops vn canwrite) (fun _ => 0) 0 := by
  unfold Vfs.openTruncate
  split
  case isTrue => exact Moves.fail rfl
  case isFalse => exact vop_moves (h.truncate vn 0) vn

theorem vfsOpen (h : Books ops owed each opened) (path : CString) (openflags : Nat) :
    Moves owed (vfsOpen ops path openflags) (fun vn => each vn + opened vn) 0 := by
  apply Moves.bind (Moves.guard rfl)
  intro _
  apply Moves.bind ((h.openVnode path openflags).mono (fun _ => rfl) (sub_zero _).symm)
  intro vn
  apply Moves.bind (vop_moves (h.vopOpen vn openflags) vn).attempt
  intro result
  cases result with
  | error code =>
      apply Moves.bind (h.decref vn _)
      intro _
      apply Moves.fail
      abel
  | ok _ =>
      apply Moves.bind (h.incopen vn _)
      intro _
      dsimp only
      split
      case isTrue =>
          apply Moves.bind (h.openTruncate vn _).attempt
          intro truncated
          cases truncated with
          | error code =>
              apply (h.openUndo vn code).mono
              · intro _
                rfl
              · abel
          | ok _ =>
              apply Moves.pure
              abel
      case isFalse =>
          apply Moves.pure
          abel

theorem vfsClose (h : Books ops owed each opened) (vn : VnodeId) :
    Moves owed (vfsClose ops vn) (fun _ => -each vn - opened vn) err := by
  apply Moves.bind (h.decopen vn _)
  intro _
  apply (h.decref vn _).mono
  · intro _
    abel
  · rfl

theorem vfsRemove (h : Books ops owed each opened) (path : CString) :
    Moves owed (vfsRemove ops path) (fun _ => 0) 0 := by
  apply Moves.bind (h.vfsLookparent path)
  rintro ⟨dir, name⟩
  exact h.thenDecref dir (vop_moves (h.remove dir name) dir)

theorem sameFs {body : Op σ Unit} (hbody : Moves owed body (fun _ => 0) 0)
    (vn vn' : VnodeId) : Moves owed (sameFs vn vn' body) (fun _ => 0) 0 := by
  apply Moves.bind Moves.get
  intro s
  split
  case isTrue => exact Moves.fail (sub_zero _)
  case isFalse => exact hbody.mono (fun _ => (sub_zero _).symm) (sub_zero _).symm

theorem vfsRename (h : Books ops owed each opened) (oldpath newpath : CString) :
    Moves owed (vfsRename ops oldpath newpath) (fun _ => 0) 0 := by
  apply Moves.bind (h.vfsLookparent oldpath)
  rintro ⟨olddir, oldname⟩
  apply h.thenDecref olddir
  apply Moves.bind (h.vfsLookparent newpath)
  rintro ⟨newdir, newname⟩
  exact h.thenDecref newdir
    (sameFs (vop_moves (h.rename olddir oldname newdir newname) olddir) olddir newdir)

theorem vfsLink (h : Books ops owed each opened) (oldpath newpath : CString) :
    Moves owed (vfsLink ops oldpath newpath) (fun _ => 0) 0 := by
  apply Moves.bind (h.vfsLookup oldpath)
  intro oldfile
  apply h.thenDecref oldfile
  apply Moves.bind (h.vfsLookparent newpath)
  rintro ⟨newdir, newname⟩
  exact h.thenDecref newdir
    (sameFs (vop_moves (h.link newdir newname oldfile) newdir) oldfile newdir)

end Books

/-! The calls. -/

inductive VfsCall where
  | vfsOpen (path : CString) (openflags : Nat)
  | vfsClose (vn : VnodeId)
  | vfsRemove (path : CString)
  | vfsRename (oldpath newpath : CString)
  | vfsLink (oldpath newpath : CString)
  | vfsChdir (path : CString)
  | vfsSetbootfs (fsname : CString)

/-- A call with the vnode that it returns. -/
def VfsCall.run (ops : VnodeOps σ) : VfsCall → Op σ (Option VnodeId)
  | .vfsOpen path openflags => do
      let vn ← Vfs.vfsOpen ops path openflags
      pure (some vn)
  | .vfsClose vn => do
      Vfs.vfsClose ops vn
      pure none
  | .vfsRemove path => do
      Vfs.vfsRemove ops path
      pure none
  | .vfsRename oldpath newpath => do
      Vfs.vfsRename ops oldpath newpath
      pure none
  | .vfsLink oldpath newpath => do
      Vfs.vfsLink ops oldpath newpath
      pure none
  | .vfsChdir path => do
      Vfs.vfsChdir ops path
      pure none
  | .vfsSetbootfs fsname => do
      Vfs.vfsSetbootfs ops fsname
      pure none

/-- One for a vnode returned, and minus one for a vnode closed. -/
def VfsCall.change (call : VfsCall) (returned : Option VnodeId) (worth : VnodeId → VnodeId → Int) :
    VnodeId → Int :=
  match call with
  | .vfsClose vn => -worth vn
  | _ => returned.elim 0 worth

theorem Books.call {owed : VfsState σ → VnodeId → Int} {each opened : VnodeId → VnodeId → Int}
    (h : Books ops owed each opened) (call : VfsCall) :
    Moves owed (call.run ops) (fun r => call.change r each + call.change r opened) 0 := by
  have hquiet (body : Op σ Unit) (hbody : Moves owed body (fun _ => 0) 0) :
      Moves owed (do body; pure none : Op σ (Option VnodeId))
        (fun r => r.elim 0 each + r.elim 0 opened) 0 := by
    apply Moves.bind hbody
    intro _
    exact Moves.pure (by simp)
  cases call with
  | vfsOpen path openflags =>
      apply Moves.bind (h.vfsOpen path openflags)
      intro vn
      exact Moves.pure (sub_self _)
  | vfsClose vn =>
      apply Moves.bind (h.vfsClose vn)
      intro _
      apply Moves.pure
      simp only [VfsCall.change]
      abel
  | vfsRemove path => exact hquiet _ (h.vfsRemove path)
  | vfsRename oldpath newpath => exact hquiet _ (h.vfsRename oldpath newpath)
  | vfsLink oldpath newpath => exact hquiet _ (h.vfsLink oldpath newpath)
  | vfsChdir path => exact hquiet _ (h.vfsChdir path)
  | vfsSetbootfs fsname => exact hquiet _ (h.vfsSetbootfs fsname)

/-- The counts change by the references that the call stores or returns, and by those
that could not be dropped. -/
structure Accounts (s s' : VfsState σ) (change : VnodeId → Int) : Prop where
  references : ∀ vn, (s'.vnRefcount vn : Int) =
    s.vnRefcount vn + (stored s' vn - stored s vn) + change vn + (s'.kept vn - s.kept vn)
  opens : ∀ vn, (s'.vnOpencount vn : Int) = s.vnOpencount vn + change vn

theorem accounts {s s' : VfsState σ} {change : VnodeId → Int} (hlent : lent s' = lent s + change)
    (hopens : opencounts s' = opencounts s + change) : Accounts s s' change := by
  constructor
  · intro vn
    have hvn := congrFun hlent vn
    simp only [lent, refcounts, keptCounts, Pi.sub_apply, Pi.add_apply] at hvn
    omega
  · intro vn
    exact congrFun hopens vn

theorem vfs_references_balanced (hops : ops.Balanced) (call : VfsCall) (s : VfsState σ) :
    (∀ returned s', call.run ops s = .ok returned s' →
      Accounts s s' (call.change returned reference) ∧ (ops.Reclaims → s'.kept = s.kept)) ∧
    (∀ code s', call.run ops s = .error code s' →
      Accounts s s' 0 ∧ (ops.Reclaims → s'.kept = s.kept)) := by
  have hzero (returned : Option VnodeId) : call.change returned 0 = 0 := by
    cases call with
    | vfsClose vn => exact neg_zero
    | _ => exact elim_zero returned
  have hlent := hops.references.call call s
  have hopens := hops.opens.call call s
  have hkept (s' : VfsState σ) (h : keptCounts s' = keptCounts s) : s'.kept = s.kept := by
    funext vn
    exact Int.ofNat.inj (congrFun h vn)
  constructor
  · intro returned s' hdone
    have hlent' := hlent.post_of_ok hdone
    have hopens' := hopens.post_of_ok hdone
    simp only [hzero, add_zero] at hlent'
    simp only [hzero, zero_add] at hopens'
    refine ⟨accounts hlent' hopens', ?_⟩
    intro hreclaims
    have hsame := ((hops.keeps hreclaims).call call s).post_of_ok hdone
    simp only [hzero, add_zero] at hsame
    exact hkept s' hsame
  · intro code s' hfailed
    refine ⟨accounts (hlent.fails_of_error hfailed) (hopens.fails_of_error hfailed), ?_⟩
    intro hreclaims
    have hsame := ((hops.keeps hreclaims).call call s).fails_of_error hfailed
    rw [add_zero] at hsame
    exact hkept s' hsame

/-- A file system with one file, vnode 7, in its root, vnode 3; `reclaims` says whether
the disk takes the inode of a vnode that goes away. -/
def oneFile (reclaims : Bool) : VnodeOps Unit where
  vopOpen _ _ := pure ()
  vopClose _ := pure ()
  vopReclaim vn := if reclaims then setRefcount vn 0 else Prog.fail .EIOERR
  vopGettype _ := pure 0o20000
  vopTruncate _ _ := pure ()
  vopCreat _ _ _ := do
    vnodeIncref 7
    pure 7
  vopLink _ _ _ := pure ()
  vopRemove _ _ := pure ()
  vopRename _ _ _ _ := pure ()
  vopLookup _ _ := do
    vnodeIncref 7
    pure 7
  vopLookparent _ path := do
    vnodeIncref 3
    pure (3, path)
  fsopGetroot _ := do
    vnodeIncref 3
    pure 3

theorem oneFile_balanced (reclaims : Bool) : (oneFile reclaims).Balanced := by
  have hquiet {β : Type} (value : β) : HandsOut (pure value : Op Unit β) (fun _ => 0) := by
    intro s
    exact ⟨⟨rfl, rfl, rfl, rfl⟩, (add_zero _).symm⟩
  have hgiven (vn : VnodeId) (s : VfsState Unit) :
      (fun w => ((Function.update s.vnRefcount vn (s.vnRefcount vn + 1) w : Nat) : Int)) =
        refcounts s + reference vn := by
    rw [update_counts, Nat.cast_add, Nat.cast_one, add_sub_cancel_left]
    rfl
  refine ⟨?_, ?_, ?_, ?_, ?_, ?_, ?_, ?_, ?_, ?_, ?_, ?_⟩
  · intro _ _ s
    exact ⟨⟨rfl, rfl, rfl, rfl⟩, hgiven 7 s⟩
  · intro _ _ s
    exact ⟨⟨rfl, rfl, rfl, rfl⟩, hgiven 3 s⟩
  · intro _ _ _ s
    exact ⟨⟨rfl, rfl, rfl, rfl⟩, hgiven 7 s⟩
  · intro _ s
    exact ⟨⟨rfl, rfl, rfl, rfl⟩, hgiven 3 s⟩
  · intro _ _
    exact hquiet ()
  · intro _
    exact hquiet ()
  · intro _
    exact hquiet _
  · intro _ _
    exact hquiet ()
  · intro _ _ _
    exact hquiet ()
  · intro _ _
    exact hquiet ()
  · intro _ _ _ _
    exact hquiet ()
  · intro vn s
    cases reclaims with
    | true => exact ⟨⟨rfl, rfl, rfl, rfl⟩, Or.inl rfl⟩
    | false => exact ⟨⟨rfl, rfl, rfl, rfl⟩, rfl⟩

/-- The root is the current directory, and vnode 7 is open once. -/
def oneOpen : VfsState Unit where
  vnRefcount := Function.update (Function.update (fun _ => 0) 3 1) 7 1
  vnOpencount := Function.update (fun _ => 0) 7 1
  vnFs _ := some ⟨0, none⟩
  kept _ := 0
  knowndevs := []
  bootfsVnode := none
  tCwd := some 3
  files := ()

theorem vfs_references_balanced_open :
    ∃ s', (VfsCall.vfsOpen [120] 0).run (oneFile true) oneOpen = .ok (some 7) s' ∧
      Accounts oneOpen s' (reference 7) ∧ s'.kept = oneOpen.kept := by
  have hopen : ((VfsCall.vfsOpen [120] 0).run (oneFile true) oneOpen).returned =
      some (some 7) := by
    decide
  have hdone := Result.eq_ok_of_returned oneOpen hopen
  have hreclaims : (oneFile true).Reclaims := by
    intro vn s
    exact Function.update_self vn 0 _
  have haccounts := (vfs_references_balanced (oneFile_balanced true) (.vfsOpen [120] 0)
    oneOpen).1 _ _ hdone
  exact ⟨_, hdone, haccounts.1, haccounts.2 hreclaims⟩

/-- The disk fails when the last reference is dropped, and the count stays at one. -/
theorem close_keeps_reference :
    (oneFile false).Balanced ∧
    ∃ s', (VfsCall.vfsClose 7).run (oneFile false) oneOpen = .ok none s' ∧
      stored s' 7 = stored oneOpen 7 ∧ (s'.vnRefcount 7 : Int) ≠ oneOpen.vnRefcount 7 - 1 := by
  have hclose : ((VfsCall.vfsClose 7).run (oneFile false) oneOpen).returned = some none := by
    decide
  exact ⟨oneFile_balanced false, _, Result.eq_ok_of_returned oneOpen hclose, by decide, by decide⟩

end OS161.Vfs
