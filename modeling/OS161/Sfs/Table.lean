import Mathlib.Data.List.Find
import OS161.Sfs.Directory
import OS161.Sfs.Truncate

namespace OS161.Sfs

open OS161.Data
open OS161.Kern
open OS161.Lib
open OS161.Vfs

/-! The table of the vnodes in memory: loading, reclaiming and counting references. -/

variable {fs fs' fs'' : SfsFs} {live : Nat → Bool} {sv ino n : Nat} {vn : SfsVnode}

/-! Changes that leave the files as they are. -/

/-- The files of the inodes `live` are what they were. -/
structure Keeps (live : Nat → Bool) (fs fs' : SfsFs) : Prop where
  blocks : ∀ ino slot, live ino = true → fs'.blockAt ino slot = fs.blockAt ino slot
  file : ∀ ino, live ino = true → fs'.file ino = fs.file ino
  size : ∀ ino, live ino = true → (fs'.inode ino).get sfiSize = (fs.inode ino).get sfiSize

namespace Keeps

theorem refl (live : Nat → Bool) (fs : SfsFs) : Keeps live fs fs :=
  ⟨fun _ _ _ => rfl, fun _ _ => rfl, fun _ _ => rfl⟩

theorem trans (hfirst : Keeps live fs fs') (hsecond : Keeps live fs' fs'') :
    Keeps live fs fs'' where
  blocks ino slot hlive := (hsecond.blocks ino slot hlive).trans (hfirst.blocks ino slot hlive)
  file ino hlive := (hsecond.file ino hlive).trans (hfirst.file ino hlive)
  size ino hlive := (hsecond.size ino hlive).trans (hfirst.size ino hlive)

theorem mono {live' : Nat → Bool} (h : Keeps live fs fs')
    (hfewer : ∀ ino, live' ino = true → live ino = true) : Keeps live' fs fs' where
  blocks ino slot hlive := h.blocks ino slot (hfewer ino hlive)
  file ino hlive := h.file ino (hfewer ino hlive)
  size ino hlive := h.size ino (hfewer ino hlive)

/-- Where each inode holds the blocks it held, and these are as they were. -/
theorem of_blocks (hblocks : ∀ ino slot, live ino = true → fs'.blockAt ino slot = fs.blockAt ino slot)
    (hdisk : ∀ ino k, live ino = true → fs.blockAt ino (.data k) ≠ 0 →
      fs'.disk (fs.blockAt ino (.data k)) = fs.disk (fs.blockAt ino (.data k)))
    (hsize : ∀ ino, live ino = true →
      (fs'.inode ino).get sfiSize = (fs.inode ino).get sfiSize) : Keeps live fs fs' := by
  refine ⟨hblocks, ?_, hsize⟩
  intro ino hlive
  funext k
  exact fileBlock_congr (hblocks ino (.data k) hlive) (hdisk ino k hlive)

end Keeps

/-- The inodes `live` are what they were, and their files too. -/
structure Stays (live : Nat → Bool) (fs fs' : SfsFs) : Prop extends Keeps live fs fs' where
  inode : ∀ ino, live ino = true → fs'.inode ino = fs.inode ino

theorem Stays.of_disk (hinode : ∀ ino, live ino = true → fs'.inode ino = fs.inode ino)
    (hdisk : ∀ ino slot, live ino = true → slot ≠ .inode → fs.blockAt ino slot ≠ 0 →
      fs'.disk (fs.blockAt ino slot) = fs.disk (fs.blockAt ino slot)) : Stays live fs fs' := by
  refine ⟨.of_blocks ?_ ?_ ?_, hinode⟩
  · intro ino slot hlive
    cases slot with
    | inode => rfl
    | indirect => simp only [SfsFs.blockAt, hinode ino hlive]
    | data k =>
        simp only [SfsFs.blockAt, hinode ino hlive]
        exact dataBlock_congr k (hdisk ino .indirect hlive (by simp))
  · intro ino k hlive
    exact hdisk ino (.data k) hlive (by simp)
  · intro ino hlive
    rw [hinode ino hlive]

theorem Stays.refl (live : Nat → Bool) (fs : SfsFs) : Stays live fs fs :=
  ⟨.refl live fs, fun _ _ => rfl⟩

theorem Stays.trans (hfirst : Stays live fs fs') (hsecond : Stays live fs' fs'') :
    Stays live fs fs'' :=
  ⟨hfirst.toKeeps.trans hsecond.toKeeps,
    fun ino hlive => (hsecond.inode ino hlive).trans (hfirst.inode ino hlive)⟩

theorem Stays.mono {live' : Nat → Bool} (h : Stays live fs fs')
    (hfewer : ∀ ino, live' ino = true → live ino = true) : Stays live' fs fs' :=
  ⟨h.toKeeps.mono hfewer, fun ino hlive => h.inode ino (hfewer ino hlive)⟩

namespace Keeps

theorem held (h : Keeps live fs fs') : fs'.held live = fs.held live := by
  funext p
  unfold SfsFs.held
  split
  case isTrue hlive => exact h.blocks p.ino p.slot hlive
  case isFalse => rfl

section Root

variable (h : Keeps live fs fs') (hroot : live 1 = true)

include h hroot

theorem entry : fs'.entry = fs.entry := by
  funext slot
  rw [SfsFs.entry, SfsFs.entry, h.file 1 hroot]

theorem slots : fs'.slots = fs.slots := by
  rw [SfsFs.slots, SfsFs.slots, h.size 1 hroot]

theorem links : fs'.links = fs.links := by
  funext ino
  rw [SfsFs.links, SfsFs.links, h.entry hroot, h.slots hroot]

theorem dirSize (hsize : DirSize fs) : DirSize fs' := by
  constructor
  · rw [h.size 1 hroot]
    exact hsize.whole
  · rw [h.size 1 hroot]
    exact hsize.bound

theorem dirNames (hnames : DirNames fs) : DirNames fs' := by
  unfold DirNames
  rw [h.entry hroot, h.slots hroot]
  exact hnames

end Root

end Keeps

/-- The vnodes in the table are in order. -/
structure TableOk (live : Nat → Bool) (fs : SfsFs) : Prop where
  nodup : fs.sfsVnodes.Nodup
  distinct : ∀ sv ∈ fs.sfsVnodes, ∀ sv' ∈ fs.sfsVnodes,
    (fs.vnode sv).svIno = (fs.vnode sv').svIno → sv = sv'
  alive : ∀ sv ∈ fs.sfsVnodes, live (fs.vnode sv).svIno = true
  clean : ∀ sv ∈ fs.sfsVnodes, (fs.vnode sv).svDirty = false →
    fs.disk (fs.vnode sv).svIno = (fs.vnode sv).svI

theorem Files.table (h : Files n live fs) : TableOk live fs :=
  ⟨h.nodup, h.distinct, h.alive, h.clean⟩

/-- Of the file system only vnodes, the table and blocks no file loses anything by change. -/
theorem Files.keep (h : Files n live fs) (hkeeps : Keeps live fs fs') (htable : TableOk live fs')
    (hfreemap : fs'.sfsFreemap = fs.sfsFreemap) (hsuper : fs'.sfsSuper = fs.sfsSuper)
    (hdevice : fs'.dBlocks = fs.dBlocks) (hquiet : fs'.mediaErrors = fs.mediaErrors) :
    Files n live fs' where
  sized := h.sized
  guarded := by
    refine h.guarded.congr hsuper hdevice ?_ ?_
    · rw [hfreemap]
    · rw [hfreemap]
      exact fun _ hset => hset
  quiet := hquiet.trans h.quiet
  nodup := htable.nodup
  distinct := htable.distinct
  alive := htable.alive
  dead := h.dead
  clean := htable.clean
  holding := by
    rw [hkeeps.held]
    refine h.holding.mono ?_
    intro p _ hfits
    unfold Fits at hfits ⊢
    rw [hfreemap]
    exact hfits

/-! Another vnode at an address. -/

def SfsFs.withVnode (fs : SfsFs) (sv : Nat) (vn : SfsVnode) : SfsFs :=
  { fs with vnode := Function.update fs.vnode sv vn }

theorem wp_updateVnode {post : Unit → SfsFs → Prop} {fails : Errno → SfsFs → Prop}
    {bad : Fault → Prop} (sv : Nat) (f : SfsVnode → SfsVnode) :
    Prog.wp (updateVnode sv f) post fails bad fs ↔ post () (fs.withVnode sv (f (fs.vnode sv))) :=
  Iff.rfl

@[simp] theorem vnode_withVnode (fs : SfsFs) (sv : Nat) (vn : SfsVnode) :
    (fs.withVnode sv vn).vnode sv = vn :=
  Function.update_self _ _ _

theorem vnode_withVnode_of_ne (hother : other ≠ sv) (vn : SfsVnode) :
    (fs.withVnode sv vn).vnode other = fs.vnode other :=
  Function.update_of_ne hother _ _

section Loaded

variable (hloaded : Loaded fs sv ino) (hino : vn.svIno = ino)

include hloaded hino

theorem svIno_withVnode (other : Nat) :
    ((fs.withVnode sv vn).vnode other).svIno = (fs.vnode other).svIno := by
  by_cases hother : other = sv
  · rw [hother, vnode_withVnode, hino, hloaded.ino]
  · rw [vnode_withVnode_of_ne hother]

theorem loaded_withVnode : (fs.withVnode sv vn).loaded = fs.loaded := by
  funext ino'
  simp only [SfsFs.loaded, svIno_withVnode hloaded hino]
  rfl

theorem inode_withVnode (h : Files n live fs) : (fs.withVnode sv vn).inode ino = vn.svI := by
  have hfind : fs.loaded ino = some sv := by
    rw [← hloaded.ino]
    exact h.loaded_eq hloaded.mem
  rw [SfsFs.inode, loaded_withVnode hloaded hino, hfind]
  simp only [vnode_withVnode]

theorem inode_withVnode_of_ne (hne : other ≠ ino) :
    (fs.withVnode sv vn).inode other = fs.inode other := by
  rw [SfsFs.inode, SfsFs.inode, loaded_withVnode hloaded hino]
  cases hfind : fs.loaded other with
  | none => rfl
  | some sv' =>
      have hsame := List.find?_some hfind
      rw [decide_eq_true_eq] at hsame
      have hapart : sv' ≠ sv := by
        intro heq
        rw [heq, hloaded.ino] at hsame
        exact hne hsame.symm
      simp only [vnode_withVnode_of_ne hapart]

theorem tableOk_withVnode (h : Files n live fs)
    (hclean : vn.svDirty = false → fs.disk ino = vn.svI) :
    TableOk live (fs.withVnode sv vn) := by
  refine ⟨h.nodup, ?_, ?_, ?_⟩
  · intro first hfirst second hsecond hsame
    rw [svIno_withVnode hloaded hino, svIno_withVnode hloaded hino] at hsame
    exact h.distinct first hfirst second hsecond hsame
  · intro other hother
    rw [svIno_withVnode hloaded hino]
    exact h.alive other hother
  · intro other hother hdirty
    by_cases heq : other = sv
    · rw [heq, vnode_withVnode] at hdirty ⊢
      rw [hino]
      exact hclean hdirty
    · rw [vnode_withVnode_of_ne heq] at hdirty ⊢
      exact h.clean other hother hdirty

end Loaded

/-- Only the bookkeeping of an inode in memory changes. -/
theorem Files.withVnode (h : Files n live fs) (hloaded : Loaded fs sv ino)
    (hino : vn.svIno = ino) (hclean : vn.svDirty = false → fs.disk ino = vn.svI)
    (hblocks : ∀ k, dataBlock fs.disk vn.svI k = dataBlock fs.disk (fs.vnode sv).svI k)
    (hindirect : vn.svI.get sfiIndirect = (fs.vnode sv).svI.get sfiIndirect)
    (hsize : vn.svI.get sfiSize = (fs.vnode sv).svI.get sfiSize) :
    Files n live (fs.withVnode sv vn) ∧ Keeps live fs (fs.withVnode sv vn) := by
  have hinode := inode_withVnode hloaded hino h
  have hbefore := hloaded.inode h
  have hkeeps : Keeps live fs (fs.withVnode sv vn) := by
    refine .of_blocks ?_ (fun _ _ _ _ => rfl) ?_
    · intro other slot _
      by_cases hown : other = ino
      · subst hown
        cases slot with
        | inode => rfl
        | indirect => rw [SfsFs.blockAt, SfsFs.blockAt, hinode, hbefore, hindirect]
        | data k =>
            rw [SfsFs.blockAt, SfsFs.blockAt, hinode, hbefore]
            exact hblocks k
      · have hother := inode_withVnode_of_ne hloaded hino hown
        cases slot with
        | inode => rfl
        | indirect => rw [SfsFs.blockAt, SfsFs.blockAt, hother]
        | data k =>
            rw [SfsFs.blockAt, SfsFs.blockAt, hother]
            rfl
    · intro other _
      by_cases hown : other = ino
      · rw [hown, hinode, hbefore, hsize]
      · rw [inode_withVnode_of_ne hloaded hino hown]
  exact ⟨h.keep hkeeps (tableOk_withVnode hloaded hino h hclean) rfl rfl rfl rfl, hkeeps⟩

/-- The memory of a vnode that is not in the table is of no account. -/
theorem Files.withUnlisted (h : Files n live fs) (hsv : sv ∉ fs.sfsVnodes) (vn : SfsVnode) :
    Files n live (fs.withVnode sv vn) ∧ Stays live fs (fs.withVnode sv vn) := by
  have hother : ∀ other ∈ fs.sfsVnodes, (fs.withVnode sv vn).vnode other = fs.vnode other := by
    intro other hmem
    apply vnode_withVnode_of_ne
    intro heq
    rw [heq] at hmem
    exact hsv hmem
  have hloaded : ∀ ino, (fs.withVnode sv vn).loaded ino = fs.loaded ino := by
    intro ino
    apply List.find?_congr
    intro other hmem
    rw [hother other hmem]
  have hinode : ∀ ino, (fs.withVnode sv vn).inode ino = fs.inode ino := by
    intro ino
    rw [SfsFs.inode, SfsFs.inode, hloaded]
    cases hfind : fs.loaded ino with
    | none => rfl
    | some sv' => simp only [hother sv' (List.mem_of_find?_eq_some hfind)]
  have hstays : Stays live fs (fs.withVnode sv vn) :=
    .of_disk (fun ino _ => hinode ino) (fun _ _ _ _ _ => rfl)
  refine ⟨h.keep hstays.toKeeps ⟨h.nodup, ?_, ?_, ?_⟩ rfl rfl rfl rfl, hstays⟩
  · intro first hfirst second hsecond hsame
    rw [hother first hfirst, hother second hsecond] at hsame
    exact h.distinct first hfirst second hsecond hsame
  · intro other hmem
    rw [hother other hmem]
    exact h.alive other hmem
  · intro other hmem hdirty
    rw [hother other hmem] at hdirty ⊢
    exact h.clean other hmem hdirty

/-! A vnode more in the table. -/

def SfsFs.withLoaded (fs : SfsFs) (sv : Nat) (vn : SfsVnode) : SfsFs :=
  { fs.withVnode sv vn with sfsVnodes := fs.sfsVnodes ++ [sv] }

theorem mem_withLoaded {other : Nat} :
    other ∈ (fs.withLoaded sv vn).sfsVnodes ↔ other ∈ fs.sfsVnodes ∨ other = sv := by
  show other ∈ fs.sfsVnodes ++ [sv] ↔ _
  rw [List.mem_append, List.mem_singleton]

theorem vnode_withLoaded (fs : SfsFs) (sv : Nat) (vn : SfsVnode) :
    (fs.withLoaded sv vn).vnode sv = vn :=
  vnode_withVnode fs sv vn

section New

variable (hfree : sv ∉ fs.sfsVnodes)

include hfree

theorem vnode_withLoaded_of_mem (hmem : other ∈ fs.sfsVnodes) (vn : SfsVnode) :
    (fs.withLoaded sv vn).vnode other = fs.vnode other := by
  apply vnode_withVnode_of_ne
  intro heq
  rw [heq] at hmem
  exact hfree hmem

theorem loaded_withLoaded_of_ne (hne : ino ≠ vn.svIno) :
    (fs.withLoaded sv vn).loaded ino = fs.loaded ino := by
  have hlast : ([sv] : List Nat).find?
      (fun sv' => decide (((fs.withLoaded sv vn).vnode sv').svIno = ino)) = none := by
    rw [List.find?_singleton, vnode_withLoaded, if_neg (by simpa using Ne.symm hne)]
  have hrest : fs.sfsVnodes.find?
      (fun sv' => decide (((fs.withLoaded sv vn).vnode sv').svIno = ino)) = fs.loaded ino := by
    apply List.find?_congr
    intro other hmem
    rw [vnode_withLoaded_of_mem hfree hmem]
  show (fs.sfsVnodes ++ [sv]).find? _ = _
  rw [List.find?_append, hlast, hrest, Option.or_none]

theorem loaded_withLoaded (hnone : fs.loaded vn.svIno = none) :
    (fs.withLoaded sv vn).loaded vn.svIno = some sv := by
  have hlast : ([sv] : List Nat).find?
      (fun sv' => decide (((fs.withLoaded sv vn).vnode sv').svIno = vn.svIno)) = some sv := by
    rw [List.find?_singleton, vnode_withLoaded, if_pos (decide_eq_true rfl)]
  have hrest : fs.sfsVnodes.find?
      (fun sv' => decide (((fs.withLoaded sv vn).vnode sv').svIno = vn.svIno)) =
      fs.loaded vn.svIno := by
    apply List.find?_congr
    intro other hmem
    rw [vnode_withLoaded_of_mem hfree hmem]
  show (fs.sfsVnodes ++ [sv]).find? _ = _
  rw [List.find?_append, hlast, hrest, hnone, Option.none_or]

theorem inode_withLoaded_of_ne (hne : ino ≠ vn.svIno) :
    (fs.withLoaded sv vn).inode ino = fs.inode ino := by
  rw [SfsFs.inode, SfsFs.inode, loaded_withLoaded_of_ne hfree hne]
  cases hfind : fs.loaded ino with
  | none => rfl
  | some sv' => simp only [vnode_withLoaded_of_mem hfree (List.mem_of_find?_eq_some hfind)]

theorem inode_withLoaded (hnone : fs.loaded vn.svIno = none) :
    (fs.withLoaded sv vn).inode vn.svIno = vn.svI := by
  rw [SfsFs.inode, loaded_withLoaded hfree hnone]
  simp only [vnode_withLoaded]

omit hfree in
theorem svIno_ne_of_mem (hnone : fs.loaded ino = none) (hmem : other ∈ fs.sfsVnodes) :
    (fs.vnode other).svIno ≠ ino := by
  have hno := List.find?_eq_none.mp hnone other hmem
  simpa using hno

theorem tableOk_withLoaded {live' : Nat → Bool} (h : TableOk live fs)
    (hnone : fs.loaded vn.svIno = none)
    (hmore : ∀ ino, live ino = true → live' ino = true) (hlive : live' vn.svIno = true)
    (hclean : vn.svDirty = false → fs.disk vn.svIno = vn.svI) :
    TableOk live' (fs.withLoaded sv vn) := by
  refine ⟨?_, ?_, ?_, ?_⟩
  · show (fs.sfsVnodes ++ [sv]).Nodup
    rw [List.nodup_append_comm, List.singleton_append, List.nodup_cons]
    exact ⟨hfree, h.nodup⟩
  · intro first hfirst second hsecond hsame
    rw [mem_withLoaded] at hfirst hsecond
    rcases hfirst with hfirst | hfirst
    · rw [vnode_withLoaded_of_mem hfree hfirst] at hsame
      rcases hsecond with hsecond | hsecond
      · rw [vnode_withLoaded_of_mem hfree hsecond] at hsame
        exact h.distinct first hfirst second hsecond hsame
      · rw [hsecond, vnode_withLoaded] at hsame
        exact absurd hsame (svIno_ne_of_mem hnone hfirst)
    · rw [hfirst, vnode_withLoaded] at hsame
      rcases hsecond with hsecond | hsecond
      · rw [vnode_withLoaded_of_mem hfree hsecond] at hsame
        exact absurd hsame.symm (svIno_ne_of_mem hnone hsecond)
      · rw [hfirst, hsecond]
  · intro other hmem
    rw [mem_withLoaded] at hmem
    rcases hmem with hmem | hmem
    · rw [vnode_withLoaded_of_mem hfree hmem]
      exact hmore _ (h.alive other hmem)
    · rw [hmem, vnode_withLoaded]
      exact hlive
  · intro other hmem hdirty
    rw [mem_withLoaded] at hmem
    rcases hmem with hmem | hmem
    · rw [vnode_withLoaded_of_mem hfree hmem] at hdirty ⊢
      exact h.clean other hmem hdirty
    · rw [hmem, vnode_withLoaded] at hdirty ⊢
      exact hclean hdirty

/-- An inode there is gets its vnode. -/
theorem Files.load (h : Files n live fs) (hnone : fs.loaded vn.svIno = none)
    (hlive : live vn.svIno = true) (hinode : vn.svI = fs.disk vn.svIno) :
    Files n live (fs.withLoaded sv vn) ∧ Stays live fs (fs.withLoaded sv vn) := by
  have hsame : ∀ ino, (fs.withLoaded sv vn).inode ino = fs.inode ino := by
    intro ino
    by_cases hown : ino = vn.svIno
    · rw [hown, inode_withLoaded hfree hnone, hinode, SfsFs.inode, hnone]
    · exact inode_withLoaded_of_ne hfree hown
  have hstays : Stays live fs (fs.withLoaded sv vn) :=
    .of_disk (fun ino _ => hsame ino) (fun _ _ _ _ _ => rfl)
  have htable : TableOk live (fs.withLoaded sv vn) :=
    tableOk_withLoaded hfree h.table hnone (fun _ hlive => hlive) hlive (fun _ => hinode.symm)
  exact ⟨h.keep hstays.toKeeps htable rfl rfl rfl rfl, hstays⟩

end New

/-- An inode without blocks. -/
structure Bare (inode : Block) : Prop where
  direct : ∀ i < 15, inode.get (sfiDirect i) = 0
  indirect : inode.get sfiIndirect = 0

theorem Bare.dataBlock {inode : Block} (hbare : Bare inode) (disk : Nat → Block) (k : Nat) :
    dataBlock disk inode k = 0 := by
  unfold Sfs.dataBlock
  split
  case isTrue hk => exact hbare.direct k hk
  case isFalse => rw [if_neg (by simp [hbare.indirect])]

theorem Bare.fileBlock {inode : Block} (hbare : Bare inode) (disk : Nat → Block) :
    fileBlock disk inode = fun _ => Record.zeros := by
  funext k
  rw [Sfs.fileBlock, hbare.dataBlock, if_pos rfl]

/-- A block that no file holds is no inode either. -/
theorem Fresh.dead (hfresh : Fresh n live fs ino) : live ino = false := by
  rw [← Bool.not_eq_true]
  intro hlive
  exact hfresh.unheld ⟨ino, .inode⟩ (held_of_live hlive .inode)

theorem Fresh.loaded (hfresh : Fresh n live fs ino) (h : Files n live fs) :
    fs.loaded ino = none := by
  cases hfind : fs.loaded ino with
  | none => rfl
  | some sv =>
      have hino := List.find?_some hfind
      have halive := h.alive sv (List.mem_of_find?_eq_some hfind)
      rw [decide_eq_true_eq] at hino
      rw [hino, hfresh.dead] at halive
      cases halive

/-- A new block becomes an inode. -/
theorem Files.make (h : Files n live fs) (hfree : sv ∉ fs.sfsVnodes)
    (hfresh : Fresh n live fs vn.svIno) (hbare : Bare vn.svI) (hdirty : vn.svDirty = true) :
    Files n (Function.update live vn.svIno true) (fs.withLoaded sv vn) ∧
      Stays live fs (fs.withLoaded sv vn) := by
  have hdead := hfresh.dead
  have hnone := hfresh.loaded h
  have hne : ∀ ino, live ino = true → ino ≠ vn.svIno := by
    intro ino hlive heq
    rw [heq, hdead] at hlive
    cases hlive
  have hstays : Stays live fs (fs.withLoaded sv vn) :=
    .of_disk (fun ino hlive => inode_withLoaded_of_ne hfree (hne ino hlive))
      (fun _ _ _ _ _ => rfl)
  have hmore : ∀ ino, live ino = true → Function.update live vn.svIno true ino = true := by
    intro ino hlive
    rw [Function.update_of_ne (hne ino hlive), hlive]
  have htable : TableOk (Function.update live vn.svIno true) (fs.withLoaded sv vn) := by
    refine tableOk_withLoaded hfree h.table hnone hmore (Function.update_self _ _ _) ?_
    intro hclean
    rw [hdirty] at hclean
    cases hclean
  have hheld : (fs.withLoaded sv vn).held (Function.update live vn.svIno true) =
      Function.update (fs.held live) ⟨vn.svIno, .inode⟩ vn.svIno := by
    funext p
    obtain ⟨ino, slot⟩ := p
    by_cases hown : ino = vn.svIno
    · rw [hown, held_of_live (Function.update_self _ _ _)]
      have hempty : fs.held live ⟨vn.svIno, slot⟩ = 0 := by
        rw [SfsFs.held, if_neg (by simp [hdead])]
      cases slot with
      | inode => rw [Function.update_self]; rfl
      | indirect =>
          rw [Function.update_of_ne (by simp), hempty, SfsFs.blockAt,
            inode_withLoaded hfree hnone, hbare.indirect]
      | data k =>
          rw [Function.update_of_ne (by simp), hempty, SfsFs.blockAt,
            inode_withLoaded hfree hnone, hbare.dataBlock]
    · rw [Function.update_of_ne (by simp [hown]), ← hstays.held]
      unfold SfsFs.held
      rw [Function.update_of_ne hown]
  refine ⟨⟨h.sized, h.guarded.congr rfl rfl rfl (fun _ hset => hset), h.quiet, htable.nodup,
    htable.distinct, htable.alive, ?_, htable.clean, ?_⟩, hstays⟩
  · rw [Function.update_of_ne hfresh.ne_zero.symm, h.dead]
  · rw [hheld]
    exact h.holding.put ⟨hfresh.isset, fun _ => hfresh.unreserved⟩ hfresh.unheld

/-! A vnode less in the table. -/

def SfsFs.withoutVnode (fs : SfsFs) (sv : Nat) : SfsFs :=
  { fs with sfsVnodes := fs.sfsVnodes.erase sv }

section Gone

variable (h : Files n live fs) (hloaded : Loaded fs sv ino)

include h hloaded

theorem loaded_withoutVnode : (fs.withoutVnode sv).loaded ino = none := by
  apply List.find?_eq_none.mpr
  intro other hmem
  obtain ⟨hne, hmem⟩ := h.nodup.mem_erase_iff.mp hmem
  rw [decide_eq_true_eq]
  intro hsame
  exact hne (h.distinct other hmem sv hloaded.mem (hsame.trans hloaded.ino.symm))

theorem loaded_withoutVnode_of_ne (hne : other ≠ ino) :
    (fs.withoutVnode sv).loaded other = fs.loaded other := by
  show (fs.sfsVnodes.erase sv).find? _ = fs.sfsVnodes.find? _
  rw [h.nodup.erase_eq_filter, List.find?_filter]
  apply List.find?_congr
  intro sv' _
  rw [decide_eq_decide, decide_eq_true_eq, bne_iff_ne]
  refine ⟨fun hboth => hboth.2, fun hother => ⟨?_, hother⟩⟩
  intro heq
  rw [heq, hloaded.ino] at hother
  exact hne hother.symm

theorem inode_withoutVnode_of_ne (hne : other ≠ ino) :
    (fs.withoutVnode sv).inode other = fs.inode other := by
  rw [SfsFs.inode, SfsFs.inode, loaded_withoutVnode_of_ne h hloaded hne]
  rfl

theorem tableOk_withoutVnode {live' : Nat → Bool}
    (hfewer : ∀ other, other ≠ ino → live other = true → live' other = true) :
    TableOk live' (fs.withoutVnode sv) := by
  have hmem : ∀ other ∈ (fs.withoutVnode sv).sfsVnodes, other ≠ sv ∧ other ∈ fs.sfsVnodes :=
    fun other hmem => h.nodup.mem_erase_iff.mp hmem
  refine ⟨h.nodup.erase sv, ?_, ?_, ?_⟩
  · intro first hfirst second hsecond hsame
    exact h.distinct first (hmem first hfirst).2 second (hmem second hsecond).2 hsame
  · intro other hother
    obtain ⟨hne, hin⟩ := hmem other hother
    refine hfewer _ ?_ (h.alive other hin)
    intro hsame
    exact hne (h.distinct other hin sv hloaded.mem (hsame.trans hloaded.ino.symm))
  · intro other hother
    exact h.clean other (hmem other hother).2

/-- The inode is on the disk, and its vnode goes. -/
theorem Files.release (hsynced : fs.disk ino = (fs.vnode sv).svI) :
    Files n live (fs.withoutVnode sv) ∧ Stays live fs (fs.withoutVnode sv) := by
  have hinode : ∀ other, (fs.withoutVnode sv).inode other = fs.inode other := by
    intro other
    by_cases hown : other = ino
    · rw [hown, hloaded.inode h, ← hsynced, SfsFs.inode, loaded_withoutVnode h hloaded]
      rfl
    · exact inode_withoutVnode_of_ne h hloaded hown
  have hstays : Stays live fs (fs.withoutVnode sv) :=
    .of_disk (fun other _ => hinode other) (fun _ _ _ _ _ => rfl)
  have htable := tableOk_withoutVnode h hloaded (fun _ _ hlive => hlive)
  exact ⟨h.keep hstays.toKeeps htable rfl rfl rfl rfl, hstays⟩

/-- An inode without blocks goes, and its vnode with it. -/
theorem Files.discard (hbare : Bare (fs.vnode sv).svI) (hroot : ino ≠ 1) :
    Files n (Function.update live ino false) ((fs.withUnmark ino).withoutVnode sv) ∧
      Stays (Function.update live ino false) fs ((fs.withUnmark ino).withoutVnode sv) := by
  have hlive := hloaded.alive h
  have hne : ∀ other, Function.update live ino false other = true →
      other ≠ ino ∧ live other = true := by
    intro other hother
    by_cases hown : other = ino
    · rw [hown, Function.update_self] at hother
      cases hother
    · rw [Function.update_of_ne hown] at hother
      exact ⟨hown, hother⟩
  have hinode : ∀ other, other ≠ ino →
      ((fs.withUnmark ino).withoutVnode sv).inode other = fs.inode other := by
    intro other hown
    exact inode_withoutVnode_of_ne h hloaded hown
  have hstays : Stays (Function.update live ino false) fs
      ((fs.withUnmark ino).withoutVnode sv) :=
    .of_disk (fun other hother => hinode other (hne other hother).1) (fun _ _ _ _ _ => rfl)
  have htable : TableOk (Function.update live ino false) (fs.withoutVnode sv) := by
    refine tableOk_withoutVnode h hloaded ?_
    intro other hown hother
    rw [Function.update_of_ne hown, hother]
  have hheld : ((fs.withUnmark ino).withoutVnode sv).held (Function.update live ino false) =
      Function.update (fs.held live) ⟨ino, .inode⟩ 0 := by
    rw [hstays.held]
    funext p
    obtain ⟨other, slot⟩ := p
    by_cases hown : other = ino
    · have hgone : fs.held (Function.update live ino false) ⟨ino, slot⟩ = 0 := by
        rw [SfsFs.held, if_neg (by simp)]
      rw [hown, hgone]
      cases slot with
      | inode => rw [Function.update_self]
      | indirect =>
          rw [Function.update_of_ne (by simp), held_of_live hlive, SfsFs.blockAt,
            hloaded.inode h, hbare.indirect]
      | data k =>
          rw [Function.update_of_ne (by simp), held_of_live hlive, SfsFs.blockAt,
            hloaded.inode h, hbare.dataBlock]
    · rw [Function.update_of_ne (by simp [hown])]
      unfold SfsFs.held
      rw [Function.update_of_ne hown]
  have hfits := h.holding.fits ⟨ino, .inode⟩ (by
    rw [held_of_live hlive]
    exact h.ne_zero hlive)
  rw [held_of_live hlive] at hfits
  have hunreserved : ¬ Reserved n ino := hfits.2 (by simpa using hroot)
  refine ⟨⟨h.sized, ?_, h.quiet, htable.nodup, htable.distinct, htable.alive, ?_, htable.clean,
    ?_⟩, hstays⟩
  · have hguarded : Guarded n (fs.withUnmark ino) := by
      refine ⟨h.guarded.nblocks, h.guarded.device, h.guarded.nbits, ?_⟩
      intro i hi hreserved
      show (fs.sfsFreemap.unmark ino).bitmapIsset i = true
      rw [Bitmap.isset_unmark, h.guarded.marked i hi hreserved, Bool.true_and, decide_eq_true_eq]
      intro heq
      rw [heq] at hreserved
      exact hunreserved hreserved
    exact hguarded.congr rfl rfl rfl (fun _ hset => hset)
  · rw [Function.update_of_ne (h.ne_zero hlive).symm, h.dead]
  · rw [hheld]
    refine h.holding.drop ?_
    rintro q _ _ hother ⟨hset, hunreserved⟩
    refine ⟨?_, hunreserved⟩
    rw [held_of_live hlive] at hother
    show (fs.sfsFreemap.unmark ino).bitmapIsset (fs.held live q) = true
    rw [Bitmap.isset_unmark, hset, Bool.true_and, decide_eq_true_eq]
    exact hother

end Gone

end OS161.Sfs
