import OS161.Sfs.Table

namespace OS161.Sfs

open OS161.Data
open OS161.Kern
open OS161.Lib
open OS161.Vfs

/-! A mounted volume with the links counted in its inodes and the references to its
vnodes. -/

variable {fs fs' fs'' : SfsFs} {live live' : Nat → Bool} {count refs refs' : Nat → Nat}
variable {sv ino n : Nat}

def opsOf (ino : Nat) : VnodeOps := if ino = 1 then .sfsDirops else .sfsFileops

def typeOf (ino : Nat) : Nat := if ino = 1 then 2 else 1

/-- The inodes `live` are in order, `count` are their link counts, and `refs` the
references that were handed out to the vnodes. -/
structure Volume (n : Nat) (live : Nat → Bool) (count refs : Nat → Nat) (fs : SfsFs) :
    Prop where
  files : Files n live fs
  root : live 1 = true
  type : ∀ ino, live ino = true → (fs.inode ino).get sfiType = typeOf ino
  linkcount : ∀ ino, live ino = true → (fs.inode ino).get sfiLinkcount = count ino
  unlinked : ∀ ino, ino ≠ 0 → live ino = false → count ino = 0
  ops : ∀ sv ∈ fs.sfsVnodes, (fs.vnode sv).vnOps = opsOf (fs.vnode sv).svIno
  refcount : ∀ sv ∈ fs.sfsVnodes, (fs.vnode sv).vnRefcount = refs sv
  referenced : ∀ sv, sv ∈ fs.sfsVnodes ↔ 0 < refs sv

namespace Volume

variable (h : Volume n live count refs fs)

include h

theorem linkcount_loaded (hloaded : Loaded fs sv ino) :
    (fs.vnode sv).svI.get sfiLinkcount = count ino := by
  rw [← hloaded.inode h.files]
  exact h.linkcount ino (hloaded.alive h.files)

theorem type_loaded (hloaded : Loaded fs sv ino) :
    (fs.vnode sv).svI.get sfiType = typeOf ino := by
  rw [← hloaded.inode h.files]
  exact h.type ino (hloaded.alive h.files)

theorem ops_loaded (hloaded : Loaded fs sv ino) : (fs.vnode sv).vnOps = opsOf ino := by
  rw [h.ops sv hloaded.mem, hloaded.ino]

theorem linkcounts_eq (h' : Volume n live count refs' fs') (ino : Nat)
    (hlive : live ino = true) :
    (fs'.inode ino).get sfiLinkcount = (fs.inode ino).get sfiLinkcount := by
  rw [h.linkcount ino hlive, h'.linkcount ino hlive]

/-- The file of a vnode changes. -/
theorem only (hloaded : Loaded fs sv ino) (honly : OnlyFile live sv fs fs')
    (hfiles : Files n live fs') : Volume n live count refs fs' := by
  have hinode : ∀ field, field = sfiType ∨ field = sfiLinkcount → ∀ other,
      live other = true → (fs'.inode other).get field = (fs.inode other).get field := by
    intro field hfield other hlive
    by_cases hown : other = ino
    · have hafter := (hloaded.only honly).inode hfiles
      rw [hown, hafter, hloaded.inode h.files]
      rcases hfield with rfl | rfl
      · exact honly.type
      · exact honly.linkcount
    · rw [honly.inode hlive (by rw [hloaded.ino]; exact hown) (h.files.ne_zero hlive)]
  have hvnode : ∀ other, (fs'.vnode other).vnOps = (fs.vnode other).vnOps ∧
      (fs'.vnode other).vnRefcount = (fs.vnode other).vnRefcount := by
    intro other
    by_cases hown : other = sv
    · rw [hown]
      exact ⟨honly.ops, honly.refcount⟩
    · rw [honly.vnode other hown]
      exact ⟨rfl, rfl⟩
  refine ⟨hfiles, h.root, ?_, ?_, h.unlinked, ?_, ?_, ?_⟩
  · intro other hlive
    rw [hinode _ (Or.inl rfl) other hlive]
    exact h.type other hlive
  · intro other hlive
    rw [hinode _ (Or.inr rfl) other hlive]
    exact h.linkcount other hlive
  · intro other hmem
    rw [honly.vnodes] at hmem
    rw [(hvnode other).1, honly.svIno]
    exact h.ops other hmem
  · intro other hmem
    rw [honly.vnodes] at hmem
    rw [(hvnode other).2]
    exact h.refcount other hmem
  · intro other
    rw [honly.vnodes]
    exact h.referenced other

/-- There is no inode 0, whatever its count. -/
theorem congr {count' : Nat → Nat} (hcount : ∀ ino, ino ≠ 0 → count' ino = count ino) :
    Volume n live count' refs fs := by
  refine ⟨h.files, h.root, h.type, ?_, ?_, h.ops, h.refcount, h.referenced⟩
  · intro ino hlive
    rw [hcount ino (h.files.ne_zero hlive)]
    exact h.linkcount ino hlive
  · intro ino hne hdead
    rw [hcount ino hne]
    exact h.unlinked ino hne hdead

/-- The inodes stay as they are; the table and the references may change. -/
theorem stays (hfiles : Files n live' fs') (hstays : Stays live' fs fs')
    (hfewer : ∀ ino, live' ino = true → live ino = true) (hroot : live' 1 = true)
    (hunlinked : ∀ ino, ino ≠ 0 → live' ino = false → count ino = 0)
    (hops : ∀ sv ∈ fs'.sfsVnodes, (fs'.vnode sv).vnOps = opsOf (fs'.vnode sv).svIno)
    (hrefcount : ∀ sv ∈ fs'.sfsVnodes, (fs'.vnode sv).vnRefcount = refs' sv)
    (hreferenced : ∀ sv, sv ∈ fs'.sfsVnodes ↔ 0 < refs' sv) :
    Volume n live' count refs' fs' := by
  refine ⟨hfiles, hroot, ?_, ?_, hunlinked, hops, hrefcount, hreferenced⟩
  · intro ino hlive
    rw [hstays.inode ino hlive]
    exact h.type ino (hfewer ino hlive)
  · intro ino hlive
    rw [hstays.inode ino hlive]
    exact h.linkcount ino (hfewer ino hlive)

end Volume

/-! Loading. -/

theorem wp_sfsBused {post : Bool → SfsFs → Prop} {fails : Errno → SfsFs → Prop}
    {bad : Fault → Prop} {b : Nat}
    (hused : b < fs.spNblocks ∧ fs.sfsFreemap.bitmapIsset b = true) (hdone : post true fs) :
    Prog.wp (sfsBused b) post fails bad fs := by
  simp only [sfsBused, ↓Prog.wp_bind, ↓Prog.wp_get, ↓Prog.wp_assert, ↓Prog.wp_pure]
  rw [if_pos hused.1, hused.2]
  exact hdone

theorem Files.inode_used (h : Files n live fs) (hlive : live ino = true) :
    ino < fs.spNblocks ∧ fs.sfsFreemap.bitmapIsset ino = true := by
  have hzero : fs.held live ⟨ino, .inode⟩ ≠ 0 := by
    rw [held_of_live hlive]
    exact h.ne_zero hlive
  have hlt := h.lt hzero
  have hset := h.isset hzero
  have hblock : fs.held live ⟨ino, .inode⟩ = ino := held_of_live hlive .inode
  rw [hblock] at hlt hset
  rw [h.guarded.nblocks]
  exact ⟨hlt, hset⟩

theorem findLoaded_wp (h : Files n live fs) {l : List Nat} (hl : ∀ sv ∈ l, sv ∈ fs.sfsVnodes) :
    Prog.Returns (findLoaded ino l) (fun found fs' =>
      found = l.find? (fun sv => decide ((fs.vnode sv).svIno = ino)) ∧ fs' = fs) fs := by
  induction l with
  | nil => exact ⟨rfl, rfl⟩
  | cons sv rest ih =>
      have halive := h.alive sv (hl sv (List.mem_cons_self ..))
      unfold findLoaded Prog.Returns
      simp only [↓Prog.wp_bind, ↓Prog.wp_get]
      refine wp_sfsBused (h.inode_used halive) ?_
      rw [Prog.wp_assert, if_pos rfl, Prog.wp_ite]
      split
      case isTrue hfound =>
          refine ⟨?_, rfl⟩
          rw [List.find?_cons_of_pos]
          exact decide_eq_true hfound
      case isFalse hother =>
          rw [List.find?_cons_of_neg (by simpa using hother)]
          exact ih (fun other hmem => hl other (List.mem_cons_of_mem _ hmem))

/-- The memory that `kmalloc` hands out is not in use. -/
def Memory.Fresh (mem : Memory) (fs : SfsFs) : Prop := ∀ sv ∈ mem.kmalloc, sv ∉ fs.sfsVnodes

/-- One more reference to a vnode. -/
def oneMore (refs : Nat → Nat) (sv : Nat) : Nat → Nat := Function.update refs sv (refs sv + 1)

/-- The vnodes that were loaded still are. -/
def StaysLoaded (fs fs' : SfsFs) : Prop := ∀ sv ino, Loaded fs sv ino → Loaded fs' sv ino

/-- A vnode of the inode is handed out with a reference. -/
structure HandedOut (n : Nat) (live : Nat → Bool) (count refs : Nat → Nat) (fs : SfsFs)
    (ino sv : Nat) (fs' : SfsFs) : Prop where
  volume : Volume n live count (oneMore refs sv) fs'
  keeps : Keeps live fs fs'
  loaded : Loaded fs' sv ino
  stays : StaysLoaded fs fs'

theorem OnlyFile.staysLoaded (honly : OnlyFile live sv fs fs') : StaysLoaded fs fs' := by
  intro other ino hloaded
  refine ⟨?_, ?_⟩
  · rw [honly.vnodes]
    exact hloaded.mem
  · rw [honly.svIno]
    exact hloaded.ino

/-- Nothing that counts has changed. -/
structure Untouched (n : Nat) (live : Nat → Bool) (count refs : Nat → Nat) (fs fs' : SfsFs) :
    Prop where
  volume : Volume n live count refs fs'
  keeps : Keeps live fs fs'
  table : fs'.sfsVnodes = fs.sfsVnodes
  vnode : ∀ sv ∈ fs.sfsVnodes, fs'.vnode sv = fs.vnode sv

theorem Untouched.refl (h : Volume n live count refs fs) : Untouched n live count refs fs fs :=
  ⟨h, .refl live fs, rfl, fun _ _ => rfl⟩

/-- Every allocation of the call succeeds. -/
structure Memory.Enough (mem : Memory) : Prop where
  kmalloc : mem.kmalloc ≠ none
  lockCreate : mem.lockCreate = true
  arrayAdd : mem.arrayAdd = true

theorem oneMore_self (refs : Nat → Nat) (sv : Nat) : oneMore refs sv sv = refs sv + 1 :=
  Function.update_self _ _ _

theorem oneMore_of_ne (hne : other ≠ sv) (refs : Nat → Nat) :
    oneMore refs sv other = refs other :=
  Function.update_of_ne hne _ _

/-- The number of references to a vnode changes. -/
theorem Volume.recount (h : Volume n live count refs fs) (hloaded : Loaded fs sv ino) {x : Nat}
    (hx : 0 < x) :
    Volume n live count (Function.update refs sv x)
        (fs.withVnode sv { fs.vnode sv with vnRefcount := x }) ∧
      Keeps live fs (fs.withVnode sv { fs.vnode sv with vnRefcount := x }) ∧
      StaysLoaded fs (fs.withVnode sv { fs.vnode sv with vnRefcount := x }) := by
  have hino : ({ fs.vnode sv with vnRefcount := x } : SfsVnode).svIno = ino := hloaded.ino
  have hclean : ({ fs.vnode sv with vnRefcount := x } : SfsVnode).svDirty = false →
      fs.disk ino = (fs.vnode sv).svI := by
    intro hdirty
    rw [← hloaded.ino]
    exact h.files.clean sv hloaded.mem hdirty
  obtain ⟨hfiles, hkeeps⟩ := h.files.withVnode hloaded hino hclean (fun _ => rfl) rfl rfl
  have hinode : ∀ other, (fs.withVnode sv { fs.vnode sv with vnRefcount := x }).inode other =
      fs.inode other := by
    intro other
    by_cases hown : other = ino
    · rw [hown, inode_withVnode hloaded hino h.files, hloaded.inode h.files]
    · exact inode_withVnode_of_ne hloaded hino hown
  refine ⟨h.stays hfiles ⟨hkeeps, fun other _ => hinode other⟩ (fun _ hlive => hlive) h.root
    h.unlinked ?_ ?_ ?_, hkeeps, ?_⟩
  · intro other hmem
    rw [svIno_withVnode hloaded hino]
    by_cases hown : other = sv
    · rw [hown, vnode_withVnode]
      exact h.ops sv hloaded.mem
    · rw [vnode_withVnode_of_ne hown]
      exact h.ops other hmem
  · intro other hmem
    by_cases hown : other = sv
    · rw [hown, vnode_withVnode, Function.update_self]
    · rw [vnode_withVnode_of_ne hown, Function.update_of_ne hown]
      exact h.refcount other hmem
  · intro other
    by_cases hown : other = sv
    · rw [hown, Function.update_self]
      exact ⟨fun _ => hx, fun _ => hloaded.mem⟩
    · rw [Function.update_of_ne hown]
      exact h.referenced other
  · intro other ino' hother
    refine ⟨hother.mem, ?_⟩
    rw [svIno_withVnode hloaded hino]
    exact hother.ino

theorem vopIncref_wp (h : Volume n live count refs fs) (hloaded : Loaded fs sv ino) :
    Prog.Returns (vopIncref sv) (fun _ fs' => HandedOut n live count refs fs ino sv fs') fs := by
  unfold vopIncref Prog.Returns
  rw [wp_updateVnode, h.refcount sv hloaded.mem]
  obtain ⟨hvolume, hkeeps, hstays⟩ := h.recount hloaded (Nat.succ_pos (refs sv))
  exact ⟨hvolume, hkeeps, hstays sv ino hloaded, hstays⟩

/-- The vnode of an inode as it is loaded. -/
def newVnode (ino : Nat) (svI : Block) (svDirty : Bool) : SfsVnode where
  vnOps := opsOf ino
  vnRefcount := 1
  svI := svI
  svIno := ino
  svDirty := svDirty

theorem chooseOps_wp {post : VnodeOps → SfsFs → Prop} {fails : Errno → SfsFs → Prop}
    {bad : Fault → Prop} (ino : Nat) (hdone : post (opsOf ino) fs) :
    Prog.wp (chooseOps (typeOf ino)) post fails bad fs := by
  unfold chooseOps typeOf
  unfold opsOf at hdone
  by_cases hroot : ino = 1
  · rw [if_pos hroot] at hdone ⊢
    exact hdone
  · rw [if_neg hroot] at hdone ⊢
    exact hdone

/-- The new vnode goes into the table, or is forgotten again. -/
theorem initVnode_wp {post : Nat → SfsFs → Prop} {fails : Errno → SfsFs → Prop}
    {bad : Fault → Prop} {svI : Block} (htype : svI.get sfiType = typeOf ino) (svDirty : Bool)
    (mem : Memory) (hfails : mem.lockCreate = false → fails .ENOMEM fs)
    (hforgotten : mem.arrayAdd = false →
      fails .ENOMEM (fs.withVnode sv (newVnode ino svI svDirty)))
    (hdone : mem.lockCreate = true → mem.arrayAdd = true →
      post sv (fs.withLoaded sv (newVnode ino svI svDirty))) :
    Prog.wp (initVnode sv ino svI svDirty mem) post fails bad fs := by
  unfold initVnode
  rw [htype, Prog.wp_bind]
  refine chooseOps_wp ino ?_
  simp only [↓Prog.wp_bind, ↓Prog.wp_when, ↓Prog.wp_fail, wp_updateVnode, ↓Prog.wp_modify,
    ↓Prog.wp_pure]
  split
  case isTrue hlock => exact hfails hlock
  case isFalse hlock =>
  split
  case isTrue harray => exact hforgotten harray
  case isFalse harray => exact hdone (by simpa using hlock) (by simpa using harray)

/-- A vnode more in the table, with one reference. -/
theorem Volume.withLoaded (h : Volume n live count refs fs) (hfree : sv ∉ fs.sfsVnodes)
    {svI : Block} {svDirty : Bool}
    (hfiles : Files n live' (fs.withLoaded sv (newVnode ino svI svDirty)))
    (hinode : ∀ other, live' other = true → other ≠ ino → live other = true)
    (hstays : Stays live fs (fs.withLoaded sv (newVnode ino svI svDirty)))
    (hmore : ∀ other, live other = true → live' other = true)
    (htype : svI.get sfiType = typeOf ino) (hlinkcount : svI.get sfiLinkcount = count ino)
    (hnone : fs.loaded ino = none) :
    Volume n live' count (oneMore refs sv) (fs.withLoaded sv (newVnode ino svI svDirty)) ∧
      Loaded (fs.withLoaded sv (newVnode ino svI svDirty)) sv ino ∧
      StaysLoaded fs (fs.withLoaded sv (newVnode ino svI svDirty)) := by
  have hnew : (fs.withLoaded sv (newVnode ino svI svDirty)).inode ino = svI :=
    inode_withLoaded hfree hnone
  have hzero : refs sv = 0 := by
    have hno := mt (h.referenced sv).mpr hfree
    omega
  refine ⟨⟨hfiles, hmore 1 h.root, ?_, ?_, ?_, ?_, ?_, ?_⟩, ⟨?_, ?_⟩, ?_⟩
  · intro other hlive
    by_cases hown : other = ino
    · rw [hown, hnew, htype]
    · rw [hstays.inode other (hinode other hlive hown)]
      exact h.type other (hinode other hlive hown)
  · intro other hlive
    by_cases hown : other = ino
    · rw [hown, hnew, hlinkcount]
    · rw [hstays.inode other (hinode other hlive hown)]
      exact h.linkcount other (hinode other hlive hown)
  · intro other hne hgone
    refine h.unlinked other hne ?_
    rw [← Bool.not_eq_true] at hgone ⊢
    exact fun hlive => hgone (hmore other hlive)
  · intro other hmem
    rcases mem_withLoaded.mp hmem with hmem | hmem
    · rw [vnode_withLoaded_of_mem hfree hmem]
      exact h.ops other hmem
    · rw [hmem, vnode_withLoaded]
      rfl
  · intro other hmem
    rcases mem_withLoaded.mp hmem with hmem | hmem
    · have hne : other ≠ sv := by
        intro heq
        rw [heq] at hmem
        exact hfree hmem
      rw [vnode_withLoaded_of_mem hfree hmem, oneMore_of_ne hne]
      exact h.refcount other hmem
    · rw [hmem, vnode_withLoaded, oneMore_self, hzero]
      rfl
  · intro other
    rw [mem_withLoaded]
    by_cases hown : other = sv
    · rw [hown, oneMore_self]
      exact ⟨fun _ => Nat.succ_pos _, fun _ => Or.inr rfl⟩
    · rw [oneMore_of_ne hown, or_iff_left hown]
      exact h.referenced other
  · exact mem_withLoaded.mpr (Or.inr rfl)
  · rw [vnode_withLoaded]
    rfl
  · intro other ino' hother
    refine ⟨mem_withLoaded.mpr (Or.inl hother.mem), ?_⟩
    rw [vnode_withLoaded_of_mem hfree hother.mem]
    exact hother.ino

theorem Volume.withUnlisted (h : Volume n live count refs fs) (hfree : sv ∉ fs.sfsVnodes)
    (vn : SfsVnode) : Untouched n live count refs fs (fs.withVnode sv vn) := by
  obtain ⟨hfiles, hstays⟩ := h.files.withUnlisted hfree vn
  have hother : ∀ other ∈ fs.sfsVnodes, (fs.withVnode sv vn).vnode other = fs.vnode other := by
    intro other hmem
    apply vnode_withVnode_of_ne
    intro heq
    rw [heq] at hmem
    exact hfree hmem
  refine ⟨h.stays hfiles hstays (fun _ hlive => hlive) h.root h.unlinked ?_ ?_ h.referenced,
    hstays.toKeeps, rfl, hother⟩
  · intro other hmem
    rw [hother other hmem]
    exact h.ops other hmem
  · intro other hmem
    rw [hother other hmem]
    exact h.refcount other hmem

/-- A vnode for an inode there is: the one in the table or a new one. -/
theorem sfsLoadvnode_wp (h : Volume n live count refs fs) (hlive : live ino = true)
    {mem : Memory} (hmem : mem.Fresh fs) :
    Prog.wp (sfsLoadvnode ino 0 mem) (HandedOut n live count refs fs ino)
      (fun _ fs' => Untouched n live count refs fs fs' ∧ fs'.sfsFreemap = fs.sfsFreemap ∧
        fs.loaded ino = none) (fun _ => False) fs := by
  unfold sfsLoadvnode
  simp only [↓Prog.wp_bind, ↓Prog.wp_get]
  refine Prog.wp_mono (findLoaded_wp h.files (fun _ hmem => hmem)) ?_
    (fun _ _ hfails => hfails.elim) (fun _ hbad => hbad)
  rintro found _ ⟨hfound, hsame⟩
  rw [hsame]
  have hfound' : found = fs.loaded ino := hfound
  cases found with
  | some sv =>
      have hino := List.find?_some hfound.symm
      rw [decide_eq_true_eq] at hino
      have hloaded : Loaded fs sv ino := ⟨List.mem_of_find?_eq_some hfound.symm, hino⟩
      unfold loadvnodeFound
      simp only [↓Prog.wp_bind, ↓Prog.wp_assert, ↓Prog.wp_pure]
      rw [if_pos trivial]
      exact Prog.wp_mono (vopIncref_wp h hloaded) (fun _ _ hdone => hdone)
        (fun _ _ hfails => hfails.elim) (fun _ hbad => hbad)
  | none =>
      cases hkmalloc : mem.kmalloc with
      | none =>
          unfold loadvnodeFound
          rw [hkmalloc]
          exact ⟨.refl h, rfl, hfound'.symm⟩
      | some sv =>
          have hfree : sv ∉ fs.sfsVnodes := hmem sv hkmalloc
          have hinode : fs.inode ino = fs.disk ino := by
            rw [SfsFs.inode, ← hfound']
          have htype := h.type ino hlive
          have hlinkcount := h.linkcount ino hlive
          rw [hinode] at htype hlinkcount
          unfold loadvnodeFound loadInode
          rw [hkmalloc]
          simp only [↓Prog.wp_bind]
          refine wp_sfsBused (h.files.inode_used hlive) ?_
          rw [Prog.wp_assert, if_pos rfl]
          refine wp_sfsRblock _ (h.files.on_device hlive (@rfl _ (fs.blockAt ino .inode))
            (h.files.ne_zero hlive)) h.files.quiet ?_
          rw [Prog.wp_ite, if_neg (by simp)]
          refine initVnode_wp htype false mem (fun _ => ⟨.refl h, rfl, hfound'.symm⟩)
            (fun _ => ⟨h.withUnlisted hfree _, rfl, hfound'.symm⟩) (fun _ _ => ?_)
          obtain ⟨hfiles, hstays⟩ := @Files.load fs live sv n (newVnode ino (fs.disk ino) false)
            hfree h.files hfound'.symm hlive rfl
          obtain ⟨hvolume, hloaded, hkept⟩ := h.withLoaded hfree hfiles
            (fun _ hlive _ => hlive) hstays (fun _ hlive => hlive) htype hlinkcount hfound'.symm
          exact ⟨hvolume, hstays.toKeeps, hloaded, hkept⟩

/-! New files. -/

theorem Files.stays_fresh {b : Nat} (h : Files n live fs)
    (hclear : fs.sfsFreemap.bitmapIsset b = false) : Stays live fs (fs.withFresh b) := by
  have hother : ∀ ino slot, live ino = true → fs.blockAt ino slot ≠ 0 →
      (fs.withFresh b).disk (fs.blockAt ino slot) = fs.disk (fs.blockAt ino slot) := by
    intro ino slot hlive hblock
    rw [← held_of_live hlive] at hblock ⊢
    apply Function.update_of_ne
    intro hsame
    have hset := h.isset hblock
    rw [hsame, hclear] at hset
    cases hset
  refine .of_disk ?_ (fun ino slot hlive _ => hother ino slot hlive)
  intro ino hlive
  have hloaded : (fs.withFresh b).loaded ino = fs.loaded ino := rfl
  rw [SfsFs.inode, SfsFs.inode, hloaded]
  cases fs.loaded ino with
  | some sv => rfl
  | none => exact hother ino .inode hlive (h.ne_zero hlive)

/-- A file without blocks and without links. -/
structure Made (n : Nat) (live : Nat → Bool) (count refs : Nat → Nat) (fs : SfsFs)
    (ino sv : Nat) (fs' : SfsFs) : Prop where
  new : live ino = false
  volume : Volume n (Function.update live ino true) count (oneMore refs sv) fs'
  keeps : Keeps live fs fs'
  loaded : Loaded fs' sv ino
  stays : StaysLoaded fs fs'
  file : fs'.file ino = fun _ => Record.zeros
  size : fs'.size sv = 0
  bare : ∀ slot, slot ≠ .inode → fs'.blockAt ino slot = 0
  free : sv ∉ fs.sfsVnodes
  table : fs'.sfsVnodes = fs.sfsVnodes ++ [sv]
  vnode : ∀ other ∈ fs.sfsVnodes, fs'.vnode other = fs.vnode other

theorem bare_newInode : Bare ((Record.zeros : Block).set sfiType 1) := by
  constructor
  · intro i hi
    rw [header_sfiType.direct _ hi, Record.get_zeros]
  · rw [header_sfiType.indirect, Record.get_zeros]

theorem Files.made (h : Volume n live count refs fs) (hfree : sv ∉ fs.sfsVnodes)
    (hfresh : Fresh n live fs ino) :
    Made n live count refs fs ino sv
      (fs.withLoaded sv (newVnode ino ((Record.zeros : Block).set sfiType 1) true)) := by
  have hdead := hfresh.dead
  have hnone := hfresh.loaded h.files
  have hroot : ino ≠ 1 := by
    intro heq
    exact hfresh.unreserved (Or.inr (Or.inl heq))
  have htype : ((Record.zeros : Block).set sfiType 1).get sfiType = typeOf ino := by
    rw [typeOf, if_neg hroot]
    exact Record.get_set _ (by decide) (by decide)
  have hlinkcount : ((Record.zeros : Block).set sfiType 1).get sfiLinkcount = count ino := by
    rw [Record.get_set_of_disjoint _ _ (by decide) (by decide), Record.get_zeros,
      h.unlinked ino hfresh.ne_zero hdead]
  obtain ⟨hfiles, hstays⟩ := @Files.make fs live sv n
    (newVnode ino ((Record.zeros : Block).set sfiType 1) true) h.files hfree hfresh bare_newInode
    rfl
  have hmore : ∀ other, live other = true → Function.update live ino true other = true := by
    intro other hlive
    by_cases hown : other = ino
    · rw [hown, Function.update_self]
    · rw [Function.update_of_ne hown, hlive]
  have hfewer : ∀ other, Function.update live ino true other = true → other ≠ ino →
      live other = true := by
    intro other hlive hown
    rw [Function.update_of_ne hown] at hlive
    exact hlive
  obtain ⟨hvolume, hloaded, hkept⟩ := h.withLoaded hfree hfiles hfewer hstays hmore htype
    hlinkcount hnone
  have hinode := hloaded.inode hfiles
  rw [vnode_withLoaded] at hinode
  refine ⟨hdead, hvolume, hstays.toKeeps, hloaded, hkept, ?_, ?_, ?_, hfree, rfl,
    fun other hmem => vnode_withLoaded_of_mem hfree hmem _⟩
  · rw [SfsFs.file, hloaded.inode hfiles, vnode_withLoaded]
    exact bare_newInode.fileBlock _
  · rw [SfsFs.size, vnode_withLoaded]
    show ((Record.zeros : Block).set sfiType 1).get sfiSize = 0
    rw [Record.get_set_of_disjoint _ _ (by decide) (by decide), Record.get_zeros]
  · intro slot hslot
    cases slot with
    | inode => exact absurd rfl hslot
    | indirect =>
        rw [SfsFs.blockAt, hinode]
        exact bare_newInode.indirect
    | data k =>
        rw [SfsFs.blockAt, hinode]
        exact bare_newInode.dataBlock _ k

theorem Made.fresh {b : Nat} (hmade : Made n live count refs (fs.withFresh b) ino sv fs'')
    (hkeeps : Keeps live fs (fs.withFresh b)) : Made n live count refs fs ino sv fs'' :=
  ⟨hmade.new, hmade.volume, hkeeps.trans hmade.keeps, hmade.loaded,
    fun sv' ino' hloaded => hmade.stays sv' ino' ⟨hloaded.mem, hloaded.ino⟩, hmade.file,
    hmade.size, hmade.bare, hmade.free, hmade.table, hmade.vnode⟩

/-- Why no file is made, and the free map after the attempt. -/
inductive NotMade (fs : SfsFs) (mem : Memory) : Bitmap → Prop where
  | full (hnone : fs.freeBlocks = 0) : NotMade fs mem fs.sfsFreemap
  | memory (b : Nat) (hsome : 0 < fs.freeBlocks) (hmem : ¬ mem.Enough)
      (hclear : fs.sfsFreemap.bitmapIsset b = false) : NotMade fs mem (fs.sfsFreemap.mark b)

/-- The block of the new inode is the only one that was allocated. -/
structure MadeIn (fs : SfsFs) (ino : Nat) (mem : Memory) (fs' : SfsFs) : Prop where
  enough : mem.Enough
  clear : fs.sfsFreemap.bitmapIsset ino = false
  marks : fs'.sfsFreemap = fs.sfsFreemap.mark ino
  count : fs.freeBlocks = fs'.freeBlocks + 1

/-- `sfs_makeobj` makes an empty file that has no name yet. -/
theorem sfsMakeobj_wp {dir : Nat} (h : Volume n live count refs fs) (hdir : Loaded fs dir 1)
    {mem : Memory} (hmem : mem.Fresh fs) :
    Prog.wp (sfsMakeobj 1 mem)
      (fun sv fs' => ∃ ino, Made n live count refs fs ino sv fs' ∧ MadeIn fs ino mem fs')
      (fun _ fs' => Untouched n live count refs fs fs' ∧ NotMade fs mem fs'.sfsFreemap)
      (fun _ => False) fs := by
  unfold sfsMakeobj
  rw [Prog.wp_bind]
  refine h.files.balloc hdir (fun hnone => ⟨.refl h, .full hnone⟩) ?_
  intro b hleaves hfresh hclear hcount
  have hvolume := h.only hdir hleaves.only hleaves.files
  have hkeeps := (h.files.stays_fresh hclear).toKeeps
  have hnone := hfresh.loaded hleaves.files
  have hb : b < n := by
    have hfree := hfresh.unreserved
    unfold Reserved at hfree
    omega
  have hused : b < (fs.withFresh b).spNblocks ∧
      (fs.withFresh b).sfsFreemap.bitmapIsset b = true := by
    refine ⟨?_, hfresh.isset⟩
    rw [hleaves.files.guarded.nblocks]
    exact hb
  have huntouched : Untouched n live count refs fs (fs.withFresh b) :=
    ⟨hvolume, hkeeps, rfl, fun _ _ => rfl⟩
  have hlost : ¬ mem.Enough → NotMade fs mem (fs.withFresh b).sfsFreemap :=
    fun hmem => .memory b (by omega) hmem hclear
  unfold sfsLoadvnode
  simp only [↓Prog.wp_bind, ↓Prog.wp_get]
  refine Prog.wp_mono (findLoaded_wp hleaves.files (fun _ hmem => hmem)) ?_
    (fun _ _ hfails => hfails.elim) (fun _ hbad => hbad)
  rintro found _ ⟨hfound, hsame⟩
  rw [hsame]
  obtain rfl : found = none := hfound.trans hnone
  cases hkmalloc : mem.kmalloc with
  | none =>
      unfold loadvnodeFound
      rw [hkmalloc]
      exact ⟨huntouched, hlost fun henough => henough.kmalloc hkmalloc⟩
  | some sv =>
      have hsv : sv ∉ (fs.withFresh b).sfsVnodes := hmem sv hkmalloc
      have hmade := Files.made hvolume hsv hfresh
      unfold loadvnodeFound loadInode
      rw [hkmalloc]
      simp only [↓Prog.wp_bind]
      refine wp_sfsBused hused ?_
      rw [Prog.wp_assert, if_pos rfl]
      have hdevice : b < (fs.withFresh b).dBlocks :=
        Nat.lt_of_lt_of_le hb hleaves.files.guarded.device
      refine wp_sfsRblock _ hdevice hleaves.files.quiet ?_
      rw [Prog.wp_ite, if_pos (by decide), hfresh.zeros]
      simp only [↓Prog.wp_bind, ↓Prog.wp_assert]
      rw [if_pos (Record.get_zeros _)]
      have htype : ((Record.zeros : Block).set sfiType 1).get sfiType = typeOf b := by
        have hnew := hmade.volume.type_loaded hmade.loaded
        rw [vnode_withLoaded] at hnew
        exact hnew
      have hforgotten := hvolume.withUnlisted hsv
        (newVnode b ((Record.zeros : Block).set sfiType 1) true)
      refine initVnode_wp htype true mem ?_ ?_ ?_
      · intro hlock
        refine ⟨huntouched, hlost fun henough => ?_⟩
        rw [henough.lockCreate] at hlock
        cases hlock
      · intro harray
        refine ⟨⟨hforgotten.volume, hkeeps.trans hforgotten.keeps, hforgotten.table,
          hforgotten.vnode⟩, hlost fun henough => ?_⟩
        rw [henough.arrayAdd] at harray
        cases harray
      · intro hlock harray
        exact ⟨b, hmade.fresh hkeeps, ⟨by simp [hkmalloc], hlock, harray⟩, hclear, rfl, hcount⟩

/-! Link counts. -/

/-- Another link count for an inode in memory. -/
theorem Volume.relink (h : Volume n live count refs fs) (hloaded : Loaded fs sv ino) {x : Nat}
    (hx : x < 2 ^ 16) :
    Volume n live (Function.update count ino x) refs
        (fs.withInode sv ((fs.vnode sv).svI.set sfiLinkcount x)) ∧
      Keeps live fs (fs.withInode sv ((fs.vnode sv).svI.set sfiLinkcount x)) ∧
      StaysLoaded fs (fs.withInode sv ((fs.vnode sv).svI.set sfiLinkcount x)) := by
  have hino : ({ fs.vnode sv with
      svI := (fs.vnode sv).svI.set sfiLinkcount x, svDirty := true } : SfsVnode).svIno = ino :=
    hloaded.ino
  obtain ⟨hfiles, hkeeps⟩ := h.files.withVnode hloaded hino (fun hdirty => by cases hdirty)
    (dataBlock_set_header _ _ header_sfiLinkcount x) (header_sfiLinkcount.indirect _ x)
    (Record.get_set_of_disjoint _ _ (by decide) (by decide))
  have hown := h.files.inode_withInode hloaded ((fs.vnode sv).svI.set sfiLinkcount x)
  have hother : ∀ other, other ≠ ino →
      (fs.withInode sv ((fs.vnode sv).svI.set sfiLinkcount x)).inode other = fs.inode other :=
    fun other hne => inode_withVnode_of_ne hloaded hino hne
  have hsvIno : ∀ other, ((fs.withInode sv ((fs.vnode sv).svI.set sfiLinkcount x)).vnode
      other).svIno = (fs.vnode other).svIno := svIno_withVnode hloaded hino
  have hlive := hloaded.alive h.files
  refine ⟨⟨hfiles, h.root, ?_, ?_, ?_, ?_, ?_, h.referenced⟩, hkeeps, ?_⟩
  · intro other hother'
    by_cases heq : other = ino
    · rw [heq, hown, Record.get_set_of_disjoint _ _ (by decide) (by decide)]
      exact h.type_loaded hloaded
    · rw [hother other heq]
      exact h.type other hother'
  · intro other hother'
    by_cases heq : other = ino
    · rw [heq, hown, Function.update_self]
      exact Record.get_set _ (by decide) hx
    · rw [hother other heq, Function.update_of_ne heq]
      exact h.linkcount other hother'
  · intro other hne hgone
    have heq : other ≠ ino := by
      intro heq
      rw [heq, hlive] at hgone
      cases hgone
    rw [Function.update_of_ne heq]
    exact h.unlinked other hne hgone
  · intro other hmem
    rw [hsvIno]
    by_cases heq : other = sv
    · rw [heq, vnode_withInode]
      exact h.ops sv hloaded.mem
    · rw [vnode_withInode_of_ne heq]
      exact h.ops other hmem
  · intro other hmem
    by_cases heq : other = sv
    · rw [heq, vnode_withInode]
      exact h.refcount sv hloaded.mem
    · rw [vnode_withInode_of_ne heq]
      exact h.refcount other hmem
  · intro other ino' hother'
    refine ⟨hother'.mem, ?_⟩
    rw [hsvIno]
    exact hother'.ino

theorem linkcountUp_wp (h : Volume n live count refs fs) (hloaded : Loaded fs sv ino)
    (hroom : count ino + 1 < 2 ^ 16) :
    Prog.Returns (linkcountUp sv) (fun _ fs' =>
      Volume n live (Function.update count ino (count ino + 1)) refs fs' ∧ Keeps live fs fs' ∧
        StaysLoaded fs fs') fs := by
  unfold linkcountUp Prog.Returns
  rw [Prog.wp_bind, Prog.wp_get, wp_setInode, h.linkcount_loaded hloaded]
  exact h.relink hloaded hroom

theorem linkcountDown_wp (h : Volume n live count refs fs) (hloaded : Loaded fs sv ino)
    (hlinked : 0 < count ino) (hroom : count ino < 2 ^ 16) (fault : Fault) :
    Prog.Returns (linkcountDown sv fault) (fun _ fs' =>
      Volume n live (Function.update count ino (count ino - 1)) refs fs' ∧ Keeps live fs fs' ∧
        StaysLoaded fs fs') fs := by
  unfold linkcountDown Prog.Returns
  simp only [↓Prog.wp_bind, ↓Prog.wp_get, ↓Prog.wp_assert, wp_setInode]
  rw [h.linkcount_loaded hloaded, if_pos hlinked]
  exact h.relink hloaded (by omega)

end OS161.Sfs
