import OS161.Data.FlatStore
import OS161.Sfs.Rename

namespace OS161.Sfs

open OS161.Data
open OS161.Kern
open OS161.Lib
open OS161.Vfs

/-! The file system as its callers see it: a flat store of files. -/

variable {fs fs' : SfsFs} {live live' : Nat → Bool} {refs refs' : Nat → Nat}
variable {sv ino n : Nat} {name : List Byte}

/-- The slot of the directory that a name is in. -/
def SfsFs.slotOf (fs : SfsFs) (name : List Byte) : Option Nat :=
  (List.range fs.slots).find? fun slot =>
    (fs.entry slot).get sfdIno ≠ 0 ∧ (fs.entry slot).sfdName = name

/-- The names, the vnodes in memory, and the bytes of the files. -/
def SfsFs.tree (fs : SfsFs) : FlatStore (List Byte) Nat Nat where
  names name := (fs.slotOf name).map fun slot => (fs.entry slot).get sfdIno
  handles sv := if sv ∈ fs.sfsVnodes then some (fs.vnode sv).svIno else none
  refs sv := if sv ∈ fs.sfsVnodes then (fs.vnode sv).vnRefcount else 0
  data ino := ⟨fileBytes (fs.file ino), (fs.inode ino).get sfiSize⟩

theorem tree_names (hnames : DirNames fs) :
    fs.tree.names name = some ino ↔ fs.Binds name ino := by
  show (fs.slotOf name).map _ = some ino ↔ _
  rw [Option.map_eq_some_iff]
  constructor
  · rintro ⟨slot, hfound, rfl⟩
    have hin := List.mem_range.mp (List.mem_of_find?_eq_some hfound)
    have hmatch := List.find?_some hfound
    rw [decide_eq_true_eq] at hmatch
    exact ⟨slot, hin, rfl, hmatch.1, hmatch.2⟩
  · rintro ⟨slot, hbound⟩
    cases hfound : fs.slotOf name with
    | none =>
        have hnone := List.find?_eq_none.mp hfound slot (List.mem_range.mpr hbound.inside)
        rw [decide_eq_true_eq, hbound.number] at hnone
        exact absurd ⟨hbound.used, hbound.called⟩ hnone
    | some other =>
        have hin := List.mem_range.mp (List.mem_of_find?_eq_some hfound)
        have hmatch := List.find?_some hfound
        rw [decide_eq_true_eq] at hmatch
        have hother : fs.BoundAt other name ((fs.entry other).get sfdIno) :=
          ⟨hin, rfl, hmatch.1, hmatch.2⟩
        exact ⟨other, rfl, hnames.ino_eq ⟨other, hother⟩ ⟨slot, hbound⟩⟩

theorem tree_names_none (hnames : DirNames fs) :
    fs.tree.names name = none ↔ ∀ ino, ¬ fs.Binds name ino := by
  rw [Option.eq_none_iff_forall_ne_some]
  exact forall_congr' fun ino => not_congr (tree_names hnames)

theorem tree_handles : fs.tree.handles sv = some ino ↔ Loaded fs sv ino := by
  show (if sv ∈ fs.sfsVnodes then some (fs.vnode sv).svIno else none) = some ino ↔ _
  constructor
  · intro hsome
    split at hsome
    case isTrue hmem => exact ⟨hmem, Option.some.inj hsome⟩
    case isFalse => cases hsome
  · intro hloaded
    rw [if_pos hloaded.mem, hloaded.ino]

theorem tree_handles_none : fs.tree.handles sv = none ↔ sv ∉ fs.sfsVnodes := by
  show (if sv ∈ fs.sfsVnodes then some (fs.vnode sv).svIno else none) = none ↔ _
  split
  case isTrue hmem => simp [hmem]
  case isFalse hmem => simp [hmem]

theorem Volume.tree_refs {count : Nat → Nat} (h : Volume n live count refs fs) :
    fs.tree.refs = refs := by
  funext sv
  show (if sv ∈ fs.sfsVnodes then (fs.vnode sv).vnRefcount else 0) = refs sv
  split
  case isTrue hmem => exact h.refcount sv hmem
  case isFalse hmem =>
      have hnone := mt (h.referenced sv).mpr hmem
      omega

/-- The inodes there are: the root, and those with a name or a vnode. -/
def SfsFs.alive (fs : SfsFs) (ino : Nat) : Bool :=
  ino = 1 || (ino ≠ 0 && fs.links ino ≠ 0) || (fs.loaded ino).isSome

theorem binds_iff_links (hused : ino ≠ 0) :
    (∃ name, fs.Binds name ino) ↔ fs.links ino ≠ 0 := by
  rw [links_pos_iff]
  constructor
  · rintro ⟨name, slot, hbound⟩
    exact ⟨slot, hbound.inside, hbound.number⟩
  · rintro ⟨slot, hinside, hnumber⟩
    exact ⟨_, slot, hinside, hnumber, hused, rfl⟩

/-- The volume is in order, and no inode is left over without a name or a vnode. -/
structure Orderly (n : Nat) (fs : SfsFs) : Prop where
  sound : Sound n fs.alive fs.tree.refs fs
  sizes : ∀ ino, fs.alive ino = true → (fs.tree.data ino).size < 2 ^ 31

theorem alive_iff (h : Sound n live refs fs) :
    fs.alive ino = true ↔ ino = 1 ∨ fs.tree.Alive ino := by
  have hnamed : (ino ≠ 0 ∧ fs.links ino ≠ 0) ↔ ∃ name, fs.tree.names name = some ino := by
    constructor
    · rintro ⟨hused, hlinks⟩
      obtain ⟨name, hbinds⟩ := (binds_iff_links hused).mpr hlinks
      exact ⟨name, (tree_names h.names).mpr hbinds⟩
    · rintro ⟨name, hname⟩
      obtain ⟨slot, hbound⟩ := (tree_names h.names).mp hname
      exact ⟨hbound.used, (binds_iff_links hbound.used).mp ⟨name, slot, hbound⟩⟩
  have hheld : (fs.loaded ino).isSome = true ↔ ∃ sv, fs.tree.handles sv = some ino := by
    constructor
    · intro hsome
      obtain ⟨sv, hfound⟩ := Option.isSome_iff_exists.mp hsome
      have hmatch := List.find?_some hfound
      rw [decide_eq_true_eq] at hmatch
      exact ⟨sv, tree_handles.mpr ⟨List.mem_of_find?_eq_some hfound, hmatch⟩⟩
    · rintro ⟨sv, hsv⟩
      have hloaded := tree_handles.mp hsv
      rw [← hloaded.ino, h.files.loaded_eq hloaded.mem]
      rfl
  simp only [SfsFs.alive, Bool.or_eq_true, Bool.and_eq_true, decide_eq_true_eq]
  rw [hnamed, hheld, or_assoc]
  rfl

/-- The inodes counted in a sound volume are the ones there are, where none is left over. -/
theorem Sound.orderly (h : Sound n live refs fs)
    (hlive : ∀ ino, live ino = true → ino = 1 ∨ fs.tree.Alive ino)
    (hsizes : ∀ ino, ino ≠ 1 → live ino = true → (fs.tree.data ino).size < 2 ^ 31) :
    Orderly n fs := by
  have hall : live = fs.alive := by
    funext ino
    rw [Bool.eq_iff_iff, alive_iff h]
    refine ⟨hlive ino, ?_⟩
    rintro (rfl | ⟨name, hname⟩ | ⟨sv, hsv⟩)
    · exact h.volume.root
    · obtain ⟨slot, hbound⟩ := (tree_names h.names).mp hname
      exact h.alive hbound
    · exact (tree_handles.mp hsv).alive h.files
  have hrefs := h.volume.tree_refs
  refine ⟨by rw [hrefs, ← hall]; exact h, ?_⟩
  intro ino halive
  by_cases hroot : ino = 1
  · have hbound := h.size.bound
    show (fs.inode ino).get sfiSize < 2 ^ 31
    rw [hroot]
    omega
  · exact hsizes ino hroot (by rw [hall]; exact halive)

/-! What a call leaves. -/

/-- The volume is in order after the call, and the store has changed by this effect. -/
structure Yields (n : Nat) (fs : SfsFs) (e : Effect (List Byte) Nat Nat) (fs' : SfsFs) :
    Prop where
  orderly : Orderly n fs'
  step : FlatStore.Step 1 e fs.tree fs'.tree

theorem Orderly.counted (h : Orderly n fs) : fs.tree.Counted := by
  intro sv
  rw [tree_handles_none, h.sound.volume.referenced sv]
  omega

theorem Orderly.alive_iff (h : Orderly n fs) : fs.alive ino = true ↔ ino = 1 ∨ fs.tree.Alive ino :=
  Sfs.alive_iff h.sound

/-- What the specification of a call says about the state after it, put together. -/
theorem Orderly.yields {e : Effect (List Byte) Nat Nat} (h : Orderly n fs)
    (hsound : Sound n live' (fs.tree.refsAfter e) fs') (henabled : fs.tree.Enabled e)
    (hnames : ∀ name ino, fs'.Binds name ino ↔ fs.tree.namesAfter e name = some ino)
    (hheld : ∀ sv ino, fs.tree.handlesAfter e sv = some ino → Loaded fs' sv ino)
    (hlive : ∀ ino, live' ino = true → ino = 1 ∨ fs.tree.AliveAfter e ino)
    (hdata : ∀ ino, ino ≠ 1 → live' ino = true →
      FlatStore.Leaves ino (fs.tree.data ino) (fs'.tree.data ino) e)
    (hsizes : ∀ ino, ino ≠ 1 → live' ino = true → (fs'.tree.data ino).size < 2 ^ 31) :
    Yields n fs e fs' := by
  have hrefs := hsound.volume.tree_refs
  have hnames' : fs'.tree.names = fs.tree.namesAfter e := by
    funext name
    refine Option.ext fun ino => ?_
    rw [tree_names hsound.names]
    exact hnames name ino
  have hhandles' : fs'.tree.handles = fs.tree.handlesAfter e := by
    funext sv
    cases hafter : fs.tree.handlesAfter e sv with
    | some ino => exact tree_handles.mpr (hheld sv ino hafter)
    | none =>
        have hnone := (FlatStore.counted_after h.counted henabled sv).mp hafter
        rw [tree_handles_none, hsound.volume.referenced sv, hnone]
        exact Nat.lt_irrefl 0
  have halive : ∀ ino, fs'.tree.Alive ino ↔ fs.tree.AliveAfter e ino := by
    intro ino
    rw [FlatStore.Alive, FlatStore.AliveAfter, hnames', hhandles']
  have horderly : Orderly n fs' :=
    hsound.orderly (fun ino hino => (hlive ino hino).imp_right (halive ino).mpr) hsizes
  refine ⟨horderly, henabled, hnames', hhandles', hrefs, ?_⟩
  intro ino hroot hino
  refine hdata ino hroot ?_
  obtain ⟨name, hname⟩ | ⟨sv, hsv⟩ := hino
  · obtain ⟨slot, hbound⟩ := (tree_names hsound.names).mp hname
    exact hsound.alive hbound
  · exact (tree_handles.mp hsv).alive hsound.files

/-- Where no name goes and no handle is given back, the inodes there were are there. -/
theorem Orderly.alive_after {e : Effect (List Byte) Nat Nat} (h : Orderly n fs)
    (henabled : fs.tree.Enabled e) (hunlink : ∀ name, e ≠ .unlink name)
    (hdrop : ∀ sv, e ≠ .drop sv) (hino : fs.alive ino = true) :
    ino = 1 ∨ fs.tree.AliveAfter e ino :=
  (h.alive_iff.mp hino).imp_right fun halive => halive.after henabled hunlink hdrop

theorem Elsewhere.data (helse : Elsewhere live fs fs') (hroot : ino ≠ 1)
    (hino : live ino = true) : fs'.tree.data ino = fs.tree.data ino := by
  show FileData.mk _ _ = FileData.mk _ _
  rw [helse.file ino hino hroot, helse.size ino hino hroot]

/-- Calls that leave the data of every file alone. -/
theorem Orderly.yields_kept {e : Effect (List Byte) Nat Nat} (h : Orderly n fs)
    (hsound : Sound n fs.alive (fs.tree.refsAfter e) fs') (henabled : fs.tree.Enabled e)
    (hnames : ∀ name ino, fs'.Binds name ino ↔ fs.tree.namesAfter e name = some ino)
    (hheld : ∀ sv ino, fs.tree.handlesAfter e sv = some ino → Loaded fs' sv ino)
    (hunlink : ∀ name, e ≠ .unlink name) (hdrop : ∀ sv, e ≠ .drop sv)
    (helse : Elsewhere fs.alive fs fs')
    (hleaves : ∀ ino (d : FileData), FlatStore.Leaves ino d d e) : Yields n fs e fs' := by
  refine h.yields hsound henabled hnames hheld
    (fun ino hino => h.alive_after henabled hunlink hdrop hino) ?_ ?_
  · intro ino hroot hino
    rw [helse.data hroot hino]
    exact hleaves ino _
  · intro ino hroot hino
    rw [helse.data hroot hino]
    exact h.sizes ino hino

/-- A call without effect. -/
theorem Orderly.yields_none (h : Orderly n fs) (hsound : Sound n fs.alive fs.tree.refs fs')
    (hnames : ∀ name ino, fs'.Binds name ino ↔ fs.Binds name ino)
    (hstays : StaysLoaded fs fs') (helse : Elsewhere fs.alive fs fs') :
    Yields n fs .none fs' :=
  h.yields_kept hsound trivial (fun name ino => (hnames name ino).trans (tree_names h.sound.names).symm)
    (fun sv ino hsv => hstays sv ino (tree_handles.mp hsv)) (fun _ heq => by cases heq)
    (fun _ heq => by cases heq) helse (fun _ _ => rfl)

end OS161.Sfs
