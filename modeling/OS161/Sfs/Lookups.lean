import OS161.Sfs.Tree

namespace OS161.Sfs

open OS161.Data
open OS161.Kern
open OS161.Lib
open OS161.Vfs

/-! The calls that hand out vnodes and take them back, and what they do to the store. -/

variable {fs fs' : SfsFs} {live : Nat → Bool} {refs : Nat → Nat}
variable {dir sv ino n : Nat} {name : Name} {mem : Memory}

/-! Why a vnode is not handed out. -/

/-- A vnode is handed out exactly if it is in memory or there is memory for it. -/
theorem sfsLoadvnode_reason {count : Nat → Nat} (h : Volume n live count refs fs)
    (hlive : live ino = true) :
    Prog.wp (sfsLoadvnode ino 0 mem)
      (fun _ fs' => (mem.Enough ∨ fs.loaded ino ≠ none) ∧ fs'.sfsFreemap = fs.sfsFreemap)
      (fun code _ => code = .ENOMEM ∧ ¬ mem.Enough) (fun _ => False) fs := by
  unfold sfsLoadvnode
  simp only [↓Prog.wp_bind, ↓Prog.wp_get]
  refine Prog.wp_mono (findLoaded_wp h.files (fun _ hmem => hmem)) ?_
    (fun _ _ hfails => hfails.elim) (fun _ hbad => hbad)
  rintro found _ ⟨hfound, hsame⟩
  rw [hsame]
  have hfound' : found = fs.loaded ino := hfound
  cases found with
  | some sv =>
      unfold loadvnodeFound
      simp only [↓Prog.wp_bind, ↓Prog.wp_assert, ↓Prog.wp_pure]
      rw [if_pos trivial, vopIncref, wp_updateVnode, ← hfound']
      exact ⟨Or.inr (by simp), rfl⟩
  | none =>
      cases hkmalloc : mem.kmalloc with
      | none =>
          unfold loadvnodeFound
          rw [hkmalloc]
          exact ⟨rfl, fun henough => henough.kmalloc hkmalloc⟩
      | some sv =>
          have hinode : fs.inode ino = fs.disk ino := by
            rw [SfsFs.inode, ← hfound']
          have htype := h.type ino hlive
          rw [hinode] at htype
          unfold loadvnodeFound loadInode
          rw [hkmalloc]
          simp only [↓Prog.wp_bind]
          refine wp_sfsBused (h.files.inode_used hlive) ?_
          rw [Prog.wp_assert, if_pos rfl]
          refine wp_sfsRblock _ (h.files.on_device hlive (@rfl _ (fs.blockAt ino .inode))
            (h.files.ne_zero hlive)) h.files.quiet ?_
          rw [Prog.wp_ite, if_neg (by simp)]
          refine initVnode_wp htype false mem ?_ ?_ ?_
          · intro hlock
            exact ⟨rfl, fun henough => by rw [henough.lockCreate] at hlock; cases hlock⟩
          · intro harray
            exact ⟨rfl, fun henough => by rw [henough.arrayAdd] at harray; cases harray⟩
          · intro hlock harray
            exact ⟨Or.inl ⟨by rw [hkmalloc]; simp, hlock, harray⟩, rfl⟩

theorem sfsLookonce_reason (h : Sound n live refs fs) (hdir : Loaded fs dir 1) :
    Prog.wp (sfsLookonce dir name mem) (fun _ fs' => fs'.sfsFreemap = fs.sfsFreemap)
      (fun code _ => code = .ENOENT ∧ fs.tree.names name.val = none ∨
        code = .ENOMEM ∧ ¬ mem.Enough) (fun _ => True) fs := by
  unfold sfsLookonce
  rw [Prog.wp_bind]
  refine Prog.wp_mono (sfsDirFindname_wp (h.rootDir hdir) name) ?_ (fun _ _ hfails => hfails.elim)
    (fun _ hbad => hbad.elim)
  rintro scan _ ⟨hscan, rfl⟩
  split
  case h_1 hnone =>
      exact Or.inl ⟨rfl, (tree_names_none h.names).mpr fun _ => hscan.unbound hnone⟩
  case h_2 slot ino hfound =>
      have hbound := hscan.bound hfound
      simp only [↓Prog.wp_bind, ↓Prog.wp_get, ↓Prog.wp_assert, ↓Prog.wp_pure]
      refine Prog.wp_mono (sfsLoadvnode_reason h.volume (h.alive hbound)) ?_ ?_
        (fun _ hbad => hbad.elim)
      · rintro _ fs' ⟨_, hfreemap⟩
        split
        case isTrue => exact hfreemap
        case isFalse => trivial
      · exact fun _ _ hshort => Or.inr hshort

/-! Vnodes handed out. -/

theorem Untouched.yields (h : Orderly n fs)
    (hsame : Untouched n fs.alive fs.linkcounts fs.tree.refs fs fs') : Yields n fs .none fs' := by
  have hroot := h.sound.volume.root
  refine h.yields_none (h.sound.keep hsame.keeps hroot hsame.volume)
    (fun _ _ => hsame.keeps.binds hroot) ?_ hsame.keeps.elsewhere
  intro sv ino hloaded
  exact ⟨by rw [hsame.table]; exact hloaded.mem, by rw [hsame.vnode sv hloaded.mem, hloaded.ino]⟩

/-- No two vnodes have the same inode. -/
theorem Loaded.vnode_eq {other : Nat} (h : Files n live fs) (hloaded : Loaded fs sv ino)
    (hother : Loaded fs other ino) : other = sv :=
  h.distinct other hother.mem sv hloaded.mem (hother.ino.trans hloaded.ino.symm)

theorem HandedOut.enabled
    (hout : HandedOut n live fs.linkcounts refs fs ino sv fs') :
    fs.tree.Enabled (.hold sv ino) := by
  by_cases hbefore : sv ∈ fs.sfsVnodes
  · left
    have hloaded := hout.stays sv _ ⟨hbefore, rfl⟩
    exact tree_handles.mpr ⟨hbefore, hloaded.ino.symm.trans hout.loaded.ino⟩
  · refine Or.inr ⟨tree_handles_none.mpr hbefore, fun other hother => hbefore ?_⟩
    have hloaded := tree_handles.mp hother
    have heq := hout.loaded.vnode_eq hout.volume.files (hout.stays other ino hloaded)
    rw [← heq]
    exact hloaded.mem

theorem HandedOut.yields (h : Orderly n fs)
    (hout : HandedOut n fs.alive fs.linkcounts fs.tree.refs fs ino sv fs') :
    Yields n fs (.hold sv ino) fs' := by
  have hroot := h.sound.volume.root
  refine h.yields_kept (h.sound.keep hout.keeps hroot hout.volume) hout.enabled
    (fun name other => (hout.keeps.binds hroot).trans (tree_names h.sound.names).symm) ?_
    (fun _ heq => by cases heq) (fun _ heq => by cases heq) hout.keeps.elsewhere
    (fun _ _ => rfl)
  intro other ino' hother
  rw [FlatStore.handlesAfter] at hother
  by_cases heq : other = sv
  · rw [heq, Function.update_self] at hother
    rw [heq, ← Option.some.inj hother]
    exact hout.loaded
  · rw [Function.update_of_ne heq] at hother
    exact hout.stays other ino' (tree_handles.mp hother)

theorem vopIncref_yields (h : Orderly n fs) (hloaded : Loaded fs sv ino) :
    Prog.Returns (vopIncref sv) (fun _ fs' => Yields n fs (.hold sv ino) fs') fs :=
  Prog.Returns.mono (vopIncref_wp h.sound.volume hloaded) fun _ _ hout => hout.yields h

/-! Vnodes given back. -/

/-- A reference is given back where the link counts may be others than the entries. -/
theorem GivenBack.loaded {count : Nat → Nat} {other ino' : Nat}
    (hback : GivenBack n live count refs sv ino fs fs') (hloaded : Loaded fs other ino')
    (hstays : other = sv → refs sv ≠ 1) : Loaded fs' other ino' := by
  have hino : (fs'.vnode other).svIno = (fs.vnode other).svIno := by
    by_cases heq : other = sv
    · rw [heq]
      exact hback.svIno
    · rw [hback.vnode other heq]
  refine ⟨?_, by rw [hino, hloaded.ino]⟩
  rw [hback.table]
  split
  case isTrue hlast =>
      exact (List.mem_erase_of_ne fun heq => hstays heq hlast).mpr hloaded.mem
  case isFalse => exact hloaded.mem

/-- Who is still there has not become fewer by more than the file that was given back. -/
theorem alive_of_remaining {count : Nat → Nat} {other : Nat}
    (hremains : remaining live count refs sv ino other = true) :
    live other = true ∧ (other = ino → ¬ (refs sv = 1 ∧ count ino = 0)) := by
  unfold remaining at hremains
  split at hremains
  case isTrue =>
      by_cases heq : other = ino
      · rw [heq, Function.update_self] at hremains
        cases hremains
      · rw [Function.update_of_ne heq] at hremains
        exact ⟨hremains, fun h => absurd h heq⟩
  case isFalse hkept => exact ⟨hremains, fun _ => hkept⟩

theorem vopDecref_yields (h : Orderly n fs) (hloaded : Loaded fs sv ino) :
    Prog.Returns (vopDecref sv) (fun _ fs' => Yields n fs (.drop sv) fs') fs := by
  refine Prog.Returns.mono (vopDecref_wp h.sound.volume hloaded (linkcounts_root fs)) ?_
  intro _ fs' hback
  have hlive := hloaded.alive h.sound.files
  have hroot : remaining fs.alive fs.linkcounts fs.tree.refs sv ino 1 = true := by
    unfold remaining
    split
    case isTrue hgone =>
        have hne : 1 ≠ ino := by
          rintro rfl
          exact absurd hgone.2 (Nat.ne_of_gt (linkcounts_root fs))
        rw [Function.update_of_ne hne]
        exact h.sound.volume.root
    case isFalse => exact h.sound.volume.root
  have henabled : fs.tree.Enabled (.drop sv) := by
    show fs.tree.handles sv ≠ none
    rw [tree_handles.mpr hloaded]
    simp
  have hkept : ∀ other, remaining fs.alive fs.linkcounts fs.tree.refs sv ino other = true →
      fs.alive other = true := fun other hother => (alive_of_remaining hother).1
  refine h.yields (h.sound.keep hback.keeps hroot hback.volume) henabled
    (fun name other => (hback.keeps.binds hroot).trans (tree_names h.sound.names).symm) ?_ ?_ ?_ ?_
  · intro other ino' hother
    rw [FlatStore.handlesAfter] at hother
    split at hother
    case isTrue hlast =>
        by_cases heq : other = sv
        · rw [heq, Function.update_self] at hother
          cases hother
        · rw [Function.update_of_ne heq] at hother
          exact hback.loaded (tree_handles.mp hother) (fun h => absurd h heq)
    case isFalse hmore => exact hback.loaded (tree_handles.mp hother) (fun _ => hmore)
  · intro other hother
    obtain ⟨halive, hgone⟩ := alive_of_remaining hother
    rcases h.alive_iff.mp halive with hroot | hnamed | ⟨sv', hsv'⟩
    · exact Or.inl hroot
    · exact Or.inr (Or.inl hnamed)
    · by_cases hlast : fs.tree.refs sv = 1
      · by_cases heq : other = ino
        · -- the last reference goes, but a name is left
          by_cases hone : ino = 1
          · exact Or.inl (heq.trans hone)
          · have hlinks : fs.links ino ≠ 0 := by
              intro hnone
              refine hgone heq ⟨hlast, ?_⟩
              rw [SfsFs.linkcounts, hnone, if_neg hone]
            obtain ⟨name, hbinds⟩ :=
              (binds_iff_links (h.sound.files.ne_zero hlive)).mpr hlinks
            rw [heq]
            exact Or.inr (Or.inl ⟨name, (tree_names h.sound.names).mpr hbinds⟩)
        · have hne : sv' ≠ sv := by
            rintro rfl
            exact heq ((tree_handles.mp hsv').ino.symm.trans hloaded.ino)
          refine Or.inr (Or.inr ⟨sv', ?_⟩)
          rw [FlatStore.handlesAfter, if_pos hlast, Function.update_of_ne hne]
          exact hsv'
      · refine Or.inr (Or.inr ⟨sv', ?_⟩)
        rw [FlatStore.handlesAfter, if_neg hlast]
        exact hsv'
  · intro other hne hother
    exact hback.keeps.elsewhere.data hne hother
  · intro other hne hother
    rw [hback.keeps.elsewhere.data hne hother]
    exact h.sizes other (hkept other hother)

end OS161.Sfs
