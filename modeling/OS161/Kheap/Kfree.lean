import OS161.Kheap.Kmalloc

namespace OS161.Kheap

open OS161.Data

section Runs

variable {h h' : KHeap} {pages below above : List Page} {bigs : List (Nat × Nat)}
variable {pg other : Page} {ptr size : Nat}

theorem bigRun_pos (hsize : LARGEST_SUBPAGE_SIZE ≤ entry.2) : 0 < (bigRun entry).2 := by
  simp only [LARGEST_SUBPAGE_SIZE] at hsize
  simp only [bigRun]
  omega

theorem Apart.symm {one two : Nat × Nat} (hapart : Apart one two) : Apart two one :=
  Or.symm hapart

theorem Layout.run_pos (hlayout : Layout h pages bigs) (hrun : run ∈ h.kpages) :
    0 < run.2 := by
  rcases List.mem_append.mp (hlayout.kpages.mem_iff.mp hrun) with hpage | hbig
  · obtain ⟨pg, -, rfl⟩ := List.mem_map.mp hpage
    exact Nat.one_pos
  · obtain ⟨entry, hentry, rfl⟩ := List.mem_map.mp hbig
    exact bigRun_pos (hlayout.bigSize entry hentry)

/-- Everything the kernel holds is apart from everything else. -/
theorem Layout.runs_apart (hlayout : Layout h pages bigs) :
    (pages.map Page.run ++ bigs.map bigRun).Pairwise Apart :=
  (hlayout.kpages.pairwise_iff Apart.symm).mp hlayout.apart

theorem Layout.pages_apart (hlayout : Layout h (below ++ pg :: above) bigs)
    (hother : other ∈ below ++ above) :
    pg.addr + 4096 ≤ other.addr ∨ other.addr + 4096 ≤ pg.addr := by
  have hpairwise := (List.pairwise_append.mp hlayout.runs_apart).1
  have hfront := ((List.perm_middle.map Page.run).pairwise_iff
    Apart.symm).mp hpairwise
  rw [List.map_cons] at hfront
  have hapart := (List.pairwise_cons.mp hfront).1 _ (List.mem_map_of_mem hother)
  simpa [Apart, Page.run] using hapart

theorem Layout.page_big_apart (hlayout : Layout h pages bigs) (hpg : pg ∈ pages)
    (hbig : entry ∈ bigs) : Apart pg.run (bigRun entry) := by
  have hcross := (List.pairwise_append.mp hlayout.runs_apart).2.2
  exact hcross pg.run (List.mem_map_of_mem hpg) (bigRun entry) (List.mem_map_of_mem hbig)

/-- Giving one run back leaves the others. -/
theorem Layout.runs_erase (hlayout : Layout h pages bigs) {addr npages : Nat}
    {others : List (Nat × Nat)} (hruns : h.kpages.Perm ((addr, npages) :: others)) :
    (h.kpages.eraseP fun run => decide (run.1 = addr)).Perm others := by
  have hdistinct : h.kpages.Pairwise fun one two =>
      decide (one.1 = addr) = true → decide (two.1 = addr) = true → False := by
    refine hlayout.apart.imp_of_mem ?_
    intro one two hone htwo hapart heq heq'
    have hpos := hlayout.run_pos hone
    have hpos' := hlayout.run_pos htwo
    simp only [decide_eq_true_eq] at heq heq'
    simp only [Apart] at hapart
    omega
  have herased := hruns.eraseP (fun run => decide (run.1 = addr)) hdistinct
  rwa [List.eraseP_cons_of_pos (by simp)] at herased

end Runs

section Give

variable {mem mem' : Nat → Nat} {r : Pageref} {pg : Page} {ptr size : Nat}

/-- The page after a block came back. -/
def Page.give (pg : Page) (entry : Nat × Nat) : Page :=
  { pg with free := entry.1 :: pg.free, held := pg.held.erase entry }

theorem PageOk.give (hok : PageOk mem r pg) (hentry : entry ∈ pg.held)
    (hlink : mem' entry.1 =
      if r.freelistOffset = INVALID_OFFSET then 0 else pg.addr + r.freelistOffset)
    (hmem : ∀ fl ∈ pg.free, mem' fl = mem fl) :
    PageOk mem' { r with
      freelistOffset := entry.1 - pg.addr
      nfree := r.nfree + 1 } (pg.give entry) := by
  obtain ⟨hlow, hhigh, -⟩ := blocksOf_bounds hok.type (hok.held_mem hentry)
  have hperm := List.perm_cons_erase hentry
  have hnext : freeNext mem' entry.1 = pg.free.head? := by
    rw [freeNext, hlink, hok.offset]
    cases hfree : pg.free with
    | nil => simp [offsetOf]
    | cons fl rest =>
        have hfl : fl ∈ pg.free := by simp [hfree]
        obtain ⟨hlow', hhigh', -⟩ := blocksOf_bounds hok.type (hok.free_mem hfl)
        have hsizes := (sizes_facts _ hok.type).1
        have hpos := hok.pos
        rw [offsetOf, if_neg (show fl - pg.addr ≠ INVALID_OFFSET by
          simp only [INVALID_OFFSET]; omega)]
        rw [if_neg (by omega), List.head?_cons, Nat.add_sub_cancel' hlow']
  refine { hok with offset := rfl, nfree := ?_, links := ?_, partition := ?_, fits := ?_ }
  · simp only [Page.give, List.length_cons, hok.nfree]
  · refine ⟨rfl, ?_⟩
    rw [hnext]
    exact hok.links.congr (fun fl hfl => freeNext_congr (hmem fl hfl))
  · refine List.Perm.trans ?_ hok.partition
    refine List.Perm.trans ?_ ((hperm.map Prod.fst).append_left pg.free).symm
    exact List.perm_middle.symm
  · intro other hother
    exact hok.fits other (List.mem_of_mem_erase hother)

end Give

section Release

variable {h h' : KHeap} {pages below above : List Page} {bigs : List (Nat × Nat)}
variable {pg other : Page} {t : Nat}

/-- The pagerefs of the pages of one block size. -/
def refsOf (t : Nat) (pages : List Page) : List Nat :=
  (pages.filter fun pg => decide (pg.blktype = t)).map Page.ref

theorem mem_refsOf : pr ∈ refsOf t pages ↔ ∃ pg ∈ pages, pg.blktype = t ∧ pg.ref = pr := by
  simp [refsOf, and_assoc]

theorem refsOf_subset : refsOf t pages ⊆ pages.map Page.ref :=
  List.map_subset _ List.filter_sublist.subset

theorem refsOf_append : refsOf t (below ++ above) = refsOf t below ++ refsOf t above := by
  simp [refsOf]

theorem refsOf_middle_self :
    refsOf pg.blktype (below ++ pg :: above) =
      refsOf pg.blktype below ++ pg.ref :: refsOf pg.blktype above := by
  simp [refsOf]

theorem refsOf_middle_other (hne : pg.blktype ≠ t) :
    refsOf t (below ++ pg :: above) = refsOf t (below ++ above) := by
  simp [refsOf, hne]

/-- The state between `remove_lists` and `freepageref`: the page is on no list
but its pageref is still taken. -/
structure Removed (h h' : KHeap) (pages : List Page) : Prop where
  same : h' = { h with
    pagerefs := h'.pagerefs, sizebases := h'.sizebases, allbase := h'.allbase }
  all : Links (h'.next .all) h'.allbase (pages.map Page.ref) none
  samesize : ∀ t, t < NSIZES →
    Links (h'.next (.samesize t)) (h'.sizebases t) (refsOf t pages) none
  each : ∀ pg ∈ pages, PageOk h'.mem (h'.pagerefs pg.ref) pg

/-- Links between pagerefs do not matter to a page. -/
theorem PageOk.relinked {mem : Nat → Nat} {r : Pageref} (hok : PageOk mem r pg)
    (next next' : Option Nat) :
    PageOk mem { r with nextSamesize := next, nextAll := next' } pg :=
  { hok with }

theorem erase_middle {below above : List Nat} (hfresh : pr ∉ below) :
    (below ++ pr :: above).erase pr = below ++ above := by
  rw [List.erase_append_right _ hfresh, List.erase_cons_head]

theorem Managed.refs_fresh (hmanaged : Managed h (below ++ pg :: above)) :
    pg.ref ∉ below.map Page.ref ∧ pg.ref ∉ above.map Page.ref := by
  have hnodup := hmanaged.refs_nodup
  rw [List.map_append, List.map_cons] at hnodup
  have hfresh := (List.nodup_middle.mp hnodup).notMem
  simpa only [List.mem_append, not_or] using hfresh

theorem removeLists_spec (hmanaged : Managed h (below ++ pg :: above)) :
    Prog.Returns (removeLists pg.ref pg.blktype)
      (fun _ h' => Removed h h' (below ++ above)) h := by
  have hok := hmanaged.each pg (by simp)
  have hfresh := hmanaged.refs_fresh
  have hlength := hmanaged.length_le
  have hnodup := hmanaged.refs_nodup
  have hmember : pg.ref ∈ refsOf pg.blktype (below ++ pg :: above) :=
    mem_refsOf.mpr ⟨pg, by simp, rfl, rfl⟩
  simp only [removeLists, ↓Prog.wp_bind, ↓Prog.wp_assert, if_pos hok.type]
  have hturns : (refsOf pg.blktype (below ++ pg :: above)).length < NPAGEREFS + 1 := by
    rw [refsOf, List.length_map]
    exact Nat.lt_succ_of_le (Nat.le_trans (List.length_filter_le _ _) hlength)
  have hfirst := @unlink_spec h (.samesize pg.blktype) pg.ref []
    (refsOf pg.blktype (below ++ pg :: above)) (NPAGEREFS + 1)
    (hmanaged.samesize _ hok.type) hmember hturns
  refine Prog.Returns.mono hfirst ?_
  rintro _ h₁ ⟨hrelinked₁, hsame₁⟩
  have hall₁ : Links (h₁.next .all) (h₁.base .all)
      ((below ++ pg :: above).map Page.ref) none := by
    rw [hrelinked₁.base .all (by simp)]
    exact hmanaged.all.congr (fun pr _ => hrelinked₁.next .all pr (Or.inl (by simp)))
  have hsecond := @unlink_spec h₁ .all pg.ref [] _ (NPAGEREFS + 1) hall₁ (by simp)
    (by rw [List.length_map]; exact Nat.lt_succ_of_le hlength)
  refine Prog.Returns.mono hsecond ?_
  rintro _ h₂ ⟨hrelinked₂, hall₂⟩
  have hbase₂ : ∀ t, h₂.sizebases t = h₁.sizebases t := fun t =>
    hrelinked₂.base (.samesize t) (by simp)
  have hnext₂ : ∀ t pr, h₂.next (.samesize t) pr = h₁.next (.samesize t) pr := fun t pr =>
    hrelinked₂.next (.samesize t) pr (Or.inl (by simp))
  refine ⟨?_, ?_, ?_, ?_⟩
  · rw [hrelinked₂.same, hrelinked₁.same]
  · rw [List.nil_append, List.map_append, List.map_cons, erase_middle hfresh.1,
      ← List.map_append] at hall₂
    exact hall₂
  · intro t ht
    rw [hbase₂]
    refine Links.congr ?_ (fun pr _ => hnext₂ t pr)
    by_cases heq : t = pg.blktype
    · subst heq
      rw [List.nil_append, refsOf_middle_self, erase_middle (fun hmem =>
        hfresh.1 (refsOf_subset hmem)), ← refsOf_append] at hsame₁
      exact hsame₁
    · have hlinks := hmanaged.samesize t ht
      rw [← refsOf, refsOf_middle_other (Ne.symm heq)] at hlinks
      rw [show h₁.sizebases t = h.sizebases t from
        hrelinked₁.base (.samesize t) (by simpa using heq)]
      refine hlinks.congr ?_
      intro pr hpr
      refine hrelinked₁.next (.samesize t) pr (Or.inr ?_)
      intro hmem
      obtain ⟨one, hone, rfl, rfl⟩ := mem_refsOf.mp hpr
      obtain ⟨two, htwo, htype, href⟩ := mem_refsOf.mp hmem
      have hone' : one ∈ below ++ pg :: above := by
        simp only [List.mem_append, List.mem_cons] at hone ⊢
        tauto
      have hsame := List.inj_on_of_nodup_map hnodup htwo hone' href
      exact heq (hsame ▸ htype)
  · intro other hother
    have hpage := hmanaged.each other (by
      simp only [List.mem_append, List.mem_cons] at hother ⊢
      tauto)
    have hmem : h₂.mem = h.mem := by rw [hrelinked₂.same, hrelinked₁.same]
    rw [hmem, hrelinked₂.fields, hrelinked₁.fields]
    exact hpage.relinked _ _

/-- A page whose blocks are all free goes back to the page allocator. -/
theorem releasePage_spec (hlayout : Layout h (below ++ pg :: above) bigs) :
    Prog.Returns (releasePage pg.ref pg.blktype pg.addr)
      (fun _ h' => h'.released = h.released ++ [pg.addr] ∧
        Layout h' (below ++ above) bigs) h := by
  have hmanaged := hlayout.managed
  have hok := hmanaged.each pg (by simp)
  have hfresh := hmanaged.refs_fresh
  simp only [releasePage, ↓Prog.wp_bind, freeKpages, ↓Prog.wp_modify]
  refine Prog.Returns.mono (removeLists_spec hmanaged) ?_
  intro _ h₁ hremoved
  have hinuse : h₁.pagerefsInuse = h.pagerefsInuse := by rw [hremoved.same]
  have hruns : h₁.kpages = h.kpages := by rw [hremoved.same]
  have hreleased : h₁.released = h.released := by rw [hremoved.same]
  have hused : h.used pg.ref = true :=
    (hmanaged.inuse _ hok.refLt).mpr (List.mem_map_of_mem (by simp))
  refine Prog.Returns.mono (freepageref_spec hok.refLt ?_) ?_
  · simp only [KHeap.used, hinuse]
    exact hused
  rintro _ h₂ ⟨hsame, hfreed⟩
  have hperm : h.kpages.Perm
      ((pg.addr, 1) :: ((below ++ above).map Page.run ++ bigs.map bigRun)) := by
    refine hlayout.kpages.trans ?_
    rw [List.map_append, List.map_cons, List.map_append, List.append_assoc,
      List.append_assoc, List.cons_append]
    exact List.perm_middle
  have herased := hlayout.runs_erase hperm
  have hruns₂ : h₂.kpages = h.kpages.eraseP fun run => decide (run.1 = pg.addr) := by
    rw [hsame, hruns]
  refine ⟨by rw [hsame, hreleased], ⟨?_, ?_, ?_, ?_⟩, ?_, ?_, hlayout.bigPos,
    hlayout.bigAligned, hlayout.bigSize⟩
  · rw [hsame]
    exact hremoved.all
  · rw [hsame]
    exact hremoved.samesize
  · intro j hj
    have hold : KHeap.used { h₁ with
        kpages := h₁.kpages.eraseP fun run => decide (run.1 = pg.addr)
        released := h₁.released ++ [pg.addr] } j = h.used j := by
      simp only [KHeap.used, hinuse]
    rw [hfreed j hj, hold, Bool.and_eq_true, hmanaged.inuse j hj, decide_eq_true_eq]
    simp only [List.map_append, List.map_cons, List.mem_append, List.mem_cons]
    constructor
    · tauto
    · rintro (hbelow | habove)
      · exact ⟨Or.inl hbelow, ne_of_mem_of_not_mem hbelow hfresh.1⟩
      · exact ⟨Or.inr (Or.inr habove), ne_of_mem_of_not_mem habove hfresh.2⟩
  · rw [hsame]
    exact hremoved.each
  · rw [hruns₂]
    exact herased
  · rw [hruns₂]
    exact hlayout.apart.sublist List.eraseP_sublist

end Release

section Kfree

variable {h h' : KHeap} {pages below above : List Page} {bigs : List (Nat × Nat)}
variable {pg : Page} {ptr size : Nat}

theorem fillDeadbeef_same (h : KHeap) (ptr words : Nat) :
    fillDeadbeef h ptr words = { h with mem := (fillDeadbeef h ptr words).mem } := by
  induction words with
  | zero => rfl
  | succ words ih =>
      rw [fillDeadbeef, KHeap.write, ih]

theorem fillDeadbeef_other (h : KHeap) (hout : w < ptr ∨ ptr + 4 * words ≤ w) :
    (fillDeadbeef h ptr words).mem w = h.mem w := by
  induction words with
  | zero => rfl
  | succ words ih =>
      rw [fillDeadbeef, KHeap.write_of_ne _ (by omega)]
      exact ih (by omega)

/-- A block of a page comes back: its words are wiped and it becomes the head
of the free list. -/
theorem Layout.give (hlayout : Layout h (below ++ pg :: above) bigs)
    (hentry : entry ∈ pg.held) {mem : Nat → Nat}
    (hlink : mem entry.1 = if (h.pagerefs pg.ref).freelistOffset = INVALID_OFFSET then 0
      else pg.addr + (h.pagerefs pg.ref).freelistOffset)
    (hmem : ∀ w, w < entry.1 ∨ entry.1 + sizes pg.blktype ≤ w → mem w = h.mem w) :
    Layout { h with
      mem := mem
      pagerefs := Function.update h.pagerefs pg.ref { h.pagerefs pg.ref with
        freelistOffset := entry.1 - pg.addr
        nfree := (h.pagerefs pg.ref).nfree + 1 } } (below ++ pg.give entry :: above) bigs := by
  have hmanaged := hlayout.managed
  have hok := hmanaged.each pg (by simp)
  have hblock := hok.held_mem hentry
  obtain ⟨hlow, hhigh, -⟩ := blocksOf_bounds hok.type hblock
  have hsizes := (sizes_facts _ hok.type).1
  refine ⟨hmanaged.replace rfl rfl ⟨?_, fun chain => by cases chain <;> rfl, rfl⟩ ?_ ?_,
    ?_, hlayout.apart, hlayout.bigPos, hlayout.bigAligned, hlayout.bigSize⟩
  · intro chain pr
    by_cases hpr : pr = pg.ref
    · cases chain <;> simp [KHeap.next, hpr]
    · cases chain <;> simp [KHeap.next, hpr]
  · simp only [Function.update_self]
    refine hok.give hentry hlink ?_
    intro fl hfl
    have hne : fl ≠ entry.1 := by
      have hdisjoint := (List.nodup_append.mp hok.nodup).2.2
      exact hdisjoint fl hfl entry.1 (List.mem_map_of_mem hentry)
    exact hmem fl ((blocksOf_apart (hok.free_mem hfl) hblock hne).imp (by omega) id)
  · intro other hother
    have hotherOk := hmanaged.each other (by
      simp only [List.mem_append, List.mem_cons] at hother ⊢
      tauto)
    simp only [Function.update_of_ne (hmanaged.ref_ne hother)]
    refine hotherOk.congr ?_
    intro fl hfl
    obtain ⟨hlow', hhigh', -⟩ := blocksOf_bounds hotherOk.type (hotherOk.free_mem hfl)
    have hsizes' := (sizes_facts _ hotherOk.type).1
    have hapart := hlayout.pages_apart hother
    exact hmem fl (by omega)
  · simpa [Page.give, Page.run] using hlayout.kpages

/-- The live blocks after one of a page came back. -/
theorem liveOf_give (hentry : entry ∈ pg.held) :
    (liveOf (below ++ pg.give entry :: above) bigs).Perm
      ((liveOf (below ++ pg :: above) bigs).erase entry) := by
  have hperm : (liveOf (below ++ pg :: above) bigs).Perm
      (entry :: liveOf (below ++ pg.give entry :: above) bigs) := by
    simp only [liveOf, List.flatMap_append, List.flatMap_cons, Page.give, List.append_assoc]
    refine List.Perm.trans (List.Perm.append_left _
      (List.Perm.append_right _ (List.perm_cons_erase hentry))) ?_
    exact List.perm_middle
  have herase := hperm.erase entry
  rw [List.erase_cons_head] at herase
  exact herase.symm

/-- The walk over all pages finds the page of a block. -/
theorem findPage_block (hlayout : Layout h (below ++ pg :: above) bigs)
    (hlow : pg.addr ≤ ptr) (hhigh : ptr < pg.addr + 4096) :
    Prog.Returns (findPage ptr (NPAGEREFS + 1) (h.base .all))
      (fun found h' => h' = h ∧ found = some pg.ref) h := by
  have hmanaged := hlayout.managed
  refine Prog.Returns.mono (findPage_spec hmanaged.each hmanaged.all
    (Nat.lt_succ_of_le hmanaged.length_le)) ?_
  rintro found h' ⟨hsame, hfound⟩
  refine ⟨hsame, ?_⟩
  cases found with
  | none => exact absurd ⟨hlow, hhigh⟩ (hfound pg (by simp))
  | some pr =>
      obtain ⟨other, hother, rfl, hlow', hhigh'⟩ := hfound
      simp only [List.mem_append, List.mem_cons] at hother
      by_cases heq : other = pg
      · rw [heq]
      · have hapart := @Layout.pages_apart h below above bigs pg other hlayout (by
          simp only [List.mem_append]
          tauto)
        omega

theorem subpageKfree_spec (hlayout : Layout h (below ++ pg :: above) bigs)
    (hoccupied : Occupied (below ++ pg :: above)) (hentry : (ptr, size) ∈ pg.held) :
    Prog.Returns (subpageKfree ptr) (fun big h' => big = false ∧
      h'.released = h.released ++ (if pg.held = [(ptr, size)] then [pg.addr] else []) ∧
      ∃ pages', Layout h' pages' bigs ∧ Occupied pages' ∧
        (liveOf pages' bigs).Perm
          ((liveOf (below ++ pg :: above) bigs).erase (ptr, size))) h := by
  have hok := hlayout.managed.each pg (by simp)
  obtain ⟨hlow, hhigh, hdivides⟩ := blocksOf_bounds hok.type (hok.held_mem hentry)
  obtain ⟨hsixteen, -, hfour, -, -, hcount⟩ := sizes_facts _ hok.type
  have hlength := hok.length_eq
  simp only at hlow hhigh hdivides
  simp only [subpageKfree, ↓Prog.wp_bind, ↓Prog.wp_get]
  refine Prog.Returns.mono (findPage_block hlayout hlow (by omega)) ?_
  rintro found h₁ ⟨hsame, rfl⟩
  obtain rfl : h = h₁ := hsame.symm
  have hmod : (ptr - pg.addr) % 2 ^ 16 = ptr - pg.addr := by omega
  have hnfree : (pg.free.length + 1) % 2 ^ 16 = pg.free.length + 1 := by omega
  have hback : pg.addr + (ptr - pg.addr) = ptr := by omega
  have hheld : 0 < pg.held.length := List.length_pos_of_mem hentry
  have hwiped := fillDeadbeef_same h ptr (sizes pg.blktype / 4)
  simp only [↓Prog.wp_bind, ↓Prog.wp_get, ↓Prog.wp_assert, ↓Prog.wp_modify,
    ↓Prog.wp_when, ↓Prog.wp_pure, hok.pageaddr, hok.blocktype, hback,
    if_pos (show ¬(ptr - pg.addr ≥ PAGE_SIZE ∨ (ptr - pg.addr) % sizes pg.blktype ≠ 0) by
      simp only [PAGE_SIZE]; omega)]
  generalize hmem : (fillDeadbeef h ptr (sizes pg.blktype / 4)).mem = wiped at hwiped
  rw [hwiped]
  simp only [KHeap.write, KHeap.setPageref, Function.update_self, hok.nfree, hmod, hnfree,
    if_pos (show pg.free.length + 1 ≤ PAGE_SIZE / sizes pg.blktype by omega)]
  have hgiven := @Layout.give h below above bigs pg (ptr, size) hlayout hentry
    (Function.update wiped ptr
      (if (h.pagerefs pg.ref).freelistOffset = INVALID_OFFSET then 0
        else pg.addr + (h.pagerefs pg.ref).freelistOffset))
    (Function.update_self ..) ?_
  · rw [hok.nfree] at hgiven
    split
    case isTrue hfull =>
        obtain ⟨entry, hone⟩ := List.length_eq_one_iff.mp
          (show pg.held.length = 1 by omega)
        obtain rfl : (ptr, size) = entry := by simpa [hone] using hentry
        rw [if_pos hone]
        have hrelease := releasePage_spec hgiven
        refine Prog.Returns.mono hrelease ?_
        rintro _ h₂ ⟨hreleased, hlayout₂⟩
        refine ⟨trivial, hreleased, below ++ above, hlayout₂, ?_, ?_⟩
        · intro other hother
          refine hoccupied other ?_
          simp only [List.mem_append, List.mem_cons] at hother ⊢
          tauto
        · refine List.Perm.trans ?_ (liveOf_give hentry)
          simp [liveOf, Page.give, hone]
    case isFalse hpartial =>
        have hmore : pg.held ≠ [(ptr, size)] := by
          intro hone
          rw [hone, List.length_singleton] at hlength
          omega
        rw [if_neg hmore, List.append_nil]
        refine ⟨trivial, rfl, below ++ pg.give (ptr, size) :: above, hgiven, ?_,
          liveOf_give hentry⟩
        intro other hother
        simp only [List.mem_append, List.mem_cons] at hother
        rcases hother with hbelow | rfl | habove
        · exact hoccupied other (by simp [hbelow])
        · intro hnil
          have herased := List.length_erase_of_mem hentry
          rw [show pg.held.erase (ptr, size) = [] from hnil, List.length_nil] at herased
          omega
        · exact hoccupied other (by simp [habove])
  · intro w hout
    simp only at hout
    rw [Function.update_of_ne (by omega), ← hmem]
    exact fillDeadbeef_other h (by omega)

/-- An allocation of whole pages is on no page of blocks. -/
theorem subpageKfree_big (hlayout : Layout h pages bigs) (hentry : (ptr, size) ∈ bigs) :
    Prog.Returns (subpageKfree ptr) (fun big h' => big = true ∧ h' = h) h := by
  have hmanaged := hlayout.managed
  simp only [subpageKfree, ↓Prog.wp_bind, ↓Prog.wp_get]
  refine Prog.Returns.mono (findPage_spec hmanaged.each hmanaged.all
    (Nat.lt_succ_of_le hmanaged.length_le)) ?_
  rintro found h₁ ⟨hsame, hfound⟩
  obtain rfl : h = h₁ := hsame.symm
  cases found with
  | none => exact ⟨rfl, rfl⟩
  | some pr =>
      obtain ⟨pg, hpg, rfl, hlow, hhigh⟩ := hfound
      have hapart := hlayout.page_big_apart hpg hentry
      have hpos := bigRun_pos (hlayout.bigSize _ hentry)
      simp only [Apart, Page.run, bigRun] at hapart hpos
      omega

/-- What a call of `kfree` hands to `free_kpages`. -/
def GivesBack (pages : List Page) (bigs : List (Nat × Nat)) (entry : Nat × Nat)
    (given : List Nat) : Prop :=
  (∃ pg ∈ pages, entry ∈ pg.held ∧
    given = if pg.held = [entry] then [pg.addr] else []) ∨
  entry ∈ bigs ∧ given = [entry.1]

theorem Layout.live_pos (hlayout : Layout h pages bigs) (hentry : entry ∈ liveOf pages bigs) :
    entry.1 ≠ 0 := by
  rcases List.mem_append.mp hentry with hheld | hbig
  · obtain ⟨pg, hpg, hheld⟩ := List.mem_flatMap.mp hheld
    have hok := hlayout.managed.each pg hpg
    have hlow := (blocksOf_bounds hok.type (hok.held_mem hheld)).1
    have hpos := hok.pos
    omega
  · exact Nat.ne_of_gt (hlayout.bigPos entry hbig)

theorem Layout.giveBig (hlayout : Layout h pages bigs) (hentry : (ptr, size) ∈ bigs) :
    Layout { h with
      kpages := h.kpages.eraseP fun run => decide (run.1 = ptr)
      released := h.released ++ [ptr] } pages (bigs.erase (ptr, size)) := by
  have hperm : h.kpages.Perm (bigRun (ptr, size) ::
      (pages.map Page.run ++ (bigs.erase (ptr, size)).map bigRun)) := by
    refine hlayout.kpages.trans ?_
    refine List.Perm.trans (List.Perm.append_left _
      ((List.perm_cons_erase hentry).map bigRun)) ?_
    exact List.perm_middle
  refine ⟨?_, hlayout.runs_erase hperm, hlayout.apart.sublist List.eraseP_sublist, ?_, ?_, ?_⟩
  · exact hlayout.managed.of_sameLists
      ⟨fun chain _ => by cases chain <;> rfl, fun chain => by cases chain <;> rfl, rfl⟩
      hlayout.managed.each
  · exact fun entry hmem => hlayout.bigPos entry (List.mem_of_mem_erase hmem)
  · exact fun entry hmem => hlayout.bigAligned entry (List.mem_of_mem_erase hmem)
  · exact fun entry hmem => hlayout.bigSize entry (List.mem_of_mem_erase hmem)

theorem kfree_spec (hlayout : Layout h pages bigs) (hoccupied : Occupied pages)
    (hentry : (ptr, size) ∈ liveOf pages bigs) :
    Prog.Returns (kfree ptr) (fun _ h' =>
      (∃ given, h'.released = h.released ++ given ∧
        GivesBack pages bigs (ptr, size) given) ∧
      ∃ pages' bigs', Layout h' pages' bigs' ∧ Occupied pages' ∧
        (liveOf pages' bigs').Perm ((liveOf pages bigs).erase (ptr, size))) h := by
  have hpos := hlayout.live_pos hentry
  simp only [kfree, ↓Prog.wp_bind, if_neg hpos]
  by_cases hheld : ∃ pg ∈ pages, (ptr, size) ∈ pg.held
  · obtain ⟨pg, hpg, hheld⟩ := hheld
    obtain ⟨below, above, rfl⟩ := List.append_of_mem hpg
    refine Prog.Returns.mono (subpageKfree_spec hlayout hoccupied hheld) ?_
    rintro _ h' ⟨rfl, hreleased, pages', hlayout', hoccupied', hlive⟩
    exact ⟨⟨_, hreleased, Or.inl ⟨pg, hpg, hheld, rfl⟩⟩, pages', bigs, hlayout',
      hoccupied', hlive⟩
  · have hnot : (ptr, size) ∉ pages.flatMap Page.held := by
      simpa [List.mem_flatMap] using hheld
    have hbig : (ptr, size) ∈ bigs := (List.mem_append.mp hentry).resolve_left hnot
    refine Prog.Returns.mono (subpageKfree_big hlayout hbig) ?_
    rintro _ h₁ ⟨rfl, hsame⟩
    obtain rfl : h = h₁ := hsame.symm
    have haligned := hlayout.bigAligned _ hbig
    simp only [if_true, ↓Prog.wp_bind, ↓Prog.wp_assert, freeKpages, ↓Prog.wp_modify,
      if_pos (show ptr % PAGE_SIZE = 0 from haligned)]
    refine ⟨⟨[ptr], rfl, Or.inr ⟨hbig, rfl⟩⟩, pages, _, hlayout.giveBig hbig,
      hoccupied, ?_⟩
    rw [liveOf, liveOf, List.erase_append_right _ hnot]

end Kfree

end OS161.Kheap
