import OS161.Data.Seq
import OS161.Kheap.Kfree

namespace OS161.Kheap

open OS161.Data

/-- A kernel that uses its heap: the pointers it holds with the sizes it asked
for. -/
structure Kernel where
  heap : KHeap
  live : List (Nat × Nat)

namespace Kernel

/-- Before the first call: no page is managed and memory holds anything. -/
structure Starts (k : Kernel) : Prop where
  inuse : ∀ i, k.heap.pagerefsInuse i = 0
  sizebases : ∀ t, k.heap.sizebases t = none
  allbase : k.heap.allbase = none
  kpages : k.heap.kpages = []
  live : k.live = []

inductive Step : Kernel → Kernel → Prop
  | kmalloc (grant : Nat) (hsize : size ≤ 2 ^ 32 - 4096)
      (hcall : kmalloc grant size k.heap = .ok ptr h) :
      Step k ⟨h, if ptr = 0 then k.live else (ptr, size) :: k.live⟩
  | kfree (hptr : (ptr, size) ∈ k.live) (hcall : kfree ptr k.heap = .ok () h) :
      Step k ⟨h, k.live.erase (ptr, size)⟩
  | kfreeNull (hcall : kfree 0 k.heap = .ok () h) :
      Step k { k with heap := h }
  /-- The kernel writes a word of a block it holds. -/
  | store (hptr : (ptr, size) ∈ k.live) (hlow : ptr ≤ w) (hhigh : w < ptr + size)
      (haligned : w % 4 = 0) :
      Step k { k with heap := k.heap.write w value }

/-- The pagerefs on a list, in order. -/
def Listed (h : KHeap) (chain : Chain) (nodes : List Nat) : Prop :=
  Links (h.next chain) (h.base chain) nodes none

/-- A page is managed when its pageref is on the list of all pages. -/
def Manages (k : Kernel) (pr : Nat) : Prop := ∃ nodes, Listed k.heap .all nodes ∧ pr ∈ nodes

/-- The live blocks on a page. -/
def onPage (live : List (Nat × Nat)) (prpage : Nat) : List (Nat × Nat) :=
  live.filter fun entry => decide (entry.1 / 4096 * 4096 = prpage)

/-- Where the free list of a page starts. -/
def freelist (r : Pageref) : Option Nat :=
  if r.freelistOffset = INVALID_OFFSET then none else some (r.pageaddr + r.freelistOffset)

structure PageIntact (k : Kernel) (pr : Nat) (r : Pageref) : Prop where
  used : k.heap.used pr = true
  type : r.blocktype < NSIZES
  samesize : ∃ nodes, Listed k.heap (.samesize r.blocktype) nodes ∧ nodes.count pr = 1
  free : ∃ free, Links (freeNext k.heap.mem) (freelist r) free none ∧
    free.Nodup ∧ free.length = r.nfree ∧
    (∀ fl ∈ free, r.pageaddr ≤ fl ∧ fl + sizes r.blocktype ≤ r.pageaddr + PAGE_SIZE ∧
      (fl - r.pageaddr) % sizes r.blocktype = 0) ∧
    (free ++ (onPage k.live r.pageaddr).map Prod.fst).Perm
      (blocksOf r.pageaddr r.blocktype)
  occupied : onPage k.live r.pageaddr ≠ []

/-- The block behind a live pointer is as large as was asked for. -/
def LargeEnough (k : Kernel) (ptr size : Nat) : Prop :=
  (∃ pr, k.Manages pr ∧ (k.heap.pagerefs pr).pageaddr = ptr / 4096 * 4096 ∧
    size ≤ sizes (k.heap.pagerefs pr).blocktype) ∨
  ∃ npages, (ptr, npages) ∈ k.heap.kpages ∧ size ≤ npages * PAGE_SIZE

structure Integrity (k : Kernel) : Prop where
  all : ∃ nodes, Listed k.heap .all nodes ∧ nodes.Nodup ∧
    ∀ pr ∈ nodes, k.PageIntact pr (k.heap.pagerefs pr)
  disjoint : k.live.Pairwise fun one other =>
    one.1 + max one.2 1 ≤ other.1 ∨ other.1 + max other.2 1 ≤ one.1
  large : ∀ ptr size, (ptr, size) ∈ k.live → k.LargeEnough ptr size

/-- No call that the kernel may make stops it.  A page of blocks is handed to
`free_kpages` by the call that frees its last live block, and by no other. -/
structure CallsReturn (k : Kernel) : Prop where
  kmalloc : ∀ grant size, size ≤ 2 ^ 32 - 4096 →
    Prog.Returns (kmalloc grant size) (fun _ h => h.released = k.heap.released) k.heap
  kfree : ∀ ptr size, (ptr, size) ∈ k.live →
    Prog.Returns (kfree ptr) (fun _ h =>
      (∀ pr, k.Manages pr → (k.heap.pagerefs pr).pageaddr = ptr / 4096 * 4096 →
        h.released = k.heap.released ++
          if onPage (k.live.erase (ptr, size)) (ptr / 4096 * 4096) = [] then
            [ptr / 4096 * 4096]
          else []) ∧
      ((∀ pr, k.Manages pr → (k.heap.pagerefs pr).pageaddr ≠ ptr / 4096 * 4096) →
        h.released = k.heap.released ++ [ptr])) k.heap
  kfreeNull : Prog.Returns (Kheap.kfree 0) (fun _ h => h = k.heap) k.heap

/-- What holds between any two calls. -/
def Inv (k : Kernel) : Prop :=
  ∃ pages bigs, Layout k.heap pages bigs ∧ Occupied pages ∧
    k.live.Perm (liveOf pages bigs)

variable {k k' : Kernel}

theorem Starts.inv (hstart : k.Starts) : k.Inv := by
  refine ⟨[], [], ⟨⟨hstart.allbase, fun t _ => hstart.sizebases t, ?_, by simp⟩, ?_, ?_,
    by simp, by simp, by simp⟩, by simp [Occupied], ?_⟩
  · intro pr _
    simp [KHeap.used, hstart.inuse]
  · simp [hstart.kpages]
  · simp [hstart.kpages]
  · simp [hstart.live, liveOf]

/-- A store into a block in use touches no free list. -/
theorem layout_store {h : KHeap} {pages : List Page} {bigs : List (Nat × Nat)}
    (hlayout : Layout h pages bigs) (hptr : (ptr, size) ∈ liveOf pages bigs)
    (hlow : ptr ≤ w) (hhigh : w < ptr + size) :
    Layout (h.write w value) pages bigs := by
  have hsame : SameLists h (h.write w value) :=
    ⟨fun chain _ => by cases chain <;> rfl, fun chain => by cases chain <;> rfl, rfl⟩
  refine { hlayout with managed := hlayout.managed.of_sameLists hsame ?_ }
  intro pg hpg
  have hok := hlayout.managed.each pg hpg
  refine hok.congr ?_
  intro fl hfl
  have hblock := hok.free_mem hfl
  obtain ⟨hlow', hhigh', -⟩ := blocksOf_bounds hok.type hblock
  have hsizes := (sizes_facts _ hok.type).1
  refine h.write_of_ne ?_ value
  rcases List.mem_append.mp hptr with hheld | hbig
  · obtain ⟨other, hother, hheld⟩ := List.mem_flatMap.mp hheld
    have hotherOk := hlayout.managed.each other hother
    have hfits := hotherOk.fits _ hheld
    have hbounds := blocksOf_bounds hotherOk.type (hotherOk.held_mem hheld)
    simp only at hfits hbounds
    by_cases heq : other = pg
    · subst heq
      have hne : fl ≠ ptr :=
        (List.nodup_append.mp hok.nodup).2.2 fl hfl ptr (List.mem_map_of_mem hheld)
      have hapart := blocksOf_apart hblock (hok.held_mem hheld) hne
      simp only at hapart
      omega
    · obtain ⟨below, above, rfl⟩ := List.append_of_mem hpg
      have hapart := @Layout.pages_apart h below above bigs pg other hlayout (by
        simp only [List.mem_append, List.mem_cons] at hother ⊢
        tauto)
      omega
  · have hapart := hlayout.page_big_apart hpg hbig
    simp only [Apart, Page.run, bigRun] at hapart
    omega

/-- One step of the kernel keeps the invariant. -/
theorem Inv.step (hinv : k.Inv) (hstep : Step k k') : k'.Inv := by
  obtain ⟨pages, bigs, hlayout, hoccupied, hlive⟩ := hinv
  cases hstep with
  | kmalloc grant hsize hcall =>
      obtain ⟨-, pages', bigs', hlayout', hoccupied', hlive'⟩ :=
        (kmalloc_spec hlayout hoccupied hsize).post_of_ok hcall
      refine ⟨pages', bigs', hlayout', hoccupied', List.Perm.trans ?_ hlive'.symm⟩
      split
      · exact hlive
      · exact hlive.cons _
  | kfree hptr hcall =>
      obtain ⟨-, pages', bigs', hlayout', hoccupied', hlive'⟩ :=
        (kfree_spec hlayout hoccupied (hlive.mem_iff.mp hptr)).post_of_ok hcall
      exact ⟨pages', bigs', hlayout', hoccupied', (hlive.erase _).trans hlive'.symm⟩
  | kfreeNull hcall =>
      obtain rfl : k.heap = _ := by
        simpa [Kheap.kfree, pure, Prog.ret] using hcall
      exact ⟨pages, bigs, hlayout, hoccupied, hlive⟩
  | store hptr hlow hhigh haligned =>
      exact ⟨pages, bigs, layout_store hlayout (hlive.mem_iff.mp hptr) hlow hhigh,
        hoccupied, hlive⟩

section Views

variable {h : KHeap} {pages below above : List Page} {bigs : List (Nat × Nat)} {pg : Page}

theorem PageOk.held_page {mem : Nat → Nat} {r : Pageref} (hok : PageOk mem r pg)
    (hentry : entry ∈ pg.held) : entry.1 / 4096 * 4096 = pg.addr := by
  obtain ⟨hlow, hhigh, -⟩ := blocksOf_bounds hok.type (hok.held_mem hentry)
  have hsizes := (sizes_facts _ hok.type).1
  have haligned := hok.aligned
  omega

/-- What is live on a page is what the page has handed out. -/
theorem onPage_liveOf (hlayout : Layout h (below ++ pg :: above) bigs) :
    onPage (liveOf (below ++ pg :: above) bigs) pg.addr = pg.held := by
  have hothers : ∀ pages ⊆ below ++ above,
      onPage (pages.flatMap Page.held) pg.addr = [] := by
    intro pages hsub
    refine List.filter_eq_nil_iff.mpr ?_
    intro entry hentry
    obtain ⟨other, hother, hheld⟩ := List.mem_flatMap.mp hentry
    have hmem := hsub hother
    have hok := hlayout.managed.each other (by
      simp only [List.mem_append, List.mem_cons] at hmem ⊢
      tauto)
    have hapart := hlayout.pages_apart hmem
    simp only [PageOk.held_page hok hheld, decide_eq_true_eq]
    omega
  have hself : onPage pg.held pg.addr = pg.held := by
    refine List.filter_eq_self.mpr ?_
    intro entry hentry
    simpa using PageOk.held_page (hlayout.managed.each pg (by simp)) hentry
  have hbigs : onPage bigs pg.addr = [] := by
    refine List.filter_eq_nil_iff.mpr ?_
    intro entry hentry
    have hapart := hlayout.page_big_apart (show pg ∈ below ++ pg :: above by simp) hentry
    have haligned := hlayout.bigAligned entry hentry
    have hpos := bigRun_pos (hlayout.bigSize entry hentry)
    simp only [Apart, Page.run, bigRun] at hapart hpos
    simp only [decide_eq_true_eq]
    omega
  simp only [onPage] at hothers hself hbigs ⊢
  rw [liveOf, List.flatMap_append, List.flatMap_cons, List.filter_append, List.filter_append,
    List.filter_append, hothers below (List.subset_append_left _ _), hself,
    hothers above (List.subset_append_right _ _), hbigs, List.nil_append, List.append_nil,
    List.append_nil]

/-- A pageref on the list of all pages is that of a page. -/
theorem Manages.page {k : Kernel} (hlayout : Layout k.heap pages bigs)
    (hmanages : k.Manages pr) : ∃ pg ∈ pages, pg.ref = pr := by
  obtain ⟨nodes, hnodes, hpr⟩ := hmanages
  have hsame : nodes = pages.map Page.ref := hnodes.unique hlayout.managed.all
  rw [hsame] at hpr
  exact List.mem_map.mp hpr

theorem manages_page {k : Kernel} (hlayout : Layout k.heap pages bigs) (hpg : pg ∈ pages) :
    k.Manages pg.ref :=
  ⟨pages.map Page.ref, hlayout.managed.all, List.mem_map_of_mem hpg⟩

theorem freelist_eq {mem : Nat → Nat} {r : Pageref} (hok : PageOk mem r pg) :
    freelist r = pg.free.head? := by
  rw [freelist, hok.offset, hok.pageaddr]
  cases hfree : pg.free with
  | nil => simp [offsetOf]
  | cons fl rest =>
      have hfl : fl ∈ pg.free := by simp [hfree]
      obtain ⟨hlow, hhigh, -⟩ := blocksOf_bounds hok.type (hok.free_mem hfl)
      rw [offsetOf, if_neg (show fl - pg.addr ≠ INVALID_OFFSET by
        simp only [INVALID_OFFSET]; omega), List.head?_cons, Nat.add_sub_cancel' hlow]

end Views

theorem Inv.pageIntact {pages : List Page} {bigs : List (Nat × Nat)} {pg : Page}
    (hlayout : Layout k.heap pages bigs) (hoccupied : Occupied pages)
    (hlive : k.live.Perm (liveOf pages bigs)) (hpg : pg ∈ pages) :
    k.PageIntact pg.ref (k.heap.pagerefs pg.ref) := by
  have hmanaged := hlayout.managed
  have hok := hmanaged.each pg hpg
  have hpages : (onPage k.live pg.addr).Perm pg.held := by
    obtain ⟨below, above, rfl⟩ := List.append_of_mem hpg
    rw [← onPage_liveOf hlayout]
    exact hlive.filter _
  have hsame := hmanaged.samesize pg.blktype hok.type
  refine ⟨(hmanaged.inuse _ hok.refLt).mpr (List.mem_map_of_mem hpg), ?_, ?_, ?_, ?_⟩
  · rw [hok.blocktype]
    exact hok.type
  · rw [hok.blocktype]
    refine ⟨_, hsame, List.count_eq_one_of_mem hsame.nodup ?_⟩
    exact List.mem_map_of_mem (List.mem_filter.mpr ⟨hpg, by simp⟩)
  · rw [hok.blocktype, hok.pageaddr]
    refine ⟨pg.free, ?_, ?_, hok.nfree.symm, ?_, ?_⟩
    · rw [freelist_eq hok]
      exact hok.links
    · exact hok.links.nodup
    · intro fl hfl
      exact blocksOf_bounds hok.type (hok.free_mem hfl)
    · exact ((hpages.map Prod.fst).append_left pg.free).trans hok.partition
  · rw [hok.pageaddr]
    intro hnil
    rw [hnil] at hpages
    exact hoccupied pg hpg (List.nil_perm.mp hpages)

/-- Two allocations have no byte in common. -/
def Disjoint (one other : Nat × Nat) : Prop :=
  one.1 + max one.2 1 ≤ other.1 ∨ other.1 + max other.2 1 ≤ one.1

theorem PageOk.held_disjoint {mem : Nat → Nat} {r : Pageref} {pg : Page}
    (hok : PageOk mem r pg) : pg.held.Pairwise Disjoint := by
  have hnodup := (List.nodup_append.mp hok.nodup).2.1
  refine (List.pairwise_map.mp hnodup).imp_of_mem ?_
  intro one two hone htwo hne
  have hapart := blocksOf_apart (hok.held_mem hone) (hok.held_mem htwo) hne
  have hfits := hok.fits one hone
  have hfits' := hok.fits two htwo
  have hsizes := (sizes_facts _ hok.type).1
  simp only [Disjoint]
  omega

theorem liveOf_disjoint {h : KHeap} {pages : List Page} {bigs : List (Nat × Nat)}
    (hlayout : Layout h pages bigs) : (liveOf pages bigs).Pairwise Disjoint := by
  obtain ⟨hpages, hbigs, hcross⟩ := List.pairwise_append.mp hlayout.runs_apart
  -- A block stays inside its page.
  have hinside : ∀ pg ∈ pages, ∀ entry ∈ pg.held,
      pg.addr ≤ entry.1 ∧ entry.1 + max entry.2 1 ≤ pg.addr + 4096 := by
    intro pg hpg entry hentry
    have hok := hlayout.managed.each pg hpg
    obtain ⟨hlow, hhigh, -⟩ := blocksOf_bounds hok.type (hok.held_mem hentry)
    have hfits := hok.fits entry hentry
    have hsizes := (sizes_facts _ hok.type).1
    omega
  refine List.pairwise_append.mpr ⟨List.pairwise_flatMap.mpr ⟨?_, ?_⟩, ?_, ?_⟩
  · intro pg hpg
    exact PageOk.held_disjoint (hlayout.managed.each pg hpg)
  · refine (List.pairwise_map.mp hpages).imp_of_mem ?_
    intro one two hone htwo hapart entry hentry other hother
    have hin := hinside one hone entry hentry
    have hin' := hinside two htwo other hother
    simp only [Apart, Page.run] at hapart
    simp only [Disjoint]
    omega
  · refine (List.pairwise_map.mp hbigs).imp_of_mem ?_
    intro one two hone htwo hapart
    have hpos := bigRun_pos (hlayout.bigSize one hone)
    have hpos' := bigRun_pos (hlayout.bigSize two htwo)
    simp only [Apart, bigRun] at hapart hpos hpos'
    simp only [Disjoint]
    omega
  · intro entry hentry big hbig
    obtain ⟨pg, hpg, hheld⟩ := List.mem_flatMap.mp hentry
    have hin := hinside pg hpg entry hheld
    have hapart := hlayout.page_big_apart hpg hbig
    have hpos := bigRun_pos (hlayout.bigSize big hbig)
    simp only [Apart, Page.run, bigRun] at hapart hpos
    simp only [Disjoint]
    omega

theorem Inv.integrity (hinv : k.Inv) : k.Integrity := by
  obtain ⟨pages, bigs, hlayout, hoccupied, hlive⟩ := hinv
  refine ⟨⟨pages.map Page.ref, hlayout.managed.all, hlayout.managed.refs_nodup, ?_⟩, ?_, ?_⟩
  · intro pr hpr
    obtain ⟨pg, hpg, rfl⟩ := List.mem_map.mp hpr
    exact Inv.pageIntact hlayout hoccupied hlive hpg
  · exact (hlive.pairwise_iff Or.symm).mpr (liveOf_disjoint hlayout)
  · intro ptr size hptr
    rcases List.mem_append.mp (hlive.mem_iff.mp hptr) with hheld | hbig
    · obtain ⟨pg, hpg, hheld⟩ := List.mem_flatMap.mp hheld
      have hok := hlayout.managed.each pg hpg
      refine Or.inl ⟨pg.ref, manages_page hlayout hpg, ?_, ?_⟩
      · rw [hok.pageaddr]
        exact (PageOk.held_page hok hheld).symm
      · rw [hok.blocktype]
        exact hok.fits _ hheld
    · refine Or.inr ⟨(size + 4095) / 4096, ?_, ?_⟩
      · exact hlayout.kpages.mem_iff.mpr
          (List.mem_append_right _ (List.mem_map_of_mem hbig))
      · simp only [PAGE_SIZE]
        omega

/-- The page gives its last block away when nothing else is live on it. -/
theorem onPage_erase_eq_nil {pages : List Page} {bigs : List (Nat × Nat)} {pg : Page}
    (hlayout : Layout k.heap pages bigs) (hlive : k.live.Perm (liveOf pages bigs))
    (hpg : pg ∈ pages) (hheld : entry ∈ pg.held) :
    onPage (k.live.erase entry) pg.addr = [] ↔ pg.held = [entry] := by
  have hok := hlayout.managed.each pg hpg
  have hentry : entry ∈ k.live :=
    hlive.mem_iff.mpr (List.mem_append_left _ (List.mem_flatMap.mpr ⟨pg, hpg, hheld⟩))
  have hpages : pg.held.Perm (entry :: onPage (k.live.erase entry) pg.addr) := by
    obtain ⟨below, above, rfl⟩ := List.append_of_mem hpg
    have hfiltered := (hlive.symm.trans (List.perm_cons_erase hentry)).filter
      fun entry => decide (entry.1 / 4096 * 4096 = pg.addr)
    rw [List.filter_cons_of_pos (by simpa using PageOk.held_page hok hheld)] at hfiltered
    rw [← onPage_liveOf hlayout]
    exact hfiltered
  constructor
  · intro hnil
    rw [hnil] at hpages
    exact List.perm_singleton.mp hpages
  · intro hone
    rw [hone] at hpages
    exact List.nil_perm.mp hpages.cons_inv

theorem Inv.callsReturn (hinv : k.Inv) : k.CallsReturn := by
  obtain ⟨pages, bigs, hlayout, hoccupied, hlive⟩ := hinv
  constructor
  · intro grant size hsize
    exact (kmalloc_spec hlayout hoccupied hsize).mono (fun _ _ hpost => hpost.1)
  · intro ptr size hptr
    refine (kfree_spec hlayout hoccupied (hlive.mem_iff.mp hptr)).mono ?_
    rintro _ h ⟨⟨given, hreleased, hgiven⟩, -⟩
    rw [hreleased]
    rcases hgiven with ⟨pg, hpg, hheld, rfl⟩ | ⟨hbig, rfl⟩
    · have hpage := PageOk.held_page (hlayout.managed.each pg hpg) hheld
      simp only at hpage
      refine ⟨?_, ?_⟩
      · intro _ _ _
        rw [hpage]
        simp only [onPage_erase_eq_nil hlayout hlive hpg hheld]
      · intro hnone
        have hok := hlayout.managed.each pg hpg
        have hother := hnone pg.ref (manages_page hlayout hpg)
        rw [hok.pageaddr, hpage] at hother
        exact absurd rfl hother
    · refine ⟨?_, fun _ => rfl⟩
      intro pr hmanages hpage
      obtain ⟨pg, hpg, rfl⟩ := Manages.page hlayout hmanages
      rw [(hlayout.managed.each pg hpg).pageaddr] at hpage
      have hapart := hlayout.page_big_apart hpg hbig
      have hpos := bigRun_pos (hlayout.bigSize _ hbig)
      simp only [Apart, Page.run, bigRun] at hapart hpos
      omega
  · exact rfl

/-- However the kernel uses its heap, the free lists and the tables stay
intact and no check of the allocator fails. -/
theorem kernel_heap_integrity {k₀ : Kernel} (hstart : k₀.Starts)
    (hrun : Relation.ReflTransGen Step k₀ k) : k.Integrity ∧ k.CallsReturn := by
  have hinv := invariant_of_steps Inv hrun hstart.inv
    (fun _ _ hinv hstep => hinv.step hstep)
  exact ⟨hinv.integrity, hinv.callsReturn⟩

/-! A kernel takes two blocks of one page, writes the lower one and frees the
upper one. -/

private def booted : Kernel :=
  ⟨⟨fun _ => 0, fun _ => ⟨none, none, 0, 0, 0⟩, fun _ => 0, fun _ => none, none, [], []⟩, []⟩

private def oneBlock : Kernel :=
  ⟨(kmalloc 4096 2000 booted.heap).stateD booted.heap, [(6144, 2000)]⟩

private def twoBlocks : Kernel :=
  ⟨(kmalloc 8192 1999 oneBlock.heap).stateD oneBlock.heap, [(4096, 1999), (6144, 2000)]⟩

private def written : Kernel := { twoBlocks with heap := twoBlocks.heap.write 4100 7 }

private def freed : Kernel :=
  ⟨(Kheap.kfree 6144 written.heap).stateD written.heap, [(4096, 1999)]⟩

theorem kernel_heap_integrity_two_blocks :
    booted.Starts ∧ freed.Integrity ∧ freed.CallsReturn := by
  have hstart : booted.Starts := ⟨fun _ => rfl, fun _ => rfl, rfl, rfl, rfl⟩
  have hone : Step booted oneBlock := .kmalloc 4096 (by decide)
    (Result.eq_ok_of_returned booted.heap
      (show (kmalloc 4096 2000 booted.heap).returned = some 6144 by decide))
  have htwo : Step oneBlock twoBlocks := .kmalloc 8192 (by decide)
    (Result.eq_ok_of_returned oneBlock.heap
      (show (kmalloc 8192 1999 oneBlock.heap).returned = some 4096 by decide))
  have hwritten : Step twoBlocks written :=
    .store (show (4096, 1999) ∈ twoBlocks.live by simp [twoBlocks]) (by decide) (by decide)
      (by decide)
  have hfreed : Step written freed :=
    .kfree (show (6144, 2000) ∈ written.live by simp [written, twoBlocks])
      (Result.eq_ok_of_returned written.heap
        (show (Kheap.kfree 6144 written.heap).returned = some () by decide +kernel))
  exact ⟨hstart, kernel_heap_integrity hstart
    ((((Relation.ReflTransGen.single hone).tail htwo).tail hwritten).tail hfreed)⟩

end Kernel

end OS161.Kheap
