import OS161.Kheap.Spec

namespace OS161.Kheap

open OS161.Data

section NewPage

variable {h : KHeap} {pages : List Page} {grant t : Nat}

/-- A page fresh from the page allocator, all its blocks free. -/
def freshPage (pr addr t : Nat) : Page :=
  ⟨pr, addr, t, lowestBlocks addr (sizes t) (PAGE_SIZE / sizes t), []⟩

theorem freshPage_ok {mem : Nat → Nat} (ht : t < NSIZES) (hpr : pr < NPAGEREFS)
    (haligned : addr % 4096 = 0) (hpos : 0 < addr) (hhigh : addr + 4096 ≤ 0xa0000000)
    (hlinks : Links (freeNext mem)
      (some (addr + (PAGE_SIZE / sizes t - 1) * sizes t))
      (lowestBlocks addr (sizes t) (PAGE_SIZE / sizes t)) none)
    (next next' : Option Nat) :
    PageOk mem ⟨next, next', mkpab addr t, (PAGE_SIZE / sizes t - 1) * sizes t,
      PAGE_SIZE / sizes t⟩ (freshPage pr addr t) := by
  have hhead := hlinks.head_eq
  have htype : t < 8 := ht
  refine ⟨ht, hpr, haligned, hpos, hhigh, ?_, ?_, ?_, hhead ▸ hlinks, ?_, by simp [freshPage]⟩
  · simp only [mkpab, freshPage]
    omega
  · simp only [freshPage]
    cases hblocks : lowestBlocks addr (sizes t) (PAGE_SIZE / sizes t) with
    | nil => simp [hblocks] at hhead
    | cons fl rest =>
        rw [hblocks, List.head?_cons, Option.some_inj] at hhead
        rw [offsetOf, ← hhead, Nat.add_sub_cancel_left]
  · simp [freshPage, lowestBlocks]
  · simpa [freshPage] using lowestBlocks_perm addr t

/-- A fresh page goes to the head of both its lists. -/
theorem Managed.push {mem : Nat → Nat} {r : Pageref} {pr addr : Nat}
    {inuse : Nat → BitVec 32} (hmanaged : Managed h pages) (ht : t < NSIZES)
    (hfresh : h.used pr = false) (hpr : pr < NPAGEREFS)
    (hsame : r.nextSamesize = h.sizebases t) (hall : r.nextAll = h.allbase)
    (hok : PageOk mem r (freshPage pr addr t))
    (hother : ∀ pg ∈ pages, ∀ fl ∈ pg.free, mem fl = h.mem fl)
    (hused : ∀ j < NPAGEREFS,
      (inuse (j / 32)).getLsbD (j % 32) = (h.used j || decide (j = pr)))
    (runs : List (Nat × Nat)) :
    Managed { h with
      mem := mem
      pagerefs := Function.update h.pagerefs pr r
      pagerefsInuse := inuse
      sizebases := Function.update h.sizebases t (some pr)
      allbase := some pr
      kpages := runs } (freshPage pr addr t :: pages) := by
  have hnew : pr ∉ pages.map Page.ref := by
    intro hmem
    rw [(hmanaged.inuse pr hpr).mpr hmem] at hfresh
    cases hfresh
  have hkeep : ∀ nodes ⊆ pages.map Page.ref, ∀ chain, ∀ other ∈ nodes,
      KHeap.next { h with
        mem := mem
        pagerefs := Function.update h.pagerefs pr r
        pagerefsInuse := inuse
        sizebases := Function.update h.sizebases t (some pr)
        allbase := some pr
        kpages := runs } chain other = h.next chain other := by
    intro nodes hsub chain other hmem
    have hne := ne_of_mem_of_not_mem (hsub hmem) hnew
    cases chain <;> simp only [KHeap.next, Function.update_of_ne hne]
  refine ⟨⟨rfl, ?_⟩, ?_, ?_, ?_⟩
  · have hall' := hmanaged.all.congr (hkeep _ (List.Subset.refl _) .all)
    simpa [KHeap.next, freshPage, hall] using hall'
  · intro t' ht'
    have hsub : (pages.filter fun pg => decide (pg.blktype = t')).map Page.ref ⊆
        pages.map Page.ref :=
      List.map_subset _ List.filter_sublist.subset
    have hlinks := (hmanaged.samesize t' ht').congr (hkeep _ hsub (.samesize t'))
    by_cases heq : t' = t
    · subst heq
      rw [List.filter_cons_of_pos (by simp [freshPage]), List.map_cons]
      simp only [Function.update_self]
      refine ⟨rfl, ?_⟩
      simpa [KHeap.next, freshPage, hsame] using hlinks
    · rw [List.filter_cons_of_neg (by simp [freshPage, Ne.symm heq])]
      simp only [Function.update_of_ne heq]
      exact hlinks
  · intro j hj
    simp only [KHeap.used, hused j hj, Bool.or_eq_true, decide_eq_true_eq, List.map_cons,
      List.mem_cons, freshPage]
    rw [← hmanaged.inuse j hj]
    exact or_comm
  · intro pg hpg
    rcases List.mem_cons.mp hpg with rfl | hpg
    · simpa [freshPage] using hok
    · simp only [Function.update_of_ne
        (ne_of_mem_of_not_mem (List.mem_map_of_mem hpg) hnew)]
      exact (hmanaged.each pg hpg).congr (hother pg hpg)

/-- Making a page of blocks. -/
theorem newPage_spec (hmanaged : Managed h pages) (ht : t < NSIZES)
    (hruns : ∀ pg ∈ pages, (pg.addr, 1) ∈ h.kpages) :
    Prog.Returns (newPage grant t) (fun found h' =>
      h'.released = h.released ∧
      match found with
      | none => Managed h' pages ∧ h'.kpages = h.kpages
      | some pr => Managed h' (freshPage pr grant t :: pages) ∧
          h'.kpages = (grant, 1) :: h.kpages ∧
          ∀ run ∈ h.kpages, Apart (grant, 1) run) h := by
  obtain ⟨hsixteen, -, -, hwhole, htwo, -⟩ := sizes_facts t ht
  simp only [newPage, allocpageref, ↓Prog.wp_bind]
  refine Prog.Returns.mono (allocpagerefFrom_spec rfl) ?_
  intro found h₁ hfound
  cases found with
  | none =>
      obtain rfl : h₁ = h := hfound
      exact ⟨rfl, hmanaged, rfl⟩
  | some pr =>
      obtain ⟨hpr, hfresh, hsame, hused⟩ := hfound
      generalize hinuse : h₁.pagerefsInuse = inuse at hsame
      subst hsame
      simp only [allocKpages, ↓Prog.wp_bind, ↓Prog.wp_get, ↓Prog.wp_ite, ↓Prog.wp_pure,
        ↓Prog.wp_modify]
      split
      case isTrue hgrant =>
          obtain ⟨hpos, haligned, hhigh, hapart⟩ := hgrant
          rw [if_neg hpos]
          refine Prog.Returns.mono (threadBlocks_spec (by omega) (by omega) (by omega)) ?_
          intro fla h₂ hthreaded
          have hsame := hthreaded.same
          have hlast := hthreaded.last
          have hlinks := hthreaded.links
          have houtside := hthreaded.outside
          generalize h₂.mem = mem at hsame hlinks houtside
          subst hsame
          clear hthreaded
          have hblocks : (PAGE_SIZE / sizes t - 1) * sizes t + sizes t = 4096 := by
            rw [← Nat.succ_mul, Nat.succ_eq_add_one, Nat.sub_add_cancel (by omega), hwhole]
          have hoffset : (fla - grant) % 2 ^ 16 = (PAGE_SIZE / sizes t - 1) * sizes t := by
            omega
          simp only [↓Prog.wp_assert, KHeap.setPageref, KHeap.setNext, KHeap.setBase,
            KHeap.base, Function.update_self, Function.update_idem, hoffset, if_true]
          refine ⟨trivial, hmanaged.push ht hfresh hpr rfl rfl ?_ ?_ hused _, trivial,
            hapart⟩
          · exact freshPage_ok ht hpr haligned (by omega) (by omega) (hlast ▸ hlinks) _ _
          · intro pg hpg fl hfl
            have hok := hmanaged.each pg hpg
            obtain ⟨hlow, hup, -⟩ := blocksOf_bounds hok.type (hok.free_mem hfl)
            have hpage := hapart _ (hruns pg hpg)
            have hsizes := (sizes_facts _ hok.type).1
            simp only [Apart] at hpage
            rw [houtside fl (by rw [hwhole]; omega)]
            rfl
      case isFalse =>
          rw [if_pos trivial]
          refine Prog.Returns.mono (freepageref_spec hpr ?_) ?_
          · rw [hused pr hpr]
            simp
          · rintro _ h₂ ⟨hsame, hfreed⟩
            generalize hinuse' : h₂.pagerefsInuse = inuse' at hsame
            subst hsame
            refine ⟨rfl, ⟨hmanaged.all, hmanaged.samesize, ?_, hmanaged.each⟩, rfl⟩
            intro j hj
            rw [hfreed j hj, hused j hj, ← hmanaged.inuse j hj]
            by_cases heq : j = pr
            · simp [heq, hfresh]
            · simp [heq]

end NewPage

def Page.run (pg : Page) : Nat × Nat := (pg.addr, 1)

/-- The pages behind an allocation that bypasses the subpage allocator. -/
def bigRun (entry : Nat × Nat) : Nat × Nat :=
  (entry.1, (entry.2 + 4095) / 4096)

/-- The allocator and what the kernel holds: pages cut into blocks, and runs
of whole pages. -/
structure Layout (h : KHeap) (pages : List Page) (bigs : List (Nat × Nat)) : Prop where
  managed : Managed h pages
  kpages : h.kpages.Perm (pages.map Page.run ++ bigs.map bigRun)
  apart : h.kpages.Pairwise Apart
  bigPos : ∀ entry ∈ bigs, 0 < entry.1
  bigAligned : ∀ entry ∈ bigs, entry.1 % 4096 = 0
  bigSize : ∀ entry ∈ bigs, LARGEST_SUBPAGE_SIZE ≤ entry.2

/-- A page without a block in use is given back. -/
def Occupied (pages : List Page) : Prop := ∀ pg ∈ pages, pg.held ≠ []

def liveOf (pages : List Page) (bigs : List (Nat × Nat)) : List (Nat × Nat) :=
  pages.flatMap Page.held ++ bigs

section Kmalloc

variable {h h' : KHeap} {pages : List Page} {bigs : List (Nat × Nat)}
variable {grant size sz i turns : Nat}

theorem Layout.page_mem (hlayout : Layout h pages bigs) (hpg : pg ∈ pages) :
    pg.run ∈ h.kpages := by
  refine hlayout.kpages.mem_iff.mpr (List.mem_append_left _ ?_)
  exact List.mem_map_of_mem hpg

theorem blocktypeFrom_spec (hi : i + turns = NSIZES) (hturns : 0 < turns)
    (hsz : sz ≤ LARGEST_SUBPAGE_SIZE) :
    Prog.Returns (blocktypeFrom sz turns i)
      (fun t h' => h' = h ∧ t < NSIZES ∧ sz ≤ sizes t) h := by
  induction turns generalizing i with
  | zero => omega
  | succ turns ih =>
      simp only [blocktypeFrom, ↓Prog.wp_ite, ↓Prog.wp_pure]
      split
      case isTrue hfits => exact ⟨trivial, by omega, hfits⟩
      case isFalse hlarge =>
          apply ih (by omega)
          apply Nat.pos_of_ne_zero
          rintro rfl
          obtain rfl : i = 7 := by
            simp only [NSIZES] at hi
            omega
          exact hlarge hsz

/-- A page of the list gives one block away. -/
theorem liveOf_take {below above : List Page} {pg : Page} :
    (liveOf (below ++ pg.take fl rest size :: above) bigs).Perm
      ((fl, size) :: liveOf (below ++ pg :: above) bigs) := by
  simp only [liveOf, List.flatMap_append, List.flatMap_cons, Page.take, List.append_assoc,
    List.cons_append]
  exact List.perm_middle

theorem doalloc_layout {below above : List Page} {pg : Page} {fl : Nat} {rest : List Nat}
    (hlayout : Layout h (below ++ pg :: above) bigs)
    (hoccupied : Occupied (below ++ above))
    (hfree : pg.free = fl :: rest) (hsize : size ≤ sizes pg.blktype) :
    Prog.Returns (doalloc pg.ref) (fun ptr h' => ptr = fl ∧ h'.released = h.released ∧
      h'.kpages = h.kpages ∧ Layout h' (below ++ pg.take fl rest size :: above) bigs ∧
      Occupied (below ++ pg.take fl rest size :: above)) h := by
  refine Prog.Returns.mono (doalloc_spec hlayout.managed hfree hsize) ?_
  rintro ptr h' ⟨rfl, hsame, hmanaged⟩
  have hruns : h'.kpages = h.kpages := by rw [hsame]
  refine ⟨rfl, by rw [hsame], hruns, ⟨hmanaged, ?_, hruns ▸ hlayout.apart, hlayout.bigPos,
    hlayout.bigAligned, hlayout.bigSize⟩, ?_⟩
  · rw [hruns]
    simpa [Page.take, Page.run] using hlayout.kpages
  · intro other hother
    simp only [List.mem_append, List.mem_cons] at hother
    rcases hother with hbelow | rfl | habove
    · exact hoccupied other (List.mem_append_left _ hbelow)
    · simp [Page.take]
    · exact hoccupied other (List.mem_append_right _ habove)

/-- Where `subpage_kmalloc` finds a block of the type: on a page that has one, or on
a new page where no page has; and there may be no new page. -/
inductive Taken (h : KHeap) (pages : List Page) (grant size t : Nat) :
    (ptr : Nat) → KHeap → List Page → Prop
  | block {h' : KHeap} (hpages : pages = below ++ pg :: above) (htype : pg.blktype = t)
      (hfree : pg.free = fl :: rest) (hkpages : h'.kpages = h.kpages) :
      Taken h pages grant size t fl h' (below ++ pg.take fl rest size :: above)
  | fresh {h' : KHeap} (hfull : ∀ pg ∈ pages, pg.blktype = t → pg.free = [])
      (hfree : (freshPage pr grant t).free = fl :: rest)
      (hkpages : h'.kpages = (grant, 1) :: h.kpages) :
      Taken h pages grant size t fl h' ([] ++ (freshPage pr grant t).take fl rest size :: pages)
  | none {h' : KHeap} (hfull : ∀ pg ∈ pages, pg.blktype = t → pg.free = [])
      (hkpages : h'.kpages = h.kpages) :
      Taken h pages grant size t 0 h' pages

theorem subpageKmalloc_taken (hlayout : Layout h pages bigs) (hoccupied : Occupied pages)
    (ht : t < NSIZES) (hfits : size ≤ sizes t) (hclass : blocktype size h = .ok t h) :
    Prog.Returns (subpageKmalloc grant size) (fun ptr h' => h'.released = h.released ∧
      ∃ pages', Taken h pages grant size t ptr h' pages' ∧ Layout h' pages' bigs ∧
        Occupied pages') h := by
  have hmanaged := hlayout.managed
  have hblocktype : Prog.Returns (blocktype size) (fun t' h' => t' = t ∧ h' = h) h := by
    rw [Prog.Returns, Prog.wp, hclass]
    exact ⟨rfl, rfl⟩
  simp only [subpageKmalloc, ↓Prog.wp_bind]
  refine Prog.Returns.mono hblocktype ?_
  rintro t' h₁ ⟨htype, hsame⟩
  obtain rfl : t = t' := htype.symm
  obtain rfl : h = h₁ := hsame.symm
  simp only [↓Prog.wp_get]
  have hroom := @findRoom_spec h _ t (NPAGEREFS + 1) (h.base (.samesize t))
    (fun pg hpg => hmanaged.each pg (List.mem_of_mem_filter hpg))
    (fun pg hpg => by simpa using (List.mem_filter.mp hpg).2)
    (hmanaged.samesize t ht)
    (Nat.lt_succ_of_le (Nat.le_trans (List.length_filter_le _ _) hmanaged.length_le))
  refine Prog.Returns.mono hroom ?_
  rintro found h₁ ⟨hsame, hfound⟩
  obtain rfl : h = h₁ := hsame.symm
  cases found with
  | some pr =>
      obtain ⟨pg, hpg, rfl, hfree⟩ := hfound
      obtain ⟨hpg, htype⟩ := List.mem_filter.mp hpg
      obtain ⟨below, above, rfl⟩ := List.append_of_mem hpg
      obtain ⟨fl, rest, hfree⟩ := List.exists_cons_of_ne_nil hfree
      simp only [decide_eq_true_eq] at htype
      have hothers : Occupied (below ++ above) := by
        intro other hother
        refine hoccupied other ?_
        simp only [List.mem_append, List.mem_cons] at hother ⊢
        tauto
      refine Prog.Returns.mono
        (doalloc_layout hlayout hothers hfree (htype ▸ hfits)) ?_
      rintro ptr h₂ ⟨rfl, hreleased, hkpages, hlayout₂, hoccupied₂⟩
      exact ⟨hreleased, _, .block rfl htype hfree hkpages, hlayout₂, hoccupied₂⟩
  | none =>
      have hfull : ∀ pg ∈ pages, pg.blktype = t → pg.free = [] := by
        intro pg hpg htype
        exact hfound pg (List.mem_filter.mpr ⟨hpg, by simpa using htype⟩)
      simp only [↓Prog.wp_bind]
      refine Prog.Returns.mono
        (newPage_spec hmanaged ht (fun pg hpg => hlayout.page_mem hpg)) ?_
      rintro found h₁ ⟨hreleased, hfound⟩
      cases found with
      | none =>
          obtain ⟨hmanaged₁, hruns⟩ := hfound
          simp only [↓Prog.wp_pure]
          exact ⟨hreleased, pages, .none hfull hruns, ⟨hmanaged₁, hruns ▸ hlayout.kpages,
            hruns ▸ hlayout.apart, hlayout.bigPos, hlayout.bigAligned, hlayout.bigSize⟩,
            hoccupied⟩
      | some pr =>
          obtain ⟨hmanaged₁, hruns, hapart⟩ := hfound
          have hlayout₁ : Layout h₁ ([] ++ freshPage pr grant t :: pages) bigs := by
            refine ⟨hmanaged₁, ?_, ?_, hlayout.bigPos, hlayout.bigAligned,
              hlayout.bigSize⟩
            · rw [hruns]
              exact hlayout.kpages.cons _
            · rw [hruns]
              exact List.pairwise_cons.mpr ⟨hapart, hlayout.apart⟩
          have hcount := (sizes_facts t ht).2.2.2.2.1
          obtain ⟨n, hn⟩ : ∃ n, PAGE_SIZE / sizes t = n + 1 :=
            ⟨PAGE_SIZE / sizes t - 1, by omega⟩
          have hfree : (freshPage pr grant t).free =
              (grant + n * sizes t) :: lowestBlocks grant (sizes t) n := by
            rw [freshPage, hn, lowestBlocks_succ]
          refine Prog.Returns.mono (doalloc_layout hlayout₁ hoccupied hfree hfits) ?_
          rintro ptr h₂ ⟨rfl, hreleased₂, hkpages₂, hlayout₂, hoccupied₂⟩
          exact ⟨hreleased₂.trans hreleased, _, .fresh hfull hfree (hkpages₂.trans hruns),
            hlayout₂, hoccupied₂⟩

/-- The blocks that the kernel holds after the call. -/
theorem Taken.live (htaken : Taken h pages grant size t ptr h' pages')
    (hlayout' : Layout h' pages' bigs) :
    (liveOf pages' bigs).Perm
      (if ptr = 0 then liveOf pages bigs else (ptr, size) :: liveOf pages bigs) := by
  have hpos {below above : List Page} {pg : Page} {rest : List Nat} {fl : Nat}
      (hlayout : Layout h' (below ++ pg.take fl rest size :: above) bigs) : fl ≠ 0 := by
    have hok := hlayout.managed.each (pg.take fl rest size) (by simp)
    have hentry : (fl, size) ∈ (pg.take fl rest size).held := List.mem_cons_self
    have hlow := (blocksOf_bounds hok.type (hok.held_mem hentry)).1
    have hpage := hok.pos
    omega
  cases htaken with
  | block hpages htype hfree hkpages =>
      rw [if_neg (hpos hlayout'), hpages]
      exact liveOf_take
  | fresh hfull hfree hkpages =>
      rw [if_neg (hpos hlayout')]
      exact liveOf_take
  | none hfull hkpages => rw [if_pos rfl]

theorem subpageKmalloc_spec (hlayout : Layout h pages bigs) (hoccupied : Occupied pages)
    (hsize : size < LARGEST_SUBPAGE_SIZE) :
    Prog.Returns (subpageKmalloc grant size) (fun ptr h' => h'.released = h.released ∧
      ∃ pages', Layout h' pages' bigs ∧ Occupied pages' ∧
        (liveOf pages' bigs).Perm
          (if ptr = 0 then liveOf pages bigs else (ptr, size) :: liveOf pages bigs)) h := by
  have hblocktype : Prog.Returns (blocktypeFrom size NSIZES 0)
      (fun t h' => h' = h ∧ t < NSIZES ∧ size ≤ sizes t) h :=
    blocktypeFrom_spec rfl (by decide) (Nat.le_of_lt hsize)
  obtain ⟨t, _, hclass, rfl, ht, hfits⟩ := hblocktype.exists_ok
  refine Prog.Returns.mono (subpageKmalloc_taken hlayout hoccupied ht hfits hclass) ?_
  rintro ptr h' ⟨hreleased, pages', htaken, hlayout', hoccupied'⟩
  exact ⟨hreleased, pages', hlayout', hoccupied', htaken.live hlayout'⟩

theorem kmalloc_spec (hlayout : Layout h pages bigs) (hoccupied : Occupied pages)
    (hsize : size ≤ 2 ^ 32 - 4096) :
    Prog.Returns (kmalloc grant size) (fun ptr h' => h'.released = h.released ∧
      ∃ pages' bigs', Layout h' pages' bigs' ∧ Occupied pages' ∧
        (liveOf pages' bigs').Perm
          (if ptr = 0 then liveOf pages bigs else (ptr, size) :: liveOf pages bigs)) h := by
  rw [kmalloc, Prog.Returns, Prog.wp_ite]
  split
  case isTrue hbig =>
      have hnpages : (size + PAGE_SIZE - 1) % 2 ^ 32 / PAGE_SIZE = (size + 4095) / 4096 := by
        simp only [PAGE_SIZE]
        omega
      simp only [allocKpages, hnpages, ↓Prog.wp_bind, ↓Prog.wp_get, ↓Prog.wp_ite,
        ↓Prog.wp_modify, ↓Prog.wp_pure, if_true]
      split
      case isTrue hgrant =>
          obtain ⟨hpos, haligned, -, hapart⟩ := hgrant
          rw [if_neg hpos]
          refine ⟨trivial, pages, (grant, size) :: bigs, ⟨?_, ?_, ?_, ?_, ?_, ?_⟩, hoccupied,
            List.perm_middle⟩
          · exact hlayout.managed.of_sameLists
              ⟨fun chain _ => by cases chain <;> rfl, fun chain => by cases chain <;> rfl, rfl⟩
              hlayout.managed.each
          · exact (hlayout.kpages.cons _).trans List.perm_middle.symm
          · exact List.pairwise_cons.mpr ⟨hapart, hlayout.apart⟩
          all_goals
            intro entry hentry
            rcases List.mem_cons.mp hentry with rfl | hentry
          · exact Nat.pos_of_ne_zero hpos
          · exact hlayout.bigPos entry hentry
          · exact haligned
          · exact hlayout.bigAligned entry hentry
          · exact hbig
          · exact hlayout.bigSize entry hentry
      case isFalse =>
          exact ⟨trivial, pages, bigs, hlayout, hoccupied, List.Perm.refl _⟩
  case isFalse hsmall =>
      refine Prog.Returns.mono (subpageKmalloc_spec hlayout hoccupied (by omega)) ?_
      rintro ptr h' ⟨hreleased, pages', hlayout', hoccupied', hlive⟩
      exact ⟨hreleased, pages', bigs, hlayout', hoccupied', hlive⟩

end Kmalloc

end OS161.Kheap
