import Mathlib.Data.List.Perm.Subperm
import OS161.Kheap.Pages

namespace OS161.Kheap

open OS161.Data

/-! What each function of the allocator does to the pages it manages. -/

@[simp] theorem KHeap.setPageref_self (h : KHeap) (pr : Nat) (f : Pageref → Pageref) :
    (h.setPageref pr f).pagerefs pr = f (h.pagerefs pr) :=
  Function.update_self ..

theorem KHeap.setPageref_twice (h : KHeap) (pr : Nat) (f g : Pageref → Pageref) :
    (h.setPageref pr f).setPageref pr g =
      { h with pagerefs := Function.update h.pagerefs pr (g (f (h.pagerefs pr))) } := by
  simp [KHeap.setPageref]

theorem KHeap.write_of_ne (h : KHeap) (hne : w ≠ address) (value : Nat) :
    (h.write address value).mem w = h.mem w :=
  Function.update_of_ne hne ..

theorem freeNext_congr {mem mem' : Nat → Nat} (hmem : mem' fl = mem fl) :
    freeNext mem' fl = freeNext mem fl := by
  simp only [freeNext, hmem]

section Replace

variable {h h' : KHeap} {pages below above : List Page} {pg pg' : Page}

/-- The tables that link pages stay. -/
structure SameLists (h h' : KHeap) : Prop where
  next : ∀ chain pr, h'.next chain pr = h.next chain pr
  base : ∀ chain, h'.base chain = h.base chain
  inuse : h'.pagerefsInuse = h.pagerefsInuse

theorem SameLists.used (hsame : SameLists h h') (pr : Nat) : h'.used pr = h.used pr := by
  rw [KHeap.used, KHeap.used, hsame.inuse]

theorem Managed.of_sameLists (hmanaged : Managed h pages) (hsame : SameLists h h')
    (heach : ∀ pg ∈ pages, PageOk h'.mem (h'.pagerefs pg.ref) pg) :
    Managed h' pages := by
  refine ⟨?_, ?_, ?_, heach⟩
  · rw [show h'.allbase = h.allbase from hsame.base .all]
    exact hmanaged.all.congr (fun pr _ => hsame.next .all pr)
  · intro t ht
    rw [show h'.sizebases t = h.sizebases t from hsame.base (.samesize t)]
    exact (hmanaged.samesize t ht).congr (fun pr _ => hsame.next (.samesize t) pr)
  · simp only [hsame.used]
    exact hmanaged.inuse

theorem Managed.refs_nodup (hmanaged : Managed h pages) :
    (pages.map Page.ref).Nodup :=
  hmanaged.all.nodup

theorem Managed.length_le (hmanaged : Managed h pages) : pages.length ≤ NPAGEREFS := by
  have hsub : pages.map Page.ref ⊆ List.range NPAGEREFS := by
    intro pr hpr
    obtain ⟨pg, hmem, rfl⟩ := List.mem_map.mp hpr
    exact List.mem_range.mpr (hmanaged.each pg hmem).refLt
  have hle := (List.Nodup.subperm hmanaged.refs_nodup hsub).length_le
  simpa using hle

/-- The other pages have other pagerefs. -/
theorem Managed.ref_ne (hmanaged : Managed h (below ++ pg :: above))
    (hother : other ∈ below ++ above) : other.ref ≠ pg.ref := by
  have hnodup := hmanaged.refs_nodup
  rw [List.map_append, List.map_cons] at hnodup
  have hfresh := (List.nodup_middle.mp hnodup).notMem
  rw [← List.map_append] at hfresh
  exact ne_of_mem_of_not_mem (List.mem_map_of_mem hother) hfresh

/-- One page changes, and keeps its pageref and its place. -/
theorem Managed.replace (hmanaged : Managed h (below ++ pg :: above))
    (href : pg'.ref = pg.ref) (htype : pg'.blktype = pg.blktype)
    (hsame : SameLists h h') (hok : PageOk h'.mem (h'.pagerefs pg.ref) pg')
    (hother : ∀ other ∈ below ++ above, PageOk h'.mem (h'.pagerefs other.ref) other) :
    Managed h' (below ++ pg' :: above) := by
  have hmapped : Managed h (below ++ pg :: above) := hmanaged
  refine ⟨?_, ?_, ?_, ?_⟩
  · rw [show h'.allbase = h.allbase from hsame.base .all]
    have hall := hmanaged.all.congr (fun pr _ => hsame.next .all pr)
    simpa [href] using hall
  · intro t ht
    rw [show h'.sizebases t = h.sizebases t from hsame.base (.samesize t)]
    have hlinks := (hmanaged.samesize t ht).congr
      (fun pr _ => hsame.next (.samesize t) pr)
    by_cases heq : pg.blktype = t
    · simpa [List.filter_cons, htype, heq, href] using hlinks
    · simpa [List.filter_cons, htype, heq] using hlinks
  · simp only [hsame.used]
    simpa [href] using hmanaged.inuse
  · intro other hmem
    rcases List.mem_append.mp hmem with hbelow | habove
    · exact hother other (List.mem_append_left _ hbelow)
    · rcases List.mem_cons.mp habove with rfl | habove
      · rw [href]
        exact hok
      · exact hother other (List.mem_append_right _ habove)

end Replace

section Doalloc

variable {h : KHeap} {pages below above : List Page} {pg : Page}
variable {fl size : Nat} {rest : List Nat}

/-- The page after its first free block was handed out. -/
def Page.take (pg : Page) (fl : Nat) (rest : List Nat) (size : Nat) : Page :=
  { pg with free := rest, held := (fl, size) :: pg.held }

theorem PageOk.take {mem : Nat → Nat} {r : Pageref} (hok : PageOk mem r pg)
    (hfree : pg.free = fl :: rest) (hsize : size ≤ sizes pg.blktype)
    (next : Option Nat) (next' : Option Nat) :
    PageOk mem ⟨next, next', r.pageaddrAndBlocktype, offsetOf pg.addr rest,
      r.nfree - 1⟩ (pg.take fl rest size) := by
  refine { hok with offset := rfl, nfree := ?_, links := ?_, partition := ?_, fits := ?_ }
  · simp only [Page.take, hok.nfree, hfree, List.length_cons, Nat.add_sub_cancel]
  · have hlinks := hok.links
    rw [hfree] at hlinks
    rw [Page.take, ← hlinks.2.head_eq]
    exact hlinks.2
  · have hpartition := hok.partition
    rw [hfree] at hpartition
    refine List.Perm.trans ?_ hpartition
    simp only [Page.take, List.map_cons, List.cons_append]
    exact List.perm_middle
  · intro entry hentry
    rcases List.mem_cons.mp hentry with rfl | hentry
    · exact hsize
    · exact hok.fits entry hentry

theorem doalloc_spec (hmanaged : Managed h (below ++ pg :: above))
    (hfree : pg.free = fl :: rest) (hsize : size ≤ sizes pg.blktype) :
    Prog.Returns (doalloc pg.ref) (fun ptr h' => ptr = fl ∧
      h' = { h with pagerefs := h'.pagerefs } ∧
      Managed h' (below ++ pg.take fl rest size :: above)) h := by
  have hok := hmanaged.each pg (by simp)
  have hmem : fl ∈ pg.free := by
    rw [hfree]
    exact List.mem_cons_self
  obtain ⟨hlow, hhigh, -⟩ := blocksOf_bounds hok.type (hok.free_mem hmem)
  obtain ⟨hsixteen, -, -, -, -, -⟩ := sizes_facts _ hok.type
  have hhead := hok.links
  rw [hfree] at hhead
  have hoffset : (h.pagerefs pg.ref).freelistOffset = fl - pg.addr := by
    rw [hok.offset, hfree, offsetOf]
  have hfla : pg.addr + (fl - pg.addr) = fl := by omega
  simp only [doalloc, ↓Prog.wp_bind, ↓Prog.wp_get, ↓Prog.wp_assert, ↓Prog.wp_modify,
    ↓Prog.wp_ite, ↓Prog.wp_pure, hoffset, hok.pageaddr, hfla,
    if_pos (show fl - pg.addr < PAGE_SIZE by simp only [PAGE_SIZE]; omega)]
  have hdone : ∀ r' : Pageref,
      r' = ⟨(h.pagerefs pg.ref).nextSamesize, (h.pagerefs pg.ref).nextAll,
        (h.pagerefs pg.ref).pageaddrAndBlocktype, offsetOf pg.addr rest,
        (h.pagerefs pg.ref).nfree - 1⟩ →
      Managed { h with pagerefs := Function.update h.pagerefs pg.ref r' }
        (below ++ pg.take fl rest size :: above) := by
    intro r' hr'
    refine hmanaged.replace rfl rfl ⟨?_, fun chain => by cases chain <;> rfl, rfl⟩ ?_ ?_
    · intro chain pr
      by_cases hpr : pr = pg.ref
      · cases chain <;> simp [KHeap.next, hpr, hr']
      · cases chain <;> simp [KHeap.next, hpr]
    · simp only [Function.update_self, hr']
      exact hok.take hfree hsize _ _
    · intro other hother
      simp only [Function.update_of_ne (hmanaged.ref_ne hother)]
      exact hmanaged.each other (by
        simp only [List.mem_append, List.mem_cons] at hother ⊢
        tauto)
  have hlength := hok.nfree
  rw [hfree, List.length_cons] at hlength
  cases rest with
  | nil =>
      have hnull : h.mem fl = 0 := by
        simpa [freeNext, Links] using hhead.2
      simp only [hnull, ne_eq, not_true_eq_false, if_false, KHeap.setPageref_self,
        KHeap.setPageref_twice,
        if_pos (show (h.pagerefs pg.ref).nfree - 1 = 0 by rw [hlength]; rfl)]
      exact ⟨trivial, trivial, hdone _ rfl⟩
  | cons fl' rest =>
      obtain ⟨hne, rfl⟩ : h.mem fl ≠ 0 ∧ h.mem fl = fl' := by
        simpa [freeNext, Links] using hhead.2.1
      have hnext : h.mem fl ∈ pg.free := by
        rw [hfree]
        simp
      obtain ⟨hlow', hhigh', -⟩ := blocksOf_bounds hok.type (hok.free_mem hnext)
      have hpage := hok.high
      simp only [PAGE_SIZE] at hpage
      have hsub : (h.mem fl + 2 ^ 32 - pg.addr) % 2 ^ 32 = h.mem fl - pg.addr := by
        omega
      simp only [if_pos hne, KHeap.setPageref_self, KHeap.setPageref_twice, hsub,
        if_pos (show (h.pagerefs pg.ref).nfree - 1 > 0 by
          rw [hlength, List.length_cons]; omega),
        if_pos (show h.mem fl - pg.addr < PAGE_SIZE by simp only [PAGE_SIZE]; omega)]
      refine ⟨trivial, trivial, hdone _ ?_⟩
      simp only [offsetOf, Pageref.mk.injEq, true_and, and_true]
      omega

end Doalloc

/-! The loops over the lists of pages. -/

section Walks

variable {h : KHeap} {pages rest : List Page} {t turns ptraddr : Nat}

theorem findRoom_spec (heach : ∀ pg ∈ rest, PageOk h.mem (h.pagerefs pg.ref) pg)
    (htype : ∀ pg ∈ rest, pg.blktype = t)
    (hlinks : Links (h.next (.samesize t)) head (rest.map Page.ref) none)
    (hturns : rest.length < turns) :
    Prog.Returns (findRoom t turns head) (fun found h' => h' = h ∧
      match found with
      | some pr => ∃ pg ∈ rest, pg.ref = pr ∧ pg.free ≠ []
      | none => ∀ pg ∈ rest, pg.free = []) h := by
  induction rest generalizing head turns with
  | nil =>
      obtain rfl : head = none := hlinks
      cases turns with
      | zero => exact absurd hturns (Nat.not_lt_zero _)
      | succ turns => exact ⟨rfl, by simp⟩
  | cons pg rest ih =>
      obtain ⟨rfl, hlinks⟩ := hlinks
      cases turns with
      | zero => exact absurd hturns (Nat.not_lt_zero _)
      | succ turns =>
          have hok := heach pg (by simp)
          simp only [findRoom, ↓Prog.wp_bind, ↓Prog.wp_get, ↓Prog.wp_assert,
            ↓Prog.wp_ite, ↓Prog.wp_pure,
            if_pos (show (h.pagerefs pg.ref).blocktype = t from
              hok.blocktype.trans (htype pg (by simp)))]
          split
          case isTrue hroom =>
              refine ⟨trivial, pg, by simp, rfl, ?_⟩
              intro hnil
              rw [hok.nfree, hnil] at hroom
              exact absurd hroom (Nat.not_lt_zero _)
          case isFalse hfull =>
              refine (ih (fun other hmem => heach other (by simp [hmem]))
                (fun other hmem => htype other (by simp [hmem])) hlinks
                (by simpa using hturns)).mono ?_
              rintro found h' ⟨hsame, hfound⟩
              refine ⟨hsame, ?_⟩
              cases found with
              | some pr =>
                  obtain ⟨other, hmem, hother⟩ := hfound
                  exact ⟨other, by simp [hmem], hother⟩
              | none =>
                  intro other hmem
                  rcases List.mem_cons.mp hmem with rfl | hmem
                  · rw [hok.nfree] at hfull
                    exact List.length_eq_zero_iff.mp (by omega)
                  · exact hfound other hmem

/-- The page of an address, or the news that no page holds it. -/
def PageFound (pages : List Page) (ptraddr : Nat) : Option Nat → Prop
  | some pr => ∃ pg ∈ pages, pg.ref = pr ∧ pg.addr ≤ ptraddr ∧ ptraddr < pg.addr + 4096
  | none => ∀ pg ∈ pages, ¬(pg.addr ≤ ptraddr ∧ ptraddr < pg.addr + 4096)

theorem findPage_spec (heach : ∀ pg ∈ rest, PageOk h.mem (h.pagerefs pg.ref) pg)
    (hlinks : Links (h.next .all) head (rest.map Page.ref) none)
    (hturns : rest.length < turns) :
    Prog.Returns (findPage ptraddr turns head) (fun found h' => h' = h ∧
      PageFound rest ptraddr found) h := by
  induction rest generalizing head turns with
  | nil =>
      obtain rfl : head = none := hlinks
      cases turns with
      | zero => exact absurd hturns (Nat.not_lt_zero _)
      | succ turns => exact ⟨rfl, by simp [PageFound]⟩
  | cons pg rest ih =>
      obtain ⟨rfl, hlinks⟩ := hlinks
      cases turns with
      | zero => exact absurd hturns (Nat.not_lt_zero _)
      | succ turns =>
          have hok := heach pg (by simp)
          simp only [findPage, ↓Prog.wp_bind, ↓Prog.wp_get, ↓Prog.wp_assert,
            ↓Prog.wp_ite, ↓Prog.wp_pure, hok.pageaddr, PAGE_SIZE,
            if_pos (show (h.pagerefs pg.ref).blocktype < NSIZES from
              hok.blocktype.symm ▸ hok.type)]
          split
          case isTrue hinside => exact ⟨trivial, pg, by simp, rfl, hinside⟩
          case isFalse houtside =>
              refine (ih (fun other hmem => heach other (by simp [hmem])) hlinks
                (by simpa using hturns)).mono ?_
              rintro found h' ⟨hsame, hfound⟩
              refine ⟨hsame, ?_⟩
              cases found with
              | none =>
                  intro other hmem
                  rcases List.mem_cons.mp hmem with rfl | hmem
                  · exact houtside
                  · exact hfound other hmem
              | some pr =>
                  obtain ⟨other, hmem, hother⟩ := hfound
                  exact ⟨other, by simp [hmem], hother⟩

end Walks

/-! The bitmap of pagerefs. -/

section Bitmap

variable {h : KHeap} {w : BitVec 32} {turns i j : Nat}

theorem getLsbD_bit (hi : i < 32) : (1#32 <<< j).getLsbD i = decide (i = j) := by
  rw [BitVec.getLsbD_shiftLeft, BitVec.getLsbD_one, Bool.eq_iff_iff]
  simp
  omega

theorem and_bit_eq_zero (hj : j < 32) :
    w &&& 1#32 <<< j = 0 ↔ w.getLsbD j = false := by
  constructor
  · intro hzero
    have hget := congrArg (fun v : BitVec 32 => v.getLsbD j) hzero
    simpa [getLsbD_bit hj] using hget
  · intro hclear
    apply BitVec.eq_of_getLsbD_eq
    intro i hi
    by_cases heq : i = j
    · simp [heq, hclear]
    · simp [getLsbD_bit hi, heq]

theorem findClear_spec (hturns : 32 - j < turns) (hset : ∀ b < j, w.getLsbD b = true) :
    (∃ b, b < 32 ∧ w.getLsbD b = false ∧
      findClear w turns (1#32 <<< j) j = some (1#32 <<< b, b)) ∨
    (w = 0xffffffff#32 ∧ findClear w turns (1#32 <<< j) j = none) := by
  induction turns generalizing j with
  | zero => omega
  | succ turns ih =>
      by_cases hj : j < 32
      · have hbit : 1#32 <<< j ≠ 0 := by
          intro hzero
          have hget := congrArg (fun v : BitVec 32 => v.getLsbD j) hzero
          simp [hj] at hget
        simp only [findClear, if_neg hbit, and_bit_eq_zero hj]
        split
        case isTrue hclear => exact Or.inl ⟨j, hj, hclear, rfl⟩
        case isFalse hused =>
            rw [← BitVec.shiftLeft_add]
            apply ih (by omega)
            intro b hb
            by_cases heq : b = j
            · simpa [heq] using hused
            · exact hset b (by omega)
      · have hzero : 1#32 <<< j = 0 := by
          apply BitVec.eq_of_getLsbD_eq
          intro b hb
          simp [getLsbD_bit hb]
          omega
        refine Or.inr ⟨?_, by simp [findClear, hzero]⟩
        apply BitVec.eq_of_getLsbD_eq
        intro b hb
        rw [hset b (by omega)]
        exact ((by decide : ∀ b < 32, (0xffffffff#32).getLsbD b = true) b hb).symm

theorem allocpagerefFrom_spec (hi : i + words = INUSE_WORDS) :
    Prog.Returns (allocpagerefFrom words i) (fun found h' =>
      match found with
      | none => h' = h
      | some pr => pr < NPAGEREFS ∧ h.used pr = false ∧
          h' = { h with pagerefsInuse := h'.pagerefsInuse } ∧
          ∀ j < NPAGEREFS, h'.used j = (h.used j || decide (j = pr))) h := by
  induction words generalizing i with
  | zero => exact rfl
  | succ words ih =>
      simp only [INUSE_WORDS] at hi
      simp only [allocpagerefFrom, ↓Prog.wp_bind, ↓Prog.wp_get, ↓Prog.wp_ite]
      split
      case isTrue => exact ih (by simp only [INUSE_WORDS]; omega)
      case isFalse hfull =>
          have hclear := @findClear_spec (h.pagerefsInuse i) 33 0 (by decide) (by simp)
          rw [BitVec.shiftLeft_zero] at hclear
          rcases hclear with ⟨b, hb, hfree, hfound⟩ | ⟨hones, -⟩
          · rw [hfound]
            simp only [↓Prog.wp_bind, ↓Prog.wp_modify, ↓Prog.wp_pure, NPAGEREFS]
            have hword : (i * 32 + b) / 32 = i := by omega
            have hbit : (i * 32 + b) % 32 = b := by omega
            refine ⟨by omega, ?_, trivial, ?_⟩
            · rw [KHeap.used, hword, hbit, hfree]
            · intro j hj
              by_cases heq : j / 32 = i
              · simp only [KHeap.used, heq, Function.update_self, BitVec.getLsbD_or]
                have hsame : j % 32 = b ↔ j = i * 32 + b := by omega
                rw [getLsbD_bit (by omega), decide_eq_decide.mpr hsame]
              · simp only [KHeap.used, Function.update_of_ne heq]
                rw [Bool.eq_iff_iff]
                simp
                omega
          · exact absurd hones hfull

theorem freepageref_spec (hpr : pr < NPAGEREFS) (hused : h.used pr = true) :
    Prog.Returns (freepageref pr) (fun _ h' =>
      h' = { h with pagerefsInuse := h'.pagerefsInuse } ∧
      ∀ j < NPAGEREFS, h'.used j = (h.used j && decide (j ≠ pr))) h := by
  have hset : h.pagerefsInuse (pr / 32) &&& 1#32 <<< (pr % 32) ≠ 0 := by
    intro hzero
    rw [and_bit_eq_zero (by omega)] at hzero
    rw [KHeap.used, hzero] at hused
    cases hused
  simp only [freepageref, ↓Prog.wp_bind, ↓Prog.wp_get, ↓Prog.wp_assert, ↓Prog.wp_modify,
    if_pos hpr, if_pos hset]
  refine ⟨trivial, ?_⟩
  intro j hj
  by_cases heq : j / 32 = pr / 32
  · simp only [KHeap.used, heq, Function.update_self, BitVec.getLsbD_and,
      BitVec.getLsbD_not]
    rw [getLsbD_bit (by omega), Bool.eq_iff_iff]
    simp
    omega
  · simp only [KHeap.used, Function.update_of_ne heq]
    rw [Bool.eq_iff_iff]
    simp
    omega

end Bitmap

section Fresh

variable {h : KHeap} {addr t : Nat}

/-- The free list of the lowest `count` blocks of a page. -/
def lowestBlocks (addr sz count : Nat) : List Nat :=
  ((List.range count).map fun i => addr + i * sz).reverse

theorem lowestBlocks_succ (addr sz count : Nat) :
    lowestBlocks addr sz (count + 1) = (addr + count * sz) :: lowestBlocks addr sz count := by
  simp [lowestBlocks, List.range_succ]

theorem mem_lowestBlocks : fl ∈ lowestBlocks addr sz count ↔
    ∃ i < count, fl = addr + i * sz := by
  simp [lowestBlocks, eq_comm]

/-- The lowest `i` blocks of a fresh page are linked, the last at `fla`, and
nothing outside the page has changed. -/
structure Threaded (h : KHeap) (addr sz count i fla : Nat) (h' : KHeap) : Prop where
  last : fla = addr + (i - 1) * sz
  same : h' = { h with mem := h'.mem }
  links : Links (freeNext h'.mem) (some fla) (lowestBlocks addr sz i) none
  outside : ∀ w, w < addr ∨ addr + count * sz ≤ w → h'.mem w = h.mem w

/-- The loop over a fresh page links each block to the one below it. -/
theorem threadBlocks_spec (haddr : 0 < addr) (hsz : 0 < sz) (hcount : 1 ≤ count) :
    Prog.Returns (threadBlocks addr sz count) (Threaded h addr sz count count) h := by
  obtain ⟨n, rfl⟩ : ∃ n, count = 1 + n := ⟨count - 1, by omega⟩
  simp only [threadBlocks, ↓Prog.wp_bind, ↓Prog.wp_modify, Nat.add_sub_cancel_left]
  refine Prog.wp_forFrom (Threaded h addr sz (1 + n)) ?_ ?_
  · intro i fla h' hlow hhigh hthreaded
    obtain ⟨i, rfl⟩ : ∃ k, i = k + 1 := ⟨i - 1, by omega⟩
    have hlast : fla = addr + i * sz := by simpa using hthreaded.last
    have hstep : (i + 1) * sz = i * sz + sz := Nat.succ_mul i sz
    have hroom := Nat.mul_le_mul_right sz (show i + 2 ≤ 1 + n by omega)
    rw [Nat.succ_mul] at hroom
    simp only [↓Prog.wp_bind, ↓Prog.wp_modify, ↓Prog.wp_assert, ↓Prog.wp_pure,
      Nat.add_sub_cancel,
      if_pos (show addr + (i + 1) * sz ≠ addr + i * sz by omega)]
    refine ⟨rfl, ?_, ?_, ?_⟩
    · rw [hthreaded.same]
      rfl
    · rw [lowestBlocks_succ]
      refine ⟨rfl, ?_⟩
      have hnext : freeNext (h'.write (addr + (i + 1) * sz) (addr + i * sz)).mem
          (addr + (i + 1) * sz) = some fla := by
        simp [freeNext, KHeap.write, hlast]
        omega
      rw [hnext]
      refine hthreaded.links.congr ?_
      intro fl hfl
      obtain ⟨k, hk, rfl⟩ := mem_lowestBlocks.mp hfl
      have hle := Nat.mul_le_mul_right sz (show k ≤ i by omega)
      exact freeNext_congr (KHeap.write_of_ne _ (by omega) _)
    · intro w hw
      rw [KHeap.write_of_ne _ (by omega)]
      exact hthreaded.outside w hw
  · refine ⟨by simp, rfl, ?_, ?_⟩
    · simp [lowestBlocks, Links, freeNext, KHeap.write]
    · intro w hw
      have hroom := Nat.mul_le_mul_right sz (show 1 ≤ 1 + n by omega)
      exact KHeap.write_of_ne _ (by omega) _

theorem lowestBlocks_perm (addr t : Nat) :
    (lowestBlocks addr (sizes t) (PAGE_SIZE / sizes t)).Perm (blocksOf addr t) :=
  List.reverse_perm _

end Fresh

/-! Taking a pageref off a list. -/

section Unlink

variable {h h' : KHeap} {chain : Chain} {pr : Nat} {nodes : List Nat}

/-- The link fields of one list change, and only those of its members. -/
structure Relinked (chain : Chain) (nodes : List Nat) (h h' : KHeap) : Prop where
  same : h' = { h with
    pagerefs := h'.pagerefs, sizebases := h'.sizebases, allbase := h'.allbase }
  base : ∀ other, other ≠ chain → h'.base other = h.base other
  next : ∀ other pr, (other = .all ↔ chain ≠ .all) ∨ pr ∉ nodes →
    h'.next other pr = h.next other pr
  fields : ∀ pr, h'.pagerefs pr = { h.pagerefs pr with
    nextSamesize := h'.next (.samesize 0) pr, nextAll := h'.next .all pr }

/-- The slot of the link behind the nodes already seen. -/
def slotAfter (seen : List Nat) : Slot :=
  match seen.getLast? with
  | none => .base
  | some pr => .link pr

theorem KHeap.next_setNext (h : KHeap) (pr : Nat) (after : Option Nat) (chain : Chain) :
    (h.setNext pr after chain).next chain = Function.update (h.next chain) pr after := by
  funext other
  by_cases hother : other = pr
  · cases chain <;> simp [KHeap.setNext, KHeap.next, hother]
  · cases chain <;> simp [KHeap.setNext, KHeap.next, KHeap.setPageref, hother]

theorem KHeap.base_setNext (h : KHeap) (pr : Nat) (after : Option Nat)
    (chain other : Chain) : (h.setNext pr after chain).base other = h.base other := by
  cases chain <;> cases other <;> rfl

theorem KHeap.next_setBase (h : KHeap) (head : Option Nat) (chain other : Chain) :
    (h.setBase head chain).next other = h.next other := by
  funext pr
  cases chain <;> cases other <;> rfl

theorem KHeap.base_setBase (h : KHeap) (head : Option Nat) (chain : Chain) :
    (h.setBase head chain).base chain = head := by
  cases chain <;> simp [KHeap.setBase, KHeap.base]

theorem relinked_setBase (h : KHeap) (head : Option Nat) :
    Relinked chain nodes h (h.setBase head chain) := by
  refine ⟨by cases chain <;> rfl, ?_, ?_, ?_⟩
  · intro other hne
    cases chain with
    | samesize t =>
        cases other with
        | samesize t' =>
            exact Function.update_of_ne (fun heq => hne (by rw [heq])) _ _
        | all => rfl
    | all =>
        cases other with
        | samesize t' => rfl
        | all => exact absurd rfl hne
  · intro other pr _
    rw [KHeap.next_setBase]
  · intro pr
    cases chain <;> rfl

theorem relinked_setNext (h : KHeap) (after : Option Nat) (hpr : pr ∈ nodes) :
    Relinked chain nodes h (h.setNext pr after chain) := by
  refine ⟨by cases chain <;> rfl, fun other _ => h.base_setNext pr after chain other, ?_, ?_⟩
  · intro other node houtside
    by_cases hnode : node = pr
    · have hkind : other = .all ↔ chain ≠ .all := by
        rcases houtside with hkind | hout
        · exact hkind
        · exact absurd (hnode ▸ hpr) hout
      cases chain <;> cases other <;> simp_all [KHeap.setNext, KHeap.next]
    · cases chain <;> cases other <;>
        simp [KHeap.setNext, KHeap.next, KHeap.setPageref, hnode]
  · intro node
    by_cases hnode : node = pr
    · cases chain <;> simp [KHeap.setNext, KHeap.next, hnode]
    · cases chain <;> simp [KHeap.setNext, KHeap.next, KHeap.setPageref, hnode]

theorem slot_eq_head (hlinks : Links (h.next chain) (h.base chain) (seen ++ rest) none) :
    h.slot chain (slotAfter seen) = rest.head? := by
  obtain ⟨middle, hseen, hrest⟩ := links_append.mp hlinks
  rw [← hrest.head_eq]
  rcases List.eq_nil_or_concat seen with rfl | ⟨before, last, rfl⟩
  · exact hseen
  · rw [List.concat_eq_append] at hseen ⊢
    obtain ⟨_, -, -, hlast⟩ := links_append.mp hseen
    have hslot : slotAfter (before ++ [last]) = .link last := by simp [slotAfter]
    rw [hslot]
    exact hlast

/-- One node is left out of the chain. -/
theorem links_setSlot
    (hlinks : Links (h.next chain) (h.base chain) (seen ++ pr :: rest) none) :
    Links ((h.setSlot chain (h.next chain pr) (slotAfter seen)).next chain)
      ((h.setSlot chain (h.next chain pr) (slotAfter seen)).base chain)
      (seen ++ rest) none := by
  have hnodup := hlinks.nodup
  obtain ⟨middle, hseen, -, hrest⟩ := links_append.mp hlinks
  rcases List.eq_nil_or_concat seen with rfl | ⟨before, last, rfl⟩
  · simp only [slotAfter, List.getLast?_nil, KHeap.setSlot, KHeap.next_setBase,
      KHeap.base_setBase, List.nil_append]
    exact hrest
  · rw [List.concat_eq_append] at hseen hnodup ⊢
    have hslot : slotAfter (before ++ [last]) = .link last := by simp [slotAfter]
    rw [hslot]
    simp only [KHeap.setSlot, KHeap.next_setNext, KHeap.base_setNext]
    have hfresh : last ∉ before ∧ last ∉ rest := by
      rw [List.append_assoc, List.singleton_append] at hnodup
      have hnotMem := (List.nodup_middle.mp hnodup).notMem
      simp only [List.mem_append, List.mem_cons, not_or] at hnotMem
      exact ⟨hnotMem.1, hnotMem.2.2⟩
    refine links_append.mpr ⟨_, hseen.redirect hfresh.1 _, ?_⟩
    exact hrest.congr (fun other hmem =>
      Function.update_of_ne (ne_of_mem_of_not_mem hmem hfresh.2) _ _)

theorem unlink_spec (hlinks : Links (h.next chain) (h.base chain) (seen ++ rest) none)
    (hpr : pr ∈ rest) (hturns : rest.length < turns) :
    Prog.Returns (unlink chain pr turns (slotAfter seen)) (fun _ h' =>
      Relinked chain (seen ++ rest) h h' ∧
        Links (h'.next chain) (h'.base chain) (seen ++ rest.erase pr) none) h := by
  induction turns generalizing seen rest with
  | zero => omega
  | succ turns ih =>
      have hslot := slot_eq_head hlinks
      cases rest with
      | nil => simp at hpr
      | cons found rest =>
          simp only [unlink, ↓Prog.wp_bind, ↓Prog.wp_get, hslot, List.head?_cons,
            ↓Prog.wp_ite, ↓Prog.wp_modify]
          split
          case isTrue heq =>
              subst heq
              rw [List.erase_cons_head]
              refine ⟨?_, links_setSlot hlinks⟩
              unfold slotAfter
              split
              · exact relinked_setBase h _
              · exact relinked_setNext h _
                  (List.mem_append_left _ (List.mem_of_getLast? ‹_›))
          case isFalse hne =>
              have hslot' : slotAfter (seen ++ [found]) = .link found := by
                simp [slotAfter]
              have hnext := @ih (seen ++ [found]) rest (by simpa using hlinks)
                (by simpa [Ne.symm hne] using hpr) (by simpa using hturns)
              rw [hslot'] at hnext
              simpa [List.erase_cons_tail, hne] using hnext

end Unlink

end OS161.Kheap
