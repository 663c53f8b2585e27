import OS161.VM.CopyPages

namespace OS161.VM.Machine

open OS161.Data
open OS161.Kern
open OS161.Lib

/-! `as_prepare_load` for any two regions, whatever comes of it. -/

variable {m m₁ m₂ : Machine} {a : AsId} {start frames frame temp i n : Nat}
variable {taken taken' pages : List Nat} {r : LoadRegion} {table : Nat → Int}

/-! Frames that were taken. -/

theorem Grown.trans (hfirst : Grown a taken m m₁) (hsecond : Grown a taken' m₁ m₂) :
    Grown a (taken ++ taken') m m₂ where
  tVmspace := hsecond.tVmspace.trans hfirst.tVmspace
  pid := hsecond.pid.trans hfirst.pid
  memStart := hsecond.memStart.trans hfirst.memStart
  maxPageNum := hsecond.maxPageNum.trans hfirst.maxPageNum
  nbits := hsecond.nbits.trans hfirst.nbits
  isset i := by
    rw [hsecond.isset, hfirst.isset, Bool.or_assoc, ← Bool.decide_or]
    simp only [List.mem_append]
  nodup := by
    rw [List.nodup_append]
    refine ⟨hfirst.nodup, hsecond.nodup, ?_⟩
    intro f hf f' hf' heq
    have hclear := (mem_freeSet.mp (hsecond.free f' hf')).2
    rw [hfirst.isset, ← heq, decide_eq_true hf, Bool.or_true] at hclear
    cases hclear
  free f hf := by
    cases List.mem_append.mp hf with
    | inl hold => exact hfirst.free f hold
    | inr hnew =>
        obtain ⟨hlt, hclear⟩ := mem_freeSet.mp (hsecond.free f hnew)
        rw [hfirst.nbits] at hlt
        rw [hfirst.isset, Bool.or_eq_false_iff] at hclear
        exact mem_freeSet.mpr ⟨hlt, hclear.1⟩
  others b hb := (hsecond.others b hb).trans (hfirst.others b hb)
  pa i := (hsecond.pa i).trans (hfirst.pa i)
  ram x hx := by
    have hafter : ∀ f ∈ taken', ¬ InPage (m₁.coremap f).pa x := by
      intro f hf
      rw [hfirst.pa]
      exact hx f (List.mem_append_right _ hf)
    rw [hsecond.ram x hafter]
    exact hfirst.ram x (fun f hf => hx f (List.mem_append_left _ hf))

theorem Grown.refl (a : AsId) (m : Machine) : Grown a [] m m where
  tVmspace := rfl
  pid := rfl
  memStart := rfl
  maxPageNum := rfl
  nbits := rfl
  isset i := by simp
  nodup := List.nodup_nil
  free := by simp
  others _ _ := rfl
  pa _ := rfl
  ram _ _ := rfl

theorem Grown.unseen (hgrown : Grown a taken m m₁) (hunseen : Unseen m₁ m₂) :
    Grown a taken m m₂ where
  tVmspace := hunseen.tVmspace.trans hgrown.tVmspace
  pid := hunseen.pid.trans hgrown.pid
  memStart := hunseen.memStart.trans hgrown.memStart
  maxPageNum := hunseen.maxPageNum.trans hgrown.maxPageNum
  nbits := by rw [hunseen.gblBmp, hgrown.nbits]
  isset i := by rw [hunseen.gblBmp, hgrown.isset]
  nodup := hgrown.nodup
  free := hgrown.free
  others b hb := by rw [hunseen.addrspace, hgrown.others b hb]
  pa i := (hunseen.pa i).trans (hgrown.pa i)
  ram x hx := by rw [hunseen.ram, hgrown.ram x hx]

theorem Grown.withAddrspace (hgrown : Grown a taken m m₁) (as : Addrspace) :
    Grown a taken m (m₁.withAddrspace a as) := by
  refine { hgrown with others := ?_ }
  intro b hb
  simp only [Machine.withAddrspace, Function.update_of_ne hb]
  exact hgrown.others b hb

theorem Grown.write (hgrown : Grown a taken m m₁) (hframe : frame ∈ taken) {ram : Nat → Byte}
    (hram : ∀ x, ¬ InPage (m.coremap frame).pa x → ram x = m₁.ram x) :
    Grown a taken m (m₁.withRam ram) :=
  { hgrown with ram := fun x hx => (hram x (hx frame hframe)).trans (hgrown.ram x hx) }

theorem grown_took (a : AsId) (hlowest : m.gblBmp.Lowest frame) (hlt : frame < m.gblBmp.nbits) :
    Grown a [frame] m (m.took frame) where
  tVmspace := rfl
  pid := rfl
  memStart := rfl
  maxPageNum := rfl
  nbits := rfl
  isset i := by
    rw [took, Bitmap.isset_mark]
    simp
  nodup := List.nodup_singleton frame
  free f hf := by
    rw [List.mem_singleton.mp hf, mem_freeSet]
    exact ⟨hlt, hlowest.clear⟩
  others _ _ := rfl
  pa := (reframed_took m frame).pa
  ram _ _ := rfl

theorem FrameRoom.grown (hroom : FrameRoom start frames m) (hgrown : Grown a taken m m₁) :
    FrameRoom start frames m₁ :=
  ⟨hgrown.framed hroom.framed, hroom.pos, hroom.aligned, hroom.room⟩

/-- `get_singlepage` takes a frame if there is one. -/
theorem FrameRoom.take (hroom : FrameRoom start frames m) (a : AsId)
    {post : Nat × Nat → Machine → Prop} {fails : Errno → Machine → Prop} {bad : Fault → Prop}
    (hfull : m.freeFrames = 0 → post (0, 0) m ∧ bad .bitmapAllocRange)
    (htook : ∀ temp f, temp ≠ 0 → temp = (m.coremap f).pa →
      Taken start frames temp f (m.took f) → Grown a [f] m (m.took f) →
      post (temp, f) (m.took f)) :
    Prog.wp getSinglepage post fails bad m := by
  by_cases hfree : 0 < m.freeFrames
  · apply getSinglepage_free hroom.framed hroom.pos hfree
    intro temp f hne hlowest hlt htaken
    have htemp : temp = (m.coremap f).pa := by
      rw [htaken.temp, hroom.framed.pa f htaken.ge htaken.lt]
    exact htook temp f hne htemp htaken (grown_took a hlowest hlt)
  · obtain ⟨hpost, hbad⟩ := hfull (by omega)
    apply getSinglepage_wp hbad (fun _ => hpost)
    intro f hlowest hlt
    have hmem : f ∈ m.freeSet := mem_freeSet.mpr ⟨hlt, hlowest.clear⟩
    exact absurd (Finset.card_pos.mpr ⟨f, hmem⟩) hfree

/-! One page. -/

/-- What the loop leaves at place `o` of page `i` of the region, where it writes that place. -/
def LoadRegion.image (r : LoadRegion) (i o : Nat) : Option Byte :=
  if r.reads = true then pageImage r.vnode (r.pageRange i).1 PAGE_SIZE (r.pageRange i).2 o
  else none

/-- The frame has been entered for page `i` of the region. -/
structure PageEntered (a : AsId) (r : LoadRegion) (i frame : Nat) (m m₁ : Machine) : Prop extends
    Grown a [frame] m m₁ where
  kmallocWords : m₁.kmallocWords = m.kmallocWords
  layout : SameLayout (m.addrspace a) (m₁.addrspace a)
  firstpt : (m₁.addrspace a).firstpt = Function.update (m.addrspace a).firstpt (topten r.vbase)
    (((m.addrspace a).firstpt (topten r.vbase)).map fun table =>
      Function.update table (btmten r.vbase + i) ((frame : Int) * 2))
  range : btmten r.vbase + i < 1024

/-- The page has its contents, too. -/
structure PageLoaded (a : AsId) (r : LoadRegion) (i frame : Nat) (m m₁ : Machine) : Prop extends
    PageEntered a r i frame m m₁ where
  image : ∀ o < PAGE_SIZE, m₁.ram ((m.coremap frame).pa + o) =
    (r.image i o).getD (m.ram ((m.coremap frame).pa + o))

theorem writeTable_wp {post : Unit → Machine → Prop} {fails : Errno → Machine → Prop}
    {bad : Fault → Prop} {top j : Nat} (htable : (m.addrspace a).firstpt top = some table)
    (entry : Int) (hbad : 1024 ≤ j → bad .tableRange)
    (hpost : j < 1024 → post () (m.withAddrspace a
      (Addrspace.writeFirstpt (m.addrspace a) top (Function.update table j entry)))) :
    Prog.wp (writeTable a top j entry) post fails bad m := by
  simp only [writeTable, setAddrspace, ↓Prog.wp_bind, ↓Prog.wp_get, htable, ↓Prog.wp_assert,
    ↓Prog.wp_modify]
  split
  case isTrue hlt => exact hpost hlt
  case isFalse hge => exact hbad (by omega)

theorem PageEntered.unseen (hentered : PageEntered a r i frame m m₁) (hunseen : Unseen m₁ m₂)
    (hwords : m₂.kmallocWords = m₁.kmallocWords) : PageEntered a r i frame m m₂ := by
  refine ⟨hentered.toGrown.unseen hunseen, hwords.trans hentered.kmallocWords, ?_, ?_,
    hentered.range⟩
  · rw [hunseen.addrspace]
    exact hentered.layout
  · rw [hunseen.addrspace]
    exact hentered.firstpt

theorem PageEntered.setPbase (hentered : PageEntered a r i frame m m₁) (hpbase : r.SetsPbase)
    (pa : Nat) :
    PageEntered a r i frame m (m₁.withAddrspace a (r.setPbase pa (m₁.addrspace a))) := by
  refine ⟨hentered.toGrown.withAddrspace _, hentered.kmallocWords, ?_, ?_, hentered.range⟩
  · simp only [Machine.withAddrspace, Function.update_self]
    exact hentered.layout.trans (hpbase.layout pa _)
  · simp only [Machine.withAddrspace, Function.update_self, hpbase.firstpt]
    exact hentered.firstpt

/-- The entry is written into the table. -/
theorem Grown.enter (hgrown : Grown a [frame] m m₁)
    (hwords : m₁.kmallocWords = m.kmallocWords) (haddrspace : m₁.addrspace = m.addrspace)
    (htable : (m.addrspace a).firstpt (topten r.vbase) = some table)
    (hrange : btmten r.vbase + i < 1024) :
    PageEntered a r i frame m (m₁.withAddrspace a (Addrspace.writeFirstpt (m₁.addrspace a)
      (topten r.vbase) (Function.update table (btmten r.vbase + i) ((frame : Int) * 2)))) := by
  refine ⟨hgrown.withAddrspace _, hwords, ?_, ?_, hrange⟩
  · simp only [Machine.withAddrspace, Function.update_self, haddrspace]
    exact ⟨rfl, rfl, rfl, rfl, rfl, rfl, rfl, rfl, rfl, rfl, rfl, rfl⟩
  · simp only [Machine.withAddrspace, Function.update_self, haddrspace, Addrspace.writeFirstpt,
      htable, Option.map_some]

theorem overlay_at {v : Vnode} {ram : Nat → Byte} (pa o : Nat) :
    overlay ram pa (pageImage v offset PAGE_SIZE filesize) (pa + o) =
      (pageImage v offset PAGE_SIZE filesize o).getD (ram (pa + o)) := by
  rw [overlay, if_pos (Nat.le_add_right pa o), Nat.add_sub_cancel_left]

/-- The page is read into its frame, if the executable gives it. -/
theorem PageEntered.read (hentered : PageEntered a r i frame m m₁) (hram : m₁.ram = m.ram)
    (htemp : temp = (m.coremap frame).pa) :
    Prog.wp (Prog.when (r.reads = true)
        (pageRead r.vnode (r.pageRange i).1 temp PAGE_SIZE (r.pageRange i).2))
      (fun _ m₂ => PageLoaded a r i frame m m₂)
      (fun _ _ => r.reads = true ∧ ¬ Reads r.vnode (r.pageRange i)) (fun _ => False) m₁ := by
  rw [Prog.wp_when]
  split
  case isFalse hskip =>
      refine ⟨hentered, fun o _ => ?_⟩
      rw [LoadRegion.image, if_neg hskip, hram]
      rfl
  case isTrue hread =>
      have hdone : ∀ m₂, m₂ = m₁.withRam (overlay m₁.ram temp
          (pageImage r.vnode (r.pageRange i).1 PAGE_SIZE (r.pageRange i).2)) →
          PageLoaded a r i frame m m₂ := by
        rintro m₂ rfl
        refine ⟨⟨hentered.toGrown.write (List.mem_singleton_self frame) ?_, hentered.kmallocWords,
          hentered.layout, hentered.firstpt, hentered.range⟩, fun o _ => ?_⟩
        · intro x hx
          rw [← htemp] at hx
          exact overlay_outside hx
        · rw [LoadRegion.image, if_pos hread, ← htemp, ← hram]
          exact overlay_at temp o
      by_cases hreads : Reads r.vnode (r.pageRange i)
      · exact Prog.wp_mono (pageRead_returns hreads m₁ temp) (fun _ m₂ hm₂ => hdone m₂ hm₂)
          (fun _ _ hfails => hfails.elim) (fun _ hbad => hbad)
      · exact Prog.wp_mono (pageRead_wp m₁ _ _ _ _ _) (fun _ m₂ hm₂ => hdone m₂ hm₂)
          (fun _ _ _ => ⟨hread, hreads⟩) (fun _ hbad => hbad)

/-- Why a page may not be loaded: there is no frame for it, or its entry would be outside the
table. -/
def PageFault (r : LoadRegion) (i : Nat) (m : Machine) (reason : Fault) : Prop :=
  if reason = .tableRange then 1024 ≤ btmten r.vbase + i else m.freeFrames = 0

theorem loadRegionPage_wp (hroom : FrameRoom start frames m) (hpbase : r.SetsPbase)
    (htable : (m.addrspace a).firstpt (topten r.vbase) = some table) (index : Nat) :
    Prog.wp (loadRegionPage a r i index) (fun _ m' => ∃ f, PageLoaded a r i f m m')
      (fun _ _ => m.freeFrames = 0 ∨ r.reads = true ∧ ¬ Reads r.vnode (r.pageRange i))
      (PageFault r i m) m := by
  have hfault : 1024 ≤ btmten r.vbase + i → PageFault r i m .tableRange := by
    intro hrange
    rw [PageFault, if_pos rfl]
    exact hrange
  simp only [loadRegionPage, ↓Prog.wp_bind]
  apply hroom.take a
  · intro hnone
    have hother : ∀ reason, reason ≠ .tableRange → PageFault r i m reason := by
      intro reason hreason
      rw [PageFault, if_neg hreason]
      exact hnone
    refine ⟨?_, hother _ (by decide)⟩
    rw [if_pos ⟨rfl, rfl⟩]
    refine Prog.wp_mono (@Prog.wp_when_of _ _ _ _ _ _ (fun _ m₁ => m₁.addrspace = m.addrspace)
      _ _ _ ?_ rfl) ?_ (fun _ _ hfails => hfails) (fun _ hbad => hbad)
    · intro _
      simp only [setCoremap, ↓Prog.wp_bind, ↓Prog.wp_get, ↓Prog.wp_assert, ↓Prog.wp_modify]
      split
      case isTrue => trivial
      case isFalse => exact hother _ (by decide)
    · intro _ m₁ haddrspace
      rw [← haddrspace] at htable
      refine writeTable_wp htable _ hfault (fun _ => ?_)
      rw [Prog.wp_when, if_pos rfl]
      exact Or.inl hnone
  · intro temp f hne htemp htaken hgrown
    rw [if_neg (fun hzero => hne hzero.1)]
    refine Prog.wp_mono (@Prog.wp_when_of _ _ _ _ _ _ (fun _ m₁ => Unseen (m.took f) m₁ ∧
      m₁.kmallocWords = m.kmallocWords) _ _ _ ?_ ⟨Unseen.refl _, rfl⟩) ?_
      (fun _ _ hfails => hfails) (fun _ hbad => hbad)
    · intro _
      have hlt : f < (m.took f).maxPageNum := by
        rw [hgrown.maxPageNum, hroom.framed.maxPageNum]
        exact htaken.lt
      simp only [setCoremap, ↓Prog.wp_bind, ↓Prog.wp_get, ↓Prog.wp_assert, if_pos hlt,
        ↓Prog.wp_modify]
      exact ⟨unseen_counted (m.took f) f r.npages, rfl⟩
    · intro _ m₁ ⟨hunseen, hwords⟩
      have haddrspace : m₁.addrspace = m.addrspace := hunseen.addrspace
      have hram : m₁.ram = m.ram := hunseen.ram
      have htable₁ : (m₁.addrspace a).firstpt (topten r.vbase) = some table := by
        rw [haddrspace]
        exact htable
      refine writeTable_wp htable₁ _ hfault (fun hrange => ?_)
      have hentered := (hgrown.unseen hunseen).enter hwords haddrspace htable hrange
      obtain ⟨hge, hlt, htemp', hmarked⟩ := hunseen.keepsTaken htaken
      have htaken₁ : Taken start frames temp f (m₁.withAddrspace a (Addrspace.writeFirstpt
          (m₁.addrspace a) (topten r.vbase)
          (Function.update table (btmten r.vbase + i) ((f : Int) * 2)))) :=
        ⟨hge, hlt, htemp', hmarked⟩
      have hram₁ : (m₁.withAddrspace a (Addrspace.writeFirstpt (m₁.addrspace a) (topten r.vbase)
          (Function.update table (btmten r.vbase + i) ((f : Int) * 2)))).ram = m.ram := hram
      rw [Prog.wp_when, if_neg hne]
      generalize m₁.withAddrspace a (Addrspace.writeFirstpt (m₁.addrspace a) (topten r.vbase)
          (Function.update table (btmten r.vbase + i) ((f : Int) * 2))) = m₂ at hentered htaken₁ hram₁
      have hpa : temp = (m₂.coremap f).pa := by
        rw [htemp, hentered.pa]
      rw [htaken₁.ptInsert hroom.wraps (hentered.framed hroom.framed)]
      have hinserted := hentered.unseen
        (unseen_inserted ((r.vbase + i * PAGE_SIZE) % 2 ^ 32) hpa) rfl
      have hram₂ : (m₂.inserted f ((r.vbase + i * PAGE_SIZE) % 2 ^ 32) temp).ram = m.ram := hram₁
      generalize m₂.inserted f ((r.vbase + i * PAGE_SIZE) % 2 ^ 32) temp = m₃ at hinserted hram₂ ⊢
      refine Prog.wp_mono (@Prog.wp_when_of _ _ _ _ _ _ (fun _ m₄ => PageEntered a r i f m m₄ ∧
        m₄.ram = m.ram) _ _ _ ?_ ⟨hinserted, hram₂⟩) ?_ (fun _ _ hfails => hfails)
        (fun _ hbad => hbad)
      · intro _
        exact ⟨hinserted.setPbase hpbase temp, hram₂⟩
      · intro _ m₄ ⟨hentered₄, hram₄⟩
        exact Prog.wp_mono (hentered₄.read hram₄ htemp) (fun _ m₅ hm₅ => ⟨f, hm₅⟩)
          (fun _ _ hfails => Or.inr hfails) (fun _ hbad => hbad.elim)

/-! A region. -/

/-- The first pages of the region have frames, in a table that `kmalloc` gave in the frame `g`
with the words of its call `n`. -/
structure RegionLoaded (a : AsId) (r : LoadRegion) (n g : Nat) (pages : List Nat)
    (table : Nat → Int) (m m₁ : Machine) : Prop extends Grown a (g :: pages) m m₁ where
  kmallocWords : m₁.kmallocWords = m.kmallocWords
  layout : SameLayout (m.addrspace a) (m₁.addrspace a)
  firstpt : (m₁.addrspace a).firstpt =
    Function.update (m.addrspace a).firstpt (topten r.vbase) (some table)
  entry : ∀ j (f : Nat), pages[j]? = some f → table (btmten r.vbase + j) = (f : Int) * 2
  rest : ∀ k, (∀ j < pages.length, k ≠ btmten r.vbase + j) → table k = m.kmallocWords n k
  image : ∀ j (f : Nat), pages[j]? = some f → ∀ o < PAGE_SIZE,
    m₁.ram ((m.coremap f).pa + o) = (r.image j o).getD (m.ram ((m.coremap f).pa + o))
  range : ∀ j < pages.length, btmten r.vbase + j < 1024

/-- A table from `kmalloc`, with whatever words were left in it. -/
structure TableGiven (a : AsId) (n g : Nat) (table : Nat → Int) (m m₁ : Machine) : Prop extends
    Grown a [g] m m₁ where
  words : table = m.kmallocWords n
  kmallocWords : m₁.kmallocWords = m.kmallocWords
  addrspace : m₁.addrspace = m.addrspace

theorem kmallocTable_wp (hroom : FrameRoom start frames m) (a : AsId) :
    Prog.wp kmallocTable (fun table m' => ∃ g, TableGiven a m.kmallocs g table m m')
      (fun _ _ => False) (fun reason => reason ≠ .tableRange ∧ m.freeFrames = 0) m := by
  simp only [kmallocTable, setCoremap, ↓Prog.wp_bind]
  apply hroom.take a
  · intro hnone
    simp only [↓Prog.wp_assert]
    rw [if_neg (by decide)]
    exact ⟨⟨by decide, hnone⟩, by decide, hnone⟩
  · intro temp f hne htemp htaken hgrown
    simp only [↓Prog.wp_assert, if_pos hne, ↓Prog.wp_modify]
    have hunseen := unseen_counted (m.took f) f 1
    have hgrown₁ := hgrown.unseen hunseen
    have hpa : temp = (((m.took f).counted f 1).coremap f).pa := by
      rw [htemp, hgrown₁.pa]
    have htaken₁ := hunseen.keepsTaken htaken
    show Prog.wp (ptInsert _ _) _ _ _ ((m.took f).counted f 1)
    rw [htaken₁.ptInsert hroom.wraps (hgrown₁.framed hroom.framed)]
    simp only [↓Prog.wp_get, ↓Prog.wp_pure]
    have hgrown₂ := hgrown₁.unseen (unseen_inserted (temp + KSEG0) hpa)
    exact ⟨f, hgrown₂.unseen ⟨rfl, rfl, rfl, rfl, rfl, rfl, fun _ => rfl, rfl, rfl, rfl⟩,
      rfl, rfl, rfl⟩

theorem TableGiven.regionLoaded {g : Nat} (hgiven : TableGiven a n g table m m₁)
    (r : LoadRegion) :
    RegionLoaded a r n g [] table m (m₁.withAddrspace a
      (Addrspace.writeFirstpt (m₁.addrspace a) (topten r.vbase) table)) := by
  refine ⟨hgiven.toGrown.withAddrspace _, hgiven.kmallocWords, ?_, ?_, ?_, ?_, ?_, ?_⟩
  · simp only [withAddrspace, Function.update_self, hgiven.addrspace]
    exact ⟨rfl, rfl, rfl, rfl, rfl, rfl, rfl, rfl, rfl, rfl, rfl, rfl⟩
  · simp only [withAddrspace, Function.update_self, hgiven.addrspace, Addrspace.writeFirstpt]
  · simp
  · intro k _
    rw [hgiven.words]
  · simp
  · simp

theorem RegionLoaded.page {g : Nat} (hloaded : RegionLoaded a r n g pages table m m₁)
    (hroom : FrameRoom start frames m) (hpage : PageLoaded a r pages.length frame m₁ m₂) :
    RegionLoaded a r n g (pages ++ [frame])
      (Function.update table (btmten r.vbase + pages.length) ((frame : Int) * 2)) m m₂ := by
  have hgrown : Grown a (g :: pages ++ [frame]) m m₂ := hloaded.toGrown.trans hpage.toGrown
  have hcases : ∀ j f, (pages ++ [frame])[j]? = some f →
      j < pages.length ∧ pages[j]? = some f ∨ j = pages.length ∧ f = frame := by
    intro j f hj
    by_cases hlt : j < pages.length
    · rw [List.getElem?_append_left hlt] at hj
      exact Or.inl ⟨hlt, hj⟩
    · rw [List.getElem?_append_right (by omega)] at hj
      obtain ⟨hzero, hframe⟩ := List.getElem?_eq_some_iff.mp hj
      simp only [List.length_singleton] at hzero
      exact Or.inr ⟨by omega, by simpa using hframe.symm⟩
  refine ⟨hgrown, hpage.kmallocWords.trans hloaded.kmallocWords,
    hloaded.layout.trans hpage.layout, ?_, ?_, ?_, ?_, ?_⟩
  · rw [hpage.firstpt, hloaded.firstpt, Function.update_self, Function.update_idem]
    rfl
  · intro j f hj
    rcases hcases j f hj with ⟨hlt, hold⟩ | ⟨rfl, rfl⟩
    · rw [Function.update_of_ne (by omega)]
      exact hloaded.entry j f hold
    · rw [Function.update_self]
  · intro k hk
    rw [List.length_append, List.length_singleton] at hk
    rw [Function.update_of_ne (hk pages.length (by omega))]
    exact hloaded.rest k (fun j hj => hk j (by omega))
  · intro j f hj o ho
    rcases hcases j f hj with ⟨hlt, hold⟩ | ⟨rfl, rfl⟩
    · have hmem : f ∈ pages := List.mem_of_getElem? hold
      have hne : f ≠ frame := by
        intro heq
        rw [heq] at hmem
        exact List.disjoint_of_nodup_append hgrown.nodup (List.mem_cons_of_mem g hmem)
          (List.mem_singleton_self frame)
      have hf := hroom.free_range (hgrown.free f (by simp [hmem]))
      have hg := hroom.free_range (hgrown.free frame (by simp))
      have hapart : ∀ f' ∈ [frame], ¬ InPage (m₁.coremap f').pa ((m.coremap f).pa + o) := by
        intro f' hf'
        rw [List.mem_singleton.mp hf', hloaded.pa]
        exact hroom.apart hf hg hne ho
      rw [hpage.ram _ hapart]
      exact hloaded.image j f hold o ho
    · have hbefore : m₁.ram ((m.coremap f).pa + o) = m.ram ((m.coremap f).pa + o) := by
        apply hloaded.ram
        intro f' hf'
        have hf := hroom.free_range (hgrown.free f (by simp))
        have hg := hroom.free_range (hloaded.free f' hf')
        refine hroom.apart hf hg ?_ ho
        intro heq
        rw [heq] at hgrown
        exact List.disjoint_of_nodup_append hgrown.nodup hf' (List.mem_singleton_self f')
      have himage := hpage.image o ho
      rw [hloaded.pa, hbefore] at himage
      exact himage
  · intro j hj
    rw [List.length_append, List.length_singleton] at hj
    by_cases hlast : j = pages.length
    · rw [hlast]
      exact hpage.range
    · exact hloaded.range j (by omega)

/-- Why a region may not be loaded.  Its pages need no more frames than a table has entries,
and one for the table. -/
def RegionFault (r : LoadRegion) (m : Machine) (reason : Fault) : Prop :=
  if reason = .tableRange then 1024 < btmten r.vbase + r.npages else m.freeFrames ≤ 1025

/-- The executable does not give a page of the region. -/
def LoadRegion.Truncated (r : LoadRegion) : Prop :=
  r.reads = true ∧ ∃ i < r.npages, ¬ Reads r.vnode (r.pageRange i)

/-- All pages of the region have frames. -/
def AllLoaded (a : AsId) (r : LoadRegion) (m m' : Machine) : Prop :=
  ∃ n g pages table, pages.length = r.npages ∧ RegionLoaded a r n g pages table m m'

theorem loadRegion_wp (hroom : FrameRoom start frames m) (hpbase : r.SetsPbase) (index : Nat) :
    Prog.wp (loadRegion a r index) (fun _ m' => AllLoaded a r m m')
      (fun _ _ => m.freeFrames ≤ 1025 ∨ r.Truncated) (RegionFault r m) m := by
  simp only [loadRegion, setAddrspace, ↓Prog.wp_bind]
  refine Prog.wp_mono (kmallocTable_wp hroom a) ?_ (fun _ _ hfails => hfails.elim) ?_
  · rintro table m₁ ⟨g, hgiven⟩
    rw [Prog.wp_modify]
    have hstart := hgiven.regionLoaded r
    refine Prog.wp_mono (Prog.wp_forFrom (fun i _ m₂ => ∃ pages table,
      pages.length = i ∧ RegionLoaded a r m.kmallocs g pages table m m₂) ?_
      ⟨[], table, rfl, hstart⟩) ?_
      (fun _ _ hfails => hfails) (fun _ hbad => hbad)
    · rintro i index m₂ - hi ⟨pages, table₂, rfl, hloaded⟩
      have htable : (m₂.addrspace a).firstpt (topten r.vbase) = some table₂ := by
        rw [hloaded.firstpt, Function.update_self]
      have hcount : m.freeFrames ≤ m₂.freeFrames + pages.length + 1 := by
        have hfree := hloaded.freeFrames
        rw [List.length_cons] at hfree
        omega
      have hfit : pages.length ≤ 1024 := by
        by_contra hmany
        have hlast := hloaded.range 1024 (by omega)
        omega
      refine Prog.wp_mono (loadRegionPage_wp (hroom.grown hloaded.toGrown) hpbase htable index)
        ?_ ?_ ?_
      · rintro _ m₃ ⟨f, hpage⟩
        exact ⟨pages ++ [f], _, by simp, hloaded.page hroom hpage⟩
      · intro code m₃ hfails
        rcases hfails with hnone | ⟨hreads, htruncated⟩
        · left
          omega
        · exact Or.inr ⟨hreads, pages.length, by omega, htruncated⟩
      · intro reason hbad
        unfold PageFault at hbad
        unfold RegionFault
        split at hbad
        case isTrue hrange =>
            rw [if_pos hrange]
            omega
        case isFalse hother =>
            rw [if_neg hother]
            omega
    · rintro _ m₂ ⟨pages, table₂, hlength, hloaded⟩
      rw [Nat.zero_add] at hlength
      exact ⟨m.kmallocs, g, pages, table₂, hlength, hloaded⟩
  · rintro reason ⟨hother, hnone⟩
    unfold RegionFault
    rw [if_neg hother]
    omega

/-! Both regions. -/

/-- One region after the other. -/
def BothLoaded (a : AsId) (m m' : Machine) : Prop :=
  ∃ m₁, AllLoaded a (textRegion (m.addrspace a)) m m₁ ∧
    AllLoaded a (dataRegion (m.addrspace a)) m₁ m'

/-- The entries of the region fit into one table. -/
def LoadRegion.Fits (r : LoadRegion) : Prop := btmten r.vbase + r.npages ≤ 1024

/-- Frames enough for two full tables. -/
def Plenty (m : Machine) : Prop := 2050 < m.freeFrames

theorem RegionLoaded.fits {g : Nat} (hloaded : RegionLoaded a r n g pages table m m₁)
    (hlength : pages.length = r.npages) : r.Fits := by
  unfold LoadRegion.Fits
  by_cases hzero : r.npages = 0
  · have hbtm : btmten r.vbase < 1024 := by
      simp only [btmten]
      omega
    omega
  · have hlast := hloaded.range (r.npages - 1) (by omega)
    omega

theorem AllLoaded.fits (hall : AllLoaded a r m m₁) : r.Fits := by
  obtain ⟨n, g, pages, table, hlength, hloaded⟩ := hall
  exact hloaded.fits hlength

/-- Why two regions may not be loaded. -/
def LoadFault (as : Addrspace) (m : Machine) (reason : Fault) : Prop :=
  if reason = .tableRange then ¬ ((textRegion as).Fits ∧ (dataRegion as).Fits) else ¬ m.Plenty

theorem RegionFault.load (hfault : RegionFault r m₁ reason) {as : Addrspace}
    (hfew : m₁.freeFrames ≤ 1025 → ¬ m.Plenty)
    (hfits : ¬ r.Fits → ¬ ((textRegion as).Fits ∧ (dataRegion as).Fits)) :
    LoadFault as m reason := by
  unfold RegionFault at hfault
  unfold LoadFault
  split at hfault
  case isTrue hrange =>
      rw [if_pos hrange]
      refine hfits ?_
      unfold LoadRegion.Fits
      omega
  case isFalse hother =>
      rw [if_neg hother]
      exact hfew hfault

theorem asPrepareLoad_wp (hroom : FrameRoom start frames m) (a : AsId) (unset : Unset) :
    Prog.wp (asPrepareLoad a unset) (fun _ m' => BothLoaded a m m')
      (fun _ _ => ¬ m.Plenty ∨ (textRegion (m.addrspace a)).Truncated ∨
        (dataRegion (m.addrspace a)).Truncated)
      (LoadFault (m.addrspace a) m) m := by
  have hplenty : m.freeFrames ≤ 1025 → ¬ m.Plenty := by
    unfold Plenty
    omega
  simp only [asPrepareLoad, ↓Prog.wp_bind, ↓Prog.wp_get]
  refine Prog.wp_mono (loadRegion_wp hroom (textRegion_setsPbase _) unset.index) ?_ ?_ ?_
  · intro index m₁ htext
    have hfits := htext.fits
    have hroom₁ : FrameRoom start frames m₁ := by
      obtain ⟨_, _, _, _, _, hloaded⟩ := htext
      exact hroom.grown hloaded.toGrown
    have hplenty₁ : m₁.freeFrames ≤ 1025 → ¬ m.Plenty := by
      obtain ⟨_, _, pages, _, hlength, hloaded⟩ := htext
      have hfree := hloaded.freeFrames
      rw [List.length_cons] at hfree
      unfold LoadRegion.Fits at hfits
      unfold Plenty
      omega
    refine Prog.wp_mono (loadRegion_wp hroom₁ (dataRegion_setsPbase _) index) ?_ ?_ ?_
    · intro _ m₂ hdata
      exact ⟨m₁, htext, hdata⟩
    · intro code m₂ hfails
      rcases hfails with hfew | htruncated
      · exact Or.inl (hplenty₁ hfew)
      · exact Or.inr (Or.inr htruncated)
    · intro reason hbad
      exact hbad.load hplenty₁ (fun hnot hboth => hnot hboth.2)
  · intro code m₁ hfails
    rcases hfails with hfew | htruncated
    · exact Or.inl (hplenty hfew)
    · exact Or.inr (Or.inl htruncated)
  · intro reason hbad
    exact hbad.load hplenty (fun hnot hboth => hnot hboth.1)

end OS161.VM.Machine
