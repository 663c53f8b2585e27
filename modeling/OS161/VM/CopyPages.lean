import OS161.VM.AsCopy
import OS161.VM.TlbMisses

namespace OS161.VM.Machine

open OS161.Data
open OS161.Kern
open OS161.Lib

/-! What `as_copy` has done to the machine at each point: the frames it took, the
pages it gave them to, and the pages it has copied. -/

variable {m m₁ m₂ : Machine} {a old : AsId} {start frames : Nat}
variable {taken vas visited : List Nat} {as : Addrspace} {va frame : Nat}

/-- The byte lies in the page at `pa`. -/
def InPage (pa x : Nat) : Prop := pa ≤ x ∧ x < pa + PAGE_SIZE

/-- The frames in `taken` were free, and nothing else changed but the address
space `a`. -/
structure Grown (a : AsId) (taken : List Nat) (m m₁ : Machine) : Prop where
  tVmspace : m₁.tVmspace = m.tVmspace
  pid : m₁.pid = m.pid
  memStart : m₁.memStart = m.memStart
  maxPageNum : m₁.maxPageNum = m.maxPageNum
  nbits : m₁.gblBmp.nbits = m.gblBmp.nbits
  isset : ∀ i, m₁.gblBmp.bitmapIsset i = (m.gblBmp.bitmapIsset i || decide (i ∈ taken))
  nodup : taken.Nodup
  free : ∀ f ∈ taken, f ∈ m.freeSet
  others : ∀ b, b ≠ a → m₁.addrspace b = m.addrspace b
  pa : ∀ i, (m₁.coremap i).pa = (m.coremap i).pa
  ram : ∀ x, (∀ f ∈ taken, ¬ InPage (m.coremap f).pa x) → m₁.ram x = m.ram x

/-- The fields that one address space has from another. -/
structure SameLayout (as as' : Addrspace) : Prop where
  heaptop : as'.heaptop = as.heaptop
  heapbottom : as'.heapbottom = as.heapbottom
  asStackvbase : as'.asStackvbase = as.asStackvbase
  asVbase1 : as'.asVbase1 = as.asVbase1
  asNpages1 : as'.asNpages1 = as.asNpages1
  asVbase2 : as'.asVbase2 = as.asVbase2
  asNpages2 : as'.asNpages2 = as.asNpages2
  asVnode : as'.asVnode = as.asVnode
  offData : as'.offData = as.offData
  offText : as'.offText = as.offText
  filesizeText : as'.filesizeText = as.filesizeText
  filesizeData : as'.filesizeData = as.filesizeData

theorem SameLayout.refl (as : Addrspace) : SameLayout as as :=
  ⟨rfl, rfl, rfl, rfl, rfl, rfl, rfl, rfl, rfl, rfl, rfl, rfl⟩

theorem SameLayout.trans {as as' as'' : Addrspace} (hfirst : SameLayout as as')
    (hsecond : SameLayout as' as'') : SameLayout as as'' where
  heaptop := hsecond.heaptop.trans hfirst.heaptop
  heapbottom := hsecond.heapbottom.trans hfirst.heapbottom
  asStackvbase := hsecond.asStackvbase.trans hfirst.asStackvbase
  asVbase1 := hsecond.asVbase1.trans hfirst.asVbase1
  asNpages1 := hsecond.asNpages1.trans hfirst.asNpages1
  asVbase2 := hsecond.asVbase2.trans hfirst.asVbase2
  asNpages2 := hsecond.asNpages2.trans hfirst.asNpages2
  asVnode := hsecond.asVnode.trans hfirst.asVnode
  offData := hsecond.offData.trans hfirst.offData
  offText := hsecond.offText.trans hfirst.offText
  filesizeText := hsecond.filesizeText.trans hfirst.filesizeText
  filesizeData := hsecond.filesizeData.trans hfirst.filesizeData

/-- `vas` are the pages that have frames in `a`, and `visited` those of them that
were copied from `old`. -/
structure Copying (old a : AsId) (as : Addrspace) (taken vas visited : List Nat)
    (m m₁ : Machine) : Prop extends Grown a taken m m₁ where
  layout : SameLayout as (m₁.addrspace a)
  mapped : ∀ va ∈ vas, ∃ f ∈ taken, m₁.pte a va = some ((f : Int) * 2)
  own : ∀ va ∈ vas, ∀ va' ∈ vas, ∀ f : Nat, m₁.pte a va = some ((f : Int) * 2) →
    m₁.pte a va' = some ((f : Int) * 2) → va = va'
  copied : ∀ va ∈ visited, ∀ f : Nat, m₁.pte a va = some ((f : Int) * 2) →
    ∀ o < PAGE_SIZE, m₁.ram ((m.coremap f).pa + o) = m.ram (m.home old va + o)
  visited_mem : ∀ va ∈ visited, va ∈ vas
  tlb : m₁.tlb = (m.touchedAll old visited).tlb
  asid : m₁.asid = (m.touchedAll old visited).asid

theorem Grown.framed (hgrown : Grown a taken m m₁) (hframed : m.Framed start frames) :
    m₁.Framed start frames := by
  apply hframed.reframed
  refine ⟨hgrown.memStart, hgrown.maxPageNum, hgrown.nbits, ?_, hgrown.pa⟩
  intro i _ hset
  rw [hgrown.isset, hset, Bool.true_or]

theorem Grown.freeFrames (hgrown : Grown a taken m m₁) :
    m₁.freeFrames = m.freeFrames - taken.length := by
  have hset : m₁.freeSet = m.freeSet \ taken.toFinset := by
    ext i
    rw [Finset.mem_sdiff, mem_freeSet, mem_freeSet, hgrown.nbits, hgrown.isset,
      List.mem_toFinset, Bool.or_eq_false_iff, decide_eq_false_iff_not]
    tauto
  have hsub : taken.toFinset ⊆ m.freeSet := by
    intro i hi
    exact hgrown.free i (List.mem_toFinset.mp hi)
  rw [Machine.freeFrames, hset, Finset.card_sdiff_of_subset hsub,
    List.toFinset_card_of_nodup hgrown.nodup, Machine.freeFrames]

/-- A frame that was taken and given to no page. -/
def Spare (a : AsId) (vas : List Nat) (f : Nat) (m₁ : Machine) : Prop :=
  ∀ va ∈ vas, m₁.pte a va ≠ some ((f : Int) * 2)

theorem Copying.take (hcopying : Copying old a as taken vas visited m m₁)
    (hframed : m.Framed start frames) (hstart : 0 < start)
    (hfree : taken.length < m.freeFrames) {post : Nat × Nat → Machine → Prop}
    {fails : Errno → Machine → Prop} {bad : Fault → Prop}
    (htook : ∀ temp f, temp ≠ 0 → temp = (m.coremap f).pa →
      Taken start frames temp f (m₁.took f) →
      Copying old a as (taken ++ [f]) vas visited m (m₁.took f) →
      Spare a vas f (m₁.took f) → post (temp, f) (m₁.took f)) :
    Prog.wp getSinglepage post fails bad m₁ := by
  have hframed₁ := hcopying.framed hframed
  apply getSinglepage_free hframed₁ hstart
  · rw [hcopying.freeFrames]
    omega
  intro temp f hne hlowest hlt htaken
  have hclear := hlowest.clear
  rw [hcopying.isset, Bool.or_eq_false_iff, decide_eq_false_iff_not] at hclear
  have htemp : temp = (m.coremap f).pa := by
    rw [htaken.temp, hframed.pa f htaken.ge htaken.lt]
  refine htook temp f hne htemp htaken ?_ ?_
  · exact {
      tVmspace := hcopying.tVmspace
      pid := hcopying.pid
      memStart := hcopying.memStart
      maxPageNum := hcopying.maxPageNum
      nbits := hcopying.nbits
      isset := by
        intro i
        rw [took, Bitmap.isset_mark, hcopying.isset, Bool.or_assoc]
        simp
      nodup := by
        rw [List.nodup_append]
        refine ⟨hcopying.nodup, List.nodup_singleton f, ?_⟩
        intro x hx y hy heq
        rw [heq, List.mem_singleton.mp hy] at hx
        exact hclear.2 hx
      free := by
        intro g hg
        cases List.mem_append.mp hg with
        | inl hold => exact hcopying.free g hold
        | inr hnew =>
            rw [List.mem_singleton.mp hnew, mem_freeSet]
            rw [hcopying.nbits] at hlt
            exact ⟨hlt, hclear.1⟩
      others := hcopying.others
      pa := fun i => ((reframed_took m₁ f).pa i).trans (hcopying.pa i)
      ram := fun x hx => hcopying.ram x (fun g hg => hx g (List.mem_append_left _ hg))
      layout := hcopying.layout
      mapped := by
        intro va hva
        obtain ⟨g, hg, hpte⟩ := hcopying.mapped va hva
        exact ⟨g, List.mem_append_left _ hg, hpte⟩
      own := hcopying.own
      copied := hcopying.copied
      visited_mem := hcopying.visited_mem
      tlb := hcopying.tlb
      asid := hcopying.asid }
  · intro va hva hpte
    obtain ⟨g, hg, hpte'⟩ := hcopying.mapped va hva
    have hsame : some ((g : Int) * 2) = some ((f : Int) * 2) := hpte'.symm.trans hpte
    rw [Option.some.injEq] at hsame
    obtain rfl : g = f := by omega
    exact hclear.2 hg

/-- Changes of no account. -/
structure Unseen (m₁ m₂ : Machine) : Prop where
  tVmspace : m₂.tVmspace = m₁.tVmspace
  pid : m₂.pid = m₁.pid
  memStart : m₂.memStart = m₁.memStart
  maxPageNum : m₂.maxPageNum = m₁.maxPageNum
  gblBmp : m₂.gblBmp = m₁.gblBmp
  addrspace : m₂.addrspace = m₁.addrspace
  pa : ∀ i, (m₂.coremap i).pa = (m₁.coremap i).pa
  ram : m₂.ram = m₁.ram
  tlb : m₂.tlb = m₁.tlb
  asid : m₂.asid = m₁.asid

theorem Unseen.pte (hunseen : Unseen m₁ m₂) (a : AsId) (va : Nat) : m₂.pte a va = m₁.pte a va := by
  rw [Machine.pte, hunseen.addrspace, Machine.pte]

theorem Copying.unseen (hcopying : Copying old a as taken vas visited m m₁)
    (hunseen : Unseen m₁ m₂) : Copying old a as taken vas visited m m₂ where
  tVmspace := hunseen.tVmspace.trans hcopying.tVmspace
  pid := hunseen.pid.trans hcopying.pid
  memStart := hunseen.memStart.trans hcopying.memStart
  maxPageNum := hunseen.maxPageNum.trans hcopying.maxPageNum
  nbits := by rw [hunseen.gblBmp, hcopying.nbits]
  isset i := by rw [hunseen.gblBmp, hcopying.isset]
  nodup := hcopying.nodup
  free := hcopying.free
  others b hb := by rw [hunseen.addrspace, hcopying.others b hb]
  pa i := (hunseen.pa i).trans (hcopying.pa i)
  ram x hx := by rw [hunseen.ram, hcopying.ram x hx]
  layout := by
    rw [hunseen.addrspace]
    exact hcopying.layout
  mapped := by
    simp only [hunseen.pte]
    exact hcopying.mapped
  own := by
    simp only [hunseen.pte]
    exact hcopying.own
  copied := by
    simp only [hunseen.pte, hunseen.ram]
    exact hcopying.copied
  visited_mem := hcopying.visited_mem
  tlb := hunseen.tlb.trans hcopying.tlb
  asid := hunseen.asid.trans hcopying.asid

theorem Spare.unseen (hspare : Spare a vas frame m₁) (hunseen : Unseen m₁ m₂) :
    Spare a vas frame m₂ := by
  intro va hva
  rw [hunseen.pte]
  exact hspare va hva

/-- The machine after `npages` of a coremap entry was written. -/
def counted (m : Machine) (index npages : Nat) : Machine :=
  { m with
    coremap := Function.update m.coremap index { m.coremap index with npages := npages } }

theorem unseen_counted (m₁ : Machine) (index npages : Nat) :
    Unseen m₁ (m₁.counted index npages) :=
  ⟨rfl, rfl, rfl, rfl, rfl, rfl, pa_update rfl, rfl, rfl, rfl⟩

theorem unseen_inserted (vaddr : Nat) (hpa : temp = (m₁.coremap frame).pa) :
    Unseen m₁ (m₁.inserted frame vaddr temp) :=
  ⟨rfl, rfl, rfl, rfl, rfl, rfl, pa_update hpa, rfl, rfl, rfl⟩

/-- What the frames are like where `as_copy` starts. -/
structure FrameRoom (start frames : Nat) (m : Machine) : Prop where
  framed : m.Framed start frames
  pos : 0 < start
  aligned : start % PAGE_SIZE = 0
  room : start + frames * PAGE_SIZE ≤ KSEG0

theorem FrameRoom.wraps (hroom : FrameRoom start frames m) :
    start + frames * PAGE_SIZE ≤ 2 ^ 32 :=
  Nat.le_trans hroom.room (by decide)

/-- `pt_insert` for a frame that was just taken. -/
theorem Copying.ptInsert (hcopying : Copying old a as taken vas visited m m₁)
    (hroom : FrameRoom start frames m) (htaken : Taken start frames temp frame m₁) (vaddr : Nat)
    {post : Unit → Machine → Prop} {fails : Errno → Machine → Prop} {bad : Fault → Prop}
    (hpost : ∀ m₂, Unseen m₁ m₂ → Taken start frames temp frame m₂ → post () m₂) :
    Prog.wp (ptInsert vaddr temp) post fails bad m₁ := by
  have hframed₁ := hcopying.framed hroom.framed
  have hpa : temp = (m₁.coremap frame).pa := by
    rw [htaken.temp, hframed₁.pa frame htaken.ge htaken.lt]
  rw [htaken.ptInsert hroom.wraps hframed₁]
  exact hpost _ (unseen_inserted vaddr hpa) ⟨htaken.ge, htaken.lt, htaken.temp, htaken.marked⟩

theorem Copying.kmallocTable (hcopying : Copying old a as taken vas visited m m₁)
    (hroom : FrameRoom start frames m) (hfree : taken.length < m.freeFrames)
    {post : (Nat → Int) → Machine → Prop} {fails : Errno → Machine → Prop} {bad : Fault → Prop}
    (hpost : ∀ f table m₂, Copying old a as (taken ++ [f]) vas visited m m₂ → post table m₂) :
    Prog.wp kmallocTable post fails bad m₁ := by
  simp only [Machine.kmallocTable, setCoremap, ↓Prog.wp_bind]
  apply hcopying.take hroom.framed hroom.pos hfree
  intro temp f hne htemp htaken hcopying₁ _
  simp only [↓Prog.wp_assert, if_pos hne, ↓Prog.wp_modify]
  have hunseen := unseen_counted (m₁.took f) f 1
  apply (hcopying₁.unseen hunseen).ptInsert hroom
    ⟨htaken.ge, htaken.lt, htaken.temp, htaken.marked⟩
  intro m₂ hunseen₂ _
  simp only [↓Prog.wp_get, ↓Prog.wp_pure]
  apply hpost f
  exact ((hcopying₁.unseen hunseen).unseen hunseen₂).unseen
    ⟨rfl, rfl, rfl, rfl, rfl, rfl, fun _ => rfl, rfl, rfl, rfl⟩

theorem Copying.allocKpages (hcopying : Copying old a as taken vas visited m m₁)
    (hroom : FrameRoom start frames m) (hfree : taken.length < m.freeFrames) (unset : Unset)
    {post : Nat → Machine → Prop} {fails : Errno → Machine → Prop} {bad : Fault → Prop}
    (hpost : ∀ f page m₂, page ≠ 0 → Copying old a as (taken ++ [f]) vas visited m m₂ →
      post page m₂) :
    Prog.wp (allocKpages 1 unset) post fails bad m₁ := by
  simp only [Machine.allocKpages, getppages, setCoremap, ↓Prog.wp_bind, ↓Prog.wp_assert]
  rw [if_pos (by decide), if_pos trivial]
  simp only [↓Prog.wp_bind]
  apply hcopying.take hroom.framed hroom.pos hfree
  intro temp f hne htemp htaken hcopying₁ _
  have hunseen := unseen_counted (m₁.took f) f 1
  have hlt : f < (m₁.took f).maxPageNum := by
    rw [hcopying₁.maxPageNum, hroom.framed.maxPageNum]
    exact htaken.lt
  rw [if_neg (fun h => hne h.1)]
  simp only [↓Prog.wp_get, ↓Prog.wp_assert, if_pos hlt, ↓Prog.wp_modify, ↓Prog.wp_ite, if_neg hne,
    ↓Prog.wp_bind]
  apply (hcopying₁.unseen hunseen).ptInsert hroom
    ⟨htaken.ge, htaken.lt, htaken.temp, htaken.marked⟩
  intro m₂ hunseen₂ _
  have hpage : pageFrame temp = temp := by
    have haligned := hroom.aligned
    rw [htaken.temp]
    simp only [PAGE_SIZE] at haligned
    simp only [pageFrame, PAGE_SIZE]
    omega
  have hwindow : temp < KSEG0 := by
    have hfits := hroom.room
    have hframe := htaken.lt
    rw [htaken.temp]
    simp only [PAGE_SIZE] at hfits ⊢
    omega
  simp only [↓Prog.wp_pure, hpage, if_neg hne]
  apply hpost f
  · simp only [paddrToKvaddr, KSEG0] at hwindow ⊢
    omega
  · exact (hcopying₁.unseen hunseen).unseen hunseen₂

/-! The tables of the copy. -/

/-- The machine after an address space was changed. -/
def withAddrspace (m : Machine) (a : AsId) (as : Addrspace) : Machine :=
  { m with addrspace := Function.update m.addrspace a as }

theorem Copying.withAddrspace (hcopying : Copying old a as taken vas visited m m₁)
    {as' new : Addrspace} (hlayout : SameLayout as' new)
    (hentries : ∀ va ∈ vas,
      (new.firstpt (topten va)).map (fun table => table (btmten va)) = m₁.pte a va) :
    Copying old a as' taken vas visited m (m₁.withAddrspace a new) := by
  have hpte (va : Nat) (hva : va ∈ vas) : (m₁.withAddrspace a new).pte a va = m₁.pte a va := by
    rw [← hentries va hva, Machine.pte]
    simp only [Machine.withAddrspace, Function.update_self]
  refine { hcopying with layout := ?_, mapped := ?_, own := ?_, copied := ?_, others := ?_ }
  · intro b hb
    simp only [Machine.withAddrspace, Function.update_of_ne hb]
    exact hcopying.others b hb
  · simp only [Machine.withAddrspace, Function.update_self]
    exact hlayout
  · intro va hva
    rw [hpte va hva]
    exact hcopying.mapped va hva
  · intro va hva va' hva' f hf hf'
    rw [hpte va hva] at hf
    rw [hpte va' hva'] at hf'
    exact hcopying.own va hva va' hva' f hf hf'
  · intro va hva f hf
    rw [hpte va (hcopying.visited_mem va hva)] at hf
    exact hcopying.copied va hva f hf

/-- A new second-level table in a slot that no page is in. -/
theorem Copying.newTable (hcopying : Copying old a as taken vas visited m m₁)
    (hslot : ∀ va ∈ vas, topten va ≠ top) (table : Nat → Int) :
    Copying old a as taken vas visited m
      (m₁.withAddrspace a (Addrspace.writeFirstpt (m₁.addrspace a) top table)) := by
  apply hcopying.withAddrspace
  · exact hcopying.layout.trans ⟨rfl, rfl, rfl, rfl, rfl, rfl, rfl, rfl, rfl, rfl, rfl, rfl⟩
  · intro va hva
    simp only [Addrspace.writeFirstpt, Function.update_of_ne (hslot va hva)]
    rfl

theorem not_samePte (hne : va' ≠ va) (haligned : va % PAGE_SIZE = 0)
    (haligned' : va' % PAGE_SIZE = 0) : ¬ SamePte a va a va' := by
  intro hsame
  apply hne
  rw [← (pageFrame_of_samePte haligned' hsame).2, pageFrame_aligned haligned]

/-- A page gets a frame that no page has. -/
theorem Copying.place (hcopying : Copying old a as taken vas visited m m₁)
    (hframe : frame ∈ taken) (hspare : Spare a vas frame m₁) (hnew : va ∉ vas)
    (haligned : ∀ va' ∈ vas ++ [va], va' % PAGE_SIZE = 0) (htable : (m₁.pte a va).isSome) :
    Copying old a as taken (vas ++ [va]) visited m (m₁.setPte a va ((frame : Int) * 2)) := by
  have hself : (m₁.setPte a va ((frame : Int) * 2)).pte a va = some ((frame : Int) * 2) := by
    rw [pte_setPte, if_pos ⟨rfl, rfl, rfl⟩]
    obtain ⟨entry, hentry⟩ := Option.isSome_iff_exists.mp htable
    rw [hentry]
    rfl
  have hothers (va' : Nat) (hva' : va' ∈ vas) :
      (m₁.setPte a va ((frame : Int) * 2)).pte a va' = m₁.pte a va' := by
    rw [pte_setPte, if_neg]
    apply not_samePte
    · intro heq
      rw [heq] at hva'
      exact hnew hva'
    · exact haligned va (List.mem_append_right _ (List.mem_singleton_self va))
    · exact haligned va' (List.mem_append_left _ hva')
  refine { hcopying with
    layout := ?_, mapped := ?_, own := ?_, copied := ?_, visited_mem := ?_, others := ?_ }
  · intro b hb
    simp only [setPte, Function.update_of_ne hb]
    exact hcopying.others b hb
  · simp only [setPte, Function.update_self]
    exact hcopying.layout.trans ⟨rfl, rfl, rfl, rfl, rfl, rfl, rfl, rfl, rfl, rfl, rfl, rfl⟩
  · intro va' hva'
    cases List.mem_append.mp hva' with
    | inl hold =>
        rw [hothers va' hold]
        exact hcopying.mapped va' hold
    | inr hlast =>
        rw [List.mem_singleton.mp hlast, hself]
        exact ⟨frame, hframe, rfl⟩
  · intro va₁ hva₁ va₂ hva₂ f hf₁ hf₂
    cases List.mem_append.mp hva₁ with
    | inl hold₁ =>
        rw [hothers va₁ hold₁] at hf₁
        cases List.mem_append.mp hva₂ with
        | inl hold₂ =>
            rw [hothers va₂ hold₂] at hf₂
            exact hcopying.own va₁ hold₁ va₂ hold₂ f hf₁ hf₂
        | inr hlast₂ =>
            rw [List.mem_singleton.mp hlast₂, hself] at hf₂
            exact absurd (hf₁.trans hf₂.symm) (hspare va₁ hold₁)
    | inr hlast₁ =>
        rw [List.mem_singleton.mp hlast₁, hself] at hf₁
        cases List.mem_append.mp hva₂ with
        | inl hold₂ =>
            rw [hothers va₂ hold₂] at hf₂
            exact absurd (hf₂.trans hf₁.symm) (hspare va₂ hold₂)
        | inr hlast₂ => rw [List.mem_singleton.mp hlast₁, List.mem_singleton.mp hlast₂]
  · intro va' hva' f hf
    rw [hothers va' (hcopying.visited_mem va' hva')] at hf
    exact hcopying.copied va' hva' f hf
  · intro va' hva'
    exact List.mem_append_left _ (hcopying.visited_mem va' hva')

/-! Writing into the frames that were taken. -/

theorem FrameRoom.apart (hroom : FrameRoom start frames m) (hf : 3 ≤ f ∧ f < frames)
    (hg : 3 ≤ g ∧ g < frames) (hne : f ≠ g) (ho : o < PAGE_SIZE) :
    ¬ InPage (m.coremap g).pa ((m.coremap f).pa + o) := by
  rw [hroom.framed.pa f hf.1 hf.2, hroom.framed.pa g hg.1 hg.2, InPage]
  simp only [PAGE_SIZE] at ho ⊢
  omega

theorem FrameRoom.free_range (hroom : FrameRoom start frames m) (hfree : f ∈ m.freeSet) :
    3 ≤ f ∧ f < frames := by
  obtain ⟨hlt, hclear⟩ := mem_freeSet.mp hfree
  rw [hroom.framed.bits] at hlt
  refine ⟨?_, hlt⟩
  by_contra hlow
  rw [hroom.framed.reserved f (by omega)] at hclear
  cases hclear

theorem Copying.frame_mem (hcopying : Copying old a as taken vas visited m m₁) (hva : va ∈ vas)
    (hpte : m₁.pte a va = some ((frame : Int) * 2)) : frame ∈ taken := by
  obtain ⟨f, hf, hpte'⟩ := hcopying.mapped va hva
  rw [hpte, Option.some.injEq] at hpte'
  obtain rfl : frame = f := by omega
  exact hf

theorem Copying.write (hcopying : Copying old a as taken vas visited m m₁)
    (hroom : FrameRoom start frames m) (hframe : frame ∈ taken)
    (hspare : Spare a visited frame m₁) {ram : Nat → Byte}
    (hram : ∀ x, ¬ InPage (m.coremap frame).pa x → ram x = m₁.ram x) :
    Copying old a as taken vas visited m (m₁.withRam ram) := by
  refine { hcopying with
    ram := ?_, mapped := hcopying.mapped, own := hcopying.own, copied := ?_ }
  · intro x hx
    exact (hram x (hx frame hframe)).trans (hcopying.ram x hx)
  · intro va hva f hf o ho
    have hmem := hcopying.frame_mem (hcopying.visited_mem va hva) hf
    have hne : f ≠ frame := by
      rintro rfl
      exact hspare va hva hf
    have hapart := hroom.apart (hroom.free_range (hcopying.free f hmem))
      (hroom.free_range (hcopying.free frame hframe)) hne ho
    exact (hram _ hapart).trans (hcopying.copied va hva f hf o ho)

/-! `as_prepare_load`. -/

theorem Unseen.refl (m₁ : Machine) : Unseen m₁ m₁ :=
  ⟨rfl, rfl, rfl, rfl, rfl, rfl, fun _ => rfl, rfl, rfl, rfl⟩

theorem Unseen.keepsTaken (hunseen : Unseen m₁ m₂) (htaken : Taken start frames temp frame m₁) :
    Taken start frames temp frame m₂ := by
  refine ⟨htaken.ge, htaken.lt, htaken.temp, ?_⟩
  rw [hunseen.gblBmp]
  exact htaken.marked

/-- The address of page `i` of a region whose pages are in one table. -/
theorem page_slot (hfit : btmten vbase + i < 1024) :
    topten (vbase + i * PAGE_SIZE) = topten vbase ∧
      btmten (vbase + i * PAGE_SIZE) = btmten vbase + i := by
  simp only [topten, btmten, PAGE_SIZE] at hfit ⊢
  constructor
  · omega
  · omega

theorem wp_writeTable {post : Unit → Machine → Prop} {fails : Errno → Machine → Prop}
    {bad : Fault → Prop} (hfit : btmten vbase + i < 1024)
    (htable : ((m₁.addrspace a).firstpt (topten vbase)).isSome) (entry : Int) :
    Prog.wp (writeTable a (topten vbase) (btmten vbase + i) entry) post fails bad m₁ ↔
      post () (m₁.setPte a (vbase + i * PAGE_SIZE) entry) := by
  obtain ⟨table, htable⟩ := Option.isSome_iff_exists.mp htable
  simp only [writeTable, setAddrspace, ↓Prog.wp_bind, ↓Prog.wp_get, htable, ↓Prog.wp_assert,
    if_pos hfit, ↓Prog.wp_modify, setPte, Addrspace.writeFirstpt, (page_slot hfit).1,
    (page_slot hfit).2, Option.map_some]

/-- The start of a region's physical pages is all that a region sets. -/
structure LoadRegion.SetsPbase (r : LoadRegion) : Prop where
  firstpt : ∀ pa as, (r.setPbase pa as).firstpt = as.firstpt
  layout : ∀ pa as, SameLayout as (r.setPbase pa as)

theorem textRegion_setsPbase (as : Addrspace) : (textRegion as).SetsPbase :=
  ⟨fun _ _ => rfl, fun _ _ => ⟨rfl, rfl, rfl, rfl, rfl, rfl, rfl, rfl, rfl, rfl, rfl, rfl⟩⟩

theorem dataRegion_setsPbase (as : Addrspace) : (dataRegion as).SetsPbase :=
  ⟨fun _ _ => rfl, fun _ _ => ⟨rfl, rfl, rfl, rfl, rfl, rfl, rfl, rfl, rfl, rfl, rfl, rfl⟩⟩

theorem inPage_pageImage {v : Vnode} (himage : pageImage v offset PAGE_SIZE filesize o = some byte) :
    o < PAGE_SIZE := by
  by_contra hge
  simp only [pageImage] at himage
  rw [if_neg (by omega), if_neg (by omega)] at himage
  cases himage

theorem overlay_outside {v : Vnode} {ram : Nat → Byte} (hx : ¬ InPage pa x) :
    overlay ram pa (pageImage v offset PAGE_SIZE filesize) x = ram x := by
  rw [overlay]
  split
  case isFalse => rfl
  case isTrue hle =>
      cases himage : pageImage v offset PAGE_SIZE filesize (x - pa) with
      | none => rfl
      | some byte =>
          have hlt := inPage_pageImage himage
          exact absurd ⟨hle, by omega⟩ hx

/-- A page of a region gets a frame of its own. -/
theorem Copying.loadRegionPage (hcopying : Copying old a as taken vas [] m m₁)
    (hroom : FrameRoom start frames m) (hfree : taken.length < m.freeFrames) {r : LoadRegion}
    (hpbase : r.SetsPbase) (hfit : btmten r.vbase + i < 1024)
    (htable : ((m₁.addrspace a).firstpt (topten r.vbase)).isSome)
    (hnew : r.vbase + i * PAGE_SIZE ∉ vas)
    (haligned : ∀ va ∈ vas ++ [r.vbase + i * PAGE_SIZE], va % PAGE_SIZE = 0)
    (hreads : r.reads = true → Reads r.vnode (r.pageRange i)) (index : Nat) :
    Prog.Returns (loadRegionPage a r i index)
      (fun _ m₂ => ((m₂.addrspace a).firstpt (topten r.vbase)).isSome ∧
        ∃ f, Copying old a as (taken ++ [f]) (vas ++ [r.vbase + i * PAGE_SIZE]) [] m m₂) m₁ := by
  simp only [Machine.loadRegionPage, ↓Prog.wp_bind]
  apply hcopying.take hroom.framed hroom.pos hfree
  intro temp f hne htemp htaken hcopying₁ hspare
  rw [if_neg (fun h => hne h.1)]
  refine Prog.wp_mono (@Prog.wp_when_of _ _ _ _ _ _ (fun _ m₂ => Unseen (m₁.took f) m₂) _ _ _ ?_
    (Unseen.refl _)) ?_ (fun _ _ h => h) (fun _ h => h)
  · intro _
    have hlt : f < (m₁.took f).maxPageNum := by
      rw [hcopying₁.maxPageNum, hroom.framed.maxPageNum]
      exact htaken.lt
    simp only [setCoremap, ↓Prog.wp_bind, ↓Prog.wp_get, ↓Prog.wp_assert, if_pos hlt,
      ↓Prog.wp_modify]
    exact unseen_counted (m₁.took f) f r.npages
  intro _ m₂ hunseen
  have hcopying₂ := hcopying₁.unseen hunseen
  have hspare₂ := hspare.unseen hunseen
  have htable₂ : ((m₂.addrspace a).firstpt (topten r.vbase)).isSome := by
    rw [hunseen.addrspace]
    exact htable
  have hpte₂ : (m₂.pte a (r.vbase + i * PAGE_SIZE)).isSome := by
    rw [Machine.pte, Option.isSome_map, (page_slot hfit).1]
    exact htable₂
  rw [wp_writeTable hfit htable₂]
  have hplaced := hcopying₂.place (List.mem_append_right _ (List.mem_singleton_self f)) hspare₂
    hnew haligned hpte₂
  have htable₃ : (((m₂.setPte a (r.vbase + i * PAGE_SIZE) ((f : Int) * 2)).addrspace a).firstpt
      (topten r.vbase)).isSome := by
    simp only [setPte, Function.update_self, (page_slot hfit).1, Option.isSome_map]
    exact htable₂
  have htaken₃ : Taken start frames temp f
      (m₂.setPte a (r.vbase + i * PAGE_SIZE) ((f : Int) * 2)) := by
    obtain ⟨hge, hlt, htemp, hmarked⟩ := hunseen.keepsTaken htaken
    exact ⟨hge, hlt, htemp, hmarked⟩
  rw [Prog.wp_when, if_neg hne]
  apply hplaced.ptInsert hroom htaken₃
  intro m₄ hunseen₄ _
  have hcopying₄ := hplaced.unseen hunseen₄
  rw [← hunseen₄.addrspace] at htable₃
  refine Prog.wp_mono (@Prog.wp_when_of _ _ _ _ _ _ (fun _ m₅ => Copying old a as (taken ++ [f])
    (vas ++ [r.vbase + i * PAGE_SIZE]) [] m m₅ ∧
    ((m₅.addrspace a).firstpt (topten r.vbase)).isSome) _ _ _ ?_ ⟨hcopying₄, htable₃⟩) ?_
    (fun _ _ h => h) (fun _ h => h)
  · intro _
    refine ⟨hcopying₄.withAddrspace (hcopying₄.layout.trans (hpbase.layout temp _)) ?_, ?_⟩
    · intro va _
      rw [hpbase.firstpt]
      rfl
    · simp only [Function.update_self, hpbase.firstpt]
      exact htable₃
  rintro _ m₅ ⟨hcopying₅, htable₅⟩
  refine Prog.wp_mono (@Prog.wp_when_of _ _ _ _ _ _ (fun _ m₆ =>
    ((m₆.addrspace a).firstpt (topten r.vbase)).isSome ∧
    Copying old a as (taken ++ [f]) (vas ++ [r.vbase + i * PAGE_SIZE]) [] m m₆) _ _ _ ?_
    ⟨htable₅, hcopying₅⟩) ?_ (fun _ _ h => h) (fun _ h => h)
  · intro hread
    refine Prog.Returns.mono (pageRead_returns (hreads hread) m₅ temp) ?_
    rintro _ _ rfl
    refine ⟨htable₅, hcopying₅.write hroom (List.mem_append_right _ (List.mem_singleton_self f))
      (by simp [Spare]) ?_⟩
    intro x hx
    rw [← htemp] at hx
    exact overlay_outside hx
  · rintro _ m₆ ⟨htable₆, hcopying₆⟩
    exact ⟨htable₆, f, hcopying₆⟩

/-- The pages of a region, from its base on. -/
def regionPages (vbase npages : Nat) : List Nat :=
  (List.range npages).map fun i => vbase + i * PAGE_SIZE

theorem regionPages_succ (vbase n : Nat) :
    regionPages vbase (n + 1) = regionPages vbase n ++ [vbase + n * PAGE_SIZE] := by
  rw [regionPages, List.range_succ, List.map_append]
  rfl

theorem mem_regionPages {npages : Nat} :
    va ∈ regionPages vbase npages ↔ ∃ i < npages, va = vbase + i * PAGE_SIZE := by
  simp [regionPages, eq_comm]

theorem regionPages_aligned (hvbase : vbase % PAGE_SIZE = 0) (hva : va ∈ regionPages vbase npages) :
    va % PAGE_SIZE = 0 := by
  obtain ⟨i, -, rfl⟩ := mem_regionPages.mp hva
  rw [Nat.add_mul_mod_self_right]
  exact hvbase

theorem regionPages_slot (hfit : btmten vbase + npages ≤ 1024) (hva : va ∈ regionPages vbase npages) :
    topten va = topten vbase := by
  obtain ⟨i, hi, rfl⟩ := mem_regionPages.mp hva
  exact (page_slot (by omega)).1

theorem Copying.loadRegion (hcopying : Copying old a as taken vas [] m m₁)
    (hroom : FrameRoom start frames m) {r : LoadRegion} (hpbase : r.SetsPbase)
    (hfree : taken.length + 1 + r.npages ≤ m.freeFrames)
    (hfit : btmten r.vbase + r.npages ≤ 1024) (hvbase : r.vbase % PAGE_SIZE = 0)
    (hslot : ∀ va ∈ vas, topten va ≠ topten r.vbase) (haligned : ∀ va ∈ vas, va % PAGE_SIZE = 0)
    (hreads : ∀ i < r.npages, r.reads = true → Reads r.vnode (r.pageRange i)) (index : Nat) :
    Prog.Returns (loadRegion a r index)
      (fun _ m₂ => ∃ taken', taken'.length = taken.length + 1 + r.npages ∧
        Copying old a as taken' (vas ++ regionPages r.vbase r.npages) [] m m₂) m₁ := by
  simp only [Machine.loadRegion, setAddrspace, ↓Prog.wp_bind, ↓Prog.wp_modify]
  apply hcopying.kmallocTable hroom (by omega)
  intro f table m₂ hcopying₂
  have hnew := hcopying₂.newTable hslot table
  have htable : (((m₂.withAddrspace a (Addrspace.writeFirstpt (m₂.addrspace a) (topten r.vbase)
      table)).addrspace a).firstpt (topten r.vbase)).isSome := by
    simp [Machine.withAddrspace, Addrspace.writeFirstpt]
  have hstart : Copying old a as (taken ++ [f]) (vas ++ regionPages r.vbase 0) [] m
      (m₂.withAddrspace a (Addrspace.writeFirstpt (m₂.addrspace a) (topten r.vbase) table)) := by
    rw [regionPages, List.range_zero, List.map_nil, List.append_nil]
    exact hnew
  refine Prog.wp_mono (Prog.wp_forFrom (fun i _ m₃ =>
    ((m₃.addrspace a).firstpt (topten r.vbase)).isSome ∧
    ∃ taken', taken'.length = taken.length + 1 + i ∧
      Copying old a as taken' (vas ++ regionPages r.vbase i) [] m m₃) ?_
    ⟨htable, taken ++ [f], by simp, hstart⟩) ?_
    (fun _ _ h => h) (fun _ h => h)
  · rintro i index m₃ - hi ⟨htable₃, taken', hlength, hcopying₃⟩
    have hpage := @page_slot r.vbase i (by omega)
    have hva : (r.vbase + i * PAGE_SIZE) % PAGE_SIZE = 0 := by
      rw [Nat.add_mul_mod_self_right]
      exact hvbase
    refine Prog.Returns.mono (hcopying₃.loadRegionPage hroom (by omega) hpbase (by omega) htable₃
      ?_ ?_ (hreads i (by omega)) index) ?_
    · intro hmem
      cases List.mem_append.mp hmem with
      | inl hold => exact hslot _ hold hpage.1
      | inr hregion =>
          obtain ⟨j, hj, heq⟩ := mem_regionPages.mp hregion
          simp only [PAGE_SIZE] at heq
          omega
    · intro va hmem
      cases List.mem_append.mp hmem with
      | inl hmem =>
          cases List.mem_append.mp hmem with
          | inl hold => exact haligned va hold
          | inr hregion => exact regionPages_aligned hvbase hregion
      | inr hlast =>
          rw [List.mem_singleton.mp hlast]
          exact hva
    · rintro _ m₄ ⟨htable₄, g, hcopying₄⟩
      refine ⟨htable₄, taken' ++ [g], ?_, ?_⟩
      · rw [List.length_append, hlength]
        rfl
      · rw [regionPages_succ, ← List.append_assoc]
        exact hcopying₄
  · rintro _ m₃ ⟨-, taken', hlength, hcopying₃⟩
    rw [Nat.zero_add] at hlength hcopying₃
    exact ⟨taken', hlength, hcopying₃⟩

/-! `memmove` from the old pages. -/

/-- The address space that is copied, and what the TLB and the executable hold of
it. -/
structure Source (start frames : Nat) (old : AsId) (pages : List Nat) (m : Machine) : Prop where
  room : FrameRoom start frames m
  current : m.tVmspace = some old
  pid : m.pid < 64
  ready : m.TlbReady old
  setUp : SetUp (m.addrspace old)
  nodup : pages.Nodup
  user : ∀ va ∈ pages, va < KSEG0 ∧ va % PAGE_SIZE = 0 ∧ va ≠ 0 ∧ va ≠ 1073741824
  resident : ∀ va ∈ pages, ∃ frame, m.InFrame old va frame ∧ 3 ≤ frame ∧ frame < frames ∧
    m.gblBmp.bitmapIsset frame = true
  harmless : ∀ va ∈ m.misses old pages, m.Harmless old va

theorem Source.page (hsource : Source start frames old pages m) (hva : va ∈ pages) :
    ∃ frame, m.UserPage old va frame ∧ 3 ≤ frame ∧ frame < frames ∧
      m.gblBmp.bitmapIsset frame = true := by
  obtain ⟨huser, haligned, -, -⟩ := hsource.user va hva
  obtain ⟨frame, hframe, hge, hlt, hset⟩ := hsource.resident va hva
  refine ⟨frame, ⟨hframe, huser, haligned, ?_⟩, hge, hlt, hset⟩
  rw [hsource.room.framed.pa frame hge hlt, Nat.add_mul_mod_self_right]
  exact hsource.room.aligned

/-- Two machines that translate the addresses of `a` alike and fault on them alike. -/
structure MapsAlike (a : AsId) (m m' : Machine) : Prop where
  tlb : m'.tlb = m.tlb
  asid : m'.asid = m.asid
  pid : m'.pid = m.pid
  addrspace : m'.addrspace a = m.addrspace a
  pa : ∀ i, (m'.coremap i).pa = (m.coremap i).pa

theorem MapsAlike.pte (hsame : MapsAlike a m m₁) (va : Nat) : m₁.pte a va = m.pte a va := by
  rw [Machine.pte, hsame.addrspace, Machine.pte]

theorem MapsAlike.inFrame (hsame : MapsAlike a m m₁) (hframe : m.InFrame a va frame) :
    m₁.InFrame a va frame :=
  ⟨hframe.ne_zero, (hsame.pte va).trans hframe.entry⟩

theorem MapsAlike.ready (hsame : MapsAlike a m m₁) (hready : m.TlbReady a) : m₁.TlbReady a := by
  refine ⟨?_, ?_, ?_, ?_⟩
  · rw [hsame.tlb, hsame.pid]
    intro i hi hvalid hpid
    obtain ⟨frame, hframe, hppage⟩ := hready.own i hi hvalid hpid
    refine ⟨frame, hsame.inFrame hframe, ?_⟩
    rw [hsame.pa]
    exact hppage
  · rw [hsame.tlb]
    exact hready.idle
  · rw [hsame.tlb]
    exact hready.last
  · rw [hsame.asid, hsame.pid]
    exact hready.asid

theorem MapsAlike.touched (hsame : MapsAlike a m m₁) (va : Nat) :
    (m₁.touched a va).tlb = (m.touched a va).tlb ∧
      (m₁.touched a va).asid = (m.touched a va).asid := by
  have hentry : m₁.missEntry a va = m.missEntry a va := by
    rw [missEntry, missEntry, hsame.pte, refillEntry, refillEntry, hsame.pid, hsame.pa,
      hsame.addrspace]
  rw [Machine.touched, Machine.touched, translate_congr hsame.tlb hsame.asid]
  split
  · exact ⟨hsame.tlb, hsame.asid⟩
  · rw [hentry, hsame.tlb]
    exact ⟨rfl, rfl⟩

/-- The pages of `old` are not among those written. -/
theorem Copying.old_ram (hcopying : Copying old a as taken vas visited m m₁)
    (hroom : FrameRoom start frames m) (hframe : 3 ≤ frame ∧ frame < frames)
    (hset : m.gblBmp.bitmapIsset frame = true) (ho : o < PAGE_SIZE) :
    m₁.ram ((m.coremap frame).pa + o) = m.ram ((m.coremap frame).pa + o) := by
  apply hcopying.ram
  intro f hf
  have hfree := hcopying.free f hf
  apply hroom.apart hframe (hroom.free_range hfree) _ ho
  rintro rfl
  have hclear := (mem_freeSet.mp hfree).2
  rw [hset] at hclear
  cases hclear

theorem Copying.harmless (hcopying : Copying old a as taken vas visited m m₁) (hne : old ≠ a)
    (hroom : FrameRoom start frames m) (hpage : m.UserPage old va frame)
    (hframe : 3 ≤ frame ∧ frame < frames) (hset : m.gblBmp.bitmapIsset frame = true)
    (hharmless : m.Harmless old va) : m₁.Harmless old va := by
  have haddrspace := hcopying.others old hne
  have hhome : m₁.home old va = m.home old va := by
    rw [home, home, Machine.pte, Machine.pte, haddrspace, hcopying.pa]
  have himage : m₁.fileImage old va = m.fileImage old va := by
    rw [fileImage, fileImage, haddrspace]
  refine ⟨?_, ?_, ?_⟩
  · rw [haddrspace]
    exact hharmless.stack
  · rw [haddrspace]
    exact hharmless.reads
  · rw [himage, hhome]
    intro o byte hbyte
    have ho : o < PAGE_SIZE := by
      cases hrange : fileRange (m.addrspace old) va with
      | none => simp [fileImage, hrange] at hbyte
      | some range =>
          simp only [fileImage, hrange] at hbyte
          exact inPage_pageImage hbyte
    rw [← hharmless.same o byte hbyte, hpage.home]
    exact hcopying.old_ram hroom hframe hset ho

end OS161.VM.Machine
