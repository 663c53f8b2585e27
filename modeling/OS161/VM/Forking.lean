import OS161.VM.CopyPages
import OS161.VM.FrameOwnership

namespace OS161.VM.Machine

open OS161.Data
open OS161.Kern
open OS161.Lib

/-! `as_copy` from its start to its end. -/

variable {m m₁ m₂ : Machine} {a old : AsId} {start frames : Nat}
variable {taken vas visited rest : List Nat} {as : Addrspace} {va frame : Nat}

theorem Copying.asCreate (hcopying : Copying old a as [] [] [] m m₁)
    (hroom : FrameRoom start frames m) {mem : AsMemory} (hself : mem.self = some a)
    (hfree : 2 ≤ m.freeFrames) :
    Prog.Returns (asCreate mem) (fun r m₂ => r = a ∧
      ∃ taken as', taken.length ≤ 2 ∧ Copying old a as' taken [] [] m m₂) m₁ := by
  simp only [Machine.asCreate, ↓Prog.wp_bind]
  refine Prog.wp_mono (@Prog.wp_when_of _ _ _ _ _ _ (fun _ m₂ => ∃ taken, taken.length ≤ 1 ∧
    Copying old a as taken [] [] m m₂) _ _ _ ?_ ⟨[], by simp, hcopying⟩) ?_ (fun _ _ h => h)
    (fun _ h => h)
  · intro _
    simp only [↓Prog.wp_bind]
    apply hcopying.allocKpages hroom (Nat.lt_of_lt_of_le (by decide) hfree)
    intro f page m₂ hpage hcopying₂
    rw [Prog.wp_when, if_neg hpage]
    exact ⟨_, by simp, hcopying₂⟩
  rintro _ m₂ ⟨taken, hlength, hcopying₂⟩
  simp only [hself, setAddrspace, ↓Prog.wp_bind]
  apply hcopying₂.allocKpages hroom (by omega)
  intro f page m₃ hpage hcopying₃
  rw [Prog.wp_when, if_neg hpage]
  refine ⟨rfl, taken ++ [f], _, ?_, hcopying₃.withAddrspace (SameLayout.refl _) (by simp)⟩
  rw [List.length_append]
  exact Nat.succ_le_succ hlength

/-! The layout that `as_copy` has in mind. -/

/-- The pages of the two regions and of the stack, in the order in which they are
copied. -/
def pagesOf (as : Addrspace) : List Nat :=
  regionPages as.asVbase1 as.asNpages1 ++ (regionPages as.asVbase2 as.asNpages2 ++
    regionPages as.asStackvbase ((USERSTACK - as.asStackvbase) / PAGE_SIZE))

/-- The regions start where their tables start, in the slots 1 and 64, and lie in
these tables; the stack lies in the last table; and the executable delivers the
pages that it is asked for. -/
structure Standard (as : Addrspace) : Prop where
  vbase1 : as.asVbase1 = 0x400000
  npages1 : as.asNpages1 ≤ 1024
  vbase2 : as.asVbase2 = 0x10000000
  npages2 : as.asNpages2 ≤ 1024
  stack : 0x7fc00000 ≤ as.asStackvbase
  text : ∀ i < as.asNpages1, Reads as.asVnode ((textRegion as).pageRange i)
  data : ∀ i < as.asNpages2, as.filesizeData ≠ 0 → Reads as.asVnode ((dataRegion as).pageRange i)

theorem textRegion_congr {as as' : Addrspace} (hlayout : SameLayout as as') :
    textRegion as' = textRegion as := by
  simp only [textRegion, hlayout.asVbase1, hlayout.asNpages1, hlayout.asVnode, hlayout.offText,
    hlayout.filesizeText]

theorem dataRegion_congr {as as' : Addrspace} (hlayout : SameLayout as as') :
    dataRegion as' = dataRegion as := by
  simp only [dataRegion, hlayout.asVbase2, hlayout.asNpages2, hlayout.asVnode, hlayout.offData,
    hlayout.filesizeData]

theorem Copying.asPrepareLoad (hcopying : Copying old a as taken [] [] m m₁)
    (hroom : FrameRoom start frames m) (hstandard : Standard as)
    (hfree : taken.length + 2 + as.asNpages1 + as.asNpages2 ≤ m.freeFrames) (unset : Unset) :
    Prog.Returns (asPrepareLoad a unset)
      (fun _ m₂ => ∃ taken', taken'.length = taken.length + 2 + as.asNpages1 + as.asNpages2 ∧
        Copying old a as taken' (regionPages as.asVbase1 as.asNpages1 ++
          regionPages as.asVbase2 as.asNpages2) [] m m₂) m₁ := by
  have hbtm1 : btmten as.asVbase1 = 0 := by
    rw [hstandard.vbase1]
    decide
  have hbtm2 : btmten as.asVbase2 = 0 := by
    rw [hstandard.vbase2]
    decide
  have hfit1 := hstandard.npages1
  have hfit2 := hstandard.npages2
  simp only [Machine.asPrepareLoad, ↓Prog.wp_bind, ↓Prog.wp_get,
    textRegion_congr hcopying.layout, dataRegion_congr hcopying.layout]
  have hvbase1 : as.asVbase1 % PAGE_SIZE = 0 := by
    rw [hstandard.vbase1]
    decide
  have htext := hcopying.loadRegion (r := textRegion as) hroom (textRegion_setsPbase as)
    (by simp only [textRegion]; omega) (by simp only [textRegion]; omega) hvbase1 (by simp)
    (by simp) (fun i hi _ => hstandard.text i hi) unset.index
  refine Prog.Returns.mono htext ?_
  rintro index m₂ ⟨taken₂, hlength₂, hcopying₂⟩
  rw [List.nil_append] at hcopying₂
  have hslot : ∀ va ∈ regionPages as.asVbase1 as.asNpages1,
      topten va ≠ topten (dataRegion as).vbase := by
    intro va hva
    rw [regionPages_slot (by omega) hva, hstandard.vbase1]
    show topten 0x400000 ≠ topten as.asVbase2
    rw [hstandard.vbase2]
    decide
  have hlength₂' : taken₂.length = taken.length + 1 + as.asNpages1 := hlength₂
  have hvbase2 : as.asVbase2 % PAGE_SIZE = 0 := by
    rw [hstandard.vbase2]
    decide
  have hdata := hcopying₂.loadRegion (r := dataRegion as) hroom (dataRegion_setsPbase as)
    (by simp only [dataRegion]; omega) (by simp only [dataRegion]; omega) hvbase2 hslot
    (fun va hva => regionPages_aligned hvbase1 hva)
    (fun i hi hreads => hstandard.data i hi (by simpa [dataRegion] using hreads)) index
  refine Prog.Returns.mono hdata ?_
  rintro _ m₃ ⟨taken₃, hlength₃, hcopying₃⟩
  refine ⟨taken₃, ?_, hcopying₃⟩
  rw [hlength₃, hlength₂']
  simp only [dataRegion]
  omega

/-- An address space to copy: its pages are resident, its heap is empty, and there
are frames for the tables and pages of the copy. -/
structure CopyInput (start frames : Nat) (old : AsId) (m : Machine) : Prop where
  room : FrameRoom start frames m
  current : m.tVmspace = some old
  pid : m.pid < 64
  ready : m.TlbReady old
  setUp : SetUp (m.addrspace old)
  stack : (m.addrspace old).asStackvbase ≤ USERSTACK
  stack_aligned : (m.addrspace old).asStackvbase % PAGE_SIZE = 0
  heap : (m.addrspace old).heaptop = (m.addrspace old).heapbottom
  resident : ∀ va ∈ pagesOf (m.addrspace old), ∃ frame, m.InFrame old va frame ∧ 3 ≤ frame ∧
    frame < frames ∧ m.gblBmp.bitmapIsset frame = true
  free : 5 + (pagesOf (m.addrspace old)).length ≤ m.freeFrames

/-- The address space `a` is a copy of `old`, which is as it was. -/
structure Copied (m : Machine) (old a : AsId) (m' : Machine) : Prop where
  layout : SameLayout (m.addrspace old) (m'.addrspace a)
  mapped : ∀ va ∈ pagesOf (m.addrspace old), ∃ frame, m'.InFrame a va frame ∧
    m.gblBmp.bitmapIsset frame = false
  own : ∀ va ∈ pagesOf (m.addrspace old), ∀ va' ∈ pagesOf (m.addrspace old),
    m'.pte a va = m'.pte a va' → va = va'
  apart : ∀ va ∈ pagesOf (m.addrspace old), ∀ va' ∈ pagesOf (m.addrspace old),
    m'.pte a va ≠ m'.pte old va'
  contents : ∀ va ∈ pagesOf (m.addrspace old), ∀ o < PAGE_SIZE,
    m'.ram (m'.home a va + o) = m.ram (m.home old va + o)
  unchanged : m'.addrspace old = m.addrspace old
  kept : ∀ va ∈ pagesOf (m.addrspace old), ∀ o < PAGE_SIZE,
    m'.ram (m'.home old va + o) = m.ram (m.home old va + o)

theorem regionPages_nodup (vbase npages : Nat) : (regionPages vbase npages).Nodup := by
  apply List.Nodup.map _ List.nodup_range
  intro i j heq
  simp only [PAGE_SIZE] at heq
  omega

theorem Standard.page_range (hstandard : Standard as) (hva : va ∈ pagesOf as) :
    (0x400000 ≤ va ∧ va < 0x800000) ∨ (0x10000000 ≤ va ∧ va < 0x10400000) ∨
      (0x7fc00000 ≤ va ∧ va < USERSTACK) := by
  have hnpages1 := hstandard.npages1
  have hnpages2 := hstandard.npages2
  have hstack := hstandard.stack
  rw [pagesOf, List.mem_append, List.mem_append] at hva
  cases hva with
  | inl htext =>
      left
      obtain ⟨i, hi, rfl⟩ := mem_regionPages.mp htext
      rw [hstandard.vbase1]
      simp only [PAGE_SIZE]
      omega
  | inr hrest =>
      cases hrest with
      | inl hdata =>
          right
          left
          obtain ⟨i, hi, rfl⟩ := mem_regionPages.mp hdata
          rw [hstandard.vbase2]
          simp only [PAGE_SIZE]
          omega
      | inr hpages =>
          right
          right
          obtain ⟨i, hi, rfl⟩ := mem_regionPages.mp hpages
          simp only [USERSTACK, PAGE_SIZE] at hi ⊢
          omega

theorem Standard.pages_nodup (hstandard : Standard as) : (pagesOf as).Nodup := by
  have hnpages1 := hstandard.npages1
  have hnpages2 := hstandard.npages2
  have hstack := hstandard.stack
  rw [pagesOf, List.nodup_append, List.nodup_append]
  refine ⟨regionPages_nodup _ _, ⟨regionPages_nodup _ _, regionPages_nodup _ _, ?_⟩, ?_⟩
  · intro va hva va' hva' heq
    obtain ⟨i, hi, rfl⟩ := mem_regionPages.mp hva
    obtain ⟨j, hj, rfl⟩ := mem_regionPages.mp hva'
    rw [hstandard.vbase2] at heq
    simp only [PAGE_SIZE] at heq
    omega
  · intro va hva va' hva' heq
    obtain ⟨i, hi, rfl⟩ := mem_regionPages.mp hva
    rw [hstandard.vbase1] at heq
    cases List.mem_append.mp hva' with
    | inl hdata =>
        obtain ⟨j, hj, rfl⟩ := mem_regionPages.mp hdata
        rw [hstandard.vbase2] at heq
        simp only [PAGE_SIZE] at heq
        omega
    | inr hpages =>
        obtain ⟨j, hj, rfl⟩ := mem_regionPages.mp hpages
        simp only [PAGE_SIZE] at heq
        omega

/-- What the copy needs apart from the heap. -/
structure CopySource (start frames : Nat) (old : AsId) (m : Machine) : Prop where
  room : FrameRoom start frames m
  current : m.tVmspace = some old
  pid : m.pid < 64
  ready : m.TlbReady old
  setUp : SetUp (m.addrspace old)
  stack : (m.addrspace old).asStackvbase ≤ USERSTACK
  stack_aligned : (m.addrspace old).asStackvbase % PAGE_SIZE = 0
  resident : ∀ va ∈ pagesOf (m.addrspace old), ∃ frame, m.InFrame old va frame ∧ 3 ≤ frame ∧
    frame < frames ∧ m.gblBmp.bitmapIsset frame = true
  free : 5 + (pagesOf (m.addrspace old)).length ≤ m.freeFrames

theorem CopyInput.copySource (hinput : CopyInput start frames old m) :
    CopySource start frames old m where
  room := hinput.room
  current := hinput.current
  pid := hinput.pid
  ready := hinput.ready
  setUp := hinput.setUp
  stack := hinput.stack
  stack_aligned := hinput.stack_aligned
  resident := hinput.resident
  free := hinput.free

theorem CopySource.aligned (hinput : CopySource start frames old m)
    (hva : va ∈ pagesOf (m.addrspace old)) : va % PAGE_SIZE = 0 := by
  rw [pagesOf, List.mem_append, List.mem_append] at hva
  rcases hva with htext | hdata | hstack
  · exact regionPages_aligned hinput.setUp.vbase1_aligned htext
  · exact regionPages_aligned hinput.setUp.vbase2_aligned hdata
  · exact regionPages_aligned hinput.stack_aligned hstack

theorem CopySource.source (hinput : CopySource start frames old m)
    (hstandard : Standard (m.addrspace old))
    (hharmless : ∀ va ∈ m.misses old (pagesOf (m.addrspace old)), m.Harmless old va) :
    Source start frames old (pagesOf (m.addrspace old)) m where
  room := hinput.room
  current := hinput.current
  pid := hinput.pid
  ready := hinput.ready
  setUp := hinput.setUp
  nodup := hstandard.pages_nodup
  user va hva := by
    have haligned := hinput.aligned hva
    have hrange := hstandard.page_range hva
    simp only [USERSTACK] at hrange
    simp only [KSEG0]
    omega
  resident := hinput.resident
  harmless := hharmless

theorem Copying.done (hcopying : Copying old a (m.addrspace old) taken
    (pagesOf (m.addrspace old)) (pagesOf (m.addrspace old)) m m₁) (hne : old ≠ a)
    (hinput : CopyInput start frames old m) : Copied m old a m₁ := by
  have hroom := hinput.room
  have hold (va : Nat) : m₁.pte old va = m.pte old va := by
    rw [pte, hcopying.others old hne, pte]
  refine ⟨hcopying.layout, ?_, ?_, ?_, ?_, hcopying.others old hne, ?_⟩
  · intro va hva
    obtain ⟨f, hf, hpte⟩ := hcopying.mapped va hva
    have hfree := hcopying.free f hf
    have hrange := hroom.free_range hfree
    exact ⟨f, ⟨by omega, hpte⟩, (mem_freeSet.mp hfree).2⟩
  · intro va hva va' hva' heq
    obtain ⟨f, -, hpte⟩ := hcopying.mapped va hva
    exact hcopying.own va hva va' hva' f hpte (heq.symm.trans hpte)
  · intro va hva va' hva' heq
    obtain ⟨f, hf, hpte⟩ := hcopying.mapped va hva
    obtain ⟨g, hframe, -, -, hset⟩ := hinput.resident va' hva'
    rw [hpte, hold, hframe.entry, Option.some.injEq] at heq
    obtain rfl : f = g := by omega
    have hclear := (mem_freeSet.mp (hcopying.free f hf)).2
    rw [hset] at hclear
    cases hclear
  · intro va hva o ho
    obtain ⟨f, hf, hpte⟩ := hcopying.mapped va hva
    have hrange := hroom.free_range (hcopying.free f hf)
    have hframe : m₁.InFrame a va f := ⟨by omega, hpte⟩
    rw [hframe.home, hinput.copySource.aligned hva, Nat.add_zero, hcopying.pa]
    exact hcopying.copied va hva f hpte o ho
  · intro va hva o ho
    obtain ⟨f, hframe, hge, hlt, hset⟩ := hinput.resident va hva
    have hframe₁ : m₁.InFrame old va f := ⟨hframe.ne_zero, (hold va).trans hframe.entry⟩
    rw [hframe₁.home, hframe.home, hinput.copySource.aligned hva, Nat.add_zero, hcopying.pa]
    exact hcopying.old_ram hroom ⟨hge, hlt⟩ hset ho

end OS161.VM.Machine
