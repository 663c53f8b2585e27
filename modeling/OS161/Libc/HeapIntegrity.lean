import OS161.Libc.MallocInvariant

namespace OS161.Libc

open OS161.Data

/-- A program that uses the allocator: the pointers it holds with the sizes
it asked for, and the words it left in its blocks. -/
structure Process where
  heap : Heap
  live : List (Nat × Nat)
  data : Nat → Nat

namespace Process

/-- Before the first call, memory holds anything. -/
structure Starts (p : Process) : Prop where
  base : p.heap.heapbase = 0
  top : p.heap.heaptop = 0
  brkPos : 0 < p.heap.brk
  brkLe : p.heap.brk ≤ 2 ^ 31
  live : p.live = []

/-- The program takes what `malloc` handed out. -/
def receive (p : Process) (h : Heap) (ptr size : Nat) : Process :=
  if ptr = 0 then { p with heap := h }
  else ⟨h, (ptr, size) :: p.live, remember p.data h.mem ptr size⟩

inductive Step : Process → Process → Prop
  | malloc (grants : Grants) (hpos : 1 ≤ size) (hsize : size < 2 ^ 28)
      (hcall : malloc grants size p.heap = .ok ptr h) :
      Step p (p.receive h ptr size)
  | free (hptr : (ptr, size) ∈ p.live)
      (hcall : free ptr p.heap = .ok () h) :
      Step p { p with heap := h, live := p.live.erase (ptr, size) }
  | freeNull (hcall : free 0 p.heap = .ok () h) :
      Step p { p with heap := h }
  /-- The program writes a word of a block it holds. -/
  | store (hptr : (ptr, size) ∈ p.live) (hlow : ptr ≤ w) (hhigh : w < ptr + size)
      (haligned : w % 4 = 0) :
      Step p { p with
        heap := p.heap.write w value
        data := Function.update p.data w value }

/-- The header at `start`, read with the macros of the source. -/
structure Reads (h : Heap) (start prev : Nat) (b : Blk) : Prop where
  ok : h.mOk start
  prevoff : h.mPrevoff start = prev
  nextoff : h.mNextoff start = b.off
  inuse : h.mhInuse start = b.flag

structure Integrity (p : Process) : Prop where
  tiled : ∃ blocks, Tiles Blk.off (Reads p.heap) p.heap.heapbase 0 blocks p.heap.heaptop ∧
    Coalesced blocks ∧ p.live.Perm (held p.heap.heapbase blocks)
  disjoint : p.live.Pairwise fun one other =>
    one.1 + one.2 ≤ other.1 ∨ other.1 + other.2 ≤ one.1
  aligned : ∀ ptr size, (ptr, size) ∈ p.live → ptr % 8 = 0
  large : ∀ ptr size, (ptr, size) ∈ p.live →
    p.heap.heapbase + MBLOCKSIZE ≤ ptr ∧ size ≤ p.heap.mSize (ptr - MBLOCKSIZE) ∧
      ptr + p.heap.mSize (ptr - MBLOCKSIZE) ≤ p.heap.heaptop
  untouched : ∀ ptr size, (ptr, size) ∈ p.live →
    ∀ w, ptr ≤ w → w < ptr + size → p.heap.mem w = p.data w

/-- Every call the program may make comes back, except that the first one may
end the process when `sbrk` fails. -/
structure CallsReturn (p : Process) : Prop where
  malloc : ∀ grants size, 1 ≤ size → size < 2 ^ 28 →
    Prog.wp (malloc grants size) (fun _ _ => True) (fun _ _ => False) SbrkFailed p.heap
  free : ∀ ptr size, (ptr, size) ∈ p.live →
    Prog.Returns (free ptr) (fun _ _ => True) p.heap
  freeNull : Prog.Returns (Libc.free 0) (fun _ _ => True) p.heap

/-- What holds between any two calls. -/
def Inv (p : Process) : Prop :=
  ∃ blocks, Sound p.heap p.data blocks ∧ Coalesced blocks ∧
    p.live.Perm (held p.heap.heapbase blocks)

variable {p p' : Process}

theorem Starts.inv (hstart : p.Starts) : p.Inv := by
  refine ⟨[], Or.inl ⟨hstart.base, hstart.top, hstart.brkPos, hstart.brkLe, rfl⟩,
    List.isChain_nil, ?_⟩
  rw [hstart.live]
  exact List.Perm.nil

/-- A program that holds a block has a heap that is set up. -/
theorem Inv.layout_of_mem {blocks : List Blk} (hsound : Sound p.heap p.data blocks)
    (hlive : p.live.Perm (held p.heap.heapbase blocks)) (hptr : entry ∈ p.live) :
    Layout p.heap p.data blocks := by
  rcases hsound with ⟨-, -, -, -, rfl⟩ | hlayout
  · exact absurd (hlive.mem_iff.mp hptr) (by simp [held, labelled])
  · exact hlayout

theorem free_null (h : Heap) : Libc.free 0 h = .ok () h := rfl

/-- The block behind a pointer the program holds. -/
theorem exists_block {blocks : List Blk} {ptr size : Nat}
    (hptr : (ptr, size) ∈ held base blocks) :
    ∃ below off above, blocks = below ++ ⟨off, some size⟩ :: above ∧
      ptr = base + span Blk.off below + 8 := by
  obtain ⟨⟨mh, n⟩, hlabelled, hentry⟩ := List.mem_map.mp hptr
  obtain ⟨below, ⟨off, owner⟩, above, rfl, rfl, howner⟩ := mem_labelled.mp hlabelled
  obtain ⟨rfl, rfl⟩ : _ = ptr ∧ n = size := Prod.mk.inj hentry
  exact ⟨below, off, above, by rw [← howner], rfl⟩

/-- A store into a block the program holds changes no header. -/
theorem layout_store {h : Heap} {data : Nat → Nat} {blocks : List Blk}
    (hlayout : Layout h data blocks) (hptr : (ptr, size) ∈ held h.heapbase blocks)
    (hlow : ptr ≤ w) (hhigh : w < ptr + size) :
    Layout (h.write w value) (Function.update data w value) blocks := by
  obtain ⟨below, off, above, rfl, rfl⟩ := exists_block hptr
  obtain ⟨hbelow, hdr, habove⟩ := hlayout.tiles.at_block
  have hfits : size + 8 ≤ off := hdr.fits size rfl
  generalize hmh : h.heapbase + span Blk.off below = mh at *
  have hwrote := h.write_wrote w value
  have htopRoom := hlayout.topRoom
  rw [lastSize_append] at htopRoom
  apply hlayout.of_tiles hwrote.toSameBounds (by rw [lastSize_append]; exact htopRoom)
  have hbelow' : HeapTiles (h.write w value).mem (Function.update data w value)
      h.heapbase 0 below mh := by
    apply hbelow.congr
    · intro w' _ hlt
      exact hwrote.other w' (by simp; omega)
    · intro w' _ hlt
      exact Function.update_of_ne (by omega) _ _
  refine HeapTiles.of_block hbelow' ?_ (HeapTiles.congr habove ?_ ?_)
  · refine { hdr with prevWord := ?_, nextWord := ?_, kept := ?_ }
    · rw [hwrote.other mh (by simp; omega), hdr.prevWord]
    · rw [hwrote.other (mh + 4) (by simp; omega), hdr.nextWord]
    · intro n hn w' hlow' hhigh'
      by_cases hw : w' = w
      · rw [hw, Heap.write_mem_self, Function.update_self]
      · rw [hwrote.other w' (by simpa using hw), Function.update_of_ne hw]
        exact hdr.kept n hn w' hlow' hhigh'
  · intro w' hlow' _
    simp only at hlow'
    exact hwrote.other w' (by simp; omega)
  · intro w' hlow' _
    simp only at hlow'
    exact Function.update_of_ne (by omega) _ _

/-- A call for a block of moderate size. -/
theorem malloc_moderate {h : Heap} {data : Nat → Nat} {blocks : List Blk} (grants : Grants)
    (hsound : Sound h data blocks) (hcoalesced : Coalesced blocks)
    (hpos : 1 ≤ size) (hsize : size < 2 ^ 28) :
    Prog.wp (malloc grants size)
      (fun ptr h' => Handed h data blocks ptr size h') (fun _ _ => False) (SetupFailed h grants)
      h := by
  have hrounded : size ≤ rounded size ∧ rounded size < 2 ^ 28 + 8 := by
    simp only [rounded, wrap, MBLOCKSIZE]
    omega
  have hready := hsound.ready.1
  have htopBrk := hready.topBrk
  have htopLe := hready.topLe
  refine malloc_spec grants hsound hcoalesced (by omega) (fun _ => hrounded.1) ?_
  intro _ _
  simp only [MBLOCKSIZE]
  omega

/-- What the program has after a call of `malloc`. -/
theorem Inv.receive (hinv : p.Inv) (hspec : ∀ blocks, Sound p.heap p.data blocks →
    Coalesced blocks → Handed p.heap p.data blocks ptr size h) :
    (p.receive h ptr size).Inv := by
  obtain ⟨blocks, hsound, hcoalesced, hlive⟩ := hinv
  have hcall := hspec blocks hsound hcoalesced
  unfold Handed at hcall
  unfold Process.receive
  split at hcall
  case isTrue hnull =>
      obtain ⟨hlayout, hheld⟩ := hsound.ready
      rw [if_pos hnull, hcall.1]
      exact ⟨blocks, Or.inr hlayout, hcoalesced, hlive.trans (List.Perm.of_eq hheld.symm)⟩
  case isFalse hptr =>
      obtain ⟨blocks', hlayout, hcoalesced', hheld⟩ := hcall
      rw [if_neg hptr]
      exact ⟨blocks', Or.inr hlayout, hcoalesced', (hlive.cons _).trans hheld.symm⟩

/-- One step of the program keeps the invariant. -/
theorem Inv.step (hinv : p.Inv) (hstep : Step p p') : p'.Inv := by
  cases hstep with
  | malloc grants hpos hsize hcall =>
      refine hinv.receive ?_
      intro blocks hsound hcoalesced
      exact (malloc_moderate grants hsound hcoalesced hpos hsize).post_of_ok hcall
  | free hptr hcall =>
      obtain ⟨blocks, hsound, hcoalesced, hlive⟩ := hinv
      have hlayout := Inv.layout_of_mem hsound hlive hptr
      obtain ⟨blocks', hlayout', hcoalesced', hheld⟩ :=
        (free_spec hlayout hcoalesced (hlive.mem_iff.mp hptr)).post_of_ok hcall
      exact ⟨blocks', Or.inr hlayout', hcoalesced', (hlive.erase _).trans hheld.symm⟩
  | freeNull hcall =>
      rw [free_null] at hcall
      cases hcall
      exact hinv
  | store hptr hlow hhigh haligned =>
      obtain ⟨blocks, hsound, hcoalesced, hlive⟩ := hinv
      have hlayout := Inv.layout_of_mem hsound hlive hptr
      exact ⟨blocks, Or.inr (layout_store hlayout (hlive.mem_iff.mp hptr) hlow hhigh),
        hcoalesced, hlive⟩

theorem Inv.callsReturn (hinv : p.Inv) : p.CallsReturn := by
  obtain ⟨blocks, hsound, hcoalesced, hlive⟩ := hinv
  constructor
  · intro grants size hpos hsize
    exact Prog.wp_mono (malloc_moderate grants hsound hcoalesced hpos hsize)
      (fun _ _ _ => trivial) (fun _ _ h => h) (fun _ h => h.1)
  · intro ptr size hptr
    have hlayout := Inv.layout_of_mem hsound hlive hptr
    exact (free_spec hlayout hcoalesced (hlive.mem_iff.mp hptr)).mono
      (fun _ _ _ => trivial)
  · exact trivial

theorem Header.reads {h : Heap} {data : Nat → Nat} {b : Blk}
    (hdr : Header h.mem data start prev b) (hprev : prev < 2 ^ 32)
    (hsmall : b.off ≤ 2 ^ 31) : Reads h start prev b := by
  have haligned := hdr.prevAligned
  refine ⟨hdr.mOk, ?_, hdr.mNextoff hsmall, hdr.mhInuse⟩
  simp only [Heap.mPrevoff, hdr.mhPrevblock, wrap]
  omega

theorem HeapTiles.reads {h : Heap} {data : Nat → Nat} {blocks : List Blk}
    (htiles : HeapTiles h.mem data start prev blocks top) (hprev : prev < 2 ^ 32)
    (htop : top ≤ 2 ^ 31) : Tiles Blk.off (Reads h) start prev blocks top := by
  induction blocks generalizing start prev with
  | nil => exact htiles
  | cons b rest ih =>
      have heq := Tiles.top_eq htiles.2
      exact ⟨Header.reads htiles.1 hprev (by omega), ih htiles.2 (by omega)⟩

/-- Blocks the program holds do not overlap. -/
theorem held_disjoint {h : Heap} {data : Nat → Nat} {blocks : List Blk}
    (hlayout : Layout h data blocks) :
    (held h.heapbase blocks).Pairwise fun one other =>
      one.1 + one.2 ≤ other.1 ∨ other.1 + other.2 ≤ one.1 := by
  refine List.pairwise_map.mpr (pairwise_labelled hlayout.tiles ?_)
  intro address before b n other hdr howner hle
  have hfits := hdr.fits n howner
  simp only [mData, MBLOCKSIZE] at hfits ⊢
  exact Or.inl (by omega)

theorem Inv.integrity (hinv : p.Inv) : p.Integrity := by
  obtain ⟨blocks, hsound, hcoalesced, hlive⟩ := hinv
  have hblock : ∀ ptr size, (ptr, size) ∈ p.live → ∃ off prev,
      Layout p.heap p.data blocks ∧ p.heap.heapbase + 8 ≤ ptr ∧
      ptr - 8 + off ≤ p.heap.heaptop ∧ (ptr - 8) % 8 = 0 ∧
      Header p.heap.mem p.data (ptr - 8) prev ⟨off, some size⟩ := by
    intro ptr size hptr
    have hlayout := Inv.layout_of_mem hsound hlive hptr
    obtain ⟨below, off, above, rfl, rfl⟩ := exists_block (hlive.mem_iff.mp hptr)
    obtain ⟨hbelow, hdr, habove⟩ := hlayout.tiles.at_block
    have htop := Tiles.top_eq habove
    simp only at htop
    rw [Nat.add_sub_cancel]
    exact ⟨off, lastSize Blk.off 0 below, hlayout, by omega, by omega,
      hbelow.aligned hlayout.baseAligned, hdr⟩
  constructor
  · refine ⟨blocks, ?_, hcoalesced, hlive⟩
    rcases hsound with ⟨hbase, htop, -, -, rfl⟩ | hlayout
    · exact hbase.trans htop.symm
    · exact HeapTiles.reads hlayout.tiles (by decide) hlayout.topLe
  · rcases hsound with ⟨-, -, -, -, rfl⟩ | hlayout
    · rw [List.perm_nil.mp hlive]
      exact List.Pairwise.nil
    · exact (hlive.pairwise_iff (fun hor => hor.symm)).mpr (held_disjoint hlayout)
  · intro ptr size hptr
    obtain ⟨off, prev, -, hlow, -, haligned, -⟩ := hblock ptr size hptr
    omega
  · intro ptr size hptr
    obtain ⟨off, prev, hlayout, hlow, hhigh, -, hdr⟩ := hblock ptr size hptr
    have htopLe := hlayout.topLe
    have hfits : size + 8 ≤ off := hdr.fits size rfl
    simp only [MBLOCKSIZE]
    rw [hdr.mSize (by simp only; omega)]
    simp only
    omega
  · intro ptr size hptr w hlow hhigh
    obtain ⟨off, prev, -, hlow', -, -, hdr⟩ := hblock ptr size hptr
    exact hdr.kept size rfl w (by omega) (by omega)

/-- However the program calls the allocator and writes its blocks, the heap
stays intact and no call finds it corrupt. -/
theorem heap_integrity {p₀ : Process} (hstart : p₀.Starts)
    (hrun : Relation.ReflTransGen Step p₀ p) : p.Integrity ∧ p.CallsReturn := by
  have hinv := invariant_of_steps Inv hrun hstart.inv (fun _ _ hinv hstep => hinv.step hstep)
  exact ⟨hinv.integrity, hinv.callsReturn⟩

/-! A program asks for two blocks, writes the lower one and frees it. -/

private def launched : Process := ⟨⟨fun _ => 0, 0, 0, 32⟩, [], fun _ => 0⟩

private def oneBlock : Process :=
  launched.receive
    ((malloc ⟨true, true, true⟩ 10 launched.heap).stateD launched.heap) 40 10

private def twoBlocks : Process :=
  oneBlock.receive
    ((malloc ⟨true, true, true⟩ 20 oneBlock.heap).stateD oneBlock.heap) 64 20

private def written : Process := { twoBlocks with
  heap := twoBlocks.heap.write 44 7
  data := Function.update twoBlocks.data 44 7 }

theorem heap_integrity_malloc_store_free :
    launched.Starts ∧ ∃ h, Libc.free 40 written.heap = .ok () h ∧
      Integrity ⟨h, [(64, 20)], written.data⟩ ∧
      CallsReturn ⟨h, [(64, 20)], written.data⟩ := by
  have hstart : launched.Starts := ⟨rfl, rfl, by decide, by decide, rfl⟩
  have hone : Step launched oneBlock :=
    .malloc ⟨true, true, true⟩ (by decide) (by decide) rfl
  have htwo : Step oneBlock twoBlocks :=
    .malloc ⟨true, true, true⟩ (by decide) (by decide) rfl
  have hlower : (40, 10) ∈ twoBlocks.live := List.mem_of_elem_eq_true rfl
  have hwritten : Step twoBlocks written :=
    .store hlower (by decide) (by decide) (by decide)
  have hrun := ((Relation.ReflTransGen.single hone).tail htwo).tail hwritten
  obtain ⟨_, h, hcall, -⟩ := ((heap_integrity hstart hrun).2.free 40 10 hlower).exists_ok
  have hfree : Step written ⟨h, written.live.erase (40, 10), written.data⟩ :=
    .free hlower hcall
  rw [show written.live.erase (40, 10) = [(64, 20)] from rfl] at hfree
  exact ⟨hstart, h, hcall, heap_integrity hstart (hrun.tail hfree)⟩

end Process

end OS161.Libc
