import Mathlib.Data.List.Chain
import Mathlib.Data.List.Perm.Basic
import OS161.Data.Seq
import OS161.Data.Tiling
import OS161.Libc.Malloc

namespace OS161.Libc

open OS161.Data

/-- A block of the heap, header included, and the size asked for by the
program that holds it. -/
structure Blk where
  off : Nat
  owner : Option Nat
  deriving DecidableEq, Repr

def Blk.flag (b : Blk) : Nat := if b.owner.isSome then 1 else 0

/-- What memory says about the block at `start`.  The words of a held block
are those the program left there. -/
structure Header (mem data : Nat → Nat) (start prev : Nat) (b : Blk) : Prop where
  prevWord : mem start = prev + MMAGIC
  nextWord : mem (start + 4) = b.off + 4 * b.flag + MMAGIC
  prevAligned : prev % 8 = 0
  aligned : b.off % 8 = 0
  large : 8 ≤ b.off
  fits : ∀ n, b.owner = some n → n + MBLOCKSIZE ≤ b.off
  kept : ∀ n, b.owner = some n → ∀ w, start + 8 ≤ w → w < start + 8 + n →
    mem w = data w

abbrev HeapTiles (mem data : Nat → Nat) : (start prev : Nat) → List Blk →
    (top : Nat) → Prop :=
  Tiles Blk.off (Header mem data)

structure Layout (h : Heap) (data : Nat → Nat) (blocks : List Blk) : Prop where
  tiles : HeapTiles h.mem data h.heapbase 0 blocks h.heaptop
  baseAligned : h.heapbase % 8 = 0
  basePos : 0 < h.heapbase
  topBrk : h.heaptop = h.brk
  topLe : h.heaptop ≤ 2 ^ 31
  /-- The block on top of the heap has room for data. -/
  topRoom : 16 ≤ lastSize Blk.off 16 blocks

/-- No two neighbours are both free. -/
def Coalesced (blocks : List Blk) : Prop :=
  blocks.IsChain fun b next => b.owner.isSome ∨ next.owner.isSome

/-! Reading a header. -/

section Reading

variable {h : Heap} {data : Nat → Nat} {start prev : Nat} {b : Blk}

theorem Blk.flag_le (b : Blk) : b.flag ≤ 1 := by
  unfold Blk.flag
  split <;> decide

theorem Blk.flag_eq_zero : b.flag = 0 ↔ b.owner = none := by
  cases howner : b.owner <;> simp [Blk.flag, howner]

theorem Header.mOk (hdr : Header h.mem data start prev b) : h.mOk start := by
  have hprev := hdr.prevAligned
  have haligned := hdr.aligned
  simp only [Heap.mOk, Heap.mhMagic1, Heap.mhMagic2, hdr.prevWord,
    hdr.nextWord, MMAGIC]
  omega

theorem Header.mhPrevblock (hdr : Header h.mem data start prev b) :
    h.mhPrevblock start = prev / 8 := by
  have hprev := hdr.prevAligned
  simp only [Heap.mhPrevblock, hdr.prevWord, MMAGIC]
  omega

theorem Header.mhNextblock (hdr : Header h.mem data start prev b) :
    h.mhNextblock start = b.off / 8 := by
  have haligned := hdr.aligned
  have hflag := b.flag_le
  simp only [Heap.mhNextblock, hdr.nextWord, MMAGIC]
  omega

theorem Header.mhInuse (hdr : Header h.mem data start prev b) :
    h.mhInuse start = b.flag := by
  have haligned := hdr.aligned
  have hflag := b.flag_le
  simp only [Heap.mhInuse, hdr.nextWord, MMAGIC]
  omega

theorem Header.mNextoff (hdr : Header h.mem data start prev b)
    (hsmall : b.off ≤ 2 ^ 31) : h.mNextoff start = b.off := by
  have haligned := hdr.aligned
  simp only [Heap.mNextoff, hdr.mhNextblock, wrap]
  omega

theorem Header.mNext (hdr : Header h.mem data start prev b)
    (hsmall : start + b.off ≤ 2 ^ 31) : h.mNext start = start + b.off := by
  simp only [Heap.mNext, hdr.mNextoff (by omega), wrap]
  omega

theorem Header.mSize (hdr : Header h.mem data start prev b)
    (hsmall : b.off ≤ 2 ^ 31) : h.mSize start = b.off - 8 := by
  have hlarge := hdr.large
  simp only [Heap.mSize, hdr.mNextoff hsmall, wrap, MBLOCKSIZE]
  omega

theorem Header.mPrev (hdr : Header h.mem data start prev b)
    (hstart : start ≤ 2 ^ 31) (hprev : prev ≤ start) :
    h.mPrev start = start - prev := by
  have haligned := hdr.prevAligned
  simp only [Heap.mPrev, Heap.mPrevoff, hdr.mhPrevblock, wrap]
  omega

end Reading

/-! Carrying a tiling over to a changed memory. -/

section Writing

variable {mem mem' data data' : Nat → Nat} {start prev prev' top : Nat}
variable {b : Blk} {blocks : List Blk}

theorem Header.congr (hdr : Header mem data start prev b)
    (hmem : ∀ w, start ≤ w → w < start + b.off → mem' w = mem w)
    (hdata : ∀ w, start ≤ w → w < start + b.off → data' w = data w) :
    Header mem' data' start prev b := by
  have hlarge := hdr.large
  refine { hdr with prevWord := ?_, nextWord := ?_, kept := ?_ }
  · rw [hmem start (by omega) (by omega), hdr.prevWord]
  · rw [hmem (start + 4) (by omega) (by omega), hdr.nextWord]
  · intro n howner w hlow hhigh
    have hfits := hdr.fits n howner
    simp only [MBLOCKSIZE] at hfits
    rw [hmem w (by omega) (by omega), hdata w (by omega) (by omega)]
    exact hdr.kept n howner w hlow hhigh

theorem HeapTiles.congr (htiles : HeapTiles mem data start prev blocks top)
    (hmem : ∀ w, start ≤ w → w < top → mem' w = mem w)
    (hdata : ∀ w, start ≤ w → w < top → data' w = data w) :
    HeapTiles mem' data' start prev blocks top := by
  refine Tiles.mono htiles ?_
  intro address before block _ hlow hhigh hdr
  apply hdr.congr
  · intro w hle hlt
    exact hmem w (by omega) (by omega)
  · intro w hle hlt
    exact hdata w (by omega) (by omega)

/-- Only the lowest block of a tiling knows what lies below it. -/
theorem HeapTiles.relink (htiles : HeapTiles mem data start prev blocks top)
    (haligned : prev' % 8 = 0)
    (hword : start ≠ top → mem' start = prev' + MMAGIC)
    (hmem : ∀ w, start < w → w < top → mem' w = mem w) :
    HeapTiles mem' data start prev' blocks top := by
  cases blocks with
  | nil => exact htiles
  | cons b rest =>
      obtain ⟨hdr, hrest⟩ := htiles
      have hlarge := hdr.large
      have htop := hrest.top_eq
      refine ⟨?_, HeapTiles.congr hrest ?_ (fun _ _ _ => rfl)⟩
      · refine { hdr with prevWord := ?_, nextWord := ?_, prevAligned := haligned, kept := ?_ }
        · exact hword (by omega)
        · rw [hmem (start + 4) (by omega) (by omega), hdr.nextWord]
        · intro n howner w hlow hhigh
          have hfits := hdr.fits n howner
          simp only [MBLOCKSIZE] at hfits
          rw [hmem w (by omega) (by omega)]
          exact hdr.kept n howner w hlow hhigh
      · intro w hlow hhigh
        exact hmem w (by omega) hhigh

theorem HeapTiles.aligned (htiles : HeapTiles mem data start prev blocks top)
    (hstart : start % 8 = 0) : top % 8 = 0 := by
  induction blocks generalizing start prev with
  | nil => exact htiles ▸ hstart
  | cons b rest ih =>
      have haligned := htiles.1.aligned
      exact ih htiles.2 (by omega)

theorem HeapTiles.lastSize_aligned
    (htiles : HeapTiles mem data start prev blocks top) (hprev : prev % 8 = 0) :
    lastSize Blk.off prev blocks % 8 = 0 := by
  induction blocks generalizing start prev with
  | nil => exact hprev
  | cons b rest ih => exact ih htiles.2 htiles.1.aligned

theorem HeapTiles.start_eq_top
    (htiles : HeapTiles mem data start prev blocks top) :
    start = top ↔ blocks = [] := by
  cases blocks with
  | nil => simpa [Tiles] using htiles
  | cons b rest =>
      have hlarge := htiles.1.large
      have htop := htiles.2.top_eq
      simp only [reduceCtorEq, iff_false]
      omega

theorem HeapTiles.at_block {below above : List Blk}
    (htiles : HeapTiles mem data start prev (below ++ b :: above) top) :
    HeapTiles mem data start prev below (start + span Blk.off below) ∧
      Header mem data (start + span Blk.off below)
        (lastSize Blk.off prev below) b ∧
      HeapTiles mem data (start + span Blk.off below + b.off) b.off above top := by
  obtain ⟨hbelow, hdr, habove⟩ := tiles_append.mp htiles
  exact ⟨hbelow, hdr, habove⟩

theorem HeapTiles.of_block {below above : List Blk} {mh : Nat}
    (hbelow : HeapTiles mem data start prev below mh)
    (hdr : Header mem data mh (lastSize Blk.off prev below) b)
    (habove : HeapTiles mem data (mh + b.off) b.off above top) :
    HeapTiles mem data start prev (below ++ b :: above) top := by
  obtain rfl := hbelow.top_eq
  exact tiles_append.mpr ⟨hbelow, hdr, habove⟩

end Writing

/-! Values of the header fields. -/

section Fields

theorem setBlock_mMkfield {word off flags : Nat} (hword : word % 8 = 0)
    (hoff : off % 8 = 0) (hsmall : off < 2 ^ 32) (hflags : flags < 8) :
    setBlock (word + flags) (off / 8) = off + flags := by
  simp only [setBlock]
  omega

end Fields

/-! The search stops at a free block that is large enough, or walks over all
headers to the top of the heap. -/

section Search

variable {h : Heap} {data : Nat → Nat} {blocks below rest : List Blk}
variable {size : Nat}

def Found (h : Heap) (blocks : List Blk) (size : Nat) : Search → Prop
  | .found mh => ∃ below b above, blocks = below ++ b :: above ∧
      mh = h.heapbase + span Blk.off below ∧ b.owner = none ∧
      size + MBLOCKSIZE ≤ b.off
  | .done i rightprevblock => i = h.heaptop ∧
      rightprevblock = lastSize Blk.off 0 blocks / 8 ∧
      ∀ b ∈ blocks, b.owner = none → b.off < size + MBLOCKSIZE

theorem search_spec (hlayout : Layout h data (below ++ rest))
    (hpassed : ∀ b ∈ below, b.owner = none → b.off < size + MBLOCKSIZE)
    (hturns : h.heaptop - (h.heapbase + span Blk.off below) < turns) :
    Prog.Returns
      (search size turns (h.heapbase + span Blk.off below)
        (lastSize Blk.off 0 below / 8))
      (fun found h' => h' = h ∧ Found h (below ++ rest) size found) h := by
  induction turns generalizing below rest with
  | zero => omega
  | succ turns ih =>
      have htop := hlayout.topLe
      cases rest with
      | nil =>
          have htiles := hlayout.tiles
          have heq := htiles.top_eq
          rw [List.append_nil] at heq
          simp only [search, ↓Prog.wp_bind, ↓Prog.wp_get, ↓Prog.wp_ite,
            if_neg (show ¬h.heapbase + span Blk.off below < h.heaptop by omega),
            ↓Prog.wp_pure, Found, List.append_nil]
          exact ⟨trivial, by omega, trivial, hpassed⟩
      | cons b above =>
          obtain ⟨-, hdr, habove⟩ := hlayout.tiles.at_block
          have hlarge := hdr.large
          have heq := Tiles.top_eq habove
          -- The next turn starts behind this block.
          have hnext (hskipped : b.owner = none → b.off < size + MBLOCKSIZE) :=
            @ih (below ++ [b]) above (by simpa using hlayout)
              (by
                intro other hmem
                rcases List.mem_append.mp hmem with hold | hnew
                · exact hpassed other hold
                · rw [List.mem_singleton.mp hnew]
                  exact hskipped)
              (by simp [span]; omega)
          simp only [span_append, span, Nat.add_zero, lastSize_append, lastSize,
            List.append_assoc, List.singleton_append, ← Nat.add_assoc] at hnext
          simp only [search, ↓Prog.wp_bind, ↓Prog.wp_get, ↓Prog.wp_ite,
            ↓Prog.wp_assert, ↓Prog.wp_pure,
            if_pos (show h.heapbase + span Blk.off below < h.heaptop by omega),
            if_pos hdr.mOk, if_pos hdr.mhPrevblock, hdr.mhInuse,
            hdr.mNextoff (by omega), hdr.mSize (by omega), hdr.mhNextblock]
          rw [show wrap (h.heapbase + span Blk.off below + b.off) =
            h.heapbase + span Blk.off below + b.off by simp only [wrap]; omega]
          split
          case isTrue hheld =>
              exact hnext (fun hfree => absurd (Blk.flag_eq_zero.mpr hfree) hheld)
          case isFalse hfree =>
              split
              case isTrue hsmall =>
                  refine hnext (fun _ => ?_)
                  simp only [MBLOCKSIZE]
                  omega
              case isFalse hsize =>
                  refine ⟨trivial, below, b, above, rfl, rfl, ?_, ?_⟩
                  · exact Blk.flag_eq_zero.mp (by omega)
                  · simp only [MBLOCKSIZE]
                    omega

end Search

/-- The break and the statics that bound the heap stay. -/
structure SameBounds (h h' : Heap) : Prop where
  base : h'.heapbase = h.heapbase
  top : h'.heaptop = h.heaptop
  brk : h'.brk = h.brk

theorem SameBounds.trans {h h' h'' : Heap} (hfirst : SameBounds h h')
    (hsecond : SameBounds h' h'') : SameBounds h h'' :=
  ⟨hsecond.base.trans hfirst.base, hsecond.top.trans hfirst.top,
    hsecond.brk.trans hfirst.brk⟩

theorem Layout.of_tiles {h h' : Heap} {data data' : Nat → Nat}
    {blocks blocks' : List Blk} (hlayout : Layout h data blocks)
    (hbounds : SameBounds h h')
    (hroom : 16 ≤ lastSize Blk.off 16 blocks')
    (htiles : HeapTiles h'.mem data' h.heapbase 0 blocks' h.heaptop) :
    Layout h' data' blocks' := by
  refine ⟨?_, ?_, ?_, ?_, ?_, hroom⟩
  · rw [hbounds.base, hbounds.top]
    exact htiles
  · rw [hbounds.base]
    exact hlayout.baseAligned
  · rw [hbounds.base]
    exact hlayout.basePos
  · rw [hbounds.top, hbounds.brk]
    exact hlayout.topBrk
  · rw [hbounds.top]
    exact hlayout.topLe

/-- Memory changed at the words `ws` only. -/
structure Wrote (ws : List Nat) (h h' : Heap) : Prop extends SameBounds h h' where
  other : ∀ w, w ∉ ws → h'.mem w = h.mem w

theorem Wrote.trans {ws ws' : List Nat} {h h' h'' : Heap} (hfirst : Wrote ws h h')
    (hsecond : Wrote ws' h' h'') : Wrote (ws ++ ws') h h'' := by
  refine ⟨hfirst.toSameBounds.trans hsecond.toSameBounds, ?_⟩
  intro w hw
  simp only [List.mem_append, not_or] at hw
  rw [hsecond.other w hw.2, hfirst.other w hw.1]

theorem Wrote.of_none {ws : List Nat} {h : Heap} : Wrote ws h h :=
  ⟨⟨rfl, rfl, rfl⟩, fun _ _ => rfl⟩

theorem Heap.write_wrote (h : Heap) (address value : Nat) :
    Wrote [address] h (h.write address value) := by
  refine ⟨⟨rfl, rfl, rfl⟩, ?_⟩
  intro w hw
  exact Function.update_of_ne (by simpa using hw) _ _

@[simp] theorem Heap.write_mem_self (h : Heap) (address value : Nat) :
    (h.write address value).mem address = value := by
  simp [Heap.write]

/-- A block that has another above it is known to that one. -/
theorem HeapTiles.prevWord {mem data : Nat → Nat} {blocks : List Blk}
    (htiles : HeapTiles mem data start prev blocks top) (hne : start ≠ top) :
    mem start = prev + MMAGIC := by
  cases blocks with
  | nil => exact absurd htiles hne
  | cons b rest => exact htiles.1.prevWord

section Split

variable {h last : Heap} {data : Nat → Nat} {below above : List Blk} {b : Blk}
variable {size mh off : Nat}

/-- Cutting a free block in two. -/
theorem Layout.cut (hlayout : Layout h data (below ++ b :: above))
    (hmh : h.heapbase + span Blk.off below = mh)
    (haligned : off % 8 = 0) (hlarge : 8 ≤ off) (hroom : off + 16 ≤ b.off)
    (hwrote : Wrote [mh + 4, mh + off, mh + off + 4, mh + b.off] h last)
    (hnext : last.mem (mh + 4) = off + MMAGIC)
    (hnewPrev : last.mem (mh + off) = off + MMAGIC)
    (hnewNext : last.mem (mh + off + 4) = b.off - off + MMAGIC)
    (habovePrev : mh + b.off ≠ h.heaptop →
      last.mem (mh + b.off) = b.off - off + MMAGIC) :
    Layout last data (below ++ ⟨off, none⟩ :: ⟨b.off - off, none⟩ :: above) := by
  obtain ⟨hbelow, hdr, habove⟩ := hlayout.tiles.at_block
  rw [hmh] at hbelow hdr habove
  have hblock := hdr.aligned
  have hmem : ∀ w, w ≠ mh + b.off → w ≠ mh + off → w ≠ mh + off + 4 →
      w ≠ mh + 4 → last.mem w = h.mem w := by
    intro w hnextne hnew hnew' hmhne
    exact hwrote.other w (by simp [*])
  have htopRoom := hlayout.topRoom
  rw [lastSize_append] at htopRoom
  have hlast : 16 ≤ lastSize Blk.off 16
      (below ++ ⟨off, none⟩ :: ⟨b.off - off, none⟩ :: above) := by
    rw [lastSize_append]
    show 16 ≤ lastSize Blk.off (b.off - off) above
    exact le_lastSize Blk.off htopRoom (by omega)
  apply hlayout.of_tiles hwrote.toSameBounds hlast
  have hbelow' : HeapTiles last.mem data h.heapbase 0 below mh :=
    hbelow.congr (fun w _ hlt => hmem w (by omega) (by omega) (by omega) (by omega))
      (fun _ _ _ => rfl)
  refine HeapTiles.of_block hbelow' ?_ ?_
  · refine ⟨?_, hnext, hdr.prevAligned, haligned, hlarge, by simp, by simp⟩
    rw [hmem mh (by omega) (by omega) (by omega) (by omega), hdr.prevWord]
  · refine ⟨⟨hnewPrev, hnewNext, haligned, ?_, ?_, by simp, by simp⟩, ?_⟩
    · simp only
      omega
    · simp only
      omega
    · simp only
      rw [show mh + off + (b.off - off) = mh + b.off by omega]
      exact HeapTiles.relink habove (by omega) habovePrev (fun w hlow _ =>
        hmem w (by omega) (by omega) (by omega) (by omega))

/-- The header of the block that a split cuts off. -/
theorem splitHeader (h : Heap) (mh prev off : Nat) (hprev : prev % 8 = 0)
    (hoff : off % 8 = 0) (hprevSmall : prev < 2 ^ 32) (hoffSmall : off < 2 ^ 32) :
    ∃ h', ((((((h.setPrevblock mh (mMkfield prev)).setPad mh 0).setMagic1 mh
        MMAGIC).setNextblock mh (mMkfield off)).setInuse mh 0).setMagic2 mh
        MMAGIC) = h' ∧ Wrote [mh, mh + 4] h h' ∧
      h'.mem mh = prev + MMAGIC ∧ h'.mem (mh + 4) = off + MMAGIC := by
  refine ⟨_, rfl, ⟨⟨rfl, rfl, rfl⟩, ?_⟩, ?_, ?_⟩
  · intro w hw
    simp only [List.mem_cons, List.not_mem_nil, or_false, not_or] at hw
    simp [Heap.setPrevblock, Heap.setPad, Heap.setMagic1, Heap.setNextblock,
      Heap.setInuse, Heap.setMagic2, Heap.write, hw.1, hw.2]
  · simp [Heap.setPrevblock, Heap.setPad, Heap.setMagic1, Heap.setNextblock,
      Heap.setInuse, Heap.setMagic2, Heap.write, setBlock, setFlag, setMagic,
      mMkfield, MMAGIC]
    omega
  · simp [Heap.setPrevblock, Heap.setPad, Heap.setMagic1, Heap.setNextblock,
      Heap.setInuse, Heap.setMagic2, Heap.write, setBlock, setFlag, setMagic,
      mMkfield, MMAGIC]
    omega

theorem mallocSplit_spec (hlayout : Layout h data (below ++ b :: above))
    (hmh : h.heapbase + span Blk.off below = mh)
    (hfree : b.owner = none) (hsize : size % 8 = 0)
    (hfits : size + MBLOCKSIZE ≤ b.off) :
    Prog.Returns (mallocSplit mh size)
      (fun _ h' => SameBounds h h' ∧ ∃ off split,
        size + MBLOCKSIZE ≤ off ∧ off + span Blk.off split = b.off ∧
        split.length ≤ 1 ∧ (∀ rest ∈ split, rest.owner = none) ∧
        Layout h' data (below ++ ⟨off, none⟩ :: (split ++ above))) h := by
  obtain ⟨hbelow, hdr, habove⟩ := hlayout.tiles.at_block
  rw [hmh] at hbelow hdr habove
  have htopLe := hlayout.topLe
  have haligned := hdr.aligned
  have htop := Tiles.top_eq habove
  have hflag := Blk.flag_eq_zero.mpr hfree
  simp only [MBLOCKSIZE] at hfits
  have hremainder : wrap (b.off - 8 + 2 ^ 32 - size) = b.off - (size + 8) := by
    simp only [wrap]
    omega
  have hwrap : wrap (size + MBLOCKSIZE) = size + 8 := by
    simp only [wrap, MBLOCKSIZE]
    omega
  simp only [mallocSplit, ↓Prog.wp_bind, ↓Prog.wp_get, ↓Prog.wp_assert,
    ↓Prog.wp_ite, ↓Prog.wp_pure, ↓Prog.wp_modify, ↓Prog.wp_when,
    if_pos (show size % MBLOCKSIZE = 0 from hsize), hdr.mSize (by omega),
    hdr.mNext (by omega), hremainder]
  split
  case isTrue hsmall =>
      refine ⟨⟨rfl, rfl, rfl⟩, b.off, [], by simpa [MBLOCKSIZE] using hfits, rfl,
        by simp, by simp, ?_⟩
      cases b
      simp only at hfree
      subst hfree
      exact hlayout
  case isFalse hroom =>
      simp only [MBLOCKSIZE] at hroom
      rw [hwrap]
      generalize hshort : h.setNextblock mh (mMkfield (size + 8)) = short
      have hwrote : Wrote [mh + 4] h short := hshort ▸ h.write_wrote _ _
      have hnext : short.mem (mh + 4) = size + 8 + MMAGIC := by
        rw [← hshort, Heap.setNextblock, Heap.write_mem_self, hdr.nextWord, hflag]
        exact setBlock_mMkfield haligned (by omega) (by omega) (by decide)
      have hmhnew : short.mNext mh = mh + (size + 8) := by
        simp only [Heap.mNext, Heap.mNextoff, Heap.mhNextblock, hnext, MMAGIC, wrap]
        omega
      rw [hmhnew, if_pos (by omega)]
      obtain ⟨cut, hcut, hcutWrote, hcutPrev, hcutNext⟩ := splitHeader short
        (mh + (size + 8)) (size + 8) (b.off - (size + 8)) (by omega) (by omega)
        (by omega) (by omega)
      have hblock : cut.mhNextblock (mh + (size + 8)) =
          mMkfield (b.off - (size + 8)) := by
        simp only [Heap.mhNextblock, hcutNext, MMAGIC, mMkfield]
        omega
      rw [hcut, show cut.heaptop = h.heaptop from hcutWrote.top.trans hwrote.top,
        hblock]
      -- Whether or not a block follows, what lies above knows the new block.
      have hdone : ∀ last : Heap, Wrote [mh + b.off] cut last →
          (mh + b.off ≠ h.heaptop →
            last.mem (mh + b.off) = b.off - (size + 8) + MMAGIC) →
          SameBounds h last ∧ ∃ off split, size + MBLOCKSIZE ≤ off ∧
            off + span Blk.off split = b.off ∧ split.length ≤ 1 ∧ (∀ rest ∈ split, rest.owner = none) ∧
            Layout last data (below ++ ⟨off, none⟩ :: (split ++ above)) := by
        intro last hlast hword
        have hall := (hwrote.trans hcutWrote).trans hlast
        refine ⟨hall.toSameBounds, size + 8, [⟨b.off - (size + 8), none⟩],
          Nat.le_refl _, by simp only [span]; omega, by simp, by simp, ?_⟩
        apply hlayout.cut hmh (by omega) (by omega) (by omega) hall _ _ _ hword
        · rw [hlast.other _ (by simp; omega), hcutWrote.other _ (by simp), hnext]
        · rw [hlast.other _ (by simp; omega), hcutPrev]
        · rw [hlast.other _ (by simp; omega), hcutNext]
      split
      case isTrue hne =>
          apply hdone _ (cut.write_wrote _ _)
          intro _
          rw [Heap.write_mem_self, hcutWrote.other _ (by simp; omega),
            hwrote.other _ (by simp; omega), HeapTiles.prevWord habove hne]
          exact setBlock_mMkfield haligned (by omega) (by omega) (by decide)
      case isFalse heq =>
          exact hdone cut Wrote.of_none (fun hne => absurd hne heq)

end Split

/-- What the program knows of memory once it holds a new block: the block
has whatever words it has. -/
def remember (data mem : Nat → Nat) (ptr size : Nat) : Nat → Nat :=
  fun w => if ptr ≤ w ∧ w < ptr + size then mem w else data w

/-- The pointers the program holds, with the sizes it asked for. -/
def held (base : Nat) (blocks : List Blk) : List (Nat × Nat) :=
  (labelled Blk.off Blk.owner base blocks).map fun entry => (mData entry.1, entry.2)

section Malloc

variable {h : Heap} {data : Nat → Nat} {below above blocks : List Blk} {b : Blk}
variable {size mh n : Nat}

theorem remember_of_outside {mem : Nat → Nat} {ptr w : Nat}
    (hout : w < ptr ∨ ptr + size ≤ w) : remember data mem ptr size w = data w := by
  rw [remember, if_neg (by omega)]

theorem held_middle (base : Nat) (below above : List Blk) (off n : Nat) :
    (held base (below ++ ⟨off, some n⟩ :: above)).Perm
      ((mData (base + span Blk.off below), n) ::
        (held base below ++ held (base + span Blk.off below + off) above)) := by
  simp only [held, labelled_append, labelled, Option.toList_some, List.map_cons,
    List.map_nil, List.singleton_append, List.map_append]
  exact List.perm_middle

theorem held_middle_free (base : Nat) (below above : List Blk) (off : Nat) :
    held base (below ++ ⟨off, none⟩ :: above) =
      held base below ++ held (base + span Blk.off below + off) above := by
  simp [held, labelled_append, labelled]

theorem held_free (start : Nat) (free above : List Blk)
    (hfree : ∀ b ∈ free, b.owner = none) :
    held start (free ++ above) = held (start + span Blk.off free) above := by
  induction free generalizing start with
  | nil => rfl
  | cons b rest ih =>
      have hrest := ih (start + b.off) (fun other hmem => hfree other (by simp [hmem]))
      simp only [held] at hrest
      simp [held, labelled, span, hfree b (by simp), hrest, Nat.add_assoc]

/-- The program is handed a free block. -/
theorem Layout.claim (hlayout : Layout h data (below ++ ⟨off, none⟩ :: above))
    (hmh : h.heapbase + span Blk.off below = mh) (hfits : n + MBLOCKSIZE ≤ off) :
    Layout (h.setInuse mh 1) (remember data (h.setInuse mh 1).mem (mData mh) n)
      (below ++ ⟨off, some n⟩ :: above) := by
  obtain ⟨hbelow, hdr, habove⟩ := hlayout.tiles.at_block
  rw [hmh] at hbelow hdr habove
  have hlarge : 8 ≤ off := hdr.large
  have haligned : off % 8 = 0 := hdr.aligned
  have hwrote : Wrote [mh + 4] h (h.setInuse mh 1) := h.write_wrote _ _
  have htopRoom := hlayout.topRoom
  rw [lastSize_append] at htopRoom
  simp only [MBLOCKSIZE] at hfits
  apply hlayout.of_tiles hwrote.toSameBounds (by rw [lastSize_append]; exact htopRoom)
  have hbelow' : HeapTiles (h.setInuse mh 1).mem
      (remember data (h.setInuse mh 1).mem (mData mh) n) h.heapbase 0 below mh := by
    apply hbelow.congr
    · intro w _ hlt
      exact hwrote.other w (by simp; omega)
    · intro w _ hlt
      exact remember_of_outside (by simp only [mData, MBLOCKSIZE]; omega)
  refine HeapTiles.of_block hbelow' ?_ (HeapTiles.congr habove ?_ ?_)
  · refine ⟨?_, ?_, hdr.prevAligned, haligned, hlarge, ?_, ?_⟩
    · rw [hwrote.other mh (by simp), hdr.prevWord]
    · simp only [Heap.setInuse, Heap.write_mem_self, hdr.nextWord, Blk.flag, setFlag,
        MMAGIC]
      simp
      omega
    · simpa [MBLOCKSIZE] using hfits
    · intro n' hn' w hlow hhigh
      obtain rfl : n = n' := by simpa using hn'
      rw [remember, if_pos (by simp only [mData, MBLOCKSIZE]; omega)]
  · intro w hlow _
    simp only at hlow
    exact hwrote.other w (by simp; omega)
  · intro w hlow _
    simp only at hlow
    exact remember_of_outside (by simp only [mData, MBLOCKSIZE]; omega)

/-- The header of a block on top of the heap. -/
theorem growHeader (h : Heap) (mh prev off : Nat) (hprev : prev % 8 = 0)
    (hoff : off % 8 = 0) (hprevSmall : prev < 2 ^ 32) (hoffSmall : off < 2 ^ 32) :
    ∃ h', ((((((h.setPrevblock mh (prev / 8)).setMagic1 mh MMAGIC).setMagic2 mh
        MMAGIC).setPad mh 0).setInuse mh 1).setNextblock mh (mMkfield off)) = h' ∧
      Wrote [mh, mh + 4] h h' ∧
      h'.mem mh = prev + MMAGIC ∧ h'.mem (mh + 4) = off + 4 + MMAGIC := by
  refine ⟨_, rfl, ⟨⟨rfl, rfl, rfl⟩, ?_⟩, ?_, ?_⟩
  · intro w hw
    simp only [List.mem_cons, List.not_mem_nil, or_false, not_or] at hw
    simp [Heap.setPrevblock, Heap.setPad, Heap.setMagic1, Heap.setNextblock,
      Heap.setInuse, Heap.setMagic2, Heap.write, hw.1, hw.2]
  · simp [Heap.setPrevblock, Heap.setPad, Heap.setMagic1, Heap.setNextblock,
      Heap.setInuse, Heap.setMagic2, Heap.write, setBlock, setFlag, setMagic,
      mMkfield, MMAGIC]
    omega
  · simp [Heap.setPrevblock, Heap.setPad, Heap.setMagic1, Heap.setNextblock,
      Heap.setInuse, Heap.setMagic2, Heap.write, setBlock, setFlag, setMagic,
      mMkfield, MMAGIC]
    omega

/-- The heap reaches further up, to a new block that the program holds. -/
theorem Layout.grow {h h' : Heap} {off : Nat} (hlayout : Layout h data blocks)
    (hbase : h'.heapbase = h.heapbase) (htop : h'.heaptop = h.heaptop + off)
    (hbrk : h'.brk = h.brk + off) (hle : h.heaptop + off ≤ 2 ^ 31)
    (haligned : off % 8 = 0) (hlarge : 16 ≤ off) (hfits : n + MBLOCKSIZE ≤ off)
    (hprev : h'.mem h.heaptop = lastSize Blk.off 0 blocks + MMAGIC)
    (hnext : h'.mem (h.heaptop + 4) = off + 4 + MMAGIC)
    (hother : ∀ w, w < h.heaptop → h'.mem w = h.mem w) :
    Layout h' (remember data h'.mem (mData h.heaptop) n)
      (blocks ++ [⟨off, some n⟩]) := by
  have hbelow : HeapTiles h'.mem (remember data h'.mem (mData h.heaptop) n)
      h.heapbase 0 blocks h.heaptop := by
    apply hlayout.tiles.congr
    · intro w _ hlt
      exact hother w hlt
    · intro w _ hlt
      exact remember_of_outside (by simp only [mData, MBLOCKSIZE]; omega)
  constructor
  · rw [hbase, htop]
    refine HeapTiles.of_block hbelow ?_ rfl
    refine ⟨hprev, ?_, ?_, haligned, Nat.le_trans (by decide) hlarge, ?_, ?_⟩
    · rw [hnext]
      rfl
    · exact hlayout.tiles.lastSize_aligned (by decide)
    · simpa using hfits
    · intro n' hn' w hlow hhigh
      obtain rfl : n = n' := by simpa using hn'
      rw [remember, if_pos (by simp only [mData, MBLOCKSIZE]; omega)]
  · rw [hbase]
    exact hlayout.baseAligned
  · rw [hbase]
    exact hlayout.basePos
  · rw [htop, hbrk, hlayout.topBrk]
  · omega
  · rw [lastSize_append]
    exact hlarge

/-- The two ways a call of `malloc` may end the process. -/
def SbrkFailed (exit : Exit) : Prop :=
  exit = .initialSbrkFailed ∨ exit = .alignSbrkFailed

/-- The heap once `malloc` has set it up. -/
def Heap.ready (h : Heap) : Heap :=
  if h.heapbase = 0 then
    let base := (h.brk + 7) / MBLOCKSIZE * MBLOCKSIZE
    { h with heapbase := base, heaptop := base, brk := base }
  else h

theorem mallocInit_spec (hbase : h.heapbase = 0) (htop : h.heaptop = 0)
    (hpos : 0 < h.brk) (hle : h.brk ≤ 2 ^ 31) :
    Prog.wp (mallocInit grants) (fun _ h' => h' = h.ready) (fun _ _ => False)
      (fun exit => SbrkFailed exit ∧ (grants.initial = false ∨ grants.align = false)) h := by
  have hstays : wrap (h.brk + 0) = h.brk := by
    simp only [wrap]
    omega
  simp only [mallocInit, sbrk, ↓Prog.wp_bind, ↓Prog.wp_get, ↓Prog.wp_assert,
    if_pos (And.intro hbase htop), ↓Prog.wp_ite]
  split
  case isTrue =>
      simp only [↓Prog.wp_bind, ↓Prog.wp_modify, ↓Prog.wp_pure, ↓Prog.wp_assert, ↓Prog.wp_get,
        if_pos (show h.brk ≠ 0 by omega), ↓Prog.wp_ite, hstays]
      split
      case isTrue hunaligned =>
          have hwrap : wrap (h.brk + (MBLOCKSIZE - h.brk % MBLOCKSIZE)) =
              (h.brk + 7) / MBLOCKSIZE * MBLOCKSIZE := by
            simp only [wrap, MBLOCKSIZE] at hunaligned ⊢
            omega
          split
          case isTrue hgrant =>
              simp only [if_true]
              rw [Heap.ready, if_pos hbase]
              simp only [hwrap]
          case isFalse hrefused =>
              refine ⟨Or.inr rfl, Or.inr ?_⟩
              by_contra hgranted
              refine hrefused ⟨by simpa using hgranted, ?_⟩
              simp only [hwrap]
              simp only [MBLOCKSIZE] at hunaligned ⊢
              omega
      case isFalse haligned =>
          rw [Heap.ready, if_pos hbase]
          have hsame : (h.brk + 7) / MBLOCKSIZE * MBLOCKSIZE = h.brk := by
            simp only [MBLOCKSIZE] at haligned ⊢
            omega
          simp only [hsame]
  case isFalse hrefused =>
      refine ⟨Or.inl rfl, Or.inl ?_⟩
      by_contra hgranted
      exact hrefused ⟨by simpa using hgranted, by omega, by omega⟩

/-- The heap before the first call of `malloc`, or one that is laid out. -/
def Sound (h : Heap) (data : Nat → Nat) (blocks : List Blk) : Prop :=
  (h.heapbase = 0 ∧ h.heaptop = 0 ∧ 0 < h.brk ∧ h.brk ≤ 2 ^ 31 ∧ blocks = []) ∨
    Layout h data blocks

theorem Layout.ready (hlayout : Layout h data blocks) : h.ready = h :=
  if_neg (Nat.ne_of_gt hlayout.basePos)

theorem Sound.ready (hsound : Sound h data blocks) :
    Layout h.ready data blocks ∧ held h.ready.heapbase blocks = held h.heapbase blocks := by
  rcases hsound with ⟨hbase, htop, hpos, hle, rfl⟩ | hlayout
  · rw [Heap.ready, if_pos hbase]
    refine ⟨⟨rfl, ?_, ?_, rfl, ?_, by decide⟩, rfl⟩
    · exact Nat.mul_mod_left _ _
    · simp only [MBLOCKSIZE]
      omega
    · simp only [MBLOCKSIZE]
      omega
  · rw [hlayout.ready]
    exact ⟨hlayout, rfl⟩

/-- How the first call of `malloc` ends the process: the kernel refuses to set up a heap. -/
def SetupFailed (h : Heap) (grants : Grants) (exit : Exit) : Prop :=
  SbrkFailed exit ∧ h.heapbase = 0 ∧ (grants.initial = false ∨ grants.align = false)

theorem mallocSetup_spec (hsound : Sound h data blocks) :
    Prog.wp (Prog.when (h.heapbase = 0) (mallocInit grants)) (fun _ h' => h' = h.ready)
      (fun _ _ => False) (SetupFailed h grants) h := by
  rcases hsound with ⟨hbase, htop, hpos, hle, rfl⟩ | hlayout
  · rw [Prog.wp_when, if_pos hbase]
    exact Prog.wp_mono (mallocInit_spec hbase htop hpos hle) (fun _ _ h => h) (fun _ _ h => h)
      (fun _ hfailed => ⟨hfailed.1, hbase, hfailed.2⟩)
  · rw [Prog.wp_when, if_neg (Nat.ne_of_gt hlayout.basePos)]
    exact hlayout.ready.symm

theorem Coalesced.claim {split : List Blk}
    (hcoalesced : Coalesced (below ++ b :: above)) (hfree : b.owner = none)
    (hsplit : split.length ≤ 1) :
    Coalesced (below ++ ⟨off, some n⟩ :: (split ++ above)) := by
  unfold Coalesced at *
  obtain ⟨hbelow, hrest, hjoin⟩ := List.isChain_append.mp hcoalesced
  have habove : above.IsChain fun b next => b.owner.isSome ∨ next.owner.isSome :=
    hrest.tail
  refine List.isChain_append.mpr ⟨hbelow, ?_, by simp⟩
  match split, hsplit with
  | [], _ => cases above <;> simp_all
  | [rest], _ =>
      cases above with
      | nil => simp
      | cons next above =>
          have hnext : b.owner.isSome ∨ next.owner.isSome := by simp_all
          simp_all

theorem Coalesced.grow (hcoalesced : Coalesced blocks) :
    Coalesced (blocks ++ [⟨off, some n⟩]) := by
  refine List.isChain_append.mpr ⟨hcoalesced, List.isChain_singleton _, ?_⟩
  intro b _ next hnext
  obtain rfl : ⟨off, some n⟩ = next := by simpa using hnext
  exact Or.inr rfl

/-- The size that `malloc` looks for. -/
def rounded (size : Nat) : Nat := wrap (size + MBLOCKSIZE - 1) / MBLOCKSIZE * MBLOCKSIZE

theorem rounded_aligned (size : Nat) : rounded size % 8 = 0 := Nat.mul_mod_left _ _

theorem rounded_lt (size : Nat) : rounded size < 2 ^ 32 := by
  simp only [rounded, wrap, MBLOCKSIZE]
  omega

/-- Rounding up wraps to nothing or covers the size. -/
theorem rounded_covers (hsize : size < 2 ^ 32) (hpos : 0 < rounded size) :
    size ≤ rounded size := by
  simp only [rounded, wrap, MBLOCKSIZE] at hpos ⊢
  omega

/-- No free block takes a request. -/
def NoHole (blocks : List Blk) (need : Nat) : Prop :=
  ∀ b ∈ blocks, b.owner = none → b.off < need + MBLOCKSIZE

/-- A new block for the program, or `NULL` and the heap as it was. -/
def Handed (h : Heap) (data : Nat → Nat) (blocks : List Blk) (ptr size : Nat) (h' : Heap) :
    Prop :=
  if ptr = 0 then h' = h.ready ∧ NoHole blocks (rounded size)
  else ∃ blocks', Layout h' (remember data h'.mem ptr size) blocks' ∧ Coalesced blocks' ∧
    (held h'.heapbase blocks').Perm ((ptr, size) :: held h.heapbase blocks)

/-- What one call of `malloc` does: a free block that takes the rounded size must take the
size, and where there is none and the break moves, it must move up by the rounded size and
a header. -/
theorem malloc_spec (grants : Grants) (hsound : Sound h data blocks) (hcoalesced : Coalesced blocks)
    (hsize : size < 2 ^ 32) (hcovers : ¬ NoHole blocks (rounded size) → size ≤ rounded size)
    (hgrows : NoHole blocks (rounded size) →
      breakMoves h.ready grants.grow (wrap (rounded size + MBLOCKSIZE)) →
      0 < rounded size ∧ h.ready.brk + (rounded size + MBLOCKSIZE) < 2 ^ 32) :
    Prog.wp (malloc grants size)
      (fun ptr h' => Handed h data blocks ptr size h') (fun _ _ => False) (SetupFailed h grants)
      h := by
  simp only [malloc, Handed, ↓Prog.wp_bind, ↓Prog.wp_get]
  refine Prog.wp_mono (mallocSetup_spec hsound) ?_ (fun _ _ h => h) (fun _ h => h)
  obtain ⟨hlayout, hheld⟩ := hsound.ready
  rintro _ h₁ hready
  rw [← hready] at hlayout hheld hgrows ⊢
  have hbasePos := hlayout.basePos
  have htopEq := hlayout.tiles.top_eq
  have htopLe := hlayout.topLe
  have haligned := rounded_aligned size
  have hbound := rounded_lt size
  have hcoverable := rounded_covers hsize
  simp only [↓Prog.wp_assert,
    if_pos (show ¬(h₁.heapbase = 0 ∨ h₁.heaptop = 0 ∨ h₁.heapbase > h₁.heaptop) by
      omega), show wrap (size + MBLOCKSIZE - 1) / MBLOCKSIZE * MBLOCKSIZE = rounded size from rfl]
  generalize rounded size = need at *
  have hsearch := @search_spec h₁ data [] blocks need (h₁.heaptop - h₁.heapbase + 1)
    hlayout (by simp) (by simp [span])
  simp only [span, Nat.add_zero, lastSize, Nat.zero_div, List.nil_append] at hsearch
  refine Prog.wp_mono hsearch ?_ (fun _ _ h => h.elim) (fun _ h => h.elim)
  rintro found h₂ ⟨hsame, hfound⟩
  obtain rfl : h₁ = h₂ := hsame.symm
  cases found with
  | found mh =>
      obtain ⟨below, b, above, rfl, hmh, hfree, hfits⟩ := hfound
      have hcovered : size ≤ need := by
        refine hcovers (fun hnone => ?_)
        have hsmall := hnone b (by simp) hfree
        omega
      simp only [↓Prog.wp_bind]
      refine Prog.wp_mono (mallocSplit_spec hlayout hmh.symm hfree haligned hfits) ?_
        (fun _ _ h => h.elim) (fun _ h => h.elim)
      rintro _ h₂ ⟨hbounds, off, split, hoff, htotal, hlength, hsplitFree, hlayout₂⟩
      have hmh₂ : h₂.heapbase + span Blk.off below = mh := by
        rw [hbounds.base, hmh]
      simp only [↓Prog.wp_modify, ↓Prog.wp_pure,
        if_neg (show mData mh ≠ 0 by simp [mData, MBLOCKSIZE])]
      refine ⟨_, hlayout₂.claim hmh₂ (by omega),
        hcoalesced.claim hfree hlength, ?_⟩
      rw [← hheld, show (h₂.setInuse mh 1).heapbase = h₁.heapbase from hbounds.base]
      refine (held_middle _ _ _ _ _).trans ?_
      rw [held_free _ _ _ hsplitFree, Nat.add_assoc _ off, htotal]
      cases b
      simp only at hfree
      rw [hfree, held_middle_free, ← hmh]
  | done i rightprevblock =>
      obtain ⟨rfl, rfl, hnone⟩ := hfound
      simp only [↓Prog.wp_bind, ↓Prog.wp_assert, if_true, mallocSbrk, sbrk,
        ↓Prog.wp_get, ↓Prog.wp_ite]
      split
      case isTrue hgrant =>
          obtain ⟨hneedPos, hfits⟩ := hgrows hnone hgrant
          have hcovered := hcoverable hneedPos
          have hwrap : wrap (need + MBLOCKSIZE) = need + 8 := by
            simp only [wrap, MBLOCKSIZE] at hfits ⊢
            omega
          have hbrk : wrap (h₁.brk + (need + 8)) = h₁.brk + (need + 8) := by
            simp only [wrap, MBLOCKSIZE] at hfits ⊢
            omega
          obtain ⟨-, -, hgrant⟩ := hgrant
          rw [hwrap, hbrk] at hgrant
          simp only [↓Prog.wp_bind, ↓Prog.wp_modify, ↓Prog.wp_pure, ↓Prog.wp_get,
            ↓Prog.wp_assert, if_pos hlayout.topBrk.symm, hwrap, hbrk,
            if_neg (show mData h₁.brk ≠ 0 by simp [mData, MBLOCKSIZE])]
          rw [← hlayout.topBrk]
          rw [← hlayout.topBrk] at hgrant
          have hdivides := hlayout.tiles.lastSize_aligned (by decide)
          have hlast := lastSize_le Blk.off 0 blocks
          generalize hbigger : ({ h₁ with
            brk := h₁.heaptop + (need + 8)
            heaptop := wrap (h₁.heaptop + (need + 8)) } : Heap) = bigger
          obtain ⟨grown, hgrown, hwrote, hprev, hnext⟩ := growHeader bigger
            h₁.heaptop (lastSize Blk.off 0 blocks) (need + 8) hdivides (by omega)
            (by omega) (by omega)
          rw [hgrown]
          have htop : bigger.heaptop = h₁.heaptop + (need + 8) := by
            rw [← hbigger]
            simp only [wrap]
            omega
          refine ⟨blocks ++ [⟨need + 8, some size⟩], ?_, hcoalesced.grow, ?_⟩
          · apply hlayout.grow (hwrote.base.trans (by rw [← hbigger]))
              (hwrote.top.trans htop) _ hgrant (by omega) (by omega)
              (by simp only [MBLOCKSIZE]; omega) hprev hnext
            · intro w hlt
              rw [hwrote.other w (by simp; omega), ← hbigger]
            · rw [hwrote.brk, ← hbigger, hlayout.topBrk]
          · rw [← hheld, htopEq,
              show grown.heapbase = h₁.heapbase from hwrote.base.trans (by rw [← hbigger])]
            refine (held_middle _ _ _ _ _).trans ?_
            simp [held, labelled]
      case isFalse =>
          simp only [↓Prog.wp_pure, if_true]
          exact ⟨trivial, hnone⟩

end Malloc

section Free

variable {h last : Heap} {data : Nat → Nat} {below above : List Blk} {b next : Blk}
variable {mh n : Nat}

theorem deadbeefWords_bounds (h : Heap) (x n : Nat) :
    SameBounds h (deadbeefWords h x n) := by
  induction n with
  | zero => exact ⟨rfl, rfl, rfl⟩
  | succ n ih => exact ⟨ih.base, ih.top, ih.brk⟩

theorem deadbeefWords_other {w : Nat} (hout : w < x ∨ x + 4 * n ≤ w) :
    (deadbeefWords h x n).mem w = h.mem w := by
  induction n with
  | zero => rfl
  | succ n ih =>
      rw [deadbeefWords, (Heap.write_wrote _ _ _).other w (by simp; omega)]
      exact ih (by omega)

/-- The program gives a block back and its words are wiped. -/
theorem Layout.release (hlayout : Layout h data (below ++ ⟨off, some n⟩ :: above))
    (hmh : h.heapbase + span Blk.off below = mh)
    (hbounds : SameBounds h last) (hnext : last.mem (mh + 4) = off + MMAGIC)
    (hother : ∀ w, w ≠ mh + 4 → w < mh + 8 ∨ mh + off ≤ w → last.mem w = h.mem w) :
    Layout last data (below ++ ⟨off, none⟩ :: above) := by
  obtain ⟨hbelow, hdr, habove⟩ := hlayout.tiles.at_block
  rw [hmh] at hbelow hdr habove
  have hlarge : 8 ≤ off := hdr.large
  have htopRoom := hlayout.topRoom
  rw [lastSize_append] at htopRoom
  apply hlayout.of_tiles hbounds (by rw [lastSize_append]; exact htopRoom)
  have hbelow' : HeapTiles last.mem data h.heapbase 0 below mh :=
    hbelow.congr (fun w _ hlt => hother w (by omega) (by omega)) (fun _ _ _ => rfl)
  refine HeapTiles.of_block hbelow' ?_ (HeapTiles.congr habove ?_ (fun _ _ _ => rfl))
  · refine ⟨?_, hnext, hdr.prevAligned, hdr.aligned, hlarge, by simp, by simp⟩
    rw [hother mh (by omega) (by omega), hdr.prevWord]
  · intro w hlow _
    simp only at hlow
    exact hother w (by omega) (by omega)

/-- Two free neighbours become one block. -/
theorem Layout.merge (hlayout : Layout h data (below ++ b :: next :: above))
    (hmh : h.heapbase + span Blk.off below = mh)
    (hbounds : SameBounds h last)
    (hnext : last.mem (mh + 4) = b.off + next.off + MMAGIC)
    (habovePrev : mh + b.off + next.off ≠ h.heaptop →
      last.mem (mh + b.off + next.off) = b.off + next.off + MMAGIC)
    (hother : ∀ w, w ≠ mh + 4 → w ≠ mh + b.off + next.off →
      w < mh + b.off ∨ mh + b.off + 8 ≤ w → last.mem w = h.mem w) :
    Layout last data (below ++ ⟨b.off + next.off, none⟩ :: above) := by
  obtain ⟨hbelow, hdr, hdrNext, habove⟩ := hlayout.tiles.at_block
  rw [hmh] at hbelow hdr hdrNext habove
  have hlarge := hdr.large
  have hlargeNext := hdrNext.large
  have haligned := hdr.aligned
  have halignedNext := hdrNext.aligned
  have htopRoom := hlayout.topRoom
  rw [lastSize_append] at htopRoom
  have hlast : 16 ≤ lastSize Blk.off 16 (below ++ ⟨b.off + next.off, none⟩ :: above) := by
    rw [lastSize_append]
    exact Nat.le_trans htopRoom (lastSize_mono Blk.off (Nat.le_add_left _ _) above)
  apply hlayout.of_tiles hbounds hlast
  have hbelow' : HeapTiles last.mem data h.heapbase 0 below mh :=
    hbelow.congr (fun w _ hlt => hother w (by omega) (by omega) (by omega))
      (fun _ _ _ => rfl)
  refine HeapTiles.of_block hbelow' ?_ ?_
  · refine ⟨?_, hnext, hdr.prevAligned, ?_, ?_, by simp, by simp⟩
    · rw [hother mh (by omega) (by omega) (by omega), hdr.prevWord]
    · simp only
      omega
    · simp only
      omega
  · simp only [← Nat.add_assoc]
    exact HeapTiles.relink habove (by omega) habovePrev
      (fun w hlow _ => hother w (by omega) (by omega) (by omega))

theorem mallocTrymerge_spec (hlayout : Layout h data (below ++ b :: next :: above))
    (hmh : h.heapbase + span Blk.off below = mh) :
    Prog.Returns (mallocTrymerge mh (mh + b.off))
      (fun _ h' => SameBounds h h' ∧
        if b.owner = none ∧ next.owner = none then
          Layout h' data (below ++ ⟨b.off + next.off, none⟩ :: above)
        else h' = h) h := by
  obtain ⟨-, hdr, hdrNext, habove⟩ := hlayout.tiles.at_block
  rw [hmh] at hdr hdrNext habove
  have htopLe := hlayout.topLe
  have htop := Tiles.top_eq habove
  have hlarge := hdr.large
  have hlargeNext := hdrNext.large
  have haligned := hdr.aligned
  have halignedNext := hdrNext.aligned
  simp only [mallocTrymerge, ↓Prog.wp_bind, ↓Prog.wp_get, ↓Prog.wp_assert,
    ↓Prog.wp_ite, ↓Prog.wp_pure, ↓Prog.wp_modify, ↓Prog.wp_when, mallocDeadbeef,
    hdr.mhNextblock, hdrNext.mhPrevblock, if_true, hdr.mhInuse, hdrNext.mhInuse,
    hdrNext.mNext (by omega), hdr.mSize (by omega), hdrNext.mSize (by omega)]
  split
  case isTrue hheld =>
      rw [if_neg (by simp only [← Blk.flag_eq_zero]; omega)]
      exact ⟨⟨rfl, rfl, rfl⟩, trivial⟩
  case isFalse hfree =>
      have hboth : b.owner = none ∧ next.owner = none := by
        simp only [← Blk.flag_eq_zero]
        omega
      have hflag := Blk.flag_eq_zero.mpr hboth.1
      have hsum : wrap (MBLOCKSIZE + (b.off - 8) + MBLOCKSIZE + (next.off - 8)) =
          b.off + next.off := by
        simp only [wrap, MBLOCKSIZE]
        omega
      simp only [if_pos hboth]
      rw [hsum]
      generalize hlong : h.setNextblock mh (mMkfield (b.off + next.off)) = long
      have hwrote : Wrote [mh + 4] h long := hlong ▸ h.write_wrote _ _
      have hword : long.mem (mh + 4) = b.off + next.off + MMAGIC := by
        rw [← hlong, Heap.setNextblock, Heap.write_mem_self, hdr.nextWord, hflag]
        exact setBlock_mMkfield haligned (by omega) (by omega) (by decide)
      have hblock : long.mhNextblock mh = mMkfield (b.off + next.off) := by
        simp only [Heap.mhNextblock, hword, MMAGIC, mMkfield]
        omega
      rw [show long.heaptop = h.heaptop from hwrote.top, hblock]
      -- The old header is wiped after the block above was told.
      have hdone : ∀ last : Heap, Wrote [mh + b.off + next.off] long last →
          (mh + b.off + next.off ≠ h.heaptop →
            last.mem (mh + b.off + next.off) = b.off + next.off + MMAGIC) →
          SameBounds h (deadbeefWords last (mh + b.off) (MBLOCKSIZE / 4)) ∧
            Layout (deadbeefWords last (mh + b.off) (MBLOCKSIZE / 4)) data
              (below ++ ⟨b.off + next.off, none⟩ :: above) := by
        intro last hlast hprev
        have hbounds := (hwrote.trans hlast).toSameBounds.trans
          (deadbeefWords_bounds last (mh + b.off) (MBLOCKSIZE / 4))
        have hwiped : ∀ w, w < mh + b.off ∨ mh + b.off + 8 ≤ w →
            (deadbeefWords last (mh + b.off) (MBLOCKSIZE / 4)).mem w = last.mem w :=
          fun w hout => deadbeefWords_other hout
        refine ⟨hbounds, hlayout.merge hmh hbounds ?_ ?_ ?_⟩
        · rw [hwiped _ (by omega), hlast.other _ (by simp; omega), hword]
        · intro hne
          rw [hwiped _ (by omega), hprev hne]
        · intro w hmhne hnextne hout
          rw [hwiped w hout, hlast.other w (by simpa using hnextne),
            hwrote.other w (by simpa using hmhne)]
      split
      case isTrue hne =>
          apply hdone _ (long.write_wrote _ _)
          intro _
          rw [Heap.write_mem_self, hwrote.other _ (by simp; omega),
            HeapTiles.prevWord habove hne]
          exact setBlock_mMkfield halignedNext (by omega) (by omega) (by decide)
      case isFalse heq =>
          exact hdone long Wrote.of_none (fun hne => absurd hne heq)

/-- The first merge of `free`: with the block above. -/
theorem freeForward_spec (hlayout : Layout h data (below ++ ⟨off, none⟩ :: above))
    (hmh : h.heapbase + span Blk.off below = mh) (hcoalesced : Coalesced above) :
    Prog.Returns (Prog.when (mh + off ≠ h.heaptop) (mallocTrymerge mh (mh + off)))
      (fun _ h' => SameBounds h h' ∧ ∃ off' above',
        Layout h' data (below ++ ⟨off', none⟩ :: above') ∧
        Coalesced (⟨off', none⟩ :: above') ∧
        held (mh + off') above' = held (mh + off) above) h := by
  rw [Prog.Returns, Prog.wp_when]
  cases above with
  | nil =>
      obtain ⟨-, -, habove⟩ := hlayout.tiles.at_block
      rw [hmh] at habove
      have hend : mh + off = h.heaptop := habove
      rw [if_neg (not_not.mpr hend)]
      exact ⟨⟨rfl, rfl, rfl⟩, off, [], hlayout, List.isChain_singleton _, rfl⟩
  | cons next above =>
      obtain ⟨-, -, habove⟩ := hlayout.tiles.at_block
      rw [hmh] at habove
      rw [if_pos (fun heq => by simpa using (HeapTiles.start_eq_top habove).mp heq)]
      refine (mallocTrymerge_spec hlayout hmh).mono ?_
      rintro _ h' ⟨hbounds, hmerged⟩
      refine ⟨hbounds, ?_⟩
      cases howner : next.owner with
      | none =>
          rw [if_pos ⟨rfl, howner⟩] at hmerged
          refine ⟨off + next.off, above, hmerged, ?_, ?_⟩
          · cases above with
            | nil => exact List.isChain_singleton _
            | cons after above =>
                unfold Coalesced at hcoalesced ⊢
                simpa [howner] using hcoalesced
          · simp [held, labelled, howner, Nat.add_assoc]
      | some n =>
          rw [if_neg (by simp [howner])] at hmerged
          subst hmerged
          refine ⟨off, next :: above, hlayout, ?_, rfl⟩
          unfold Coalesced at hcoalesced ⊢
          simpa [howner] using hcoalesced

/-- The second merge of `free`: with the block below. -/
theorem freeBackward_spec (hlayout : Layout h data (below ++ ⟨off, none⟩ :: above))
    (hmh : h.heapbase + span Blk.off below = mh) (hbelow : Coalesced below)
    (habove : Coalesced (⟨off, none⟩ :: above)) :
    Prog.Returns (Prog.when (mh ≠ h.heapbase) (mallocTrymerge (h.mPrev mh) mh))
      (fun _ h' => SameBounds h h' ∧ ∃ blocks', Layout h' data blocks' ∧
        Coalesced blocks' ∧
        held h.heapbase blocks' =
          held h.heapbase (below ++ ⟨off, none⟩ :: above)) h := by
  rw [Prog.Returns, Prog.wp_when]
  rcases List.eq_nil_or_concat below with rfl | ⟨lower, b, rfl⟩
  · rw [if_neg (by simpa [span] using hmh.symm)]
    exact ⟨⟨rfl, rfl, rfl⟩, _, hlayout, habove, rfl⟩
  · simp only [List.concat_eq_append, span_append, span, Nat.add_zero] at *
    obtain ⟨-, hdr, -⟩ := hlayout.tiles.at_block
    have htop := hlayout.tiles.top_eq
    have htopLe := hlayout.topLe
    simp only [span_append, span, Nat.add_zero, hmh, lastSize_append, lastSize] at hdr htop
    have hlayout' : Layout h data (lower ++ b :: ⟨off, none⟩ :: above) := by
      simpa using hlayout
    have hlarge := hlayout'.tiles.at_block.2.1.large
    have hprev : h.mPrev mh = h.heapbase + span Blk.off lower := by
      rw [hdr.mPrev (by omega) (by omega)]
      omega
    rw [if_pos (by omega), hprev]
    have hmerge := mallocTrymerge_spec hlayout' rfl
    rw [show h.heapbase + span Blk.off lower + b.off = mh by omega] at hmerge
    refine hmerge.mono ?_
    rintro _ h' ⟨hbounds, hmerged⟩
    refine ⟨hbounds, ?_⟩
    obtain ⟨hlower, hlast, hjoin⟩ := List.isChain_append.mp hbelow
    cases howner : b.owner with
    | none =>
        rw [if_pos ⟨howner, rfl⟩] at hmerged
        refine ⟨_, hmerged, ?_, ?_⟩
        · refine List.isChain_append.mpr ⟨hlower, ?_, ?_⟩
          · unfold Coalesced at habove
            cases above with
            | nil => exact List.isChain_singleton _
            | cons after above => simpa using habove
          · intro before hbefore _ hhead
            have hfull := hjoin before hbefore b (by simp)
            simp only [howner, Option.isSome_none, Bool.false_eq_true, or_false] at hfull
            exact Or.inl hfull
        · rw [held_middle_free, List.append_assoc, List.singleton_append,
            show b = ⟨b.off, none⟩ from congrArg (Blk.mk b.off) howner, held_middle_free]
          simp [held, labelled, Nat.add_assoc]
    | some n =>
        rw [if_neg (by simp [howner])] at hmerged
        subst hmerged
        refine ⟨_, hlayout, ?_, rfl⟩
        refine List.isChain_append.mpr ⟨hbelow, habove, ?_⟩
        intro before hbefore _ _
        obtain rfl : b = before := by simpa using hbefore
        simp [howner]

/-- The data of a block starts below the top of the heap. -/
theorem Layout.below_top (hlayout : Layout h data (below ++ b :: above)) :
    h.heapbase + span Blk.off below + 16 ≤ h.heaptop := by
  obtain ⟨-, hdr, habove⟩ := hlayout.tiles.at_block
  have hlarge := hdr.large
  have htop := Tiles.top_eq habove
  have htopRoom := hlayout.topRoom
  rw [lastSize_append] at htopRoom
  cases above with
  | nil =>
      have hlast : 16 ≤ b.off := htopRoom
      simp only [span] at htop
      omega
  | cons next above =>
      have hlargeNext := habove.1.large
      simp only [span] at htop
      omega

/-- What one call of `free` does with a pointer the program holds. -/
theorem free_spec (hlayout : Layout h data blocks) (hcoalesced : Coalesced blocks)
    (hptr : (ptr, n) ∈ held h.heapbase blocks) :
    Prog.Returns (free ptr)
      (fun _ h' => ∃ blocks', Layout h' data blocks' ∧ Coalesced blocks' ∧
        (held h'.heapbase blocks').Perm ((held h.heapbase blocks).erase (ptr, n))) h := by
  obtain ⟨⟨mh, size⟩, hlabelled, hentry⟩ := List.mem_map.mp hptr
  obtain ⟨rfl, rfl⟩ : mData mh = ptr ∧ size = n := Prod.mk.inj hentry
  obtain ⟨below, b, above, rfl, hmh, howner⟩ := mem_labelled.mp hlabelled
  obtain ⟨off, _⟩ := b
  obtain rfl : _ = some size := howner
  obtain ⟨-, hdr, habove⟩ := hlayout.tiles.at_block
  rw [← hmh] at hdr habove
  have hbasePos := hlayout.basePos
  have hbelowTop := hlayout.below_top
  rw [← hmh] at hbelowTop
  have hlarge : 8 ≤ off := hdr.large
  have haligned : off % 8 = 0 := hdr.aligned
  have htop := Tiles.top_eq habove
  have htopLe := hlayout.topLe
  simp only at htop
  have hback : wrap (mData mh + 2 ^ 32 - MBLOCKSIZE) = mh := by
    simp only [wrap, mData, MBLOCKSIZE]
    omega
  obtain ⟨hbelowCoalesced, hrest, -⟩ := List.isChain_append.mp hcoalesced
  unfold free
  dsimp only
  rw [hback]
  simp only [↓Prog.wp_bind, ↓Prog.wp_get, ↓Prog.wp_assert,
    ↓Prog.wp_modify, mallocDeadbeef, if_pos hdr.mOk, hdr.mhInuse,
    if_neg (show mData mh ≠ 0 by simp [mData, MBLOCKSIZE]),
    if_pos (show ¬(h.heapbase = 0 ∨ h.heaptop = 0 ∨ h.heapbase > h.heaptop) by omega),
    if_pos (show ¬(mData mh < h.heapbase ∨ mData mh ≥ h.heaptop) by
      simp only [mData, MBLOCKSIZE]; omega),
    if_pos (show (⟨off, some size⟩ : Blk).flag ≠ 0 by simp [Blk.flag])]
  have hmarked : Wrote [mh + 4] h (h.setInuse mh 0) := h.write_wrote _ _
  have hword : (h.setInuse mh 0).mem (mh + 4) = off + MMAGIC := by
    simp only [Heap.setInuse, Heap.write_mem_self, hdr.nextWord, Blk.flag, setFlag, MMAGIC]
    simp
    omega
  have hsize : (h.setInuse mh 0).mSize mh = off - 8 := by
    simp only [Heap.mSize, Heap.mNextoff, Heap.mhNextblock, hword, wrap, MMAGIC, MBLOCKSIZE]
    omega
  rw [hsize]
  generalize hwiped : deadbeefWords (h.setInuse mh 0) (mData mh) ((off - 8) / 4) = wiped
  have hbounds : SameBounds h wiped :=
    hwiped ▸ hmarked.toSameBounds.trans (deadbeefWords_bounds _ _ _)
  have houtside : ∀ w, w < mh + 8 ∨ mh + off ≤ w →
      wiped.mem w = (h.setInuse mh 0).mem w := by
    intro w hout
    rw [← hwiped]
    exact deadbeefWords_other (by simp only [mData, MBLOCKSIZE]; omega)
  have hreleased : Layout wiped data (below ++ ⟨off, none⟩ :: above) := by
    apply hlayout.release hmh.symm hbounds
    · rw [houtside _ (by omega), hword]
    · intro w hne hout
      rw [houtside w hout, hmarked.other w (by simpa using hne)]
  have hmh' : wiped.heapbase + span Blk.off below = mh := by
    rw [hbounds.base, hmh]
  have hdr' := hreleased.tiles.at_block.2.1
  rw [hmh'] at hdr'
  rw [hdr'.mNext (by simp only; omega)]
  refine Prog.Returns.mono (freeForward_spec hreleased hmh' hrest.tail) ?_
  rintro _ h₁ ⟨hbounds₁, off₁, above₁, hlayout₁, hcoalesced₁, hheld₁⟩
  have hmh₁ : h₁.heapbase + span Blk.off below = mh := by
    rw [hbounds₁.base, hmh']
  refine Prog.Returns.mono (freeBackward_spec hlayout₁ hmh₁ hbelowCoalesced
    hcoalesced₁) ?_
  rintro _ h₂ ⟨hbounds₂, blocks₂, hlayout₂, hcoalesced₂, hheld₂⟩
  refine ⟨blocks₂, hlayout₂, hcoalesced₂, ?_⟩
  rw [hbounds₂.base, hheld₂, held_middle_free, hmh₁, hheld₁, hbounds₁.base, hbounds.base]
  have herase := (held_middle h.heapbase below above off size).erase (mData mh, size)
  rw [← hmh, List.erase_cons_head] at herase
  exact herase.symm

end Free

end OS161.Libc
