import OS161.Libc.HeapIntegrity

namespace OS161.Libc

open OS161.Data

/-! `malloc` of every size, down to nothing and up to what the rounding wraps. -/

/-- The headers that the macros of the source find, from the base of the heap on. -/
inductive HeaderAt (h : Heap) : Nat → Prop
  | base (hbase : h.heapbase < h.heaptop) : HeaderAt h h.heapbase
  | next (hheader : HeaderAt h mh) (htop : h.mNext mh < h.heaptop) : HeaderAt h (h.mNext mh)

/-- A free block takes the size. -/
def Hole (h : Heap) (size : Nat) : Prop :=
  ∃ mh, HeaderAt h mh ∧ h.mhInuse mh = 0 ∧ size ≤ h.mSize mh

/-- Where a free block takes the rounded size, rounding did not wrap; where none does and
`sbrk` moves the break, it moves up, and by more than a header. -/
def WithinLimits (h : Heap) (grant : Bool) (size : Nat) : Prop :=
  (Hole h (rounded size) → size ≤ rounded size) ∧
  (¬ Hole h (rounded size) →
    breakMoves h.ready grant (wrap (rounded size + MBLOCKSIZE)) →
    0 < rounded size ∧ h.ready.brk + (rounded size + MBLOCKSIZE) < 2 ^ 32)

/-- A block that a program can use and give back. -/
structure Usable (live : List (Nat × Nat)) (h : Heap) (ptr size : Nat) : Prop where
  room : size ≤ h.mSize (ptr - MBLOCKSIZE) ∧ ptr + h.mSize (ptr - MBLOCKSIZE) ≤ h.heaptop
  live : ∀ other ∈ live, ptr + size ≤ other.1 ∨ other.1 + other.2 ≤ ptr
  headers : ∀ mh, HeaderAt h mh → mh + MBLOCKSIZE ≤ ptr ∨ ptr + size ≤ mh
  accepted : (free ptr).Returns (fun _ _ => True) h

/-- A call hands out such a block, or `NULL` and the heap as it was.  The first call may end
the process where the kernel does not set up a heap. -/
def Process.Meets (p : Process) (grants : Grants) (size : Nat) : Prop :=
  (malloc grants size).wp
    (fun ptr h => if ptr = 0 then h = p.heap.ready else Usable p.live h ptr size)
    (fun _ _ => False) SbrkFailed p.heap

section Headers

variable {h : Heap} {data : Nat → Nat} {blocks : List Blk}

theorem headerAt_iff (hlayout : Layout h data blocks) :
    HeaderAt h mh ↔ ∃ below b above, blocks = below ++ b :: above ∧
      mh = h.heapbase + span Blk.off below := by
  have htopLe := hlayout.topLe
  constructor
  · intro hheader
    induction hheader with
    | base hbase =>
        cases blocks with
        | nil =>
            have hempty : h.heapbase = h.heaptop := hlayout.tiles
            omega
        | cons b rest => exact ⟨[], b, rest, rfl, rfl⟩
    | next hheader hnext ih =>
        obtain ⟨below, b, above, rfl, rfl⟩ := ih
        obtain ⟨-, hdr, habove⟩ := hlayout.tiles.at_block
        have htop := Tiles.top_eq habove
        have hmove := hdr.mNext (by omega)
        rw [hmove] at hnext
        cases above with
        | nil =>
            simp only [span] at htop
            omega
        | cons next above =>
            refine ⟨below ++ [b], next, above, by simp, ?_⟩
            rw [hmove, span_append]
            simp only [span]
            omega
  · rintro ⟨below, b, above, rfl, rfl⟩
    induction below using List.reverseRecOn generalizing b above with
    | nil =>
        have hbelow := hlayout.below_top
        simp only [span] at hbelow
        exact HeaderAt.base (by omega)
    | append_singleton below c ih =>
        have hlayout' : Layout h data (below ++ c :: b :: above) := by simpa using hlayout
        have hheader := ih c (b :: above) hlayout'
        have hbelow := hlayout.below_top
        have hdr := hlayout'.tiles.at_block.2.1
        simp only [span_append, span, Nat.add_zero] at hbelow ⊢
        have hmove := hdr.mNext (by omega)
        rw [← Nat.add_assoc, ← hmove]
        exact hheader.next (by omega)

theorem hole_iff (hlayout : Layout h data blocks) : Hole h need ↔ ¬ NoHole blocks need := by
  have htopLe := hlayout.topLe
  have hread {below above : List Blk} {b : Blk} (hsplit : blocks = below ++ b :: above) :
      h.mhInuse (h.heapbase + span Blk.off below) = b.flag ∧
        h.mSize (h.heapbase + span Blk.off below) = b.off - 8 ∧ 8 ≤ b.off := by
    subst hsplit
    obtain ⟨-, hdr, habove⟩ := hlayout.tiles.at_block
    have htop := Tiles.top_eq habove
    exact ⟨hdr.mhInuse, hdr.mSize (by omega), hdr.large⟩
  constructor
  · rintro ⟨mh, hheader, hinuse, hsize⟩ hnone
    obtain ⟨below, b, above, hsplit, rfl⟩ := (headerAt_iff hlayout).mp hheader
    obtain ⟨hflag, hroom, hlarge⟩ := hread hsplit
    have hsmall := hnone b (by simp [hsplit]) (Blk.flag_eq_zero.mp (hflag ▸ hinuse))
    simp only [MBLOCKSIZE] at hsmall
    omega
  · intro hhole
    unfold NoHole at hhole
    push Not at hhole
    obtain ⟨b, hmem, hfree, hsize⟩ := hhole
    obtain ⟨below, above, hsplit⟩ := List.append_of_mem hmem
    obtain ⟨hflag, hroom, hlarge⟩ := hread hsplit
    simp only [MBLOCKSIZE] at hsize
    refine ⟨_, (headerAt_iff hlayout).mpr ⟨below, b, above, hsplit, rfl⟩, ?_, by omega⟩
    rw [hflag, Blk.flag_eq_zero.mpr hfree]

theorem Sound.hole_iff (hsound : Sound h data blocks) : Hole h need ↔ ¬ NoHole blocks need := by
  rcases hsound with ⟨hbase, htop, -, -, rfl⟩ | hlayout
  · have hempty : ¬ h.heapbase < h.heaptop := by omega
    have hnone : NoHole [] need := by simp [NoHole]
    refine iff_of_false ?_ (not_not_intro hnone)
    rintro ⟨mh, hheader, -⟩
    induction hheader with
    | base hbelow => exact hempty hbelow
    | next _ _ ih => exact ih
  · exact Libc.hole_iff hlayout

end Headers

namespace Process

variable {p : Process}

/-- A block that the program holds serves it. -/
theorem Inv.serves {h : Heap} {live : List (Nat × Nat)} {data : Nat → Nat} {blocks : List Blk}
    (hlayout : Layout h data blocks) (hcoalesced : Coalesced blocks)
    (hlive : ((ptr, size) :: live).Perm (held h.heapbase blocks)) :
    Usable live h ptr size := by
  have hinv : Inv ⟨h, (ptr, size) :: live, data⟩ := ⟨blocks, Or.inr hlayout, hcoalesced, hlive⟩
  have hmem : (ptr, size) ∈ (ptr, size) :: live := List.mem_cons_self ..
  obtain ⟨below, off, above, hsplit, hptr⟩ := exists_block (hlive.mem_iff.mp hmem)
  have hlarge := hinv.integrity.large ptr size hmem
  refine ⟨hlarge.2, ?_, ?_, hinv.callsReturn.free ptr size hmem⟩
  · intro other hother
    exact (List.pairwise_cons.mp hinv.integrity.disjoint).1 other hother
  · intro mh hheader
    obtain ⟨below', b, above', hsplit', rfl⟩ := (headerAt_iff hlayout).mp hheader
    rw [hsplit'] at hsplit hlayout
    have hlarge' := hlayout.tiles.at_block.2.1.large
    have hfits : size + 8 ≤ off := by
      rw [hsplit] at hlayout
      exact hlayout.tiles.at_block.2.1.fits size rfl
    have hapart := span_apart Blk.off hsplit
    simp only [MBLOCKSIZE] at hapart ⊢
    omega

theorem malloc_within {h : Heap} {data : Nat → Nat} {blocks : List Blk}
    (hsound : Sound h data blocks) (hcoalesced : Coalesced blocks) (hsize : size < 2 ^ 32)
    (hlimits : WithinLimits h grants.grow size) :
    (malloc grants size).wp (fun ptr h' => Handed h data blocks ptr size h') (fun _ _ => False)
      (SetupFailed h grants) h := by
  rw [WithinLimits, hsound.hole_iff, not_not] at hlimits
  exact malloc_spec grants hsound hcoalesced hsize hlimits.1 hlimits.2

/-- Within the limits a call does what it should. -/
theorem Inv.meets (hinv : p.Inv) (hsize : size < 2 ^ 32)
    (hlimits : WithinLimits p.heap grants.grow size) : p.Meets grants size := by
  obtain ⟨blocks, hsound, hcoalesced, hlive⟩ := hinv
  refine Prog.wp_mono (malloc_within hsound hcoalesced hsize hlimits) ?_ (fun _ _ h => h)
    (fun _ h => h.1)
  intro ptr h hcall
  unfold Handed at hcall
  split at hcall
  case isTrue hnull =>
      rw [if_pos hnull]
      exact hcall.1
  case isFalse hptr =>
      obtain ⟨blocks', hlayout, hcoalesced', hheld⟩ := hcall
      rw [if_neg hptr]
      exact Inv.serves hlayout hcoalesced' ((hlive.cons _).trans hheld.symm)

/-! Beyond the limits. -/

/-- `malloc` looks at the rounded size only. -/
theorem malloc_rounded (grants : Grants) (hsize : rounded size = rounded size') :
    malloc grants size = malloc grants size' := by
  unfold rounded at hsize
  unfold malloc
  rw [hsize]

/-- A block made at the end of the heap, with no room below the top. -/
theorem malloc_beyond (grants : Grants) {h : Heap} {data : Nat → Nat} {blocks : List Blk}
    (hsound : Sound h data blocks) (hnone : NoHole blocks (rounded size))
    (hmoves : breakMoves h.ready grants.grow (wrap (rounded size + MBLOCKSIZE)))
    (hbeyond : ¬ (0 < rounded size ∧ h.ready.brk + (rounded size + MBLOCKSIZE) < 2 ^ 32)) :
    (malloc grants size).wp (fun ptr h' => ptr ≠ 0 ∧ h'.heaptop ≤ ptr) (fun _ _ => False)
      (SetupFailed h grants) h := by
  simp only [malloc, ↓Prog.wp_bind, ↓Prog.wp_get]
  refine Prog.wp_mono (mallocSetup_spec hsound) ?_ (fun _ _ h => h) (fun _ h => h)
  obtain ⟨hlayout, -⟩ := hsound.ready
  rintro _ h₁ hready
  rw [← hready] at hlayout hmoves hbeyond
  have hbasePos := hlayout.basePos
  have htopEq := hlayout.tiles.top_eq
  have htopLe := hlayout.topLe
  have hbound := rounded_lt size
  have haligned := rounded_aligned size
  simp only [↓Prog.wp_assert,
    if_pos (show ¬(h₁.heapbase = 0 ∨ h₁.heaptop = 0 ∨ h₁.heapbase > h₁.heaptop) by
      omega), show wrap (size + MBLOCKSIZE - 1) / MBLOCKSIZE * MBLOCKSIZE = rounded size from rfl]
  generalize rounded size = need at *
  have hsearch := @search_spec h₁ data [] blocks need (h₁.heaptop - h₁.heapbase + 1)
    hlayout (by simp) (by simp [span])
  simp only [span, Nat.add_zero, lastSize, Nat.zero_div, List.nil_append] at hsearch
  refine Prog.wp_mono hsearch ?_ (fun _ _ h => h.elim) (fun _ h => h.elim)
  rintro found h₂ ⟨hsame, hfound⟩
  obtain rfl : h₁ = h₂ := hsame.symm
  cases found with
  | found mh =>
      obtain ⟨below, b, above, rfl, hmh, hfree, hfits⟩ := hfound
      have hsmall := hnone b (by simp) hfree
      omega
  | done i rightprevblock =>
      obtain ⟨rfl, rfl, -⟩ := hfound
      simp only [↓Prog.wp_bind, ↓Prog.wp_assert, if_true, mallocSbrk, sbrk,
        ↓Prog.wp_get, ↓Prog.wp_ite, if_pos hmoves, ↓Prog.wp_modify, ↓Prog.wp_pure,
        if_pos hlayout.topBrk.symm]
      refine ⟨by simp [mData, MBLOCKSIZE], ?_⟩
      show wrap (h₁.heaptop + wrap (need + MBLOCKSIZE)) ≤ mData h₁.brk
      have htopBrk := hlayout.topBrk
      simp only [wrap, mData, MBLOCKSIZE] at hbeyond ⊢
      omega

theorem free_beyond {h : Heap} (hptr : ptr ≠ 0) (htop : h.heaptop ≤ ptr) :
    ¬ (free ptr).Returns (fun _ _ => True) h := by
  intro hreturns
  simp only [free, if_neg hptr, Prog.Returns, ↓Prog.wp_bind, ↓Prog.wp_get, ↓Prog.wp_assert] at hreturns
  split at hreturns
  case isTrue =>
      rw [if_neg (by omega)] at hreturns
      exact hreturns
  case isFalse => exact hreturns

/-- A process that does not stop in the set-up. -/
def SetsUp (p : Process) (grants : Grants) : Prop :=
  p.heap.heapbase = 0 → grants.initial = true ∧ grants.align = true

theorem SetsUp.not_failed (hsetup : p.SetsUp grants) : ¬ SetupFailed p.heap grants exit := by
  rintro ⟨-, hbase, hrefused⟩
  have hgranted := hsetup hbase
  simp [hgranted.1, hgranted.2] at hrefused

/-- Beyond the limits a call does not do what it should. -/
theorem Inv.within_limits (hinv : p.Inv) (hsize : size < 2 ^ 32) (hsetup : p.SetsUp grants)
    (hmeets : p.Meets grants size) : WithinLimits p.heap grants.grow size := by
  obtain ⟨blocks, hsound, hcoalesced, hlive⟩ := hinv
  rw [WithinLimits, hsound.hole_iff, not_not]
  constructor
  · intro hhole
    by_contra hwraps
    -- Rounding wrapped, and the call is one for no bytes.
    have hzero : rounded size = rounded 0 := by
      simp only [rounded, wrap, MBLOCKSIZE] at hwraps ⊢
      omega
    rw [hzero] at hhole
    have hempty := malloc_spec grants hsound hcoalesced (by decide) (fun _ => Nat.zero_le _)
      (fun hnone => absurd hnone hhole)
    rw [Process.Meets, malloc_rounded grants hzero] at hmeets
    refine Prog.not_wp_false _ _ (Prog.wp_mono (Prog.wp_and hmeets hempty) ?_
      (fun _ _ h => h.1) (fun _ h => hsetup.not_failed h.2))
    rintro ptr h ⟨hserves, hcall⟩
    unfold Handed at hcall
    split at hcall
    case isTrue => exact hhole hcall.2
    case isFalse hptr =>
        obtain ⟨blocks', hlayout, hcoalesced', hheld⟩ := hcall
        have hblock := Inv.serves hlayout hcoalesced' ((hlive.cons _).trans hheld.symm)
        have htopLe := hlayout.topLe
        rw [if_neg hptr] at hserves
        have hroom := hserves.room
        simp only [rounded, wrap, MBLOCKSIZE] at hwraps hroom
        omega
  · intro hnone hmoves
    by_contra hbeyond
    have hpast := malloc_beyond grants hsound hnone hmoves hbeyond
    refine Prog.not_wp_false _ _ (Prog.wp_mono (Prog.wp_and hmeets hpast) ?_
      (fun _ _ h => h.1) (fun _ h => hsetup.not_failed h.2))
    rintro ptr h ⟨hserves, hptr, htop⟩
    rw [if_neg hptr] at hserves
    exact free_beyond hptr htop hserves.accepted

/-! Runs of a program whose calls stay within the limits. -/

inductive LimitStep : Process → Process → Prop
  | malloc (grants : Grants) (hsize : size < 2 ^ 32)
      (hlimits : WithinLimits q.heap grants.grow size)
      (hcall : malloc grants size q.heap = .ok ptr h) : LimitStep q (q.receive h ptr size)
  | other (hstep : Step q q') : LimitStep q q'

theorem Inv.limitStep (hinv : p.Inv) (hstep : LimitStep p p') : p'.Inv := by
  cases hstep with
  | malloc grants hsize hlimits hcall =>
      refine hinv.receive ?_
      intro blocks hsound hcoalesced
      exact (malloc_within hsound hcoalesced hsize hlimits).post_of_ok hcall
  | other hstep => exact hinv.step hstep

/-- In every state that a program within the limits reaches, a call for any size does what
it should where it is within the limits, and, once the heap can be set up, nowhere else. -/
theorem malloc_limits {p₀ : Process} (hstart : p₀.Starts)
    (hrun : Relation.ReflTransGen LimitStep p₀ p) (grants : Grants) (hsize : size < 2 ^ 32) :
    (WithinLimits p.heap grants.grow size → p.Meets grants size) ∧
    (p.SetsUp grants → p.Meets grants size → WithinLimits p.heap grants.grow size) := by
  have hinv := invariant_of_steps Inv hrun hstart.inv
    (fun _ _ hinv hstep => hinv.limitStep hstep)
  exact ⟨hinv.meets hsize, hinv.within_limits hsize⟩

/-- A program whose heap the kernel has at address 32. -/
private def beginning : Process := ⟨⟨fun _ => 0, 0, 0, 32⟩, [], fun _ => 0⟩

theorem malloc_limits_refused : beginning.Meets ⟨true, true, true⟩ (2 ^ 32 - 16) := by
  have hstart : beginning.Starts := ⟨rfl, rfl, by decide, by decide, rfl⟩
  refine (malloc_limits hstart .refl ⟨true, true, true⟩ (by decide)).1 ⟨?_, ?_⟩
  · exact fun _ => by decide
  · exact fun _ hmoves => absurd hmoves (by decide)

/-- A block of no bytes on top of the heap cannot be given back, and a request of
`2^32 - 1` bytes is handed the same block. -/
theorem malloc_limits_exceeded :
    beginning.Starts ∧
    (∃ h, malloc ⟨true, true, true⟩ 0 beginning.heap = .ok 40 h ∧
      free 40 h = .panic .freeOutOfRange) ∧
    (∃ h, malloc ⟨true, true, true⟩ (2 ^ 32 - 1) beginning.heap = .ok 40 h ∧ h.mSize 32 = 0) ∧
    ¬ beginning.Meets ⟨true, true, true⟩ 0 := by
  have hempty : ∃ h, malloc ⟨true, true, true⟩ 0 beginning.heap = .ok 40 h ∧
      free 40 h = .panic .freeOutOfRange := ⟨_, rfl, rfl⟩
  refine ⟨⟨rfl, rfl, by decide, by decide, rfl⟩, hempty, ⟨_, rfl, rfl⟩, ?_⟩
  intro hmeets
  obtain ⟨h, hcall, hfree⟩ := hempty
  have hserves := Prog.wp.post_of_ok hmeets hcall
  have haccepted := hserves.accepted
  unfold Prog.Returns Prog.wp at haccepted
  rw [hfree] at haccepted
  exact haccepted

end Process

end OS161.Libc
