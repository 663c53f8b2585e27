import OS161.VM.FrameOwnership
import OS161.VM.Loading

namespace OS161.VM.Machine

open OS161.Data
open OS161.Kern
open OS161.Lib

/-! Where `as_prepare_load` enters the pages of two regions. -/

variable {m m₁ m' : Machine} {a : AsId} {start frames f i n g : Nat}
variable {pages : List Nat} {r : LoadRegion} {table : Nat → Int} {va : Nat}
variable {vbase1 npages1 vbase2 npages2 : Nat}

/-! The page tables after a region was loaded. -/

namespace RegionLoaded

variable (hloaded : RegionLoaded a r n g pages table m m₁)

include hloaded

theorem pte_page (hi : pages[i]? = some f) :
    m₁.pte a (r.vbase + i * PAGE_SIZE) = some ((f : Int) * 2) := by
  obtain ⟨hlt, -⟩ := List.getElem?_eq_some_iff.mp hi
  obtain ⟨htop, hbtm⟩ := page_slot (hloaded.range i hlt)
  rw [pte, htop, hbtm, hloaded.firstpt, Function.update_self, Option.map_some,
    hloaded.entry i f hi]

theorem pte_other (hother : topten va ≠ topten r.vbase) : m₁.pte a va = m.pte a va := by
  rw [pte, pte, hloaded.firstpt, Function.update_of_ne hother]

/-- The other entries of the table are what `kmalloc` left in it. -/
theorem pte_rest (hslot : topten va = topten r.vbase)
    (hrest : ∀ j < pages.length, btmten va ≠ btmten r.vbase + j) :
    m₁.pte a va = some (m.kmallocWords n (btmten va)) := by
  rw [pte, hslot, hloaded.firstpt, Function.update_self, Option.map_some,
    hloaded.rest (btmten va) hrest]

theorem page_free (hi : pages[i]? = some f) : f ∈ m.freeSet :=
  hloaded.toGrown.free f (List.mem_cons_of_mem g (List.mem_of_getElem? hi))

theorem page_marked (hi : pages[i]? = some f) : m₁.gblBmp.bitmapIsset f = true := by
  have hmem := List.mem_cons_of_mem g (List.mem_of_getElem? hi)
  rw [hloaded.isset, decide_eq_true hmem, Bool.or_true]

/-- No frame is in two pages. -/
theorem index_eq {j : Nat} (hi : pages[i]? = some f) (hj : pages[j]? = some f) : i = j := by
  obtain ⟨hlt, hget⟩ := List.getElem?_eq_some_iff.mp hi
  obtain ⟨hlt', hget'⟩ := List.getElem?_eq_some_iff.mp hj
  exact ((List.nodup_cons.mp hloaded.nodup).2.getElem_inj_iff).mp (hget.trans hget'.symm)

end RegionLoaded

/-- Page `i` of the region, if there is one, has a frame. -/
theorem getElem?_of_length (hlength : pages.length = n) (hi : i < n) : ∃ f, pages[i]? = some f :=
  ⟨pages[i], List.getElem?_eq_getElem (by omega)⟩

/-! Two regions. -/

/-- Two regions of whole pages in user space that do not overlap. -/
structure UserRegions (vbase1 npages1 vbase2 npages2 : Nat) : Prop where
  aligned1 : vbase1 % PAGE_SIZE = 0
  aligned2 : vbase2 % PAGE_SIZE = 0
  user1 : vbase1 + npages1 * PAGE_SIZE ≤ USERSTACK
  user2 : vbase2 + npages2 * PAGE_SIZE ≤ USERSTACK
  apart : vbase1 + npages1 * PAGE_SIZE ≤ vbase2 ∨ vbase2 + npages2 * PAGE_SIZE ≤ vbase1

/-- An address space with these regions, on a machine with frames. -/
structure Awaiting (a : AsId) (vbase1 npages1 vbase2 npages2 : Nat) (m : Machine) : Prop where
  room : ∃ start frames, FrameRoom start frames m
  vbase1 : (m.addrspace a).asVbase1 = vbase1
  npages1 : (m.addrspace a).asNpages1 = npages1
  vbase2 : (m.addrspace a).asVbase2 = vbase2
  npages2 : (m.addrspace a).asNpages2 = npages2

/-- Every page has a frame of its own, which was free, in its slot of the two-level table. -/
structure RegionsMapped (a : AsId) (pages : List Nat) (m m' : Machine) : Prop where
  mapped : ∀ va ∈ pages, ∃ f : Nat, m'.pte a va = some ((f : Int) * 2) ∧ f ∈ m.freeSet ∧
    m'.gblBmp.bitmapIsset f = true
  distinct : ∀ va ∈ pages, ∀ va' ∈ pages, m'.pte a va = m'.pte a va' → va = va'

/-- What a call of `as_prepare_load` may come to. -/
def MapsRegions (a : AsId) (pages : List Nat) (m : Machine) :
    Result Errno Fault Machine Unit → Prop
  | .ok _ m' => RegionsMapped a pages m m'
  | .error _ _ => True
  | .panic reason => reason ≠ .tableRange

/-- Each region lies in the part of the address space that one table stands for, and the two
do not share a table. -/
structure OwnTables (vbase1 npages1 vbase2 npages2 : Nat) : Prop where
  fits1 : btmten vbase1 + npages1 ≤ 1024
  fits2 : btmten vbase2 + npages2 ≤ 1024
  apart : npages1 = 0 ∨ topten vbase1 ≠ topten vbase2

theorem BothLoaded.regionsMapped (hboth : BothLoaded a m m')
    (hwait : Awaiting a vbase1 npages1 vbase2 npages2 m)
    (hown : OwnTables vbase1 npages1 vbase2 npages2) :
    RegionsMapped a (regionPages vbase1 npages1 ++ regionPages vbase2 npages2) m m' := by
  obtain ⟨m₁, ⟨n₁, g₁, pages₁, table₁, hlength₁, htext⟩, n₂, g₂, pages₂, table₂, hlength₂,
    hdata⟩ := hboth
  have hbase1 : (textRegion (m.addrspace a)).vbase = vbase1 := hwait.vbase1
  have hbase2 : (dataRegion (m.addrspace a)).vbase = vbase2 := hwait.vbase2
  have hcount1 : pages₁.length = npages1 := hlength₁.trans hwait.npages1
  have hcount2 : pages₂.length = npages2 := hlength₂.trans hwait.npages2
  have hpages1 : ∀ i (f : Nat), pages₁[i]? = some f →
      m'.pte a (vbase1 + i * PAGE_SIZE) = some ((f : Int) * 2) := by
    intro i f hi
    obtain ⟨hlt, -⟩ := List.getElem?_eq_some_iff.mp hi
    have hrange := htext.range i hlt
    rw [hbase1] at hrange
    have hapart : topten (vbase1 + i * PAGE_SIZE) ≠ topten vbase2 := by
      rw [(page_slot hrange).1]
      exact hown.apart.resolve_left (by omega)
    rw [← hbase2] at hapart
    rw [hdata.pte_other hapart, ← hbase1, htext.pte_page hi]
  have hpages2 : ∀ i (f : Nat), pages₂[i]? = some f →
      m'.pte a (vbase2 + i * PAGE_SIZE) = some ((f : Int) * 2) := by
    intro i f hi
    rw [← hbase2, hdata.pte_page hi]
  have hframes : ∀ va ∈ regionPages vbase1 npages1 ++ regionPages vbase2 npages2,
      ∃ f : Nat, m'.pte a va = some ((f : Int) * 2) ∧
        ((∃ i, va = vbase1 + i * PAGE_SIZE ∧ pages₁[i]? = some f) ∨
          ∃ i, va = vbase2 + i * PAGE_SIZE ∧ pages₂[i]? = some f) := by
    intro va hva
    cases List.mem_append.mp hva with
    | inl hva =>
        obtain ⟨i, hi, rfl⟩ := mem_regionPages.mp hva
        obtain ⟨f, hf⟩ := getElem?_of_length hcount1 hi
        exact ⟨f, hpages1 i f hf, Or.inl ⟨i, rfl, hf⟩⟩
    | inr hva =>
        obtain ⟨i, hi, rfl⟩ := mem_regionPages.mp hva
        obtain ⟨f, hf⟩ := getElem?_of_length hcount2 hi
        exact ⟨f, hpages2 i f hf, Or.inr ⟨i, rfl, hf⟩⟩
  have hfree2 : ∀ i (f : Nat), pages₂[i]? = some f → f ∈ m₁.freeSet := fun i f hi => hdata.page_free hi
  refine ⟨?_, ?_⟩
  · intro va hva
    obtain ⟨f, hpte, hcases⟩ := hframes va hva
    refine ⟨f, hpte, ?_⟩
    rcases hcases with ⟨i, -, hi⟩ | ⟨i, -, hi⟩
    · refine ⟨htext.page_free hi, ?_⟩
      rw [hdata.isset, htext.page_marked hi, Bool.true_or]
    · obtain ⟨hlt, hclear⟩ := mem_freeSet.mp (hdata.page_free hi)
      rw [htext.nbits] at hlt
      rw [htext.isset, Bool.or_eq_false_iff] at hclear
      exact ⟨mem_freeSet.mpr ⟨hlt, hclear.1⟩, hdata.page_marked hi⟩
  · intro va hva va' hva' hsame
    obtain ⟨f, hpte, hcases⟩ := hframes va hva
    obtain ⟨f', hpte', hcases'⟩ := hframes va' hva'
    rw [hpte, hpte', Option.some.injEq] at hsame
    obtain rfl : f = f' := by omega
    -- a frame that was taken for one region was not free for the other
    have hmixed : ∀ i j : Nat, pages₁[i]? = some f → pages₂[j]? = some f → False := by
      intro i j hi hj
      have hclear := (mem_freeSet.mp (hfree2 j f hj)).2
      rw [htext.page_marked hi] at hclear
      cases hclear
    rcases hcases with ⟨i, rfl, hi⟩ | ⟨i, rfl, hi⟩
    · rcases hcases' with ⟨j, rfl, hj⟩ | ⟨j, rfl, hj⟩
      · rw [htext.index_eq hi hj]
      · exact (hmixed i j hi hj).elim
    · rcases hcases' with ⟨j, rfl, hj⟩ | ⟨j, rfl, hj⟩
      · exact (hmixed j i hj hi).elim
      · rw [hdata.index_eq hi hj]

/-! A machine with frames enough for any two tables. -/

/-- A machine after boot, with 4096 frames, where `kmalloc` leaves zeros. -/
def spacious (as : Addrspace) (ram : Nat → Byte) : Machine where
  ram := ram
  tlb := .invalid
  asid := 0
  swapDisk _ := 0
  lhClear := true
  coremap i := ⟨0, 4096 + i * PAGE_SIZE, none, 0, 0, false, false⟩
  swapHolder _ := ⟨0, 0, none, 0, 0, false, false⟩
  gblBmp := { nbits := 4096, v := fun ix => if ix = 0 then 7#8 else 0#8 }
  swapBmp := Bitmap.bitmapCreate 4
  maxPageNum := 4096
  memStart := 4096
  ref := 0
  addrspace _ := as
  tVmspace := some 0
  pid := 2
  kmallocWords _ _ := 0
  kmallocs := 0

theorem spacious_room (as : Addrspace) (ram : Nat → Byte) :
    FrameRoom 4096 4096 (spacious as ram) where
  framed := by
    refine ⟨rfl, rfl, rfl, ?_, fun _ _ _ => rfl⟩
    have hreserved : ∀ i < 3, ((7#8).getLsbD i) = true := by decide
    intro i hi
    have hword : (spacious as ram).gblBmp.v (i / 8) = 7#8 := if_pos (by omega)
    rw [Bitmap.bitmapIsset_eq, BitWords.bit, hword, Nat.mod_eq_of_lt (by omega)]
    exact hreserved i hi
  pos := by decide
  aligned := by decide
  room := by decide

theorem spacious_plenty (as : Addrspace) (ram : Nat → Byte) : (spacious as ram).Plenty := by
  have hfree : Finset.range 4096 \ Finset.range 8 ⊆ (spacious as ram).freeSet := by
    intro i hi
    rw [Finset.mem_sdiff, Finset.mem_range, Finset.mem_range] at hi
    obtain ⟨hhigh, hlow⟩ := hi
    have hword : (spacious as ram).gblBmp.v (i / 8) = 0#8 := if_neg (by omega)
    refine mem_freeSet.mpr ⟨hhigh, ?_⟩
    rw [Bitmap.bitmapIsset_eq, BitWords.bit, hword]
    exact BitVec.getLsbD_zero
  have hcard := Finset.card_le_card hfree
  rw [Finset.card_sdiff_of_subset (Finset.range_subset_range.mpr (by decide)),
    Finset.card_range, Finset.card_range] at hcard
  unfold Plenty freeFrames
  omega

/-! Two regions of one address space. -/

/-- An executable that gives what it is asked for. -/
def zerosVnode : Vnode := fun _ resid => (List.replicate resid 0, none)

def twoRegions (vbase1 npages1 vbase2 npages2 : Nat) : Addrspace where
  asVnode := zerosVnode
  filesizeData := 0
  offData := 0
  filesizeText := 0
  offText := 0
  firstpt _ := none
  asVbase1 := vbase1
  asNpages1 := npages1
  asVbase2 := vbase2
  asNpages2 := npages2
  heaptop := 0
  heapbottom := 0
  asPbase1 := 0
  asPbase2 := 0
  asStackvbase := USERSTACK

theorem zerosVnode_reads (range : Nat × Nat) : Reads zerosVnode range :=
  ⟨rfl, Nat.le_of_eq (List.length_replicate).symm⟩

theorem spacious_awaiting (vbase1 npages1 vbase2 npages2 : Nat) :
    Awaiting a vbase1 npages1 vbase2 npages2
      (spacious (twoRegions vbase1 npages1 vbase2 npages2) (fun _ => 0)) :=
  ⟨⟨4096, 4096, spacious_room _ _⟩, rfl, rfl, rfl, rfl⟩

/-- With frames enough the regions are loaded or an entry falls outside its table. -/
theorem plenty_loads (hroom : FrameRoom start frames m) (hplenty : m.Plenty) (a : AsId)
    (unset : Unset) (htext : ¬ (textRegion (m.addrspace a)).Truncated)
    (hdata : ¬ (dataRegion (m.addrspace a)).Truncated) :
    Prog.wp (asPrepareLoad a unset) (fun _ m' => BothLoaded a m m')
      (fun _ _ => False) (fun reason => reason = .tableRange) m := by
  refine Prog.wp_mono (asPrepareLoad_wp hroom a unset) (fun _ _ hdone => hdone) ?_ ?_
  · intro code m' hfails
    rcases hfails with hfew | hcut | hcut
    · exact hfew hplenty
    · exact htext hcut
    · exact hdata hcut
  · intro reason hfault
    by_contra hother
    rw [LoadFault, if_neg hother] at hfault
    exact hfault hplenty

/-- The second region replaces the table of the first. -/
theorem BothLoaded.not_mapped (hboth : BothLoaded a m m')
    (hwait : Awaiting a vbase1 npages1 vbase2 npages2 m) (hzeros : ∀ n j, m.kmallocWords n j = 0)
    (hregions : UserRegions vbase1 npages1 vbase2 npages2) (hsome : 0 < npages1)
    (hslot : topten vbase1 = topten vbase2) : m'.pte a vbase1 = some 0 := by
  obtain ⟨m₁, ⟨n₁, g₁, pages₁, table₁, hlength₁, htext⟩, n₂, g₂, pages₂, table₂, hlength₂,
    hdata⟩ := hboth
  have hbase2 : (dataRegion (m.addrspace a)).vbase = vbase2 := hwait.vbase2
  have hcount2 : pages₂.length = npages2 := hlength₂.trans hwait.npages2
  have hrest : ∀ j < pages₂.length,
      btmten vbase1 ≠ btmten (dataRegion (m.addrspace a)).vbase + j := by
    rw [hbase2, hcount2]
    intro j hj heq
    have haligned1 := hregions.aligned1
    have haligned2 := hregions.aligned2
    have hapart := hregions.apart
    simp only [topten, btmten, PAGE_SIZE] at hslot heq haligned1 haligned2 hapart
    omega
  rw [← hbase2] at hslot
  rw [hdata.pte_rest hslot hrest, htext.kmallocWords, hzeros]

/-- Whatever memory holds, `as_prepare_load` enters every page of two regions in its own slot
with a frame of its own, and no entry outside a table, exactly if no region crosses a boundary
of 4 MB and the second does not begin where the table of the first is. -/
theorem regions_mapped_iff (hregions : UserRegions vbase1 npages1 vbase2 npages2) :
    (∀ a unset m, Awaiting a vbase1 npages1 vbase2 npages2 m →
      MapsRegions a (regionPages vbase1 npages1 ++ regionPages vbase2 npages2) m
        (asPrepareLoad a unset m)) ↔ OwnTables vbase1 npages1 vbase2 npages2 := by
  constructor
  · intro hall
    have hmaps := hall 0 ⟨0, 0⟩ _ (spacious_awaiting vbase1 npages1 vbase2 npages2)
    have hloads := plenty_loads
      (spacious_room (twoRegions vbase1 npages1 vbase2 npages2) (fun _ => 0)) (spacious_plenty _ _)
      0 ⟨0, 0⟩ (fun hcut => hcut.2.elim fun i hi => hi.2 (zerosVnode_reads _))
      (fun hcut => hcut.2.elim fun i hi => hi.2 (zerosVnode_reads _))
    have hwait := spacious_awaiting (a := 0) vbase1 npages1 vbase2 npages2
    have hzeros : ∀ n j, (spacious (twoRegions vbase1 npages1 vbase2 npages2)
        (fun _ => 0)).kmallocWords n j = 0 := fun _ _ => rfl
    unfold Prog.wp at hloads
    generalize spacious (twoRegions vbase1 npages1 vbase2 npages2) (fun _ => 0) = m
      at hmaps hloads hwait hzeros
    generalize asPrepareLoad 0 ⟨0, 0⟩ m = result at hmaps hloads
    cases result with
    | error code m' => exact hloads.elim
    | panic reason => exact absurd hloads hmaps
    | ok value m' =>
        have hboth : BothLoaded 0 m m' := hloads
        have hmapped : RegionsMapped 0 _ m m' := hmaps
        obtain ⟨m₁, htext, hdata⟩ := hboth
        have hfits1 := htext.fits
        have hfits2 := hdata.fits
        unfold LoadRegion.Fits at hfits1 hfits2
        simp only [textRegion, hwait.vbase1, hwait.npages1] at hfits1
        simp only [dataRegion, hwait.vbase2, hwait.npages2] at hfits2
        refine ⟨hfits1, hfits2, ?_⟩
        by_contra hboth
        rw [not_or, not_not] at hboth
        have hnone := BothLoaded.not_mapped ⟨m₁, htext, hdata⟩ hwait hzeros hregions (by omega)
          hboth.2
        have hmem : vbase1 ∈ regionPages vbase1 npages1 ++ regionPages vbase2 npages2 :=
          List.mem_append_left _ (mem_regionPages.mpr ⟨0, by omega, by simp⟩)
        obtain ⟨f, hpte, hfree, -⟩ := hmapped.mapped vbase1 hmem
        obtain ⟨start, frames, hroom⟩ := hwait.room
        have hrange := hroom.free_range hfree
        rw [hnone, Option.some.injEq] at hpte
        omega
  · intro hown a unset m hwait
    obtain ⟨start, frames, hroom⟩ := hwait.room
    have hload := asPrepareLoad_wp hroom a unset
    unfold Prog.wp at hload
    generalize asPrepareLoad a unset m = result at hload
    cases result with
    | error code m' => trivial
    | ok value m' => exact BothLoaded.regionsMapped hload hwait hown
    | panic reason =>
        intro hrange
        have hfault : LoadFault (m.addrspace a) m reason := hload
        rw [LoadFault, if_pos hrange] at hfault
        apply hfault
        unfold LoadRegion.Fits
        simp only [textRegion, dataRegion, hwait.vbase1, hwait.npages1, hwait.vbase2,
          hwait.npages2]
        exact ⟨hown.fits1, hown.fits2⟩

private def textBelowData : Machine := spacious (twoRegions 0x400000 2 0x10000000 1) (fun _ => 0)

theorem regions_mapped_text_and_data :
    MapsRegions 0 (regionPages 0x400000 2 ++ regionPages 0x10000000 1) textBelowData
      (asPrepareLoad 0 ⟨0, 0⟩ textBelowData) := by
  have hregions : UserRegions 0x400000 2 0x10000000 1 :=
    ⟨by decide, by decide, by decide, by decide, by decide⟩
  have hown : OwnTables 0x400000 2 0x10000000 1 := ⟨by decide, by decide, by decide⟩
  have hwait : Awaiting 0 0x400000 2 0x10000000 1 textBelowData :=
    spacious_awaiting 0x400000 2 0x10000000 1
  have hall : ∀ a unset m, Awaiting a 0x400000 2 0x10000000 1 m →
      MapsRegions a (regionPages 0x400000 2 ++ regionPages 0x10000000 1) m
        (asPrepareLoad a unset m) := (regions_mapped_iff hregions).mpr hown
  -- The machine is a variable in the last step, so that the call is not evaluated.
  revert hwait
  generalize textBelowData = m
  exact hall 0 ⟨0, 0⟩ m

/-- Two regions of one page each, next to each other. -/
private def neighbours : Machine := spacious (twoRegions 0x400000 1 0x401000 1) (fun _ => 0)

/-- The second region gets a table of its own, and the page of the first is in no table any
more. -/
theorem first_region_unmapped :
    Awaiting 0 0x400000 1 0x401000 1 neighbours ∧
    ∃ m', asPrepareLoad 0 ⟨0, 0⟩ neighbours = .ok () m' ∧ m'.pte 0 0x400000 = some 0 ∧
      ¬ RegionsMapped 0 (regionPages 0x400000 1 ++ regionPages 0x401000 1) neighbours m' := by
  have hok : (asPrepareLoad 0 ⟨0, 0⟩ neighbours).returned = some () := by decide +kernel
  have hpte : ((asPrepareLoad 0 ⟨0, 0⟩ neighbours).stateD neighbours).pte 0 0x400000 = some 0 := by
    decide +kernel
  refine ⟨spacious_awaiting 0x400000 1 0x401000 1, _, Result.eq_ok_of_returned neighbours hok,
    hpte, ?_⟩
  intro hmapped
  obtain ⟨f, hframe, hfree, -⟩ := hmapped.mapped 0x400000 (by decide)
  have hrange := (spacious_room (twoRegions 0x400000 1 0x401000 1) (fun _ => 0)).free_range hfree
  rw [hpte, Option.some.injEq] at hframe
  omega

end OS161.VM.Machine
