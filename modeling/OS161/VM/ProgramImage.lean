import OS161.VM.LoadElf

namespace OS161.VM.Machine

open OS161.Data
open OS161.Kern
open OS161.Lib

/-! What a program finds at the addresses of its segments. -/

variable {m m₁ m' : Machine} {a : AsId} {start frames f n g x va va' : Nat} {b : Byte}
variable {pages : List Nat} {r : LoadRegion} {table : Nat → Int}
variable {text data ph : Phdr} {phdrs : List Phdr} {bytes : List Byte}

/-! Places of pages. -/

theorem pte_congr (m : Machine) (a : AsId) (hpage : va / PAGE_SIZE = va' / PAGE_SIZE) :
    m.pte a va = m.pte a va' := by
  have htop : topten va = topten va' := by
    simp only [topten, PAGE_SIZE] at hpage ⊢
    omega
  have hbtm : btmten va = btmten va' := by
    simp only [btmten, PAGE_SIZE] at hpage ⊢
    omega
  rw [pte, pte, htop, hbtm]

/-- The byte at an address, in the frame that the page tables give for it. -/
def ImageAt (m : Machine) (a : AsId) (va : Nat) (b : Byte) : Prop :=
  ∃ f : Nat, f ≠ 0 ∧ m.pte a va = some ((f : Int) * 2) ∧
    m.ram ((m.coremap f).pa + va % PAGE_SIZE) = b

theorem ImageAt.byte_eq {b' : Byte} (hat : ImageAt m a va b) (hat' : ImageAt m a va b') :
    b = b' := by
  obtain ⟨f, -, hpte, hbyte⟩ := hat
  obtain ⟨f', -, hpte', hbyte'⟩ := hat'
  rw [hpte, Option.some.injEq] at hpte'
  obtain rfl : f = f' := by omega
  exact hbyte.symm.trans hbyte'

/-- A place of a region that was loaded, with the byte that was there in case nothing is read
for it. -/
structure PlaceLoaded (a : AsId) (r : LoadRegion) (x f : Nat) (m m₁ : Machine) : Prop where
  ne_zero : f ≠ 0
  free : f ∈ m.freeSet
  marked : m₁.gblBmp.bitmapIsset f = true
  pte : m₁.pte a (r.vbase + x) = some ((f : Int) * 2)
  byte : m₁.ram ((m₁.coremap f).pa + x % PAGE_SIZE) =
    (r.image (x / PAGE_SIZE) (x % PAGE_SIZE)).getD (m.ram ((m₁.coremap f).pa + x % PAGE_SIZE))

theorem RegionLoaded.place (hloaded : RegionLoaded a r n g pages table m m₁)
    (hlength : pages.length = r.npages) (hroom : FrameRoom start frames m)
    (haligned : r.vbase % PAGE_SIZE = 0) (hx : x < r.npages * PAGE_SIZE) :
    ∃ f, PlaceLoaded a r x f m m₁ := by
  have hi : x / PAGE_SIZE < r.npages := by
    rw [Nat.div_lt_iff_lt_mul (by decide)]
    exact hx
  obtain ⟨f, hf⟩ := getElem?_of_length hlength hi
  have hfree := hloaded.page_free hf
  have hrange := hroom.free_range hfree
  refine ⟨f, by omega, hfree, hloaded.page_marked hf, ?_, ?_⟩
  · have hsame : (r.vbase + x) / PAGE_SIZE = (r.vbase + x / PAGE_SIZE * PAGE_SIZE) / PAGE_SIZE := by
      simp only [PAGE_SIZE] at haligned ⊢
      omega
    rw [pte_congr m₁ a hsame]
    exact hloaded.pte_page hf
  · rw [hloaded.pa]
    exact hloaded.image _ f hf _ (Nat.mod_lt x (by decide))

/-- The other frames keep their contents. -/
theorem Grown.untouched {taken : List Nat} (hgrown : Grown a taken m m₁)
    (hroom : FrameRoom start frames m) (hf : 3 ≤ f ∧ f < frames) (hnot : f ∉ taken) {o : Nat}
    (ho : o < PAGE_SIZE) : m₁.ram ((m₁.coremap f).pa + o) = m.ram ((m.coremap f).pa + o) := by
  rw [hgrown.pa]
  apply hgrown.ram
  intro f' hf'
  refine hroom.apart hf (hroom.free_range (hgrown.free f' hf')) ?_ ho
  rintro rfl
  exact hnot hf'

/-- A place keeps its frame and its byte while other frames are taken for another table. -/
theorem PlaceLoaded.later {r' : LoadRegion} (hplace : PlaceLoaded a r x f m m₁)
    (hloaded : RegionLoaded a r' n g pages table m₁ m') (hroom : FrameRoom start frames m)
    (hroom₁ : FrameRoom start frames m₁) (hother : topten (r.vbase + x) ≠ topten r'.vbase) :
    m'.pte a (r.vbase + x) = some ((f : Int) * 2) ∧
      m'.ram ((m'.coremap f).pa + x % PAGE_SIZE) =
        m₁.ram ((m₁.coremap f).pa + x % PAGE_SIZE) := by
  refine ⟨(hloaded.pte_other hother).trans hplace.pte, ?_⟩
  apply hloaded.toGrown.untouched hroom₁ (hroom.free_range hplace.free) ?_
    (Nat.mod_lt x (by decide))
  intro hmem
  have hclear := (mem_freeSet.mp (hloaded.free f hmem)).2
  rw [hplace.marked] at hclear
  cases hclear

/-! The pages of a segment. -/

namespace Phdr

def InPages (ph : Phdr) (va : Nat) : Prop :=
  ph.vbase ≤ va ∧ va < ph.vbase + ph.npages * PAGE_SIZE

theorem vbase_mod (ph : Phdr) (x : Nat) : (ph.vbase + x) % PAGE_SIZE = x % PAGE_SIZE := by
  rw [Nat.add_mod, ph.vbase_aligned, Nat.zero_add, Nat.mod_mod]

/-- The pages of the region are in one table. -/
theorem InPages.slot (hva : ph.InPages va) (hfits : btmten ph.vbase + ph.npages ≤ 1024) :
    topten va = topten ph.vbase := by
  have haligned := ph.vbase_aligned
  obtain ⟨hlow, hhigh⟩ := hva
  simp only [topten, btmten, PAGE_SIZE] at haligned hlow hhigh hfits ⊢
  omega

theorem Covers.inPages (hva : ph.Covers va) : ph.InPages va := by
  obtain ⟨x, rfl, hx, -⟩ := ph.covers_page hva
  exact ⟨Nat.le_add_right _ _, by omega⟩

end Phdr

/-! Both regions. -/

/-- What stands for the two segments in the address space. -/
structure Standing (as : Addrspace) (bytes : List Byte) (text data : Phdr) : Prop where
  standsText : (textRegion as).Stands bytes text
  standsData : (dataRegion as).Stands bytes data
  userText : text.InUser
  userData : data.InUser
  givenText : text.Given bytes.length
  givenData : data.pFilesz ≠ 0 → data.Given bytes.length
  size : bytes.length < 2 ^ 31

namespace Standing

variable {as : Addrspace} (hstanding : Standing as bytes text data)

include hstanding

theorem text_image (hx : x < text.npages * PAGE_SIZE) :
    (textRegion as).image (x / PAGE_SIZE) (x % PAGE_SIZE) = some (text.loaded bytes x) :=
  hstanding.standsText.image_eq hstanding.userText rfl hstanding.givenText hstanding.size hx

theorem data_reads (hsome : 0 < data.npages) :
    (dataRegion as).reads = decide (data.pFilesz ≠ 0) := by
  obtain ⟨-, -, hfilesize⟩ := hstanding.standsData.file hsome
  exact congrArg (fun filesize => decide (filesize ≠ 0)) hfilesize

/-- Without a part in the file nothing is read for the second region, not even zeros. -/
theorem data_image (hx : x < data.npages * PAGE_SIZE) :
    (dataRegion as).image (x / PAGE_SIZE) (x % PAGE_SIZE) =
      if data.pFilesz = 0 then none else some (data.loaded bytes x) := by
  have hsome : 0 < data.npages := by
    by_contra hnone
    rw [Nat.eq_zero_of_not_pos hnone, Nat.zero_mul] at hx
    omega
  have hreads := hstanding.data_reads hsome
  split
  case isTrue hzero =>
      rw [LoadRegion.image, hreads, if_neg (by simpa using hzero)]
  case isFalse hne =>
      exact hstanding.standsData.image_eq hstanding.userData (by rw [hreads]; simpa using hne)
        (hstanding.givenData hne) hstanding.size hx

theorem text_whole : ¬ (textRegion as).Truncated := by
  rintro ⟨-, i, hi, hcut⟩
  rw [hstanding.standsText.npages] at hi
  exact hcut (hstanding.standsText.reads hstanding.userText hstanding.givenText hstanding.size hi)

theorem data_whole : ¬ (dataRegion as).Truncated := by
  rintro ⟨hreads, i, hi, hcut⟩
  rw [hstanding.standsData.npages] at hi
  rw [hstanding.data_reads (by omega), decide_eq_true_eq] at hreads
  exact hcut (hstanding.standsData.reads hstanding.userData (hstanding.givenData hreads)
    hstanding.size hi)

end Standing

/-- The entries of the table that no page of the region has are what `kmalloc` left there. -/
theorem RegionLoaded.pte_outside (hloaded : RegionLoaded a r n g pages table m m₁)
    (hlength : pages.length = r.npages) (haligned : r.vbase % PAGE_SIZE = 0)
    (hslot : topten va = topten r.vbase)
    (hout : ¬ (r.vbase ≤ va ∧ va < r.vbase + r.npages * PAGE_SIZE)) :
    m₁.pte a va = some (m.kmallocWords n (btmten va)) := by
  apply hloaded.pte_rest hslot
  intro j hj heq
  rw [hlength] at hj
  apply hout
  simp only [topten, btmten, PAGE_SIZE] at haligned hslot heq ⊢
  omega

namespace BothLoaded

variable (hboth : BothLoaded a m m') (hstanding : Standing (m.addrspace a) bytes text data)
variable (hroom : FrameRoom start frames m)

include hboth hstanding hroom

/-- A place of the second region.  Where nothing is read it shows what was in the frame. -/
theorem data_at (hx : x < data.npages * PAGE_SIZE) :
    ∃ f ∈ m.freeSet, ImageAt m' a (data.vbase + x)
      ((if data.pFilesz = 0 then none else some (data.loaded bytes x)).getD
        (m.ram ((m.coremap f).pa + x % PAGE_SIZE))) := by
  obtain ⟨m₁, ⟨n₁, g₁, pages₁, table₁, hlength₁, htext⟩, n₂, g₂, pages₂, table₂, hlength₂,
    hdata⟩ := hboth
  have hroom₁ := hroom.grown htext.toGrown
  have hbase := hstanding.standsData.vbase
  have hcount := hstanding.standsData.npages
  have haligned := data.vbase_aligned
  have himage := hstanding.data_image hx
  rw [← hbase] at haligned
  rw [← hcount] at hx
  obtain ⟨f, hplace⟩ := hdata.place hlength₂ hroom₁ haligned hx
  have hrange := hroom₁.free_range hplace.free
  obtain ⟨hlt, hclear⟩ := mem_freeSet.mp hplace.free
  rw [htext.nbits] at hlt
  rw [htext.isset, Bool.or_eq_false_iff, decide_eq_false_iff_not] at hclear
  have hbefore := htext.toGrown.untouched hroom hrange hclear.2 (Nat.mod_lt x (by decide))
  refine ⟨f, mem_freeSet.mpr ⟨hlt, hclear.1⟩, f, hplace.ne_zero, ?_, ?_⟩
  · rw [← hbase]
    exact hplace.pte
  · have hbyte := hplace.byte
    rw [himage, hdata.pa, hbefore] at hbyte
    rw [data.vbase_mod, hdata.pa]
    exact hbyte

theorem text_at (hapart : topten text.vbase ≠ topten data.vbase)
    (hx : x < text.npages * PAGE_SIZE) : ImageAt m' a (text.vbase + x) (text.loaded bytes x) := by
  obtain ⟨m₁, ⟨n₁, g₁, pages₁, table₁, hlength₁, htext⟩, n₂, g₂, pages₂, table₂, hlength₂,
    hdata⟩ := hboth
  have hroom₁ := hroom.grown htext.toGrown
  have hbase := hstanding.standsText.vbase
  have hcount := hstanding.standsText.npages
  have haligned := text.vbase_aligned
  have himage := hstanding.text_image hx
  have hfits := htext.fits hlength₁
  unfold LoadRegion.Fits at hfits
  rw [hbase, hcount] at hfits
  have hslot : topten (text.vbase + x) = topten text.vbase := by
    apply Phdr.InPages.slot ⟨Nat.le_add_right _ _, _⟩ hfits
    omega
  rw [← hbase] at haligned
  rw [← hcount] at hx
  obtain ⟨f, hplace⟩ := htext.place hlength₁ hroom haligned hx
  have hother : topten ((textRegion (m.addrspace a)).vbase + x) ≠
      topten (dataRegion (m.addrspace a)).vbase := by
    rw [hbase, hslot, hstanding.standsData.vbase]
    exact hapart
  obtain ⟨hpte, hsame⟩ := hplace.later hdata hroom hroom₁ hother
  refine ⟨f, hplace.ne_zero, ?_, ?_⟩
  · rw [← hbase]
    exact hpte
  · have hbyte := hplace.byte
    rw [himage, ← hsame] at hbyte
    rw [text.vbase_mod]
    exact hbyte

omit hroom in
/-- Where `kmalloc` leaves zeros nothing else is mapped. -/
theorem inPages (hzeros : ∀ n j, m.kmallocWords n j = 0)
    (hnone : ∀ top, (m.addrspace a).firstpt top = none) (hat : ImageAt m' a va b) :
    data.InPages va ∨ topten text.vbase ≠ topten data.vbase ∧ text.InPages va := by
  obtain ⟨m₁, ⟨n₁, g₁, pages₁, table₁, hlength₁, htext⟩, n₂, g₂, pages₂, table₂, hlength₂,
    hdata⟩ := hboth
  obtain ⟨f, hne, hpte, -⟩ := hat
  have hunmapped : m'.pte a va ≠ some 0 := by
    rw [hpte, Ne, Option.some.injEq]
    omega
  have hbase1 := hstanding.standsText.vbase
  have hbase2 := hstanding.standsData.vbase
  have haligned1 := text.vbase_aligned
  have haligned2 := data.vbase_aligned
  by_cases hslot2 : topten va = topten data.vbase
  · left
    by_contra hout
    rw [← hbase2] at hslot2 haligned2
    rw [Phdr.InPages, ← hbase2, ← hstanding.standsData.npages] at hout
    apply hunmapped
    rw [hdata.pte_outside hlength₂ haligned2 hslot2 hout, htext.kmallocWords, hzeros]
  · rw [← hbase2] at hslot2
    rw [hdata.pte_other hslot2] at hpte hunmapped
    by_cases hslot1 : topten va = topten text.vbase
    · right
      rw [hbase2, hslot1] at hslot2
      refine ⟨hslot2, ?_⟩
      by_contra hout
      rw [← hbase1] at hslot1 haligned1
      rw [Phdr.InPages, ← hbase1, ← hstanding.standsText.npages] at hout
      apply hunmapped
      rw [htext.pte_outside hlength₁ haligned1 hslot1 hout, hzeros]
    · rw [← hbase1] at hslot1
      rw [htext.pte_other hslot1, pte, hnone] at hpte
      cases hpte

end BothLoaded

/-! When the bytes are right. -/

namespace Phdr

/-- The segment begins with a page, and so does what is behind its part of the file. -/
structure FileBacked (ph : Phdr) : Prop where
  aligned : ph.pVaddr % PAGE_SIZE = 0
  pages : ph.npages * PAGE_SIZE ≤ ph.pFilesz + PAGE_SIZE

/-- At this address the region shows what the segment asks for, whatever the file holds. -/
structure Agrees (r ph : Phdr) (va : Nat) : Prop where
  file : r.FromFile (va - r.vbase) ↔ va - ph.pVaddr < ph.pFilesz
  offset : va - ph.pVaddr < ph.pFilesz →
    r.pOffset + (va - r.vbase) = ph.pOffset + (va - ph.pVaddr)

/-- The address lies in a page of the region, and not in what is read from the file. -/
def ZeroFilled (r : Phdr) (va : Nat) : Prop := r.InPages va ∧ ¬ r.FromFile (va - r.vbase)

variable {r : Phdr} {size : Nat}

theorem Agrees.loaded_eq (hagrees : r.Agrees ph va) (bytes : List Byte) :
    r.loaded bytes (va - r.vbase) = ph.byte bytes va := by
  unfold loaded byte
  by_cases hfile : va - ph.pVaddr < ph.pFilesz
  · rw [if_pos hfile, if_pos (hagrees.file.mpr hfile), hagrees.offset hfile]
  · rw [if_neg hfile, if_neg (fun hfrom => hfile (hagrees.file.mp hfrom))]

theorem Given.lt (hgiven : r.Given size) (huser : r.InUser) (hx : x < r.npages * PAGE_SIZE)
    (hfile : r.FromFile x) : r.pOffset + x < size := by
  have hi : x / PAGE_SIZE < r.npages := by
    rw [Nat.div_lt_iff_lt_mul (by decide)]
    exact hx
  have hlt := (huser.lt_amount_iff hx).mpr hfile
  have hend := hgiven _ hi (by omega)
  have hplace := Nat.div_add_mod' x PAGE_SIZE
  omega

/-- A file with a single byte that is not zero. -/
def oneByte (size p : Nat) : List Byte := (List.replicate size 0).set p 1

theorem oneByte_length (size p : Nat) : (oneByte size p).length = size := by
  rw [oneByte, List.length_set, List.length_replicate]

theorem oneByte_self (hp : x < size) : (oneByte size x).getD x 0 = 1 := by
  rw [oneByte, List.getD_eq_getElem?_getD, List.getElem?_set_self (by simpa using hp),
    Option.getD_some]

theorem oneByte_other (size : Nat) {p q : Nat} (hne : p ≠ q) : (oneByte size p).getD q 0 = 0 := by
  rw [oneByte, List.getD_eq_getElem?_getD, List.getElem?_set_ne hne, List.getElem?_replicate]
  split
  case isTrue => rfl
  case isFalse => rfl

theorem agrees_of_bytes (hgiven : r.Given size) (huser : r.InUser) (hpages : r.InPages va)
    (hsize : ph.pOffset + ph.pFilesz ≤ size)
    (hbytes : ∀ bytes : List Byte, bytes.length = size →
      r.loaded bytes (va - r.vbase) = ph.byte bytes va) : r.Agrees ph va := by
  have hx : va - r.vbase < r.npages * PAGE_SIZE := by
    obtain ⟨hlow, hhigh⟩ := hpages
    omega
  by_cases hwanted : va - ph.pVaddr < ph.pFilesz
  · have hp : ph.pOffset + (va - ph.pVaddr) < size := by omega
    have hone := hbytes _ (oneByte_length size (ph.pOffset + (va - ph.pVaddr)))
    rw [byte, if_pos hwanted, oneByte_self hp] at hone
    unfold loaded at hone
    split at hone
    case isFalse => exact absurd hone (by decide)
    case isTrue hfile =>
        refine ⟨iff_of_true hfile hwanted, fun _ => ?_⟩
        by_contra hne
        rw [oneByte_other size (Ne.symm hne)] at hone
        exact absurd hone (by decide)
  · refine ⟨iff_of_false ?_ hwanted, fun hfile => absurd hfile hwanted⟩
    intro hfile
    have hq := hgiven.lt huser hx hfile
    have hone := hbytes _ (oneByte_length size (r.pOffset + (va - r.vbase)))
    rw [byte, if_neg hwanted, loaded, if_pos hfile, oneByte_self hq] at hone
    exact absurd hone (by decide)

/-- A page of a segment that has memory, but for the first, begins inside the segment. -/
theorem covers_start {i : Nat} (hmemsz : 0 < ph.pMemsz) (hi : i < ph.npages) (hpos : 0 < i) :
    ph.Covers (ph.vbase + i * PAGE_SIZE) := by
  have hbase := ph.vbase_add
  have hmod := Nat.mod_lt ph.pVaddr (show 0 < PAGE_SIZE by decide)
  simp only [npages, PAGE_SIZE] at hi hbase hmod ⊢
  constructor
  · omega
  · omega

theorem FileBacked.vbase_eq (hbacked : r.FileBacked) : r.vbase = r.pVaddr := by
  have hbase := r.vbase_add
  rw [hbacked.aligned, Nat.add_zero] at hbase
  exact hbase

theorem FileBacked.fromFile_iff (hbacked : r.FileBacked) (hx : x < r.npages * PAGE_SIZE) :
    r.FromFile x ↔ x < r.pFilesz := by
  have hpages := hbacked.pages
  have hstart := Nat.div_mul_le_self x PAGE_SIZE
  have hlast : (x / PAGE_SIZE + 1) * PAGE_SIZE ≤ r.npages * PAGE_SIZE := by
    apply Nat.mul_le_mul_right
    rw [Nat.succ_le_iff, Nat.div_lt_iff_lt_mul (by decide)]
    exact hx
  rw [Nat.add_mul, Nat.one_mul] at hlast
  have hwithin : x / PAGE_SIZE * PAGE_SIZE ≤ r.pFilesz := by omega
  exact ⟨fun hfile => hfile.resolve_right (Nat.not_lt.mpr hwithin), Or.inl⟩

theorem FileBacked.agrees (hbacked : r.FileBacked) (hva : r.Covers va) : r.Agrees r va := by
  have hpages := hva.inPages
  have hx : va - r.vbase < r.npages * PAGE_SIZE := by
    obtain ⟨hlow, hhigh⟩ := hpages
    omega
  refine ⟨?_, fun _ => by rw [hbacked.vbase_eq]⟩
  rw [hbacked.fromFile_iff hx, hbacked.vbase_eq]

theorem fileBacked_of_agrees (hfilesz : r.pFilesz ≠ 0) (huser : r.InUser)
    (hagrees : ∀ va, r.Covers va → r.Agrees r va) : r.FileBacked := by
  have hmemsz : 0 < r.pMemsz := by
    have hle := huser.filesz
    omega
  have hbase := r.vbase_add
  have haligned : r.pVaddr % PAGE_SIZE = 0 := by
    have hfirst := (hagrees r.pVaddr ⟨Nat.le_refl _, by omega⟩).offset (by omega)
    omega
  refine ⟨haligned, ?_⟩
  by_contra hlong
  have hi : r.npages - 1 < r.npages := by
    simp only [PAGE_SIZE] at hlong
    omega
  have hpos : 0 < r.npages - 1 := by
    simp only [PAGE_SIZE] at hlong
    omega
  have hcovers := covers_start hmemsz hi hpos
  have hlast := (hagrees _ hcovers).file
  rw [haligned, Nat.add_zero] at hbase
  rw [hbase, Nat.add_sub_cancel_left] at hlast
  simp only [FromFile, PAGE_SIZE, Nat.mul_div_cancel _ (show 0 < 4096 by decide)] at hlong hlast
  omega

/-- What is read from the file belongs to the segment of the region itself. -/
theorem covers_of_fromFile (huser : r.InUser) (hpages : r.InPages va)
    (hagrees : ∀ va, r.Covers va → r.Agrees r va) (hfile : r.FromFile (va - r.vbase)) :
    r.Covers va := by
  obtain ⟨hlow, hhigh⟩ := hpages
  have hx : va - r.vbase < r.npages * PAGE_SIZE := by omega
  by_cases hfilesz : r.pFilesz = 0
  · exfalso
    have hbehind : 0 < (va - r.vbase) / PAGE_SIZE * PAGE_SIZE := by
      rw [FromFile, hfilesz] at hfile
      omega
    have hpos : 0 < (va - r.vbase) / PAGE_SIZE := Nat.pos_of_mul_pos_right hbehind
    have hi : (va - r.vbase) / PAGE_SIZE < r.npages := by
      rw [Nat.div_lt_iff_lt_mul (by decide)]
      exact hx
    have hmemsz : 0 < r.pMemsz := by
      by_contra hnone
      simp only [npages, PAGE_SIZE] at hi hpos hnone
      omega
    have hstart := (hagrees _ (covers_start hmemsz hi hpos)).file
    rw [Nat.add_sub_cancel_left, FromFile, hfilesz, Nat.mul_div_cancel _ (by decide)] at hstart
    exact absurd (hstart.mp (Or.inr hbehind)) (Nat.not_lt_zero _)
  · have hbacked := fileBacked_of_agrees hfilesz huser hagrees
    have hlt := (hbacked.fromFile_iff hx).mp hfile
    have hle := huser.filesz
    rw [hbacked.vbase_eq] at hlow hlt
    exact ⟨hlow, by omega⟩

end Phdr

/-! When a program gets its image. -/

/-- The table of the first region is still in place when the second is loaded. -/
abbrev KeepsTable (text data : Phdr) : Prop := topten text.vbase ≠ topten data.vbase

/-- A segment without a part in the file may lie in what is filled with zeros behind another.
Any other must be a region of whole pages. -/
def SegmentOk (text data ph : Phdr) : Prop :=
  if ph.pFilesz = 0 then
    ∀ va, ph.Covers va →
      data.pFilesz ≠ 0 ∧ data.ZeroFilled va ∨ KeepsTable text data ∧ text.ZeroFilled va
  else ph.FileBacked ∧ (ph = data ∨ KeepsTable text data ∧ ph = text)

/-- At this address one of the regions shows what the segment asks for. -/
def AddressOk (text data ph : Phdr) (va : Nat) : Prop :=
  data.pFilesz ≠ 0 ∧ data.InPages va ∧ data.Agrees ph va ∨
    KeepsTable text data ∧ text.InPages va ∧ text.Agrees ph va

section Segments

variable (hfits1 : btmten text.vbase + text.npages ≤ 1024)
variable (hfits2 : btmten data.vbase + data.npages ≤ 1024)

include hfits1 hfits2

theorem KeepsTable.not_both (hkeeps : KeepsTable text data) (htext : text.InPages va) :
    ¬ data.InPages va := fun hdata =>
  hkeeps ((htext.slot hfits1).symm.trans (hdata.slot hfits2))

theorem AddressOk.data_self (hok : AddressOk text data data va) (hva : data.Covers va) :
    data.pFilesz ≠ 0 ∧ data.Agrees data va := by
  rcases hok with ⟨hfilesz, -, hagrees⟩ | ⟨hkeeps, htext, -⟩
  · exact ⟨hfilesz, hagrees⟩
  · exact absurd hva.inPages (hkeeps.not_both hfits1 hfits2 htext)

theorem AddressOk.text_self (hkeeps : KeepsTable text data)
    (hok : AddressOk text data text va) (hva : text.Covers va) : text.Agrees text va := by
  rcases hok with ⟨-, hdata, -⟩ | ⟨-, -, hagrees⟩
  · exact absurd hdata (hkeeps.not_both hfits1 hfits2 hva.inPages)
  · exact hagrees

theorem segmentOk_of_addressOk (huser1 : text.InUser) (huser2 : data.InUser)
    (htext : text = noSegment ∨ text ∈ phdrs) (hdata : data = noSegment ∨ data ∈ phdrs)
    (hdisjoint : ∀ ph ∈ phdrs, ∀ ph' ∈ phdrs, ph ≠ ph' → ph.Disjoint ph')
    (haddress : ∀ ph ∈ phdrs, ∀ va, ph.Covers va → AddressOk text data ph va)
    (hph : ph ∈ phdrs) (huser : ph.InUser) : SegmentOk text data ph := by
  have hself2 : ∀ va, data.Covers va → data.pFilesz ≠ 0 ∧ data.Agrees data va := by
    intro va hva
    rcases hdata with rfl | hmem
    · exact absurd hva.2 (by simp only [noSegment]; omega)
    · exact (haddress data hmem va hva).data_self hfits1 hfits2 hva
  have hself1 : KeepsTable text data → ∀ va, text.Covers va → text.Agrees text va := by
    intro hkeeps va hva
    rcases htext with rfl | hmem
    · exact absurd hva.2 (by simp only [noSegment]; omega)
    · exact (haddress text hmem va hva).text_self hfits1 hfits2 hkeeps hva
  unfold SegmentOk
  split
  case isTrue hzero =>
      intro va hva
      have hnothing : ¬ va - ph.pVaddr < ph.pFilesz := by omega
      rcases haddress ph hph va hva with ⟨hfilesz, hpages, hagrees⟩ | ⟨hkeeps, hpages, hagrees⟩
      · exact Or.inl ⟨hfilesz, hpages, fun hfile => hnothing (hagrees.file.mp hfile)⟩
      · exact Or.inr ⟨hkeeps, hpages, fun hfile => hnothing (hagrees.file.mp hfile)⟩
  case isFalse hfilesz =>
      have hmemsz := huser.filesz
      have hfirst : ph.Covers ph.pVaddr := ⟨Nat.le_refl _, by omega⟩
      have hwanted : ph.pVaddr - ph.pVaddr < ph.pFilesz := by omega
      -- a region that shows the first byte of the segment is the region of the segment
      have hown : ∀ r : Phdr, r.InUser → (r = noSegment ∨ r ∈ phdrs) →
          (∀ va, r.Covers va → r.Agrees r va) → r.InPages ph.pVaddr →
          r.Agrees ph ph.pVaddr → ph = r ∧ r.FileBacked := by
        intro r hruser hr hself hpages hagrees
        have hcovers := Phdr.covers_of_fromFile hruser hpages hself (hagrees.file.mpr hwanted)
        have hsame : ph = r := by
          by_contra hne
          rcases hr with rfl | hmem
          · exact absurd hcovers.2 (by simp only [noSegment]; omega)
          · exact hdisjoint ph hph r hmem hne ph.pVaddr hfirst hcovers
        rw [← hsame] at hself ⊢
        exact ⟨rfl, Phdr.fileBacked_of_agrees hfilesz huser hself⟩
      rcases haddress ph hph ph.pVaddr hfirst with ⟨-, hpages, hagrees⟩ | ⟨hkeeps, hpages, hagrees⟩
      · obtain ⟨rfl, hbacked⟩ := hown data huser2 hdata (fun va hva => (hself2 va hva).2) hpages
          hagrees
        exact ⟨hbacked, Or.inl rfl⟩
      · obtain ⟨rfl, hbacked⟩ := hown text huser1 htext (hself1 hkeeps) hpages hagrees
        exact ⟨hbacked, Or.inr ⟨hkeeps, rfl⟩⟩

end Segments

theorem SegmentOk.addressOk (hok : SegmentOk text data ph) (hva : ph.Covers va) :
    AddressOk text data ph va := by
  have hzero : ∀ r : Phdr, ph.pFilesz = 0 → r.ZeroFilled va → r.Agrees ph va := by
    intro r hfilesz hfilled
    have hnothing : ¬ va - ph.pVaddr < ph.pFilesz := by omega
    exact ⟨iff_of_false hfilled.2 hnothing, fun hfile => absurd hfile hnothing⟩
  unfold SegmentOk at hok
  split at hok
  case isTrue hfilesz =>
      rcases hok va hva with ⟨hsome, hfilled⟩ | ⟨hkeeps, hfilled⟩
      · exact Or.inl ⟨hsome, hfilled.1, hzero data hfilesz hfilled⟩
      · exact Or.inr ⟨hkeeps, hfilled.1, hzero text hfilesz hfilled⟩
  case isFalse hfilesz =>
      obtain ⟨hbacked, rfl | ⟨hkeeps, rfl⟩⟩ := hok
      · exact Or.inl ⟨hfilesz, hva.inPages, hbacked.agrees hva⟩
      · exact Or.inr ⟨hkeeps, hva.inPages, hbacked.agrees hva⟩

/-! `load_elf`. -/

/-- An address space without regions, on a machine with frames. -/
structure NewSpace (a : AsId) (m : Machine) : Prop where
  room : ∃ start frames, FrameRoom start frames m
  noRegions : NoRegions (m.addrspace a)

/-- The segments were made regions and the regions were loaded. -/
structure Loaded (a : AsId) (v : Vnode) (phdrs : List Phdr) (m m₁ m' : Machine) : Prop where
  described : Described a v (textSegment phdrs) (dataSegment phdrs) m m₁
  both : BothLoaded a m₁ m'

theorem Described.room {v : Vnode} (hdescribed : Described a v text data m m₁)
    (hroom : FrameRoom start frames m) : FrameRoom start frames m₁ := by
  obtain ⟨as, rfl⟩ := hdescribed.frame
  exact hroom.grown ((Grown.refl a m).withAddrspace as)

/-- The file has the data of every segment, and all that `as_prepare_load` reads. -/
structure FileHolds (phdrs : List Phdr) (size : Nat) : Prop where
  segments : ∀ ph ∈ phdrs, ph.pOffset + ph.pFilesz ≤ size
  text : (textSegment phdrs).Given size
  data : (dataSegment phdrs).pFilesz ≠ 0 → (dataSegment phdrs).Given size
  size : size < 2 ^ 31

theorem noSegment_inUser : noSegment.InUser := ⟨by decide, by decide⟩

theorem Described.standing (hdescribed : Described a (fileVnode bytes) (textSegment phdrs)
    (dataSegment phdrs) m m₁) (huser : ∀ ph ∈ phdrs, ph.InUser)
    (hfile : FileHolds phdrs bytes.length) :
    Standing (m₁.addrspace a) bytes (textSegment phdrs) (dataSegment phdrs) where
  standsText := hdescribed.text.stands
  standsData := hdescribed.data.stands
  userText := by
    rcases textSegment_mem phdrs with hnone | hmem
    · rw [hnone]
      exact noSegment_inUser
    · exact huser _ hmem
  userData := by
    rcases dataSegment_mem phdrs with hnone | hmem
    · rw [hnone]
      exact noSegment_inUser
    · exact huser _ hmem
  givenText := hfile.text
  givenData := hfile.data
  size := hfile.size

theorem loadElf_wp (hnew : NewSpace a m) (v : Vnode) (huser : ∀ ph ∈ phdrs, ph.InUser)
    (unset : Unset) :
    Prog.wp (loadElf a v phdrs unset)
      (fun _ m' => leftOver phdrs = [] ∧ ∃ m₁, Loaded a v phdrs m m₁ m')
      (fun _ _ => True)
      (fun reason => leftOver phdrs = [] ∧ ∃ m₁,
        Described a v (textSegment phdrs) (dataSegment phdrs) m m₁ ∧
          LoadFault (m₁.addrspace a) m₁ reason) m := by
  obtain ⟨start, frames, hroom⟩ := hnew.room
  simp only [loadElf, ↓Prog.wp_bind]
  refine Prog.wp_mono (defineRegions_wp hnew.noRegions v huser) ?_ (fun _ _ _ => trivial)
    (fun _ hbad => hbad.elim)
  rintro _ m₁ ⟨hnone, hdescribed⟩
  exact Prog.wp_mono (asPrepareLoad_wp (hdescribed.room hroom) a unset)
    (fun _ m' hboth => ⟨hnone, m₁, hdescribed, hboth⟩) (fun _ _ _ => trivial)
    (fun _ hfault => ⟨hnone, m₁, hdescribed, hfault⟩)

/-- What a call of `load_elf` may come to. -/
def LoadsImage (a : AsId) (phdrs : List Phdr) (bytes : List Byte) :
    Result Errno Fault Machine Unit → Prop
  | .ok _ m' => ∀ ph ∈ phdrs, ∀ va, ph.Covers va → ImageAt m' a va (ph.byte bytes va)
  | .error _ _ => True
  | .panic reason => reason ≠ .tableRange

/-- The regions of the program fit into a table each, and all of its segments are fine. -/
structure ImageOk (phdrs : List Phdr) : Prop where
  fits1 : btmten (textSegment phdrs).vbase + (textSegment phdrs).npages ≤ 1024
  fits2 : btmten (dataSegment phdrs).vbase + (dataSegment phdrs).npages ≤ 1024
  segments : ∀ ph ∈ phdrs, SegmentOk (textSegment phdrs) (dataSegment phdrs) ph

theorem Loaded.image (hloaded : Loaded a (fileVnode bytes) phdrs m m₁ m')
    (hroom : FrameRoom start frames m) (huser : ∀ ph ∈ phdrs, ph.InUser)
    (hfile : FileHolds phdrs bytes.length)
    (hok : AddressOk (textSegment phdrs) (dataSegment phdrs) ph va) :
    ImageAt m' a va (ph.byte bytes va) := by
  have hstanding := hloaded.described.standing huser hfile
  have hroom₁ := hloaded.described.room hroom
  rcases hok with ⟨hfilesz, ⟨hlow, hhigh⟩, hagrees⟩ | ⟨hkeeps, ⟨hlow, hhigh⟩, hagrees⟩
  · obtain ⟨f, -, hat⟩ := hloaded.both.data_at hstanding hroom₁
      (x := va - (dataSegment phdrs).vbase) (by omega)
    rw [if_neg hfilesz, Option.getD_some, hagrees.loaded_eq, Nat.add_sub_cancel' hlow] at hat
    exact hat
  · have hat := hloaded.both.text_at hstanding hroom₁ hkeeps
      (x := va - (textSegment phdrs).vbase) (by omega)
    rw [hagrees.loaded_eq, Nat.add_sub_cancel' hlow] at hat
    exact hat

/-! A machine whose frames are full of ones. -/

/-- A new address space there. -/
def ones : Machine := spacious (twoRegions 0 0 0 0) (fun _ => 1)

theorem ones_newSpace : NewSpace a ones :=
  ⟨⟨4096, 4096, spacious_room _ _⟩, rfl, rfl, rfl, rfl⟩

/-- With all that is to be read and frames enough, nothing but an entry outside its table can
go wrong. -/
theorem ones_loads (huser : ∀ ph ∈ phdrs, ph.InUser) (hfile : FileHolds phdrs bytes.length)
    (hnone : leftOver phdrs = []) :
    Prog.wp (loadElf 0 (fileVnode bytes) phdrs ⟨0, 0⟩)
      (fun _ m' => ∃ m₁, Loaded 0 (fileVnode bytes) phdrs ones m₁ m')
      (fun _ _ => False) (fun reason => reason = .tableRange) ones := by
  simp only [loadElf, ↓Prog.wp_bind]
  refine Prog.wp_mono (defineRegions_wp ones_newSpace.noRegions (fileVnode bytes) huser) ?_
    (fun _ _ hleft => hleft hnone) (fun _ hbad => hbad.elim)
  rintro _ m₁ ⟨-, hdescribed⟩
  have hstanding := hdescribed.standing huser hfile
  have hplenty : m₁.Plenty := by
    obtain ⟨as, rfl⟩ := hdescribed.frame
    exact spacious_plenty (twoRegions 0 0 0 0) (fun _ => 1)
  exact Prog.wp_mono (plenty_loads (hdescribed.room (spacious_room _ _)) hplenty 0 ⟨0, 0⟩
      hstanding.text_whole hstanding.data_whole)
    (fun _ m' hboth => ⟨m₁, hdescribed, hboth⟩) (fun _ _ hfails => hfails) (fun _ hbad => hbad)

/-- What the image shows if it is right whatever the file holds. -/
theorem ones_addressOk (huser : ∀ ph ∈ phdrs, ph.InUser) {size : Nat}
    (hfile : FileHolds phdrs size) (hph : ph ∈ phdrs)
    (himage : ∀ bytes : List Byte, bytes.length = size → ∃ m₁ m',
      Loaded 0 (fileVnode bytes) phdrs ones m₁ m' ∧ ImageAt m' 0 va (ph.byte bytes va)) :
    AddressOk (textSegment phdrs) (dataSegment phdrs) ph va := by
  have hroom : FrameRoom 4096 4096 ones := spacious_room _ _
  obtain ⟨m₁, m', hloaded, hat⟩ := himage (List.replicate size 0) (List.length_replicate)
  have hstanding := hloaded.described.standing huser (by rwa [List.length_replicate])
  have hram : ∀ x, m₁.ram x = 1 := by
    obtain ⟨as, rfl⟩ := hloaded.described.frame
    exact fun _ => rfl
  have hwords : ∀ n j, m₁.kmallocWords n j = 0 := by
    obtain ⟨as, rfl⟩ := hloaded.described.frame
    exact fun _ _ => rfl
  have htables : ∀ top, (m₁.addrspace 0).firstpt top = none := by
    intro top
    rw [hloaded.described.firstpt]
    rfl
  have hpages := hloaded.both.inPages hstanding hwords htables hat
  by_cases hdata : (dataSegment phdrs).InPages va
  · have hx : va - (dataSegment phdrs).vbase <
        (dataSegment phdrs).npages * PAGE_SIZE := by
      obtain ⟨hlow, hhigh⟩ := hdata
      omega
    have hplace := Nat.add_sub_cancel' hdata.1
    have hfilesz : (dataSegment phdrs).pFilesz ≠ 0 := by
      intro hzero
      obtain ⟨f, -, hstale⟩ := hloaded.both.data_at hstanding
        (hloaded.described.room hroom) hx
      rw [hplace, if_pos hzero, Option.getD_none, hram] at hstale
      have hbyte : ph.byte (List.replicate size 0) va = 0 := by
        unfold Phdr.byte
        rw [List.getD_eq_getElem?_getD, List.getElem?_replicate]
        split_ifs
        · rfl
        · rfl
        · rfl
      have hone := hat.byte_eq hstale
      rw [hbyte] at hone
      exact absurd hone (by decide)
    refine Or.inl ⟨hfilesz, hdata, ?_⟩
    refine Phdr.agrees_of_bytes (hfile.data hfilesz) hstanding.userData hdata
      (hfile.segments ph hph) ?_
    rintro bytes rfl
    obtain ⟨m₂, m'', hloaded', hat'⟩ := himage bytes rfl
    obtain ⟨f, -, hshown⟩ := hloaded'.both.data_at
      (hloaded'.described.standing huser hfile) (hloaded'.described.room hroom) hx
    rw [hplace, if_neg hfilesz, Option.getD_some] at hshown
    exact hshown.byte_eq hat'
  · obtain ⟨hkeeps, htext⟩ := hpages.resolve_left hdata
    have hx : va - (textSegment phdrs).vbase <
        (textSegment phdrs).npages * PAGE_SIZE := by
      obtain ⟨hlow, hhigh⟩ := htext
      omega
    have hplace := Nat.add_sub_cancel' htext.1
    refine Or.inr ⟨hkeeps, htext, ?_⟩
    refine Phdr.agrees_of_bytes hfile.text hstanding.userText htext (hfile.segments ph hph) ?_
    rintro bytes rfl
    obtain ⟨m₂, m'', hloaded', hat'⟩ := himage bytes rfl
    have hshown := hloaded'.both.text_at (hloaded'.described.standing huser hfile)
      (hloaded'.described.room hroom) hkeeps hx
    rw [hplace] at hshown
    exact hshown.byte_eq hat'

/-- Whatever memory and the file hold, every byte of every segment is in place after a load
that succeeds, exactly if there are more segments than regions, or no region crosses a boundary
of 4 MB, every segment with data in the file is a region of whole pages with its table still in
place, and every other segment lies where such a region is filled with zeros. -/
theorem program_image_iff {size : Nat} (huser : ∀ ph ∈ phdrs, ph.InUser)
    (hdisjoint : ∀ ph ∈ phdrs, ∀ ph' ∈ phdrs, ph ≠ ph' → ph.Disjoint ph')
    (hfile : FileHolds phdrs size) :
    (∀ bytes : List Byte, bytes.length = size → ∀ a unset m, NewSpace a m →
      LoadsImage a phdrs bytes (loadElf a (fileVnode bytes) phdrs unset m)) ↔
      leftOver phdrs ≠ [] ∨ ImageOk phdrs := by
  constructor
  · intro hall
    by_cases hnone : leftOver phdrs = []
    case neg => exact Or.inl hnone
    have hloaded : ∀ bytes : List Byte, bytes.length = size → ∃ m₁ m',
        Loaded 0 (fileVnode bytes) phdrs ones m₁ m' ∧
          ∀ ph ∈ phdrs, ∀ va, ph.Covers va → ImageAt m' 0 va (ph.byte bytes va) := by
      rintro bytes rfl
      have hloads := hall bytes rfl 0 ⟨0, 0⟩ ones ones_newSpace
      have hrun := ones_loads huser hfile hnone
      unfold Prog.wp at hrun
      generalize loadElf 0 (fileVnode bytes) phdrs ⟨0, 0⟩ ones = result at hloads hrun
      cases result with
      | error code m' => exact hrun.elim
      | panic reason => exact absurd hrun hloads
      | ok value m' =>
          obtain ⟨m₁, hdone⟩ : ∃ m₁, Loaded 0 (fileVnode bytes) phdrs ones m₁ m' := hrun
          exact ⟨m₁, m', hdone, hloads⟩
    obtain ⟨m₁, m', hdone, -⟩ := hloaded (List.replicate size 0) List.length_replicate
    have hstanding := hdone.described.standing huser (by rwa [List.length_replicate])
    obtain ⟨_, htext, hdata⟩ := hdone.both
    have hfits1 := htext.fits
    have hfits2 := hdata.fits
    unfold LoadRegion.Fits at hfits1 hfits2
    rw [hstanding.standsText.vbase, hstanding.standsText.npages] at hfits1
    rw [hstanding.standsData.vbase, hstanding.standsData.npages] at hfits2
    refine Or.inr ⟨hfits1, hfits2, fun ph hph => ?_⟩
    refine segmentOk_of_addressOk hfits1 hfits2 hstanding.userText hstanding.userData
      (textSegment_mem phdrs) (dataSegment_mem phdrs) hdisjoint ?_ hph (huser ph hph)
    intro ph hph va hva
    apply ones_addressOk huser hfile hph
    intro bytes hsize
    obtain ⟨m₁, m', hdone, himage⟩ := hloaded bytes hsize
    exact ⟨m₁, m', hdone, himage ph hph va hva⟩
  · rintro hok bytes rfl a unset m hnew
    have hrun := loadElf_wp hnew (fileVnode bytes) huser unset
    unfold Prog.wp at hrun
    generalize loadElf a (fileVnode bytes) phdrs unset m = result at hrun
    cases result with
    | error code m' => trivial
    | ok value m' =>
        obtain ⟨hnone, m₁, hloaded⟩ : leftOver phdrs = [] ∧
          ∃ m₁, Loaded a (fileVnode bytes) phdrs m m₁ m' := hrun
        obtain ⟨start, frames, hroom⟩ := hnew.room
        have himage := hok.resolve_left (fun hleft => hleft hnone)
        intro ph hph va hva
        exact hloaded.image hroom huser hfile ((himage.segments ph hph).addressOk hva)
    | panic reason =>
        obtain ⟨hnone, m₁, hdescribed, hfault⟩ : leftOver phdrs = [] ∧ ∃ m₁,
          Described a (fileVnode bytes) (textSegment phdrs) (dataSegment phdrs) m m₁ ∧
            LoadFault (m₁.addrspace a) m₁ reason := hrun
        have himage := hok.resolve_left (fun hleft => hleft hnone)
        have hstanding := hdescribed.standing huser hfile
        intro hrange
        rw [LoadFault, if_pos hrange] at hfault
        apply hfault
        unfold LoadRegion.Fits
        rw [hstanding.standsText.vbase, hstanding.standsText.npages,
          hstanding.standsData.vbase, hstanding.standsData.npages]
        exact ⟨himage.fits1, himage.fits2⟩

/-- Two pages of code, and a page of data that is in the file up to its middle. -/
private def textAndData : List Phdr :=
  [⟨0x1000, 0x400000, 0x2000, 0x2000⟩, ⟨0x3000, 0x10000000, 0x800, 0x1000⟩]

theorem program_image_text_and_data :
    LoadsImage 0 textAndData (List.replicate 0x3800 7)
      (loadElf 0 (fileVnode (List.replicate 0x3800 7)) textAndData ⟨0, 0⟩ ones) := by
  have huser : ∀ ph ∈ textAndData, ph.InUser := by
    rw [textAndData, List.forall_mem_cons, List.forall_mem_singleton]
    exact ⟨⟨by decide, by decide⟩, by decide, by decide⟩
  have hdisjoint : ∀ ph ∈ textAndData, ∀ ph' ∈ textAndData, ph ≠ ph' → ph.Disjoint ph' := by
    intro ph hph ph' hph' hne va hva hva'
    simp only [textAndData, List.mem_cons, List.not_mem_nil, or_false] at hph hph'
    rcases hph with rfl | rfl
    · rcases hph' with rfl | rfl
      · exact hne rfl
      · simp only [Phdr.Covers] at hva hva'
        omega
    · rcases hph' with rfl | rfl
      · simp only [Phdr.Covers] at hva hva'
        omega
      · exact hne rfl
  have hfile : FileHolds textAndData 0x3800 := by
    refine ⟨?_, ?_, fun _ => ?_, by decide⟩
    · rw [textAndData, List.forall_mem_cons, List.forall_mem_singleton]
      exact ⟨by decide, by decide⟩
    · unfold Phdr.Given
      decide
    · unfold Phdr.Given
      decide
  have hok : ImageOk textAndData := by
    refine ⟨by decide, by decide, ?_⟩
    rw [textAndData, List.forall_mem_cons, List.forall_mem_singleton]
    exact ⟨⟨⟨by decide, by decide⟩, Or.inr ⟨by decide, rfl⟩⟩, ⟨by decide, by decide⟩, Or.inl rfl⟩
  have hall : ∀ bytes : List Byte, bytes.length = 0x3800 → ∀ a unset m, NewSpace a m →
      LoadsImage a textAndData bytes (loadElf a (fileVnode bytes) textAndData unset m) :=
    (program_image_iff huser hdisjoint hfile).mpr (Or.inr hok)
  have hlength : (List.replicate 0x3800 (7 : Byte)).length = 0x3800 := List.length_replicate
  have hnew : NewSpace 0 ones := ones_newSpace
  -- The file and the machine are variables in the last step, so that the call is not evaluated.
  revert hlength hnew
  generalize List.replicate 0x3800 (7 : Byte) = bytes
  generalize ones = m
  intro hlength hnew
  exact hall bytes hlength 0 ⟨0, 0⟩ m hnew

/-- A segment of one byte that does not begin with a page. -/
private def misaligned : Phdr := ⟨0, 0x400100, 1, 1⟩

/-- The byte of the file is put at the beginning of the page, and its address shows zero. -/
theorem misaligned_segment_wrong :
    misaligned.InUser ∧ FileHolds [misaligned] [(7 : Byte)].length ∧ NewSpace 0 ones ∧
    misaligned.Covers 0x400100 ∧ misaligned.byte [7] 0x400100 = 7 ∧
    ∃ m', loadElf 0 (fileVnode [7]) [misaligned] ⟨0, 0⟩ ones = .ok () m' ∧
      ImageAt m' 0 0x400000 7 ∧ ImageAt m' 0 0x400100 0 ∧ ¬ ImageAt m' 0 0x400100 7 := by
  have hok : (loadElf 0 (fileVnode [7]) [misaligned] ⟨0, 0⟩ ones).returned = some () := by
    decide +kernel
  have hfirst : ImageAt ((loadElf 0 (fileVnode [7]) [misaligned] ⟨0, 0⟩ ones).stateD ones) 0
      0x400000 7 := ⟨4, by decide, by decide +kernel, by decide +kernel⟩
  have hshown : ImageAt ((loadElf 0 (fileVnode [7]) [misaligned] ⟨0, 0⟩ ones).stateD ones) 0
      0x400100 0 := ⟨4, by decide, by decide +kernel, by decide +kernel⟩
  have hfile : FileHolds [misaligned] 1 := by
    refine ⟨?_, ?_, fun hne => absurd rfl hne, by decide⟩
    · rw [List.forall_mem_singleton]
      decide
    · unfold Phdr.Given
      decide
  refine ⟨⟨by decide, by decide⟩, hfile, ones_newSpace, by decide, by decide, _,
    Result.eq_ok_of_returned ones hok, hfirst, hshown, ?_⟩
  intro hseven
  exact absurd (hseven.byte_eq hshown) (by decide)

end OS161.VM.Machine
