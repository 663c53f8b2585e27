import OS161.VM.RegionMap

namespace OS161.VM.Machine

open OS161.Data
open OS161.Kern
open OS161.Lib

/-! `load_elf` behind the ELF header, and what a program finds in its memory. -/

/-- The fields of an `Elf_Phdr` of type `PT_LOAD`. -/
structure Phdr where
  pOffset : Nat
  pVaddr : Nat
  pFilesz : Nat
  pMemsz : Nat

/-- The permissions of the region are stored and never looked at.  `as_vnode` is set by the
time there is a first region. -/
def asDefineRegion (a : AsId) (vaddr sz filesize : Nat) (v : Vnode) (offset : Nat) : Op Unit := do
  let sz := (sz + vaddr % PAGE_SIZE) % 2 ^ 32
  let vaddr := pageFrame vaddr
  let sz := pageFrame ((sz + PAGE_SIZE - 1) % 2 ^ 32)
  let npages := sz / PAGE_SIZE
  let as := (← Prog.get).addrspace a
  if as.asVbase1 = 0 then
    setAddrspace a fun as => { as with
      asVbase1 := vaddr
      asNpages1 := npages
      heapbottom := (vaddr + sz) % 2 ^ 32
      heaptop := (vaddr + sz) % 2 ^ 32
      asVnode := v
      offText := offset
      filesizeText := filesize }
  else if as.asVbase2 = 0 then
    setAddrspace a fun as => { as with
      asVbase2 := vaddr
      asNpages2 := npages
      heapbottom := (vaddr + sz) % 2 ^ 32
      heaptop := (vaddr + sz) % 2 ^ 32
      offData := offset
      filesizeData := filesize }
  else Prog.fail .EUNIMP

/-- The loop of `load_elf` over the loadable segments. -/
def defineRegions (a : AsId) (v : Vnode) : List Phdr → Op Unit
  | [] => pure ()
  | ph :: phdrs => do
      asDefineRegion a ph.pVaddr ph.pMemsz ph.pFilesz v ph.pOffset
      defineRegions a v phdrs

def loadElf (a : AsId) (v : Vnode) (phdrs : List Phdr) (unset : Unset) : Op Unit := do
  defineRegions a v phdrs
  asPrepareLoad a unset

/-- An executable with these bytes. -/
def fileVnode (bytes : List Byte) : Vnode := fun offset resid =>
  ((bytes.drop offset).take resid, none)

namespace Phdr

variable {ph : Phdr} {bytes : List Byte} {va x i : Nat}

/-! What a segment asks for. -/

abbrev Covers (ph : Phdr) (va : Nat) : Prop := ph.pVaddr ≤ va ∧ va < ph.pVaddr + ph.pMemsz

/-- The byte that belongs at an address of the segment. -/
def byte (ph : Phdr) (bytes : List Byte) (va : Nat) : Byte :=
  if va - ph.pVaddr < ph.pFilesz then bytes.getD (ph.pOffset + (va - ph.pVaddr)) 0 else 0

/-- The segment lies in user space. -/
structure InUser (ph : Phdr) : Prop where
  filesz : ph.pFilesz ≤ ph.pMemsz
  user : ph.pVaddr + ph.pMemsz ≤ USERSTACK

def Disjoint (ph other : Phdr) : Prop := ∀ va, ph.Covers va → ¬ other.Covers va

/-! What the segment gets. -/

def vbase (ph : Phdr) : Nat := pageFrame ph.pVaddr

def npages (ph : Phdr) : Nat := (ph.pMemsz + ph.pVaddr % PAGE_SIZE + PAGE_SIZE - 1) / PAGE_SIZE

/-- How much of page `i` is read from the file. -/
def amount (ph : Phdr) (i : Nat) : Nat :=
  min ((ph.pFilesz + 2 ^ 32 - i * PAGE_SIZE % 2 ^ 32) % 2 ^ 32) PAGE_SIZE

/-- The file has what is read from it for the segment. -/
def Given (ph : Phdr) (size : Nat) : Prop :=
  ∀ i < ph.npages, 0 < ph.amount i → ph.pOffset + i * PAGE_SIZE + ph.amount i ≤ size

/-- Place `x` of the pages of the segment is read from the file.  A page that begins behind
the part in the file is read whole. -/
abbrev FromFile (ph : Phdr) (x : Nat) : Prop :=
  x < ph.pFilesz ∨ ph.pFilesz < x / PAGE_SIZE * PAGE_SIZE

/-- The byte that is loaded at place `x` of the pages of the segment. -/
def loaded (ph : Phdr) (bytes : List Byte) (x : Nat) : Byte :=
  if ph.FromFile x then bytes.getD (ph.pOffset + x) 0 else 0

theorem vbase_aligned (ph : Phdr) : ph.vbase % PAGE_SIZE = 0 := by
  simp only [vbase, pageFrame, PAGE_SIZE]
  omega

theorem vbase_add (ph : Phdr) : ph.vbase + ph.pVaddr % PAGE_SIZE = ph.pVaddr := by
  simp only [vbase, pageFrame, PAGE_SIZE]
  omega

section User

variable (huser : ph.InUser)

include huser

theorem InUser.npages_user : ph.vbase + ph.npages * PAGE_SIZE ≤ USERSTACK := by
  have hbound := huser.user
  simp only [vbase, npages, pageFrame, PAGE_SIZE, USERSTACK] at hbound ⊢
  omega

omit huser in
/-- An address of the segment lies in one of its pages. -/
theorem covers_page (hva : ph.Covers va) :
    ∃ x, va = ph.vbase + x ∧ x < ph.npages * PAGE_SIZE ∧ ph.pVaddr % PAGE_SIZE ≤ x ∧
      x < ph.pVaddr % PAGE_SIZE + ph.pMemsz := by
  have hbase := ph.vbase_add
  obtain ⟨hlow, hhigh⟩ := hva
  refine ⟨va - ph.vbase, by omega, ?_, by omega, by omega⟩
  have hlt : va - ph.vbase < ph.pVaddr % PAGE_SIZE + ph.pMemsz := by omega
  simp only [npages, PAGE_SIZE] at hlt ⊢
  omega

theorem InUser.amount_of_le (hi : i * PAGE_SIZE ≤ ph.pFilesz) :
    ph.amount i = min (ph.pFilesz - i * PAGE_SIZE) PAGE_SIZE := by
  have hfilesz := huser.filesz
  have hbound := huser.user
  simp only [amount, PAGE_SIZE, USERSTACK] at hi hbound ⊢
  omega

/-- The unsigned difference wraps around: a page behind the part in the file is read whole. -/
theorem InUser.amount_of_lt (hi : ph.pFilesz < i * PAGE_SIZE) (hrange : i < ph.npages) :
    ph.amount i = PAGE_SIZE := by
  have hbound := huser.user
  simp only [npages, amount, PAGE_SIZE, USERSTACK] at hi hbound hrange ⊢
  omega

/-- What is read from the file is what `page_read` is asked for. -/
theorem InUser.lt_amount_iff (hx : x < ph.npages * PAGE_SIZE) :
    x % PAGE_SIZE < ph.amount (x / PAGE_SIZE) ↔ ph.FromFile x := by
  have hpage : x / PAGE_SIZE < ph.npages := by
    rw [Nat.div_lt_iff_lt_mul (by decide)]
    exact hx
  rcases Nat.lt_or_ge ph.pFilesz (x / PAGE_SIZE * PAGE_SIZE) with hbehind | hwithin
  · rw [huser.amount_of_lt hbehind hpage]
    exact iff_of_true (Nat.mod_lt x (by decide)) (Or.inr hbehind)
  · rw [huser.amount_of_le hwithin]
    simp only [FromFile, PAGE_SIZE] at hwithin ⊢
    omega

end User

end Phdr

/-! Which segments become regions. -/

/-- A region that was not defined. -/
def noSegment : Phdr := ⟨0, 0, 0, 0⟩

/-- The segment that a region is left with, and the segments behind it.  A base of zero means
that the region is still free, so a segment in page zero gives way to the next. -/
def takeRegion : Phdr → List Phdr → Phdr × List Phdr
  | kept, [] => (kept, [])
  | kept, ph :: phdrs => if kept.vbase = 0 then takeRegion ph phdrs else (kept, ph :: phdrs)

def textSegment (phdrs : List Phdr) : Phdr := (takeRegion noSegment phdrs).1

def dataSegment (phdrs : List Phdr) : Phdr :=
  (takeRegion noSegment (takeRegion noSegment phdrs).2).1

/-- The segments that there is no region for. -/
def leftOver (phdrs : List Phdr) : List Phdr :=
  (takeRegion noSegment (takeRegion noSegment phdrs).2).2

theorem takeRegion_mem (kept : Phdr) (phdrs : List Phdr) :
    (takeRegion kept phdrs).1 = kept ∨ (takeRegion kept phdrs).1 ∈ phdrs := by
  induction phdrs generalizing kept with
  | nil => exact Or.inl rfl
  | cons ph phdrs ih =>
      unfold takeRegion
      split
      case isTrue =>
          rcases ih ph with hkept | hmem
          · rw [hkept]
            exact Or.inr List.mem_cons_self
          · exact Or.inr (List.mem_cons_of_mem ph hmem)
      case isFalse => exact Or.inl rfl

theorem takeRegion_rest (kept : Phdr) (phdrs : List Phdr) :
    (takeRegion kept phdrs).2 ⊆ phdrs := by
  induction phdrs generalizing kept with
  | nil => exact List.Subset.refl []
  | cons ph phdrs ih =>
      unfold takeRegion
      split
      case isTrue =>
          intro other hother
          exact List.mem_cons_of_mem ph (ih ph hother)
      case isFalse => exact List.Subset.refl _

theorem textSegment_mem (phdrs : List Phdr) :
    textSegment phdrs = noSegment ∨ textSegment phdrs ∈ phdrs :=
  takeRegion_mem noSegment phdrs

theorem dataSegment_mem (phdrs : List Phdr) :
    dataSegment phdrs = noSegment ∨ dataSegment phdrs ∈ phdrs :=
  (takeRegion_mem noSegment _).imp_right fun hmem => takeRegion_rest noSegment phdrs hmem

/-- The first region of the address space stands for this segment. -/
structure TextIs (as : Addrspace) (v : Vnode) (ph : Phdr) : Prop where
  vbase : as.asVbase1 = ph.vbase
  npages : as.asNpages1 = ph.npages
  file : ph ≠ noSegment → as.asVnode = v ∧ as.offText = ph.pOffset ∧ as.filesizeText = ph.pFilesz

structure DataIs (as : Addrspace) (v : Vnode) (ph : Phdr) : Prop where
  vbase : as.asVbase2 = ph.vbase
  npages : as.asNpages2 = ph.npages
  file : ph ≠ noSegment → as.asVnode = v ∧ as.offData = ph.pOffset ∧ as.filesizeData = ph.pFilesz

/-- The regions have been defined, and nothing else has changed. -/
structure Described (a : AsId) (v : Vnode) (text data : Phdr) (m m₁ : Machine) : Prop where
  frame : ∃ as, m₁ = m.withAddrspace a as
  firstpt : (m₁.addrspace a).firstpt = (m.addrspace a).firstpt
  text : TextIs (m₁.addrspace a) v text
  data : DataIs (m₁.addrspace a) v data

/-- An address space that `as_create` made, as far as its regions go. -/
structure NoRegions (as : Addrspace) : Prop where
  vbase1 : as.asVbase1 = 0
  npages1 : as.asNpages1 = 0
  vbase2 : as.asVbase2 = 0
  npages2 : as.asNpages2 = 0

variable {m m₁ m₂ : Machine} {a : AsId} {v : Vnode} {ph text data : Phdr} {phdrs : List Phdr}

theorem NoRegions.described (hnone : NoRegions (m.addrspace a)) (v : Vnode) :
    Described a v noSegment noSegment m m where
  frame := ⟨m.addrspace a, by rw [withAddrspace, Function.update_eq_self]⟩
  firstpt := rfl
  text := ⟨hnone.vbase1, hnone.npages1, fun hne => absurd rfl hne⟩
  data := ⟨hnone.vbase2, hnone.npages2, fun hne => absurd rfl hne⟩

theorem Described.write (hdescribed : Described a v text data m m₁) {as : Addrspace}
    {text' data' : Phdr} (hfirstpt : as.firstpt = (m₁.addrspace a).firstpt)
    (htext : TextIs as v text') (hdata : DataIs as v data') :
    Described a v text' data' m (m₁.withAddrspace a as) := by
  have has : (m₁.withAddrspace a as).addrspace a = as := Function.update_self ..
  refine ⟨?_, ?_, ?_, ?_⟩
  · obtain ⟨as₁, rfl⟩ := hdescribed.frame
    exact ⟨as, by simp only [withAddrspace, Function.update_idem]⟩
  · rw [has, hfirstpt, hdescribed.firstpt]
  · rw [has]
    exact htext
  · rw [has]
    exact hdata

/-- The size that `as_define_region` rounds up, in pages. -/
theorem Phdr.InUser.npages_eq (huser : ph.InUser) :
    pageFrame (((ph.pMemsz + ph.pVaddr % PAGE_SIZE) % 2 ^ 32 + PAGE_SIZE - 1) % 2 ^ 32) /
      PAGE_SIZE = ph.npages := by
  have hbound := huser.user
  simp only [Phdr.npages, pageFrame, PAGE_SIZE, USERSTACK] at hbound ⊢
  omega

/-- A segment becomes the first region while that is free. -/
theorem Described.defineText (hdescribed : Described a v text noSegment m m₁)
    (huser : ph.InUser) (hfree : text.vbase = 0) :
    Prog.Returns (asDefineRegion a ph.pVaddr ph.pMemsz ph.pFilesz v ph.pOffset)
      (fun _ m₂ => Described a v ph noSegment m m₂) m₁ := by
  have hvbase : (m₁.addrspace a).asVbase1 = 0 := hdescribed.text.vbase.trans hfree
  simp only [asDefineRegion, setAddrspace, ↓Prog.wp_bind, ↓Prog.wp_get]
  rw [if_pos hvbase, Prog.wp_modify]
  refine hdescribed.write rfl ⟨rfl, huser.npages_eq, fun _ => ⟨rfl, rfl, rfl⟩⟩
    ⟨hdescribed.data.vbase, hdescribed.data.npages, fun hne => absurd rfl hne⟩

theorem Described.defineData (hdescribed : Described a v text data m m₁)
    (huser : ph.InUser) (htext : text.vbase ≠ 0) (hfree : data.vbase = 0) :
    Prog.Returns (asDefineRegion a ph.pVaddr ph.pMemsz ph.pFilesz v ph.pOffset)
      (fun _ m₂ => Described a v text ph m m₂) m₁ := by
  have hvbase1 : (m₁.addrspace a).asVbase1 ≠ 0 := by
    rw [hdescribed.text.vbase]
    exact htext
  have hvbase2 : (m₁.addrspace a).asVbase2 = 0 := hdescribed.data.vbase.trans hfree
  have hsome : text ≠ noSegment := by
    rintro rfl
    exact htext rfl
  obtain ⟨hvnode, hoffset, hfilesize⟩ := hdescribed.text.file hsome
  simp only [asDefineRegion, setAddrspace, ↓Prog.wp_bind, ↓Prog.wp_get]
  rw [if_neg hvbase1, if_pos hvbase2, Prog.wp_modify]
  exact hdescribed.write rfl
    ⟨hdescribed.text.vbase, hdescribed.text.npages, fun _ => ⟨hvnode, hoffset, hfilesize⟩⟩
    ⟨rfl, huser.npages_eq, fun _ => ⟨hvnode, rfl, rfl⟩⟩

theorem Described.noRegion (hdescribed : Described a v text data m m₁) (htext : text.vbase ≠ 0)
    (hdata : data.vbase ≠ 0) {post : Unit → Machine → Prop} {full : Prop} {bad : Fault → Prop}
    (hfull : full) :
    Prog.wp (asDefineRegion a ph.pVaddr ph.pMemsz ph.pFilesz v ph.pOffset) post
      (fun _ _ => full) bad m₁ := by
  rw [← hdescribed.text.vbase] at htext
  rw [← hdescribed.data.vbase] at hdata
  simp only [asDefineRegion, ↓Prog.wp_bind, ↓Prog.wp_get]
  rw [if_neg htext, if_neg hdata]
  exact hfull

/-- The segments behind the first region. -/
theorem Described.defineRest (hdescribed : Described a v text data m m₁) (htext : text.vbase ≠ 0)
    (huser : ∀ ph ∈ phdrs, ph.InUser) :
    Prog.wp (defineRegions a v phdrs)
      (fun _ m₂ => (takeRegion data phdrs).2 = [] ∧
        Described a v text (takeRegion data phdrs).1 m m₂)
      (fun _ _ => (takeRegion data phdrs).2 ≠ []) (fun _ => False) m₁ := by
  induction phdrs generalizing data m₁ with
  | nil => exact ⟨rfl, hdescribed⟩
  | cons ph phdrs ih =>
      obtain ⟨hhead, htail⟩ := List.forall_mem_cons.mp huser
      simp only [defineRegions, ↓Prog.wp_bind]
      by_cases hfree : data.vbase = 0
      · rw [takeRegion, if_pos hfree]
        exact Prog.wp_mono (hdescribed.defineData hhead htext hfree)
          (fun _ _ hnext => ih hnext htail) (fun _ _ hfails => hfails.elim) (fun _ hbad => hbad)
      · rw [takeRegion, if_neg hfree]
        exact hdescribed.noRegion htext hfree (List.cons_ne_nil ph phdrs)

theorem Described.defineAll (hdescribed : Described a v text noSegment m m₁)
    (huser : ∀ ph ∈ phdrs, ph.InUser) :
    Prog.wp (defineRegions a v phdrs)
      (fun _ m₂ => (takeRegion noSegment (takeRegion text phdrs).2).2 = [] ∧
        Described a v (takeRegion text phdrs).1
          (takeRegion noSegment (takeRegion text phdrs).2).1 m m₂)
      (fun _ _ => (takeRegion noSegment (takeRegion text phdrs).2).2 ≠ []) (fun _ => False) m₁ := by
  induction phdrs generalizing text m₁ with
  | nil => exact ⟨rfl, hdescribed⟩
  | cons ph phdrs ih =>
      by_cases hfree : text.vbase = 0
      · obtain ⟨hhead, htail⟩ := List.forall_mem_cons.mp huser
        simp only [defineRegions, ↓Prog.wp_bind]
        rw [takeRegion, if_pos hfree]
        exact Prog.wp_mono (hdescribed.defineText hhead hfree) (fun _ _ hnext => ih hnext htail)
          (fun _ _ hfails => hfails.elim) (fun _ hbad => hbad)
      · rw [takeRegion, if_neg hfree]
        exact hdescribed.defineRest hfree huser

/-- The loop of `load_elf` over the segments of an executable. -/
theorem defineRegions_wp (hnone : NoRegions (m.addrspace a)) (v : Vnode)
    (huser : ∀ ph ∈ phdrs, ph.InUser) :
    Prog.wp (defineRegions a v phdrs)
      (fun _ m₁ => leftOver phdrs = [] ∧
        Described a v (textSegment phdrs) (dataSegment phdrs) m m₁)
      (fun _ _ => leftOver phdrs ≠ []) (fun _ => False) m :=
  (hnone.described v).defineAll huser

/-! What `page_read` is asked for. -/

/-- The region stands for a segment of the executable. -/
structure LoadRegion.Stands (r : LoadRegion) (bytes : List Byte) (ph : Phdr) : Prop where
  vbase : r.vbase = ph.vbase
  npages : r.npages = ph.npages
  file : 0 < ph.npages → r.vnode = fileVnode bytes ∧ r.offset = ph.pOffset ∧
    r.filesize = ph.pFilesz

variable {r : LoadRegion} {bytes : List Byte} {va vbase c turns i n x : Nat}

theorem TextIs.stands {as : Addrspace} (htext : TextIs as (fileVnode bytes) ph) :
    (textRegion as).Stands bytes ph := by
  refine ⟨htext.vbase, htext.npages, fun hpos => htext.file ?_⟩
  rintro rfl
  exact absurd hpos (by decide)

theorem DataIs.stands {as : Addrspace} (hdata : DataIs as (fileVnode bytes) ph) :
    (dataRegion as).Stands bytes ph := by
  refine ⟨hdata.vbase, hdata.npages, fun hpos => hdata.file ?_⟩
  rintro rfl
  exact absurd hpos (by decide)

/-- The counting loop finds the number of the page. -/
theorem pageCounter_eq (hc : c ≤ i) (hturns : i < c + turns) :
    pageCounter (vbase + i * PAGE_SIZE) vbase turns c = i := by
  induction turns generalizing c with
  | zero => omega
  | succ turns ih =>
      unfold pageCounter
      split
      case isTrue hmore =>
          have hlt : c < i := by
            simp only [PAGE_SIZE] at hmore
            omega
          exact ih hlt (by omega)
      case isFalse hdone =>
          simp only [PAGE_SIZE] at hdone
          omega

namespace LoadRegion.Stands

variable (hstands : r.Stands bytes ph) (huser : ph.InUser)

include hstands huser

theorem pageRange_eq (hi : i < ph.npages) :
    r.pageRange i = ((ph.pOffset + i * PAGE_SIZE) % 2 ^ 32,
      (ph.pFilesz + 2 ^ 32 - i * PAGE_SIZE % 2 ^ 32) % 2 ^ 32) := by
  obtain ⟨-, hoffset, hfilesize⟩ := hstands.file (by omega)
  have hbound := huser.npages_user
  have hva : (ph.vbase + i * PAGE_SIZE) % 2 ^ 32 = ph.vbase + i * PAGE_SIZE := by
    simp only [PAGE_SIZE, USERSTACK] at hbound ⊢
    omega
  have hturns : i < 0 + ((ph.vbase + i * PAGE_SIZE) / PAGE_SIZE + 1) := by
    simp only [PAGE_SIZE]
    omega
  simp only [pageRange, hstands.vbase, hva, hoffset, hfilesize,
    pageCounter_eq (Nat.zero_le i) hturns]

/-- The bytes that `VOP_READ` gives for page `i`. -/
theorem given (hgiven : ph.Given bytes.length) (hsize : bytes.length < 2 ^ 31)
    (hi : i < ph.npages) :
    r.vnode (r.pageRange i).1 (min (r.pageRange i).2 PAGE_SIZE) =
      ((bytes.drop (ph.pOffset + i * PAGE_SIZE)).take (ph.amount i), none) := by
  obtain ⟨hvnode, -⟩ := hstands.file (by omega)
  rw [hstands.pageRange_eq huser hi, hvnode, fileVnode]
  show ((bytes.drop _).take (ph.amount i), none) = _
  by_cases hzero : ph.amount i = 0
  · rw [hzero, List.take_zero, List.take_zero]
  · have hend := hgiven i hi (by omega)
    rw [Nat.mod_eq_of_lt (by omega)]

theorem reads (hgiven : ph.Given bytes.length) (hsize : bytes.length < 2 ^ 31)
    (hi : i < ph.npages) : Reads r.vnode (r.pageRange i) := by
  have hread := hstands.given huser hgiven hsize hi
  have hamount : min (r.pageRange i).2 PAGE_SIZE = ph.amount i := by
    rw [hstands.pageRange_eq huser hi]
    rfl
  refine ⟨by rw [hread], ?_⟩
  rw [hread, hamount, List.length_take, List.length_drop]
  by_cases hzero : ph.amount i = 0
  · omega
  · have hend := hgiven i hi (by omega)
    omega

theorem image_eq (hreads : r.reads = true) (hgiven : ph.Given bytes.length)
    (hsize : bytes.length < 2 ^ 31) (hx : x < ph.npages * PAGE_SIZE) :
    r.image (x / PAGE_SIZE) (x % PAGE_SIZE) = some (ph.loaded bytes x) := by
  have hi : x / PAGE_SIZE < ph.npages := by
    rw [Nat.div_lt_iff_lt_mul (by decide)]
    exact hx
  have hread := hstands.given huser hgiven hsize hi
  have hcomplete := hstands.reads huser hgiven hsize hi
  have hamount : min (r.pageRange (x / PAGE_SIZE)).2 PAGE_SIZE = ph.amount (x / PAGE_SIZE) := by
    rw [hstands.pageRange_eq huser hi]
    rfl
  have hplace : ph.pOffset + x / PAGE_SIZE * PAGE_SIZE + x % PAGE_SIZE = ph.pOffset + x := by
    rw [Nat.add_assoc, Nat.div_add_mod']
  rw [image, if_pos hreads, pageImage, Phdr.loaded]
  by_cases hfile : ph.FromFile x
  · have hlt := (huser.lt_amount_iff hx).mpr hfile
    rw [if_pos hfile, hamount, if_pos hlt, ← hamount, hread, List.getElem?_take_of_lt hlt,
      List.getElem?_drop, hplace]
    have hend := hgiven _ hi (by omega)
    rw [List.getD_eq_getElem?_getD, List.getElem?_eq_getElem (by omega), Option.getD_some]
  · have hge : ¬ x % PAGE_SIZE < ph.amount (x / PAGE_SIZE) := fun hlt =>
      hfile ((huser.lt_amount_iff hx).mp hlt)
    rw [if_neg hfile, hamount, if_neg hge, if_pos]
    rw [Reads, hamount] at hcomplete
    exact ⟨hcomplete.1, hcomplete.2, Nat.mod_lt x (by decide)⟩

end LoadRegion.Stands

end OS161.VM.Machine
