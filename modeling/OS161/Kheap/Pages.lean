import Mathlib.Data.List.Perm.Basic
import OS161.Data.Links
import OS161.Kheap.Heap

namespace OS161.Kheap

open OS161.Data

/-- A page cut into blocks: its free blocks in the order of the free list, and
the blocks handed out with the sizes asked for. -/
structure Page where
  ref : Nat
  addr : Nat
  blktype : Nat
  free : List Nat
  held : List (Nat × Nat)
  deriving DecidableEq, Repr

def blocksOf (addr blktype : Nat) : List Nat :=
  (List.range (PAGE_SIZE / sizes blktype)).map fun i => addr + i * sizes blktype

/-- The free block that a free block names in its first word. -/
def freeNext (mem : Nat → Nat) (fl : Nat) : Option Nat :=
  if mem fl = 0 then none else some (mem fl)

def offsetOf (addr : Nat) : List Nat → Nat
  | [] => INVALID_OFFSET
  | fl :: _ => fl - addr

structure PageOk (mem : Nat → Nat) (r : Pageref) (pg : Page) : Prop where
  type : pg.blktype < NSIZES
  refLt : pg.ref < NPAGEREFS
  aligned : pg.addr % 4096 = 0
  pos : 0 < pg.addr
  high : pg.addr + PAGE_SIZE ≤ 0xa0000000
  pab : r.pageaddrAndBlocktype = pg.addr + pg.blktype
  offset : r.freelistOffset = offsetOf pg.addr pg.free
  nfree : r.nfree = pg.free.length
  links : Links (freeNext mem) pg.free.head? pg.free none
  partition : (pg.free ++ pg.held.map Prod.fst).Perm (blocksOf pg.addr pg.blktype)
  fits : ∀ entry ∈ pg.held, entry.2 ≤ sizes pg.blktype

theorem sizes_facts : ∀ t < NSIZES, 16 ≤ sizes t ∧ sizes t ≤ 2048 ∧ sizes t % 4 = 0 ∧
    PAGE_SIZE / sizes t * sizes t = 4096 ∧ 2 ≤ PAGE_SIZE / sizes t ∧
    PAGE_SIZE / sizes t ≤ 256 := by
  decide

section Blocks

variable {addr t fl fl' : Nat}

theorem mem_blocksOf : fl ∈ blocksOf addr t ↔
    ∃ i < PAGE_SIZE / sizes t, fl = addr + i * sizes t := by
  simp [blocksOf, eq_comm]

/-- A block lies inside its page. -/
theorem blocksOf_bounds (ht : t < NSIZES) (hfl : fl ∈ blocksOf addr t) :
    addr ≤ fl ∧ fl + sizes t ≤ addr + 4096 ∧ (fl - addr) % sizes t = 0 := by
  obtain ⟨-, -, -, hwhole, -, -⟩ := sizes_facts t ht
  obtain ⟨i, hi, rfl⟩ := mem_blocksOf.mp hfl
  have hle := Nat.mul_le_mul_right (sizes t) (Nat.succ_le_of_lt hi)
  rw [Nat.succ_mul] at hle
  refine ⟨by omega, by omega, ?_⟩
  rw [Nat.add_sub_cancel_left, Nat.mul_mod_left]

/-- Two blocks of a page do not overlap. -/
theorem blocksOf_apart (hfl : fl ∈ blocksOf addr t) (hfl' : fl' ∈ blocksOf addr t)
    (hne : fl ≠ fl') : fl + sizes t ≤ fl' ∨ fl' + sizes t ≤ fl := by
  obtain ⟨i, -, rfl⟩ := mem_blocksOf.mp hfl
  obtain ⟨j, -, rfl⟩ := mem_blocksOf.mp hfl'
  rcases Nat.lt_trichotomy i j with hlt | heq | hgt
  · have hle := Nat.mul_le_mul_right (sizes t) (Nat.succ_le_of_lt hlt)
    rw [Nat.succ_mul] at hle
    omega
  · exact absurd (by rw [heq]) hne
  · have hle := Nat.mul_le_mul_right (sizes t) (Nat.succ_le_of_lt hgt)
    rw [Nat.succ_mul] at hle
    omega

theorem blocksOf_nodup (ht : t < NSIZES) : (blocksOf addr t).Nodup := by
  have hpos := (sizes_facts t ht).1
  refine List.Nodup.map ?_ List.nodup_range
  intro i j heq
  exact Nat.eq_of_mul_eq_mul_right (by omega) (Nat.add_left_cancel heq)

@[simp] theorem length_blocksOf : (blocksOf addr t).length = PAGE_SIZE / sizes t := by
  simp [blocksOf]

end Blocks

namespace PageOk

variable {mem mem' : Nat → Nat} {r : Pageref} {pg : Page}

theorem pageaddr (hok : PageOk mem r pg) : r.pageaddr = pg.addr := by
  have haligned := hok.aligned
  have htype := hok.type
  simp only [NSIZES] at htype
  simp only [Pageref.pageaddr, hok.pab]
  omega

theorem blocktype (hok : PageOk mem r pg) : r.blocktype = pg.blktype := by
  have haligned := hok.aligned
  have htype := hok.type
  simp only [NSIZES] at htype
  simp only [Pageref.blocktype, hok.pab]
  omega

theorem free_mem (hok : PageOk mem r pg) (hfl : fl ∈ pg.free) :
    fl ∈ blocksOf pg.addr pg.blktype :=
  hok.partition.mem_iff.mp (List.mem_append_left _ hfl)

theorem held_mem (hok : PageOk mem r pg) (hentry : entry ∈ pg.held) :
    entry.1 ∈ blocksOf pg.addr pg.blktype :=
  hok.partition.mem_iff.mp (List.mem_append_right _ (List.mem_map_of_mem hentry))

theorem length_eq (hok : PageOk mem r pg) :
    pg.free.length + pg.held.length = PAGE_SIZE / sizes pg.blktype := by
  have hlength := hok.partition.length_eq
  rwa [List.length_append, List.length_map, length_blocksOf] at hlength

theorem nodup (hok : PageOk mem r pg) : (pg.free ++ pg.held.map Prod.fst).Nodup :=
  hok.partition.nodup_iff.mpr (blocksOf_nodup hok.type)

/-- Only the first words of the free blocks matter. -/
theorem congr (hok : PageOk mem r pg) (hmem : ∀ fl ∈ pg.free, mem' fl = mem fl) :
    PageOk mem' r pg := by
  refine { hok with links := hok.links.congr ?_ }
  intro fl hfl
  simp only [freeNext, hmem fl hfl]

end PageOk

/-- The bit of the table that stands for a pageref. -/
def KHeap.used (h : KHeap) (pr : Nat) : Bool :=
  (h.pagerefsInuse (pr / 32)).getLsbD (pr % 32)

/-- The tables of the allocator describe these pages, newest first. -/
structure Managed (h : KHeap) (pages : List Page) : Prop where
  all : Links (h.next .all) h.allbase (pages.map Page.ref) none
  samesize : ∀ t, t < NSIZES → Links (h.next (.samesize t)) (h.sizebases t)
    ((pages.filter fun pg => decide (pg.blktype = t)).map Page.ref) none
  inuse : ∀ pr, pr < NPAGEREFS → (h.used pr = true ↔ pr ∈ pages.map Page.ref)
  each : ∀ pg ∈ pages, PageOk h.mem (h.pagerefs pg.ref) pg

end OS161.Kheap
