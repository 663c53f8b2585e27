import OS161.Sfs.Truncate

namespace OS161.Sfs

open OS161.Data
open OS161.Kern
open OS161.Lib

/-! Which blocks a truncated file has to keep, and when `sfs_truncate` leaves exactly these. -/

variable {fs fs' : SfsFs} {live : Nat → Bool} {sv ino n len blocklen : Nat}

/-- The blocks that a file of `len` bytes needs. -/
def keptBlocks (len : Nat) : Nat := (len + 511) / 512

/-- What a call of `sfs_truncate` should leave. -/
structure ExactlyTruncated (sv ino len : Nat) (fs fs' : SfsFs) : Prop where
  kept : ∀ k < keptBlocks len, fs'.blockAt ino (.data k) = fs.blockAt ino (.data k)
  unmapped : ∀ k, keptBlocks len ≤ k → k ≤ 142 → fs'.blockAt ino (.data k) = 0
  clear : ∀ k, keptBlocks len ≤ k → k ≤ 142 → fs.blockAt ino (.data k) ≠ 0 →
    fs'.sfsFreemap.bitmapIsset (fs.blockAt ino (.data k)) = false
  /-- The indirect block goes when no entry is left in it. -/
  released : (∀ k, 15 ≤ k → fs'.blockAt ino (.data k) = 0) →
    fs'.blockAt ino .indirect = 0 ∧ (fs.blockAt ino .indirect ≠ 0 →
      fs'.sfsFreemap.bitmapIsset (fs.blockAt ino .indirect) = false)
  retained : ∀ k, 15 ≤ k → fs'.blockAt ino (.data k) ≠ 0 →
    fs'.blockAt ino .indirect = fs.blockAt ino .indirect
  others : ∀ i, fs'.sfsFreemap.bitmapIsset i ≠ fs.sfsFreemap.bitmapIsset i →
    (∃ k, keptBlocks len ≤ k ∧ k ≤ 142 ∧ fs.blockAt ino (.data k) = i) ∨
      fs.blockAt ino .indirect = i ∧ fs'.blockAt ino .indirect = 0
  size : fs'.size sv = len

/-- The cases in which `sfs_truncate` is wrong by one do not arise: no block stands right
behind the new end in the indirect block, and no empty indirect block is there to be kept. -/
structure EndClear (fs : SfsFs) (ino len : Nat) : Prop where
  behind : 15 ≤ keptBlocks len → keptBlocks len ≤ 142 →
    fs.blockAt ino (.data (keptBlocks len)) = 0
  empty : 142 ≤ keptBlocks len → fs.blockAt ino .indirect ≠ 0 →
    ∃ k, 15 ≤ k ∧ fs.blockAt ino (.data k) ≠ 0

theorem blocksOf_of_small (hsmall : len + 511 < 2 ^ 31) : blocksOf len = keptBlocks len := by
  unfold blocksOf keptBlocks offT
  rw [Nat.mod_eq_of_lt (by omega), if_pos hsmall, Int.tdiv_eq_ediv_of_nonneg (by omega)]
  omega

/-- The sum overflows, but then the number of blocks is past the end of every file anyway. -/
theorem blocksOf_of_large (hlarge : 2 ^ 31 ≤ len + 511) (hlen : len < 2 ^ 31) :
    143 ≤ blocksOf len ∧ 143 ≤ keptBlocks len := by
  unfold blocksOf keptBlocks offT
  rw [Nat.mod_eq_of_lt (by omega), if_neg (by omega),
    show ((len + 511 : Nat) : Int) - 2 ^ 32 = -((2 ^ 32 - (len + 511) : Nat) : Int) by omega,
    Int.neg_tdiv, Int.tdiv_eq_ediv_of_nonneg (by omega)]
  omega

/-- Where a block is kept that should not be. -/
theorem kept_blocksOf (hlen : len < 2 ^ 31) (hk : k < 143) :
    kept (blocksOf len) k = true ↔
      k < keptBlocks len ∨ 15 ≤ k ∧ k = keptBlocks len ∨ 142 ≤ keptBlocks len ∧ 15 ≤ k := by
  unfold kept
  rw [decide_eq_true_eq]
  by_cases hsmall : len + 511 < 2 ^ 31
  · rw [blocksOf_of_small hsmall]
    split
    · omega
    · omega
  · obtain ⟨hblocks, hkept⟩ := blocksOf_of_large (by omega) hlen
    split
    · omega
    · omega

theorem blocksOf_lt_iff (hlen : len < 2 ^ 31) : blocksOf len < 142 ↔ keptBlocks len < 142 := by
  by_cases hsmall : len + 511 < 2 ^ 31
  · rw [blocksOf_of_small hsmall]
  · obtain ⟨hblocks, hkept⟩ := blocksOf_of_large (by omega) hlen
    omega

theorem MarksFollow.clear (hmarks : MarksFollow ino fs fs') {slot : Slot}
    (hgone : fs'.blockAt ino slot = 0) (hmapped : fs.blockAt ino slot ≠ 0) :
    fs'.sfsFreemap.bitmapIsset (fs.blockAt ino slot) = false := by
  rw [Bool.eq_false_iff]
  intro hset
  have hstays := (hmarks _).mp hset |>.2 slot rfl
  rw [hgone] at hstays
  exact hmapped hstays.symm

/-- A mark that changes was the mark of a block that some place has let go. -/
theorem MarksFollow.changed (hmarks : MarksFollow ino fs fs') {i : Nat}
    (hchanged : fs'.sfsFreemap.bitmapIsset i ≠ fs.sfsFreemap.bitmapIsset i) :
    ∃ slot, fs.blockAt ino slot = i ∧ fs'.blockAt ino slot ≠ i := by
  by_contra hnone
  apply hchanged
  rw [Bool.eq_iff_iff, hmarks i, and_iff_left_iff_imp]
  intro _ slot hat
  by_contra hgone
  exact hnone ⟨slot, hat, hgone⟩

theorem Truncated.exact_of_endClear (hcut : Truncated n live sv ino (blocksOf len) len fs fs')
    (hlen : len < 2 ^ 31) (hclear : EndClear fs ino len) :
    ExactlyTruncated sv ino len fs fs' := by
  have hpast : ∀ k, keptBlocks len ≤ k → k ≤ 142 → fs'.blockAt ino (.data k) = 0 := by
    intro k hge hrange
    rw [hcut.blocks]
    split
    case isFalse => rfl
    case isTrue hkept =>
        rw [kept_blocksOf hlen (by omega)] at hkept
        have hk : k = keptBlocks len ∧ 15 ≤ k := by omega
        have hbehind := hclear.behind (by omega) (by omega)
        rw [← hk.1] at hbehind
        exact hbehind
  have hreleased : (∀ k, 15 ≤ k → fs'.blockAt ino (.data k) = 0) →
      fs'.blockAt ino .indirect = 0 := by
    intro hnone
    by_cases hshort : blocksOf len < 142
    · exact hcut.emptied hshort hnone
    · rw [hcut.stays (by omega)]
      by_contra hsome
      rw [blocksOf_lt_iff hlen] at hshort
      obtain ⟨k, hk, hmapped⟩ := hclear.empty (by omega) hsome
      have hgone := hnone k hk
      rw [hcut.blocks, if_pos ((kept_blocksOf hlen (data_lt hmapped)).mpr (by omega))] at hgone
      exact hmapped hgone
  refine ⟨?_, hpast, ?_, ?_, ?_, ?_, hcut.size⟩
  · intro k hk
    rw [hcut.blocks]
    split
    case isTrue => rfl
    case isFalse hgone =>
        by_contra hmapped
        exact hgone ((kept_blocksOf hlen (data_lt (Ne.symm hmapped))).mpr (Or.inl hk))
  · intro k hge hrange hmapped
    exact hcut.marks.clear (hpast k hge hrange) hmapped
  · intro hnone
    have hgone := hreleased hnone
    exact ⟨hgone, hcut.marks.clear hgone⟩
  · intro k hk hmapped
    rcases hcut.indirect with hsame | hgone
    · exact hsame
    · rw [SfsFs.blockAt, dataBlock, if_neg (by omega), if_neg] at hmapped
      · exact absurd rfl hmapped
      · exact fun hin => hin.2 hgone
  · intro i hchanged
    obtain ⟨slot, hat, hgone⟩ := hcut.marks.changed hchanged
    cases slot with
    | inode => exact absurd hat hgone
    | indirect =>
        right
        refine ⟨hat, ?_⟩
        rcases hcut.indirect with hsame | hempty
        · rw [hsame] at hgone
          exact absurd hat hgone
        · exact hempty
    | data k =>
        left
        rw [hcut.blocks] at hgone
        split at hgone
        case isTrue => exact absurd hat hgone
        case isFalse hcutoff =>
            have hmapped : fs.blockAt ino (.data k) ≠ 0 := by
              rw [hat]
              exact Ne.symm hgone
            have hrange := data_lt hmapped
            rw [kept_blocksOf hlen hrange] at hcutoff
            exact ⟨k, by omega, by omega, hat⟩

theorem Truncated.endClear_of_exact (hcut : Truncated n live sv ino (blocksOf len) len fs fs')
    (hlen : len < 2 ^ 31) (hexact : ExactlyTruncated sv ino len fs fs') :
    EndClear fs ino len where
  behind := by
    intro hlow hhigh
    have hgone := hexact.unmapped (keptBlocks len) (Nat.le_refl _) hhigh
    rw [hcut.blocks, if_pos ((kept_blocksOf hlen (by omega)).mpr (by omega))] at hgone
    exact hgone
  empty := by
    intro hlong hsome
    by_contra hnone
    have hstays := hcut.stays (by
      have := blocksOf_lt_iff hlen
      omega)
    rw [(hexact.released ?_).1] at hstays
    · exact hsome hstays.symm
    · intro k hk
      rw [hcut.blocks]
      split
      · by_contra hmapped
        exact hnone ⟨k, hk, hmapped⟩
      · rfl

/-- `sfs_truncate` leaves exactly the blocks of the new length if and only if none of its
two wrong comparisons meets a block. -/
theorem truncate_exact_iff (h : Files n live fs) (hloaded : Loaded fs sv ino)
    (hlen : len < 2 ^ 31) :
    (∃ fs', sfsTruncate sv len fs = .ok () fs' ∧ ExactlyTruncated sv ino len fs fs') ↔
      EndClear fs ino len := by
  have hfits : len < 2 ^ 32 := by omega
  have hrun := sfsTruncate_wp h hloaded hfits
  obtain ⟨_, fs', hdone, hcut⟩ := hrun.exists_ok
  constructor
  · intro ⟨fs'', hdone', hexact⟩
    rw [hdone] at hdone'
    cases hdone'
    exact hcut.endClear_of_exact hlen hexact
  · intro hclear
    exact ⟨fs', hdone, hcut.exact_of_endClear hlen hclear⟩

/-! A disk of six blocks: the root, an inode in block 3 and its indirect block 4, which has
block 5 as the sixteenth of the file. -/

private def sixInode : Block :=
  ((Record.zeros.set sfiSize 8192).set sfiType 1).set sfiIndirect 4

private def sixBlocks : SfsFs where
  disk b :=
    if b = 1 then Record.zeros.set sfiType 2
    else if b = 3 then sixInode
    else if b = 4 then Record.zeros.set (idbufEntry 0) 5
    else Record.zeros
  dBlocks := 6
  mediaErrors := []
  sfsSuper := Record.zeros.set spNblocksField 6
  sfsSuperdirty := false
  sfsVnodes := [0]
  vnode _ := ⟨.sfsFileops, 1, sixInode, 3, false⟩
  sfsFreemap := { nbits := 4096, v := fun _ => 0xff#8 }
  sfsFreemapdirty := false

private def sixLive (ino : Nat) : Bool := ino = 1 || ino = 3

private theorem sixBlocks_root (k : Nat) : dataBlock sixBlocks.disk (sixBlocks.inode 1) k = 0 := by
  have hinode : sixBlocks.inode 1 = (Record.zeros : Block).set sfiType 2 := rfl
  rw [hinode, dataBlock_set_header _ _ header_sfiType]
  simp [dataBlock]

private theorem sixBlocks_data (k : Nat) :
    sixBlocks.blockAt 3 (.data k) = if k = 15 then 5 else 0 := by
  have hindirect : sixInode.get sfiIndirect = 4 := indirect_set_indirect _ (by decide)
  have hdirect : ∀ i < 15, sixInode.get (sfiDirect i) = 0 := by
    intro i hi
    rw [sixInode, direct_set_indirect _ hi, header_sfiType.direct _ hi, header_sfiSize.direct _ hi,
      Record.get_zeros]
  have hinode : sixBlocks.inode 3 = sixInode := rfl
  have hdisk : sixBlocks.disk 4 = Record.zeros.set (idbufEntry 0) 5 := rfl
  rw [SfsFs.blockAt, hinode, dataBlock, hindirect, hdisk]
  by_cases hk : k < 15
  · rw [if_pos hk, hdirect k hk, if_neg (by omega)]
  · rw [if_neg hk]
    by_cases hrange : k < 143
    · rw [if_pos ⟨hrange, by decide⟩, entry_set_entry _ (by omega) (by omega) (by decide),
        Record.get_zeros]
      simp only [show k - 15 = 0 ↔ k = 15 by omega]
    · rw [if_neg (fun hin => hrange hin.1), if_neg (by omega)]

private theorem sixBlocks_held (p : Place) :
    sixBlocks.held sixLive p =
      if p = ⟨1, .inode⟩ then 1 else if p = ⟨3, .inode⟩ then 3
      else if p = ⟨3, .indirect⟩ then 4 else if p = ⟨3, .data 15⟩ then 5 else 0 := by
  obtain ⟨ino, slot⟩ := p
  by_cases hroot : ino = 1
  · subst hroot
    cases slot with
    | inode => rfl
    | indirect => simp [SfsFs.held, SfsFs.blockAt, sixLive, sixBlocks, SfsFs.inode, SfsFs.loaded,
        header_sfiType.indirect]
    | data k =>
        rw [held_of_live rfl]
        exact (sixBlocks_root k).trans (by simp)
  · by_cases hfile : ino = 3
    · subst hfile
      cases slot with
      | inode => rfl
      | indirect => exact indirect_set_indirect _ (by decide)
      | data k =>
          rw [held_of_live rfl, sixBlocks_data]
          simp
    · rw [SfsFs.held, if_neg (by simp [sixLive, hroot, hfile])]
      simp [hroot, hfile]

/-- The place that holds a block of the disk. -/
private def sixPlace (b : Nat) : Place :=
  if b = 1 then ⟨1, .inode⟩ else if b = 3 then ⟨3, .inode⟩
  else if b = 4 then ⟨3, .indirect⟩ else ⟨3, .data 15⟩

private theorem sixBlocks_place {p : Place} (hp : sixBlocks.held sixLive p ≠ 0) :
    sixPlace (sixBlocks.held sixLive p) = p ∧ (p = ⟨1, .inode⟩ ∨
      3 ≤ sixBlocks.held sixLive p ∧ sixBlocks.held sixLive p < 6) := by
  rw [sixBlocks_held] at hp ⊢
  by_cases hroot : p = ⟨1, .inode⟩
  · rw [if_pos hroot, hroot]
    exact ⟨rfl, Or.inl rfl⟩
  · rw [if_neg hroot] at hp ⊢
    by_cases hinode : p = ⟨3, .inode⟩
    · rw [if_pos hinode, hinode]
      exact ⟨rfl, Or.inr (by decide)⟩
    · rw [if_neg hinode] at hp ⊢
      by_cases hindirect : p = ⟨3, .indirect⟩
      · rw [if_pos hindirect, hindirect]
        exact ⟨rfl, Or.inr (by decide)⟩
      · rw [if_neg hindirect] at hp ⊢
        by_cases hdata : p = ⟨3, .data 15⟩
        · rw [if_pos hdata, hdata]
          exact ⟨rfl, Or.inr (by decide)⟩
        · rw [if_neg hdata] at hp
          exact absurd rfl hp

private theorem sixBlocks_marked (i : Nat) : sixBlocks.sfsFreemap.bitmapIsset i = true := by
  rw [Bitmap.bitmapIsset_eq, BitWords.bit]
  exact BitVec.getLsbD_allOnes.trans (by simp; omega)

private theorem sixBlocks_files : Files 6 sixLive sixBlocks where
  sized := ⟨by decide, by decide⟩
  guarded := by
    refine ⟨Record.get_set _ (by decide) (by decide), Nat.le_refl _, by decide, ?_⟩
    exact fun i _ _ => sixBlocks_marked i
  quiet := rfl
  nodup := by decide
  distinct := by
    intro sv hsv sv' hsv' _
    rw [List.mem_singleton.mp hsv, List.mem_singleton.mp hsv']
  alive := fun _ _ => rfl
  dead := rfl
  clean := fun _ _ _ => rfl
  holding := by
    constructor
    · intro p hp
      refine ⟨sixBlocks_marked _, fun hroot => ?_⟩
      have hmap : sfsBitblocks 6 = 1 := by decide
      rcases (sixBlocks_place hp).2 with hat | hfree
      · exact absurd hat hroot
      · unfold Reserved
        omega
    · intro p q hsame hp
      rw [← (sixBlocks_place hp).1, hsame]
      rw [hsame] at hp
      exact (sixBlocks_place hp).1

private theorem sixBlocks_loaded : Loaded sixBlocks 0 3 := ⟨List.mem_singleton.mpr rfl, rfl⟩

theorem truncate_exact_to_one_block :
    ∃ fs', sfsTruncate 0 100 sixBlocks = .ok () fs' ∧
      ExactlyTruncated 0 3 100 sixBlocks fs' :=
  (truncate_exact_iff sixBlocks_files sixBlocks_loaded (by decide)).mpr
    ⟨fun hlow => absurd hlow (by decide), fun hlow => absurd hlow (by decide)⟩

/-- Cut to fifteen blocks, the file keeps its sixteenth. -/
theorem sixteenth_block_stays :
    ∃ fs', sfsTruncate 0 7680 sixBlocks = .ok () fs' ∧ fs'.blockAt 3 (.data 15) = 5 ∧
      ¬ ExactlyTruncated 0 3 7680 sixBlocks fs' := by
  have hrun := @sfsTruncate_wp sixBlocks sixLive 0 3 6 7680 sixBlocks_files sixBlocks_loaded
    (by decide)
  obtain ⟨_, fs', hdone, hcut⟩ := hrun.exists_ok
  have hstays : fs'.blockAt 3 (.data 15) = 5 := by
    rw [hcut.blocks, sixBlocks_data, if_pos]
    · rfl
    · exact (kept_blocksOf (by decide) (by decide)).mpr (by decide)
  refine ⟨fs', hdone, hstays, ?_⟩
  intro hexact
  have hgone := hexact.unmapped 15 (by decide) (by decide)
  rw [hstays] at hgone
  cases hgone

end OS161.Sfs
