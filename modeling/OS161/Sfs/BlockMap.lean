import OS161.Sfs.Mapping
import OS161.Sfs.Names

namespace OS161.Sfs

open OS161.Data
open OS161.Kern

/-! What `sfs_bmap` leaves of the block numbers of all files. -/

variable {fs fs' : SfsFs} {live : Nat → Bool} {sv ino n b k : Nat}

/-- Every block of every file is where it was, but for block `k` of `ino`. -/
def MapSame (live : Nat → Bool) (ino k : Nat) (fs fs' : SfsFs) : Prop :=
  ∀ ino' j, live ino' = true → ino' ≠ ino ∨ j ≠ k →
    fs'.blockAt ino' (.data j) = fs.blockAt ino' (.data j)

theorem MapSame.of_only (h : Files n live fs) (hloaded : Loaded fs sv ino)
    (honly : OnlyFile live sv fs fs')
    (hown : ∀ j, j ≠ k → fs'.blockAt ino (.data j) = fs.blockAt ino (.data j)) :
    MapSame live ino k fs fs' := by
  intro ino' j hlive hother
  by_cases hino : ino' = ino
  · subst hino
    exact hown j (hother.resolve_left fun hne => hne rfl)
  · refine honly.blockAt hlive ?_ (h.ne_zero hlive) (.data j)
    rw [hloaded.ino]
    exact hino

/-- `sfs_bmap` has come back with a block, and will do so again. -/
structure GivesBlock (n : Nat) (live : Nat → Bool) (sv ino k : Nat) (fs : SfsFs) (b : Nat)
    (fs' : SfsFs) : Prop where
  files : Files n live fs'
  others : MapSame live ino k fs fs'
  nonzero : b ≠ 0
  block : fs'.blockAt ino (.data k) = b
  kept : fs.blockAt ino (.data k) ≠ 0 → fs' = fs
  fresh : fs.blockAt ino (.data k) = 0 →
    fs.sfsFreemap.bitmapIsset b = false ∧ fs'.disk b = Record.zeros
  again : ∀ doalloc, sfsBmap sv k doalloc fs' = .ok b fs'

/-- `sfs_bmap` has found no room for the block. -/
structure GivesNone (n : Nat) (live : Nat → Bool) (ino k : Nat) (fs fs' : SfsFs) : Prop where
  files : Files n live fs'
  others : MapSame live ino k fs fs'
  hole : fs.blockAt ino (.data k) = 0
  still : fs'.blockAt ino (.data k) = 0

/-- Where nothing is to be allocated, `sfs_bmap` only looks. -/
theorem sfsBmap_looks (h : Files n live fs) (hloaded : Loaded fs sv ino) (hk : k < 143)
    (hthere : doalloc = true → fs.blockAt ino (.data k) ≠ 0) :
    sfsBmap sv k doalloc fs = .ok (fs.blockAt ino (.data k)) fs := by
  have hlooks : (sfsBmap sv k doalloc).Returns
      (fun b fs' => b = fs.blockAt ino (.data k) ∧ fs' = fs) fs :=
    sfsBmap_there h hloaded hk hthere ⟨rfl, rfl⟩
  obtain ⟨_, _, hrun, rfl, rfl⟩ := hlooks.exists_ok
  exact hrun

theorem Bmapped.gives (h : Files n live fs) (hloaded : Loaded fs sv ino) (hk : k < 143)
    (hmaps : Bmapped n live sv ino k fs b fs') : GivesBlock n live sv ino k fs b fs' where
  files := hmaps.leaves.files
  others := .of_only h hloaded hmaps.leaves.only hmaps.others
  nonzero := hmaps.mapped
  block := hmaps.block
  kept := hmaps.kept
  fresh := hmaps.fresh
  again doalloc := by
    have hthere : fs'.blockAt ino (.data k) ≠ 0 := by
      rw [hmaps.block]
      exact hmaps.mapped
    have hlooks : sfsBmap sv k doalloc fs' = .ok (fs'.blockAt ino (.data k)) fs' :=
      sfsBmap_looks hmaps.leaves.files (hloaded.only hmaps.leaves.only) hk fun _ => hthere
    rw [hmaps.block] at hlooks
    exact hlooks

/-- Without `doalloc`, `sfs_bmap` changes nothing and hands back the block or 0.  With it, the
block it hands back is new only where there was none, and no other block of any file moves,
also where there is no room. Only a block past the end of every file is `EINVAL`. -/
theorem sfs_bmap_frame (h : Files n live fs) (hloaded : Loaded fs sv ino) (k : Nat) :
    (143 ≤ k → ∀ doalloc, sfsBmap sv k doalloc fs = .error .EINVAL fs) ∧
    (k < 143 → sfsBmap sv k false fs = .ok (fs.blockAt ino (.data k)) fs ∧
      ((∃ b fs', sfsBmap sv k true fs = .ok b fs' ∧ GivesBlock n live sv ino k fs b fs') ∨
        ∃ fs', sfsBmap sv k true fs = .error .ENOSPC fs' ∧ GivesNone n live ino k fs fs')) := by
  refine ⟨fun hpast doalloc => ?_, fun hk => ⟨?_, ?_⟩⟩
  · unfold sfsBmap
    rw [if_neg (by omega), if_pos (by omega)]
    rfl
  · exact sfsBmap_looks h hloaded hk fun hflag => by cases hflag
  · have hmaps := sfsBmap_maps h hloaded hk
    cases hrun : sfsBmap sv k true fs with
    | ok b fs' => exact .inl ⟨b, fs', rfl, (hmaps.post_of_ok hrun).gives h hloaded hk⟩
    | error code fs' =>
        have hfull := hmaps.fails_of_error hrun
        have hcode := hfull.code
        subst hcode
        exact .inr ⟨fs', rfl, hfull.leaves.files,
          .of_only h hloaded hfull.leaves.only fun j _ => hfull.same j, hfull.hole,
          (hfull.same k).trans hfull.hole⟩
    | panic reason =>
        rw [Prog.wp, hrun] at hmaps
        exact hmaps.elim

/-- The first block past the one that the root directory has. -/
theorem sfs_bmap_frame_second_block :
    ∃ fs', sfsBmap 0 1 true (oneFile []) = .ok 5 fs' ∧
      GivesBlock 6 oneFileLive 0 1 1 (oneFile []) 5 fs' := by
  have hfive : (sfsBmap 0 1 true (oneFile [])).returned = some 5 := by decide +kernel
  have hrun := Result.eq_ok_of_returned (oneFile []) hfive
  have hframe := (sfs_bmap_frame oneFile_sound.files oneFile_root 1).2 (by decide)
  rcases hframe.2 with ⟨b, fs', hok, hgives⟩ | ⟨fs', herror, -⟩
  · rw [hrun] at hok
    cases hok
    exact ⟨_, hrun, hgives⟩
  · rw [hrun] at herror
    cases herror

end OS161.Sfs
