import OS161.Data.Bytes
import OS161.Data.Prog
import OS161.Kern.Base

namespace OS161.Vfs

open OS161.Data
open OS161.Kern

/-! The transfers of `kern/userprog/uio.c`. -/

inductive UioRw where
  | UIO_READ
  | UIO_WRITE
  deriving DecidableEq, Repr

structure Uio where
  uioRw : UioRw
  uioOffset : Nat
  uioResid : Nat
  /-- The part of the buffer before `iov_kbase`. -/
  passed : List Byte
  /-- The `iov_len` bytes from `iov_kbase` on. -/
  iov : List Byte
  /-- How many of these bytes `copyin` and `copyout` can reach when the buffer is in
  user space. -/
  userReach : Option Nat
  deriving DecidableEq, Repr

namespace Uio

abbrev Op := Prog Errno Fault Uio

def mkKuio (buffer : List Byte) (pos : Nat) (rw : UioRw) : Uio where
  uioRw := rw
  uioOffset := pos
  uioResid := buffer.length
  passed := []
  iov := buffer
  userReach := none

/-- The uio after the bytes `data` went through it. -/
def advance (u : Uio) (data : List Byte) : Uio := { u with
  uioOffset := u.uioOffset + data.length
  uioResid := (u.uioResid + 2 ^ 32 - data.length) % 2 ^ 32
  passed := u.passed ++ data
  iov := u.iov.drop data.length
  userReach := u.userReach.map (· - data.length) }

/-- The bytes that move between `ptr` and the buffer. -/
def moving (u : Uio) (ptr : List Byte) (size : Nat) : List Byte :=
  match u.uioRw with
  | .UIO_READ => ptr.take size
  | .UIO_WRITE => u.iov.take size

def unreachable (u : Uio) (size : Nat) : Bool :=
  match u.userReach with
  | none => false
  | some reach => reach < size

/-- The loop of `uiomove`; `ptr` holds the `n` bytes at its pointer, and the
result what they are afterwards. -/
def uiomoveLoop : (turns : Nat) → (ptr : List Byte) → (n : Nat) → Op (List Byte)
  | 0, ptr, _ => pure ptr
  | turns + 1, ptr, n => do
      let u ← Prog.get
      if n = 0 ∨ u.uioResid = 0 then pure ptr
      else do
        let size := min u.iov.length n
        Prog.assert (size ≠ 0) .uiomoveSize
        Prog.when (u.unreachable size = true) (Prog.fail .EFAULT)
        Prog.modify fun u => u.advance (u.moving ptr size)
        let rest ← uiomoveLoop turns (ptr.drop size) (n - size)
        pure (u.moving ptr size ++ rest)

def uiomove (ptr : List Byte) (n : Nat) : Op (List Byte) := uiomoveLoop (n + 1) ptr n

def uiomovezerosLoop : (turns n : Nat) → Op Unit
  | 0, _ => pure ()
  | turns + 1, n =>
      Prog.when (n > 0) (do
        let amt := min 16 n
        let _ ← uiomove (List.replicate amt 0) amt
        uiomovezerosLoop turns (n - amt))

def uiomovezeros (n : Nat) : Op Unit := do
  let u ← Prog.get
  Prog.assert (u.uioRw = .UIO_READ) .uiomovezerosRead
  uiomovezerosLoop n n

/-! What the transfers do where the residue is what the buffer holds. -/

variable {u : Uio}

/-- The buffer covers the residue. -/
structure Covers (u : Uio) : Prop where
  resid : u.uioResid ≤ u.iov.length
  word : u.uioResid < 2 ^ 32

/-- Every byte of the residue can be reached. -/
def Resident (u : Uio) : Prop := ∀ reach ∈ u.userReach, u.uioResid ≤ reach

theorem Covers.resid_advance (hcovers : u.Covers) {data : List Byte}
    (hdata : data.length ≤ u.uioResid) :
    (u.advance data).uioResid = u.uioResid - data.length := by
  have hword := hcovers.word
  show (u.uioResid + 2 ^ 32 - data.length) % 2 ^ 32 = u.uioResid - data.length
  omega

theorem Covers.advance (hcovers : u.Covers) {data : List Byte}
    (hdata : data.length ≤ u.uioResid) : (u.advance data).Covers := by
  have hresid := hcovers.resid_advance hdata
  have hbuffer := hcovers.resid
  have hword := hcovers.word
  refine ⟨?_, by omega⟩
  rw [hresid]
  show u.uioResid - data.length ≤ (u.iov.drop data.length).length
  rw [List.length_drop]
  omega

theorem Resident.advance (hresident : u.Resident) (hcovers : u.Covers) {data : List Byte}
    (hdata : data.length ≤ u.uioResid) : (u.advance data).Resident := by
  intro reach hreach
  rw [hcovers.resid_advance hdata]
  obtain ⟨reach, hbefore, rfl⟩ := Option.map_eq_some_iff.mp hreach
  have := hresident reach hbefore
  omega

theorem advance_nil (hcovers : u.Covers) : u.advance [] = u := by
  have hresid : (u.advance []).uioResid = u.uioResid := by
    rw [hcovers.resid_advance (Nat.zero_le _), List.length_nil, Nat.sub_zero]
  cases hu : u with
  | mk rw offset resid passed iov reach =>
      subst hu
      simp only [Uio.advance] at hresid
      simp only [Uio.advance, hresid]
      cases reach with
      | none => simp
      | some reach => simp

theorem advance_append (hcovers : u.Covers) {data data' : List Byte}
    (hdata : data.length + data'.length ≤ u.uioResid) :
    (u.advance data).advance data' = u.advance (data ++ data') := by
  have hword := hcovers.word
  have hresid : (u.uioResid + 2 ^ 32 - data.length) % 2 ^ 32 = u.uioResid - data.length := by
    omega
  simp only [Uio.advance, hresid, List.length_append, List.append_assoc, List.drop_drop]
  congr 1
  · omega
  · omega
  · cases u.userReach with
    | none => rfl
    | some reach => simp [Nat.sub_sub]

theorem uiomove_wp (hcovers : u.Covers) (hn : n ≤ u.uioResid) (hptr : ptr.length = n) :
    Prog.wp (uiomove ptr n)
      (fun moved u' => moved = u.moving ptr n ∧ u' = u.advance (u.moving ptr n))
      (fun code u' => code = .EFAULT ∧ ¬ u.Resident ∧ u' = u) (fun _ => False) u := by
  have hbuffer := hcovers.resid
  unfold uiomove uiomoveLoop
  simp only [↓Prog.wp_bind, ↓Prog.wp_get, ↓Prog.wp_ite, ↓Prog.wp_pure]
  split
  case isTrue hstop =>
      obtain rfl : n = 0 := by omega
      obtain rfl : ptr = [] := List.length_eq_zero_iff.mp hptr
      have hnone : u.moving [] 0 = [] := by
        unfold moving
        cases u.uioRw with
        | UIO_READ => rfl
        | UIO_WRITE => rfl
      rw [hnone, advance_nil hcovers]
      exact ⟨rfl, rfl⟩
  case isFalse hgo =>
      have hsize : min u.iov.length n = n := by omega
      simp only [hsize, ↓Prog.wp_assert, ↓Prog.wp_when, ↓Prog.wp_fail]
      rw [if_pos (by omega)]
      split
      case isTrue hfault =>
          refine ⟨trivial, ?_, trivial⟩
          intro hresident
          unfold unreachable at hfault
          cases hreach : u.userReach with
          | none => simp [hreach] at hfault
          | some reach =>
              have hlt : reach < n := by simpa [hreach] using hfault
              have := hresident reach hreach
              omega
      case isFalse =>
          obtain ⟨n, rfl⟩ : ∃ k, n = k + 1 := ⟨n - 1, by omega⟩
          simp only [↓Prog.wp_modify, Nat.sub_self, uiomoveLoop, ↓Prog.wp_bind, ↓Prog.wp_get,
            true_or, if_true, ↓Prog.wp_pure]
          rw [← hptr, List.drop_length, List.append_nil]
          exact ⟨rfl, trivial⟩

theorem uiomovezerosLoop_wp (hcovers : u.Covers) (hread : u.uioRw = .UIO_READ)
    (hn : n ≤ u.uioResid) (hturns : n ≤ turns) :
    Prog.wp (uiomovezerosLoop turns n) (fun _ u' => u' = u.advance (List.replicate n 0))
      (fun code _ => code = .EFAULT ∧ ¬ u.Resident) (fun _ => False) u := by
  induction turns generalizing u n with
  | zero =>
      obtain rfl : n = 0 := by omega
      exact (advance_nil hcovers).symm
  | succ turns ih =>
      simp only [uiomovezerosLoop, ↓Prog.wp_when, ↓Prog.wp_bind]
      split
      case isFalse hdone =>
          obtain rfl : n = 0 := by omega
          exact (advance_nil hcovers).symm
      case isTrue hgo =>
          have hamt : (List.replicate (min 16 n) (0 : Byte)).length = min 16 n :=
            List.length_replicate
          refine Prog.wp_mono (uiomove_wp hcovers (by omega) hamt) ?_
            (fun _ _ h => ⟨h.1, h.2.1⟩) (fun _ h => h)
          rintro _ _ ⟨-, rfl⟩
          have hmoving : u.moving (List.replicate (min 16 n) 0) (min 16 n) =
              List.replicate (min 16 n) 0 := by
            rw [moving, hread]
            exact List.take_of_length_le (Nat.le_of_eq hamt)
          rw [hmoving]
          have hfits : (List.replicate (min 16 n) (0 : Byte)).length ≤ u.uioResid := by
            omega
          have hresid := hcovers.resid_advance hfits
          have hrest := @ih (u.advance (List.replicate (min 16 n) 0)) (n - min 16 n)
            (hcovers.advance hfits) hread (by omega) (by omega)
          refine Prog.wp_mono hrest ?_ ?_ (fun _ h => h)
          · rintro _ _ rfl
            have hboth : List.replicate (min 16 n) (0 : Byte) ++
                List.replicate (n - min 16 n) 0 = List.replicate n 0 := by
              rw [List.replicate_append_replicate, show min 16 n + (n - min 16 n) = n by omega]
            rw [advance_append hcovers (by simp; omega), hboth]
          · rintro _ _ ⟨hcode, hfault⟩
            exact ⟨hcode, fun hresident => hfault (hresident.advance hcovers hfits)⟩

theorem uiomovezeros_wp (hcovers : u.Covers) (hread : u.uioRw = .UIO_READ)
    (hn : n ≤ u.uioResid) :
    Prog.wp (uiomovezeros n) (fun _ u' => u' = u.advance (List.replicate n 0))
      (fun code _ => code = .EFAULT ∧ ¬ u.Resident) (fun _ => False) u := by
  simp only [uiomovezeros, ↓Prog.wp_bind, ↓Prog.wp_get, ↓Prog.wp_assert, hread, if_true]
  exact uiomovezerosLoop_wp hcovers hread hn (Nat.le_refl n)

end Uio

end OS161.Vfs
