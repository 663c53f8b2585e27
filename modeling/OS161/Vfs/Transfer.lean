import OS161.Vfs.Uio

namespace OS161.Vfs.Uio

open OS161.Data
open OS161.Kern

/-! What a transfer moves, against the residue: of kernel buffers that may be longer than
the residue. -/

/-- The uio of a kernel buffer that is long enough, and whose length is a `size_t`. -/
structure Kernel (u : Uio) : Prop where
  covers : u.Covers
  length : u.iov.length < 2 ^ 32
  system : u.userReach = none

/-- The bytes went through the uio, and it shows them. -/
structure Moved (u : Uio) (data : List Byte) (u' : Uio) : Prop where
  offset : u'.uioOffset = u.uioOffset + data.length
  resid : u'.uioResid + data.length = u.uioResid
  passed : u'.passed = u.passed ++ data
  iov : u'.iov = u.iov.drop data.length
  rw : u'.uioRw = u.uioRw
  reach : u'.userReach = u.userReach

/-- Where the size of a transfer does not matter to the residue. -/
def Bounded (u : Uio) (n : Nat) : Prop :=
  n ≤ u.uioResid ∨ u.iov.length = u.uioResid ∨ u.uioResid = 0

variable {u : Uio}

theorem Kernel.advance (hkernel : u.Kernel) {data : List Byte}
    (hdata : data.length ≤ u.uioResid) : (u.advance data).Kernel where
  covers := hkernel.covers.advance hdata
  length := by
    have hlength := hkernel.length
    show (u.iov.drop data.length).length < 2 ^ 32
    rw [List.length_drop]
    omega
  system := by
    show u.userReach.map (· - data.length) = none
    rw [hkernel.system]
    rfl

theorem Kernel.moved (hkernel : u.Kernel) {data : List Byte}
    (hdata : data.length ≤ u.uioResid) : u.Moved data (u.advance data) where
  offset := rfl
  resid := by
    rw [hkernel.covers.resid_advance hdata]
    omega
  passed := rfl
  iov := rfl
  rw := rfl
  reach := (hkernel.advance hdata).system.trans hkernel.system.symm

theorem Bounded.advance (hkernel : u.Kernel) (hbounded : u.Bounded n) {data : List Byte}
    (hk : k ≤ n) (hdata : data.length = min k u.uioResid) :
    (u.advance data).Bounded (n - k) := by
  have hresid := hkernel.covers.resid_advance (by omega : data.length ≤ u.uioResid)
  have hiov : (u.advance data).iov.length = u.iov.length - data.length := List.length_drop
  unfold Bounded at hbounded ⊢
  omega

/-! A transfer of bounded size. -/

theorem Kernel.resident (hkernel : u.Kernel) : u.Resident := by
  intro reach hreach
  rw [hkernel.system] at hreach
  cases hreach

theorem Kernel.reachable (hkernel : u.Kernel) (size : Nat) : u.unreachable size = false := by
  rw [unreachable, hkernel.system]

theorem Bounded.mono (hbounded : u.Bounded n) (hk : k ≤ n) : u.Bounded k := by
  unfold Bounded at hbounded ⊢
  omega

end OS161.Vfs.Uio
