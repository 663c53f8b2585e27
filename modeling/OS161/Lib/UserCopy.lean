import OS161.Lib.Copyinout

namespace OS161.Lib.Copy

open OS161.Data
open OS161.Kern

/-! `kern/lib/copyinout.c` between the memory of a user program and that of the
kernel, with the addresses of the program that it reaches and the faults that it
may take there. -/

inductive Direction where
  | fromUser
  | toUser
  deriving DecidableEq, Repr

structure CopyState where
  user : Bytes
  kernel : Bytes
  /-- The addresses of the user program that were read or written, the last one first. -/
  touched : List Nat
  /-- Whether `pcb_badfaultfunc` is `copyfail`. -/
  badfaultfunc : Bool

namespace CopyState

abbrev Op := Prog Errno Fault CopyState

def onKernel (body : Copy.Op α) : Op α :=
  Prog.zoom kernel (fun s b => { s with kernel := b }) body

/-- The state after `n` bytes have been moved between the user address `u` and the
kernel address `k`. -/
def copied (dir : Direction) (u k n : Nat) (s : CopyState) : CopyState :=
  match dir with
  | .fromUser => { s with kernel := s.kernel.splice k (s.user.slice u n) }
  | .toUser => { s with user := s.user.splice u (s.kernel.slice k n) }

/-- The byte `src[i]`. -/
def src (dir : Direction) (u k : Nat) (s : CopyState) (i : Nat) : Byte :=
  match dir with
  | .fromUser => s.user (u + i)
  | .toUser => s.kernel (k + i)

section Access

-- The addresses at which `vm_fault` fails.
variable (faults : Nat → Bool)

/-- An access to a user address.  A fault that cannot be handled ends at the `setjmp`,
which then returns `EFAULT`. -/
def userAddr (a : Nat) : Op Unit := do
  Prog.modify fun s => { s with touched := a :: s.touched }
  Prog.when (faults a = true) (do
    let s ← Prog.get
    Prog.assert (s.badfaultfunc = true) .kernelFault
    Prog.fail .EFAULT)

/-- The assignment of one unit, a byte or a word. -/
def move (dir : Direction) (u k n : Nat) : Op Unit := do
  Prog.forFrom (fun j _ => userAddr faults (u + j)) n 0 ()
  Prog.modify (copied dir u k n)

/-- The unit is a word where both addresses and the length are multiples of one. -/
def memcpy (dir : Direction) (u k len : Nat) : Op Unit :=
  let unit := if k % 4 = 0 ∧ u % 4 = 0 ∧ len % 4 = 0 then 4 else 1
  Prog.forFrom (fun i _ => move faults dir (u + unit * i) (k + unit * i) unit) (len / unit) 0 ()

def readSrc (dir : Direction) (u k i : Nat) : Op Byte := do
  Prog.when (dir = .fromUser) (userAddr faults (u + i))
  Prog.read fun s => src dir u k s i

/-- The loop of `copystr` and what follows it; `turns` counts down from the smaller one
of `maxlen` and `stoplen`.  The result is what is stored in `*gotlen`. -/
def copystrLoop (dir : Direction) (u k maxlen stoplen : Nat) : (turns i : Nat) → Op Nat
  | 0, _ => if stoplen < maxlen then Prog.fail .EFAULT else Prog.fail .ENAMETOOLONG
  | turns + 1, i => do
      move faults dir (u + i) (k + i) 1
      let c ← readSrc faults dir u k i
      if c = 0 then pure (i + 1) else copystrLoop dir u k maxlen stoplen turns (i + 1)

def copystr (dir : Direction) (u k maxlen stoplen : Nat) : Op Nat :=
  copystrLoop faults dir u k maxlen stoplen (min maxlen stoplen) 0

/-- The part of a copy that `pcb_badfaultfunc` protects. -/
def guarded (body : Op α) : Op α := do
  Prog.modify fun s => { s with badfaultfunc := true }
  let result ← Prog.attempt body
  Prog.modify fun s => { s with badfaultfunc := false }
  match result with
  | .ok value => pure value
  | .error code => Prog.fail code

/-- What `copyin` and `copyout` have in common. -/
def copyBlock (dir : Direction) (u k len : Nat) : Op Unit := do
  let stoplen ← onKernel (copycheck u len)
  Prog.when (stoplen ≠ len) (Prog.fail .EFAULT)
  guarded (memcpy faults dir u k len)

/-- What `copyinstr` and `copyoutstr` have in common. -/
def copyString (dir : Direction) (u k len : Nat) : Op Nat := do
  let stoplen ← onKernel (copycheck u len)
  guarded (copystr faults dir u k len stoplen)

def copyin (usersrc dest len : Nat) : Op Unit := copyBlock faults .fromUser usersrc dest len

def copyout (src userdest len : Nat) : Op Unit := copyBlock faults .toUser userdest src len

def copyinstr (usersrc dest len : Nat) : Op Nat := copyString faults .fromUser usersrc dest len

def copyoutstr (src userdest len : Nat) : Op Nat := copyString faults .toUser userdest src len

end Access

/-! Where the copies go.  A loop only reaches the addresses that its caller has
checked. -/

/-- The copy on `[p, p + len)` has reached nothing outside of it, and nothing from
`USERTOP` on. -/
def Within (p len : Nat) (before s : CopyState) : Prop :=
  ∀ a ∈ s.touched, a ∈ before.touched ∨ p ≤ a ∧ a < p + len ∧ a < USERTOP

/-- The bounds while the handler is set. -/
def Guarded (p len : Nat) (before s : CopyState) : Prop :=
  s.badfaultfunc = true ∧ Within p len before s

section Bounds

variable {faults : Nat → Bool} {p len : Nat} {before s : CopyState} {dir : Direction}

/-- Every way the body can end keeps the bounds. -/
abbrev Bounded (p len : Nat) (before : CopyState) (body : Op α) : Prop :=
  ∀ s, Guarded p len before s →
    Prog.wp body (fun _ s' => Guarded p len before s') (fun _ s' => Guarded p len before s')
      (fun _ => False) s

theorem Guarded.userAddr (ha : p ≤ a ∧ a < p + len ∧ a < USERTOP) :
    Bounded p len before (userAddr faults a) := by
  intro s hs
  have htouched : Guarded p len before { s with touched := a :: s.touched } := by
    refine ⟨hs.1, ?_⟩
    intro b hb
    cases List.mem_cons.mp hb with
    | inl heq => exact Or.inr (heq ▸ ha)
    | inr hmem => exact hs.2 b hmem
  simp only [CopyState.userAddr, ↓Prog.wp_bind, ↓Prog.wp_modify, ↓Prog.wp_when, ↓Prog.wp_get,
    ↓Prog.wp_assert, ↓Prog.wp_fail]
  split
  · rw [if_pos hs.1]
    exact htouched
  · exact htouched

theorem Guarded.move (hrange : p ≤ u ∧ u + n ≤ p + len ∧ u + n ≤ USERTOP) (k : Nat) :
    Bounded p len before (move faults dir u k n) := by
  intro s hs
  simp only [CopyState.move, ↓Prog.wp_bind]
  refine Prog.wp_mono (Prog.wp_forFrom (fun _ _ s' => Guarded p len before s') ?_ hs) ?_
    (fun _ _ h => h) (fun _ h => h)
  · intro j _ s' _ hj hs'
    exact Guarded.userAddr (by omega) s' hs'
  · intro _ s' hs'
    cases dir with
    | fromUser => exact hs'
    | toUser => exact hs'

theorem Guarded.memcpy (hfits : p + len ≤ USERTOP) (k : Nat) :
    Bounded p len before (memcpy faults dir p k len) := by
  intro s hs
  unfold CopyState.memcpy
  apply Prog.wp_forFrom (fun _ _ s' => Guarded p len before s') _ hs
  intro i _ s' _ hi hs'
  generalize (if k % 4 = 0 ∧ p % 4 = 0 ∧ len % 4 = 0 then 4 else 1) = unit at hi ⊢
  have hunit : unit * i + unit ≤ len :=
    calc unit * i + unit = unit * (i + 1) := rfl
      _ ≤ unit * (len / unit) := Nat.mul_le_mul_left unit (by omega)
      _ ≤ len := Nat.mul_div_le len unit
  exact Guarded.move (by omega) _ s' hs'

theorem Guarded.copystrLoop (maxlen stoplen : Nat)
    (hturns : i + turns ≤ len ∧ p + (i + turns) ≤ USERTOP) (k : Nat) :
    Bounded p len before (copystrLoop faults dir p k maxlen stoplen turns i) := by
  induction turns generalizing i with
  | zero =>
      intro s hs
      simp only [CopyState.copystrLoop, ↓Prog.wp_ite, ↓Prog.wp_fail]
      split <;> exact hs
  | succ turns ih =>
      intro s hs
      simp only [CopyState.copystrLoop, ↓Prog.wp_bind]
      refine Prog.wp_mono (Guarded.move (by omega) _ s hs) ?_ (fun _ _ h => h) (fun _ h => h)
      intro _ s₁ hs₁
      have hread : Prog.wp (readSrc faults dir p k i) (fun _ s' => Guarded p len before s')
          (fun _ s' => Guarded p len before s') (fun _ => False) s₁ := by
        simp only [readSrc, ↓Prog.wp_bind, ↓Prog.wp_read, ↓Prog.wp_when]
        split
        · exact Guarded.userAddr (by omega) s₁ hs₁
        · exact hs₁
      refine Prog.wp_mono hread ?_ (fun _ _ h => h) (fun _ h => h)
      intro c s₂ hs₂
      simp only [↓Prog.wp_ite, ↓Prog.wp_pure]
      split
      · exact hs₂
      · exact ih (by omega) s₂ hs₂

theorem Guarded.guarded {body : Op α} (hbody : Bounded p len before body)
    (hs : Within p len before s) :
    Prog.wp (guarded body) (fun _ s' => Within p len before s')
      (fun _ s' => Within p len before s') (fun _ => False) s := by
  simp only [CopyState.guarded, ↓Prog.wp_bind, ↓Prog.wp_modify, ↓Prog.wp_attempt]
  refine Prog.wp_mono (hbody _ ⟨rfl, hs⟩) ?_ ?_ (fun _ h => h)
  · intro _ s' hs'
    exact hs'.2
  · intro _ s' hs'
    exact hs'.2

/-- The check refuses the addresses that wrap and those of the kernel, and cuts off what
lies in the kernel's part. -/
theorem wp_copycheck_user {post : Nat → Bytes → Prop} {fails : Errno → Bytes → Prop}
    {bad : Fault → Prop} {mem : Bytes} (hp : p < 2 ^ 32) (hpos : 1 ≤ len) (hlen : len < 2 ^ 32) :
    (copycheck p len).wp post fails bad mem ↔
      if USERTOP ≤ p ∨ 2 ^ 32 < p + len then fails .EFAULT mem
      else post (min len (USERTOP - p)) mem := by
  have htop : USERTOP = 2 ^ 31 := rfl
  simp only [copycheck, ↓Prog.wp_ite, ↓Prog.wp_fail, ↓Prog.wp_pure]
  by_cases hwrap : 2 ^ 32 < p + len
  · rw [if_pos (by omega), if_pos (Or.inr hwrap)]
  · rw [if_neg (by omega)]
    by_cases hkernel : p ≥ USERTOP
    · rw [if_pos hkernel, if_pos (Or.inl hkernel)]
    · rw [if_neg hkernel]
      by_cases hover : (p + len + (2 ^ 32 - 1)) % 2 ^ 32 ≥ USERTOP
      · rw [if_pos hover, if_neg (by omega), show min len (USERTOP - p) = USERTOP - p by omega]
      · rw [if_neg hover, if_neg (by omega), show min len (USERTOP - p) = len by omega]

section Calls

variable (hp : p < 2 ^ 32) (hpos : 1 ≤ len) (hlen : len < 2 ^ 32)

include hp hpos hlen

theorem copyBlock_within (faults : Nat → Bool) (dir : Direction) (k : Nat) (s : CopyState) :
    Prog.wp (copyBlock faults dir p k len) (fun _ s' => Within p len s s')
      (fun _ s' => Within p len s s') (fun _ => False) s := by
  have hstart : Within p len s s := fun a ha => Or.inl ha
  simp only [copyBlock, onKernel, ↓Prog.wp_bind, ↓Prog.wp_zoom, wp_copycheck_user hp hpos hlen,
    ↓Prog.wp_when, ↓Prog.wp_fail]
  split
  · exact hstart
  · split
    case isTrue => exact hstart
    case isFalse hwhole => exact Guarded.guarded (Guarded.memcpy (by omega) k) hstart

theorem copyString_within (faults : Nat → Bool) (dir : Direction) (k : Nat) (s : CopyState) :
    Prog.wp (copyString faults dir p k len) (fun _ s' => Within p len s s')
      (fun _ s' => Within p len s s') (fun _ => False) s := by
  have hstart : Within p len s s := fun a ha => Or.inl ha
  simp only [copyString, onKernel, ↓Prog.wp_bind, ↓Prog.wp_zoom, wp_copycheck_user hp hpos hlen]
  split
  · exact hstart
  · exact Guarded.guarded (Guarded.copystrLoop _ _ (by omega) k) hstart

end Calls

end Bounds

/-! What the copies do where no access faults. -/

/-- The string is `n` bytes long with its NUL. -/
structure StringLength (bytes : Nat → Byte) (n : Nat) : Prop where
  pos : 0 < n
  nul : bytes (n - 1) = 0
  before : ∀ j < n - 1, bytes j ≠ 0

section NoFaults

variable {faults : Nat → Bool} {dir : Direction} {s s₀ : CopyState}

/-- The same memory. -/
def SameMemory (s s' : CopyState) : Prop := s'.user = s.user ∧ s'.kernel = s.kernel

theorem SameMemory.trans {s₁ : CopyState} (hfirst : SameMemory s s₁) (hsecond : SameMemory s₁ s₀) :
    SameMemory s s₀ :=
  ⟨hsecond.1.trans hfirst.1, hsecond.2.trans hfirst.2⟩

theorem SameMemory.copied (hsame : SameMemory s s₀) (dir : Direction) (u k n : Nat) :
    SameMemory (copied dir u k n s) (CopyState.copied dir u k n s₀) := by
  obtain ⟨huser, hkernel⟩ := hsame
  cases dir with
  | fromUser => exact ⟨huser, by simp only [CopyState.copied, huser, hkernel]⟩
  | toUser => exact ⟨by simp only [CopyState.copied, huser, hkernel], hkernel⟩

theorem SameMemory.src (hsame : SameMemory s s₀) (dir : Direction) (u k i : Nat) :
    src dir u k s₀ i = CopyState.src dir u k s i := by
  obtain ⟨huser, hkernel⟩ := hsame
  cases dir with
  | fromUser => simp only [CopyState.src, huser]
  | toUser => simp only [CopyState.src, hkernel]

/-- Two pieces next to each other are one. -/
theorem copied_copied (dir : Direction) (u k n n' : Nat) (s : CopyState) :
    copied dir (u + n) (k + n) n' (copied dir u k n s) = copied dir u k (n + n') s := by
  cases dir with
  | fromUser =>
      have hsplice := Bytes.splice_append s.kernel k (s.user.slice u n) (s.user.slice (u + n) n')
      rw [Bytes.length_slice, Bytes.slice_append] at hsplice
      simp only [copied, hsplice]
  | toUser =>
      have hsplice := Bytes.splice_append s.user u (s.kernel.slice k n) (s.kernel.slice (k + n) n')
      rw [Bytes.length_slice, Bytes.slice_append] at hsplice
      simp only [copied, hsplice]

theorem copied_zero (dir : Direction) (u k : Nat) (s : CopyState) : copied dir u k 0 s = s := by
  cases dir with
  | fromUser => simp [copied, Bytes.slice]
  | toUser => simp [copied, Bytes.slice]

/-- The source of a copy stays as it is. -/
theorem src_copied (dir : Direction) (u k n : Nat) (s : CopyState) (i : Nat) :
    src dir u k (copied dir u k n s) i = src dir u k s i := by
  cases dir with
  | fromUser => rfl
  | toUser => rfl

variable (hnone : ∀ a, faults a = false)

include hnone

theorem userAddr_returns (a : Nat) (s : CopyState) :
    (userAddr faults a).Returns (fun _ s' => SameMemory s s') s := by
  simp only [userAddr, Prog.Returns, ↓Prog.wp_bind, ↓Prog.wp_modify, ↓Prog.wp_when, hnone,
    Bool.false_eq_true, if_false]
  exact ⟨rfl, rfl⟩

theorem move_returns (dir : Direction) (u k n : Nat) (s : CopyState) :
    (move faults dir u k n).Returns (fun _ s' => SameMemory (copied dir u k n s) s') s := by
  simp only [move, Prog.Returns, ↓Prog.wp_bind]
  refine Prog.wp_mono (Prog.wp_forFrom (fun _ _ s' => SameMemory s s') ?_ ⟨rfl, rfl⟩) ?_
    (fun _ _ h => h) (fun _ h => h)
  · intro j _ s' _ _ hs'
    refine Prog.wp_mono (userAddr_returns hnone (u + j) s') ?_ (fun _ _ h => h) (fun _ h => h)
    intro _ s'' hs''
    exact hs'.trans hs''
  · intro _ s' hs'
    exact hs'.copied dir u k n

theorem memcpy_returns (dir : Direction) (u k len : Nat) (s : CopyState) :
    (memcpy faults dir u k len).Returns (fun _ s' => SameMemory (copied dir u k len s) s') s := by
  have hwhole : (if k % 4 = 0 ∧ u % 4 = 0 ∧ len % 4 = 0 then 4 else 1) *
      (len / if k % 4 = 0 ∧ u % 4 = 0 ∧ len % 4 = 0 then 4 else 1) = len := by
    split
    case isTrue haligned => omega
    case isFalse => omega
  unfold memcpy
  generalize (if k % 4 = 0 ∧ u % 4 = 0 ∧ len % 4 = 0 then 4 else 1) = unit at hwhole ⊢
  refine Prog.wp_mono (Prog.wp_forFrom
    (fun i _ s' => SameMemory (copied dir u k (unit * i) s) s') ?_ ?_) ?_ (fun _ _ h => h)
    (fun _ h => h)
  · intro i _ s' _ _ hs'
    refine Prog.wp_mono (move_returns hnone dir (u + unit * i) (k + unit * i) unit s') ?_
      (fun _ _ h => h) (fun _ h => h)
    intro _ s'' hs''
    have hnext := (hs'.copied dir (u + unit * i) (k + unit * i) unit).trans hs''
    rw [copied_copied] at hnext
    exact hnext
  · rw [Nat.mul_zero, copied_zero]
    exact ⟨rfl, rfl⟩
  · intro _ s' hs'
    rw [Nat.zero_add, hwhole] at hs'
    exact hs'

theorem readSrc_returns (dir : Direction) (u k i : Nat) (s : CopyState) :
    (readSrc faults dir u k i).Returns
      (fun c s' => c = src dir u k s i ∧ SameMemory s s') s := by
  simp only [readSrc, Prog.Returns, ↓Prog.wp_bind, ↓Prog.wp_read, ↓Prog.wp_when]
  split
  case isFalse => exact ⟨trivial, rfl, rfl⟩
  case isTrue =>
      refine Prog.wp_mono (userAddr_returns hnone (u + i) s) ?_ (fun _ _ h => h) (fun _ h => h)
      intro _ s' hsame
      exact ⟨hsame.src dir u k i, hsame⟩

/-- The loop has passed `i` bytes that are not NUL. -/
theorem copystrLoop_wp (maxlen stoplen : Nat) (hsame : SameMemory (copied dir u k i s₀) s)
    (hbytes : ∀ j < i, src dir u k s₀ j ≠ 0) :
    Prog.wp (copystrLoop faults dir u k maxlen stoplen turns i)
      (fun n s' => n ≤ i + turns ∧ StringLength (src dir u k s₀) n ∧
        SameMemory (copied dir u k n s₀) s')
      (fun code _ => (∀ j < i + turns, src dir u k s₀ j ≠ 0) ∧
        code = if stoplen < maxlen then .EFAULT else .ENAMETOOLONG)
      (fun _ => False) s := by
  induction turns generalizing i s with
  | zero =>
      simp only [copystrLoop, ↓Prog.wp_ite, ↓Prog.wp_fail]
      split
      · exact ⟨hbytes, rfl⟩
      · exact ⟨hbytes, rfl⟩
  | succ turns ih =>
      simp only [copystrLoop, ↓Prog.wp_bind]
      refine Prog.wp_mono (move_returns hnone dir (u + i) (k + i) 1 s) ?_ (fun _ _ h => h.elim)
        (fun _ h => h)
      intro _ s₁ hmoved
      have hsame₁ := (hsame.copied dir (u + i) (k + i) 1).trans hmoved
      rw [copied_copied] at hsame₁
      refine Prog.wp_mono (readSrc_returns hnone dir u k i s₁) ?_ (fun _ _ h => h.elim)
        (fun _ h => h)
      rintro c s₂ ⟨rfl, hread⟩
      have hbyte : src dir u k s₁ i = src dir u k s₀ i := by
        rw [hsame₁.src, src_copied]
      rw [hbyte]
      simp only [↓Prog.wp_ite, ↓Prog.wp_pure]
      split
      case isTrue hnul =>
          exact ⟨by omega, ⟨Nat.succ_pos i, hnul, hbytes⟩, hsame₁.trans hread⟩
      case isFalse hne =>
          rw [show i + (turns + 1) = i + 1 + turns by omega]
          apply ih (hsame₁.trans hread)
          intro j hj
          cases Nat.lt_succ_iff_lt_or_eq.mp hj with
          | inl hlt => exact hbytes j hlt
          | inr heq =>
              rw [heq]
              exact hne

end NoFaults

theorem wp_guarded {body : Op α} {post : α → CopyState → Prop} {fails : Errno → CopyState → Prop}
    {bad : Fault → Prop} {s : CopyState} :
    Prog.wp (guarded body) post fails bad s ↔
      Prog.wp body (fun value s' => post value { s' with badfaultfunc := false })
        (fun code s' => fails code { s' with badfaultfunc := false }) bad
        { s with badfaultfunc := true } := by
  simp only [guarded, ↓Prog.wp_bind, ↓Prog.wp_modify, ↓Prog.wp_attempt, ↓Prog.wp_pure,
    ↓Prog.wp_fail]

/-- What a call on the whole block comes to: it is copied exactly if it lies below
`USERTOP`. -/
def BlockResult (dir : Direction) (p k len : Nat) (s : CopyState) :
    Result Errno Fault CopyState Unit → Prop
  | .ok _ s' => p + len ≤ USERTOP ∧ SameMemory (copied dir p k len s) s'
  | .error code _ => ¬ p + len ≤ USERTOP ∧ code = .EFAULT
  | .panic _ => False

/-- There is a NUL that the call may reach. -/
def HasString (dir : Direction) (p k len : Nat) (s : CopyState) : Prop :=
  p < USERTOP ∧ p + len ≤ 2 ^ 32 ∧ ∃ i < min len (USERTOP - p), src dir p k s i = 0

/-- What a call on a string comes to.  Where it fails the code says whether the string ran
into the kernel's addresses or was too long. -/
def StringResult (dir : Direction) (p k len : Nat) (s : CopyState) :
    Result Errno Fault CopyState Nat → Prop
  | .ok n s' => HasString dir p k len s ∧ StringLength (src dir p k s) n ∧
      SameMemory (copied dir p k n s) s'
  | .error code _ => ¬ HasString dir p k len s ∧
      code = if p + len ≤ USERTOP then .ENAMETOOLONG else .EFAULT
  | .panic _ => False

section Results

variable {faults : Nat → Bool} {p len : Nat}
variable (hnone : ∀ a, faults a = false)
variable (hp : p < 2 ^ 32) (hpos : 1 ≤ len) (hlen : len < 2 ^ 32)

include hnone hp hpos hlen

theorem copyBlock_result (dir : Direction) (k : Nat) (s : CopyState) :
    BlockResult dir p k len s (copyBlock faults dir p k len s) := by
  have hrun : Prog.wp (copyBlock faults dir p k len)
      (fun _ s' => p + len ≤ USERTOP ∧ SameMemory (copied dir p k len s) s')
      (fun code _ => ¬ p + len ≤ USERTOP ∧ code = .EFAULT) (fun _ => False) s := by
    have htop : USERTOP = 2 ^ 31 := rfl
    simp only [copyBlock, onKernel, ↓Prog.wp_bind, ↓Prog.wp_zoom, wp_copycheck_user hp hpos hlen,
      ↓Prog.wp_when, ↓Prog.wp_fail, wp_guarded]
    split
    case isTrue => exact ⟨by omega, trivial⟩
    case isFalse =>
    split
    case isTrue => exact ⟨by omega, trivial⟩
    case isFalse =>
        refine Prog.wp_mono (memcpy_returns hnone dir p k len _) ?_ (fun _ _ h => h.elim)
          (fun _ h => h)
        intro _ s' hsame
        have hback : SameMemory (copied dir p k len s) s' := by
          cases dir with
          | fromUser => exact hsame
          | toUser => exact hsame
        exact ⟨by omega, hback⟩
  unfold Prog.wp at hrun
  generalize copyBlock faults dir p k len s = result at hrun ⊢
  cases result with
  | ok value s' => exact hrun
  | error code s' => exact hrun
  | panic reason => exact hrun

theorem copyString_result (dir : Direction) (k : Nat) (s : CopyState) :
    StringResult dir p k len s (copyString faults dir p k len s) := by
  have hrun : Prog.wp (copyString faults dir p k len)
      (fun n s' => HasString dir p k len s ∧ StringLength (src dir p k s) n ∧
        SameMemory (copied dir p k n s) s')
      (fun code _ => ¬ HasString dir p k len s ∧
        code = if p + len ≤ USERTOP then .ENAMETOOLONG else .EFAULT) (fun _ => False) s := by
    have htop : USERTOP = 2 ^ 31 := rfl
    simp only [copyString, onKernel, ↓Prog.wp_bind, ↓Prog.wp_zoom,
      wp_copycheck_user hp hpos hlen, wp_guarded]
    split
    case isTrue hrefused =>
        rw [if_neg (by omega)]
        refine ⟨?_, rfl⟩
        rintro ⟨hbelow, hwhole, -⟩
        omega
    case isFalse haccepted =>
        have hstart : SameMemory (copied dir p k 0 s)
            { s with badfaultfunc := true } := by
          rw [copied_zero]
          exact ⟨rfl, rfl⟩
        refine Prog.wp_mono (copystrLoop_wp hnone len (min len (USERTOP - p)) hstart
          (fun j hj => absurd hj (Nat.not_lt_zero j))) ?_ ?_ (fun _ h => h)
        · rintro n s' ⟨hle, hlength, hsame⟩
          have hpos := hlength.pos
          exact ⟨⟨by omega, by omega, n - 1, by omega, hlength.nul⟩, hlength, hsame⟩
        · rintro code s' ⟨hbytes, rfl⟩
          constructor
          · rintro ⟨-, -, i, hi, hnul⟩
            exact hbytes i (by omega) hnul
          · by_cases hfits : p + len ≤ USERTOP
            · rw [if_pos hfits, if_neg (by omega)]
            · rw [if_neg hfits, if_pos (by omega)]
  unfold Prog.wp at hrun
  generalize copyString faults dir p k len s = result at hrun ⊢
  cases result with
  | ok value s' => exact hrun
  | error code s' => exact hrun
  | panic reason => exact hrun

end Results

/-- However the call ends, it has stayed within its bounds. -/
def Reaches (p len : Nat) (s : CopyState) (result : Result Errno Fault CopyState α) : Prop :=
  result.Sat (fun _ s' => Within p len s s') (fun _ s' => Within p len s s') (fun _ => False)

/-- The four copies reach the bytes they were given and nothing of the kernel's.  Where no
access faults, a block is copied exactly if it lies below `USERTOP`, and a string exactly
if its NUL lies among the bytes that may be reached. -/
theorem user_copies_bounded (hp : p < 2 ^ 32) (hpos : 1 ≤ len) (hlen : len < 2 ^ 32)
    (faults : Nat → Bool) (k : Nat) (s : CopyState) :
    (Reaches p len s (copyin faults p k len s) ∧ Reaches p len s (copyout faults k p len s) ∧
      Reaches p len s (copyinstr faults p k len s) ∧
      Reaches p len s (copyoutstr faults k p len s)) ∧
    ((∀ a, faults a = false) →
      BlockResult .fromUser p k len s (copyin faults p k len s) ∧
      BlockResult .toUser p k len s (copyout faults k p len s) ∧
      StringResult .fromUser p k len s (copyinstr faults p k len s) ∧
      StringResult .toUser p k len s (copyoutstr faults k p len s)) := by
  refine ⟨⟨copyBlock_within hp hpos hlen faults .fromUser k s,
    copyBlock_within hp hpos hlen faults .toUser k s,
    copyString_within hp hpos hlen faults .fromUser k s,
    copyString_within hp hpos hlen faults .toUser k s⟩, ?_⟩
  intro hnone
  exact ⟨copyBlock_result hnone hp hpos hlen .fromUser k s,
    copyBlock_result hnone hp hpos hlen .toUser k s,
    copyString_result hnone hp hpos hlen .fromUser k s,
    copyString_result hnone hp hpos hlen .toUser k s⟩

/-- Zeros everywhere. -/
private def zeros : CopyState := ⟨fun _ => 0, fun _ => 0, [], false⟩

/-- The last two bytes of the user's part. -/
theorem user_copies_bounded_top :
    Reaches 0x7ffffffe 2 zeros (copyin (fun _ => false) 0x7ffffffe 0 2 zeros) ∧
    BlockResult .fromUser 0x7ffffffe 0 2 zeros
      (copyin (fun _ => false) 0x7ffffffe 0 2 zeros) ∧
    StringResult .fromUser 0x7ffffffe 0 2 zeros
      (copyinstr (fun _ => false) 0x7ffffffe 0 2 zeros) := by
  have hall := @user_copies_bounded 0x7ffffffe 2 (by decide) (by decide) (by decide)
    (fun _ => false) 0 zeros
  have hresults := hall.2 fun _ => rfl
  exact ⟨hall.1.1, hresults.1, hresults.2.2.1⟩

end CopyState

end OS161.Lib.Copy
