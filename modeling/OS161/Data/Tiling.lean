import Mathlib.Logic.Function.Basic

namespace OS161.Data

/-! Blocks laid end to end in an interval of addresses.  What is known of a
block depends on its address and on the size of the block below it. -/

section Tiling

variable {β γ : Type} (size : β → Nat)

def span : List β → Nat
  | [] => 0
  | block :: rest => size block + span rest

/-- The size of the block below the end of the list. -/
def lastSize (prev : Nat) : List β → Nat
  | [] => prev
  | block :: rest => lastSize (size block) rest

def Tiles (holds : Nat → Nat → β → Prop) :
    (start prev : Nat) → List β → (top : Nat) → Prop
  | start, _, [], top => start = top
  | start, prev, block :: rest, top =>
      holds start prev block ∧
        Tiles holds (start + size block) (size block) rest top

/-- The labelled blocks with their addresses. -/
def labelled (label : β → Option γ) : (start : Nat) → List β → List (Nat × γ)
  | _, [] => []
  | start, block :: rest =>
      (label block).toList.map (fun value => (start, value)) ++
        labelled label (start + size block) rest

@[simp] theorem span_append (below above : List β) :
    span size (below ++ above) = span size below + span size above := by
  induction below with
  | nil => simp [span]
  | cons block rest ih => simp [span, ih, Nat.add_assoc]

@[simp] theorem lastSize_append (prev : Nat) (below above : List β) :
    lastSize size prev (below ++ above) =
      lastSize size (lastSize size prev below) above := by
  induction below generalizing prev with
  | nil => rfl
  | cons block rest ih => exact ih (size block)

theorem lastSize_le (prev : Nat) (blocks : List β) :
    lastSize size prev blocks ≤ prev + span size blocks := by
  induction blocks generalizing prev with
  | nil => exact Nat.le_refl _
  | cons block rest ih =>
      have hrest := ih (size block)
      simp only [lastSize, span]
      omega

theorem lastSize_mono (hle : prev ≤ prev') (blocks : List β) :
    lastSize size prev blocks ≤ lastSize size prev' blocks := by
  cases blocks with
  | nil => exact hle
  | cons block rest => exact Nat.le_refl _

/-- The block below the end is one of the list, or the one below the list. -/
theorem le_lastSize (hlast : n ≤ lastSize size prev blocks) (hprev : n ≤ prev') :
    n ≤ lastSize size prev' blocks := by
  cases blocks with
  | nil => exact hprev
  | cons block rest => exact hlast

/-- Of two blocks of a list, one ends where the other starts or before, if they are not
the same. -/
theorem span_apart {below above below' above' : List β} {block block' : β}
    (hsame : below ++ block :: above = below' ++ block' :: above') :
    span size below = span size below' ∨
      span size below + size block ≤ span size below' ∨
      span size below' + size block' ≤ span size below := by
  induction below generalizing below' with
  | nil =>
      cases below' with
      | nil => exact Or.inl rfl
      | cons first rest =>
          obtain ⟨rfl, -⟩ := List.cons_eq_cons.mp hsame
          simp only [span]
          omega
  | cons head tail ih =>
      cases below' with
      | nil =>
          obtain ⟨rfl, -⟩ := List.cons_eq_cons.mp hsame
          simp only [span]
          omega
      | cons first rest =>
          obtain ⟨rfl, hrest⟩ := List.cons_eq_cons.mp hsame
          have htail := ih hrest
          simp only [span]
          omega

variable {size}
variable {holds holds' : Nat → Nat → β → Prop} {start prev top : Nat}
variable {below above blocks : List β} {block : β}

theorem Tiles.top_eq (htiles : Tiles size holds start prev blocks top) :
    top = start + span size blocks := by
  induction blocks generalizing start prev with
  | nil => simpa [span, Tiles] using htiles.symm
  | cons block rest ih =>
      rw [ih htiles.2, span, Nat.add_assoc]

theorem tiles_append :
    Tiles size holds start prev (below ++ above) top ↔
      Tiles size holds start prev below (start + span size below) ∧
        Tiles size holds (start + span size below)
          (lastSize size prev below) above top := by
  induction below generalizing start prev with
  | nil => simp [Tiles, span, lastSize]
  | cons block rest ih =>
      simp only [List.cons_append, Tiles, span, lastSize, ih, and_assoc,
        Nat.add_assoc]

/-- Every block of a tiling lies inside it, so knowledge about blocks inside
carries over. -/
theorem Tiles.mono (htiles : Tiles size holds start prev blocks top)
    (himp : ∀ address before block, block ∈ blocks → start ≤ address →
      address + size block ≤ top → holds address before block →
      holds' address before block) :
    Tiles size holds' start prev blocks top := by
  induction blocks generalizing start prev with
  | nil => exact htiles
  | cons block rest ih =>
      have htop := htiles.2.top_eq
      refine ⟨himp start prev block (by simp) (Nat.le_refl _) (by omega)
        htiles.1, ih htiles.2 ?_⟩
      intro address before other hmem hle
      exact himp address before other (by simp [hmem]) (by omega)

theorem Tiles.mem (htiles : Tiles size holds start prev blocks top)
    (hmem : block ∈ blocks) : ∃ address before, holds address before block := by
  induction blocks generalizing start prev with
  | nil => simp at hmem
  | cons head rest ih =>
      rcases List.mem_cons.mp hmem with rfl | htail
      · exact ⟨_, _, htiles.1⟩
      · exact ih htiles.2 htail

variable {label : β → Option γ}

theorem labelled_append :
    labelled size label start (below ++ above) =
      labelled size label start below ++
        labelled size label (start + span size below) above := by
  induction below generalizing start with
  | nil => rfl
  | cons block rest ih =>
      simp only [List.cons_append, labelled, span, ih, List.append_assoc,
        Nat.add_assoc]

theorem mem_labelled {address : Nat} {value : γ} :
    (address, value) ∈ labelled size label start blocks ↔
      ∃ below block above, blocks = below ++ block :: above ∧
        address = start + span size below ∧ label block = some value := by
  constructor
  · intro hmem
    induction blocks generalizing start with
    | nil => simp [labelled] at hmem
    | cons block rest ih =>
        rcases List.mem_append.mp hmem with hhead | htail
        · obtain ⟨hlabel, haddress⟩ : label block = some value ∧ start = address := by
            simpa using hhead
          exact ⟨[], block, rest, rfl, by simp [span, haddress], hlabel⟩
        · obtain ⟨below, other, above, rfl, haddress, hother⟩ := ih htail
          exact ⟨block :: below, other, above, rfl,
            by rw [haddress, span, Nat.add_assoc], hother⟩
  · rintro ⟨below, block, above, rfl, rfl, hlabel⟩
    simp [labelled_append, labelled, hlabel]

/-- Labelled blocks of a tiling do not overlap. -/
theorem pairwise_labelled {relates : Nat × γ → Nat × γ → Prop}
    (htiles : Tiles size holds start prev blocks top)
    (hrelates : ∀ address before block value other,
      holds address before block → label block = some value →
      address + size block ≤ other.1 → relates (address, value) other) :
    (labelled size label start blocks).Pairwise relates := by
  induction blocks generalizing start prev with
  | nil => exact List.Pairwise.nil
  | cons block rest ih =>
      rw [labelled]
      refine List.pairwise_append.mpr ⟨?_, ih htiles.2, ?_⟩
      · cases hlabel : label block <;> simp
      · intro labelledBlock hblock other hother
        obtain ⟨value, hlabel, rfl⟩ : ∃ value, label block = some value ∧
            (start, value) = labelledBlock := by simpa using hblock
        obtain ⟨address, value'⟩ := other
        obtain ⟨below, _, _, _, rfl, _⟩ := mem_labelled.mp hother
        exact hrelates start prev block value _ htiles.1 hlabel (by simp)

end Tiling

end OS161.Data
