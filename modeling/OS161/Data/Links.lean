import Mathlib.Data.List.Nodup
import Mathlib.Logic.Function.Basic

namespace OS161.Data

/-! Singly linked lists: the nodes that a chain of links visits on its way from
one link to another. -/

section Links

variable {α : Type}

def Links (next : α → Option α) : (head : Option α) → List α → (last : Option α) → Prop
  | head, [], last => head = last
  | head, node :: rest, last => head = some node ∧ Links next (next node) rest last

variable {next next' : α → Option α} {head last : Option α}
variable {nodes below above : List α} {node : α}

theorem Links.head_eq (hlinks : Links next head nodes none) : head = nodes.head? := by
  cases nodes with
  | nil => exact hlinks
  | cons node rest => exact hlinks.1

theorem links_append :
    Links next head (below ++ above) last ↔
      ∃ middle, Links next head below middle ∧ Links next middle above last := by
  induction below generalizing head with
  | nil => simp [Links]
  | cons node rest ih => simp [Links, ih, and_assoc]

theorem Links.congr (hlinks : Links next head nodes last)
    (hsame : ∀ node ∈ nodes, next' node = next node) :
    Links next' head nodes last := by
  induction nodes generalizing head with
  | nil => exact hlinks
  | cons node rest ih =>
      refine ⟨hlinks.1, ?_⟩
      rw [hsame node (by simp)]
      exact ih hlinks.2 (fun other hmem => hsame other (by simp [hmem]))

theorem Links.unique (hlinks : Links next head nodes none)
    (hother : Links next head below none) : nodes = below := by
  induction nodes generalizing head below with
  | nil =>
      obtain rfl : head = none := hlinks
      cases below with
      | nil => rfl
      | cons node rest => exact absurd hother.1 (by simp)
  | cons node rest ih =>
      cases below with
      | nil => exact absurd (hlinks.1.symm.trans hother) (by simp)
      | cons other below =>
          obtain rfl : node = other := Option.some.inj (hlinks.1.symm.trans hother.1)
          rw [ih hlinks.2 hother.2]

/-- A chain that comes to an end visits no node twice. -/
theorem Links.nodup (hlinks : Links next head nodes none) : nodes.Nodup := by
  induction nodes generalizing head with
  | nil => exact List.nodup_nil
  | cons node rest ih =>
      refine List.nodup_cons.mpr ⟨?_, ih hlinks.2⟩
      intro hmem
      obtain ⟨below, above, rfl⟩ := List.append_of_mem hmem
      -- Both visits of the node would be followed by the same chain.
      obtain ⟨middle, -, -, habove⟩ := links_append.mp hlinks.2
      have hsame := congrArg List.length (habove.unique hlinks.2)
      simp at hsame
      omega

variable [DecidableEq α]

theorem Links.push (hlinks : Links next head nodes last) (hnew : node ∉ nodes) :
    Links (Function.update next node head) (some node) (node :: nodes) last := by
  refine ⟨rfl, ?_⟩
  rw [Function.update_self]
  exact hlinks.congr (fun other hmem =>
    Function.update_of_ne (ne_of_mem_of_not_mem hmem hnew) _ _)

/-- Redirecting the last link of a stretch. -/
theorem Links.redirect (hlinks : Links next head (below ++ [node]) last)
    (hfresh : node ∉ below) (last' : Option α) :
    Links (Function.update next node last') head (below ++ [node]) last' := by
  obtain ⟨middle, hbelow, hmiddle, -⟩ := links_append.mp hlinks
  refine links_append.mpr ⟨middle, ?_, hmiddle, ?_⟩
  · exact hbelow.congr (fun other hmem =>
      Function.update_of_ne (ne_of_mem_of_not_mem hmem hfresh) _ _)
  · exact Function.update_self node last' next

end Links

end OS161.Data
