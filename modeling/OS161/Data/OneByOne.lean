import Mathlib.Logic.Basic

namespace OS161.Data

/-! A log that many write to, each in a part of its own: only who has the lock is inside, and
writes. -/

section

variable {T α : Type} {holder holder' : Option T} {inside inside' : T → Prop}
  {part part' : T → List α} {ended log out : List α} {t : T}

/-- One has the lock and is inside, or nobody; and the log is the parts that have ended, and then
the part of the one that is inside. -/
structure OneByOne (holder : Option T) (inside : T → Prop) (part : T → List α)
    (ended log : List α) : Prop where
  owner : ∀ t, inside t → holder = some t
  inside : ∀ t, holder = some t → inside t
  log : ended ++ holder.elim [] part = log

/-- Of all but one nothing changes. -/
def Apart (t : T) (inside inside' : T → Prop) (part part' : T → List α) : Prop :=
  ∀ u, u ≠ t → (inside' u ↔ inside u) ∧ part' u = part u

namespace OneByOne

theorem eq_of_inside {u : T} (h : OneByOne holder inside part ended log) (ht : inside t)
    (hu : inside u) : t = u :=
  Option.some.inj ((h.owner t ht).symm.trans (h.owner u hu))

/-- One that is outside, and stays there. -/
theorem other (h : OneByOne holder inside part ended log) (hapart : Apart t inside inside' part part')
    (hout : ¬ inside t) (hout' : ¬ inside' t) : OneByOne holder inside' part' ended log := by
  have hne : ∀ u, holder = some u → u ≠ t := by
    rintro u hu rfl
    exact hout (h.inside u hu)
  refine ⟨?_, ?_, ?_⟩
  · intro u hu
    have hut : u ≠ t := by
      rintro rfl
      exact hout' hu
    exact h.owner u ((hapart u hut).1.mp hu)
  · intro u hu
    exact (hapart u (hne u hu)).1.mpr (h.inside u hu)
  · rw [← h.log]
    cases holder with
    | none => rfl
    | some u => exact congrArg (ended ++ ·) (hapart u (hne u rfl)).2

/-- The one that is inside writes. -/
theorem own (h : OneByOne holder inside part ended log) (hapart : Apart t inside inside' part part')
    (hin : inside t) (hin' : inside' t) (hpart : part' t = part t ++ out) :
    OneByOne holder inside' part' ended (log ++ out) := by
  have hholder := h.owner t hin
  refine ⟨?_, ?_, ?_⟩
  · intro u hu
    by_cases hut : u = t
    · rw [hut]
      exact hholder
    · exact h.owner u ((hapart u hut).1.mp hu)
  · intro u hu
    rw [hholder] at hu
    obtain rfl := Option.some.inj hu
    exact hin'
  · rw [← h.log, hholder]
    show ended ++ part' t = ended ++ part t ++ out
    rw [hpart, List.append_assoc]

/-- The one that is inside stays, and writes nothing. -/
theorem stay (h : OneByOne holder inside part ended log) (hapart : Apart t inside inside' part part')
    (hin : inside t) (hin' : inside' t) (hpart : part' t = part t) :
    OneByOne holder inside' part' ended log := by
  have hwrites := @own T α holder inside inside' part part' ended log [] t h hapart hin hin'
  rw [List.append_nil, List.append_nil] at hwrites
  exact hwrites hpart

/-- One takes the lock, and goes inside. -/
theorem enter (h : OneByOne none inside part ended log) (hapart : Apart t inside inside' part part')
    (hin' : inside' t) (hpart : part' t = []) : OneByOne (some t) inside' part' ended log := by
  refine ⟨?_, ?_, ?_⟩
  · intro u hu
    by_cases hut : u = t
    · rw [hut]
    · cases h.owner u ((hapart u hut).1.mp hu)
  · intro u hu
    obtain rfl := Option.some.inj hu
    exact hin'
  · rw [← h.log]
    show ended ++ part' t = ended ++ []
    rw [hpart]

/-- The one that is inside goes out, and lets the lock go. -/
theorem leave (h : OneByOne holder inside part ended log) (hapart : Apart t inside inside' part part')
    (hin : inside t) (hout' : ¬ inside' t) :
    OneByOne none inside' part' (ended ++ part t) log := by
  have hholder := h.owner t hin
  refine ⟨?_, ?_, ?_⟩
  · intro u hu
    by_cases hut : u = t
    · rw [hut] at hu
      exact absurd hu hout'
    · exact absurd (h.eq_of_inside ((hapart u hut).1.mp hu) hin) hut
  · intro u hu
    cases hu
  · rw [← h.log, hholder]
    exact List.append_nil _

end OneByOne

end

end OS161.Data
