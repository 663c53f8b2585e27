import Mathlib.Logic.Function.Basic
import Mathlib.Logic.Relation

namespace OS161.Data

/-! Calls that many make at once, each under one lock, with a device that takes its time: they
come back as if they were made one after the other. -/

/-- What a call still does before it lets the lock go. -/
inductive Section (σ α : Type) where
  | done (value : α)
  /-- The machine stops. -/
  | stop
  | act (write : σ → σ) (next : σ → Section σ α)
  /-- Start the device, and wait for it. -/
  | operate (start : σ → σ) (next : σ → Section σ α)
  | waiting (next : σ → Section σ α)

/-- A device that is started, works by itself, and reports that it is ready. -/
structure Device (σ : Type) where
  sound : σ → Prop
  quiet : σ → Prop
  /-- What it does by itself, if anything. -/
  step : σ → Option σ
  ready : σ → Bool
  /-- Takes note that it is ready. -/
  take : σ → σ
  /-- What it comes to by itself. -/
  settle : σ → σ
  not_quiet : ∀ {s s'}, step s = some s' → ¬ quiet s
  sound_step : ∀ {s s'}, sound s → step s = some s' → sound s' ∧ ¬ quiet s'
  settle_step : ∀ {s s'}, sound s → step s = some s' → settle s' = settle s
  settle_ready : ∀ {s}, sound s → ready s = true → settle s = s
  quiet_take : ∀ {s}, sound s → ready s = true → quiet (take s)
  goes_on : ∀ {s}, sound s → ¬ quiet s → ready s = true ∨ ∃ s', step s = some s'

namespace Section

variable {σ α : Type} (device : Device σ)

/-- The section run by itself. -/
def exec : Section σ α → σ → Option (α × σ)
  | done value, s => some (value, s)
  | stop, _ => none
  | act write next, s => exec (next s) (write s)
  | operate start next, s =>
      let ready := device.settle (start s)
      if device.ready ready = true then exec (next ready) (device.take ready) else none
  | waiting next, s =>
      let ready := device.settle s
      if device.ready ready = true then exec (next ready) (device.take ready) else none

/-- The section leaves the device alone but where it starts it. -/
inductive Calm : Section σ α → Prop
  | done (value : α) : Calm (.done value)
  | stop : Calm .stop
  | act (hwrite : ∀ s, device.quiet s → device.quiet (write s)) (hnext : ∀ s, Calm (next s)) :
      Calm (.act write next)
  | operate (hstart : ∀ s, device.quiet s → device.sound (start s) ∧ ¬ device.quiet (start s))
      (hnext : ∀ s, Calm (next s)) : Calm (.operate start next)

/-- A section in a state that it has brought about. -/
inductive Fits : Section σ α → σ → Prop
  | calm (hcalm : Calm device code) (hquiet : device.quiet s) : Fits code s
  | waiting (hnext : ∀ s, Calm device (next s)) (hsound : device.sound s)
      (hbusy : ¬ device.quiet s) : Fits (.waiting next) s

end Section

/-- Where the callers stand; `log` has the calls that have come back. -/
structure Callers (T Call σ α : Type) where
  shared : σ
  holder : Option T
  inside : T → Option (Call × Section σ α)
  log : List (T × Call × α)

namespace Callers

variable {T Call σ α : Type} [DecidableEq T] (device : Device σ) (body : Call → Section σ α)

/-- A caller goes on to the next piece of its section. -/
def goOn (k : Callers T Call σ α) (t : T) (call : Call) (shared : σ) (code : Section σ α) :
    Callers T Call σ α :=
  { k with
    shared := shared
    inside := Function.update k.inside t (some (call, code)) }

inductive Step : Callers T Call σ α → Callers T Call σ α → Prop
  | enter (hfree : k.holder = none) (hout : k.inside t = none) (call : Call) :
      Step k ({ k with holder := some t }.goOn t call k.shared (body call))
  | act (hin : k.inside t = some (call, .act write next)) :
      Step k (k.goOn t call (write k.shared) (next k.shared))
  | start (hin : k.inside t = some (call, .operate begin next)) :
      Step k (k.goOn t call (begin k.shared) (.waiting next))
  | wake (hin : k.inside t = some (call, .waiting next))
      (hready : device.ready k.shared = true) :
      Step k (k.goOn t call (device.take k.shared) (next k.shared))
  | device (hstep : device.step k.shared = some s') : Step k { k with shared := s' }
  | leave (hin : k.inside t = some (call, .done value)) :
      Step k { k with
        holder := none
        inside := Function.update k.inside t none
        log := k.log ++ [(t, call, value)] }

/-- The calls of a log made one after the other. -/
inductive Replay : σ → List (T × Call × α) → σ → Prop
  | nil (s : σ) : Replay s [] s
  | call (hcalls : Replay s calls mid) (hexec : (body call).exec device mid = some (value, s')) :
      Replay s (calls ++ [(t, call, value)]) s'

/-- Nobody is inside, and the state is the one after the log; or one is, and it comes to what it
would come to by itself. -/
inductive Serial (start : σ) (k : Callers T Call σ α) : Prop
  | free (hholder : k.holder = none) (hout : ∀ t, k.inside t = none)
      (hlog : Replay device body start k.log k.shared) (hquiet : device.quiet k.shared)
  | inside (hholder : k.holder = some t) (hin : k.inside t = some (call, code))
      (hout : ∀ u, u ≠ t → k.inside u = none)
      (hlog : Replay device body start k.log base) (hbase : device.quiet base)
      (hexec : (body call).exec device base = code.exec device k.shared)
      (hfits : code.Fits device k.shared)

variable {device body} {k d : Callers T Call σ α} {t u : T} {call call' : Call}
  {code code' : Section σ α} {start base s' : σ}

/-- Who is inside is the one that has the lock. -/
theorem Serial.inside_eq (h : Serial device body start k) (hin : k.inside t = some (call, code)) :
    k.holder = some t ∧ (∀ u, u ≠ t → k.inside u = none) ∧ ∃ base,
      Replay device body start k.log base ∧ device.quiet base ∧
        (body call).exec device base = code.exec device k.shared ∧ code.Fits device k.shared := by
  cases h with
  | free _ hout =>
      rw [hout] at hin
      cases hin
  | @inside u call' code' base hholder hin' hout hlog hbase hexec hfits =>
      obtain rfl : t = u := by
        by_contra hne
        rw [hout t hne] at hin
        cases hin
      rw [hin'] at hin
      obtain ⟨rfl, rfl⟩ := Prod.mk.inj (Option.some.inj hin)
      exact ⟨hholder, hout, base, hlog, hbase, hexec, hfits⟩

/-- The one inside goes on. -/
theorem Serial.goOn (hholder : k.holder = some t) (hout : ∀ u, u ≠ t → k.inside u = none)
    (hlog : Replay device body start k.log base) (hbase : device.quiet base)
    (hexec : (body call).exec device base = code.exec device s')
    (hfits : code.Fits device s') : Serial device body start (k.goOn t call s' code) := by
  refine .inside hholder (Function.update_self _ _ _) ?_ hlog hbase hexec hfits
  intro u hu
  exact (Function.update_of_ne hu _ _).trans (hout u hu)

theorem Serial.step (hcalm : ∀ call, (body call).Calm device)
    (hstep : Step device body k d) (h : Serial device body start k) :
    Serial device body start d := by
  cases hstep with
  | enter hfree hout call =>
      cases h with
      | free _ hall hlog hquiet =>
          exact Serial.goOn rfl (fun u _ => hall u) hlog hquiet rfl (.calm (hcalm call) hquiet)
      | inside hholder =>
          rw [hfree] at hholder
          cases hholder
  | act hin =>
      obtain ⟨hholder, hout, base, hlog, hbase, hexec, hfits⟩ := h.inside_eq hin
      cases hfits with
      | calm hcalm hquiet =>
          cases hcalm with
          | act hwrite hnext =>
              exact .goOn hholder hout hlog hbase hexec (.calm (hnext _) (hwrite _ hquiet))
  | start hin =>
      obtain ⟨hholder, hout, base, hlog, hbase, hexec, hfits⟩ := h.inside_eq hin
      cases hfits with
      | calm hcalm hquiet =>
          cases hcalm with
          | operate hstart hnext =>
              obtain ⟨hsound, hbusy⟩ := hstart _ hquiet
              exact .goOn hholder hout hlog hbase hexec (.waiting hnext hsound hbusy)
  | wake hin hready =>
      obtain ⟨hholder, hout, base, hlog, hbase, hexec, hfits⟩ := h.inside_eq hin
      cases hfits with
      | calm hcalm hquiet => cases hcalm
      | waiting hnext hsound hbusy =>
          rw [Section.exec, device.settle_ready hsound hready] at hexec
          simp only [hready, if_true] at hexec
          exact .goOn hholder hout hlog hbase hexec
            (.calm (hnext _) (device.quiet_take hsound hready))
  | device hstep =>
      cases h with
      | free _ _ _ hquiet => exact absurd hquiet (device.not_quiet hstep)
      | inside hholder hin hout hlog hbase hexec hfits =>
          cases hfits with
          | calm _ hquiet => exact absurd hquiet (device.not_quiet hstep)
          | waiting hnext hsound hbusy =>
              obtain ⟨hsound', hbusy'⟩ := device.sound_step hsound hstep
              have hsettle := device.settle_step hsound hstep
              refine .inside hholder hin hout hlog hbase (hexec.trans ?_)
                (.waiting hnext hsound' hbusy')
              simp only [Section.exec, hsettle]
  | @leave _ _ t _ hin =>
      obtain ⟨hholder, hout, base, hlog, hbase, hexec, hfits⟩ := h.inside_eq hin
      cases hfits with
      | calm hcalm hquiet =>
          refine .free rfl ?_ (.call hlog hexec) hquiet
          intro u
          by_cases hu : u = t
          · rw [hu]
            exact Function.update_self _ _ _
          · exact (Function.update_of_ne hu _ _).trans (hout u hu)

/-- Nobody has made a call yet. -/
def initial (start : σ) : Callers T Call σ α where
  shared := start
  holder := none
  inside _ := none
  log := []

omit [DecidableEq T] in
theorem Serial.initial (hquiet : device.quiet start) :
    Serial device body start (initial start : Callers T Call σ α) :=
  .free rfl (fun _ => rfl) (.nil start) hquiet

/-- Any steps, in any order. -/
theorem Serial.run (hcalm : ∀ call, (body call).Calm device)
    (hrun : Relation.ReflTransGen (Step device body) k d) (h : Serial device body start k) :
    Serial device body start d := by
  induction hrun with
  | refl => exact h
  | tail _ hstep ih => exact ih.step hcalm hstep

/-- The one that is inside never waits for good, unless it stops the machine. -/
theorem Serial.goes_on (h : Serial device body start k) (hholder : k.holder = some t) :
    (∃ call, k.inside t = some (call, .stop)) ∨ ∃ d, Step device body k d := by
  cases h with
  | free hfree =>
      rw [hfree] at hholder
      cases hholder
  | @inside u call code base hu hin hout hlog hbase hexec hfits =>
      obtain rfl : t = u := Option.some.inj (hholder.symm.trans hu)
      cases hfits with
      | calm hcalm hquiet =>
          cases hcalm with
          | done value => exact .inr ⟨_, .leave hin⟩
          | stop => exact .inl ⟨call, hin⟩
          | act hwrite hnext => exact .inr ⟨_, .act hin⟩
          | operate hstart hnext => exact .inr ⟨_, .start hin⟩
      | waiting hnext hsound hbusy =>
          rcases device.goes_on hsound hbusy with hready | ⟨s', hstep⟩
          · exact .inr ⟨_, .wake hin hready⟩
          · exact .inr ⟨_, .device hstep⟩

end Callers

end OS161.Data
