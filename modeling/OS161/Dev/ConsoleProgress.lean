import OS161.Dev.ConsoleOutput

namespace OS161.Dev.Con

open OS161.Data

/-! Whoever prints can come to the end. -/

variable {s s' : Console} {t u : Tid} {f : Frame} {ch : Byte}

/-- A run that leaves the threads that wait for a lock where they are. -/
structure Leads (s s' : Console) : Prop where
  run : Runs s s'
  locking : ∀ v, (s.frame v).point = .locking → s'.frame v = s.frame v

theorem Leads.trans {s'' : Console} (hfirst : Leads s s') (hrest : Leads s' s'') : Leads s s'' := by
  refine ⟨hfirst.run.trans hrest.run, ?_⟩
  intro v hv
  have hsame := hfirst.locking v hv
  rw [hrest.locking v (by rw [hsame, hv]), hsame]

/-- A step of a thread that does not wait for a lock. -/
theorem Leads.single (hstep : Step s s') (hframe : s'.frame = Function.update s.frame t f)
    (hat : (s.frame t).point ≠ .locking) : Leads s s' := by
  refine ⟨.single hstep, ?_⟩
  intro v hv
  have hne : v ≠ t := by
    rintro rfl
    exact hat hv
  rw [hframe, Function.update_of_ne hne]

/-- The interrupt for the character on its way comes. -/
theorem busy_ends (hcon : s.theConsole = true) (hwsem : s.csWsem = 0) (hbusy : Busy s) :
    ∃ s', Runs s s' ∧ s'.csWsem = 1 ∧ s'.frame = s.frame := by
  have hirq : ∀ s : Console, s.theConsole = true → s.csWsem = 0 → s.wirqActive = true →
      (lserIrq s).csWsem = 1 ∧ (lserIrq s).frame = s.frame := by
    intro s hcon hwsem hactive
    rw [lserIrq_eq]
    exact ⟨by simp [hactive, hcon, hwsem], rfl⟩
  cases hactive : s.wirqActive with
  | true => exact ⟨_, .single .irq, hirq s hcon hwsem hactive⟩
  | false =>
      obtain ⟨ch, hwire⟩ := Option.ne_none_iff_exists'.mp (hbusy.either.mpr hactive)
      have hrun : Runs s (lserIrq (s.complete ch)) :=
        Relation.ReflTransGen.tail (.single (.complete ch hwire)) .irq
      exact ⟨_, hrun, hirq (s.complete ch) hcon hwsem rfl⟩

/-- A character that is due is given to the card. -/
theorem sends (h : Ordered s) (hat : (s.frame t).point = .sending) {more : List Byte}
    (htodo : (s.frame t).todo = ch :: more) :
    ∃ s', Step s s' ∧ (s'.theConsole = true ∧ s'.csWsem = 0 ∧ Busy s') ∧
      s'.frame = Function.update s.frame t { s.frame t with
        point := if more = [] then .fetching else .putting
        todo := more
        said := (s.frame t).said ++ [ch] } := by
  obtain ⟨hcon, hwsem, hidle, _⟩ := h.turn.sending hat
  refine ⟨_, .send t ch more _ hat htodo (lserWrite_eq hidle ch), ⟨hcon, hwsem, ⟨?_, rfl⟩⟩, rfl⟩
  show some ch ≠ none ↔ s.wirqActive = false
  simp [hidle.wirq]

theorem Ordered.todo (h : Ordered s)
    (hat : (s.frame t).point = .putting ∨ (s.frame t).point = .sending) :
    ∃ ch more, (s.frame t).todo = ch :: more := by
  cases htodo : (s.frame t).todo with
  | nil =>
      obtain ⟨hputting, hsending⟩ := (h.ok t).todo.mp htodo
      exact (hat.elim hputting hsending).elim
  | cons ch more => exact ⟨ch, more, rfl⟩

/-- A thread in the `P` of `putch_intr` gets its turn. -/
theorem waiting_goes_on (h : Ordered s) (hat : (s.frame t).point = .putting) :
    ∃ s', Leads s s' ∧ 0 < s'.csWsem ∧ s'.frame t = s.frame t := by
  have hkeeps : ∀ s₁ s₂ : Console, Leads s s₁ → Runs s₁ s₂ → s₂.frame = s₁.frame → Leads s s₂ := by
    intro s₁ s₂ hleads hrun hframe
    refine hleads.trans ⟨hrun, fun v _ => ?_⟩
    rw [hframe]
  have hcon := h.turn.console_of_inside (t := t) (by simp [hat])
  cases h.turn with
  | boot hboot hidle hout => exact absurd (hcon.symm.trans hboot) (by decide)
  | free _ hwsem hidle hnone =>
      exact ⟨s, ⟨.refl, fun _ _ => rfl⟩, by rw [hwsem]; exact Nat.one_pos, rfl⟩
  | busy _ hwsem hbusy hnone =>
      obtain ⟨s', hrun, hone, hframe⟩ := busy_ends hcon hwsem hbusy
      refine ⟨s', hkeeps s s' ⟨.refl, fun _ _ => rfl⟩ hrun hframe, by omega, by rw [hframe]⟩
  | taken u _ hwsem hidle hsending hothers =>
      have hne : t ≠ u := by
        rintro rfl
        rw [hat] at hsending
        cases hsending
      obtain ⟨ch, more, htodo⟩ := h.todo (.inr hsending)
      obtain ⟨s₁, hstep, ⟨hcon₁, hwsem₁, hbusy₁⟩, hframe₁⟩ := sends h hsending htodo
      obtain ⟨s₂, hrun, hone, hframe₂⟩ := busy_ends hcon₁ hwsem₁ hbusy₁
      refine ⟨s₂, hkeeps s₁ s₂ (.single hstep hframe₁ (by simp [hsending])) hrun hframe₂, by omega, ?_⟩
      rw [hframe₂, hframe₁, Function.update_of_ne hne]

/-- A character of the thread goes out. -/
theorem puts_one (h : Ordered s) (hat : (s.frame t).point = .putting) {more : List Byte}
    (htodo : (s.frame t).todo = ch :: more) :
    ∃ s', Leads s s' ∧ s'.frame t = { s.frame t with
      point := if more = [] then .fetching else .putting
      todo := more
      said := (s.frame t).said ++ [ch] } := by
  obtain ⟨s₁, hleads₁, hwsem, hframe₁⟩ := waiting_goes_on h hat
  have hat₁ : (s₁.frame t).point = .putting := by rw [hframe₁, hat]
  have hstep₂ : Step s₁ (s₁.gotWsem t) := .wsem t hat₁ hwsem
  have hframe₂ : (s₁.gotWsem t).frame t = { s.frame t with point := .sending } := by
    rw [← hframe₁]
    exact Function.update_self _ _ _
  have h₂ := (h.runs hleads₁.run).runs (.single hstep₂)
  obtain ⟨s₃, hstep₃, _, hframe₃⟩ := @sends _ t ch h₂ (by rw [hframe₂]) more (by rw [hframe₂, htodo])
  have hleads₂ : Leads s₁ (s₁.gotWsem t) := .single hstep₂ rfl (by simp [hat₁])
  have hleads₃ : Leads (s₁.gotWsem t) s₃ := .single hstep₃ hframe₃ (by simp [hframe₂])
  refine ⟨s₃, (hleads₁.trans hleads₂).trans hleads₃, ?_⟩
  rw [hframe₃, Function.update_self, hframe₂]

theorem puts_all (todo : List Byte) {s : Console} (h : Ordered s)
    (hat : (s.frame t).point = if todo = [] then .fetching else .putting)
    (htodo : (s.frame t).todo = todo) :
    ∃ s', Leads s s' ∧ s'.frame t = { s.frame t with
      point := .fetching
      todo := []
      said := (s.frame t).said ++ todo } := by
  induction todo generalizing s with
  | nil =>
      refine ⟨s, ⟨.refl, fun _ _ => rfl⟩, ?_⟩
      rw [if_pos rfl] at hat
      rw [List.append_nil, ← hat, ← htodo]
  | cons ch more ih =>
      rw [if_neg (List.cons_ne_nil _ _)] at hat
      obtain ⟨s₁, hleads₁, hframe₁⟩ := puts_one h hat htodo
      obtain ⟨s₂, hleads₂, hframe₂⟩ := ih (h.runs hleads₁.run) (by rw [hframe₁]) (by rw [hframe₁])
      refine ⟨s₂, hleads₁.trans hleads₂, ?_⟩
      rw [hframe₂, hframe₁, List.append_assoc]
      rfl

/-- The thread fetches all its data and puts it. -/
theorem fetches_all (rest : List Byte) {s : Console} (h : Ordered s)
    (hat : (s.frame t).point = .fetching) (hrest : (s.frame t).rest = rest) :
    ∃ s', Leads s s' ∧ (s'.frame t).channel = (s.frame t).channel ∧
      (s'.frame t).point = .releasing := by
  induction rest generalizing s with
  | nil =>
      have hself : (s.leaving t).frame t = { s.frame t with point := .releasing } :=
        Function.update_self _ _ _
      refine ⟨_, .single (.leave t hat hrest) rfl (by simp [hat]), ?_, ?_⟩
      · rw [hself]
      · rw [hself]
  | cons ch rest ih =>
      have hstep₁ : Step s (s.fetched t ch rest) := .fetch t ch rest hat hrest
      have hleads₁ : Leads s (s.fetched t ch rest) := .single hstep₁ rfl (by simp [hat])
      have h₁ := h.runs hleads₁.run
      have hframe₁ : (s.fetched t ch rest).frame t = { s.frame t with
          point := .putting
          rest := rest
          todo := (s.frame t).channel.puts ch
          moved := (s.frame t).moved ++ [ch] } := Function.update_self _ _ _
      have hputs := Channel.puts_ne_nil (s.frame t).channel ch
      obtain ⟨s₂, hleads₂, hframe₂⟩ := puts_all ((s.frame t).channel.puts ch) h₁
        (by rw [hframe₁, if_neg hputs]) (by rw [hframe₁])
      obtain ⟨s₃, hleads₃, hchannel, hpoint⟩ := ih (h₁.runs hleads₂.run) (by rw [hframe₂])
        (by rw [hframe₂, hframe₁])
      refine ⟨s₃, (hleads₁.trans hleads₂).trans hleads₃, ?_, hpoint⟩
      rw [hchannel, hframe₂, hframe₁]

theorem releases (hat : (s.frame t).point = .releasing) :
    ∃ s', Leads s s' ∧ (s'.frame t).point = .outside ∧
      ((s.frame t).channel.locked = true → s'.writeLock (s.frame t).channel = none) := by
  have hself : (s.released t).frame t = { s.frame t with point := .outside } :=
    Function.update_self _ _ _
  refine ⟨_, .single (.release t hat) rfl (by simp [hat]), by rw [hself], ?_⟩
  intro hlocked
  show (if (s.frame t).channel.locked = true then _ else _ : Channel → Option Tid) _ = none
  rw [if_pos hlocked, Function.update_self]

/-- A call that is past its lock comes to its end, and lets the lock go. -/
theorem inside_ends (h : Ordered s) (hin : (s.frame t).point.Inside) :
    ∃ s', Leads s s' ∧ (s'.frame t).point = .outside ∧
      ((s.frame t).channel.locked = true → s'.writeLock (s.frame t).channel = none) := by
  have hreleasing : ∀ s₁, Leads s s₁ → (s₁.frame t).channel = (s.frame t).channel →
      (s₁.frame t).point = .releasing → ∃ s', Leads s s' ∧ (s'.frame t).point = .outside ∧
        ((s.frame t).channel.locked = true → s'.writeLock (s.frame t).channel = none) := by
    intro s₁ hleads hchannel hat
    obtain ⟨s', hleads', hout, hlock⟩ := releases hat
    rw [hchannel] at hlock
    exact ⟨s', hleads.trans hleads', hout, hlock⟩
  have hfetching : ∀ s₁, Leads s s₁ → (s₁.frame t).channel = (s.frame t).channel →
      (s₁.frame t).point = .fetching → ∃ s', Leads s s' ∧ (s'.frame t).point = .outside ∧
        ((s.frame t).channel.locked = true → s'.writeLock (s.frame t).channel = none) := by
    intro s₁ hleads hchannel hat
    obtain ⟨s₂, hleads₂, hchannel₂, hat₂⟩ := fetches_all _ (h.runs hleads.run) hat rfl
    exact hreleasing s₂ (hleads.trans hleads₂) (hchannel₂.trans hchannel) hat₂
  have hputting : ∀ s₁, Leads s s₁ → (s₁.frame t).channel = (s.frame t).channel →
      (s₁.frame t).point = (if (s₁.frame t).todo = [] then .fetching else .putting) →
      ∃ s', Leads s s' ∧ (s'.frame t).point = .outside ∧
        ((s.frame t).channel.locked = true → s'.writeLock (s.frame t).channel = none) := by
    intro s₁ hleads hchannel hat
    obtain ⟨s₂, hleads₂, hframe₂⟩ := puts_all _ (h.runs hleads.run) hat rfl
    refine hfetching s₂ (hleads.trans hleads₂) ?_ ?_
    · rw [hframe₂, hchannel]
    · rw [hframe₂]
  have hself : Leads s s := ⟨.refl, fun _ _ => rfl⟩
  cases hat : (s.frame t).point with
  | outside =>
      rw [hat] at hin
      exact hin.elim
  | locking =>
      rw [hat] at hin
      exact hin.elim
  | fetching => exact hfetching s hself rfl hat
  | putting =>
      obtain ⟨ch, more, htodo⟩ := h.todo (.inl hat)
      refine hputting s hself rfl ?_
      rw [hat, htodo, if_neg (List.cons_ne_nil _ _)]
  | sending =>
      obtain ⟨ch, more, htodo⟩ := h.todo (.inr hat)
      obtain ⟨s₁, hstep, _, hframe⟩ := sends h hat htodo
      have hframe' := congrFun hframe t
      rw [Function.update_self] at hframe'
      refine hputting s₁ (.single hstep hframe (by simp [hat])) ?_ ?_
      · rw [hframe']
      · rw [hframe']
  | releasing => exact hreleasing s hself rfl hat

theorem acquires (h : Ordered s) (hat : (s.frame t).point = .locking)
    (hfree : s.writeLock (s.frame t).channel = none) :
    ∃ s', Runs s s' ∧ (s'.frame t).point = .outside := by
  have hself : (s.acquired t).frame t = { s.frame t with point := .fetching } :=
    Function.update_self _ _ _
  have hrun : Runs s (s.acquired t) := .single (.acquire t hat hfree)
  obtain ⟨s', hleads, hout, _⟩ := inside_ends (t := t) (h.runs hrun) (by rw [hself]; trivial)
  exact ⟨s', hrun.trans hleads.run, hout⟩

/-- Nothing that printing threads, interrupts and polled output do can lead to where a call that
prints could not end any more: there is always a way on, in which the threads in front of it and
the card come to their ends. -/
theorem call_can_end {regChar : Byte} (hrun : Runs (configLser regChar) s) (t : Tid) :
    ∃ s', Runs s s' ∧ (s'.frame t).point = .outside := by
  have h := (configLser_ordered regChar).runs hrun
  cases hat : (s.frame t).point with
  | outside => exact ⟨s, .refl, hat⟩
  | locking =>
      cases hholder : s.writeLock (s.frame t).channel with
      | none => exact acquires h hat hholder
      | some u =>
          have hlocked := ((h.ok t).locking hat).1
          obtain ⟨hchannel, hin⟩ := (h.owned _ hlocked).inside u hholder
          obtain ⟨s₁, hleads, _, hfree⟩ := inside_ends h hin
          have hsame := hleads.locking t hat
          rw [hchannel] at hfree
          obtain ⟨s₂, hrun₂, hout⟩ := acquires (t := t) (h.runs hleads.run) (by rw [hsame, hat])
            (by rw [hsame]; exact hfree hlocked)
          exact ⟨s₂, hleads.run.trans hrun₂, hout⟩
  | _ =>
      obtain ⟨s', hleads, hout, _⟩ := inside_ends (t := t) h (by rw [hat]; trivial)
      exact ⟨s', hleads.run, hout⟩

theorem call_can_end_newline :
    (newlineDue.frame 2).point = .sending ∧ ∃ s', Runs newlineDue s' ∧ (s'.frame 2).point = .outside :=
  ⟨by decide, call_can_end newlineDue_runs 2⟩

end OS161.Dev.Con
