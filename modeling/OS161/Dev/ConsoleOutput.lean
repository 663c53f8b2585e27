import OS161.Data.OneByOne
import OS161.Dev.Console

namespace OS161.Dev.Con

open OS161.Data

/-! One character is on its way at a time, from the `P` of `putch_intr` to the `V` of
`con_start`, and what is put goes out in order. -/

variable {s s' : Console} {t u : Tid} {f : Frame} {ch : Byte}

/-- The card has nothing to send and nothing to report. -/
structure Idle (s : Console) : Prop where
  onWire : s.onWire = none
  wirq : s.wirqActive = false
  wbusy : s.lsWbusy = false

/-- The card has a character of `lser_write`, or reports that it is through with it. -/
structure Busy (s : Console) : Prop where
  either : s.onWire ≠ none ↔ s.wirqActive = false
  wbusy : s.lsWbusy = true

/-- Who has the card. -/
inductive Turn (s : Console) : Prop
  | boot (hcon : s.theConsole = false) (hidle : Idle s) (hout : ∀ t, (s.frame t).point = .outside)
  | free (hcon : s.theConsole = true) (hwsem : s.csWsem = 1) (hidle : Idle s)
      (hnone : ∀ t, (s.frame t).point ≠ .sending)
  | taken (t : Tid) (hcon : s.theConsole = true) (hwsem : s.csWsem = 0) (hidle : Idle s)
      (hat : (s.frame t).point = .sending) (hothers : ∀ u, u ≠ t → (s.frame u).point ≠ .sending)
  | busy (hcon : s.theConsole = true) (hwsem : s.csWsem = 0) (hbusy : Busy s)
      (hnone : ∀ t, (s.frame t).point ≠ .sending)

/-- What went out, and the character on its way, are what was put. -/
structure Output (s : Console) : Prop where
  overrun : s.overrun = false
  line : s.line ++ s.onWire.toList = s.sent.map Prod.snd

/-! The driver. -/

theorem spin_wp {post : Unit → Console → Prop} {fails : Kern.Errno → Console → Prop}
    {bad : Stop → Prop} (hactive : s.wirqActive = true → post () s)
    (hwire : ∀ ch, s.wirqActive = false → s.onWire = some ch → post () (s.complete ch))
    (hsome : s.wirqActive = false → s.onWire ≠ none) :
    Prog.wp lserSpinUntilWrite post fails bad s := by
  simp only [lserSpinUntilWrite, ↓Prog.wp_bind, ↓Prog.wp_get, ↓Prog.wp_when]
  split
  case isFalse hnot => exact hactive (by simpa using hnot)
  case isTrue hclear =>
      cases honWire : s.onWire with
      | none => exact absurd honWire (hsome hclear)
      | some ch => exact hwire ch hclear honWire

/-- The character goes to a card that is idle. -/
theorem lserWrite_eq (hidle : Idle s) (ch : Byte) :
    lserWrite ch s = .ok () ({ s with lsWbusy := true }.wregChar ch) := by
  have hrun : Prog.Returns (lserWrite ch)
      (fun _ s' => s' = { s with lsWbusy := true }.wregChar ch) s := by
    simp only [lserWrite, Prog.Returns, ↓Prog.wp_bind, ↓Prog.wp_get, ↓Prog.wp_when, ↓Prog.wp_modify]
    rw [hidle.wbusy, if_neg (by decide)]
    trivial
  obtain ⟨_, _, hok, rfl⟩ := hrun.exists_ok
  exact hok

/-- The loop after a character has been given to the card. -/
theorem spin_wregChar {post : Unit → Console → Prop} {fails : Kern.Errno → Console → Prop}
    {bad : Stop → Prop} (hwirq : s.wirqActive = false)
    (hdone : post () ((s.wregChar ch).complete ch)) :
    Prog.wp lserSpinUntilWrite post fails bad (s.wregChar ch) := by
  refine spin_wp ?_ ?_ (fun _ => Option.some_ne_none ch)
  · intro hactive
    exact absurd (hwirq.symm.trans hactive) (by decide)
  · intro ch' _ hwire
    obtain rfl := Option.some.inj hwire
    exact hdone

/-- What `lser_writepolled` leaves: the character has gone out behind the one on its way, whose
interrupt is still to come. -/
def Console.polled (s : Console) (ch : Byte) : Console :=
  { s with
    onWire := none
    wirqActive := s.lsWbusy
    line := s.line ++ s.onWire.toList ++ [ch] }

theorem lserWritepolled_eq (hcard : Idle s ∨ Busy s) (ch : Byte) :
    lserWritepolled ch s = .ok () (s.polled ch) := by
  have hrun : Prog.Returns (lserWritepolled ch) (fun _ s' => s' = s.polled ch) s := by
    simp only [lserWritepolled, Prog.Returns, ↓Prog.wp_bind, ↓Prog.wp_get, ↓Prog.wp_when,
      ↓Prog.wp_modify]
    obtain hidle | hbusy := hcard
    · rw [hidle.wbusy, if_neg (by decide)]
      refine spin_wregChar hidle.wirq ?_
      simp [Console.polled, Console.complete, Console.wregChar, Console.wregWirq, hidle.onWire,
        hidle.wbusy]
    · rw [hbusy.wbusy, if_pos rfl]
      refine spin_wp ?_ ?_ hbusy.either.mpr
      · intro hactive
        have hwire : s.onWire = none := by
          by_contra hsome
          exact absurd ((hbusy.either.mp hsome).symm.trans hactive) (by decide)
        refine spin_wregChar rfl ?_
        simp [Console.polled, Console.complete, Console.wregChar, Console.wregWirq, hwire,
          hbusy.wbusy]
      · intro old _ hwire
        refine spin_wregChar rfl ?_
        simp [Console.polled, Console.complete, Console.wregChar, Console.wregWirq, hwire,
          hbusy.wbusy]
  obtain ⟨_, _, hok, rfl⟩ := hrun.exists_ok
  exact hok

theorem putchDelayed_eq (hdone : putchDelayed ch s = .ok () s') :
    s' = { s with delayedOutbuf := s.delayedOutbuf ++ [ch] } := by
  have hrun : Prog.wp (putchDelayed ch)
      (fun _ s' => s' = { s with delayedOutbuf := s.delayedOutbuf ++ [ch] }) (fun _ _ => True)
      (fun _ => True) s := by
    simp only [putchDelayed, ↓Prog.wp_bind, ↓Prog.wp_get, ↓Prog.wp_when, ↓Prog.wp_modify,
      ↓Prog.wp_panic]
    split
    · trivial
    · trivial
  exact hrun.post_of_ok hdone

/-! The turns. -/

theorem Turn.card (hturn : Turn s) : Idle s ∨ Busy s := by
  cases hturn with
  | boot hcon hidle hout => exact .inl hidle
  | free hcon hwsem hidle hnone => exact .inl hidle
  | taken t hcon hwsem hidle hat hothers => exact .inl hidle
  | busy hcon hwsem hbusy hnone => exact .inr hbusy

theorem Idle.of_card (hidle : Idle s) (hwire : s'.onWire = s.onWire)
    (hwirq : s'.wirqActive = s.wirqActive) (hwbusy : s'.lsWbusy = s.lsWbusy) : Idle s' :=
  ⟨hwire.trans hidle.onWire, hwirq.trans hidle.wirq, hwbusy.trans hidle.wbusy⟩

theorem Busy.of_card (hbusy : Busy s) (hwire : s'.onWire = s.onWire)
    (hwirq : s'.wirqActive = s.wirqActive) (hwbusy : s'.lsWbusy = s.lsWbusy) : Busy s' := by
  refine ⟨?_, hwbusy.trans hbusy.wbusy⟩
  rw [hwire, hwirq]
  exact hbusy.either

/-- A step that leaves the card, and who has it, alone. -/
theorem Turn.elsewhere (hturn : Turn s) (hcon : s'.theConsole = s.theConsole)
    (hwsem : s'.csWsem = s.csWsem) (hwire : s'.onWire = s.onWire)
    (hwirq : s'.wirqActive = s.wirqActive) (hwbusy : s'.lsWbusy = s.lsWbusy)
    (hout : s.theConsole = false → ∀ t, (s'.frame t).point = (s.frame t).point)
    (hsending : ∀ t, (s'.frame t).point = .sending ↔ (s.frame t).point = .sending) : Turn s' := by
  cases hturn with
  | boot hboot hidle hnone =>
      exact .boot (hcon.trans hboot) (hidle.of_card hwire hwirq hwbusy)
        fun t => (hout hboot t).trans (hnone t)
  | free hset hone hidle hnone =>
      exact .free (hcon.trans hset) (hwsem.trans hone) (hidle.of_card hwire hwirq hwbusy)
        fun t hat => hnone t ((hsending t).mp hat)
  | taken t hset hzero hidle hat hothers =>
      exact .taken t (hcon.trans hset) (hwsem.trans hzero) (hidle.of_card hwire hwirq hwbusy)
        ((hsending t).mpr hat) fun u hu hat' => hothers u hu ((hsending u).mp hat')
  | busy hset hzero hbusy hnone =>
      exact .busy (hcon.trans hset) (hwsem.trans hzero) (hbusy.of_card hwire hwirq hwbusy)
        fun t hat => hnone t ((hsending t).mp hat)

/-- A thread that does not have the card, and does not get it. -/
theorem Turn.setFrame (hturn : Turn s) (hcon : s'.theConsole = s.theConsole)
    (hwsem : s'.csWsem = s.csWsem) (hwire : s'.onWire = s.onWire)
    (hwirq : s'.wirqActive = s.wirqActive) (hwbusy : s'.lsWbusy = s.lsWbusy)
    (hframe : s'.frame = Function.update s.frame t f) (hset : s.theConsole = true)
    (hat : (s.frame t).point ≠ .sending) (hat' : f.point ≠ .sending) : Turn s' := by
  refine hturn.elsewhere hcon hwsem hwire hwirq hwbusy ?_ ?_
  · intro hboot
    exact absurd (hset.symm.trans hboot) (by decide)
  · intro u
    rw [hframe]
    by_cases hu : u = t
    · subst hu
      rw [Function.update_self]
      exact iff_of_false hat' hat
    · rw [Function.update_of_ne hu]

theorem Turn.console_of_inside (hturn : Turn s) (hat : (s.frame t).point ≠ .outside) :
    s.theConsole = true := by
  cases hturn with
  | boot hcon hidle hout => exact absurd (hout t) hat
  | free hcon hwsem hidle hnone => exact hcon
  | taken t hcon hwsem hidle hat hothers => exact hcon
  | busy hcon hwsem hbusy hnone => exact hcon

theorem Turn.inside (hturn : Turn s) (hcon : s'.theConsole = s.theConsole)
    (hwsem : s'.csWsem = s.csWsem) (hwire : s'.onWire = s.onWire)
    (hwirq : s'.wirqActive = s.wirqActive) (hwbusy : s'.lsWbusy = s.lsWbusy)
    (hframe : s'.frame = Function.update s.frame t f) (hat : (s.frame t).point ≠ .sending)
    (hat' : f.point ≠ .sending) (hin : (s.frame t).point ≠ .outside) : Turn s' :=
  hturn.setFrame hcon hwsem hwire hwirq hwbusy hframe (hturn.console_of_inside hin) hat hat'

/-- The thread that is about to call `lser_write` finds the card idle. -/
theorem Turn.sending (hturn : Turn s) (hat : (s.frame t).point = .sending) :
    s.theConsole = true ∧ s.csWsem = 0 ∧ Idle s ∧
      ∀ u, u ≠ t → (s.frame u).point ≠ .sending := by
  cases hturn with
  | boot hcon hidle hout =>
      rw [hout t] at hat
      cases hat
  | free hcon hwsem hidle hnone => exact absurd hat (hnone t)
  | taken holder hcon hwsem hidle hholder hothers =>
      by_cases ht : t = holder
      · subst ht
        exact ⟨hcon, hwsem, hidle, hothers⟩
      · exact absurd hat (hothers t ht)
  | busy hcon hwsem hbusy hnone => exact absurd hat (hnone t)

/-- What an interrupt does. -/
theorem lserIrq_eq (s : Console) : lserIrq s = { s with
    wirqActive := false
    lsWbusy := s.lsWbusy && !s.wirqActive
    csWsem := if s.wirqActive && s.theConsole then s.csWsem + 1 else s.csWsem
    rirqActive := false
    csGotchar := if s.rirqActive && s.theConsole then s.regChar else s.csGotchar
    csRsem := if s.rirqActive && s.theConsole then s.csRsem + 1 else s.csRsem
    inputs := if s.rirqActive && s.theConsole then s.inputs ++ [s.regChar] else s.inputs } := by
  cases s with
  | mk onWire wirqActive regChar rirqActive lsWbusy csRsem csWsem csGotchar theConsole =>
      cases wirqActive <;> cases rirqActive <;> cases theConsole <;>
        simp [lserIrq, conStart, conInput, Console.wregWirq]

theorem Turn.irq (hturn : Turn s) : Turn (lserIrq s) := by
  rw [lserIrq_eq]
  cases hactive : s.wirqActive with
  | false =>
      exact hturn.elsewhere rfl (by simp) rfl hactive.symm (by simp)
        (fun _ _ => rfl) (fun _ => Iff.rfl)
  | true =>
      have hnot : ¬ Idle s := fun hidle => absurd (hidle.wirq.symm.trans hactive) (by decide)
      cases hturn with
      | boot hcon hidle hout => exact absurd hidle hnot
      | free hcon hwsem hidle hnone => exact absurd hidle hnot
      | taken t hcon hwsem hidle hat hothers => exact absurd hidle hnot
      | busy hcon hwsem hbusy hnone =>
          have hwire : s.onWire = none := by
            by_contra hsome
            exact absurd ((hbusy.either.mp hsome).symm.trans hactive) (by decide)
          exact .free hcon (by simp [hcon, hwsem]) ⟨hwire, rfl, by simp⟩ hnone

theorem Step.turn (hstep : Step s s') (hturn : Turn s) : Turn s' := by
  cases hstep with
  | putchDelayed ch s' hboot hdone =>
      obtain rfl := putchDelayed_eq hdone
      exact hturn.elsewhere rfl rfl rfl rfl rfl (fun _ _ => rfl) (fun _ => Iff.rfl)
  | configCon t hboot hat =>
      cases hturn with
      | boot hcon hidle hout =>
          refine .free rfl rfl (hidle.of_card rfl rfl rfl) fun u => ?_
          show (Function.update s.frame t _ u).point ≠ .sending
          by_cases hu : u = t
          · subst hu
            simp [Channel.locked]
          · simp [hu, hout u]
      | free hcon hwsem hidle hnone => exact absurd (hcon.symm.trans hboot) (by decide)
      | taken t hcon hwsem hidle hat hothers => exact absurd (hcon.symm.trans hboot) (by decide)
      | busy hcon hwsem hbusy hnone => exact absurd (hcon.symm.trans hboot) (by decide)
  | putchPolled ch s' hcon hdone =>
      rw [lserWritepolled_eq hturn.card] at hdone
      cases hdone
      cases hturn with
      | boot hboot hidle hout => exact absurd (hcon.symm.trans hboot) (by decide)
      | free hcon hwsem hidle hnone =>
          exact .free hcon hwsem ⟨rfl, hidle.wbusy, hidle.wbusy⟩ hnone
      | taken t hcon hwsem hidle hat hothers =>
          exact .taken t hcon hwsem ⟨rfl, hidle.wbusy, hidle.wbusy⟩ hat hothers
      | busy hcon hwsem hbusy hnone =>
          refine .busy hcon hwsem ⟨?_, hbusy.wbusy⟩ hnone
          show none ≠ none ↔ s.lsWbusy = false
          simp [hbusy.wbusy]
  | irq => exact hturn.irq
  | complete ch hwire =>
      have hnot : ¬ Idle s := fun hidle => absurd (hidle.onWire.symm.trans hwire) (by simp)
      cases hturn with
      | boot hcon hidle hout => exact absurd hidle hnot
      | free hcon hwsem hidle hnone => exact absurd hidle hnot
      | taken t hcon hwsem hidle hat hothers => exact absurd hidle hnot
      | busy hcon hwsem hbusy hnone =>
          refine .busy hcon hwsem ⟨?_, hbusy.wbusy⟩ hnone
          show none ≠ none ↔ true = false
          simp
  | arrive ch =>
      exact hturn.elsewhere rfl rfl rfl rfl rfl (fun _ _ => rfl) (fun _ => Iff.rfl)
  | call t channel data hcon hat =>
      refine hturn.setFrame rfl rfl rfl rfl rfl rfl hcon (by simp [hat]) ?_
      show (if channel.locked = true then Point.locking else .fetching) ≠ .sending
      split <;> simp
  | acquire t hat hfree =>
      exact hturn.inside rfl rfl rfl rfl rfl rfl (by simp [hat]) (by simp) (by simp [hat])
  | fetch t ch rest hat hrest =>
      exact hturn.inside rfl rfl rfl rfl rfl rfl (by simp [hat]) (by simp) (by simp [hat])
  | fault t hat hio hmore =>
      exact hturn.inside rfl rfl rfl rfl rfl rfl (by simp [hat]) (by simp) (by simp [hat])
  | wsem t hat hP =>
      cases hturn with
      | boot hcon hidle hout =>
          rw [hout t] at hat
          cases hat
      | free hcon hwsem hidle hnone =>
          refine .taken t hcon ?_ (hidle.of_card rfl rfl rfl) ?_ ?_
          · show s.csWsem - 1 = 0
            rw [hwsem]
          · show (Function.update s.frame t _ t).point = .sending
            rw [Function.update_self]
          · intro u hu
            show (Function.update s.frame t _ u).point ≠ .sending
            rw [Function.update_of_ne hu]
            exact hnone u
      | taken holder hcon hwsem hidle hat hothers => omega
      | busy hcon hwsem hbusy hnone => omega
  | send t ch more s' hat htodo hdone =>
      obtain ⟨hcon, hwsem, hidle, hothers⟩ := hturn.sending hat
      rw [lserWrite_eq hidle] at hdone
      cases hdone
      refine .busy hcon hwsem ⟨?_, rfl⟩ fun u => ?_
      · show some ch ≠ none ↔ s.wirqActive = false
        simp [hidle.wirq]
      · show (Function.update s.frame t _ u).point ≠ .sending
        by_cases hu : u = t
        · rw [hu, Function.update_self]
          show (if more = [] then Point.fetching else .putting) ≠ .sending
          split <;> simp
        · rw [Function.update_of_ne hu]
          exact hothers u hu
  | leave t hat hall =>
      exact hturn.inside rfl rfl rfl rfl rfl rfl (by simp [hat]) (by simp) (by simp [hat])
  | release t hat =>
      exact hturn.inside rfl rfl rfl rfl rfl rfl (by simp [hat]) (by simp) (by simp [hat])
  | _ => exact hturn.elsewhere rfl rfl rfl rfl rfl (fun _ _ => rfl) (fun _ => Iff.rfl)

theorem Step.output (hstep : Step s s') (hturn : Turn s) (houtput : Output s) : Output s' := by
  cases hstep with
  | putchDelayed ch s' hboot hdone =>
      obtain rfl := putchDelayed_eq hdone
      exact ⟨houtput.overrun, houtput.line⟩
  | putchPolled ch s' hcon hdone =>
      rw [lserWritepolled_eq hturn.card] at hdone
      cases hdone
      refine ⟨houtput.overrun, ?_⟩
      show s.line ++ s.onWire.toList ++ [ch] ++ [] = (s.sent ++ [(none, ch)]).map Prod.snd
      rw [List.append_nil, houtput.line, List.map_append]
      rfl
  | irq =>
      rw [lserIrq_eq]
      exact ⟨houtput.overrun, houtput.line⟩
  | complete ch hwire =>
      refine ⟨houtput.overrun, ?_⟩
      show s.line ++ [ch] ++ [] = s.sent.map Prod.snd
      rw [List.append_nil, ← houtput.line, hwire]
      rfl
  | send t ch more s' hat htodo hdone =>
      obtain ⟨_, _, hidle, _⟩ := hturn.sending hat
      rw [lserWrite_eq hidle] at hdone
      cases hdone
      refine ⟨?_, ?_⟩
      · show (s.overrun || s.onWire.isSome) = false
        rw [houtput.overrun, hidle.onWire]
        rfl
      · show s.line ++ [ch] = (s.sent ++ [(_, ch)]).map Prod.snd
        rw [List.map_append, ← houtput.line, hidle.onWire]
        simp
  | _ => exact ⟨houtput.overrun, houtput.line⟩

theorem Runs.turn {regChar : Byte} (hrun : Runs (configLser regChar) s) : Turn s ∧ Output s := by
  refine invariant_of_steps (fun s => Turn s ∧ Output s) hrun ⟨?_, rfl, rfl⟩ ?_
  · exact .boot rfl ⟨rfl, rfl, rfl⟩ fun _ => rfl
  · rintro before next ⟨hturn, houtput⟩ hstep
    exact ⟨hstep.turn hturn, hstep.output hturn houtput⟩

/-- However threads that print, interrupts and polled output come together, `lser_write` never
finds the card busy, `lser_writepolled` never spins for ever, no character is given to the card
before it is through with the one before, and all go out, once and in the order of the puts. -/
theorem console_output {regChar : Byte} (hrun : Runs (configLser regChar) s) :
    s.overrun = false ∧ s.line ++ s.onWire.toList = s.sent.map Prod.snd ∧
    (∀ t ch, (s.frame t).point = .sending → ∃ s', lserWrite ch s = .ok () s') ∧
    ∀ ch, ∃ s', lserWritepolled ch s = .ok () s' := by
  obtain ⟨hturn, houtput⟩ := hrun.turn
  refine ⟨houtput.overrun, houtput.line, ?_, fun ch => ⟨_, lserWritepolled_eq hturn.card ch⟩⟩
  intro t ch hat
  obtain ⟨_, _, hidle, _⟩ := hturn.sending hat
  exact ⟨_, lserWrite_eq hidle ch⟩

/-- There is a console, and thread 2 is about to give the card the first character that `con_io`
puts for a newline. -/
def newlineDue : Console :=
  (((((configLser 0).configCon 1).call 2 .conIo [10]).acquired 2).fetched 2 10 []).gotWsem 2

theorem newlineDue_runs : Runs (configLser 0) newlineDue := by
  have hcon : Runs (configLser 0) ((configLser 0).configCon 1) := .single (.configCon 1 rfl rfl)
  have hcall := hcon.tail (.call 2 .conIo [10] rfl (by decide))
  have hlock := hcall.tail (.acquire 2 (by decide) (by decide))
  have hfetch := hlock.tail (.fetch 2 10 [] (by decide) (by decide))
  exact hfetch.tail (.wsem 2 (by decide) (by decide))

theorem console_output_newline :
    (newlineDue.overrun = false ∧
      newlineDue.line ++ newlineDue.onWire.toList = newlineDue.sent.map Prod.snd) ∧
    ∃ s', lserWrite 13 newlineDue = .ok () s' := by
  obtain ⟨hoverrun, hline, hwrite, _⟩ := console_output newlineDue_runs
  exact ⟨⟨hoverrun, hline⟩, hwrite 2 13 (by decide)⟩

/-! The output of one call. -/

/-- Between the acquiring of the lock and its release. -/
def Point.Inside : Point → Prop
  | .outside => False
  | .locking => False
  | _ => True

/-- What is put for all these characters. -/
def Channel.text (c : Channel) (data : List Byte) : List Byte := data.flatMap c.puts

/-- All of a character is put before the next is fetched, and nothing is fetched without the
lock. -/
structure Frame.Ok (f : Frame) : Prop where
  data : f.moved ++ f.rest = f.data
  text : f.channel.text f.moved = f.said ++ f.todo
  todo : f.todo = [] ↔ f.point ≠ .putting ∧ f.point ≠ .sending
  locking : f.point = .locking → f.channel.locked = true ∧ f.moved = []
  rest : f.point = .releasing → f.channel ≠ .conIo → f.rest = []

/-- A call that has ended put all that it fetched, and fetched all its data, unless the uio of
`con_io` had a fault. -/
structure Ended (c : Channel) (f : Frame) : Prop where
  text : f.said = c.text f.moved
  data : f.moved ++ f.rest = f.data
  all : c ≠ .conIo → f.rest = []

/-- What was put in calls of this kind. -/
def Console.saidBy (s : Console) (c : Channel) : List Byte :=
  (s.sent.filter fun x => x.1 = some c).map Prod.snd

/-- The thread is in a call of this kind, and past its lock. -/
def Console.In (s : Console) (c : Channel) (t : Tid) : Prop :=
  (s.frame t).channel = c ∧ (s.frame t).point.Inside

/-- The calls of this kind come one after the other. -/
def Owned (s : Console) (c : Channel) : Prop :=
  OneByOne (s.writeLock c) (s.In c) (fun t => (s.frame t).said) ((s.finished c).flatMap Frame.said)
    (s.saidBy c)

variable {c : Channel}

theorem Channel.puts_ne_nil (c : Channel) (ch : Byte) : c.puts ch ≠ [] := by
  cases c with
  | conIo =>
      rw [Channel.puts]
      split <;> simp
  | kprintf => simp [Channel.puts]
  | putch => simp [Channel.puts]

theorem Channel.text_append (c : Channel) (data more : List Byte) :
    c.text (data ++ more) = c.text data ++ c.text more :=
  List.flatMap_append

theorem Console.saidBy_record (s : Console) (channel : Option Channel) (ch : Byte) (c : Channel) :
    (s.record channel ch).saidBy c = s.saidBy c ++ if channel = some c then [ch] else [] := by
  show ((s.sent ++ [(channel, ch)]).filter fun x => x.1 = some c).map Prod.snd = _
  rw [List.filter_append, List.map_append, Console.saidBy]
  by_cases hc : channel = some c
  · simp [hc]
  · simp [hc]

theorem Frame.Ok.said (hok : f.Ok) (hat : f.point ≠ .putting ∧ f.point ≠ .sending) :
    f.said = f.channel.text f.moved := by
  rw [hok.text, hok.todo.mpr hat, List.append_nil]

/-- A thread goes on without fetching or putting. -/
theorem Frame.Ok.goAt (hok : f.Ok) {p : Point}
    (hsame : (p ≠ .putting ∧ p ≠ .sending) ↔ (f.point ≠ .putting ∧ f.point ≠ .sending))
    (hp : p ≠ .locking) (hrest : p = .releasing → f.channel ≠ .conIo → f.rest = []) :
    { f with point := p }.Ok :=
  ⟨hok.data, hok.text, hok.todo.trans hsame.symm, fun hlocking => absurd hlocking hp, hrest⟩

theorem Frame.Ok.fetched (hok : f.Ok) (hat : f.point = .fetching) {rest : List Byte}
    (hrest : f.rest = ch :: rest) : { f with
      point := .putting
      rest := rest
      todo := f.channel.puts ch
      moved := f.moved ++ [ch] }.Ok := by
  refine ⟨?_, ?_, by simp [Channel.puts_ne_nil], (by cases ·), (by cases ·)⟩
  · show f.moved ++ [ch] ++ rest = f.data
    rw [← hok.data, hrest, List.append_assoc]
    rfl
  · show f.channel.text (f.moved ++ [ch]) = f.said ++ f.channel.puts ch
    rw [Channel.text_append, hok.said (by simp [hat])]
    simp [Channel.text]

theorem Frame.Ok.put (hok : f.Ok) {more : List Byte} (htodo : f.todo = ch :: more) : { f with
    point := if more = [] then .fetching else .putting
    todo := more
    said := f.said ++ [ch] }.Ok := by
  have hpoint : ∀ p : Point, p ≠ .fetching → p ≠ .putting →
      (if more = [] then Point.fetching else .putting) ≠ p := by
    intro p hfetching hputting
    split
    · exact hfetching.symm
    · exact hputting.symm
  refine ⟨hok.data, ?_, ?_, ?_, ?_⟩
  · show f.channel.text f.moved = f.said ++ [ch] ++ more
    rw [hok.text, htodo, List.append_assoc]
    rfl
  · show more = [] ↔ _
    by_cases hmore : more = []
    · simp [hmore]
    · simp [hmore]
  · exact fun hlocking => absurd hlocking (hpoint _ (by simp) (by simp))
  · exact fun hreleasing => absurd hreleasing (hpoint _ (by simp) (by simp))

theorem frame_ok_call (channel : Channel) (data : List Byte) :
    (Frame.mk (if channel.locked then .locking else .fetching) channel data data [] [] []).Ok := by
  refine ⟨rfl, rfl, ?_, ?_, ?_⟩
  · cases channel <;> simp [Channel.locked]
  · cases channel <;> simp [Channel.locked]
  · cases channel <;> simp [Channel.locked]

theorem frame_ok_update {frame : Tid → Frame} (hok : ∀ t, (frame t).Ok) (hf : f.Ok) :
    ∀ u, (Function.update frame t f u).Ok := by
  intro u
  by_cases hu : u = t
  · rw [hu, Function.update_self]
    exact hf
  · rw [Function.update_of_ne hu]
    exact hok u

theorem Step.frame_ok (hstep : Step s s') (hturn : Turn s) (hok : ∀ t, (s.frame t).Ok) :
    ∀ t, (s'.frame t).Ok := by
  cases hstep with
  | putchDelayed ch s' hboot hdone =>
      obtain rfl := putchDelayed_eq hdone
      exact hok
  | configCon t hboot hat => exact frame_ok_update hok (frame_ok_call .putch _)
  | putchPolled ch s' hcon hdone =>
      rw [lserWritepolled_eq hturn.card] at hdone
      cases hdone
      exact hok
  | irq =>
      rw [lserIrq_eq]
      exact hok
  | call t channel data hcon hat => exact frame_ok_update hok (frame_ok_call channel data)
  | acquire t hat hfree =>
      exact frame_ok_update hok ((hok t).goAt (by simp [hat]) (by simp) (by simp))
  | fetch t ch rest hat hrest => exact frame_ok_update hok ((hok t).fetched hat hrest)
  | fault t hat hio hmore =>
      exact frame_ok_update hok
        ((hok t).goAt (by simp [hat]) (by simp) fun _ hne => absurd hio hne)
  | wsem t hat hP =>
      exact frame_ok_update hok ((hok t).goAt (by simp [hat]) (by simp) (by simp))
  | send t ch more s' hat htodo hdone =>
      obtain ⟨_, _, hidle, _⟩ := hturn.sending hat
      rw [lserWrite_eq hidle] at hdone
      cases hdone
      exact frame_ok_update hok ((hok t).put htodo)
  | leave t hat hall =>
      exact frame_ok_update hok ((hok t).goAt (by simp [hat]) (by simp) fun _ _ => hall)
  | release t hat =>
      exact frame_ok_update hok ((hok t).goAt (by simp [hat]) (by simp) (by simp))
  | _ => exact hok

theorem Step.ended (hstep : Step s s') (hturn : Turn s) (hok : ∀ t, (s.frame t).Ok)
    (hended : ∀ c, ∀ f ∈ s.finished c, Ended c f) : ∀ c, ∀ f ∈ s'.finished c, Ended c f := by
  cases hstep with
  | putchDelayed ch s' hboot hdone =>
      obtain rfl := putchDelayed_eq hdone
      exact hended
  | putchPolled ch s' hcon hdone =>
      rw [lserWritepolled_eq hturn.card] at hdone
      cases hdone
      exact hended
  | irq =>
      rw [lserIrq_eq]
      exact hended
  | send t ch more s' hat htodo hdone =>
      obtain ⟨_, _, hidle, _⟩ := hturn.sending hat
      rw [lserWrite_eq hidle] at hdone
      cases hdone
      exact hended
  | release t hat =>
      intro c f hf
      by_cases hc : c = (s.frame t).channel
      · subst hc
        replace hf : f ∈ Function.update s.finished (s.frame t).channel _ (s.frame t).channel := hf
        rw [Function.update_self, List.mem_append, List.mem_singleton] at hf
        obtain hbefore | rfl := hf
        · exact hended _ f hbefore
        · exact ⟨(hok t).said (by simp [hat]), (hok t).data, (hok t).rest hat⟩
      · replace hf : f ∈ Function.update s.finished (s.frame t).channel _ c := hf
        rw [Function.update_of_ne hc] at hf
        exact hended c f hf
  | _ => exact hended

/-! Who holds the locks. -/

theorem apart_update (hframe : s'.frame = Function.update s.frame t f) :
    Apart t (s.In c) (s'.In c) (fun t => (s.frame t).said) fun t => (s'.frame t).said := by
  intro u hu
  have hsame : s'.frame u = s.frame u := by rw [hframe, Function.update_of_ne hu]
  show ((s'.frame u).channel = c ∧ _ ↔ _) ∧ (s'.frame u).said = (s.frame u).said
  rw [hsame]
  exact ⟨Iff.rfl, rfl⟩

theorem in_update (hframe : s'.frame = Function.update s.frame t f) :
    s'.In c t ↔ f.channel = c ∧ f.point.Inside := by
  rw [Console.In, hframe, Function.update_self]

theorem Owned.same (howned : Owned s c) (hframe : s'.frame = s.frame)
    (hlock : s'.writeLock = s.writeLock) (hfinished : s'.finished = s.finished)
    (hsaid : s'.saidBy c = s.saidBy c) : Owned s' c := by
  have hin : s'.In c = s.In c := by
    funext t
    rw [Console.In, hframe, Console.In]
  rw [Owned, hin, hframe, hlock, hfinished, hsaid]
  exact howned

/-- A thread that is not in a call of this kind takes a step. -/
theorem Owned.other (howned : Owned s c) (hframe : s'.frame = Function.update s.frame t f)
    (hlock : s'.writeLock c = s.writeLock c) (hfinished : s'.finished c = s.finished c)
    (hsaid : s'.saidBy c = s.saidBy c) (hout : ¬ s.In c t)
    (hout' : ¬ (f.channel = c ∧ f.point.Inside)) : Owned s' c := by
  rw [Owned, hlock, hfinished, hsaid]
  exact OneByOne.other howned (apart_update hframe) hout fun hin => hout' ((in_update hframe).mp hin)

/-- A thread that is in a call takes a step in it. -/
theorem Owned.goesOn (howned : Owned s c) (hin : (s.frame t).point.Inside)
    (hframe : s'.frame = Function.update s.frame t f) (hlock : s'.writeLock = s.writeLock)
    (hfinished : s'.finished = s.finished) (hchannel : f.channel = (s.frame t).channel)
    (hin' : f.point.Inside) (out : List Byte) (hout : f.said = (s.frame t).said ++ out)
    (hsaid : s'.saidBy c = s.saidBy c ++ if (s.frame t).channel = c then out else []) :
    Owned s' c := by
  by_cases hc : (s.frame t).channel = c
  · rw [Owned, hlock, hfinished, hsaid, if_pos hc]
    refine OneByOne.own howned (apart_update hframe) ⟨hc, hin⟩
      ((in_update hframe).mpr ⟨hchannel.trans hc, hin'⟩) ?_
    show (s'.frame t).said = _
    rw [hframe, Function.update_self, hout]
  · rw [if_neg hc, List.append_nil] at hsaid
    exact howned.other hframe (congrFun hlock c) (congrFun hfinished c) hsaid (fun h => hc h.1)
      (fun h => hc (hchannel.symm.trans h.1))

theorem Owned.acquired (howned : Owned s c) (hok : (s.frame t).Ok)
    (hat : (s.frame t).point = .locking) (hfree : s.writeLock (s.frame t).channel = none) :
    Owned (s.acquired t) c := by
  by_cases hc : (s.frame t).channel = c
  · subst hc
    have hlock : (s.acquired t).writeLock (s.frame t).channel = some t := Function.update_self _ _ _
    have hframe : (s.acquired t).frame =
      Function.update s.frame t { s.frame t with point := .fetching } := rfl
    rw [Owned, hfree] at howned
    rw [Owned, hlock]
    refine howned.enter (apart_update hframe) ((in_update hframe).mpr ⟨rfl, trivial⟩) ?_
    show ((s.acquired t).frame t).said = []
    rw [hframe, Function.update_self, hok.said (by simp [hat]), (hok.locking hat).2]
    rfl
  · exact howned.other rfl (Function.update_of_ne (Ne.symm hc) _ _) rfl rfl (fun h => hc h.1)
      (fun h => hc h.1)

theorem Owned.released (howned : Owned s c) (hlocked : c.locked = true)
    (hat : (s.frame t).point = .releasing) : Owned (s.released t) c := by
  have hframe : (s.released t).frame =
    Function.update s.frame t { s.frame t with point := .outside } := rfl
  have hlock : ∀ held : Option Tid, (if (s.frame t).channel.locked then
      Function.update s.writeLock (s.frame t).channel none else s.writeLock) c = held →
      (s.released t).writeLock c = held := fun _ h => h
  by_cases hc : (s.frame t).channel = c
  · have hfinished : (s.released t).finished c = s.finished c ++ [s.frame t] := by
      show Function.update s.finished (s.frame t).channel _ c = _
      rw [hc, Function.update_self]
    rw [Owned, hlock none (by rw [hc, if_pos hlocked, Function.update_self]), hfinished,
      List.flatMap_append, List.flatMap_cons, List.flatMap_nil, List.append_nil]
    refine OneByOne.leave howned (apart_update hframe) ⟨hc, ?_⟩
      fun hin => ((in_update hframe).mp hin).2
    rw [hat]
    trivial
  · refine howned.other hframe (hlock _ ?_) (Function.update_of_ne (Ne.symm hc) _ _) rfl
      (fun h => hc h.1) (fun h => hc h.1)
    split
    · exact Function.update_of_ne (Ne.symm hc) _ _
    · rfl

theorem Step.owned (hstep : Step s s') (hlocked : c.locked = true) (hturn : Turn s)
    (hok : ∀ t, (s.frame t).Ok) (howned : Owned s c) : Owned s' c := by
  have houtside : ∀ t, (s.frame t).point = .outside → ¬ s.In c t := by
    intro t hat hin
    rw [Console.In, hat] at hin
    exact hin.2
  cases hstep with
  | putchDelayed ch s' hboot hdone =>
      obtain rfl := putchDelayed_eq hdone
      exact howned.same rfl rfl rfl rfl
  | configCon t hboot hat =>
      refine howned.other rfl rfl rfl rfl (houtside t hat) ?_
      rintro ⟨rfl, _⟩
      cases hlocked
  | putchPolled ch s' hcon hdone =>
      rw [lserWritepolled_eq hturn.card] at hdone
      cases hdone
      refine howned.same rfl rfl rfl ?_
      rw [Console.saidBy_record]
      exact List.append_nil _
  | irq =>
      rw [lserIrq_eq]
      exact howned.same rfl rfl rfl rfl
  | call t channel data hcon hat =>
      refine howned.other rfl rfl rfl rfl (houtside t hat) ?_
      rintro ⟨rfl, hin⟩
      replace hin : (if channel.locked = true then Point.locking else .fetching).Inside := hin
      rw [if_pos hlocked] at hin
      exact hin
  | acquire t hat hfree => exact howned.acquired (hok t) hat hfree
  | fetch t ch rest hat hrest =>
      refine howned.goesOn ?_ rfl rfl rfl rfl trivial [] (List.append_nil _).symm ?_
      · rw [hat]
        trivial
      · rw [ite_self]
        exact (List.append_nil _).symm
  | fault t hat hio hmore =>
      refine howned.goesOn ?_ rfl rfl rfl rfl trivial [] (List.append_nil _).symm ?_
      · rw [hat]
        trivial
      · rw [ite_self]
        exact (List.append_nil _).symm
  | wsem t hat hP =>
      refine howned.goesOn ?_ rfl rfl rfl rfl trivial [] (List.append_nil _).symm ?_
      · rw [hat]
        trivial
      · rw [ite_self]
        exact (List.append_nil _).symm
  | send t ch more s' hat htodo hdone =>
      obtain ⟨_, _, hidle, _⟩ := hturn.sending hat
      rw [lserWrite_eq hidle] at hdone
      cases hdone
      refine howned.goesOn ?_ rfl rfl rfl rfl ?_ [ch] rfl ?_
      · rw [hat]
        trivial
      · show (if more = [] then Point.fetching else .putting).Inside
        split
        · trivial
        · trivial
      · refine (Console.saidBy_record _ _ ch c).trans ?_
        simp only [Option.some.injEq]
        rfl
  | leave t hat hall =>
      refine howned.goesOn ?_ rfl rfl rfl rfl trivial [] (List.append_nil _).symm ?_
      · rw [hat]
        trivial
      · rw [ite_self]
        exact (List.append_nil _).symm
  | release t hat => exact howned.released hlocked hat
  | _ => exact howned.same rfl rfl rfl rfl

/-- What holds of the threads that print. -/
structure Ordered (s : Console) : Prop where
  turn : Turn s
  ok : ∀ t, (s.frame t).Ok
  owned : ∀ c : Channel, c.locked = true → Owned s c
  ended : ∀ c, ∀ f ∈ s.finished c, Ended c f

theorem Step.ordered (hstep : Step s s') (h : Ordered s) : Ordered s' :=
  ⟨hstep.turn h.turn, hstep.frame_ok h.turn h.ok,
    fun c hlocked => hstep.owned hlocked h.turn h.ok (h.owned c hlocked),
    hstep.ended h.turn h.ok h.ended⟩

theorem Ordered.runs (h : Ordered s) (hrun : Runs s s') : Ordered s' :=
  invariant_of_steps Ordered hrun h fun _ _ h hstep => hstep.ordered h

theorem configLser_ordered (regChar : Byte) : Ordered (configLser regChar) where
  turn := .boot rfl ⟨rfl, rfl, rfl⟩ fun _ => rfl
  ok _ := ⟨rfl, rfl, by simp [configLser], by simp [configLser], by simp [configLser]⟩
  owned _ _ := ⟨fun _ hin => hin.2.elim, fun _ hholder => absurd hholder (by simp [configLser]), rfl⟩
  ended _ _ hf := absurd hf List.not_mem_nil

/-- What a call of `con_io` or `kprintf` puts comes out in one piece but for the output of others:
at most one such call is past its lock, and all that was put in calls of the kind is what the calls
that have ended put, one after the other, and then what the one under way has put so far.  Each
puts the text of its data, as far as the data could be fetched. -/
theorem calls_one_by_one {regChar : Byte} (hrun : Runs (configLser regChar) s)
    (hlocked : c.locked = true) :
    (∀ t u, s.In c t → s.In c u → t = u) ∧
    (s.finished c).flatMap Frame.said ++ (s.writeLock c).elim [] (fun t => (s.frame t).said) =
      s.saidBy c ∧
    (∀ t, (s.frame t).Ok) ∧ ∀ f ∈ s.finished c, Ended c f := by
  have h := (configLser_ordered regChar).runs hrun
  have howned := h.owned c hlocked
  exact ⟨fun t u ht hu => howned.eq_of_inside ht hu, howned.log, h.ok, h.ended c⟩

theorem calls_one_by_one_newline :
    newlineDue.In .conIo 2 ∧ (newlineDue.frame 2).todo = [13, 10] ∧
    (∀ t u, newlineDue.In .conIo t → newlineDue.In .conIo u → t = u) ∧
    (newlineDue.finished .conIo).flatMap Frame.said ++
      (newlineDue.writeLock .conIo).elim [] (fun t => (newlineDue.frame t).said) =
        newlineDue.saidBy .conIo ∧
    (∀ t, (newlineDue.frame t).Ok) ∧ ∀ f ∈ newlineDue.finished .conIo, Ended .conIo f :=
  ⟨⟨by decide, trivial⟩, by decide, calls_one_by_one newlineDue_runs rfl⟩

end OS161.Dev.Con
