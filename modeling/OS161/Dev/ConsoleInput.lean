import OS161.Dev.ConsoleOutput

namespace OS161.Dev.Con

open OS161.Data

/-! What was typed and what is read. -/

variable {s s' : Console} {t u : Tid} {r : Reader} {ch : Byte}

/-- The character that the card has for the next interrupt. -/
def Console.arrived (s : Console) : List Byte := if s.rirqActive then [s.regChar] else []

/-- Every character that `con_input` was given has been returned by `getch`, or is counted by
`cs_rsem`, or is that of a thread between its `P` and its return; `waiting` are these threads. -/
structure Input (s : Console) (waiting : List Tid) : Prop where
  boot : s.theConsole = false → s.inputs = [] ∧ ∀ t, (s.reader t).point = .outside
  typed : (s.inputs ++ s.arrived).Sublist s.typed
  nodup : waiting.Nodup
  members : ∀ t, t ∈ waiting ↔ (s.reader t).point = .got
  count : s.gotten.length + waiting.length + s.csRsem = s.inputs.length
  gotchar : s.inputs ≠ [] → s.inputs.getLast? = some s.csGotchar
  late : ∀ (k : Nat) ch, s.gotten[k]? = some ch → ∃ j, k ≤ j ∧ s.inputs[j]? = some ch

variable {waiting : List Tid}

theorem mem_waiting_update {reader : Tid → Reader}
    (hwaiting : ∀ t, t ∈ waiting ↔ (reader t).point = .got) (hat : (reader t).point ≠ .got)
    (hat' : r.point ≠ .got) : ∀ u, u ∈ waiting ↔ (Function.update reader t r u).point = .got := by
  intro u
  by_cases hu : u = t
  · rw [hu, Function.update_self]
    exact iff_of_false (fun hmem => hat ((hwaiting t).mp hmem)) hat'
  · rw [Function.update_of_ne hu]
    exact hwaiting u

/-- A reader that neither comes from `P` nor goes on from there. -/
theorem Input.goesOn (h : Input s waiting) (hcon : s.theConsole = true)
    (hat : (s.reader t).point ≠ .got) (hat' : r.point ≠ .got)
    (hreader : s'.reader = Function.update s.reader t r) (hcon' : s'.theConsole = s.theConsole)
    (htyped : s'.typed = s.typed) (hinputs : s'.inputs = s.inputs) (harrived : s'.arrived = s.arrived)
    (hgotten : s'.gotten = s.gotten) (hrsem : s'.csRsem = s.csRsem)
    (hgotchar : s'.csGotchar = s.csGotchar) : Input s' waiting := by
  refine ⟨?_, ?_, h.nodup, ?_, ?_, ?_, ?_⟩
  · intro hboot
    exact absurd ((hcon'.trans hcon).symm.trans hboot) (by decide)
  · rw [htyped, hinputs, harrived]
    exact h.typed
  · rw [hreader]
    exact mem_waiting_update h.members hat hat'
  · rw [hgotten, hrsem, hinputs]
    exact h.count
  · rw [hinputs, hgotchar]
    exact h.gotchar
  · rw [hgotten, hinputs]
    exact h.late

theorem Input.console_of_inside (h : Input s waiting) (hat : (s.reader t).point ≠ .outside) :
    s.theConsole = true := by
  by_contra hcon
  exact hat ((h.boot (by simpa using hcon)).2 t)

theorem Input.irq (h : Input s waiting) : Input (lserIrq s) waiting := by
  have hsub : s.inputs.Sublist s.typed := (List.sublist_append_left _ _).trans h.typed
  rw [lserIrq_eq]
  cases hactive : s.rirqActive with
  | false =>
      refine ⟨h.boot, ?_, h.nodup, h.members, h.count, h.gotchar, h.late⟩
      show (s.inputs ++ []).Sublist s.typed
      rw [List.append_nil]
      exact hsub
  | true =>
      cases hcon : s.theConsole with
      | false =>
          refine ⟨fun _ => h.boot hcon, ?_, h.nodup, h.members, h.count, h.gotchar, h.late⟩
          show (s.inputs ++ []).Sublist s.typed
          rw [List.append_nil]
          exact hsub
      | true =>
          have htyped := h.typed
          rw [Console.arrived, hactive, if_pos rfl] at htyped
          refine ⟨fun hboot => (by cases hboot), ?_, h.nodup, h.members, ?_, ?_, ?_⟩
          · show (s.inputs ++ [s.regChar] ++ []).Sublist s.typed
            rw [List.append_nil]
            exact htyped
          · show s.gotten.length + waiting.length + (s.csRsem + 1) = (s.inputs ++ [_]).length
            rw [List.length_append, List.length_singleton, ← h.count]
            omega
          · intro _
            exact List.getLast?_concat
          · intro k ch hk
            obtain ⟨j, hj, hch⟩ := h.late k ch hk
            refine ⟨j, hj, ?_⟩
            show (s.inputs ++ [s.regChar])[j]? = some ch
            rw [List.getElem?_append_left (List.getElem?_eq_some_iff.mp hch).1]
            exact hch

theorem Input.arrive (h : Input s waiting) (ch : Byte) : Input (s.arrive ch) waiting := by
  refine ⟨h.boot, ?_, h.nodup, h.members, h.count, h.gotchar, h.late⟩
  exact ((List.sublist_append_left _ _).trans h.typed).append (.refl [ch])

/-- The `P` of `getch_intr` comes back. -/
theorem Input.gotRsem (h : Input s waiting) (hat : (s.reader t).point = .getting)
    (hP : 0 < s.csRsem) : Input (s.gotRsem t) (t :: waiting) := by
  have hcount := h.count
  have hnew : t ∉ waiting := by
    rw [h.members t, hat]
    exact fun heq => by cases heq
  refine ⟨?_, h.typed, List.nodup_cons.mpr ⟨hnew, h.nodup⟩, ?_, ?_, h.gotchar, h.late⟩
  · intro hboot
    exact absurd (((h.console_of_inside (t := t) (by simp [hat])).symm.trans hboot)) (by decide)
  · intro u
    show u ∈ t :: waiting ↔ (Function.update s.reader t _ u).point = .got
    by_cases hu : u = t
    · rw [hu, Function.update_self]
      simp
    · rw [Function.update_of_ne hu, List.mem_cons, or_iff_right hu]
      exact h.members u
  · show s.gotten.length + (t :: waiting).length + (s.csRsem - 1) = s.inputs.length
    rw [List.length_cons]
    omega

/-- `getch` returns. -/
theorem Input.took (h : Input s waiting) (hat : (s.reader t).point = .got) (hat' : r.point ≠ .got)
    (hreader : s'.reader = Function.update s.reader t r) (hcon' : s'.theConsole = s.theConsole)
    (htyped : s'.typed = s.typed) (hinputs : s'.inputs = s.inputs) (harrived : s'.arrived = s.arrived)
    (hgotten : s'.gotten = s.gotten ++ [s.csGotchar]) (hrsem : s'.csRsem = s.csRsem)
    (hgotchar : s'.csGotchar = s.csGotchar) : Input s' (waiting.erase t) := by
  have hmem := (h.members t).mpr hat
  have hlength := List.length_erase_add_one hmem
  have hcount := h.count
  refine ⟨?_, ?_, h.nodup.erase t, ?_, ?_, ?_, ?_⟩
  · intro hboot
    have hcon := h.console_of_inside (t := t) (by simp [hat])
    exact absurd ((hcon'.trans hcon).symm.trans hboot) (by decide)
  · rw [htyped, hinputs, harrived]
    exact h.typed
  · intro u
    rw [hreader, h.nodup.mem_erase_iff]
    by_cases hu : u = t
    · rw [hu, Function.update_self]
      exact iff_of_false (fun hboth => hboth.1 rfl) hat'
    · rw [Function.update_of_ne hu, and_iff_right hu]
      exact h.members u
  · rw [hgotten, hrsem, hinputs, List.length_append, List.length_singleton]
    omega
  · rw [hinputs, hgotchar]
    exact h.gotchar
  · intro k ch hk
    rw [hgotten] at hk
    rw [hinputs]
    by_cases hlast : k < s.gotten.length
    · rw [List.getElem?_append_left hlast] at hk
      exact h.late k ch hk
    · have hlt := (List.getElem?_eq_some_iff.mp hk).1
      rw [List.length_append, List.length_singleton] at hlt
      obtain rfl : k = s.gotten.length := by omega
      rw [List.getElem?_concat_length] at hk
      obtain rfl := Option.some.inj hk
      have hsome : s.inputs ≠ [] := List.ne_nil_of_length_pos (by omega)
      refine ⟨s.inputs.length - 1, by omega, ?_⟩
      rw [← List.getLast?_eq_getElem?]
      exact h.gotchar hsome

theorem Step.input (hstep : Step s s') (hturn : Turn s) (h : Input s waiting) :
    ∃ waiting', Input s' waiting' := by
  cases hstep with
  | putchDelayed ch s' hboot hdone =>
      obtain rfl := putchDelayed_eq hdone
      exact ⟨waiting, ⟨h.boot, h.typed, h.nodup, h.members, h.count, h.gotchar, h.late⟩⟩
  | configCon t hboot hat =>
      have hinputs := (h.boot hboot).1
      have hcount := h.count
      rw [hinputs, List.length_nil] at hcount
      refine ⟨waiting, ⟨fun hnot => (by cases hnot), h.typed, h.nodup, h.members, ?_,
        fun hsome => absurd hinputs hsome, h.late⟩⟩
      show s.gotten.length + waiting.length + 0 = s.inputs.length
      rw [hinputs, List.length_nil]
      omega
  | putchPolled ch s' hcon hdone =>
      rw [lserWritepolled_eq hturn.card] at hdone
      cases hdone
      exact ⟨waiting, ⟨h.boot, h.typed, h.nodup, h.members, h.count, h.gotchar, h.late⟩⟩
  | irq => exact ⟨waiting, h.irq⟩
  | arrive ch => exact ⟨waiting, h.arrive ch⟩
  | send t ch more s' hat htodo hdone =>
      obtain ⟨_, _, hidle, _⟩ := hturn.sending hat
      rw [lserWrite_eq hidle] at hdone
      cases hdone
      exact ⟨waiting, ⟨h.boot, h.typed, h.nodup, h.members, h.count, h.gotchar, h.late⟩⟩
  | callGetch t hcon hat =>
      exact ⟨waiting, h.goesOn hcon (by simp [hat]) (by simp) rfl rfl rfl rfl rfl rfl rfl rfl⟩
  | callRead t resid hcon hat =>
      exact ⟨waiting, h.goesOn hcon (by simp [hat]) (by simp) rfl rfl rfl rfl rfl rfl rfl rfl⟩
  | readAcquire t hat hfree =>
      exact ⟨waiting, h.goesOn (h.console_of_inside (t := t) (by simp [hat])) (by simp [hat]) (by simp)
        rfl rfl rfl rfl rfl rfl rfl rfl⟩
  | rsem t hat hmore hP => exact ⟨t :: waiting, h.gotRsem hat hP⟩
  | take t hat =>
      refine ⟨waiting.erase t, h.took hat ?_ rfl rfl rfl rfl rfl rfl rfl rfl⟩
      split
      · show (if Console.newline s.csGotchar = 10 then ReadPoint.releasing else .getting) ≠ .got
        split <;> simp
      · simp
  | takeFault t hat hio =>
      exact ⟨waiting.erase t, h.took hat (by simp) rfl rfl rfl rfl rfl rfl rfl rfl⟩
  | readLeave t hat hall =>
      exact ⟨waiting, h.goesOn (h.console_of_inside (t := t) (by simp [hat])) (by simp [hat]) (by simp)
        rfl rfl rfl rfl rfl rfl rfl rfl⟩
  | readRelease t hat =>
      exact ⟨waiting, h.goesOn (h.console_of_inside (t := t) (by simp [hat])) (by simp [hat]) (by simp)
        rfl rfl rfl rfl rfl rfl rfl rfl⟩
  | _ => exact ⟨waiting, ⟨h.boot, h.typed, h.nodup, h.members, h.count, h.gotchar, h.late⟩⟩

theorem configLser_input (regChar : Byte) : Input (configLser regChar) [] where
  boot _ := ⟨rfl, fun _ => rfl⟩
  typed := .refl []
  nodup := List.nodup_nil
  members _ := iff_of_false List.not_mem_nil (by simp [configLser])
  count := rfl
  gotchar hsome := absurd rfl hsome
  late _ _ hk := by cases hk

theorem Runs.input {regChar : Byte} (hrun : Runs (configLser regChar) s) :
    ∃ waiting, Input s waiting := by
  refine (invariant_of_steps (fun s => Turn s ∧ ∃ waiting, Input s waiting) hrun
    ⟨(configLser_ordered regChar).turn, [], configLser_input regChar⟩ ?_).2
  rintro before next ⟨hturn, waiting, hinput⟩ hstep
  exact ⟨hstep.turn hturn, hstep.input hturn hinput⟩

/-- A character is typed only when there is a console, and everything typed before was
returned. -/
def SlowStep (s s' : Console) : Prop :=
  Step s s' ∧ (s'.typed = s.typed ∨ s.theConsole = true ∧ s.gotten.length = s.typed.length)

/-- A carriage return was typed, and thread 2 has read it. -/
def returnRead : Console :=
  ((((lserIrq (((((configLser 0).configCon 1).callRead 2 8).readAcquired 2).arrive 13)).gotRsem 2).took
    2).readReleased 2)

theorem returnRead_slow : Relation.ReflTransGen SlowStep (configLser 0) returnRead := by
  have hcon : Relation.ReflTransGen SlowStep (configLser 0) ((configLser 0).configCon 1) :=
    .single ⟨.configCon 1 rfl rfl, .inl rfl⟩
  have hcall := hcon.tail ⟨.callRead 2 8 rfl (by decide), .inl rfl⟩
  have hlock := hcall.tail ⟨.readAcquire 2 (by decide) rfl, .inl rfl⟩
  have harrive := hlock.tail ⟨.arrive 13, .inr ⟨rfl, rfl⟩⟩
  have hirq := harrive.tail ⟨.irq, .inl rfl⟩
  have hrsem := hirq.tail ⟨.rsem 2 (by decide) (by decide) (by decide), .inl rfl⟩
  have htake := hrsem.tail ⟨.take 2 (by decide), .inl rfl⟩
  exact htake.tail ⟨.readRelease 2 (by decide), .inl rfl⟩

theorem returnRead_runs : Runs (configLser 0) returnRead :=
  returnRead_slow.lift id fun _ _ hstep => hstep.1

/-- Interrupts hand on what is typed in its order, though they may miss some of it, and a `getch`
returns only what was typed: the `k`-th call that returns does so with the character of the `k`-th
interrupt or of a later one. -/
theorem getch_in_order {regChar : Byte} (hrun : Runs (configLser regChar) s) :
    s.inputs.Sublist s.typed ∧ s.gotten.length + s.csRsem ≤ s.inputs.length ∧
    ∀ (k : Nat) ch, s.gotten[k]? = some ch → ∃ j, k ≤ j ∧ s.inputs[j]? = some ch := by
  obtain ⟨waiting, hinput⟩ := hrun.input
  have hcount := hinput.count
  exact ⟨(List.sublist_append_left _ _).trans hinput.typed, by omega, hinput.late⟩

theorem getch_in_order_return :
    returnRead.gotten = [13] ∧ returnRead.inputs.Sublist returnRead.typed ∧
    returnRead.gotten.length + returnRead.csRsem ≤ returnRead.inputs.length ∧
    ∀ (k : Nat) ch, returnRead.gotten[k]? = some ch →
      ∃ j, k ≤ j ∧ returnRead.inputs[j]? = some ch :=
  ⟨by decide, getch_in_order returnRead_runs⟩

/-! Typing that is slow enough. -/

/-- At most one character has not been returned yet. -/
structure Slow (s : Console) : Prop where
  console : s.rirqActive = true → s.theConsole = true
  typed : s.inputs ++ s.arrived = s.typed
  gotten : s.gotten <+: s.inputs
  length : s.typed.length ≤ s.gotten.length + 1

/-- A step in which nothing is typed and no `getch` returns. -/
theorem Slow.same (h : Slow s) (hrirq : s'.rirqActive = s.rirqActive)
    (hcon : s.theConsole = true → s'.theConsole = true) (htyped : s'.typed = s.typed)
    (hinputs : s'.inputs = s.inputs) (harrived : s'.arrived = s.arrived)
    (hgotten : s'.gotten = s.gotten) : Slow s' := by
  refine ⟨fun hactive => hcon (h.console (hrirq.symm.trans hactive)), ?_, ?_, ?_⟩
  · rw [hinputs, harrived, htyped]
    exact h.typed
  · rw [hgotten, hinputs]
    exact h.gotten
  · rw [hgotten, htyped]
    exact h.length

theorem Slow.irq (h : Slow s) : Slow (lserIrq s) := by
  have htyped := h.typed
  rw [lserIrq_eq]
  cases hactive : s.rirqActive with
  | false =>
      rw [Console.arrived, hactive] at htyped
      exact ⟨fun hnot => (by cases hnot), htyped, h.gotten, h.length⟩
  | true =>
      rw [Console.arrived, hactive, if_pos rfl] at htyped
      rw [h.console hactive]
      refine ⟨fun _ => rfl, ?_, h.gotten.trans (List.prefix_append _ _), h.length⟩
      show s.inputs ++ [s.regChar] ++ [] = s.typed
      rw [List.append_nil, htyped]

theorem Slow.arrive (h : Slow s) (hinput : Input s waiting) (hcon : s.theConsole = true)
    (hall : s.gotten.length = s.typed.length) : Slow (s.arrive ch) := by
  have htyped := h.typed
  have hcount := hinput.count
  have hlength := congrArg List.length htyped
  rw [List.length_append] at hlength
  have hnone : s.arrived = [] := List.eq_nil_of_length_eq_zero (by omega)
  rw [hnone, List.append_nil] at htyped
  refine ⟨fun _ => hcon, ?_, h.gotten, ?_⟩
  · show s.inputs ++ [ch] = s.typed ++ [ch]
    rw [htyped]
  · show (s.typed ++ [ch]).length ≤ s.gotten.length + 1
    rw [List.length_append, List.length_singleton]
    omega

/-- The character that `getch` returns is the one that was typed last. -/
theorem Slow.took (h : Slow s) (hinput : Input s waiting) (hat : (s.reader t).point = .got)
    (hrirq : s'.rirqActive = s.rirqActive) (hcon : s'.theConsole = s.theConsole)
    (htyped : s'.typed = s.typed) (hinputs : s'.inputs = s.inputs) (harrived : s'.arrived = s.arrived)
    (hgotten : s'.gotten = s.gotten ++ [s.csGotchar]) : Slow s' := by
  have hcount := hinput.count
  have hpos := List.length_pos_of_mem ((hinput.members t).mpr hat)
  have hlength := congrArg List.length h.typed
  rw [List.length_append] at hlength
  have hbound := h.length
  have hlast := hinput.gotchar (List.ne_nil_of_length_pos (by omega))
  obtain ⟨rest, hrest⟩ := h.gotten
  have hone : rest.length = 1 := by
    have := congrArg List.length hrest
    rw [List.length_append] at this
    omega
  obtain ⟨ch, rfl⟩ := List.length_eq_one_iff.mp hone
  rw [← hrest, List.getLast?_concat] at hlast
  obtain rfl := Option.some.inj hlast
  refine ⟨fun hactive => hcon.trans (h.console (hrirq.symm.trans hactive)), ?_, ?_, ?_⟩
  · rw [hinputs, harrived, htyped]
    exact h.typed
  · rw [hgotten, hinputs, hrest]
  · rw [hgotten, htyped, List.length_append]
    omega

theorem SlowStep.slow (hstep : SlowStep s s') (hturn : Turn s) (hinput : Input s waiting)
    (h : Slow s) : Slow s' := by
  obtain ⟨hstep, hslow⟩ := hstep
  cases hstep with
  | putchDelayed ch s' hboot hdone =>
      obtain rfl := putchDelayed_eq hdone
      exact h.same rfl id rfl rfl rfl rfl
  | configCon t hboot hat => exact h.same rfl (fun _ => rfl) rfl rfl rfl rfl
  | putchPolled ch s' hcon hdone =>
      rw [lserWritepolled_eq hturn.card] at hdone
      cases hdone
      exact h.same rfl id rfl rfl rfl rfl
  | irq => exact h.irq
  | arrive ch =>
      obtain hsame | ⟨hcon, hall⟩ := hslow
      · exact absurd hsame (by simp [Console.arrive])
      · exact h.arrive hinput hcon hall
  | send t ch more s' hat htodo hdone =>
      obtain ⟨_, _, hidle, _⟩ := hturn.sending hat
      rw [lserWrite_eq hidle] at hdone
      cases hdone
      exact h.same rfl id rfl rfl rfl rfl
  | take t hat => exact h.took hinput hat rfl rfl rfl rfl rfl rfl
  | takeFault t hat hio => exact h.took hinput hat rfl rfl rfl rfl rfl rfl
  | _ => exact h.same rfl id rfl rfl rfl rfl

/-- Typing that waits for the readers is read as it was typed. -/
theorem slow_typing_is_read {regChar : Byte}
    (hrun : Relation.ReflTransGen SlowStep (configLser regChar) s) :
    s.gotten <+: s.typed ∧ s.typed.length ≤ s.gotten.length + 1 := by
  have hslow := (invariant_of_steps
    (fun s => Turn s ∧ (∃ waiting, Input s waiting) ∧ Slow s) hrun ?_ ?_).2.2
  · refine ⟨hslow.gotten.trans ?_, hslow.length⟩
    rw [← hslow.typed]
    exact List.prefix_append _ _
  · exact ⟨(configLser_ordered regChar).turn, ⟨[], configLser_input regChar⟩,
      ⟨fun hactive => (by cases hactive), rfl, List.prefix_rfl, Nat.zero_le _⟩⟩
  · rintro before next ⟨hturn, ⟨waiting, hinput⟩, hslow⟩ hstep
    exact ⟨hstep.1.turn hturn, hstep.1.input hturn hinput, hstep.slow hturn hinput hslow⟩

theorem slow_typing_is_read_return :
    returnRead.typed = [13] ∧ returnRead.gotten <+: returnRead.typed ∧
    returnRead.typed.length ≤ returnRead.gotten.length + 1 :=
  ⟨by decide, slow_typing_is_read returnRead_slow⟩

/-! The reads of `con_io`. -/

def ReadPoint.Inside : ReadPoint → Prop
  | .outside => False
  | .locking => False
  | _ => True

/-- A read ends with the line, or sooner. -/
structure Reader.Ok (r : Reader) : Prop where
  length : r.moved.length + r.resid = r.asked
  line : 10 ∉ r.moved.dropLast
  unended : r.point ≠ .releasing → r.point ≠ .outside → 10 ∉ r.moved
  more : r.point = .got → 0 < r.resid
  locking : r.point = .locking → r.conIo = true ∧ r.moved = []
  bare : r.point = .getting → r.conIo = false → 0 < r.resid
  releasing : r.point = .releasing → r.conIo = true

def Console.Reads (s : Console) (t : Tid) : Prop :=
  (s.reader t).conIo = true ∧ (s.reader t).point.Inside

/-- The reads of `con_io` come one after the other. -/
structure ReadsOk (s : Console) : Prop where
  ok : ∀ t, (s.reader t).Ok
  owned : OneByOne s.readLock s.Reads (fun t => (s.reader t).moved) (s.reads.flatMap Reader.moved)
    s.delivered
  delivered : s.delivered.Sublist (s.gotten.map Console.newline)
  lines : ∀ r ∈ s.reads, 10 ∉ r.moved.dropLast ∧ r.moved.length ≤ r.asked

theorem reader_ok_update {reader : Tid → Reader} (hok : ∀ t, (reader t).Ok) (hr : r.Ok) :
    ∀ u, (Function.update reader t r u).Ok := by
  intro u
  by_cases hu : u = t
  · rw [hu, Function.update_self]
    exact hr
  · rw [Function.update_of_ne hu]
    exact hok u

theorem reader_apart (hreader : s'.reader = Function.update s.reader t r) :
    Apart t s.Reads s'.Reads (fun t => (s.reader t).moved) fun t => (s'.reader t).moved := by
  intro u hu
  have hsame : s'.reader u = s.reader u := by rw [hreader, Function.update_of_ne hu]
  show ((s'.reader u).conIo = true ∧ _ ↔ _) ∧ (s'.reader u).moved = (s.reader u).moved
  rw [hsame]
  exact ⟨Iff.rfl, rfl⟩

theorem reads_update (hreader : s'.reader = Function.update s.reader t r) :
    s'.Reads t ↔ r.conIo = true ∧ r.point.Inside := by
  rw [Console.Reads, hreader, Function.update_self]

theorem ReadsOk.same (h : ReadsOk s) (hreader : s'.reader = s.reader)
    (hlock : s'.readLock = s.readLock) (hreads : s'.reads = s.reads)
    (hdelivered : s'.delivered = s.delivered) (hgotten : s'.gotten = s.gotten) : ReadsOk s' := by
  have hin : s'.Reads = s.Reads := by
    funext t
    rw [Console.Reads, hreader, Console.Reads]
  refine ⟨?_, ?_, ?_, ?_⟩
  · rw [hreader]
    exact h.ok
  · rw [hlock, hin, hreader, hreads, hdelivered]
    exact h.owned
  · rw [hdelivered, hgotten]
    exact h.delivered
  · rw [hreads]
    exact h.lines

theorem ReadsOk.called (h : ReadsOk s) (hat : (s.reader t).point = .outside) (hr : r.Ok)
    (hout : ¬ (r.conIo = true ∧ r.point.Inside)) : ReadsOk (s.setReader t r) := by
  have hreader : (s.setReader t r).reader = Function.update s.reader t r := rfl
  refine ⟨reader_ok_update h.ok hr, ?_, h.delivered, h.lines⟩
  refine h.owned.other (reader_apart hreader) ?_ fun hin => hout ((reads_update hreader).mp hin)
  rw [Console.Reads, hat]
  exact fun hin => hin.2

theorem ReadsOk.acquired (h : ReadsOk s) (hat : (s.reader t).point = .locking)
    (hfree : s.readLock = none) : ReadsOk (s.readAcquired t) := by
  have hok := h.ok t
  obtain ⟨hio, hmoved⟩ := hok.locking hat
  have hreader : (s.readAcquired t).reader =
    Function.update s.reader t { s.reader t with point := .getting } := rfl
  have howned := h.owned
  rw [hfree] at howned
  refine ⟨reader_ok_update h.ok ⟨hok.length, hok.line, fun _ _ => hok.unended (by simp [hat])
    (by simp [hat]), (by cases ·), (by cases ·),
      fun _ hnot => absurd (hio.symm.trans hnot) (by decide), (by cases ·)⟩, ?_, h.delivered, h.lines⟩
  refine howned.enter (reader_apart hreader) ((reads_update hreader).mpr ⟨hio, trivial⟩) ?_
  show ((s.readAcquired t).reader t).moved = []
  rw [hreader, Function.update_self]
  exact hmoved

/-- A reader that is past its lock, or has none, goes on without a character for its uio. -/
theorem ReadsOk.goAt (h : ReadsOk s) (p : ReadPoint) (hin : (s.reader t).point.Inside)
    (hok : { s.reader t with point := p }.Ok)
    (hp : (s.reader t).conIo = true → p.Inside)
    (hreader : s'.reader = Function.update s.reader t { s.reader t with point := p })
    (hlock : s'.readLock = s.readLock) (hreads : s'.reads = s.reads)
    (hdelivered : s'.delivered = s.delivered) (hgotten : s.gotten <+: s'.gotten) : ReadsOk s' := by
  refine ⟨?_, ?_, ?_, ?_⟩
  · rw [hreader]
    exact reader_ok_update h.ok hok
  · rw [hlock, hreads, hdelivered]
    by_cases hio : (s.reader t).conIo = true
    · refine h.owned.stay (reader_apart hreader) ⟨hio, hin⟩
        ((reads_update hreader).mpr ⟨hio, hp hio⟩) ?_
      rw [hreader, Function.update_self]
    · exact h.owned.other (reader_apart hreader) (fun hbefore => hio hbefore.1)
        fun hafter => hio ((reads_update hreader).mp hafter).1
  · rw [hdelivered]
    exact h.delivered.trans (hgotten.sublist.map _)
  · rw [hreads]
    exact h.lines

/-- A character goes into the uio. -/
theorem ReadsOk.delivers (h : ReadsOk s) (hat : (s.reader t).point = .got)
    (hio : (s.reader t).conIo = true) : ReadsOk (s.took t) := by
  have hok := h.ok t
  have hmore := hok.more hat
  have hlength := hok.length
  have hunended := hok.unended (by simp [hat]) (by simp [hat])
  have hreader : (s.took t).reader = Function.update s.reader t { s.reader t with
      point := if Console.newline s.csGotchar = 10 then .releasing else .getting
      resid := (s.reader t).resid - 1
      moved := (s.reader t).moved ++ [Console.newline s.csGotchar] } := by
    show Function.update s.reader t (if (s.reader t).conIo = true then _ else _) = _
    rw [if_pos hio]
  have hdelivered : (s.took t).delivered = s.delivered ++ [Console.newline s.csGotchar] := by
    show s.delivered ++ (if (s.reader t).conIo = true then _ else _) = _
    rw [if_pos hio]
  refine ⟨?_, ?_, ?_, h.lines⟩
  · rw [hreader]
    refine reader_ok_update h.ok ⟨?_, ?_, ?_, ?_, ?_, ?_, fun _ => hio⟩
    · show ((s.reader t).moved ++ [_]).length + ((s.reader t).resid - 1) = (s.reader t).asked
      rw [List.length_append, List.length_singleton]
      omega
    · show 10 ∉ ((s.reader t).moved ++ [_]).dropLast
      rw [List.dropLast_concat]
      exact hunended
    · show (if Console.newline s.csGotchar = 10 then ReadPoint.releasing else .getting) ≠ _ → _ →
        10 ∉ (s.reader t).moved ++ [Console.newline s.csGotchar]
      split
      · exact fun hnot => absurd rfl hnot
      case isFalse hother =>
          intro _ _ hmem
          obtain hbefore | hlast := List.mem_append.mp hmem
          · exact hunended hbefore
          · exact hother (List.mem_singleton.mp hlast).symm
    · show (if Console.newline s.csGotchar = 10 then ReadPoint.releasing else .getting) = .got → _
      split
      · exact fun heq => (by cases heq)
      · exact fun heq => (by cases heq)
    · show (if Console.newline s.csGotchar = 10 then ReadPoint.releasing else .getting) = .locking → _
      split
      · exact fun heq => (by cases heq)
      · exact fun heq => (by cases heq)
    · exact fun _ hnot => absurd (hio.symm.trans hnot) (by decide)
  · rw [hdelivered]
    refine h.owned.own (reader_apart hreader) ⟨hio, ?_⟩ ((reads_update hreader).mpr ⟨hio, ?_⟩) ?_
    · rw [hat]
      trivial
    · show (if Console.newline s.csGotchar = 10 then ReadPoint.releasing else .getting).Inside
      split
      · trivial
      · trivial
    · rw [hreader, Function.update_self]
  · rw [hdelivered]
    show (s.delivered ++ _).Sublist ((s.gotten ++ [s.csGotchar]).map Console.newline)
    rw [List.map_append]
    exact h.delivered.append (.refl _)

theorem ReadsOk.released (h : ReadsOk s) (hat : (s.reader t).point = .releasing) :
    ReadsOk (s.readReleased t) := by
  have hok := h.ok t
  have hreader : (s.readReleased t).reader =
    Function.update s.reader t { s.reader t with point := .outside } := rfl
  refine ⟨?_, ?_, h.delivered, ?_⟩
  · refine reader_ok_update h.ok ⟨hok.length, hok.line, fun _ hnot => absurd rfl hnot, ?_, ?_, ?_, ?_⟩
    · exact fun heq => (by cases heq)
    · exact fun heq => (by cases heq)
    · exact fun heq => (by cases heq)
    · exact fun heq => (by cases heq)
  · show OneByOne none _ _ ((s.reads ++ [s.reader t]).flatMap Reader.moved) s.delivered
    rw [List.flatMap_append, List.flatMap_cons, List.flatMap_nil, List.append_nil]
    refine h.owned.leave (reader_apart hreader) ⟨hok.releasing hat, ?_⟩
      fun hin => ((reads_update hreader).mp hin).2
    rw [hat]
    trivial
  · intro r hr
    obtain hbefore | hlast := List.mem_append.mp hr
    · exact h.lines r hbefore
    · rw [List.mem_singleton.mp hlast]
      have hlength := hok.length
      exact ⟨hok.line, by omega⟩

theorem Step.reads (hstep : Step s s') (hturn : Turn s) (h : ReadsOk s) : ReadsOk s' := by
  cases hstep with
  | putchDelayed ch s' hboot hdone =>
      obtain rfl := putchDelayed_eq hdone
      exact h.same rfl rfl rfl rfl rfl
  | putchPolled ch s' hcon hdone =>
      rw [lserWritepolled_eq hturn.card] at hdone
      cases hdone
      exact h.same rfl rfl rfl rfl rfl
  | irq =>
      rw [lserIrq_eq]
      exact h.same rfl rfl rfl rfl rfl
  | send t ch more s' hat htodo hdone =>
      obtain ⟨_, _, hidle, _⟩ := hturn.sending hat
      rw [lserWrite_eq hidle] at hdone
      cases hdone
      exact h.same rfl rfl rfl rfl rfl
  | callGetch t hcon hat =>
      refine h.called hat ⟨rfl, List.not_mem_nil, fun _ _ => List.not_mem_nil, ?_, ?_, ?_, ?_⟩ ?_
      · exact fun heq => (by cases heq)
      · exact fun heq => (by cases heq)
      · exact fun _ _ => Nat.one_pos
      · exact fun heq => (by cases heq)
      · exact fun hin => (by cases hin.1)
  | callRead t resid hcon hat =>
      refine h.called hat ⟨?_, List.not_mem_nil, fun _ _ => List.not_mem_nil, ?_, ?_, ?_, ?_⟩ ?_
      · exact Nat.zero_add resid
      · exact fun heq => (by cases heq)
      · exact fun _ => ⟨rfl, rfl⟩
      · exact fun heq => (by cases heq)
      · exact fun _ => rfl
      · exact fun hin => hin.2
  | readAcquire t hat hfree => exact h.acquired hat hfree
  | rsem t hat hmore hP =>
      have hok := h.ok t
      refine h.goAt .got ?_ ⟨hok.length, hok.line, ?_, fun _ => hmore, ?_, ?_, ?_⟩ (fun _ => trivial)
        rfl rfl rfl rfl List.prefix_rfl
      · rw [hat]
        trivial
      · exact fun _ _ => hok.unended (by simp [hat]) (by simp [hat])
      · exact fun heq => (by cases heq)
      · exact fun heq => (by cases heq)
      · exact fun heq => (by cases heq)
  | take t hat =>
      cases hio : (s.reader t).conIo with
      | true => exact h.delivers hat hio
      | false =>
          have hok := h.ok t
          refine h.goAt .outside ?_ ⟨hok.length, hok.line, ?_, ?_, ?_, ?_, ?_⟩ ?_ ?_ rfl rfl ?_
            (List.prefix_append _ _)
          · rw [hat]
            trivial
          · exact fun _ hnot => absurd rfl hnot
          · exact fun heq => (by cases heq)
          · exact fun heq => (by cases heq)
          · exact fun heq => (by cases heq)
          · exact fun heq => (by cases heq)
          · exact fun heq => absurd (hio.symm.trans heq) (by decide)
          · show Function.update s.reader t (if (s.reader t).conIo = true then _ else _) = _
            rw [if_neg (by simp [hio])]
          · show s.delivered ++ (if (s.reader t).conIo = true then _ else _) = _
            rw [if_neg (by simp [hio]), List.append_nil]
  | takeFault t hat hio =>
      have hok := h.ok t
      refine h.goAt .releasing ?_ ⟨hok.length, hok.line, fun hnot => absurd rfl hnot, ?_, ?_, ?_,
        fun _ => hio⟩ (fun _ => trivial) rfl rfl rfl rfl (List.prefix_append _ _)
      · rw [hat]
        trivial
      · exact fun heq => (by cases heq)
      · exact fun heq => (by cases heq)
      · exact fun heq => (by cases heq)
  | readLeave t hat hall =>
      have hok := h.ok t
      refine h.goAt .releasing ?_ ⟨hok.length, hok.line, fun hnot => absurd rfl hnot, ?_, ?_, ?_, ?_⟩
        (fun _ => trivial) rfl rfl rfl rfl List.prefix_rfl
      · rw [hat]
        trivial
      · exact fun heq => (by cases heq)
      · exact fun heq => (by cases heq)
      · exact fun heq => (by cases heq)
      · intro _
        by_contra hnot
        exact absurd (hok.bare hat (by simpa using hnot)) (by omega)
  | readRelease t hat => exact h.released hat
  | _ => exact h.same rfl rfl rfl rfl rfl

theorem configLser_reads (regChar : Byte) : ReadsOk (configLser regChar) where
  ok _ := ⟨rfl, List.not_mem_nil, fun _ _ => List.not_mem_nil, fun _ => (by contradiction),
    fun _ => (by contradiction), fun _ => (by contradiction), fun _ => (by contradiction)⟩
  owned := ⟨fun _ hin => hin.2.elim, fun _ hholder => absurd hholder (by simp [configLser]), rfl⟩
  delivered := .refl []
  lines _ hr := absurd hr List.not_mem_nil

/-- Reads of `con_io` do not share a line that is being read: at most one is past its lock, and
what they got, one after the other, is what `getch` returned to them, with newlines for carriage
returns.  No read goes on behind the end of a line, or gets more than it asked for. -/
theorem reads_are_lines {regChar : Byte} (hrun : Runs (configLser regChar) s) :
    (∀ t u, s.Reads t → s.Reads u → t = u) ∧
    s.reads.flatMap Reader.moved ++ s.readLock.elim [] (fun t => (s.reader t).moved) =
      s.delivered ∧
    s.delivered.Sublist (s.gotten.map Console.newline) ∧
    ∀ r ∈ s.reads, 10 ∉ r.moved.dropLast ∧ r.moved.length ≤ r.asked := by
  have hreads := (invariant_of_steps (fun s => Turn s ∧ ReadsOk s) hrun
    ⟨(configLser_ordered regChar).turn, configLser_reads regChar⟩
    fun _ _ h hstep => ⟨hstep.turn h.1, hstep.reads h.1 h.2⟩).2
  exact ⟨fun t u ht hu => hreads.owned.eq_of_inside ht hu, hreads.owned.log, hreads.delivered,
    hreads.lines⟩

theorem reads_are_lines_return :
    returnRead.reads.map Reader.moved = [[10]] ∧
    (∀ t u, returnRead.Reads t → returnRead.Reads u → t = u) ∧
    returnRead.reads.flatMap Reader.moved ++
      returnRead.readLock.elim [] (fun t => (returnRead.reader t).moved) = returnRead.delivered ∧
    returnRead.delivered.Sublist (returnRead.gotten.map Console.newline) ∧
    ∀ r ∈ returnRead.reads, 10 ∉ r.moved.dropLast ∧ r.moved.length ≤ r.asked :=
  ⟨by decide, reads_are_lines returnRead_runs⟩

end OS161.Dev.Con
