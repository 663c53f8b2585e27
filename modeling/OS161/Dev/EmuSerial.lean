import OS161.Dev.Emu

namespace OS161.Dev.Emu

open OS161.Data
open OS161.Kern
open OS161.Vfs

/-! What the callers of the card see of it: for each call the requests that it makes and what it
hears, and all calls as if they were made one after the other. -/

section

variable {Host : Type} (serve : Request → Host → Reply × Host)

/-- Requests served one after the other. -/
inductive Exchanges : Host → List (Request × Reply) → Host → Prop
  | nil (h : Host) : Exchanges h [] h
  | cons (hserve : serve r h = (p, mid)) (hrest : Exchanges mid xs h') :
      Exchanges h ((r, p) :: xs) h'

/-- `uiomove` comes back, with or without an error. -/
def Moves (ptr : List Byte) (n : Nat) (uio : Uio) (result : Option Errno) (uio' : Uio) : Prop :=
  (∃ bytes, Uio.uiomove ptr n uio = .ok bytes uio' ∧ result = none) ∨
    ∃ err, Uio.uiomove ptr n uio = .error err uio' ∧ result = some err

namespace Call

/-- The request is the caller's own. -/
def Asks : Call → Request → Prop
  | .openName handle name create excl, r =>
      r.oper = openOper create excl ∧ r.handle = handle ∧ r.iolen = name.val.length ∧
        r.iobuf.slice 0 (name.val.length + 1) = name.val ++ [0]
  | .close handle, r => r.oper = EMU_OP_CLOSE ∧ r.handle = handle
  | .read handle len uio, r =>
      r.oper = EMU_OP_READ ∧ r.handle = handle ∧ r.iolen = len ∧ r.offset = uio.val.uioOffset
  | .readdir handle len uio, r =>
      r.oper = EMU_OP_READDIR ∧ r.handle = handle ∧ r.iolen = len ∧ r.offset = uio.val.uioOffset
  | .write handle len uio, r =>
      r.oper = EMU_OP_WRITE ∧ r.handle = handle ∧ r.iolen = len ∧
        r.offset = uio.val.uioOffset ∧ ∃ ptr bytes uio',
          Uio.uiomove ptr len uio.val = .ok bytes uio' ∧ r.iobuf.slice 0 bytes.length = bytes
  | .getsize handle, r => r.oper = EMU_OP_GETSIZE ∧ r.handle = handle
  | .trunc handle len, r => r.oper = EMU_OP_TRUNC ∧ r.handle = handle ∧ r.iolen = u32 len

/-- What a read makes of the card's reply. -/
def HearsRead (uio : Uio) (p : Reply) (answer : Answer) : Prop :=
  (∃ err, translateErr p.result = some (some err) ∧ answer = .moved (some err) uio) ∨
    translateErr p.result = some none ∧ ∃ result uio',
      Moves (p.iobuf.slice 0 p.iolen) p.iolen uio result uio' ∧
        answer = .moved result { uio' with uioOffset := p.offset }

/-- What the caller is told follows from the replies to its own requests. -/
def Hears : Call → List Reply → Answer → Prop
  | .openName _ _ _ _, [p], answer => ∃ result, translateErr p.result = some result ∧
      answer = .opened result
        (if result = none then some (p.handle, decide (p.iolen > 0)) else none)
  | .close _, ps, answer => ∃ failed p result, ps = failed ++ [p] ∧ failed.length ≤ 10 ∧
      (∀ q ∈ failed, translateErr q.result = some (some .EIOERR)) ∧
      translateErr p.result = some result ∧
      (result = some .EIOERR → failed.length = 10) ∧ answer = .result result
  | .read _ _ uio, [p], answer => HearsRead uio p answer
  | .readdir _ _ uio, [p], answer => HearsRead uio p answer
  | .write _ len uio, [p], answer => ∃ ptr bytes uio' result,
      Uio.uiomove ptr len uio.val = .ok bytes uio' ∧ translateErr p.result = some result ∧
        answer = .moved result uio'
  | .write _ len uio, [], answer => ∃ ptr err uio',
      Uio.uiomove ptr len uio.val = .error err uio' ∧ answer = .moved (some err) uio'
  | .getsize _, [p], answer => ∃ result, translateErr p.result = some result ∧
      answer = .size result (if result = none then some p.iolen else none)
  | .trunc _ _, [p], answer => ∃ result, translateErr p.result = some result ∧
      answer = .result result
  | _, _, _ => False

/-- A call by itself. -/
def Does (call : Call) (h : Host) (answer : Answer) (h' : Host) : Prop :=
  ∃ xs, Exchanges serve h xs h' ∧ (∀ x ∈ xs, call.Asks x.1) ∧
    call.Hears (xs.map Prod.snd) answer

end Call

/-- The calls of a log, one after the other. -/
inductive History {T : Type} : Host → List (T × Call × Answer) → Host → Prop
  | nil (h : Host) : History h [] h
  | call (hlog : History h log mid) (hdoes : call.Does serve mid answer h') :
      History h (log ++ [(t, call, answer)]) h'

/-! Each call, run by itself. -/

variable {s s' : EmuSoftc Host} {answer : Answer}

namespace EmuSoftc

/-- After an operation and its `P`. -/
def answered (s : EmuSoftc Host) (reply : Reply) (host : Host) : EmuSoftc Host where
  regHandle := reply.handle
  regOffset := reply.offset
  regIolen := reply.iolen
  regResult := 0
  eIobuf := reply.iobuf
  oper := none
  irq := false
  eSem := s.eSem
  eResult := reply.result
  host := host

end EmuSoftc

theorem exec_operate (op : Nat) (next : Option Errno → Code Host)
    (hserve : serve (s.request op) s.host = (reply, host)) :
    (operate op next).exec (card serve) s =
      match translateErr reply.result with
      | some result => (next result).exec (card serve) (s.answered reply host)
      | none => none := by
  have hready : 0 < s.eSem + 1 := by omega
  have hrequest : ({ s with oper := some op } : EmuSoftc Host).request op = s.request op := rfl
  simp only [operate, Section.exec, card, EmuSoftc.settle, EmuSoftc.complete, EmuSoftc.emuIrq,
    hrequest, hserve, hready, decide_true, if_true, Nat.add_sub_cancel]
  cases translateErr reply.result with
  | none => rfl
  | some result => rfl

/-- An operation that comes back has been served. -/
theorem of_operate {next : Option Errno → Code Host}
    (hexec : (operate op next).exec (card serve) s = some (answer, s')) :
    ∃ reply host result, serve (s.request op) s.host = (reply, host) ∧
      translateErr reply.result = some result ∧
      (next result).exec (card serve) (s.answered reply host) = some (answer, s') := by
  rw [exec_operate serve op next rfl] at hexec
  split at hexec
  case h_1 result hcode => exact ⟨_, _, result, rfl, hcode, hexec⟩
  case h_2 => cases hexec

theorem Exchanges.one {r : Request} {p : Reply} {h h' : Host} (hserve : serve r h = (p, h')) :
    Exchanges serve h [(r, p)] h' :=
  .cons hserve (.nil h')

theorem does_one {call : Call} {r : Request} {p : Reply} {h h' : Host}
    (hserve : serve r h = (p, h')) (hasks : call.Asks r) (hhears : call.Hears [p] answer) :
    call.Does serve h answer h' := by
  refine ⟨_, .one serve hserve, ?_, hhears⟩
  intro x hx
  rw [List.mem_singleton.mp hx]
  exact hasks

theorem emuOpen_does (handle : Nat) (name : Name) (create excl : Bool)
    (hexec : (emuOpen handle name create excl).exec (card serve) s = some (answer, s')) :
    (Call.openName handle name create excl).Does serve s.host answer s'.host := by
  obtain ⟨reply, host, result, hserve, hcode, hrest⟩ := of_operate serve hexec
  have hname := Bytes.slice_splice s.eIobuf 0 (name.val ++ [0])
  rw [List.length_append, List.length_singleton] at hname
  by_cases hresult : result = none
  · rw [if_pos hresult] at hrest
    cases hrest
    refine does_one serve hserve ⟨rfl, rfl, rfl, hname⟩ ⟨result, hcode, ?_⟩
    rw [if_pos hresult, hresult]
    rfl
  · rw [if_neg hresult] at hrest
    cases hrest
    exact does_one serve hserve ⟨rfl, rfl, rfl, hname⟩ ⟨result, hcode, by rw [if_neg hresult]⟩

theorem closeLoop_does (handle retries : Nat)
    (hexec : (closeLoop handle retries).exec (card serve) s = some (answer, s')) :
    ∃ xs, Exchanges serve s.host xs s'.host ∧ (∀ x ∈ xs, (Call.close handle).Asks x.1) ∧
      ∃ failed p result, xs.map Prod.snd = failed ++ [p] ∧ failed.length ≤ retries ∧
        (∀ q ∈ failed, translateErr q.result = some (some .EIOERR)) ∧
        translateErr p.result = some result ∧
        (result = some .EIOERR → failed.length = retries) ∧ answer = .result result := by
  induction retries generalizing s with
  | zero =>
      obtain ⟨reply, host, result, hserve, hcode, hrest⟩ := of_operate serve hexec
      cases hrest
      refine ⟨_, .one serve hserve, ?_, [], reply, result, rfl, Nat.le_refl 0, ?_, hcode,
        fun _ => rfl, rfl⟩
      · intro x hx
        rw [List.mem_singleton.mp hx]
        exact ⟨rfl, rfl⟩
      · intro q hq
        cases hq
  | succ retries ih =>
      obtain ⟨reply, host, result, hserve, hcode, hrest⟩ := of_operate serve hexec
      by_cases hresult : result = some .EIOERR
      · rw [if_pos hresult] at hrest
        obtain ⟨xs, hxs, hasks, failed, p, last, hreplies, hlength, hfailed, hlast, hall, rfl⟩ :=
          ih hrest
        refine ⟨_, .cons hserve hxs, ?_, reply :: failed, p, last, ?_, ?_, ?_, hlast, ?_, rfl⟩
        · intro x hx
          rcases List.mem_cons.mp hx with rfl | hx
          · exact ⟨rfl, rfl⟩
          · exact hasks x hx
        · rw [List.map_cons, hreplies]
          rfl
        · exact Nat.succ_le_succ hlength
        · intro q hq
          rcases List.mem_cons.mp hq with rfl | hq
          · rw [hcode, hresult]
          · exact hfailed q hq
        · intro hio
          rw [List.length_cons, hall hio]
      · rw [if_neg hresult] at hrest
        cases hrest
        refine ⟨_, .one serve hserve, ?_, [], reply, result, rfl, Nat.zero_le _, ?_, hcode,
          fun hio => absurd hio hresult, rfl⟩
        · intro x hx
          rw [List.mem_singleton.mp hx]
          exact ⟨rfl, rfl⟩
        · intro q hq
          cases hq

/-- `uiomove` inside a call. -/
theorem of_uiomove {next : Option Errno → List Byte → Uio → Code Host}
    (hexec : (uiomove ptr n uio next).exec (card serve) s = some (answer, s')) :
    (∃ bytes uio', Uio.uiomove ptr n uio = .ok bytes uio' ∧
        (next none bytes uio').exec (card serve) s = some (answer, s')) ∨
      ∃ err bytes uio', Uio.uiomove ptr n uio = .error err uio' ∧
        (next (some err) bytes uio').exec (card serve) s = some (answer, s') := by
  simp only [uiomove] at hexec
  split at hexec
  case h_1 bytes uio' hmove => exact .inl ⟨bytes, uio', hmove, hexec⟩
  case h_2 err uio' hmove => exact .inr ⟨err, _, uio', hmove, hexec⟩
  case h_3 => cases hexec

theorem emuDoread_hears (handle len op : Nat) (uio : Uio)
    (hexec : (emuDoread handle len op uio).exec (card serve) s = some (answer, s')) :
    ∃ r p, serve r s.host = (p, s'.host) ∧
      (r.oper = op ∧ r.handle = handle ∧ r.iolen = len ∧ r.offset = uio.uioOffset) ∧
      Call.HearsRead uio p answer := by
  obtain ⟨reply, host, result, hserve, hcode, hrest⟩ := of_operate serve hexec
  by_cases hresult : result = none
  · rw [if_pos hresult] at hrest
    rcases of_uiomove serve hrest with ⟨bytes, uio', hmove, hdone⟩ | ⟨err, bytes, uio', hmove, hdone⟩
    · cases hdone
      refine ⟨_, reply, hserve, ⟨rfl, rfl, rfl, rfl⟩, .inr ⟨hresult ▸ hcode, none, uio', ?_, rfl⟩⟩
      exact .inl ⟨bytes, hmove, rfl⟩
    · cases hdone
      refine ⟨_, reply, hserve, ⟨rfl, rfl, rfl, rfl⟩,
        .inr ⟨hresult ▸ hcode, some err, uio', ?_, rfl⟩⟩
      exact .inr ⟨err, hmove, rfl⟩
  · rw [if_neg hresult] at hrest
    cases hrest
    obtain ⟨err, rfl⟩ := Option.ne_none_iff_exists'.mp hresult
    exact ⟨_, reply, hserve, ⟨rfl, rfl, rfl, rfl⟩, .inl ⟨err, hcode, rfl⟩⟩

theorem emuWrite_does (handle len : Nat) (uio : UioOf .UIO_WRITE)
    (hexec : (emuWrite handle len uio).exec (card serve) s = some (answer, s')) :
    (Call.write handle len uio).Does serve s.host answer s'.host := by
  rcases of_uiomove serve hexec with ⟨bytes, uio', hmove, hrest⟩ | ⟨err, bytes, uio', hmove, hrest⟩
  · obtain ⟨reply, host, result, hserve, hcode, hdone⟩ := of_operate serve hrest
    cases hdone
    refine does_one serve hserve ⟨rfl, rfl, rfl, rfl, _, bytes, uio', hmove, ?_⟩
      ⟨_, bytes, uio', result, hmove, hcode, rfl⟩
    exact Bytes.slice_splice _ 0 bytes
  · cases hrest
    refine ⟨[], .nil _, ?_, _, err, uio', hmove, rfl⟩
    intro x hx
    cases hx

theorem emuGetsize_does (handle : Nat)
    (hexec : (emuGetsize handle).exec (card serve) s = some (answer, s')) :
    (Call.getsize handle).Does serve s.host answer s'.host := by
  obtain ⟨reply, host, result, hserve, hcode, hrest⟩ := of_operate serve hexec
  by_cases hresult : result = none
  · rw [if_pos hresult] at hrest
    cases hrest
    refine does_one serve hserve ⟨rfl, rfl⟩ ⟨result, hcode, ?_⟩
    rw [if_pos hresult, hresult]
    rfl
  · rw [if_neg hresult] at hrest
    cases hrest
    exact does_one serve hserve ⟨rfl, rfl⟩ ⟨result, hcode, by rw [if_neg hresult]⟩

theorem emuTrunc_does (handle : Nat) (len : Int)
    (hexec : (emuTrunc handle len).exec (card serve) s = some (answer, s')) :
    (Call.trunc handle len).Does serve s.host answer s'.host := by
  obtain ⟨reply, host, result, hserve, hcode, hrest⟩ := of_operate serve hexec
  cases hrest
  exact does_one serve hserve ⟨rfl, rfl, rfl⟩ ⟨result, hcode, rfl⟩

theorem code_does (call : Call) (hexec : call.code.exec (card serve) s = some (answer, s')) :
    call.Does serve s.host answer s'.host := by
  cases call with
  | openName handle name create excl => exact emuOpen_does serve handle name create excl hexec
  | close handle => exact closeLoop_does serve handle 10 hexec
  | read handle len uio =>
      obtain ⟨r, p, hserve, hasks, hhears⟩ := emuDoread_hears serve handle len _ uio hexec
      exact does_one serve hserve hasks hhears
  | readdir handle len uio =>
      obtain ⟨r, p, hserve, hasks, hhears⟩ := emuDoread_hears serve handle len _ uio hexec
      exact does_one serve hserve hasks hhears
  | write handle len uio => exact emuWrite_does serve handle len uio hexec
  | getsize handle => exact emuGetsize_does serve handle hexec
  | trunc handle len => exact emuTrunc_does serve handle len hexec

/-! Every call leaves the card alone but where it starts an operation. -/

theorem calm_rreg (reg : EmuSoftc Host → Nat) {next : Nat → Code Host}
    (hnext : ∀ val, (next val).Calm (card serve)) : (rreg reg next).Calm (card serve) :=
  .act (fun _ hquiet => hquiet) fun _ => hnext _

theorem calm_operate (op : Nat) {next : Option Errno → Code Host}
    (hnext : ∀ result, (next result).Calm (card serve)) :
    (operate op next).Calm (card serve) := by
  refine .operate ?_ ?_
  · intro s hquiet
    simp only [card, EmuSoftc.Quiet, EmuSoftc.Sound, Option.toList_some,
      List.length_singleton] at hquiet ⊢
    omega
  · intro s
    split
    case h_1 result _ => exact hnext result
    case h_2 => exact .stop

theorem calm_uiomove (ptr : List Byte) (n : Nat) (uio : Uio)
    {next : Option Errno → List Byte → Uio → Code Host}
    (hnext : ∀ result bytes uio', (next result bytes uio').Calm (card serve)) :
    (uiomove ptr n uio next).Calm (card serve) := by
  simp only [uiomove]
  split
  case h_1 => exact hnext _ _ _
  case h_2 => exact hnext _ _ _
  case h_3 => exact .stop

theorem calm_write {write : EmuSoftc Host → EmuSoftc Host} {next : Code Host}
    (hwrite : ∀ s : EmuSoftc Host, s.Quiet → (write s).Quiet) (hnext : next.Calm (card serve)) :
    (Section.act write fun _ => next).Calm (card serve) :=
  .act hwrite fun _ => hnext

theorem calm_ite {first second : Code Host} (p : Prop) [Decidable p]
    (hfirst : first.Calm (card serve)) (hsecond : second.Calm (card serve)) :
    (if p then first else second).Calm (card serve) := by
  split
  case isTrue => exact hfirst
  case isFalse => exact hsecond

theorem calm_closeLoop (handle retries : Nat) : (closeLoop handle retries).Calm (card serve) := by
  induction retries with
  | zero => exact calm_write serve (fun _ h => h) (calm_operate serve _ fun _ => .done _)
  | succ retries ih =>
      exact calm_write serve (fun _ h => h)
        (calm_operate serve _ fun _ => calm_ite serve _ ih (.done _))

theorem calm_emuDoread (handle len op : Nat) (uio : Uio) :
    (emuDoread handle len op uio).Calm (card serve) := by
  refine calm_write serve (fun _ h => h) <| calm_write serve (fun _ h => h) <|
    calm_write serve (fun _ h => h) <| calm_operate serve _ fun _ => calm_ite serve _ ?_ (.done _)
  refine calm_rreg serve _ fun n => .act (fun _ h => h) fun _ => calm_uiomove serve _ _ _ ?_
  exact fun _ _ _ => calm_rreg serve _ fun _ => .done _

theorem calm_code (call : Call) : (call.code : Code Host).Calm (card serve) := by
  cases call with
  | openName handle name create excl =>
      refine calm_write serve (fun _ h => h) <| calm_write serve (fun _ h => h) <|
        calm_write serve (fun _ h => h) <| calm_operate serve _ fun _ => ?_
      exact calm_ite serve _ (calm_rreg serve _ fun _ => calm_rreg serve _ fun _ => .done _)
        (.done _)
  | close handle => exact calm_closeLoop serve handle 10
  | read handle len uio => exact calm_emuDoread serve handle len _ uio
  | readdir handle len uio => exact calm_emuDoread serve handle len _ uio
  | write handle len uio =>
      refine calm_write serve (fun _ h => h) <| calm_write serve (fun _ h => h) <|
        calm_write serve (fun _ h => h) <| .act (fun _ h => h) fun _ =>
          calm_uiomove serve _ _ _ fun _ _ _ => calm_write serve (fun _ h => h) ?_
      exact calm_ite serve _ (calm_operate serve _ fun _ => .done _) (.done _)
  | getsize handle =>
      refine calm_write serve (fun _ h => h) <| calm_operate serve _ fun _ => ?_
      exact calm_ite serve _ (calm_rreg serve _ fun _ => .done _) (.done _)
  | trunc handle len =>
      exact calm_write serve (fun _ h => h) <| calm_write serve (fun _ h => h) <|
        calm_operate serve _ fun _ => .done _

theorem History.of_replay {T : Type} {s s' : EmuSoftc Host} {log : List (T × Call × Answer)}
    (hreplay : Callers.Replay (card serve) Call.code s log s') :
    History serve s.host log s'.host := by
  induction hreplay with
  | nil => exact .nil _
  | call _ hexec ih => exact .call ih (code_does serve _ hexec)

end

/-- Any number of threads make any calls at once, with the card and its interrupts at any time.
The calls that have come back are a history of the host in which each was made by itself; the
card was asked for nothing else, when nobody is inside; and who is inside alone has the lock and
goes on, unless a fatal code stops the machine. -/
theorem emu_serial {T Host : Type} [DecidableEq T] (serve : Request → Host → Reply × Host)
    {k : Callers T Call (EmuSoftc Host) Answer} (regHandle regOffset regIolen eResult : Nat)
    (eIobuf : Bytes) (host : Host)
    (hrun : Relation.ReflTransGen (Callers.Step (card serve) Call.code)
      (Callers.initial (configEmu regHandle regOffset regIolen eResult eIobuf host)) k) :
    ∃ mid, History serve host k.log mid ∧ (k.holder = none → k.shared.host = mid) ∧
      (∀ t call code, k.inside t = some (call, code) → k.holder = some t) ∧
      ∀ t, k.holder = some t → (∃ call, k.inside t = some (call, .stop)) ∨
        ∃ d, Callers.Step (card serve) Call.code k d := by
  have hstart : Callers.Serial (card serve) Call.code
      (configEmu regHandle regOffset regIolen eResult eIobuf host)
      (Callers.initial (configEmu regHandle regOffset regIolen eResult eIobuf host) :
        Callers T Call (EmuSoftc Host) Answer) := .initial rfl
  have hserial := hstart.run (calm_code serve) hrun
  have hinside : ∀ t call code, k.inside t = some (call, code) → k.holder = some t :=
    fun t call code hin => (hserial.inside_eq hin).1
  cases hserial with
  | free hholder hout hlog hquiet =>
      refine ⟨_, .of_replay serve hlog, fun _ => rfl, hinside, ?_⟩
      intro t hholds
      rw [hholder] at hholds
      cases hholds
  | inside hholder hin hout hlog hbase hexec hfits =>
      refine ⟨_, .of_replay serve hlog, ?_, hinside, ?_⟩
      · intro hfree
        rw [hholder] at hfree
        cases hfree
      · exact fun t hholds =>
          (Callers.Serial.inside hholder hin hout hlog hbase hexec hfits).goes_on hholds

/-- A host with one file, of which only the size counts. -/
private def sizeOnly (r : Request) (size : Nat) : Reply × Nat :=
  (⟨1, r.handle, r.offset, size, r.iobuf⟩, size)

theorem emu_serial_getsize : ∃ k : Callers Nat Call (EmuSoftc Nat) Answer, ∃ mid,
    Relation.ReflTransGen (Callers.Step (card sizeOnly) Call.code)
      (Callers.initial (configEmu 0 0 0 0 (fun _ => 0) 77)) k ∧
    k.log = [(5, .getsize 3, .size none (some 77))] ∧ History sizeOnly 77 k.log mid ∧
    k.shared.host = mid := by
  have hrun := Relation.ReflTransGen.refl (r := Callers.Step (card sizeOnly) Call.code)
    (a := (Callers.initial (configEmu 0 0 0 0 (fun _ => 0) 77) :
      Callers Nat Call (EmuSoftc Nat) Answer))
  have hrun := hrun.tail (.enter (t := 5) rfl rfl (.getsize 3))
  have hrun := hrun.tail (.act (t := 5) rfl)
  have hrun := hrun.tail (.start (t := 5) rfl)
  have hrun := hrun.tail (.device rfl)
  have hrun := hrun.tail (.device rfl)
  have hrun := hrun.tail (.wake (t := 5) rfl rfl)
  have hrun := hrun.tail (.act (t := 5) rfl)
  have hrun := hrun.tail (.leave (t := 5) rfl)
  obtain ⟨mid, hhistory, hhost, -⟩ := emu_serial sizeOnly 0 0 0 0 (fun _ => 0) 77 hrun
  exact ⟨_, mid, hrun, rfl, hhistory, hhost rfl⟩

end OS161.Dev.Emu
