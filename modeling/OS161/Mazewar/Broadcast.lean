import OS161.Mazewar.Server

namespace OS161.Mazewar

open OS161.Data

/-! Who gets what the broadcasting thread takes from `eventQ`. -/

def Written.broadcast? : Written → Option MazeWarPkt
  | .broadcast pkt => some pkt
  | .answer _ => none

namespace MazeWarServer

/-- The packets that were broadcast to the connection, in order. -/
def broadcasts (s : MazeWarServer) (conn : Nat) : List MazeWarPkt :=
  (s.connections conn).toClient.filterMap Written.broadcast?

/-- The packets whose broadcast began when the connection was in the list, in
the order taken. -/
def due (history : List (MazeWarPkt × List Nat)) (conn : Nat) : List MazeWarPkt :=
  (history.filter fun entry => conn ∈ entry.2).map Prod.fst

theorem due_append (history : List (MazeWarPkt × List Nat)) (pkt : MazeWarPkt)
    (audience : List Nat) (conn : Nat) :
    due (history ++ [(pkt, audience)]) conn =
      due history conn ++ if conn ∈ audience then [pkt] else [] := by
  rw [due, due, List.filter_append, List.map_append]
  split
  case isTrue hmem => simp [hmem]
  case isFalse hmem => simp [hmem]

/-- Every packet taken has been written once to each connection it was due to.
In the middle of a broadcast the last one has come as far as the cursor. -/
def Delivered (s : MazeWarServer) : Prop :=
  match s.broadcaster with
  | .sending pkt cursor _ => ∃ before audience, s.history = before ++ [(pkt, audience)] ∧
      ∀ conn, s.broadcasts conn =
        due before conn ++ if conn ∈ audience.take cursor then [pkt] else []
  | _ => ∀ conn, s.broadcasts conn = due s.history conn

/-- No connection is added to the list while a broadcast goes through it. -/
def BetweenBroadcasts (step : Step) (s : MazeWarServer) : Prop :=
  match step, s.broadcaster with
  | .add, .sending _ _ _ => False
  | _, _ => True

instance : ∀ (step : Step) (s : MazeWarServer), Decidable (BetweenBroadcasts step s) := by
  intro step s
  unfold BetweenBroadcasts
  split <;> infer_instance

/-- The connections are different objects. -/
structure Members (s : MazeWarServer) : Prop where
  nodup : s.clientList.Nodup
  made : ∀ conn ∈ s.clientList, conn < s.count
  accepted_made : ∀ conn ∈ s.accepted, conn < s.count ∧ conn ∉ s.clientList

/-- What a broadcast has done when its iterator is at the cursor. -/
structure Underway (s : MazeWarServer) (pkt : MazeWarPkt) (cursor : Nat)
    (before : List (MazeWarPkt × List Nat)) : Prop where
  history : s.history = before ++ [(pkt, s.clientList)]
  cursor_le : cursor ≤ s.clientList.length
  broadcasts : ∀ conn, s.broadcasts conn =
    due before conn ++ if conn ∈ s.clientList.take cursor then [pkt] else []

/-- A request whose client is not found is all that can stop the thread. -/
def OnlyRequestsStop (s : MazeWarServer) : Prop :=
  ∀ thrown, s.broadcaster = .ended thrown → thrown = .arrayIndexOutOfBounds

/-- Where the thread is, and what it has done so far. -/
inductive Stage (s : MazeWarServer) : Prop where
  | between (hbroadcaster : ∀ pkt cursor expected, s.broadcaster ≠ .sending pkt cursor expected)
      (hgoing : s.OnlyRequestsStop)
      (hbroadcasts : ∀ conn, s.broadcasts conn = due s.history conn)
  | underway (pkt : MazeWarPkt) (cursor : Nat) (before : List (MazeWarPkt × List Nat))
      (hbroadcaster : s.broadcaster = .sending pkt cursor s.modCount)
      (hunderway : s.Underway pkt cursor before)

section Stages

variable {s : MazeWarServer}

theorem Stage.delivered (hstage : s.Stage) : s.Delivered := by
  cases hstage with
  | between hbroadcaster _ hbroadcasts =>
      rw [Delivered]
      split
      case h_1 hsending => exact absurd hsending (hbroadcaster _ _ _)
      case h_2 => exact hbroadcasts
  | underway pkt cursor before hbroadcaster hunderway =>
      rw [Delivered, hbroadcaster]
      exact ⟨_, _, hunderway.history, hunderway.broadcasts⟩

theorem Stage.done (hstage : s.Stage)
    (hbetween : ∀ pkt cursor expected, s.broadcaster ≠ .sending pkt cursor expected)
    (conn : Nat) : s.broadcasts conn = due s.history conn := by
  cases hstage with
  | between _ _ hbroadcasts => exact hbroadcasts conn
  | underway pkt cursor before hbroadcaster _ => exact absurd hbroadcaster (hbetween _ _ _)

theorem Stage.going (hstage : s.Stage) : s.OnlyRequestsStop := by
  cases hstage with
  | between _ hgoing _ => exact hgoing
  | underway pkt cursor before hbroadcaster _ =>
      intro thrown hended
      rw [hbroadcaster] at hended
      cases hended

end Stages

structure Orderly (s : MazeWarServer) : Prop where
  members : s.Members
  stage : s.Stage

section Steps

variable {s next : MazeWarServer}

/-- A step that leaves the broadcast and what was written alone. -/
theorem Stage.frame (hstage : s.Stage) (hbroadcaster : next.broadcaster = s.broadcaster)
    (hlist : next.clientList = s.clientList) (hmodCount : next.modCount = s.modCount)
    (hhistory : next.history = s.history)
    (hbroadcasts : ∀ conn, next.broadcasts conn = s.broadcasts conn) : next.Stage := by
  cases hstage with
  | between hbetween hgoing hdone =>
      refine .between ?_ ?_ ?_
      · rw [hbroadcaster]
        exact hbetween
      · rw [OnlyRequestsStop, hbroadcaster]
        exact hgoing
      · intro conn
        rw [hbroadcasts, hhistory]
        exact hdone conn
  | underway pkt cursor before hsending hunderway =>
      refine .underway pkt cursor before ?_ ⟨?_, ?_, ?_⟩
      · rw [hbroadcaster, hmodCount]
        exact hsending
      · rw [hhistory, hlist]
        exact hunderway.history
      · rw [hlist]
        exact hunderway.cursor_le
      · intro conn
        rw [hbroadcasts, hlist]
        exact hunderway.broadcasts conn

theorem connections_setConnection (conn : Nat) (c : ConnectionToClient) :
    (s.setConnection conn c).connections = Function.update s.connections conn c := rfl

theorem broadcasts_setConnection {conn : Nat} {c : ConnectionToClient}
    (hwritten : c.toClient = (s.connections conn).toClient) (other : Nat) :
    (s.setConnection conn c).broadcasts other = s.broadcasts other := by
  rw [broadcasts, broadcasts, connections_setConnection]
  by_cases hother : other = conn
  · subst hother
    rw [Function.update_self, hwritten]
  · rw [Function.update_of_ne hother]

theorem broadcasts_write (conn : Nat) (written : Written) (other : Nat) :
    (s.write conn written).broadcasts other =
      s.broadcasts other ++ if other = conn then written.broadcast?.toList else [] := by
  rw [broadcasts, broadcasts, write, connections_setConnection]
  by_cases hother : other = conn
  · subst hother
    rw [Function.update_self, if_pos rfl, List.filterMap_append]
    cases written <;> rfl
  · rw [Function.update_of_ne hother, if_neg hother, List.append_nil]

theorem accept_orderly (horderly : s.Orderly) (hrun : s.accept = some next) :
    next.Orderly := by
  rw [accept] at hrun
  split at hrun
  case h_1 => cases hrun
  case h_2 =>
    cases hrun
    refine ⟨⟨horderly.members.nodup, ?_, ?_⟩,
      horderly.stage.frame rfl rfl rfl rfl fun _ => rfl⟩
    · intro conn hconn
      exact Nat.lt_succ_of_lt (horderly.members.made conn hconn)
    · intro conn hconn
      cases hconn
      refine ⟨Nat.lt_succ_self _, ?_⟩
      intro hmem
      exact Nat.lt_irrefl _ (horderly.members.made _ hmem)

/-- Between two broadcasts the list may grow. -/
theorem add_orderly (horderly : s.Orderly) (hbetween : BetweenBroadcasts .add s)
    (hrun : s.add = some next) : next.Orderly := by
  rw [add] at hrun
  split at hrun
  case h_1 => cases hrun
  case h_2 conn haccepted =>
    cases hrun
    obtain ⟨hmade, hnew⟩ := horderly.members.accepted_made conn haccepted
    refine ⟨⟨?_, ?_, ?_⟩, ?_⟩
    · rw [List.nodup_append]
      refine ⟨horderly.members.nodup, List.nodup_singleton conn, ?_⟩
      intro other hother conn' hconn'
      rw [List.mem_singleton] at hconn'
      rintro rfl
      exact hnew (hconn' ▸ hother)
    · intro other hother
      rw [List.mem_append, List.mem_singleton] at hother
      rcases hother with hold | rfl
      · exact horderly.members.made other hold
      · exact hmade
    · intro other hother
      cases hother
    · cases horderly.stage with
      | between hstage hgoing hdone => exact .between hstage hgoing hdone
      | underway pkt cursor before hsending _ =>
          simp only [BetweenBroadcasts, hsending] at hbetween

theorem enqueue_orderly (horderly : s.Orderly)
    (hrun : s.enqueue conn pkt = some next) : next.Orderly := by
  rw [enqueue] at hrun
  split at hrun
  case isFalse => cases hrun
  case isTrue =>
    cases hrun
    exact ⟨⟨horderly.members.nodup, horderly.members.made, horderly.members.accepted_made⟩,
      horderly.stage.frame rfl rfl rfl rfl (broadcasts_setConnection rfl)⟩

theorem toClient_noted (c : ConnectionToClient) (pkt : MazeWarPkt) :
    (c.noted pkt).toClient = c.toClient := by
  rw [ConnectionToClient.noted]
  split_ifs <;> rfl

theorem note_orderly (horderly : s.Orderly) (hrun : s.note conn = some next) :
    next.Orderly := by
  rw [note] at hrun
  split at hrun
  case h_1 => cases hrun
  case h_2 pkt _ =>
    cases hrun
    exact ⟨⟨horderly.members.nodup, horderly.members.made, horderly.members.accepted_made⟩,
      horderly.stage.frame rfl rfl rfl rfl (broadcasts_setConnection (toClient_noted _ pkt))⟩

/-- The step does nothing to the list of the connections. -/
structure SameMembers (s next : MazeWarServer) : Prop where
  clientList_eq : next.clientList = s.clientList
  count_eq : next.count = s.count
  accepted_eq : next.accepted = s.accepted

theorem Members.same (hmembers : s.Members) (hsame : s.SameMembers next) : next.Members := by
  refine ⟨?_, ?_, ?_⟩
  · rw [hsame.clientList_eq]
    exact hmembers.nodup
  · rw [hsame.clientList_eq, hsame.count_eq]
    exact hmembers.made
  · rw [hsame.accepted_eq, hsame.clientList_eq, hsame.count_eq]
    exact hmembers.accepted_made

theorem take_orderly (horderly : s.Orderly) (hwaiting : s.broadcaster = .waiting)
    (hrun : s.take = some next) : next.Orderly := by
  have hdone := horderly.stage.done fun _ _ _ => by
    rw [hwaiting]
    exact Broadcaster.noConfusion
  rw [take] at hrun
  split at hrun
  case h_1 => cases hrun
  case h_2 =>
    cases hrun
    exact ⟨horderly.members.same ⟨rfl, rfl, rfl⟩,
      .between (fun _ _ _ => Broadcaster.noConfusion) (fun _ => Broadcaster.noConfusion) hdone⟩

theorem dispatch_orderly (horderly : s.Orderly) (htaken : s.broadcaster = .taken pkt) :
    (s.dispatch pkt).Orderly := by
  have hdone := horderly.stage.done fun _ _ _ => by
    rw [htaken]
    exact Broadcaster.noConfusion
  rw [dispatch]
  split
  case isTrue =>
    exact ⟨horderly.members.same ⟨rfl, rfl, rfl⟩,
      .between (fun _ _ _ => Broadcaster.noConfusion) (fun _ => Broadcaster.noConfusion) hdone⟩
  case isFalse =>
    refine ⟨horderly.members.same ⟨rfl, rfl, rfl⟩, .underway pkt 0 s.history rfl ?_⟩
    refine ⟨rfl, Nat.zero_le _, ?_⟩
    intro conn
    rw [List.take_zero, if_neg List.not_mem_nil, List.append_nil]
    exact hdone conn

theorem list_orderly (horderly : s.Orderly)
    (hlisting : s.broadcaster = .listing pkt i requestingClient infos) :
    (s.list pkt i requestingClient infos).Orderly := by
  have hdone := horderly.stage.done fun _ _ _ => by
    rw [hlisting]
    exact Broadcaster.noConfusion
  have hquiet (thread : Broadcaster)
      (hbetween : ∀ pkt cursor expected, thread ≠ .sending pkt cursor expected)
      (hgoing : ∀ thrown, thread = .ended thrown → thrown = .arrayIndexOutOfBounds) :
      Orderly { s with broadcaster := thread } :=
    ⟨horderly.members.same ⟨rfl, rfl, rfl⟩, .between hbetween hgoing hdone⟩
  rw [list]
  split
  case h_1 conn _ =>
    dsimp only
    split
    · exact hquiet _ (fun _ _ _ => Broadcaster.noConfusion) (fun _ => Broadcaster.noConfusion)
    · exact hquiet _ (fun _ _ _ => Broadcaster.noConfusion) (fun _ => Broadcaster.noConfusion)
  case h_2 =>
    split
    case isTrue =>
      exact hquiet _ (fun _ _ _ => Broadcaster.noConfusion) (fun _ => Broadcaster.noConfusion)
    case isFalse =>
      rw [sendToOne]
      split
      case h_1 conn _ =>
        refine ⟨horderly.members.same ⟨rfl, rfl, rfl⟩,
          .between (fun _ _ _ => Broadcaster.noConfusion) (fun _ => Broadcaster.noConfusion) ?_⟩
        -- An answer is no broadcast.
        intro other
        refine (broadcasts_write conn (.answer _) other).trans ?_
        rw [hdone other]
        split <;> exact List.append_nil _
      case h_2 =>
        refine hquiet _ (fun _ _ _ => Broadcaster.noConfusion) ?_
        intro thrown hended
        cases hended
        rfl

/-- The connection at the cursor is served, and it had not been. -/
theorem served_succ {clientList : List Nat} {cursor conn : Nat}
    (hnodup : clientList.Nodup) (hat : clientList[cursor]? = some conn) (pkt : MazeWarPkt)
    (other : Nat) :
    (if other ∈ clientList.take (cursor + 1) then [pkt] else []) =
      (if other ∈ clientList.take cursor then [pkt] else []) ++
        if other = conn then [pkt] else [] := by
  have htake : clientList.take (cursor + 1) = clientList.take cursor ++ [conn] := by
    rw [List.take_add_one, hat]
    rfl
  have hnodup' : (clientList.take (cursor + 1)).Nodup :=
    hnodup.sublist (List.take_sublist _ _)
  rw [htake, List.nodup_append] at hnodup'
  rw [htake]
  by_cases hother : other = conn
  · subst hother
    have hnew : other ∉ clientList.take cursor := by
      intro hmem
      exact hnodup'.2.2 other hmem other (List.mem_singleton_self other) rfl
    simp [hnew]
  · simp [hother]

theorem send_orderly (horderly : s.Orderly)
    (hsending : s.broadcaster = .sending pkt cursor expected) :
    (s.send pkt cursor expected).Orderly := by
  cases horderly.stage with
  | between hbetween _ _ => exact absurd hsending (hbetween _ _ _)
  | underway pkt' cursor' before hsending' hunderway =>
      rw [hsending] at hsending'
      cases hsending'
      rw [send]
      split
      case isTrue hend =>
        refine ⟨horderly.members.same ⟨rfl, rfl, rfl⟩,
          .between (fun _ _ _ => Broadcaster.noConfusion) (fun _ => Broadcaster.noConfusion) ?_⟩
        intro conn
        refine (hunderway.broadcasts conn).trans ?_
        rw [hend, List.take_length]
        refine Eq.trans ?_ (congrArg (due · conn) hunderway.history.symm)
        exact (due_append before pkt s.clientList conn).symm
      case isFalse hmore =>
        rw [if_neg (not_not.mpr rfl)]
        have hlt : cursor < s.clientList.length :=
          Nat.lt_of_le_of_ne hunderway.cursor_le hmore
        have hat : s.clientList[cursor]? = some s.clientList[cursor] :=
          List.getElem?_eq_getElem hlt
        rw [hat]
        refine ⟨horderly.members.same ⟨rfl, rfl, rfl⟩,
          .underway pkt (cursor + 1) before rfl ?_⟩
        refine ⟨hunderway.history, hlt, ?_⟩
        intro other
        calc (s.write s.clientList[cursor] (.broadcast pkt)).broadcasts other
            = s.broadcasts other ++ if other = s.clientList[cursor] then [pkt] else [] :=
              broadcasts_write _ _ other
          _ = due before other ++
                if other ∈ s.clientList.take (cursor + 1) then [pkt] else [] := by
              rw [hunderway.broadcasts other, List.append_assoc,
                ← served_succ horderly.members.nodup hat]

theorem broadcastMessages_orderly (horderly : s.Orderly)
    (hrun : s.broadcastMessages = some next) : next.Orderly := by
  rw [broadcastMessages] at hrun
  split at hrun
  case h_1 hwaiting => exact take_orderly horderly hwaiting hrun
  case h_2 htaken =>
    cases hrun
    exact dispatch_orderly horderly htaken
  case h_3 hlisting =>
    cases hrun
    exact list_orderly horderly hlisting
  case h_4 hsending =>
    cases hrun
    exact send_orderly horderly hsending
  case h_5 => cases hrun

theorem run_orderly (step : Step) (horderly : s.Orderly) (hbetween : BetweenBroadcasts step s)
    (hrun : run step s = some next) : next.Orderly := by
  cases step with
  | accept => exact accept_orderly horderly hrun
  | add => exact add_orderly horderly hbetween hrun
  | enqueue conn pkt => exact enqueue_orderly horderly hrun
  | note conn => exact note_orderly horderly hrun
  | broadcast => exact broadcastMessages_orderly horderly hrun

theorem start_orderly : start.Orderly := by
  refine ⟨⟨List.nodup_nil, ?_, ?_⟩,
    .between (fun _ _ _ => Broadcaster.noConfusion) (fun _ => Broadcaster.noConfusion)
      fun _ => rfl⟩
  · intro conn hconn
    cases hconn
  · intro conn hconn
    cases hconn

end Steps

/-- Between two broadcasts, those who were connected throughout have got the
same packets. -/
def SameForAll (s : MazeWarServer) : Prop :=
  (∀ pkt cursor expected, s.broadcaster ≠ .sending pkt cursor expected) →
    ∀ joined conn, (∀ entry ∈ s.history.drop joined, conn ∈ entry.2) →
      (s.history.drop joined).map Prod.fst <:+ s.broadcasts conn

theorem Stage.sameForAll {s : MazeWarServer} (hstage : s.Stage) : s.SameForAll := by
  intro hbetween joined conn hconnected
  have hall : (s.history.drop joined).filter (fun entry => conn ∈ entry.2) =
      s.history.drop joined := by
    rw [List.filter_eq_self]
    intro entry hentry
    exact decide_eq_true (hconnected entry hentry)
  rw [hstage.done hbetween conn, due]
  conv => rhs; rw [← List.take_append_drop joined s.history]
  rw [List.filter_append, List.map_append, hall]
  exact List.suffix_append _ _

/-- In a run in which no connection is added in the middle of a broadcast, the
packets taken reach everyone who was connected, once and in order. -/
theorem broadcast_of_runs {s : MazeWarServer} (hruns : Runs run BetweenBroadcasts start s) :
    s.Delivered ∧ s.OnlyRequestsStop ∧ s.SameForAll := by
  have horderly : s.Orderly := by
    refine hruns.preserves ?_ start_orderly
    intro step s next hs hbetween hrun
    exact run_orderly step hs hbetween hrun
  exact ⟨horderly.stage.delivered, horderly.stage.going, horderly.stage.sameForAll⟩

private def spawned : MazeWarPkt :=
  { event := .spawn, player := 7, playerName := some "Norby" }

/-- Two connect, and the one's packet goes to both. -/
private def toBoth : List Step :=
  [.accept, .add, .accept, .add, .enqueue 0 spawned, .broadcast, .note 0, .broadcast,
    .broadcast, .accept, .broadcast, .broadcast, .add]

theorem broadcast_to_both :
    (runAll run toBoth start).broadcasts 0 = [spawned] ∧
      (runAll run toBoth start).broadcasts 1 = [spawned] ∧
      (runAll run toBoth start).Delivered :=
  ⟨by decide, by decide,
    (broadcast_of_runs (runs_runAll toBoth start (by decide))).1⟩

/-- The second connection is added when the first packet is taken and has
reached nobody. -/
theorem broadcast_fails_at_join :
    ¬∀ s, Runs run (fun _ _ => True) start s → s.Delivered := by
  intro hall
  let calls : List Step :=
    [.accept, .add, .enqueue 0 spawned, .accept, .broadcast, .broadcast, .add, .broadcast]
  have hdelivered := hall _ (runs_runAll_free calls start)
  have hended : (runAll run calls start).broadcaster = .ended .concurrentModification := by
    decide
  rw [Delivered, hended] at hdelivered
  have hwritten : (runAll run calls start).broadcasts 0 = [] := by decide
  have hdue : due (runAll run calls start).history 0 = [spawned] := by decide
  have hfirst := hdelivered 0
  rw [hwritten, hdue] at hfirst
  cases hfirst

end MazeWarServer

end OS161.Mazewar
