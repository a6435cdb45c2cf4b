import Mathlib.Data.List.Forall2
import CoroutineServer.Observation
import CoroutineServer.Proof.Ascending

/-!
# The log against the state

What the log of a run has to do with the state it has led to: the messages that wait are those in the
logic queue, those dispatched and those that wait are in the order in which they arrived, only what was
dispatched is saved, and what was written comes before what the send queue still holds.
-/

namespace CoroutineServer

open Program CSession

variable {platform : Platform}

/-- The log is one of a run of the server, and every run has one. -/
theorem reaches_of_observes {observed : Observed} (hreach : Observes platform observed) :
    Reaches platform (fun _ _ => True) observed.state := by
  induction hreach with
  | initial h => exact .initial h.1
  | next _ _ hstep ih =>
    obtain ⟨state, hstate, rfl⟩ := Option.map_eq_some_iff.mp hstep
    exact .next ih trivial hstate

theorem observes_of_reaches {state : State} (hreach : Reaches platform (fun _ _ => True) state) :
    ∃ observed, Observes platform observed ∧ observed.state = state := by
  induction hreach with
  | initial h => exact ⟨⟨_, .empty⟩, .initial ⟨h, rfl⟩, rfl⟩
  | @next state state' label _ _ hstep ih =>
    obtain ⟨observed, hobserved, rfl⟩ := ih
    have hnext : observe platform label observed
        = some ⟨state', observed.log.record platform observed.state label⟩ :=
      Option.map_eq_some_iff.mpr ⟨state', hstep, rfl⟩
    exact ⟨_, .next hobserved trivial hnext, rfl⟩

/-! ### The invariant -/

/-- On one connection, the first arrived before the second. -/
def Arrival.Before (first second : Arrival) : Prop := first.1 = second.1 → first.2 < second.2

/-- A message has arrived there. -/
def Log.IsAt (log : Log) (arrival : Arrival) (node : LogicNode) : Prop :=
  arrival.1 = node.session ∧ (log.arrived arrival.1)[arrival.2]? = some (node.msgId, node.data)

/-- No message has been saved in this handler. -/
def Unsaved (trace : CallTrace) : Prop :=
  ∀ fromUid toUid content timestamp, ∀ msgId : Int,
    (⟨.saveMessage fromUid toUid content timestamp, msgId⟩ : Call Op Op.Ret) ∉ trace

/-- The log against the state. -/
structure Tracked (state : State) (log : Log) : Prop where
  queue : List.Forall₂ log.IsAt log.waiting state.msgQue
  serving : ∀ node, served state.world.history = some node →
    ∃ arrival rest, log.served = arrival :: rest ∧ log.IsAt arrival node
  known : ∀ arrival ∈ log.served, arrival.2 < (log.arrived arrival.1).length
  line : (log.served.reverse ++ log.waiting).Pairwise Arrival.Before
  saves : (log.saved.map Prod.fst).Sublist log.served
  unsaved : Unsaved state.world.trace → (log.saved.map Prod.fst).Sublist log.served.tail
  chats : ∀ saved ∈ log.saved, ∃ data,
    (log.arrived saved.1.1)[saved.1.2]? = some (MSG_SEND_CHAT_REQ, data)
  ids : log.saved.map Prod.snd = (savedMessages state.world.history).map Prod.fst
  written : ∀ session, log.wire session ++ (state.world.sessions session).sendQue.tail
    = queuedOn session state.world.history

namespace Tracked

variable {state state' : State} {log : Log}

theorem initial (db : Db) : Tracked (.initial db) .empty where
  queue := .nil
  serving := fun node hnode => by cases hnode
  known := fun arrival harrival => by cases harrival
  line := .nil
  saves := List.Sublist.refl []
  unsaved := fun _ => List.Sublist.refl []
  chats := fun saved hsaved => by cases hsaved
  ids := rfl
  written := fun _ => rfl

/-- Steps that change neither queue nor history. -/
theorem congr (h : Tracked state log) (hque : state'.msgQue = state.msgQue)
    (hhistory : state'.world.history = state.world.history)
    (hsend : ∀ session, (state'.world.sessions session).sendQue
      = (state.world.sessions session).sendQue) : Tracked state' log := by
  have htrace : state'.world.trace = state.world.trace := congrArg handlerTrace hhistory
  refine ⟨?_, ?_, h.known, h.line, h.saves, ?_, h.chats, ?_, fun session => ?_⟩
  · rw [hque]
    exact h.queue
  · rw [hhistory]
    exact h.serving
  · rw [htrace]
    exact h.unsaved
  · rw [hhistory]
    exact h.ids
  · rw [hhistory, hsend]
    exact h.written session

theorem lt_of_isAt {arrival : Arrival} {node : LogicNode} (h : log.IsAt arrival node) :
    arrival.2 < (log.arrived arrival.1).length :=
  (List.getElem?_eq_some_iff.mp h.2).1

theorem getElem?_arrive {node : LogicNode} {dropped : Bool} {session : Sid} {n : Nat}
    {message : Int × Bytes} (h : (log.arrived session)[n]? = some message) :
    ((log.arrive node dropped).arrived session)[n]? = some message := by
  unfold Log.arrive
  dsimp only
  rw [Function.update_apply]
  split_ifs with hsession
  · subst hsession
    rw [List.getElem?_append_left (List.getElem?_eq_some_iff.mp h).1]
    exact h
  · exact h

theorem length_arrive (log : Log) (node : LogicNode) (dropped : Bool) (session : Sid) :
    (log.arrived session).length ≤ ((log.arrive node dropped).arrived session).length := by
  unfold Log.arrive
  dsimp only
  rw [Function.update_apply]
  split_ifs with hsession
  · rw [hsession, List.length_append]
    exact Nat.le_add_right _ _
  · exact Nat.le_refl _

theorem arrive {node : LogicNode} (h : Tracked state log) (dropped : Bool)
    (hque : state'.msgQue = if dropped then state.msgQue else state.msgQue ++ [node])
    (hworld : state'.world = state.world) : Tracked state' (log.arrive node dropped) := by
  have hkeep : ∀ {arrival other}, log.IsAt arrival other →
      (log.arrive node dropped).IsAt arrival other := fun hat => ⟨hat.1, getElem?_arrive hat.2⟩
  have hnew : (log.arrive node dropped).IsAt (node.session, (log.arrived node.session).length) node := by
    refine ⟨rfl, ?_⟩
    unfold Log.arrive
    dsimp only
    rw [Function.update_self, List.getElem?_append_right (Nat.le_refl _), Nat.sub_self]
    rfl
  have hqueue : List.Forall₂ (log.arrive node dropped).IsAt log.waiting state.msgQue :=
    h.queue.imp fun _ _ => hkeep
  have hwaiting : ∀ arrival ∈ log.waiting, arrival.2 < (log.arrived arrival.1).length := by
    intro arrival harrival
    obtain ⟨other, hat⟩ : ∃ other, log.IsAt arrival other := by
      obtain ⟨n, hn, rfl⟩ := List.getElem_of_mem harrival
      exact ⟨_, h.queue.get hn (h.queue.length_eq ▸ hn)⟩
    exact lt_of_isAt hat
  refine ⟨?_, ?_, fun arrival harrival => ?_, ?_, h.saves, ?_, fun saved hsaved => ?_, ?_, ?_⟩
  · rw [hque]
    unfold Log.arrive
    dsimp only
    split_ifs with hdropped
    · subst hdropped
      exact hqueue
    · rw [Bool.not_eq_true] at hdropped
      subst hdropped
      exact List.rel_append hqueue (.cons hnew .nil)
  · rw [hworld]
    intro other hother
    obtain ⟨arrival, rest, hserved, hat⟩ := h.serving other hother
    exact ⟨arrival, rest, hserved, hkeep hat⟩
  · exact (h.known arrival harrival).trans_le (length_arrive log node dropped arrival.1)
  · unfold Log.arrive
    dsimp only
    split_ifs
    · exact h.line
    · rw [← List.append_assoc]
      refine List.pairwise_append.mpr ⟨h.line, List.pairwise_singleton _ _, ?_⟩
      intro first hfirst second hsecond hsame
      obtain rfl := List.mem_singleton.mp hsecond
      dsimp only at hsame ⊢
      rw [← hsame]
      rcases List.mem_append.mp hfirst with hfirst | hfirst
      · exact h.known first (List.mem_reverse.mp hfirst)
      · exact hwaiting first hfirst
  · rw [hworld]
    exact h.unsaved
  · obtain ⟨data, hdata⟩ := h.chats saved hsaved
    exact ⟨data, getElem?_arrive hdata⟩
  · rw [hworld]
    exact h.ids
  · rw [hworld]
    exact h.written

theorem dispatch {node : LogicNode} {rest : List LogicNode} (h : Tracked state log)
    (hque : state.msgQue = node :: rest) (hrest : state'.msgQue = rest)
    (hworld : state'.world = state.world.record (.dispatched node)) :
    Tracked state' log.dispatch := by
  obtain ⟨arrival, waiting, hat, hqueue, hwaiting⟩ :
      ∃ arrival waiting, log.IsAt arrival node ∧ List.Forall₂ log.IsAt waiting rest ∧
        log.waiting = arrival :: waiting := by
    have hqueue := h.queue
    rw [hque] at hqueue
    exact List.forall₂_cons_right_iff.mp hqueue
  have hlog : log.dispatch = { log with waiting, served := arrival :: log.served } := by
    unfold Log.dispatch
    rw [hwaiting]
  rw [hlog]
  refine ⟨?_, ?_, fun other hother => ?_, ?_, h.saves.cons _, ?_, h.chats, ?_, fun session => ?_⟩
  · rw [hrest]
    exact hqueue
  · rw [hworld]
    intro other hother
    obtain rfl := Option.some.inj hother
    exact ⟨arrival, log.served, rfl, hat⟩
  · rcases List.mem_cons.mp hother with rfl | hother
    · exact lt_of_isAt hat
    · exact h.known other hother
  · have hline := h.line
    rw [hwaiting, List.append_cons] at hline
    rwa [List.reverse_cons]
  · exact fun _ => h.saves
  · rw [hworld]
    exact h.ids
  · rw [hworld]
    exact h.written session

theorem did_frame (log : Log) (world : World) (call : Call Op Op.Ret) :
    (log.did world call).arrived = log.arrived ∧ (log.did world call).waiting = log.waiting ∧
      (log.did world call).served = log.served := by
  unfold Log.did
  split
  · split_ifs <;> exact ⟨rfl, rfl, rfl⟩
  · split_ifs <;> exact ⟨rfl, rfl, rfl⟩
  · exact ⟨rfl, rfl, rfl⟩

theorem saved_did {op : Op} {result : op.Ret} (log : Log) (world : World)
    (hop : ∀ fromUid toUid content timestamp, op ≠ .saveMessage fromUid toUid content timestamp) :
    (log.did world ⟨op, result⟩).saved = log.saved := by
  cases op with
  | saveMessage fromUid toUid content timestamp =>
    exact absurd rfl (hop fromUid toUid content timestamp)
  | push session payload node =>
    unfold Log.did
    dsimp only
    split_ifs <;> rfl
  | _ => rfl

theorem wire_did {op : Op} {result : op.Ret} (log : Log) (world : World)
    (hop : ∀ session payload node, op ≠ .push session payload node) :
    (log.did world ⟨op, result⟩).wire = log.wire := by
  cases op with
  | push session payload node => exact absurd rfl (hop session payload node)
  | saveMessage fromUid toUid content timestamp =>
    unfold Log.did
    dsimp only
    split_ifs <;> rfl
  | _ => rfl

/-- What a write completes or starts, against the queue. -/
theorem written_did {input : Input} {op : Op} {world : World} {session : Sid}
    (h : log.wire session ++ (world.sessions session).sendQue.tail = queuedOn session world.history) :
    (log.did world ⟨op, (perform platform input op world).1⟩).wire session
        ++ ((perform platform input op world).2.sessions session).sendQue.tail
      = framesOn session (⟨op, (perform platform input op world).1⟩ :: calls world.history) := by
  unfold queuedOn at h
  by_cases hpush : ∃ other payload sent, op = .push other payload sent
  swap
  · rw [wire_did log world fun other payload sent heq => hpush ⟨other, payload, sent, heq⟩,
      sendQue_perform platform input world fun payload sent heq => hpush ⟨session, payload, sent, heq⟩,
      framesOn_cons fun other payload sent heq => hpush ⟨other, payload, sent, heq⟩]
    exact h
  obtain ⟨other, payload, sent, rfl⟩ := hpush
  rw [perform, framesOn_push]
  by_cases hroom : (world.sessions other).sendQue.length ≤ MAX_SENDQUE
  swap
  · have hfull : pushFrame other ⟨sent, payload⟩ world = (false, world) :=
      if_pos (Nat.not_le.mp hroom)
    rw [hfull, if_neg (fun heq => Bool.false_ne_true heq.1)]
    exact h
  rw [pushFrame_of_room hroom]
  by_cases hsame : other = session
  swap
  · rw [if_neg (fun heq => hsame heq.2), World.sessions_updateSession,
      if_neg (fun heq => hsame heq.symm), ← h]
    unfold Log.did
    dsimp only
    split_ifs
    · unfold Log.write
      dsimp only
      rw [Function.update_of_ne (fun heq => hsame heq.symm)]
    · rfl
  subst hsame
  rw [if_pos ⟨rfl, rfl⟩, World.sessions_updateSession, if_pos rfl, ← h]
  unfold Log.did
  dsimp only
  cases hque : (world.sessions other).sendQue with
  | nil =>
    rw [if_pos ⟨rfl, rfl⟩]
    unfold Log.write
    dsimp only
    rw [Function.update_self]
    simp
  | cons front rest =>
    rw [if_neg (fun heq => by cases heq.2)]
    simp

theorem saved_work (world : World) {node : LogicNode} {op : Op} (h : Tracked state log)
    (hserved : served state.world.history = some node)
    (hwarrant : Warrants platform node state.world.trace op) (result : op.Ret) :
    ((log.did world ⟨op, result⟩).saved.map Prod.fst).Sublist log.served ∧
    (Unsaved (⟨op, result⟩ :: state.world.trace) →
      ((log.did world ⟨op, result⟩).saved.map Prod.fst).Sublist log.served.tail) ∧
    (∀ saved ∈ (log.did world ⟨op, result⟩).saved, ∃ data,
      (log.arrived saved.1.1)[saved.1.2]? = some (MSG_SEND_CHAT_REQ, data)) ∧
    (log.did world ⟨op, result⟩).saved.map Prod.snd
      = (savedMessages (.did ⟨op, result⟩ :: state.world.history)).map Prod.fst := by
  by_cases hsave : ∃ fromUid toUid content timestamp, op = .saveMessage fromUid toUid content timestamp
  swap
  · have hop : ∀ fromUid toUid content timestamp, op ≠ .saveMessage fromUid toUid content timestamp :=
      fun fromUid toUid content timestamp heq => hsave ⟨fromUid, toUid, content, timestamp, heq⟩
    rw [saved_did log world hop, savedMessages_did hop]
    refine ⟨h.saves, fun hunsaved => h.unsaved ?_, h.chats, h.ids⟩
    exact fun fromUid toUid content timestamp msgId hmem =>
      hunsaved fromUid toUid content timestamp msgId (List.mem_cons_of_mem _ hmem)
  obtain ⟨fromUid, toUid, content, timestamp, rfl⟩ := hsave
  have hnot : Unsaved (⟨.saveMessage fromUid toUid content timestamp, result⟩ :: state.world.trace) →
      False := fun hunsaved => hunsaved _ _ _ _ result List.mem_cons_self
  change Int at result
  by_cases hresult : 0 ≤ result
  swap
  · have hlog : log.did world ⟨.saveMessage fromUid toUid content timestamp, result⟩ = log :=
      if_neg hresult
    have hsaved : savedMessages (.did ⟨.saveMessage fromUid toUid content timestamp, result⟩
        :: state.world.history) = savedMessages state.world.history := if_neg hresult
    rw [hlog, hsaved]
    exact ⟨h.saves, fun hunsaved => (hnot hunsaved).elim, h.chats, h.ids⟩
  -- the handler has not saved before, so the message it serves is a new one
  obtain ⟨-, ⟨-, hreq, -⟩, tm, -, htrace⟩ := hwarrant
  have hunsaved : Unsaved state.world.trace := by
    intro _ _ _ _ _ hmem
    rw [htrace] at hmem
    simp at hmem
  obtain ⟨arrival, rest, hfront, hat⟩ := h.serving node hserved
  have hrest : (log.saved.map Prod.fst).Sublist rest := by
    have := h.unsaved hunsaved
    rwa [hfront] at this
  have hlog : (log.did world ⟨.saveMessage fromUid toUid content timestamp, result⟩).saved
      = (arrival, result) :: log.saved := by
    unfold Log.did
    dsimp only
    rw [if_pos hresult, hfront]
    rfl
  have hsaved : savedMessages (.did ⟨.saveMessage fromUid toUid content timestamp, result⟩
      :: state.world.history) = (result, content) :: savedMessages state.world.history :=
    if_pos hresult
  rw [hlog, hsaved, hfront]
  refine ⟨hrest.cons_cons _, fun h => (hnot h).elim, ?_, ?_⟩
  · intro saved hmem
    rcases List.mem_cons.mp hmem with rfl | hmem
    · exact ⟨node.data, hreq ▸ hat.2⟩
    · exact h.chats saved hmem
  · rw [List.map_cons, List.map_cons, h.ids]

theorem work {input : Input} {op : Op} {next : op.Ret → Handler Unit} {node : LogicNode}
    (h : Tracked state log) (hserved : served state.world.history = some node)
    (hwarrant : Warrants platform node state.world.trace op) :
    Tracked (workStep platform input op next state)
      (log.did state.world ⟨op, (perform platform input op state.world).1⟩) := by
  obtain ⟨harrived, hwaiting, hlogServed⟩ :=
    did_frame log state.world ⟨op, (perform platform input op state.world).1⟩
  obtain ⟨hsaves, hunsaved, hchats, hids⟩ := saved_work state.world h hserved hwarrant
    (perform platform input op state.world).1
  have hhistory := history_workStep platform input op next state
  have hat : (log.did state.world ⟨op, (perform platform input op state.world).1⟩).IsAt = log.IsAt := by
    funext arrival other
    unfold Log.IsAt
    rw [harrived]
  refine ⟨?_, ?_, ?_, ?_, ?_, ?_, ?_, ?_, fun session => ?_⟩
  · rw [hat, hwaiting]
    exact h.queue
  · rw [hhistory, hat, hlogServed]
    exact h.serving
  · rw [hlogServed, harrived]
    exact h.known
  · rw [hlogServed, hwaiting]
    exact h.line
  · rw [hlogServed]
    exact hsaves
  · unfold World.trace
    rw [hhistory, hlogServed]
    exact hunsaved
  · rw [harrived]
    exact hchats
  · rw [hhistory]
    exact hids
  · rw [hhistory]
    exact written_did (h.written session)

/-- A write completes, and that of the next frame is started. -/
theorem popped {session : Sid} {front : Queued} {rest : List Queued} (h : Tracked state log)
    (hfront : (state.world.sessions session).sendQue = front :: rest) :
    Tracked { state with
        world := state.world.updateSession session fun s => { s with sendQue := rest } }
      (log.write session ((state.world.sessions session).sendQue.tail.take 1)) := by
  refine ⟨h.queue, h.serving, h.known, h.line, h.saves, h.unsaved, h.chats, h.ids, fun other => ?_⟩
  have hother := h.written other
  rw [World.sessions_updateSession]
  unfold Log.write
  dsimp only
  rw [Function.update_apply]
  split_ifs with heq
  · subst heq
    rw [hfront] at hother ⊢
    rw [List.tail_cons] at hother ⊢
    rw [List.append_assoc]
    cases rest with
    | nil => exact hother
    | cons next rest => exact hother
  · exact hother

/-- **A step keeps the log in step with the state.** -/
theorem step {label : Label} (h : Tracked state log) (hground : Grounded platform state)
    (hstep : CoroutineServer.step platform label state = some state') :
    Tracked state' (log.record platform state label) := by
  cases label with
  | accept session =>
    rw [CoroutineServer.step] at hstep
    split_ifs at hstep
    obtain rfl := Option.some.inj hstep
    refine h.congr rfl rfl fun other => ?_
    rw [World.sessions_updateSession]
    split_ifs <;> rfl
  | post node =>
    rw [CoroutineServer.step] at hstep
    split_ifs at hstep with _ hfull
    · obtain rfl := Option.some.inj hstep
      exact h.arrive _ (by rw [if_pos (decide_eq_true hfull)]) rfl
    · obtain rfl := Option.some.inj hstep
      exact h.arrive _ (by rw [if_neg (by simpa using hfull)]) rfl
  | dispatch =>
    rw [CoroutineServer.step] at hstep
    split at hstep
    · rename_i hque
      obtain rfl := Option.some.inj hstep
      exact h.dispatch hque rfl rfl
    · cases hstep
  | work input =>
    rw [CoroutineServer.step] at hstep
    split at hstep
    · rename_i op next hworker
      obtain rfl := Option.some.inj hstep
      obtain ⟨node, hserved, hwarrant⟩ := hground.warrants hworker
      have hlog : log.record platform state (.work input)
          = log.did state.world ⟨op, (perform platform input op state.world).1⟩ := by
        unfold Log.record
        dsimp only
        rw [hworker]
      rw [hlog]
      exact h.work hserved hwarrant
    · cases hstep
  | finish =>
    rw [CoroutineServer.step] at hstep
    split at hstep
    · obtain rfl := Option.some.inj hstep
      exact h.congr rfl rfl fun _ => rfl
    · obtain rfl := Option.some.inj hstep
      exact h.congr rfl rfl fun _ => rfl
    · cases hstep
  | closeCall thread session =>
    rw [CoroutineServer.step] at hstep
    split_ifs at hstep
    obtain rfl := Option.some.inj hstep
    exact h.congr rfl rfl fun _ => rfl
  | io thread =>
    rw [CoroutineServer.step] at hstep
    split at hstep
    · rename_i session pos hcloser
      obtain rfl := Option.some.inj hstep
      refine h.congr rfl (history_ioStep platform thread session pos state) fun other => ?_
      apply sendQue_perform platform .idle state.world
      intro payload sent hop
      cases pos <;> cases hop
    · cases hstep
  | written session =>
    rw [CoroutineServer.step] at hstep
    split at hstep
    · cases hstep
    · rename_i front rest hfront
      obtain rfl := Option.some.inj hstep
      exact h.popped hfront
  | expire session =>
    rw [CoroutineServer.step] at hstep
    split_ifs at hstep
    obtain rfl := Option.some.inj hstep
    refine h.congr rfl rfl fun other => ?_
    rw [World.sessions_updateSession]
    split_ifs <;> rfl

end Tracked

theorem tracked_of_observes {observed : Observed} (hreach : Observes platform observed) :
    Tracked observed.state observed.log := by
  induction hreach with
  | initial h =>
    obtain ⟨⟨db, -, hstate⟩, hlog⟩ := h
    rw [hstate, hlog]
    exact Tracked.initial db
  | next hreach _ hstep ih =>
    obtain ⟨state, hstate, rfl⟩ := Option.map_eq_some_iff.mp hstep
    exact ih.step (grounded_of_reaches (reaches_of_observes hreach)) hstate

end CoroutineServer
