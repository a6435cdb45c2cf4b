import CoroutineServer.Proof.AtMostOnce
import CoroutineServer.Proof.Fidelity
import CoroutineServer.Proof.Handover

/-!
# Ids go up

The ids of the messages that the worker sends. Whatever a frame carries was in the table when it was
sent, and a message that is pushed has just been saved, so its id is above those of all frames before.
-/

namespace CoroutineServer

open Program CSession

variable {platform : Platform} {ok : Label → State → Prop} {state : State}

/-- The calls of the worker, newest first. -/
def calls : List Event → CallTrace
  | [] => []
  | .dispatched _ :: earlier => calls earlier
  | .did call :: earlier => call :: calls earlier

theorem mem_calls {history : List Event} {call : Call Op Op.Ret} (h : call ∈ calls history) :
    Event.did call ∈ history := by
  induction history with
  | nil => cases h
  | cons event earlier ih =>
    cases event with
    | dispatched node => exact List.mem_cons_of_mem _ (ih h)
    | did other =>
      rcases List.mem_cons.mp h with rfl | h
      · exact List.mem_cons_self
      · exact List.mem_cons_of_mem _ (ih h)

/-- The frames that have been queued on a session, oldest first. -/
abbrev queuedOn (session : Sid) (history : List Event) : List Queued := framesOn session (calls history)

theorem mem_framesOn {session : Sid} {frame : Queued} {trace : CallTrace}
    (h : frame ∈ framesOn session trace) :
    (⟨.push session frame.payload frame.node, true⟩ : Call Op Op.Ret) ∈ trace := by
  induction trace with
  | nil => cases h
  | cons call trace ih =>
    obtain ⟨op, result⟩ := call
    by_cases hpush : ∃ other payload sent, op = .push other payload sent
    · obtain ⟨other, payload, sent, rfl⟩ := hpush
      rw [framesOn_push] at h
      split_ifs at h with hsame
      · obtain ⟨rfl, rfl⟩ := hsame
        rcases List.mem_append.mp h with h | h
        · exact List.mem_cons_of_mem _ (ih h)
        · obtain rfl := List.mem_singleton.mp h
          exact List.mem_cons_self
      · exact List.mem_cons_of_mem _ (ih h)
    · rw [framesOn_cons fun other payload sent heq => hpush ⟨other, payload, sent, heq⟩] at h
      exact List.mem_cons_of_mem _ (ih h)

theorem le_lastMsgId_of_holds {earlier : List Event} {msgId : Int}
    (hreach : Reaches platform ok state) (hearlier : earlier <:+ state.world.history)
    (hholds : Holds (handlerTrace earlier) msgId) : msgId ≤ state.world.db.lastMsgId := by
  have hevent : ∀ call ∈ handlerTrace earlier, Event.did call ∈ state.world.history :=
    fun call hcall => hearlier.subset (did_mem_of_mem_trace hcall)
  rcases hholds with ⟨hsaved, fromUid, toUid, content, timestamp, hmem⟩ | ⟨uid, rows, hmem, hrows⟩
  · exact (numbered_of_reaches hreach).le_last _ (mem_savedMessages hsaved (hevent _ hmem))
  · obtain ⟨row, hrow, rfl⟩ := List.mem_map.mp hrows
    obtain ⟨kept, hkept, heq⟩ := List.mem_map.mp
      (shownEntries_of_reaches hreach _ (hevent _ hmem) (List.mem_map_of_mem hrow))
    have hid : kept.msgId = row.msgId := (Prod.mk.inj heq).1
    rw [← hid]
    exact (grounded_of_reaches hreach).db.msgId_le kept hkept

/-- A frame was built by the handler that pushed it. -/
theorem sends_of_pushed {session : Sid} {payload : Payload} {sent : SendNode} {accepted : Bool}
    {later earlier : List Event} (hreach : Reaches platform ok state)
    (hhistory : state.world.history = later ++ .did ⟨.push session payload sent, accepted⟩ :: earlier) :
    ∃ node msgid before, handlerTrace earlier = ⟨.loadStop session payload msgid, false⟩ :: before ∧
      Sends platform node before session payload msgid ∧ sent.msgId = toShort msgid := by
  obtain ⟨node, -, msgid, msg, before, htrace, hsends, -, hnode⟩ :=
    throughout_iff.mp (warranted_of_reaches hreach) later _ earlier hhistory _ rfl
  exact ⟨node, msgid, before, htrace, hsends, msgId_of_sendNode hnode⟩

theorem le_lastMsgId_of_pushed {session : Sid} {payload : Payload} {sent : SendNode} {accepted : Bool}
    {msgId : Int} (hreach : Reaches platform ok state)
    (hpush : Event.did ⟨.push session payload sent, accepted⟩ ∈ state.world.history)
    (hcarries : msgId ∈ payload.carries) : msgId ≤ state.world.db.lastMsgId := by
  obtain ⟨later, earlier, hhistory⟩ := List.append_of_mem hpush
  obtain ⟨node, msgid, before, htrace, hsends, -⟩ := sends_of_pushed hreach hhistory
  obtain ⟨rest, rfl, hrest, -⟩ := history_of_trace [_] htrace
  rw [← hrest] at hsends
  refine le_lastMsgId_of_holds hreach ?_ (holds_of_sends hsends hcarries).1
  rw [hhistory]
  exact ((List.suffix_cons _ _).trans (List.suffix_cons _ _)).trans (List.suffix_append _ _)

/-- The id of a saved message is above those that the frames before carry, and the rows of a batch come
in the order of their ids. -/
def Ascends (event : Event) (earlier : List Event) : Prop :=
  (∀ fromUid toUid content timestamp, ∀ msgId : Int, 0 ≤ msgId →
    event = .did ⟨.saveMessage fromUid toUid content timestamp, msgId⟩ →
      ∀ session payload sent accepted,
        Event.did ⟨.push session payload sent, accepted⟩ ∈ earlier →
          ∀ carried ∈ payload.carries, carried < msgId) ∧
  ∀ uid rows, event = .did ⟨.getOfflineMessages uid, rows⟩ →
    (rows.map MessageRow.msgId).Pairwise (· < ·)

theorem ascending_getOfflineMessages {db : Db} (hdb : db.WellFormed) (sqlite : Sqlite) (uid : Int) :
    ((DBManager.getOfflineMessages sqlite uid db).1.map MessageRow.msgId).Pairwise (· < ·) := by
  have hselected : ∀ selected : List MessageRow, selected.Sublist db.messages →
      (selected.map MessageRow.msgId).Pairwise (· < ·) := fun selected hsublist =>
    List.pairwise_map.mpr (hdb.msgId_ascending.sublist hsublist)
  have hrows : (sqlite.rows (db.messages.filter (DBManager.undelivered uid))).Sublist db.messages := by
    unfold Sqlite.rows
    split
    · exact List.filter_sublist
    · exact (List.take_sublist _ _).trans List.filter_sublist
  unfold DBManager.getOfflineMessages
  dsimp only
  split_ifs
  · exact .nil
  · exact .nil
  · exact hselected _ hrows
  · exact hselected _ hrows

theorem ascends_of_reaches (hreach : Reaches platform ok state) :
    Throughout Ascends state.world.history := by
  apply throughout_of_moves _ hreach
  · intro node earlier
    exact ⟨fun _ _ _ _ _ _ heq => (by cases heq), fun _ _ heq => (by cases heq)⟩
  · intro state input op next node hreached _ _ _ _
    constructor
    · intro fromUid toUid content timestamp msgId hsaved heq session payload sent accepted hpush carried
        hcarried
      obtain ⟨rfl, hresult⟩ := Sigma.mk.inj (Event.did.inj heq)
      have hle := le_lastMsgId_of_pushed hreached hpush hcarried
      have hresult : (DBManager.saveMessage input.sqlite fromUid toUid content timestamp
          state.world.db).1 = msgId := eq_of_heq hresult
      rcases DBManager.saveMessage_cases input.sqlite state.world.db fromUid toUid content timestamp
        with hcase | hcase <;> rw [hcase] at hresult <;> dsimp only at hresult
      · omega
      · omega
    · intro uid rows heq
      obtain ⟨rfl, hresult⟩ := Sigma.mk.inj (Event.did.inj heq)
      rw [← eq_of_heq hresult]
      exact ascending_getOfflineMessages (grounded_of_reaches hreached).db input.sqlite uid

/-- **A message is pushed above all frames before**: its id is greater than whatever they carry. -/
theorem carried_lt_of_pushed {session : Sid} {msgId fromUid toUid : Int} {content timestamp : Bytes}
    {sent : SendNode} {accepted : Bool} {later earlier : List Event}
    (hreach : Reaches platform ok state)
    (hhistory : state.world.history = later ++ .did
      ⟨.push session (.chatMsgPush msgId fromUid toUid content timestamp) sent, accepted⟩ :: earlier)
    {other : Sid} {payload : Payload} {frame : SendNode} {queued : Bool}
    (hpush : Event.did ⟨.push other payload frame, queued⟩ ∈ earlier) {carried : Int}
    (hcarried : carried ∈ payload.carries) : carried < msgId := by
  obtain ⟨node, msgid, before, htrace, hsends, -⟩ := sends_of_pushed hreach hhistory
  cases hsends with
  | @chatPush _ _ _ _ tm _ _ _ hsaved =>
    -- the handler has saved the message, looked the recipient up and looked at the stop flag
    obtain ⟨rest, rfl, -, -⟩ := history_of_trace [_, _, _] htrace
    have hrest : Event.did ⟨.push other payload frame, queued⟩ ∈ rest := by
      simpa using hpush
    have hsuffix : .did ⟨.saveMessage fromUid toUid content (strftime tm), msgId⟩ :: rest
        <:+ state.world.history := by
      rw [hhistory]
      exact ((List.suffix_cons _ _).trans ((List.suffix_cons _ _).trans (List.suffix_cons _ _))).trans
        (List.suffix_append _ _)
    obtain ⟨before, hsplit⟩ := hsuffix
    exact (throughout_iff.mp (ascends_of_reaches hreach) before _ rest hsplit.symm).1 fromUid toUid
      content (strftime tm) msgId hsaved rfl other payload frame queued hrest carried hcarried

/-! ### The frames of a session -/

/-- Of two frames, the later one does not push a message below what the earlier one carries. -/
def InTurn (first later : Queued) : Prop :=
  ∀ msgId fromUid toUid content timestamp,
    later.payload = .chatMsgPush msgId fromUid toUid content timestamp →
      ∀ carried ∈ first.payload.carries, carried < msgId

theorem queuedOn_inTurn (hreach : Reaches platform ok state) (session : Sid) :
    (queuedOn session state.world.history).Pairwise InTurn := by
  have hpart : ∀ earlier, earlier <:+ state.world.history →
      (framesOn session (calls earlier)).Pairwise InTurn := by
    intro earlier
    induction earlier with
    | nil => exact fun _ => .nil
    | cons event earlier ih =>
      intro hsuffix
      have hrest := ih ((List.suffix_cons _ _).trans hsuffix)
      cases event with
      | dispatched node => exact hrest
      | did call =>
        obtain ⟨op, result⟩ := call
        by_cases hpush : ∃ other payload sent, op = .push other payload sent
        · obtain ⟨other, payload, sent, rfl⟩ := hpush
          rw [calls, framesOn_push]
          split_ifs with hsame
          · refine List.pairwise_append.mpr ⟨hrest, List.pairwise_singleton _ _, ?_⟩
            intro first hfirst last hlast msgId fromUid toUid content timestamp heq carried hcarried
            obtain rfl := List.mem_singleton.mp hlast
            subst heq
            obtain ⟨later, hhistory⟩ := hsuffix
            exact carried_lt_of_pushed hreach hhistory.symm (mem_calls (mem_framesOn hfirst)) hcarried
          · exact hrest
        · rwa [calls, framesOn_cons fun other payload sent heq => hpush ⟨other, payload, sent, heq⟩]
  exact hpart _ (List.suffix_refl _)

theorem queuedOn_batch {session : Sid} {node : SendNode} {atLogin : Bool} {rows : List MessageRow}
    (hreach : Reaches platform ok state)
    (hframe : ⟨node, .offlineMsgs atLogin rows⟩ ∈ queuedOn session state.world.history) :
    (rows.map MessageRow.msgId).Pairwise (· < ·) := by
  obtain ⟨later, earlier, hhistory⟩ := List.append_of_mem (mem_calls (mem_framesOn hframe))
  obtain ⟨served, msgid, before, htrace, hsends, -⟩ := sends_of_pushed hreach hhistory
  obtain ⟨uid, hfetch⟩ := fetched_of_sends hsends
  have hevent : Event.did ⟨.getOfflineMessages uid, rows⟩ ∈ state.world.history := by
    rw [hhistory]
    refine List.mem_append_right _ (List.mem_cons_of_mem _ (did_mem_of_mem_trace ?_))
    rw [htrace]
    exact List.mem_cons_of_mem _ hfetch
  obtain ⟨after, first, hsplit⟩ := List.append_of_mem hevent
  exact (throughout_iff.mp (ascends_of_reaches hreach) after _ first hsplit).2 uid rows rfl

end CoroutineServer
