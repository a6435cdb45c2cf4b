import CoroutineServer.Proof.Ledger
import CoroutineServer.Proof.Traces
import CoroutineServer.Scenario

/-!
# Frames that carry a message

A message that is pushed when it is saved stays undelivered in the table. In the runs where no user
fetches offline messages with such a message among them, and SQLite does not fail, no message is carried
by two frames.
-/

namespace CoroutineServer

open Program CSession

variable {platform : Platform}

/-- The push of a message that has just been saved. -/
def Payload.isPushOf (msgId : Int) : Payload → Bool
  | .chatMsgPush sentId _ _ _ _ => sentId = msgId
  | _ => false

/-- Whether a message has been pushed to its recipient when it was saved. -/
def sentByChat (msgId : Int) : List Event → Bool
  | [] => false
  | .did ⟨.push _ payload _, true⟩ :: earlier => payload.isPushOf msgId || sentByChat msgId earlier
  | _ :: earlier => sentByChat msgId earlier

/-- The condition: no message that is fetched has been pushed when it was saved. -/
def FetchesUnpushed : Op → State → Prop
  | .getOfflineMessages uid, state => ∀ row ∈ state.world.db.messages,
      DBManager.undelivered uid row = true → sentByChat row.msgId state.world.history = false
  | _, _ => True

theorem sentByChat_did {op : Op} {result : op.Ret}
    (hop : ∀ session payload sent, op ≠ .push session payload sent) (msgId : Int)
    (history : List Event) :
    sentByChat msgId (.did ⟨op, result⟩ :: history) = sentByChat msgId history := by
  cases op with
  | push session payload sent => exact absurd rfl (hop session payload sent)
  | _ => rfl

theorem sentByChat_push (session : Sid) (payload : Payload) (sent : SendNode) (accepted : Bool)
    (msgId : Int) (history : List Event) :
    sentByChat msgId (.did ⟨.push session payload sent, accepted⟩ :: history)
      = (accepted && payload.isPushOf msgId || sentByChat msgId history) := by
  cases accepted <;> rfl

/-- The messages the running handler holds: it has saved them, or fetched them. -/
def Holds (trace : CallTrace) (msgId : Int) : Prop :=
  (0 ≤ msgId ∧ ∃ fromUid toUid content timestamp,
    (⟨.saveMessage fromUid toUid content timestamp, msgId⟩ : Call Op Op.Ret) ∈ trace) ∨
  ∃ uid rows, (⟨.getOfflineMessages uid, rows⟩ : Call Op Op.Ret) ∈ trace ∧
    msgId ∈ rows.map MessageRow.msgId

/-- No frame has been pushed in this handler. -/
def Unsent (trace : CallTrace) : Prop :=
  ∀ session payload sent accepted,
    (⟨.push session payload sent, accepted⟩ : Call Op Op.Ret) ∉ trace

/-- All rows with this key are marked delivered. -/
def AllDelivered (db : Db) (msgId : Int) : Prop :=
  ∀ row ∈ db.messages, row.msgId = msgId → row.delivered = true

/-- The invariant: a message is carried once at most, and what the running handler holds it may still
send. -/
structure Once (db : Db) (history : List Event) : Prop where
  once : ∀ msgId, carried msgId history ≤ 1
  fresh : ∀ msgId, db.lastMsgId < msgId → carried msgId history = 0
  recorded : ∀ msgId, carried msgId history ≠ 0 →
    sentByChat msgId history = true ∨ AllDelivered db msgId
  held : ∀ msgId, Holds (handlerTrace history) msgId → msgId ≤ db.lastMsgId
  unsent : Unsent (handlerTrace history) → ∀ msgId, Holds (handlerTrace history) msgId →
    carried msgId history = 0
  fetched : ∀ uid rows,
    (⟨.getOfflineMessages uid, rows⟩ : Call Op Op.Ret) ∈ handlerTrace history →
      ∀ row ∈ rows, AllDelivered db row.msgId

theorem not_holds_nil (msgId : Int) : ¬Holds [] msgId := by
  rintro (⟨-, _, _, _, _, hmem⟩ | ⟨_, _, hmem, -⟩) <;> cases hmem

/-- What a handler sends it holds, and it has pushed no frame before. -/
theorem holds_of_sends {node : LogicNode} {trace : CallTrace} {session : Sid} {payload : Payload}
    {msgid msgId : Int} (hsends : Sends platform node trace session payload msgid)
    (hcarries : msgId ∈ payload.carries) : Holds trace msgId ∧ Unsent trace := by
  cases hsends with
  | @loginBatch uid rows kicked hreq huid hkicked hrows =>
    refine ⟨.inr ⟨uid, rows, by simp [loginTrace], hcarries⟩, fun _ _ _ _ hmem => ?_⟩
    simp only [loginTrace, List.mem_cons, Sigma.mk.injEq, reduceCtorEq, false_and, false_or] at hmem
    exact dealsWithOld_of_kicked hkicked hmem
  | @offlineBatch uid rows hreq huid =>
    exact ⟨.inr ⟨uid, rows, by simp, hcarries⟩, fun _ _ _ _ hmem => by simp at hmem⟩
  | @chatPush savedId fromUid toUid content tm recipient hreq huid hsaved =>
    obtain rfl := List.mem_singleton.mp hcarries
    refine ⟨.inl ⟨hsaved, fromUid, toUid, content, strftime tm, by simp [chatTrace]⟩, ?_⟩
    intro _ _ _ _ hmem
    simp [chatTrace] at hmem
  | _ => simp [Payload.carries, LogicSystem.errorResponse] at hcarries

theorem holds_cons {op : Op} {result : op.Ret} {trace : CallTrace} {msgId : Int}
    (h : Holds (⟨op, result⟩ :: trace) msgId) : Holds trace msgId ∨
      (0 ≤ msgId ∧ ∃ fromUid toUid content timestamp, (⟨op, result⟩ : Call Op Op.Ret)
        = ⟨.saveMessage fromUid toUid content timestamp, msgId⟩) ∨
      ∃ uid rows, (⟨op, result⟩ : Call Op Op.Ret) = ⟨.getOfflineMessages uid, rows⟩ ∧
        msgId ∈ rows.map MessageRow.msgId := by
  rcases h with ⟨hpos, fromUid, toUid, content, timestamp, hmem⟩ | ⟨uid, rows, hmem, hrows⟩
  · rcases List.mem_cons.mp hmem with heq | hmem
    · exact .inr (.inl ⟨hpos, fromUid, toUid, content, timestamp, heq.symm⟩)
    · exact .inl (.inl ⟨hpos, fromUid, toUid, content, timestamp, hmem⟩)
  · rcases List.mem_cons.mp hmem with heq | hmem
    · exact .inr (.inr ⟨uid, rows, heq.symm, hrows⟩)
    · exact .inl (.inr ⟨uid, rows, hmem, hrows⟩)

theorem isPushOf_or_mem {payload : Payload} {msgId : Int} (h : msgId ∈ payload.carries) :
    payload.isPushOf msgId = true ∨
      ∃ atLogin rows, payload = .offlineMsgs atLogin rows ∧ msgId ∈ rows.map MessageRow.msgId := by
  cases payload with
  | chatMsgPush sentId fromUid toUid content timestamp =>
    obtain rfl := List.mem_singleton.mp h
    exact .inl (decide_eq_true rfl)
  | offlineMsgs atLogin rows => exact .inr ⟨atLogin, rows, rfl, h⟩
  | _ => cases h

theorem fetched_of_sends {node : LogicNode} {trace : CallTrace} {session : Sid} {atLogin : Bool}
    {rows : List MessageRow} {msgid : Int}
    (hsends : Sends platform node trace session (.offlineMsgs atLogin rows) msgid) :
    ∃ uid, (⟨.getOfflineMessages uid, rows⟩ : Call Op Op.Ret) ∈ trace := by
  cases hsends with
  | @loginBatch uid => exact ⟨uid, by simp [loginTrace]⟩
  | @offlineBatch uid => exact ⟨uid, by simp⟩

namespace Once

variable {db db' : Db} {history : List Event} {node : LogicNode}

theorem dispatched (h : Once db history) : Once db (.dispatched node :: history) :=
  ⟨h.once, h.fresh, h.recorded, fun msgId hholds => absurd hholds (not_holds_nil msgId),
    fun _ msgId hholds => absurd hholds (not_holds_nil msgId), fun _ _ hmem => by cases hmem⟩

theorem push {session : Sid} {payload : Payload} {sent : SendNode} {accepted : Bool}
    (h : Once db history)
    (hwarrant : Warrants platform node (handlerTrace history) (.push session payload sent)) :
    Once db (.did ⟨.push session payload sent, accepted⟩ :: history) := by
  obtain ⟨msgid, msg, before, hbefore, hsends, -⟩ := hwarrant
  have hheld : ∀ msgId ∈ payload.carries,
      Holds (handlerTrace history) msgId ∧ Unsent (handlerTrace history) := by
    intro msgId hcarries
    obtain ⟨hholds, hunsent⟩ := holds_of_sends hsends hcarries
    rw [hbefore]
    refine ⟨?_, fun _ _ _ _ hmem => ?_⟩
    · rcases hholds with ⟨hpos, _, _, _, _, hmem⟩ | ⟨_, _, hmem, hrows⟩
      · exact .inl ⟨hpos, _, _, _, _, List.mem_cons_of_mem _ hmem⟩
      · exact .inr ⟨_, _, List.mem_cons_of_mem _ hmem, hrows⟩
    · rcases List.mem_cons.mp hmem with heq | hmem
      · cases (Sigma.mk.inj heq).1
      · exact hunsent _ _ _ _ hmem
  have hzero : ∀ msgId ∈ payload.carries, carried msgId history = 0 := fun msgId hcarries =>
    h.unsent (hheld msgId hcarries).2 msgId (hheld msgId hcarries).1
  refine ⟨fun msgId => ?_, fun msgId hlast => ?_, fun msgId hne => ?_, fun msgId hholds => ?_, ?_, ?_⟩
  · rw [carried_push]
    split_ifs with hcarries
    · exact Nat.le_of_eq (by rw [hzero msgId hcarries.2])
    · exact h.once msgId
  · rw [carried_push, if_neg]
    · exact h.fresh msgId hlast
    · rintro ⟨-, hcarries⟩
      have := h.held msgId (hheld msgId hcarries).1
      omega
  · rw [sentByChat_push]
    rw [carried_push] at hne
    split_ifs at hne with hcarries
    · obtain ⟨rfl, hcarries⟩ := hcarries
      rcases isPushOf_or_mem hcarries with hpush | ⟨atLogin, rows, rfl, hrows⟩
      · exact .inl (by rw [hpush]; rfl)
      · obtain ⟨uid, hmem⟩ := fetched_of_sends hsends
        obtain ⟨row, hrow, rfl⟩ := List.mem_map.mp hrows
        refine .inr (h.fetched uid rows ?_ row hrow)
        rw [hbefore]
        exact List.mem_cons_of_mem _ hmem
    · rcases h.recorded msgId hne with hsent | hdelivered
      · exact .inl (by rw [hsent, Bool.or_true])
      · exact .inr hdelivered
  · rcases holds_cons hholds with hholds | ⟨-, _, _, _, _, heq⟩ | ⟨_, _, heq, -⟩
    · exact h.held msgId hholds
    · cases (Sigma.mk.inj heq).1
    · cases (Sigma.mk.inj heq).1
  · intro hunsent
    exact absurd List.mem_cons_self (hunsent session payload sent accepted)
  · intro uid rows hmem row hrow
    rcases List.mem_cons.mp hmem with heq | hmem
    · cases (Sigma.mk.inj heq).1
    · exact h.fetched uid rows hmem row hrow

/-- Any other operation, by what becomes of the message table and what the handler holds after it. -/
theorem did {op : Op} {result : op.Ret} (h : Once db history)
    (hop : ∀ session payload sent, op ≠ .push session payload sent)
    (hlast : db.lastMsgId ≤ db'.lastMsgId)
    (hdelivered : ∀ msgId, msgId ≤ db.lastMsgId → AllDelivered db msgId → AllDelivered db' msgId)
    (hsaved : ∀ fromUid toUid content timestamp, ∀ msgId : Int, 0 ≤ msgId →
      (⟨op, result⟩ : Call Op Op.Ret) = ⟨.saveMessage fromUid toUid content timestamp, msgId⟩ →
        db.lastMsgId < msgId ∧ msgId ≤ db'.lastMsgId)
    (hfetched : ∀ uid rows, (⟨op, result⟩ : Call Op Op.Ret) = ⟨.getOfflineMessages uid, rows⟩ →
      ∀ row ∈ rows, row.msgId ≤ db.lastMsgId ∧ carried row.msgId history = 0 ∧
        AllDelivered db' row.msgId) :
    Once db' (.did ⟨op, result⟩ :: history) := by
  have hknown : ∀ msgId, carried msgId history ≠ 0 → msgId ≤ db.lastMsgId := by
    intro msgId hne
    by_contra hlt
    exact hne (h.fresh msgId (by omega))
  refine ⟨fun msgId => ?_, fun msgId hlt => ?_, fun msgId hne => ?_, fun msgId hholds => ?_,
    fun hunsent msgId hholds => ?_, fun uid rows hmem row hrow => ?_⟩
  · rw [carried_did hop]
    exact h.once msgId
  · rw [carried_did hop]
    exact h.fresh msgId (Int.lt_of_le_of_lt hlast hlt)
  · rw [carried_did hop] at hne
    rw [sentByChat_did hop]
    exact (h.recorded msgId hne).imp_right (hdelivered msgId (hknown msgId hne))
  · rcases holds_cons hholds with hholds | ⟨hpos, _, _, _, _, heq⟩ | ⟨uid, rows, heq, hrows⟩
    · exact Int.le_trans (h.held msgId hholds) hlast
    · exact (hsaved _ _ _ _ msgId hpos heq).2
    · obtain ⟨row, hrow, rfl⟩ := List.mem_map.mp hrows
      exact Int.le_trans (hfetched uid rows heq row hrow).1 hlast
  · rw [carried_did hop]
    rcases holds_cons hholds with hholds | ⟨hpos, _, _, _, _, heq⟩ | ⟨uid, rows, heq, hrows⟩
    · exact h.unsent (fun _ _ _ _ hmem => hunsent _ _ _ _ (List.mem_cons_of_mem _ hmem)) msgId hholds
    · exact h.fresh msgId (hsaved _ _ _ _ msgId hpos heq).1
    · obtain ⟨row, hrow, rfl⟩ := List.mem_map.mp hrows
      exact (hfetched uid rows heq row hrow).2.1
  · rcases List.mem_cons.mp hmem with heq | hmem
    · exact (hfetched uid rows heq.symm row hrow).2.2
    · refine hdelivered row.msgId (h.held row.msgId (.inr ⟨uid, rows, hmem, ?_⟩))
        (h.fetched uid rows hmem row hrow)
      exact List.mem_map_of_mem hrow

end Once

/-- With no failure, what is fetched has not been carried, if it was not pushed when it was saved. -/
theorem once_getOfflineMessages {db : Db} {history : List Event} {uid : Int} (h : Once db history)
    (hdb : db.WellFormed) (hunpushed : ∀ row ∈ db.messages,
      DBManager.undelivered uid row = true → sentByChat row.msgId history = false) :
    Once (DBManager.getOfflineMessages .fine uid db).2
      (.did ⟨.getOfflineMessages uid, (DBManager.getOfflineMessages .fine uid db).1⟩ :: history) := by
  have hother : ∀ row ∈ db.messages, DBManager.undelivered uid row = true →
      carried row.msgId history = 0 := by
    intro row hrow hundelivered
    by_contra hne
    rcases h.recorded row.msgId hne with hsent | hdelivered
    · rw [hunpushed row hrow hundelivered] at hsent
      cases hsent
    · have htrue := hdelivered row hrow rfl
      simp only [DBManager.undelivered, decide_eq_true_eq] at hundelivered
      rw [hundelivered.2] at htrue
      cases htrue
  by_cases huid : 0 < uid
  · rw [DBManager.getOfflineMessages_fine huid]
    refine h.did (by simp) (Int.le_refl _) (fun msgId _ hall row hrow hid => ?_)
      (fun _ _ _ _ _ _ heq => by cases (Sigma.mk.inj heq).1) fun user rows heq row hrow => ?_
    · obtain ⟨old, hold, rfl⟩ := List.mem_map.mp hrow
      rw [(Db.WellFormed.markDelivered_msgId uid old).1] at hid
      exact DBManager.markDelivered_delivered (hall old hold hid)
    · obtain rfl := eq_of_heq (Sigma.mk.inj heq).2
      obtain ⟨hmem, hundelivered⟩ := List.mem_filter.mp hrow
      refine ⟨hdb.msgId_le row hmem, hother row hmem hundelivered, fun later hlater hid => ?_⟩
      obtain ⟨old, hold, rfl⟩ := List.mem_map.mp hlater
      rw [(Db.WellFormed.markDelivered_msgId uid old).1] at hid
      obtain rfl := hdb.eq_of_msgId hold hmem hid
      unfold DBManager.markDelivered
      rw [if_pos hundelivered]
  · rw [DBManager.getOfflineMessages_of_nonpos huid]
    apply h.did (by simp) (Int.le_refl _) (fun _ _ hall => hall)
      (fun _ _ _ _ _ _ heq => by cases (Sigma.mk.inj heq).1)
    intro user rows heq row hrow
    obtain rfl := eq_of_heq (Sigma.mk.inj heq).2
    cases hrow

theorem once_saveMessage {db : Db} {history : List Event} {sqlite : Sqlite} {fromUid toUid : Int}
    {content timestamp : Bytes} (h : Once db history) :
    Once (DBManager.saveMessage sqlite fromUid toUid content timestamp db).2
      (.did ⟨.saveMessage fromUid toUid content timestamp,
        (DBManager.saveMessage sqlite fromUid toUid content timestamp db).1⟩ :: history) := by
  rcases DBManager.saveMessage_cases sqlite db fromUid toUid content timestamp with heq | heq
  · rw [heq]
    refine h.did (by simp) (Int.le_refl _) (fun _ _ hall => hall)
      (fun _ _ _ _ msgId hpos hcall => ?_) fun _ _ hcall => by cases (Sigma.mk.inj hcall).1
    have hid : -1 = msgId := eq_of_heq (Sigma.mk.inj hcall).2
    omega
  · rw [heq]
    refine h.did (by simp) (Int.le_of_lt (Int.lt_succ _)) (fun msgId hle hall row hrow hid => ?_)
      (fun _ _ _ _ msgId hpos hcall => ?_) fun _ _ hcall => by cases (Sigma.mk.inj hcall).1
    · rcases List.mem_append.mp hrow with hold | hnew
      · exact hall row hold hid
      · obtain rfl := List.mem_singleton.mp hnew
        dsimp only at hid
        omega
    · have hid : db.lastMsgId + 1 = msgId := eq_of_heq (Sigma.mk.inj hcall).2
      dsimp only
      omega

/-- **The worker's operations keep the invariant**, when they meet the condition. -/
theorem once_perform {world : World} {node : LogicNode} {input : Input} {op : Op}
    (h : Once world.db world.history) (hdb : world.db.WellFormed) (hfine : input.sqlite = .fine)
    (hunpushed : ∀ uid, op = .getOfflineMessages uid → ∀ row ∈ world.db.messages,
      DBManager.undelivered uid row = true → sentByChat row.msgId world.history = false)
    (hwarrant : Warrants platform node world.trace op) :
    Once (perform platform input op world).2.db
      (.did ⟨op, (perform platform input op world).1⟩ :: world.history) := by
  by_cases hpush : ∃ session payload sent, op = .push session payload sent
  · obtain ⟨session, payload, sent, rfl⟩ := hpush
    rw [db_perform _ _ _ _ (by simp) (by simp) (by simp) (by simp)]
    exact h.push hwarrant
  have hpush : ∀ session payload sent, op ≠ .push session payload sent :=
    fun session payload sent heq => hpush ⟨session, payload, sent, heq⟩
  by_cases hoffline : ∃ uid, op = .getOfflineMessages uid
  · obtain ⟨uid, rfl⟩ := hoffline
    rw [perform, hfine]
    exact once_getOfflineMessages h hdb (hunpushed uid rfl)
  by_cases hsave : ∃ fromUid toUid content timestamp,
      op = .saveMessage fromUid toUid content timestamp
  · obtain ⟨fromUid, toUid, content, timestamp, rfl⟩ := hsave
    exact once_saveMessage h
  obtain ⟨hmessages, hlast⟩ := messages_perform platform input op world
    (fun _ _ _ _ heq => hsave ⟨_, _, _, _, heq⟩) fun _ heq => hoffline ⟨_, heq⟩
  refine h.did hpush (Int.le_of_eq hlast.symm) (fun msgId _ hall => ?_)
    (fun _ _ _ _ _ _ heq => absurd ⟨_, _, _, _, (Sigma.mk.inj heq).1⟩ hsave)
    fun _ _ heq => absurd ⟨_, (Sigma.mk.inj heq).1⟩ hoffline
  unfold AllDelivered
  rw [hmessages]
  exact hall

/-- The runs with no SQLite failure in which every fetch meets the condition. -/
abbrev fetchesUnpushed : Label → State → Prop :=
  OpsMeet (fun input op state => input.sqlite = .fine ∧ FetchesUnpushed op state) fun _ _ _ => True

theorem once_of_reaches {state : State} (hreach : Reaches platform fetchesUnpushed state) :
    Once state.world.db state.world.history := by
  apply invariant_of_moves (fun state => Once state.world.db state.world.history) hreach
    (fun _ => id)
  · rintro _ ⟨db, -, rfl⟩
    exact ⟨fun _ => Nat.zero_le 1, fun _ _ => rfl, fun _ hne => absurd rfl hne,
      fun msgId hholds => absurd hholds (not_holds_nil msgId),
      fun _ msgId hholds => absurd hholds (not_holds_nil msgId), fun _ _ hmem => by cases hmem⟩
  · intro state state' h hquiet
    rw [hquiet.db, hquiet.history]
    exact h
  · exact fun state node rest _ h _ => h.dispatched
  · intro state input op next node hreached h hok hworker _ hwarrant
    obtain ⟨hfine, hunpushed⟩ := hok op next hworker
    rw [history_workStep]
    refine once_perform h (grounded_of_reaches hreached).db hfine ?_ hwarrant
    rintro uid rfl
    exact hunpushed
  · intro state thread session pos _ h _ _
    rw [db_ioStep, history_ioStep]
    exact h

/-- **At-most-once delivery**, when every fetch meets the condition: no message is carried by two
frames that were accepted into send queues. -/
theorem carried_at_most_once {state : State} (hreach : Reaches platform fetchesUnpushed state)
    (msgId : Int) : carried msgId state.world.history ≤ 1 :=
  (once_of_reaches hreach).once msgId

def testFetchesUnpushed : Op → State → Bool
  | .getOfflineMessages uid, state => state.world.db.messages.all fun row =>
      !(DBManager.undelivered uid row && sentByChat row.msgId state.world.history)
  | _, _ => true

theorem fetchesUnpushed_of_test {label : Label} {state : State}
    (hidle : ∀ input, label = .work input → input = .idle)
    (htest : testOps testFetchesUnpushed (fun _ _ => true) label state = true) :
    fetchesUnpushed label state := by
  refine opsMeet_of_test (fun op hop => ⟨rfl, ?_⟩) (fun _ _ _ => trivial) hidle htest
  cases op with
  | getOfflineMessages uid =>
    intro row hrow hundelivered
    rw [testFetchesUnpushed, List.all_eq_true] at hop
    simpa [hundelivered] using hop row hrow
  | _ => trivial

/-- Ann logs in, gets the message that waits for her, and asks for her messages again. -/
def pullScript : List Act :=
  [.accept 0, .post 0 MSG_LOGIN_REQ (credentials "ann"), .serve 9,
    .post 0 MSG_OFFLINE_MSG_REQ (credentials "ann"), .serve 4]

theorem carried_at_most_once_pull : 0 < carried 1 (played backlogDb pullScript).world.history ∧
    carried 1 (played backlogDb pullScript).world.history ≤ 1 := by
  obtain ⟨hplays, hcarried⟩ :
      plays (testOps testFetchesUnpushed fun _ _ => true) backlogDb pullScript = true ∧
      0 < carried 1 (played backlogDb pullScript).world.history := by decide +kernel
  have hreach := reaches_of_plays (fun _ _ hidle _ => fetchesUnpushed_of_test hidle)
    backlogDb_wellFormed hplays
  exact ⟨hcarried, carried_at_most_once hreach 1⟩

def savedIds : List Event → List Int
  | [] => []
  | .did ⟨.saveMessage _ _ _ _, msgId⟩ :: earlier => msgId :: savedIds earlier
  | _ :: earlier => savedIds earlier

/-- Ann sends bob a message, which is pushed to him, and then he asks for his messages. -/
def chatPullScript : List Act :=
  [.accept 0, .accept 1, .post 0 MSG_LOGIN_REQ (credentials "bob"), .serve 7,
    .post 1 MSG_LOGIN_REQ (credentials "ann"), .serve 7,
    .post 1 MSG_SEND_CHAT_REQ (chatBody 2), .serve 8,
    .post 0 MSG_OFFLINE_MSG_REQ (credentials "bob"), .serve 4]

/-- Without the condition, a message is carried by two frames. -/
theorem carried_twice :
    ¬∀ db, db.WellFormed → ∀ state, ReachesFrom reference db sqliteFine state →
      ∀ msgId ∈ savedIds state.world.history, carried msgId state.world.history ≤ 1 := by
  intro h
  obtain ⟨hplays, hsaved, htwice⟩ :
      plays (testOps (fun _ _ => true) fun _ _ => true) quietDb chatPullScript = true ∧
      (1 : Int) ∈ savedIds (played quietDb chatPullScript).world.history ∧
      ¬carried 1 (played quietDb chatPullScript).world.history ≤ 1 := by decide +kernel
  exact htwice (h quietDb quietDb_wellFormed (played quietDb chatPullScript)
    (reachesFine_of_plays quietDb_wellFormed hplays) 1 hsaved)

end CoroutineServer
