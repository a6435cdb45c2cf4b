import CoroutineServer.Calls
import CoroutineServer.Proof.Runs

/-!
# The tables and the history

Every row that a run has inserted, and every row it has marked delivered, has its call in the history.
The statements start from the database a run starts on. When SQLite does not fail, the history contains
the sequence of calls that has led to the tables.
-/

namespace CoroutineServer

open Program CSession

variable {platform : Platform}

theorem messages_perform (platform : Platform) (input : Input) (op : Op) (world : World)
    (hsave : ∀ fromUid toUid content timestamp, op ≠ .saveMessage fromUid toUid content timestamp)
    (hoffline : ∀ uid, op ≠ .getOfflineMessages uid) :
    (perform platform input op world).2.db.messages = world.db.messages ∧
      (perform platform input op world).2.db.lastMsgId = world.db.lastMsgId := by
  cases op with
  | registerUser username password =>
    rw [perform]
    rcases DBManager.registerUser_cases platform input.sqlite world.db username password
      with heq | heq <;>
    · rw [heq]
      exact ⟨rfl, rfl⟩
  | addFriend uid friendUid =>
    rw [perform]
    rcases DBManager.addFriend_cases input.sqlite world.db uid friendUid with heq | heq <;>
    · rw [heq]
      exact ⟨rfl, rfl⟩
  | saveMessage fromUid toUid content timestamp =>
    exact absurd rfl (hsave fromUid toUid content timestamp)
  | getOfflineMessages uid => exact absurd rfl (hoffline uid)
  | _ =>
    rw [db_perform _ _ _ _ (by simp) (by simp) (by simp) (by simp)]
    exact ⟨rfl, rfl⟩

/-- A message row after one operation: it was there before, it is the one the operation saves, or the
operation has marked it delivered. -/
theorem mem_messages_perform {input : Input} {op : Op} {world : World} {row : MessageRow}
    (h : row ∈ (perform platform input op world).2.db.messages) :
    row ∈ world.db.messages ∨
    (row.delivered = false ∧ ∃ content timestamp,
      (⟨op, (perform platform input op world).1⟩ : Call Op Op.Ret)
        = ⟨.saveMessage row.fromUid row.toUid content timestamp, row.msgId⟩) ∨
    (row.delivered = true ∧ ∃ uid, op = .getOfflineMessages uid ∧
      { row with delivered := false } ∈ world.db.messages ∧
      (input.sqlite = .fine → ∃ rows, { row with delivered := false } ∈ rows ∧
        (⟨op, (perform platform input op world).1⟩ : Call Op Op.Ret)
          = ⟨.getOfflineMessages uid, rows⟩)) := by
  cases op with
  | saveMessage fromUid toUid content timestamp =>
    rw [perform] at h ⊢
    rcases DBManager.saveMessage_cases input.sqlite world.db fromUid toUid content timestamp
      with heq | heq
    · rw [heq] at h
      exact .inl h
    · rw [heq] at h ⊢
      rcases List.mem_append.mp h with hold | hnew
      · exact .inl hold
      · obtain rfl := List.mem_singleton.mp hnew
        exact .inr (.inl ⟨rfl, content, timestamp, rfl⟩)
  | getOfflineMessages uid =>
    rw [perform] at h ⊢
    rcases DBManager.getOfflineMessages_cases input.sqlite world.db uid with heq | ⟨huid, heq⟩
    · dsimp only at h
      rw [heq] at h
      exact .inl h
    · dsimp only at h
      rw [heq] at h
      obtain ⟨old, hold, rfl⟩ := List.mem_map.mp h
      by_cases hundelivered : DBManager.undelivered uid old = true
      · have hback : { DBManager.markDelivered uid old with delivered := false } = old := by
          have hfalse : old.delivered = false := by
            simp only [DBManager.undelivered, decide_eq_true_eq] at hundelivered
            exact hundelivered.2
          unfold DBManager.markDelivered
          rw [if_pos hundelivered]
          cases old
          cases hfalse
          rfl
        have htrue : (DBManager.markDelivered uid old).delivered = true := by
          unfold DBManager.markDelivered
          rw [if_pos hundelivered]
        rw [hback]
        refine .inr (.inr ⟨htrue, uid, rfl, hold, fun hfine => ⟨_, ?_, rfl⟩⟩)
        dsimp only
        rw [hfine]
        rw [DBManager.getOfflineMessages_fine huid]
        exact List.mem_filter.mpr ⟨hold, hundelivered⟩
      · refine .inl ?_
        unfold DBManager.markDelivered
        rwa [if_neg hundelivered]
  | _ =>
    rw [(messages_perform platform input _ world (by simp) (by simp)).1] at h
    exact .inl h

theorem mem_friends_perform {input : Input} {op : Op} {world : World} {row : FriendRow}
    (h : row ∈ (perform platform input op world).2.db.friends) :
    row ∈ world.db.friends ∨ (⟨op, (perform platform input op world).1⟩ : Call Op Op.Ret)
      = ⟨.addFriend row.uid row.friendUid, true⟩ := by
  cases op with
  | saveMessage fromUid toUid content timestamp =>
    rw [perform] at h
    rcases DBManager.saveMessage_cases input.sqlite world.db fromUid toUid content timestamp
      with heq | heq <;>
    · rw [heq] at h
      exact .inl h
  | getOfflineMessages uid =>
    rw [perform] at h
    dsimp only at h
    rcases DBManager.getOfflineMessages_cases input.sqlite world.db uid with heq | ⟨-, heq⟩ <;>
    · rw [heq] at h
      exact .inl h
  | registerUser username password =>
    rw [perform] at h
    rcases DBManager.registerUser_cases platform input.sqlite world.db username password
      with heq | heq <;>
    · rw [heq] at h
      exact .inl h
  | addFriend uid friendUid =>
    rw [perform] at h ⊢
    rcases DBManager.addFriend_cases input.sqlite world.db uid friendUid with heq | heq
    · rw [heq] at h
      exact .inl h
    · rw [heq] at h ⊢
      rcases List.mem_append.mp h with hold | hnew
      · exact .inl hold
      · obtain rfl := List.mem_singleton.mp hnew
        exact .inr rfl
  | _ =>
    rw [db_perform] at h
    · exact .inl h
    all_goals intros; simp

/-- The rows a run has inserted, against its history. -/
structure Recorded (db : Db) (world : World) : Prop where
  message : ∀ row ∈ world.db.messages,
    (∃ old ∈ db.messages, { row with delivered := old.delivered } = old) ∨
      ∃ content timestamp, Event.did
        ⟨.saveMessage row.fromUid row.toUid content timestamp, row.msgId⟩ ∈ world.history
  friend : ∀ row ∈ world.db.friends, row ∈ db.friends ∨
    Event.did ⟨.addFriend row.uid row.friendUid, true⟩ ∈ world.history

theorem Recorded.congr {db : Db} {world world' : World} (h : Recorded db world)
    (hdb : world'.db = world.db) (hhistory : world'.history = world.history) :
    Recorded db world' := by
  refine ⟨?_, ?_⟩
  · rw [hdb, hhistory]
    exact h.message
  · rw [hdb, hhistory]
    exact h.friend

theorem Recorded.perform {db : Db} {world : World} (input : Input) (op : Op)
    (h : Recorded db world) :
    Recorded db ((perform platform input op world).2.record
      (.did ⟨op, (perform platform input op world).1⟩)) := by
  refine ⟨fun row hrow => ?_, fun row hrow => ?_⟩
  · rw [World.history_record, perform_history]
    rcases mem_messages_perform hrow with hold | ⟨-, content, timestamp, hcall⟩ | ⟨-, uid, -, hold, -⟩
    · apply (h.message row hold).imp_right
      rintro ⟨content, timestamp, hmem⟩
      exact ⟨content, timestamp, List.mem_cons_of_mem _ hmem⟩
    · rw [hcall]
      exact .inr ⟨content, timestamp, List.mem_cons_self⟩
    · apply (h.message _ hold).imp id
      rintro ⟨content, timestamp, hmem⟩
      exact ⟨content, timestamp, List.mem_cons_of_mem _ hmem⟩
  · rw [World.history_record, perform_history]
    rcases mem_friends_perform hrow with hold | hcall
    · exact (h.friend row hold).imp_right (List.mem_cons_of_mem _)
    · rw [hcall]
      exact .inr List.mem_cons_self

/-- The rows a run has marked delivered, against its history. -/
def Marked (db : Db) (world : World) : Prop :=
  ∀ row ∈ world.db.messages, row.delivered = true → row ∈ db.messages ∨
    ∃ uid rows, { row with delivered := false } ∈ rows ∧
      Event.did ⟨.getOfflineMessages uid, rows⟩ ∈ world.history

theorem Marked.perform {db : Db} {world : World} {input : Input} (op : Op) (h : Marked db world)
    (hfine : input.sqlite = .fine) :
    Marked db ((CoroutineServer.perform platform input op world).2.record
      (.did ⟨op, (CoroutineServer.perform platform input op world).1⟩)) := by
  intro row hrow hdelivered
  rw [World.history_record, perform_history]
  rcases mem_messages_perform hrow with hold | ⟨hundelivered, -⟩ | ⟨-, uid, -, -, hrows⟩
  · apply (h row hold hdelivered).imp_right
    rintro ⟨uid, rows, hmem, hevent⟩
    exact ⟨uid, rows, hmem, List.mem_cons_of_mem _ hevent⟩
  · rw [hdelivered] at hundelivered
    cases hundelivered
  · obtain ⟨rows, hmem, hcall⟩ := hrows hfine
    rw [hcall]
    exact .inr ⟨uid, rows, hmem, List.mem_cons_self⟩

section Reaches

variable {db : Db} {ok : Label → State → Prop} {state : State}

theorem initial_of_eq (hdb : db.WellFormed) (state : State) (hstart : state = .initial db) :
    Initial state := ⟨db, hdb, hstart⟩

theorem recorded_of_reaches (hdb : db.WellFormed) (hreach : ReachesFrom platform db ok state) :
    Recorded db state.world := by
  apply invariant_of_moves (fun state => Recorded db state.world) hreach (initial_of_eq hdb)
  · rintro _ rfl
    exact ⟨fun row hrow => .inl ⟨row, hrow, rfl⟩, fun row hrow => .inl hrow⟩
  · intro state state' h hquiet
    exact h.congr hquiet.db hquiet.history
  · intro state node rest _ h _
    refine ⟨fun row hrow => ?_, fun row hrow => ?_⟩
    · apply (h.message row hrow).imp_right
      rintro ⟨content, timestamp, hmem⟩
      exact ⟨content, timestamp, List.mem_cons_of_mem _ hmem⟩
    · exact (h.friend row hrow).imp_right (List.mem_cons_of_mem _)
  · intro state input op next node _ h _ _ _ _
    exact h.perform input op
  · intro state thread session pos _ h _ _
    exact h.congr (db_ioStep platform thread session pos state) (history_ioStep ..)

theorem marked_of_reaches (hdb : db.WellFormed) (hreach : ReachesFrom platform db ok state)
    (hfine : ∀ input state op next, ok (.work input) state →
      state.worker = some (.perform op next) → input.sqlite = .fine) :
    Marked db state.world := by
  apply invariant_of_moves (fun state => Marked db state.world) hreach (initial_of_eq hdb)
  · rintro _ rfl row hrow _
    exact .inl hrow
  · intro state state' h hquiet row hrow hdelivered
    rw [hquiet.db] at hrow
    rw [hquiet.history]
    exact h row hrow hdelivered
  · intro state node rest _ h _ row hrow hdelivered
    apply (h row hrow hdelivered).imp_right
    rintro ⟨uid, rows, hmem, hevent⟩
    exact ⟨uid, rows, hmem, List.mem_cons_of_mem _ hevent⟩
  · intro state input op next node _ h hok hworker _ _
    exact h.perform op (hfine input state op next hok hworker)
  · intro state thread session pos _ h _ _ row hrow hdelivered
    rw [db_ioStep] at hrow
    rw [history_ioStep]
    exact h row hrow hdelivered

theorem called_perform {world : World} {input : Input} (op : Op)
    (h : Called platform db (dbTrace world.history) world.db) (hfine : input.sqlite = .fine) :
    Called platform db
      (dbTrace (.did ⟨op, (perform platform input op world).1⟩ :: world.history))
      (perform platform input op world).2.db := by
  obtain ⟨sqlite, tm⟩ := input
  dsimp only at hfine
  subst hfine
  cases op with
  | registerUser username password => exact .cons h rfl
  | loginUser username password => exact .cons h rfl
  | addFriend uid friendUid => exact .cons h rfl
  | getFriendList uid => exact .cons h rfl
  | saveMessage fromUid toUid content timestamp => exact .cons h rfl
  | getOfflineMessages uid => exact .cons h rfl
  | _ =>
    rw [db_perform]
    · exact h
    all_goals intros; simp

/-- **The calls of a run** on the database are a sequence of calls, so the laws of such sequences hold of
the runs in which SQLite does not fail. -/
theorem called_of_reaches (hdb : db.WellFormed)
    (hreach : ReachesFrom platform db sqliteFine state) :
    Called platform db (dbTrace state.world.history) state.world.db := by
  apply invariant_of_moves
    (fun state => Called platform db (dbTrace state.world.history) state.world.db) hreach
    (initial_of_eq hdb)
  · rintro _ rfl
    exact .nil
  · intro state state' h hquiet
    rw [hquiet.history, hquiet.db]
    exact h
  · exact fun state node rest _ h _ => h
  · intro state input op next node _ h hok hworker _ _
    rw [history_workStep]
    exact called_perform op h (hok op next hworker)
  · intro state thread session pos _ h _ _
    rw [history_ioStep, db_ioStep]
    exact h

end Reaches

/-! ### Frames that carry messages -/

/-- The number of frames that carry a message and were accepted into a send queue. -/
def carried (msgId : Int) : List Event → Nat
  | [] => 0
  | .did ⟨.push _ payload _, true⟩ :: earlier =>
      if msgId ∈ payload.carries then carried msgId earlier + 1 else carried msgId earlier
  | _ :: earlier => carried msgId earlier

theorem carried_did {op : Op} {result : op.Ret}
    (hop : ∀ session payload sent, op ≠ .push session payload sent)
    (msgId : Int) (history : List Event) :
    carried msgId (.did ⟨op, result⟩ :: history) = carried msgId history := by
  cases op with
  | push session payload sent => exact absurd rfl (hop session payload sent)
  | _ => rfl

theorem carried_push (session : Sid) (payload : Payload) (sent : SendNode) (accepted : Bool)
    (msgId : Int) (history : List Event) :
    carried msgId (.did ⟨.push session payload sent, accepted⟩ :: history)
      = if accepted = true ∧ msgId ∈ payload.carries then carried msgId history + 1
        else carried msgId history := by
  cases accepted with
  | true =>
    rw [carried]
    simp
  | false => rfl

end CoroutineServer
