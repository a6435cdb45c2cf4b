import CoroutineServer.Proof.Ledger
import CoroutineServer.Proof.Traces
import CoroutineServer.Scenario

/-!
# The content of a message

A message that has been saved has three copies of its content: the row, the frame that pushes it, and
what a fetch returns. The frame is made from the string of the request, the row from the C string of it,
so the copies agree with the request exactly when the content has no NUL.
-/

namespace CoroutineServer

open Program CSession

variable {platform : Platform}

/-! ### The stored content -/

def Db.entries (db : Db) : List (Int × Bytes) := db.messages.map fun row => (row.msgId, row.content)

/-- The entries of the table that a call shows: those it has made or read. -/
def shownEntries : Call Op Op.Ret → List (Int × Bytes)
  | ⟨.saveMessage _ _ content _, (msgId : Int)⟩ => if 0 ≤ msgId then [(msgId, cstr content)] else []
  | ⟨.getOfflineMessages _, (rows : List MessageRow)⟩ => rows.map fun row => (row.msgId, row.content)
  | _ => []

theorem entries_markDelivered (db : Db) (uid : Int) :
    ({ db with messages := db.messages.map (DBManager.markDelivered uid) } : Db).entries
      = db.entries := by
  unfold Db.entries
  rw [List.map_map]
  apply List.map_congr_left
  intro row _
  obtain ⟨hid, hcontent, -⟩ := Db.WellFormed.markDelivered_msgId uid row
  exact Prod.ext hid hcontent

theorem entries_perform (platform : Platform) (input : Input) (op : Op) (world : World) :
    world.db.entries ⊆ (perform platform input op world).2.db.entries ∧
      shownEntries ⟨op, (perform platform input op world).1⟩
        ⊆ (perform platform input op world).2.db.entries := by
  cases op with
  | saveMessage fromUid toUid content timestamp =>
    rw [perform]
    dsimp only
    rcases DBManager.saveMessage_cases input.sqlite world.db fromUid toUid content timestamp
      with heq | heq
    · rw [heq]
      exact ⟨List.Subset.refl _, List.nil_subset _⟩
    · rw [heq]
      unfold Db.entries
      rw [List.map_append]
      refine ⟨List.subset_append_left _ _, fun entry hentry => List.mem_append_right _ ?_⟩
      rw [shownEntries] at hentry
      split_ifs at hentry
      · exact hentry
      · cases hentry
  | getOfflineMessages uid =>
    rw [perform]
    dsimp only
    have hentries : (DBManager.getOfflineMessages input.sqlite uid world.db).2.entries
        = world.db.entries := by
      rcases DBManager.getOfflineMessages_cases input.sqlite world.db uid with heq | ⟨-, heq⟩
      · rw [heq]
      · rw [heq, entries_markDelivered]
    rw [hentries]
    refine ⟨List.Subset.refl _, fun entry hentry => ?_⟩
    obtain ⟨row, hrow, rfl⟩ := List.mem_map.mp hentry
    exact List.mem_map_of_mem (DBManager.mem_getOfflineMessages hrow).1
  | _ =>
    refine ⟨?_, List.nil_subset _⟩
    unfold Db.entries
    rw [(messages_perform platform input _ world (by simp) (by simp)).1]
    exact List.Subset.refl _

theorem shownEntries_of_reaches {ok : Label → State → Prop} {state : State}
    (hreach : Reaches platform ok state) :
    ∀ call, Event.did call ∈ state.world.history → shownEntries call ⊆ state.world.db.entries := by
  apply invariant_of_moves (fun state => ∀ call, Event.did call ∈ state.world.history →
    shownEntries call ⊆ state.world.db.entries) hreach (fun _ => id)
  · rintro _ ⟨db, -, rfl⟩ call hcall
    cases hcall
  · intro state state' h hquiet
    rw [hquiet.history, hquiet.db]
    exact h
  · intro state node rest _ h _ call hcall
    rcases List.mem_cons.mp hcall with heq | hcall
    · cases heq
    · exact h call hcall
  · intro state input op next node _ h _ _ _ _ call hcall
    rw [history_workStep] at hcall
    obtain ⟨hkept, hshown⟩ := entries_perform platform input op state.world
    rcases List.mem_cons.mp hcall with heq | hcall
    · rw [Event.did.inj heq]
      exact hshown
    · exact List.Subset.trans (h call hcall) hkept
  · intro state thread session pos _ h _ _
    rw [history_ioStep, db_ioStep]
    exact h

/-! ### The saved messages -/

/-- The messages a run has saved, newest first, each with the content of its request. -/
def savedMessages : List Event → List (Int × Bytes)
  | [] => []
  | .did ⟨.saveMessage _ _ content _, (msgId : Int)⟩ :: earlier =>
      if 0 ≤ msgId then (msgId, content) :: savedMessages earlier else savedMessages earlier
  | _ :: earlier => savedMessages earlier

theorem savedMessages_did {op : Op} {result : op.Ret}
    (hop : ∀ fromUid toUid content timestamp, op ≠ .saveMessage fromUid toUid content timestamp)
    (earlier : List Event) :
    savedMessages (.did ⟨op, result⟩ :: earlier) = savedMessages earlier := by
  cases op with
  | saveMessage fromUid toUid content timestamp =>
    exact absurd rfl (hop fromUid toUid content timestamp)
  | _ => rfl

theorem mem_savedMessages {fromUid toUid msgId : Int} {content timestamp : Bytes}
    {history : List Event} (hsaved : 0 ≤ msgId)
    (hmem : Event.did ⟨.saveMessage fromUid toUid content timestamp, msgId⟩ ∈ history) :
    (msgId, content) ∈ savedMessages history := by
  induction history with
  | nil => cases hmem
  | cons event earlier ih =>
    rcases List.mem_cons.mp hmem with rfl | hmem
    · rw [savedMessages, if_pos hsaved]
      exact List.mem_cons_self
    · rw [savedMessages.eq_def]
      split
      · contradiction
      · next heq =>
        obtain ⟨-, rfl⟩ := List.cons.inj heq
        split_ifs
        · exact List.mem_cons_of_mem _ (ih hmem)
        · exact ih hmem
      · next heq =>
        obtain ⟨-, rfl⟩ := List.cons.inj heq
        exact ih hmem

/-- Ids are given out in ascending order, and the last one given is known to the table. -/
structure Numbered (world : World) : Prop where
  ascending : (savedMessages world.history).Pairwise fun newer older => older.1 < newer.1
  le_last : ∀ saved ∈ savedMessages world.history, saved.1 ≤ world.db.lastMsgId

theorem Numbered.perform {world : World} (h : Numbered world) (input : Input) (op : Op) :
    Numbered ((perform platform input op world).2.record
      (.did ⟨op, (perform platform input op world).1⟩)) := by
  by_cases hsave : ∃ fromUid toUid content timestamp, op = .saveMessage fromUid toUid content timestamp
  · obtain ⟨fromUid, toUid, content, timestamp, rfl⟩ := hsave
    refine ⟨?_, ?_⟩ <;> rw [World.history_record, perform_history]
    all_goals
      rw [CoroutineServer.perform]
      dsimp only
      rcases DBManager.saveMessage_cases input.sqlite world.db fromUid toUid content timestamp
        with heq | heq <;> rw [heq, savedMessages]
    · exact h.ascending
    · split_ifs
      · refine .cons (fun older holder => ?_) h.ascending
        have := h.le_last older holder
        dsimp only
        omega
      · exact h.ascending
    · exact h.le_last
    · have hold : ∀ saved ∈ savedMessages world.history, saved.1 ≤ world.db.lastMsgId + 1 :=
        fun saved hsaved => by
          have := h.le_last saved hsaved
          omega
      intro saved hsaved
      split_ifs at hsaved
      · rcases List.mem_cons.mp hsaved with rfl | hsaved
        · exact Int.le_refl _
        · exact hold saved hsaved
      · exact hold saved hsaved
  have hsame : savedMessages ((CoroutineServer.perform platform input op world).2.record
      (.did ⟨op, (CoroutineServer.perform platform input op world).1⟩)).history
        = savedMessages world.history := by
    rw [World.history_record, perform_history, savedMessages_did]
    exact fun fromUid toUid content timestamp heq => hsave ⟨_, _, _, _, heq⟩
  have hlast : (CoroutineServer.perform platform input op world).2.db.lastMsgId
      = world.db.lastMsgId := by
    by_cases hfetch : ∃ uid, op = .getOfflineMessages uid
    · obtain ⟨uid, rfl⟩ := hfetch
      rw [CoroutineServer.perform]
      dsimp only
      rcases DBManager.getOfflineMessages_cases input.sqlite world.db uid with heq | ⟨-, heq⟩ <;>
        rw [heq]
    · exact (messages_perform platform input op world
        (fun fromUid toUid content timestamp heq => hsave ⟨_, _, _, _, heq⟩)
        (fun uid heq => hfetch ⟨uid, heq⟩)).2
  refine ⟨?_, ?_⟩
  · rw [hsame]
    exact h.ascending
  · rw [hsame, World.db_record, hlast]
    exact h.le_last

theorem numbered_of_reaches {ok : Label → State → Prop} {state : State}
    (hreach : Reaches platform ok state) : Numbered state.world := by
  apply invariant_of_moves (fun state => Numbered state.world) hreach (fun _ => id)
  · rintro _ ⟨db, -, rfl⟩
    exact ⟨.nil, fun saved hsaved => (by cases hsaved)⟩
  · intro state state' h hquiet
    refine ⟨?_, ?_⟩
    · rw [hquiet.history]
      exact h.ascending
    · rw [hquiet.history, hquiet.db]
      exact h.le_last
  · exact fun state node rest _ h _ => ⟨h.ascending, h.le_last⟩
  · intro state input op next node hreached h _ _ _ _
    exact h.perform input op
  · intro state thread session pos _ h _ _
    refine ⟨?_, ?_⟩
    · rw [history_ioStep]
      exact h.ascending
    · rw [history_ioStep, db_ioStep]
      exact h.le_last

theorem Numbered.content_eq {world : World} (h : Numbered world) {msgId : Int} {content other : Bytes}
    (hcontent : (msgId, content) ∈ savedMessages world.history)
    (hother : (msgId, other) ∈ savedMessages world.history) : content = other := by
  have hsame := h.ascending.imp fun {newer older} hlt heq =>
    (absurd heq (Int.ne_of_gt hlt) : newer = older)
  have hflip := h.ascending.imp fun {newer older} hlt heq =>
    (absurd heq (Int.ne_of_lt hlt) : older = newer)
  have heq := hsame.forall_of_forall_of_flip (fun _ _ _ => rfl) hflip hcontent hother rfl
  exact (Prod.mk.inj heq).2

/-! ### The three copies -/

/-- The row of a message, the frames that push it and what fetches have returned for it all have one
content. -/
structure Faithful (world : World) (msgId : Int) (content : Bytes) : Prop where
  stored : ∃ row ∈ world.db.messages, row.msgId = msgId ∧ row.content = content
  pushed : ∀ session fromUid toUid other timestamp sent accepted,
    Event.did ⟨.push session (.chatMsgPush msgId fromUid toUid other timestamp) sent, accepted⟩
      ∈ world.history → other = content
  fetched : ∀ uid rows, Event.did ⟨.getOfflineMessages uid, rows⟩ ∈ world.history →
    ∀ row ∈ rows, row.msgId = msgId → row.content = content

theorem did_mem_of_mem_trace {history : List Event} {call : Call Op Op.Ret}
    (h : call ∈ handlerTrace history) : Event.did call ∈ history := by
  induction history with
  | nil => cases h
  | cons event earlier ih =>
    cases event with
    | dispatched node => cases h
    | did other =>
      rcases List.mem_cons.mp h with rfl | h
      · exact List.mem_cons_self
      · exact List.mem_cons_of_mem _ (ih h)

theorem saved_of_pushed {ok : Label → State → Prop} {state : State} {session : Sid}
    {msgId fromUid toUid : Int} {content timestamp : Bytes} {sent : SendNode} {accepted : Bool}
    (hreach : Reaches platform ok state)
    (hpush : Event.did ⟨.push session (.chatMsgPush msgId fromUid toUid content timestamp) sent,
      accepted⟩ ∈ state.world.history) :
    (msgId, content) ∈ savedMessages state.world.history := by
  obtain ⟨later, earlier, hhistory⟩ := List.append_of_mem hpush
  obtain ⟨node, -, msgid, msg, before, htrace, hsends, -⟩ :=
    throughout_iff.mp (warranted_of_reaches hreach) later _ earlier hhistory _ rfl
  cases hsends with
  | @chatPush _ _ _ _ tm _ _ _ hsaved =>
    have hcall : (⟨.saveMessage fromUid toUid content (strftime tm), msgId⟩ : Call Op Op.Ret)
        ∈ handlerTrace earlier := by
      rw [htrace]
      simp [chatTrace]
    refine mem_savedMessages hsaved (?_ : Event.did ⟨.saveMessage fromUid toUid content (strftime tm),
      msgId⟩ ∈ state.world.history)
    rw [hhistory]
    exact List.mem_append_right _ (List.mem_cons_of_mem _ (did_mem_of_mem_trace hcall))

theorem faithful_iff {ok : Label → State → Prop} {state : State} {msgId fromUid toUid : Int}
    {content timestamp : Bytes} (hreach : Reaches platform ok state) (haccepted : 0 ≤ msgId)
    (hsave : Event.did ⟨.saveMessage fromUid toUid content timestamp, msgId⟩ ∈ state.world.history) :
    Faithful state.world msgId content ↔ 0 ∉ content := by
  have hdb := (grounded_of_reaches hreach).db
  have hshown := shownEntries_of_reaches hreach
  have hentry : (msgId, cstr content) ∈ state.world.db.entries := by
    apply hshown _ hsave
    rw [shownEntries, if_pos haccepted]
    exact List.mem_singleton_self _
  obtain ⟨row, hrow, heq⟩ := List.mem_map.mp hentry
  obtain ⟨hid, hcontent⟩ := Prod.mk.inj heq
  constructor
  · intro hfaithful
    obtain ⟨other, hother, hotherId, hotherContent⟩ := hfaithful.stored
    obtain rfl := hdb.eq_of_msgId hrow hother (hid.trans hotherId.symm)
    exact cstr_eq_self_iff.mp (hcontent.symm.trans hotherContent)
  · intro hnul
    have hwhole : cstr content = content := cstr_eq_self hnul
    refine ⟨⟨row, hrow, hid, hcontent.trans hwhole⟩, ?_, ?_⟩
    · intro session sender receiver other stamp sent accepted hpush
      exact (numbered_of_reaches hreach).content_eq (saved_of_pushed hreach hpush)
        (mem_savedMessages haccepted hsave)
    · intro uid rows hfetch fetched hfetched hfetchedId
      obtain ⟨kept, hkept, hkeptEq⟩ := List.mem_map.mp
        (hshown _ hfetch (List.mem_map_of_mem hfetched))
      obtain ⟨hkeptId, hkeptContent⟩ := Prod.mk.inj hkeptEq
      obtain rfl := hdb.eq_of_msgId hrow hkept (hid.trans (hkeptId.trans hfetchedId).symm)
      exact (hkeptContent.symm.trans hcontent).trans hwhole

/-- **The content of a message** is that of its request in every copy if and only if it has no NUL. For
each message that a run has saved, a chat request was served that asked for it, and the row, the frames
that push the message and the rows fetched with its id all have the content of that request just if no
byte of it is zero. -/
theorem contents_faithful {ok : Label → State → Prop} {state : State} {msgId fromUid toUid : Int}
    {content timestamp : Bytes} {later earlier : List Event} (hreach : Reaches platform ok state)
    (hhistory : state.world.history
      = later ++ .did ⟨.saveMessage fromUid toUid content timestamp, msgId⟩ :: earlier)
    (haccepted : 0 ≤ msgId) :
    (∃ node, served earlier = some node ∧ node.msgId = MSG_SEND_CHAT_REQ ∧
        Requests platform node.data toUid content) ∧
      (Faithful state.world msgId content ↔ 0 ∉ content) := by
  obtain ⟨node, hserved, -, ⟨-, hreq, hrequests⟩, -⟩ :=
    throughout_iff.mp (warranted_of_reaches hreach) later _ earlier hhistory _ rfl
  have hsave : Event.did ⟨.saveMessage fromUid toUid content timestamp, msgId⟩
      ∈ state.world.history := by
    rw [hhistory]
    exact List.mem_append_right _ List.mem_cons_self
  exact ⟨⟨node, hserved, hreq, hrequests⟩, faithful_iff hreach haccepted hsave⟩

theorem exists_of_mem_savedMessages {msgId : Int} {content : Bytes} {history : List Event}
    (h : (msgId, content) ∈ savedMessages history) :
    0 ≤ msgId ∧ ∃ fromUid toUid timestamp later earlier, history
      = later ++ .did ⟨.saveMessage fromUid toUid content timestamp, msgId⟩ :: earlier := by
  induction history with
  | nil => cases h
  | cons event earlier ih =>
    have hlift : (msgId, content) ∈ savedMessages earlier → 0 ≤ msgId ∧
        ∃ fromUid toUid timestamp later before, event :: earlier
          = later ++ .did ⟨.saveMessage fromUid toUid content timestamp, msgId⟩ :: before := by
      intro hmem
      obtain ⟨hsaved, fromUid, toUid, timestamp, later, before, rfl⟩ := ih hmem
      exact ⟨hsaved, fromUid, toUid, timestamp, event :: later, before, rfl⟩
    rw [savedMessages.eq_def] at h
    split at h
    · contradiction
    · next heq =>
      obtain ⟨rfl, rfl⟩ := List.cons.inj heq
      split_ifs at h with hsaved
      · rcases List.mem_cons.mp h with heq | hmem
        · obtain ⟨rfl, rfl⟩ := Prod.mk.inj heq
          exact ⟨hsaved, _, _, _, [], _, rfl⟩
        · exact hlift hmem
      · exact hlift h
    · next heq =>
      obtain ⟨rfl, rfl⟩ := List.cons.inj heq
      exact hlift h

theorem contents_faithful_chat :
    Faithful (played quietDb chatScript).world 1 (ascii "hello") := by
  obtain ⟨hplays, hmem⟩ : plays (fun _ _ => true) quietDb chatScript = true ∧
      ((1 : Int), ascii "hello") ∈ savedMessages (played quietDb chatScript).world.history := by
    decide +kernel
  obtain ⟨haccepted, fromUid, toUid, timestamp, later, earlier, hhistory⟩ :=
    exists_of_mem_savedMessages hmem
  have hreach := reached_of_plays quietDb_wellFormed hplays
  exact (contents_faithful hreach hhistory haccepted).2.mpr (by decide)

/-! ### A content with a NUL -/

/-- The body of a chat request whose content has a NUL in it, which JSON writes as an escape. -/
def nulBody : Json :=
  Json.null
    |>.set "to_uid" (.number 1)
    |>.set "content" (.string (ascii "pay 10" ++ 0 :: ascii "0"))

theorem nulRequests_wellFormed : ∀ root ∈ [credentials "bob", nulBody], root.WellFormed := by
  intro root hroot
  simp only [List.mem_cons, List.not_mem_nil, or_false] at hroot
  rcases hroot with rfl | rfl
  · exact (Json.WellFormed.null.set_text (by decide) (by decide)).set_text (by decide) (by decide)
  · exact (Json.WellFormed.null.set_number (by decide)).set (.of_ascii (by decide))
      (.string (.of_ascii (by decide)))

abbrev nulPlatform : Platform := .reading [credentials "bob", nulBody] nulRequests_wellFormed

/-- Bob logs in and sends the message. -/
def nulScript : List Act :=
  [.accept 0, .post 0 MSG_LOGIN_REQ (credentials "bob"), .serve 7, .post 0 MSG_SEND_CHAT_REQ nulBody,
    .serve 6]

/-- The stored content ends before the NUL. -/
theorem contents_truncated :
    ¬∀ state msgId content, Reaches nulPlatform (fun _ _ => True) state →
      (msgId, content) ∈ savedMessages state.world.history → Faithful state.world msgId content := by
  intro h
  have hreach : Reaches nulPlatform (fun _ _ => True)
      (Reach.after (step nulPlatform) (nulScript.flatMap Act.labels) (.initial quietDb)) :=
    .of_enabled ⟨quietDb, quietDb_wellFormed, rfl⟩ (by decide +kernel)
  obtain ⟨row, hrow, -, hcontent⟩ :=
    (h _ 1 (ascii "pay 10" ++ 0 :: ascii "0") hreach (by decide +kernel)).stored
  revert row
  decide +kernel

end CoroutineServer
