import CoroutineServer.Proof.Buffers
import CoroutineServer.Proof.Outline

/-!
# The handlers follow their outlines

One lemma for `Send`, one for `Close`, one for a refused request, and one for each handler from them.
-/

namespace CoroutineServer

open Program LogicSystem

variable {platform : Platform} {node : LogicNode}

theorem call_outline {β : Type} (op : Op) {rest : op.Ret → Handler β} {trace : CallTrace}
    {post : CallTrace → β → Prop} {raised : CallTrace → Exn → Prop}
    (hwarrant : Warrants platform node trace op)
    (hrest : ∀ result, Admits op result →
      Outline (rules platform node) post raised (rest result) (⟨op, result⟩ :: trace)) :
    Outline (rules platform node) post raised (call op >>= rest) trace :=
  Outline.call_bind hwarrant hrest

/-! ### Sending -/

theorem sendNode_ne_error {msg : Bytes} {msgid : Int} {fault : Fault} :
    sendNode msg msgid ≠ some (.error fault) := by
  intro hnode
  obtain ⟨len, -, -, hmax, hmsg, hresult⟩ := sendNode_eq_some hnode
  rw [SendNode.new_eq _ hmax hmsg] at hresult
  cases hresult

theorem send_outline {trace : CallTrace} {session : Sid} {payload : Payload} {msgid : Int}
    {post : CallTrace → Prop} {raised : CallTrace → Exn → Prop}
    (hsends : Sends platform node trace session payload msgid) (htext : payload.TextValid)
    (hpost : ∀ part, Sent platform session payload msgid part → post (part ++ trace)) :
    Outline (rules platform node) (fun trace (_ : Unit) => post trace) raised
      (CSession.send platform session payload msgid) trace := by
  obtain ⟨msg, hdump⟩ := platform.dump_ok _ (Payload.json_wellFormed htext)
  unfold CSession.send
  rw [hdump]
  apply call_outline (.loadStop session payload msgid) hsends
  intro stopped _
  cases stopped with
  | true => exact hpost _ .stopped
  | false =>
    rw [if_neg (by simp)]
    cases hnode : sendNode msg msgid with
    | none => exact hpost _ (.refused hdump hnode)
    | some result =>
      cases result with
      | error fault => exact absurd hnode sendNode_ne_error
      | ok sent =>
        refine call_outline (.push session payload sent)
          ⟨msgid, msg, trace, rfl, hsends, hdump, hnode⟩ fun accepted _ => ?_
        exact hpost _ (.queued accepted hdump hnode)

theorem answer_outline {trace : CallTrace} {session : Sid} {payload : Payload} {msgid : Int}
    {raised : CallTrace → Exn → Prop} (hsends : Sends platform node trace session payload msgid)
    (htext : payload.TextValid) (hanswer : payload.IsAnswer) :
    Outline (rules platform node) (fun trace (_ : Unit) => Finished platform node trace) raised
      (CSession.send platform session payload msgid) trace :=
  send_outline hsends htext fun part hpart =>
    .inr ⟨part, trace, session, payload, msgid, rfl, hpart, hsends, hanswer⟩

theorem refuse_outline {trace : CallTrace} {msg : Bytes} {rspId : Int}
    {raised : CallTrace → Exn → Prop} (hrsp : responseId node.msgId = some rspId)
    (huntouched : Untouched node trace) (hterse : Terse 256 msg) :
    Outline (rules platform node) (fun trace (_ : Unit) => Finished platform node trace) raised
      (CSession.send platform node.session (errorResponse msg) rspId) trace :=
  answer_outline (.refusal hrsp huntouched hterse) hterse.1 trivial

theorem Terse.of_ascii {limit : Nat} {text : Bytes} (h : ∀ byte ∈ text, byte < 0x80)
    (hlength : text.length ≤ limit) : Terse limit text := ⟨.of_ascii h, hlength⟩

theorem Terse.append {first second limit : Nat} {front back : Bytes} (hfront : Terse first front)
    (hback : Terse second back) (hlimit : first + second ≤ limit) : Terse limit (front ++ back) := by
  refine ⟨hfront.1.append hback.1, ?_⟩
  rw [List.length_append]
  exact (Nat.add_le_add hfront.2 hback.2).trans hlimit

/-- An exception leaves the try block of a handler only before anything has been done. -/
def Throws (node : LogicNode) (trace : CallTrace) (what : Exn) : Prop :=
  Untouched node trace ∧ Terse 200 what

theorem answering_outline {trace : CallTrace} {rspId : Int} {body : Handler Unit}
    (hrsp : responseId node.msgId = some rspId)
    (hbody : Outline (rules platform node) (fun trace _ => Finished platform node trace) (Throws node)
      body trace) :
    Outlined platform node (answering platform node.session rspId body) trace := by
  refine Outline.tryCatch (hbody.mono (fun _ _ h => h) fun before what hthrows => ?_)
  apply Outline.tryCatch
  have hprefix : Terse 11 (ascii "exception: ") := .of_ascii (by decide) (by decide)
  exact refuse_outline hrsp hthrows.1 (Terse.append hprefix hthrows.2 (by decide))

/-- A body that is not JSON is refused. -/
theorem parsing_outline {rspId : Int} {invalid : Bytes} {body : Json → Handler Unit}
    {raised : CallTrace → Exn → Prop} (hrsp : responseId node.msgId = some rspId)
    (hinvalid : Terse 256 invalid)
    (hbody : ∀ root, platform.parse node.data = some root →
      Outline (rules platform node) (fun trace _ => Finished platform node trace) raised (body root) []) :
    Outline (rules platform node) (fun trace _ => Finished platform node trace) raised
      (match platform.parse node.data with
        | none => CSession.send platform node.session (errorResponse invalid) rspId
        | some root => body root) [] := by
  cases hparse : platform.parse node.data with
  | none => exact refuse_outline hrsp (.inl rfl) hinvalid
  | some root => exact hbody root hparse

/-- A session without a login is refused. -/
theorem loggedIn_outline {rspId : Int} {refusal : Bytes} {rest : Int → Handler Unit}
    {raised : CallTrace → Exn → Prop} (hrsp : responseId node.msgId = some rspId)
    (hrefusal : Terse 256 refusal)
    (hrest : ∀ uid, uid ≠ 0 →
      Outline (rules platform node) (fun trace _ => Finished platform node trace) raised (rest uid)
        [⟨.getLoginUid node.session, uid⟩]) :
    Outline (rules platform node) (fun trace _ => Finished platform node trace) raised
      (do
        let uid ← call (.getLoginUid node.session)
        if uid = 0 then CSession.send platform node.session (errorResponse refusal) rspId
        else rest uid) [] := by
  refine call_outline (.getLoginUid node.session) ⟨rfl, rfl⟩ fun uid _ => ?_
  split
  · exact refuse_outline hrsp (.inr ⟨uid, rfl⟩) hrefusal
  · next huid => exact hrest uid huid

/-! ### Reading the fields of a request -/

theorem typeName_terse (value : Json) : Terse 7 value.typeName := by
  have hascii : ∀ {name : String}, (∀ byte ∈ ascii name, byte < 0x80) → (ascii name).length ≤ 7 →
      Terse 7 (ascii name) := fun h hlength => .of_ascii h hlength
  cases value <;> exact hascii (by decide) (by decide)

theorem typeMustBe_terse {expected : String} (value : Json) (hexpected : Terse 8 (ascii expected)) :
    Terse 200 (Json.typeMustBe expected value) := by
  have hstart : Terse 45 (ascii "[json.exception.type_error.302] type must be ") :=
    .of_ascii (by decide) (by decide)
  have hbut : Terse 9 (ascii ", but is ") := .of_ascii (by decide) (by decide)
  exact ((hstart.append hexpected (Nat.le_refl _)).append hbut (Nat.le_refl _)).append
    (typeName_terse value) (by decide)

theorem getString_error {value : Json} {what : Exn} (h : value.getString = .error what) :
    Terse 200 what := by
  unfold Json.getString at h
  split at h
  · cases h
  · obtain rfl := Except.error.inj h
    exact typeMustBe_terse _ (.of_ascii (by decide) (by decide))

theorem getInt64_error {truncate : UInt64 → Int} {value : Json} {what : Exn}
    (h : value.getInt64 truncate = .error what) : Terse 200 what := by
  unfold Json.getInt64 at h
  split at h
  · cases h
  · cases h
  · obtain rfl := Except.error.inj h
    exact typeMustBe_terse _ (.of_ascii (by decide) (by decide))

theorem index_error {root : Json} {key : String} {what : Exn} (h : root.index key = .error what) :
    Terse 200 what := by
  unfold Json.index at h
  split at h
  · cases h
  · cases h
  · obtain rfl := Except.error.inj h
    have hstart : Terse 100 (ascii
        "[json.exception.type_error.305] cannot use operator[] with a string argument with ") :=
      .of_ascii (by decide) (by decide)
    exact hstart.append (typeName_terse _) (by decide)

theorem field_outline {α : Type} {root : Json} {key : String} {get : Json → Except Exn α}
    {rest : α → Handler Unit} {trace : CallTrace} (huntouched : Untouched node trace)
    (hget : ∀ value what, get value = .error what → Terse 200 what)
    (hrest : ∀ value, (root.index key).bind get = .ok value →
      Outline (rules platform node) (fun trace _ => Finished platform node trace) (Throws node)
        (rest value) trace) :
    Outline (rules platform node) (fun trace _ => Finished platform node trace) (Throws node)
      (field root key get >>= rest) trace := by
  refine Outline.ofExcept_bind hrest fun what hwhat => ⟨huntouched, ?_⟩
  cases hindex : root.index key with
  | error other =>
    rw [hindex] at hwhat
    obtain rfl := Except.error.inj hwhat
    exact index_error hindex
  | ok value =>
    rw [hindex] at hwhat
    exact hget value what hwhat

theorem field_valid {data : Bytes} {root : Json} {key : String} {text : Bytes}
    (hparse : platform.parse data = some root)
    (htext : (root.index key).bind Json.getString = .ok text) : Utf8.Valid text := by
  have hroot := platform.parse_wellFormed data root hparse
  cases hindex : root.index key with
  | error what =>
    rw [hindex] at htext
    cases htext
  | ok value =>
    rw [hindex] at htext
    exact (hroot.index hindex).getString htext

/-! ### The requests that need no login -/

theorem registerRequest_outline (hreq : node.msgId = MSG_REGISTER_REQ) :
    Outlined platform node (registerRequest platform node.session node.data) [] := by
  have hrsp : responseId node.msgId = some MSG_REGISTER_RSP := by rw [hreq]; rfl
  apply answering_outline hrsp
  refine parsing_outline hrsp (.of_ascii (by decide) (by decide)) fun root _ => ?_
  split
  · exact refuse_outline hrsp (.inl rfl) (.of_ascii (by decide) (by decide))
  apply field_outline (.inl rfl) (fun _ _ => getString_error)
  intro username _
  apply field_outline (.inl rfl) (fun _ _ => getString_error)
  intro password _
  split
  · exact refuse_outline hrsp (.inl rfl) (.of_ascii (by decide) (by decide))
  apply call_outline (.registerUser username password) ⟨hreq, rfl⟩
  intro ok _
  exact answer_outline (.registered hreq) trivial trivial

theorem helloWorldCallBack_outline (hreq : node.msgId = MSG_HELLO_WORLD) :
    Outlined platform node (helloWorldCallBack platform node.session node.data) [] := by
  have hnothing : Finished platform node [] := .inl ⟨rfl, by rw [hreq]; rfl⟩
  apply Outline.tryCatch
  cases hparse : platform.parse node.data with
  | none => exact hnothing
  | some root =>
    dsimp only
    refine Outline.ofExcept_bind (fun id _ => ?_) fun _ _ => hnothing
    refine Outline.ofExcept_bind (fun data hdata => ?_) fun _ _ => hnothing
    refine answer_outline (.echoed hreq) ?_ trivial
    have hroot := platform.parse_wellFormed node.data root hparse
    exact hroot.set (.of_ascii (by decide))
      (.string (Utf8.Valid.append (.of_ascii (by decide)) (field_valid hparse hdata)))

/-! ### Login -/

/-- `Close` of the old session, with everything a login has called before. -/
theorem close_outline {old : Sid} {uid : Int} {looked : CallTrace}
    {raised : CallTrace → Exn → Prop} (hlooked : Looked uid (some old) looked) :
    Outline (rules platform node) (fun trace (_ : Unit) => Kicked uid trace) raised
      (CSession.close old) looked := by
  unfold CSession.close
  apply call_outline (.casStop old) ⟨uid, hlooked⟩
  intro exchanged _
  cases exchanged with
  | false => exact .closed .already hlooked
  | true =>
    rw [if_neg (by simp)]
    apply call_outline (.takeLoginUid old) ⟨uid, looked, hlooked, rfl⟩
    intro taken _
    by_cases htaken : taken = 0
    · rw [if_pos htaken]
      subst htaken
      exact .closed .loggedOut hlooked
    · rw [if_neg htaken]
      refine ⟨⟨htaken, old, uid, looked, hlooked, rfl⟩, fun _ _ => ?_⟩
      exact .closed (.removed htaken) hlooked

theorem closeOld_outline {found : Option Sid} {uid : Int} {looked : CallTrace}
    {raised : CallTrace → Exn → Prop} (hlooked : Looked uid found looked) :
    Outline (rules platform node) (fun trace (_ : Unit) => Kicked uid trace) raised
      (closeOld found) looked := by
  cases found with
  | none => exact .nobody hlooked
  | some old => exact close_outline hlooked

theorem loginPush_outline {uid : Int} {rows : List MessageRow} {kicked : CallTrace}
    (hreq : node.msgId = MSG_LOGIN_REQ) (huid : 0 < uid) (hkicked : Kicked uid kicked)
    (hrows : ∀ row ∈ rows, Utf8.Valid row.content ∧ Utf8.Valid row.timestamp) :
    Outline (rules platform node) (fun trace _ => Finished platform node trace) (Throws node)
      (loginPush platform node.session uid rows) (loginTrace node.session uid rows kicked) := by
  unfold loginPush
  split
  · rename_i hempty
    subst hempty
    exact answer_outline (.loginNoBatch hreq huid hkicked) trivial trivial
  · rename_i hsome
    apply Outline.bind
    apply send_outline (.loginBatch hreq huid hkicked hsome) hrows
    intro part hpart
    exact answer_outline (.loginAfterBatch hreq huid hkicked hsome hpart) trivial trivial

theorem loginAs_outline {uid : Int} {username password : Bytes}
    (hreq : node.msgId = MSG_LOGIN_REQ) (huid : 0 < uid) :
    Outline (rules platform node) (fun trace _ => Finished platform node trace) (Throws node)
      (loginAs platform node.session uid) [⟨.loginUser username password, (true, uid)⟩] := by
  unfold loginAs
  refine call_outline (.getSessionByUid uid) (.inl ⟨username, password, rfl⟩)
    fun found _ => ?_
  refine Outline.bind ((closeOld_outline ⟨username, password, rfl⟩).mono
    (fun kicked _ hkicked => ?_) fun _ _ h => h)
  apply call_outline (.setLoginUid node.session uid) ⟨rfl, huid, hkicked⟩
  intro _ _
  refine call_outline (.addOnlineUser uid node.session) ⟨rfl, huid, kicked, hkicked, rfl⟩
    fun _ _ => ?_
  refine call_outline (.getOfflineMessages uid) (.inr ⟨hreq, huid, kicked, hkicked, rfl⟩)
    fun rows hrows => ?_
  exact loginPush_outline hreq huid hkicked fun row hrow => (hrows row hrow).2.2

theorem loginRequest_outline (hreq : node.msgId = MSG_LOGIN_REQ) :
    Outlined platform node (loginRequest platform node.session node.data) [] := by
  have hrsp : responseId node.msgId = some MSG_LOGIN_RSP := by rw [hreq]; rfl
  apply answering_outline hrsp
  refine parsing_outline hrsp (.of_ascii (by decide) (by decide)) fun root hparse => ?_
  split
  · exact refuse_outline hrsp (.inl rfl) (.of_ascii (by decide) (by decide))
  apply field_outline (.inl rfl) (fun _ _ => getString_error)
  intro username husername
  apply field_outline (.inl rfl) (fun _ _ => getString_error)
  intro password hpassword
  split
  · exact refuse_outline hrsp (.inl rfl) (.of_ascii (by decide) (by decide))
  refine call_outline (.loginUser username password)
    ⟨hreq, rfl, root, hparse, husername, hpassword⟩ fun result hresult => ?_
  obtain ⟨ok, uid⟩ := result
  cases ok with
  | true => exact loginAs_outline hreq (hresult rfl)
  | false => exact answer_outline (.loginFailed hreq) trivial trivial

/-! ### The requests of a user who is logged in -/

theorem getFriendListRequest_outline (hreq : node.msgId = MSG_GET_FRIEND_LIST_REQ) :
    Outlined platform node (getFriendListRequest platform node.session) [] := by
  have hrsp : responseId node.msgId = some MSG_GET_FRIEND_LIST_RSP := by rw [hreq]; rfl
  apply answering_outline hrsp
  refine loggedIn_outline hrsp (.of_ascii (by decide) (by decide)) fun uid huid => ?_
  apply call_outline (.getFriendList uid) ⟨huid, rfl⟩
  intro friends _
  exact answer_outline (.friendList hreq huid) trivial trivial

theorem getOfflineMessageRequest_outline (hreq : node.msgId = MSG_OFFLINE_MSG_REQ) :
    Outlined platform node (getOfflineMessageRequest platform node.session) [] := by
  have hrsp : responseId node.msgId = some MSG_OFFLINE_MSG_RSP := by rw [hreq]; rfl
  apply answering_outline hrsp
  refine loggedIn_outline hrsp (.of_ascii (by decide) (by decide)) fun uid huid => ?_
  refine call_outline (.getOfflineMessages uid) (.inl ⟨hreq, huid, rfl⟩) fun rows hrows => ?_
  exact answer_outline (.offlineBatch hreq huid) (fun row hrow => (hrows row hrow).2.2) rfl

theorem pushFriendRequest_outline {uid friendUid : Int} {rest : Handler Unit}
    (hreq : node.msgId = MSG_ADD_FRIEND_REQ) (huid : uid ≠ 0)
    (hrest : rest = CSession.send platform node.session (.addFriendRsp true) MSG_ADD_FRIEND_RSP) :
    Outline (rules platform node) (fun trace _ => Finished platform node trace) (Throws node)
      (pushFriendRequest platform uid friendUid >>= fun _ => rest)
      (friendTrace node.session uid friendUid true) := by
  subst hrest
  apply Outline.bind
  refine call_outline (.getSessionByUid friendUid) (.inr (.inl ⟨uid, rfl⟩))
    fun found _ => ?_
  cases found with
  | none => exact answer_outline (.friendOffline hreq huid) trivial trivial
  | some friend =>
    apply send_outline (.friendPush hreq huid) trivial
    intro part hpart
    exact answer_outline (.friendAfterPush hreq huid hpart) trivial trivial

theorem addFriendRequest_outline (hreq : node.msgId = MSG_ADD_FRIEND_REQ) :
    Outlined platform node (addFriendRequest platform node.session node.data) [] := by
  have hrsp : responseId node.msgId = some MSG_ADD_FRIEND_RSP := by rw [hreq]; rfl
  apply answering_outline hrsp
  refine parsing_outline hrsp (.of_ascii (by decide) (by decide)) fun root _ => ?_
  split
  · exact refuse_outline hrsp (.inl rfl) (.of_ascii (by decide) (by decide))
  refine loggedIn_outline hrsp (.of_ascii (by decide) (by decide)) fun uid huid => ?_
  have huntouched : Untouched node [⟨.getLoginUid node.session, uid⟩] := .inr ⟨uid, rfl⟩
  apply field_outline huntouched (fun _ _ => getInt64_error)
  intro friendUid _
  split
  · exact refuse_outline hrsp huntouched (.of_ascii (by decide) (by decide))
  split
  · exact refuse_outline hrsp huntouched (.of_ascii (by decide) (by decide))
  apply call_outline (.addFriend uid friendUid) ⟨huid, rfl⟩
  intro ok _
  cases ok with
  | true => exact pushFriendRequest_outline hreq huid rfl
  | false => exact answer_outline (.friendFailed hreq huid) trivial trivial

theorem pushChatMessage_outline {msgId fromUid toUid : Int} {content : Bytes} {tm : Tm}
    (hreq : node.msgId = MSG_SEND_CHAT_REQ) (huid : fromUid ≠ 0) (hsaved : 0 ≤ msgId)
    (hcontent : Utf8.Valid content) :
    Outline (rules platform node) (fun trace _ => Finished platform node trace) (Throws node)
      (do
        pushChatMessage platform msgId fromUid toUid content (strftime tm)
        CSession.send platform node.session (.chatRsp msgId) MSG_SEND_CHAT_RSP)
      (chatTrace node.session msgId fromUid toUid content tm) := by
  apply Outline.bind
  refine call_outline (.getSessionByUid toUid)
    (.inr (.inr ⟨msgId, fromUid, content, tm, hsaved, rfl⟩)) fun found _ => ?_
  cases found with
  | none => exact answer_outline (.chatOffline hreq huid hsaved) trivial trivial
  | some recipient =>
    refine send_outline (.chatPush hreq huid hsaved) ⟨hcontent, strftime_valid tm⟩
      fun part hpart => ?_
    exact answer_outline (.chatAfterPush hreq huid hsaved hpart) trivial trivial

theorem chatMessageRequest_outline (hreq : node.msgId = MSG_SEND_CHAT_REQ) :
    Outlined platform node (chatMessageRequest platform node.session node.data) [] := by
  have hrsp : responseId node.msgId = some MSG_SEND_CHAT_RSP := by rw [hreq]; rfl
  apply answering_outline hrsp
  refine parsing_outline hrsp (.of_ascii (by decide) (by decide)) fun root hparse => ?_
  split
  · exact refuse_outline hrsp (.inl rfl) (.of_ascii (by decide) (by decide))
  refine loggedIn_outline hrsp (.of_ascii (by decide) (by decide)) fun fromUid huid => ?_
  have huntouched : Untouched node [⟨.getLoginUid node.session, fromUid⟩] := .inr ⟨fromUid, rfl⟩
  apply field_outline huntouched (fun _ _ => getInt64_error)
  intro toUid hto
  apply field_outline huntouched (fun _ _ => getString_error)
  intro content hcontent
  have hvalid := field_valid hparse hcontent
  split
  · exact refuse_outline hrsp huntouched (.of_ascii (by decide) (by decide))
  split
  · exact refuse_outline hrsp huntouched (.of_ascii (by decide) (by decide))
  split
  · exact refuse_outline hrsp huntouched (.of_ascii (by decide) (by decide))
  apply call_outline .now ⟨fromUid, huid, rfl⟩
  intro tm _
  refine call_outline (.saveMessage fromUid toUid content (strftime tm))
    ⟨huid, ⟨hvalid, hreq, root, hparse, hto, hcontent⟩, tm, rfl, rfl⟩ fun msgId _ => ?_
  split
  · rename_i hsaved
    exact pushChatMessage_outline hreq huid hsaved hvalid
  · rename_i hfailed
    exact answer_outline (.chatFailed hreq huid (Int.not_le.mp hfailed)) trivial trivial

/-! ### The table -/

/-- **Every handler follows its outline**, from the moment it is dispatched. -/
theorem callback_outline {handler : Handler Unit} (hhandler : callback platform node = some handler) :
    Outlined platform node handler [] := by
  unfold callback at hhandler
  split_ifs at hhandler with hhello hregister hlogin hlist hadd hchat hoffline
  · obtain rfl := Option.some.inj hhandler
    exact helloWorldCallBack_outline hhello
  · obtain rfl := Option.some.inj hhandler
    exact registerRequest_outline hregister
  · obtain rfl := Option.some.inj hhandler
    exact loginRequest_outline hlogin
  · obtain rfl := Option.some.inj hhandler
    exact getFriendListRequest_outline hlist
  · obtain rfl := Option.some.inj hhandler
    exact addFriendRequest_outline hadd
  · obtain rfl := Option.some.inj hhandler
    exact chatMessageRequest_outline hchat
  · obtain rfl := Option.some.inj hhandler
    exact getOfflineMessageRequest_outline hoffline

theorem responseId_of_callback_none (h : callback platform node = none) :
    responseId node.msgId = none := by
  unfold callback at h
  split_ifs at h with hhello hregister hlogin hlist hadd hchat hoffline
  unfold responseId
  rw [if_neg hregister, if_neg hlogin, if_neg hlist, if_neg hadd, if_neg hchat, if_neg hoffline]

end CoroutineServer
