import CoroutineServer.Proof.RoundTrip
import CoroutineServer.Scenario
import CoroutineServer.TypedCommands
import Mathlib.Algebra.Group.Nat.Defs
import Mathlib.Data.List.Forall2

/-!
# From the line to the handler

A line that is typed for a command is read back as that command, and the handler that its request comes to,
through the text, the frame and the fields, is the one that the command asks for.
-/

namespace CoroutineServer.TestClient

open Program LogicSystem Wire

variable {platform : Platform} {line : Bytes} {typed : TypedCommand}

/-! ### Words and numbers -/

theorem split_while {test : UInt8 → Bool} {front rest : Bytes} (hfront : ∀ byte ∈ front, test byte = true)
    (hrest : ∀ byte ∈ rest.head?, test byte = false) :
    (front ++ rest).takeWhile test = front ∧ (front ++ rest).dropWhile test = rest := by
  have hstop : rest.takeWhile test = [] ∧ rest.dropWhile test = rest := by
    cases rest with
    | nil => exact ⟨rfl, rfl⟩
    | cons byte rest =>
      rw [List.takeWhile_cons_of_neg (by simp [hrest byte rfl]), List.dropWhile_cons_of_neg
        (by simp [hrest byte rfl])]
      exact ⟨rfl, rfl⟩
  rw [List.takeWhile_append_of_pos hfront, List.dropWhile_append_of_pos hfront, hstop.1, hstop.2,
    List.append_nil]
  exact ⟨rfl, rfl⟩

theorem readWord_append {word rest : Bytes} (hword : IsWord word)
    (hrest : ∀ byte ∈ rest.head?, isSpace byte = true) : readWord (word ++ rest) = some (word, rest) := by
  obtain ⟨hne, hbytes⟩ := hword
  have hskip : (word ++ rest).dropWhile isSpace = word ++ rest := by
    obtain ⟨first, word', rfl⟩ := List.exists_cons_of_ne_nil hne
    exact List.dropWhile_cons_of_neg (by simp [hbytes first List.mem_cons_self])
  have hsplit : (word ++ rest).takeWhile (fun byte => !isSpace byte) = word ∧
      (word ++ rest).dropWhile (fun byte => !isSpace byte) = rest :=
    split_while (fun byte hbyte => by simp [hbytes byte hbyte]) fun byte hbyte => by simp [hrest byte hbyte]
  unfold readWord
  dsimp only
  rw [hskip, hsplit.1, hsplit.2, if_neg hne]

theorem readWord_blank (iss : Bytes) : readWord (ascii " " ++ iss) = readWord iss := by
  have hskip : (ascii " " ++ iss).dropWhile isSpace = iss.dropWhile isSpace :=
    List.dropWhile_cons_of_pos (by decide)
  unfold readWord
  rw [hskip]

theorem digit_toNat (n : Nat) : (digit n).toNat = 48 + n % 10 := by
  unfold digit
  rw [UInt8.toNat_ofNat']
  omega

theorem isDigit_iff (byte : UInt8) : isDigit byte = true ↔ 48 ≤ byte.toNat ∧ byte.toNat ≤ 57 := by
  unfold isDigit
  rw [Bool.and_eq_true, decide_eq_true_eq, decide_eq_true_eq, UInt8.le_iff_toNat_le, UInt8.le_iff_toNat_le]
  rfl

theorem isDigit_digit (n : Nat) : isDigit (digit n) = true := by
  rw [isDigit_iff, digit_toNat]
  omega

/-- A digit is no blank and no sign. -/
theorem plain_of_isDigit {byte : UInt8} (h : isDigit byte = true) :
    isSpace byte = false ∧ byte ≠ 0x2d ∧ byte ≠ 0x2b := by
  obtain ⟨hlow, hhigh⟩ := (isDigit_iff byte).mp h
  have hne : ∀ other : UInt8, other.toNat < 48 → byte ≠ other := by
    rintro other hother rfl
    omega
  refine ⟨?_, hne _ (by decide), hne _ (by decide)⟩
  unfold isSpace
  rw [Bool.or_eq_false_iff, Bool.and_eq_false_iff, beq_eq_false_iff_ne, decide_eq_false_iff_not,
    decide_eq_false_iff_not, UInt8.le_iff_toNat_le, UInt8.le_iff_toNat_le]
  refine ⟨hne _ (by decide), .inr fun hle => ?_⟩
  have hcontrol : (0x0d : UInt8).toNat = 13 := rfl
  omega

theorem isDigit_decimal (fuel n : Nat) : ∀ byte ∈ decimal fuel n, isDigit byte = true := by
  induction fuel generalizing n with
  | zero => simp [decimal, isDigit_digit]
  | succ fuel ih =>
    unfold decimal
    split
    · simp [isDigit_digit]
    · intro byte hbyte
      rcases List.mem_append.mp hbyte with hbyte | hbyte
      · exact ih _ byte hbyte
      · rw [List.mem_singleton.mp hbyte]
        exact isDigit_digit n

/-- The digits of a number are read back as the number. -/
theorem decimalValue_decimal {fuel n : Nat} (h : n < 10 ^ (fuel + 1)) : decimalValue (decimal fuel n) = n := by
  have hsingle : ∀ n : Nat, n < 10 → decimalValue [digit n] = n := by
    intro n hn
    simp only [decimalValue, List.foldl_cons, List.foldl_nil, digit_toNat]
    omega
  induction fuel generalizing n with
  | zero => exact hsingle n (by simpa using h)
  | succ fuel ih =>
    unfold decimal
    split
    · next hn => exact hsingle n hn
    · have hrest : n / 10 < 10 ^ (fuel + 1) := by
        rw [Nat.pow_succ] at h
        omega
      have happend : decimalValue (decimal fuel (n / 10) ++ [digit n])
          = 10 * decimalValue (decimal fuel (n / 10)) + ((digit n).toNat - 48 : Nat) := by
        simp [decimalValue, List.foldl_append]
      rw [happend, ih hrest, digit_toNat]
      omega

/-- A positive number that is printed is read back. -/
theorem readInt64_shown {value : Int} {rest : Bytes} (hpos : 0 < value) (hrange : toInt64 value = value)
    (hrest : ∀ byte ∈ rest.head?, isDigit byte = false) :
    readInt64 (shown value ++ rest) = some (value, rest) := by
  have hshown : shown value = decimal 19 value.natAbs := by
    unfold shown
    rw [render, if_neg (by omega), List.nil_append]
  have hbound : value.natAbs < 10 ^ (19 + 1) := by
    unfold toInt64 at hrange
    split at hrange <;> omega
  have hdigits := isDigit_decimal 19 value.natAbs
  have hsplit := split_while hdigits hrest
  obtain ⟨first, others, hcons⟩ := List.exists_cons_of_ne_nil (decimal_ne_nil 19 value.natAbs)
  have hfirst : isDigit first = true := hdigits first (by rw [hcons]; exact List.mem_cons_self)
  obtain ⟨hspace, hminus, hplus⟩ := plain_of_isDigit hfirst
  have hskip : (shown value ++ rest).dropWhile isSpace = shown value ++ rest := by
    rw [hshown, hcons]
    exact List.dropWhile_cons_of_neg (by simp [hspace])
  have hhead : (shown value ++ rest).head? = some first := by
    rw [hshown, hcons]
    rfl
  have hvalue : decimalValue (decimal 19 value.natAbs) = value := by
    rw [decimalValue_decimal hbound]
    omega
  have hunsigned : (shown value ++ rest).takeWhile isDigit = decimal 19 value.natAbs ∧
      (shown value ++ rest).dropWhile isDigit = rest := by
    rw [hshown]
    exact hsplit
  unfold readInt64
  simp only [hskip, hhead, Option.some_beq_some, beq_eq_false_iff_ne.mpr hminus,
    beq_eq_false_iff_ne.mpr hplus, Bool.or_self, Bool.false_eq_true, if_false, hunsigned.1, hunsigned.2, hvalue,
    Int.one_mul]
  exact if_neg (not_or.mpr ⟨decimal_ne_nil _ _, not_not_intro hrange⟩)

theorem readInt64_blank (iss : Bytes) : readInt64 (ascii " " ++ iss) = readInt64 iss := by
  have hskip : (ascii " " ++ iss).dropWhile isSpace = iss.dropWhile isSpace :=
    List.dropWhile_cons_of_pos (by decide)
  unfold readInt64
  rw [hskip]

/-! ### Lines -/

theorem readWord_self {word : Bytes} (hword : IsWord word) : readWord word = some (word, []) := by
  have happend : readWord (word ++ []) = some (word, []) := readWord_append hword fun _ h => (by cases h)
  rwa [List.append_nil] at happend

/-- The command of a line, and what is left for its arguments. -/
theorem readCmd_append (cmd : String) (rest : Bytes) (hcmd : IsWord (ascii cmd)) :
    readCmd (ascii cmd ++ (ascii " " ++ rest)) = (ascii cmd, ascii " " ++ rest) := by
  have hblank : ∀ byte ∈ (ascii " " ++ rest).head?, isSpace byte = true := by
    intro byte hbyte
    obtain rfl := Option.some.inj hbyte
    rfl
  unfold readCmd
  rw [readWord_append hcmd hblank]
  rfl

theorem readWord_two {user pass : Bytes} (huser : IsWord user) (hpass : IsWord pass) :
    readWord (ascii " " ++ (user ++ (ascii " " ++ pass))) = some (user, ascii " " ++ pass) ∧
      readWord (ascii " " ++ pass) = some (pass, []) := by
  have hblank : ∀ byte ∈ (ascii " " ++ pass).head?, isSpace byte = true := by
    intro byte hbyte
    obtain rfl := Option.some.inj hbyte
    rfl
  rw [readWord_blank, readWord_append huser hblank, readWord_blank, readWord_self hpass]
  exact ⟨rfl, rfl⟩

theorem credentials_two {usage : String} {accept : Bytes → Bytes → Entry} {user pass : Bytes}
    (huser : IsWord user) (hpass : IsWord pass) (huserLength : validateUsername user = true)
    (hpassLength : validatePassword pass = true) :
    Entry.credentials usage accept (ascii " " ++ (user ++ (ascii " " ++ pass))) = accept user pass := by
  obtain ⟨hfirst, hsecond⟩ := readWord_two huser hpass
  unfold Entry.credentials
  simp only [hfirst, hsecond, huserLength, hpassLength, Bool.true_eq_false, if_false]

theorem friend_add {friendUid : Int} (hpos : 0 < friendUid) (hrange : toInt64 friendUid = friendUid) :
    Entry.friend (ascii " " ++ (ascii "add" ++ (ascii " " ++ shown friendUid)))
      = .asks .addFriend (Json.null.set "friend_uid" (.number friendUid)) := by
  have hsub : readWord (ascii " " ++ (ascii "add" ++ (ascii " " ++ shown friendUid)))
      = some (ascii "add", ascii " " ++ shown friendUid) := by
    rw [readWord_blank]
    refine readWord_append (by decide) fun byte hbyte => ?_
    obtain rfl := Option.some.inj hbyte
    rfl
  have hnumber : readInt64 (ascii " " ++ shown friendUid) = some (friendUid, []) := by
    have hself : readInt64 (shown friendUid ++ []) = some (friendUid, []) :=
      readInt64_shown hpos hrange fun _ h => (by cases h)
    rw [List.append_nil] at hself
    rw [readInt64_blank, hself]
  unfold Entry.friend
  simp only [hsub, hnumber]
  exact if_neg (not_not_intro rfl)

theorem chat_content {toUid : Int} {content : Bytes} (hpos : 0 < toUid) (hrange : toInt64 toUid = toUid)
    (hne : content ≠ []) (hline : ∀ byte ∈ content, byte ≠ 0x0a)
    (hstart : ∀ byte ∈ content.head?, byte ≠ 0x20 ∧ byte ≠ 0x09) :
    Entry.chat (ascii " " ++ (shown toUid ++ (ascii " " ++ content)))
      = .asks .chat (TypedCommand.chat toUid content).req := by
  have hnumber : readInt64 (ascii " " ++ (shown toUid ++ (ascii " " ++ content)))
      = some (toUid, ascii " " ++ content) := by
    rw [readInt64_blank]
    refine readInt64_shown hpos hrange fun byte hbyte => ?_
    obtain rfl := Option.some.inj hbyte
    rfl
  have hwhole : (ascii " " ++ content).takeWhile (fun byte => byte != 0x0a) = ascii " " ++ content := by
    refine List.takeWhile_eq_self_iff.mpr fun byte hbyte => ?_
    rcases List.mem_append.mp hbyte with hblank | hbyte
    · obtain rfl := List.mem_singleton.mp hblank
      rfl
    · simp [hline byte hbyte]
  have htrimmed : (ascii " " ++ content).dropWhile (fun byte => byte == 0x20 || byte == 0x09) = content := by
    have hblank : ∀ byte ∈ ascii " ", (byte == 0x20 || byte == 0x09) = true :=
      List.all_eq_true.mp (by decide)
    exact (split_while hblank fun byte hbyte => by simp [hstart byte hbyte]).2
  unfold Entry.chat
  simp only [hnumber, hwhole, htrimmed, if_neg hne]
  rfl

/-- **Lines are read back.** For every command with any arguments that neither side refuses, the line that is
typed for it is read as that command with exactly these arguments. -/
theorem read_line (h : typed.Valid) : Entry.read typed.line = typed.entry := by
  cases typed with
  | register user pass =>
    obtain ⟨huser, hpass, huserLength, hpassLength⟩ := h
    have hcmd : readCmd (TypedCommand.register user pass).line
        = (ascii "/register", ascii " " ++ (user ++ (ascii " " ++ pass))) :=
      readCmd_append "/register" _ (by decide)
    unfold Entry.read
    rw [if_neg (by simp [TypedCommand.line, ascii]), hcmd]
    exact credentials_two huser hpass huserLength hpassLength
  | login user pass =>
    obtain ⟨huser, hpass, huserLength, hpassLength⟩ := h
    have hcmd : readCmd (TypedCommand.login user pass).line
        = (ascii "/login", ascii " " ++ (user ++ (ascii " " ++ pass))) :=
      readCmd_append "/login" _ (by decide)
    unfold Entry.read
    rw [if_neg (by simp [TypedCommand.line, ascii]), hcmd]
    exact credentials_two huser hpass huserLength hpassLength
  | friends => rfl
  | addFriend friendUid =>
    have hcmd : readCmd (TypedCommand.addFriend friendUid).line
        = (ascii "/friend", ascii " " ++ (ascii "add" ++ (ascii " " ++ shown friendUid))) :=
      readCmd_append "/friend" _ (by decide)
    unfold Entry.read
    rw [if_neg (by simp [TypedCommand.line, ascii]), hcmd]
    exact friend_add h.1 h.2
  | chat toUid content =>
    obtain ⟨⟨hpos, hrange⟩, ⟨hne, -⟩, hline, hstart⟩ := h
    have hcmd : readCmd (TypedCommand.chat toUid content).line
        = (ascii "/chat", ascii " " ++ (shown toUid ++ (ascii " " ++ content))) :=
      readCmd_append "/chat" _ (by decide)
    unfold Entry.read
    rw [if_neg (by simp [TypedCommand.line, ascii]), hcmd]
    exact chat_content hpos hrange hne hline hstart
  | offline => rfl

theorem read_line_chat : (TypedCommand.chat 2 (ascii "see you at 8")).Valid ∧
    Entry.read (ascii "/chat 2 see you at 8")
      = .asks .chat (TypedCommand.chat 2 (ascii "see you at 8")).req :=
  have hvalid : (TypedCommand.chat 2 (ascii "see you at 8")).Valid := by decide
  ⟨hvalid, read_line hvalid⟩

/-! ### Handlers -/

section Handlers

variable {text : Bytes} {user pass : Bytes} (session : Sid)

theorem validateCredentials_of_valid (huser : user ≠ []) (hpass : pass ≠ [])
    (huserLength : validateUsername user = true) (hpassLength : validatePassword pass = true) :
    validateCredentials user pass = true := by
  unfold validateUsername at huserLength
  unfold validatePassword at hpassLength
  simp only [Bool.not_eq_true', Bool.or_eq_false_iff, decide_eq_false_iff_not] at huserLength hpassLength
  unfold validateCredentials
  rw [if_neg (not_or.mpr ⟨huser, hpass⟩), if_neg (not_or.mpr huserLength), if_neg (not_or.mpr hpassLength)]

theorem registerRequest_typed (hvalid : (TypedCommand.register user pass).Valid)
    (hparse : platform.parse text = some (credentialsReq user pass)) :
    registerRequest platform session text = (TypedCommand.register user pass).served platform session := by
  obtain ⟨huser, hpass, huserLength, hpassLength⟩ := hvalid
  have hchecked := validateCredentials_of_valid huser.1 hpass.1 huserLength hpassLength
  refine congrArg (answering platform session MSG_REGISTER_RSP) ?_
  rw [hparse]
  change (if validateCredentials user pass = false then _ else _) = _
  rw [hchecked]
  rfl

theorem loginRequest_typed (hvalid : (TypedCommand.login user pass).Valid)
    (hparse : platform.parse text = some (credentialsReq user pass)) :
    loginRequest platform session text = (TypedCommand.login user pass).served platform session := by
  obtain ⟨huser, hpass, huserLength, hpassLength⟩ := hvalid
  have hchecked := validateCredentials_of_valid huser.1 hpass.1 huserLength hpassLength
  refine congrArg (answering platform session MSG_LOGIN_RSP) ?_
  rw [hparse]
  change (if validateCredentials user pass = false then _ else _) = _
  rw [hchecked]
  rfl

theorem addFriendRequest_typed {friendUid : Int} (hvalid : (TypedCommand.addFriend friendUid).Valid)
    (hparse : platform.parse text = some (TypedCommand.addFriend friendUid).req) :
    addFriendRequest platform session text
      = (TypedCommand.addFriend friendUid).served platform session := by
  obtain ⟨hpos, hrange⟩ := hvalid
  refine congrArg (answering platform session MSG_ADD_FRIEND_RSP) ?_
  rw [hparse]
  refine congrArg (@Prog.perform Op Op.Ret Exn Unit (.getLoginUid session)) (funext fun uid => ?_)
  by_cases huid : uid = 0
  · rw [huid]
    rfl
  · change (if uid = 0 then _ else if toInt64 friendUid ≤ 0 then _ else if uid = toInt64 friendUid then _
      else _) = if uid = 0 then _ else _
    rw [if_neg huid, if_neg huid, hrange, if_neg (Int.not_le.mpr hpos)]

theorem chatMessageRequest_typed {toUid : Int} {content : Bytes}
    (hvalid : (TypedCommand.chat toUid content).Valid)
    (hparse : platform.parse text = some (TypedCommand.chat toUid content).req) :
    chatMessageRequest platform session text
      = (TypedCommand.chat toUid content).served platform session := by
  obtain ⟨⟨hpos, hrange⟩, ⟨hne, hlength⟩, -, -⟩ := hvalid
  refine congrArg (answering platform session MSG_SEND_CHAT_RSP) ?_
  rw [hparse]
  refine congrArg (@Prog.perform Op Op.Ret Exn Unit (.getLoginUid session)) (funext fun fromUid => ?_)
  by_cases huid : fromUid = 0
  · rw [huid]
    rfl
  · change (if fromUid = 0 then _ else if toInt64 toUid ≤ 0 then _ else if content = [] then _
      else if content.length > MAX_MESSAGE_LEN then _ else _) = if fromUid = 0 then _ else _
    rw [if_neg huid, if_neg huid, hrange, if_neg (Int.not_le.mpr hpos), if_neg hne,
      if_neg (Nat.not_lt.mpr hlength)]

/-- The table leads the request of a command to the handler that the command asks for. -/
theorem callback_typed (hvalid : typed.Valid) (hparse : platform.parse text = some typed.req) :
    callback platform ⟨session, typed.command.reqId, text⟩ = some (typed.served platform session) := by
  cases typed with
  | register user pass => exact congrArg some (registerRequest_typed session hvalid hparse)
  | login user pass => exact congrArg some (loginRequest_typed session hvalid hparse)
  | friends => rfl
  | addFriend friendUid => exact congrArg some (addFriendRequest_typed session hvalid hparse)
  | chat toUid content => exact congrArg some (chatMessageRequest_typed session hvalid hparse)
  | offline => rfl

end Handlers

/-! ### End to end -/

theorem reqId_range (command : Command) : MSG_HELLO_WORLD ≤ command.reqId ∧ command.reqId ≤ MAX_MSG_ID := by
  cases command <;> decide

/-- The message that the line of a command becomes. -/
def CarriedBy (platform : Platform) (message : Int × Bytes) (typed : TypedCommand) : Prop :=
  message.1 = typed.command.reqId ∧ platform.dump typed.req = .ok message.2 ∧ BodyInRange message

theorem written_eq (h : Entry.read line = typed.entry) :
    written platform line = (platform.dump typed.req).toOption.bind (sendMsg typed.command.reqId) := by
  unfold written
  rw [h]
  cases typed <;> rfl

/-- What is written is written by `SendMsg`, when it succeeds. -/
theorem isSome_written {outside : Outside} {globals : Globals} (h : Entry.read line = typed.entry)
    (hsent : (trySend platform outside typed.command typed.req globals).1 = true) :
    (written platform line).isSome = true := by
  rw [written_eq h]
  unfold trySend at hsent
  cases hdump : platform.dump typed.req with
  | error what =>
    rw [hdump] at hsent
    cases hsent
  | ok text =>
    cases hmsg : sendMsg typed.command.reqId text with
    | none =>
      simp only [hdump, hmsg] at hsent
      cases hsent
    | some bytes =>
      change (sendMsg typed.command.reqId text).isSome = true
      rw [hmsg]
      rfl

/-- What the line of a command gives to the socket is the frame of its request. -/
theorem written_eq_some {bytes : Bytes} (h : Entry.read line = typed.entry)
    (hwritten : written platform line = some bytes) :
    ∃ message, CarriedBy platform message typed ∧ bytes = encodeFrame (frameOf message) := by
  rw [written_eq h] at hwritten
  cases hdump : platform.dump typed.req with
  | error what =>
    rw [hdump] at hwritten
    cases hwritten
  | ok text =>
    rw [hdump] at hwritten
    have hmsg : sendMsg typed.command.reqId text = some bytes := hwritten
    have hlength : text.length ≤ CoroutineServer.MAX_LENGTH := by
      by_contra hlong
      have hrefused : (text.length : Int) > MAX_LENGTH := Int.ofNat_lt.mpr (Nat.not_le.mp hlong)
      unfold sendMsg at hmsg
      rw [if_pos hrefused] at hmsg
      cases hmsg
    have hbody : BodyInRange (typed.command.reqId, text) :=
      ⟨List.length_pos_iff.mpr (platform.dump_ne_nil _ _ hdump), hlength⟩
    have hframe := sendMsg_eq hbody
    rw [hmsg] at hframe
    exact ⟨_, ⟨rfl, hdump, hbody⟩, Option.some.inj hframe⟩

/-- The bytes of a session are the frames of its requests, in order. -/
theorem written_frames {lines : List Bytes} {commands : List TypedCommand} {chunks : List Bytes}
    (hread : List.Forall₂ (fun line typed => Entry.read line = typed.entry) lines commands)
    (hwritten : lines.mapM (written platform) = some chunks) :
    ∃ messages, List.Forall₂ (CarriedBy platform) messages commands ∧
      chunks.flatten = (messages.map frameOf).flatMap encodeFrame := by
  induction hread generalizing chunks with
  | nil =>
    obtain rfl := Option.some.inj hwritten
    exact ⟨[], .nil, rfl⟩
  | cons hline _ ih =>
    rw [List.mapM_cons] at hwritten
    obtain ⟨bytes, hbytes, hwritten⟩ := Option.bind_eq_some_iff.mp hwritten
    obtain ⟨rest, hrest, hchunks⟩ := Option.bind_eq_some_iff.mp hwritten
    obtain rfl := Option.some.inj hchunks
    obtain ⟨message, hcarried, rfl⟩ := written_eq_some hline hbytes
    obtain ⟨messages, hmessages, hframes⟩ := ih hrest
    refine ⟨message :: messages, .cons hcarried hmessages, ?_⟩
    rw [List.flatten_cons, hframes]
    rfl

/-- Frames with ids in the range of the server are posted as they were. -/
theorem posted_of_frames {messages : List (Int × Bytes)} (hbody : ∀ message ∈ messages, BodyInRange message)
    (hid : ∀ message ∈ messages, MSG_HELLO_WORLD ≤ message.1 ∧ message.1 ≤ MAX_MSG_ID)
    {socket : List Bytes} (hsocket : socket.flatten = (messages.map frameOf).flatMap encodeFrame) :
    (start socket).posted.map RecvNode.message = messages := by
  have hvalid : ∀ frame ∈ messages.map frameOf, serverCode.Valid frame := by
    intro frame hmem
    obtain ⟨message, hmessage, rfl⟩ := List.mem_map.mp hmem
    exact validFrame_of_id (hbody message hmessage) (hid message hmessage).1 (hid message hmessage).2
  have hsame : ∀ message ∈ messages, (((frameOf message).1 : Int), (frameOf message).2) = message := by
    intro message hmessage
    obtain ⟨hlow, hhigh⟩ := hid message hmessage
    unfold MSG_HELLO_WORLD at hlow
    unfold MAX_MSG_ID at hhigh
    have hnumber : (((message.1 % 65536).toNat : Nat) : Int) = message.1 := by omega
    exact congrArg (·, message.2) hnumber
  calc (start socket).posted.map RecvNode.message
      = (serverCode.decodeAll ((messages.map frameOf).flatMap encodeFrame)).1.map
          fun frame => ((frame.1 : Int), frame.2) := by rw [start_posted, hsocket]
    _ = (messages.map frameOf).map fun frame => ((frame.1 : Int), frame.2) :=
      congrArg _ (serverCode.decodeAll_flatMap_encode hvalid rfl)
    _ = messages.map fun message => (((frameOf message).1 : Int), (frameOf message).2) := List.map_map
    _ = messages := (List.map_congr_left hsame).trans (List.map_id messages)

theorem callbacks_typed {messages : List (Int × Bytes)} {commands : List TypedCommand} (session : Sid)
    (h : List.Forall₂ (CarriedBy platform) messages commands) (hvalid : ∀ typed ∈ commands, typed.Valid)
    (hinverse : ∀ typed ∈ commands, ∀ text, platform.dump typed.req = .ok text →
      platform.parse text = some typed.req) :
    messages.map (fun message => callback platform ⟨session, message.1, message.2⟩)
      = commands.map fun typed => some (typed.served platform session) := by
  induction h with
  | nil => rfl
  | @cons message typed messages commands hcarried _ ih =>
    obtain ⟨hid, hdump, -⟩ := hcarried
    have hhead := callback_typed session (hvalid typed List.mem_cons_self)
      (hinverse typed List.mem_cons_self _ hdump)
    rw [List.map_cons, List.map_cons, hid, hhead, ih (fun typed hmem => hvalid typed (.tail _ hmem))
      fun typed hmem => hinverse typed (.tail _ hmem)]

/-- **What is typed is what is run.** For every session of lines, each read as a command with arguments that
neither side refuses and none of them refused by `SendMsg`: however their bytes are cut into segments, the
read loop posts one message for each, in order, and the table of handlers has for it the handler that the
command asks for, on the session of the connection. -/
theorem typed_lines_served {lines : List Bytes} {commands : List TypedCommand} {chunks : List Bytes}
    (hread : List.Forall₂ (fun line typed => Entry.read line = typed.entry) lines commands)
    (hvalid : ∀ typed ∈ commands, typed.Valid)
    (hinverse : ∀ typed ∈ commands, ∀ text, platform.dump typed.req = .ok text →
      platform.parse text = some typed.req)
    (hwritten : lines.mapM (written platform) = some chunks) {socket : List Bytes}
    (hsocket : socket.flatten = chunks.flatten) (session : Sid) :
    (start socket).posted.map (fun node => callback platform ⟨session, node.message.1, node.message.2⟩)
      = commands.map fun typed => some (typed.served platform session) := by
  obtain ⟨messages, hcarried, hframes⟩ := written_frames hread hwritten
  have hrange : ∀ message ∈ messages,
      BodyInRange message ∧ MSG_HELLO_WORLD ≤ message.1 ∧ message.1 ≤ MAX_MSG_ID :=
    ((List.forall₂_and_left _ _).mp (hcarried.imp fun _ typed h =>
      ⟨⟨h.2.2, h.1 ▸ reqId_range typed.command⟩, h⟩)).1
  have hposted := posted_of_frames (fun message hmem => (hrange message hmem).1)
    (fun message hmem => (hrange message hmem).2) (hsocket.trans hframes)
  calc (start socket).posted.map (fun node => callback platform ⟨session, node.message.1, node.message.2⟩)
      = ((start socket).posted.map RecvNode.message).map
          fun message => callback platform ⟨session, message.1, message.2⟩ := by
        rw [List.map_map]
        rfl
    _ = messages.map fun message => callback platform ⟨session, message.1, message.2⟩ := by rw [hposted]
    _ = commands.map fun typed => some (typed.served platform session) :=
      callbacks_typed session hcarried hvalid hinverse

/-- What the lines `/login ann secret` and `/chat  1 hello` give to the socket. -/
def loginThenChat : List Bytes :=
  [encodeFrame (frameOf (MSG_LOGIN_REQ, render (credentials "ann"))),
    encodeFrame (frameOf (MSG_SEND_CHAT_REQ, render (chatBody 1)))]

theorem typed_lines_served_ann :
    (start [loginThenChat.flatten.take 3, loginThenChat.flatten.drop 3]).posted.map
        (fun node => callback reference ⟨0, node.message.1, node.message.2⟩)
      = [some ((TypedCommand.login (ascii "ann") (ascii "secret")).served reference 0),
        some ((TypedCommand.chat 1 (ascii "hello")).served reference 0)] := by
  have hread : List.Forall₂ (fun (line : Bytes) (typed : TypedCommand) => Entry.read line = typed.entry)
      [ascii "/login ann secret", ascii "/chat  1 hello"]
      [TypedCommand.login (ascii "ann") (ascii "secret"), TypedCommand.chat 1 (ascii "hello")] :=
    .cons rfl (.cons rfl .nil)
  have hwritten : [ascii "/login ann secret", ascii "/chat  1 hello"].mapM (written reference)
      = some loginThenChat := by decide +kernel
  have hsocket : [loginThenChat.flatten.take 3, loginThenChat.flatten.drop 3].flatten
      = loginThenChat.flatten := by simp
  refine typed_lines_served hread ?_ ?_ hwritten hsocket 0
  · intro typed hmem
    simp only [List.mem_cons, List.not_mem_nil, or_false] at hmem
    rcases hmem with rfl | rfl <;> decide
  · intro typed hmem text htext
    simp only [List.mem_cons, List.not_mem_nil, or_false] at hmem
    rcases hmem with rfl | rfl
    · obtain rfl := Except.ok.inj htext
      rfl
    · obtain rfl := Except.ok.inj htext
      rfl

end CoroutineServer.TestClient
