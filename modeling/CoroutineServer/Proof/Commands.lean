import CoroutineServer.ClientCommands
import CoroutineServer.Proof.Handlers
import CoroutineServer.Proof.Printing
import CoroutineServer.Scenario

/-!
# The loop of the test client goes on

Every body that the server can build for a command can be printed, and the null value is tested for before
each accessor but one: `/login` asks a null response for its status.
-/

namespace CoroutineServer.TestClient

open Program LogicSystem

variable {platform : Platform} {outside : Outside} {line : Bytes} {globals : Globals}
  {command : Command} {rsp : Json}

/-! ### The responses -/

/-- The id of a response tells the handlers' answers from their pushes. -/
theorem answer_of_sends {node : LogicNode} {trace : CallTrace} {session : Sid} {payload : Payload}
    {msgid : Int} (hsends : Sends platform node trace session payload msgid)
    (hreq : node.msgId = command.reqId) (hrsp : msgid = command.rspId) :
    payload.IsAnswer ∧ ∀ root, payload ≠ .echo root := by
  cases hsends with
  | echoed hhello =>
    have hid := hhello.symm.trans hreq
    cases command <;> exact absurd hid (by decide)
  | loginBatch hlogin =>
    have hid := hlogin.symm.trans hreq
    cases command with
    | login => exact absurd hrsp (by decide)
    | _ => exact absurd hid (by decide)
  | friendPush | chatPush => cases command <;> exact absurd hrsp (by decide)
  | offlineBatch => exact ⟨rfl, nofun⟩
  | _ => exact ⟨trivial, nofun⟩

/-- What `LoginRequest` answers: with a status other than 0, or with a uid. -/
def LoginAnswer (rsp : Json) : Prop :=
  (∃ code, code ≠ 0 ∧ ∀ truncate, rsp.value "status" (Json.getInt truncate) (-1) = .ok code) ∨
    ∃ uid, rsp.index "uid" = .ok (.number uid)

theorem loginAnswer_of_sends {node : LogicNode} {trace : CallTrace} {session : Sid} {payload : Payload}
    {msgid : Int} (hsends : Sends platform node trace session payload msgid)
    (hreq : node.msgId = MSG_LOGIN_REQ) (hrsp : msgid = MSG_LOGIN_RSP) : LoginAnswer payload.json := by
  cases hsends with
  | refusal | loginFailed => exact .inl ⟨-1, by decide, fun _ => rfl⟩
  | loginNoBatch => exact .inr ⟨_, rfl⟩
  | loginAfterBatch => exact .inr ⟨_, rfl⟩
  | loginBatch => exact absurd hrsp (by decide)
  | echoed hid | registered hid | friendList hid | friendFailed hid | friendPush hid | friendOffline hid
  | friendAfterPush hid | chatFailed hid | chatPush hid | chatOffline hid | chatAfterPush hid
  | offlineBatch hid => exact absurd (hid.symm.trans hreq) (by decide)

/-- A body that is built for a command is sent by a handler of its request, under the id of the response. -/
theorem sends_of_builds (hbuilds : Builds platform command rsp) : ∃ node trace payload,
    Sends platform node trace node.session payload command.rspId ∧ node.msgId = command.reqId ∧
      payload.json = rsp := by
  obtain ⟨state, node, payload, next, hreach, hserved, hreq, hworker, hjson⟩ := hbuilds
  obtain ⟨other, hother, hsends⟩ := (grounded_of_reaches hreach).warrants hworker
  obtain rfl := Option.some.inj (hserved.symm.trans hother)
  exact ⟨node, _, payload, hsends, hreq, hjson⟩

theorem printable_of_builds (hbuilds : Builds platform command rsp) : Printable rsp := by
  obtain ⟨node, trace, payload, hsends, hreq, rfl⟩ := sends_of_builds hbuilds
  obtain ⟨hanswer, hecho⟩ := answer_of_sends hsends hreq rfl
  exact printable_of_answer hanswer hecho

theorem loginAnswer_of_builds (hbuilds : Builds platform .login rsp) : LoginAnswer rsp := by
  obtain ⟨node, trace, payload, hsends, hreq, rfl⟩ := sends_of_builds hbuilds
  exact loginAnswer_of_sends hsends hreq rfl

theorem status_succeeds {truncate : UInt64 → Int} (h : Printable rsp) (fallback : Int) :
    Succeeds (rsp.value "status" (Json.getInt truncate) fallback) :=
  Json.value_succeeds fallback h.object (fun _ => Json.getInt_succeeds truncate) h.status

theorem respond_succeeds {truncate : UInt64 → Int} (h : Printable rsp) (command : Command) :
    Succeeds (respond truncate command rsp) := by
  unfold respond
  refine (printResponse_succeeds h).bind fun text _ => ?_
  split_ifs
  · exact (status_succeeds h (-1)).throwing.bind fun _ _ => .pure _
  · exact .pure _

/-- A missing response throws at a login only. -/
theorem respond_null_iff (truncate : UInt64 → Int) (command : Command) :
    Succeeds (respond truncate command .null) ↔ command ≠ .login := by
  constructor
  · rintro ⟨result, hresult⟩ rfl
    cases hresult
  · intro hcommand
    have hprint : printResponse truncate .null = .ok [] := rfl
    unfold respond
    rw [hprint]
    exact ⟨([], false), if_neg hcommand⟩

theorem restore_succeeds {truncate : UInt64 → Int} (h : Printable rsp) (hlogin : LoginAnswer rsp) :
    Succeeds (restore truncate rsp) := by
  unfold restore
  split
  · exact .pure _
  · refine (printResponse_succeeds h).bind fun text _ => ?_
    refine (status_succeeds h (-1)).throwing.bind fun status hstatus => ?_
    split_ifs with hzero
    · rcases hlogin with ⟨code, hcode, hvalue⟩ | ⟨uid, huid⟩
      · rw [hvalue] at hstatus
        exact absurd ((Except.ok.inj hstatus).trans hzero) hcode
      · rw [huid]
        exact ⟨_, rfl⟩
    · exact .pure _

/-! ### The line -/

namespace Entry

/-- What a line can ask for; a login is asked for by `/login` only. -/
inductive Reads (line : Bytes) : Entry → Prop where
  | nothing : Reads line .nothing
  | prints (text : Bytes) : Reads line (.prints text)
  | asks {command : Command} (req : Json) (hcommand : command ≠ .login) : Reads line (.asks command req)
  | login (user pass : Bytes) : Reads line (.login user pass)
  | reconnect : Reads line .reconnect
  | quit (hquit : (readCmd line).1 = ascii "/quit") : Reads line .quit

namespace Reads

theorem ite {line : Bytes} {condition : Prop} [Decidable condition] {entry other : Entry}
    (hentry : condition → Reads line entry) (hother : Reads line other) :
    Reads line (if condition then entry else other) := by
  split_ifs with hcondition
  · exact hentry hcondition
  · exact hother

theorem credentials {line : Bytes} {accept : Bytes → Bytes → Entry} (usage : String) (iss : Bytes)
    (haccept : ∀ user pass, Reads line (accept user pass)) :
    Reads line (Entry.credentials usage accept iss) := by
  unfold Entry.credentials
  split
  · exact .prints _
  · split
    · exact .prints _
    · split_ifs
      · exact .prints _
      · exact .prints _
      · exact haccept _ _

theorem friend (line iss : Bytes) : Reads line (Entry.friend iss) := by
  unfold Entry.friend
  split
  · exact .prints _
  · split_ifs
    · exact .prints _
    · split
      · exact .prints _
      · exact .asks _ nofun

theorem chat (line iss : Bytes) : Reads line (Entry.chat iss) := by
  unfold Entry.chat
  split
  · exact .prints _
  · exact .ite (fun _ => .prints _) (.asks _ nofun)

end Reads

theorem reads (line : Bytes) : Reads line (read line) := by
  unfold read
  refine .ite (fun _ => .nothing) ?_
  refine .ite (fun _ => .credentials _ _ fun _ _ => .asks _ nofun) ?_
  refine .ite (fun _ => .credentials _ _ .login) ?_
  refine .ite (fun _ => .asks _ nofun) ?_
  refine .ite (fun _ => .friend _ _) ?_
  refine .ite (fun _ => .chat _ _) ?_
  refine .ite (fun _ => .asks _ nofun) ?_
  refine .ite (fun _ => .reconnect) ?_
  refine .ite (fun _ => .prints _) ?_
  exact .ite .quit (.prints _)

end Entry

/-! ### The turn -/

/-- Whether the request is sent does not depend on the global variables. -/
theorem trySend_fst (command : Command) (req : Json) (globals globals' : Globals) :
    (trySend platform outside command req globals).1
      = (trySend platform outside command req globals').1 := by
  unfold trySend
  cases platform.dump req with
  | error => rfl
  | ok jsonStr =>
    dsimp only
    cases sendMsg command.reqId jsonStr with
    | none => rfl
    | some => cases outside.writeError <;> rfl

theorem respond_succeeds_iff (houtcome : Outcome platform command rsp) :
    Succeeds (respond platform.truncate command rsp) ↔ ¬(command = .login ∧ rsp = .null) := by
  rcases houtcome with rfl | hbuilds
  · rw [respond_null_iff]
    exact not_congr (and_iff_left rfl).symm
  · have hprintable := printable_of_builds hbuilds
    refine iff_of_true (respond_succeeds hprintable command) ?_
    rintro ⟨-, rfl⟩
    cases hprintable.object

/-- Behind a null response `DoLogin` does nothing, and so it never fails. -/
theorem doLogin_succeeds (houtcome : Outcome platform .login outside.rsp) (globals : Globals) :
    Succeeds (doLogin platform outside globals) := by
  have hrestore : Succeeds (restore platform.truncate outside.rsp) := by
    rcases houtcome with hnull | hbuilds
    · rw [hnull]
      exact .pure _
    · exact restore_succeeds (printable_of_builds hbuilds) (loginAnswer_of_builds hbuilds)
  unfold doLogin
  split_ifs
  · exact .pure _
  · dsimp only
    split_ifs
    · exact hrestore.bind fun _ _ => .pure _
    · exact .pure _

theorem tryConnect_fst (globals : Globals) :
    (tryConnect outside globals).1 = outside.connectError.isNone := by
  unfold tryConnect
  cases outside.connectError <;> rfl

theorem lostTurn_survives (hconnected : globals.connected = false)
    (houtcome : Outcome platform .login outside.rsp) :
    Survives outside line globals (lostTurn platform outside line globals) := by
  unfold lostTurn
  dsimp only
  split_ifs with hcmd hconnect
  · obtain ⟨⟨restored, globals'⟩, hlogin⟩ := doLogin_succeeds houtcome _
    rw [hlogin]
    cases restored <;> trivial
  · rw [tryConnect_fst, Option.isNone_iff_eq_none, ← ne_eq, Option.ne_none_iff_isSome] at hconnect
    exact ⟨hconnected, hconnect⟩
  · change if globals.connected then _ else _
    rw [hconnected]
    exact hcmd

theorem commandTurn_survives_iff {req : Json} {remember : Globals → Globals} (globals' : Globals)
    (houtcome : Outcome platform command outside.rsp) :
    Survives outside line globals (commandTurn platform outside command req remember globals') ↔
      ¬(command = .login ∧ outside.rsp = .null ∧ (trySend platform outside command req globals').1 = true)
    := by
  unfold commandTurn
  dsimp only
  split_ifs with hsent
  · have hiff := respond_succeeds_iff houtcome
    cases hrespond : respond platform.truncate command outside.rsp with
    | error crash =>
      rw [hrespond] at hiff
      refine iff_of_false id fun hnot => ?_
      obtain ⟨result, hresult⟩ := hiff.mpr fun h => hnot ⟨h.1, h.2, hsent⟩
      cases hresult
    | ok result =>
      rw [hrespond] at hiff
      exact iff_of_true trivial fun h => hiff.mp (.pure result) ⟨h.1, h.2.1⟩
  · exact iff_of_true trivial fun h => hsent h.2.2

theorem promptTurn_survives_iff (hconnected : globals.connected = true) (globals' : Globals)
    (houtcome : ∀ command, asked line globals = some command → Outcome platform command outside.rsp) :
    Survives outside line globals (promptTurn platform outside line globals') ↔
      ¬Unanswered platform outside line globals := by
  unfold asked at houtcome
  rw [if_pos hconnected] at houtcome
  unfold promptTurn Unanswered
  generalize hread : Entry.read line = entry at houtcome ⊢
  have hreads := Entry.reads line
  rw [hread] at hreads
  cases hreads with
  | nothing | prints | reconnect => exact iff_of_true trivial fun ⟨_, _, _, _, heq, _⟩ => nomatch heq
  | quit hquit =>
    refine iff_of_true ?_ fun ⟨_, _, _, _, heq, _⟩ => nomatch heq
    change if globals.connected then _ else _
    rw [hconnected]
    exact hquit
  | @asks command req hcommand =>
    refine iff_of_true ?_ fun ⟨_, _, _, _, heq, _⟩ => nomatch heq
    exact (commandTurn_survives_iff globals' (houtcome command rfl)).mpr fun h => hcommand h.1
  | login user pass =>
    refine (commandTurn_survives_iff globals' (houtcome .login rfl)).trans (not_congr ?_)
    rw [trySend_fst .login _ globals' globals]
    constructor
    · rintro ⟨-, hnull, hsent⟩
      exact ⟨hconnected, hnull, user, pass, rfl, hsent⟩
    · rintro ⟨-, hnull, _, _, heq, hsent⟩
      obtain ⟨rfl, rfl⟩ := Entry.login.inj heq
      exact ⟨rfl, hnull, hsent⟩

theorem turn_survives
    (houtcome : ∀ command, asked line globals = some command → Outcome platform command outside.rsp)
    (hanswered : ¬Unanswered platform outside line globals) :
    Survives outside line globals (turn platform outside line globals) := by
  unfold turn
  cases hconnected : globals.connected with
  | true =>
    rw [if_pos rfl]
    exact (promptTurn_survives_iff hconnected _ houtcome).mpr hanswered
  | false =>
    rw [if_neg Bool.false_ne_true]
    refine lostTurn_survives hconnected (houtcome .login ?_)
    unfold asked
    rw [hconnected]
    rfl

/-- No exception leaves the loop in a session whose logins are answered. -/
theorem mainLoop_succeeds {session : List Entered} (h : Answered platform session globals) :
    Succeeds (mainLoop platform session globals) := by
  induction session generalizing globals with
  | nil => exact .pure _
  | cons entered rest ih =>
    obtain ⟨houtcome, hanswered, hrest⟩ := h
    have hsurvives := turn_survives houtcome hanswered
    unfold mainLoop
    cases hturn : turn platform entered.outside entered.line (entered.before globals) with
    | error crash =>
      rw [hturn] at hsurvives
      exact hsurvives.elim
    | ok ended =>
      cases ended with
      | goesOn globals' => exact ih (hrest globals' hturn)
      | leaves | gives => exact .pure _

/-- **The loop goes on**, exactly unless the request of a `/login` is sent and there is no response. For every
line, at either prompt, and every value that `WaitForResponse` can return for the command, no exception
leaves the turn. -/
theorem loop_goes_on
    (houtcome : ∀ command, asked line globals = some command → Outcome platform command outside.rsp) :
    Survives outside line globals (turn platform outside line globals) ↔
      ¬Unanswered platform outside line globals := by
  refine ⟨fun hsurvives hunanswered => ?_, turn_survives houtcome⟩
  have hconnected := hunanswered.1
  unfold turn at hsurvives
  rw [if_pos hconnected] at hsurvives
  exact (promptTurn_survives_iff hconnected _ houtcome).mp hsurvives hunanswered

/-- `/friends` is asked for on a session without a login, up to where the refusal is sent. -/
def refusingLabels : List CoroutineServer.Label :=
  [.accept 0, .post ⟨0, MSG_GET_FRIEND_LIST_REQ, render .null⟩, .dispatch, .work .idle]

def refusal : Json := (errorResponse (ascii "not logged in")).json

theorem builds_refusal : Builds reference .friends refusal := by
  have hmeets : Reach.meets (CoroutineServer.step reference) (fun _ _ => true) refusingLabels
      (.initial quietDb) = true := by decide
  exact ⟨_, _, _, _, .of_enabled ⟨quietDb, quietDb_wellFormed, rfl⟩ hmeets, rfl, rfl, rfl, rfl⟩

/-- The variables behind the first `TryConnect`. -/
def Globals.initial : Globals := ⟨true, false, [], [], []⟩

theorem loop_goes_on_refused : Survives ⟨none, none, refusal⟩ (ascii "/friends") .initial
    (turn reference ⟨none, none, refusal⟩ (ascii "/friends") .initial) := by
  have hread : Entry.read (ascii "/friends") = .asks .friends .null := rfl
  have hanswered : ¬Unanswered reference ⟨none, none, refusal⟩ (ascii "/friends") .initial :=
    fun h => nomatch h.2.1
  have houtcome : ∀ command, asked (ascii "/friends") .initial = some command →
      Outcome reference command refusal := by
    intro command hasked
    simp only [asked, Globals.initial, if_true, hread, Option.some.injEq] at hasked
    rw [← hasked]
    exact .inr builds_refusal
  rw [loop_goes_on houtcome]
  exact hanswered

/-- There is no response to a login: `value` throws on the null response, and nothing catches it. -/
theorem unanswered_login_throws :
    (∀ command, Outcome reference command .null) ∧
      turn reference ⟨none, none, .null⟩ (ascii "/login ann secret") .initial
        = .error (.threw (Json.cannotUseValue .null)) ∧
      ¬Survives ⟨none, none, .null⟩ (ascii "/login ann secret") .initial
        (turn reference ⟨none, none, .null⟩ (ascii "/login ann secret") .initial) := by
  have hturn : turn reference ⟨none, none, .null⟩ (ascii "/login ann secret") .initial
      = .error (.threw (Json.cannotUseValue .null)) := by
    have hsent : (trySend reference ⟨none, none, .null⟩ .login
        (credentialsReq (ascii "ann") (ascii "secret")) (Globals.initial.say "> ")).1 = true := by
      decide +kernel
    have hread : Entry.read (ascii "/login ann secret") = .login (ascii "ann") (ascii "secret") := rfl
    have hup : Globals.initial.connected = true := rfl
    unfold turn
    rw [if_pos hup, promptTurn, hread]
    dsimp only
    unfold commandTurn
    dsimp only
    rw [if_pos hsent]
    rfl
  refine ⟨fun _ => .inl rfl, hturn, ?_⟩
  rw [hturn]
  exact id

/-! ### The steps of the client -/

/-- What `WaitForResponse` returns of a message. -/
def received : Option ReceivedMsg → Json
  | none => .null
  | some msg => msg.json

/-- What follows `WaitForResponse`, in `DoLogin` or in the branch of a command. -/
def behind (truncate : UInt64 → Int) (auto : Bool) (command : Command) (rsp : Json) :
    Except Crash (Bytes × Bool) :=
  if auto then restore truncate rsp else respond truncate command rsp

def Handled.of : Except Crash (Bytes × Bool) → Handled
  | .ok (_, true) => .accepted
  | .ok (_, false) => .refused
  | .error _ => .threw

theorem handled_threw_iff {computation : Except Crash (Bytes × Bool)} :
    Handled.of computation = .threw ↔ ¬Succeeds computation := by
  cases computation with
  | error => exact iff_of_true rfl fun ⟨_, h⟩ => nomatch h
  | ok result =>
    obtain ⟨text, accepted⟩ := result
    refine iff_of_false ?_ (not_not_intro (.pure _))
    cases accepted <;> exact nofun

/-- The client leaves its loop behind `WaitForResponse` exactly when an exception does. -/
theorem exited_iff {client client' : Client} {request : Request} {auto : Bool} {rsp : Option ReceivedMsg}
    {truncate : UInt64 → Int} (hmain : client.main = .returned request auto rsp)
    (hstep : step (.handle (.of (behind truncate auto request.command (received rsp)))) client
      = some client') :
    client'.main = .exited ↔ ¬Succeeds (behind truncate auto request.command (received rsp)) := by
  rw [← handled_threw_iff]
  unfold step at hstep
  simp only [hmain] at hstep
  cases auto with
  | true =>
    cases rsp with
    | none =>
      obtain rfl := Option.some.inj hstep
      exact iff_of_false nofun nofun
    | some msg =>
      obtain rfl := Option.some.inj hstep
      split_ifs with hthrew
      · exact iff_of_true rfl hthrew
      · exact iff_of_false nofun hthrew
  | false =>
    cases rsp with
    | none =>
      obtain rfl := Option.some.inj hstep
      rw [handled_threw_iff]
      have hnull : Succeeds (behind truncate false request.command (received none)) ↔
          request.command ≠ .login := respond_null_iff truncate request.command
      rw [hnull, not_not]
      dsimp only
      split_ifs with hcommand
      · exact iff_of_true rfl hcommand
      · exact iff_of_false nofun hcommand
    | some msg =>
      obtain rfl := Option.some.inj hstep
      split_ifs with hthrew
      · exact iff_of_true rfl hthrew
      · exact iff_of_false nofun hthrew

end CoroutineServer.TestClient
