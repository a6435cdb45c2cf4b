import CoroutineServer.PrintResponse
import CoroutineServer.System
import CoroutineServer.TestClient

/-!
# The commands of the test client

One turn of the loop of `main`: the line, the request and what is done with the response. What the receive
thread does in the meantime, and when `WaitForResponse` returns, is in `ClientLoop`; here it is the value
that `WaitForResponse` returns, which is null when there is no response.
-/

namespace CoroutineServer.TestClient

/-! ### The line -/

/-- `isspace` in the C locale. -/
def isSpace (byte : UInt8) : Bool := byte == 0x20 || (0x09 ≤ byte && byte ≤ 0x0d)

/-- `iss >> text`: the word and what is left, `none` when it fails. -/
def readWord (iss : Bytes) : Option (Bytes × Bytes) :=
  let rest := iss.dropWhile isSpace
  let word := rest.takeWhile fun byte => !isSpace byte
  if word = [] then none else some (word, rest.dropWhile fun byte => !isSpace byte)

/-- `iss >> cmd`, which leaves `cmd` empty when it fails. -/
def readCmd (line : Bytes) : Bytes × Bytes := (readWord line).getD ([], [])

def isDigit (byte : UInt8) : Bool := 0x30 ≤ byte && byte ≤ 0x39

def decimalValue (digits : Bytes) : Int :=
  digits.foldl (fun value byte => 10 * value + (byte.toNat - 48 : Nat)) 0

/-- `iss >> number` for an `int64_t`: a sign, if there is one, and digits; out of range it fails. -/
def readInt64 (iss : Bytes) : Option (Int × Bytes) :=
  let rest := iss.dropWhile isSpace
  let negative := rest.head? == some 0x2d
  let rest := if negative || rest.head? == some 0x2b then rest.tail else rest
  let digits := rest.takeWhile isDigit
  let value := (if negative then -1 else 1) * decimalValue digits
  if digits = [] ∨ toInt64 value ≠ value then none else some (value, rest.dropWhile isDigit)

/-- What a line at the prompt asks for. -/
inductive Entry where
  | nothing
  /-- Something is printed: a usage, a refusal or the help. -/
  | prints (text : Bytes)
  | asks (command : Command) (req : Json)
  | login (user pass : Bytes)
  | reconnect
  | quit

def validateUsername (user : Bytes) : Bool :=
  !(user.length < MIN_USERNAME_LEN || user.length > MAX_USERNAME_LEN)

def validatePassword (pass : Bytes) : Bool :=
  !(pass.length < MIN_PASSWORD_LEN || pass.length > MAX_PASSWORD_LEN)

def lengthRule (subject : String) (least most : Nat) : Bytes :=
  ascii "[Client] " ++ ascii subject ++ ascii " must be " ++ shown least ++ ascii "-" ++ shown most
    ++ ascii " chars\n"

/-- The request of `/register` and of both logins. -/
def credentialsReq (user pass : Bytes) : Json :=
  Json.null
    |>.set "username" (.string user)
    |>.set "password" (.string pass)

namespace Entry

/-- `/register` and `/login`. -/
def credentials (usage : String) (accept : Bytes → Bytes → Entry) (iss : Bytes) : Entry :=
  match readWord iss with
  | none => .prints (ascii usage)
  | some (user, iss) => match readWord iss with
      | none => .prints (ascii usage)
      | some (pass, _) =>
          if validateUsername user = false then
            .prints (lengthRule "username" MIN_USERNAME_LEN MAX_USERNAME_LEN)
          else if validatePassword pass = false then
            .prints (lengthRule "password" MIN_PASSWORD_LEN MAX_PASSWORD_LEN)
          else accept user pass

/-- `/friend`. -/
def friend (iss : Bytes) : Entry :=
  match readWord iss with
  | none => .prints (ascii "Usage: /friend add <uid>\n")
  | some (sub, iss) =>
      if sub ≠ ascii "add" then .prints (ascii "Unknown: /friend " ++ sub ++ ascii "\n")
      else match readInt64 iss with
        | none => .prints (ascii "Usage: /friend add <uid>\n")
        | some (friendUid, _) => .asks .addFriend (Json.null.set "friend_uid" (.number friendUid))

/-- `/chat`. -/
def chat (iss : Bytes) : Entry :=
  match readInt64 iss with
  | none => .prints (ascii "Usage: /chat <uid> <message>\n")
  | some (toUid, iss) =>
      let content := iss.takeWhile fun byte => byte != 0x0a
      let trimmed := content.dropWhile fun byte => byte == 0x20 || byte == 0x09
      -- a content of nothing but blanks is not trimmed
      let content := if trimmed = [] then content else trimmed
      if content = [] then .prints (ascii "message empty\n")
      else .asks .chat
        (Json.null
          |>.set "to_uid" (.number toUid)
          |>.set "content" (.string content))

def help : Bytes := ascii ("Commands:\n  /register <user> <pass>\n  /login <user> <pass>\n  /friends\n" ++
  "  /friend add <uid>\n  /chat <uid> <message>\n  /offline\n  /reconnect\n  /help\n  /quit\n")

def read (line : Bytes) : Entry :=
  if line = [] then .nothing
  else
    let (cmd, iss) := readCmd line
    if cmd = ascii "/register" then
      credentials "Usage: /register <user> <pass>\n"
        (fun user pass => .asks .register (credentialsReq user pass)) iss
    else if cmd = ascii "/login" then credentials "Usage: /login <user> <pass>\n" .login iss
    else if cmd = ascii "/friends" then .asks .friends .null
    else if cmd = ascii "/friend" then friend iss
    else if cmd = ascii "/chat" then chat iss
    else if cmd = ascii "/offline" then .asks .offline .null
    else if cmd = ascii "/reconnect" then .reconnect
    else if cmd = ascii "/help" then .prints help
    else if cmd = ascii "/quit" then .quit
    else .prints (ascii "Unknown: " ++ cmd ++ ascii ". Type /help\n")

end Entry

/-! ### One turn -/

def Command.reqId : Command → Int
  | .register => MSG_REGISTER_REQ
  | .login => MSG_LOGIN_REQ
  | .friends => MSG_GET_FRIEND_LIST_REQ
  | .addFriend => MSG_ADD_FRIEND_REQ
  | .chat => MSG_SEND_CHAT_REQ
  | .offline => MSG_OFFLINE_MSG_REQ

/-- The global variables, and what has been printed. -/
structure Globals where
  connected : Bool
  loggedIn : Bool
  lastUsername : Bytes
  lastPassword : Bytes
  printed : Bytes

/-- What a turn gets from outside: the error of `connect`, the exception of `write`, and the value of
`WaitForResponse`. -/
structure Outside where
  connectError : Option Bytes
  writeError : Option Exn
  rsp : Json

namespace Globals

def print (globals : Globals) (text : Bytes) : Globals :=
  { globals with printed := globals.printed ++ text }

def say (globals : Globals) (text : String) : Globals := globals.print (ascii text)

/-- The catch block of `SendMsg`. -/
def sendFailed (globals : Globals) (what : Exn) : Globals :=
  { globals.print (ascii "[Client] send failed: " ++ what ++ ascii "\n") with
    connected := false
    loggedIn := false }

end Globals

inductive TurnEnd where
  | goesOn (globals : Globals)
  /-- `break`. -/
  | leaves (globals : Globals)
  /-- `return 1`. -/
  | gives (globals : Globals)

section Turns

variable (platform : Platform) (outside : Outside)

/-- `SendMsg`, with its result. -/
def trySend (command : Command) (req : Json) (globals : Globals) : Bool × Globals :=
  match platform.dump req with
  | .error what => (false, globals.sendFailed what)
  | .ok jsonStr => match sendMsg command.reqId jsonStr with
      | none => (false, globals.print
          (ascii "[Client] JSON too long: " ++ shown jsonStr.length ++ ascii "\n"))
      | some _ => match outside.writeError with
          | some what => (false, globals.sendFailed what)
          | none => (true, globals)

/-- A command that sends a request; `remember` is what an accepted login keeps. -/
def commandTurn (command : Command) (req : Json) (remember : Globals → Globals) (globals : Globals) :
    Except Crash TurnEnd := do
  let (sent, globals) := trySend platform outside command req globals
  if sent then
    let (text, accepted) ← respond platform.truncate command outside.rsp
    let globals := globals.print text
    return .goesOn (if accepted then remember globals else globals)
  else return .goesOn globals

/-- A turn at the prompt of a connection that was up at the head of the loop. -/
def promptTurn (line : Bytes) (globals : Globals) : Except Crash TurnEnd :=
  match Entry.read line with
  | .nothing => .ok (.goesOn globals)
  | .prints text => .ok (.goesOn (globals.print text))
  | .asks command req => commandTurn platform outside command req id globals
  | .login user pass => commandTurn platform outside .login (credentialsReq user pass)
      (fun globals => { globals with loggedIn := true, lastUsername := user, lastPassword := pass })
      globals
  | .reconnect => .ok (.goesOn { globals.say "[Client] manual reconnect...\n" with connected := false })
  | .quit => .ok (.leaves globals)

def doLogin (globals : Globals) : Except Crash (Bool × Globals) :=
  if globals.lastUsername = [] then
    .ok (false, globals.say "[Client] no cached credentials, use /login first\n")
  else do
    let req := credentialsReq globals.lastUsername globals.lastPassword
    let (sent, globals) := trySend platform outside .login req globals
    if sent then
      let (text, accepted) ← restore platform.truncate outside.rsp
      let globals := globals.print text
      return (accepted, if accepted then { globals with loggedIn := true } else globals)
    else return (false, globals)

def tryConnect (globals : Globals) : Bool × Globals :=
  match outside.connectError with
  | some message => (false, globals.print (ascii "[Client] connect failed: " ++ message ++ ascii "\n"))
  | none => (true, { globals.say "[Client] connected to 127.0.0.1:8080\n" with connected := true })

/-- A turn behind a lost connection. -/
def lostTurn (line : Bytes) (globals : Globals) : Except Crash TurnEnd :=
  let globals := globals.say "\n[Client] connection lost!\n[Client] type /reconnect or /quit\n"
  let (cmd, _) := readCmd line
  if cmd = ascii "/reconnect" then
    let globals := { globals.say "[Client] reconnecting...\n" with connected := false, loggedIn := false }
    let (connected, globals) := tryConnect outside globals
    if connected then do
      let (restored, globals) ← doLogin platform outside (globals.say "[Client] restoring login state...\n")
      if restored then return .goesOn globals
      else return .goesOn (globals.say "[Client] re-login failed, use /login manually\n")
    else .ok (.gives globals)
  else .ok (.leaves globals)

/-- A turn of the loop with a line. -/
def turn (line : Bytes) (globals : Globals) : Except Crash TurnEnd :=
  if globals.connected then promptTurn platform outside line (globals.say "> ")
  else lostTurn platform outside line globals

end Turns

/-- A line, what its turn gets from outside, and whether the receive thread has lost the connection since the
turn before. -/
structure Entered where
  line : Bytes
  outside : Outside
  lost : Bool

/-- What `RecvThreadFunc` leaves when `RecvOneMessage` returns false. -/
def Entered.before (entered : Entered) (globals : Globals) : Globals :=
  if entered.lost then { globals with connected := false, loggedIn := false } else globals

/-- The loop of `main` over the lines of a session. -/
def mainLoop (platform : Platform) : List Entered → Globals → Except Crash TurnEnd
  | [], globals => .ok (.goesOn globals)
  | entered :: rest, globals =>
      match turn platform entered.outside entered.line (entered.before globals) with
      | .ok (.goesOn globals) => mainLoop platform rest globals
      | ended => ended

/-! ### What is to hold -/

/-- The command whose response a line can wait for. -/
def asked (line : Bytes) (globals : Globals) : Option Command :=
  if globals.connected then match Entry.read line with
    | .asks command _ => some command
    | .login _ _ => some .login
    | _ => none
  else some .login

/-- In some reachable state of the server, a handler that serves the request of a command is about to send
this body to the session that asked. -/
def Builds (platform : Platform) (command : Command) (rsp : Json) : Prop :=
  ∃ state node payload next, CoroutineServer.Reaches platform (fun _ _ => True) state ∧
    served state.world.history = some node ∧ node.msgId = command.reqId ∧
      state.worker = some (.perform (.loadStop node.session payload command.rspId) next) ∧
        payload.json = rsp

/-- What `WaitForResponse` can return for a command: null, or the body as the server has built it. -/
def Outcome (platform : Platform) (command : Command) (rsp : Json) : Prop :=
  rsp = .null ∨ Builds platform command rsp

/-- The line leaves the loop, or `/reconnect` finds no server. -/
def Leaves (outside : Outside) (line : Bytes) (globals : Globals) : TurnEnd → Prop
  | .goesOn _ => False
  | .leaves _ => if globals.connected then (readCmd line).1 = ascii "/quit"
      else (readCmd line).1 ≠ ascii "/reconnect"
  | .gives _ => globals.connected = false ∧ outside.connectError.isSome = true

/-- No exception leaves the turn, and the loop goes on unless the line leaves it. -/
def Survives (outside : Outside) (line : Bytes) (globals : Globals) : Except Crash TurnEnd → Prop
  | .ok (.goesOn _) => True
  | .ok turn => Leaves outside line globals turn
  | .error _ => False

/-- The condition goes wrong: the request of a `/login` is sent, and there is no response. -/
def Unanswered (platform : Platform) (outside : Outside) (line : Bytes) (globals : Globals) : Prop :=
  globals.connected = true ∧ outside.rsp = .null ∧ ∃ user pass, Entry.read line = .login user pass ∧
    (trySend platform outside .login (credentialsReq user pass) globals).1 = true

/-- Each turn of a session that is come to gets what `WaitForResponse` can return, and is not unanswered. -/
def Answered (platform : Platform) : List Entered → Globals → Prop
  | [], _ => True
  | entered :: rest, globals =>
      (∀ command, asked entered.line (entered.before globals) = some command →
        Outcome platform command entered.outside.rsp) ∧
      ¬Unanswered platform entered.outside entered.line (entered.before globals) ∧
      ∀ globals', turn platform entered.outside entered.line (entered.before globals)
        = .ok (.goesOn globals') → Answered platform rest globals'

end CoroutineServer.TestClient
