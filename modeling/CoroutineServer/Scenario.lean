import CoroutineServer.Proof.Runs
import CoroutineServer.Render

/-!
# A platform to run on

A platform whose parts can be computed: the serialiser of the library for values without floating-point
numbers, a parser for a given list of requests, and FNV-1a for the hash. Runs on it are given by scripts
and checked by evaluation, also against the conditions of `OpsMeet`.
-/

namespace CoroutineServer

open Program CSession

/-! ### The platform -/

/-- FNV-1a on 64 bits. -/
def fnv1a (input : Bytes) : UInt64 :=
  input.foldl (fun value byte => (value ^^^ byte.toUInt64) * 1099511628211) 14695981039346656037

/-- The platform that can parse the serialised form of some requests. -/
def Platform.reading (requests : List Json) (h : ∀ root ∈ requests, root.WellFormed) : Platform where
  parse text := requests.find? fun root => render root = text
  dump root := .ok (render root)
  truncate _ := 0
  hash := fnv1a
  parse_wellFormed := fun _ root hroot => h root (List.mem_of_find?_eq_some hroot)
  dump_ok := fun root _ => ⟨render root, rfl⟩
  dump_ne_nil := fun root _ htext hnil => by
    obtain rfl := Except.ok.inj htext
    exact render_ne_nil root hnil

def credentials (username : String) : Json :=
  Json.null
    |>.set "username" (.text username)
    |>.set "password" (.text "secret")

def chatBody (toUid : Int) : Json :=
  Json.null
    |>.set "to_uid" (.number toUid)
    |>.set "content" (.text "hello")

def requests : List Json :=
  [credentials "ann", credentials "bob", credentials "eve", credentials "dan", chatBody 1, chatBody 2]

theorem requests_wellFormed : ∀ root ∈ requests, root.WellFormed := by
  have hcredentials : ∀ {username}, (∀ byte ∈ ascii username, byte < 0x80) →
      (credentials username).WellFormed := fun h =>
    (Json.WellFormed.null.set_text (by decide) h).set_text (by decide) (by decide)
  have hchat : ∀ {toUid}, (chatBody toUid).WellFormed :=
    (Json.WellFormed.null.set_number (by decide)).set_text (by decide) (by decide)
  intro root hroot
  simp only [requests, List.mem_cons, List.not_mem_nil, or_false] at hroot
  rcases hroot with rfl | rfl | rfl | rfl | rfl | rfl
  · exact hcredentials (by decide)
  · exact hcredentials (by decide)
  · exact hcredentials (by decide)
  · exact hcredentials (by decide)
  · exact hchat
  · exact hchat

abbrev reference : Platform := .reading requests requests_wellFormed

/-- Three users with the same password, and the messages they have. -/
def usersDb (messages : List MessageRow) (lastMsgId : Int) : Db where
  users := [⟨1, ascii "ann", DBManager.simpleHash reference (ascii "secret")⟩,
    ⟨2, ascii "bob", DBManager.simpleHash reference (ascii "secret")⟩,
    ⟨3, ascii "eve", DBManager.simpleHash reference (ascii "secret")⟩]
  friends := []
  messages
  lastUid := 3
  lastFriendId := 0
  lastMsgId

def quietDb : Db := usersDb [] 0

/-- A message from bob waits for ann. -/
def backlogDb : Db := usersDb [⟨1, 2, 1, ascii "hi", ascii "2024-01-01 00:00:00", false⟩] 1

theorem quietDb_wellFormed : quietDb.WellFormed where
  uid_pos := by decide
  lastUid_nonneg := by decide
  lastMsgId_nonneg := by decide
  msgId_le := fun row hrow => by cases hrow
  msgId_ascending := .nil
  content_valid := fun row hrow => by cases hrow
  timestamp_valid := fun row hrow => by cases hrow

theorem backlogDb_wellFormed : backlogDb.WellFormed where
  uid_pos := by decide
  lastUid_nonneg := by decide
  lastMsgId_nonneg := by decide
  msgId_le := by decide
  msgId_ascending := List.pairwise_singleton _ _
  content_valid := fun row hrow => by
    obtain rfl := List.mem_singleton.mp hrow
    exact .of_ascii (by decide)
  timestamp_valid := fun row hrow => by
    obtain rfl := List.mem_singleton.mp hrow
    exact .of_ascii (by decide)

/-! ### Scripts -/

/-- What happens in a script. The worker serves one message at a time, in a number of operations, and
a call of `Close` can be left standing between its steps. -/
inductive Act where
  | accept (session : Sid)
  | post (session : Sid) (msgId : Int) (body : Json)
  | serve (operations : Nat)
  | closeCall (thread : Nat) (session : Sid)
  | io (thread steps : Nat)

def Act.labels : Act → List Label
  | .accept session => [.accept session]
  | .post session msgId body => [.post ⟨session, msgId, render body⟩]
  | .serve operations => .dispatch :: (List.replicate operations (.work .idle) ++ [.finish])
  | .closeCall thread session => [.closeCall thread session]
  | .io thread steps => List.replicate steps (.io thread)

/-- The state a script leads to from the start on a database. -/
def played (db : Db) (script : List Act) : State :=
  Reach.after (step reference) (script.flatMap Act.labels) (.initial db)

/-- The script is a run, and its steps pass a test. -/
def plays (test : Label → State → Bool) (db : Db) (script : List Act) : Bool :=
  Reach.meets (step reference) test (script.flatMap Act.labels) (.initial db)

/-- Ann and bob log in, and bob sends ann a message. -/
def chatScript : List Act :=
  [.accept 0, .accept 1, .post 0 MSG_LOGIN_REQ (credentials "ann"), .serve 7,
    .post 1 MSG_LOGIN_REQ (credentials "bob"), .serve 7, .post 1 MSG_SEND_CHAT_REQ (chatBody 1), .serve 8]

theorem work_of_mem_script {script : List Act} {input : Input}
    (h : Label.work input ∈ script.flatMap Act.labels) : input = .idle := by
  obtain ⟨act, -, hact⟩ := List.mem_flatMap.mp h
  cases act with
  | serve operations =>
    simp only [Act.labels, List.mem_cons, List.mem_append, List.mem_replicate, List.not_mem_nil,
      reduceCtorEq, false_or, or_false, Label.work.injEq] at hact
    exact hact.2
  | io thread steps =>
    simp [Act.labels, List.mem_replicate] at hact
  | _ => simp [Act.labels] at hact

/-- A test for a condition on the operations. -/
def testOps (onWorker : Op → State → Bool) (onIo : Op → State → Bool) : Label → State → Bool
  | .work _, state => match state.worker with
      | some (.perform op _) => onWorker op state
      | _ => true
  | .io thread, state => match state.closers thread with
      | some (session, pos) => onIo (pos.op session) state
      | none => true
  | _, _ => true

theorem run_of_plays {ok : Label → State → Prop} {test : Label → State → Bool} {db : Db}
    {script : List Act} (hok : ∀ label state, (∀ input, label = .work input → input = .idle) →
      Reaches reference ok state → test label state = true → ok label state)
    (hdb : db.WellFormed) (hplays : plays test db script = true) :
    ∃ visited, Reach.Run (step reference) (fun state => state = .initial db) ok visited
      (played db script) := by
  refine Reach.Run.of_meets (fun label hlabel state hreach htest => ?_) (.initial rfl) hplays
  refine hok label state ?_ (hreach.mono (fun _ h => ⟨db, hdb, h⟩) fun _ _ => id) htest
  rintro input rfl
  exact work_of_mem_script hlabel

theorem reachesFrom_of_plays {db : Db} {script : List Act} (hdb : db.WellFormed)
    (hplays : plays (fun _ _ => true) db script = true) :
    ReachesFrom reference db (fun _ _ => True) (played db script) := by
  obtain ⟨visited, hrun⟩ := run_of_plays (fun _ _ _ _ _ => trivial) hdb hplays
  exact hrun.reaches

theorem reaches_of_plays {ok : Label → State → Prop} {test : Label → State → Bool} {db : Db}
    {script : List Act} (hok : ∀ label state, (∀ input, label = .work input → input = .idle) →
      Reaches reference ok state → test label state = true → ok label state)
    (hdb : db.WellFormed) (hplays : plays test db script = true) :
    Reaches reference ok (played db script) := by
  obtain ⟨visited, hrun⟩ := run_of_plays hok hdb hplays
  exact hrun.reaches.mono (fun _ h => ⟨db, hdb, h⟩) fun _ _ => id

theorem reached_of_plays {db : Db} {script : List Act} (hdb : db.WellFormed)
    (hplays : plays (fun _ _ => true) db script = true) :
    Reaches reference (fun _ _ => True) (played db script) :=
  reaches_of_plays (fun _ _ _ _ _ => trivial) hdb hplays

theorem opsMeet_of_test {onWorker : Input → Op → State → Prop} {onIo : Sid → Op → State → Prop}
    {workerTest ioTest : Op → State → Bool} {label : Label} {state : State}
    (hworker : ∀ op, workerTest op state = true → onWorker .idle op state)
    (hio : ∀ session op, ioTest op state = true → onIo session op state)
    (hidle : ∀ input, label = .work input → input = .idle)
    (htest : testOps workerTest ioTest label state = true) : OpsMeet onWorker onIo label state := by
  cases label with
  | work input =>
    obtain rfl := hidle input rfl
    intro op next hnext
    rw [testOps, hnext] at htest
    exact hworker op htest
  | io thread =>
    intro session pos hcloser
    rw [testOps, hcloser] at htest
    exact hio session _ htest
  | _ => trivial

/-- Only a call of `Close` on the thread and its own steps change what a thread does. -/
theorem closers_of_step {platform : Platform} {label : Label} {state state' : State} {thread : Nat}
    (hstep : step platform label state = some state') (hio : label ≠ .io thread)
    (hcall : ∀ session, label ≠ .closeCall thread session) :
    state'.closers thread = state.closers thread := by
  cases label with
  | closeCall other session =>
    simp only [step, Option.ite_none_right_eq_some, Option.some.injEq] at hstep
    obtain ⟨-, rfl⟩ := hstep
    exact Function.update_of_ne (fun heq => hcall session (by rw [heq])) _ _
  | io other =>
    simp only [step] at hstep
    split at hstep
    · obtain rfl := Option.some.inj hstep
      exact Function.update_of_ne (fun heq => hio (by rw [heq])) _ _
    · cases hstep
  | _ =>
    simp only [step] at hstep
    split at hstep <;> first
      | cases hstep; rfl
      | cases hstep
      | (split at hstep <;> cases hstep <;> rfl)

theorem reachesFine_of_plays {db : Db} {script : List Act} (hdb : db.WellFormed)
    (hplays : plays (testOps (fun _ _ => true) fun _ _ => true) db script = true) :
    ReachesFrom reference db sqliteFine (played db script) := by
  have hok : ∀ label state, (∀ input, label = .work input → input = .idle) →
      Reaches reference sqliteFine state →
      testOps (fun _ _ => true) (fun _ _ => true) label state = true → sqliteFine label state :=
    fun _ _ hidle _ => opsMeet_of_test (fun _ _ => rfl) (fun _ _ _ => trivial) hidle
  obtain ⟨visited, hrun⟩ := run_of_plays hok hdb hplays
  exact hrun.reaches

theorem closers_after {labels : List Label} {thread : Nat} {state : State}
    (hlabels : ∀ session, Label.closeCall thread session ∉ labels)
    (hstate : state.closers thread = none) :
    (Reach.after (step reference) labels state).closers thread = none := by
  induction labels generalizing state with
  | nil => exact hstate
  | cons label labels ih =>
    apply ih (fun session hmem => hlabels session (List.mem_cons_of_mem _ hmem))
    cases hstep : step reference label state with
    | none => exact hstate
    | some state' =>
      rw [Option.getD_some, ← hstate]
      refine closers_of_step hstep ?_ fun other => ?_
      · rintro rfl
        simp [step, hstate] at hstep
      · rintro rfl
        exact hlabels other List.mem_cons_self

theorem closers_played {db : Db} {script : List Act} {thread : Nat}
    (h : ∀ session, Act.closeCall thread session ∉ script) :
    (played db script).closers thread = none := by
  refine closers_after (fun session hmem => ?_) rfl
  obtain ⟨act, hact, hlabel⟩ := List.mem_flatMap.mp hmem
  cases act with
  | closeCall other target =>
    simp only [Act.labels, List.mem_singleton, Label.closeCall.injEq] at hlabel
    obtain ⟨rfl, rfl⟩ := hlabel
    exact h session hact
  | io other steps =>
    simp [Act.labels, List.mem_replicate] at hlabel
  | _ => simp [Act.labels] at hlabel

/-- When `Close` was called on one thread only and has ended there, none is in progress. -/
theorem closers_eq_none {db : Db} {script : List Act} (thread : Nat)
    (hscript : ∀ act ∈ script, ∀ other session, act = .closeCall other session → other = thread)
    (hended : ((played db script).closers thread).isNone = true) (other : Nat) :
    (played db script).closers other = none := by
  by_cases hother : other = thread
  · rw [hother]
    exact Option.isNone_iff_eq_none.mp hended
  · exact closers_played fun session hmem => hother (hscript _ hmem other session rfl)

/-! ### One handler -/

theorem step_after (label : Label) (state : State)
    (h : (step reference label state).isSome = true) :
    step reference label state = some (Reach.after (step reference) [label] state) := by
  obtain ⟨state', hstep⟩ := Option.isSome_iff_exists.mp h
  rw [Reach.after, hstep, Option.getD_some]
  rfl

theorem handling_of_meets {ok : Label → State → Prop} {test : Label → State → Bool} {begun : State}
    {labels : List Label}
    (hok : ∀ label ∈ labels, label ≠ .dispatch ∧ ∀ state, test label state = true → ok label state)
    (hmeets : Reach.meets (step reference) test labels begun = true) :
    Handling reference ok begun (Reach.after (step reference) labels begun) :=
  .of_meets rfl (fun label hlabel state _ htest =>
    ⟨(hok label hlabel).2 state htest, (hok label hlabel).1⟩) hmeets

/-- The worker's operations for one message, and its return. -/
def serving (operations : Nat) : List Label := List.replicate operations (.work .idle) ++ [.finish]

theorem mem_serving {operations : Nat} {label : Label} (h : label ∈ serving operations) :
    label ≠ .dispatch ∧ ∀ input, label = .work input → input = .idle := by
  rcases List.mem_append.mp h with hwork | hfinish
  · obtain rfl := List.eq_of_mem_replicate hwork
    exact ⟨fun heq => (by cases heq), fun input heq => (Label.work.inj heq).symm⟩
  · obtain rfl := List.mem_singleton.mp hfinish
    exact ⟨fun heq => (by cases heq), fun input heq => (by cases heq)⟩

/-! ### Registrations -/

/-- The users a session has been registered for. -/
def registeredFor (session : Sid) : List Event → List Int
  | [] => []
  | .did ⟨.addOnlineUser uid other, _⟩ :: earlier =>
      if other = session then uid :: registeredFor session earlier else registeredFor session earlier
  | _ :: earlier => registeredFor session earlier

theorem registeredFor_suffix (session : Sid) (event : Event) (earlier : List Event) :
    registeredFor session earlier <:+ registeredFor session (event :: earlier) := by
  rw [registeredFor.eq_def session (event :: earlier)]
  split
  · contradiction
  · next heq =>
    obtain ⟨-, rfl⟩ := List.cons.inj heq
    split_ifs
    · exact List.suffix_cons _ _
    · exact List.suffix_refl _
  · next heq =>
    obtain ⟨-, rfl⟩ := List.cons.inj heq
    exact List.suffix_refl _

theorem mem_registeredFor {platform : Platform} {ok : Label → State → Prop} {state : State} {uid : Int}
    {session : Sid} (hreach : Reaches platform ok state)
    (hentry : state.world.onlineUsers uid = some session) :
    uid ∈ registeredFor session state.world.history := by
  revert uid session
  apply invariant_of_moves (fun state => ∀ {uid : Int} {session : Sid},
    state.world.onlineUsers uid = some session → uid ∈ registeredFor session state.world.history)
    hreach (fun _ => id)
  · rintro _ ⟨db, -, rfl⟩ uid session hentry
    cases hentry
  · intro state state' h hquiet uid session hentry
    rw [hquiet.history]
    rw [hquiet.onlineUsers] at hentry
    exact h hentry
  · exact fun state node rest _ h _ uid session hentry => h hentry
  · intro state input op next node _ h _ _ _ _ uid session hentry
    rw [history_workStep]
    rcases onlineUsers_perform_eq_some platform input op state.world hentry with ⟨rfl, -⟩ | ⟨hold, -⟩
    · rw [registeredFor, if_pos rfl]
      exact List.mem_cons_self
    · exact (registeredFor_suffix session _ _).subset (h hold)
  · intro state thread session pos _ h _ _ uid other hentry
    rw [history_ioStep]
    rcases onlineUsers_perform_eq_some platform .idle _ state.world hentry with ⟨heq, -⟩ | ⟨hold, -⟩
    · cases pos <;> cases heq
    · exact h hold

end CoroutineServer
