import CoroutineServer.Proof.SendSteps

/-!
# One write at a time

Emptiness of the queue stands for the right to write. The right goes from the `Send` that finds the queue
empty to its write, from a completed write to the `HandleWrite` that finds another frame, and is lost with
the first write that fails: the frame it was for stays at the front.
-/

namespace CoroutineServer

namespace SendQueue

variable {channel channel' : Channel} {label : Label}

/-- Who has the right to write. -/
inductive Turn where
  /-- The queue is empty. -/
  | free
  | sender (thread : Nat) (node : SendNode)
  | handler (node : SendNode)
  | writing (write : Write)
  /-- `HandleWrite` has seen the error of a write, and nobody starts another one. -/
  | lost (write : Write)

namespace Turn

/-- The node it is about. -/
def node? : Turn → Option SendNode
  | .free => none
  | .sender _ node => some node
  | .handler node => some node
  | .writing write => some write.node
  | .lost write => some write.node

def writes : Turn → List Write
  | .writing write => [write]
  | _ => []

/-- The write that has been started for the front of the queue. -/
def started : Turn → List Write
  | .writing write => [write]
  | .lost write => [write]
  | _ => []

end Turn

/-- A write has counted its bytes, and completes without an error only behind the last one. -/
structure Write.Sound (write : Write) : Prop where
  fits : write.sent ≤ write.buffer.length
  whole : write.result = some true → write.sent = write.buffer.length

/-- The bytes a write has put on the socket. -/
def Write.onWire (write : Write) : Bytes := write.buffer.take write.sent

/-- What the threads hold, the queue and the history when the frames `done` have been written and popped
and `turn` has the right to write. -/
structure Stands (turn : Turn) (done : List SendNode) (channel : Channel) : Prop where
  senders : ∀ thread node, channel.senders thread = .starting node ↔ turn = .sender thread node
  handler : ∀ node, channel.handler = .starting node ↔ turn = .handler node
  defined : channel.handler ≠ .undefinedPop
  writes : channel.writes = turn.writes
  front : channel.sendQue.head? = turn.node?
  order : channel.accepted = done ++ channel.sendQue
  given : channel.given = done.map SendNode.wire ++ turn.started.map Write.buffer
  wire : channel.wire = done.flatMap SendNode.wire ++ turn.started.flatMap Write.onWire
  sound : ∀ write ∈ turn.started, write.Sound
  failed : channel.failed = true ↔ ∃ write ∈ turn.started, write.result = some false
  lost : ∀ write, turn = .lost write → write.result = some false

theorem stands_initial : Stands .free [] .initial where
  senders _ _ := ⟨fun h => (by cases h), fun h => (by cases h)⟩
  handler _ := ⟨fun h => (by cases h), fun h => (by cases h)⟩
  defined h := by cases h
  writes := rfl
  front := rfl
  order := rfl
  given := rfl
  wire := rfl
  sound _ h := by cases h
  failed := ⟨fun h => (by cases h), fun ⟨_, h, _⟩ => (by cases h)⟩
  lost _ h := by cases h

/-! ### The steps of the senders -/

/-- A thread that does not hold the front may go anywhere but before `async_write`. -/
theorem senders_setSender {turn : Turn} {thread : Nat} {pos : SendPos}
    (h : ∀ other node, channel.senders other = .starting node ↔ turn = .sender other node)
    (hbefore : ∀ node, channel.senders thread ≠ .starting node) (hpos : ∀ node, pos ≠ .starting node)
    (other : Nat) (node : SendNode) :
    (channel.setSender thread pos).senders other = .starting node ↔ turn = .sender other node := by
  by_cases hother : other = thread
  · subst hother
    rw [Channel.senders_setSender_self]
    exact ⟨fun hstarting => absurd hstarting (hpos node),
      fun hturn => absurd ((h other node).mpr hturn) (hbefore node)⟩
  · rw [Channel.senders_setSender_of_ne _ _ hother]
    exact h other node

theorem Stands.setSender {turn : Turn} {done : List SendNode} {thread : Nat} {pos : SendPos}
    (h : Stands turn done channel) (hbefore : ∀ node, channel.senders thread ≠ .starting node)
    (hpos : ∀ node, pos ≠ .starting node) : Stands turn done (channel.setSender thread pos) :=
  { h with senders := senders_setSender h.senders hbefore hpos }

theorem Stands.push {turn : Turn} {done : List SendNode} {thread : Nat} {node : SendNode}
    (h : Stands turn done channel) (hthread : channel.senders thread = .checked node) :
    ∃ turn', Stands turn' done (channel.push thread node) := by
  have hbefore : ∀ other, channel.senders thread ≠ .starting other := by
    intro other hstarting
    cases hthread.symm.trans hstarting
  unfold Channel.push
  split_ifs with hfull
  · exact ⟨turn, h.setSender hbefore fun _ hidle => (by cases hidle)⟩
  have horder : channel.accepted ++ [node] = done ++ (channel.sendQue ++ [node]) := by
    rw [h.order, List.append_assoc]
  cases hque : channel.sendQue with
  | nil =>
    -- the queue was empty, so the right to write was free
    have hfront := h.front
    rw [hque] at hfront
    cases turn with
    | free =>
      refine ⟨.sender thread node, ?_⟩
      refine { h with senders := ?_, handler := ?_, order := ?_, front := rfl, lost := ?_ }
      · intro other held
        by_cases hother : other = thread
        · subst hother
          simp
        · simp [hother, h.senders, Ne.symm hother]
      · exact fun held => ⟨fun hheld => (by cases (h.handler held).mp hheld), fun hturn => (by cases hturn)⟩
      · rw [hque] at horder
        exact horder
      · exact fun _ hturn => (by cases hturn)
    | sender | handler | writing | lost => cases hfront
  | cons front rest =>
    refine ⟨turn, ?_⟩
    refine { h with senders := senders_setSender h.senders hbefore fun _ hidle => (by cases hidle),
                    front := ?_, order := ?_ }
    · have hfront := h.front
      rw [hque] at hfront
      exact hfront
    · rw [hque] at horder
      exact horder

theorem Stands.startWrite {turn : Turn} {done : List SendNode} {thread : Nat} {node : SendNode}
    (h : Stands turn done channel) (hthread : channel.senders thread = .starting node) :
    Stands (.writing (.start node)) done ((channel.startWrite node).setSender thread .idle) := by
  obtain rfl := (h.senders thread node).mp hthread
  refine { h with senders := ?_, handler := ?_, writes := ?_, given := ?_, wire := ?_, sound := ?_,
                  failed := ?_, lost := ?_ }
  · intro other held
    by_cases hother : other = thread
    · subst hother
      simp
    · have hsender := h.senders other held
      simp only [Turn.sender.injEq, Ne.symm hother, false_and, iff_false] at hsender
      simp [hother, Channel.startWrite, hsender]
  · exact fun held => ⟨fun hheld => (by cases (h.handler held).mp hheld), fun hturn => (by cases hturn)⟩
  · simp [Channel.setSender, Channel.startWrite, h.writes, Turn.writes]
  · simp [Channel.setSender, Channel.startWrite, h.given, Turn.started, Write.buffer, Write.start]
  · simp [Channel.setSender, Channel.startWrite, h.wire, Turn.started, Write.onWire, Write.start]
  · intro write hwrite
    obtain rfl := List.mem_singleton.mp hwrite
    exact ⟨Nat.zero_le _, fun hresult => (by cases hresult)⟩
  · rw [show ((channel.startWrite node).setSender thread .idle).failed = channel.failed from rfl, h.failed]
    simp [Turn.started, Write.start]
  · exact fun _ hturn => (by cases hturn)

/-! ### The steps of a write and of its handler -/

theorem Stands.writing {turn : Turn} {done : List SendNode} {index : Nat} {write : Write}
    (h : Stands turn done channel) (hget : channel.writes[index]? = some write) :
    index = 0 ∧ turn = .writing write := by
  rw [h.writes] at hget
  cases turn with
  | writing held =>
    cases index with
    | zero => exact ⟨rfl, congrArg Turn.writing (Option.some.inj hget)⟩
    | succ index => cases hget
  | free | sender | handler | lost => cases hget

theorem Stands.startNext {turn : Turn} {done : List SendNode} {node : SendNode}
    (h : Stands turn done channel) (hhandler : channel.handler = .starting node) :
    Stands (.writing (.start node)) done { channel.startWrite node with handler := .idle } := by
  obtain rfl := (h.handler node).mp hhandler
  refine { h with senders := ?_, handler := ?_, defined := ?_, writes := ?_, given := ?_, wire := ?_,
                  sound := ?_, failed := ?_, lost := ?_ }
  · exact fun thread held =>
      ⟨fun hheld => (by cases (h.senders thread held).mp hheld), fun hturn => (by cases hturn)⟩
  · exact fun held => ⟨fun hheld => (by cases hheld), fun hturn => (by cases hturn)⟩
  · exact fun hpop => (by cases hpop)
  · simp [Channel.startWrite, h.writes, Turn.writes]
  · simp [Channel.startWrite, h.given, Turn.started, Write.buffer, Write.start]
  · simp [Channel.startWrite, h.wire, Turn.started, Write.onWire, Write.start]
  · intro write hwrite
    obtain rfl := List.mem_singleton.mp hwrite
    exact ⟨Nat.zero_le _, fun hresult => (by cases hresult)⟩
  · rw [show (channel.startWrite node).failed = channel.failed from rfl, h.failed]
    simp [Turn.started, Write.start]
  · exact fun _ hturn => (by cases hturn)

/-- A write has moved on, with its node. -/
theorem Stands.update {done : List SendNode} {write : Write} (h : Stands (.writing write) done channel)
    (write' : Write) (failed : Bool) (wire : Bytes) (hnode : write'.node = write.node)
    (hsound : write'.Sound) (hwire : channel.wire ++ wire = done.flatMap SendNode.wire ++ write'.onWire)
    (hfailed : failed = true ↔ write'.result = some false) :
    Stands (.writing write') done { channel with
      writes := channel.writes.set 0 write'
      wire := channel.wire ++ wire
      failed } where
  senders thread held :=
    ⟨fun hheld => (by cases (h.senders thread held).mp hheld), fun hturn => (by cases hturn)⟩
  handler held := ⟨fun hheld => (by cases (h.handler held).mp hheld), fun hturn => (by cases hturn)⟩
  defined := h.defined
  writes := by simp [h.writes, Turn.writes]
  front := h.front.trans (congrArg some hnode.symm)
  order := h.order
  given := by simp [h.given, Turn.started, Write.buffer, hnode]
  wire := by simpa [Turn.started] using hwire
  sound other hother := by
    obtain rfl := List.mem_singleton.mp hother
    exact hsound
  failed := by simpa [Turn.started] using hfailed
  lost _ hturn := by cases hturn

theorem Stands.transfer {done : List SendNode} {node : SendNode} {sent n : Nat}
    (h : Stands (.writing ⟨node, sent, none⟩) done channel) (hfits : sent + n ≤ node.wire.length) :
    Stands (.writing ⟨node, sent + n, none⟩) done { channel with
      writes := channel.writes.set 0 ⟨node, sent + n, none⟩
      wire := channel.wire ++ (node.wire.drop sent).take n } := by
  refine h.update _ channel.failed _ rfl ⟨hfits, fun hresult => (by cases hresult)⟩ ?_ ?_
  · rw [h.wire]
    simp [Turn.started, Write.onWire, Write.buffer, List.take_add]
  · rw [h.failed]
    simp [Turn.started]

theorem Stands.complete {done : List SendNode} {node : SendNode} {sent : Nat} {ok : Bool}
    (h : Stands (.writing ⟨node, sent, none⟩) done channel)
    (hwhole : ok = true → sent = node.wire.length) :
    Stands (.writing ⟨node, sent, some ok⟩) done { channel with
      writes := channel.writes.set 0 ⟨node, sent, some ok⟩
      failed := channel.failed || !ok } := by
  have hfits : sent ≤ node.wire.length := (h.sound _ (List.mem_singleton.mpr rfl)).fits
  have hfailed : channel.failed = false := by
    have hnone := h.failed
    simpa [Turn.started] using hnone
  have hupdate := h.update ⟨node, sent, some ok⟩ (channel.failed || !ok) [] rfl
    ⟨hfits, fun hresult => hwhole (Option.some.inj hresult)⟩ (by
      rw [h.wire]
      simp [Turn.started, Write.onWire, Write.buffer]) (by simp [hfailed])
  rwa [List.append_nil] at hupdate

/-- `HandleWrite` after a write without an error: the frame counts as done. -/
theorem Stands.pop {done : List SendNode} {node : SendNode} {sent : Nat}
    (h : Stands (.writing ⟨node, sent, some true⟩) done channel) :
    ∃ turn', Stands turn' (done ++ [node])
      ({ channel with writes := channel.writes.eraseIdx 0 } : Channel).pop := by
  have hwhole : sent = node.wire.length := (h.sound _ (List.mem_singleton.mpr rfl)).whole rfl
  have hsenders : ∀ thread held, channel.senders thread ≠ .starting held := by
    intro thread held hheld
    cases (h.senders thread held).mp hheld
  have hhandler : ∀ held, channel.handler ≠ .starting held := by
    intro held hheld
    cases (h.handler held).mp hheld
  have hwrites : channel.writes.eraseIdx 0 = [] := by simp [h.writes, Turn.writes]
  have hgiven : channel.given = (done ++ [node]).map SendNode.wire := by
    simp [h.given, Turn.started, Write.buffer]
  have hwire : channel.wire = (done ++ [node]).flatMap SendNode.wire := by
    simp [h.wire, Turn.started, Write.onWire, Write.buffer, hwhole]
  have hfailed : channel.failed = false := by
    have hnone := h.failed
    simpa [Turn.started] using hnone
  have hfront := h.front
  have horder := h.order
  unfold Channel.pop
  match hque : channel.sendQue with
  | [] =>
    rw [hque] at hfront
    cases hfront
  | [last] =>
    rw [hque] at hfront horder
    obtain rfl : last = node := Option.some.inj hfront
    exact ⟨.free,
      { senders := fun thread held => ⟨fun hheld => absurd hheld (hsenders thread held), nofun⟩
        handler := fun held => ⟨fun hheld => absurd hheld (hhandler held), nofun⟩
        defined := h.defined
        writes := hwrites
        front := rfl
        order := by simpa using horder
        given := by simpa [Turn.started] using hgiven
        wire := by simpa [Turn.started] using hwire
        sound := nofun
        failed := by simp [hfailed, Turn.started]
        lost := nofun }⟩
  | first :: next :: rest =>
    rw [hque] at hfront horder
    obtain rfl : first = node := Option.some.inj hfront
    exact ⟨.handler next,
      { senders := fun thread held => ⟨fun hheld => absurd hheld (hsenders thread held), nofun⟩
        handler := fun held => by simp
        defined := nofun
        writes := hwrites
        front := rfl
        order := by simpa using horder
        given := by simpa [Turn.started] using hgiven
        wire := by simpa [Turn.started] using hwire
        sound := nofun
        failed := by simp [hfailed, Turn.started]
        lost := nofun }⟩

/-- `HandleWrite` after an error takes the write away and leaves the queue as it is. -/
theorem Stands.fail {done : List SendNode} {write : Write}
    (h : Stands (.writing write) done channel) (hresult : write.result = some false) :
    Stands (.lost write) done { channel with
      writes := channel.writes.eraseIdx 0
      handler := .leaving } where
  senders thread held :=
    ⟨fun hheld => (by cases (h.senders thread held).mp hheld), fun hturn => (by cases hturn)⟩
  handler held := ⟨fun hheld => (by cases hheld), fun hturn => (by cases hturn)⟩
  defined hpop := by cases hpop
  writes := by simp [h.writes, Turn.writes]
  front := h.front
  order := h.order
  given := h.given
  wire := h.wire
  sound := h.sound
  failed := h.failed
  lost other hturn := by
    cases hturn
    exact hresult

/-! ### Whole runs -/

/-- The nodes that `Send` accepts or is about to accept were built from a text and an id. -/
structure Built (channel : Channel) : Prop where
  checked : ∀ thread node, channel.senders thread = .checked node →
    ∃ msg msgid, sendNode msg msgid = some (.ok node)
  accepted : ∀ node ∈ channel.accepted, ∃ msg msgid, sendNode msg msgid = some (.ok node)

theorem Stands.step {turn : Turn} {done : List SendNode} (h : Stands turn done channel)
    (hstep : step label channel = some channel') : ∃ turn' done', Stands turn' done' channel' := by
  cases steps_of_step hstep with
  | refused => exact ⟨turn, done, h⟩
  | send hidle =>
    refine ⟨turn, done, h.setSender ?_ fun _ hchecked => (by cases hchecked)⟩
    intro held hheld
    cases hidle.symm.trans hheld
  | push hchecked =>
    obtain ⟨turn', hturn⟩ := h.push hchecked
    exact ⟨turn', done, hturn⟩
  | startWrite hstarting => exact ⟨_, done, h.startWrite hstarting⟩
  | startNext hstarting => exact ⟨_, done, h.startNext hstarting⟩
  | transfer hget _ hfits =>
    obtain ⟨rfl, rfl⟩ := h.writing hget
    exact ⟨_, done, h.transfer hfits⟩
  | complete hget hwhole =>
    obtain ⟨rfl, rfl⟩ := h.writing hget
    exact ⟨_, done, h.complete hwhole⟩
  | written _ hget =>
    obtain ⟨rfl, rfl⟩ := h.writing hget
    obtain ⟨turn', hturn⟩ := h.pop
    exact ⟨turn', _, hturn⟩
  | failed _ hget =>
    obtain ⟨rfl, rfl⟩ := h.writing hget
    exact ⟨_, done, h.fail rfl⟩
  | leave hleaving =>
    refine ⟨turn, done, { h with handler := fun node => ⟨fun hheld => (by cases hheld), ?_⟩,
                                 defined := fun hundefined => (by cases hundefined) }⟩
    intro hturn
    cases hleaving.symm.trans ((h.handler node).mpr hturn)
  | close | closeSocket => exact ⟨turn, done, { h with }⟩

/-- The nodes in the hands of `Send`, or accepted by it, are those it builds. -/
theorem Built.step (h : Built channel) (hstep : step label channel = some channel') :
    Built channel' := by
  have hchecked : ∀ {thread other node pos}, (∀ held, pos ≠ .checked held) →
      (channel.setSender thread pos).senders other = .checked node →
        ∃ msg msgid, sendNode msg msgid = some (.ok node) := by
    intro thread other node pos hpos hother
    by_cases hsame : other = thread
    · subst hsame
      exact absurd (by simpa using hother) (hpos node)
    · exact h.checked other node (by simpa [hsame] using hother)
  cases steps_of_step hstep with
  | refused => exact h
  | @send thread msg msgid node _ _ hnode =>
    refine ⟨fun other held hheld => ?_, h.accepted⟩
    by_cases hother : other = thread
    · subst hother
      obtain rfl : node = held := by simpa using hheld
      exact ⟨msg, msgid, hnode⟩
    · exact h.checked other held (by simpa [hother] using hheld)
  | @push thread node hpushed =>
    refine ⟨fun other held hheld => ?_, fun held hheld => ?_⟩
    · by_cases hother : other = thread
      · subst hother
        exact absurd hheld (senders_push_ne_checked channel node held)
      · rw [senders_push_of_ne channel node hother] at hheld
        exact h.checked other held hheld
    · rcases accepted_push channel thread node with heq | heq <;> rw [heq] at hheld
      · exact h.accepted held hheld
      rcases List.mem_append.mp hheld with hheld | hheld
      · exact h.accepted held hheld
      · rw [List.mem_singleton.mp hheld]
        exact h.checked thread node hpushed
  | startWrite =>
    exact ⟨fun _ _ hheld => hchecked (fun _ heq => by cases heq) hheld, h.accepted⟩
  | written =>
    refine ⟨fun thread node hheld => ?_, ?_⟩
    · rw [senders_pop] at hheld
      exact h.checked thread node hheld
    · rw [accepted_pop]
      exact h.accepted
  | startNext | transfer | complete | failed | leave | close | closeSocket =>
    exact ⟨h.checked, h.accepted⟩

/-- **The invariant of a session's writes.** -/
structure Inv (channel : Channel) : Prop where
  stands : ∃ turn done, Stands turn done channel
  built : Built channel

theorem inv_of_reaches (hreach : Reaches channel) : Inv channel := by
  refine hreach.invariant (fun _ => True) (fun _ _ => trivial) ?_ fun _ _ _ _ h _ hstep => ?_
  · rintro _ rfl
    exact ⟨⟨_, _, stands_initial⟩, fun _ _ h => (by cases h), fun _ h => (by cases h)⟩
  · obtain ⟨turn, done, hstands⟩ := h.stands
    exact ⟨hstands.step hstep, h.built.step hstep⟩

/-! ### What the invariant says -/

theorem Stands.writes_length {turn : Turn} {done : List SendNode} (h : Stands turn done channel) :
    channel.writes.length ≤ 1 := by
  rw [h.writes]
  cases turn <;> simp [Turn.writes]

theorem Stands.front_of_node {turn : Turn} {done : List SendNode} {node : SendNode}
    (h : Stands turn done channel) (hnode : turn.node? = some node) :
    ∃ rest, channel.sendQue = node :: rest := by
  have hfront := h.front.trans hnode
  exact List.head?_eq_some_iff.mp hfront

theorem Stands.buffer_eq {turn : Turn} {done : List SendNode} {write : Write}
    (h : Stands turn done channel) (hwrite : write ∈ channel.writes) :
    ∃ node rest, channel.sendQue = node :: rest ∧ write.buffer = node.wire := by
  rw [h.writes] at hwrite
  cases turn with
  | writing held =>
    obtain rfl := List.mem_singleton.mp hwrite
    obtain ⟨rest, hque⟩ := h.front_of_node rfl
    exact ⟨_, rest, hque, rfl⟩
  | free | sender | handler | lost => cases hwrite

/-- Before the first failure the write that has been started is the outstanding one. -/
theorem Stands.started_of_fine {turn : Turn} {done : List SendNode} (h : Stands turn done channel)
    (hfine : channel.failed = false) : turn.started = channel.writes := by
  rw [h.writes]
  cases turn with
  | lost write =>
    have hfailed := h.failed.mpr ⟨write, List.mem_singleton.mpr rfl, h.lost write rfl⟩
    cases hfine.symm.trans hfailed
  | free | sender | handler | writing => rfl

theorem Stands.busy {turn : Turn} {done : List SendNode} (h : Stands turn done channel)
    (hfine : channel.failed = false) (hque : channel.sendQue ≠ []) :
    (∃ write, channel.writes = [write]) ∨ ∃ node rest, channel.sendQue = node :: rest ∧
      ((∃ thread, channel.senders thread = .starting node) ∨ channel.handler = .starting node) := by
  cases turn with
  | free =>
    have hempty : channel.sendQue = [] := List.head?_eq_none_iff.mp h.front
    exact absurd hempty hque
  | sender thread node =>
    obtain ⟨rest, hfront⟩ := h.front_of_node rfl
    exact .inr ⟨node, rest, hfront, .inl ⟨thread, (h.senders thread node).mpr rfl⟩⟩
  | handler node =>
    obtain ⟨rest, hfront⟩ := h.front_of_node rfl
    exact .inr ⟨node, rest, hfront, .inr ((h.handler node).mpr rfl)⟩
  | writing write => exact .inl ⟨write, h.writes⟩
  | lost write =>
    have hstarted := h.started_of_fine hfine
    exact .inl ⟨write, hstarted.symm⟩

theorem Stands.given_initialPart {turn : Turn} {done : List SendNode} (h : Stands turn done channel) :
    channel.given <+: channel.accepted.map SendNode.wire := by
  rw [h.given, h.order, List.map_append]
  apply (List.prefix_append_right_inj _).mpr
  cases turn with
  | free | sender | handler => exact List.nil_prefix
  | writing write | lost write =>
    obtain ⟨rest, hque⟩ := h.front_of_node rfl
    rw [hque]
    exact ⟨rest.map SendNode.wire, rfl⟩

theorem Stands.wire_initialPart {turn : Turn} {done : List SendNode} (h : Stands turn done channel) :
    channel.wire <+: channel.given.flatten := by
  rw [h.wire, h.given, List.flatten_append, ← List.flatMap_def]
  apply (List.prefix_append_right_inj _).mpr
  cases turn with
  | free | sender | handler => exact List.nil_prefix
  | writing write | lost write =>
    have hpart : write.onWire <+: write.buffer := List.take_prefix _ _
    simpa [Turn.started] using hpart

/-- **One write at a time.** In every reachable state of a session at most one write is outstanding, and
its buffer is that of the front of the queue. Until a write fails, a frame in the queue is being written or
its write is about to be started by the one thread that holds the front; every accepted frame has been
written whole, is being written, or waits in the queue, in the order of acceptance. After a failure no
other bytes follow: what was given to the socket is an initial part of the frames accepted, and what went
out is an initial part of that. -/
theorem send_queue_discipline (hreach : Reaches channel) :
    channel.writes.length ≤ 1 ∧
    (∀ write ∈ channel.writes, ∃ node rest, channel.sendQue = node :: rest ∧
      write.buffer = node.wire) ∧
    (channel.failed = false → channel.sendQue ≠ [] →
      (∃ write, channel.writes = [write]) ∨
      ∃ node rest, channel.sendQue = node :: rest ∧
        ((∃ thread, channel.senders thread = .starting node) ∨ channel.handler = .starting node)) ∧
    (channel.failed = false → ∃ done,
      channel.accepted = done ++ channel.sendQue ∧
      channel.given = done.map SendNode.wire ++ channel.writes.map Write.buffer ∧
      channel.wire = done.flatMap SendNode.wire ++ channel.writes.flatMap Write.onWire) ∧
    channel.given <+: channel.accepted.map SendNode.wire ∧
    channel.wire <+: channel.given.flatten ∧
    (∀ node ∈ channel.accepted, ∃ msg msgid, sendNode msg msgid = some (.ok node)) ∧
    channel.handler ≠ .undefinedPop := by
  obtain ⟨⟨turn, done, h⟩, hbuilt⟩ := inv_of_reaches hreach
  refine ⟨h.writes_length, fun _ => h.buffer_eq, h.busy, fun hfine => ⟨done, h.order, ?_, ?_⟩,
    h.given_initialPart, h.wire_initialPart, hbuilt.accepted, h.defined⟩
  · rw [h.given, h.started_of_fine hfine]
  · rw [h.wire, h.started_of_fine hfine]

/-- Two calls of `Send` overlap, the first frame is written whole, and the session is closed in the middle
of the second one. -/
def overlappingRun : List Label :=
  [.send 0 (ascii "a") MSG_LOGIN_RSP, .push 0, .send 1 (ascii "bc") MSG_CHAT_MSG_PUSH, .push 1,
    .startWrite 0, .transfer 0 5, .complete 0 true, .handleWrite 0, .startNext, .transfer 0 2, .close,
    .closeSocket, .complete 0 false, .handleWrite 0, .leave]

theorem send_queue_discipline_overlapping :
    (Reach.after step overlappingRun .initial).wire
      <+: (Reach.after step overlappingRun .initial).given.flatten := by
  have hmeets : Reach.meets step (fun _ _ => true) overlappingRun .initial = true := by decide
  exact (send_queue_discipline (.of_enabled rfl hmeets)).2.2.2.2.2.1

/-! ### The queue of the running server -/

/-- The queue is that of a session of the server. -/
def Shows (channel : Channel) (session : Sid) (world : World) : Prop :=
  channel.sendQue = (world.sessions session).sendQue.map Queued.node

variable {session : Sid} {world : World}

/-- The section of `Send` does to the queue what the step of the server does. -/
theorem Shows.push (h : Shows channel session world) (thread : Nat) (frame : Queued) :
    Shows (channel.push thread frame.node) session (pushFrame session frame world).2 := by
  have hlength : channel.sendQue.length = (world.sessions session).sendQue.length := by
    rw [h, List.length_map]
  unfold Shows Channel.push pushFrame
  rw [hlength]
  split_ifs with hfull
  · exact h
  · have hpushed : channel.sendQue ++ [frame.node]
        = ((world.sessions session).sendQue ++ [frame]).map Queued.node := by
      rw [List.map_append, ← show channel.sendQue = _ from h]
      rfl
    simp only [World.updateSession, Function.update_self, ← hpushed]
    split <;> rfl

/-- The section of `HandleWrite` takes off the frame that the server takes off when it is written. -/
theorem Shows.pop {frame : Queued} {rest : List Queued} (h : Shows channel session world)
    (hque : (world.sessions session).sendQue = frame :: rest) :
    Shows channel.pop session (world.updateSession session fun s => { s with sendQue := rest }) := by
  have hnodes : channel.sendQue = frame.node :: rest.map Queued.node := by
    rw [h, hque, List.map_cons]
  unfold Shows Channel.pop
  rw [hnodes]
  simp only [World.updateSession, Function.update_self]
  cases rest <;> rfl

end SendQueue

end CoroutineServer
