import CoroutineServer.Proof.Writes

/-!
# The send queue drains

Each frame that `Send` accepts costs the writing side three steps: its write is started, completes, and is
handled. As long as no write has failed one of them is always to be taken, so no frame is left lying in a queue
that nobody serves.
-/

namespace CoroutineServer

namespace SendQueue

variable {channel channel' : Channel} {label : Label} {turn : Turn} {done : List SendNode}

/-- The steps of a frame's way through the queue, behind its push. -/
def Label.onWriter : Label → Bool
  | .startWrite _ => true
  | .startNext => true
  | .complete _ _ => true
  | .handleWrite _ => true
  | _ => false

/-- These, and the bytes that a write puts on the socket. -/
def Label.onSocket : Label → Bool
  | .transfer _ _ => true
  | label => label.onWriter

def Label.isPush : Label → Bool
  | .push _ => true
  | _ => false

/-- How many of its three steps the frame at the front has behind it. -/
def Channel.stage (channel : Channel) : Nat := match channel.writes with
  | [] => if channel.failed then 3 else 0
  | write :: _ => if write.result.isSome then 2 else 1

def stepsPerFrame : Nat := 3

/-- The steps that the frames in the queue have before them. -/
def Channel.writesLeft (channel : Channel) : Nat :=
  stepsPerFrame * channel.sendQue.length - channel.stage

/-! ### One step -/

theorem frame_push (channel : Channel) (thread : Nat) (node : SendNode) :
    (channel.push thread node).writes = channel.writes ∧ (channel.push thread node).failed = channel.failed := by
  unfold Channel.push
  split_ifs
  · exact ⟨rfl, rfl⟩
  · dsimp only
    split <;> exact ⟨rfl, rfl⟩

theorem frame_pop (channel : Channel) :
    channel.pop.writes = channel.writes ∧ channel.pop.failed = channel.failed ∧
      channel.pop.isOpen = channel.isOpen ∧ channel.pop.sendQue.length = channel.sendQue.length - 1 := by
  unfold Channel.pop
  split <;> next hque => exact ⟨rfl, rfl, rfl, by simp [hque]⟩

theorem Stands.length_pos (h : Stands turn done channel) {node : SendNode} (hnode : turn.node? = some node) :
    0 < channel.sendQue.length := by
  obtain ⟨rest, hque⟩ := h.front_of_node hnode
  rw [hque]
  exact Nat.succ_pos _

theorem Stands.fine_of_started (h : Stands turn done channel) (hstarted : turn.started = []) :
    channel.failed = false := by
  rw [Bool.eq_false_iff, ne_eq, h.failed, hstarted]
  simp

/-- A step that takes the front frame one stage further. -/
theorem writesLeft_advance (hpos : 0 < channel.sendQue.length)
    (hlength : channel'.sendQue.length = channel.sendQue.length) (hstage : channel'.stage = channel.stage + 1)
    (hmost : channel'.stage ≤ 3) : channel'.writesLeft + 1 ≤ channel.writesLeft := by
  have hthree : stepsPerFrame = 3 := rfl
  unfold Channel.writesLeft
  rw [hlength, hthree]
  omega

theorem Channel.stage_started (h : channel.writes = []) (hfine : channel.failed = false) (node : SendNode) :
    channel.stage = 0 ∧ (channel.startWrite node).stage = 1 := by
  unfold Channel.stage Channel.startWrite
  dsimp only
  rw [h, hfine]
  exact ⟨rfl, rfl⟩

theorem writesLeft_step (h : Stands turn done channel) (hstep : step label channel = some channel') :
    channel'.writesLeft + label.onWriter.toNat ≤ channel.writesLeft + stepsPerFrame * label.isPush.toNat := by
  have hthree : stepsPerFrame = 3 := rfl
  cases steps_of_step hstep with
  | refused | send | leave | close | closeSocket => exact Nat.le_refl _
  | @push thread node =>
    obtain ⟨hwrites, hfailed⟩ := frame_push channel thread node
    have hstage : (channel.push thread node).stage = channel.stage := by
      unfold Channel.stage
      rw [hwrites, hfailed]
    have hlength : (channel.push thread node).sendQue.length ≤ channel.sendQue.length + 1 := by
      rcases sendQue_push channel thread node with heq | heq <;> rw [heq] <;> simp
    unfold Channel.writesLeft
    rw [hstage]
    simp only [Label.onWriter, Label.isPush, Bool.toNat_true, Bool.toNat_false, hthree]
    omega
  | @startWrite thread node hstarting =>
    obtain rfl := (h.senders thread node).mp hstarting
    obtain ⟨hbefore, hafter⟩ := Channel.stage_started h.writes (h.fine_of_started rfl) node
    refine writesLeft_advance (h.length_pos rfl) rfl ?_ ?_
    · exact hafter.trans (congrArg (· + 1) hbefore.symm)
    · exact hafter.trans_le (by decide)
  | @startNext node hstarting =>
    obtain rfl := (h.handler node).mp hstarting
    obtain ⟨hbefore, hafter⟩ := Channel.stage_started h.writes (h.fine_of_started rfl) node
    refine writesLeft_advance (h.length_pos rfl) rfl ?_ ?_
    · exact hafter.trans (congrArg (· + 1) hbefore.symm)
    · exact hafter.trans_le (by decide)
  | transfer hget =>
    obtain ⟨rfl, rfl⟩ := h.writing hget
    have hwrites := h.writes
    refine Nat.le_of_eq ?_
    unfold Channel.writesLeft Channel.stage
    dsimp only
    rw [hwrites]
    rfl
  | complete hget =>
    obtain ⟨rfl, rfl⟩ := h.writing hget
    have hwrites := h.writes
    have hbefore : channel.stage = 1 := by
      unfold Channel.stage
      rw [hwrites]
      rfl
    refine writesLeft_advance (h.length_pos rfl) rfl ?_ ?_
    · rw [hbefore]
      unfold Channel.stage
      dsimp only
      rw [hwrites]
      rfl
    · unfold Channel.stage
      dsimp only
      rw [hwrites]
      exact Nat.le_succ 2
  | @written index sent node _ hget =>
    obtain ⟨rfl, rfl⟩ := h.writing hget
    have hwrites : channel.writes = [⟨node, sent, some true⟩] := h.writes
    have hpos : 0 < channel.sendQue.length := h.length_pos rfl
    have hfine : channel.failed = false := by
      rw [Bool.eq_false_iff, ne_eq, h.failed]
      simp [Turn.started]
    obtain ⟨hpopped, hfailed, -, hlength⟩ :=
      frame_pop { channel with writes := channel.writes.eraseIdx 0 }
    have hbefore : channel.stage = 2 := by
      unfold Channel.stage
      rw [hwrites]
      rfl
    have hafter : ({ channel with writes := channel.writes.eraseIdx 0 } : Channel).pop.stage = 0 := by
      unfold Channel.stage
      rw [hpopped, hfailed]
      dsimp only
      rw [hwrites, hfine]
      rfl
    unfold Channel.writesLeft
    rw [hafter, hbefore, hlength]
    simp only [Label.onWriter, Label.isPush, Bool.toNat_true, Bool.toNat_false, hthree]
    omega
  | @failed index sent node _ hget =>
    obtain ⟨rfl, rfl⟩ := h.writing hget
    have hwrites : channel.writes = [⟨node, sent, some false⟩] := h.writes
    have hfailed : channel.failed = true :=
      h.failed.mpr ⟨_, List.mem_singleton.mpr rfl, rfl⟩
    have hbefore : channel.stage = 2 := by
      unfold Channel.stage
      rw [hwrites]
      rfl
    have hafter : ({ channel with
        writes := channel.writes.eraseIdx 0, handler := .leaving } : Channel).stage = 3 := by
      unfold Channel.stage
      dsimp only
      rw [hwrites, hfailed]
      rfl
    refine writesLeft_advance (h.length_pos rfl) rfl ?_ ?_
    · rw [hafter, hbefore]
    · exact Nat.le_of_eq hafter

/-! ### Whole runs -/

/-- `HandleWrite` stands before `Close` only behind a write that has failed. -/
theorem failed_of_leaving (hreach : Reaches channel) (hleaving : channel.handler = .leaving) :
    channel.failed = true := by
  induction hreach with
  | initial h =>
    rw [h] at hleaving
    cases hleaving
  | @next channel channel' label hprior _ hstep ih =>
    obtain ⟨⟨turn, done, h⟩, -⟩ := inv_of_reaches hprior
    cases steps_of_step hstep with
    | refused | send | startWrite | transfer | close | closeSocket => exact ih hleaving
    | @push thread node =>
      rw [(frame_push channel thread node).2]
      refine ih ?_
      rw [← hleaving]
      unfold Channel.push
      split_ifs
      · rfl
      · dsimp only
        split <;> rfl
    | complete =>
      dsimp only
      rw [ih hleaving, Bool.true_or]
    | @written index sent node hidle hget =>
      obtain ⟨rfl, rfl⟩ := h.writing hget
      unfold Channel.pop at hleaving
      split at hleaving
      · cases hleaving
      · cases hidle.symm.trans hleaving
      · cases hleaving
    | @failed index sent node _ hget =>
      obtain ⟨rfl, rfl⟩ := h.writing hget
      exact h.failed.mpr ⟨_, List.mem_singleton.mpr rfl, rfl⟩
    | startNext | leave => cases hleaving

theorem idle_of_writing {write : Write} (hreach : Reaches channel) (h : Stands (.writing write) done channel)
    (hfine : channel.failed = false) : channel.handler = .idle := by
  cases hhandler : channel.handler with
  | idle => rfl
  | starting held => cases (h.handler held).mp hhandler
  | leaving => cases hfine.symm.trans (failed_of_leaving hreach hhandler)
  | undefinedPop => exact absurd hhandler h.defined

/-- With a frame in the queue and no failed write, the writing side has a step to take. -/
theorem writer_enabled (hreach : Reaches channel) (hfine : channel.failed = false)
    (hque : channel.sendQue ≠ []) : ∃ label, label.onWriter = true ∧ (step label channel).isSome = true := by
  obtain ⟨⟨turn, done, h⟩, -⟩ := inv_of_reaches hreach
  cases turn with
  | free => exact absurd (List.head?_eq_none_iff.mp h.front) hque
  | sender thread node =>
    have hstarting := (h.senders thread node).mpr rfl
    exact ⟨.startWrite thread, rfl, by simp [step, hstarting]⟩
  | handler node =>
    have hstarting := (h.handler node).mpr rfl
    exact ⟨.startNext, rfl, by simp [step, hstarting]⟩
  | lost write =>
    have hfailed := h.failed.mpr ⟨write, List.mem_singleton.mpr rfl, h.lost write rfl⟩
    cases hfine.symm.trans hfailed
  | writing write =>
    obtain ⟨node, sent, result⟩ := write
    have hget : channel.writes[0]? = some ⟨node, sent, result⟩ := by
      rw [h.writes]
      rfl
    cases result with
    | none => exact ⟨.complete 0 false, rfl, by simp [step, hget]⟩
    | some ok =>
      have hidle := idle_of_writing hreach h hfine
      exact ⟨.handleWrite 0, rfl, by simp [step, hget, hidle]⟩

/-- The states that the writing side reaches by itself. -/
abbrev Writes (channel : Channel) : Channel → Prop :=
  Reach.Reaches step (fun start => start = channel) fun label _ => label.onSocket = true

/-- On an open socket the writing side can take the front frame further without an error. -/
theorem writer_advances (hreach : Reaches channel) (hfine : channel.failed = false)
    (hopen : channel.isOpen = true) (hque : channel.sendQue ≠ []) :
    ∃ later, Writes channel later ∧ later.writesLeft < channel.writesLeft ∧
      later.accepted = channel.accepted ∧ later.failed = false ∧ later.isOpen = true := by
  obtain ⟨⟨turn, done, h⟩, -⟩ := inv_of_reaches hreach
  have hless : ∀ {label : Label} {before later : Channel}, Reaches before → label.onWriter = true →
      label.isPush = false → step label before = some later → later.writesLeft < before.writesLeft := by
    intro label before later hbefore hwriter hpush hstep
    obtain ⟨⟨turn, done, h⟩, -⟩ := inv_of_reaches hbefore
    have hcharge := writesLeft_step h hstep
    rw [hwriter, hpush] at hcharge
    simp only [Bool.toNat_true, Bool.toNat_false] at hcharge
    omega
  cases turn with
  | free => exact absurd (List.head?_eq_none_iff.mp h.front) hque
  | sender thread node =>
    have hstarting := (h.senders thread node).mpr rfl
    have hstep : step (.startWrite thread) channel
        = some ((channel.startWrite node).setSender thread .idle) := by simp [step, hstarting]
    exact ⟨_, .next (.initial rfl) rfl hstep, hless hreach rfl rfl hstep, rfl, hfine, hopen⟩
  | handler node =>
    have hstarting := (h.handler node).mpr rfl
    have hstep : step .startNext channel
        = some { channel.startWrite node with handler := .idle } := by simp [step, hstarting]
    exact ⟨_, .next (.initial rfl) rfl hstep, hless hreach rfl rfl hstep, rfl, hfine, hopen⟩
  | lost write =>
    have hfailed := h.failed.mpr ⟨write, List.mem_singleton.mpr rfl, h.lost write rfl⟩
    cases hfine.symm.trans hfailed
  | writing write =>
    obtain ⟨node, sent, result⟩ := write
    have hwrites : channel.writes = [⟨node, sent, result⟩] := h.writes
    have hget : channel.writes[0]? = some ⟨node, sent, result⟩ := by rw [hwrites]; rfl
    have hsound : Write.Sound ⟨node, sent, result⟩ := h.sound _ (List.mem_singleton.mpr rfl)
    cases result with
    | none =>
      obtain ⟨left, hleft⟩ := Nat.exists_eq_add_of_le hsound.fits
      have hwhole : sent + left = node.wire.length := hleft.symm
      have htransfer : step (.transfer 0 left) channel = some { channel with
          writes := channel.writes.set 0 ⟨node, sent + left, none⟩
          wire := channel.wire ++ (node.wire.drop sent).take left } := by
        simp [step, hget, hopen, hwhole]
      have hmiddle := hreach.next trivial htransfer
      obtain ⟨later, hcomplete⟩ : ∃ later, step (.complete 0 true) { channel with
          writes := channel.writes.set 0 ⟨node, sent + left, none⟩
          wire := channel.wire ++ (node.wire.drop sent).take left } = some later := by
        simp [step, hwrites, hwhole]
      have hsame : later.accepted = channel.accepted ∧ later.failed = false ∧ later.isOpen = true := by
        cases steps_of_step hcomplete
        exact ⟨rfl, by simp [hfine], hopen⟩
      have hkept := writesLeft_step h htransfer
      have hlater := hless hmiddle rfl rfl hcomplete
      refine ⟨later, .next (.next (.initial rfl) rfl htransfer) rfl hcomplete, ?_, hsame⟩
      exact Nat.lt_of_lt_of_le hlater hkept
    | some ok =>
      have hok : ok = true := by
        by_contra hnot
        have hfailed := h.failed.mpr ⟨_, List.mem_singleton.mpr rfl, by simp [hnot]⟩
        cases hfine.symm.trans hfailed
      have hidle := idle_of_writing hreach h hfine
      have hstep : step (.handleWrite 0) channel
          = some ({ channel with writes := channel.writes.eraseIdx 0 } : Channel).pop := by
        simp [step, hget, hidle, hok]
      refine ⟨_, .next (.initial rfl) rfl hstep, hless hreach rfl rfl hstep, accepted_pop _, ?_, ?_⟩
      · rw [(frame_pop _).2.1]
        exact hfine
      · rw [(frame_pop _).2.2.1]
        exact hopen

theorem writer_drains (hreach : Reaches channel) (hfine : channel.failed = false)
    (hopen : channel.isOpen = true) : ∃ later, Writes channel later ∧ later.accepted = channel.accepted ∧
      later.failed = false ∧ later.sendQue = [] := by
  induction hleft : channel.writesLeft using Nat.strong_induction_on generalizing channel with
  | _ left ih =>
    by_cases hque : channel.sendQue = []
    · exact ⟨channel, .initial rfl, rfl, hfine, hque⟩
    · obtain ⟨middle, hwrites, hless, haccepted, hfine', hopen'⟩ := writer_advances hreach hfine hopen hque
      have hmiddle : Reaches middle := hreach.follow (hwrites.mono (fun _ h => h) fun _ _ _ => trivial)
      obtain ⟨later, hlater, hsame, hdone⟩ := ih _ (hleft ▸ hless) hmiddle hfine' hopen' rfl
      exact ⟨later, hwrites.trans hlater, hsame.trans haccepted, hdone⟩

/-- With nothing left in the queue all that was accepted is on the wire. -/
theorem wire_of_drained (hreach : Reaches channel) (hque : channel.sendQue = []) :
    channel.wire = channel.accepted.flatMap SendNode.wire := by
  obtain ⟨⟨turn, done, h⟩, -⟩ := inv_of_reaches hreach
  have hnode : turn.node? = none := by
    rw [← h.front, hque]
    rfl
  have hstarted : turn.started = [] := by
    cases turn <;> first | rfl | cases hnode
  rw [h.wire, h.order, hstarted, hque]
  simp

/-- **The send queue drains.** From any reached state on, in any run of a session's sending side: the steps of
starting, completing and handling writes are at most three for each section of `Send`, beyond those that were
left at first. As long as there is a frame in the queue and no write has failed, one of them can be taken, so a
frame never waits in a queue that nobody serves; and as long as no write has failed and the socket is open, the
writes alone can bring all that has been accepted onto the wire. -/
theorem send_queue_drains {start : Channel} {labels : List Label} (hreach : Reaches start)
    (htrail : Reach.Trail step start labels channel) :
    channel.writesLeft + labels.countP Label.onWriter
        ≤ start.writesLeft + stepsPerFrame * labels.countP Label.isPush ∧
      (channel.failed = false → channel.sendQue ≠ [] →
        ∃ label, label.onWriter = true ∧ (step label channel).isSome = true) ∧
      (channel.failed = false → channel.isOpen = true → ∃ later, Writes channel later ∧
        later.accepted = channel.accepted ∧ later.wire = channel.accepted.flatMap SendNode.wire) := by
  have hchannel : Reaches channel := hreach.follow htrail.reaches
  refine ⟨htrail.charged _ _ _ _ fun label _ _ hrest hstep => ?_, writer_enabled hchannel,
    fun hfine hopen => ?_⟩
  · obtain ⟨⟨turn, done, h⟩, -⟩ := inv_of_reaches (hreach.follow hrest)
    exact writesLeft_step h hstep
  · obtain ⟨later, hlater, haccepted, -, hque⟩ := writer_drains hchannel hfine hopen
    have hlaterReach : Reaches later := hchannel.follow (hlater.mono (fun _ h => h) fun _ _ _ => trivial)
    exact ⟨later, hlater, haccepted, haccepted ▸ wire_of_drained hlaterReach hque⟩

/-- One frame is queued, and its write has not been started. -/
def oneQueued : Channel := Reach.after step (overlappingRun.take 2) .initial

/-- A second frame is queued behind it, the first is written, and the second is begun. -/
def secondBegun : Channel := Reach.after step ((overlappingRun.take 10).drop 2) oneQueued

/-- The four steps that the writing side has taken are paid for by the first frame and the second. -/
theorem send_queue_drains_two :
    secondBegun.writesLeft + 4 ≤ oneQueued.writesLeft + stepsPerFrame ∧
      (∃ label, label.onWriter = true ∧ (step label secondBegun).isSome = true) ∧
      ∃ later, Writes secondBegun later ∧ later.wire = secondBegun.accepted.flatMap SendNode.wire := by
  have hreach : Reaches oneQueued := .of_enabled rfl (by decide)
  have hmeets : Reach.meets step (fun _ _ => true) ((overlappingRun.take 10).drop 2) oneQueued = true := by
    decide
  obtain ⟨hsteps, henabled, hdrain⟩ := send_queue_drains hreach (.of_meets .nil hmeets)
  obtain ⟨hfine, hopen, hque⟩ : secondBegun.failed = false ∧ secondBegun.isOpen = true ∧
      secondBegun.sendQue ≠ [] := by decide
  obtain ⟨later, hlater, -, hwire⟩ := hdrain hfine hopen
  exact ⟨hsteps, henabled hfine hque, later, hlater, hwire⟩

end SendQueue

end CoroutineServer
