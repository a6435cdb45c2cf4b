import CoroutineServer.Proof.Ledger
import CoroutineServer.Proof.Sending
import CoroutineServer.Scenario

/-!
# Offline messages are handed over

A fetch marks its rows delivered before anything is sent, so a row is lost whenever the frame is not
queued. In the runs where a batch that is fetched fits a frame, and `Send` finds the session open and
its queue not full, each row that a run has marked was handed over by the handler that fetched it.
-/

namespace CoroutineServer

open Program CSession

variable {platform : Platform}

/-- The condition on the operations of a handler that hands out offline messages: the text of the batch
fits a frame, and the session is open and its queue not full. -/
def HandsOver (platform : Platform) : Op → State → Prop
  | .getOfflineMessages uid, state =>
      let rows := state.world.db.messages.filter (DBManager.undelivered uid)
      rows ≠ [] → ∀ node, served state.world.history = some node → ∀ text,
        platform.dump (Payload.offlineMsgs (decide (node.msgId = MSG_LOGIN_REQ)) rows).json = .ok text →
          text.length ≤ MAX_LENGTH
  | .loadStop session (.offlineMsgs _ rows) _, state =>
      rows ≠ [] → state.world.stopped session = false
  | .push session (.offlineMsgs _ rows) _, state => rows ≠ [] →
      state.world.stopped session = false ∧
        (state.world.sessions session).sendQue.length ≤ MAX_SENDQUE
  | _, _ => True

/-! ### The handler that has fetched -/

theorem fetched_of_mem_loginTrace {session : Sid} {uid user : Int} {rows fetched : List MessageRow}
    {kicked : CallTrace} (hkicked : Kicked user kicked)
    (hmem : (⟨.getOfflineMessages uid, rows⟩ : Call Op Op.Ret)
      ∈ loginTrace session user fetched kicked) : uid = user ∧ rows = fetched := by
  unfold loginTrace at hmem
  rcases List.mem_cons.mp hmem with heq | hmem
  · obtain ⟨hop, hresult⟩ := Sigma.mk.inj heq
    obtain rfl := Op.getOfflineMessages.inj hop
    exact ⟨rfl, eq_of_heq hresult⟩
  · simp only [List.mem_cons, Sigma.mk.injEq, reduceCtorEq, false_and, false_or] at hmem
    exact (dealsWithOld_of_kicked hkicked hmem).elim

theorem handed_of_finished {node : LogicNode} {trace : CallTrace} {uid : Int} {rows : List MessageRow}
    (hfinished : Finished platform node trace)
    (hopen : ∀ session atLogin msgid,
      (⟨.loadStop session (.offlineMsgs atLogin rows) msgid, true⟩ : Call Op Op.Ret) ∉ trace)
    (hroom : ∀ session atLogin sent,
      (⟨.push session (.offlineMsgs atLogin rows) sent, false⟩ : Call Op Op.Ret) ∉ trace)
    (hfits : ∀ text, platform.dump (Payload.offlineMsgs (decide (node.msgId = MSG_LOGIN_REQ)) rows).json
      = .ok text → text.length ≤ MAX_LENGTH)
    (hmem : (⟨.getOfflineMessages uid, rows⟩ : Call Op Op.Ret) ∈ trace) (hrows : rows ≠ []) :
    ∃ later before atLogin text sent, trace
        = later ++ ⟨.push node.session (.offlineMsgs atLogin rows) sent, true⟩ ::
          ⟨.loadStop node.session (.offlineMsgs atLogin rows) MSG_OFFLINE_MSG_RSP, false⟩ ::
          ⟨.getOfflineMessages uid, rows⟩ :: before ∧
      platform.dump (Payload.offlineMsgs atLogin rows).json = .ok text ∧
      sent.wire = Wire.encodeFrame (2014, text) := by
  rcases hfinished with ⟨rfl, -⟩ | ⟨part, before, session, payload, msgid, rfl, hpart, hsends, hanswer⟩
  · cases hmem
  rcases List.mem_append.mp hmem with hmem | hmem
  · exact absurd hmem (not_mem_sent hpart (by simp) (by simp))
  cases hsends with
  | refusal hrsp huntouched => rcases huntouched with rfl | ⟨user, rfl⟩ <;> simp at hmem
  | loginBatch => cases hanswer
  | @loginNoBatch user kicked hreq huser hkicked =>
    exact absurd (fetched_of_mem_loginTrace hkicked hmem).2 hrows
  | @loginAfterBatch user fetched kicked batch hreq huser hkicked hfetched hbatch =>
    -- the batch went out before the answer
    rcases List.mem_append.mp hmem with hmem | hmem
    · exact absurd hmem (not_mem_sent hbatch (by simp) (by simp))
    obtain ⟨rfl, rfl⟩ := fetched_of_mem_loginTrace hkicked hmem
    rw [decide_eq_true hreq] at hfits
    obtain ⟨text, sent, rfl, hdump, -, hwire⟩ := sent_of_fits (by decide) hbatch
      (fun hload => hopen _ true _ (List.mem_append_right _ (List.mem_append_left _ hload)))
      (fun sent hpush => hroom _ true sent (List.mem_append_right _ (List.mem_append_left _ hpush)))
      hfits
    exact ⟨part, _, true, text, sent, rfl, hdump, hwire⟩
  | @offlineBatch user fetched hreq huser =>
    -- the batch is the answer
    have hsame : uid = user ∧ rows = fetched := by
      rcases List.mem_cons.mp hmem with heq | hmem
      · obtain ⟨hop, hresult⟩ := Sigma.mk.inj heq
        obtain rfl := Op.getOfflineMessages.inj hop
        exact ⟨rfl, eq_of_heq hresult⟩
      · simp at hmem
    obtain ⟨rfl, rfl⟩ := hsame
    have hpull : ¬node.msgId = MSG_LOGIN_REQ := by
      rw [hreq]
      decide
    rw [decide_eq_false hpull] at hfits
    obtain ⟨text, sent, rfl, hdump, -, hwire⟩ := sent_of_fits (by decide) hpart
      (fun hload => hopen _ false _ (List.mem_append_left _ hload))
      (fun sent hpush => hroom _ false sent (List.mem_append_left _ hpush)) hfits
    exact ⟨[], _, false, text, sent, rfl, hdump, hwire⟩
  | friendAfterPush hreq huid hpush =>
    rcases List.mem_append.mp hmem with hmem | hmem
    · exact absurd hmem (not_mem_sent hpush (by simp) (by simp))
    · simp [friendTrace] at hmem
  | chatAfterPush hreq huid hsaved hpush =>
    rcases List.mem_append.mp hmem with hmem | hmem
    · exact absurd hmem (not_mem_sent hpush (by simp) (by simp))
    · simp [chatTrace] at hmem
  | _ => simp [friendTrace, chatTrace] at hmem

/-! ### Over a run -/

/-- The latest events of the history are the frame of a batch, its complete text, and the look at the
stop flag and the fetch before it. -/
def HandedOver (platform : Platform) (uid : Int) (rows : List MessageRow) (history : List Event) :
    Prop :=
  ∃ earlier node atLogin text sent, history
      = .did ⟨.push node.session (.offlineMsgs atLogin rows) sent, true⟩ ::
        .did ⟨.loadStop node.session (.offlineMsgs atLogin rows) MSG_OFFLINE_MSG_RSP, false⟩ ::
        .did ⟨.getOfflineMessages uid, rows⟩ :: earlier ∧
    served earlier = some node ∧ platform.dump (Payload.offlineMsgs atLogin rows).json = .ok text ∧
    sent.wire = Wire.encodeFrame (2014, text)

/-- An event meets the condition of the hand-over. -/
def Smooth (platform : Platform) (event : Event) (earlier : List Event) : Prop :=
  ∀ rows, rows ≠ [] →
    (∀ session atLogin msgid,
      event ≠ .did ⟨.loadStop session (.offlineMsgs atLogin rows) msgid, true⟩) ∧
    (∀ session atLogin sent, event ≠ .did ⟨.push session (.offlineMsgs atLogin rows) sent, false⟩) ∧
    ∀ uid node, event = .did ⟨.getOfflineMessages uid, rows⟩ → served earlier = some node → ∀ text,
      platform.dump (Payload.offlineMsgs (decide (node.msgId = MSG_LOGIN_REQ)) rows).json = .ok text →
        text.length ≤ MAX_LENGTH

/-- The runs with no SQLite failure in which every hand-over meets the condition. -/
abbrev handsOver (platform : Platform) : Label → State → Prop :=
  OpsMeet (fun input op state => input.sqlite = .fine ∧ HandsOver platform op state) fun _ _ _ => True

theorem smooth_perform {state : State} {input : Input} {op : Op} (hfine : input.sqlite = .fine)
    (hhands : HandsOver platform op state) :
    Smooth platform (.did ⟨op, (perform platform input op state.world).1⟩) state.world.history := by
  intro rows hrows
  refine ⟨fun session atLogin msgid heq => ?_, fun session atLogin sent heq => ?_,
    fun uid node heq hserved text => ?_⟩
  · obtain ⟨rfl, hresult⟩ := Sigma.mk.inj (Event.did.inj heq)
    exact Bool.false_ne_true ((hhands hrows).symm.trans (eq_of_heq hresult))
  · obtain ⟨rfl, hresult⟩ := Sigma.mk.inj (Event.did.inj heq)
    have hresult := eq_of_heq hresult
    rw [perform, pushFrame, if_neg (Nat.not_lt.mpr (hhands hrows).2)] at hresult
    cases hresult
  · obtain ⟨rfl, hresult⟩ := Sigma.mk.inj (Event.did.inj heq)
    obtain rfl := eq_of_heq hresult
    rw [perform, hfine] at hrows ⊢
    by_cases huid : 0 < uid
    · rw [DBManager.getOfflineMessages_fine huid] at hrows ⊢
      exact hhands hrows node hserved text
    · rw [DBManager.getOfflineMessages_of_nonpos huid] at hrows
      exact absurd rfl hrows

theorem smooth_of_reaches {state : State} (hreach : Reaches platform (handsOver platform) state) :
    Throughout (Smooth platform) state.world.history := by
  apply throughout_of_moves _ hreach
  · intro node earlier rows _
    refine ⟨fun _ _ _ heq => ?_, fun _ _ _ heq => ?_, fun _ _ heq => ?_⟩
    all_goals cases heq
  · intro state input op next node _ hok hworker _ _
    obtain ⟨hfine, hhands⟩ := hok op next hworker
    exact smooth_perform hfine hhands

theorem handedOver_of_finished {history : List Event} {node : LogicNode} {uid : Int}
    {rows : List MessageRow} (hsmooth : Throughout (Smooth platform) history)
    (hserved : served history = some node) (hfinished : Finished platform node (handlerTrace history))
    (hmem : (⟨.getOfflineMessages uid, rows⟩ : Call Op Op.Ret) ∈ handlerTrace history)
    (hrows : rows ≠ []) : ∃ before, before <:+ history ∧ HandedOver platform uid rows before := by
  have hsmooth := throughout_iff.mp hsmooth
  have hevent : ∀ call ∈ handlerTrace history, ∃ later earlier,
      history = later ++ .did call :: earlier ∧ served earlier = some node := by
    intro call hcall
    obtain ⟨later, earlier, heq⟩ := List.append_of_mem hcall
    rw [List.append_cons] at heq
    obtain ⟨rest, rfl, -, hrest⟩ := history_of_trace _ heq
    refine ⟨later.map .did, rest, ?_, hrest.trans hserved⟩
    rw [List.map_append, List.append_assoc]
    rfl
  obtain ⟨later, before, atLogin, text, sent, htrace, hdump, hwire⟩ :=
    handed_of_finished hfinished
      (fun session atLogin msgid hload => by
        obtain ⟨later, earlier, heq, -⟩ := hevent _ hload
        exact (hsmooth later _ earlier heq rows hrows).1 session atLogin msgid rfl)
      (fun session atLogin sent hpush => by
        obtain ⟨later, earlier, heq, -⟩ := hevent _ hpush
        exact (hsmooth later _ earlier heq rows hrows).2.1 session atLogin sent rfl)
      (fun text hdump => by
        obtain ⟨later, earlier, heq, hearlier⟩ := hevent _ hmem
        exact (hsmooth later _ earlier heq rows hrows).2.2 uid node rfl hearlier text hdump)
      hmem hrows
  obtain ⟨rest, hhistory, hrest, hrestServed⟩ := history_of_trace _ htrace
  refine ⟨rest, ⟨_, hhistory.symm⟩, ?_⟩
  obtain ⟨earlier, rfl, -, hearlier⟩ := history_of_trace [_, _, _] hrest
  exact ⟨earlier, node, atLogin, text, sent, rfl, (hearlier.trans hrestServed).trans hserved, hdump,
    hwire⟩

theorem handedOver_of_idle {state : State} {uid : Int} {rows : List MessageRow}
    (hreach : Reaches platform (handsOver platform) state) (hidle : state.worker = none)
    (hmem : (⟨.getOfflineMessages uid, rows⟩ : Call Op Op.Ret) ∈ handlerTrace state.world.history)
    (hrows : rows ≠ []) :
    ∃ before, before <:+ state.world.history ∧ HandedOver platform uid rows before := by
  have hground := grounded_of_reaches hreach
  cases hserved : served state.world.history with
  | none =>
    have htrace := hground.unserved hserved
    rw [World.trace] at htrace
    rw [htrace] at hmem
    cases hmem
  | some node =>
    exact handedOver_of_finished (smooth_of_reaches hreach) hserved
      (hground.finished hidle node hserved) hmem hrows

/-- What has been fetched has been handed over, or the handler that fetched it still runs. -/
def Settled (platform : Platform) (history : List Event) : Prop :=
  ∀ uid rows, Event.did ⟨.getOfflineMessages uid, rows⟩ ∈ history → rows ≠ [] →
    (∃ before, before <:+ history ∧ HandedOver platform uid rows before) ∨
      (⟨.getOfflineMessages uid, rows⟩ : Call Op Op.Ret) ∈ handlerTrace history

theorem settled_of_reaches {state : State} (hreach : Reaches platform (handsOver platform) state) :
    Settled platform state.world.history := by
  apply invariant_of_moves (fun state => Settled platform state.world.history) hreach
    (fun _ => id)
  · rintro _ ⟨db, -, rfl⟩ uid rows hmem
    cases hmem
  · intro state state' h hquiet
    rw [hquiet.history]
    exact h
  · intro state node rest hreached h hidle uid rows hmem hrows
    have hmem : Event.did ⟨.getOfflineMessages uid, rows⟩ ∈ state.world.history := by
      rcases List.mem_cons.mp hmem with heq | hmem
      · cases heq
      · exact hmem
    obtain ⟨before, hsuffix, hhanded⟩ : ∃ before, before <:+ state.world.history ∧
        HandedOver platform uid rows before := by
      rcases h uid rows hmem hrows with hdone | hrunning
      · exact hdone
      · exact handedOver_of_idle hreached hidle hrunning hrows
    exact .inl ⟨before, hsuffix.trans (List.suffix_cons _ _), hhanded⟩
  · intro state input op next node _ h _ _ _ _
    rw [history_workStep]
    intro uid rows hmem hrows
    rcases List.mem_cons.mp hmem with heq | hmem
    · rw [← heq]
      exact .inr List.mem_cons_self
    · refine (h uid rows hmem hrows).imp ?_ (List.mem_cons_of_mem _)
      rintro ⟨before, hsuffix, hhanded⟩
      exact ⟨before, hsuffix.trans (List.suffix_cons _ _), hhanded⟩
  · intro state thread session pos _ h _ _
    rw [history_ioStep]
    exact h

/-- An event was the push of a batch from a state of the run in which the session was open. -/
def PushedOpen (visited : List State) (event : Event) (earlier : List Event) : Prop :=
  ∀ session atLogin rows sent accepted, rows ≠ [] →
    event = .did ⟨.push session (.offlineMsgs atLogin rows) sent, accepted⟩ →
      ∃ before ∈ visited, before.world.history = earlier ∧ before.world.stopped session = false

theorem pushedOpen_of_run {Start : State → Prop} (hstart : ∀ state, Start state → Initial state)
    {visited : List State} {state : State}
    (hrun : Reach.Run (step platform) Start (handsOver platform) visited state) :
    Throughout (PushedOpen visited) state.world.history := by
  induction hrun with
  | initial h =>
    obtain ⟨db, -, rfl⟩ := hstart _ h
    trivial
  | @next visited state state' label hrun hok hstep ih =>
    have hmore : Throughout (PushedOpen (state :: visited)) state.world.history := by
      apply ih.mono
      intro event earlier h session atLogin rows sent accepted hrows heq
      obtain ⟨before, hmem, hbefore⟩ := h session atLogin rows sent accepted hrows heq
      exact ⟨before, List.mem_cons_of_mem _ hmem, hbefore⟩
    cases moved_of_step hstep with
    | quiet hquiet _ _ =>
      rw [hquiet.history]
      exact hmore
    | dispatch hidle => exact ⟨fun _ _ _ _ _ _ heq => (by cases heq), hmore⟩
    | @work _ input op next hworker =>
      rw [history_workStep]
      refine ⟨fun session atLogin rows sent accepted hrows heq => ?_, hmore⟩
      obtain ⟨rfl, -⟩ := Sigma.mk.inj (Event.did.inj heq)
      exact ⟨state, List.mem_cons_self, rfl, ((hok _ next hworker).2 hrows).1⟩
    | io hcloser =>
      rw [history_ioStep]
      exact hmore

/-- **No offline message is lost**, when every hand-over meets the condition. Between two handlers of a
run, each row that has become delivered in it was fetched by a handler which then pushed, onto the queue
of the session it served and while that was open, a frame with the complete text of a batch that has the
row in it. -/
theorem offline_messages_handed_over {db : Db} (hdb : db.WellFormed) {visited : List State}
    {state : State}
    (hrun : Reach.Run (step platform) (fun state => state = .initial db) (handsOver platform)
      visited state)
    (hidle : state.worker = none) :
    ∀ row ∈ state.world.db.messages, row.delivered = true → row ∈ db.messages ∨
      ∃ uid rows node atLogin text sent later earlier,
        { row with delivered := false } ∈ rows ∧
        state.world.history
          = later ++ .did ⟨.push node.session (.offlineMsgs atLogin rows) sent, true⟩ ::
            .did ⟨.loadStop node.session (.offlineMsgs atLogin rows) MSG_OFFLINE_MSG_RSP, false⟩ ::
            .did ⟨.getOfflineMessages uid, rows⟩ :: earlier ∧
        served earlier = some node ∧
        platform.dump (Payload.offlineMsgs atLogin rows).json = .ok text ∧
        sent.wire = Wire.encodeFrame (2014, text) ∧
        ∃ before ∈ visited, before.world.stopped node.session = false ∧ before.world.history
          = .did ⟨.loadStop node.session (.offlineMsgs atLogin rows) MSG_OFFLINE_MSG_RSP, false⟩ ::
            .did ⟨.getOfflineMessages uid, rows⟩ :: earlier := by
  intro row hrow hdelivered
  have hreach : Reaches platform (handsOver platform) state :=
    hrun.reaches.mono (initial_of_eq hdb) fun _ _ => id
  refine (marked_of_reaches hdb hrun.reaches (fun input state op next hok hworker =>
    (hok op next hworker).1) row hrow hdelivered).imp_right ?_
  rintro ⟨uid, rows, hrow, hmem⟩
  have hrows : rows ≠ [] := List.ne_nil_of_mem hrow
  have hdone : ∃ before, before <:+ state.world.history ∧ HandedOver platform uid rows before := by
    rcases settled_of_reaches hreach uid rows hmem hrows with hdone | hrunning
    · exact hdone
    · exact handedOver_of_idle hreach hidle hrunning hrows
  obtain ⟨_, ⟨later, hhistory⟩, earlier, node, atLogin, text, sent, rfl, hserved, hdump, hwire⟩ := hdone
  obtain ⟨before, hbefore, hearlier, hopen⟩ :=
    throughout_iff.mp (pushedOpen_of_run (initial_of_eq hdb) hrun) later _ _ hhistory.symm
      node.session atLogin rows sent true hrows rfl
  exact ⟨uid, rows, node, atLogin, text, sent, later, earlier, hrow, hhistory.symm, hserved, hdump,
    hwire, before, hbefore, hopen, hearlier⟩

def testHandsOver : Op → State → Bool
  | .getOfflineMessages uid, state =>
      let rows := state.world.db.messages.filter (DBManager.undelivered uid)
      rows.isEmpty || [true, false].all fun atLogin =>
        (render (Payload.offlineMsgs atLogin rows).json).length ≤ MAX_LENGTH
  | .loadStop session (.offlineMsgs _ _) _, state => !state.world.stopped session
  | .push session (.offlineMsgs _ _) _, state => !state.world.stopped session &&
      (state.world.sessions session).sendQue.length ≤ MAX_SENDQUE
  | _, _ => true

theorem handsOver_of_test {label : Label} {state : State}
    (hidle : ∀ input, label = .work input → input = .idle)
    (htest : testOps testHandsOver (fun _ _ => true) label state = true) :
    handsOver reference label state := by
  refine opsMeet_of_test (fun op hop => ⟨rfl, ?_⟩) (fun _ _ _ => trivial) hidle htest
  cases op with
  | getOfflineMessages uid =>
    intro hrows node _ text hdump
    obtain rfl := Except.ok.inj hdump
    rw [testHandsOver, Bool.or_eq_true, List.isEmpty_iff, List.all_eq_true] at hop
    have hfits := (hop.resolve_left hrows) (decide (node.msgId = MSG_LOGIN_REQ)) (by
      cases decide (node.msgId = MSG_LOGIN_REQ) <;> simp)
    exact of_decide_eq_true hfits
  | loadStop session payload msgid =>
    cases payload with
    | offlineMsgs atLogin rows => exact fun _ => by simpa [testHandsOver] using hop
    | _ => trivial
  | push session payload sent =>
    cases payload with
    | offlineMsgs atLogin rows => exact fun _ => by simpa [testHandsOver] using hop
    | _ => trivial
  | _ => trivial

/-- The row of the message that waits for ann, once it is delivered. -/
def deliveredRow : MessageRow := ⟨1, 2, 1, ascii "hi", ascii "2024-01-01 00:00:00", true⟩

/-- Ann logs in. -/
def loginScript : List Act :=
  [.accept 0, .post 0 MSG_LOGIN_REQ (credentials "ann"), .serve 9]

theorem offline_messages_handed_over_login :
    ∃ session atLogin rows sent, { deliveredRow with delivered := false } ∈ rows ∧
      Event.did ⟨.push session (.offlineMsgs atLogin rows) sent, true⟩
        ∈ (played backlogDb loginScript).world.history := by
  obtain ⟨hplays, hidle, hdelivered⟩ :
      plays (testOps testHandsOver fun _ _ => true) backlogDb loginScript = true ∧
      (played backlogDb loginScript).worker.isNone = true ∧
      deliveredRow ∈ (played backlogDb loginScript).world.db.messages := by decide +kernel
  obtain ⟨visited, hrun⟩ := run_of_plays (fun _ _ hidle _ => handsOver_of_test hidle)
    backlogDb_wellFormed hplays
  obtain ⟨uid, rows, node, atLogin, text, sent, later, earlier, hrow, hhistory, -⟩ :=
    (offline_messages_handed_over backlogDb_wellFormed hrun (Option.isNone_iff_eq_none.mp hidle)
      deliveredRow hdelivered rfl).resolve_left (by decide +kernel)
  exact ⟨node.session, atLogin, rows, sent, hrow, by rw [hhistory]; simp⟩

/-- Ann's session is closed while her login is in the queue. -/
def closedLoginScript : List Act :=
  [.accept 0, .post 0 MSG_LOGIN_REQ (credentials "ann"), .closeCall 0 0, .io 0 2, .serve 7]

/-- Without the condition, a message is marked delivered and no frame carries it. -/
theorem offline_message_lost :
    ¬∀ db, db.WellFormed → ∀ state, ReachesFrom reference db sqliteFine state →
      state.worker = none → ∀ row ∈ state.world.db.messages, row.delivered = true →
        row ∈ db.messages ∨ 0 < carried row.msgId state.world.history := by
  intro h
  obtain ⟨hplays, hidle, hdelivered⟩ :
      plays (testOps (fun _ _ => true) fun _ _ => true) backlogDb closedLoginScript = true ∧
      (played backlogDb closedLoginScript).worker.isNone = true ∧
      deliveredRow ∈ (played backlogDb closedLoginScript).world.db.messages := by decide +kernel
  have hcarried := (h backlogDb backlogDb_wellFormed (played backlogDb closedLoginScript)
    (reachesFine_of_plays backlogDb_wellFormed hplays) (Option.isNone_iff_eq_none.mp hidle)
    deliveredRow hdelivered rfl).resolve_left (by decide +kernel)
  revert hcarried
  decide +kernel

end CoroutineServer
