import CoroutineServer.SendQueue

/-!
# What one step of the send queue does

The branches in which a step is enabled, with their guards.
-/

namespace CoroutineServer

namespace SendQueue

variable {channel channel' : Channel} {label : Label}

inductive Steps (channel : Channel) : Label → Channel → Prop where
  | refused {thread : Nat} {msg : Bytes} {msgid : Int} (hidle : channel.senders thread = .idle)
      (hrefused : channel.bStop = true ∨ ∀ node, sendNode msg msgid ≠ some (.ok node)) :
      Steps channel (.send thread msg msgid) channel
  | send {thread : Nat} {msg : Bytes} {msgid : Int} {node : SendNode}
      (hidle : channel.senders thread = .idle) (hopen : channel.bStop = false)
      (hnode : sendNode msg msgid = some (.ok node)) :
      Steps channel (.send thread msg msgid) (channel.setSender thread (.checked node))
  | push {thread : Nat} {node : SendNode} (hchecked : channel.senders thread = .checked node) :
      Steps channel (.push thread) (channel.push thread node)
  | startWrite {thread : Nat} {node : SendNode} (hstarting : channel.senders thread = .starting node) :
      Steps channel (.startWrite thread) ((channel.startWrite node).setSender thread .idle)
  | startNext {node : SendNode} (hstarting : channel.handler = .starting node) :
      Steps channel .startNext { channel.startWrite node with handler := .idle }
  | transfer {index n sent : Nat} {node : SendNode}
      (hget : channel.writes[index]? = some ⟨node, sent, none⟩) (hopen : channel.isOpen = true)
      (hfits : sent + n ≤ node.wire.length) :
      Steps channel (.transfer index n) { channel with
        writes := channel.writes.set index ⟨node, sent + n, none⟩
        wire := channel.wire ++ (node.wire.drop sent).take n }
  | complete {index sent : Nat} {node : SendNode} {ok : Bool}
      (hget : channel.writes[index]? = some ⟨node, sent, none⟩)
      (hwhole : ok = true → sent = node.wire.length) :
      Steps channel (.complete index ok) { channel with
        writes := channel.writes.set index ⟨node, sent, some ok⟩
        failed := channel.failed || !ok }
  | written {index sent : Nat} {node : SendNode} (hhandler : channel.handler = .idle)
      (hget : channel.writes[index]? = some ⟨node, sent, some true⟩) :
      Steps channel (.handleWrite index)
        ({ channel with writes := channel.writes.eraseIdx index } : Channel).pop
  | failed {index sent : Nat} {node : SendNode} (hhandler : channel.handler = .idle)
      (hget : channel.writes[index]? = some ⟨node, sent, some false⟩) :
      Steps channel (.handleWrite index)
        { channel with writes := channel.writes.eraseIdx index, handler := .leaving }
  | leave (hleaving : channel.handler = .leaving) :
      Steps channel .leave { channel.exchange with handler := .idle }
  | close : Steps channel .close channel.exchange
  | closeSocket (hclosing : channel.closing = true) :
      Steps channel .closeSocket { channel with closing := false, isOpen := false }

theorem steps_of_step (hstep : step label channel = some channel') :
    Steps channel label channel' := by
  cases label with
  | send thread msg msgid =>
    simp only [step, Option.ite_none_right_eq_some] at hstep
    obtain ⟨hidle, hstep⟩ := hstep
    split_ifs at hstep with hstop
    · obtain rfl := Option.some.inj hstep
      exact .refused hidle (.inl hstop)
    split at hstep
    · next node hnode =>
      obtain rfl := Option.some.inj hstep
      exact .send hidle (Bool.eq_false_iff.mpr hstop) hnode
    · next hnone =>
      obtain rfl := Option.some.inj hstep
      exact .refused hidle (.inr hnone)
  | push | startWrite | startNext | leave =>
    simp only [step] at hstep
    split at hstep
    · next hpos =>
      obtain rfl := Option.some.inj hstep
      constructor
      exact hpos
    · cases hstep
  | transfer index n =>
    simp only [step] at hstep
    split at hstep
    · next node sent hget =>
      simp only [Option.ite_none_right_eq_some, Option.some.injEq] at hstep
      obtain ⟨⟨hopen, hfits⟩, rfl⟩ := hstep
      exact .transfer hget hopen hfits
    · cases hstep
  | complete index ok =>
    simp only [step] at hstep
    split at hstep
    · next node sent hget =>
      simp only [Option.ite_none_right_eq_some, Option.some.injEq] at hstep
      obtain ⟨hwhole, rfl⟩ := hstep
      exact .complete hget hwhole
    · cases hstep
  | handleWrite index =>
    simp only [step] at hstep
    split at hstep
    · next node sent ok hhandler hget =>
      obtain rfl := Option.some.inj hstep
      cases ok with
      | true => exact .written hhandler hget
      | false => exact .failed hhandler hget
    · cases hstep
  | close =>
    obtain rfl := Option.some.inj hstep
    exact .close
  | closeSocket =>
    simp only [step, Option.ite_none_right_eq_some, Option.some.injEq] at hstep
    obtain ⟨hclosing, rfl⟩ := hstep
    exact .closeSocket hclosing

theorem accepted_push (channel : Channel) (thread : Nat) (node : SendNode) :
    (channel.push thread node).accepted = channel.accepted ∨
      (channel.push thread node).accepted = channel.accepted ++ [node] := by
  unfold Channel.push
  split_ifs
  · exact .inl rfl
  · right
    dsimp only
    split <;> rfl

/-- The push adds the node, unless the queue is full. -/
theorem sendQue_push (channel : Channel) (thread : Nat) (node : SendNode) :
    (channel.push thread node).sendQue = channel.sendQue ∨
      (channel.push thread node).sendQue = channel.sendQue ++ [node] := by
  unfold Channel.push
  split_ifs
  · exact .inl rfl
  · right
    dsimp only
    split <;> rfl

theorem senders_push_of_ne (channel : Channel) {thread other : Nat} (node : SendNode)
    (hne : other ≠ thread) : (channel.push thread node).senders other = channel.senders other := by
  unfold Channel.push
  split_ifs
  · exact Channel.senders_setSender_of_ne channel _ hne
  · dsimp only
    split <;> exact Channel.senders_setSender_of_ne _ _ hne

theorem senders_push_ne_checked (channel : Channel) {thread : Nat} (node held : SendNode) :
    (channel.push thread node).senders thread ≠ .checked held := by
  unfold Channel.push
  split_ifs
  · simp
  · dsimp only
    split <;> simp

theorem senders_pop (channel : Channel) : channel.pop.senders = channel.senders := by
  unfold Channel.pop
  split <;> rfl

theorem accepted_pop (channel : Channel) : channel.pop.accepted = channel.accepted := by
  unfold Channel.pop
  split <;> rfl

end SendQueue

end CoroutineServer
