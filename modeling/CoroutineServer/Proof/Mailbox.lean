import CoroutineServer.Calls
import CoroutineServer.Scenario

/-!
# The mailbox of a user

What is saved for a user and not yet fetched is the undelivered part of the messages table. Over any
sequence of calls it follows that the fetches of a user return, in order and once each, the messages
that were saved for the user.
-/

namespace CoroutineServer

open Program DBManager

variable {platform : Platform} {trace : DbTrace} {start db : Db}

/-- The rows that the fetches of a user have returned, in order. -/
def fetched (uid : Int) : DbTrace → List MessageRow
  | [] => []
  | ⟨.getOfflineMessages owner, rows⟩ :: earlier =>
      if owner = uid then fetched uid earlier ++ rows else fetched uid earlier
  | _ :: earlier => fetched uid earlier

/-- The messages that have been saved for a user, in order. -/
def savedFor (uid : Int) : DbTrace → List MessageRow
  | [] => []
  | ⟨.saveMessage fromUid toUid content timestamp, msgId⟩ :: earlier =>
      if toUid = uid ∧ 0 ≤ msgId then
        savedFor uid earlier ++ [⟨msgId, fromUid, toUid, content, timestamp, false⟩]
      else savedFor uid earlier
  | _ :: earlier => savedFor uid earlier

/-- The messages that wait for a user. -/
def waiting (uid : Int) (db : Db) : List MessageRow := db.messages.filter (undelivered uid)

/-- The texts that are saved have no NUL; time stamps never have one. -/
def TextsWithoutNul (trace : DbTrace) : Prop :=
  ∀ call ∈ trace, ∀ fromUid toUid content timestamp,
    call.1 = .saveMessage fromUid toUid content timestamp → 0 ∉ content ∧ 0 ∉ timestamp

theorem zero_notMem_strftime (tm : Tm) : 0 ∉ strftime tm := by
  have hdigit : ∀ n, (0 : UInt8) ≠ digit n := by
    intro n heq
    have := congrArg UInt8.toNat heq
    rw [digit, UInt8.toNat_ofNat'] at this
    simp only [UInt8.toNat_zero] at this
    omega
  have htwo : ∀ n, 0 ∉ twoDigits n := fun n => by simp [twoDigits, hdigit]
  have hseparator : (0 : UInt8) ∉ ascii "-" ∧ (0 : UInt8) ∉ ascii " " ∧ (0 : UInt8) ∉ ascii ":" := by
    decide
  simp [strftime, htwo, hseparator]

/-! ### One call -/

theorem undelivered_markDelivered (uid : Int) (row : MessageRow) :
    undelivered uid (markDelivered uid row) = false := by
  unfold markDelivered
  split_ifs with h
  · simp [undelivered]
  · simpa using h

theorem markDelivered_toUid (uid : Int) (row : MessageRow) :
    (markDelivered uid row).toUid = row.toUid := by
  unfold markDelivered
  split_ifs <;> rfl

theorem filter_markDelivered_of_ne {uid other : Int} (hne : other ≠ uid) (rows : List MessageRow) :
    (rows.map (markDelivered other)).filter (undelivered uid) = rows.filter (undelivered uid) := by
  induction rows with
  | nil => rfl
  | cons row rows ih =>
    have hrow : undelivered uid row = true → markDelivered other row = row := by
      intro h
      unfold markDelivered
      rw [if_neg]
      simp only [undelivered, decide_eq_true_eq] at h ⊢
      omega
    have hmarked : undelivered uid (markDelivered other row) = undelivered uid row := by
      by_cases hmark : undelivered other row = true
      · have hto : row.toUid = other := by
          simp only [undelivered, decide_eq_true_eq] at hmark
          exact hmark.1
        simp [undelivered, markDelivered_toUid, hto, hne]
      · rw [markDelivered, if_neg hmark]
    rw [List.map_cons, List.filter_cons, List.filter_cons, hmarked, ih]
    split_ifs with h
    · rw [hrow h]
    · rfl

theorem waiting_getOfflineMessages {uid : Int} {rows : List MessageRow} {db' : Db} (huid : 0 < uid)
    (hfetch : getOfflineMessages .fine uid db = (rows, db')) :
    rows = waiting uid db ∧ waiting uid db' = [] := by
  rw [getOfflineMessages_fine huid] at hfetch
  obtain ⟨rfl, rfl⟩ := Prod.mk.inj hfetch
  refine ⟨rfl, List.filter_eq_nil_iff.mpr fun row hrow => ?_⟩
  obtain ⟨old, -, rfl⟩ := List.mem_map.mp hrow
  rw [undelivered_markDelivered]
  exact Bool.false_ne_true

theorem waiting_getOfflineMessages_of_ne {uid other : Int} {rows : List MessageRow} {db' : Db}
    (hne : other ≠ uid) (hfetch : getOfflineMessages .fine other db = (rows, db')) :
    waiting uid db' = waiting uid db := by
  have hafter : (getOfflineMessages .fine other db).2 = db' := congrArg Prod.snd hfetch
  rcases getOfflineMessages_cases .fine db other with h | ⟨-, h⟩
  · rw [← hafter, h]
  · rw [← hafter, h]
    exact filter_markDelivered_of_ne hne _

theorem waiting_saveMessage {uid fromUid toUid msgId : Int} {content timestamp : Bytes} {db' : Db}
    (hlast : 0 ≤ db.lastMsgId)
    (hsave : saveMessage .fine fromUid toUid content timestamp db = (msgId, db')) :
    waiting uid db' = waiting uid db ++
      if toUid = uid ∧ 0 ≤ msgId then
        [⟨msgId, fromUid, toUid, cstr content, cstr timestamp, false⟩]
      else [] := by
  rcases saveMessage_cases .fine db fromUid toUid content timestamp with h | h
  · obtain ⟨rfl, rfl⟩ := Prod.mk.inj (h.symm.trans hsave)
    rw [if_neg (by simp), List.append_nil]
  · obtain ⟨rfl, rfl⟩ := Prod.mk.inj (h.symm.trans hsave)
    unfold waiting
    rw [List.filter_append]
    by_cases hto : toUid = uid
    · rw [if_pos ⟨hto, by omega⟩]
      simp [undelivered, hto]
    · rw [if_neg fun h => hto h.1]
      simp [undelivered, hto]

theorem messages_of_answers {op : DbOp} {result : op.Ret} {db' : Db}
    (hanswers : Answers platform op db result db')
    (hsave : ∀ fromUid toUid content timestamp, op ≠ .saveMessage fromUid toUid content timestamp)
    (hoffline : ∀ uid, op ≠ .getOfflineMessages uid) :
    db'.messages = db.messages ∧ db'.lastMsgId = db.lastMsgId := by
  cases op with
  | registerUser username password =>
    rcases registerUser_cases platform .fine db username password with h | h <;>
    · obtain ⟨-, rfl⟩ := Prod.mk.inj (h.symm.trans hanswers)
      exact ⟨rfl, rfl⟩
  | addFriend uid friendUid =>
    rcases addFriend_cases .fine db uid friendUid with h | h <;>
    · obtain ⟨-, rfl⟩ := Prod.mk.inj (h.symm.trans hanswers)
      exact ⟨rfl, rfl⟩
  | saveMessage fromUid toUid content timestamp =>
    exact absurd rfl (hsave fromUid toUid content timestamp)
  | getOfflineMessages uid => exact absurd rfl (hoffline uid)
  | loginUser username password =>
    obtain ⟨-, rfl⟩ := Prod.mk.inj hanswers
    exact ⟨rfl, rfl⟩
  | getFriendList uid =>
    obtain ⟨-, rfl⟩ := Prod.mk.inj hanswers
    exact ⟨rfl, rfl⟩

theorem lastMsgId_of_answers {op : DbOp} {result : op.Ret} {db' : Db}
    (hanswers : Answers platform op db result db') : db.lastMsgId ≤ db'.lastMsgId := by
  by_cases hsave : ∃ fromUid toUid content timestamp,
      op = .saveMessage fromUid toUid content timestamp
  · obtain ⟨fromUid, toUid, content, timestamp, rfl⟩ := hsave
    rcases saveMessage_cases .fine db fromUid toUid content timestamp with h | h
    · obtain ⟨-, rfl⟩ := Prod.mk.inj (h.symm.trans hanswers)
      exact Int.le_refl _
    · obtain ⟨-, rfl⟩ := Prod.mk.inj (h.symm.trans hanswers)
      dsimp only
      omega
  by_cases hoffline : ∃ owner, op = .getOfflineMessages owner
  · obtain ⟨owner, rfl⟩ := hoffline
    obtain rfl : (getOfflineMessages .fine owner db).2 = db' := congrArg Prod.snd hanswers
    rcases getOfflineMessages_cases .fine db owner with h | ⟨-, h⟩
    · exact Int.le_of_eq (congrArg Db.lastMsgId h).symm
    · exact Int.le_of_eq (congrArg Db.lastMsgId h).symm
  exact Int.le_of_eq (messages_of_answers hanswers (fun _ _ _ _ heq => hsave ⟨_, _, _, _, heq⟩)
    fun _ heq => hoffline ⟨_, heq⟩).2.symm

/-! ### The law -/

/-- What was fetched and what waits are together what waited at the start and what has been saved. -/
def Balanced (start : Db) (uid : Int) (trace : DbTrace) (db : Db) : Prop :=
  fetched uid trace ++ waiting uid db = waiting uid start ++ savedFor uid trace

namespace Balanced

variable {uid : Int} {db' : Db}

theorem saveMessage {fromUid toUid msgId : Int} {content timestamp : Bytes}
    (h : Balanced start uid trace db) (hlast : 0 ≤ db.lastMsgId) (hcontent : 0 ∉ content)
    (htimestamp : 0 ∉ timestamp)
    (hsave : DBManager.saveMessage .fine fromUid toUid content timestamp db = (msgId, db')) :
    Balanced start uid (⟨.saveMessage fromUid toUid content timestamp, msgId⟩ :: trace) db' := by
  have hsaved : waiting uid db' = _ := waiting_saveMessage hlast hsave
  rw [cstr_eq_self hcontent, cstr_eq_self htimestamp] at hsaved
  let saved := if toUid = uid ∧ 0 ≤ msgId then
    [(⟨msgId, fromUid, toUid, content, timestamp, false⟩ : MessageRow)] else []
  calc fetched uid trace ++ waiting uid db'
      = (fetched uid trace ++ waiting uid db) ++ saved := by rw [hsaved, List.append_assoc]
    _ = (waiting uid start ++ savedFor uid trace) ++ saved := congrArg (· ++ saved) h
    _ = waiting uid start ++ (savedFor uid trace ++ saved) := List.append_assoc ..
    _ = waiting uid start
        ++ savedFor uid (⟨.saveMessage fromUid toUid content timestamp, msgId⟩ :: trace) := by
      rw [savedFor]
      unfold saved
      split_ifs
      · rfl
      · rw [List.append_nil]

theorem getOfflineMessages {owner : Int} {rows : List MessageRow} (h : Balanced start uid trace db)
    (huid : 0 < uid) (hfetch : DBManager.getOfflineMessages .fine owner db = (rows, db')) :
    Balanced start uid (⟨.getOfflineMessages owner, rows⟩ :: trace) db' := by
  unfold Balanced at h ⊢
  change _ = waiting uid start ++ savedFor uid trace
  rw [fetched]
  split_ifs with howner
  · subst howner
    obtain ⟨hrows, hempty⟩ := waiting_getOfflineMessages huid hfetch
    rw [hempty, List.append_nil, hrows]
    exact h
  · rw [waiting_getOfflineMessages_of_ne howner hfetch]
    exact h

theorem other {op : DbOp} {result : op.Ret} (h : Balanced start uid trace db)
    (hsave : ∀ fromUid toUid content timestamp, op ≠ .saveMessage fromUid toUid content timestamp)
    (hoffline : ∀ owner, op ≠ .getOfflineMessages owner)
    (hanswers : Answers platform op db result db') :
    Balanced start uid (⟨op, result⟩ :: trace) db' := by
  unfold Balanced waiting at h ⊢
  rw [(messages_of_answers hanswers hsave hoffline).1]
  cases op with
  | saveMessage fromUid toUid content timestamp => exact absurd rfl (hsave _ _ _ _)
  | getOfflineMessages owner => exact absurd rfl (hoffline _)
  | _ => exact h

end Balanced

theorem balanced_of_called (hstart : start.WellFormed) (hcalled : Called platform start trace db)
    (hnul : TextsWithoutNul trace) {uid : Int} (huid : 0 < uid) :
    Balanced start uid trace db ∧ 0 ≤ db.lastMsgId := by
  induction hcalled with
  | nil => exact ⟨by simp [Balanced, fetched, savedFor], hstart.lastMsgId_nonneg⟩
  | @cons op result earlier before after _ hanswers ih =>
    obtain ⟨hbalanced, hlast⟩ := ih fun call hcall => hnul call (List.mem_cons_of_mem _ hcall)
    refine ⟨?_, Int.le_trans hlast (lastMsgId_of_answers hanswers)⟩
    by_cases hsave : ∃ fromUid toUid content timestamp,
        op = .saveMessage fromUid toUid content timestamp
    · obtain ⟨fromUid, toUid, content, timestamp, rfl⟩ := hsave
      obtain ⟨hcontent, htimestamp⟩ := hnul _ List.mem_cons_self _ _ _ _ rfl
      exact hbalanced.saveMessage hlast hcontent htimestamp hanswers
    by_cases hoffline : ∃ owner, op = .getOfflineMessages owner
    · obtain ⟨owner, rfl⟩ := hoffline
      exact hbalanced.getOfflineMessages huid hanswers
    exact hbalanced.other (fun _ _ _ _ heq => hsave ⟨_, _, _, _, heq⟩)
      (fun _ heq => hoffline ⟨_, heq⟩) hanswers

/-- What waited and what was saved is in the order of the ids, up to the last one given out. -/
theorem ascending_of_called (hstart : start.WellFormed) (hcalled : Called platform start trace db)
    (uid : Int) :
    (waiting uid start ++ savedFor uid trace).Pairwise (fun row later => row.msgId < later.msgId) ∧
      ∀ row ∈ waiting uid start ++ savedFor uid trace, row.msgId ≤ db.lastMsgId := by
  induction hcalled with
  | nil =>
    rw [savedFor, List.append_nil]
    exact ⟨hstart.msgId_ascending.filter _,
      fun row hrow => hstart.msgId_le row (List.mem_filter.mp hrow).1⟩
  | @cons op result earlier before after _ hanswers ih =>
    obtain ⟨hascending, hle⟩ := ih
    have hlast := lastMsgId_of_answers hanswers
    have hkept : ∀ row ∈ waiting uid start ++ savedFor uid earlier, row.msgId ≤ after.lastMsgId :=
      fun row hrow => Int.le_trans (hle row hrow) hlast
    cases op with
    | saveMessage fromUid toUid content timestamp =>
      rw [savedFor]
      split_ifs with hsaved
      · have hid : result = before.lastMsgId + 1 ∧ after.lastMsgId = result := by
          rcases saveMessage_cases .fine before fromUid toUid content timestamp with h | h
          · obtain ⟨rfl, -⟩ := Prod.mk.inj (h.symm.trans hanswers)
            have := hsaved.2
            contradiction
          · obtain ⟨rfl, rfl⟩ := Prod.mk.inj (h.symm.trans hanswers)
            exact ⟨rfl, rfl⟩
        rw [← List.append_assoc]
        refine ⟨List.pairwise_append.mpr ⟨hascending, List.pairwise_singleton _ _, ?_⟩, ?_⟩
        · intro row hrow later hlater
          obtain rfl := List.mem_singleton.mp hlater
          rw [hid.1]
          exact Int.lt_add_one_of_le (hle row hrow)
        · intro row hrow
          rcases List.mem_append.mp hrow with hrow | hrow
          · exact hkept row hrow
          · obtain rfl := List.mem_singleton.mp hrow
            exact Int.le_of_eq hid.2.symm
      · exact ⟨hascending, hkept⟩
    | _ => exact ⟨hascending, hkept⟩

theorem delivered_mono (hcalled : Called platform start trace db) :
    ∀ row ∈ start.messages, row.delivered = true → row ∈ db.messages := by
  refine hcalled.chain (R := fun db db' =>
    ∀ row ∈ db.messages, row.delivered = true → row ∈ db'.messages) ?_ ?_ ?_
  · exact fun _ _ h _ => h
  · exact fun _ _ _ h h' row hrow hdelivered => h' row (h row hrow hdelivered) hdelivered
  · rintro ⟨op, result⟩ - db db' hanswers row hrow hdelivered
    cases op with
    | saveMessage fromUid toUid content timestamp =>
      rcases saveMessage_cases .fine db fromUid toUid content timestamp with h | h
      · obtain ⟨-, rfl⟩ := Prod.mk.inj (h.symm.trans hanswers)
        exact hrow
      · obtain ⟨-, rfl⟩ := Prod.mk.inj (h.symm.trans hanswers)
        exact List.mem_append_left _ hrow
    | getOfflineMessages owner =>
      have hafter : (getOfflineMessages .fine owner db).2 = db' := congrArg Prod.snd hanswers
      rcases getOfflineMessages_cases .fine db owner with h | ⟨-, h⟩
      · rwa [← hafter, h]
      · rw [← hafter, h]
        refine List.mem_map.mpr ⟨row, hrow, ?_⟩
        unfold markDelivered
        rw [if_neg (by simp [undelivered, hdelivered])]
    | _ => rwa [(messages_of_answers hanswers (by simp) (by simp)).1]

/-- **The mailbox law.** Over any sequence of calls, when a user's messages are fetched, all the fetches
of the user so far have together returned what waited for the user at the start and every message saved
for the user since, once each and in the order of their ids. A fetch for another user changes nothing of
what waits, and what is delivered stays so. -/
theorem mailbox_law (hstart : start.WellFormed) (hcalled : Called platform start trace db)
    (hnul : TextsWithoutNul trace) {uid : Int} (huid : 0 < uid) :
    (∀ later rows earlier, trace = later ++ ⟨.getOfflineMessages uid, rows⟩ :: earlier →
      fetched uid (⟨.getOfflineMessages uid, rows⟩ :: earlier)
          = waiting uid start ++ savedFor uid earlier ∧
        (waiting uid start ++ savedFor uid earlier).Pairwise
          fun row later => row.msgId < later.msgId) ∧
    (∀ later other rows earlier before after,
      trace = later ++ ⟨.getOfflineMessages other, rows⟩ :: earlier → other ≠ uid →
        Called platform start earlier before →
        Called platform start (⟨.getOfflineMessages other, rows⟩ :: earlier) after →
        waiting uid after = waiting uid before) ∧
    ∀ later earlier middle, trace = later ++ earlier → Called platform start earlier middle →
      ∀ row ∈ middle.messages, row.delivered = true → row ∈ db.messages := by
  refine ⟨?_, ?_, ?_⟩
  · rintro later rows earlier rfl
    obtain ⟨after, hafter, -⟩ := hcalled.split
    have hnul : TextsWithoutNul (⟨.getOfflineMessages uid, rows⟩ :: earlier) :=
      fun call hcall => hnul call (List.mem_append_right _ hcall)
    obtain ⟨hbalanced, -⟩ := balanced_of_called hstart hafter hnul huid
    unfold Balanced at hbalanced
    cases hafter with
    | @cons _ _ _ before _ hearlier hanswers =>
      have hfetch : getOfflineMessages .fine uid before = (rows, after) := hanswers
      rw [(waiting_getOfflineMessages huid hfetch).2, List.append_nil] at hbalanced
      exact ⟨hbalanced, (ascending_of_called hstart hearlier uid).1⟩
  · rintro later other rows earlier before after - hne hbefore hafter
    cases hafter with
    | cons hearlier hanswers =>
      obtain rfl := called_unique hbefore hearlier
      exact waiting_getOfflineMessages_of_ne hne hanswers
  · rintro later earlier middle rfl hmiddle
    obtain ⟨middle', hmiddle', hlater⟩ := hcalled.split
    obtain rfl := called_unique hmiddle hmiddle'
    exact delivered_mono hlater

def noon : Tm := ⟨2024, 1, 1, 12, 0, 0⟩

/-- Two messages for bob, with a fetch between them. -/
def mailOps : List DbOp :=
  [.saveMessage 1 2 (ascii "again") (strftime noon), .getOfflineMessages 2,
    .saveMessage 1 2 (ascii "hello") (strftime noon)]

theorem mailbox_law_bob :
    savedFor 2 (runCalls reference .empty mailOps).1
        = [⟨1, 1, 2, ascii "hello", strftime noon, false⟩, ⟨2, 1, 2, ascii "again", strftime noon, false⟩] ∧
      fetched 2 (runCalls reference .empty (.getOfflineMessages 2 :: mailOps)).1
        = savedFor 2 (runCalls reference .empty mailOps).1 := by
  have hnul : TextsWithoutNul (runCalls reference .empty (.getOfflineMessages 2 :: mailOps)).1 := by
    intro call hcall fromUid toUid content timestamp hsave
    have hop := mem_of_mem_runCalls hcall
    simp only [mailOps, List.mem_cons, List.not_mem_nil, or_false] at hop
    rcases hop with hop | hop | hop | hop <;>
    · rw [hop] at hsave
      cases hsave <;> exact ⟨by decide, zero_notMem_strftime noon⟩
  have hlaw := (mailbox_law Db.empty_wellFormed (called_runCalls reference _ _) hnul
    (by decide : (0 : Int) < 2)).1 [] _ _ rfl
  exact ⟨by decide +kernel, hlaw.1⟩

end CoroutineServer
