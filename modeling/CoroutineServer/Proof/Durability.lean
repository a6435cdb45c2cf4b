import CoroutineServer.Proof.Refinement
import Mathlib.Algebra.Group.Nat.Defs

/-!
# What the tables keep

Over all lives of the server the tables only grow: users and friendships stay as they are, and a message is
at most marked delivered. So an account lasts, and a message waits until it is fetched.
-/

namespace CoroutineServer

open Program DBManager

variable {platform : Platform} {sqlite : Sqlite} {db later : Db}

/-! ### Growing tables -/

/-- A row of the messages table, and the same row later on. -/
structure MessageRow.KeptAs (row later : MessageRow) : Prop where
  same : later = { row with delivered := later.delivered }
  delivered : row.delivered = true → later.delivered = true

theorem MessageRow.KeptAs.refl (row : MessageRow) : row.KeptAs row := ⟨rfl, id⟩

theorem MessageRow.KeptAs.trans {row middle later : MessageRow} (h : row.KeptAs middle)
    (h' : middle.KeptAs later) : row.KeptAs later :=
  ⟨by rw [h'.same, h.same], fun hdelivered => h'.delivered (h.delivered hdelivered)⟩

theorem keptAs_markDelivered (uid : Int) (row : MessageRow) : row.KeptAs (markDelivered uid row) := by
  refine ⟨?_, markDelivered_delivered⟩
  unfold markDelivered
  split_ifs <;> rfl

/-- The tables later on: a row keeps its place, and a new one has a greater key than all keys given out
before. -/
structure Db.ExtendsTo (db later : Db) : Prop where
  users : ∃ rows, later.users = db.users ++ rows ∧ ∀ row ∈ rows, db.lastUid < row.uid
  friends : ∃ rows, later.friends = db.friends ++ rows ∧ ∀ row ∈ rows, db.lastFriendId < row.id
  kept : ∀ (i : Nat) row, db.messages[i]? = some row →
    ∃ row', later.messages[i]? = some row' ∧ row.KeptAs row'
  fresh : ∀ (i : Nat) row, later.messages[i]? = some row → db.messages.length ≤ i →
    db.lastMsgId < row.msgId
  lastUid : db.lastUid ≤ later.lastUid
  lastFriendId : db.lastFriendId ≤ later.lastFriendId
  lastMsgId : db.lastMsgId ≤ later.lastMsgId

namespace Db.ExtendsTo

theorem refl (db : Db) : db.ExtendsTo db where
  users := ⟨[], (List.append_nil _).symm, fun _ h => by cases h⟩
  friends := ⟨[], (List.append_nil _).symm, fun _ h => by cases h⟩
  kept := fun _ row hrow => ⟨row, hrow, .refl row⟩
  fresh := fun i row hrow hlength => by
    rw [List.getElem?_eq_none hlength] at hrow
    cases hrow
  lastUid := Int.le_refl _
  lastFriendId := Int.le_refl _
  lastMsgId := Int.le_refl _

theorem append_trans {α : Type} {key : α → Int} {first second third : List α} {last last' : Int}
    (h : ∃ rows, second = first ++ rows ∧ ∀ row ∈ rows, last < key row)
    (h' : ∃ rows, third = second ++ rows ∧ ∀ row ∈ rows, last' < key row) (hlast : last ≤ last') :
    ∃ rows, third = first ++ rows ∧ ∀ row ∈ rows, last < key row := by
  obtain ⟨rows, rfl, hrows⟩ := h
  obtain ⟨rows', rfl, hrows'⟩ := h'
  refine ⟨rows ++ rows', List.append_assoc _ _ _, fun row hrow => ?_⟩
  rcases List.mem_append.mp hrow with hrow | hrow
  · exact hrows row hrow
  · exact Int.lt_of_le_of_lt hlast (hrows' row hrow)

theorem trans {middle : Db} (h : db.ExtendsTo middle) (h' : middle.ExtendsTo later) :
    db.ExtendsTo later where
  users := append_trans h.users h'.users h.lastUid
  friends := append_trans h.friends h'.friends h.lastFriendId
  kept := fun i row hrow => by
    obtain ⟨row', hrow', hkept⟩ := h.kept i row hrow
    obtain ⟨row'', hrow'', hkept'⟩ := h'.kept i row' hrow'
    exact ⟨row'', hrow'', hkept.trans hkept'⟩
  fresh := fun i row hrow hlength => by
    cases hmiddle : middle.messages[i]? with
    | none => exact Int.lt_of_le_of_lt h.lastMsgId (h'.fresh i row hrow (List.getElem?_eq_none_iff.mp hmiddle))
    | some old =>
      -- the row was new in the middle, and has kept its key
      obtain ⟨row', hrow', hkept⟩ := h'.kept i old hmiddle
      obtain rfl := Option.some.inj (hrow.symm.trans hrow')
      rw [hkept.same]
      exact h.fresh i old hmiddle hlength
  lastUid := Int.le_trans h.lastUid h'.lastUid
  lastFriendId := Int.le_trans h.lastFriendId h'.lastFriendId
  lastMsgId := Int.le_trans h.lastMsgId h'.lastMsgId

theorem registerUser (username password : Bytes) :
    db.ExtendsTo (DBManager.registerUser platform sqlite username password db).2 := by
  rcases registerUser_cases platform sqlite db username password with h | h
  · rw [h]
    exact .refl db
  · rw [h]
    refine { ExtendsTo.refl db with users := ⟨_, rfl, fun row hrow => ?_⟩, lastUid := ?_ }
    · obtain rfl := List.mem_singleton.mp hrow
      exact Int.lt_succ _
    · exact Int.le_of_lt (Int.lt_succ _)

theorem addFriend (uid friendUid : Int) :
    db.ExtendsTo (DBManager.addFriend sqlite uid friendUid db).2 := by
  rcases addFriend_cases sqlite db uid friendUid with h | h
  · rw [h]
    exact .refl db
  · rw [h]
    refine { ExtendsTo.refl db with friends := ⟨_, rfl, fun row hrow => ?_⟩, lastFriendId := ?_ }
    · obtain rfl := List.mem_singleton.mp hrow
      exact Int.lt_succ _
    · exact Int.le_of_lt (Int.lt_succ _)

theorem saveMessage (fromUid toUid : Int) (content timestamp : Bytes) :
    db.ExtendsTo (DBManager.saveMessage sqlite fromUid toUid content timestamp db).2 := by
  rcases saveMessage_cases sqlite db fromUid toUid content timestamp with h | h
  · rw [h]
    exact .refl db
  · rw [h]
    refine { ExtendsTo.refl db with kept := fun i row hrow => ?_, fresh := ?_, lastMsgId := ?_ }
    · exact ⟨row, (List.getElem?_append_left (List.getElem?_eq_some_iff.mp hrow).1).trans hrow, .refl row⟩
    · intro i row hrow hlength
      dsimp only at hrow
      rw [List.getElem?_append_right hlength] at hrow
      obtain rfl := List.mem_singleton.mp (List.mem_of_getElem? hrow)
      exact Int.lt_succ _
    · exact Int.le_of_lt (Int.lt_succ _)

theorem getOfflineMessages (uid : Int) :
    db.ExtendsTo (DBManager.getOfflineMessages sqlite uid db).2 := by
  rcases getOfflineMessages_cases sqlite db uid with h | ⟨-, h⟩
  · rw [h]
    exact .refl db
  · rw [h]
    refine { ExtendsTo.refl db with kept := fun i row hrow => ?_, fresh := fun i row hrow hlength => ?_ }
    · refine ⟨markDelivered uid row, ?_, keptAs_markDelivered uid row⟩
      rw [List.getElem?_map, hrow]
      rfl
    · dsimp only at hrow
      rw [List.getElem?_eq_none (by simpa using hlength)] at hrow
      cases hrow

end Db.ExtendsTo

theorem extendsTo_perform (input : Input) (op : Op) (world : World) :
    world.db.ExtendsTo (perform platform input op world).2.db := by
  cases op with
  | registerUser username password => exact .registerUser username password
  | addFriend uid friendUid => exact .addFriend uid friendUid
  | saveMessage fromUid toUid content timestamp => exact .saveMessage fromUid toUid content timestamp
  | getOfflineMessages uid => exact .getOfflineMessages uid
  | _ =>
    rw [db_perform _ _ _ _ (by simp) (by simp) (by simp) (by simp)]
    exact .refl _

/-- The tables after a step are those of before, or what one operation of the worker has made of them. -/
theorem db_of_lifeStep {label : LifeLabel} {chronicle chronicle' : Chronicle}
    (hstep : lifeStep platform label chronicle = some chronicle') :
    chronicle'.db = chronicle.db ∨ ∃ input op next, label = .server (.work input) ∧
      chronicle.state.worker = some (.perform op next) ∧
      chronicle'.db = (perform platform input op chronicle.state.world).2.db := by
  cases label with
  | server label =>
    obtain ⟨state, hserver, rfl⟩ := Option.map_eq_some_iff.mp hstep
    cases moved_of_step hserver with
    | quiet hquiet => exact .inl hquiet.db
    | dispatch => exact .inl rfl
    | work hworker => exact .inr ⟨_, _, _, rfl, hworker, rfl⟩
    | io => exact .inl (db_ioStep _ _ _ _ _)
  | restart =>
    obtain rfl := Option.some.inj hstep
    exact .inl rfl

theorem extendsTo_of_lifeStep {label : LifeLabel} {chronicle chronicle' : Chronicle}
    (hstep : lifeStep platform label chronicle = some chronicle') :
    chronicle.db.ExtendsTo chronicle'.db := by
  rcases db_of_lifeStep hstep with hsame | ⟨input, op, _, _, _, hop⟩
  · rw [hsame]
    exact .refl _
  · rw [hop]
    exact extendsTo_perform input op _

/-- **The tables only grow.** Whatever happens from a chronicle on, in this life of the server or in later
ones and whatever SQLite calls fail: no row of users or friends is changed or removed, a row of messages
keeps its place, its texts and its users and is at most marked delivered, which it stays, and every new key
is greater than all keys given out before. -/
theorem tables_extend {chronicle chronicle' : Chronicle}
    (hlater : ChroniclesFrom platform (fun _ _ => True) chronicle chronicle') :
    chronicle.db.ExtendsTo chronicle'.db :=
  hlater.chain (fun chronicle => .refl chronicle.db) (fun _ _ _ => .trans)
    fun _ _ _ _ => extendsTo_of_lifeStep

theorem tables_extend_secondLife : Chronicle.first.db.ExtendsTo secondLife.db :=
  tables_extend chronicles_secondLife

/-! ### Accounts last -/

theorem hexDigit_inj {m n : Nat} (hm : m < 16) (hn : n < 16) (h : hexDigit m = hexDigit n) : m = n := by
  have hdigits : ∀ m < 16, ∀ n < 16, hexDigit m = hexDigit n → m = n := by decide
  exact hdigits m hm n hn h

/-- A number is determined by its digits. -/
theorem eq_of_digits {base : Nat} (n : Nat) {a b : Nat} (ha : a < base ^ n) (hb : b < base ^ n)
    (h : ∀ i < n, a / base ^ i % base = b / base ^ i % base) : a = b := by
  induction n generalizing a b with
  | zero =>
    rw [Nat.pow_zero] at ha hb
    omega
  | succ n ih =>
    have hlow : a % base = b % base := by simpa using h 0 (Nat.succ_pos n)
    have hhigh : a / base = b / base := by
      refine ih (Nat.div_lt_of_lt_mul (by rwa [Nat.pow_succ'] at ha))
        (Nat.div_lt_of_lt_mul (by rwa [Nat.pow_succ'] at hb)) fun i hi => ?_
      rw [Nat.div_div_eq_div_mul, Nat.div_div_eq_div_mul, ← Nat.pow_succ']
      exact h (i + 1) (Nat.succ_lt_succ hi)
    rw [← Nat.div_add_mod a base, ← Nat.div_add_mod b base, hlow, hhigh]

/-- The text of a hash shows all of it. -/
theorem hex16_inj {a b : UInt64} : hex16 a = hex16 b ↔ a = b := by
  refine ⟨fun h => ?_, congrArg hex16⟩
  have hdigits := List.map_inj_left.mp h
  have hlt : ∀ value : UInt64, value.toNat < 16 ^ 16 := fun value => value.toNat_lt
  refine UInt64.toNat_inj.mp (eq_of_digits 16 (hlt a) (hlt b) fun i hi => ?_)
  have hi' := hdigits (15 - i) (List.mem_range.mpr (by omega))
  rw [show 15 - (15 - i) = i by omega] at hi'
  exact hexDigit_inj (Nat.mod_lt _ (by decide)) (Nat.mod_lt _ (by decide)) hi'

/-- **An account lasts.** Once `RegisterUser` has succeeded, then whatever happens after it, in this life of
the server or in later ones, a login under the name that SQLite does not fail, and that gives neither an empty
name nor an empty password, gets the same uid for every password whose salted hash is that of the registered
one, and is refused for every other. -/
theorem account_lasts {username password name attempt : Bytes} {before : Db} {chronicle later : Chronicle}
    (hregister : registerUser platform sqlite username password before = (true, chronicle.db))
    (hlater : ChroniclesFrom platform (fun _ _ => True) chronicle later)
    (hname : cstr name = cstr username) (hne : name ≠ []) (hattempt : attempt ≠ []) :
    loginUser platform .fine name attempt later.db
      = if platform.hash (salt ++ attempt) = platform.hash (salt ++ password) then (true, before.lastUid + 1)
        else (false, 0) := by
  have hnew := registerUser_eq_true (congrArg Prod.fst hregister)
  have hafter : chronicle.db.users
      = before.users ++ [⟨before.lastUid + 1, cstr username, simpleHash platform password⟩] := by
    rcases registerUser_cases platform sqlite before username password with h | h
    · cases h.symm.trans hregister
    · rw [← (Prod.mk.inj (h.symm.trans hregister)).2]
  obtain ⟨rows, husers, -⟩ := (hlater.chain (fun chronicle => .refl chronicle.db) (fun _ _ _ => .trans)
    fun _ _ _ _ => extendsTo_of_lifeStep : chronicle.db.ExtendsTo later.db).users
  -- no row before it has the name, and it has kept its place
  have hfind : later.db.users.find? (fun user => user.username = cstr name)
      = some ⟨before.lastUid + 1, cstr username, simpleHash platform password⟩ := by
    have hnone : before.users.find? (fun user => user.username = cstr name) = none :=
      List.find?_eq_none.mpr fun user huser heq =>
        hnew (List.mem_map.mpr ⟨user, huser, (of_decide_eq_true heq).trans hname⟩)
    rw [husers, hafter, List.find?_append, List.find?_append, hnone, hname]
    simp
  rw [loginUser_fine hne hattempt, hfind]
  simp only [simpleHash, hex16_inj]

/-- Ann has registered. -/
def annRegistered : Chronicle :=
  Reach.after (lifeStep reference)
    (([.accept 0, .post 0 MSG_REGISTER_REQ (credentials "ann"), .serve 3].flatMap Act.labels).map .server)
    .first

theorem account_lasts_ann :
    loginUser reference .fine (ascii "ann") (ascii "secret") annRegistered.restarted.db = (true, 1) :=
  (account_lasts (show registerUser reference .fine (ascii "ann") (ascii "secret") .empty
      = (true, annRegistered.db) by decide +kernel)
    (.next (.initial rfl) trivial (show lifeStep reference .restart annRegistered = _ from rfl)) rfl
    (by decide) (by decide)).trans (if_pos rfl)

/-! ### Messages wait -/

/-- The step is no fetch of the messages of a user. -/
def NoFetch (uid : Int) : LifeLabel → Chronicle → Prop
  | .server (.work _), chronicle => ∀ next,
      chronicle.state.worker ≠ some (.perform (.getOfflineMessages uid) next)
  | _, _ => True

theorem mem_messages_of_lifeStep {label : LifeLabel} {chronicle chronicle' : Chronicle} {row : MessageRow}
    (hok : NoFetch row.toUid label chronicle) (hstep : lifeStep platform label chronicle = some chronicle')
    (hrow : row ∈ chronicle.db.messages) : row ∈ chronicle'.db.messages := by
  rcases db_of_lifeStep hstep with hsame | ⟨input, op, next, rfl, hworker, hop⟩
  · rwa [hsame]
  · rw [hop]
    unfold Chronicle.db at hrow
    cases op with
    | saveMessage fromUid toUid content timestamp =>
      rw [perform]
      rcases saveMessage_cases input.sqlite chronicle.state.world.db fromUid toUid content timestamp
        with h | h
      · rwa [h]
      · rw [h]
        exact List.mem_append_left _ hrow
    | getOfflineMessages uid =>
      rw [perform]
      rcases getOfflineMessages_cases input.sqlite chronicle.state.world.db uid with h | ⟨-, h⟩
      · dsimp only
        rwa [h]
      · dsimp only
        rw [h]
        refine List.mem_map.mpr ⟨row, hrow, if_neg fun hundelivered => ?_⟩
        have hto : row.toUid = uid ∧ row.delivered = false := of_decide_eq_true hundelivered
        exact hok next (hto.1 ▸ hworker)
    | _ =>
      rwa [(messages_perform platform input _ _ (by simp) (by simp)).1]

theorem mem_messages_of_saveMessage {fromUid toUid msgId : Int} {content timestamp : Bytes} {after : Db}
    (hsave : saveMessage sqlite fromUid toUid content timestamp db = (msgId, after)) (hid : 0 ≤ msgId) :
    0 < toUid ∧ ⟨msgId, fromUid, toUid, cstr content, cstr timestamp, false⟩ ∈ after.messages := by
  unfold saveMessage at hsave
  split_ifs at hsave with hinvalid
  · obtain ⟨rfl, -⟩ := Prod.mk.inj hsave
    cases hid
  · obtain ⟨rfl, -⟩ := Prod.mk.inj hsave
    cases hid
  · obtain ⟨rfl, rfl⟩ := Prod.mk.inj hsave
    exact ⟨by omega, List.mem_append_right _ (List.mem_singleton.mpr rfl)⟩

/-- **A message waits until it is fetched.** Once `SaveMessage` has succeeded, then as long as nobody
fetches the messages of its recipient, in this life of the server and in later ones, the next fetch that
SQLite does not fail hands it out, with its id, its sender and its texts up to their first NUL. -/
theorem message_waits {fromUid toUid msgId : Int} {content timestamp : Bytes} {before : Db}
    {chronicle later : Chronicle}
    (hsave : saveMessage sqlite fromUid toUid content timestamp before = (msgId, chronicle.db))
    (hid : 0 ≤ msgId) (hlater : ChroniclesFrom platform (NoFetch toUid) chronicle later) :
    ⟨msgId, fromUid, toUid, cstr content, cstr timestamp, false⟩
      ∈ (getOfflineMessages .fine toUid later.db).1 := by
  obtain ⟨hto, hsaved⟩ := mem_messages_of_saveMessage hsave hid
  have hwaits := hlater.chain (R := fun chronicle chronicle' =>
      (⟨msgId, fromUid, toUid, cstr content, cstr timestamp, false⟩ : MessageRow) ∈ chronicle.db.messages →
        ⟨msgId, fromUid, toUid, cstr content, cstr timestamp, false⟩ ∈ chronicle'.db.messages)
    (fun _ h => h) (fun _ _ _ h h' hrow => h' (h hrow))
    (fun _ _ _ hok hstep => mem_messages_of_lifeStep hok hstep) hsaved
  rw [getOfflineMessages_fine hto]
  exact List.mem_filter.mpr ⟨hwaits, by simp [undelivered]⟩

/-- Ann has written to bob, who is not there. -/
def writtenToBob : Chronicle :=
  Reach.after (lifeStep reference) ((registeredChatScript.flatMap Act.labels).map .server) .first

theorem message_waits_bob :
    ⟨1, 1, 2, cstr (ascii "hello"), cstr (strftime Input.idle.tm), false⟩
      ∈ (getOfflineMessages .fine 2 writtenToBob.restarted.db).1 :=
  message_waits (show saveMessage .fine 1 2 (ascii "hello") (strftime Input.idle.tm)
      { writtenToBob.db with messages := [], lastMsgId := 0 } = (1, writtenToBob.db) by decide +kernel)
    (by decide)
    (.next (.initial rfl) (show NoFetch 2 .restart writtenToBob from trivial)
      (show lifeStep reference .restart writtenToBob = _ from rfl))

end CoroutineServer
