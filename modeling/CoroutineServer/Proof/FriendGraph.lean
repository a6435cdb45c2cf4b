import Mathlib.Data.Finset.Card
import CoroutineServer.Proof.Accounts

/-!
# The friend relation

A friendship is one row of the friends table, in the direction it was asked for; the list of a user's
friends puts the two directions together. Over any sequence of calls the relation this gives is the one of
the successful additions, read both ways: a symmetric and irreflexive relation on the registered users.
-/

namespace CoroutineServer

open Program DBManager

variable {platform : Platform} {trace : DbTrace} {db : Db}

/-- A registration in the sequence created the uid. -/
def Registered (platform : Platform) (trace : DbTrace) (uid : Int) : Prop :=
  ∃ username password, CreatedBy platform trace username password uid

/-- One of the two has been added as a friend of the other. -/
def Befriended (trace : DbTrace) (uid friendUid : Int) : Prop :=
  ⟨.addFriend uid friendUid, true⟩ ∈ trace ∨ ⟨.addFriend friendUid uid, true⟩ ∈ trace

theorem Befriended.symm {uid friendUid : Int} (h : Befriended trace uid friendUid) :
    Befriended trace friendUid uid := Or.symm h

/-! ### The friends table -/

theorem friends_of_answers {op : DbOp} {result : op.Ret} {db' : Db}
    (hanswers : Answers platform op db result db') :
    (∃ uid friendUid, (⟨op, result⟩ : DbCall) = ⟨.addFriend uid friendUid, true⟩ ∧
      db'.friends = db.friends ++ [⟨db.lastFriendId + 1, uid, friendUid⟩]) ∨
    (∀ uid friendUid, (⟨op, result⟩ : DbCall) ≠ ⟨.addFriend uid friendUid, true⟩) ∧
      db'.friends = db.friends := by
  have hother : (∀ uid friendUid, op ≠ .addFriend uid friendUid) →
      (op.perform platform db).2.friends = db.friends →
      (∀ uid friendUid, (⟨op, result⟩ : DbCall) ≠ ⟨.addFriend uid friendUid, true⟩) ∧
        db'.friends = db.friends := fun hop hkept =>
    ⟨fun uid friendUid heq => hop uid friendUid (Sigma.mk.inj heq).1,
      kept_of_answers Db.friends hanswers hkept⟩
  have hmessages := @kept_by_perform platform _ Db.friends (fun _ _ _ => rfl) op db
  cases op with
  | addFriend uid friendUid =>
    rcases addFriend_cases .fine db uid friendUid with h | h
    · obtain ⟨rfl, rfl⟩ := Prod.mk.inj (h.symm.trans hanswers)
      exact .inr ⟨fun _ _ heq => (by cases heq), rfl⟩
    · obtain ⟨rfl, rfl⟩ := Prod.mk.inj (h.symm.trans hanswers)
      exact .inl ⟨uid, friendUid, rfl, rfl⟩
  | registerUser username password =>
    apply Or.inr (hother (by simp) _)
    rw [DbOp.perform]
    rcases registerUser_cases platform .fine db username password with h | h <;> rw [h]
  | saveMessage | getOfflineMessages | loginUser | getFriendList =>
    exact .inr (hother (by simp) (hmessages (by simp) (by simp)))

theorem mem_friends_iff (hcalled : Called platform .empty trace db) (uid friendUid : Int) :
    (∃ row ∈ db.friends, row.uid = uid ∧ row.friendUid = friendUid) ↔
      (⟨.addFriend uid friendUid, true⟩ : DbCall) ∈ trace := by
  induction hcalled with
  | nil => simp [Db.empty]
  | @cons op result earlier before after _ hanswers ih =>
    rw [List.mem_cons, ← ih]
    rcases friends_of_answers hanswers with ⟨newUid, newFriend, heq, hfriends⟩ | ⟨hne, hfriends⟩
    · rw [hfriends, heq]
      constructor
      · rintro ⟨row, hrow, rfl, rfl⟩
        rcases List.mem_append.mp hrow with hrow | hrow
        · exact .inr ⟨row, hrow, rfl, rfl⟩
        · obtain rfl := List.mem_singleton.mp hrow
          exact .inl rfl
      · rintro (hnew | ⟨row, hrow, hcolumns⟩)
        · cases hnew
          exact ⟨_, List.mem_append_right _ List.mem_cons_self, rfl, rfl⟩
        · exact ⟨row, List.mem_append_left _ hrow, hcolumns⟩
    · rw [hfriends]
      exact ⟨.inr, fun h => h.resolve_left (hne uid friendUid).symm⟩

theorem any_areFriends_iff (hcalled : Called platform .empty trace db) (uid friendUid : Int) :
    db.friends.any (areFriends uid friendUid) = true ↔ Befriended trace uid friendUid := by
  unfold Befriended
  rw [← mem_friends_iff hcalled, ← mem_friends_iff hcalled, List.any_eq_true]
  constructor
  · rintro ⟨row, hrow, hcolumns⟩
    rcases of_decide_eq_true hcolumns with hcolumns | hcolumns
    · exact .inl ⟨row, hrow, hcolumns⟩
    · exact .inr ⟨row, hrow, hcolumns⟩
  · rintro (⟨row, hrow, hcolumns⟩ | ⟨row, hrow, hcolumns⟩)
    · exact ⟨row, hrow, decide_eq_true (.inl hcolumns)⟩
    · exact ⟨row, hrow, decide_eq_true (.inr hcolumns)⟩

/-! ### Adding a friend -/

theorem mem_uids_iff (hcalled : Called platform .empty trace db) (uid : Int) :
    uid ∈ db.users.map UserRow.uid ↔ Registered platform trace uid := by
  constructor
  · intro h
    obtain ⟨row, hrow, rfl⟩ := List.mem_map.mp h
    obtain ⟨username, password, hcreated, -⟩ := createdBy_of_mem_users hcalled hrow
    exact ⟨username, password, hcreated⟩
  · rintro ⟨username, password, hcreated⟩
    exact List.mem_map.mpr ⟨_, mem_users_of_createdBy hcalled hcreated, rfl⟩

/-- Two different values are both in a list of them that has no other element and none twice, exactly
when it has two elements. -/
theorem two_le_length_iff {values : List Int} {first second : Int} (hnodup : values.Nodup)
    (hvalues : ∀ value ∈ values, value = first ∨ value = second) (hne : first ≠ second) :
    2 ≤ values.length ↔ first ∈ values ∧ second ∈ values := by
  have hcard : ({first, second} : Finset Int).card = 2 := Finset.card_pair hne
  rw [← List.toFinset_card_of_nodup hnodup, ← hcard]
  constructor
  · intro hle
    have hsub : values.toFinset ⊆ {first, second} := by
      intro value hvalue
      simpa using hvalues value (List.mem_toFinset.mp hvalue)
    have heq := Finset.eq_of_subset_of_card_le hsub hle
    simp only [Finset.ext_iff, List.mem_toFinset] at heq
    exact ⟨(heq first).mpr (by simp), (heq second).mpr (by simp)⟩
  · rintro ⟨hfirst, hsecond⟩
    refine Finset.card_le_card fun value hvalue => List.mem_toFinset.mpr ?_
    rcases Finset.mem_insert.mp hvalue with rfl | hvalue
    · exact hfirst
    · obtain rfl := Finset.mem_singleton.mp hvalue
      exact hsecond

theorem two_le_count_iff {uid friendUid : Int} (hkeyed : Keyed db) (hne : uid ≠ friendUid) :
    2 ≤ (db.users.filter fun user => user.uid = uid ∨ user.uid = friendUid).length ↔
      uid ∈ db.users.map UserRow.uid ∧ friendUid ∈ db.users.map UserRow.uid := by
  have hnodup : (db.users.map UserRow.uid).Nodup :=
    List.pairwise_map.mpr (hkeyed.ascending.imp fun hlt => Int.ne_of_lt hlt)
  have hmem : ∀ value, value = uid ∨ value = friendUid →
      (value ∈ ((db.users.filter fun user => user.uid = uid ∨ user.uid = friendUid).map UserRow.uid) ↔
        value ∈ db.users.map UserRow.uid) := by
    intro value hvalue
    simp only [List.mem_map, List.mem_filter, decide_eq_true_eq]
    constructor
    · rintro ⟨row, ⟨hrow, -⟩, rfl⟩
      exact ⟨row, hrow, rfl⟩
    · rintro ⟨row, hrow, rfl⟩
      exact ⟨row, ⟨hrow, hvalue⟩, rfl⟩
  rw [← List.length_map UserRow.uid, two_le_length_iff ?_ ?_ hne, hmem _ (.inl rfl), hmem _ (.inr rfl)]
  · exact hnodup.sublist ((List.filter_sublist).map _)
  · intro value hvalue
    obtain ⟨row, hrow, rfl⟩ := List.mem_map.mp hvalue
    exact of_decide_eq_true (List.mem_filter.mp hrow).2

theorem addFriend_eq_true_iff (hcalled : Called platform .empty trace db) (uid friendUid : Int) :
    (addFriend .fine uid friendUid db).1 = true ↔ 0 < uid ∧ 0 < friendUid ∧ uid ≠ friendUid ∧
      Registered platform trace uid ∧ Registered platform trace friendUid ∧
      ¬Befriended trace uid friendUid := by
  rw [← any_areFriends_iff hcalled, ← mem_uids_iff hcalled, ← mem_uids_iff hcalled]
  by_cases hpos : uid ≤ 0 ∨ friendUid ≤ 0
  · unfold addFriend
    rw [if_pos hpos]
    constructor
    · intro h
      cases h
    · rintro ⟨huid, hfriend, -⟩
      omega
  by_cases hself : uid = friendUid
  · unfold addFriend
    rw [if_neg hpos, if_pos hself]
    exact ⟨fun h => (by cases h), fun h => absurd hself h.2.2.1⟩
  rw [and_iff_right (by omega), and_iff_right (by omega), and_iff_right hself, ← and_assoc,
    ← two_le_count_iff (keyed_of_called hcalled) hself]
  unfold addFriend insertFriend
  simp only [if_neg hpos, if_neg hself, Sqlite.fine, Bool.false_eq_true, if_false, true_and, false_or]
  -- the constraint of the table protects one direction, which the query before it has already checked
  have hunique : db.friends.any (areFriends uid friendUid) = false →
      (db.friends.any fun row => row.uid = uid ∧ row.friendUid = friendUid) = false := by
    intro hnone
    apply List.any_eq_false.mpr
    intro row hrow hcolumns
    exact List.any_eq_false.mp hnone row hrow (decide_eq_true (.inl (of_decide_eq_true hcolumns)))
  split_ifs with hcount hknown hconstraint
  · exact ⟨fun h => (by cases h), fun h => absurd h.1 (by omega)⟩
  · exact ⟨fun h => (by cases h), fun h => absurd hknown h.2⟩
  · rw [hunique (Bool.eq_false_iff.mpr hknown)] at hconstraint
    cases hconstraint
  · exact ⟨fun _ => ⟨by omega, hknown⟩, fun _ => rfl⟩

/-! ### The list of friends -/

theorem mem_unionInsert {value other : Int} {values : List Int} :
    other ∈ unionInsert value values ↔ other = value ∨ other ∈ values := by
  induction values with
  | nil => simp [unionInsert]
  | cons first rest ih =>
    unfold unionInsert
    split_ifs with hlt heq
    · rw [List.mem_cons]
    · subst heq
      simp
    · rw [List.mem_cons, ih, List.mem_cons, or_left_comm]

theorem sorted_unionInsert {value : Int} {values : List Int} (hsorted : values.Pairwise (· < ·)) :
    (unionInsert value values).Pairwise (· < ·) := by
  induction values with
  | nil => exact List.pairwise_singleton _ _
  | cons first rest ih =>
    obtain ⟨hfirst, hrest⟩ := List.pairwise_cons.mp hsorted
    unfold unionInsert
    split_ifs with hlt heq
    · refine List.pairwise_cons.mpr ⟨fun other hother => ?_, hsorted⟩
      rcases List.mem_cons.mp hother with rfl | hother
      · exact hlt
      · exact Int.lt_trans hlt (hfirst other hother)
    · exact hsorted
    · refine List.pairwise_cons.mpr ⟨fun other hother => ?_, ih hrest⟩
      rcases mem_unionInsert.mp hother with rfl | hother
      · omega
      · exact hfirst other hother

theorem union_spec (selected : List Int) :
    (selected.foldr unionInsert []).Pairwise (· < ·) ∧
      ∀ value, value ∈ selected.foldr unionInsert [] ↔ value ∈ selected := by
  induction selected with
  | nil => exact ⟨.nil, fun _ => Iff.rfl⟩
  | cons first rest ih =>
    refine ⟨sorted_unionInsert ih.1, fun value => ?_⟩
    rw [List.foldr_cons, mem_unionInsert, ih.2, List.mem_cons]

theorem nodup_getFriendList (uid : Int) : (getFriendList .fine uid db).Nodup := by
  unfold getFriendList
  split_ifs
  · exact .nil
  · exact .nil
  · exact (union_spec _).1.imp fun hlt => Int.ne_of_lt hlt

theorem mem_getFriendList (hcalled : Called platform .empty trace db) (uid friendUid : Int) :
    friendUid ∈ getFriendList .fine uid db ↔ 0 < uid ∧ Befriended trace uid friendUid := by
  unfold Befriended getFriendList
  rw [← mem_friends_iff hcalled, ← mem_friends_iff hcalled]
  split_ifs with huid hfails
  · exact ⟨fun h => (by cases h), fun h => (by omega)⟩
  · cases hfails
  · dsimp only
    rw [Sqlite.rows_fine, (union_spec _).2, List.mem_append, List.mem_map, List.mem_map]
    simp only [List.mem_filter, decide_eq_true_eq, and_assoc, and_iff_right (Int.not_le.mp huid)]
    apply or_congr Iff.rfl
    simp only [and_comm (b := _ = uid)]

theorem addFriend_of_mem {uid friendUid : Int} (hcalled : Called platform .empty trace db)
    (hmem : (⟨.addFriend uid friendUid, true⟩ : DbCall) ∈ trace) :
    0 < uid ∧ 0 < friendUid ∧ uid ≠ friendUid := by
  obtain ⟨later, earlier, rfl⟩ := List.append_of_mem hmem
  obtain ⟨before, after, hbefore, hanswers⟩ := called_at hcalled
  obtain ⟨huid, hfriend, hne, -⟩ :=
    (addFriend_eq_true_iff hbefore uid friendUid).mp (congrArg Prod.fst hanswers)
  exact ⟨huid, hfriend, hne⟩

theorem Befriended.spec {uid friendUid : Int} (hcalled : Called platform .empty trace db)
    (h : Befriended trace uid friendUid) : 0 < uid ∧ uid ≠ friendUid := by
  rcases h with hmem | hmem
  · obtain ⟨huid, -, hne⟩ := addFriend_of_mem hcalled hmem
    exact ⟨huid, hne⟩
  · obtain ⟨-, huid, hne⟩ := addFriend_of_mem hcalled hmem
    exact ⟨huid, hne.symm⟩

theorem mem_getFriendList_iff (hcalled : Called platform .empty trace db) (uid friendUid : Int) :
    friendUid ∈ getFriendList .fine uid db ↔ Befriended trace uid friendUid := by
  rw [mem_getFriendList hcalled]
  exact and_iff_right_of_imp fun h => (h.spec hcalled).1

/-- **The friend relation** is a symmetric, irreflexive relation on the registered users. In every
sequence of calls from a new database, an addition succeeds exactly when the two are different registered
users of whom neither has added the other, an addition that fails changes nothing, and a list of friends
has, once each, those whom a successful addition has joined to the user. -/
theorem friend_graph (hcalled : Called platform .empty trace db) :
    (∀ later uid friendUid earlier, ∀ ok : Bool,
      trace = later ++ ⟨.addFriend uid friendUid, ok⟩ :: earlier →
        (ok = true ↔ 0 < uid ∧ 0 < friendUid ∧ uid ≠ friendUid ∧ Registered platform earlier uid ∧
          Registered platform earlier friendUid ∧ ¬Befriended earlier uid friendUid)) ∧
    (∀ later uid friendUid earlier before after,
      trace = later ++ ⟨.addFriend uid friendUid, false⟩ :: earlier →
        Called platform .empty earlier before →
        Called platform .empty (⟨.addFriend uid friendUid, false⟩ :: earlier) after → after = before) ∧
    (∀ later uid friends earlier, trace = later ++ ⟨.getFriendList uid, friends⟩ :: earlier →
      friends.Nodup ∧ ∀ friendUid, friendUid ∈ friends ↔ Befriended earlier uid friendUid) ∧
    (∀ uid friendUid, friendUid ∈ getFriendList .fine uid db ↔ uid ∈ getFriendList .fine friendUid db) ∧
    ∀ uid, uid ∉ getFriendList .fine uid db := by
  refine ⟨?_, ?_, ?_, fun uid friendUid => ?_, fun uid hself => ?_⟩
  · rintro later uid friendUid earlier ok rfl
    obtain ⟨before, after, hbefore, hanswers⟩ := called_at hcalled
    have hresult : (addFriend .fine uid friendUid before).1 = ok := congrArg Prod.fst hanswers
    rw [← hresult]
    exact addFriend_eq_true_iff hbefore uid friendUid
  · rintro later uid friendUid earlier before after - hbefore hafter
    cases hafter with
    | cons hearlier hanswers =>
      obtain rfl := called_unique hbefore hearlier
      rcases addFriend_cases .fine before uid friendUid with h | h
      · exact (Prod.mk.inj (h.symm.trans hanswers)).2.symm
      · cases (Prod.mk.inj (h.symm.trans hanswers)).1
  · rintro later uid friends earlier rfl
    obtain ⟨before, after, hbefore, hanswers⟩ := called_at hcalled
    obtain rfl : getFriendList .fine uid before = friends := congrArg Prod.fst hanswers
    exact ⟨nodup_getFriendList uid, mem_getFriendList_iff hbefore uid⟩
  · rw [mem_getFriendList_iff hcalled, mem_getFriendList_iff hcalled]
    exact ⟨.symm, .symm⟩
  · exact (((mem_getFriendList_iff hcalled uid uid).mp hself).spec hcalled).2 rfl

/-- Ann and bob register, and bob adds ann. -/
def friendOps : List DbOp :=
  [.addFriend 2 1, .registerUser (ascii "bob") (ascii "secret"),
    .registerUser (ascii "ann") (ascii "secret")]

theorem friend_graph_ann :
    (⟨.addFriend 2 1, true⟩ : DbCall) ∈ (runCalls reference .empty friendOps).1 := by
  have hlist := (friend_graph (called_runCalls reference .empty (.getFriendList 1 :: friendOps))).2.2.1
    [] 1 _ _ rfl
  have hfriends : Befriended (runCalls reference .empty friendOps).1 1 2 :=
    (hlist.2 2).mp (by decide +kernel)
  apply hfriends.resolve_left
  intro hmem
  have hop := mem_of_mem_runCalls hmem
  simp only [friendOps, List.mem_cons, List.not_mem_nil, or_false] at hop
  rcases hop with hop | hop | hop <;> cases hop

end CoroutineServer
