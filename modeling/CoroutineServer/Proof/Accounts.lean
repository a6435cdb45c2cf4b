import Mathlib.Data.List.Nodup
import CoroutineServer.Calls
import CoroutineServer.Scenario

/-!
# Accounts

The users table holds one row for each registration that has succeeded, with consecutive uids. Names are
bound to the SQL statements up to their first NUL, so a name is a faithful key as long as no name that is
used has one; then registrations and logins are decided by the registrations before them.
-/

namespace CoroutineServer

open Program DBManager

variable {platform : Platform} {trace : DbTrace} {db : Db}

/-- A registration in the sequence succeeded, and inserted the row with this uid. -/
def CreatedBy (platform : Platform) (trace : DbTrace) (username password : Bytes) (uid : Int) : Prop :=
  ∃ later earlier db, trace = later ++ ⟨.registerUser username password, true⟩ :: earlier ∧
    Called platform .empty earlier db ∧ uid = db.lastUid + 1

/-! ### The users table -/

theorem users_of_answers {op : DbOp} {result : op.Ret} {db db' : Db}
    (hanswers : Answers platform op db result db') :
    (∃ username password, (⟨op, result⟩ : DbCall) = ⟨.registerUser username password, true⟩ ∧
      db'.users = db.users ++ [⟨db.lastUid + 1, cstr username, simpleHash platform password⟩] ∧
      db'.lastUid = db.lastUid + 1) ∨
    (∀ username password, (⟨op, result⟩ : DbCall) ≠ ⟨.registerUser username password, true⟩) ∧
      db'.users = db.users ∧ db'.lastUid = db.lastUid := by
  have hother : (∀ username password, op ≠ .registerUser username password) →
      ((op.perform platform db).2.users, (op.perform platform db).2.lastUid) = (db.users, db.lastUid) →
      (∀ username password, (⟨op, result⟩ : DbCall) ≠ ⟨.registerUser username password, true⟩) ∧
        db'.users = db.users ∧ db'.lastUid = db.lastUid := fun hop hkept =>
    ⟨fun username password heq => hop username password (Sigma.mk.inj heq).1,
      Prod.mk.inj (kept_of_answers (fun db => (db.users, db.lastUid)) hanswers hkept)⟩
  have hmessages := @kept_by_perform platform _ (fun db => (db.users, db.lastUid)) (fun _ _ _ => rfl) op db
  cases op with
  | registerUser username password =>
    rcases registerUser_cases platform .fine db username password with h | h
    · obtain ⟨rfl, rfl⟩ := Prod.mk.inj (h.symm.trans hanswers)
      exact .inr ⟨fun _ _ heq => (by cases heq), rfl, rfl⟩
    · obtain ⟨rfl, rfl⟩ := Prod.mk.inj (h.symm.trans hanswers)
      exact .inl ⟨username, password, rfl, rfl, rfl⟩
  | addFriend uid friendUid =>
    apply Or.inr (hother (by simp) _)
    rw [DbOp.perform]
    rcases addFriend_cases .fine db uid friendUid with h | h <;> rw [h]
  | saveMessage | getOfflineMessages | loginUser | getFriendList =>
    exact .inr (hother (by simp) (hmessages (by simp) (by simp)))

/-! ### Keys -/

/-- The keys of the users table: uids ascend and are at most the last one given out, and no name occurs
twice. -/
structure Keyed (db : Db) : Prop where
  lastUid_nonneg : 0 ≤ db.lastUid
  uid_pos : ∀ row ∈ db.users, 0 < row.uid
  uid_le : ∀ row ∈ db.users, row.uid ≤ db.lastUid
  ascending : db.users.Pairwise fun row later => row.uid < later.uid
  usernames : (db.users.map UserRow.username).Nodup

namespace Keyed

theorem empty : Keyed .empty :=
  ⟨Int.le_refl 0, fun _ h => (by cases h), fun _ h => (by cases h), .nil, .nil⟩

theorem congr {db' : Db} (h : Keyed db) (husers : db'.users = db.users)
    (hlast : db'.lastUid = db.lastUid) : Keyed db' := by
  refine ⟨?_, ?_, ?_, ?_, ?_⟩
  · rw [hlast]
    exact h.lastUid_nonneg
  · rw [husers]
    exact h.uid_pos
  · rw [husers, hlast]
    exact h.uid_le
  · rw [husers]
    exact h.ascending
  · rw [husers]
    exact h.usernames

theorem insert {db' : Db} {username passwordHash : Bytes} (h : Keyed db)
    (hnew : username ∉ db.users.map UserRow.username)
    (husers : db'.users = db.users ++ [⟨db.lastUid + 1, username, passwordHash⟩])
    (hlast : db'.lastUid = db.lastUid + 1) : Keyed db' := by
  have hnonneg := h.lastUid_nonneg
  refine ⟨by omega, ?_, ?_, ?_, ?_⟩
  · rw [husers]
    intro row hrow
    rcases List.mem_append.mp hrow with hrow | hrow
    · exact h.uid_pos row hrow
    · obtain rfl := List.mem_singleton.mp hrow
      exact Int.lt_add_one_of_le hnonneg
  · rw [husers, hlast]
    intro row hrow
    rcases List.mem_append.mp hrow with hrow | hrow
    · exact Int.le_trans (h.uid_le row hrow) (by omega)
    · obtain rfl := List.mem_singleton.mp hrow
      exact Int.le_refl _
  · rw [husers]
    refine List.pairwise_append.mpr ⟨h.ascending, List.pairwise_singleton _ _, ?_⟩
    intro row hrow later hlater
    obtain rfl := List.mem_singleton.mp hlater
    exact Int.lt_add_one_of_le (h.uid_le row hrow)
  · rw [husers, List.map_append]
    refine List.nodup_append.mpr ⟨h.usernames, by simp, ?_⟩
    rintro name hname other hother rfl
    obtain rfl := List.mem_singleton.mp hother
    exact hnew hname

theorem eq_of_uid (h : Keyed db) {row other : UserRow} (hrow : row ∈ db.users)
    (hother : other ∈ db.users) (huid : row.uid = other.uid) : row = other := by
  have hsame : db.users.Pairwise fun row other => row.uid = other.uid → row = other :=
    h.ascending.imp fun hlt heq => absurd heq (Int.ne_of_lt hlt)
  have hflip : db.users.Pairwise (flip fun row other => row.uid = other.uid → row = other) :=
    hsame.imp fun h heq => (h heq.symm).symm
  exact hsame.forall_of_forall_of_flip (fun _ _ _ => rfl) hflip hrow hother huid

theorem eq_of_username (h : Keyed db) {row other : UserRow} (hrow : row ∈ db.users)
    (hother : other ∈ db.users) (hname : row.username = other.username) : row = other :=
  List.inj_on_of_nodup_map h.usernames hrow hother hname

end Keyed

theorem registerUser_eq_true {sqlite : Sqlite} {username password : Bytes}
    (h : (registerUser platform sqlite username password db).1 = true) :
    cstr username ∉ db.users.map UserRow.username := by
  unfold registerUser insertUser at h
  split_ifs at h with _ _ _ _ hinsert
  exact fun hmem => hinsert (.inr hmem)

theorem keyed_of_answers {op : DbOp} {result : op.Ret} {db db' : Db} (h : Keyed db)
    (hanswers : Answers platform op db result db') : Keyed db' := by
  rcases users_of_answers hanswers with ⟨username, password, heq, husers, hlast⟩ | ⟨-, husers, hlast⟩
  · refine h.insert ?_ husers hlast
    obtain ⟨rfl, hresult⟩ := Sigma.mk.inj heq
    obtain rfl := eq_of_heq hresult
    exact registerUser_eq_true (congrArg Prod.fst hanswers)
  · exact h.congr husers hlast

theorem keyed_of_called (hcalled : Called platform .empty trace db) : Keyed db := by
  induction hcalled with
  | nil => exact .empty
  | cons _ hanswers ih => exact keyed_of_answers ih hanswers

/-! ### Registrations and rows -/

theorem users_mono {start : Db} (hcalled : Called platform start trace db) :
    ∀ row ∈ start.users, row ∈ db.users := by
  apply hcalled.chain (R := fun db db' => ∀ row ∈ db.users, row ∈ db'.users)
  · exact fun _ _ h => h
  · exact fun _ _ _ h h' row hrow => h' row (h row hrow)
  · intro call _ db db' hanswers row hrow
    rcases users_of_answers hanswers with ⟨_, _, -, husers, -⟩ | ⟨-, husers, -⟩
    · rw [husers]
      exact List.mem_append_left _ hrow
    · rwa [husers]

theorem mem_users_of_createdBy {username password : Bytes} {uid : Int}
    (hcalled : Called platform .empty trace db)
    (hcreated : CreatedBy platform trace username password uid) :
    ⟨uid, cstr username, simpleHash platform password⟩ ∈ db.users := by
  obtain ⟨later, earlier, before, rfl, hbefore, rfl⟩ := hcreated
  obtain ⟨middle, hmiddle, hlater⟩ := hcalled.split
  apply users_mono hlater _
  cases hmiddle with
  | cons hearlier hanswers =>
    obtain rfl := called_unique hbefore hearlier
    rcases users_of_answers hanswers with ⟨name, word, heq, husers, -⟩ | ⟨hne, -⟩
    · cases heq
      rw [husers]
      exact List.mem_append_right _ List.mem_cons_self
    · exact absurd rfl (hne username password)

theorem createdBy_cons {call : DbCall} {username password : Bytes} {uid : Int}
    (h : CreatedBy platform trace username password uid) :
    CreatedBy platform (call :: trace) username password uid := by
  obtain ⟨later, earlier, before, rfl, hbefore, rfl⟩ := h
  exact ⟨call :: later, earlier, before, rfl, hbefore, rfl⟩

theorem createdBy_of_mem_users {row : UserRow} (hcalled : Called platform .empty trace db)
    (hrow : row ∈ db.users) :
    ∃ username password, CreatedBy platform trace username password row.uid ∧
      row.username = cstr username ∧ row.passwordHash = simpleHash platform password := by
  induction hcalled with
  | nil => cases hrow
  | @cons op result earlier before after hearlier hanswers ih =>
    have hold : row ∈ before.users → ∃ username password,
        CreatedBy platform (⟨op, result⟩ :: earlier) username password row.uid ∧
          row.username = cstr username ∧ row.passwordHash = simpleHash platform password := by
      intro hrow
      obtain ⟨username, password, hcreated, hcolumns⟩ := ih hrow
      exact ⟨username, password, createdBy_cons hcreated, hcolumns⟩
    rcases users_of_answers hanswers with ⟨username, password, heq, husers, -⟩ | ⟨-, husers, -⟩
    · rw [husers] at hrow
      rcases List.mem_append.mp hrow with hrow | hrow
      · exact hold hrow
      · obtain rfl := List.mem_singleton.mp hrow
        exact ⟨username, password, ⟨[], earlier, before, by rw [heq]; rfl, hearlier, rfl⟩, rfl, rfl⟩
    · rw [husers] at hrow
      exact hold hrow

/-! ### The law of the accounts -/

/-- Every name and password in the calls has passed `ValidateCredentials`. -/
def CredentialsValid (trace : DbTrace) : Prop :=
  ∀ call ∈ trace, ∀ username password, call.1.credentials = some (username, password) →
    LogicSystem.validateCredentials username password = true

/-- The condition: no name in the calls has a NUL. -/
def NamesWithoutNul (trace : DbTrace) : Prop :=
  ∀ call ∈ trace, ∀ username password, call.1.credentials = some (username, password) →
    0 ∉ username

theorem validateCredentials_eq_true {username password : Bytes}
    (h : LogicSystem.validateCredentials username password = true) :
    username ≠ [] ∧ password ≠ [] ∧ MIN_USERNAME_LEN ≤ username.length ∧
      username.length ≤ MAX_USERNAME_LEN := by
  unfold LogicSystem.validateCredentials at h
  split_ifs at h with hempty hname hpassword
  rw [not_or] at hempty hname
  exact ⟨hempty.1, hempty.2, Nat.not_lt.mp hname.1, Nat.not_lt.mp hname.2⟩

theorem loginUser_eq_iff {username password : Bytes} {uid : Int} (hkeyed : Keyed db)
    (husername : username ≠ []) (hpassword : password ≠ []) :
    loginUser platform .fine username password db = (true, uid) ↔
      ⟨uid, cstr username, simpleHash platform password⟩ ∈ db.users := by
  rw [loginUser_fine husername hpassword]
  cases hfind : db.users.find? fun user => user.username = cstr username with
  | none =>
    have hnone := List.find?_eq_none.mp hfind
    refine ⟨fun h => (by cases h), fun h => ?_⟩
    exact absurd (decide_eq_true rfl) (hnone _ h)
  | some user =>
    have hmem := List.mem_of_find?_eq_some hfind
    have hname : user.username = cstr username := by simpa using List.find?_some hfind
    dsimp only
    constructor
    · intro h
      split_ifs at h with hhash
      · obtain rfl := (Prod.mk.inj h).2
        rw [hhash, ← hname]
        exact hmem
      · cases h
    · intro h
      obtain rfl := hkeyed.eq_of_username hmem h hname
      rw [if_pos rfl]

theorem registerUser_eq_true_iff {username password : Bytes} (husername : username ≠ [])
    (hpassword : password ≠ []) :
    (registerUser platform .fine username password db).1 = true ↔
      cstr username ∉ db.users.map UserRow.username := by
  rw [registerUser_fine husername hpassword]
  split_ifs with hknown <;> simp [hknown]

theorem createdBy_of_mem {username password : Bytes} (hcalled : Called platform .empty trace db)
    (hmem : (⟨.registerUser username password, true⟩ : DbCall) ∈ trace) :
    ∃ uid, CreatedBy platform trace username password uid := by
  obtain ⟨later, earlier, rfl⟩ := List.append_of_mem hmem
  obtain ⟨before, -, hearlier, -⟩ := called_at hcalled
  exact ⟨_, later, earlier, before, rfl, hearlier, rfl⟩

theorem mem_of_createdBy {username password : Bytes} {uid : Int}
    (h : CreatedBy platform trace username password uid) :
    (⟨.registerUser username password, true⟩ : DbCall) ∈ trace := by
  obtain ⟨later, earlier, before, rfl, -⟩ := h
  exact List.mem_append_right _ List.mem_cons_self

theorem mem_usernames_iff {username : Bytes} (hcalled : Called platform .empty trace db)
    (hnul : NamesWithoutNul trace) (hname : 0 ∉ username) :
    cstr username ∈ db.users.map UserRow.username ↔
      ∃ password, (⟨.registerUser username password, true⟩ : DbCall) ∈ trace := by
  rw [cstr_eq_self hname]
  constructor
  · intro h
    obtain ⟨row, hrow, rfl⟩ := List.mem_map.mp h
    obtain ⟨other, password, hcreated, hcolumn, -⟩ := createdBy_of_mem_users hcalled hrow
    have hmem := mem_of_createdBy hcreated
    rw [hcolumn, cstr_eq_self (hnul _ hmem other password rfl)]
    exact ⟨password, hmem⟩
  · rintro ⟨password, hmem⟩
    obtain ⟨uid, hcreated⟩ := createdBy_of_mem hcalled hmem
    have hrow := mem_users_of_createdBy hcalled hcreated
    rw [cstr_eq_self hname] at hrow
    exact List.mem_map.mpr ⟨_, hrow, rfl⟩

theorem mem_users_iff {username : Bytes} {passwordHash : Bytes} {uid : Int}
    (hcalled : Called platform .empty trace db) (hnul : NamesWithoutNul trace) (hname : 0 ∉ username) :
    ⟨uid, cstr username, passwordHash⟩ ∈ db.users ↔
      ∃ password, CreatedBy platform trace username password uid ∧
        simpleHash platform password = passwordHash := by
  constructor
  · intro hrow
    obtain ⟨other, password, hcreated, hcolumn, hhash⟩ := createdBy_of_mem_users hcalled hrow
    have hother := hnul _ (mem_of_createdBy hcreated) other password rfl
    dsimp only at hcolumn hhash hcreated
    rw [cstr_eq_self hname, cstr_eq_self hother] at hcolumn
    rw [hcolumn]
    exact ⟨password, hcreated, hhash.symm⟩
  · rintro ⟨password, hcreated, rfl⟩
    exact mem_users_of_createdBy hcalled hcreated

/-- **Accounts are keyed by username**, when no name has a NUL. In every sequence of calls from a new
database, a registration succeeds exactly when none before it has used the name, a login returns a uid
exactly when a registration of the name created it with a password of the same hash, different names
have different uids, and the names that are stored are in range. -/
theorem accounts_keyed (hcalled : Called platform .empty trace db) (hvalid : CredentialsValid trace)
    (hnul : NamesWithoutNul trace) :
    (∀ later username password earlier, ∀ ok : Bool,
      trace = later ++ ⟨.registerUser username password, ok⟩ :: earlier →
        (ok = true ↔ ∀ other, (⟨.registerUser username other, true⟩ : DbCall) ∉ earlier)) ∧
    (∀ later username password earlier uid, ∀ result : Bool × Int,
      trace = later ++ ⟨.loginUser username password, result⟩ :: earlier →
        (result = (true, uid) ↔ ∃ other, CreatedBy platform earlier username other uid ∧
          simpleHash platform other = simpleHash platform password)) ∧
    (∀ username password other word uid, CreatedBy platform trace username password uid →
      CreatedBy platform trace other word uid → username = other) ∧
    ∀ row ∈ db.users, MIN_USERNAME_LEN ≤ row.username.length ∧
      row.username.length ≤ MAX_USERNAME_LEN := by
  have hcall : ∀ {later earlier op} {result : op.Ret},
      trace = later ++ (⟨op, result⟩ : DbCall) :: earlier →
      (⟨op, result⟩ : DbCall) ∈ trace ∧ NamesWithoutNul earlier ∧
        ∃ before, Called platform .empty earlier before ∧ result = (op.perform platform before).1 := by
    rintro later earlier op result rfl
    obtain ⟨before, after, hearlier, hanswers⟩ := called_at hcalled
    refine ⟨List.mem_append_right _ List.mem_cons_self, fun call hmem => ?_, before, hearlier,
      (congrArg Prod.fst hanswers).symm⟩
    exact hnul call (List.mem_append_right _ (List.mem_cons_of_mem _ hmem))
  refine ⟨fun later username password earlier ok htrace => ?_,
    fun later username password earlier uid result htrace => ?_,
    fun username password other word uid hcreated hother => ?_, fun row hrow => ?_⟩
  · obtain ⟨hmem, hearlierNul, before, hearlier, rfl⟩ := hcall htrace
    obtain ⟨husername, hpassword, -⟩ :=
      validateCredentials_eq_true (hvalid _ hmem username password rfl)
    rw [DbOp.perform, registerUser_eq_true_iff husername hpassword,
      mem_usernames_iff hearlier hearlierNul (hnul _ hmem username password rfl), not_exists]
  · obtain ⟨hmem, hearlierNul, before, hearlier, rfl⟩ := hcall htrace
    obtain ⟨husername, hpassword, -⟩ :=
      validateCredentials_eq_true (hvalid _ hmem username password rfl)
    rw [DbOp.perform, loginUser_eq_iff (keyed_of_called hearlier) husername hpassword,
      mem_users_iff hearlier hearlierNul (hnul _ hmem username password rfl)]
  · have hrow := mem_users_of_createdBy hcalled hcreated
    have hrow' := mem_users_of_createdBy hcalled hother
    have hname := congrArg UserRow.username ((keyed_of_called hcalled).eq_of_uid hrow hrow' rfl)
    dsimp only at hname
    rwa [cstr_eq_self (hnul _ (mem_of_createdBy hcreated) username password rfl),
      cstr_eq_self (hnul _ (mem_of_createdBy hother) other word rfl)] at hname
  · obtain ⟨username, password, hcreated, hcolumn, -⟩ := createdBy_of_mem_users hcalled hrow
    have hmem := mem_of_createdBy hcreated
    rw [hcolumn, cstr_eq_self (hnul _ hmem username password rfl)]
    exact (validateCredentials_eq_true (hvalid _ hmem username password rfl)).2.2

/-- Ann registers, and another registration for her name fails. -/
def annOps : List DbOp :=
  [.registerUser (ascii "ann") (ascii "other"), .registerUser (ascii "ann") (ascii "secret")]

theorem accounts_keyed_ann : ∃ other,
    CreatedBy reference (runCalls reference .empty annOps).1 (ascii "ann") other 1 ∧
      simpleHash reference other = simpleHash reference (ascii "secret") := by
  have hchecked : ∀ call ∈ (runCalls reference .empty
      (.loginUser (ascii "ann") (ascii "secret") :: annOps)).1, ∀ username password,
        call.1.credentials = some (username, password) →
          LogicSystem.validateCredentials username password = true ∧ 0 ∉ username := by
    intro call hcall username password hcredentials
    have hop := mem_of_mem_runCalls hcall
    simp only [annOps, List.mem_cons, List.not_mem_nil, or_false] at hop
    rcases hop with hop | hop | hop <;>
    · rw [hop] at hcredentials
      cases hcredentials
      decide
  have hvalid : CredentialsValid (runCalls reference .empty
      (.loginUser (ascii "ann") (ascii "secret") :: annOps)).1 :=
    fun call hcall username password h => (hchecked call hcall username password h).1
  have hnul : NamesWithoutNul (runCalls reference .empty
      (.loginUser (ascii "ann") (ascii "secret") :: annOps)).1 :=
    fun call hcall username password h => (hchecked call hcall username password h).2
  exact ((accounts_keyed (called_runCalls _ _ _) hvalid hnul).2.1 [] _ _ _ 1 _ rfl).mp
    (by decide +kernel)

/-- A name that goes on after a NUL. -/
def nulName : Bytes := ascii "ann" ++ [0] ++ ascii "x"

/-- Without the condition, a name that was never registered is accepted. -/
theorem accounts_collapsed :
    ¬∀ trace db, Called reference .empty trace db → CredentialsValid trace →
      ∀ later username password earlier uid, ∀ result : Bool × Int,
        trace = later ++ ⟨.loginUser username password, result⟩ :: earlier →
          (result = (true, uid) ↔ ∃ other, CreatedBy reference earlier username other uid ∧
            simpleHash reference other = simpleHash reference password) := by
  intro h
  have hvalid : CredentialsValid (runCalls reference .empty
      [.loginUser nulName (ascii "secret"), .registerUser (ascii "ann") (ascii "secret")]).1 := by
    intro call hcall username password hcredentials
    have hop := mem_of_mem_runCalls hcall
    simp only [List.mem_cons, List.not_mem_nil, or_false] at hop
    rcases hop with hop | hop <;>
    · rw [hop] at hcredentials
      cases hcredentials
      decide
  obtain ⟨other, hcreated, -⟩ :=
    (h _ _ (called_runCalls _ _ _) hvalid [] _ _ _ 1 _ rfl).mp (by decide +kernel)
  have hmem := mem_of_mem_runCalls (mem_of_createdBy hcreated)
  exact absurd (DbOp.registerUser.inj (List.mem_singleton.mp hmem)).1 (by decide)

end CoroutineServer
