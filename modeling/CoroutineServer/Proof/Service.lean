import CoroutineServer.Service

/-!
# What the service keeps

The laws of accounts, friendships and mailboxes that every request keeps, and where the service has what it
replies with from: each name it lets in, each friend it lists and each letter it hands out goes back to an
earlier request.
-/

namespace CoroutineServer

open Program

namespace Service

variable {Name Secret Text : Type} {service : Service Name Secret Text}

/-! ### Laws -/

structure Sound (service : Service Name Secret Text) : Prop where
  lastUser_nonneg : 0 ≤ service.lastUser
  lastLetter_nonneg : 0 ≤ service.lastLetter
  user_le : ∀ name user secret, service.account name = some (user, secret) →
    0 < user ∧ user ≤ service.lastUser
  one_name : ∀ name other user secret secret', service.account name = some (user, secret) →
    service.account other = some (user, secret') → name = other
  symm : ∀ user friend, service.friends user friend → service.friends friend user
  irrefl : ∀ user, ¬service.friends user user
  registered : ∀ user friend, service.friends user friend → service.Registered user
  ascending : ∀ user, (service.mailbox user).Pairwise fun letter later => letter.id < later.id
  letter_le : ∀ user, ∀ letter ∈ service.mailbox user, 0 < letter.id ∧ letter.id ≤ service.lastLetter
  one_mailbox : ∀ user other, ∀ letter ∈ service.mailbox user, ∀ letter' ∈ service.mailbox other,
    letter.id = letter'.id → user = other

namespace Sound

theorem empty : (Service.empty : Service Name Secret Text).Sound where
  lastUser_nonneg := Int.le_refl 0
  lastLetter_nonneg := Int.le_refl 0
  user_le := fun _ _ _ h => by cases h
  one_name := fun _ _ _ _ _ h => by cases h
  symm := fun _ _ h => h.elim
  irrefl := fun _ h => h.elim
  registered := fun _ _ h => h.elim
  ascending := fun _ => .nil
  letter_le := fun _ _ h => by cases h
  one_mailbox := fun _ _ _ h => by cases h

theorem join (h : service.Sound) {user friend : Int} (hne : user ≠ friend)
    (huser : service.Registered user) (hfriend : service.Registered friend) :
    (service.join user friend).Sound := by
  refine { h with symm := ?_, irrefl := ?_, registered := ?_ }
  · rintro one other (hold | ⟨rfl, rfl⟩ | ⟨rfl, rfl⟩)
    · exact .inl (h.symm _ _ hold)
    · exact .inr (.inr ⟨rfl, rfl⟩)
    · exact .inr (.inl ⟨rfl, rfl⟩)
  · rintro one (hold | ⟨rfl, hsame⟩ | ⟨rfl, hsame⟩)
    · exact h.irrefl _ hold
    · exact hne hsame
    · exact hne hsame.symm
  · rintro one other (hold | ⟨rfl, -⟩ | ⟨rfl, -⟩)
    · exact h.registered _ _ hold
    · exact huser
    · exact hfriend

theorem mem_clear {user other : Int} {letter : Letter Text}
    (h : letter ∈ (service.clear user).mailbox other) : letter ∈ service.mailbox other := by
  unfold Service.clear at h
  dsimp only at h
  rw [Function.update_apply] at h
  split_ifs at h
  · cases h
  · exact h

theorem clear (h : service.Sound) (user : Int) : (service.clear user).Sound := by
  refine { h with ascending := fun other => ?_, letter_le := ?_, one_mailbox := ?_ }
  · unfold Service.clear
    dsimp only
    rw [Function.update_apply]
    split_ifs
    · exact .nil
    · exact h.ascending other
  · exact fun other letter hletter => h.letter_le other letter (mem_clear hletter)
  · exact fun one other letter hletter letter' hletter' =>
      h.one_mailbox one other letter (mem_clear hletter) letter' (mem_clear hletter')

theorem mem_deliver {sender recipient other : Int} {text : Text} {letter : Letter Text}
    (h : letter ∈ (service.deliver sender recipient text).mailbox other) :
    letter ∈ service.mailbox other ∨
      other = recipient ∧ letter = ⟨service.lastLetter + 1, sender, text⟩ := by
  unfold Service.deliver at h
  dsimp only at h
  rw [Function.update_apply] at h
  split_ifs at h with hsame
  · subst hsame
    exact (List.mem_append.mp h).imp_right fun hnew => ⟨rfl, List.mem_singleton.mp hnew⟩
  · exact .inl h

theorem deliver (h : service.Sound) (sender recipient : Int) (text : Text) :
    (service.deliver sender recipient text).Sound := by
  have hnonneg := h.lastLetter_nonneg
  have hold : ∀ user, ∀ letter ∈ service.mailbox user, letter.id < service.lastLetter + 1 :=
    fun user letter hletter => Int.lt_add_one_of_le (h.letter_le user letter hletter).2
  refine { h with lastLetter_nonneg := ?_, ascending := ?_, letter_le := ?_, one_mailbox := ?_ }
  · exact Int.le_trans hnonneg (Int.le_of_lt (Int.lt_add_one_of_le (Int.le_refl _)))
  · intro user
    unfold Service.deliver
    dsimp only
    rw [Function.update_apply]
    split_ifs
    · refine List.pairwise_append.mpr ⟨h.ascending _, List.pairwise_singleton _ _, ?_⟩
      intro letter hletter later hlater
      obtain rfl := List.mem_singleton.mp hlater
      exact hold _ letter hletter
    · exact h.ascending user
  · intro user letter hletter
    rcases mem_deliver hletter with hbefore | ⟨rfl, rfl⟩
    · exact ⟨(h.letter_le user letter hbefore).1, Int.le_of_lt (hold user letter hbefore)⟩
    · exact ⟨Int.lt_add_one_of_le hnonneg, Int.le_refl _⟩
  · intro one other letter hletter letter' hletter' hid
    rcases mem_deliver hletter with hbefore | ⟨rfl, rfl⟩
    · rcases mem_deliver hletter' with hbefore' | ⟨rfl, rfl⟩
      · exact h.one_mailbox _ _ _ hbefore _ hbefore' hid
      · exact absurd hid (Int.ne_of_lt (hold _ _ hbefore))
    · rcases mem_deliver hletter' with hbefore' | ⟨rfl, rfl⟩
      · exact absurd hid.symm (Int.ne_of_lt (hold _ _ hbefore'))
      · rfl

section Names

variable [DecidableEq Name]

theorem account_enroll {name other : Name} {secret : Secret} {account : Int × Secret}
    (h : (service.enroll name secret).account other = some account) :
    other = name ∧ account = (service.lastUser + 1, secret) ∨ service.account other = some account := by
  unfold Service.enroll at h
  dsimp only at h
  rw [Function.update_apply] at h
  split_ifs at h with hsame
  · exact .inl ⟨hsame, (Option.some.inj h).symm⟩
  · exact .inr h

theorem registered_enroll {name : Name} {secret : Secret} (hfree : service.account name = none)
    {user : Int} (h : service.Registered user) : (service.enroll name secret).Registered user := by
  obtain ⟨other, secret', haccount⟩ := h
  refine ⟨other, secret', ?_⟩
  unfold Service.enroll
  dsimp only
  rw [Function.update_of_ne, haccount]
  rintro rfl
  rw [haccount] at hfree
  cases hfree

theorem enroll (h : service.Sound) {name : Name} (hfree : service.account name = none)
    (secret : Secret) : (service.enroll name secret).Sound := by
  have hnonneg := h.lastUser_nonneg
  have hold : ∀ {name user secret}, service.account name = some (user, secret) →
      user ≠ service.lastUser + 1 := fun haccount =>
    Int.ne_of_lt (Int.lt_add_one_of_le (h.user_le _ _ _ haccount).2)
  refine { h with lastUser_nonneg := ?_, user_le := ?_, one_name := ?_, registered := ?_ }
  · exact Int.le_trans hnonneg (Int.le_of_lt (Int.lt_add_one_of_le (Int.le_refl _)))
  · intro other user secret' haccount
    rcases account_enroll haccount with ⟨-, heq⟩ | hbefore
    · obtain ⟨rfl, -⟩ := Prod.mk.inj heq
      exact ⟨Int.lt_add_one_of_le hnonneg, Int.le_refl _⟩
    · have hle := h.user_le _ _ _ hbefore
      exact ⟨hle.1, Int.le_trans hle.2 (Int.le_of_lt (Int.lt_add_one_of_le (Int.le_refl _)))⟩
  · intro one other user secret₁ secret₂ hone hother
    rcases account_enroll hone with ⟨rfl, heq⟩ | hbefore
    · rcases account_enroll hother with ⟨rfl, -⟩ | hbefore'
      · rfl
      · exact absurd (Prod.mk.inj heq).1 (hold hbefore')
    · rcases account_enroll hother with ⟨rfl, heq⟩ | hbefore'
      · exact absurd (Prod.mk.inj heq).1 (hold hbefore)
      · exact h.one_name _ _ _ _ _ hbefore hbefore'
  · exact fun user friend hfriends => registered_enroll hfree (h.registered user friend hfriends)

theorem acts (h : service.Sound) {request : Request Name Secret Text} {reply : Reply request}
    {after : Service Name Secret Text} (hacts : Acts request service reply after) : after.Sound := by
  cases request with
  | register name secret =>
    cases reply with
    | true =>
      obtain ⟨hfree, rfl⟩ := hacts
      exact h.enroll hfree secret
    | false =>
      obtain rfl : after = service := hacts
      exact h
  | signIn name secret =>
    obtain ⟨rfl, -⟩ := hacts
    exact h
  | befriend user friend =>
    cases reply with
    | true =>
      obtain ⟨hne, huser, hfriend, rfl⟩ := hacts
      exact h.join hne huser hfriend
    | false =>
      obtain rfl : after = service := hacts
      exact h
  | listFriends user =>
    obtain ⟨rfl, -⟩ := hacts
    exact h
  | post sender recipient text =>
    cases reply with
    | some id =>
      obtain ⟨-, rfl⟩ := hacts
      exact h.deliver sender recipient text
    | none =>
      obtain rfl : after = service := hacts
      exact h
  | collect user =>
    obtain ⟨-, rfl | ⟨-, rfl⟩⟩ := hacts
    · exact h
    · exact h.clear user

end Names

end Sound

theorem sound_of_served [DecidableEq Name] {trace : Requests Name Secret Text}
    (hserved : Served trace service) : service.Sound :=
  hserved.chain (R := fun before after => before.Sound → after.Sound) (fun _ h => h)
    (fun _ _ _ hfirst hsecond h => hsecond (hfirst h)) (fun _ _ _ _ hacts h => h.acts hacts) .empty

/-! ### Where the replies come from -/

section History

variable {trace : Requests Name Secret Text}

/-- One of the two has been entered as a friend of the other. -/
def Joined (trace : Requests Name Secret Text) (user friend : Int) : Prop :=
  ⟨.befriend user friend, true⟩ ∈ trace ∨ ⟨.befriend friend user, true⟩ ∈ trace

/-- What the reply to a request goes back to; an id of a letter is a new one. -/
def Backed (earlier : Requests Name Secret Text) : Call (Request Name Secret Text) Reply → Prop
  | ⟨.signIn name secret, some (_ : Int)⟩ => ⟨.register name secret, true⟩ ∈ earlier
  | ⟨.listFriends user, (listed : List Int)⟩ => ∀ friend ∈ listed, Joined earlier user friend
  | ⟨.post _ _ _, some (id : Int)⟩ => ∀ sender recipient text other,
      ⟨.post sender recipient text, some other⟩ ∈ earlier → other < id
  | ⟨.collect user, (handed : List (Letter Text))⟩ => ∀ letter ∈ handed,
      ⟨.post letter.sender user letter.text, some letter.id⟩ ∈ earlier
  | _ => True

/-- Everything in the service goes back to a request. -/
structure Accounted (trace : Requests Name Secret Text) (service : Service Name Secret Text) : Prop where
  account : ∀ name user secret, service.account name = some (user, secret) →
    ⟨.register name secret, true⟩ ∈ trace
  friends : ∀ user friend, service.friends user friend → Joined trace user friend
  mailbox : ∀ user, ∀ letter ∈ service.mailbox user,
    ⟨.post letter.sender user letter.text, some letter.id⟩ ∈ trace
  posted : ∀ sender recipient text id, ⟨.post sender recipient text, some id⟩ ∈ trace →
    id ≤ service.lastLetter

theorem Joined.cons {user friend : Int} (call : Call (Request Name Secret Text) Reply)
    (h : Joined trace user friend) : Joined (call :: trace) user friend :=
  h.imp (List.mem_cons_of_mem _) (List.mem_cons_of_mem _)

namespace Accounted

/-- A request that is turned down, or only reads. -/
theorem skip (h : Accounted trace service) (call : Call (Request Name Secret Text) Reply)
    (hpost : ∀ sender recipient text id, call ≠ ⟨.post sender recipient text, some id⟩) :
    Accounted (call :: trace) service where
  account := fun name user secret haccount => List.mem_cons_of_mem _ (h.account name user secret haccount)
  friends := fun user friend hfriends => (h.friends user friend hfriends).cons call
  mailbox := fun user letter hletter => List.mem_cons_of_mem _ (h.mailbox user letter hletter)
  posted := fun sender recipient text id hid => by
    rcases List.mem_cons.mp hid with heq | hid
    · exact absurd heq.symm (hpost sender recipient text id)
    · exact h.posted sender recipient text id hid

theorem clear (h : Accounted trace service) (user : Int) : Accounted trace (service.clear user) :=
  { h with mailbox := fun other letter hletter => h.mailbox other letter (Sound.mem_clear hletter) }

theorem join (h : Accounted trace service) (user friend : Int) :
    Accounted (⟨.befriend user friend, true⟩ :: trace) (service.join user friend) := by
  refine { (h.skip ⟨.befriend user friend, true⟩ (by simp)) with friends := ?_ }
  rintro one other (hold | ⟨rfl, rfl⟩ | ⟨rfl, rfl⟩)
  · exact (h.friends one other hold).cons _
  · exact .inl List.mem_cons_self
  · exact .inr List.mem_cons_self

theorem deliver (h : Accounted trace service) (sender recipient : Int) (text : Text) :
    Accounted (⟨.post sender recipient text, some (service.lastLetter + 1)⟩ :: trace)
      (service.deliver sender recipient text) where
  account := fun name user secret haccount => List.mem_cons_of_mem _ (h.account name user secret haccount)
  friends := fun user friend hfriends => (h.friends user friend hfriends).cons _
  mailbox := fun user letter hletter => by
    rcases Sound.mem_deliver hletter with hbefore | ⟨rfl, rfl⟩
    · exact List.mem_cons_of_mem _ (h.mailbox user letter hbefore)
    · exact List.mem_cons_self
  posted := fun sender' recipient' text' id hid => by
    rcases List.mem_cons.mp hid with heq | hid
    · cases heq
      exact Int.le_refl _
    · exact Int.le_trans (h.posted sender' recipient' text' id hid)
        (Int.le_of_lt (Int.lt_add_one_of_le (Int.le_refl _)))

variable [DecidableEq Name]

theorem enroll (h : Accounted trace service) (name : Name) (secret : Secret) :
    Accounted (⟨.register name secret, true⟩ :: trace) (service.enroll name secret) := by
  refine { (h.skip ⟨.register name secret, true⟩ (by simp)) with account := ?_ }
  intro other user secret' haccount
  rcases Sound.account_enroll haccount with ⟨rfl, heq⟩ | hbefore
  · obtain ⟨-, rfl⟩ := Prod.mk.inj heq
    exact List.mem_cons_self
  · exact List.mem_cons_of_mem _ (h.account other user secret' hbefore)

theorem acts (h : Accounted trace service) {request : Request Name Secret Text} {reply : Reply request}
    {after : Service Name Secret Text} (hacts : Acts request service reply after) :
    Backed trace ⟨request, reply⟩ ∧ Accounted (⟨request, reply⟩ :: trace) after := by
  cases request with
  | register name secret =>
    refine ⟨trivial, ?_⟩
    cases reply with
    | true =>
      obtain ⟨-, rfl⟩ := hacts
      exact h.enroll name secret
    | false =>
      obtain rfl : after = service := hacts
      exact h.skip _ (by simp)
  | signIn name secret =>
    obtain ⟨rfl, hfound⟩ := hacts
    refine ⟨?_, h.skip _ (by simp)⟩
    cases reply with
    | some user => exact h.account name user secret (hfound user rfl)
    | none => trivial
  | befriend user friend =>
    refine ⟨trivial, ?_⟩
    cases reply with
    | true =>
      obtain ⟨-, -, -, rfl⟩ := hacts
      exact h.join user friend
    | false =>
      obtain rfl : after = service := hacts
      exact h.skip _ (by simp)
  | listFriends user =>
    obtain ⟨rfl, hlisted⟩ := hacts
    exact ⟨fun friend hfriend => h.friends user friend (hlisted friend hfriend), h.skip _ (by simp)⟩
  | post sender recipient text =>
    cases reply with
    | some id =>
      obtain ⟨rfl, rfl⟩ := hacts
      exact ⟨fun sender recipient text other hother =>
        Int.lt_add_one_of_le (h.posted sender recipient text other hother), h.deliver sender recipient text⟩
    | none =>
      obtain rfl : after = service := hacts
      exact ⟨trivial, h.skip _ (by simp)⟩
  | collect user =>
    obtain ⟨hinitialPart, hafter⟩ := hacts
    refine ⟨fun letter hletter => h.mailbox user letter (hinitialPart.subset hletter), ?_⟩
    have hskip := h.skip ⟨.collect user, reply⟩ (by simp)
    rcases hafter with rfl | ⟨-, rfl⟩
    · exact hskip
    · exact hskip.clear user

end Accounted

variable [DecidableEq Name]

theorem accounted_of_served (hserved : Served trace service) : Accounted trace service := by
  induction hserved with
  | nil =>
    exact ⟨fun _ _ _ h => (by cases h), fun _ _ h => h.elim, fun _ _ h => (by cases h),
      fun _ _ _ _ h => (by cases h)⟩
  | cons _ hacts ih => exact (ih.acts hacts).2

/-- Every reply of the service goes back to earlier requests. -/
theorem backed_of_served {call : Call (Request Name Secret Text) Reply}
    {later earlier : Requests Name Secret Text} (hserved : Served (later ++ call :: earlier) service) :
    Backed earlier call := by
  obtain ⟨middle, hmiddle, -⟩ := hserved.split
  cases hmiddle with
  | cons hearlier hacts => exact ((accounted_of_served hearlier).acts hacts).1

end History

end Service

end CoroutineServer
