import Mathlib.Logic.Function.Basic
import CoroutineServer.Library.Program

/-!
# The service in its own terms

What the server is for, without threads, connections and tables: accounts under names, friendships, and a
mailbox for each user. Names, secrets and texts are of any types. A request may be turned down at any time,
and then it changes nothing.
-/

namespace CoroutineServer

open Program

namespace Service

/-- A message in a mailbox. -/
structure Letter (Text : Type) where
  id : Int
  sender : Int
  text : Text

end Service

structure Service (Name Secret Text : Type) where
  account : Name → Option (Int × Secret)
  friends : Int → Int → Prop
  mailbox : Int → List (Service.Letter Text)
  lastUser : Int
  lastLetter : Int

namespace Service

variable {Name Secret Text : Type}

inductive Request (Name Secret Text : Type) where
  | register (name : Name) (secret : Secret)
  | signIn (name : Name) (secret : Secret)
  | befriend (user friend : Int)
  | listFriends (user : Int)
  | post (sender recipient : Int) (text : Text)
  | collect (user : Int)

abbrev Reply : Request Name Secret Text → Type
  | .register _ _ => Bool
  | .signIn _ _ => Option Int
  | .befriend _ _ => Bool
  | .listFriends _ => List Int
  | .post _ _ _ => Option Int
  | .collect _ => List (Letter Text)

abbrev Requests (Name Secret Text : Type) := Trace (Request Name Secret Text) Reply

def empty : Service Name Secret Text where
  account := fun _ => none
  friends := fun _ _ => False
  mailbox := fun _ => []
  lastUser := 0
  lastLetter := 0

def Registered (service : Service Name Secret Text) (user : Int) : Prop :=
  ∃ name secret, service.account name = some (user, secret)

/-- A friendship is entered in one direction and holds in both. -/
def join (service : Service Name Secret Text) (user friend : Int) : Service Name Secret Text :=
  { service with friends := fun one other => service.friends one other ∨
      one = user ∧ other = friend ∨ one = friend ∧ other = user }

def clear (service : Service Name Secret Text) (user : Int) : Service Name Secret Text :=
  { service with mailbox := Function.update service.mailbox user [] }

def deliver (service : Service Name Secret Text) (sender recipient : Int) (text : Text) :
    Service Name Secret Text :=
  { service with
    mailbox := Function.update service.mailbox recipient
      (service.mailbox recipient ++ [⟨service.lastLetter + 1, sender, text⟩])
    lastLetter := service.lastLetter + 1 }

variable [DecidableEq Name]

def enroll (service : Service Name Secret Text) (name : Name) (secret : Secret) :
    Service Name Secret Text :=
  { service with
    account := Function.update service.account name (some (service.lastUser + 1, secret))
    lastUser := service.lastUser + 1 }

/-- **What the service may reply to a request, and what it becomes.** -/
def Acts : (request : Request Name Secret Text) → Service Name Secret Text → Reply request →
    Service Name Secret Text → Prop
  | .register name secret, before, accepted, after =>
      if accepted then before.account name = none ∧ after = before.enroll name secret
      else after = before
  | .signIn name secret, before, found, after =>
      after = before ∧ ∀ user, found = some user → before.account name = some (user, secret)
  | .befriend user friend, before, accepted, after =>
      if accepted then user ≠ friend ∧ before.Registered user ∧ before.Registered friend ∧
        after = before.join user friend
      else after = before
  | .listFriends user, before, listed, after =>
      after = before ∧ ∀ friend ∈ listed, before.friends user friend
  | .post sender recipient text, before, posted, after => match posted with
      | some id => id = before.lastLetter + 1 ∧ after = before.deliver sender recipient text
      | none => after = before
  | .collect user, before, handed, after =>
      handed <+: before.mailbox user ∧ (after = before ∨ handed ≠ [] ∧ after = before.clear user)

/-- The service after a sequence of requests, with the replies they got, newest first. -/
abbrev Served (trace : Requests Name Secret Text) (service : Service Name Secret Text) : Prop :=
  Performed Acts empty trace service

end Service

end CoroutineServer
