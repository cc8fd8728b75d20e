import Xraytool.Lib.Versions
import Xraytool.Spec.Accounts

/-! The calls that give an account its identities, statement by statement under READ COMMITTED. A registration holds the
mutex of the service, a link does not. The statements on other tables (the new subscription, the checks of a link, the
data of a deleted user) only fail or not. -/

namespace Xraytool.Identity

open ReadCommitted

def foundBy (platform id : String) (u : User) : Bool := (Store.onPlatform platform id).any fun cond => cond u

/-- A row as a lookup returns it: the metadata is decoded from JSON. -/
def decoded (u : User) : User := { u with metadata := Json.readBackFields u.metadata }

inductive Registration where
  | telegram (userID : String) (telegramID : Int64) (username telegramUsername : String)
  | web (userID email : String)
  deriving DecidableEq

namespace Registration

def platform : Registration → String
  | .telegram _ _ _ _ => "telegram"
  | .web _ _ => "web"

def id : Registration → String
  | .telegram _ telegramID _ _ => toString telegramID.toInt
  | .web _ email => email

/-- The row that is created. -/
def user : Registration → User
  | .telegram userID telegramID username telegramUsername =>
    { id := userID, username := username
      metadata := [("telegram_id", .num (.int telegramID.toInt)), ("telegram_username", .str telegramUsername),
        ("source", .str "telegram_bot")] }
  | .web userID email =>
    { id := userID, username := email, metadata := [("email", .str email), ("source", .str "website")] }

end Registration

/-- The statement a call issues next, with the local variables that are still used. -/
inductive Point where
  | idle
  -- `RegisterTelegramUser` and `FindOrCreateWebUser`
  | lock (r : Registration)
  | find (r : Registration)
  | create (r : Registration)
  | createSubscription (r : Registration)
  | commitCreate (r : Registration)
  | findAgain
  | unlock
  -- `LinkTelegramAccount`
  | findWebUser (webUserID tgUserID : String)
  | findTgUser (webUser : User) (tgUserID : String)
  | requireBareTg (webUser tgUser : User)
  | updateWebUser (linked : User) (tgUserID : String)
  | deleteTgUser (tgUserID : String)
  -- `LinkEmailAccount`
  | findLinked (tgUserID email : String)
  | findByEmail (tgUser : User) (email : String)
  | requireBareWeb (linked : User) (webUserID : String)
  | deleteWebUser (linked : User) (webUserID : String)
  | updateTgUser (linked : User)
  | commitLink
  deriving DecidableEq

structure Scene where
  users : Versions Nat String User
  /-- who holds the mutex of the service -/
  mutex : Option Nat := none
  /-- the links in progress -/
  links : List Nat := []
  calls : Nat → Point := fun _ => .idle

namespace Scene

variable (st : Scene)

def goTo (i : Nat) (point : Point) : Scene := { st with calls := Function.update st.calls i point }

def leave (i : Nat) : Scene :=
  { st with
    mutex := st.mutex.filter (· ≠ i)
    links := st.links.filter (· ≠ i)
    calls := Function.update st.calls i .idle }

def commit (st : Scene) (i : Nat) : Scene := { st with users := st.users.commit i }

def rollback (st : Scene) (i : Nat) : Scene := { st with users := st.users.rollback i }

/-- The error ends the link; its transaction is rolled back. -/
def abort (i : Nat) : Scene := (st.rollback i).leave i

/-- `FindByPlatformID`: one of the rows, in no order. -/
def findByPlatformID (i : Nat) (platform id : String) (pick : Nat) : Option User :=
  let rows := st.users.select i (foundBy platform id)
  (rows[pick % rows.length]?).map decoded

/-- `Update`, which is GORM's `Save`: the row is inserted if it is not there. -/
def update (i : Nat) (user : User) (next : Point) : Option Scene :=
  (st.users.write i user.id (some user)).map fun users => { st with users := users }.goTo i next

/-- What `DeleteUserAndData` does to the table of users. -/
def deleteUserAndData (i : Nat) (userID : String) (next : Point) : Option Scene :=
  match st.users.get i userID with
  | none => some (st.goTo i next)
  | some _ => (st.users.write i userID none).map fun users => { st with users := users }.goTo i next

/-- The INSERT fails if the id is in use. -/
def create (i : Nat) (r : Registration) : Option Scene :=
  (st.users.write i r.user.id (some r.user)).map fun users =>
    if (st.users.get i r.user.id).isSome then (st.rollback i).goTo i .findAgain
    else { st with users := users }.goTo i (.createSubscription r)

/-- The next statement of a call; `pick` says which row a lookup finds. -/
def issue (i pick : Nat) (st : Scene) : Point → Option Scene
  | .idle => none
  | .lock r => if st.mutex = none then some ({ st with mutex := some i }.goTo i (.find r)) else none
  | .find r => match st.findByPlatformID i r.platform r.id pick with
    | some _ => some (st.goTo i .unlock)
    | none => some (st.goTo i (.create r))
  | .create r => st.create i r
  | .createSubscription r => some (st.goTo i (.commitCreate r))
  | .commitCreate _ => some ((st.commit i).goTo i .unlock)
  -- what is found decides what the call returns, nothing else
  | .findAgain => some (st.goTo i .unlock)
  | .unlock => some (st.leave i)
  | .findWebUser webUserID tgUserID => match st.users.get i webUserID with
    | none => some (st.abort i)
    | some row => some (st.goTo i (.findTgUser (decoded row) tgUserID))
  | .findTgUser webUser tgUserID => match (st.users.get i tgUserID).map decoded with
    | none => some (st.abort i)
    | some tgUser =>
      if webUser.id = tgUser.id ∨ Assoc.has webUser.metadata "telegram_id" ∨ Assoc.has tgUser.metadata "email" ∨
          tgUser.balance ≠ 0 then some (st.abort i)
      else some (st.goTo i (.requireBareTg webUser tgUser))
  -- the checks on other tables have passed
  | .requireBareTg webUser tgUser => match takeTelegram tgUser webUser with
    | .error _ => some (st.abort i)
    | .ok linked => some (st.goTo i (.updateWebUser linked tgUser.id))
  | .updateWebUser linked tgUserID => st.update i linked (.deleteTgUser tgUserID)
  | .deleteTgUser tgUserID => st.deleteUserAndData i tgUserID .commitLink
  | .findLinked tgUserID email => match (st.users.get i tgUserID).map decoded with
    | none => some (st.abort i)
    | some tgUser =>
      if getMetadataString tgUser.metadata "email" ≠ "" then some (st.abort i)
      else some (st.goTo i (.findByEmail tgUser email))
  | .findByEmail tgUser email =>
    let linked := tgUser.putEmail email
    match st.findByPlatformID i "web" email pick with
    | none => some (st.goTo i (.updateTgUser linked))
    | some webUser =>
      if webUser.id = tgUser.id ∨ Assoc.has webUser.metadata "telegram_id" ∨ webUser.balance ≠ 0 then some (st.abort i)
      else some (st.goTo i (.requireBareWeb linked webUser.id))
  | .requireBareWeb linked webUserID => some (st.goTo i (.deleteWebUser linked webUserID))
  | .deleteWebUser linked webUserID => st.deleteUserAndData i webUserID (.updateTgUser linked)
  | .updateTgUser linked => st.update i linked .commitLink
  | .commitLink => some ((st.commit i).leave i)

def fail (i : Nat) (st : Scene) : Point → Option Scene
  | .idle | .lock _ | .unlock => none
  -- any error of the lookup is taken for an account that is not there
  | .find r => some (st.goTo i (.create r))
  | .create _ | .createSubscription _ | .commitCreate _ => some ((st.rollback i).goTo i .findAgain)
  | .findAgain => some (st.goTo i .unlock)
  | _ => some (st.abort i)

end Scene

inductive Action where
  | registerTelegramUser (userID : String) (telegramID : Int64) (username telegramUsername : String)
  | findOrCreateWebUser (userID email : String)
  | linkTelegramAccount (webUserID tgUserID : String)
  | linkEmailAccount (tgUserID email : String)
  | statement (pick : Nat)
  | failure
  deriving DecidableEq

def Scene.link (st : Scene) (i : Nat) (point : Point) : Scene := { st with links := i :: st.links }.goTo i point

def identityStep (st : Scene) (l : Nat × Action) : Option Scene :=
  let (i, action) := l
  match action with
  | .registerTelegramUser userID telegramID username telegramUsername =>
    if st.calls i = .idle then some (st.goTo i (.lock (.telegram userID telegramID username telegramUsername)))
    else none
  | .findOrCreateWebUser userID email =>
    if st.calls i = .idle then some (st.goTo i (.lock (.web userID email))) else none
  | .linkTelegramAccount webUserID tgUserID =>
    if st.calls i = .idle then some (st.link i (.findWebUser webUserID tgUserID)) else none
  | .linkEmailAccount tgUserID email =>
    if st.calls i = .idle then some (st.link i (.findLinked tgUserID email)) else none
  | .statement pick => st.issue i pick (st.calls i)
  | .failure => st.fail i (st.calls i)

end Xraytool.Identity
