import Xraytool.Spec.Payments
import Xraytool.Spec.UserManagement
import Xraytool.Spec.Workers

/-! Runs of the server: API requests, payment completions, worker passes and starts in any order, each one step. Beside
the store the state keeps, for every email a step added to the engine, whether the owner of its subscription was
globally blocked then. -/

namespace Xraytool

inductive PanelLabel where
  | autoRenew (env : ApiEnv) (platform id : String) (body : AutoRenewBody)
  | deleteDevice (env : ApiEnv) (platform id : String) (deviceID : Option Int)
  | blockUser (env : ApiEnv) (email : String)
  | unblockUser (env : ApiEnv) (email : String) (limit : Option Int)
  | setExpire (env : ApiEnv) (email expire : String)
  | globalBan (env : ApiEnv) (platform id : String)
  | globalUnban (env : ApiEnv) (platform id : String)
  | updatePaymentStatus (env : PaidEnv) (paymentID : Int) (status : String) (expectedStatuses : List String)
  | paymentCallback (env : PaidEnv) (externalID status : String)
  | expiryPass (env : ExpiryEnv)
  | antifraudPass (env : CleanerEnv)
  | start (env : SyncEnv)

def PanelLabel.handle : PanelLabel → Store → Handled
  | .autoRenew env platform id body => handleAutoRenew env platform id body
  | .deleteDevice env platform id deviceID => handleDeleteDevice env platform id deviceID
  | .blockUser env email => handleAdminBlockUser env email
  | .unblockUser env email limit => handleAdminUnblockUser env email limit
  | .setExpire env email expire => handleAdminSetExpire env email expire
  | .globalBan env platform id => handleAdminGlobalBan env platform id
  | .globalUnban env platform id => handleAdminGlobalUnban env platform id
  | .updatePaymentStatus env id status expected => handleUpdatePaymentStatus env id status expected
  | .paymentCallback env externalID status => handlePaymentCallback env externalID status
  | .expiryPass env => processOnce env
  | .antifraudPass env => processExpired env
  | .start env => initialSync env

/-- The emails a step adds to the engine. -/
def Handled.added (h : Handled) : List String := h.calls.flatMap EngineCall.adds

/-- The email belongs to a subscription whose owner has `is_blocked = true`. -/
def Store.ownerBlocked (s : Store) (email : String) : Bool :=
  s.subscriptions.rows.any fun sub =>
    sub.email == email && s.users.rows.any fun user => user.id == sub.userID && user.isBlocked

structure Panel where
  store : Store
  /-- the emails added to the engine so far, each with the block of its owner at that step -/
  added : List (String × Bool) := []
  deriving DecidableEq

def panelStep (p : Panel) (e : PanelLabel) : Option Panel :=
  let h := e.handle p.store
  some ⟨h.store, p.added ++ h.added.map fun email => (email, h.store.ownerBlocked email)⟩

/-! The API requests that create, join and delete accounts or write subscriptions. Referral codes and rewards are not
part of the store; what the checks read of them is given in `AccountEnv`. -/

open Fallible

inductive AccountOp where
  | findUser
  | findOther
  | findSubscription
  | findAgain
  | updateMaxDevices
  | updateAutoRenew
  | begin
  | createUser
  | createSubscription
  | countReferrals
  | findSubscriptions
  | findPayments
  | updateUser
  | deleteData
  | commit
  deriving DecidableEq

structure AccountEnv where
  now : Time := 0
  fails : AccountOp → Bool := fun _ => false
  /-- what `generate.UUID` returns for the ids of a new account -/
  userID : String := ""
  subID : String := ""
  uuid : String := ""
  emailID : String := ""
  /-- the user has a referrer -/
  referred : String → Bool := fun _ => false
  /-- `CountReferrals` -/
  referrals : String → Nat := fun _ => 0

/-- The columns of a user that is saved whole. -/
def User.overwrite (user row : User) : User := { user with id := row.id }

theorem User.keeps_overwrite (user : User) : Table.Keeps User.Clash user.overwrite :=
  fun _ _ => ⟨fun h => h, fun h => h⟩

def Subscription.setMaxDevices (now : Time) (maxDevices : Int) (sub : Subscription) : Subscription :=
  { sub with maxDevices := maxDevices, updatedAt := now }

theorem Subscription.keeps_setMaxDevices {now : Time} {maxDevices : Int} :
    Table.Keeps Subscription.Clash (.setMaxDevices now maxDevices) := fun _ _ => ⟨fun h => h, fun h => h⟩

def Subscription.setAutoRenew (now : Time) (autoRenew : Bool) (sub : Subscription) : Subscription :=
  { sub with autoRenew := autoRenew, updatedAt := now }

theorem Subscription.keeps_setAutoRenew {now : Time} {autoRenew : Bool} :
    Table.Keeps Subscription.Clash (.setAutoRenew now autoRenew) := fun _ _ => ⟨fun h => h, fun h => h⟩

namespace Store

def updateUser (s : Store) (user : User) : Store :=
  { s with users := s.users.updateWhere (·.id == user.id) user.overwrite user.keeps_overwrite }

def subscriptionsOf (s : Store) (userID : String) : List Subscription :=
  s.subscriptions.rows.filter (·.userID == userID)

def deleteUserAndData (s : Store) (userID : String) : Store :=
  let subIDs := (s.subscriptionsOf userID).map (·.id)
  { s with
    users := s.users.deleteWhere (·.id == userID)
    subscriptions := s.subscriptions.deleteWhere (·.userID == userID)
    devices := s.devices.deleteWhere fun d => subIDs.contains d.subscriptionID
    payments := s.payments.deleteWhere (·.userID == userID)
    notifications := s.notifications.deleteWhere fun n => subIDs.contains n.subscriptionID }

/-- An update of all subscriptions of the user. -/
def updateByUserID (f : Subscription → Subscription) (hf : Table.Keeps Subscription.Clash f) (userID : String)
    (s : Store) : Store :=
  { s with subscriptions := s.subscriptions.updateWhere (fun sub => sub.userID == userID) f hf }

def updateMaxDevicesByUserID (now : Time) (maxDevices : Int) : String → Store → Store :=
  updateByUserID (.setMaxDevices now maxDevices) Subscription.keeps_setMaxDevices

def updateAutoRenewByUserID (now : Time) (autoRenew : Bool) : String → Store → Store :=
  updateByUserID (.setAutoRenew now autoRenew) Subscription.keeps_setAutoRenew

end Store

variable (env : AccountEnv)

def handleAdminDeleteUser (platform id : String) (s : Store) : Handled :=
  match issue (env.fails .findUser) .storage (s.findUserByPlatformID platform id) with
  | .error _ => refuse s 404 "user not found"
  | .ok user =>
    -- the error of this lookup is dropped
    let found := issue (env.fails .findSubscription) .storage (s.findLatestByUserID user.id)
    if env.fails .deleteData then refuse s 500 "failed to delete user"
    else
      { store := s.deleteUserAndData user.id
        calls := match found with
          | .ok sub => [.removeUser sub.email]
          | .error _ => [] }

/-- The emails in the engine after a call that succeeds. -/
def EngineCall.applyTo (emails : List String) : EngineCall → List String
  | .addUser user => emails ++ [user.email]
  | .unbanUser email => emails ++ [email]
  | .removeUser email => emails.filter (· ≠ email)
  | .removeUsersBulk removed => emails.filter (· ∉ removed)
  | .syncUsers users removeOrphans =>
    let desired := users.map (·.email)
    (if removeOrphans then emails.filter (· ∈ desired) else emails) ++ desired

/-- An update of the subscriptions of a user who is not blocked. -/
def updateUnblocked (op : AccountOp) (update : String → Store → Store) (platform id : String) (s : Store) : Handled :=
  match issue (env.fails .findUser) .storage (s.findUserByPlatformID platform id) with
  | .error _ => refuse s 404 "user not found"
  | .ok user =>
    if user.isBlocked then refuse s 403 "user is globally blocked"
    else if env.fails op then refuse s 500 "db error"
    else { store := update user.id s }

def handleSetMaxDevices (platform id : String) (maxDevices : Int) (s : Store) : Handled :=
  if maxDevices ≤ 0 ∨ 100 < maxDevices then refuse s 400 "max_devices must be between 1 and 100"
  else updateUnblocked env .updateMaxDevices (Store.updateMaxDevicesByUserID env.now maxDevices) platform id s

def handleAutoRenewToggle (platform id : String) (autoRenew : Bool) (s : Store) : Handled :=
  updateUnblocked env .updateAutoRenew (Store.updateAutoRenewByUserID env.now autoRenew) platform id s

/-- The rows of a new account: the user and a subscription that is not active yet. -/
def registerRows (context : String) (user : User) (email : String) (s : Store) : Except Err Store :=
  transaction (env.fails .begin) (env.fails .commit) .storage do
    let s ← (issue (env.fails .createUser) .storage (s.createUser user)).mapError (.wrap (context ++ "create user"))
    (issue (env.fails .createSubscription) .storage (s.createSubscription
      { id := env.subID, userID := user.id, email := email, uuid := env.uuid, status := "inactive", maxDevices := 3
        createdAt := env.now, updatedAt := env.now })).mapError (.wrap (context ++ "create subscription"))

/-- The account of a platform id, registered if there is none. After an error the account is looked up once more, since
another request may have created it. -/
def findOrRegister (platform id context : String) (user : User) (email : String) (s : Store) :
    Except Err (Store × User) :=
  match issue (env.fails .findUser) .storage (s.findUserByPlatformID platform id) with
  | .ok existing => .ok (s, existing)
  | .error _ => match registerRows env context user email s with
    | .ok s' => .ok (s', user)
    | .error e => match issue (env.fails .findAgain) .storage (s.findUserByPlatformID platform id) with
      | .ok existing => .ok (s, existing)
      | .error _ => .error e

def findOrCreateWebUser (email : String) (s : Store) : Except Err (Store × User) :=
  findOrRegister env "web" email ""
    { id := env.userID, username := email, metadata := [("email", .str email), ("source", .str "website")] }
    ("web_" ++ (env.emailID.take 8).toString) s

def registerTelegramUser (telegramID : Int) (username telegramUsername : String) (s : Store) :
    Except Err (Store × User) :=
  findOrRegister env "telegram" (toString telegramID) "db "
    { id := env.userID, username := username
      metadata := [("telegram_id", .num (.float telegramID)), ("telegram_username", .str telegramUsername),
        ("source", .str "telegram_bot")] }
    ("bot_client_" ++ toString telegramID) s

/-- The account that a link deletes has no balance, referrals, subscription or payments. -/
def requireBare (who : String) (user : User) (s : Store) : Except Err Unit :=
  if user.balance ≠ 0 then .error (.text (who ++ " имеет баланс, привязка невозможна"))
  else if env.referred user.id then .error (.text (who ++ " был приглашен по реферальному коду, привязка невозможна"))
  else if env.fails .countReferrals then .error (.wrap "ошибка проверки рефералов" .storage)
  else if 0 < env.referrals user.id then .error (.text (who ++ " имеет приглашенных рефералов, привязка невозможна"))
  else if env.fails .findSubscriptions then .error (.wrap "ошибка проверки подписок" .storage)
  else if (s.subscriptionsOf user.id).any fun sub => sub.status ≠ "inactive" ∨ sub.endsAt.isSome then
    .error (.text (who ++ " имеет или имел подписку, привязка невозможна"))
  else if env.fails .findPayments then .error (.wrap "ошибка проверки платежей" .storage)
  else if s.payments.rows.any fun p => p.userID = user.id ∧ p.status ∈ ["completed", "success", "paid"] then
    .error (.text (who ++ " имеет историю платежей, привязка невозможна"))
  else .ok ()

/-- The Telegram id of an account, also with its name, as the metadata of another account takes them. -/
def takeTelegram (tgUser webUser : User) : Except Err User :=
  match tgUser.metadata.lookup "telegram_id" with
  | none | some .null => .error (.text "Telegram-аккаунт не содержит telegram_id")
  | some id =>
    let metadata := Assoc.put webUser.metadata "telegram_id" id
    .ok { webUser with
      metadata := match tgUser.metadata.lookup "telegram_username" with
        | none | some .null => metadata
        | some name => Assoc.put metadata "telegram_username" name }

def linkTelegramAccount (webUserID tgUserID : String) (s : Store) : Except Err Store :=
  transaction (env.fails .begin) (env.fails .commit) .storage do
    let webUser ← (issue (env.fails .findUser) .storage (s.findUserByID webUserID)).mapError (.wrap "web user not found")
    let tgUser ← (issue (env.fails .findOther) .storage (s.findUserByID tgUserID)).mapError (.wrap "tg user not found")
    if webUser.id = tgUser.id then .error (.text "попытка привязать аккаунт сам к себе")
    else if Assoc.has webUser.metadata "telegram_id" then .error (.text "к этому веб-аккаунту уже привязан Telegram")
    else if Assoc.has tgUser.metadata "email" then
      .error (.text "Telegram-аккаунт уже привязан к другому веб-аккаунту")
    else
      requireBare env "Telegram-аккаунт" tgUser s
      let linked ← takeTelegram tgUser webUser
      let s ← (issue (env.fails .updateUser) .storage (.ok (s.updateUser linked))).mapError
        (.wrap "failed to update web user metadata")
      (issue (env.fails .deleteData) .storage (.ok (s.deleteUserAndData tgUser.id))).mapError
        (.wrap "failed to delete tg user")

/-- The bare account with the email, if there is one, is deleted. -/
def dropWebUser (tgUser : User) (email : String) (s : Store) : Except Err Store :=
  match issue (env.fails .findOther) .storage (s.findUserByPlatformID "web" email) with
  | .error .notFound => .ok s
  | .error e => .error (.wrap "ошибка проверки веб-аккаунта" e)
  | .ok webUser =>
    if webUser.id = tgUser.id then .error (.text "попытка привязать аккаунт сам к себе")
    else if Assoc.has webUser.metadata "telegram_id" then
      .error (.text "Этот Email уже привязан к другому Telegram-аккаунту")
    else do
      requireBare env "Веб-аккаунт с этим email" webUser s
      (issue (env.fails .deleteData) .storage (.ok (s.deleteUserAndData webUser.id))).mapError
        (.wrap "failed to delete bare web user")

def linkEmailAccount (tgUserID email : String) (s : Store) : Except Err Store :=
  transaction (env.fails .begin) (env.fails .commit) .storage do
    let tgUser ← (issue (env.fails .findUser) .storage (s.findUserByID tgUserID)).mapError (.wrap "tg user not found")
    if getMetadataString tgUser.metadata "email" ≠ "" then
      .error (.text "к этому Telegram-аккаунту уже привязан Email")
    else
      let s ← dropWebUser env tgUser email s
      (issue (env.fails .updateUser) .storage (.ok (s.updateUser (tgUser.putEmail email)))).mapError
        (.wrap "failed to update tg user metadata")

/-- The requests and passes that write subscriptions, and any other request. -/
inductive RequestLabel where
  | panel (e : PanelLabel)
  | setMaxDevices (env : AccountEnv) (platform id : String) (maxDevices : Int)
  | autoRenewToggle (env : AccountEnv) (platform id : String) (autoRenew : Bool)
  | deleteUser (env : AccountEnv) (platform id : String)
  | registerWebUser (env : AccountEnv) (email : String)
  | registerTelegramUser (env : AccountEnv) (telegramID : Int) (username telegramUsername : String)
  | linkTelegram (env : AccountEnv) (webUserID tgUserID : String)
  | linkEmail (env : AccountEnv) (tgUserID email : String)
  /-- a delivery of the subscription to a device -/
  | trackDevice (fails : Store.TrackOp → Bool) (now : Time) (subID hwid deviceModel deviceOS userAgent : String)
      (deviceLimit : Int)
  | createUser (env : UserManagement.ProvisionEnv) (req : UserManagement.CreateUserRequest)
  | unlimitUser (env : UserManagement.ProvisionEnv) (req : UserManagement.UnlimitUserRequest)
  /-- a request that leaves the subscriptions alone -/
  | elsewhere (store : Store)

def RequestLabel.next (s : Store) : RequestLabel → Option Store
  | .panel e => some (e.handle s).store
  | .setMaxDevices env platform id maxDevices => some (handleSetMaxDevices env platform id maxDevices s).store
  | .autoRenewToggle env platform id autoRenew => some (handleAutoRenewToggle env platform id autoRenew s).store
  | .deleteUser env platform id => some (handleAdminDeleteUser env platform id s).store
  | .registerWebUser env email => some (attempt ((findOrCreateWebUser env email s).map Prod.fst) s)
  | .registerTelegramUser env telegramID username telegramUsername =>
    some (attempt ((Xraytool.registerTelegramUser env telegramID username telegramUsername s).map Prod.fst) s)
  | .linkTelegram env webUserID tgUserID => some (attempt (linkTelegramAccount env webUserID tgUserID s) s)
  | .linkEmail env tgUserID email => some (attempt (linkEmailAccount env tgUserID email s) s)
  | .trackDevice fails now subID hwid deviceModel deviceOS userAgent deviceLimit =>
    some (attempt ((s.trackDevice fails now subID hwid deviceModel deviceOS userAgent deviceLimit).map Prod.fst) s)
  | .createUser env req => some (UserManagement.createUser env req s).store
  | .unlimitUser env req => some (UserManagement.unlimitUser env req s).store
  | .elsewhere store => if store.subscriptions = s.subscriptions then some store else none

structure Requests where
  store : Store
  /-- the ids that subscriptions have or had -/
  issued : List String

/-- One request or pass. The id of a new subscription is a fresh UUID. -/
def requestStep (st : Requests) (e : RequestLabel) : Option Requests := do
  let s ← e.next st.store
  let ids := s.subscriptions.rows.map (·.id)
  let fresh (id : String) : Bool := id ∈ st.store.subscriptions.rows.map (·.id) ∨ id ∉ st.issued
  if ids.all fresh then some ⟨s, st.issued ++ ids⟩ else none

/-! Payments of accounts that are joined. A link deletes one of the two accounts with all its data, payments included.
-/

/-- The two requests that join accounts. -/
inductive Link where
  | telegram (env : AccountEnv) (webUserID tgUserID : String)
  | email (env : AccountEnv) (tgUserID address : String)

namespace Link

def apply (s : Store) : Link → Except Err Store
  | .telegram env webUserID tgUserID => linkTelegramAccount env webUserID tgUserID s
  | .email env tgUserID address => linkEmailAccount env tgUserID address s

/-- The user that is merged into the other account. -/
def absorbed (s : Store) : Link → Option String
  | .telegram _ _ tgUserID => some tgUserID
  | .email _ _ address => ((s.findUserByPlatformID "web" address).toOption).map (·.id)

end Link

/-- `UpdateExternalID`, by which a payment gets the id that its gateway has given it. -/
def updateExternalID (env : BillingEnv) (paymentID : Int) (extID : String) (s : Store) : Except Err Store :=
  transaction (env.fails .begin) (env.fails .commit) .storage do
    let p ← issue (env.fails .findByID) .storage (s.findPaymentByID paymentID)
    issue (env.fails .update) .storage
      (match s.payments.tryUpdate (fun row => row.id == p.id) fun _ => { p with externalID := some extID } with
      | some payments => .ok { s with payments := payments }
      | none => .error .duplicate)

inductive MergeLabel where
  | createPayment (env : PaymentEnv) (req : CreatePaymentRequest) (seen : Store)
  | updateExternalID (env : BillingEnv) (paymentID : Int) (extID : String)
  | updatePayment (env : BillingEnv) (call : BillingCall)
  | link (l : Link)
  | registerWebUser (env : AccountEnv) (email : String)
  | registerTelegramUser (env : AccountEnv) (telegramID : Int) (username telegramUsername : String)
  | deleteUser (env : AccountEnv) (platform id : String)

/-- The request gives a payment the external id. -/
def MergeLabel.gives (extID : String) : MergeLabel → Bool
  | .createPayment _ req _ => req.externalID = extID
  | .updateExternalID _ _ id => id = extID
  | _ => false

/-- One request; one that fails leaves the state as it was. -/
def mergeStep (b : BillingState) : MergeLabel → Option BillingState
  | .createPayment env req seen =>
    some { b with store := attempt ((Xraytool.createPayment env req seen b.store).map Prod.fst) b.store }
  | .updateExternalID env paymentID extID =>
    some { b with store := attempt (Xraytool.updateExternalID env paymentID extID b.store) b.store }
  | .updatePayment env call => billingStep b (env, call)
  | .link l => some { b with store := attempt (l.apply b.store) b.store }
  | .registerWebUser env email =>
    some { b with store := attempt ((findOrCreateWebUser env email b.store).map Prod.fst) b.store }
  | .registerTelegramUser env telegramID username telegramUsername =>
    some { b with
      store := attempt
        ((Xraytool.registerTelegramUser env telegramID username telegramUsername b.store).map Prod.fst) b.store }
  | .deleteUser env platform id => some { b with store := (handleAdminDeleteUser env platform id b.store).store }

end Xraytool
