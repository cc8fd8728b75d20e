import Mathlib.Data.Int.Log
import Mathlib.Data.Rat.Floor
import Xraytool.Spec.Engine
import Xraytool.Spec.Renewal

/-! The handlers of the API server that provision or remove users. A handler takes the decoded request and returns the
new store, its engine calls in order and its response. Calls made in the background belong to the step of the handler.
-/

namespace Xraytool

open Fallible

inductive Response where
  | ok
  | error (status : Nat) (message : String)
  deriving DecidableEq

structure Handled where
  store : Store
  calls : List EngineCall := []
  response : Response := .ok
  deriving DecidableEq

def refuse (s : Store) (status : Nat) (message : String) : Handled :=
  { store := s, response := .error status message }

inductive ApiOp where
  | findUser
  | findSubscription
  | reloadSubscription
  | updateFields
  | updateIsBlocked
  | deleteBan
  | findDevice
  | deleteDevice
  | countDevices
  | removeUser
  | findActivePlans
  | findPromo
  | countPromoUses
  | begin
  | findSubscriptionInTx
  | incrementUses
  | recordPromoUse
  | commit
  | renew (op : RenewOp)
  | resetNotifications (op : RenewOp)
  | resetNotificationsAgain (op : RenewOp)
  | deleteNotifications
  deriving DecidableEq

structure ApiEnv where
  ext : Externals
  now : Time := 0
  fails : ApiOp → Bool := fun _ => false
  /-- the router is not shutting down, so it still takes background tasks -/
  accepting : Bool := true
  /-- the antifraud plugin is wired in -/
  forceUnban : Bool := true

/-- `ResetForEndsAt` in a transaction of its own. -/
def resetForEndsAt (fails : RenewOp → Bool) (now : Time) (subID : String) (endsAt : Option Time) (s : Store) :
    Except Err Store :=
  transaction (fails .begin) (fails .commit) .storage (resetNotificationsForEndsAt fails now [] subID endsAt s)

variable (env : ApiEnv)

/-- `UpdateSubscriptionFields` with the columns it can change; a new end first resets the warnings, and an
error of that is dropped. -/
def updateSubscriptionFields (subID : String) (endsAt : Option Time) (f : Subscription → Subscription)
    (hf : Table.Keeps Subscription.Clash f) (s : Store) : Except Err Store :=
  let s := match endsAt with
    | some endsAt =>
      attempt (resetForEndsAt (fun op => env.fails (.resetNotifications op)) env.now subID (some endsAt) s) s
    | none => s
  issue (env.fails .updateFields) .storage (.ok (s.updateSubscription subID f hf))

def unbanUserInXrayAsync (sub : Subscription) : List EngineCall :=
  if env.accepting then [.addUser (restoredUser sub)] else []

/-- `UpdateIsBlocked` with its error dropped. -/
def tryUnblock (userID : String) (s : Store) : Store :=
  attempt (issue (env.fails .updateIsBlocked) Err.storage (.ok (s.updateIsBlocked userID false))) s

def handleAdminBlockUser (email : String) (s : Store) : Handled :=
  if email = "" then refuse s 400 "email path parameter is required"
  else match issue (env.fails .findSubscription) .storage (s.findLatestByEmail email) with
    | .error _ => refuse s 404 "subscription not found"
    | .ok sub =>
      let calls := [EngineCall.removeUser sub.email]
      if env.fails .removeUser then { refuse s 500 "failed to remove user from engine" with calls := calls }
      else match updateSubscriptionFields env sub.id none (.setStatus env.now "blocked")
          (Subscription.keeps_setStatus env.now "blocked") s with
        | .error _ => { refuse s 500 "failed to update db status" with calls := calls }
        | .ok s => { store := s, calls := calls }

/-- The columns of an unblock: active, with the requested limit if it is positive. -/
def unblockedRow (now : Time) (limit : Option Int) (sub : Subscription) : Subscription :=
  { sub.setStatus now "active" with
    maxDevices := match limit with
      | some limit => if 0 < limit then limit else sub.maxDevices
      | none => sub.maxDevices }

theorem keeps_unblockedRow {now : Time} {limit : Option Int} :
    Table.Keeps Subscription.Clash (unblockedRow now limit) := fun _ _ => ⟨id, id⟩

/-- Unblock and set-expire: make the row active, lift the global block, whatever comes of it, and put the reloaded
subscription back into the engine. -/
def reactivate (email : String) (endsAt : Option Time) (f : Subscription → Subscription)
    (hf : Table.Keeps Subscription.Clash f) (before : Store → Store) (after : Subscription → Store → Store)
    (s : Store) : Handled :=
  match issue (env.fails .findSubscription) .storage (s.findLatestByEmail email) with
  | .error _ => refuse s 404 "subscription not found"
  | .ok sub => match updateSubscriptionFields env sub.id endsAt f hf s with
    | .error _ => refuse s 500 "db error"
    | .ok s =>
      let s := before (tryUnblock env sub.userID s)
      match issue (env.fails .reloadSubscription) .storage (s.findLatestByEmail email) with
      | .error _ => refuse s 500 "db reload error"
      | .ok sub => { store := after sub s, calls := unbanUserInXrayAsync env sub }

/-- Lift a soft ban; the antifraud plugin drops the error of the deletion. -/
def forceUnban (env : ApiEnv) (email : String) (s : Store) : Store :=
  if env.forceUnban then attempt (issue (env.fails .deleteBan) Err.storage (.ok (s.deleteBanByEmail email))) s else s

def handleAdminUnblockUser (email : String) (limit : Option Int) (s : Store) : Handled :=
  if email = "" then refuse s 400 "email path parameter is required"
  else reactivate env email none (unblockedRow env.now limit) keeps_unblockedRow (forceUnban env email) (fun _ s => s) s

/-- The second reset of the warnings in set-expire, with its error dropped. -/
def resetAgain (endsAt : Time) (sub : Subscription) (s : Store) : Store :=
  attempt (resetForEndsAt (fun op => env.fails (.resetNotificationsAgain op)) env.now sub.id (some endsAt) s) s

/-- `parseExpiryDate`: a date alone means 15:00 in Moscow, which keeps one offset all year. -/
def parseExpiryDate (ext : Externals) (date : String) : Option Time :=
  (ext.parseTime "2006-01-02T15:04:05Z07:00" date).or <|
    (ext.parseTime "2006-01-02T15:04:05Z" date).or <|
    (ext.parseTime "2006-01-02" date).or <|
    (ext.parseMoscow "02.01.2006 15:04" date).or <|
    (ext.parseMoscow "02.01.2006" date).map (· + 15 * Time.hour)

def extendedRow (now endsAt : Time) (sub : Subscription) : Subscription :=
  { sub.setStatus now "active" with endsAt := some endsAt }

theorem keeps_extendedRow {now endsAt : Time} : Table.Keeps Subscription.Clash (extendedRow now endsAt) :=
  fun _ _ => ⟨id, id⟩

def handleAdminSetExpire (email expire : String) (s : Store) : Handled :=
  if email = "" then refuse s 400 "email path parameter is required"
  else if expire = "" then refuse s 400 "expire is required"
  else match parseExpiryDate env.ext expire with
    | none => refuse s 400 "invalid expire format"
    | some expireTime =>
      reactivate env email (some expireTime) (extendedRow env.now expireTime) keeps_extendedRow (fun s => s)
        (resetAgain env expireTime) s

/-- The subscription is blocked for its devices and now has few enough of them, before its end. -/
def limitResolved (now : Time) (count : Nat) (sub : Subscription) : Bool :=
  decide ((count : Int) ≤ sub.maxDevices) && sub.status == "blocked" && sub.endsAt.all fun endsAt => now < endsAt

def handleDeleteDevice (platform id : String) (deviceID : Option Int) (s : Store) : Handled :=
  match issue (env.fails .findUser) .storage (s.findUserByPlatformID platform id) with
  | .error _ => refuse s 404 "user not found"
  | .ok user => match issue (env.fails .findSubscription) .storage (s.findLatestByUserID user.id) with
    | .error _ => refuse s 404 "subscription not found"
    | .ok sub => match deviceID with
      | none => refuse s 400 "invalid device ID"
      | some deviceID =>
        match issue (env.fails .findDevice) .storage (s.findDeviceByIDAndSubscription deviceID sub.id) with
        | .error _ => refuse s 404 "device not found"
        | .ok device =>
          if env.fails .deleteDevice then refuse s 500 "failed to delete device"
          else
            let s := s.deleteDevices [device.id]
            -- the error of the count is dropped, and the count is then 0
            let count := if env.fails .countDevices then 0 else s.countDevices sub.id
            if limitResolved env.now count sub then
              { store := attempt (updateSubscriptionFields env sub.id none (.setStatus env.now "active")
                  (Subscription.keeps_setStatus env.now "active") s) s
                calls := unbanUserInXrayAsync env sub }
            else { store := s }

/-- Set the block of a user, and tell the engine by the latest subscription. -/
def setGlobalBlock (isBlocked : Bool) (calls : Subscription → List EngineCall) (platform id : String) (s : Store) :
    Handled :=
  match issue (env.fails .findUser) .storage (s.findUserByPlatformID platform id) with
  | .error _ => refuse s 404 "user not found"
  | .ok user =>
    if env.fails .updateIsBlocked then refuse s 500 "failed to update user"
    else
      let s := s.updateIsBlocked user.id isBlocked
      match issue (env.fails .findSubscription) .storage (s.findLatestByUserID user.id) with
      | .ok sub => { store := s, calls := calls sub }
      | .error _ => { store := s }

def handleAdminGlobalBan : String → String → Store → Handled :=
  setGlobalBlock env true fun sub => if sub.email ≠ "" then [.removeUser sub.email] else []

def handleAdminGlobalUnban : String → String → Store → Handled :=
  setGlobalBlock env false fun sub =>
    if sub.email ≠ "" ∧ sub.status = "active" then unbanUserInXrayAsync env sub else []

/-! Administrators' requests on one subscription, call by call. Requests overlap in any order, and an unblock or a
global unban leaves a task that adds the user to the engine with the copy of the row it was given. Every call succeeds.
The antifraud ban that an unblock lifts is left out. -/

inductive AdminRequest where
  | block
  | unblock (limit : Option Int)
  | globalBan
  | globalUnban
  deriving DecidableEq

/-- A request or a task by the call it makes next, with what it has loaded. -/
inductive AdminCall where
  | blockFind
  | blockRemove (sub : Subscription)
  | blockUpdate (sub : Subscription)
  | unblockFind (limit : Option Int)
  | unblockUpdate (limit : Option Int) (sub : Subscription)
  | unblockOwner (sub : Subscription)
  | unblockReload
  | banFind
  | banUpdate (user : User)
  | banLatest (user : User)
  | banRemove (sub : Subscription)
  | unbanFind
  | unbanUpdate (user : User)
  | unbanLatest (user : User)
  /-- the task `unbanUserInXray` with its copy of the row -/
  | addUser (sub : Subscription)
  deriving DecidableEq

def AdminRequest.begin : AdminRequest → AdminCall
  | .block => .blockFind
  | .unblock limit => .unblockFind limit
  | .globalBan => .banFind
  | .globalUnban => .unbanFind

/-- The rows of the subscription and of its owner, and whether the engine contains the email. -/
structure AdminScene where
  sub : Subscription
  user : User
  owned : sub.userID = user.id
  /-- the engine takes no user without an email -/
  named : sub.email ≠ ""
  engine : Bool
  inFlight : List AdminCall := []
  deriving DecidableEq

namespace AdminScene

/-- An update of columns other than the owner and the email, where the id is that of the row. -/
def updateSub (st : AdminScene) (id : String) (f : Subscription → Subscription)
    (hf : ∀ sub, (f sub).userID = sub.userID ∧ (f sub).email = sub.email) : AdminScene :=
  if st.sub.id = id then
    { st with sub := f st.sub, owned := (hf st.sub).1.trans st.owned, named := (hf st.sub).2.trans_ne st.named }
  else st

def setBlocked (st : AdminScene) (userID : String) (isBlocked : Bool) : AdminScene :=
  if st.user.id = userID then { st with user := st.user.setBlocked isBlocked } else st

/-- `AddUser` and `RemoveUser` of an email. -/
def setEngine (st : AdminScene) (email : String) (present : Bool) : AdminScene :=
  if st.sub.email = email then { st with engine := present } else st

end AdminScene

/-- The next call of a request or a task, and what it does afterwards. A router that shuts down takes no new task. -/
def AdminCall.advance (now : Time) (accepting : Bool) (st : AdminScene) : AdminCall → AdminScene × List AdminCall
  | .blockFind => (st, [.blockRemove st.sub])
  | .blockRemove sub => (st.setEngine sub.email false, [.blockUpdate sub])
  | .blockUpdate sub => (st.updateSub sub.id (.setStatus now "blocked") fun _ => ⟨rfl, rfl⟩, [])
  | .unblockFind limit => (st, [.unblockUpdate limit st.sub])
  | .unblockUpdate limit sub =>
    (st.updateSub sub.id (unblockedRow now limit) fun _ => ⟨rfl, rfl⟩, [.unblockOwner sub])
  | .unblockOwner sub => (st.setBlocked sub.userID false, [.unblockReload])
  | .unblockReload => (st, if accepting then [.addUser st.sub] else [])
  | .banFind => (st, [.banUpdate st.user])
  | .banUpdate user => (st.setBlocked user.id true, [.banLatest user])
  | .banLatest _ => (st, if st.sub.email ≠ "" then [.banRemove st.sub] else [])
  | .banRemove sub => (st.setEngine sub.email false, [])
  | .unbanFind => (st, [.unbanUpdate st.user])
  | .unbanUpdate user => (st.setBlocked user.id false, [.unbanLatest user])
  | .unbanLatest _ =>
    (st, if st.sub.email ≠ "" ∧ st.sub.status = "active" ∧ accepting then [.addUser st.sub] else [])
  | .addUser sub => (st.setEngine (restoredUser sub).email true, [])

inductive AdminLabel where
  | start (request : AdminRequest)
  /-- one of those in flight makes its next call -/
  | advance (index : Nat) (now : Time) (accepting : Bool)

def adminStep (st : AdminScene) : AdminLabel → Option AdminScene
  | .start request => some { st with inFlight := st.inFlight ++ [request.begin] }
  | .advance index now accepting => do
    let pending ← st.inFlight[index]?
    let (st', next) := pending.advance now accepting st
    some { st' with inFlight := st.inFlight.take index ++ next ++ st.inFlight.drop (index + 1) }

/-! `handleAutoRenew`: the price of a renewal paid from the balance, and the transaction that redeems a promo
code and renews the subscription. -/

structure AutoRenewBody where
  planTotalPrice : Int := 0
  newEndsAt : String := ""
  maxDevices : Int := 0
  planID : Option Int := none
  promoCode : String := ""
  deriving DecidableEq

/-- The checks of the body; a limit that is not positive becomes 3. -/
def AutoRenewBody.check (body : AutoRenewBody) : Except Response AutoRenewBody :=
  if body.planTotalPrice < 0 ∨ 10000000 < body.planTotalPrice then .error (.error 400 "invalid plan total price")
  else if body.planID = none ∧ body.newEndsAt = "" then
    .error (.error 400 "new_ends_at is required if plan_id is missing")
  else if body.planID = none ∧ body.planTotalPrice ≤ 0 then
    .error (.error 400 "plan_total_price must be positive if plan_id is missing")
  else
    let maxDevices := if body.maxDevices ≤ 0 then 3 else body.maxDevices
    if 100 < maxDevices then .error (.error 400 "max_devices must be between 1 and 100")
    else .ok { body with maxDevices := maxDevices }

/-- What the devices beyond three cost for the months of the plan. -/
def extraDevices (maxDevices months : Int) : Int :=
  if 3 < maxDevices then int64 ((maxDevices - 3) * 40 * months) else 0

/-- The float64 nearest to a number of ordinary size, the even one of two. -/
def float64 (q : Rat) : Rat :=
  let ulp : Rat := 2 ^ (Int.log 2 |q| - 52)
  let n := ⌊q / ulp⌋
  let rest := q / ulp - n
  (if rest < 1 / 2 ∨ rest = 1 / 2 ∧ n % 2 = 0 then n else n + 1) * ulp

/-- `Duration.Hours`. -/
def durationHours (d : Int) : Rat :=
  float64 ((d / Time.hour : Int) + float64 (mkRat (d % Time.hour) 3600000000000))

/-- The months that are left of the running period, if they are more than a week; `Sub` saturates. -/
def upgradeMonths (now : Time) (maxDevices : Int) (sub : Subscription) : Int :=
  match sub.endsAt with
  | none => 0
  | some endsAt =>
    let remainingDays := float64 (durationHours (min (endsAt - now) 9223372036854775807) / 24)
    if now < endsAt ∧ sub.maxDevices < maxDevices ∧ 7 < remainingDays then ⌈float64 (remainingDays / 30)⌉ else 0

/-- What more devices cost for the rest of the running period. -/
def upgradeCost (now : Time) (maxDevices : Int) (sub : Subscription) : Int :=
  let newExtra := int64 (maxDevices - max sub.maxDevices 3)
  if 0 < newExtra then int64 (newExtra * 40 * upgradeMonths now maxDevices sub) else 0

/-- An amount less a percentage, as Go divides. -/
def discounted (amount percent : Int) : Int := int64 (amount - (int64 (amount * percent)).tdiv 100)

variable (env : ApiEnv)

/-- The checks of a promo code. -/
def findUsablePromo (platform : String) (userID : String) (code : String) (s : Store) : Except Response PromoCode :=
  match issue (env.fails .findPromo) .storage (s.findPromoByCode code) with
  | .error _ => .error (.error 400 "promo code not found")
  | .ok promo =>
    if ¬ promo.isActive ∨ ∃ expiresAt ∈ promo.expiresAt, expiresAt ≤ env.now then
      .error (.error 400 "promo code is not active")
    else if promo.targetPlatform ≠ "all" ∧ promo.targetPlatform ≠ platform then
      .error (.error 400 "promo code is not valid for this platform")
    else if 0 < promo.maxUses ∧ promo.maxUses ≤ promo.usesCount then
      .error (.error 400 "promo code usage limit reached")
    else if env.fails .countPromoUses then .error (.error 500 "failed to validate promo code")
    else if 0 < s.countByUserAndPromo userID promo.id then .error (.error 400 "promo code already used by this user")
    else .ok promo

/-- A promo code and the text it was asked for by. -/
structure AppliedPromo where
  promo : PromoCode
  code : String
  deriving DecidableEq

structure Quote where
  price : Int
  newEndsAt : Option Time
  applied : Option AppliedPromo := none
  deriving DecidableEq

/-- The price with a promo code, if one is asked for. -/
def promoPrice (platform userID promoCode : String) (baseAmount : Int) (s : Store) :
    Except Response (Int × Option AppliedPromo) :=
  if promoCode = "" then .ok (baseAmount, none)
  else
    let code := toUpper (trimSpace promoCode)
    match findUsablePromo env platform userID code s with
    | .error r => .error r
    | .ok promo => .ok (discounted baseAmount promo.discountPercent, some ⟨promo, code⟩)

/-- The better of the plan's own discount and the promo code; a code that is no better is not used. -/
def bestPrice (plan : Plan) (baseAmount : Int) (promo : Int × Option AppliedPromo) : Int × Option AppliedPromo :=
  let globalPrice :=
    if 0 < plan.globalDiscountPercent then discounted baseAmount plan.globalDiscountPercent else baseAmount
  if promo.1 < globalPrice then promo else (globalPrice, none)

/-- The terms of the renewal. -/
def quote (platform : String) (user : User) (body : AutoRenewBody) (s : Store) : Except Response Quote :=
  match body.planID with
  | some planID =>
    if env.fails .findActivePlans then .error (.error 500 "failed to get plans")
    else match s.findActivePlans.find? (·.id == planID) with
      | none => .error (.error 400 "invalid plan_id")
      | some plan =>
        let current := issue (env.fails .findSubscription) .storage (s.findLatestByUserID user.id)
        let upgrade := match current with
          | .ok sub => upgradeCost env.now body.maxDevices sub
          | .error _ => 0
        let baseAmount := int64 (plan.basePrice + (extraDevices body.maxDevices plan.months + upgrade))
        match promoPrice env platform user.id body.promoCode baseAmount s with
        | .error r => .error r
        | .ok promo =>
          let (price, applied) := bestPrice plan baseAmount promo
          let baseTime := match current with
            | .ok sub => (sub.endsAt.filter (env.now < ·)).getD env.now
            | .error _ => env.now
          .ok ⟨price, some (Time.addDate baseTime 0 plan.months 0), applied⟩
  | none =>
    if body.newEndsAt ≠ "" then match env.ext.parseTime "2006-01-02T15:04:05Z07:00" body.newEndsAt with
      | none => .error (.error 400 "invalid new_ends_at format")
      | some t => .ok ⟨body.planTotalPrice, some t, none⟩
    else .ok ⟨body.planTotalPrice, none, none⟩

def subscriptionPromoUsesKey : String := "auto_renew_promo_uses"

def subscriptionUsedPromo (metadata : Metadata) (code : String) : Bool :=
  let code := trimSpace (toUpper code)
  code != "" && match metadata.lookup subscriptionPromoUsesKey with
    | some (.arr items) => (textItems items).any fun entry => equalFold (trimSpace entry) code
    | _ => false

def appendSubscriptionPromoUse (metadata : Metadata) (code : String) : Metadata :=
  let uses := match metadata.lookup subscriptionPromoUsesKey with
    | some (.arr items) => textItems items
    | _ => []
  Assoc.put metadata subscriptionPromoUsesKey (.arr ((uses ++ [toUpper (trimSpace code)]).map .str))

def promoAlreadyUsed : Err := .text "auto-renew promo already used"

def promoLimitReached : Err := .text "promo limit reached"

theorem keeps_writeMetadata (now : Time) (metadata : Metadata) :
    Table.Keeps Subscription.Clash (writeMetadata now metadata) := fun _ _ => ⟨id, id⟩

/-- Record the redemption on the subscription, which is saved as a whole right after it was read. -/
def redeemPromo (userID : String) (applied : AppliedPromo) (s : Store) : Except Err Store := do
  let sub ← (issue (env.fails .findSubscriptionInTx) .storage (s.findLatestByUserID userID)).mapError
    (.wrap "load subscription for promo use")
  if subscriptionUsedPromo sub.metadata applied.code then .error promoAlreadyUsed
  else
    let (s, ok) ← (issue (env.fails .incrementUses) .storage
      (.ok (s.incrementUses applied.promo.id applied.promo.maxUses))).mapError (.wrap "increment promo uses")
    if ¬ ok then .error promoLimitReached
    else
      let metadata := appendSubscriptionPromoUse sub.metadata applied.code
      (issue (env.fails .recordPromoUse) .storage
        (.ok (s.updateSubscription sub.id (writeMetadata env.now metadata)
          (keeps_writeMetadata env.now metadata)))).mapError (.wrap "record promo use")

def redeemApplied (userID : String) (applied : Option AppliedPromo) (s : Store) : Except Err Store :=
  match applied with
  | none => .ok s
  | some applied => redeemPromo env userID applied s

def autoRenewTx (userID : String) (body : AutoRenewBody) (q : Quote) (s : Store) : Except Err Store :=
  transaction (env.fails .begin) (env.fails .commit) .storage do
    let s ← redeemApplied env userID q.applied s
    autoRenewSubscription true (fun op => env.fails (.renew op)) env.now userID body.planID q.price q.newEndsAt
      body.maxDevices s

def autoRenewFailure (err : Err) : Response :=
  if err = .text "insufficient balance" then .error 402 "insufficient balance"
  else if err = promoLimitReached then .error 409 "promo code usage limit reached"
  else if err = promoAlreadyUsed then .error 409 "promo code already used by this user"
  else .error 500 "db error"

def handleAutoRenew (platform id : String) (body : AutoRenewBody) (s : Store) : Handled :=
  match body.check with
  | .error r => { store := s, response := r }
  | .ok body => match issue (env.fails .findUser) .storage (s.findUserByPlatformID platform id) with
    | .error _ => refuse s 404 "user not found"
    | .ok user =>
      if user.isBlocked then refuse s 403 "user is globally blocked"
      else match quote env platform user body s with
        | .error r => { store := s, response := r }
        | .ok q => match autoRenewTx env user.id body q s with
          | .error err => { store := s, response := autoRenewFailure err }
          | .ok s => match issue (env.fails .reloadSubscription) .storage (s.findLatestByUserID user.id) with
            | .error _ => { store := s }
            | .ok sub =>
              { store := attempt (issue (env.fails .deleteNotifications) Err.storage
                  (.ok (s.deleteNotificationsBySubID sub.id))) s
                calls := unbanUserInXrayAsync env sub }

/-- The renewal a request commits: the payer, the terms and the store right after the transaction. -/
def committedRenewal (platform id : String) (body : AutoRenewBody) (s : Store) : Option (String × Quote × Store) :=
  match body.check with
  | .error _ => none
  | .ok body => match issue (env.fails .findUser) .storage (s.findUserByPlatformID platform id) with
    | .error _ => none
    | .ok user =>
      if user.isBlocked then none
      else match quote env platform user body s with
        | .error _ => none
        | .ok q => match autoRenewTx env user.id body q s with
          | .error _ => none
          | .ok s => some (user.id, q, s)

end Xraytool
