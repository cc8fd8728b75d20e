import Xraytool.Lib.Run
import Xraytool.Spec.Repository

/-! `AutoRenewSubscription` and the reset of the expiry warnings it does. The call runs in a transaction of its own;
inside another one GORM turns that into a savepoint. Either way a failure leaves the store as it was before the call. -/

namespace Xraytool

open Fallible

inductive RenewOp where
  | begin
  | findSubscription
  | findPlan
  | debit
  | update
  | deleteNotifications
  | createNotification (level : String)
  | updateMetadata
  | commit
  deriving DecidableEq

/-- A warning level and its duration. -/
abbrev WarningLevel := String × Int

def defaultWarningLevels : List WarningLevel :=
  [("72h", 72 * Time.hour), ("24h", 24 * Time.hour), ("3h", 3 * Time.hour), ("1h", Time.hour)]

def deleteNotifications (s : Store) (subID : String) (levels : List String) : Store :=
  { s with notifications := s.notifications.deleteWhere fun n =>
      n.subscriptionID == subID && levels.contains n.warningLevel }

/-- An insert with `ON CONFLICT DO NOTHING`. -/
def markNotification (s : Store) (now : Time) (subID level : String) : Store :=
  { s with notifications := (s.notifications.insert ⟨subID, level, now⟩).getD s.notifications }

def clearLevels (fails : RenewOp → Bool) (subID : String) (levels : List String) (s : Store) :
    Except Err Store :=
  if 0 < levels.length then
    issue (fails .deleteNotifications) .storage (.ok (deleteNotifications s subID levels))
  else .ok s

def markLevels (fails : RenewOp → Bool) (now : Time) (subID : String) : List String → Store → Except Err Store
  | [], s => .ok s
  | level :: levels, s => do
    let s ← issue (fails (.createNotification level)) .storage (.ok (markNotification s now subID level))
    markLevels fails now subID levels s

/-- The levels whose threshold is still ahead, with `timeLeft` to go; the others are in the past. -/
def aheadLevels (levels : List WarningLevel) (timeLeft : Int) : List String :=
  (levels.filter fun l => l.2 < timeLeft).map (·.1)

def pastLevels (levels : List WarningLevel) (timeLeft : Int) : List String :=
  (levels.filter fun l => !decide (l.2 < timeLeft)).map (·.1)

/-- `resetNotificationsForEndsAtTx`: clear the levels still ahead, mark those already past. -/
def resetNotificationsForEndsAt (fails : RenewOp → Bool) (now : Time) (levels : List WarningLevel)
    (subID : String) (endsAt : Option Time) (s : Store) : Except Err Store :=
  match endsAt with
  | none =>
    let cleared := s.notifications.deleteWhere fun n => n.subscriptionID == subID
    issue (fails .deleteNotifications) .storage (.ok { s with notifications := cleared })
  | some endsAt =>
    let levels := if levels.length = 0 then defaultWarningLevels else levels
    let timeLeft := endsAt - now
    if timeLeft ≤ 0 then .ok s
    else do
      let s ← clearLevels fails subID (aheadLevels levels timeLeft) s
      markLevels fails now subID (pastLevels levels timeLeft) s

/-- The new end of a plan renewal: whole months after the current end, or after now if it has passed. -/
def renewedEndsAt (now : Time) (sub : Subscription) (plan : Plan) : Time :=
  Time.addDate (match sub.endsAt with
    | some endsAt => if now < endsAt then endsAt else now
    | none => now) 0 plan.months 0

/-- The metadata with the plan's routing snapshot. -/
def renewedMetadata (sub : Subscription) (plan : Plan) : Metadata :=
  if plan.engineIDs.length = 0 then Assoc.drop sub.metadata "plan_engine_ids"
  else Assoc.put sub.metadata "plan_engine_ids" (.arr (plan.engineIDs.map .str))

/-- The new end and, for a plan, the new metadata. -/
def renewalTerms (fails : RenewOp → Bool) (now : Time) (planID : Option Int) (newEndsAt : Option Time)
    (sub : Subscription) (s : Store) : Except Err (Time × Option Metadata) :=
  match planID with
  | some planID => do
    let plan ← (issue (fails .findPlan) .storage (s.findPlanByID planID)).mapError (.wrap "plan not found")
    return (renewedEndsAt now sub plan, some (renewedMetadata sub plan))
  | none => match newEndsAt with
    | none => .error (.text "newEndsAt is required if planID is nil")
    | some endsAt => .ok (endsAt, none)

/-- Take the price from the balance if it covers it; a price of zero or less is not charged. -/
def debitBalance (fails : RenewOp → Bool) (userID : String) (price : Int) (s : Store) : Except Err Store :=
  let payer (u : User) : Bool := u.id == userID && decide (price ≤ u.balance)
  if 0 < price then
    issue (fails .debit) .storage
      (if 0 < s.users.affected payer then
        .ok { s with users := s.users.updateWhere payer (.debit price) User.keeps_debit }
      else .error (.text "insufficient balance"))
  else .ok s

def activateRow (now endsAt : Time) (maxDevices : Int) (sub : Subscription) : Subscription :=
  { sub with status := "active", endsAt := some endsAt, maxDevices := maxDevices, updatedAt := now }

def writeMetadata (now : Time) (metadata : Metadata) (sub : Subscription) : Subscription :=
  { sub with metadata := metadata, updatedAt := now }

def autoRenewSubscription (nested : Bool) (fails : RenewOp → Bool) (now : Time) (userID : String)
    (planID : Option Int) (planTotalPrice : Int) (newEndsAt : Option Time) (maxDevices : Int) (s : Store) :
    Except Err Store :=
  transaction (fails .begin) (!nested && fails .commit) .storage do
    let sub ← (issue (fails .findSubscription) .storage (s.findLatestByUserID userID)).mapError
      (.wrap "subscription not found")
    let (endsAt, metadata) ← renewalTerms fails now planID newEndsAt sub s
    let s ← debitBalance fails userID planTotalPrice s
    let s ← issue (fails .update) .storage
      (.ok (s.updateSubscription sub.id (activateRow now endsAt maxDevices) fun _ _ => ⟨id, id⟩))
    let s ← resetNotificationsForEndsAt fails now [] sub.id (some endsAt) s
    match metadata with
    | none => return s
    | some metadata =>
      issue (fails .updateMetadata) .storage
        (.ok (s.updateSubscription sub.id (writeMetadata now metadata) fun _ _ => ⟨id, id⟩))

/-! The two ways a payment changes its status: the provider's callback (`ProcessExternalPaymentStatus`) and the
administrator's update (`UpdatePaymentStatus`), each in one transaction. The outcome of a committed transaction records
its completion effect, so that a run can count effects. -/

inductive BillingOp where
  | begin
  | findByExternalID
  | updateStatusIfNotCompleted
  | updateStatus
  | findByID
  | update
  | findLatestByUserID
  | renew (op : RenewOp)
  | adjustBalance
  | commit
  deriving DecidableEq

/-- What a call finds around it: the time and the repository calls that fail. -/
structure BillingEnv where
  now : Time
  fails : BillingOp → Bool

inductive Effect where
  | credit (paymentID : Int) (userID : String) (amount : Int)
  | renew (paymentID : Int) (userID : String) (planID : Int) (succeeded : Bool)
  deriving DecidableEq

def Effect.paymentID : Effect → Int
  | .credit id _ _ => id
  | .renew id _ _ _ => id

structure Outcome where
  updated : Bool := false
  effect : Option Effect := none
  /-- the payment of the dispatched `payment.completed` event -/
  paymentToSend : Option Payment := none
  deriving DecidableEq

def mapExternalStatus (status : String) : String :=
  if status = "success" ∨ status = "SUCCESS" ∨ status = "CONFIRMED" ∨ status = "COMPLETED" then "completed"
  else status

variable (env : BillingEnv)

/-- The device limit of the extended subscription: the payment's own, else the current one, at least 3. -/
def extensionDevices (payment : Payment) (s : Store) : Int :=
  let current := match issue (env.fails .findLatestByUserID) .storage (s.findLatestByUserID payment.userID) with
    | .ok sub => sub.maxDevices
    | .error _ => 3
  let requested := match payment.customData.lookup "max_devices" with
    | some (.num n) => n.toInt
    | _ => current
  if requested < 3 then 3 else requested

/-- The error of the renewal is logged and dropped; the flag says whether it succeeded. -/
def extendSubscriptionForPayment (payment : Payment) (planID : Int) (s : Store) : Store × Bool :=
  match autoRenewSubscription true (fun op => env.fails (.renew op)) env.now payment.userID (some planID) 0 none
      (extensionDevices env payment s) s with
  | .ok s' => (s', true)
  | .error _ => (s, false)

/-- What both updates do for a payment they have just completed. -/
def completePayment (payment : Payment) (s : Store) : Except Err (Store × Outcome) :=
  match payment.planID with
  | some planID =>
    let (s, succeeded) := extendSubscriptionForPayment env payment planID s
    .ok (s, ⟨true, some (.renew payment.id payment.userID planID succeeded), some payment⟩)
  | none =>
    if payment.method ≠ "balance" then do
      let s ← issue (env.fails .adjustBalance) .storage (.ok (s.adjustBalance payment.userID payment.amount))
      return (s, ⟨true, some (.credit payment.id payment.userID payment.amount), some payment⟩)
    else .ok (s, ⟨true, none, some payment⟩)

def processExternalPaymentStatus (extID status : String) (s : Store) : Except Err (Store × Outcome) :=
  let mappedStatus := mapExternalStatus status
  transaction (env.fails .begin) (env.fails .commit) .storage do
    let payment ← issue (env.fails .findByExternalID) .storage (s.findPaymentByExternalID extID)
    if payment.status = mappedStatus ∨ payment.status = "completed" then return (s, {})
    else
      let (s, updated) ← issue (env.fails .updateStatusIfNotCompleted) .storage
        (.ok (s.updateStatusIfNotCompleted payment.id mappedStatus))
      if ¬ updated then return (s, {})
      else if mappedStatus = "completed" then completePayment env payment s
      else return (s, { updated := true })

def updatePaymentStatus (paymentID : Int) (status : String) (expectedStatuses : List String) (s : Store) :
    Except Err (Store × Outcome) :=
  transaction (env.fails .begin) (env.fails .commit) .storage do
    let (s, updated) ← issue (env.fails .updateStatus) .storage
      (.ok (s.updateStatus paymentID status expectedStatuses))
    if ¬ updated then return (s, {})
    else if status = "completed" then
      -- a failed read of the row just updated is not reported
      match issue (env.fails .findByID) .storage (s.findPaymentByID paymentID) with
      | .ok payment => completePayment env payment s
      | .error _ => return (s, { updated := true })
    else return (s, { updated := true })

inductive BillingCall where
  | processExternalPaymentStatus (extID status : String)
  | updatePaymentStatus (paymentID : Int) (status : String) (expectedStatuses : List String)
  deriving DecidableEq

def BillingCall.apply : BillingCall → Store → Except Err (Store × Outcome)
  | .processExternalPaymentStatus extID status => Xraytool.processExternalPaymentStatus env extID status
  | .updatePaymentStatus id status expected => Xraytool.updatePaymentStatus env id status expected

/-- The database and the completion effects executed so far by committed transactions. -/
structure BillingState where
  store : Store
  effects : List Effect := []
  deriving DecidableEq

/-- One call; a transaction that fails leaves the state as it was. -/
def billingStep (b : BillingState) (e : BillingEnv × BillingCall) : Option BillingState :=
  match e.2.apply e.1 b.store with
  | .ok (s, o) => some ⟨s, b.effects ++ o.effect.toList⟩
  | .error _ => some b

end Xraytool
