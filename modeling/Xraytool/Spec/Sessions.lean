import Xraytool.Lib.ReadCommitted
import Xraytool.Spec.Renewal

/-! Concurrent calls on the rows of one user under READ COMMITTED. Every call is a transaction whose statements
interleave with those of others. The SELECT of `AutoRenewSubscription` takes no lock: GORM v2 ignores
`gorm:query_option`. A commit records the notes of what its transaction has done.

The rows are the user's, the latest subscription, one payment, and for each payment whether its referral reward exists.
They are not deleted. The statements on other rows (notifications, the other account of a link) only fail or not. -/

namespace Xraytool.Sessions

open ReadCommitted

/-- A renewal; `payment` is the payment whose completion it is a part of, with a savepoint instead of a transaction. -/
structure Renewal where
  planID : Option Int
  planTotalPrice : Int
  newEndsAt : Option Time
  maxDevices : Int
  payment : Option Payment := none
  deriving DecidableEq

/-- The new end and the plan that gives it. -/
structure Terms where
  endsAt : Time
  plan : Option Plan
  deriving DecidableEq

/-- The requests that read the user and save the whole row. -/
inductive ProfileEdit where
  | setMetadata (key : String) (value : Json Number)
  /-- the Telegram account has passed its checks; what is copied is its metadata -/
  | linkTelegramAccount (tgMetadata : Metadata)
  /-- a web account of that email is gone or has passed its checks -/
  | linkEmailAccount (email : String)

/-- `handleSetMetadata`; `none` is a refusal. -/
def setMetadata (key : String) (value : Json Number) (user : User) : Option User :=
  if key = "" ∨ user.isBlocked then none
  else if value = .null ∨ value = .str "" then some { user with metadata := Assoc.drop user.metadata key }
  else some { user with metadata := Assoc.put user.metadata key value }

def linkTelegramAccount (tgMetadata : Metadata) (webUser : User) : Option User :=
  if Assoc.has webUser.metadata "telegram_id" ∨ Assoc.has tgMetadata "email" then none
  else match tgMetadata.lookup "telegram_id" with
    | none | some .null => none
    | some tgID =>
      let metadata := Assoc.put webUser.metadata "telegram_id" tgID
      match tgMetadata.lookup "telegram_username" with
      | none | some .null => some { webUser with metadata := metadata }
      | some username => some { webUser with metadata := Assoc.put metadata "telegram_username" username }

def linkEmailAccount (email : String) (tgUser : User) : Option User :=
  match tgUser.metadata.lookup "email" with
  | some (.str linked) =>
    if linked ≠ "" then none else some (tgUser.putEmail email)
  | _ => some (tgUser.putEmail email)

def ProfileEdit.apply : ProfileEdit → User → Option User
  | .setMetadata key value => Sessions.setMetadata key value
  | .linkTelegramAccount tgMetadata => Sessions.linkTelegramAccount tgMetadata
  | .linkEmailAccount email => Sessions.linkEmailAccount email

inductive Call where
  | autoRenewSubscription (planID : Option Int) (planTotalPrice : Int) (newEndsAt : Option Time) (maxDevices : Int)
  | updateExternalID (extID : String)
  | updatePaymentStatus (status : String) (expectedStatuses : List String)
  | processExternalPaymentStatus (extID status : String)
  | adjustBalance (amount : Int)
  | addReferralReward (paymentID reward : Int)
  | editProfile (edit : ProfileEdit)

/-- The statement a transaction issues next, with the local variables that are still used. -/
inductive Point where
  -- `AutoRenewSubscription`
  | findSubscription (r : Renewal)
  | findPlan (r : Renewal) (sub : Subscription) (planID : Int)
  | debit (r : Renewal) (sub : Subscription) (terms : Terms)
  | update (r : Renewal) (sub : Subscription) (terms : Terms)
  | resetNotifications (r : Renewal) (sub : Subscription) (terms : Terms)
  | updateMetadata (r : Renewal) (sub : Subscription) (plan : Plan)
  -- payments
  | findPayment (extID : String)
  | savePayment (payment : Payment)
  | updateStatus (status : String) (expectedStatuses : List String)
  | findUpdated
  | findByExternalID (extID mappedStatus : String)
  | updateStatusIfNotCompleted (payment : Payment) (mappedStatus : String)
  | findLatest (payment : Payment) (planID : Int)
  | creditPayment (payment : Payment)
  -- the user
  | adjustBalance (amount : Int)
  | countRewards (paymentID reward : Int)
  | addBalance (paymentID reward : Int)
  | createReward (paymentID : Int)
  | findUser (edit : ProfileEdit)
  | saveUser (user : User)
  | commit
  | ended (committed : Bool)

def Call.entry : Call → Point
  | .autoRenewSubscription planID price newEndsAt maxDevices =>
      .findSubscription ⟨planID, price, newEndsAt, maxDevices, none⟩
  | .updateExternalID extID => .findPayment extID
  | .updatePaymentStatus status expected => .updateStatus status expected
  | .processExternalPaymentStatus extID status => .findByExternalID extID (mapExternalStatus status)
  | .adjustBalance amount => .adjustBalance amount
  | .addReferralReward paymentID reward => .countRewards paymentID reward
  | .editProfile edit => .findUser edit

/-- What a statement, or the end of a part of a transaction, has done. -/
inductive Note where
  | credited (amount : Int)
  | debited (price : Int)
  | extended (months : Int)
  | renewedUntil (endsAt : Time)
  | statusSet (status : String)
  /-- the completion of the payment was executed -/
  | completed (effect : Option Effect)
  deriving DecidableEq

def Note.isRenewal : Note → Bool
  | .extended _ | .renewedUntil _ => true
  | _ => false

structure Rows (ι : Type) where
  user : Row ι User
  subscription : Row ι Subscription
  payment : Row ι Payment
  rewards : Int → Row ι Bool
  plans : Table Plan Plan.Clash

/-- How a statement ends: the transaction goes on, or the code has an error. -/
inductive Answer (ι : Type) where
  | next (rows : Rows ι) (point : Point) (notes : List Note)
  | error

/-- A price of zero or less is not charged. -/
def Renewal.charge (r : Renewal) (sub : Subscription) (terms : Terms) : Point :=
  if 0 < r.planTotalPrice then .debit r sub terms else .update r sub terms

def Terms.note (terms : Terms) : Note :=
  match terms.plan with
  | some plan => .extended plan.months
  | none => .renewedUntil terms.endsAt

/-- The effect of the completion that the renewal is a part of. -/
def Renewal.completion (r : Renewal) (succeeded : Bool) : List Note :=
  match r.payment with
  | none => []
  | some payment => [.completed (r.planID.map (.renew payment.id payment.userID · succeeded))]

/-- The device limit of the extended subscription: the payment's own, else the current one, at least 3. -/
def extensionLimit (payment : Payment) (current : Int) : Int :=
  let requested := match payment.customData.lookup "max_devices" with
    | some (.num n) => n.toInt
    | _ => current
  if requested < 3 then 3 else requested

def extension (payment : Payment) (planID current : Int) : Renewal :=
  ⟨some planID, 0, none, extensionLimit payment current, some payment⟩

def complete (payment : Payment) : Point × List Note :=
  match payment.planID with
  | some planID => (.findLatest payment planID, [])
  | none => if payment.method ≠ "balance" then (.creditPayment payment, []) else (.commit, [.completed none])

section

variable {ι : Type} [DecidableEq ι]

def Rows.findPlan (rows : Rows ι) (planID : Int) : Option Plan :=
  rows.plans.first (fun _ _ => false) fun p => p.id == planID

/-- One statement; `none` while it waits for a lock, or if there is none. -/
def execute (i : ι) (now : Time) (rows : Rows ι) : Point → Option (Answer ι)
  | .findSubscription r =>
    let sub := rows.subscription.read i
    match r.planID, r.newEndsAt with
    | some planID, _ => some (.next rows (.findPlan r sub planID) [])
    | none, some endsAt => some (.next rows (r.charge sub ⟨endsAt, none⟩) [])
    | none, none => some .error
  | .findPlan r sub planID => match rows.findPlan planID with
    | some plan => some (.next rows (r.charge sub ⟨renewedEndsAt now sub plan, some plan⟩) [])
    | none => some .error
  | .debit r sub terms =>
    if r.planTotalPrice ≤ (rows.user.read i).balance then
      (rows.user.write i (.debit r.planTotalPrice)).map fun user =>
        .next { rows with user := user } (.update r sub terms) [.debited r.planTotalPrice]
    else some .error
  | .update r sub terms =>
    (rows.subscription.write i (activateRow now terms.endsAt r.maxDevices)).map fun subscription =>
      .next { rows with subscription := subscription } (.resetNotifications r sub terms) [terms.note]
  | .resetNotifications r sub terms => match terms.plan with
    | some plan => some (.next rows (.updateMetadata r sub plan) [])
    | none => some (.next rows .commit (r.completion true))
  | .updateMetadata r sub plan =>
    (rows.subscription.write i (writeMetadata now (renewedMetadata sub plan))).map fun subscription =>
      .next { rows with subscription := subscription } .commit (r.completion true)
  | .findPayment extID => some (.next rows (.savePayment { rows.payment.read i with externalID := some extID }) [])
  | .savePayment payment => (rows.payment.write i fun _ => payment).map fun payment =>
      .next { rows with payment := payment } .commit []
  | .updateStatus status expected =>
    if Store.updateStatusWhere (rows.payment.read i).id status expected (rows.payment.read i) then
      (rows.payment.write i (.setStatus status)).map fun payment =>
        .next { rows with payment := payment } (if status = "completed" then .findUpdated else .commit) [.statusSet status]
    else some (.next rows .commit [])
  | .findUpdated =>
    let (point, notes) := complete (rows.payment.read i)
    some (.next rows point notes)
  | .findByExternalID extID mappedStatus =>
    let payment := rows.payment.read i
    if payment.externalID ≠ some extID then some .error
    else if payment.status = mappedStatus ∨ payment.status = "completed" then some (.next rows .commit [])
    else some (.next rows (.updateStatusIfNotCompleted payment mappedStatus) [])
  | .updateStatusIfNotCompleted payment mappedStatus =>
    if Store.ifNotCompletedWhere payment.id (rows.payment.read i) then
      let (point, notes) := if mappedStatus = "completed" then complete payment else (.commit, [])
      (rows.payment.write i (.setStatus mappedStatus)).map fun row =>
        .next { rows with payment := row } point (.statusSet mappedStatus :: notes)
    else some (.next rows .commit [])
  | .findLatest payment planID =>
    some (.next rows (.findSubscription (extension payment planID (rows.subscription.read i).maxDevices)) [])
  | .creditPayment payment => (rows.user.write i (.adjust payment.amount)).map fun user =>
      .next { rows with user := user } .commit
        [.credited payment.amount, .completed (some (.credit payment.id payment.userID payment.amount))]
  | .adjustBalance amount => (rows.user.write i (.adjust amount)).map fun user =>
      .next { rows with user := user } .commit [.credited amount]
  | .countRewards paymentID reward =>
    if (rows.rewards paymentID).read i then some (.next rows .commit [])
    else some (.next rows (.addBalance paymentID reward) [])
  | .addBalance paymentID reward =>
    (rows.user.write i fun user => { user with balance := user.balance + reward }).map fun user =>
      .next { rows with user := user } (.createReward paymentID) [.credited reward]
  | .createReward paymentID =>
    -- the unique index on `payment_id`
    if (rows.rewards paymentID).read i then some .error
    else ((rows.rewards paymentID).write i fun _ => true).map fun reward =>
      .next { rows with rewards := Function.update rows.rewards paymentID reward } .commit []
  | .findUser edit => match edit.apply (rows.user.read i) with
    | some user => some (.next rows (.saveUser user) [])
    | none => some .error
  | .saveUser user => (rows.user.write i fun _ => user).map fun user => .next { rows with user := user } .commit []
  | .commit => none
  | .ended _ => none

structure Session where
  point : Point
  notes : List Note := []

structure System (ι : Type) where
  rows : Rows ι
  sessions : ι → Session
  /-- the committed transactions with their notes, oldest first -/
  commits : List (ι × List Note) := []

def System.journal (s : System ι) : List Note := s.commits.flatMap Prod.snd

def Rows.commit (rows : Rows ι) (i : ι) : Rows ι where
  user := rows.user.commit i
  subscription := rows.subscription.commit i
  payment := rows.payment.commit i
  rewards := fun paymentID => (rows.rewards paymentID).commit i
  plans := rows.plans

def Rows.rollback (rows : Rows ι) (i : ι) : Rows ι where
  user := rows.user.rollback i
  subscription := rows.subscription.rollback i
  payment := rows.payment.rollback i
  rewards := fun paymentID => (rows.rewards paymentID).rollback i
  plans := rows.plans

namespace System

def proceed (s : System ι) (i : ι) (rows : Rows ι) (point : Point) (notes : List Note) : System ι :=
  { s with rows := rows, sessions := Function.update s.sessions i ⟨point, notes⟩ }

def abort (s : System ι) (i : ι) : System ι := s.proceed i (s.rows.rollback i) (.ended false) []

def commit (s : System ι) (i : ι) : System ι where
  rows := s.rows.commit i
  sessions := Function.update s.sessions i ⟨.ended true, []⟩
  commits := s.commits ++ [(i, (s.sessions i).notes)]

/-- An error in a renewal. A payment goes on after it, from its savepoint. -/
def renewalFailed (s : System ι) (i : ι) (r : Renewal) : System ι :=
  match r.payment with
  | none => s.abort i
  | some _ =>
    s.proceed i { s.rows with subscription := s.rows.subscription.rollback i } .commit
      ((s.sessions i).notes.filter (!·.isRenewal) ++ r.completion false)

def failed (s : System ι) (i : ι) : System ι :=
  let session := s.sessions i
  match session.point with
  | .findSubscription r => s.renewalFailed i r
  | .findPlan r _ _ => s.renewalFailed i r
  | .debit r _ _ => s.renewalFailed i r
  | .update r _ _ => s.renewalFailed i r
  | .resetNotifications r _ _ => s.renewalFailed i r
  | .updateMetadata r _ _ => s.renewalFailed i r
  -- the error of this read is not reported
  | .findUpdated => s.proceed i s.rows .commit session.notes
  | .findLatest payment planID => s.proceed i s.rows (.findSubscription (extension payment planID 3)) session.notes
  | _ => s.abort i

end System

/-- The next statement of a transaction, and whether the storage fails it. -/
structure Statement (ι : Type) where
  tx : ι
  now : Time := 0
  fails : Bool := false

def step (s : System ι) (e : Statement ι) : Option (System ι) :=
  let session := s.sessions e.tx
  match session.point with
  | .ended _ => none
  | .commit => some (if e.fails then s.abort e.tx else s.commit e.tx)
  | point =>
    if e.fails then some (s.failed e.tx)
    else (execute e.tx e.now s.rows point).map fun
      | .error => s.failed e.tx
      | .next rows point notes => s.proceed e.tx rows point (session.notes ++ notes)

/-- What the rows hold before the calls. -/
structure Account where
  user : User
  subscription : Subscription
  payment : Payment
  /-- the payments with a referral reward -/
  rewards : List Int := []
  plans : Table Plan Plan.Clash := .empty

def initial (account : Account) (calls : ι → Call) : System ι where
  rows := ⟨⟨account.user, none⟩, ⟨account.subscription, none⟩, ⟨account.payment, none⟩,
    fun paymentID => ⟨account.rewards.contains paymentID, none⟩, account.plans⟩
  sessions := fun i => ⟨(calls i).entry, []⟩

end

end Xraytool.Sessions
