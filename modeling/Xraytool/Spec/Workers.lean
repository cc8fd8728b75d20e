import Xraytool.Spec.Handlers

/-! What changes the engines besides the API handlers: the payment handlers of the billing plugin, the expiry
worker, the cleaner of antifraud bans and the synchronisation at the start of the server. -/

namespace Xraytool

open Fallible

inductive PaidOp where
  | findPayment
  | findSubscription
  | deleteNotifications
  | findOwner
  deriving DecidableEq

structure PaidEnv where
  billing : BillingEnv
  fails : PaidOp → Bool := fun _ => false
  /-- the plugin has an engine -/
  engine : Bool := true

/-- The billing plugin's `unbanUserInXrayAsync`: a completed payment does not override a global ban. -/
def restorePaid (env : PaidEnv) (sub : Subscription) (s : Store) : List EngineCall :=
  if ¬ env.engine ∨ sub.status ≠ "active" ∨ sub.email = "" ∨ sub.uuid = "" then []
  else match issue (env.fails .findOwner) .storage (s.findUserByID sub.userID) with
    | .error _ => []
    | .ok user => if user.isBlocked then [] else [.addUser (restoredUser sub)]

/-- What both payment handlers do for the payer of a completed payment. -/
def afterCompleted (env : PaidEnv) (payment : Payment) (s : Store) : Handled :=
  match issue (env.fails .findSubscription) .storage (s.findLatestByUserID payment.userID) with
  | .error _ => { store := s }
  | .ok sub =>
    let s := attempt (issue (env.fails .deleteNotifications) Err.storage
      (.ok (s.deleteNotificationsBySubID sub.id))) s
    { store := s, calls := restorePaid env sub s }

def handleUpdatePaymentStatus (env : PaidEnv) (paymentID : Int) (status : String) (expectedStatuses : List String)
    (s : Store) : Handled :=
  if paymentID ≤ 0 then refuse s 400 "invalid payment id"
  else if status = "" then refuse s 400 "status is required"
  else match updatePaymentStatus env.billing paymentID status expectedStatuses s with
    | .error _ => refuse s 500 "db error"
    | .ok (s, outcome) =>
      if ¬ outcome.updated then refuse s 409 "payment not in expected status"
      else if status = "completed" then
        match issue (env.fails .findPayment) .storage (s.findPaymentByID paymentID) with
        | .error _ => { store := s }
        | .ok payment => afterCompleted env payment s
      else { store := s }

/-- `handlePaymentCallback` after the provider has verified the callback. Local failures are only logged. -/
def handlePaymentCallback (env : PaidEnv) (externalID status : String) (s : Store) : Handled :=
  if trimSpace externalID = "" ∨ trimSpace status = "" then refuse s 400 "payment callback result is incomplete"
  else match processExternalPaymentStatus env.billing externalID status s with
    | .error _ => { store := s }
    | .ok (s, _) =>
      if status = "completed" then
        match issue (env.fails .findPayment) .storage (s.findPaymentByExternalID externalID) with
        | .error _ => { store := s }
        | .ok payment => if payment.status ≠ "completed" then { store := s } else afterCompleted env payment s
      else { store := s }

inductive ExpiryOp where
  | findByStatus
  | countDevices
  | oldestDevices (subID : String)
  | deleteDevices
  | createNotification (subID level : String)
  | removeUsersBulk
  | updateStatus (subID : String)
  deriving DecidableEq

structure ExpiryEnv where
  now : Time := 0
  /-- the configured warnings, each with its duration if the text is one -/
  warnings : List (String × Option Int) := []
  fails : ExpiryOp → Bool := fun _ => false

/-- `handleWarnings`: record every warning that is due; the shortest one recorded now is sent. -/
def handleWarnings (env : ExpiryEnv) (sub : Subscription) (timeLeft : Int) (s : Store) : Store × Option String :=
  let warn (acc : Store × Option (String × Int)) (w : String × Option Int) : Store × Option (String × Int) :=
    match w.2 with
    | none => acc
    | some duration =>
      if duration < timeLeft ∨ env.fails (.createNotification sub.id w.1) then acc
      else
        let (s, inserted) := acc.1.createNotification env.now sub.id w.1
        let shorter := match acc.2 with
          | none => true
          | some (_, minimum) => duration < minimum
        (s, if inserted && shorter then some (w.1, duration) else acc.2)
  let (s, triggered) := env.warnings.foldl warn (s, none)
  (s, triggered.map (·.1))

/-- The devices beyond the limit of a subscription, the oldest first; a limit that is not positive is 3. -/
def excessDevices (env : ExpiryEnv) (s : Store) (sub : Subscription) : List Int :=
  let limit := if sub.maxDevices ≤ 0 then 3 else sub.maxDevices
  -- without the counts of the first query every count is 0
  let count := if env.fails .countDevices then 0 else s.countDevices sub.id
  if limit < count ∧ ¬ env.fails (.oldestDevices sub.id) then
    (s.findOldestDevices sub.id (count - limit).toNat).map (·.id)
  else []

/-- `handleExpiredBulk`: remove all of them from the engine, then mark each row that is still active. -/
def handleExpiredBulk (env : ExpiryEnv) (subs : List Subscription) (s : Store) : Store × List EngineCall :=
  let calls := [EngineCall.removeUsersBulk (subs.map (·.email))]
  if env.fails .removeUsersBulk then (s, calls)
  else
    (subs.foldl (fun s sub =>
      if env.fails (.updateStatus sub.id) then s else (s.updateStatusIfActive env.now sub.id "expired").1) s, calls)

def isExpired (now : Time) (sub : Subscription) : Bool := sub.endsAt.any (· ≤ now)

/-- The walk over the loaded rows: warnings are recorded, and devices beyond the limit deleted after it. -/
def walkSubscriptions (env : ExpiryEnv) (subs : List Subscription) (s : Store) : Store :=
  let excess := (subs.filter fun sub => !isExpired env.now sub).flatMap (excessDevices env s)
  let s := subs.foldl (fun s sub => match sub.endsAt with
    | some endsAt => if endsAt ≤ env.now then s else (handleWarnings env sub (endsAt - env.now) s).1
    | none => s) s
  if excess = [] ∨ env.fails .deleteDevices then s else s.deleteDevices excess

def processOnce (env : ExpiryEnv) (s : Store) : Handled :=
  if env.fails .findByStatus then { store := s }
  else
    let subs := s.findByStatus "active"
    let s := walkSubscriptions env subs s
    let expired := subs.filter (isExpired env.now)
    if expired = [] then { store := s }
    else
      let (s, calls) := handleExpiredBulk env expired s
      { store := s, calls := calls }

inductive CleanerOp where
  | findExpired
  | findSubscription (email : String)
  | findUser (email : String)
  | unbanUser (email : String)
  | deleteBan (email : String)
  deriving DecidableEq

structure CleanerEnv where
  now : Time := 0
  fails : CleanerOp → Bool := fun _ => false

def discardExpiredBan (env : CleanerEnv) (email : String) (s : Store) : Store :=
  attempt (issue (env.fails (.deleteBan email)) Err.storage (.ok (s.deleteBanByEmail email))) s

/-- `tryUnban`: only an account that is still eligible is put back, and then its ban is deleted. -/
def tryUnban (env : CleanerEnv) (email : String) (s : Store) : Store × List EngineCall :=
  match issue (env.fails (.findSubscription email)) .storage (s.findLatestByEmail email) with
  | .error err => (if err = .notFound then discardExpiredBan env email s else s, [])
  | .ok sub => match issue (env.fails (.findUser email)) .storage (s.findUserByID sub.userID) with
    | .error err => (if err = .notFound then discardExpiredBan env email s else s, [])
    | .ok user =>
      if user.isBlocked ∨ sub.status ≠ "active" ∨ isExpired env.now sub then (discardExpiredBan env email s, [])
      else (if env.fails (.unbanUser email) then s else discardExpiredBan env email s, [.unbanUser email])

def processExpired (env : CleanerEnv) (s : Store) : Handled :=
  if env.fails .findExpired then { store := s }
  else
    let (s, calls) := (s.findExpiredBans env.now).foldl (fun (acc : Store × List EngineCall) ban =>
      let (s, calls) := tryUnban env ban.email acc.1
      (s, acc.2 ++ calls)) (s, [])
    { store := s, calls := calls }

/-! ### The start of the server -/

structure SyncEnv where
  ext : Externals
  isMaster : Bool := true
  template : String := ""
  findAllFails : Bool := false

/-- The initial synchronisation hands every active subscription with an email and a UUID to the engine. -/
def initialSync (env : SyncEnv) (s : Store) : Handled :=
  if ¬ env.isMaster ∨ env.template = "" ∨ env.findAllFails then { store := s }
  else
    let dbUsers := (s.subscriptions.rows.filter fun sub =>
      sub.status == "active" && sub.email != "" && sub.uuid != "").map (subscriptionToVPNUserConfig env.ext)
    { store := s, calls := [.syncUsers dbUsers false] }

/-! One pass of the expiry worker, step by step. Renewals are transactions of their own and may commit between any two
of its steps. -/

inductive ExpiryPhase where
  | start
  /-- the rows of `FindByStatus` -/
  | loaded (subs : List Subscription)
  /-- the expired ones, to be removed from the engine -/
  | expired (subs : List Subscription)
  /-- the rows still to be marked -/
  | marking (subs : List Subscription)
  | done
  deriving DecidableEq

def ExpiryPhase.finished : ExpiryPhase → Bool
  | .done | .marking [] => true
  | _ => false

structure ExpiryScene where
  store : Store
  clock : Time
  phase : ExpiryPhase := .start
  /-- the status updates of the pass so far: the subscription and the time of the update -/
  updates : List (String × Time) := []
  deriving DecidableEq

/-- The arguments of `AutoRenewSubscription`, with the statements of it that fail. -/
structure RenewCall where
  nested : Bool := false
  fails : RenewOp → Bool := fun _ => false
  now : Time
  userID : String
  planID : Option Int := none
  price : Int := 0
  newEndsAt : Option Time := none
  maxDevices : Int := 3

def RenewCall.apply (c : RenewCall) : Store → Except Err Store :=
  autoRenewSubscription c.nested c.fails c.now c.userID c.planID c.price c.newEndsAt c.maxDevices

inductive ExpiryLabel where
  | findByStatus (fails : Bool)
  | walk (env : ExpiryEnv)
  | removeUsersBulk (fails : Bool)
  | updateStatus (now : Time) (fails : Bool)
  | renew (call : RenewCall)

/-- One step of the pass, or one renewal. Time does not run backwards. -/
def expiryStep (st : ExpiryScene) : ExpiryLabel → Option ExpiryScene
  | .findByStatus fails => match st.phase with
    | .start => some { st with phase := if fails then .done else .loaded (st.store.findByStatus "active") }
    | _ => none
  | .walk env => match st.phase with
    | .loaded subs =>
      let expired := subs.filter (isExpired env.now)
      if st.clock ≤ env.now then
        some { st with
          store := walkSubscriptions env subs st.store
          clock := env.now
          phase := if expired = [] then .done else .expired expired }
      else none
    | _ => none
  | .removeUsersBulk fails => match st.phase with
    | .expired subs => some { st with phase := if fails then .done else .marking subs }
    | _ => none
  | .updateStatus now fails => match st.phase with
    | .marking (sub :: rest) =>
      if now < st.clock then none
      else if fails then some { st with clock := now, phase := .marking rest }
      else
        some { st with
          store := (st.store.updateStatusIfActive now sub.id "expired").1
          clock := now
          phase := .marking rest
          updates := st.updates ++ [(sub.id, now)] }
    | _ => none
  | .renew call =>
    if st.clock ≤ call.now then match call.apply st.store with
      | .ok s => some { st with store := s, clock := call.now }
      | .error _ => some { st with clock := call.now }
    else none

/-! The analyzer that enforces a ban and the cleaner that lifts expired ones, call by call. Each is one goroutine. Of
the engine only the failure of its calls matters here. -/

instance : DecidableRel AntifraudBan.Clash := fun a b => inferInstanceAs (Decidable (a.id = b.id ∨ a.email = b.email))

def AntifraudBan.renew (bannedAt expiresAt : Time) (ban : AntifraudBan) : AntifraudBan :=
  { ban with bannedAt := bannedAt, expiresAt := expiresAt }

theorem AntifraudBan.keeps_renew {bannedAt expiresAt : Time} :
    Table.Keeps AntifraudBan.Clash (.renew bannedAt expiresAt) := fun _ _ => ⟨fun h => h, fun h => h⟩

/-- `Upsert`: `INSERT … ON CONFLICT (email) DO UPDATE`. -/
def Store.upsertBan (s : Store) (email : String) (bannedAt expiresAt : Time) : Store :=
  match s.bans.insert ⟨s.bans.nextKey (·.id), email, bannedAt, expiresAt⟩ with
  | some bans => { s with bans := bans }
  | none =>
    { s with
      bans := s.bans.updateWhere (·.email == email) (.renew bannedAt expiresAt)
        AntifraudBan.keeps_renew }

/-- The analyzer by the call it makes next. -/
inductive EnforcePoint where
  | idle
  | upsert (email : String) (bannedAt expiresAt : Time)
  | setBan (email : String) (expiresAt : Time)
  | banUser (email : String)
  deriving DecidableEq

/-- The cleaner by the call it makes next; `rest` are the bans it has still to try. -/
inductive CleanerPoint where
  | idle
  | findSubscription (email : String) (rest : List String)
  | findUser (email : String) (sub : Subscription) (rest : List String)
  | unbanUser (email : String) (rest : List String)
  | deleteBan (email : String) (rest : List String)
  | clearBan (email : String) (rest : List String)
  deriving DecidableEq

structure BanScene where
  store : Store
  /-- `banStore.bans` -/
  bans : List (String × Time) := []
  analyzer : EnforcePoint := .idle
  cleaner : CleanerPoint := .idle
  clock : Time
  /-- the end of the ban that `enforce` has stored last for an email -/
  enforced : List (String × Time) := []
  deriving DecidableEq

/-- The loop of `processExpired`. -/
def CleanerPoint.next : List String → CleanerPoint
  | [] => .idle
  | email :: rest => .findSubscription email rest

def BanScene.enforceCall (fails : Bool) (st : BanScene) : Option BanScene :=
  match st.analyzer with
  | .idle => none
  | .upsert email bannedAt expiresAt =>
    if fails then some { st with analyzer := .idle }
    else some { st with
      store := st.store.upsertBan email bannedAt expiresAt
      analyzer := .setBan email expiresAt
      enforced := Assoc.put st.enforced email expiresAt }
  | .setBan email expiresAt =>
    some { st with bans := Assoc.put st.bans email expiresAt, analyzer := .banUser email }
  | .banUser _ => some { st with analyzer := .idle }

/-- A lookup of `tryUnban`: where the row is gone the ban is discarded, after another error it is left. -/
def CleanerPoint.afterLookup {α : Type} (email : String) (rest : List String) (found : Except Err α)
    (go : α → CleanerPoint) : CleanerPoint :=
  match found with
  | .ok a => go a
  | .error err => if err = .notFound then .deleteBan email rest else .next rest

/-- One call of `tryUnban`. -/
def BanScene.cleanerCall (now : Time) (fails : Bool) (st : BanScene) : Option BanScene :=
  match st.cleaner with
  | .idle => none
  | .findSubscription email rest =>
    some { st with
      cleaner := .afterLookup email rest (issue fails .storage (st.store.findLatestByEmail email))
        fun sub => .findUser email sub rest }
  | .findUser email sub rest =>
    some { st with
      cleaner := .afterLookup email rest (issue fails .storage (st.store.findUserByID sub.userID))
        fun user =>
          if user.isBlocked ∨ sub.status ≠ "active" ∨ isExpired now sub then .deleteBan email rest
          else .unbanUser email rest }
  | .unbanUser email rest => some { st with cleaner := if fails then .next rest else .deleteBan email rest }
  | .deleteBan email rest =>
    if fails then some { st with cleaner := .next rest }
    else some { st with store := st.store.deleteBanByEmail email, cleaner := .clearBan email rest }
  | .clearBan email rest => some { st with bans := Assoc.drop st.bans email, cleaner := .next rest }

inductive BanAction where
  /-- the analyzer begins `enforce` -/
  | enforce (email : String) (banDuration : Int)
  | enforceCall (fails : Bool)
  /-- the cleaner begins a pass with `FindExpired` -/
  | processExpired (fails : Bool)
  | cleanerCall (fails : Bool)
  deriving DecidableEq

def BanAction.perform (now : Time) (st : BanScene) : BanAction → Option BanScene
  | .enforce email banDuration =>
    if st.analyzer = .idle then some { st with analyzer := .upsert email now (now + banDuration) } else none
  | .enforceCall fails => st.enforceCall fails
  | .processExpired fails =>
    if st.cleaner = .idle then
      some { st with cleaner := if fails then .idle else .next ((st.store.findExpiredBans now).map (·.email)) }
    else none
  | .cleanerCall fails => st.cleanerCall now fails

/-- The clock never goes back. -/
def banStep (st : BanScene) (l : Time × BanAction) : Option BanScene :=
  if l.1 < st.clock then none else (l.2.perform l.1 st).map fun st' => { st' with clock := l.1 }

end Xraytool
