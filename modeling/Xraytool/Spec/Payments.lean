import Mathlib.Algebra.Group.Nat.Defs
import Xraytool.Lib.ReadCommitted
import Xraytool.Spec.Handlers

/-! `CreatePayment` of the billing plugin. The price comes from the pricing engine if there is one, else from the
service itself; then one transaction counts the use of the promo code and stores the payment as pending. `custom_data`
is JSON, so every number in it is a float64 when the payment is read again. -/

namespace Xraytool

open Fallible

/-! ### Numbers read back from JSON -/

/-- The float64 nearest to an integer, the even one of two. -/
def float64OfInt (i : Int) : Int :=
  let ulp := 2 ^ (i.natAbs.log2 - 52)
  let q := i.natAbs / ulp
  let r := i.natAbs % ulp
  let rounded := if 2 * r < ulp ∨ (2 * r = ulp ∧ q % 2 = 0) then q else q + 1
  i.sign * (rounded * ulp)

/-- What the decoder makes of a number that was written as JSON. -/
def Number.readBack : Number → Number
  | .float q => .float q
  | .int i => .float (float64OfInt i)

mutual

def Json.readBack : Json Number → Json Number
  | .num n => .num n.readBack
  | .arr items => .arr (Json.readBackItems items)
  | .obj fields => .obj (Json.readBackFields fields)
  | .null => .null
  | .bool b => .bool b
  | .str s => .str s

def Json.readBackItems : List (Json Number) → List (Json Number)
  | [] => []
  | item :: items => item.readBack :: Json.readBackItems items

def Json.readBackFields : List (String × Json Number) → List (String × Json Number)
  | [] => []
  | (key, value) :: fields => (key, value.readBack) :: Json.readBackFields fields

end

structure CreatePaymentRequest where
  telegramID : Int := 0
  email : String := ""
  amount : Int := 0
  paymentType : String := ""
  method : String := ""
  externalID : String := ""
  planID : Option Int := none
  maxDevices : Int := 0
  promoCode : String := ""
  platform : String := ""
  customData : Metadata := []
  deriving DecidableEq

def CreatePaymentRequest.check (req : CreatePaymentRequest) : Except Err Unit :=
  if req.telegramID = 0 ∧ req.email = "" then .error (.text "telegram_id or email is required")
  else if req.planID = none ∧ req.amount ≤ 0 then .error (.text "amount must be positive if plan_id is missing")
  else if req.paymentType = "" then .error (.text "payment_type is required")
  else .ok ()

/-- The custom data of the payment; the caller's own entries are merged over those of the service. -/
def CreatePaymentRequest.paymentData (req : CreatePaymentRequest) : Metadata :=
  let data : Metadata := [("telegram_id", .num (.int req.telegramID))]
  let data := if req.platform ≠ "" then Assoc.put data "platform" (.str req.platform) else data
  let data := if 0 < req.maxDevices then Assoc.put data "max_devices" (.num (.int req.maxDevices)) else data
  req.customData.foldr (fun entry data => Assoc.put data entry.1 entry.2) data

inductive PaymentOp where
  | findUser
  | findPlan
  | findSubscription
  | findPromo
  | begin
  | findPromoByID
  | incrementUses
  | countByUserAndPromo
  | create
  | commit
  deriving DecidableEq

structure PricingRequest where
  userID : String
  planID : Int := 0
  promoCode : String := ""
  extraDevices : Int := 0
  isUpgrade : Bool := false
  amount : Int := 0
  plan : Option Plan := none
  currentSubscription : Option Subscription := none
  maxDevices : Int := 0
  platform : String := ""
  promo : Option PromoCode := none
  now : Time

structure PricingResult where
  finalPrice : Int
  appliedPromoID : Option Int := none
  deriving DecidableEq

abbrev PricingEngine := PricingRequest → Except Err PricingResult

/-- The promo code is active, not expired and for this platform. -/
def promoEligible (now : Time) (platform : String) (promo : PromoCode) : Bool :=
  promo.isActive && (promo.expiresAt.all fun expiresAt => now < expiresAt) &&
    (promo.targetPlatform == "all" || promo.targetPlatform == toLower (trimSpace platform))

def globalPrice (plan : Plan) (baseAmount : Int) : Int :=
  if 0 < plan.globalDiscountPercent then discounted baseAmount plan.globalDiscountPercent else baseAmount

/-- The cheaper of the plan's own discount and the promo code; of equal prices the promo code is taken. -/
def cheaperPrice (plan : Plan) (baseAmount : Int) (promo : Option PromoCode) : PricingResult :=
  let promoPrice := match promo with
    | some promo => discounted baseAmount promo.discountPercent
    | none => baseAmount
  if globalPrice plan baseAmount < promoPrice then ⟨globalPrice plan baseAmount, none⟩
  else ⟨promoPrice, promo.map (·.id)⟩

namespace PricingDefault

def eligiblePromo (req : PricingRequest) : Option PromoCode :=
  if req.promoCode = "" then none else req.promo.filter (promoEligible req.now req.platform)

/-- `CalculatePrice` of the plugin `pricing_default`. -/
def calculatePrice : PricingEngine := fun req =>
  match req.plan with
  | none =>
    if req.planID ≠ 0 then .error (.text "pricing_default: plan snapshot is required for a plan payment")
    else .ok ⟨req.amount, (eligiblePromo req).map (·.id)⟩
  | some plan =>
    let maxDevices := if req.maxDevices = 0 ∧ 0 < req.extraDevices then 3 + req.extraDevices else req.maxDevices
    let upgrade := match req.currentSubscription with
      | some sub => upgradeCost req.now maxDevices sub
      | none => 0
    let baseAmount := int64 (plan.basePrice + (extraDevices maxDevices plan.months + upgrade))
    .ok (cheaperPrice plan baseAmount (eligiblePromo req))

end PricingDefault

structure PaymentEnv where
  now : Time := 0
  fails : PaymentOp → Bool := fun _ => false
  /-- the installed pricing engine -/
  pricing : Option PricingEngine := none

def invalidPlanID : Err := .text "invalid plan_id"

variable (env : PaymentEnv)

def requestedPlan (req : CreatePaymentRequest) (s : Store) : Except Err (Option Plan) :=
  match req.planID with
  | none => .ok none
  | some planID => match issue (env.fails .findPlan) .storage (s.findPlanByID planID) with
    | .error _ => .error invalidPlanID
    | .ok plan => .ok (some plan)

/-- The promo code of the request; one that cannot be read is ignored. -/
def requestedPromo (req : CreatePaymentRequest) (s : Store) : Option PromoCode :=
  if req.promoCode = "" then none
  else match issue (env.fails .findPromo) .storage (s.findPromoByCode (toUpper (trimSpace req.promoCode))) with
    | .ok promo => some promo
    | .error _ => none

def latestSubscription (userID : String) (s : Store) : Option Subscription :=
  match issue (env.fails .findSubscription) .storage (s.findLatestByUserID userID) with
  | .ok sub => some sub
  | .error _ => none

def calculatePriceWithEngine (pricing : PricingEngine) (env : PaymentEnv) (userID : String)
    (req : CreatePaymentRequest) (s : Store) : Except Err PricingResult := do
  let plan ← requestedPlan env req s
  let currentSub := if plan.isSome then latestSubscription env userID s else none
  let isUpgrade := currentSub.any fun sub =>
    (sub.endsAt.any fun endsAt => env.now < endsAt) && decide (sub.maxDevices < req.maxDevices)
  (pricing
    { userID := userID
      planID := req.planID.getD 0
      promoCode := req.promoCode
      extraDevices := max (req.maxDevices - 3) 0
      isUpgrade := isUpgrade
      amount := req.amount
      plan := plan
      currentSubscription := currentSub
      maxDevices := req.maxDevices
      platform := req.platform
      promo := requestedPromo env req s
      now := env.now }).mapError (.wrap "failed to calculate payment price")

def calculatePriceLegacy (userID : String) (req : CreatePaymentRequest) (s : Store) : Except Err PricingResult := do
  let plan ← requestedPlan env req s
  let promo := (requestedPromo env req s).filter (promoEligible env.now req.platform)
  match plan with
  | none => .ok ⟨req.amount, promo.map (·.id)⟩
  | some plan =>
    let upgrade := match latestSubscription env userID s with
      | some sub => upgradeCost env.now req.maxDevices sub
      | none => 0
    let baseAmount := int64 (plan.basePrice + (extraDevices req.maxDevices plan.months + upgrade))
    .ok (cheaperPrice plan baseAmount promo)

def calculatePaymentPrice (userID : String) (req : CreatePaymentRequest) (s : Store) : Except Err PricingResult :=
  match env.pricing with
  | some pricing => calculatePriceWithEngine pricing env userID req s
  | none => calculatePriceLegacy env userID req s

def findPromoByID (s : Store) (id : Int) : Except Err PromoCode :=
  found (s.promos.first (fun _ _ => false) fun p => p.id == id)

def findPayer (req : CreatePaymentRequest) (s : Store) : Except Err User :=
  let user := if req.telegramID ≠ 0 then s.findUserByPlatformID "telegram" (toString req.telegramID)
    else s.findUserByPlatformID "web" req.email
  (issue (env.fails .findUser) .storage user).mapError fun _ => .text "user not found"

/-- The payment with its price, as it is before it is stored; its id is not yet known. -/
def preparePayment (req : CreatePaymentRequest) (s : Store) : Except Err Payment := do
  req.check
  let user ← findPayer env req s
  let price ← calculatePaymentPrice env user.id req s
  .ok
    { id := 0
      userID := user.id
      amount := price.finalPrice
      status := "pending_card"
      paymentType := req.paymentType
      method := req.method
      externalID := if req.externalID = "" then none else some req.externalID
      customData := Json.readBackFields req.paymentData
      planID := req.planID
      promoCodeID := price.appliedPromoID }

def promoLimit : Err := .text "promo limit"

def promoUsedByUser : Err := .text "promo used by user"

/-- Count a use of the promo code; for an unlimited code the error is dropped. -/
def countPromoUse (promoID : Int) (promo : PromoCode) (s : Store) : Except Err Store :=
  if 0 < promo.maxUses then
    match issue (env.fails .incrementUses) .storage (.ok (s.incrementUses promoID promo.maxUses)) with
    | .error err => .error err
    | .ok (s, ok) => if ok then .ok s else .error promoLimit
  else .ok (if env.fails .incrementUses then s else (s.incrementUses promoID 0).1)

/-- Validate the promo code again, count its use and refuse one that the user already has. -/
def usePromo (userID : String) (promoID : Int) (s : Store) : Except Err Store := do
  let promo ← (issue (env.fails .findPromoByID) .storage (findPromoByID s promoID)).mapError (.wrap "promo not found")
  if ¬ promo.isActive then .error (.text "promo inactive")
  else if ∃ expiresAt ∈ promo.expiresAt, expiresAt ≤ env.now then .error (.text "promo expired")
  else
    let s ← countPromoUse env promoID promo s
    let count ← issue (env.fails .countByUserAndPromo) .storage (.ok (s.countByUserAndPromo userID promoID))
    if 0 < count then .error promoUsedByUser else .ok s

/-- The check of the promo code inside the transaction, if the payment has one. -/
def usePromoOf (p : Payment) (s : Store) : Except Err Store :=
  match p.promoCodeID with
  | some promoID => usePromo env p.userID promoID s
  | none => .ok s

def insertPayment (p : Payment) (s : Store) : Except Err (Store × Payment) :=
  let p := { p with id := s.payments.nextKey (·.id) }
  match s.payments.insert p with
  | some t => .ok ({ s with payments := t }, p)
  | none => .error .duplicate

def createPaymentTx (p : Payment) (s : Store) : Except Err (Store × Payment) :=
  transaction (env.fails .begin) (env.fails .commit) .storage do
    let s ← usePromoOf env p s
    issue (env.fails .create) .storage (insertPayment p s)

def createPaymentError (err : Err) : Err :=
  if err = promoLimit then .text "promo code usage limit reached"
  else if err = promoUsedByUser then .text "promo code already used or pending for this user"
  else match err with
    | .text "promo inactive" | .text "promo expired" | .wrap "promo not found" _ =>
      .text "promo code is no longer valid"
    | err => .wrap "failed to create payment" err

/-- `CreatePayment`. The price is read from `seen`, before the transaction on `s` begins. -/
def createPayment (req : CreatePaymentRequest) (seen s : Store) : Except Err (Store × Payment) := do
  let p ← preparePayment env req seen
  (createPaymentTx env p s).mapError createPaymentError

inductive PaymentEvent where
  /-- a payment is created; its price was read from `seen` -/
  | create (env : PaymentEnv) (req : CreatePaymentRequest) (seen : Store)
  | update (env : BillingEnv) (call : BillingCall)

/-- One call; a transaction that fails leaves the store as it was. -/
def paymentStep (s : Store) : PaymentEvent → Option Store
  | .create env req seen => match createPayment env req seen s with
    | .ok (s, _) => some s
    | .error _ => some s
  | .update env call => match call.apply env s with
    | .ok (s, _) => some s
    | .error _ => some s

inductive PromoEvent where
  | create (env : PaymentEnv) (req : CreatePaymentRequest)
  | update (env : BillingEnv) (call : BillingCall)
  | autoRenew (env : ApiEnv) (platform id : String) (body : AutoRenewBody)

structure PromoState where
  store : Store
  /-- the user and the promo code of each renewal from the balance that had its discount -/
  renewals : List (String × Int) := []
  deriving DecidableEq

def redemption (env : ApiEnv) (platform id : String) (body : AutoRenewBody) (s : Store) : Option (String × Int) :=
  (committedRenewal env platform id body s).bind fun (userID, q, _) =>
    q.applied.map fun applied => (userID, applied.promo.id)

/-- Payments and renewals, each a transaction of its own. -/
def promoStep (st : PromoState) : PromoEvent → Option PromoState
  | .create env req => (paymentStep st.store (.create env req st.store)).map fun s => { st with store := s }
  | .update env call => (paymentStep st.store (.update env call)).map fun s => { st with store := s }
  | .autoRenew env platform id body =>
    some ⟨(handleAutoRenew env platform id body st.store).store,
      st.renewals ++ (redemption env platform id body st.store).toList⟩

end Xraytool

/-! One promo code under READ COMMITTED: the transactions of `CreatePayment` that use it, and the requests that edit it.
A payment counts its use by an UPDATE with a condition. An edit reads the row and saves all its columns later. -/

namespace Xraytool.PromoEdits

open ReadCommitted

/-- The body of `handleAdminEditPromoCode`. -/
structure EditPayload where
  code : String := ""
  discountPercent : Int := 0
  maxUses : Int := 0
  targetPlatform : String := ""
  expiresAt : Option Time := none
  isActive : Option Bool := none
  deriving DecidableEq

def EditPayload.apply (payload : EditPayload) (promo : PromoCode) : PromoCode :=
  { promo with
    code := if payload.code ≠ "" then toUpper (trimSpace payload.code) else promo.code
    discountPercent :=
      if 0 < payload.discountPercent ∧ payload.discountPercent ≤ 100 then payload.discountPercent
      else promo.discountPercent
    maxUses := if 0 ≤ payload.maxUses then payload.maxUses else promo.maxUses
    targetPlatform := if payload.targetPlatform ≠ "" then payload.targetPlatform else promo.targetPlatform
    isActive := payload.isActive.getD promo.isActive
    expiresAt := payload.expiresAt }

/-- The statement a call issues next, with the local variables that are still used. -/
inductive Point where
  | idle
  -- the transaction of `CreatePayment`
  | findByID (p : Payment)
  | incrementUses (p : Payment) (maxUses : Int)
  | countByUserAndPromo (p : Payment)
  | create (p : Payment)
  | commit (p : Payment)
  -- `handleAdminEditPromoCode`
  | findToEdit (payload : EditPayload)
  | update (promo : PromoCode)
  deriving DecidableEq

structure Scene where
  row : Row Nat PromoCode
  /-- the committed payments with the promo code -/
  payments : List Payment := []
  calls : Nat → Point := fun _ => .idle

namespace Scene

def goTo (st : Scene) (i : Nat) (point : Point) : Scene := { st with calls := Function.update st.calls i point }

/-- The transaction is rolled back, or the request answered with an error. -/
def abort (st : Scene) (i : Nat) : Scene := { st with row := st.row.rollback i }.goTo i .idle

def countByUserAndPromo (st : Scene) (userID : String) : Nat :=
  st.payments.countP fun p => p.userID == userID && (p.status == "completed" || p.status == "pending_card")

/-- The UPDATE of `IncrementUses`; it waits for the lock of a row that meets its condition, and of no other. -/
def incrementUses (st : Scene) (i : Nat) (p : Payment) (maxUses : Int) : Option Scene :=
  if 0 < maxUses ∧ maxUses ≤ (st.row.read i).usesCount then some (st.abort i)
  else (st.row.write i PromoCode.use).map fun row => { st with row := row }.goTo i (.countByUserAndPromo p)

def issue (now : Time) (i : Nat) (st : Scene) : Point → Option Scene
  | .idle => none
  | .findByID p =>
    let promo := st.row.read i
    if ¬ promo.isActive ∨ ∃ expiresAt ∈ promo.expiresAt, expiresAt ≤ now then some (st.abort i)
    else some (st.goTo i (.incrementUses p promo.maxUses))
  | .incrementUses p maxUses => st.incrementUses i p maxUses
  | .countByUserAndPromo p =>
    if 0 < st.countByUserAndPromo p.userID then some (st.abort i) else some (st.goTo i (.create p))
  | .create p => some (st.goTo i (.commit p))
  | .commit p => some ({ st with row := st.row.commit i, payments := st.payments ++ [p] }.goTo i .idle)
  | .findToEdit payload => some (st.goTo i (.update (payload.apply (st.row.read i))))
  | .update promo => (st.row.write i fun _ => promo).map fun row => { st with row := row.commit i }.goTo i .idle

end Scene

inductive Action where
  /-- the transaction begins, for a payment with its price and the promo code -/
  | createPayment (p : Payment)
  | editPromoCode (payload : EditPayload)
  | statement
  /-- the next statement fails; for an unlimited promo code that of `IncrementUses` is ignored -/
  | failure
  deriving DecidableEq

def promoEditStep (st : Scene) (l : Time × Nat × Action) : Option Scene :=
  let (now, i, action) := l
  match action with
  | .createPayment p => if st.calls i = .idle then some (st.goTo i (.findByID p)) else none
  | .editPromoCode payload => if st.calls i = .idle then some (st.goTo i (.findToEdit payload)) else none
  | .statement => st.issue now i (st.calls i)
  | .failure => match st.calls i with
    | .incrementUses p maxUses =>
      some (if 0 < maxUses then st.abort i else st.goTo i (.countByUserAndPromo p))
    | _ => some (st.abort i)

end Xraytool.PromoEdits

/-! `migratePayments`: the payments of the bot's database are copied into the target, in runs that may end after any row.
A run reads the ids that are in the target once, at its start. The index on `external_id` is unique. -/

namespace Xraytool.Legacy

structure LegacyPayment where
  id : Int
  tgID : Int
  status : String := ""
  amount : Int := 0
  proofFileID : String := ""
  proofFileType : String := ""
  createdAt : String := ""
  targetLimit : Int := 0
  fullAmount : Int := 0
  externalID : String := ""
  method : String := ""
  paymentType : String := ""
  customData : String := ""

/-- `json.Unmarshal` into a map, and the texts that `parseFlexibleTime` takes. -/
structure Decoding where
  unmarshal : String → Option Metadata
  isTime : String → Bool

/-- The custom data of the new payment; the entries of the old one are merged over it. -/
def LegacyPayment.data (dec : Decoding) (lp : LegacyPayment) : Metadata :=
  let data : Metadata := [("legacy_id", .num (.int lp.id))]
  let data := if lp.proofFileID ≠ "" then Assoc.put data "proof_file_id" (.str lp.proofFileID) else data
  let data := if lp.proofFileType ≠ "" then Assoc.put data "proof_file_type" (.str lp.proofFileType) else data
  let data := if lp.targetLimit ≠ 0 then Assoc.put data "target_limit" (.num (.int lp.targetLimit)) else data
  let data := if lp.fullAmount ≠ 0 then Assoc.put data "full_amount" (.num (.int lp.fullAmount)) else data
  if lp.customData = "" then data
  else match dec.unmarshal lp.customData with
    | some cd => cd.foldl (fun data entry => Assoc.put data entry.1 entry.2) data
    | none => Assoc.put data "legacy_custom_data" (.str lp.customData)

def LegacyPayment.payment (dec : Decoding) (lp : LegacyPayment) (id : Int) (userID : String) : Payment where
  id := id
  userID := userID
  amount := lp.amount
  status := if lp.status = "success" then "completed" else lp.status
  paymentType := lp.paymentType
  method := lp.method
  externalID := if lp.externalID ≠ "" then some lp.externalID else none
  customData := Json.readBackFields (lp.data dec)

/-- The id a row of the target was imported from, if its custom data has a number there. -/
def legacyID (customData : Metadata) : Option Int :=
  match customData.lookup "legacy_id" with
  | some (.num n) => some n.toInt
  | _ => none

inductive ImportOp where
  | readLegacy
  | readUsers
  | readPayments
  | create (row : Nat)
  deriving DecidableEq

structure ImportRun where
  /-- `tgIDToUserID`, as the metadata of the users give it -/
  users : Int → Option String
  fails : ImportOp → Bool
  /-- the number of rows after which the run ends, if it is interrupted -/
  length : Nat

structure Target where
  payments : Table Payment Payment.Clash := .empty
  /-- the position in the old table of each row that was inserted -/
  imports : List Nat := []

/-- One row of the loop, for the ids that were read before it. -/
def importPayment (dec : Decoding) (run : ImportRun) (migratedLegacyIDs : List Int) (existingExternalIDs : List String)
    (t : Target) (row : LegacyPayment × Nat) : Target :=
  let (lp, i) := row
  if lp.id ∈ migratedLegacyIDs then t
  else if lp.externalID ≠ "" ∧ lp.externalID ∈ existingExternalIDs then t
  else match run.users lp.tgID with
    | none => t
    | some userID =>
      if !dec.isTime lp.createdAt || run.fails (.create i) then t
      else match t.payments.insert (lp.payment dec (t.payments.nextKey Payment.id) userID) with
        | none => t
        | some payments => ⟨payments, t.imports ++ [i]⟩

def migratePayments (dec : Decoding) (legacy : List LegacyPayment) (t : Target) (run : ImportRun) : Target :=
  if run.fails .readLegacy || run.fails .readUsers || run.fails .readPayments then t
  else
    let migratedLegacyIDs := t.payments.rows.filterMap fun p => legacyID p.customData
    let existingExternalIDs := t.payments.rows.filterMap (·.externalID)
    (legacy.zipIdx.take run.length).foldl (importPayment dec run migratedLegacyIDs existingExternalIDs) t

def importStep (dec : Decoding) (legacy : List LegacyPayment) (t : Target) (run : ImportRun) : Option Target :=
  some (migratePayments dec legacy t run)

end Xraytool.Legacy
