import Mathlib.Data.List.Sort
import Xraytool.Lib.Fallible
import Xraytool.Spec.Models
import Xraytool.Spec.Strings

/-! The repositories over the database: the statements the services issue, as functions on the `Store`.
A lookup that finds no row reports `notFound`; an update that matches no row is no error. -/

namespace Xraytool

open Fallible

inductive Err where
  /-- `domain.ErrNotFound` -/
  | notFound
  /-- `domain.ErrDuplicate` -/
  | duplicate
  /-- any other failure of the storage -/
  | storage
  | text (msg : String)
  /-- `fmt.Errorf("msg: %w", cause)` -/
  | wrap (msg : String) (cause : Err)
  deriving Repr, DecidableEq

def found {α : Type} : Option α → Except Err α
  | some a => .ok a
  | none => .error .notFound

@[simp] theorem found_eq_ok {α : Type} {o : Option α} {a : α} : found o = .ok a ↔ o = some a := by
  cases o <;> simp [found]

theorem found_first_ok {ρ κ : Type} {clash : ρ → ρ → Prop} [BEq κ] [LawfulBEq κ] (key : ρ → κ) {k : κ}
    {r : ρ} {before : ρ → ρ → Bool} {t : Table ρ clash} (h : found (t.first before fun r => key r == k) = .ok r) :
    r ∈ t.rows ∧ key r = k := by
  obtain ⟨hmem, hkey⟩ := Table.first_eq_some (found_eq_ok.1 h)
  exact ⟨hmem, beq_iff_eq.1 hkey⟩

/-- `balance = CASE WHEN balance + amount < 0 THEN 0 ELSE balance + amount END`. -/
def User.adjust (amount : Int) (u : User) : User :=
  { u with balance := if u.balance + amount < 0 then 0 else u.balance + amount }

def User.debit (price : Int) (u : User) : User := { u with balance := u.balance - price }

def User.setBlocked (isBlocked : Bool) (u : User) : User := { u with isBlocked := isBlocked }

def Payment.setStatus (status : String) (p : Payment) : Payment := { p with status := status }

@[simp] theorem Payment.setStatus_status {status : String} {p : Payment} : (p.setStatus status).status = status := rfl

theorem User.keeps_adjust {amount : Int} : Table.Keeps User.Clash (.adjust amount) := fun _ _ => ⟨fun h => h, fun h => h⟩

theorem User.keeps_debit {price : Int} : Table.Keeps User.Clash (.debit price) := fun _ _ => ⟨fun h => h, fun h => h⟩

theorem User.keeps_setBlocked {b : Bool} : Table.Keeps User.Clash (.setBlocked b) := fun _ _ => ⟨fun h => h, fun h => h⟩

def PromoCode.use (p : PromoCode) : PromoCode := { p with usesCount := p.usesCount + 1 }

theorem PromoCode.keeps_use : Table.Keeps PromoCode.Clash .use := fun _ _ => ⟨fun h => h, fun h => h⟩

def Subscription.setStatus (now : Time) (status : String) (sub : Subscription) : Subscription :=
  { sub with status := status, updatedAt := now }

theorem Subscription.keeps_setStatus (now : Time) (status : String) :
    Table.Keeps Subscription.Clash (.setStatus now status) := fun _ _ => ⟨fun h => h, fun h => h⟩

/-- `updated_at = CURRENT_TIMESTAMP`, which has whole seconds. -/
def Subscription.touch (now : Time) (sub : Subscription) : Subscription :=
  { sub with updatedAt := now.unix * Time.second }

theorem Subscription.keeps_touch (now : Time) : Table.Keeps Subscription.Clash (.touch now) :=
  fun _ _ => ⟨fun h => h, fun h => h⟩

def Device.refresh (deviceModel deviceOS userAgent : String) (d : Device) : Device :=
  { d with deviceModel := deviceModel, deviceOS := deviceOS, userAgent := userAgent }

theorem Device.keeps_refresh {deviceModel deviceOS userAgent : String} :
    Table.Keeps Device.Clash (.refresh deviceModel deviceOS userAgent) := fun _ _ => ⟨fun h => h, fun h => h⟩

theorem Payment.keeps_setStatus (status : String) : Table.Keeps Payment.Clash (.setStatus status) :=
  fun _ _ => ⟨fun h => h, fun h => h⟩

namespace Store

variable (s : Store)

def findUserByID (id : String) : Except Err User :=
  found (s.users.first (fun _ _ => false) fun u => u.id == id)

/-- The condition of `FindUserByPlatformID` on SQLite; `none` for a platform it does not support. A Telegram
id may be stored as a number or as text, and one that is no number is compared as 0. -/
def onPlatform (platform id : String) : Option (User → Bool) :=
  if platform = "telegram" then some fun u => match u.metadata.lookup "telegram_id" with
    | some (.num n) => n == .float (parseInt64 id) || n == .int (parseInt64 id)
    | some (.str t) => t == id
    | _ => false
  else if platform = "web" then some fun u => u.metadata.lookup "email" == some (.str id) || u.username == id
  else none

def findUserByPlatformID (platform id : String) : Except Err User :=
  if platform = "uuid" then s.findUserByID id
  else match onPlatform platform id with
    | none => .error (.text ("unsupported platform: " ++ platform))
    | some cond => found (s.users.first (fun _ _ => false) cond)

def adjustBalance (userID : String) (amount : Int) : Store :=
  { s with users := s.users.updateWhere (·.id == userID) (.adjust amount) User.keeps_adjust }

def updateIsBlocked (userID : String) (isBlocked : Bool) : Store :=
  { s with users := s.users.updateWhere (·.id == userID) (.setBlocked isBlocked) User.keeps_setBlocked }

def paymentByID (a b : Payment) : Bool := a.id < b.id

/-- The id is passed as decimal text and compared with the integer column. -/
def findPaymentByID (id : Int) : Except Err Payment :=
  found (s.payments.first paymentByID fun p => p.id == id)

def findPaymentByExternalID (extID : String) : Except Err Payment :=
  found (s.payments.first paymentByID fun p => p.externalID == some extID)

/-- The condition of `UpdateStatus`. An expected list replaces the check that the row is not completed. -/
def updateStatusWhere (paymentID : Int) (newStatus : String) (expected : List String) (p : Payment) : Bool :=
  p.id == paymentID &&
    if 0 < expected.length then expected.contains p.status
    else if newStatus == "completed" then p.status != "completed"
    else true

def setPaymentStatus (cond : Payment → Bool) (status : String) : Store :=
  { s with payments := s.payments.updateWhere cond (.setStatus status) (Payment.keeps_setStatus status) }

def updateStatus (paymentID : Int) (newStatus : String) (expected : List String) : Store × Bool :=
  (s.setPaymentStatus (updateStatusWhere paymentID newStatus expected) newStatus,
    0 < s.payments.affected (updateStatusWhere paymentID newStatus expected))

def ifNotCompletedWhere (paymentID : Int) (p : Payment) : Bool := p.id == paymentID && p.status != "completed"

def updateStatusIfNotCompleted (paymentID : Int) (newStatus : String) : Store × Bool :=
  (s.setPaymentStatus (ifNotCompletedWhere paymentID) newStatus,
    0 < s.payments.affected (ifNotCompletedWhere paymentID))

/-- `ORDER BY created_at DESC, id`. -/
def latestFirst (a b : Subscription) : Bool :=
  b.createdAt < a.createdAt || (a.createdAt == b.createdAt && decide (a.id < b.id))

def findLatestByUserID (userID : String) : Except Err Subscription :=
  found (s.subscriptions.first latestFirst fun sub => sub.userID == userID)

def findLatestByEmail (email : String) : Except Err Subscription :=
  found (s.subscriptions.first latestFirst fun sub => sub.email == email)

/-- A subscription is asked for by its id, its UUID or the name of its subscription file. -/
def hasClientIdentifier (clientID : String) (sub : Subscription) : Bool :=
  sub.id == clientID || sub.uuid == clientID || sub.metadata.lookup "subfile" == some (.str clientID) ||
    sub.metadata.lookup "subfile" == some (.str (clientID ++ ".txt"))

/-- No row is no error here. -/
def findByClientIdentifier (clientID : String) : Option Subscription :=
  s.subscriptions.first (fun _ _ => false) (hasClientIdentifier clientID)

def findPlanByID (id : Int) : Except Err Plan :=
  found (s.plans.first (fun _ _ => false) fun p => p.id == id)

/-- A subscription update that leaves the indexed columns alone. -/
def updateSubscription (id : String) (f : Subscription → Subscription) (hf : Table.Keeps Subscription.Clash f) :
    Store :=
  { s with subscriptions := s.subscriptions.updateWhere (fun sub => sub.id == id) f hf }

def activeWhere (id : String) (sub : Subscription) : Bool := sub.id == id && sub.status == "active"

def updateStatusIfActive (now : Time) (id newStatus : String) : Store × Bool :=
  ({ s with
      subscriptions := s.subscriptions.updateWhere (activeWhere id) (.setStatus now newStatus)
        (Subscription.keeps_setStatus now newStatus) },
    0 < s.subscriptions.affected (activeWhere id))

def findByStatus (status : String) : List Subscription :=
  s.subscriptions.rows.filter fun sub => sub.status == status

/-- `FindActive`, ordered by months. -/
def findActivePlans : List Plan :=
  (s.plans.rows.filter (·.isActive)).insertionSort fun a b => a.months ≤ b.months

def findPromoByCode (code : String) : Except Err PromoCode :=
  found (s.promos.first (fun a b => a.id < b.id) fun p => p.code == code)

def countByUserAndPromo (userID : String) (promoID : Int) : Nat :=
  s.payments.affected fun p => p.userID == userID && p.promoCodeID == some promoID &&
    (p.status == "completed" || p.status == "pending_card")

def incrementUses (id maxUses : Int) : Store × Bool :=
  let cond (p : PromoCode) : Bool := p.id == id && (maxUses ≤ 0 || p.usesCount < maxUses)
  ({ s with promos := s.promos.updateWhere cond .use PromoCode.keeps_use },
    !(0 < maxUses && s.promos.affected cond == 0))

def ofSubscription (subID : String) (d : Device) : Bool := d.subscriptionID == subID

def findDeviceByIDAndSubscription (id : Int) (subID : String) : Except Err Device :=
  found (s.devices.first (fun a b => a.id < b.id) fun d => d.id == id && ofSubscription subID d)

def isDevice (subID hwid : String) (d : Device) : Bool := d.subscriptionID == subID && d.hwid == hwid

/-- `INSERT` with the next id. -/
def createDevice (subID hwid deviceModel deviceOS userAgent : String) : Except Err Store :=
  match s.devices.insert ⟨s.devices.nextKey (·.id), subID, hwid, deviceModel, deviceOS, userAgent⟩ with
  | some t => .ok { s with devices := t }
  | none => .error .duplicate

def updateDevice (id : Int) (deviceModel deviceOS userAgent : String) : Store :=
  { s with
    devices := s.devices.updateWhere (·.id == id) (.refresh deviceModel deviceOS userAgent)
      Device.keeps_refresh }

def deleteDevices (ids : List Int) : Store :=
  { s with devices := s.devices.deleteWhere fun d => ids.contains d.id }

def countDevices (subID : String) : Nat := s.devices.affected (ofSubscription subID)

/-- `FindOldestBySubscription`: the devices of the lowest ids. -/
def findOldestDevices (subID : String) (limit : Nat) : List Device :=
  ((s.devices.rows.filter (ofSubscription subID)).insertionSort fun a b => a.id ≤ b.id).take limit

inductive TrackOp where
  | begin
  | find
  | touch
  | count
  | save
  | commit
  deriving DecidableEq

/-- `TrackDevice` on SQLite; the flag reports that the limit is reached. The errors of the statement that
takes the write lock and of the count are dropped, and a failed count is 0. -/
def trackDevice (fails : TrackOp → Bool) (now : Time) (subID hwid deviceModel deviceOS userAgent : String)
    (deviceLimit : Int) (s : Store) : Except Err (Store × Bool) :=
  transaction (fails .begin) (fails .commit) .storage do
    let device ← issue (fails .find) .storage (.ok (s.devices.first (fun _ _ => false) (isDevice subID hwid)))
    match device with
    | none =>
      let s := if fails .touch then s else s.updateSubscription subID (.touch now) (Subscription.keeps_touch now)
      let currentCount := if fails .count then 0 else s.countDevices subID
      if deviceLimit ≤ currentCount then .ok (s, true)
      else
        let s ← issue (fails .save) .storage (s.createDevice subID hwid deviceModel deviceOS userAgent)
        .ok (s, false)
    | some device => issue (fails .save) .storage (.ok (s.updateDevice device.id deviceModel deviceOS userAgent, false))

def findActiveBans (now : Time) : List AntifraudBan := s.bans.rows.filter fun b => now < b.expiresAt

def findExpiredBans (now : Time) : List AntifraudBan := s.bans.rows.filter fun b => b.expiresAt ≤ now

def deleteBanByEmail (email : String) : Store :=
  { s with bans := s.bans.deleteWhere fun b => b.email == email }

def deleteNotificationsBySubID (subID : String) : Store :=
  { s with notifications := s.notifications.deleteWhere fun n => n.subscriptionID == subID }

/-- `CreateIfNotExists`; the flag says whether a row was inserted. -/
def createNotification (now : Time) (subID level : String) : Store × Bool :=
  match s.notifications.insert ⟨subID, level, now⟩ with
  | some t => ({ s with notifications := t }, true)
  | none => (s, false)

end Store
end Xraytool
