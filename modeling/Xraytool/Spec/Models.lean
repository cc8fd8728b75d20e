import Mathlib.Data.Int.Basic
import Mathlib.Data.Rat.Defs
import Xraytool.Lib.Assoc
import Xraytool.Lib.Table

/-! JSON documents. The numbers are a parameter: the engine keeps every value of its config as raw text and sees a
number as its literal, while in metadata columns a number is a float64 (or an int set by code in memory). -/

namespace Xraytool

inductive Json (ν : Type) where
  | null
  | bool (b : Bool)
  | num (n : ν)
  | str (s : String)
  | arr (items : List (Json ν))
  | obj (fields : List (String × Json ν))
  deriving Repr

variable {ν : Type}

mutual

/-- Equality of documents is decided constructor by constructor; nested types have no derived instance. -/
def Json.decEq [DecidableEq ν] : (a b : Json ν) → Decidable (a = b)
  | .null, b => match b with
    | .null => isTrue rfl
    | .bool _ | .num _ | .str _ | .arr _ | .obj _ => isFalse nofun
  | .bool x, b => match b with
    | .bool y => decidable_of_iff (x = y) (by simp)
    | .null | .num _ | .str _ | .arr _ | .obj _ => isFalse nofun
  | .num x, b => match b with
    | .num y => decidable_of_iff (x = y) (by simp)
    | .null | .bool _ | .str _ | .arr _ | .obj _ => isFalse nofun
  | .str x, b => match b with
    | .str y => decidable_of_iff (x = y) (by simp)
    | .null | .bool _ | .num _ | .arr _ | .obj _ => isFalse nofun
  | .arr x, b => match b with
    | .arr y => @decidable_of_iff _ (x = y) (by simp) (Json.decEqItems x y)
    | .null | .bool _ | .num _ | .str _ | .obj _ => isFalse nofun
  | .obj x, b => match b with
    | .obj y => @decidable_of_iff _ (x = y) (by simp) (Json.decEqFields x y)
    | .null | .bool _ | .num _ | .str _ | .arr _ => isFalse nofun

def Json.decEqItems [DecidableEq ν] : (a b : List (Json ν)) → Decidable (a = b)
  | [], [] => isTrue rfl
  | [], _ :: _ => isFalse nofun
  | _ :: _, [] => isFalse nofun
  | x :: xs, y :: ys =>
    have := Json.decEq x y
    have := Json.decEqItems xs ys
    decidable_of_iff (x = y ∧ xs = ys) (by simp)

def Json.decEqFields [DecidableEq ν] : (a b : List (String × Json ν)) → Decidable (a = b)
  | [], [] => isTrue rfl
  | [], _ :: _ => isFalse nofun
  | _ :: _, [] => isFalse nofun
  | (k, x) :: xs, (k', y) :: ys =>
    have := Json.decEq x y
    have := Json.decEqFields xs ys
    decidable_of_iff (k = k' ∧ x = y ∧ xs = ys) (by simp [and_assoc])

end

instance [DecidableEq ν] : DecidableEq (Json ν) := Json.decEq

/-- A number held in a Go `interface{}`. -/
inductive Number where
  | float (q : Rat)
  | int (i : Int)
  deriving Repr, DecidableEq

/-- Go's conversion of a number to `int`: a float is truncated towards zero. -/
def Number.toInt : Number → Int
  | .float q => q.num.tdiv q.den
  | .int i => i

/-- A `Metadata` column: a JSON object; a nil map and an empty one read the same. -/
abbrev Metadata := List (String × Json Number)

/-! Instants and calendar dates. An instant is a number of nanoseconds since the Unix epoch in UTC, and
a date is read from it in the proleptic Gregorian calendar, as Go's `time` package does. -/

/-- `time.Time` in UTC, as nanoseconds since the epoch. -/
abbrev Time := Int

namespace Time

def second : Int := 1000000000

/-- The zero `time.Time`: 1 January of the year 1. -/
def zero : Time := -62135596800 * second

def hour : Int := 3600 * second
def day : Int := 24 * hour

structure Civil where
  year : Int
  month : Int
  day : Int
  deriving Repr, DecidableEq

/-- Days since the epoch of a date; the day of the month may be out of range, as in `time.Date`. -/
def daysOfCivil (year month d : Int) : Int :=
  -- years start in March, so that the leap day is the last day of a year
  let y := if month ≤ 2 then year - 1 else year
  let era := y / 400
  let yoe := y - era * 400
  let doy := (153 * (if month > 2 then month - 3 else month + 9) + 2) / 5 + d - 1
  era * 146097 + (yoe * 365 + yoe / 4 - yoe / 100 + doy) - 719468

def civilOfDays (days : Int) : Civil :=
  let z := days + 719468
  let era := z / 146097
  let doe := z - era * 146097
  let yoe := (doe - doe / 1460 + doe / 36524 - doe / 146096) / 365
  let doy := doe - (365 * yoe + yoe / 4 - yoe / 100)
  let mp := (5 * doy + 2) / 153
  let month := if mp < 10 then mp + 3 else mp - 9
  ⟨yoe + era * 400 + (if month ≤ 2 then 1 else 0), month, doy - (153 * mp + 2) / 5 + 1⟩

def civil (t : Time) : Civil := civilOfDays (t / day)

/-- `t.AddDate(years, months, days)`: the month is normalised into the year, then the day into the
month, and the time of day stays. -/
def addDate (t : Time) (years months days : Int) : Time :=
  let c := civil t
  let m := c.month - 1 + months
  daysOfCivil (c.year + years + m / 12) (m % 12 + 1) (c.day + days) * day + t % day

/-- A number padded with zeros to `width` digits, its sign first. -/
def pad (width : Nat) (n : Int) : String :=
  let digits := toString n.natAbs
  (if n < 0 then "-" else "") ++ String.ofList (List.replicate (width - digits.length) '0') ++ digits

/-- `t.Format("02.01.2006")`. -/
def formatDay (t : Time) : String :=
  let c := civil t
  pad 2 c.day ++ "." ++ pad 2 c.month ++ "." ++ pad 4 c.year

/-- `t.Format("02-01-2006")`. -/
def formatDashedDay (t : Time) : String :=
  let c := civil t
  pad 2 c.day ++ "-" ++ pad 2 c.month ++ "-" ++ pad 4 c.year

/-- `t.Unix()`. -/
def unix (t : Time) : Int := t / second

-- 31 January 2024, 12:00 UTC, and one month later, which Go normalises into March
example : formatDay (1706702400 * second) = "31.01.2024" := by decide
example : formatDay (addDate (1706702400 * second) 0 1 0) = "02.03.2024" := by decide

end Time

/-! The rows of the database and the tables that hold them, with their unique indexes. Integer columns are unbounded; a
computation that depends on the width of an `int` says so by `int64`. -/

/-- The value of an `int64` after an operation that may overflow. -/
def int64 (n : Int) : Int := n.bmod 18446744073709551616

theorem int64_of_fits {n : Int} (h : -9223372036854775808 ≤ n ∧ n < 9223372036854775808) : int64 n = n := by
  have hbmod := Int.bmod_eq_of_le (n := n) (m := 18446744073709551616)
  exact hbmod (by omega) (by omega)

theorem int64_add {a b : Int} : int64 (int64 a + b) = int64 (a + b) := Int.bmod_add_bmod

theorem add_int64 {a b : Int} : int64 (a + int64 b) = int64 (a + b) := Int.add_bmod_bmod

@[simp] theorem int64_int64 {n : Int} : int64 (int64 n) = int64 n := Int.bmod_bmod

theorem int64_lt {n : Int} : int64 n < 9223372036854775808 := by
  have := Int.bmod_lt (x := n) (m := 18446744073709551616) (by decide)
  simpa [int64] using this

/-- Only a value that is too large comes out smaller. -/
theorem le_int64 {n : Int} (h : n < 9223372036854775808) : n ≤ int64 n := by
  unfold int64 Int.bmod
  dsimp only
  split_ifs <;> omega

theorem neg_le_int64 {n : Int} : -9223372036854775808 ≤ int64 n := by
  unfold int64 Int.bmod
  dsimp only
  split_ifs <;> omega

theorem int64_le {n : Int} (h : 0 ≤ n) : int64 n ≤ n := by
  unfold int64 Int.bmod
  dsimp only
  split_ifs <;> omega

theorem int64_neg {n : Int} (h : 9223372036854775808 ≤ n) (h' : n < 18446744073709551616) : int64 n < 0 := by
  unfold int64 Int.bmod
  dsimp only
  split_ifs <;> omega

structure User where
  id : String
  username : String := ""
  balance : Int := 0
  metadata : Metadata := []
  isBlocked : Bool := false
  deriving DecidableEq

def User.putEmail (tgUser : User) (email : String) : User :=
  { tgUser with metadata := Assoc.put tgUser.metadata "email" (.str email) }

structure Subscription where
  id : String
  userID : String
  email : String
  uuid : String
  status : String := "inactive"
  maxDevices : Int := 3
  endsAt : Option Time := none
  autoRenew : Bool := false
  metadata : Metadata := []
  createdAt : Time := 0
  updatedAt : Time := 0
  deriving DecidableEq

structure Device where
  id : Int
  subscriptionID : String
  hwid : String
  deviceModel : String := ""
  deviceOS : String := ""
  userAgent : String := ""
  deriving DecidableEq

structure Payment where
  id : Int
  userID : String
  amount : Int
  status : String
  paymentType : String := ""
  method : String := ""
  externalID : Option String := none
  customData : Metadata := []
  planID : Option Int := none
  promoCodeID : Option Int := none
  deriving DecidableEq

structure Plan where
  id : Int
  months : Int
  basePrice : Int := 0
  globalDiscountPercent : Int := 0
  engineIDs : List String := []
  isActive : Bool := true
  deriving DecidableEq

structure PromoCode where
  id : Int
  code : String
  discountPercent : Int
  /-- 0 is unlimited -/
  maxUses : Int := 0
  usesCount : Int := 0
  targetPlatform : String := "all"
  expiresAt : Option Time := none
  isActive : Bool := true
  deriving DecidableEq

structure SubscriptionNotification where
  subscriptionID : String
  warningLevel : String
  sentAt : Time
  deriving DecidableEq

structure AntifraudBan where
  id : Int
  email : String
  bannedAt : Time
  expiresAt : Time
  deriving DecidableEq

/-- The user as the VPN engines and the replication frames carry it. -/
structure VPNUserConfig where
  email : String
  uuid : String := ""
  auth : String := ""
  subfile : String := ""
  expire : String := ""
  maxDevices : Int := 0
  flow : String := ""
  cipher : String := ""
  planEngineIDs : List String := []
  subscriptionEngineIDs : List String := []
  deriving DecidableEq

def User.Clash (a b : User) : Prop := a.id = b.id

def Subscription.Clash (a b : Subscription) : Prop := a.id = b.id ∨ a.email = b.email ∨ a.uuid = b.uuid

def Device.Clash (a b : Device) : Prop := a.id = b.id

/-- `external_id` is nullable, and nulls are never equal. -/
def Payment.Clash (a b : Payment) : Prop :=
  a.id = b.id ∨ (a.externalID = b.externalID ∧ a.externalID.isSome)

def Plan.Clash (a b : Plan) : Prop := a.id = b.id ∨ a.months = b.months

def PromoCode.Clash (a b : PromoCode) : Prop := a.id = b.id ∨ a.code = b.code

def SubscriptionNotification.Clash (a b : SubscriptionNotification) : Prop :=
  a.subscriptionID = b.subscriptionID ∧ a.warningLevel = b.warningLevel

def AntifraudBan.Clash (a b : AntifraudBan) : Prop := a.id = b.id ∨ a.email = b.email

instance : Std.Symm User.Clash := ⟨fun _ _ h => Eq.symm h⟩
instance : Std.Symm Subscription.Clash := ⟨fun _ _ h => h.imp Eq.symm (Or.imp Eq.symm Eq.symm)⟩
instance : Std.Symm Payment.Clash := ⟨fun _ _ h => h.imp Eq.symm fun ⟨he, hs⟩ => ⟨he.symm, he ▸ hs⟩⟩
instance : Std.Symm Plan.Clash := ⟨fun _ _ h => h.imp Eq.symm Eq.symm⟩
instance : Std.Symm AntifraudBan.Clash := ⟨fun _ _ h => h.imp Eq.symm Eq.symm⟩

instance : DecidableRel User.Clash := fun a b => inferInstanceAs (Decidable (a.id = b.id))
instance : DecidableRel Subscription.Clash := fun a b =>
  inferInstanceAs (Decidable (a.id = b.id ∨ a.email = b.email ∨ a.uuid = b.uuid))
instance : DecidableRel Payment.Clash := fun a b =>
  inferInstanceAs (Decidable (a.id = b.id ∨ (a.externalID = b.externalID ∧ a.externalID.isSome)))
instance : DecidableRel Device.Clash := fun a b => inferInstanceAs (Decidable (a.id = b.id))
instance : DecidableRel SubscriptionNotification.Clash := fun a b =>
  inferInstanceAs (Decidable (a.subscriptionID = b.subscriptionID ∧ a.warningLevel = b.warningLevel))

/-- The database, one field for each table the model reads. -/
structure Store where
  users : Table User User.Clash := .empty
  subscriptions : Table Subscription Subscription.Clash := .empty
  devices : Table Device Device.Clash := .empty
  payments : Table Payment Payment.Clash := .empty
  plans : Table Plan Plan.Clash := .empty
  promos : Table PromoCode PromoCode.Clash := .empty
  notifications : Table SubscriptionNotification SubscriptionNotification.Clash := .empty
  bans : Table AntifraudBan AntifraudBan.Clash := .empty
  deriving DecidableEq

end Xraytool
