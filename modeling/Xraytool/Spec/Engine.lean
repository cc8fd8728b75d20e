import Xraytool.Spec.Repository

/-! What the services hand to the VPN engines: the calls themselves, and how a subscription row becomes the
user of a call. Functions of libraries outside the repository are collected in `Externals`. -/

namespace Xraytool

/-- Library functions the code calls. -/
structure Externals where
  /-- SHA-256 in lower-case hexadecimal -/
  sha256Hex : String → String
  /-- `uuid.Parse` succeeds -/
  isUUID : String → Bool
  /-- `time.Parse` of a layout and a value -/
  parseTime : String → String → Option Time
  /-- `time.ParseInLocation` in Moscow -/
  parseMoscow : String → String → Option Time

def noExternals : Externals := ⟨id, fun _ => false, fun _ _ => none, fun _ _ => none⟩

/-- `GetMetadataString`: the text of a key, empty if it is missing or not a string. -/
def getMetadataString (m : Metadata) (key : String) : String :=
  match m.lookup key with
  | some (.str s) => s
  | _ => ""

/-- The texts of a list value; other items are skipped. -/
def textItems (items : List (Json Number)) : List String :=
  items.filterMap fun
    | .str s => some s
    | _ => none

/-- Trim the values, drop the empty ones and all but the first of equal ones. -/
def cleanValues (values : List String) : List String :=
  values.foldl (fun result value =>
    let value := trimSpace value
    if value = "" ∨ value ∈ result then result else result ++ [value]) []

def getMetadataStringSlice (m : Metadata) (key : String) : List String :=
  match m.lookup key with
  | some (.arr items) => cleanValues (textItems items)
  | some (.str s) => cleanValues (splitChar s ',')
  | _ => []

def buildDeterministicHy2Pass (ext : Externals) (uuid email : String) : String :=
  ext.sha256Hex (uuid ++ ":" ++ email ++ ":hy2")

def subscriptionToVPNUserConfig (ext : Externals) (sub : Subscription) : VPNUserConfig :=
  let auth := getMetadataString sub.metadata "auth"
  let auth := if auth = "" then getMetadataString sub.metadata "password" else auth
  let auth := if auth = "" ∨ ext.isUUID auth then buildDeterministicHy2Pass ext sub.uuid sub.email else auth
  let subfile := getMetadataString sub.metadata "subfile"
  let expire := getMetadataString sub.metadata "expire"
  { email := sub.email
    uuid := sub.uuid
    auth := auth
    subfile := if subfile = "" then sub.id else subfile
    expire := if expire = "" then (sub.endsAt.map Time.formatDay).getD "" else expire
    maxDevices := sub.maxDevices
    subscriptionEngineIDs := getMetadataStringSlice sub.metadata "engine_ids"
    planEngineIDs := getMetadataStringSlice sub.metadata "plan_engine_ids" }

/-- The user that `unbanUserInXray` and the billing plugin restore: without credentials other than the UUID. -/
def restoredUser (sub : Subscription) : VPNUserConfig where
  email := sub.email
  uuid := sub.uuid
  subfile := getMetadataString sub.metadata "subfile"
  expire := (sub.endsAt.map Time.formatDay).getD ""
  maxDevices := sub.maxDevices

inductive EngineCall where
  | addUser (user : VPNUserConfig)
  | removeUser (email : String)
  | removeUsersBulk (emails : List String)
  | unbanUser (email : String)
  | syncUsers (users : List VPNUserConfig) (removeOrphans : Bool)
  deriving DecidableEq

/-- The emails a call adds to the engine. -/
def EngineCall.adds : EngineCall → List String
  | .addUser user => [user.email]
  | .unbanUser email => [email]
  | .syncUsers users _ => users.map (·.email)
  | .removeUser _ | .removeUsersBulk _ => []

end Xraytool
