import Xraytool.Spec.Template

/-! `ProcessSQL`, the delivery of a subscription: who asks, whether the answer is withheld, and the rendering of the
template with the credentials. What plugins compute and the caches hold are parameters of the environment. -/

namespace Xraytool.Delivery

open Fallible

structure SubscriptionClient where
  email : String
  id : String := ""
  password : String := ""
  auth : String := ""
  subfile : String := ""
  deriving DecidableEq

/-- The view of the engine that subscription delivery reads. -/
structure SubscriptionConfigSnapshot where
  activeClients : List SubscriptionClient := []
  templateClients : List SubscriptionClient := []
  realityPublicKey : String := ""
  realityShortIDs : List String := []
  realityServerName : String := ""
  shadowSocksSecret : String := ""
  hysteriaObfsSecret : String := ""
  deriving DecidableEq

structure Templates where
  subTemplate : String := ""
  routeGlobal : String := ""
  routeRU : String := ""
  deriving DecidableEq

structure DummyConfigs where
  expired : List String := []
  deviceLimit : List String := []
  unsupportedClient : List String := []
  antiFraud : List String := []

structure Config where
  userAgentWhitelist : List String
  userAgentNoChecks : List String := []
  dummyConfigs : DummyConfigs := {}
  serverIP : String := ""
  serverDomain : String := ""
  inferredStats : String := ""
  statsState : String := ""

structure TrafficUsage where
  uploadBytes : Int := 0
  downloadBytes : Int := 0

structure TrafficQuotaDecision where
  exceeded : Bool
  reason : String := ""

structure SubscriptionTemplateResult where
  handled : Bool
  jsonConfig : String := ""
  exportJSONConfig : String := ""

structure ClientLink where
  protocol : String
  uri : String
  label : String

structure SubscriptionFormatRequest where
  format : String
  jsonConfig : String
  links : List ClientLink

structure SubscriptionFormatResult where
  handled : Bool
  body : String := ""
  contentDisposition : String := ""
  contentType : String := ""

inductive DeliveryOp where
  | findSubscription
  | findUser
  | track (op : Store.TrackOp)
  deriving DecidableEq

structure Env where
  ext : Externals
  codecs : Codecs
  cfg : Config
  now : Time := 0
  fails : DeliveryOp → Bool := fun _ => false
  snapshot : Option SubscriptionConfigSnapshot
  templates : Templates := {}
  /-- the check of the antifraud module, if it is wired in -/
  isBanned : Option (String → Bool) := none
  /-- the users of a statistics file with the bytes they sent and received, if it can be read -/
  readStats : String → Option (List (String × Rat × Rat)) := fun _ => none
  trafficProvider : Option (String → Except Unit (Option TrafficUsage)) := none
  quotaProvider : Option (Subscription × TrafficUsage → Except Unit TrafficQuotaDecision) := none
  templateProcessor : Option (String → Except String SubscriptionTemplateResult) := none
  clientConfigContributor : Option (VPNUserConfig → Except Unit (List ClientLink)) := none
  formatProvider : Option (SubscriptionFormatRequest → Except String SubscriptionFormatResult) := none
  /-- `convert.XrayJSONToShareText` -/
  shareText : String → Except String String := fun _ => .error ""
  /-- `convert.XrayJSONToClashYAML` -/
  clashYAML : String → Except String String := fun _ => .error ""
  /-- the order in which the map of header tokens is iterated -/
  tokenOrder : List (String × String) → List (String × String) := id

/-- Call a plugin if there is one. -/
def ask {α β : Type} (plugin : Option (α → β)) (request : α) : Option β := plugin.map fun call => call request

/-- What the first three sections of `ProcessSQL` find out. -/
structure Account where
  sub : Subscription
  source : String
  skipChecksAgent : String
  snapshot : SubscriptionConfigSnapshot

def findSubscriptionClient (clients : List SubscriptionClient) (clientID : String) : Option SubscriptionClient :=
  clients.find? fun client => client.id == clientID || client.password == clientID || client.subfile == clientID ||
    client.subfile == clientID ++ ".txt"

/-- A client that only the engine knows gets a subscription made up for it; one that is only in the template
is an administrator who was taken out, and counts as expired. -/
def engineAccount (snapshot : SubscriptionConfigSnapshot) (clientID : String) : Option Account :=
  let mock (client : SubscriptionClient) (status : String) : Account :=
    { sub := { id := clientID, userID := "", email := client.email, uuid := client.id, status := status,
               maxDevices := 999 }
      source := "engine config"
      skipChecksAgent := "admin-fallback"
      snapshot := snapshot }
  let named (clients : List SubscriptionClient) : Option SubscriptionClient :=
    (findSubscriptionClient clients clientID).filter (·.email != "")
  ((named snapshot.activeClients).map (mock · "active")).or
    ((named snapshot.templateClients).map (mock · "expired"))

variable (env : Env)

def loadAccount (req : Request) (s : Store) : Except Response Account :=
  let clientID := resolveClientID req
  if clientID = "" then .error (failResponse 404 "Invalid client id")
  else if matchAgent env.cfg.userAgentWhitelist req.userAgent = "" then
    .error (failResponse 403 "Unsupported client user-agent")
  else if env.fails .findSubscription then .error (failResponse 500 "Database error")
  else match env.snapshot with
    | none => .error (failResponse 500 "engine configuration not loaded in cache")
    | some snapshot => match s.findByClientIdentifier clientID with
      | none => match engineAccount snapshot clientID with
        | none => .error (failResponse 404 "User not found")
        | some account => .ok account
      | some sub => match issue (env.fails .findUser) .storage (s.findUserByID sub.userID) with
        | .error _ => .error (failResponse 404 "User not found")
        | .ok _ => .ok ⟨sub, "database", matchAgent env.cfg.userAgentNoChecks req.userAgent, snapshot⟩

/-! ### Reasons to withhold the configuration -/

/-- The statuses that count as blocked; any other status is served. -/
def isBlockedUser (sub : Subscription) : Bool :=
  sub.status == "expired" || sub.status == "blocked" || sub.status == "inactive"

def banned (email : String) : Bool := env.isBanned.any fun isBanned => isBanned email

def noStore : List (String × String) :=
  [("Cache-Control", "no-store, no-cache, must-revalidate, max-age=0"), ("Pragma", "no-cache")]

/-- The short answer of dummy profiles, without the statistics of the user. -/
def dummyResponse (reason : String) (lines : List String) : Response where
  statusCode := 200
  headers := [("Content-Type", "text/plain; charset=utf-8"),
    ("Content-Disposition", "attachment; filename=\"configs.txt\""), ("Profile-Title", "Torvalds VPN"),
    ("X-Reject-Reason", reason)] ++ noStore
  body := generateDummyVless lines

def deviceLimit (sub : Subscription) : Int := if sub.maxDevices ≤ 0 ∧ ¬ isBlockedUser sub then 3 else sub.maxDevices

def skipChecksReason (account : Account) : String :=
  if account.skipChecksAgent ≠ "" then "ua:" ++ account.skipChecksAgent
  else if isBlockedUser account.sub then "is-user-blocked"
  else "none"

structure DeviceCheck where
  unsupportedClient : Bool := false
  deviceLimitReached : Bool := false

/-- The device limit; a request that names no device is of an unsupported client. -/
def checkDevice (req : Request) (account : Account) (s : Store) : Except Response (Store × DeviceCheck) :=
  if skipChecksReason account ≠ "none" then .ok (s, {})
  else if requestHwid req = "" then .ok (s, { unsupportedClient := true })
  else match s.trackDevice (fun op => env.fails (.track op)) env.now account.sub.id (requestHwid req)
      (requestDeviceModel req) (requestDeviceOs req) req.userAgent (deviceLimit account.sub) with
    | .error _ => .error (failResponse 500 "database error")
    | .ok (s, reached) => .ok (s, { deviceLimitReached := reached })

def getTrafficBytes (statsPath email : String) : Option TrafficUsage :=
  if statsPath = "" then none
  else ((env.readStats statsPath).bind (List.lookup email)).map fun (up, down) =>
    ⟨(Number.float up).toInt, (Number.float down).toInt⟩

/-- The combined statistics, else those of the master, unless a traffic provider knows the user. -/
def trafficUsage (email : String) : TrafficUsage :=
  let state := ((getTrafficBytes env env.cfg.inferredStats email).or
    (getTrafficBytes env env.cfg.statsState email)).getD {}
  match ask env.trafficProvider email with
  | some (.ok (some usage)) => usage
  | _ => state

/-- The decision of the quota provider if it refuses; its error is no refusal. -/
def quotaExceeded (sub : Subscription) : Option TrafficQuotaDecision :=
  match ask env.quotaProvider (sub, trafficUsage env sub.email) with
  | some (.ok decision) => if decision.exceeded then some decision else none
  | _ => none

def expireVal (now : Time) (sub : Subscription) : String :=
  (sub.endsAt.map Time.formatDay).getD (defaultExpireDate now)

def expireTs (ext : Externals) (now : Time) (sub : Subscription) : Int :=
  (sub.endsAt.map Time.unix).getD (parseDateToTimestamp ext (expireVal now sub))

def isBlockedOrExpired (sub : Subscription) : Bool :=
  isBlockedUser sub || expireTs env.ext env.now sub ≤ env.now.unix

def baseHeaders (account : Account) : List (String × String) :=
  [("X-SubPHP-Debug", "1"), ("X-Checks-Bypass", skipChecksReason account),
    ("X-Is-User-Blocked", toString (isBlockedUser account.sub)), ("X-Sub-Source", account.source)]

def textHeaders (sub : Subscription) : List (String × String) :=
  let usage := trafficUsage env sub.email
  [("Content-Disposition", "attachment; filename=\"configs.txt\""), ("Profile-Title", "Torvalds VPN"),
    ("Subscription-Userinfo", "upload=" ++ toString usage.uploadBytes ++ "; download=" ++
      toString usage.downloadBytes ++ "; total=107374182400000; expire=" ++
      toString (expireTs env.ext env.now sub)),
    ("Profile-Update-Interval", "12"), ("Profile-Type", "Sip002"), ("Content-Type", "text/plain; charset=utf-8")] ++
    noStore

def rejectReason (check : DeviceCheck) : String × List String :=
  if check.deviceLimitReached then ("device_limit_reached", env.cfg.dummyConfigs.deviceLimit)
  else if check.unsupportedClient then ("unsupported_client", env.cfg.dummyConfigs.unsupportedClient)
  else ("blocked_or_expired", env.cfg.dummyConfigs.expired)

def rejectResponse (account : Account) (check : DeviceCheck) : Response :=
  let (reason, lines) := rejectReason env check
  { statusCode := 200
    headers := baseHeaders account ++ textHeaders env account.sub ++ [("X-Reject-Reason", reason)]
    body := generateDummyVless lines }

/-- The values that a template may mention. -/
structure Credentials where
  ssAuth : String
  hy2Auth : String
  /-- as the engine has it -/
  rawHy2Auth : String

/-- The last password and the last authentication the engine has for the email. -/
def engineSecrets (snapshot : SubscriptionConfigSnapshot) (email : String) : String × String :=
  snapshot.activeClients.foldl (fun (password, auth) client =>
    if client.email ≠ email then (password, auth)
    else (if client.password = "" then password else client.password, if client.auth = "" then auth else client.auth))
    ("", "")

def extractHy2Pass (rawAuth : String) : String :=
  let rawAuth := trimSpace rawAuth
  if rawAuth = "" ∨ toLower rawAuth = "null" then "" else rawAuth

def credentials (account : Account) : Credentials :=
  let sub := account.sub
  let secrets := if isBlockedUser sub then ("", "") else engineSecrets account.snapshot sub.email
  let server := account.snapshot.shadowSocksSecret
  let withUser := !isBlockedUser sub && secrets.1 != "" && toLower secrets.1 != "null"
  let hy2Pass := extractHy2Pass secrets.2
  { ssAuth :=
      if server = "" then ""
      else env.codecs.base64Encode ("2022-blake3-aes-256-gcm:" ++ server ++ if withUser then ":" ++ secrets.1 else "")
    hy2Auth :=
      if hy2Pass = "" ∨ env.ext.isUUID hy2Pass then buildDeterministicHy2Pass env.ext sub.uuid sub.email else hy2Pass
    rawHy2Auth := secrets.2 }

/-- The number that the first hexadecimal digits of a digest stand for. -/
def hexValue (digits : List Char) : Nat :=
  digits.foldl (fun n c => 16 * n + if c.isDigit then c.toNat - '0'.toNat else c.toNat - 'a'.toNat + 10) 0

/-- `subscriptionShortID`: the first eight bytes of the digest choose the short id. -/
def subscriptionShortID (ext : Externals) (ids : List String) (subscriptionID : String) : String :=
  (ids[hexValue ((ext.sha256Hex subscriptionID).toList.take 16) % ids.length]?).getD ""

def placeholders (account : Account) : List (String × String) :=
  let snapshot := account.snapshot
  let secrets := credentials env account
  let usage := trafficUsage env account.sub.email
  let route (text : String) : String := if text = "" then "\x7b\"rules\":[]\x7d" else text
  [("\x7bHOST\x7d", env.cfg.serverIP), ("\x7bPBK\x7d", snapshot.realityPublicKey),
    ("\x7bSID\x7d", subscriptionShortID env.ext snapshot.realityShortIDs account.sub.id),
    ("\x7bSNI\x7d", if snapshot.realityServerName = "" then "google.com" else snapshot.realityServerName),
    ("\x7bUUID\x7d", account.sub.uuid), ("\x7bSS_AUTH\x7d", secrets.ssAuth), ("\x7bHY2_AUTH\x7d", secrets.hy2Auth),
    ("\x7bHY2_OBFS\x7d", snapshot.hysteriaObfsSecret), ("\x7bHY2_OBFS_PASSWORD\x7d", snapshot.hysteriaObfsSecret),
    ("\x7bHYSTERIA2_AUTH\x7d", secrets.hy2Auth), ("\x7bHYSTERIA2_OBFS\x7d", snapshot.hysteriaObfsSecret),
    ("\x7bEMAIL\x7d", account.sub.email), ("\x7bGLOBAL_ROUTING\x7d", route env.templates.routeGlobal),
    ("\x7bRU_ROUTING\x7d", route env.templates.routeRU), ("\x7bUP\x7d", toString usage.uploadBytes),
    ("\x7bDOWN\x7d", toString usage.downloadBytes)]

def requestedFormat (req : Request) : String := toLower (trimSpace (get req.query "format"))

/-- The formats that are text and not the JSON configuration itself. -/
def isTextFormat (req : Request) : Bool := requestedFormat req == "vless" || requestedFormat req == "clash"

def setHeaders (headers entries : List (String × String)) : List (String × String) :=
  entries.foldl (fun headers (key, value) => Assoc.put headers key value) headers

/-- The response headers of a configuration, with those that the header section of the template sets. -/
def renderedHeaders (req : Request) (account : Account) (subHeader : String) : List (String × String) :=
  let sub := account.sub
  let usage := trafficUsage env sub.email
  let sublink := "https://" ++ getRequestHost req env.cfg.serverDomain ++ "/client?id=" ++ resolveClientID req
  let info := parseHeaderMetadata env.codecs (generateHeader env.ext env.codecs env.tokenOrder env.now
    { email := sub.email, sublink := sublink, expireVal := toString (expireTs env.ext env.now sub),
      uploadVal := toString usage.uploadBytes, downloadVal := toString usage.downloadBytes,
      isBlocked := isBlockedUser sub, limit := deviceLimit sub } subHeader)
  let delivery := if isTextFormat req then textHeaders env sub
    else [("Content-Disposition", "attachment; filename=\"config.json\""),
      ("Content-Type", "application/json; charset=utf-8")] ++ noStore
  setHeaders (baseHeaders account ++ delivery) (info.customHeaders ++ [("Profile-Title", info.title)] ++
    (if info.userInfo = "" then [] else [("Subscription-Userinfo", info.userInfo)]) ++
    [("Profile-Update-Interval", info.updateInterval)] ++
    (if info.webUrl = "" then [] else [("Profile-Web-Page-Url", info.webUrl)]) ++ [("Profile-Type", "Sip002")])

/-- A configuration as the template processor left it: what is delivered and what is converted. -/
structure Processed where
  deliveryJSON : String
  formatJSON : String
  templateHandled : Bool := false

def processTemplate (jsonPayload : String) : Except Response Processed :=
  match ask env.templateProcessor jsonPayload with
  | none => .ok ⟨jsonPayload, jsonPayload, false⟩
  | some (.error e) => .error (failResponse 500 ("Subscription template processing failed: " ++ e))
  | some (.ok processed) =>
    if !processed.handled then .ok ⟨jsonPayload, jsonPayload, false⟩
    else if trimSpace processed.jsonConfig = "" then
      .error (failResponse 500 "Subscription template processor returned empty JSON config")
    else
      let exported := if trimSpace processed.exportJSONConfig = "" then jsonPayload else processed.exportJSONConfig
      .ok ⟨processed.jsonConfig, exported, true⟩

/-- The native links of the engine; its error, like its absence, gives none. -/
def clientLinks (req : Request) (account : Account) (processed : Processed) : List ClientLink :=
  if processed.templateHandled then []
  else match ask env.clientConfigContributor
      { email := account.sub.email, uuid := account.sub.uuid, auth := (credentials env account).rawHy2Auth,
        subfile := resolveClientID req, expire := expireVal env.now account.sub,
        maxDevices := deviceLimit account.sub } with
    | some (.ok links) => links
    | _ => []

/-- The text formats: the format provider, and the conversion of the runtime itself if it has no answer. -/
def formatText (req : Request) (account : Account) (headers : List (String × String)) (processed : Processed) :
    Response :=
  let isVless := requestedFormat req = "vless"
  let failed (e : String) : Response :=
    failResponse 404 ((if isVless then "VLESS" else "Clash") ++ " subscription conversion failed: " ++ e)
  let answer (disposition contentType body : String) : Response :=
    { statusCode := 200
      headers := setHeaders headers
        ([("Content-Disposition", disposition), ("Content-Type", contentType)] ++ noStore)
      body := body }
  let convert : Response :=
    if isVless then match env.shareText processed.formatJSON with
      | .error e => failed e
      | .ok links => answer "attachment; filename=\"configs.txt\"" "text/plain; charset=utf-8" links
    else match env.clashYAML processed.formatJSON with
      | .error e => failed e
      | .ok yaml => answer "attachment; filename=\"config.yaml\"" "text/yaml; charset=utf-8" yaml
  match ask env.formatProvider
      ⟨requestedFormat req, processed.formatJSON, clientLinks env req account processed⟩ with
  | some (.error e) => failed e
  | some (.ok formatted) =>
    if formatted.handled then answer formatted.contentDisposition formatted.contentType formatted.body else convert
  | none => convert

def render (req : Request) (account : Account) : Response :=
  if env.templates.subTemplate = "" then failResponse 500 "subscription template not found in cache"
  else match parseSubscriptionTemplate env.templates.subTemplate with
    | (_, []) => failResponse 500 "No templates found in subscription config"
    | (subHeader, template :: _) =>
      let jsonPayload := newReplacer (placeholders env account) template
      if !env.codecs.validJSON jsonPayload then failResponse 500 "Invalid template config JSON"
      else match processTemplate env jsonPayload with
        | .error res => res
        | .ok processed =>
          let headers := renderedHeaders env req account subHeader
          if isTextFormat req then formatText env req account headers processed
          else { statusCode := 200, headers := headers, body := processed.deliveryJSON }

/-- From the traffic on: the quota, the other reasons to withhold, and the configuration. -/
def answer (req : Request) (account : Account) (check : DeviceCheck) : Response :=
  match quotaExceeded env account.sub with
  | some decision =>
    dummyResponse (if decision.reason = "" then "traffic_quota_exceeded" else decision.reason)
      env.cfg.dummyConfigs.expired
  | none =>
    if check.deviceLimitReached ∨ check.unsupportedClient ∨ isBlockedOrExpired env account.sub then
      rejectResponse env account check
    else render env req account

def processSQL (req : Request) (s : Store) : Store × Response :=
  match loadAccount env req s with
  | .error res => (s, res)
  | .ok account =>
    if banned env account.sub.email then (s, dummyResponse "antifraud_ban" env.cfg.dummyConfigs.antiFraud)
    else match checkDevice env req account s with
      | .error res => (s, res)
      | .ok (s, check) => (s, answer env req account check)

end Xraytool.Delivery
