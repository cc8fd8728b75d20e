import Xraytool.Spec.Engine

/-! The request for a subscription and the values read from it: the client id, the user agent, the hardware
id and the host. Go maps are association lists here, in the order in which they are iterated. -/

namespace Xraytool.Delivery

structure Request where
  userAgent : String := ""
  query : List (String × String) := []
  headers : List (String × String) := []
  deriving DecidableEq

structure Response where
  statusCode : Nat
  headers : List (String × String)
  body : String
  deriving DecidableEq

def failResponse (code : Nat) (msg : String) : Response where
  statusCode := code
  headers := [("Content-Type", "text/plain; charset=utf-8"), ("X-Reject-Reason", msg)]
  body := msg

/-- A Go map read with its zero value. -/
def get (m : List (String × String)) (key : String) : String := (m.lookup key).getD ""

def validClientID (s : String) : Bool :=
  s != "" && s.toList.all fun c => c.isAlphanum || c == '.' || c == '_' || c == '-'

def normalizeClientIDValue (s : String) : String :=
  let s := trimSpace s
  if s = "" then ""
  else
    -- three bytes are cut off, and a capital i with a dot, which is lowered to `i`, has two
    let start := if hasPrefix s "\u0130" then 2 else 3
    let s := if hasPrefix (toLower s) "id=" then String.ofList (s.toList.drop start) else s
    let s := if hasSuffix (toLower s) ".txt" then String.ofList (s.toList.take (s.length - 4)) else s
    if validClientID s then s else ""

def pathBase (path : String) : String :=
  if path = "" then "."
  else
    let trimmed := (path.toList.reverse.dropWhile (· == '/')).reverse
    if trimmed = [] then "/" else String.ofList (trimmed.reverse.takeWhile (· != '/')).reverse

/-- `ResolveClientID`: the first source that gives a valid id, empty if none does. -/
def resolveClientID (req : Request) : String :=
  let path := if get req.headers "x-request-path" = "" then get req.query "request_path"
    else get req.headers "x-request-path"
  let after (start : String) : String :=
    if hasPrefix path start then normalizeClientIDValue (String.ofList (path.toList.drop start.length)) else ""
  let candidates := [normalizeClientIDValue (get req.query "id"), normalizeClientIDValue (get req.query "file"),
    after "/client&id=", after "/client/", if path = "" then "" else normalizeClientIDValue (pathBase path)]
  (candidates.find? (· != "")).getD ""

/-- `userAgentHasToken`: the first occurrence of the token stands alone, with no lower-case letter or digit
next to it. -/
def userAgentHasToken (uaLower token : String) : Bool :=
  let isolated (c : Char) : Bool := (c < 'a' || 'z' < c) && (c < '0' || '9' < c)
  uaLower != "" && token != "" && match cut token.toList uaLower.toList with
    | none => false
    | some (before, after) => before.getLast?.all isolated && after.head?.all isolated

/-- The first agent of a list that the user agent names, empty if none. -/
def matchAgent (agents : List String) (userAgent : String) : String :=
  (agents.find? fun agent => userAgentHasToken (toLower userAgent) agent).getD ""

def pickRequestValue (req : Request) (queryKeys headerKeys : List String) : String :=
  let nonBlank (v : String) : Option String := if trimSpace v = "" then none else some (trimSpace v)
  let fromQuery := queryKeys.findSome? fun key => (req.query.lookup key).bind nonBlank
  let fromHeaders := headerKeys.findSome? fun key =>
    req.headers.findSome? fun (k, v) => if equalFold k key then nonBlank v else none
  (fromQuery.or fromHeaders).getD ""

/-- Separators are stripped from a hardware id when the hexadecimal digits that are left have the length of
a known fingerprint. -/
def normalizeHwid (s : String) : String :=
  let s := toLower (trimSpace s)
  let hexOnly := s.toList.filter fun c => ('a' ≤ c && c ≤ 'f') || ('0' ≤ c && c ≤ '9')
  if [16, 32, 40, 64].contains hexOnly.length then String.ofList hexOnly else s

def requestHwid (req : Request) : String :=
  normalizeHwid (pickRequestValue req
    ["hwid", "HWID", "device_id", "deviceid", "deviceId", "deviceID", "udid", "UDID"]
    ["HWID", "X-HWID", "X-Device-Id", "Device-Id", "DeviceId", "DeviceID", "X-DeviceId", "X-DeviceID",
      "X-Deviceid", "Deviceid", "X-UDID", "UDID"])

def requestDeviceModel (req : Request) : String :=
  pickRequestValue req ["device_model", "model", "deviceModel"] ["Device-Model", "X-Device-Model"]

def requestDeviceOs (req : Request) : String :=
  pickRequestValue req ["device_os", "os", "platform"] ["Device-Os", "X-Device-Os", "X-Platform"]

def getRequestHost (req : Request) (fallbackDomain : String) : String :=
  let host := get req.headers "host"
  let host := if host = "" then get req.headers "x-forwarded-host" else host
  let host := if host = "" then fallbackDomain else host
  let clean := host.toList.filter fun c => c.isAlphanum || c == '.' || c == '-' || c == ':'
  if clean = [] then "example.com" else String.ofList clean

def defaultExpireDate (now : Time) : String := (now.addDate 0 0 30).formatDashedDay

/-- The groups of `validDateRe`: day, month and year. -/
def dateParts (s : String) : Option (String × String × String) :=
  let digits (part : List Char) (lengths : List Nat) : Bool := part.all Char.isDigit && lengths.contains part.length
  match s.toList.splitOnP fun c => c == '-' || c == '.' with
  | [d, m, y] =>
    if digits d [1, 2] && digits m [1, 2] && digits y [4] then
      some (String.ofList d, String.ofList m, String.ofList y)
    else none
  | _ => none

/-- `parseDateToTimestamp`; 0 is a date that cannot be read. -/
def parseDateToTimestamp (ext : Externals) (s : String) : Int :=
  let s := trimSpace s
  let isoLayout := "2006-01-02 15:04:05 -0700 MST"
  let layouts := ["2006-01-02 15:04:05", "2006-01-02", "2006.01.02 15:04:05", "2006.01.02",
    "2006-01-02T15:04:05Z07:00"]
  let numeric := (parseInt s).filter (0 < ·)
  let iso := (dateParts s).bind fun (d, m, y) =>
    ext.parseTime isoLayout (y ++ "-" ++ m ++ "-" ++ d ++ " 00:00:00 +0000 UTC")
  let parsed := iso.or (layouts.findSome? fun layout => ext.parseTime layout s)
  if s = "" then 0 else (numeric.or (parsed.map Time.unix)).getD 0

/-- `generateDummyVless`: a link to nowhere for each line, named after it, on its own port. -/
def generateDummyVless (lines : List String) : String :=
  let link (port : Nat) (line : String) : String :=
    "vless://00000000-0000-0000-0000-000000000000@127.0.0.1:" ++ toString port ++ "?type=tcp&security=none#" ++
      replaceAll (queryEscape line) "+" "%20"
  let step : Nat × List String → String → Nat × List String := fun (port, out) line =>
    if line = "" then (port, out ++ [""]) else (port + 1, out ++ [link port line])
  "\n".intercalate (lines.foldl step (443, [])).2

/-! The subscription template: its split into a header section and JSON blocks, the header rendered for one
user, and the response headers read back from it. -/

/-- Encodings and checks of libraries outside the repository. -/
structure Codecs where
  base64Encode : String → String
  base64Decode : String → Option String
  /-- `json.Valid` -/
  validJSON : String → Bool

def opensBlock (trimmed : String) : Bool := hasPrefix trimmed "\x7b" || hasPrefix trimmed "["

/-- The brackets a line opens less those it closes; brackets inside JSON strings count like the others. -/
def bracketBalance (trimmed : String) : Int :=
  trimmed.toList.foldl (fun depth c =>
    if c = '\x7b' ∨ c = '[' then depth + 1 else if c = '\x7d' ∨ c = ']' then depth - 1 else depth) 0

/-- The variables of the loop in `parseSubscriptionTemplate`. -/
structure TemplateScan where
  isHeader : Bool := true
  header : String := ""
  templates : List String := []
  jsonBody : String := ""
  depth : Int := 0

/-- Save the current block unless it is blank. -/
def TemplateScan.save (st : TemplateScan) : TemplateScan :=
  let block := trimSpace st.jsonBody
  { st with templates := if block = "" then st.templates else st.templates ++ [block], jsonBody := "" }

def TemplateScan.writeLine (st : TemplateScan) (line : String) : TemplateScan :=
  { st with jsonBody := st.jsonBody ++ line ++ "\n", depth := st.depth + bracketBalance (trimSpace line) }

def TemplateScan.line (st : TemplateScan) (line : String) : TemplateScan :=
  let trimmed := trimSpace line
  if st.isHeader then
    if opensBlock trimmed then { st with isHeader := false }.writeLine line
    else { st with header := st.header ++ line ++ "\n" }
  else if st.depth = 0 ∧ (trimmed = "# ---" ∨ trimmed = "---") then st.save
  else if st.depth = 0 ∧ opensBlock trimmed then st.save.writeLine line
  else st.writeLine line

/-- The fallback without JSON blocks: every line with a link is a template. -/
def TemplateScan.linkLine (st : TemplateScan) (line : String) : TemplateScan :=
  let keep (text : String) : TemplateScan :=
    if st.isHeader then { st with header := st.header ++ text ++ "\n" } else st
  if trimSpace line = "" then keep ""
  else if contains line "://" then { st with isHeader := false, templates := st.templates ++ [line] }
  else keep line

def parseSubscriptionTemplate (content : String) : String × List String :=
  let lines := splitChar content '\n'
  let scan := (lines.foldl TemplateScan.line {}).save
  if 0 < scan.templates.length then (scan.header, scan.templates)
  else
    let links := lines.foldl TemplateScan.linkLine {}
    (links.header, links.templates)

/-- A token of the header is replaced everywhere, one token after the other. -/
def replaceTokens (tokens : List (String × String)) (text : String) : String :=
  tokens.foldl (fun text (key, value) => replaceAll text key value) text

/-- The arguments of `generateHeader`. -/
structure HeaderArgs where
  email : String
  sublink : String
  expireVal : String
  uploadVal : String
  downloadVal : String
  isBlocked : Bool
  limit : Int

def HeaderArgs.blockedStr (args : HeaderArgs) : String := if args.isBlocked then "1" else "0"

def headerTokens (ext : Externals) (now : Time) (args : HeaderArgs) : List (String × String) :=
  let expireTs := parseDateToTimestamp ext args.expireVal
  let nowTs := now.unix
  let daysLeft := if 0 < expireTs ∧ nowTs < expireTs then toString ((int64 (expireTs - nowTs + 86399)).tdiv 86400) else "0"
  [("\x7bEMAIL\x7d", args.email), ("\x7bSUBLINK\x7d", args.sublink), ("\x7bEXPIRE\x7d", args.expireVal),
    ("\x7bUP\x7d", args.uploadVal), ("\x7bDOWN\x7d", args.downloadVal),
    ("\x7bTOTAL\x7d", toString (int64 (parseInt64 args.uploadVal + parseInt64 args.downloadVal))),
    ("\x7bDOWNLOAD\x7d", args.downloadVal), ("\x7bDAYS_LEFT\x7d", daysLeft), ("\x7bEXPIRE_DAYS\x7d", daysLeft),
    ("\x7bIS_USER_BLOCKED\x7d", args.blockedStr), ("\x7bDEVICE_LIMIT\x7d", toString args.limit)]

def trimStart (s start : String) : String :=
  if hasPrefix s start then String.ofList (s.toList.drop start.length) else s

/-- One line of the header; `none` is a blank line, which is dropped. -/
def headerLine (codecs : Codecs) (tokens : List (String × String)) (blockedStr line : String) : Option String :=
  let trimmed := trimSpace line
  if trimmed = "" then none
  else if hasPrefix trimmed "#announce:" then
    let announce := replaceAll (replaceTokens tokens (trimStart trimmed "#announce:")) "\\n" "\n"
    some ("#announce: base64:" ++ codecs.base64Encode announce)
  else if hasPrefix trimmed "#is-user-blocked:" then some ("#is-user-blocked: " ++ blockedStr)
  else if hasPrefix trimmed "#profile-title:" then
    -- the title itself is not searched for tokens
    let title := trimSpace (trimStart trimmed "#profile-title:")
    if hasPrefix title "base64:" then some (replaceTokens tokens line)
    else some ("#profile-title: base64:" ++ codecs.base64Encode title)
  else some (replaceTokens tokens line)

/-- `generateHeader`. The tokens are held in a Go map; `order` is the order in which it is iterated. -/
def generateHeader (ext : Externals) (codecs : Codecs) (order : List (String × String) → List (String × String))
    (now : Time) (args : HeaderArgs) (headerText : String) : String :=
  let lines := splitChar headerText '\n'
  let out := lines.filterMap (headerLine codecs (order (headerTokens ext now args)) args.blockedStr)
  let isBlockedLine (line : String) : Bool :=
    hasPrefix (trimSpace line) "#is-user-blocked:"
  let out := if lines.any isBlockedLine then out else out ++ ["#is-user-blocked: " ++ args.blockedStr]
  "\n".intercalate out

/-- The fields of `HeaderMeta` that the delivery reads. -/
structure HeaderMeta where
  title : String := "Torvalds VPN"
  userInfo : String := ""
  updateInterval : String := "12"
  webUrl : String := ""
  customHeaders : List (String × String) := []

/-- The title as the header line gives it; a base64 text that cannot be decoded keeps the old one. -/
def decodeTitle (codecs : Codecs) (old val : String) : String :=
  if hasPrefix val "base64:" then (codecs.base64Decode (trimStart val "base64:")).getD old else val

def HeaderMeta.line (codecs : Codecs) (info : HeaderMeta) (line : String) : HeaderMeta :=
  let line := trimSpace line
  if hasPrefix line "#" then match cut [':'] line.toList with
    | none => info
    | some (key, val) =>
      let key := toLower (trimSpace (String.ofList key))
      let val := trimSpace (String.ofList val)
      let hKey := canonicalHeaderKey (replaceAll (trimStart key "#") " " "-")
      let info := { info with customHeaders := Assoc.put info.customHeaders hKey val }
      if key = "#profile-title" then { info with title := decodeTitle codecs info.title val }
      else if key = "#subscription-userinfo" then { info with userInfo := val }
      else if key = "#profile-update-interval" then { info with updateInterval := val }
      else if key = "#profile-web-page-url" then { info with webUrl := val }
      else info
  else info

def parseHeaderMetadata (codecs : Codecs) (headerText : String) : HeaderMeta :=
  (splitChar headerText '\n').foldl (HeaderMeta.line codecs) {}

end Xraytool.Delivery
