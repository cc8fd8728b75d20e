import Xraytool.Spec.Engine
import Xraytool.Spec.Replication

/-! The Xray engine's view of `config.json`: `raw_config.go` and `builder.go`. Every level is a Go map of raw messages
that is decoded where it is read, so a value of an unexpected kind fails only the function that reads it, and `null`
decodes into a nil map, a nil slice or an empty text. An object is the map it decodes to: of equal keys the first entry
counts. -/

namespace Xraytool.Xray

/-- A raw message; a number is its literal. -/
abbrev Raw := Json String

/-- An error with the contexts it was wrapped in. The texts of the JSON decoder and of the operating system
are theirs. -/
inductive Failure where
  | json
  | io
  | text (message : String)
  | wrap (context : String) (cause : Failure)
  deriving DecidableEq

/-- `map[string]json.RawMessage`; `none` is the nil map. -/
abbrev RawMap := Option (List (String × Raw))

def RawMap.get (m : RawMap) (key : String) : Option Raw := m.bind (·.lookup key)

/-- Assignment of a key. On a nil map it would panic; the engine only assigns to maps it made or in which it
found a key. -/
def RawMap.set (m : RawMap) (key : String) (value : Raw) : RawMap := m.map (Assoc.put · key value)

/-- The same entries, in any order. -/
def RawMap.Same (m m' : RawMap) : Prop := ∀ key, m.get key = m'.get key

def unmarshalMap : Raw → Except Failure RawMap
  | .null => .ok none
  | .obj fields => .ok (some fields)
  | _ => .error .json

/-- Into a slice of maps; `none` is the nil slice. -/
def unmarshalMaps : Raw → Except Failure (Option (List RawMap))
  | .null => .ok none
  | .arr items => (items.mapM unmarshalMap).map some
  | _ => .error .json

def unmarshalText : Raw → Except Failure String
  | .null => .ok ""
  | .str s => .ok s
  | _ => .error .json

def marshalMap : RawMap → Raw
  | none => .null
  | some fields => .obj fields

def marshalMaps (maps : List RawMap) : Raw := .arr (maps.map marshalMap)

def rawString (m : RawMap) (key : String) : String :=
  match (m.get key).map unmarshalText with
  | some (.ok value) => trimSpace value
  | _ => ""

/-- `GetInbounds`; a missing key and `null` give no inbounds. -/
def getInbounds (cfg : RawMap) : Except Failure (List RawMap) :=
  match cfg.get "inbounds" with
  | none => .ok []
  | some raw => ((unmarshalMaps raw).mapError (.wrap "parsing inbounds")).map (·.getD [])

def setInbounds (cfg : RawMap) (inbounds : List RawMap) : Except Failure RawMap :=
  if cfg = none then .error (.text "RawConfig is nil") else .ok (cfg.set "inbounds" (marshalMaps inbounds))

def tag (ib : RawMap) : String := rawString ib "tag"

def protocol (ib : RawMap) : String := toLower (rawString ib "protocol")

def isHysteria (ib : RawMap) : Bool := protocol ib ∈ ["hysteria", "hysteria2", "hy2"]

def parseSettings (ib : RawMap) : Except Failure (List (String × Raw)) :=
  match ib.get "settings" with
  | none => .ok []
  | some raw => ((unmarshalMap raw).mapError (.wrap "parsing inbound settings")).map (·.getD [])

def listKey (settings : List (String × Raw)) : Option String := ["clients", "users"].find? (Assoc.has settings)

def clientsKey (ib : RawMap) : String :=
  match parseSettings ib with
  | .ok settings => (listKey settings).getD ""
  | .error _ => ""

def hasClientList (ib : RawMap) : Bool := clientsKey ib ≠ ""

/-- `GetClients`; `none` is the nil slice, of an inbound without a list or with the list `null`. -/
def getClients (ib : RawMap) : Except Failure (Option (List RawMap)) := do
  let settings ← parseSettings ib
  match listKey settings with
  | none => .ok none
  | some key => (unmarshalMaps ((settings.lookup key).getD .null)).mapError (.wrap ("parsing " ++ key))

/-- `cleanLegacy`: a copy without the fields of an older format. -/
def cleanLegacy (c : RawMap) : RawMap := some (Assoc.drop (Assoc.drop (c.getD []) "hy2_auth") "hy2_obfs")

def getString (c : RawMap) (key : String) : String :=
  match c.get key with
  | some (.str value) => trimSpace value
  | some (.num literal) => trimSpace literal
  | _ => ""

def email (c : RawMap) : String :=
  let address := getString c "email"
  if address ≠ "" then address else getString c "name"

def setClients (ib : RawMap) (clients : List RawMap) : Except Failure RawMap := do
  let settings ← parseSettings ib
  let key := (listKey settings).getD (if isHysteria ib then "users" else "clients")
  .ok (ib.set "settings" (.obj (Assoc.put settings key (marshalMaps (clients.map cleanLegacy)))))

structure TaggedClient where
  tag : String
  client : RawMap
  deriving DecidableEq

structure ClientParams where
  email : String
  uuid : String
  auth : String
  subfile : String
  expire : String
  flow : String
  /-- a whole number, as `configToParams` takes it from the device limit -/
  limit : Option Int

def streamSettings (ib : RawMap) : Option RawMap :=
  match (ib.get "streamSettings").map unmarshalMap with
  | some (.ok stream) => some stream
  | _ => none

/-- Whether a VLESS inbound uses an HTTP transport, on which Vision is invalid. -/
def isHTTPTransport (ib : RawMap) : Bool :=
  match streamSettings ib with
  | none => false
  | some stream => match (stream.get "network").map unmarshalText with
    | some (.ok network) => toLower (trimSpace network) ∈ ["xhttp", "splithttp"]
    | _ => false

/-- Whether Vision applies: TLS or Reality over TCP, which is also the network if none is given. -/
def hasXTLS (ib : RawMap) : Bool :=
  match parseSettings ib, streamSettings ib with
  | .ok _, some stream =>
    -- `rawString` drops the error of a network that is not a text, as the source does here
    let net := toLower (rawString stream "network")
    let net := if net = "" then "tcp" else net
    net = "tcp" ∧ toLower (rawString stream "security") ∈ ["reality", "tls"]
  | _, _ => false

/-- The fields every client has, whatever the protocol. -/
def metadataFields (params : ClientParams) : List (String × Raw) :=
  let fields := [("email", .str params.email)]
  let fields := if params.subfile ≠ "" then Assoc.put fields "subfile" (.str params.subfile) else fields
  let fields := if params.expire ≠ "" then Assoc.put fields "expire" (.str params.expire) else fields
  match params.limit with
  | some limit => Assoc.put fields "limit" (.num (toString limit))
  | none => fields

/-- The flow of a VLESS client; empty for none. -/
def vlessFlow (ib : RawMap) (params : ClientParams) : String :=
  if isHTTPTransport ib then "" else if params.flow = "" ∧ hasXTLS ib then "xtls-rprx-vision" else params.flow

def requireUUID (protocol : String) (params : ClientParams) (fields : List (String × Raw)) :
    Except Failure (List (String × Raw)) :=
  if params.uuid = "" then .error (.text (protocol ++ " requires UUID"))
  else .ok (("id", .str params.uuid) :: fields)

/-- What a protocol adds to the metadata: the credentials. -/
def credentials (ext : Externals) (protocol flow : String) (params : ClientParams) :
    Except Failure (List (String × Raw)) :=
  if protocol = "vless" then requireUUID protocol params (if flow ≠ "" then [("flow", .str flow)] else [])
  else if protocol ∈ ["xhttp", "splithttp", "vmess"] then requireUUID protocol params []
  else if protocol ∈ ["trojan", "shadowsocks"] then
    let auth := if params.auth = "" then params.uuid else params.auth
    if auth = "" then .error (.text (protocol ++ " requires auth/password")) else .ok [("password", .str auth)]
  else if protocol ∈ ["hysteria", "hysteria2", "hy2"] then
    let derived := params.auth = "" ∨ ext.isUUID params.auth
    .ok [("auth", .str (if derived then buildDeterministicHy2Pass ext params.uuid params.email else params.auth))]
  else .error (.text ("unsupported protocol for user generation: " ++ protocol))

def buildClient (ext : Externals) (ib : RawMap) (params : ClientParams) : Except Failure RawMap :=
  (credentials ext (protocol ib) (vlessFlow ib params) params).map fun fields => some (metadataFields params ++ fields)

/-- `BuildForAllInbounds`; the first inbound whose client cannot be built ends it. -/
def buildForAllInbounds (ext : Externals) (params : ClientParams) : List RawMap → Except Failure (List TaggedClient)
  | [] => .ok []
  | ib :: rest => do
    if !hasClientList ib || tag ib = "" then buildForAllInbounds ext params rest
    else
      let client ← (buildClient ext ib params).mapError
        (.wrap ("building client for inbound " ++ quoted (tag ib)))
      let payload ← buildForAllInbounds ext params rest
      .ok (⟨tag ib, client⟩ :: payload)

/-! Adding and removing a user in `config.json` (`users.go`). -/

/-- The emails of each tagged client inbound, in the order in which `MissingClientPayload` records them. -/
def recordedEmails : List RawMap → Except Failure (List (String × List String))
  | [] => .ok []
  | ib :: rest => do
    let clients ← (getClients ib).mapError (.wrap ("inbound " ++ quoted (tag ib)))
    let recorded ← recordedEmails rest
    match clients with
    | none => .ok recorded
    | some clients =>
      if tag ib = "" then .ok recorded
      else .ok ((tag ib, (clients.map email).filter (· ≠ "")) :: recorded)

/-- A client is missing if its inbound has none of its email; what else the client says is not compared. -/
def isMissing (clientsByTag : List (String × List String)) (tagged : TaggedClient) : Bool :=
  tagged.tag ≠ "" ∧ tagged.client ≠ none ∧ email tagged.client ≠ "" ∧
    email tagged.client ∉ (clientsByTag.lookup tagged.tag).getD []

def missingClientPayload (cfg : RawMap) (payload : List TaggedClient) : Except Failure (List TaggedClient) := do
  let inbounds ← getInbounds cfg
  let recorded ← recordedEmails inbounds
  .ok (payload.filter (isMissing (Assoc.ofList recorded)))

def taggedClientMap (payload : List TaggedClient) : List (String × RawMap) :=
  Assoc.ofList (payload.map fun tagged => (tagged.tag, tagged.client))

/-- The new client replaces those with its email. -/
def replaceClient (existing : List RawMap) (newClient : RawMap) : List RawMap :=
  existing.filter (fun c => email c = "" ∨ email c ≠ email newClient) ++ [newClient]

/-- One round of the loop of `AddUserToInbounds`. -/
def addToInbound (byTag : List (String × RawMap)) (ib : RawMap) : Except Failure RawMap :=
  match byTag.lookup (tag ib) with
  | none => .ok ib
  | some newClient => do
    let existing ← (getClients ib).mapError (.wrap ("inbound " ++ quoted (tag ib)))
    match existing with
    | none => .ok ib
    | some existing =>
      (setClients ib (replaceClient existing newClient)).mapError (.wrap ("inbound " ++ quoted (tag ib)))

def addUserToInbounds (cfg : RawMap) (payload : List TaggedClient) : Except Failure RawMap := do
  let inbounds ← getInbounds cfg
  let changed ← inbounds.mapM (addToInbound (taggedClientMap payload))
  setInbounds cfg changed

/-- `UserExists`, with the error dropped as its caller drops it; an inbound that cannot be read is skipped. -/
def userExists (cfg : RawMap) (address : String) : Bool :=
  match getInbounds cfg with
  | .error _ => false
  | .ok inbounds => inbounds.any fun ib => match getClients ib with
    | .ok (some clients) => clients.any (email · = address)
    | _ => false

/-- One round of the loop of `RemoveUserFromAllInbounds`. -/
def removeFromInbound (address : String) (ib : RawMap) : Except Failure RawMap := do
  match ← getClients ib with
  | none => .ok ib
  | some clients => setClients ib (clients.filter (email · ≠ address))

def removeUserFromAllInbounds (cfg : RawMap) (address : String) : Except Failure RawMap := do
  let inbounds ← getInbounds cfg
  let changed ← inbounds.mapM (removeFromInbound address)
  setInbounds cfg changed

def inboundsOf (file : Option Raw) : Except Failure (List RawMap) :=
  match file with
  | none => .error .io
  | some raw => unmarshalMap raw >>= getInbounds

def configToParams (user : VPNUserConfig) : ClientParams where
  email := user.email
  uuid := user.uuid
  auth := user.auth
  subfile := user.subfile
  expire := user.expire
  flow := user.flow
  limit := if 0 < user.maxDevices then some user.maxDevices else none

end Xraytool.Xray
