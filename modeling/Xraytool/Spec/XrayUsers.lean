import Xraytool.Spec.XrayEngine

/-! The rest of `users.go`: what the adapter asks of a config, the difference between the config on disk and the desired
clients, and bulk changes. A query skips an inbound whose clients cannot be read; a change fails on it. -/

namespace Xraytool.Xray

def readClients (ib : RawMap) : List RawMap :=
  match getClients ib with
  | .ok (some clients) => clients
  | _ => []

def isRawMessageEmpty (raw : Raw) : Bool := raw = .null ∨ raw = .str ""

/-- The value of a key after one more client: an empty value is only taken where there is none. -/
def mergeValue (key : String) (merged : Option Raw) (c : RawMap) : Option Raw :=
  match c.get key with
  | none => merged
  | some value => if isRawMessageEmpty value then merged.or (some value) else some value

def RawMap.keys (m : RawMap) : List String := (m.getD []).map Prod.fst

def mergeClients (clients : List RawMap) : RawMap :=
  some ((clients.flatMap RawMap.keys).dedup.filterMap fun key =>
    (clients.foldl (mergeValue key) none).map fun value => (key, value))

def findUser (cfg : RawMap) (address : String) : Except Failure (Option RawMap) := do
  let inbounds ← getInbounds cfg
  let found := inbounds.flatMap fun ib => (readClients ib).filter (email · = address)
  .ok (if found = [] then none else some (mergeClients found))

def indexClient (index : List (String × List RawMap)) (c : RawMap) : List (String × List RawMap) :=
  Assoc.put index (email c) ((index.lookup (email c)).getD [] ++ [c])

/-- `BuildUserIndex`: the function that it returns. -/
def buildUserIndex (cfg : RawMap) : Except Failure (String → Option RawMap) := do
  let inbounds ← getInbounds cfg
  let index := (inbounds.flatMap readClients).foldl indexClient []
  .ok fun address =>
    let matched := (index.lookup address).getD []
    if matched = [] then none else some (mergeClients matched)

/-- The emails of a config, each where it occurs first. -/
def emailsInOrder (clients : List RawMap) : List String :=
  clients.foldl (fun order c => if email c = "" ∨ email c ∈ order then order else order ++ [email c]) []

/-- `ListUsers`: one merged client per email. -/
def listUsers (cfg : RawMap) : Except Failure (List RawMap) := do
  let inbounds ← getInbounds cfg
  let clients := inbounds.flatMap readClients
  .ok ((emailsInOrder clients).map fun e => mergeClients (clients.filter (email · = e)))

/-- The tags of the inbounds that have a client with the email; an inbound without a tag is left out. -/
def tagsFor (inbounds : List RawMap) (address : String) : List String :=
  ((inbounds.filter fun ib => (readClients ib).any (email · = address)).map tag).filter (· ≠ "")

def inboundTagsForUser (cfg : RawMap) (address : String) : Except Failure (List String) := do
  let inbounds ← getInbounds cfg
  .ok (tagsFor inbounds address)

/-- `InboundTagsForUsers`: the entries of the map it returns, which has the emails with a tag. -/
def inboundTagsForUsers (cfg : RawMap) (emails : List String) : Except Failure (List (String × List String)) := do
  let inbounds ← getInbounds cfg
  .ok ((emails.dedup.map fun e => (e, tagsFor inbounds e)).filter (·.2 ≠ []))

/-! ### The desired clients and the difference -/

/-- `DesiredUserClientPayload`, with the loop over the inbounds. -/
def desiredClients (emails : List String) : List RawMap → Except Failure (List TaggedClient)
  | [] => .ok []
  | ib :: rest => do
    if tag ib = "" then desiredClients emails rest
    else
      let clients ← (getClients ib).mapError (.wrap ("inbound " ++ quoted (tag ib)))
      let payload ← desiredClients emails rest
      let listed := (clients.getD []).filter fun c => email c ≠ "" ∧ email c ∈ emails
      .ok (listed.map (TaggedClient.mk (tag ib)) ++ payload)

def desiredUserClientPayload (cfg : RawMap) (emails : List String) : Except Failure (List TaggedClient) := do
  desiredClients emails (← getInbounds cfg)

/-- `rawClientKey`: the same JSON, in which a map is written with its keys sorted. -/
def sameClient (c c' : RawMap) : Bool := (c.keys ++ c'.keys).all fun key => c.get key = c'.get key

/-- The clients of each tagged inbound by email; the last one of an email counts. -/
def previousClients : List RawMap → Except Failure (List (String × List (String × RawMap)))
  | [] => .ok []
  | ib :: rest => do
    let clients ← (getClients ib).mapError (.wrap ("inbound " ++ quoted (tag ib)))
    let previous ← previousClients rest
    match clients with
    | none => .ok previous
    | some clients =>
      if tag ib = "" then .ok previous
      else .ok ((tag ib, Assoc.ofList ((clients.filter (email · ≠ "")).map fun c => (email c, c))) :: previous)

inductive ClientChange where
  | keep
  | add
  | replace
  deriving DecidableEq

def clientChange (previousByTag : List (String × List (String × RawMap))) (tagged : TaggedClient) : ClientChange :=
  if tagged.tag = "" ∨ tagged.client = none ∨ email tagged.client = "" then .keep
  else match ((previousByTag.lookup tagged.tag).getD []).lookup (email tagged.client) with
    | none => .add
    | some previous => if sameClient previous tagged.client then .keep else .replace

def appendTag (tags : List (String × List String)) (address : String) (t : String) : List (String × List String) :=
  Assoc.put tags address ((tags.lookup address).getD [] ++ [t])

/-- `DiffClientPayload`: the clients to add, and the tags from which an email is removed before. -/
def diffClientPayload (previous : RawMap) (desired : List TaggedClient) :
    Except Failure (List TaggedClient × List (String × List String)) :=
  if previous = none then .ok (desired, [])
  else do
    let inbounds ← getInbounds previous
    let byTag := Assoc.ofList (← previousClients inbounds)
    .ok (desired.filter (clientChange byTag · ≠ .keep),
      (desired.filter (clientChange byTag · = .replace)).foldl
        (fun tags tagged => appendTag tags (email tagged.client) tagged.tag) [])

/-- One round of the loop of `RemoveUsersFromAllInbounds`. -/
def removeAllFromInbound (emails : List String) (ib : RawMap) : Except Failure RawMap := do
  match ← getClients ib with
  | none => .ok ib
  | some clients => setClients ib (clients.filter (email · ∉ emails))

def removeUsersFromAllInbounds (cfg : RawMap) (emails : List String) : Except Failure RawMap := do
  let inbounds ← getInbounds cfg
  let changed ← inbounds.mapM (removeAllFromInbound emails)
  setInbounds cfg changed

/-- One round of the loop of `mutateClients`. -/
def mutateInbound (address : String) (change : RawMap → RawMap) (ib : RawMap) : Except Failure RawMap := do
  match ← getClients ib with
  | none => .ok ib
  | some clients =>
    if clients.any (email · = address) then
      setClients ib (clients.map fun c => if email c = address then cleanLegacy (change c) else c)
    else .ok ib

def mutateClients (cfg : RawMap) (address : String) (change : RawMap → RawMap) : Except Failure RawMap := do
  let inbounds ← getInbounds cfg
  let changed ← inbounds.mapM (mutateInbound address change)
  setInbounds cfg changed

def updateStringField (cfg : RawMap) (address key value : String) : Except Failure RawMap :=
  mutateClients cfg address fun c => c.set key (.str value)

/-- `UpdateNumberField`; `none` is a number without a JSON form, which leaves the field. -/
def updateNumberField (cfg : RawMap) (address key : String) (value : Option String) : Except Failure RawMap :=
  mutateClients cfg address fun c => match value with
    | some literal => c.set key (.num literal)
    | none => c

/-! `template.go` and `template_users.go`: the config generated from the template and a snapshot of users, and
the users that the template itself lists. -/

/-! ### Merging a snapshot into the template -/

/-- The users of a snapshot that get clients: the first of each email that is not empty. -/
def distinctUsers : List String → List VPNUserConfig → List VPNUserConfig
  | _, [] => []
  | seen, u :: rest =>
    if u.email = "" ∨ u.email ∈ seen then distinctUsers seen rest else u :: distinctUsers (u.email :: seen) rest

variable (ext : Externals) (keys : RealityKeys)

/-- `buildDynamicClients`; a user whose client cannot be built is skipped in this inbound. -/
def buildDynamicClients (ib : RawMap) (users : List VPNUserConfig) : List RawMap :=
  (distinctUsers [] users).filterMap fun u => (buildClient ext ib (configToParams u)).toOption

/-- One round of the loop of `MergeUsers`. -/
def mergeInbound (users : List VPNUserConfig) (ib : RawMap) : Except Failure RawMap :=
  if !hasClientList ib then .ok ib
  else do
    let existing ← (getClients ib).mapError fun e =>
      .wrap ("merge: inbound " ++ quoted (tag ib)) (.wrap "read clients" e)
    let anonymous := (existing.getD []).filter (email · = "")
    (setClients ib (anonymous ++ buildDynamicClients ext ib users)).mapError fun e =>
      .wrap ("merge: inbound " ++ quoted (tag ib)) (.wrap "set clients" e)

def mergeUsers (template : RawMap) (users : List VPNUserConfig) : Except Failure RawMap := do
  -- the copy of the template is a map also if the template is nil
  let cloned : RawMap := some (template.getD [])
  let inbounds ← (getInbounds cloned).mapError (.wrap "merge: read inbounds")
  let merged ← inbounds.mapM (mergeInbound ext users)
  (setInbounds cloned merged).mapError (.wrap "merge: write inbounds")

structure RealityKeys where
  privateKey : String
  publicKey : String
  shortIDs : List String

/-- The inbounds that have Reality keys. -/
def usesReality (ib : RawMap) : Bool :=
  protocol ib ∈ ["vless", "xhttp", "splithttp"] ∧
    ((streamSettings ib).bind fun stream => stream.get "security") = some (.str "reality")

def replaceKeys (reality : List (String × Raw)) : List (String × Raw) :=
  Assoc.put (Assoc.put reality "privateKey" (.str keys.privateKey)) "shortIds" (.arr (keys.shortIDs.map .str))

/-- An inbound with other keys; `none` if it is left alone. On `realitySettings` that are `null` the
assignment would panic; here such an inbound is left alone. -/
def injectInbound (ib : RawMap) : Option RawMap :=
  match streamSettings ib with
  | none => none
  | some stream => match (stream.get "realitySettings").map unmarshalMap with
    | some (.ok (some reality)) =>
      if usesReality ib then
        some (ib.set "streamSettings" (marshalMap (stream.set "realitySettings" (.obj (replaceKeys keys reality)))))
      else none
    | _ => none

def injectRealityKeys (cfg : RawMap) : Except Failure RawMap := do
  let inbounds ← getInbounds cfg
  if inbounds.any fun ib => (injectInbound keys ib).isSome then
    setInbounds cfg (inbounds.map fun ib => (injectInbound keys ib).getD ib)
  else .ok cfg

/-- `rawClientToVPNUserConfig`; `truncate` is the whole part of a number literal. -/
def rawClientToVPNUserConfig (truncate : String → Int) (c : RawMap) : Option VPNUserConfig :=
  let address := trimSpace (email c)
  if address = "" then none
  else
    let auth := getString c "auth"
    some {
      email := address
      uuid := getString c "id"
      auth := if auth = "" then getString c "password" else auth
      subfile := getString c "subfile"
      expire := getString c "expire"
      maxDevices := match c.get "limit" with
        | some (.num literal) => max 0 (truncate literal)
        | _ => 0
      flow := getString c "flow"
      cipher := getString c "method" }

/-- `templateUsers`: the users of the template that the snapshot does not manage, without the blacklisted. -/
def templateUsers (truncate : String → Int) (template : RawMap) (managed : List VPNUserConfig)
    (blacklistedAdmins : List String) : Except Failure (List VPNUserConfig) := do
  let rawUsers ← (listUsers template).mapError (.wrap "list template users")
  let users := (rawUsers.filterMap (rawClientToVPNUserConfig truncate)).filter fun u =>
    u.email ∉ managed.map (trimSpace ·.email) ∧ u.email ∉ blacklistedAdmins.map trimSpace
  .ok (users.insertionSort fun a b => a.email ≤ b.email)

end Xraytool.Xray
