import Xraytool.Spec.XrayEngine

/-! The Sing-box plugin (`engine_singbox`). Every change of the users loads the config, changes the managed inbounds
of the document, and writes, checks and reloads it; the users that a soft ban removes are kept in memory. The plugin is
initialised, and its mutex makes each operation one step. The process runs what was last reloaded. -/

namespace Xraytool.SingBox

open Xray (Raw Failure)

/-- `map[string]any`. -/
abbrev Object := List (String × Raw)

def mapString (value : Object) (key : String) : String :=
  match value.lookup key with
  | some (.str text) => trimSpace text
  | _ => ""

def asObject : Raw → Option Object
  | .obj fields => some fields
  | _ => none

/-- `decodeConfig`; whatever is not an object stands for bytes that are not one. -/
def decodeConfig : Raw → Except Failure Object
  | .obj fields => .ok fields
  | .null => .error (.wrap "engine_singbox" (.text "Sing-box JSON root must be an object"))
  | _ => .error (.wrap "engine_singbox" (.wrap "decode Sing-box JSON" .json))

def supportedInbound (inbound : Object) : Bool :=
  toLower (mapString inbound "type") ∈ ["vless", "vmess", "trojan", "shadowsocks", "hysteria2", "tuic"]

/-- The inbounds that the plugin changes: all supported ones, or those with the configured tags. -/
def isManaged (tags : List String) (inbound : Object) : Bool :=
  supportedInbound inbound ∧ (tags = [] ∨ mapString inbound "tag" ∈ tags)

def inboundItems (document : Object) : List Raw :=
  match document.lookup "inbounds" with
  | some (.arr items) => items
  | _ => []

def managedInbounds (document : Object) (tags : List String) : List Object :=
  ((inboundItems document).filterMap asObject).filter (isManaged tags)

def updateItem (tags : List String) (change : Object → Object) (item : Raw) : Raw :=
  match asObject item with
  | some inbound => .obj (if isManaged tags inbound then change inbound else inbound)
  | none => item

/-- A change of the managed inbounds in their place in the document. -/
def updateManaged (tags : List String) (change : Object → Object) (document : Object) : Object :=
  match document.lookup "inbounds" with
  | some (.arr items) => Assoc.put document "inbounds" (.arr (items.map (updateItem tags change)))
  | _ => document

def inboundUsers (inbound : Object) : List Object :=
  match inbound.lookup "users" with
  | some (.arr items) => items.filterMap asObject
  | _ => []

def writeInboundUsers (inbound : Object) (users : List Object) : Object :=
  Assoc.put inbound "users" (.arr (users.map .obj))

def userEmail (user : Object) : String :=
  if mapString user "name" ≠ "" then mapString user "name" else mapString user "email"

def firstNonEmpty (values : List String) : String := ((values.map trimSpace).find? (· ≠ "")).getD ""

def userRecordForInbound (inbound : Object) (user : VPNUserConfig) : Object :=
  let kind := toLower (mapString inbound "type")
  let password : String × Raw := ("password", .str (firstNonEmpty [user.auth, user.uuid]))
  let credentials : Object :=
    if kind ∈ ["vless", "vmess"] then
      ("uuid", .str user.uuid) ::
        (if user.flow ≠ "" ∧ equalFold (mapString inbound "type") "vless" then [("flow", .str user.flow)] else [])
    else if kind ∈ ["trojan", "hysteria2"] then [password]
    else if kind = "shadowsocks" then
      password :: (if user.cipher ≠ "" then [("method", .str user.cipher)] else [])
    else if kind = "tuic" then [("uuid", .str user.uuid), password]
    else []
  let metadata : Object :=
    (if user.expire ≠ "" then [("expire", .str user.expire)] else []) ++
      (if user.maxDevices > 0 then [("max_devices", .num (toString user.maxDevices))] else [])
  ("name", .str user.email) :: credentials ++ (if metadata ≠ [] then [("xraytool", .obj metadata)] else [])

def putAll (fields new : Object) : Object := new.foldl (fun m entry => Assoc.put m entry.1 entry.2) fields

def metadataOf (record : Object) : Object := ((record.lookup "xraytool").bind asObject).getD []

def mergeUserRecord (existing replacement : Object) : Object :=
  replacement.foldl (fun merged entry =>
    if entry.1 = "xraytool" then
      Assoc.put merged "xraytool" (.obj (putAll (metadataOf merged) ((asObject entry.2).getD [])))
    else Assoc.put merged entry.1 entry.2) existing

/-- The first record that meets `p` is changed. -/
def updateFirst (p : Object → Bool) (change : Object → Object) : List Object → List Object
  | [] => []
  | record :: rest => if p record then change record :: rest else record :: updateFirst p change rest

/-- One round of the loop of `AddUser`. -/
def addToInbound (user : VPNUserConfig) (inbound : Object) : Object :=
  let users := inboundUsers inbound
  let next := userRecordForInbound inbound user
  writeInboundUsers inbound
    (if users.any (userEmail · = user.email) then updateFirst (userEmail · = user.email) (mergeUserRecord · next) users
    else users ++ [next])

/-- `indexByEmail`: the last record of each email. -/
def indexByEmail (users : List Object) : List (String × Nat) :=
  Assoc.ofList ((users.zipIdx.filter fun entry => userEmail entry.1 ≠ "").map fun entry => (userEmail entry.1, entry.2))

/-- One user of `AddUsersBulk` in one inbound. -/
def addInBulk (inbound : Object) (acc : List Object × List (String × Nat)) (user : VPNUserConfig) :
    List Object × List (String × Nat) :=
  let next := userRecordForInbound inbound user
  match acc.2.lookup user.email with
  | some index => (acc.1.modify index (mergeUserRecord · next), acc.2)
  | none => (acc.1 ++ [next], Assoc.put acc.2 user.email acc.1.length)

def addAllToInbound (users : List VPNUserConfig) (inbound : Object) : Object :=
  let current := inboundUsers inbound
  writeInboundUsers inbound (users.foldl (addInBulk inbound) (current, indexByEmail current)).1

/-- The loops of `RemoveUser`, `RemoveUsersBulk` and `BanUser` over an inbound. -/
def removeFromInbound (emails : List String) (inbound : Object) : Object :=
  writeInboundUsers inbound ((inboundUsers inbound).filter (userEmail · ∉ emails))

/-- The records that `BanUser` removes, by tag. -/
def banRecords (address : String) (inbounds : List Object) : List (String × List Object) :=
  inbounds.foldl (fun records inbound =>
    let removed := (inboundUsers inbound).filter (userEmail · = address)
    if removed = [] then records
    else
      let t := mapString inbound "tag"
      Assoc.put records t ((records.lookup t).getD [] ++ removed)) []

/-- The loop of `UnbanUser` over an inbound. -/
def restoreInbound (address : String) (records : List (String × List Object)) (inbound : Object) : Object :=
  ((records.lookup (mapString inbound "tag")).getD []).foldl (fun inbound record =>
    if (inboundUsers inbound).any (userEmail · = address) then inbound
    else writeInboundUsers inbound (inboundUsers inbound ++ [record])) inbound

/-- The loop of `updateUserMetadata` over an inbound. -/
def updateMetadata (address key : String) (value : Raw) (inbound : Object) : Object :=
  writeInboundUsers inbound ((inboundUsers inbound).map fun user =>
    if userEmail user = address then Assoc.put user "xraytool" (.obj (Assoc.put (metadataOf user) key value)) else user)

def desiredUsers (users : List VPNUserConfig) : List (String × VPNUserConfig) :=
  Assoc.ofList ((users.filter fun user => trimSpace user.email ≠ "").map fun user =>
    (trimSpace user.email, { user with email := trimSpace user.email }))

def sortedKeys {α : Type} (m : List (String × α)) : List String := (m.map Prod.fst).insertionSort (· ≤ ·)

/-- The records of an inbound by email; the last one of an email counts. -/
def recordsByEmail (users : List Object) : List (String × Object) :=
  Assoc.ofList ((users.filter (userEmail · ≠ "")).map fun user => (userEmail user, user))

def syncInbound (desired : List (String × VPNUserConfig)) (removeOrphans : Bool) (inbound : Object) : Object :=
  let current := inboundUsers inbound
  let existing := recordsByEmail current
  let wanted := (sortedKeys desired).filterMap fun address => (desired.lookup address).map fun user =>
    let record := userRecordForInbound inbound user
    ((existing.lookup address).map (mergeUserRecord · record)).getD record
  let others := if removeOrphans then [] else
    (sortedKeys existing).filterMap fun address => if Assoc.has desired address then none else existing.lookup address
  writeInboundUsers inbound (current.filter (userEmail · = "") ++ wanted ++ others)

/-- The records removed by soft bans: email, tag, records. -/
abbrev Banned := List (String × List (String × List Object))

structure Plugin where
  /-- the config file -/
  file : Option Raw
  /-- what the process runs -/
  running : Option Raw
  banned : Banned

structure PluginEnv where
  configPath : String
  /-- empty if no template is configured -/
  templatePath : String
  /-- the file at `templatePath` -/
  template : Option Raw
  managedInboundTags : List String

inductive PluginOp where
  | readConfig
  | readTemplate
  | check
  | write
  | reload
  /-- writing the old config back after a failed reload -/
  | restore
  | reloadRestored
  deriving DecidableEq

abbrev Faults := PluginOp → Bool

/-- A change of the document, which may change the bans even if it fails. -/
abbrev Mutation := Banned → Object → Banned × Except Failure Object

/-- `os.ReadFile` and `decodeConfig`; `what` and `path` name the file in the error. -/
def readDocument (fails : Bool) (what path : String) (file : Option Raw) : Except Failure Object :=
  match file with
  | some raw => if fails then .error (readError what path) else decodeConfig raw
  | none => .error (readError what path)
where
  readError (what path : String) : Failure := .wrap ("engine_singbox: read " ++ what ++ " " ++ quoted path) .io

namespace Plugin

variable (env : PluginEnv) (fails : Faults) (p : Plugin)

/-- `writeAndReloadLocked`. -/
def writeAndReload (document : Object) : Plugin × Except Failure Unit :=
  if fails .check then (p, .error (.wrap "engine_singbox: validate candidate config" .io))
  else if fails .write then
    (p, .error (.wrap ("engine_singbox: write config " ++ quoted env.configPath) .io))
  else if fails .reload then
    let file := if fails .restore then some (.obj document) else p.file
    ({ p with file := file, running := if fails .reloadRestored then p.running else file },
      .error (.wrap "engine_singbox: reload after config update" .io))
  else ({ p with file := some (.obj document), running := some (.obj document) }, .ok ())

/-- The change is made to a document, then written. -/
def commit (source : Except Failure Object) (mutate : Mutation) : Plugin × Except Failure Unit :=
  match source with
  | .error e => (p, .error e)
  | .ok document => match mutate p.banned document with
    | (banned, .error e) => ({ p with banned := banned }, .error e)
    | (banned, .ok candidate) => ({ p with banned := banned }).writeAndReload env fails candidate

def mutateConfig (mutate : Mutation) : Plugin × Except Failure Unit :=
  p.commit env fails (readDocument (fails .readConfig) "config" env.configPath p.file) mutate

/-- The document that a sync starts from: the template, if there is one. -/
def syncSource : Except Failure Object :=
  if p.file = none ∨ fails .readConfig then .error (readDocument.readError "config" env.configPath)
  else if env.templatePath ≠ "" then readDocument (fails .readTemplate) "template" env.templatePath env.template
  else readDocument (fails .readTemplate) "config" env.configPath p.file

def noInbounds : Failure := .text "engine_singbox: no supported managed inbounds found"

def emailRequired : Failure := .text "engine_singbox: user email is required"

def addUser (user : VPNUserConfig) : Plugin × Except Failure Unit :=
  if trimSpace user.email = "" then (p, .error emailRequired)
  else p.mutateConfig env fails fun banned document =>
    if managedInbounds document env.managedInboundTags = [] then (banned, .error noInbounds)
    else (Assoc.drop banned user.email, .ok (updateManaged env.managedInboundTags (addToInbound user) document))

/-- The bans that `AddUsersBulk` lifts, up to a user without an email. -/
def liftBans (users : List VPNUserConfig) (banned : Banned) : Banned :=
  ((users.takeWhile fun user => trimSpace user.email ≠ "").map (·.email)).foldl Assoc.drop banned

def addUsersBulk (users : List VPNUserConfig) : Plugin × Except Failure Unit :=
  if users = [] then (p, .ok ())
  else p.mutateConfig env fails fun banned document =>
    if managedInbounds document env.managedInboundTags = [] then (banned, .error noInbounds)
    else if users.any fun user => trimSpace user.email = "" then (liftBans users banned, .error emailRequired)
    else (liftBans users banned, .ok (updateManaged env.managedInboundTags (addAllToInbound users) document))

/-- `RemoveUser` and `RemoveUsersBulk`, for emails without surrounding spaces. -/
def dropUsers (emails : List String) : Plugin × Except Failure Unit :=
  p.mutateConfig env fails fun banned document =>
    (emails.foldl Assoc.drop banned, .ok (updateManaged env.managedInboundTags (removeFromInbound emails) document))

def removeUser (address : String) : Plugin × Except Failure Unit :=
  if trimSpace address = "" then (p, .error emailRequired) else p.dropUsers env fails [trimSpace address]

def removeUsersBulk (emails : List String) : Plugin × Except Failure Unit :=
  let remove := (emails.map trimSpace).filter (· ≠ "")
  if remove = [] then (p, .ok ()) else p.dropUsers env fails remove

/-- `updateUserMetadata`, behind `SetExpire` and `SetLimit`. -/
def updateUserMetadata (address key : String) (value : Raw) : Plugin × Except Failure Unit :=
  if trimSpace address = "" then (p, .error emailRequired)
  else p.mutateConfig env fails fun banned document =>
    if (managedInbounds document env.managedInboundTags).any fun inbound =>
        (inboundUsers inbound).any (userEmail · = trimSpace address) then
      (banned, .ok (updateManaged env.managedInboundTags (updateMetadata (trimSpace address) key value) document))
    else (banned, .error (.text ("engine_singbox: user " ++ quoted (trimSpace address) ++ " not found")))

/-- `BanUser`: the records go from the config to memory. -/
def banUser (address : String) : Plugin × Except Failure Unit :=
  let address := trimSpace address
  if address = "" then (p, .error emailRequired)
  else p.mutateConfig env fails fun banned document =>
    let records := banRecords address (managedInbounds document env.managedInboundTags)
    (if records = [] then banned else Assoc.put banned address records,
      .ok (updateManaged env.managedInboundTags (removeFromInbound [address]) document))

/-- `UnbanUser`: the records go back. -/
def unbanUser (address : String) : Plugin × Except Failure Unit :=
  let address := trimSpace address
  if address = "" then (p, .error emailRequired)
  else p.mutateConfig env fails fun banned document =>
    match banned.lookup address with
    | none | some [] => (banned, .ok document)
    | some records => (Assoc.drop banned address,
      .ok (updateManaged env.managedInboundTags (restoreInbound address records) document))

/-- `SyncUsers`; a ban of a listed user is lifted. -/
def syncUsers (users : List VPNUserConfig) (removeOrphans : Bool) : Plugin × Except Failure Unit :=
  p.commit env fails (p.syncSource env fails) fun banned document =>
    if managedInbounds document env.managedInboundTags = [] then (banned, .error noInbounds)
    else
      let desired := desiredUsers users
      ((desired.map Prod.fst).foldl Assoc.drop banned,
        .ok (updateManaged env.managedInboundTags (syncInbound desired removeOrphans) document))

def restart : Plugin := { p with banned := [] }

end Plugin

inductive PluginCall where
  | addUser (user : VPNUserConfig)
  | addUsersBulk (users : List VPNUserConfig)
  | removeUser (address : String)
  | removeUsersBulk (emails : List String)
  | setExpire (address expire : String)
  /-- the limit as a JSON number -/
  | setLimit (address limit : String)
  | banUser (address : String)
  | unbanUser (address : String)
  | syncUsers (users : List VPNUserConfig) (removeOrphans : Bool)
  | restart

structure PluginStep where
  call : PluginCall
  fails : Faults

def Plugin.run (env : PluginEnv) (p : Plugin) (step : PluginStep) : Plugin × Except Failure Unit :=
  match step.call with
  | .addUser user => p.addUser env step.fails user
  | .addUsersBulk users => p.addUsersBulk env step.fails users
  | .removeUser address => p.removeUser env step.fails address
  | .removeUsersBulk emails => p.removeUsersBulk env step.fails emails
  | .setExpire address expire => p.updateUserMetadata env step.fails address "expire" (.str expire)
  | .setLimit address limit => p.updateUserMetadata env step.fails address "max_devices" (.num limit)
  | .banUser address => p.banUser env step.fails address
  | .unbanUser address => p.unbanUser env step.fails address
  | .syncUsers users removeOrphans => p.syncUsers env step.fails users removeOrphans
  | .restart => (p.restart, .ok ())

def pluginStep (env : PluginEnv) (p : Plugin) (step : PluginStep) : Option Plugin := some (p.run env step).1

end Xraytool.SingBox
