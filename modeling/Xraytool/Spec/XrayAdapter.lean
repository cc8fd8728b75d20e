import Xraytool.Spec.XrayUsers

/-! The Xray adapter (`engine.go`) as a machine: `config.json`, the `.hash` file, the `.dirty` flag, and the clients of
the running Xray process. Every access to a file and every call may fail; which do is part of the input of an operation.
The adapter's mutex makes each operation one step.

The process is a map from inbound tags to clients. A failed call has no effect on it; the batch that `adu` adds for
protocols without a gRPC form is taken client by client. The texts of its errors are not modelled (`Failure.io`). -/

namespace Xraytool.Xray

/-! ### The running process -/

abbrev Runtime := String → List RawMap

/-- `ForXrayAPI`: without the fields of the panel. -/
def forXrayAPI (c : RawMap) : RawMap :=
  some ((c.getD []).filter fun field => field.1 ∉ ["subfile", "expire", "limit"])

def runtimeForm (c : RawMap) : RawMap := forXrayAPI (cleanLegacy c)

/-- A client whose email the inbound already has is refused, which the caller takes for success. -/
def Runtime.add (rt : Runtime) (tagged : TaggedClient) : Runtime :=
  if email tagged.client ≠ "" ∧ (rt tagged.tag).any (email · = email tagged.client) then rt
  else Function.update rt tagged.tag (rt tagged.tag ++ [runtimeForm tagged.client])

def Runtime.remove (rt : Runtime) (t address : String) : Runtime :=
  Function.update rt t ((rt t).filter (email · ≠ address))

def Runtime.rebuild (rt : Runtime) (t : String) (ib : RawMap) : Runtime :=
  Function.update rt t ((readClients ib).map runtimeForm)

def runtimeOf (file : Option Raw) : Runtime := fun t =>
  match inboundsOf file with
  | .ok inbounds => ((inbounds.filter (tag · = t)).flatMap readClients).map runtimeForm
  | .error _ => []

/-! ### State and surroundings -/

structure Machine where
  /-- `config.json` -/
  file : Option Raw
  /-- the `.hash` file -/
  hash : Option String
  /-- whether the `.dirty` file exists -/
  dirty : Bool
  runtime : Runtime

/-- The settings of the adapter and the files it only reads. -/
structure AdapterEnv where
  ext : Externals
  configPath : String
  templatePath : String
  /-- the template, decoded and as bytes -/
  template : Option Raw
  templateText : Option String
  realityRotation : Bool
  realityKeysPath : String
  /-- the keys file, as the loader gives it and as bytes -/
  realityKeys : Except Failure RealityKeys
  keysText : Option String
  blacklistedAdmins : List String
  /-- `sort.Slice` by email, which is not stable -/
  sortUsers : List VPNUserConfig → List VPNUserConfig
  /-- the whole part of a number literal -/
  truncate : String → Int
  /-- the two inbounds have the same JSON text -/
  sameText : RawMap → RawMap → Bool

/-- The two places of a sync that remove clients and repair inbounds. -/
inductive Phase where
  | update
  | orphans
  deriving DecidableEq

inductive AdapterOp where
  | readOld
  | modify
  | listUsers
  | readExisting
  | writeConfig
  | readDesired
  | readProtocols
  | readInbound (phase : Phase) (t : String)
  | readHysteria
  | readHash
  | removeHash
  /-- opening the `.hash` file for writing -/
  | openHash
  | writeHash
  | writeDirty
  | removeDirty
  | restart
  | add (index : Nat)
  | remove (phase : Phase) (address t : String)
  | rebuild (phase : Phase) (t : String)
  | rebuildHysteria (t : String)
  /-- a call of the bulk update inside a sync -/
  | bulk (op : AdapterOp)
  deriving DecidableEq

abbrev Faults := AdapterOp → Bool

/-! ### Reading and the flag files -/

def readConfig (file : Option Raw) : Except Failure RawMap :=
  match file with
  | none => .error .io
  | some raw => unmarshalMap raw

/-- `cfg, _ := Read(path)`: the nil config on an error. -/
def readOrNil (fails : Bool) (file : Option Raw) : RawMap :=
  match readConfig file with
  | .ok cfg => if fails then none else cfg
  | .error _ => none

/-- `Modify`: read the file, change it, write it back, with what the change hands to its caller. On an error the file
stays. -/
def modifyWith {α : Type} (ioFails : Bool) (file : Option Raw)
    (change : RawMap → Except Failure (RawMap × α)) : Except Failure (Raw × α) :=
  match file with
  | none => .error .io
  | some raw => do
    let cfg ← unmarshalMap raw
    let (cfg, out) ← change cfg
    if ioFails then .error .io else .ok (marshalMap cfg, out)

namespace Machine

variable (env : AdapterEnv) (fails : Faults) (m : Machine)

def markDirty : Machine := { m with dirty := m.dirty || !fails .writeDirty }

/-- A restart reads the config anew. -/
def healDirty : Machine :=
  if m.dirty && !fails .restart then { m with dirty := fails .removeDirty, runtime := runtimeOf m.file } else m

def invalidateHash : Machine :=
  { m with hash := if fails .removeHash then m.hash else none }

/-- A hash that could not be opened for writing stays; one that was written in part is no hash. -/
def writeHash (fails : Faults) (m : Machine) (h : String) : Machine :=
  { m with hash := if fails .openHash then m.hash else if fails .writeHash then none else some h }

/-! ### Hot updates -/

/-- The tags whose inbound has a protocol, which `grpc.AddUser` looks up in the config. -/
def hasProtocol (t : String) : Bool :=
  match getInbounds (readOrNil (fails .readProtocols) m.file) with
  | .ok inbounds => ((inbounds.reverse.find? (tag · = t)).map protocol).getD "" ≠ ""
  | .error _ => false

/-- The calls of `grpc.AddUser`, the first of them with the given index. -/
def addClients (fails : Faults) (known : String → Bool) : Nat → List TaggedClient → Runtime → Runtime × Bool
  | _, [], rt => (rt, true)
  | i, tagged :: rest, rt =>
    if known tagged.tag && !fails (.add i) then addClients fails known (i + 1) rest (rt.add tagged)
    else ((addClients fails known (i + 1) rest rt).1, false)

/-- `grpc.AddUser`; the flag says whether it returned nil. -/
def hotAdd (payload : List TaggedClient) : Machine × Bool :=
  let (rt, ok) := addClients fails (m.hasProtocol fails) 0 payload m.runtime
  ({ m with runtime := rt }, ok)

/-- `grpc.RemoveUser` returns nil. -/
def removeSucceeds (phase : Phase) (address : String) (tags : List String) : Bool :=
  tags = [] ∨ trimSpace address ≠ "" ∧ ∀ t ∈ tags, fails (.remove phase address t) = false

/-- The calls of `grpc.RemoveUser`. -/
def hotRemove (phase : Phase) (m : Machine) (address : String) (tags : List String) : Machine :=
  if trimSpace address = "" then m
  else
    let remove (rt : Runtime) (t : String) :=
      if fails (.remove phase address t) then rt else rt.remove t (trimSpace address)
    { m with runtime := tags.foldl remove m.runtime }

/-- `rebuildInboundLocked`; its error is only logged. -/
def rebuildInbound (phase : Phase) (m : Machine) (t : String) : Machine :=
  match getInbounds (readOrNil (fails (.readInbound phase t)) m.file) with
  | .error _ => m
  | .ok inbounds => match inbounds.find? (tag · = t) with
    | none => m
    | some ib =>
      if fails (.rebuild phase t) then m.markDirty fails else { m with runtime := m.runtime.rebuild t ib }

def rebuildInboundTags (phase : Phase) (m : Machine) (additions : List TaggedClient)
    (removals : List (String × List String)) : Machine :=
  let tags := (additions.map TaggedClient.tag ++ removals.flatMap Prod.snd).filter (· ≠ "")
  (tags.dedup.insertionSort (· ≤ ·)).foldl (rebuildInbound fails phase) m

/-- The first inbound with the tag of `ib` in the old config has the same JSON. -/
def unchangedInbound (old : RawMap) (ib : RawMap) : Bool :=
  match getInbounds old with
  | .ok inbounds => ((inbounds.find? (tag · = tag ib)).map (env.sameText ib)).getD false
  | .error _ => false

def rebuildHysteriaInbounds (old : RawMap) : Machine :=
  match getInbounds (readOrNil (fails .readHysteria) m.file) with
  | .error _ => m
  | .ok inbounds =>
    let rebuild (m : Machine) (ib : RawMap) : Machine :=
      if !isHysteria ib || tag ib = "" || unchangedInbound env old ib || fails (.rebuildHysteria (tag ib)) then m
      else { m with runtime := m.runtime.rebuild (tag ib) ib }
    inbounds.foldl rebuild m

/-! ### Adding and removing users -/

/-- Put the clients that are missing into the config; they are what the hot update adds. -/
def placeMissing (cfg : RawMap) (payload : List TaggedClient) : Except Failure (RawMap × List TaggedClient) := do
  let missing ← (missingClientPayload cfg payload).mapError (.wrap "finding missing client inbounds")
  if missing = [] then .ok (cfg, [])
  else
    let cfg ← (addUserToInbounds cfg missing).mapError (.wrap "adding user to inbounds")
    .ok (cfg, missing)

/-- The change that `addUserLocked` makes, with the clients it added. -/
def placeUser (ext : Externals) (user : VPNUserConfig) (cfg : RawMap) : Except Failure (RawMap × List TaggedClient) := do
  let inbounds ← getInbounds cfg
  let payload ← (buildForAllInbounds ext (configToParams user) inbounds).mapError (.wrap "building client payload")
  if payload = [] then .error (.text "no client inbounds found in xray config") else placeMissing cfg payload

/-- The hot add of written clients; a failure is remembered, and their inbounds are rebuilt. -/
def sendAdded (payload : List TaggedClient) (m : Machine) : Machine :=
  if payload = [] then m
  else
    let (m, ok) := m.hotAdd fails payload
    if ok then m else (m.markDirty fails).rebuildInboundTags fails .update payload []

/-- What follows the writing of added clients, in `AddUser` and `AddUsersBulk`. -/
def afterAdd (old : RawMap) (payload : List TaggedClient) (m : Machine) : Machine :=
  ((m.sendAdded fails payload).rebuildHysteriaInbounds env fails old).invalidateHash fails

/-- What the calls below share: `name` is the call, `change` its change of the config, and `after` follows the writing,
with the config as it was before. -/
def updateConfig {α : Type} (name : String) (change : RawMap → Except Failure (RawMap × α))
    (after : RawMap → α → Machine → Machine) : Machine × Except Failure Unit :=
  let m := m.healDirty fails
  let old := readOrNil (fails .readOld) m.file
  match modifyWith (fails .modify) m.file change with
  | .error e => (m, .error (.wrap ("xray adapter " ++ name ++ ": config write failed") e))
  | .ok (file, out) => (after old out { m with file := some file }, .ok ())

def addUserLocked (user : VPNUserConfig) : Machine × Except Failure Unit :=
  if user.email = "" then (m, .error (.text "xray adapter AddUser: email must not be empty"))
  else m.updateConfig fails "AddUser" (placeUser env.ext user) (afterAdd env fails)

/-- One round of the loop of `AddUsersBulk`; a user with an error is skipped. -/
def placeInBulk (ext : Externals) (acc : RawMap × List TaggedClient) (user : VPNUserConfig) :
    RawMap × List TaggedClient :=
  if user.email = "" then acc
  else
    let placed : Except Failure (RawMap × List TaggedClient) := do
      let inbounds ← getInbounds acc.1
      let payload ← buildForAllInbounds ext (configToParams user) inbounds
      placeMissing acc.1 payload
    match placed with
    | .ok (cfg, missing) => (cfg, acc.2 ++ missing)
    | .error _ => acc

def addUsersBulkLocked (users : List VPNUserConfig) : Machine × Except Failure Unit :=
  if users = [] then (m, .ok ())
  else m.updateConfig fails "AddUsersBulk" (fun cfg => .ok (users.foldl (placeInBulk env.ext) (cfg, [])))
    (afterAdd env fails)

def templateUserSnapshot (managed : List VPNUserConfig) : Except Failure (List VPNUserConfig) :=
  if trimSpace env.templatePath = "" then .ok []
  else do
    let template ← (readConfig env.template).mapError
      (.wrap ("read template user source " ++ quoted (trimSpace env.templatePath)))
    templateUsers env.truncate template managed env.blacklistedAdmins

def withTemplateUsers (users : List VPNUserConfig) : Except Failure (List VPNUserConfig) :=
  (templateUserSnapshot env users).map (users ++ ·)

/-- `getProtectedTemplateUsers`; nobody is protected if the template cannot be read. -/
def isProtected (address : String) : Bool :=
  match templateUserSnapshot env [] with
  | .ok users => address ∈ users.map (·.email)
  | .error _ => false

/-- The change that `removeUserLocked` makes, with the tags of the inbounds that had the user. -/
def dropUser (address : String) (cfg : RawMap) : Except Failure (RawMap × List String) :=
  if !userExists cfg address then .ok (cfg, [])
  else do
    let tags ← (inboundTagsForUser cfg address).mapError (.wrap ("resolving inbound tags for " ++ quoted address))
    let cfg ← removeUserFromAllInbounds cfg address
    .ok (cfg, tags)

/-- The hot removals after a change of the config, each remembered by the flag if it fails. -/
def hotRemoveAll (phase : Phase) (m : Machine) (tagsByEmail : List (String × List String)) : Machine :=
  tagsByEmail.foldl (fun m entry =>
    let m := m.hotRemove fails phase entry.1 entry.2
    if removeSucceeds fails phase entry.1 entry.2 then m else m.markDirty fails) m

/-- What follows the writing in `RemoveUser` and `RemoveUsersBulk`. -/
def afterRemove (old : RawMap) (tags : List (String × List String)) (m : Machine) : Machine :=
  ((m.hotRemoveAll fails .update tags).rebuildHysteriaInbounds env fails old).invalidateHash fails

def removeUserLocked (address : String) : Machine × Except Failure Unit :=
  if address = "" then (m, .error (.text "xray adapter RemoveUser: email must not be empty"))
  else if isProtected env address then (m, .ok ())
  else m.updateConfig fails "RemoveUser" (dropUser address) fun old tags => afterRemove env fails old [(address, tags)]

/-- The change that `removeUsersBulkLocked` makes. -/
def dropUsers (emails : List String) (cfg : RawMap) : Except Failure (RawMap × List (String × List String)) :=
  let present := emails.filter (userExists cfg)
  if present = [] then .ok (cfg, [])
  else do
    let tags ← (inboundTagsForUsers cfg present).mapError (.wrap "resolving inbound tags for bulk remove")
    let cfg ← removeUsersFromAllInbounds cfg present
    .ok (cfg, tags)

def removeUsersBulkLocked (emails : List String) : Machine × Except Failure Unit :=
  let emails := emails.filter fun e => e ≠ "" ∧ !isProtected env e
  if emails = [] then (m, .ok ())
  else m.updateConfig fails "RemoveUsersBulk" (dropUsers emails) (afterRemove env fails)

/-! ### Fields of a user -/

/-- `SetExpire` and `SetLimit`: `name` is the operation and `update` its change of the config. -/
def setField (name : String) (update : RawMap → Except Failure RawMap) (fails : Faults) (m : Machine)
    (address : String) : Machine × Except Failure Unit :=
  let change (cfg : RawMap) : Except Failure (RawMap × Bool) :=
    if !userExists cfg address then .ok (cfg, false) else (update cfg).map (·, true)
  match modifyWith (fails .modify) m.file change with
  | .error e => (m, .error (.wrap ("xray adapter " ++ name ++ ": config write failed") e))
  | .ok (file, found) =>
    let m := { m with file := some file }
    if found then (m.invalidateHash fails, .ok ())
    else (m, .error (.text ("xray adapter " ++ name ++ ": user " ++ quoted address ++ " not found in config")))

def setExpire (address expire : String) : Machine × Except Failure Unit :=
  setField "SetExpire" (updateStringField · address "expire" expire) fails m address

def setLimit (address : String) (limit : Option String) : Machine × Except Failure Unit :=
  setField "SetLimit" (updateNumberField · address "limit" limit) fails m address

/-! ### Soft bans -/

/-- `BanUser`: out of the running process, the config stays. -/
def banUser (address : String) : Machine × Except Failure Unit :=
  if fails .readOld then (m, .error (.wrap "xray adapter BanUser" .io))
  else match readConfig m.file with
    | .error e => (m, .error (.wrap "xray adapter BanUser" e))
    | .ok cfg => match inboundTagsForUser cfg address with
      | .error e => (m, .error (.wrap "xray adapter BanUser tags" e))
      | .ok tags =>
        if tags = [] then (m, .ok ())
        else
          let m := m.hotRemove fails .update address tags
          if removeSucceeds fails .update address tags then (m.invalidateHash fails, .ok ())
          else (m.markDirty fails, .error (.wrap "xray adapter BanUser grpc" .io))

/-- What `UnbanUser` builds the clients from; neither the flow nor the limit, which is not sent. -/
def unbanParams (c : RawMap) : ClientParams where
  email := email c
  uuid := getString c "id"
  auth := if getString c "auth" = "" then getString c "password" else getString c "auth"
  subfile := getString c "subfile"
  expire := getString c "expire"
  flow := ""
  limit := none

/-- `UnbanUser`: back into the running process, from the config. -/
def unbanUser (address : String) : Machine × Except Failure Unit :=
  if fails .readOld then (m, .error (.wrap "xray adapter UnbanUser" .io))
  else match readConfig m.file with
    | .error e => (m, .error (.wrap "xray adapter UnbanUser" e))
    | .ok cfg => match findUser cfg address with
      | .ok (some rawUser) =>
        match getInbounds cfg >>= buildForAllInbounds env.ext (unbanParams rawUser) with
        | .error e => (m, .error (.wrap "xray adapter UnbanUser build payload" e))
        | .ok payload =>
          let (m, ok) := m.hotAdd fails payload
          if ok then (m.invalidateHash fails, .ok ())
          else (m.markDirty fails, .error (.wrap "xray adapter UnbanUser grpc" .io))
      | _ => (m, .error (.text ("xray adapter UnbanUser: user " ++ quoted address ++ " not found in config")))

/-! ### The state hash -/

def userText (u : VPNUserConfig) : String :=
  "u:" ++ u.email ++ "|" ++ u.uuid ++ "|" ++ u.auth ++ "|" ++ u.subfile ++ "|" ++ u.expire ++ "|" ++
    toString u.maxDevices ++ "|" ++ u.flow ++ ";"

/-- What is hashed before the users. -/
def stateHead : String :=
  (if env.templatePath = "" then "" else env.templateText.getD "template_err") ++
    "rot:" ++ toString env.realityRotation ++ ";keys:" ++ env.realityKeysPath ++ ";" ++
    (if env.realityRotation ∧ env.realityKeysPath ≠ "" then env.keysText.getD "" else "") ++
    String.join ((env.blacklistedAdmins.insertionSort (· ≤ ·)).map fun admin => "admin:" ++ admin ++ ";")

def calculateStateHash (users : List VPNUserConfig) : String :=
  env.ext.sha256Hex (stateHead env ++ String.join ((env.sortUsers users).map userText))

/-! ### Generating the config -/

/-- The template with the keys of this node, if it has any. -/
def keyedTemplate (template : RawMap) : Except Failure RawMap :=
  if env.realityKeysPath = "" then .ok template
  else match env.realityKeys with
    | .ok keys => (injectRealityKeys keys template).mapError (.wrap "regenerate: inject reality keys")
    | .error e =>
      if env.realityRotation then .error (.wrap "regenerate: load or create reality keys" e) else .ok template

/-- A section that the generated config takes over from the one on disk. -/
def preserve (existing : RawMap) (merged : RawMap) (key : String) : RawMap :=
  match existing.get key with
  | some value => merged.set key value
  | none => merged

/-- `RegenerateConfig`: the new content of `config.json`. -/
def regenerateConfig (file : Option Raw) (users : List VPNUserConfig) : Except Failure Raw := do
  let template ← (readConfig env.template).mapError (.wrap ("regenerate: read template " ++ quoted env.templatePath))
  let template ← keyedTemplate env template
  let merged ← (mergeUsers env.ext template users).mapError (.wrap "regenerate: merge users")
  let existing := readOrNil (fails .readExisting) file
  if fails .writeConfig then .error (.wrap ("regenerate: write config " ++ quoted env.configPath) .io)
  else .ok (marshalMap (["routing", "outbounds"].foldl (preserve existing) merged))

/-! ### Synchronization -/

structure SyncResult where
  added : Nat
  removed : Nat
  deriving DecidableEq

def desiredEmails (users : List VPNUserConfig) : List String := (users.map (·.email)).filter (· ≠ "")

/-- The users of `config.json`, the live users of a sync; none if the file cannot be read. -/
def liveEmails (file : Option Raw) : List String :=
  match readConfig file >>= listUsers with
  | .ok rawUsers =>
    if fails .listUsers then [] else (rawUsers.filterMap (rawClientToVPNUserConfig env.truncate)).map (·.email)
  | .error _ => []

def thresholdExceeded (toRemove live threshold : Nat) : Failure :=
  .text ("sync aborted: safety threshold exceeded (want to remove " ++ toString toRemove ++ " out of " ++
    toString live ++ " users, threshold is " ++ toString threshold ++ ")")

/-- The circuit breaker: at least ten, at most three tenths of the live users. -/
def orphanThreshold (live : Nat) : Nat := max 10 (3 * live / 10)

def orphansOf (live desired : List String) : List String := live.filter (· ∉ desired)

/-- The clients to add and to remove for a change of the config from `old` to `desired`. Without a template the
bulk update has done it all. -/
def syncPlan (old desired : RawMap) (users : List VPNUserConfig) :
    Except Failure (List TaggedClient × List (String × List String)) :=
  if env.templatePath = "" then .ok ([], [])
  else do
    let payload ← (desiredUserClientPayload desired (desiredEmails users)).mapError
      (.wrap "xray adapter SyncUsers: read desired inbound clients")
    (diffClientPayload old payload).mapError (.wrap "xray adapter SyncUsers: diff inbound clients")

/-- The removals that have failed, in some inbound or altogether. -/
def failedRemovals (phase : Phase) (removals : List (String × List String)) : List (String × List String) :=
  removals.filter fun entry => !removeSucceeds fails phase entry.1 entry.2

/-- The hot update: the changed clients are removed first, then all are added. The number of users added. -/
def hotUpdate (adds : List TaggedClient) (removals : List (String × List String)) : Machine × Nat :=
  let m := m.hotRemoveAll fails .update removals
  let failed := failedRemovals fails .update removals
  if adds ≠ [] then
    let (m, ok) := m.hotAdd fails adds
    if ok then (m, ((adds.map fun tagged => email tagged.client).filter (· ≠ "")).dedup.length)
    else ((m.markDirty fails).rebuildInboundTags fails .update adds failed, 0)
  else if failed ≠ [] then (m.rebuildInboundTags fails .update [] failed, 0)
  else (m, 0)

/-- The hot removal of orphans; the number of users removed. -/
def removeOrphanUsers (old : RawMap) (live desired : List String) : Machine × Except Failure Nat :=
  let toRemove := orphansOf live desired
  if toRemove = [] then (m, .ok 0)
  else if orphanThreshold live.length < toRemove.length then
    (m, .error (thresholdExceeded toRemove.length live.length (orphanThreshold live.length)))
  else match inboundTagsForUsers old toRemove with
    | .error e => (m, .error (.wrap "xray adapter SyncUsers: resolve orphan inbound tags" e))
    | .ok tags =>
      let m := m.hotRemoveAll fails .orphans tags
      let failed := failedRemovals fails .orphans tags
      if failed ≠ [] then (m.rebuildInboundTags fails .orphans [] failed, .ok 0) else (m, .ok toRemove.length)

/-- Orphans are removed only on request. -/
def orphanStage (removeOrphans : Bool) (m : Machine) (old : RawMap) (live desired : List String) :
    Machine × Except Failure Nat :=
  if removeOrphans then m.removeOrphanUsers fails old live desired else (m, .ok 0)

/-- The first part of a sync that is not skipped: the desired config is written. -/
def writeDesired (users : List VPNUserConfig) : Machine × Except Failure Nat :=
  if env.templatePath ≠ "" then
    match regenerateConfig env fails m.file users with
    | .error e => (m, .error (.wrap "xray adapter SyncUsers: regenerate config" e))
    | .ok file => ({ m with file := some file }, .ok 0)
  else if users = [] then (m, .ok 0)
  else
    let (m, result) := m.addUsersBulkLocked env (fun op => fails (.bulk op)) users
    (m, .ok (if result.isOk then users.length else 0))

/-- The part of a sync after the config is written: the running process follows. -/
def applyDesired (old : RawMap) (live : List String) (users : List VPNUserConfig) (removeOrphans : Bool)
    (added : Nat) : Machine × Except Failure SyncResult :=
  if fails .readDesired then (m, .error (.wrap "xray adapter SyncUsers: read regenerated config" .io))
  else match readConfig m.file with
    | .error e => (m, .error (.wrap "xray adapter SyncUsers: read regenerated config" e))
    | .ok desired => match syncPlan env old desired users with
      | .error e => (m, .error e)
      | .ok (adds, removals) =>
        let (m, hotAdded) := m.hotUpdate fails adds removals
        match orphanStage fails removeOrphans m old live (desiredEmails users) with
        | (m, .error e) => (m, .error e)
        | (m, .ok removed) =>
          let m := m.rebuildHysteriaInbounds env fails old
          (m.writeHash fails (calculateStateHash env users), .ok ⟨added + hotAdded, removed⟩)

/-- `syncUsersLocked` for the users it has settled on. -/
def syncSnapshot (users : List VPNUserConfig) (removeOrphans : Bool) : Machine × Except Failure SyncResult :=
  let m := m.healDirty fails
  if m.hash = some (calculateStateHash env users) ∧ fails .readHash = false ∧ m.dirty = false then (m, .ok ⟨0, 0⟩)
  else
    let live := liveEmails env fails m.file
    let old := readOrNil (fails .readOld) m.file
    match m.writeDesired env fails users with
    | (m, .error e) => (m, .error e)
    | (m, .ok added) => m.applyDesired env fails old live users removeOrphans added

def syncUsers (users : List VPNUserConfig) (removeOrphans : Bool) : Machine × Except Failure SyncResult :=
  match withTemplateUsers env users with
  | .error e => (m, .error (.wrap "xray adapter SyncUsers: build template user snapshot" e))
  | .ok users => m.syncSnapshot env fails users removeOrphans

def reconcileUsers (users : List VPNUserConfig) : Machine × Except Failure SyncResult :=
  (m.invalidateHash fails).syncSnapshot env fails users true

/-! ### Reality keys of a running node -/

/-- `SyncRealityKeys`; `none` stands for bytes that are not keys. -/
def syncRealityKeys (keys : Option RealityKeys) : Machine × Except Failure Unit :=
  match keys with
  | none => (m, .error (.wrap "sync reality keys: unmarshal" .json))
  | some keys =>
    if keys.privateKey = "" ∨ keys.publicKey = "" ∨ keys.shortIDs = [] then
      (m, .error (.text "sync reality keys: invalid key structure"))
    else match modifyWith (fails .modify) m.file fun cfg => (injectRealityKeys keys cfg).map (·, ()) with
      | .error e => (m, .error (.wrap "sync reality keys: modify config on disk" e))
      | .ok (file, _) =>
        let m := { m with file := some file }
        if fails .readDesired then (m, .error (.wrap "sync reality keys: read config" .io))
        else match inboundsOf m.file with
          | .error e => (m, .error (.wrap "sync reality keys: get inbounds" e))
          | .ok inbounds =>
            let tags := ((inbounds.filter usesReality).map tag).filter (· ≠ "")
            ((tags.foldl (rebuildInbound fails .update) m).invalidateHash fails, .ok ())

end Machine

inductive AdapterCall where
  | addUser (user : VPNUserConfig)
  | addUsersBulk (users : List VPNUserConfig)
  | removeUser (address : String)
  | removeUsersBulk (emails : List String)
  | setExpire (address expire : String)
  | setLimit (address : String) (limit : Option String)
  | banUser (address : String)
  | unbanUser (address : String)
  | syncUsers (users : List VPNUserConfig) (removeOrphans : Bool)
  | reconcileUsers (users : List VPNUserConfig)
  | syncRealityKeys (keys : Option RealityKeys)

/-- A call and what fails during it. -/
structure AdapterStep where
  call : AdapterCall
  fails : Faults

/-- The state after a call and the error it returned, `none` for nil. -/
def Machine.run (env : AdapterEnv) (m : Machine) (step : AdapterStep) : Machine × Option Failure :=
  let errorOf {α : Type} (result : Machine × Except Failure α) : Machine × Option Failure :=
    (result.1, match result.2 with
      | .ok _ => none
      | .error e => some e)
  match step.call with
  | .addUser user => errorOf (m.addUserLocked env step.fails user)
  | .addUsersBulk users => errorOf (m.addUsersBulkLocked env step.fails users)
  | .removeUser address => errorOf (m.removeUserLocked env step.fails address)
  | .removeUsersBulk emails => errorOf (m.removeUsersBulkLocked env step.fails emails)
  | .setExpire address expire => errorOf (m.setExpire step.fails address expire)
  | .setLimit address limit => errorOf (m.setLimit step.fails address limit)
  | .banUser address => errorOf (m.banUser step.fails address)
  | .unbanUser address => errorOf (m.unbanUser env step.fails address)
  | .syncUsers users removeOrphans => errorOf (m.syncUsers env step.fails users removeOrphans)
  | .reconcileUsers users => errorOf (m.reconcileUsers env step.fails users)
  | .syncRealityKeys keys => errorOf (m.syncRealityKeys step.fails keys)

def adapterStep (env : AdapterEnv) (m : Machine) (step : AdapterStep) : Option Machine := some (m.run env step).1

/-! `ApplyEvent` on a slave whose engine is the adapter. What the adapter does after the file is written leaves the file
as it is. `applyArtifact` may write the file as well and is a parameter. -/

/-- `AddUser`: the new content of the file. -/
def addUser (ext : Externals) (ioFails : Bool) (file : Option Raw) (user : VPNUserConfig) : Except Failure Raw :=
  if user.email = "" then .error (.text "xray adapter AddUser: email must not be empty")
  else ((modifyWith ioFails file (Machine.placeUser ext user)).mapError
    (.wrap "xray adapter AddUser: config write failed")).map Prod.fst

/-- `RemoveUser`: the new content of the file. A user of the template is protected and stays. -/
def removeUser (isProtected : String → Bool) (ioFails : Bool) (file : Option Raw) (address : String) :
    Except Failure (Option Raw) :=
  if address = "" then .error (.text "xray adapter RemoveUser: email must not be empty")
  else if isProtected address then .ok file
  else ((modifyWith ioFails file (Machine.dropUser address)).mapError
    (.wrap "xray adapter RemoveUser: config write failed")).map (some ·.1)

structure Node where
  slave : Slave
  /-- `config.json` -/
  file : Option Raw

structure NodeEnv where
  ext : Externals
  /-- the emails of the engine's template -/
  isProtected : String → Bool
  /-- the calls that fail; for `addUser` and `removeUser`, the reading or writing of the file -/
  fails : SlaveOp → Bool
  /-- what an artifact makes of the file -/
  applyArtifact : String → String → Option Raw → Option Raw

/-- `ApplyEvent`; the flag says whether it returned nil. -/
def Node.applyEvent (env : NodeEnv) (node : Node) (revision : Int) (event : JournalEvent) : Node × Bool :=
  let marked (slave : Slave) (file : Option Raw) : Node × Bool :=
    (⟨(slave.markApplied env.fails revision).1, file⟩, (slave.markApplied env.fails revision).2)
  if env.fails .alreadyApplied then (node, false)
  else if revision ∈ node.slave.inbox then (node, true)
  else match event with
    | .upsert user =>
      if user.email = "" then (node, false)
      else match addUser env.ext (env.fails .addUser) node.file user with
        | .error _ => (node, false)
        | .ok file =>
          if env.fails .upsertDesired then ({ node with file := some file }, false)
          else marked { node.slave with desired := node.slave.desired.insert user.email user } (some file)
    | .remove address =>
      if address = "" then (node, false)
      else match removeUser env.isProtected (env.fails .removeUser) node.file address with
        | .error _ => (node, false)
        | .ok file =>
          if env.fails .removeDesired then ({ node with file := file }, false)
          else marked { node.slave with desired := node.slave.desired.erase address } file
    | .artifact kind data =>
      -- an artifact that fails half-way may have written the file before
      if env.fails .applyArtifact then ({ node with file := env.applyArtifact kind data node.file }, false)
      else marked node.slave (env.applyArtifact kind data node.file)
    | .resnapshot _ => (node, false)

end Xraytool.Xray
