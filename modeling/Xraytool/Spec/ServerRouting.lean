import Xraytool.Spec.XrayAdapter

/-! The transaction of the server routing plugin (`applyTransactionWithNode`) and the Xray adapter, which work on the
same `config.json`. The manager's mutex admits one transaction at a time, which takes neither the adapter's mutex nor
the lock of the file; a call of the adapter is one step, and so is an access of the transaction to the file.

The new sections `routing` and `outbounds` are a parameter. A write replaces the file or leaves it. -/

namespace Xraytool.ServerRouting

open Xray

structure RoutingEnv where
  adapter : AdapterEnv
  /-- the sections `routing` and `outbounds` that the rules of the node need, from the config as it is -/
  sections : List (String × Raw) → Except Failure (Raw × Raw)

/-- What the transaction does next. -/
inductive Stage where
  /-- `saveRoutingLocked`: the rule files -/
  | save
  | write
  | restart
  | rollback
  deriving DecidableEq

structure Transaction where
  /-- `none` if the config is missing or no JSON -/
  xrayBackup : Option Raw
  /-- `none` if the node has no rules -/
  candidateXrayConfig : Option Raw
  stage : Stage

structure Host where
  machine : Machine
  transaction : Option Transaction

def generate (env : RoutingEnv) (xrayBackup : Raw) : Except Failure Raw := do
  let root ← (unmarshalMap xrayBackup).mapError (.wrap "parse xray config")
  let (routing, outbounds) ← env.sections (root.getD [])
  .ok (.obj (Assoc.put (Assoc.put (root.getD []) "routing" routing) "outbounds" outbounds))

/-- The transaction up to its first write: the backup, the candidate and its check. `none` if it has returned. -/
def prepare (env : RoutingEnv) (file : Option Raw) (hasNodeRules preflightFails : Bool) : Option Transaction :=
  match file, hasNodeRules with
  | some backup, true => match generate env backup with
    | .error _ => none
    | .ok candidate => if preflightFails then none else some ⟨some backup, some candidate, .save⟩
  | _, _ => some ⟨file, none, .save⟩

/-- A call of the adapter, or the next part of a transaction and whether it fails. -/
inductive RoutingEvent where
  | addUser (user : VPNUserConfig) (fails : Faults)
  | removeUser (address : String) (fails : Faults)
  | apply (hasNodeRules preflightFails : Bool)
  | saveRouting (fails : Bool)
  | writeCandidate (fails : Bool)
  | restartXray (fails : Bool)
  | rollbackAll (writeFails restartFails : Bool)

/-- A restarted process has read its config. -/
def restarted (m : Machine) : Machine := { m with runtime := runtimeOf m.file }

def routingStep (env : RoutingEnv) (host : Host) : RoutingEvent → Option Host
  | .addUser user fails => some { host with machine := (host.machine.addUserLocked env.adapter fails user).1 }
  | .removeUser address fails => some { host with machine := (host.machine.removeUserLocked env.adapter fails address).1 }
  | .apply hasNodeRules preflightFails => match host.transaction with
    | none => some { host with transaction := prepare env host.machine.file hasNodeRules preflightFails }
    | some _ => none
  | .saveRouting fails => match host.transaction with
    | some ⟨backup, candidate, .save⟩ =>
      if fails then some { host with transaction := some ⟨backup, candidate, .rollback⟩ }
      else some { host with transaction := candidate.map fun _ => ⟨backup, candidate, .write⟩ }
    | _ => none
  | .writeCandidate fails => match host.transaction with
    | some ⟨backup, some candidate, .write⟩ =>
      if fails then some { host with transaction := some ⟨backup, some candidate, .rollback⟩ }
      else some ⟨{ host.machine with file := some candidate }, some ⟨backup, some candidate, .restart⟩⟩
    | _ => none
  | .restartXray fails => match host.transaction with
    | some ⟨backup, candidate, .restart⟩ =>
      if fails then some { host with transaction := some ⟨backup, candidate, .rollback⟩ }
      else some ⟨restarted host.machine, none⟩
    | _ => none
  | .rollbackAll writeFails restartFails => match host.transaction with
    | some ⟨backup, _, .rollback⟩ =>
      let m := { host.machine with file := if backup = none ∨ writeFails then host.machine.file else backup }
      some ⟨if restartFails then m else restarted m, none⟩
    | _ => none

/-! The files of a routing apply: the rule file of each server, and `config.json`. A file is written whole or stays as
it was. The sections of the new config and its check, the validation of the rules and their JSON are parameters. -/

structure RoutingRule where
  id : String
  name : String := ""
  sourceServer : String := ""
  targetServer : String
  domain : List String := []
  ip : List String := []
  priority : Int := 0
  enabled : Bool := true
  deriving DecidableEq

structure ServerRoutingConfig where
  server : String
  rules : List RoutingRule := []
  deriving DecidableEq

abbrev Files := String → Option String

def Files.write (files : Files) (path text : String) : Files := Function.update files path (some text)

structure Manager where
  /-- `ServerConfigPath`, which cleans the path -/
  serverConfigPath : String → String
  masterName : String
  /-- `ValidateRules`; a slave takes every list -/
  validateRules : List ServerRoutingConfig → Except Err Unit
  /-- the config for the rules of a node, from the one that was read -/
  generate : (matchedNode : String) → List RoutingRule → (xrayBackup : String) → Except Err String
  /-- the empty text is no JSON -/
  generate_empty : ∀ node rules, (generate node rules "").isOk = false
  preflightCheckXray : String → Except Err Unit
  /-- the rules of a server, sorted, as JSON -/
  marshal : ServerRoutingConfig → String

def cleanTexts (texts : List String) : List String := (texts.map trimSpace).filter (· ≠ "")

def RoutingRule.clean (srvName : String) (r : RoutingRule) : RoutingRule where
  id := trimSpace r.id
  name := trimSpace r.name
  sourceServer := srvName
  targetServer := trimSpace r.targetServer
  domain := cleanTexts r.domain
  ip := cleanTexts r.ip
  priority := r.priority
  enabled := r.enabled

/-- What may fail of a call, apart from its checks. -/
inductive ApplyOp where
  | writeRules (config : Nat)
  | writeConfig
  | restart
  deriving DecidableEq

namespace Manager

variable (m : Manager)

def rulesPath (cfg : ServerRoutingConfig) : String := m.serverConfigPath (trimSpace cfg.server)

def rulesText (cfg : ServerRoutingConfig) : String :=
  m.marshal ⟨trimSpace cfg.server, cfg.rules.map (.clean (trimSpace cfg.server))⟩

/-- The loop of `saveRoutingLocked`, from the config with the given index. -/
def saveRoutingLocked (m : Manager) (fails : ApplyOp → Bool) : Nat → List ServerRoutingConfig → Files →
    Files × Except Err Unit
  | _, [], files => (files, .ok ())
  | i, cfg :: configs, files =>
    if fails (.writeRules i) then (files, .error (.wrap ("atomic write config to " ++ m.rulesPath cfg) .storage))
    else m.saveRoutingLocked fails (i + 1) configs (files.write (m.rulesPath cfg) (m.rulesText cfg))

/-- The rule files there are under the names of the configs. -/
def fileBackups (configs : List ServerRoutingConfig) (files : Files) : List (String × String) :=
  configs.filterMap fun cfg => (files (m.serverConfigPath cfg.server)).map (m.serverConfigPath cfg.server, ·)

def fallbackPaths : List String :=
  ["/usr/local/etc/xray/config.json", "/etc/xraytool/configs/configs_json.json", "/etc/xraytool/config.json",
   "/root/xraytool/data/configs/configs_json.json"]

/-- The Xray config with its path; `configPath` is given with its default. -/
def xrayBackup (configPath : String) (files : Files) : Option (String × String) :=
  (configPath :: fallbackPaths.filter (· ≠ configPath)).findSome? fun path => (files path).map (path, ·)

def backups (configs : List ServerRoutingConfig) (configPath : String) (files : Files) : List (String × String) :=
  m.fileBackups configs files ++ ((xrayBackup configPath files).filter (·.2 ≠ "")).toList

def rollbackAll (backups : List (String × String)) (files : Files) : Files :=
  backups.foldl (fun files entry => files.write entry.1 entry.2) files

def nodeConfig (targetNodeName : String) (configs : List ServerRoutingConfig) : Option ServerRoutingConfig :=
  (configs.find? (·.server = targetNodeName)).or (configs.find? (·.server = m.masterName))

/-- The candidate for the rules of the node, with its path; none without rules or without a config. -/
def candidate (configs : List ServerRoutingConfig) (configPath targetNodeName : String) (files : Files) :
    Except Err (Option (String × String)) :=
  match m.nodeConfig targetNodeName configs, xrayBackup configPath files with
  | some node, some (path, backup) => do
    let candidateXrayConfig ← m.generate node.server node.rules backup
    (m.preflightCheckXray candidateXrayConfig).mapError
      (.wrap ("сервер " ++ quoted node.server ++ ": ошибка валидации конфига Xray"))
    return if candidateXrayConfig = "" then none else some (path, candidateXrayConfig)
  | _, _ => .ok none

/-- What comes before the first write. -/
def prepare (configs : List ServerRoutingConfig) (configPath targetNodeName : String) (files : Files) :
    Except Err (Option (String × String)) := do
  m.validateRules configs
  m.candidate configs configPath targetNodeName files

/-- `applyTransactionWithNode`, without the templates it updates at last. -/
def applyTransactionWithNode (fails : ApplyOp → Bool) (configs : List ServerRoutingConfig)
    (configPath targetNodeName : String) (files : Files) : Files × Except Err Unit :=
  match m.prepare configs configPath targetNodeName files with
  | .error e => (files, .error e)
  | .ok candidate =>
    let undo := rollbackAll (m.backups configs configPath files)
    let failed (text : String) (cause : Err) : Except Err Unit :=
      let matchedNode := ((m.nodeConfig targetNodeName configs).map (·.server)).getD targetNodeName
      .error (.wrap ("сервер " ++ quoted matchedNode ++ ": " ++ text) cause)
    match m.saveRoutingLocked fails 0 configs files, candidate with
    | (files, .error e), _ => (undo files, failed "ошибка сохранения файлов маршрутизации" e)
    | (files, .ok ()), none => (files, .ok ())
    | (files, .ok ()), some (path, text) =>
      if fails .writeConfig then (undo files, failed "запись обновленного config.json не удалась" .storage)
      else if fails .restart then
        -- the text of this error goes on after its cause
        (undo (files.write path text), failed "перезапуск службы Xray не удался" .storage)
      else (files.write path text, .ok ())

end Manager

/-- `FieldsFunc` with dash and underscore: the first field. -/
def firstPart (tgt : String) : Option String :=
  ((tgt.toList.splitOnP fun r => r == '-' || r == '_').find? (· ≠ [])).map String.ofList

/-- The names looked for among the tags of the live config, the surest first. -/
def candidates (tgt : String) : List String :=
  [tgt, "relay_" ++ tgt, "relay-" ++ tgt, "relay_" ++ toUpper tgt, "relay-" ++ toUpper tgt] ++
    match firstPart tgt with
    | none => []
    | some first =>
      ["relay-" ++ toUpper first, "relay_" ++ toUpper first, "relay-" ++ toLower first, "relay_" ++ toLower first]

def specialTargets : List String := ["direct", "block", "ru-traffic-portal"]

/-- `templateTag` has the tag in the template file of a server, if it can be read; `order` the order in which the map of
the existing tags is passed for a candidate. -/
def resolveOutboundTagWithExisting (templateTag : String → Option String) (order : String → List String)
    (target : String) : String :=
  let tgt := trimSpace target
  if toLower tgt ∈ specialTargets then toLower tgt
  else match ((templateTag tgt).map trimSpace).filter (· ≠ "") with
  | some tag => tag
  | none => match (candidates tgt).findSome? fun c => (order c).find? (equalFold · c) with
    | some existingTag => existingTag
    | none => if hasPrefix tgt "relay-" || hasPrefix tgt "relay_" || hasPrefix tgt "portal-" || hasSuffix tgt "-portal"
        then tgt else "relay_" ++ tgt

end Xraytool.ServerRouting
