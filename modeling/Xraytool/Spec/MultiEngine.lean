import Xraytool.Spec.XrayEngine

/-! `MultiEngine` and its routers: which engines an operation calls, and with which users. What the engines answer
does not change the calls. -/

namespace Xraytool

open Xray (Failure)

/-- `EngineProvider`. -/
structure EngineProvider where
  id : String
  /-- whether it is a `DriftReconciler` -/
  reconciles : Bool := false
  deriving DecidableEq

inductive RoutingMode where
  | broadcast
  | byPlan
  | bySubscriptionOverride
  deriving DecidableEq

def normalizeEngineID (id : String) : String := toLower (trimSpace id)

def normalizeEngineIDs (ids : List String) : List String :=
  ids.foldl (fun result id =>
    if normalizeEngineID id = "" ∨ normalizeEngineID id ∈ result then result else result ++ [normalizeEngineID id]) []

def selectProviders (providers : List EngineProvider) (ids : List String) (address source : String) :
    Except Failure (List EngineProvider) :=
  let unknown := ids.filter (· ∉ providers.map (normalizeEngineID ·.id))
  if unknown ≠ [] then
    .error (.text ("pluginhost: engine routing " ++ source ++ " for user " ++ quoted address ++
      " references unloaded engine IDs: " ++ ", ".intercalate (unknown.insertionSort (· ≤ ·))))
  else .ok (providers.filter (normalizeEngineID ·.id ∈ ids))

/-- `ConfiguredEngineRouter.EnginesForChecked`. -/
def enginesForChecked (mode : RoutingMode) (providers : List EngineProvider) (user : VPNUserConfig) :
    Except Failure (List EngineProvider) :=
  let override := normalizeEngineIDs user.subscriptionEngineIDs
  let plan := normalizeEngineIDs user.planEngineIDs
  if override ≠ [] then selectProviders providers override user.email "subscription override"
  else match mode with
    | .byPlan => if plan ≠ [] then selectProviders providers plan user.email "plan" else .ok providers
    | .bySubscriptionOverride =>
      if plan ≠ [] then selectProviders providers plan user.email "plan fallback" else .ok providers
    | .broadcast => .ok providers

/-- The engines that are loaded. `NewMultiEngine` refuses an id without text, and `NewConfiguredEngineRouter` two that
differ in the case or in spaces. -/
structure MultiEngine where
  engines : List EngineProvider
  /-- the mode of the configured router; without one every user goes to all engines -/
  router : Option RoutingMode
  named : ∀ engine ∈ engines, trimSpace engine.id ≠ ""
  distinct : (engines.map (normalizeEngineID ·.id)).Nodup

inductive EngineMethod where
  | addUser
  | addUsersBulk
  | syncUsers (removeOrphans : Bool)
  | reconcileUsers
  | buildClientLinks
  deriving DecidableEq

structure EngineRequest where
  engine : EngineProvider
  method : EngineMethod
  users : List VPNUserConfig
  deriving DecidableEq

namespace MultiEngine

variable (m : MultiEngine)

def ready : Except Failure Unit :=
  if m.engines = [] then .error (.text "pluginhost: no engine providers configured") else .ok ()

/-- What the router selects. -/
def selected (user : VPNUserConfig) : Except Failure (List EngineProvider) :=
  match m.router with
  | none => .ok m.engines
  | some mode => enginesForChecked mode m.engines user

/-- The checks of `routedEngines` of a selected engine. -/
def checkSelected (entry : EngineProvider × Nat) : Except Failure Unit :=
  if trimSpace entry.1.id = "" then
    .error (.text ("pluginhost: engine router returned an engine with an empty ID at index " ++ toString entry.2))
  else if trimSpace entry.1.id ∉ m.engines.map (trimSpace ·.id) then
    .error (.text ("pluginhost: engine router selected unloaded engine " ++ quoted (trimSpace entry.1.id)))
  else .ok ()

def routedEngines (user : VPNUserConfig) : Except Failure (List EngineProvider) := do
  m.ready
  let selected ← m.selected user
  if selected = [] then .ok []
  else do
    let _ ← selected.zipIdx.mapM m.checkSelected
    .ok (m.engines.filter fun engine => trimSpace engine.id ∈ selected.map (trimSpace ·.id))

def addUser (user : VPNUserConfig) : Except Failure (List EngineRequest) := do
  let targets ← m.routedEngines user
  .ok (targets.map (⟨·, .addUser, [user]⟩))

/-- The batches by the id of their engine; the source finds the index of a batch by this id. -/
def userBatches (users : List VPNUserConfig) : Except Failure (String → List VPNUserConfig) :=
  users.foldlM (fun batches user => do
    let targets ← m.routedEngines user
    .ok (targets.foldl (fun batches target =>
      Function.update batches (trimSpace target.id) (batches (trimSpace target.id) ++ [user])) batches)) fun _ => []

/-- An engine without users is not called. -/
def addUsersBulk (users : List VPNUserConfig) : Except Failure (List EngineRequest) := do
  m.ready
  if users = [] then .ok []
  else do
    let batches ← m.userBatches users
    .ok ((m.engines.map fun engine => ⟨engine, .addUsersBulk, batches (trimSpace engine.id)⟩).filter (·.users ≠ []))

def syncUsers (dbUsers : List VPNUserConfig) (removeOrphans : Bool) : Except Failure (List EngineRequest) := do
  m.ready
  let batches ← m.userBatches dbUsers
  .ok (m.engines.map fun engine => ⟨engine, .syncUsers removeOrphans, batches (trimSpace engine.id)⟩)

def reconcileUsers (dbUsers : List VPNUserConfig) : Except Failure (List EngineRequest) := do
  m.ready
  let batches ← m.userBatches dbUsers
  .ok (m.engines.map fun engine =>
    ⟨engine, if engine.reconciles then .reconcileUsers else .syncUsers true, batches (trimSpace engine.id)⟩)

def buildClientLinks (user : VPNUserConfig) : Except Failure (List EngineRequest) := do
  let targets ← m.routedEngines user
  .ok (targets.map (⟨·, .buildClientLinks, [user]⟩))

end MultiEngine

end Xraytool
