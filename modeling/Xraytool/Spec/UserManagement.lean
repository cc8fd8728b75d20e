import Xraytool.Spec.Engine
import Xraytool.Spec.Replication

/-! `BuildSnapshot` of the replication service: the users a slave should have, read from the subscriptions and
the template of the engine, without those that are blocked or banned. -/

namespace Xraytool

open Fallible

inductive SnapshotOp where
  | findSubscriptions
  | findUsers
  | findSubscriptionsAgain
  | findActiveBans
  | templateUsers
  deriving DecidableEq

structure SnapshotEnv where
  ext : Externals
  now : Time := 0
  fails : SnapshotOp → Bool := fun _ => false
  /-- the users hard-coded in the template, if the engine can list them -/
  template : Option (List VPNUserConfig) := none
  blacklistedAdmins : List String := []

variable (env : SnapshotEnv) (s : Store)

/-- `blockedEmails`: an error of any of the three queries is dropped, and with it what the query would have
added. -/
def blockedEmails : List String :=
  let blockedIDs := (s.users.rows.filter (·.isBlocked)).map (·.id)
  let ofBlocked (sub : Subscription) : Bool := blockedIDs.contains sub.userID && sub.email != ""
  let owned := if env.fails .findUsers ∨ blockedIDs = [] ∨ env.fails .findSubscriptionsAgain then []
    else (s.subscriptions.rows.filter ofBlocked).map (·.email)
  let banned := if env.fails .findActiveBans then [] else (s.findActiveBans env.now).map (·.email)
  owned ++ banned

/-- A subscription that belongs into a snapshot unless its email is blocked. -/
def replicated (sub : Subscription) : Bool := sub.email != "" && sub.uuid != "" && sub.status == "active"

def databaseUsers : List VPNUserConfig :=
  let blocked := blockedEmails env s
  (s.subscriptions.rows.filter fun sub => replicated sub && !blocked.contains sub.email).map
    (subscriptionToVPNUserConfig env.ext)

def byEmail (users : List VPNUserConfig) : List VPNUserConfig := users.insertionSort fun a b => a.email ≤ b.email

/-- `templateUsers`: a database user of the same email wins, and blacklisted administrators are left out. -/
def templateUsers (template managedUsers : List VPNUserConfig) : List VPNUserConfig :=
  let managed := managedUsers.map fun user => trimSpace user.email
  let blacklisted := env.blacklistedAdmins.map trimSpace
  byEmail (template.filter fun user => !managed.contains user.email && !blacklisted.contains user.email)

/-- Append a template user unless its email is empty or taken. -/
def addUnseen (users : List VPNUserConfig) (user : VPNUserConfig) : List VPNUserConfig :=
  if user.email = "" ∨ user.email ∈ users.map (·.email) then users else users ++ [user]

def buildSnapshot : Except Err (List VPNUserConfig) :=
  if env.fails .findSubscriptions then .error (.wrap "load subscriptions for replication snapshot" .storage)
  else match env.template with
    | none => .ok (byEmail (databaseUsers env s))
    | some template =>
      if env.fails .templateUsers then .error (.wrap "build template user snapshot" .storage)
      else .ok (byEmail
        ((templateUsers env template (databaseUsers env s)).foldl addUnseen (databaseUsers env s)))

/-! The user-management service on a master: a change of a user goes to the engine first, the publishing engine
records it in the replication journal, and the subscription row is written last. -/

/-- `Append` with the next revision. -/
def Master.publish (m : Master) (event : JournalEvent) : Master :=
  m.append (m.journal.top + 1) event (Int.lt_add_one_of_le le_rfl)

inductive UserOp where
  | engine
  | append
  | findByEmail
  | update
  deriving DecidableEq

structure UserEnv where
  snapshot : SnapshotEnv
  fails : UserOp → Bool := fun _ => false

structure Host where
  store : Store
  replication : Master

/-- `PublishCurrentUser`: the user as a snapshot would list it now, or its removal. -/
def publishCurrentUser (env : UserEnv) (email : String) (h : Host) : Except Err Host := do
  let users ← buildSnapshot env.snapshot h.store
  let event := match users.find? fun user => user.email == email with
    | some user => JournalEvent.upsert user
    | none => .remove email
  issue (env.fails .append) .storage (.ok { h with replication := h.replication.publish event })

/-- `PublishingEngine.SetExpire` and `SetLimit`: the engine, then the journal. -/
def publishChange (env : UserEnv) (email : String) (h : Host) : Except Err Host := do
  issue (env.fails .engine) .storage (.ok ())
  publishCurrentUser env email h

/-- The columns of a row that is saved whole; the indexed ones are never changed. -/
def Subscription.overwrite (now : Time) (sub row : Subscription) : Subscription :=
  { sub with id := row.id, email := row.email, uuid := row.uuid, updatedAt := now }

theorem Subscription.keeps_overwrite (now : Time) (sub : Subscription) :
    Table.Keeps Subscription.Clash (.overwrite now sub) := fun _ _ => ⟨fun h => h, fun h => h⟩

/-- `Update`: save a whole row as it was loaded and changed. -/
def Store.saveSubscription (s : Store) (now : Time) (sub : Subscription) : Store :=
  s.updateSubscription sub.id (.overwrite now sub) (Subscription.keeps_overwrite now sub)

/-- The helpers of the service load a row, change it and save it; errors are dropped. -/
def changeRow (env : UserEnv) (email : String) (change : Subscription → Subscription) (s : Store) : Store :=
  match issue (env.fails .findByEmail) .storage (s.findLatestByEmail email) with
  | .error _ => s
  | .ok sub => if env.fails .update then s else s.saveSubscription env.snapshot.now (change sub)

namespace UserManagement

def parseExpiryDate (ext : Externals) (value : String) : Option Time :=
  ["02.01.2006", "02-01-2006"].findSome? fun layout => ext.parseTime layout (trimSpace value)

/-- The row of `setExpireDB`; a date that cannot be parsed leaves the end as it is. -/
def expireRow (ext : Externals) (expire : String) (sub : Subscription) : Subscription :=
  if expire = "" ∨ expire = "0" then { sub with endsAt := none }
  else match parseExpiryDate ext expire with
    | some t => { sub with endsAt := some t }
    | none => sub

def limitRow (limit : Int) (sub : Subscription) : Subscription := { sub with maxDevices := limit }

def setStatusRow (status : String) (sub : Subscription) : Subscription := { sub with status := status }

/-- A change of one user: the engine and the journal, then the row. -/
def changeUser (env : UserEnv) (email : String) (change : Subscription → Subscription) (skipDB : Bool) (h : Host) :
    Except Err Host := do
  let h ← publishChange env email h
  .ok (if skipDB then h else { h with store := changeRow env email change h.store })

/-- The email of a request, or else its name. -/
def requestEmail (email name : String) : String := if email = "" then name else email

structure SetExpireRequest where
  email : String := ""
  name : String := ""
  expire : String := ""
  skipDB : Bool := false

def setExpire (env : UserEnv) (req : SetExpireRequest) (h : Host) : Except Err Host :=
  let email := requestEmail req.email req.name
  if email = "" ∨ req.expire = "" then .error (.text "email and expire are required")
  else changeUser env email (expireRow env.snapshot.ext req.expire) req.skipDB h

structure UpdateLimitRequest where
  email : String := ""
  name : String := ""
  limit : Option Rat := none
  skipDB : Bool := false

def updateLimit (env : UserEnv) (req : UpdateLimitRequest) (h : Host) : Except Err Host :=
  let email := requestEmail req.email req.name
  match req.limit with
  | none => .error (.text "email and limit are required")
  | some limit =>
    if email = "" then .error (.text "email and limit are required")
    else changeUser env email (limitRow (Number.float limit).toInt) req.skipDB h

end UserManagement

/-! The requests of the user-management service that put a user into the engine or take it out. `CreateUser` writes the
rows and calls the engine in one transaction; `UnlimitUser` and `BlockOrRemoveUser` call the engine first and then save
the status of the row, whatever comes of that. What is random is given. -/

namespace Generate

def alphanumChars : List Char := "ABCDEFGHIJKLMNOPQRSTUVWXYZabcdefghijklmnopqrstuvwxyz0123456789".toList

/-- `Secret`: each character is drawn from the alphabet. -/
def secret (draw : Nat → Fin 62) (length : Nat) : String :=
  String.ofList ((List.range length).map fun i => alphanumChars.getD (draw i) 'A')

def subfile (draw : Nat → Fin 62) : String := secret draw 16 ++ ".txt"

end Generate

namespace Store

def createUser (s : Store) (user : User) : Except Err Store :=
  match s.users.insert user with
  | some t => .ok { s with users := t }
  | none => .error .duplicate

/-- A column with a default takes it in place of its zero value. -/
def createSubscription (s : Store) (sub : Subscription) : Except Err Store :=
  let row := { sub with
    status := if sub.status = "" then "inactive" else sub.status
    maxDevices := if sub.maxDevices = 0 then 3 else sub.maxDevices }
  match s.subscriptions.insert row with
  | some t => .ok { s with subscriptions := t }
  | none => .error .duplicate

/-- `Update` of a row whose UUID may have changed. -/
def replaceSubscription (s : Store) (now : Time) (sub : Subscription) : Except Err Store :=
  match s.subscriptions.tryUpdate (fun row => row.id == sub.id) fun _ => { sub with updatedAt := now } with
  | some t => .ok { s with subscriptions := t }
  | none => .error .duplicate

end Store

namespace UserManagement

inductive ProvisionOp where
  | engine
  | deleteBan
  | begin
  | findByEmail
  | createUser
  | createSubscription
  | update
  | commit
  deriving DecidableEq

/-- The first letter of the alphabet at every draw. -/
def zeroDraw : Nat → Fin 62 := fun _ => 0

structure ProvisionEnv where
  ext : Externals
  now : Time := 0
  fails : ProvisionOp → Bool := fun _ => false
  /-- the client id that `generate.UUID` returns; `none` is its error -/
  uuid : Option String := none
  userID : Option String := none
  subID : Option String := none
  subfileDraw : Nat → Fin 62 := zeroDraw
  authDraw : Nat → Fin 62 := zeroDraw

/-- What a request leaves: the store, the engine calls it made and its answer. -/
structure Outcome (α : Type) where
  store : Store
  calls : List EngineCall := []
  result : Except Err α

structure CreateUserRequest where
  email : String := ""
  name : String := ""
  uuid : String := ""
  subfile : String := ""
  expire : String := ""
  auth : String := ""
  limit : Option Rat := none
  legacy : Bool := false
  skipDB : Bool := false

/-- The two requests have the same fields. -/
abbrev UnlimitUserRequest := CreateUserRequest

namespace CreateUserRequest

variable (env : ProvisionEnv)

def subfileVal (req : CreateUserRequest) : String :=
  if req.subfile = "" then Generate.subfile env.subfileDraw else req.subfile

def expireVal (req : CreateUserRequest) : String :=
  if req.expire = "" then (env.now.addDate 0 1 0).formatDay else req.expire

def authVal (req : CreateUserRequest) : String :=
  if req.auth = "" then Generate.secret env.authDraw 32 else req.auth

/-- `int(*req.Limit)`, or what stands for a limit that is not given. -/
def limitOr (default : Int) (req : CreateUserRequest) : Int :=
  match req.limit with
  | some limit => (Number.float limit).toInt
  | none => default

/-- The user that is handed to the engine. -/
def userCfg (req : CreateUserRequest) (uuid : String) : VPNUserConfig where
  email := requestEmail req.email req.name
  uuid := uuid
  auth := req.authVal env
  subfile := req.subfileVal env
  expire := req.expireVal env
  maxDevices := req.limitOr 0

/-- The call that puts the user into the engine; a legacy request makes none. -/
def addCalls (req : CreateUserRequest) (user : VPNUserConfig) : List EngineCall :=
  if req.legacy then [] else [.addUser user]

def engineFails (req : CreateUserRequest) : Bool := !req.legacy && env.fails .engine

end CreateUserRequest

variable (env : ProvisionEnv)

/-- The rows of a new user. -/
def createRows (req : CreateUserRequest) (user : VPNUserConfig) (s : Store) : Except Err Store := do
  -- `generate.UUID` returns an empty text with its error
  let userID := env.userID.getD user.uuid
  let subID := env.subID.getD (user.uuid ++ "-sub")
  let s ← (issue (env.fails .createUser) .storage (s.createUser { id := userID, username := user.email })).mapError
    (.wrap "creating user in DB")
  (issue (env.fails .createSubscription) .storage (s.createSubscription
    { id := subID, userID := userID, email := user.email, uuid := user.uuid, status := "active"
      maxDevices := req.limitOr 3, endsAt := parseExpiryDate env.ext user.expire
      metadata := [("subfile", .str user.subfile)], createdAt := env.now, updatedAt := env.now })).mapError
    (.wrap "creating subscription in DB")

/-- The row of a user that exists; the rest of its metadata stays. -/
def provisionedRow (ext : Externals) (limit : Int) (user : VPNUserConfig) (sub : Subscription) : Subscription :=
  { sub with
    uuid := user.uuid
    metadata := Assoc.put sub.metadata "subfile" (.str user.subfile)
    status := "active"
    maxDevices := limit
    endsAt := (parseExpiryDate ext user.expire).or sub.endsAt }

/-- The database part of `CreateUser`: any error of the lookup means that there is no row yet. -/
def provisionRows (req : CreateUserRequest) (user : VPNUserConfig) (s : Store) : Except Err Store :=
  match issue (env.fails .findByEmail) .storage (s.findLatestByEmail user.email) with
  | .error _ => createRows env req user s
  | .ok sub => (issue (env.fails .update) .storage
      (s.replaceSubscription env.now (provisionedRow env.ext (req.limitOr 3) user sub))).mapError
    (.wrap "updating subscription in DB")

/-- The client id of `CreateUser`. -/
def CreateUserRequest.newUUID (req : CreateUserRequest) : Except Err String :=
  if req.uuid = "" then match env.uuid with
    | some uuid => .ok uuid
    | none => .error (.text "generating UUID")
  else .ok req.uuid

def notProvisioned : Err := .wrap "provisioning user in VPN engine" .storage

def createUser (req : CreateUserRequest) (s : Store) : Outcome VPNUserConfig :=
  if requestEmail req.email req.name = "" then { store := s, result := .error (.text "email is required") }
  else match req.newUUID env with
    | .error e => { store := s, result := .error e }
    | .ok uuid =>
      let user := req.userCfg env uuid
      let calls := req.addCalls user
      if req.skipDB then
        { store := s, calls := calls, result := if req.engineFails env then .error notProvisioned else .ok user }
      else if env.fails .begin then { store := s, result := .error .storage }
      else match provisionRows env req user s with
        | .error e => { store := s, result := .error e }
        | .ok s' =>
          -- an engine error and a failed commit roll the rows back
          if req.engineFails env then { store := s, calls := calls, result := .error notProvisioned }
          else if env.fails .commit then { store := s, calls := calls, result := .error .storage }
          else { store := s', calls := calls, result := .ok user }

/-- `setStatus` and `blockDB`: load the row, change its status and save it; errors are dropped. -/
def setStatus (email status : String) (s : Store) : Store :=
  match issue (env.fails .findByEmail) .storage (s.findLatestByEmail email) with
  | .error _ => s
  | .ok sub => if env.fails .update then s else s.saveSubscription env.now (setStatusRow status sub)

/-- `DeleteByEmail` of a ban, with its error dropped. -/
def liftBan (email : String) (s : Store) : Store :=
  if env.fails .deleteBan then s else s.deleteBanByEmail email

def unlimitUser (req : UnlimitUserRequest) (s : Store) : Outcome VPNUserConfig :=
  let email := requestEmail req.email req.name
  if email = "" then { store := s, result := .error (.text "email is required") }
  else
    let s := if req.skipDB then s else liftBan env email s
    -- the error of `generate.UUID` is dropped here
    let user := req.userCfg env (if req.uuid = "" then env.uuid.getD "" else req.uuid)
    let calls := req.addCalls user
    if req.engineFails env then
      { store := s, calls := calls, result := .error (.wrap "re-provisioning user in VPN engine" .storage) }
    else
      { store := if req.skipDB then s else setStatus env email "active" s, calls := calls, result := .ok user }

structure ModifyUserRequest where
  email : String := ""
  name : String := ""
  action : String := ""
  legacy : Bool := false
  skipDB : Bool := false

def blockOrRemoveUser (req : ModifyUserRequest) (s : Store) : Outcome Unit :=
  let email := requestEmail req.email req.name
  if email = "" then { store := s, result := .error (.text "email is required") }
  else if !req.legacy && env.fails .engine then
    -- the error counts as an earlier removal, and the row is left alone
    { store := if req.action = "rm" ∧ !req.skipDB then liftBan env email s else s
      calls := [.removeUser email], result := .ok () }
  else
    { store :=
        if req.skipDB then s
        else if req.action = "rm" then setStatus env email "inactive" s
        else if req.action = "limit" then setStatus env email "blocked" s
        else s
      calls := if req.legacy then [] else [.removeUser email], result := .ok () }

end UserManagement
/-! Removals of users on the master while a snapshot is sent. `BlockOrRemoveUser` with action `rm` and
`handleExpiredBulk` record the remove event first and write the row afterwards; `sendSnapshot` captures the latest
revision first and reads the rows afterwards. Their steps interleave with each other and with those on other emails. -/

inductive RemovalOp where
  | engine
  | append
  | load
  | save
  | mark
  deriving DecidableEq

/-- A removal operation by the step it makes next. -/
inductive Task where
  /-- `BlockOrRemoveUser`: the engine and the remove event -/
  | rm (email : String)
  /-- the row is to be loaded -/
  | rmLoad (email : String)
  /-- the loaded row is to be saved as inactive -/
  | rmSave (email : String) (sub : Subscription)
  /-- `handleExpiredBulk`: the remove events of `rest` are to be recorded -/
  | publish (published rest : List Subscription)
  /-- the rows of `rest` are to be marked as expired -/
  | mark (rest : List Subscription)
  | done
  deriving DecidableEq

inductive SnapshotPhase where
  | idle
  | captured (revision : Int)
  | read (revision : Int) (users : List VPNUserConfig)
  deriving DecidableEq

def SnapshotPhase.revision : SnapshotPhase → Option Int
  | .idle => none
  | .captured revision | .read revision _ => some revision

structure Scene where
  store : Store
  /-- the outbox -/
  journal : Log JournalEvent
  tasks : List Task := []
  snapshot : SnapshotPhase := .idle
  /-- the emails whose removal has finished -/
  finished : List String := []
  /-- the emails that other operations have touched -/
  touched : List String := []

def Scene.append (s : Scene) (revision : Int) (event : JournalEvent) : Option Scene :=
  if h : s.journal.top < revision then some { s with journal := s.journal.snoc revision event h } else none

def Scene.finish (s : Scene) (email : String) : Scene := { s with finished := s.finished ++ [email] }

/-- The next step of a removal. If the engine refuses, `BlockOrRemoveUser` lifts the ban and returns nil, and the
bulk removal gives up; errors of the row are dropped. -/
def Task.advance (now : Time) (revision : Int) (fails : RemovalOp → Bool) (s : Scene) : Task → Option (Task × Scene)
  | .rm email =>
    if fails .engine ∨ fails .append then some (.done, { s with store := s.store.deleteBanByEmail email }.finish email)
    else (s.append revision (.remove email)).map fun s => (.rmLoad email, s)
  | .rmLoad email => match issue (fails .load) .storage (s.store.findLatestByEmail email) with
    | .error _ => some (.done, s.finish email)
    | .ok sub => some (.rmSave email sub, s)
  | .rmSave email sub =>
    if fails .save then some (.done, s.finish email)
    else
      let store := s.store.saveSubscription now (UserManagement.setStatusRow "inactive" sub)
      some (.done, { s with store := store }.finish email)
  | .publish published [] => some (.mark published, s)
  | .publish published (sub :: rest) =>
    if fails .append ∨ (published = [] ∧ fails .engine) then some (.done, s)
    else (s.append revision (.remove sub.email)).map fun s => (.publish (published ++ [sub]) rest, s)
  | .mark [] => some (.done, s)
  | .mark (sub :: rest) =>
    let store := if fails .mark then s.store else (s.store.updateStatusIfActive now sub.id "expired").1
    some (.mark rest, { s with store := store }.finish sub.email)
  | .done => none

inductive RemovalLabel where
  | startRm (email : String)
  /-- the expiry worker has loaded these rows -/
  | startExpired (subs : List Subscription)
  | advance (task : Nat) (now : Time) (revision : Int) (fails : RemovalOp → Bool)
  /-- another operation, on the emails `touched` -/
  | other (touched : List String) (store : Store) (events : List OutboxRow)
  | capture
  | read (env : SnapshotEnv)

/-- The rows of all other emails are as before. -/
def leavesOthers (touched : List String) (old new : Store) : Bool :=
  let kept (s : Store) : List Subscription := s.subscriptions.rows.filter fun sub => sub.email ∉ touched
  kept old == kept new

/-- The event writes none but these emails. -/
def JournalEvent.writesOnly (touched : List String) (event : JournalEvent) : Bool :=
  (event.write.map Prod.fst).all (· ∈ touched)

def Scene.appendAll (s : Scene) : List OutboxRow → Option Scene
  | [] => some s
  | (revision, event) :: rows => (s.append revision event).bind (·.appendAll rows)

def removalStep (s : Scene) : RemovalLabel → Option Scene
  | .startRm email => if email = "" then none else some { s with tasks := s.tasks ++ [.rm email] }
  | .startExpired subs =>
    let stored (sub : Subscription) : Bool := s.store.subscriptions.rows.any fun row =>
      row.id == sub.id && row.email == sub.email
    if subs.all stored then some { s with tasks := s.tasks ++ [.publish [] subs] } else none
  | .advance i now revision fails => do
    let task ← s.tasks[i]?
    let (task, s) ← task.advance now revision fails s
    some { s with tasks := s.tasks.set i task }
  | .other touched store events =>
    if leavesOthers touched s.store store ∧ events.all (·.2.writesOnly touched) then
      { s with store := store, touched := s.touched ++ touched }.appendAll events
    else none
  | .capture => some { s with snapshot := .captured s.journal.top }
  | .read env => match s.snapshot, buildSnapshot env s.store with
    | .captured revision, .ok users => some { s with snapshot := .read revision users }
    | _, _ => none

/-! ### The slave at the end -/

def Slave.applyAll (sl : Slave) (events : List OutboxRow) : Slave :=
  events.foldl (fun sl row => (sl.applyEvent (fun _ => false) row.1 row.2).1) sl

/-- A slave takes the users of a snapshot and then events, nothing failing. -/
def Slave.afterSnapshot (sl : Slave) (id revision : Int) (users : List VPNUserConfig) (events : List OutboxRow) :
    Slave :=
  let staged := users.foldl (fun sl user => sl.stageUser id user) sl
  (staged.activateSnapshot id revision).applyAll events

/-- The journal events above a revision. -/
def Scene.eventsAbove (s : Scene) (revision : Int) : List OutboxRow :=
  s.journal.entries.filter fun row => revision < row.1

end Xraytool
