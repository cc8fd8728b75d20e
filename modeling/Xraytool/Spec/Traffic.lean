import Xraytool.Lib.Tally
import Xraytool.Spec.Replication
import Xraytool.Spec.Repository

/-! Traffic accounting: `MultiEngine.QueryStats` sums what the engines report for an email, and `UpdateLocalStorage`
adds each new sum to the stored totals. The engines count and restart on their own between the samples. The state file
holds what the last `Save` wrote. -/

namespace Xraytool

namespace Traffic

inductive Direction where
  | up
  | down
  deriving DecidableEq

/-- `domain.TrafficStat`, and the fields of `LiveSample`. -/
structure TrafficStat where
  email : String := ""
  up : Int := 0
  down : Int := 0
  deriving DecidableEq

abbrev LiveSample := TrafficStat

def TrafficStat.count (stat : TrafficStat) : Direction → Int
  | .up => stat.up
  | .down => stat.down

/-- One entry of an engine, added to what the map holds for its email. -/
def mergeStat (merged : List (String × TrafficStat)) (stat : TrafficStat) : List (String × TrafficStat) :=
  let mergedStat := (merged.lookup stat.email).getD {}
  Assoc.put merged stat.email
    { email := stat.email, up := int64 (mergedStat.up + stat.up), down := int64 (mergedStat.down + stat.down) }

/-- The answer of one engine, with its id. -/
def mergeResult (acc : List (String × TrafficStat) × List String)
    (result : String × Except String (List TrafficStat)) : List (String × TrafficStat) × List String :=
  match result.2 with
  | .error err => (acc.1, acc.2 ++ ["engine \"" ++ result.1 ++ "\": " ++ err])
  | .ok stats => (stats.foldl mergeStat acc.1, acc.2)

/-- `MultiEngine.QueryStats`: the sums by email, sorted, and the joined errors if an engine has failed. -/
def queryStats (results : List (String × Except String (List TrafficStat))) : List TrafficStat × Option String :=
  if results = [] then ([], some "pluginhost: no engine providers configured")
  else
    let acc := results.foldl mergeResult ([], [])
    ((acc.1.map Prod.snd).insertionSort fun a b => a.email ≤ b.email,
      if acc.2 = [] then none else some ("\n".intercalate acc.2))

structure UserState where
  cumulativeUp : Int := 0
  cumulativeDown : Int := 0
  lastRawUp : Int := 0
  lastRawDown : Int := 0
  deriving DecidableEq

def UserState.cumulative (user : UserState) : Direction → Int
  | .up => user.cumulativeUp
  | .down => user.cumulativeDown

def UserState.lastRaw (user : UserState) : Direction → Int
  | .up => user.lastRawUp
  | .down => user.lastRawDown

structure State where
  version : Int := 2
  lastSampleTS : Int := 0
  users : List (String × UserState) := []
  deriving DecidableEq

/-- A total after a sample of its counter. A raw value below the last one is taken for a restarted counter. -/
def addRaw (cumulative lastRaw raw : Int) : Int :=
  if raw ≥ lastRaw then int64 (cumulative + int64 (raw - lastRaw)) else int64 (cumulative + raw)

/-- One sample of a user. -/
def UserState.sampled (user : UserState) (sample : LiveSample) : UserState where
  cumulativeUp := addRaw user.cumulativeUp user.lastRawUp sample.up
  cumulativeDown := addRaw user.cumulativeDown user.lastRawDown sample.down
  lastRawUp := sample.up
  lastRawDown := sample.down

def updateUser (users : List (String × UserState)) (sample : LiveSample) : List (String × UserState) :=
  Assoc.put users sample.email (((users.lookup sample.email).getD {}).sampled sample)

def update (state : State) (samples : List LiveSample) (now : Int) : State :=
  { version := 2, lastSampleTS := now, users := samples.foldl updateUser state.users }

inductive StorageOp where
  | lock
  | load
  | save

structure StorageEnv where
  statsStatePath : String := "stats.json"
  /-- the Unix time of the sample -/
  now : Int := 0
  /-- what the engines answer, with their ids -/
  results : List (String × Except String (List TrafficStat))
  /-- the emails of `ListUsers`, if it succeeds -/
  users : Option (List String) := none
  /-- the error of an operation that fails -/
  fails : StorageOp → Option String := fun _ => none

/-- The samples of one pass: what the engines report, and zero for a listed user of whom they report nothing. -/
def liveSamples (rawStats : List TrafficStat) (users : Option (List String)) : List LiveSample :=
  let samples := rawStats.filter fun stat => stat.email ≠ ""
  match users with
  | none => samples
  | some users =>
    let existing := samples.map (·.email)
    samples ++ (users.filter fun email => email ≠ "" ∧ email ∉ existing).map fun email => { email := email }

def updateLocalStorage (env : StorageEnv) (state : State) : Except String State :=
  if env.statsStatePath = "" then .error "traffic stats state path is empty"
  else match env.fails .lock with
    | some err => .error err
    | none => match queryStats env.results with
      | (_, some err) => .error ("query traffic statistics: " ++ err)
      | (rawStats, none) => match env.fails .load with
        | some err => .error err
        | none =>
          let state := update state (liveSamples rawStats env.users) env.now
          match env.fails .save with
          | some err => .error err
          | none => .ok state

/-! ### The totals of the cluster

A user of a loaded state is a pointer, which is nil where the file says null. -/

/-- `State.Users` as `Load` reads it. -/
abbrev Loaded := List (String × Option UserState)

structure CumulativeUser where
  email : String := ""
  up : Int := 0
  down : Int := 0
  combined : Int := 0

/-- `Cumulative`, which panics on a user that is nil. -/
def cumulative (users : Loaded) : Option (List CumulativeUser) :=
  users.mapM fun e => e.2.map fun user =>
    ⟨e.1, user.cumulativeUp, user.cumulativeDown, int64 (user.cumulativeUp + user.cumulativeDown)⟩

structure MergedUser where
  email : String
  up : Int
  down : Int
  slave : Int
  clusterTotal : Int

/-- `mergeWithSlaves`; a slave total is an email and a combined count. -/
def mergeWithSlaves (users : List CumulativeUser) (slaveTotals : List (String × Int)) : List MergedUser :=
  let slaves := Assoc.ofList slaveTotals
  let locals := Assoc.ofList (users.map fun user => (user.email, user))
  let all := (locals.map Prod.fst ++ slaves.map Prod.fst).dedup
  let merged := all.map fun email =>
    let user := (locals.lookup email).getD {}
    let slave := (slaves.lookup email).getD 0
    ⟨email, user.up, user.down, slave, int64 (user.combined + slave)⟩
  merged.insertionSort fun a b => b.clusterTotal ≤ a.clusterTotal

/-- The users that `generateClusterStats` saves, from those of the local state that it has loaded. -/
def generateClusterStats (users : Loaded) (slaveTotals : List (String × Int)) : Option (List (String × UserState)) := do
  let localUsers ← cumulative users
  return Assoc.ofList ((mergeWithSlaves localUsers slaveTotals).map fun user =>
    (user.email, { cumulativeUp := user.up, cumulativeDown := int64 (user.down + user.slave) }))

/-- One report of the loop of `SyncClusterTraffic`, with its upload and its download. -/
def addTotal (users : List (String × UserState)) (total : String × Int × Int) : List (String × UserState) :=
  if total.1 = "" then users
  else
    let user := (users.lookup total.1).getD {}
    Assoc.put users total.1 { user with
      cumulativeUp := int64 (user.cumulativeUp + total.2.1)
      cumulativeDown := int64 (user.cumulativeDown + total.2.2) }

/-- The users that `SyncClusterTraffic` saves, from those of the local state that it has loaded. It passes over a user
that is nil. -/
def syncClusterTraffic (users : Loaded) (slaveTotals : List (String × Int × Int)) : List (String × UserState) :=
  slaveTotals.foldl addTotal (Assoc.ofList (users.filterMap fun e => e.2.map fun user =>
    (e.1, { cumulativeUp := user.cumulativeUp, cumulativeDown := user.cumulativeDown })))

/-- Traffic of one user on a counter list; the first traffic of an email starts its entry. -/
def grow (email : String) (up down : Nat) : List TrafficStat → List TrafficStat
  | [] => [{ email := email, up := up, down := down }]
  | stat :: stats =>
    if stat.email = email then { stat with up := stat.up + up, down := stat.down + down } :: stats
    else stat :: grow email up down stats

structure Counting where
  id : String
  /-- what the engine reports -/
  stats : List TrafficStat := []
  /-- what of it was in the last successful sample, nothing after a restart -/
  counted : List TrafficStat := []
  deriving DecidableEq

structure Accounts where
  engines : List Counting
  state : State := {}
  /-- the traffic that really flowed -/
  flowed : List TrafficStat := []
  deriving DecidableEq

inductive AccountLabel where
  | traffic (engine : Nat) (email : String) (up down : Nat)
  | restart (engine : Nat)
  /-- `UpdateLocalStorage`, in which the query of some engines may fail with an error -/
  | sample (now : Int) (failed : List (Nat × String)) (users : Option (List String)) (fails : StorageOp → Option String)

def answers (engines : List Counting) (failed : List (Nat × String)) :
    List (String × Except String (List TrafficStat)) :=
  engines.zipIdx.map fun e => (e.1.id, match failed.lookup e.2 with
    | some err => .error err
    | none => .ok e.1.stats)

def accountStep (st : Accounts) : AccountLabel → Option Accounts
  | .traffic engine email up down =>
    if engine < st.engines.length then
      some { st with
        engines := st.engines.modify engine fun e => { e with stats := grow email up down e.stats }
        flowed := grow email up down st.flowed }
    else none
  | .restart engine => some { st with engines := st.engines.modify engine fun e => { e with stats := [], counted := [] } }
  | .sample now failed users fails =>
    match updateLocalStorage { now, results := answers st.engines failed, users, fails } st.state with
    | .error _ => some st
    | .ok state => some { st with state := state, engines := st.engines.map fun e => { e with counted := e.stats } }

end Traffic

end Xraytool

/-! The statistics the slaves report to the master: the rows of `cluster_replication_stats` with the last totals of each
node, how a report replaces them, and how they are summed over the configured nodes. A total is an `int64`. -/

namespace Xraytool.ReplicaStats

open Fallible

structure Row where
  nodeID : String
  email : String
  total : Int
  deriving DecidableEq

def Row.Clash (a b : Row) : Prop := a.nodeID = b.nodeID ∧ a.email = b.email

instance : DecidableRel Row.Clash := fun a b => inferInstanceAs (Decidable (a.nodeID = b.nodeID ∧ a.email = b.email))

structure StatsStore where
  stats : Table Row Row.Clash := .empty
  /-- when each node was last seen -/
  replicas : Assoc.Map String Time := {}
  deriving DecidableEq

inductive StatsOp where
  | begin
  | delete
  | create (email : String)
  | findReplica (nodeID : String)
  | findRows (nodeID : String)
  | save
  | commit
  deriving DecidableEq

/-- The points of a report are inserted one by one. -/
def createRows (fails : StatsOp → Bool) (nodeID : String) :
    List (String × Int) → Table Row Row.Clash → Except Err (Table Row Row.Clash)
  | [], t => .ok t
  | (email, total) :: points, t =>
    if email = "" ∨ total < 0 then .error (.text "invalid replicated statistics point")
    else do
      let t ← issue (fails (.create email)) .storage (match t.insert ⟨nodeID, email, total⟩ with
        | some t => .ok t
        | none => .error .duplicate)
      createRows fails nodeID points t

def replaceReplicaStats (fails : StatsOp → Bool) (now : Time) (nodeID : String) (points : List (String × Int))
    (s : StatsStore) : Except Err StatsStore :=
  transaction (fails .begin) (fails .commit) .storage do
    let kept ← issue (fails .delete) .storage (.ok (s.stats.deleteWhere fun row => row.nodeID == nodeID))
    let stats ← createRows fails nodeID points kept
    let _ ← issue (fails (.findReplica nodeID)) .storage (.ok ())
    issue (fails .save) .storage (.ok { stats := stats, replicas := s.replicas.put nodeID now })

/-! ### The totals of the cluster -/

structure SlaveReport where
  enabled : Bool
  totalServers : Nat
  okServers : Nat := 0
  failedServers : Nat := 0
  deriving DecidableEq

abbrev Totals := Assoc.Map String Int

def rowsOf (s : StatsStore) (nodeID : String) : List Row := s.stats.rows.filter fun row => row.nodeID == nodeID

/-- `combined[row.Email] += row.Total`. -/
def addRow (combined : Totals) (row : Row) : Totals :=
  combined.put row.email (int64 ((combined.get row.email).getD 0 + row.total))

/-- One round of the loop. A stale node is reported as failed, but its last totals are counted. -/
def collectNode (fails : StatsOp → Bool) (now : Time) (maxAge : Int) (s : StatsStore) (acc : Totals × SlaveReport)
    (nodeID : String) : Totals × SlaveReport :=
  if fails (.findReplica nodeID) || fails (.findRows nodeID) then
    (acc.1, { acc.2 with failedServers := acc.2.failedServers + 1 })
  else
    let fresh := (s.replicas.get nodeID).any fun lastSeenAt => decide (maxAge ≤ 0 ∨ now - lastSeenAt ≤ maxAge)
    ((rowsOf s nodeID).foldl addRow acc.1,
      if fresh then { acc.2 with okServers := acc.2.okServers + 1 }
      else { acc.2 with failedServers := acc.2.failedServers + 1 })

/-- `CollectReplicaStats`. The totals come in the order of a Go map, which is none. -/
def collectReplicaStats (fails : StatsOp → Bool) (now : Time) (allowedNodes : List String) (maxAge : Int)
    (s : StatsStore) : Totals × SlaveReport :=
  allowedNodes.foldl (collectNode fails now maxAge s) ({}, ⟨0 < allowedNodes.length, allowedNodes.length, 0, 0⟩)

end Xraytool.ReplicaStats
