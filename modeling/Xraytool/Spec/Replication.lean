import Mathlib.Data.List.AList
import Xraytool.Lib.LastWriter
import Xraytool.Lib.Run
import Xraytool.Spec.Models
import Xraytool.Spec.Strings

/-! The master's replication store: the outbox of events, the acknowledgements of the replicas, and the retention that
deletes acknowledged events. `journal`, the history of everything ever appended, is kept to state what has been deleted.
Payloads travel unchanged between `Append` and `ApplyEvent`, so their encoding and checksum are left out. -/

namespace Xraytool

inductive JournalEvent where
  /-- `user.upsert` -/
  | upsert (user : VPNUserConfig)
  /-- `user.remove` -/
  | remove (email : String)
  /-- `snapshot.required` -/
  | resnapshot (reason : String)
  /-- `artifact.upsert` -/
  | artifact (kind data : String)
  deriving DecidableEq

/-- What an event does to the desired users. -/
def JournalEvent.write : JournalEvent → Option (String × Option VPNUserConfig)
  | .upsert user => some (user.email, some user)
  | .remove email => some (email, none)
  | .resnapshot _ | .artifact _ _ => none

abbrev OutboxRow := Int × JournalEvent

structure Master where
  journal : Log JournalEvent := .empty
  outbox : List OutboxRow := []
  /-- the acknowledged revision of every node that ever connected -/
  replicas : AList (fun _ : String => Int) := ∅

namespace Master

variable (m : Master)

/-- `Append`: the revision is above every one used before, deleted rows included (`AUTOINCREMENT`). -/
def append (r : Int) (ev : JournalEvent) (h : m.journal.top < r) : Master :=
  { m with journal := m.journal.snoc r ev h, outbox := m.outbox ++ [(r, ev)] }

/-- `EventsAfter`: the rows are stored in the order of their revisions. -/
def eventsAfter (revision : Int) (limit : Nat) : List OutboxRow :=
  (m.outbox.filter fun row => revision < row.1).take (if limit = 0 then 500 else limit)

/-- `LatestRevision`; 0 on an empty outbox. -/
def latestRevision : Int := (m.outbox.getLast?.map (·.1)).getD 0

/-- `OldestRevision`; 0 on an empty outbox. -/
def oldestRevision : Int := (m.outbox.head?.map (·.1)).getD 0

def markReplicaConnected (nodeID : String) : Master :=
  match m.replicas.lookup nodeID with
  | none => { m with replicas := m.replicas.insert nodeID 0 }
  | some _ => m

def acknowledgeReplica (nodeID : String) (revision : Int) : Master :=
  match m.replicas.lookup nodeID with
  | none => { m with replicas := m.replicas.insert nodeID revision }
  | some acknowledged =>
    if acknowledged < revision then { m with replicas := m.replicas.insert nodeID revision } else m

/-- The loop of `PruneAcknowledged` over the nodes: `none` if one of them never connected. -/
def minimumAcknowledged (m : Master) : List String → Int → Option Int
  | [], minimum => some minimum
  | nodeID :: nodes, minimum => match m.replicas.lookup nodeID with
    | none => none
    | some acknowledged =>
      m.minimumAcknowledged nodes (if minimum < 0 ∨ acknowledged < minimum then acknowledged else minimum)

def pruneAcknowledged (allowedNodes : List String) : Master :=
  if allowedNodes.length = 0 then m
  else match m.minimumAcknowledged allowedNodes (-1) with
    | none => m
    | some minimum =>
      if minimum ≤ 0 then m else { m with outbox := m.outbox.filter fun row => !decide (row.1 ≤ minimum) }

/-- The decision of `Connect` after a hello. -/
def needsSnapshot (initialized : Bool) (lastRevision : Int) : Bool :=
  !initialized || (decide (0 < m.oldestRevision) && decide (lastRevision < m.oldestRevision - 1))

end Master

/-- `nodeAllowed`: the entries of the configuration are trimmed before the comparison. -/
def nodeAllowed (allowedNodes : List String) (nodeID : String) : Bool :=
  allowedNodes.any fun allowed => trimSpace allowed == nodeID

/-- The master with the configuration of its current start. -/
structure MasterNode where
  store : Master := {}
  allowedNodes : List String := []

inductive MasterLabel where
  | append (revision : Int) (event : JournalEvent)
  | connect (nodeID : String)
  | acknowledge (nodeID : String) (revision : Int)
  | prune
  /-- a restart, which may change the allowed nodes -/
  | restart (allowedNodes : List String)
  deriving DecidableEq

def masterStep (n : MasterNode) : MasterLabel → Option MasterNode
  | .append r ev => if h : n.store.journal.top < r then some { n with store := n.store.append r ev h } else none
  | .connect nodeID =>
    if nodeAllowed n.allowedNodes nodeID then some { n with store := n.store.markReplicaConnected nodeID } else none
  | .acknowledge nodeID r =>
    if nodeAllowed n.allowedNodes nodeID then some { n with store := n.store.acknowledgeReplica nodeID r } else none
  | .prune => some { n with store := n.store.pruneAcknowledged n.allowedNodes }
  | .restart allowedNodes => some { n with allowedNodes := allowedNodes }

/-! A master and one of its slaves: the slave's store, the frames of a session, what the slave does with a frame
(`receiveSlaveFrames`, `ApplyEvent`), and the steps of the whole system, with frames delivered in order,
acknowledgements on their way back, and cuts at any point.

`BuildSnapshot` is taken to read the users that the journal describes at that moment. A session sends from one
goroutine, so the frames of a snapshot are queued at once; a cut drops whatever is in flight. -/

structure Slave where
  desired : AList (fun _ : String => VPNUserConfig) := ∅
  /-- staged users by snapshot identifier and email -/
  staging : AList (fun _ : Int × String => VPNUserConfig) := ∅
  inbox : List Int := []
  appliedRevision : Int := 0
  initialized : Bool := false
  deriving DecidableEq

inductive SlaveOp where
  | alreadyApplied
  | addUser
  | removeUser
  | upsertDesired
  | removeDesired
  | applyArtifact
  | markApplied
  | stageUser
  | activateSnapshot
  | reconcileUsers
  | sendAck
  deriving DecidableEq

def Slave.markApplied (sl : Slave) (fails : SlaveOp → Bool) (revision : Int) : Slave × Bool :=
  if fails .markApplied then (sl, false)
  else if revision ∈ sl.inbox then (sl, true)
  else ({ sl with inbox := sl.inbox ++ [revision], appliedRevision := revision }, true)

/-- `ApplyEvent`; the flag says whether it returned nil. -/
def Slave.applyEvent (sl : Slave) (fails : SlaveOp → Bool) (revision : Int) (event : JournalEvent) :
    Slave × Bool :=
  if fails .alreadyApplied then (sl, false)
  else if revision ∈ sl.inbox then (sl, true)
  else match event with
    | .upsert user =>
      if user.email = "" ∨ fails .addUser ∨ fails .upsertDesired then (sl, false)
      else { sl with desired := sl.desired.insert user.email user }.markApplied fails revision
    | .remove email =>
      if email = "" ∨ fails .removeUser ∨ fails .removeDesired then (sl, false)
      else { sl with desired := sl.desired.erase email }.markApplied fails revision
    | .artifact _ _ => if fails .applyArtifact then (sl, false) else sl.markApplied fails revision
    -- the master expands the marker, so the slave never expects one
    | .resnapshot _ => (sl, false)

def Slave.stageUser (sl : Slave) (snapshotID : Int) (user : VPNUserConfig) : Slave :=
  { sl with staging := sl.staging.insert (snapshotID, user.email) user }

def Slave.staged (sl : Slave) (snapshotID : Int) : AList (fun _ : String => VPNUserConfig) :=
  List.toAList ((sl.staging.entries.filter fun row => row.1.1 = snapshotID).map fun row => ⟨row.1.2, row.2⟩)

/-- `ActivateSnapshot`: the staged users replace the desired ones. -/
def Slave.activateSnapshot (sl : Slave) (snapshotID revision : Int) : Slave :=
  { sl with
    desired := sl.staged snapshotID
    staging := ⟨sl.staging.entries.filter fun row => row.1.1 ≠ snapshotID,
      sl.staging.nodupKeys.sublist List.filter_sublist⟩
    appliedRevision := revision
    initialized := true }

inductive Frame where
  | event (revision : Int) (event : JournalEvent)
  | snapshotBegin (revision id : Int)
  | snapshotUser (revision : Int) (user : VPNUserConfig)
  | snapshotArtifact (revision : Int) (kind data : String)
  | snapshotEnd (revision id : Int)
  deriving DecidableEq

/-- What came of a frame: the new slave, its active snapshot, the acknowledgement it sent, and whether the
session goes on. -/
structure Received where
  slave : Slave
  activeSnapshot : Option Int
  ack : Option Int
  alive : Bool

/-- Send the acknowledgement of a revision; a failure ends the session. -/
def acknowledge (sl : Slave) (fails : SlaveOp → Bool) (active : Option Int) (revision : Int) : Received :=
  if fails .sendAck then ⟨sl, active, none, false⟩ else ⟨sl, active, some revision, true⟩

/-- One round of the loop of `receiveSlaveFrames`. -/
def Slave.receive (sl : Slave) (fails : SlaveOp → Bool) (active : Option Int) : Frame → Received
  | .event revision event =>
    if (sl.applyEvent fails revision event).2 then
      acknowledge (sl.applyEvent fails revision event).1 fails active revision
    else ⟨(sl.applyEvent fails revision event).1, active, none, false⟩
  | .snapshotBegin _ id => ⟨sl, some id, none, true⟩
  | .snapshotUser _ user => match active with
    | none => ⟨sl, none, none, false⟩
    | some id =>
      if user.email = "" ∨ fails .stageUser then ⟨sl, active, none, false⟩
      else ⟨sl.stageUser id user, active, none, true⟩
  | .snapshotArtifact _ _ _ =>
    if active = none ∨ fails .applyArtifact then ⟨sl, active, none, false⟩ else ⟨sl, active, none, true⟩
  | .snapshotEnd revision id =>
    if active ≠ some id ∨ fails .activateSnapshot then ⟨sl, active, none, false⟩
    else if fails .reconcileUsers then ⟨sl.activateSnapshot id revision, active, none, false⟩
    else acknowledge (sl.activateSnapshot id revision) fails none revision

/-- The users a sequence of events leaves, the last writer of an email winning. -/
def foldUsers (rows : List OutboxRow) : List VPNUserConfig :=
  rows.foldl (fun users row => match row.2 with
    | .upsert user => users.filter (fun u => u.email ≠ user.email) ++ [user]
    | .remove email => users.filter fun u => u.email ≠ email
    | .resnapshot _ | .artifact _ _ => users) []

/-- Where the master's side of a session stands. -/
inductive Phase where
  /-- the hello has arrived -/
  | decide (initialized : Bool)
  /-- a snapshot is due -/
  | capture
  /-- `sendSnapshot` has captured the revision, not yet read the state -/
  | read (revision : Int)
  /-- the event loop, with the rest of the batch it has read -/
  | stream (batch : List OutboxRow)
  deriving DecidableEq

structure Session where
  lastSent : Int
  phase : Phase
  inFlight : List Frame := []
  activeSnapshot : Option Int := none
  deriving DecidableEq

structure Cluster where
  master : Master := {}
  /-- the time of the last snapshot, which is its identifier -/
  clock : Int := 0
  slave : Slave := {}
  session : Option Session := none
  /-- acknowledgements on their way to the master -/
  acks : List Int := []

structure ClusterConfig where
  allowedNodes : List String
  nodeID : String

inductive ClusterLabel where
  | append (revision : Int) (event : JournalEvent)
  | otherConnects (nodeID : String)
  | otherAcknowledges (nodeID : String) (revision : Int)
  | prune
  | connect
  | decide
  | capture
  | readState (now : Int) (artifacts : List (String × String))
  | readBatch
  | sendNext
  | deliver (fails : SlaveOp → Bool)
  | ackArrives
  | ackLost
  | cut

def snapshotFrames (revision id : Int) (users : List VPNUserConfig) (artifacts : List (String × String)) :
    List Frame :=
  .snapshotBegin revision id :: users.map (.snapshotUser revision) ++
    artifacts.map (fun a => .snapshotArtifact revision a.1 a.2) ++ [.snapshotEnd revision id]

/-- The master's side of a session: what it does next and the frames it sends. -/
def Session.decide (ss : Session) (m : Master) : Option Session :=
  match ss.phase with
  | .decide initialized =>
    some { ss with phase := if m.needsSnapshot initialized ss.lastSent then .capture else .stream [] }
  | _ => none

def Session.capture (ss : Session) (m : Master) : Option Session :=
  match ss.phase with
  | .capture => some { ss with phase := .read m.latestRevision }
  | _ => none

def Session.readState (ss : Session) (m : Master) (id : Int) (artifacts : List (String × String)) :
    Option Session :=
  match ss.phase with
  | .read revision => some { ss with
      lastSent := revision
      phase := .stream []
      inFlight := ss.inFlight ++ snapshotFrames revision id (foldUsers m.journal.entries) artifacts }
  | _ => none

def Session.readBatch (ss : Session) (m : Master) : Option Session :=
  match ss.phase with
  | .stream [] => some { ss with phase := .stream (m.eventsAfter ss.lastSent 500) }
  | _ => none

/-- A marker makes the session send a snapshot and drop the rest of the batch. -/
def Session.sendNext (ss : Session) : Option Session :=
  match ss.phase with
  | .stream ((revision, event) :: batch) => match event with
    | .resnapshot _ => some { ss with phase := .capture }
    | event => some { ss with
        lastSent := revision
        phase := .stream batch
        inFlight := ss.inFlight ++ [.event revision event] }
  | _ => none

/-- The slave takes the next frame off the stream. -/
def Cluster.deliver (s : Cluster) (fails : SlaveOp → Bool) : Option Cluster :=
  match s.session with
  | some ss => match ss.inFlight with
    | [] => none
    | frame :: rest =>
      let r := s.slave.receive fails ss.activeSnapshot frame
      some { s with
        slave := r.slave
        session := if r.alive then some { ss with inFlight := rest, activeSnapshot := r.activeSnapshot } else none
        acks := s.acks ++ r.ack.toList }
  | none => none

def clusterStep (cfg : ClusterConfig) (s : Cluster) : ClusterLabel → Option Cluster
  | .append r ev => if h : s.master.journal.top < r then some { s with master := s.master.append r ev h } else none
  | .otherConnects node =>
    if node ≠ cfg.nodeID ∧ nodeAllowed cfg.allowedNodes node then
      some { s with master := s.master.markReplicaConnected node }
    else none
  | .otherAcknowledges node r =>
    -- acknowledgements come in a session, and a session starts by recording the node
    if node ≠ cfg.nodeID ∧ node ∈ s.master.replicas then
      some { s with master := s.master.acknowledgeReplica node r }
    else none
  | .prune => some { s with master := s.master.pruneAcknowledged cfg.allowedNodes }
  | .connect =>
    if s.session.isNone ∧ nodeAllowed cfg.allowedNodes cfg.nodeID then
      some { s with
        master := s.master.markReplicaConnected cfg.nodeID
        session := some { lastSent := s.slave.appliedRevision, phase := .decide s.slave.initialized } }
    else none
  | .decide => (s.session.bind (·.decide s.master)).map fun ss => { s with session := some ss }
  | .capture => (s.session.bind (·.capture s.master)).map fun ss => { s with session := some ss }
  | .readState now artifacts =>
    if s.clock < now then
      (s.session.bind (·.readState s.master now artifacts)).map fun ss =>
        { s with session := some ss, clock := now }
    else none
  | .readBatch => (s.session.bind (·.readBatch s.master)).map fun ss => { s with session := some ss }
  | .sendNext => (s.session.bind (·.sendNext)).map fun ss => { s with session := some ss }
  | .deliver fails => s.deliver fails
  | .ackArrives => match s.acks with
    | [] => none
    | r :: rest => some { s with master := s.master.acknowledgeReplica cfg.nodeID r, acks := rest }
  | .ackLost => match s.acks with
    | [] => none
    | _ :: rest => some { s with acks := rest }
  | .cut => some { s with session := none }

end Xraytool
