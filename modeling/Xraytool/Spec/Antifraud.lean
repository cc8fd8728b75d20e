import Mathlib.Data.List.Sort
import Xraytool.Lib.Run
import Xraytool.Spec.Models
import Xraytool.Spec.Strings

/-! The antifraud plugin: the window of addresses it keeps for each email, the ban store, and what `handleEvent` makes
of one connection. The cleaner of the windows, refreshes of the device limits and lifted bans come between events. Only
the HMAC of an address is stored; it is a parameter, empty for a text that is no address. -/

namespace Xraytool.Antifraud

/-- `userIPState`: for each hashed address the time it was last seen. -/
abbrev UserIPState := Assoc.Map String Time

/-- `State.users`, by email. -/
abbrev State := List (String × UserIPState)

namespace UserIPState

/-- An observation replayed out of order does not make a newer one look older. -/
def see (u : UserIPState) (ipHash : String) (now : Time) : UserIPState :=
  match u.get ipHash with
  | some lastSeen => if lastSeen < now then u.put ipHash now else u
  | none => u.put ipHash now

def prune (u : UserIPState) (cutoff : Time) : UserIPState := u.filter fun e => !decide (e.2 < cutoff)

end UserIPState

namespace State

def ipsOf (s : State) (email : String) : UserIPState := (s.lookup email).getD {}

def activeIPCount (s : State) (email : String) : Nat := (s.ipsOf email).size

/-- `AddHashedEvent`: record the observation, prune by its time and count what is left. -/
def addHashedEvent (s : State) (email ipHash : String) (ttl : Int) (now : Time) : State × Nat :=
  if ipHash = "" then (s, s.activeIPCount email)
  else
    let u := ((s.ipsOf email).see ipHash now).prune (now - ttl)
    (Assoc.put s email u, u.size)

/-- `Clean`: prune every user by the time of day, and drop users without addresses. -/
def clean (s : State) (ttl : Int) (now : Time) : State :=
  (s.map fun e => (e.1, e.2.prune (now - ttl))).filter fun e => e.2.size ≠ 0

end State

structure Config where
  ipTTL : Int
  maxIPs : Int
  banDuration : Int
  dryRun : Bool := false
  /-- a slave that leaves the decision to its master -/
  reports : Bool := false
  /-- `HashIP` -/
  hashIP : String → String

structure Event where
  email : String
  ip : String
  isHashed : Bool := false
  occurredAt : Time := Time.zero
  deriving DecidableEq

/-- The address as it is stored. -/
def Event.ipHash (cfg : Config) (e : Event) : String := if e.isHashed then e.ip else cfg.hashIP e.ip

/-- The time of the observation: without one it is now, and it is never later than now. -/
def Event.observedAt (e : Event) (now : Time) : Time :=
  let occurredAt := if e.occurredAt = Time.zero then now else e.occurredAt
  if now < occurredAt then now else occurredAt

structure Analyzer where
  state : State := []
  /-- `banStore.bans`: email and end of the ban -/
  bans : List (String × Time) := []
  /-- `deviceCache.limits` -/
  limits : List (String × Int) := []
  /-- when the last event was handled -/
  clock : Time := Time.zero

def isBanned (bans : List (String × Time)) (email : String) (now : Time) : Bool :=
  (bans.lookup email).any fun expiresAt => now < expiresAt

/-- `getDeviceLimit`: an email that is not cached counts as one device until its row has been fetched. -/
def getDeviceLimit (limits : List (String × Int)) (email : String) : Int × List (String × Int) :=
  match limits.lookup email with
  | some limit => (if limit ≤ 0 then 1 else limit, limits)
  | none => (1, Assoc.put limits email 1)

/-- The end of `enforce`: the ban store follows the database. -/
def enforce (cfg : Config) (now : Time) (upsertFails : Bool) (email : String) (a : Analyzer) : Analyzer :=
  if upsertFails then a else { a with bans := Assoc.put a.bans email (now + cfg.banDuration) }

/-- `handleEvent`; the flag says that a ban is enforced. -/
def handleEvent (cfg : Config) (now : Time) (upsertFails : Bool) (e : Event) (a : Analyzer) : Analyzer × Bool :=
  if isBanned a.bans e.email now then (a, false)
  else if e.observedAt now < now - cfg.ipTTL then (a, false)
  else if ¬ e.isHashed ∧ e.ipHash cfg = "" then (a, false)
  else
    let (state, count) := a.state.addHashedEvent e.email (e.ipHash cfg) cfg.ipTTL (e.observedAt now)
    let (devices, limits) := getDeviceLimit a.limits e.email
    let a := { a with state := state, limits := limits }
    if cfg.reports then (a, false)
    else if int64 (cfg.maxIPs * devices) < count then
      if cfg.dryRun then (a, false) else (enforce cfg now upsertFails e.email a, true)
    else (a, false)

inductive Label where
  | event (now : Time) (upsertFails : Bool) (e : Event)
  | clean (now : Time)
  /-- a refresh of the device limits, or the row of one email was fetched -/
  | setLimits (limits : List (String × Int))
  /-- a ban has been lifted, or recovered at the start -/
  | setBans (bans : List (String × Time))

/-- Events are handled at times that never go back. -/
def step (cfg : Config) (a : Analyzer) : Label → Option Analyzer
  | .event now upsertFails e =>
    if now < a.clock then none else some { (handleEvent cfg now upsertFails e a).1 with clock := now }
  | .clean now => some { a with state := a.state.clean cfg.ipTTL now }
  | .setLimits limits => some { a with limits := limits }
  | .setBans bans => some { a with bans := bans }

end Xraytool.Antifraud

/-! The bans of an antifraud provider and the kernel's cache of them. The built-in provider (`banStore`) and the adapter
of an external one (`externalBanState`) change their own map under a mutex and call the sink after they have released
it, except that the adapter replays its bans to a new sink under the mutex. A mutex section and a sink call are one step
each. That the cache drops an expired entry when it is read is not modelled: such an entry counts as none anyway. -/

namespace Xraytool

structure LocalBanCache where
  bans : List (String × Time) := []
  deriving DecidableEq

namespace LocalBanCache

def pushUnban (email : String) (c : LocalBanCache) : LocalBanCache :=
  if trimSpace email = "" then c else ⟨Assoc.drop c.bans (trimSpace email)⟩

def pushBanUpdate (now : Time) (email : String) (bannedUntil : Time) (c : LocalBanCache) : LocalBanCache :=
  if trimSpace email = "" then c
  else if bannedUntil ≤ now then c.pushUnban (trimSpace email)
  else ⟨Assoc.put c.bans (trimSpace email) bannedUntil⟩

def isBanned (now : Time) (email : String) (c : LocalBanCache) : Bool :=
  if trimSpace email = "" then false else (c.bans.lookup (trimSpace email)).any fun expiresAt => now < expiresAt

end LocalBanCache

inductive SinkCall where
  | pushBanUpdate (email : String) (bannedUntil : Time)
  | pushUnban (email : String)
  deriving DecidableEq

def SinkCall.apply (now : Time) : SinkCall → LocalBanCache → LocalBanCache
  | .pushBanUpdate email bannedUntil => .pushBanUpdate now email bannedUntil
  | .pushUnban email => .pushUnban email

/-- The sink calls that a call of the provider has still to make, and whether it keeps the mutex for them. -/
structure SinkRun where
  updates : List SinkCall
  locked : Bool := false
  deriving DecidableEq

structure BanMirror where
  /-- the provider's own map -/
  bans : List (String × Time) := []
  /-- the cache is installed as the sink -/
  sink : Bool := false
  cache : LocalBanCache := {}
  inFlight : List SinkRun := []
  deriving DecidableEq

/-- The mutex is released, and the sink calls remain. -/
def BanMirror.andTell (m : BanMirror) (updates : List SinkCall) (locked : Bool) : BanMirror :=
  if m.sink = false ∨ updates = [] then m else { m with inFlight := m.inFlight ++ [⟨updates, locked⟩] }

/-- What tells the sink of bans that it does not know. -/
def replay (bans : List (String × Time)) : List SinkCall := bans.map fun e => .pushBanUpdate e.1 e.2

namespace BanStore

def setBan (email : String) (expiresAt : Time) (m : BanMirror) : BanMirror :=
  { m with bans := Assoc.put m.bans email expiresAt }.andTell [.pushBanUpdate email expiresAt] false

def clearBan (email : String) (m : BanMirror) : BanMirror :=
  { m with bans := Assoc.drop m.bans email }.andTell [.pushUnban email] false

/-- The map is copied and replayed, in any order, after the mutex is released. -/
def setSink (sink : Bool) (order : List (String × Time)) (m : BanMirror) : Option BanMirror :=
  if order.Perm m.bans then
    some ({ m with sink := sink }.andTell (replay order) false)
  else none

end BanStore

namespace ExternalBanState

def pushUnban (email : String) (m : BanMirror) : BanMirror :=
  if trimSpace email = "" then m
  else { m with bans := Assoc.drop m.bans (trimSpace email) }.andTell [.pushUnban (trimSpace email)] false

def pushBan (now : Time) (email : String) (bannedUntil : Time) (m : BanMirror) : BanMirror :=
  if trimSpace email = "" then m
  else if bannedUntil ≤ now then pushUnban (trimSpace email) m
  else
    { m with bans := Assoc.put m.bans (trimSpace email) bannedUntil }.andTell
      [.pushBanUpdate (trimSpace email) bannedUntil] false

/-- Expired bans are dropped, the others replayed in the order of their emails before the mutex is released. -/
def setSink (now : Time) (sink : Bool) (m : BanMirror) : BanMirror :=
  let bans := m.bans.filter fun e => decide (now < e.2)
  { m with bans := bans, sink := sink }.andTell (replay (bans.insertionSort fun a b => a.1 ≤ b.1)) true

end ExternalBanState

inductive BanProvider where
  | banStore
  | external
  deriving DecidableEq

/-- The calls of a provider, by what they are for. -/
inductive BanCall where
  | ban (now : Time) (email : String) (expiresAt : Time)
  | unban (email : String)
  /-- `order` is that in which the map is walked -/
  | setSink (now : Time) (sink : Bool) (order : List (String × Time))
  deriving DecidableEq

def BanProvider.perform : BanProvider → BanCall → BanMirror → Option BanMirror
  | .banStore, .ban _ email expiresAt, m => some (BanStore.setBan email expiresAt m)
  | .banStore, .unban email, m => some (BanStore.clearBan email m)
  | .banStore, .setSink _ sink order, m => BanStore.setSink sink order m
  | .external, .ban now email expiresAt, m => some (ExternalBanState.pushBan now email expiresAt m)
  | .external, .unban email, m => some (ExternalBanState.pushUnban email m)
  | .external, .setSink now sink _, m => some (ExternalBanState.setSink now sink m)

inductive MirrorLabel where
  | call (c : BanCall)
  /-- one of the calls in flight makes its next sink call -/
  | tell (index : Nat) (now : Time)
  deriving DecidableEq

/-- The next sink call of a call in flight, and what is left of it. -/
def BanMirror.nextUpdate (m : BanMirror) (index : Nat) : Option (SinkCall × List SinkRun) := do
  let run ← m.inFlight[index]?
  match run.updates with
  | [] => none
  | update :: rest =>
    let left := if rest = [] then [] else [{ run with updates := rest }]
    some (update, Pool.replace m.inFlight index left)

def mirrorStep (provider : BanProvider) (m : BanMirror) : MirrorLabel → Option BanMirror
  | .call c => if m.inFlight.any (·.locked) then none else provider.perform c m
  | .tell index now => (m.nextUpdate index).map fun (update, inFlight) =>
      { m with cache := update.apply now m.cache, inFlight := inFlight }

end Xraytool

/-! Anti-fraud reports of one slave. It sends the oldest observations of its outbox until the master acknowledges them.
The master hands the events without a receipt to the anti-fraud module one by one, stores their receipts and then
acknowledges the whole frame.

A stream delivers its frames in order, but a slave that reconnects has more than one, so here any frame that was sent
may be delivered at any time. The older format without ids is left out. -/

namespace Xraytool.FraudOutbox

structure FraudEvent where
  id : String
  email : String
  ip : String
  occurredAt : Time
  hashKeyID : String := ""
  deriving DecidableEq

namespace FraudEvent

def valid (e : FraudEvent) : Bool := e.email ≠ "" && e.ip ≠ ""

/-- A missing time of observation is that of the report. -/
def stamp (now : Time) (e : FraudEvent) : FraudEvent :=
  { e with occurredAt := if e.occurredAt = Time.zero then now else e.occurredAt }

end FraudEvent

def ids (events : List FraudEvent) : List String := events.map (·.id)

/-- What `ingestFraudEvents` does next with a frame. The sink has the events `fed` and is still to get `rest`. -/
inductive Ingest where
  | unreceivedFraudEvents (events : List FraudEvent)
  | fraudSink (events fed rest : List FraudEvent)
  | markFraudReceived (events pending : List FraudEvent)
  | acknowledge (events : List FraudEvent)
  deriving DecidableEq

structure Scene where
  outbox : List FraudEvent := []
  frames : List (List FraudEvent) := []
  ingests : List Ingest := []
  /-- the events with a receipt -/
  receipts : List String := []
  acks : List (List String) := []
  /-- all ids given so far -/
  used : List String := []
  /-- what the sink has accepted -/
  accepted : List String := []

namespace Scene

/-- `EnqueueFraudEvents`, one transaction; `none` where an id is not new. -/
def enqueueFraudEvents (now : Time) (events : List FraudEvent) (st : Scene) : Option Scene :=
  if (ids events).Nodup ∧ ∀ id ∈ ids events, id ≠ "" ∧ id ∉ st.used then
    some (if events.all (·.valid) then
      { st with outbox := st.outbox ++ events.map (·.stamp now), used := st.used ++ ids events } else st)
  else none

/-- `flushFraudOutboxLocked` with a session. -/
def flushFraudOutbox (st : Scene) : Scene :=
  match st.outbox.take 100 with
  | [] => st
  | events => { st with frames := st.frames ++ [events] }

/-- The master receives a frame; one that is not well formed is dropped. -/
def receive (k : Nat) (events : List FraudEvent) (st : Scene) : Scene :=
  let st := { st with frames := st.frames.eraseIdx k }
  if events ≠ [] ∧ ∀ e ∈ events, e.valid ∧ e.id ≠ "" then
    { st with ingests := st.ingests ++ [.unreceivedFraudEvents events] }
  else st

def goOn (st : Scene) (i : Nat) (next : List Ingest) : Scene := { st with ingests := Pool.replace st.ingests i next }

def accept (st : Scene) (e : FraudEvent) : Scene := { st with accepted := st.accepted ++ [e.id] }

/-- The next call of an ingestion succeeds. -/
def advance (i : Nat) (st : Scene) : Ingest → Scene
  | .unreceivedFraudEvents events =>
    match events.filter fun e => e.id ∉ st.receipts with
    | [] => st.goOn i [.acknowledge events]
    | pending => st.goOn i [.fraudSink events [] pending]
  | .fraudSink events fed (e :: rest) => (st.accept e).goOn i [.fraudSink events (fed ++ [e]) rest]
  | .fraudSink events fed [] => st.goOn i [.markFraudReceived events fed]
  | .markFraudReceived events pending =>
    { st with receipts := st.receipts ++ (ids pending).filter fun id => id ∉ st.receipts }.goOn i [.acknowledge events]
  | .acknowledge events => { st with acks := st.acks ++ [ids events] }.goOn i []

/-- The next call fails and the ingestion is given up. The sink may have the event all the same: it waits for the
analyzer, and the wait can be cut short. -/
def fail (i : Nat) (processed : Bool) (st : Scene) : Ingest → Scene
  | .fraudSink _ _ (e :: _) => (if processed then st.accept e else st).goOn i []
  | _ => st.goOn i []

def acknowledgeFraudEvents (k : Nat) (eventIDs : List String) (st : Scene) : Scene :=
  { st with outbox := st.outbox.filter fun e => e.id ∉ eventIDs, acks := st.acks.eraseIdx k }

end Scene

inductive Action where
  | reportFraudEvents (now : Time) (events : List FraudEvent)
  | flushFraudOutbox
  | receive (k : Nat)
  | advance (i : Nat)
  | fail (i : Nat) (processed : Bool)
  | acknowledgeFraudEvents (k : Nat)
  | loseFrame (k : Nat)
  | loseAck (k : Nat)
  /-- the acknowledgements on their way are lost; the outbox is durable -/
  | restartSlave
  /-- the frames and ingestions are lost; the receipts are durable -/
  | restartMaster
  deriving DecidableEq

def fraudStep (st : Scene) : Action → Option Scene
  | .reportFraudEvents now events => st.enqueueFraudEvents now events
  | .flushFraudOutbox => some st.flushFraudOutbox
  | .receive k => st.frames[k]?.map fun events => st.receive k events
  | .advance i => st.ingests[i]?.map fun ingest => st.advance i ingest
  | .fail i processed => st.ingests[i]?.map fun ingest => st.fail i processed ingest
  | .acknowledgeFraudEvents k => st.acks[k]?.map fun eventIDs => st.acknowledgeFraudEvents k eventIDs
  | .loseFrame k => some { st with frames := st.frames.eraseIdx k }
  | .loseAck k => some { st with acks := st.acks.eraseIdx k }
  | .restartSlave => some { st with acks := [] }
  | .restartMaster => some { st with frames := [], ingests := [] }

end Xraytool.FraudOutbox
