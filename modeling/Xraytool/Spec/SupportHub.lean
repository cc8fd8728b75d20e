import Xraytool.Spec.SupportRequests

/-! The web sockets of the support chat: `serveWs`, the loop of the hub, and the requests that ban a user and lift a
ban, in progress at the same time. A transaction, an operation on a channel, a turn of the loop and `DisconnectUser`,
which holds the mutex of the hub, are one step each. Other requests only reach the hub by the messages they queue. -/

namespace Xraytool.SupportHub

open SupportChat

inductive Role where
  | admin
  | client
  deriving DecidableEq

/-- A `wsClient`. The map of the hub is keyed by its address, `id`. -/
structure Client where
  id : Nat
  userID : String
  role : Role
  deriving DecidableEq

/-- What the requests of the chat tell the sockets. -/
inductive Notice where
  | newConversation (conversationID userID subject : String) (createdAt : Time)
  | newMessage (message : MessageOutput)
  | statusChanged (conversationID status : String)
  /-- by its client, and by an administrator -/
  | conversationDeleted (conversationID userID : String)
  | conversationDeletedBy (conversationID deletedBy : String)
  | userBanned (userID reason : String) (expiresAt : Option Time) (bannedBy : String)
  | userUnbanned (userID : String)
  deriving DecidableEq

structure BroadcastMsg where
  targetUserID : String := ""
  targetRole : Option Role := none
  data : Notice
  deriving DecidableEq

/-- A client in the map, with the messages in its channel. -/
structure Registered where
  client : Client
  send : List Notice := []
  deriving DecidableEq

structure Hub where
  clients : List Registered := []
  broadcast : List BroadcastMsg := []
  register : List Client := []
  unregister : List Client := []
  stopped : Bool := false
  deriving DecidableEq

/-- The capacities of the channels, as `newHub` and `serveWs` make them. -/
def registerCapacity : Nat := 64

def unregisterCapacity : Nat := 64

def broadcastCapacity : Nat := 256

def sendCapacity : Nat := 256

def BroadcastMsg.shouldSend (msg : BroadcastMsg) (client : Client) : Bool :=
  if msg.targetRole = some .admin ∧ client.role = .admin then true
  else if msg.targetUserID ≠ "" ∧ client.userID = msg.targetUserID ∧ client.role = .client then true
  else decide (msg.targetRole = none ∧ msg.targetUserID = "")

/-- A client whose channel is full is dropped. -/
def BroadcastMsg.deliver (msg : BroadcastMsg) (r : Registered) : Option Registered :=
  if msg.shouldSend r.client then
    if r.send.length < sendCapacity then some { r with send := r.send ++ [msg.data] } else none
  else some r

inductive Turn where
  | register
  | unregister
  | broadcast
  | stop
  deriving DecidableEq

/-- One turn of `run`. The loop returns when it is stopped. -/
def Hub.turn (h : Hub) (t : Turn) : Option Hub :=
  if h.stopped then none
  else match t with
    | .register => match h.register with
      | [] => none
      | client :: rest => some { h with register := rest, clients := h.clients ++ [{ client := client }] }
    | .unregister => match h.unregister with
      | [] => none
      | client :: rest => some { h with unregister := rest, clients := h.clients.filter (·.client ≠ client) }
    | .broadcast => match h.broadcast with
      | [] => none
      | msg :: rest => some { h with broadcast := rest, clients := h.clients.filterMap msg.deliver }
    | .stop => some { h with clients := [], stopped := true }

def Hub.disconnectUser (userID : String) (h : Hub) : Hub :=
  { h with clients := h.clients.filter (·.client.userID ≠ userID) }

/-- A message is dropped when the channel is full. -/
def Hub.enqueueBroadcast (msg : BroadcastMsg) (h : Hub) : Hub :=
  if h.broadcast.length < broadcastCapacity then { h with broadcast := h.broadcast ++ [msg] } else h

/-! ### The channels of the clients -/

/-- What the hub does with a client: it takes its requests, and sends on its channel or closes it. -/
inductive ClientOp where
  | register
  | unregister
  | send (data : Notice)
  | close
  deriving DecidableEq

def BroadcastMsg.operations (msg : BroadcastMsg) (r : Registered) : List (Client × ClientOp) :=
  if msg.shouldSend r.client then [(r.client, if r.send.length < sendCapacity then .send msg.data else .close)] else []

def Hub.operations (h : Hub) : Turn → List (Client × ClientOp)
  | .register => h.register.head?.toList.map fun client => (client, .register)
  | .unregister => match h.unregister with
    | [] => []
    | client :: _ => (client, .unregister) :: if client ∈ h.clients.map (·.client) then [(client, .close)] else []
  | .broadcast => match h.broadcast with
    | [] => []
    | msg :: _ => h.clients.flatMap msg.operations
  | .stop => h.clients.map fun r => (r.client, .close)

def Hub.closings (userID : String) (h : Hub) : List (Client × ClientOp) :=
  (h.clients.filter (·.client.userID = userID)).map fun r => (r.client, .close)

structure HubRun where
  hub : Hub := {}
  log : List (Client × ClientOp) := []
  /-- the clients `serveWs` has made, and those whose `readPump` has ended -/
  opened : List Client := []
  left : List Client := []
  deriving DecidableEq

inductive HubEvent where
  /-- `serveWs` registers a new client -/
  | serve (client : Client)
  /-- `readPump` ends -/
  | leave (client : Client)
  | enqueueBroadcast (msg : BroadcastMsg)
  | disconnectUser (userID : String)
  | turn (t : Turn)
  /-- `writePump` takes a message -/
  | write (id : Nat)
  deriving DecidableEq

def Registered.take (id : Nat) (r : Registered) : Registered :=
  if r.client.id = id then { r with send := r.send.tail } else r

/-- The hub and its clients, whatever the requests of the chat are. A channel that is full blocks the sender. -/
def hubStep (st : HubRun) : HubEvent → Option HubRun
  | .serve client =>
    if (∀ c ∈ st.opened, c.id ≠ client.id) ∧ st.hub.register.length < registerCapacity then
      some { st with hub := { st.hub with register := st.hub.register ++ [client] }, opened := st.opened ++ [client] }
    else none
  | .leave client =>
    if client ∈ st.opened ∧ client ∉ st.left ∧ st.hub.unregister.length < unregisterCapacity then
      some { st with hub := { st.hub with unregister := st.hub.unregister ++ [client] }, left := st.left ++ [client] }
    else none
  | .enqueueBroadcast msg => some { st with hub := st.hub.enqueueBroadcast msg }
  | .disconnectUser userID =>
    some { st with hub := st.hub.disconnectUser userID, log := st.log ++ st.hub.closings userID }
  | .turn t => (st.hub.turn t).map fun hub => { st with hub := hub, log := st.log ++ st.hub.operations t }
  | .write id => some { st with hub := { st.hub with clients := st.hub.clients.map (·.take id) } }

structure Settings where
  plugin : Plugin
  webSocketEnabled : Bool := true

/-- The routes of `serveWs` up to the upgrade. Only the sockets of clients check the ban. -/
def accept (p : Settings) (now : Time) (userID : String) (role : Role) (c : Chat) : Except Refusal Unit := do
  if role = .admin then requireAdmin p.plugin userID
  require (p.webSocketEnabled = true) (.error 403 "WebSockets are disabled")
  authenticated userID
  match role with
  | .client => checkBan p.plugin now userID bannedText c
  | .admin => .ok ()

/-- What a request, or the socket it has opened, does next. -/
inductive Task where
  | accept (userID : String) (role : Role)
  | upgrade (userID : String) (role : Role)
  | register (client : Client)
  /-- `readPump`, until the connection fails -/
  | read (client : Client)
  | unregister (client : Client)
  /-- the transaction of `BanUser` -/
  | ban (req : CreateBanReq) (adminID : String)
  | disconnect (req : CreateBanReq) (adminID : String)
  | unban (userID adminID : String)
  | notify (msg : BroadcastMsg)
  deriving DecidableEq

structure Scene where
  now : Time := 0
  chat : Chat := {}
  hub : Hub := {}
  tasks : List Task := []
  allocated : Nat := 0
  deriving DecidableEq

/-- The next step of a request and what is left of it. A channel that is full blocks it. -/
def Task.advance (p : Settings) (draw : Draw) (s : Scene) : Task → Option (Scene × List Task)
  | .accept userID role => match SupportHub.accept p s.now userID role s.chat with
    | .ok () => some (s, [.upgrade userID role])
    | .error _ => some (s, [])
  | .upgrade userID role => some ({ s with allocated := s.allocated + 1 }, [.register ⟨s.allocated, userID, role⟩])
  | .register client =>
    if s.hub.register.length < registerCapacity then
      some ({ s with hub := { s.hub with register := s.hub.register ++ [client] } }, [.read client])
    else none
  | .read client => some (s, [.unregister client])
  | .unregister client =>
    if s.hub.unregister.length < unregisterCapacity then
      some ({ s with hub := { s.hub with unregister := s.hub.unregister ++ [client] } }, [])
    else none
  | .ban req adminID => match (Request.adminCreateBan (some req)).handle p.plugin draw adminID s.chat with
    | .ok out => some ({ s with chat := out.chat }, [.disconnect req adminID])
    | .error _ => some (s, [])
  | .disconnect req adminID =>
    some ({ s with hub := s.hub.disconnectUser req.userID },
      [.notify { targetRole := some .admin, data := .userBanned req.userID req.reason req.expiresAt adminID }])
  | .unban userID adminID => match (Request.adminDeleteBan userID).handle p.plugin draw adminID s.chat with
    | .ok out => some ({ s with chat := out.chat },
        [.notify { targetRole := some .admin, data := .userUnbanned userID }])
    | .error _ => some (s, [])
  | .notify msg => some ({ s with hub := s.hub.enqueueBroadcast msg }, [])

/-- What is left of a request when the upgrade or an operation of the database fails. -/
def Task.fail : Task → Option (List Task)
  | .accept _ _ => some []
  | .upgrade _ _ => some []
  | .ban _ _ => some []
  | .unban _ _ => some []
  | _ => none

inductive Label where
  | connect (userID : String) (role : Role)
  | createBan (req : CreateBanReq) (adminID : String)
  | deleteBan (userID adminID : String)
  /-- another request of the chat queues a message -/
  | send (msg : BroadcastMsg)
  | advance (i : Nat) (draw : Draw)
  | fail (i : Nat)
  | turn (t : Turn)
  /-- `writePump` takes a message -/
  | write (id : Nat)
  | tick (d : Nat)
  deriving DecidableEq

def step (p : Settings) (s : Scene) : Label → Option Scene
  | .connect userID role => some { s with tasks := s.tasks ++ [.accept userID role] }
  | .createBan req adminID => some { s with tasks := s.tasks ++ [.ban req adminID] }
  | .deleteBan userID adminID => some { s with tasks := s.tasks ++ [.unban userID adminID] }
  | .send msg => some { s with tasks := s.tasks ++ [.notify msg] }
  | .advance i draw => do
    let task ← s.tasks[i]?
    let (s', next) ← task.advance p draw s
    return { s' with tasks := Pool.replace s.tasks i next }
  | .fail i => do
    let task ← s.tasks[i]?
    let next ← task.fail
    return { s with tasks := Pool.replace s.tasks i next }
  | .turn t => do
    let hub ← s.hub.turn t
    return { s with hub := hub }
  | .write id => some { s with hub := { s.hub with clients := s.hub.clients.map (·.take id) } }
  | .tick d => some { s with now := s.now + d }

end Xraytool.SupportHub
