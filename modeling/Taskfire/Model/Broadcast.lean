import Taskfire.Model.Summary
import Taskfire.Model.WebSocket

/-!
# The WebSocket server

`api/src/websocket/handler.ts` as a machine whose moves are what runs its callbacks: connections and
their events, messages of the Redis channel, intervals, and reads of the stores that return.  Sockets
are numbered in the order they are accepted; Fastify hands an accepted socket over open.  A text is
given by what `JSON.parse` makes of it, `none` where that throws.
-/

namespace Taskfire.Api

open Taskfire.Dashboard (ReadyState)

variable {E : Type}

structure QueueDepthByLane where
  high : Nat
  medium : Nat
  low : Nat
  delayed : Nat
  total : Nat
  deriving DecidableEq, Repr

/-- What the reads of a snapshot or of a metrics tick return. -/
structure Overview where
  queueDepth : QueueDepthByLane
  dlqDepth : Nat
  statusCounts : StatusCounts
  deriving DecidableEq, Repr

/-- The payload of the frames that carry an overview. -/
structure OverviewPayload where
  queueDepth : QueueDepthByLane
  dlqDepth : Nat
  activeJobs : Nat
  pendingJobs : Nat
  counts : StatusCounts
  timestamp : Time
  deriving DecidableEq, Repr

def Overview.payload (overview : Overview) (now : Time) : OverviewPayload where
  queueDepth := overview.queueDepth
  dlqDepth := overview.dlqDepth
  activeJobs := overview.statusCounts.active
  pendingJobs := overview.statusCounts.pending
  counts := overview.statusCounts
  timestamp := now

/-- The texts the server sends, by their `type`. -/
inductive Frame (E : Type) where
  | connected (message : String) (clients : Nat) (connectedAt : Time)
  | snapshot (payload : OverviewPayload)
  | metrics (payload : OverviewPayload)
  | jobEvent (payload : E)
  | pong (timestamp : Time)
  | subscribed (ok : Bool)
  | error (code message : String)
  deriving DecidableEq, Repr

/-- A parsed message of a client: an object whose `type` is missing, a string or something else, or no
object. -/
inductive ClientValue where
  | noObject
  | untyped
  | typed (type : String)
  | otherType
  deriving DecidableEq, Repr

/-! ## Sockets and the registry -/

/-- What the library keeps of a connection, the frames given to it and the pings and terminations asked
of it. -/
structure Connection (E : Type) where
  readyState : ReadyState
  closeDelivered : Bool
  frames : List (Frame E)
  pings : Nat
  terminations : Nat
  deriving DecidableEq

structure TrackedClient where
  socket : Nat
  isAlive : Bool
  connectedAt : Time
  deriving DecidableEq

structure Broadcaster (E : Type) where
  /-- The map `clients`, in insertion order. -/
  clients : List TrackedClient
  connections : List (Connection E)
  /-- The sockets whose snapshot is being read. -/
  snapshots : List Nat
  /-- The metrics ticks that are being read. -/
  ticks : Nat

namespace Connection

def accepted : Connection E := ⟨.opened, false, [], 0, 0⟩

def send (connection : Connection E) (frame : Frame E) : Connection E :=
  { connection with frames := connection.frames ++ [frame] }

def ping (connection : Connection E) : Connection E := { connection with pings := connection.pings + 1 }

/-- `terminate()`: the close event comes later. -/
def terminate (connection : Connection E) : Connection E :=
  match connection.readyState with
  | .closed => { connection with terminations := connection.terminations + 1 }
  | .connecting | .opened | .closing =>
    { connection with readyState := .closing, terminations := connection.terminations + 1 }

/-- The peer or the network begins to close the connection. -/
def beginClose (connection : Connection E) : Connection E :=
  match connection.readyState with
  | .connecting | .opened => { connection with readyState := .closing }
  | .closing | .closed => connection

def deliverClose (connection : Connection E) : Connection E :=
  { connection with readyState := .closed, closeDelivered := true }

end Connection

namespace Broadcaster

def initial : Broadcaster E := ⟨[], [], [], 0⟩

def onConnection (server : Broadcaster E) (socket : Nat) (change : Connection E → Connection E) :
    Broadcaster E :=
  { server with connections := server.connections.modify socket change }

def readyState (server : Broadcaster E) (socket : Nat) : Option ReadyState :=
  server.connections[socket]?.map (·.readyState)

/-- `clients.set` of a socket that is not in the map. -/
def register (server : Broadcaster E) (socket : Nat) (now : Time) : Broadcaster E :=
  { server with clients := server.clients ++ [⟨socket, true, now⟩] }

def remove (server : Broadcaster E) (socket : Nat) : Broadcaster E :=
  { server with clients := server.clients.filter fun client => client.socket ≠ socket }

/-- An assignment to `isAlive` of the entry of a socket. -/
def setAlive (server : Broadcaster E) (socket : Nat) (isAlive : Bool) : Broadcaster E :=
  { server with
    clients := server.clients.map fun client =>
      if client.socket = socket then { client with isAlive } else client }

/-! ## Sending -/

/-- The turn of a socket in the loop of `broadcast`. -/
def broadcastTo (frame : Frame E) (server : Broadcaster E) (socket : Nat) : Broadcaster E :=
  match server.readyState socket with
  | some .opened => server.onConnection socket (·.send frame)
  | some .closed | some .closing => server.remove socket
  | some .connecting | none => server

def broadcast (server : Broadcaster E) (frame : Frame E) : Broadcaster E :=
  (server.clients.map (·.socket)).foldl (broadcastTo frame) server

def sendTo (server : Broadcaster E) (socket : Nat) (frame : Frame E) : Broadcaster E :=
  if server.readyState socket ≠ some .opened then server
  else server.onConnection socket (·.send frame)

/-! ## Callbacks -/

/-- A message of the Redis channel. -/
def forward (server : Broadcaster E) : Option E → Broadcaster E
  | some event => server.broadcast (.jobEvent event)
  | none => server

/-- The turn of an entry in the loop of the heartbeat. -/
def beat (server : Broadcaster E) (client : TrackedClient) : Broadcaster E :=
  if !client.isAlive then (server.onConnection client.socket (·.terminate)).remove client.socket
  else
    let server := server.setAlive client.socket false
    if server.readyState client.socket = some .opened then
      server.onConnection client.socket (·.ping)
    else server

def heartbeat (server : Broadcaster E) : Broadcaster E := server.clients.foldl beat server

/-- The library accepts a connection. -/
def accept (server : Broadcaster E) : Broadcaster E :=
  { server with connections := server.connections ++ [Connection.accepted] }

/-- `wsHandler`; the snapshot is sent when its reads return. -/
def wsHandler (server : Broadcaster E) (socket : Nat) (now : Time) : Broadcaster E :=
  let server := server.register socket now
  let server :=
    server.sendTo socket (.connected "Taskfire live updates connected" server.clients.length now)
  { server with snapshots := server.snapshots ++ [socket] }

end Broadcaster

/-- The reply to a message of a client. -/
def reply (now : Time) : Option ClientValue → Frame E
  | none => .error "invalid_json" "Message is not valid JSON"
  | some .noObject | some .untyped | some .otherType =>
    .error "invalid_message" "Message must have a \"type\" string field"
  | some (.typed "ping") => .pong now
  | some (.typed "subscribe") => .subscribed true
  | some (.typed type) => .error "unknown_type" ("Unknown message type \"" ++ type ++ "\"")

/-! ## Moves -/

inductive ServerAction (E : Type) where
  | connect (socket : Nat) (now : Time)
  | published (message : Option E)
  /-- The metrics interval fires. -/
  | metricsTick
  /-- The reads of a tick return, `none` if one of them failed. -/
  | metricsRead (overview : Option Overview) (now : Time)
  | snapshotRead (socket : Nat) (overview : Option Overview) (now : Time)
  | heartbeat
  | message (socket : Nat) (raw : Option ClientValue) (now : Time)
  | pong (socket : Nat)
  /-- The callback of an earlier `send` gets an error. -/
  | sendFailed (socket : Nat)
  | closing (socket : Nat)
  | closeEvent (socket : Nat)
  | errorEvent (socket : Nat)

namespace Broadcaster

/-- The socket has events to deliver: it was accepted and its close event was not delivered. -/
def delivers (server : Broadcaster E) (socket : Nat) : Bool :=
  server.connections[socket]?.any fun connection => !connection.closeDelivered

def step (server : Broadcaster E) : ServerAction E → Option (Broadcaster E)
  | .connect socket now =>
    if socket = server.connections.length then some (server.accept.wsHandler socket now) else none
  | .published message => some (server.forward message)
  | .metricsTick =>
    some (if server.clients.length = 0 then server else { server with ticks := server.ticks + 1 })
  | .metricsRead overview now =>
    if server.ticks = 0 then none
    else
      let server := { server with ticks := server.ticks - 1 }
      match overview with
      | some overview => some (server.broadcast (.metrics (overview.payload now)))
      | none => some server
  | .snapshotRead socket overview now =>
    if socket ∈ server.snapshots then
      let server := { server with snapshots := server.snapshots.erase socket }
      match overview with
      | some overview => some (server.sendTo socket (.snapshot (overview.payload now)))
      | none => some server
    else none
  | .heartbeat => some server.heartbeat
  | .message socket raw now =>
    if server.delivers socket then some (server.sendTo socket (reply now raw)) else none
  | .pong socket => if server.delivers socket then some (server.setAlive socket true) else none
  | .sendFailed socket =>
    if server.connections[socket]?.any fun connection => !connection.frames.isEmpty then
      some (server.remove socket)
    else none
  | .closing socket =>
    if server.delivers socket then some (server.onConnection socket (·.beginClose)) else none
  | .closeEvent socket =>
    if server.delivers socket then some ((server.onConnection socket (·.deliverClose)).remove socket)
    else none
  | .errorEvent socket => if server.delivers socket then some (server.remove socket) else none

end Broadcaster

end Taskfire.Api
