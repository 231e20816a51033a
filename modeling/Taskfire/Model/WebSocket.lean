import Mathlib.Algebra.Ring.Nat
import Mathlib.Data.List.Basic

/-!
# The dashboard's WebSocket hook

`useWebSocket` (`dashboard/src/hooks/useWebSocket.ts`) as a machine whose moves are what React and the
browser do to it: effects that run and are cleaned up, timers that fire, events of sockets.  StrictMode
(`dashboard/src/main.tsx`) cleans an effect up and runs it again with the same refs and state.  The
handlers of a socket stay attached for as long as it has events to deliver, and the payloads of its
messages are only stored.
-/

namespace Taskfire.Dashboard

variable {M E : Type}

def initialBackoffMs : Nat := 1000

def maxBackoffMs : Nat := 30000

def eventHistoryCap : Nat := 100

inductive WsStatus where
  | idle
  | connecting
  | connected
  | reconnecting
  | disconnected
  deriving DecidableEq, Repr

/-- A message as `onmessage` tells them apart; `other` stands for a text that is no JSON or has a type
that changes nothing. -/
inductive WsMessage (M E : Type) where
  | snapshot (payload : M)
  | metrics (payload : M)
  | jobEvent (payload : E)
  | other

/-! ## Sockets and timers of the browser -/

inductive ReadyState where
  | connecting
  | opened
  | closing
  | closed
  deriving DecidableEq, Repr

structure Socket where
  readyState : ReadyState
  /-- The open event was delivered. -/
  openDelivered : Bool
  /-- The close event was delivered. -/
  closeDelivered : Bool
  deriving DecidableEq, Repr

namespace Socket

def new : Socket := ⟨.connecting, false, false⟩

/-- `close()`: the close event comes later. -/
def close (socket : Socket) : Socket :=
  match socket.readyState with
  | .connecting | .opened => { socket with readyState := .closing }
  | .closing | .closed => socket

def deliverOpen (socket : Socket) : Socket :=
  match socket.readyState with
  | .connecting => { socket with readyState := .opened, openDelivered := true }
  | .opened | .closing | .closed => { socket with openDelivered := true }

def deliverClose (socket : Socket) : Socket :=
  { socket with readyState := .closed, closeDelivered := true }

/-- The socket has delivered its open event and not its close event. -/
def live (socket : Socket) : Bool := socket.openDelivered && !socket.closeDelivered

end Socket

structure Timer where
  id : Nat
  delay : Nat
  deriving DecidableEq, Repr

/-! ## The hook -/

structure Hook (M E : Type) where
  -- refs
  wsRef : Option Nat
  reconnectTimerRef : Option Nat
  attemptRef : Nat
  unmountedRef : Bool
  -- state
  status : WsStatus
  liveMetrics : Option M
  snapshot : Option M
  lastEvent : Option E
  eventHistory : List E
  reconnectAttempt : Nat
  -- what React and the browser hold
  mounted : Bool
  sockets : List Socket
  timers : List Timer
  timersCreated : Nat

namespace Hook

def initial : Hook M E where
  wsRef := none
  reconnectTimerRef := none
  attemptRef := 0
  unmountedRef := false
  status := .idle
  liveMetrics := none
  snapshot := none
  lastEvent := none
  eventHistory := []
  reconnectAttempt := 0
  mounted := false
  sockets := []
  timers := []
  timersCreated := 0

def onSocket (hook : Hook M E) (socket : Nat) (change : Socket → Socket) : Hook M E :=
  { hook with sockets := hook.sockets.modify socket change }

/-- `wsRef.current?.close()`. -/
def closeCurrent (hook : Hook M E) : Hook M E :=
  match hook.wsRef with
  | none => hook
  | some socket => hook.onSocket socket Socket.close

def scheduleReconnect (hook : Hook M E) : Hook M E :=
  if hook.unmountedRef then hook
  else {
    hook with
    attemptRef := hook.attemptRef + 1
    reconnectAttempt := hook.attemptRef + 1
    status := .reconnecting
    -- The timer of an earlier close event, if one is pending, is only forgotten.
    reconnectTimerRef := some hook.timersCreated
    timers := hook.timers ++
      [⟨hook.timersCreated, min (initialBackoffMs * 2 ^ hook.attemptRef) maxBackoffMs⟩]
    timersCreated := hook.timersCreated + 1 }

def connect (hook : Hook M E) : Hook M E :=
  if hook.unmountedRef then hook
  else {
    hook.closeCurrent with
    status := .connecting
    sockets := hook.closeCurrent.sockets ++ [.new]
    wsRef := some hook.sockets.length }

/-! ## Handlers -/

def onopen (hook : Hook M E) (socket : Nat) : Hook M E :=
  if hook.unmountedRef then hook.onSocket socket Socket.close
  else { hook with attemptRef := 0, reconnectAttempt := 0, status := .connected }

def onmessage (hook : Hook M E) (msg : WsMessage M E) : Hook M E :=
  if hook.unmountedRef then hook
  else
    match msg with
    | .snapshot payload => { hook with snapshot := some payload, liveMetrics := some payload }
    | .metrics payload => { hook with liveMetrics := some payload }
    | .jobEvent payload => {
        hook with
        lastEvent := some payload
        eventHistory := (payload :: hook.eventHistory).take eventHistoryCap }
    | .other => hook

def onclose (hook : Hook M E) (code : Nat) (wasClean : Bool) : Hook M E :=
  if hook.unmountedRef then hook
  else
    let hook := { hook with status := .disconnected }
    if wasClean = false ∨ code = 1000 ∨ code = 1001 then hook.scheduleReconnect else hook

def onerror (hook : Hook M E) (socket : Nat) : Hook M E := hook.onSocket socket Socket.close

/-! ## Effects -/

def effect (hook : Hook M E) : Hook M E := { hook with unmountedRef := false }.connect

def cleanup (hook : Hook M E) : Hook M E :=
  let hook := { hook with unmountedRef := true }
  let hook :=
    match hook.reconnectTimerRef with
    | none => hook
    | some timer => { hook with timers := hook.timers.filter fun pending => pending.id ≠ timer }
  hook.closeCurrent

/-- `send`: the socket the text goes to, if there is an open one. -/
def send (hook : Hook M E) : Option Nat :=
  hook.wsRef.filter fun socket =>
    hook.sockets[socket]?.any fun socket => socket.readyState = .opened

end Hook

/-! ## Moves -/

inductive HookAction (M E : Type) where
  | mount
  | unmount
  | timer (id : Nat)
  | openEvent (socket : Nat)
  | message (socket : Nat) (msg : WsMessage M E)
  | error (socket : Nat)
  | closeEvent (socket : Nat) (code : Nat) (wasClean : Bool)

namespace Hook

/-- A socket delivers its open event at most once, its close event at most once, and nothing after its
close event. -/
def step (hook : Hook M E) : HookAction M E → Option (Hook M E)
  | .mount => if hook.mounted then none else some { hook.effect with mounted := true }
  | .unmount => if hook.mounted then some { hook.cleanup with mounted := false } else none
  | .timer id =>
    if hook.timers.any fun pending => pending.id = id then
      some { hook with timers := hook.timers.filter fun pending => pending.id ≠ id }.connect
    else none
  | .openEvent socket =>
    if hook.sockets[socket]?.any fun current => !current.openDelivered && !current.closeDelivered then
      some ((hook.onSocket socket Socket.deliverOpen).onopen socket)
    else none
  | .message socket msg =>
    if hook.sockets[socket]?.any fun current => !current.closeDelivered then some (hook.onmessage msg)
    else none
  | .error socket =>
    if hook.sockets[socket]?.any fun current => !current.closeDelivered then some (hook.onerror socket)
    else none
  | .closeEvent socket code wasClean =>
    if hook.sockets[socket]?.any fun current => !current.closeDelivered then
      some ((hook.onSocket socket Socket.deliverClose).onclose code wasClean)
    else none

/-- The socket in `wsRef` has delivered its open event and not its close event. -/
def currentOpen (hook : Hook M E) : Bool :=
  hook.wsRef.any fun socket => hook.sockets[socket]?.any Socket.live

end Hook

end Taskfire.Dashboard
