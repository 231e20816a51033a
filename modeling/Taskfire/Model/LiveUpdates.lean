import Taskfire.Model.Broadcast

/-!
# The server and a dashboard

The machine of `api/src/websocket/handler.ts` and the machine of `useWebSocket`, joined by connections:
a socket of the hook gets the connection the server accepts for it, and the frames of a connection
reach the browser in the order they were sent.  Other clients come and go by moves of the server.
-/

namespace Taskfire

open Taskfire.Api (Broadcaster Frame OverviewPayload ServerAction)
open Taskfire.Dashboard (Hook HookAction ReadyState WsMessage)

variable {E : Type}

/-- A frame as `onmessage` of the hook tells it apart. -/
def Api.Frame.received : Frame E → WsMessage OverviewPayload E
  | .snapshot payload => .snapshot payload
  | .metrics payload => .metrics payload
  | .jobEvent payload => .jobEvent payload
  | .connected .. | .pong _ | .subscribed _ | .error .. => .other

/-- What the network keeps for a socket of the hook. -/
structure Link where
  /-- The connection of the server, once it is accepted. -/
  connection : Option Nat
  /-- How many of its frames have reached the browser. -/
  arrived : Nat
  deriving DecidableEq, Repr

structure LiveUpdates (E : Type) where
  server : Broadcaster E
  hook : Hook OverviewPayload E
  links : Nat → Link

inductive LiveAction (E : Type) where
  | server (action : ServerAction E)
  /-- The server accepts the connection of a socket. -/
  | accepted (socket : Nat) (now : Time)
  /-- The next frame of its connection reaches a socket. -/
  | arrival (socket : Nat)
  /-- What React and the browser do, messages apart. -/
  | browser (action : HookAction OverviewPayload E)

namespace LiveUpdates

def initial : LiveUpdates E := ⟨.initial, .initial, fun _ => ⟨none, 0⟩⟩

/-- A socket opens only once its connection is accepted, and its messages are arrivals. -/
def possible (live : LiveUpdates E) : HookAction OverviewPayload E → Bool
  | .message .. => false
  | .openEvent socket => (live.links socket).connection.isSome
  | .mount | .unmount | .timer _ | .error _ | .closeEvent .. => true

/-- The next frame for a socket. -/
def nextFrame (live : LiveUpdates E) (socket : Nat) : Option (Frame E) :=
  (live.links socket).connection.bind fun number =>
    live.server.connections[number]?.bind fun connection =>
      connection.frames[(live.links socket).arrived]?

/-- Hands a frame to a socket; a browser drops what comes to a socket that is not open. -/
def deliver (live : LiveUpdates E) (socket : Nat) (frame : Frame E) : Option (LiveUpdates E) :=
  let link := live.links socket
  let links := Function.update live.links socket { link with arrived := link.arrived + 1 }
  match live.hook.sockets[socket]?.map Dashboard.Socket.readyState with
  | some .opened =>
    (live.hook.step (.message socket frame.received)).map fun hook => { live with hook, links }
  | some .closing => some { live with links }
  | some .connecting | some .closed | none => none

def step (live : LiveUpdates E) : LiveAction E → Option (LiveUpdates E)
  | .server action => (live.server.step action).map fun server => { live with server }
  | .accepted socket now =>
    if socket < live.hook.sockets.length ∧ (live.links socket).connection = none then
      (live.server.step (.connect live.server.connections.length now)).map fun server => {
        live with
        server
        links := Function.update live.links socket ⟨some live.server.connections.length, 0⟩ }
    else none
  | .arrival socket => (live.nextFrame socket).bind (live.deliver socket)
  | .browser action =>
    if live.possible action then (live.hook.step action).map fun hook => { live with hook } else none

end LiveUpdates

end Taskfire
