import Taskfire.Library.Loop
import Taskfire.Library.Transition
import Taskfire.Model.Broadcast

/-!
# The WebSocket server, one connection at a time

The registry, the broadcasts and the heartbeat are shared by all connections.  What the server holds
of one connection (`View`) changes by the events of that connection, by broadcasts and by beats, as if
there were no other.
-/

namespace Taskfire.Api

open Taskfire.Library
open Taskfire.Dashboard (ReadyState)

variable {E : Type}

/-! ## What the server holds of one connection -/

/-- The flag of its entry in the registry, if it has one, and the connection. -/
structure View (E : Type) where
  isAlive : Option Bool
  connection : Option (Connection E)

namespace View

def absent : View E := ⟨none, none⟩

def readyState (view : View E) : Option ReadyState := view.connection.map (·.readyState)

def onConnection (view : View E) (change : Connection E → Connection E) : View E :=
  { view with connection := view.connection.map change }

def remove (view : View E) : View E := { view with isAlive := none }

def setAlive (view : View E) (isAlive : Bool) : View E :=
  { view with isAlive := view.isAlive.map fun _ => isAlive }

def sendTo (view : View E) (frame : Frame E) : View E :=
  if view.readyState ≠ some .opened then view else view.onConnection (·.send frame)

/-- The turn of a registered socket in a broadcast. -/
def told (frame : Frame E) (view : View E) : View E :=
  match view.readyState with
  | some .opened => view.onConnection (·.send frame)
  | some .closed | some .closing => view.remove
  | some .connecting | none => view

def broadcast (view : View E) (frame : Frame E) : View E :=
  if view.isAlive = none then view else view.told frame

/-- The turn of an entry in a beat. -/
def beat (client : TrackedClient) (view : View E) : View E :=
  if !client.isAlive then (view.onConnection (·.terminate)).remove
  else
    let view := view.setAlive false
    if view.readyState = some .opened then view.onConnection (·.ping) else view

def heartbeat (view : View E) : View E :=
  match view.isAlive with
  | none => view
  | some isAlive => view.beat ⟨0, isAlive, 0⟩

def welcomed (clients : Nat) (now : Time) : View E where
  isAlive := some true
  connection := some
    (Connection.accepted.send (.connected "Taskfire live updates connected" clients now))

/-- A move as one connection sees it; `clients` is the size of the registry. -/
def next (socket clients : Nat) (view : View E) : ServerAction E → View E
  | .connect place now => if place = socket then welcomed (clients + 1) now else view
  | .published (some event) => view.broadcast (.jobEvent event)
  | .published none | .metricsTick | .metricsRead none _ | .snapshotRead _ none _ => view
  | .metricsRead (some overview) now => view.broadcast (.metrics (overview.payload now))
  | .snapshotRead place (some overview) now =>
    if place = socket then view.sendTo (.snapshot (overview.payload now)) else view
  | .heartbeat => view.heartbeat
  | .message place raw now => if place = socket then view.sendTo (reply now raw) else view
  | .pong place => if place = socket then view.setAlive true else view
  | .sendFailed place | .errorEvent place => if place = socket then view.remove else view
  | .closing place => if place = socket then view.onConnection (·.beginClose) else view
  | .closeEvent place => if place = socket then (view.onConnection (·.deliverClose)).remove else view

end View

namespace Broadcaster

variable {server server' : Broadcaster E} {action : ServerAction E}

def view (server : Broadcaster E) (socket : Nat) : View E where
  isAlive := (server.clients.find? fun client => client.socket = socket).map (·.isAlive)
  connection := server.connections[socket]?

/-- Entries have distinct sockets, which were accepted. -/
structure Orderly (server : Broadcaster E) : Prop where
  distinct : (server.clients.map (·.socket)).Nodup
  accepted : ∀ client ∈ server.clients, client.socket < server.connections.length

/-! ## Parts of moves -/

section

variable (server) (socket place : Nat)

theorem readyState_view : (server.view socket).readyState = server.readyState socket := rfl

theorem view_onConnection (change : Connection E → Connection E) :
    (server.onConnection socket change).view place =
      if socket = place then (server.view place).onConnection change else server.view place := by
  by_cases own : socket = place
  · simp [own, view, onConnection, View.onConnection]
  · simp [own, view, onConnection, List.getElem?_modify_ne change server.connections own]

theorem view_remove :
    (server.remove socket).view place =
      if socket = place then (server.view place).remove else server.view place := by
  by_cases own : socket = place
  · simp [own, view, remove, View.remove, List.find?_filter]
  · rw [if_neg own]
    simp only [view, remove, List.find?_filter, View.mk.injEq, and_true]
    congr 2
    funext client
    by_cases found : client.socket = place
    · simp [found, Ne.symm own]
    · simp [found]

theorem view_setAlive (isAlive : Bool) :
    (server.setAlive socket isAlive).view place =
      if socket = place then (server.view place).setAlive isAlive else server.view place := by
  by_cases own : socket = place
  · subst own
    simp only [if_true, view, setAlive, View.setAlive, View.mk.injEq, and_true]
    induction server.clients with
    | nil => rfl
    | cons client clients inductionHypothesis =>
      by_cases found : client.socket = socket
      · simp [found]
      · simpa [found] using inductionHypothesis
  · rw [if_neg own]
    simp only [view, setAlive, View.mk.injEq, and_true]
    induction server.clients with
    | nil => rfl
    | cons client clients inductionHypothesis =>
      by_cases found : client.socket = place
      · simp [found, Ne.symm own]
      · by_cases changed : client.socket = socket
        · simpa [changed, own] using inductionHypothesis
        · simpa [changed, found] using inductionHypothesis

theorem view_sendTo (frame : Frame E) :
    (server.sendTo socket frame).view place =
      if socket = place then (server.view place).sendTo frame else server.view place := by
  unfold sendTo
  by_cases own : socket = place
  · subst own
    rw [if_pos rfl, View.sendTo, readyState_view]
    split
    · rfl
    · rw [view_onConnection, if_pos rfl]
  · rw [if_neg own]
    split
    · rfl
    · rw [view_onConnection, if_neg own]

end

/-! ## Loops -/

theorem broadcastTo_local (frame : Frame E) :
    Local (broadcastTo frame) id view fun _ => View.told frame where
  same server socket := by
    simp only [id_eq, broadcastTo, View.told, readyState_view]
    cases server.readyState socket with
    | none => rfl
    | some readyState =>
      cases readyState with
      | connecting => rfl
      | opened => simp only [view_onConnection, if_true]
      | closing | closed => simp only [view_remove, if_true]
  other server socket place other := by
    have apart : socket ≠ place := Ne.symm other
    unfold broadcastTo
    split
    · rw [view_onConnection, if_neg apart]
    · rw [view_remove, if_neg apart]
    · rw [view_remove, if_neg apart]
    · rfl
    · rfl

theorem beat_local : Local (beat (E := E)) TrackedClient.socket view View.beat where
  same server client := by
    unfold beat View.beat
    split
    · simp only [view_remove, view_onConnection, if_true]
    · dsimp only
      rw [← readyState_view, view_setAlive, if_pos rfl]
      split
      · simp only [view_onConnection, view_setAlive, if_true]
      · rw [view_setAlive, if_pos rfl]
  other server client place other := by
    have apart : client.socket ≠ place := Ne.symm other
    unfold beat
    split
    · rw [view_remove, if_neg apart, view_onConnection, if_neg apart]
    · dsimp only
      split
      · rw [view_onConnection, if_neg apart, view_setAlive, if_neg apart]
      · rw [view_setAlive, if_neg apart]

/-- A socket without an entry. -/
theorem isAlive_eq_none {socket : Nat} :
    (server.view socket).isAlive = none ↔ ∀ client ∈ server.clients, socket ≠ client.socket := by
  simp only [view, Option.map_eq_none_iff, List.find?_eq_none, decide_eq_true_eq]
  exact forall₂_congr fun _ _ => not_congr eq_comm

theorem exists_client {socket : Nat} {isAlive : Bool} (registered : (server.view socket).isAlive = some isAlive) :
    ∃ client ∈ server.clients, client.socket = socket ∧ client.isAlive = isAlive := by
  obtain ⟨client, found, same⟩ := Option.map_eq_some_iff.mp registered
  exact ⟨client, List.mem_of_find?_eq_some found, by simpa using List.find?_some found, same⟩

theorem view_broadcast (orderly : server.Orderly) (frame : Frame E) (socket : Nat) :
    (server.broadcast frame).view socket = (server.view socket).broadcast frame := by
  unfold broadcast View.broadcast
  split
  · next missing =>
    apply (broadcastTo_local frame).foldl_other
    simpa using isAlive_eq_none.mp missing
  · next registered =>
    obtain ⟨isAlive, registered⟩ := Option.ne_none_iff_exists'.mp registered
    obtain ⟨client, listed, same, -⟩ := exists_client registered
    subst same
    apply (broadcastTo_local frame).foldl_same
    · simpa using orderly.distinct
    · exact List.mem_map_of_mem listed

theorem view_heartbeat (orderly : server.Orderly) (socket : Nat) :
    server.heartbeat.view socket = (server.view socket).heartbeat := by
  unfold heartbeat View.heartbeat
  split
  · next missing => exact beat_local.foldl_other (isAlive_eq_none.mp missing) server
  · next registered =>
    obtain ⟨client, listed, same, alive⟩ := exists_client registered
    subst same alive
    exact beat_local.foldl_same orderly.distinct listed server

/-! ## Steps -/

theorem view_unaccepted (orderly : server.Orderly) {socket : Nat}
    (unaccepted : server.connections.length ≤ socket) : server.view socket = .absent := by
  have missing : (server.view socket).isAlive = none := by
    rw [isAlive_eq_none]
    intro client listed same
    have accepted := orderly.accepted client listed
    omega
  simp only [View.absent]
  rw [← missing, ← List.getElem?_eq_none unaccepted]
  rfl

theorem view_registered (orderly : server.Orderly) (now : Time) (socket : Nat) :
    (server.accept.register server.connections.length now).view socket =
      if server.connections.length = socket then ⟨some true, some .accepted⟩ else server.view socket := by
  by_cases own : server.connections.length = socket
  · subst own
    have missing : (server.view server.connections.length).isAlive = none := by
      rw [view_unaccepted orderly (Nat.le_refl _)]
      rfl
    simp only [view, Option.map_eq_none_iff] at missing
    simp [view, accept, register, List.find?_append, missing]
  · have same : (server.connections ++ [Connection.accepted])[socket]? = server.connections[socket]? := by
      rw [List.getElem?_append]
      split
      · rfl
      · next beyond =>
        have positive : 0 < socket - server.connections.length := by omega
        simp [List.getElem?_eq_none (Nat.le_of_not_lt beyond), Nat.ne_of_gt positive]
    simp [view, accept, register, List.find?_append, own, same]

theorem view_wsHandler (orderly : server.Orderly) (now : Time) (socket : Nat) :
    (server.accept.wsHandler server.connections.length now).view socket =
      if server.connections.length = socket then .welcomed (server.clients.length + 1) now
      else server.view socket := by
  have sent := view_sendTo (server.accept.register server.connections.length now)
    server.connections.length socket
    (.connected "Taskfire live updates connected" (server.clients.length + 1) now)
  rw [view_registered orderly] at sent
  have counted : (server.accept.register server.connections.length now).clients.length =
      server.clients.length + 1 := List.length_append
  simp only [wsHandler, counted]
  refine Eq.trans sent ?_
  split
  · simp [View.sendTo, View.readyState, View.onConnection, View.welcomed, Connection.accepted]
  · rfl

theorem step_view (orderly : server.Orderly) (stepped : server.step action = some server')
    (socket : Nat) :
    server'.view socket = (server.view socket).next socket server.clients.length action := by
  cases action with
  | connect place now =>
    obtain ⟨same, stepped⟩ := Option.ite_none_right_eq_some.mp stepped
    cases stepped
    subst same
    exact view_wsHandler orderly now socket
  | published message =>
    cases stepped
    cases message with
    | none => rfl
    | some event => exact view_broadcast orderly _ socket
  | metricsTick =>
    simp only [step, Option.some.injEq] at stepped
    subst stepped
    split <;> rfl
  | metricsRead overview now =>
    obtain ⟨_, stepped⟩ := Option.ite_none_left_eq_some.mp stepped
    cases overview with
    | none => cases stepped; rfl
    | some overview =>
      cases stepped
      have orderly' : { server with ticks := server.ticks - 1 }.Orderly := ⟨orderly.1, orderly.2⟩
      exact view_broadcast orderly' _ socket
  | snapshotRead place overview now =>
    obtain ⟨_, stepped⟩ := Option.ite_none_right_eq_some.mp stepped
    cases overview with
    | none => cases stepped; rfl
    | some overview =>
      cases stepped
      exact view_sendTo ..
  | heartbeat =>
    cases stepped
    exact view_heartbeat orderly socket
  | message place raw now =>
    obtain ⟨_, stepped⟩ := Option.ite_none_right_eq_some.mp stepped
    cases stepped
    exact view_sendTo ..
  | pong place =>
    obtain ⟨_, stepped⟩ := Option.ite_none_right_eq_some.mp stepped
    cases stepped
    exact view_setAlive ..
  | sendFailed place =>
    obtain ⟨_, stepped⟩ := Option.ite_none_right_eq_some.mp stepped
    cases stepped
    exact view_remove ..
  | closing place =>
    obtain ⟨_, stepped⟩ := Option.ite_none_right_eq_some.mp stepped
    cases stepped
    exact view_onConnection ..
  | closeEvent place =>
    obtain ⟨_, stepped⟩ := Option.ite_none_right_eq_some.mp stepped
    cases stepped
    rw [view_remove, view_onConnection, View.next]
    split <;> rfl
  | errorEvent place =>
    obtain ⟨_, stepped⟩ := Option.ite_none_right_eq_some.mp stepped
    cases stepped
    exact view_remove ..

/-! ## The order of the registry -/

/-- No connection is new, no entry, and no pending snapshot. -/
structure Narrows (before after : Broadcaster E) : Prop where
  sockets : (after.clients.map (·.socket)).Sublist (before.clients.map (·.socket))
  connections : after.connections.length = before.connections.length
  snapshots : after.snapshots = before.snapshots

theorem Narrows.refl (server : Broadcaster E) : server.Narrows server := ⟨.refl _, rfl, rfl⟩

theorem Narrows.trans {first second third : Broadcaster E} (left : first.Narrows second)
    (right : second.Narrows third) : first.Narrows third :=
  ⟨right.sockets.trans left.sockets, right.connections.trans left.connections,
    right.snapshots.trans left.snapshots⟩

theorem narrows_foldl {I : Type} {turn : Broadcaster E → I → Broadcaster E}
    (turns : ∀ (server : Broadcaster E) entry, server.Narrows (turn server entry)) (entries : List I)
    (server : Broadcaster E) : server.Narrows (entries.foldl turn server) := by
  induction entries generalizing server with
  | nil => exact .refl server
  | cons entry entries inductionHypothesis => exact (turns server entry).trans (inductionHypothesis _)

theorem narrows_onConnection (server : Broadcaster E) (socket : Nat)
    (change : Connection E → Connection E) : server.Narrows (server.onConnection socket change) :=
  ⟨.refl _, List.length_modify .., rfl⟩

theorem narrows_remove (server : Broadcaster E) (socket : Nat) : server.Narrows (server.remove socket) :=
  ⟨List.filter_sublist.map _, rfl, rfl⟩

theorem narrows_setAlive (server : Broadcaster E) (socket : Nat) (isAlive : Bool) :
    server.Narrows (server.setAlive socket isAlive) := by
  refine ⟨?_, rfl, rfl⟩
  have same : (server.setAlive socket isAlive).clients.map (·.socket) =
      server.clients.map (·.socket) := by
    rw [setAlive, List.map_map]
    apply List.map_congr_left
    intro client _
    simp only [Function.comp_apply]
    split <;> rfl
  rw [same]

theorem narrows_sendTo (server : Broadcaster E) (socket : Nat) (frame : Frame E) :
    server.Narrows (server.sendTo socket frame) := by
  unfold sendTo
  split
  · exact .refl server
  · exact narrows_onConnection ..

theorem narrows_broadcast (server : Broadcaster E) (frame : Frame E) :
    server.Narrows (server.broadcast frame) := by
  apply narrows_foldl
  intro server socket
  unfold broadcastTo
  split
  · exact narrows_onConnection ..
  · exact narrows_remove ..
  · exact narrows_remove ..
  · exact .refl server
  · exact .refl server

theorem narrows_heartbeat (server : Broadcaster E) : server.Narrows server.heartbeat := by
  apply narrows_foldl
  intro server client
  unfold beat
  split
  · exact (narrows_onConnection ..).trans (narrows_remove ..)
  · dsimp only
    split
    · exact (narrows_setAlive ..).trans (narrows_onConnection ..)
    · exact narrows_setAlive ..

theorem Orderly.narrows (orderly : server.Orderly) (narrows : server.Narrows server') :
    server'.Orderly where
  distinct := narrows.sockets.nodup orderly.distinct
  accepted client listed := by
    obtain ⟨old, present, same⟩ :=
      List.mem_map.mp (narrows.sockets.subset (List.mem_map_of_mem listed))
    rw [narrows.connections, ← same]
    exact orderly.accepted old present

theorem Orderly.connect (orderly : server.Orderly) (now : Time) :
    (server.accept.wsHandler server.connections.length now).Orderly := by
  have registered : (server.accept.register server.connections.length now).Orderly := by
    constructor
    · simp only [register, accept, List.map_append, List.map_cons, List.map_nil]
      rw [← List.concat_eq_append]
      refine orderly.distinct.concat ?_
      intro taken
      obtain ⟨client, listed, same⟩ := List.mem_map.mp taken
      have accepted := orderly.accepted client listed
      omega
    · intro client listed
      simp only [register, accept, List.length_append, List.length_singleton] at listed ⊢
      obtain old | new := List.mem_append.mp listed
      · exact Nat.lt_succ_of_lt (orderly.accepted client old)
      · cases List.mem_singleton.mp new
        exact Nat.lt_succ_self _
  have sent := registered.narrows (narrows_sendTo _ server.connections.length
    (.connected "Taskfire live updates connected"
      (server.accept.register server.connections.length now).clients.length now))
  exact ⟨sent.distinct, sent.accepted⟩

theorem step_orderly (orderly : server.Orderly) (stepped : server.step action = some server') :
    server'.Orderly := by
  cases action with
  | connect place now =>
    obtain ⟨same, stepped⟩ := Option.ite_none_right_eq_some.mp stepped
    cases stepped
    subst same
    exact orderly.connect now
  | published message =>
    cases stepped
    cases message with
    | none => exact orderly
    | some event => exact orderly.narrows (narrows_broadcast ..)
  | metricsTick =>
    simp only [step, Option.some.injEq] at stepped
    subst stepped
    split
    · exact orderly
    · exact ⟨orderly.1, orderly.2⟩
  | metricsRead overview now =>
    obtain ⟨_, stepped⟩ := Option.ite_none_left_eq_some.mp stepped
    have orderly' : { server with ticks := server.ticks - 1 }.Orderly := ⟨orderly.1, orderly.2⟩
    cases overview with
    | none => cases stepped; exact orderly'
    | some overview => cases stepped; exact orderly'.narrows (narrows_broadcast ..)
  | snapshotRead place overview now =>
    obtain ⟨_, stepped⟩ := Option.ite_none_right_eq_some.mp stepped
    have orderly' : { server with snapshots := server.snapshots.erase place }.Orderly :=
      ⟨orderly.1, orderly.2⟩
    cases overview with
    | none => cases stepped; exact orderly'
    | some overview => cases stepped; exact orderly'.narrows (narrows_sendTo ..)
  | heartbeat =>
    cases stepped
    exact orderly.narrows (narrows_heartbeat server)
  | message place raw now =>
    obtain ⟨_, stepped⟩ := Option.ite_none_right_eq_some.mp stepped
    cases stepped
    exact orderly.narrows (narrows_sendTo ..)
  | pong place =>
    obtain ⟨_, stepped⟩ := Option.ite_none_right_eq_some.mp stepped
    cases stepped
    exact orderly.narrows (narrows_setAlive ..)
  | sendFailed place | errorEvent place =>
    obtain ⟨_, stepped⟩ := Option.ite_none_right_eq_some.mp stepped
    cases stepped
    exact orderly.narrows (narrows_remove ..)
  | closing place =>
    obtain ⟨_, stepped⟩ := Option.ite_none_right_eq_some.mp stepped
    cases stepped
    exact orderly.narrows (narrows_onConnection ..)
  | closeEvent place =>
    obtain ⟨_, stepped⟩ := Option.ite_none_right_eq_some.mp stepped
    cases stepped
    exact orderly.narrows ((narrows_onConnection ..).trans (narrows_remove ..))

end Broadcaster

end Taskfire.Api
