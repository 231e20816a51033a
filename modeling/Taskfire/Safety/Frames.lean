import Taskfire.Safety.Delivery

/-!
# What is sent on a connection

A move puts one frame at most on a connection, and only while it is open.  So a connection begins with
its welcome, gets one snapshot at most, and nothing once it is no longer open.
-/

namespace Taskfire.Api

open Taskfire.Library
open Taskfire.Dashboard (ReadyState)

variable {E : Type}

/-! ## One move -/

/-- The frame a move has for a connection that was accepted before. -/
def offered (socket : Nat) : ServerAction E → Option (Frame E)
  | .published message => message.map .jobEvent
  | .metricsRead overview now => overview.map fun overview => .metrics (overview.payload now)
  | .snapshotRead place overview now =>
    if place = socket then overview.map fun overview => .snapshot (overview.payload now) else none
  | .message place raw now => if place = socket then some (reply now raw) else none
  | _ => none

def Frame.isConnected : Frame E → Bool
  | .connected .. => true
  | _ => false

def Frame.isSnapshot : Frame E → Bool
  | .snapshot _ => true
  | _ => false

theorem reply_isSnapshot (now : Time) (raw : Option ClientValue) :
    (reply (E := E) now raw).isSnapshot = false := by
  unfold reply
  split <;> rfl

theorem offered_isConnected {socket : Nat} {action : ServerAction E} {frame : Frame E}
    (offers : frame ∈ offered socket action) : frame.isConnected = false := by
  cases action with
  | published read | metricsRead read now =>
    obtain ⟨_, -, rfl⟩ := Option.map_eq_some_iff.mp offers
    rfl
  | snapshotRead place overview now =>
    obtain ⟨-, offers⟩ := Option.ite_none_right_eq_some.mp offers
    obtain ⟨_, -, rfl⟩ := Option.map_eq_some_iff.mp offers
    rfl
  | message place raw now =>
    obtain ⟨-, same⟩ := Option.ite_none_right_eq_some.mp offers
    cases same
    unfold reply
    split <;> rfl
  | _ => cases offers

/-- The connection may have been sent the frame, if it was open, and was not opened. -/
structure Connection.Advances (offer : Option (Frame E)) (before after : Connection E) : Prop where
  frames : after.frames = before.frames ∨
    before.readyState = .opened ∧ ∃ frame ∈ offer, after.frames = before.frames ++ [frame]
  opened : after.readyState = .opened → before.readyState = .opened

namespace Connection

variable {offer : Option (Frame E)}

theorem Advances.refl (connection : Connection E) : connection.Advances offer connection :=
  ⟨.inl rfl, id⟩

theorem advances_send {connection : Connection E} {frame : Frame E} (opened : connection.readyState = .opened)
    (offers : frame ∈ offer) : connection.Advances offer (connection.send frame) :=
  ⟨.inr ⟨opened, frame, offers, rfl⟩, fun _ => opened⟩

theorem advances_ping (connection : Connection E) : connection.Advances offer connection.ping :=
  ⟨.inl rfl, id⟩

theorem advances_terminate (connection : Connection E) : connection.Advances offer connection.terminate := by
  unfold terminate
  split
  · exact ⟨.inl rfl, id⟩
  · exact ⟨.inl rfl, nofun⟩
  · exact ⟨.inl rfl, nofun⟩
  · exact ⟨.inl rfl, nofun⟩

theorem advances_beginClose (connection : Connection E) :
    connection.Advances offer connection.beginClose := by
  unfold beginClose
  split
  · exact ⟨.inl rfl, nofun⟩
  · exact ⟨.inl rfl, nofun⟩
  · exact .refl _
  · exact .refl _

theorem advances_deliverClose (connection : Connection E) :
    connection.Advances offer connection.deliverClose :=
  ⟨.inl rfl, nofun⟩

end Connection

namespace View

variable {view : View E} {offer : Option (Frame E)}

/-- The connection is still there, and has advanced. -/
def Advances (offer : Option (Frame E)) (before after : View E) : Prop :=
  ∀ connection, before.connection = some connection →
    ∃ connection', after.connection = some connection' ∧ connection.Advances offer connection'

theorem Advances.of_same {before after : View E} (same : after.connection = before.connection) :
    before.Advances offer after :=
  fun connection known => ⟨connection, same.trans known, .refl _⟩

theorem advances_onConnection {change : Connection E → Connection E}
    (advances : ∀ connection : Connection E, connection.Advances offer (change connection)) :
    view.Advances offer (view.onConnection change) :=
  fun connection known => ⟨change connection, by simp [onConnection, known], advances connection⟩

theorem advances_send {frame : Frame E} (opened : view.readyState = some .opened)
    (offers : frame ∈ offer) : view.Advances offer (view.onConnection (·.send frame)) := by
  intro connection known
  refine ⟨connection.send frame, by simp [onConnection, known], Connection.advances_send ?_ offers⟩
  simpa [readyState, known] using opened

theorem advances_sendTo {frame : Frame E} (offers : frame ∈ offer) :
    view.Advances offer (view.sendTo frame) := by
  unfold sendTo
  split
  · exact .of_same rfl
  · next opened => exact advances_send (not_not.mp opened) offers

theorem advances_broadcast {frame : Frame E} (offers : frame ∈ offer) :
    view.Advances offer (view.broadcast frame) := by
  unfold broadcast told
  split
  · exact .of_same rfl
  · split
    · next opened => exact advances_send opened offers
    · exact .of_same rfl
    · exact .of_same rfl
    · exact .of_same rfl
    · exact .of_same rfl

theorem advances_heartbeat : view.Advances offer view.heartbeat := by
  rw [heartbeat_eq]
  split
  · exact .of_same rfl
  · split
    · exact advances_onConnection Connection.advances_terminate
    · split
      · exact advances_onConnection Connection.advances_ping
      · exact .of_same rfl

theorem next_advances (socket clients : Nat) {action : ServerAction E}
    (known : ∀ now, action ≠ .connect socket now) :
    view.Advances (offered socket action) (view.next socket clients action) := by
  cases action with
  | connect place now =>
    have other : place ≠ socket := by
      intro same
      subst same
      exact known now rfl
    simp only [next, if_neg other]
    exact .of_same rfl
  | published message =>
    cases message with
    | none => exact .of_same rfl
    | some event => exact advances_broadcast rfl
  | metricsTick => exact .of_same rfl
  | metricsRead overview now =>
    cases overview with
    | none => exact .of_same rfl
    | some overview => exact advances_broadcast rfl
  | snapshotRead place overview now =>
    cases overview with
    | none => exact .of_same rfl
    | some overview =>
      simp only [next, offered]
      split
      · exact advances_sendTo rfl
      · exact .of_same rfl
  | heartbeat => exact advances_heartbeat
  | message place raw now =>
    simp only [next, offered]
    split
    · exact advances_sendTo rfl
    · exact .of_same rfl
  | pong place | sendFailed place | errorEvent place =>
    simp only [next]
    split
    · exact .of_same rfl
    · exact .of_same rfl
  | closing place =>
    simp only [next]
    split
    · exact advances_onConnection Connection.advances_beginClose
    · exact .of_same rfl
  | closeEvent place =>
    simp only [next]
    split
    · exact advances_onConnection Connection.advances_deliverClose
    · exact .of_same rfl

end View

namespace Broadcaster

variable {server server' : Broadcaster E} {action : ServerAction E}

theorem step_advances (orderly : server.Orderly) (stepped : server.step action = some server')
    {number : Nat} {connection : Connection E} (found : server.connections[number]? = some connection) :
    ∃ connection', server'.connections[number]? = some connection' ∧
      connection.Advances (offered number action) connection' := by
  have known (now : Time) : action ≠ .connect number now := by
    intro connects
    have absent := congrArg View.connection (connect_unaccepted orderly stepped number now connects)
    exact nomatch found.symm.trans absent
  have advanced : (server.view number).Advances (offered number action) _ :=
    View.next_advances number server.clients.length known
  rw [← step_view orderly stepped number] at advanced
  exact advanced connection found

/-- What a move does to the snapshots that are being read. -/
theorem step_snapshots (stepped : server.step action = some server') :
    (∃ now, action = .connect server.connections.length now ∧
      server'.connections.length = server.connections.length + 1 ∧
      server'.snapshots = server.snapshots ++ [server.connections.length]) ∨
    server'.connections.length = server.connections.length ∧
      ((∃ place overview now, action = .snapshotRead place overview now ∧ place ∈ server.snapshots ∧
        server'.snapshots = server.snapshots.erase place) ∨
      server'.snapshots = server.snapshots ∧
        ∀ socket, ∀ frame ∈ offered socket action, frame.isSnapshot = false) := by
  have quiet (socket place : Nat) (raw : Option ClientValue) (now : Time) :
      ∀ frame ∈ offered (E := E) socket (.message place raw now), frame.isSnapshot = false := by
    intro frame offers
    obtain ⟨-, same⟩ := Option.ite_none_right_eq_some.mp offers
    cases same
    exact reply_isSnapshot now raw
  have silent (socket : Nat) : ∀ frame ∈ (none : Option (Frame E)), frame.isSnapshot = false := by
    intro frame offers
    cases offers
  have narrow {earlier : Broadcaster E} (narrows : earlier.Narrows server')
      (connections : earlier.connections = server.connections)
      (snapshots : earlier.snapshots = server.snapshots) :
      server'.connections.length = server.connections.length ∧ server'.snapshots = server.snapshots := by
    rw [← connections, ← snapshots]
    exact ⟨narrows.connections, narrows.snapshots⟩
  cases action with
  | connect place now =>
    obtain ⟨same, stepped⟩ := Option.ite_none_right_eq_some.mp stepped
    cases stepped
    subst same
    have sent := narrows_sendTo (server.accept.register server.connections.length now)
      server.connections.length (.connected "Taskfire live updates connected"
        (server.accept.register server.connections.length now).clients.length now)
    refine .inl ⟨now, rfl, sent.connections.trans List.length_append, ?_⟩
    exact congrArg (· ++ [server.connections.length]) sent.snapshots
  | snapshotRead place overview now =>
    obtain ⟨pending, stepped⟩ := Option.ite_none_right_eq_some.mp stepped
    cases overview with
    | none =>
      cases stepped
      exact .inr ⟨rfl, .inl ⟨place, none, now, rfl, pending, rfl⟩⟩
    | some overview =>
      cases stepped
      have sent := narrows_sendTo { server with snapshots := server.snapshots.erase place } place
        (.snapshot (overview.payload now))
      exact .inr ⟨sent.connections, .inl ⟨place, some overview, now, rfl, pending, sent.snapshots⟩⟩
  | published message =>
    cases stepped
    cases message with
    | none => exact .inr ⟨rfl, .inr ⟨rfl, silent⟩⟩
    | some event =>
      obtain ⟨counted, same⟩ := narrow (narrows_broadcast server _) rfl rfl
      refine .inr ⟨counted, .inr ⟨same, ?_⟩⟩
      rintro _ _ ⟨⟩
      rfl
  | metricsTick =>
    simp only [step, Option.some.injEq] at stepped
    subst stepped
    refine .inr ?_
    split
    · exact ⟨rfl, .inr ⟨rfl, silent⟩⟩
    · exact ⟨rfl, .inr ⟨rfl, silent⟩⟩
  | metricsRead overview now =>
    obtain ⟨_, stepped⟩ := Option.ite_none_left_eq_some.mp stepped
    cases overview with
    | none =>
      cases stepped
      exact .inr ⟨rfl, .inr ⟨rfl, silent⟩⟩
    | some overview =>
      cases stepped
      obtain ⟨counted, same⟩ :=
        narrow (narrows_broadcast { server with ticks := server.ticks - 1 } _) rfl rfl
      refine .inr ⟨counted, .inr ⟨same, ?_⟩⟩
      rintro _ _ ⟨⟩
      rfl
  | heartbeat =>
    cases stepped
    obtain ⟨counted, same⟩ := narrow (narrows_heartbeat server) rfl rfl
    exact .inr ⟨counted, .inr ⟨same, silent⟩⟩
  | message place raw now =>
    obtain ⟨_, stepped⟩ := Option.ite_none_right_eq_some.mp stepped
    cases stepped
    obtain ⟨counted, same⟩ := narrow (narrows_sendTo server place (reply now raw)) rfl rfl
    exact .inr ⟨counted, .inr ⟨same, fun socket => quiet socket place raw now⟩⟩
  | pong place =>
    obtain ⟨_, stepped⟩ := Option.ite_none_right_eq_some.mp stepped
    cases stepped
    exact .inr ⟨rfl, .inr ⟨rfl, silent⟩⟩
  | sendFailed place | errorEvent place =>
    obtain ⟨_, stepped⟩ := Option.ite_none_right_eq_some.mp stepped
    cases stepped
    exact .inr ⟨rfl, .inr ⟨rfl, silent⟩⟩
  | closing place =>
    obtain ⟨_, stepped⟩ := Option.ite_none_right_eq_some.mp stepped
    cases stepped
    exact .inr ⟨List.length_modify .., .inr ⟨rfl, silent⟩⟩
  | closeEvent place =>
    obtain ⟨_, stepped⟩ := Option.ite_none_right_eq_some.mp stepped
    cases stepped
    exact .inr ⟨List.length_modify .., .inr ⟨rfl, silent⟩⟩

/-! ## Runs -/

/-- The frames of a connection of which `snapshots` are still to be read. -/
def Greets (frames : List (Frame E)) (snapshots : Nat) : Prop :=
  ∃ clients now rest, frames = .connected "Taskfire live updates connected" clients now :: rest ∧
    rest.countP Frame.isConnected = 0 ∧ rest.countP Frame.isSnapshot + snapshots ≤ 1

structure Greeted (server : Broadcaster E) : Prop where
  greets : ∀ number connection, server.connections[number]? = some connection →
    Greets connection.frames (server.snapshots.count number)
  pending : ∀ number ∈ server.snapshots, number < server.connections.length

theorem Greets.append {frames : List (Frame E)} {snapshots : Nat} (greets : Greets frames snapshots)
    {frame : Frame E} (connected : frame.isConnected = false) (snapshot : frame.isSnapshot = false) :
    Greets (frames ++ [frame]) snapshots := by
  obtain ⟨clients, now, rest, rfl, single, counted⟩ := greets
  refine ⟨clients, now, rest ++ [frame], rfl, ?_, ?_⟩
  · simpa [connected] using single
  · simpa [snapshot] using counted

/-- The snapshot of the connection is sent. -/
theorem Greets.snapshot {frames : List (Frame E)} {snapshots : Nat} (greets : Greets frames (snapshots + 1))
    (payload : OverviewPayload) : Greets (frames ++ [.snapshot payload]) snapshots := by
  obtain ⟨clients, now, rest, rfl, single, counted⟩ := greets
  refine ⟨clients, now, rest ++ [.snapshot payload], rfl, ?_, ?_⟩
  · simpa [Frame.isConnected] using single
  · rw [List.countP_append, List.countP_singleton, Frame.isSnapshot, if_pos rfl]
    omega

theorem Greets.mono {frames : List (Frame E)} {more fewer : Nat} (greets : Greets frames more)
    (fewer_le : fewer ≤ more) : Greets frames fewer := by
  obtain ⟨clients, now, rest, same, single, counted⟩ := greets
  exact ⟨clients, now, rest, same, single, by omega⟩

/-- A connection there after a move was there before, or the move accepted it. -/
theorem step_found (orderly : server.Orderly) (stepped : server.step action = some server')
    {number : Nat} {connection' : Connection E} (found : server'.connections[number]? = some connection')
    (accepted : number < server.connections.length) :
    ∃ connection, server.connections[number]? = some connection ∧
      connection.Advances (offered number action) connection' := by
  have present := List.getElem?_eq_getElem accepted
  obtain ⟨_, found', advances⟩ := step_advances orderly stepped present
  rw [found] at found'
  cases found'
  exact ⟨_, present, advances⟩

theorem Greeted.connect (greeted : server.Greeted) (orderly : server.Orderly) {now : Time}
    (stepped : server.step (.connect server.connections.length now) = some server')
    (counted : server'.connections.length = server.connections.length + 1)
    (snapshots : server'.snapshots = server.snapshots ++ [server.connections.length]) :
    server'.Greeted where
  greets number connection' found := by
    rw [snapshots, List.count_append]
    by_cases own : server.connections.length = number
    · subst own
      have none_pending : server.snapshots.count server.connections.length = 0 :=
        List.count_eq_zero.mpr fun listed => absurd (greeted.pending _ listed) (Nat.lt_irrefl _)
      have welcomed := congrArg View.connection (step_view orderly stepped server.connections.length)
      simp only [View.next, if_true, View.welcomed] at welcomed
      cases found.symm.trans welcomed
      refine ⟨server.clients.length + 1, now, [], rfl, rfl, ?_⟩
      simp [none_pending]
    · have inside := (List.getElem?_eq_some_iff.mp found).1
      obtain ⟨connection, present, advances⟩ := step_found orderly stepped found (by omega)
      have same : connection'.frames = connection.frames := by
        obtain same | ⟨-, _, offers, -⟩ := advances.frames
        · exact same
        · cases offers
      simpa [same, own] using greeted.greets number connection present
  pending number listed := by
    rw [snapshots] at listed
    rw [counted]
    obtain old | new := List.mem_append.mp listed
    · exact Nat.lt_succ_of_lt (greeted.pending number old)
    · cases List.mem_singleton.mp new
      exact Nat.lt_succ_self _

theorem Greeted.snapshotRead (greeted : server.Greeted) (orderly : server.Orderly) {place : Nat}
    {overview : Option Overview} {now : Time}
    (stepped : server.step (.snapshotRead place overview now) = some server')
    (counted : server'.connections.length = server.connections.length) (pending : place ∈ server.snapshots)
    (snapshots : server'.snapshots = server.snapshots.erase place) : server'.Greeted where
  greets number connection' found := by
    have inside := (List.getElem?_eq_some_iff.mp found).1
    obtain ⟨connection, present, advances⟩ := step_found orderly stepped found (by omega)
    have greets := greeted.greets number connection present
    rw [snapshots]
    obtain same | ⟨-, frame, offers, sent⟩ := advances.frames
    · rw [same]
      exact greets.mono (List.erase_sublist.count_le number)
    · obtain ⟨own, offers⟩ := Option.ite_none_right_eq_some.mp offers
      obtain ⟨read, -, rfl⟩ := Option.map_eq_some_iff.mp offers
      subst own
      have positive := List.count_pos_iff.mpr pending
      rw [sent, List.count_erase_self]
      refine Greets.snapshot ?_ _
      rwa [Nat.sub_add_cancel positive]
  pending number listed := by
    rw [snapshots] at listed
    rw [counted]
    exact greeted.pending number (List.mem_of_mem_erase listed)

theorem Greeted.step (greeted : server.Greeted) (orderly : server.Orderly)
    (stepped : server.step action = some server') : server'.Greeted := by
  obtain ⟨now, rfl, counted, snapshots⟩ | ⟨counted, kept⟩ := step_snapshots stepped
  · exact greeted.connect orderly stepped counted snapshots
  · obtain ⟨place, overview, now, rfl, pending, snapshots⟩ | ⟨snapshots, plain⟩ := kept
    · exact greeted.snapshotRead orderly stepped counted pending snapshots
    · constructor
      · intro number connection' found
        have inside := (List.getElem?_eq_some_iff.mp found).1
        obtain ⟨connection, present, advances⟩ := step_found orderly stepped found (by omega)
        have greets := greeted.greets number connection present
        rw [snapshots]
        obtain same | ⟨-, frame, offers, sent⟩ := advances.frames
        · rwa [same]
        · rw [sent]
          exact greets.append (offered_isConnected offers) (plain number frame offers)
      · rw [snapshots, counted]
        exact greeted.pending

variable {actions : List (ServerAction E)}

theorem greeted_run (orderly : server.Orderly) (greeted : server.Greeted)
    (ran : replay step unchecked server actions = some server') : server'.Orderly ∧ server'.Greeted := by
  induction actions generalizing server with
  | nil =>
    cases ran
    exact ⟨orderly, greeted⟩
  | cons action actions inductionHypothesis =>
    simp only [replay_cons, unchecked, if_true] at ran
    obtain ⟨middle, stepped, rest⟩ := Option.bind_eq_some_iff.mp ran
    exact inductionHypothesis (step_orderly orderly stepped) (greeted.step orderly stepped) rest

/-- Frames are only added, and none once the connection is not open. -/
theorem frames_grow (orderly : server.Orderly) {number : Nat} {connection : Connection E}
    (found : server.connections[number]? = some connection)
    (ran : replay step unchecked server actions = some server') :
    ∃ connection', server'.connections[number]? = some connection' ∧
      connection.frames <+: connection'.frames ∧
      (connection.readyState ≠ .opened → connection'.frames = connection.frames) := by
  induction actions generalizing server connection with
  | nil =>
    cases ran
    exact ⟨connection, found, List.prefix_rfl, fun _ => rfl⟩
  | cons action actions inductionHypothesis =>
    simp only [replay_cons, unchecked, if_true] at ran
    obtain ⟨middle, stepped, rest⟩ := Option.bind_eq_some_iff.mp ran
    obtain ⟨between, found', advances⟩ := step_advances orderly stepped found
    obtain ⟨connection', found'', grows, stays⟩ :=
      inductionHypothesis (step_orderly orderly stepped) found' rest
    refine ⟨connection', found'', List.IsPrefix.trans ?_ grows, fun ended => ?_⟩
    · obtain same | ⟨-, frame, -, sent⟩ := advances.frames
      · exact same ▸ List.prefix_rfl
      · rw [sent]
        exact List.prefix_append ..
    · have same : between.frames = connection.frames := by
        obtain same | ⟨opened, -⟩ := advances.frames
        · exact same
        · exact absurd opened ended
      rw [← same]
      exact stays (mt advances.opened ended)

/-- In every run the first frame of a connection is its welcome, which comes once; the snapshot comes
at most once; and from a moment when the connection is not open its frames stay as they are. -/
theorem frames_spec (ran : replay step unchecked initial actions = some server) {number : Nat}
    {connection : Connection E} (found : server.connections[number]? = some connection) :
    (∃ clients now rest,
      connection.frames = .connected "Taskfire live updates connected" clients now :: rest ∧
      rest.countP Frame.isConnected = 0 ∧ rest.countP Frame.isSnapshot ≤ 1) ∧
    ∀ later server', replay step unchecked server later = some server' →
      ∃ connection', server'.connections[number]? = some connection' ∧
        connection.frames <+: connection'.frames ∧
        (connection.readyState ≠ .opened → connection'.frames = connection.frames) := by
  have base : (initial : Broadcaster E).Greeted := ⟨nofun, nofun⟩
  obtain ⟨orderly, greeted⟩ := greeted_run orderly_initial base ran
  constructor
  · obtain ⟨clients, now, rest, welcome, single, counted⟩ := greeted.greets number connection found
    exact ⟨clients, now, rest, welcome, single, Nat.le_of_add_right_le counted⟩
  · intro later server' ran'
    exact frames_grow orderly found ran'

/-- The second read of the stores returns when its connection is closing. -/
def lateSnapshot : List (ServerAction String) :=
  [.connect 0 0, .connect 1 0, .snapshotRead 0 (some ⟨⟨0, 1, 0, 0, 1⟩, 0, ⟨1, 0, 0, 0, 0⟩⟩) 1,
    .published (some "queued"), .closing 1]

theorem frames_lateSnapshot : ∃ server connection,
    replay step unchecked initial lateSnapshot = some server ∧
    server.connections[1]? = some connection ∧ connection.readyState = .closing ∧
    ∀ later server', replay step unchecked server later = some server' →
      ∃ connection', server'.connections[1]? = some connection' ∧
        connection'.frames = connection.frames := by
  refine ⟨_, _, rfl, rfl, rfl, fun later server' ran => ?_⟩
  obtain ⟨connection', found, -, stays⟩ :=
    (@frames_spec String _ lateSnapshot rfl 1 _ rfl).2 later server' ran
  exact ⟨connection', found, stays nofun⟩

end Broadcaster

end Taskfire.Api
