import Taskfire.Model.LiveUpdates
import Taskfire.Safety.Frames
import Taskfire.Safety.Reconnect

/-!
# Live updates, end to end

What a dashboard shows of the events published on the Redis channel, through the server's registry, its
connection and its reconnections: some of them may be missing, none comes twice or before an earlier
one, and none is missing of those published since the server accepted its open connection and arrived.
-/

namespace Taskfire

open Taskfire.Library
open Taskfire.Api (Broadcaster Connection Frame OverviewPayload ServerAction offered)
open Taskfire.Dashboard (Hook HookAction ReadyState Socket WsMessage eventHistoryCap)

variable {M E : Type}

/-! ## The sockets of the hook -/

namespace Dashboard

/-- No socket is gone, and none of the old ones became usable. -/
structure Continues (before after : List Socket) : Prop where
  grows : before.length ≤ after.length
  usable : ∀ place socket', place < before.length → after[place]? = some socket' → socket'.usable = true →
    ∃ socket, before[place]? = some socket ∧ socket.usable = true

namespace Continues

theorem refl (sockets : List Socket) : Continues sockets sockets :=
  ⟨Nat.le_refl _, fun _ socket _ found usable => ⟨socket, found, usable⟩⟩

theorem trans {first second third : List Socket} (left : Continues first second)
    (right : Continues second third) : Continues first third where
  grows := left.grows.trans right.grows
  usable place socket'' inside found usable := by
    obtain ⟨socket', found', usable'⟩ :=
      right.usable place socket'' (Nat.lt_of_lt_of_le inside left.grows) found usable
    exact left.usable place socket' inside found' usable'

theorem modify (sockets : List Socket) (number : Nat) {change : Socket → Socket}
    (keeps : ∀ socket, (change socket).usable = true → socket.usable = true) :
    Continues sockets (sockets.modify number change) where
  grows := (List.length_modify ..).ge
  usable place socket' _ found usable := by
    rw [List.getElem?_modify] at found
    obtain ⟨socket, present, same⟩ := Option.map_eq_some_iff.mp found
    refine ⟨socket, present, ?_⟩
    split at same
    · subst same
      exact keeps socket usable
    · cases same
      exact usable

theorem append (sockets : List Socket) (socket : Socket) : Continues sockets (sockets ++ [socket]) where
  grows := by simp
  usable place socket' inside found usable :=
    ⟨socket', by rwa [List.getElem?_append_left inside] at found, usable⟩

end Continues

namespace Hook

variable {hook hook' : Hook M E} {action : HookAction M E}

theorem closeCurrent_continues (hook : Hook M E) : Continues hook.sockets hook.closeCurrent.sockets := by
  unfold closeCurrent
  split
  · exact .refl _
  · exact .modify _ _ (by simp)

theorem connect_continues (hook : Hook M E) : Continues hook.sockets hook.connect.sockets := by
  unfold connect
  split
  · exact .refl _
  · exact hook.closeCurrent_continues.trans (.append _ _)

theorem onmessage_sockets (hook : Hook M E) (msg : WsMessage M E) :
    (hook.onmessage msg).sockets = hook.sockets := by
  unfold onmessage
  split
  · rfl
  · cases msg <;> rfl

theorem onclose_sockets (hook : Hook M E) (code : Nat) (wasClean : Bool) :
    (hook.onclose code wasClean).sockets = hook.sockets := by
  unfold onclose
  split
  · rfl
  · dsimp only
    split
    · unfold scheduleReconnect
      split <;> rfl
    · rfl

theorem cleanup_sockets (hook : Hook M E) : hook.cleanup.sockets = hook.closeCurrent.sockets := by
  unfold cleanup closeCurrent
  cases hook.wsRef <;> cases hook.reconnectTimerRef <;> rfl

theorem step_continues (stepped : hook.step action = some hook') :
    Continues hook.sockets hook'.sockets := by
  cases action with
  | mount =>
    obtain ⟨-, stepped⟩ := Option.ite_none_left_eq_some.mp stepped
    cases stepped
    exact connect_continues { hook with unmountedRef := false }
  | unmount =>
    obtain ⟨-, stepped⟩ := Option.ite_none_right_eq_some.mp stepped
    cases stepped
    rw [show ({ hook.cleanup with mounted := false } : Hook M E).sockets = _ from hook.cleanup_sockets]
    exact hook.closeCurrent_continues
  | timer id =>
    obtain ⟨-, stepped⟩ := Option.ite_none_right_eq_some.mp stepped
    cases stepped
    exact connect_continues { hook with timers := hook.timers.filter fun pending => pending.id ≠ id }
  | openEvent number =>
    obtain ⟨-, stepped⟩ := Option.ite_none_right_eq_some.mp stepped
    cases stepped
    have opened : Continues hook.sockets (hook.onSocket number Socket.deliverOpen).sockets :=
      .modify _ _ (by simp)
    unfold onopen
    split
    · exact opened.trans (.modify _ _ (by simp))
    · exact opened
  | message number msg =>
    obtain ⟨-, stepped⟩ := Option.ite_none_right_eq_some.mp stepped
    cases stepped
    rw [onmessage_sockets]
    exact .refl _
  | error number =>
    obtain ⟨-, stepped⟩ := Option.ite_none_right_eq_some.mp stepped
    cases stepped
    exact .modify _ _ (by simp)
  | closeEvent number code wasClean =>
    obtain ⟨-, stepped⟩ := Option.ite_none_right_eq_some.mp stepped
    cases stepped
    rw [onclose_sockets]
    exact .modify _ _ (by simp)

end Hook

end Dashboard

/-! ## What is published -/

def Api.ServerAction.events : ServerAction E → List E
  | .published (some event) => [event]
  | _ => []

def LiveAction.events : LiveAction E → List E
  | .server action => action.events
  | .accepted .. | .arrival _ | .browser _ => []

/-- The well-formed messages of the Redis channel, in their order. -/
def published (actions : List (LiveAction E)) : List E := actions.flatMap LiveAction.events

@[simp] theorem published_append (earlier later : List (LiveAction E)) :
    published (earlier ++ later) = published earlier ++ published later := List.flatMap_append

@[simp] theorem published_singleton (action : LiveAction E) : published [action] = action.events :=
  List.flatMap_singleton ..

namespace Api

theorem Hearing.told_sublist (hearing : Hearing) (action : ServerAction E) :
    (hearing.told action).Sublist action.events := by
  unfold Hearing.told
  split
  · exact .refl _
  · exact List.nil_sublist _

theorem Hearing.told_listening (answered : Bool) (action : ServerAction E) :
    (Hearing.listening answered).told action = action.events := by
  cases action with
  | published message => cases message <;> rfl
  | _ => rfl

/-- A connection that has ended does not listen again. -/
theorem Hearing.listened {hearing : Hearing} {number : Nat} {action : ServerAction E} {answered : Bool}
    (begun : hearing ≠ .before) (listens : hearing.next number action = .listening answered) :
    ∃ answered, hearing = .listening answered := by
  cases hearing with
  | before => exact absurd rfl begun
  | listening answered => exact ⟨answered, rfl⟩
  | ended => cases action <;> cases listens

end Api

namespace LiveUpdates

variable {live live' : LiveUpdates E} {actions : List (LiveAction E)}

/-! ## One connection -/

/-- The job events among the frames that have arrived. -/
def arrivals (connection : Connection E) (arrived : Nat) : List E :=
  (connection.frames.take arrived).filterMap Frame.jobEvent?

/-- What the server sent on a connection since a moment, against what was published since. -/
structure Sends (server : Broadcaster E) (number : Nat) (connection : Connection E) (since : List E) :
    Prop where
  found : server.connections[number]? = some connection
  hears : ∃ hearing, (server.view number).Fits hearing ∧ hearing ≠ .before ∧
    ∀ answered, hearing = .listening answered → connection.jobEvents = since
  sent : connection.jobEvents.Sublist since

theorem jobEvents_found {server : Broadcaster E} {number : Nat} {connection : Connection E}
    (found : server.connections[number]? = some connection) :
    (server.view number).jobEvents = connection.jobEvents := by
  simp [Api.View.jobEvents, Broadcaster.view, found]

theorem Sends.step {server server' : Broadcaster E} {number : Nat} {connection : Connection E}
    {since : List E} (sends : Sends server number connection since) (orderly : server.Orderly)
    {action : ServerAction E} (stepped : server.step action = some server') :
    ∃ connection', Sends server' number connection' (since ++ action.events) ∧
      connection.frames <+: connection'.frames := by
  obtain ⟨connection', found', advances⟩ := Broadcaster.step_advances orderly stepped sends.found
  obtain ⟨hearing, fits, begun, complete⟩ := sends.hears
  obtain ⟨fits', told⟩ := Api.View.hears fits number server.clients.length
    (Broadcaster.connect_unaccepted orderly stepped number)
  rw [← Broadcaster.step_view orderly stepped number] at fits' told
  rw [jobEvents_found found', jobEvents_found sends.found] at told
  refine ⟨connection', ⟨found', ⟨_, fits', ?_, ?_⟩, ?_⟩, ?_⟩
  · intro before
    rw [before] at fits'
    have absent := congrArg Api.View.connection fits'
    exact nomatch found'.symm.trans absent
  · intro answered listens
    obtain ⟨answered, rfl⟩ := Api.Hearing.listened begun listens
    rw [told, complete answered rfl, Api.Hearing.told_listening]
  · rw [told]
    exact sends.sent.append (hearing.told_sublist action)
  · obtain same | ⟨-, frame, -, sent⟩ := advances.frames
    · exact same ▸ List.prefix_rfl
    · rw [sent]
      exact List.prefix_append ..

theorem Sends.accepted {server server' : Broadcaster E} (orderly : server.Orderly) {now : Time}
    (stepped : server.step (.connect server.connections.length now) = some server') :
    ∃ connection, Sends server' server.connections.length connection [] := by
  have welcomed := Broadcaster.step_view orderly stepped server.connections.length
  simp only [Api.View.next, if_true] at welcomed
  refine ⟨_, congrArg Api.View.connection welcomed, ⟨.listening true, ?_, Api.Hearing.noConfusion, ?_⟩, ?_⟩
  · rw [welcomed]
    exact ⟨_, rfl, rfl⟩
  · intro answered _
    rfl
  · exact List.nil_sublist _

theorem arrivals_prefix {before after : Connection E} (grows : before.frames <+: after.frames)
    {arrived : Nat} (inside : arrived ≤ before.frames.length) :
    arrivals after arrived = arrivals before arrived := by
  obtain ⟨more, same⟩ := grows
  rw [arrivals, arrivals, ← same, List.take_append_of_le_length inside]

theorem arrivals_succ {connection : Connection E} {arrived : Nat} {frame : Frame E}
    (next : connection.frames[arrived]? = some frame) :
    arrivals connection (arrived + 1) = arrivals connection arrived ++ frame.jobEvent?.toList := by
  rw [arrivals, List.take_add_one, next, Option.toList_some, List.filterMap_append]
  cases told : frame.jobEvent? <;> simp [arrivals, told]

theorem arrivals_sublist (connection : Connection E) (arrived : Nat) :
    (arrivals connection arrived).Sublist connection.jobEvents :=
  (List.take_sublist ..).filterMap _

/-! ## The system -/

/-- A socket that can still receive: what the dashboard was shown ends with what arrived on its
connection, and the rest was published before the server accepted it. -/
def Receives (live : LiveUpdates E) (actions : List (LiveAction E)) (shown : List E) (place number : Nat) :
    Prop :=
  ∃ before now after connection older,
    actions = before ++ .accepted place now :: after ∧
    Sends live.server number connection (published after) ∧
    (live.links place).arrived ≤ connection.frames.length ∧
    shown = older ++ arrivals connection (live.links place).arrived ∧ older.Sublist (published before)

structure Agrees (live : LiveUpdates E) (actions : List (LiveAction E)) (shown : List E) : Prop where
  orderly : live.server.Orderly
  attached : live.hook.Attached
  idle : live.hook.Idle
  single : live.hook.Single
  kept : live.hook.eventHistory = shown.reverse.take eventHistoryCap
  ordered : shown.Sublist (published actions)
  unlinked : ∀ place, live.hook.sockets.length ≤ place → (live.links place).connection = none
  receives : ∀ place socket number, live.hook.sockets[place]? = some socket → socket.usable = true →
    (live.links place).connection = some number → live.Receives actions shown place number

theorem Receives.server {shown : List E} {place number : Nat} (receives : live.Receives actions shown place number)
    (orderly : live.server.Orderly) {action : ServerAction E} {server' : Broadcaster E}
    (stepped : live.server.step action = some server') {label : LiveAction E} (told : label.events = action.events)
    (same : live'.server = server') (link : live'.links place = live.links place) :
    live'.Receives (actions ++ [label]) shown place number := by
  obtain ⟨before, now, after, connection, older, rfl, sends, inside, rest, earlier⟩ := receives
  obtain ⟨connection', sends', grows⟩ := sends.step orderly stepped
  refine ⟨before, now, after ++ [label], connection', older, by simp, ?_, ?_, ?_, earlier⟩
  · rw [same, published_append, published_singleton, told]
    exact sends'
  · rw [link]
    exact inside.trans grows.length_le
  · rw [link, arrivals_prefix grows inside]
    exact rest

namespace Agrees

variable {shown : List E}

theorem server (agrees : live.Agrees actions shown) {action : ServerAction E} {server' : Broadcaster E}
    (stepped : live.server.step action = some server') {label : LiveAction E} (told : label.events = action.events) :
    { live with server := server' }.Agrees (actions ++ [label]) shown where
  orderly := Broadcaster.step_orderly agrees.orderly stepped
  attached := agrees.attached
  idle := agrees.idle
  single := agrees.single
  kept := agrees.kept
  ordered := by
    rw [published_append]
    exact agrees.ordered.trans (List.sublist_append_left ..)
  unlinked := agrees.unlinked
  receives place socket number found usable linked :=
    (agrees.receives place socket number found usable linked).server agrees.orderly stepped told rfl rfl

theorem accepted (agrees : live.Agrees actions shown) {socket : Nat} {now : Time} {server' : Broadcaster E}
    (inside : socket < live.hook.sockets.length)
    (stepped : live.server.step (.connect live.server.connections.length now) = some server') :
    ({ live with
      server := server'
      links := Function.update live.links socket ⟨some live.server.connections.length, 0⟩ } :
      LiveUpdates E).Agrees (actions ++ [.accepted socket now]) shown where
  orderly := Broadcaster.step_orderly agrees.orderly stepped
  attached := agrees.attached
  idle := agrees.idle
  single := agrees.single
  kept := agrees.kept
  ordered := by
    rw [published_append]
    exact agrees.ordered.trans (List.sublist_append_left ..)
  unlinked place beyond := by
    have other : place ≠ socket := by
      intro same
      subst same
      exact absurd inside (Nat.not_lt_of_le beyond)
    simpa [other] using agrees.unlinked place beyond
  receives place current number found usable linked := by
    by_cases own : place = socket
    · subst own
      simp only [Function.update_self, Option.some.injEq] at linked
      subst linked
      obtain ⟨connection, sends⟩ := Sends.accepted agrees.orderly stepped
      refine ⟨actions, now, [], connection, shown, rfl, sends, ?_, ?_, agrees.ordered⟩
      · simp
      · simp [arrivals]
    · simp only [Function.update_of_ne own] at linked
      apply (agrees.receives place current number found usable linked).server agrees.orderly stepped
      · rfl
      · rfl
      · exact Function.update_of_ne own ..

theorem usable_mounted (agrees : live.Agrees actions shown) {place : Nat} {socket : Socket}
    (found : live.hook.sockets[place]? = some socket) (usable : socket.usable = true) :
    live.hook.mounted = true := by
  by_contra unmounted
  obtain detached | ⟨sockets, -⟩ := agrees.idle (Bool.eq_false_iff.mpr unmounted)
  · have attached := (agrees.single place socket found usable).2
    rw [detached] at attached
    cases attached
  · simp [sockets] at found

/-- A frame that comes to an open socket. -/
theorem message (agrees : live.Agrees actions shown) {place : Nat} {socket : Socket}
    (found : live.hook.sockets[place]? = some socket) (opened : socket.readyState = .opened)
    {frame : Frame E} (next : live.nextFrame place = some frame)
    {hook' : Hook OverviewPayload E} (stepped : live.hook.step (.message place frame.received) = some hook') :
    ({ live with
      hook := hook'
      links := Function.update live.links place
        { live.links place with arrived := (live.links place).arrived + 1 } } :
      LiveUpdates E).Agrees (actions ++ [.arrival place]) (shown ++ frame.jobEvent?.toList) := by
  have usable : socket.usable = true := by simp [Socket.usable, opened]
  have mounted := agrees.usable_mounted found usable
  obtain ⟨number, linked, next⟩ := Option.bind_eq_some_iff.mp next
  obtain ⟨connection, present, next⟩ := Option.bind_eq_some_iff.mp next
  obtain ⟨before, now, after, _, older, rfl, sends, inside, rest, earlier⟩ :=
    agrees.receives place socket number found usable linked
  cases present.symm.trans sends.found
  have extended : shown ++ frame.jobEvent?.toList =
      older ++ arrivals connection ((live.links place).arrived + 1) := by
    rw [rest, List.append_assoc, ← arrivals_succ next]
  have sockets : hook'.sockets = live.hook.sockets := by
    obtain ⟨-, stepped⟩ := Option.ite_none_right_eq_some.mp stepped
    cases stepped
    exact Dashboard.Hook.onmessage_sockets ..
  constructor
  · exact agrees.orderly
  · exact Dashboard.Hook.step_attached agrees.attached stepped
  · exact agrees.idle.step stepped
  · exact agrees.single.step stepped
  · have kept := Dashboard.Hook.step_eventHistory agrees.attached agrees.idle stepped agrees.kept
    rw [mounted] at kept
    refine kept.trans ?_
    cases frame <;> simp [Api.Frame.received, Dashboard.Hook.brings, Frame.jobEvent?]
  · have split : published (before ++ .accepted place now :: after ++ [.arrival place]) =
        published before ++ published after := by
      simp [published, LiveAction.events]
    rw [extended, split]
    exact earlier.append ((arrivals_sublist ..).trans sends.sent)
  · intro other beyond
    rw [sockets] at beyond
    have inside := (List.getElem?_eq_some_iff.mp found).1
    have apart : other ≠ place := by omega
    simpa [apart] using agrees.unlinked other beyond
  · intro other socket' number' found' usable' linked'
    rw [sockets] at found'
    -- No other socket is usable.
    have current := (agrees.single other socket' found' usable').1
    rw [(agrees.single place socket found usable).1] at current
    cases current
    simp only [Function.update_self] at linked'
    cases linked'.symm.trans linked
    refine ⟨before, now, after ++ [.arrival place], connection, older, by simp, ?_, ?_, ?_, earlier⟩
    · rw [published_append, published_singleton, LiveAction.events, List.append_nil]
      exact sends
    · simpa using Nat.succ_le_of_lt (List.getElem?_eq_some_iff.mp next).1
    · simpa using extended

/-- A move that changes neither what was published nor what is shown, and links no socket. -/
theorem quiet (agrees : live.Agrees actions shown) {label : LiveAction E} (silent : label.events = [])
    {hook' : Hook OverviewPayload E} (attached : hook'.Attached) (idle : hook'.Idle) (single : hook'.Single)
    (same : hook'.eventHistory = live.hook.eventHistory)
    (continues : Dashboard.Continues live.hook.sockets hook'.sockets) {links' : Nat → Link}
    (connections : ∀ place, (links' place).connection = (live.links place).connection)
    (arrived : ∀ place socket, hook'.sockets[place]? = some socket → socket.usable = true →
      links' place = live.links place) :
    ({ live with hook := hook', links := links' } : LiveUpdates E).Agrees (actions ++ [label]) shown where
  orderly := agrees.orderly
  attached := attached
  idle := idle
  single := single
  kept := same.trans agrees.kept
  ordered := by
    rw [published_append, published_singleton, silent, List.append_nil]
    exact agrees.ordered
  unlinked place beyond := (connections place).trans (agrees.unlinked place (continues.grows.trans beyond))
  receives place socket' number found usable linked := by
    have linked' := (connections place).symm.trans linked
    by_cases old : place < live.hook.sockets.length
    · obtain ⟨socket, found', usable'⟩ := continues.usable place socket' old found usable
      obtain ⟨before, now, after, connection, older, split, sends, inside, rest, earlier⟩ :=
        agrees.receives place socket number found' usable' linked'
      have link : links' place = live.links place := arrived place socket' found usable
      refine ⟨before, now, after ++ [label], connection, older, by simp [split], ?_, ?_, ?_, earlier⟩
      · rw [published_append, published_singleton, silent, List.append_nil]
        exact sends
      · simpa [link] using inside
      · simpa [link] using rest
    · rw [agrees.unlinked place (Nat.le_of_not_lt old)] at linked'
      cases linked'

theorem browser (agrees : live.Agrees actions shown) {action : HookAction OverviewPayload E}
    (possible : live.possible action = true) {hook' : Hook OverviewPayload E}
    (stepped : live.hook.step action = some hook') :
    ({ live with hook := hook' } : LiveUpdates E).Agrees (actions ++ [.browser action]) shown := by
  have nothing : Dashboard.Hook.brings live.hook.mounted action = [] := by
    cases action with
    | message place msg => cases possible
    | _ => rfl
  have kept := Dashboard.Hook.step_eventHistory agrees.attached agrees.idle stepped agrees.kept
  rw [nothing, List.nil_append, ← agrees.kept] at kept
  apply agrees.quiet rfl (Dashboard.Hook.step_attached agrees.attached stepped)
    (agrees.idle.step stepped) (agrees.single.step stepped) kept
    (Dashboard.Hook.step_continues stepped)
  · exact fun _ => rfl
  · exact fun _ _ _ _ => rfl

theorem arrival (agrees : live.Agrees actions shown) {place : Nat} {frame : Frame E}
    (next : live.nextFrame place = some frame) (delivered : live.deliver place frame = some live') :
    ∃ shown', live'.Agrees (actions ++ [.arrival place]) shown' := by
  simp only [deliver] at delivered
  split at delivered
  · next state =>
    obtain ⟨socket, found, opened⟩ := Option.map_eq_some_iff.mp state
    obtain ⟨hook', stepped, rfl⟩ := Option.map_eq_some_iff.mp delivered
    exact ⟨_, agrees.message found opened next stepped⟩
  · next state =>
    obtain ⟨socket, found, closing⟩ := Option.map_eq_some_iff.mp state
    cases delivered
    refine ⟨shown, agrees.quiet rfl agrees.attached agrees.idle agrees.single rfl (.refl _) ?_ ?_⟩
    · intro other
      by_cases own : other = place
      · subst own
        simp
      · simp [own]
    · intro other socket' found' usable'
      have apart : other ≠ place := by
        intro own
        subst own
        cases found.symm.trans found'
        simp [Socket.usable, closing] at usable'
      exact Function.update_of_ne apart ..
  · cases delivered
  · cases delivered
  · cases delivered

theorem step (agrees : live.Agrees actions shown) {action : LiveAction E}
    (stepped : live.step action = some live') : ∃ shown', live'.Agrees (actions ++ [action]) shown' := by
  cases action with
  | server action =>
    obtain ⟨server', moved, rfl⟩ := Option.map_eq_some_iff.mp stepped
    exact ⟨shown, agrees.server moved rfl⟩
  | accepted socket now =>
    obtain ⟨⟨inside, -⟩, stepped⟩ := Option.ite_none_right_eq_some.mp stepped
    obtain ⟨server', moved, rfl⟩ := Option.map_eq_some_iff.mp stepped
    exact ⟨shown, agrees.accepted inside moved⟩
  | arrival place =>
    obtain ⟨frame, next, delivered⟩ := Option.bind_eq_some_iff.mp stepped
    exact agrees.arrival next delivered
  | browser action =>
    obtain ⟨possible, stepped⟩ := Option.ite_none_right_eq_some.mp stepped
    obtain ⟨hook', moved, rfl⟩ := Option.map_eq_some_iff.mp stepped
    exact ⟨shown, agrees.browser possible moved⟩

theorem run {later : List (LiveAction E)} (agrees : live.Agrees actions shown)
    (ran : replay LiveUpdates.step unchecked live later = some live') :
    ∃ shown', live'.Agrees (actions ++ later) shown' := by
  induction later generalizing live actions shown with
  | nil =>
    cases ran
    rw [List.append_nil]
    exact ⟨shown, agrees⟩
  | cons action later inductionHypothesis =>
    simp only [replay_cons, unchecked, if_true] at ran
    obtain ⟨middle, stepped, rest⟩ := Option.bind_eq_some_iff.mp ran
    obtain ⟨shown', agrees'⟩ := agrees.step stepped
    rw [List.append_cons]
    exact inductionHypothesis agrees' rest

end Agrees

theorem agrees_initial : (initial : LiveUpdates E).Agrees [] [] where
  orderly := Broadcaster.orderly_initial
  attached := nofun
  idle := Dashboard.Hook.initial_idle
  single := nofun
  kept := rfl
  ordered := .refl _
  unlinked _ _ := rfl
  receives := nofun

/-! ## Runs -/

/-- In every run the dashboard's history holds events of the channel in the order they were published,
none twice, whatever connections, closes and reconnections came between them. -/
theorem eventHistory_sublist (ran : replay step unchecked initial actions = some live) :
    live.hook.eventHistory.reverse.Sublist (published actions) := by
  obtain ⟨shown, agrees⟩ := agrees_initial.run ran
  rw [agrees.kept]
  have newest := (List.take_sublist eventHistoryCap shown.reverse).reverse
  rw [List.reverse_reverse] at newest
  exact newest.trans agrees.ordered

/-- The connection breaks while an event is on its way; the hook reconnects. -/
def breaks : List (LiveAction String) :=
  [.browser .mount, .accepted 0 0, .browser (.openEvent 0), .arrival 0,
    .server (.published (some "queued")), .arrival 0, .server (.published (some "started")),
    .browser (.error 0), .arrival 0, .browser (.closeEvent 0 1006 false), .browser (.timer 0),
    .accepted 1 1, .server (.published (some "completed")), .browser (.openEvent 1), .arrival 1, .arrival 1]

theorem eventHistory_breaks : ∃ live, replay step unchecked initial breaks = some live ∧
    live.hook.eventHistory = ["completed", "queued"] ∧
    ["queued", "completed"].Sublist (published breaks) :=
  ⟨_, rfl, rfl, eventHistory_sublist (show replay step unchecked initial breaks = some _ from rfl)⟩

/-- A dashboard whose connection is open on both sides, registered, and has no frame on the way shows
every event published since the server accepted that connection, up to the length of the history, before
older ones. -/
theorem caught_up (ran : replay step unchecked initial actions = some live) {place number : Nat}
    {socket : Socket} {connection : Connection E} (current : live.hook.sockets[place]? = some socket)
    (opened : socket.readyState = .opened) (linked : (live.links place).connection = some number)
    (found : live.server.connections[number]? = some connection)
    (registered : live.server.tracks number = true) (connected : connection.readyState = .opened)
    (arrived : (live.links place).arrived = connection.frames.length) :
    ∃ before now after older, actions = before ++ .accepted place now :: after ∧
      older.Sublist (published before) ∧
      live.hook.eventHistory = (older ++ published after).reverse.take eventHistoryCap := by
  obtain ⟨shown, agrees⟩ := agrees_initial.run ran
  have usable : socket.usable = true := by simp [Socket.usable, opened]
  obtain ⟨before, now, after, _, older, split, sends, -, rest, earlier⟩ :=
    agrees.receives place socket number current usable linked
  cases found.symm.trans sends.found
  obtain ⟨hearing, fits, begun, complete⟩ := sends.hears
  have everything : arrivals connection (live.links place).arrived = published after := by
    rw [arrivals, arrived, List.take_length]
    cases hearing with
    | before => exact absurd rfl begun
    | listening answered => exact complete answered rfl
    | ended =>
      obtain ⟨_, known, missing | ended⟩ := fits
      · rw [← Broadcaster.isSome_isAlive, missing] at registered
        cases registered
      · cases found.symm.trans known
        obtain closing | closed := ended
        · cases connected.symm.trans closing
        · cases connected.symm.trans closed
  refine ⟨before, now, after, older, split, earlier, ?_⟩
  rw [agrees.kept, rest, everything]

theorem caught_up_breaks : ∃ live older before after now,
    replay step unchecked initial breaks = some live ∧
    breaks = before ++ .accepted 1 now :: after ∧ older.Sublist (published before) ∧
    live.hook.eventHistory = (older ++ published after).reverse.take eventHistoryCap := by
  obtain ⟨before, now, after, older, split, earlier, shown⟩ :=
    @caught_up String _ breaks rfl 1 1 _ _ rfl rfl rfl rfl rfl rfl rfl
  exact ⟨_, older, before, after, now, rfl, split, earlier, shown⟩

end LiveUpdates

end Taskfire
