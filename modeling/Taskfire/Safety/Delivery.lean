import Mathlib.Data.List.Induction
import Taskfire.Safety.Broadcast

/-!
# What the dashboards are told

Of the events published on the Redis channel each connection is sent those that come while it listens,
and the heartbeat ends the connections that let a whole interval pass without an answer.
-/

namespace Taskfire.Api

open Taskfire.Library
open Taskfire.Dashboard (ReadyState)

variable {E : Type}

/-! ## Listening -/

def Frame.jobEvent? : Frame E → Option E
  | .jobEvent payload => some payload
  | _ => none

/-- The job events a connection was sent. -/
def Connection.jobEvents (connection : Connection E) : List E := connection.frames.filterMap Frame.jobEvent?

def View.jobEvents (view : View E) : List E := (view.connection.map Connection.jobEvents).getD []

def Broadcaster.jobEvents (server : Broadcaster E) (socket : Nat) : List E := (server.view socket).jobEvents

/-- A connection listens from its beginning to the first sign of its end: the close, an error, a send
that failed, or a beat when nothing has answered the beat before. -/
inductive Hearing where
  | before
  | listening (answered : Bool)
  | ended
  deriving DecidableEq

namespace Hearing

def next (socket : Nat) : Hearing → ServerAction E → Hearing
  | .before, .connect place _ => if place = socket then .listening true else .before
  | .listening answered, .pong place => if place = socket then .listening true else .listening answered
  | .listening answered, .heartbeat => if answered then .listening false else .ended
  | .listening answered, .closing place | .listening answered, .closeEvent place
  | .listening answered, .errorEvent place | .listening answered, .sendFailed place =>
    if place = socket then .ended else .listening answered
  | hearing, _ => hearing

/-- What a move tells a connection. -/
def told : Hearing → ServerAction E → List E
  | .listening _, .published (some event) => [event]
  | _, _ => []

end Hearing

/-- The well-formed messages published while the connection listens. -/
def heard (socket : Nat) : Hearing → List (ServerAction E) → List E
  | _, [] => []
  | hearing, action :: actions => hearing.told action ++ heard socket (hearing.next socket action) actions

/-! ## One move -/

namespace Connection

variable {connection : Connection E}

/-- The library has begun to close the connection; it is not open again. -/
def Ended (connection : Connection E) : Prop :=
  connection.readyState = .closing ∨ connection.readyState = .closed

/-- A change that sends no job event and does not open the connection. -/
structure Quiet (change : Connection E → Connection E) : Prop where
  jobEvents : ∀ connection, (change connection).jobEvents = connection.jobEvents
  ended : ∀ connection, connection.Ended → (change connection).Ended

theorem quiet_send {frame : Frame E} (quiet : frame.jobEvent? = none) :
    Quiet fun connection : Connection E => connection.send frame where
  jobEvents connection := by simp [Connection.jobEvents, send, quiet]
  ended _ ended := ended

theorem quiet_ping : Quiet (ping : Connection E → Connection E) where
  jobEvents _ := rfl
  ended _ ended := ended

theorem quiet_terminate : Quiet (terminate : Connection E → Connection E) where
  jobEvents connection := by
    unfold terminate
    split <;> rfl
  ended connection ended := by
    unfold terminate
    obtain state | state := ended <;> simp [state, Ended]

theorem quiet_beginClose : Quiet (beginClose : Connection E → Connection E) where
  jobEvents connection := by
    unfold beginClose
    split <;> rfl
  ended connection ended := by
    unfold beginClose
    obtain state | state := ended <;> simp [state, Ended]

theorem quiet_deliverClose : Quiet (deliverClose : Connection E → Connection E) where
  jobEvents _ := rfl
  ended _ _ := .inr rfl

theorem jobEvents_send (connection : Connection E) (event : E) :
    (connection.send (.jobEvent event)).jobEvents = connection.jobEvents ++ [event] := by
  simp [jobEvents, send, Frame.jobEvent?]

end Connection

theorem reply_quiet (now : Time) (raw : Option ClientValue) :
    (reply (E := E) now raw).jobEvent? = none := by
  unfold reply
  split <;> rfl

namespace View

variable {view : View E} {connection : Connection E}

/-- The connection is sent no job event any more. -/
def Deaf (view : View E) : Prop :=
  ∃ connection, view.connection = some connection ∧ (view.isAlive = none ∨ connection.Ended)

/-- The same job events were sent, and the connection is still deaf. -/
def Silent (before after : View E) : Prop := after.Deaf ∧ after.jobEvents = before.jobEvents

namespace Deaf

theorem refl (deaf : view.Deaf) : view.Silent view := ⟨deaf, rfl⟩

theorem onConnection (deaf : view.Deaf) {change : Connection E → Connection E}
    (quiet : Connection.Quiet change) : view.Silent (view.onConnection change) := by
  obtain ⟨connection, known, reason⟩ := deaf
  refine ⟨⟨change connection, by simp [View.onConnection, known], ?_⟩, ?_⟩
  · exact reason.imp_right (quiet.ended connection)
  · simp [jobEvents, View.onConnection, known, quiet.jobEvents connection]

theorem remove (deaf : view.Deaf) : view.Silent view.remove := by
  obtain ⟨connection, known, -⟩ := deaf
  exact ⟨⟨connection, known, .inl rfl⟩, rfl⟩

theorem setAlive (deaf : view.Deaf) (isAlive : Bool) : view.Silent (view.setAlive isAlive) := by
  obtain ⟨connection, known, reason⟩ := deaf
  refine ⟨⟨connection, known, reason.imp_left fun missing => ?_⟩, rfl⟩
  simp [View.setAlive, missing]

theorem sendTo (deaf : view.Deaf) {frame : Frame E} (quiet : frame.jobEvent? = none) :
    view.Silent (view.sendTo frame) := by
  unfold View.sendTo
  split
  · exact deaf.refl
  · exact deaf.onConnection (Connection.quiet_send quiet)

theorem broadcast (deaf : view.Deaf) (frame : Frame E) : view.Silent (view.broadcast frame) := by
  unfold View.broadcast
  split
  · exact deaf.refl
  · next registered =>
    obtain ⟨connection, known, missing | ended⟩ := deaf
    · exact absurd missing registered
    · -- The turn of a connection that has ended removes its entry.
      have removed : view.told frame = view.remove := by
        obtain state | state := ended <;> simp [told, View.readyState, known, state]
      rw [removed]
      exact remove ⟨connection, known, .inr ended⟩

theorem heartbeat (deaf : view.Deaf) : view.Silent view.heartbeat := by
  unfold View.heartbeat beat
  split
  · exact deaf.refl
  · split
    · have ended := deaf.onConnection Connection.quiet_terminate
      exact ⟨ended.1.remove.1, ended.2⟩
    · have marked := deaf.setAlive false
      dsimp only
      split
      · have pinged := marked.1.onConnection Connection.quiet_ping
        exact ⟨pinged.1, pinged.2.trans marked.2⟩
      · exact marked

theorem next (deaf : view.Deaf) (socket clients : Nat) {action : ServerAction E}
    (known : ∀ now, action ≠ .connect socket now) :
    view.Silent (view.next socket clients action) := by
  cases action with
  | connect place now =>
    have other : place ≠ socket := by
      intro same
      subst same
      exact known now rfl
    simpa [View.next, other] using deaf.refl
  | published message =>
    cases message with
    | none => exact deaf.refl
    | some event => exact deaf.broadcast _
  | metricsTick => exact deaf.refl
  | metricsRead overview now =>
    cases overview with
    | none => exact deaf.refl
    | some overview => exact deaf.broadcast _
  | heartbeat => exact deaf.heartbeat
  | snapshotRead place overview now =>
    cases overview with
    | none => exact deaf.refl
    | some overview =>
      simp only [View.next]
      split
      · exact deaf.sendTo rfl
      · exact deaf.refl
  | message place raw now =>
    simp only [View.next]
    split
    · exact deaf.sendTo (reply_quiet now raw)
    · exact deaf.refl
  | pong place =>
    simp only [View.next]
    split
    · exact deaf.setAlive true
    · exact deaf.refl
  | sendFailed place | errorEvent place =>
    simp only [View.next]
    split
    · exact deaf.remove
    · exact deaf.refl
  | closing place =>
    simp only [View.next]
    split
    · exact deaf.onConnection Connection.quiet_beginClose
    · exact deaf.refl
  | closeEvent place =>
    simp only [View.next]
    split
    · have ended := deaf.onConnection Connection.quiet_deliverClose
      exact ⟨ended.1.remove.1, ended.2⟩
    · exact deaf.refl

end Deaf

/-- What the server holds of a connection, by how it hears. -/
def Fits (view : View E) : Hearing → Prop
  | .before => view = absent
  | .listening answered =>
    ∃ connection, view = ⟨some answered, some connection⟩ ∧ connection.readyState = .opened
  | .ended => view.Deaf

theorem Deaf.fits (deaf : view.Deaf) {events : List E} (same : view.jobEvents = events) :
    view.Fits .ended ∧ view.jobEvents = events ++ [] :=
  ⟨deaf, by rw [same, List.append_nil]⟩

theorem absent_next (socket clients : Nat) (action : ServerAction E) :
    ((absent : View E).next socket clients action).Fits (Hearing.before.next socket action) ∧
      ((absent : View E).next socket clients action).jobEvents = [] := by
  cases action with
  | connect place now =>
    simp only [next, Hearing.next]
    split
    · exact ⟨⟨_, rfl, rfl⟩, rfl⟩
    · exact ⟨rfl, rfl⟩
  | published message => cases message <;> exact ⟨rfl, rfl⟩
  | metricsRead overview now => cases overview <;> exact ⟨rfl, rfl⟩
  | snapshotRead place overview now =>
    cases overview with
    | none => exact ⟨rfl, rfl⟩
    | some overview => simp only [next, Hearing.next]; split <;> exact ⟨rfl, rfl⟩
  | metricsTick | heartbeat => exact ⟨rfl, rfl⟩
  | _ => simp only [next, Hearing.next]; split <;> exact ⟨rfl, rfl⟩

section Listening

variable {answered : Bool} (opened : connection.readyState = .opened)

include opened

theorem listening_sends {frame : Frame E} (quiet : frame.jobEvent? = none) :
    let view : View E := ⟨some answered, some (connection.send frame)⟩
    view.Fits (.listening answered) ∧ view.jobEvents = connection.jobEvents ++ [] :=
  ⟨⟨_, rfl, opened⟩, by
    rw [List.append_nil]
    exact (Connection.quiet_send quiet).jobEvents connection⟩

theorem listening_sendTo (frame : Frame E) :
    (⟨some answered, some connection⟩ : View E).sendTo frame =
      ⟨some answered, some (connection.send frame)⟩ := by
  simp [sendTo, readyState, onConnection, opened]

theorem listening_broadcast (frame : Frame E) :
    (⟨some answered, some connection⟩ : View E).broadcast frame =
      ⟨some answered, some (connection.send frame)⟩ := by
  simp [broadcast, told, readyState, onConnection, opened]

theorem listening_heartbeat :
    (⟨some answered, some connection⟩ : View E).heartbeat =
      if answered then ⟨some false, some connection.ping⟩ else ⟨none, some connection.terminate⟩ := by
  cases answered <;> simp [heartbeat, beat, readyState, onConnection, setAlive, remove, opened]

theorem listening_next (socket clients : Nat) {action : ServerAction E}
    (known : ∀ now, action ≠ .connect socket now) :
    let view : View E := ⟨some answered, some connection⟩
    (view.next socket clients action).Fits ((Hearing.listening answered).next socket action) ∧
      (view.next socket clients action).jobEvents =
        connection.jobEvents ++ (Hearing.listening answered).told action := by
  have stays : (⟨some answered, some connection⟩ : View E).Fits (.listening answered) ∧
      (⟨some answered, some connection⟩ : View E).jobEvents = connection.jobEvents ++ [] :=
    ⟨⟨connection, rfl, opened⟩, (List.append_nil _).symm⟩
  have ends {change : Connection E → Connection E} (quiet : Connection.Quiet change)
      (isAlive : Option Bool) (deaf : isAlive = none ∨ (change connection).Ended) :
      (⟨isAlive, some (change connection)⟩ : View E).Fits .ended ∧
        (⟨isAlive, some (change connection)⟩ : View E).jobEvents = connection.jobEvents ++ [] :=
    Deaf.fits ⟨_, rfl, deaf⟩ (quiet.jobEvents connection)
  have removes : (⟨none, some connection⟩ : View E).Fits .ended ∧
      (⟨none, some connection⟩ : View E).jobEvents = connection.jobEvents ++ [] :=
    Deaf.fits ⟨_, rfl, .inl rfl⟩ rfl
  cases action with
  | connect place now =>
    have other : place ≠ socket := by
      intro same
      subst same
      exact known now rfl
    simp only [next, if_neg other]
    exact stays
  | published message =>
    cases message with
    | none => exact stays
    | some event =>
      simp only [next, listening_broadcast opened]
      exact ⟨⟨_, rfl, opened⟩, connection.jobEvents_send event⟩
  | metricsTick => exact stays
  | metricsRead overview now =>
    cases overview with
    | none => exact stays
    | some overview =>
      simp only [next, listening_broadcast opened]
      exact listening_sends opened rfl
  | snapshotRead place overview now =>
    cases overview with
    | none => exact stays
    | some overview =>
      simp only [next, listening_sendTo opened]
      split
      · exact listening_sends opened rfl
      · exact stays
  | heartbeat =>
    simp only [next, listening_heartbeat opened, Hearing.next]
    cases answered with
    | true => exact ⟨⟨_, rfl, opened⟩, (List.append_nil _).symm⟩
    | false => exact ends Connection.quiet_terminate none (.inl rfl)
  | message place raw now =>
    simp only [next, listening_sendTo opened]
    split
    · exact listening_sends opened (reply_quiet now raw)
    · exact stays
  | pong place =>
    simp only [next, Hearing.next]
    split
    · exact ⟨⟨connection, rfl, opened⟩, (List.append_nil _).symm⟩
    · exact stays
  | sendFailed place | errorEvent place =>
    simp only [next, Hearing.next]
    split
    · exact removes
    · exact stays
  | closing place =>
    simp only [next, Hearing.next]
    split
    · refine ends Connection.quiet_beginClose (some answered) (.inr ?_)
      simp [Connection.beginClose, opened, Connection.Ended]
    · exact stays
  | closeEvent place =>
    simp only [next, Hearing.next]
    split
    · exact ends Connection.quiet_deliverClose none (.inl rfl)
    · exact stays

end Listening

theorem hears {hearing : Hearing} (fits : view.Fits hearing) (socket clients : Nat)
    {action : ServerAction E} (known : ∀ now, action = .connect socket now → view = absent) :
    (view.next socket clients action).Fits (hearing.next socket action) ∧
      (view.next socket clients action).jobEvents = view.jobEvents ++ hearing.told action := by
  cases hearing with
  | before =>
    cases fits
    obtain ⟨fits, same⟩ := absent_next socket clients action
    exact ⟨fits, by rw [same]; rfl⟩
  | listening answered =>
    obtain ⟨connection, rfl, opened⟩ := fits
    exact listening_next opened socket clients fun now same => nomatch known now same
  | ended =>
    have silent : view.Silent (view.next socket clients action) := by
      apply Deaf.next fits
      intro now same
      obtain ⟨connection, present, -⟩ := fits
      rw [known now same] at present
      cases present
    have ended : Hearing.ended.next socket action = .ended := by cases action <;> rfl
    rw [ended, silent.2]
    exact ⟨silent.1, (List.append_nil _).symm⟩

end View

/-! ## Runs -/

namespace Broadcaster

variable {server server' : Broadcaster E} {actions : List (ServerAction E)}

theorem connect_unaccepted {action : ServerAction E} (orderly : server.Orderly)
    (stepped : server.step action = some server') (socket : Nat) (now : Time)
    (connects : action = .connect socket now) : server.view socket = .absent := by
  subst connects
  obtain ⟨next, -⟩ := Option.ite_none_right_eq_some.mp stepped
  exact view_unaccepted orderly next.ge

theorem heard_run {hearing : Hearing} (orderly : server.Orderly) {socket : Nat}
    (fits : (server.view socket).Fits hearing)
    (ran : replay step unchecked server actions = some server') :
    server'.jobEvents socket = server.jobEvents socket ++ heard socket hearing actions := by
  induction actions generalizing server hearing with
  | nil =>
    cases ran
    exact (List.append_nil _).symm
  | cons action actions inductionHypothesis =>
    simp only [replay_cons, unchecked, if_true] at ran
    obtain ⟨middle, stepped, rest⟩ := Option.bind_eq_some_iff.mp ran
    obtain ⟨fits, told⟩ :=
      View.hears fits socket server.clients.length (connect_unaccepted orderly stepped socket)
    rw [← step_view orderly stepped socket] at fits told
    rw [inductionHypothesis (step_orderly orderly stepped) fits rest, heard, ← List.append_assoc]
    exact congrArg (· ++ _) told

theorem orderly_initial : (initial : Broadcaster E).Orderly := ⟨List.nodup_nil, nofun⟩

/-- In every run each connection was sent, in order and each once, the events published while it
listened, and no others. -/
theorem jobEvents_eq (ran : replay step unchecked initial actions = some server) (socket : Nat) :
    server.jobEvents socket = heard socket .before actions :=
  heard_run orderly_initial rfl ran

/-- The second connection comes after the first event, and the first one ends before the last. -/
def twoDashboards : List (ServerAction String) :=
  [.connect 0 0, .published (some "started"), .connect 1 1, .published (some "retry"), .published none,
    .closing 0, .heartbeat, .published (some "completed")]

theorem jobEvents_twoDashboards : ∃ server, replay step unchecked initial twoDashboards = some server ∧
    server.jobEvents 0 = ["started", "retry"] ∧ server.jobEvents 1 = ["retry", "completed"] :=
  ⟨_, rfl, jobEvents_eq (show replay step unchecked initial twoDashboards = some _ from rfl) 0,
    jobEvents_eq (show replay step unchecked initial twoDashboards = some _ from rfl) 1⟩

end Broadcaster

/-! ## The heartbeat -/

/-- Nothing came from the connection since a beat that it was there for. -/
def Unanswered (socket : Nat) (actions : List (ServerAction E)) : Prop :=
  ∃ before after now, actions = before ++ .heartbeat :: after ∧ .connect socket now ∈ before ∧
    .pong socket ∉ after

/-- The flag as the moves alone set it: whether the connection has answered the last beat. -/
def answers (socket : Nat) (flag : Option Bool) : ServerAction E → Option Bool
  | .connect place _ => if place = socket then flag.or (some true) else flag
  | .pong place => if place = socket then flag.map fun _ => true else flag
  | .heartbeat => flag.map fun _ => false
  | _ => flag

theorem answers_isSome (socket : Nat) (actions : List (ServerAction E)) :
    (actions.foldl (answers socket) none).isSome = true ↔ ∃ now, .connect socket now ∈ actions := by
  induction actions using List.reverseRecOn with
  | nil => simp
  | append_singleton actions action inductionHypothesis =>
    rw [List.foldl_append, List.foldl_cons, List.foldl_nil]
    simp only [List.mem_append, List.mem_singleton, exists_or, ← inductionHypothesis]
    cases action with
    | connect place now =>
      simp only [answers, ServerAction.connect.injEq]
      by_cases own : place = socket
      · simp [own]
      · simp [own, Ne.symm own]
    | pong place =>
      simp only [answers]
      split <;> simp
    | heartbeat => simp [answers]
    | _ => simp [answers]

theorem unanswered_append (socket : Nat) (actions : List (ServerAction E)) (action : ServerAction E) :
    Unanswered socket (actions ++ [action]) ↔
      (action = .heartbeat ∧ ∃ now, .connect socket now ∈ actions) ∨
        action ≠ .pong socket ∧ Unanswered socket actions := by
  constructor
  · rintro ⟨before, after, now, split, connected, silent⟩
    obtain rfl | ⟨after, last, rfl⟩ := after.eq_nil_or_concat'
    · obtain ⟨rfl, same⟩ := List.append_inj' split rfl
      exact .inl ⟨List.singleton_inj.mp same, now, connected⟩
    · rw [← List.cons_append, ← List.append_assoc] at split
      obtain ⟨rfl, same⟩ := List.append_inj' split rfl
      cases List.singleton_inj.mp same
      simp only [List.mem_append, List.mem_singleton, not_or] at silent
      exact .inr ⟨Ne.symm silent.2, before, after, now, rfl, connected, silent.1⟩
  · rintro (⟨rfl, now, connected⟩ | ⟨other, before, after, now, rfl, connected, silent⟩)
    · exact ⟨actions, [], now, rfl, connected, nofun⟩
    · refine ⟨before, after ++ [action], now, by simp, connected, ?_⟩
      simp [silent, Ne.symm other]

theorem Unanswered.connected {socket : Nat} {actions : List (ServerAction E)}
    (unanswered : Unanswered socket actions) : ∃ now, .connect socket now ∈ actions := by
  obtain ⟨before, after, now, rfl, connected, -⟩ := unanswered
  exact ⟨now, List.mem_append_left _ connected⟩

theorem answers_iff (socket : Nat) (actions : List (ServerAction E)) :
    actions.foldl (answers socket) none = some false ↔ Unanswered socket actions := by
  induction actions using List.reverseRecOn with
  | nil => simp [Unanswered]
  | append_singleton actions action inductionHypothesis =>
    rw [List.foldl_append, List.foldl_cons, List.foldl_nil, unanswered_append, ← answers_isSome,
      ← inductionHypothesis]
    cases action with
    | connect place now =>
      cases flag : actions.foldl (answers socket) none <;> simp [answers]
    | pong place =>
      simp only [answers]
      split
      · next own => simp [own]
      · next other => simp [other]
    | heartbeat =>
      cases flag : actions.foldl (answers socket) none <;> simp [answers]
    | _ => simp [answers]

namespace View

section Present

variable (view : View E)

theorem onConnection_isSome (change : Connection E → Connection E) :
    (view.onConnection change).connection.isSome = view.connection.isSome := Option.isSome_map ..

theorem sendTo_flag (frame : Frame E) :
    (view.sendTo frame).connection.isSome = view.connection.isSome ∧
      (view.sendTo frame).isAlive = view.isAlive := by
  unfold sendTo
  split
  · exact ⟨rfl, rfl⟩
  · exact ⟨onConnection_isSome .., rfl⟩

theorem broadcast_flag (frame : Frame E) :
    (view.broadcast frame).connection.isSome = view.connection.isSome ∧
      ((view.broadcast frame).isAlive = none ∨ (view.broadcast frame).isAlive = view.isAlive) := by
  unfold broadcast told
  split
  · exact ⟨rfl, .inr rfl⟩
  · split
    · exact ⟨onConnection_isSome .., .inr rfl⟩
    · exact ⟨rfl, .inl rfl⟩
    · exact ⟨rfl, .inl rfl⟩
    · exact ⟨rfl, .inr rfl⟩
    · exact ⟨rfl, .inr rfl⟩

/-- An entry that nothing answered for is removed and its connection terminated; the others are
marked, and their connections pinged if they are open. -/
theorem heartbeat_eq :
    view.heartbeat =
      if view.isAlive = none then view
      else if view.isAlive = some false then (view.onConnection (·.terminate)).remove
      else if view.readyState = some .opened then (view.setAlive false).onConnection (·.ping)
      else view.setAlive false := by
  obtain ⟨isAlive, connection⟩ := view
  cases isAlive with
  | none => rfl
  | some isAlive => cases isAlive <;> rfl

theorem next_flag (socket clients : Nat) {action : ServerAction E}
    (known : ∀ now, action ≠ .connect socket now) :
    (view.next socket clients action).connection.isSome = view.connection.isSome ∧
      ((view.next socket clients action).isAlive = none ∨
        (view.next socket clients action).isAlive = answers socket view.isAlive action) := by
  have same : view.connection.isSome = view.connection.isSome ∧
      (view.isAlive = none ∨ view.isAlive = view.isAlive) := ⟨rfl, .inr rfl⟩
  have sends (frame : Frame E) : (view.sendTo frame).connection.isSome = view.connection.isSome ∧
      ((view.sendTo frame).isAlive = none ∨ (view.sendTo frame).isAlive = view.isAlive) :=
    ⟨(view.sendTo_flag frame).1, .inr (view.sendTo_flag frame).2⟩
  cases action with
  | connect place now =>
    have other : place ≠ socket := by
      intro same
      subst same
      exact known now rfl
    simp only [next, answers, if_neg other, or_true, and_self]
  | published message =>
    cases message with
    | none => exact same
    | some event => exact view.broadcast_flag _
  | metricsTick => exact same
  | metricsRead overview now =>
    cases overview with
    | none => exact same
    | some overview => exact view.broadcast_flag _
  | snapshotRead place overview now =>
    cases overview with
    | none => exact same
    | some overview =>
      simp only [next, answers]
      split
      · exact sends _
      · exact same
  | heartbeat =>
    simp only [next, answers, heartbeat_eq]
    split
    · next missing => exact ⟨rfl, .inl missing⟩
    · split
      · exact ⟨onConnection_isSome .., .inl rfl⟩
      · split
        · exact ⟨onConnection_isSome .., .inr rfl⟩
        · exact ⟨rfl, .inr rfl⟩
  | message place raw now =>
    simp only [next, answers]
    split
    · exact sends _
    · exact same
  | pong place =>
    simp only [next, answers]
    split
    · exact ⟨rfl, .inr rfl⟩
    · exact same
  | sendFailed place | errorEvent place =>
    simp only [next, answers]
    split
    · exact ⟨rfl, .inl rfl⟩
    · exact same
  | closing place =>
    simp only [next, answers]
    split
    · exact ⟨onConnection_isSome .., .inr rfl⟩
    · exact same
  | closeEvent place =>
    simp only [next, answers]
    split
    · exact ⟨onConnection_isSome .., .inl rfl⟩
    · exact same

end Present

variable {view : View E}

/-- The flag of an entry is what the moves set it to. -/
def Flagged (view : View E) (flag : Option Bool) : Prop :=
  view = absent ∧ flag = none ∨
    view.connection.isSome = true ∧ (view.isAlive = none ∨ view.isAlive = flag)

theorem answers_none {socket : Nat} {action : ServerAction E}
    (known : ∀ now, action ≠ .connect socket now) : answers socket none action = none := by
  cases action with
  | connect place now =>
    have other : place ≠ socket := by
      intro same
      subst same
      exact known now rfl
    simp [answers, other]
  | pong place => simp [answers]
  | _ => rfl

theorem Flagged.next {flag : Option Bool} (flagged : view.Flagged flag) (socket clients : Nat)
    {action : ServerAction E} (known : ∀ now, action = .connect socket now → view = absent) :
    (view.next socket clients action).Flagged (answers socket flag action) := by
  by_cases connects : ∃ now, action = .connect socket now
  · obtain ⟨now, rfl⟩ := connects
    obtain ⟨rfl, rfl⟩ | ⟨present, -⟩ := flagged
    · simp [View.next, answers, Flagged, welcomed]
    · rw [known now rfl] at present
      cases present
  · have other : ∀ now, action ≠ .connect socket now := fun now same => connects ⟨now, same⟩
    obtain ⟨rfl, rfl⟩ | ⟨present, flagged⟩ := flagged
    · have stays : Hearing.before.next socket action = .before := by
        cases action with
        | connect place now =>
          have apart : place ≠ socket := by
            intro same
            subst same
            exact other now rfl
          simp [Hearing.next, apart]
        | _ => rfl
      have unaccepted := (absent_next socket clients action).1
      rw [stays] at unaccepted
      exact .inl ⟨unaccepted, answers_none other⟩
    · obtain ⟨kept, moved⟩ := view.next_flag socket clients other
      refine .inr ⟨kept.trans present, ?_⟩
      obtain missing | same := flagged
      · rw [missing, answers_none other, or_self] at moved
        exact .inl moved
      · rwa [← same]

end View

namespace Broadcaster

variable {server server' : Broadcaster E} {actions : List (ServerAction E)}

/-- The connection has an entry in the registry. -/
def tracks (server : Broadcaster E) (socket : Nat) : Bool :=
  server.clients.any fun client => client.socket = socket

theorem isSome_isAlive (server : Broadcaster E) (socket : Nat) :
    (server.view socket).isAlive.isSome = server.tracks socket := by
  simp [view, tracks, List.isSome_find?]

theorem flagged_run (orderly : server.Orderly) {socket : Nat} {flag : Option Bool}
    (flagged : (server.view socket).Flagged flag)
    (ran : replay step unchecked server actions = some server') :
    server'.Orderly ∧ (server'.view socket).Flagged (actions.foldl (answers socket) flag) := by
  induction actions generalizing server flag with
  | nil =>
    cases ran
    exact ⟨orderly, flagged⟩
  | cons action actions inductionHypothesis =>
    simp only [replay_cons, unchecked, if_true] at ran
    obtain ⟨middle, stepped, rest⟩ := Option.bind_eq_some_iff.mp ran
    have next := flagged.next socket server.clients.length (connect_unaccepted orderly stepped socket)
    rw [← step_view orderly stepped socket] at next
    exact inductionHypothesis (step_orderly orderly stepped) next rest

/-- In every run a beat ends exactly the registrations that nothing answered for since a beat before:
it terminates their connections and removes their entries.  It pings the other registered
connections that are open, and waits for their answers; connections without an entry it leaves
alone. -/
theorem heartbeat_spec (ran : replay step unchecked initial actions = some server) (socket : Nat) :
    (server.tracks socket = true ∧ Unanswered socket actions →
      server.heartbeat.view socket = ((server.view socket).onConnection (·.terminate)).remove) ∧
    (server.tracks socket = true ∧ ¬ Unanswered socket actions →
      server.heartbeat.view socket =
        if server.readyState socket = some .opened then
          ((server.view socket).setAlive false).onConnection (·.ping)
        else (server.view socket).setAlive false) ∧
    (server.tracks socket = false → server.heartbeat.view socket = server.view socket) := by
  have base : (view (initial : Broadcaster E) socket).Flagged none := .inl ⟨rfl, rfl⟩
  obtain ⟨orderly, flagged⟩ := flagged_run orderly_initial base ran
  -- Only of a connection without an entry may the flag differ from what the moves say.
  have known : (server.view socket).isAlive = none ∨
      (server.view socket).isAlive = actions.foldl (answers socket) none := by
    obtain ⟨absent, -⟩ | ⟨-, known⟩ := flagged
    · rw [absent]
      exact .inl rfl
    · exact known
  rw [view_heartbeat orderly, View.heartbeat_eq, readyState_view, ← answers_iff, ← isSome_isAlive]
  obtain missing | same := known
  · simp [missing]
  · rw [← same]
    cases (server.view socket).isAlive with
    | none => simp
    | some isAlive => cases isAlive <;> simp

/-- One of two connections answers the first beat. -/
def oneAnswer : List (ServerAction String) := [.connect 0 0, .connect 1 0, .heartbeat, .pong 1]

theorem heartbeat_oneAnswer : ∃ server, replay step unchecked initial oneAnswer = some server ∧
    server.heartbeat.view 0 = ((server.view 0).onConnection (·.terminate)).remove ∧
    server.heartbeat.view 1 = ((server.view 1).setAlive false).onConnection (·.ping) := by
  have spec := heartbeat_spec (show replay step unchecked initial oneAnswer = some _ from rfl)
  refine ⟨_, rfl, (spec 0).1 ⟨rfl, [.connect 0 0, .connect 1 0], [.pong 1], 0, rfl, ?_, ?_⟩,
    (spec 1).2.1 ⟨rfl, ?_⟩⟩
  · simp
  · simp
  · rw [← answers_iff]
    decide

end Broadcaster

end Taskfire.Api
