import Taskfire.Safety.Connection

/-!
# The sockets and the events of the WebSocket hook

Whatever the order of effects, timers and events of sockets: the hook has one usable socket at most,
it goes on reconnecting until the server closes the current socket for good, and it keeps the newest
events it was sent while it was mounted.
-/

namespace Taskfire.Dashboard

open Taskfire.Library

variable {M E : Type}

/-! ## One usable socket -/

namespace Socket

/-- The socket can still carry messages to the server, now or once it is open. -/
def usable (socket : Socket) : Bool := socket.readyState = .connecting || socket.readyState = .opened

@[simp] theorem usable_close (socket : Socket) : socket.close.usable = false := by
  unfold close usable
  split <;> simp [*]

@[simp] theorem usable_deliverOpen (socket : Socket) : socket.deliverOpen.usable = socket.usable := by
  unfold deliverOpen usable
  split <;> simp [*]

theorem closeDelivered_close (socket : Socket) : socket.close.closeDelivered = socket.closeDelivered := by
  unfold close
  split <;> rfl

theorem closeDelivered_deliverOpen (socket : Socket) :
    socket.deliverOpen.closeDelivered = socket.closeDelivered := by
  unfold deliverOpen
  split <;> rfl

@[simp] theorem usable_deliverClose (socket : Socket) : socket.deliverClose.usable = false := rfl

end Socket

namespace Hook

variable {hook hook' : Hook M E} {action : HookAction M E}

/-- Only the socket in `wsRef` is usable, and none once the handlers take the hook to be unmounted. -/
def Single (hook : Hook M E) : Prop :=
  ∀ place socket, hook.sockets[place]? = some socket → socket.usable = true →
    hook.wsRef = some place ∧ hook.unmountedRef = false

/-- A hook that is not mounted is not taken for mounted, or it has never been. -/
def Idle (hook : Hook M E) : Prop :=
  hook.mounted = false → hook.unmountedRef = true ∨ hook.sockets = [] ∧ hook.timers = []

namespace Single

theorem onSocket (single : hook.Single) (place : Nat) {change : Socket → Socket}
    (keeps : ∀ socket, (change socket).usable = true → socket.usable = true) :
    (hook.onSocket place change).Single := by
  intro other socket found usable
  simp only [Hook.onSocket, List.getElem?_modify] at found
  obtain ⟨old, present, same⟩ := Option.map_eq_some_iff.mp found
  apply single other old present
  split at same
  · subst same
    exact keeps old usable
  · cases same
    exact usable

/-- `wsRef.current?.close()` leaves no usable socket. -/
theorem closed (single : hook.Single) (place : Nat) (socket : Socket)
    (found : hook.closeCurrent.sockets[place]? = some socket) : socket.usable = false := by
  by_contra usable
  rw [Bool.not_eq_false] at usable
  unfold closeCurrent at found
  split at found
  · next missing =>
    have current := (single place socket found usable).1
    rw [missing] at current
    cases current
  · next current known =>
    simp only [Hook.onSocket, List.getElem?_modify] at found
    obtain ⟨old, present, same⟩ := Option.map_eq_some_iff.mp found
    split at same
    · subst same
      simp at usable
    · next other =>
      cases same
      have own := (single place socket present usable).1
      rw [known] at own
      cases own
      exact absurd rfl other

theorem connect (single : hook.Single) : hook.connect.Single := by
  unfold Hook.connect
  split
  · exact single
  · next attached =>
    intro place socket found usable
    have flag := congrArg Prod.snd hook.closeCurrent_flags
    refine ⟨?_, flag.trans (Bool.eq_false_iff.mpr attached)⟩
    have counted : hook.closeCurrent.sockets.length = hook.sockets.length := by
      unfold closeCurrent
      split <;> simp [Hook.onSocket]
    rw [List.getElem?_append] at found
    split at found
    · rw [single.closed place socket found] at usable
      cases usable
    · next beyond =>
      have last := (List.getElem?_eq_some_iff.mp found).1
      rw [List.length_singleton, counted] at last
      rw [counted] at beyond
      have newest : hook.sockets.length = place := by omega
      exact congrArg some newest

theorem of_same (single : hook.Single) (sockets : hook'.sockets = hook.sockets)
    (current : hook'.wsRef = hook.wsRef) (unmounted : hook'.unmountedRef = hook.unmountedRef) :
    hook'.Single := by
  rw [Single, sockets, current, unmounted]
  exact single

theorem onopen (single : hook.Single) (socket : Nat) : (hook.onopen socket).Single := by
  unfold Hook.onopen
  split
  · exact single.onSocket socket (by simp)
  · exact single

theorem onmessage (single : hook.Single) (msg : WsMessage M E) : (hook.onmessage msg).Single := by
  unfold Hook.onmessage
  split
  · exact single
  · cases msg <;> exact single

theorem onclose (single : hook.Single) (code : Nat) (wasClean : Bool) :
    (hook.onclose code wasClean).Single := by
  unfold Hook.onclose
  split
  · exact single
  · dsimp only
    split
    · unfold scheduleReconnect
      split
      · exact single
      · exact single
    · exact single

theorem cleanup (single : hook.Single) : hook.cleanup.Single := by
  have sockets : hook.cleanup.sockets = hook.closeCurrent.sockets := by
    unfold Hook.cleanup closeCurrent
    cases hook.wsRef <;> cases hook.reconnectTimerRef <;> rfl
  intro place socket found usable
  rw [sockets] at found
  rw [single.closed place socket found] at usable
  cases usable

theorem step (single : hook.Single) (stepped : hook.step action = some hook') : hook'.Single := by
  cases action with
  | mount =>
    obtain ⟨-, stepped⟩ := Option.ite_none_left_eq_some.mp stepped
    cases stepped
    have attached : { hook with unmountedRef := false }.Single := fun place socket found usable =>
      ⟨(single place socket found usable).1, rfl⟩
    exact attached.connect
  | unmount =>
    obtain ⟨-, stepped⟩ := Option.ite_none_right_eq_some.mp stepped
    cases stepped
    exact single.cleanup
  | timer id =>
    obtain ⟨-, stepped⟩ := Option.ite_none_right_eq_some.mp stepped
    cases stepped
    exact connect single
  | openEvent socket =>
    obtain ⟨-, stepped⟩ := Option.ite_none_right_eq_some.mp stepped
    cases stepped
    exact (single.onSocket socket (by simp)).onopen socket
  | message socket msg =>
    obtain ⟨-, stepped⟩ := Option.ite_none_right_eq_some.mp stepped
    cases stepped
    exact single.onmessage msg
  | error socket =>
    obtain ⟨-, stepped⟩ := Option.ite_none_right_eq_some.mp stepped
    cases stepped
    exact single.onSocket socket (by simp)
  | closeEvent socket code wasClean =>
    obtain ⟨-, stepped⟩ := Option.ite_none_right_eq_some.mp stepped
    cases stepped
    exact (single.onSocket socket (by simp)).onclose code wasClean

end Single

/-! ## A hook that is not mounted -/

/-- Handlers and timers do not mount the hook or unmount it. -/
theorem step_flags (stepped : hook.step action = some hook') (mounts : action ≠ .mount)
    (unmounts : action ≠ .unmount) : hook'.flags = hook.flags := by
  cases action with
  | mount => exact absurd rfl mounts
  | unmount => exact absurd rfl unmounts
  | timer id =>
    obtain ⟨-, stepped⟩ := Option.ite_none_right_eq_some.mp stepped
    cases stepped
    exact connect_flags _
  | openEvent socket =>
    obtain ⟨-, stepped⟩ := Option.ite_none_right_eq_some.mp stepped
    cases stepped
    exact onopen_flags ..
  | message socket msg =>
    obtain ⟨-, stepped⟩ := Option.ite_none_right_eq_some.mp stepped
    cases stepped
    exact onmessage_flags ..
  | error socket =>
    obtain ⟨-, stepped⟩ := Option.ite_none_right_eq_some.mp stepped
    cases stepped
    rfl
  | closeEvent socket code wasClean =>
    obtain ⟨-, stepped⟩ := Option.ite_none_right_eq_some.mp stepped
    cases stepped
    exact onclose_flags ..

theorem cleanup_unmountedRef (hook : Hook M E) : hook.cleanup.unmountedRef = true := by
  unfold cleanup closeCurrent
  cases hook.wsRef <;> cases hook.reconnectTimerRef <;> rfl

/-- Without sockets and timers only the effect can run. -/
theorem step_nothing (sockets : hook.sockets = []) (timers : hook.timers = [])
    (stepped : hook.step action = some hook') : action = .mount ∨ action = .unmount := by
  cases action with
  | mount => exact .inl rfl
  | unmount => exact .inr rfl
  | _ => simp [Hook.step, sockets, timers] at stepped

theorem Idle.step (idle : hook.Idle) (stepped : hook.step action = some hook') : hook'.Idle := by
  by_cases mounts : action = .mount
  · subst mounts
    obtain ⟨-, stepped⟩ := Option.ite_none_left_eq_some.mp stepped
    cases stepped
    nofun
  · by_cases unmounts : action = .unmount
    · subst unmounts
      obtain ⟨-, stepped⟩ := Option.ite_none_right_eq_some.mp stepped
      cases stepped
      exact fun _ => .inl hook.cleanup_unmountedRef
    · have flags := step_flags stepped mounts unmounts
      simp only [Hook.flags, Prod.mk.injEq] at flags
      intro unmounted
      obtain detached | ⟨sockets, timers⟩ := idle (flags.1 ▸ unmounted)
      · exact .inl (flags.2.trans detached)
      · exact ((step_nothing sockets timers stepped).elim mounts unmounts).elim

/-! ## Pending connections -/

/-- The current socket is there and has its close event still to deliver. -/
def Connecting (hook : Hook M E) : Prop :=
  ∃ place socket, hook.wsRef = some place ∧ hook.sockets[place]? = some socket ∧
    socket.closeDelivered = false

/-- The current socket was closed cleanly, by a code that asks for no new connection. -/
def Dismissed (hook : Hook M E) (earlier : List (HookAction M E)) : Prop :=
  ∃ place code, hook.wsRef = some place ∧ .closeEvent place code true ∈ earlier ∧
    code ≠ 1000 ∧ code ≠ 1001

/-- A timer of at most the greatest delay is pending. -/
def Waiting (hook : Hook M E) : Prop := ∃ timer ∈ hook.timers, timer.delay ≤ maxBackoffMs

def Persistent (hook : Hook M E) (earlier : List (HookAction M E)) : Prop :=
  hook.mounted = true → hook.Connecting ∨ hook.Waiting ∨ hook.Dismissed earlier

theorem connect_connecting (attached : hook.unmountedRef = false) : hook.connect.Connecting := by
  have counted : hook.closeCurrent.sockets.length = hook.sockets.length := by
    unfold closeCurrent
    split <;> simp [onSocket]
  exact ⟨hook.sockets.length, .new, by simp [connect, attached], by simp [connect, attached, ← counted], rfl⟩

theorem scheduleReconnect_waiting (attached : hook.unmountedRef = false) :
    hook.scheduleReconnect.Waiting := by
  rw [scheduleReconnect, if_neg (by simp [attached])]
  exact ⟨_, List.mem_append_right _ (List.mem_singleton_self _), Nat.min_le_right _ _⟩

theorem Dismissed.append {earlier : List (HookAction M E)} (dismissed : hook.Dismissed earlier)
    (current : hook'.wsRef = hook.wsRef) (action : HookAction M E) :
    hook'.Dismissed (earlier ++ [action]) := by
  obtain ⟨place, code, known, closed, normal, away⟩ := dismissed
  exact ⟨place, code, current.trans known, List.mem_append_left _ closed, normal, away⟩

theorem Connecting.onSocket (connecting : hook.Connecting) (place : Nat) {change : Socket → Socket}
    (keeps : hook.wsRef = some place → ∀ socket, (change socket).closeDelivered = socket.closeDelivered) :
    (hook.onSocket place change).Connecting := by
  obtain ⟨current, socket, known, found, pending⟩ := connecting
  by_cases own : place = current
  · subst own
    exact ⟨place, change socket, known, by simp [Hook.onSocket, found], (keeps known socket).trans pending⟩
  · exact ⟨current, socket, known,
      by simp [Hook.onSocket, List.getElem?_modify_ne change hook.sockets own, found], pending⟩

/-- A step that leaves the timers and the current socket. -/
theorem Persistent.append {earlier : List (HookAction M E)} (persistent : hook.Persistent earlier)
    (mounted : hook'.mounted = hook.mounted) (timers : hook'.timers = hook.timers)
    (current : hook'.wsRef = hook.wsRef) (connecting : hook.Connecting → hook'.Connecting)
    (action : HookAction M E) : hook'.Persistent (earlier ++ [action]) := by
  intro shown
  obtain waits | waits | dismissed := persistent (mounted.symm.trans shown)
  · exact .inl (connecting waits)
  · rw [Waiting, timers]
    exact .inr (.inl waits)
  · exact .inr (.inr (dismissed.append current action))

theorem closeEvent_persistent {earlier : List (HookAction M E)} {place code : Nat} {wasClean : Bool}
    (attached : hook.unmountedRef = false) (persistent : hook.Persistent earlier) :
    ((hook.onSocket place Socket.deliverClose).onclose code wasClean).Persistent
      (earlier ++ [.closeEvent place code wasClean]) := by
  have attached' : (hook.onSocket place Socket.deliverClose).unmountedRef = false := attached
  simp only [onclose, attached', Bool.false_eq_true, if_false]
  split
  · exact fun _ => .inr (.inl (scheduleReconnect_waiting rfl))
  · next stays =>
    simp only [not_or, Bool.not_eq_false] at stays
    by_cases current : hook.wsRef = some place
    · intro _
      refine .inr (.inr ⟨place, code, current, ?_, stays.2.1, stays.2.2⟩)
      simp [stays.1]
    · apply persistent.append
      · rfl
      · rfl
      · rfl
      · exact fun connecting => connecting.onSocket place fun own => absurd own current

theorem Persistent.step (attached : hook.Attached) {earlier : List (HookAction M E)}
    (persistent : hook.Persistent earlier) (stepped : hook.step action = some hook') :
    hook'.Persistent (earlier ++ [action]) := by
  cases action with
  | mount =>
    obtain ⟨-, stepped⟩ := Option.ite_none_left_eq_some.mp stepped
    cases stepped
    intro _
    have connecting : { hook with unmountedRef := false }.connect.Connecting := connect_connecting rfl
    exact .inl connecting
  | unmount =>
    obtain ⟨-, stepped⟩ := Option.ite_none_right_eq_some.mp stepped
    cases stepped
    nofun
  | timer id =>
    obtain ⟨-, stepped⟩ := Option.ite_none_right_eq_some.mp stepped
    cases stepped
    intro mounted
    have kept := congrArg Prod.fst
      (connect_flags { hook with timers := hook.timers.filter fun pending => pending.id ≠ id })
    exact .inl (connect_connecting (attached (kept.symm.trans mounted)))
  | openEvent place =>
    obtain ⟨-, stepped⟩ := Option.ite_none_right_eq_some.mp stepped
    cases stepped
    have opened := onopen_flags (hook.onSocket place Socket.deliverOpen) place
    intro mounted
    have attached' : (hook.onSocket place Socket.deliverOpen).unmountedRef = false :=
      attached ((congrArg Prod.fst opened).symm.trans mounted)
    revert mounted
    rw [onopen, if_neg (by simp [attached'])]
    apply persistent.append
    · rfl
    · rfl
    · rfl
    · exact fun connecting => connecting.onSocket place fun _ => Socket.closeDelivered_deliverOpen
  | message place msg =>
    obtain ⟨-, stepped⟩ := Option.ite_none_right_eq_some.mp stepped
    cases stepped
    have same : (hook.onmessage msg).mounted = hook.mounted ∧
        (hook.onmessage msg).timers = hook.timers ∧ (hook.onmessage msg).wsRef = hook.wsRef ∧
        (hook.onmessage msg).sockets = hook.sockets := by
      unfold onmessage
      split
      · exact ⟨rfl, rfl, rfl, rfl⟩
      · cases msg <;> exact ⟨rfl, rfl, rfl, rfl⟩
    apply persistent.append same.1 same.2.1 same.2.2.1
    rw [Connecting, Connecting, same.2.2.1, same.2.2.2]
    exact id
  | error place =>
    obtain ⟨-, stepped⟩ := Option.ite_none_right_eq_some.mp stepped
    cases stepped
    apply persistent.append
    · rfl
    · rfl
    · rfl
    · exact fun connecting => connecting.onSocket place fun _ => Socket.closeDelivered_close
  | closeEvent place code wasClean =>
    obtain ⟨-, stepped⟩ := Option.ite_none_right_eq_some.mp stepped
    cases stepped
    have closed := onclose_flags (hook.onSocket place Socket.deliverClose) code wasClean
    intro mounted
    have before := attached ((congrArg Prod.fst closed).symm.trans mounted)
    exact closeEvent_persistent before persistent mounted

/-! ## The history of events -/

/-- The job event a move brings to a hook that is mounted. -/
def brings (mounted : Bool) : HookAction M E → List E
  | .message _ (.jobEvent payload) => if mounted then [payload] else []
  | _ => []

def mountedAfter (mounted : Bool) : HookAction M E → Bool
  | .mount => true
  | .unmount => false
  | _ => mounted

/-- The job events that come in while the hook is mounted, in their order. -/
def received : Bool → List (HookAction M E) → List E
  | _, [] => []
  | mounted, action :: actions =>
    brings mounted action ++ received (mountedAfter mounted action) actions

theorem step_mounted (stepped : hook.step action = some hook') :
    hook'.mounted = mountedAfter hook.mounted action := by
  cases action with
  | mount =>
    obtain ⟨-, stepped⟩ := Option.ite_none_left_eq_some.mp stepped
    cases stepped
    rfl
  | unmount =>
    obtain ⟨-, stepped⟩ := Option.ite_none_right_eq_some.mp stepped
    cases stepped
    rfl
  | _ => exact congrArg Prod.fst (step_flags stepped nofun nofun)

theorem connect_eventHistory (hook : Hook M E) : hook.connect.eventHistory = hook.eventHistory := by
  unfold connect closeCurrent
  cases hook.wsRef <;> split <;> rfl

theorem cleanup_eventHistory (hook : Hook M E) : hook.cleanup.eventHistory = hook.eventHistory := by
  unfold cleanup closeCurrent
  cases hook.wsRef <;> cases hook.reconnectTimerRef <;> rfl

theorem onclose_eventHistory (hook : Hook M E) (code : Nat) (wasClean : Bool) :
    (hook.onclose code wasClean).eventHistory = hook.eventHistory := by
  unfold onclose
  split
  · rfl
  · dsimp only
    split
    · unfold scheduleReconnect
      split <;> rfl
    · rfl

theorem brings_reverse (mounted : Bool) (action : HookAction M E) :
    (brings mounted action).reverse = brings mounted action := by
  unfold brings
  split
  · split <;> rfl
  · rfl

theorem take_cons_take {α : Type} (n : Nat) (first : α) (list : List α) :
    (first :: list.take n).take n = (first :: list).take n := by
  cases n with
  | zero => rfl
  | succ n => simp [List.take_take]

theorem onmessage_eventHistory {place : Nat} {msg : WsMessage M E} (attached : hook.unmountedRef = !hook.mounted)
    {prior : List E} (kept : hook.eventHistory = prior.take eventHistoryCap) :
    (hook.onmessage msg).eventHistory =
      (brings hook.mounted (.message place msg) ++ prior).take eventHistoryCap := by
  unfold onmessage
  cases mounted : hook.mounted with
  | false =>
    rw [mounted] at attached
    cases msg <;> simp [attached, brings, kept]
  | true =>
    rw [mounted] at attached
    cases msg with
    | jobEvent payload =>
      have taken := take_cons_take eventHistoryCap payload prior
      simpa [attached, brings, kept] using taken
    | _ => simp [attached, brings, kept]

theorem step_eventHistory (attached : hook.Attached) (idle : hook.Idle)
    (stepped : hook.step action = some hook') {prior : List E}
    (kept : hook.eventHistory = prior.take eventHistoryCap) :
    hook'.eventHistory = (brings hook.mounted action ++ prior).take eventHistoryCap := by
  cases action with
  | mount =>
    obtain ⟨-, stepped⟩ := Option.ite_none_left_eq_some.mp stepped
    cases stepped
    exact (connect_eventHistory _).trans kept
  | unmount =>
    obtain ⟨-, stepped⟩ := Option.ite_none_right_eq_some.mp stepped
    cases stepped
    exact (cleanup_eventHistory hook).trans kept
  | timer id =>
    obtain ⟨-, stepped⟩ := Option.ite_none_right_eq_some.mp stepped
    cases stepped
    exact (connect_eventHistory _).trans kept
  | openEvent place =>
    obtain ⟨-, stepped⟩ := Option.ite_none_right_eq_some.mp stepped
    cases stepped
    unfold onopen
    split <;> exact kept
  | message place msg =>
    obtain ⟨present, stepped⟩ := Option.ite_none_right_eq_some.mp stepped
    cases stepped
    refine onmessage_eventHistory ?_ kept
    cases mounted : hook.mounted with
    | true => exact attached mounted
    | false =>
      obtain detached | ⟨sockets, -⟩ := idle mounted
      · exact detached
      · simp [sockets] at present
  | error place =>
    obtain ⟨-, stepped⟩ := Option.ite_none_right_eq_some.mp stepped
    cases stepped
    exact kept
  | closeEvent place code wasClean =>
    obtain ⟨-, stepped⟩ := Option.ite_none_right_eq_some.mp stepped
    cases stepped
    exact (onclose_eventHistory ..).trans kept

theorem received_run {actions : List (HookAction M E)} (attached : hook.Attached) (idle : hook.Idle)
    {prior : List E} (kept : hook.eventHistory = prior.take eventHistoryCap)
    (ran : replay step unchecked hook actions = some hook') :
    hook'.eventHistory = ((received hook.mounted actions).reverse ++ prior).take eventHistoryCap := by
  induction actions generalizing hook prior with
  | nil =>
    cases ran
    simpa [received] using kept
  | cons action actions inductionHypothesis =>
    simp only [replay_cons, unchecked, if_true] at ran
    obtain ⟨middle, stepped, rest⟩ := Option.bind_eq_some_iff.mp ran
    have later := inductionHypothesis (step_attached attached stepped) (idle.step stepped)
      (step_eventHistory attached idle stepped kept) rest
    rw [later, step_mounted stepped, received, List.reverse_append, List.append_assoc, brings_reverse]

/-! ## Runs -/

theorem run_keeps {actions : List (HookAction M E)} {earlier : List (HookAction M E)}
    (attached : hook.Attached) (idle : hook.Idle) (single : hook.Single)
    (persistent : hook.Persistent earlier)
    (ran : replay step unchecked hook actions = some hook') :
    hook'.Idle ∧ hook'.Single ∧ hook'.Persistent (earlier ++ actions) := by
  induction actions generalizing hook earlier with
  | nil =>
    cases ran
    rw [List.append_nil]
    exact ⟨idle, single, persistent⟩
  | cons action actions inductionHypothesis =>
    simp only [replay_cons, unchecked, if_true] at ran
    obtain ⟨middle, stepped, rest⟩ := Option.bind_eq_some_iff.mp ran
    rw [← List.singleton_append, ← List.append_assoc]
    exact inductionHypothesis (step_attached attached stepped) (idle.step stepped)
      (single.step stepped) (persistent.step attached stepped) rest

theorem initial_idle : (initial : Hook M E).Idle := fun _ => .inr ⟨rfl, rfl⟩

theorem initial_run {actions : List (HookAction M E)}
    (ran : replay step unchecked initial actions = some hook') :
    hook'.Idle ∧ hook'.Single ∧ hook'.Persistent actions := by
  have attached : (initial : Hook M E).Attached := nofun
  have single : (initial : Hook M E).Single := nofun
  have persistent : (initial : Hook M E).Persistent [] := nofun
  exact run_keeps attached initial_idle single persistent ran

/-- The hook is unmounted and mounted again, and events of its first socket come in later. -/
def remounts : List (HookAction Unit Nat) :=
  [.mount, .openEvent 0, .message 0 (.jobEvent 1), .unmount, .message 0 (.jobEvent 2), .mount,
    .message 0 (.jobEvent 3), .openEvent 1, .message 1 (.jobEvent 4), .closeEvent 0 1006 false]

/-- In every run the only socket that is connecting or open is the current one of a mounted hook. -/
theorem usable_current {actions : List (HookAction M E)}
    (ran : replay step unchecked initial actions = some hook') {place : Nat} {socket : Socket}
    (found : hook'.sockets[place]? = some socket)
    (usable : socket.readyState = .connecting ∨ socket.readyState = .opened) :
    hook'.wsRef = some place ∧ hook'.mounted = true := by
  obtain ⟨idle, single, -⟩ := initial_run ran
  have known := single place socket found (by simpa [Socket.usable] using usable)
  refine ⟨known.1, ?_⟩
  by_contra unmounted
  obtain detached | ⟨sockets, -⟩ := idle (Bool.eq_false_iff.mpr unmounted)
  · rw [known.2] at detached
    cases detached
  · simp [sockets] at found

theorem usable_remounts : ∃ last, replay step unchecked initial remounts = some last ∧
    last.wsRef = some 1 ∧ last.mounted = true :=
  ⟨_, rfl, usable_current (show replay step unchecked initial remounts = some _ from rfl)
    (show _ = some ⟨.opened, true, false⟩ from rfl) (.inr rfl)⟩

/-- In every run a mounted hook has its current socket's close event ahead of it or a timer pending,
unless the socket was closed cleanly with a code other than 1000 and 1001. -/
theorem mounted_persists {actions : List (HookAction M E)}
    (ran : replay step unchecked initial actions = some hook') (mounted : hook'.mounted = true) :
    (∃ place socket, hook'.wsRef = some place ∧ hook'.sockets[place]? = some socket ∧
      socket.closeDelivered = false) ∨
    (∃ timer ∈ hook'.timers, timer.delay ≤ maxBackoffMs) ∨
    ∃ place code, hook'.wsRef = some place ∧ .closeEvent place code true ∈ actions ∧
      code ≠ 1000 ∧ code ≠ 1001 :=
  (initial_run ran).2.2 mounted

theorem persists_remounts : ∃ last, replay step unchecked initial remounts = some last ∧
    ((∃ place socket, last.wsRef = some place ∧ last.sockets[place]? = some socket ∧
      socket.closeDelivered = false) ∨
    (∃ timer ∈ last.timers, timer.delay ≤ maxBackoffMs) ∨
    ∃ place code, last.wsRef = some place ∧ .closeEvent place code true ∈ remounts ∧
      code ≠ 1000 ∧ code ≠ 1001) :=
  ⟨_, rfl, mounted_persists rfl rfl⟩

/-- In every run the history holds the newest hundred job events of the times the hook was mounted, the
newest first. -/
theorem eventHistory_eq {actions : List (HookAction M E)}
    (ran : replay step unchecked initial actions = some hook') :
    hook'.eventHistory = (received false actions).reverse.take eventHistoryCap := by
  have attached : (initial : Hook M E).Attached := nofun
  have kept := received_run attached initial_idle List.take_nil.symm ran
  rwa [List.append_nil] at kept

theorem eventHistory_remounts : ∃ last, replay step unchecked initial remounts = some last ∧
    last.eventHistory = [4, 3, 1] :=
  ⟨_, rfl, eventHistory_eq (show replay step unchecked initial remounts = some _ from rfl)⟩

end Hook

end Taskfire.Dashboard
