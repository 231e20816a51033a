import Taskfire.Library.Transition
import Taskfire.Model.WebSocket

/-!
# The status of the WebSocket hook

While the hook is mounted its status should tell whether the current socket is open.  The handlers of
sockets that were replaced write the same status.
-/

namespace Taskfire.Dashboard

open Taskfire.Library

variable {M E : Type}

namespace Socket

@[simp] theorem live_close (socket : Socket) : socket.close.live = socket.live := by
  unfold close
  split <;> rfl

theorem live_deliverOpen {socket : Socket} (pending : socket.closeDelivered = false) :
    socket.deliverOpen.live = true := by
  unfold deliverOpen live
  split <;> simp [pending]

@[simp] theorem live_deliverClose (socket : Socket) : socket.deliverClose.live = false := by
  simp [deliverClose, live]

end Socket

namespace Hook

variable {hook hook' : Hook M E} {action : HookAction M E}

/-! ## The current socket -/

theorem currentOpen_onSocket_same {socket : Nat} (change : Socket → Socket)
    (current : hook.wsRef = some socket) :
    (hook.onSocket socket change).currentOpen =
      hook.sockets[socket]?.any fun before => (change before).live := by
  simp [currentOpen, onSocket, current, List.getElem?_modify_eq, Option.any_map]

theorem currentOpen_onSocket_other {socket : Nat} (change : Socket → Socket)
    (other : hook.wsRef ≠ some socket) : (hook.onSocket socket change).currentOpen = hook.currentOpen := by
  cases current : hook.wsRef with
  | none => simp [currentOpen, onSocket, current]
  | some place =>
    have different : socket ≠ place := fun same => other (by rw [current, same])
    simp [currentOpen, onSocket, current, List.getElem?_modify_ne change hook.sockets different]

@[simp] theorem currentOpen_onSocket_close (hook : Hook M E) (socket : Nat) :
    (hook.onSocket socket Socket.close).currentOpen = hook.currentOpen := by
  by_cases current : hook.wsRef = some socket
  · rw [currentOpen_onSocket_same _ current]
    simp [currentOpen, current]
  · exact currentOpen_onSocket_other _ current

/-- The socket has an event to deliver. -/
theorem currentOpen_delivered {socket : Nat} {current : Socket} (found : hook.sockets[socket]? = some current)
    (change : Socket → Socket) (isCurrent : hook.wsRef = some socket) :
    (hook.onSocket socket change).currentOpen = (change current).live := by
  rw [currentOpen_onSocket_same _ isCurrent, found]
  rfl

/-! ## What the handlers do -/

/-- Whether the hook is mounted, and whether its handlers take it to be unmounted. -/
def flags (hook : Hook M E) : Bool × Bool := (hook.mounted, hook.unmountedRef)

theorem closeCurrent_flags (hook : Hook M E) : hook.closeCurrent.flags = hook.flags := by
  unfold closeCurrent
  split <;> rfl

theorem scheduleReconnect_flags (hook : Hook M E) : hook.scheduleReconnect.flags = hook.flags := by
  unfold scheduleReconnect
  split <;> rfl

theorem connect_flags (hook : Hook M E) : hook.connect.flags = hook.flags := by
  unfold connect
  split
  · rfl
  · exact hook.closeCurrent_flags

theorem onopen_flags (hook : Hook M E) (socket : Nat) : (hook.onopen socket).flags = hook.flags := by
  unfold onopen
  split <;> rfl

theorem onmessage_flags (hook : Hook M E) (msg : WsMessage M E) :
    (hook.onmessage msg).flags = hook.flags := by
  unfold onmessage
  split
  · rfl
  · cases msg <;> rfl

theorem onclose_flags (hook : Hook M E) (code : Nat) (wasClean : Bool) :
    (hook.onclose code wasClean).flags = hook.flags := by
  unfold onclose
  split
  · rfl
  · dsimp only
    split
    · exact scheduleReconnect_flags _
    · rfl

theorem scheduleReconnect_currentOpen (hook : Hook M E) :
    hook.scheduleReconnect.currentOpen = hook.currentOpen := by
  unfold scheduleReconnect
  split <;> rfl

/-- A new socket is not open. -/
theorem connect_currentOpen (attached : hook.unmountedRef = false) :
    hook.connect.currentOpen = false := by
  have counted : hook.closeCurrent.sockets.length = hook.sockets.length := by
    unfold closeCurrent
    split <;> simp [onSocket]
  simp [connect, attached, currentOpen, ← counted, Socket.new, Socket.live]

theorem connect_status (attached : hook.unmountedRef = false) : hook.connect.status = .connecting := by
  simp [connect, attached]

theorem onopen_attached (attached : hook.unmountedRef = false) (socket : Nat) :
    (hook.onopen socket).status = .connected ∧ (hook.onopen socket).currentOpen = hook.currentOpen := by
  unfold onopen
  rw [if_neg (by simp [attached])]
  exact ⟨rfl, rfl⟩

theorem onmessage_keeps (hook : Hook M E) (msg : WsMessage M E) :
    (hook.onmessage msg).status = hook.status ∧ (hook.onmessage msg).currentOpen = hook.currentOpen := by
  unfold onmessage
  split
  · exact ⟨rfl, rfl⟩
  · cases msg <;> exact ⟨rfl, rfl⟩

theorem onclose_attached (attached : hook.unmountedRef = false) (code : Nat) (wasClean : Bool) :
    (hook.onclose code wasClean).status ≠ .connected ∧
      (hook.onclose code wasClean).currentOpen = hook.currentOpen := by
  simp only [onclose, attached, Bool.false_eq_true, if_false]
  split
  · refine ⟨?_, scheduleReconnect_currentOpen _⟩
    simp [scheduleReconnect]
  · exact ⟨nofun, rfl⟩

/-! ## Runs -/

/-- While the hook is mounted, it is connected exactly if the current socket is open. -/
def Truthful (hook : Hook M E) : Prop :=
  hook.mounted = true → (hook.status = .connected ↔ hook.currentOpen = true)

/-- Of a mounted hook the handlers know that it is. -/
def Attached (hook : Hook M E) : Prop := hook.mounted = true → hook.unmountedRef = false

/-- No socket but the current one delivers, while the hook is mounted, its close event to a hook whose
current socket is open, or its open event to one whose current socket is not. -/
def fits (hook : Hook M E) : HookAction M E → Bool
  | .openEvent socket => !hook.mounted || hook.wsRef = some socket || hook.currentOpen
  | .closeEvent socket _ _ => !hook.mounted || hook.wsRef = some socket || !hook.currentOpen
  | .mount | .unmount | .timer _ | .message _ _ | .error _ => true

theorem Attached.of_flags (attached : hook.Attached) (same : hook'.flags = hook.flags) :
    hook'.Attached := by
  simp only [flags, Prod.mk.injEq] at same
  rw [Attached, same.1, same.2]
  exact attached

theorem step_attached (attached : hook.Attached) (stepped : hook.step action = some hook') :
    hook'.Attached := by
  cases action with
  | mount =>
    obtain ⟨-, stepped⟩ := Option.ite_none_left_eq_some.mp stepped
    cases stepped
    intro _
    exact congrArg Prod.snd (connect_flags { hook with unmountedRef := false })
  | unmount =>
    obtain ⟨-, stepped⟩ := Option.ite_none_right_eq_some.mp stepped
    cases stepped
    intro mounted
    cases mounted
  | timer id =>
    obtain ⟨-, stepped⟩ := Option.ite_none_right_eq_some.mp stepped
    cases stepped
    exact attached.of_flags (connect_flags _)
  | openEvent socket =>
    obtain ⟨-, stepped⟩ := Option.ite_none_right_eq_some.mp stepped
    cases stepped
    exact attached.of_flags (onopen_flags _ _)
  | message socket msg =>
    obtain ⟨-, stepped⟩ := Option.ite_none_right_eq_some.mp stepped
    cases stepped
    exact attached.of_flags (onmessage_flags _ _)
  | error socket =>
    obtain ⟨-, stepped⟩ := Option.ite_none_right_eq_some.mp stepped
    cases stepped
    exact attached.of_flags rfl
  | closeEvent socket code wasClean =>
    obtain ⟨-, stepped⟩ := Option.ite_none_right_eq_some.mp stepped
    cases stepped
    exact attached.of_flags (onclose_flags _ _ _)

theorem Truthful.of_unmounted (unmounted : hook.mounted = false) : hook.Truthful := by
  intro mounted
  rw [unmounted] at mounted
  cases mounted

theorem Truthful.of_connecting (connecting : hook.status = .connecting)
    (shut : hook.currentOpen = false) : hook.Truthful := by
  intro _
  simp [connecting, shut]

/-- A hook that only looks different. -/
theorem Truthful.of_same (truthful : hook.Truthful) (flags : hook'.flags = hook.flags)
    (status : hook'.status = hook.status) (current : hook'.currentOpen = hook.currentOpen) :
    hook'.Truthful := by
  have mounted : hook'.mounted = hook.mounted := congrArg Prod.fst flags
  rw [Truthful, mounted, status, current]
  exact truthful

section Mounted

variable (mounted : hook.mounted = true) (attached : hook.unmountedRef = false) {socket : Nat}

include mounted attached

/-- The open event of a socket makes the hook connected. -/
theorem truthful_openEvent {current : Socket} (found : hook.sockets[socket]? = some current)
    (pending : current.closeDelivered = false) :
    ((hook.onSocket socket Socket.deliverOpen).onopen socket).Truthful ↔
      hook.wsRef = some socket ∨ hook.currentOpen = true := by
  have attached' : (hook.onSocket socket Socket.deliverOpen).unmountedRef = false := attached
  obtain ⟨status, shows⟩ := onopen_attached attached' socket
  have flags := onopen_flags (hook.onSocket socket Socket.deliverOpen) socket
  have mounted' : ((hook.onSocket socket Socket.deliverOpen).onopen socket).mounted = true :=
    (congrArg Prod.fst flags).trans mounted
  by_cases isCurrent : hook.wsRef = some socket
  · have opened := currentOpen_delivered found Socket.deliverOpen isCurrent
    simp [Truthful, mounted', status, shows, opened, Socket.live_deliverOpen pending, isCurrent]
  · have kept := currentOpen_onSocket_other Socket.deliverOpen isCurrent
    simp [Truthful, mounted', status, shows, kept, isCurrent]

/-- The close event of a socket makes the hook disconnected. -/
theorem truthful_closeEvent {current : Socket} (found : hook.sockets[socket]? = some current)
    (code : Nat) (wasClean : Bool) :
    ((hook.onSocket socket Socket.deliverClose).onclose code wasClean).Truthful ↔
      hook.wsRef = some socket ∨ hook.currentOpen = false := by
  have attached' : (hook.onSocket socket Socket.deliverClose).unmountedRef = false := attached
  obtain ⟨status, shows⟩ := onclose_attached attached' code wasClean
  have flags := onclose_flags (hook.onSocket socket Socket.deliverClose) code wasClean
  have mounted' : ((hook.onSocket socket Socket.deliverClose).onclose code wasClean).mounted = true :=
    (congrArg Prod.fst flags).trans mounted
  by_cases isCurrent : hook.wsRef = some socket
  · have shut := currentOpen_delivered found Socket.deliverClose isCurrent
    simp [Truthful, mounted', status, shows, shut, isCurrent]
  · have kept := currentOpen_onSocket_other Socket.deliverClose isCurrent
    simp [Truthful, mounted', status, shows, kept, isCurrent]

end Mounted

/-- A step keeps the status true exactly if it fits. -/
theorem step_truthful (attached : hook.Attached) (truthful : hook.Truthful)
    (stepped : hook.step action = some hook') : hook'.Truthful ↔ hook.fits action = true := by
  cases action with
  | mount =>
    obtain ⟨-, stepped⟩ := Option.ite_none_left_eq_some.mp stepped
    cases stepped
    simp only [fits, iff_true]
    exact .of_connecting (connect_status rfl) (connect_currentOpen rfl)
  | unmount =>
    obtain ⟨-, stepped⟩ := Option.ite_none_right_eq_some.mp stepped
    cases stepped
    simp only [fits, iff_true]
    exact .of_unmounted rfl
  | timer id =>
    obtain ⟨-, stepped⟩ := Option.ite_none_right_eq_some.mp stepped
    cases stepped
    cases mounted : hook.mounted with
    | false => exact iff_of_true (.of_unmounted (congrArg Prod.fst (connect_flags _))) rfl
    | true =>
      simp only [fits, iff_true]
      exact .of_connecting (connect_status (attached mounted)) (connect_currentOpen (attached mounted))
  | openEvent socket =>
    obtain ⟨pending, stepped⟩ := Option.ite_none_right_eq_some.mp stepped
    cases stepped
    cases mounted : hook.mounted with
    | false =>
      exact iff_of_true (.of_unmounted ((congrArg Prod.fst (onopen_flags _ _)).trans mounted))
        (by simp [fits, mounted])
    | true =>
      obtain ⟨current, found, unsent⟩ := (Option.any_eq_true ..).mp pending
      simp only [Bool.and_eq_true, Bool.not_eq_true'] at unsent
      rw [truthful_openEvent mounted (attached mounted) found unsent.2]
      simp [fits, mounted]
  | message socket msg =>
    obtain ⟨-, stepped⟩ := Option.ite_none_right_eq_some.mp stepped
    cases stepped
    simp only [fits, iff_true]
    exact truthful.of_same (onmessage_flags hook msg) (onmessage_keeps hook msg).1
      (onmessage_keeps hook msg).2
  | error socket =>
    obtain ⟨-, stepped⟩ := Option.ite_none_right_eq_some.mp stepped
    cases stepped
    simp only [fits, iff_true]
    exact truthful.of_same rfl rfl (currentOpen_onSocket_close hook socket)
  | closeEvent socket code wasClean =>
    obtain ⟨pending, stepped⟩ := Option.ite_none_right_eq_some.mp stepped
    cases stepped
    cases mounted : hook.mounted with
    | false =>
      exact iff_of_true (.of_unmounted ((congrArg Prod.fst (onclose_flags _ _ _)).trans mounted))
        (by simp [fits, mounted])
    | true =>
      obtain ⟨current, found, -⟩ := (Option.any_eq_true ..).mp pending
      rw [truthful_closeEvent mounted (attached mounted) found]
      simp [fits, mounted]

theorem truthful_iff {actions : List (HookAction M E)}
    (ran : replay step unchecked initial actions = some hook') :
    (∀ n state, replay step unchecked initial (actions.take n) = some state →
        state.mounted = true → (state.status = .connected ↔ state.currentOpen = true)) ↔
      replay step fits initial actions = some hook' :=
  replay_iff (fun _ _ _ => step_attached) (fun _ _ _ => step_truthful) nofun
    (.of_unmounted rfl) ran

/-- A connection that breaks and is replaced after a second. -/
def reconnects : List (HookAction Unit Unit) :=
  [.mount, .openEvent 0, .message 0 (.snapshot ()), .closeEvent 0 1006 false, .timer 0, .openEvent 1]

theorem truthful_reconnects : ∃ last, replay step unchecked initial reconnects = some last ∧
    last.status = .connected ∧
      ∀ n state, replay step unchecked initial (reconnects.take n) = some state →
        state.mounted = true → (state.status = .connected ↔ state.currentOpen = true) :=
  ⟨_, rfl, rfl, (truthful_iff rfl).mpr rfl⟩

/-- StrictMode mounts the hook twice; the first socket reports its end after the second has opened. -/
def strictMode : List (HookAction Unit Unit) :=
  [.mount, .unmount, .mount, .openEvent 1, .closeEvent 0 1006 false]

theorem strictMode_reconnecting : ∃ state, replay step unchecked initial strictMode = some state ∧
    state.mounted = true ∧ state.currentOpen = true ∧ state.status = .reconnecting ∧
      ¬ (state.status = .connected ↔ state.currentOpen = true) :=
  ⟨_, rfl, rfl, rfl, rfl, by decide⟩

end Hook

end Taskfire.Dashboard
