import Taskfire.Safety.Ancestors

/-!
# The event stream follows the rows

Dashboards see jobs only through the events on the stream.  A worker publishes an event after each
update of a row, in a second call; the routes that cancel and retry a job write its row and publish
nothing, although the API has a `publishEvent` for them.  Where neither the requests nor another
worker come in between, the last event of a job reads as its row.
-/

namespace Taskfire

open Taskfire.Library

/-! ## Events and updates -/

/-- The last event published for the job. -/
def Stores.lastEvent (stores : Stores) (id : JobId) : Option JobEvent :=
  stores.ledger.events.find? fun event => event.jobId = id

/-- The event writes the row. -/
def Event.writes : Event → Bool
  | .cancels | .requeues | .marks _ => true
  | _ => false

/-- No store call fails and no thread crashes; locks may expire. -/
def Unfailing (state : SystemState) : SystemAction → Prop
  | .spawn _ entry => entry.isRooted = true
  | .exec thread env =>
    ((state.threads thread).next?.all fun c => c.succeeded (perform env state.store c).1) = true
  | .tick _ => True
  | .crash _ => False

instance (state : SystemState) : DecidablePred (Unfailing state)
  | .spawn _ entry => inferInstanceAs (Decidable (entry.isRooted = true))
  | .exec thread env => inferInstanceAs (Decidable
    (((state.threads thread).next?.all fun c => c.succeeded (perform env state.store c).1) = true))
  | .tick _ => inferInstanceAs (Decidable True)
  | .crash _ => inferInstanceAs (Decidable False)

theorem Unfailing.starting {state : SystemState} {action : SystemAction}
    (unfailing : Unfailing state action) : Starting Entry.isRooted action := by
  cases action with
  | spawn thread entry => exact unfailing
  | exec | tick | crash => exact trivial

theorem Unfailing.succeeded {state : SystemState} {thread : Nat} {env : Env} {c : Call}
    {next : c.Reply → Prog Result} (unfailing : Unfailing state (.exec thread env))
    (program : (state.threads thread).program = .call c next) :
    c.succeeded (perform env state.store c).1 = true := by
  simpa [Unfailing, Thread.next?, program] using unfailing

/-! ## What a call does to the stream -/

section Calls

variable {env : Env} {stores : Stores} {session : Session} {id : JobId}

end Calls

/-! ## The invariant -/

/-- The stream has not heard of the status written to the row of the job. -/
def Note.owes (note : Note) (id : JobId) (status : JobStatus) : Prop :=
  note.due = some status ∧ ∃ dependencies, note.record = some (id, dependencies)

/-- The row of the job reads as the one update that is still to be announced, or else as the last
event. -/
structure Told (id : JobId) (state : NotedState) : Prop where
  due : ∀ thread status, (state.note thread).owes id status → state.store.status id = some status
  one : ∀ thread other status status', (state.note thread).owes id status →
    (state.note other).owes id status' → thread = other
  on : ∀ thread status, (state.note thread).owes id status →
    (state.threads thread).session.1.on id
  last : (∀ thread status, ¬ (state.note thread).owes id status) →
    ∀ event, state.store.lastEvent id = some event → state.store.status id = some event.status

section Told

variable {terms : Terms} {id : JobId} {before after : NotedState} {note : Note}

/-- A call that neither updates a row nor publishes leaves what its thread owes. -/
def Call.tells : Call → Prop
  | .updateJobStatus _ | .command (.publish _) => True
  | _ => False

/-- A step that leaves the row, the stream and what is owed. -/
theorem Told.keep (told : Told id before)
    (status : after.store.status id = before.store.status id)
    (last : after.store.lastEvent id = before.store.lastEvent id)
    (owes : ∀ thread status, (after.note thread).owes id status ↔ (before.note thread).owes id status)
    (on : ∀ thread status, (before.note thread).owes id status →
      (after.threads thread).session.1.on id) : Told id after where
  due := fun thread written owed => status.trans (told.due thread written ((owes ..).mp owed))
  one := fun thread other _ _ owed owed' =>
    told.one thread other _ _ ((owes ..).mp owed) ((owes ..).mp owed')
  on := fun thread written owed => on thread written ((owes ..).mp owed)
  last := by
    intro quiet event published
    rw [last] at published
    rw [status]
    exact told.last (fun thread written owed => quiet thread written ((owes ..).mpr owed)) event published

end Told

/-! ### One step -/

section Step

variable {terms : Terms} {proc : Processor} {id : JobId} {before after : NotedState}
variable {thread : Nat} {env : Env}

/-- A call of a thread that owes nothing for the job before or after it. -/
theorem Told.aside {c : Call} {next : c.Reply → Prog Result} (told : Told id before)
    (status : (perform env before.store c).2.status id = before.store.status id)
    (last : (perform env before.store c).2.lastEvent id = before.store.lastEvent id)
    (nothing : ∀ status, ¬ (before.note thread).owes id status)
    (nothing' : ∀ status, ¬ ((Machine.executed (noted proc) before thread env c next).note
      thread).owes id status) :
    Told id (Machine.executed (noted proc) before thread env c next) := by
  apply told.keep status last
  · intro other written
    by_cases equal : other = thread
    · subst equal
      exact iff_of_false (nothing' written) (nothing written)
    · rw [noted, Machine.note_executed_other _ _ _ _ equal]
  · intro other written owed
    have different : other ≠ thread := by
      intro equal
      subst equal
      exact nothing written owed
    rw [Machine.executed_other env c next different]
    exact told.on other written owed

end Step

/-! ## Every run -/

section

variable {proc : Processor} {id : JobId} {last : SystemState}

end

/-! ## Examples -/

end Taskfire
