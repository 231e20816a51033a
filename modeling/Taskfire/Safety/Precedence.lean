import Taskfire.Safety.Ancestors
import Taskfire.Safety.Reports
import Taskfire.Snapshot.Marks

/-!
# Handlers run after those of the dependencies

Rows forget: a retry makes a completed job pending, and a record that is still on the way may mark it
again.  What a handler returned is not forgotten.  A worker comes to the handler of a record only
after it found the dependencies of the record completed, and a row that is found completed had a
handler that returned nil.  So whatever happens to the rows, no handler of a job starts before
handlers of all its ancestors have returned nil.
-/

namespace Taskfire

open Taskfire.Library Relation
open Engine (Stored storedDeps)

/-- Jobs are only created on jobs that exist. -/
def DependsOnJobs (state : SystemState) (action : SystemAction) : Prop :=
  Starting Entry.isRooted action ∧ ∀ params, called state action = some (.insertJob params) →
    ∀ dep ∈ params.dependencies, state.store.jobs dep ≠ none

theorem starting_of_rooted {action : SystemAction} (starting : Starting Entry.isRooted action) :
    Starting Entry.isTaskfire action := by
  cases action with
  | spawn thread entry => exact isTaskfire_of_isRooted starting
  | exec | tick | crash => exact trivial

/-! ## What a thread has found -/

/-- The terms under which jobs may be retried and dependencies are checked. -/
def Terms.checking : Terms := ⟨True, True⟩

/-- A thread with a record has noted it, and has found its dependencies completed once it is past
marking the row active. -/
structure Backed (session : Session) (note : Note) : Prop where
  record : session.token ≠ .absent →
    ∃ id dependencies, session.job = some id ∧ note.record = some (id, dependencies)
  marked : session.stage = .claimed → session.token ≠ .owed → note.ready = true
  tried : session.attempt ≠ .due → session.token ≠ .absent ∧ note.ready = true

/-- What is known of a thread at a call. -/
structure Calling (proc : Processor) (session : Session) (note : Note) (c : Call) : Prop where
  permitted : (Discipline.lax proc).permits session c
  ordered : session.mayCall c
  noted : note.permits .checking c

namespace Backed

variable {proc : Processor} {session : Session} {note : Note} {env : Env} {stores : Stores}

theorem rest : Backed .rest .blank where
  record := fun present => absurd rfl present
  marked := fun claimed => Stage.noConfusion claimed
  tried := fun begun => absurd rfl begun

theorem entered (entry : Entry) (rooted : entry.isRooted = true) : Backed entry.session .blank := by
  cases entry with
  | create | delete | retry | work | poll =>
    exact ⟨fun present => absurd rfl present, Stage.noConfusion, fun begun => absurd rfl begun⟩
  | cron | scheduleDelayed | enqueue | enqueueJob | enqueueDelayedJob | drain | claimAndRelease =>
    exact absurd rooted Bool.false_ne_true

/-- A thread that is told of a row has got its record. -/
theorem obtained {row : Row} {id : JobId} (backed : Backed session note)
    (absent : session.token = .absent) (on : session.job = some id) :
    Backed (session.obtained row) (.obtained id row.dependencies) where
  record := fun _ => ⟨id, row.dependencies, on, rfl⟩
  marked := fun _ past => absurd rfl past
  tried := fun begun => absurd absent (backed.tried begun).1

theorem wrote {job : Job} (reply : Except StoreError Unit) (backed : Backed session note)
    (calling : Calling proc session note (.updateJobStatus job)) :
    Backed (session.wrote job.status reply) { note with due := some job.status } := by
  obtain ⟨_, opened, _⟩ := calling.permitted
  obtain ⟨mark, _⟩ := calling.ordered
  obtain ⟨_, _, _, gate⟩ := calling.noted
  have present : session.token ≠ .absent := by
    intro absent
    simp [absent, Token.isOpen] at opened
  -- Each status that is written is one of a thread that has found the dependencies completed.
  have ready : note.ready = true := by
    cases status : job.status with
    | active => exact gate trivial (.inl status)
    | completed => exact gate trivial (.inr status)
    | pending | dead =>
      have failed : session.attempt = .failed := by
        simpa [Role.mayMark, status] using mark
      exact (backed.tried (by simp [failed])).2
    | failed => simp [Role.mayMark, status] at mark
  refine ⟨fun _ => backed.record present, fun _ _ => ready, fun begun => ⟨?_, ready⟩⟩
  cases reply with
  | error error => exact Token.noConfusion
  | ok done =>
    show Token.marked job.status ≠ .absent
    cases job.status <;> exact Token.noConfusion

theorem advanceCommand {command : Command} {reply : Except StoreError Unit}
    (backed : Backed session note) (calling : Calling proc session note (.command command)) :
    Backed (session.advanceCommand command reply) note := by
  cases command with
  | zadd key score member =>
    cases reply with
    | error error => exact backed
    | ok done =>
      have present : session.token ≠ .absent := by
        intro absent
        have permitted := calling.permitted
        cases key with
        | dlq => simp [Discipline.permits, Discipline.permitsCommand, absent, Token.isOpen] at permitted
        | lane | delayed =>
          simp [Discipline.permits, Discipline.permitsCommand, absent, Token.isOpen] at permitted
      cases key with
      | dlq =>
        refine ⟨fun _ => backed.record present, fun claimed _ => ?_, fun begun =>
          ⟨Token.noConfusion, (backed.tried begun).2⟩⟩
        obtain ⟨_, _, dying | unmarked | ⟨bare, _⟩⟩ := calling.permitted
        · exact backed.marked claimed (by simp [dying])
        · exact backed.marked claimed (by simp [unmarked])
        · exact bare.elim
      | lane | delayed =>
        -- Whoever puts a claimed record back does not hold the claim for a run any more.
        refine ⟨fun _ => backed.record present, fun claimed => ?_, fun begun =>
          ⟨Token.noConfusion, (backed.tried begun).2⟩⟩
        simp only [Session.advanceCommand, Session.placed, Stage.putBack, Except.isOk, Except.toBool,
          if_true] at claimed
        split at claimed
        · cases claimed
        · next other => exact absurd claimed other
  | hdelProcessing id =>
    refine ⟨backed.record, fun claimed => ?_, backed.tried⟩
    simp only [Session.advanceCommand, Session.unlisted, Stage.unlisted] at claimed
    split at claimed <;> cases claimed
  | delLock id => exact ⟨backed.record, Stage.noConfusion, backed.tried⟩
  | zrem | lpushDone | ltrimDone | publish => exact backed

/-- The handler is only looked up, started and awaited with the dependencies found completed. -/
theorem ready_of_handles {job : Job} {attempt : Attempt} (backed : Backed session note)
    (handles : Discipline.mayHandle session job attempt) :
    session.token ≠ .absent ∧ note.ready = true := by
  obtain ⟨⟨_, opened, _⟩, past, claimed, _⟩ := handles
  refine ⟨?_, backed.marked claimed past⟩
  intro absent
  simp [absent, Token.isOpen] at opened

theorem advance {c : Call} (backed : Backed session note) (calling : Calling proc session note c) :
    Backed (session.advance c (perform env stores c).1)
      (note.advance c (perform env stores c).1) := by
  generalize replied : (perform env stores c).1 = reply
  cases c with
  | insertJob params =>
    obtain ⟨on, absent⟩ := calling.permitted
    cases reply with
    | error error => exact backed
    | ok row => exact backed.obtained absent on
  | cancelJob id =>
    obtain error | _ | row := reply
    · exact backed
    · exact backed
    · exact ⟨backed.record, Stage.noConfusion, backed.tried⟩
  | requeueJob id resetRetries =>
    obtain ⟨on, absent⟩ := calling.permitted
    obtain error | _ | row := reply
    · exact backed
    · exact backed
    · exact backed.obtained absent on
  | updateJobStatus job => exact backed.wrote reply calling
  | depStatuses ids =>
    cases reply with
    | error error => exact backed
    | ok statuses =>
      have kept (ready : note.ready = true) : (note.ready || note.finds ids statuses) = true := by
        rw [ready]
        rfl
      exact ⟨backed.record, fun claimed past => kept (backed.marked claimed past), fun begun =>
        ⟨(backed.tried begun).1, kept (backed.tried begun).2⟩⟩
  | command command =>
    have moved : Backed (session.advanceCommand command reply) note := backed.advanceCommand calling
    cases command with
    | publish event => exact ⟨moved.record, moved.marked, moved.tried⟩
    | _ => exact moved
  | claim =>
    obtain ⟨_, due⟩ := calling.permitted
    obtain error | _ | json | content := reply
    · exact backed
    · exact backed
    · exact ⟨fun _ => ⟨json.id, json.toJob.dependencies, rfl, rfl⟩, fun _ past => absurd rfl past,
        fun begun => absurd due begun⟩
    · exact absurd rfl (perform_wellFormed env stores .claim (.text content) replied)
  | randomUUID =>
    obtain ⟨_, _, due, absent | ⟨_, unrooted⟩⟩ := calling.permitted
    · exact ⟨fun present => absurd absent present, backed.marked, fun begun => absurd due begun⟩
    · exact absurd trivial unrooted
  | findHandler job =>
    have ready := backed.ready_of_handles calling.permitted
    cases reply with
    | true => exact backed
    | false => exact ⟨backed.record, backed.marked, fun _ => ready⟩
  | startHandler job =>
    exact ⟨backed.record, backed.marked, fun _ => backed.ready_of_handles calling.permitted⟩
  | awaitHandler job =>
    have ready := backed.ready_of_handles calling.permitted
    cases reply <;> exact ⟨backed.record, backed.marked, fun _ => ready⟩
  | getJob | drainDelayed | zscan | now | scanPages | backoff | deliver | count => exact backed

end Backed

/-! ## What has been started -/

section Calls

variable {env : Env} {stores : Stores} {id : JobId}

theorem perform_starts (c : Call) (started : 0 < stores.ledger.started id) :
    0 < (perform env stores c).2.ledger.started id := by
  by_cases quiet : c.startsNothing
  · rw [perform_started env stores quiet]
    exact started
  · cases c with
    | startHandler job =>
      have count : (perform env stores (.startHandler job)).2.ledger.started =
          Function.update stores.ledger.started job.id (stores.ledger.started job.id + 1) := by
        simp [perform, failed?, performStore, Ledger.noteStart]
      rw [count, Function.update_apply]
      split
      · omega
      · exact started
    | _ => exact absurd trivial quiet

/-- Only the start of its handler starts a job. -/
theorem starts_cases (c : Call) (started : 0 < (perform env stores c).2.ledger.started id) :
    0 < stores.ledger.started id ∨ ∃ job : Job, c = .startHandler job ∧ job.id = id := by
  by_cases quiet : c.startsNothing
  · rw [perform_started env stores quiet] at started
    exact .inl started
  · cases c with
    | startHandler job =>
      by_cases same : job.id = id
      · exact .inr ⟨job, rfl, same⟩
      · left
        simpa [perform, failed?, performStore, Ledger.noteStart,
          Function.update_of_ne (Ne.symm same)] using started
    | _ => exact absurd trivial quiet

theorem startHandler_starts (job : Job) :
    0 < (perform env stores (.startHandler job)).2.ledger.started job.id := by
  simp [perform, failed?, performStore, Ledger.noteStart]

/-- Only the return of its handler makes a job succeed. -/
theorem succeeds_cases (c : Call)
    (succeeded : (perform env stores c).2.ledger.succeeded id = true) :
    stores.ledger.succeeded id = true ∨ ∃ job : Job, c = .awaitHandler job ∧ job.id = id := by
  obtain ⟨_, _, _, performed⟩ | performed := perform_cases env stores c
  · rw [performed] at succeeded
    exact .inl succeeded
  · rw [performed] at succeeded
    cases c with
    | cancelJob job =>
      simp only [performStore] at succeeded
      split at succeeded <;> exact .inl succeeded
    | command command =>
      cases command with
      | zadd key score member =>
        have same : (stores.ledger.noteZadd key member).succeeded = stores.ledger.succeeded := by
          simp only [Ledger.noteZadd]
          split <;> rfl
        exact .inl (same ▸ succeeded)
      | _ => exact .inl succeeded
    | awaitHandler job =>
      by_cases same : job.id = id
      · exact .inr ⟨job, rfl, same⟩
      · left
        simp only [performStore] at succeeded
        split at succeeded
        · simpa [Ledger.noteSuccess, Function.update_of_ne (Ne.symm same)] using succeeded
        · exact succeeded
    | _ => exact .inl succeeded

end Calls

/-- The dependencies of the record the note is about had handlers that returned nil, if the note
says that they are completed. -/
def Note.vouches (stores : Stores) (note : Note) : Prop :=
  ∀ id dependencies, note.record = some (id, dependencies) → note.ready = true →
    ∀ dep ∈ dependencies, stores.ledger.succeeded dep = true

theorem obtained_vouches (stores : Stores) (id : JobId) (dependencies : List JobId) :
    (Note.obtained id dependencies).vouches stores := by
  intro _ _ record ready dep listed
  cases record
  rw [List.isEmpty_iff.mp ready] at listed
  cases listed

theorem advance_vouches {note : Note} {env : Env} {stores : Stores} {c : Call}
    (exist : ∀ id dep, Stored stores.jobs id dep → stores.jobs dep ≠ none) (sound : stores.Sound)
    (knows : note.knows stores.jobs) (vouches : note.vouches (perform env stores c).2) :
    (note.advance c (perform env stores c).1).vouches (perform env stores c).2 := by
  cases c with
  | insertJob params =>
    cases (perform env stores (.insertJob params)).1 with
    | error error => exact vouches
    | ok row => exact obtained_vouches _ _ _
  | requeueJob id resetRetries =>
    obtain error | _ | row := (perform env stores (.requeueJob id resetRetries)).1
    · exact vouches
    · exact vouches
    · exact obtained_vouches _ _ _
  | claim =>
    obtain error | _ | json | content := (perform env stores .claim).1
    · exact vouches
    · exact vouches
    · exact obtained_vouches _ _ _
    · exact vouches
  | depStatuses ids =>
    obtain ⟨reply, _, failing, performed⟩ | performed := perform_cases env stores (.depStatuses ids)
    · cases failing
      rw [performed] at vouches ⊢
      exact vouches
    · rw [performed] at vouches ⊢
      intro id dependencies record ready dep listed
      -- Either it was ready before, or these replies have made it so.
      obtain already | found := Bool.or_eq_true .. ▸ ready
      · exact vouches id dependencies record already dep listed
      · obtain ⟨same, completed⟩ := Bool.and_eq_true .. ▸ found
        have asked : dependencies = ids := by simpa [show note.record = _ from record] using same
        have stored : Stored stores.jobs id dep := (stored_known (knows id _ record)).mpr listed
        obtain ⟨row, row_found⟩ := Option.ne_none_iff_exists'.mp (exist id dep stored)
        exact sound.rows dep row row_found
          (all_depStatuses.mp completed dep (asked ▸ listed) row row_found)
  | command command => cases command <;> exact vouches
  | _ => exact vouches

/-! ## One step -/

/-- What holds of the threads. -/
structure Minding (proc : Processor) (state : NotedState) : Prop where
  conforming : Conforming (.lax proc) state.erase
  ordered : ∀ thread, Ordered (state.threads thread).session.1 (state.threads thread).program
  backed : ∀ thread, Backed (state.threads thread).session.1 (state.note thread)

/-- What holds of the handlers. -/
structure Preceded (state : NotedState) : Prop where
  exist : ∀ id dep, Stored state.store.jobs id dep → state.store.jobs dep ≠ none
  vouches : ∀ thread, (state.note thread).vouches state.store
  running : ∀ thread, (state.threads thread).session.1.attempt = .running →
    ∀ id, (state.threads thread).session.1.job = some id → 0 < state.store.ledger.started id
  started : ∀ id, 0 < state.store.ledger.started id → ∃ dependencies,
    state.store.jobs.dependencies id = some dependencies ∧
      ∀ dep ∈ dependencies, state.store.ledger.succeeded dep = true
  succeeded : ∀ id, state.store.ledger.succeeded id = true → 0 < state.store.ledger.started id

section Step

variable {proc : Processor} {before after : NotedState} {action : SystemAction}

theorem Minding.calling {thread : Nat} {c : Call} {next : c.Reply → Prog Result}
    (minding : Minding proc before) (grounded : Grounded .checking before)
    (program : (before.threads thread).program = .call c next) :
    Calling proc (before.threads thread).session.1 (before.note thread) c where
  permitted := (program ▸ minding.conforming thread : Completes _ _ (.call c next)).1
  ordered := (program ▸ minding.ordered thread : Ordered _ (.call c next)).1
  noted := grounded.permits program

theorem minding_step (minding : Minding proc before) (grounded : Grounded .checking before)
    (starting : Starting Entry.isRooted action)
    (stepped : (noted proc).step before action = some after) : Minding proc after where
  conforming := by
    apply conforming_step minding.conforming (noted_erase stepped)
    · intro thread entry acts
      subst acts
      exact @lax_admissible proc thread entry starting
    · exact fun _ _ _ strict => strict.elim
  ordered := by
    apply Machine.step_follows (noted_erase stepped) minding.ordered
    · exact fun awaits => Token.noConfusion awaits.1
    · intro thread entry acts
      subst acts
      exact entry.ordered (isTaskfire_of_isRooted starting)
    · exact fun _ _ _ _ _ => trivial
  backed := by
    apply Machine.step_threads (fun thread => Backed thread.session.1 thread.session.2) stepped
      minding.backed Backed.rest
    · intro thread entry acts
      subst acts
      exact Backed.entered entry starting
    · intro thread env session c next acts shape backed
      have calling := minding.calling grounded (congrArg Thread.program shape)
      simp only [State.note, shape] at calling
      subst acts
      obtain ⟨_, _, program, moved⟩ := Machine.step_exec stepped
      rw [shape] at program
      cases program
      exact backed.advance calling

/-- A call while the handler runs leaves the thread with its job. -/
theorem running_call {session : Session} {env : Env} {stores : Stores} {c : Call} {id : JobId}
    (permitted : (Discipline.lax proc).permits session c)
    (running : session.attempt = .running → ∀ id, session.job = some id →
      0 < stores.ledger.started id)
    (runs : (session.advance c (perform env stores c).1).attempt = .running)
    (on : (session.advance c (perform env stores c).1).job = some id) :
    0 < (perform env stores c).2.ledger.started id := by
  have kept (attempt : session.attempt = .running) (same : session.job = some id) :
      0 < (perform env stores c).2.ledger.started id :=
    perform_starts c (running attempt id same)
  cases c with
  | startHandler job =>
    obtain ⟨⟨named, _⟩, _⟩ := permitted
    cases named.symm.trans on
    exact startHandler_starts job
  | insertJob params =>
    cases replied : (perform env stores (.insertJob params)).1 <;> rw [replied] at runs on <;>
      exact kept runs on
  | cancelJob id | requeueJob id resetRetries =>
    generalize (perform env stores _).1 = reply at runs on
    obtain error | _ | row := reply <;> exact kept runs on
  | claim =>
    obtain ⟨_, due⟩ := permitted
    generalize (perform env stores _).1 = reply at runs on
    obtain error | _ | member := reply
    · exact kept runs on
    · exact kept runs on
    · cases due.symm.trans runs
  | command command =>
    generalize (perform env stores _).1 = reply at runs on
    cases command with
    | zadd key score member => cases reply <;> cases key <;> exact kept runs on
    | _ => exact kept runs on
  | randomUUID =>
    obtain ⟨_, _, due, _⟩ := permitted
    cases due.symm.trans runs
  | findHandler job =>
    generalize (perform env stores _).1 = found at runs on
    cases found with
    | true => exact kept runs on
    | false => cases runs
  | awaitHandler job =>
    generalize (perform env stores _).1 = outcome at runs on
    cases outcome <;> cases runs
  | _ => exact kept runs on

/-- No step takes a success or a start back. -/
theorem noted_history (stepped : (noted proc).step before action = some after) (id : JobId) :
    (before.store.ledger.succeeded id = true → after.store.ledger.succeeded id = true) ∧
      (0 < before.store.ledger.started id → 0 < after.store.ledger.started id) := by
  obtain ⟨_, _, ledger⟩ | ⟨thread, env, c, next, _, _, moved⟩ := noted_store stepped
  · rw [ledger]
    exact ⟨fun succeeded => succeeded, fun started => started⟩
  · subst moved
    exact ⟨perform_succeeded c, perform_starts c⟩

theorem preceded_step (preceded : Preceded before) (minding : Minding proc before)
    (grounded : Grounded .checking before) (sound : before.store.Sound)
    (depends : DependsOnJobs before.erase action)
    (stepped : (noted proc).step before action = some after) : Preceded after where
  exist := exist_step preceded.exist depends.2 stepped
  vouches := by
    have vouched (thread : Nat) : (before.note thread).vouches after.store := by
      intro id dependencies record ready dep listed
      exact (noted_history stepped dep).1 (preceded.vouches thread id dependencies record ready dep listed)
    apply Machine.step_threads (fun thread => thread.session.2.vouches after.store) stepped vouched
    · intro _ _ none
      cases none
    · intro _ _ _ _ _ none
      cases none
    · intro thread env session c next acts shape vouches
      subst acts
      obtain ⟨_, _, program, moved⟩ := Machine.step_exec stepped
      have knows := grounded.known thread
      rw [shape] at program
      simp only [State.note, shape] at knows
      cases program
      subst moved
      exact advance_vouches preceded.exist sound knows vouches
  running := by
    have ran (thread : Nat) (running : (before.threads thread).session.1.attempt = .running)
        (id : JobId) (on : (before.threads thread).session.1.job = some id) :
        0 < after.store.ledger.started id :=
      (noted_history stepped id).2 (preceded.running thread running id on)
    apply Machine.step_threads (fun thread => thread.session.1.attempt = .running →
      ∀ id, thread.session.1.job = some id → 0 < after.store.ledger.started id) stepped ran
    · exact Attempt.noConfusion
    · intro thread entry acts runs
      subst acts
      have resting : entry.session.attempt = .due := by cases entry <;> rfl
      cases resting.symm.trans runs
    · intro thread env session c next acts shape _ runs id on
      have calling := minding.calling grounded (congrArg Thread.program shape)
      have running := preceded.running thread
      simp only [State.note, shape] at calling running
      subst acts
      obtain ⟨_, _, program, moved⟩ := Machine.step_exec stepped
      rw [shape] at program
      cases program
      subst moved
      exact running_call calling.permitted running runs on
  started := by
    have kept (id : JobId) (started : 0 < before.store.ledger.started id) : ∃ dependencies,
        after.store.jobs.dependencies id = some dependencies ∧
          ∀ dep ∈ dependencies, after.store.ledger.succeeded dep = true := by
      obtain ⟨dependencies, known, succeeded⟩ := preceded.started id started
      exact ⟨dependencies, noted_dependencies stepped known, fun dep listed =>
        (noted_history stepped dep).1 (succeeded dep listed)⟩
    intro id started
    obtain ⟨_, _, ledger⟩ | ⟨thread, env, c, next, _, program, moved⟩ := noted_store stepped
    · exact kept id (ledger ▸ started)
    · have rewritten := moved
      subst moved
      obtain earlier | ⟨job, starts, same⟩ := starts_cases c started
      · exact kept id earlier
      · subst starts same
        -- The worker that starts the handler vouches for the dependencies of its record.
        have calling := minding.calling grounded program
        have backed := minding.backed thread
        obtain ⟨present, ready⟩ := backed.ready_of_handles calling.permitted
        obtain ⟨id, dependencies, on, record⟩ := backed.record present
        obtain ⟨⟨named, _⟩, _⟩ := calling.permitted
        cases named.symm.trans on
        refine ⟨dependencies, noted_dependencies stepped (grounded.known thread _ _ record), ?_⟩
        intro dep listed
        exact (noted_history stepped dep).1
          (preceded.vouches thread _ _ record ready dep listed)
  succeeded := by
    intro id succeeded
    obtain ⟨_, _, ledger⟩ | ⟨thread, env, c, next, _, program, moved⟩ := noted_store stepped
    · rw [ledger] at succeeded ⊢
      exact preceded.succeeded id succeeded
    · subst moved
      obtain earlier | ⟨job, awaits, same⟩ := succeeds_cases c succeeded
      · exact perform_starts c (preceded.succeeded id earlier)
      · subst awaits same
        obtain ⟨⟨named, _⟩, _, _, running⟩ := (minding.calling grounded program).permitted
        exact perform_starts _ (preceded.running thread running job.id named)

end Step

/-! ## Every run -/

section Run

variable {proc : Processor} {id ancestor : JobId} {last : SystemState}

theorem preceded_reach (production : proc.depChecker = some Engine.checker)
    (run : (taskfire proc).Run DependsOnJobs (beginning proc) last) :
    ∃ state : NotedState, state.erase = last ∧ Preceded state := by
  obtain ⟨state, erased, _, _, _, preceded⟩ := noted_invariant
    (fun state => (taskfire proc).Run DependsOnJobs (beginning proc) state.erase ∧
      Minding proc state ∧ Preceded state) run
    (fun _ _ entry depends => entry.announces depends.1 (fun _ => production) fun _ _ _ => trivial)
    (by
      refine ⟨.refl _, ⟨conforming_initial _ proc _, ?_, fun _ => Backed.rest⟩, ?_⟩
      · exact fun _ awaits => Token.noConfusion awaits.1
      · refine ⟨?_, ?_, fun _ => Attempt.noConfusion, ?_, ?_⟩
        · intro id dep stored
          cases stored
        · intro _ _ _ none
          cases none
        · intro id started
          cases started
        · intro id succeeded
          cases succeeded)
    (by
      intro before action after grounded held depends stepped
      obtain ⟨reached, minding, preceded⟩ := held
      have sound : before.store.Sound :=
        sound_reach (reached.mono fun _ _ depends => starting_of_rooted depends.1)
      exact ⟨.tail reached depends (noted_erase stepped),
        minding_step minding grounded depends.1 stepped,
        preceded_step preceded minding grounded sound depends stepped⟩)
  exact ⟨state, erased, preceded⟩

/-- Where jobs are only created on jobs that exist, no handler of a job has been started before
handlers of all its ancestors returned nil, whatever fails and whichever jobs are cancelled and
retried. -/
theorem ancestors_succeeded (production : proc.depChecker = some Engine.checker)
    (run : (taskfire proc).Run DependsOnJobs (beginning proc) last)
    (started : 0 < last.store.ledger.started id)
    (path : TransGen (Stored last.store.jobs) id ancestor) :
    last.store.ledger.succeeded ancestor = true := by
  obtain ⟨state, erased, preceded⟩ := preceded_reach production run
  subst erased
  have direct (node dep : JobId) (started : 0 < state.store.ledger.started node)
      (stored : Stored state.store.jobs node dep) : state.store.ledger.succeeded dep = true := by
    obtain ⟨dependencies, known, succeeded⟩ := preceded.started node started
    exact succeeded dep ((stored_known known).mp stored)
  induction path with
  | single stored => exact direct _ _ started stored
  | tail _ stored inductionHypothesis =>
    exact direct _ _ (preceded.succeeded _ inductionHypothesis) stored

end Run

/-! ## An example -/

theorem depends_of_builds {state : SystemState} {action : SystemAction}
    (builds : Builds state action) : DependsOnJobs state action :=
  ⟨builds.1.rooted, builds.2⟩

/-- A worker runs job "b" after job "a", on which it depends. -/
theorem ancestors_succeeded_once : ∃ last : SystemState,
    0 < last.store.ledger.started "b" ∧ TransGen (Stored last.store.jobs) "b" "a" ∧
      last.store.ledger.succeeded "a" = true := by
  have reached : ∃ last, (taskfire .wired).Run DependsOnJobs (beginning .wired) last ∧
      (decide (0 < last.store.ledger.started "b") &&
        decide ("a" ∈ storedDeps last.store.jobs "b")) = true :=
    replay_reaches builds (fun _ _ checked => depends_of_builds (builds_of_checked checked))
      (.spawn 0 (.create .plain) :: calls 0 5 (.calm "a") ++
        .spawn 1 .work :: calls 1 16 (.calm "a") ++
        .spawn 0 (.create .dependent) :: calls 0 5 (.calm "b") ++
        .spawn 1 .work :: calls 1 12 (.calm "b")) _ (by decide +kernel)
  obtain ⟨last, run, checked⟩ := reached
  obtain ⟨started, listed⟩ := Bool.and_eq_true .. ▸ checked
  have begun := of_decide_eq_true started
  have dependent : "a" ∈ storedDeps last.store.jobs "b" := of_decide_eq_true listed
  have path : TransGen (Stored last.store.jobs) "b" "a" := .single dependent
  exact ⟨last, begun, path, ancestors_succeeded rfl run begun path⟩

end Taskfire
