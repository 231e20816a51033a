import Taskfire.Snapshot.Note

/-!
# Records agree with the rows they came from

`noted` is the system with the notes of `Snapshot/Note.lean`.  In each of its runs the records that
wait, and those that threads carry, have the dependencies of their row and no timestamps
(`Grounded`).  The results on rows and events build on this.
-/

namespace Taskfire

open Taskfire.Library

/-! ## What a call does to a row -/

/-- What a call can do to the row of job `id`. -/
inductive RowStep (id : JobId) : Call → Option Row → Option Row → Prop
  | stays {c : Call} {row : Option Row} : RowStep id c row row
  | inserts {params : CreateJobParams} {now : Time}
      (budget : 0 ≤ params.maxRetries ∧ params.maxRetries ≤ 2147483647) : params.id = id →
      RowStep id (.insertJob params) none (some (Row.created params now budget))
  | cancels {row : Row} {now : Time} : row.status ∈ [.pending, .failed, .dead] →
      RowStep id (.cancelJob id) (some row) (some (row.cancelled now))
  | requeues {row : Row} {resetRetries : Bool} : row.status ∈ [.failed, .dead] →
      RowStep id (.requeueJob id resetRetries) (some row) (some (row.requeued resetRetries))
  | updates {job : Job} {row : Row}
      (within : 0 ≤ job.retryCount ∧ job.retryCount ≤ row.maxRetries) : job.id = id →
      RowStep id (.updateJobStatus job) (some row) (some (row.updated job within))

section Rows

variable {id : JobId} {c : Call} {jobs : Jobs}

/-- A statement that writes the row of `job` leaves every other row alone. -/
theorem rowStep_set {job : JobId} {row : Row}
    (own : job = id → RowStep id c (jobs job) (some row)) :
    RowStep id c (jobs id) (jobs.set job row id) := by
  by_cases same : job = id
  · subst same
    rw [Jobs.set_same]
    exact own rfl
  · rw [Jobs.set_other _ _ fun equal => same equal.symm]
    exact .stays

theorem insertJob_row (jobs : Jobs) (params : CreateJobParams) (now : Time) (id : JobId) :
    RowStep id (.insertJob params) (jobs id) ((jobs.insertJob params now).2 id) := by
  simp only [Jobs.insertJob]
  split
  · next budget =>
    split
    · exact .stays
    · next missing =>
      apply rowStep_set
      intro same
      subst same
      rw [missing]
      exact .inserts budget rfl
  · split <;> exact .stays

theorem cancelJob_row (jobs : Jobs) (job : JobId) (now : Time) (id : JobId) :
    RowStep id (.cancelJob job) (jobs id) ((jobs.cancelJob job now).2 id) := by
  simp only [Jobs.cancelJob]
  split
  · exact .stays
  · next row found =>
    split
    · next cancellable =>
      apply rowStep_set
      intro same
      subst same
      rw [found]
      exact .cancels cancellable
    · exact .stays

theorem requeueJob_row (jobs : Jobs) (job : JobId) (resetRetries : Bool) (id : JobId) :
    RowStep id (.requeueJob job resetRetries) (jobs id) ((jobs.requeueJob job resetRetries).2 id) := by
  simp only [Jobs.requeueJob]
  split
  · exact .stays
  · next row found =>
    split
    · next retriable =>
      apply rowStep_set
      intro same
      subst same
      rw [found]
      exact .requeues retriable
    · exact .stays

theorem updateJobStatus_row (jobs : Jobs) (job : Job) (id : JobId) :
    RowStep id (.updateJobStatus job) (jobs id) ((jobs.updateJobStatus job).2 id) := by
  simp only [Jobs.updateJobStatus]
  split
  · exact .stays
  · next row found =>
    split
    · next within =>
      apply rowStep_set
      intro same
      subst same
      rw [found]
      exact .updates within rfl
    · exact .stays

theorem perform_row (env : Env) (stores : Stores) (c : Call) (id : JobId) :
    RowStep id c (stores.jobs id) ((perform env stores c).2.jobs id) := by
  obtain ⟨_, _, _, performed⟩ | performed := perform_cases env stores c
  · rw [performed]
    exact .stays
  · rw [performed]
    cases c with
    | insertJob params => exact insertJob_row stores.jobs params env.now id
    | cancelJob job =>
      have moved := cancelJob_row stores.jobs job env.now id
      simp only [performStore]
      split
      · next row jobs cancelled => rwa [cancelled] at moved
      · exact .stays
    | requeueJob job resetRetries => exact requeueJob_row stores.jobs job resetRetries id
    | updateJobStatus job => exact updateJobStatus_row stores.jobs job id
    | command command => cases command <;> exact .stays
    | awaitHandler job =>
      simp only [performStore]
      split <;> exact .stays
    | _ => exact .stays

/-- The dependencies in a job's row. -/
def Jobs.dependencies (jobs : Jobs) (id : JobId) : Option (List JobId) :=
  (jobs id).map Row.dependencies

/-- No statement changes the dependencies of a row or deletes one. -/
theorem RowStep.dependencies {before after : Option Row} {dependencies : List JobId}
    (step : RowStep id c before after) (known : before.map Row.dependencies = some dependencies) :
    after.map Row.dependencies = some dependencies := by
  cases step with
  | stays => exact known
  | inserts => cases known
  | cancels | requeues | updates => exact known

theorem perform_dependencies (env : Env) (stores : Stores) (c : Call) {dependencies : List JobId}
    (known : stores.jobs.dependencies id = some dependencies) :
    (perform env stores c).2.jobs.dependencies id = some dependencies :=
  (perform_row env stores c id).dependencies known

theorem insertJob_known {env : Env} {stores : Stores} {params : CreateJobParams} {row : Row}
    (replied : (perform env stores (.insertJob params)).1 = .ok row) :
    (perform env stores (.insertJob params)).2.jobs.dependencies params.id =
      some row.dependencies := by
  obtain ⟨reply, _, failing, performed⟩ | performed := perform_cases env stores (.insertJob params)
  · cases failing
    rw [performed] at replied
    cases replied
  · rw [performed] at replied ⊢
    obtain ⟨error, inserted⟩ | ⟨created, _, inserted, _⟩ :=
      stores.jobs.insertJob_cases params env.now
    · simp [performStore, inserted] at replied
    · simp only [performStore, inserted, Except.ok.injEq] at replied ⊢
      simp [Jobs.dependencies, replied]

theorem requeueJob_known {env : Env} {stores : Stores} {resetRetries : Bool} {row : Row}
    (replied : (perform env stores (.requeueJob id resetRetries)).1 = .ok (some row)) :
    (perform env stores (.requeueJob id resetRetries)).2.jobs.dependencies id =
      some row.dependencies := by
  obtain ⟨reply, _, failing, performed⟩ | performed :=
    perform_cases env stores (.requeueJob id resetRetries)
  · cases failing
    rw [performed] at replied
    cases replied
  · rw [performed] at replied ⊢
    obtain refused | ⟨_, requeued, _, _, moved, _⟩ := stores.jobs.requeueJob_cases id resetRetries
    · simp [performStore, refused] at replied
    · simp only [performStore, moved, Except.ok.injEq, Option.some.injEq] at replied ⊢
      simp [Jobs.dependencies, replied]

end Rows

/-! ## What a call does to the records that wait -/

section Waiting

variable {p : Member → Bool} {env : Env} {stores : Stores}

/-- Where no record with the property waits, a call only brings one by putting it there. -/
theorem waiting_perform {c : Call} (none : stores.redis.waiting p = 0)
    (puts : ∀ key score member, c = .command (.zadd key score member) → key ≠ .dlq →
      p member = false) :
    (perform env stores c).2.redis.waiting p = 0 := by
  obtain ⟨_, _, _, performed⟩ | performed := perform_cases env stores c
  · rw [performed]
    exact none
  · rw [performed]
    cases c with
    | cancelJob job =>
      simp only [performStore]
      split <;> exact none
    | claim =>
      obtain ⟨after, script, unclaimed⟩ | ⟨member, owner, after, script, claimed⟩ :=
        stores.redis.claimScript_cases
      · simp only [performStore, script]
        exact Nat.le_zero.mp (none ▸ unclaimed.fewer p)
      · have lost := claimed.fewer p
        simp only [performStore, script]
        omega
    | drainDelayed cutoff maxBatch =>
      -- The promotion moves records and brings none.
      have promoted := stores.redis.drainDelayedScript_promoted cutoff maxBatch env.now.unixMilli
      have fewer := promoted.waiting p
      simp only [performStore]
      omega
    | command command =>
      cases command with
      | zadd key score member =>
        by_cases dlq : key = .dlq
        · subst dlq
          exact Redis.waiting_zadd_dlq.trans none
        · exact (Redis.waiting_zadd_of_not dlq (puts key score member rfl dlq)).trans none
      | zrem key member =>
        by_cases dlq : key = .dlq
        · subst dlq
          exact (Redis.waiting_setZset_dlq p _).trans none
        · have fewer : (stores.redis.zrem key member).waiting p ≤ stores.redis.waiting p :=
            Redis.waiting_zrem_le dlq
          show (stores.redis.zrem key member).waiting p = 0
          omega
      | hdelProcessing | delLock | lpushDone | ltrimDone | publish => exact none
    | awaitHandler job =>
      simp only [performStore]
      split <;> exact none
    | _ => exact none

/-- A claimed record was among those that waited. -/
theorem claimed_lacks {member : Member} (none : stores.redis.waiting p = 0)
    (replied : (perform env stores .claim).1 = .ok (some member)) :
    p member = false ∧ member.id? ≠ Option.none := by
  obtain ⟨reply, _, failing, performed⟩ | performed := perform_cases env stores .claim
  · cases failing
    rw [performed] at replied
    cases replied
  · obtain ⟨after, script, _⟩ | ⟨popped, owner, after, script, claimed⟩ :=
      stores.redis.claimScript_cases
    · simp [performed, performStore, script, Stores.claimReply] at replied
    · simp only [performed, performStore, script, Stores.claimReply, Except.ok.injEq,
        Option.some.injEq] at replied
      subst replied
      have lost := claimed.fewer p
      cases holds : p popped with
      | false => exact ⟨rfl, by simp [claimed.hasId]⟩
      | true =>
        rw [if_pos holds] at lost
        omega

end Waiting

/-! ## The system with notes -/

abbrev NotedState := State Call Call.Reply Stores (Session × Note) Result

def noted (proc : Processor) : Machine Call Call.Reply Stores Env (Session × Note) Entry JobId Result :=
  (taskfire proc).annotated Note.notes

/-- Empty stores, no threads and blank notes. -/
def notedBeginning (proc : Processor) : NotedState := (noted proc).initial .empty

/-- The member is a record, and not one of a row as it was queued. -/
def Member.astray (jobs : Jobs) : Member → Bool
  | .record json =>
    !(json.fresh && decide (jobs.dependencies json.id = some json.toJob.dependencies))
  | .text _ => false

theorem astray_iff {jobs : Jobs} {member : Member} :
    member.astray jobs = false ↔ ∀ id dependencies, member.about = some (id, dependencies) →
      member.fresh = true ∧ jobs.dependencies id = some dependencies := by
  cases member with
  | record json => simp [Member.astray, Member.about, Member.fresh]
  | text content => simp [Member.astray, Member.about]

/-- The record the thread carries has the dependencies of its row. -/
def Note.knows (jobs : Jobs) (note : Note) : Prop :=
  ∀ id dependencies, note.record = some (id, dependencies) → jobs.dependencies id = some dependencies

structure Grounded (terms : Terms) (state : NotedState) : Prop where
  keeps : ∀ thread, Announces terms (state.note thread) (state.threads thread).program
  waiting : state.store.redis.waiting (Member.astray state.store.jobs) = 0
  known : ∀ thread, (state.note thread).knows state.store.jobs

/-! ### One step -/

section Step

variable {terms : Terms} {proc : Processor} {before after : NotedState} {action : SystemAction}

/-- A step of the system with notes is one of the system. -/
theorem noted_erase (stepped : (noted proc).step before action = some after) :
    (taskfire proc).step before.erase action = some after.erase := by
  rw [Machine.step_erase (taskfire proc) Note.notes]
  exact congrArg (Option.map State.erase) stepped

/-- What a step of the system with notes does to the stores. -/
theorem noted_store (stepped : (noted proc).step before action = some after) :
    (after.store.jobs = before.store.jobs ∧ after.store.redis.zset = before.store.redis.zset ∧
      after.store.ledger = before.store.ledger) ∨
      ∃ thread env c next, action = .exec thread env ∧
        (before.threads thread).program = .call c next ∧
        after = Machine.executed (noted proc) before thread env c next := by
  obtain same | ⟨lock, moved⟩ | executed := Machine.step_store stepped
  · rw [same]
    exact .inl ⟨rfl, rfl, rfl⟩
  · rw [moved]
    exact .inl ⟨rfl, rfl, rfl⟩
  · exact .inr executed

theorem noted_row (stepped : (noted proc).step before action = some after) (id : JobId) :
    after.store.jobs id = before.store.jobs id ∨
      ∃ thread env c next, action = .exec thread env ∧
        (before.threads thread).program = .call c next ∧
        RowStep id c (before.store.jobs id) (after.store.jobs id) := by
  obtain ⟨jobs, _, _⟩ | ⟨thread, env, c, next, acts, program, moved⟩ := noted_store stepped
  · exact .inl (by rw [jobs])
  · subst moved
    exact .inr ⟨thread, env, c, next, acts, program, perform_row env before.store c id⟩

theorem noted_dependencies (stepped : (noted proc).step before action = some after) {id : JobId}
    {dependencies : List JobId} (known : before.store.jobs.dependencies id = some dependencies) :
    after.store.jobs.dependencies id = some dependencies := by
  obtain same | ⟨_, _, _, _, _, _, step⟩ := noted_row stepped id
  · rw [Jobs.dependencies, same]
    exact known
  · exact step.dependencies known

/-- What the call of a thread may be. -/
theorem Grounded.permits (grounded : Grounded terms before) {thread : Nat} {c : Call}
    {next : c.Reply → Prog Result} (program : (before.threads thread).program = .call c next) :
    (before.note thread).permits terms c :=
  (program ▸ grounded.keeps thread : Announces terms _ (.call c next)).1

theorem perform_admits (waiting : before.store.redis.waiting (Member.astray before.store.jobs) = 0)
    (env : Env) (c : Call) : Note.admits c (perform env before.store c).1 := by
  cases c with
  | claim =>
    intro member replied
    obtain ⟨sound, record⟩ := claimed_lacks waiting replied
    cases member with
    | record json => exact ⟨(astray_iff.mp sound _ _ rfl).1, by simp [Member.about]⟩
    | text content => exact absurd rfl record
  | _ => exact trivial

theorem grounded_waiting (grounded : Grounded terms before)
    (stepped : (noted proc).step before action = some after) :
    after.store.redis.waiting (Member.astray after.store.jobs) = 0 := by
  -- What was no stray stays none, since rows keep their dependencies.
  have fewer : after.store.redis.waiting (Member.astray after.store.jobs) ≤
      after.store.redis.waiting (Member.astray before.store.jobs) := by
    apply Redis.waiting_mono
    intro member astray
    by_contra sound
    have kept : member.astray after.store.jobs = false := by
      apply astray_iff.mpr
      intro id dependencies about
      obtain ⟨fresh, known⟩ := astray_iff.mp (by simpa using sound) id dependencies about
      exact ⟨fresh, noted_dependencies stepped known⟩
    simp [kept] at astray
  have none : after.store.redis.waiting (Member.astray before.store.jobs) = 0 := by
    obtain ⟨_, zset, _⟩ | ⟨thread, env, c, next, _, program, moved⟩ := noted_store stepped
    · rw [Redis.waiting, zset]
      exact grounded.waiting
    · subst moved
      apply waiting_perform grounded.waiting
      intro key score member puts lane
      subst puts
      obtain ⟨_, waits⟩ := grounded.permits program
      obtain ⟨fresh, about⟩ := waits lane
      apply astray_iff.mpr
      intro id dependencies named
      exact ⟨fresh, grounded.known thread id dependencies (about.symm.trans named)⟩
  omega

/-- A thread that gets a record gets one of a row. -/
theorem advance_knows {note : Note} {env : Env} {stores : Stores} {c : Call}
    (waiting : stores.redis.waiting (Member.astray stores.jobs) = 0)
    (knows : note.knows (perform env stores c).2.jobs) :
    (note.advance c (perform env stores c).1).knows (perform env stores c).2.jobs := by
  -- Only the replies that bring a record change what the note is about.
  have obtained {id : JobId} {dependencies : List JobId}
      (known : (perform env stores c).2.jobs.dependencies id = some dependencies) :
      (Note.obtained id dependencies).knows (perform env stores c).2.jobs := by
    intro _ _ same
    cases same
    exact known
  cases c with
  | insertJob params =>
    cases replied : (perform env stores (.insertJob params)).1 with
    | error error => exact knows
    | ok row =>
      apply obtained
      exact insertJob_known replied
  | requeueJob id resetRetries =>
    cases replied : (perform env stores (.requeueJob id resetRetries)).1 with
    | error error => exact knows
    | ok found =>
      cases found with
      | none => exact knows
      | some row =>
        apply obtained
        exact requeueJob_known replied
  | claim =>
    cases replied : (perform env stores .claim).1 with
    | error error => exact knows
    | ok found =>
      obtain _ | member := found
      · exact knows
      · cases member with
        | text content => exact knows
        | record json =>
          apply obtained
          have sound := (claimed_lacks waiting replied).1
          exact perform_dependencies env stores .claim (astray_iff.mp sound _ _ rfl).2
  | depStatuses ids =>
    cases (perform env stores (.depStatuses ids)).1 <;> exact knows
  | command command => cases command <;> exact knows
  | _ => exact knows

theorem grounded_step (grounded : Grounded terms before)
    (stepped : (noted proc).step before action = some after)
    (entries : ∀ thread entry, action = .spawn thread entry →
      Announces terms .blank (entry.program proc)) : Grounded terms after where
  keeps := Machine.step_notes stepped grounded.keeps rfl entries fun _ env c _ =>
    perform_admits grounded.waiting env c
  waiting := grounded_waiting grounded stepped
  known := by
    have known (thread : Nat) : (before.note thread).knows after.store.jobs := by
      intro id dependencies record
      exact noted_dependencies stepped (grounded.known thread id dependencies record)
    apply Machine.step_threads (fun thread => thread.session.2.knows after.store.jobs) stepped known
    · intro _ _ none
      cases none
    · intro _ _ _ _ _ none
      cases none
    · intro thread env session c next acts shape knows
      subst acts
      obtain ⟨_, _, program, moved⟩ := Machine.step_exec stepped
      rw [shape] at program
      cases program
      subst moved
      exact advance_knows grounded.waiting knows

end Step

/-! ### Every run -/

theorem grounded_beginning (terms : Terms) (proc : Processor) :
    Grounded terms (notedBeginning proc) where
  keeps := fun _ => rfl
  waiting := by
    simp [notedBeginning, Machine.initial, Stores.empty, Redis.empty, Redis.waiting]
  known := fun _ _ _ none => nomatch none

/-- An invariant of the system with notes, read in the states of the system itself. -/
theorem noted_invariant {terms : Terms} {proc : Processor} {last : SystemState}
    {runs : SystemState → SystemAction → Prop} (holds : NotedState → Prop)
    (run : (taskfire proc).Run runs (beginning proc) last)
    (entries : ∀ state thread entry, runs state (.spawn thread entry) →
      Announces terms .blank (entry.program proc))
    (base : holds (notedBeginning proc))
    (preserved : ∀ before action after, Grounded terms before → holds before →
      runs before.erase action → (noted proc).step before action = some after → holds after) :
    ∃ state : NotedState, state.erase = last ∧ Grounded terms state ∧ holds state := by
  obtain ⟨state, erased, reached⟩ := Machine.annotate Note.notes run
    (rfl : (notedBeginning proc).erase = beginning proc)
  refine ⟨state, erased, ?_⟩
  apply reached.invariant (fun state => Grounded terms state ∧ holds state)
    ⟨grounded_beginning terms proc, base⟩
  intro before action after held runs stepped
  obtain ⟨grounded, held⟩ := held
  refine ⟨grounded_step grounded stepped ?_, preserved _ _ _ grounded held runs stepped⟩
  intro thread entry acts
  subst acts
  exact entries before.erase thread entry runs

end Taskfire
