import Taskfire.Dag.Gate

/-!
# Requests that fail half way

`POST /` and `POST /:id/retry` write the row first and the record second.  Each ends in one of three
ways: nothing was written, the row was written and the record was not, or both were.  There is no
way back from the second.
-/

namespace Taskfire

open Taskfire.Library

/-- A store call fails only if it is among those that may. -/
abbrev Failing (mayFail : Call → Prop) (c : Call) (env : Env) : Prop :=
  env.fails = true → mayFail c

variable {mayFail : Call → Prop}

theorem perform_failing {env : Env} {c : Call} (stores : Stores) (chosen : Failing mayFail c env) :
    (∃ reply, mayFail c ∧ failed? c = some reply ∧ perform env stores c = (reply, stores)) ∨
      perform env stores c = performStore env stores c := by
  obtain ⟨reply, fails, failing, performed⟩ | performed := perform_cases env stores c
  · exact .inl ⟨reply, chosen fails, failing, performed⟩
  · exact .inr performed

/-! ## The enqueue -/

/-- What an enqueue of the record `member` leaves behind. -/
inductive EnqueueEnds (mayFail : Call → Prop) (id : JobId) (before : Stores) :
    Except StoreError Unit → Stores → Prop
  | failed {error : StoreError} {command : Command} : mayFail (.command command) →
      EnqueueEnds mayFail id before (.error error) before
  | placed {key : ZKey} {score : Int} {member : Member} : key ≠ .dlq → member.id? = some id →
      EnqueueEnds mayFail id before (.ok ()) (before.applyCommand (.zadd key score member))

theorem zadd_ends {id : JobId} {key : ZKey} {score : Int} {member : Member} {stores : Stores}
    {env : Env} (notDlq : key ≠ .dlq) (named : member.id? = some id)
    (chosen : Failing mayFail (.command (.zadd key score member)) env) :
    EnqueueEnds mayFail id stores (perform env stores (.command (.zadd key score member))).1
      (perform env stores (.command (.zadd key score member))).2 := by
  obtain ⟨reply, may, failing, performed⟩ | performed := perform_failing stores chosen
  · cases failing
    rw [performed]
    exact .failed may
  · rw [performed]
    exact .placed notDlq named

/-- A call of the clock leaves the stores alone. -/
theorem perform_now (env : Env) (stores : Stores) : (perform env stores .now).2 = stores := by
  simp only [perform, failed?, performStore]
  split <;> rfl

theorem enqueueJob_ends (payload : EnqueuePayload) (stores : Stores) :
    (Api.enqueueJob payload).wp perform (Failing mayFail) (EnqueueEnds mayFail payload.id stores)
      stores := by
  simp only [Api.enqueueJob, Program.perform_bind, Program.wp_call]
  intro env _
  rw [perform_now]
  intro env' chosen
  exact zadd_ends (by simp) rfl chosen

theorem enqueueCreated_ends (payload : EnqueuePayload) (scheduledAt : Option Time) (now : Time)
    (stores : Stores) :
    (Api.enqueueCreated payload scheduledAt now).wp perform (Failing mayFail)
      (EnqueueEnds mayFail payload.id stores) stores := by
  simp only [Api.enqueueCreated]
  split
  · split
    · intro env chosen
      exact zadd_ends (by simp) rfl chosen
    · exact enqueueJob_ends payload stores
  · exact enqueueJob_ends payload stores

/-! ## What the requests write -/

/-- The parameters of the row for a body. -/
def CreateJobInput.params (input : CreateJobInput) (id : JobId) : CreateJobParams where
  id := id
  jobType := input.jobType
  payload := input.payload
  priority := input.priority.value
  maxRetries := input.maxRetries
  scheduledAt := input.scheduledAt
  dependencies := input.dependencies

/-- The schema's bounds are within those of the column. -/
theorem CreateJobInput.budget (input : CreateJobInput) :
    0 ≤ input.maxRetries ∧ input.maxRetries ≤ 2147483647 := by
  have most := input.maxRetriesMax
  exact ⟨input.maxRetriesMin, by omega⟩

/-- The row is the one that the row statement of the request writes under `id`. -/
inductive Api.PostRequest.Writes : Api.PostRequest → Jobs → JobId → Row → Prop
  | inserts {input : CreateJobInput} {jobs : Jobs} {id : JobId} {now : Time} : jobs id = none →
      Writes (.create (some input)) jobs id (Row.created (input.params id) now input.budget)
  | requeues {id : JobId} {resetRetries : Bool} {jobs : Jobs} {old : Row} : jobs id = some old →
      old.status = .failed ∨ old.status = .dead →
      Writes (.retry (some (id, resetRetries))) jobs id (old.requeued resetRetries)

/-- How a request can end. -/
inductive RequestEnds (mayFail : Call → Prop) (request : Api.PostRequest) (before : Stores) :
    Response → Stores → Prop
  | refused {response : Response} : response.status ≠ request.success →
      RequestEnds mayFail request before response before
  | stranded {id : JobId} {row : Row} {command : Command} : request.Writes before.jobs id row →
      mayFail (.command command) →
      RequestEnds mayFail request before .internalServerError
        { before with jobs := before.jobs.set id row }
  | enqueued {id : JobId} {row : Row} {key : ZKey} {score : Int} {member : Member} :
      request.Writes before.jobs id row → key ≠ .dlq → member.id? = some id →
      RequestEnds mayFail request before ⟨request.success, .job id row⟩
        (Stores.applyCommand { before with jobs := before.jobs.set id row }
          (.zadd key score member))

/-- The end of both routes: the record of the row that was written is enqueued. -/
theorem answer_ends {request : Api.PostRequest} {stores : Stores} {id : JobId} {row : Row}
    {enqueue : Prog (Except StoreError Unit)} (writes : request.Writes stores.jobs id row)
    (enqueued : enqueue.wp perform (Failing mayFail)
      (EnqueueEnds mayFail id { stores with jobs := stores.jobs.set id row })
      { stores with jobs := stores.jobs.set id row }) :
    (do
      match ← enqueue with
      | .error _ => pure Response.internalServerError
      | .ok _ => pure ⟨request.success, .job id row⟩ : Prog Response).wp perform (Failing mayFail)
      (RequestEnds mayFail request stores) { stores with jobs := stores.jobs.set id row } := by
  apply (Program.wp_bind ..).mpr
  apply Program.wp_mono enqueued
  intro reply last ends
  cases ends with
  | failed may => exact .stranded writes may
  | placed notDlq named => exact .enqueued writes notDlq named

theorem createJob_ends (input : CreateJobInput) (stores : Stores) :
    (Api.createJob input).wp perform (Failing mayFail)
      (RequestEnds mayFail (.create (some input)) stores) stores := by
  have refused : RequestEnds mayFail (.create (some input)) stores .internalServerError stores :=
    .refused (by simp [Response.internalServerError, Api.PostRequest.success])
  simp only [Api.createJob, Program.perform_bind, Program.wp_call]
  intro env _
  rw [perform_now]
  intro env' _
  have idle : (perform env' stores .randomUUID).2 = stores := by
    simp only [perform, failed?, performStore]
    split <;> rfl
  rw [idle]
  generalize (perform env' stores .randomUUID).1 = id
  generalize (perform env stores .now).1 = now
  intro insertion chosen
  obtain ⟨reply, -, failing, performed⟩ | performed := perform_failing stores chosen
  · cases failing
    rw [performed]
    exact refused
  · rw [performed]
    -- A fresh id that is taken already fails as the INSERT does.
    cases found : stores.jobs id with
    | some row =>
      simp only [performStore, Jobs.insertJob, dif_pos input.budget, found]
      exact refused
    | none =>
      simp only [performStore, Jobs.insertJob, dif_pos input.budget, found]
      exact answer_ends (.inserts found) (enqueueCreated_ends _ _ _ _)

theorem retryJob_ends (id : JobId) (resetRetries : Bool) (stores : Stores) :
    (Api.retryJob id resetRetries).wp perform (Failing mayFail)
      (RequestEnds mayFail (.retry (some (id, resetRetries))) stores) stores := by
  have refused (response : Response) (status : response.status ≠ 200) :
      RequestEnds mayFail (.retry (some (id, resetRetries))) stores response stores :=
    .refused status
  have failed := refused .internalServerError (by simp [Response.internalServerError])
  simp only [Api.retryJob, Program.perform_bind, Program.wp_call]
  intro env chosen
  obtain ⟨reply, -, failing, performed⟩ | performed := perform_failing stores chosen
  · cases failing
    rw [performed]
    exact failed
  · rw [performed]
    cases found : stores.jobs id with
    | none =>
      simp only [performStore, found]
      exact refused _ (by simp [Response.notFound])
    | some existing =>
      simp only [performStore, found]
      -- The guard of the route is also that of the UPDATE, so the row is found again.
      by_cases retryable : existing.status = .failed ∨ existing.status = .dead
      · rw [if_pos retryable]
        intro env' chosen'
        obtain ⟨reply, -, failing, requeued⟩ | requeued := perform_failing stores chosen'
        · cases failing
          rw [requeued]
          exact failed
        · have listed : existing.status ∈ [JobStatus.failed, JobStatus.dead] := by
            simpa using retryable
          rw [requeued]
          simp only [performStore, Jobs.requeueJob, found, if_pos listed]
          exact answer_ends (.requeues found retryable) (enqueueJob_ends _ _)
      · rw [if_neg retryable]
        exact refused _ (by simp [Response.conflict])

theorem handle_ends (request : Api.PostRequest) (stores : Stores) :
    request.handle.wp perform (Failing mayFail) (RequestEnds mayFail request stores) stores := by
  cases request with
  | create parsed =>
    cases parsed with
    | none => exact .refused (by simp [Response.validationError, Api.PostRequest.success])
    | some input => exact createJob_ends input stores
  | retry parsed =>
    cases parsed with
    | none => exact .refused (by simp [Response.validationError, Api.PostRequest.success])
    | some parameters => exact retryJob_ends parameters.1 parameters.2 stores

/-! ## The result -/

/-- A request without a success answer leaves Redis as it was, and the table too unless its enqueue
failed: then the row that its statement wrote stays. -/
theorem failed_request_leaves (mayFail : Call → Prop) (request : Api.PostRequest) (stores : Stores) :
    request.handle.wp perform (Failing mayFail)
      (fun response last => response.status ≠ request.success →
        last.redis = stores.redis ∧
          (last.jobs = stores.jobs ∨
            (∃ command, mayFail (.command command)) ∧
              ∃ id row, request.Writes stores.jobs id row ∧ last.jobs = stores.jobs.set id row))
      stores := by
  apply Program.wp_mono (handle_ends request stores)
  intro response last ends unsuccessful
  cases ends with
  | refused => exact ⟨rfl, .inl rfl⟩
  | stranded writes may => exact ⟨rfl, .inr ⟨⟨_, may⟩, _, _, writes, rfl⟩⟩
  | enqueued => exact absurd rfl unsuccessful

/-- The enqueue of a new job fails: the answer is an error and the table has its row. -/
theorem failed_request_leaves_row :
    ¬ (Api.PostRequest.create (some .plain)).handle.wp perform
      (Failing fun c => ∃ command, c = .command command)
      (fun response last => response.status ≠ 201 → last.jobs = Stores.empty.jobs) .empty := by
  intro unchanged
  have fine (c : Call) : Failing (fun c => ∃ command, c = .command command) c (.calm "j") :=
    fun fails => absurd fails Bool.false_ne_true
  have left := unchanged (.calm "j") (fine _) (.calm "j") (fine _) (.calm "j") (fine _)
    (.calm "j") (fine _) { Env.calm "j" with fails := true } (fun _ => ⟨_, rfl⟩)
  have row := congrFun (left (by decide)) "j"
  cases row

end Taskfire
