import Taskfire.Lifecycle.Life

/-!
# The system does to a job what its life allows

`life id state` is the life of job `id` in a state of the system.  Every call of a thread that keeps
to the protocol is one step of the life of every job (`call_step`), so every run of the system is,
for each job, a run of its life (`life_reach`).
-/

namespace Taskfire

open Taskfire.Library

/-! ## The view of one job -/

def Member.carries (id : JobId) (brief : Brief) (member : Member) : Bool :=
  member.isOf id && member.brief == brief

/-- What the session is to job `id`. -/
def Session.roleFor (session : Session) (id : JobId) : Option Role :=
  if session.job = some id then some session.toRole else none

/-- A thread that has ended is nothing to any job. -/
def roleOf (id : JobId) (thread : SystemThread) : Option Role :=
  match thread.program with
  | .pure _ => none
  | .call _ _ => thread.session.roleFor id

/-- The stores as job `id` sees them. -/
def Stores.life (stores : Stores) (id : JobId) (roles : Nat → Option Role) : Life where
  row := stores.jobs id
  waiting := stores.redis.waiting (Member.isOf id)
  carried := fun brief => 0 < stores.redis.waiting (Member.carries id brief)
  letters := stores.redis.letters (Member.isOf id)
  locked := stores.redis.lock id
  listed := (stores.redis.processing id).isSome
  enqueued := stores.ledger.enqueued id
  cancelled := stores.ledger.cancelled id
  succeeded := stores.ledger.succeeded id
  started := stores.ledger.started id
  roles := roles

def life (id : JobId) (state : SystemState) : Life :=
  state.store.life id fun thread => roleOf id (state.threads thread)

/-! ## Events -/

/-- What a command is to job `id`. -/
def Command.event (id : JobId) : Command → Except StoreError Unit → Event
  | .zadd key _ member, reply =>
    if member.id? = some id ∧ reply.isOk = true then
      if key = .dlq then .buries else .places
    else .other
  | .zrem _ member, reply =>
    if member.id? = some id ∧ reply.isOk = true then .removes else .other
  | .hdelProcessing job, reply =>
    if job = id then if reply.isOk then .unlists else .failsToUnlist else .other
  | .delLock job, reply =>
    if job = id then if reply.isOk then .unlocks else .failsToUnlock else .other
  | _, _ => .other

/-- What a call is to job `id`. -/
def Call.event (id : JobId) (session : Session) : (c : Call) → c.Reply → Event
  | .randomUUID, fresh => if fresh = id then .enters session.token else .other
  | .insertJob params, reply =>
    if params.id = id ∧ reply.isOk = true then .inserts params.jobType params.maxRetries else .other
  | .cancelJob job, reply => match reply with
    | .ok (some _) => if job = id then .cancels else .other
    | _ => .other
  | .requeueJob job _, reply => match reply with
    | .ok (some _) => if job = id then .requeues else .other
    | _ => .other
  | .updateJobStatus job, reply =>
    if job.id = id then
      if reply.isOk then .marks job.status else .failsToMark job.status
    else .other
  | .command sent, reply => sent.event id reply
  | .claim, reply => match reply with
    | .ok (some member) => if member.id? = some id then .claims else .other
    | _ => .other
  | .drainDelayed _ _, reply => if reply.isOk then .promotes else .other
  | .startHandler job, _ => if job.id = id then .starts else .other
  | .awaitHandler job, outcome =>
    if job.id = id then .ends (outcome = .returnedNil) else .other
  | .findHandler job, found => if job.id = id ∧ found = false then .misses else .other
  | _, _ => .other

section Event

variable {id : JobId} {session : Session}

@[simp] theorem event_randomUUID (fresh : JobId) : Call.event id session .randomUUID fresh =
    if fresh = id then .enters session.token else .other := rfl

@[simp] theorem event_insertJob (params : CreateJobParams) (reply : Except StoreError Row) :
    Call.event id session (.insertJob params) reply =
      if params.id = id ∧ reply.isOk = true then .inserts params.jobType params.maxRetries
      else .other := rfl

@[simp] theorem event_cancelJob_some (job : JobId) (row : Row) :
    Call.event id session (.cancelJob job) (.ok (some row)) =
      if job = id then .cancels else .other := rfl

@[simp] theorem event_cancelJob_none (job : JobId) :
    Call.event id session (.cancelJob job) (.ok none) = .other := rfl

@[simp] theorem event_cancelJob_error (job : JobId) (error : StoreError) :
    Call.event id session (.cancelJob job) (.error error) = .other := rfl

@[simp] theorem event_requeueJob_some (job : JobId) (resetRetries : Bool) (row : Row) :
    Call.event id session (.requeueJob job resetRetries) (.ok (some row)) =
      if job = id then .requeues else .other := rfl

@[simp] theorem event_requeueJob_none (job : JobId) (resetRetries : Bool) :
    Call.event id session (.requeueJob job resetRetries) (.ok none) = .other := rfl

@[simp] theorem event_requeueJob_error (job : JobId) (resetRetries : Bool) (error : StoreError) :
    Call.event id session (.requeueJob job resetRetries) (.error error) = .other := rfl

@[simp] theorem event_updateJobStatus (job : Job) (reply : Except StoreError Unit) :
    Call.event id session (.updateJobStatus job) reply =
      if job.id = id then
        if reply.isOk then .marks job.status else .failsToMark job.status
      else .other := rfl

@[simp] theorem event_command (sent : Command) (reply : Except StoreError Unit) :
    Call.event id session (.command sent) reply = sent.event id reply := rfl

@[simp] theorem event_claim_some (member : Member) :
    Call.event id session .claim (.ok (some member)) =
      if member.id? = some id then .claims else .other := rfl

@[simp] theorem event_claim_none : Call.event id session .claim (.ok none) = .other := rfl

@[simp] theorem event_claim_error (error : StoreError) :
    Call.event id session .claim (.error error) = .other := rfl

@[simp] theorem event_drainDelayed (cutoff : Int) (maxBatch : Nat) (reply : Except StoreError Nat) :
    Call.event id session (.drainDelayed cutoff maxBatch) reply =
      if reply.isOk then .promotes else .other := rfl

@[simp] theorem event_findHandler (job : Job) (found : Bool) :
    Call.event id session (.findHandler job) found =
      if job.id = id ∧ found = false then .misses else .other := rfl

@[simp] theorem event_startHandler (job : Job) (reply : Unit) :
    Call.event id session (.startHandler job) reply =
      if job.id = id then .starts else .other := rfl

@[simp] theorem event_awaitHandler (job : Job) (outcome : HandlerOutcome) :
    Call.event id session (.awaitHandler job) outcome =
      if job.id = id then .ends (outcome = .returnedNil) else .other := rfl

end Event

/-! ## One call -/

section Call

variable {d : Discipline} {id : JobId} {stores : Stores} {env : Env} {session : Session}
variable {roles : Nat → Option Role} {thread : Nat}

/-- The job's life after the call. -/
def lifeAfter (id : JobId) (stores : Stores) (env : Env) (session : Session)
    (roles : Nat → Option Role) (thread : Nat) (c : Call) : Life :=
  (perform env stores c).2.life id
    (Function.update roles thread ((session.advance c (perform env stores c).1).roleFor id))

/-- The call is a step of the life of job `id`. -/
def Steps (d : Discipline) (id : JobId) (stores : Stores) (env : Env) (session : Session)
    (roles : Nat → Option Role) (thread : Nat) (c : Call) : Prop :=
  Life.Step d (stores.life id roles)
    (.act thread (c.event id session (perform env stores c).1))
    (lifeAfter id stores env session roles thread c)

theorem steps_other {c : Call} (role : roles thread = session.roleFor id)
    (event : c.event id session (perform env stores c).1 = .other)
    (same : (perform env stores c).2.life id roles = stores.life id roles)
    (kept : (session.advance c (perform env stores c).1).roleFor id = session.roleFor id) :
    Steps d id stores env session roles thread c := by
  have unchanged : lifeAfter id stores env session roles thread c = stores.life id roles := by
    rw [lifeAfter, kept, ← role, Function.update_eq_self, same]
  rw [Steps, event, unchanged]
  exact .other

/-- A call that leaves the stores, and whose reply is no step of the job or of the session. -/
theorem steps_refused {c : Call} {reply : c.Reply} (role : roles thread = session.roleFor id)
    (performed : perform env stores c = (reply, stores))
    (event : c.event id session reply = .other) (kept : session.advance c reply = session) :
    Steps d id stores env session roles thread c := by
  apply steps_other role
  · rw [performed]
    exact event
  · rw [performed]
  · rw [performed]
    exact congrArg (Session.roleFor · id) kept

/-- A call that only reads, or that only the runtime and the ledger see. -/
theorem steps_silent {c : Call} (role : roles thread = session.roleFor id)
    (silent : ∀ reply, c.event id session reply = .other ∧ session.advance c reply = session)
    (same : (perform env stores c).2.life id roles = stores.life id roles) :
    Steps d id stores env session roles thread c :=
  steps_other role (silent _).1 same (by rw [(silent _).2])

theorem roleFor_of_on {session : Session} (on : session.job = some id) :
    session.roleFor id = some session.toRole := if_pos on

theorem roleFor_of_off {session : Session} (off : session.job ≠ some id) :
    session.roleFor id = none := if_neg off

/-! ### Rows -/

theorem life_row (stores : Stores) (jobs : Jobs) (row : Option Row) (same : jobs id = row) :
    { stores with jobs }.life id roles = { stores.life id roles with row } := by
  simp only [Stores.life, same]

theorem steps_insertJob {params : CreateJobParams} (role : roles thread = session.roleFor id)
    (permitted : d.permits session (.insertJob params)) :
    Steps d id stores env session roles thread (.insertJob params) := by
  obtain ⟨job, absent⟩ := permitted
  rcases perform_cases env stores (.insertJob params) with ⟨_, _, failing, performed⟩ | performed
  · cases failing
    exact steps_refused role performed (by simp) rfl
  · rcases stores.jobs.insertJob_cases params env.now with
      ⟨error, inserted⟩ | ⟨row, missing, inserted, status, zero, budget, jobType⟩
    · simp only [performStore, inserted] at performed
      exact steps_refused role performed (by simp) rfl
    · simp only [performStore, inserted] at performed
      by_cases same : params.id = id
      · subst same
        have step : Life.Step d (stores.life params.id roles)
            (.act thread (.inserts row.jobType row.maxRetries)) _ := .inserts
          (role.trans (roleFor_of_on job)) absent missing status zero
        simpa [Steps, lifeAfter, performed, Session.advance, Session.obtained,
          Session.roleFor, job, jobType, budget, Life.put, Stores.life] using step
      · have off : session.job ≠ some id := by simp [job, same]
        refine steps_other role (by simp [performed, same]) ?_ ?_
        · rw [performed, life_row stores _ _ (Jobs.set_other _ _ fun equal => same equal.symm)]
          rfl
        · simp [performed, Session.advance, Session.obtained, Session.roleFor, off]

theorem life_other_row (stores : Stores) {job : JobId} (row : Row) (different : job ≠ id) :
    { stores with jobs := stores.jobs.set job row }.life id roles = stores.life id roles :=
  life_row stores _ _ (Jobs.set_other _ _ different.symm)

theorem steps_cancelJob {job : JobId} (role : roles thread = session.roleFor id)
    (permitted : d.permits session (.cancelJob job)) :
    Steps d id stores env session roles thread (.cancelJob job) := by
  obtain ⟨on, idle⟩ := permitted
  rcases perform_cases env stores (.cancelJob job) with ⟨_, _, failing, performed⟩ | performed
  · cases failing
    exact steps_refused role performed (by simp) rfl
  · rcases stores.jobs.cancelJob_cases job env.now with
      refused | ⟨old, new, found, notActive, notCompleted, cancelled, rewrites⟩
    · simp only [performStore, refused] at performed
      exact steps_refused role performed (by simp) rfl
    · simp only [performStore, cancelled] at performed
      by_cases same : job = id
      · subst same
        have step : Life.Step d (stores.life job roles) (.act thread .cancels) _ := .cancels
          (role.trans (roleFor_of_on on)) idle found notActive notCompleted rewrites
        simpa [Steps, lifeAfter, performed, Session.advance, Session.roleFor, on,
          Life.put, Stores.life, Ledger.noteCancel] using step
      · have off : session.job ≠ some id := by simp [on, same]
        refine steps_other role (by simp [performed, same]) ?_ ?_
        · have unseen : Function.update stores.ledger.cancelled job true id =
              stores.ledger.cancelled id := Function.update_of_ne (fun equal => same equal.symm) _ _
          simp [performed, Stores.life, Jobs.set_other _ _ (fun equal => same equal.symm),
            Ledger.noteCancel, unseen]
        · simp [performed, Session.advance, Session.roleFor, off]

theorem steps_requeueJob {job : JobId} {resetRetries : Bool}
    (role : roles thread = session.roleFor id)
    (permitted : d.permits session (.requeueJob job resetRetries)) :
    Steps d id stores env session roles thread (.requeueJob job resetRetries) := by
  obtain ⟨on, absent⟩ := permitted
  rcases perform_cases env stores (.requeueJob job resetRetries) with
    ⟨_, _, failing, performed⟩ | performed
  · cases failing
    exact steps_refused role performed (by simp) rfl
  · rcases stores.jobs.requeueJob_cases job resetRetries with
      refused | ⟨old, new, found, retriable, requeued, rewrites⟩
    · simp only [performStore, refused] at performed
      exact steps_refused role performed (by simp) rfl
    · simp only [performStore, requeued] at performed
      by_cases same : job = id
      · subst same
        have step : Life.Step d (stores.life job roles) (.act thread .requeues) _ := .requeues
          (role.trans (roleFor_of_on on)) absent found retriable rewrites
        simpa [Steps, lifeAfter, performed, Session.advance, Session.obtained,
          Session.roleFor, on, Life.put, Stores.life] using step
      · have off : session.job ≠ some id := by simp [on, same]
        refine steps_other role (by simp [performed, same]) ?_ ?_
        · simp [performed, life_other_row stores new same]
        · simp [performed, Session.advance, Session.obtained, Session.roleFor, off]

theorem steps_updateJobStatus {job : Job} (role : roles thread = session.roleFor id)
    (owns : session.owns job) (reachable : d.strict → env.fails = false) :
    Steps d id stores env session roles thread (.updateJobStatus job) := by
  obtain ⟨on, opened, same⟩ := owns
  have count : job.retryCount = session.brief.retryCount := congrArg Brief.retryCount same
  by_cases same : job.id = id
  · subst same
    have current := role.trans (roleFor_of_on on)
    -- The caller drops the error, and the thread goes on with its update missing.
    have failed {error : StoreError}
        (performed : perform env stores (.updateJobStatus job) = (.error error, stores))
        (cause : d.strict → ∃ old, stores.jobs job.id = some old ∧
          ¬ (0 ≤ session.brief.retryCount ∧ session.brief.retryCount ≤ old.maxRetries)) :
        Steps d job.id stores env session roles thread (.updateJobStatus job) := by
      have step : Life.Step d (stores.life job.id roles) (.act thread (.failsToMark job.status)) _ :=
        .failsToMark current opened cause
      simpa [Steps, lifeAfter, performed, Session.advance, Session.wrote,
        Session.roleFor, on, Life.put, Stores.life] using step
    rcases perform_cases env stores (.updateJobStatus job) with ⟨_, fails, failing, performed⟩ | performed
    · cases failing
      exact failed performed fun strict => absurd (reachable strict) (by simp [fails])
    · rcases stores.jobs.updateJobStatus_cases job with
        ⟨missing, updated⟩ | ⟨old, error, found, outside, refused⟩ |
          ⟨old, new, found, lower, upper, updated, rewrites⟩
      · simp only [performStore, updated] at performed
        have step : Life.Step d (stores.life job.id roles) (.act thread (.marks job.status)) _ :=
          .marksNothing current opened missing
        simpa [Steps, lifeAfter, performed, Session.advance, Session.wrote,
          Session.roleFor, on, Life.put, Stores.life] using step
      · simp only [performStore, refused] at performed
        exact failed performed fun _ => ⟨old, found, count ▸ outside⟩
      · simp only [performStore, updated] at performed
        have step : Life.Step d (stores.life job.id roles) (.act thread (.marks job.status)) _ :=
          .marks current opened found (count ▸ lower) (count ▸ upper) (count ▸ rewrites)
        simpa [Steps, lifeAfter, performed, Session.advance, Session.wrote,
          Session.roleFor, on, Life.put, Stores.life] using step
  · have off : session.job ≠ some id := by simp [on, same]
    refine steps_other role (by simp [same]) ?_ ?_
    · rcases perform_cases env stores (.updateJobStatus job) with ⟨_, _, _, performed⟩ | performed
      · simp [performed]
      · rcases stores.jobs.updateJobStatus_cases job with
          ⟨_, updated⟩ | ⟨_, _, _, _, refused⟩ | ⟨_, new, _, _, _, updated, _⟩
        · simp [performed, performStore, updated]
        · simp [performed, performStore, refused]
        · simp [performed, performStore, updated, life_other_row stores new same]
    · simp [Session.advance, Session.wrote, Session.roleFor, off]

/-! ### Commands -/

theorem isOf_of_carries {id : JobId} {brief : Brief} (member : Member)
    (carries : member.carries id brief = true) : member.isOf id = true :=
  (Bool.and_eq_true .. ▸ carries).1

theorem waiting_of_carries (redis : Redis Member) {id : JobId} {brief : Brief}
    (present : 0 < redis.waiting (Member.carries id brief)) :
    0 < redis.waiting (Member.isOf id) :=
  Nat.lt_of_lt_of_le present (redis.waiting_mono isOf_of_carries)

theorem carries_of_not {member : Member} (other : member.id? ≠ some id) (brief : Brief) :
    member.carries id brief = false := by
  simp [Member.carries, Member.isOf, other]

theorem isOf_of_not {member : Member} (other : member.id? ≠ some id) : member.isOf id = false := by
  simp [Member.isOf, other]

/-- A lane or the delayed set got a member that is no record of the job. -/
theorem life_zadd_other (stores : Stores) {key : ZKey} {score : Int} {member : Member}
    (other : member.id? ≠ some id) :
    (stores.applyCommand (.zadd key score member)).life id roles = stores.life id roles := by
  have counted := carries_of_not other
  have isOf := isOf_of_not other
  have noted : (stores.ledger.noteZadd key member).enqueued id = stores.ledger.enqueued id ∧
      (stores.ledger.noteZadd key member).cancelled id = stores.ledger.cancelled id ∧
      (stores.ledger.noteZadd key member).succeeded id = stores.ledger.succeeded id ∧
      (stores.ledger.noteZadd key member).started id = stores.ledger.started id := by
    cases key <;> cases named : member.id? with
    | none => simp [Ledger.noteZadd, named]
    | some owner =>
      have different : id ≠ owner := fun equal => other (by rw [named, equal])
      simp [Ledger.noteZadd, named, different]
  by_cases dlq : key = .dlq
  · subst dlq
    simp [Stores.life, Stores.applyCommand, noted, Redis.waiting_zadd_dlq,
      Redis.letters_zadd_dlq_of_not isOf]
  · simp [Stores.life, Stores.applyCommand, noted, Redis.waiting_zadd_of_not dlq isOf,
      Redis.waiting_zadd_of_not dlq (counted _), Redis.letters_zadd_of_lane dlq]

theorem command_cases (env : Env) (stores : Stores) (command : Command) :
    (∃ error, env.fails = true ∧ perform env stores (.command command) = (.error error, stores)) ∨
      perform env stores (.command command) = (.ok (), stores.applyCommand command) := by
  rcases perform_cases env stores (.command command) with ⟨_, fails, failing, performed⟩ | performed
  · cases failing
    exact .inl ⟨_, fails, performed⟩
  · exact .inr performed

/-- A command that does nothing for the job or for the session. -/
theorem steps_command_other {command : Command} (role : roles thread = session.roleFor id)
    (event : ∀ reply, command.event id reply = .other)
    (same : (stores.applyCommand command).life id roles = stores.life id roles)
    (kept : ∀ reply, (session.advanceCommand command reply).roleFor id = session.roleFor id) :
    Steps d id stores env session roles thread (.command command) := by
  refine steps_other role (event _) ?_ (kept _)
  rcases command_cases env stores command with ⟨_, _, performed⟩ | performed
  · rw [performed]
  · rw [performed, same]

theorem life_enqueue {key : ZKey} {score : Int} {member : Member} (lane : key ≠ .dlq)
    (hasId : member.id? = some id) :
    (stores.applyCommand (.zadd key score member)).life id roles = { stores.life id roles with
      waiting := (stores.redis.zadd key score member).waiting (Member.isOf id)
      carried := fun brief =>
        0 < (stores.redis.zadd key score member).waiting (Member.carries id brief)
      enqueued := true } := by
  have noted : stores.ledger.noteZadd key member =
      { stores.ledger with enqueued := Function.update stores.ledger.enqueued id true } := by
    cases key with
    | dlq => exact absurd rfl lane
    | lane lane => simp only [Ledger.noteZadd, hasId]
    | delayed => simp only [Ledger.noteZadd, hasId]
  simp only [Stores.life, Stores.applyCommand, noted, Redis.letters_zadd_of_lane lane,
    Function.update_self]
  rfl

theorem steps_enqueue {key : ZKey} {score : Int} {member : Member}
    (role : roles thread = session.roleFor id) (lane : key ≠ .dlq)
    (hasId : member.id? = some id) (on : session.job = some id)
    (opened : session.token.isOpen = true) (same : member.brief = session.brief)
    (may : d.mayPlace session.toRole) :
    Steps d id stores env session roles thread (.command (.zadd key score member)) := by
  rcases command_cases env stores (.zadd key score member) with ⟨_, _, performed⟩ | performed
  · exact steps_refused role performed (by simp [Command.event]) rfl
  · have isOf : member.isOf id = true := Member.isOf_iff.mpr hasId
    have upper : (stores.redis.zadd key score member).waiting (Member.isOf id) ≤
        stores.redis.waiting (Member.isOf id) + 1 := by
      simpa [isOf] using Redis.waiting_zadd_le stores.redis (Member.isOf id) score member lane
    -- What the record carries is what the thread carried.
    have briefs (brief : Brief) :
        0 < (stores.redis.zadd key score member).waiting (Member.carries id brief) ↔
          (stores.life id roles).carried brief ∨ brief = session.brief := by
      by_cases equal : brief = session.brief
      · have carries : member.carries id brief = true := by
          simp [Member.carries, isOf, same, equal]
        exact ⟨fun _ => .inr equal, fun _ =>
          Redis.waiting_zadd_pos stores.redis score lane carries⟩
      · have different : member.carries id brief = false := by
          simpa [Member.carries, same] using fun _ => fun reverse => equal reverse.symm
        rw [Redis.waiting_zadd_of_not lane different]
        exact ⟨.inl, fun either => either.resolve_right equal⟩
    have step : Life.Step d (stores.life id roles) (.act thread .places) _ :=
      .places (role.trans (roleFor_of_on on)) opened may
        (Redis.waiting_zadd_pos stores.redis score lane isOf) upper briefs
    have placed : session.placed key =
        { session with token := .placed, stage := session.stage.putBack } := by
      cases key with
      | dlq => exact absurd rfl lane
      | lane lane => rfl
      | delayed => rfl
    simp only [Steps, lifeAfter, performed, event_command, Command.event, hasId, lane, Session.advance,
      Session.advanceCommand, isOk_ok, and_self, if_true, if_false, placed, Session.roleFor, on,
      life_enqueue lane hasId]
    exact step

theorem steps_bury {score : Int} {member : Member} (role : roles thread = session.roleFor id)
    (hasId : member.id? = some id) (on : session.job = some id)
    (due : session.token = .dying ∨ session.token = .unmarked .dead ∨
      (d.bare ∧ session.token.isOpen = true)) :
    Steps d id stores env session roles thread (.command (.zadd .dlq score member)) := by
  rcases command_cases env stores (.zadd .dlq score member) with ⟨_, _, performed⟩ | performed
  · exact steps_refused role performed (by simp [Command.event]) rfl
  · have isOf : member.isOf id = true := Member.isOf_iff.mpr hasId
    have upper : (stores.redis.zadd .dlq score member).letters (Member.isOf id) ≤
        stores.redis.letters (Member.isOf id) + 1 := by
      simpa [isOf] using Redis.letters_zadd_dlq_le stores.redis (Member.isOf id) score member
    have step : Life.Step d (stores.life id roles) (.act thread .buries) _ :=
      .buries (role.trans (roleFor_of_on on)) due
        (Redis.letters_zadd_dlq_pos stores.redis score isOf) upper
    simpa [Steps, lifeAfter, performed, Command.event, hasId, Session.advance,
      Session.advanceCommand, Session.placed, Session.roleFor, on, Life.put, Stores.life,
      Stores.applyCommand, Ledger.noteZadd, Redis.waiting_zadd_dlq] using step

theorem steps_zadd {key : ZKey} {score : Int} {member : Member}
    (role : roles thread = session.roleFor id)
    (permitted : d.permits session (.command (.zadd key score member))) :
    Steps d id stores env session roles thread (.command (.zadd key score member)) := by
  by_cases hasId : member.id? = some id
  · cases key with
    | dlq =>
      obtain ⟨_, job, due⟩ := permitted
      exact steps_bury role hasId (job.trans hasId) due
    | lane lane =>
      obtain ⟨_, job, opened, same, may⟩ := permitted
      exact steps_enqueue role (by simp) hasId (job.trans hasId) opened same may
    | delayed =>
      obtain ⟨_, job, opened, same, may⟩ := permitted
      exact steps_enqueue role (by simp) hasId (job.trans hasId) opened same may
  · have job : session.job = member.id? := by cases key <;> exact permitted.2.1
    have off : session.job ≠ some id := by rwa [job]
    refine steps_command_other role (by simp [Command.event, hasId]) (life_zadd_other stores hasId) ?_
    intro reply
    cases key <;> simp only [Session.advanceCommand, Session.placed] <;> split <;>
      simp [Session.roleFor, off]

theorem steps_zrem {key : ZKey} {member : Member} (role : roles thread = session.roleFor id)
    (permitted : d.permits session (.command (.zrem key member))) :
    Steps d id stores env session roles thread (.command (.zrem key member)) := by
  obtain ⟨lane, job, cancelled⟩ := permitted
  by_cases hasId : member.id? = some id
  · have on : session.job = some id := job.trans hasId
    have current := role.trans (roleFor_of_on on)
    rcases command_cases env stores (.zrem key member) with ⟨_, _, performed⟩ | performed
    · exact steps_refused role performed (by simp [Command.event]) rfl
    · have fewer : (stores.life id roles).Fewer
          ((stores.redis.zrem key member).waiting (Member.isOf id)) fun brief =>
            0 < (stores.redis.zrem key member).waiting (Member.carries id brief) :=
        ⟨fun _ => waiting_of_carries _, Redis.waiting_zrem_le lane, fun brief present =>
          Nat.lt_of_lt_of_le present (Redis.waiting_zrem_le lane)⟩
      have step : Life.Step d (stores.life id roles) (.act thread .removes) _ :=
        .removes current cancelled fewer
      have settled : Function.update roles thread (some session.toRole) = roles := by
        rw [← current, Function.update_eq_self]
      simpa [Steps, lifeAfter, performed, Command.event, hasId, Session.advance,
        Session.advanceCommand, Session.roleFor, on, settled, Stores.life, Stores.applyCommand,
        Redis.letters_zrem lane] using step
  · have isOf := isOf_of_not hasId
    refine steps_command_other role (by simp [Command.event, hasId]) ?_ fun _ => rfl
    simp [Stores.life, Stores.applyCommand, Redis.waiting_zrem_of_not lane isOf,
      Redis.waiting_zrem_of_not lane (carries_of_not hasId _), Redis.letters_zrem lane]

theorem steps_hdel {job : JobId} (role : roles thread = session.roleFor id)
    (permitted : d.permits session (.command (.hdelProcessing job)))
    (reachable : d.strict → env.fails = false) :
    Steps d id stores env session roles thread (.command (.hdelProcessing job)) := by
  obtain ⟨on, still, held⟩ := permitted
  by_cases same : job = id
  · subst same
    have current := role.trans (roleFor_of_on on)
    rcases command_cases env stores (.hdelProcessing job) with ⟨_, fails, performed⟩ | performed
    · have step : Life.Step d (stores.life job roles) (.act thread .failsToUnlist) _ :=
        .failsToUnlist current still held fun strict => by simp [reachable strict] at fails
      simpa [Steps, lifeAfter, performed, Command.event, Session.advance,
        Session.advanceCommand, Session.unlisted, Session.roleFor, on, Life.put, Stores.life] using step
    · have step : Life.Step d (stores.life job roles) (.act thread .unlists) _ :=
        .unlists current still held
      simpa [Steps, lifeAfter, performed, Command.event, Session.advance,
        Session.advanceCommand, Session.unlisted, Session.roleFor, on, Life.put, Stores.life,
        Stores.applyCommand, Redis.waiting, Redis.letters] using step
  · have off : session.job ≠ some id := by simp [on, same]
    refine steps_command_other role (by simp [Command.event, same]) ?_ ?_
    · have unseen : Function.update stores.redis.processing job none id = stores.redis.processing id :=
        Function.update_of_ne (fun equal => same equal.symm) _ _
      simp [Stores.life, Stores.applyCommand, Redis.waiting, Redis.letters, unseen]
    · simp [Session.advanceCommand, Session.unlisted, Session.roleFor, off]

theorem steps_del {job : JobId} (role : roles thread = session.roleFor id)
    (permitted : d.permits session (.command (.delLock job)))
    (reachable : d.strict → env.fails = false) :
    Steps d id stores env session roles thread (.command (.delLock job)) := by
  obtain ⟨on, held⟩ := permitted
  by_cases same : job = id
  · subst same
    have current := role.trans (roleFor_of_on on)
    rcases command_cases env stores (.delLock job) with ⟨_, fails, performed⟩ | performed
    · have step : Life.Step d (stores.life job roles) (.act thread .failsToUnlock) _ :=
        .failsToUnlock current held fun strict => by simp [reachable strict] at fails
      simpa [Steps, lifeAfter, performed, Command.event, Session.advance,
        Session.advanceCommand, Session.unlocked, Session.roleFor, on, Life.put, Stores.life] using step
    · have step : Life.Step d (stores.life job roles) (.act thread .unlocks) _ :=
        .unlocks current held
      simpa [Steps, lifeAfter, performed, Command.event, Session.advance,
        Session.advanceCommand, Session.unlocked, Session.roleFor, on, Life.put, Stores.life,
        Stores.applyCommand, Redis.expireLock, Redis.waiting, Redis.letters] using step
  · have off : session.job ≠ some id := by simp [on, same]
    refine steps_command_other role (by simp [Command.event, same]) ?_ ?_
    · have unseen : Function.update stores.redis.lock job false id = stores.redis.lock id :=
        Function.update_of_ne (fun equal => same equal.symm) _ _
      simp [Stores.life, Stores.applyCommand, Redis.expireLock, Redis.waiting, Redis.letters, unseen]
    · simp [Session.advanceCommand, Session.unlocked, Session.roleFor, off]

theorem steps_command {command : Command} (role : roles thread = session.roleFor id)
    (permitted : d.permits session (.command command)) (reachable : d.strict → env.fails = false) :
    Steps d id stores env session roles thread (.command command) := by
  cases command with
  | zadd key score member => exact steps_zadd role permitted
  | zrem key member => exact steps_zrem role permitted
  | hdelProcessing job => exact steps_hdel role permitted reachable
  | delLock job => exact steps_del role permitted reachable
  | lpushDone member =>
    exact steps_command_other role (fun _ => rfl)
      (by simp [Stores.life, Stores.applyCommand, Redis.waiting, Redis.letters]) fun _ => rfl
  | ltrimDone stop =>
    exact steps_command_other role (fun _ => rfl)
      (by simp [Stores.life, Stores.applyCommand, Redis.waiting, Redis.letters]) fun _ => rfl
  | publish event =>
    exact steps_command_other role (fun _ => rfl)
      (by simp [Stores.life, Stores.applyCommand]) fun _ => rfl

/-! ### Scripts -/

/-- Where the claim script only leaves out what `cjson` does not read, some of the records that waited
are still there. -/
theorem fewer_of_script {after : Redis Member} (waiting : ∀ p, after.waiting p ≤ stores.redis.waiting p) :
    (stores.life id roles).Fewer (after.waiting (Member.isOf id)) fun brief =>
      0 < after.waiting (Member.carries id brief) :=
  ⟨fun _ => waiting_of_carries after, waiting _, fun _ present =>
    Nat.lt_of_lt_of_le present (waiting _)⟩

/-- A claim that brings the thread no record of the job. -/
theorem steps_passed {after : Redis Member} {reply : Except StoreError (Option Member)}
    (role : roles thread = session.roleFor id)
    (performed : perform env stores .claim = (reply, { stores with redis := after }))
    (event : Call.event id session .claim reply = .other)
    (kept : (session.advance .claim reply).roleFor id = session.roleFor id)
    (lock : after.lock id = stores.redis.lock id)
    (processing : after.processing id = stores.redis.processing id)
    (dlq : after.zset .dlq = stores.redis.zset .dlq)
    (fewer : ∀ p, after.waiting p ≤ stores.redis.waiting p)
    (waiting : d.legible → ∀ p, (∀ member, p member = true → member.isOf id = true) →
      after.waiting p = stores.redis.waiting p) :
    Steps d id stores env session roles thread .claim := by
  by_cases legible : d.legible
  · refine steps_other role (by rw [performed, event]) ?_ (by rw [performed, kept])
    simp [performed, Stores.life, Redis.letters, lock, processing, dlq,
      waiting legible _ fun _ holds => holds, waiting legible _ isOf_of_carries]
  · have step : Life.Step d (stores.life id roles) (.act thread .other) _ :=
      .drops legible (fewer_of_script fewer)
    have settled : Function.update roles thread (session.roleFor id) = roles := by
      rw [← role, Function.update_eq_self]
    simpa [Steps, lifeAfter, performed, event, kept, settled, Stores.life, Redis.letters, lock,
      processing, dlq] using step

theorem steps_claim (role : roles thread = session.roleFor id)
    (permitted : d.permits session .claim)
    (legible : d.legible → stores.redis.Legible (Member.isOf id)) :
    Steps d id stores env session roles thread .claim := by
  obtain ⟨free, idle⟩ := permitted
  have off : session.job ≠ some id := by simp [free]
  rcases perform_cases env stores .claim with ⟨_, _, failing, performed⟩ | performed
  · cases failing
    exact steps_refused role performed (by simp) rfl
  · rcases stores.redis.claimScript_cases with
      ⟨after, script, unclaimed⟩ | ⟨member, owner, after, script, claimed⟩
    · simp only [performStore, script, Stores.claimReply] at performed
      exact steps_passed role performed (by simp) rfl (by rw [unclaimed.lock])
        (by rw [unclaimed.processing]) unclaimed.dlq unclaimed.fewer
        fun reads p own => unclaimed.waiting p ((legible reads).mono own)
    · simp only [performStore, script, Stores.claimReply] at performed
      have named := claimed.hasId
      by_cases same : owner = id
      · subst same
        have isOf : member.isOf owner = true := Member.isOf_iff.mpr named
        have carries : member.carries owner member.brief = true := by
          simp [Member.carries, named]
        -- A record of this job: one fewer waits, and the thread carries what it said.
        have lost := claimed.fewer (Member.isOf owner)
        have carried := claimed.fewer (Member.carries owner member.brief)
        simp only [isOf, if_true] at lost
        simp only [carries, if_true] at carried
        have present : 0 < stores.redis.waiting (Member.carries owner member.brief) := by omega
        have remains (reads : d.legible) (brief : Brief)
            (was : 0 < stores.redis.waiting (Member.carries owner brief)) :
            0 < after.waiting (Member.carries owner brief) ∨ brief = member.brief := by
          by_cases equal : brief = member.brief
          · exact .inr equal
          · have other : member.carries owner brief = false := by
              simpa [Member.carries] using fun _ => fun reverse => equal reverse.symm
            have counted := claimed.waiting (Member.carries owner brief)
              ((legible reads).mono isOf_of_carries)
            simp only [other, Bool.false_eq_true, if_false] at counted
            exact .inl (by omega)
        have step : Life.Step d (stores.life owner roles) (.act thread .claims) _ :=
          .claims (role.trans (roleFor_of_off off)) claimed.free lost present
            (fewer_of_script fun p => Nat.le_of_add_right_le (claimed.fewer p)) remains
        simpa [Steps, lifeAfter, performed, named, Session.advance, Session.claimed,
          Session.roleFor, idle, Life.put, Stores.life, Redis.letters, claimed.lock,
          claimed.processing, claimed.dlq] using step
      · have different : member.id? ≠ some id := by simp [named, same]
        -- A record of another job: lock and entry of this one are not touched.
        have unlocked : after.lock id = stores.redis.lock id := by
          rw [claimed.lock, Function.update_of_ne fun equal => same equal.symm]
        have unlisted : after.processing id = stores.redis.processing id := by
          rw [claimed.processing, Function.update_of_ne fun equal => same equal.symm]
        refine steps_passed role performed (by simp [different]) ?_ unlocked unlisted claimed.dlq
          (fun p => Nat.le_of_add_right_le (claimed.fewer p)) ?_
        · simp [Session.advance, Session.claimed, Session.roleFor, free, named, same]
        · intro reads p own
          have fails : p member = false := by
            cases holds : p member with
            | false => rfl
            | true => exact absurd (Member.isOf_iff.mp (own member holds)) different
          simpa [fails] using (claimed.waiting p ((legible reads).mono own)).symm

theorem steps_drainDelayed {cutoff : Int} {maxBatch : Nat}
    (role : roles thread = session.roleFor id) :
    Steps d id stores env session roles thread (.drainDelayed cutoff maxBatch) := by
  rcases perform_cases env stores (.drainDelayed cutoff maxBatch) with
    ⟨_, _, failing, performed⟩ | performed
  · cases failing
    exact steps_refused role performed (by simp) rfl
  · have promoted := stores.redis.drainDelayedScript_promoted cutoff maxBatch env.now.unixMilli
    have carried (brief : Brief) :
        0 < (stores.redis.drainDelayedScript cutoff maxBatch env.now.unixMilli).2.waiting
            (Member.carries id brief) ↔
          0 < stores.redis.waiting (Member.carries id brief) :=
      ⟨fun present => Nat.lt_of_lt_of_le present (promoted.waiting _), promoted.kept _⟩
    have step : Life.Step d (stores.life id roles) (.act thread .promotes) _ :=
      .promotes (promoted.waiting (Member.isOf id)) (promoted.kept _)
    have settled : Function.update roles thread (session.roleFor id) = roles := by
      rw [← role, Function.update_eq_self]
    simpa [Steps, lifeAfter, performed, performStore, Session.advance, settled,
      carried, Stores.life, Redis.letters, promoted.lock, promoted.processing, promoted.dlq] using step

/-! ### The handler -/

theorem steps_findHandler {job : Job} (role : roles thread = session.roleFor id)
    (permitted : d.permits session (.findHandler job)) :
    Steps d id stores env session roles thread (.findHandler job) := by
  obtain ⟨⟨on, opened, _⟩, tried, claimed, due⟩ := permitted
  have performed : perform env stores (.findHandler job) = (env.registered, stores) := by
    simp [perform, failed?, performStore]
  cases found : env.registered with
  | true =>
    exact steps_other role (by simp [performed, found]) (by rw [performed])
      (by simp [performed, found, Session.advance])
  | false =>
    -- Without a handler the execution has failed before it was started.
    by_cases same : job.id = id
    · subst same
      have step : Life.Step d (stores.life job.id roles) (.act thread .misses) _ :=
        .misses (role.trans (roleFor_of_on on)) opened tried claimed due
      simpa [Steps, lifeAfter, performed, found, Session.advance, Session.failedOnce,
        Session.roleFor, on, Life.put, Stores.life] using step
    · have off : session.job ≠ some id := by simp [on, same]
      exact steps_other role (by simp [same]) (by rw [performed])
        (by simp [performed, found, Session.advance, Session.failedOnce, Session.roleFor, off])

theorem steps_startHandler {job : Job} (role : roles thread = session.roleFor id)
    (permitted : d.permits session (.startHandler job)) :
    Steps d id stores env session roles thread (.startHandler job) := by
  obtain ⟨⟨on, opened, _⟩, tried, claimed, due⟩ := permitted
  by_cases same : job.id = id
  · subst same
    have step : Life.Step d (stores.life job.id roles) (.act thread .starts) _ :=
      .starts (role.trans (roleFor_of_on on)) opened tried claimed due
    simpa [Steps, lifeAfter, perform, failed?, performStore, Session.advance,
      Session.roleFor, on, Life.put, Stores.life, Ledger.noteStart] using step
  · have off : session.job ≠ some id := by simp [on, same]
    have different : id ≠ job.id := fun equal => same equal.symm
    exact steps_other role (by simp [same])
      (by simp [perform, failed?, performStore, Stores.life, Ledger.noteStart, different])
      (by simp [Session.advance, Session.roleFor, off])

theorem steps_awaitHandler {job : Job} (role : roles thread = session.roleFor id)
    (permitted : d.permits session (.awaitHandler job)) :
    Steps d id stores env session roles thread (.awaitHandler job) := by
  obtain ⟨⟨on, opened, _⟩, tried, claimed, running⟩ := permitted
  by_cases same : job.id = id
  · subst same
    have current := role.trans (roleFor_of_on on)
    have passed : Life.Step d (stores.life job.id roles) (.act thread (.ends true)) _ :=
      .succeeds current opened tried claimed running
    have failed : Life.Step d (stores.life job.id roles) (.act thread (.ends false)) _ :=
      .fails current opened tried claimed running
    cases outcome : env.handler with
    | returnedNil =>
      simpa [Steps, lifeAfter, perform, failed?, performStore, outcome,
        Session.advance, Session.roleFor, on, Life.put, Stores.life, Ledger.noteSuccess] using passed
    | returned | panicked =>
      simpa [Steps, lifeAfter, perform, failed?, performStore, outcome,
        Session.advance, Session.failedOnce, Session.roleFor, on, Life.put, Stores.life] using failed
  · have off : session.job ≠ some id := by simp [on, same]
    have different : id ≠ job.id := fun equal => same equal.symm
    refine steps_other role (by simp [same]) ?_ ?_
    · cases outcome : env.handler <;>
        simp [perform, failed?, performStore, outcome, Stores.life, Ledger.noteSuccess, different]
    · cases outcome : env.handler <;>
        simp [perform, failed?, performStore, outcome, Session.advance, Session.failedOnce,
          Session.roleFor, off]

/-- A fresh id makes the thread one of the job's threads. -/
theorem steps_randomUUID (role : roles thread = session.roleFor id)
    (permitted : d.permits session .randomUUID) :
    Steps d id stores env session roles thread .randomUUID := by
  obtain ⟨free, stage, due, token⟩ := permitted
  have off : session.job ≠ some id := by simp [free]
  have performed : perform env stores .randomUUID = (env.uuid, stores) := by
    simp [perform, failed?, performStore]
  by_cases same : env.uuid = id
  · have step : Life.Step d (stores.life id roles) (.act thread (.enters session.token))
        ((stores.life id roles).put thread
          (some ⟨.idle, session.token, session.brief, .due⟩)) :=
      .enters (role.trans (roleFor_of_off off)) token
    rw [← stage, ← due] at step
    simpa [Steps, lifeAfter, performed, same, Session.advance, Session.roleFor,
      Life.put, Stores.life] using step
  · exact steps_other role (by simp [performed, same]) (by rw [performed])
      (by simp [performed, same, Session.advance, Session.roleFor, free])

/-! ### Every call -/

theorem life_of_reader {c : Call} (reads : (perform env stores c).2 = stores) :
    (perform env stores c).2.life id roles = stores.life id roles := by rw [reads]

/-- Every permitted call of a thread is one step of the life of every job. -/
theorem call_step {c : Call} (role : roles thread = session.roleFor id)
    (permitted : d.permits session c) (reachable : d.strict → env.fails = false)
    (legible : d.legible → c = .claim → stores.redis.Legible (Member.isOf id)) :
    Steps d id stores env session roles thread c := by
  cases c with
  | insertJob params => exact steps_insertJob role permitted
  | cancelJob job => exact steps_cancelJob role permitted
  | requeueJob job resetRetries => exact steps_requeueJob role permitted
  | updateJobStatus job => exact steps_updateJobStatus role permitted reachable
  | command command => exact steps_command role permitted reachable
  | claim => exact steps_claim role permitted fun reads => legible reads rfl
  | drainDelayed cutoff maxBatch => exact steps_drainDelayed role
  | randomUUID => exact steps_randomUUID role permitted
  | findHandler job => exact steps_findHandler role permitted
  | startHandler job => exact steps_startHandler role permitted
  | awaitHandler job => exact steps_awaitHandler role permitted
  | getJob | depStatuses | zscan =>
    refine steps_silent role (fun _ => ⟨rfl, rfl⟩) (life_of_reader ?_)
    rcases perform_cases env stores _ with ⟨_, _, _, performed⟩ | performed <;> rw [performed]
    rfl
  | now | scanPages | backoff | deliver =>
    exact steps_silent role (fun _ => ⟨rfl, rfl⟩)
      (life_of_reader (by simp [perform, failed?, performStore]))
  | count metric =>
    refine steps_silent role (fun _ => ⟨rfl, rfl⟩) ?_
    simp [perform, failed?, performStore, Stores.life, Ledger.noteCount]

end Call

/-! ## Replies -/

theorem perform_wellFormed (env : Env) (stores : Stores) (c : Call) :
    c.wellFormed (perform env stores c).1 := by
  cases c with
  | insertJob params =>
    intro row replied
    rcases perform_cases env stores (.insertJob params) with ⟨_, _, failing, performed⟩ | performed
    · cases failing
      rw [performed] at replied
      cases replied
    · rcases stores.jobs.insertJob_cases params env.now with
        ⟨error, inserted⟩ | ⟨created, _, inserted, _, zero, _⟩
      · simp [performed, performStore, inserted] at replied
      · simp only [performed, performStore, inserted, Except.ok.injEq] at replied
        exact replied ▸ zero
  | claim =>
    intro member replied
    rcases perform_cases env stores .claim with ⟨_, _, failing, performed⟩ | performed
    · cases failing
      rw [performed] at replied
      cases replied
    · rcases stores.redis.claimScript_cases with
        ⟨after, script, _⟩ | ⟨popped, owner, after, script, claimed⟩
      · simp [performed, performStore, script, Stores.claimReply] at replied
      · simp only [performed, performStore, script, Stores.claimReply, Except.ok.injEq,
          Option.some.injEq] at replied
        simp [← replied, claimed.hasId]
  | _ => trivial

/-! ## The system and a life -/

section System

variable {d : Discipline} {proc : Processor} {id : JobId}

/-- Every thread keeps to the protocol from where it stands. -/
def Conforming (d : Discipline) (state : SystemState) : Prop :=
  ∀ thread, Completes d (state.threads thread).session (state.threads thread).program

theorem conforming_initial (d : Discipline) (proc : Processor) (stores : Stores) :
    Conforming d ((taskfire proc).initial stores) :=
  fun _ => idle_final

/-- A worker that claims meets no record of the job that `cjson` does not read. -/
def Legibly (id : JobId) (state : SystemState) (action : SystemAction) : Prop :=
  ∀ thread env, action = .exec thread env → (state.threads thread).next? = some .claim →
    state.store.redis.Legible (Member.isOf id)

/-- A ZREM of a member that is not there. -/
def Call.vain (stores : Stores) : Call → Bool
  | .command (.zrem key member) => decide (member ∉ (stores.redis.zset key).members)
  | _ => false

/-- What one step of the system is to job `id`. -/
inductive Shows (id : JobId) (state : SystemState) : SystemAction → Label → Prop
  | spawn {thread : Nat} {entry : Entry} : entry.session.job = some id →
      Shows id state (.spawn thread entry) (.act thread (.enters entry.session.token))
  | exec {thread : Nat} {env : Env} {c : Call} {next : c.Reply → Prog Result} :
      (state.threads thread).program = .call c next → c.vain state.store = false →
      Shows id state (.exec thread env) (.act thread
        (c.event id (state.threads thread).session (perform env state.store c).1))
  | vain {thread : Nat} {env : Env} {c : Call} {next : c.Reply → Prog Result} :
      (state.threads thread).program = .call c next → c.vain state.store = true →
      Shows id state (.exec thread env) (.act thread .other)
  | crash {thread : Nat} : Shows id state (.crash thread) (.crash thread)
  | expire {lock : JobId} : Shows id state (.tick lock) .expire

variable {before after : SystemState} {action : SystemAction}

theorem conforming_step (conforming : Conforming d before)
    (stepped : (taskfire proc).step before action = some after)
    (entries : ∀ thread entry, action = .spawn thread entry → entry.Admissible d proc)
    (reachable : ∀ thread env, action = .exec thread env → d.strict → env.fails = false) :
    Conforming d after := by
  refine Machine.step_follows stepped conforming idle_final
    (fun thread entry acts => (entries thread entry acts).completes) ?_
  intro thread env c acts _
  exact ⟨perform_wellFormed env before.store c, fun strict =>
    perform_served before.store c (reachable thread env acts strict)⟩

/-- A thread that has ended may have left the job. -/
def MayLeave (d : Discipline) (id : JobId) (threads : Nat → SystemThread) (before after : Life) : Prop :=
  after = before ∨ ∃ thread, (threads thread).Finished ∧
    before.roles thread = (threads thread).session.roleFor id ∧
    Life.Step d before (.leave thread) after

/-- Removing what is not there does nothing. -/
theorem steps_vain {stores : Stores} {env : Env} {session : Session} {roles : Nat → Option Role}
    {thread : Nat} {c : Call} (role : roles thread = session.roleFor id)
    (vain : c.vain stores = true) :
    Life.Step d (stores.life id roles) (.act thread .other)
      (lifeAfter id stores env session roles thread c) := by
  have silent : (perform env stores c).2 = stores ∧
      session.advance c (perform env stores c).1 = session := by
    cases c with
    | command command =>
      cases command with
      | zrem key member =>
        have absent := of_decide_eq_true vain
        have same : stores.redis.zrem key member = stores.redis := by
          rw [Redis.zrem, SortedSet.remove_of_not_mem absent, Redis.setZset, Function.update_eq_self]
        refine ⟨?_, rfl⟩
        obtain ⟨_, _, performed⟩ | performed := command_cases env stores (.zrem key member)
        · rw [performed]
        · rw [performed, Stores.applyCommand, same]
      | zadd | hdelProcessing | delLock | lpushDone | ltrimDone | publish =>
        exact absurd vain Bool.false_ne_true
    | _ => exact absurd vain Bool.false_ne_true
  rw [lifeAfter, silent.1, silent.2, ← role, Function.update_eq_self]
  exact .other

/-- A thread's call is one thing that happens to the job. -/
theorem call_shows {thread : Nat} {env : Env} {c : Call} {next : c.Reply → Prog Result}
    (role : roleOf id (before.threads thread) = (before.threads thread).session.roleFor id)
    (program : (before.threads thread).program = .call c next)
    (permitted : d.permits (before.threads thread).session c)
    (reachable : d.strict → env.fails = false)
    (legible : d.legible → Legibly id before (.exec thread env)) :
    ∃ label, Shows id before (.exec thread env) label ∧
      Life.Step d (life id before) label (lifeAfter id before.store env
        (before.threads thread).session (fun thread => roleOf id (before.threads thread)) thread c) := by
  cases vain : c.vain before.store with
  | true => exact ⟨_, .vain program vain, steps_vain role vain⟩
  | false =>
    refine ⟨_, .exec program vain, call_step role permitted reachable fun reads claims => ?_⟩
    exact legible reads thread env rfl (by simp [Thread.next?, program, claims])

/-- A thread that has just ended leaves the job. -/
theorem life_settles (stores : Stores) (roles : Nat → Option Role) {threads : Nat → SystemThread}
    {thread : Nat} {current : SystemThread} (now : threads thread = current)
    (role : roles thread = current.session.roleFor id)
    (completes : Completes d current.session current.program) :
    MayLeave d id threads (stores.life id roles)
      (stores.life id (Function.update roles thread (roleOf id current))) := by
  obtain ⟨session, program⟩ := current
  cases program with
  | call c next =>
    left
    rw [roleOf, ← role, Function.update_eq_self]
  | pure value =>
    by_cases on : session.job = some id
    · have step : Life.Step d (stores.life id roles) (.leave thread) _ :=
        .leaves (role.trans (roleFor_of_on on)) completes
      rw [← now] at role
      exact .inr ⟨thread, ⟨value, by rw [now]⟩, role, step⟩
    · left
      rw [show roleOf id ⟨session, .pure value⟩ = none from rfl, ← roleFor_of_off on, ← role,
        Function.update_eq_self]

theorem entry_session_fresh (entry : Entry) :
    entry.session.stage = .idle ∧ entry.session.attempt = .due := by
  cases entry <;> simp [Entry.session, Entry.bringing, Session.rest]

theorem life_put (state : SystemState) (thread : Nat) (current : SystemThread) :
    life id (state.put thread current) = state.store.life id
      (Function.update (fun thread => roleOf id (state.threads thread)) thread (roleOf id current)) := by
  have roles : (fun other => roleOf id ((state.put thread current).threads other)) =
      Function.update (fun thread => roleOf id (state.threads thread)) thread (roleOf id current) := by
    funext other
    by_cases same : other = thread
    · subst same
      simp
    · rw [State.put_other _ _ same, Function.update_of_ne same]
  rw [life, roles]
  rfl

/-- A step of the system is at most one thing that happens to the job, after which the thread may
leave it. -/
theorem life_cases (conforming : Conforming d before)
    (stepped : (taskfire proc).step before action = some after)
    (entries : ∀ thread entry, action = .spawn thread entry → entry.Admissible d proc)
    (reachable : ∀ thread env, action = .exec thread env → d.strict → env.fails = false)
    (legible : d.legible → Legibly id before action) :
    ∃ middle, MayLeave d id after.threads middle (life id after) ∧
      ((∃ thread entry, action = .spawn thread entry ∧ middle = life id before) ∨
        ∃ label, Shows id before action label ∧ Life.Step d (life id before) label middle) := by
  have settled := conforming_step conforming stepped entries reachable
  cases action with
  | spawn thread entry =>
    obtain ⟨⟨value, ended⟩, rfl⟩ := Machine.step_spawn stepped
    have gone : roleOf id (before.threads thread) = none := by simp only [roleOf, ended]
    have completes := settled thread
    rw [State.put_same] at completes
    rw [life_put]
    -- A thread that works for another job, or for none yet, is not seen in this life.
    by_cases on : entry.session.job = some id
    · obtain ⟨stage, due⟩ := entry_session_fresh entry
      have entered : Life.Step d (life id before) (.act thread (.enters entry.session.token))
          ((life id before).put thread
            (some ⟨.idle, entry.session.token, entry.session.brief, .due⟩)) :=
        .enters gone (entries thread entry rfl).enters
      have role : (some ⟨.idle, entry.session.token, entry.session.brief, .due⟩ :
          Option Role) = entry.session.roleFor id := by
        rw [roleFor_of_on on, ← stage, ← due]
      rw [role] at entered
      refine ⟨_, ?_, .inr ⟨_, .spawn on, entered⟩⟩
      have left := life_settles before.store (Function.update (fun thread =>
        roleOf id (before.threads thread)) thread (entry.session.roleFor id))
        (State.put_same before thread _) (Function.update_self ..) completes
      rw [Function.update_idem] at left
      exact left
    · have role : roleOf id (before.threads thread) = entry.session.roleFor id := by
        rw [gone, roleFor_of_off on]
      exact ⟨_, life_settles _ _ (State.put_same ..) role completes, .inl ⟨thread, entry, rfl, rfl⟩⟩
  | exec thread env =>
    obtain ⟨c, next, program, rfl⟩ := Machine.step_exec stepped
    have permitted := (program ▸ conforming thread : Completes d _ (.call c next)).1
    have role : roleOf id (before.threads thread) = (before.threads thread).session.roleFor id := by
      simp only [roleOf, program]
    -- One call is one step of the life, and the end of the program is another.
    have completes := settled thread
    rw [Machine.executed_same] at completes
    have called := call_shows role program permitted (reachable thread env rfl)
      fun reads => legible reads
    refine ⟨_, ?_, .inr called⟩
    have left := life_settles (perform env before.store c).2 (Function.update (fun thread =>
      roleOf id (before.threads thread)) thread
        (((before.threads thread).session.advance c (perform env before.store c).1).roleFor id))
      (Machine.executed_same ..) (Function.update_self ..) completes
    rw [Function.update_idem] at left
    rw [Machine.executed, life_put]
    exact left
  | tick lock =>
    rw [Machine.step_tick stepped]
    have lost : (before.store.redis.expireLock lock).lock id = false ∨
        (before.store.redis.expireLock lock).lock id = (life id before).locked := by
      by_cases same : id = lock
      · subst same
        simp [Redis.expireLock]
      · simp [Redis.expireLock, Function.update_of_ne same, life, Stores.life]
    have expired : Life.Step d (life id before) .expire _ := .expires lost
    exact ⟨_, .inl rfl, .inr ⟨_, .expire, expired⟩⟩
  | crash thread =>
    rw [Machine.step_crash stepped, life_put]
    exact ⟨_, .inl rfl, .inr ⟨_, .crash, .crashes⟩⟩

theorem life_step {keeps : Life → Label → Prop} (conforming : Conforming d before)
    (stepped : (taskfire proc).step before action = some after)
    (entries : ∀ thread entry, action = .spawn thread entry → entry.Admissible d proc)
    (reachable : ∀ thread env, action = .exec thread env → d.strict → env.fails = false)
    (legible : d.legible → Legibly id before action)
    (kept : ∀ label, Shows id before action label → keeps (life id before) label)
    (leaves : ∀ life thread, keeps life (.leave thread)) :
    Reach (Life.Step d) keeps (life id before) (life id after) := by
  obtain ⟨middle, left, happened⟩ := life_cases conforming stepped entries reachable legible
  have ends : Reach (Life.Step d) keeps middle (life id after) := by
    obtain same | ⟨thread, _, _, left⟩ := left
    · rw [same]
      exact .refl middle
    · exact .single (leaves middle thread) left
  obtain ⟨_, _, _, same⟩ | ⟨label, shows, step⟩ := happened
  · rwa [same] at ends
  · exact (Reach.single (kept label shows) step).trans ends

/-- Every run of the system is, for every job, a run of its life. -/
theorem life_reach {runs : SystemState → SystemAction → Prop} {keeps : Life → Label → Prop}
    {first last : SystemState} (run : (taskfire proc).Run runs first last)
    (base : Conforming d first)
    (entries : ∀ state thread entry, runs state (.spawn thread entry) → entry.Admissible d proc)
    (reachable : ∀ state thread env, runs state (.exec thread env) → d.strict → env.fails = false)
    (legible : d.legible → ∀ state action, runs state action → Legibly id state action)
    (kept : ∀ state action label, Conforming d state → runs state action →
      Shows id state action label → keeps (life id state) label)
    (leaves : ∀ life thread, keeps life (.leave thread)) :
    Conforming d last ∧ Reach (Life.Step d) keeps (life id first) (life id last) := by
  refine run.simulates (Conforming d) (life id) base ?_ ?_
  · intro before action after conforming kept stepped
    exact conforming_step conforming stepped
      (fun thread entry acts => entries before thread entry (acts ▸ kept))
      fun thread env acts => reachable before thread env (acts ▸ kept)
  · intro before action after conforming runs stepped
    exact life_step conforming stepped
      (fun thread entry acts => entries before thread entry (acts ▸ runs))
      (fun thread env acts => reachable before thread env (acts ▸ runs))
      (fun reads => legible reads before action runs)
      (fun label shows => kept before action label conforming runs shows) leaves

end System

end Taskfire
