import Taskfire.Safety.Runs

/-!
# Cancelled jobs

`DELETE /:id` marks the row failed and then takes one record out of one lane.  A record in the
delayed set, in a fetcher's hands or claimed by a worker stays, and the worker's update of the row
is unconditional.  What the answer 204 means is therefore decided by what happens between the
`cancelJob` statement and the answer, and by the records that are left then.
-/

namespace Taskfire

open Taskfire.Library

/-! ## The answer of a DELETE -/

/-- The thread was a DELETE of the job and has answered 204. -/
def deleted (id : JobId) (thread : SystemThread) : Prop :=
  thread.session.entry = some (.delete id) ∧
    ∃ body, thread.program = .pure (.response ⟨204, body⟩)

/-- A DELETE that answers 204 has cancelled its job. -/
def Answers (result : Result) (session : Session) : Prop :=
  ∀ id body, session.entry = some (.delete id) → result = .response ⟨204, body⟩ →
    session.job = some id ∧ session.stage = .cancelled

abbrev AnswersFrom (session : Session) (program : Prog Result) : Prop :=
  program.Follows (fun _ _ => True) Session.advance (fun _ _ => True) Answers session

theorem advance_entry (session : Session) (c : Call) (reply : c.Reply) :
    (session.advance c reply).entry = session.entry := by
  cases c with
  | command command =>
    cases command with
    | zadd key score member =>
      simp only [Session.advance, Session.advanceCommand]
      split
      · cases key <;> rfl
      · rfl
    | _ => rfl
  | insertJob params => cases reply <;> rfl
  | cancelJob job =>
    simp only [Session.advance]
    split <;> rfl
  | requeueJob job resetRetries =>
    simp only [Session.advance]
    split <;> rfl
  | claim =>
    simp only [Session.advance]
    split <;> rfl
  | awaitHandler job => cases reply <;> rfl
  | findHandler job => cases reply <;> rfl
  | _ => rfl

theorem answers_of_entry {session : Session} (other : ∀ id, session.entry ≠ some (.delete id))
    (program : Prog Result) : AnswersFrom session program := by
  induction program generalizing session with
  | pure value => exact fun id _ entry => absurd entry (other id)
  | call c next inductionHypothesis =>
    refine ⟨trivial, fun reply _ => inductionHypothesis reply fun id => ?_⟩
    have same := advance_entry session c reply
    exact fun entry => other id (same.symm.trans entry)

/-- The calls of the removal, which leave a session as it is. -/
def Call.removes : Call → Prop
  | .scanPages | .zscan _ | .command (.zrem _ _) => True
  | _ => False

theorem removeFromPage_removes (key : ZKey) (id : JobId) (members : List Member) :
    (Api.removeFromPage key id members).Uses Call.removes := by
  induction members with
  | nil => exact trivial
  | cons member members inductionHypothesis =>
    simp only [Api.removeFromPage]
    split
    · refine ⟨trivial, fun reply => ?_⟩
      cases reply with
      | ok done => exact trivial
      | error error => exact inductionHypothesis
    · exact inductionHypothesis

theorem removeFromPages_removes (key : ZKey) (id : JobId) (pages : Nat) :
    (Api.removeFromPages key id pages).Uses Call.removes := by
  induction pages with
  | zero => exact trivial
  | succ pages inductionHypothesis =>
    simp only [Api.removeFromPages, Program.perform_bind, Program.uses_call]
    refine ⟨trivial, fun reply => ?_⟩
    cases reply with
    | error error => exact trivial
    | ok members =>
      refine Program.uses_bind (removeFromPage_removes key id members) fun removed => ?_
      cases removed with
      | true => exact trivial
      | false => exact inductionHypothesis

theorem removeFromQueue_removes (id : JobId) (priority : Priority) :
    (Api.removeFromQueue id priority).Uses Call.removes :=
  ⟨trivial, fun pages => removeFromPages_removes _ id (pages + 1)⟩

theorem deleteJob_answers (id : JobId) : AnswersFrom (Entry.delete id).session (do
    let response ← Api.deleteJob id
    pure (.response response)) := by
  -- Every answer but the last has another status.
  have refused (response : Response) (session : Session) (other : response.status ≠ 204) :
      Answers (.response response) session := by
    intro _ _ _ answered
    cases answered
    exact absurd rfl other
  apply (Program.follows_bind ..).mpr
  simp only [Api.deleteJob, Program.perform_bind, Program.follows_call]
  refine ⟨trivial, fun found _ => ?_⟩
  cases found with
  | error error => exact refused _ _ (by decide)
  | ok existing =>
    cases existing with
    | none => exact refused _ _ (by decide)
    | some existing =>
      simp only
      split
      · exact refused _ _ (by decide)
      · split
        · exact refused _ _ (by decide)
        · refine ⟨trivial, fun reply _ => ?_⟩
          cases reply with
          | error error => exact refused _ _ (by decide)
          | ok updated =>
            cases updated with
            | none => exact refused _ _ (by decide)
            | some row =>
              -- From here on the session is that of a DELETE that has cancelled.
              refine Program.Follows.bind ((removeFromQueue_removes id existing.priority).follows
                (Program.returns_of_forall _ fun _ => trivial) (fun _ _ => trivial) ?_) ?_
              · intro c reply removes
                cases c with
                | scanPages | zscan => rfl
                | command command => cases command <;> first | rfl | cases removes
                | _ => cases removes
              · intro outcome last same
                rw [same.1]
                intro id' body entry answered
                cases entry
                exact ⟨rfl, rfl⟩

theorem entry_answers (proc : Processor) (entry : Entry) :
    AnswersFrom entry.session (entry.program proc) := by
  cases entry with
  | delete id => exact deleteJob_answers id
  | _ => exact answers_of_entry (fun id => by simp [Entry.session, Entry.bringing]) _

/-- In every run, whatever it keeps, a DELETE that has answered 204 had cancelled its job. -/
theorem answers_reach {proc : Processor} {runs : SystemState → SystemAction → Prop}
    {last : SystemState} (run : (taskfire proc).Run runs (beginning proc) last) (thread : Nat) :
    AnswersFrom (last.threads thread).session (last.threads thread).program := by
  refine run.invariant (fun state => ∀ thread,
    AnswersFrom (state.threads thread).session (state.threads thread).program) ?_ ?_ thread
  · intro thread id body entry
    cases entry
  · intro before action after held _ stepped
    refine Machine.step_follows stepped held ?_ (fun _ entry _ => entry_answers proc entry)
      fun _ _ _ _ _ => trivial
    intro id body entry
    cases entry

/-! ## Between the statement and the answer -/

namespace Life

/-- The thread is a DELETE of the job between its `cancelJob` and its answer. -/
def deleting (thread : Nat) (life : Life) : Prop :=
  ∃ role, life.roles thread = some role ∧ role.stage = .cancelled

/-- Until the DELETE answers, the row it marked is left alone. -/
def Undisturbed (thread : Nat) (life : Life) (label : Label) : Prop :=
  life.deleting thread → ∀ other, label ≠ .act other .requeues ∧
    ∀ status, label ≠ .act other (.marks status)

/-- A row whose DELETE has not answered yet is failed. -/
def Failing (thread : Nat) (life : Life) : Prop :=
  life.deleting thread → life.status = some .failed

variable {before after : Life} {d : Discipline} {label : Label} {thread watched : Nat}

theorem deleting_of_put {next : Option Role}
    (shut : ∀ held, next = some held → held.stage = .cancelled → before.deleting thread)
    (roles : after.roles = (before.put thread next).roles) (deleting : after.deleting watched) :
    before.deleting watched := by
  obtain ⟨held, current, cancelled⟩ := deleting
  obtain ⟨rfl, turned⟩ | ⟨_, old⟩ := role_of_turned roles current
  · exact shut held turned cancelled
  · exact ⟨held, old, cancelled⟩

/-- The thread turns to a role that is in the stage of a cancellation only if it was before. -/
theorem deleting_of_turn {role next : Role} (current : before.roles thread = some role)
    (deleting : after.deleting watched)
    (roles : after.roles = (before.put thread (some next)).roles)
    (stage : next.stage = .cancelled → role.stage = .cancelled) : before.deleting watched := by
  refine deleting_of_put ?_ roles deleting
  intro held shape cancelled
  cases shape
  exact ⟨role, current, stage cancelled⟩

theorem failing_step (failing : before.Failing watched) (kept : Undisturbed watched before label)
    (step : Step d before label after) : after.Failing watched := by
  intro deleting
  cases step with
  | enters | claims =>
    exact failing (deleting_of_put (turns_to fun cancelled => by cases cancelled) rfl deleting)
  | inserts current absent missing =>
    -- The job is being deleted, so that its row exists already.
    have failed := failing (deleting_of_turn current deleting rfl id)
    simp [status, missing] at failed
  | cancels current idle found notActive notCompleted rewrites =>
    exact congrArg some rewrites.status
  | requeues current =>
    have was := deleting_of_turn current deleting rfl id
    exact absurd rfl (kept was _).1
  | marks current =>
    have was := deleting_of_turn current deleting rfl id
    exact absurd rfl ((kept was _).2 _)
  | marksNothing current | failsToMark current | buries current | starts current
  | succeeds current | fails current | misses current =>
    exact failing (deleting_of_turn current deleting rfl id)
  | places current => exact failing (deleting_of_turn current deleting rfl putBack_cancelled)
  | unlists current | failsToUnlist current =>
    exact failing (deleting_of_turn current deleting rfl unlisted_cancelled)
  | unlocks current | failsToUnlock current =>
    refine failing (deleting_of_turn current deleting rfl ?_)
    intro cancelled
    cases cancelled
  | removes | drops | promotes | other | expires => exact failing deleting
  | leaves | crashes => exact failing (deleting_of_put turns_away rfl deleting)

end Life

/-! ## After the answer -/

/-- The thread is a DELETE of the job between its `cancelJob` and its answer. -/
def deleting (id : JobId) (thread : Nat) (state : SystemState) : Prop :=
  ¬ (state.threads thread).Finished ∧ (state.threads thread).session.on id ∧
    (state.threads thread).session.stage = .cancelled

/-- Between the `cancelJob` of the thread's DELETE and its answer, no retry and no worker writes the
row. -/
def Undisturbed (id : JobId) (thread : Nat) (state : SystemState) (action : SystemAction) : Prop :=
  Starting Entry.isRooted action ∧ (deleting id thread state → ∀ other,
    ¬ Does id state action other .requeues ∧
      ∀ status, ¬ Does id state action other (.marks status))

/-- A step that is no retry of the job. -/
def Unretried (id : JobId) (state : SystemState) (action : SystemAction) : Prop :=
  Starting Entry.isRooted action ∧ ∀ thread, ¬ Does id state action thread .requeues

section

variable {proc : Processor} {id : JobId} {prior asked before answered last : SystemState}
variable {thread : Nat} {env : Env}

theorem deleting_of_life (was : (life id before).deleting thread) : deleting id thread before := by
  obtain ⟨role, current, cancelled⟩ := was
  obtain ⟨unfinished, on, rfl⟩ := roleOf_cases current
  exact ⟨unfinished, on, cancelled⟩

theorem Undisturbed.life {state : SystemState} {action : SystemAction} {label : Label}
    (kept : Undisturbed id thread state action) (shows : Shows id state action label) :
    (life id state).Undisturbed thread label := by
  intro was other
  have undisturbed := kept.2 (deleting_of_life was) other
  refine ⟨?_, fun status => ?_⟩
  · rintro rfl
    exact undisturbed.1 shows
  · rintro rfl
    exact undisturbed.2 status shows

/-- A request that has just come in has cancelled nothing. -/
theorem not_deleting_of_spawned {entry : Entry}
    (asks : (taskfire proc).step prior (.spawn thread entry) = some asked) :
    ¬ (life id asked).deleting thread := by
  rintro ⟨role, current, cancelled⟩
  obtain ⟨_, rfl⟩ := Machine.step_spawn asks
  obtain ⟨_, _, rfl⟩ := roleOf_cases current
  rw [State.put_same] at cancelled
  cases cancelled.symm.trans (entry_session_fresh entry).1

theorem asked_reach
    (run : (taskfire proc).Run (fun _ => Starting Entry.isRooted) (beginning proc) prior)
    (asks : (taskfire proc).step prior (.spawn thread (.delete id)) = some asked) :
    (taskfire proc).Run (fun _ => Starting Entry.isRooted) (beginning proc) asked := by
  have asking : Starting Entry.isRooted (.spawn thread (.delete id)) := rfl
  exact .tail run asking asks

/-- From the request to the end of the window the row is failed once it is cancelled. -/
theorem failing_reach
    (run : (taskfire proc).Run (fun _ => Starting Entry.isRooted) (beginning proc) prior)
    (asks : (taskfire proc).step prior (.spawn thread (.delete id)) = some asked)
    (window : (taskfire proc).Run (Undisturbed id thread) asked last) :
    Conforming (.lax proc) last ∧ (life id last).Failing thread := by
  obtain ⟨conforming, _⟩ := @lax_reach proc id _ _ _ (fun _ _ => True) (asked_reach run asks)
    (conforming_initial _ proc _) (fun _ _ starting => starting) (fun _ _ _ _ _ => trivial)
    fun _ _ => trivial
  obtain ⟨conforming, reach⟩ := lax_reach (Life.Undisturbed thread) window conforming
    (fun _ _ runs => runs.1) (fun _ _ _ runs shows => runs.life shows)
    (fun _ _ _ _ => ⟨nofun, fun _ => nofun⟩)
  refine ⟨conforming, reach.invariant (Life.Failing thread) ?_ ?_⟩
  · exact fun deleting => absurd deleting (not_deleting_of_spawned asks)
  · intro first label next failing kept step
    exact Life.failing_step failing kept step

/-- The row still reads failed when the DELETE answers. -/
theorem failed_when_answered
    (run : (taskfire proc).Run (fun _ => Starting Entry.isRooted) (beginning proc) prior)
    (asks : (taskfire proc).step prior (.spawn thread (.delete id)) = some asked)
    (window : (taskfire proc).Run (Undisturbed id thread) asked before)
    (kept : Undisturbed id thread before (.exec thread env))
    (answers : (taskfire proc).step before (.exec thread env) = some answered)
    (done : deleted id (answered.threads thread)) :
    answered.store.status id = some .failed := by
  obtain ⟨conforming, failing⟩ := failing_reach run asks window
  have whole := (asked_reach run asks).trans (window.mono fun _ _ kept => kept.1)
  have answering := answers_reach (.tail whole kept.1 answers) thread
  obtain ⟨entry, body, ended⟩ := done
  rw [ended] at answering
  obtain ⟨job, stage⟩ := answering id body entry rfl
  obtain ⟨c, next, program, rfl⟩ := Machine.step_exec answers
  rw [Machine.executed_same] at job stage
  have permitted := (program ▸ conforming thread : Completes (.lax proc) _ (.call c next)).1
  have role : roleOf id (before.threads thread) = (before.threads thread).session.roleFor id := by
    simp only [roleOf, program]
  obtain ⟨label, shows, called⟩ := call_shows (d := .lax proc) role program permitted False.elim
    False.elim
  -- The thread has not left the job yet in the life after its last call.
  have leaving : (lifeAfter id before.store env (before.threads thread).session
      (fun thread => roleOf id (before.threads thread)) thread c).deleting thread := by
    refine ⟨_, ?_, stage⟩
    simp only [lifeAfter, Stores.life, Function.update_self]
    exact roleFor_of_on job
  exact Life.failing_step failing (kept.life shows) called leaving

/-- If nothing else writes the row between the `cancelJob` of a DELETE and its answer, and no record
of the job is left then, the row stays failed and no handler starts, until someone retries the job.
Other requests, earlier ones of the same job included, may have met with anything. -/
theorem deleted_for_good
    (run : (taskfire proc).Run (fun _ => Starting Entry.isRooted) (beginning proc) prior)
    (asks : (taskfire proc).step prior (.spawn thread (.delete id)) = some asked)
    (window : (taskfire proc).Run (Undisturbed id thread) asked before)
    (kept : Undisturbed id thread before (.exec thread env))
    (answers : (taskfire proc).step before (.exec thread env) = some answered)
    (done : deleted id (answered.threads thread)) (none : noRecord id answered)
    (later : (taskfire proc).Run (Unretried id) answered last) :
    last.store.status id = some .failed ∧
      last.store.ledger.started id = answered.store.ledger.started id := by
  have failed := failed_when_answered run asks window kept answers done
  have rests : (life id answered).Rests .failed (answered.store.ledger.started id) :=
    ⟨failed, rfl, tokenless_iff.mpr none⟩
  have still := rests_reach later (failing_reach run asks (.tail window kept answers)).1
    (fun _ _ runs => runs.1) rests (.inl rfl) fun _ _ _ thread runs => runs.2 thread
  exact ⟨still.status, still.started⟩

end

/-! ## Examples -/

def deletedCheck (id : JobId) (thread : SystemThread) : Bool :=
  match thread.session.entry, thread.program with
  | some (.delete entry), .pure (.response response) => entry = id && response.status = 204
  | _, _ => false

theorem deleted_of_check {id : JobId} {thread : SystemThread}
    (checked : deletedCheck id thread = true) : deleted id thread := by
  simp only [deletedCheck] at checked
  split at checked
  · next entry response shape program =>
    obtain ⟨named, answered⟩ := Bool.and_eq_true .. ▸ checked
    have same : entry = id := of_decide_eq_true named
    have status : response.status = 204 := of_decide_eq_true answered
    exact ⟨by rw [shape, same], response.body, by rw [program, ← status]⟩
  · cases checked

/-- A retry, or an update by a worker. -/
def Event.rewrites : Event → Bool
  | .requeues | .marks _ => true
  | _ => false

/-- A step of threads 0 and 1 that neither retries the job nor updates its row. -/
def peaceful (state : SystemState) (action : SystemAction) : Bool :=
  decide (Ordinary Entry.isRooted action) && Below 2 action && avoids Event.rewrites "j" state action

theorem peaceful_sound {state : SystemState} {action : SystemAction}
    (checked : peaceful state action = true) : Starting Entry.isRooted action ∧
      Below 2 action = true ∧ ∀ thread, ¬ Does "j" state action thread .requeues ∧
        ∀ status, ¬ Does "j" state action thread (.marks status) := by
  obtain ⟨before, avoided⟩ := Bool.and_eq_true .. ▸ checked
  obtain ⟨ordinary, below⟩ := Bool.and_eq_true .. ▸ before
  exact ⟨(of_decide_eq_true ordinary).starting, below, fun thread =>
    ⟨not_does_of_avoids avoided rfl thread, fun _ => not_does_of_avoids avoided rfl thread⟩⟩

/-- An ordinary step of threads 0 and 1. -/
def plainly (_ : SystemState) (action : SystemAction) : Bool :=
  decide (Ordinary Entry.isRooted action) && Below 2 action

/-- The next call of thread 1 ends a DELETE without a record left; then a worker looks for one. -/
def endsDelete (before : SystemState) : Bool :=
  peaceful before (.exec 1 (.calm "j")) &&
    ((taskfire .wired).step before (.exec 1 (.calm "j"))).any fun answered =>
      deletedCheck "j" (answered.threads 1) && noRecordBelow 2 "j" answered &&
        (replay (taskfire .wired).step peaceful answered
          (.spawn 0 .work :: calls 0 1 (.calm "j"))).any fun _ => true

/-- A DELETE comes in on thread 1, and nothing else happens until it answers. -/
def deletes (prior : SystemState) : Bool :=
  ((taskfire .wired).step prior (.spawn 1 (.delete "j"))).any fun asked =>
    (replay (taskfire .wired).step peaceful asked (calls 1 3 (.calm "j"))).any endsDelete

/-- A retry overtakes a first DELETE, which then takes its record; a second DELETE finds the row pending
and no record, and a worker finds nothing either. -/
theorem deleted_for_good_once : ∃ answered last : SystemState,
    deleted "j" (answered.threads 1) ∧ last.store.status "j" = some .failed ∧
      last.store.ledger.started "j" = answered.store.ledger.started "j" := by
  have reached : ∃ prior, (taskfire .wired).Run (fun state action => plainly state action = true)
      (beginning .wired) prior ∧ deletes prior = true :=
    replay_reaches plainly (fun _ _ checked => checked)
      (.spawn 0 (.create .plain) :: calls 0 5 (.calm "j") ++
        .spawn 1 (.delete "j") :: calls 1 2 (.calm "j") ++
        .spawn 0 (.retry "j" true) :: calls 0 4 (.calm "j") ++ calls 1 3 (.calm "j")) deletes
      (by decide +kernel)
  obtain ⟨prior, run, checked⟩ := reached
  obtain ⟨asked, asks, checked⟩ := (Option.any_eq_true ..).mp checked
  obtain ⟨before, window, checked⟩ : ∃ before, (taskfire .wired).Run
      (fun state action => peaceful state action = true) asked before ∧ endsDelete before = true :=
    replay_reaches peaceful (fun _ _ checked => checked) _ _ checked
  obtain ⟨kept, ends⟩ := Bool.and_eq_true .. ▸ checked
  obtain ⟨answered, answers, rest⟩ := (Option.any_eq_true ..).mp ends
  obtain ⟨done, worked⟩ := Bool.and_eq_true .. ▸ rest
  obtain ⟨answer, empty⟩ := Bool.and_eq_true .. ▸ done
  obtain ⟨last, later, _⟩ : ∃ last, (taskfire .wired).Run
      (fun state action => peaceful state action = true) answered last ∧ true = true :=
    replay_reaches peaceful (fun _ _ checked => checked) _ _ worked
  -- Threads 0 and 1 are all that ever start.
  have started := run.mono fun _ _ checked => (Bool.and_eq_true .. ▸ checked).2
  have asking : Below 2 (.spawn 1 (.delete "j")) = true := rfl
  have below := fun state action (checked : peaceful state action = true) =>
    (peaceful_sound checked).2.1
  have through : (taskfire .wired).Run (fun _ action => Below 2 action = true)
      (beginning .wired) answered :=
    .tail ((Reach.tail started asking asks).trans (window.mono below)) (below _ _ kept) answers
  have idle := idle_beyond through fun _ _ checked => checked
  have starting := run.mono fun _ _ checked =>
    (of_decide_eq_true (Bool.and_eq_true .. ▸ checked).1 : Ordinary _ _).starting
  have undisturbed (state : SystemState) (action : SystemAction)
      (checked : peaceful state action = true) : Undisturbed "j" 1 state action :=
    ⟨(peaceful_sound checked).1, fun _ => (peaceful_sound checked).2.2⟩
  have unretried (state : SystemState) (action : SystemAction)
      (checked : peaceful state action = true) : Unretried "j" state action :=
    ⟨(peaceful_sound checked).1, fun thread => ((peaceful_sound checked).2.2 thread).1⟩
  exact ⟨answered, last, deleted_of_check answer,
    deleted_for_good starting asks (window.mono undisturbed) (undisturbed _ _ kept) answers
      (deleted_of_check answer) (noRecord_of_below idle empty) (later.mono unretried)⟩

/-- An ordinary step that does not retry the job. -/
def unretriedCheck (state : SystemState) (action : SystemAction) : Bool :=
  decide (Ordinary Entry.isRooted action) && avoids (· = .requeues) "j" state action

/-- A worker has claimed the pending job and not yet marked it active when a DELETE comes: its row is
marked failed, its lane has no record, and after the 204 the worker goes on. -/
theorem deleted_job_starts : ∃ (proc : Processor) (answered last : SystemState),
    (taskfire proc).Run (fun _ action => Ordinary Entry.isRooted action) (beginning proc) answered ∧
    deleted "j" (answered.threads 1) ∧
    (taskfire proc).Run (fun state action => Ordinary Entry.isRooted action ∧
      ∀ thread, ¬ Does "j" state action thread .requeues) answered last ∧
    last.store.status "j" ≠ some .failed ∧
    answered.store.ledger.started "j" < last.store.ledger.started "j" := by
  have reached := ordinary_reaches .wired Entry.isRooted (beginning .wired)
    (.spawn 0 (.create .plain) :: calls 0 5 (.calm "j") ++
      .spawn 0 .work :: calls 0 2 (.calm "j") ++
      .spawn 1 (.delete "j") :: calls 1 4 (.calm "j"))
    (fun answered => deletedCheck "j" (answered.threads 1) &&
      (replay (taskfire .wired).step unretriedCheck answered (calls 0 5 (.calm "j"))).any fun last =>
        decide (last.store.status "j" ≠ some .failed ∧
          answered.store.ledger.started "j" < last.store.ledger.started "j"))
    (by decide +kernel)
  obtain ⟨answered, run, checked⟩ := reached
  obtain ⟨answer, started⟩ := Bool.and_eq_true .. ▸ checked
  have after : ∃ last, (taskfire .wired).Run (fun state action =>
      Ordinary Entry.isRooted action ∧ ∀ thread, ¬ Does "j" state action thread .requeues)
      answered last ∧ decide (last.store.status "j" ≠ some .failed ∧
        answered.store.ledger.started "j" < last.store.ledger.started "j") = true := by
    refine replay_reaches unretriedCheck ?_ _ _ started
    intro state action checked
    obtain ⟨ordinary, avoided⟩ := Bool.and_eq_true .. ▸ checked
    exact ⟨of_decide_eq_true ordinary, not_does_of_avoids avoided rfl⟩
  obtain ⟨last, run', again⟩ := after
  obtain ⟨reopened, more⟩ := of_decide_eq_true again
  exact ⟨.wired, answered, last, run, deleted_of_check answer, run', reopened, more⟩

end Taskfire
