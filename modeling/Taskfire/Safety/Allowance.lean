import Taskfire.Dag.Gate
import Taskfire.Library.Potential
import Taskfire.Safety.DeadLetters
import Taskfire.Snapshot.Grounds

/-!
# How often a job may be run

A record that has failed fewer times than the retry manager allows its type may be run once for each
failure it has left, and every record may be run once.  `allowance` is that number.  A request that
creates or retries a job grants the allowance of the record it queues.  What the records that wait
and the threads that carry one may still run is a potential: whatever fails, expires or crashes, a
handler is started no more often than was granted.
-/

namespace Taskfire

open Taskfire.Library

/-! ## What is granted -/

/-- How often a handler may yet be started for a record that waits. -/
def allowance (budget : String → Int) (brief : Brief) : Nat :=
  (max 1 (budget brief.jobType - brief.retryCount)).toNat

/-- What the call grants job `id`. -/
def Call.grants (budget : String → Int) (id : JobId) : (c : Call) → c.Reply → Nat
  | .insertJob params, reply => match reply with
    | .ok row => if params.id = id then allowance budget row.brief else 0
    | .error _ => 0
  | .requeueJob job _, reply => match reply with
    | .ok (some row) => if job = id then allowance budget row.brief else 0
    | _ => 0
  | _, _ => 0

/-- What was granted so far. -/
def granting (proc : Processor) (id : JobId) (granted : Nat) (state : SystemState) :
    SystemAction → Nat
  | .exec thread env =>
    match (state.threads thread).next? with
    | some c => granted + c.grants proc.budget id (perform env state.store c).1
    | none => granted
  | _ => granted

section Allowance

variable {budget : String → Int} {brief : Brief}

theorem allowance_pos (budget : String → Int) (brief : Brief) : 0 < allowance budget brief := by
  simp only [allowance]
  omega

/-- A failure that leaves the record within the budget takes one from its allowance. -/
theorem allowance_failedOnce (count : goInt (brief.retryCount + 1) = brief.retryCount + 1)
    (within : brief.failedOnce.retryCount < budget brief.failedOnce.jobType) :
    allowance budget brief.failedOnce + 1 = allowance budget brief := by
  simp only [allowance, Brief.failedOnce, count] at within ⊢
  omega

/-- The record counts what a row may count, or less than the retry manager allows. -/
def Brief.modest (budget : String → Int) (brief : Brief) : Bool :=
  decide (0 ≤ brief.retryCount ∧ brief.retryCount < max (budget brief.jobType) 2147483648)

theorem Row.modest (budget : String → Int) (row : Row) : row.brief.modest budget = true := by
  have lower := row.retryCountNonNegative
  have within := row.retryCountLteMax
  have integer := row.maxRetriesInteger
  apply decide_eq_true
  simp only [Row.brief]
  omega

/-- Go's integers hold the count of a modest record after its failure. -/
theorem Brief.count_of_modest {proc : Processor} {brief : Brief}
    (modest : brief.modest proc.budget = true) :
    goInt (brief.retryCount + 1) = brief.retryCount + 1 := by
  have budget : proc.budget brief.jobType < 2 ^ 63 :=
    (proc.retrier.configFor brief.jobType).maxRetriesInt
  obtain ⟨lower, upper⟩ := of_decide_eq_true modest
  exact goInt_of_fits (by omega) (by omega)

end Allowance

/-! ## What is left -/

/-- How often the thread may yet start a handler for its record. -/
def Role.share (budget : String → Int) (role : Role) : Nat :=
  match role.attempt with
  | .due => allowance budget role.brief
  | .running => allowance budget role.brief - 1
  | .passed => 0
  | .failed =>
    if role.brief.retryCount < budget role.brief.jobType then allowance budget role.brief else 0

/-- The same for job `id`, of which the thread may have no record. -/
def Session.share (budget : String → Int) (id : JobId) (session : Session) : Nat :=
  if session.job = some id ∧ session.token.isOpen = true then session.toRole.share budget else 0

/-- The records of the job that wait. -/
def Redis.queued (redis : Redis Member) (id : JobId) : List Member :=
  ((redis.zset (.lane .high)).members ++ (redis.zset (.lane .medium)).members ++
    (redis.zset (.lane .low)).members ++ (redis.zset .delayed).members).filter (Member.isOf id)

/-- How often they may yet be run. -/
def Redis.worth (budget : String → Int) (id : JobId) (redis : Redis Member) : Nat :=
  Library.worth (fun member => allowance budget member.brief) (redis.queued id)

/-- What was spent, and what waits to be. -/
def Stores.spent (budget : String → Int) (id : JobId) (stores : Stores) : Nat :=
  stores.ledger.started id + stores.redis.worth budget id

section Shares

variable {budget : String → Int} {id : JobId} {session : Session} {redis after : Redis Member}

theorem Role.share_le (budget : String → Int) (role : Role) :
    role.share budget ≤ allowance budget role.brief := by
  simp only [share]
  split
  · exact Nat.le_refl _
  · exact Nat.sub_le _ _
  · exact Nat.zero_le _
  · split
    · exact Nat.le_refl _
    · exact Nat.zero_le _

theorem Session.share_of_off (off : session.job ≠ some id) : session.share budget id = 0 := by
  simp [share, off]

theorem Session.share_of_shut (shut : session.token.isOpen = false) :
    session.share budget id = 0 := by
  simp [share, shut]

theorem Session.share_of_open (on : session.job = some id) (opened : session.token.isOpen = true) :
    session.share budget id = session.toRole.share budget :=
  if_pos ⟨on, opened⟩

/-- A failure leaves a thread no more than what was left without the start it stands for. -/
theorem Role.share_failedOnce (role : Role)
    (count : goInt (role.brief.retryCount + 1) = role.brief.retryCount + 1) :
    role.failedOnce.share budget ≤ allowance budget role.brief - 1 := by
  show (if role.brief.failedOnce.retryCount < budget role.brief.failedOnce.jobType then
    allowance budget role.brief.failedOnce else 0) ≤ _
  split
  · next within =>
    have fewer := allowance_failedOnce count within
    omega
  · exact Nat.zero_le _

theorem Redis.countP_queued (redis : Redis Member) (id : JobId) (p : Member → Bool) :
    (redis.queued id).countP p = redis.waiting fun member => p member && member.isOf id := by
  simp only [queued, waiting, SortedSet.count, List.countP_filter, List.countP_append]

/-- Records of the job of which no property holds more often are worth no more. -/
theorem Redis.worth_mono (fewer : ∀ p : Member → Bool,
    after.waiting (fun member => p member && member.isOf id) ≤
      redis.waiting fun member => p member && member.isOf id) :
    after.worth budget id ≤ redis.worth budget id := by
  apply Library.worth_mono
  intro p
  simp only [countP_queued]
  exact fewer p

theorem Redis.worth_zadd_le {key : ZKey} {score : Int} {member : Member} (lane : key ≠ .dlq) :
    (redis.zadd key score member).worth budget id ≤
      redis.worth budget id + if member.isOf id = true then allowance budget member.brief else 0 := by
  split
  · next own =>
    have joined : (redis.zadd key score member).worth budget id ≤
        Library.worth (fun member => allowance budget member.brief) (member :: redis.queued id) := by
      apply Library.worth_mono
      intro p
      have one := waiting_zadd_le redis (fun other => p other && other.isOf id) score member lane
      simpa [List.countP_cons, countP_queued, own] using one
    simpa [Redis.worth, Nat.add_comm] using joined
  · next other =>
    apply worth_mono
    intro p
    exact Nat.le_of_eq (waiting_zadd_of_not lane (by simp [other]))

/-- A claim takes the record with its allowance. -/
theorem Redis.worth_claimed {member : Member} {owner : JobId}
    (claimed : Redis.Claimed redis after member owner) :
    after.worth budget id + (if member.isOf id = true then allowance budget member.brief else 0) ≤
      redis.worth budget id := by
  split
  · next own =>
    have left : Library.worth (fun member => allowance budget member.brief)
        (member :: after.queued id) ≤ redis.worth budget id := by
      apply Library.worth_mono
      intro p
      have one := claimed.fewer fun member => p member && member.isOf id
      simpa only [List.countP_cons, countP_queued, own, Bool.and_true] using one
    simpa [Redis.worth, Nat.add_comm] using left
  · next other =>
    apply worth_mono
    intro p
    exact Nat.le_trans (Nat.le_add_right _ _) (claimed.fewer _)

end Shares

/-! ## What is counted -/

/-- The record that the thread carries was modest before its attempt failed. -/
structure Session.Modest (budget : String → Int) (session : Session) : Prop where
  lower : session.token.isOpen = true → 0 ≤ session.brief.retryCount
  upper : session.token.isOpen = true → session.attempt ≠ .failed →
    session.brief.modest budget = true

/-- No record that waits is immodest. -/
def Redis.Modest (budget : String → Int) (redis : Redis Member) : Prop :=
  (redis.waiting fun member => !member.brief.modest budget) = 0

section Counts

variable {proc : Processor} {env : Env} {stores : Stores} {session next : Session} {c : Call}

theorem Session.modest_of_shut {budget : String → Int} (shut : session.token.isOpen = false) :
    session.Modest budget := by
  constructor <;> simp [shut]

theorem Session.modest_of_brief {budget : String → Int}
    (modest : session.brief.modest budget = true) : session.Modest budget :=
  ⟨fun _ => (of_decide_eq_true modest).1, fun _ _ => modest⟩

/-- The thread keeps its record and its attempt. -/
theorem Session.Modest.keep {budget : String → Int} (modest : session.Modest budget)
    (token : next.token.isOpen = true → session.token.isOpen = true)
    (brief : next.brief = session.brief)
    (attempt : next.attempt ≠ .failed → session.attempt ≠ .failed) : next.Modest budget := by
  constructor
  · intro opened
    rw [brief]
    exact modest.lower (token opened)
  · intro opened unfailed
    rw [brief]
    exact modest.upper (token opened) (attempt unfailed)

theorem Session.Modest.fail (modest : session.Modest proc.budget)
    (unfailed : session.attempt ≠ .failed) : session.failedOnce.Modest proc.budget := by
  constructor
  · intro opened
    have modest := modest.upper opened unfailed
    show 0 ≤ goInt (session.brief.retryCount + 1)
    rw [Brief.count_of_modest modest]
    have lower := (of_decide_eq_true modest).1
    omega
  · intro _ failed
    exact absurd rfl failed

/-- Only a record that the retry manager lets pass, or that was not tried, is put back. -/
theorem Session.Modest.place (modest : session.Modest proc.budget)
    (opened : session.token.isOpen = true) (may : (Discipline.lax proc).mayPlace session.toRole) :
    session.brief.modest proc.budget = true := by
  obtain due | ⟨_, within⟩ := may
  · exact modest.upper opened (by simp [due])
  · have below : session.brief.retryCount < proc.budget session.brief.jobType := within
    have lower := modest.lower opened
    exact decide_eq_true (by omega)

theorem modest_perform (modest : session.Modest proc.budget)
    (waits : stores.redis.Modest proc.budget)
    (permitted : (Discipline.lax proc).permits session c) :
    (perform env stores c).2.redis.Modest proc.budget := by
  apply waiting_perform waits
  intro key score member same lane
  subst same
  have returns : session.token.isOpen = true ∧ member.brief = session.brief ∧
      (Discipline.lax proc).mayPlace session.toRole := by
    cases key with
    | dlq => exact absurd rfl lane
    | lane | delayed => exact permitted.2.2
  obtain ⟨opened, brief, may⟩ := returns
  rw [brief, modest.place opened may]
  rfl

theorem modest_advance (modest : session.Modest proc.budget)
    (waits : stores.redis.Modest proc.budget)
    (permitted : (Discipline.lax proc).permits session c) :
    (session.advance c (perform env stores c).1).Modest proc.budget := by
  generalize replied : (perform env stores c).1 = reply
  cases c with
  | insertJob params =>
    cases reply with
    | error error => exact modest
    | ok row => exact Session.modest_of_brief (row.modest _)
  | requeueJob job resetRetries =>
    obtain error | _ | row := reply
    · exact modest
    · exact modest
    · exact Session.modest_of_brief (row.modest _)
  | cancelJob job =>
    obtain error | _ | row := reply
    · exact modest
    · exact modest
    · exact modest.keep (fun opened => opened) rfl fun unfailed => unfailed
  | claim =>
    obtain error | _ | member := reply
    · exact modest
    · exact modest
    · have sound : member.brief.modest proc.budget = true := by
        simpa using (claimed_lacks waits replied).1
      exact Session.modest_of_brief sound
  | updateJobStatus job =>
    exact modest.keep (fun _ => permitted.2.1) rfl fun unfailed => unfailed
  | command command =>
    cases command with
    | zadd key score member =>
      cases reply with
      | error error => exact modest
      | ok done => cases key <;> exact Session.modest_of_shut rfl
    | zrem | lpushDone | ltrimDone | publish => exact modest
    | hdelProcessing | delLock =>
      exact modest.keep (fun opened => opened) rfl fun unfailed => unfailed
  | startHandler job =>
    obtain ⟨_, _, _, due⟩ := permitted
    refine modest.keep (fun opened => opened) rfl fun _ => ?_
    rw [due]
    simp
  | findHandler job =>
    obtain ⟨_, _, _, due⟩ := permitted
    cases reply with
    | true => exact modest
    | false => exact modest.fail (by simp [due])
  | awaitHandler job =>
    obtain ⟨_, _, _, running⟩ := permitted
    have unfailed : session.attempt ≠ .failed := by simp [running]
    cases reply with
    | returnedNil => exact modest.keep (fun opened => opened) rfl fun _ => unfailed
    | returned | panicked => exact modest.fail unfailed
  | randomUUID => exact modest.keep (fun opened => opened) rfl fun unfailed => unfailed
  | _ => exact modest

end Counts

/-! ## One call -/

section Calls

variable {proc : Processor} {id : JobId} {env : Env} {stores : Stores} {session : Session} {c : Call}

/-- What a call spends is paid by its thread and by what the call grants. -/
def Pays (proc : Processor) (id : JobId) (env : Env) (stores : Stores) (session : Session)
    (c : Call) : Prop :=
  (perform env stores c).2.spent proc.budget id +
      (session.advance c (perform env stores c).1).share proc.budget id ≤
    stores.spent proc.budget id + session.share proc.budget id +
      c.grants proc.budget id (perform env stores c).1

/-- The calls that neither start a handler nor move a record between a thread and where it waits. -/
def Call.keepsRecords : Call → Prop
  | .startHandler _ | .claim => False
  | .command (.zadd key _ _) => key = .dlq
  | _ => True

theorem spent_kept (keeps : c.keepsRecords) :
    (perform env stores c).2.spent proc.budget id ≤ stores.spent proc.budget id := by
  have quiet : c.startsNothing := by
    cases c <;> first | exact trivial | cases keeps
  suffices kept : (perform env stores c).2.redis.worth proc.budget id ≤
      stores.redis.worth proc.budget id by
    simp only [Stores.spent, perform_started env stores quiet]
    omega
  by_cases leaves : c.leavesRedis = true
  · rw [perform_leavesRedis env stores leaves]
  · obtain ⟨_, _, _, performed⟩ | performed := perform_cases env stores c
    · rw [performed]
    · rw [performed]
      cases c with
      | claim => cases keeps
      | drainDelayed cutoff maxBatch =>
        exact Redis.worth_mono fun p =>
          (stores.redis.drainDelayedScript_promoted cutoff maxBatch env.now.unixMilli).waiting _
      | command command =>
        cases command with
        | zadd key score member =>
          cases keeps
          exact Redis.worth_mono fun p => Nat.le_of_eq Redis.waiting_zadd_dlq
        | zrem key member =>
          apply Redis.worth_mono
          intro p
          by_cases dlq : key = .dlq
          · subst dlq
            exact Nat.le_of_eq (Redis.waiting_setZset_dlq _ _)
          · exact Redis.waiting_zrem_le dlq
        | hdelProcessing | delLock | lpushDone | ltrimDone => exact Nat.le_refl _
        | publish => exact absurd rfl leaves
      | _ => exact absurd rfl leaves

/-- Such a call is paid where the share of the thread grows by no more than what is granted. -/
theorem pays_of_kept (keeps : c.keepsRecords)
    (share : ∀ reply, (session.advance c reply).share proc.budget id ≤
      session.share proc.budget id + c.grants proc.budget id reply) :
    Pays proc id env stores session c := by
  have kept : (perform env stores c).2.spent proc.budget id ≤ stores.spent proc.budget id :=
    spent_kept keeps
  have shared := share (perform env stores c).1
  rw [Pays]
  omega

theorem obtained_share {row : Row} {job : JobId} (on : session.job = some job) :
    (session.obtained row).share proc.budget id ≤ session.share proc.budget id +
      if job = id then allowance proc.budget row.brief else 0 := by
  by_cases same : job = id
  · subst same
    have most := (session.obtained row).toRole.share_le proc.budget
    have share : (session.obtained row).share proc.budget job =
        (session.obtained row).toRole.share proc.budget := Session.share_of_open on rfl
    rw [share, if_pos rfl]
    exact Nat.le_trans most (Nat.le_add_left _ _)
  · have off : (session.obtained row).job ≠ some id := by
      show session.job ≠ some id
      simpa [on] using same
    rw [Session.share_of_off off]
    exact Nat.zero_le _

theorem startHandler_pays {job : Job}
    (permitted : (Discipline.lax proc).permits session (.startHandler job)) :
    Pays proc id env stores session (.startHandler job) := by
  obtain ⟨⟨named, opened, _⟩, _, _, due⟩ := permitted
  rw [Pays]
  by_cases same : job.id = id
  · subst same
    have counted : (perform env stores (.startHandler job)).2.spent proc.budget job.id =
        stores.spent proc.budget job.id + 1 := by
      simp [Stores.spent, perform, failed?, performStore, Ledger.noteStart]
      omega
    have before : session.share proc.budget job.id = session.toRole.share proc.budget :=
      Session.share_of_open named opened
    have after : (session.advance (.startHandler job) ()).share proc.budget job.id =
        allowance proc.budget session.brief - 1 := if_pos ⟨named, opened⟩
    have positive := allowance_pos proc.budget session.brief
    simp only [Role.share, due] at before
    rw [counted, before, after]
    omega
  · have kept : (perform env stores (.startHandler job)).2.spent proc.budget id =
        stores.spent proc.budget id := by
      simp [Stores.spent, perform, failed?, performStore, Ledger.noteStart,
        Function.update_of_ne (Ne.symm same)]
    have off : (session.advance (.startHandler job) ()).job ≠ some id := by
      show session.job ≠ some id
      simpa [named] using same
    rw [kept, Session.share_of_off off]
    omega

/-- The record that goes back takes what is left to the thread with it. -/
theorem enqueue_pays {key : ZKey} {score : Int} {member : Member} (lane : key ≠ .dlq)
    (permitted : (Discipline.lax proc).permits session (.command (.zadd key score member))) :
    Pays proc id env stores session (.command (.zadd key score member)) := by
  have returns : session.job = member.id? ∧ session.token.isOpen = true ∧
      member.brief = session.brief ∧ (Discipline.lax proc).mayPlace session.toRole := by
    cases key with
    | dlq => exact absurd rfl lane
    | lane | delayed => exact permitted.2
  obtain ⟨named, opened, brief, may⟩ := returns
  rw [Pays]
  obtain ⟨reply, _, failing, performed⟩ | performed :=
    perform_cases env stores (.command (.zadd key score member))
  · cases failing
    rw [performed]
    exact Nat.le_add_right _ _
  · rw [performed]
    have added : (stores.applyCommand (.zadd key score member)).spent proc.budget id ≤
        stores.spent proc.budget id +
          if member.isOf id = true then allowance proc.budget member.brief else 0 := by
      have started : (stores.ledger.noteZadd key member).started id = stores.ledger.started id := by
        simp only [Ledger.noteZadd]
        split <;> rfl
      have grows : (stores.redis.zadd key score member).worth proc.budget id ≤
          stores.redis.worth proc.budget id +
            if member.isOf id = true then allowance proc.budget member.brief else 0 :=
        Redis.worth_zadd_le lane
      simp only [Stores.spent, Stores.applyCommand, started]
      omega
    have gone : (session.placed key).share proc.budget id = 0 := by
      cases key with
      | dlq => exact absurd rfl lane
      | lane | delayed => exact Session.share_of_shut rfl
    have covered : (if member.isOf id = true then allowance proc.budget member.brief else 0) ≤
        session.share proc.budget id := by
      split
      · next own =>
        rw [Session.share_of_open (named.trans (Member.isOf_iff.mp own)) opened, brief, Role.share]
        obtain due | ⟨failed, within⟩ := may
        · simp only [due]
          exact Nat.le_refl _
        · have left : session.brief.retryCount < proc.budget session.brief.jobType := within
          simp only [failed, if_pos left]
          exact Nat.le_refl _
      · exact Nat.zero_le _
    show (stores.applyCommand (.zadd key score member)).spent proc.budget id +
      (session.placed key).share proc.budget id ≤ _
    rw [gone]
    simp only [Call.grants]
    omega

/-- A thread that claims a record gets what the record was worth. -/
theorem claim_pays (permitted : (Discipline.lax proc).permits session .claim) :
    Pays proc id env stores session .claim := by
  obtain ⟨jobless, due⟩ := permitted
  rw [Pays]
  obtain ⟨reply, _, failing, performed⟩ | performed := perform_cases env stores .claim
  · cases failing
    rw [performed]
    exact Nat.le_add_right _ _
  · rw [performed]
    obtain ⟨after, script, unclaimed⟩ | ⟨member, owner, after, script, claimed⟩ :=
      stores.redis.claimScript_cases
    · have kept : after.worth proc.budget id ≤ stores.redis.worth proc.budget id :=
        Redis.worth_mono fun p => unclaimed.fewer _
      simp only [performStore, script, Stores.claimReply, Session.advance, Stores.spent]
      omega
    · have taken : after.worth proc.budget id +
          (if member.isOf id = true then allowance proc.budget member.brief else 0) ≤
            stores.redis.worth proc.budget id := Redis.worth_claimed claimed
      have share : (session.claimed member).share proc.budget id ≤
          if member.isOf id = true then allowance proc.budget member.brief else 0 := by
        split
        · next own =>
          have on : (session.claimed member).job = some id := Member.isOf_iff.mp own
          rw [Session.share_of_open on rfl]
          exact Role.share_le proc.budget _
        · next other =>
          have off : (session.claimed member).job ≠ some id := fun named =>
            other (Member.isOf_iff.mpr named)
          exact Nat.le_of_eq (Session.share_of_off off)
      simp only [performStore, script, Stores.claimReply, Session.advance, Stores.spent]
      omega

/-- Where the thread keeps its job and its token stays as open as it was, its role says what it has
left. -/
theorem share_le_of_role {next : Session} {more : Nat} (on : next.job = session.job)
    (token : next.token.isOpen = true → session.token.isOpen = true)
    (left : session.token.isOpen = true →
      next.toRole.share proc.budget ≤ session.toRole.share proc.budget + more) :
    next.share proc.budget id ≤ session.share proc.budget id + more := by
  rw [Session.share]
  split
  · next live =>
    have opened := token live.2
    rw [Session.share_of_open (on ▸ live.1) opened]
    exact left opened
  · exact Nat.zero_le _

theorem failedOnce_share
    (modest : session.token.isOpen = true → session.brief.modest proc.budget = true)
    (had : allowance proc.budget session.brief - 1 ≤ session.toRole.share proc.budget) :
    session.failedOnce.share proc.budget id ≤ session.share proc.budget id + 0 := by
  refine share_le_of_role ?_ ?_ fun opened => ?_
  · exact rfl
  · exact fun opened => opened
  · exact Nat.le_trans 
      (session.toRole.share_failedOnce (Brief.count_of_modest (modest opened))) had

/-- The share of a thread grows by no more than what its call grants. -/
theorem share_kept (keeps : c.keepsRecords) (modest : session.Modest proc.budget)
    (permitted : (Discipline.lax proc).permits session c) (reply : c.Reply) : (session.advance c reply).share proc.budget id ≤
      session.share proc.budget id + c.grants proc.budget id reply := by
  have shutting {next : Session} {more : Nat} (shut : next.token.isOpen = false) :
      next.share proc.budget id ≤ more := by
    rw [Session.share_of_shut shut]
    exact Nat.zero_le _
  cases c with
  | startHandler job => cases keeps
  | claim => cases keeps
  | command command =>
    cases command with
    | zadd key score member =>
      cases keeps
      cases reply with
      | error error => exact Nat.le_add_right _ _
      | ok done => exact shutting rfl
    | zrem | hdelProcessing | delLock | lpushDone | ltrimDone | publish => exact Nat.le_refl _
  | insertJob params =>
    cases reply with
    | error error => exact Nat.le_refl _
    | ok row => exact obtained_share permitted.1
  | requeueJob job resetRetries =>
    obtain error | _ | row := reply
    · exact Nat.le_refl _
    · exact Nat.le_refl _
    · exact obtained_share permitted.1
  | cancelJob job =>
    obtain error | _ | row := reply <;> exact Nat.le_refl _
  | updateJobStatus job =>
    obtain ⟨_, opened, _⟩ := permitted
    refine share_le_of_role ?_ (fun _ => opened) ?_
    · exact rfl
    · exact fun _ => Nat.le_refl _
  | randomUUID =>
    obtain ⟨_, _, _, absent | ⟨_, unrooted⟩⟩ := permitted
    · apply shutting
      show session.token.isOpen = false
      rw [absent]
      rfl
    · exact absurd trivial unrooted
  | findHandler job =>
    obtain ⟨_, _, _, due⟩ := permitted
    cases reply with
    | true => exact Nat.le_refl _
    | false =>
      apply failedOnce_share fun opened => modest.upper opened (by simp [due])
      simp only [Role.share, due]
      exact Nat.sub_le _ _
  | awaitHandler job =>
    obtain ⟨_, _, _, running⟩ := permitted
    cases reply with
    | returnedNil =>
      refine share_le_of_role ?_ ?_ fun _ => Nat.zero_le _
      · exact rfl
      · exact fun opened => opened
    | returned | panicked =>
      apply failedOnce_share fun opened => modest.upper opened (by simp [running])
      simp only [Role.share, running]
      exact Nat.le_refl _
  | _ => exact Nat.le_refl _

theorem call_pays (modest : session.Modest proc.budget)
    (permitted : (Discipline.lax proc).permits session c) : Pays proc id env stores session c := by
  by_cases keeps : c.keepsRecords
  · exact pays_of_kept keeps (share_kept keeps modest permitted)
  · cases c with
    | startHandler job => exact startHandler_pays permitted
    | claim => exact claim_pays permitted
    | command command =>
      cases command with
      | zadd key score member => exact enqueue_pays keeps permitted
      | _ => exact absurd trivial keeps
    | _ => exact absurd trivial keeps

end Calls

/-! ## Every run -/

section Run

variable {proc : Processor} {id : JobId}

/-- The system with what was granted to job `id` beside it. -/
abbrev grantingStep (proc : Processor) (id : JobId) :
    SystemState × Nat → SystemAction → Option (SystemState × Nat) :=
  chronicle (taskfire proc).step (granting proc id)

/-- What was spent, waits to be and is left to the threads is within what was granted. -/
structure Funded (proc : Processor) (id : JobId) (current : SystemState × Nat) : Prop where
  conforming : Conforming (.lax proc) current.1
  waits : current.1.store.redis.Modest proc.budget
  carried : ∀ thread, (current.1.threads thread).session.Modest proc.budget
  covers : Covers current.2 (current.1.store.spent proc.budget id) fun thread =>
    (current.1.threads thread).session.share proc.budget id

theorem funded_beginning : Funded proc id (beginning proc, 0) := by
  refine ⟨conforming_initial _ proc _, rfl, fun thread => Session.modest_of_shut rfl,
    fun threads => ?_⟩
  have idle (thread : Nat) :
      ((beginning proc).threads thread).session.share proc.budget id = 0 :=
    Session.share_of_shut rfl
  simp only [idle, Finset.sum_const_zero, Nat.add_zero]
  exact Nat.le_refl _

theorem entered_shut {entry : Entry} (rooted : entry.isRooted = true) :
    entry.session.token.isOpen = false := by
  cases entry with
  | create | delete | retry | work | poll => rfl
  | cron | scheduleDelayed | enqueue | enqueueJob | enqueueDelayedJob | drain | claimAndRelease =>
    exact absurd rooted Bool.false_ne_true

/-- A thread that starts or crashes has no record. -/
theorem Funded.forfeit {state : SystemState} {granted thread : Nat} {other : SystemThread}
    (funded : Funded proc id (state, granted)) (shut : other.session.token.isOpen = false)
    (conforming : Conforming (.lax proc) (state.put thread other)) :
    Funded proc id (state.put thread other, granted) := by
  refine ⟨conforming, funded.waits, fun running => ?_, ?_⟩
  · by_cases same : running = thread
    · subst same
      show ((state.put running other).threads running).session.Modest proc.budget
      rw [State.put_same]
      exact Session.modest_of_shut shut
    · show ((state.put thread other).threads running).session.Modest proc.budget
      rw [State.put_other _ _ same]
      exact funded.carried running
  · apply funded.covers.forfeits thread
    · intro running different
      rw [State.put_other _ _ different]
    · rw [State.put_same]
      exact Session.share_of_shut shut

theorem funded_step {before after : SystemState × Nat} {action : SystemAction}
    (funded : Funded proc id before) (starting : Starting Entry.isRooted action)
    (moved : grantingStep proc id before action = some after) : Funded proc id after := by
  obtain ⟨stepped, recorded⟩ := chronicle_eq_some moved
  have settled := conforming_step funded.conforming stepped
    (fun thread entry acts => @lax_admissible proc thread entry (acts ▸ starting))
    fun _ _ _ strict => strict.elim
  obtain ⟨state, granted⟩ := before
  obtain ⟨next, total⟩ := after
  subst recorded
  -- A thread that starts or crashes has nothing left, and only calls spend and grant.
  cases action with
  | spawn thread entry =>
    obtain ⟨_, rfl⟩ := Machine.step_spawn stepped
    exact funded.forfeit (entered_shut starting) settled
  | exec thread env =>
    obtain ⟨c, rest, program, rfl⟩ := Machine.step_exec stepped
    have permitted := (program ▸ funded.conforming thread : Completes _ _ (.call c rest)).1
    have modest := funded.carried thread
    have pays : Pays proc id env state.store (state.threads thread).session c :=
      call_pays modest permitted
    refine ⟨settled, modest_perform modest funded.waits permitted, fun running => ?_, ?_⟩
    · by_cases same : running = thread
      · subst same
        rw [Machine.executed_same]
        exact modest_advance modest funded.waits permitted
      · rw [Machine.executed_other env c rest same]
        exact funded.carried running
    · have called : (state.threads thread).program = .call c rest := program
      simp only [granting, Thread.next?, called]
      apply funded.covers.pays thread
      · intro other different
        rw [Machine.executed_other env c rest different]
      · rw [Machine.executed_same]
        exact pays
  | tick lock =>
    cases Machine.step_tick stepped
    exact ⟨settled, funded.waits, funded.carried, funded.covers⟩
  | crash thread =>
    cases Machine.step_crash stepped
    exact funded.forfeit rfl settled

/-- Whatever fails, expires or crashes, a handler of a job is started at most as often as the requests
that created and retried the job granted: for each of them once, or once for each failure that the
retry manager allows the record beyond those it has. -/
theorem started_le_granted {last : SystemState × Nat}
    (run : Reach (Moves (grantingStep proc id)) (fun _ action => Starting Entry.isRooted action)
      (beginning proc, 0) last) : last.1.store.ledger.started id ≤ last.2 := by
  have funded := run.invariant (Funded proc id) funded_beginning
    fun _ _ _ funded starting moved => funded_step funded starting moved
  exact Nat.le_trans (Nat.le_add_right _ _) funded.covers.spent_le

end Run

/-- A job whose type is allowed one failure dies, is retried and dies again. -/
theorem started_le_granted_twice : ∃ last : SystemState × Nat,
    last.1.store.ledger.started "j" = 2 ∧ last.2 = 2 ∧
      last.1.store.ledger.started "j" ≤ last.2 := by
  have reached : ∃ last, Reach (Moves (grantingStep .impatient "j"))
      (fun _ action => Starting Entry.isRooted action) (beginning .impatient, 0) last ∧
      decide (last.1.store.ledger.started "j" = 2 ∧ last.2 = 2) = true :=
    replay_reaches (fun _ action => decide (Starting Entry.isRooted action))
      (fun _ _ checked => of_decide_eq_true checked)
      (createAndDie ++ .spawn 0 (.retry "j" true) :: calls 0 4 (.calm "j") ++
        .spawn 1 .work :: calls 1 19 (.failing "j")) _ (by decide +kernel)
  obtain ⟨last, run, checked⟩ := reached
  obtain ⟨started, granted⟩ := of_decide_eq_true checked
  exact ⟨last, started, granted, started_le_granted run⟩

end Taskfire
