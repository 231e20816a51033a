import Taskfire.Library.Pages
import Taskfire.Model.MemberOrder
import Taskfire.Safety.Burials
import Taskfire.Safety.Chronology
import Taskfire.Safety.Records

/-!
# Reading the dead letters page by page

A client asks for the dead letters page by page while workers bury more jobs.  The set only grows: a
record in it carries the instant of its burial, and that is its score, so not even a second ZADD of one
record moves it.  An insertion pushes entries to later pages, which the client has still to read, and
none to earlier ones.
-/

namespace Taskfire

open Taskfire.Library

/-! ## The calls -/

/-- What enters the dead-letter set is the entry of a burial. -/
def Call.stamped : Call → Prop
  | .command (.zadd key score member) => key = .dlq → ∃ move : Move, (member, score) = move.entry
  | _ => True

section

variable {proc : Processor}

theorem stamped_of_working {statuses : List JobStatus} {c : Call} (working : c.working statuses) :
    c.stamped := by
  cases c with
  | command command =>
    cases command with
    | zadd key score member => exact fun dlq => (working dlq).2
    | _ => exact trivial
  | _ => exact trivial

theorem Entry.stamped {entry : Entry} (own : entry.isTaskfire = true) :
    (entry.program proc).Uses Call.stamped :=
  (entry.uses_working own).mono fun _ => stamped_of_working

end

/-! ## The set -/

/-- The dead-letter set is in order, and every member's score is the instant it carries. -/
structure Redis.Filed (redis : Redis Member) : Prop where
  sorted : (redis.zset .dlq).Sorted
  scored : ∀ entry ∈ (redis.zset .dlq).entries, ∃ move : Move, entry = move.entry

/-- Two entries of burials with one member have one score. -/
theorem Move.score_eq_of_member {first second : Move}
    (same : (first.entry : Member × Int).1 = (second.entry : Member × Int).1) :
    (first.entry : Member × Int).2 = (second.entry : Member × Int).2 :=
  congrArg float64 (now_eq_of_record same)

theorem Redis.Filed.add {redis : Redis Member} {member : Member} {score : Int} (filed : redis.Filed)
    (stamped : ∃ move : Move, (member, score) = move.entry) :
    (redis.zadd .dlq score member).Filed ∧
      (redis.zset .dlq).entries.Sublist ((redis.zadd .dlq score member).zset .dlq).entries := by
  have added : (redis.zadd .dlq score member).zset .dlq = (redis.zset .dlq).add member score := by
    simp [Redis.zadd, Redis.setZset]
  obtain ⟨move, entered⟩ := stamped
  refine ⟨⟨?_, ?_⟩, ?_⟩
  · rw [added]
    exact filed.sorted.add member score
  · intro entry listed
    rw [added, SortedSet.mem_add] at listed
    obtain new | ⟨old, -⟩ := listed
    · exact ⟨move, new.trans entered⟩
    · exact filed.scored entry old
  · rw [added]
    apply filed.sorted.sublist_add
    intro entry listed same
    obtain ⟨earlier, rfl⟩ := filed.scored entry listed
    have scores := Move.score_eq_of_member (same.trans (congrArg Prod.fst entered))
    exact scores.trans (congrArg Prod.snd entered).symm

/-- Only a burial changes the set. -/
theorem dlq_perform {d : Discipline} {env : Env} {stores : Stores} {session : Session} {c : Call}
    (permitted : d.permits session c) :
    (perform env stores c).2.redis.zset .dlq = stores.redis.zset .dlq ∨
      ∃ score member, c = .command (.zadd .dlq score member) ∧
        (perform env stores c).2.redis = stores.redis.zadd .dlq score member := by
  by_cases leaves : c.leavesRedis = true
  · rw [perform_leavesRedis env stores leaves]
    exact .inl rfl
  · obtain ⟨_, _, _, performed⟩ | performed := perform_cases env stores c
    · rw [performed]
      exact .inl rfl
    · rw [performed]
      cases c with
      | claim =>
        obtain ⟨after, script, unclaimed⟩ | ⟨_, _, after, script, claimed⟩ :=
          stores.redis.claimScript_cases
        · simp only [performStore, script]
          exact .inl unclaimed.dlq
        · simp only [performStore, script]
          exact .inl claimed.dlq
      | drainDelayed cutoff maxBatch =>
        exact .inl (stores.redis.drainDelayedScript_promoted cutoff maxBatch env.now.unixMilli).dlq
      | command command =>
        cases command with
        | zadd key score member =>
          by_cases dlq : key = .dlq
          · subst dlq
            exact .inr ⟨score, member, rfl, rfl⟩
          · exact .inl (Redis.setZset_dlq _ dlq)
        | zrem key member => exact .inl (Redis.setZset_dlq _ permitted.1)
        | hdelProcessing | delLock | lpushDone | ltrimDone => exact .inl rfl
        | publish => exact absurd rfl leaves
      | _ => exact absurd rfl leaves

/-! ## Runs -/

structure Filing (proc : Processor) (state : SystemState) : Prop where
  conforming : Conforming (.free proc False) state
  stamped : ∀ thread, (state.threads thread).program.Uses Call.stamped
  filed : state.store.redis.Filed

/-- The system takes some steps. -/
abbrev Elapses (proc : Processor) : SystemState → SystemState → Prop :=
  Reach (Moves (taskfire proc).step) fun _ action => Starting Entry.isTaskfire action

/-- The dead-letter set of one state, inserted into to make that of another. -/
def Swells (before after : SystemState) : Prop :=
  (before.store.redis.zset .dlq).entries.Sublist (after.store.redis.zset .dlq).entries

section

variable {proc : Processor} {before after : SystemState} {action : SystemAction}

theorem filing_beginning : Filing proc (beginning proc) where
  conforming := conforming_initial (.free proc False) proc _
  stamped _ := trivial
  filed := ⟨List.Pairwise.nil, fun _ => nofun⟩

theorem filed_step (filing : Filing proc before)
    (stepped : (taskfire proc).step before action = some after) :
    after.store.redis.Filed ∧ Swells before after := by
  obtain same | ⟨id, same⟩ | ⟨thread, env, c, next, -, program, rfl⟩ := Machine.step_store stepped
  · rw [Swells, same]
    exact ⟨filing.filed, List.Sublist.refl _⟩
  · rw [Swells, same]
    exact ⟨⟨filing.filed.sorted, filing.filed.scored⟩, List.Sublist.refl _⟩
  · have permitted : (Discipline.free proc False).permits (before.threads thread).session c :=
      (program ▸ filing.conforming thread : Completes _ _ (.call c next)).1
    have stamped : c.stamped := (program ▸ filing.stamped thread : Program.Uses _ (.call c next)).1
    obtain same | ⟨score, member, buries, added⟩ :=
      @dlq_perform _ env before.store _ _ permitted
    · have kept := filing.filed
      refine ⟨⟨?_, ?_⟩, ?_⟩
      · exact same ▸ kept.sorted
      · exact same ▸ kept.scored
      · show (before.store.redis.zset .dlq).entries.Sublist
          ((perform env before.store c).2.redis.zset .dlq).entries
        rw [same]
    · subst buries
      have grown := filing.filed.add (stamped rfl)
      rw [← added] at grown
      exact grown

theorem filing_step (filing : Filing proc before) (starting : Starting Entry.isTaskfire action)
    (stepped : (taskfire proc).step before action = some after) : Filing proc after where
  conforming := by
    apply conforming_step filing.conforming stepped
    · intro thread entry acts
      subst acts
      exact Entry.admissible starting False.elim False.elim False.elim rfl
    · exact fun _ _ _ strict => strict.elim
  stamped := by
    apply Machine.step_threads (fun thread => thread.program.Uses Call.stamped) stepped filing.stamped
    · exact trivial
    · intro thread entry acts
      subst acts
      exact Entry.stamped starting
    · intro thread env session c next _ _ uses
      exact uses.2 _
  filed := (filed_step filing stepped).1

/-- Whatever fails, expires or crashes, the dead-letter set is only inserted into. -/
theorem swells_of_run (filing : Filing proc before) (run : Elapses proc before after) :
    Filing proc after ∧ Swells before after := by
  refine run.invariant (fun state => Filing proc state ∧ Swells before state) ?_ ?_
  · exact ⟨filing, List.Sublist.refl _⟩
  · intro state label next ⟨filing, swells⟩ kept moved
    exact ⟨filing_step filing kept moved, swells.trans (filed_step filing moved).2⟩

end

/-! ## The client -/

/-- The query for page `number`. -/
def DLQQuery.numbered (query : DLQQuery) (number : Nat) : DLQQuery :=
  { query with offset := number * query.limit }

/-- A client asks for page after page.  Each command of a request is served some steps of the system
after the command before it. -/
structure Paged (proc : Processor) (ranged counted : Nat → SystemState) : Prop where
  begins : Elapses proc (beginning proc) (ranged 0)
  counts : ∀ number, Elapses proc (ranged number) (counted number)
  proceeds : ∀ number, Elapses proc (counted number) (ranged (number + 1))

section

variable {proc : Processor} {ranged counted : Nat → SystemState}

/-- The answer to the request for page `number`. -/
def DLQQuery.answer (query : DLQQuery) (ranged counted : Nat → SystemState) (number : Nat) : DLQPage :=
  Api.getDeadLetter (query.numbered number) (ranged number).store.redis (counted number).store.redis

theorem Paged.filing (paged : Paged proc ranged counted) (number : Nat) :
    Filing proc (ranged number) := by
  induction number with
  | zero => exact (swells_of_run filing_beginning paged.begins).1
  | succ number inductionHypothesis =>
    have filing := (swells_of_run inductionHypothesis (paged.counts number)).1
    exact (swells_of_run filing (paged.proceeds number)).1

theorem Paged.swells (paged : Paged proc ranged counted) (number : Nat) :
    Swells (ranged number) (ranged (number + 1)) := by
  obtain ⟨filing, first⟩ := swells_of_run (paged.filing number) (paged.counts number)
  exact first.trans (swells_of_run filing (paged.proceeds number)).2

/-- The jobs on a page are those of a page of the members, the newest first. -/
theorem DLQQuery.answer_jobs (query : DLQQuery) (number : Nat) :
    (query.answer ranged counted number).jobs =
      (page query.limit number ((ranged number).store.redis.zset .dlq).members.reverse).filterMap
        fun member => member.json?.map JobJson.dlqEntry := by
  have members := SortedSet.revRange_page ((ranged number).store.redis.zset .dlq) query.limitMin
    (number * query.limit)
  exact congrArg (List.filterMap fun member : Member => member.json?.map JobJson.dlqEntry) members

/-- A client that reads page after page of `/dead-letter`, until a page reaches the total it comes
with, is shown every entry that a request could have shown when it asked first, whatever is buried
in the meantime. -/
theorem deadLetters_paged (paged : Paged proc ranged counted) {query other : DLQQuery} {last : Nat}
    (reached : (query.answer ranged counted last).total ≤
      (query.answer ranged counted last).offset + (query.answer ranged counted last).limit)
    {entry : DLQEntry}
    (listed : entry ∈ (Api.getDeadLetter other (ranged 0).store.redis (counted 0).store.redis).jobs) :
    ∃ number ≤ last, entry ∈ (query.answer ranged counted number).jobs := by
  obtain ⟨member, inside, shown⟩ := List.mem_filterMap.mp listed
  have there : member ∈ ((ranged 0).store.redis.zset .dlq).members.reverse := by
    rw [SortedSet.revRange_page _ other.limitMin] at inside
    exact List.mem_of_mem_drop (List.mem_of_mem_take inside)
  have short : ((ranged last).store.redis.zset .dlq).members.reverse.length ≤
      (last + 1) * query.limit := by
    have swells := (swells_of_run (paged.filing last) (paged.counts last)).2
    calc ((ranged last).store.redis.zset .dlq).members.reverse.length
        = ((ranged last).store.redis.zset .dlq).members.length := List.length_reverse
      _ ≤ ((counted last).store.redis.zset .dlq).members.length := (swells.map Prod.fst).length_le
      _ ≤ last * query.limit + query.limit := reached
      _ = (last + 1) * query.limit := by rw [Nat.add_mul, Nat.one_mul]
  have read := mem_pages_of_growing
    (fun number _ => ((paged.swells number).map Prod.fst).reverse) short there
  obtain ⟨number, before, onPage⟩ := List.mem_flatMap.mp read
  refine ⟨number, Nat.lt_succ_iff.mp (List.mem_range.mp before), ?_⟩
  rw [DLQQuery.answer_jobs]
  exact List.mem_filterMap.mpr ⟨member, onPage, shown⟩

end

/-! ## Three burials -/

/-- A job is created and dies at its first attempt. -/
def diesAt (id : JobId) (now : Time) : List SystemAction :=
  .spawn 0 (.create .plain) :: calls 0 5 { Env.calm id with now } ++
    .spawn 1 .work :: calls 1 19 { Env.failing id with now }

/-- The first page comes from one state, the others from another. -/
def switching (early late : SystemState) (number : Nat) : SystemState := if number = 0 then early else late

def DLQQuery.one : DLQQuery := ⟨1, 0, by decide, by decide⟩

def DLQQuery.two : DLQQuery := ⟨2, 0, by decide, by decide⟩

def DLQPage.shows (page : DLQPage) (id : JobId) : Bool := page.jobs.any fun entry => entry.id = id

/-- Two pages of one show the same job, the third is the last, and another job was there at first. -/
def repeats (early late : SystemState) : Bool :=
  (DLQQuery.one.answer (switching early late) (switching early late) 0).shows "second" &&
    (DLQQuery.one.answer (switching early late) (switching early late) 1).shows "second" &&
    decide ((DLQQuery.one.answer (switching early late) (switching early late) 2).total ≤ 3) &&
    (Api.getDeadLetter .two early.store.redis early.store.redis).shows "first"

theorem paged_switching {proc : Processor} {early late : SystemState}
    (begins : Elapses proc (beginning proc) early) (goes : Elapses proc early late) :
    Paged proc (switching early late) (switching early late) where
  begins := begins
  counts _ := .refl _
  proceeds number := by
    cases number with
    | zero => exact goes
    | succ number => exact .refl _

/-- Two jobs are in the set when the first page is asked for, and a third is buried before the second:
the client sees one of them twice, and the oldest on the third page. -/
theorem deadLetters_paged_twice : ∃ ranged : Nat → SystemState,
    (DLQQuery.one.answer ranged ranged 0).shows "second" ∧
      (DLQQuery.one.answer ranged ranged 1).shows "second" ∧
      ∃ number ≤ 2, (DLQQuery.one.answer ranged ranged number).shows "first" := by
  let starting (_ : SystemState) (action : SystemAction) : Bool :=
    decide (Starting Entry.isTaskfire action)
  have reached : ∃ early, Elapses .impatient (beginning .impatient) early ∧
      (replay (taskfire .impatient).step starting early (diesAt "third" 3)).any (repeats early) = true :=
    replay_reaches starting (fun _ _ checked => of_decide_eq_true checked)
      (diesAt "first" 1 ++ diesAt "second" 2) _ (by decide +kernel)
  obtain ⟨early, begins, continued⟩ := reached
  have reached : ∃ late, Elapses .impatient early late ∧ repeats early late = true :=
    replay_reaches starting (fun _ _ checked => of_decide_eq_true checked) _ _ continued
  obtain ⟨late, goes, checked⟩ := reached
  obtain ⟨most, there⟩ := Bool.and_eq_true .. ▸ checked
  obtain ⟨shown, whole⟩ := Bool.and_eq_true .. ▸ most
  obtain ⟨first, again⟩ := Bool.and_eq_true .. ▸ shown
  obtain ⟨entry, listed, named⟩ := List.any_eq_true.mp there
  obtain ⟨number, within, seen⟩ := @deadLetters_paged _ _ (switching early late)
    (paged_switching begins goes) .one .two 2 (of_decide_eq_true whole) entry listed
  exact ⟨switching early late, first, again, number, within, List.any_eq_true.mpr ⟨entry, seen, named⟩⟩

end Taskfire
