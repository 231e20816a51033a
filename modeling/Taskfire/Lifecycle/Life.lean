import Taskfire.Lifecycle.Protocol

/-!
# The life of one job

What the system is to a single job, without programs, keys or scripts: its row, how many records of
it wait and lie dead, its claim, and what each thread that works for it still owes it.  `Life.Step`
is everything that can happen to a job; `Simulation.lean` shows that the system does nothing else.
-/

namespace Taskfire

open Taskfire.Library

structure Life where
  row : Option Row
  /-- Records in the lanes and in the delayed set. -/
  waiting : Nat
  /-- What those records carry. -/
  carried : Brief → Prop
  /-- Records in the dead-letter set. -/
  letters : Nat
  locked : Bool
  /-- The processing hash has an entry for the job. -/
  listed : Bool
  enqueued : Bool
  cancelled : Bool
  succeeded : Bool
  /-- How often a handler was started. -/
  started : Nat
  /-- The threads in the middle of work for the job. -/
  roles : Nat → Option Role

/-- What a thread does to a job. -/
inductive Event where
  | enters (token : Token)
  | inserts (jobType : String) (maxRetries : Int)
  | cancels
  | requeues
  | marks (status : JobStatus)
  | failsToMark (status : JobStatus)
  | places
  | buries
  | removes
  | promotes
  | claims
  | unlists
  | failsToUnlist
  | unlocks
  | failsToUnlock
  | starts
  | ends (succeeded : Bool)
  | misses
  | other
  deriving DecidableEq

inductive Label where
  | act (thread : Nat) (event : Event)
  | leave (thread : Nat)
  | crash (thread : Nat)
  | expire

namespace Life

/-- The life after thread `thread` became `role`. -/
def put (life : Life) (thread : Nat) (role : Option Role) : Life :=
  { life with roles := Function.update life.roles thread role }

def status (life : Life) : Option JobStatus := life.row.map Row.status

/-- Thread `thread` has a record of the job that it still owes a place. -/
def live (life : Life) (thread : Nat) : Prop :=
  ∃ role, life.roles thread = some role ∧ role.token.isOpen = true

section Put

variable (life : Life) (thread : Nat) (role : Option Role)

@[simp] theorem put_row : (life.put thread role).row = life.row := rfl

@[simp] theorem put_status : (life.put thread role).status = life.status := rfl

@[simp] theorem put_waiting : (life.put thread role).waiting = life.waiting := rfl

@[simp] theorem put_carried : (life.put thread role).carried = life.carried := rfl

@[simp] theorem put_letters : (life.put thread role).letters = life.letters := rfl

@[simp] theorem put_locked : (life.put thread role).locked = life.locked := rfl

@[simp] theorem put_listed : (life.put thread role).listed = life.listed := rfl

@[simp] theorem put_enqueued : (life.put thread role).enqueued = life.enqueued := rfl

@[simp] theorem put_cancelled : (life.put thread role).cancelled = life.cancelled := rfl

@[simp] theorem put_succeeded : (life.put thread role).succeeded = life.succeeded := rfl

@[simp] theorem put_started : (life.put thread role).started = life.started := rfl

@[simp] theorem put_same : (life.put thread role).roles thread = role := by
  simp [put]

end Put

theorem put_other {life : Life} {thread other : Nat} {role : Option Role}
    (different : other ≠ thread) : (life.put thread role).roles other = life.roles other := by
  simp [put, different]

section Turned

variable {before after : Life} {thread other : Nat} {next : Option Role} {P : Role → Prop}

/-- What a thread turns to has a property if the one role it turns to has it. -/
theorem turns_to {role : Role} (holds : P role) : ∀ held, some role = some held → P held := by
  intro held shape
  cases shape
  exact holds

/-- A thread that ends turns to no role. -/
theorem turns_away : ∀ held, none = some held → P held := by
  intro held shape
  cases shape

/-- After thread `thread` has become `next`, a role is that one or one of before. -/
theorem role_of_turned {held : Role} (roles : after.roles = (before.put thread next).roles)
    (current : after.roles other = some held) :
    (other = thread ∧ next = some held) ∨ (other ≠ thread ∧ before.roles other = some held) := by
  rw [roles] at current
  by_cases same : other = thread
  · subst same
    rw [put_same] at current
    exact .inl ⟨rfl, current⟩
  · rw [put_other same] at current
    exact .inr ⟨same, current⟩

/-- A property of a thread's role was there before unless the step brought it. -/
theorem plays_of_turned (roles : after.roles = (before.put thread next).roles)
    (plays : ∃ role, after.roles other = some role ∧ P role) :
    (other = thread ∧ ∃ held, next = some held ∧ P held) ∨
      (other ≠ thread ∧ ∃ role, before.roles other = some role ∧ P role) := by
  obtain ⟨held, current, property⟩ := plays
  obtain ⟨same, shape⟩ | ⟨different, old⟩ := role_of_turned roles current
  · exact .inl ⟨same, held, shape, property⟩
  · exact .inr ⟨different, held, old, property⟩

/-- A property of a thread's role stays unless the step takes it. -/
theorem plays_turned (roles : after.roles = (before.put thread next).roles)
    (kept : (∃ role, before.roles thread = some role ∧ P role) → ∃ held, next = some held ∧ P held)
    (plays : ∃ role, before.roles other = some role ∧ P role) :
    ∃ role, after.roles other = some role ∧ P role := by
  by_cases same : other = thread
  · subst same
    obtain ⟨held, shape, property⟩ := kept plays
    refine ⟨held, ?_, property⟩
    rw [roles, put_same, shape]
  · obtain ⟨role, current, property⟩ := plays
    refine ⟨role, ?_, property⟩
    rw [roles, put_other same, current]

end Turned

/-- A thread whose role has changed is live as its new role says, every other as before. -/
theorem live_put {life : Life} {thread other : Nat} {role : Option Role}
    (alive : (life.put thread role).live other) :
    (other = thread ∧ ∃ held, role = some held ∧ held.token.isOpen = true) ∨
      (other ≠ thread ∧ life.live other) :=
  plays_of_turned rfl alive

theorem putBack_cancelled {stage : Stage} (cancelled : stage.putBack = .cancelled) :
    stage = .cancelled := by
  cases stage <;> simp [Stage.putBack] at cancelled ⊢

theorem unlisted_cancelled {stage : Stage} (cancelled : stage.unlisted = .cancelled) :
    stage = .cancelled := by
  cases stage <;> simp [Stage.unlisted] at cancelled ⊢

theorem unlisted_not_requeued {stage : Stage} : stage.unlisted ≠ .requeued := by
  cases stage <;> simp [Stage.unlisted]

/-- Some of the records that waited are still there. -/
structure Fewer (before : Life) (waiting : Nat) (carried : Brief → Prop) : Prop where
  left : ∀ brief, carried brief → 0 < waiting
  waiting : waiting ≤ before.waiting
  carried : ∀ brief, carried brief → before.carried brief

/-- One thing that happens to a job.  A command that fails changes nothing but the stage of a
thread that was releasing its claim. -/
inductive Step (d : Discipline) : Life → Label → Life → Prop
  | enters {life : Life} {thread : Nat} {token : Token} {brief : Brief} :
      life.roles thread = none → d.mayEnter token →
      Step d life (.act thread (.enters token))
        (life.put thread (some ⟨.idle, token, brief, .due⟩))
  | inserts {life : Life} {thread : Nat} {role : Role} {row : Row} :
      life.roles thread = some role → role.token = .absent → life.row = none →
      row.status = .pending → row.retryCount = 0 →
      Step d life (.act thread (.inserts row.jobType row.maxRetries))
        ({ life with row := some row }.put thread
          (some { role with token := .owed, brief := row.brief }))
  | cancels {life : Life} {thread : Nat} {role : Role} {old new : Row} :
      life.roles thread = some role → role.stage = .idle → life.row = some old →
      old.status ≠ .active → old.status ≠ .completed → Jobs.Rewrites old new .failed old.retryCount →
      Step d life (.act thread .cancels)
        ({ life with row := some new, cancelled := true }.put thread
          (some { role with stage := .cancelled }))
  | requeues {life : Life} {thread : Nat} {role : Role} {old new : Row} :
      life.roles thread = some role → role.token = .absent → life.row = some old →
      old.status = .failed ∨ old.status = .dead → Jobs.Rewrites old new .pending new.retryCount →
      Step d life (.act thread .requeues)
        ({ life with row := some new }.put thread
          (some { role with token := .owed, brief := new.brief }))
  | marks {life : Life} {thread : Nat} {role : Role} {old new : Row} {status : JobStatus} :
      life.roles thread = some role → role.token.isOpen = true → life.row = some old →
      0 ≤ role.brief.retryCount → role.brief.retryCount ≤ old.maxRetries →
      Jobs.Rewrites old new status role.brief.retryCount →
      Step d life (.act thread (.marks status))
        ({ life with row := some new }.put thread (some { role with token := .marked status }))
  | marksNothing {life : Life} {thread : Nat} {role : Role} {status : JobStatus} :
      life.roles thread = some role → role.token.isOpen = true → life.row = none →
      Step d life (.act thread (.marks status))
        (life.put thread (some { role with token := .marked status }))
  | failsToMark {life : Life} {thread : Nat} {role : Role} {status : JobStatus} :
      life.roles thread = some role → role.token.isOpen = true →
      (d.strict → ∃ old, life.row = some old ∧
        ¬ (0 ≤ role.brief.retryCount ∧ role.brief.retryCount ≤ old.maxRetries)) →
      Step d life (.act thread (.failsToMark status))
        (life.put thread (some { role with token := .unmarked status }))
  | places {life : Life} {thread : Nat} {role : Role} {waiting : Nat} {carried : Brief → Prop} :
      life.roles thread = some role → role.token.isOpen = true → d.mayPlace role →
      0 < waiting → waiting ≤ life.waiting + 1 →
      (∀ brief, carried brief ↔ life.carried brief ∨ brief = role.brief) →
      Step d life (.act thread .places)
        ({ life with waiting, carried, enqueued := true }.put thread
          (some { role with token := .placed, stage := role.stage.putBack }))
  | buries {life : Life} {thread : Nat} {role : Role} {letters : Nat} :
      life.roles thread = some role →
      role.token = .dying ∨ role.token = .unmarked .dead ∨ (d.bare ∧ role.token.isOpen = true) →
      0 < letters → letters ≤ life.letters + 1 →
      Step d life (.act thread .buries)
        ({ life with letters }.put thread (some { role with token := .buried }))
  | removes {life : Life} {thread : Nat} {role : Role} {waiting : Nat} {carried : Brief → Prop} :
      life.roles thread = some role → role.stage = .cancelled → life.Fewer waiting carried →
      Step d life (.act thread .removes) { life with waiting, carried }
  | promotes {life : Life} {thread : Nat} {waiting : Nat} :
      waiting ≤ life.waiting → (0 < life.waiting → 0 < waiting) →
      Step d life (.act thread .promotes) { life with waiting }
  | drops {life : Life} {thread : Nat} {waiting : Nat} {carried : Brief → Prop} :
      ¬ d.legible → life.Fewer waiting carried →
      Step d life (.act thread .other) { life with waiting, carried }
  | claims {life : Life} {thread : Nat} {brief : Brief} {waiting : Nat} {carried : Brief → Prop} :
      life.roles thread = none → life.locked = false → waiting < life.waiting →
      life.carried brief → life.Fewer waiting carried →
      (d.legible → ∀ other, life.carried other → carried other ∨ other = brief) →
      Step d life (.act thread .claims)
        ({ life with waiting, carried, locked := true, listed := true }.put thread
          (some ⟨.claimed, .owed, brief, .due⟩))
  | unlists {life : Life} {thread : Nat} {role : Role} :
      life.roles thread = some role → role.attempt ≠ .running →
      role.stage = .claimed ∨ role.stage = .requeued ∨ (role.stage = .released ∧ ¬ d.bare) →
      Step d life (.act thread .unlists)
        ({ life with listed := false }.put thread (some { role with stage := role.stage.unlisted }))
  | failsToUnlist {life : Life} {thread : Nat} {role : Role} :
      life.roles thread = some role → role.attempt ≠ .running →
      role.stage = .claimed ∨ role.stage = .requeued ∨ (role.stage = .released ∧ ¬ d.bare) →
      ¬ d.strict →
      Step d life (.act thread .failsToUnlist)
        (life.put thread (some { role with stage := role.stage.unlisted }))
  | unlocks {life : Life} {thread : Nat} {role : Role} :
      life.roles thread = some role → role.stage = .releasing ∨ (role.stage = .again ∧ ¬ d.bare) →
      Step d life (.act thread .unlocks)
        ({ life with locked := false }.put thread (some { role with stage := .released }))
  | failsToUnlock {life : Life} {thread : Nat} {role : Role} :
      life.roles thread = some role → role.stage = .releasing ∨ (role.stage = .again ∧ ¬ d.bare) →
      ¬ d.strict →
      Step d life (.act thread .failsToUnlock)
        (life.put thread (some { role with stage := .released }))
  | starts {life : Life} {thread : Nat} {role : Role} :
      life.roles thread = some role → role.token.isOpen = true → role.token ≠ .owed →
      role.stage = .claimed → role.attempt = .due →
      Step d life (.act thread .starts)
        ({ life with started := life.started + 1 }.put thread
          (some { role with attempt := .running }))
  | succeeds {life : Life} {thread : Nat} {role : Role} :
      life.roles thread = some role → role.token.isOpen = true → role.token ≠ .owed →
      role.stage = .claimed → role.attempt = .running →
      Step d life (.act thread (.ends true))
        ({ life with succeeded := true }.put thread (some { role with attempt := .passed }))
  | fails {life : Life} {thread : Nat} {role : Role} :
      life.roles thread = some role → role.token.isOpen = true → role.token ≠ .owed →
      role.stage = .claimed → role.attempt = .running →
      Step d life (.act thread (.ends false)) (life.put thread (some role.failedOnce))
  | misses {life : Life} {thread : Nat} {role : Role} :
      life.roles thread = some role → role.token.isOpen = true → role.token ≠ .owed →
      role.stage = .claimed → role.attempt = .due →
      Step d life (.act thread .misses) (life.put thread (some role.failedOnce))
  | other {life : Life} {thread : Nat} : Step d life (.act thread .other) life
  | leaves {life : Life} {thread : Nat} {role : Role} :
      life.roles thread = some role → d.final role →
      Step d life (.leave thread) (life.put thread none)
  | crashes {life : Life} {thread : Nat} : Step d life (.crash thread) (life.put thread none)
  | expires {life : Life} {locked : Bool} :
      locked = false ∨ locked = life.locked → Step d life .expire { life with locked }

end Life

end Taskfire
