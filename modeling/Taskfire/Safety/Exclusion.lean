import Taskfire.Safety.Completion

/-!
# One record, one handler

As long as each retry finds no other record of the job, there is one at most: in a lane, in the delayed
set or with a thread.  Then no two threads are in a handler of the job, whether or not its lock holds.
-/

namespace Taskfire

open Taskfire.Library

def Call.awaits (id : JobId) : Call → Bool
  | .awaitHandler job => decide (job.id = id)
  | _ => false

/-- The thread is in a handler of the job. -/
def awaiting (id : JobId) (thread : SystemThread) : Prop :=
  thread.next?.any (Call.awaits id) = true

section

variable {proc : Processor} {id : JobId} {last : SystemState}

/-- A thread in a handler carries a record of the job. -/
theorem carrying_of_awaiting {thread : Nat} (conforming : Conforming (.lax proc) last)
    (awaits : awaiting id (last.threads thread)) : carrying id (last.threads thread) := by
  have conforms := conforming thread
  cases program : (last.threads thread).program with
  | pure value => simp [awaiting, Thread.next?, program] at awaits
  | call c rest =>
    obtain ⟨job, rfl, rfl⟩ : ∃ job, c = .awaitHandler job ∧ job.id = id := by
      cases c <;> simp [awaiting, Thread.next?, program, Call.awaits] at awaits ⊢
      exact awaits
    rw [program] at conforms
    obtain ⟨⟨on, opened, -⟩, -⟩ := conforms.1
    refine ⟨?_, on, opened⟩
    rintro ⟨value, ended⟩
    cases program.symm.trans ended

/-- Calls may fail, locks expire and threads crash: if every retry finds no record of the job, at most
one record waits, none does while a thread carries one, one thread at most carries one, and one at most
is in a handler of the job. -/
theorem record_unique
    (run : (taskfire proc).Run (RetriesAlone id) (beginning proc) last) :
    last.store.redis.waiting (Member.isOf id) ≤ 1 ∧
    (∀ thread, carrying id (last.threads thread) → last.store.redis.waiting (Member.isOf id) = 0) ∧
    (∀ thread other, carrying id (last.threads thread) → carrying id (last.threads other) →
      thread = other) ∧
    ∀ thread other, awaiting id (last.threads thread) → awaiting id (last.threads other) →
      thread = other := by
  obtain ⟨conforming, unique⟩ := unique_reach run
  have one (thread other : Nat) (carries : carrying id (last.threads thread))
      (carries' : carrying id (last.threads other)) : thread = other :=
    unique.one thread other (live_iff.mpr carries) (live_iff.mpr carries')
  refine ⟨unique.waiting, fun thread carries => unique.waiting_of_live (live_iff.mpr carries), one, ?_⟩
  intro thread other awaits awaits'
  exact one thread other (carrying_of_awaiting conforming awaits)
    (carrying_of_awaiting conforming awaits')

end

/-- The lock of the job expires while its handler runs, and another worker asks for a job. -/
def outlived : List SystemAction :=
  .spawn 0 (.create .plain) :: calls 0 5 (.calm "j") ++ .spawn 1 .work :: calls 1 7 (.calm "j") ++
    .tick "j" :: .spawn 2 .work :: calls 2 1 (.calm "j")

theorem record_unique_outlived : ∃ last : SystemState, awaiting "j" (last.threads 1) ∧
    last.store.redis.lock "j" = false ∧ last.store.redis.waiting (Member.isOf "j") ≤ 1 ∧
    (∀ thread, carrying "j" (last.threads thread) →
      last.store.redis.waiting (Member.isOf "j") = 0) ∧
    (∀ thread other, carrying "j" (last.threads thread) → carrying "j" (last.threads other) →
      thread = other) ∧
    ∀ thread other, awaiting "j" (last.threads thread) → awaiting "j" (last.threads other) →
      thread = other := by
  have reached : ∃ last, (taskfire .wired).Run (RetriesAlone "j") (beginning .wired) last ∧
      decide (last.store.redis.lock "j" = false ∧ (last.threads 1).next?.any (Call.awaits "j") = true) =
        true := by
    refine replay_reaches (fun state action =>
      decide (Starting Entry.isRooted action) && avoids (· = .requeues) "j" state action) ?_
      outlived _ (by decide +kernel)
    intro state action checked
    obtain ⟨starting, avoided⟩ := Bool.and_eq_true .. ▸ checked
    exact ⟨of_decide_eq_true starting,
      fun thread does => absurd does (not_does_of_avoids avoided rfl thread)⟩
  obtain ⟨last, run, checked⟩ := reached
  obtain ⟨unlocked, awaits⟩ := of_decide_eq_true checked
  exact ⟨last, awaits, unlocked, record_unique run⟩

end Taskfire
