import Taskfire.Drain.Promote
import Taskfire.Library.Sweep

/-!
# Whether repeated calls of `DrainDelayed` make progress

A member that `cjson` does not decode is neither moved nor removed, and takes its part of every
batch.  A call is a sweep over the due entries with the batch as its window, so the calls stall when
a batch is full of such members.
-/

namespace Taskfire

open Taskfire.Library

variable {M : Type} [DecidableEq M] [Ord M] [Decoding M]

namespace Redis

/-- The entries of the delayed set with a score of at most `cutoff`, in their order. -/
def due (redis : Redis M) (cutoff : Int) : List (M × Int) :=
  (redis.zset .delayed).entries.filter fun entry => entry.2 ≤ cutoff

/-- Redis after some calls of `DrainDelayed` with one cutoff and one batch size, at the times the
clock of Redis shows. -/
def drains (redis : Redis M) (cutoff : Int) (maxBatch : Nat) (clock : Nat → Int) : Nat → Redis M
  | 0 => redis
  | calls + 1 => ((redis.drains cutoff maxBatch clock calls).drainDelayedScript cutoff maxBatch
      (clock calls)).2

/-- After finitely many calls no decodable member is due. -/
def Clears (redis : Redis M) (cutoff : Int) (maxBatch : Nat) (clock : Nat → Int) : Prop :=
  ∃ calls, ∀ entry ∈ ((redis.drains cutoff maxBatch clock calls).zset .delayed).entries,
    entry.2 ≤ cutoff → decodable entry.1 = false

/-- Before every decodable due entry stand fewer than `maxBatch` entries that are not decodable. -/
def Unobstructed (redis : Redis M) (cutoff : Int) (maxBatch : Nat) : Prop :=
  ∀ before entry after, redis.due cutoff = before ++ entry :: after → decodable entry.1 = true →
    before.countP (fun other => !decodable other.1) < maxBatch

/-- One call sweeps over the due entries. -/
theorem due_drained (redis : Redis M) (cutoff : Int) (maxBatch : Nat) (nowMs : Int) :
    (redis.drainDelayedScript cutoff maxBatch nowMs).2.due cutoff =
      sweep maxBatch (fun entry => decodable entry.1) (redis.due cutoff) := by
  obtain ⟨-, promotes⟩ := redis.drainDelayedScript_promotes cutoff maxBatch nowMs
  have remaining : (redis.drainDelayedScript cutoff maxBatch nowMs).2.due cutoff =
      (redis.due cutoff).filter fun entry => entry.1 ∉ redis.promoted cutoff maxBatch := by
    rw [due, promotes.delayed, due, List.filter_filter, List.filter_filter]
    apply List.filter_congr
    intro entry _
    exact Bool.and_comm _ _
  have distinct : ((redis.due cutoff).map Prod.fst).Nodup :=
    (redis.zset .delayed).nodup.sublist (List.filter_sublist.map _)
  have batch : redis.promoted cutoff maxBatch =
      (((redis.due cutoff).take maxBatch).map Prod.fst).filter decodable := rfl
  rw [remaining, batch, sweep]
  generalize redis.due cutoff = entries at distinct
  rw [← List.take_append_drop maxBatch entries, List.map_append] at distinct
  have apart := List.disjoint_of_nodup_append distinct
  conv => lhs; rw [← List.take_append_drop maxBatch entries, List.filter_append]
  congr 1
  · rw [List.take_append_drop]
    apply List.filter_congr
    intro entry taken
    have listed : entry.1 ∈ (entries.take maxBatch).map Prod.fst := List.mem_map_of_mem taken
    simp only [List.mem_filter, listed, true_and]
    cases decodable entry.1 <;> rfl
  · rw [List.take_append_drop]
    apply List.filter_eq_self.mpr
    intro entry dropped
    have later : entry.1 ∈ (entries.drop maxBatch).map Prod.fst := List.mem_map_of_mem dropped
    rw [decide_eq_true_eq]
    exact fun promoted => apart (List.mem_of_mem_filter promoted) later

theorem due_drains (redis : Redis M) (cutoff : Int) (maxBatch : Nat) (clock : Nat → Int)
    (calls : Nat) : (redis.drains cutoff maxBatch clock calls).due cutoff =
      (sweep maxBatch fun entry => decodable entry.1)^[calls] (redis.due cutoff) := by
  induction calls with
  | zero => rfl
  | succ calls inductionHypothesis =>
    rw [drains, due_drained, inductionHypothesis, Function.iterate_succ_apply']

theorem clears_iff_withinReach (redis : Redis M) (cutoff : Int) (maxBatch : Nat)
    (clock : Nat → Int) : redis.Clears cutoff maxBatch clock ↔
      WithinReach maxBatch (fun entry => decodable entry.1) (redis.due cutoff) := by
  rw [← sweeps_iff]
  simp only [← redis.due_drains cutoff maxBatch clock]
  simp only [Clears, due, List.mem_filter, decide_eq_true_eq, and_imp]

/-- The calls clear the delayed set of what is due and decodable exactly when no batch can fill up
with members that are not decodable. -/
theorem drains_clear_iff (redis : Redis M) (cutoff : Int) (maxBatch : Nat) (clock : Nat → Int) :
    redis.Clears cutoff maxBatch clock ↔ redis.Unobstructed cutoff maxBatch :=
  redis.clears_iff_withinReach cutoff maxBatch clock

end Redis

/-- A text that is no table, due before a job. -/
def obstructed : Redis Member :=
  (Redis.empty.zadd .delayed 0 (.text "null")).zadd .delayed 1 Job.plain.marshal

/-- With a batch of one, the text keeps the job from being promoted for ever. -/
theorem obstructed_stalls : ¬ obstructed.Clears 1 1 (fun _ => 0) := by
  rw [Redis.clears_iff_withinReach]
  intro reach
  have split : obstructed.due 1 = [(.text "null", 0)] ++ (Job.plain.marshal, 1) :: [] := by decide
  exact absurd (reach _ _ _ split rfl) (by decide)

end Taskfire
