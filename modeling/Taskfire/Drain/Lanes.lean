import Taskfire.Library.SortedOrder
import Taskfire.Safety.Claiming

/-!
# How `Dequeue` empties a lane

One call takes at most the head of each lane: the lane stays as it was, loses its head, or gets its
locked head back.  So a sequence of calls takes the entries of a lane in their order.
-/

namespace Taskfire

open Taskfire.Library

variable {M : Type} [DecidableEq M] [Ord M]

/-! ## One lane -/

/-- The set is left as it was, without its head, or with its head put back. -/
inductive Shrinks (set : SortedSet M) : SortedSet M → Prop
  | same : Shrinks set set
  | popped {data : M} {score : Int} {rest : SortedSet M} :
      set.popMin = some (data, score, rest) → Shrinks set rest
  | restored {data : M} {score : Int} {rest : SortedSet M} :
      set.popMin = some (data, score, rest) → Shrinks set (rest.add data score)

theorem Shrinks.length_le {set after : SortedSet M} (shrinks : Shrinks set after) :
    after.entries.length ≤ set.entries.length := by
  cases shrinks with
  | same => exact Nat.le_refl _
  | popped popped => simp [SortedSet.popMin_entries popped]
  | restored popped =>
    rw [SortedSet.popMin_entries popped, SortedSet.add, (SortedSet.place_perm _ _).length_eq]
    exact Nat.succ_le_succ (List.length_filter_le _ _)

theorem Shrinks.subset {set after : SortedSet M} (shrinks : Shrinks set after) {entry : M × Int}
    (present : entry ∈ after.entries) : entry ∈ set.entries := by
  cases shrinks with
  | same => exact present
  | popped popped =>
    rw [SortedSet.popMin_entries popped]
    exact List.mem_cons_of_mem _ present
  | restored popped =>
    rw [SortedSet.popMin_entries popped, List.mem_cons]
    exact (SortedSet.mem_add.mp present).imp_right And.left

section Lawful

variable [Std.TransOrd M] [Std.LawfulEqOrd M]

theorem Shrinks.sorted {set after : SortedSet M} (shrinks : Shrinks set after)
    (sorted : set.Sorted) : after.Sorted := by
  cases shrinks with
  | same => exact sorted
  | popped popped => exact (sorted.popMin popped).1
  | restored popped => exact (sorted.popMin popped).1.add _ _

/-- An entry that stands behind another is not taken. -/
theorem Shrinks.behind {set after : SortedSet M} (shrinks : Shrinks set after)
    (sorted : set.Sorted) {first second : M × Int} (ahead : first ∈ set.entries)
    (behind : second ∈ set.entries) (before : SortedSet.precedes first second = true) :
    second ∈ after.entries := by
  cases shrinks with
  | same => exact behind
  | popped popped => exact sorted.behind_stays popped ahead behind before
  | @restored data score rest popped =>
    have stays := sorted.behind_stays popped ahead behind before
    rw [SortedSet.mem_add]
    refine .inr ⟨stays, ?_⟩
    intro same
    exact (SortedSet.popMin_mem popped).2 (same ▸ List.mem_map_of_mem stays)

end Lawful

/-! ## Ordered stores -/

namespace Redis

/-- Every set stands in the order of its scores and members, as Redis keeps it. -/
def Ordered (redis : Redis M) : Prop := ∀ key, (redis.zset key).Sorted

omit [DecidableEq M] in
theorem empty_ordered : (empty : Redis M).Ordered := fun _ => List.Pairwise.nil

omit [DecidableEq M] in
theorem Ordered.setZset {redis : Redis M} (ordered : redis.Ordered) (key : ZKey)
    {set : SortedSet M} (sorted : set.Sorted) : (redis.setZset key set).Ordered := by
  intro other
  by_cases same : other = key
  · subst same
    simpa [Redis.setZset] using sorted
  · simpa [Redis.setZset, same] using ordered other

theorem Ordered.zrem {redis : Redis M} (ordered : redis.Ordered) (key : ZKey) (member : M) :
    (redis.zrem key member).Ordered :=
  ordered.setZset key ((ordered key).remove member)

theorem Ordered.zadd [Std.TransOrd M] [Std.LawfulEqOrd M] {redis : Redis M}
    (ordered : redis.Ordered) (key : ZKey) (score : Int) (member : M) :
    (redis.zadd key score member).Ordered :=
  ordered.setZset key ((ordered key).add member score)

/-! ## The script -/

variable [Decoding M]

/-- Trying one lane shrinks it and touches no other set. -/
theorem tryClaim_shrinks (redis : Redis M) (lane : Lane) :
    Shrinks (redis.zset (.lane lane)) ((redis.tryClaim lane).2.zset (.lane lane)) ∧
      ∀ key, key ≠ .lane lane → (redis.tryClaim lane).2.zset key = redis.zset key := by
  cases popped : (redis.zset (.lane lane)).popMin with
  | none =>
    have unchanged : redis.tryClaim lane = (.ok none, redis) := by simp only [tryClaim, popped]
    rw [unchanged]
    exact ⟨.same, fun _ _ => rfl⟩
  | some found =>
    obtain ⟨data, score, rest⟩ := found
    have gone : Shrinks (redis.zset (.lane lane))
          ((redis.setZset (.lane lane) rest).zset (.lane lane)) ∧
        ∀ key, key ≠ .lane lane → (redis.setZset (.lane lane) rest).zset key = redis.zset key := by
      refine ⟨?_, fun key other => Function.update_of_ne other _ _⟩
      rw [zset_setZset, if_pos rfl]
      exact .popped popped
    -- A locked job is put back with the score it had.
    have back : Shrinks (redis.zset (.lane lane))
          (((redis.setZset (.lane lane) rest).zadd (.lane lane) score data).zset (.lane lane)) ∧
        ∀ key, key ≠ .lane lane → ((redis.setZset (.lane lane) rest).zadd (.lane lane) score data).zset
          key = redis.zset key := by
      constructor
      · rw [zadd, zset_setZset, zset_setZset, if_pos rfl, if_pos rfl]
        exact .restored popped
      · intro key other
        rw [← gone.2 key other]
        exact Function.update_of_ne other _ _
    simp only [tryClaim, popped]
    split
    · exact gone
    · exact gone
    · exact gone
    · split
      · exact back
      · exact gone

theorem tryClaims_shrinks {lanes : List Lane} (distinct : lanes.Nodup) (redis : Redis M) :
    (∀ lane ∈ lanes,
      Shrinks (redis.zset (.lane lane)) ((tryClaims lanes redis).2.zset (.lane lane))) ∧
    ∀ key, (∀ lane ∈ lanes, key ≠ .lane lane) →
      (tryClaims lanes redis).2.zset key = redis.zset key := by
  induction lanes generalizing redis with
  | nil => exact ⟨fun _ listed => absurd listed List.not_mem_nil, fun _ _ => rfl⟩
  | cons lane lanes inductionHypothesis =>
    obtain ⟨fresh, distinct⟩ := List.nodup_cons.mp distinct
    obtain ⟨first, others⟩ := redis.tryClaim_shrinks lane
    obtain ⟨later, untouched⟩ := inductionHypothesis distinct (redis.tryClaim lane).2
    -- Each lane is tried once, so that the later tries leave this one alone.
    have apart : ∀ other ∈ lanes, (ZKey.lane lane) ≠ .lane other := by
      intro other listed same
      cases same
      exact fresh listed
    simp only [tryClaims]
    split
    · next next result =>
      rw [result] at first others later untouched
      constructor
      · intro other listed
        obtain same | inside := List.mem_cons.mp listed
        · subst same
          rw [untouched _ apart]
          exact first
        · rw [← others (.lane other) (apart other inside).symm]
          exact later other inside
      · intro key different
        rw [untouched key fun other inside => different other (List.mem_cons_of_mem _ inside)]
        exact others key (different lane List.mem_cons_self)
    · constructor
      · intro other listed
        obtain same | inside := List.mem_cons.mp listed
        · subst same
          exact first
        · rw [others (.lane other) (apart other inside).symm]
          exact .same
      · intro key different
        exact others key (different lane List.mem_cons_self)

theorem claimScript_shrinks (redis : Redis M) (lane : Lane) :
    Shrinks (redis.zset (.lane lane)) (redis.claimScript.2.zset (.lane lane)) := by
  apply (tryClaims_shrinks _ redis).1
  · cases lane <;> simp
  · simp

/-- The script touches no set but the lanes. -/
theorem claimScript_others (redis : Redis M) {key : ZKey} (other : ∀ lane, key ≠ .lane lane) :
    redis.claimScript.2.zset key = redis.zset key := by
  apply (tryClaims_shrinks _ redis).2
  · exact fun lane _ => other lane
  · simp

theorem Ordered.claimScript [Std.TransOrd M] [Std.LawfulEqOrd M] {redis : Redis M}
    (ordered : redis.Ordered) : redis.claimScript.2.Ordered := by
  intro key
  cases key with
  | lane lane => exact (redis.claimScript_shrinks lane).sorted (ordered _)
  | _ =>
    rw [claimScript_others redis (by simp)]
    exact ordered _

/-- Whatever `Dequeue` makes of the member, it leaves Redis as the script does. -/
theorem dequeue_state (redis : Redis M) : redis.dequeue.2 = redis.claimScript.2 := by
  simp only [dequeue]

theorem dequeue_shrinks (redis : Redis M) (lane : Lane) :
    Shrinks (redis.zset (.lane lane)) (redis.dequeue.2.zset (.lane lane)) := by
  rw [dequeue_state]
  exact redis.claimScript_shrinks lane

/-- What Redis holds after some calls of `Dequeue`. -/
def dequeues (redis : Redis M) : Nat → Redis M
  | 0 => redis
  | calls + 1 => (redis.dequeues calls).dequeue.2

theorem dequeues_subset (redis : Redis M) (lane : Lane) {calls : Nat} {entry : M × Int}
    (present : entry ∈ (redis.dequeues calls).entries lane) : entry ∈ redis.entries lane := by
  induction calls with
  | zero => exact present
  | succ calls inductionHypothesis =>
    exact inductionHypothesis ((dequeue_shrinks _ lane).subset present)

section Lawful

variable [Std.TransOrd M] [Std.LawfulEqOrd M] {redis : Redis M} {lane : Lane}

theorem dequeues_sorted (sorted : (redis.zset (.lane lane)).Sorted) (calls : Nat) :
    ((redis.dequeues calls).zset (.lane lane)).Sorted := by
  induction calls with
  | zero => exact sorted
  | succ calls inductionHypothesis =>
    exact (dequeue_shrinks _ lane).sorted inductionHypothesis

/-- An entry stays in its lane as long as one that stands before it does. -/
theorem dequeues_in_order (sorted : (redis.zset (.lane lane)).Sorted) {first second : M × Int}
    (behind : second ∈ redis.entries lane) (before : SortedSet.precedes first second = true)
    {calls : Nat} (waits : first ∈ (redis.dequeues calls).entries lane) :
    second ∈ (redis.dequeues calls).entries lane := by
  induction calls with
  | zero => exact behind
  | succ calls inductionHypothesis =>
    have waited := (dequeue_shrinks _ lane).subset waits
    exact (dequeue_shrinks _ lane).behind (dequeues_sorted sorted calls) waited
      (inductionHypothesis waited) before

end Lawful

end Redis

end Taskfire
