import Taskfire.Drain.Fifo
import Taskfire.Drain.Promote

/-!
# First in, first out

A lane is filled by the enqueues of the worker and of the API, which score a job by the clock, and by
the drain script, which scores the jobs of a batch from the clock on.  Of two jobs that enter a lane
one after the other the first is claimed first exactly when its score is lower, or equal with a
member that sorts first.
-/

namespace Taskfire

open Taskfire.Library

/-- What puts jobs in lanes, with the time the clock shows. -/
inductive Operation where
  | enqueue (job : Job) (now : Time)
  | enqueueJob (payload : EnqueuePayload) (now : Time)
  | drainDelayed (cutoff : Int) (maxBatch : Nat) (now : Time)

namespace Operation

def now : Operation → Time
  | .enqueue _ now | .enqueueJob _ now | .drainDelayed _ _ now => now

/-- The id of the job that is enqueued. -/
def jobId? : Operation → Option JobId
  | .enqueue job _ => some job.id
  | .enqueueJob payload _ => some payload.id
  | .drainDelayed .. => none

variable {M : Type} [DecidableEq M] [Ord M] [Encoding M]

def apply (redis : Redis M) : Operation → Redis M
  | .enqueue job now =>
    redis.zadd (.lane (laneKey job.priority)) now.unixMilli (Encoding.marshal job)
  | .enqueueJob payload now =>
    redis.zadd (.lane (laneKey payload.priority)) now.unixMilli (Encoding.stringify payload)
  | .drainDelayed cutoff maxBatch now =>
    (redis.drainDelayedScript cutoff maxBatch now.unixMilli).2

/-- The members that the operation puts in lanes, each with its lane and with the time of the clock
in milliseconds plus its position in the batch. -/
def entering (redis : Redis M) : Operation → List (Option Lane × M × Int)
  | .enqueue job now => [(some (laneKey job.priority), Encoding.marshal job, now.unixMilli)]
  | .enqueueJob payload now =>
    [(some (laneKey payload.priority), Encoding.stringify payload, now.unixMilli)]
  | .drainDelayed cutoff maxBatch now =>
    (redis.promoted cutoff maxBatch).mapIdx fun position member =>
      (destination member, member, now.unixMilli + (position : Int))

/-- Redis after the operations. -/
def applyAll (redis : Redis M) (operations : List Operation) : Redis M :=
  operations.foldl apply redis

end Operation

/-! ## The programs -/

theorem enqueue_performs (job : Job) (stores : Stores) :
    (enqueue job).wp perform (fun _ env => env.fails = false)
      (fun _ last => ∃ now, last.redis = Operation.apply stores.redis (.enqueue job now)) stores := by
  intro clock ticks env fails
  simp only [perform, ticks, fails, performStore]
  exact ⟨_, rfl⟩

theorem enqueueJob_performs (payload : EnqueuePayload) (stores : Stores) :
    (Api.enqueueJob payload).wp perform (fun _ env => env.fails = false)
      (fun _ last => ∃ now, last.redis = Operation.apply stores.redis (.enqueueJob payload now))
      stores := by
  intro clock ticks env fails
  simp only [perform, ticks, fails, performStore]
  exact ⟨_, rfl⟩

/-! ## Distinct jobs -/

variable {M : Type} [DecidableEq M] [Ord M] [Encoding M]

/-- The jobs that wait and those that the operations enqueue have distinct ids. -/
structure DistinctIds (redis : Redis M) (operations : List Operation) : Prop extends
    redis.DistinctJobs where
  delayed : ∀ member ∈ (redis.zset .delayed).members, decodable member = true →
    ∃ id, jobId? member = some id
  fresh : ∀ operation ∈ operations, ∀ id ∈ operation.jobId?, ∀ key, key ≠ .dlq →
    ∀ member ∈ (redis.zset key).members, Encoding.idOf member ≠ some id
  enqueued : (operations.filterMap Operation.jobId?).Nodup

omit [Encoding M] in
/-- A member that is added to one lane. -/
theorem mem_zadd {redis : Redis M} {key place : ZKey} {score : Int} {data member : M} :
    member ∈ ((redis.zadd place score data).zset key).members ↔
      (key = place ∧ member = data) ∨ member ∈ (redis.zset key).members := by
  by_cases same : key = place
  · subst same
    simp only [Redis.zadd, Redis.setZset, Function.update_self, SortedSet.members, List.mem_map,
      SortedSet.mem_add]
    constructor
    · intro found
      obtain ⟨entry, new | old, rfl⟩ := found
      · exact .inl (by simp [new])
      · exact .inr ⟨entry, old.1, rfl⟩
    · intro found
      obtain ⟨-, new⟩ | ⟨entry, old, rfl⟩ := found
      · exact ⟨_, .inl rfl, new.symm⟩
      · by_cases own : entry.1 = data
        · exact ⟨_, .inl rfl, own.symm⟩
        · exact ⟨entry, .inr ⟨old, own⟩, rfl⟩
  · simp [Redis.zadd, Redis.setZset, same]

omit [Ord M] in
/-- What waits after a drain waited before: in its lane, or in the delayed set. -/
theorem Redis.Promotes.origin {before after : Redis M} {moved : List M} {score : Int}
    (promotes : Redis.Promotes before after moved score) {key : ZKey}
    (waits : key ≠ .dlq) {member : M} (present : member ∈ (after.zset key).members) :
    (member ∈ (before.zset key).members ∧ (key = .delayed → member ∉ moved)) ∨
      member ∈ moved ∧ ∃ lane, key = .lane lane ∧ destination member = some lane := by
  obtain ⟨entry, inside, rfl⟩ := List.mem_map.mp present
  cases key with
  | dlq => exact absurd rfl waits
  | delayed =>
    rw [promotes.delayed, List.mem_filter, decide_eq_true_eq] at inside
    exact .inl ⟨List.mem_map_of_mem inside.1, fun _ => inside.2⟩
  | lane lane =>
    obtain ⟨position, listed, routed, -⟩ | ⟨old, -⟩ := (promotes.lanes lane entry).mp inside
    · exact .inr ⟨List.mem_of_getElem? listed, lane, rfl, routed⟩
    · exact .inl ⟨List.mem_map_of_mem old, fun same => by cases same⟩

omit [DecidableEq M] [Ord M] in
theorem promoted_waits {redis : Redis M} {cutoff : Int} {maxBatch : Nat} {member : M}
    (listed : member ∈ redis.promoted cutoff maxBatch) :
    member ∈ (redis.zset .delayed).members ∧ decodable member = true :=
  ⟨SortedSet.rangeByScore_mem (List.mem_of_mem_filter listed), (List.mem_filter.mp listed).2⟩

omit [DecidableEq M] [Ord M] in
/-- What `cjson` finds in the record of a job: nothing, or the id of the job. -/
theorem read_ofRecord {member : M} {id : JobId} {priority : Priority} {payload : String}
    (decoded : Decoding.cjson member = .ofRecord id priority payload) :
    Redis.Malformed member ∨ jobId? member = some id := by
  rw [Decoded.ofRecord] at decoded
  split at decoded
  · exact .inr (jobId?_eq_some.mpr ⟨_, decoded⟩)
  · exact .inl (.inl decoded)

theorem DistinctIds.zadd {redis : Redis M} {operation : Operation} {operations : List Operation}
    (distinct : DistinctIds redis (operation :: operations)) {id : JobId} {data : M}
    (named : operation.jobId? = some id) (own : Encoding.idOf data = some id)
    (read : Redis.Malformed data ∨ jobId? data = some id) (lane : Lane) (score : Int) :
    DistinctIds (redis.zadd (.lane lane) score data) operations where
  named := by
    intro other member present
    obtain ⟨-, rfl⟩ | old := mem_zadd.mp present
    · exact ⟨id, own⟩
    · exact distinct.named other member old
  reads := by
    intro other member present
    obtain ⟨-, rfl⟩ | old := mem_zadd.mp present
    · exact read.imp_right fun found => ⟨id, found⟩
    · exact distinct.reads other member old
  once := by
    intro key other waits waitsToo member present twin presentToo same sameId sameTwin
    -- Nothing that waits has the id of the job that is enqueued.
    have apart := distinct.fresh operation List.mem_cons_self id named
    obtain ⟨place, rfl⟩ | old := mem_zadd.mp present
    · obtain ⟨placeToo, rfl⟩ | oldToo := mem_zadd.mp presentToo
      · exact ⟨place.trans placeToo.symm, rfl⟩
      · rw [own] at sameId
        cases sameId
        exact absurd sameTwin (apart other waitsToo twin oldToo)
    · obtain ⟨placeToo, rfl⟩ | oldToo := mem_zadd.mp presentToo
      · rw [own] at sameTwin
        cases sameTwin
        exact absurd sameId (apart key waits member old)
      · exact distinct.once key other waits waitsToo member old twin oldToo same sameId sameTwin
  delayed := by
    intro member present
    obtain ⟨place, -⟩ | old := mem_zadd.mp present
    · cases place
    · exact distinct.delayed member old
  fresh := by
    intro later listed other names key waits member present same
    have apart := distinct.enqueued
    rw [List.filterMap_cons_some named, List.nodup_cons] at apart
    obtain ⟨-, rfl⟩ | old := mem_zadd.mp present
    · rw [own] at same
      cases same
      exact apart.1 (List.mem_filterMap.mpr ⟨later, listed, names⟩)
    · exact distinct.fresh later (List.mem_cons_of_mem _ listed) other names key waits member old same
  enqueued := by
    have apart := distinct.enqueued
    rw [List.filterMap_cons_some named, List.nodup_cons] at apart
    exact apart.2

theorem DistinctIds.drain {redis : Redis M} {cutoff : Int} {maxBatch : Nat} {now : Time}
    {operations : List Operation}
    (distinct : DistinctIds redis (.drainDelayed cutoff maxBatch now :: operations)) :
    DistinctIds (redis.drainDelayedScript cutoff maxBatch now.unixMilli).2 operations := by
  obtain ⟨-, promotes⟩ := redis.drainDelayedScript_promotes cutoff maxBatch now.unixMilli
  have due : ∀ member ∈ redis.promoted cutoff maxBatch, member ∈ (redis.zset .delayed).members :=
    fun member listed => (promoted_waits listed).1
  have read : ∀ member ∈ redis.promoted cutoff maxBatch, ∃ id, jobId? member = some id :=
    fun member listed => distinct.delayed member (due member listed) (promoted_waits listed).2
  -- Each member waited at one place before, from which its place now follows.
  have delayedNe : (ZKey.delayed) ≠ .dlq := by simp
  constructor
  · constructor
    · intro lane member present
      obtain ⟨old, -⟩ | ⟨moved, -⟩ := promotes.origin (by simp) present
      · exact distinct.named lane member old
      · obtain ⟨id, named⟩ := read member moved
        exact ⟨id, idOf_of_jobId? named⟩
    · intro lane member present
      obtain ⟨old, -⟩ | ⟨moved, -⟩ := promotes.origin (by simp) present
      · exact distinct.reads lane member old
      · exact .inr (read member moved)
    · intro key other waits waitsToo member present twin presentToo same sameId sameTwin
      -- A member that was moved is no longer in the delayed set, so that it waits once.
      obtain ⟨old, stays⟩ | ⟨moved, lane, place, routed⟩ := promotes.origin waits present
      · obtain ⟨oldToo, -⟩ | ⟨movedToo, -⟩ := promotes.origin waitsToo presentToo
        · exact distinct.once key other waits waitsToo member old twin oldToo same sameId sameTwin
        · obtain ⟨place, equal⟩ := distinct.once key .delayed waits delayedNe member old twin
            (due twin movedToo) same sameId sameTwin
          subst equal
          exact absurd movedToo (stays place)
      · obtain ⟨oldToo, stays⟩ | ⟨movedToo, laneToo, placeToo, routedToo⟩ :=
          promotes.origin waitsToo presentToo
        · obtain ⟨place, equal⟩ := distinct.once .delayed other delayedNe waitsToo member
            (due member moved) twin oldToo same sameId sameTwin
          subst equal
          exact absurd moved (stays place.symm)
        · obtain ⟨-, equal⟩ := distinct.once .delayed .delayed delayedNe delayedNe member
            (due member moved) twin (due twin movedToo) same sameId sameTwin
          subst equal
          rw [routed] at routedToo
          cases routedToo
          exact ⟨place.trans placeToo.symm, rfl⟩
  · intro member present
    obtain ⟨old, -⟩ | ⟨-, lane, place, -⟩ := promotes.origin delayedNe present
    · exact distinct.delayed member old
    · cases place
  · intro later listed id names key waits member present
    have apart := distinct.fresh later (List.mem_cons_of_mem _ listed) id names
    obtain ⟨old, -⟩ | ⟨moved, -⟩ := promotes.origin waits present
    · exact apart key waits member old
    · exact apart .delayed delayedNe member (due member moved)
  · exact distinct.enqueued

/-- Every operation keeps the ids distinct. -/
theorem DistinctIds.apply {redis : Redis M} {operation : Operation} {operations : List Operation}
    (distinct : DistinctIds redis (operation :: operations)) :
    DistinctIds (operation.apply redis) operations := by
  cases operation with
  | enqueue job now =>
    exact distinct.zadd rfl (Encoding.marshal_id job) (read_ofRecord (Encoding.marshal_cjson job)) _ _
  | enqueueJob payload now =>
    exact distinct.zadd rfl (Encoding.stringify_id payload)
      (read_ofRecord (Encoding.stringify_cjson payload)) _ _
  | drainDelayed cutoff maxBatch now => exact distinct.drain

theorem DistinctIds.applyAll {redis : Redis M} {first second : List Operation}
    (distinct : DistinctIds redis (first ++ second)) :
    DistinctIds (Operation.applyAll redis first) second := by
  induction first generalizing redis with
  | nil => exact distinct
  | cons operation operations inductionHypothesis => exact inductionHypothesis distinct.apply

/-! ## Entering and staying -/

section Entering

variable {redis : Redis M} {operation : Operation} {operations : List Operation}
variable {entry : M × Int} {lane : Lane}

/-- What an operation brings to a lane stands there with the score of its operation. -/
theorem entered (enters : (some lane, entry) ∈ operation.entering redis) :
    entry ∈ (operation.apply redis).entries lane := by
  cases operation with
  | enqueue job now =>
    cases List.mem_singleton.mp enters
    simp [Operation.apply, Redis.entries, Redis.zadd, Redis.setZset]
  | enqueueJob payload now =>
    cases List.mem_singleton.mp enters
    simp [Operation.apply, Redis.entries, Redis.zadd, Redis.setZset]
  | drainDelayed cutoff maxBatch now =>
    obtain ⟨-, promotes⟩ := redis.drainDelayedScript_promotes cutoff maxBatch now.unixMilli
    obtain ⟨position, inside, own⟩ := List.mem_mapIdx.mp enters
    obtain ⟨routed, rfl⟩ := Prod.mk.inj own
    exact (promotes.lanes lane _).mpr
      (.inl ⟨position, List.getElem?_eq_getElem inside, routed, rfl⟩)

/-- A job that waits in a lane keeps its entry. -/
theorem entry_stays (distinct : DistinctIds redis (operation :: operations))
    (present : entry ∈ redis.entries lane) : entry ∈ (operation.apply redis).entries lane := by
  have waits : entry.1 ∈ (redis.zset (.lane lane)).members := List.mem_map_of_mem present
  have added {data : M} {id : JobId} (names : operation.jobId? = some id)
      (own : Encoding.idOf data = some id) (place : Lane) (score : Int) :
      entry ∈ (redis.zadd (.lane place) score data).entries lane := by
    have apart := distinct.fresh operation List.mem_cons_self id names (.lane lane) (by simp) _ waits
    rw [Redis.entries, Redis.zadd, Redis.zset_setZset]
    split
    · next same =>
      subst same
      rw [SortedSet.mem_add]
      refine .inr ⟨present, ?_⟩
      intro equal
      rw [equal] at apart
      exact apart own
    · exact present
  cases operation with
  | enqueue job now => exact added rfl (Encoding.marshal_id job) _ _
  | enqueueJob payload now => exact added rfl (Encoding.stringify_id payload) _ _
  | drainDelayed cutoff maxBatch now =>
    obtain ⟨-, promotes⟩ := redis.drainDelayedScript_promotes cutoff maxBatch now.unixMilli
    refine (promotes.lanes lane entry).mpr (.inr ⟨present, ?_⟩)
    -- A member that was moved waited in the delayed set, and this one waits in its lane.
    intro both
    obtain ⟨id, named⟩ := distinct.named lane _ waits
    obtain ⟨place, -⟩ := distinct.once (.lane lane) .delayed (by simp) (by simp) _ waits _
      (promoted_waits both.1).1 id named named
    cases place

theorem entry_stays_all {first second : List Operation}
    (distinct : DistinctIds redis (first ++ second)) (present : entry ∈ redis.entries lane) :
    entry ∈ (Operation.applyAll redis first).entries lane := by
  induction first generalizing redis with
  | nil => exact present
  | cons operation operations inductionHypothesis =>
    exact inductionHypothesis distinct.apply (entry_stays distinct present)

omit [DecidableEq M] [Ord M] in
/-- What an operation brings was in no lane. -/
theorem entering_apart (distinct : DistinctIds redis (operation :: operations)) {place : Option Lane}
    (enters : (place, entry) ∈ operation.entering redis) {other : M × Int}
    (present : other ∈ redis.entries lane) : other.1 ≠ entry.1 := by
  intro same
  have waits : entry.1 ∈ (redis.zset (.lane lane)).members := same ▸ List.mem_map_of_mem present
  cases operation with
  | enqueue job now =>
    cases List.mem_singleton.mp enters
    exact distinct.fresh _ List.mem_cons_self _ rfl (.lane lane) (by simp) _ waits
      (Encoding.marshal_id job)
  | enqueueJob payload now =>
    cases List.mem_singleton.mp enters
    exact distinct.fresh _ List.mem_cons_self _ rfl (.lane lane) (by simp) _ waits
      (Encoding.stringify_id payload)
  | drainDelayed cutoff maxBatch now =>
    obtain ⟨position, inside, own⟩ := List.mem_mapIdx.mp enters
    obtain ⟨-, rfl⟩ := Prod.mk.inj own
    obtain ⟨id, named⟩ := distinct.named lane _ waits
    obtain ⟨place, -⟩ := distinct.once (.lane lane) .delayed (by simp) (by simp) _ waits _
      (promoted_waits (List.getElem_mem inside)).1 id named named
    cases place

end Entering

section Lawful

variable [Std.TransOrd M] [Std.LawfulEqOrd M]

theorem Redis.Ordered.apply {redis : Redis M} (ordered : redis.Ordered) (operation : Operation) :
    (operation.apply redis).Ordered := by
  cases operation with
  | enqueue job now => exact ordered.zadd _ _ _
  | enqueueJob payload now => exact ordered.zadd _ _ _
  | drainDelayed cutoff maxBatch now => exact ordered.drainDelayedScript _ _ _

theorem Redis.Ordered.applyAll {redis : Redis M} (ordered : redis.Ordered)
    (operations : List Operation) : (Operation.applyAll redis operations).Ordered := by
  induction operations generalizing redis with
  | nil => exact ordered
  | cons operation operations inductionHypothesis => exact inductionHypothesis (ordered.apply operation)

/-- Two jobs enter a lane by operations one after the other.  The first is claimed first exactly when
`cjson` does not read the record of the second, which is then never claimed, or reads that of the first
and its clock, with its position in the batch added, shows less, or the same and its member sorts
first. -/
theorem claimed_in_order_iff {redis : Redis M} (ordered : redis.Ordered)
    {earlier between later : List Operation} {first second : Operation}
    (distinct : DistinctIds redis (earlier ++ first :: (between ++ second :: later)))
    {ahead behind : M × Int} {lane : Lane}
    (enters : (some lane, ahead) ∈ first.entering (Operation.applyAll redis earlier))
    (follows : (some lane, behind) ∈
      second.entering (Operation.applyAll redis (earlier ++ first :: between))) :
    (Operation.applyAll redis (earlier ++ first :: (between ++ second :: later))).ClaimedFirst
      ahead.1 behind.1 ↔
    jobId? behind.1 = none ∨ (jobId? ahead.1 ≠ none ∧
      (ahead.2 < behind.2 ∨ (ahead.2 = behind.2 ∧ compare ahead.1 behind.1 = .lt))) := by
  have append (left right : List Operation) : Operation.applyAll redis (left ++ right) =
      Operation.applyAll (Operation.applyAll redis left) right := List.foldl_append
  have atFirst := distinct.applyAll
  have afterFirst := atFirst.apply
  have atSecond := afterFirst.applyAll
  have beforeSecond : Operation.applyAll redis (earlier ++ first :: between) =
      Operation.applyAll (first.apply (Operation.applyAll redis earlier)) between := append ..
  have whole : Operation.applyAll redis (earlier ++ first :: (between ++ second :: later)) =
      Operation.applyAll (second.apply (Operation.applyAll (first.apply
        (Operation.applyAll redis earlier)) between)) later := by
    rw [append]
    exact List.foldl_append
  rw [beforeSecond] at follows
  -- The first job is still in the lane when the second enters.
  have waits := entry_stays_all afterFirst (entered enters)
  have apart := entering_apart atSecond follows waits
  -- No operation after the second touches either of them.
  have rest := atSecond.apply
  rw [← List.append_nil later] at rest
  have aheadStays := entry_stays_all rest (entry_stays atSecond waits)
  have behindStays := entry_stays_all rest (entered follows)
  have sorted := ordered.applyAll (earlier ++ first :: (between ++ second :: later)) (.lane lane)
  rw [whole] at sorted ⊢
  rw [Redis.claimedFirst_iff rest.applyAll.toDistinctJobs sorted aheadStays behindStays apart,
    SortedSet.precedes_iff]

end Lawful

/-- A job named `id`, as `Job.plain`. -/
def Job.named (id : JobId) : Job := { Job.plain with id }

theorem empty_distinct {operations : List Operation}
    (enqueued : (operations.filterMap Operation.jobId?).Nodup) :
    DistinctIds (Redis.empty : Redis Member) operations where
  named := fun _ _ present => absurd present List.not_mem_nil
  reads := fun _ _ present => absurd present List.not_mem_nil
  once := fun _ _ _ _ _ present => absurd present List.not_mem_nil
  delayed := fun _ present => absurd present List.not_mem_nil
  fresh := fun _ _ _ _ _ _ _ present => absurd present List.not_mem_nil
  enqueued := enqueued

/-- Two jobs that are enqueued a millisecond apart. -/
theorem claimed_in_order_enqueued :
    (Operation.applyAll (Redis.empty : Redis Member)
      [.enqueue (Job.named "b") 0, .enqueue (Job.named "a") 1000000]).ClaimedFirst
        (Job.named "b").marshal (Job.named "a").marshal :=
  (@claimed_in_order_iff Member _ _ _ _ _ Redis.empty Redis.empty_ordered [] [] []
    (.enqueue (Job.named "b") 0) (.enqueue (Job.named "a") 1000000) (empty_distinct (by decide))
    ((Job.named "b").marshal, 0) ((Job.named "a").marshal, 1) .high (by decide) (by decide)).mpr
    (by decide)

/-- Two jobs that are due. -/
def twoDue : Redis Member :=
  (Redis.empty.zadd .delayed 0 (Job.named "a").marshal).zadd .delayed 0 (Job.named "b").marshal

/-- They are promoted, and a third job is enqueued in the same millisecond. -/
def promoteThenEnqueue : List Operation :=
  [.drainDelayed 0 100 0, .enqueue (Job.named "c") 0]

theorem twoDue_distinct : DistinctIds twoDue promoteThenEnqueue := by
  have waits (key : ZKey) (member : Member) (present : member ∈ (twoDue.zset key).members) :
      key = .delayed ∧ (member = (Job.named "a").marshal ∨ member = (Job.named "b").marshal) := by
    cases key with
    | delayed =>
      have both : (twoDue.zset .delayed).members =
        [(Job.named "a").marshal, (Job.named "b").marshal] := by decide
      rw [both] at present
      exact ⟨rfl, by simpa using present⟩
    | _ => exact absurd present List.not_mem_nil
  constructor
  · constructor
    · intro lane member present
      cases (waits _ member present).1
    · intro lane member present
      cases (waits _ member present).1
    · intro key other _ _ member present twin presentToo id named same
      obtain ⟨place, rfl | rfl⟩ := waits key member present <;>
        obtain ⟨placeToo, rfl | rfl⟩ := waits other twin presentToo
      · exact ⟨place.trans placeToo.symm, rfl⟩
      · exact absurd (named.trans same.symm) (by decide)
      · exact absurd (named.trans same.symm) (by decide)
      · exact ⟨place.trans placeToo.symm, rfl⟩
  · intro member present _
    obtain ⟨-, rfl | rfl⟩ := waits .delayed member present
    · exact ⟨"a", rfl⟩
    · exact ⟨"b", rfl⟩
  · intro operation listed id names key _ member present
    simp only [promoteThenEnqueue, List.mem_cons, List.not_mem_nil, or_false] at listed
    obtain rfl | rfl := listed
    · cases names
    · cases names
      obtain ⟨-, rfl | rfl⟩ := waits key member present <;> decide
  · decide

/-- The second job of the batch has a score ahead of the clock, so the job that is enqueued after it
is claimed before it. -/
theorem enqueued_overtakes_promoted :
    DistinctIds twoDue promoteThenEnqueue ∧
    (promoteThenEnqueue.map Operation.now).Pairwise (· ≤ ·) ∧
    (some .high, (Job.named "b").marshal, 1) ∈ (Operation.drainDelayed 0 100 0).entering twoDue ∧
    ¬ (Operation.applyAll twoDue promoteThenEnqueue).ClaimedFirst
      (Job.named "b").marshal (Job.named "c").marshal := by
  refine ⟨twoDue_distinct, by decide, by decide, ?_⟩
  intro claimedFirst
  have claimed := claimedFirst (fun _ => false) (fun _ _ => rfl) (fun _ _ => rfl) 2
    (by decide +kernel)
  exact absurd claimed (by decide +kernel)

end Taskfire
