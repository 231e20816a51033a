import Taskfire.Drain.Lanes

/-!
# The order in which jobs are claimed

Where the waiting jobs have distinct ids, a job whose record `cjson` reads leaves its lane only by being
claimed.  So of two such jobs in one lane the first in the order of the set is claimed first, and
without locks each of them is claimed in the end.
-/

namespace Taskfire

open Taskfire.Library

variable {M : Type} [Encoding M]

/-- The id the scripts find in a member, if it is one that concatenates with the prefix of the
locks. -/
def jobId? (member : M) : Option JobId :=
  match Decoding.cjson member with
  | .table (.text id) _ => some id
  | _ => none

theorem jobId?_eq_some {member : M} {id : JobId} : jobId? member = some id ↔
    ∃ priority, Decoding.cjson member = .table (.text id) priority := by
  unfold jobId?
  split
  · next decoded => simp [decoded]
  · next other =>
    constructor
    · intro none
      cases none
    · intro found
      obtain ⟨priority, decoded⟩ := found
      exact absurd decoded (other id priority)

theorem idOf_of_jobId? {member : M} {id : JobId} (named : jobId? member = some id) :
    Encoding.idOf member = some id := by
  obtain ⟨priority, decoded⟩ := jobId?_eq_some.mp named
  exact Encoding.cjson_id _ _ _ decoded

theorem not_malformed_of_id {member : M} {id : JobId} (named : jobId? member = some id) :
    ¬ Redis.Malformed member := by
  obtain ⟨priority, decoded⟩ := jobId?_eq_some.mp named
  intro malformed
  obtain none | ⟨_, absent⟩ := malformed
  · rw [decoded] at none
    cases none
  · rw [decoded] at absent
    cases absent

namespace Redis

variable [DecidableEq M] [Ord M]

/-- Every waiting member of a lane is the record of a job, which `cjson` reads or finds malformed, and
no job has two records that wait. -/
structure DistinctJobs (redis : Redis M) : Prop where
  named : ∀ lane, ∀ member ∈ (redis.zset (.lane lane)).members,
    ∃ id, Encoding.idOf member = some id
  reads : ∀ lane, ∀ member ∈ (redis.zset (.lane lane)).members,
    Malformed member ∨ ∃ id, jobId? member = some id
  once : ∀ key other, key ≠ .dlq → other ≠ .dlq → ∀ member ∈ (redis.zset key).members,
    ∀ twin ∈ (redis.zset other).members, ∀ id, Encoding.idOf member = some id →
      Encoding.idOf twin = some id → key = other ∧ member = twin

/-! ## One call -/

/-- The member that the next call of `Dequeue` claims. -/
def claims? (redis : Redis M) : Option M :=
  match redis.claimScript.1 with
  | .ok claimed => claimed
  | .error _ => none

/-- An entry with an id leaves its lane only by being claimed. -/
theorem claimed_of_left {redis : Redis M} {lane : Lane} {entry : M × Int} {id : JobId}
    (named : jobId? entry.1 = some id) (present : entry ∈ redis.entries lane)
    (left : entry ∉ redis.dequeue.2.entries lane) : redis.claims? = some entry.1 := by
  rw [dequeue_state] at left
  obtain ⟨dropped, after, -, script, passed⟩ | ⟨taken, middle, dropped, data, score, rest, result,
    after, stops, popped, script, takes⟩ := redis.claimScript_ends
  · rw [script] at left
    obtain stays | discarded := passed.kept lane entry present
    · exact absurd stays left
    · exact absurd (passed.malformed _ discarded) (not_malformed_of_id named)
  -- The entry was popped: it was not dropped as malformed, because it has an id.
  · have place : after.entries lane = (middle.setZset (.lane taken) rest).entries lane := by
      cases takes <;> rfl
    rw [script, place] at left
    obtain stays | discarded | ⟨-, own⟩ := kept_of_popped stops popped lane entry present
    · exact absurd stays left
    · exact absurd (stops.passed.malformed _ discarded) (not_malformed_of_id named)
    · subst own
      rw [claims?, script]
      cases takes with
      | claims => rfl
      | stops other =>
        obtain ⟨priority, decoded⟩ := jobId?_eq_some.mp named
        rw [decoded] at other
        cases other

/-- What is claimed has an id; it was in a lane and is no longer there. -/
theorem claims_gone {redis : Redis M} {data : M} (claimed : redis.claims? = some data) :
    (∃ id, jobId? data = some id) ∧ ∃ lane score, (data, score) ∈ redis.entries lane ∧
      ∀ other, (data, other) ∉ redis.dequeue.2.entries lane := by
  rw [dequeue_state]
  rw [claims?] at claimed
  obtain ⟨dropped, after, -, script, -⟩ | ⟨lane, middle, dropped, head, score, rest, result, after,
    stops, popped, script, takes⟩ := redis.claimScript_ends
  · rw [script] at claimed
    cases claimed
  · rw [script] at claimed ⊢
    cases takes with
    | stops => cases claimed
    | claims decoded =>
      cases claimed
      refine ⟨⟨_, jobId?_eq_some.mpr ⟨_, decoded⟩⟩, lane, score, ?_,
        fun other => popped_gone popped other⟩
      rw [entries, SortedSet.popMin_entries popped]
      exact List.mem_cons_self

/-! ## Calls in a row -/

/-- The member is claimed by one of the next calls. -/
def ClaimedWithin (redis : Redis M) (calls : Nat) (member : M) : Prop :=
  ∃ earlier < calls, (redis.dequeues earlier).claims? = some member

instance (redis : Redis M) (calls : Nat) (member : M) :
    Decidable (redis.ClaimedWithin calls member) :=
  inferInstanceAs (Decidable (∃ earlier < calls, _))

/-- What is claimed has an id. -/
theorem ClaimedWithin.named {redis : Redis M} {calls : Nat} {member : M}
    (claimed : redis.ClaimedWithin calls member) :
    ∃ id, jobId? member = some id := by
  obtain ⟨_, _, claims⟩ := claimed
  exact (claims_gone claims).1

/-- An entry with an id that has left its lane was claimed on the way. -/
theorem claimedWithin_of_left {redis : Redis M} {lane : Lane} {entry : M × Int} {id : JobId}
    (named : jobId? entry.1 = some id) (present : entry ∈ redis.entries lane) {calls : Nat}
    (left : entry ∉ (redis.dequeues calls).entries lane) : redis.ClaimedWithin calls entry.1 := by
  induction calls with
  | zero => exact absurd present left
  | succ calls inductionHypothesis =>
    by_cases still : entry ∈ (redis.dequeues calls).entries lane
    · exact ⟨calls, Nat.lt_succ_self calls, claimed_of_left named still left⟩
    · obtain ⟨earlier, less, claimed⟩ := inductionHypothesis still
      exact ⟨earlier, Nat.lt_succ_of_lt less, claimed⟩

/-- Whatever is locked, `first` is claimed by the time `second` is, as long as neither is locked. -/
def ClaimedFirst (redis : Redis M) (first second : M) : Prop :=
  ∀ lock : JobId → Bool, (∀ id ∈ jobId? first, lock id = false) →
    (∀ id ∈ jobId? second, lock id = false) → ∀ calls,
      { redis with lock }.ClaimedWithin calls second → { redis with lock }.ClaimedWithin calls first

section Lawful

variable [Std.TransOrd M] [Std.LawfulEqOrd M] {redis : Redis M} {lane : Lane}

/-- Of two jobs in one lane the one that stands first is claimed first. -/
theorem claimedWithin_in_order (jobs : redis.DistinctJobs)
    (sorted : (redis.zset (.lane lane)).Sorted) {first second : M × Int} {id : JobId}
    (named : jobId? first.1 = some id) (ahead : first ∈ redis.entries lane) (behind : second ∈ redis.entries lane)
    (before : SortedSet.precedes first second = true) {calls : Nat}
    (claimed : redis.ClaimedWithin calls second.1) : redis.ClaimedWithin calls first.1 := by
  obtain ⟨earlier, less, claims⟩ := claimed
  obtain ⟨⟨twin, read⟩, other, score, present, gone⟩ := claims_gone claims
  have sameId := idOf_of_jobId? read
  -- The claimed entry is the one that was there from the start.
  have origin := dequeues_subset redis other present
  obtain ⟨place, -⟩ := jobs.once (.lane other) (.lane lane) (by simp) (by simp) _
    (List.mem_map_of_mem origin) _ (List.mem_map_of_mem behind) twin sameId sameId
  cases place
  -- While `first` is in the lane a pop takes it, or an entry before it.
  have left : first ∉ (redis.dequeues earlier).entries lane := by
    intro still
    have waits := dequeues_in_order sorted behind before still
    have stays := (dequeue_shrinks _ lane).behind (dequeues_sorted sorted earlier) still waits before
    exact gone second.2 stays
  obtain ⟨sooner, evenLess, claimedFirst⟩ := claimedWithin_of_left named ahead left
  exact ⟨sooner, Nat.lt_trans evenLess less, claimedFirst⟩

end Lawful

/-! ## Without locks -/

/-- No job that waits in a lane is locked. -/
def Unlocked (redis : Redis M) : Prop :=
  ∀ lane, ∀ member ∈ (redis.zset (.lane lane)).members, ∀ id ∈ jobId? member, redis.lock id = false

/-- How many members the lanes hold. -/
def depth (redis : Redis M) : Nat :=
  (redis.entries .high).length + (redis.entries .medium).length + (redis.entries .low).length

omit [Encoding M] [DecidableEq M] [Ord M] in
theorem depth_pos {redis : Redis M} {lane : Lane} {entry : M × Int}
    (present : entry ∈ redis.entries lane) : 0 < redis.depth := by
  have nonempty := List.length_pos_of_mem present
  cases lane <;> simp only [depth] <;> omega

theorem depth_dequeue_le (redis : Redis M) : redis.dequeue.2.depth ≤ redis.depth := by
  have high := (redis.dequeue_shrinks .high).length_le
  have medium := (redis.dequeue_shrinks .medium).length_le
  have low := (redis.dequeue_shrinks .low).length_le
  simp only [depth, entries]
  omega

/-- A lane that is passed and has no locked head is empty or loses its head. -/
theorem tryClaim_discards {redis : Redis M} {lane : Lane} (passes : redis.Passes lane)
    (free : ∀ entry ∈ (redis.entries lane).head?, ¬ redis.Locked entry.1) :
    redis.entries lane = [] ∨
      ((redis.tryClaim lane).2.entries lane).length < (redis.entries lane).length := by
  cases popped : (redis.zset (.lane lane)).popMin with
  | none => exact .inl (SortedSet.popMin_none popped)
  | some found =>
    obtain ⟨data, score, rest⟩ := found
    have head := head_of_popped popped
    have malformed := (passes _ head).resolve_right (free _ head)
    have whole := SortedSet.popMin_entries popped
    refine .inr ?_
    rw [tryClaim_malformed popped malformed]
    simp [entries, setZset, whole]

/-- The script shortens every lane that is not empty, where it passes them all and no head is
locked. -/
theorem tryClaims_discards {lanes : List Lane} (distinct : lanes.Nodup) (redis : Redis M)
    (passes : ∀ lane ∈ lanes, redis.Passes lane)
    (free : ∀ lane ∈ lanes, ∀ entry ∈ (redis.entries lane).head?, ¬ redis.Locked entry.1) :
    ∀ lane ∈ lanes, redis.entries lane = [] ∨
      ((tryClaims lanes redis).2.entries lane).length < (redis.entries lane).length := by
  induction lanes generalizing redis with
  | nil => exact fun _ listed => absurd listed List.not_mem_nil
  | cons first lanes inductionHypothesis =>
    obtain ⟨fresh, rest⟩ := List.nodup_cons.mp distinct
    obtain ⟨none, dropped, passed⟩ := tryClaim_passes (passes first List.mem_cons_self)
    have continues : tryClaims (first :: lanes) redis = tryClaims lanes (redis.tryClaim first).2 := by
      have whole : redis.tryClaim first = (.ok .none, (redis.tryClaim first).2) := Prod.ext none rfl
      rw [tryClaims, whole]
    rw [continues]
    intro lane listed
    obtain own | later := List.mem_cons.mp listed
    · subst own
      -- The tries of the other lanes leave this one alone.
      have untouched := (tryClaims_shrinks rest (redis.tryClaim lane).2).2 (.lane lane) (by
        intro other inside same
        cases same
        exact fresh inside)
      have discards := tryClaim_discards (passes lane listed) (free lane listed)
      rw [entries] at discards
      rwa [entries, entries, untouched]
    · have other (lane : Lane) (inside : lane ∈ lanes) :
          (redis.tryClaim first).2.zset (.lane lane) = redis.zset (.lane lane) := by
        refine passed.others lane fun same => ?_
        rw [List.mem_singleton] at same
        subst same
        exact fresh inside
      have shorter := inductionHypothesis rest (redis.tryClaim first).2
        (fun lane inside => (passed.passes fun same => by
          rw [List.mem_singleton] at same
          subst same
          exact fresh inside).mpr (passes lane (List.mem_cons_of_mem _ inside)))
        (by
          intro lane inside entry head locked
          rw [entries, other lane inside] at head
          rw [Locked, passed.lock] at locked
          exact free lane (List.mem_cons_of_mem _ inside) entry head locked) lane later
      rwa [entries, entries, other lane later] at shorter

/-- A call that takes the head of a lane makes the lanes shorter. -/
theorem depth_dequeue_lt {redis : Redis M} {lane : Lane}
    (taken : (redis.dequeue.2.entries lane).length < (redis.entries lane).length) :
    redis.dequeue.2.depth < redis.depth := by
  have high := (redis.dequeue_shrinks .high).length_le
  have medium := (redis.dequeue_shrinks .medium).length_le
  have low := (redis.dequeue_shrinks .low).length_le
  simp only [entries] at taken
  simp only [depth, entries]
  cases lane <;> omega

theorem dequeue_subset {redis : Redis M} {key : ZKey} {member : M}
    (present : member ∈ (redis.dequeue.2.zset key).members) :
    member ∈ (redis.zset key).members := by
  cases key with
  | lane lane =>
    obtain ⟨entry, inside, rfl⟩ := List.mem_map.mp present
    exact List.mem_map_of_mem ((redis.dequeue_shrinks lane).subset inside)
  | _ =>
    rw [dequeue_state, claimScript_others redis (by simp)] at present
    exact present

theorem DistinctJobs.dequeue {redis : Redis M} (jobs : redis.DistinctJobs) :
    redis.dequeue.2.DistinctJobs where
  named := fun lane member present => jobs.named lane member (dequeue_subset present)
  reads := fun lane member present => jobs.reads lane member (dequeue_subset present)
  once := fun key other waits waitsToo member present twin presentToo =>
    jobs.once key other waits waitsToo member (dequeue_subset present) twin
      (dequeue_subset presentToo)

/-- Without locks every call claims a job or discards a malformed one, until the lanes are empty. -/
theorem Unlocked.dequeue {redis : Redis M} (unlocked : redis.Unlocked)
    (jobs : redis.DistinctJobs) :
    redis.dequeue.2.Unlocked ∧ (redis.dequeue.2.depth < redis.depth ∨ redis.depth = 0) := by
  obtain ⟨dropped, after, passes, script, passed⟩ | ⟨lane, middle, dropped, data, score, rest,
    result, after, stops, popped, script, takes⟩ := redis.claimScript_ends
  · have state : redis.dequeue.2 = after := by rw [dequeue_state, script]
    constructor
    · intro lane member present id named
      rw [state, passed.lock]
      exact unlocked lane member (dequeue_subset (state ▸ present)) id named
    · have free (lane : Lane) (entry : M × Int) (head : entry ∈ (redis.entries lane).head?) :
          ¬ redis.Locked entry.1 := by
        intro locked
        obtain ⟨id, priority, decoded, held⟩ := locked
        have inside : entry.1 ∈ (redis.zset (.lane lane)).members :=
          List.mem_map_of_mem (List.mem_of_mem_head? head)
        rw [unlocked lane _ inside id (jobId?_eq_some.mpr ⟨priority, decoded⟩)] at held
        cases held
      have shorter (lane : Lane) : redis.entries lane = [] ∨
          (redis.dequeue.2.entries lane).length < (redis.entries lane).length := by
        rw [dequeue_state]
        apply tryClaims_discards (by simp) redis (fun lane _ => passes lane) fun lane _ => free lane
        cases lane <;> simp
      by_cases empty : ∀ lane, redis.entries lane = []
      · exact .inr (by simp [depth, empty])
      · obtain ⟨lane, nonempty⟩ := not_forall.mp empty
        exact .inl (depth_dequeue_lt ((shorter lane).resolve_left nonempty))
  · have state : redis.dequeue.2 = after := by rw [dequeue_state, script]
    have head : (data, score) ∈ redis.entries lane := by
      rw [entries, SortedSet.popMin_entries popped]
      exact List.mem_cons_self
    cases takes with
    | stops other =>
      obtain (none | ⟨_, absent⟩) | ⟨id, named⟩ := jobs.reads lane _ (List.mem_map_of_mem head)
      · rw [other] at none
        cases none
      · rw [other] at absent
        cases absent
      · obtain ⟨priority, decoded⟩ := jobId?_eq_some.mp named
        rw [decoded] at other
        cases other
    | @claims id priority decoded free =>
      have named : jobId? data = some id := jobId?_eq_some.mpr ⟨priority, decoded⟩
      have place : redis.dequeue.2.entries lane = rest.entries := by
        rw [state]
        simp [entries, setZset]
      constructor
      · intro other member present twin sameId
        have waits : member ∈ (redis.zset (.lane other)).members := dequeue_subset present
        -- The lock that the claim takes is on an id that waits nowhere any more.
        have different : twin ≠ id := by
          intro same
          subst same
          obtain ⟨own, equal⟩ := jobs.once (.lane other) (.lane lane) (by simp) (by simp) _ waits _
            (List.mem_map_of_mem head) twin (idOf_of_jobId? sameId) (idOf_of_jobId? named)
          cases own
          subst equal
          have later : member ∈ rest.members := by
            rw [SortedSet.members, ← place]
            exact present
          exact (SortedSet.popMin_mem popped).2 later
        have lock : redis.dequeue.2.lock twin = redis.lock twin := by
          rw [state]
          simp only [Function.update_of_ne different, stops.passed.lock]
        rw [lock]
        exact unlocked other member waits twin sameId
      · refine .inl (@depth_dequeue_lt _ _ _ _ redis lane ?_)
        rw [place, entries, SortedSet.popMin_entries popped]
        exact Nat.lt_succ_self _

/-- Without locks every job with a record that `cjson` reads is claimed in the end. -/
theorem Unlocked.claims_all {redis : Redis M} (unlocked : redis.Unlocked)
    (jobs : redis.DistinctJobs) {lane : Lane} {entry : M × Int} {id : JobId}
    (named : jobId? entry.1 = some id) (present : entry ∈ redis.entries lane) :
    ∃ calls, redis.ClaimedWithin calls entry.1 := by
  -- After as many calls as there are members nothing is left.
  have drained : ∀ calls, (redis.dequeues calls).Unlocked ∧ (redis.dequeues calls).DistinctJobs ∧
      (redis.dequeues calls).depth ≤ redis.depth - calls := by
    intro calls
    induction calls with
    | zero => exact ⟨unlocked, jobs, Nat.le_refl _⟩
    | succ calls inductionHypothesis =>
      obtain ⟨free, distinct, bound⟩ := inductionHypothesis
      obtain ⟨still, shorter⟩ := free.dequeue distinct
      have never := (redis.dequeues calls).depth_dequeue_le
      refine ⟨still, distinct.dequeue, ?_⟩
      simp only [dequeues]
      omega
  obtain ⟨-, -, bound⟩ := drained redis.depth
  refine ⟨redis.depth, claimedWithin_of_left named present ?_⟩
  intro still
  have positive := depth_pos still
  omega

section Lawful

variable [Std.TransOrd M] [Std.LawfulEqOrd M] {redis : Redis M} {lane : Lane}

/-- Of two jobs that `cjson` reads the one that stands behind is not claimed first. -/
theorem not_claimedFirst (jobs : redis.DistinctJobs) (sorted : (redis.zset (.lane lane)).Sorted)
    {first second : M × Int} {id : JobId} (named : jobId? second.1 = some id)
    (ahead : first ∈ redis.entries lane) (behind : second ∈ redis.entries lane)
    (different : first.1 ≠ second.1) (after : SortedSet.precedes second first = true) :
    ¬ redis.ClaimedFirst first.1 second.1 := by
  intro claimedFirst
  have same : { redis with lock := fun _ => false }.DistinctJobs :=
    ⟨jobs.named, jobs.reads, jobs.once⟩
  -- With all locks free `second` is claimed, but `first` never sooner.
  have free : { redis with lock := fun _ => false }.Unlocked := fun _ _ _ _ _ => rfl
  have within := claimedFirst (fun _ => false) (fun _ _ => rfl) (fun _ _ => rfl)
  have within' {calls : Nat} :=
    @claimedWithin_in_order _ _ _ _ _ _ _ _ same sorted _ _ _ named behind ahead after calls
  obtain ⟨bound, claimed⟩ := free.claims_all same named behind
  have never : ∀ calls, ¬ { redis with lock := fun _ => false }.ClaimedWithin calls second.1 := by
    intro calls
    induction calls with
    | zero =>
      intro claimed
      obtain ⟨earlier, less, -⟩ := claimed
      exact absurd less (Nat.not_lt_zero _)
    | succ calls inductionHypothesis =>
      intro claimed
      have both := within (calls + 1) claimed
      obtain ⟨i, lessI, claimsSecond⟩ := claimed
      obtain ⟨j, lessJ, claimsFirst⟩ := both
      -- The last of these calls claims one of the two, so that one was claimed by the others.
      by_cases last : i = calls
      · have sooner : j < calls := by
          apply Nat.lt_of_le_of_ne (Nat.lt_succ_iff.mp lessJ)
          intro lastToo
          rw [lastToo, ← last, claimsSecond] at claimsFirst
          exact different (Option.some.inj claimsFirst).symm
        exact inductionHypothesis (within' ⟨j, sooner, claimsFirst⟩)
      · exact inductionHypothesis ⟨i, by omega, claimsSecond⟩
  exact never bound claimed

/-- A job is claimed first exactly when it stands first in its lane and `cjson` reads its record, or
the other is never claimed, because `cjson` does not read it. -/
theorem claimedFirst_iff (jobs : redis.DistinctJobs) (sorted : (redis.zset (.lane lane)).Sorted)
    {first second : M × Int} (ahead : first ∈ redis.entries lane)
    (behind : second ∈ redis.entries lane) (different : first.1 ≠ second.1) :
    redis.ClaimedFirst first.1 second.1 ↔ jobId? second.1 = none ∨
      (jobId? first.1 ≠ none ∧ SortedSet.precedes first second = true) := by
  constructor
  · intro claimedFirst
    by_contra neither
    obtain ⟨read, behindToo⟩ := not_or.mp neither
    obtain ⟨twin, named⟩ := Option.ne_none_iff_exists'.mp read
    -- With all locks free `second` is claimed, and so `first` is claimed and has an id.
    have free : { redis with lock := fun _ => false }.Unlocked := fun _ _ _ _ _ => rfl
    have same : { redis with lock := fun _ => false }.DistinctJobs :=
      ⟨jobs.named, jobs.reads, jobs.once⟩
    obtain ⟨bound, claimed⟩ := free.claims_all same named behind
    obtain ⟨id, own⟩ :=
      (claimedFirst (fun _ => false) (fun _ _ => rfl) (fun _ _ => rfl) bound claimed).named
    have after := (SortedSet.precedes_or different).resolve_left fun before =>
      behindToo ⟨by simp [own], before⟩
    exact not_claimedFirst jobs sorted named ahead behind different after claimedFirst
  · intro stands lock _ _ calls claimed
    obtain unread | ⟨read, before⟩ := stands
    · obtain ⟨id, named⟩ := claimed.named
      rw [unread] at named
      cases named
    · obtain ⟨id, named⟩ := Option.ne_none_iff_exists'.mp read
      have same : { redis with lock }.DistinctJobs := ⟨jobs.named, jobs.reads, jobs.once⟩
      exact claimedWithin_in_order same sorted named ahead behind before claimed

end Lawful

end Redis

end Taskfire
