import Taskfire.Safety.Duplicates

/-!
# What `Dequeue` takes from the lanes

The claim script tries the head of each lane.  It passes a lane that is empty, whose head is
malformed or whose head is locked; the first head that it does not pass is popped, whatever the
script and the worker make of it.  The results are stated for members of any type with decoders.
-/

namespace Taskfire

open Taskfire.Library

variable {M : Type}

/-- The lanes the script tries before this one. -/
def Lane.higher : Lane → List Lane
  | .high => []
  | .medium => [.high]
  | .low => [.high, .medium]

/-- Of two lanes, one is tried before the other. -/
theorem Lane.higher_or (lane other : Lane) :
    lane ∈ other.higher ∨ lane = other ∨ other ∈ lane.higher := by
  cases lane <;> cases other <;> simp [Lane.higher]

theorem Lane.higher_of_split {earlier later : List Lane} {lane : Lane}
    (split : [Lane.high, .medium, .low] = earlier ++ lane :: later) : earlier = lane.higher := by
  cases earlier with
  | nil => cases split; rfl
  | cons first earlier =>
    cases earlier with
    | nil => cases split; rfl
    | cons second earlier =>
      cases earlier with
      | nil => cases split; rfl
      | cons third earlier =>
        have lengths := congrArg List.length split
        simp at lengths

namespace Redis

/-- The lane's members with their scores. -/
abbrev entries (redis : Redis M) (lane : Lane) : List (M × Int) := (redis.zset (.lane lane)).entries

section Heads

variable [Decoding M]

/-- The member decodes to no table with an id. -/
def Malformed (member : M) : Prop :=
  Decoding.cjson member = .notTable ∨ ∃ priority, Decoding.cjson member = .table .absent priority

/-- The lock of the member's id is held. -/
def Locked (redis : Redis M) (member : M) : Prop :=
  ∃ id priority, Decoding.cjson member = .table (.text id) priority ∧ redis.lock id = true

/-- The member decodes to a job with an id whose lock is free. -/
def Claimable (redis : Redis M) (member : M) : Prop :=
  ∃ id priority job, Decoding.cjson member = .table (.text id) priority ∧
    Decoding.unmarshal member = some job ∧ redis.lock id = false

/-- The script goes on to the next lane. -/
def Passes (redis : Redis M) (lane : Lane) : Prop :=
  ∀ entry ∈ (redis.entries lane).head?, Malformed entry.1 ∨ redis.Locked entry.1

theorem Claimable.not_malformed {redis : Redis M} {member : M} (claimable : redis.Claimable member) :
    ¬ Malformed member := by
  obtain ⟨id, priority, job, table, -, -⟩ := claimable
  intro malformed
  obtain none | ⟨_, absent⟩ := malformed
  · rw [table] at none
    cases none
  · rw [table] at absent
    cases absent

theorem Claimable.not_locked {redis : Redis M} {member : M} (claimable : redis.Claimable member) :
    ¬ redis.Locked member := by
  obtain ⟨id, priority, job, table, -, free⟩ := claimable
  intro locked
  obtain ⟨other, _, again, held⟩ := locked
  rw [table] at again
  cases again
  rw [free] at held
  cases held

/-- What the script leaves of the lanes it has passed: everything but the malformed heads. -/
structure Passed (lanes : List Lane) (before after : Redis M) (dropped : List M) : Prop where
  lock : after.lock = before.lock
  processing : after.processing = before.processing
  others : ∀ lane, lane ∉ lanes → after.zset (.lane lane) = before.zset (.lane lane)
  appended : after.malformed = dropped ++ before.malformed
  malformed : ∀ member ∈ dropped, Malformed member
  kept : ∀ lane, ∀ entry ∈ before.entries lane, entry ∈ after.entries lane ∨ entry.1 ∈ dropped

theorem Passed.refl (redis : Redis M) : Passed [] redis redis [] where
  lock := rfl
  processing := rfl
  others := fun _ _ => rfl
  appended := rfl
  malformed := fun _ listed => absurd listed List.not_mem_nil
  kept := fun _ _ present => .inl present

theorem Passed.append {first second : List Lane} {before middle after : Redis M}
    {earlier later : List M} (left : Passed first before middle earlier)
    (right : Passed second middle after later) :
    Passed (first ++ second) before after (later ++ earlier) := by
  constructor
  · rw [right.lock, left.lock]
  · rw [right.processing, left.processing]
  · intro lane neither
    rw [List.mem_append, not_or] at neither
    rw [right.others lane neither.2, left.others lane neither.1]
  · rw [right.appended, left.appended, List.append_assoc]
  · intro member listed
    obtain new | old := List.mem_append.mp listed
    · exact right.malformed member new
    · exact left.malformed member old
  · intro lane entry present
    obtain still | old := left.kept lane entry present
    · obtain last | new := right.kept lane entry still
      · exact .inl last
      · exact .inr (List.mem_append_left _ new)
    · exact .inr (List.mem_append_right _ old)

theorem Passed.passes {lanes : List Lane} {before after : Redis M} {dropped : List M}
    (passed : Passed lanes before after dropped) {lane : Lane} (other : lane ∉ lanes) :
    after.Passes lane ↔ before.Passes lane := by
  simp only [Passes, Locked, entries, passed.others lane other, passed.lock]

/-- The script stops at a lane: it has passed all higher ones. -/
structure StopsAt (redis : Redis M) (lane : Lane) (middle : Redis M) (dropped : List M) : Prop where
  higher : ∀ other ∈ lane.higher, redis.Passes other
  stays : ¬ redis.Passes lane
  passed : Passed lane.higher redis middle dropped

section Taken

variable {redis middle : Redis M} {lane : Lane} {dropped : List M}

/-- The script stops at one lane only. -/
theorem StopsAt.unique (stops : StopsAt redis lane middle dropped) {other : Lane}
    (higher : ∀ above ∈ other.higher, redis.Passes above) (stays : ¬ redis.Passes other) :
    other = lane := by
  obtain above | same | below := Lane.higher_or other lane
  · exact absurd (stops.higher other above) stays
  · exact same
  · exact absurd (higher lane below) stops.stays

end Taken

end Heads

/-! ## One lane -/

theorem zset_setZset (redis : Redis M) (lane other : Lane) (set : SortedSet M) :
    (redis.setZset (.lane lane) set).zset (.lane other) =
      if other = lane then set else redis.zset (.lane other) := by
  by_cases same : other = lane
  · subst same
    simp [setZset]
  · simp [setZset, same]

section Popped

variable {redis middle : Redis M} {lane : Lane} {dropped : List M} {data : M} {score : Int}
variable {rest : SortedSet M}

theorem head_of_popped (popped : (redis.zset (.lane lane)).popMin = some (data, score, rest)) :
    (redis.entries lane).head? = some (data, score) := by
  rw [entries, SortedSet.popMin_entries popped]
  rfl

theorem popped_gone (popped : (redis.zset (.lane lane)).popMin = some (data, score, rest))
    (other : Int) : (data, other) ∉ (middle.setZset (.lane lane) rest).entries lane := by
  intro present
  have later : (data, other) ∈ rest.entries := by simpa [entries, setZset] using present
  exact (SortedSet.popMin_mem popped).2 (List.mem_map_of_mem later)

/-- Only the popped entry and the malformed heads have left their lanes. -/
theorem kept_of_popped [Decoding M] (stops : StopsAt redis lane middle dropped)
    (popped : (redis.zset (.lane lane)).popMin = some (data, score, rest)) (other : Lane)
    (entry : M × Int) (present : entry ∈ redis.entries other) :
    entry ∈ (middle.setZset (.lane lane) rest).entries other ∨ entry.1 ∈ dropped ∨
      other = lane ∧ entry = (data, score) := by
  by_cases same : other = lane
  · subst same
    rw [entries, SortedSet.popMin_entries popped, List.mem_cons] at present
    obtain head | later := present
    · exact .inr (.inr ⟨rfl, head⟩)
    · exact .inl (by simpa [entries, setZset] using later)
  · obtain still | old := stops.passed.kept other entry present
    · exact .inl (by simpa [entries, setZset, same] using still)
    · exact .inr (.inl old)

end Popped

variable [DecidableEq M] [Ord M] [Decoding M]

/-- A malformed head goes to its list. -/
theorem tryClaim_malformed {redis : Redis M} {lane : Lane} {data : M} {score : Int}
    {rest : SortedSet M} (popped : (redis.zset (.lane lane)).popMin = some (data, score, rest))
    (malformed : Malformed data) : redis.tryClaim lane = (.ok none,
      { redis.setZset (.lane lane) rest with malformed := data :: redis.malformed }) := by
  obtain none | ⟨priority, absent⟩ := malformed
  · simp only [tryClaim, popped, none]
    rfl
  · simp only [tryClaim, popped, absent]
    rfl

/-- A head that is passed is malformed and goes to its list, or is locked and stays. -/
theorem tryClaim_passes {redis : Redis M} {lane : Lane} (passes : redis.Passes lane) :
    (redis.tryClaim lane).1 = .ok none ∧
      ∃ dropped, Passed [lane] redis (redis.tryClaim lane).2 dropped := by
  cases popped : (redis.zset (.lane lane)).popMin with
  | none =>
    have unchanged : redis.tryClaim lane = (.ok none, redis) := by simp only [tryClaim, popped]
    rw [unchanged]
    refine ⟨rfl, [], ?_⟩
    exact ⟨rfl, rfl, fun _ _ => rfl, rfl, (Passed.refl redis).malformed, (Passed.refl redis).kept⟩
  | some found =>
    obtain ⟨data, score, rest⟩ := found
    have shape := SortedSet.popMin_entries popped
    have others (set : SortedSet M) (other : Lane) (different : other ∉ [lane]) :
        (redis.setZset (.lane lane) set).zset (.lane other) = redis.zset (.lane other) := by
      rw [zset_setZset, if_neg (fun same => different (by simp [same]))]
    obtain malformed | locked := passes (data, score) (by rw [entries, shape]; rfl)
    · rw [tryClaim_malformed popped malformed]
      refine ⟨rfl, [data], rfl, rfl, others rest, rfl, ?_, ?_⟩
      · intro member listed
        rw [List.mem_singleton.mp listed]
        exact malformed
      · intro other entry present
        -- The malformed head is pushed to its list, the rest of the lane is kept.
        by_cases same : other = lane
        · subst same
          rw [entries, shape, List.mem_cons] at present
          obtain rfl | later := present
          · exact .inr (List.mem_singleton_self data)
          · refine .inl ?_
            simpa [entries, setZset] using later
        · refine .inl ?_
          simpa [entries, setZset, same] using present
    · obtain ⟨id, priority, table, held⟩ := locked
      have restored : redis.tryClaim lane =
          (.ok none, (redis.setZset (.lane lane) rest).zadd (.lane lane) score data) := by
        have lock : (redis.setZset (.lane lane) rest).lock id = true := held
        simp only [tryClaim, popped, table, lock, if_true]
      rw [restored]
      refine ⟨rfl, [], rfl, rfl, ?_, rfl, (Passed.refl redis).malformed, ?_⟩
      · intro other different
        have apart : other ≠ lane := fun same => different (by simp [same])
        rw [zadd, zset_setZset, if_neg apart, others rest other different]
      · intro other entry present
        refine .inl ?_
        by_cases same : other = lane
        · subst same
          -- The locked head goes back to where it was.
          have absent : data ∉ rest.members := (SortedSet.popMin_mem popped).2
          rw [entries, shape, List.mem_cons] at present
          simp only [entries, zadd, zset_setZset, if_true, SortedSet.mem_add]
          obtain head | later := present
          · exact .inl head
          · refine .inr ⟨later, ?_⟩
            intro same
            rw [← same] at absent
            exact absent (List.mem_map_of_mem later)
        · simpa [entries, zadd, setZset, same] using present

/-- A head that is not passed is popped: the script stops at it, or claims it. -/
inductive Takes (redis : Redis M) (lane : Lane) (data : M) (rest : SortedSet M) :
    Except ScriptError (Option M) → Redis M → Prop
  | stops {priority : Option Int} : Decoding.cjson data = .table .other priority →
      Takes redis lane data rest (.error .attemptToConcatenate) (redis.setZset (.lane lane) rest)
  | claims {id : JobId} {priority : Option Int} : Decoding.cjson data = .table (.text id) priority →
      redis.lock id = false →
      Takes redis lane data rest (.ok (some data)) { redis.setZset (.lane lane) rest with
        lock := Function.update redis.lock id true
        processing := Function.update redis.processing id (some data) }

theorem tryClaim_takes {redis : Redis M} {lane : Lane} (stays : ¬ redis.Passes lane) :
    ∃ data score rest, (redis.zset (.lane lane)).popMin = some (data, score, rest) ∧
      Takes redis lane data rest (redis.tryClaim lane).1 (redis.tryClaim lane).2 := by
  cases popped : (redis.zset (.lane lane)).popMin with
  | none =>
    have empty := SortedSet.popMin_none popped
    exact absurd (fun entry head => by simp [entries, empty] at head) stays
  | some found =>
    obtain ⟨data, score, rest⟩ := found
    refine ⟨data, score, rest, rfl, ?_⟩
    have head : ¬ (Malformed data ∨ redis.Locked data) := by
      intro passed
      apply stays
      intro entry head
      rw [entries, SortedSet.popMin_entries popped] at head
      cases head
      exact passed
    rw [not_or] at head
    cases decoded : Decoding.cjson data with
    | notTable => exact absurd (.inl decoded) head.1
    | table luaId priority =>
      cases luaId with
      | absent => exact absurd (.inr ⟨priority, decoded⟩) head.1
      | other =>
        simp only [tryClaim, popped, decoded]
        exact .stops decoded
      | text id =>
        have free : redis.lock id = false := by
          cases held : redis.lock id with
          | false => rfl
          | true => exact absurd ⟨id, priority, decoded, held⟩ head.2
        have lock : (redis.setZset (.lane lane) rest).lock id = false := free
        simp only [tryClaim, popped, decoded, lock, Bool.false_eq_true, if_false]
        exact .claims decoded free

/-! ## The script -/

/-- The script passes all lanes, or takes the head of the first that it does not pass. -/
theorem tryClaims_passes_or_takes {lanes : List Lane} (nodup : lanes.Nodup) (redis : Redis M) :
    (∃ dropped after, (∀ lane ∈ lanes, redis.Passes lane) ∧
      tryClaims lanes redis = (.ok none, after) ∧ Passed lanes redis after dropped) ∨
    ∃ earlier lane later middle dropped, lanes = earlier ++ lane :: later ∧
      (∀ other ∈ earlier, redis.Passes other) ∧ ¬ redis.Passes lane ∧
      Passed earlier redis middle dropped ∧ tryClaims lanes redis = middle.tryClaim lane := by
  induction lanes generalizing redis with
  | nil =>
    exact .inl ⟨[], redis, fun _ listed => absurd listed List.not_mem_nil, rfl, .refl redis⟩
  | cons lane lanes inductionHypothesis =>
    obtain ⟨fresh, nodup⟩ := List.nodup_cons.mp nodup
    by_cases passes : redis.Passes lane
    · obtain ⟨none, first, left⟩ := tryClaim_passes passes
      have continues : tryClaims (lane :: lanes) redis = tryClaims lanes (redis.tryClaim lane).2 := by
        have whole : redis.tryClaim lane = (.ok .none, (redis.tryClaim lane).2) := Prod.ext none rfl
        rw [tryClaims, whole]
      -- Passing the first lane leaves the heads of the others.
      have passesAll {others : List Lane} (inside : ∀ other ∈ others, other ∈ lanes)
          (all : ∀ other ∈ others, (redis.tryClaim lane).2.Passes other) :
          ∀ other ∈ lane :: others, redis.Passes other := by
        intro other listed
        obtain rfl | later := List.mem_cons.mp listed
        · exact passes
        · apply (left.passes _).mp (all other later)
          intro same
          rw [List.mem_singleton] at same
          subst same
          exact fresh (inside other later)
      rw [continues]
      obtain ⟨second, after, all, result, right⟩ | ⟨earlier, other, later, middle, second, split,
        all, stays, right, result⟩ := inductionHypothesis nodup (redis.tryClaim lane).2
      · exact .inl ⟨_, after, passesAll (fun _ listed => listed) all, result, left.append right⟩
      · subst split
        refine .inr ⟨lane :: earlier, other, later, middle, _, rfl, ?_, ?_, left.append right, result⟩
        · exact passesAll (fun _ listed => List.mem_append_left _ listed) all
        · intro passed
          apply stays
          apply (left.passes _).mpr passed
          intro same
          rw [List.mem_singleton] at same
          subst same
          exact fresh (List.mem_append_right _ List.mem_cons_self)
    · refine .inr ⟨[], lane, lanes, redis, [], rfl, ?_, passes, .refl redis, ?_⟩
      · exact fun _ listed => absurd listed List.not_mem_nil
      · obtain ⟨data, score, rest, -, takes⟩ := tryClaim_takes passes
        simp only [tryClaims]
        split
        · next result =>
          rw [result] at takes
          cases takes
        · rfl

theorem claimScript_ends (redis : Redis M) :
    (∃ dropped after, (∀ lane, redis.Passes lane) ∧ redis.claimScript = (.ok none, after) ∧
      Passed [.high, .medium, .low] redis after dropped) ∨
    ∃ lane middle dropped data score rest result after, StopsAt redis lane middle dropped ∧
      (redis.zset (.lane lane)).popMin = some (data, score, rest) ∧
      redis.claimScript = (result, after) ∧ Takes middle lane data rest result after := by
  have distinct : [Lane.high, .medium, .low].Nodup := by simp
  obtain ⟨dropped, after, all, result, passed⟩ | ⟨earlier, lane, later, middle, dropped, split, all,
    stays, passed, result⟩ := tryClaims_passes_or_takes distinct redis
  · refine .inl ⟨dropped, after, fun lane => ?_, result, passed⟩
    cases lane <;> exact all _ (by simp)
  · have higher := Lane.higher_of_split split
    subst higher
    -- The lane itself has not been touched yet.
    have own : lane ∉ lane.higher := by cases lane <;> simp [Lane.higher]
    have stays' : ¬ middle.Passes lane := fun passes => stays ((passed.passes own).mp passes)
    obtain ⟨data, score, rest, popped, takes⟩ := tryClaim_takes stays'
    rw [passed.others lane own] at popped
    exact .inr ⟨lane, middle, dropped, data, score, rest, _, _, ⟨all, stays, passed⟩, popped, result,
      takes⟩

/-! ## Members are kept -/

section Dequeued

variable {redis after : Redis M} {data : M}

theorem dequeue_nil (claimed : redis.claimScript = (.ok none, after)) :
    redis.dequeue = (.ok none, after) := by
  simp only [dequeue, claimed]
  rfl

theorem dequeue_stopped (claimed : redis.claimScript = (.error .attemptToConcatenate, after)) :
    ∃ error, redis.dequeue = (.error error, after) :=
  ⟨_, by simp only [dequeue, claimed]; rfl⟩

theorem dequeue_undecoded (claimed : redis.claimScript = (.ok (some data), after))
    (decoded : Decoding.unmarshal data = none) : ∃ error, redis.dequeue = (.error error, after) :=
  ⟨_, by simp only [dequeue, claimed, Stores.claimReply, received, decoded]; rfl⟩

theorem dequeue_decoded (claimed : redis.claimScript = (.ok (some data), after)) {job : Job}
    (decoded : Decoding.unmarshal data = some job) : redis.dequeue = (.ok (some job), after) := by
  simp only [dequeue, claimed, Stores.claimReply, received, decoded]

end Dequeued

/-- The member became the processing entry of the job that is returned, whose lock was taken. -/
structure Handed (before after : Redis M) (result : Except GoError (Option Job)) (member : M)
    (job : Job) : Prop where
  returned : result = .ok (some job)
  decoded : Decoding.unmarshal member = some job
  processing : after.processing = Function.update before.processing job.id (some member)
  lock : after.lock = Function.update before.lock job.id true

/-- One `Dequeue` keeps every entry of the lanes but those whose members it lists as malformed and
at most one that it hands out; if it returns an error it has taken nothing. -/
structure Keeps (redis : Redis M) : Prop where
  kept : ∃ dropped taken, redis.dequeue.2.malformed = dropped ++ redis.malformed ∧
    (∀ lane, ∀ entry ∈ redis.entries lane, entry ∈ redis.dequeue.2.entries lane ∨
      entry.1 ∈ dropped ∨ taken = some (lane, entry)) ∧
    ∀ lane entry, taken = some (lane, entry) →
      ∃ job, Handed redis redis.dequeue.2 redis.dequeue.1 entry.1 job
  failed : ∀ error, redis.dequeue.1 = .error error →
    (∀ lane, ∀ entry ∈ redis.entries lane, entry ∈ redis.dequeue.2.entries lane) ∧
      redis.dequeue.2.lock = redis.lock ∧ redis.dequeue.2.processing = redis.processing

/-- The head of the lane has an id that concatenates with the prefix of the locks, and the worker
decodes it to a job with this id. -/
def Readable (redis : Redis M) (lane : Lane) : Prop :=
  ∀ entry ∈ (redis.entries lane).head?, ∃ id priority job,
    Decoding.cjson entry.1 = .table (.text id) priority ∧
      Decoding.unmarshal entry.1 = some job ∧ job.id = id

theorem keeps_of_readable {redis : Redis M}
    (readable : ∀ lane, (∀ above ∈ lane.higher, redis.Passes above) → ¬ redis.Passes lane →
      redis.Readable lane) : Keeps redis := by
  obtain ⟨dropped, after, all, claimed, passed⟩ | ⟨lane, middle, dropped, data, score, rest, result,
    after, stops, popped, claimed, takes⟩ := claimScript_ends redis
  · have dequeued := dequeue_nil claimed
    constructor
    · rw [dequeued]
      refine ⟨dropped, none, passed.appended, ?_, fun _ _ none => by cases none⟩
      intro lane entry present
      -- Every lane was passed: only malformed heads have moved.
      obtain still | old := passed.kept lane entry present
      · exact .inl still
      · exact .inr (.inl old)
    · intro error failed
      rw [dequeued] at failed
      cases failed
  · obtain ⟨id, priority, job, table, decoded, same⟩ :=
      readable lane stops.higher stops.stays (data, score) (head_of_popped popped)
    cases takes with
    | stops other =>
      rw [table] at other
      cases other
    | claims table' free =>
      rw [table] at table'
      cases table'
      subst same
      have dequeued := dequeue_decoded claimed decoded
      constructor
      · rw [dequeued]
        refine ⟨dropped, some (lane, (data, score)), stops.passed.appended, ?_, ?_⟩
        · intro other entry present
          obtain still | old | ⟨rfl, rfl⟩ := kept_of_popped stops popped other entry present
          · exact .inl still
          · exact .inr (.inl old)
          · exact .inr (.inr rfl)
        · intro other entry taken
          cases taken
          refine ⟨job, rfl, decoded, ?_, ?_⟩
          · rw [← stops.passed.processing]
          · rw [← stops.passed.lock]
      · intro error failed
        rw [dequeued] at failed
        cases failed

theorem readable_of_keeps {redis : Redis M} (keeps : Keeps redis) {lane : Lane}
    (higher : ∀ above ∈ lane.higher, redis.Passes above) (stays : ¬ redis.Passes lane) :
    redis.Readable lane := by
  obtain ⟨_, _, all, _, _⟩ | ⟨lane', middle, dropped, data, score, rest, result, after, stops, popped,
    claimed, takes⟩ := claimScript_ends redis
  · exact absurd (all lane) stays
  have same := stops.unique higher stays
  subst same
  have head := head_of_popped popped
  have present : (data, score) ∈ redis.entries lane := List.mem_of_mem_head? head
  intro entry first
  rw [head] at first
  cases first
  cases takes with
  | stops other =>
    -- The head is popped and the caller gets an error.
    obtain ⟨error, dequeued⟩ := dequeue_stopped claimed
    have kept := (keeps.failed _ (by rw [dequeued])).1 lane _ present
    rw [dequeued] at kept
    exact absurd kept (popped_gone popped score)
  | @claims id priority table free =>
    rw [stops.passed.lock] at free
    cases decoded : Decoding.unmarshal data with
    | none =>
      obtain ⟨error, dequeued⟩ := dequeue_undecoded claimed decoded
      -- The lock is taken and the caller gets an error.
      have lock := (keeps.failed _ (by rw [dequeued])).2.1
      rw [dequeued] at lock
      have held := congrFun lock id
      simp only [Function.update_self, free] at held
      cases held
    | some job =>
      refine ⟨_, _, job, table, rfl, ?_⟩
      have dequeued := dequeue_decoded claimed decoded
      obtain ⟨dropped', taken, appended, kept, handed⟩ := keeps.kept
      rw [dequeued] at appended kept handed
      have listed : dropped' = dropped :=
        (List.append_cancel_right (appended.symm.trans stops.passed.appended))
      obtain still | old | taken := kept lane _ present
      · exact absurd still (popped_gone popped score)
      · rw [listed] at old
        obtain none | ⟨_, absent⟩ := stops.passed.malformed data old
        · rw [table] at none
          cases none
        · rw [table] at absent
          cases absent
      · obtain ⟨job', returned, -, -, lock⟩ := handed _ _ taken
        cases returned
        -- The script locks the id it has read, the caller works for the one it has decoded.
        by_contra different
        have held := congrFun lock id
        simp only [Function.update_self, Function.update_of_ne (Ne.symm different), free] at held
        cases held

/-- `Dequeue` loses nothing exactly when the first head that is neither malformed nor locked, if
there is one, can be read by the script and by the worker, with one id. -/
theorem dequeue_keeps_iff (redis : Redis M) :
    Keeps redis ↔ ∀ lane, (∀ above ∈ lane.higher, redis.Passes above) → ¬ redis.Passes lane →
      redis.Readable lane :=
  ⟨fun keeps _ => readable_of_keeps keeps, keeps_of_readable⟩

/-- A single member in the first lane. -/
def single (member : M) : Redis M :=
  Redis.empty.setZset (.lane .high) ⟨[(member, 0)], List.nodup_singleton member⟩

omit [DecidableEq M] [Ord M] [Decoding M] in
@[simp] theorem single_entries (member : M) (lane : Lane) :
    (single member).entries lane = if lane = .high then [(member, 0)] else [] := by
  cases lane <;> rfl

/-- An object whose id is a boolean. -/
def booleanId : String := "\x7b\"id\":true\x7d"

/-- What the decoders make of that object. -/
abbrev readsBooleanId : Decoding String where
  cjson text := if text = booleanId then .table .other none else .notTable
  unmarshal _ := none

/-- The script pops the object and stops. -/
theorem dequeue_loses_member : ¬ @Keeps String _ _ readsBooleanId (single booleanId) := by
  intro keeps
  let _ : Decoding String := readsBooleanId
  have decoded : Decoding.cjson booleanId = .table .other none := if_pos rfl
  have head : (single booleanId).entries .high = [(booleanId, 0)] := rfl
  have stays : ¬ (single booleanId).Passes .high := by
    intro passes
    obtain (none | ⟨_, absent⟩) | ⟨_, _, table, _⟩ := passes (booleanId, 0) (by rw [head]; rfl)
    · rw [decoded] at none
      cases none
    · rw [decoded] at absent
      cases absent
    · rw [decoded] at table
      cases table
  obtain ⟨_, _, _, table, _⟩ := readable_of_keeps keeps (fun _ above => by cases above) stays
    (booleanId, 0) (by rw [head]; rfl)
  rw [decoded] at table
  cases table

/-! ## The best member is claimed -/

/-- The claimable entry with the lowest score and member, in the highest lane that has one. -/
structure Offers (redis : Redis M) (lane : Lane) (entry : M × Int) : Prop where
  present : entry ∈ redis.entries lane
  claimable : redis.Claimable entry.1
  lowest : ∀ other ∈ redis.entries lane, redis.Claimable other.1 → other ≠ entry →
    SortedSet.precedes entry other = true
  highest : ∀ above ∈ lane.higher, ∀ other ∈ redis.entries above, ¬ redis.Claimable other.1

/-- `Dequeue` returns nil only if no lane has a claimable member, and otherwise takes the best. -/
structure ClaimsBest (redis : Redis M) : Prop where
  nil : redis.dequeue.1 = .ok none →
    ∀ lane, ∀ entry ∈ redis.entries lane, ¬ redis.Claimable entry.1
  best : ∀ lane entry, Offers redis lane entry →
    redis.dequeue.1 = .ok (Decoding.unmarshal entry.1) ∧
      entry.1 ∉ (redis.dequeue.2.zset (.lane lane)).members

omit [DecidableEq M] in
theorem exists_offer {redis : Redis M} (sorted : ∀ lane, (redis.zset (.lane lane)).Sorted)
    {lane : Lane} {entry : M × Int} (present : entry ∈ redis.entries lane)
    (claimable : redis.Claimable entry.1) : ∃ lane entry, Offers redis lane entry := by
  let has (lane : Lane) : Prop := ∃ entry ∈ redis.entries lane, redis.Claimable entry.1
  -- The highest lane that has a claimable entry.
  have top : ∃ lane, has lane ∧ ∀ above ∈ lane.higher, ¬ has above := by
    by_cases high : has .high
    · exact ⟨.high, high, by simp [Lane.higher]⟩
    · by_cases medium : has .medium
      · exact ⟨.medium, medium, by simpa [Lane.higher] using high⟩
      · refine ⟨.low, ?_, by simpa [Lane.higher] using ⟨high, medium⟩⟩
        cases lane with
        | high => exact absurd ⟨entry, present, claimable⟩ high
        | medium => exact absurd ⟨entry, present, claimable⟩ medium
        | low => exact ⟨entry, present, claimable⟩
  obtain ⟨lane, ⟨entry, present, claimable⟩, none⟩ := top
  obtain ⟨first, listed, held, least⟩ :=
    (sorted lane).exists_first (fun entry => redis.Claimable entry.1) present claimable
  exact ⟨lane, first, listed, held, least,
    fun above higher other member claimable => none above higher ⟨other, member, claimable⟩⟩

omit [DecidableEq M] in
theorem Offers.stays {redis : Redis M} {lane : Lane} {entry : M × Int}
    (offers : Offers redis lane entry) (head : (redis.entries lane).head? = some entry) :
    ¬ redis.Passes lane := by
  intro passes
  obtain malformed | locked := passes entry head
  · exact offers.claimable.not_malformed malformed
  · exact offers.claimable.not_locked locked

theorem takes_best {redis : Redis M} {lane : Lane} {entry : M × Int}
    (offers : Offers redis lane entry) (head : (redis.entries lane).head? = some entry)
    (higher : ∀ above ∈ lane.higher, redis.Passes above) :
    redis.dequeue.1 = .ok (Decoding.unmarshal entry.1) ∧
      entry.1 ∉ (redis.dequeue.2.zset (.lane lane)).members := by
  have stays := offers.stays head
  obtain ⟨_, _, all, _, _⟩ | ⟨lane', middle, dropped, data, score, rest, result, after, stops, popped,
    claimed, takes⟩ := claimScript_ends redis
  · exact absurd (all lane) stays
  have same := stops.unique higher stays
  subst same
  rw [head_of_popped popped] at head
  cases head
  obtain ⟨id, priority, job, table, decoded, free⟩ := offers.claimable
  cases takes with
  | stops other =>
    rw [table] at other
    cases other
  | claims =>
    rw [dequeue_decoded claimed decoded, decoded]
    refine ⟨rfl, ?_⟩
    have gone : data ∉ rest.members := (SortedSet.popMin_mem popped).2
    simpa [setZset] using gone

/-- What is taken from a lane while another member is offered is at its head, and is that member. -/
theorem head_of_best {redis : Redis M} (claims : ClaimsBest redis) {lane : Lane} {entry : M × Int}
    (offers : Offers redis lane entry) :
    (redis.entries lane).head? = some entry ∧ ∀ above ∈ lane.higher, redis.Passes above := by
  obtain ⟨returned, gone⟩ := claims.best lane entry offers
  obtain ⟨id, priority, job, table, decoded, free⟩ := offers.claimable
  rw [decoded] at returned
  obtain ⟨_, after, _, claimed, _⟩ | ⟨lane', middle, dropped, data, score, rest, result, after, stops,
    popped, claimed, takes⟩ := claimScript_ends redis
  · rw [dequeue_nil claimed] at returned
    cases returned
  cases takes with
  | stops other =>
    obtain ⟨error, dequeued⟩ := dequeue_stopped claimed
    rw [dequeued] at returned
    cases returned
  | @claims id' priority' table' free' =>
    cases decoded' : Decoding.unmarshal data with
    | none =>
      obtain ⟨error, dequeued⟩ := dequeue_undecoded claimed decoded'
      rw [dequeued] at returned
      cases returned
    | some job' =>
      have head := head_of_popped popped
      have taken : (data, score) ∈ redis.entries lane' := List.mem_of_mem_head? head
      rw [stops.passed.lock] at free'
      rw [dequeue_decoded claimed decoded'] at gone
      obtain above | same | below := Lane.higher_or lane' lane
      · exact absurd ⟨id', priority', job', table', decoded', free'⟩
          (offers.highest lane' above _ taken)
      · subst same
        refine ⟨?_, stops.higher⟩
        -- The member has left the lane, so it is the one that was popped.
        have present := offers.present
        rw [entries, SortedSet.popMin_entries popped, List.mem_cons] at present
        obtain first | later := present
        · rw [head, first]
        · have left : entry.1 ∈ rest.members := List.mem_map_of_mem later
          apply absurd left
          simpa [setZset] using gone
      · -- The lane was passed, which leaves a claimable member where it is.
        obtain still | old := stops.passed.kept lane entry offers.present
        · have apart : lane ≠ lane' := by
            intro same
            subst same
            exact absurd below (by cases lane <;> simp [Lane.higher])
          have left : entry.1 ∈ (middle.zset (.lane lane)).members := List.mem_map_of_mem still
          apply absurd left
          simpa [setZset, apart] using gone
        · exact absurd (stops.passed.malformed _ old) offers.claimable.not_malformed

/-- `Dequeue` takes the best claimable member exactly when it is at the head of its lane and every
higher lane is empty or has a malformed or locked head. -/
theorem dequeue_claims_best_iff {redis : Redis M}
    (sorted : ∀ lane, (redis.zset (.lane lane)).Sorted) :
    ClaimsBest redis ↔ ∀ lane entry, Offers redis lane entry →
      (redis.entries lane).head? = some entry ∧ ∀ above ∈ lane.higher, redis.Passes above := by
  constructor
  · intro claims lane entry offers
    exact head_of_best claims offers
  · intro first
    constructor
    · intro nil lane entry present claimable
      -- A claimable entry means an offer, and an offer at its head would have been returned.
      obtain ⟨lane, best, offers⟩ := exists_offer sorted present claimable
      obtain ⟨head, higher⟩ := first lane best offers
      obtain ⟨_, _, job, _, decoded, _⟩ := offers.claimable
      have returned := (takes_best offers head higher).1
      rw [nil, decoded] at returned
      cases returned
    · intro lane entry offers
      obtain ⟨head, higher⟩ := first lane entry offers
      exact takes_best offers head higher

/-- The job "k" is locked and stands at the head of the first lane before a text, and the second lane
has only a text; in the third the job "j" stands before the job "i". -/
def mixed : Redis Member :=
  { Redis.empty with
    zset := fun key => match key with
      | .lane .high =>
        ⟨[({ Job.plain with id := "k" }.marshal, 0), (.text "x", 1)], by decide⟩
      | .lane .medium => ⟨[(.text "x", 0)], by decide⟩
      | .lane .low => ⟨[(Job.plain.marshal, 0), ({ Job.plain with id := "i" }.marshal, 1)], by decide⟩
      | _ => .empty
    lock := Function.update (fun _ => false) "k" true }

theorem mixed_unclaimable {lane : Lane} {entry : Member × Int} (above : lane ≠ .low)
    (present : entry ∈ mixed.entries lane) : ¬ mixed.Claimable entry.1 := by
  have passed : Malformed entry.1 ∨ mixed.Locked entry.1 := by
    cases lane with
    | high =>
      obtain rfl | rfl : entry = _ ∨ entry = _ := by simpa [entries, mixed] using present
      · exact .inr ⟨"k", _, rfl, rfl⟩
      · exact .inl (.inl rfl)
    | medium =>
      obtain rfl : entry = _ := by simpa [entries, mixed] using present
      exact .inl (.inl rfl)
    | low => exact absurd rfl above
  intro claimable
  obtain malformed | locked := passed
  · exact claimable.not_malformed malformed
  · exact claimable.not_locked locked

/-- The third lane has the best member at its head. -/
theorem dequeue_claims_best_once : ClaimsBest mixed ∧ mixed.dequeue.1 = .ok (some Job.plain) := by
  refine ⟨(dequeue_claims_best_iff ?_).mpr ?_, rfl⟩
  · intro lane
    rw [SortedSet.Sorted]
    cases lane <;> decide
  · intro lane entry offers
    have low : lane = .low := by
      by_contra above
      exact mixed_unclaimable above offers.present offers.claimable
    subst low
    constructor
    · obtain rfl | rfl : entry = (Job.plain.marshal, 0) ∨
          entry = ({ Job.plain with id := "i" }.marshal, 1) := by
        simpa [entries, mixed] using offers.present
      · rfl
      · -- The member behind the head is not the lowest.
        have first := offers.lowest (Job.plain.marshal, 0) (by simp [entries, mixed])
          ⟨"j", _, _, rfl, rfl, rfl⟩ (by decide)
        cases first
    · intro above higher
      have listed : above = .high ∨ above = .medium := by simpa [Lane.higher] using higher
      obtain rfl | rfl := listed
      · rintro _ ⟨⟩
        exact .inr ⟨"k", _, rfl, rfl⟩
      · rintro _ ⟨⟩
        exact .inl (.inl rfl)

/-- The job "k" is locked and stands before the job "j". -/
def behindLocked : Redis Member :=
  { Redis.empty with
    zset := Function.update (fun _ => .empty) (.lane .high)
      ⟨[({ Job.plain with id := "k" }.marshal, 0), (Job.plain.marshal, 1)], by decide⟩
    lock := Function.update (fun _ => false) "k" true }

theorem dequeue_misses_claimable : ¬ ClaimsBest behindLocked := by
  intro claims
  refine claims.nil rfl .high (Job.plain.marshal, 1) ?_ ?_
  · simp [entries, behindLocked]
  · exact ⟨"j", _, _, rfl, rfl, rfl⟩

end Redis

end Taskfire
