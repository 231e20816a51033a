import Taskfire.Model.System

/-!
# What the scripts do to the records of a job

A record of a job waits in a lane or in the delayed set, or lies in the dead-letter set.  The lemmas
below say how the two scripts and the single commands change `waiting` and `letters`, for any
property `p` of members.
-/

namespace Taskfire

open Taskfire.Library

/-- `cjson` reads every member of a lane that has the property. -/
def Redis.Legible (redis : Redis Member) (p : Member → Bool) : Prop :=
  ∀ lane, ∀ member ∈ (redis.zset (.lane lane)).members, p member = true →
    Decoding.cjson member ≠ .notTable

instance (redis : Redis Member) (p : Member → Bool) : Decidable (redis.Legible p) :=
  decidable_of_iff (∀ lane ∈ [Lane.high, .medium, .low],
      ∀ member ∈ (redis.zset (.lane lane)).members, p member = true →
        Decoding.cjson member ≠ .notTable)
    ⟨fun holds lane => holds lane (by cases lane <;> decide), fun holds lane _ => holds lane⟩

theorem Redis.Legible.mono {redis : Redis Member} {p q : Member → Bool} (legible : redis.Legible q)
    (implies : ∀ member, p member = true → q member = true) : redis.Legible p :=
  fun lane member listed holds => legible lane member listed (implies member holds)

namespace Redis

variable {redis after : Redis Member} {p : Member → Bool}

/-! ## Single commands -/

theorem lane_ne_dlq (lane : Lane) : ZKey.lane lane ≠ .dlq := by simp

theorem delayed_ne_dlq : ZKey.delayed ≠ .dlq := by simp

theorem waiting_setZset (redis : Redis Member) {key : ZKey} (p : Member → Bool)
    (set : SortedSet Member) (notDlq : key ≠ .dlq) :
    (redis.setZset key set).waiting p + (redis.zset key).count p = redis.waiting p + set.count p := by
  cases key with
  | lane lane => cases lane <;> simp [waiting, setZset, Function.update] <;> omega
  | delayed => simp [waiting, setZset, Function.update]; omega
  | dlq => exact absurd rfl notDlq

theorem waiting_mono (redis : Redis Member) {p q : Member → Bool}
    (implies : ∀ member, p member = true → q member = true) :
    redis.waiting p ≤ redis.waiting q := by
  have fewer (key : ZKey) : (redis.zset key).count p ≤ (redis.zset key).count q :=
    SortedSet.count_mono _ implies
  have high := fewer (.lane .high)
  have medium := fewer (.lane .medium)
  have low := fewer (.lane .low)
  have delayed := fewer .delayed
  simp only [waiting]
  omega

@[simp] theorem waiting_setZset_dlq (p : Member → Bool) (set : SortedSet Member) :
    (redis.setZset .dlq set).waiting p = redis.waiting p := by
  simp [waiting, setZset]

theorem setZset_dlq {key : ZKey} (set : SortedSet Member) (notDlq : key ≠ .dlq) :
    (redis.setZset key set).zset .dlq = redis.zset .dlq := by
  simp [setZset, Function.update, notDlq.symm]

section Zadd

variable {key : ZKey} {score : Int} {member : Member}

theorem waiting_zadd_pos (redis : Redis Member) (score : Int) (notDlq : key ≠ .dlq) (holds : p member = true) :
    0 < (redis.zadd key score member).waiting p := by
  have moved := waiting_setZset redis p ((redis.zset key).add member score) notDlq
  have present := SortedSet.count_add_pos (redis.zset key) score holds
  have others : (redis.zset key).count p ≤ redis.waiting p := by
    cases key with
    | lane lane => cases lane <;> simp only [waiting] <;> omega
    | delayed => simp only [waiting]; omega
    | dlq => exact absurd rfl notDlq
  simp only [zadd]
  omega

theorem waiting_zadd_ge (redis : Redis Member) (p : Member → Bool) (score : Int) (member : Member)
    (notDlq : key ≠ .dlq) : redis.waiting p ≤ (redis.zadd key score member).waiting p := by
  have moved := waiting_setZset redis p ((redis.zset key).add member score) notDlq
  have grows := SortedSet.count_add_ge p (redis.zset key) member score
  simp only [zadd]
  omega

theorem waiting_zadd_le (redis : Redis Member) (p : Member → Bool) (score : Int) (member : Member)
    (notDlq : key ≠ .dlq) :
    (redis.zadd key score member).waiting p ≤ redis.waiting p + if p member = true then 1 else 0 := by
  have moved := waiting_setZset redis p ((redis.zset key).add member score) notDlq
  have grows := SortedSet.count_add_le p (redis.zset key) member score
  simp only [zadd]
  omega

theorem waiting_zadd_of_not (notDlq : key ≠ .dlq) (other : p member = false) :
    (redis.zadd key score member).waiting p = redis.waiting p := by
  have lower := waiting_zadd_ge redis p score member notDlq
  have upper := waiting_zadd_le redis p score member notDlq
  simp only [other, Bool.false_eq_true, if_false] at upper
  omega

theorem letters_zadd_of_lane (notDlq : key ≠ .dlq) :
    (redis.zadd key score member).letters p = redis.letters p := by
  simp only [letters, zadd, setZset_dlq _ notDlq]

theorem letters_zadd_dlq_le (redis : Redis Member) (p : Member → Bool) (score : Int)
    (member : Member) :
    (redis.zadd .dlq score member).letters p ≤ redis.letters p + if p member = true then 1 else 0 := by
  simpa [letters, zadd, setZset] using SortedSet.count_add_le p (redis.zset .dlq) member score

theorem letters_zadd_dlq_pos (redis : Redis Member) (score : Int) (holds : p member = true) :
    0 < (redis.zadd .dlq score member).letters p := by
  simpa [letters, zadd, setZset] using SortedSet.count_add_pos (redis.zset .dlq) score holds

theorem letters_zadd_dlq_of_not (other : p member = false) :
    (redis.zadd .dlq score member).letters p = redis.letters p := by
  simpa [letters, zadd, setZset] using SortedSet.count_add_of_not (redis.zset .dlq) score other

theorem waiting_zadd_dlq : (redis.zadd .dlq score member).waiting p = redis.waiting p := by
  simp [zadd]

end Zadd

section Zrem

variable {key : ZKey} {member : Member}

theorem waiting_zrem_le (notDlq : key ≠ .dlq) :
    (redis.zrem key member).waiting p ≤ redis.waiting p := by
  have moved := waiting_setZset redis p ((redis.zset key).remove member) notDlq
  have shrinks := SortedSet.count_remove_le p (redis.zset key) member
  simp only [zrem]
  omega

theorem waiting_zrem_of_not (notDlq : key ≠ .dlq) (other : p member = false) :
    (redis.zrem key member).waiting p = redis.waiting p := by
  have moved := waiting_setZset redis p ((redis.zset key).remove member) notDlq
  have same := SortedSet.count_remove_of_not (redis.zset key) other
  simp only [zrem]
  omega

theorem letters_zrem (notDlq : key ≠ .dlq) :
    (redis.zrem key member).letters p = redis.letters p := by
  simp only [letters, zrem, setZset_dlq _ notDlq]

end Zrem

/-! ## Claiming -/

/-- The script claimed nothing; it may have dropped members that `cjson` does not read. -/
structure Unclaimed (before after : Redis Member) : Prop where
  processing : after.processing = before.processing
  lock : after.lock = before.lock
  done : after.done = before.done
  dlq : after.zset .dlq = before.zset .dlq
  lanes : ∀ lane, ∀ member ∈ (after.zset (.lane lane)).members,
    member ∈ (before.zset (.lane lane)).members
  fewer : ∀ p, after.waiting p ≤ before.waiting p
  waiting : ∀ p, before.Legible p → after.waiting p = before.waiting p

theorem Unclaimed.refl (redis : Redis Member) : Unclaimed redis redis :=
  ⟨rfl, rfl, rfl, rfl, fun _ _ listed => listed, fun _ => Nat.le_refl _, fun _ _ => rfl⟩

theorem Unclaimed.legible {before after : Redis Member} (unclaimed : Unclaimed before after)
    {p : Member → Bool} (legible : before.Legible p) : after.Legible p :=
  fun lane member listed => legible lane member (unclaimed.lanes lane member listed)

theorem Unclaimed.trans {first second third : Redis Member} (left : Unclaimed first second)
    (right : Unclaimed second third) : Unclaimed first third where
  processing := right.processing.trans left.processing
  lock := right.lock.trans left.lock
  done := right.done.trans left.done
  dlq := right.dlq.trans left.dlq
  lanes := fun lane member listed => left.lanes lane member (right.lanes lane member listed)
  fewer := fun p => Nat.le_trans (right.fewer p) (left.fewer p)
  waiting := fun p legible =>
    (right.waiting p (left.legible legible)).trans (left.waiting p legible)

/-- The script claimed `member`, a record of job `id`. -/
structure Claimed (before after : Redis Member) (member : Member) (id : JobId) : Prop where
  hasId : member.id? = some id
  free : before.lock id = false
  processing : after.processing = Function.update before.processing id (some member)
  lock : after.lock = Function.update before.lock id true
  done : after.done = before.done
  dlq : after.zset .dlq = before.zset .dlq
  fewer : ∀ p, after.waiting p + (if p member = true then 1 else 0) ≤ before.waiting p
  waiting : ∀ p, before.Legible p →
    before.waiting p = after.waiting p + if p member = true then 1 else 0

theorem Unclaimed.claimed {first second third : Redis Member} {member : Member} {id : JobId}
    (left : Unclaimed first second) (right : Claimed second third member id) :
    Claimed first third member id where
  hasId := right.hasId
  free := left.lock ▸ right.free
  processing := left.processing ▸ right.processing
  lock := left.lock ▸ right.lock
  done := right.done.trans left.done
  dlq := right.dlq.trans left.dlq
  fewer := fun p => Nat.le_trans (right.fewer p) (left.fewer p)
  waiting := fun p legible =>
    (left.waiting p legible).symm.trans (right.waiting p (left.legible legible))

theorem cjson_cases (member : Member) :
    Decoding.cjson member = .notTable ∨
      ∃ id priority, Decoding.cjson member = .table (.text id) priority ∧ member.id? = some id := by
  cases member with
  | record json =>
    by_cases reads : cjsonReads json.payload = true
    · exact .inr ⟨json.id, some json.priority, if_pos reads, rfl⟩
    · exact .inl (if_neg reads)
  | text content => exact .inl rfl

private theorem waiting_popped {lane : Lane} {data : Member} {score : Int}
    {rest : SortedSet Member} (popped : (redis.zset (.lane lane)).popMin = some (data, score, rest)) :
    redis.waiting p = (redis.setZset (.lane lane) rest).waiting p +
      if p data = true then 1 else 0 := by
  have moved := waiting_setZset redis p rest (lane_ne_dlq lane)
  have counted := SortedSet.count_popMin p popped
  omega

/-- What is left of a lane was in it. -/
private theorem mem_of_popped {set rest : SortedSet Member} {data member : Member} {score : Int}
    (popped : set.popMin = some (data, score, rest)) (left : member ∈ rest.members) :
    member ∈ set.members := by
  rw [SortedSet.members, SortedSet.popMin_entries popped]
  exact List.mem_cons_of_mem _ left

/-- A member that is put back with its score is where it was. -/
private theorem unclaimed_restored {lane : Lane} {data : Member} {score : Int}
    {rest : SortedSet Member} (popped : (redis.zset (.lane lane)).popMin = some (data, score, rest)) :
    Unclaimed redis ((redis.setZset (.lane lane) rest).zadd (.lane lane) score data) := by
  have same (p : Member → Bool) :
      ((redis.setZset (.lane lane) rest).zadd (.lane lane) score data).waiting p =
        redis.waiting p := by
    have lost := waiting_popped (p := p) popped
    have fresh : (rest.add data score).count p = rest.count p + if p data = true then 1 else 0 := by
      have absent := (SortedSet.popMin_mem popped).2
      have unchanged := SortedSet.count_remove p rest data
      rw [SortedSet.count_add]
      simp only [absent, and_false, if_false] at unchanged
      omega
    have moved := waiting_setZset (redis.setZset (.lane lane) rest) p (rest.add data score)
      (lane_ne_dlq lane)
    have current : (redis.setZset (.lane lane) rest).zset (.lane lane) = rest := by simp [setZset]
    simp only [zadd, current] at moved ⊢
    omega
  refine ⟨rfl, rfl, rfl, ?_, ?_, fun p => Nat.le_of_eq (same p), fun p _ => same p⟩
  · simp [zadd, setZset]
  · intro other member listed
    by_cases lanes : other = lane
    · subst lanes
      obtain ⟨entry, placed, rfl⟩ := List.mem_map.mp listed
      simp only [zadd, setZset, Function.update_self, SortedSet.mem_add] at placed
      obtain rfl | ⟨left, -⟩ := placed
      · exact (SortedSet.popMin_mem popped).1
      · exact mem_of_popped popped (List.mem_map_of_mem left)
    · simpa [zadd, setZset, Function.update, lanes] using listed

theorem tryClaim_cases (redis : Redis Member) (lane : Lane) :
    (∃ after, redis.tryClaim lane = (.ok none, after) ∧ Unclaimed redis after) ∨
      ∃ member id after, redis.tryClaim lane = (.ok (some member), after) ∧
        Claimed redis after member id := by
  cases shape : (redis.zset (.lane lane)).popMin with
  | none => exact .inl ⟨redis, by simp [tryClaim, shape], .refl redis⟩
  | some entry =>
    obtain ⟨data, score, rest⟩ := entry
    have lost (p : Member → Bool) := waiting_popped (p := p) shape
    rcases cjson_cases data with decoded | ⟨id, priority, decoded, hasId⟩
    · let popped := redis.setZset (.lane lane) rest
      refine .inl ⟨{ popped with malformed := data :: popped.malformed }, ?_, rfl, rfl, rfl, ?_, ?_,
        ?_, ?_⟩
      · simp only [tryClaim, shape, decoded, popped]
      · simp [popped, setZset]
      · intro other member listed
        by_cases lanes : other = lane
        · subst lanes
          simp only [popped, setZset, Function.update_self] at listed
          exact mem_of_popped shape listed
        · simpa [popped, setZset, Function.update, lanes] using listed
      · intro p
        rw [lost p]
        exact Nat.le_add_right _ _
      · intro p legible
        have other : p data = false := by
          cases holds : p data with
          | false => rfl
          | true => exact absurd decoded (legible lane data (SortedSet.popMin_mem shape).1 holds)
        have counted := lost p
        simp only [other, Bool.false_eq_true, if_false] at counted
        exact counted.symm
    · cases taken : redis.lock id with
      | true =>
        have held : (redis.setZset (.lane lane) rest).lock id = true := taken
        exact .inl ⟨_, by simp only [tryClaim, shape, decoded, held, if_true],
          unclaimed_restored shape⟩
      | false =>
        have free : (redis.setZset (.lane lane) rest).lock id = false := taken
        refine .inr ⟨data, id, _, by simp only [tryClaim, shape, decoded, free]; rfl, ?_⟩
        exact {
          hasId
          free := taken
          processing := rfl
          lock := rfl
          done := rfl
          dlq := by simp [setZset]
          fewer := fun p => Nat.le_of_eq (lost p).symm
          waiting := fun p _ => lost p }

theorem tryClaims_cases (lanes : List Lane) (redis : Redis Member) :
    (∃ after, tryClaims lanes redis = (.ok none, after) ∧ Unclaimed redis after) ∨
      ∃ member id after, tryClaims lanes redis = (.ok (some member), after) ∧
        Claimed redis after member id := by
  induction lanes generalizing redis with
  | nil => exact .inl ⟨redis, rfl, .refl redis⟩
  | cons lane lanes inductionHypothesis =>
    rcases tryClaim_cases redis lane with ⟨middle, tried, unclaimed⟩ | ⟨member, id, after, tried, claimed⟩
    · rcases inductionHypothesis middle with ⟨after, rest, later⟩ | ⟨member, id, after, rest, later⟩
      · exact .inl ⟨after, by simp only [tryClaims, tried, rest], unclaimed.trans later⟩
      · exact .inr ⟨member, id, after, by simp only [tryClaims, tried, rest], unclaimed.claimed later⟩
    · exact .inr ⟨member, id, after, by simp only [tryClaims, tried], claimed⟩

theorem claimScript_cases (redis : Redis Member) :
    (∃ after, redis.claimScript = (.ok none, after) ∧ Unclaimed redis after) ∨
      ∃ member id after, redis.claimScript = (.ok (some member), after) ∧
        Claimed redis after member id :=
  tryClaims_cases [.high, .medium, .low] redis

/-! ## Promoting -/

/-- The script moved records from the delayed set to the lanes; two records that are the same text
become one. -/
structure Promoted (before after : Redis Member) : Prop where
  processing : after.processing = before.processing
  lock : after.lock = before.lock
  done : after.done = before.done
  dlq : after.zset .dlq = before.zset .dlq
  waiting : ∀ p, after.waiting p ≤ before.waiting p
  kept : ∀ p, 0 < before.waiting p → 0 < after.waiting p

theorem Promoted.refl (redis : Redis Member) : Promoted redis redis :=
  ⟨rfl, rfl, rfl, rfl, fun _ => Nat.le_refl _, fun _ positive => positive⟩

theorem Promoted.trans {first second third : Redis Member} (left : Promoted first second)
    (right : Promoted second third) : Promoted first third where
  processing := right.processing.trans left.processing
  lock := right.lock.trans left.lock
  done := right.done.trans left.done
  dlq := right.dlq.trans left.dlq
  waiting := fun p => Nat.le_trans (right.waiting p) (left.waiting p)
  kept := fun p positive => right.kept p (left.kept p positive)

theorem drainItem_promoted {nowMs : Int} {moved : Nat} {data : Member}
    (present : data ∈ (redis.zset .delayed).members) :
    Promoted redis (drainItem nowMs (moved, redis) data).2 := by
  rcases cjson_cases data with decoded | ⟨id, priority, decoded, _⟩
  · simp only [drainItem, decoded]
    exact .refl redis
  · simp only [drainItem, decoded]
    refine ⟨rfl, rfl, rfl, by simp [zadd, zrem, setZset], ?_, ?_⟩
    · intro p
      have removed := waiting_setZset redis p ((redis.zset .delayed).remove data) delayed_ne_dlq
      have counted := SortedSet.count_remove p (redis.zset .delayed) data
      have added := waiting_zadd_le (redis.zrem .delayed data) p (nowMs + moved) data
        (lane_ne_dlq (laneKey (priority.getD 0)))
      simp only [present, and_true] at counted
      simp only [zrem] at added ⊢
      omega
    · intro p positive
      by_cases holds : p data = true
      · exact waiting_zadd_pos _ _ (lane_ne_dlq _) holds
      · have other : p data = false := by simpa using holds
        rw [waiting_zadd_of_not (lane_ne_dlq _) other, waiting_zrem_of_not delayed_ne_dlq other]
        exact positive

theorem drainItem_delayed {nowMs : Int} {moved : Nat} {data other : Member} (different : other ≠ data)
    (present : other ∈ (redis.zset .delayed).members) :
    other ∈ ((drainItem nowMs (moved, redis) data).2.zset .delayed).members := by
  rcases cjson_cases data with decoded | ⟨id, priority, decoded, _⟩
  · simpa only [drainItem, decoded] using present
  · simp only [drainItem, decoded, zadd, zrem, setZset, Function.update]
    simpa using SortedSet.mem_remove.mpr ⟨present, different⟩

theorem drainItems_promoted (nowMs : Int) {items : List Member} (moved : Nat) (redis : Redis Member)
    (distinct : items.Nodup) (present : ∀ data ∈ items, data ∈ (redis.zset .delayed).members) :
    Promoted redis (items.foldl (drainItem nowMs) (moved, redis)).2 := by
  induction items generalizing moved redis with
  | nil => exact .refl redis
  | cons data items inductionHypothesis =>
    obtain ⟨fresh, distinct⟩ := List.nodup_cons.mp distinct
    have first : Promoted redis (drainItem nowMs (moved, redis) data).2 :=
      drainItem_promoted (present data List.mem_cons_self)
    refine first.trans (inductionHypothesis _ _ distinct ?_)
    intro other member
    have different : other ≠ data := fun same => fresh (same ▸ member)
    exact drainItem_delayed different (present other (List.mem_cons_of_mem data member))

theorem drainDelayedScript_promoted (redis : Redis Member) (cutoff : Int) (maxBatch : Nat)
    (nowMs : Int) : Promoted redis (redis.drainDelayedScript cutoff maxBatch nowMs).2 := by
  refine drainItems_promoted nowMs 0 redis ?_ fun data member => SortedSet.rangeByScore_mem member
  exact (redis.zset .delayed).nodup.sublist
    ((List.take_sublist _ _).trans List.filter_sublist |>.map Prod.fst)

end Redis

/-! ## Calls that reach the stores -/

theorem perform_served {env : Env} (stores : Stores) (c : Call) (reachable : env.fails = false) :
    c.served (perform env stores c).1 = true := by
  have performed : perform env stores c = performStore env stores c := by
    simp [perform, reachable]
  rw [performed]
  cases c with
  | cancelJob job =>
    simp only [performStore]
    split <;> rfl
  | claim =>
    obtain ⟨_, script, _⟩ | ⟨_, _, _, script, _⟩ := stores.redis.claimScript_cases <;>
      simp [performStore, script, Stores.claimReply, Call.served, Call.succeeded]
  | _ => rfl

end Taskfire
