import Taskfire.Drain.Lanes
import Taskfire.Lifecycle.Whereabouts

/-!
# The copy of a record

While nobody retries it by hand a job has at most one record, and a worker that holds it has the only
one.  A `Place` says where the record is and what it carries; each command of the worker moves it from
one place to another.  The counts of `Places` are used for every property that only records of the job
have, so that they fix the record and not only its number.
-/

namespace Taskfire

open Taskfire.Library

/-! ## Places -/

inductive Place where
  /-- No set and no list has a record of the job. -/
  | nowhere
  | lane (member : Member)
  | delayed (member : Member)
  | dead (member : Member)
  /-- Among the entries of the done list that a trim keeps. -/
  | done (member : Member)

namespace Place

def of : ZKey → Member → Place
  | .lane _, member => .lane member
  | .delayed, member => .delayed member
  | .dlq, member => .dead member

/-- The record in a lane, in the delayed set or in the dead-letter set. -/
def copy : Place → Option Member
  | .lane member | .delayed member | .dead member => some member
  | .nowhere | .done _ => none

/-- The record in a lane or in the delayed set. -/
def waiting : Place → Option Member
  | .lane member | .delayed member => some member
  | _ => none

def putOff : Place → Option Member
  | .delayed member => some member
  | _ => none

def letter : Place → Option Member
  | .dead member => some member
  | _ => none

end Place

/-- How many of at most one records have the property. -/
def one (p : Member → Bool) (record : Option Member) : Nat := if record.any p then 1 else 0

@[simp] theorem one_none (p : Member → Bool) : one p none = 0 := rfl

@[simp] theorem one_some (p : Member → Bool) (member : Member) :
    one p (some member) = if p member = true then 1 else 0 := rfl

theorem one_same_pos {member : Member} {record : Option Member} :
    0 < one (fun other => other = member) record ↔ record = some member := by
  cases record with
  | none => simp
  | some other => by_cases same : other = member <;> simp [same]

/-- A property that only records of the job have. -/
def Within (id : JobId) (p : Member → Bool) : Prop := ∀ member, p member = true → member.isOf id = true

theorem within_isOf (id : JobId) : Within id (Member.isOf id) := fun _ holds => holds

theorem within_same {id : JobId} {member : Member} (own : member.isOf id = true) :
    Within id fun other => other = member := by
  intro other same
  rw [of_decide_eq_true same]
  exact own

/-- The record of the job is in the place, and the sets have no other. -/
structure Lies (id : JobId) (place : Place) (redis : Redis Member) : Prop where
  waiting : ∀ p, Within id p → redis.waiting p = one p place.waiting
  putOff : ∀ p, Within id p → (redis.zset .delayed).count p = one p place.putOff
  letters : ∀ p, Within id p → redis.letters p = one p place.letter

/-- The records of job `id` are left as they are. -/
def Aside (id : JobId) (before after : Redis Member) : Prop :=
  ∀ key, (after.zset key).members.filter (Member.isOf id) =
    (before.zset key).members.filter (Member.isOf id)

section

variable {id : JobId} {place : Place} {redis after : Redis Member} {member : Member}

/-- Every copy of the job is the one in its place. -/
theorem Lies.copy (lies : Lies id place redis) {key : ZKey}
    (listed : member ∈ (redis.zset key).members) (own : member.isOf id = true) :
    place.copy = some member := by
  have positive : 0 < (redis.zset key).count fun other => other = member :=
    List.countP_pos_iff.mpr ⟨member, listed, by simp⟩
  have waits := lies.waiting _ (within_same own)
  have dead := lies.letters _ (within_same own)
  have found : place.waiting = some member ∨ place.letter = some member := by
    rw [← one_same_pos, ← one_same_pos, ← waits, ← dead]
    simp only [Redis.waiting, Redis.letters]
    cases key with
    | lane lane => cases lane <;> omega
    | delayed => omega
    | dlq => omega
  obtain waits | dead := found
  · cases place <;> first | exact waits | cases waits
  · cases place <;> first | exact dead | cases dead

/-- What the lanes and the delayed set hold is the one record that waits. -/
theorem Lies.waits_at (lies : Lies id place redis) (own : member.isOf id = true)
    (waits : 0 < redis.waiting fun other => other = member) : place.waiting = some member := by
  rw [← one_same_pos, ← lies.waiting _ (within_same own)]
  exact waits

/-- A record in a lane is the one that is there. -/
theorem Lies.lane (lies : Lies id place redis) {lane : Lane}
    (listed : member ∈ (redis.zset (.lane lane)).members) (own : member.isOf id = true) :
    place = .lane member := by
  have present : 0 < (redis.zset (.lane lane)).count fun other => other = member :=
    List.countP_pos_iff.mpr ⟨member, listed, by simp⟩
  have waits : place.waiting = some member := by
    refine lies.waits_at own ?_
    simp only [Redis.waiting]
    cases lane <;> omega
  cases place with
  | lane other =>
    cases waits
    rfl
  | delayed other =>
    -- It would be in two sets.
    cases waits
    have whole := lies.waiting _ (within_same own)
    have part := lies.putOff _ (within_same own)
    simp only [Redis.waiting, Place.waiting, Place.putOff] at whole part
    cases lane <;> omega
  | nowhere | dead | done => cases waits

/-- Places only depend on the records of the job. -/
theorem Lies.aside (lies : Lies id place redis)
    (aside : Aside id redis after) : Lies id place after := by
  have count (p : Member → Bool) (within : Within id p) (key : ZKey) :
      (after.zset key).count p = (redis.zset key).count p := by
    have own (members : List Member) : members.countP p = (members.filter (Member.isOf id)).countP p := by
      rw [List.countP_filter]
      apply List.countP_congr
      intro member _
      have sure := within member
      cases holds : p member <;> simp_all
    have left := own (after.zset key).members
    rw [aside key, ← own] at left
    exact left
  refine ⟨fun p within => ?_, fun p within => ?_, fun p within => ?_⟩
  · rw [← lies.waiting p within]
    simp only [Redis.waiting, count p within]
  · rw [count p within]
    exact lies.putOff p within
  · rw [← lies.letters p within]
    exact count p within .dlq

/-! ## Commands -/

theorem count_zadd_same (redis : Redis Member) (key : ZKey) (score : Int) (p : Member → Bool)
    (empty : (redis.zset key).count p = 0) :
    ((redis.zadd key score member).zset key).count p = one p (some member) := by
  have upper := SortedSet.count_add_le p (redis.zset key) member score
  simp only [Redis.zadd, Redis.setZset, Function.update_self, one_some]
  by_cases holds : p member = true
  · have positive := SortedSet.count_add_pos (redis.zset key) score holds
    rw [if_pos holds] at upper ⊢
    omega
  · rw [if_neg holds] at upper ⊢
    omega

theorem zset_zadd_other (redis : Redis Member) {key other : ZKey} (score : Int)
    (different : other ≠ key) : (redis.zadd key score member).zset other = redis.zset other :=
  Function.update_of_ne different _ _

/-- The record joins the lanes and the delayed set. -/
theorem waiting_zadd_same (redis : Redis Member) {key : ZKey} (score : Int) (p : Member → Bool)
    (lane : key ≠ .dlq) (empty : redis.waiting p = 0) :
    (redis.zadd key score member).waiting p = one p (some member) := by
  have upper := Redis.waiting_zadd_le redis p score member lane
  simp only [one_some]
  by_cases holds : p member = true
  · have positive := Redis.waiting_zadd_pos redis score lane holds
    rw [if_pos holds] at upper ⊢
    omega
  · rw [if_neg holds] at upper ⊢
    omega

theorem Lies.zadd (lies : Lies id .nowhere redis) (key : ZKey) (score : Int) (member : Member) :
    Lies id (.of key member) (redis.zadd key score member) := by
  cases key with
  | lane lane =>
    refine ⟨fun p within => ?_, fun p within => ?_, fun p within => ?_⟩
    · exact waiting_zadd_same redis score p (Redis.lane_ne_dlq lane) (lies.waiting p within)
    · rw [zset_zadd_other redis score (by simp)]
      exact lies.putOff p within
    · rw [Redis.letters_zadd_of_lane (Redis.lane_ne_dlq lane)]
      exact lies.letters p within
  | delayed =>
    refine ⟨fun p within => ?_, fun p within => ?_, fun p within => ?_⟩
    · exact waiting_zadd_same redis score p Redis.delayed_ne_dlq (lies.waiting p within)
    · exact count_zadd_same redis .delayed score p (lies.putOff p within)
    · rw [Redis.letters_zadd_of_lane Redis.delayed_ne_dlq]
      exact lies.letters p within
  | dlq =>
    refine ⟨fun p within => ?_, fun p within => ?_, fun p within => ?_⟩
    · rw [Redis.waiting_zadd_dlq]
      exact lies.waiting p within
    · rw [zset_zadd_other redis score (by simp)]
      exact lies.putOff p within
    · exact count_zadd_same redis .dlq score p (lies.letters p within)

/-! ## Scripts -/

/-- A call that claims nothing leaves a record that `cjson` reads where it is. -/
theorem Lies.unclaimed_legible (lies : Lies id place redis) (unclaimed : Redis.Unclaimed redis after)
    (delayed : after.zset .delayed = redis.zset .delayed)
    (legible : ∀ member, place = .lane member → Decoding.cjson member ≠ .notTable) :
    Lies id place after := by
  have reads : redis.Legible (Member.isOf id) := fun lane member listed own =>
    legible member (lies.lane listed own)
  refine ⟨fun p within => ?_, fun p within => ?_, fun p within => ?_⟩
  · rw [unclaimed.waiting p (reads.mono within)]
    exact lies.waiting p within
  · rw [delayed]
    exact lies.putOff p within
  · rw [Redis.letters, unclaimed.dlq]
    exact lies.letters p within

/-- It may drop one that `cjson` does not read. -/
theorem Lies.unclaimed (lies : Lies id place redis) (unclaimed : Redis.Unclaimed redis after)
    (delayed : after.zset .delayed = redis.zset .delayed) :
    Lies id place after ∨ (∃ member, place = .lane member) ∧ Lies id .nowhere after := by
  by_cases legible : ∀ member, place = .lane member → Decoding.cjson member ≠ .notTable
  · exact .inl (lies.unclaimed_legible unclaimed delayed legible)
  simp only [not_forall] at legible
  obtain ⟨member, rfl, -⟩ := legible
  have notPutOff (p : Member → Bool) (within : Within id p) : (after.zset .delayed).count p = 0 := by
    rw [delayed]
    exact lies.putOff p within
  have letters (p : Member → Bool) (within : Within id p) : after.letters p = 0 := by
    rw [Redis.letters, unclaimed.dlq]
    exact lies.letters p within
  by_cases stays : ∃ lane, member ∈ (after.zset (.lane lane)).members
  · obtain ⟨lane, listed⟩ := stays
    refine .inl ⟨fun p within => ?_, notPutOff, letters⟩
    have before := lies.waiting p within
    have fewer := unclaimed.fewer p
    simp only [Place.waiting, one_some] at before ⊢
    by_cases holds : p member = true
    · have present : 0 < (after.zset (.lane lane)).count p :=
        List.countP_pos_iff.mpr ⟨member, listed, holds⟩
      rw [if_pos holds] at before ⊢
      simp only [Redis.waiting] at before fewer ⊢
      cases lane <;> omega
    · rw [if_neg holds] at before ⊢
      omega
  -- Another record of the job was in no lane before.
  · refine .inr ⟨⟨member, rfl⟩, fun p within => ?_, notPutOff, letters⟩
    have gone (lane : Lane) : (after.zset (.lane lane)).count p = 0 := by
      refine List.countP_eq_zero.mpr fun other listed holds => stays ⟨lane, ?_⟩
      cases lies.lane (unclaimed.lanes lane other listed) (within other holds)
      exact listed
    simp only [Redis.waiting, gone, notPutOff p within]
    rfl

/-- A record that was claimed was in a lane, and it was the only one. -/
theorem Lies.claimed (lies : Lies id place redis) (claimed : Redis.Claimed redis after member id)
    (delayed : after.zset .delayed = redis.zset .delayed) :
    place = .lane member ∧ Lies id .nowhere after := by
  have own : member.isOf id = true := Member.isOf_iff.mpr claimed.hasId
  have same : place.waiting = some member := by
    have taken := claimed.fewer fun other => other = member
    refine lies.waits_at own ?_
    simp only [decide_true, if_true] at taken
    omega
  have empty (p : Member → Bool) (within : Within id p) : after.waiting p = 0 := by
    have before := lies.waiting p within
    have moved := claimed.fewer p
    rw [same, one_some] at before
    omega
  -- The claim takes the only record, and it does not touch the delayed set.
  have notPutOff (p : Member → Bool) (within : Within id p) : (redis.zset .delayed).count p = 0 := by
    have none := empty p within
    rw [← delayed]
    simp only [Redis.waiting] at none
    omega
  have lane : place = .lane member := by
    cases place with
    | lane other =>
      cases same
      rfl
    | delayed other =>
      have one := lies.putOff _ (within_isOf id)
      rw [notPutOff _ (within_isOf id)] at one
      cases same
      simp [Place.putOff, Member.isOf_iff.mp own] at one
    | nowhere | dead | done => cases same
  subst lane
  refine ⟨rfl, empty, fun p within => ?_, fun p within => ?_⟩
  · rw [delayed]
    exact notPutOff p within
  · rw [Redis.letters, claimed.dlq]
    exact lies.letters p within

theorem drainItems_putOff (nowMs : Int) (p : Member → Bool) (items : List Member) (moved : Nat)
    (redis : Redis Member) :
    ((items.foldl (Redis.drainItem nowMs) (moved, redis)).2.zset .delayed).count p ≤
      (redis.zset .delayed).count p := by
  induction items generalizing moved redis with
  | nil => exact Nat.le_refl _
  | cons data items inductionHypothesis =>
    refine Nat.le_trans (inductionHypothesis _ _) ?_
    obtain decoded | ⟨_, priority, decoded, -⟩ := Redis.cjson_cases data <;>
      simp only [decoded]
    · exact Nat.le_refl _
    · rw [zset_zadd_other _ _ (by simp)]
      simpa [Redis.zrem, Redis.setZset] using SortedSet.count_remove_le p (redis.zset .delayed) data

/-- A promotion leaves the record where it is, or moves it from the delayed set to a lane. -/
theorem Lies.promoted (lies : Lies id place redis) (promoted : Redis.Promoted redis after)
    (fewer : ∀ p, (after.zset .delayed).count p ≤ (redis.zset .delayed).count p) :
    Lies id place after ∨ ∃ member, place = .delayed member ∧ Lies id (.lane member) after := by
  have waiting (p : Member → Bool) (within : Within id p) : after.waiting p = one p place.waiting := by
    have before := lies.waiting p within
    have upper := promoted.waiting p
    have kept := promoted.kept p
    have small : one p place.waiting ≤ 1 := by
      simp only [one]
      split <;> omega
    omega
  have letters (p : Member → Bool) (within : Within id p) : after.letters p = one p place.letter := by
    rw [Redis.letters, promoted.dlq]
    exact lies.letters p within
  have noneLeft (p : Member → Bool) (within : Within id p) (none : place.putOff = none) :
      (after.zset .delayed).count p = 0 := by
    have before := lies.putOff p within
    have less := fewer p
    rw [none, one_none] at before
    omega
  have part (p : Member → Bool) : (after.zset .delayed).count p ≤ after.waiting p := by
    simp only [Redis.waiting]
    omega
  cases place with
  | delayed member =>
    by_cases left : 0 < (after.zset .delayed).count (Member.isOf id)
    · -- The one that is left is the record, because no other waits.
      obtain ⟨other, listed, own⟩ := List.countP_pos_iff.mp left
      have positive : 0 < (after.zset .delayed).count fun found => found = other :=
        List.countP_pos_iff.mpr ⟨other, listed, by simp⟩
      have same : Place.waiting (.delayed member) = some other := by
        rw [← one_same_pos, ← waiting _ (within_same own)]
        exact Nat.lt_of_lt_of_le positive (part _)
      cases same
      refine .inl ⟨waiting, fun p within => ?_, letters⟩
      have all := waiting p within
      have upper := part p
      simp only [Place.waiting, Place.putOff, one_some] at all ⊢
      by_cases holds : p member = true
      · have present : 0 < (after.zset .delayed).count p :=
          List.countP_pos_iff.mpr ⟨member, listed, holds⟩
        rw [if_pos holds] at all ⊢
        omega
      · rw [if_neg holds] at all ⊢
        omega
    -- It has left the delayed set, and it still waits.
    · refine .inr ⟨member, rfl, waiting, fun p within => ?_, letters⟩
      have upper := SortedSet.count_mono (after.zset .delayed) within
      simp only [Place.putOff, one_none]
      omega
  | nowhere | lane | dead | done =>
    exact .inl ⟨waiting, fun p within => noneLeft p within rfl, letters⟩

end

end Taskfire
