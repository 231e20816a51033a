import Taskfire.Drain.Promote

/-!
# When a delayed job is promoted

Both encoders score a delayed job by the second of its scheduled time, rounded down, and the drain
script compares the score with the second of the poll.  So a poll in the second of the scheduled
time promotes the job even if it comes before that time.
-/

namespace Taskfire

open Taskfire.Library

/-- The member was in the delayed set and is in a lane now. -/
def Moved (before after : Stores) (data : Member) : Prop :=
  data ∈ (before.redis.zset .delayed).members ∧ data ∉ (after.redis.zset .delayed).members ∧
    ∃ lane, data ∈ (after.redis.zset (.lane lane)).members

/-- `put` leaves a record in the delayed set which, as long as its entry is there, no call of
`DrainDelayed` at `now` moves, if `now` is earlier than `scheduledAt`. -/
def NotBefore {α : Type} (put : Prog α) (data : Member) (scheduledAt now : Time) : Prop :=
  ∀ stores, put.wp perform (fun _ env => env.fails = false) (fun _ written =>
    ∃ score, (data, score) ∈ (written.redis.zset .delayed).entries ∧
      ∀ later : Stores, (data, score) ∈ (later.redis.zset .delayed).entries → now < scheduledAt →
        ∀ maxBatch, (drainDelayed now maxBatch).wp perform (fun _ env => env.fails = false)
          (fun _ last => ¬ Moved later last data) later) stores

/-- The record `EnqueueDelayed` writes. -/
def Job.delayedUntil (job : Job) (scheduledAt : Time) : Member :=
  { job with scheduledAt := some scheduledAt, status := .pending }.marshal

/-- The record `enqueueDelayed` of the API writes. -/
def EnqueuePayload.delayedUntil (payload : EnqueuePayload) (scheduledAt : Time) : Member :=
  { payload with scheduledAt := some (some scheduledAt), status := .pending }.stringify

/-! ## One call -/

/-- A member with a score above the cutoff is not moved. -/
theorem not_moved {stores last : Stores} {data : Member} {score cutoff : Int} {maxBatch : Nat}
    {nowMs : Int} (present : (data, score) ∈ (stores.redis.zset .delayed).entries)
    (above : cutoff < score)
    (drained : last.redis = (stores.redis.drainDelayedScript cutoff maxBatch nowMs).2) :
    ¬ Moved stores last data := by
  intro moved
  apply moved.2.1
  rw [SortedSet.members, drained, (stores.redis.drainDelayedScript_promotes _ _ _).2.delayed]
  have kept : (data, score) ∈ (stores.redis.zset .delayed).entries.filter fun entry =>
      entry.1 ∉ stores.redis.promoted cutoff maxBatch := by
    rw [List.mem_filter, decide_eq_true_eq]
    refine ⟨present, ?_⟩
    intro promoted
    -- The set holds the member once, so its score is the one that is due.
    obtain ⟨entry, taken, same⟩ := List.mem_map.mp (List.mem_of_mem_filter promoted)
    have listed := List.mem_filter.mp (List.mem_of_mem_take taken)
    have own : entry = (data, score) :=
      List.inj_on_of_nodup_map (stores.redis.zset .delayed).nodup listed.1 present same
    rw [own] at listed
    have due : score ≤ cutoff := by simpa using listed.2
    omega
  exact List.mem_map_of_mem kept

/-- A member that `cjson` does not read is not moved. -/
theorem not_moved_of_unread {stores last : Stores} {data : Member} {cutoff : Int} {maxBatch : Nat}
    {nowMs : Int} (unread : destination data = none)
    (drained : last.redis = (stores.redis.drainDelayedScript cutoff maxBatch nowMs).2) :
    ¬ Moved stores last data := by
  intro moved
  obtain ⟨waits, gone, -⟩ := moved
  obtain ⟨entry, present, rfl⟩ := List.mem_map.mp waits
  apply gone
  rw [SortedSet.members, drained, (stores.redis.drainDelayedScript_promotes _ _ _).2.delayed]
  refine List.mem_map_of_mem (List.mem_filter.mpr ⟨present, ?_⟩)
  rw [decide_eq_true_eq]
  intro promoted
  have read := (List.mem_filter.mp promoted).2
  simp [decodable, unread] at read

/-- The only member of the delayed set is moved when its score is due. -/
theorem moved_alone {stores last : Stores} {data : Member} {lane : Lane} {score cutoff : Int}
    {nowMs : Int} (alone : (stores.redis.zset .delayed).entries = [(data, score)])
    (routed : destination data = some lane) (due : score ≤ cutoff)
    (drained : last.redis = (stores.redis.drainDelayedScript cutoff 1 nowMs).2) :
    Moved stores last data := by
  obtain ⟨-, promotes⟩ := stores.redis.drainDelayedScript_promotes cutoff 1 nowMs
  have one : stores.redis.promoted cutoff 1 = [data] := by
    simp [Redis.promoted, SortedSet.rangeByScore, alone, due, decodable, routed]
  rw [one, ← drained] at promotes
  refine ⟨by simp [SortedSet.members, alone], ?_, lane, ?_⟩
  · simp [SortedSet.members, promotes.delayed, alone]
  · have placed : (data, nowMs) ∈ last.redis.entries lane :=
      (promotes.lanes lane _).mpr (.inl ⟨0, rfl, routed, by simp⟩)
    exact List.mem_map_of_mem placed

/-! ## The two encoders -/

/-- A program that puts a record with a payload in the delayed set, with the second of `scheduledAt`
as score. -/
structure Delays {α : Type} (put : Prog α) (data : Member) (payload : String) (scheduledAt : Time) :
    Prop where
  writes : ∀ stores, put.wp perform (fun _ env => env.fails = false) (fun _ written =>
    written.redis = stores.redis.zadd .delayed scheduledAt.unixSeconds data) stores
  routed : ∃ lane, destination data = if cjsonReads payload then some lane else none

theorem enqueueDelayed_delays (job : Job) (scheduledAt : Time) :
    Delays (enqueueDelayed job scheduledAt) (job.delayedUntil scheduledAt) job.payload
      scheduledAt where
  writes := by
    intro stores env fails
    simp only [perform, fails, performStore]
    rfl
  routed := ⟨_, destination_ofRecord rfl⟩

theorem apiEnqueueDelayed_delays (payload : EnqueuePayload) (scheduledAt : Time) :
    Delays (Api.enqueueDelayed payload scheduledAt) (payload.delayedUntil scheduledAt)
      payload.payload scheduledAt where
  writes := by
    intro stores env fails
    simp only [perform, fails, performStore]
    rfl
  routed := ⟨_, destination_ofRecord rfl⟩

theorem served_exists (c : Call) : ∃ env : Env, (fun (_ : Call) env => env.fails = false) c env :=
  ⟨Env.calm "", rfl⟩

/-- Rounded down to a second, an earlier time is due unless it lies before the second. -/
theorem unixSeconds_lt_iff {now scheduledAt : Time} :
    now.unixSeconds < scheduledAt.unixSeconds ↔ now < scheduledAt - scheduledAt % second := by
  have rounds (a b : Int) : a / 1000000000 < b / 1000000000 ↔ a < b - b % 1000000000 := by omega
  exact rounds now scheduledAt

theorem Delays.notBefore_iff {α : Type} {put : Prog α} {data : Member} {payload : String}
    {scheduledAt : Time} (delays : Delays put data payload scheduledAt) (now : Time) :
    NotBefore put data scheduledAt now ↔
      (cjsonReads payload = true → now < scheduledAt →
        now < scheduledAt - scheduledAt % second) := by
  obtain ⟨lane, routed⟩ := delays.routed
  rw [← unixSeconds_lt_iff]
  constructor
  · intro notBefore reads early
    rw [if_pos reads] at routed
    obtain ⟨_, written, ⟨score, present, stays⟩, wrote⟩ := Program.wp_ends served_exists
      (Program.wp_and (notBefore Stores.empty) (delays.writes Stores.empty))
    have alone : (written.redis.zset .delayed).entries = [(data, scheduledAt.unixSeconds)] := by
      rw [wrote]
      rfl
    obtain ⟨_, last, unmoved, nowMs, -, drained⟩ := Program.wp_ends served_exists
      (Program.wp_and (stays written present early 1) (drainDelayed_performs written now 1))
    apply Int.not_le.mp
    intro due
    exact unmoved (moved_alone alone routed due (by rw [drained]))
  · intro apart stores
    apply Program.wp_mono (delays.writes stores)
    intro _ written wrote
    refine ⟨scheduledAt.unixSeconds, ?_, ?_⟩
    · rw [wrote]
      simp [Redis.zadd, Redis.setZset]
    · intro later present early maxBatch
      apply Program.wp_mono (drainDelayed_performs later now maxBatch)
      intro _ last ends
      obtain ⟨nowMs, -, drained⟩ := ends
      by_cases reads : cjsonReads payload = true
      · exact not_moved present (apart reads early) (by rw [drained])
      · rw [if_neg reads] at routed
        exact not_moved_of_unread routed (by rw [drained])

/-- A poll before the scheduled time leaves the job alone unless it comes in the second of that
time, for a job of the worker and for one of the API.  A record that `cjson` does not read is left
alone by every poll. -/
theorem delayed_not_before_iff (job : Job) (payload : EnqueuePayload) (scheduledAt now : Time) :
    (NotBefore (enqueueDelayed job scheduledAt) (job.delayedUntil scheduledAt) scheduledAt now ↔
      (cjsonReads job.payload = true → now < scheduledAt →
        now < scheduledAt - scheduledAt % second)) ∧
    (NotBefore (Api.enqueueDelayed payload scheduledAt) (payload.delayedUntil scheduledAt)
        scheduledAt now ↔
      (cjsonReads payload.payload = true → now < scheduledAt →
        now < scheduledAt - scheduledAt % second)) :=
  ⟨(enqueueDelayed_delays job scheduledAt).notBefore_iff now,
    (apiEnqueueDelayed_delays payload scheduledAt).notBefore_iff now⟩

/-- A job for 10.9 s is promoted at 10.1 s. -/
theorem promoted_early : ¬ NotBefore (enqueueDelayed Job.plain 10900000000)
    (Job.plain.delayedUntil 10900000000) 10900000000 10100000000 := by
  rw [(enqueueDelayed_delays Job.plain 10900000000).notBefore_iff]
  decide

/-- A job that `cjson` reads is never promoted early exactly when it is scheduled for a whole
second. -/
theorem Delays.never_early_iff {α : Type} {put : Prog α} {data : Member} {payload : String}
    {scheduledAt : Time} (delays : Delays put data payload scheduledAt)
    (reads : cjsonReads payload = true) :
    (∀ now, NotBefore put data scheduledAt now) ↔ scheduledAt % second = 0 := by
  have rounds (a : Int) : (∀ b : Int, b < a → b < a - a % 1000000000) ↔ a % 1000000000 = 0 := by
    constructor
    · intro always
      have rounded := always (a - a % 1000000000)
      omega
    · intro whole b early
      omega
  simp only [delays.notBefore_iff, reads, true_imp_iff]
  exact rounds scheduledAt

end Taskfire
