import Taskfire.Drain.Lanes
import Taskfire.Model.MemberOrder

/-!
# What `DrainDelayed` moves

The drain script walks over the first due members of the delayed set.  It skips what `cjson` does not
decode to a table, and gives each other member a place in its lane.  The results are stated for members of
any type with decoders and for any contents of the sets.
-/

namespace Taskfire

open Taskfire.Library

variable {M : Type} [Decoding M]

/-! ## Routing -/

/-- The lane the drain script chooses for a member that decodes to a table: the one for its integer
priority, or for 0 where it has none. -/
def destination (member : M) : Option Lane :=
  match Decoding.cjson member with
  | .notTable => none
  | .table _ priority => some (laneKey (priority.getD 0))

/-- `cjson` decodes the member to a table. -/
def decodable (member : M) : Bool := (destination member).isSome

/-- A job is promoted to the lane that `Enqueue` would put it in, if `cjson` reads its record. -/
theorem destination_ofRecord {member : M} {id : JobId} {priority : Priority} {payload : String}
    (decoded : Decoding.cjson member = .ofRecord id priority payload) :
    destination member = if cjsonReads payload then some (laneKey priority) else none := by
  simp only [destination, decoded, Decoded.ofRecord]
  cases cjsonReads payload <;> rfl

namespace Redis

variable [DecidableEq M] [Ord M]

/-! ## The loop -/

/-- `after` is `before` with the members `moved` taken from the delayed set and placed in their lanes
with the scores from `score` on. -/
structure Promotes (before after : Redis M) (moved : List M) (score : Int) : Prop where
  delayed : (after.zset .delayed).entries =
    (before.zset .delayed).entries.filter fun entry => entry.1 ∉ moved
  lanes : ∀ lane entry, entry ∈ after.entries lane ↔
    (∃ position : Nat, moved[position]? = some entry.1 ∧ destination entry.1 = some lane ∧
      entry.2 = score + position) ∨
    (entry ∈ before.entries lane ∧ ¬ (entry.1 ∈ moved ∧ destination entry.1 = some lane))
  dlq : after.zset .dlq = before.zset .dlq
  processing : after.processing = before.processing
  lock : after.lock = before.lock
  done : after.done = before.done
  malformed : after.malformed = before.malformed

omit [Ord M] in
theorem Promotes.refl (redis : Redis M) (score : Int) : Promotes redis redis [] score where
  delayed := by simp
  lanes := by simp
  dlq := rfl
  processing := rfl
  lock := rfl
  done := rfl
  malformed := rfl

/-- One decodable member is moved. -/
theorem promotes_one {redis : Redis M} {data : M} {lane : Lane} {score : Int}
    (routed : destination data = some lane) :
    Promotes redis ((redis.zrem .delayed data).zadd (.lane lane) score data) [data] score where
  delayed := by simp [zadd, zrem, setZset, SortedSet.remove, SortedSet.without]
  lanes := by
    intro other entry
    by_cases same : other = lane
    · subst same
      simp only [entries, zadd, zrem, setZset, Function.update_self, SortedSet.mem_add,
        List.mem_singleton]
      constructor
      · intro present
        obtain new | ⟨old, different⟩ := present
        · subst new
          exact .inl ⟨0, rfl, routed, by simp⟩
        · exact .inr ⟨by simpa using old, fun both => different both.1⟩
      · intro present
        obtain ⟨position, listed, -, scored⟩ | ⟨old, other⟩ := present
        · cases position with
          | zero =>
            refine .inl (Prod.ext ?_ ?_)
            · simpa using listed.symm
            · simpa using scored
          | succ position => simp at listed
        · refine .inr ⟨by simpa using old, fun same => other ⟨same, ?_⟩⟩
          rw [same]
          exact routed
    -- The other lanes are not written.
    · have elsewhere : ¬ destination data = some other := by
        rw [routed]
        exact fun equal => same (Option.some.inj equal).symm
      have unchanged : ((redis.zrem .delayed data).zadd (.lane lane) score data).entries other =
          redis.entries other := by
        simp [entries, zadd, zrem, setZset, same]
      rw [unchanged]
      constructor
      · intro present
        refine .inr ⟨present, fun both => elsewhere ?_⟩
        rw [← List.mem_singleton.mp both.1]
        exact both.2
      · intro present
        obtain ⟨position, listed, routed, -⟩ | ⟨old, -⟩ := present
        · rw [← List.mem_singleton.mp (List.mem_of_getElem? listed)] at elsewhere
          exact absurd routed elsewhere
        · exact old
  dlq := by simp [zadd, zrem, setZset]
  processing := rfl
  lock := rfl
  done := rfl
  malformed := rfl

omit [Ord M] in
/-- Two rounds of the loop, on different members, are one. -/
theorem Promotes.append {before middle after : Redis M} {moved more : List M} {score : Int}
    (distinct : (moved ++ more).Nodup) (left : Promotes before middle moved score)
    (right : Promotes middle after more (score + moved.length)) :
    Promotes before after (moved ++ more) score where
  delayed := by
    rw [right.delayed, left.delayed, List.filter_filter]
    apply List.filter_congr
    intro entry _
    simp [Bool.and_comm]
  lanes := by
    intro lane entry
    have apart : entry.1 ∈ moved → entry.1 ∉ more :=
      fun listed again => List.disjoint_of_nodup_append distinct listed again
    rw [right.lanes, left.lanes]
    constructor
    · intro present
      obtain ⟨position, listed, routed, scored⟩ | ⟨⟨position, listed, routed, scored⟩ | old, other⟩ :=
        present
      -- The positions of the second round go on where those of the first end.
      · refine .inl ⟨moved.length + position, ?_, routed, ?_⟩
        · rw [List.getElem?_append_right (Nat.le_add_right _ _), Nat.add_sub_cancel_left]
          exact listed
        · rw [scored]
          omega
      · refine .inl ⟨position, ?_, routed, scored⟩
        rw [List.getElem?_append_left (List.getElem?_eq_some_iff.mp listed).1]
        exact listed
      · refine .inr ⟨old.1, ?_⟩
        intro both
        obtain ⟨listed, routed⟩ := both
        obtain first | second := List.mem_append.mp listed
        · exact old.2 ⟨first, routed⟩
        · exact other ⟨second, routed⟩
    · intro present
      obtain ⟨position, listed, routed, scored⟩ | ⟨old, other⟩ := present
      · by_cases early : position < moved.length
        · rw [List.getElem?_append_left early] at listed
          refine .inr ⟨.inl ⟨position, listed, routed, scored⟩, ?_⟩
          exact fun both => apart (List.mem_of_getElem? listed) both.1
        · rw [List.getElem?_append_right (Nat.le_of_not_lt early)] at listed
          refine .inl ⟨position - moved.length, listed, routed, ?_⟩
          rw [scored]
          omega
      · refine .inr ⟨.inr ⟨old, fun both => other ?_⟩, fun both => other ?_⟩
        · exact ⟨List.mem_append_left _ both.1, both.2⟩
        · exact ⟨List.mem_append_right _ both.1, both.2⟩
  dlq := right.dlq.trans left.dlq
  processing := right.processing.trans left.processing
  lock := right.lock.trans left.lock
  done := right.done.trans left.done
  malformed := right.malformed.trans left.malformed

theorem drainItem_skips {nowMs : Int} {state : Nat × Redis M} {data : M}
    (skipped : destination data = none) : drainItem nowMs state data = state := by
  unfold destination at skipped
  unfold drainItem
  split
  · rfl
  · next decoded =>
    rw [decoded] at skipped
    cases skipped

theorem drainItem_moves {nowMs : Int} {state : Nat × Redis M} {data : M} {lane : Lane}
    (routed : destination data = some lane) : drainItem nowMs state data =
      (state.1 + 1, (state.2.zrem .delayed data).zadd (.lane lane) (nowMs + state.1) data) := by
  unfold destination at routed
  unfold drainItem
  split
  · next decoded =>
    rw [decoded] at routed
    cases routed
  · next decoded =>
    rw [decoded] at routed
    cases routed
    rfl

theorem drainItems_promotes {nowMs : Int} {items : List M} (distinct : items.Nodup)
    (state : Nat × Redis M) :
    (items.foldl (drainItem nowMs) state).1 = state.1 + (items.filter decodable).length ∧
      Promotes state.2 (items.foldl (drainItem nowMs) state).2 (items.filter decodable)
        (nowMs + state.1) := by
  induction items generalizing state with
  | nil => exact ⟨rfl, .refl _ _⟩
  | cons data items inductionHypothesis =>
    obtain ⟨fresh, rest⟩ := List.nodup_cons.mp distinct
    rw [List.foldl_cons]
    cases routed : destination data with
    | none =>
      -- The reply does not count it, and it stays in the delayed set.
      have skips : decodable data = false := by rw [decodable, routed]; rfl
      rw [drainItem_skips routed, List.filter_cons_of_neg (by simp [skips])]
      exact inductionHypothesis rest state
    | some lane =>
      -- The count so far is the offset of its score.
      have moves : decodable data = true := by rw [decodable, routed]; rfl
      rw [drainItem_moves routed, List.filter_cons_of_pos moves]
      obtain ⟨counted, later⟩ := inductionHypothesis rest
        (state.1 + 1, (state.2.zrem .delayed data).zadd (.lane lane) (nowMs + state.1) data)
      have first : Promotes state.2 _ [data] (nowMs + state.1) := promotes_one routed
      refine ⟨?_, first.append ?_ ?_⟩
      · rw [counted, List.length_cons]
        omega
      · refine List.nodup_cons.mpr ⟨?_, rest.filter _⟩
        exact fun listed => fresh (List.mem_of_mem_filter listed)
      · have next : nowMs + (state.1 : Int) + ([data].length : Int) = nowMs + ((state.1 + 1 : Nat) : Int) := by
          simp
          omega
        rw [next]
        exact later

theorem Ordered.drainItems [Std.TransOrd M] [Std.LawfulEqOrd M] {nowMs : Int} (items : List M)
    {state : Nat × Redis M} (ordered : state.2.Ordered) :
    (items.foldl (drainItem nowMs) state).2.Ordered := by
  induction items generalizing state with
  | nil => exact ordered
  | cons data items inductionHypothesis =>
    rw [List.foldl_cons]
    cases routed : destination data with
    | none =>
      rw [drainItem_skips routed]
      exact inductionHypothesis ordered
    | some lane =>
      rw [drainItem_moves routed]
      exact inductionHypothesis ((ordered.zrem _ _).zadd _ _ _)

/-! ## The script -/

section Script

variable (redis : Redis M) (cutoff : Int) (maxBatch : Nat) (nowMs : Int)

/-- The decodable members among the first `maxBatch` that are due. -/
def promoted : List M := ((redis.zset .delayed).rangeByScore cutoff maxBatch).filter decodable

theorem drainDelayedScript_promotes :
    (redis.drainDelayedScript cutoff maxBatch nowMs).1 = (redis.promoted cutoff maxBatch).length ∧
      Promotes redis (redis.drainDelayedScript cutoff maxBatch nowMs).2
        (redis.promoted cutoff maxBatch) nowMs := by
  have distinct : ((redis.zset .delayed).rangeByScore cutoff maxBatch).Nodup :=
    (redis.zset .delayed).nodup.sublist
      ((List.take_sublist _ _).trans List.filter_sublist |>.map Prod.fst)
  obtain ⟨counted, promotes⟩ := @drainItems_promotes _ _ _ _ nowMs _ distinct (0, redis)
  refine ⟨by simpa [drainDelayedScript, promoted] using counted, ?_⟩
  simpa [drainDelayedScript, promoted] using promotes

variable {redis} in
theorem Ordered.drainDelayedScript [Std.TransOrd M] [Std.LawfulEqOrd M] (ordered : redis.Ordered) :
    (redis.drainDelayedScript cutoff maxBatch nowMs).2.Ordered :=
  Ordered.drainItems _ ordered

end Script

/-- The member is in the delayed set or in a lane. -/
def Queued (redis : Redis M) (member : M) : Prop :=
  member ∈ (redis.zset .delayed).members ∨ ∃ lane, member ∈ (redis.zset (.lane lane)).members

omit [Ord M] in
/-- Members that are moved from the delayed set to their lanes are neither lost nor new. -/
theorem Promotes.queued_iff {before after : Redis M} {moved : List M} {score : Int}
    (promotes : Promotes before after moved score)
    (delayed : ∀ member ∈ moved, member ∈ (before.zset .delayed).members)
    (routed : ∀ member ∈ moved, decodable member = true) (member : M) :
    after.Queued member ↔ before.Queued member := by
  constructor
  · intro queued
    obtain waits | ⟨lane, waits⟩ := queued
    · rw [SortedSet.members, promotes.delayed] at waits
      exact .inl ((List.filter_sublist.map _).subset waits)
    · obtain ⟨entry, present, rfl⟩ := List.mem_map.mp waits
      obtain ⟨position, listed, -⟩ | ⟨old, -⟩ := (promotes.lanes lane entry).mp present
      · exact .inl (delayed _ (List.mem_of_getElem? listed))
      · exact .inr ⟨lane, List.mem_map_of_mem old⟩
  · intro queued
    by_cases taken : member ∈ moved
    -- A lane that already had the member gets its score only.
    · obtain ⟨lane, route⟩ := Option.isSome_iff_exists.mp (routed member taken)
      obtain ⟨position, listed⟩ := List.mem_iff_getElem?.mp taken
      have placed : (member, score + position) ∈ after.entries lane :=
        (promotes.lanes lane _).mpr (.inl ⟨position, listed, route, rfl⟩)
      exact .inr ⟨lane, List.mem_map_of_mem placed⟩
    · obtain waits | ⟨lane, waits⟩ := queued
      · obtain ⟨entry, present, rfl⟩ := List.mem_map.mp waits
        refine .inl ?_
        rw [SortedSet.members, promotes.delayed]
        exact List.mem_map_of_mem (List.mem_filter.mpr ⟨present, by simpa using taken⟩)
      · obtain ⟨entry, present, rfl⟩ := List.mem_map.mp waits
        have kept := (promotes.lanes lane entry).mpr (.inr ⟨present, fun both => taken both.1⟩)
        exact .inr ⟨lane, List.mem_map_of_mem kept⟩

/-! ## Schedule order -/

section Lawful

variable [Std.TransOrd M] [Std.LawfulEqOrd M]

/-- Of two members moved to one lane, the later is still there while the earlier is. -/
theorem Promotes.in_order {before after : Redis M} {moved : List M} {score : Int}
    (promotes : Promotes before after moved score) {lane : Lane}
    (sorted : (after.zset (.lane lane)).Sorted) {first second : Nat} {earlier later : M}
    (less : first < second) (listed : moved[first]? = some earlier)
    (behind : moved[second]? = some later) (routed : destination earlier = some lane)
    (same : destination later = some lane) {calls : Nat}
    (waits : earlier ∈ ((after.dequeues calls).zset (.lane lane)).members) :
    later ∈ ((after.dequeues calls).zset (.lane lane)).members := by
  have placed : (earlier, score + first) ∈ after.entries lane :=
    (promotes.lanes lane _).mpr (.inl ⟨first, listed, routed, rfl⟩)
  have placedBehind : (later, score + second) ∈ after.entries lane :=
    (promotes.lanes lane _).mpr (.inl ⟨second, behind, same, rfl⟩)
  have before : SortedSet.precedes (earlier, score + first) (later, score + second) = true :=
    SortedSet.precedes_of_score (by simp only; omega)
  obtain ⟨entry, present, rfl⟩ := List.mem_map.mp waits
  -- The entry that waits is the one that was placed: a set holds a member once.
  have own : entry = (entry.1, score + first) :=
    List.inj_on_of_nodup_map (after.zset (.lane lane)).nodup (dequeues_subset after lane present) placed rfl
  rw [own] at present
  exact List.mem_map_of_mem (dequeues_in_order sorted placedBehind before present)

/-- One call of the drain script: the reply counts the members that are moved, which are the
decodable ones of the first due entries, and jobs of one lane leave it in schedule order. -/
structure DrainsBatch (redis : Redis M) (batch : List (M × Int)) (nowMs : Int) (moved : Nat)
    (after : Redis M) : Prop where
  counted : moved = ((batch.map Prod.fst).filter decodable).length
  promotes : Promotes redis after ((batch.map Prod.fst).filter decodable) nowMs
  conserved : ∀ member, after.Queued member ↔ redis.Queued member
  inOrder : ∀ earlier ∈ batch, ∀ later ∈ batch, SortedSet.precedes earlier later = true →
    ∀ lane, destination earlier.1 = some lane → destination later.1 = some lane → ∀ calls,
      earlier.1 ∈ ((after.dequeues calls).zset (.lane lane)).members →
      later.1 ∈ ((after.dequeues calls).zset (.lane lane)).members

theorem drainDelayedScript_drains {redis : Redis M} (ordered : redis.Ordered) (cutoff : Int)
    (maxBatch : Nat) (nowMs : Int) :
    ∃ batch, SortedSet.FirstDue (redis.zset .delayed) cutoff maxBatch batch ∧
      DrainsBatch redis batch nowMs (redis.drainDelayedScript cutoff maxBatch nowMs).1
        (redis.drainDelayedScript cutoff maxBatch nowMs).2 := by
  obtain ⟨batch, range, due⟩ := (ordered .delayed).rangeByScore cutoff maxBatch
  obtain ⟨counted, promotes⟩ := redis.drainDelayedScript_promotes cutoff maxBatch nowMs
  rw [promoted, range] at counted promotes
  refine ⟨batch, due, counted, promotes, promotes.queued_iff ?_ ?_, ?_⟩
  · intro member listed
    obtain ⟨entry, inBatch, rfl⟩ := List.mem_map.mp (List.mem_of_mem_filter listed)
    exact List.mem_map_of_mem (due.due entry inBatch).1
  · exact fun member listed => (List.mem_filter.mp listed).2
  · intro earlier inBatch later laterInBatch before lane routed same calls
    have sorted := (ordered.drainDelayedScript cutoff maxBatch nowMs) (.lane lane)
    -- The members that are moved stand in the order of their entries.
    have kept := due.ordered.sublist (@List.filter_sublist _ (fun entry => decodable entry.1) batch)
    have inKept {entry : M × Int} (listed : entry ∈ batch) (route : destination entry.1 = some lane) :
        entry ∈ batch.filter fun entry => decodable entry.1 :=
      List.mem_filter.mpr ⟨listed, by simp [decodable, route]⟩
    obtain ⟨first, second, less, listed, behind⟩ := SortedSet.positions_of_precedes kept
      (inKept inBatch routed) (inKept laterInBatch same) before
    have moved : (batch.map Prod.fst).filter decodable =
        (batch.filter fun entry => decodable entry.1).map Prod.fst := List.filter_map
    rw [moved] at promotes
    exact promotes.in_order sorted less (by simp [listed]) (by simp [behind]) routed same

end Lawful

end Redis

/-- Two jobs and a text that is none, due at the same second. -/
def scheduled : Redis Member :=
  ((Redis.empty.zadd .delayed 10 Job.plain.marshal).zadd .delayed 10 (.text "null")).zadd
    .delayed 9 { Job.plain with id := "k" }.marshal

theorem scheduled_ordered : scheduled.Ordered :=
  ((Redis.empty_ordered.zadd _ _ _).zadd _ _ _).zadd _ _ _

theorem drains_scheduled : ∃ batch,
    SortedSet.FirstDue (scheduled.zset .delayed) 10 2 batch ∧
      Redis.DrainsBatch scheduled batch 0 (scheduled.drainDelayedScript 10 2 0).1
        (scheduled.drainDelayedScript 10 2 0).2 :=
  Redis.drainDelayedScript_drains scheduled_ordered 10 2 0

/-! ## The program -/

/-- Run alone, `drainDelayed` returns what the script counts and leaves what it leaves. -/
theorem drainDelayed_performs (stores : Stores) (now : Time) (maxBatch : Nat) :
    (drainDelayed now maxBatch).wp perform (fun _ env => env.fails = false)
      (fun outcome last => ∃ nowMs,
        outcome = .ok (stores.redis.drainDelayedScript now.unixSeconds maxBatch nowMs).1 ∧
        last = { stores with
          redis := (stores.redis.drainDelayedScript now.unixSeconds maxBatch nowMs).2 }) stores := by
  simp only [drainDelayed, Program.perform_bind, Program.wp_call]
  intro env fails
  simp only [perform, fails, performStore]
  exact ⟨env.now.unixMilli, rfl, rfl⟩

/-! ## Runs -/

theorem Stores.applyCommand_ordered {stores : Stores} (ordered : stores.redis.Ordered)
    (command : Command) : (stores.applyCommand command).redis.Ordered := by
  cases command with
  | zadd key score member => exact ordered.zadd key score member
  | zrem key member => exact ordered.zrem key member
  | _ => exact ordered

theorem perform_ordered {stores : Stores} (ordered : stores.redis.Ordered) (env : Env) (c : Call) :
    (perform env stores c).2.redis.Ordered := by
  obtain ⟨reply, -, -, failed⟩ | performed := perform_cases env stores c
  · rw [failed]
    exact ordered
  · rw [performed]
    cases c with
    | command command => exact stores.applyCommand_ordered ordered command
    | claim => exact ordered.claimScript
    | drainDelayed cutoff maxBatch => exact ordered.drainDelayedScript cutoff maxBatch _
    | cancelJob id =>
      simp only [performStore]
      split <;> exact ordered
    | awaitHandler job =>
      simp only [performStore]
      split <;> exact ordered
    | _ => exact ordered

/-- The sets of every state that is reached are ordered. -/
theorem ordered_reachable {proc : Processor} {runs : SystemState → SystemAction → Prop}
    {last : SystemState} (run : (taskfire proc).Run runs (beginning proc) last) :
    last.store.redis.Ordered := by
  apply run.invariant (fun state => state.store.redis.Ordered) Redis.empty_ordered
  intro before action after ordered _ stepped
  obtain same | ⟨lock, ticked⟩ | ⟨thread, env, c, next, -, -, moved⟩ := Machine.step_store stepped
  · rw [same]
    exact ordered
  · rw [ticked]
    exact ordered
  · rw [moved]
    exact perform_ordered ordered env c

end Taskfire
