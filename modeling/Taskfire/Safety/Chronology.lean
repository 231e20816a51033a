import Taskfire.Library.Rounding
import Taskfire.Model.DeadLetters

/-!
# The order of the dead letters

Jobs are moved to the dead-letter set one after the other, each with the nanoseconds of the clock as
its score, which Redis keeps as a double.  Two instants can have one score, and then the records
decide.
-/

namespace Taskfire

open Taskfire.Library

/-! ## Scores -/

theorem float64_eq (value : Int) : float64 value = value.sign * (roundTo 53 value.natAbs : Nat) := by
  have unit : 1 <<< (value.natAbs.log2 - 52) = ulp 53 value.natAbs := by
    rw [Nat.one_shiftLeft, ulp]
    rfl
  simp only [float64, unit, roundTo, nearest, nearestFactor]

theorem float64_nonneg {value : Int} (nonneg : 0 ≤ value) :
    float64 value = (roundTo 53 value.natAbs : Nat) := by
  rw [float64_eq]
  rcases Int.lt_or_eq_of_le nonneg with positive | zero
  · rw [Int.sign_eq_one_of_pos positive, Int.one_mul]
  · rw [← zero]
    simp [roundTo_zero]

theorem float64_neg (value : Int) : float64 (-value) = -float64 value := by
  rw [float64_eq, float64_eq, Int.sign_neg, Int.natAbs_neg, Int.neg_mul]

theorem float64_mono_nonneg {first second : Int} (nonneg : 0 ≤ first) (ordered : first ≤ second) :
    float64 first ≤ float64 second := by
  rw [float64_nonneg nonneg, float64_nonneg (Int.le_trans nonneg ordered), Int.ofNat_le]
  exact roundTo_mono (by decide) (by omega)

/-- A later instant has no lower score. -/
theorem float64_mono {first second : Int} (ordered : first ≤ second) : float64 first ≤ float64 second := by
  rcases Int.lt_or_le first 0 with negative | nonneg
  · rcases Int.lt_or_le second 0 with below | above
    · have mirrored := float64_mono_nonneg (by omega : 0 ≤ -second) (by omega : -second ≤ -first)
      rw [float64_neg, float64_neg] at mirrored
      omega
    · have lower := float64_mono_nonneg (Int.le_refl 0) (by omega : 0 ≤ -first)
      have upper := float64_mono_nonneg (Int.le_refl 0) above
      rw [float64_neg] at lower
      have zero : float64 0 = 0 := rfl
      omega
  · exact float64_mono_nonneg nonneg ordered

/-- Before 2^62 nanoseconds, scores of instants more than 512 nanoseconds apart differ. -/
theorem float64_lt {first second : Int} (nonneg : 0 ≤ first) (apart : first + 512 < second)
    (bounded : second < 2 ^ 62) : float64 first < float64 second := by
  rw [float64_nonneg nonneg, float64_nonneg (by omega : 0 ≤ second), Int.ofNat_lt]
  exact @roundTo_lt 53 62 _ _ (by omega) (by omega)

/-! ## The set after the moves -/

namespace Move

variable {M : Type} [DecidableEq M] [Ord M] [Readable M] {redis : Redis M} {moves : List Move}

theorem apply_dlq (redis : Redis M) (move : Move) :
    (move.apply redis).zset .dlq = (redis.zset .dlq).add move.record (float64 move.now) := by
  simp [apply, Redis.zadd, Redis.setZset, Redis.expireLock]

omit [DecidableEq M] [Ord M] in
theorem parse_record (move : Move) :
    (Readable.parse (move.record : M)).map JobJson.dlqEntry = some move.shown := by
  rw [record, Readable.marshal_parse]
  rfl

omit [DecidableEq M] [Ord M] in
/-- Moves at different instants write different records. -/
theorem now_eq_of_record {first second : Move} (same : (first.record : M) = second.record) :
    first.now = second.now := by
  have shown := congrArg (fun member : M => (Readable.parse member).map JobJson.dlqEntry) same
  simp only [parse_record, Option.some.injEq] at shown
  exact Option.some.inj (congrArg DLQEntry.failedAt shown)

/-- The moves take place one after the other. -/
def Increasing (moves : List Move) : Prop := moves.Pairwise fun earlier later => earlier.now < later.now

theorem Increasing.now_injective (increasing : Increasing moves) {first second : Move}
    (listed : first ∈ moves) (listedToo : second ∈ moves) (same : first.now = second.now) :
    first = second := by
  have distinct : (moves.map Move.now).Nodup :=
    List.pairwise_map.mpr (increasing.imp fun less => Int.ne_of_lt less)
  exact List.inj_on_of_nodup_map distinct listed listedToo same

theorem applyAll_entries (fresh : ∀ move ∈ moves, (move.record : M) ∉ (redis.zset .dlq).members)
    (increasing : Increasing moves) :
    ((applyAll redis moves).zset .dlq).entries.Perm
      (moves.map entry ++ (redis.zset .dlq).entries) := by
  induction moves generalizing redis with
  | nil => exact .refl _
  | cons move moves inductionHypothesis =>
    obtain ⟨first, increasing⟩ := List.pairwise_cons.mp increasing
    have added : ((move.apply redis).zset .dlq).entries.Perm (move.entry :: (redis.zset .dlq).entries) := by
      rw [apply_dlq]
      exact SortedSet.add_perm (fresh move List.mem_cons_self) _
    have freshLater : ∀ later ∈ moves, (later.record : M) ∉ ((move.apply redis).zset .dlq).members := by
      intro later listed inside
      have known := (added.map Prod.fst).mem_iff.mp inside
      obtain same | old := List.mem_cons.mp known
      · exact absurd (now_eq_of_record same.symm) (Int.ne_of_lt (first later listed))
      · exact fresh later (List.mem_cons_of_mem _ listed) old
    apply (inductionHypothesis freshLater increasing).trans
    exact (added.append_left _).trans List.perm_middle

theorem applyAll_sorted [Std.TransOrd M] [Std.LawfulEqOrd M] (sorted : (redis.zset .dlq).Sorted)
    (moves : List Move) : ((applyAll redis moves).zset .dlq).Sorted := by
  induction moves generalizing redis with
  | nil => exact sorted
  | cons move moves inductionHypothesis =>
    apply inductionHypothesis
    rw [apply_dlq]
    exact sorted.add _ _

/-! ## The list -/

/-- The moves in the order of the set. -/
theorem exists_order (empty : (redis.zset .dlq).entries = []) (increasing : Increasing moves) :
    ∃ order : List Move, order.Perm moves ∧
      ((applyAll redis moves).zset .dlq).entries = order.map entry := by
  have fresh : ∀ move ∈ moves, (move.record : M) ∉ (redis.zset .dlq).members := by
    intro move _ inside
    rw [SortedSet.members, empty] at inside
    cases inside
  have entries := applyAll_entries fresh increasing
  rw [empty, List.append_nil] at entries
  have composed := congrFun (congrFun (List.eq_map_comp_perm (entry (M := M)))
    ((applyAll redis moves).zset .dlq).entries) moves
  obtain ⟨order, listed, permuted⟩ := composed.mpr entries
  exact ⟨order, permuted, listed⟩

omit [DecidableEq M] [Ord M] in
theorem getDLQJobs_of_entries {order : List Move} (entries : (redis.zset .dlq).entries = order.map entry)
    (query : DLQQuery) :
    getDLQJobs redis query.limit query.offset =
      ((order.reverse.map shown).drop query.offset).take query.limit := by
  have members : (redis.zset .dlq).members = order.map record := by
    rw [SortedSet.members, entries, List.map_map]
    rfl
  have shows : List.filterMap ((fun member : M => (Readable.parse member).map JobJson.dlqEntry) ∘ record) =
      List.map shown := by
    rw [← List.filterMap_eq_map']
    congr 1
    funext move
    exact parse_record move
  rw [getDLQJobs, SortedSet.revRange_page _ query.limitMin, members, ← List.map_reverse, ← List.map_drop,
    ← List.map_take, List.filterMap_map, shows, ← List.map_drop, ← List.map_take]

theorem eq_of_pages {α : Type} {first second : List α}
    (same : ∀ query : DLQQuery, (first.drop query.offset).take query.limit =
      (second.drop query.offset).take query.limit) : first = second := by
  apply List.ext_getElem?
  intro place
  have single := congrArg (fun entries => entries[0]?)
    (same ⟨1, place, Nat.le_refl 1, by decide⟩)
  simpa using single

/-- The moves that the list shows are told apart by their instants. -/
theorem Increasing.eq_of_shown (increasing : Increasing moves) {order : List Move}
    (permuted : order.Perm moves) (same : order.map shown = moves.map shown) : order = moves := by
  have instants := congrArg (List.map DLQEntry.failedAt) same
  rw [List.map_map, List.map_map] at instants
  apply List.ext_getElem permuted.length_eq
  intro place inOrder inMoves
  have shownAt := congrArg (fun entries => entries[place]?) instants
  simp only [List.getElem?_map, List.getElem?_eq_getElem inOrder, List.getElem?_eq_getElem inMoves,
    Option.map_some, Option.some.injEq, Function.comp_apply] at shownAt
  exact increasing.now_injective (permuted.mem_iff.mp (List.getElem_mem inOrder))
    (List.getElem_mem inMoves) (Option.some.inj shownAt)

/-- Moves that have one score are told apart in the wrong order by no record. -/
def TiesOrdered (M : Type) [Ord M] [Readable M] (moves : List Move) : Prop :=
  moves.Pairwise fun earlier later => float64 earlier.now = float64 later.now →
    compare (earlier.record : M) later.record = .lt

omit [DecidableEq M] in
theorem precedes_entry_iff {earlier later : Move} (before : earlier.now < later.now) :
    SortedSet.precedes (earlier.entry : M × Int) later.entry = true ↔
      (float64 earlier.now = float64 later.now →
        compare (earlier.record : M) later.record = .lt) := by
  have ordered := float64_mono (Int.le_of_lt before)
  rw [SortedSet.precedes_iff]
  simp only [entry]
  constructor
  · rintro (less | ⟨-, first⟩) same
    · exact absurd same (Int.ne_of_lt less)
    · exact first
  · intro ties
    rcases Int.lt_or_eq_of_le ordered with less | same
    · exact .inl less
    · exact .inr ⟨same, ties same⟩

omit [DecidableEq M] in
theorem tiesOrdered_iff (increasing : Increasing moves) : TiesOrdered M moves ↔
    moves.Pairwise fun earlier later =>
      SortedSet.precedes (earlier.entry : M × Int) later.entry = true :=
  ⟨fun ties => increasing.imp₂ (fun _ _ before => (precedes_entry_iff before).mpr) ties,
    fun sorted => increasing.imp₂ (fun _ _ before => (precedes_entry_iff before).mp) sorted⟩

/-- The list shows the moves, the newest first, page by page. -/
def NewestFirst (redis : Redis M) (moves : List Move) : Prop :=
  ∀ query : DLQQuery, getDLQJobs (applyAll redis moves) query.limit query.offset =
    ((moves.reverse.map shown).drop query.offset).take query.limit

section Lawful

variable [Std.TransOrd M] [Std.LawfulEqOrd M]

/-- The moves in the order of the set, which is that of scores and records. -/
theorem exists_sorted_order (empty : (redis.zset .dlq).entries = []) (increasing : Increasing moves) :
    ∃ order : List Move, order.Perm moves ∧
      ((applyAll redis moves).zset .dlq).entries = order.map entry ∧
      order.Pairwise fun earlier later =>
        SortedSet.precedes (earlier.entry : M × Int) later.entry = true := by
  obtain ⟨order, permuted, entries⟩ := exists_order empty increasing
  have sorted : ((applyAll redis moves).zset .dlq).Sorted :=
    applyAll_sorted (by rw [SortedSet.Sorted, empty]; exact .nil) moves
  rw [SortedSet.Sorted, entries, List.pairwise_map] at sorted
  exact ⟨order, permuted, entries, sorted⟩

theorem newestFirst_of_ties (empty : (redis.zset .dlq).entries = []) (increasing : Increasing moves)
    (ties : TiesOrdered M moves) : NewestFirst redis moves := by
  obtain ⟨order, permuted, entries, sorted⟩ := exists_sorted_order empty increasing
  have same : order = moves := by
    apply permuted.eq_of_pairwise _ sorted ((tiesOrdered_iff increasing).mp ties)
    intro first second _ _ before after
    exact absurd after (SortedSet.not_precedes_both before)
  intro query
  rw [getDLQJobs_of_entries entries, same]

theorem ties_of_newestFirst (empty : (redis.zset .dlq).entries = []) (increasing : Increasing moves)
    (newest : NewestFirst redis moves) : TiesOrdered M moves := by
  obtain ⟨order, permuted, entries, sorted⟩ := exists_sorted_order empty increasing
  have reversed : order.reverse.map shown = moves.reverse.map shown :=
    eq_of_pages fun query => (getDLQJobs_of_entries entries query).symm.trans (newest query)
  rw [List.map_reverse, List.map_reverse, List.reverse_inj] at reversed
  rw [tiesOrdered_iff increasing, ← increasing.eq_of_shown permuted reversed]
  exact sorted

theorem newestFirst_iff (empty : (redis.zset .dlq).entries = []) (increasing : Increasing moves) :
    (∀ query : DLQQuery, getDLQJobs (applyAll redis moves) query.limit query.offset =
        ((moves.reverse.map shown).drop query.offset).take query.limit) ↔
      moves.Pairwise fun earlier later => float64 earlier.now = float64 later.now →
        compare (earlier.record : M) later.record = .lt :=
  ⟨ties_of_newestFirst empty increasing, newestFirst_of_ties empty increasing⟩

/-- Moves that are more than 512 nanoseconds apart are listed newest first until 2^62. -/
theorem newestFirst_of_apart (empty : (redis.zset .dlq).entries = [])
    (within : ∀ move ∈ moves, 0 ≤ move.now ∧ move.now < 2 ^ 62)
    (apart : moves.Pairwise fun earlier later => earlier.now + 512 < later.now) :
    NewestFirst redis moves := by
  have increasing : Increasing moves := apart.imp fun {earlier later} gap =>
    Int.lt_trans (Int.lt_add_of_pos_right earlier.now (by decide)) gap
  apply newestFirst_of_ties empty increasing
  apply apart.imp_of_mem
  intro earlier later first second gap same
  exact absurd same (Int.ne_of_lt (float64_lt (within earlier first).1 gap (within later second).2))

end Lawful

end Move

/-- Two jobs fail in November 2023, the second `gap` nanoseconds after the first. -/
def failures (gap : Time) : List Move :=
  [⟨Job.named "b", ⟨"retries exhausted", none⟩, 1700000000000000000⟩,
    ⟨Job.named "a", ⟨"retries exhausted", none⟩, 1700000000000000000 + gap⟩]

theorem newestFirst_microsecond : Move.Increasing (failures 1000) ∧ ∀ query : DLQQuery,
    getDLQJobs (Move.applyAll (Redis.empty : Redis Member) (failures 1000)) query.limit query.offset =
      (((failures 1000).reverse.map Move.shown).drop query.offset).take query.limit :=
  have increasing : Move.Increasing (failures 1000) := by unfold Move.Increasing; decide
  ⟨increasing, (Move.newestFirst_iff rfl increasing).mpr (by decide)⟩

/-- Within one unit of the score, the later failure is listed behind the earlier. -/
theorem oldestFirst_nanosecond : ∃ moves : List Move, Move.Increasing moves ∧
    (∀ move ∈ moves, 0 ≤ move.now ∧ move.now ≤ 2 ^ 62) ∧
    ¬ ∀ query : DLQQuery,
      getDLQJobs (Move.applyAll (Redis.empty : Redis Member) moves) query.limit query.offset =
        ((moves.reverse.map Move.shown).drop query.offset).take query.limit := by
  refine ⟨failures 1, by unfold Move.Increasing; decide, by decide, fun newest => ?_⟩
  exact absurd (newest ⟨2, 0, by decide, by decide⟩) (by decide +kernel)

end Taskfire
