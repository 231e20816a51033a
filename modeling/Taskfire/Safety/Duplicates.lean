import Taskfire.Model.Dashboard
import Taskfire.Safety.Requests

/-!
# How often one call creates a job

Every request that reaches the API draws an id of its own, so the client's retries can create
several jobs.  `Added` says what a sequence of requests has added to the stores: one row for each of
some fresh ids and at most one record of each.  A second id is only added after an answer was lost
or an enqueue failed.
-/

namespace Taskfire

open Taskfire.Library

/-! ## What requests add -/

/-- Rows for the fresh ids, at most one record of each, and nothing else. -/
structure Added (before after : Stores) (ids : List JobId) : Prop where
  nodup : ids.Nodup
  fresh : ∀ id ∈ ids, before.jobs id = none
  written : ∀ id ∈ ids, after.jobs id ≠ none
  rows : ∀ id, id ∉ ids → after.jobs id = before.jobs id
  records : ∀ p, after.redis.waiting p ≤ before.redis.waiting p + ids.length
  copies : ∀ id, after.redis.waiting (Member.isOf id) ≤
    before.redis.waiting (Member.isOf id) + if id ∈ ids then 1 else 0

theorem Added.none (stores : Stores) : Added stores stores [] where
  nodup := List.nodup_nil
  fresh := fun _ listed => absurd listed List.not_mem_nil
  written := fun _ listed => absurd listed List.not_mem_nil
  rows := fun _ _ => rfl
  records := fun _ => Nat.le_refl _
  copies := fun _ => Nat.le_add_right _ _

theorem Added.append {before middle after : Stores} {first second : List JobId}
    (left : Added before middle first) (right : Added middle after second) :
    Added before after (first ++ second) := by
  -- An id that has got its row cannot be fresh once more.
  have apart : ∀ id ∈ first, id ∉ second :=
    fun id earlier later => left.written id earlier (right.fresh id later)
  have listed {id : JobId} : id ∈ first ++ second ↔ id ∈ first ∨ id ∈ second := List.mem_append
  constructor
  · rw [List.nodup_append]
    refine ⟨left.nodup, right.nodup, ?_⟩
    intro id earlier other later same
    subst same
    exact apart id earlier later
  · intro id either
    obtain earlier | later := listed.mp either
    · exact left.fresh id earlier
    · by_cases earlier : id ∈ first
      · exact left.fresh id earlier
      · rw [← left.rows id earlier]
        exact right.fresh id later
  · intro id either
    obtain earlier | later := listed.mp either
    · rw [right.rows id (apart id earlier)]
      exact left.written id earlier
    · exact right.written id later
  · intro id neither
    rw [listed, not_or] at neither
    rw [right.rows id neither.2, left.rows id neither.1]
  · intro p
    have earlier := left.records p
    have later := right.records p
    rw [List.length_append]
    omega
  · intro id
    have earlier := left.copies id
    have later := right.copies id
    by_cases old : id ∈ first
    · have new := apart id old
      simp only [old, new, listed, if_true, if_false, true_or] at earlier later ⊢
      omega
    · simp only [old, listed, if_false, false_or] at earlier later ⊢
      omega

theorem added_row {stores : Stores} {id : JobId} {row : Row} (fresh : stores.jobs id = none) :
    Added stores { stores with jobs := stores.jobs.set id row } [id] where
  nodup := List.nodup_singleton id
  fresh := by
    intro other listed
    rw [List.mem_singleton.mp listed]
    exact fresh
  written := by
    intro other listed
    rw [List.mem_singleton.mp listed]
    simp
  rows := fun other different => Jobs.set_other _ _ fun same => different (by simp [same])
  records := fun _ => Nat.le_add_right _ _
  copies := fun _ => Nat.le_add_right _ _

theorem added_job {stores : Stores} {id : JobId} {row : Row} {key : ZKey} {score : Int}
    {member : Member} (fresh : stores.jobs id = none) (notDlq : key ≠ .dlq)
    (named : member.id? = some id) :
    Added stores (Stores.applyCommand { stores with jobs := stores.jobs.set id row }
      (.zadd key score member)) [id] := by
  have inserted : Added stores { stores with jobs := stores.jobs.set id row } [id] :=
    added_row fresh
  constructor
  · exact inserted.nodup
  · exact inserted.fresh
  · exact inserted.written
  · exact inserted.rows
  · intro p
    have grows := Redis.waiting_zadd_le stores.redis p score member notDlq
    show (stores.redis.zadd key score member).waiting p ≤ stores.redis.waiting p + 1
    split at grows <;> omega
  · intro other
    have grows := Redis.waiting_zadd_le stores.redis (Member.isOf other) score member notDlq
    show (stores.redis.zadd key score member).waiting (Member.isOf other) ≤ _
    simp only [Member.isOf_iff, named, Option.some.injEq] at grows
    simpa [eq_comm] using grows

/-! ## One request -/

variable {mayFail : Call → Prop} {parsed : Option CreateJobInput}

/-- A request adds one job or nothing, and what it adds it answers with 201 unless its enqueue
failed. -/
theorem handle_adds (stores : Stores) :
    (Api.PostRequest.create parsed).handle.wp perform (Failing mayFail)
      (fun response last => ∃ ids, Added stores last ids ∧ ids.length ≤ 1 ∧
        (ids ≠ [] → response.status = 201 ∨ ∃ command, mayFail (.command command))) stores := by
  apply Program.wp_mono (handle_ends (.create parsed) stores)
  intro response last ends
  cases ends with
  | refused => exact ⟨[], .none stores, by simp, fun some => absurd rfl some⟩
  | stranded writes may =>
    cases writes with
    | inserts fresh => exact ⟨[_], added_row fresh, Nat.le_refl 1, fun _ => .inr ⟨_, may⟩⟩
  | enqueued writes notDlq named =>
    cases writes with
    | inserts fresh => exact ⟨[_], added_job fresh notDlq named, Nat.le_refl 1, fun _ => .inl rfl⟩

/-! ## One call of the client -/

namespace Dashboard

/-- How many of the first `count` attempts reach the API. -/
def reached (transport : Nat → Transport) (count : Nat) : Nat :=
  (List.range count).countP fun n => (transport n).reaches

/-- No answer is lost and no enqueue fails. -/
def Undisturbed (mayFail : Call → Prop) (transport : Nat → Transport) : Prop :=
  (∀ n, (transport n).losesResponse = false) ∧ ∀ command, ¬ mayFail (.command command)

theorem settle_created {response : Response} (created : response.status = 201) :
    settle response = .ok response := by
  simp [settle, created]

/-- An attempt adds one job or nothing; if the client is to try again, nothing was added unless the
answer was lost or the enqueue failed. -/
theorem attempt_adds (transport : Transport) (stores : Stores) :
    (attempt (.create parsed) transport).wp perform (Failing mayFail)
      (fun outcome last => ∃ ids, Added stores last ids ∧
        ids.length ≤ (if transport.reaches then 1 else 0) ∧
        (again outcome = true → ids ≠ [] →
          transport.losesResponse = true ∨ ∃ command, mayFail (.command command))) stores := by
  cases transport with
  -- The API has seen nothing.
  | requestLost error => exact ⟨[], .none stores, by simp, fun _ some => absurd rfl some⟩
  | responseLost error =>
    simp only [attempt]
    rw [Program.wp_bind]
    apply Program.wp_mono (handle_adds stores)
    intro response last found
    obtain ⟨ids, added, bound, -⟩ := found
    exact ⟨ids, added, bound, fun _ _ => .inl rfl⟩
  | delivered =>
    simp only [attempt]
    rw [Program.wp_bind]
    apply Program.wp_mono (handle_adds stores)
    intro response last found
    obtain ⟨ids, added, bound, answered⟩ := found
    refine ⟨ids, added, bound, ?_⟩
    intro retried some
    -- A client that was told 201 does not try again.
    obtain created | failed := answered some
    · rw [settle_created created] at retried
      cases retried
    · exact .inr failed

/-- One call adds at most one job for each of its requests that reaches the API, and at most one if
no answer is lost and no enqueue fails. -/
theorem create_adds (mayFail : Call → Prop) (transport : Nat → Transport)
    (parsed : Option CreateJobInput) (stores : Stores) :
    (create transport parsed).wp perform (Failing mayFail)
      (fun _ last => ∃ ids, Added stores last ids ∧
        ids.length ≤ reached transport (retries + 1) ∧
        (Undisturbed mayFail transport → ids.length ≤ 1)) stores := by
  -- Before an attempt of an undisturbed call nothing has been added.
  let pending (n : Nat) (last : Stores) : Prop := ∃ ids, Added stores last ids ∧
    ids.length ≤ reached transport n ∧ (Undisturbed mayFail transport → ids = [])
  let post (n : Nat) (_ : Nat × Except AxiosError Response) (last : Stores) : Prop :=
    ∃ ids, Added stores last ids ∧ ids.length ≤ reached transport (n + 1) ∧
      (Undisturbed mayFail transport → ids.length ≤ 1)
  have counted (n : Nat) : reached transport (n + 1) =
      reached transport n + if (transport n).reaches then 1 else 0 := by
    simp [reached, List.range_succ]
  have attempted (n : Nat) (store : Stores) (before : pending n store) :
      (do
        let outcome ← attempt (.create parsed) (transport n)
        pure (n, outcome) : Prog _).wp perform (Failing mayFail)
        (fun outcome last => post n outcome last ∧ (again outcome.2 = true → pending (n + 1) last))
        store := by
    obtain ⟨old, addedBefore, boundBefore, none⟩ := before
    rw [Program.wp_bind]
    apply Program.wp_mono (attempt_adds (transport n) store)
    intro outcome last found
    obtain ⟨new, added, bound, blamed⟩ := found
    have one : new.length ≤ 1 := by
      split at bound <;> omega
    have total : (old ++ new).length ≤ reached transport (n + 1) := by
      rw [counted, List.length_append]
      omega
    have both := addedBefore.append added
    refine ⟨⟨old ++ new, both, total, ?_⟩, fun retried => ⟨old ++ new, both, total, ?_⟩⟩
    · intro undisturbed
      simpa [none undisturbed] using one
    · intro undisturbed
      by_contra some
      have added : new ≠ [] := by simpa [none undisturbed] using some
      obtain lost | failed := blamed retried added
      · rw [undisturbed.1 n] at lost
        cases lost
      · obtain ⟨command, may⟩ := failed
        exact undisturbed.2 command may
  simp only [create, send]
  rw [Program.wp_bind]
  have start : pending 0 stores := ⟨[], .none stores, Nat.zero_le _, fun _ => rfl⟩
  have sent : (send transport (.create parsed)).wp perform (Failing mayFail)
      (fun outcome last => ∃ n, n ≤ 0 + retries ∧ post n outcome last) stores :=
    Program.wp_retrying pending attempted retries 0 start
  apply Program.wp_mono sent
  intro outcome last ended
  obtain ⟨n, bound, ids, added, counted, single⟩ := ended
  have within : reached transport (n + 1) ≤ reached transport (retries + 1) := by
    apply List.Sublist.countP_le
    exact List.range_sublist.mpr (by omega)
  have result : ∃ ids, Added stores last ids ∧ ids.length ≤ reached transport (retries + 1) ∧
      (Undisturbed mayFail transport → ids.length ≤ 1) := ⟨ids, added, by omega, single⟩
  obtain ⟨retried, outcome⟩ := outcome
  cases outcome <;> exact result

/-- The answer to the first attempt is lost. -/
def firstResponseLost : Nat → Transport
  | 0 => .responseLost ⟨true, true, none, "Network Error"⟩
  | _ => .delivered

/-- The second attempt creates another job. -/
theorem create_adds_two :
    ¬ (create firstResponseLost (some .plain)).wp perform (Failing fun _ => False)
      (fun _ last => ∃ ids, Added .empty last ids ∧ ids.length ≤ 1) .empty := by
  intro single
  have fine (id : JobId) (c : Call) : Failing (fun _ => False) c (.calm id) :=
    fun fails => absurd fails Bool.false_ne_true
  obtain ⟨ids, added, bound⟩ := single
    (.calm "j") (fine _ _) (.calm "j") (fine _ _) (.calm "j") (fine _ _) (.calm "j") (fine _ _)
    (.calm "j") (fine _ _) (.calm "k") (fine _ _) (.calm "k") (fine _ _) (.calm "k") (fine _ _)
    (.calm "k") (fine _ _) (.calm "k") (fine _ _)
  have first : "j" ∈ ids := by
    by_contra missing
    cases added.rows "j" missing
  have second : "k" ∈ ids := by
    by_contra missing
    cases added.rows "k" missing
  cases ids with
  | nil => cases first
  | cons id rest =>
    have alone : rest = [] := List.length_eq_zero_iff.mp (by simpa using bound)
    subst alone
    have same := (List.mem_singleton.mp first).trans (List.mem_singleton.mp second).symm
    exact absurd same (by decide)

end Dashboard

end Taskfire
