import Taskfire.Safety.Runs

/-!
# Pending jobs have a record

A row that reads pending should have a record that waits for a worker, or somebody who is about to
put one there.  The one step that takes a record away and leaves the row alone is the removal after
a cancellation: it can come so late that it takes the record of a retry.  Where it never meets a
pending row, every pending row has its record.
-/

namespace Taskfire

open Taskfire.Library

namespace Life

/-- A record the row admits, that waits or that a thread owes a place. -/
def Backs (life : Life) (row : Row) : Prop :=
  ∃ brief : Brief, 0 ≤ brief.retryCount ∧ brief.retryCount ≤ row.maxRetries ∧
    (life.carried brief ∨
      ∃ thread role, life.roles thread = some role ∧ role.token = .owed ∧ role.brief = brief)

def Backed (life : Life) : Prop :=
  ∀ row, life.row = some row → row.status = .pending → life.Backs row

/-- A removal takes no record of a pending job, and no thread crashes. -/
def RemovesRetired (life : Life) (label : Label) : Prop :=
  (∀ thread, label = .act thread .removes → life.status ≠ some .pending) ∧
    ∀ thread, label ≠ .crash thread

variable {before after : Life} {d : Discipline} {label : Label} {thread : Nat} {row : Row}

theorem Backs.turn {next : Option Role} (backs : before.Backs row)
    (roles : after.roles = (before.put thread next).roles)
    (carried : ∀ brief, before.carried brief → after.carried brief)
    (owed : ∀ role, before.roles thread = some role → role.token = .owed →
      0 ≤ role.brief.retryCount → role.brief.retryCount ≤ row.maxRetries →
      after.carried role.brief ∨
        ∃ held, next = some held ∧ held.token = .owed ∧ held.brief = role.brief) :
    after.Backs row := by
  obtain ⟨brief, lower, upper, waits | ⟨other, role, current, token, same⟩⟩ := backs
  · exact ⟨brief, lower, upper, .inl (carried brief waits)⟩
  · refine ⟨brief, lower, upper, ?_⟩
    by_cases equal : other = thread
    · subst equal
      subst same
      obtain waits | ⟨held, shape, token, same⟩ := owed role current token lower upper
      · exact .inl waits
      · refine .inr ⟨other, held, ?_, token, same⟩
        rw [roles, put_same, shape]
    · refine .inr ⟨other, role, ?_, token, same⟩
      rw [roles, put_other equal]
      exact current

/-- The thread has just got a record that the row admits. -/
theorem backs_of_owed {life : Life} {role : Role} (current : life.roles thread = some role)
    (token : role.token = .owed) (lower : 0 ≤ role.brief.retryCount)
    (upper : role.brief.retryCount ≤ row.maxRetries) : life.Backs row :=
  ⟨role.brief, lower, upper, .inr ⟨thread, role, current, token, rfl⟩⟩

/-- A step that leaves the row, the records and the thread's own record as they are. -/
theorem Backed.keep {role next : Role} (backed : before.Backed)
    (current : before.roles thread = some role)
    (roles : after.roles = (before.put thread (some next)).roles)
    (kept : role.token = .owed → next.token = .owed ∧ next.brief = role.brief)
    (same : after.row = before.row) (carried : after.carried = before.carried) :
    after.Backed := by
  intro row found pending
  rw [same] at found
  refine (backed row found pending).turn roles (fun brief waits => carried ▸ waits) ?_
  intro owed shape token _ _
  rw [current] at shape
  cases shape
  exact .inr ⟨next, rfl, kept token⟩

theorem backed_step (strict : d.strict) (whole : ¬ d.bare) (settles : d.settles)
    (legible : d.legible) (backed : before.Backed) (kept : RemovesRetired before label)
    (step : Step d before label after) : after.Backed := by
  cases step with
  | enters gone =>
    intro row found pending
    refine (backed row found pending).turn rfl (fun _ waits => waits) fun role current => ?_
    rw [gone] at current
    cases current
  | @inserts thread role row current absent missing status zero =>
    intro found shape pending
    cases shape
    exact backs_of_owed (put_same ..) rfl row.retryCountNonNegative row.retryCountLteMax
  | cancels current idle found notActive notCompleted rewrites =>
    intro row shape pending
    cases shape
    rw [rewrites.status] at pending
    cases pending
  | @requeues thread role old new current =>
    intro row shape pending
    cases shape
    exact backs_of_owed (put_same ..) rfl new.retryCountNonNegative new.retryCountLteMax
  | @marks thread role old new status current opened found lower upper rewrites =>
    intro row shape pending
    cases shape
    rw [rewrites.status] at pending
    subst pending
    exact backs_of_owed (put_same ..) rfl lower (rewrites.maxRetries ▸ upper)
  | marksNothing current opened missing =>
    intro row shape
    simp [missing] at shape
  | @failsToMark thread role status current opened cause =>
    intro row found pending
    obtain ⟨old, shape, outside⟩ := cause strict
    rw [put_row, shape] at found
    cases found
    -- The record whose update was refused is not the one that backs the row.
    refine (backed row shape pending).turn rfl (fun _ waits => waits) ?_
    intro owed same _ lower upper
    rw [current] at same
    cases same
    exact absurd ⟨lower, upper⟩ outside
  | @places thread role waiting carried current opened may positive upper briefs =>
    intro row found pending
    refine (backed row found pending).turn rfl (fun brief waits => (briefs brief).mpr (.inl waits)) ?_
    intro owed same _ _ _
    rw [current] at same
    cases same
    exact .inl ((briefs role.brief).mpr (.inr rfl))
  | buries current due =>
    refine backed.keep current rfl (fun owed => ?_) rfl rfl
    rw [owed] at due
    obtain dying | unmarked | ⟨bare, _⟩ := due
    · cases dying
    · cases unmarked
    · exact absurd bare whole
  | removes current cancelled fewer =>
    intro row found pending
    refine absurd ?_ (kept.1 _ rfl)
    have shape : before.row = some row := found
    simp [status, shape, pending]
  | promotes fewer => exact backed
  | drops blind => exact absurd legible blind
  | @claims thread brief waiting carried gone free lost present fewer remains =>
    intro row found pending
    obtain ⟨backing, lower, upper, waits | ⟨other, role, current, owed, same⟩⟩ :=
      backed row found pending
    · obtain left | popped := remains legible backing waits
      · exact ⟨backing, lower, upper, .inl left⟩
      · exact ⟨backing, lower, upper, .inr ⟨thread, _, put_same .., rfl, popped.symm⟩⟩
    · refine ⟨backing, lower, upper, .inr ⟨other, role, ?_, owed, same⟩⟩
      have different : other ≠ thread := by
        intro equal
        rw [equal, gone] at current
        cases current
      rw [put_other different]
      exact current
  | unlists current | failsToUnlist current | unlocks current | failsToUnlock current =>
    exact backed.keep current rfl (fun owed => ⟨owed, rfl⟩) rfl rfl
  | starts current opened tried | succeeds current opened tried | fails current opened tried
  | misses current opened tried =>
    exact backed.keep current rfl (fun owed => absurd owed tried) rfl rfl
  | other => exact backed
  | leaves current final =>
    intro row found pending
    refine (backed row found pending).turn rfl (fun _ waits => waits) ?_
    intro role same owed _ _
    rw [current] at same
    cases same
    exact absurd owed (final.2.2 strict whole settles)
  | crashes => exact absurd rfl (kept.2 _)
  | expires => exact backed

end Life

/-! ## Every run -/

/-- A step without a store failure or a crash, in which a DELETE removes a record only if the row is
not pending, and a worker meets no record that `cjson` does not read.  Locks may expire. -/
structure RemovesRetired (id : JobId) (state : SystemState) (action : SystemAction) : Prop where
  starting : Starting Entry.isRooted action
  reachable : Reached action
  uncrashed : Uncrashed action
  legible : Legibly id state action
  removes : ∀ thread, Does id state action thread .removes → state.store.status id ≠ some .pending

section

variable {proc : Processor} {id : JobId} {last : SystemState}

theorem RemovesRetired.life {state : SystemState} {action : SystemAction} {label : Label}
    (kept : RemovesRetired id state action) (shows : Shows id state action label) :
    Life.RemovesRetired (life id state) label := by
  refine ⟨fun thread removes => ?_, kept.uncrashed.label shows⟩
  subst removes
  exact kept.removes thread shows

theorem backed_reach (settles : proc.NeverErrs)
    (run : (taskfire proc).Run (RemovesRetired id) (beginning proc) last) :
    (life id last).Backed := by
  obtain ⟨_, reach⟩ := served_reach Life.RemovesRetired run (fun _ : True => settles)
    (fun _ _ kept => kept.starting) (fun _ _ _ kept => kept.reachable)
    (fun _ : True => fun _ _ kept => kept.legible) (fun _ _ _ kept shows => kept.life shows)
    (fun _ _ => ⟨nofun, nofun⟩)
  refine reach.invariant Life.Backed ?_ ?_
  · intro row found
    rw [beginning_row] at found
    cases found
  intro before label after backed kept step
  exact Life.backed_step trivial False.elim trivial trivial backed kept step

theorem waiting_of_carried {state : SystemState} {brief : Brief}
    (carried : (life id state).carried brief) :
    0 < state.store.redis.waiting (Member.isOf id) :=
  waiting_of_carries _ carried

/-- If no DELETE takes a record of the job while its row is pending and `cjson` reads its records, a
pending job that nobody works for waits in a lane or in the delayed set. -/
theorem pending_waits (settles : proc.NeverErrs)
    (run : (taskfire proc).Run (RemovesRetired id) (beginning proc) last) (still : quiet id last)
    (pending : last.store.status id = some .pending) :
    0 < last.store.redis.waiting (Member.isOf id) := by
  obtain ⟨row, found, status⟩ := Option.map_eq_some_iff.mp pending
  obtain ⟨brief, _, _, waits | ⟨thread, role, current, _⟩⟩ := backed_reach settles run row found status
  · exact waiting_of_carried waits
  · rw [roles_of_quiet still thread] at current
    cases current

end

/-! ## Examples -/

theorem wired_neverErrs : Processor.wired.NeverErrs := Engine.neverErrs _

/-- A DELETE removes the record while the row is failed; the retry brings a new one, which a worker
claims and puts back, and the lock of its claim runs out before. -/
theorem pending_waits_once : ∃ last : SystemState,
    last.store.status "j" = some .pending ∧ 0 < last.store.redis.waiting (Member.isOf "j") := by
  obtain ⟨last, run, still, pending⟩ := replay_quiet .wired "j" 2
    (fun state action => decide (Starting Entry.isRooted action ∧ Reached action ∧
      Uncrashed action ∧ state.store.redis.Legible (Member.isOf "j")) &&
      (avoids (· = .removes) "j" state action || decide (state.store.status "j" ≠ some .pending)))
    (fun last => decide (last.store.status "j" = some .pending))
    (.spawn 0 (.create .plain) :: calls 0 5 (.calm "j") ++
      .spawn 1 (.delete "j") :: calls 1 5 (.calm "j") ++
      .spawn 0 (.retry "j" true) :: calls 0 4 (.calm "j") ++
      .spawn 1 .work :: calls 1 5 (.failing "j") ++ .tick "j" :: calls 1 13 (.failing "j"))
    (by decide +kernel)
  have retired : (taskfire .wired).Run (RemovesRetired "j") (beginning .wired) last := by
    apply run.mono
    intro state action checked
    obtain ⟨calm, removes⟩ := Bool.and_eq_true .. ▸ checked
    obtain ⟨starting, reachable, uncrashed, readable⟩ := of_decide_eq_true calm
    refine ⟨starting, reachable, uncrashed, fun _ _ _ _ => readable, fun thread does => ?_⟩
    obtain avoided | retired := Bool.or_eq_true .. ▸ removes
    · exact absurd does (not_does_of_avoids avoided rfl thread)
    · exact of_decide_eq_true retired
  have waits := of_decide_eq_true pending
  exact ⟨last, waits, pending_waits wired_neverErrs retired still waits⟩

/-- A DELETE has read the lane when a retry puts the same record there; the DELETE then removes it,
and the row stays pending without a record. -/
theorem pending_without_record : ∃ (proc : Processor) (last : SystemState), proc.NeverErrs ∧
    (taskfire proc).Run (fun _ action => Ordinary Entry.isRooted action) (beginning proc) last ∧
    quiet "j" last ∧ last.store.status "j" = some .pending ∧
    last.store.redis.waiting (Member.isOf "j") = 0 := by
  obtain ⟨last, run, still, lost⟩ := replay_quiet .wired "j" 2
    (fun _ action => decide (Ordinary Entry.isRooted action))
    (fun last => decide (last.store.status "j" = some .pending ∧
      last.store.redis.waiting (Member.isOf "j") = 0))
    (.spawn 0 (.create .plain) :: calls 0 5 (.calm "j") ++
      .spawn 1 (.delete "j") :: calls 1 4 (.calm "j") ++
      .spawn 0 (.retry "j" true) :: calls 0 4 (.calm "j") ++ calls 1 1 (.calm "j"))
    (by decide +kernel)
  have ordinary := run.mono fun _ _ checked => of_decide_eq_true checked
  exact ⟨.wired, last, wired_neverErrs, ordinary, still, of_decide_eq_true lost⟩

end Taskfire
