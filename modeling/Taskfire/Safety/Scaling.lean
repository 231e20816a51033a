import Taskfire.Model.Scaler
import Taskfire.Safety.Shutdown

/-!
# What the scaler does to the workers

A tick adds a worker, cancels the one with the longest idle time, or does nothing.  Which workers a
tick may cancel, for any order of the map, is decided by their idle times; whether that is a worker
with a job in progress, or one more than the floor allows, is not looked at.
-/

namespace Taskfire

open Taskfire.Library

namespace Pool

variable {pool after : Pool}

/-- The ids in the map of workers are those of the workers that have not stopped. -/
theorem mem_present (fresh : pool.Fresh) {id : Nat} :
    id ∈ pool.present ↔ (pool.workers id).isSome = true := by
  simp only [present, List.mem_filter, List.mem_range, and_iff_right_iff_imp]
  intro alive
  obtain ⟨worker, current⟩ := Option.isSome_iff_exists.mp alive
  exact fresh.known current

/-- A turn of a worker never changes whether it is signalled, and only a worker whose context has
ended stops. -/
theorem worker_signals {proc : Processor} {number : Nat} {env : Env}
    (stepped : pool.stepWorker proc number env = some after) :
    ∃ worker next stores jobCh, pool.workers number = some worker ∧
      after = { pool with stores, jobCh }.setWorker number next ∧
      (∀ turned, next = some turned → turned.evicted = worker.evicted) ∧
      (next = none → pool.cancelled = true ∨ worker.evicted = true) := by
  cases worker_turns stepped with
  | receives current =>
    refine ⟨_, _, pool.stores, _, current, rfl, fun turned same => ?_, nofun⟩
    cases same
    rfl
  | stops current _ ended =>
    refine ⟨_, none, pool.stores, pool.jobCh, current, rfl, fun turned same => ?_, fun _ => ?_⟩
    · cases same
    · exact (Bool.or_eq_true ..).mp ended
  | calls current =>
    refine ⟨_, _, _, pool.jobCh, current, rfl, fun turned same => ?_, nofun⟩
    cases same
    rfl
  | returns current =>
    refine ⟨_, _, pool.stores, pool.jobCh, current, rfl, fun turned same => ?_, nofun⟩
    cases same
    rfl

theorem fetcher_cancelled {buffer : Nat} {env : Env}
    (stepped : pool.stepFetcher buffer env = some after) : after.cancelled = pool.cancelled := by
  cases fetcher_turns stepped <;> rfl

end Pool

namespace Running

variable {cfg : PoolConfig} {proc : Processor} {running after : Running}

/-! ## Steps of the pool -/

theorem cancelWorker_cases (running : Running) (id : Nat) :
    (running.pool.workers id = none ∧ running.cancelWorker id = running) ∨
    ∃ worker, running.pool.workers id = some worker ∧ (running.cancelWorker id).pool =
      running.pool.setWorker id (some { worker with evicted := true }) := by
  unfold cancelWorker
  split
  · next none => exact .inl ⟨none, rfl⟩
  · next worker current => exact .inr ⟨worker, current, rfl⟩

theorem scale_cases (running : Running) (depth : Int) (now : Time) (order : List Nat) :
    ((running.pool.present.length : Int) < cfg.maxWorkers ∧
      running.scale cfg depth now order = running.spawnWorker now) ∨
    (running.scalesDown cfg depth = true ∧ ∃ id, running.evictIdleWorker cfg now order = some id ∧
      running.scale cfg depth now order = running.cancelWorker id) ∨
    running.scale cfg depth now order = running := by
  simp only [scale]
  split
  · next up => exact .inl ⟨up.2, rfl⟩
  · next notUp =>
    split
    · next down =>
      have scales : running.scalesDown cfg depth = true := by
        simp only [scalesDown, Bool.and_eq_true, Bool.not_eq_true', Bool.and_eq_false_iff,
          decide_eq_true_eq, decide_eq_false_iff_not]
        exact ⟨not_and_or.mp notUp, down⟩
      split
      · next id picked => exact .inr (.inl ⟨scales, id, picked, rfl⟩)
      · exact .inr (.inr rfl)
    · exact .inr (.inr rfl)

theorem step_tick {depth : Option Int} {now : Time} {order : List Nat}
    (stepped : running.step proc cfg (.tick depth now order) = some after) :
    running.pool.scaling = true ∧ order.Perm running.pool.present ∧
      ((depth = none ∧ after = running) ∨
        ∃ read, depth = some read ∧ after = running.scale cfg read now order) := by
  simp only [step] at stepped
  split at stepped
  · next ticks =>
    refine ⟨ticks.1, ticks.2, ?_⟩
    cases depth with
    | none =>
      cases stepped
      exact .inl ⟨rfl, rfl⟩
    | some read =>
      cases stepped
      exact .inr ⟨read, rfl, rfl⟩
  · cases stepped

/-- A tick does nothing, adds a worker or cancels one. -/
theorem tick_cases {depth : Option Int} {now : Time} {order : List Nat}
    (stepped : running.step proc cfg (.tick depth now order) = some after) :
    after = running ∨ after = running.spawnWorker now ∨ ∃ id, after = running.cancelWorker id := by
  obtain ⟨-, -, ⟨-, rfl⟩ | ⟨read, -, rfl⟩⟩ := step_tick stepped
  · exact .inl rfl
  · obtain ⟨-, spawned⟩ | ⟨-, id, -, cancelled⟩ | unchanged :=
      @scale_cases cfg running read now order
    · exact .inr (.inl spawned)
    · exact .inr (.inr ⟨id, cancelled⟩)
    · exact .inl unchanged

theorem step_stopScaler (stepped : running.step proc cfg .stopScaler = some after) :
    running.pool.cancelled = true ∧
      after = { running with pool := { running.pool with scaling := false } } := by
  simp only [step] at stepped
  split at stepped
  · next cancelled =>
    cases stepped
    exact ⟨cancelled, rfl⟩
  · cases stepped

/-- Apart from what other processes do, the pool moves by its own steps. -/
theorem step_pool {action : RunningAction} (stepped : running.step proc cfg action = some after) :
    (∃ jobs redis, action = .outside jobs redis) ∨ after.pool = running.pool ∨
      ∃ poolAction, running.pool.step proc cfg.buffer poolAction = some after.pool := by
  cases action with
  | cancel =>
    cases stepped
    exact .inr (.inr ⟨.cancel, rfl⟩)
  | fetcher env =>
    obtain ⟨pool, moved, rfl⟩ := Option.map_eq_some_iff.mp stepped
    exact .inr (.inr ⟨.fetcher env, moved⟩)
  | worker id env =>
    obtain ⟨pool, moved, rfl⟩ := Option.map_eq_some_iff.mp stepped
    exact .inr (.inr ⟨.worker id env, moved⟩)
  | tick depth now order =>
    obtain ⟨scaling, -, -⟩ := step_tick stepped
    obtain rfl | rfl | ⟨id, rfl⟩ := tick_cases stepped
    · exact .inr (.inl rfl)
    · exact .inr (.inr ⟨.spawn, by simp [Pool.step, scaling, spawnWorker]⟩)
    · obtain ⟨-, same⟩ | ⟨worker, current, moved⟩ := running.cancelWorker_cases id
      · exact .inr (.inl (congrArg Running.pool same))
      · exact .inr (.inr ⟨.evict id, by simp [Pool.step, scaling, current, moved]⟩)
  | stopScaler =>
    obtain ⟨cancelled, rfl⟩ := step_stopScaler stepped
    exact .inr (.inr ⟨.stopScaler, by simp [Pool.step, cancelled]⟩)
  | outside jobs redis => exact .inl ⟨jobs, redis, rfl⟩

theorem step_fresh {action : RunningAction} (fresh : running.pool.Fresh)
    (stepped : running.step proc cfg action = some after) : after.pool.Fresh := by
  obtain ⟨jobs, redis, rfl⟩ | same | ⟨poolAction, moved⟩ := step_pool stepped
  · cases stepped
    exact fresh
  · rw [same]
    exact fresh
  · exact Pool.step_fresh fresh moved

/-! ## What a tick can cancel -/

/-- The worker has received a job from the channel, and `Process` has not returned. -/
def busy (running : Running) (id : Nat) : Bool :=
  (running.pool.workers id).any fun worker => worker.task.isSome

/-- The worker runs and the scaler has not cancelled it. -/
def unsignalled (running : Running) (id : Nat) : Bool :=
  (running.pool.workers id).any fun worker => !worker.evicted

/-- Each worker of the kind that has been idle for the timeout has been so for less time than some
worker of another kind. -/
def Outdone (cfg : PoolConfig) (running : Running) (now : Time) (kind : Nat → Bool) : Prop :=
  ∀ id ∈ running.pool.present, kind id = true → cfg.idleTimeout ≤ (running.stats id).idle now →
    0 < (running.stats id).idle now → ∃ other ∈ running.pool.present, kind other = false ∧
      (running.stats id).idle now < (running.stats other).idle now

/-- In any order of the map, the worker that is picked is not of the kind, exactly when the workers of
the kind are outdone. -/
theorem picks_no_iff (now : Time) (kind : Nat → Bool) :
    (∀ order : List Nat, order.Perm running.pool.present → ∀ id,
      running.evictIdleWorker cfg now order = some id → kind id = false) ↔
    running.Outdone cfg now kind := by
  have spares := @longest_spares_iff Nat (fun id => (running.stats id).idle now) cfg.idleTimeout _
    (fun id => !kind id) running.pool.present
  simpa [Outdone, evictIdleWorker] using spares

theorem scale_down {depth : Int} {now : Time} {order : List Nat}
    (down : running.scalesDown cfg depth = true) : running.scale cfg depth now order =
      (running.evictIdleWorker cfg now order).elim running running.cancelWorker := by
  simp only [scalesDown, Bool.and_eq_true, Bool.not_eq_true', Bool.and_eq_false_iff,
    decide_eq_true_eq, decide_eq_false_iff_not] at down
  simp only [scale, if_neg (not_and_or.mpr down.1), if_pos down.2]
  cases running.evictIdleWorker cfg now order <;> rfl

instance (now : Time) (kind : Nat → Bool) : Decidable (running.Outdone cfg now kind) :=
  inferInstanceAs (Decidable (∀ id ∈ running.pool.present, _))

/-- The action does not cancel the pool's context. -/
def Living : RunningAction → Prop
  | .cancel => False
  | _ => True

instance : DecidablePred Living
  | .cancel => inferInstanceAs (Decidable False)
  | .tick _ _ _ | .fetcher _ | .worker _ _ | .stopScaler | .outside _ _ =>
    inferInstanceAs (Decidable True)

/-- The default configuration, with a floor of one worker. -/
def single : PoolConfig := { PoolConfig.defaultConfig with minWorkers := 1 }

/-- The scaler adds worker 1 after 5 s, and a worker receives the only job. -/
def takesJob (id : Nat) : List RunningAction :=
  [.tick (some 51) (5 * second) [0]] ++ List.replicate 4 (.fetcher (.calm "j")) ++
    [.worker id (.calm "j")]

/-! ## The floor and the ceiling -/

/-- How many workers run that the scaler has not cancelled. -/
def staffed (running : Running) : Nat := (List.range running.pool.nextID).countP running.unsignalled

/-- The scaler scales down only above the floor of workers it has not cancelled, or where it cannot
pick one of them. -/
def KeepsFloor (cfg : PoolConfig) (running : Running) : RunningAction → Prop
  | .tick (some depth) now _ => running.scalesDown cfg depth = true →
    cfg.minWorkers < running.staffed ∨ running.Outdone cfg now running.unsignalled
  | _ => True

instance : DecidablePred (running.KeepsFloor cfg)
  | .tick (some _) _ _ => inferInstanceAs (Decidable (_ → _ ∨ _))
  | .tick none _ _ | .cancel | .fetcher _ | .worker _ _ | .stopScaler | .outside _ _ =>
    inferInstanceAs (Decidable True)

theorem countP_of_dropped {items : List Nat} (distinct : items.Nodup) {p q : Nat → Bool} {item : Nat}
    (listed : item ∈ items) (held : p item = true) (dropped : q item = false)
    (others : ∀ other, other ≠ item → q other = p other) : items.countP p = items.countP q + 1 := by
  induction items with
  | nil => cases listed
  | cons head tail inductionHypothesis =>
    obtain ⟨fresh, distinct⟩ := List.nodup_cons.mp distinct
    rw [List.countP_cons, List.countP_cons]
    obtain rfl | later := List.mem_cons.mp listed
    · have same : tail.countP q = tail.countP p :=
        List.countP_congr fun other inside => by
          rw [others other fun equal => fresh (equal ▸ inside)]
      simp [held, dropped, same]
    -- The item is counted in the tail, and the head counts alike on both sides.
    · have apart : head ≠ item := fun equal => fresh (equal ▸ later)
      rw [inductionHypothesis distinct later, others head apart]
      omega

theorem staffed_le_present (running : Running) : running.staffed ≤ running.pool.present.length := by
  rw [staffed, Pool.present, ← List.countP_eq_length_filter]
  apply List.countP_mono_left
  intro id _ held
  simp only [unsignalled, Option.any_eq_true] at held
  obtain ⟨worker, current, -⟩ := held
  simp [current]

theorem staffed_congr (same : after.pool.nextID = running.pool.nextID)
    (kind : ∀ id, after.unsignalled id = running.unsignalled id) :
    after.staffed = running.staffed := by
  rw [staffed, staffed, same]
  exact List.countP_congr fun id _ => by rw [kind]

theorem staffed_spawn (running : Running) (now : Time) :
    (running.spawnWorker now).staffed = running.staffed + 1 := by
  have next : (running.spawnWorker now).pool.nextID = running.pool.nextID + 1 := rfl
  have others (id : Nat) (known : id ∈ List.range running.pool.nextID) :
      (running.spawnWorker now).unsignalled id = running.unsignalled id := by
    have different : id ≠ running.pool.nextID := Nat.ne_of_lt (List.mem_range.mp known)
    simp [unsignalled, spawnWorker, Pool.spawnWorker, Pool.setWorker, different]
  have own : (running.spawnWorker now).unsignalled running.pool.nextID = true := by
    simp [unsignalled, spawnWorker, Pool.spawnWorker, Pool.setWorker]
  rw [staffed, next, List.range_succ, List.countP_append, List.countP_singleton, own, staffed,
    List.countP_congr fun id known => by rw [others id known]]
  rfl

theorem cancelWorker_unsignalled {id : Nat} (running : Running) :
    (running.cancelWorker id).unsignalled id = false ∧
      ∀ other, other ≠ id → (running.cancelWorker id).unsignalled other = running.unsignalled other := by
  unfold cancelWorker
  split
  · next none => exact ⟨by simp [unsignalled, none], fun _ _ => rfl⟩
  · next worker current =>
    refine ⟨by simp [unsignalled, Pool.setWorker], fun other different => ?_⟩
    simp [unsignalled, Pool.setWorker, different]

theorem cancelWorker_nextID (running : Running) (id : Nat) :
    (running.cancelWorker id).pool.nextID = running.pool.nextID := by
  unfold cancelWorker
  split <;> rfl

theorem cancelWorker_cancelled (running : Running) (id : Nat) :
    (running.cancelWorker id).pool.cancelled = running.pool.cancelled := by
  unfold cancelWorker
  split <;> rfl

theorem staffed_cancel (running : Running) (fresh : running.pool.Fresh) (id : Nat) :
    running.staffed =
      (running.cancelWorker id).staffed + if running.unsignalled id = true then 1 else 0 := by
  obtain ⟨dropped, others⟩ := @cancelWorker_unsignalled id running
  cases held : running.unsignalled id with
  | true =>
    have known : id < running.pool.nextID := by
      obtain ⟨worker, current, -⟩ := (Option.any_eq_true ..).mp held
      exact fresh.known current
    rw [staffed, staffed, cancelWorker_nextID]
    exact countP_of_dropped List.nodup_range (List.mem_range.mpr known) held dropped others
  | false =>
    simp only [Bool.false_eq_true, if_false, Nat.add_zero]
    apply (staffed_congr (cancelWorker_nextID running id) _).symm
    intro other
    by_cases same : other = id
    · subst same
      rw [dropped, held]
    · exact others other same

/-- A tick keeps the number of workers that are not signalled, adds one below the ceiling, or picks
one of them when it scales down. -/
theorem staffed_scale (fresh : running.pool.Fresh) (depth : Int) (now : Time) (order : List Nat) :
    (running.scale cfg depth now order).staffed = running.staffed ∨
    ((running.scale cfg depth now order).staffed = running.staffed + 1 ∧
      (running.staffed : Int) < cfg.maxWorkers) ∨
    (running.staffed = (running.scale cfg depth now order).staffed + 1 ∧
      running.scalesDown cfg depth = true ∧ ∃ id,
        running.evictIdleWorker cfg now order = some id ∧ running.unsignalled id = true) := by
  obtain ⟨below, spawned⟩ | ⟨down, id, picked, cancelled⟩ | unchanged :=
    @scale_cases cfg running depth now order
  · have fewer := running.staffed_le_present
    rw [spawned]
    exact .inr (.inl ⟨running.staffed_spawn now, by omega⟩)
  · have counted := running.staffed_cancel fresh id
    rw [cancelled]
    cases held : running.unsignalled id with
    | false => exact .inl (by simpa [held] using counted.symm)
    | true => exact .inr (.inr ⟨by simpa [held] using counted, down, id, picked, held⟩)
  · rw [unchanged]
    exact .inl rfl

/-- While the pool's context is not cancelled, only a tick changes how many workers run that are not
signalled. -/
theorem staffed_step {action : RunningAction} (uncancelled : running.pool.cancelled = false)
    (living : Living action) (stepped : running.step proc cfg action = some after) :
    after.pool.cancelled = false ∧ (after.staffed = running.staffed ∨
      ∃ depth now order, action = .tick (some depth) now order ∧
        order.Perm running.pool.present ∧ after = running.scale cfg depth now order) := by
  cases action with
  | cancel => exact absurd living id
  | fetcher env =>
    obtain ⟨pool, moved, rfl⟩ := Option.map_eq_some_iff.mp stepped
    obtain ⟨workers, nextID⟩ := Pool.fetcher_frame moved
    refine ⟨Pool.fetcher_cancelled moved ▸ uncancelled, .inl (staffed_congr nextID fun id => ?_)⟩
    simp only [unsignalled, workers]
  | worker id env =>
    obtain ⟨pool, moved, rfl⟩ := Option.map_eq_some_iff.mp stepped
    obtain ⟨worker, next, stores, jobCh, current, rfl, turns, stops⟩ := Pool.worker_signals moved
    refine ⟨uncancelled, .inl (staffed_congr rfl fun other => ?_)⟩
    by_cases same : other = id
    · subst same
      simp only [unsignalled, Pool.setWorker_same, current, Option.any_some]
      cases next with
      | some turned => simp [turns turned rfl]
      | none =>
        -- A worker that stops was signalled: the pool's context has not ended.
        obtain cancelled | evicted := stops rfl
        · rw [uncancelled] at cancelled
          cases cancelled
        · simp [evicted]
    · simp only [unsignalled, Pool.setWorker_other next same]
  | tick depth now order =>
    obtain ⟨-, same, ⟨-, rfl⟩ | ⟨read, rfl, moved⟩⟩ := step_tick stepped
    · exact ⟨uncancelled, .inl rfl⟩
    · refine ⟨?_, .inr ⟨read, now, order, rfl, same, moved⟩⟩
      obtain rfl | rfl | ⟨id, rfl⟩ := tick_cases stepped
      · exact uncancelled
      · exact uncancelled
      · rw [cancelWorker_cancelled]
        exact uncancelled
  | stopScaler =>
    obtain ⟨cancelled, -⟩ := step_stopScaler stepped
    rw [uncancelled] at cancelled
    cases cancelled
  | outside jobs redis =>
    cases stepped
    exact ⟨uncancelled, .inl (staffed_congr rfl fun _ => rfl)⟩

theorem start_staffed {stores : Stores} {startedAt : Nat → Time} (floor : 0 ≤ cfg.minWorkers) :
    ((start cfg stores startedAt).staffed : Int) = cfg.minWorkers := by
  have held : ∀ id ∈ List.range cfg.minWorkers.toNat,
      (start cfg stores startedAt).unsignalled id = true := by
    intro id known
    have inside : id < cfg.minWorkers.toNat := List.mem_range.mp known
    simp only [unsignalled, start, Pool.start, if_pos inside]
    rfl
  have counted := List.countP_eq_length.mpr held
  rw [List.length_range] at counted
  rw [staffed, show (start cfg stores startedAt).pool.nextID = cfg.minWorkers.toNat from rfl, counted]
  exact Int.toNat_of_nonneg floor

/-- What holds of the pool while its context is not cancelled. -/
structure Manned (cfg : PoolConfig) (running : Running) : Prop where
  living : running.pool.cancelled = false
  fresh : running.pool.Fresh
  ceiling : running.staffed ≤ cfg.maxWorkers

theorem Manned.step {action : RunningAction} (manned : Manned cfg running) (living : Living action)
    (stepped : running.step proc cfg action = some after) : Manned cfg after := by
  have ceiling := manned.ceiling
  obtain ⟨uncancelled, same | ⟨depth, now, order, -, -, rfl⟩⟩ :=
    staffed_step manned.living living stepped
  · exact ⟨uncancelled, step_fresh manned.fresh stepped, by omega⟩
  · refine ⟨uncancelled, step_fresh manned.fresh stepped, ?_⟩
    obtain same | ⟨more, below⟩ | ⟨fewer, -⟩ := @staffed_scale cfg _ manned.fresh depth now order
    all_goals omega

theorem start_manned {stores : Stores} {startedAt : Nat → Time} (floor : 0 ≤ cfg.minWorkers)
    (ceiling : cfg.minWorkers ≤ cfg.maxWorkers) : Manned cfg (start cfg stores startedAt) :=
  ⟨rfl, Pool.start_fresh _ _, start_staffed floor ▸ ceiling⟩

/-- The ceiling holds in every run, whatever the ticks find. -/
theorem staffed_le_maxWorkers {stores : Stores} {startedAt : Nat → Time} {last : Running}
    (floor : 0 ≤ cfg.minWorkers) (ceiling : cfg.minWorkers ≤ cfg.maxWorkers)
    (run : Reach (Moves (step proc cfg)) (fun _ action => Living action)
      (start cfg stores startedAt) last) : (last.staffed : Int) ≤ cfg.maxWorkers := by
  have manned : Manned cfg last := by
    apply run.invariant (Manned cfg) (start_manned floor ceiling)
    intro before action after manned living stepped
    exact manned.step living stepped
  exact manned.ceiling

/-- Under the condition a tick keeps the floor: at the floor it picks a worker that was signalled
before. -/
theorem floor_scale {depth : Int} {now : Time} {order : List Nat} (manned : Manned cfg running)
    (floor : cfg.minWorkers ≤ running.staffed) (same : order.Perm running.pool.present)
    (keeps : running.KeepsFloor cfg (.tick (some depth) now order)) :
    cfg.minWorkers ≤ (running.scale cfg depth now order).staffed := by
  obtain kept | ⟨more, -⟩ | ⟨fewer, down, id, picked, held⟩ :=
    @staffed_scale cfg _ manned.fresh depth now order
  · omega
  · omega
  · obtain above | outdone := keeps down
    · omega
    · rw [(picks_no_iff now running.unsignalled).mpr outdone order same id picked] at held
      cases held

/-- A tick keeps the floor, whatever the order of the map, exactly under the condition. -/
theorem keepsFloor_iff (manned : Manned cfg running) (floor : cfg.minWorkers ≤ running.staffed)
    (depth : Int) (now : Time) (order : List Nat) :
    (∀ order : List Nat, order.Perm running.pool.present →
      cfg.minWorkers ≤ (running.scale cfg depth now order).staffed) ↔
    running.KeepsFloor cfg (.tick (some depth) now order) := by
  constructor
  · intro kept down
    -- Otherwise some order of the map picks an unsignalled worker at the floor.
    apply Classical.byContradiction
    intro neither
    obtain ⟨notAbove, notOutdone⟩ := not_or.mp neither
    apply notOutdone
    rw [← picks_no_iff now running.unsignalled]
    intro order same id picked
    have counted := running.staffed_cancel manned.fresh id
    have left := kept order same
    rw [scale_down down, picked, Option.elim_some] at left
    cases held : running.unsignalled id with
    | false => rfl
    | true =>
      rw [held] at counted
      simp only [if_true] at counted
      omega
  · exact fun keeps order same => floor_scale manned floor same keeps

end Running

end Taskfire
