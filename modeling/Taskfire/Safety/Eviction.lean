import Taskfire.Safety.Scaling

/-!
# Workers with a job in progress

A worker that the scaler cancels has no job in progress as long as two things hold.  When a scan ends,
each worker at work was read with a smaller idle time than some worker that is not; and a worker that
has been cancelled and finds a job in the channel as well takes the end of its context.
-/

namespace Taskfire

open Taskfire.Library

namespace Scanning

variable {cfg : PoolConfig} {proc : Processor} {scanning after : Scanning} {running : Running}

/-- Of the workers that the scan has read, each that works on a job by now and had been idle for the
timeout had been so for less time than some worker that has none. -/
def Outdone (cfg : PoolConfig) (running : Running) (read : List (Nat × Int)) : Prop :=
  ∀ worker ∈ read, running.busy worker.1 = true → cfg.idleTimeout ≤ worker.2 → 0 < worker.2 →
    ∃ other ∈ read, running.busy other.1 = false ∧ worker.2 < other.2

instance (read : List (Nat × Int)) : Decidable (Outdone cfg running read) :=
  inferInstanceAs (Decidable (∀ worker ∈ read, _))

/-- The step cancels no worker at work, and it is not a cancelled worker that takes a job. -/
def Spares (cfg : PoolConfig) (scanning : Scanning) : ScanningAction → Prop
  | .evict => ∀ eviction ∈ scanning.eviction, eviction.unread = [] →
    Outdone cfg scanning.running eviction.read
  | .running (.worker id env) => scanning.running.unsignalled id = true ∨
    scanning.running.busy id = true ∨ env.delivers = false
  | .running _ => True

instance : DecidablePred (scanning.Spares cfg)
  | .evict => inferInstanceAs (Decidable (∀ eviction ∈ scanning.eviction, _ → _))
  | .running (.worker _ _) => inferInstanceAs (Decidable (_ ∨ _ ∨ _))
  | .running .cancel | .running (.fetcher _) | .running (.tick _ _ _) | .running .stopScaler
  | .running (.outside _ _) => inferInstanceAs (Decidable True)

/-- No worker that the scaler has cancelled is between receiving a job and the return of `Process`. -/
def Clear (running : Running) : Prop :=
  ∀ id, running.busy id = true → running.unsignalled id = true

/-! ## The worker that is picked -/

/-- Whatever the order in which the workers were read, the target has no job in progress, exactly when
those at work are outdone. -/
theorem outdone_iff (now : Time) (read : List (Nat × Int)) :
    (∀ order : List (Nat × Int), order.Perm read → ∀ id,
      Eviction.target cfg ⟨now, [], order⟩ = some id → running.busy id = false) ↔
    Outdone cfg running read := by
  have spares := @longest_spares_iff (Nat × Int) Prod.snd cfg.idleTimeout _
    (fun worker => !running.busy worker.1) read
  simp only [Bool.not_eq_true', Bool.not_eq_false'] at spares
  rw [Outdone, ← spares]
  constructor
  · intro idle order same worker picked
    exact idle order same worker.1 (by rw [Eviction.target, picked]; rfl)
  · intro idle order same id picked
    obtain ⟨worker, found, rfl⟩ := Option.map_eq_some_iff.mp picked
    exact idle order same worker found

/-! ## One step -/

theorem Clear.same {next : Running} (clear : Clear running)
    (same : next.pool.workers = running.pool.workers) : Clear next := by
  intro id
  simp only [Running.busy, Running.unsignalled, same]
  exact clear id

/-- One worker has changed, and it has no job or has not been cancelled. -/
theorem Clear.turn {next : Running} {id : Nat} {worker : Option Worker} (clear : Clear running)
    (workers : next.pool.workers = Function.update running.pool.workers id worker)
    (own : ∀ turned, worker = some turned → turned.task ≠ none → turned.evicted = false) :
    Clear next := by
  intro other
  simp only [Running.busy, Running.unsignalled, workers]
  by_cases turned : other = id
  · subst turned
    cases worker with
    | none => simp
    | some worker => simpa [Option.isSome_iff_ne_none] using own worker rfl
  · rw [Function.update_of_ne turned]
    exact clear other

theorem Clear.spawn (clear : Clear running) (now : Time) : Clear (running.spawnWorker now) := by
  refine clear.turn rfl fun turned fresh _ => ?_
  cases fresh
  rfl

theorem Clear.cancelWorker (clear : Clear running) {id : Nat} (idle : running.busy id = false) :
    Clear (running.cancelWorker id) := by
  obtain ⟨-, same⟩ | ⟨worker, current, moved⟩ := running.cancelWorker_cases id
  · rw [same]
    exact clear
  · refine clear.turn (congrArg Pool.workers moved) fun turned signalled works => ?_
    cases signalled
    simp [Running.busy, current, works] at idle

/-- A turn of a worker puts only a worker to work that the scaler has not cancelled. -/
theorem Clear.worker {id : Nat} {env : Env} {pool : Pool} (clear : Clear running)
    (spares : running.unsignalled id = true ∨ running.busy id = true ∨ env.delivers = false)
    (stepped : running.pool.stepWorker proc id env = some pool) {next : Running}
    (moved : next.pool = pool) : Clear next := by
  have working {evicted : Bool} {task : Task}
      (current : running.pool.workers id = some ⟨evicted, some task⟩) : evicted = false := by
    have kept := clear id (by simp [Running.busy, current])
    simpa [Running.unsignalled, current] using kept
  cases Pool.worker_turns stepped with
  | @receives evicted job rest current channel queue =>
    refine clear.turn (congrArg Pool.workers moved) fun turned works _ => ?_
    cases works
    -- It has no job, and it takes the channel.
    obtain signals | busy | rests := spares
    · simpa [Running.unsignalled, current] using signals
    · simp [Running.busy, current] at busy
    · rw [rests] at channel
      cases channel
  | stops =>
    refine clear.turn (congrArg Pool.workers moved) fun turned gone _ => ?_
    cases gone
  | calls current =>
    refine clear.turn (congrArg Pool.workers moved) fun turned works _ => ?_
    cases works
    exact working current
  | returns current =>
    refine clear.turn (congrArg Pool.workers moved) fun turned rests idle => ?_
    cases rests
    exact absurd rfl idle

/-- A tick that does not scale down cancels nobody. -/
theorem Clear.scale {depth : Int} {now : Time} {order : List Nat} (clear : Clear running)
    (stays : running.scalesDown cfg depth = false) : Clear (running.scale cfg depth now order) := by
  obtain ⟨-, spawned⟩ | ⟨down, -⟩ | unchanged := @Running.scale_cases cfg running depth now order
  · rw [spawned]
    exact clear.spawn now
  · rw [stays] at down
    cases down
  · rw [unchanged]
    exact clear

theorem Clear.evict {eviction : Eviction} (clear : Clear running)
    (outdone : eviction.unread = [] → Outdone cfg running eviction.read) :
    Clear (evict cfg running eviction).running := by
  unfold Scanning.evict
  split
  · exact clear
  · next ended =>
    split
    · next id picked =>
      -- The scan read the map in some order, and in none is the target at work.
      exact clear.cancelWorker ((outdone_iff eviction.now eviction.read).mpr (outdone ended)
        eviction.read (.refl _) id picked)
    · exact clear

/-- A step that spares the workers at work keeps the pool clear. -/
theorem clear_step {action : ScanningAction} (clear : Clear scanning.running)
    (spares : scanning.Spares cfg action)
    (stepped : scanning.step proc cfg action = some after) : Clear after.running := by
  cases action with
  | evict =>
    obtain ⟨eviction, current, rfl⟩ := Option.map_eq_some_iff.mp stepped
    exact clear.evict (spares eviction current)
  | running action =>
    cases action with
    | tick depth now order =>
      simp only [step] at stepped
      split at stepped
      · cases stepped
      · obtain ⟨next, moved, rfl⟩ := Option.map_eq_some_iff.mp stepped
        split
        -- The scan begins, and the workers go on.
        · exact clear
        · next stays =>
          obtain ⟨-, -, ⟨-, rfl⟩ | ⟨read, rfl, rfl⟩⟩ := Running.step_tick moved
          · exact clear
          · exact clear.scale (Bool.eq_false_iff.mpr stays)
    | stopScaler =>
      simp only [step] at stepped
      split at stepped
      · cases stepped
      · obtain ⟨next, moved, rfl⟩ := Option.map_eq_some_iff.mp stepped
        obtain ⟨-, rfl⟩ := Running.step_stopScaler moved
        exact clear
    | worker id env =>
      simp only [step] at stepped
      split at stepped
      · cases stepped
      · next next moved =>
        split at stepped
        · cases stepped
        · cases stepped
          obtain ⟨pool, turned, rfl⟩ := Option.map_eq_some_iff.mp moved
          exact clear.worker spares turned rfl
    | cancel =>
      cases stepped
      exact clear
    | fetcher env =>
      obtain ⟨next, moved, rfl⟩ := Option.map_eq_some_iff.mp stepped
      obtain ⟨pool, turned, rfl⟩ := Option.map_eq_some_iff.mp moved
      exact clear.same (Pool.fetcher_frame turned).1
    | outside jobs redis =>
      cases stepped
      exact clear

/-- A cancelled worker that has no job, and takes one, is exactly what a turn must not do. -/
theorem worker_clear_iff {id : Nat} {env : Env} (clear : Clear scanning.running)
    (stepped : scanning.step proc cfg (.running (.worker id env)) = some after) :
    Clear after.running ↔ scanning.Spares cfg (.running (.worker id env)) := by
  refine ⟨fun stays => ?_, fun spares => clear_step clear spares stepped⟩
  simp only [step] at stepped
  split at stepped
  · cases stepped
  · next next moved =>
    split at stepped
    · cases stepped
    · cases stepped
      obtain ⟨pool, turned, rfl⟩ := Option.map_eq_some_iff.mp moved
      cases Pool.worker_turns turned with
      | @receives evicted job rest current channel queue =>
        have signals := stays id (by simp [Running.busy, Pool.setWorker])
        refine .inl ?_
        simpa [Running.unsignalled, current, Pool.setWorker] using signals
      | stops _ rests => exact .inr (.inr rests)
      | calls current | returns current => exact .inr (.inl (by simp [Running.busy, current]))

/-! ## Ticks that nothing interrupts -/

theorem evict_reads (eviction : Eviction) (unread : List Nat) :
    Reach (Moves (step proc cfg)) (fun _ _ => True) ⟨running, some { eviction with unread }⟩
      ⟨running, some { eviction with
        unread := []
        read := eviction.read ++ unread.map fun id => (id, (running.stats id).idle eviction.now) }⟩ := by
  induction unread generalizing eviction with
  | nil =>
    rw [List.map_nil, List.append_nil]
    exact .refl _
  | cons id rest inductionHypothesis =>
    have reads : Moves (step proc cfg) ⟨running, some { eviction with unread := id :: rest }⟩ .evict
        ⟨running, some { eviction with
          unread := rest
          read := eviction.read ++ [(id, (running.stats id).idle eviction.now)] }⟩ := rfl
    have later := inductionHypothesis
      { eviction with read := eviction.read ++ [(id, (running.stats id).idle eviction.now)] }
    rw [List.append_assoc] at later
    exact (Reach.single trivial reads).trans later

/-- A tick of `Running` is a tick whose scan no other step interrupts. -/
theorem tick_scans {depth : Option Int} {now : Time} {order : List Nat} {next : Running}
    (stepped : running.step proc cfg (.tick depth now order) = some next) :
    Reach (Moves (step proc cfg)) (fun _ _ => True) ⟨running, none⟩ ⟨next, none⟩ := by
  cases down : depth.any fun depth => running.scalesDown cfg depth with
  | false =>
    have ticks : Moves (step proc cfg) ⟨running, none⟩ (.running (.tick depth now order))
        ⟨next, none⟩ := by
      simp [Moves, step, stepped, down]
    exact .single trivial ticks
  | true =>
    obtain ⟨read, rfl, scales⟩ := (Option.any_eq_true ..).mp down
    obtain ⟨-, -, ⟨none, -⟩ | ⟨_, same, rfl⟩⟩ := Running.step_tick stepped
    · cases none
    cases same
    have begins : Moves (step proc cfg) ⟨running, none⟩ (.running (.tick (some read) now order))
        ⟨running, some ⟨now, order, []⟩⟩ := by
      simp [Moves, step, stepped, scales]
    have reads := @evict_reads cfg proc running ⟨now, order, []⟩ order
    -- What is picked in the end is what `longest` finds in the map at once.
    have target : Eviction.target cfg ⟨now, [], order.map fun id => (id, (running.stats id).idle now)⟩ =
        running.evictIdleWorker cfg now order := by
      rw [Eviction.target, longest_map, Option.map_map]
      exact Option.map_id'
    have ends : Moves (step proc cfg)
        ⟨running, some ⟨now, [], [] ++ order.map fun id => (id, (running.stats id).idle now)⟩⟩ .evict
        ⟨running.scale cfg read now order, none⟩ := by
      simp only [Moves, step, Option.map_some, evict, List.nil_append, target]
      rw [Running.scale_down scales]
      cases running.evictIdleWorker cfg now order <;> rfl
    exact ((Reach.single trivial begins).trans reads).tail trivial ends

/-! ## Runs -/

/-- In a run whose steps spare the workers at work, a worker that the scaler has cancelled never has a
job in progress. -/
theorem evicted_idle {stores : Stores} {startedAt : Nat → Time} {last : Scanning}
    (run : Reach (Moves (step proc cfg)) (fun scanning action => scanning.Spares cfg action)
      (start cfg stores startedAt) last) {id : Nat} {worker : Worker}
    (current : last.running.pool.workers id = some worker) (evicted : worker.evicted = true) :
    worker.task = none := by
  have clear : Clear last.running := by
    apply run.invariant (fun scanning => Clear scanning.running)
    · intro id busy
      simp only [Running.busy, start, Running.start, Pool.start] at busy
      split at busy <;> cases busy
    · intro before action after clear spares stepped
      exact clear_step clear spares stepped
  have kept := clear id
  simp only [Running.busy, Running.unsignalled, current, Option.any_some, evicted] at kept
  simpa using kept

/-- Worker 1 receives the job in the middle of the scan that cancels worker 0. -/
theorem evicted_idle_once : ∃ (last : Scanning) (worker : Worker),
    (last.running.pool.workers 0 = some worker ∧ worker.evicted = true ∧
      last.running.busy 1 = true) ∧ worker.task = none := by
  have reached : ∃ last, Reach (Moves (step .wired Running.single))
      (fun scanning action => scanning.Spares Running.single action)
      (start Running.single Pool.queued fun _ => 0) last ∧
      (((last.running.pool.workers 0).any Worker.evicted) && last.running.busy 1) = true :=
    replay_reaches (fun scanning action => decide (scanning.Spares Running.single action))
      (fun _ _ checked => of_decide_eq_true checked)
      ((Running.takesJob 1).dropLast.map .running ++ [.running (.tick (some 0) (61 * second) [0, 1]),
        .evict, .running (.worker 1 (.calm "j")), .evict, .evict]) _ (by decide +kernel)
  obtain ⟨last, run, checked⟩ := reached
  obtain ⟨signalled, busy⟩ := (Bool.and_eq_true ..).mp checked
  obtain ⟨worker, current, evicted⟩ := (Option.any_eq_true ..).mp signalled
  exact ⟨last, worker, ⟨current, evicted, busy⟩, evicted_idle run current evicted⟩

/-- The pool's context is not cancelled. -/
def Living : ScanningAction → Prop
  | .running action => Running.Living action
  | .evict => True

instance : DecidablePred Living
  | .running action => inferInstanceAs (Decidable (Running.Living action))
  | .evict => inferInstanceAs (Decidable True)

/-- Worker 0 has worked on its first job for 60 s when the scan takes it for the longest idle. -/
theorem scaler_interrupts : ∃ last, Reach (Moves (step .wired Running.single))
    (fun _ action => Living action) (start Running.single Pool.queued fun _ => 0) last ∧
      last.running.busy 0 = true ∧ last.running.unsignalled 0 = false := by
  have reached : ∃ last, Reach (Moves (step .wired Running.single)) (fun _ action => Living action)
      (start Running.single Pool.queued fun _ => 0) last ∧
      (last.running.busy 0 && !last.running.unsignalled 0) = true :=
    replay_reaches (fun _ action => decide (Living action))
      (fun _ _ checked => of_decide_eq_true checked)
      ((Running.takesJob 0).map .running ++
        [.running (.tick (some 0) (60 * second) [0, 1]), .evict, .evict, .evict]) _ (by decide +kernel)
  obtain ⟨last, run, checked⟩ := reached
  obtain ⟨works, signalled⟩ := (Bool.and_eq_true ..).mp checked
  exact ⟨last, run, works, by simpa using signalled⟩

end Scanning

end Taskfire
