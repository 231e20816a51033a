import Taskfire.Library.Potential
import Taskfire.Safety.Calls
import Taskfire.Safety.Scaling

/-!
# `Wait` returns

Once the context of a pool is cancelled, its fetcher and its workers have a bounded number of turns
left: what they hold and what is in the channel pays for all of them (`Covers`).  Until `Wait` returns
one of them can take a turn, or the scaler can stop.  So no order of the turns makes `Wait` block for
good, as long as the calls that the turns make return.
-/

namespace Taskfire

open Taskfire.Library

/-! ## Calls of one job -/

section Bounds

variable {proc : Processor} {checks : Nat}

/-- Processing a job takes the calls of the dependency check and at most 23 others. -/
theorem process_within (checked : ∀ job, (proc.canRun job).Within checks) (job : Job) :
    (proc.process job).Within (checks + 23) := by
  apply (checked job).bind 23
  intro outcome
  cases outcome with
  | error error => exact (@nack_calls [] job).within.bind 21 fun _ => trivial
  | ok allowed =>
    cases allowed with
    | false => exact (@putOff_calls [] job).within.mono (by decide)
    | true => exact (execute_calls job).within

end Bounds

/-! ## What a pool has left to do -/

/-- So many turns are enough for the fetcher once the context has ended, where a worker takes
`work + 2` turns for a job that the fetcher still puts in the channel. -/
def Fetcher.affords (work : Nat) : Fetcher → Nat → Prop
  | .stopped, _ => True
  | .polling, turns => 1 ≤ turns
  | .dequeuing program, turns => ∃ calls, program.Within calls ∧ calls + work + 7 ≤ turns
  | .delivering _, turns => work + 6 ≤ turns
  | .handingBack program, turns => ∃ calls, program.Within calls ∧ calls + 1 ≤ turns

/-- So many turns are enough for the worker, with the job it has. -/
def Worker.affords : Worker → Nat → Prop
  | ⟨_, none⟩, turns => 1 ≤ turns
  | ⟨_, some task⟩, turns => ∃ calls, task.program.Within calls ∧ calls + 2 ≤ turns

namespace Pool

/-- The turns the fetcher and the workers have left when the context ends, where the calls for one job
are at most `work`. -/
def shutdownTurns (work : Nat) (pool : Pool) : Nat :=
  work + 8 + (pool.jobCh.length + pool.present.length) * (work + 2)

/-- The turns that were taken, and the workers that were spawned meanwhile. -/
structure Turns where
  taken : Nat
  spawned : Nat

def turning (turns : Turns) (_ : Pool) : PoolAction → Turns
  | .fetcher _ | .worker _ _ => { turns with taken := turns.taken + 1 }
  | .spawn => { turns with spawned := turns.spawned + 1 }
  | _ => turns

variable {work buffer : Nat} {proc : Processor} {pool after : Pool} {env : Env}

/-- No program of the pool makes more calls than the source's functions do. -/
structure Bounded (work : Nat) (pool : Pool) : Prop where
  dequeuing : ∀ program, pool.fetcher = .dequeuing program → program.Within 1
  handing : ∀ program, pool.fetcher = .handingBack program → program.Within 4
  tasks : ∀ number evicted task, pool.workers number = some ⟨evicted, some task⟩ →
    task.program.Within work

theorem within_next {α : Type} {c : Call} {next : c.Reply → Prog α} {bound : Nat} (reply : c.Reply)
    (within : (Program.call c next : Prog α).Within bound) :
    (next reply).Within bound ∧ ∃ calls, (next reply).Within calls ∧ calls + 1 ≤ bound := by
  cases bound with
  | zero => cases within
  | succ bound => exact ⟨(within reply).mono (Nat.le_succ bound), bound, within reply, Nat.le_refl _⟩

theorem Bounded.fetch {fetcher : Fetcher} (bounded : pool.Bounded work)
    (same : after.workers = pool.workers) (turned : after.fetcher = fetcher)
    (dequeuing : ∀ program, fetcher = .dequeuing program → program.Within 1)
    (handing : ∀ program, fetcher = .handingBack program → program.Within 4) :
    after.Bounded work := by
  subst turned
  refine ⟨dequeuing, handing, ?_⟩
  rw [same]
  exact bounded.tasks

theorem fetcher_bounded (bounded : pool.Bounded work)
    (stepped : pool.stepFetcher buffer env = some after) : after.Bounded work := by
  cases fetcher_turns stepped with
  | ends | obtains | waits | fails | retries | delivers | handed =>
    refine bounded.fetch rfl rfl ?_ ?_ <;> intro program shape <;> cases shape
  | dequeues polls =>
    refine bounded.fetch rfl rfl ?_ ?_ <;> intro program shape <;> cases shape
    exact (@dequeue_calls []).within
  | calls dequeuing =>
    refine bounded.fetch rfl rfl ?_ ?_ <;> intro program shape <;> cases shape
    exact (within_next _ (bounded.dequeuing _ dequeuing)).1
  | keeps selects =>
    refine bounded.fetch rfl rfl ?_ ?_ <;> intro program shape <;> cases shape
    exact (@handBack_calls [] _).within
  | handsBack handing =>
    refine bounded.fetch rfl rfl ?_ ?_ <;> intro program shape <;> cases shape
    exact (within_next _ (bounded.handing _ handing)).1

/-- One worker turns to a state whose program is bounded. -/
theorem Bounded.turn {number : Nat} {worker : Option Worker} (bounded : pool.Bounded work)
    (stores : Stores) (jobCh : List Job)
    (own : ∀ evicted task, worker = some ⟨evicted, some task⟩ → task.program.Within work) :
    ({ pool with stores, jobCh }.setWorker number worker).Bounded work := by
  refine ⟨bounded.dequeuing, bounded.handing, ?_⟩
  intro other evicted task current
  by_cases same : other = number
  · subst same
    rw [setWorker_same] at current
    exact own evicted task current
  · rw [setWorker_other worker same] at current
    exact bounded.tasks other evicted task current

theorem worker_bounded (processed : ∀ job, (proc.process job).Within work) {number : Nat}
    (bounded : pool.Bounded work) (stepped : pool.stepWorker proc number env = some after) :
    after.Bounded work := by
  cases worker_turns stepped with
  | receives current =>
    refine bounded.turn pool.stores _ fun evicted task shape => ?_
    cases shape
    exact processed _
  | stops | returns =>
    refine bounded.turn pool.stores pool.jobCh fun evicted task shape => ?_
    cases shape
  | calls current =>
    refine bounded.turn _ pool.jobCh fun evicted task shape => ?_
    cases shape
    exact (within_next _ (bounded.tasks _ _ _ current)).1

theorem step_bounded (processed : ∀ job, (proc.process job).Within work) {action : PoolAction}
    (bounded : pool.Bounded work) (stepped : pool.step proc buffer action = some after) :
    after.Bounded work := by
  cases action with
  | cancel | expire | outside =>
    cases stepped
    exact ⟨bounded.dequeuing, bounded.handing, bounded.tasks⟩
  | fetcher env => exact fetcher_bounded bounded stepped
  | worker number env => exact worker_bounded processed bounded stepped
  | spawn =>
    simp only [step] at stepped
    split at stepped
    · cases stepped
      have grown : ({ pool with nextID := pool.nextID + 1 } : Pool).Bounded work :=
        ⟨bounded.dequeuing, bounded.handing, bounded.tasks⟩
      refine grown.turn pool.stores pool.jobCh fun evicted task shape => ?_
      cases shape
    · cases stepped
  | evict number =>
    simp only [step] at stepped
    split at stepped
    · next worker current =>
      split at stepped
      · cases stepped
        refine bounded.turn pool.stores pool.jobCh fun evicted task shape => ?_
        obtain ⟨before, busy⟩ := worker
        cases shape
        exact bounded.tasks number before task current
      · cases stepped
    · cases stepped
  | stopScaler =>
    simp only [step] at stepped
    split at stepped
    · cases stepped
      exact ⟨bounded.dequeuing, bounded.handing, bounded.tasks⟩
    · cases stepped

theorem start_bounded (minWorkers : Nat) (stores : Stores) :
    (start minWorkers stores).Bounded work := by
  refine ⟨?_, ?_, ?_⟩
  · intro program shape
    cases shape
  · intro program shape
    cases shape
  · intro number evicted task current
    simp only [start] at current
    split at current <;> cases current

/-! ## Turns after the end of the context -/

/-- The context has ended, and what is left to do is within what was granted. -/
def Winding (work granted taken : Nat) (pool : Pool) : Prop :=
  pool.cancelled = true ∧ ∃ rest share, pool.fetcher.affords work rest ∧
    (∀ number worker, pool.workers number = some worker → worker.affords (share number)) ∧
    Covers granted (taken + rest + pool.jobCh.length * (work + 2)) share

/-- After the context has ended the fetcher does not dequeue again. -/
theorem polling_ends (polls : pool.fetcher = .polling) (cancelled : pool.cancelled = true)
    (stepped : pool.stepFetcher buffer env = some after) : after.fetcher = .stopped := by
  simp only [stepFetcher, polls, cancelled, if_true] at stepped
  cases stepped
  rfl

/-- A turn of the fetcher is paid from what it affords, with the work it puts in the channel. -/
theorem fetcher_pays {rest : Nat} (cancelled : pool.cancelled = true)
    (affords : pool.fetcher.affords work rest)
    (stepped : pool.stepFetcher buffer env = some after) :
    ∃ left, after.fetcher.affords work left ∧
      left + 1 + after.jobCh.length * (work + 2) ≤ rest + pool.jobCh.length * (work + 2) := by
  have paid {left : Nat} (fewer : left + 1 ≤ rest) :
      left + 1 + pool.jobCh.length * (work + 2) ≤ rest + pool.jobCh.length * (work + 2) :=
    Nat.add_le_add_right fewer _
  cases fetcher_turns stepped with
  | ends polls =>
    have one : 1 ≤ rest := by rwa [polls] at affords
    exact ⟨0, trivial, paid one⟩
  | dequeues polls => cases polling_ends polls cancelled stepped
  | calls dequeuing =>
    rw [dequeuing] at affords
    obtain ⟨calls, within, enough⟩ := affords
    obtain ⟨-, fewer, shorter, less⟩ := within_next _ within
    exact ⟨rest - 1, ⟨fewer, shorter, by omega⟩, paid (by omega)⟩
  | obtains dequeued =>
    rw [dequeued] at affords
    obtain ⟨calls, -, enough⟩ := affords
    exact ⟨work + 6, Nat.le_refl _, paid (by omega)⟩
  | waits dequeued | retries dequeued =>
    rw [dequeued] at affords
    obtain ⟨calls, -, enough⟩ := affords
    exact ⟨1, Nat.le_refl 1, paid (by omega)⟩
  | fails dequeued =>
    rw [dequeued] at affords
    obtain ⟨calls, -, enough⟩ := affords
    exact ⟨0, trivial, paid (by omega)⟩
  | @delivers job selects =>
    have enough : work + 6 ≤ rest := by rwa [selects] at affords
    refine ⟨1, Nat.le_refl 1, ?_⟩
    rw [List.length_append, List.length_singleton, Nat.add_mul]
    omega
  | @keeps job selects =>
    have enough : work + 6 ≤ rest := by rwa [selects] at affords
    exact ⟨5, ⟨4, (@handBack_calls [] job).within, Nat.le_refl 5⟩, paid (by omega)⟩
  | handsBack handing =>
    rw [handing] at affords
    obtain ⟨calls, within, enough⟩ := affords
    obtain ⟨-, fewer, shorter, less⟩ := within_next _ within
    exact ⟨rest - 1, ⟨fewer, shorter, by omega⟩, paid (by omega)⟩
  | handed handing =>
    rw [handing] at affords
    obtain ⟨calls, -, enough⟩ := affords
    exact ⟨0, trivial, paid (by omega)⟩

/-- A turn of a worker is paid from what it affords, with the work it takes from the channel. -/
theorem worker_pays {number share : Nat} (processed : ∀ job, (proc.process job).Within work)
    (affords : ∀ worker, pool.workers number = some worker → worker.affords share)
    (stepped : pool.stepWorker proc number env = some after) :
    ∃ left, (∀ worker, after.workers number = some worker → worker.affords left) ∧
      left + 1 + after.jobCh.length * (work + 2) ≤ share + pool.jobCh.length * (work + 2) := by
  have turned {changed : Pool} {next : Option Worker} {left : Nat}
      (affordable : ∀ worker, next = some worker → worker.affords left) (worker : Worker)
      (current : (changed.setWorker number next).workers number = some worker) :
      worker.affords left := by
    rw [setWorker_same] at current
    exact affordable worker current
  have paid {left : Nat} (fewer : left + 1 ≤ share) :
      left + 1 + pool.jobCh.length * (work + 2) ≤ share + pool.jobCh.length * (work + 2) :=
    Nat.add_le_add_right fewer _
  cases worker_turns stepped with
  | @receives evicted job left current channel queue =>
    have one : 1 ≤ share := affords _ current
    refine ⟨work + 2, turned fun worker same => ?_, ?_⟩
    · cases same
      exact ⟨work, processed job, Nat.le_refl _⟩
    · show work + 2 + 1 + left.length * (work + 2) ≤ _
      rw [queue, List.length_cons, Nat.add_mul]
      omega
  | stops current =>
    have one : 1 ≤ share := affords _ current
    refine ⟨0, turned fun worker same => ?_, paid one⟩
    cases same
  | calls current =>
    obtain ⟨calls, within, enough⟩ := affords _ current
    obtain ⟨-, fewer, shorter, less⟩ := within_next _ within
    refine ⟨share - 1, turned fun worker same => ?_, paid (by omega)⟩
    cases same
    exact ⟨fewer, shorter, by omega⟩
  | returns current =>
    obtain ⟨calls, -, enough⟩ := affords _ current
    refine ⟨1, turned fun worker same => ?_, paid (by omega)⟩
    cases same
    exact Nat.le_refl 1

theorem winding_fetcher {granted taken : Nat} (winding : Winding work granted taken pool)
    (stepped : pool.stepFetcher buffer env = some after) :
    Winding work granted (taken + 1) after := by
  obtain ⟨cancelled, rest, share, fetching, working, covers⟩ := winding
  obtain ⟨left, affords, paid⟩ := fetcher_pays cancelled fetching stepped
  obtain ⟨workers, -⟩ := fetcher_frame stepped
  refine ⟨(fetcher_cancelled stepped).trans cancelled, left, share, affords, workers ▸ working, ?_⟩
  exact Covers.mono covers (by omega)

theorem winding_worker (processed : ∀ job, (proc.process job).Within work) {granted taken number : Nat}
    (winding : Winding work granted taken pool)
    (stepped : pool.stepWorker proc number env = some after) :
    Winding work granted (taken + 1) after := by
  obtain ⟨cancelled, rest, share, fetching, working, covers⟩ := winding
  obtain ⟨left, affords, paid⟩ := worker_pays processed (fun worker => working number worker) stepped
  obtain ⟨_, turned, stores, jobCh, -, rfl⟩ := worker_frame stepped
  refine ⟨cancelled, rest, Function.update share number left, fetching, ?_, ?_⟩
  · intro other worker current
    by_cases own : other = number
    · subst own
      rw [Function.update_self]
      exact affords worker current
    · rw [Function.update_of_ne own]
      rw [setWorker_other turned own] at current
      exact working other worker current
  · have pays : taken + 1 + rest + jobCh.length * (work + 2) + Function.update share number left number ≤
        taken + rest + pool.jobCh.length * (work + 2) + share number + 0 := by
      rw [Function.update_self]
      have same : ({ pool with stores, jobCh }.setWorker number turned).jobCh = jobCh := rfl
      rw [same] at paid
      omega
    exact Covers.pays covers number (fun other different => Function.update_of_ne different ..) pays

/-- A new worker has one turn, in which it stops. -/
theorem winding_spawn {granted taken : Nat} (winding : Winding work granted taken pool) :
    Winding work (granted + 1) taken pool.spawnWorker := by
  obtain ⟨cancelled, rest, share, fetching, working, covers⟩ := winding
  refine ⟨cancelled, rest, Function.update share pool.nextID 1, fetching, ?_, ?_⟩
  · intro other worker current
    by_cases own : other = pool.nextID
    · subst own
      rw [spawnWorker, setWorker_same] at current
      cases current
      rw [Function.update_self]
      exact Nat.le_refl 1
    · rw [Function.update_of_ne own]
      rw [spawnWorker, setWorker_other _ own] at current
      exact working other worker current
  · apply Covers.pays covers pool.nextID
    · exact fun other different => Function.update_of_ne different ..
    · rw [Function.update_self]
      show taken + rest + pool.jobCh.length * (work + 2) + 1 ≤ _
      omega

/-- Where a worker's own context ends, it has no more to do than before. -/
theorem winding_evict {granted taken number : Nat} {worker : Worker}
    (winding : Winding work granted taken pool) (known : pool.workers number = some worker) :
    Winding work granted taken (pool.setWorker number (some { worker with evicted := true })) := by
  obtain ⟨cancelled, rest, share, fetching, working, covers⟩ := winding
  refine ⟨cancelled, rest, share, fetching, ?_, covers⟩
  intro other held current
  by_cases own : other = number
  · subst own
    rw [setWorker_same] at current
    cases current
    have affords := working other worker known
    obtain ⟨evicted, _ | task⟩ := worker <;> exact affords
  · rw [setWorker_other _ own] at current
    exact working other held current

theorem winding_step (processed : ∀ job, (proc.process job).Within work) {granted : Nat}
    {turns : Turns} {action : PoolAction}
    (winding : Winding work (granted + turns.spawned) turns.taken pool)
    (stepped : pool.step proc buffer action = some after) :
    Winding work (granted + (turning turns pool action).spawned) (turning turns pool action).taken
      after := by
  cases action with
  | fetcher env => exact winding_fetcher winding stepped
  | worker number env => exact winding_worker processed winding stepped
  | spawn =>
    simp only [step] at stepped
    split at stepped
    · cases stepped
      exact winding_spawn winding
    · cases stepped
  | evict number =>
    simp only [step] at stepped
    split at stepped
    · next worker known =>
      split at stepped
      · cases stepped
        exact winding_evict winding known
      · cases stepped
    · cases stepped
  | stopScaler =>
    simp only [step] at stepped
    split at stepped
    · cases stepped
      exact winding
    · cases stepped
  | expire | outside =>
    cases stepped
    exact winding
  | cancel =>
    cases stepped
    exact ⟨rfl, winding.2⟩

/-- What a bounded pool has left when its context ends. -/
theorem winding_cancelled (fresh : pool.Fresh) (bounded : pool.Bounded work)
    (cancelled : pool.cancelled = true) :
    Winding work (pool.shutdownTurns work) 0 pool := by
  refine ⟨cancelled, work + 8,
    fun number => if number ∈ pool.present then work + 2 else 0, ?_, ?_, ?_⟩
  · cases shape : pool.fetcher with
    | polling => exact Nat.le_add_left 1 _
    | dequeuing program => exact ⟨1, bounded.dequeuing program shape, by omega⟩
    | delivering job => exact Nat.add_le_add_left (by decide) work
    | handingBack program => exact ⟨4, bounded.handing program shape, by omega⟩
    | stopped => exact trivial
  · intro number worker current
    have alive : number ∈ pool.present := (mem_present fresh).mpr (by rw [current]; rfl)
    simp only [if_pos alive]
    obtain ⟨evicted, _ | task⟩ := worker
    · exact Nat.le_add_left 1 _
    · exact ⟨work, bounded.tasks number evicted task current, Nat.le_refl _⟩
  · have listed : Covers (0 + (work + 8) + pool.jobCh.length * (work + 2) +
        pool.present.length * (work + 2)) (0 + (work + 8) + pool.jobCh.length * (work + 2))
          fun number => if number ∈ pool.present then work + 2 else 0 := by
      apply Covers.of_listed
      · intro number
        split
        · exact Nat.le_refl _
        · exact Nat.zero_le _
      · exact fun number gone => if_neg gone
    have same : pool.shutdownTurns work = 0 + (work + 8) + pool.jobCh.length * (work + 2) +
        pool.present.length * (work + 2) := by
      rw [shutdownTurns, Nat.add_mul]
      omega
    rw [same]
    exact listed

/-! ## Someone can go on -/

/-- A select whose context has ended can take that case, and every other turn is enabled. -/
theorem fetcher_goesOn (cancelled : pool.cancelled = true) (runs : pool.fetcher ≠ .stopped) :
    ∃ after, pool.step proc buffer (.fetcher ended) = some after := by
  obtain ⟨stores, _, fetcher, jobCh, workers, nextID, scaling, obtained⟩ := pool
  cases cancelled
  cases fetcher with
  | polling => exact ⟨_, rfl⟩
  | dequeuing program =>
    cases program with
    | call c next => exact ⟨_, rfl⟩
    | pure outcome => obtain error | _ | job := outcome <;> exact ⟨_, rfl⟩
  | delivering job => exact ⟨_, rfl⟩
  | handingBack program => cases program <;> exact ⟨_, rfl⟩
  | stopped => exact absurd rfl runs

theorem worker_goesOn {number : Nat} {worker : Worker} (cancelled : pool.cancelled = true)
    (alive : pool.workers number = some worker) :
    ∃ after, pool.step proc buffer (.worker number ended) = some after := by
  obtain ⟨evicted, _ | ⟨job, program, settled⟩⟩ := worker
  · refine ⟨pool.setWorker number none, ?_⟩
    simp only [step, stepWorker, alive, cancelled, Bool.true_or, if_true]
    rfl
  · cases program <;> simp only [step, stepWorker, alive] <;> exact ⟨_, rfl⟩

/-- A turn of the fetcher, of a worker, or the end of the scaler. -/
def PoolAction.goesOn : PoolAction → Bool
  | .fetcher _ | .worker _ _ | .stopScaler => true
  | _ => false

theorem goesOn_of_waiting (cancelled : pool.cancelled = true) (waiting : ¬pool.Waited) :
    ∃ action after, PoolAction.goesOn action = true ∧ pool.step proc buffer action = some after := by
  by_cases scales : pool.scaling = true
  · exact ⟨.stopScaler, _, rfl, if_pos cancelled⟩
  · by_cases stopped : pool.fetcher = .stopped
    · have alive : ∃ number, pool.workers number ≠ none := by
        by_contra gone
        exact waiting ⟨stopped, Bool.eq_false_iff.mpr scales, not_exists_not.mp gone⟩
      obtain ⟨number, alive⟩ := alive
      obtain ⟨worker, current⟩ := Option.ne_none_iff_exists'.mp alive
      obtain ⟨after, stepped⟩ := worker_goesOn cancelled current
      exact ⟨.worker number ended, after, rfl, stepped⟩
    · obtain ⟨after, stepped⟩ := fetcher_goesOn cancelled stopped
      exact ⟨.fetcher ended, after, rfl, stepped⟩

/-! ## Every run -/

/-- After the context of a pool has ended, its fetcher and its workers take at most so many turns, and
one for each worker that is spawned meanwhile, in whatever order; until `Wait` returns, one of them can
take a turn or the scaler can stop. -/
theorem wait_returns {checks minWorkers : Nat} {stores : Stores} {first : Pool} {last : Pool × Turns}
    (checked : ∀ job, (proc.canRun job).Within checks)
    (run : Reach (Moves (step proc buffer)) (fun _ _ => True) (start minWorkers stores) first)
    (cancelled : first.cancelled = true)
    (shut : Reach (Moves (chronicle (step proc buffer) turning)) (fun _ _ => True) (first, ⟨0, 0⟩)
      last) :
    last.2.taken ≤ first.shutdownTurns (checks + 23) + last.2.spawned ∧
      (¬last.1.Waited → ∃ action after, PoolAction.goesOn action = true ∧
        last.1.step proc buffer action = some after) := by
  have processed := process_within checked
  have fresh : first.Fresh := fresh_reach run
  have bounded : first.Bounded (checks + 23) := by
    refine run.invariant (Bounded (checks + 23)) (start_bounded minWorkers stores) ?_
    exact fun _ _ _ bounded _ stepped => step_bounded processed bounded stepped
  have winding : Winding (checks + 23) (first.shutdownTurns (checks + 23) + last.2.spawned)
      last.2.taken last.1 := by
    refine shut.invariant (fun current => Winding (checks + 23)
      (first.shutdownTurns (checks + 23) + current.2.spawned) current.2.taken current.1)
      (winding_cancelled fresh bounded cancelled) ?_
    intro before action next winding _ moved
    obtain ⟨stepped, recorded⟩ := chronicle_eq_some moved
    rw [recorded]
    exact winding_step processed winding stepped
  obtain ⟨ended, rest, share, -, -, covers⟩ := winding
  have spent := Covers.spent_le covers
  exact ⟨by omega, goesOn_of_waiting ended⟩

theorem canRun_within (retrier : Retry.Manager) (job : Job) :
    (Processor.canRun ⟨some Engine.checker, retrier⟩ job).Within 1 := by
  simp only [Processor.canRun, Engine.checker, Engine.canRun]
  split
  · exact trivial
  · intro reply
    cases reply <;> exact trivial

/-- The context ends while the handler of a worker runs, and after twelve turns `Wait` returns. -/
theorem wait_returns_busy : ∃ (first : Pool) (last : Pool × Turns), first.shutdownTurns 24 = 58 ∧
    last.1.waited = true ∧ last.2.taken = 12 ∧
    last.2.taken ≤ first.shutdownTurns 24 + last.2.spawned ∧
      (¬last.1.Waited → ∃ action after, PoolAction.goesOn action = true ∧
        last.1.step .wired 1 action = some after) := by
  have reached : ∃ first, Reach (Moves (step .wired 1)) (fun _ _ => True) (start 1 queued) first ∧
      (first.cancelled && decide (first.shutdownTurns 24 = 58) &&
        (replay (chronicle (step .wired 1) turning) unchecked (first, ⟨0, 0⟩)
          (works 10 ++ stops)).any fun last => last.1.waited && decide (last.2.taken = 12)) = true :=
    replay_reaches unchecked (fun _ _ _ => trivial) (fetches 4 ++ works 6 ++ [.cancel]) _
      (by decide +kernel)
  obtain ⟨first, run, checked⟩ := reached
  obtain ⟨begun, shuts⟩ := Bool.and_eq_true .. ▸ checked
  obtain ⟨cancelled, bound⟩ := Bool.and_eq_true .. ▸ begun
  obtain ⟨last, shut, checked⟩ := replay_reaches unchecked
    (fun _ _ _ => trivial) _ _ shuts
  obtain ⟨waited, taken⟩ := Bool.and_eq_true .. ▸ checked
  exact ⟨first, last, of_decide_eq_true bound, waited, of_decide_eq_true taken,
    wait_returns (canRun_within _) run cancelled shut⟩

end Pool

end Taskfire
