import Lob.Library.Schedule
import Lob.MatchingEngine.Run
import Lob.MatchingEngine.Simulation
import Lob.PartitionedEngine.Worker

/-!
# Each shard runs its symbols one command after another

`Shard.Moves` lists everything that a step of any thread can do to a shard. Only its own
worker takes commands out of its queue and touches its engines, so the commands that were
inserted are, in order, those that were applied, the one in the worker's hands and those in
the queue. Restricted to one symbol, the applied commands form a run of a single engine.
-/

namespace Lob

/-! ### What can happen to a shard -/

namespace Shard

/-- A step of some thread, seen from one shard. -/
inductive Moves (limits : RiskLimits) (belongs : Symbol → Prop) (shard : Shard) : Shard → Prop where
  | stays : Moves limits belongs shard shard
  | inserts {command : PartitionedCommand} {queue : MPMCQueue PartitionedCommand}
      (here : belongs command.symbol) (inserts : shard.queue.Inserts command queue) :
      Moves limits belongs shard { shard with queue, inserted := shard.inserted ++ [command] }
  | closes : Moves limits belongs shard { shard with queue := shard.queue.close }
  | pops {command : PartitionedCommand} {queue : MPMCQueue PartitionedCommand}
      (popping : shard.worker = .popping) (front : shard.queue.buffer = command :: queue.buffer) :
      Moves limits belongs shard { shard with queue, worker := .popped command }
  | processes {command : PartitionedCommand} (popped : shard.worker = .popped command) :
      Moves limits belongs shard (shard.process limits command)
  | goes {point : WorkerPoint} (unapplied : point.unapplied = shard.worker.unapplied)
      (undelivered : point.undelivered = shard.worker.undelivered) (running : point ≠ .faulted) :
      Moves limits belongs shard { shard with worker := point }
  | completes {entry : ProcessedCommand} (completing : shard.worker = .completing entry) :
      Moves limits belongs shard (shard.complete entry)

end Shard

namespace PartitionedEngine

variable {config : PartitionedConfig}

/-- A fact about the changed shard and about unchanged shards holds of all. -/
theorem moves_update {engine : PartitionedEngine config} {index : config.ShardId} {shard : Shard}
    (moves : (engine.shards index).Moves config.limits (config.shardIndex · = index) shard)
    (id : config.ShardId) :
    (engine.shards id).Moves config.limits (config.shardIndex · = id)
      (Function.update engine.shards index shard id) := by
  by_cases same : id = index
  · subst same
    rw [Function.update_self]
    exact moves
  · rw [Function.update_of_ne same]
    exact .stays

/-- A producer changes a shard only by inserting into its queue. -/
theorem producerStep_shards (engine : PartitionedEngine config) (producer : Fin config.producers)
    (call : PartitionedCall) (id : config.ShardId) :
    (engine.producerStep producer call).shards id = engine.shards id ∨
      ∃ command queue, config.shardIndex command.symbol = id ∧
        (engine.shards id).queue.Inserts command queue ∧
        (engine.producerStep producer call).shards id =
          { engine.shards id with
            queue
            inserted := (engine.shards id).inserted ++ [command] } := by
  unfold producerStep
  cases engine.producers producer with
  | counted command blocking =>
      unfold insert
      dsimp only
      split
      · exact Or.inl rfl
      · exact Or.inl rfl
      · rename_i shard offered
        obtain ⟨queue, inserts, rfl⟩ := Shard.inserts_of_offer offered
        by_cases here : id = config.shardIndex command.symbol
        · subst here
          exact Or.inr ⟨command, queue, rfl, inserts, Function.update_self _ _ _⟩
        · exact Or.inl (Function.update_of_ne here _ _)
  | idle =>
      dsimp only
      split <;> exact Or.inl rfl
  | refused command =>
      dsimp only
      split <;> exact Or.inl rfl
  | admitted command blocking => exact Or.inl rfl
  | inserted command => exact Or.inl rfl
  | notifying command => exact Or.inl rfl
  | rejecting command => exact Or.inl rfl

theorem producerStep_moves (engine : PartitionedEngine config) (producer : Fin config.producers)
    (call : PartitionedCall) (id : config.ShardId) :
    (engine.shards id).Moves config.limits (config.shardIndex · = id)
      ((engine.producerStep producer call).shards id) := by
  rcases engine.producerStep_shards producer call id with same | ⟨_, _, here, inserts, changed⟩
  · rw [same]
    exact .stays
  · rw [changed]
    exact .inserts here inserts

theorem workerStep_moves (engine : PartitionedEngine config) (worker id : config.ShardId) :
    (engine.shards id).Moves config.limits (config.shardIndex · = id)
      ((engine.workerStep worker).shards id) := by
  have acts := engine.workerStep_acts worker
  generalize engine.workerStep worker = next at acts ⊢
  cases acts with
  | stays => exact .stays
  | exits popping _ _ =>
      refine moves_update (.goes ?_ ?_ WorkerPoint.noConfusion) id
      · rw [popping]
        rfl
      · rw [popping]
        rfl
  | pops popping front => exact moves_update (.pops popping front) id
  | processes popped => exact moves_update (.processes popped) id
  | records before after =>
      refine moves_update (.goes ?_ (after.trans before.symm) ?_) id
      · rw [WorkerPoint.unapplied_of_undelivered before,
          WorkerPoint.unapplied_of_undelivered after]
      · rintro rfl
        contradiction
  | completes completing => exact moves_update (.completes completing) id
  | finishes finishing =>
      refine moves_update (.goes ?_ ?_ ?_) id
      · rw [finishing]
        split <;> rfl
      · rw [finishing]
        split <;> rfl
      · split <;> exact WorkerPoint.noConfusion
  | notifies notifying =>
      refine moves_update (.goes ?_ ?_ WorkerPoint.noConfusion) id
      · rw [notifying]
        rfl
      · rw [notifying]
        rfl

theorem waiterStep_shards (engine : PartitionedEngine config) (waiter : Fin config.waiters) :
    (engine.waiterStep waiter).shards = engine.shards := by
  unfold waiterStep
  cases engine.waiters waiter with
  | locking =>
      dsimp only
      split <;> rfl
  | checking =>
      dsimp only
      split <;> rfl
  | outside => rfl
  | sleeping => rfl
  | blocked => rfl

/-- `shutdown` changes a shard only by closing its queue. -/
theorem closerStep_shards (engine : PartitionedEngine config) (closer : Fin config.closers)
    (id : config.ShardId) :
    (engine.closerStep closer).shards id = engine.shards id ∨
      (engine.closerStep closer).shards id =
        { engine.shards id with queue := (engine.shards id).queue.close } := by
  unfold closerStep
  cases engine.closers closer with
  | closing index =>
      dsimp only
      split
      · rename_i inside
        by_cases here : id = ⟨index, inside⟩
        · subst here
          exact Or.inr (Function.update_self _ _ _)
        · exact Or.inl (Function.update_of_ne here _ _)
      · exact Or.inl rfl
  | joining index =>
      dsimp only
      split
      · split <;> exact Or.inl rfl
      · exact Or.inl rfl
  | outside =>
      dsimp only
      split <;> exact Or.inl rfl
  | notifying => exact Or.inl rfl
  | finished => exact Or.inl rfl

theorem closerStep_moves (engine : PartitionedEngine config) (closer : Fin config.closers)
    (id : config.ShardId) :
    (engine.shards id).Moves config.limits (config.shardIndex · = id)
      ((engine.closerStep closer).shards id) := by
  rcases engine.closerStep_shards closer id with same | closed
  · rw [same]
    exact .stays
  · rw [closed]
    exact .closes

/-- Every step of every thread is one of the listed moves of each shard. -/
theorem step_moves (engine : PartitionedEngine config) (event : PartitionedEvent config)
    (id : config.ShardId) :
    (engine.shards id).Moves config.limits (config.shardIndex · = id)
      ((engine.step event).shards id) := by
  cases event with
  | producer producer call => exact engine.producerStep_moves producer call id
  | worker worker => exact engine.workerStep_moves worker id
  | closer closer => exact engine.closerStep_moves closer id
  | waiter waiter =>
      rw [step, waiterStep_shards]
      exact .stays

/-! ### What only workers write -/

/-- The states agree in everything that only workers write. -/
structure SameRecords (engine engine' : PartitionedEngine config) : Prop where
  tradeLog : engine'.tradeLog = engine.tradeLog
  processed : engine'.processed = engine.processed
  accepted : engine'.accepted = engine.accepted
  rejected : engine'.rejected = engine.rejected
  trades : engine'.trades = engine.trades
  latencyCount : engine'.latencyCount = engine.latencyCount
  applied : ∀ id, (engine'.shards id).applied = (engine.shards id).applied
  worker : ∀ id, (engine'.shards id).worker = (engine.shards id).worker

theorem sameRecords_refl (engine : PartitionedEngine config) : SameRecords engine engine :=
  ⟨rfl, rfl, rfl, rfl, rfl, rfl, fun _ => rfl, fun _ => rfl⟩

theorem sameRecords_setShard (engine : PartitionedEngine config) {id : config.ShardId}
    {shard : Shard} (applied : shard.applied = (engine.shards id).applied)
    (worker : shard.worker = (engine.shards id).worker) :
    SameRecords engine (engine.setShard id shard) := by
  have same := sameRecords_refl engine
  refine { same with applied := fun other => ?_, worker := fun other => ?_ }
  all_goals
    by_cases here : other = id
    · subst here
      rw [shards_setShard, Function.update_self]
      assumption
    · rw [shards_setShard, Function.update_of_ne here]

theorem producerStep_sameRecords (engine : PartitionedEngine config)
    (producer : Fin config.producers) (call : PartitionedCall) :
    SameRecords engine (engine.producerStep producer call) := by
  have same := sameRecords_refl engine
  unfold producerStep
  cases engine.producers producer with
  | counted command blocking =>
      unfold insert
      dsimp only
      split
      · exact same
      · exact { same with }
      · rename_i shard offered
        obtain ⟨queue, _, rfl⟩ := Shard.inserts_of_offer offered
        have taken : SameRecords engine (engine.setShard (config.shardIndex command.symbol)
            { engine.shards (config.shardIndex command.symbol) with
              queue
              inserted := (engine.shards (config.shardIndex command.symbol)).inserted ++
                [command] }) := engine.sameRecords_setShard rfl rfl
        exact { taken with }
  | idle =>
      dsimp only
      split <;> exact { same with }
  | refused command =>
      dsimp only
      split <;> exact { same with }
  | admitted command blocking => exact { same with }
  | inserted command => exact { same with }
  | notifying command => exact { same with }
  | rejecting command => exact { same with }

theorem waiterStep_sameRecords (engine : PartitionedEngine config) (waiter : Fin config.waiters) :
    SameRecords engine (engine.waiterStep waiter) := by
  have same := sameRecords_refl engine
  unfold waiterStep
  cases engine.waiters waiter with
  | locking =>
      dsimp only
      split <;> exact { same with }
  | checking =>
      dsimp only
      split <;> exact { same with }
  | outside => exact { same with }
  | sleeping => exact { same with }
  | blocked => exact { same with }

theorem closerStep_sameRecords (engine : PartitionedEngine config) (closer : Fin config.closers) :
    SameRecords engine (engine.closerStep closer) := by
  have same := sameRecords_refl engine
  unfold closerStep
  cases engine.closers closer with
  | closing index =>
      dsimp only
      split
      · rename_i inside
        have closed : SameRecords engine (engine.setShard ⟨index, inside⟩
            { engine.shards ⟨index, inside⟩ with
              queue := (engine.shards ⟨index, inside⟩).queue.close }) :=
          engine.sameRecords_setShard rfl rfl
        exact { closed with }
      · exact { same with }
  | joining index =>
      dsimp only
      split
      · split <;> exact { same with }
      · exact { same with }
  | outside =>
      dsimp only
      split <;> exact { same with }
  | notifying => exact { same with }
  | finished => exact same

/-- Every step leaves the records alone or is a turn of a worker. -/
theorem step_sameRecords (engine : PartitionedEngine config) (event : PartitionedEvent config) :
    SameRecords engine (engine.step event) ∨
      ∃ id, engine.WorkerTurns id (engine.step event) := by
  cases event with
  | producer producer call => exact Or.inl (engine.producerStep_sameRecords producer call)
  | worker id => exact Or.inr ⟨id, engine.workerStep_turns id⟩
  | waiter waiter => exact Or.inl (engine.waiterStep_sameRecords waiter)
  | closer closer => exact Or.inl (engine.closerStep_sameRecords closer)

end PartitionedEngine

/-! ### One symbol of a shard -/

/-- The commands for one symbol. -/
def commandsOf (symbol : Symbol) (commands : List PartitionedCommand) : List Command :=
  (commands.filter (fun command => decide (command.symbol = symbol))).map PartitionedCommand.command

/-- The results for one symbol. -/
def resultsOf (symbol : Symbol) (entries : List ProcessedCommand) : List PartitionedCommandResult :=
  (entries.filter (fun entry => decide (entry.command.symbol = symbol))).map ProcessedCommand.result

/-- What the worker passes on of an engine's response. -/
def Response.result (response : Response) : PartitionedCommandResult :=
  ⟨response.report, response.outTrades⟩

/-- The engine and the results of a symbol are those of a run of one engine. -/
def RunsSequentially (limits : RiskLimits) (commands : List Command)
    (engine : Option MatchingEngine) (results : List PartitionedCommandResult) : Prop :=
  ∃ responses, (MatchingEngine.fresh limits).responses commands = .ok responses ∧
    engine = responses.getLast?.map Response.engine ∧ results = responses.map Response.result

theorem RunsSequentially.concat {limits : RiskLimits} {commands : List Command}
    {engine : Option MatchingEngine} {results : List PartitionedCommandResult}
    (runs : RunsSequentially limits commands engine results) {command : Command}
    {response : Response}
    (applied : (engine.getD (.fresh limits)).apply command [] = .ok response) :
    RunsSequentially limits (commands ++ [command]) (some response.engine)
      (results ++ [response.result]) := by
  obtain ⟨responses, run, rfl, rfl⟩ := runs
  refine ⟨responses ++ [response], MatchingEngine.responses_concat run applied, ?_, ?_⟩
  · rw [List.getLast?_concat]
    rfl
  · rw [List.map_append]
    rfl

namespace Shard

structure Sequential (limits : RiskLimits) (belongs : Symbol → Prop) (shard : Shard) : Prop where
  inserted : shard.inserted =
    shard.applied.map ProcessedCommand.command ++ shard.worker.unapplied ++ shard.queue.buffer
  here : ∀ command ∈ shard.inserted, belongs command.symbol
  delivered : ∃ settled, shard.applied = settled ++ shard.worker.undelivered ∧
    shard.delivered = settled.filter (fun entry => entry.command.completion)
  runs : ∀ symbol, RunsSequentially limits
    (commandsOf symbol (shard.applied.map ProcessedCommand.command)) (shard.engines symbol)
    (resultsOf symbol shard.applied)
  consistent : ∀ symbol, ((shard.engines symbol).getD (.fresh limits)).Consistent
  running : shard.worker ≠ .faulted

/-- The section under `state_mutex` adds one command to the run of its symbol and leaves the
other symbols alone. -/
theorem Sequential.process {limits : RiskLimits} {belongs : Symbol → Prop} {shard : Shard}
    (sequential : shard.Sequential limits belongs) {command : PartitionedCommand}
    (popped : shard.worker = .popped command) :
    (shard.process limits command).Sequential limits belongs := by
  obtain ⟨response, applied, consistent⟩ :=
    (sequential.consistent command.symbol).apply command.command []
  have inserted := sequential.inserted
  obtain ⟨settled, all, delivered⟩ := sequential.delivered
  simp only [popped, WorkerPoint.unapplied, WorkerPoint.undelivered, List.append_nil]
    at inserted all
  simp only [Shard.process, applied]
  refine ⟨?_, sequential.here, ?_, ?_, ?_, WorkerPoint.noConfusion⟩
  · simp [inserted]
  · exact ⟨settled, by simp [all], delivered⟩
  · intro symbol
    have runs := sequential.runs symbol
    by_cases same : command.symbol = symbol
    · subst same
      simpa [commandsOf, resultsOf, Response.result] using runs.concat applied
    · simpa [commandsOf, resultsOf, same, Ne.symm same] using runs
  · intro symbol
    by_cases same : symbol = command.symbol
    · subst same
      simpa using consistent
    · simpa [same] using sequential.consistent symbol

theorem Sequential.moves {limits : RiskLimits} {belongs : Symbol → Prop} {shard next : Shard}
    (sequential : shard.Sequential limits belongs) (moves : shard.Moves limits belongs next) :
    next.Sequential limits belongs := by
  cases moves with
  | stays => exact sequential
  | inserts here inserts =>
      obtain ⟨_, _, rfl⟩ := inserts
      refine { sequential with inserted := ?_, here := ?_ }
      · simp [sequential.inserted, MPMCQueue.pushBack]
      · intro command member
        rcases List.mem_append.mp member with old | new
        · exact sequential.here command old
        · obtain rfl := List.mem_singleton.mp new
          exact here
  | closes => exact { sequential with }
  | pops popping front =>
      have inserted := sequential.inserted
      have delivered := sequential.delivered
      rw [popping, front] at inserted
      rw [popping] at delivered
      refine { sequential with inserted := ?_, delivered := delivered, running := ?_ }
      · simpa using inserted
      · exact WorkerPoint.noConfusion
  | processes popped => exact sequential.process popped
  | goes unapplied undelivered running =>
      refine { sequential with inserted := ?_, delivered := ?_, running := running }
      · rw [unapplied]
        exact sequential.inserted
      · rw [undelivered]
        exact sequential.delivered
  | completes completing =>
      rename_i entry
      have inserted := sequential.inserted
      obtain ⟨settled, all, delivered⟩ := sequential.delivered
      rw [completing] at inserted all
      refine { sequential with
        inserted := inserted, delivered := ?_, running := WorkerPoint.noConfusion }
      refine ⟨settled ++ [entry], by simpa [Shard.complete] using all, ?_⟩
      simp only [Shard.complete]
      rw [List.filter_append, delivered]
      cases promise : entry.command.completion <;> simp [promise]

end Shard

/-! ### Whole runs -/

namespace PartitionedEngine

variable {config : PartitionedConfig}

/-- Every shard works off its commands in order. -/
def Sequential (engine : PartitionedEngine config) : Prop :=
  ∀ id, (engine.shards id).Sequential config.limits (config.shardIndex · = id)

theorem sequential_initial (config : PartitionedConfig) : (initial config).Sequential := by
  intro id
  refine ⟨rfl, fun _ member => absurd member List.not_mem_nil, ⟨[], rfl, rfl⟩, fun symbol => ?_,
    fun _ => consistent_fresh config.limits, WorkerPoint.noConfusion⟩
  exact ⟨[], rfl, rfl, rfl⟩

theorem Sequential.step {engine : PartitionedEngine config} (sequential : engine.Sequential)
    (event : PartitionedEvent config) : (engine.step event).Sequential :=
  fun id => (sequential id).moves (engine.step_moves event id)

theorem sequential_run (events : List (PartitionedEvent config)) :
    (Schedule.run step (initial config) events).Sequential :=
  Schedule.run_invariant (fun _ event known => known.step event) (sequential_initial config) events

/-- A symbol without an engine is valid. -/
theorem validate_eq (engine : PartitionedEngine config) (symbol : Symbol) :
    engine.validate symbol =
      ((engine.engineOf symbol).map (fun engine => engine.book.checkInvariants)).getD true := by
  rw [validate]
  cases engine.engineOf symbol <;> rfl

/-- Per-symbol sequential equivalence. At every point of every interleaving, the commands of
a symbol are in the queue of its own shard only, and its engine and its results are those of
one engine that ran alone on a prefix of these commands in the order of their insertion. The
promises that its worker has set hold these results. -/
theorem symbol_runs_sequentially (config : PartitionedConfig)
    (events : List (PartitionedEvent config)) (symbol : Symbol) :
    let engine := Schedule.run step (initial config) events
    let shard := engine.shards (config.shardIndex symbol)
    (∀ id, ∀ command ∈ (engine.shards id).inserted, command.symbol = symbol →
      id = config.shardIndex symbol) ∧
    shard.delivered <+: shard.applied.filter (fun entry => entry.command.completion) ∧
    ∃ processed waiting responses,
      commandsOf symbol shard.inserted = processed ++ waiting ∧
      commandsOf symbol (shard.applied.map ProcessedCommand.command) = processed ∧
      (MatchingEngine.fresh config.limits).responses processed = .ok responses ∧
      resultsOf symbol shard.applied = responses.map Response.result ∧
      engine.engineOf symbol = responses.getLast?.map Response.engine ∧
      engine.snapshot symbol = responses.getLast?.map (fun response => response.engine.snapshot) ∧
      engine.validate symbol = (responses.getLast?.map
        (fun response => response.engine.book.checkInvariants)).getD true := by
  intro engine shard
  have sequential : engine.Sequential := sequential_run events
  have own : shard.Sequential config.limits _ := sequential (config.shardIndex symbol)
  refine ⟨?_, ?_, ?_⟩
  · intro id command member same
    rw [← (sequential id).here command member, same]
  · obtain ⟨settled, all, delivered⟩ := own.delivered
    rw [all, delivered, List.filter_append]
    exact List.prefix_append _ _
  · obtain ⟨responses, run, last, results⟩ := own.runs symbol
    refine ⟨_, commandsOf symbol (shard.worker.unapplied ++ shard.queue.buffer), responses, ?_,
      rfl, run, results, last, ?_, ?_⟩
    · rw [own.inserted, List.append_assoc]
      simp only [commandsOf, List.filter_append, List.map_append]
    · rw [snapshot, engineOf]
      exact (congrArg (Option.map MatchingEngine.snapshot) last).trans (Option.map_map _ _ _)
    · rw [validate_eq, engineOf]
      exact congrArg (·.getD true)
        ((congrArg (Option.map (fun engine => engine.book.checkInvariants)) last).trans
          (Option.map_map _ _ _))

end PartitionedEngine

end Lob
