import Lob.MatchingEngine.Counters
import Lob.PartitionedEngine.Pending
import Lob.PartitionedEngine.Shards

/-!
# The trade log of the partitioned engine

A worker records the trades of a command one by one, after it has left `state_mutex`, in a
log that all workers share. Only the worker of a symbol's shard records trades of that
symbol, in the order in which its engine made them, so the log of a symbol is a window of
the trades of its sequential run: it lags behind by what the worker has yet to record, and
eviction forgets old trades, but it has no gaps and nothing out of order.
-/

namespace Lob

/-- The trades of the results for one symbol. -/
def tradesOf (symbol : Symbol) (entries : List ProcessedCommand) : List Trade :=
  (resultsOf symbol entries).flatMap PartitionedCommandResult.trades

theorem tradesOf_append (symbol : Symbol) (front back : List ProcessedCommand) :
    tradesOf symbol (front ++ back) = tradesOf symbol front ++ tradesOf symbol back := by
  simp [tradesOf, resultsOf]

theorem tradesOf_cons (symbol : Symbol) (entry : ProcessedCommand)
    (entries : List ProcessedCommand) :
    tradesOf symbol (entry :: entries) =
      (if entry.command.symbol = symbol then entry.result.trades else []) ++
        tradesOf symbol entries := by
  by_cases own : entry.command.symbol = symbol <;> simp [tradesOf, resultsOf, own]

/-- The trades of a symbol that the worker has yet to record. -/
def WorkerPoint.unrecorded (symbol : Symbol) : WorkerPoint → List Trade
  | .recording entry trades => if entry.command.symbol = symbol then trades else []
  | _ => []

theorem WorkerPoint.unrecorded_of_undelivered {point : WorkerPoint}
    (free : point.undelivered = []) (symbol : Symbol) : point.unrecorded symbol = [] := by
  cases point with
  | recording entry trades => contradiction
  | _ => rfl

/-- The log of a symbol holds the last of its trades, up to those that the worker has yet to
record. -/
def LoggedAt (log : TradeLog) (shard : Shard) (symbol : Symbol) : Prop :=
  ∃ recorded, tradesOf symbol shard.applied = recorded ++ shard.worker.unrecorded symbol ∧
    log.bySymbol symbol = recorded.rtake log.maxPerSymbol

section LoggedAt

variable {log log' : TradeLog} {shard shard' : Shard} {symbol : Symbol}

theorem LoggedAt.congr (logged : LoggedAt log shard symbol)
    (applied : shard'.applied = shard.applied)
    (unrecorded : shard'.worker.unrecorded symbol = shard.worker.unrecorded symbol)
    (same : log'.bySymbol symbol = log.bySymbol symbol)
    (depth : log'.maxPerSymbol = log.maxPerSymbol) : LoggedAt log' shard' symbol := by
  rw [LoggedAt, applied, unrecorded, same, depth]
  exact logged

/-- The section under `state_mutex` leaves the trades of its command to be recorded. -/
theorem LoggedAt.process (logged : LoggedAt log shard symbol) {command : PartitionedCommand}
    (popped : shard.worker = .popped command) (limits : RiskLimits) :
    LoggedAt log (shard.process limits command) symbol := by
  rw [Shard.process]
  dsimp only
  split
  · exact logged.congr rfl (by rw [popped]; rfl) rfl rfl
  · obtain ⟨recorded, all, window⟩ := logged
    refine ⟨recorded, ?_, window⟩
    simp only [popped, WorkerPoint.unrecorded, List.append_nil] at all
    dsimp only
    rw [tradesOf_append, tradesOf_cons, all]
    exact congrArg (recorded ++ ·) (List.append_nil _)

/-- The worker records a trade. -/
theorem LoggedAt.record (logged : LoggedAt log shard symbol) {entry : ProcessedCommand}
    {trade : Trade} {trades : List Trade}
    (recording : shard.worker = .recording entry (trade :: trades)) :
    LoggedAt (log.record entry.command.symbol trade)
      { shard with worker := .recording entry trades } symbol := by
  by_cases own : symbol = entry.command.symbol
  · subst own
    obtain ⟨recorded, all, window⟩ := logged
    refine ⟨recorded ++ [trade], ?_, ?_⟩
    · simp only [recording, WorkerPoint.unrecorded, if_true] at all ⊢
      rw [all, List.append_assoc, List.singleton_append]
    · rw [TradeLog.bySymbol_record_self, window, Window.push_rtake,
        TradeLog.maxPerSymbol_record]
  · refine logged.congr rfl ?_ (TradeLog.bySymbol_record_of_ne log own trade) rfl
    simp only [recording, WorkerPoint.unrecorded, if_neg (Ne.symm own)]

end LoggedAt

namespace PartitionedEngine

variable {config : PartitionedConfig} {engine next : PartitionedEngine config} {id : config.ShardId}

/-! ### The log follows every symbol -/

/-- The log of every symbol follows the shard of the symbol. -/
structure Logged (engine : PartitionedEngine config) : Prop where
  depth : engine.tradeLog.maxPerSymbol = config.tradeLogDepth
  symbols : ∀ symbol,
    LoggedAt engine.tradeLog (engine.shards (config.shardIndex symbol)) symbol

theorem logged_initial (config : PartitionedConfig) : (initial config).Logged :=
  ⟨rfl, fun _ => ⟨[], rfl, List.rtake_nil _ |>.symm⟩⟩

theorem Logged.keep (logged : engine.Logged) (same : SameRecords engine next) : next.Logged := by
  have log := same.tradeLog
  refine ⟨log ▸ logged.depth, fun symbol => ?_⟩
  exact (logged.symbols symbol).congr (same.applied _) (by rw [same.worker]) (by rw [log])
    (by rw [log])

/-- One shard and the log of its symbols change. -/
theorem Logged.update (logged : engine.Logged) {shard : Shard}
    (shards : next.shards = Function.update engine.shards id shard)
    (depth : next.tradeLog.maxPerSymbol = engine.tradeLog.maxPerSymbol)
    (others : ∀ symbol, config.shardIndex symbol ≠ id →
      next.tradeLog.bySymbol symbol = engine.tradeLog.bySymbol symbol)
    (own : ∀ symbol, LoggedAt engine.tradeLog (engine.shards id) symbol →
      LoggedAt next.tradeLog shard symbol) : next.Logged := by
  refine ⟨depth.trans logged.depth, fun symbol => ?_⟩
  have before := logged.symbols symbol
  rw [shards]
  by_cases here : config.shardIndex symbol = id
  · subst here
    rw [Function.update_self]
    exact own symbol before
  · rw [Function.update_of_ne here]
    exact before.congr rfl rfl (others symbol here) depth

/-- A worker walks on and records nothing. -/
theorem Logged.walk (logged : engine.Logged) {shard : Shard} (log : next.tradeLog = engine.tradeLog)
    (shards : next.shards = Function.update engine.shards id shard)
    (applied : shard.applied = (engine.shards id).applied)
    (unrecorded : ∀ symbol,
      shard.worker.unrecorded symbol = (engine.shards id).worker.unrecorded symbol) :
    next.Logged := by
  refine logged.update shards (by rw [log]) (fun _ _ => by rw [log]) (fun symbol before => ?_)
  exact before.congr applied (unrecorded symbol) (by rw [log]) (by rw [log])

/-- A command in the hands of a worker belongs to its shard. -/
theorem Sequential.shardIndex_eq (sequential : engine.Sequential) {entry : ProcessedCommand}
    (carries : (engine.shards id).worker.undelivered = [entry]) :
    config.shardIndex entry.command.symbol = id := by
  apply (sequential id).here
  obtain ⟨settled, all, _⟩ := (sequential id).delivered
  rw [(sequential id).inserted, all, carries]
  simp

theorem Logged.turn (logged : engine.Logged) (sequential : engine.Sequential)
    (turns : engine.WorkerTurns id next) : next.Logged := by
  cases turns with
  | stays => exact logged
  | exits popping _ _ => exact logged.walk rfl rfl rfl (fun _ => by rw [popping]; rfl)
  | pops popping _ => exact logged.walk rfl rfl rfl (fun _ => by rw [popping]; rfl)
  | processes popped =>
      exact logged.update rfl rfl (fun _ _ => rfl) (fun _ before => before.process popped _)
  | logs recording =>
      rename_i entry trade trades
      refine logged.update rfl rfl (fun symbol other => ?_)
        (fun _ before => before.record recording)
      apply TradeLog.bySymbol_record_of_ne
      rintro rfl
      exact other (sequential.shardIndex_eq (by rw [recording]; rfl))
  | countsProcessed recorded =>
      refine logged.walk rfl rfl rfl (fun _ => ?_)
      rw [recorded, WorkerPoint.unrecorded, ite_self]
      rfl
  | countsAccepted counting _ => exact logged.walk rfl rfl rfl (fun _ => by rw [counting]; rfl)
  | countsRejected counting _ => exact logged.walk rfl rfl rfl (fun _ => by rw [counting]; rfl)
  | countsTrades counting => exact logged.walk rfl rfl rfl (fun _ => by rw [counting]; rfl)
  | times timing => exact logged.walk rfl rfl rfl (fun _ => by rw [timing]; rfl)
  | completes completing => exact logged.walk rfl rfl rfl (fun _ => by rw [completing]; rfl)
  | finishes finishing =>
      refine logged.walk rfl rfl rfl (fun _ => ?_)
      rw [finishing]
      dsimp only
      split <;> rfl
  | notifies notifying => exact logged.walk rfl rfl rfl (fun _ => by rw [notifying]; rfl)

theorem Logged.step (logged : engine.Logged) (sequential : engine.Sequential)
    (event : PartitionedEvent config) : (engine.step event).Logged := by
  rcases engine.step_sameRecords event with same | ⟨_, turns⟩
  · exact logged.keep same
  · exact logged.turn sequential turns

theorem logged_run (events : List (PartitionedEvent config)) :
    (Schedule.run step (initial config) events).Logged := by
  have invariant := Schedule.run_invariant
    (P := fun engine : PartitionedEngine config => engine.Sequential ∧ engine.Logged)
    (fun _ event known => ⟨known.1.step event, known.2.step known.1 event⟩)
    ⟨sequential_initial config, logged_initial config⟩ events
  exact invariant.2

/-! ### Sequential runs -/

/-- The trades of the results of a sequential run are the trades of the run. -/
theorem flatMap_trades_result (responses : List Response) :
    (responses.map Response.result).flatMap PartitionedCommandResult.trades =
      responses.flatMap Response.outTrades := by
  rw [List.flatMap_map]
  rfl

/-- The run of the applied commands of a symbol goes on to a run of all that its queue has
taken. -/
theorem Sequential.exists_run (sequential : engine.Sequential) (symbol : Symbol) :
    ∃ responses later,
      (MatchingEngine.fresh config.limits).responses
          (commandsOf symbol (engine.shards (config.shardIndex symbol)).inserted) =
        .ok (responses ++ later) ∧
      tradesOf symbol (engine.shards (config.shardIndex symbol)).applied =
        responses.flatMap Response.outTrades ∧
      ((engine.shards (config.shardIndex symbol)).queue.buffer = [] →
        (engine.shards (config.shardIndex symbol)).worker.unapplied = [] → later = []) := by
  have own := sequential (config.shardIndex symbol)
  generalize engine.shards (config.shardIndex symbol) = shard at own ⊢
  obtain ⟨responses, run, last, results⟩ := own.runs symbol
  have consistent := own.consistent symbol
  have reached : (shard.engines symbol).getD (.fresh config.limits) =
      (MatchingEngine.fresh config.limits).lastEngine responses := by
    rw [last, MatchingEngine.lastEngine]
  rw [reached] at consistent
  obtain ⟨later, rest, length⟩ :=
    consistent.responses (commandsOf symbol (shard.worker.unapplied ++ shard.queue.buffer))
  refine ⟨responses, later, ?_, ?_, ?_⟩
  · have split : commandsOf symbol shard.inserted =
        commandsOf symbol (shard.applied.map ProcessedCommand.command) ++
          commandsOf symbol (shard.worker.unapplied ++ shard.queue.buffer) := by
      rw [own.inserted, List.append_assoc]
      simp only [commandsOf, List.filter_append, List.map_append]
    rw [split]
    exact MatchingEngine.responses_append run rest
  · rw [tradesOf, results, flatMap_trades_result]
  · intro drained free
    rw [drained, free] at length
    exact List.length_eq_zero_iff.mp length

/-- A faithful window. At every point of every run, and for every symbol, the log shows the
last of the first `m` trades of the sequential run of the commands that the queue of the
symbol has taken; all of its trades once no command is in flight in its shard. -/
theorem trade_log_window (config : PartitionedConfig) (events : List (PartitionedEvent config))
    (symbol : Symbol) :
    let engine := Schedule.run step (initial config) events
    let shard := engine.shards (config.shardIndex symbol)
    (∀ id, ∀ command ∈ (engine.shards id).inserted, command.symbol = symbol →
      id = config.shardIndex symbol) ∧
    ∃ responses,
      (MatchingEngine.fresh config.limits).responses (commandsOf symbol shard.inserted) =
        .ok responses ∧
      ∃ m ≤ (responses.flatMap Response.outTrades).length,
        (∀ k, engine.tradeLog.recent symbol k =
          ((responses.flatMap Response.outTrades).take m).rtake
            (min k (min config.tradeLogDepth m))) ∧
        engine.tradeLog.count symbol = min config.tradeLogDepth m ∧
        (shard.inFlight = 0 → m = (responses.flatMap Response.outTrades).length) := by
  intro engine shard
  have sequential : engine.Sequential := sequential_run events
  have logged : engine.Logged := logged_run events
  refine ⟨?_, ?_⟩
  · intro id command member same
    rw [← (sequential id).here command member, same]
  · obtain ⟨responses, later, run, trades, drained⟩ := sequential.exists_run symbol
    obtain ⟨recorded, all, window⟩ := logged.symbols symbol
    have shape : (responses ++ later).flatMap Response.outTrades =
        recorded ++ (shard.worker.unrecorded symbol ++ later.flatMap Response.outTrades) := by
      rw [List.flatMap_append, ← trades, all, List.append_assoc]
    have first : ((responses ++ later).flatMap Response.outTrades).take recorded.length =
        recorded := by
      rw [shape, List.take_left]
    refine ⟨_, run, recorded.length, ?_, ?_, ?_, ?_⟩
    · rw [shape, List.length_append]
      exact Nat.le_add_right _ _
    · intro k
      rw [first, ← logged.depth]
      exact TradeLog.recent_of_window window k
    · rw [← logged.depth]
      exact TradeLog.count_of_window window
    · intro none
      obtain ⟨empty, free⟩ := Shard.inFlight_eq_zero_iff.mp none
      have settled := WorkerPoint.unrecorded_of_undelivered
        (WorkerPoint.undelivered_of_inFlight free) symbol
      have taken := drained empty (WorkerPoint.unapplied_of_inFlight free)
      rw [shape, settled, taken, List.flatMap_nil, List.append_nil, List.append_nil]

end PartitionedEngine

end Lob
