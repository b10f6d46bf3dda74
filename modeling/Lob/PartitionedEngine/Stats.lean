import Lob.PartitionedEngine.Tallies

/-!
# Idle means done, and the counters add up

Where nobody has anything in hand the counters agree with each other and with what was applied.
`pending_` is different: it covers a command from before its insertion until everything about
it is done, so zero means that everything is done.
-/

namespace Lob

namespace PartitionedEngine

variable {config : PartitionedConfig} {engine : PartitionedEngine config}

/-! ### When nothing is in flight -/

theorem inFlight_eq_zero_iff : engine.inFlight = 0 ↔
    (∀ id, (engine.producers id).inFlight = 0) ∧ ∀ id, (engine.shards id).inFlight = 0 := by
  simp [inFlight]

/-- Everything that is done about an applied command: the log has taken its trades, in their
place among the trades of its symbol, and its promise is set. -/
structure Done (engine : PartitionedEngine config) (entry : ProcessedCommand) : Prop where
  applied : entry ∈ (engine.shards (config.shardIndex entry.command.symbol)).applied
  recorded : ∃ earlier later,
    tradesOf entry.command.symbol
        (engine.shards (config.shardIndex entry.command.symbol)).applied =
      earlier ++ entry.result.trades ++ later ∧
    engine.tradeLog.bySymbol entry.command.symbol =
      (earlier ++ entry.result.trades ++ later).rtake config.tradeLogDepth
  promised : entry.command.completion = true →
    entry ∈ (engine.shards (config.shardIndex entry.command.symbol)).delivered

/-- A command that its queue has taken is done once nothing is in flight in its shard. -/
theorem done_of_took (sequential : engine.Sequential) (logged : engine.Logged)
    {command : PartitionedCommand} (took : engine.Took command)
    (settled : (engine.shards (config.shardIndex command.symbol)).inFlight = 0) :
    ∃ entry, entry.command = command ∧ engine.Done entry := by
  obtain ⟨empty, free⟩ := Shard.inFlight_eq_zero_iff.mp settled
  have undelivered := WorkerPoint.undelivered_of_inFlight free
  have own := sequential (config.shardIndex command.symbol)
  rw [Took, own.inserted, WorkerPoint.unapplied_of_inFlight free, empty, List.append_nil,
    List.append_nil] at took
  obtain ⟨entry, applied, rfl⟩ := List.mem_map.mp took
  refine ⟨entry, rfl, applied, ?_, ?_⟩
  · obtain ⟨recorded, all, window⟩ := logged.symbols entry.command.symbol
    obtain ⟨front, back, shape⟩ := List.append_of_mem applied
    have place := congrArg (tradesOf entry.command.symbol) shape
    rw [tradesOf_append, tradesOf_cons, if_pos rfl, ← List.append_assoc] at place
    rw [WorkerPoint.unrecorded_of_undelivered undelivered, List.append_nil] at all
    refine ⟨_, _, place, ?_⟩
    rw [← place, all, window, logged.depth]
  · intro promise
    obtain ⟨settled, all, delivered⟩ := own.delivered
    rw [undelivered, List.append_nil] at all
    rw [delivered, ← all]
    exact List.mem_filter.mpr ⟨applied, promise⟩

/-- `notify_all` lets nobody out of `waitUntilIdle`. -/
theorem outside_of_notifyAll {id : Fin config.waiters}
    (outside : engine.notifyAll.waiters id = .outside) : engine.waiters id = .outside := by
  simp only [notifyAll] at outside
  split at outside
  · contradiction
  · exact outside

/-- The other threads leave the waiters alone or notify them. -/
theorem step_waiters (engine : PartitionedEngine config) (event : PartitionedEvent config) :
    (engine.step event).waiters = engine.waiters ∨
      (engine.step event).waiters = engine.notifyAll.waiters ∨ ∃ id, event = .waiter id := by
  cases event with
  | waiter id => exact Or.inr (Or.inr ⟨id, rfl⟩)
  | worker id =>
      have acts := engine.workerStep_acts id
      rw [step]
      generalize engine.workerStep id = next at acts ⊢
      cases acts with
      | notifies _ => exact Or.inr (Or.inl rfl)
      | _ => exact Or.inl rfl
  | producer id call =>
      rw [step]
      unfold producerStep
      cases engine.producers id with
      | notifying command => exact Or.inr (Or.inl rfl)
      | counted command blocking =>
          unfold insert
          dsimp only
          split <;> exact Or.inl rfl
      | idle =>
          dsimp only
          split <;> exact Or.inl rfl
      | refused command =>
          dsimp only
          split <;> exact Or.inl rfl
      | _ => exact Or.inl rfl
  | closer id =>
      rw [step]
      unfold closerStep
      cases engine.closers id with
      | notifying => exact Or.inr (Or.inl rfl)
      | outside =>
          dsimp only
          split <;> exact Or.inl rfl
      | closing index =>
          dsimp only
          split <;> exact Or.inl rfl
      | joining index =>
          dsimp only
          split
          · split <;> exact Or.inl rfl
          · exact Or.inl rfl
      | finished => exact Or.inl rfl

/-- `waitUntilIdle` returns only where `pending_` is zero. -/
theorem pending_of_return {event : PartitionedEvent config} {id : Fin config.waiters}
    (inside : engine.waiters id ≠ .outside)
    (returns : (engine.step event).waiters id = .outside) : engine.pending = 0 := by
  rcases engine.step_waiters event with same | notified | ⟨waiter, rfl⟩
  · exact absurd ((congrFun same id).symm.trans returns) inside
  · exact absurd (outside_of_notifyAll ((congrFun notified id).symm.trans returns)) inside
  · by_cases here : id = waiter
    · subst here
      simp only [step, waiterStep] at returns
      split at returns
      · contradiction
      · rename_i locking
        split at returns
        · exact absurd returns inside
        · simp at returns
      · split at returns
        · assumption
        · simp at returns
      · simp at returns
      · simp at returns
    · have other : (engine.waiterStep waiter).waiters id = engine.waiters id := by
        unfold waiterStep
        split
        · exact Function.update_of_ne here _ _
        · split
          · rfl
          · exact Function.update_of_ne here _ _
        · split <;> exact Function.update_of_ne here _ _
        · exact Function.update_of_ne here _ _
        · exact Function.update_of_ne here _ _
      exact absurd (other.symm.trans returns) inside

end PartitionedEngine

/-! ### Quiet states -/

/-- The thread is inside `enqueueCommand`. -/
def ProducerPoint.insideEnqueue : ProducerPoint → Bool
  | .idle => false
  | .rejecting _ => false
  | _ => true

theorem ProducerPoint.free_of_outside {point : ProducerPoint}
    (outside : point.insideEnqueue = false) : point.inFlight = 0 ∧ point.unsubmitted = 0 := by
  cases point with
  | idle => exact ⟨rfl, rfl⟩
  | rejecting command => exact ⟨rfl, rfl⟩
  | _ => contradiction

/-- The trades of all symbols together are the trades of all commands. -/
theorem sum_tradesOf {symbols : Finset Symbol} {entries : List ProcessedCommand}
    (covered : ∀ entry ∈ entries, entry.command.symbol ∈ symbols) :
    ∑ symbol ∈ symbols, (tradesOf symbol entries).length =
      WorkerCounter.trades.total entries := by
  induction entries with
  | nil => exact Finset.sum_const_zero
  | cons entry entries ih =>
      have first : ∑ symbol ∈ symbols,
          (if entry.command.symbol = symbol then entry.result.trades else []).length =
            entry.result.trades.length := by
        rw [Finset.sum_eq_single entry.command.symbol, if_pos rfl]
        · intro other _ different
          rw [if_neg different.symm, List.length_nil]
        · exact fun absent => absurd (covered entry List.mem_cons_self) absent
      simp only [tradesOf_cons, List.length_append, Finset.sum_add_distrib]
      rw [first, ih (fun other member => covered other (List.mem_cons_of_mem _ member)),
        WorkerCounter.total_cons]
      rfl

namespace PartitionedEngine

variable {config : PartitionedConfig} {engine : PartitionedEngine config}

/-- No thread is inside `enqueueCommand` or processes a command, and all queues are empty. -/
structure Quiet (engine : PartitionedEngine config) : Prop where
  producers : ∀ id, (engine.producers id).insideEnqueue = false
  shards : ∀ id, (engine.shards id).inFlight = 0

theorem Quiet.counter_eq (quiet : engine.Quiet) (tallied : engine.Tallied)
    (counter : WorkerCounter) :
    engine.counter counter = UInt64.ofNat (∑ id, counter.total (engine.shards id).applied) := by
  have tally := tallied counter
  rw [Finset.sum_eq_zero] at tally
  · exact tally.eq_of_settled
  · intro id _
    have free := (Shard.inFlight_eq_zero_iff.mp (quiet.shards id)).2
    rw [WorkerPoint.uncounted_of_undelivered (WorkerPoint.undelivered_of_inFlight free),
      WorkerCounter.total_nil]

/-- A counter that counts every command once has counted what was applied. -/
theorem Quiet.counter_eq_length (quiet : engine.Quiet) (tallied : engine.Tallied)
    (counter : WorkerCounter) (once : ∀ entry, counter.weight entry = 1) :
    engine.counter counter = UInt64.ofNat (∑ id, (engine.shards id).applied.length) := by
  rw [quiet.counter_eq tallied]
  exact congrArg UInt64.ofNat
    (Finset.sum_congr rfl (fun id _ => WorkerCounter.total_eq_length once _))

/-- In a quiet state every applied command was counted as accepted or as rejected. -/
theorem Quiet.outcomes_eq (quiet : engine.Quiet) (tallied : engine.Tallied) :
    engine.counter .accepted + engine.counter .rejected =
      UInt64.ofNat (∑ id, (engine.shards id).applied.length) := by
  have outcomes : (∑ id, WorkerCounter.accepted.total (engine.shards id).applied) +
      ∑ id, WorkerCounter.rejected.total (engine.shards id).applied =
        ∑ id, (engine.shards id).applied.length := by
    rw [← Finset.sum_add_distrib]
    exact Finset.sum_congr rfl (fun id _ => WorkerCounter.total_accepted_add_rejected _)
  rw [quiet.counter_eq tallied, quiet.counter_eq tallied, ← UInt64.ofNat_add, outcomes]

theorem Quiet.inFlight_eq (quiet : engine.Quiet) : engine.inFlight = 0 :=
  inFlight_eq_zero_iff.mpr
    ⟨fun id => (ProducerPoint.free_of_outside (quiet.producers id)).1, quiet.shards⟩

/-- In a quiet state everything that was inserted was applied. -/
theorem Quiet.submitted_eq (quiet : engine.Quiet) (submits : engine.Submits)
    (sequential : engine.Sequential) :
    engine.submitted = UInt64.ofNat (∑ id, (engine.shards id).applied.length) := by
  have same : ∀ id, (engine.shards id).inserted.length = (engine.shards id).applied.length := by
    intro id
    obtain ⟨empty, free⟩ := Shard.inFlight_eq_zero_iff.mp (quiet.shards id)
    rw [(sequential id).inserted, WorkerPoint.unapplied_of_inFlight free, empty, List.append_nil,
      List.append_nil, List.length_map]
  have tally := submits
  simp only [Submits, same] at tally
  rw [Finset.sum_eq_zero] at tally
  · exact tally.eq_of_settled
  · exact fun id _ => (ProducerPoint.free_of_outside (quiet.producers id)).2

/-- The number of trades that the engine of a symbol has generated. -/
def generated (engine : PartitionedEngine config) (symbol : Symbol) : Nat :=
  (tradesOf symbol (engine.shards (config.shardIndex symbol)).applied).length

/-- The engine of a symbol has numbered as many trades. -/
theorem Sequential.nextTradeId_eq (sequential : engine.Sequential) {symbol : Symbol}
    {matching : MatchingEngine} (found : engine.engineOf symbol = some matching) :
    matching.nextTradeId = 1 + UInt64.ofNat (engine.generated symbol) := by
  obtain ⟨responses, run, last, results⟩ := (sequential (config.shardIndex symbol)).runs symbol
  have ids := (consistent_fresh config.limits).tradeIds run
  have reached : matching = (MatchingEngine.fresh config.limits).lastEngine responses := by
    rw [engineOf, last] at found
    rw [MatchingEngine.lastEngine, found, Option.getD_some]
  rw [generated, tradesOf, results, flatMap_trades_result, reached]
  exact ids.2

/-- An applied command has an engine. -/
theorem Sequential.engineOf_ne_none (sequential : engine.Sequential) {id : config.ShardId}
    {entry : ProcessedCommand} (applied : entry ∈ (engine.shards id).applied) :
    config.shardIndex entry.command.symbol = id ∧ engine.engineOf entry.command.symbol ≠ none := by
  have here : config.shardIndex entry.command.symbol = id := by
    apply (sequential id).here
    rw [(sequential id).inserted, List.append_assoc]
    exact List.mem_append_left _ (List.mem_map_of_mem applied)
  refine ⟨here, ?_⟩
  subst here
  obtain ⟨responses, _, last, results⟩ :=
    (sequential (config.shardIndex entry.command.symbol)).runs entry.command.symbol
  have member : entry.result ∈ resultsOf entry.command.symbol
      (engine.shards (config.shardIndex entry.command.symbol)).applied :=
    List.mem_map_of_mem (List.mem_filter.mpr ⟨applied, decide_eq_true rfl⟩)
  rw [results] at member
  obtain ⟨response, inResponses, _⟩ := List.mem_map.mp member
  rw [engineOf, last, Ne, Option.map_eq_none_iff, List.getLast?_eq_none_iff]
  exact List.ne_nil_of_mem inResponses

/-- The engines together have generated the trades of all applied commands. -/
theorem Sequential.sum_generated (sequential : engine.Sequential) {symbols : Finset Symbol}
    (covered : ∀ symbol, engine.engineOf symbol ≠ none → symbol ∈ symbols) :
    ∑ symbol ∈ symbols, engine.generated symbol =
      ∑ id, WorkerCounter.trades.total (engine.shards id).applied := by
  have spread : ∀ symbol, engine.generated symbol =
      ∑ id, (tradesOf symbol (engine.shards id).applied).length := by
    intro symbol
    rw [Finset.sum_eq_single (config.shardIndex symbol)]
    · rfl
    · -- the other shards have no command of the symbol
      intro id _ other
      have none : (engine.shards id).applied.filter
          (fun entry => decide (entry.command.symbol = symbol)) = [] := by
        rw [List.filter_eq_nil_iff]
        intro entry applied same
        obtain rfl := of_decide_eq_true same
        exact other (sequential.engineOf_ne_none applied).1.symm
      rw [tradesOf, resultsOf, none]
      rfl
    · exact fun absent => absurd (Finset.mem_univ _) absent
  simp only [spread]
  rw [Finset.sum_comm]
  refine Finset.sum_congr rfl (fun id _ => sum_tradesOf (fun entry applied => ?_))
  exact covered _ (sequential.engineOf_ne_none applied).2

/-- Idle means done, and the statistics add up. At every point of every run `pending_` is the
number of commands in flight. Where it is zero, and so wherever `waitUntilIdle` returns, every
command whose call returned true is applied, recorded and answered. In quiet states the
counters agree with each other, and `trades_` with the engines of all symbols, modulo `2 ^ 64`
as they count. -/
theorem idle_means_done (config : PartitionedConfig) (events : List (PartitionedEvent config)) :
    let engine := Schedule.run step (initial config) events
    engine.pending = engine.inFlight ∧
    (∀ event id, engine.waiters id ≠ .outside → (engine.step event).waiters id = .outside →
      engine.pending = 0) ∧
    (engine.pending = 0 → ∀ command, (command, true) ∈ engine.returned →
      ∃ entry, entry.command = command ∧ engine.Done entry) ∧
    (engine.Quiet →
      engine.stats.pending = 0 ∧
      engine.stats.submitted = engine.stats.processed ∧
      engine.stats.processed = engine.stats.accepted + engine.stats.rejected ∧
      engine.stats.processed = engine.stats.endToEndLatencyCount ∧
      (∀ symbol matching, engine.engineOf symbol = some matching →
        matching.nextTradeId = 1 + UInt64.ofNat (engine.generated symbol)) ∧
      ∀ symbols : Finset Symbol, (∀ symbol, engine.engineOf symbol ≠ none → symbol ∈ symbols) →
        engine.stats.trades = UInt64.ofNat (∑ symbol ∈ symbols, engine.generated symbol)) := by
  intro engine
  have pending : engine.pending = engine.inFlight := pending_eq_inFlight config events
  have sequential : engine.Sequential := sequential_run events
  refine ⟨pending, fun _ _ => pending_of_return, ?_, ?_⟩
  · intro zero command returned
    rw [pending] at zero
    have settled := (inFlight_eq_zero_iff.mp (Int.ofNat_eq_zero.mp zero)).2
    exact done_of_took sequential (logged_run events)
      ((accounted_run events).returned command returned) (settled _)
  · intro quiet
    have tallied : engine.Tallied := tallied_run events
    have submitted := quiet.submitted_eq (submits_run events) sequential
    have processed := quiet.counter_eq_length tallied .processed (fun _ => rfl)
    have timed := quiet.counter_eq_length tallied .latency (fun _ => rfl)
    refine ⟨?_, submitted.trans processed.symm, ?_, processed.trans timed.symm,
      fun _ _ => sequential.nextTradeId_eq, ?_⟩
    · exact pending.trans (congrArg Int.ofNat quiet.inFlight_eq)
    · exact processed.trans (quiet.outcomes_eq tallied).symm
    · intro symbols covered
      rw [sequential.sum_generated covered]
      exact quiet.counter_eq tallied .trades

end PartitionedEngine

end Lob
