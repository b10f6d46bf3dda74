import Lob.MatchingEngine.Checked
import Lob.PartitionedMain.Producers

/-!
# The orders of `partitioned_matching_main`, once all are applied

When the producer threads have returned and nothing is in flight, the workers have applied
every order of every producer exactly once. Each answer is one that the order itself allows,
the counters of the engine add up, and each order book passes its check.
-/

namespace Lob

namespace PartitionedArgs

variable (args : PartitionedArgs)

theorem total_lt : args.producers * args.ordersPerProducer < 2 ^ 64 := by
  have most := (Nat.le_div_iff_mul_le args.producersPositive).mp args.fits
  rw [Nat.mul_comm] at most
  omega

theorem totalOrders_eq :
    args.totalOrders = UInt64.ofNat (args.producers * args.ordersPerProducer) :=
  (UInt64.ofNat_mul _ _).symm

/-- The ids of the orders of all producers, in order. -/
def allIds : List UInt64 := firstIds (args.producers * args.ordersPerProducer)

theorem orderId_eq (producer : Fin args.producers) (i : Nat) :
    args.orderId producer i =
      UInt64.ofNat (producer * args.ordersPerProducer + i + 1) := by
  rw [orderId, UInt64.ofNat_add, UInt64.ofNat_add, UInt64.ofNat_mul, UInt64.add_assoc,
    UInt64.add_comm 1, ← UInt64.add_assoc]
  rfl

theorem orderId_ne_zero (producer : Fin args.producers) {i : Nat}
    (inside : i < args.ordersPerProducer) : args.orderId producer i ≠ 0 := by
  have total := args.total_lt
  have block : (producer + 1) * args.ordersPerProducer ≤ args.producers * args.ordersPerProducer :=
    Nat.mul_le_mul_right _ producer.isLt
  rw [Nat.succ_mul] at block
  intro zero
  have value := congrArg UInt64.toNat zero
  rw [orderId_eq, UInt64.toNat_ofNat_of_lt'
    (show producer * args.ordersPerProducer + i + 1 < 2 ^ 64 by omega)] at value
  contradiction

/-- The producers number their orders one after the other. -/
theorem sum_passed (kind : UInt64 → Bool) :
    ∑ producer, args.passed kind producer args.ordersPerProducer = args.allIds.countP kind := by
  have blocks (producers : Nat) :
      ∑ producer ∈ Finset.range producers, (List.range args.ordersPerProducer).countP
          (fun i => kind (UInt64.ofNat (producer * args.ordersPerProducer + i + 1))) =
        (List.range (producers * args.ordersPerProducer)).countP
          (fun n => kind (UInt64.ofNat (n + 1))) := by
    induction producers with
    | zero => simp
    | succ producers ih =>
        rw [Finset.sum_range_succ, ih, Nat.succ_mul, List.range_add, List.countP_append,
          List.countP_map]
        rfl
  rw [allIds, firstIds, List.countP_map]
  simp only [passed, orderId_eq]
  rw [Fin.sum_univ_eq_sum_range (fun producer => (List.range args.ordersPerProducer).countP
    (fun i => kind (UInt64.ofNat (producer * args.ordersPerProducer + i + 1)))), blocks]
  rfl

end PartitionedArgs

theorem newIds_sublist (commands : List Command) :
    (newIds commands).Sublist (commands.map Command.orderId) := by
  induction commands with
  | nil => exact .slnil
  | cons command commands ih =>
      cases command with
      | newOrder order => exact ih.cons_cons _
      | cancel orderId => exact ih.cons _

namespace PartitionedMain

variable {args : PartitionedArgs} {state : PartitionedMain args}

/-- All producer threads have returned and nothing is in flight. -/
structure Ended (state : PartitionedMain args) : Prop where
  reachable : state.engine.Reachable
  drives : state.Drives
  returned : ∀ id, state.drivers id = .returned
  quiet : state.engine.Quiet

/-- The ids that the workers have applied. -/
def appliedIds (state : PartitionedMain args) : List UInt64 :=
  state.engine.applied.map (fun entry => entry.command.command.orderId)

theorem Ended.inserted_eq (ended : state.Ended) (id : args.config.ShardId) :
    (state.engine.shards id).inserted =
      (state.engine.shards id).applied.map ProcessedCommand.command := by
  obtain ⟨events, reached⟩ := ended.reachable
  have sequential : state.engine.Sequential := reached ▸ PartitionedEngine.sequential_run events
  obtain ⟨empty, free⟩ := Shard.inFlight_eq_zero_iff.mp (ended.quiet.shards id)
  rw [(sequential id).inserted, WorkerPoint.unapplied_of_inFlight free, empty, List.append_nil,
    List.append_nil]

/-- Every order of every producer was applied exactly once. -/
theorem Ended.appliedIds_perm (ended : state.Ended) : state.appliedIds.Perm args.allIds := by
  rw [List.perm_iff_count]
  intro orderId
  have balance := ended.drives.balance (· == orderId)
  have sent (id : Fin args.producers) : state.sent id = args.ordersPerProducer := by
    rw [PartitionedMain.sent, ended.returned]
    rfl
  simp only [sent, args.sum_passed, taken, ended.inserted_eq] at balance
  rw [List.count_eq_countP, List.count_eq_countP, ← balance, appliedIds,
    PartitionedEngine.applied, List.map_flatMap, List.countP_flatMap, ← Fin.sum_univ_def]
  simp only [Function.comp_apply, List.countP_map]
  rfl

/-- The orders that the workers have applied came from the generators. -/
theorem Ended.ordinary (ended : state.Ended) {entry : ProcessedCommand}
    (applied : entry ∈ state.engine.applied) :
    entry.command.command.Ordinary ∧
      (args.advancedOrders = false → entry.command.command.possibleReasons = [.none]) := by
  obtain ⟨id, _, member⟩ := List.mem_flatMap.mp applied
  obtain ⟨producer, i, inside, _, draw, same⟩ := ended.drives.generated id entry.command
    (ended.inserted_eq id ▸ List.mem_map_of_mem member)
  have nonzero := args.orderId_ne_zero producer inside
  rw [same]
  refine ⟨draw.ordinary (by decide) (by decide) args.advancedOrders nonzero, fun plain => ?_⟩
  rw [plain]
  exact (draw.plain (by decide) (by decide) nonzero).possibleReasons

/-- Every answer is one that the order itself allows. -/
theorem Ended.expects (ended : state.Ended) {entry : ProcessedCommand}
    (applied : entry ∈ state.engine.applied) :
    entry.command.command.Expects entry.result.report := by
  obtain ⟨events, reached⟩ := ended.reachable
  have sequential : state.engine.Sequential := reached ▸ PartitionedEngine.sequential_run events
  obtain ⟨id, _, member⟩ := List.mem_flatMap.mp applied
  obtain ⟨responses, run, _, results⟩ := (sequential id).runs entry.command.symbol
  -- the entries of the symbol, and the run that answered them
  let own := (state.engine.shards id).applied.filter
    (fun other => decide (other.command.symbol = entry.command.symbol))
  have among {other : ProcessedCommand} (inOwn : other ∈ own) : other ∈ state.engine.applied :=
    List.mem_flatMap.mpr ⟨id, List.mem_finRange id, List.mem_of_mem_filter inOwn⟩
  have commands : commandsOf entry.command.symbol
      ((state.engine.shards id).applied.map ProcessedCommand.command) =
        own.map (fun other => other.command.command) := by
    rw [commandsOf, List.filter_map, List.map_map]
    rfl
  have distinct : (own.map (fun other => other.command.command.orderId)).Nodup := by
    have all := ended.appliedIds_perm.nodup_iff.mpr (nodup_firstIds args.total_lt)
    rw [appliedIds, PartitionedEngine.applied, List.map_flatMap, List.nodup_flatMap] at all
    exact (all.1 id (List.mem_finRange id)).sublist (List.filter_sublist.map _)
  have ids := newIds_sublist (own.map (fun other => other.command.command))
  rw [List.map_map] at ids
  rw [commands] at run
  have answers := (consistent_fresh args.config.limits).forall_expects rfl
    (fun command inCommands => by
      obtain ⟨other, inOwn, rfl⟩ := List.mem_map.mp inCommands
      exact (ended.ordinary (among inOwn)).1)
    (distinct.sublist ids)
    (fun _ _ => Finset.notMem_empty _) run
  have paired : List.Forall₂ (fun command (result : PartitionedCommandResult) =>
      command.Expects result.report) (own.map (fun other => other.command.command))
      (own.map ProcessedCommand.result) := by
    have same : own.map ProcessedCommand.result = responses.map Response.result := results
    rw [same]
    exact List.forall₂_map_right_iff.mpr answers
  rw [List.forall₂_map_left_iff, List.forall₂_map_right_iff, List.forall₂_same] at paired
  exact paired entry (List.mem_filter.mpr ⟨member, decide_eq_true rfl⟩)

/-- The counters agree with the number of orders. -/
structure Adds (args : PartitionedArgs) (stats : PartitionedEngineStats) : Prop where
  submitted : stats.submitted = args.totalOrders
  processed : stats.processed = args.totalOrders
  outcomes : stats.accepted.toNat + stats.rejected.toNat =
    args.producers * args.ordersPerProducer
  pending : stats.pending = 0
  accepted : args.advancedOrders = false → stats.rejected = 0

theorem Ended.sum_applied (ended : state.Ended) :
    ∑ id, (state.engine.shards id).applied.length = args.producers * args.ordersPerProducer := by
  have length := ended.appliedIds_perm.length_eq
  rw [appliedIds, List.length_map, PartitionedEngine.applied, List.length_flatMap,
    ← Fin.sum_univ_def, PartitionedArgs.allIds, length_firstIds] at length
  exact length

theorem Ended.adds (ended : state.Ended) : Adds args state.engine.stats := by
  obtain ⟨events, reached⟩ := ended.reachable
  have sequential : state.engine.Sequential := reached ▸ PartitionedEngine.sequential_run events
  have tallied : state.engine.Tallied := reached ▸ PartitionedEngine.tallied_run events
  have submits : state.engine.Submits := reached ▸ PartitionedEngine.submits_run events
  have counts : state.engine.Counts := reached ▸ PartitionedEngine.pending_eq_inFlight _ events
  have submitted := ended.quiet.submitted_eq submits sequential
  have processed := ended.quiet.counter_eq_length tallied .processed (fun _ => rfl)
  rw [ended.sum_applied, ← args.totalOrders_eq] at submitted processed
  have accepted := ended.quiet.counter_eq tallied .accepted
  have rejected := ended.quiet.counter_eq tallied .rejected
  have outcomes : (∑ id, WorkerCounter.accepted.total (state.engine.shards id).applied) +
      ∑ id, WorkerCounter.rejected.total (state.engine.shards id).applied =
        args.producers * args.ordersPerProducer := by
    rw [← Finset.sum_add_distrib, ← ended.sum_applied]
    exact Finset.sum_congr rfl (fun id _ => WorkerCounter.total_accepted_add_rejected _)
  have total := args.total_lt
  refine ⟨submitted, processed, ?_, ?_, fun plain => ?_⟩
  · have first : state.engine.stats.accepted.toNat = _ := congrArg UInt64.toNat accepted
    have second : state.engine.stats.rejected.toNat = _ := congrArg UInt64.toNat rejected
    rw [UInt64.toNat_ofNat_of_lt' (show _ < 2 ^ 64 by omega)] at first second
    omega
  · exact counts.trans (congrArg Int.ofNat ended.quiet.inFlight_eq)
  · have none : ∑ id, WorkerCounter.rejected.total (state.engine.shards id).applied = 0 := by
      refine Finset.sum_eq_zero (fun id _ => List.sum_eq_zero fun weight member => ?_)
      obtain ⟨entry, applied, rfl⟩ := List.mem_map.mp member
      have inAll : entry ∈ state.engine.applied :=
        List.mem_flatMap.mpr ⟨id, List.mem_finRange id, applied⟩
      have answer := ended.expects inAll
      have reason := answer.reason
      rw [(ended.ordinary inAll).2 plain, List.mem_singleton] at reason
      exact if_pos (answer.accepted.mpr reason)
    rw [none] at rejected
    exact rejected

/-- The check passes for every symbol: no engine has counted `2 ^ 64` events. -/
theorem Ended.validate (ended : state.Ended) (symbol : Symbol) :
    state.engine.validate symbol = true := by
  obtain ⟨events, reached⟩ := ended.reachable
  have sequential : state.engine.Sequential := reached ▸ PartitionedEngine.sequential_run events
  obtain ⟨responses, run, last, _⟩ := (sequential (args.config.shardIndex symbol)).runs symbol
  have few : (commandsOf symbol ((state.engine.shards
      (args.config.shardIndex symbol)).applied.map ProcessedCommand.command)).length < 2 ^ 64 := by
    have filtered : (commandsOf symbol ((state.engine.shards
        (args.config.shardIndex symbol)).applied.map ProcessedCommand.command)).length ≤
          (state.engine.shards (args.config.shardIndex symbol)).applied.length := by
      rw [commandsOf, List.length_map]
      exact (List.length_filter_le _ _).trans_eq (List.length_map _)
    have shard := Finset.single_le_sum
      (fun id _ => Nat.zero_le (state.engine.shards id).applied.length)
      (Finset.mem_univ (args.config.shardIndex symbol))
    rw [ended.sum_applied] at shard
    have total := args.total_lt
    omega
  have checked := (MatchingEngine.counted_fresh args.config.limits).responses
    (by rwa [Nat.zero_add]) run
  rw [PartitionedEngine.validate_eq, PartitionedEngine.engineOf, last]
  cases final : responses.getLast? with
  | none => rfl
  | some response => exact checked response (List.mem_of_getLast? final)

end PartitionedMain

end Lob
