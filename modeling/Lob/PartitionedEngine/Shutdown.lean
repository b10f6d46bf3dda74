import Lob.PartitionedEngine.Calls
import Lob.PartitionedEngine.Shards
import Mathlib.Algebra.Order.BigOperators.Group.Finset

/-!
# Exactly-once processing and the draining shutdown

A command that a queue has taken is applied at most once, a refused one never, and no
promise is set twice: these are counts of tickets over all threads. A worker only leaves its
loop when its queue is closed and empty, and `shutdown` returns when all workers have left,
so everything that was ever taken has been applied by then and nothing can be taken later.
-/

namespace Lob

namespace PartitionedEngine

variable {config : PartitionedConfig} {engine : PartitionedEngine config}

/-- What the workers have applied, shard by shard. -/
def applied (engine : PartitionedEngine config) : List ProcessedCommand :=
  (List.finRange config.shardCount.value.toNat).flatMap (fun id => (engine.shards id).applied)

/-- The promises that the workers have set, shard by shard. -/
def delivered (engine : PartitionedEngine config) : List ProcessedCommand :=
  (List.finRange config.shardCount.value.toNat).flatMap (fun id => (engine.shards id).delivered)

/-- All promises that were set, by workers and for refused commands. -/
def promisesSet (engine : PartitionedEngine config) : List ProcessedCommand :=
  engine.delivered ++ engine.refusals

/-! ### Counting tickets -/

/-- A count over all shards stays below the count of the inserted commands. -/
theorem countP_flatMap_le {part : Shard → List ProcessedCommand}
    (kind : PartitionedCommand → Bool)
    (below : ∀ id, ((part (engine.shards id)).map ProcessedCommand.command).countP kind ≤
      (engine.shards id).inserted.countP kind) :
    (((List.finRange config.shardCount.value.toNat).flatMap
        (fun id => part (engine.shards id))).map ProcessedCommand.command).countP kind ≤
      ∑ id, (engine.shards id).inserted.countP kind := by
  rw [List.map_flatMap, List.countP_flatMap, ← Fin.sum_univ_def]
  exact Finset.sum_le_sum (fun id _ => below id)

theorem Sequential.countP_applied_le (sequential : engine.Sequential)
    (kind : PartitionedCommand → Bool) :
    (engine.applied.map ProcessedCommand.command).countP kind ≤
      ∑ id, (engine.shards id).inserted.countP kind := by
  refine countP_flatMap_le kind (fun id => ?_)
  rw [(sequential id).inserted, List.append_assoc, List.countP_append]
  exact Nat.le_add_right _ _

theorem Sequential.countP_delivered_le (sequential : engine.Sequential)
    (kind : PartitionedCommand → Bool) :
    (engine.delivered.map ProcessedCommand.command).countP kind ≤
      ∑ id, (engine.shards id).inserted.countP kind := by
  refine countP_flatMap_le kind (fun id => ?_)
  obtain ⟨settled, all, delivered⟩ := (sequential id).delivered
  rw [(sequential id).inserted, all, delivered]
  refine List.Sublist.countP_le ?_
  simp only [List.map_append, List.append_assoc]
  exact (List.filter_sublist.map _).trans (List.sublist_append_left _ _)

/-- The commands that queues have taken and the refused ones have tickets of their own. -/
theorem Accounted.at_most_once (accounted : engine.Accounted) (ticket : Nat) :
    (∑ id, (engine.shards id).inserted.countP (ofTicket ticket)) +
      engine.refused.countP (ofTicket ticket) ≤ 1 := by
  have counts := accounted.tickets ticket
  rw [issued] at counts
  split at counts <;> omega

theorem Accounted.countP_refusals_le (accounted : engine.Accounted)
    (kind : PartitionedCommand → Bool) :
    (engine.refusals.map ProcessedCommand.command).countP kind ≤ engine.refused.countP kind := by
  have counts := accounted.promises kind
  rw [answered] at counts
  have fewer : (engine.refused.filter PartitionedCommand.completion).countP kind ≤
      engine.refused.countP kind := List.filter_sublist.countP_le
  omega

/-- Commands of which each ticket occurs at most once. -/
theorem nodup_tickets {commands : List PartitionedCommand}
    (once : ∀ ticket, commands.countP (ofTicket ticket) ≤ 1) :
    (commands.map PartitionedCommand.ticket).Nodup := by
  rw [List.nodup_iff_count_le_one]
  intro ticket
  rw [List.count_eq_countP, List.countP_map]
  refine le_trans (le_of_eq ?_) (once ticket)
  refine List.countP_congr (fun command _ => ?_)
  simp [ofTicket]

theorem Accounted.refused_absent (accounted : engine.Accounted) {command : PartitionedCommand}
    (returned : (command, false) ∈ engine.returned) {entries : List ProcessedCommand}
    (below : (entries.map ProcessedCommand.command).countP (ofTicket command.ticket) ≤
      ∑ id, (engine.shards id).inserted.countP (ofTicket command.ticket)) :
    ∀ entry ∈ entries, entry.command.ticket ≠ command.ticket := by
  intro entry member same
  have refused : command ∈ engine.refused :=
    List.mem_map.mpr ⟨(command, false), List.mem_filter.mpr ⟨returned, rfl⟩, rfl⟩
  have once := accounted.at_most_once command.ticket
  have here : 0 < engine.refused.countP (ofTicket command.ticket) :=
    List.countP_pos_iff.mpr ⟨command, refused, by simp [ofTicket]⟩
  have there : 0 < (entries.map ProcessedCommand.command).countP (ofTicket command.ticket) :=
    List.countP_pos_iff.mpr ⟨entry.command, List.mem_map_of_mem member, by simp [ofTicket, same]⟩
  omega

/-! ### Commands and promises, at every point of a run -/

/-- No command and no promise is handled twice. -/
structure ExactlyOnce (engine : PartitionedEngine config) : Prop where
  /-- no call is applied twice -/
  applied : (engine.applied.map (fun entry => entry.command.ticket)).Nodup
  /-- what is applied was inserted -/
  inserted : ∀ id, ∀ entry ∈ (engine.shards id).applied,
    entry.command ∈ (engine.shards id).inserted
  /-- a call that returned true was inserted -/
  returned : ∀ command, (command, true) ∈ engine.returned → engine.Took command
  /-- a call that returned false is never applied -/
  refused : ∀ command, (command, false) ∈ engine.returned →
    ∀ entry ∈ engine.applied, entry.command.ticket ≠ command.ticket
  /-- no promise is set twice -/
  promises : (engine.promisesSet.map (fun entry => entry.command.ticket)).Nodup
  /-- a refused `submit` or `cancel` that is over has set its promise -/
  answered : ∀ command, (command, false) ∈ engine.returned → command.completion = true →
    (∀ id, engine.producers id ≠ .rejecting command) →
    ⟨command, command.rejectedResult⟩ ∈ engine.refusals
  /-- to the reject that the source names -/
  shuttingDown : ∀ entry ∈ engine.refusals, entry.result.report.status = .rejected ∧
    entry.result.report.rejectReason = .engineShuttingDown
  /-- and no worker sets it -/
  untouched : ∀ command, (command, false) ∈ engine.returned →
    ∀ entry ∈ engine.delivered, entry.command.ticket ≠ command.ticket

theorem Accounted.answered_of_returned (accounted : engine.Accounted)
    {command : PartitionedCommand} (returned : (command, false) ∈ engine.returned)
    (promise : command.completion = true)
    (through : ∀ id, engine.producers id ≠ .rejecting command) :
    ⟨command, command.rejectedResult⟩ ∈ engine.refusals := by
  have refused : command ∈ engine.refused :=
    List.mem_map.mpr ⟨(command, false), List.mem_filter.mpr ⟨returned, rfl⟩, rfl⟩
  have counts := accounted.promises (fun other => decide (other = command))
  have owed : 0 < (engine.refused.filter PartitionedCommand.completion).countP
      (fun other => decide (other = command)) :=
    List.countP_pos_iff.mpr ⟨command, List.mem_filter.mpr ⟨refused, promise⟩, by simp⟩
  have nobody : ∑ id, (engine.producers id).owes.countP (fun other => decide (other = command)) =
      0 := by
    refine Finset.sum_eq_zero (fun id _ => ?_)
    cases point : engine.producers id with
    | rejecting other =>
        have different : other ≠ command := fun same => through id (same ▸ point)
        simp [different]
    | _ => rfl
  rw [PartitionedEngine.answered, nobody, Nat.zero_add] at counts
  rw [← counts, List.countP_pos_iff] at owed
  obtain ⟨other, member, same⟩ := owed
  obtain ⟨entry, inRefusals, rfl⟩ := List.mem_map.mp member
  have result := accounted.refusals entry inRefusals
  obtain rfl := of_decide_eq_true same
  rw [← result]
  exact inRefusals

theorem rejectedResult_report (command : PartitionedCommand) :
    command.rejectedResult.report.status = .rejected ∧
      command.rejectedResult.report.rejectReason = .engineShuttingDown := by
  rw [PartitionedCommand.rejectedResult]
  cases command.command <;> exact ⟨rfl, rfl⟩

theorem Accounted.exactlyOnce (accounted : engine.Accounted) (sequential : engine.Sequential) :
    engine.ExactlyOnce where
  applied := by
    rw [← Function.comp_def, ← List.map_map]
    refine nodup_tickets (fun ticket => ?_)
    have once := accounted.at_most_once ticket
    have below := sequential.countP_applied_le (ofTicket ticket)
    omega
  inserted id entry member := by
    rw [(sequential id).inserted, List.append_assoc]
    exact List.mem_append_left _ (List.mem_map_of_mem member)
  returned := accounted.returned
  refused _ returned := accounted.refused_absent returned (sequential.countP_applied_le _)
  promises := by
    rw [← Function.comp_def, ← List.map_map]
    refine nodup_tickets (fun ticket => ?_)
    have once := accounted.at_most_once ticket
    have below := sequential.countP_delivered_le (ofTicket ticket)
    have fewer := accounted.countP_refusals_le (ofTicket ticket)
    rw [promisesSet, List.map_append, List.countP_append]
    omega
  answered _ := accounted.answered_of_returned
  shuttingDown entry member := by
    rw [accounted.refusals entry member]
    exact rejectedResult_report entry.command
  untouched _ returned := accounted.refused_absent returned (sequential.countP_delivered_le _)

end PartitionedEngine

/-! ### The workers leave and `shutdown` returns -/

/-- The worker has left, and its queue is closed and empty. -/
structure Shard.Retired (shard : Shard) : Prop where
  exited : shard.worker = .exited
  closed : shard.queue.closed = true
  drained : shard.queue.buffer = []

theorem Shard.Retired.close {shard : Shard} (retired : shard.Retired) :
    { shard with queue := shard.queue.close } = shard := by
  have same : shard.queue.close = shard.queue := by
    rw [MPMCQueue.close, ← retired.closed]
  rw [same]

/-- `shutdown` has joined the worker with this number. -/
@[simp] def CloserPoint.joined : CloserPoint → Nat → Prop
  | .joining shard, index => index < shard
  | .notifying, _ => True
  | .finished, _ => True
  | _, _ => False

namespace PartitionedEngine

variable {config : PartitionedConfig} {engine : PartitionedEngine config} {id : config.ShardId}

/-- A worker changes its own shard only, and it leaves when its queue is closed and empty. -/
theorem workerStep_shards (engine : PartitionedEngine config) (worker : config.ShardId) :
    (engine.workerStep worker).shards = engine.shards ∨
      ∃ shard, (engine.workerStep worker).shards = Function.update engine.shards worker shard ∧
        (engine.shards worker).worker ≠ .exited ∧ (shard.worker = .exited → shard.Retired) := by
  by_cases gone : (engine.shards worker).worker = .exited
  · rw [workerStep, gone]
    exact Or.inl rfl
  have acts := engine.workerStep_acts worker
  generalize engine.workerStep worker = next at acts ⊢
  cases acts with
  | stays => exact Or.inl rfl
  | exits _ closed drained => exact Or.inr ⟨_, rfl, gone, fun _ => ⟨rfl, closed, drained⟩⟩
  | pops _ _ => exact Or.inr ⟨_, rfl, gone, fun exited => WorkerPoint.noConfusion exited⟩
  | processes _ =>
      refine Or.inr ⟨_, rfl, gone, fun exited => absurd exited ?_⟩
      rw [Shard.process]
      dsimp only
      split <;> exact WorkerPoint.noConfusion
  | records _ after =>
      refine Or.inr ⟨_, rfl, gone, fun exited => ?_⟩
      obtain rfl := exited
      contradiction
  | completes _ => exact Or.inr ⟨_, rfl, gone, fun exited => WorkerPoint.noConfusion exited⟩
  | finishes _ =>
      refine Or.inr ⟨_, rfl, gone, fun exited => absurd exited ?_⟩
      dsimp only
      split <;> exact WorkerPoint.noConfusion
  | notifies _ => exact Or.inr ⟨_, rfl, gone, fun exited => WorkerPoint.noConfusion exited⟩

/-- Nothing happens to a shard whose worker has left. -/
theorem step_retired (retired : (engine.shards id).Retired) (event : PartitionedEvent config) :
    (engine.step event).shards id = engine.shards id := by
  cases event with
  | producer producer call =>
      rcases engine.producerStep_shards producer call id with same | ⟨_, _, _, inserts, _⟩
      · exact same
      · exact absurd (inserts.1.symm.trans retired.closed) Bool.false_ne_true
  | worker worker =>
      rcases engine.workerStep_shards worker with same | ⟨shard, changed, running, _⟩
      · exact congrFun same id
      · have other : id ≠ worker := fun here => running (here ▸ retired.exited)
        exact (congrFun changed id).trans (Function.update_of_ne other _ _)
  | waiter waiter => exact congrFun (engine.waiterStep_shards waiter) id
  | closer closer =>
      rcases engine.closerStep_shards closer id with same | closed
      · exact same
      · exact closed.trans retired.close

/-- A worker that is found to have left has just left properly. -/
theorem retired_of_step
    (known : ∀ id, (engine.shards id).worker = .exited → (engine.shards id).Retired)
    (event : PartitionedEvent config) (exited : ((engine.step event).shards id).worker = .exited) :
    ((engine.step event).shards id).Retired := by
  by_cases before : (engine.shards id).worker = .exited
  · rw [step_retired (known id before)]
    exact known id before
  · cases event with
    | producer producer call =>
        rcases engine.producerStep_shards producer call id with same | ⟨_, _, _, _, inserted⟩
        · exact absurd ((congrArg Shard.worker same).symm.trans exited) before
        · exact absurd ((congrArg Shard.worker inserted).symm.trans exited) before
    | worker worker =>
        rcases engine.workerStep_shards worker with same | ⟨shard, changed, _, leaves⟩
        · exact absurd ((congrArg Shard.worker (congrFun same id)).symm.trans exited) before
        · by_cases here : id = worker
          · subst here
            rw [step, changed, Function.update_self] at exited ⊢
            exact leaves exited
          · rw [step, changed, Function.update_of_ne here] at exited
            exact absurd exited before
    | waiter waiter =>
        exact absurd ((congrArg Shard.worker
          (congrFun (engine.waiterStep_shards waiter) id)).symm.trans exited) before
    | closer closer =>
        rcases engine.closerStep_shards closer id with same | closed
        · exact absurd ((congrArg Shard.worker same).symm.trans exited) before
        · exact absurd ((congrArg Shard.worker closed).symm.trans exited) before

/-- Workers leave properly, and `shutdown` has only joined workers that have left. -/
structure Closing (engine : PartitionedEngine config) : Prop where
  exits : ∀ id, (engine.shards id).worker = .exited → (engine.shards id).Retired
  joined : ∀ closer (id : config.ShardId), (engine.closers closer).joined id.val →
    (engine.shards id).worker = .exited

theorem closing_initial (config : PartitionedConfig) : (initial config).Closing :=
  ⟨fun _ => WorkerPoint.noConfusion, fun _ _ => False.elim⟩

/-- A closer moves alone, and it has seen the workers leave that it then counts as joined. -/
theorem Closing.closerStep (closing : engine.Closing) (closer : Fin config.closers) :
    ∃ point, (engine.closerStep closer).closers = Function.update engine.closers closer point ∧
      ∀ id : config.ShardId, point.joined id.val → (engine.shards id).worker = .exited := by
  have stays := (Function.update_eq_self closer engine.closers).symm
  have joined := closing.joined closer
  unfold PartitionedEngine.closerStep
  cases point : engine.closers closer with
  | outside =>
      dsimp only
      split
      · exact ⟨_, rfl, fun _ => False.elim⟩
      · exact ⟨_, stays, joined⟩
  | closing index =>
      dsimp only
      split
      · exact ⟨_, rfl, fun _ => False.elim⟩
      · exact ⟨_, rfl, fun id none => absurd none (Nat.not_lt_zero _)⟩
  | joining index =>
      rw [point] at joined
      dsimp only
      split
      · rename_i inside
        split
        · rename_i exited
          refine ⟨_, rfl, fun id within => ?_⟩
          rcases Nat.lt_succ_iff_lt_or_eq.mp within with earlier | same
          · exact joined id earlier
          · have here : id = ⟨index, inside⟩ := Fin.ext same
            rw [here]
            exact exited
        · exact ⟨_, stays, by rw [point]; exact joined⟩
      · rename_i outside
        exact ⟨_, rfl, fun id _ => joined id (lt_of_lt_of_le id.isLt (Nat.le_of_not_lt outside))⟩
  | notifying =>
      rw [point] at joined
      exact ⟨_, rfl, fun id _ => joined id trivial⟩
  | finished => exact ⟨_, stays, joined⟩

theorem producerStep_closers (engine : PartitionedEngine config) (id : Fin config.producers)
    (call : PartitionedCall) : (engine.producerStep id call).closers = engine.closers := by
  unfold producerStep insert
  dsimp only
  repeat' split
  all_goals rfl

theorem workerStep_closers (engine : PartitionedEngine config) (id : config.ShardId) :
    (engine.workerStep id).closers = engine.closers := by
  have acts := engine.workerStep_acts id
  generalize engine.workerStep id = next at acts ⊢
  cases acts <;> rfl

theorem waiterStep_closers (engine : PartitionedEngine config) (id : Fin config.waiters) :
    (engine.waiterStep id).closers = engine.closers := by
  unfold waiterStep
  repeat' split
  all_goals rfl

theorem Closing.step (closing : engine.Closing) (event : PartitionedEvent config) :
    (engine.step event).Closing := by
  refine ⟨fun id => retired_of_step closing.exits event, fun closer id joined => ?_⟩
  -- a worker that has left stays as it is
  have gone : (engine.shards id).worker = .exited →
      ((engine.step event).shards id).worker = .exited := by
    intro exited
    rw [step_retired (closing.exits id exited)]
    exact exited
  apply gone
  cases event with
  | producer producer call =>
      rw [PartitionedEngine.step, producerStep_closers] at joined
      exact closing.joined closer id joined
  | worker worker =>
      rw [PartitionedEngine.step, workerStep_closers] at joined
      exact closing.joined closer id joined
  | waiter waiter =>
      rw [PartitionedEngine.step, waiterStep_closers] at joined
      exact closing.joined closer id joined
  | closer mover =>
      obtain ⟨point, changed, seen⟩ := closing.closerStep mover
      rw [PartitionedEngine.step, changed] at joined
      by_cases here : closer = mover
      · subst here
        rw [Function.update_self] at joined
        exact seen id joined
      · rw [Function.update_of_ne here] at joined
        exact closing.joined closer id joined

/-! ### Whole runs -/

/-- Everything that was ever inserted has been applied, and the promises are set. -/
structure Drained (engine : PartitionedEngine config) : Prop where
  applied : ∀ id, ∀ command ∈ (engine.shards id).inserted,
    (engine.applied.map ProcessedCommand.command).count command = 1
  delivered : ∀ id, ∀ command ∈ (engine.shards id).inserted, command.completion = true →
    ∃ result, ⟨command, result⟩ ∈ (engine.shards id).delivered

theorem Sequential.drained (sequential : engine.Sequential) (once : engine.ExactlyOnce)
    (retired : ∀ id, (engine.shards id).Retired) : engine.Drained := by
  have all (id : config.ShardId) : (engine.shards id).inserted =
      (engine.shards id).applied.map ProcessedCommand.command := by
    have inserted := (sequential id).inserted
    rw [(retired id).exited, (retired id).drained] at inserted
    simpa using inserted
  have distinct : (engine.applied.map ProcessedCommand.command).Nodup := by
    refine List.Nodup.of_map PartitionedCommand.ticket ?_
    rw [List.map_map]
    exact once.applied
  refine ⟨fun id command member => ?_, fun id command member promise => ?_⟩
  · rw [all id] at member
    obtain ⟨entry, inShard, rfl⟩ := List.mem_map.mp member
    refine List.count_eq_one_of_mem distinct (List.mem_map_of_mem ?_)
    exact List.mem_flatMap.mpr ⟨id, List.mem_finRange id, inShard⟩
  · rw [all id] at member
    obtain ⟨entry, inShard, rfl⟩ := List.mem_map.mp member
    obtain ⟨settled, applied, delivered⟩ := (sequential id).delivered
    have nothingLeft : (engine.shards id).applied = settled := by
      simpa [(retired id).exited] using applied
    refine ⟨entry.result, ?_⟩
    rw [delivered, ← nothingLeft]
    exact List.mem_filter.mpr ⟨inShard, promise⟩

theorem closing_run (events : List (PartitionedEvent config)) :
    (Schedule.run step (initial config) events).Closing :=
  Schedule.run_invariant (fun _ event known => known.step event) (closing_initial config) events

/-- Nothing happens any more to a retired shard. -/
theorem run_retired (retired : (engine.shards id).Retired)
    (events : List (PartitionedEvent config)) :
    (Schedule.run step engine events).shards id = engine.shards id := by
  refine Schedule.run_invariant
    (P := fun later : PartitionedEngine config => later.shards id = engine.shards id)
    (fun later event known => ?_) rfl events
  rw [step_retired (known ▸ retired), known]

/-- Exactly-once processing and the draining shutdown: at every point of every interleaving,
no command and no promise is handled twice and refused commands are not applied; when the
call of `shutdown` that got past the exchange has returned, everything inserted has been
applied exactly once, the promises are set, and nothing is inserted any more. -/
theorem exactly_once_draining (config : PartitionedConfig)
    (events : List (PartitionedEvent config)) :
    let engine := Schedule.run step (initial config) events
    engine.ExactlyOnce ∧
      ∀ closer, engine.closers closer = .finished →
        engine.Drained ∧
          ∀ later id, ((Schedule.run step engine later).shards id).inserted =
            (engine.shards id).inserted := by
  intro engine
  have sequential : engine.Sequential := sequential_run events
  have once : engine.ExactlyOnce := (accounted_run events).exactlyOnce sequential
  have closing : engine.Closing := closing_run events
  refine ⟨once, fun closer finished => ?_⟩
  have retired (id : config.ShardId) : (engine.shards id).Retired :=
    closing.exits id (closing.joined closer id (by rw [finished]; trivial))
  exact ⟨sequential.drained once retired,
    fun later id => congrArg Shard.inserted (run_retired (retired id) later)⟩

namespace ShutdownRun

/-- Two shards, one producer, one thread that shuts the engine down. -/
def twoShards : PartitionedConfig where
  shardCount := ⟨2, by decide, by decide⟩
  queueCapacity := 1
  queuePositive := Nat.one_pos
  producers := 1
  waiters := 0
  closers := 1

def closer : Fin twoShards.closers := ⟨0, by decide⟩

/-- A step of a producer that submits a limit order whenever it is idle. -/
def submit : PartitionedEvent twoShards :=
  .producer ⟨0, by decide⟩ (.submit ⟨#v[65, 65, 80, 76, 0, 0, 0, 0]⟩
    { id := 1, price := 100, quantity := 5 })

/-- One step of each worker. -/
def work : List (PartitionedEvent twoShards) :=
  (List.finRange _).map PartitionedEvent.worker

def close : PartitionedEvent twoShards := .closer closer

end ShutdownRun

open ShutdownRun in
/-- The first order is inserted just before its queue is closed and applied afterwards; the
second one is refused. Both promises are set. -/
theorem exactly_once_draining_two_orders :
    let events := List.replicate 3 submit ++ List.replicate 4 close ++ [submit] ++
      (List.replicate 10 work).flatten ++ List.replicate 4 close ++ List.replicate 2 submit
    let engine := Schedule.run step (initial twoShards) events
    engine.closers closer = .finished ∧ engine.promisesSet.length = 2 ∧ engine.Drained := by
  intro events engine
  have finished : engine.closers closer = .finished := by decide +kernel
  have drained := ((exactly_once_draining twoShards events).2 closer finished).1
  exact ⟨finished, by decide +kernel, drained⟩

end PartitionedEngine

end Lob
