import Lob.PartitionedEngine.Pending

/-!
# What becomes of a call

A call of `enqueueCommand` gets a ticket. From then on its command is in exactly one place:
in the hands of its producer, among the commands that some queue has taken, or among the
calls that returned false. A refused `submit` or `cancel` owes its caller the promise until
its producer has set it. Both facts are counts over all threads, so a step has to be looked
at only where it moves a command.
-/

namespace Lob

theorem Shard.process_inserted (shard : Shard) (limits : RiskLimits)
    (command : PartitionedCommand) : (shard.process limits command).inserted = shard.inserted := by
  rw [Shard.process]
  dsimp only
  split <;> rfl

namespace ProducerPoint

/-- The command of a call that is neither taken by a queue nor refused yet. -/
@[simp] def carries : ProducerPoint → List PartitionedCommand
  | .admitted command _ => [command]
  | .counted command _ => [command]
  | .refused command => [command]
  | .notifying command => [command]
  | _ => []

/-- The refused command whose promise comes next. -/
@[simp] def owes : ProducerPoint → List PartitionedCommand
  | .rejecting command => [command]
  | _ => []

end ProducerPoint

namespace PartitionedEngine

variable {config : PartitionedConfig}

/-- The commands of the calls that returned false. -/
def refused (engine : PartitionedEngine config) : List PartitionedCommand :=
  (engine.returned.filter (fun call => !call.2)).map Prod.fst

/-- How many commands of this kind are in the hands of a producer, in a shard or refused. -/
def issued (engine : PartitionedEngine config) (kind : PartitionedCommand → Bool) : Nat :=
  (∑ id, (engine.producers id).carries.countP kind) +
    (∑ id, (engine.shards id).inserted.countP kind) + engine.refused.countP kind

/-- How many promises of refused commands of this kind are set or come next. -/
def answered (engine : PartitionedEngine config) (kind : PartitionedCommand → Bool) : Nat :=
  (∑ id, (engine.producers id).owes.countP kind) +
    (engine.refusals.map ProcessedCommand.command).countP kind

/-- The commands of this call. -/
def ofTicket (ticket : Nat) (command : PartitionedCommand) : Bool :=
  decide (command.ticket = ticket)

/-- The queue that `enqueueCommand` chooses has taken the command. -/
def Took (engine : PartitionedEngine config) (command : PartitionedCommand) : Prop :=
  command ∈ (engine.shards (config.shardIndex command.symbol)).inserted

/-- Every call is in one place, and what was returned is true. -/
structure Accounted (engine : PartitionedEngine config) : Prop where
  tickets : ∀ ticket,
    engine.issued (ofTicket ticket) = if ticket < engine.nextTicket then 1 else 0
  promises : ∀ kind,
    engine.answered kind = (engine.refused.filter PartitionedCommand.completion).countP kind
  refusals : ∀ entry ∈ engine.refusals, entry.result = entry.command.rejectedResult
  inserted : ∀ id command, engine.producers id = .inserted command → engine.Took command
  returned : ∀ command, (command, true) ∈ engine.returned → engine.Took command

/-! ### Steps that move no command -/

/-- The states differ in nothing that concerns calls. -/
structure SameCalls (engine engine' : PartitionedEngine config) : Prop where
  producers : engine'.producers = engine.producers
  inserted : ∀ id, (engine'.shards id).inserted = (engine.shards id).inserted
  returned : engine'.returned = engine.returned
  refusals : engine'.refusals = engine.refusals
  nextTicket : engine'.nextTicket = engine.nextTicket

theorem Accounted.congr {engine engine' : PartitionedEngine config} (accounted : engine.Accounted)
    (same : SameCalls engine engine') : engine'.Accounted := by
  have refused : engine'.refused = engine.refused :=
    congrArg (fun returned => (returned.filter (fun call => !call.2)).map Prod.fst) same.returned
  have took (command : PartitionedCommand) (taken : engine.Took command) :
      engine'.Took command := by
    rw [Took, same.inserted]
    exact taken
  refine ⟨fun ticket => ?_, fun kind => ?_, ?_, fun id command point => ?_, ?_⟩
  · simp only [issued, same.producers, same.inserted, refused, same.nextTicket]
    exact accounted.tickets ticket
  · simp only [answered, same.producers, same.refusals, refused]
    exact accounted.promises kind
  · rw [same.refusals]
    exact accounted.refusals
  · rw [same.producers] at point
    exact took command (accounted.inserted id command point)
  · rw [same.returned]
    exact fun command member => took command (accounted.returned command member)

theorem SameCalls.setShard {engine engine' : PartitionedEngine config}
    (same : SameCalls engine engine') {id : config.ShardId} {shard : Shard}
    (inserted : shard.inserted = (engine.shards id).inserted) :
    SameCalls engine (engine'.setShard id shard) := by
  refine { same with inserted := fun other => ?_ }
  by_cases here : other = id
  · subst here
    rw [shards_setShard, Function.update_self, inserted]
  · rw [shards_setShard, Function.update_of_ne here, same.inserted]

theorem SameCalls.setWorker {engine engine' : PartitionedEngine config}
    (same : SameCalls engine engine') (id : config.ShardId) (point : WorkerPoint) :
    SameCalls engine (engine'.setWorker id point) :=
  same.setShard (same.inserted id)

theorem sameCalls_refl (engine : PartitionedEngine config) : SameCalls engine engine :=
  ⟨rfl, fun _ => rfl, rfl, rfl, rfl⟩

theorem workerStep_sameCalls (engine : PartitionedEngine config) (id : config.ShardId) :
    SameCalls engine (engine.workerStep id) := by
  have same := sameCalls_refl engine
  -- counters and the trade log are no part of a call
  have walks {engine' : PartitionedEngine config} (point : WorkerPoint)
      (moved : SameCalls engine engine') : SameCalls engine (engine'.setWorker id point) :=
    moved.setWorker id point
  have acts := engine.workerStep_acts id
  generalize engine.workerStep id = next at acts ⊢
  cases acts with
  | stays => exact same
  | exits _ _ _ => exact same.setWorker id _
  | pops _ _ => exact same.setShard rfl
  | processes _ => exact same.setShard (Shard.process_inserted _ _ _)
  | records _ _ => exact walks _ { same with }
  | completes _ => exact same.setShard rfl
  | finishes _ => exact walks _ { same with }
  | notifies _ => exact walks _ { same with }

theorem waiterStep_sameCalls (engine : PartitionedEngine config) (id : Fin config.waiters) :
    SameCalls engine (engine.waiterStep id) := by
  have same := sameCalls_refl engine
  unfold waiterStep
  cases engine.waiters id with
  | locking =>
      dsimp only
      split <;> exact { same with }
  | checking =>
      dsimp only
      split <;> exact { same with }
  | outside => exact { same with }
  | sleeping => exact { same with }
  | blocked => exact { same with }

theorem closerStep_sameCalls (engine : PartitionedEngine config) (id : Fin config.closers) :
    SameCalls engine (engine.closerStep id) := by
  have same := sameCalls_refl engine
  unfold closerStep
  cases engine.closers id with
  | closing index =>
      dsimp only
      split
      · rename_i inside
        have closed : SameCalls engine (engine.setShard ⟨index, inside⟩
            { engine.shards ⟨index, inside⟩ with
              queue := (engine.shards ⟨index, inside⟩).queue.close }) := same.setShard rfl
        exact { closed with }
      · exact { same with }
  | joining index =>
      dsimp only
      split
      · split <;> exact { same with }
      · exact { same with }
  | outside =>
      dsimp only
      split <;> exact { same with }
  | notifying => exact { same with }
  | finished => exact same

/-! ### Steps of a producer -/

theorem issued_setProducer (engine : PartitionedEngine config) (id : Fin config.producers)
    (point : ProducerPoint) (kind : PartitionedCommand → Bool) :
    (engine.setProducer id point).issued kind + (engine.producers id).carries.countP kind =
      engine.issued kind + point.carries.countP kind := by
  have sum := Waiting.sum_update (fun point : ProducerPoint => point.carries.countP kind)
    engine.producers id point
  have refused : (engine.setProducer id point).refused = engine.refused := rfl
  simp only [issued, producers_setProducer, refused]
  simp only [setProducer]
  omega

theorem answered_setProducer (engine : PartitionedEngine config) (id : Fin config.producers)
    (point : ProducerPoint) (kind : PartitionedCommand → Bool) :
    (engine.setProducer id point).answered kind + (engine.producers id).owes.countP kind =
      engine.answered kind + point.owes.countP kind := by
  have sum := Waiting.sum_update (fun point : ProducerPoint => point.owes.countP kind)
    engine.producers id point
  simp only [answered, producers_setProducer]
  simp only [setProducer]
  omega

theorem issued_setShard (engine : PartitionedEngine config) (id : config.ShardId) (shard : Shard)
    (kind : PartitionedCommand → Bool) :
    (engine.setShard id shard).issued kind + (engine.shards id).inserted.countP kind =
      engine.issued kind + shard.inserted.countP kind := by
  have sum := Waiting.sum_update (fun shard : Shard => shard.inserted.countP kind)
    engine.shards id shard
  have refused : (engine.setShard id shard).refused = engine.refused := rfl
  simp only [issued, shards_setShard, refused]
  simp only [setShard]
  omega

section Producer

variable {engine : PartitionedEngine config} {id : Fin config.producers} {point : ProducerPoint}
  {command : PartitionedCommand}

/-- A producer takes its step in a state whose counts its next point sets right. -/
theorem accounted_setProducer
    (tickets : ∀ ticket,
      engine.issued (ofTicket ticket) + point.carries.countP (ofTicket ticket) =
        (if ticket < engine.nextTicket then 1 else 0) +
          (engine.producers id).carries.countP (ofTicket ticket))
    (promises : ∀ kind, engine.answered kind + point.owes.countP kind =
      (engine.refused.filter PartitionedCommand.completion).countP kind +
        (engine.producers id).owes.countP kind)
    (refusals : ∀ entry ∈ engine.refusals, entry.result = entry.command.rejectedResult)
    (inserted : ∀ other command, engine.producers other = .inserted command → engine.Took command)
    (reports : ∀ command, point = .inserted command → engine.Took command)
    (returned : ∀ command, (command, true) ∈ engine.returned → engine.Took command) :
    (engine.setProducer id point).Accounted := by
  refine ⟨fun ticket => ?_, fun kind => ?_, refusals, fun other command there => ?_, returned⟩
  · have issued := engine.issued_setProducer id point (ofTicket ticket)
    exact Nat.add_right_cancel (issued.trans (tickets ticket))
  · have answered := engine.answered_setProducer id point kind
    exact Nat.add_right_cancel (answered.trans (promises kind))
  · by_cases here : other = id
    · subst here
      rw [producers_setProducer, Function.update_self] at there
      exact reports command there
    · rw [producers_setProducer, Function.update_of_ne here] at there
      exact inserted other command there

/-- The producer walks on with the command in its hands. -/
theorem Accounted.walk (accounted : engine.Accounted)
    (carries : point.carries = (engine.producers id).carries)
    (owes : point.owes = (engine.producers id).owes)
    (reports : ∀ command, point = .inserted command → engine.Took command) :
    (engine.setProducer id point).Accounted := by
  refine accounted_setProducer (fun ticket => ?_) (fun kind => ?_) accounted.refusals
    accounted.inserted reports accounted.returned
  · rw [accounted.tickets, carries]
  · rw [accounted.promises, owes]

theorem countP_ofTicket (ticket : Nat) (command : PartitionedCommand) :
    [command].countP (ofTicket ticket) = if command.ticket = ticket then 1 else 0 := by
  simp [ofTicket, List.countP_singleton]

/-- A call starts: its command gets the next ticket. -/
theorem Accounted.issue (accounted : engine.Accounted) (idle : engine.producers id = .idle)
    (fresh : command.ticket = engine.nextTicket) (blocking : Bool) :
    ({ engine with nextTicket := engine.nextTicket + 1 }.setProducer id
      (.admitted command blocking)).Accounted := by
  refine accounted_setProducer (fun ticket => ?_) (fun kind => ?_) accounted.refusals
    accounted.inserted (fun _ => ProducerPoint.noConfusion) accounted.returned
  · have before := accounted.tickets ticket
    have taken := countP_ofTicket ticket command
    change engine.issued (ofTicket ticket) + [command].countP (ofTicket ticket) =
      (if ticket < engine.nextTicket + 1 then 1 else 0) +
        (engine.producers id).carries.countP (ofTicket ticket)
    rw [before, taken, fresh, idle]
    grind [ProducerPoint.carries]
  · change engine.answered kind + 0 = _ + (engine.producers id).owes.countP kind
    rw [idle]
    exact accounted.promises kind

/-- `enqueueCommand` returns false. -/
theorem Accounted.returnFalse (accounted : engine.Accounted)
    (carries : (engine.producers id).carries = [command])
    (owes : (engine.producers id).owes = []) : (engine.returnFalse id command).Accounted := by
  have refused : ({ engine with returned := engine.returned ++ [(command, false)] } :
      PartitionedEngine config).refused = engine.refused ++ [command] := by
    simp [PartitionedEngine.refused]
  refine accounted_setProducer (fun ticket => ?_) (fun kind => ?_) accounted.refusals
    accounted.inserted ?_ (fun other member => ?_)
  · have before := accounted.tickets ticket
    have empty : (if command.completion = true then ProducerPoint.rejecting command
        else .idle).carries = [] := by
      split <;> rfl
    rw [issued] at before
    rw [issued, refused, List.countP_append, empty, carries, List.countP_nil]
    dsimp only
    omega
  · have before := accounted.promises kind
    have owed : (if command.completion = true then ProducerPoint.rejecting command
        else .idle).owes = [command].filter PartitionedCommand.completion := by
      cases promise : command.completion <;> simp [promise]
    rw [answered] at before
    rw [answered, refused, List.filter_append, List.countP_append, owed, owes, List.countP_nil]
    dsimp only
    omega
  · split <;> exact fun _ => ProducerPoint.noConfusion
  · rcases List.mem_append.mp member with old | new
    · exact accounted.returned other old
    · simp at new

/-- The queue takes the command. -/
theorem Accounted.take (accounted : engine.Accounted)
    (carries : (engine.producers id).carries = [command])
    (owes : (engine.producers id).owes = []) {shard : Shard}
    (inserted : shard.inserted =
      (engine.shards (config.shardIndex command.symbol)).inserted ++ [command]) :
    ((engine.setShard (config.shardIndex command.symbol) shard).setProducer id
      (.inserted command)).Accounted := by
  have kept (other : PartitionedCommand) (taken : engine.Took other) :
      (engine.setShard (config.shardIndex command.symbol) shard).Took other := by
    by_cases here : config.shardIndex other.symbol = config.shardIndex command.symbol
    · rw [Took, here, shards_setShard, Function.update_self, inserted, ← here]
      exact List.mem_append_left _ taken
    · rw [Took, shards_setShard, Function.update_of_ne here]
      exact taken
  refine accounted_setProducer (fun ticket => ?_) (fun kind => ?_) accounted.refusals
    (fun other there point => kept there (accounted.inserted other there point)) ?_
    (fun other member => kept other (accounted.returned other member))
  · have before := accounted.tickets ticket
    have moved := engine.issued_setShard (config.shardIndex command.symbol) shard (ofTicket ticket)
    have same : (engine.setShard (config.shardIndex command.symbol) shard).producers id =
      engine.producers id := rfl
    rw [inserted, List.countP_append] at moved
    rw [same, carries]
    change _ + 0 = (if ticket < engine.nextTicket then 1 else 0) + _
    omega
  · have same : (engine.setShard (config.shardIndex command.symbol) shard).producers id =
      engine.producers id := rfl
    rw [same, owes]
    exact accounted.promises kind
  · rintro other ⟨⟩
    rw [Took, shards_setShard, Function.update_self, inserted]
    exact List.mem_append_right _ List.mem_cons_self

/-- `submitted_` is counted and the call returns true. -/
theorem Accounted.returnTrue (accounted : engine.Accounted)
    (point : engine.producers id = .inserted command) :
    ({ engine with
        submitted := engine.submitted + 1
        returned := engine.returned ++ [(command, true)] }.setProducer id .idle).Accounted := by
  have refused : ({ engine with
      submitted := engine.submitted + 1
      returned := engine.returned ++ [(command, true)] } :
      PartitionedEngine config).refused = engine.refused := by
    simp [PartitionedEngine.refused]
  refine accounted_setProducer (fun ticket => ?_) (fun kind => ?_) accounted.refusals
    accounted.inserted (fun _ => ProducerPoint.noConfusion) (fun other member => ?_)
  · have before := accounted.tickets ticket
    rw [issued] at before
    rw [issued, refused]
    dsimp only
    rw [point]
    exact congrArg (· + 0) before
  · have before := accounted.promises kind
    rw [answered] at before
    rw [answered, refused]
    dsimp only
    rw [point]
    exact congrArg (· + 0) before
  · rcases List.mem_append.mp member with old | new
    · exact accounted.returned other old
    · obtain ⟨rfl, _⟩ := Prod.mk.inj (List.mem_singleton.mp new)
      exact accounted.inserted id _ point

/-- `completeRejected` sets the promise. -/
theorem Accounted.completeRejected (accounted : engine.Accounted)
    (point : engine.producers id = .rejecting command) :
    ({ engine with
        refusals := engine.refusals ++ [(⟨command, command.rejectedResult⟩ : ProcessedCommand)]
      }.setProducer id .idle).Accounted := by
  refine accounted_setProducer (fun ticket => ?_) (fun kind => ?_) (fun entry member => ?_)
    accounted.inserted (fun _ => ProducerPoint.noConfusion) accounted.returned
  · have before := accounted.tickets ticket
    dsimp only
    rw [point]
    exact congrArg (· + 0) before
  · have before := accounted.promises kind
    rw [answered] at before
    rw [answered]
    dsimp only
    rw [point, List.map_append, List.countP_append]
    change _ + (_ + [command].countP kind) + 0 =
      (engine.refused.filter PartitionedCommand.completion).countP kind + [command].countP kind
    omega
  · rcases List.mem_append.mp member with old | new
    · exact accounted.refusals entry old
    · obtain rfl := List.mem_singleton.mp new
      rfl

theorem Accounted.insert (accounted : engine.Accounted) {blocking : Bool}
    (point : engine.producers id = .counted command blocking) :
    (engine.insert id command blocking).Accounted := by
  unfold PartitionedEngine.insert
  dsimp only
  split
  · exact accounted
  · exact accounted.walk (by rw [point]; rfl) (by rw [point]; rfl)
      (fun _ => ProducerPoint.noConfusion)
  · rename_i shard offered
    obtain ⟨queue, _, rfl⟩ := Shard.inserts_of_offer offered
    exact accounted.take (by rw [point]; rfl) (by rw [point]; rfl) rfl

theorem Accounted.producerStep (accounted : engine.Accounted) (id : Fin config.producers)
    (call : PartitionedCall) : (engine.producerStep id call).Accounted := by
  have same := sameCalls_refl engine
  unfold PartitionedEngine.producerStep
  cases point : engine.producers id with
  | idle =>
      dsimp only
      have ticket : (call.toCommand engine.nextTicket).ticket = engine.nextTicket := by
        cases call <;> rfl
      have issued := accounted.issue point ticket call.blocking
      split
      · exact issued
      · -- refusing at once is refusing the call that has just been issued
        have here := Function.update_self id
          (ProducerPoint.admitted (call.toCommand engine.nextTicket) call.blocking)
          engine.producers
        have refused := issued.returnFalse (congrArg ProducerPoint.carries here)
          (congrArg ProducerPoint.owes here)
        simpa only [PartitionedEngine.returnFalse, setProducer, Function.update_idem]
          using refused
  | admitted command blocking =>
      refine Accounted.walk (accounted.congr { same with }) ?_ ?_ ?_
      · exact (congrArg ProducerPoint.carries point).symm
      · exact (congrArg ProducerPoint.owes point).symm
      · exact fun _ => ProducerPoint.noConfusion
  | counted command blocking => exact accounted.insert point
  | inserted command => exact accounted.returnTrue point
  | refused command =>
      dsimp only
      have counted : engine.countDown.Accounted := accounted.congr { same with }
      split
      · refine counted.walk ?_ ?_ (fun _ => ProducerPoint.noConfusion)
        · exact (congrArg ProducerPoint.carries point).symm
        · exact (congrArg ProducerPoint.owes point).symm
      · exact counted.returnFalse (congrArg ProducerPoint.carries point)
          (congrArg ProducerPoint.owes point)
  | notifying command =>
      have notified : engine.notifyAll.Accounted := accounted.congr { same with }
      exact notified.returnFalse (congrArg ProducerPoint.carries point)
        (congrArg ProducerPoint.owes point)
  | rejecting command => exact accounted.completeRejected point

end Producer

/-! ### Whole runs -/

theorem accounted_initial (config : PartitionedConfig) : (initial config).Accounted := by
  refine ⟨fun ticket => ?_, fun kind => ?_, fun _ member => absurd member List.not_mem_nil,
    fun _ _ => ProducerPoint.noConfusion, fun _ member => absurd member List.not_mem_nil⟩
  · simp [issued, initial, refused]
  · simp [answered, initial, refused]

theorem Accounted.step {engine : PartitionedEngine config} (accounted : engine.Accounted)
    (event : PartitionedEvent config) : (engine.step event).Accounted := by
  cases event with
  | producer id call => exact accounted.producerStep id call
  | worker id => exact accounted.congr (engine.workerStep_sameCalls id)
  | waiter id => exact accounted.congr (engine.waiterStep_sameCalls id)
  | closer id => exact accounted.congr (engine.closerStep_sameCalls id)

theorem accounted_run (events : List (PartitionedEvent config)) :
    (Schedule.run step (initial config) events).Accounted :=
  Schedule.run_invariant (fun _ event known => known.step event) (accounted_initial config) events

end PartitionedEngine

end Lob
