import Lob.MarketViewer.Delivery
import Lob.MarketViewer.WeakMemory
import Lob.SPSCQueue.WeakMemory.RaceFree

/-!
# What the engine publishes under release and acquire

The engine pushes the trades and reports of its responses and then stores `engine_done`, once.
The store carries what the engine knows.
-/

namespace Lob

open ReleaseAcquire

namespace WeakEngineViewer

variable {tradeCapacity reportCapacity : PowerOfTwo}

section Publisher

variable (tradeCapacity reportCapacity)

/-- What the engine still has to push for the current command. -/
def pending (point : PublisherPoint) :
    (queue : MarketQueue) → List ((marketLayout tradeCapacity reportCapacity).Item queue)
  | .trades => point.trades
  | .reports => point.reports

/-- What the responses put into a queue. -/
def expected (answers : List Response) :
    (queue : MarketQueue) → List ((marketLayout tradeCapacity reportCapacity).Item queue)
  | .trades => answers.flatMap Response.outTrades
  | .reports => answers.map Response.report

/-- The item that the engine pushes now. -/
def current : PublisherPoint →
    Option ((queue : MarketQueue) × (marketLayout tradeCapacity reportCapacity).Item queue)
  | .publishing (trade :: _) _ => some ⟨.trades, trade⟩
  | .publishing [] report => some ⟨.reports, report⟩
  | _ => none

end Publisher

variable {start : MarketQueue → UInt64} {state next : WeakEngineViewer tradeCapacity reportCapacity}
  {queues queues' : WeakQueues (marketLayout tradeCapacity reportCapacity)}
  {publisher after : PublisherPoint} {answers later : List Response} {queue : MarketQueue}

/-- `engine_done` is stored once, and whoever has seen the store knows of all pushes. -/
structure Flagged (publisher : PublisherPoint)
    (queues : WeakQueues (marketLayout tradeCapacity reportCapacity)) : Prop where
  zero : (queues.memory.message (.flag .engineDone) 0).value = 0
  undone : publisher ≠ .finished → queues.memory.newest (.flag .engineDone) = 0
  done : publisher = .finished → queues.memory.newest (.flag .engineDone) = 1 ∧
    ∀ queue, (queues.pushed queue).length ≤
      (queues.memory.message (.flag .engineDone) 1).view.1 (.head queue)

/-- A step that is not the store to `engine_done`, and pushes only before it. -/
theorem Flagged.keep (flagged : Flagged publisher queues)
    (same : after = .finished ↔ publisher = .finished)
    (later : Extends queues.memory queues'.memory)
    (newest : queues'.memory.newest (.flag .engineDone) =
      queues.memory.newest (.flag .engineDone))
    (pushed : publisher = .finished → queues'.pushed = queues.pushed) :
    Flagged after queues' where
  zero := by
    rw [later.message _ 0 (Nat.zero_le _)]
    exact flagged.zero
  undone running := by
    rw [newest]
    exact flagged.undone (fun finished => running (same.mpr finished))
  done finished := by
    obtain ⟨stored, known⟩ := flagged.done (same.mp finished)
    rw [newest, pushed (same.mp finished), later.message _ 1 stored.ge]
    exact ⟨stored, known⟩

/-- The store to `engine_done` carries what the engine knows, which is all that it has pushed. -/
theorem Flagged.setDone (flagged : Flagged publisher queues) (running : publisher ≠ .finished)
    (intact : queues.Intact start) : Flagged .finished (queues.setFlag .engineDone 1) := by
  have later := intact.sound.extends_storeRelease (.flag .engineDone) 1
  have unset := flagged.undone running
  have stored := storeRelease_message_newest queues.memory .engine (.flag .engineDone) 1
  have newest := storeRelease_newest queues.memory .engine (.flag .engineDone) 1
  rw [unset] at stored newest
  refine ⟨?_, fun unfinished => absurd rfl unfinished, fun _ => ⟨newest, fun queue => ?_⟩⟩
  · exact (congrArg Message.value (later.message (.flag .engineDone) 0 (Nat.zero_le _))).trans
      flagged.zero
  · have own := intact.sound.own (.head queue)
    rw [(intact.holds queue).counts.heads] at own
    refine own.symm.le.trans (((later.views .engine).1 (.head queue)).trans ?_)
    exact (congrArg (fun message => message.view.1 (.head queue)) stored).ge

/-- The engine is publishing `answers`, and `later` are those of the commands that it has
not taken yet. -/
structure Publishes (start : MarketQueue → UInt64) (answers later : List Response)
    (state : WeakEngineViewer tradeCapacity reportCapacity) : Prop where
  intact : state.queues.Intact start
  sends : ∀ queue, state.queues.pushed queue ++
      (pending tradeCapacity reportCapacity state.publisher queue ++
        expected tradeCapacity reportCapacity later queue) =
    expected tradeCapacity reportCapacity answers queue
  carrying : ∀ queue item, (state.queues.producers queue).item? = some item →
    current tradeCapacity reportCapacity state.publisher = some ⟨queue, item⟩
  coming : state.engine.responses state.toProcess = .ok later
  finished : state.publisher = .finished → later = []
  flagged : Flagged state.publisher state.queues

theorem publishes_initial {engine : MatchingEngine} {commands : List Command}
    (run : engine.responses commands = .ok answers) (start : MarketQueue → UInt64)
    (buffers : (cell : (marketLayout tradeCapacity reportCapacity).Cell) →
      (marketLayout tradeCapacity reportCapacity).Item cell.1) :
    (initial engine commands start buffers).Publishes start answers answers where
  intact := WeakQueues.intact_initial _ start buffers
  sends queue := by cases queue <;> rfl
  carrying _ _ impossible := by simp [initial, WeakQueues.initial, Producer.item?] at impossible
  coming := run
  finished impossible := PublisherPoint.noConfusion impossible
  flagged := ⟨rfl, fun _ => rfl, fun impossible => PublisherPoint.noConfusion impossible⟩

/-- A step of the viewer. -/
theorem Publishes.keep (publishes : state.Publishes start answers later)
    (engine : next.engine = state.engine) (toProcess : next.toProcess = state.toProcess)
    (publisher : next.publisher = state.publisher) (intact : next.queues.Intact start)
    (grows : Extends state.queues.memory next.queues.memory)
    (newest : next.queues.memory.newest (.flag .engineDone) =
      state.queues.memory.newest (.flag .engineDone))
    (producers : next.queues.producers = state.queues.producers)
    (pushed : next.queues.pushed = state.queues.pushed) :
    next.Publishes start answers later where
  intact := intact
  sends := by
    rw [pushed, publisher]
    exact publishes.sends
  carrying := by
    rw [producers, publisher]
    exact publishes.carrying
  coming := by rw [engine, toProcess, publishes.coming]
  finished := by
    rw [publisher]
    exact publishes.finished
  flagged := publishes.flagged.keep (by rw [publisher]) grows newest (fun _ => pushed)

/-- The engine stores `engine_done`, or takes a command and has its response to publish. -/
theorem Publishes.takeStep (publishes : state.Publishes start answers later)
    (point : state.publisher = .taking) :
    ∃ later, state.takeStep.Publishes start answers later := by
  have sends := publishes.sends
  have carrying := publishes.carrying
  have coming := publishes.coming
  have flagged := publishes.flagged
  rw [point] at sends carrying flagged
  have idle (queue : MarketQueue) (item : (marketLayout tradeCapacity reportCapacity).Item queue)
      (busy : (state.queues.producers queue).item? = some item) : False :=
    Option.some_ne_none _ (carrying queue item busy).symm
  unfold WeakEngineViewer.takeStep
  split
  · rename_i all
    rw [all] at coming
    obtain rfl := Except.ok.inj coming
    refine ⟨[], publishes.intact.setFlag .engineDone 1, ?_, fun queue item busy => ?_, ?_,
      fun _ => rfl, flagged.setDone PublisherPoint.noConfusion publishes.intact⟩
    · intro queue
      rw [← sends queue]
      cases queue <;> rfl
    · exact (idle queue item busy).elim
    · rw [all]
      rfl
  · rename_i command rest left
    rw [left] at coming
    obtain ⟨answer, later, rfl, applied, coming⟩ := MatchingEngine.responses_cons coming
    rw [applied]
    refine ⟨later, publishes.intact, fun queue => ?_, fun queue item busy => ?_, coming,
      PublisherPoint.noConfusion, ?_⟩
    · rw [← sends queue]
      cases queue <;> rfl
    · exact (idle queue item busy).elim
    · exact flagged.keep (by simp) (extends_refl _) rfl (fun _ => rfl)

/-- A step of `try_push`: what the queue has gained, the engine has no longer in hand. -/
theorem Publishes.moveOn (publishes : state.Publishes start answers later)
    {item : (marketLayout tradeCapacity reportCapacity).Item queue}
    {outcome : Option (QueueOutcome ((marketLayout tradeCapacity reportCapacity).Item queue))}
    (spec : WeakQueues.PushStep queue item state.queues queues outcome)
    (intact : queues.Intact start) (running : state.publisher ≠ .finished)
    (unfinished : after ≠ .finished)
    (moved : queues.pushed queue ++ pending tradeCapacity reportCapacity after queue =
      state.queues.pushed queue ++ pending tradeCapacity reportCapacity state.publisher queue)
    (rest : ∀ other, other ≠ queue → pending tradeCapacity reportCapacity after other =
      pending tradeCapacity reportCapacity state.publisher other)
    (carrying : ∀ other carried, (queues.producers other).item? = some carried →
      current tradeCapacity reportCapacity after = some ⟨other, carried⟩) :
    Publishes start answers later { state with queues, publisher := after } where
  intact := intact
  sends other := by
    rw [← publishes.sends other]
    by_cases same : other = queue
    · subst same
      rw [← List.append_assoc, moved, List.append_assoc]
    · dsimp only
      rw [(spec.elsewhere other same).2, rest other same]
  carrying := carrying
  coming := publishes.coming
  finished impossible := absurd impossible unfinished
  flagged := publishes.flagged.keep (by simp [running, unfinished]) spec.later (spec.flags _)
    (fun finished => absurd finished running)

theorem Publishes.pushStep (publishes : state.Publishes start answers later)
    {item : (marketLayout tradeCapacity reportCapacity).Item queue}
    (turn : current tradeCapacity reportCapacity state.publisher = some ⟨queue, item⟩)
    (running : state.publisher ≠ .finished) (unfinished : after ≠ .finished)
    (first : pending tradeCapacity reportCapacity state.publisher queue =
      item :: pending tradeCapacity reportCapacity after queue)
    (rest : ∀ other, other ≠ queue → pending tradeCapacity reportCapacity after other =
      pending tradeCapacity reportCapacity state.publisher other) (pick : Nat) :
    (state.pushStep queue item pick after).Publishes start answers later := by
  have spec := publishes.intact.pushStep queue item pick
  have intact := publishes.intact.tryPushStep queue item pick
  have mine {other} {carried} (busy : (state.queues.producers other).item? = some carried) :
      (⟨other, carried⟩ : (queue : MarketQueue) × _) = ⟨queue, item⟩ :=
    Option.some.inj ((publishes.carrying other carried busy).symm.trans turn)
  have carries : WeakQueues.Carries (state.queues.producers queue) item :=
    fun carried busy => eq_of_heq (Sigma.mk.inj (mine busy)).2
  rw [WeakEngineViewer.pushStep]
  generalize state.queues.tryPushStep queue item pick = result at spec intact
  obtain ⟨queues, outcome⟩ := result
  dsimp only at spec intact
  -- the engine is in no other call
  have alone {other} {carried} (busy : (queues.producers other).item? = some carried) :
      other = queue := by
    by_contra different
    rw [(spec.elsewhere other different).1] at busy
    exact different (congrArg Sigma.fst (mine busy))
  rcases spec.pushes carries with ⟨pushed, idle, items⟩ | ⟨unpushed, carries', items⟩
  · subst pushed
    refine publishes.moveOn spec intact running unfinished ?_ rest (fun other carried busy => ?_)
    · rw [items, first, List.append_assoc, List.singleton_append]
    · obtain rfl := alone busy
      simp only [idle, Producer.item?, reduceCtorEq] at busy
  · have kept : WeakEngineViewer.Publishes start answers later { state with queues } := by
      refine publishes.moveOn spec intact running running (by rw [items]) (fun _ _ => rfl)
        (fun other carried busy => ?_)
      obtain rfl := alone busy
      obtain rfl := carries' carried busy
      exact turn
    dsimp only
    split
    · rename_i other
      exact absurd rfl (unpushed other)
    · exact kept

theorem Publishes.engineStep (publishes : state.Publishes start answers later) (pick : Nat) :
    ∃ later, (state.engineStep pick).Publishes start answers later := by
  unfold WeakEngineViewer.engineStep
  split
  · rename_i point
    exact publishes.takeStep point
  · rename_i trade trades report point
    refine ⟨later, publishes.pushStep ?_ ?_ PublisherPoint.noConfusion ?_ ?_ pick⟩
    · rw [point]
      rfl
    · rw [point]
      exact PublisherPoint.noConfusion
    · rw [point]
      rfl
    · rw [point]
      intro other different
      cases other
      · exact absurd rfl different
      · rfl
  · rename_i report point
    refine ⟨later, publishes.pushStep ?_ ?_ PublisherPoint.noConfusion ?_ ?_ pick⟩
    · rw [point]
      rfl
    · rw [point]
      exact PublisherPoint.noConfusion
    · rw [point]
      rfl
    · rw [point]
      intro other different
      cases other
      · rfl
      · exact absurd rfl different
  · exact ⟨later, publishes⟩
  · exact ⟨later, publishes⟩

end WeakEngineViewer

end Lob
