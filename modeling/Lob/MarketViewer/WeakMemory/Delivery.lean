import Lob.MarketViewer.WeakMemory.Publishing

/-!
# The viewer receives everything under release and acquire

A viewer that has loaded `engine_done` with acquire knows of every push, so the tests for
emptiness that follow cannot miss an item, however old the values are that it has read before.
-/

namespace Lob

open ReleaseAcquire

namespace WeakEngineViewer

variable {tradeCapacity reportCapacity : PowerOfTwo}
variable {start : MarketQueue → UInt64} {state next : WeakEngineViewer tradeCapacity reportCapacity}
  {queues queues' : WeakQueues (marketLayout tradeCapacity reportCapacity)}
  {answers later : List Response} {queue : MarketQueue}

/-! ### What the viewer knows -/

/-- The viewer has loaded the store to `engine_done`. -/
def SawDone (queues : WeakQueues (marketLayout tradeCapacity reportCapacity)) : Prop :=
  1 ≤ (queues.memory.views .viewer).1 (.flag .engineDone)

/-- What the test has loaded is current. -/
def Reads (start : MarketQueue → UInt64)
    (queues : WeakQueues (marketLayout tradeCapacity reportCapacity)) (queue : MarketQueue) :
    EmptyTest → Prop
  | .start => True
  | .loadedHead head => head = start queue + UInt64.ofNat (queues.pushed queue).length
  | .loadedTail tail => tail = start queue + UInt64.ofNat (queues.popped queue).length

/-- What the viewer has found out after it has seen `engine_done`. -/
def Knows (start : MarketQueue → UInt64)
    (queues : WeakQueues (marketLayout tradeCapacity reportCapacity)) : ViewerPoint → Prop
  | .drainTrades _ => True
  | .drainReports _ => True
  | .loadDone => True
  | .testTrades test => SawDone queues ∧ Reads start queues .trades test
  | .testReports test =>
      SawDone queues ∧ queues.popped .trades = queues.pushed .trades ∧
        Reads start queues .reports test
  | .exited => SawDone queues ∧ ∀ queue, queues.popped queue = queues.pushed queue

/-- The counters of the viewer count what was popped. -/
structure Tallied (state : WeakEngineViewer tradeCapacity reportCapacity) : Prop where
  tradesSeen : state.tradesSeen = UInt64.ofNat (state.queues.popped .trades).length
  reportsSeen : state.reportsSeen = UInt64.ofNat (state.queues.popped .reports).length
  rejectedSeen : state.rejectedSeen = UInt64.ofNat
    ((state.queues.popped .reports).countP (fun report => !ExecutionReport.accepted report))

/-- The engine runs until it has stored `engine_done`. -/
theorem Publishes.finished_of_sawDone (publishes : state.Publishes start answers later)
    (saw : SawDone state.queues) : state.publisher = .finished := by
  by_contra running
  have seen := (publishes.intact.sound.closed .viewer).seen (.flag .engineDone)
  rw [publishes.flagged.undone running] at seen
  exact absurd (saw.trans seen) (Nat.not_succ_le_zero 0)

/-- A viewer that has seen `engine_done` knows of every push. -/
theorem Publishes.le_seenHead (publishes : state.Publishes start answers later)
    (saw : SawDone state.queues) (queue : MarketQueue) :
    (state.queues.pushed queue).length ≤ state.queues.seenHead queue := by
  obtain ⟨_, known⟩ := publishes.flagged.done (publishes.finished_of_sawDone saw)
  exact (known queue).trans ((publishes.intact.sound.taken saw).1 (.head queue))

theorem Publishes.lookHead (publishes : state.Publishes start answers later)
    (saw : SawDone state.queues) (queue : MarketQueue) (pick : Nat) :
    (state.queues.look .viewer (.head queue) pick).2 =
      start queue + UInt64.ofNat (state.queues.pushed queue).length := by
  obtain ⟨n, value, _, seen, le, _⟩ := publishes.intact.loadHead queue pick
  obtain rfl : n = (state.queues.pushed queue).length :=
    le_antisymm le ((publishes.le_seenHead saw queue).trans seen)
  exact value

theorem Publishes.lookTail (publishes : state.Publishes start answers later)
    (queue : MarketQueue) (pick : Nat) :
    (state.queues.look .viewer (.tail queue) pick).2 =
      start queue + UInt64.ofNat (state.queues.popped queue).length := by
  have counts := (publishes.intact.holds queue).counts
  have newest := publishes.intact.sound.picked_own (.tail queue) pick
  rw [← counts.tailValue _ le_rfl, ← counts.tails, ← newest]
  rfl

/-- Counters that agree as machine words belong to a queue that is empty. -/
theorem Publishes.drained (publishes : state.Publishes start answers later)
    (same : start queue + UInt64.ofNat (state.queues.pushed queue).length =
      start queue + UInt64.ofNat (state.queues.popped queue).length) :
    state.queues.popped queue = state.queues.pushed queue := by
  have holds := publishes.intact.holds queue
  have le := holds.popped_le
  have bounded := holds.counts.bounded publishes.intact.sound
  have small := ((marketLayout tradeCapacity reportCapacity).capacity queue).value.toNat_lt
  have distance := congrArg UInt64.toNat (counter_sub (start queue) le)
  rw [same, UInt64.sub_self, UInt64.toNat_ofNat', Nat.mod_eq_of_lt (by omega)] at distance
  have none : (0 : UInt64).toNat = 0 := rfl
  exact holds.fifo.eq_of_length (by omega)

/-- `empty` answers true only for a queue that is empty. -/
theorem Publishes.emptyStep (publishes : state.Publishes start answers later)
    (saw : SawDone state.queues) {test : EmptyTest}
    (reads : Reads start state.queues queue test) (headFirst : Bool) (pick : Nat) :
    let result := state.queues.emptyStep .viewer queue headFirst pick test
    (∃ location, result.1 = (state.queues.look .viewer location pick).1) ∧
      (result.2.2 = none → Reads start state.queues queue result.2.1) ∧
      (result.2.2 = some true → state.queues.popped queue = state.queues.pushed queue) := by
  have head := publishes.lookHead saw queue pick
  have tail := publishes.lookTail queue pick
  cases test with
  | start =>
      cases headFirst with
      | true => exact ⟨⟨.head queue, rfl⟩, fun _ => head, by simp [WeakQueues.emptyStep]⟩
      | false => exact ⟨⟨.tail queue, rfl⟩, fun _ => tail, by simp [WeakQueues.emptyStep]⟩
  | loadedHead loaded =>
      refine ⟨⟨.tail queue, rfl⟩, by simp [WeakQueues.emptyStep], fun answer => ?_⟩
      have equal := of_decide_eq_true (Option.some.inj answer)
      exact publishes.drained (reads.symm.trans (equal.trans tail))
  | loadedTail loaded =>
      refine ⟨⟨.head queue, rfl⟩, by simp [WeakQueues.emptyStep], fun answer => ?_⟩
      have equal := of_decide_eq_true (Option.some.inj answer)
      exact publishes.drained (head.symm.trans (equal.trans reads))

/-- A load of the viewer leaves all but what it knows as it is. -/
theorem Publishes.look (publishes : state.Publishes start answers later)
    (location : QueueLocation MarketQueue MarketFlag) (pick : Nat)
    (queues : next.queues = (state.queues.look .viewer location pick).1)
    (engine : next.engine = state.engine) (toProcess : next.toProcess = state.toProcess)
    (publisher : next.publisher = state.publisher) : next.Publishes start answers later := by
  refine publishes.keep engine toProcess publisher
    (queues ▸ publishes.intact.look .viewer location pick) ?_ ?_ ?_ ?_
  · rw [queues]
    exact extends_loadAcquire state.queues.memory .viewer location pick
  · rw [queues]
    rfl
  · rw [queues]
    rfl
  · rw [queues]
    rfl

theorem Publishes.pop (publishes : state.Publishes start answers later)
    {outcome : Option (QueueOutcome ((marketLayout tradeCapacity reportCapacity).Item queue))}
    (spec : WeakQueues.PopStep queue state.queues next.queues outcome)
    (intact : next.queues.Intact start) (engine : next.engine = state.engine)
    (toProcess : next.toProcess = state.toProcess)
    (publisher : next.publisher = state.publisher) : next.Publishes start answers later :=
  publishes.keep engine toProcess publisher intact spec.later (spec.flags _) spec.producers
    spec.pushed

theorem Publishes.viewerStep (publishes : state.Publishes start answers later) (headFirst : Bool)
    (pick : Nat) (knows : Knows start state.queues state.viewer) :
    (state.viewerStep headFirst pick).Publishes start answers later := by
  unfold WeakEngineViewer.viewerStep
  split
  · have spec := publishes.intact.popStep .trades pick
    have intact := publishes.intact.tryPopStep .trades pick
    unfold drainTradesStep
    dsimp only
    split <;> exact publishes.pop spec intact rfl rfl rfl
  · have spec := publishes.intact.popStep .reports pick
    have intact := publishes.intact.tryPopStep .reports pick
    unfold drainReportsStep
    dsimp only
    split <;> exact publishes.pop spec intact rfl rfl rfl
  · exact publishes.look (.flag .engineDone) pick rfl rfl rfl rfl
  · rename_i test point
    rw [point] at knows
    obtain ⟨⟨location, looked⟩, _⟩ := publishes.emptyStep knows.1 knows.2 headFirst pick
    exact publishes.look location pick looked rfl rfl rfl
  · rename_i test point
    rw [point] at knows
    obtain ⟨⟨location, looked⟩, _⟩ := publishes.emptyStep knows.1 knows.2.2 headFirst pick
    exact publishes.look location pick looked rfl rfl rfl
  · exact publishes

theorem SawDone.look (saw : SawDone queues) (location : QueueLocation MarketQueue MarketFlag)
    (pick : Nat) : SawDone (queues.look .viewer location pick).1 :=
  saw.trans (((extends_loadAcquire queues.memory .viewer location pick).views .viewer).1 _)

/-- A value of `engine_done` other than zero is the one that the engine has stored. -/
theorem Publishes.sawDone (publishes : state.Publishes start answers later) (pick : Nat)
    (done : (state.queues.look .viewer (.flag .engineDone) pick).2 ≠ 0) :
    SawDone (state.queues.look .viewer (.flag .engineDone) pick).1 := by
  have seen := publishes.intact.sound.picked_le_seen .viewer (.flag .engineDone) pick
  refine (Nat.one_le_iff_ne_zero.mpr fun oldest => done ?_).trans seen
  have loaded : (state.queues.look .viewer (.flag .engineDone) pick).2 =
      (state.queues.memory.message (.flag .engineDone)
        (state.queues.memory.picked .viewer (.flag .engineDone) pick)).value := rfl
  rw [loaded, oldest]
  exact publishes.flagged.zero

theorem Publishes.knows_viewerStep (publishes : state.Publishes start answers later)
    (knows : Knows start state.queues state.viewer) (headFirst : Bool) (pick : Nat) :
    Knows start (state.viewerStep headFirst pick).queues
      (state.viewerStep headFirst pick).viewer := by
  rw [WeakEngineViewer.viewerStep]
  cases point : state.viewer with
  | drainTrades gotAny =>
      dsimp only [drainTradesStep]
      split
      · trivial
      · trivial
      · rw [point]
        trivial
  | drainReports gotAny =>
      dsimp only [drainReportsStep]
      split
      · trivial
      · cases gotAny <;> trivial
      · rw [point]
        trivial
  | loadDone =>
      dsimp only
      split
      · rename_i done
        exact ⟨publishes.sawDone pick done, trivial⟩
      · trivial
  | testTrades test =>
      rw [point] at knows
      have spec := publishes.emptyStep knows.1 knows.2 headFirst pick
      dsimp only at spec ⊢
      generalize state.queues.emptyStep .viewer .trades headFirst pick test = result at spec ⊢
      obtain ⟨queues, test, answer⟩ := result
      obtain ⟨⟨location, rfl⟩, reads, drained⟩ := spec
      have saw := knows.1.look location pick
      match answer with
      | none => exact ⟨saw, reads rfl⟩
      | some true => exact ⟨saw, drained rfl, trivial⟩
      | some false => trivial
  | testReports test =>
      rw [point] at knows
      have spec := publishes.emptyStep knows.1 knows.2.2 headFirst pick
      dsimp only at spec ⊢
      generalize state.queues.emptyStep .viewer .reports headFirst pick test = result at spec ⊢
      obtain ⟨queues, test, answer⟩ := result
      obtain ⟨⟨location, rfl⟩, reads, drained⟩ := spec
      have saw := knows.1.look location pick
      match answer with
      | none => exact ⟨saw, knows.2.1, reads rfl⟩
      | some true =>
          refine ⟨saw, fun queue => ?_⟩
          cases queue with
          | trades => exact knows.2.1
          | reports => exact drained rfl
      | some false => trivial
  | exited =>
      rw [point] at knows
      dsimp only
      rw [point]
      exact knows

theorem Tallied.keep (tallied : state.Tallied) (trades : next.tradesSeen = state.tradesSeen)
    (reports : next.reportsSeen = state.reportsSeen)
    (rejected : next.rejectedSeen = state.rejectedSeen)
    (popped : next.queues.popped = state.queues.popped) : next.Tallied := by
  refine ⟨?_, ?_, ?_⟩
  · rw [trades, popped, tallied.tradesSeen]
  · rw [reports, popped, tallied.reportsSeen]
  · rw [rejected, popped, tallied.rejectedSeen]

theorem popped_eq_of_popStep
    {outcome : Option (QueueOutcome ((marketLayout tradeCapacity reportCapacity).Item queue))}
    (spec : WeakQueues.PopStep queue queues queues' outcome)
    (same : queues'.popped queue = queues.popped queue) : queues'.popped = queues.popped := by
  funext other
  by_cases this : other = queue
  · rw [this, same]
  · exact spec.elsewhere other this

theorem Tallied.drainTradesStep (tallied : state.Tallied) (intact : state.queues.Intact start)
    (gotAny : Bool) (pick : Nat) : (state.drainTradesStep gotAny pick).Tallied := by
  have spec := intact.popStep .trades pick
  rw [WeakEngineViewer.drainTradesStep]
  generalize state.queues.tryPopStep .trades pick = result at spec
  obtain ⟨queues, outcome⟩ := result
  dsimp only at spec ⊢
  rcases spec.pops with ⟨out, rfl, items⟩ | ⟨unpopped, same⟩
  · have reports := spec.elsewhere .reports (by decide)
    refine ⟨?_, ?_, ?_⟩
    · dsimp only
      rw [items, List.length_append, List.length_singleton, UInt64.ofNat_add, tallied.tradesSeen]
      rfl
    · exact tallied.reportsSeen.trans (by rw [← reports])
    · exact tallied.rejectedSeen.trans (by rw [← reports])
  · have popped := popped_eq_of_popStep spec same
    split
    · exact absurd rfl (unpopped _)
    · exact tallied.keep rfl rfl rfl popped
    · exact tallied.keep rfl rfl rfl popped

theorem rejected_append (reports : List ExecutionReport) (report : ExecutionReport) {seen : UInt64}
    (counted : seen = UInt64.ofNat (reports.countP (fun report => !report.accepted))) :
    (if report.accepted then seen else seen + 1) =
      UInt64.ofNat ((reports ++ [report]).countP (fun report => !report.accepted)) := by
  rw [List.countP_append, List.countP_singleton, UInt64.ofNat_add, ← counted]
  cases report.accepted with
  | true => exact (UInt64.add_zero seen).symm
  | false => rfl

theorem Tallied.drainReportsStep (tallied : state.Tallied) (intact : state.queues.Intact start)
    (gotAny : Bool) (pick : Nat) : (state.drainReportsStep gotAny pick).Tallied := by
  have spec := intact.popStep .reports pick
  rw [WeakEngineViewer.drainReportsStep]
  generalize state.queues.tryPopStep .reports pick = result at spec
  obtain ⟨queues, outcome⟩ := result
  dsimp only at spec ⊢
  rcases spec.pops with ⟨out, rfl, items⟩ | ⟨unpopped, same⟩
  · have trades := spec.elsewhere .trades (by decide)
    refine ⟨?_, ?_, ?_⟩
    · exact tallied.tradesSeen.trans (by rw [← trades])
    · dsimp only
      rw [items, List.length_append, List.length_singleton, UInt64.ofNat_add, tallied.reportsSeen]
      rfl
    · dsimp only
      rw [items]
      exact rejected_append _ out tallied.rejectedSeen
  · have popped := popped_eq_of_popStep spec same
    split
    · exact absurd rfl (unpopped _)
    · exact tallied.keep rfl rfl rfl popped
    · exact tallied.keep rfl rfl rfl popped

theorem Publishes.tallied_viewerStep (publishes : state.Publishes start answers later)
    (tallied : state.Tallied) (knows : Knows start state.queues state.viewer) (headFirst : Bool)
    (pick : Nat) : (state.viewerStep headFirst pick).Tallied := by
  unfold WeakEngineViewer.viewerStep
  split
  · exact tallied.drainTradesStep publishes.intact _ pick
  · exact tallied.drainReportsStep publishes.intact _ pick
  · exact tallied.keep rfl rfl rfl rfl
  · rename_i test point
    rw [point] at knows
    obtain ⟨⟨location, looked⟩, _⟩ := publishes.emptyStep knows.1 knows.2 headFirst pick
    have popped := congrArg WeakQueues.popped looked
    exact tallied.keep rfl rfl rfl popped
  · rename_i test point
    rw [point] at knows
    obtain ⟨⟨location, looked⟩, _⟩ := publishes.emptyStep knows.1 knows.2.2 headFirst pick
    have popped := congrArg WeakQueues.popped looked
    exact tallied.keep rfl rfl rfl popped
  · exact tallied

/-- What the viewer has, the engine leaves alone. -/
structure SameView (state next : WeakEngineViewer tradeCapacity reportCapacity) : Prop where
  viewer : next.viewer = state.viewer
  tradesSeen : next.tradesSeen = state.tradesSeen
  reportsSeen : next.reportsSeen = state.reportsSeen
  rejectedSeen : next.rejectedSeen = state.rejectedSeen
  popped : next.queues.popped = state.queues.popped

theorem sameView_pushStep (intact : state.queues.Intact start)
    (item : (marketLayout tradeCapacity reportCapacity).Item queue) (pick : Nat)
    (after : PublisherPoint) : SameView state (state.pushStep queue item pick after) := by
  have spec := intact.pushStep queue item pick
  unfold pushStep
  dsimp only
  split <;> exact ⟨rfl, rfl, rfl, rfl, spec.popped⟩

theorem sameView_engineStep (intact : state.queues.Intact start) (pick : Nat) :
    SameView state (state.engineStep pick) := by
  unfold WeakEngineViewer.engineStep
  split
  · unfold takeStep
    split
    · exact ⟨rfl, rfl, rfl, rfl, rfl⟩
    · split <;> exact ⟨rfl, rfl, rfl, rfl, rfl⟩
  · exact sameView_pushStep intact _ pick _
  · exact sameView_pushStep intact _ pick _
  · exact ⟨rfl, rfl, rfl, rfl, rfl⟩
  · exact ⟨rfl, rfl, rfl, rfl, rfl⟩

/-- Before the viewer has seen `engine_done` it has found out nothing. -/
theorem Knows.of_unseen {point : ViewerPoint} (knows : Knows start queues point)
    (unseen : ¬SawDone queues) (queues' : WeakQueues (marketLayout tradeCapacity reportCapacity)) :
    Knows start queues' point := by
  cases point with
  | drainTrades gotAny => trivial
  | drainReports gotAny => trivial
  | loadDone => trivial
  | testTrades test => exact absurd knows.1 unseen
  | testReports test => exact absurd knows.1 unseen
  | exited => exact absurd knows.1 unseen

theorem Publishes.knows_engineStep (publishes : state.Publishes start answers later)
    (knows : Knows start state.queues state.viewer) (pick : Nat) :
    Knows start (state.engineStep pick).queues (state.engineStep pick).viewer := by
  by_cases saw : SawDone state.queues
  · have stays : state.engineStep pick = state := by
      rw [WeakEngineViewer.engineStep, publishes.finished_of_sawDone saw]
    rw [stays]
    exact knows
  · rw [(sameView_engineStep publishes.intact pick).viewer]
    exact knows.of_unseen saw _

/-! ### Whole runs -/

/-- The invariant of the two processes. -/
structure Relays (start : MarketQueue → UInt64) (answers : List Response)
    (state : WeakEngineViewer tradeCapacity reportCapacity) : Prop where
  publishes : ∃ later, state.Publishes start answers later
  knows : Knows start state.queues state.viewer
  tallied : state.Tallied

theorem Relays.step (relays : state.Relays start answers) (event : WeakEngineViewerEvent) :
    (state.step event).Relays start answers := by
  obtain ⟨⟨later, publishes⟩, knows, tallied⟩ := relays
  cases event with
  | engine pick =>
      have same := sameView_engineStep publishes.intact pick
      exact ⟨publishes.engineStep pick, publishes.knows_engineStep knows pick,
        tallied.keep same.tradesSeen same.reportsSeen same.rejectedSeen same.popped⟩
  | viewer headFirst pick =>
      exact ⟨⟨later, publishes.viewerStep headFirst pick knows⟩,
        publishes.knows_viewerStep knows headFirst pick,
        publishes.tallied_viewerStep tallied knows headFirst pick⟩

theorem Publishes.popped_prefix (publishes : state.Publishes start answers later)
    (queue : MarketQueue) :
    state.queues.popped queue <+: expected tradeCapacity reportCapacity answers queue := by
  rw [← publishes.sends queue]
  exact (publishes.intact.holds queue).fifo.trans (List.prefix_append _ _)

theorem Relays.popped_eq (relays : state.Relays start answers) (exited : state.viewer = .exited)
    (queue : MarketQueue) :
    state.queues.popped queue = expected tradeCapacity reportCapacity answers queue := by
  obtain ⟨⟨later, publishes⟩, knows, _⟩ := relays
  rw [exited] at knows
  have finished := publishes.finished_of_sawDone knows.1
  obtain rfl := publishes.finished finished
  have sends := publishes.sends queue
  rw [finished] at sends
  rw [knows.2 queue, ← sends]
  cases queue <;> exact (List.append_nil _).symm

/-- With the memory orders of the source and whatever the loads return, the engine and the
viewer never race on a slot, and what the viewer has popped are the first trades and reports of
the run. When it has left its loop, it has popped all of them. -/
theorem weak_viewer_receives_everything (limits : RiskLimits) (recovered commands : List Command) :
    ∃ engine, (MatchingEngine.fresh limits).runAll recovered = .ok engine ∧
      ∃ answers, engine.responses commands = .ok answers ∧
        ∀ (start : MarketQueue → UInt64)
          (buffers : (cell : (marketLayout tradeCapacity reportCapacity).Cell) →
            (marketLayout tradeCapacity reportCapacity).Item cell.1)
          (events : List WeakEngineViewerEvent),
          let state := Schedule.run step (initial engine commands start buffers) events
          state.queues.memory.raced = false ∧
            state.queues.popped .trades <+: answers.flatMap Response.outTrades ∧
            state.queues.popped .reports <+: answers.map Response.report ∧
            state.tradesSeen = UInt64.ofNat (state.queues.popped .trades).length ∧
            state.reportsSeen = UInt64.ofNat (state.queues.popped .reports).length ∧
            state.rejectedSeen = UInt64.ofNat ((state.queues.popped .reports).countP
              (fun report => !ExecutionReport.accepted report)) ∧
            (state.viewer = .exited →
              state.queues.popped .trades = answers.flatMap Response.outTrades ∧
                state.queues.popped .reports = answers.map Response.report) := by
  obtain ⟨engine, reached, consistent⟩ := (consistent_fresh limits).runAll recovered
  obtain ⟨answers, run, _⟩ := consistent.responses commands
  refine ⟨engine, reached, answers, run, fun start buffers events => ?_⟩
  intro state
  have relays : state.Relays start answers := by
    refine Schedule.run_invariant (fun _ event known => known.step event) ?_ events
    exact ⟨⟨answers, publishes_initial run start buffers⟩, trivial, ⟨rfl, rfl, rfl⟩⟩
  obtain ⟨later, publishes⟩ := relays.publishes
  exact ⟨publishes.intact.raceFree, publishes.popped_prefix .trades,
    publishes.popped_prefix .reports, relays.tallied.tradesSeen, relays.tallied.reportsSeen,
    relays.tallied.rejectedSeen,
    fun exited => ⟨relays.popped_eq exited .trades, relays.popped_eq exited .reports⟩⟩

/-- A resting order and one that trades with it. The viewer first reads the oldest values of all
counters, although the engine is done, and then the newest ones. -/
theorem weak_viewer_receives_one_trade :
    let commands : List Command :=
      [.newOrder { id := 1, side := .sell, price := 100, quantity := 10 },
        .newOrder { id := 2, side := .buy, price := 100, quantity := 4 }]
    let events : List WeakEngineViewerEvent :=
      List.replicate 15 (.engine 0) ++ List.replicate 6 (.viewer true 0) ++
        List.replicate 25 (.viewer true 2)
    let final : WeakEngineViewer kTradeQueueCapacity kReportQueueCapacity :=
      Schedule.run step (initial (.fresh {}) commands (fun _ => 0) emptyBuffers) events
    final.viewer = .exited ∧ final.queues.memory.raced = false ∧
      ∃ answers, (MatchingEngine.fresh {}).responses commands = .ok answers ∧
        final.queues.popped .trades = answers.flatMap Response.outTrades ∧
        final.queues.popped .reports = answers.map Response.report := by
  intro commands events final
  have exited : final.viewer = .exited := by decide +kernel
  -- naming the run keeps it from being evaluated below
  have same : final =
      Schedule.run step (initial (.fresh {}) commands (fun _ => 0) emptyBuffers) events := rfl
  obtain ⟨engine, reached, answers, run, received⟩ :=
    @weak_viewer_receives_everything kTradeQueueCapacity kReportQueueCapacity {} [] commands
  have fresh : MatchingEngine.fresh {} = engine := Except.ok.inj reached
  subst fresh
  obtain ⟨raceFree, _, _, _, _, _, all⟩ := received (fun _ => 0) emptyBuffers events
  rw [same] at exited ⊢
  exact ⟨exited, raceFree, answers, run, all exited⟩

end WeakEngineViewer

end Lob
