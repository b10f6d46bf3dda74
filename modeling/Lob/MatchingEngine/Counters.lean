import Lob.MatchingEngine.Run
import Lob.MatchingEngine.Simulation
import Lob.Reference.History
import Lob.Reference.Trades

/-!
# Sequences and counters

What every command does to the event sequence and to the counters of the engine, from any
state at all. The report carries the new sequence, so the reports of a run are numbered
without a gap. A rejected command does nothing else than count. In a run of a consistent
engine the reports also account for all the trades.
-/

namespace Lob

namespace MatchingEngine

variable {engine : MatchingEngine} {order : Order} {command : Command} {sequence : UInt64}
  {outTrades : List Trade} {response : Response}
variable {answers : List Response} {commands : List Command} {orderId : UInt64}

/-- What a new order adds to the counter of orders. -/
def newOrders : Command → UInt64
  | .newOrder _ => 1
  | .cancel _ => 0

/-- What a cancellation adds to the counter of cancellations. -/
def cancellations : Command → UInt64
  | .newOrder _ => 0
  | .cancel _ => 1

/-- The sequence and the counters after a command. A rejected command moves nothing else. -/
structure Counts (engine : MatchingEngine) (command : Command) (outTrades : List Trade)
    (response : Response) : Prop where
  sequence : response.engine.sequence = engine.sequence + 1
  report : response.report.sequence = engine.sequence + 1
  rejected : response.report.accepted = false →
    response.engine = { engine with
        sequence := engine.sequence + 1
        rejectedOrders := engine.rejectedOrders + newOrders command } ∧
      response.outTrades = outTrades
  accepted : response.report.accepted = true →
    response.engine.acceptedOrders = engine.acceptedOrders + newOrders command ∧
      response.engine.canceledOrders = engine.canceledOrders + cancellations command

theorem execute_counts (executed : engine.execute order sequence outTrades = .ok response) :
    response.report.accepted = true ∧ response.report.sequence = sequence ∧
      response.engine.sequence = engine.sequence ∧
      response.engine.acceptedOrders = engine.acceptedOrders + 1 ∧
      response.engine.canceledOrders = engine.canceledOrders := by
  simp only [execute, bind, Except.bind, pure, Except.pure] at executed
  split at executed
  · contradiction
  split at executed
  · split at executed
    · contradiction
    · obtain rfl := Except.ok.inj executed
      exact ⟨Reference.accepted_acceptedReport _ _ _ _, rfl, rfl, rfl, rfl⟩
  · obtain rfl := Except.ok.inj executed
    exact ⟨Reference.accepted_acceptedReport _ _ _ _, rfl, rfl, rfl, rfl⟩

theorem processOrder_counts (processed : engine.processOrder order outTrades = .ok response) :
    engine.Counts (.newOrder order) outTrades response := by
  simp only [processOrder] at processed
  split at processed
  · obtain ⟨accepted, report, sequence, acceptedOrders, canceledOrders⟩ :=
      execute_counts processed
    refine ⟨sequence, report, fun rejected => ?_, fun _ => ⟨acceptedOrders, ?_⟩⟩
    · exact absurd (accepted.symm.trans rejected) (by decide)
    · exact canceledOrders.trans (UInt64.add_zero _).symm
  · obtain rfl := Except.ok.inj processed
    refine ⟨rfl, rfl, fun _ => ⟨rfl, rfl⟩, fun accepted => ?_⟩
    exact absurd accepted (by simp [rejectedReport, ExecutionReport.accepted])

theorem counts_of_reject {report : ExecutionReport} (stamp : report.sequence = engine.sequence + 1)
    (status : report.status = .rejected) :
    engine.Counts (.cancel orderId) outTrades
      ⟨{ engine with sequence := engine.sequence + 1 }, report, outTrades⟩ := by
  refine ⟨rfl, stamp, fun _ => ⟨by simp [newOrders], rfl⟩, fun accepted => ?_⟩
  exact absurd accepted (by simp [ExecutionReport.accepted, status])

theorem cancel_counts {answer : MatchingEngine × ExecutionReport}
    (canceled : engine.cancel orderId = .ok answer) :
    engine.Counts (.cancel orderId) outTrades ⟨answer.1, answer.2, outTrades⟩ := by
  simp only [cancel, bind, Except.bind, pure, Except.pure] at canceled
  split at canceled
  · obtain rfl := Except.ok.inj canceled
    exact counts_of_reject rfl rfl
  · split at canceled
    · contradiction
    split at canceled
    · obtain rfl := Except.ok.inj canceled
      exact counts_of_reject rfl rfl
    · obtain rfl := Except.ok.inj canceled
      refine ⟨rfl, rfl, fun rejected => ?_, fun _ => ⟨by simp [newOrders], rfl⟩⟩
      exact absurd rejected (by simp [ExecutionReport.accepted])

theorem apply_counts (applied : engine.apply command outTrades = .ok response) :
    engine.Counts command outTrades response := by
  cases command with
  | newOrder order => exact processOrder_counts applied
  | cancel orderId =>
      obtain ⟨_, canceled, rfl⟩ := apply_cancel applied
      exact cancel_counts canceled

theorem acceptedReport_ne_canceled (order : Order) (sequence : UInt64) (remaining : UInt32)
    (tradeCount : Nat) :
    (acceptedReport order sequence remaining tradeCount).status ≠ .canceled := by
  simp only [acceptedReport]
  repeat' split
  all_goals decide

theorem processOrder_ne_canceled {order : Order}
    (processed : engine.processOrder order outTrades = .ok response) :
    response.report.status ≠ .canceled := by
  simp only [processOrder, execute, bind, Except.bind, pure, Except.pure] at processed
  split at processed
  · split at processed
    · contradiction
    split at processed
    · split at processed
      · contradiction
      · obtain rfl := Except.ok.inj processed
        exact acceptedReport_ne_canceled _ _ _ _
    · obtain rfl := Except.ok.inj processed
      exact acceptedReport_ne_canceled _ _ _ _
  · obtain rfl := Except.ok.inj processed
    simp [rejectedReport]

theorem cancel_accepted_iff {answer : MatchingEngine × ExecutionReport}
    (canceled : engine.cancel orderId = .ok answer) :
    answer.2.accepted = true ↔ answer.2.status = .canceled := by
  simp only [cancel, bind, Except.bind, pure, Except.pure] at canceled
  split at canceled
  · obtain rfl := Except.ok.inj canceled
    simp [ExecutionReport.accepted]
  · split at canceled
    · contradiction
    split at canceled
    · obtain rfl := Except.ok.inj canceled
      simp [ExecutionReport.accepted]
    · obtain rfl := Except.ok.inj canceled
      simp [ExecutionReport.accepted]

/-- The engine counts the cancellations that it reports. -/
theorem apply_canceledOrders (applied : engine.apply command outTrades = .ok response) :
    response.engine.canceledOrders =
      if response.report.status = .canceled then engine.canceledOrders + 1
      else engine.canceledOrders := by
  have counts := apply_counts applied
  have unmoved (rejected : response.report.accepted = false) :
      response.engine.canceledOrders = engine.canceledOrders := by
    rw [(counts.rejected rejected).1]
  cases command with
  | newOrder order =>
      rw [if_neg (processOrder_ne_canceled applied)]
      cases accepted : response.report.accepted with
      | false => exact unmoved accepted
      | true => exact (counts.accepted accepted).2.trans (UInt64.add_zero _)
  | cancel orderId =>
      have status : response.report.accepted = true ↔ response.report.status = .canceled := by
        obtain ⟨_, canceled, rfl⟩ := apply_cancel applied
        exact cancel_accepted_iff canceled
      cases accepted : response.report.accepted with
      | false => rw [if_neg (by simp [← status, accepted]), unmoved accepted]
      | true =>
          rw [if_pos (status.mp accepted)]
          exact (counts.accepted accepted).2

/-- Every accepted command is counted once, as an order or as a cancellation. -/
theorem apply_acceptedCommands (applied : engine.apply command outTrades = .ok response) :
    response.engine.acceptedOrders + response.engine.canceledOrders =
      if response.report.accepted then engine.acceptedOrders + engine.canceledOrders + 1
      else engine.acceptedOrders + engine.canceledOrders := by
  have counts := apply_counts applied
  cases accepted : response.report.accepted with
  | false => rw [(counts.rejected accepted).1]; rfl
  | true =>
      obtain ⟨orders, cancels⟩ := counts.accepted accepted
      rw [orders, cancels, if_pos rfl]
      cases command <;> simp only [newOrders, cancellations] <;> grind

theorem responses_cons (run : engine.responses (command :: commands) = .ok answers) :
    ∃ answer later, answers = answer :: later ∧ engine.apply command [] = .ok answer ∧
      answer.engine.responses commands = .ok later := by
  simp only [responses, bind, Except.bind, pure, Except.pure] at run
  split at run
  · contradiction
  rename_i answer applied
  split at run
  · contradiction
  rename_i later rest
  exact ⟨answer, later, (Except.ok.inj run).symm, applied, rest⟩

/-- The answers to the first commands of a run come first. -/
theorem responses_split {front back : List Command}
    (run : engine.responses (front ++ back) = .ok answers) :
    ∃ first later, answers = first ++ later ∧ first.length = front.length ∧
      engine.responses front = .ok first ∧
      (engine.lastEngine first).responses back = .ok later := by
  induction front generalizing engine answers with
  | nil => exact ⟨[], answers, rfl, rfl, rfl, run⟩
  | cons command front ih =>
      obtain ⟨answer, rest, rfl, applied, ran⟩ := responses_cons run
      obtain ⟨first, later, rfl, length, ranFirst, ranLater⟩ := ih ran
      refine ⟨answer :: first, later, rfl, by rw [List.length_cons, length, List.length_cons], ?_,
        ?_⟩
      · simp only [responses, applied, ranFirst, bind, Except.bind, pure, Except.pure]
      · rw [lastEngine_cons]
        exact ranLater

theorem responses_prefix {front commands : List Command} {answers all : List Response}
    (isFront : front <+: commands) (first : engine.responses front = .ok answers)
    (run : engine.responses commands = .ok all) : answers <+: all := by
  obtain ⟨back, rfl⟩ := isFront
  obtain ⟨answers', later, rfl, _, first', _⟩ := responses_split run
  obtain rfl := Except.ok.inj (first.symm.trans first')
  exact List.prefix_append _ _

theorem runAll_of_responses (run : engine.responses commands = .ok answers) :
    engine.runAll commands = .ok (engine.lastEngine answers) := by
  induction commands generalizing engine answers with
  | nil =>
      obtain rfl := Except.ok.inj run
      rfl
  | cons command commands ih =>
      obtain ⟨answer, later, rfl, applied, rest⟩ := responses_cons run
      simp only [MatchingEngine.runAll, applied, bind, Except.bind, ih rest, lastEngine_cons]

/-- Each report of a run carries the sequence after the one before it. -/
theorem responses_numbered (run : engine.responses commands = .ok answers) :
    answers.map (fun answer => answer.report.sequence) =
      (List.range commands.length).map (fun i => engine.sequence + 1 + UInt64.ofNat i) := by
  induction commands generalizing engine answers with
  | nil =>
      obtain rfl := Except.ok.inj run
      rfl
  | cons command commands ih =>
      obtain ⟨answer, later, rfl, applied, rest⟩ := responses_cons run
      have counts := apply_counts applied
      rw [List.map_cons, List.length_cons, List.range_succ_eq_map, List.map_cons, List.map_map,
        counts.report, ih rest, counts.sequence]
      refine congrArg₂ List.cons (UInt64.add_zero _).symm (List.map_congr_left (fun i _ => ?_))
      rw [Function.comp_apply, Nat.succ_eq_add_one, UInt64.ofNat_add]
      grind

/-- The reports of a run carry increasing sequences. -/
theorem responses_sequences (run : engine.responses commands = .ok answers)
    (room : engine.sequence.toNat + commands.length < 2 ^ 64) :
    (∀ answer ∈ answers, engine.sequence < answer.report.sequence) ∧
      answers.Pairwise (fun a b => a.report.sequence < b.report.sequence) := by
  -- the number before the run and those of the run count on from `engine.sequence`
  have counted : engine.sequence :: answers.map (fun answer => answer.report.sequence) =
      (List.range (commands.length + 1)).map (fun i => engine.sequence + UInt64.ofNat i) := by
    rw [responses_numbered run, List.range_succ_eq_map, List.map_cons, List.map_map]
    refine congrArg₂ List.cons (UInt64.add_zero _).symm (List.map_congr_left fun i _ => ?_)
    rw [Function.comp_apply, Nat.succ_eq_add_one, UInt64.ofNat_add]
    grind
  have increasing : (engine.sequence ::
      answers.map (fun answer => answer.report.sequence)).Pairwise (· < ·) := by
    rw [counted]
    exact Reference.numbered_increasing room
  rw [List.pairwise_cons, List.pairwise_map] at increasing
  exact ⟨fun answer member => increasing.1 _ (List.mem_map_of_mem member), increasing.2⟩

/-! ### Runs of consistent engines -/

theorem Consistent.responses (consistent : engine.Consistent) (commands : List Command) :
    ∃ answers, engine.responses commands = .ok answers ∧ answers.length = commands.length := by
  induction commands generalizing engine with
  | nil => exact ⟨[], rfl, rfl⟩
  | cons command commands ih =>
      obtain ⟨answer, applied, consistent'⟩ := consistent.apply command []
      obtain ⟨later, rest, length⟩ := ih consistent'
      refine ⟨answer :: later, ?_, by rw [List.length_cons, List.length_cons, length]⟩
      simp only [MatchingEngine.responses, applied, rest, bind, Except.bind, pure, Except.pure]

theorem Consistent.runAll (consistent : engine.Consistent) (commands : List Command) :
    ∃ final, engine.runAll commands = .ok final ∧ final.Consistent := by
  induction commands generalizing engine with
  | nil => exact ⟨engine, rfl, consistent⟩
  | cons command commands ih =>
      obtain ⟨response, applied, next⟩ := consistent.apply command []
      obtain ⟨final, reached, last⟩ := ih next
      refine ⟨final, ?_, last⟩
      simp only [MatchingEngine.runAll, applied, bind, Except.bind, reached]

/-- The report of a command says how many trades it has appended. -/
theorem Consistent.tradeCount (consistent : engine.Consistent)
    (applied : engine.apply command outTrades = .ok response) :
    response.outTrades.length = outTrades.length + response.report.tradeCount.toNat := by
  obtain ⟨reference, sim, sound⟩ := consistent
  have agrees := sim.agrees sound applied
  rw [agrees.outTrades, agrees.report]
  exact (reference.applyWith_step command (engine.shortfall command) outTrades).tradeCount sound

/-- The reports of a run account for all its trades. -/
theorem Consistent.tradeCounts (consistent : engine.Consistent)
    (run : engine.responses commands = .ok answers) :
    (answers.flatMap Response.outTrades).length =
      ((answers.map Response.report).map (fun report => report.tradeCount.toNat)).sum := by
  induction commands generalizing engine answers with
  | nil =>
      obtain rfl := Except.ok.inj run
      rfl
  | cons command commands ih =>
      obtain ⟨answer, later, rfl, applied, rest⟩ := responses_cons run
      have consistent' := consistent.of_apply applied
      have count := consistent.tradeCount applied
      rw [List.length_nil, Nat.zero_add] at count
      rw [List.flatMap_cons, List.length_append, List.map_cons, List.map_cons, List.sum_cons,
        ih consistent' rest, count]

/-- Every command appends its trades and goes on numbering them. -/
theorem Consistent.apply_numbered (consistent : engine.Consistent)
    (applied : engine.apply command outTrades = .ok response) :
    response.engine.Consistent ∧
      ∃ new, response.outTrades = outTrades ++ new ∧
        new.map Trade.tradeId =
          (List.range new.length).map (fun i => engine.nextTradeId + UInt64.ofNat i) ∧
        response.engine.nextTradeId = engine.nextTradeId + UInt64.ofNat new.length := by
  obtain ⟨reference, sim, sound⟩ := consistent
  have agrees := sim.agrees sound applied
  have step := reference.applyWith_step command (engine.shortfall command) outTrades
  obtain ⟨new, appended, numbered, next⟩ := step.numbered sound
  refine ⟨⟨_, agrees.engine, sound.step step⟩, new, ?_, ?_, ?_⟩
  · rw [agrees.outTrades, appended]
  · obtain ⟨_, sim⟩ := sim
    rw [numbered, sim.nextTradeId]
  · obtain ⟨_, sim⟩ := sim
    obtain ⟨_, sim'⟩ := agrees.engine
    rw [sim'.nextTradeId, next, sim.nextTradeId]

theorem Consistent.apply_tradeCount (consistent : engine.Consistent)
    (applied : engine.apply command [] = .ok response) :
    response.engine.tradeCount =
      engine.tradeCount + UInt64.ofNat response.outTrades.length := by
  obtain ⟨_, new, appended, _, next⟩ := consistent.apply_numbered applied
  rw [List.nil_append] at appended
  rw [MatchingEngine.tradeCount, MatchingEngine.tradeCount, next, appended]
  grind

/-- The trades of a run are numbered one after the other. -/
theorem Consistent.tradeIds (consistent : engine.Consistent)
    (run : engine.responses commands = .ok answers) :
    (answers.flatMap Response.outTrades).map Trade.tradeId =
        (List.range (answers.flatMap Response.outTrades).length).map
          (fun i => engine.nextTradeId + UInt64.ofNat i) ∧
      (engine.lastEngine answers).nextTradeId =
        engine.nextTradeId + UInt64.ofNat (answers.flatMap Response.outTrades).length := by
  induction commands generalizing engine answers with
  | nil =>
      obtain rfl := Except.ok.inj run
      exact ⟨rfl, (UInt64.add_zero _).symm⟩
  | cons command commands ih =>
      obtain ⟨answer, later, rfl, applied, rest⟩ := responses_cons run
      obtain ⟨consistent', new, appended, numbered, next⟩ := consistent.apply_numbered applied
      rw [List.nil_append] at appended
      subst appended
      obtain ⟨laterIds, last⟩ := ih consistent' rest
      rw [List.flatMap_cons]
      refine ⟨Reference.numbered_append numbered next laterIds, ?_⟩
      rw [lastEngine_cons, last, next, List.length_append, UInt64.ofNat_add, UInt64.add_assoc]

end MatchingEngine

end Lob
