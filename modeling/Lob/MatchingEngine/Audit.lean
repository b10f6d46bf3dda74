import Lob.MatchingEngine.History
import Lob.Reference.Audit

/-!
# The audit trail of a run

All trades of a run of fewer than `2^32` commands on a fresh engine, in the order in
which they were generated, explained by the commands of the run and their reports.
-/

namespace Lob

/-- The trades of one command move away from the best price; a cancel trades nothing. -/
def Response.TradesInOrder (response : Response) (command : Command) : Prop :=
  match command with
  | .newOrder order =>
      response.outTrades.Pairwise (fun a b => order.prefers a.price b.price) ∧
        ∀ trade ∈ response.outTrades, trade.sequence = response.report.sequence
  | .cancel _ => response.outTrades = []

theorem Reference.Step.tradesInOrder {reference : Reference} (sound : reference.Sound)
    {trades : List Trade} {command : Command} {shortfall : Bool} {response : Reference.Response}
    (step : reference.Step trades command shortfall response) {answer : Lob.Response}
    (report : answer.report = response.report)
    (appended : response.outTrades = trades ++ answer.outTrades) :
    answer.TradesInOrder command := by
  cases step with
  | rejected _ _ =>
      have nothing : answer.outTrades = [] := List.self_eq_append_right.mp appended
      rw [Response.TradesInOrder, nothing]
      exact ⟨.nil, fun _ member => absurd member List.not_mem_nil⟩
  | missing _ => exact List.self_eq_append_right.mp appended
  | canceled _ => exact List.self_eq_append_right.mp appended
  | @accepted order _ _ =>
      obtain ⟨new, loop⟩ := sound.exists_loopTrades order trades
      have same : new = answer.outTrades :=
        List.append_cancel_left (loop.outTrades.symm.trans appended)
      rw [Response.TradesInOrder, ← same]
      refine ⟨loop.sorted, fun trade member => ?_⟩
      obtain ⟨resting, _, between⟩ := loop.between trade member
      rw [between.terms, report]
      rfl

/-- The number of a trade is its place in the list. -/
theorem Reference.Audited.tradeId_toNat {reference : Reference} {events : List Event}
    {trades : List Trade} (audited : reference.Audited events trades)
    (short : events.length < 2 ^ 32) {i : Nat} {trade : Trade} (atI : trades[i]? = some trade) :
    trade.tradeId.toNat = i + 1 := by
  obtain ⟨inside, _⟩ := List.getElem?_eq_some_iff.mp atI
  have count := audited.count
  have bound : i + 1 < 2 ^ 64 := by omega
  have numbered := congrArg (fun ids => ids[i]?) audited.numbered
  simp only [List.getElem?_map, atI, List.getElem?_range inside, Option.map_some,
    Option.some.injEq] at numbered
  rw [numbered, UInt64.add_comm, ← UInt64.ofNat_one, ← UInt64.ofNat_add]
  exact UInt64.toNat_ofNat_of_lt' bound

/-- The trades of a run are numbered from one without a gap, every one of them settles
two orders that the run accepted, no two orders trade twice, no id is accepted twice, and
the trades of one command only get worse. -/
theorem trades_audited (limits : RiskLimits) (commands : List Command)
    (short : commands.length < 2 ^ 32) :
    ∃ answers, (MatchingEngine.fresh limits).responses commands = .ok answers ∧
      (∀ i trade, (answers.flatMap Response.outTrades)[i]? = some trade →
        trade.tradeId.toNat = i + 1) ∧
      (∀ trade ∈ answers.flatMap Response.outTrades,
        trade.Explained (history commands answers)) ∧
      ((answers.flatMap Response.outTrades).map Trade.pair).Nodup ∧
      (acceptedIds (history commands answers)).Nodup ∧
      List.Forall₂ (fun command answer => answer.TradesInOrder command) commands answers := by
  have invariant := responses_induction
    (P := Reference.Audited) (Q := fun command answer => answer.TradesInOrder command) limits
    (Reference.audited_fresh limits) commands ?_
  · obtain ⟨answers, run, inOrder, reference, follows, audited⟩ := invariant
    have length := length_history inOrder.length_eq.symm
    exact ⟨answers, run, fun i trade atI => audited.tradeId_toNat (by rwa [length]) atI,
      audited.explained, audited.pairs, follows.recorded.unique, inOrder⟩
  · intro engine reference events trades command shortfall reference' answer shorter follows
      audited exactly step follows'
    have few := (follows.short (by omega)).live_length_lt (by omega)
    exact ⟨audited.step follows.sound follows.recorded few.le step,
      step.tradesInOrder follows.sound rfl rfl⟩

/-- A market order that trades with two resting orders, the cheaper one first. -/
theorem trades_audited_sweep :
    let commands : List Command :=
      [.newOrder { id := 1, side := .sell, price := 101, quantity := 5 },
        .newOrder { id := 2, side := .sell, price := 100, quantity := 5 },
        .newOrder { id := 3, side := .buy, type := .market, timeInForce := .ioc, quantity := 8 }]
    ∃ answers, (MatchingEngine.fresh {}).responses commands = .ok answers ∧
      ∀ trade ∈ answers.flatMap Response.outTrades,
        trade.Explained (history commands answers) := by
  obtain ⟨answers, run, _, explained, _⟩ := trades_audited {}
    [.newOrder { id := 1, side := .sell, price := 101, quantity := 5 },
      .newOrder { id := 2, side := .sell, price := 100, quantity := 5 },
      .newOrder { id := 3, side := .buy, type := .market, timeInForce := .ioc, quantity := 8 }]
    (by decide)
  exact ⟨answers, run, explained⟩

end Lob
