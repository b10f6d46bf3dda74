import Lob.MatchingEngine.History
import Lob.Reference.Envelope

/-!
# Runs within the risk limits

Whatever a run of fewer than `2^32` commands does to a fresh engine, after every command
the book and the trades of the command are within the limits that the engine was
constructed with.
-/

namespace Lob

/-- A command and its response are within the limits. -/
structure RiskLimits.Encloses (limits : RiskLimits) (command : Command) (response : Response) :
    Prop where
  active : response.engine.book.orderCount ≤ limits.maxActiveOrders.toNat
  resting : ∀ node ∈ response.engine.book.nodes, limits.Allows node.order.price node.order.quantity
  trades : ∀ trade ∈ response.outTrades, limits.Allows trade.price trade.quantity
  buyLimit : ∀ order, command = .newOrder order → response.report.accepted = true →
    order.side = .buy → order.type = .limit →
      (response.outTrades.map (fun trade => notional trade.price trade.quantity)).sum ≤
        limits.maxOrderNotional.toNat
  blamed : ∀ order, command = .newOrder order →
    response.report.rejectReason = .riskMaxNotional →
      (limits.maxOrderNotional.toNat : Int) < notional order.price order.quantity

/-- The risk envelope over whole runs. -/
theorem risk_envelope (limits : RiskLimits) (commands : List Command)
    (short : commands.length < 2 ^ 32) :
    ∃ answers, (MatchingEngine.fresh limits).responses commands = .ok answers ∧
      List.Forall₂ limits.Encloses commands answers := by
  have invariant := responses_induction
    (P := fun reference _ _ => reference.Enveloped limits) (Q := limits.Encloses) limits
    (Reference.enveloped_fresh limits) commands ?_
  · obtain ⟨answers, run, enclosed, _⟩ := invariant
    exact ⟨answers, run, enclosed⟩
  · intro engine reference events trades command shortfall reference' answer shorter follows
      enveloped exactly step follows'
    obtain rfl := exactly (by omega)
    have next := enveloped.step follows.sound step
    obtain ⟨nodes, sim⟩ := follows'.simulates
    refine ⟨next, ?_, ?_, enveloped.trades follows.sound step rfl, ?_, ?_⟩
    · rw [sim.length_eq]
      exact next.active
    · intro node member
      apply next.live
      dsimp only
      rw [← sim.live]
      exact List.mem_map_of_mem (sim.book.mem_nodes_iff.mp member)
    · rintro order rfl accepted buy limit
      exact enveloped.buyLimit follows.sound step rfl accepted buy limit
    · rintro order rfl blamed
      exact enveloped.blamed step blamed

/-- Room for one active order, a fill at the cap and an order whose product exceeds it. -/
theorem risk_envelope_tight :
    let limits : RiskLimits :=
      { maxOrderQuantity := 10, minLimitPrice := 90, maxLimitPrice := 110,
        maxOrderNotional := 1000, maxActiveOrders := 1 }
    let commands : List Command :=
      [.newOrder { id := 1, side := .sell, price := 100, quantity := 10 },
        .newOrder { id := 2, side := .buy, price := 101, quantity := 10 },
        .newOrder { id := 3, side := .buy, price := 100, quantity := 10 }]
    ∃ answers, (MatchingEngine.fresh limits).responses commands = .ok answers ∧
      List.Forall₂ limits.Encloses commands answers :=
  risk_envelope _ _ (by decide)

end Lob
