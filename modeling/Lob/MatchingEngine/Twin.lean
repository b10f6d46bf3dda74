import Lob.MatchingEngine.Run
import Lob.MatchingEngine.Simulation
import Lob.OrderBook.Image
import Lob.Reference.Symmetry

/-!
# Two engines on corresponding orders

Two matching engines are twins when the references they simulate are images of each other
under a symmetry. Corresponding commands then get corresponding responses and leave twins
behind. The level maps of the two books have corresponding contents, so the preflight
answers, which the engines compute from wrapping totals, agree as well.
-/

namespace Lob

/-- The engines simulate references of which the second is the image of the first. -/
structure Twins (image : Order → Order) (domain : Order → Prop) (engine engine' : MatchingEngine)
    (reference reference' : Reference) : Prop where
  simulates : Simulates engine reference
  sound : reference.Sound
  simulates' : Simulates engine' reference'
  sound' : reference'.Sound
  related : reference.IsImage image domain reference'

section Twins

variable {image : Order → Order} {imageTrade : Trade → Trade} {domain : Order → Prop}
  {engine engine' : MatchingEngine} {reference reference' : Reference}

theorem twins_start (image : Order → Order) (domain : Order → Prop) (risk : RiskManager) :
    Twins image domain { risk := risk } { risk := risk } { risk := risk } { risk := risk } where
  simulates := simulates_start risk
  sound := Reference.sound_start risk
  simulates' := simulates_start risk
  sound' := Reference.sound_start risk
  related := ⟨rfl, fun _ member => absurd member List.not_mem_nil, rfl, rfl, rfl⟩

/-- Commands to which the two engines respond alike. -/
inductive Twins.Alike (image : Order → Order) (domain : Order → Prop)
    (engine engine' : MatchingEngine) (reference reference' : Reference) :
    Command → Command → Prop
  | newOrder {order order' : Order} (sameId : order'.id = order.id)
      (sameQuantity : order'.quantity = order.quantity)
      (sameReason :
        reference'.rejectReason order' (engine'.shortfall (.newOrder order')) =
          reference.rejectReason order (engine.shortfall (.newOrder order)))
      (accepts : reference.rejectReason order (engine.shortfall (.newOrder order)) = .none →
        Reference.IsImage.Accepts image domain (engine.sequence + 1) (engine'.sequence + 1)
          order order') :
      Alike image domain engine engine' reference reference' (.newOrder order) (.newOrder order')
  | cancel (orderId : UInt64) :
      Alike image domain engine engine' reference reference' (.cancel orderId) (.cancel orderId)

/-- The responses of two engines to corresponding commands. -/
structure Twins.Responses (image : Order → Order) (imageTrade : Trade → Trade)
    (domain : Order → Prop) (engine engine' : MatchingEngine) (response response' : Response) :
    Prop where
  sequence : response.engine.sequence = engine.sequence + 1
  sequence' : response'.engine.sequence = engine'.sequence + 1
  risk : response.engine.risk = engine.risk
  report : response'.report = { response.report with sequence := engine'.sequence + 1 }
  outTrades : response'.outTrades = response.outTrades.map imageTrade
  twins : ∃ reference reference',
    Twins image domain response.engine response'.engine reference reference'

theorem Simulates.sequence (sim : Simulates engine reference) :
    engine.sequence = reference.sequence := by
  obtain ⟨nodes, sim⟩ := sim
  exact sim.sequence

theorem Simulates.risk (sim : Simulates engine reference) : engine.risk = reference.risk := by
  obtain ⟨nodes, sim⟩ := sim
  exact sim.risk

theorem Twins.apply (twins : Twins image domain engine engine' reference reference')
    (symmetry : Reference.Symmetry image imageTrade domain) {command command' : Command}
    (alike : Twins.Alike image domain engine engine' reference reference' command command') :
    ∃ response response', engine.apply command [] = .ok response ∧
      engine'.apply command' [] = .ok response' ∧
      Twins.Responses image imageTrade domain engine engine' response response' := by
  obtain ⟨response, applied, agrees⟩ := twins.simulates.apply twins.sound command []
  obtain ⟨response', applied', agrees'⟩ := twins.simulates'.apply twins.sound' command' []
  have step := reference.applyWith_step command (engine.shortfall command) []
  have step' := reference'.applyWith_step command' (engine'.shortfall command') []
  have image : Reference.Response.IsImage image imageTrade domain (reference'.sequence + 1)
      (reference.applyWith command (engine.shortfall command) [])
      (reference'.applyWith command' (engine'.shortfall command') []) := by
    cases alike with
    | newOrder sameId sameQuantity sameReason accepts =>
        rw [twins.simulates.sequence, twins.simulates'.sequence] at accepts
        exact twins.related.processOrder symmetry sameReason sameId sameQuantity accepts
    | cancel orderId => exact twins.related.cancel symmetry orderId
  refine ⟨response, response', applied, applied', ?_, ?_, ?_, ?_, ?_, _, _, agrees.engine,
    twins.sound.step step, agrees'.engine, twins.sound'.step step', image.engine⟩
  · rw [agrees.engine.sequence, step.sequence, twins.simulates.sequence]
  · rw [agrees'.engine.sequence, step'.sequence, twins.simulates'.sequence]
  · rw [agrees.engine.risk, step.risk, twins.simulates.risk]
  · rw [agrees'.report, image.report, agrees.report, twins.simulates'.sequence]
  · rw [agrees'.outTrades, image.outTrades, agrees.outTrades]

/-- The books of twins represent corresponding lists of nodes. -/
theorem Twins.nodes (twins : Twins image domain engine engine' reference reference') :
    ∃ nodes nodes', Represents engine.book nodes ∧ Represents engine'.book nodes' ∧
      nodes.map OrderNode.order = reference.live ∧
      nodes'.map OrderNode.order = (nodes.map OrderNode.order).map image := by
  obtain ⟨nodes, sim⟩ := twins.simulates
  obtain ⟨nodes', sim'⟩ := twins.simulates'
  exact ⟨nodes, nodes', sim.book, sim'.book, sim.live,
    by rw [sim'.live, sim.live, twins.related.live]⟩

end Twins

end Lob
