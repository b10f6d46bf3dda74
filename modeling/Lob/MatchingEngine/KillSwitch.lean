import Lob.MatchingEngine.Checked

/-!
# The kill switch

The owner of an engine may move the kill switch and change the limits between commands. Neither
touches the book, so every state that commands and such changes lead to is one in which no
assertion fails and the consistency check passes. While the switch is on nothing is traded and
no order enters the book, but every order in it can still be canceled.
-/

namespace Lob

/-- `RiskManager::setKillSwitch`. -/
def RiskManager.setKillSwitch (risk : RiskManager) (enabled : Bool) : RiskManager :=
  { risk with killSwitch := enabled }

/-- `RiskManager::setLimits`. -/
def RiskManager.setLimits (risk : RiskManager) (limits : RiskLimits) : RiskManager :=
  { risk with limits }

/-- What the owner of an engine does with it. -/
inductive AdminAction where
  | command (command : Command)
  | setKillSwitch (enabled : Bool)
  | setLimits (limits : RiskLimits)

/-- Why an order is rejected while the switch is on; the checks before it still come first. -/
def killSwitchReason (seenOrderIds : Finset UInt64) (order : Order) : RejectReason :=
  if validateStatic order ≠ .none then validateStatic order
  else if order.id ∈ seenOrderIds then .duplicateOrderId
  else .riskKillSwitch

/-- While the switch is on, a command trades nothing, and an order is rejected. -/
def Stopped (seenOrderIds : Finset UInt64) (command : Command) (trades : List Trade)
    (report : ExecutionReport) : Prop :=
  trades = [] ∧ ∀ order, command = .newOrder order →
    report.status = .rejected ∧ report.rejectReason = killSwitchReason seenOrderIds order

/-- The second book is the first one without the orders whose ids are gone: the others stand in
their levels as before, one behind the other, and the cached totals are the sums of what is
left. -/
structure OrderBook.KeepsExcept (book book' : OrderBook) (gone : UInt64 → Prop)
    [DecidablePred gone] : Prop where
  levels : ∀ side price, side = .buy ∨ side = .sell →
    book'.levelAt side price = (book.levelAt side price).bind (fun level =>
      let left := level.orders.filter (fun node => decide (¬gone node.order.id))
      if left = [] then none else some (.ofNodes left))
  index : ∀ orderId, book'.locations.find? orderId =
    if gone orderId then none else book.locations.find? orderId

theorem Represents.keepsExcept {book book' : OrderBook} {nodes : List OrderNode}
    (rep : Represents book nodes) {gone : UInt64 → Prop} [DecidablePred gone]
    (rep' : Represents book' (nodes.filter (fun node => decide (¬gone node.order.id)))) :
    book.KeepsExcept book' gone where
  levels side price known := by
    rw [rep.levelAt_eq known, rep'.levelAt_eq known, groupLevel, groupLevel, List.filter_comm]
    generalize nodes.filter (OrderNode.onLevel side price) = here
    by_cases empty : here = []
    · simp [empty]
    · simp only [List.isEmpty_iff, if_neg empty, Option.bind_some, PriceLevel.ofNodes]
  index orderId := by
    apply Option.ext
    intro loc
    rw [rep'.find?_location_iff]
    simp only [List.mem_filter, decide_eq_true_eq]
    split
    · rename_i isGone
      refine iff_of_false ?_ (by simp)
      rintro ⟨node, ⟨_, kept⟩, located⟩
      have sameId : node.order.id = orderId := congrArg Prod.fst located
      exact kept (sameId ▸ isGone)
    · rename_i kept
      rw [rep.find?_location_iff]
      constructor
      · rintro ⟨node, ⟨member, _⟩, located⟩
        exact ⟨node, member, located⟩
      · rintro ⟨node, member, located⟩
        have sameId : node.order.id = orderId := congrArg Prod.fst located
        exact ⟨node, ⟨member, sameId ▸ kept⟩, located⟩

namespace MatchingEngine

variable {events : Nat}

/-- One action; the other ones go through `riskManager()`. -/
def administer (engine : MatchingEngine) : AdminAction → Except Fault MatchingEngine
  | .command command => do
      let response ← engine.apply command []
      return response.engine
  | .setKillSwitch enabled => .ok { engine with risk := engine.risk.setKillSwitch enabled }
  | .setLimits limits => .ok { engine with risk := engine.risk.setLimits limits }

def administerAll (engine : MatchingEngine) : List AdminAction → Except Fault MatchingEngine
  | [] => .ok engine
  | action :: actions => do
      let engine ← engine.administer action
      administerAll engine actions

variable {engine : MatchingEngine} {reference : Reference}

/-! ### Changing the risk settings -/

theorem simulates_setRisk (sim : Simulates engine reference) (risk : RiskManager) :
    Simulates { engine with risk } { reference with risk } := by
  obtain ⟨nodes, sim⟩ := sim
  exact ⟨nodes, sim.book, sim.live, rfl, sim.seen, sim.sequence, sim.nextTradeId⟩

theorem Counted.setRisk (counted : engine.Counted events) (risk : RiskManager) :
    Counted { engine with risk } events := by
  obtain ⟨reference, ⟨sim, sound, stamped⟩, count⟩ := counted
  exact ⟨{ reference with risk }, ⟨simulates_setRisk sim risk, { sound with }, { stamped with }⟩,
    count⟩

theorem Consistent.setRisk (consistent : engine.Consistent) (risk : RiskManager) :
    Consistent { engine with risk } := by
  obtain ⟨reference, sim, sound⟩ := consistent
  exact ⟨{ reference with risk }, simulates_setRisk sim risk, { sound with }⟩

theorem Counted.administer (counted : engine.Counted events) (room : events + 1 < 2 ^ 64)
    (action : AdminAction) :
    ∃ next count, engine.administer action = .ok next ∧ count ≤ events + 1 ∧
      next.Counted count := by
  cases action with
  | command command =>
      obtain ⟨response, applied, counted⟩ := counted.apply room command []
      refine ⟨response.engine, events + 1, ?_, le_rfl, counted⟩
      rw [MatchingEngine.administer, applied]
      rfl
  | setKillSwitch enabled => exact ⟨_, events, rfl, Nat.le_succ _, counted.setRisk _⟩
  | setLimits limits => exact ⟨_, events, rfl, Nat.le_succ _, counted.setRisk _⟩

theorem Counted.administerAll (counted : engine.Counted events) {actions : List AdminAction}
    (room : events + actions.length < 2 ^ 64) :
    ∃ final, engine.administerAll actions = .ok final ∧ final.book.checkInvariants = true := by
  induction actions generalizing engine events with
  | nil => exact ⟨engine, rfl, counted.checkInvariants⟩
  | cons action actions ih =>
      rw [List.length_cons] at room
      obtain ⟨next, count, done, le, counted⟩ := counted.administer (by omega) action
      obtain ⟨final, rest, checked⟩ := ih counted (by omega)
      refine ⟨final, ?_, checked⟩
      rw [MatchingEngine.administerAll, done]
      exact rest

theorem Consistent.administer (consistent : engine.Consistent) (action : AdminAction) :
    ∃ next, engine.administer action = .ok next ∧ next.Consistent := by
  cases action with
  | command command =>
      obtain ⟨response, applied, consistent⟩ := consistent.apply command []
      refine ⟨response.engine, ?_, consistent⟩
      rw [MatchingEngine.administer, applied]
      rfl
  | setKillSwitch enabled => exact ⟨_, rfl, consistent.setRisk _⟩
  | setLimits limits => exact ⟨_, rfl, consistent.setRisk _⟩

/-- The state before the last of some actions. -/
theorem Consistent.administer_concat (consistent : engine.Consistent)
    (actions : List AdminAction) (last : AdminAction) :
    ∃ before : MatchingEngine, before.Consistent ∧
      engine.administerAll (actions ++ [last]) = before.administer last := by
  induction actions generalizing engine with
  | nil =>
      refine ⟨engine, consistent, ?_⟩
      obtain ⟨next, done, _⟩ := consistent.administer last
      rw [List.nil_append, MatchingEngine.administerAll, done]
      rfl
  | cons action actions ih =>
      obtain ⟨next, done, consistent⟩ := consistent.administer action
      obtain ⟨before, consistent, rest⟩ := ih consistent
      refine ⟨before, consistent, ?_⟩
      rw [List.cons_append, MatchingEngine.administerAll, done]
      exact rest

/-! ### Commands while the switch is on -/

theorem killSwitchReason_ne_none (seenOrderIds : Finset UInt64) (order : Order) :
    killSwitchReason seenOrderIds order ≠ .none := by
  rw [killSwitchReason]
  split
  · assumption
  · split <;> exact RejectReason.noConfusion

theorem rejectReason_of_killSwitch (on : engine.risk.killSwitch = true) (order : Order) :
    engine.rejectReason order = killSwitchReason engine.seenOrderIds order := by
  have validated (active : Nat) (mayAdd : Bool) :
      engine.risk.validate order active mayAdd = .riskKillSwitch := by
    rw [RiskManager.validate, if_pos on]
  simp only [rejectReason, killSwitchReason, validated]
  simp

theorem apply_of_cancel {orderId : UInt64} {engine' : MatchingEngine} {report : ExecutionReport}
    (canceled : engine.cancel orderId = .ok (engine', report)) :
    engine.apply (.cancel orderId) [] =
      .ok { engine := engine', report := report, outTrades := [] } := by
  simp only [apply, canceled, bind, Except.bind, pure, Except.pure]

variable {nodes : List OrderNode}

/-- What one command does: of the nodes of the book, only the one that it cancels goes. -/
theorem apply_of_killSwitch (rep : Represents engine.book nodes)
    (nonzero : ∀ node ∈ nodes, node.order.id ≠ 0) (on : engine.risk.killSwitch = true)
    (command : Command) :
    ∃ response, engine.apply command [] = .ok response ∧
      response.engine.risk = engine.risk ∧
      response.engine.seenOrderIds = engine.seenOrderIds ∧
      Stopped engine.seenOrderIds command response.outTrades response.report ∧
      Represents response.engine.book
        (nodes.filter (fun node => decide (command ≠ .cancel node.order.id))) := by
  cases command with
  | newOrder order =>
      have failed := killSwitchReason_ne_none engine.seenOrderIds order
      refine ⟨_, processOrder_of_rejected (rejectReason_of_killSwitch on order) failed [], rfl, rfl,
        ⟨rfl, fun other same => ?_⟩, ?_⟩
      · obtain rfl := Command.newOrder.inj same
        exact ⟨rfl, rfl⟩
      · simpa using rep
  | cancel orderId =>
      have stopped (report : ExecutionReport) :
          Stopped engine.seenOrderIds (.cancel orderId) [] report :=
        ⟨rfl, fun _ impossible => Command.noConfusion impossible⟩
      by_cases found : ∃ node ∈ nodes, node.order.id = orderId
      · obtain ⟨node, member, rfl⟩ := found
        obtain ⟨book', canceled, rep'⟩ := rep.cancelOrder member
        refine ⟨_, apply_of_cancel (cancel_of_found (nonzero node member) canceled), rfl, rfl,
          stopped _, ?_⟩
        simpa [eq_comm] using rep'
      · have absent : ∀ node ∈ nodes, node.order.id ≠ orderId :=
          fun node member same => found ⟨node, member, same⟩
        refine ⟨_, apply_of_cancel (cancel_of_absent fun _ => rep.cancelOrder_absent absent),
          rfl, rfl, stopped _, ?_⟩
        have all : nodes.filter (fun node =>
            decide (Command.cancel orderId ≠ .cancel node.order.id)) = nodes := by
          refine List.filter_eq_self.mpr fun node member => decide_eq_true fun same => ?_
          exact absent node member (Command.cancel.inj same).symm
        rw [all]
        exact rep

theorem responses_of_killSwitch (rep : Represents engine.book nodes)
    (nonzero : ∀ node ∈ nodes, node.order.id ≠ 0) (on : engine.risk.killSwitch = true)
    (commands : List Command) :
    ∃ answers, engine.responses commands = .ok answers ∧
      List.Forall₂ (fun command answer =>
        Stopped engine.seenOrderIds command answer.outTrades answer.report) commands answers ∧
      Represents (engine.lastEngine answers).book
        (nodes.filter (fun node => decide (Command.cancel node.order.id ∉ commands))) := by
  induction commands generalizing engine nodes with
  | nil => exact ⟨[], rfl, .nil, by simpa using rep⟩
  | cons command commands ih =>
      obtain ⟨answer, applied, risk, seen, stopped, rep'⟩ :=
        apply_of_killSwitch rep nonzero on command
      obtain ⟨later, rest, all, rep''⟩ := ih rep'
        (fun node member => nonzero node (List.mem_of_mem_filter member)) (by rw [risk, on])
      rw [seen] at all
      refine ⟨answer :: later, ?_, .cons stopped all, ?_⟩
      · simp only [responses, applied, rest, bind, Except.bind, pure, Except.pure]
      · rw [lastEngine_cons]
        rw [List.filter_filter] at rep''
        simpa [Bool.and_comm, eq_comm] using rep''

/-! ### Whole runs -/

/-- However the owner moves the switch and the limits between the commands, no assertion fails
and the book passes its check. -/
theorem administered_book_checks (limits : RiskLimits) (actions : List AdminAction)
    (few : actions.length < 2 ^ 64) :
    ∃ engine, (fresh limits).administerAll actions = .ok engine ∧
      engine.book.checkInvariants = true :=
  (counted_fresh limits).administerAll (by rwa [Nat.zero_add])

theorem administered_book_checks_switched_on :
    ∃ engine, (fresh {}).administerAll
        [.command (.newOrder { id := 1, side := .sell, price := 100, quantity := 10 }),
          .setKillSwitch true, .setLimits { maxOrderQuantity := 5 }] = .ok engine ∧
      engine.book.checkInvariants = true :=
  administered_book_checks {} _ (by decide)

/-- Once the switch is on, commands trade nothing, every order is rejected, and what the book
held before stays as it was, except for the orders that were canceled. -/
theorem kill_switch_leaves_cancels (limits : RiskLimits) (actions : List AdminAction) :
    ∃ engine, (fresh limits).administerAll (actions ++ [.setKillSwitch true]) = .ok engine ∧
      ∀ commands, ∃ answers, engine.responses commands = .ok answers ∧
        List.Forall₂ (fun command answer =>
          Stopped engine.seenOrderIds command answer.outTrades answer.report) commands answers ∧
        engine.book.KeepsExcept (engine.lastEngine answers).book
          (fun orderId => Command.cancel orderId ∈ commands) := by
  obtain ⟨before, ⟨reference, ⟨nodes, sim⟩, sound⟩, reached⟩ :=
    (consistent_fresh limits).administer_concat actions (.setKillSwitch true)
  have nonzero : ∀ node ∈ nodes, node.order.id ≠ 0 := fun node member =>
    (sound.restable node.order (sim.live ▸ List.mem_map_of_mem member)).id
  let engine : MatchingEngine := { before with risk := before.risk.setKillSwitch true }
  have rep : Represents engine.book nodes := sim.book
  refine ⟨engine, reached, fun commands => ?_⟩
  obtain ⟨answers, run, stopped, rep'⟩ := responses_of_killSwitch rep nonzero rfl commands
  exact ⟨answers, run, stopped, rep.keepsExcept rep'⟩

end MatchingEngine

end Lob
