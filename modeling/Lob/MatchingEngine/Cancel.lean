import Lob.MatchingEngine.History
import Lob.Reference.Standing

/-!
# Cancels

A cancel finds its order through the id index, and takes it out of the middle of a price
level through the location stored there. The history of the run decides the answer: the
order is found exactly when it was accepted as one that rests, was not canceled since and
has not been filled. What leaves the book is that order and nothing else.
-/

namespace Lob

/-! ### Taking one order out of the book -/

/-- The second book is the first one without the given order. -/
structure OrderBook.RemovesOnly (book book' : OrderBook) (order : Order) : Prop where
  own : ∃ level front node back, book.levelAt order.side order.price = some level ∧
    level.orders = front ++ node :: back ∧ node.order = order ∧
    book'.levelAt order.side order.price =
      if front ++ back = [] then none
      else some ⟨front ++ back, level.totalQuantity - order.quantity.toUInt64⟩
  others : ∀ side price, side = .buy ∨ side = .sell → ¬(side = order.side ∧ price = order.price) →
    book'.levelAt side price = book.levelAt side price
  index : ∀ orderId, book'.locations.find? orderId =
    if orderId = order.id then none else book.locations.find? orderId
  count : book'.orderCount + 1 = book.orderCount

namespace Represents

variable {book book' : OrderBook} {nodes : List OrderNode} {node : OrderNode}

/-- Of the members of a level, only the node itself has its id. -/
theorem filter_onLevel (rep : Represents book nodes) (member : node ∈ nodes) :
    ∃ front back,
      nodes.filter (OrderNode.onLevel node.order.side node.order.price) = front ++ node :: back ∧
      (nodes.filter (fun other => decide (other.order.id ≠ node.order.id))).filter
        (OrderNode.onLevel node.order.side node.order.price) = front ++ back := by
  have onLevel : node.onLevel node.order.side node.order.price = true :=
    OrderNode.onLevel_iff.mpr ⟨rfl, rfl⟩
  obtain ⟨front, back, shape⟩ := List.append_of_mem (List.mem_filter.mpr ⟨member, onLevel⟩)
  refine ⟨front, back, shape, ?_⟩
  have sub : (nodes.filter (OrderNode.onLevel node.order.side node.order.price)).Sublist nodes :=
    List.filter_sublist
  have ids := rep.ids_nodup.sublist (sub.map (fun node : OrderNode => node.order.id))
  rw [shape, List.map_append, List.map_cons, List.nodup_middle, List.nodup_cons,
    ← List.map_append] at ids
  have different : ∀ other ∈ front ++ back, other.order.id ≠ node.order.id := by
    intro other inLevel same
    exact ids.1 (same ▸ List.mem_map_of_mem inLevel)
  rw [List.filter_comm, shape, List.filter_append, List.filter_cons_of_neg (by simp),
    ← List.filter_append, List.filter_eq_self.mpr]
  simpa using different

theorem removesOnly (rep : Represents book nodes) (member : node ∈ nodes)
    (rep' : Represents book'
      (nodes.filter (fun other => decide (other.order.id ≠ node.order.id)))) :
    book.RemovesOnly book' node.order where
  own := by
    have side := rep.sides node member
    obtain ⟨front, back, level, level'⟩ := rep.filter_onLevel member
    refine ⟨.ofNodes (front ++ node :: back), front, node, back, ?_, rfl, rfl, ?_⟩
    · rw [rep.levelAt_eq side, groupLevel_eq_some_iff, level]
      exact ⟨by simp, rfl⟩
    · have total : quantitySum (front ++ node :: back) =
          quantitySum (front ++ back) + node.order.quantity.toNat := by
        simp only [quantitySum_append, quantitySum_cons]
        omega
      rw [rep'.levelAt_eq side, groupLevel, level', PriceLevel.ofNodes, PriceLevel.ofNodes, total,
        ofNat_sub_quantity]
      simp only [List.isEmpty_iff]
  others side price known other := by
    rw [rep.levelAt_eq known, rep'.levelAt_eq known, groupLevel, groupLevel, List.filter_comm]
    have kept : (nodes.filter (OrderNode.onLevel side price)).filter
        (fun other => decide (other.order.id ≠ node.order.id)) =
          nodes.filter (OrderNode.onLevel side price) := by
      apply List.filter_eq_self.mpr
      intro kept keptMember
      obtain ⟨inNodes, onLevel⟩ := List.mem_filter.mp keptMember
      rw [decide_eq_true_eq]
      intro same
      obtain rfl := rep.eq_of_id inNodes member same
      obtain ⟨sameSide, samePrice⟩ := OrderNode.onLevel_iff.mp onLevel
      exact other ⟨sameSide.symm, samePrice.symm⟩
    rw [kept]
  index orderId := by
    apply Option.ext
    intro loc
    rw [rep'.find?_location_iff]
    split
    · rename_i own
      refine iff_of_false ?_ (by simp)
      rintro ⟨kept, inFewer, located⟩
      have different : kept.order.id ≠ node.order.id := by
        simpa using (List.mem_filter.mp inFewer).2
      exact different ((congrArg Prod.fst located).trans own)
    · rename_i other
      rw [rep.find?_location_iff]
      simp only [List.mem_filter, decide_eq_true_eq]
      constructor
      · rintro ⟨kept, ⟨inNodes, _⟩, located⟩
        exact ⟨kept, inNodes, located⟩
      · rintro ⟨kept, inNodes, located⟩
        refine ⟨kept, ⟨inNodes, ?_⟩, located⟩
        rw [show kept.order.id = orderId from congrArg Prod.fst located]
        exact other
  count := by
    have length := (rep.perm_cons_filter member).length_eq
    rw [rep.orderCount_eq, rep'.orderCount_eq, length, List.length_cons]

end Represents

/-! ### The answer of a cancel -/

section Answer

variable {engine : MatchingEngine} {reference : Reference}

/-- A cancel whose order is live takes that order out and reports its open quantity. -/
theorem Simulates.cancel_of_live (sim : Simulates engine reference) (sound : reference.Sound)
    {order : Order} (member : order ∈ reference.live) :
    ∃ engine' report, engine.cancel order.id = .ok (engine', report) ∧
      report.status = .canceled ∧ report.requestedQuantity = order.quantity ∧
      engine.book.RemovesOnly engine'.book order := by
  obtain ⟨nodes, sim⟩ := sim
  have nonzero := (sound.restable order member).id
  rw [← sim.live] at member
  obtain ⟨node, inNodes, rfl⟩ := List.mem_map.mp member
  obtain ⟨book', canceled, rep'⟩ := sim.book.cancelOrder inNodes
  exact ⟨_, _, cancel_of_found nonzero canceled, rfl, rfl, sim.book.removesOnly inNodes rep'⟩

/-- A cancel whose id is not live is refused and leaves the book alone. -/
theorem Simulates.cancel_of_missing (sim : Simulates engine reference) {orderId : UInt64}
    (absent : ¬∃ order ∈ reference.live, order.id = orderId) :
    ∃ engine' report, engine.cancel orderId = .ok (engine', report) ∧
      report.status = .rejected ∧
      report.rejectReason = (if orderId = 0 then .invalidOrderId else .orderNotFound) ∧
      engine'.book = engine.book := by
  obtain ⟨nodes, sim⟩ := sim
  have missing : orderId ≠ 0 → engine.book.cancelOrder orderId = .ok (engine.book, none) := by
    intro _
    apply sim.book.cancelOrder_absent
    intro node member same
    refine absent ⟨node.order, ?_, same⟩
    rw [← sim.live]
    exact List.mem_map_of_mem member
  exact ⟨_, _, cancel_of_absent missing, rfl, rfl, rfl⟩

end Answer

/-- After every run, a cancel succeeds exactly on the outstanding orders. It then reports
what their trades left open and takes nothing else out of the book; otherwise it is
refused and leaves the book alone. -/
theorem cancel_exactly_live (limits : RiskLimits) (commands : List Command) :
    ∃ answers, (MatchingEngine.fresh limits).responses commands = .ok answers ∧
      ∀ orderId, ∃ engine' report,
        ((MatchingEngine.fresh limits).lastEngine answers).cancel orderId = .ok (engine', report) ∧
        (report.status = .canceled ↔ ∃ order, order.id = orderId ∧
          Outstanding (history commands answers) (answers.flatMap Response.outTrades) order) ∧
        (∀ order, order.id = orderId →
          Outstanding (history commands answers) (answers.flatMap Response.outTrades) order →
          report.requestedQuantity.toNat =
            order.quantity.toNat -
              tradedQuantity orderId (answers.flatMap Response.outTrades) ∧
          ∃ resting : Order, resting.StandsFor order ∧
            resting.quantity = report.requestedQuantity ∧
            ((MatchingEngine.fresh limits).lastEngine answers).book.RemovesOnly engine'.book
              resting) ∧
        (report.status ≠ .canceled →
          report.status = .rejected ∧
          report.rejectReason = (if orderId = 0 then .invalidOrderId else .orderNotFound) ∧
          engine'.book = ((MatchingEngine.fresh limits).lastEngine answers).book) := by
  have run := responses_induction (P := Reference.Standing) (Q := fun _ _ => True) limits
    (Reference.standing_fresh limits) commands ?_
  · obtain ⟨answers, reached, _, reference, follows, standing⟩ := run
    refine ⟨answers, reached, ?_⟩
    intro orderId
    have decided := standing.exists_live_iff follows.recorded follows.sound orderId
    by_cases found : ∃ live ∈ reference.live, live.id = orderId
    · obtain ⟨live, member, rfl⟩ := found
      obtain ⟨engine', report, canceled, status, requested, removes⟩ :=
        follows.simulates.cancel_of_live follows.sound member
      obtain ⟨order, outstanding, sameId⟩ := decided.mp ⟨live, member, rfl⟩
      refine ⟨engine', report, canceled, iff_of_true status ⟨order, sameId, outstanding⟩, ?_,
        fun other => absurd status other⟩
      rintro other otherId otherOutstanding
      obtain ⟨stands, left⟩ := standing.eq_of_live follows.recorded follows.sound member
        otherOutstanding otherId.symm
      exact ⟨by rw [requested, left, otherId], live, stands, requested.symm, removes⟩
    · obtain ⟨engine', report, refused, status, reason, same⟩ :=
        follows.simulates.cancel_of_missing found
      have none : ¬∃ order, order.id = orderId ∧
          Outstanding (history commands answers) (answers.flatMap Response.outTrades) order := by
        rintro ⟨order, sameId, outstanding⟩
        exact found (decided.mpr ⟨order, outstanding, sameId⟩)
      refine ⟨engine', report, refused, iff_of_false ?_ none, ?_, fun _ => ⟨status, reason, same⟩⟩
      · rw [status]
        decide
      · exact fun order sameId outstanding => absurd ⟨order, sameId, outstanding⟩ none
  · intro engine reference events trades command shortfall reference' answer _ follows standing _
      step _
    exact ⟨standing.step follows.recorded follows.sound step, trivial⟩

end Lob
