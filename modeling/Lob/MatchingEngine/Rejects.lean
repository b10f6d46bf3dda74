import Lob.MatchingEngine.Counters
import Lob.MatchingEngine.Twin

/-!
# Rejected commands are invisible

A rejected command advances the event sequence and the reject counter and does nothing
else. Running only the commands that were not rejected therefore gives the same reports
and trades and the same final state, except that sequences are renumbered: the new
sequence of an event is the number of commands up to it that were not rejected.

The two runs are compared step by step. The engine of the shorter run stutters at a
rejected command; at any other one the two engines are twins under the renumbering.
-/

namespace Lob

/-! ### The renumbering as a symmetry -/

def Order.renumber (number : UInt64 → UInt64) (order : Order) : Order :=
  { order with sequence := number order.sequence }

def Trade.renumber (number : UInt64 → UInt64) (trade : Trade) : Trade :=
  { trade with sequence := number trade.sequence }

def ExecutionReport.renumber (number : UInt64 → UInt64) (report : ExecutionReport) :
    ExecutionReport :=
  { report with sequence := number report.sequence }

variable {number : UInt64 → UInt64}

/-- Matching never looks at a sequence. -/
theorem symmetry_renumber (number : UInt64 → UInt64) :
    Reference.Symmetry (Order.renumber number) (Trade.renumber number) (fun _ => True) where
  id _ := rfl
  quantity _ := rfl
  refill _ _ := rfl
  closed _ _ _ := trivial
  accepts _ _ _ _ _ := rfl
  rank _ _ _ _ _ _ _ _ := Iff.rfl
  trade _ _ _ _ _ _ _ := rfl

theorem corresponds_renumber (lt : Int64 → Int64 → Prop) (side : Side) (live : List Order) :
    Corresponds lt lt side side (Order.renumber number) id live where
  quantity _ := rfl
  sides _ _ := Iff.rfl
  prices _ _ _ := rfl
  increasing _ _ _ _ _ _ less := less

section Renumber

variable {engine engine' : MatchingEngine} {reference reference' : Reference}

/-- The levels of the two books are the same up to the sequences of the orders. -/
theorem Twins.levels_renumber
    (twins : Twins (Order.renumber number) (fun _ => True) engine engine' reference reference') :
    engine'.book.buyLevels.contents =
        engine.book.buyLevels.contents.map
          (fun level => (level.1, level.2.1.map (Order.renumber number), level.2.2)) ∧
      engine'.book.sellLevels.contents =
        engine.book.sellLevels.contents.map
          (fun level => (level.1, level.2.1.map (Order.renumber number), level.2.2)) := by
  obtain ⟨nodes, nodes', book, book', _, images⟩ := twins.nodes
  exact ⟨book.buy.contents_image book'.buy images (corresponds_renumber _ _ _),
    book.sell.contents_image book'.sell images (corresponds_renumber _ _ _)⟩

theorem Twins.shortfall_renumber
    (twins : Twins (Order.renumber number) (fun _ => True) engine engine' reference reference')
    (command : Command) : engine'.shortfall command = engine.shortfall command := by
  obtain ⟨buy, sell⟩ := twins.levels_renumber
  cases command with
  | newOrder order =>
      have fromSell (test : Int64 → Bool) (cap : UInt64) :
          LevelMap.executableLoop test cap 0 engine'.book.sellLevels.entries =
            LevelMap.executableLoop test cap 0 engine.book.sellLevels.entries :=
        LevelMap.executableLoop_contents id cap 0 sell (fun _ _ => rfl)
      have fromBuy (test : Int64 → Bool) (cap : UInt64) :
          LevelMap.executableLoop test cap 0 engine'.book.buyLevels.entries =
            LevelMap.executableLoop test cap 0 engine.book.buyLevels.entries :=
        LevelMap.executableLoop_contents id cap 0 buy (fun _ _ => rfl)
      have same (cap : UInt64) : engine'.book.executableQuantity order cap =
          engine.book.executableQuantity order cap := by
        rw [OrderBook.executableQuantity, OrderBook.executableQuantity, fromSell, fromBuy]
      rw [MatchingEngine.shortfall, MatchingEngine.shortfall, same]
  | cancel orderId => rfl

theorem Twins.alike_renumber
    (twins : Twins (Order.renumber number) (fun _ => True) engine engine' reference reference')
    (stamp : number (engine.sequence + 1) = engine'.sequence + 1) (command : Command) :
    Twins.Alike (Order.renumber number) (fun _ => True) engine engine' reference reference'
      command command := by
  cases command with
  | newOrder order =>
      refine .newOrder rfl rfl ?_ (fun _ => ⟨trivial, ?_, rfl⟩)
      · have crossing : (reference.live.map (Order.renumber number)).any order.accepts =
            reference.live.any order.accepts :=
          (symmetry_renumber number).any_accepts trivial twins.related.lives
        rw [twins.shortfall_renumber, Reference.rejectReason, Reference.rejectReason,
          twins.related.live, twins.related.risk, twins.related.seen, crossing, List.length_map]
      · simp only [Order.renumber, stamp]
  | cancel orderId => exact .cancel orderId

end Renumber

/-! ### The two runs -/

/-- The commands whose answer is not a reject. -/
def kept (commands : List Command) (answers : List Response) : List Command :=
  ((commands.zip answers).filter (fun entry => entry.2.report.accepted)).map Prod.fst

/-- The new sequence of an event: the number of answers up to it that are not rejects. -/
def acceptedUpTo (answers : List Response) (sequence : UInt64) : UInt64 :=
  UInt64.ofNat ((answers.take sequence.toNat).countP (fun answer => answer.report.accepted))

/-- The numbering goes on from `sequence` by counting the answers that are not rejects. -/
def Numbers (number : UInt64 → UInt64) : UInt64 → List Response → Prop
  | _, [] => True
  | sequence, answer :: answers =>
      number (sequence + 1) =
          (if answer.report.accepted then number sequence + 1 else number sequence) ∧
        Numbers number (sequence + 1) answers

/-- The second response is the first one, renumbered. -/
structure Response.Renumbers (number : UInt64 → UInt64) (response response' : Response) : Prop where
  report : response'.report = response.report.renumber number
  outTrades : response'.outTrades = response.outTrades.map (Trade.renumber number)

/-- The engines of the two runs, after corresponding commands. -/
structure Renumbered (number : UInt64 → UInt64) (engine engine' : MatchingEngine) : Prop where
  twins : ∃ reference reference',
    Twins (Order.renumber number) (fun _ => True) engine engine' reference reference'
  sequence : engine'.sequence = number engine.sequence
  acceptedOrders : engine'.acceptedOrders = engine.acceptedOrders
  canceledOrders : engine'.canceledOrders = engine.canceledOrders

namespace Renumbered

variable {engine engine' : MatchingEngine} {command : Command} {response : Response}

/-- At a rejected command the second run stands still. -/
theorem rejected (related : Renumbered number engine engine')
    (applied : engine.apply command [] = .ok response)
    (refused : response.report.accepted = false)
    (same : number (engine.sequence + 1) = number engine.sequence) :
    Renumbered number response.engine engine' := by
  obtain ⟨⟨reference, reference', twins⟩, sequence, acceptedOrders, canceledOrders⟩ := related
  obtain ⟨moved, _⟩ := (MatchingEngine.apply_counts applied).rejected refused
  obtain ⟨nodes, sim⟩ := twins.simulates
  rw [moved]
  refine ⟨⟨{ reference with sequence := reference.sequence + 1 }, reference', ?_⟩,
    sequence.trans same.symm, acceptedOrders, canceledOrders⟩
  exact {
    simulates := ⟨nodes, sim.book, sim.live, sim.risk, sim.seen,
      congrArg (· + 1) sim.sequence, sim.nextTradeId⟩
    sound := ⟨twins.sound.restable, twins.sound.ids, twins.sound.seen, twins.sound.uncrossed⟩
    simulates' := twins.simulates'
    sound' := twins.sound'
    related := ⟨twins.related.live, twins.related.lives, twins.related.risk,
      twins.related.seen, twins.related.nextTradeId⟩ }

/-- Any other command gets the same answer in both runs. -/
theorem accepted (related : Renumbered number engine engine')
    (applied : engine.apply command [] = .ok response)
    (taken : response.report.accepted = true)
    (next : number (engine.sequence + 1) = number engine.sequence + 1) :
    ∃ response', engine'.apply command [] = .ok response' ∧
      response.Renumbers number response' ∧
      Renumbered number response.engine response'.engine := by
  obtain ⟨⟨reference, reference', twins⟩, sequence, acceptedOrders, canceledOrders⟩ := related
  rw [← sequence] at next
  obtain ⟨first, response', applied', applied'', alike⟩ :=
    twins.apply (symmetry_renumber number) (twins.alike_renumber next command)
  obtain rfl := Except.ok.inj (applied.symm.trans applied')
  have counts := MatchingEngine.apply_counts applied
  have counts' := MatchingEngine.apply_counts applied''
  have report : response'.report = response.report.renumber number := by
    rw [alike.report, ExecutionReport.renumber, counts.report, next]
  have taken' : response'.report.accepted = true := by
    rw [report]
    exact taken
  obtain ⟨orders, cancels⟩ := counts.accepted taken
  obtain ⟨orders', cancels'⟩ := counts'.accepted taken'
  refine ⟨response', applied'', ⟨report, alike.outTrades⟩, alike.twins, ?_, ?_, ?_⟩
  · rw [alike.sequence', alike.sequence, next]
  · rw [orders, orders', acceptedOrders]
  · rw [cancels, cancels', canceledOrders]

theorem run (related : Renumbered number engine engine') {commands : List Command}
    {answers : List Response} (taken : engine.responses commands = .ok answers)
    (numbers : Numbers number engine.sequence answers) :
    ∃ answers', engine'.responses (kept commands answers) = .ok answers' ∧
      List.Forall₂ (Response.Renumbers number)
        (answers.filter (fun answer => answer.report.accepted)) answers' ∧
      Renumbered number (engine.lastEngine answers) (engine'.lastEngine answers') := by
  induction commands generalizing engine engine' answers with
  | nil =>
      obtain rfl := Except.ok.inj taken
      exact ⟨[], rfl, .nil, related⟩
  | cons command commands ih =>
      obtain ⟨answer, later, rfl, applied, rest⟩ := MatchingEngine.responses_cons taken
      obtain ⟨here, numbers⟩ := numbers
      rw [← (MatchingEngine.apply_counts applied).sequence] at numbers
      rw [MatchingEngine.lastEngine_cons]
      cases status : answer.report.accepted with
      | false =>
          rw [status] at here
          have skip : kept (command :: commands) (answer :: later) = kept commands later := by
            simp [kept, status]
          rw [skip, List.filter_cons_of_neg (by simp [status])]
          exact ih (related.rejected applied status here) rest numbers
      | true =>
          rw [status] at here
          obtain ⟨answer', applied', renumbers, related'⟩ := related.accepted applied status here
          obtain ⟨answers', run', alike, final⟩ := ih related' rest numbers
          have keep : kept (command :: commands) (answer :: later) =
              command :: kept commands later := by
            simp [kept, status]
          refine ⟨answer' :: answers', ?_, ?_, ?_⟩
          · simp only [keep, MatchingEngine.responses, applied', run', bind, Except.bind, pure,
              Except.pure]
          · rw [List.filter_cons_of_pos (by simp [status])]
            exact .cons renumbers alike
          · rw [MatchingEngine.lastEngine_cons]
            exact final

end Renumbered

/-! ### Runs of a fresh engine -/

theorem acceptedUpTo_zero (answers : List Response) : acceptedUpTo answers 0 = 0 := rfl

theorem acceptedUpTo_mono {answers : List Response} (short : answers.length < 2 ^ 64)
    {a b : UInt64} (le : a ≤ b) : acceptedUpTo answers a ≤ acceptedUpTo answers b := by
  have count (sequence : UInt64) : (acceptedUpTo answers sequence).toNat =
      (answers.take sequence.toNat).countP (fun answer => answer.report.accepted) := by
    refine UInt64.toNat_ofNat_of_lt' (lt_of_le_of_lt ?_ short)
    exact List.countP_le_length.trans (List.length_take_le' _ _)
  rw [UInt64.le_iff_toNat_le, count, count]
  exact (List.take_sublist_take_left (UInt64.le_iff_toNat_le.mp le)).countP_le

theorem numbers_acceptedUpTo (before answers : List Response)
    (short : (before ++ answers).length < 2 ^ 64) :
    Numbers (acceptedUpTo (before ++ answers)) (UInt64.ofNat before.length) answers := by
  induction answers generalizing before with
  | nil => trivial
  | cons answer answers ih =>
      rw [List.length_append, List.length_cons] at short
      have here : (UInt64.ofNat before.length).toNat = before.length :=
        UInt64.toNat_ofNat_of_lt' (show before.length < 2 ^ 64 by omega)
      have next : (UInt64.ofNat (before.length + 1)).toNat = before.length + 1 :=
        UInt64.toNat_ofNat_of_lt' (show before.length + 1 < 2 ^ 64 by omega)
      have later := ih (before ++ [answer]) (by simp; omega)
      rw [List.append_assoc, List.singleton_append, List.length_append, List.length_singleton]
        at later
      refine ⟨?_, by rw [← UInt64.ofNat_one, ← UInt64.ofNat_add]; exact later⟩
      rw [← UInt64.ofNat_one, ← UInt64.ofNat_add, acceptedUpTo, acceptedUpTo, here, next,
        List.take_left, List.take_length_add_append]
      cases status : answer.report.accepted with
      | false => simp [List.countP_append, status]
      | true => simp [List.countP_append, status]

theorem renumbered_start (risk : RiskManager) (starts : number 0 = 0) :
    Renumbered number { risk := risk } { risk := risk } where
  twins := ⟨_, _, twins_start _ _ risk⟩
  sequence := starts.symm
  acceptedOrders := rfl
  canceledOrders := rfl

theorem length_kept_le (commands : List Command) (answers : List Response) :
    (kept commands answers).length ≤ commands.length := by
  rw [kept, List.length_map]
  refine (List.length_filter_le _ _).trans ?_
  rw [List.length_zip]
  exact min_le_left _ _

/-- The run without the rejected commands, compared with the whole run. -/
structure Erased (engine : MatchingEngine) (number : UInt64 → UInt64)
    (answers answers' : List Response) : Prop where
  monotone : ∀ a b, a ≤ b → number a ≤ number b
  increasing : (answers.filter (fun answer => answer.report.accepted)).Pairwise (fun a b =>
    a.report.sequence < b.report.sequence ∧
      number a.report.sequence < number b.report.sequence)
  alike : List.Forall₂ (Response.Renumbers number)
    (answers.filter (fun answer => answer.report.accepted)) answers'
  buyLevels : (engine.lastEngine answers').book.buyLevels.contents =
    (engine.lastEngine answers).book.buyLevels.contents.map
      (fun level => (level.1, level.2.1.map (Order.renumber number), level.2.2))
  sellLevels : (engine.lastEngine answers').book.sellLevels.contents =
    (engine.lastEngine answers).book.sellLevels.contents.map
      (fun level => (level.1, level.2.1.map (Order.renumber number), level.2.2))
  orderCount : (engine.lastEngine answers').book.orderCount =
    (engine.lastEngine answers).book.orderCount
  seenOrderIds : (engine.lastEngine answers').seenOrderIds =
    (engine.lastEngine answers).seenOrderIds
  nextTradeId : (engine.lastEngine answers').nextTradeId =
    (engine.lastEngine answers).nextTradeId
  acceptedOrders : (engine.lastEngine answers').acceptedOrders =
    (engine.lastEngine answers).acceptedOrders
  canceledOrders : (engine.lastEngine answers').canceledOrders =
    (engine.lastEngine answers).canceledOrders

theorem map_sequence_of_renumbers {answers answers' : List Response}
    (alike : List.Forall₂ (Response.Renumbers number) answers answers') :
    answers'.map (fun answer => answer.report.sequence) =
      answers.map (fun answer => number answer.report.sequence) := by
  induction alike with
  | nil => rfl
  | cons renumbers _ ih =>
      rw [List.map_cons, List.map_cons, ih, renumbers.report]
      rfl

theorem exists_erased (risk : RiskManager) (commands : List Command)
    (short : commands.length < 2 ^ 64) :
    ∃ answers answers', ({ risk := risk } : MatchingEngine).responses commands = .ok answers ∧
      ({ risk := risk } : MatchingEngine).responses (kept commands answers) = .ok answers' ∧
      Erased { risk := risk } (acceptedUpTo answers) answers answers' := by
  obtain ⟨answers, run, length⟩ :=
    MatchingEngine.Consistent.responses
      ⟨_, simulates_start risk, Reference.sound_start risk⟩ commands
  rw [← length] at short
  obtain ⟨answers', run', alike, final⟩ :=
    (renumbered_start risk (acceptedUpTo_zero answers)).run run
      (numbers_acceptedUpTo [] answers short)
  obtain ⟨⟨last, last', twins⟩, _, acceptedOrders, canceledOrders⟩ := final
  obtain ⟨buyLevels, sellLevels⟩ := twins.levels_renumber
  obtain ⟨nodes, sim⟩ := twins.simulates
  obtain ⟨nodes', sim'⟩ := twins.simulates'
  have related := twins.related
  refine ⟨answers, answers', run, run', ?_⟩
  exact {
    monotone := fun a b le => acceptedUpTo_mono short le
    increasing := by
      obtain ⟨_, increasing⟩ := MatchingEngine.responses_sequences run
        (by rw [UInt64.toNat_zero]; omega)
      obtain ⟨_, increasing'⟩ := MatchingEngine.responses_sequences run'
        (by rw [UInt64.toNat_zero]; have := length_kept_le commands answers; omega)
      rw [← List.pairwise_map (f := fun answer : Response => answer.report.sequence),
        map_sequence_of_renumbers alike, List.pairwise_map] at increasing'
      exact (increasing.sublist List.filter_sublist).and increasing'
    alike := alike
    buyLevels := buyLevels
    sellLevels := sellLevels
    orderCount := by rw [sim.length_eq, sim'.length_eq, related.live, List.length_map]
    seenOrderIds := by rw [sim.seen, sim'.seen, related.seen]
    nextTradeId := by rw [sim.nextTradeId, sim'.nextTradeId, related.nextTradeId]
    acceptedOrders := acceptedOrders
    canceledOrders := canceledOrders }

/-- An order is accepted if and only if no check refuses it. -/
theorem MatchingEngine.accepted_iff_rejectReason {engine : MatchingEngine} {order : Order}
    {outTrades : List Trade} {response : Response}
    (applied : engine.apply (.newOrder order) outTrades = .ok response) :
    response.report.accepted = true ↔ engine.rejectReason order = .none := by
  have same : rejectReason { engine with sequence := engine.sequence + 1 } order =
      engine.rejectReason order := rfl
  simp only [MatchingEngine.apply, processOrder, same] at applied
  split at applied
  · rename_i passed
    exact iff_of_true (execute_counts applied).1 passed
  · rename_i refused
    obtain rfl := Except.ok.inj applied
    exact iff_of_false (by simp [rejectedReport, ExecutionReport.accepted]) refused

/-- Rejected commands are invisible. After a reject the engine decides on every order as it
would have before, so that a rejected id may be accepted later. -/
theorem rejects_invisible (risk : RiskManager) (commands : List Command)
    (short : commands.length < 2 ^ 64) :
    (∃ answers answers', ({ risk := risk } : MatchingEngine).responses commands = .ok answers ∧
      ({ risk := risk } : MatchingEngine).responses (kept commands answers) = .ok answers' ∧
      Erased { risk := risk } (acceptedUpTo answers) answers answers') ∧
    (∀ (engine : MatchingEngine) (command : Command) (outTrades : List Trade)
      (response : Response), engine.apply command outTrades = .ok response →
      response.report.accepted = false →
      response.engine.book = engine.book ∧ response.engine.seenOrderIds = engine.seenOrderIds ∧
        response.engine.nextTradeId = engine.nextTradeId ∧ response.outTrades = outTrades ∧
        ∀ (order : Order) (trades : List Trade) (later : Response),
          response.engine.apply (.newOrder order) trades = .ok later →
          (later.report.accepted = true ↔ engine.rejectReason order = .none)) := by
  refine ⟨exists_erased risk commands short, ?_⟩
  intro engine command outTrades response applied refused
  obtain ⟨moved, kept⟩ := (MatchingEngine.apply_counts applied).rejected refused
  rw [moved]
  refine ⟨rfl, rfl, rfl, kept, fun order trades later applied => ?_⟩
  have decided := MatchingEngine.accepted_iff_rejectReason applied
  exact decided

/-- Deleting the reject of an unknown cancellation moves the later events down by one. An id
that was rejected three times is accepted in the end. -/
theorem rejects_invisible_cancel :
    (let commands : List Command :=
      [.cancel 7, .newOrder { id := 1, side := .sell, price := 100, quantity := 5 }, .cancel 1]
    ∃ answers answers', (MatchingEngine.fresh {}).responses commands = .ok answers ∧
      (MatchingEngine.fresh {}).responses (kept commands answers) = .ok answers' ∧
      Erased (.fresh {}) (acceptedUpTo answers) answers answers') ∧
    ((MatchingEngine.fresh { maxOrderQuantity := 100 }).responses
        [.newOrder { id := 1, side := .sell, price := 100, quantity := 5 },
          .newOrder { id := 2, timeInForce := .fok, price := 100, quantity := 6 },
          .newOrder { id := 2, flags := .postOnly, price := 100, quantity := 6 },
          .newOrder { id := 2, price := 100, quantity := 101 },
          .newOrder { id := 2, price := 100, quantity := 6 }]).map
        (List.map (fun answer => (answer.report.status, answer.report.rejectReason))) =
      .ok [(.resting, .none), (.rejected, .fokNotFillable), (.rejected, .postOnlyWouldTrade),
        (.rejected, .riskMaxOrderQuantity), (.partiallyFilled, .none)] :=
  ⟨(rejects_invisible {} [.cancel 7,
    .newOrder { id := 1, side := .sell, price := 100, quantity := 5 }, .cancel 1] (by decide)).1,
    by decide +kernel⟩

end Lob
