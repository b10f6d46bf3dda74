import Lob.MatchingEngine.Counters
import Lob.MatchingEngine.Twin
import Lob.Reference.Envelope

/-!
# The mirror image of a run

Exchanging buy and sell and replacing every limit price `p` by `c - p` turns a run into
its mirror image: the source writes the two sides of the book as separate branches with
opposite comparators, and this is the statement that the branches say the same.

The default risk limits treat the two runs alike as long as `c` is at most `2 ^ 32`: no
price is then large enough for the notional check to fail.
-/

namespace Lob

/-! ### Mirrored orders -/

def Side.mirror (side : Side) : Side :=
  if side = .buy then .sell else if side = .sell then .buy else side

/-- The order on the other side of the book. Only a limit order has a price. -/
def Order.mirror (c : Int64) (order : Order) : Order :=
  { order with
    side := order.side.mirror
    price := if order.type = .limit then c - order.price else order.price }

def Trade.mirror (c : Int64) (trade : Trade) : Trade :=
  { trade with
    buyOrderId := trade.sellOrderId
    sellOrderId := trade.buyOrderId
    price := c - trade.price }

def Command.mirror (c : Int64) : Command → Command
  | .newOrder order => .newOrder (order.mirror c)
  | .cancel orderId => .cancel orderId

/-- The orders that both engines treat alike: their limit price lies between `0` and `c`. -/
structure Order.Between (c : Int64) (order : Order) : Prop where
  side : isValidSide order.side = true
  type : isValidOrderType order.type = true
  price : order.type = .limit → 0 < order.price ∧ order.price < c

variable {c : Int64} {order : Order}

@[simp] theorem Side.mirror_buy : Side.mirror .buy = .sell := rfl

@[simp] theorem Side.mirror_sell : Side.mirror .sell = .buy := rfl

theorem isValidSide_mirror (side : Side) : isValidSide side.mirror = isValidSide side := by
  by_cases buy : side = .buy
  · rw [buy]
    rfl
  · by_cases sell : side = .sell
    · rw [sell]
      rfl
    · rw [Side.mirror, if_neg buy, if_neg sell]

theorem toInt_mirror {price : Int64} (positive : 0 < price) (below : price < c) :
    (c - price).toInt = c.toInt - price.toInt := by
  have zero : (0 : Int64).toInt = 0 := rfl
  have bound := Int64.toInt_lt c
  rw [Int64.lt_iff_toInt_lt] at positive below
  rw [Int64.toInt_sub]
  exact Int.bmod_eq_of_le (by omega) (by omega)

theorem mirror_lt {a b : Int64} (positive : 0 < a) (below : a < c) (positive' : 0 < b)
    (below' : b < c) : c - a < c - b ↔ b < a := by
  rw [Int64.lt_iff_toInt_lt, Int64.lt_iff_toInt_lt, toInt_mirror positive below,
    toInt_mirror positive' below']
  omega

theorem mirror_le {a b : Int64} (positive : 0 < a) (below : a < c) (positive' : 0 < b)
    (below' : b < c) : c - a ≤ c - b ↔ b ≤ a := by
  rw [Int64.le_iff_toInt_le, Int64.le_iff_toInt_le, toInt_mirror positive below,
    toInt_mirror positive' below']
  omega

theorem Order.Between.sides (between : order.Between c) : order.side = .buy ∨ order.side = .sell :=
  isValidSide_iff.mp between.side

theorem Order.mirror_price (limit : order.type = .limit) :
    (order.mirror c).price = c - order.price := if_pos limit

theorem Order.mirror_side_of_buy (side : order.side = .buy) : (order.mirror c).side = .sell := by
  rw [Order.mirror, side, Side.mirror_buy]

theorem Order.mirror_side_of_sell (side : order.side = .sell) : (order.mirror c).side = .buy := by
  rw [Order.mirror, side, Side.mirror_sell]

theorem opposite_mirror {incoming live : Order} (between : incoming.Between c)
    (between' : live.Between c) :
    (live.mirror c).side = (incoming.mirror c).opposite ↔ live.side = incoming.opposite := by
  have different := Side.buy_ne_sell
  rcases between.sides with side | side
  · have mirrored := Order.mirror_side_of_buy (c := c) side
    rcases between'.sides with side' | side'
    · simp [Order.opposite, side, side', mirrored, Order.mirror_side_of_buy side', different,
        different.symm]
    · simp [Order.opposite, side, side', mirrored, Order.mirror_side_of_sell side',
        different.symm]
  · have mirrored := Order.mirror_side_of_sell (c := c) side
    rcases between'.sides with side' | side'
    · simp [Order.opposite, side, side', mirrored, Order.mirror_side_of_buy side',
        different.symm]
    · simp [Order.opposite, side, side', mirrored, Order.mirror_side_of_sell side', different,
        different.symm]

theorem crosses_mirror {incoming live : Order} (between : incoming.Between c)
    (between' : live.Between c) (limit' : live.type = .limit) :
    (incoming.mirror c).crosses (live.mirror c) = incoming.crosses live := by
  obtain ⟨positive', below'⟩ := between'.price limit'
  rcases isValidOrderType_iff.mp between.type with limit | market
  · obtain ⟨positive, below⟩ := between.price limit
    have up := mirror_le positive below positive' below'
    have down := mirror_le positive' below' positive below
    rcases between.sides with side | side
    · simp [Order.crosses, Order.mirror, side, limit, limit', up, Side.buy_ne_sell.symm]
    · simp [Order.crosses, Order.mirror, side, limit, limit', down, Side.buy_ne_sell.symm]
  · simp [Order.crosses, Order.mirror, market]

/-- Matching does not tell an order from its mirror image. -/
theorem symmetry_mirror (c : Int64) :
    Reference.Symmetry (Order.mirror c) (Trade.mirror c) (Order.Between c) where
  id _ := rfl
  quantity _ := rfl
  refill _ _ := rfl
  closed _ _ between := ⟨between.side, between.type, between.price⟩
  accepts incoming live between between' limit := by
    rw [Order.accepts, Order.accepts, crosses_mirror between between' limit,
      decide_eq_decide.mpr (opposite_mirror between between')]
  rank incoming a b between betweenA limitA betweenB limitB := by
    obtain ⟨positiveA, belowA⟩ := betweenA.price limitA
    obtain ⟨positiveB, belowB⟩ := betweenB.price limitB
    have toIntA := toInt_mirror positiveA belowA
    have toIntB := toInt_mirror positiveB belowB
    rw [← Order.mirror_price limitA] at toIntA
    rw [← Order.mirror_price limitB] at toIntB
    simp only [Order.rank, toIntA, toIntB]
    rcases between.sides with side | side
    · simp only [side, Order.mirror_side_of_buy side, if_true, Side.buy_ne_sell.symm, if_false]
      omega
    · simp only [side, Order.mirror_side_of_sell side, if_true, Side.buy_ne_sell.symm, if_false]
      omega
  trade tradeId incoming live quantity between between' limit := by
    rcases between.sides with side | side
    · simp [tradeOf, Trade.mirror, Order.mirror, side, limit, Side.buy_ne_sell.symm]
    · simp [tradeOf, Trade.mirror, Order.mirror, side, limit, Side.buy_ne_sell.symm]

/-! ### The levels of mirrored books -/

/-- The contents of the other side: mirrored prices, the same queues and totals. -/
def mirrorLevels (c : Int64) (levels : List (Int64 × List Order × UInt64)) :
    List (Int64 × List Order × UInt64) :=
  levels.map (fun level => (c - level.1, level.2.1.map (Order.mirror c), level.2.2))

theorem corresponds_mirror_buy {live : List Order}
    (lives : Reference.Lives (Order.Between c) live) :
    Corresponds greater less .buy .sell (Order.mirror c) (fun price => c - price) live where
  quantity _ := rfl
  sides order member := by
    rcases (lives order member).1.sides with side | side
    · simp [side, Order.mirror_side_of_buy side]
    · simp [side, Order.mirror_side_of_sell side, Side.buy_ne_sell, Side.buy_ne_sell.symm]
  prices order member _ := Order.mirror_price (lives order member).2
  increasing a inA b inB _ _ more := by
    obtain ⟨positive, below⟩ := (lives a inA).1.price (lives a inA).2
    obtain ⟨positive', below'⟩ := (lives b inB).1.price (lives b inB).2
    exact (mirror_lt positive below positive' below').mpr more

theorem corresponds_mirror_sell {live : List Order}
    (lives : Reference.Lives (Order.Between c) live) :
    Corresponds less greater .sell .buy (Order.mirror c) (fun price => c - price) live where
  quantity _ := rfl
  sides order member := by
    rcases (lives order member).1.sides with side | side
    · simp [side, Order.mirror_side_of_buy side, Side.buy_ne_sell, Side.buy_ne_sell.symm]
    · simp [side, Order.mirror_side_of_sell side]
  prices order member _ := Order.mirror_price (lives order member).2
  increasing a inA b inB _ _ fewer := by
    obtain ⟨positive, below⟩ := (lives a inA).1.price (lives a inA).2
    obtain ⟨positive', below'⟩ := (lives b inB).1.price (lives b inB).2
    exact (mirror_lt positive' below' positive below).mpr fewer

section Books

variable {engine engine' : MatchingEngine} {reference reference' : Reference}

theorem Twins.levels_mirror
    (twins : Twins (Order.mirror c) (Order.Between c) engine engine' reference reference') :
    engine'.book.sellLevels.contents = mirrorLevels c engine.book.buyLevels.contents ∧
      engine'.book.buyLevels.contents = mirrorLevels c engine.book.sellLevels.contents := by
  obtain ⟨nodes, nodes', book, book', live, images⟩ := twins.nodes
  have lives := twins.related.lives
  rw [← live] at lives
  exact ⟨book.buy.contents_image book'.sell images (corresponds_mirror_buy lives),
    book.sell.contents_image book'.buy images (corresponds_mirror_sell lives)⟩

/-- The prices of all levels lie between `0` and `c`. -/
theorem Groups.between {lt : Int64 → Int64 → Prop} [IsStrictTotalOrder Int64 lt]
    {levels : LevelMap lt} {side : Side} {nodes : List OrderNode}
    (groups : Groups levels side nodes)
    (lives : Reference.Lives (Order.Between c) (nodes.map OrderNode.order)) :
    ∀ entry ∈ levels.entries, 0 < entry.1 ∧ entry.1 < c := by
  intro entry member
  obtain ⟨order, inLive, _, price⟩ := groups.exists_of_mem_contents (List.mem_map_of_mem member)
  obtain ⟨between, limit⟩ := lives order inLive
  exact price ▸ between.price limit

theorem Twins.executableQuantity_mirror
    (twins : Twins (Order.mirror c) (Order.Between c) engine engine' reference reference')
    {order : Order} (between : order.Between c) (cap : UInt64) :
    engine'.book.executableQuantity (order.mirror c) cap =
      engine.book.executableQuantity order cap := by
  obtain ⟨sell, buy⟩ := twins.levels_mirror
  obtain ⟨nodes, nodes', book, book', live, _⟩ := twins.nodes
  have lives := twins.related.lives
  rw [← live] at lives
  have valid : isValidSide (order.mirror c).side = isValidSide order.side :=
    isValidSide_mirror order.side
  have sameType : (order.mirror c).type = order.type := rfl
  -- the price tests of the two branches agree on mirrored prices
  have tests : ∀ price, 0 < price → price < c → (order.type = .limit →
      ((c - order.price < c - price ↔ price < order.price) ∧
        (c - price < c - order.price ↔ order.price < price))) := by
    intro price positive' below' limit
    obtain ⟨positive, below⟩ := between.price limit
    exact ⟨mirror_lt positive below positive' below', mirror_lt positive' below' positive below⟩
  simp only [OrderBook.executableQuantity, valid, sameType]
  split
  · rfl
  · rcases between.sides with side | side
    · rw [if_pos side, if_neg (by rw [Order.mirror_side_of_buy side]; decide)]
      refine LevelMap.executableLoop_contents _ cap 0 buy (fun entry member => ?_)
      obtain ⟨positive', below'⟩ := book.sell.between lives entry member
      rw [decide_eq_decide]
      refine and_congr_right (fun limit => ?_)
      rw [Order.mirror_price limit]
      exact (tests entry.1 positive' below' limit).2
    · rw [if_pos (Order.mirror_side_of_sell side), if_neg (by rw [side]; decide)]
      refine LevelMap.executableLoop_contents _ cap 0 sell (fun entry member => ?_)
      obtain ⟨positive', below'⟩ := book.buy.between lives entry member
      rw [decide_eq_decide]
      refine and_congr_right (fun limit => ?_)
      rw [Order.mirror_price limit]
      exact (tests entry.1 positive' below' limit).1

end Books

/-! ### Validation -/

theorem mirror_within (prices : order.type = .limit → 0 < order.price ∧ order.price < c) :
    (order.mirror c).type = .limit → 0 < (order.mirror c).price ∧ (order.mirror c).price < c := by
  intro limit
  obtain ⟨positive, below⟩ := prices limit
  have mirrored : (order.mirror c).price = c - order.price := Order.mirror_price limit
  rw [mirrored, Int64.lt_iff_toInt_lt, Int64.lt_iff_toInt_lt, toInt_mirror positive below,
    Int64.toInt_zero]
  rw [Int64.lt_iff_toInt_lt, Int64.toInt_zero] at positive
  rw [Int64.lt_iff_toInt_lt] at below
  omega

theorem validateStatic_mirror (prices : order.type = .limit → 0 < order.price ∧ order.price < c) :
    validateStatic (order.mirror c) = validateStatic order := by
  have side : isValidSide (order.mirror c).side = isValidSide order.side :=
    isValidSide_mirror order.side
  have priced : ¬(order.type = .limit ∧ order.price ≤ 0) :=
    fun ⟨limit, negative⟩ => Int64.not_le.mpr (prices limit).1 negative
  have priced' : ¬((order.mirror c).type = .limit ∧ (order.mirror c).price ≤ 0) :=
    fun ⟨limit, negative⟩ => Int64.not_le.mpr (mirror_within prices limit).1 negative
  rw [validateStatic, validateStatic, if_neg priced, if_neg priced', side]
  rfl

/-- The default limits only stop an order by the kill switch or the number of orders. -/
theorem validate_default {risk : RiskManager} (limits : risk.limits = {}) (high : c ≤ 4294967296)
    (prices : order.type = .limit → 0 < order.price ∧ order.price < c) (activeOrders : Nat)
    (mayAddActiveOrder : Bool) :
    risk.validate order activeOrders mayAddActiveOrder =
      if risk.killSwitch then .riskKillSwitch
      else if mayAddActiveOrder ∧ activeOrders ≥ 0xFFFFFFFFFFFFFFFF then .riskMaxActiveOrders
      else .none := by
  have range : ¬(order.type = .limit ∧ (order.price < 1 ∨ order.price > Int64.maxValue)) := by
    rintro ⟨limit, low | above⟩
    · have positive := (prices limit).1
      rw [Int64.lt_iff_toInt_lt] at low positive
      rw [Int64.toInt_zero] at positive
      rw [Int64.toInt_one] at low
      omega
    · exact absurd above (Int64.not_lt.mpr (Int64.le_maxValue _))
  have notional : ¬(order.type = .limit ∧ order.quantity ≠ 0 ∧
      order.price.toUInt64 > 0xFFFFFFFFFFFFFFFF / order.quantity.toUInt64) := by
    rintro ⟨limit, nonzero, above⟩
    obtain ⟨positive, below⟩ := prices limit
    rw [notional_test positive nonzero, notional] at above
    have priced : order.price.toInt ≤ 4294967295 := by
      have limited : (4294967296 : Int64).toInt = 4294967296 := rfl
      rw [Int64.lt_iff_toInt_lt] at below
      rw [Int64.le_iff_toInt_le] at high
      omega
    have counted : (order.quantity.toNat : Int) ≤ 4294967295 := by
      have := order.quantity.toNat_lt
      omega
    have product := Int.mul_le_mul priced counted (Int.natCast_nonneg _) (by omega)
    exact absurd above (not_lt.mpr (product.trans (by decide)))
  have quantity : ¬order.quantity > 0xFFFFFFFF := by
    have := order.quantity.toNat_lt
    have limited : (0xFFFFFFFF : UInt32).toNat = 4294967295 := rfl
    rw [gt_iff_lt, UInt32.lt_iff_toNat_lt]
    omega
  rw [RiskManager.validate, limits, if_neg quantity, if_neg range, if_neg notional]
  rfl

/-! ### The two runs -/

/-- The limit price of a new order lies in `1 .. c - 1`. -/
def Command.Within (c : Int64) : Command → Prop
  | .newOrder order => order.type = .limit → 0 < order.price ∧ order.price < c
  | .cancel _ => True

/-- The responses to a command and to its mirror image. -/
structure Response.Mirrors (c : Int64) (response response' : Response) : Prop where
  report : response'.report = response.report
  outTrades : response'.outTrades = response.outTrades.map (Trade.mirror c)
  sellLevels : response'.engine.book.sellLevels.contents =
    mirrorLevels c response.engine.book.buyLevels.contents
  buyLevels : response'.engine.book.buyLevels.contents =
    mirrorLevels c response.engine.book.sellLevels.contents

/-- The engines of the two runs, after corresponding commands. -/
structure Mirrored (c : Int64) (engine engine' : MatchingEngine) : Prop where
  twins : ∃ reference reference',
    Twins (Order.mirror c) (Order.Between c) engine engine' reference reference'
  sequence : engine'.sequence = engine.sequence
  limits : engine.risk.limits = {}

section Runs

variable {engine engine' : MatchingEngine} {reference reference' : Reference} {command : Command}

theorem Twins.rejectReason_mirror
    (twins : Twins (Order.mirror c) (Order.Between c) engine engine' reference reference')
    (limits : reference.risk.limits = {}) (high : c ≤ 4294967296)
    (prices : order.type = .limit → 0 < order.price ∧ order.price < c) :
    reference'.rejectReason (order.mirror c) (engine'.shortfall (.newOrder (order.mirror c))) =
      reference.rejectReason order (engine.shortfall (.newOrder order)) := by
  have static := validateStatic_mirror prices
  by_cases valid : validateStatic order = .none
  · have facts := staticallyValid_of_validateStatic valid
    have between : order.Between c := ⟨facts.side, facts.type, prices⟩
    have sameShortfall : engine'.shortfall (.newOrder (order.mirror c)) =
        engine.shortfall (.newOrder order) := by
      have sameQuantity : (order.mirror c).quantity = order.quantity := rfl
      rw [MatchingEngine.shortfall, MatchingEngine.shortfall, sameQuantity,
        twins.executableQuantity_mirror between]
    have risk (activeOrders : Nat) (mayAddActiveOrder : Bool) :
        reference.risk.validate (order.mirror c) activeOrders mayAddActiveOrder =
          reference.risk.validate order activeOrders mayAddActiveOrder := by
      rw [validate_default limits high prices, validate_default limits high (mirror_within prices)]
    have crossing : (reference.live.map (Order.mirror c)).any (order.mirror c).accepts =
        reference.live.any order.accepts :=
      (symmetry_mirror c).any_accepts between twins.related.lives
    rw [sameShortfall, Reference.rejectReason, Reference.rejectReason, static,
      twins.related.risk, twins.related.live, twins.related.seen, List.length_map, crossing, risk]
    rfl
  · rw [Reference.rejectReason, Reference.rejectReason, static, if_pos valid, if_pos valid]

theorem Mirrored.apply (related : Mirrored c engine engine') (high : c ≤ 4294967296)
    (within : command.Within c) :
    ∃ response response', engine.apply command [] = .ok response ∧
      engine'.apply (command.mirror c) [] = .ok response' ∧
      response.Mirrors c response' ∧ Mirrored c response.engine response'.engine := by
  obtain ⟨⟨reference, reference', twins⟩, sequence, limits⟩ := related
  have alike : Twins.Alike (Order.mirror c) (Order.Between c) engine engine' reference reference'
      command (command.mirror c) := by
    cases command with
    | newOrder order =>
        have limits' : reference.risk.limits = {} := twins.simulates.risk ▸ limits
        refine .newOrder rfl rfl (twins.rejectReason_mirror limits' high within) (fun passed => ?_)
        have valid := (Reference.passed_of_rejectReason passed).valid
        refine ⟨⟨valid.side, valid.type, within⟩, ?_, rfl⟩
        rw [sequence]
        rfl
    | cancel orderId => exact .cancel orderId
  obtain ⟨response, response', applied, applied', responses⟩ :=
    twins.apply (symmetry_mirror c) alike
  obtain ⟨last, last', final⟩ := responses.twins
  obtain ⟨sellLevels, buyLevels⟩ := final.levels_mirror
  refine ⟨response, response', applied, applied', ⟨?_, responses.outTrades, sellLevels,
    buyLevels⟩, responses.twins, ?_, ?_⟩
  · rw [responses.report, sequence, ← (MatchingEngine.apply_counts applied).report]
  · rw [responses.sequence, responses.sequence', sequence]
  · rw [responses.risk, limits]

theorem Mirrored.run (related : Mirrored c engine engine') (high : c ≤ 4294967296)
    {commands : List Command} (within : ∀ command ∈ commands, command.Within c) :
    ∃ answers answers', engine.responses commands = .ok answers ∧
      engine'.responses (commands.map (Command.mirror c)) = .ok answers' ∧
      List.Forall₂ (Response.Mirrors c) answers answers' := by
  induction commands generalizing engine engine' with
  | nil => exact ⟨[], [], rfl, rfl, .nil⟩
  | cons command commands ih =>
      obtain ⟨answer, answer', applied, applied', mirrors, next⟩ :=
        related.apply high (within command List.mem_cons_self)
      obtain ⟨later, later', rest, rest', alike⟩ :=
        ih next (fun command member => within command (List.mem_cons_of_mem _ member))
      refine ⟨answer :: later, answer' :: later', ?_, ?_, .cons mirrors alike⟩
      · simp only [MatchingEngine.responses, applied, rest, bind, Except.bind, pure, Except.pure]
      · simp only [List.map_cons, MatchingEngine.responses, applied', rest', bind, Except.bind,
          pure, Except.pure]

end Runs

theorem mirrored_start (c : Int64) (killSwitch : Bool) :
    Mirrored c { risk := { killSwitch } } { risk := { killSwitch } } where
  twins := ⟨_, _, twins_start _ _ _⟩
  sequence := rfl
  limits := rfl

/-- The mirrored commands get the same reports and the mirrored trades, and after every
command each side of the mirrored book is the mirror image of the other side. -/
theorem run_mirrored (killSwitch : Bool) (c : Int64) (high : c ≤ 4294967296)
    (commands : List Command) (within : ∀ command ∈ commands, command.Within c) :
    ∃ answers answers',
      ({ risk := { killSwitch } } : MatchingEngine).responses commands = .ok answers ∧
      ({ risk := { killSwitch } } : MatchingEngine).responses (commands.map (Command.mirror c)) =
        .ok answers' ∧
      List.Forall₂ (Response.Mirrors c) answers answers' :=
  (mirrored_start c killSwitch).run high within

/-- A sell order at 101 that a market order hits, and a resting bid, mirrored at 200. -/
theorem run_mirrored_market :
    let commands : List Command :=
      [.newOrder { id := 1, side := .sell, price := 101, quantity := 5 },
        .newOrder { id := 2, side := .buy, type := .market, timeInForce := .ioc, quantity := 3 },
        .newOrder { id := 3, side := .buy, price := 100, quantity := 4 }, .cancel 1]
    ∃ answers answers', (MatchingEngine.fresh {}).responses commands = .ok answers ∧
      (MatchingEngine.fresh {}).responses (commands.map (Command.mirror 200)) = .ok answers' ∧
      List.Forall₂ (Response.Mirrors 200) answers answers' :=
  run_mirrored false 200 (by decide) _ (by simp [Command.Within]; decide)

end Lob
