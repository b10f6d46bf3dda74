import Lob.MatchingEngine.History
import Lob.Reference.Envelope

/-!
# The published top of book

`publishBook` of `matching_engine_main` stores the best prices of the book in the shared
header, and `market_viewer` reads them back. An absent price travels in-band: `kNoBid` and
`kNoAsk` are the ends of the `int64` range. No bid is at `kNoBid`, because every resting
price is positive. An ask is at `kNoAsk` exactly when a SELL order rests at `INT64_MAX`,
and the risk limits decide whether one can. The limits that the process accepts are those
of `parseArgs`; the conversion of the argument texts to numbers is not modelled.
-/

namespace Lob

variable {limits : RiskLimits}

/-! ### The command line -/

/-- A flag of `matching_engine_main` that sets a risk limit, with its converted value. -/
inductive LimitFlag where
  | maxOrderQty (value : UInt64)
  | minPrice (value : Int64)
  | maxPrice (value : Int64)
  | maxNotional (value : UInt64)
  | maxActiveOrders (value : UInt64)
  deriving DecidableEq, Repr

/-- The branch of `parseArgs` for a flag; an error is the text printed before the exit. -/
def LimitFlag.store (limits : RiskLimits) : LimitFlag → Except String RiskLimits
  | .maxOrderQty value =>
      if value > 0xFFFFFFFF then .error "--max-order-qty exceeds uint32 range"
      else .ok { limits with maxOrderQuantity := value.toUInt32 }
  | .minPrice value => .ok { limits with minLimitPrice := value }
  | .maxPrice value => .ok { limits with maxLimitPrice := value }
  | .maxNotional value => .ok { limits with maxOrderNotional := value }
  | .maxActiveOrders value => .ok { limits with maxActiveOrders := value }

/-- The risk limits that `parseArgs` returns. -/
def parseLimits (flags : List LimitFlag) : Except String RiskLimits := do
  let limits ← flags.foldlM LimitFlag.store {}
  if limits.minLimitPrice > limits.maxLimitPrice then .error "min price cannot exceed max price"
  else return limits

/-- Exactly the limits with an ordered price collar can be given on the command line. -/
theorem exists_parseLimits_iff :
    (∃ flags, parseLimits flags = .ok limits) ↔ limits.minLimitPrice ≤ limits.maxLimitPrice := by
  refine ⟨?_, ?_⟩
  · rintro ⟨flags, parsed⟩
    simp only [parseLimits, bind, Except.bind, pure, Except.pure] at parsed
    split at parsed
    · contradiction
    split at parsed
    · contradiction
    rename_i ordered
    obtain rfl := Except.ok.inj parsed
    exact Int64.not_lt.mp ordered
  · intro ordered
    have quantity : ¬limits.maxOrderQuantity.toUInt64 > 0xFFFFFFFF := by
      have bound := UInt32.toNat_lt limits.maxOrderQuantity
      rw [gt_iff_lt, UInt64.lt_iff_toNat_lt, UInt32.toNat_toUInt64]
      simp only [UInt64.reduceToNat]
      omega
    refine ⟨[.maxOrderQty limits.maxOrderQuantity.toUInt64, .minPrice limits.minLimitPrice,
      .maxPrice limits.maxLimitPrice, .maxNotional limits.maxOrderNotional,
      .maxActiveOrders limits.maxActiveOrders], ?_⟩
    have collar : ¬limits.minLimitPrice > limits.maxLimitPrice := Int64.not_lt.mpr ordered
    simp only [parseLimits, List.foldlM, LimitFlag.store, quantity, collar, if_false, bind,
      Except.bind, pure, Except.pure, UInt32.toUInt32_toUInt64]

/-! ### Publishing and viewing -/

/-- `SharedHeader::kNoBid`. -/
def kNoBid : Int64 := Int64.minValue

/-- `SharedHeader::kNoAsk`. -/
def kNoAsk : Int64 := Int64.maxValue

/-- The fields of `SharedHeader` that `publishBook` stores. -/
structure PublishedBook where
  bestBid : Int64 := kNoBid
  bestAsk : Int64 := kNoAsk
  lastSequence : UInt64 := 0
  deriving DecidableEq, Repr

def publishBook (engine : MatchingEngine) : PublishedBook where
  bestBid := engine.book.bestBid.getD kNoBid
  bestAsk := engine.book.bestAsk.getD kNoAsk
  lastSequence := engine.sequence

/-- The top of a book; `none` is the `-` that the viewer prints. -/
structure TopOfBook where
  bid : Option Int64
  ask : Option Int64
  spread : Option Int64
  deriving DecidableEq, Repr

/-- What `market_viewer` makes of the published values. -/
def PublishedBook.view (published : PublishedBook) : TopOfBook :=
  let hasBid := published.bestBid != kNoBid
  let hasAsk := published.bestAsk != kNoAsk
  { bid := if hasBid then some published.bestBid else none
    ask := if hasAsk then some published.bestAsk else none
    spread :=
      if hasBid && hasAsk then some (published.bestAsk - published.bestBid) else none }

/-- The top that the book has. -/
def OrderBook.top (book : OrderBook) : TopOfBook := ⟨book.bestBid, book.bestAsk, book.spread⟩

/-- The in-band encoding is faithful on every price but the two sentinels. -/
theorem view_publishBook_iff (engine : MatchingEngine) :
    (publishBook engine).view = engine.book.top ↔
      engine.book.bestBid ≠ some kNoBid ∧ engine.book.bestAsk ≠ some kNoAsk := by
  rw [publishBook, OrderBook.top, OrderBook.spread]
  cases engine.book.bestBid with
  | none =>
      cases engine.book.bestAsk with
      | none => simp [PublishedBook.view]
      | some ask => by_cases sentinel : ask = kNoAsk <;> simp [PublishedBook.view, sentinel]
  | some bid =>
      by_cases sentinel : bid = kNoBid
      · cases engine.book.bestAsk with
        | none => simp [PublishedBook.view, sentinel]
        | some ask => simp [PublishedBook.view, sentinel]
      · cases engine.book.bestAsk with
        | none => simp [PublishedBook.view, sentinel]
        | some ask =>
            by_cases sentinel' : ask = kNoAsk <;>
              simp [PublishedBook.view, sentinel, sentinel']

/-! ### The prices that can be best -/

/-- The first level of a side is the level of some node. -/
theorem Groups.exists_of_front {lt : Int64 → Int64 → Prop} [IsStrictTotalOrder Int64 lt]
    {levels : LevelMap lt} {side : Side} {nodes : List OrderNode}
    (groups : Groups levels side nodes) {price : Int64}
    (front : levels.front?.map Prod.fst = some price) :
    ∃ node ∈ nodes, node.order.side = side ∧ node.order.price = price := by
  obtain ⟨⟨_, level⟩, first, rfl⟩ := Option.map_eq_some_iff.mp front
  obtain ⟨node, _, _, member, onLevel⟩ := groups.exists_front_node first
  exact ⟨node, member, onLevel⟩

section Best

variable {engine : MatchingEngine} {reference : Reference}

theorem Simulates.exists_of_bestAsk (sim : Simulates engine reference) {price : Int64}
    (best : engine.book.bestAsk = some price) :
    ∃ order ∈ reference.live, order.side = .sell ∧ order.price = price := by
  obtain ⟨nodes, sim⟩ := sim
  obtain ⟨node, member, onLevel⟩ := sim.book.sell.exists_of_front best
  exact ⟨node.order, sim.live ▸ List.mem_map_of_mem member, onLevel⟩

theorem Simulates.bestBid_ne (sim : Simulates engine reference) (sound : reference.Sound) :
    engine.book.bestBid ≠ some kNoBid := by
  intro best
  obtain ⟨nodes, sim⟩ := sim
  obtain ⟨node, member, _, price⟩ := sim.book.buy.exists_of_front best
  have positive := (sound.restable node.order (sim.live ▸ List.mem_map_of_mem member)).price
  rw [price] at positive
  exact absurd positive (by decide)

end Best

/-! ### The limits that keep asks below the sentinel -/

/-- No SELL order can come to rest at `kNoAsk`: the collar or the notional cap excludes
the price, or nothing can rest at all. -/
def RiskLimits.KeepsAsksBelow (limits : RiskLimits) : Prop :=
  limits.maxLimitPrice < kNoAsk ∨ limits.maxOrderNotional < kNoAsk.toUInt64 ∨
    limits.maxOrderQuantity = 0 ∨ limits.maxActiveOrders = 0

instance (limits : RiskLimits) : Decidable limits.KeepsAsksBelow :=
  inferInstanceAs (Decidable (_ ∨ _ ∨ _ ∨ _))

namespace Reference

/-- What rests in every state of a run: allowed orders, and none if none may be active. -/
structure Bounded (engine : Reference) (limits : RiskLimits) : Prop where
  within : engine.WithinLimits limits
  inactive : limits.maxActiveOrders = 0 → engine.live = []

theorem bounded_fresh (limits : RiskLimits) : (fresh limits).Bounded limits :=
  ⟨withinLimits_fresh limits, fun _ => rfl⟩

theorem Bounded.step {engine : Reference} {limits : RiskLimits} (bounded : engine.Bounded limits)
    (sound : engine.Sound) {outTrades : List Trade} {command : Command} {shortfall : Bool}
    {response : Response}
    (exactly : engine.live.length < 2 ^ 32 → shortfall = engine.exactShortfall command)
    (step : engine.Step outTrades command shortfall response) :
    response.engine.Bounded limits := by
  refine ⟨bounded.within.step sound step, ?_⟩
  intro none
  have empty := bounded.inactive none
  -- an empty list is short, so the preflight answer was exact and the cap of zero held
  obtain rfl := exactly (by simp [empty])
  have enveloped : engine.Enveloped limits :=
    ⟨bounded.within.risk, by simp [empty], bounded.within.live⟩
  have active := (enveloped.step sound step).active
  rw [none] at active
  exact List.length_eq_zero_iff.mp (Nat.le_zero.mp active)

/-- Under such limits no order rests at the sentinel. -/
theorem Bounded.price_ne {engine : Reference} {limits : RiskLimits}
    (bounded : engine.Bounded limits) (sound : engine.Sound) (below : limits.KeepsAsksBelow) :
    ∀ order ∈ engine.live, order.price ≠ kNoAsk := by
  intro order member sentinel
  have allows := bounded.within.live order member
  have restable := sound.restable order member
  rw [sentinel] at allows
  rcases below with price | product | quantity | active
  · exact Int64.not_lt.mpr allows.maxPrice price
  · have one : 1 ≤ order.quantity.toNat :=
      UInt32.lt_iff_toNat_lt.mp (UInt32.pos_iff_ne_zero.mpr restable.quantity)
    have cap := allows.maxNotional
    have less := UInt64.lt_iff_toNat_lt.mp product
    have top : kNoAsk.toInt = 2 ^ 63 - 1 := by decide
    have top' : kNoAsk.toUInt64.toNat = 2 ^ 63 - 1 := by decide
    rw [notional, top] at cap
    rw [top'] at less
    omega
  · have none := allows.maxQuantity
    rw [quantity, UInt32.le_zero_iff] at none
    exact restable.quantity none
  · rw [bounded.inactive active] at member
    exact absurd member List.not_mem_nil

end Reference

/-! ### The order at the sentinel -/

/-- A SELL order of one lot at the largest price. -/
def topSell : Order := { id := 1, side := .sell, price := Int64.maxValue, quantity := 1 }

/-- A fresh engine accepts it unless the limits keep asks below the sentinel. -/
theorem rejectReason_topSell (ordered : limits.minLimitPrice ≤ limits.maxLimitPrice)
    (above : ¬limits.KeepsAsksBelow) :
    { MatchingEngine.fresh limits with sequence := 1 }.rejectReason topSell = .none := by
  simp only [RiskLimits.KeepsAsksBelow, not_or] at above
  obtain ⟨price, product, quantity, active⟩ := above
  have top : limits.maxLimitPrice = Int64.maxValue :=
    Int64.le_antisymm (Int64.le_maxValue _) (Int64.not_lt.mp price)
  have small : ¬topSell.quantity > limits.maxOrderQuantity := by
    rw [gt_iff_lt, UInt32.not_lt, UInt32.le_iff_toNat_le]
    exact UInt32.lt_iff_toNat_lt.mp (UInt32.pos_iff_ne_zero.mpr quantity)
  have inCollar : ¬(topSell.type = .limit ∧ (topSell.price < limits.minLimitPrice ∨
      topSell.price > limits.maxLimitPrice)) := by
    rw [top] at ordered ⊢
    rintro ⟨_, below | beyond⟩
    · exact Int64.not_lt.mpr ordered below
    · exact Int64.lt_irrefl beyond
  have cheap : ¬(topSell.type = .limit ∧ topSell.quantity ≠ 0 ∧
      topSell.price.toUInt64 > limits.maxOrderNotional / topSell.quantity.toUInt64) := by
    rintro ⟨_, _, exceeds⟩
    have one : topSell.quantity.toUInt64 = 1 := rfl
    rw [one, UInt64.div_one] at exceeds
    exact product exceeds
  have room : ¬0 ≥ limits.maxActiveOrders.toNat := by
    intro full
    exact active (UInt64.toNat.inj (Nat.le_zero.mp full))
  have allowed : RiskManager.validate { limits } topSell 0 true = .none := by
    simp only [RiskManager.validate, small, inCollar, cheap, room, if_false, and_false,
      Bool.false_eq_true]
  -- on the empty book every other reject exit computes to a pass
  have onlyRisk : { MatchingEngine.fresh limits with sequence := 1 }.rejectReason topSell =
      if RiskManager.validate { limits } topSell 0 true ≠ .none then
        RiskManager.validate { limits } topSell 0 true
      else .none := rfl
  rw [onlyRisk, allowed, if_neg (not_not.mpr rfl)]

theorem runAll_topSell (ordered : limits.minLimitPrice ≤ limits.maxLimitPrice)
    (above : ¬limits.KeepsAsksBelow) :
    ∃ engine, (MatchingEngine.fresh limits).runAll [.newOrder topSell] = .ok engine ∧
      engine.book.bestAsk = some kNoAsk := by
  have passed := rejectReason_topSell ordered above
  have executed : (({ MatchingEngine.fresh limits with sequence := 1 } : MatchingEngine).execute
      topSell 1 []).map (fun response => response.engine.book.bestAsk) = .ok (some kNoAsk) := rfl
  obtain ⟨response, reached, best⟩ := exists_of_map_eq_ok executed
  refine ⟨response.engine, ?_, best⟩
  have applied : (MatchingEngine.fresh limits).apply (.newOrder topSell) [] = .ok response := by
    change (MatchingEngine.fresh limits).processOrder topSell [] = _
    rw [MatchingEngine.processOrder]
    have sequence : (MatchingEngine.fresh limits).sequence + 1 = 1 := rfl
    simp only [sequence, passed]
    exact reached
  simp only [MatchingEngine.runAll, applied, bind, Except.bind]

/-- The viewer decodes the top of the book in every state whose best ask is not at
`kNoAsk`. For limits that the process accepts, this is every reachable state exactly when
the limits keep asks below the sentinel. -/
theorem published_top_decodes (flags : List LimitFlag) (limits : RiskLimits)
    (parsed : parseLimits flags = .ok limits) :
    (∀ commands, ∃ engine, (MatchingEngine.fresh limits).runAll commands = .ok engine ∧
      ((publishBook engine).view = engine.book.top ↔ engine.book.bestAsk ≠ some kNoAsk)) ∧
    ((∀ commands, ∃ engine, (MatchingEngine.fresh limits).runAll commands = .ok engine ∧
      (publishBook engine).view = engine.book.top) ↔ limits.KeepsAsksBelow) := by
  have ordered := exists_parseLimits_iff.mp ⟨flags, parsed⟩
  have reach := (simulates_fresh limits).runAll (Reference.sound_fresh limits)
    (P := fun reference => reference.Bounded limits) (Reference.bounded_fresh limits)
    (fun reference command shortfall response sound bounded exactly step =>
      bounded.step sound exactly step)
  have states : ∀ commands, ∃ engine,
      (MatchingEngine.fresh limits).runAll commands = .ok engine ∧
      ((publishBook engine).view = engine.book.top ↔ engine.book.bestAsk ≠ some kNoAsk) := by
    intro commands
    obtain ⟨engine, reference, reached, sim, sound, _⟩ := reach commands
    refine ⟨engine, reached, ?_⟩
    rw [view_publishBook_iff]
    exact and_iff_right (sim.bestBid_ne sound)
  refine ⟨states, ?_, ?_⟩
  · intro decodes
    by_contra above
    obtain ⟨engine, reached, best⟩ := runAll_topSell ordered above
    obtain ⟨engine', reached', decoded⟩ := decodes [.newOrder topSell]
    obtain rfl := Except.ok.inj (reached.symm.trans reached')
    exact ((view_publishBook_iff engine).mp decoded).2 best
  · intro below commands
    obtain ⟨engine, reference, reached, sim, sound, bounded⟩ := reach commands
    refine ⟨engine, reached, (view_publishBook_iff engine).mpr ⟨sim.bestBid_ne sound, ?_⟩⟩
    intro best
    obtain ⟨order, member, _, price⟩ := sim.exists_of_bestAsk best
    exact bounded.price_ne sound below order member price

/-- A price collar of 1000 keeps asks below the sentinel. -/
theorem published_top_decodes_collar :
    let limits : RiskLimits := { maxLimitPrice := 1000 }
    parseLimits [.maxPrice 1000] = .ok limits ∧
      ∀ commands, ∃ engine, (MatchingEngine.fresh limits).runAll commands = .ok engine ∧
        (publishBook engine).view = engine.book.top :=
  ⟨rfl, (published_top_decodes [.maxPrice 1000] _ rfl).2.mpr (by decide)⟩

/-- With the default limits a SELL order rests at `INT64_MAX`, and the viewer shows no ask. -/
theorem published_ask_disappears :
    parseLimits [] = .ok {} ∧
      ∃ engine, (MatchingEngine.fresh {}).runAll [.newOrder topSell] = .ok engine ∧
        engine.book.bestAsk = some 9223372036854775807 ∧ (publishBook engine).view.ask = none :=
  ⟨rfl, _, rfl, by decide +kernel, by decide +kernel⟩

end Lob
