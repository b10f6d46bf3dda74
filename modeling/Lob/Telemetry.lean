import Lob.Journal.Recovery
import Lob.MarketViewer.TopOfBook

/-!
# Telemetry of the engine process

`matching_engine_main` keeps counters in the shared header next to those of its engine. It
seeds them before its loop, from the replay result and from the recovered engine, and the
end of every iteration moves them on. Replaying a record moves the seed in the same way as
an iteration moves the header, so a recovered header is the one that a process without a
restart would show. The counters are compared as `uint64_t`, so the results hold however
many commands there are.

The queues of trades and reports, the heartbeat and the polls that find no message change
none of this and are left out.
-/

namespace Lob

open Journal

/-! ### Messages and the header -/

/-- `OrderMsgType`, a number that another process writes into shared memory. -/
structure OrderMsgType where
  value : UInt32
  deriving DecidableEq, Repr

namespace OrderMsgType

def newOrder : OrderMsgType := ⟨0⟩

def cancelOrder : OrderMsgType := ⟨1⟩

end OrderMsgType

structure OrderMsg where
  type : OrderMsgType := .newOrder
  order : Order := {}
  deriving DecidableEq, Repr

/-- What `main` does with a message; whatever is no new order is a cancellation. -/
def OrderMsg.command (message : OrderMsg) : Command :=
  if message.type = .newOrder then .newOrder message.order else .cancel message.order.id

/-- The counters of `SharedHeader` and its view of the book. -/
structure SharedHeader where
  processedCommands : UInt64 := 0
  acceptedCommands : UInt64 := 0
  rejectedCommands : UInt64 := 0
  canceledOrders : UInt64 := 0
  tradesGenerated : UInt64 := 0
  book : PublishedBook := {}
  deriving DecidableEq, Repr

namespace SharedHeader

/-- The stores of `main` before it declares the region ready. -/
def seed (replayResult : JournalReplayResult) (engine : MatchingEngine) : SharedHeader where
  processedCommands := replayResult.records
  acceptedCommands := replayResult.accepted
  rejectedCommands := replayResult.rejected
  canceledOrders := engine.canceledOrders
  tradesGenerated := engine.tradeCount
  book := publishBook engine

/-- The stores of the main loop after a command. -/
def count (header : SharedHeader) (response : Response) : SharedHeader where
  processedCommands := header.processedCommands + 1
  acceptedCommands :=
    if response.report.accepted then header.acceptedCommands + 1 else header.acceptedCommands
  rejectedCommands :=
    if response.report.accepted then header.rejectedCommands else header.rejectedCommands + 1
  canceledOrders :=
    if response.report.status = .canceled then header.canceledOrders + 1
    else header.canceledOrders
  tradesGenerated := header.tradesGenerated + UInt64.ofNat response.outTrades.length
  book := publishBook response.engine

end SharedHeader

/-! ### The process -/

/-- What the arguments say about the journal. `parseArgs` refuses `--recover` alone. -/
inductive JournalArgs where
  | off
  | truncate
  | recover
  deriving DecidableEq, Repr

/-- `Args`, with the system calls of the start-up. -/
structure MainArgs where
  riskLimits : RiskLimits := {}
  journal : JournalArgs := .off
  session : Session := {}

/-- The variables of `main`. Without `--journal` the journal is never opened. -/
structure EngineMain extends EngineProcess where
  header : SharedHeader

namespace EngineMain

def ofStartUp (start : StartUp) : EngineMain where
  toEngineProcess := start.process
  header := .seed start.replayResult start.process.engine

/-- `main` before its loop; `none` is an exit with status 1. -/
def start (args : MainArgs) (file : Option (List UInt8)) : Except Fault (Option EngineMain) :=
  match args.journal with
  | .off =>
      let engine := MatchingEngine.fresh args.riskLimits
      .ok (some
        { journal := {}, file := file.getD [], engine, header := .seed {} engine })
  | .truncate => do
      return (← args.session.start args.riskLimits false file).map ofStartUp
  | .recover => do
      return (← args.session.start args.riskLimits true file).map ofStartUp

/-- The second half of an iteration: apply the command and count it. -/
def applyCommand (main : EngineMain) (command : Command) : Except Fault EngineMain := do
  let response ← main.engine.apply command []
  return { main with engine := response.engine, header := main.header.count response }

/-- An iteration that pops a message. A failed append breaks out of the loop. -/
def iterate (main : EngineMain) (message : OrderMsg) (calls : AppendCalls) :
    Except Fault EngineMain :=
  if main.journal.isOpen then
    let result := main.journal.append main.file message.command calls
    let main := { main with journal := result.journal, file := result.file }
    if result.ok then main.applyCommand message.command
    else .ok { main with journalFailed := true }
  else main.applyCommand message.command

/-- The main loop over the messages that it pops. -/
def loop (main : EngineMain) : List (OrderMsg × AppendCalls) → Except Fault EngineMain
  | [] => .ok main
  | (message, calls) :: rest => do
      let main ← main.iterate message calls
      if main.journalFailed then return main else loop main rest

/-- With an open journal an iteration does to journal, file and engine what `handle` does. -/
theorem iterate_toEngineProcess {main : EngineMain} (isOpen : main.journal.isOpen = true)
    (message : OrderMsg) (calls : AppendCalls) :
    (main.iterate message calls).map toEngineProcess =
      main.toEngineProcess.handle message.command calls := by
  simp only [iterate, isOpen, if_true, EngineProcess.handle, applyCommand, bind, Except.bind,
    pure, Except.pure]
  split
  · cases main.engine.apply message.command [] <;> rfl
  · rfl

end EngineMain

/-! ### Agreement -/

/-- The header tells what the engine counts, and `trades` is the number of its trades. -/
structure SharedHeader.Agrees (header : SharedHeader) (engine : MatchingEngine) (trades : Nat) :
    Prop where
  processed : header.processedCommands = engine.sequence
  lastSequence : header.book.lastSequence = engine.sequence
  accepted : header.acceptedCommands = engine.acceptedOrders + engine.canceledOrders
  outcomes : header.acceptedCommands + header.rejectedCommands = header.processedCommands
  canceled : header.canceledOrders = engine.canceledOrders
  generated : header.tradesGenerated = engine.tradeCount
  total : engine.tradeCount = UInt64.ofNat trades

namespace SharedHeader

open MatchingEngine

theorem Agrees.count {header : SharedHeader} {engine : MatchingEngine} {trades : Nat}
    (agrees : header.Agrees engine trades) (consistent : engine.Consistent) {command : Command}
    {response : Response} (applied : engine.apply command [] = .ok response) :
    (header.count response).Agrees response.engine (trades + response.outTrades.length) where
  processed := by rw [(apply_counts applied).sequence, ← agrees.processed]; rfl
  lastSequence := rfl
  accepted := by
    rw [apply_acceptedCommands applied, ← agrees.accepted]
    rfl
  outcomes := by
    have before := agrees.outcomes
    simp only [SharedHeader.count]
    split <;> grind
  canceled := by
    rw [apply_canceledOrders applied, ← agrees.canceled]
    rfl
  generated := by
    rw [consistent.apply_tradeCount applied, ← agrees.generated]
    rfl
  total := by
    rw [consistent.apply_tradeCount applied, agrees.total, UInt64.ofNat_add]

theorem agrees_seed_fresh (limits : RiskLimits) :
    (seed {} (.fresh limits)).Agrees (.fresh limits) 0 :=
  ⟨rfl, rfl, rfl, rfl, rfl, rfl, show (1 : UInt64) - 1 = 0 by decide⟩

/-- The engine has carried out the commands, and the header agrees with it. -/
def Follows (header : SharedHeader) (limits : RiskLimits) (commands : List Command)
    (engine : MatchingEngine) : Prop :=
  ∃ answers, (MatchingEngine.fresh limits).responses commands = .ok answers ∧
    (MatchingEngine.fresh limits).lastEngine answers = engine ∧
    header.Agrees engine (answers.flatMap Response.outTrades).length

variable {limits : RiskLimits} {commands : List Command}

theorem follows_fresh (limits : RiskLimits) :
    (seed {} (.fresh limits)).Follows limits [] (.fresh limits) :=
  ⟨[], rfl, rfl, agrees_seed_fresh limits⟩

/-- One more command, applied and counted. -/
theorem Follows.step {header : SharedHeader} {engine : MatchingEngine}
    (follows : header.Follows limits commands engine) (consistent : engine.Consistent)
    {command : Command} {response : Response} (applied : engine.apply command [] = .ok response) :
    (header.count response).Follows limits (commands ++ [command]) response.engine := by
  obtain ⟨answers, run, rfl, agrees⟩ := follows
  refine ⟨answers ++ [response], responses_concat run applied, lastEngine_concat _ _ _, ?_⟩
  rw [List.flatMap_append, List.length_append, List.flatMap_singleton]
  exact agrees.count consistent applied

end SharedHeader

/-! ### The seed -/

namespace Journal

/-- The header that `main` would seed if the journal ended with the records replayed so far. -/
def ReplayState.header (state : ReplayState) (records : UInt64) : SharedHeader :=
  .seed (replayResult { records } state) state.engine

/-- Replaying a record moves the seed as an iteration of the main loop moves the header. -/
theorem replayRecord_header {state : ReplayState} (consistent : state.engine.Consistent)
    {response : Response} {bytes : List UInt8}
    (applied : state.engine.apply (decodeCommand bytes) [] = .ok response)
    (expected records : UInt64) :
    ∃ next, replayRecord expected bytes state = .ok next ∧ next.engine = response.engine ∧
      next.header (records + 1) = (state.header records).count response := by
  simp only [replayRecord, applied, bind, Except.bind, pure, Except.pure]
  refine ⟨_, rfl, rfl, ?_⟩
  simp only [ReplayState.header, SharedHeader.seed, SharedHeader.count, replayResult,
    MatchingEngine.apply_canceledOrders applied, consistent.apply_tradeCount applied]

theorem follows_foldRecords {limits : RiskLimits} {commands : List Command} {state : ReplayState}
    {count : UInt64} (follows : (state.header count).Follows limits commands state.engine)
    (consistent : state.engine.Consistent) (expected : UInt64) (records : List (List UInt8)) :
    ∃ final, foldRecords replayRecord expected records state = .ok final ∧
      final.engine.Consistent ∧
      (final.header (count + UInt64.ofNat records.length)).Follows limits
        (commands ++ records.map decodeCommand) final.engine := by
  induction records generalizing commands state count expected with
  | nil => exact ⟨state, rfl, consistent, by simpa using follows⟩
  | cons record records ih =>
      obtain ⟨response, applied, consistent'⟩ := consistent.apply (decodeCommand record) []
      obtain ⟨next, replayed, engine, header⟩ :=
        replayRecord_header consistent applied expected count
      have follows' := follows.step consistent applied
      rw [← header, ← engine] at follows'
      obtain ⟨final, body, consistent'', last⟩ := ih follows' (engine ▸ consistent') (expected + 1)
      refine ⟨final, ?_, consistent'', ?_⟩
      · simp only [foldRecords, replayed, bind, Except.bind, body]
      · rw [List.append_assoc, add_one_add_ofNat] at last
        exact last

/-- An accepted replay has read a file of valid records, and the header seeded from its
result agrees with the engine. -/
theorem follows_replay (limits : RiskLimits) {file : Option (List UInt8)}
    {openFailure : Option String} {reads : List ReadOutcome} {result : JournalReplayResult}
    {engine : MatchingEngine}
    (replayed : EventJournal.replay file openFailure reads (.fresh limits) = .ok (result, engine))
    (accepted : result.ok = true) :
    ∃ records, file = some records.flatten ∧ ValidFrom 1 records ∧ engine.Consistent ∧
      (SharedHeader.seed result engine).Follows limits (records.map decodeCommand) engine := by
  unfold EventJournal.replay at replayed
  split at replayed
  · obtain ⟨rfl, _⟩ := Prod.mk.inj (Except.ok.inj replayed)
    contradiction
  · obtain ⟨rfl, _⟩ := Prod.mk.inj (Except.ok.inj replayed)
    contradiction
  · simp only [bind, Except.bind, pure, Except.pure] at replayed
    split at replayed
    · contradiction
    rename_i pair read
    obtain ⟨scan, final⟩ := pair
    obtain ⟨rfl, rfl⟩ := Prod.mk.inj (Except.ok.inj replayed)
    obtain ⟨records, rfl, valid, body, count⟩ := valid_of_readFile read accepted
    have start : (({ engine := .fresh limits } : ReplayState).header 0).Follows limits []
        (.fresh limits) := SharedHeader.follows_fresh limits
    obtain ⟨final', body', consistent, follows⟩ :=
      follows_foldRecords start (consistent_fresh limits) 1 records
    obtain rfl := Except.ok.inj (body.symm.trans body')
    rw [UInt64.zero_add, ← count] at follows
    exact ⟨records, rfl, valid, consistent, follows⟩

end Journal

/-! ### Start-up and loop -/

/-- The commands that a process recovers: those of the journal, if it is asked to. -/
def MainArgs.Recovered (args : MainArgs) (file : Option (List UInt8)) (commands : List Command) :
    Prop :=
  match args.journal with
  | .recover => ∃ records, file = some records.flatten ∧ ValidFrom 1 records ∧
      commands = records.map decodeCommand
  | .off | .truncate => commands = []

namespace EngineMain

variable {main : EngineMain} {file : Option (List UInt8)} {session : Session} {args : MainArgs}

/-- What holds between two iterations. -/
structure Running (main : EngineMain) (limits : RiskLimits) (commands : List Command) : Prop where
  consistent : main.engine.Consistent
  follows : main.header.Follows limits commands main.engine

variable {limits : RiskLimits} {commands : List Command}

theorem running_fresh (engine : main.engine = .fresh limits)
    (header : main.header = .seed {} main.engine) : main.Running limits [] := by
  rw [engine] at header
  refine ⟨engine ▸ consistent_fresh limits, ?_⟩
  rw [header, engine]
  exact SharedHeader.follows_fresh limits

theorem Running.applyCommand (running : main.Running limits commands) (command : Command) :
    ∃ next, main.applyCommand command = .ok next ∧ next.journalFailed = main.journalFailed ∧
      next.Running limits (commands ++ [command]) := by
  obtain ⟨response, applied, consistent⟩ := running.consistent.apply command []
  refine ⟨{ main with engine := response.engine, header := main.header.count response }, ?_, rfl,
    consistent, running.follows.step running.consistent applied⟩
  simp only [EngineMain.applyCommand, applied, bind, Except.bind, pure, Except.pure]

/-- An iteration handles its message, or fails to journal it and leaves all counters alone. -/
theorem Running.iterate (running : main.Running limits commands)
    (healthy : main.journalFailed = false) (message : OrderMsg) (calls : AppendCalls) :
    ∃ next, main.iterate message calls = .ok next ∧
      (next.journalFailed = true ∧ next.Running limits commands ∨
        next.journalFailed = false ∧ next.Running limits (commands ++ [message.command])) := by
  simp only [EngineMain.iterate]
  split
  · split
    · let journaled : EngineMain :=
        { main with
          journal := (main.journal.append main.file message.command calls).journal
          file := (main.journal.append main.file message.command calls).file }
      have running' : journaled.Running limits commands := ⟨running.consistent, running.follows⟩
      obtain ⟨next, applied, failed, handled⟩ := running'.applyCommand message.command
      exact ⟨next, applied, .inr ⟨failed.trans healthy, handled⟩⟩
    · exact ⟨_, rfl, .inl ⟨rfl, running.consistent, running.follows⟩⟩
  · obtain ⟨next, applied, failed, handled⟩ := running.applyCommand message.command
    exact ⟨next, applied, .inr ⟨failed.trans healthy, handled⟩⟩

theorem Running.loop (running : main.Running limits commands) (healthy : main.journalFailed = false)
    (messages : List (OrderMsg × AppendCalls)) :
    ∃ final handled, main.loop messages = .ok final ∧
      handled <+: messages.map (fun message => message.1.command) ∧
      (final.journalFailed = false →
        handled = messages.map (fun message => message.1.command)) ∧
      final.Running limits (commands ++ handled) := by
  induction messages generalizing main commands with
  | nil => exact ⟨main, [], rfl, List.prefix_rfl, fun _ => rfl, by rwa [List.append_nil]⟩
  | cons first messages ih =>
      obtain ⟨message, calls⟩ := first
      obtain ⟨next, iterated, failed | handled⟩ := running.iterate healthy message calls
      · refine ⟨next, [], ?_, List.nil_prefix, fun healthy' => ?_, ?_⟩
        · simp only [EngineMain.loop, iterated, bind, Except.bind, failed.1, if_true, pure,
            Except.pure]
        · exact absurd (failed.1.symm.trans healthy') (by decide)
        · rw [List.append_nil]
          exact failed.2
      · obtain ⟨final, later, looped, front, all, last⟩ := ih handled.2 handled.1
        refine ⟨final, message.command :: later, ?_, ?_, fun healthy' => ?_, ?_⟩
        · simp only [EngineMain.loop, iterated, bind, Except.bind, handled.1, Bool.false_eq_true,
            if_false, looped]
        · rw [List.map_cons, List.cons_prefix_cons]
          exact ⟨rfl, front⟩
        · rw [List.map_cons, all healthy']
        · rwa [List.append_assoc] at last

/-- The journal is opened with what the engine and the replay have come to. -/
theorem openProcess_eq_some {recover : Bool} {replayResult : JournalReplayResult}
    {engine : MatchingEngine} {start : StartUp}
    (opened : session.openProcess recover file replayResult engine = some start) :
    start.replayResult = replayResult ∧ start.process.engine = engine ∧
      start.process.journalFailed = false := by
  simp only [Session.openProcess] at opened
  split at opened
  · obtain rfl := Option.some.inj opened
    exact ⟨rfl, rfl, rfl⟩
  · contradiction

theorem running_truncate {start : StartUp}
    (started : session.start limits false file = .ok (some start)) :
    start.process.journalFailed = false ∧ (ofStartUp start).Running limits [] := by
  simp only [Session.start, Bool.false_eq_true, if_false, pure, Except.pure] at started
  obtain ⟨replayed, engine, healthy⟩ := openProcess_eq_some (Except.ok.inj started)
  refine ⟨healthy, running_fresh engine ?_⟩
  rw [← replayed]
  rfl

/-- The seed of a recovered header, from the replay of the whole journal. -/
theorem running_recover {start : StartUp}
    (started : session.start limits true file = .ok (some start)) :
    start.process.journalFailed = false ∧
      ∃ records, file = some records.flatten ∧ ValidFrom 1 records ∧
        (ofStartUp start).Running limits (records.map decodeCommand) := by
  simp only [Session.start, if_true, bind, Except.bind, pure, Except.pure] at started
  split at started
  · contradiction
  rename_i pair replayed
  obtain ⟨result, engine⟩ := pair
  split at started
  · rename_i ok
    obtain ⟨rfl, rfl, healthy⟩ := openProcess_eq_some (Except.ok.inj started)
    obtain ⟨records, rfl, valid, consistent, follows⟩ := follows_replay limits replayed ok
    exact ⟨healthy, records, rfl, valid, consistent, follows⟩
  · exact absurd (Except.ok.inj started) (by simp)

/-- A process with a journal comes up from a start-up of its session. -/
theorem exists_startUp {recover : Bool}
    (started : (do return (← session.start limits recover file).map ofStartUp) =
      Except.ok (some main)) :
    ∃ start, session.start limits recover file = .ok (some start) ∧ ofStartUp start = main := by
  simp only [bind, Except.bind, pure, Except.pure] at started
  split at started
  · contradiction
  rename_i result opened
  obtain ⟨start, rfl, same⟩ := Option.map_eq_some_iff.mp (Except.ok.inj started)
  exact ⟨start, opened, same⟩

/-- A process that comes up has the counters of the commands in its journal. -/
theorem running_start (started : start args file = .ok (some main)) :
    main.journalFailed = false ∧
      ∃ commands, args.Recovered file commands ∧ main.Running args.riskLimits commands := by
  unfold start at started
  unfold MainArgs.Recovered
  split at started
  · rename_i off
    obtain rfl := Option.some.inj (Except.ok.inj started)
    rw [off]
    exact ⟨rfl, [], rfl, running_fresh rfl rfl⟩
  · rename_i truncate
    obtain ⟨start, opened, rfl⟩ := exists_startUp started
    obtain ⟨healthy, running⟩ := running_truncate opened
    rw [truncate]
    exact ⟨healthy, [], rfl, running⟩
  · rename_i recover
    obtain ⟨start, opened, rfl⟩ := exists_startUp started
    obtain ⟨healthy, records, same, valid, running⟩ := running_recover opened
    rw [recover]
    exact ⟨healthy, _, ⟨records, same, valid, rfl⟩, running⟩

/-- Every valid journal can be recovered: if no system call fails, the process comes up. -/
theorem exists_start_recover (recover : args.journal = .recover)
    (undisturbed : args.session.Undisturbed) {records : List (List UInt8)}
    (valid : ValidFrom 1 records) :
    ∃ main, start args (some records.flatten) = .ok (some main) := by
  obtain ⟨result, engine, journal, started, _⟩ := undisturbed.start_recover args.riskLimits valid
  refine ⟨ofStartUp ⟨result, { journal, file := records.flatten, engine }⟩, ?_⟩
  simp only [start, recover, started, bind, Except.bind, pure, Except.pure, Option.map_some]

/-- The header agrees with the engine after every iteration of every process, recovered or
not, and both count the trades since the first command of the journal. -/
theorem telemetry_agrees {args : MainArgs} {file : Option (List UInt8)} {main : EngineMain}
    (started : start args file = .ok (some main)) (messages : List (OrderMsg × AppendCalls)) :
    ∃ recovered handled final answers,
      args.Recovered file recovered ∧ main.loop messages = .ok final ∧
      handled <+: messages.map (fun message => message.1.command) ∧
      (final.journalFailed = false →
        handled = messages.map (fun message => message.1.command)) ∧
      (MatchingEngine.fresh args.riskLimits).responses (recovered ++ handled) = .ok answers ∧
      (MatchingEngine.fresh args.riskLimits).lastEngine answers = final.engine ∧
      final.header.Agrees final.engine (answers.flatMap Response.outTrades).length := by
  obtain ⟨healthy, recovered, source, running⟩ := running_start started
  obtain ⟨final, handled, looped, front, all, last⟩ := running.loop healthy messages
  obtain ⟨answers, run, reached, agrees⟩ := last.follows
  exact ⟨recovered, handled, final, answers, source, looped, front, all, run, reached, agrees⟩

/-- Two orders that trade are recovered; then one is canceled twice, the second time with a
message type that no client should send. -/
theorem telemetry_agrees_recovered :
    let records : List (List UInt8) :=
      [encodeCommand 1 (.newOrder { id := 1, side := .buy, price := 100, quantity := 10 }),
        encodeCommand 2 (.newOrder { id := 2, side := .sell, price := 99, quantity := 4 })]
    let args : MainArgs :=
      { journal := .recover, session := { replayReads := [.got 7, .interrupted] } }
    let messages : List (OrderMsg × AppendCalls) :=
      [(⟨.cancelOrder, { id := 1 }⟩, { writes := [.wrote 20] }), (⟨⟨7⟩, { id := 1 }⟩, {})]
    ∃ main, start args (some records.flatten) = .ok (some main) ∧
      ∃ recovered handled final answers,
        args.Recovered (some records.flatten) recovered ∧ main.loop messages = .ok final ∧
        handled <+: messages.map (fun message => message.1.command) ∧
        (final.journalFailed = false →
          handled = messages.map (fun message => message.1.command)) ∧
        (MatchingEngine.fresh args.riskLimits).responses (recovered ++ handled) = .ok answers ∧
        (MatchingEngine.fresh args.riskLimits).lastEngine answers = final.engine ∧
        final.header.Agrees final.engine (answers.flatMap Response.outTrades).length := by
  intro records args messages
  have valid : ValidFrom 1 records :=
    ⟨length_encodeCommand _ _, validateRecord_encodeCommand _ _,
      length_encodeCommand _ _, validateRecord_encodeCommand _ _, trivial⟩
  have undisturbed : args.session.Undisturbed :=
    ⟨rfl, by simp [args, NoReadFailure], rfl, by simp [args, NoReadFailure], rfl,
      by simp [args], rfl⟩
  obtain ⟨main, started⟩ := exists_start_recover rfl undisturbed valid
  exact ⟨main, started, telemetry_agrees started messages⟩

end EngineMain

end Lob
