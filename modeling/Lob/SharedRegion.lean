import Lob.Library.Schedule
import Lob.Telemetry
import Mathlib.Logic.Function.Basic

/-!
# The shared region and its handshake

`matching_engine_main` unlinks the file of an earlier run, creates a new one, sizes and maps
it, builds a `SharedRegion` in it and stores the header, last of all `READY`. The feed and
the viewer open the path until they find a file that is large enough, poll its state and
compare magic, size and version. Every system call, load and store is one step. There may be
any number of engine processes and of clients at a time, since nothing locks the path, and an
engine process may be killed at any step.

A file has a number, like an inode: a process that has opened a file keeps it when the path
goes on to name another one. A file is zero up to its size when it is created or truncated.
The stores of the constructor are one step, since they change nothing that a client looks at
before `READY`. Heartbeats are left out; so is the `SIGBUS` of a process whose mapping lies
behind the end of a truncated file.
-/

namespace Lob

/-! ### The memory of a region -/

def kSharedMemoryMagic : UInt64 := 0x4C4F4253505343

def kSharedMemoryVersion : UInt32 := 2

/-- `RegionState`. -/
def regionNotReady : UInt32 := 0

def regionReady : UInt32 := 1

/-- `SharedHeader`, as far as start-up and handshake look at it. -/
structure RegionMemory where
  magic : UInt64 := 0
  regionSize : UInt64 := 0
  version : UInt32 := 0
  state : UInt32 := regionNotReady
  counters : SharedHeader := {}
  deriving DecidableEq, Repr

namespace RegionMemory

/-- A file that was just created or truncated. -/
def zero : RegionMemory where
  counters := { book := { bestBid := 0, bestAsk := 0, lastSequence := 0 } }

/-- The header says what a client of this version looks for. -/
structure Announced (bytes : UInt64) (memory : RegionMemory) : Prop where
  magic : memory.magic = kSharedMemoryMagic
  regionSize : memory.regionSize = bytes
  version : memory.version = kSharedMemoryVersion

end RegionMemory

/-- The stores of `main` between the constructor and the main loop. -/
inductive InitStore where
  | magic
  | regionSize
  | version
  | processed
  | accepted
  | rejected
  | canceled
  | trades
  | bestBid
  | bestAsk
  | lastSequence
  | ready
  deriving DecidableEq, Repr

namespace InitStore

def all : List InitStore :=
  [.magic, .regionSize, .version, .processed, .accepted, .rejected, .canceled, .trades, .bestBid,
    .bestAsk, .lastSequence, .ready]

/-- `seed` is what the process has recovered, `bytes` is `sizeof(SharedRegion)`. -/
def run (bytes : UInt64) (seed : SharedHeader) (memory : RegionMemory) : InitStore → RegionMemory
  | .magic => { memory with magic := kSharedMemoryMagic }
  | .regionSize => { memory with regionSize := bytes }
  | .version => { memory with version := kSharedMemoryVersion }
  | .processed =>
      { memory with
        counters := { memory.counters with processedCommands := seed.processedCommands } }
  | .accepted =>
      { memory with
        counters := { memory.counters with acceptedCommands := seed.acceptedCommands } }
  | .rejected =>
      { memory with
        counters := { memory.counters with rejectedCommands := seed.rejectedCommands } }
  | .canceled =>
      { memory with counters := { memory.counters with canceledOrders := seed.canceledOrders } }
  | .trades =>
      { memory with counters := { memory.counters with tradesGenerated := seed.tradesGenerated } }
  | .bestBid =>
      { memory with
        counters :=
          { memory.counters with
            book := { memory.counters.book with bestBid := seed.book.bestBid } } }
  | .bestAsk =>
      { memory with
        counters :=
          { memory.counters with
            book := { memory.counters.book with bestAsk := seed.book.bestAsk } } }
  | .lastSequence =>
      { memory with
        counters :=
          { memory.counters with
            book := { memory.counters.book with lastSequence := seed.book.lastSequence } } }
  | .ready => { memory with state := regionReady }

end InitStore

/-! ### The processes -/

structure RegionFile where
  size : UInt64 := 0
  memory : RegionMemory := .zero
  deriving DecidableEq, Repr

/-- Where the engine process is. -/
inductive EngineStart where
  /-- not started, killed, or out with an error -/
  | gone
  /-- about to call `remove_file` -/
  | removing (seed : SharedHeader)
  /-- about to call `open(O_CREAT | O_TRUNC)` -/
  | creating (seed : SharedHeader)
  /-- about to call `ftruncate` -/
  | sizing (seed : SharedHeader) (file : Nat)
  /-- about to call `mmap` -/
  | mapping (seed : SharedHeader) (file : Nat)
  /-- about to construct the region -/
  | constructing (seed : SharedHeader) (file : Nat)
  /-- with these stores to make -/
  | storing (seed : SharedHeader) (file : Nat) (left : List InitStore)
  | running (file : Nat)
  deriving DecidableEq, Repr

/-- The file that the process is initialising. -/
@[simp] def EngineStart.initialising? : EngineStart → Option Nat
  | .sizing _ file => some file
  | .mapping _ file => some file
  | .constructing _ file => some file
  | .storing _ file _ => some file
  | _ => none

/-- The file that the process has created. -/
@[simp] def EngineStart.file? : EngineStart → Option Nat
  | .running file => some file
  | point => point.initialising?

/-- Where a client is: `feed_handler` or `market_viewer`. -/
inductive ClientPoint where
  /-- about to call `open`, after this many attempts -/
  | opening (attempt : Nat)
  /-- about to call `fstat` -/
  | sizing (attempt file : Nat)
  /-- about to call `mmap` -/
  | mapping (attempt file : Nat)
  | polling (file : Nat)
  /-- has seen `READY` -/
  | sawReady (file : Nat)
  | loadedMagic (file : Nat) (magic : UInt64)
  | loadedSize (file : Nat) (magic regionSize : UInt64)
  | attached (file : Nat)
  /-- out with an error -/
  | mismatched
  | timedOut
  deriving DecidableEq, Repr

/-- The file that the client has open. -/
@[simp] def ClientPoint.file? : ClientPoint → Option Nat
  | .sizing _ file => some file
  | .mapping _ file => some file
  | .polling file => some file
  | .sawReady file => some file
  | .loadedMagic file _ => some file
  | .loadedSize file _ _ => some file
  | .attached file => some file
  | _ => none

/-- The file in which the client has seen `READY`. -/
@[simp] def ClientPoint.ready? : ClientPoint → Option Nat
  | .sawReady file => some file
  | .loadedMagic file _ => some file
  | .loadedSize file _ _ => some file
  | .attached file => some file
  | _ => none

theorem ClientPoint.file_of_ready {point : ClientPoint} {file : Nat}
    (has : point.ready? = some file) : point.file? = some file := by
  cases point <;> first | exact has | contradiction

/-- A failed attempt to open the region; the 202nd is the last. -/
def ClientPoint.retry (attempt : Nat) : ClientPoint :=
  if attempt > 200 then .timedOut else .opening (attempt + 1)

theorem ClientPoint.file_retry (attempt : Nat) : (retry attempt).file? = none := by
  unfold retry
  split <;> rfl

theorem ClientPoint.ready_retry (attempt : Nat) : (retry attempt).ready? = none := by
  unfold retry
  split <;> rfl

/-- The path, the files that it has named so far, and the processes. -/
structure Host where
  files : Nat → RegionFile
  /-- the number of the next file -/
  next : Nat
  /-- the file that the path names -/
  entry : Option Nat
  engines : Nat → EngineStart := fun _ => .gone
  clients : Nat → ClientPoint := fun _ => .opening 0

/-- Whose step is next, and whether its system call fails. -/
inductive HostEvent where
  /-- an engine process comes up to its start-up of the region -/
  | start (id : Nat) (seed : SharedHeader)
  | engine (id : Nat) (fails : Bool)
  /-- the engine process is killed or returns -/
  | kill (id : Nat)
  /-- the main loop moves the counters -/
  | serve (id : Nat) (counters : SharedHeader)
  | client (id : Nat) (fails : Bool)
  /-- `cleanup_shared_memory` -/
  | cleanup (fails : Bool)
  deriving DecidableEq, Repr

namespace Host

/-- Before the first process there may be a file of any contents at the path. -/
def initial (found : Option RegionFile) : Host where
  files := fun _ => found.getD {}
  next := 1
  entry := found.map (fun _ => 0)

/-- `unlink`, whose failure `main` ignores. -/
def removeFile (host : Host) (fails : Bool) : Option Nat := if fails then host.entry else none

/-- A change to the memory of a file. -/
def modify (host : Host) (file : Nat) (change : RegionFile → RegionFile) : Host :=
  { host with files := Function.update host.files file (change (host.files file)) }

/-- An engine process moves on. -/
def moveEngine (host : Host) (id : Nat) (point : EngineStart) : Host :=
  { host with engines := Function.update host.engines id point }

/-- `open(O_CREAT | O_TRUNC)`: the file that the path names, or a new one, is emptied. -/
def createFile (host : Host) (id : Nat) (seed : SharedHeader) : Host :=
  match host.entry with
  | some file => (host.modify file (fun _ => {})).moveEngine id (.sizing seed file)
  | none =>
      { (host.modify host.next (fun _ => {})).moveEngine id (.sizing seed host.next) with
        entry := some host.next
        next := host.next + 1 }

/-- The start-up of the region in `main`. -/
def engineStep (bytes : UInt64) (host : Host) (id : Nat) (fails : Bool) : Host :=
  match host.engines id with
  | .gone => host
  | .removing seed =>
      { host.moveEngine id (.creating seed) with entry := host.removeFile fails }
  | .creating seed => if fails then host.moveEngine id .gone else host.createFile id seed
  | .sizing seed file =>
      if fails then host.moveEngine id .gone
      else
        (host.modify file (fun found => { found with size := bytes })).moveEngine id
          (.mapping seed file)
  | .mapping seed file =>
      host.moveEngine id (if fails then .gone else .constructing seed file)
  | .constructing seed file =>
      (host.modify file (fun found => { found with memory := {} })).moveEngine id
        (.storing seed file InitStore.all)
  | .storing seed file (store :: left) =>
      (host.modify file (fun found =>
        { found with memory := store.run bytes seed found.memory })).moveEngine id
          (if left = [] then .running file else .storing seed file left)
  | .storing _ file [] => host.moveEngine id (.running file)
  | .running _ => host

/-- `SharedMemoryRegion::open` in its retry loop, and the handshake behind it. -/
def clientStep (bytes : UInt64) (host : Host) (point : ClientPoint) (fails : Bool) : ClientPoint :=
  match point with
  | .opening attempt =>
      match fails, host.entry with
      | false, some file => .sizing attempt file
      | _, _ => .retry attempt
  | .sizing attempt file =>
      if fails ∨ (host.files file).size < bytes then .retry attempt else .mapping attempt file
  | .mapping attempt file => if fails then .retry attempt else .polling file
  | .polling file =>
      if (host.files file).memory.state = regionReady then .sawReady file else .polling file
  | .sawReady file => .loadedMagic file (host.files file).memory.magic
  | .loadedMagic file magic => .loadedSize file magic (host.files file).memory.regionSize
  | .loadedSize file magic regionSize =>
      if magic ≠ kSharedMemoryMagic ∨
          (host.files file).memory.version ≠ kSharedMemoryVersion ∨ regionSize ≠ bytes then
        .mismatched
      else .attached file
  | point => point

/-- The main loop moves the counters of its region. -/
def serve (host : Host) (id : Nat) (counters : SharedHeader) : Host :=
  match host.engines id with
  | .running file =>
      host.modify file (fun found => { found with memory := { found.memory with counters } })
  | _ => host

/-- The number of a process is free again when the process is gone. -/
def start (host : Host) (id : Nat) (seed : SharedHeader) : Host :=
  match host.engines id with
  | .gone => host.moveEngine id (.removing seed)
  | _ => host

def step (bytes : UInt64) (host : Host) : HostEvent → Host
  | .start id seed => host.start id seed
  | .engine id fails => host.engineStep bytes id fails
  | .kill id => host.moveEngine id .gone
  | .serve id counters => host.serve id counters
  | .client id fails =>
      { host with
        clients := Function.update host.clients id (host.clientStep bytes (host.clients id) fails) }
  | .cleanup fails => { host with entry := host.removeFile fails }

/-- An engine process that opens the path to create its file finds none there: its `unlink` has
not failed, and no other engine process has created a file since. -/
def CreatesAfresh (host : Host) : HostEvent → Prop
  | .engine id false =>
      match host.engines id with
      | .creating _ => host.entry = none
      | _ => True
  | _ => True

instance (host : Host) (event : HostEvent) : Decidable (host.CreatesAfresh event) := by
  unfold CreatesAfresh
  split
  · split <;> infer_instance
  · infer_instance

end Host

end Lob
