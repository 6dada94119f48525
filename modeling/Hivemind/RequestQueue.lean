import Hivemind.Disk
import Hivemind.RingBuffer

/-! `request_queue.zig`: one queue of run requests for each deployment, and the table of the run
requests that workers are busy with. A function returns `none` where an assertion fails. -/
namespace Hivemind

def maxPayload : ℕ := 512
def maxQueueDepth : ℕ := 64
def maxQueues : ℕ := 16
def maxInFlight : ℕ := 1024
/-- `MAX_WORKERS` of the request queue. -/
def maxRunWorkers : ℕ := 128
def abandonedTtlTicks : ℕ := 30000

structure PendingRequest where
  requestId : ℕ := 0
  clientId : ℕ := 0
  deploymentId : ℕ := 0
  /-- `payload[0..payload_len]`. -/
  payload : List UInt8 := []
  active : Bool := false
  deriving DecidableEq

structure DeploymentQueue where
  ring : RingBuffer PendingRequest maxQueueDepth
  deploymentId : ℕ
  active : Bool

namespace DeploymentQueue

def init (deploymentId : ℕ) : DeploymentQueue := ⟨.fill {} [], deploymentId, true⟩

def enqueue (q : DeploymentQueue) (req : PendingRequest) : Option DeploymentQueue :=
  (q.ring.push? req).map fun ring => { q with ring }

def dequeue (q : DeploymentQueue) : Option (PendingRequest × DeploymentQueue) :=
  q.ring.pop?.map fun (req, ring) => (req, { q with ring })

/-- The part of `cancelClient` for one queue: the scan from the head on keeps the others' requests,
which are written back from the first cell on. -/
def cancel (clientId : ℕ) (q : DeploymentQueue) : DeploymentQueue :=
  if !q.active || q.ring.count == 0 then q
  else
    { q with
      ring := .fill {} (q.ring.toList.filter fun r => !r.active || r.clientId != clientId) }

end DeploymentQueue

structure ResolvedRequest where
  clientId : ℕ
  clientRequestId : ℕ
  deriving DecidableEq

inductive ResponseResolution where
  | deliver (r : ResolvedRequest)
  | abandoned | foreign | unknown
  deriving DecidableEq

structure InFlightEntry where
  workerRequestId : ℕ := 0
  clientRequestId : ℕ := 0
  clientId : ℕ := 0
  workerIdx : ℕ := 0
  abandoned : Bool := false
  expiresAtTick : ℕ := 0
  active : Bool := false
  deriving DecidableEq

def InFlightEntry.resolved (e : InFlightEntry) : ResolvedRequest := ⟨e.clientId, e.clientRequestId⟩

/-- `queues[0..queue_count]`, and `free_slots[0..free_slot_count]` with the top of the stack first.
Counters that only instrument, and what `dispatchRun` keeps with the queues, are left out. -/
structure RequestQueue where
  queues : List DeploymentQueue := []
  inFlight : List InFlightEntry := List.replicate maxInFlight {}
  workerEntrySlots : ℕ → ℕ := fun _ => maxInFlight
  workerGenerations : ℕ → ℕ := fun _ => 0
  freeSlots : List ℕ := List.range maxInFlight
  occupiedCount : ℕ := 0
  activeCount : ℕ := 0
  workerOwnedCount : ℕ → ℕ := fun _ => 0
  workerAbandonedExpiresAt : ℕ → ℕ := fun _ => 0
  enqueueTotal : ℕ := 0
  dispatchTotal : ℕ := 0
  resolveTotal : ℕ := 0

namespace RequestQueue

variable (q : RequestQueue)

/-! ### Queues -/

/-- On `queues[0..queue_count]`, with the index of the queue. -/
def getOrCreateQueue (queues : List DeploymentQueue) (deploymentId : ℕ) :
    Option (ℕ × List DeploymentQueue) :=
  match queues.findIdx? (fun x => x.active && x.deploymentId == deploymentId) with
  | some i => some (i, queues)
  | none =>
    if queues.length < maxQueues then
      some (queues.length, queues ++ [.init deploymentId])
    else
      (queues.findIdx? fun x => !x.active || x.ring.count == 0).map fun i =>
        (i, queues.set i (.init deploymentId))

/-- What `enqueue` does to the queues, and whether it accepts the request. -/
def enqueueIn (queues : List DeploymentQueue) (req : PendingRequest) :
    List DeploymentQueue × Bool :=
  match getOrCreateQueue queues req.deploymentId with
  | none => (queues, false)
  | some (i, queues) =>
    if req.payload.length > maxPayload then (queues, false)
    else match queues[i]?.bind (·.enqueue req) with
      | none => (queues, false)
      | some x => (queues.set i x, true)

def enqueue (deploymentId requestId clientId : ℕ) (payload : List UInt8) : RequestQueue × Bool :=
  let (queues, ok) :=
    enqueueIn q.queues { requestId, clientId, deploymentId, payload, active := true }
  ({ q with queues, enqueueTotal := if ok then q.enqueueTotal + 1 else q.enqueueTotal }, ok)

/-- `DeploymentQueue.dequeue` of queue `i`. -/
def dequeueAt (i : ℕ) : RequestQueue × Option PendingRequest :=
  match q.queues[i]?.bind DeploymentQueue.dequeue with
  | none => (q, none)
  | some (req, x) => ({ q with queues := q.queues.set i x }, some req)

/-! ### Correlations -/

/-- `(maxInt(u64) - worker_residue) / MAX_WORKERS`. -/
def maxGeneration (workerIdx : ℕ) : ℕ := (2 ^ 64 - 1 - (workerIdx + 1)) / maxRunWorkers

/-- The id that the next dispatch to the worker gets. -/
def nextCorrelation (workerIdx : ℕ) : ℕ :=
  q.workerGenerations workerIdx * maxRunWorkers + (workerIdx + 1)

def trackInFlightForWorker (clientRequestId clientId workerIdx : ℕ) :
    Option (RequestQueue × Option ℕ) :=
  if workerIdx ≥ maxRunWorkers || q.workerOwnedCount workerIdx != 0 ||
      decide (q.occupiedCount ≥ maxInFlight) then some (q, none)
  else match q.freeSlots with
    | [] => none
    | slot :: freeSlots => do
      let entry ← q.inFlight[slot]?
      guard (entry.active = false)
      guard (q.workerGenerations workerIdx ≤ maxGeneration workerIdx)
      guard (q.activeCount < maxInFlight ∧ q.workerEntrySlots workerIdx = maxInFlight)
      some
        ({ q with
            freeSlots
            workerGenerations := upd q.workerGenerations workerIdx
              (if q.workerGenerations workerIdx = maxGeneration workerIdx then 0
                else q.workerGenerations workerIdx + 1)
            inFlight := q.inFlight.set slot
              { workerRequestId := q.nextCorrelation workerIdx, clientRequestId, clientId
                workerIdx, active := true }
            workerEntrySlots := upd q.workerEntrySlots workerIdx slot
            occupiedCount := q.occupiedCount + 1
            activeCount := q.activeCount + 1
            workerOwnedCount := upd q.workerOwnedCount workerIdx 1
            dispatchTotal := q.dispatchTotal + 1 },
          some (q.nextCorrelation workerIdx))

/-- `removeEntry` and the `resolve_total += 1` that follows each call of it. -/
def removeEntry (slot : ℕ) (entry : InFlightEntry) : Option RequestQueue := do
  guard (entry.active = true ∧ entry.workerIdx < maxRunWorkers ∧ q.occupiedCount > 0)
  guard (q.workerOwnedCount entry.workerIdx = 1 ∧ q.workerEntrySlots entry.workerIdx = slot)
  guard (entry.abandoned = true ∨ q.activeCount > 0)
  guard (q.freeSlots.length < maxInFlight)
  some
    { q with
      occupiedCount := q.occupiedCount - 1
      workerOwnedCount := upd q.workerOwnedCount entry.workerIdx 0
      workerEntrySlots := upd q.workerEntrySlots entry.workerIdx maxInFlight
      workerAbandonedExpiresAt := upd q.workerAbandonedExpiresAt entry.workerIdx 0
      activeCount := if entry.abandoned then q.activeCount else q.activeCount - 1
      inFlight := q.inFlight.set slot {}
      freeSlots := slot :: q.freeSlots
      resolveTotal := q.resolveTotal + 1 }

/-- The entry of a worker, with its slot. -/
def entryOf (workerIdx : ℕ) : Option (ℕ × InFlightEntry) := do
  let entry ← q.inFlight[q.workerEntrySlots workerIdx]?
  guard (entry.active = true ∧ entry.workerIdx = workerIdx)
  some (q.workerEntrySlots workerIdx, entry)

def classifyResponseForWorker (workerRequestId workerIdx : ℕ) :
    Option (RequestQueue × ResponseResolution) :=
  if workerIdx ≥ maxRunWorkers then some (q, .unknown)
  else if q.workerEntrySlots workerIdx = maxInFlight then
    some (q, if workerRequestId ≠ 0 ∧ (workerRequestId - 1) % maxRunWorkers = workerIdx
      then .unknown else .foreign)
  else do
    let (slot, entry) ← q.entryOf workerIdx
    if entry.workerRequestId ≠ workerRequestId then some (q, .foreign)
    else
      let q ← q.removeEntry slot entry
      some (q, if entry.abandoned then .abandoned else .deliver entry.resolved)

/-- The released request is the one that goes to `released[0]`. -/
def releaseWorker (workerIdx : ℕ) : Option (RequestQueue × Option ResolvedRequest) :=
  if workerIdx ≥ maxRunWorkers then some (q, none)
  else if q.workerEntrySlots workerIdx = maxInFlight then some (q, none)
  else do
    let (slot, entry) ← q.entryOf workerIdx
    let q ← q.removeEntry slot entry
    some (q, if entry.abandoned then none else some entry.resolved)

/-- One round of the loop of `cancelClient` over the entries. -/
def cancelEntry (clientId expiresAt slot : ℕ) : Option RequestQueue := do
  let entry ← q.inFlight[slot]?
  if !entry.active || entry.clientId != clientId then some q
  else
    guard (entry.abandoned = true ∨ q.activeCount > 0)
    guard (entry.workerIdx < maxRunWorkers)
    some
      { q with
        activeCount := if entry.abandoned then q.activeCount else q.activeCount - 1
        inFlight := q.inFlight.set slot { entry with abandoned := true, expiresAtTick := expiresAt }
        workerAbandonedExpiresAt := upd q.workerAbandonedExpiresAt entry.workerIdx expiresAt }

def cancelClient (clientId now : ℕ) : Option RequestQueue :=
  (List.range maxInFlight).foldlM
    (fun q slot => q.cancelEntry clientId (saturatingAdd 64 now abandonedTtlTicks) slot)
    { q with queues := q.queues.map (DeploymentQueue.cancel clientId) }

def expiredAbandonedWorkers (now : ℕ) : Option (List ℕ) :=
  let expired := (List.range maxRunWorkers).filter fun w =>
    !(q.workerAbandonedExpiresAt w == 0 || decide (now < q.workerAbandonedExpiresAt w))
  if expired.all fun w => q.workerOwnedCount w == 1 then some expired else none

/-! ### Histories -/

inductive Call where
  | enqueue (deploymentId requestId clientId : ℕ) (payload : List UInt8)
  | dequeue (index : ℕ)
  | cancelClient (clientId now : ℕ)
  | track (clientRequestId clientId workerIdx : ℕ)
  | classify (workerRequestId workerIdx : ℕ)
  | release (workerIdx : ℕ)
  | expired (now : ℕ)

/-- What a call did. `issued` and `resolved` name the correlation; `answers` is the request that
the caller gets back, which an abandoned one is not. -/
inductive Event where
  | accepted (req : PendingRequest)
  | refused (req : PendingRequest)
  | dequeued (req : PendingRequest)
  | cancelled (clientId : ℕ)
  | issued (id workerIdx : ℕ) (req : ResolvedRequest)
  | resolved (id workerIdx : ℕ) (answers : Option ResolvedRequest)
  | nothing
  deriving DecidableEq

def step : Call → Option (RequestQueue × Event)
  | .enqueue deploymentId requestId clientId payload =>
    let r := q.enqueue deploymentId requestId clientId payload
    let req := { requestId, clientId, deploymentId, payload, active := true }
    some (r.1, if r.2 then .accepted req else .refused req)
  | .dequeue i => some ((q.dequeueAt i).1, (q.dequeueAt i).2.elim .nothing .dequeued)
  | .cancelClient clientId now =>
    (q.cancelClient clientId now).map fun q' => (q', .cancelled clientId)
  | .track clientRequestId clientId workerIdx =>
    (q.trackInFlightForWorker clientRequestId clientId workerIdx).map fun (q', id) =>
      (q', id.elim .nothing fun id => .issued id workerIdx ⟨clientId, clientRequestId⟩)
  | .classify id workerIdx =>
    (q.classifyResponseForWorker id workerIdx).map fun (q', r) => (q', match r with
      | .deliver req => .resolved id workerIdx (some req)
      | .abandoned => .resolved id workerIdx none
      | .foreign | .unknown => .nothing)
  | .release workerIdx =>
    (q.releaseWorker workerIdx).map fun (q', req) => (q', match q.entryOf workerIdx with
      | some (_, entry) => .resolved entry.workerRequestId workerIdx req
      | none => .nothing)
  | .expired now => (q.expiredAbandonedWorkers now).map fun _ => (q, .nothing)

/-- Calls on a new request queue, with the events; of both the latest comes first. -/
def run : List Call → Option (RequestQueue × List Event)
  | [] => some ({}, [])
  | c :: earlier => (run earlier).bind fun (q, events) =>
    (q.step c).map fun (q', e) => (q', e :: events)

theorem run_cons {c : Call} {earlier : List Call} {q' : RequestQueue} {l : List Event} :
    run (c :: earlier) = some (q', l) ↔ ∃ q events e,
      run earlier = some (q, events) ∧ q.step c = some (q', e) ∧ l = e :: events := by
  simp only [run, Option.bind_eq_some_iff, Option.map_eq_some_iff, Prod.exists, Prod.mk.injEq]
  constructor
  · rintro ⟨q, events, hrun, q₁, e, hstep, rfl, rfl⟩
    exact ⟨q, events, e, hrun, hstep, rfl⟩
  · rintro ⟨q, events, e, hrun, hstep, rfl⟩
    exact ⟨q, events, hrun, q', e, hstep, rfl, rfl⟩

end RequestQueue

end Hivemind
