import Hivemind.Replica
import Hivemind.Scheduler

/-! Executing committed entries, and the effects that become visible once the
commit is durable: worker frames, the client table and client replies. -/
namespace Hivemind

namespace Core

variable (c : Core)

def findClient (clientId : ℕ) : Option ClientEntry :=
  c.clientTable.find? (fun e => e.clientId == clientId && e.active)

def hasPendingClientReply (clientId requestId : ℕ) : Bool :=
  slots.any (fun i => c.pendingReply i && c.pendingReplyClientId i == clientId &&
    c.pendingReplyRequestId i == requestId)

def hasPendingRequest (clientId requestId : ℕ) : Bool :=
  (opsAbove c.commitMax c.opNumber).any (fun op =>
    match c.journalGet op with
    | none => false
    | some e => e.clientId == clientId && e.requestId == requestId)

/-- `none` is the failed assertion that the table has room. -/
def updateClientTable (clientId requestId : ℕ) (result : Result) (op : ℕ) : Option Core :=
  match c.clientTable.findIdx? (fun e => e.clientId == clientId) with
  | some i =>
    some { c with clientTable := c.clientTable.modify i (fun e => { e with requestId, result, op }) }
  | none =>
    if c.clientTable.length < clientTableMax then
      some { c with clientTable := c.clientTable ++ [{ clientId, requestId, result, op }] }
    else none

/-- Queue the reply of an executed op until its commit is durable. -/
def queueReply (op : ℕ) (e : LogEntry) (result : Result) : Core :=
  { c with
    pendingReply := upd c.pendingReply (journalSlot op) true
    pendingReplyClientId := upd c.pendingReplyClientId (journalSlot op) e.clientId
    pendingReplyRequestId := upd c.pendingReplyRequestId (journalSlot op) e.requestId
    pendingReplyResult := upd c.pendingReplyResult (journalSlot op) result }

/-- The protocol part of `commitEntry`: the state machine moves to `sm` and `op`
becomes the last executed op. -/
def executed (op : ℕ) (e : LogEntry) (sm : StateMachine) (result : Result) : Core :=
  { c.queueReply op e result with
    stateMachine := sm
    commitMin := op
    replicaCommitMin := upd c.replicaCommitMin c.replicaId op
    metadataDirty := true }

/-- Raise the known commit bound; a raise is recorded. -/
def raiseCommitMax (op : ℕ) (byVotes : Bool) : Core :=
  { c with
    commitMax := max c.commitMax op
    history := if op ≤ c.commitMax then c.history
      else c.history ++ [⟨.raised c.commitMax op byVotes, c.snapshot⟩] }

end Core

namespace Replica

variable (s : Replica)

/-! ### Workers -/

def findWorkerForNode (nodeId : ℕ) : Option ℕ :=
  (List.range s.workerCount).find? (fun i => (s.workers i).connected &&
    (s.workers i).nodeId == nodeId)

/-- Sending a deployment with more variables than a frame holds stops the process. -/
def dispatchPodToWorker (podId nodeId : ℕ) : Outcome :=
  match s.findWorkerForNode nodeId with
  | none => .ok s
  | some workerIdx =>
    match s.stateMachine.findPod podId with
    | none => .ok s
    | some pod =>
      match s.stateMachine.findDeployment pod.deploymentId with
      | none => .ok s
      | some dep =>
        if !s.workerSendSet then .ok s
        else if dep.envCount > startPodEnvMax then .error s
        else .ok { s with workerFrames := s.workerFrames ++ [(workerIdx, .startPod podId dep)] }

/-- Dispatch a list of pods bound to one node. -/
def dispatchAll (nodeId : ℕ) : List ℕ → Replica → Outcome
  | [], s => .ok s
  | podId :: rest, s => (s.dispatchPodToWorker podId nodeId).bind (dispatchAll nodeId rest)

def dispatchPodsForWorkerMatching (workerIdx : ℕ) (includeRunning : Bool) : Outcome :=
  if workerIdx ≥ s.workerCount then .ok s
  else if !(s.workers workerIdx).connected then .ok s
  else
    let nodeId := (s.workers workerIdx).nodeId
    if nodeId = 0 then .ok s
    else
      let due := s.stateMachine.pods.filter (fun p => p.active && p.nodeId == nodeId &&
        (match p.phase with
          | .pending | .scheduled => true
          | .running => includeRunning
          | .succeeded | .failed | .terminating => false))
      dispatchAll nodeId (due.map (·.id)) s

def dispatchPodsForWorker (workerIdx : ℕ) : Outcome :=
  s.dispatchPodsForWorkerMatching workerIdx true

def dispatchScheduledPodsForWorker (workerIdx : ℕ) : Outcome :=
  s.dispatchPodsForWorkerMatching workerIdx false

def dispatchStopPodToWorker (d : StopDispatch) : Replica :=
  if d.workerIdx ≥ s.workerCount || !(s.workers d.workerIdx).connected then s
  else if !s.workerSendSet then s
  else { s with
    workerFrames := s.workerFrames ++ [(d.workerIdx, .stopPod d.podId d.gracePeriodMs)] }

def stopDispatch (workerIdx podId : ℕ) : StopDispatch := ⟨workerIdx, podId, defaultStopGraceMs⟩

/-- The stops of a scale-down: the first `excess` live pods, those on a reachable worker. -/
def scaleDownStops (deploymentId : ℕ) : ℕ → List Pod → List StopDispatch
  | 0, _ => []
  | _, [] => []
  | excess + 1, pod :: rest =>
    if !pod.active || pod.deploymentId != deploymentId || pod.phase == .terminating then
      scaleDownStops deploymentId (excess + 1) rest
    else
      match if pod.nodeId = 0 then none else s.findWorkerForNode pod.nodeId with
      | some w => stopDispatch w pod.id :: scaleDownStops deploymentId excess rest
      | none => scaleDownStops deploymentId excess rest

def collectStopDispatches (command : Command) : List StopDispatch :=
  match command with
  | .deleteDeployment id =>
    (s.stateMachine.pods.filterMap (fun pod =>
      if !pod.active || pod.deploymentId != id || pod.nodeId == 0 then none
      else (s.findWorkerForNode pod.nodeId).map (fun w => stopDispatch w pod.id))).take maxPods
  | .unbindPod podId =>
    match s.stateMachine.findPod podId with
    | none => []
    | some pod =>
      if pod.active && pod.nodeId != 0 then
        match s.findWorkerForNode pod.nodeId with
        | none => []
        | some w => [stopDispatch w pod.id]
      else []
  | .scaleDeployment id desired =>
    match s.stateMachine.findDeployment id with
    | none => []
    | some dep =>
      if desired ≥ dep.replicas then []
      else (s.scaleDownStops id (dep.replicas - desired) s.stateMachine.pods).take maxPods
  | _ => []

/-! ### Commit -/

/-- Remember the stop frames of a successful command until its commit is durable. -/
def queueStops (op : ℕ) (result : Result) (stops : List StopDispatch) : Outcome :=
  if result.isOk && stops.length > 0 then
    if s.pendingStops.length + stops.length ≤ maxPendingStops then
      .ok { s with pendingStops := s.pendingStops ++ stops.map (fun d => (op, d)) }
    else .error s
  else .ok s

/-- What is recorded when `command` takes the tables to `sm`. -/
def execution (op : ℕ) (command : Command) (sm : StateMachine) (result : Result) : Executed :=
  { op
    before := s.stateMachine
    after := sm
    waiting := s.pendingStops.length
    stops := if result.isOk then (s.collectStopDispatches command).length else 0 }

def commitEntry (op : ℕ) : Outcome :=
  if op ≠ s.commitMin + 1 then .error s
  else match s.journalGet op with
    | none => .error s
    | some e =>
      let stops := s.collectStopDispatches e.command
      match s.stateMachine.apply e.command with
      | none => .error s
      | some (sm, result) =>
        let done := s.execution op e.command sm result
        let s := s.core (fun c => c.executed op e sm result)
        let s := { s with
          pendingEffect := upd s.pendingEffect (journalSlot op) true
          executions := s.executions ++ [done] }
        s.queueStops op result stops

/-- Execute entries in order up to `limit`, stopping at the first missing one. -/
def commitLoop (limit : ℕ) : ℕ → Replica → Outcome
  | 0, s => .ok s
  | fuel + 1, s =>
    if s.commitMin < limit then
      if !s.journalHas (s.commitMin + 1) then .ok s
      else (s.commitEntry (s.commitMin + 1)).bind (commitLoop limit fuel)
    else .ok s

def advanceCommitMin : Outcome := commitLoop s.commitMax (s.commitMax - s.commitMin) s

def commitUpTo (target : ℕ) : Outcome :=
  let limit := min target s.opNumber
  let s := s.core (fun c => c.raiseCommitMax limit false)
  commitLoop limit (limit - s.commitMin) s

/-- The voting loop of `advanceCommit`. -/
def countVotes : ℕ → Core → Core
  | 0, c => c
  | fuel + 1, c =>
    if c.commitMax < c.opNumber then
      if !c.journalHas (c.commitMax + 1) then c
      else if c.prepareOkCounts (journalSlot (c.commitMax + 1)) < c.quorumSize then c
      else countVotes fuel (c.raiseCommitMax (c.commitMax + 1) true)
    else c

def advanceCommit : Outcome :=
  (s.core (countVotes (s.opNumber - s.commitMax))).advanceCommitMin

/-! ### Publication of committed effects -/

/-- Dispatch and drop the pending stops of `op`; a dropped one is replaced by the last. -/
def publishStops (op : ℕ) : ℕ → ℕ → Replica → Replica
  | 0, _, s => s
  | fuel + 1, i, s =>
    match s.pendingStops[i]? with
    | none => s
    | some (stopOp, d) =>
      if stopOp = op then
        let s := s.dispatchStopPodToWorker d
        let moved := match s.pendingStops.getLast? with
          | some last => s.pendingStops.set i last
          | none => s.pendingStops
        publishStops op fuel i { s with pendingStops := moved.dropLast }
      else publishStops op fuel (i + 1) s

def agentMarker : ℕ := 0xA6E0_0000_0000_0000

/-- A committed registration of a worker assigns its node and sends it its pods. -/
def publishRegistration (clientId nodeId : ℕ) : Outcome :=
  if clientId &&& agentMarker = agentMarker then
    let workerIdx := clientId &&& 0xFFFF
    if workerIdx < s.workerCount then
      let w := { s.workers workerIdx with nodeId := nodeId, pendingRegister := false }
      ({ s with workers := upd s.workers workerIdx w }).dispatchPodsForWorker workerIdx
    else .ok s
  else .ok s

def dispatchBindings : List PodBinding → Replica → Outcome
  | [], s => .ok s
  | b :: rest, s => (s.dispatchPodToWorker b.podId b.nodeId).bind (dispatchBindings rest)

def publishWorkerEffect (e : LogEntry) (entityId : ℕ) : Outcome :=
  match e.command with
  | .registerNode _ => s.publishRegistration e.clientId entityId
  | .bindPodToNode podId nodeId => s.dispatchPodToWorker podId nodeId
  | .bindPodsToNodes cmd => dispatchBindings (cmd.bindings.take cmd.count) s
  | _ => .ok s

/-- The `pending_effect` half of `publishCommittedEffect`; a failed result leaves
the flag set. -/
def publishEffect (op : ℕ) (e : LogEntry) (result : Result) : Outcome :=
  if s.pendingEffect (journalSlot op) then
    match result with
    | .err _ => .ok s
    | .ok entityId =>
      let s := publishStops op s.pendingStops.length 0 s
      (s.publishWorkerEffect e entityId).map (fun s =>
        { s with pendingEffect := upd s.pendingEffect (journalSlot op) false })
  else .ok s

/-- The `pending_reply` half: client table first, then the callback. -/
def publishReply (op : ℕ) : Outcome :=
  let slot := journalSlot op
  if s.pendingReply slot then
    let clientId := s.pendingReplyClientId slot
    let requestId := s.pendingReplyRequestId slot
    let result := s.pendingReplyResult slot
    match s.updateClientTable clientId requestId result op with
    | none => .error s
    | some c =>
      let c := c.replyTo clientId requestId result (some op)
      .ok { s with toCore := { c with pendingReply := upd c.pendingReply slot false } }
  else .ok s

def publishCommittedEffect (op : ℕ) : Outcome :=
  match s.journalGet op with
  | none => .error s
  | some e =>
    (s.publishEffect op e (s.pendingReplyResult (journalSlot op))).bind
      (fun s => s.publishReply op)

def publishCommitEffectsAt : List ℕ → Replica → Outcome
  | [], s => .ok s
  | op :: rest, s =>
    if (s.pendingReply (journalSlot op) || s.pendingEffect (journalSlot op)) && s.journalHas op then
      (s.publishCommittedEffect op).bind (publishCommitEffectsAt rest)
    else publishCommitEffectsAt rest s

def publishCommitEffects : Outcome := publishCommitEffectsAt (opsAbove 0 s.commitMin) s

end Replica

end Hivemind
