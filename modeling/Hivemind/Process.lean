import Hivemind.Flush

/-! The entry points of a replica: `tick`, `onMessage`, the worker callbacks, and
start-up with recovery from disk. -/
namespace Hivemind

namespace Core

variable (c : Core)

/-- Resend what is durable but not yet acknowledged by a quorum. -/
def resendPrepares : List ℕ → Core → Core
  | [], c => c
  | op :: rest, c =>
    resendPrepares rest (match c.journalGet op with
      | none => c
      | some e =>
        if c.isDurablePrepare op && c.prepareOkCounts (journalSlot op) < c.quorumSize then
          c.sendToAllOthers (c.prepareFor op e)
        else c)

def resendUncommittedPrepares : Core := resendPrepares (opsAbove c.commitMin c.opNumber) c

def commitMessage (commitChecksum : ℕ) : Message :=
  .commit
    { viewNumber := c.viewNumber
      commitMin := c.commitMin
      commitMax := c.commitMax
      opNumber := c.opNumber
      retentionFloor := 0
      commitChecksum }

/-- No heartbeat names a nonzero commit without its checksum. -/
def sendCommitHeartbeat : Core :=
  let target := max c.commitMin c.commitMax
  match c.checksumAt target with
  | none => c
  | some checksum =>
    if target > 0 ∧ checksum = 0 then c else c.sendToAllOthers (c.commitMessage checksum)

end Core

namespace Replica

variable (hash : Hash) (env : Env) (s : Replica)

def nowUnsigned : ℕ := (max 0 env.now).toNat

/-- Submit the scale-to-zero decisions of a scheduler round. -/
def submitScaleDowns : List ScaleDownAction → Replica → Replica
  | [], s => s
  | a :: rest, s =>
    submitScaleDowns rest (s.onRequest hash
      { clientId := 0xDEAD_5CA1_0000_0000 ||| a.deploymentId
        requestId := a.deploymentId
        command := .scaleDeployment a.deploymentId a.desiredReplicas })

def bindCommand (actions : List ScheduleAction) : BindPodsToNodesCmd :=
  { bindings := (actions.map (fun a => (⟨a.podId, a.nodeId⟩ : PodBinding))) ++
      List.replicate (bindBatchMax - actions.length) {}
    count := actions.length }

def tickScheduler : Outcome :=
  if !s.isLeader || s.status != .normal then .error s
  else
    let r := Scheduler.tick s.stateMachine s.scheduler (nowUnsigned env)
    let s := { s with scheduler := r.1 }
    let s := match r.2.actions with
      | [] => s
      | first :: _ => s.onRequest hash
          { clientId := 0xB17D_0000_0000_0000_0000_0000_0000_0000 ||| first.podId
            requestId := first.podId
            command := .bindPodsToNodes (bindCommand r.2.actions) }
    .ok (submitScaleDowns hash r.2.scaleDowns s)

/-- The leader's heartbeat, with the prepares that still lack a quorum. -/
def tickHeartbeat : Replica :=
  if env.now - s.lastHeartbeat ≥ heartbeatInterval then
    let s := { s.core Core.sendCommitHeartbeat with lastHeartbeat := env.now }
    if s.repairPending then s else s.core Core.resendUncommittedPrepares
  else s

def tickLeader : Outcome :=
  let s := s.tickHeartbeat env
  if s.repairPending then s.tickRepair else s.tickScheduler hash env

def tickFollower : Outcome := do
  let s ← if s.transferPending then s.tickTransfer
    else if env.now - s.lastLeaderActivity ≥ heartbeatInterval ∧
        env.now - s.lastHeartbeat ≥ heartbeatInterval then
      .ok { s.core (fun c => c.sendTo c.leader (.requestStatus c.viewNumber)) with
        lastHeartbeat := env.now }
    else .ok s
  if env.now - s.lastLeaderActivity ≥ viewChangeTimeout then
    s.initiateViewChange hash env (abortSelectedView hash env)
  else .ok s

def tickViewChange : Outcome :=
  if s.pendingStartView.active then
    s.assert (s.viewChangeCandidate.phase == .persistingStartView)
  else if s.pendingViewSelection then
    let deadline := s.viewChangeCandidate.info.deadlineTick
    if deadline > 0 ∧ env.now ≥ 0 ∧ env.now.toNat ≥ deadline then s.abortSelectedView hash env
    else s.advanceSelectedView hash (abortSelectedView hash env)
  else
    let timeout := if s.recoveredFromDisk then recoveredViewChangeTimeout else viewChangeTimeout * 2
    if env.now - s.lastLeaderActivity ≥ timeout then
      s.initiateViewChange hash env (abortSelectedView hash env)
    else .ok s

/-- Timers start at the first tick. -/
def startTimers : Replica :=
  { s with
    lastHeartbeat := if s.lastHeartbeat = 0 then env.now else s.lastHeartbeat
    lastLeaderActivity := if s.lastLeaderActivity = 0 then env.now else s.lastLeaderActivity }

/-- The disk calls of this tick fail as the environment says. -/
def armFaults : Replica :=
  { s with disk := s.disk.map (fun d => { d with faults := env.faults }) }

/-- Execute what is known to be committed. -/
def catchUp : Outcome :=
  if s.status = .normal ∧ s.commitMax > s.commitMin then s.advanceCommitMin else .ok s

/-- What `tick` does before the flush. -/
def tickProtocol : Outcome := do
  let s ← (s.startTimers env).catchUp
  match s.status with
  | .normal => if s.isLeader then s.tickLeader hash env else s.tickFollower hash env
  | .viewChange => s.tickViewChange hash env
  | .recovering => .ok s

def tick : Outcome :=
  if s.storageFailed then .ok s
  else ((s.armFaults env).tickProtocol hash env).bind (fun s => s.flushDurableState hash env)

/-! ### Message dispatch -/

def deferredHigherViewTarget (src : ℕ) : Message → Option ℕ
  | .startViewChange m =>
    if m.replicaId = src ∧ viewNumberValid m.viewNumber = true then some m.viewNumber else none
  | .prepare m =>
    if src = s.leaderForView m.viewNumber ∧ prepareSemanticsValid hash m = true
    then some m.viewNumber else none
  | .commit m =>
    if src = s.leaderForView m.viewNumber ∧ commitSemanticsValid m = true
    then some m.viewNumber else none
  | .startView m =>
    if src = s.leaderForView m.viewNumber ∧ startViewEntriesValid hash m = true
    then some m.viewNumber else none
  | _ => none

/-- While a publication is pending only its view's higher successors are noted. -/
def deferView (src : ℕ) (m : Message) : Replica :=
  match s.deferredHigherViewTarget hash src m with
  | some v => if v > s.pendingStartView.targetView then
      { s with deferredViewTarget := max s.deferredViewTarget v } else s
  | none => s

def servedWhilePending : Message → Bool
  | .request _ | .reply _ | .requestPrepare _ => true
  | _ => false

/-- What a follower that is adopting a `StartView` still listens to. -/
def servedWhileAdopting : Message → Bool
  | .sendPrepare _ | .startView _ | .startViewChange _ | .requestPrepare _ => true
  | _ => false

def dispatch (src : ℕ) : Message → Outcome
  | .request m => .ok (s.onRequest hash m)
  | .prepare m => s.onPrepare hash env src m
  | .prepareOk m => s.onPrepareOk src m
  | .commit m => s.onCommit env src m
  | .startViewChange m => s.onStartViewChange hash env src m
  | .doViewChange m => s.onDoViewChange hash env src m
  | .startView m => s.onStartView hash env src m
  | .requestPrepare m => .ok (s.onRequestPrepare src m)
  | .sendPrepare m => s.onSendPrepare hash env src m
  | .requestStatus v => s.onRequestStatus src v
  | .sendStatus m => s.onSendStatus env src m
  | .requestStartView v => .ok (s.onRequestStartView src v)
  | .reply _ => .ok s

def onMessage (src : ℕ) (m : Message) : Outcome :=
  if s.storageFailed then .ok s
  else if src ≥ s.replicaCount then .ok s
  else
    let pending := s.pendingStartView.active
    let s := if pending then s.deferView hash src m else s
    if pending && !servedWhilePending m then .ok s
    else if s.pendingViewSelection && !s.leadsTarget && !servedWhileAdopting m then .ok s
    else s.dispatch hash env src m

/-! ### Worker entry points -/

/-- `onWorkerRegister`; an overflowing sequence number stops the process. -/
def onWorkerRegister (workerIdx : ℕ) (m : WorkerRegisterMsg) : Outcome :=
  if workerIdx ≥ maxWorkers then .ok s
  else
    let priorSeq := if workerIdx < s.workerCount then (s.workers workerIdx).registerSeq else 0
    if priorSeq + 1 ≥ 2 ^ 64 then .error s
    else
      let w : WorkerConnection :=
        { hostname := m.hostname
          connected := true
          lastHeartbeatTick := env.now
          lastDispatchRetryTick := 0
          gpuType := m.gpuType
          gpuCount := m.gpuCount
          pendingRegister := true
          registerSeq := priorSeq + 1 }
      let s := { s with
        workers := upd s.workers workerIdx w
        workerCount := if workerIdx ≥ s.workerCount then workerIdx + 1 else s.workerCount }
      if s.isLeader && s.status == .normal && !s.repairPending then
        .ok (s.onRequest hash
          { clientId := agentMarker ||| workerIdx
            requestId := (nowUnsigned env <<< 32) ||| (priorSeq + 1)
            command := .registerNode
              { nodeName := m.hostname
                cpuMillicores := m.cpuMillicores
                memoryMegabytes := m.memoryMegabytes
                gpuType := m.gpuType
                gpuCount := m.gpuCount
                provider := m.provider
                region := m.region } })
      else .ok s

def onWorkerDisconnect (workerIdx : ℕ) : Replica :=
  if workerIdx ≥ s.workerCount then s
  else { s with
    workers := upd s.workers workerIdx { s.workers workerIdx with connected := false } }

def onWorkerHeartbeat (workerIdx : ℕ) : Outcome :=
  if workerIdx ≥ s.workerCount then .ok s
  else if !(s.workers workerIdx).connected then .ok s
  else
    let w := { s.workers workerIdx with lastHeartbeatTick := env.now }
    let s := { s with workers := upd s.workers workerIdx w }
    if s.isLeader && s.status == .normal && !s.repairPending && w.nodeId != 0 &&
        decide (env.now - w.lastDispatchRetryTick ≥ workerDispatchRetryInterval) then
      (s.dispatchScheduledPodsForWorker workerIdx).map (fun s =>
        let w := { s.workers workerIdx with lastDispatchRetryTick := env.now }
        { s with workers := upd s.workers workerIdx w })
    else .ok s

def onWorkerPodStatus (workerIdx : ℕ) (m : WorkerPodStatusMsg) : Replica :=
  if workerIdx ≥ s.workerCount then s
  else if !(s.workers workerIdx).connected then s
  else if s.isLeader && s.status == .normal && !s.repairPending then
    s.onRequest hash
      { clientId := agentMarker ||| (workerIdx <<< 32) ||| m.podId
        requestId := (m.podId <<< 64) ||| m.newPhase.toNat
        command := .updatePodStatus m.podId m.newPhase }
  else s

end Replica

end Hivemind
