import Hivemind.StateMachine

/-! Deployment, scaling and killswitch handlers, and `StateMachine.apply`. -/
namespace Hivemind

namespace StateMachine

variable (sm : StateMachine)

def setDeployment (idx : ℕ) (f : Deployment → Deployment) : StateMachine :=
  { sm with deployments := sm.deployments.modify idx f }

def deploymentOf (cmd : CreateDeploymentCmd) (id : ℕ) : Deployment :=
  { id
    name := cmd.name
    namespaceName := cmd.namespaceName
    image := cmd.image
    entrypoint := cmd.entrypoint
    port := cmd.port
    replicas := cmd.replicas
    cpuMillicores := cmd.cpuMillicores
    memoryMegabytes := cmd.memoryMegabytes
    gpuType := cmd.gpuType
    gpuCount := cmd.gpuCount
    minReplicas := cmd.minReplicas
    maxReplicas := cmd.maxReplicas
    scaleToZeroAfterMs := cmd.scaleToZeroAfterMs
    targetQueueDepth := cmd.targetQueueDepth
    liveness := cmd.liveness
    readiness := cmd.readiness
    startupTimeoutMs := cmd.startupTimeoutMs
    juicefsPath := cmd.juicefsPath
    envVars := cmd.envVars
    envCount := cmd.envCount
    imagePullRegistry := cmd.imagePullRegistry
    imagePullUsername := cmd.imagePullUsername
    imagePullPassword := cmd.imagePullPassword
    imagePullPasswordIsSecret := cmd.imagePullPasswordIsSecret
    trafficRules := List.replicate 4 {}
    trafficRuleCount := 0
    version := 1
    previousImage := zeroes 256
    previousVersion := 0
    paused := false
    readyReplicas := 0
    active := true
    lastRequestTick := 0 }

def handleCreateDeployment (cmd : CreateDeploymentCmd) : StateMachine × Result :=
  match sm.findInactiveDeploymentIndex with
  | some idx =>
    let (id, sm) := sm.generateId
    let sm := { sm with deployments := sm.deployments.set idx (deploymentOf cmd id) }
    (appendPods id 0 cmd.replicas sm, .ok id)
  | none =>
    if sm.deployments.length ≥ maxDeployments then (sm, .err .capacityExceeded)
    else
      let (id, sm) := sm.generateId
      let sm := { sm with deployments := sm.deployments ++ [deploymentOf cmd id] }
      (appendPods id 0 cmd.replicas sm, .ok id)

/-- The `ready_replicas` bookkeeping of `handleUpdatePodStatus`; `none` on overflow. -/
def countReady (dep : Deployment) (oldPhase newPhase : PodPhase) : Option Deployment :=
  if oldPhase ≠ .running ∧ newPhase = .running then
    if dep.readyReplicas + 1 > u32Max then none
    else some { dep with readyReplicas := dep.readyReplicas + 1 }
  else if oldPhase = .running ∧ newPhase ≠ .running then
    some { dep with readyReplicas := dep.readyReplicas - 1 }
  else some dep

def countReadyAt (id : ℕ) (oldPhase newPhase : PodPhase) : Option StateMachine :=
  match sm.findDeploymentIndex id, sm.findDeployment id with
  | some idx, some dep =>
    (countReady dep oldPhase newPhase).map (fun dep =>
      sm.setDeployment idx (fun d => { d with readyReplicas := dep.readyReplicas }))
  | _, _ => some sm

def handleUpdatePodStatus (podId : ℕ) (newPhase : PodPhase) :
    Option (StateMachine × Result) :=
  match sm.findPodIndex podId, sm.findPod podId with
  | some podIdx, some pod =>
    match sm.countReadyAt pod.deploymentId pod.phase newPhase with
    | none => none
    | some sm =>
      if newPhase = .succeeded ∨ newPhase = .failed then
        match sm.releaseOnNode pod with
        | none => none
        | some sm =>
          let sm := sm.setPod podIdx (fun p =>
            { p with phase := newPhase, nodeId := 0, active := false })
          let sm :=
            if newPhase = .failed then sm.ensureDeploymentReplicaCount pod.deploymentId else sm
          some (sm, .ok podId)
      else some (sm.setPod podIdx (fun p => { p with phase := newPhase }), .ok podId)
  | _, _ => some (sm, .err .notFound)

/-- Terminate pod `i` of deployment slot `depIdx`, counting it out if it was running. -/
def terminatePod (depIdx i : ℕ) (pod : Pod) : StateMachine :=
  let sm := if pod.phase = .running then
      sm.setDeployment depIdx (fun d => { d with readyReplicas := d.readyReplicas - 1 })
    else sm
  sm.setPod i (fun p => { p with phase := .terminating, active := false })

/-- The scale-down loop over the pod table. -/
def terminateExcess (id : ℕ) (depIdx : ℕ) :
    List ℕ → ℕ → StateMachine → StateMachine
  | [], _, sm => sm
  | _ :: _, 0, sm => sm
  | i :: rest, excess + 1, sm =>
    match sm.pods[i]? with
    | none => terminateExcess id depIdx rest (excess + 1) sm
    | some pod =>
      if !pod.active || pod.deploymentId != id || pod.phase == .terminating then
        terminateExcess id depIdx rest (excess + 1) sm
      else terminateExcess id depIdx rest excess (sm.terminatePod depIdx i pod)

def handleScaleDeployment (id : ℕ) (desiredReplicas : ℕ) : StateMachine × Result :=
  match sm.findDeploymentIndex id, sm.findDeployment id with
  | some depIdx, some dep =>
    let oldReplicas := dep.replicas
    let sm := sm.setDeployment depIdx (fun d => { d with replicas := desiredReplicas })
    if desiredReplicas > oldReplicas then
      (appendPods id oldReplicas (desiredReplicas - oldReplicas) sm, .ok id)
    else
      (terminateExcess id depIdx (List.range sm.pods.length) (oldReplicas - desiredReplicas) sm,
        .ok id)
  | _, _ => (sm, .err .notFound)

def handleUnbindPod (podId : ℕ) : StateMachine × Result :=
  match sm.findPodIndex podId, sm.findPod podId with
  | some podIdx, some pod =>
    match sm.findDeploymentIndex pod.deploymentId with
    | some depIdx => (sm.terminatePod depIdx podIdx pod, .ok podId)
    | none =>
      (sm.setPod podIdx (fun p => { p with phase := .terminating, active := false }), .ok podId)
  | _, _ => (sm, .err .notFound)

/-- The shape shared by the handlers that only rewrite one deployment:
`f` returns an error code, or `none` on overflow. -/
def updateDeploymentAt (id : ℕ)
    (f : Deployment → Option (Except ErrorCode Deployment)) : Option (StateMachine × Result) :=
  match sm.findDeploymentIndex id, sm.findDeployment id with
  | some idx, some dep =>
    match f dep with
    | none => none
    | some (.error code) => some (sm, .err code)
    | some (.ok dep) => some ({ sm with deployments := sm.deployments.set idx dep }, .ok id)
  | _, _ => some (sm, .err .notFound)

def handleUpdateDeployment (cmd : UpdateDeploymentCmd) : Option (StateMachine × Result) :=
  sm.updateDeploymentAt cmd.deploymentId (fun dep =>
    if dep.version + 1 > u32Max then none
    else some (.ok { dep with
      previousImage := dep.image
      previousVersion := dep.version
      image := cmd.image
      entrypoint := cmd.entrypoint
      port := if cmd.port != 0 then cmd.port else dep.port
      cpuMillicores := if cmd.cpuMillicores != 0 then cmd.cpuMillicores else dep.cpuMillicores
      memoryMegabytes :=
        if cmd.memoryMegabytes != 0 then cmd.memoryMegabytes else dep.memoryMegabytes
      gpuType := if cmd.gpuType != .none then cmd.gpuType else dep.gpuType
      gpuCount := if cmd.gpuCount != 0 then cmd.gpuCount else dep.gpuCount
      envVars := cmd.envVars
      envCount := cmd.envCount
      version := dep.version + 1 }))

def handleSetTrafficSplit (cmd : SetTrafficSplitCmd) : Option (StateMachine × Result) :=
  sm.updateDeploymentAt cmd.deploymentId (fun dep =>
    some (.ok { dep with trafficRules := cmd.rules, trafficRuleCount := cmd.ruleCount }))

def handleRollbackDeployment (id : ℕ) : Option (StateMachine × Result) :=
  sm.updateDeploymentAt id (fun dep =>
    if dep.previousVersion = 0 then some (.error .invalidTransition)
    else if dep.version + 1 > u32Max then none
    else some (.ok { dep with
      image := dep.previousImage
      previousImage := dep.image
      previousVersion := dep.version
      version := dep.version + 1 }))

def handlePauseDeployment (id : ℕ) : Option (StateMachine × Result) :=
  sm.updateDeploymentAt id (fun dep => some (.ok { dep with paused := true }))

def handleResumeDeployment (id : ℕ) : Option (StateMachine × Result) :=
  sm.updateDeploymentAt id (fun dep => some (.ok { dep with paused := false }))

/-- The pod loop of `handleDeleteDeployment`. -/
def deletePods (id : ℕ) (depIdx : ℕ) : List ℕ → StateMachine → Option StateMachine
  | [], sm => some sm
  | i :: rest, sm =>
    match sm.pods[i]? with
    | none => deletePods id depIdx rest sm
    | some pod =>
      if pod.deploymentId != id || !pod.active then deletePods id depIdx rest sm
      else
        match sm.releaseOnNode pod with
        | none => none
        | some sm =>
          let sm := sm.terminatePod depIdx i pod
          deletePods id depIdx rest (sm.setPod i (fun p => { p with nodeId := 0 }))

def handleDeleteDeployment (id : ℕ) : Option (StateMachine × Result) :=
  match sm.findDeploymentIndex id with
  | none => some (sm, .err .notFound)
  | some depIdx =>
    let sm := sm.setDeployment depIdx (fun d => { d with active := false })
    (deletePods id depIdx (List.range sm.pods.length) sm).map (fun sm => (sm, .ok id))

def handleSetKillswitch (nodeId : ℕ) (deploymentId : ℕ) (active : Bool) :
    StateMachine × Result :=
  match sm.killswitches.findIdx? (fun k =>
      k.nodeId == nodeId && k.deploymentId == deploymentId) with
  | some i =>
    ({ sm with killswitches := sm.killswitches.modify i (fun k => { k with active }) }, .ok 0)
  | none =>
    if !active then (sm, .ok 0)
    else if sm.killswitches.length ≥ maxKillswitches then (sm, .err .capacityExceeded)
    else ({ sm with killswitches := sm.killswitches ++ [⟨nodeId, deploymentId, true⟩] }, .ok 0)

/-- `apply`: execute one committed command; `none` where the source stops on overflow. -/
def apply : Command → Option (StateMachine × Result)
  | .registerNode cmd => some (sm.handleRegisterNode cmd)
  | .deregisterNode nodeId => some (sm.handleDeregisterNode nodeId)
  | .updateNodeStatus nodeId newStatus => some (sm.handleUpdateNodeStatus nodeId newStatus)
  | .createDeployment cmd => some (sm.handleCreateDeployment cmd)
  | .bindPodToNode podId nodeId => some (sm.handleBindPodToNode podId nodeId)
  | .bindPodsToNodes cmd => sm.handleBindPodsToNodes cmd
  | .updatePodStatus podId newPhase => sm.handleUpdatePodStatus podId newPhase
  | .scaleDeployment id desiredReplicas => some (sm.handleScaleDeployment id desiredReplicas)
  | .unbindPod podId => some (sm.handleUnbindPod podId)
  | .setKillswitch nodeId deploymentId active =>
    some (sm.handleSetKillswitch nodeId deploymentId active)
  | .noop => some (sm, .ok 0)
  | .updateDeployment cmd => sm.handleUpdateDeployment cmd
  | .setTrafficSplit cmd => sm.handleSetTrafficSplit cmd
  | .rollbackDeployment id => sm.handleRollbackDeployment id
  | .deleteDeployment id => sm.handleDeleteDeployment id
  | .pauseDeployment id => sm.handlePauseDeployment id
  | .resumeDeployment id => sm.handleResumeDeployment id

/-- The router's write of `last_request_tick` through `findDeploymentMut`. -/
def touchDeployment (id : ℕ) (now : ℕ) : StateMachine :=
  match sm.findDeploymentIndex id with
  | none => sm
  | some idx => sm.setDeployment idx (fun d => { d with lastRequestTick := now })

end StateMachine

end Hivemind
