import Hivemind.Message

/-! The deterministic state machine of `state_machine.zig`: the node, deployment,
pod and killswitch tables, and `apply`. A table is the list of its live slots.
Arithmetic that would leave its unsigned type stops the process in the source
(safety-checked builds), so handlers that can overflow return `none` there. -/
namespace Hivemind

/-- Xorshift64 of `prng.zig`. -/
structure Prng where
  state : UInt64
  deriving DecidableEq

namespace Prng

def init (seed : UInt64) : Prng := ⟨if seed = 0 then 1 else seed⟩

def next (p : Prng) : UInt64 × Prng :=
  let x := p.state
  let x := x ^^^ (x <<< 13)
  let x := x ^^^ (x >>> 7)
  let x := x ^^^ (x <<< 17)
  (x, ⟨x⟩)

def bounded (p : Prng) (bound : ℕ) : ℕ × Prng := (p.next.1.toNat % bound, p.next.2)

end Prng

def maxNodes : ℕ := 128
def maxDeployments : ℕ := 64
def maxPods : ℕ := 512
def maxKillswitches : ℕ := 64

structure Node where
  id : ℕ
  name : Bytes 64
  cpuMillicores : ℕ
  memoryMegabytes : ℕ
  gpuType : GpuType
  gpuCount : ℕ
  provider : Bytes 32
  region : Bytes 32
  status : NodeStatus
  allocatableCpu : ℕ
  allocatableMem : ℕ
  allocatableGpu : ℕ
  active : Bool
  deriving DecidableEq

structure Deployment where
  id : ℕ
  name : Bytes 64
  namespaceName : Bytes 64
  image : Bytes 256
  entrypoint : Bytes 256
  port : ℕ
  replicas : ℕ
  cpuMillicores : ℕ
  memoryMegabytes : ℕ
  gpuType : GpuType
  gpuCount : ℕ
  minReplicas : ℕ
  maxReplicas : ℕ
  scaleToZeroAfterMs : ℕ
  targetQueueDepth : ℕ
  liveness : ProbeConfig
  readiness : ProbeConfig
  startupTimeoutMs : ℕ
  juicefsPath : Bytes 128
  envVars : List EnvEntry
  envCount : ℕ
  imagePullRegistry : Bytes 128
  imagePullUsername : Bytes 64
  imagePullPassword : Bytes 256
  imagePullPasswordIsSecret : ℕ
  trafficRules : List TrafficRule
  trafficRuleCount : ℕ
  version : ℕ
  previousImage : Bytes 256
  previousVersion : ℕ
  paused : Bool
  readyReplicas : ℕ
  active : Bool
  lastRequestTick : ℕ := 0
  deriving DecidableEq

structure Pod where
  id : ℕ
  deploymentId : ℕ
  nodeId : ℕ
  name : Bytes 64
  namespaceName : Bytes 64
  phase : PodPhase
  cpuMillicores : ℕ
  memoryMegabytes : ℕ
  gpuType : GpuType
  gpuCount : ℕ
  deploymentVersion : ℕ
  active : Bool
  deriving DecidableEq

structure Killswitch where
  nodeId : ℕ
  deploymentId : ℕ
  active : Bool
  deriving DecidableEq

def validNodeTransition (src dst : NodeStatus) : Bool :=
  match src with
  | .provisioning => dst == .starting || dst == .terminated || dst == .ready
  | .starting => dst == .ready || dst == .terminated
  | .ready => dst == .unhealthy || dst == .draining
  | .unhealthy => dst == .ready || dst == .draining
  | .draining => dst == .terminating
  | .terminating => dst == .terminated
  | .terminated => false

/-- `podMemory i` is what the pod array holds at slot `i` beyond `pods`:
`appendPodForDeployment` claims a slot before it knows whether it will fill it. -/
structure StateMachine where
  seed : UInt64
  prng : Prng
  nodes : List Node
  deployments : List Deployment
  pods : List Pod
  podMemory : ℕ → Pod
  killswitches : List Killswitch

namespace StateMachine

/-- Reinitialisation resets the counters; slot contents stay in memory. -/
def initInPlace (sm : StateMachine) (seed : UInt64) : StateMachine :=
  { seed
    prng := Prng.init seed
    nodes := []
    deployments := []
    pods := []
    podMemory := fun i => sm.pods.getD i (sm.podMemory i)
    killswitches := [] }

variable (sm : StateMachine)

def findActiveNodeIndexByName (name : Bytes 64) : Option ℕ :=
  sm.nodes.findIdx? (fun n => n.active && n.name == name)

def findNodeIndex (id : ℕ) : Option ℕ := sm.nodes.findIdx? (fun n => n.id == id)

def findPodIndex (id : ℕ) : Option ℕ := sm.pods.findIdx? (fun p => p.id == id)

def findInactivePodIndex : Option ℕ :=
  sm.pods.findIdx? (fun p => !p.active && p.nodeId == 0)

def findDeploymentIndex (id : ℕ) : Option ℕ :=
  sm.deployments.findIdx? (fun d => d.id == id)

def findInactiveDeploymentIndex : Option ℕ := sm.deployments.findIdx? (fun d => !d.active)

def findNode (id : ℕ) : Option Node := sm.nodes.find? (fun n => n.id == id)

def findPod (id : ℕ) : Option Pod := sm.pods.find? (fun p => p.id == id)

def findDeployment (id : ℕ) : Option Deployment :=
  sm.deployments.find? (fun d => d.id == id)

def getActivePodCount (id : ℕ) : ℕ :=
  sm.pods.countP (fun p => p.active && p.deploymentId == id)

def generateId : ℕ × StateMachine := (sm.prng.next.1.toNat, { sm with prng := sm.prng.next.2 })

/-- One iteration of `recomputeNodeAllocatable`: saturating subtraction of a pod's demand. -/
def chargePod (n : Node) (p : Pod) : Node :=
  if !p.active || p.nodeId != n.id then n
  else { n with
    allocatableCpu := n.allocatableCpu - p.cpuMillicores
    allocatableMem := n.allocatableMem - p.memoryMegabytes
    allocatableGpu := if p.gpuCount > 0 then n.allocatableGpu - p.gpuCount else n.allocatableGpu }

def recomputeNodeAllocatable (idx : ℕ) : StateMachine :=
  { sm with nodes := sm.nodes.modify idx (fun n =>
      sm.pods.foldl chargePod { n with
        allocatableCpu := n.cpuMillicores
        allocatableMem := n.memoryMegabytes
        allocatableGpu := n.gpuCount }) }

/-- `bufPrint("{s}-{d}")` into the 64-byte name. -/
def podName (depName : Bytes 64) (ordinal : ℕ) : Bytes 64 :=
  strToFixed 64 (fixedToSlice depName ++ [45] ++
    (Nat.toDigits 10 ordinal).map (fun c => c.toNat.toUInt8))

def podOf (id : ℕ) (dep : Deployment) (podId : ℕ) (ordinal : ℕ) : Pod :=
  { id := podId
    deploymentId := id
    nodeId := 0
    name := podName dep.name ordinal
    namespaceName := dep.namespaceName
    phase := .pending
    cpuMillicores := dep.cpuMillicores
    memoryMegabytes := dep.memoryMegabytes
    gpuType := dep.gpuType
    gpuCount := dep.gpuCount
    deploymentVersion := dep.version
    active := true }

/-- The slot `appendPodForDeployment` claims: an inactive unbound one, else a new one. -/
def claimPodSlot : Option (ℕ × StateMachine) :=
  match sm.findInactivePodIndex with
  | some i => some (i, sm)
  | none =>
    if sm.pods.length ≥ maxPods then none
    else some (sm.pods.length, { sm with pods := sm.pods ++ [sm.podMemory sm.pods.length] })

/-- `appendPodForDeployment`; the flag is `false` where the source returns an
error. A claimed slot stays claimed when the deployment turns out to be missing
or inactive. -/
def appendPodForDeployment (id : ℕ) (ordinal : ℕ) : Bool × StateMachine :=
  match sm.claimPodSlot with
  | none => (false, sm)
  | some (i, sm) =>
    match sm.findDeployment id with
    | none => (false, sm)
    | some dep =>
      if !dep.active then (false, sm)
      else
        let (podId, sm) := sm.generateId
        (true, { sm with pods := sm.pods.set i (podOf id dep podId ordinal) })

/-- The `while (i < n)` loops that append pods until the first failure. -/
def appendPods (id : ℕ) : ℕ → ℕ → StateMachine → StateMachine
  | _, 0, sm => sm
  | ordinal, remaining + 1, sm =>
    match sm.appendPodForDeployment id ordinal with
    | (false, sm) => sm
    | (true, sm) => appendPods id (ordinal + 1) remaining sm

def ensureDeploymentReplicaCount (id : ℕ) : StateMachine :=
  match sm.findDeployment id with
  | none => sm
  | some dep =>
    if !dep.active || dep.paused then sm
    else
      let activeCount := sm.getActivePodCount id
      appendPods id activeCount (dep.replicas - activeCount) sm

def u32Max : ℕ := 2 ^ 32 - 1
def u8Max : ℕ := 2 ^ 8 - 1

/-- Give a pod's demand back to its node; `none` on overflow of a counter. -/
def releasePod (n : Node) (p : Pod) : Option Node :=
  let gpu := if p.gpuCount > 0 then n.allocatableGpu + p.gpuCount else n.allocatableGpu
  if gpu > u8Max || n.allocatableCpu + p.cpuMillicores > u32Max ||
      n.allocatableMem + p.memoryMegabytes > u32Max then none
  else some { n with
    allocatableGpu := gpu
    allocatableCpu := n.allocatableCpu + p.cpuMillicores
    allocatableMem := n.allocatableMem + p.memoryMegabytes }

/-- The release of a bound pod as it stands in `handleUpdatePodStatus` and
`handleDeleteDeployment`; the caller clears the pod's `nodeId`. -/
def releaseOnNode (p : Pod) : Option StateMachine :=
  if p.nodeId = 0 then some sm
  else match sm.findNodeIndex p.nodeId with
    | none => some sm
    | some i =>
      match sm.nodes[i]? with
      | none => some sm
      | some n => (releasePod n p).map (fun n => { sm with nodes := sm.nodes.set i n })

/-! ### Nodes -/

def handleRegisterNode (cmd : RegisterNodeCmd) : StateMachine × Result :=
  match sm.findActiveNodeIndexByName cmd.nodeName with
  | some idx =>
    let id := (sm.nodes[idx]?.map (·.id)).getD 0
    let sm := { sm with nodes := sm.nodes.modify idx (fun n => { n with
      cpuMillicores := cmd.cpuMillicores
      memoryMegabytes := cmd.memoryMegabytes
      gpuType := cmd.gpuType
      gpuCount := cmd.gpuCount
      provider := cmd.provider
      region := cmd.region
      status := .ready
      active := true }) }
    (sm.recomputeNodeAllocatable idx, .ok id)
  | none =>
    if sm.nodes.length ≥ maxNodes then (sm, .err .capacityExceeded)
    else
      let (id, sm) := sm.generateId
      let node : Node :=
        { id
          name := cmd.nodeName
          cpuMillicores := cmd.cpuMillicores
          memoryMegabytes := cmd.memoryMegabytes
          gpuType := cmd.gpuType
          gpuCount := cmd.gpuCount
          provider := cmd.provider
          region := cmd.region
          status := .ready
          allocatableCpu := cmd.cpuMillicores
          allocatableMem := cmd.memoryMegabytes
          allocatableGpu := cmd.gpuCount
          active := true }
      ({ sm with nodes := sm.nodes ++ [node] }, .ok id)

def handleDeregisterNode (nodeId : ℕ) : StateMachine × Result :=
  match sm.findNodeIndex nodeId with
  | none => (sm, .err .notFound)
  | some idx =>
    ({ sm with nodes := sm.nodes.modify idx (fun n =>
        { n with status := .terminated, active := false }) }, .ok nodeId)

def handleUpdateNodeStatus (nodeId : ℕ) (newStatus : NodeStatus) : StateMachine × Result :=
  match sm.findNodeIndex nodeId with
  | none => (sm, .err .notFound)
  | some idx =>
    match sm.nodes[idx]? with
    | none => (sm, .err .notFound)
    | some n =>
      if !validNodeTransition n.status newStatus then (sm, .err .invalidTransition)
      else
        ({ sm with nodes := sm.nodes.set idx { n with
            status := newStatus
            active := if newStatus = .terminated then false else n.active } }, .ok nodeId)

/-! ### Pods -/

def setPod (idx : ℕ) (f : Pod → Pod) : StateMachine := { sm with pods := sm.pods.modify idx f }

def handleBindPodToNode (podId : ℕ) (nodeId : ℕ) : StateMachine × Result :=
  match sm.findPodIndex podId, sm.findPod podId with
  | some podIdx, some pod =>
    match sm.findNodeIndex nodeId, sm.findNode nodeId with
    | some nodeIdx, some node =>
      if pod.nodeId != 0 || pod.phase != .pending then (sm, .err .alreadyExists)
      else if pod.gpuCount > 0 && node.allocatableGpu < pod.gpuCount then
        (sm, .err .capacityExceeded)
      else if pod.cpuMillicores > 0 && node.allocatableCpu < pod.cpuMillicores then
        (sm, .err .capacityExceeded)
      else if pod.memoryMegabytes > 0 && node.allocatableMem < pod.memoryMegabytes then
        (sm, .err .capacityExceeded)
      else
        let node := { node with
          allocatableGpu :=
            if pod.gpuCount > 0 then node.allocatableGpu - pod.gpuCount else node.allocatableGpu
          allocatableCpu := node.allocatableCpu - pod.cpuMillicores
          allocatableMem := node.allocatableMem - pod.memoryMegabytes }
        let sm := { sm with nodes := sm.nodes.set nodeIdx node }
        (sm.setPod podIdx (fun p => { p with nodeId := nodeId, phase := .scheduled }), .ok podId)
    | _, _ => (sm, .err .notFound)
  | _, _ => (sm, .err .notFound)

/-- `BatchNodeDemand`. -/
structure BatchNodeDemand where
  nodeIdx : ℕ
  cpu : ℕ
  mem : ℕ
  gpu : ℕ

/-- Add a pod's demand to its node's entry, opening one if there is none. -/
def addDemand (demands : List BatchNodeDemand) (nodeIdx : ℕ) (pod : Pod) :
    List BatchNodeDemand :=
  match demands.findIdx? (fun d => d.nodeIdx == nodeIdx) with
  | some j => demands.modify j (fun d => { d with
      cpu := d.cpu + pod.cpuMillicores
      mem := d.mem + pod.memoryMegabytes
      gpu := d.gpu + pod.gpuCount })
  | none => demands ++ [⟨nodeIdx, pod.cpuMillicores, pod.memoryMegabytes, pod.gpuCount⟩]

def demandFits (d : BatchNodeDemand) : Bool := d.cpu ≤ u32Max && d.mem ≤ u32Max && d.gpu ≤ u8Max

/-- First pass of `handleBindPodsToNodes`: validate each binding and sum the
demand per node. `none` is an overflowing sum. -/
def collectDemands : List PodBinding → List ℕ → List BatchNodeDemand →
    Option (Except ErrorCode (List BatchNodeDemand))
  | [], _, demands => some (.ok demands)
  | b :: rest, seen, demands =>
    if b.podId == 0 || b.nodeId == 0 then some (.error .notFound)
    else if seen.contains b.podId then some (.error .alreadyExists)
    else match sm.findPod b.podId with
    | none => some (.error .notFound)
    | some pod =>
      match sm.findNodeIndex b.nodeId, sm.findNode b.nodeId with
      | some nodeIdx, some node =>
        if !pod.active || pod.nodeId != 0 || pod.phase != .pending then
          some (.error .alreadyExists)
        else if !node.active || node.status != .ready then some (.error .invalidTransition)
        else if pod.gpuCount > 0 && node.gpuType != pod.gpuType then
          some (.error .capacityExceeded)
        else if (demands.findIdx? (fun d => d.nodeIdx == nodeIdx)).isNone &&
            demands.length ≥ maxNodes then some (.error .capacityExceeded)
        else
          let demands := addDemand demands nodeIdx pod
          if demands.all demandFits then collectDemands rest (b.podId :: seen) demands else none
      | _, _ => some (.error .notFound)

def demandMet (d : BatchNodeDemand) : Bool :=
  match sm.nodes[d.nodeIdx]? with
  | none => false
  | some n => !(n.allocatableCpu < d.cpu) && !(n.allocatableMem < d.mem) &&
      !(n.allocatableGpu < d.gpu)

def takeDemand (d : BatchNodeDemand) : StateMachine :=
  { sm with nodes := sm.nodes.modify d.nodeIdx (fun n => { n with
      allocatableCpu := n.allocatableCpu - d.cpu
      allocatableMem := n.allocatableMem - d.mem
      allocatableGpu := n.allocatableGpu - d.gpu }) }

def bindOne (b : PodBinding) : StateMachine :=
  match sm.findPodIndex b.podId with
  | none => sm
  | some i => sm.setPod i (fun p => { p with nodeId := b.nodeId, phase := .scheduled })

def handleBindPodsToNodes (cmd : BindPodsToNodesCmd) : Option (StateMachine × Result) :=
  if cmd.count == 0 || cmd.count > bindBatchMax then some (sm, .err .invalidTransition)
  else
    let bindings := cmd.bindings.take cmd.count
    match sm.collectDemands bindings [] [] with
    | none => none
    | some (.error code) => some (sm, .err code)
    | some (.ok demands) =>
      if !demands.all sm.demandMet then some (sm, .err .capacityExceeded)
      else
        let sm := demands.foldl takeDemand sm
        some (bindings.foldl bindOne sm, .ok cmd.count)

end StateMachine

end Hivemind
