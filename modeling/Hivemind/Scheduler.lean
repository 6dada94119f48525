import Hivemind.Apply

/-! Placement decisions of `scheduler.zig`. The scheduler reads the local state
machine and its own generator; what it decides is submitted as ordinary requests. -/
namespace Hivemind

def maxBindActions : ℕ := bindBatchMax
def maxScaleDownActions : ℕ := 16

structure NodeCapacity where
  nodeId : ℕ
  totalGpu : ℕ
  allocatedGpu : ℕ
  availableGpu : ℕ
  availableCpu : ℕ
  availableMem : ℕ
  gpuType : GpuType
  region : Bytes 32
  provider : Bytes 32
  status : NodeStatus

structure ScheduleAction where
  podId : ℕ
  nodeId : ℕ

structure ScaleDownAction where
  deploymentId : ℕ
  desiredReplicas : ℕ

structure ScheduleResult where
  actions : List ScheduleAction := []
  scaleDowns : List ScaleDownAction := []

namespace StateMachine

variable (sm : StateMachine)

def capacityOf (n : Node) : NodeCapacity :=
  { nodeId := n.id
    totalGpu := n.gpuCount
    allocatedGpu := n.gpuCount - min n.allocatableGpu n.gpuCount
    availableGpu := n.allocatableGpu
    availableCpu := n.allocatableCpu
    availableMem := n.allocatableMem
    gpuType := n.gpuType
    region := n.region
    provider := n.provider
    status := n.status }

def getNodeCapacity (nodeId : ℕ) : Option NodeCapacity :=
  match sm.findNode nodeId with
  | none => none
  | some n => if !n.active then none else some (capacityOf n)

def getNodesWithGpu (gpuType : GpuType) (minAvailable : ℕ) : List NodeCapacity :=
  ((sm.nodes.filter (fun n => n.active && n.status == .ready && n.gpuType == gpuType &&
    !(n.allocatableGpu < minAvailable))).take maxNodes).map capacityOf

def isKillswitched (nodeId deploymentId : ℕ) : Bool :=
  sm.killswitches.any (fun k => k.active &&
    ((k.nodeId == 0 && k.deploymentId == 0) || (k.nodeId == nodeId && k.deploymentId == 0) ||
      (k.nodeId == 0 && k.deploymentId == deploymentId) ||
      (k.nodeId == nodeId && k.deploymentId == deploymentId)))

def getPendingPods (deploymentId : ℕ) : List ℕ :=
  ((sm.pods.filter (fun p => p.active && p.deploymentId == deploymentId &&
    p.phase == .pending)).take maxBindActions).map (·.id)

end StateMachine

namespace Scheduler

variable (sm : StateMachine)

/-- The candidates of a pod that asks for no GPU: every ready node not switched off. -/
def cpuCandidates (deploymentId : ℕ) : List NodeCapacity :=
  ((sm.nodes.filter (fun n => n.active && n.status == .ready &&
    !sm.isKillswitched n.id deploymentId)).filterMap
      (fun n => sm.getNodeCapacity n.id)).take maxNodes

def fitsPod (pod : Pod) (cap : NodeCapacity) : Bool :=
  !(pod.cpuMillicores > 0 && cap.availableCpu < pod.cpuMillicores) &&
    !(pod.memoryMegabytes > 0 && cap.availableMem < pod.memoryMegabytes)

def findCandidateNodes (pod : Pod) (deploymentId : ℕ) : List NodeCapacity :=
  let cpuOnly := pod.gpuType == .none && pod.gpuCount == 0
  let candidates :=
    if cpuOnly then cpuCandidates sm deploymentId
    else (sm.getNodesWithGpu pod.gpuType pod.gpuCount).filter
      (fun cap => !sm.isKillswitched cap.nodeId deploymentId)
  let candidates := candidates.filter (fitsPod pod)
  if cpuOnly then
    let cpuNodes := candidates.filter (fun cap => cap.totalGpu == 0)
    if cpuNodes.length > 0 then cpuNodes else candidates
  else candidates

/-- Subtract what this round already placed on the node. -/
def adjust (actions : List ScheduleAction) (cap : NodeCapacity) : NodeCapacity :=
  actions.foldl (fun adj a =>
    if a.nodeId ≠ cap.nodeId then adj
    else match sm.findPod a.podId with
      | none => adj
      | some p => { adj with
          availableCpu := adj.availableCpu - p.cpuMillicores
          availableMem := adj.availableMem - p.memoryMegabytes
          availableGpu := adj.availableGpu - p.gpuCount }) cap

def weight (gpuNeeded : ℕ) (cap : NodeCapacity) : ℕ := (cap.availableGpu - gpuNeeded) + 1

/-- The node whose weight interval contains `pick`. -/
def pickNode (gpuNeeded : ℕ) : List NodeCapacity → ℕ → Option ℕ
  | [], _ => none
  | [cap], _ => some cap.nodeId
  | cap :: rest, pick =>
    if pick < weight gpuNeeded cap then some cap.nodeId
    else pickNode gpuNeeded rest (pick - weight gpuNeeded cap)

def weightedSelect (prng : Prng) (candidates : List NodeCapacity) (gpuNeeded : ℕ) :
    Option ℕ × Prng :=
  if candidates.length = 0 then (none, prng)
  else
    let total := (candidates.map (weight gpuNeeded)).sum
    if total = 0 then (candidates.head?.map (·.nodeId), prng)
    else
      let (pick, prng) := prng.bounded total
      (pickNode gpuNeeded candidates pick, prng)

def findBestNodeWithActions (prng : Prng) (pod : Pod) (deploymentId : ℕ)
    (actions : List ScheduleAction) : Option ℕ × Prng :=
  let fit := ((findCandidateNodes sm pod deploymentId).map (adjust sm actions)).filter
    (fun cap => fitsPod pod cap && !(pod.gpuCount > 0 && cap.availableGpu < pod.gpuCount))
  if fit.length = 0 then (none, prng)
  else if fit.length = 1 then (fit.head?.map (·.nodeId), prng)
  else weightedSelect prng fit pod.gpuCount

/-- Place the pending pods of one deployment. -/
def placePods (deploymentId : ℕ) : List ℕ → Prng × ScheduleResult → Prng × ScheduleResult
  | [], acc => acc
  | podId :: rest, (prng, result) =>
    if result.actions.length ≥ maxBindActions then (prng, result)
    else match sm.findPod podId with
      | none => placePods deploymentId rest (prng, result)
      | some pod =>
        match findBestNodeWithActions sm prng pod deploymentId result.actions with
        | (none, prng) => placePods deploymentId rest (prng, result)
        | (some nodeId, prng) =>
          placePods deploymentId rest
            (prng, { result with actions := result.actions ++ [⟨podId, nodeId⟩] })

def visitDeployment (currentTick : ℕ) (acc : Prng × ScheduleResult) (dep : Deployment) :
    Prng × ScheduleResult :=
  if !dep.active || dep.paused then acc
  else
    let pending := sm.getPendingPods dep.id
    if pending.length > 0 then placePods sm dep.id pending acc
    else if dep.scaleToZeroAfterMs = 0 ∨ dep.replicas = 0 ∨ dep.lastRequestTick = 0 then acc
    else if currentTick - dep.lastRequestTick > dep.scaleToZeroAfterMs then
      if acc.2.scaleDowns.length < maxScaleDownActions then
        (acc.1, { acc.2 with scaleDowns := acc.2.scaleDowns ++ [⟨dep.id, 0⟩] })
      else acc
    else acc

def tick (prng : Prng) (currentTick : ℕ) : Prng × ScheduleResult :=
  sm.deployments.foldl (visitDeployment sm currentTick) (prng, {})

end Scheduler

end Hivemind
