import Hivemind.Apply
import Hivemind.Wire

/-! The ranges of the fields that leave the core. The source has them in its types; here they are
stated for the records. -/
namespace Hivemind

@[mk_iff]
structure Node.Typed (n : Node) : Prop where
  id : n.id < 2 ^ 64
  cpu : n.cpuMillicores < 2 ^ 32
  memory : n.memoryMegabytes < 2 ^ 32
  gpu : n.gpuCount < 2 ^ 8
  freeCpu : n.allocatableCpu < 2 ^ 32
  freeMemory : n.allocatableMem < 2 ^ 32
  freeGpu : n.allocatableGpu < 2 ^ 8

@[mk_iff]
structure Deployment.Typed (d : Deployment) : Prop where
  id : d.id < 2 ^ 64
  port : d.port < 2 ^ 16
  replicas : d.replicas < 2 ^ 32
  cpu : d.cpuMillicores < 2 ^ 32
  memory : d.memoryMegabytes < 2 ^ 32
  gpu : d.gpuCount < 2 ^ 8
  version : d.version < 2 ^ 32
  ready : d.readyReplicas < 2 ^ 32
  env : d.envVars.length = 16

/-- What `validateCommand` has checked of the command that made the record. -/
structure Deployment.Validated (d : Deployment) : Prop where
  env : d.envCount ≤ d.envVars.length
  secret : d.imagePullPasswordIsSecret ≤ 1

@[mk_iff]
structure Pod.Typed (p : Pod) : Prop where
  id : p.id < 2 ^ 64
  deployment : p.deploymentId < 2 ^ 64
  node : p.nodeId < 2 ^ 64

instance : DecidablePred Node.Typed := fun n => decidable_of_iff _ (Node.typed_iff n).symm

instance : DecidablePred Deployment.Typed := fun d => decidable_of_iff _ (Deployment.typed_iff d).symm

instance : DecidablePred Pod.Typed := fun p => decidable_of_iff _ (Pod.typed_iff p).symm

end Hivemind
