import Hivemind.Recover

/-! The requests a call submits: those of clients, and the ones a replica makes up for
its workers and its scheduler, with the identities they are submitted under. -/
namespace Hivemind

/-- The request of a worker that registers. -/
def registerRequest (now : ℕ) (seq workerIdx : ℕ) (m : WorkerRegisterMsg) : RequestMsg :=
  { clientId := Replica.agentMarker ||| workerIdx
    requestId := (now <<< 32) ||| seq
    command := .registerNode
      { nodeName := m.hostname
        cpuMillicores := m.cpuMillicores
        memoryMegabytes := m.memoryMegabytes
        gpuType := m.gpuType
        gpuCount := m.gpuCount
        provider := m.provider
        region := m.region } }

/-- The request of a worker that reports on a pod. -/
def podStatusRequest (workerIdx : ℕ) (m : WorkerPodStatusMsg) : RequestMsg :=
  { clientId := Replica.agentMarker ||| (workerIdx <<< 32) ||| m.podId
    requestId := (m.podId <<< 64) ||| m.newPhase.toNat
    command := .updatePodStatus m.podId m.newPhase }

/-- The request for a non-empty batch of placements. -/
def bindRequest (first : ScheduleAction) (rest : List ScheduleAction) : RequestMsg :=
  { clientId := 0xB17D_0000_0000_0000_0000_0000_0000_0000 ||| first.podId
    requestId := first.podId
    command := .bindPodsToNodes (Replica.bindCommand (first :: rest)) }

def bindRequests : List ScheduleAction → List RequestMsg
  | [] => []
  | first :: rest => [bindRequest first rest]

def scaleDownRequest (a : ScaleDownAction) : RequestMsg :=
  { clientId := 0xDEAD_5CA1_0000_0000 ||| a.deploymentId
    requestId := a.deploymentId
    command := .scaleDeployment a.deploymentId a.desiredReplicas }

/-- What a scheduler round submits, in order. -/
def ScheduleResult.requests (r : ScheduleResult) : List RequestMsg :=
  bindRequests r.actions ++ r.scaleDowns.map scaleDownRequest

/-- Where a request may come from. -/
inductive MaySubmit (inp : Input) : RequestMsg → Prop where
  | client {m : RequestMsg} (hinp : inp = .request m) : MaySubmit inp m
  | relayed {src : ℕ} {m : RequestMsg} (hinp : inp = .message src (.request m)) : MaySubmit inp m
  | registered {workerIdx now seq : ℕ} {m : WorkerRegisterMsg}
      (hinp : inp = .workerRegister workerIdx m) (hidx : workerIdx < maxWorkers) :
      MaySubmit inp (registerRequest now seq workerIdx m)
  | reported {workerIdx : ℕ} {m : WorkerPodStatusMsg} (hinp : inp = .workerPodStatus workerIdx m) :
      MaySubmit inp (podStatusRequest workerIdx m)
  | bound {first : ScheduleAction} {rest : List ScheduleAction} (hinp : inp = .tick) :
      MaySubmit inp (bindRequest first rest)
  | scaledDown {a : ScaleDownAction} (hinp : inp = .tick) : MaySubmit inp (scaleDownRequest a)

theorem not_maySubmit_disconnect {workerIdx : ℕ} {m : RequestMsg} :
    ¬ MaySubmit (.workerDisconnect workerIdx) m := by
  intro h
  cases h <;> contradiction

namespace Core

variable (c : Core) (m : RequestMsg)

/-- The client table and the log know nothing that stands against appending the request. -/
structure Admits : Prop where
  unpublished : c.hasPendingClientReply m.clientId m.requestId = false
  unanswered : (c.findClient m.clientId).filter (fun e => e.requestId ≥ m.requestId) = none
  unlogged : c.hasPendingRequest m.clientId m.requestId = false

instance : Decidable (c.Admits m) :=
  decidable_of_iff (c.hasPendingClientReply m.clientId m.requestId = false ∧
      (c.findClient m.clientId).filter (fun e => e.requestId ≥ m.requestId) = none ∧
      c.hasPendingRequest m.clientId m.requestId = false)
    ⟨fun h => ⟨h.1, h.2.1, h.2.2⟩, fun h => ⟨h.1, h.2, h.3⟩⟩

/-- A request of the same client that is no earlier is on its way: appended and not
executed, or executed and not published. -/
def Behind : Prop :=
  ∃ i < logSizeMax,
    (c.pendingReply i = true ∧ c.pendingReplyClientId i = m.clientId ∧
      m.requestId ≤ c.pendingReplyRequestId i) ∨
    ∃ e ∈ c.journal i, c.commitMin < e.opNumber ∧ e.clientId = m.clientId ∧
      m.requestId ≤ e.requestId

instance : Decidable (c.Behind m) := inferInstanceAs (Decidable (∃ i < logSizeMax, _ ∨ _))

/-- The client table has the result of a later request of the same client. -/
def Overtaken : Prop := ∃ e ∈ c.findClient m.clientId, m.requestId < e.requestId

instance : Decidable (c.Overtaken m) :=
  inferInstanceAs (Decidable (∃ e ∈ c.findClient m.clientId, _))

/-- Submitting the requests one after the other appends one behind another. -/
def Disorderly (ms : List RequestMsg) : Prop :=
  ∃ i < ms.length, ∃ m ∈ ms[i]?, c.Admits m ∧
    (c.Behind m ∨ ∃ m' ∈ ms.take i, m'.clientId = m.clientId ∧ m.requestId ≤ m'.requestId)

instance (ms : List RequestMsg) : Decidable (c.Disorderly ms) :=
  inferInstanceAs (Decidable (∃ i < ms.length, _))

end Core

namespace Replica

variable (hash : Hash) (env : Env) (s : Replica)

/-- The replica takes requests. -/
def Listens : Prop :=
  s.status = .normal ∧ s.isLeader = true ∧ s.repairPending = false ∧ s.storageFailed = false

instance : Decidable s.Listens := inferInstanceAs (Decidable (_ ∧ _))

/-- Submit requests one after the other. -/
def submitAll : List RequestMsg → Replica → Replica
  | [], s => s
  | m :: rest, s => submitAll rest (s.onRequest hash m)

/-- The requests of the scheduler in this state. -/
def scheduledRequests : List RequestMsg :=
  (Scheduler.tick s.stateMachine s.scheduler (nowUnsigned env)).2.requests

/-- The requests a call submits, and the state it submits them in. -/
def submitting : Input → Option (Replica × List RequestMsg)
  | .request m => some (s, [m])
  | .message _ (.request m) => some (s, [m])
  | .workerRegister i m =>
    some (s, [registerRequest (nowUnsigned env)
      ((if i < s.workerCount then (s.workers i).registerSeq else 0) + 1) i m])
  | .workerPodStatus i m => some (s, [podStatusRequest i m])
  | .tick =>
    match ((s.armFaults env).startTimers env).catchUp with
    | .ok s => some (s, s.scheduledRequests env)
    | .error _ => none
  | _ => none

theorem submitScaleDowns_eq : ∀ (actions : List ScaleDownAction) (s : Replica),
    submitScaleDowns hash actions s = submitAll hash (actions.map scaleDownRequest) s
  | [], _ => rfl
  | _ :: rest, _ => submitScaleDowns_eq rest _

theorem submitAll_append : ∀ (ms ms' : List RequestMsg) (s : Replica),
    submitAll hash (ms ++ ms') s = submitAll hash ms' (submitAll hash ms s)
  | [], _, _ => rfl
  | _ :: ms, ms', _ => submitAll_append ms ms' _

theorem tickScheduler_eq (hst : s.status = .normal) (hlead : s.isLeader = true) :
    s.tickScheduler hash env = .ok (submitAll hash (s.scheduledRequests env)
      { s with scheduler := (Scheduler.tick s.stateMachine s.scheduler (nowUnsigned env)).1 }) := by
  have hgo : ¬ (!s.isLeader || s.status != .normal) = true := by simp [hst, hlead]
  unfold tickScheduler
  rw [if_neg hgo]
  dsimp only
  rw [submitScaleDowns_eq, scheduledRequests, ScheduleResult.requests, submitAll_append]
  cases (Scheduler.tick s.stateMachine s.scheduler (nowUnsigned env)).2.actions <;> rfl

end Replica

end Hivemind
