import Hivemind.WorkerDrive

/-! The worker's resource accounting over whole runs: whatever it is told and whatever the runtime
and the volumes answer, the three sums are those of the requests of its active pods. -/
namespace Hivemind.Agent

open Job

variable {σ : Type} {env : Env σ} {now : ℕ} {w w' : Worker} {tr : List Obs}

theorem Changes.accounted (h : Changes now w w') (hm : w.Moderate) (hw : w.Accounted) :
    w'.Accounted ∧ w'.Moderate := by
  induction h with
  | refl => exact ⟨hw, hm⟩
  | tail _ hstep ih =>
    refine ⟨hstep.accounted ih.2 ih.1, fun r => ?_⟩
    rw [hstep.total r]
    exact ih.2 r

theorem Worker.new_orderly (nodeName : String) (gpuType : GpuType)
    (gpuTotal cpuMillicores memoryMegabytes lifecycleConcurrency : ℕ) :
    (Worker.newWithLifecycleConcurrency nodeName gpuType gpuTotal cpuMillicores memoryMegabytes
      lifecycleConcurrency).Orderly :=
  ⟨fun _ _ h => (nomatch h), fun _ _ h => (nomatch h), fun _ h => absurd h (AList.notMem_empty _)⟩

theorem Worker.new_accounted (nodeName : String) (gpuType : GpuType)
    (gpuTotal cpuMillicores memoryMegabytes lifecycleConcurrency : ℕ) :
    (Worker.newWithLifecycleConcurrency nodeName gpuType gpuTotal cpuMillicores memoryMegabytes
      lifecycleConcurrency).Accounted := by
  intro r
  cases r <;> exact ⟨rfl, Nat.zero_le _⟩

/-- Resource accounting is exact: after every run of ticks that returns, each of the three sums is
that of the requests of the tracked pods that are not at their end, and within its total. -/
theorem worker_accounts_exact (env : Env σ) (outside : σ) (nodeName : String) (gpuType : GpuType)
    (gpuTotal cpuMillicores memoryMegabytes lifecycleConcurrency : ℕ) (hgpu : gpuTotal < 2 ^ 8 - 1)
    (hcpu : cpuMillicores < 2 ^ 32 - 1) (hmemory : memoryMegabytes < 2 ^ 32 - 1)
    (events : List Event) (s : Scene σ)
    (h : run env events ⟨Worker.newWithLifecycleConcurrency nodeName gpuType gpuTotal cpuMillicores
      memoryMegabytes lifecycleConcurrency, [], outside⟩ = .ok ((), s)) :
    s.worker.Accounted := by
  have hmoderate : (Worker.newWithLifecycleConcurrency nodeName gpuType gpuTotal cpuMillicores
      memoryMegabytes lifecycleConcurrency).Moderate := by
    intro r
    cases r with
    | gpu => exact hgpu
    | cpu => exact hcpu
    | memory => exact hmemory
  have hkept := run_keeps (I := fun m => m.worker.Accounted ∧ m.worker.Moderate)
    (fun _ _ _ _ hdeed hI => hdeed.changes.accounted hI.2 hI.1) (Worker.new_orderly _ _ _ _ _ _)
    ⟨Worker.new_accounted _ _ _ _ _ _, hmoderate⟩ h
  exact hkept.2.1

/-- A host on which everything succeeds. -/
def obliging : Env Unit where
  overflowChecks := true
  answer := fun
    | .pullImage .., o | .startPod .., o | .stopPod .., o | .removePod .., o => (.ok (), o)
    | .createPod spec, o => (.ok ⟨spec.podId, "container"⟩, o)
    | .forwardRun _ _ payload, o => (.ok payload, o)
    | .probePod .., o => (.ok true, o)
    | .podStatus .., o => (.ok .running, o)
    | .mount .., o | .unmount .., o => (.ok (), o)
    | .secret .., o => (none, o)

/-- The command to start a pod with these requests. -/
def startCommand (podId gpuCount : ℕ) (juicefsPath : String) : StartPodCmd where
  podId := podId
  deploymentId := 1
  image := "image"
  entrypoint := ""
  port := 0
  gpuCount := gpuCount
  gpuType := .none
  cpuMillicores := 0
  memoryMegabytes := 0
  juicefsPath := juicefsPath
  livenessPath := ""
  readinessPath := ""
  envVars := []
  imagePullRegistry := ""
  imagePullUsername := ""
  imagePullPassword := ""
  imagePullPasswordIsSecret := false

/-- Two pods are accepted, the third is refused, and the first is stopped again. -/
def acceptances : List Event :=
  [.tick 0 [.startPod (startCommand 1 2 ""), .startPod (startCommand 2 1 ""),
    .startPod (startCommand 3 4 "")], .tick 1 [.stopPod ⟨1, 0⟩], .tick 2 []]

def acceptancesRun : Except Panic (Unit × Scene Unit) :=
  run obliging acceptances ⟨Worker.newWithLifecycleConcurrency "node" .none 4 0 0 4, [], ()⟩

theorem worker_accounts_exact_acceptances :
    ∃ s, acceptancesRun = .ok ((), s) ∧ s.worker.Accounted ∧ s.worker.gpuAllocated = 1 := by
  have hgpu : (match acceptancesRun with
      | .ok (_, s) => some s.worker.gpuAllocated
      | .error _ => none) = some 1 := by decide +kernel
  cases h : acceptancesRun with
  | error e =>
    rw [h] at hgpu
    contradiction
  | ok r =>
    rw [h] at hgpu
    exact ⟨r.2, rfl, worker_accounts_exact obliging () "node" .none 4 0 0 4 (by decide) (by decide)
      (by decide) acceptances r.2 h, Option.some.inj hgpu⟩

end Hivemind.Agent
