import Hivemind.Capacity

/-! Scaling a deployment: how many pods it has afterwards. -/
namespace Hivemind

namespace StateMachine

variable {sm sm₁ : StateMachine} {id : ℕ}

/-! ### Scaling down -/

/-- The scale-down loop passes the pod over. -/
def passedOver (id : ℕ) (p : Pod) : Bool :=
  !p.active || p.deploymentId != id || p.phase == .terminating

def stopped (p : Pod) : Pod := { p with phase := .terminating, active := false }

/-- The pods after the scale-down loop: the first ones it does not pass over are stopped. -/
def scaledDown (id : ℕ) : ℕ → List Pod → List Pod
  | _, [] => []
  | 0, p :: pods => p :: pods
  | excess + 1, p :: pods =>
    if passedOver id p then p :: scaledDown id (excess + 1) pods
    else stopped p :: scaledDown id excess pods

/-- The loop over the slots is a walk over the pods. -/
theorem terminateExcess_pods {depIdx excess : ℕ} (done rest : List Pod)
    (h : sm.pods = done ++ rest) :
    (terminateExcess id depIdx (List.range' done.length rest.length) excess sm).pods =
      done ++ scaledDown id excess rest := by
  induction rest generalizing done excess sm with
  | nil => exact h
  | cons p rest ih =>
    have hat : sm.pods[done.length]? = some p := by simp [h]
    cases excess with
    | zero => exact h
    | succ excess =>
      rw [List.length_cons, List.range'_succ, terminateExcess, hat, scaledDown]
      have hlen : ∀ q : Pod, done.length + 1 = (done ++ [q]).length := by simp
      show (if passedOver id p = true then _ else _ : StateMachine).pods = _
      by_cases hpass : passedOver id p = true
      · rw [if_pos hpass, if_pos hpass, hlen p, ih (done ++ [p]) (by simp [h])]
        simp
      · have hpods : (sm.terminatePod depIdx done.length p).pods =
            (done ++ [stopped p]) ++ rest := by
          rw [terminatePod_pods, modify_eq_set _ hat, h]
          simp [stopped]
        rw [if_neg hpass, if_neg hpass, hlen (stopped p), ih (done ++ [stopped p]) hpods]
        simp

theorem terminateExcess_range {depIdx excess : ℕ} :
    (terminateExcess id depIdx (List.range sm.pods.length) excess sm).pods =
      scaledDown id excess sm.pods := by
  rw [List.range_eq_range']
  exact terminateExcess_pods [] sm.pods rfl

/-- The active pods of the deployment. -/
def live (id : ℕ) (p : Pod) : Bool := p.active && p.deploymentId == id

/-- The ones that are active and terminating at the same time, as after a status report. -/
def lingering (id : ℕ) (p : Pod) : Bool := live id p && p.phase == .terminating

theorem live_stopped (p : Pod) : live id (stopped p) = false := rfl

theorem passedOver_eq (p : Pod) : passedOver id p = (!live id p || lingering id p) := by
  unfold passedOver lingering live bne
  cases p.active <;> cases p.deploymentId == id <;> cases p.phase == .terminating <;> rfl

theorem countP_lingering_le (id : ℕ) (pods : List Pod) :
    pods.countP (lingering id) ≤ pods.countP (live id) := by
  apply List.countP_mono_left
  intro p _ hp
  exact (Bool.and_eq_true_iff.mp hp).1

/-- The loop takes `excess` of the active pods, but none that is terminating already. -/
theorem countP_scaledDown (excess : ℕ) (pods : List Pod) :
    (scaledDown id excess pods).countP (live id) =
      max (pods.countP (live id) - excess) (pods.countP (lingering id)) := by
  induction pods generalizing excess with
  | nil => simp [scaledDown]
  | cons p pods ih =>
    cases excess with
    | zero =>
      have hall := countP_lingering_le id (p :: pods)
      rw [scaledDown, Nat.sub_zero, max_eq_left hall]
    | succ excess =>
      rw [scaledDown, List.countP_cons, List.countP_cons]
      by_cases hpass : passedOver id p = true
      · -- a pod that is passed over is not active, or it is terminating
        rw [if_pos hpass, List.countP_cons, ih]
        rw [passedOver_eq, Bool.or_eq_true, Bool.not_eq_true'] at hpass
        by_cases hlinger : lingering id p = true
        · have hlive : live id p = true := (Bool.and_eq_true_iff.mp hlinger).1
          simp only [hlive, hlinger, if_true]
          omega
        · have hlive : live id p = false := hpass.resolve_right hlinger
          simp only [hlive, hlinger, Bool.false_eq_true, if_false, Nat.add_zero]
      · rw [if_neg hpass, List.countP_cons, ih, live_stopped]
        rw [passedOver_eq, Bool.or_eq_true, not_or, Bool.not_eq_true'] at hpass
        have hlive : live id p = true := by simpa using hpass.1
        simp only [hlive, hpass.2, if_true, Bool.false_eq_true, if_false, Nat.add_zero]
        omega

/-! ### Scaling up -/

/-- The slots a new pod can take. -/
def freeSlots (sm : StateMachine) : ℕ :=
  sm.pods.countP (fun p => !p.active && p.nodeId == 0) + (maxPods - sm.pods.length)

theorem appendPodForDeployment_live {dep : Deployment} (hfind : sm.findDeployment id = some dep)
    (hactive : dep.active = true) (ordinal : ℕ) :
    (sm.freeSlots = 0 ∧ sm.appendPodForDeployment id ordinal = (false, sm)) ∨
    ∃ sm', sm.appendPodForDeployment id ordinal = (true, sm') ∧
      sm'.getActivePodCount id = sm.getActivePodCount id + 1 ∧
      sm'.freeSlots + 1 = sm.freeSlots ∧ sm'.findDeployment id = some dep := by
  have hlive : ∀ podId, live id (podOf id dep podId ordinal) = true := by
    intro podId
    simp [live, podOf]
  have hoff : ¬ (!dep.active) = true := by simp [hactive]
  cases hidx : sm.findInactivePodIndex with
  | some i =>
    right
    obtain ⟨p, hp, hpa, hpn⟩ := findInactivePodIndex_some hidx
    have hclaim : sm.claimPodSlot = some (i, sm) := by
      rw [claimPodSlot, hidx]
    have happend : sm.appendPodForDeployment id ordinal = (true, { sm.generateId.2 with
        pods := sm.pods.set i (podOf id dep sm.generateId.1 ordinal) }) := by
      rw [appendPodForDeployment, hclaim]
      dsimp only
      rw [hfind]
      dsimp only
      rw [if_neg hoff]
      rfl
    refine ⟨_, happend, ?_, ?_, hfind⟩
    · have hdead : live id p = false := by simp [live, hpa]
      have hset := countP_set (live id) (podOf id dep sm.generateId.1 ordinal) hp
      rwa [hdead, hlive] at hset
    · have hset := countP_set (fun p : Pod => !p.active && p.nodeId == 0)
        (podOf id dep sm.generateId.1 ordinal) hp
      have hfree : (sm.pods.set i (podOf id dep sm.generateId.1 ordinal)).countP
          (fun p => !p.active && p.nodeId == 0) + 1 =
            sm.pods.countP (fun p => !p.active && p.nodeId == 0) := by
        simpa [hpa, hpn, podOf] using hset
      show (sm.pods.set i _).countP _ + (maxPods - (sm.pods.set i _).length) + 1 = _
      rw [List.length_set, freeSlots]
      omega
  | none =>
    have hnone : sm.pods.countP (fun p => !p.active && p.nodeId == 0) = 0 := by
      rw [List.countP_eq_zero]
      intro p hp
      have hnot := List.findIdx?_eq_none_iff.mp hidx p hp
      simpa using hnot
    by_cases hfull : sm.pods.length ≥ maxPods
    · left
      have hclaim : sm.claimPodSlot = none := by
        rw [claimPodSlot, hidx]
        rw [if_pos hfull]
      refine ⟨?_, ?_⟩
      · rw [freeSlots, hnone]
        omega
      · rw [appendPodForDeployment, hclaim]
    · right
      have hclaim : sm.claimPodSlot = some (sm.pods.length,
          { sm with pods := sm.pods ++ [sm.podMemory sm.pods.length] }) := by
        rw [claimPodSlot, hidx]
        rw [if_neg hfull]
      have happend : sm.appendPodForDeployment id ordinal = (true, { sm.generateId.2 with
          pods := sm.pods ++ [podOf id dep sm.generateId.1 ordinal] }) := by
        have hfind' : StateMachine.findDeployment
            { sm with pods := sm.pods ++ [sm.podMemory sm.pods.length] } id = some dep := hfind
        rw [appendPodForDeployment, hclaim]
        dsimp only
        rw [hfind']
        dsimp only
        rw [if_neg hoff]
        simp [generateId]
      refine ⟨_, happend, ?_, ?_, hfind⟩
      · show (sm.pods ++ [_]).countP (live id) = _
        rw [List.countP_append, List.countP_singleton, hlive]
        rfl
      · show (sm.pods ++ [_]).countP _ + (maxPods - (sm.pods ++ [_]).length) + 1 = _
        rw [List.countP_append, List.countP_singleton, List.length_append, freeSlots, hnone]
        simp only [podOf, Bool.not_true, Bool.false_and, Bool.false_eq_true, if_false,
          List.length_singleton]
        omega

theorem getActivePodCount_appendPods {dep : Deployment} (hfind : sm.findDeployment id = some dep)
    (hactive : dep.active = true) (ordinal n : ℕ) :
    (appendPods id ordinal n sm).getActivePodCount id =
      sm.getActivePodCount id + min n sm.freeSlots := by
  induction n generalizing sm ordinal with
  | zero => simp [appendPods]
  | succ n ih =>
    rw [appendPods]
    obtain ⟨hfull, happend⟩ | ⟨sm', happend, hcount, hfree, hfind'⟩ :=
      appendPodForDeployment_live hfind hactive ordinal
    · rw [happend, hfull]
      simp
    · rw [happend]
      rw [ih hfind', hcount]
      omega

/-! ### The command -/

theorem getActivePodCount_scaled {dep : Deployment} (hfind : sm.findDeployment id = some dep)
    (hactive : dep.active = true) (n : ℕ) :
    ∃ sm₁, sm.apply (.scaleDeployment id n) = some (sm₁, .ok id) ∧
      sm₁.getActivePodCount id =
        if dep.replicas < n then
          sm.getActivePodCount id + min (n - dep.replicas) sm.freeSlots
        else max (sm.getActivePodCount id - (dep.replicas - n)) (sm.pods.countP (lingering id)) := by
  obtain ⟨depIdx, hidx, hdep⟩ := findIdx?_of_find? hfind
  have hidx' : sm.findDeploymentIndex id = some depIdx := hidx
  let asked : StateMachine := sm.setDeployment depIdx fun d => { d with replicas := n }
  have hfound : asked.findDeployment id = some { dep with replicas := n } := by
    show (sm.deployments.modify depIdx _).find? _ = _
    rw [modify_eq_set _ hdep]
    have hid := List.find?_some (p := fun d : Deployment => d.id == id) hfind
    exact find?_set_of_findIdx? hidx hid
  have happly : sm.apply (.scaleDeployment id n) = some (sm.handleScaleDeployment id n) := rfl
  rw [happly, handleScaleDeployment, hidx', hfind]
  dsimp only
  by_cases hup : dep.replicas < n
  · rw [if_pos hup, if_pos hup]
    exact ⟨_, rfl, getActivePodCount_appendPods hfound hactive _ _⟩
  · rw [if_neg hup, if_neg hup]
    refine ⟨_, rfl, ?_⟩
    show (terminateExcess id depIdx (List.range asked.pods.length) _ asked).pods.countP (live id) = _
    rw [terminateExcess_range, countP_scaledDown]
    rfl

/-- A deployment that is active is scaled to `n`, and the slots for the pods to be added can be had.
Then it has `n` active pods exactly when, before, as many were active as it was to have, and no more
than `n` of them were terminating; or, for fewer pods, exactly `n` of them were terminating and no
more were active than it was to have. -/
theorem scaling_reaches_size (sm : StateMachine) (id n : ℕ) (dep : Deployment)
    (hfind : sm.findDeployment id = some dep) (hactive : dep.active = true)
    (hroom : n - dep.replicas ≤ sm.freeSlots) :
    ∃ sm₁, sm.apply (.scaleDeployment id n) = some (sm₁, .ok id) ∧
      (sm₁.getActivePodCount id = n ↔
        if dep.replicas ≤ n then sm.getActivePodCount id = dep.replicas
        else (sm.getActivePodCount id = dep.replicas ∧ sm.pods.countP (lingering id) ≤ n) ∨
          (sm.pods.countP (lingering id) = n ∧ sm.getActivePodCount id ≤ dep.replicas)) := by
  obtain ⟨sm₁, happly, hcount⟩ := getActivePodCount_scaled hfind hactive n
  have hle : sm.pods.countP (lingering id) ≤ sm.getActivePodCount id := countP_lingering_le id sm.pods
  refine ⟨sm₁, happly, ?_⟩
  rw [hcount]
  by_cases hup : dep.replicas < n
  · rw [if_pos hup, if_pos hup.le, min_eq_left hroom]
    omega
  · rw [if_neg hup]
    by_cases hsame : dep.replicas ≤ n
    · rw [if_pos hsame]
      omega
    · rw [if_neg hsame]
      omega

/-- One of two pods fails and is replaced, the other runs, and the deployment is scaled from two to
three. -/
theorem scaling_reaches_size_three :
    let cmds : List Command :=
      [.createDeployment { replicas := 2 }, .updatePodStatus (nthId 2) .failed,
        .updatePodStatus (nthId 3) .running]
    ∃ sm rs sm₁, Replay.run apply (blank.initInPlace 1) cmds = some (sm, rs) ∧
      sm.apply (.scaleDeployment (nthId 1) 3) = some (sm₁, .ok (nthId 1)) ∧
      sm₁.getActivePodCount (nthId 1) = 3 := by
  intro cmds
  have hsome : ((Replay.run apply (blank.initInPlace 1) cmds).map fun x =>
      ((x.1.findDeployment (nthId 1)).map fun d => (d.replicas, d.active), x.1.freeSlots,
        x.1.getActivePodCount (nthId 1))) = some (some (2, true), 510, 2) := by decide +kernel
  obtain ⟨⟨sm, rs⟩, hrun, hstate⟩ := Option.map_eq_some_iff.mp hsome
  obtain ⟨hdep, hslots, hactive⟩ : (sm.findDeployment (nthId 1)).map
      (fun d => (d.replicas, d.active)) = some (2, true) ∧ sm.freeSlots = 510 ∧
        sm.getActivePodCount (nthId 1) = 2 := by
    simpa only [Prod.mk.injEq] using hstate
  obtain ⟨dep, hfind, hfields⟩ := Option.map_eq_some_iff.mp hdep
  obtain ⟨hreplicas, hon⟩ := Prod.mk.inj hfields
  obtain ⟨sm₁, happly, hiff⟩ := scaling_reaches_size sm (nthId 1) 3 dep hfind hon (by omega)
  refine ⟨sm, rs, sm₁, hrun, happly, hiff.mpr ?_⟩
  rw [if_pos (by omega)]
  omega

/-- A pod that succeeded is not made up for: one replica is scaled to two, and two are scaled to one.
And two pods that were reported terminating are scaled to one. Each line has the result and the
active pods afterwards. -/
theorem scaling_misses_size :
    let scaled (n : ℕ) (x : StateMachine × List Result) : Option (Option (Result × ℕ)) :=
      some ((x.1.apply (.scaleDeployment (nthId 1) n)).map fun y =>
        (y.2, y.1.getActivePodCount (nthId 1)))
    (Replay.run apply (blank.initInPlace 1)
      [.createDeployment { replicas := 1 }, .updatePodStatus (nthId 2) .succeeded]).bind (scaled 2) =
      some (some (.ok (nthId 1), 1)) ∧
    (Replay.run apply (blank.initInPlace 1)
      [.createDeployment { replicas := 2 }, .updatePodStatus (nthId 2) .succeeded]).bind (scaled 1) =
      some (some (.ok (nthId 1), 0)) ∧
    (Replay.run apply (blank.initInPlace 1)
      [.createDeployment { replicas := 2 }, .updatePodStatus (nthId 2) .terminating,
        .updatePodStatus (nthId 3) .terminating]).bind (scaled 1) =
      some (some (.ok (nthId 1), 2)) := by
  decide +kernel

end StateMachine

end Hivemind
