import Hivemind.Apply

/-! What the tables do not depend on. `last_request_tick` is local to the leader's router,
and the pod array holds anything beyond its count; forgetting either commutes with `apply`,
the second as long as the command fills every pod slot it claims. -/
namespace Hivemind

def Deployment.eraseTick (d : Deployment) : Deployment := { d with lastRequestTick := 0 }

namespace StateMachine

def eraseTicks (sm : StateMachine) : StateMachine :=
  { sm with deployments := sm.deployments.map Deployment.eraseTick }

/-- The tables without their ticks, with the pod memory and the seed replaced. -/
def forget (m : (ℕ → Pod) → ℕ → Pod) (z : UInt64 → UInt64) (sm : StateMachine) : StateMachine :=
  { sm.eraseTicks with podMemory := m sm.podMemory, seed := z sm.seed }

/-- The deployment is there and active, so that `appendPodForDeployment` fills what it claims. -/
def Serves (sm : StateMachine) (id : ℕ) : Prop :=
  ∃ dep, sm.findDeployment id = some dep ∧ dep.active = true

/-- The command claims no pod slot it leaves unfilled. Only `scale_deployment` can: it looks
a deployment up without asking whether it is active. A created deployment is found under its
generated id, which would have to be that of a deleted one. -/
def fills (sm : StateMachine) : Command → Bool
  | .scaleDeployment id desired =>
    match sm.findDeployment id with
    | none => true
    | some dep => dep.active || desired ≤ dep.replicas
  | .createDeployment _ => sm.deployments.all fun d => d.active || d.id != sm.generateId.1
  | _ => true

/-- The command claims a new pod slot and leaves it unfilled: it scales a deleted deployment up
while no slot is free and the table has room. -/
def wastes (sm : StateMachine) : Command → Bool
  | .scaleDeployment id desired =>
    (sm.findDeployment id).any fun dep => !dep.active && decide (dep.replicas < desired) &&
      sm.findInactivePodIndex.isNone && decide (sm.pods.length < maxPods)
  | _ => false

/-- A slot claimed for the deployment is filled, or it is not a new one. -/
def Spares (sm : StateMachine) (id : ℕ) : Prop :=
  sm.Serves id ∨ sm.findInactivePodIndex.isSome = true ∨ maxPods ≤ sm.pods.length

variable {sm : StateMachine} {m : (ℕ → Pod) → ℕ → Pod} {z : UInt64 → UInt64}

/-! ### Lookups and updates -/

theorem modify_map {α β : Type*} {f : α → β} {g : α → α} {g' : β → β}
    (h : ∀ a, g' (f a) = f (g a)) (l : List α) (i : ℕ) :
    (l.map f).modify i g' = (l.modify i g).map f := by
  induction l generalizing i with
  | nil => simp
  | cons a l ih =>
    cases i with
    | zero => simp [h]
    | succ i => simp [ih]

theorem forget_pods (sm : StateMachine) : (sm.forget m z).pods = sm.pods := rfl

theorem findDeploymentIndex_forget (id : ℕ) :
    (sm.forget m z).findDeploymentIndex id = sm.findDeploymentIndex id := by
  simp only [findDeploymentIndex, forget, eraseTicks, List.findIdx?_map]
  rfl

theorem findInactiveDeploymentIndex_forget :
    (sm.forget m z).findInactiveDeploymentIndex = sm.findInactiveDeploymentIndex := by
  simp only [findInactiveDeploymentIndex, forget, eraseTicks, List.findIdx?_map]
  rfl

theorem findDeployment_forget (id : ℕ) :
    (sm.forget m z).findDeployment id = (sm.findDeployment id).map Deployment.eraseTick := by
  simp only [findDeployment, forget, eraseTicks, List.find?_map]
  rfl

theorem setDeployment_forget {f : Deployment → Deployment}
    (hf : ∀ d : Deployment, f d.eraseTick = (f d).eraseTick) (idx : ℕ) :
    (sm.forget m z).setDeployment idx f = (sm.setDeployment idx f).forget m z := by
  simp only [setDeployment, forget, eraseTicks, modify_map hf]

theorem setPod_forget (i : ℕ) (f : Pod → Pod) :
    (sm.forget m z).setPod i f = (sm.setPod i f).forget m z := rfl

/-! ### Pod tables -/

theorem appendPodForDeployment_deployments (id ordinal : ℕ) :
    (sm.appendPodForDeployment id ordinal).2.deployments = sm.deployments := by
  unfold appendPodForDeployment claimPodSlot
  split
  · rfl
  · next heq =>
    have hsame : ∀ {i sm₁}, sm.claimPodSlot = some (i, sm₁) → sm₁.deployments = sm.deployments := by
      intro i sm₁ hclaim
      unfold claimPodSlot at hclaim
      split at hclaim
      · cases hclaim
        rfl
      · split at hclaim <;> cases hclaim
        rfl
    have hdeps := hsame heq
    split
    · exact hdeps
    · split <;> exact hdeps

theorem Serves.congr {sm' : StateMachine} {id : ℕ} (h : sm.Serves id)
    (hdeps : sm'.deployments = sm.deployments) : sm'.Serves id := by
  unfold Serves findDeployment at h ⊢
  rwa [hdeps]

theorem appendPodForDeployment_forget {id : ℕ} (ordinal : ℕ)
    (hm : (∀ mem, m mem = mem) ∨ sm.Spares id) :
    (sm.forget m z).appendPodForDeployment id ordinal =
      ((sm.appendPodForDeployment id ordinal).1,
        (sm.appendPodForDeployment id ordinal).2.forget m z) := by
  have hfree : (sm.forget m z).findInactivePodIndex = sm.findInactivePodIndex := rfl
  have hpods : (sm.forget m z).pods = sm.pods := forget_pods sm
  have hdep : (sm.forget m z).findDeployment id =
      (sm.findDeployment id).map Deployment.eraseTick := findDeployment_forget id
  have hact : ∀ dep : Deployment, dep.eraseTick.active = dep.active := fun _ => rfl
  simp only [appendPodForDeployment, claimPodSlot, hfree, hpods]
  cases hslot : sm.findInactivePodIndex with
  | some i =>
    dsimp only
    rw [hdep]
    cases sm.findDeployment id with
    | none => rfl
    | some dep =>
      simp only [Option.map_some, hact]
      split <;> rfl
  | none =>
    by_cases hfull : sm.pods.length ≥ maxPods
    · simp only [if_pos hfull]
    have hclaimed : ∀ (sm : StateMachine) (l : List Pod),
        findDeployment { sm with pods := l } id = sm.findDeployment id := fun _ _ => rfl
    simp only [if_neg hfull, hclaimed, hdep]
    rcases hm with hm | ⟨dep, hfound, hactive⟩ | hfree | hfull'
    · cases sm.findDeployment id with
      | none => simp [forget, hm, eraseTicks]
      | some dep =>
        simp only [Option.map_some, hact]
        split <;> simp [forget, hm, eraseTicks, generateId, podOf, Deployment.eraseTick]
    · simp [hfound, hactive, forget, eraseTicks, generateId, podOf, Deployment.eraseTick]
    · rw [hslot] at hfree
      cases hfree
    · exact absurd hfull' hfull

theorem serves_of_append {id ordinal : ℕ} (h : (sm.appendPodForDeployment id ordinal).1 = true) :
    sm.Serves id := by
  have hclaimed : ∀ {i sm₁}, sm.claimPodSlot = some (i, sm₁) →
      sm₁.findDeployment id = sm.findDeployment id := by
    intro i sm₁ hclaim
    unfold claimPodSlot at hclaim
    split at hclaim
    · cases hclaim
      rfl
    · split at hclaim <;> cases hclaim
      rfl
  unfold appendPodForDeployment at h
  cases hclaim : sm.claimPodSlot with
  | none =>
    rw [hclaim] at h
    cases h
  | some x =>
    rw [hclaim] at h
    dsimp only at h
    rw [hclaimed hclaim] at h
    cases hdep : sm.findDeployment id with
    | none =>
      rw [hdep] at h
      cases h
    | some dep =>
      rw [hdep] at h
      dsimp only at h
      split at h
      · cases h
      · next hactive => exact ⟨dep, hdep, by simpa using hactive⟩

theorem appendPods_forget {id : ℕ} (ordinal remaining : ℕ) {sm : StateMachine}
    (hm : (∀ mem, m mem = mem) ∨ sm.Spares id) :
    appendPods id ordinal remaining (sm.forget m z) =
      (appendPods id ordinal remaining sm).forget m z := by
  induction remaining generalizing ordinal sm with
  | zero => rfl
  | succ remaining ih =>
    have hkeep : (sm.appendPodForDeployment id ordinal).2.deployments = sm.deployments :=
      appendPodForDeployment_deployments id ordinal
    have hserves : (sm.appendPodForDeployment id ordinal).1 = true → sm.Serves id := serves_of_append
    unfold appendPods
    rw [appendPodForDeployment_forget ordinal hm]
    revert hkeep hserves
    obtain ⟨b, sm₁⟩ := sm.appendPodForDeployment id ordinal
    intro hkeep hserves
    cases b with
    | false => rfl
    | true => exact ih _ (.inr (.inl ((hserves rfl).congr hkeep)))

theorem ensureDeploymentReplicaCount_forget (id : ℕ) :
    (sm.forget m z).ensureDeploymentReplicaCount id =
      (sm.ensureDeploymentReplicaCount id).forget m z := by
  unfold ensureDeploymentReplicaCount
  rw [findDeployment_forget]
  cases hdep : sm.findDeployment id with
  | none => rfl
  | some dep =>
    show (if !dep.active || dep.paused then _ else _) = _
    dsimp only
    split
    · rfl
    · next hact =>
      have hserves : sm.Serves id := by
        refine ⟨dep, hdep, ?_⟩
        simp only [Bool.or_eq_true, not_or, Bool.not_eq_true', Bool.not_eq_false] at hact
        exact hact.1
      exact appendPods_forget _ _ (.inr (.inl hserves))

theorem releaseOnNode_forget (p : Pod) :
    (sm.forget m z).releaseOnNode p = (sm.releaseOnNode p).map (forget m z) := by
  have hfind : (sm.forget m z).findNodeIndex p.nodeId = sm.findNodeIndex p.nodeId := rfl
  have hnodes : (sm.forget m z).nodes = sm.nodes := rfl
  simp only [releaseOnNode, hfind, hnodes]
  split
  · rfl
  cases sm.findNodeIndex p.nodeId with
  | none => rfl
  | some i =>
    dsimp only
    cases sm.nodes[i]? with
    | none => rfl
    | some n =>
      dsimp only
      cases releasePod n p <;> rfl

theorem terminatePod_forget (depIdx i : ℕ) (pod : Pod) :
    (sm.forget m z).terminatePod depIdx i pod = (sm.terminatePod depIdx i pod).forget m z := by
  unfold terminatePod
  by_cases hrun : pod.phase = .running
  · simp only [if_pos hrun]
    rw [setDeployment_forget]
    · rfl
    · exact fun _ => rfl
  · simp only [if_neg hrun]
    rfl

theorem terminateExcess_forget (id depIdx : ℕ) (slots : List ℕ) (excess : ℕ)
    (sm : StateMachine) :
    terminateExcess id depIdx slots excess (sm.forget m z) =
      (terminateExcess id depIdx slots excess sm).forget m z := by
  induction slots generalizing excess sm with
  | nil => rfl
  | cons i rest ih =>
    cases excess with
    | zero => rfl
    | succ excess =>
      unfold terminateExcess
      rw [forget_pods]
      cases sm.pods[i]? with
      | none => exact ih _ _
      | some pod =>
        dsimp only
        split
        · exact ih _ _
        · rw [terminatePod_forget]
          exact ih _ _

theorem deletePods_forget (id depIdx : ℕ) (slots : List ℕ) (sm : StateMachine) :
    deletePods id depIdx slots (sm.forget m z) =
      (deletePods id depIdx slots sm).map (forget m z) := by
  induction slots generalizing sm with
  | nil => rfl
  | cons i rest ih =>
    unfold deletePods
    rw [forget_pods]
    cases sm.pods[i]? with
    | none => exact ih _
    | some pod =>
      dsimp only
      split
      · exact ih _
      · rw [releaseOnNode_forget]
        cases sm.releaseOnNode pod with
        | none => rfl
        | some sm₁ =>
          dsimp only [Option.map_some]
          rw [terminatePod_forget, setPod_forget]
          exact ih _

theorem collectDemands_forget (bindings : List PodBinding) (seen : List ℕ)
    (demands : List BatchNodeDemand) :
    (sm.forget m z).collectDemands bindings seen demands =
      sm.collectDemands bindings seen demands := by
  induction bindings generalizing seen demands with
  | nil => rfl
  | cons b rest ih =>
    unfold collectDemands
    simp only [ih]
    rfl

/-! ### Handlers -/

/-- An outcome without what the tables do not depend on. -/
def forgotten (m : (ℕ → Pod) → ℕ → Pod) (z : UInt64 → UInt64) (x : StateMachine × Result) :
    StateMachine × Result := (x.1.forget m z, x.2)

theorem handleRegisterNode_forget (cmd : RegisterNodeCmd) :
    (sm.forget m z).handleRegisterNode cmd = forgotten m z (sm.handleRegisterNode cmd) := by
  have hfind : (sm.forget m z).findActiveNodeIndexByName cmd.nodeName =
      sm.findActiveNodeIndexByName cmd.nodeName := rfl
  have hnodes : (sm.forget m z).nodes = sm.nodes := rfl
  simp only [handleRegisterNode, hfind, hnodes]
  cases sm.findActiveNodeIndexByName cmd.nodeName with
  | some idx => rfl
  | none =>
    dsimp only
    split <;> rfl

theorem findNodeIndex_forget (nodeId : ℕ) :
    (sm.forget m z).findNodeIndex nodeId = sm.findNodeIndex nodeId := rfl

theorem handleDeregisterNode_forget (nodeId : ℕ) :
    (sm.forget m z).handleDeregisterNode nodeId = forgotten m z (sm.handleDeregisterNode nodeId) := by
  unfold handleDeregisterNode
  rw [findNodeIndex_forget]
  cases sm.findNodeIndex nodeId <;> rfl

theorem handleUpdateNodeStatus_forget (nodeId : ℕ) (newStatus : NodeStatus) :
    (sm.forget m z).handleUpdateNodeStatus nodeId newStatus =
      forgotten m z (sm.handleUpdateNodeStatus nodeId newStatus) := by
  have hnodes : (sm.forget m z).nodes = sm.nodes := rfl
  simp only [handleUpdateNodeStatus, findNodeIndex_forget, hnodes]
  cases sm.findNodeIndex nodeId with
  | none => rfl
  | some idx =>
    dsimp only
    cases sm.nodes[idx]? with
    | none => rfl
    | some n =>
      dsimp only
      split <;> rfl

theorem findPodIndex_forget (podId : ℕ) :
    (sm.forget m z).findPodIndex podId = sm.findPodIndex podId := rfl

theorem findPod_forget (podId : ℕ) : (sm.forget m z).findPod podId = sm.findPod podId := rfl

theorem handleBindPodToNode_forget (podId nodeId : ℕ) :
    (sm.forget m z).handleBindPodToNode podId nodeId =
      forgotten m z (sm.handleBindPodToNode podId nodeId) := by
  have hnode : (sm.forget m z).findNode nodeId = sm.findNode nodeId := rfl
  unfold handleBindPodToNode
  rw [findPodIndex_forget, findPod_forget, findNodeIndex_forget, hnode]
  cases sm.findPodIndex podId with
  | none => rfl
  | some podIdx =>
    cases sm.findPod podId with
    | none => rfl
    | some pod =>
      cases sm.findNodeIndex nodeId with
      | none => rfl
      | some nodeIdx =>
        cases sm.findNode nodeId with
        | none => rfl
        | some node =>
          dsimp only
          split_ifs <;> rfl

theorem handleSetKillswitch_forget (nodeId deploymentId : ℕ) (active : Bool) :
    (sm.forget m z).handleSetKillswitch nodeId deploymentId active =
      forgotten m z (sm.handleSetKillswitch nodeId deploymentId active) := by
  have hks : (sm.forget m z).killswitches = sm.killswitches := rfl
  simp only [handleSetKillswitch, hks]
  split
  · rfl
  · split_ifs <;> rfl

theorem serves_of_all {id : ℕ} (hthere : ∃ d ∈ sm.deployments, d.id = id)
    (hall : ∀ d ∈ sm.deployments, d.id = id → d.active = true) : sm.Serves id := by
  obtain ⟨d, hd, hid⟩ := hthere
  have hsome : (sm.findDeployment id).isSome := by
    rw [findDeployment, List.find?_isSome]
    exact ⟨d, hd, by simp [hid]⟩
  obtain ⟨dep, hdep⟩ := Option.isSome_iff_exists.mp hsome
  have hmem := List.mem_of_find?_eq_some hdep
  have hdid : dep.id = id := by simpa using List.find?_some hdep
  exact ⟨dep, hdep, hall dep hmem hdid⟩

theorem serves_set (sm : StateMachine) {idx : ℕ} {d : Deployment} (hidx : sm.findInactiveDeploymentIndex = some idx)
    (hactive : d.active = true) : Serves { sm with deployments := sm.deployments.set idx d } d.id := by
  obtain ⟨hlt, -, hbefore⟩ := List.findIdx?_eq_some_iff_getElem.mp hidx
  have hsome : ((sm.deployments.set idx d).find? (fun x => x.id == d.id)).isSome := by
    rw [List.find?_isSome]
    exact ⟨d, List.mem_set hlt d, by simp⟩
  obtain ⟨x, hx⟩ := Option.isSome_iff_exists.mp hsome
  refine ⟨x, hx, ?_⟩
  obtain ⟨-, i, hi, hget, hfirst⟩ := List.find?_eq_some_iff_getElem.mp hx
  rcases lt_trichotomy i idx with hlt' | rfl | hgt
  · -- a deployment before the first deleted one is not deleted
    have hne : idx ≠ i := by omega
    rw [List.getElem_set_ne hne] at hget
    have hkept := hbefore i hlt'
    rw [hget] at hkept
    simpa using hkept
  · rw [List.getElem_set_self] at hget
    rw [← hget, hactive]
  · have hself := hfirst idx hgt
    simp at hself

theorem serves_append (sm : StateMachine) {d : Deployment} (hall : sm.findInactiveDeploymentIndex = none)
    (hactive : d.active = true) : Serves { sm with deployments := sm.deployments ++ [d] } d.id := by
  apply serves_of_all
  · exact ⟨d, by simp, rfl⟩
  · intro x hx _
    rcases List.mem_append.mp hx with hx | hx
    · have hkept := List.findIdx?_eq_none_iff.mp hall x hx
      simpa using hkept
    · rw [List.mem_singleton.mp hx, hactive]

theorem handleCreateDeployment_forget (cmd : CreateDeploymentCmd) :
    (sm.forget m z).handleCreateDeployment cmd = forgotten m z (sm.handleCreateDeployment cmd) := by
  have hlen : (sm.forget m z).deployments.length = sm.deployments.length := List.length_map _
  unfold handleCreateDeployment
  rw [findInactiveDeploymentIndex_forget, hlen]
  cases hfree : sm.findInactiveDeploymentIndex with
  | some idx =>
    have hserves : Serves { sm.generateId.2 with
        deployments := sm.deployments.set idx (deploymentOf cmd sm.generateId.1) } sm.generateId.1 :=
      serves_set sm.generateId.2 hfree rfl
    refine Prod.ext ?_ rfl
    refine Eq.trans ?_ (appendPods_forget 0 cmd.replicas (.inr (.inl hserves)))
    simp [forget, eraseTicks, generateId, List.map_set]
    rfl
  | none =>
    dsimp only
    split
    · rfl
    · have hserves : Serves { sm.generateId.2 with
          deployments := sm.deployments ++ [deploymentOf cmd sm.generateId.1] } sm.generateId.1 :=
        serves_append sm.generateId.2 hfree rfl
      refine Prod.ext ?_ rfl
      refine Eq.trans ?_ (appendPods_forget 0 cmd.replicas (.inr (.inl hserves)))
      simp [forget, eraseTicks, generateId]
      rfl

theorem countReadyAt_forget (id : ℕ) (oldPhase newPhase : PodPhase) :
    (sm.forget m z).countReadyAt id oldPhase newPhase =
      (sm.countReadyAt id oldPhase newPhase).map (forget m z) := by
  unfold countReadyAt
  rw [findDeploymentIndex_forget, findDeployment_forget]
  cases sm.findDeploymentIndex id with
  | none => rfl
  | some idx =>
    cases sm.findDeployment id with
    | none => rfl
    | some dep =>
      dsimp only [Option.map_some]
      have hcount : countReady dep.eraseTick oldPhase newPhase =
          (countReady dep oldPhase newPhase).map Deployment.eraseTick := by
        unfold countReady
        split_ifs <;> first | rfl | contradiction
      rw [hcount]
      cases countReady dep oldPhase newPhase with
      | none => rfl
      | some dep' =>
        dsimp only [Option.map_some]
        rw [setDeployment_forget]
        · rfl
        · exact fun _ => rfl

theorem handleUpdatePodStatus_forget (podId : ℕ) (newPhase : PodPhase) :
    (sm.forget m z).handleUpdatePodStatus podId newPhase =
      (sm.handleUpdatePodStatus podId newPhase).map (forgotten m z) := by
  unfold handleUpdatePodStatus
  rw [findPodIndex_forget, findPod_forget]
  cases sm.findPodIndex podId with
  | none => rfl
  | some podIdx =>
    cases sm.findPod podId with
    | none => rfl
    | some pod =>
      dsimp only
      rw [countReadyAt_forget]
      cases sm.countReadyAt pod.deploymentId pod.phase newPhase with
      | none => rfl
      | some sm₁ =>
        dsimp only [Option.map_some]
        split
        · rw [releaseOnNode_forget]
          cases sm₁.releaseOnNode pod with
          | none => rfl
          | some sm₂ =>
            dsimp only [Option.map_some]
            rw [setPod_forget, ensureDeploymentReplicaCount_forget]
            split <;> rfl
        · rfl

theorem find?_modify {α : Type*} {p : α → Bool} {f : α → α} (h : ∀ a, p (f a) = p a)
    (l : List α) (i : ℕ) :
    (l.modify i f).find? p = l.find? p ∨ (l.modify i f).find? p = (l.find? p).map f := by
  induction l generalizing i with
  | nil => simp
  | cons a l ih =>
    cases i with
    | zero =>
      simp only [List.modify_zero_cons, List.find?_cons, h]
      cases p a <;> simp
    | succ i =>
      simp only [List.modify_succ_cons, List.find?_cons]
      cases p a
      · exact ih i
      · exact .inl rfl

theorem Serves.setDeployment {id : ℕ} (h : sm.Serves id) {f : Deployment → Deployment}
    (hid : ∀ d, (f d).id = d.id) (hactive : ∀ d, (f d).active = d.active) (idx : ℕ) :
    (sm.setDeployment idx f).Serves id := by
  obtain ⟨dep, hdep, hact⟩ := h
  have hkey : ∀ d : Deployment, ((f d).id == id) = (d.id == id) := fun d => by rw [hid]
  rcases find?_modify (p := fun d => d.id == id) (f := f) hkey sm.deployments idx with heq | heq
  · exact ⟨dep, heq.trans hdep, hact⟩
  · refine ⟨f dep, heq.trans ?_, (hactive dep).trans hact⟩
    rw [show sm.deployments.find? _ = some dep from hdep, Option.map_some]

theorem handleScaleDeployment_forget {id desiredReplicas : ℕ}
    (hm : (∀ mem, m mem = mem) ∨ sm.wastes (.scaleDeployment id desiredReplicas) = false) :
    (sm.forget m z).handleScaleDeployment id desiredReplicas =
      forgotten m z (sm.handleScaleDeployment id desiredReplicas) := by
  unfold handleScaleDeployment
  rw [findDeploymentIndex_forget, findDeployment_forget]
  cases sm.findDeploymentIndex id with
  | none => rfl
  | some depIdx =>
    cases hdep : sm.findDeployment id with
    | none => rfl
    | some dep =>
      have hrep : dep.eraseTick.replicas = dep.replicas := rfl
      dsimp only [Option.map_some]
      rw [setDeployment_forget, hrep]
      · split
        · next hup =>
          refine Prod.ext (appendPods_forget _ _ (hm.imp_right fun hspares => ?_)) rfl
          by_cases hactive : dep.active = true
          · left
            apply Serves.setDeployment ⟨dep, hdep, hactive⟩
            · exact fun _ => rfl
            · exact fun _ => rfl
          · -- no slot is claimed for a deleted deployment
            right
            by_contra hclaims
            rw [not_or, Bool.not_eq_true, Option.isSome_eq_false_iff, not_le] at hclaims
            have hwaste : sm.wastes (.scaleDeployment id desiredReplicas) = true := by
              simp only [wastes, hdep, Option.any_some, Bool.and_eq_true, Bool.not_eq_true',
                decide_eq_true_eq]
              exact ⟨⟨⟨by simpa using hactive, hup⟩, hclaims.1⟩, hclaims.2⟩
            rw [hwaste] at hspares
            cases hspares
        · exact Prod.ext (terminateExcess_forget _ _ _ _ _) rfl
      · exact fun _ => rfl

theorem handleUnbindPod_forget (podId : ℕ) :
    (sm.forget m z).handleUnbindPod podId = forgotten m z (sm.handleUnbindPod podId) := by
  unfold handleUnbindPod
  rw [findPodIndex_forget, findPod_forget]
  cases sm.findPodIndex podId with
  | none => rfl
  | some podIdx =>
    cases sm.findPod podId with
    | none => rfl
    | some pod =>
      dsimp only
      rw [findDeploymentIndex_forget]
      cases sm.findDeploymentIndex pod.deploymentId with
      | none => rfl
      | some depIdx =>
        dsimp only
        rw [terminatePod_forget]
        rfl

theorem updateDeploymentAt_forget (id : ℕ)
    {f : Deployment → Option (Except ErrorCode Deployment)}
    (hf : ∀ d : Deployment, f d.eraseTick = (f d).map (Except.map Deployment.eraseTick)) :
    (sm.forget m z).updateDeploymentAt id f = (sm.updateDeploymentAt id f).map (forgotten m z) := by
  unfold updateDeploymentAt
  rw [findDeploymentIndex_forget, findDeployment_forget]
  cases sm.findDeploymentIndex id with
  | none => rfl
  | some idx =>
    cases sm.findDeployment id with
    | none => rfl
    | some dep =>
      dsimp only [Option.map_some]
      rw [hf]
      cases f dep with
      | none => rfl
      | some r =>
        cases r with
        | error code => rfl
        | ok dep' => simp [Except.map, forgotten, forget, eraseTicks, List.map_set]

theorem handleDeleteDeployment_forget (id : ℕ) :
    (sm.forget m z).handleDeleteDeployment id = (sm.handleDeleteDeployment id).map (forgotten m z) := by
  unfold handleDeleteDeployment
  rw [findDeploymentIndex_forget]
  cases sm.findDeploymentIndex id with
  | none => rfl
  | some depIdx =>
    dsimp only
    rw [setDeployment_forget]
    · rw [forget_pods, deletePods_forget, Option.map_map, Option.map_map]
      rfl
    · exact fun _ => rfl

theorem handleBindPodsToNodes_forget (cmd : BindPodsToNodesCmd) :
    (sm.forget m z).handleBindPodsToNodes cmd = (sm.handleBindPodsToNodes cmd).map (forgotten m z) := by
  have htake : ∀ (demands : List BatchNodeDemand) (sm : StateMachine),
      demands.foldl takeDemand (sm.forget m z) = (demands.foldl takeDemand sm).forget m z :=
    fun _ _ => List.foldl_hom (forget m z) fun _ _ => rfl
  have hbind : ∀ (bindings : List PodBinding) (sm : StateMachine),
      bindings.foldl bindOne (sm.forget m z) = (bindings.foldl bindOne sm).forget m z := by
    intro bindings sm
    refine List.foldl_hom (forget m z) fun sm b => ?_
    unfold bindOne
    rw [findPodIndex_forget]
    cases sm.findPodIndex b.podId <;> rfl
  have hmet : (sm.forget m z).demandMet = sm.demandMet := rfl
  unfold handleBindPodsToNodes
  split
  · rfl
  dsimp only
  rw [collectDemands_forget]
  cases sm.collectDemands (cmd.bindings.take cmd.count) [] [] with
  | none => rfl
  | some r =>
    cases r with
    | error code => rfl
    | ok demands =>
      dsimp only
      rw [hmet, htake, hbind]
      split <;> rfl

/-! ### Execution -/

theorem apply_forget {cmd : Command}
    (hm : (∀ mem, m mem = mem) ∨ sm.wastes cmd = false) :
    (sm.forget m z).apply cmd = (sm.apply cmd).map (forgotten m z) := by
  cases cmd with
  | createDeployment cmd => exact congrArg some (handleCreateDeployment_forget cmd)
  | bindPodsToNodes cmd => exact handleBindPodsToNodes_forget cmd
  | updatePodStatus podId newPhase => exact handleUpdatePodStatus_forget podId newPhase
  | scaleDeployment id n => exact congrArg some (handleScaleDeployment_forget hm)
  | unbindPod podId => exact congrArg some (handleUnbindPod_forget podId)
  | updateDeployment cmd =>
    refine updateDeploymentAt_forget _ fun d => ?_
    show (if d.version + 1 > u32Max then _ else _) = _
    split <;> rfl
  | setTrafficSplit cmd =>
    simp only [apply, handleSetTrafficSplit]
    refine updateDeploymentAt_forget _ fun d => ?_
    rfl
  | rollbackDeployment id =>
    refine updateDeploymentAt_forget _ fun d => ?_
    show (if d.previousVersion = 0 then _ else if d.version + 1 > u32Max then _ else _) = _
    split_ifs <;> rfl
  | deleteDeployment id => exact handleDeleteDeployment_forget id
  | pauseDeployment id =>
    simp only [apply, handlePauseDeployment]
    refine updateDeploymentAt_forget _ fun d => ?_
    rfl
  | resumeDeployment id =>
    simp only [apply, handleResumeDeployment]
    refine updateDeploymentAt_forget _ fun d => ?_
    rfl
  | noop => rfl
  | registerNode cmd => exact congrArg some (handleRegisterNode_forget cmd)
  | deregisterNode nodeId => exact congrArg some (handleDeregisterNode_forget nodeId)
  | updateNodeStatus nodeId status =>
    exact congrArg some (handleUpdateNodeStatus_forget nodeId status)
  | bindPodToNode podId nodeId => exact congrArg some (handleBindPodToNode_forget podId nodeId)
  | setKillswitch nodeId deploymentId active =>
    exact congrArg some (handleSetKillswitch_forget nodeId deploymentId active)

/-- The replicated part of an outcome. -/
def erased (x : StateMachine × Result) : StateMachine × Result := (x.1.eraseTicks, x.2)

/-- Forgetting the local ticks commutes with the execution of a command. -/
theorem apply_erase (cmd : Command) :
    sm.eraseTicks.apply cmd = (sm.apply cmd).map erased :=
  apply_forget (m := fun mem => mem) (z := fun x => x) (.inl fun _ => rfl)

theorem touchDeployment_erase (deploymentId now : ℕ) :
    (sm.touchDeployment deploymentId now).eraseTicks = sm.eraseTicks := by
  unfold touchDeployment
  split
  · rfl
  · next idx _ =>
    have htouch : ∀ d : Deployment,
        id d.eraseTick = Deployment.eraseTick { d with lastRequestTick := now } := fun _ => rfl
    have h := modify_map htouch sm.deployments idx
    rw [List.modify_id] at h
    simp only [setDeployment, eraseTicks, ← h]

theorem apply_seed {sm' : StateMachine} {cmd : Command} {result : Result}
    (h : sm.apply cmd = some (sm', result)) : sm'.seed = sm.seed := by
  have hsame : (sm.forget (fun mem => mem) fun _ => sm.seed).apply cmd =
      (sm.apply cmd).map (forgotten (fun mem => mem) fun _ => sm.seed) :=
    apply_forget (.inl fun _ => rfl)
  have hticks : sm.eraseTicks.apply cmd = (sm.apply cmd).map erased := apply_erase cmd
  rw [h, Option.map_some] at hsame hticks
  have heq := Option.some.inj (hticks.symm.trans hsame)
  exact congrArg (fun x => x.1.seed) heq

/-! ### Replicated state -/

/-- A pod slot that was never filled. -/
def emptyPod : Pod := ⟨0, 0, 0, zeroes 64, zeroes 64, .pending, 0, 0, .none, 0, 0, false⟩

/-- What replicas have in common: the tables up to their counts, and the generator. -/
def replicated (sm : StateMachine) : StateMachine := sm.forget (fun _ _ => emptyPod) id

theorem replicated_of_ticks {sm' : StateMachine} (h : sm.eraseTicks = sm'.eraseTicks) :
    sm.replicated = sm'.replicated :=
  congrArg (fun sm : StateMachine => { sm with podMemory := fun _ => emptyPod }) h

theorem replicated_initInPlace (sm sm' : StateMachine) (seed : UInt64) :
    (sm.initInPlace seed).replicated = (sm'.initInPlace seed).replicated := rfl

theorem wastes_replicated (cmd : Command) : sm.replicated.wastes cmd = sm.wastes cmd := by
  cases cmd with
  | scaleDeployment id n =>
    simp only [wastes, replicated, findDeployment_forget]
    cases sm.findDeployment id <;> rfl
  | _ => rfl

theorem wastes_congr {sm' : StateMachine} (h : sm.replicated = sm'.replicated) (cmd : Command) :
    sm.wastes cmd = sm'.wastes cmd := by
  rw [← wastes_replicated, h, wastes_replicated]

/-- Commands that waste no slot run alike on every replica. -/
theorem apply_alike {sm' : StateMachine} {cmd : Command} (h : sm.replicated = sm'.replicated)
    (hspares : sm.wastes cmd = false) :
    (sm.apply cmd).map (Prod.map replicated id) = (sm'.apply cmd).map (Prod.map replicated id) := by
  have hspares' := (wastes_congr h cmd).symm.trans hspares
  have happly := apply_forget (m := fun _ _ => emptyPod) (z := id) (.inr hspares)
  have happly' := apply_forget (m := fun _ _ => emptyPod) (z := id) (.inr hspares')
  exact happly.symm.trans ((congrArg (·.apply cmd) h).trans happly')

theorem fills_wastes {cmd : Command} (h : sm.fills cmd = true) : sm.wastes cmd = false := by
  cases cmd with
  | scaleDeployment id n =>
    simp only [wastes, fills] at h ⊢
    cases hdep : sm.findDeployment id with
    | none => rfl
    | some dep =>
      rw [hdep] at h
      simp only [Bool.or_eq_true, decide_eq_true_eq] at h
      rcases h with hactive | hdown
      · simp [hactive]
      · simp [not_lt.mpr hdown]
  | _ => rfl

/-- Commands that fill the slots they claim run alike on every replica. -/
theorem apply_replicated {sm' : StateMachine} {cmd : Command}
    (h : sm.replicated = sm'.replicated) (hfills : sm.fills cmd = true) :
    (sm.apply cmd).map (Prod.map replicated id) = (sm'.apply cmd).map (Prod.map replicated id) :=
  apply_alike h (fills_wastes hfills)

end StateMachine

end Hivemind
