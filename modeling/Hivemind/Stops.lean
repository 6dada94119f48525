import Hivemind.Commit
import Hivemind.Sample
import Hivemind.Scaling

/-! The stop frames that are collected before a command is executed, against the pods the command
then takes out of service. -/
namespace Hivemind

/-- The commands whose pods are sent stop frames. -/
def Command.stops : Command → Bool
  | .deleteDeployment _ | .unbindPod _ | .scaleDeployment _ _ => true
  | _ => false

namespace Replica

variable (s : Replica)

/-- The stop frame for a pod: it has a node, and the node a connected worker. -/
def stopFor (p : Pod) : Option StopDispatch :=
  if p.nodeId = 0 then none else (s.findWorkerForNode p.nodeId).map fun w => stopDispatch w p.id

/-- The stop frames for the pods that are active before and no longer active after, slot by slot. -/
def lost (before after : List Pod) : List StopDispatch :=
  (before.zip after).filterMap fun x => if x.1.active && !x.2.active then s.stopFor x.1 else none

theorem findWorkerForNode_eq_some {nodeId w : ℕ} : s.findWorkerForNode nodeId = some w ↔
    w < s.workerCount ∧ ((s.workers w).connected = true ∧ (s.workers w).nodeId = nodeId) ∧
      ∀ v < w, ¬ ((s.workers v).connected = true ∧ (s.workers v).nodeId = nodeId) := by
  unfold findWorkerForNode
  rw [List.find?_range_eq_some]
  simp only [Bool.and_eq_true, beq_iff_eq, List.mem_range, Bool.not_eq_true', Bool.and_eq_false_iff,
    beq_eq_false_iff_ne, not_and_or, Bool.not_eq_true]
  tauto

theorem lost_cons (p q : Pod) (before after : List Pod) :
    s.lost (p :: before) (q :: after) =
      (if p.active && !q.active then s.stopFor p else none).toList ++ s.lost before after := by
  unfold lost
  rw [List.zip_cons_cons, List.filterMap_cons]
  cases (if p.active && !q.active then s.stopFor p else none) <;> rfl

theorem lost_length (before after : List Pod) : (s.lost before after).length ≤ before.length :=
  (List.length_filterMap_le _ _).trans (List.length_zip.trans_le (min_le_left _ _))

theorem lost_of_kept {before after : List Pod}
    (h : ∀ (i : ℕ) (p : Pod), before[i]? = some p → p.active = true → after[i]? = some p) :
    s.lost before after = [] := by
  induction before generalizing after with
  | nil => rfl
  | cons p before ih =>
    cases after with
    | nil => rfl
    | cons q after =>
      have hrest : s.lost before after = [] := ih fun i => h (i + 1)
      have hfirst : (p.active && !q.active) = false := by
        by_cases hp : p.active = true
        · cases h 0 p rfl hp
          simp
        · simp [hp]
      rw [lost_cons, hrest, hfirst]
      rfl

theorem lost_self (pods : List Pod) : s.lost pods pods = [] :=
  s.lost_of_kept fun _ _ h _ => h

/-- Slot by slot, a pod stays or is out of service. -/
def Thinned (before after : List Pod) : Prop :=
  List.Forall₂ (fun p q => q = p ∨ q.active = false) before after

theorem Thinned.refl (pods : List Pod) : Thinned pods pods :=
  List.forall₂_same.mpr fun _ _ => .inl rfl

theorem Thinned.set {pods : List Pod} (i : ℕ) {q : Pod} (hq : q.active = false) :
    Thinned pods (pods.set i q) := by
  induction pods generalizing i with
  | nil => exact .nil
  | cons p pods ih =>
    cases i with
    | zero => exact .cons (.inr hq) (Thinned.refl pods)
    | succ i => exact .cons (.inl rfl) (ih i)

/-- A pod that holds a node. -/
def onNode (p : Pod) : Bool := p.active && p.nodeId != 0

/-- Each stop is for a pod that held a node and holds it no longer. -/
theorem Thinned.lost {before after : List Pod} (h : Thinned before after) :
    (s.lost before after).length + after.countP onNode ≤ before.countP onNode := by
  induction h with
  | nil => exact Nat.le_refl 0
  | @cons p q before after hslot _ ih =>
    rw [lost_cons, List.length_append, List.countP_cons, List.countP_cons]
    rcases hslot with rfl | hoff
    · rw [Bool.and_not_self, if_neg Bool.false_ne_true, Option.toList_none, List.length_nil]
      omega
    · have hq : onNode q = false := by simp [onNode, hoff]
      have hp : (if (p.active && !q.active) = true then s.stopFor p else none).toList.length ≤
          if onNode p = true then 1 else 0 := by
        unfold stopFor onNode
        by_cases hactive : p.active = true
        · by_cases hnode : p.nodeId = 0
          · simp [hoff, hnode]
          · cases s.findWorkerForNode p.nodeId <;> simp [hoff, hactive, hnode]
        · simp [hactive]
      rw [hq, if_neg Bool.false_ne_true]
      omega

/-! ### The three commands -/

open StateMachine

theorem thinned_scaledDown (id excess : ℕ) (pods : List Pod) :
    Thinned pods (scaledDown id excess pods) := by
  induction pods generalizing excess with
  | nil => cases excess <;> exact .nil
  | cons p pods ih =>
    cases excess with
    | zero => exact .refl _
    | succ excess =>
      rw [scaledDown]
      split
      · exact .cons (.inl rfl) (ih _)
      · exact .cons (.inr rfl) (ih _)

/-- The list of a scale-down is collected pod for pod as the loop stops them. -/
theorem lost_scaledDown (id excess : ℕ) (pods : List Pod) :
    s.lost pods (scaledDown id excess pods) = s.scaleDownStops id excess pods := by
  induction pods generalizing excess with
  | nil => cases excess <;> rfl
  | cons p pods ih =>
    cases excess with
    | zero => exact s.lost_self _
    | succ excess =>
      rw [scaledDown, scaleDownStops]
      show _ = if passedOver id p = true then _ else _
      by_cases hpass : passedOver id p = true
      · rw [if_pos hpass, if_pos hpass, lost_cons, ih]
        simp
      · have hactive : p.active = true := by
          by_contra hoff
          simp [passedOver, hoff] at hpass
        rw [if_neg hpass, if_neg hpass, lost_cons, ih]
        have hlost : (p.active && !(stopped p).active) = true := by simp [hactive, stopped]
        rw [hlost, if_pos rfl, stopFor]
        by_cases hnode : p.nodeId = 0
        · rw [if_pos hnode, if_pos hnode]
          rfl
        · rw [if_neg hnode, if_neg hnode]
          cases s.findWorkerForNode p.nodeId <;> rfl

/-- What `handleDeleteDeployment` makes of a pod. -/
def deleted (id : ℕ) (p : Pod) : Pod := if live id p then leave p else p

theorem thinned_deleted (id : ℕ) (pods : List Pod) : Thinned pods (pods.map (deleted id)) := by
  refine List.forall₂_map_right_iff.mpr (List.forall₂_same.mpr fun p _ => ?_)
  unfold deleted
  split
  · exact .inr rfl
  · exact .inl rfl

theorem lost_deleted (id : ℕ) (pods : List Pod) :
    s.lost pods (pods.map (deleted id)) = pods.filterMap fun pod =>
      if !pod.active || pod.deploymentId != id || pod.nodeId == 0 then none
      else (s.findWorkerForNode pod.nodeId).map fun w => stopDispatch w pod.id := by
  induction pods with
  | nil => rfl
  | cons p pods ih =>
    rw [List.map_cons, lost_cons, ih, List.filterMap_cons]
    have hone : (if p.active && !(deleted id p).active then s.stopFor p else none) =
        if !p.active || p.deploymentId != id || p.nodeId == 0 then none
        else (s.findWorkerForNode p.nodeId).map fun w => stopDispatch w p.id := by
      unfold stopFor
      by_cases hlive : live id p = true
      · obtain ⟨hactive, hid⟩ := Bool.and_eq_true_iff.mp hlive
        have hleave : (deleted id p).active = false := by
          rw [deleted, if_pos hlive]
          rfl
        have hsame : p.deploymentId = id := beq_iff_eq.mp hid
        by_cases hnode : p.nodeId = 0
        · simp [hactive, hleave, hsame, hnode]
        · simp [hactive, hleave, hsame, hnode]
      · have hsame : deleted id p = p := if_neg hlive
        have hpass : (!p.active || p.deploymentId != id || p.nodeId == 0) = true := by
          simp only [live, Bool.and_eq_true, not_and_or, Bool.not_eq_true] at hlive
          obtain hoff | hother := hlive
          · simp [hoff]
          · simp [bne, hother]
        rw [hsame, hpass, if_pos rfl, Bool.and_not_self, if_neg Bool.false_ne_true]
    rw [hone]
    cases (if !p.active || p.deploymentId != id || p.nodeId == 0 then none
      else (s.findWorkerForNode p.nodeId).map fun w => stopDispatch w p.id) <;> rfl

theorem lost_stopped {i : ℕ} {p : Pod} {pods : List Pod} (h : pods[i]? = some p) :
    s.lost pods (pods.set i (stopped p)) = if p.active then (s.stopFor p).toList else [] := by
  induction pods generalizing i with
  | nil => cases h
  | cons q pods ih =>
    cases i with
    | zero =>
      cases h
      rw [List.set_cons_zero, lost_cons, lost_self, List.append_nil]
      cases p.active <;> rfl
    | succ i =>
      rw [List.set_cons_succ, lost_cons, ih h, Bool.and_not_self]
      rfl

end Replica

namespace StateMachine

variable {sm sm₁ : StateMachine} {id : ℕ}

theorem deletePods_walk {depIdx : ℕ} (done rest : List Pod) (h : sm.pods = done ++ rest)
    (hloop : deletePods id depIdx (List.range' done.length rest.length) sm = some sm₁) :
    sm₁.pods = done ++ rest.map (Replica.deleted id) := by
  induction rest generalizing done sm with
  | nil =>
    cases hloop
    exact h
  | cons p rest ih =>
    have hat : sm.pods[done.length]? = some p := by simp [h]
    have hlen : ∀ q : Pod, done.length + 1 = (done ++ [q]).length := by simp
    obtain ⟨hrest, hskip⟩ | ⟨p', sm₂, f, hp, hid, hactive, -, -, hrest⟩ := deletePods_cons hloop
    · have hsame : Replica.deleted id p = p := by
        rw [Replica.deleted, if_neg]
        intro hlive
        obtain ⟨hactive, hid⟩ := Bool.and_eq_true_iff.mp hlive
        exact hskip p hat hactive (beq_iff_eq.mp hid)
      rw [hlen p] at hrest
      rw [ih (done ++ [p]) (by simp [h]) hrest, List.map_cons, hsame]
      simp
    · cases hat.symm.trans hp
      have hleave : Replica.deleted id p = leave p := by
        rw [Replica.deleted, if_pos]
        simp [live, hactive, hid]
      rw [hlen (leave p)] at hrest
      have hpods : sm.pods.set done.length (leave p) = (done ++ [leave p]) ++ rest := by simp [h]
      have hwalk := ih (done ++ [leave p]) hpods hrest
      rw [hwalk, List.map_cons, hleave]
      simp

theorem appendPods_kept (ordinal n : ℕ) {i : ℕ} {p : Pod} (hp : sm.pods[i]? = some p)
    (hactive : p.active = true) : (appendPods id ordinal n sm).pods[i]? = some p := by
  have hgrows : ∀ q : Pod, (sm.pods ++ [q])[i]? = some p := by
    intro q
    have hlt := (List.getElem?_eq_some_iff.mp hp).1
    rw [List.getElem?_append_left hlt]
    exact hp
  induction n generalizing sm ordinal with
  | zero => exact hp
  | succ n ih =>
    rw [appendPods]
    have happends := sm.appendPodForDeployment_appends id ordinal
    cases hres : sm.appendPodForDeployment id ordinal with
    | mk filled sm' =>
      rw [hres] at happends
      have hkept : sm'.pods[i]? = some p := by
        cases happends with
        | full _ => exact hp
        | refused _ => exact hp
        | wasted _ _ _ => exact hgrows _
        | filled hq hfree _ _ _ =>
          rw [List.getElem?_set_ne, hp]
          rintro rfl
          cases hp.symm.trans hq
          rw [hactive] at hfree
          cases hfree
        | added _ _ _ => exact hgrows _
      have hgrows' : ∀ q : Pod, (sm'.pods ++ [q])[i]? = some p := by
        intro q
        have hlt := (List.getElem?_eq_some_iff.mp hkept).1
        rw [List.getElem?_append_left hlt]
        exact hkept
      cases filled with
      | false => exact hkept
      | true => exact ih (ordinal + 1) hkept hgrows'

end StateMachine

namespace Replica

open StateMachine

variable {s s' : Replica} {sm₁ : StateMachine} {cmd : Command} {result : Result}

theorem setDeployment_pods {sm : StateMachine} (depIdx : ℕ) (f : Deployment → Deployment) :
    (sm.setDeployment depIdx f).pods = sm.pods := rfl

theorem collectStopDispatches_delete {id : ℕ} (hroom : s.stateMachine.pods.length ≤ maxPods)
    (hok : result.isOk = true)
    (happly : s.stateMachine.handleDeleteDeployment id = some (sm₁, result)) :
    s.collectStopDispatches (.deleteDeployment id) = s.lost s.stateMachine.pods sm₁.pods ∧
      Thinned s.stateMachine.pods sm₁.pods := by
  obtain ⟨-, rfl⟩ | ⟨j, -, -, hloop⟩ := handleDeleteDeployment_cases happly
  · cases hok
  rw [List.range_eq_range'] at hloop
  have hpods : sm₁.pods = s.stateMachine.pods.map (deleted id) :=
    deletePods_walk [] s.stateMachine.pods (setDeployment_pods _ _) hloop
  have hlen := s.lost_length s.stateMachine.pods sm₁.pods
  rw [hpods, lost_deleted] at hlen ⊢
  refine ⟨?_, thinned_deleted id _⟩
  exact List.take_of_length_le (hlen.trans hroom)

theorem collectStopDispatches_unbind {podId : ℕ}
    (happly : s.stateMachine.handleUnbindPod podId = (sm₁, result)) :
    s.collectStopDispatches (.unbindPod podId) = s.lost s.stateMachine.pods sm₁.pods ∧
      Thinned s.stateMachine.pods sm₁.pods := by
  unfold collectStopDispatches
  dsimp only
  cases hpod : s.stateMachine.findPod podId with
  | none =>
    unfold handleUnbindPod at happly
    rw [hpod] at happly
    have hsame : sm₁ = s.stateMachine := by
      split at happly
      · contradiction
      · cases happly
        rfl
    rw [hsame]
    exact ⟨(s.lost_self _).symm, .refl _⟩
  | some pod =>
    obtain ⟨i, hidx, hat⟩ := findIdx?_of_find? hpod
    have hidx' : s.stateMachine.findPodIndex podId = some i := hidx
    have hpods : sm₁.pods = s.stateMachine.pods.set i (stopped pod) := by
      unfold handleUnbindPod at happly
      rw [hidx', hpod] at happly
      dsimp only at happly
      split at happly
      · cases happly
        rw [terminatePod_pods, modify_eq_set _ hat]
        rfl
      · cases happly
        exact modify_eq_set _ hat
    rw [hpods, s.lost_stopped hat]
    refine ⟨?_, .set i rfl⟩
    dsimp only
    unfold stopFor
    by_cases hnode : pod.nodeId = 0
    · simp [hnode]
    · cases hactive : pod.active with
      | false => simp
      | true =>
        simp only [Bool.true_and, bne_iff_ne, ne_eq, hnode, not_false_eq_true, if_true]
        cases s.findWorkerForNode pod.nodeId <;> rfl

theorem collectStopDispatches_scale {id n : ℕ} (hroom : s.stateMachine.pods.length ≤ maxPods)
    (happly : s.stateMachine.handleScaleDeployment id n = (sm₁, result)) :
    s.collectStopDispatches (.scaleDeployment id n) = s.lost s.stateMachine.pods sm₁.pods ∧
      (s.collectStopDispatches (.scaleDeployment id n) = [] ∨
        Thinned s.stateMachine.pods sm₁.pods) := by
  unfold collectStopDispatches
  unfold handleScaleDeployment at happly
  dsimp only
  cases hfind : s.stateMachine.findDeployment id with
  | none =>
    rw [hfind] at happly
    have hsame : sm₁ = s.stateMachine := by
      split at happly
      · contradiction
      · cases happly
        rfl
    rw [hsame]
    exact ⟨(s.lost_self _).symm, .inl rfl⟩
  | some dep =>
    obtain ⟨depIdx, hidx, -⟩ := findIdx?_of_find? hfind
    have hidx' : s.stateMachine.findDeploymentIndex id = some depIdx := hidx
    rw [hidx', hfind] at happly
    dsimp only at happly ⊢
    by_cases hup : n > dep.replicas
    · -- a scale-up stops nothing
      rw [if_pos hup] at happly
      cases happly
      rw [if_pos hup.le]
      refine ⟨(s.lost_of_kept fun i p hp hactive => ?_).symm, .inl rfl⟩
      exact appendPods_kept _ _ hp hactive
    · rw [if_neg hup] at happly
      have hsm := (Prod.mk.inj happly).1
      rw [← hsm, terminateExcess_range, setDeployment_pods, lost_scaledDown]
      have hlen := s.lost_length s.stateMachine.pods
        (scaledDown id (dep.replicas - n) s.stateMachine.pods)
      rw [lost_scaledDown] at hlen
      refine ⟨?_, .inr (thinned_scaledDown id _ _)⟩
      by_cases hsame : n ≥ dep.replicas
      · rw [if_pos hsame, Nat.sub_eq_zero_of_le hsame]
        cases s.stateMachine.pods <;> rfl
      · rw [if_neg hsame]
        exact List.take_of_length_le (hlen.trans hroom)

theorem collectStopDispatches_ok (hroom : s.stateMachine.pods.length ≤ maxPods)
    (happly : s.stateMachine.apply cmd = some (sm₁, result)) (hok : result.isOk = true) :
    s.collectStopDispatches cmd =
      if cmd.stops then s.lost s.stateMachine.pods sm₁.pods else [] := by
  cases cmd with
  | deleteDeployment id => exact (collectStopDispatches_delete hroom hok happly).1
  | unbindPod podId => exact (collectStopDispatches_unbind (Option.some.inj happly)).1
  | scaleDeployment id n => exact (collectStopDispatches_scale hroom (Option.some.inj happly)).1
  | _ => rfl

theorem collectStopDispatches_thins (hroom : s.stateMachine.pods.length ≤ maxPods)
    (happly : s.stateMachine.apply cmd = some (sm₁, result)) (hok : result.isOk = true) :
    s.collectStopDispatches cmd = [] ∨ (s.collectStopDispatches cmd).length +
      sm₁.pods.countP onNode ≤ s.stateMachine.pods.countP onNode := by
  cases cmd with
  | deleteDeployment id =>
    obtain ⟨hlost, hthin⟩ := collectStopDispatches_delete hroom hok happly
    exact .inr (hlost ▸ hthin.lost s)
  | unbindPod podId =>
    obtain ⟨hlost, hthin⟩ := collectStopDispatches_unbind (Option.some.inj happly)
    exact .inr (hlost ▸ hthin.lost s)
  | scaleDeployment id n =>
    obtain ⟨hlost, hnone | hthin⟩ := collectStopDispatches_scale hroom (Option.some.inj happly)
    · exact .inl hnone
    · exact .inr (hlost ▸ hthin.lost s)
  | _ => exact .inl rfl

/-- The list collected before a command that returns ok has the pods that are active before it, have
a node with a connected worker and are no longer active after it, slot by slot and each with the
first such worker; and these are the stops that the commit of a command queues, none if it returns
an error. -/
theorem stop_dispatches_match (s : Replica) (hroom : s.stateMachine.pods.length ≤ maxPods) :
    (∀ cmd sm₁ id, s.stateMachine.apply cmd = some (sm₁, .ok id) →
      s.collectStopDispatches cmd =
        if cmd.stops then s.lost s.stateMachine.pods sm₁.pods else []) ∧
    (∀ nodeId w, s.findWorkerForNode nodeId = some w ↔
      w < s.workerCount ∧ ((s.workers w).connected = true ∧ (s.workers w).nodeId = nodeId) ∧
        ∀ v < w, ¬ ((s.workers v).connected = true ∧ (s.workers v).nodeId = nodeId)) ∧
    ∀ op e s', s.journalGet op = some e → s.commitEntry op = .ok s' →
      ∃ sm₁ result, s.stateMachine.apply e.command = some (sm₁, result) ∧
        s'.pendingStops = s.pendingStops ++ (if result.isOk && e.command.stops then
          s.lost s.stateMachine.pods sm₁.pods else []).map fun d => (op, d) := by
  refine ⟨fun cmd sm₁ id happly => collectStopDispatches_ok hroom happly rfl,
    fun _ _ => s.findWorkerForNode_eq_some, fun op e s' hget hcommit => ?_⟩
  unfold commitEntry at hcommit
  split at hcommit
  · cases hcommit
  rw [hget] at hcommit
  dsimp only at hcommit
  split at hcommit
  · cases hcommit
  next sm₁ result happly =>
  refine ⟨sm₁, result, happly, ?_⟩
  unfold queueStops at hcommit
  cases hok : result.isOk with
  | false =>
    rw [hok] at hcommit
    cases hcommit
    exact (List.append_nil s.pendingStops).symm
  | true =>
    have hlist := collectStopDispatches_ok hroom happly hok
    rw [hok, Bool.true_and] at hcommit
    rw [Bool.true_and, ← hlist]
    split at hcommit
    · split at hcommit
      · cases hcommit
        rfl
      · cases hcommit
    next hnone =>
    cases hcommit
    have hempty : s.collectStopDispatches e.command = [] := by
      apply List.eq_nil_of_length_eq_zero
      simpa using hnone
    rw [hempty]
    exact (List.append_nil s.pendingStops).symm

/-- A replica with connected workers for nodes 5 and 6, a deployment with five pods in different
phases, on these nodes, on another one and on none, and on node 5 a pod whose deployment is not in
the table. -/
def attended : Replica :=
  let sm := (blank.handleCreateDeployment { replicas := 5 }).1
  let place (i : ℕ) (p : Pod) : Pod :=
    { p with
      nodeId := [5, 6, 0, 7, 5].getD i 0
      phase := [.terminating, .running, .pending, .scheduled, .failed].getD i .pending }
  { freshState { replicaId := 0, replicaCount := 1, stateMachine := { sm with
      pods := sm.pods.mapIdx place ++
        [{ emptyPod with id := 3, deploymentId := 9, nodeId := 5, active := true }] } } [] with
    workers := fun w => { nodeId := 5 + w, connected := true }
    workerCount := 2 }

/-- The deployment is scaled down to one: of the four pods after the first one, which is terminating
already, two have a worker to be told. -/
theorem stop_dispatches_match_scaled_down :
    let sm := attended.stateMachine
    let cmd : Command := .scaleDeployment ((sm.deployments.map (·.id)).headD 0) 1
    ∃ sm₁ id, sm.apply cmd = some (sm₁, .ok id) ∧
      attended.collectStopDispatches cmd = attended.lost sm.pods sm₁.pods ∧
      (attended.collectStopDispatches cmd).map (fun d =>
        (d.workerIdx, sm.pods.findIdx (·.id == d.podId))) = [(1, 1), (0, 4)] := by
  intro sm cmd
  have hres : (sm.apply cmd).map (·.2.isOk) = some true := by decide +kernel
  obtain ⟨⟨sm₁, result⟩, happly, hok⟩ := Option.map_eq_some_iff.mp hres
  cases result with
  | err _ => cases hok
  | ok id =>
    have hroom : sm.pods.length ≤ maxPods := by decide +kernel
    exact ⟨sm₁, id, happly, (stop_dispatches_match attended hroom).1 _ _ _ happly, by decide +kernel⟩

/-- The deployment is to be deleted: the pod is on the list, and the command returns an error. -/
theorem stop_collected_for_failed_delete :
    (attended.collectStopDispatches (.deleteDeployment 9)).map (·.podId) = [3] ∧
      (attended.stateMachine.apply (.deleteDeployment 9)).map Prod.snd = some (.err .notFound) := by
  decide +kernel

end Replica

/-! ### A leader with a backlog -/

/-- The ids a generator gives next. -/
def Prng.ids : ℕ → Prng → List ℕ × Prng
  | 0, g => ([], g)
  | n + 1, g =>
    let rest := ids n g.next.2
    (g.next.1.toNat :: rest.1, rest.2)

end Hivemind
