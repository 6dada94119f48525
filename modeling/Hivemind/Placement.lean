import Hivemind.Capacity
import Hivemind.Process
import Hivemind.Wire

/-! The scheduler and the batch handler check placements independently, one with amounts it adjusts
as it goes, the other with sums for each node. Along every run in which no bound pod is reported to
be pending the handler accepts what the scheduler proposes. -/
namespace Hivemind

/-- The binding a placement asks for. -/
def ScheduleAction.binding (a : ScheduleAction) : PodBinding := ⟨a.podId, a.nodeId⟩

def NodeCapacity.available (cap : NodeCapacity) : Resource → ℕ
  | .cpu => cap.availableCpu
  | .memory => cap.availableMem
  | .gpu => cap.availableGpu

namespace StateMachine

variable {sm : StateMachine}

theorem find?_of_mem {α : Type*} {key : α → ℕ} {l : List α} {a : α} (hnodup : (l.map key).Nodup)
    (ha : a ∈ l) : l.find? (fun x => key x == key a) = some a := by
  induction l with
  | nil => cases ha
  | cons b l ih =>
    rw [List.map_cons, List.nodup_cons] at hnodup
    rw [List.find?_cons]
    rcases List.mem_cons.mp ha with rfl | ha
    · rw [beq_self_eq_true]
    · have hne : (key b == key a) = false := by
        rw [beq_eq_false_iff_ne]
        intro hsame
        exact hnodup.1 (hsame ▸ List.mem_map_of_mem ha)
      rw [hne]
      exact ih hnodup.2 ha

/-- Ids tell the records of a table apart. -/
structure Apart (sm : StateMachine) : Prop where
  nodes : (sm.nodes.map (·.id)).Nodup
  deployments : (sm.deployments.map (·.id)).Nodup
  pods : (sm.pods.map (·.id)).Nodup

theorem Distinct.apart (h : sm.Distinct) : sm.Apart := ⟨h.nodes, h.deployments, h.pods⟩

theorem Apart.findNode (h : sm.Apart) {n : Node} (hn : n ∈ sm.nodes) :
    sm.findNode n.id = some n := find?_of_mem h.nodes hn

theorem Apart.findPod (h : sm.Apart) {x : Pod} (hx : x ∈ sm.pods) :
    sm.findPod x.id = some x := find?_of_mem h.pods hx

end StateMachine

namespace Scheduler

open StateMachine

variable {sm : StateMachine} {pod : Pod} {deploymentId nodeId : ℕ} {prng : Prng}
  {acts : List ScheduleAction} {cap : NodeCapacity}

/-! ### The node that is picked -/

/-- What placements take from a node. -/
def taken (sm : StateMachine) (acts : List ScheduleAction) (nodeId : ℕ) (r : Resource) : ℕ :=
  (acts.map fun a => if a.nodeId = nodeId then sm.demandOf a.podId r else 0).sum

theorem taken_concat (a : ScheduleAction) (r : Resource) :
    taken sm (acts ++ [a]) nodeId r =
      taken sm acts nodeId r + if a.nodeId = nodeId then sm.demandOf a.podId r else 0 := by
  simp [taken]

theorem taken_cons (a : ScheduleAction) (r : Resource) :
    taken sm (a :: acts) nodeId r =
      (if a.nodeId = nodeId then sm.demandOf a.podId r else 0) + taken sm acts nodeId r := rfl

/-- One action charges its pod to its node, whatever was charged before; so a fold charges what
its actions take. -/
theorem foldl_charges {step : NodeCapacity → ScheduleAction → NodeCapacity}
    (hstep : ∀ adj a, (step adj a).nodeId = adj.nodeId ∧ ∀ r, (step adj a).available r =
      adj.available r - if a.nodeId = nodeId then sm.demandOf a.podId r else 0)
    (acts : List ScheduleAction) (adj : NodeCapacity) :
    (acts.foldl step adj).nodeId = adj.nodeId ∧
      ∀ r, (acts.foldl step adj).available r = adj.available r - taken sm acts nodeId r := by
  induction acts generalizing adj with
  | nil => exact ⟨rfl, fun _ => rfl⟩
  | cons a acts ih =>
    obtain ⟨hid, hrest⟩ := ih (step adj a)
    refine ⟨hid.trans (hstep adj a).1, fun r => ?_⟩
    rw [List.foldl_cons, hrest, (hstep adj a).2, taken_cons, Nat.sub_sub]

theorem adjust_spec (sm : StateMachine) (acts : List ScheduleAction) (cap : NodeCapacity) :
    (adjust sm acts cap).nodeId = cap.nodeId ∧
      ∀ r, (adjust sm acts cap).available r = cap.available r - taken sm acts cap.nodeId r := by
  refine foldl_charges (fun adj a => ?_) acts cap
  by_cases hnode : a.nodeId = cap.nodeId
  · rw [if_neg (not_not.mpr hnode)]
    cases hpod : sm.findPod a.podId with
    | none =>
      refine ⟨rfl, fun r => ?_⟩
      rw [if_pos hnode, demandOf, hpod]
      rfl
    | some p =>
      refine ⟨rfl, fun r => ?_⟩
      rw [if_pos hnode, demandOf, hpod]
      cases r <;> rfl
  · rw [if_pos hnode]
    refine ⟨rfl, fun r => ?_⟩
    rw [if_neg hnode]
    rfl

/-- What the scheduler asks of a node for a pod, apart from its amounts. -/
structure Suits (sm : StateMachine) (pod : Pod) (deploymentId : ℕ) (node : Node) : Prop where
  mem : node ∈ sm.nodes
  active : node.active = true
  ready : node.status = .ready
  gpuType : 0 < pod.gpuCount → node.gpuType = pod.gpuType
  allowed : sm.isKillswitched node.id deploymentId = false

theorem candidate_cases (h : cap ∈ findCandidateNodes sm pod deploymentId) :
    ∃ n ∈ sm.nodes, (n.active = true ∧ n.status = .ready) ∧
      sm.isKillswitched n.id deploymentId = false ∧
      (pod.gpuCount = 0 ∧ sm.getNodeCapacity n.id = some cap ∨
        n.gpuType = pod.gpuType ∧ cap = capacityOf n) := by
  unfold findCandidateNodes at h
  dsimp only at h
  split at h
  · next honly =>
    simp only [Bool.and_eq_true, beq_iff_eq] at honly
    have hcpu : cap ∈ cpuCandidates sm deploymentId := by
      split at h
      · exact List.mem_of_mem_filter (List.mem_of_mem_filter h)
      · exact List.mem_of_mem_filter h
    obtain ⟨n, hn, hcap⟩ := List.mem_filterMap.mp (List.mem_of_mem_take hcpu)
    rw [List.mem_filter] at hn
    simp only [Bool.and_eq_true, beq_iff_eq, Bool.not_eq_true'] at hn
    exact ⟨n, hn.1, hn.2.1, hn.2.2, .inl ⟨honly.2, hcap⟩⟩
  · have hmem := List.mem_of_mem_filter h
    rw [List.mem_filter, Bool.not_eq_true'] at hmem
    obtain ⟨n, hn, rfl⟩ := List.mem_map.mp hmem.1
    have hn' := List.mem_filter.mp (List.mem_of_mem_take hn)
    simp only [Bool.and_eq_true, beq_iff_eq] at hn'
    exact ⟨n, hn'.1, hn'.2.1.1, hmem.2, .inr ⟨hn'.2.1.2, rfl⟩⟩

theorem suits_of_candidate (hids : sm.Apart) (h : cap ∈ findCandidateNodes sm pod deploymentId) :
    ∃ node, Suits sm pod deploymentId node ∧ cap = capacityOf node := by
  obtain ⟨n, hmem, ⟨hactive, hready⟩, hallowed, ⟨hnone, hcap⟩ | ⟨htype, rfl⟩⟩ := candidate_cases h
  · rw [getNodeCapacity, hids.findNode hmem] at hcap
    dsimp only at hcap
    rw [hactive, Bool.not_true, if_neg Bool.false_ne_true] at hcap
    refine ⟨n, ⟨hmem, hactive, hready, ?_, hallowed⟩, (Option.some.inj hcap).symm⟩
    intro hpos
    omega
  · exact ⟨n, ⟨hmem, hactive, hready, fun _ => htype, hallowed⟩, rfl⟩

theorem pickNode_mem {needed pick : ℕ} {caps : List NodeCapacity}
    (h : pickNode needed caps pick = some nodeId) : ∃ cap ∈ caps, cap.nodeId = nodeId := by
  induction caps generalizing pick with
  | nil => cases h
  | cons cap caps ih =>
    have hhere : some cap.nodeId = some nodeId → ∃ c ∈ cap :: caps, c.nodeId = nodeId :=
      fun heq => ⟨cap, List.mem_cons_self, Option.some.inj heq⟩
    cases caps with
    | nil => exact hhere h
    | cons next caps =>
      rw [pickNode] at h
      · split at h
        · exact hhere h
        · obtain ⟨c, hc, hid⟩ := ih h
          exact ⟨c, List.mem_cons_of_mem _ hc, hid⟩
      · exact List.cons_ne_nil _ _

theorem head?_mem {caps : List NodeCapacity} (h : caps.head?.map (·.nodeId) = some nodeId) :
    ∃ cap ∈ caps, cap.nodeId = nodeId := by
  obtain ⟨cap, hcap, hid⟩ := Option.map_eq_some_iff.mp h
  exact ⟨cap, List.mem_of_mem_head? hcap, hid⟩

theorem weightedSelect_mem {needed : ℕ} {caps : List NodeCapacity}
    (h : (weightedSelect prng caps needed).1 = some nodeId) : ∃ cap ∈ caps, cap.nodeId = nodeId := by
  unfold weightedSelect at h
  split at h
  · cases h
  · dsimp only at h
    split at h
    · exact head?_mem h
    · exact pickNode_mem h

theorem findBestNodeWithActions_mem
    (h : (findBestNodeWithActions sm prng pod deploymentId acts).1 = some nodeId) :
    ∃ cap ∈ findCandidateNodes sm pod deploymentId, (adjust sm acts cap).nodeId = nodeId ∧
      (fitsPod pod (adjust sm acts cap) &&
        !(pod.gpuCount > 0 && (adjust sm acts cap).availableGpu < pod.gpuCount)) = true := by
  have hmem : ∃ cap ∈ ((findCandidateNodes sm pod deploymentId).map (adjust sm acts)).filter
      (fun cap => fitsPod pod cap && !(pod.gpuCount > 0 && cap.availableGpu < pod.gpuCount)),
      cap.nodeId = nodeId := by
    unfold findBestNodeWithActions at h
    dsimp only at h
    split at h
    · cases h
    · split at h
      · exact head?_mem h
      · exact weightedSelect_mem h
  obtain ⟨adj, hadj, hid⟩ := hmem
  rw [List.mem_filter] at hadj
  obtain ⟨hadj, hfits⟩ := hadj
  obtain ⟨cap, hcap, rfl⟩ := List.mem_map.mp hadj
  exact ⟨cap, hcap, hid, hfits⟩

theorem findBestNodeWithActions_some (hids : sm.Apart)
    (h : (findBestNodeWithActions sm prng pod deploymentId acts).1 = some nodeId) :
    ∃ node, Suits sm pod deploymentId node ∧ node.id = nodeId ∧
      ∀ r, 0 < pod.demand r → taken sm acts nodeId r + pod.demand r ≤ node.allocatable r := by
  obtain ⟨cap, hcap, hid, hfits⟩ := findBestNodeWithActions_mem h
  obtain ⟨node, hsuits, rfl⟩ := suits_of_candidate hids hcap
  obtain ⟨hnode, havail⟩ := adjust_spec sm acts (capacityOf node)
  have hsame : node.id = nodeId := hnode.symm.trans hid
  refine ⟨node, hsuits, hsame, ?_⟩
  -- a demand that is met after the subtraction was met with what is taken on top
  have hmet : ∀ r, 0 < pod.demand r → pod.demand r ≤ (adjust sm acts (capacityOf node)).available r := by
    simp only [fitsPod, gt_iff_lt, Bool.and_eq_true, Bool.not_eq_true', Bool.and_eq_false_imp,
      decide_eq_true_eq, decide_eq_false_iff_not, not_lt] at hfits
    intro r
    cases r with
    | cpu => exact hfits.1.1
    | memory => exact hfits.1.2
    | gpu => exact hfits.2
  intro r hpos
  have hle := hmet r hpos
  rw [havail] at hle
  have hall : (capacityOf node).available r = node.allocatable r := by cases r <;> rfl
  have hcapid : (capacityOf node).nodeId = nodeId := hsame
  rw [hall, hcapid] at hle
  omega

/-! ### The placements of a round -/

theorem mem_getPendingPods {podId : ℕ} (h : podId ∈ sm.getPendingPods deploymentId) :
    ∃ x ∈ sm.pods, x.id = podId ∧ x.active = true ∧ x.deploymentId = deploymentId ∧
      x.phase = .pending := by
  obtain ⟨x, hx, rfl⟩ := List.mem_map.mp h
  have hx' := List.mem_filter.mp (List.mem_of_mem_take hx)
  simp only [Bool.and_eq_true, beq_iff_eq] at hx'
  exact ⟨x, hx'.1, rfl, hx'.2.1.1, hx'.2.1.2, hx'.2.2⟩

/-- What the scheduler looks at when it places a pod. -/
structure Proposed (sm : StateMachine) (a : ScheduleAction) (pod : Pod) (dep : Deployment)
    (node : Node) : Prop where
  pod_mem : pod ∈ sm.pods
  pod_id : pod.id = a.podId
  waits : pod.active = true ∧ pod.phase = .pending
  dep_mem : dep ∈ sm.deployments
  dep_id : dep.id = pod.deploymentId
  dep_active : dep.active = true
  unpaused : dep.paused = false
  node_id : node.id = a.nodeId
  suits : Suits sm pod dep.id node

/-- Placements that go together, as far as the scheduler looks at them. -/
structure Together (sm : StateMachine) (visited : List ℕ) (acts : List ScheduleAction) : Prop where
  few : acts.length ≤ maxBindActions
  each : ∀ a ∈ acts, ∃ pod dep node, Proposed sm a pod dep node ∧ dep.id ∈ visited
  nodup : (acts.map (·.podId)).Nodup
  fits : ∀ n ∈ sm.nodes, ∀ r, taken sm acts n.id r ≤ n.allocatable r

theorem Together.concat {visited : List ℕ} (hids : sm.Apart) (h : Together sm visited acts)
    {a : ScheduleAction} {pod : Pod} {dep : Deployment} {node : Node}
    (hproposed : Proposed sm a pod dep node) (hvisited : dep.id ∈ visited)
    (hroom : acts.length < maxBindActions) (hnew : a.podId ∉ acts.map (·.podId))
    (hfits : ∀ r, 0 < pod.demand r → taken sm acts a.nodeId r + pod.demand r ≤ node.allocatable r) :
    Together sm visited (acts ++ [a]) where
  few := by
    rw [List.length_append]
    exact hroom
  each := by
    intro b hb
    rcases List.mem_append.mp hb with hb | hb
    · exact h.each b hb
    · rw [List.mem_singleton.mp hb]
      exact ⟨pod, dep, node, hproposed, hvisited⟩
  nodup := by
    rw [List.map_append, List.map_cons, List.map_nil, ← List.concat_eq_append]
    exact h.nodup.concat hnew
  fits := by
    intro n hn r
    rw [taken_concat]
    have hbefore := h.fits n hn r
    split
    · next hsame =>
      have hnode : node = n := by
        have hfound := hids.findNode hproposed.suits.mem
        rw [hproposed.node_id, hsame, hids.findNode hn] at hfound
        exact (Option.some.inj hfound).symm
      have hdemand : sm.demandOf a.podId r = pod.demand r := by
        rw [demandOf, ← hproposed.pod_id, hids.findPod hproposed.pod_mem]
        rfl
      rw [hdemand]
      rcases Nat.eq_zero_or_pos (pod.demand r) with hzero | hpos
      · omega
      · have hle := hfits r hpos
        rwa [hsame, hnode] at hle
    · exact hbefore

theorem placePods_together {visited : List ℕ} (hids : sm.Apart)
    {dep : Deployment} (hdep : dep ∈ sm.deployments) (hactive : dep.active = true)
    (hunpaused : dep.paused = false) (hvisited : dep.id ∈ visited) {ids : List ℕ}
    {acc : Prng × ScheduleResult}
    (heach : ∀ id ∈ ids, ∃ x ∈ sm.pods, x.id = id ∧ x.active = true ∧ x.deploymentId = dep.id ∧
      x.phase = .pending) (hnodup : ids.Nodup)
    (hnew : ∀ id ∈ ids, id ∉ acc.2.actions.map (·.podId)) (h : Together sm visited acc.2.actions) :
    Together sm visited (placePods sm dep.id ids acc).2.actions := by
  induction ids generalizing acc with
  | nil => exact h
  | cons id ids ih =>
    obtain ⟨prng, result⟩ := acc
    have heach' := fun i hi => heach i (List.mem_cons_of_mem id hi)
    have hnew' := fun i hi => hnew i (List.mem_cons_of_mem id hi)
    rw [List.nodup_cons] at hnodup
    unfold placePods
    split
    · exact h
    · next hroom =>
      obtain ⟨x, hx, rfl, hxa, hxdep, hxp⟩ := heach id List.mem_cons_self
      rw [hids.findPod hx]
      dsimp only
      cases hpick : findBestNodeWithActions sm prng x dep.id result.actions with
      | mk picked prng' =>
        cases picked with
        | none => exact ih heach' hnodup.2 hnew' h
        | some nodeId =>
          have hsome : (findBestNodeWithActions sm prng x dep.id result.actions).1 = some nodeId := by
            rw [hpick]
          obtain ⟨node, hsuits, rfl, hfits⟩ := findBestNodeWithActions_some hids hsome
          have hproposed : Proposed sm ⟨x.id, node.id⟩ x dep node :=
            ⟨hx, rfl, ⟨hxa, hxp⟩, hdep, hxdep.symm, hactive, hunpaused, rfl, hsuits⟩
          have hthis := h.concat hids hproposed hvisited (not_le.mp hroom)
            (hnew x.id List.mem_cons_self) hfits
          refine ih heach' hnodup.2 ?_ hthis
          intro i hi hmem
          rw [List.map_append, List.mem_append] at hmem
          rcases hmem with hmem | hmem
          · exact hnew' i hi hmem
          · rw [List.map_cons, List.map_nil, List.mem_singleton] at hmem
            rw [hmem] at hi
            exact hnodup.1 hi

theorem Together.visit {visited : List ℕ} (h : Together sm visited acts) (id : ℕ) :
    Together sm (visited ++ [id]) acts := by
  refine { h with each := fun a ha => ?_ }
  obtain ⟨pod, dep, node, hproposed, hvisited⟩ := h.each a ha
  exact ⟨pod, dep, node, hproposed, List.mem_append_left _ hvisited⟩

theorem visitDeployment_together {visited : List ℕ} (hids : sm.Apart)
    {dep : Deployment} (hdep : dep ∈ sm.deployments) (hfirst : dep.id ∉ visited) (now : ℕ)
    {acc : Prng × ScheduleResult} (h : Together sm visited acc.2.actions) :
    Together sm (visited ++ [dep.id]) (visitDeployment sm now acc dep).2.actions := by
  have hsame := h.visit dep.id
  unfold visitDeployment
  split
  · exact hsame
  · next hgo =>
    simp only [Bool.or_eq_true, Bool.not_eq_true', not_or, Bool.not_eq_false, Bool.not_eq_true] at hgo
    dsimp only
    split
    · have hpending : ∀ id ∈ sm.getPendingPods dep.id, ∃ x ∈ sm.pods, x.id = id ∧ x.active = true ∧
          x.deploymentId = dep.id ∧ x.phase = .pending := fun _ => mem_getPendingPods
      have hnodup : (sm.getPendingPods dep.id).Nodup := by
        apply List.Nodup.sublist _ hids.pods
        exact ((List.take_sublist _ _).trans (List.filter_sublist)).map _
      apply placePods_together hids hdep hgo.1 hgo.2 (by simp) hpending hnodup _ hsame
      -- the pods that were placed before belong to other deployments
      intro id hid hmem
      obtain ⟨x, hx, rfl, -, hxdep, -⟩ := hpending id hid
      obtain ⟨a, ha, haid⟩ := List.mem_map.mp hmem
      obtain ⟨pod, d, node, hproposed, hvisited⟩ := h.each a ha
      have hpod := hids.findPod hproposed.pod_mem
      rw [hproposed.pod_id, haid, hids.findPod hx] at hpod
      rw [hproposed.dep_id, ← Option.some.inj hpod, hxdep] at hvisited
      exact hfirst hvisited
    · split
      · exact hsame
      · split
        · split
          · exact hsame
          · exact hsame
        · exact hsame

theorem tick_together (hids : sm.Apart) (prng : Prng) (now : ℕ) :
    Together sm (sm.deployments.map (·.id)) (tick sm prng now).2.actions := by
  have hgo : ∀ (deps : List Deployment) (visited : List ℕ) (acc : Prng × ScheduleResult),
      (∀ d ∈ deps, d ∈ sm.deployments) → (visited ++ deps.map (·.id)).Nodup →
      Together sm visited acc.2.actions →
      Together sm (visited ++ deps.map (·.id))
        (deps.foldl (visitDeployment sm now) acc).2.actions := by
    intro deps
    induction deps with
    | nil =>
      intro visited acc _ _ h
      rw [List.map_nil, List.append_nil]
      exact h
    | cons d deps ih =>
      intro visited acc hmem hnodup h
      rw [List.map_cons, List.append_cons] at hnodup ⊢
      have hfirst : d.id ∉ visited := by
        have hvisited := (List.nodup_append.mp hnodup).1
        rw [← List.concat_eq_append, List.nodup_concat] at hvisited
        exact hvisited.1
      have hone := visitDeployment_together hids (hmem d List.mem_cons_self) hfirst now h
      exact ih _ _ (fun d hd => hmem d (List.mem_cons_of_mem _ hd)) hnodup hone
  have hstart : Together sm [] ((prng, {}) : Prng × ScheduleResult).2.actions :=
    ⟨Nat.zero_le _, fun _ h => absurd h List.not_mem_nil, List.nodup_nil,
      fun _ _ _ => Nat.zero_le _⟩
  exact hgo sm.deployments [] (prng, {}) (fun _ h => h) hids.deployments hstart

/-- The batch handler accepts what was proposed of a pod without a node. -/
theorem Proposed.eligible {a : ScheduleAction} {dep : Deployment} {node : Node}
    (h : Proposed sm a pod dep node) (hids : sm.Distinct) (hunbound : pod.nodeId = 0) :
    ∃ j, sm.Eligible a.binding pod j node := by
  obtain ⟨j, hidx, hj⟩ := findIdx?_of_find? (hids.apart.findNode h.suits.mem)
  have hbinding : a.binding = ⟨pod.id, node.id⟩ := by
    rw [h.pod_id, h.node_id]
    rfl
  rw [hbinding]
  refine ⟨j, ?_⟩
  exact
    { podId_ne := hids.pod_ne pod h.pod_mem
      nodeId_ne := hids.node_ne node h.suits.mem
      findPod := hids.apart.findPod h.pod_mem
      findNode := hidx
      node_at := hj
      node_id := rfl
      pod_active := h.waits.1
      unbound := hunbound
      pending := h.waits.2
      node_active := h.suits.active
      ready := h.suits.ready
      gpuType := h.suits.gpuType }

/-- In every state in which ids tell pods, nodes and deployments apart: a round of the scheduler
places active pending pods of active deployments that are not paused on nodes that are active,
ready, not switched off for the deployment and of the gpu type the pod needs; it places no pod
twice, and of no node does it take more than the node can give. -/
theorem placements_within_nodes (sm : StateMachine) (hpods : (sm.pods.map (·.id)).Nodup)
    (hnodes : (sm.nodes.map (·.id)).Nodup) (hdeployments : (sm.deployments.map (·.id)).Nodup)
    (prng : Prng) (now : ℕ) :
    (∀ a ∈ (tick sm prng now).2.actions, ∃ pod ∈ sm.pods, ∃ dep ∈ sm.deployments,
      ∃ node ∈ sm.nodes, pod.id = a.podId ∧ node.id = a.nodeId ∧
        (pod.active = true ∧ pod.phase = .pending) ∧
        (dep.id = pod.deploymentId ∧ dep.active = true ∧ dep.paused = false) ∧
        (node.active = true ∧ node.status = .ready) ∧
        sm.isKillswitched node.id dep.id = false ∧
        (0 < pod.gpuCount → node.gpuType = pod.gpuType)) ∧
    ((tick sm prng now).2.actions.map (·.podId)).Nodup ∧
    ∀ node ∈ sm.nodes, ∀ r,
      taken sm (tick sm prng now).2.actions node.id r ≤ node.allocatable r := by
  have h := tick_together ⟨hnodes, hdeployments, hpods⟩ prng now
  refine ⟨fun a ha => ?_, h.nodup, h.fits⟩
  obtain ⟨pod, dep, node, hp, -⟩ := h.each a ha
  exact ⟨pod, hp.pod_mem, dep, hp.dep_mem, node, hp.suits.mem, hp.pod_id, hp.node_id, hp.waits,
    ⟨hp.dep_id, hp.dep_active, hp.unpaused⟩, ⟨hp.suits.active, hp.suits.ready⟩, hp.suits.allowed,
    hp.suits.gpuType⟩

/-- Three pods that ask for half of the only node each: two of them are placed. -/
theorem placements_within_nodes_three :
    let pod (id : ℕ) : Pod :=
      { emptyPod with id, deploymentId := 7, cpuMillicores := 2, active := true }
    let sm : StateMachine := { blank with
      nodes := [⟨5, zeroes 64, 4, 4, .none, 0, zeroes 32, zeroes 32, .ready, 4, 4, 0, true⟩]
      deployments := [deploymentOf {} 7]
      pods := [pod 1, pod 2, pod 3] }
    (tick sm (.init 7) 0).2.actions.map (fun a => (a.podId, a.nodeId)) = [(1, 5), (2, 5)] ∧
      taken sm (tick sm (.init 7) 0).2.actions 5 .cpu = 4 ∧
      ∀ node ∈ sm.nodes, ∀ r,
        taken sm (tick sm (.init 7) 0).2.actions node.id r ≤ node.allocatable r := by
  intro pod sm
  have hwithin := placements_within_nodes sm (by decide) (by decide) (by decide) (.init 7) 0
  exact ⟨by decide +kernel, by decide +kernel, hwithin.2.2⟩

end Scheduler

namespace StateMachine

open Scheduler

variable {sm sm₁ : StateMachine}

/-- What the scheduler proposes is accepted, and done. -/
theorem handleBindPodsToNodes_tick (hids : sm.Distinct) (hbounded : sm.Bounded) (hloose : sm.Loose)
    {prng : Prng} {now : ℕ} (hsome : (tick sm prng now).2.actions ≠ []) :
    ∃ sm₁, sm.handleBindPodsToNodes (Replica.bindCommand (tick sm prng now).2.actions) =
        some (sm₁, .ok (tick sm prng now).2.actions.length) ∧
      ∀ a ∈ (tick sm prng now).2.actions, ∃ pod, sm.findPod a.podId = some pod ∧ pod.nodeId = 0 ∧
        sm₁.findPod a.podId = some (pod.on a.nodeId) := by
  have htogether := tick_together hids.apart prng now
  revert htogether hsome
  generalize (tick sm prng now).2.actions = acts
  intro hsome htogether
  have hbindings : (Replica.bindCommand acts).bindings.take (Replica.bindCommand acts).count =
      acts.map ScheduleAction.binding := by
    apply List.take_left'
    exact List.length_map _
  have heach : ∀ b ∈ acts.map ScheduleAction.binding, ∃ pod j node, sm.Eligible b pod j node := by
    intro b hb
    obtain ⟨a, ha, rfl⟩ := List.mem_map.mp hb
    obtain ⟨pod, dep, node, hp, -⟩ := htogether.each a ha
    obtain ⟨j, heligible⟩ := hp.eligible hids (hloose pod hp.pod_mem hp.waits.1 hp.waits.2)
    exact ⟨pod, j, node, heligible⟩
  have hnodup : ((acts.map ScheduleAction.binding).map (·.podId)).Nodup := by
    rw [List.map_map]
    exact htogether.nodup
  -- what the handler sums for a node is what the scheduler counted as taken
  have hasked : ∀ j node, sm.nodes[j]? = some node → ∀ r,
      sm.asked (acts.map ScheduleAction.binding) j r ≤ node.allocatable r := by
    intro j node hn r
    have heq : sm.asked (acts.map ScheduleAction.binding) j r = taken sm acts node.id r := by
      unfold asked taken
      rw [List.map_map]
      congr 1
      apply List.map_congr_left
      intro a _
      simp only [findNodeIndex_eq_some_iff hids.keyed hn]
      rfl
    rw [heq]
    exact htogether.fits node (List.mem_of_getElem? hn) r
  obtain ⟨ds, hok⟩ : ∃ ds : List BatchNodeDemand,
      sm.handleBindPodsToNodes (Replica.bindCommand acts) = some
        ((acts.map ScheduleAction.binding).foldl bindOne (ds.foldl takeDemand sm),
          .ok acts.length) := by
    rw [← hbindings] at heach hnodup hasked ⊢
    exact handleBindPodsToNodes_of hids.nodeRoom hbounded (List.length_pos_iff.mpr hsome)
      htogether.few heach hnodup hasked
  refine ⟨_, hok, fun a ha => ?_⟩
  obtain ⟨pod, j, node, heligible⟩ := heach a.binding (List.mem_map_of_mem ha)
  refine ⟨pod, heligible.findPod, heligible.unbound, ?_⟩
  apply findPod_bindAll hnodup (List.mem_map_of_mem ha)
  rw [takeDemands_frame]
  exact heligible.findPod

/-- The command is within its types, wastes no pod slot and does not report a bound pod to be
pending. -/
def steady (sm : StateMachine) (cmd : Command) : Bool :=
  Wire.command.fits cmd && !sm.slips cmd .waste && !sm.slips cmd .reset

theorem within_of_fits {cmd : Command} (h : Wire.command.fits cmd = true) : cmd.Within := by
  rintro c rfl
  have hfits : Wire.registerNodeCmd.fits c = true := h
  simp only [Wire.registerNodeCmd, Codec.imap, Codec.pair, Bool.and_eq_true] at hfits
  obtain ⟨-, hcpu, hmem, -, hgpu, -⟩ := hfits
  have hcpu' := of_decide_eq_true hcpu
  have hmem' := of_decide_eq_true hmem
  have hgpu' := of_decide_eq_true hgpu
  refine ⟨?_, ?_, ?_⟩ <;> simp only [u32Max, u8Max] <;> omega

/-- Along every run of steady commands the batch handler accepts what the scheduler proposes: the
pods it lists were unbound and are bound to the nodes it lists. -/
theorem placements_accepted {seed : UInt64} {cmds : List Command} {results : List Result}
    (hrun : Replay.run apply (sm.initInPlace seed) cmds = some (sm₁, results))
    (hok : Replay.along apply steady (sm.initInPlace seed) cmds = true)
    (hfew : maxDraws * cmds.length < 2 ^ 64) (prng : Prng) (now : ℕ)
    (hsome : (tick sm₁ prng now).2.actions ≠ []) :
    ∃ sm₂, sm₁.apply (.bindPodsToNodes (Replica.bindCommand (tick sm₁ prng now).2.actions)) =
        some (sm₂, .ok (tick sm₁ prng now).2.actions.length) ∧
      ∀ a ∈ (tick sm₁ prng now).2.actions, ∃ pod, sm₁.findPod a.podId = some pod ∧
        pod.nodeId = 0 ∧ sm₂.findPod a.podId = some (pod.on a.nodeId) := by
  have hsplit : ∀ sm cmd, steady sm cmd = true → (Wire.command.fits cmd = true ∧
      sm.slips cmd .waste = false) ∧ sm.slips cmd .reset = false := by
    intro sm cmd hok
    simpa only [steady, Bool.and_eq_true, Bool.not_eq_true'] using hok
  have hstep : ∀ sm cmd sm₁ r, sm.Distinct → sm₁.Distinct → steady sm cmd = true →
      sm.apply cmd = some (sm₁, r) → sm.Bounded ∧ sm.Loose → sm₁.Bounded ∧ sm₁.Loose := by
    rintro sm cmd sm₁ r hids - hok happly ⟨hbounded, hloose⟩
    obtain ⟨⟨hfits, hwaste⟩, hreset⟩ := hsplit sm cmd hok
    exact ⟨apply_bounded happly (within_of_fits hfits) hids.podRoom hbounded,
      apply_loose happly hwaste hreset hids.podRoom hloose⟩
  have hinit : (sm.initInPlace seed).Bounded ∧ (sm.initInPlace seed).Loose :=
    ⟨fun _ h => absurd h List.not_mem_nil, fun _ h => absurd h List.not_mem_nil⟩
  obtain ⟨hids, hbounded, hloose⟩ :=
    run_tables (fun sm cmd hok => (hsplit sm cmd hok).1.2) hstep hinit hrun hok hfew
  exact handleBindPodsToNodes_tick hids hbounded hloose hsome

/-- Two pods of one deployment are placed on the only node. -/
theorem placements_accepted_on_one_node :
    let cmds : List Command :=
      [.registerNode { cpuMillicores := 4 }, .createDeployment { replicas := 2, cpuMillicores := 2 }]
    ∃ sm₁ results, Replay.run apply (blank.initInPlace 1) cmds = some (sm₁, results) ∧
      (tick sm₁ (.init 7) 0).2.actions.map (fun a => (a.podId, a.nodeId)) =
        [(nthId 3, nthId 1), (nthId 4, nthId 1)] ∧
      ∃ sm₂, sm₁.apply (.bindPodsToNodes (Replica.bindCommand (tick sm₁ (.init 7) 0).2.actions)) =
          some (sm₂, .ok (tick sm₁ (.init 7) 0).2.actions.length) ∧
        ∀ a ∈ (tick sm₁ (.init 7) 0).2.actions, ∃ pod, sm₁.findPod a.podId = some pod ∧
          pod.nodeId = 0 ∧ sm₂.findPod a.podId = some (pod.on a.nodeId) := by
  intro cmds
  have hsome : ((Replay.run apply (blank.initInPlace 1) cmds).map fun x =>
      (tick x.1 (.init 7) 0).2.actions.map fun a => (a.podId, a.nodeId)) =
      some [(nthId 3, nthId 1), (nthId 4, nthId 1)] := by decide +kernel
  obtain ⟨⟨sm₁, results⟩, hrun, hacts⟩ := Option.map_eq_some_iff.mp hsome
  refine ⟨sm₁, results, hrun, hacts, ?_⟩
  apply placements_accepted hrun (by decide +kernel) (by decide +kernel)
  intro hnone
  rw [hnone] at hacts
  cases hacts

/-- Two ways to have a batch turned down: a pod that is bound is reported to be pending, or a
scale-up of a deleted deployment claims a slot whose memory holds a bound pod that waits. Each line
has the placements the scheduler proposes and what the batch handler says. -/
theorem placement_turned_down :
    let propose (x : StateMachine × List Result) : List (ℕ × ℕ) × Option Result :=
      let acts := (tick x.1 (.init 7) 0).2.actions
      (acts.map fun a => (a.podId, a.nodeId),
        (x.1.apply (.bindPodsToNodes (Replica.bindCommand acts))).map (·.2))
    (Replay.run apply (blank.initInPlace 1)
      [.registerNode { cpuMillicores := 4 }, .createDeployment { cpuMillicores := 1 },
        .bindPodToNode (nthId 3) (nthId 1), .updatePodStatus (nthId 3) .pending]).map propose =
      some ([(nthId 3, nthId 1)], some (.err .alreadyExists)) ∧
    (Replay.run apply
      ({ blank with podMemory := fun _ => { emptyPod with
          id := 9, deploymentId := nthId 2, nodeId := 7, active := true } }.initInPlace 1)
      [.registerNode { cpuMillicores := 4 }, .createDeployment { replicas := 0 },
        .createDeployment { replicas := 0 }, .deleteDeployment (nthId 3),
        .scaleDeployment (nthId 3) 1]).map propose =
      some ([(9, nthId 1)], some (.err .alreadyExists)) := by
  decide +kernel

end StateMachine

end Hivemind
