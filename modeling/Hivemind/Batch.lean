import Hivemind.Capacity

/-! Commands as a whole: one that fails changes nothing, and a batch of bindings against the single
bindings it is made of. -/
namespace Hivemind

namespace StateMachine

variable {sm sm₁ sm' : StateMachine} {b : PodBinding} {bs : List PodBinding}

/-! ### Commands that fail -/

theorem updateDeploymentAt_failed {id : ℕ} {f : Deployment → Option (Except ErrorCode Deployment)}
    {code : ErrorCode} (h : sm.updateDeploymentAt id f = some (sm₁, .err code)) : sm₁ = sm := by
  unfold updateDeploymentAt at h
  split at h
  · split at h
    · cases h
    · cases h
      rfl
    · cases h
  · cases h
    rfl

theorem handleUpdatePodStatus_failed {podId : ℕ} {newPhase : PodPhase} {code : ErrorCode}
    (h : sm.handleUpdatePodStatus podId newPhase = some (sm₁, .err code)) : sm₁ = sm := by
  unfold handleUpdatePodStatus at h
  split at h
  · -- a pod that is there is updated, or the process stops
    split at h
    · cases h
    · split at h
      · split at h <;> cases h
      · cases h
  · cases h
    rfl

theorem handleBindPodsToNodes_failed {c : BindPodsToNodesCmd} {code : ErrorCode}
    (h : sm.handleBindPodsToNodes c = some (sm₁, .err code)) : sm₁ = sm := by
  obtain ⟨hsame, -⟩ | ⟨ds, -, -, hok, -⟩ := handleBindPodsToNodes_cases h
  · exact hsame
  · cases hok

/-- A command that returns an error leaves every table, every count and the id generator as they
were; a batch that fails at one of its bindings has bound none of its pods. -/
theorem failed_command_changes_nothing (sm sm₁ : StateMachine) (cmd : Command) (code : ErrorCode)
    (h : sm.apply cmd = some (sm₁, .err code)) : sm₁ = sm := by
  cases cmd with
  | registerNode c =>
    have heq := Option.some.inj h
    unfold handleRegisterNode at heq
    split at heq
    · cases heq
    · split at heq
      · cases heq
        rfl
      · cases heq
  | deregisterNode nodeId =>
    have heq := Option.some.inj h
    unfold handleDeregisterNode at heq
    split at heq
    · cases heq
      rfl
    · cases heq
  | updateNodeStatus nodeId newStatus =>
    have heq := Option.some.inj h
    unfold handleUpdateNodeStatus at heq
    split at heq
    · cases heq
      rfl
    · split at heq
      · cases heq
        rfl
      · split at heq
        · cases heq
          rfl
        · cases heq
  | createDeployment c =>
    have heq := Option.some.inj h
    unfold handleCreateDeployment at heq
    split at heq
    · cases heq
    · split at heq
      · cases heq
        rfl
      · cases heq
  | bindPodToNode podId nodeId =>
    have heq := Option.some.inj h
    obtain ⟨code', hsame⟩ | ⟨_, _, _, _, _, _, _, _, _, _, _, _, hok⟩ :=
      sm.handleBindPodToNode_cases podId nodeId
    · rw [hsame] at heq
      cases heq
      rfl
    · rw [hok] at heq
      cases heq
  | bindPodsToNodes c => exact handleBindPodsToNodes_failed h
  | updatePodStatus podId newPhase => exact handleUpdatePodStatus_failed h
  | scaleDeployment id desiredReplicas =>
    have heq := Option.some.inj h
    unfold handleScaleDeployment at heq
    split at heq
    · dsimp only at heq
      split at heq <;> cases heq
    · cases heq
      rfl
  | unbindPod podId =>
    have heq := Option.some.inj h
    unfold handleUnbindPod at heq
    split at heq
    · split at heq <;> cases heq
    · cases heq
      rfl
  | setKillswitch nodeId deploymentId active =>
    have heq := Option.some.inj h
    unfold handleSetKillswitch at heq
    split at heq
    · cases heq
    · split at heq
      · cases heq
      · split at heq
        · cases heq
          rfl
        · cases heq
  | noop => cases h
  | updateDeployment c => exact updateDeploymentAt_failed h
  | setTrafficSplit c =>
    have heq : sm.handleSetTrafficSplit c = some (sm₁, .err code) := h
    exact updateDeploymentAt_failed heq
  | rollbackDeployment id => exact updateDeploymentAt_failed h
  | pauseDeployment id =>
    have heq : sm.handlePauseDeployment id = some (sm₁, .err code) := h
    exact updateDeploymentAt_failed heq
  | resumeDeployment id =>
    have heq : sm.handleResumeDeployment id = some (sm₁, .err code) := h
    exact updateDeploymentAt_failed heq
  | deleteDeployment id =>
    have heq : sm.handleDeleteDeployment id = some (sm₁, .err code) := h
    obtain ⟨rfl, -⟩ | ⟨j, -, hok, -⟩ := handleDeleteDeployment_cases heq
    · rfl
    · cases hok

/-- The second binding of a batch names no pod, and the first is not made either. -/
theorem failed_command_changes_nothing_batch :
    let c : BindPodsToNodesCmd :=
      { bindings := [⟨nthId 3, nthId 1⟩, ⟨1, nthId 1⟩], count := 2 }
    ∃ sm rs sm₁, Replay.run apply (blank.initInPlace 1)
        [.registerNode { cpuMillicores := 4 }, .createDeployment { cpuMillicores := 1 }] =
          some (sm, rs) ∧
      sm.apply (.bindPodsToNodes c) = some (sm₁, .err .notFound) ∧ sm₁ = sm := by
  intro c
  have hsome : ((Replay.run apply (blank.initInPlace 1)
      [.registerNode { cpuMillicores := 4 }, .createDeployment { cpuMillicores := 1 }]).map
        fun x => (x.1.apply (.bindPodsToNodes c)).map Prod.snd) =
          some (some (.err .notFound)) := by decide +kernel
  obtain ⟨⟨sm, rs⟩, hrun, happly⟩ := Option.map_eq_some_iff.mp hsome
  obtain ⟨⟨sm₁, res⟩, happly, hres⟩ := Option.map_eq_some_iff.mp happly
  have hfailed : sm.apply (.bindPodsToNodes c) = some (sm₁, .err .notFound) := by
    rw [happly, ← hres]
  exact ⟨sm, rs, sm₁, hrun, hfailed, failed_command_changes_nothing sm sm₁ _ _ hfailed⟩

/-! ### What a single bind takes -/

/-- What `handleBindPodToNode` checks of a binding, room apart. -/
structure Bindable (sm : StateMachine) (b : PodBinding) (pod : Pod) (j : ℕ) (node : Node) : Prop where
  findPod : sm.findPod b.podId = some pod
  findNode : sm.findNodeIndex b.nodeId = some j
  node_at : sm.nodes[j]? = some node
  unbound : pod.nodeId = 0
  pending : pod.phase = .pending

/-- The tables after one bind. -/
def bound (sm : StateMachine) (b : PodBinding) (pod : Pod) (j : ℕ) (node : Node) : StateMachine :=
  StateMachine.bindOne { sm with nodes := sm.nodes.set j (node.less pod.demand) } b

theorem bound_eq {i j : ℕ} {pod : Pod} (node : Node) (hidx : sm.findPodIndex b.podId = some i)
    (hp : sm.pods[i]? = some pod) :
    sm.bound b pod j node = { sm with
      nodes := sm.nodes.set j (node.less pod.demand)
      pods := sm.pods.set i (pod.on b.nodeId) } := by
  let charged : StateMachine := { sm with nodes := sm.nodes.set j (node.less pod.demand) }
  have hidx' : charged.findPodIndex b.podId = some i := hidx
  exact bindOne_some hidx' hp

theorem handleBindPodToNode_ok_iff {id : ℕ} :
    sm.handleBindPodToNode b.podId b.nodeId = (sm₁, .ok id) ↔
      id = b.podId ∧ ∃ pod j node, sm.Bindable b pod j node ∧
        (∀ r, pod.demand r ≤ node.allocatable r) ∧ sm₁ = sm.bound b pod j node := by
  constructor
  · intro h
    obtain ⟨code, herr⟩ | ⟨i, p, j, n, hidx, hp, hnidx, hn, -, hfree, hphase, hfits, hok⟩ :=
      sm.handleBindPodToNode_cases b.podId b.nodeId
    · rw [herr] at h
      cases h
    · rw [hok] at h
      cases h
      have hfound : sm.findPod b.podId = some p := (find?_of_findIdx? hidx).symm.trans hp
      refine ⟨rfl, p, j, n, ⟨hfound, hnidx, hn, hfree, hphase⟩, hfits, ?_⟩
      exact (bound_eq n hidx hp).symm
  · rintro ⟨rfl, pod, j, node, hb, hfits, rfl⟩
    obtain ⟨i, hidx, hp⟩ := findIdx?_of_find? hb.findPod
    have hnode : sm.findNode b.nodeId = some node :=
      (find?_of_findIdx? hb.findNode).symm.trans hb.node_at
    obtain ⟨code, herr⟩ | ⟨i', p', j', n', hidx', hp', hnidx', hn', -, -, -, -, hok⟩ :=
      sm.handleBindPodToNode_cases b.podId b.nodeId
    · -- none of the checks turns the binding down
      exfalso
      have hgpu : ¬ (pod.gpuCount > 0 && decide (node.allocatableGpu < pod.gpuCount)) = true := by
        have hle : pod.gpuCount ≤ node.allocatableGpu := hfits .gpu
        simpa using fun _ => hle
      have hcpu : ¬ (decide (pod.cpuMillicores > 0) &&
          decide (node.allocatableCpu < pod.cpuMillicores)) = true := by
        have hle : pod.cpuMillicores ≤ node.allocatableCpu := hfits .cpu
        simpa using fun _ => hle
      have hmem : ¬ (decide (pod.memoryMegabytes > 0) &&
          decide (node.allocatableMem < pod.memoryMegabytes)) = true := by
        have hle : pod.memoryMegabytes ≤ node.allocatableMem := hfits .memory
        simpa using fun _ => hle
      have hwaits : ¬ (pod.nodeId != 0 || pod.phase != .pending) = true := by
        simp [hb.unbound, hb.pending]
      have hidx₀ : sm.findPodIndex b.podId = some i := hidx
      rw [handleBindPodToNode, hidx₀, hb.findPod, hb.findNode, hnode] at herr
      dsimp only at herr
      rw [if_neg hwaits, if_neg hgpu, if_neg hcpu, if_neg hmem] at herr
      exact absurd (congrArg Prod.snd herr) Result.noConfusion
    · rw [hok]
      have hi : sm.findPodIndex b.podId = some i := hidx
      cases hi.symm.trans hidx'
      cases hp.symm.trans hp'
      cases hb.findNode.symm.trans hnidx'
      cases hb.node_at.symm.trans hn'
      rw [bound_eq node hi hp]

/-! ### A sequence of single binds -/

def singles (bs : List PodBinding) : List Command :=
  bs.map fun b => .bindPodToNode b.podId b.nodeId

/-- The single binds, in order, return ok every time and lead to `sm'`. -/
def Binds (sm : StateMachine) (bs : List PodBinding) (sm' : StateMachine) : Prop :=
  ∃ rs, Replay.run apply sm (singles bs) = some (sm', rs) ∧ ∀ r ∈ rs, r.isOk = true

theorem binds_nil : sm.Binds [] sm' ↔ sm' = sm := by
  constructor
  · rintro ⟨rs, hrun, -⟩
    cases hrun
    rfl
  · rintro rfl
    exact ⟨[], rfl, fun _ h => absurd h List.not_mem_nil⟩

theorem binds_cons : sm.Binds (b :: bs) sm' ↔
    ∃ pod j node, sm.Bindable b pod j node ∧ (∀ r, pod.demand r ≤ node.allocatable r) ∧
      (sm.bound b pod j node).Binds bs sm' := by
  constructor
  · rintro ⟨rs, hrun, hok⟩
    obtain ⟨sm₁, res, rs', happly, hrun, rfl⟩ := Replay.run_cons.mp hrun
    obtain ⟨hres, hrest⟩ := List.forall_mem_cons.mp hok
    cases res with
    | err code => cases hres
    | ok id =>
      obtain ⟨-, pod, j, node, hb, hfits, rfl⟩ :=
        handleBindPodToNode_ok_iff.mp (Option.some.inj happly)
      exact ⟨pod, j, node, hb, hfits, rs', hrun, hrest⟩
  · rintro ⟨pod, j, node, hb, hfits, rs, hrun, hok⟩
    have hone := handleBindPodToNode_ok_iff.mpr ⟨rfl, pod, j, node, hb, hfits, rfl⟩
    refine ⟨.ok b.podId :: rs, ?_, List.forall_mem_cons.mpr ⟨rfl, hok⟩⟩
    exact Replay.run_cons.mpr ⟨_, _, rs, congrArg some hone, hrun, rfl⟩

/-- The pods wait, the nodes are there, and no node is asked for more than it can give. -/
structure Coverable (sm : StateMachine) (bs : List PodBinding) : Prop where
  each : ∀ b ∈ bs, ∃ pod j node, sm.Bindable b pod j node
  room : ∀ j node, sm.nodes[j]? = some node → ∀ r, sm.asked bs j r ≤ node.allocatable r

/-- What a batch of bindings makes of the tables, all at once. -/
structure Bound (sm : StateMachine) (bs : List PodBinding) (sm' : StateMachine) : Prop where
  frame : sm' = { bs.foldl bindOne sm with nodes := sm'.nodes }
  nodes : ∀ j, sm'.nodes[j]? = sm.nodes[j]?.map fun n : Node => n.less (sm.asked bs j)

theorem Bound.unique {sm'' : StateMachine} (h : sm.Bound bs sm') (h' : sm.Bound bs sm'') :
    sm' = sm'' := by
  have hnodes : sm'.nodes = sm''.nodes := by
    apply List.ext_getElem?
    intro j
    rw [h.nodes, h'.nodes]
  rw [h.frame, h'.frame, hnodes]

theorem foldl_bindOne_nodes (bs : List PodBinding) (sm : StateMachine) (ns : List Node) :
    bs.foldl bindOne { sm with nodes := ns } = { bs.foldl bindOne sm with nodes := ns } := by
  refine List.foldl_hom (fun sm : StateMachine => { sm with nodes := ns }) fun sm b => ?_
  have hidx : StateMachine.findPodIndex { sm with nodes := ns } b.podId =
      sm.findPodIndex b.podId := rfl
  unfold bindOne
  rw [hidx]
  cases sm.findPodIndex b.podId <;> rfl

theorem findPod_bound {pod : Pod} {j id : ℕ} {node : Node} (hne : b.podId ≠ id) :
    (sm.bound b pod j node).findPod id = sm.findPod id := by
  unfold bound
  rw [findPod_bindOne_ne hne]
  rfl

section One

variable {pod : Pod} {j : ℕ} {node : Node} (hb : sm.Bindable b pod j node)
include hb

theorem Bindable.nodes_bound (k : ℕ) : (sm.bound b pod j node).nodes[k]? =
    sm.nodes[k]?.map fun n => n.less fun r => if j = k then pod.demand r else 0 := by
  have hnodes : (sm.bound b pod j node).nodes = sm.nodes.set j (node.less pod.demand) := by
    obtain ⟨i, hidx, hp⟩ := findIdx?_of_find? hb.findPod
    rw [bound_eq node hidx hp]
  rw [hnodes, List.getElem?_set]
  by_cases hk : j = k
  · subst hk
    have hlt := (List.getElem?_eq_some_iff.mp hb.node_at).1
    rw [if_pos rfl, if_pos hlt, hb.node_at, Option.map_some]
    simp only [if_true]
  · simp [hk, Node.less]

theorem Bindable.findNodeIndex_bound (x : ℕ) :
    (sm.bound b pod j node).findNodeIndex x = sm.findNodeIndex x := by
  have hids : (sm.bound b pod j node).nodes.map (·.id) = sm.nodes.map (·.id) := by
    obtain ⟨i, hidx, hp⟩ := findIdx?_of_find? hb.findPod
    rw [bound_eq node hidx hp]
    exact map_set_of_eq hb.node_at rfl
  have hmap : ∀ l : List Node, l.findIdx? (fun n => n.id == x) =
      (l.map (·.id)).findIdx? (· == x) := by
    intro l
    rw [List.findIdx?_map]
    rfl
  unfold findNodeIndex
  rw [hmap, hmap, hids]

theorem Bindable.asked_bound (hnew : b.podId ∉ bs.map (·.podId)) (k : ℕ) (r : Resource) :
    (sm.bound b pod j node).asked bs k r = sm.asked bs k r := by
  unfold asked
  congr 1
  apply List.map_congr_left
  intro b' hb'
  have hne : b.podId ≠ b'.podId := fun hsame => hnew (hsame ▸ List.mem_map_of_mem hb')
  rw [hb.findNodeIndex_bound, demandOf, findPod_bound hne]
  rfl

theorem Bindable.asked_cons (k : ℕ) (r : Resource) :
    sm.asked (b :: bs) k r = (if j = k then pod.demand r else 0) + sm.asked bs k r := by
  unfold asked
  rw [List.map_cons, List.sum_cons, hb.findNode, demandOf, hb.findPod]
  simp only [Option.some.injEq, Option.map_some, Option.getD_some]

theorem Bindable.bindable_bound {b' : PodBinding} (hne : b.podId ≠ b'.podId) :
    (∃ pod' j' node', (sm.bound b pod j node).Bindable b' pod' j' node') ↔
      ∃ pod' j' node', sm.Bindable b' pod' j' node' := by
  constructor
  · rintro ⟨pod', j', node', h⟩
    have hat := h.node_at
    rw [hb.nodes_bound] at hat
    obtain ⟨n, hn, -⟩ := Option.map_eq_some_iff.mp hat
    refine ⟨pod', j', n, ?_, ?_, hn, h.unbound, h.pending⟩
    · rw [← findPod_bound hne, h.findPod]
    · rw [← hb.findNodeIndex_bound, h.findNode]
  · rintro ⟨pod', j', node', h⟩
    have hat := hb.nodes_bound j'
    rw [h.node_at, Option.map_some] at hat
    refine ⟨pod', j', _, ?_, ?_, hat, h.unbound, h.pending⟩
    · rw [findPod_bound hne, h.findPod]
    · rw [hb.findNodeIndex_bound, h.findNode]

theorem Bindable.coverable_cons (hnew : b.podId ∉ bs.map (·.podId)) :
    sm.Coverable (b :: bs) ↔
      (∀ r, pod.demand r ≤ node.allocatable r) ∧ (sm.bound b pod j node).Coverable bs := by
  have hne : ∀ b' ∈ bs, b.podId ≠ b'.podId :=
    fun b' hb' hsame => hnew (hsame ▸ List.mem_map_of_mem hb')
  constructor
  · intro h
    have hroom := h.room
    refine ⟨fun r => ?_, fun b' hb' => ?_, fun k n hn r => ?_⟩
    · have hle := hroom j node hb.node_at r
      rw [hb.asked_cons, if_pos rfl] at hle
      omega
    · exact (hb.bindable_bound (hne b' hb')).mpr (h.each b' (List.mem_cons_of_mem _ hb'))
    · rw [hb.nodes_bound] at hn
      obtain ⟨n₀, hn₀, rfl⟩ := Option.map_eq_some_iff.mp hn
      have hle := hroom k n₀ hn₀ r
      rw [hb.asked_cons] at hle
      rw [hb.asked_bound hnew, Node.less_allocatable]
      omega
  · rintro ⟨hfits, h⟩
    refine ⟨?_, fun k n hn r => ?_⟩
    · intro b' hb'
      obtain rfl | hb' := List.mem_cons.mp hb'
      · exact ⟨pod, j, node, hb⟩
      · exact (hb.bindable_bound (hne b' hb')).mp (h.each b' hb')
    · have hk := hb.nodes_bound k
      rw [hn, Option.map_some] at hk
      have hle := h.room k _ hk r
      rw [hb.asked_bound hnew, Node.less_allocatable] at hle
      rw [hb.asked_cons]
      by_cases hkj : j = k
      · -- the node of the first binding gives to it and to the rest
        subst hkj
        cases hb.node_at.symm.trans hn
        have hfit := hfits r
        rw [if_pos rfl] at hle ⊢
        omega
      · rw [if_neg hkj] at hle ⊢
        omega

theorem Bindable.bound_cons (hnew : b.podId ∉ bs.map (·.podId)) :
    sm.Bound (b :: bs) sm' ↔ (sm.bound b pod j node).Bound bs sm' := by
  have hfold : ∀ ns : List Node, ({ (b :: bs).foldl bindOne sm with nodes := ns } : StateMachine) =
      { bs.foldl bindOne (sm.bound b pod j node) with nodes := ns } := by
    intro ns
    have hone := foldl_bindOne_nodes (b :: bs) sm (sm.nodes.set j (node.less pod.demand))
    have hrest : (b :: bs).foldl bindOne { sm with nodes := sm.nodes.set j (node.less pod.demand) } =
        bs.foldl bindOne (sm.bound b pod j node) := rfl
    rw [← hrest, hone]
  have hless : ∀ k, (sm.nodes[k]?.map fun n : Node => n.less (sm.asked (b :: bs) k)) =
      (sm.bound b pod j node).nodes[k]?.map
        fun n : Node => n.less ((sm.bound b pod j node).asked bs k) := by
    intro k
    rw [hb.nodes_bound, Option.map_map]
    congr 1
    funext n
    unfold Function.comp Node.less
    simp only [hb.asked_bound hnew, hb.asked_cons, Nat.sub_sub]
  constructor
  · intro h
    refine ⟨?_, fun k => ?_⟩
    · rw [← hfold]
      exact h.frame
    · rw [← hless]
      exact h.nodes k
  · intro h
    refine ⟨?_, fun k => ?_⟩
    · rw [hfold]
      exact h.frame
    · rw [hless]
      exact h.nodes k

end One

/-- The single binds all return ok when the batch is covered, and then make of the tables what the
batch makes of them at once. -/
theorem binds_iff (hnodup : (bs.map (·.podId)).Nodup) :
    sm.Binds bs sm' ↔ sm.Coverable bs ∧ sm.Bound bs sm' := by
  induction bs generalizing sm with
  | nil =>
    rw [binds_nil]
    have hsame : sm.Bound [] sm := by
      refine ⟨rfl, fun j => ?_⟩
      have hless : ∀ n : Node, n.less (sm.asked [] j) = n := fun _ => rfl
      simp [hless]
    constructor
    · rintro rfl
      refine ⟨⟨fun _ h => absurd h List.not_mem_nil, fun _ _ _ _ => Nat.zero_le _⟩, hsame⟩
    · rintro ⟨-, h⟩
      exact h.unique hsame
  | cons b bs ih =>
    obtain ⟨hnew, hrest⟩ := List.nodup_cons.mp hnodup
    rw [binds_cons]
    constructor
    · rintro ⟨pod, j, node, hb, hfits, h⟩
      obtain ⟨hcover, hbound⟩ := (ih hrest).mp h
      exact ⟨(hb.coverable_cons hnew).mpr ⟨hfits, hcover⟩, (hb.bound_cons hnew).mpr hbound⟩
    · rintro ⟨hcover, hbound⟩
      obtain ⟨pod, j, node, hb⟩ := hcover.each b List.mem_cons_self
      obtain ⟨hfits, hcover⟩ := (hb.coverable_cons hnew).mp hcover
      exact ⟨pod, j, node, hb, hfits, (ih hrest).mpr ⟨hcover, (hb.bound_cons hnew).mp hbound⟩⟩

/-! ### The batch -/

/-- What the batch handler checks of a binding and the single handler does not. -/
structure Suited (sm : StateMachine) (b : PodBinding) : Prop where
  podId_ne : b.podId ≠ 0
  nodeId_ne : b.nodeId ≠ 0
  pod : ∀ pod, sm.findPod b.podId = some pod → pod.active = true
  node : ∀ node, sm.findNode b.nodeId = some node → node.active = true ∧ node.status = .ready
  gpuType : ∀ pod node, sm.findPod b.podId = some pod → sm.findNode b.nodeId = some node →
    0 < pod.gpuCount → node.gpuType = pod.gpuType

theorem eligible_iff : (∃ pod j node, sm.Eligible b pod j node) ↔
    (∃ pod j node, sm.Bindable b pod j node) ∧ sm.Suited b := by
  constructor
  · rintro ⟨pod, j, node, h⟩
    have hnode : sm.findNode b.nodeId = some node :=
      (find?_of_findIdx? h.findNode).symm.trans h.node_at
    refine ⟨⟨pod, j, node, h.findPod, h.findNode, h.node_at, h.unbound, h.pending⟩,
      h.podId_ne, h.nodeId_ne, fun pod' hpod => ?_, fun node' hnode' => ?_,
      fun pod' node' hpod hnode' => ?_⟩
    · cases h.findPod.symm.trans hpod
      exact h.pod_active
    · cases hnode.symm.trans hnode'
      exact ⟨h.node_active, h.ready⟩
    · cases h.findPod.symm.trans hpod
      cases hnode.symm.trans hnode'
      exact h.gpuType
  · rintro ⟨⟨pod, j, node, h⟩, hsuited⟩
    have hnode : sm.findNode b.nodeId = some node :=
      (find?_of_findIdx? h.findNode).symm.trans h.node_at
    obtain ⟨hactive, hready⟩ := hsuited.node node hnode
    have hid := List.find?_some (p := fun n : Node => n.id == b.nodeId) hnode
    exact ⟨pod, j, node, hsuited.podId_ne, hsuited.nodeId_ne, h.findPod, h.findNode, h.node_at,
      beq_iff_eq.mp hid, hsuited.pod pod h.findPod, h.unbound, h.pending, hactive, hready,
      hsuited.gpuType pod node h.findPod hnode⟩

theorem handleBindPodsToNodes_bound {c : BindPodsToNodesCmd} {id : ℕ}
    (h : sm.handleBindPodsToNodes c = some (sm', .ok id)) :
    sm.Coverable (c.bindings.take c.count) ∧ (∀ b ∈ c.bindings.take c.count, sm.Suited b) ∧
      sm.Bound (c.bindings.take c.count) sm' := by
  obtain ⟨-, code, hcode⟩ | ⟨ds, hcollect, hmet, -, rfl⟩ := handleBindPodsToNodes_cases h
  · cases hcode
  obtain ⟨heach, -, -, hds, htotal⟩ := collectDemands_spec hcollect
  have hasked : ∀ j r, total ds j r = sm.asked (c.bindings.take c.count) j r := by
    intro j r
    rw [htotal]
    exact Nat.zero_add _
  refine ⟨⟨fun b hb => (eligible_iff.mp (heach b hb)).1, fun j node hn r => ?_⟩,
    fun b hb => (eligible_iff.mp (heach b hb)).2, ?_⟩
  · rw [← hasked]
    exact total_le (hds List.nodup_nil) hmet hn r
  · rw [takeDemands_frame, foldl_bindOne_nodes]
    refine ⟨rfl, fun j => ?_⟩
    rw [takeDemands_nodes]
    congr 1
    funext n
    congr 1
    funext r
    exact hasked j r

theorem handleBindPodsToNodes_ok_iff {c : BindPodsToNodesCmd} (hroom : sm.Roomy)
    (hbounded : sm.Bounded) (hpos : 0 < c.count) (hcount : c.count ≤ bindBatchMax)
    (hnodup : ((c.bindings.take c.count).map (·.podId)).Nodup) :
    (∃ id, sm.handleBindPodsToNodes c = some (sm', .ok id)) ↔
      sm.Coverable (c.bindings.take c.count) ∧ (∀ b ∈ c.bindings.take c.count, sm.Suited b) ∧
        sm.Bound (c.bindings.take c.count) sm' := by
  constructor
  · rintro ⟨id, h⟩
    exact handleBindPodsToNodes_bound h
  · rintro ⟨hcover, hsuited, hbound⟩
    have heach : ∀ b ∈ c.bindings.take c.count, ∃ pod j node, sm.Eligible b pod j node :=
      fun b hb => eligible_iff.mpr ⟨hcover.each b hb, hsuited b hb⟩
    obtain ⟨ds, h⟩ := handleBindPodsToNodes_of hroom.nodes hbounded hpos hcount heach hnodup
      hcover.room
    obtain ⟨-, -, hbound'⟩ := handleBindPodsToNodes_bound h
    exact ⟨c.count, hbound.unique hbound' ▸ h⟩

theorem run_bounded {seed : UInt64} {cmds : List Command} {results : List Result}
    (hrun : Replay.run apply (sm₁.initInPlace seed) cmds = some (sm, results))
    (hcmds : ∀ cmd ∈ cmds, cmd.Within) : sm.Roomy ∧ sm.Bounded := by
  have hgoes : ∀ (cmds : List Command) (start : StateMachine) (results : List Result),
      start.Roomy ∧ start.Bounded → (∀ cmd ∈ cmds, cmd.Within) →
      Replay.run apply start cmds = some (sm, results) → sm.Roomy ∧ sm.Bounded := by
    intro cmds
    induction cmds with
    | nil =>
      intro start results h _ hrun
      cases hrun
      exact h
    | cons cmd cmds ih =>
      intro start results h hcmds hrun
      obtain ⟨next, r, rs, happly, hrest, rfl⟩ := Replay.run_cons.mp hrun
      obtain ⟨hcmd, hcmds⟩ := List.forall_mem_cons.mp hcmds
      refine ih next rs ⟨?_, ?_⟩ hcmds hrest
      · exact apply_roomy happly h.1
      · exact apply_bounded happly hcmd h.1.pods h.2
  refine hgoes cmds (sm₁.initInPlace seed) results ⟨⟨?_, ?_, ?_⟩, ?_⟩ hcmds hrun
  · exact Nat.zero_le _
  · exact Nat.zero_le _
  · exact Nat.zero_le _
  · exact fun _ h => absurd h List.not_mem_nil

/-- A batch on distinct pods, in every state commands lead to. When it returns ok, so do its single
binds, and the tables are equal. It returns ok exactly when they do unless a binding that the single
binds allow names a pod that is not active, a node that is not active or not ready or of another gpu
type than the pod needs, or the id 0. -/
theorem batch_binds_as_singles {seed : UInt64} {cmds : List Command} {results : List Result}
    (hrun : Replay.run apply (sm₁.initInPlace seed) cmds = some (sm, results))
    (hcmds : ∀ cmd ∈ cmds, cmd.Within) (c : BindPodsToNodesCmd) (hpos : 0 < c.count)
    (hcount : c.count ≤ bindBatchMax) (hnodup : ((c.bindings.take c.count).map (·.podId)).Nodup) :
    (∀ sm', (∃ id, sm.apply (.bindPodsToNodes c) = some (sm', .ok id)) →
      sm.Binds (c.bindings.take c.count) sm') ∧
    ((∀ sm', (∃ id, sm.apply (.bindPodsToNodes c) = some (sm', .ok id)) ↔
        sm.Binds (c.bindings.take c.count) sm') ↔
      (sm.Coverable (c.bindings.take c.count) → ∀ b ∈ c.bindings.take c.count, sm.Suited b)) := by
  obtain ⟨hroom, hbounded⟩ := run_bounded hrun hcmds
  have hbatch : ∀ sm', (∃ id, sm.apply (.bindPodsToNodes c) = some (sm', .ok id)) ↔
      sm.Coverable (c.bindings.take c.count) ∧ (∀ b ∈ c.bindings.take c.count, sm.Suited b) ∧
        sm.Bound (c.bindings.take c.count) sm' :=
    fun sm' => handleBindPodsToNodes_ok_iff hroom hbounded hpos hcount hnodup
  refine ⟨fun sm' h => ?_, ⟨fun h hcover => ?_, fun h sm' => ?_⟩⟩
  · obtain ⟨hcover, -, hbound⟩ := (hbatch sm').mp h
    exact (binds_iff hnodup).mpr ⟨hcover, hbound⟩
  · -- the tables the single binds lead to
    let after : StateMachine := { (c.bindings.take c.count).foldl bindOne sm with
      nodes := sm.nodes.mapIdx fun j n => n.less (sm.asked (c.bindings.take c.count) j) }
    have hbound : sm.Bound (c.bindings.take c.count) after := by
      refine ⟨rfl, fun j => ?_⟩
      exact List.getElem?_mapIdx
    have hbinds := (binds_iff hnodup).mpr ⟨hcover, hbound⟩
    exact ((hbatch after).mp ((h after).mpr hbinds)).2.1
  · rw [hbatch, binds_iff hnodup]
    constructor
    · rintro ⟨hcover, -, hbound⟩
      exact ⟨hcover, hbound⟩
    · rintro ⟨hcover, hbound⟩
      exact ⟨hcover, h hcover, hbound⟩

/-- Two pods of a deployment are bound to one node, by a batch and by its single binds. -/
theorem batch_binds_as_singles_pair :
    let cmds : List Command :=
      [.registerNode { cpuMillicores := 4 }, .createDeployment { replicas := 2, cpuMillicores := 2 }]
    let c : BindPodsToNodesCmd :=
      { bindings := [⟨nthId 3, nthId 1⟩, ⟨nthId 4, nthId 1⟩], count := 2 }
    ∃ sm results sm', Replay.run apply (blank.initInPlace 1) cmds = some (sm, results) ∧
      sm.apply (.bindPodsToNodes c) = some (sm', .ok 2) ∧ sm.Binds c.bindings sm' := by
  intro cmds c
  have hsome : ((Replay.run apply (blank.initInPlace 1) cmds).map fun x =>
      (x.1.apply (.bindPodsToNodes c)).map Prod.snd) = some (some (.ok 2)) := by decide +kernel
  obtain ⟨⟨sm, results⟩, hrun, happly⟩ := Option.map_eq_some_iff.mp hsome
  obtain ⟨⟨sm', res⟩, happly, hres⟩ := Option.map_eq_some_iff.mp happly
  have hok : sm.apply (.bindPodsToNodes c) = some (sm', .ok 2) := by
    rw [happly, ← hres]
  have hcmds : ∀ cmd ∈ cmds, cmd.Within := by
    rintro cmd hcmd c rfl
    simp only [cmds, List.mem_cons, Command.registerNode.injEq, reduceCtorEq, List.not_mem_nil,
      or_false] at hcmd
    subst hcmd
    unfold RegisterNodeCmd.Within
    decide
  have hsame := (batch_binds_as_singles hrun hcmds c (by decide) (by decide) (by decide)).1 sm'
    ⟨2, hok⟩
  exact ⟨sm, results, sm', hrun, hok, hsame⟩

/-- A node that was taken out of service, a pod that succeeded and was then reported pending, and a
node with gpus of another type: the single bind returns ok and the batch of it an error. -/
theorem single_bind_without_checks :
    let outcomes (b : PodBinding) (x : StateMachine × List Result) : Option Result × Option Result :=
      ((x.1.apply (.bindPodToNode b.podId b.nodeId)).map Prod.snd,
        (x.1.apply (.bindPodsToNodes { bindings := [b], count := 1 })).map Prod.snd)
    ((Replay.run apply (blank.initInPlace 1)
      [.registerNode { cpuMillicores := 4 }, .createDeployment { cpuMillicores := 1 },
        .deregisterNode (nthId 1)]).map (outcomes ⟨nthId 3, nthId 1⟩)) =
      some (some (.ok (nthId 3)), some (.err .invalidTransition)) ∧
    ((Replay.run apply (blank.initInPlace 1)
      [.registerNode { cpuMillicores := 4 }, .createDeployment { cpuMillicores := 1 },
        .updatePodStatus (nthId 3) .succeeded, .updatePodStatus (nthId 3) .pending]).map
          (outcomes ⟨nthId 3, nthId 1⟩)) =
      some (some (.ok (nthId 3)), some (.err .alreadyExists)) ∧
    ((Replay.run apply (blank.initInPlace 1)
      [.registerNode { cpuMillicores := 4, gpuType := .h100_sxm, gpuCount := 1 },
        .createDeployment { gpuType := .a100_40, gpuCount := 1 }]).map
          (outcomes ⟨nthId 3, nthId 1⟩)) =
      some (some (.ok (nthId 3)), some (.err .capacityExceeded)) := by
  decide +kernel

end StateMachine

end Hivemind
