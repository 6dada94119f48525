import Hivemind.Roster

/-! Node resources: what a node can still give is its capacity without what the pods bound to it
demand. -/
namespace Hivemind

/-- The amounts a registration states. -/
def RegisterNodeCmd.amount (c : RegisterNodeCmd) : Resource → ℕ
  | .cpu => c.cpuMillicores
  | .memory => c.memoryMegabytes
  | .gpu => c.gpuCount

namespace StateMachine

variable {sm sm₁ sm₂ : StateMachine} {cmd : Command} {allow : Slip → Prop} {c : ℕ} {res : Result}

/-! ### What is bound to a node -/

/-- What the pod takes from the node. -/
def held (x : ℕ) (r : Resource) (p : Pod) : ℕ := if p.nodeId = x then p.demand r else 0

theorem boundTo_eq (x : ℕ) (r : Resource) : sm.boundTo x r = (sm.pods.map (held x r)).sum := by
  unfold boundTo
  induction sm.pods with
  | nil => rfl
  | cons p pods ih =>
    rw [List.map_cons, List.sum_cons, ← ih, held]
    by_cases hx : p.nodeId = x
    · simp [hx]
    · simp [hx]

theorem held_zero {x : ℕ} {r : Resource} {p : Pod} (h : p.nodeId = 0) (hx : x ≠ 0) :
    held x r p = 0 := by
  rw [held, h, if_neg (Ne.symm hx)]

theorem boundTo_set {i : ℕ} {p : Pod} (hp : sm.pods[i]? = some p) (p' : Pod) (x : ℕ) (r : Resource) :
    ((sm.pods.set i p').map (held x r)).sum + held x r p = sm.boundTo x r + held x r p' := by
  rw [boundTo_eq]
  exact sum_map_set hp

theorem held_le_boundTo {i : ℕ} {p : Pod} (hp : sm.pods[i]? = some p) (x : ℕ) (r : Resource) :
    held x r p ≤ sm.boundTo x r := by
  rw [boundTo_eq]
  exact List.le_sum_of_mem (List.mem_map_of_mem (List.mem_of_getElem? hp))

/-- The nodes are untouched, and so is what is bound to them. -/
def Quiet (sm sm₁ : StateMachine) : Prop :=
  sm₁.nodes = sm.nodes ∧ ∀ x ≠ 0, ∀ r, sm₁.boundTo x r = sm.boundTo x r

theorem Quiet.refl (sm : StateMachine) : Quiet sm sm := ⟨rfl, fun _ _ _ => rfl⟩

theorem Quiet.trans (h : Quiet sm sm₁) (h' : Quiet sm₁ sm₂) : Quiet sm sm₂ :=
  ⟨h'.1.trans h.1, fun x hx r => (h'.2 x hx r).trans (h.2 x hx r)⟩

theorem Edit.quiet (e : Edit cmd allow sm sm₁) (hmoves : cmd.moves = false)
    (hwaste : ¬ allow .waste) : Quiet sm sm₁ := by
  cases e with
  | node hmoved _ _ =>
    rw [hmoves] at hmoved
    cases hmoved
  | deployment _ _ _ => exact .refl sm
  | retire _ _ => exact .refl sm
  | @pod i p p' hp _ _ _ _ hstays _ =>
    refine ⟨rfl, fun x _ r => ?_⟩
    rcases hstays with hmoved | ⟨hnode, hdemand⟩
    · rw [hmoves] at hmoved
      cases hmoved
    · have hsum := boundTo_set hp p' x r
      have hheld : held x r p' = held x r p := by rw [held, held, hnode, hdemand]
      rw [hheld] at hsum
      rw [boundTo_eq]
      exact Nat.add_right_cancel hsum
  | claim hclaim _ => exact absurd hclaim hwaste
  | killswitch => exact .refl sm

theorem Draw.quiet (e : Draw cmd sm sm₁) (hmoves : cmd.moves = false) : Quiet sm sm₁ := by
  cases e with
  | node hmoved _ _ =>
    rw [hmoves] at hmoved
    cases hmoved
  | deployment _ _ _ => exact .refl sm
  | redeployment _ _ _ _ => exact .refl sm
  | @pod i p p' _ hp _ hnode _ hunbound _ _ =>
    refine ⟨rfl, fun x hx r => ?_⟩
    have hsum := boundTo_set hp p' x r
    rw [held_zero hnode hx, held_zero hunbound hx] at hsum
    rw [boundTo_eq]
    exact hsum
  | newPod _ _ hunbound _ _ =>
    refine ⟨rfl, fun x hx r => ?_⟩
    rw [boundTo_eq, boundTo_eq, List.map_append, List.sum_append, List.map_cons, List.map_nil,
      List.sum_cons, held_zero hunbound hx]
    rfl

theorem Edits.quiet (e : Edits cmd allow sm c sm₁) (hmoves : cmd.moves = false)
    (hwaste : ¬ allow .waste) : Quiet sm sm₁ := by
  induction e with
  | refl => exact .refl sm
  | edit _ e ih => exact ih.trans (e.quiet hmoves hwaste)
  | draw _ e ih => exact ih.trans (e.quiet hmoves)

/-! ### Moves -/

/-- What the proofs below use of the ids of nodes. -/
structure Keyed (sm : StateMachine) : Prop where
  nodup : (sm.nodes.map (·.id)).Nodup
  ne_zero : ∀ n ∈ sm.nodes, n.id ≠ 0

theorem Keyed.of_ids (hk : sm.Keyed) (h : sm₁.nodes.map (·.id) = sm.nodes.map (·.id)) : sm₁.Keyed := by
  constructor
  · rw [h]
    exact hk.nodup
  · intro n hn
    have hmem : n.id ∈ sm.nodes.map (·.id) := by
      rw [← h]
      exact List.mem_map_of_mem hn
    obtain ⟨n₀, hn₀, hid⟩ := List.mem_map.mp hmem
    rw [← hid]
    exact hk.ne_zero n₀ hn₀

/-- What a node can give and what is bound to it shift against each other; its capacity stays. -/
def Shifted (sm sm₁ : StateMachine) : Prop :=
  ∀ n₁ ∈ sm₁.nodes, ∃ n ∈ sm.nodes, n.id = n₁.id ∧ n.capacity = n₁.capacity ∧
    ∀ r, n₁.allocatable r + sm₁.boundTo n₁.id r = n.allocatable r + sm.boundTo n.id r

theorem Shifted.trans (h : Shifted sm sm₁) (h' : Shifted sm₁ sm₂) : Shifted sm sm₂ := by
  intro n₂ hn₂
  obtain ⟨n₁, hn₁, hid₁, hcap₁, hsum₁⟩ := h' n₂ hn₂
  obtain ⟨n, hn, hid, hcap, hsum⟩ := h n₁ hn₁
  exact ⟨n, hn, hid.trans hid₁, hcap.trans hcap₁, fun r => (hsum₁ r).trans (hsum r)⟩

theorem Shifted.set (hk : sm.Keyed) {j : ℕ} {n n' : Node} (hn : sm.nodes[j]? = some n)
    (hid : n'.id = n.id) (hcap : n'.capacity = n.capacity) (hnodes : sm₁.nodes = sm.nodes.set j n')
    (hself : ∀ r, n'.allocatable r + sm₁.boundTo n.id r = n.allocatable r + sm.boundTo n.id r)
    (hothers : ∀ x ≠ 0, x ≠ n.id → ∀ r, sm₁.boundTo x r = sm.boundTo x r) : Shifted sm sm₁ := by
  intro m hm
  rw [hnodes] at hm
  obtain ⟨i, hi⟩ := List.mem_iff_getElem?.mp hm
  by_cases hij : j = i
  · subst hij
    obtain ⟨hlt, -⟩ := List.getElem?_eq_some_iff.mp hn
    rw [List.getElem?_set_self hlt] at hi
    cases hi
    rw [hid]
    exact ⟨n, List.mem_of_getElem? hn, rfl, hcap.symm, hself⟩
  · rw [List.getElem?_set_ne hij] at hi
    have hmem := List.mem_of_getElem? hi
    have hne : m.id ≠ n.id := by
      intro hsame
      exact hij (index_unique hk.nodup hn hi hsame.symm)
    refine ⟨m, hmem, rfl, rfl, fun r => ?_⟩
    rw [hothers m.id (hk.ne_zero m hmem) hne r]

/-- Amounts move between what nodes can give and what is bound to them, and the pods that give
theirs back have the property. -/
structure Moves (P : Pod → Prop) (sm sm₁ : StateMachine) : Prop where
  shifted : Shifted sm sm₁
  left : ∀ x ≠ 0, ∀ r, sm₁.boundTo x r < sm.boundTo x r →
    ∃ p ∈ sm.pods, P p ∧ p.nodeId = x ∧ 0 < p.demand r

namespace Moves

variable {P P' Q : Pod → Prop}

theorem quiet (hk : sm.Keyed) (hq : Quiet sm sm₁) : Moves P sm sm₁ where
  shifted := by
    intro n hn
    rw [hq.1] at hn
    refine ⟨n, hn, rfl, rfl, fun r => ?_⟩
    rw [hq.2 n.id (hk.ne_zero n hn) r]
  left := by
    intro x hx r hlt
    rw [hq.2 x hx r] at hlt
    exact absurd hlt (lt_irrefl _)

theorem refl (hk : sm.Keyed) : Moves P sm sm := quiet hk (.refl sm)

theorem trans (h : Moves P sm sm₁) (h' : Moves P' sm₁ sm₂) (hP : ∀ p, P p → Q p)
    (hP' : ∀ p ∈ sm₁.pods, P' p → p ∈ sm.pods ∧ Q p) : Moves Q sm sm₂ where
  shifted := h.shifted.trans h'.shifted
  left := by
    intro x hx r hlt
    by_cases hfirst : sm₁.boundTo x r < sm.boundTo x r
    · obtain ⟨p, hp, hPp, hleft⟩ := h.left x hx r hfirst
      exact ⟨p, hp, hP p hPp, hleft⟩
    · obtain ⟨p, hp, hPp, hleft⟩ := h'.left x hx r (by omega)
      obtain ⟨hp, hQ⟩ := hP' p hp hPp
      exact ⟨p, hp, hQ, hleft⟩

theorem setNode (hk : sm.Keyed) {j : ℕ} {n n' : Node} (hn : sm.nodes[j]? = some n)
    (hid : n'.id = n.id) (hcap : n'.capacity = n.capacity) (halloc : n'.allocatable = n.allocatable) :
    Moves P sm { sm with nodes := sm.nodes.set j n' } where
  shifted := by
    refine .set hk hn hid hcap rfl (fun r => ?_) (fun _ _ _ _ => rfl)
    rw [halloc]
    rfl
  left := fun _ _ _ hlt => absurd hlt (lt_irrefl _)

theorem of_setDeployment {j : ℕ} {f : Deployment → Deployment}
    (h : Moves P (sm.setDeployment j f) sm₁) : Moves P sm sm₁ := ⟨h.shifted, h.left⟩

end Moves

theorem releaseOnNode_ids {p : Pod} (h : sm.releaseOnNode p = some sm₁) :
    sm₁.nodes.map (·.id) = sm.nodes.map (·.id) := by
  obtain ⟨-, rfl⟩ | ⟨j, n, n', -, hn, -, hgive, rfl⟩ := releaseOnNode_cases h
  · rfl
  · exact map_set_of_eq hn (releasePod_spec hgive).1.1

theorem release_moves (hk : sm.Keyed) {i : ℕ} {p p' : Pod} {deps : List Deployment}
    (hp : sm.pods[i]? = some p) (hrel : sm.releaseOnNode p = some sm₁) (hleft : p'.nodeId = 0) :
    Moves (· = p) sm { sm₁ with deployments := deps, pods := sm.pods.set i p' } := by
  have hsum (x : ℕ) (hx : x ≠ 0) (r : Resource) :
      boundTo { sm₁ with deployments := deps, pods := sm.pods.set i p' } x r + held x r p =
        sm.boundTo x r := by
    have hset := boundTo_set hp p' x r
    rw [held_zero hleft hx, Nat.add_zero] at hset
    rw [boundTo_eq]
    exact hset
  have hothers (x : ℕ) (hx : x ≠ 0) (hne : x ≠ p.nodeId) (r : Resource) :
      boundTo { sm₁ with deployments := deps, pods := sm.pods.set i p' } x r = sm.boundTo x r := by
    have hsame := hsum x hx r
    rwa [held, if_neg (Ne.symm hne), Nat.add_zero] at hsame
  constructor
  · obtain ⟨hnone, rfl⟩ | ⟨j, n, n', hidx, hn, hid, hgive, rfl⟩ := releaseOnNode_cases hrel
    · intro n hn
      have hne : n.id ≠ p.nodeId := by
        rcases hnone with hzero | hnone
        · rw [hzero]
          exact hk.ne_zero n hn
        · simpa using List.findIdx?_eq_none_iff.mp hnone n hn
      refine ⟨n, hn, rfl, rfl, fun r => ?_⟩
      rw [hothers n.id (hk.ne_zero n hn) hne r]
    · obtain ⟨⟨hid', -⟩, -, hcap, halloc⟩ := releasePod_spec hgive
      refine .set hk hn hid' hcap rfl ?_ (fun x hx hne => hothers x hx (hid ▸ hne))
      intro r
      have hafter := hsum n.id (hk.ne_zero n (List.mem_of_getElem? hn)) r
      rw [held, if_pos hid.symm] at hafter
      rw [halloc]
      omega
  · intro x hx r hlt
    have hheld : 0 < held x r p := by
      have hafter := hsum x hx r
      omega
    by_cases hnode : p.nodeId = x
    · rw [held, if_pos hnode] at hheld
      exact ⟨p, List.mem_of_getElem? hp, rfl, hnode, hheld⟩
    · rw [held, if_neg hnode] at hheld
      exact absurd hheld (lt_irrefl _)

/-! ### Handlers -/

theorem handleBindPodToNode_moves (hk : sm.Keyed) (podId nodeId : ℕ) :
    Moves (fun _ => False) sm (sm.handleBindPodToNode podId nodeId).1 := by
  obtain ⟨code, herr⟩ | ⟨i, p, j, n, -, hp, -, hn, hid, hfree, -, hfits, hok⟩ :=
    handleBindPodToNode_cases sm podId nodeId
  · rw [herr]
    exact .refl hk
  rw [hok]
  have hsum (x : ℕ) (hx : x ≠ 0) (r : Resource) :
      ((sm.pods.set i (p.on nodeId)).map (held x r)).sum =
        sm.boundTo x r + held x r (p.on nodeId) := by
    have hset := boundTo_set hp (p.on nodeId) x r
    rwa [held_zero hfree hx, Nat.add_zero] at hset
  constructor
  · refine .set hk hn (n.less_id p.demand) (n.less_capacity p.demand) rfl ?_ ?_
    · intro r
      have hdemand := hfits r
      have hon : (p.on nodeId).nodeId = n.id := hid.symm
      have hne := hk.ne_zero n (List.mem_of_getElem? hn)
      rw [boundTo_eq, hsum n.id hne r, held, if_pos hon, Pod.on_demand, Node.less_allocatable]
      omega
    · intro x hx hne r
      have hnot : (p.on nodeId).nodeId ≠ x := by
        rw [← hid] at *
        exact Ne.symm hne
      rw [boundTo_eq, hsum x hx r, held, if_neg hnot, Nat.add_zero]
  · intro x hx r hlt
    rw [boundTo_eq, hsum x hx r] at hlt
    omega

theorem findNodeIndex_eq_some_iff (hk : sm.Keyed) {j : ℕ} {n : Node} (hn : sm.nodes[j]? = some n)
    (x : ℕ) : sm.findNodeIndex x = some j ↔ x = n.id := by
  constructor
  · intro hidx
    obtain ⟨n', hn', hid⟩ := getElem?_of_findIdx? hidx
    rw [hn] at hn'
    cases hn'
    exact (beq_iff_eq.mp hid).symm
  · rintro rfl
    have hsome : (sm.findNodeIndex n.id).isSome := by
      rw [findNodeIndex, List.findIdx?_isSome, List.any_eq_true]
      exact ⟨n, List.mem_of_getElem? hn, by simp⟩
    obtain ⟨i, hi⟩ := Option.isSome_iff_exists.mp hsome
    obtain ⟨n', hn', hid⟩ := getElem?_of_findIdx? hi
    rw [hi, index_unique hk.nodup hn' hn (beq_iff_eq.mp hid)]

theorem total_le {ds : List BatchNodeDemand} (hnodup : (ds.map (·.nodeIdx)).Nodup)
    (hmet : ds.all sm.demandMet = true) {j : ℕ} {n : Node} (hn : sm.nodes[j]? = some n)
    (r : Resource) : total ds j r ≤ n.allocatable r := by
  induction ds with
  | nil => exact Nat.zero_le _
  | cons d ds ih =>
    rw [List.map_cons, List.nodup_cons] at hnodup
    rw [List.all_cons, Bool.and_eq_true] at hmet
    unfold total
    rw [List.map_cons, List.sum_cons]
    by_cases hj : d.nodeIdx = j
    · -- no other demand is for this node
      have hrest : (ds.map fun d => if d.nodeIdx = j then d.amount r else 0).sum = 0 := by
        apply List.sum_eq_zero
        intro a ha
        obtain ⟨e, he, rfl⟩ := List.mem_map.mp ha
        rw [if_neg]
        rintro rfl
        exact hnodup.1 (hj ▸ List.mem_map_of_mem he)
      have hd := hmet.1
      rw [demandMet, hj, hn] at hd
      simp only [Bool.and_eq_true, Bool.not_eq_true', decide_eq_false_iff_not, not_lt] at hd
      rw [hrest, if_pos hj]
      cases r with
      | cpu => exact hd.1.1
      | memory => exact hd.1.2
      | gpu => exact hd.2
    · rw [if_neg hj, Nat.zero_add]
      exact ih hnodup.2 hmet.2

theorem boundTo_bindAll {bs : List PodBinding} (hnodup : (bs.map (·.podId)).Nodup)
    (hfree : ∀ b ∈ bs, ∃ pod, sm.findPod b.podId = some pod ∧ pod.nodeId = 0) {x : ℕ} (hx : x ≠ 0)
    (r : Resource) : (bs.foldl bindOne sm).boundTo x r = sm.boundTo x r +
      (bs.map fun b => if b.nodeId = x then sm.demandOf b.podId r else 0).sum := by
  induction bs generalizing sm with
  | nil => rfl
  | cons b bs ih =>
    rw [List.map_cons, List.nodup_cons] at hnodup
    have hother : ∀ b' ∈ bs, b.podId ≠ b'.podId := by
      intro b' hb' hsame
      exact hnodup.1 (hsame ▸ List.mem_map_of_mem hb')
    obtain ⟨pod, hpod, hunbound⟩ := hfree b List.mem_cons_self
    obtain ⟨i, hidx, hp⟩ := findIdx?_of_find? hpod
    have hone : (sm.bindOne b).boundTo x r =
        sm.boundTo x r + if b.nodeId = x then sm.demandOf b.podId r else 0 := by
      have hset := boundTo_set hp (pod.on b.nodeId) x r
      rw [held_zero hunbound hx, Nat.add_zero] at hset
      rw [bindOne_some hidx hp, boundTo_eq, hset, held, Pod.on_demand, demandOf, hpod]
      rfl
    have hrest : (bs.map fun b' => if b'.nodeId = x then (sm.bindOne b).demandOf b'.podId r else 0) =
        bs.map fun b' => if b'.nodeId = x then sm.demandOf b'.podId r else 0 := by
      apply List.map_congr_left
      intro b' hb'
      rw [demandOf, findPod_bindOne_ne (hother b' hb')]
      rfl
    have hfree' : ∀ b' ∈ bs, ∃ pod, (sm.bindOne b).findPod b'.podId = some pod ∧ pod.nodeId = 0 := by
      intro b' hb'
      rw [findPod_bindOne_ne (hother b' hb')]
      exact hfree b' (List.mem_cons_of_mem _ hb')
    rw [List.foldl_cons, ih hnodup.2 hfree', hone, hrest, List.map_cons, List.sum_cons,
      Nat.add_assoc]

theorem handleBindPodsToNodes_moves {cmd : BindPodsToNodesCmd} (hk : sm.Keyed)
    (happly : sm.handleBindPodsToNodes cmd = some (sm₁, res)) : Moves (fun _ => False) sm sm₁ := by
  obtain ⟨rfl, -⟩ | ⟨ds, hcollect, hmet, -, rfl⟩ := handleBindPodsToNodes_cases happly
  · exact .refl hk
  obtain ⟨heach, -, hnodup, hidxs, hsums⟩ := collectDemands_spec hcollect
  generalize cmd.bindings.take cmd.count = bs at *
  have hpods : (ds.foldl takeDemand sm).pods = sm.pods := by rw [takeDemands_frame]
  have hfree : ∀ b ∈ bs, ∃ pod, (ds.foldl takeDemand sm).findPod b.podId = some pod ∧
      pod.nodeId = 0 := by
    intro b hb
    obtain ⟨pod, k, node, hb⟩ := heach b hb
    refine ⟨pod, ?_, hb.unbound⟩
    rw [findPod, hpods]
    exact hb.findPod
  have hbound (x : ℕ) (r : Resource) :
      (ds.foldl takeDemand sm).boundTo x r = sm.boundTo x r := by
    rw [boundTo, hpods]
    rfl
  constructor
  · intro m hm
    rw [bindAll_frame] at hm
    obtain ⟨j, hj⟩ := List.mem_iff_getElem?.mp hm
    rw [takeDemands_nodes] at hj
    obtain ⟨n, hn, rfl⟩ := Option.map_eq_some_iff.mp hj
    have hmem := List.mem_of_getElem? hn
    refine ⟨n, hmem, (n.less_id _).symm, (n.less_capacity _).symm, fun r => ?_⟩
    have hasked : (bs.map fun b => if b.nodeId = n.id then
        (ds.foldl takeDemand sm).demandOf b.podId r else 0).sum = total ds j r := by
      rw [hsums, total, List.map_nil, List.sum_nil, Nat.zero_add, asked]
      congr 1
      apply List.map_congr_left
      intro b _
      have hiff := findNodeIndex_eq_some_iff hk hn b.nodeId
      have hdemand : (ds.foldl takeDemand sm).demandOf b.podId r = sm.demandOf b.podId r := by
        unfold demandOf findPod
        rw [hpods]
      rw [hdemand]
      exact if_congr hiff.symm rfl rfl
    have hle := total_le (hidxs List.nodup_nil) hmet hn r
    rw [Node.less_allocatable, Node.less_id, boundTo_bindAll hnodup hfree (hk.ne_zero n hmem),
      hasked, hbound]
    omega
  · intro x hx r hlt
    rw [boundTo_bindAll hnodup hfree hx, hbound] at hlt
    omega

theorem handleDeregisterNode_moves (hk : sm.Keyed) (nodeId : ℕ) :
    Moves (fun _ => False) sm (sm.handleDeregisterNode nodeId).1 := by
  unfold handleDeregisterNode
  cases hidx : sm.findNodeIndex nodeId with
  | none => exact .refl hk
  | some j =>
    obtain ⟨n, hn, -⟩ := getElem?_of_findIdx? hidx
    dsimp only
    rw [modify_eq_set _ hn]
    refine .setNode hk hn rfl ?_ ?_
    · funext r
      cases r <;> rfl
    · funext r
      cases r <;> rfl

theorem handleUpdateNodeStatus_moves (hk : sm.Keyed) (nodeId : ℕ) (newStatus : NodeStatus) :
    Moves (fun _ => False) sm (sm.handleUpdateNodeStatus nodeId newStatus).1 := by
  unfold handleUpdateNodeStatus
  cases sm.findNodeIndex nodeId with
  | none => exact .refl hk
  | some j =>
    dsimp only
    cases hn : sm.nodes[j]? with
    | none => exact .refl hk
    | some n =>
      dsimp only
      split
      · exact .refl hk
      · refine .setNode hk hn rfl ?_ ?_
        · funext r
          cases r <;> rfl
        · funext r
          cases r <;> rfl

theorem ensureDeploymentReplicaCount_quiet (id : ℕ) (hroom : sm.pods.length ≤ maxPods) :
    Quiet sm (sm.ensureDeploymentReplicaCount id) := by
  obtain ⟨k, -, e⟩ : ∃ k ≤ maxPods,
      Edits .noop (fun _ => False) sm k (sm.ensureDeploymentReplicaCount id) :=
    ensureDeploymentReplicaCount_edits id hroom
  exact e.quiet rfl fun h => h

theorem handleUpdatePodStatus_moves {podId : ℕ} {newPhase : PodPhase} (hk : sm.Keyed)
    (hroom : sm.pods.length ≤ maxPods)
    (happly : sm.handleUpdatePodStatus podId newPhase = some (sm₁, res)) :
    Moves (fun p => (newPhase = .succeeded ∨ newPhase = .failed) ∧ sm.findPod podId = some p)
      sm sm₁ := by
  obtain rfl | ⟨i, p, j, f, hfind, hp, -, -, ⟨hends, sm₂, hrel, hsm₁⟩ | rfl⟩ :=
    handleUpdatePodStatus_cases happly
  · exact .refl hk
  · have hkeyed : (sm.setDeployment j f).Keyed := ⟨hk.nodup, hk.ne_zero⟩
    have hleft : Moves (· = p) (sm.setDeployment j f)
        { sm₂ with pods := sm.pods.set i (ended newPhase p) } := release_moves hkeyed hp hrel rfl
    have hids := releaseOnNode_ids hrel
    have hk₂ : Keyed { sm₂ with pods := sm.pods.set i (ended newPhase p) } := hk.of_ids hids
    have hrest : Quiet { sm₂ with pods := sm.pods.set i (ended newPhase p) } sm₁ := by
      obtain rfl | rfl := hsm₁
      · exact .refl _
      · apply ensureDeploymentReplicaCount_quiet
        rwa [List.length_set]
    refine hleft.of_setDeployment.trans (.quiet hk₂ hrest (P := fun _ => False)) ?_ fun _ _ h => absurd h id
    rintro _ rfl
    exact ⟨hends, hfind⟩
  · apply Moves.quiet hk
    refine ⟨rfl, fun x _ r => ?_⟩
    have hset := boundTo_set hp { p with phase := newPhase } x r
    rw [boundTo_eq]
    exact Nat.add_right_cancel hset

/-- The loop of `handleDeleteDeployment`: every pod gives back what it held. -/
theorem deletePods_moves {id depIdx : ℕ} {slots : List ℕ}
    (hloop : deletePods id depIdx slots sm = some sm₁) (hk : sm.Keyed) :
    Moves (fun p => p.deploymentId = id ∧ p.active = true) sm sm₁ := by
  induction slots generalizing sm with
  | nil =>
    cases hloop
    exact .refl hk
  | cons i rest ih =>
    obtain ⟨hrest, -⟩ | ⟨p, sm₂, f, hp, hdep, hactive, hrel, -, hrest⟩ := deletePods_cons hloop
    · exact ih hrest hk
    · have hone : Moves (· = p) sm { sm₂ with
          deployments := sm₂.deployments.modify depIdx f
          pods := sm.pods.set i (leave p) } := release_moves hk hp hrel rfl
      have hids := releaseOnNode_ids hrel
      refine hone.trans (ih hrest (hk.of_ids hids)) ?_ ?_
      · rintro _ rfl
        exact ⟨hdep, hactive⟩
      · intro q hq hleaves
        rcases List.mem_or_eq_of_mem_set hq with hq | rfl
        · exact ⟨hq, hleaves⟩
        · cases hleaves.2

theorem handleDeleteDeployment_moves {id : ℕ} (hk : sm.Keyed)
    (happly : sm.handleDeleteDeployment id = some (sm₁, res)) :
    Moves (fun p => p.deploymentId = id ∧ p.active = true) sm sm₁ := by
  obtain ⟨rfl, -⟩ | ⟨j, -, -, hloop⟩ := handleDeleteDeployment_cases happly
  · exact .refl hk
  · exact (deletePods_moves hloop ⟨hk.nodup, hk.ne_zero⟩).of_setDeployment

/-- The pods that a command takes off their nodes. -/
def leaving (sm : StateMachine) : Command → Pod → Prop
  | .updatePodStatus podId newPhase, p =>
    (newPhase = .succeeded ∨ newPhase = .failed) ∧ sm.findPod podId = some p
  | .deleteDeployment id, p => p.deploymentId = id ∧ p.active = true
  | _, _ => False

theorem apply_moves (happly : sm.apply cmd = some (sm₁, res)) (hk : sm.Keyed)
    (hroom : sm.pods.length ≤ maxPods) (hwaste : sm.slips cmd .waste = false)
    (hcmd : ∀ c, cmd ≠ .registerNode c) : Moves (sm.leaving cmd) sm sm₁ := by
  by_cases hmoves : cmd.moves = true
  swap
  · obtain ⟨c, -, e⟩ := apply_edits happly hroom
    exact .quiet hk (e.quiet (by simpa using hmoves) (by simp [hwaste]))
  cases cmd with
  | registerNode c => exact absurd rfl (hcmd c)
  | deregisterNode nodeId =>
    rw [← next_eq happly]
    exact handleDeregisterNode_moves hk nodeId
  | updateNodeStatus nodeId newStatus =>
    rw [← next_eq happly]
    exact handleUpdateNodeStatus_moves hk nodeId newStatus
  | bindPodToNode podId nodeId =>
    rw [← next_eq happly]
    exact handleBindPodToNode_moves hk podId nodeId
  | bindPodsToNodes c => exact handleBindPodsToNodes_moves hk happly
  | updatePodStatus podId newPhase => exact handleUpdatePodStatus_moves hk hroom happly
  | deleteDeployment id => exact handleDeleteDeployment_moves hk happly
  | _ => cases hmoves

/-! ### Registrations -/

theorem foldl_chargePod (pods : List Pod) (n : Node) :
    (pods.foldl chargePod n).id = n.id ∧ (pods.foldl chargePod n).capacity = n.capacity ∧
      ∀ r, (pods.foldl chargePod n).allocatable r =
        n.allocatable r - (pods.map fun p => if p.active = true then held n.id r p else 0).sum := by
  induction pods generalizing n with
  | nil => exact ⟨rfl, rfl, fun _ => rfl⟩
  | cons p pods ih =>
    have hone : (chargePod n p).id = n.id ∧ (chargePod n p).capacity = n.capacity ∧
        ∀ r, (chargePod n p).allocatable r =
          n.allocatable r - if p.active = true then held n.id r p else 0 := by
      unfold chargePod held
      split
      · next hskip =>
        refine ⟨rfl, rfl, fun r => ?_⟩
        simp only [Bool.or_eq_true, Bool.not_eq_true', bne_iff_ne, ne_eq] at hskip
        rcases hskip with hoff | hne
        · simp [hoff]
        · simp [hne]
      · next hskip =>
        simp only [Bool.or_eq_true, Bool.not_eq_true', bne_iff_ne, ne_eq, not_or, not_not,
          Bool.not_eq_false] at hskip
        refine ⟨rfl, ?_, ?_⟩
        · funext r
          cases r <;> rfl
        · intro r
          rw [if_pos hskip.1, if_pos hskip.2]
          cases r with
          | cpu => rfl
          | memory => rfl
          | gpu =>
            show (if p.gpuCount > 0 then n.allocatableGpu - p.gpuCount else n.allocatableGpu) =
              n.allocatableGpu - p.gpuCount
            split <;> omega
    obtain ⟨hid, hcap, halloc⟩ := ih (chargePod n p)
    rw [List.foldl_cons]
    refine ⟨hid.trans hone.1, hcap.trans hone.2.1, fun r => ?_⟩
    rw [halloc, hone.1, hone.2.2, List.map_cons, List.sum_cons, Nat.sub_sub]

/-- The node as `handleRegisterNode` records it again. -/
def renewed (c : RegisterNodeCmd) (n : Node) : Node :=
  { n with
    cpuMillicores := c.cpuMillicores
    memoryMegabytes := c.memoryMegabytes
    gpuType := c.gpuType
    gpuCount := c.gpuCount
    provider := c.provider
    region := c.region
    status := .ready
    active := true }

def reset (n : Node) : Node :=
  { n with
    allocatableCpu := n.cpuMillicores
    allocatableMem := n.memoryMegabytes
    allocatableGpu := n.gpuCount }

theorem handleRegisterNode_again {c : RegisterNodeCmd} {j : ℕ} {n : Node}
    (hidx : sm.findActiveNodeIndexByName c.nodeName = some j) (hn : sm.nodes[j]? = some n) :
    (sm.handleRegisterNode c).1 = { sm with
      nodes := sm.nodes.set j (sm.pods.foldl chargePod (reset (renewed c n))) } := by
  rw [handleRegisterNode, hidx]
  dsimp only
  rw [recomputeNodeAllocatable]
  dsimp only
  rw [List.modify_modify_eq, modify_eq_set _ hn]
  rfl

/-- A registration leaves the pods and the other nodes alone, and the node it is about can give what
its new capacity leaves. -/
theorem handleRegisterNode_registers {c : RegisterNodeCmd}
    (happly : sm.apply (.registerNode c) = some (sm₁, res)) (hk₁ : sm₁.Keyed) (hhomed : sm.Homed)
    (hforget : sm.slips (.registerNode c) .forget = false) :
    sm₁.boundTo = sm.boundTo ∧
    ∀ n ∈ sm₁.nodes, n ∈ sm.nodes ∨
      n.capacity = c.amount ∧ (∀ r, n.allocatable r = n.capacity r - sm.boundTo n.id r) ∧
        (n.id ∈ sm.nodes.map (·.id) ∨ ∀ r, sm.boundTo n.id r = 0) := by
  have hsm₁ : (sm.handleRegisterNode c).1 = sm₁ := congrArg Prod.fst (Option.some.inj happly)
  subst hsm₁
  cases hidx : sm.findActiveNodeIndexByName c.nodeName with
  | some j =>
    obtain ⟨n, hn, -⟩ := getElem?_of_findIdx? hidx
    rw [handleRegisterNode_again hidx hn]
    refine ⟨rfl, fun m hm => ?_⟩
    rcases List.mem_or_eq_of_mem_set hm with hm | rfl
    · exact .inl hm
    obtain ⟨hid, hcap, halloc⟩ := foldl_chargePod sm.pods (reset (renewed c n))
    have hamount : (reset (renewed c n)).capacity = c.amount := by
      funext r
      cases r <;> rfl
    refine .inr ⟨hcap.trans hamount, fun r => ?_, .inl ?_⟩
    · have hall : (sm.pods.map fun p => if p.active = true then held n.id r p else 0).sum =
          sm.boundTo n.id r := by
        rw [boundTo_eq]
        congr 1
        apply List.map_congr_left
        intro p hp
        split
        · rfl
        · next hoff =>
          -- a pod that is not active and still bound demands nothing
          rw [held]
          split
          · next hbound =>
            by_contra hne
            simp only [slips, hidx, Option.any_some, hn] at hforget
            have hnot := List.any_eq_false.mp hforget p hp
            simp [hbound, hoff] at hnot
            exact hne (hnot r).symm
          · rfl
      have hfull : (reset (renewed c n)).allocatable r = (reset (renewed c n)).capacity r := by
        cases r <;> rfl
      rw [halloc, hcap, hfull, hid]
      exact congrArg _ hall
    · rw [hid]
      have hmem := List.mem_of_getElem? hn
      exact List.mem_map.mpr ⟨n, hmem, rfl⟩
  | none =>
    unfold handleRegisterNode at hk₁ ⊢
    rw [hidx] at hk₁ ⊢
    dsimp only at hk₁ ⊢
    split
    · exact ⟨rfl, fun n hn => .inl hn⟩
    · next hroom =>
      rw [if_neg hroom] at hk₁
      refine ⟨rfl, fun n hn => ?_⟩
      rcases List.mem_append.mp hn with hold | hnew
      · exact .inl hold
      -- the new node's id is not that of any node a pod is bound to
      have hnone : ∀ r, sm.boundTo n.id r = 0 := by
        intro r
        rw [boundTo_eq]
        apply List.sum_eq_zero
        intro a ha
        obtain ⟨p, hp, rfl⟩ := List.mem_map.mp ha
        rw [held, if_neg]
        intro hsame
        rcases hhomed p hp with hzero | hmem
        · exact hk₁.ne_zero n hn (hsame.symm.trans hzero)
        · have hnodup := hk₁.nodup
          rw [List.map_append, List.nodup_append] at hnodup
          exact hnodup.2.2 p.nodeId hmem n.id (List.mem_map_of_mem hnew) hsame
      have hamount : n.capacity = c.amount := by
        rw [List.mem_singleton.mp hnew]
        funext r
        cases r <;> rfl
      refine .inr ⟨hamount, fun r => ?_, .inr hnone⟩
      have hfull : n.allocatable r = n.capacity r := by
        rw [List.mem_singleton.mp hnew]
        cases r <;> rfl
      rw [hnone, hfull]
      rfl

/-! ### Conservation -/

/-- Each node can give what its capacity leaves after what is bound to it. -/
def Conserved (sm : StateMachine) : Prop :=
  ∀ n ∈ sm.nodes, ∀ r, n.allocatable r = n.capacity r - sm.boundTo n.id r

theorem Conserved.moves {P : Pod → Prop} (h : sm.Conserved) (hk : sm.Keyed) (hm : Moves P sm sm₁)
    (hover : ∀ p ∈ sm.pods, P p → sm.overdraws p = false) : sm₁.Conserved := by
  intro n₁ hn₁ r
  obtain ⟨n, hn, hid, hcap, hsum⟩ := hm.shifted n₁ hn₁
  have hbefore := h n hn r
  have hafter := hsum r
  rw [← hcap]
  by_cases hless : sm₁.boundTo n₁.id r < sm.boundTo n.id r
  · have hfits : sm.boundTo n.id r ≤ n.capacity r := by
      obtain ⟨p, hp, hP, hnode, hpos⟩ := hm.left n.id (hk.ne_zero n hn) r (hid ▸ hless)
      by_contra hlt
      have hall := List.any_eq_false.mp (hover p hp hP) n hn
      simp only [hnode, beq_self_eq_true, Bool.true_and, decide_eq_true_eq, not_exists] at hall
      exact hall r ⟨hpos, not_le.mp hlt⟩
    omega
  · omega

theorem overdraws_of_leaving (hover : sm.slips cmd .overdraw = false) {p : Pod} (hp : p ∈ sm.pods)
    (hleaving : sm.leaving cmd p) : sm.overdraws p = false := by
  cases cmd with
  | updatePodStatus podId newPhase =>
    obtain ⟨hends, hfind⟩ := hleaving
    have hmust : ((newPhase == .succeeded) || (newPhase == .failed)) = true := by
      simpa using hends
    simpa [slips, hmust, hfind] using hover
  | deleteDeployment id =>
    have hnot := List.any_eq_false.mp hover p hp
    rw [hleaving.1, hleaving.2, beq_self_eq_true, Bool.true_and, Bool.true_and,
      Bool.not_eq_true] at hnot
    exact hnot
  | _ => exact hleaving.elim

theorem apply_conserved (happly : sm.apply cmd = some (sm₁, res)) (h : sm.Conserved)
    (hk : sm.Keyed) (hk₁ : sm₁.Keyed) (hhomed : sm.Homed) (hroom : sm.pods.length ≤ maxPods)
    (hwaste : sm.slips cmd .waste = false) (hforget : sm.slips cmd .forget = false)
    (hover : sm.slips cmd .overdraw = false) : sm₁.Conserved := by
  by_cases hcmd : ∃ c, cmd = .registerNode c
  · obtain ⟨c, rfl⟩ := hcmd
    obtain ⟨hbound, hnodes⟩ := handleRegisterNode_registers happly hk₁ hhomed hforget
    intro n hn r
    rw [hbound]
    rcases hnodes n hn with hold | ⟨-, halloc, -⟩
    · exact h n hold r
    · exact halloc r
  · exact h.moves hk (apply_moves happly hk hroom hwaste fun c hc => hcmd ⟨c, hc⟩)
      fun p hp hleaving => overdraws_of_leaving hover hp hleaving

/-! ### Runs -/

/-- The command wastes no pod slot, forgets no bound pod and lets none leave an overdrawn node. -/
def balances (sm : StateMachine) (cmd : Command) : Bool :=
  !sm.slips cmd .waste && !sm.slips cmd .forget && !sm.slips cmd .overdraw

theorem Distinct.keyed (h : sm.Distinct) : sm.Keyed := ⟨h.nodes, h.node_ne⟩

theorem run_conserved {seed : UInt64} {cmds : List Command} {results : List Result}
    (hrun : Replay.run apply (sm.initInPlace seed) cmds = some (sm₁, results))
    (hok : Replay.along apply balances (sm.initInPlace seed) cmds = true)
    (hfew : maxDraws * cmds.length < 2 ^ 64) : sm₁.Conserved := by
  have hsplit : ∀ sm cmd, balances sm cmd = true → (sm.slips cmd .waste = false ∧
      sm.slips cmd .forget = false) ∧ sm.slips cmd .overdraw = false := by
    intro sm cmd hok
    simpa only [balances, Bool.and_eq_true, Bool.not_eq_true'] using hok
  have hstep : ∀ sm cmd sm₁ r, sm.Distinct → sm₁.Distinct → balances sm cmd = true →
      sm.apply cmd = some (sm₁, r) → sm.Homed ∧ sm.Conserved → sm₁.Homed ∧ sm₁.Conserved := by
    rintro sm cmd sm₁ r hids hids₁ hok happly ⟨hhomed, hconserved⟩
    obtain ⟨⟨hwaste, hforget⟩, hover⟩ := hsplit sm cmd hok
    exact ⟨apply_homed happly hwaste hids.podRoom hhomed, apply_conserved happly hconserved
      hids.keyed hids₁.keyed hhomed hids.podRoom hwaste hforget hover⟩
  have hinit : (sm.initInPlace seed).Homed ∧ (sm.initInPlace seed).Conserved :=
    ⟨fun _ h => absurd h List.not_mem_nil, fun _ h => absurd h List.not_mem_nil⟩
  exact (run_tables (fun sm cmd hok => (hsplit sm cmd hok).1.1) hstep hinit hrun hok hfew).2.2

/-- Along every run of commands that balance, what a node can give and what is bound to it make
up its capacity. -/
theorem resources_conserved {seed : UInt64} {cmds : List Command} {results : List Result}
    (hrun : Replay.run apply (sm.initInPlace seed) cmds = some (sm₁, results))
    (hok : Replay.along apply balances (sm.initInPlace seed) cmds = true)
    (hfew : maxDraws * cmds.length < 2 ^ 64) :
    ∀ n ∈ sm₁.nodes, ∀ r, sm₁.boundTo n.id r ≤ n.capacity r →
      n.allocatable r + sm₁.boundTo n.id r = n.capacity r := by
  intro n hn r hle
  have hbalance := run_conserved hrun hok hfew n hn r
  omega

/-- Tables over memory that was never written. -/
def blank : StateMachine :=
  { seed := 0
    prng := .init 0
    nodes := []
    deployments := []
    pods := []
    podMemory := fun _ => emptyPod
    killswitches := [] }

/-- The ids drawn from seed 1, from the first on. -/
def nthId (k : ℕ) : ℕ := ((Prng.init 1).after k).state.toNat

/-- A pod is bound, unbound and reported to have succeeded, and its node is registered again. -/
theorem resources_conserved_after_unbind :
    let cmds : List Command :=
      [.registerNode { cpuMillicores := 4 }, .createDeployment { replicas := 2, cpuMillicores := 1 },
        .bindPodToNode (nthId 3) (nthId 1), .bindPodToNode (nthId 4) (nthId 1), .unbindPod (nthId 3),
        .updatePodStatus (nthId 3) .succeeded, .registerNode { cpuMillicores := 5 }]
    ∃ sm₁ results, Replay.run apply (blank.initInPlace 1) cmds = some (sm₁, results) ∧
      sm₁.nodes.map (fun n => (n.capacity .cpu, sm₁.boundTo n.id .cpu)) = [(5, 1)] ∧
      ∀ n ∈ sm₁.nodes, ∀ r, sm₁.boundTo n.id r ≤ n.capacity r →
        n.allocatable r + sm₁.boundTo n.id r = n.capacity r := by
  intro cmds
  have hsome : ((Replay.run apply (blank.initInPlace 1) cmds).map fun x => x.1.nodes.map fun n =>
      (n.capacity .cpu, x.1.boundTo n.id .cpu)) = some [(5, 1)] := by decide +kernel
  obtain ⟨⟨sm₁, results⟩, hrun, hnodes⟩ := Option.map_eq_some_iff.mp hsome
  exact ⟨sm₁, results, hrun, hnodes,
    resources_conserved hrun (by decide +kernel) (by decide +kernel)⟩

/-- Three ways to upset the balance: the node is registered again while a pod that was unbound is
still on it; it is registered again with less than its pods demand and they leave; a scale-up of a
deleted deployment claims a slot whose memory holds a pod bound to the node. Each line has the
node's capacity, what is bound to it and what it can give. -/
theorem resources_not_conserved :
    ((Replay.run apply (blank.initInPlace 1)
      [.registerNode { cpuMillicores := 4 }, .createDeployment { cpuMillicores := 1 },
        .bindPodToNode (nthId 3) (nthId 1), .unbindPod (nthId 3),
        .registerNode { cpuMillicores := 4 }]).map fun x => x.1.nodes.map fun n =>
          (n.capacity .cpu, x.1.boundTo n.id .cpu, n.allocatable .cpu)) = some [(4, 1, 4)] ∧
    ((Replay.run apply (blank.initInPlace 1)
      [.registerNode { cpuMillicores := 4 }, .createDeployment { replicas := 2, cpuMillicores := 2 },
        .bindPodToNode (nthId 3) (nthId 1), .bindPodToNode (nthId 4) (nthId 1),
        .registerNode { cpuMillicores := 1 }, .updatePodStatus (nthId 3) .succeeded,
        .updatePodStatus (nthId 4) .succeeded]).map fun x => x.1.nodes.map fun n =>
          (n.capacity .cpu, x.1.boundTo n.id .cpu, n.allocatable .cpu)) = some [(1, 0, 4)] ∧
    ((Replay.run apply
      ({ blank with podMemory := fun _ => { emptyPod with nodeId := nthId 1, cpuMillicores := 1 }
        }.initInPlace 1)
      [.registerNode { cpuMillicores := 4 }, .createDeployment { replicas := 0 },
        .deleteDeployment (nthId 2), .scaleDeployment (nthId 2) 1]).map fun x =>
          x.1.nodes.map fun n => (n.capacity .cpu, x.1.boundTo n.id .cpu, n.allocatable .cpu)) =
      some [(4, 1, 4)] := by
  decide +kernel

end StateMachine

end Hivemind
