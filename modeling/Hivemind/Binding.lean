import Hivemind.Apply

/-! Binding pods to nodes: when `handleBindPodToNode` and `handleBindPodsToNodes` accept, and what
they do then. -/
namespace Hivemind

/-- What a node has and a pod demands. -/
inductive Resource where
  | cpu | memory | gpu
  deriving DecidableEq

instance : Fintype Resource :=
  ⟨{.cpu, .memory, .gpu}, fun r => by cases r <;> decide⟩

def Node.capacity (n : Node) : Resource → ℕ
  | .cpu => n.cpuMillicores
  | .memory => n.memoryMegabytes
  | .gpu => n.gpuCount

def Node.allocatable (n : Node) : Resource → ℕ
  | .cpu => n.allocatableCpu
  | .memory => n.allocatableMem
  | .gpu => n.allocatableGpu

def Pod.demand (p : Pod) : Resource → ℕ
  | .cpu => p.cpuMillicores
  | .memory => p.memoryMegabytes
  | .gpu => p.gpuCount

/-- The node after something was taken from it. -/
def Node.less (n : Node) (d : Resource → ℕ) : Node :=
  { n with
    allocatableCpu := n.allocatableCpu - d .cpu
    allocatableMem := n.allocatableMem - d .memory
    allocatableGpu := n.allocatableGpu - d .gpu }

@[simp] theorem Node.less_id (n : Node) (d : Resource → ℕ) : (n.less d).id = n.id := rfl

@[simp] theorem Node.less_capacity (n : Node) (d : Resource → ℕ) : (n.less d).capacity = n.capacity := by
  funext r
  cases r <;> rfl

@[simp] theorem Node.less_allocatable (n : Node) (d : Resource → ℕ) (r : Resource) :
    (n.less d).allocatable r = n.allocatable r - d r := by
  cases r <;> rfl

/-- What the type of an amount holds. -/
def Resource.limit : Resource → ℕ
  | .cpu => StateMachine.u32Max
  | .memory => StateMachine.u32Max
  | .gpu => StateMachine.u8Max

/-- What the node can give is within the types of its fields. -/
def Node.Within (n : Node) : Prop := ∀ r, n.allocatable r ≤ r.limit

theorem Node.Within.less {n : Node} (h : n.Within) (d : Resource → ℕ) : (n.less d).Within := by
  intro r
  rw [Node.less_allocatable]
  exact (Nat.sub_le _ _).trans (h r)

/-- The pod after it was put on a node. -/
def Pod.on (p : Pod) (nodeId : ℕ) : Pod := { p with nodeId := nodeId, phase := .scheduled }

@[simp] theorem Pod.on_demand (p : Pod) (nodeId : ℕ) : (p.on nodeId).demand = p.demand := by
  funext r
  cases r <;> rfl

namespace StateMachine

variable {sm sm₁ : StateMachine}

/-! ### Finding records -/

theorem getElem?_of_findIdx? {α : Type*} {P : α → Bool} {l : List α} {i : ℕ}
    (h : l.findIdx? P = some i) : ∃ a, l[i]? = some a ∧ P a = true := by
  obtain ⟨hlt, hP, -⟩ := List.findIdx?_eq_some_iff_getElem.mp h
  exact ⟨l[i], List.getElem?_eq_getElem hlt, hP⟩

theorem find?_of_findIdx? {α : Type*} {P : α → Bool} {l : List α} {i : ℕ}
    (h : l.findIdx? P = some i) : l[i]? = l.find? P := by
  induction l generalizing i with
  | nil => cases h
  | cons a l ih =>
    rw [List.findIdx?_cons] at h
    rw [List.find?_cons]
    cases ha : P a with
    | true =>
      rw [ha, if_pos rfl] at h
      cases h
      rfl
    | false =>
      rw [ha, if_neg (by decide)] at h
      obtain ⟨j, hj, rfl⟩ := Option.map_eq_some_iff.mp h
      exact ih hj

theorem findIdx?_of_find? {α : Type*} {P : α → Bool} {l : List α} {a : α}
    (h : l.find? P = some a) : ∃ i, l.findIdx? P = some i ∧ l[i]? = some a := by
  have hsome : (l.findIdx? P).isSome := by
    rw [List.findIdx?_isSome, List.any_eq_true]
    exact ⟨a, List.mem_of_find?_eq_some h, List.find?_some h⟩
  obtain ⟨i, hi⟩ := Option.isSome_iff_exists.mp hsome
  exact ⟨i, hi, (find?_of_findIdx? hi).trans h⟩

theorem index_unique {α : Type*} {key : α → ℕ} {l : List α} {i j : ℕ} {a b : α}
    (hnodup : (l.map key).Nodup) (hi : l[i]? = some a) (hj : l[j]? = some b)
    (hkey : key a = key b) : i = j := by
  obtain ⟨hlt, -⟩ := List.getElem?_eq_some_iff.mp hi
  have hmap : (l.map key)[i]? = (l.map key)[j]? := by
    rw [List.getElem?_map, List.getElem?_map, hi, hj]
    exact congrArg some hkey
  exact (List.getElem?_inj (by simpa using hlt) hnodup).mp hmap

theorem modify_eq_set {α : Type*} {l : List α} {i : ℕ} {a : α} (f : α → α) (h : l[i]? = some a) :
    l.modify i f = l.set i (f a) := by
  apply List.ext_getElem?
  intro j
  obtain ⟨hlt, rfl⟩ := List.getElem?_eq_some_iff.mp h
  by_cases hij : i = j
  · subst hij
    simp [hlt]
  · simp [hij]

theorem modify_of_none {α : Type*} {l : List α} {i : ℕ} (f : α → α) (h : l[i]? = none) :
    l.modify i f = l :=
  List.modify_eq_self (List.getElem?_eq_none_iff.mp h)

theorem map_set_of_eq {α β : Type*} {f : α → β} {l : List α} {j : ℕ} {a a' : α}
    (h : l[j]? = some a) (ha : f a' = f a) : (l.set j a').map f = l.map f := by
  obtain ⟨hlt, rfl⟩ := List.getElem?_eq_some_iff.mp h
  rw [List.map_set, ha]
  apply List.ext_getElem?
  intro i
  rw [List.getElem?_set]
  split
  · next hji =>
    subst hji
    simp [hlt]
  · rfl

theorem find?_set_of_not {α : Type*} {P : α → Bool} {l : List α} {i : ℕ} {a a' : α}
    (h : l[i]? = some a) (ha : P a = false) (ha' : P a' = false) :
    (l.set i a').find? P = l.find? P := by
  induction l generalizing i with
  | nil => rfl
  | cons b l ih =>
    cases i with
    | zero =>
      cases h
      rw [List.set_cons_zero, List.find?_cons, List.find?_cons, ha, ha']
    | succ i =>
      rw [List.set_cons_succ, List.find?_cons, List.find?_cons, ih h]

theorem find?_set_of_findIdx? {α : Type*} {P : α → Bool} {l : List α} {i : ℕ} {a' : α}
    (h : l.findIdx? P = some i) (ha' : P a' = true) : (l.set i a').find? P = some a' := by
  induction l generalizing i with
  | nil => cases h
  | cons b l ih =>
    rw [List.findIdx?_cons] at h
    cases hb : P b with
    | true =>
      rw [hb, if_pos rfl] at h
      cases h
      rw [List.set_cons_zero, List.find?_cons, ha']
    | false =>
      rw [hb, if_neg (by decide)] at h
      obtain ⟨k, hk, rfl⟩ := Option.map_eq_some_iff.mp h
      rw [List.set_cons_succ, List.find?_cons, hb]
      exact ih hk

/-! ### One pod -/

theorem handleBindPodToNode_cases (sm : StateMachine) (podId nodeId : ℕ) :
    (∃ code, sm.handleBindPodToNode podId nodeId = (sm, .err code)) ∨
    ∃ i p j n, sm.findPodIndex podId = some i ∧ sm.pods[i]? = some p ∧
      sm.findNodeIndex nodeId = some j ∧ sm.nodes[j]? = some n ∧ n.id = nodeId ∧
      p.nodeId = 0 ∧ p.phase = .pending ∧ (∀ r, p.demand r ≤ n.allocatable r) ∧
      sm.handleBindPodToNode podId nodeId = ({ sm with
        nodes := sm.nodes.set j (n.less p.demand)
        pods := sm.pods.set i (p.on nodeId) }, .ok podId) := by
  unfold handleBindPodToNode
  cases hidx : sm.findPodIndex podId with
  | none => exact .inl ⟨_, rfl⟩
  | some i =>
    obtain ⟨p, hp, -⟩ := getElem?_of_findIdx? hidx
    have hpfound : sm.pods[i]? = sm.findPod podId := find?_of_findIdx? hidx
    rw [← hpfound, hp]
    cases hnidx : sm.findNodeIndex nodeId with
    | none => exact .inl ⟨_, rfl⟩
    | some j =>
      obtain ⟨n, hn, hnid⟩ := getElem?_of_findIdx? hnidx
      have hnfound : sm.nodes[j]? = sm.findNode nodeId := find?_of_findIdx? hnidx
      rw [← hnfound, hn]
      dsimp only
      split
      · exact .inl ⟨_, rfl⟩
      next hwaits =>
      split
      · exact .inl ⟨_, rfl⟩
      next hgpu =>
      split
      · exact .inl ⟨_, rfl⟩
      next hcpu =>
      split
      · exact .inl ⟨_, rfl⟩
      next hmem =>
      simp only [Bool.or_eq_true, bne_iff_ne, ne_eq, not_or, not_not] at hwaits
      simp only [gt_iff_lt, Bool.and_eq_true, decide_eq_true_eq, not_and, not_lt] at hgpu hcpu hmem
      have hfits : ∀ r, p.demand r ≤ n.allocatable r := by
        intro r
        rcases Nat.eq_zero_or_pos (p.demand r) with hzero | hpos
        · rw [hzero]
          exact Nat.zero_le _
        · cases r with
          | cpu => exact hcpu hpos
          | memory => exact hmem hpos
          | gpu => exact hgpu hpos
      refine .inr ⟨i, p, j, n, rfl, hp, rfl, hn, beq_iff_eq.mp hnid, hwaits.1, hwaits.2, hfits, ?_⟩
      rw [setPod, modify_eq_set _ hp]
      have hless : ({ n with
          allocatableGpu := if p.gpuCount > 0 then n.allocatableGpu - p.gpuCount else n.allocatableGpu
          allocatableCpu := n.allocatableCpu - p.cpuMillicores
          allocatableMem := n.allocatableMem - p.memoryMegabytes } : Node) = n.less p.demand := by
        congr 1
        show _ = n.allocatableGpu - p.gpuCount
        split <;> omega
      rw [hless]
      rfl

/-! ### A batch -/

/-- What a binding's pod demands. -/
def demandOf (sm : StateMachine) (podId : ℕ) (r : Resource) : ℕ :=
  ((sm.findPod podId).map (·.demand r)).getD 0

/-- What the bindings ask of the node at an index. -/
def asked (sm : StateMachine) (bs : List PodBinding) (j : ℕ) (r : Resource) : ℕ :=
  (bs.map fun b => if sm.findNodeIndex b.nodeId = some j then sm.demandOf b.podId r else 0).sum

/-- Nothing is asked of a node that is not there. -/
theorem asked_of_missing {bs : List PodBinding} {j : ℕ} (hj : sm.nodes[j]? = none) (r : Resource) :
    sm.asked bs j r = 0 := by
  rw [asked, List.sum_eq_zero_iff]
  intro x hx
  obtain ⟨b, -, rfl⟩ := List.mem_map.mp hx
  rw [if_neg]
  intro hidx
  obtain ⟨n, hn, -⟩ := getElem?_of_findIdx? hidx
  rw [hj] at hn
  cases hn

/-- What the first pass of `handleBindPodsToNodes` checks of one binding. -/
structure Eligible (sm : StateMachine) (b : PodBinding) (pod : Pod) (j : ℕ) (node : Node) : Prop where
  podId_ne : b.podId ≠ 0
  nodeId_ne : b.nodeId ≠ 0
  findPod : sm.findPod b.podId = some pod
  findNode : sm.findNodeIndex b.nodeId = some j
  node_at : sm.nodes[j]? = some node
  node_id : node.id = b.nodeId
  pod_active : pod.active = true
  unbound : pod.nodeId = 0
  pending : pod.phase = .pending
  node_active : node.active = true
  ready : node.status = .ready
  gpuType : 0 < pod.gpuCount → node.gpuType = pod.gpuType

def BatchNodeDemand.amount (d : BatchNodeDemand) : Resource → ℕ
  | .cpu => d.cpu
  | .memory => d.mem
  | .gpu => d.gpu

def BatchNodeDemand.plus (pod : Pod) (d : BatchNodeDemand) : BatchNodeDemand :=
  { d with
    cpu := d.cpu + pod.cpuMillicores
    mem := d.mem + pod.memoryMegabytes
    gpu := d.gpu + pod.gpuCount }

theorem BatchNodeDemand.plus_amount (pod : Pod) (d : BatchNodeDemand) (r : Resource) :
    (d.plus pod).amount r = d.amount r + pod.demand r := by
  cases r <;> rfl

/-- What the collected demands come to for the node at an index. -/
def total (ds : List BatchNodeDemand) (j : ℕ) (r : Resource) : ℕ :=
  (ds.map fun d => if d.nodeIdx = j then d.amount r else 0).sum

theorem sum_map_set {α : Type*} {f : α → ℕ} {l : List α} {i : ℕ} {a b : α} (h : l[i]? = some a) :
    ((l.set i b).map f).sum + f a = (l.map f).sum + f b := by
  induction l generalizing i with
  | nil => cases h
  | cons c l ih =>
    cases i with
    | zero =>
      cases h
      simp only [List.set_cons_zero, List.map_cons, List.sum_cons]
      omega
    | succ i =>
      have hrest := ih h
      simp only [List.set_cons_succ, List.map_cons, List.sum_cons]
      omega

theorem addDemand_some {ds : List BatchNodeDemand} {idx k : ℕ} {d : BatchNodeDemand} (pod : Pod)
    (hidx : ds.findIdx? (fun d => d.nodeIdx == idx) = some k) (hd : ds[k]? = some d) :
    addDemand ds idx pod = ds.set k (d.plus pod) := by
  rw [← modify_eq_set _ hd, addDemand, hidx]
  rfl

theorem total_addDemand (ds : List BatchNodeDemand) (idx : ℕ) (pod : Pod) (j : ℕ) (r : Resource) :
    total (addDemand ds idx pod) j r = total ds j r + if idx = j then pod.demand r else 0 := by
  cases hidx : ds.findIdx? (fun d => d.nodeIdx == idx) with
  | some k =>
    obtain ⟨d, hd, hsame⟩ := getElem?_of_findIdx? hidx
    have hnode : d.nodeIdx = idx := beq_iff_eq.mp hsame
    rw [addDemand_some pod hidx hd]
    have hsum := sum_map_set (f := fun d : BatchNodeDemand => if d.nodeIdx = j then d.amount r else 0)
      (b := d.plus pod) hd
    have hplus : (d.plus pod).nodeIdx = idx := hnode
    simp only [hplus, hnode, BatchNodeDemand.plus_amount] at hsum
    unfold total
    by_cases hj : idx = j
    · simp only [hj, if_true] at hsum ⊢
      omega
    · simp only [hj, if_false] at hsum ⊢
      omega
  | none =>
    rw [addDemand, hidx]
    unfold total
    simp only [List.map_append, List.sum_append, List.map_cons, List.map_nil, List.sum_cons,
      List.sum_nil, Nat.add_zero]
    cases r <;> rfl

theorem addDemand_nodup {ds : List BatchNodeDemand} (idx : ℕ) (pod : Pod)
    (h : (ds.map (·.nodeIdx)).Nodup) : ((addDemand ds idx pod).map (·.nodeIdx)).Nodup := by
  cases hidx : ds.findIdx? (fun d => d.nodeIdx == idx) with
  | some k =>
    obtain ⟨d, hd, -⟩ := getElem?_of_findIdx? hidx
    rw [addDemand_some pod hidx hd, map_set_of_eq hd]
    · exact h
    · rfl
  | none =>
    rw [addDemand, hidx]
    rw [List.map_append]
    apply List.Nodup.append h (List.nodup_singleton _)
    apply List.disjoint_singleton.mpr
    intro hmem
    obtain ⟨d, hd, hsame⟩ := List.mem_map.mp hmem
    have hnot := List.findIdx?_eq_none_iff.mp hidx d hd
    simp [hsame] at hnot

/-- The first pass accepts: every binding is eligible, no pod is named twice, and the demands
come to what the bindings ask. -/
theorem collectDemands_spec {bs : List PodBinding} {seen : List ℕ}
    {ds ds' : List BatchNodeDemand} (h : sm.collectDemands bs seen ds = some (.ok ds')) :
    (∀ b ∈ bs, ∃ pod j node, sm.Eligible b pod j node) ∧ (∀ b ∈ bs, b.podId ∉ seen) ∧
      (bs.map (·.podId)).Nodup ∧ ((ds.map (·.nodeIdx)).Nodup → (ds'.map (·.nodeIdx)).Nodup) ∧
      ∀ j r, total ds' j r = total ds j r + sm.asked bs j r := by
  induction bs generalizing seen ds with
  | nil =>
    cases h
    exact ⟨fun _ hb => absurd hb List.not_mem_nil, fun _ hb => absurd hb List.not_mem_nil,
      List.nodup_nil, fun h => h, fun _ _ => rfl⟩
  | cons b bs ih =>
    unfold collectDemands at h
    split at h
    · cases h
    next hids =>
    split at h
    · cases h
    next hseen =>
    cases hpod : sm.findPod b.podId with
    | none =>
      rw [hpod] at h
      cases h
    | some pod =>
      rw [hpod] at h
      cases hidx : sm.findNodeIndex b.nodeId with
      | none =>
        rw [hidx] at h
        cases h
      | some k =>
        obtain ⟨node, hnode, hid⟩ := getElem?_of_findIdx? hidx
        have hfound : sm.nodes[k]? = sm.findNode b.nodeId := find?_of_findIdx? hidx
        rw [hidx, ← hfound, hnode] at h
        dsimp only at h
        split at h
        · cases h
        next hwaits =>
        split at h
        · cases h
        next hready =>
        split at h
        · cases h
        next hgpu =>
        split at h
        · cases h
        split at h
        swap
        · cases h
        obtain ⟨heach, hnew, hnodup, hidxs, hsums⟩ := ih h
        simp only [Bool.or_eq_true, beq_iff_eq, not_or] at hids
        simp only [Bool.or_eq_true, Bool.not_eq_true', bne_iff_ne, ne_eq, not_or, not_not,
          Bool.not_eq_false] at hwaits hready
        simp only [gt_iff_lt, Bool.and_eq_true, decide_eq_true_eq, bne_iff_ne, ne_eq, not_and,
          not_not] at hgpu
        have hthis : sm.Eligible b pod k node :=
          ⟨hids.1, hids.2, hpod, hidx, hnode, beq_iff_eq.mp hid, hwaits.1.1, hwaits.1.2, hwaits.2,
            hready.1, hready.2, hgpu⟩
        refine ⟨?_, ?_, ?_, fun hds => hidxs (addDemand_nodup k pod hds), ?_⟩
        · intro b' hb'
          rcases List.mem_cons.mp hb' with rfl | hb'
          · exact ⟨pod, k, node, hthis⟩
          · exact heach b' hb'
        · intro b' hb'
          rcases List.mem_cons.mp hb' with rfl | hb'
          · simpa using hseen
          · exact fun hmem => hnew b' hb' (List.mem_cons_of_mem _ hmem)
        · rw [List.map_cons, List.nodup_cons]
          refine ⟨?_, hnodup⟩
          intro hmem
          obtain ⟨b', hb', hsame⟩ := List.mem_map.mp hmem
          exact hnew b' hb' (List.mem_cons.mpr (.inl hsame))
        · intro j r
          rw [hsums, total_addDemand]
          simp only [asked, List.map_cons, List.sum_cons, hidx, demandOf, hpod, Option.map_some,
            Option.getD_some, Option.some.injEq]
          omega

theorem nodeIdx_addDemand {ds : List BatchNodeDemand} {idx : ℕ} {pod : Pod} {d : BatchNodeDemand}
    (hd : d ∈ addDemand ds idx pod) : d.nodeIdx = idx ∨ d.nodeIdx ∈ ds.map (·.nodeIdx) := by
  cases hidx : ds.findIdx? (fun d => d.nodeIdx == idx) with
  | some k =>
    obtain ⟨d₀, hd₀, hsame⟩ := getElem?_of_findIdx? hidx
    rw [addDemand_some pod hidx hd₀] at hd
    rcases List.mem_or_eq_of_mem_set hd with hd | rfl
    · exact .inr (List.mem_map_of_mem hd)
    · exact .inl (beq_iff_eq.mp hsame)
  | none =>
    rw [addDemand, hidx] at hd
    rcases List.mem_append.mp hd with hd | hd
    · exact .inr (List.mem_map_of_mem hd)
    · rw [List.mem_singleton.mp hd]
      exact .inl rfl

theorem amount_le_total {ds : List BatchNodeDemand} {d : BatchNodeDemand} (hd : d ∈ ds)
    (r : Resource) : d.amount r ≤ total ds d.nodeIdx r := by
  have hmem := List.mem_map_of_mem (f := fun d' : BatchNodeDemand =>
    if d'.nodeIdx = d.nodeIdx then d'.amount r else 0) hd
  rw [if_pos rfl] at hmem
  exact List.single_le_sum (fun _ _ => Nat.zero_le _) _ hmem

theorem demandFits_of_le {d : BatchNodeDemand} (h : ∀ r : Resource, d.amount r ≤ r.limit) :
    demandFits d = true := by
  unfold demandFits
  rw [Bool.and_eq_true, Bool.and_eq_true, decide_eq_true_eq, decide_eq_true_eq, decide_eq_true_eq]
  exact ⟨⟨h .cpu, h .memory⟩, h .gpu⟩

theorem length_lt_of_new {l : List ℕ} {k n : ℕ} (hnodup : l.Nodup) (hlt : ∀ i ∈ l, i < n)
    (hk : k < n) (hnew : k ∉ l) : l.length < n := by
  have hsub : (k :: l) ⊆ List.range n := by
    intro i hi
    rw [List.mem_range]
    rcases List.mem_cons.mp hi with rfl | hi
    · exact hk
    · exact hlt i hi
  have hle := (List.subperm_of_subset (List.nodup_cons.mpr ⟨hnew, hnodup⟩) hsub).length_le
  rwa [List.length_range] at hle

theorem total_asked {b : PodBinding} {bs : List PodBinding} {ds : List BatchNodeDemand} {pod : Pod}
    {k : ℕ} (hpod : sm.findPod b.podId = some pod) (hnode : sm.findNodeIndex b.nodeId = some k)
    (j : ℕ) (r : Resource) :
    total (addDemand ds k pod) j r + sm.asked bs j r = total ds j r + sm.asked (b :: bs) j r := by
  rw [total_addDemand]
  simp only [asked, List.map_cons, List.sum_cons, hnode, demandOf, hpod, Option.map_some,
    Option.getD_some, Option.some.injEq]
  omega

theorem demandFits_all {ds : List BatchNodeDemand} (h : ∀ j r, total ds j r ≤ Resource.limit r) :
    ds.all demandFits = true := by
  rw [List.all_eq_true]
  intro d hd
  apply demandFits_of_le
  intro r
  exact (amount_le_total hd r).trans (h d.nodeIdx r)

/-- The first pass accepts bindings that are eligible and name no pod twice, as long as what they
ask of a node is within its types. -/
theorem collectDemands_of {bs : List PodBinding} {seen : List ℕ} {ds : List BatchNodeDemand}
    (hroom : sm.nodes.length ≤ maxNodes)
    (heach : ∀ b ∈ bs, ∃ pod j node, sm.Eligible b pod j node) (hnew : ∀ b ∈ bs, b.podId ∉ seen)
    (hnodup : (bs.map (·.podId)).Nodup) (hds : (ds.map (·.nodeIdx)).Nodup)
    (hidxs : ∀ i ∈ ds.map (·.nodeIdx), i < sm.nodes.length)
    (hsums : ∀ j r, total ds j r + sm.asked bs j r ≤ r.limit) :
    ∃ ds', sm.collectDemands bs seen ds = some (.ok ds') ∧
      ∀ i ∈ ds'.map (·.nodeIdx), i < sm.nodes.length := by
  induction bs generalizing seen ds with
  | nil => exact ⟨ds, rfl, hidxs⟩
  | cons b bs ih =>
    obtain ⟨pod, k, node, hb⟩ := heach b List.mem_cons_self
    have hfound : sm.findNode b.nodeId = some node := by
      have hfind : sm.nodes[k]? = sm.findNode b.nodeId := find?_of_findIdx? hb.findNode
      rw [← hfind]
      exact hb.node_at
    obtain ⟨hlt, -⟩ := List.getElem?_eq_some_iff.mp hb.node_at
    have hseen : ¬ seen.contains b.podId = true := by
      simpa using hnew b List.mem_cons_self
    have hfull : ¬ ((ds.findIdx? (fun d => d.nodeIdx == k)).isNone &&
        decide (ds.length ≥ maxNodes)) = true := by
      rw [Bool.and_eq_true, decide_eq_true_eq, Option.isNone_iff_eq_none]
      rintro ⟨hnone, hfull⟩
      have hk : k ∉ ds.map (·.nodeIdx) := by
        intro hmem
        obtain ⟨d, hd, hsame⟩ := List.mem_map.mp hmem
        have hnot := List.findIdx?_eq_none_iff.mp hnone d hd
        simp [hsame] at hnot
      have hlen := length_lt_of_new hds hidxs hlt hk
      rw [List.length_map] at hlen
      omega
    have hsums' : ∀ j r, total (addDemand ds k pod) j r + sm.asked bs j r ≤ r.limit := by
      intro j r
      rw [total_asked hb.findPod hb.findNode]
      exact hsums j r
    have hfits : (addDemand ds k pod).all demandFits = true :=
      demandFits_all fun j r => (Nat.le_add_right _ _).trans (hsums' j r)
    have hstep : sm.collectDemands (b :: bs) seen ds =
        sm.collectDemands bs (b.podId :: seen) (addDemand ds k pod) := by
      have hids : ¬ (b.podId == 0 || b.nodeId == 0) = true := by
        simp [hb.podId_ne, hb.nodeId_ne]
      have hwaits : ¬ (!pod.active || pod.nodeId != 0 || pod.phase != .pending) = true := by
        simp [hb.pod_active, hb.unbound, hb.pending]
      have hready : ¬ (!node.active || node.status != .ready) = true := by
        simp [hb.node_active, hb.ready]
      have hgpu : ¬ (decide (pod.gpuCount > 0) && node.gpuType != pod.gpuType) = true := by
        simpa using hb.gpuType
      rw [collectDemands, if_neg hids, if_neg hseen, hb.findPod]
      rw [hb.findNode, hfound]
      dsimp only
      rw [if_neg hwaits, if_neg hready, if_neg hgpu, if_neg hfull, if_pos hfits]
    rw [hstep]
    apply ih
    · exact fun b' hb' => heach b' (List.mem_cons_of_mem _ hb')
    · intro b' hb' hmem
      rw [List.map_cons, List.nodup_cons] at hnodup
      rcases List.mem_cons.mp hmem with hsame | hmem
      · exact hnodup.1 (hsame ▸ List.mem_map_of_mem hb')
      · exact hnew b' (List.mem_cons_of_mem _ hb') hmem
    · exact (List.nodup_cons.mp hnodup).2
    · exact addDemand_nodup k pod hds
    · intro i hi
      obtain ⟨d, hd, rfl⟩ := List.mem_map.mp hi
      rcases nodeIdx_addDemand hd with hsame | hmem
      · rw [hsame]
        exact hlt
      · exact hidxs _ hmem
    · exact hsums'

/-! ### What a batch does -/

theorem bindOne_some {b : PodBinding} {i : ℕ} {p : Pod} (hidx : sm.findPodIndex b.podId = some i)
    (hp : sm.pods[i]? = some p) : sm.bindOne b = { sm with pods := sm.pods.set i (p.on b.nodeId) } := by
  rw [bindOne, hidx]
  dsimp only
  rw [setPod, modify_eq_set _ hp]
  rfl

theorem findPod_bindOne_ne {b : PodBinding} {id : ℕ} (hne : b.podId ≠ id) :
    (sm.bindOne b).findPod id = sm.findPod id := by
  cases hidx : sm.findPodIndex b.podId with
  | none => rw [bindOne, hidx]
  | some i =>
    obtain ⟨p, hp, hid⟩ := getElem?_of_findIdx? hidx
    have hpid : p.id ≠ id := by
      rw [beq_iff_eq.mp hid]
      exact hne
    rw [bindOne_some hidx hp]
    apply find?_set_of_not hp
    · simpa using hpid
    · simpa [Pod.on] using hpid

theorem findPod_bindOne {b : PodBinding} {pod : Pod} (h : sm.findPod b.podId = some pod) :
    (sm.bindOne b).findPod b.podId = some (pod.on b.nodeId) := by
  obtain ⟨i, hidx, hp⟩ := findIdx?_of_find? h
  rw [bindOne_some hidx hp]
  apply find?_set_of_findIdx? hidx
  have hid := List.find?_some h
  exact hid

theorem findPod_bindAll {bs : List PodBinding} (hnodup : (bs.map (·.podId)).Nodup) {b : PodBinding}
    (hb : b ∈ bs) {pod : Pod} (hpod : sm.findPod b.podId = some pod) :
    (bs.foldl bindOne sm).findPod b.podId = some (pod.on b.nodeId) := by
  induction bs generalizing sm with
  | nil => cases hb
  | cons b₀ bs ih =>
    rw [List.map_cons, List.nodup_cons] at hnodup
    have hkeep : ∀ (cs : List PodBinding) (sm : StateMachine), b.podId ∉ cs.map (·.podId) →
        (cs.foldl bindOne sm).findPod b.podId = sm.findPod b.podId := by
      intro cs
      induction cs with
      | nil => exact fun _ _ => rfl
      | cons c cs ihc =>
        intro sm hnot
        rw [List.map_cons, List.mem_cons, not_or] at hnot
        rw [List.foldl_cons, ihc _ hnot.2, findPod_bindOne_ne (Ne.symm hnot.1)]
    rw [List.foldl_cons]
    rcases List.mem_cons.mp hb with rfl | hb
    · rw [hkeep bs _ hnodup.1]
      exact findPod_bindOne hpod
    · apply ih hnodup.2 hb
      rw [findPod_bindOne_ne, hpod]
      intro hsame
      exact hnodup.1 (hsame ▸ List.mem_map_of_mem hb)

theorem bindAll_frame (bs : List PodBinding) :
    bs.foldl bindOne sm = { sm with pods := (bs.foldl bindOne sm).pods } := by
  induction bs generalizing sm with
  | nil => rfl
  | cons b bs ih =>
    rw [List.foldl_cons, ih]
    unfold bindOne
    cases sm.findPodIndex b.podId <;> rfl

theorem takeDemand_eq (d : BatchNodeDemand) :
    sm.takeDemand d = { sm with nodes := sm.nodes.modify d.nodeIdx (·.less d.amount) } :=
  rfl

theorem takeDemands_frame (ds : List BatchNodeDemand) :
    ds.foldl takeDemand sm = { sm with nodes := (ds.foldl takeDemand sm).nodes } := by
  induction ds generalizing sm with
  | nil => rfl
  | cons d ds ih =>
    rw [List.foldl_cons, ih]
    rfl

theorem takeDemands_nodes (ds : List BatchNodeDemand) (j : ℕ) :
    (ds.foldl takeDemand sm).nodes[j]? = sm.nodes[j]?.map fun n => n.less (total ds j) := by
  induction ds generalizing sm with
  | nil =>
    rw [List.foldl_nil]
    cases sm.nodes[j]? <;> rfl
  | cons d ds ih =>
    rw [List.foldl_cons, ih, takeDemand_eq, List.getElem?_modify]
    cases hn : sm.nodes[j]? with
    | none => rfl
    | some n =>
      unfold total
      by_cases hj : d.nodeIdx = j
      · simp [hj, Node.less, Nat.sub_sub]
      · simp [hj, Node.less]

/-- What the batch handler does: nothing and an error, or all it was asked to. -/
theorem handleBindPodsToNodes_cases {c : BindPodsToNodesCmd} {r : Result}
    (h : sm.handleBindPodsToNodes c = some (sm₁, r)) :
    (sm₁ = sm ∧ ∃ code, r = .err code) ∨
    ∃ ds, sm.collectDemands (c.bindings.take c.count) [] [] = some (.ok ds) ∧
      ds.all sm.demandMet = true ∧ r = .ok c.count ∧
      sm₁ = (c.bindings.take c.count).foldl bindOne (ds.foldl takeDemand sm) := by
  unfold handleBindPodsToNodes at h
  split at h
  · cases h
    exact .inl ⟨rfl, _, rfl⟩
  dsimp only at h
  cases hcollect : sm.collectDemands (c.bindings.take c.count) [] [] with
  | none =>
    rw [hcollect] at h
    cases h
  | some x =>
    rw [hcollect] at h
    cases x with
    | error code =>
      cases h
      exact .inl ⟨rfl, _, rfl⟩
    | ok ds =>
      dsimp only at h
      split at h
      · cases h
        exact .inl ⟨rfl, _, rfl⟩
      · next hmet =>
        cases h
        exact .inr ⟨ds, rfl, by simpa using hmet, rfl, rfl⟩

/-- A batch is accepted when its bindings are eligible, name no pod twice, and ask of no node more
than it can give. -/
theorem handleBindPodsToNodes_of {c : BindPodsToNodesCmd} (hroom : sm.nodes.length ≤ maxNodes)
    (hwithin : ∀ n ∈ sm.nodes, n.Within) (hpos : 0 < c.count) (hcount : c.count ≤ bindBatchMax)
    (heach : ∀ b ∈ c.bindings.take c.count, ∃ pod j node, sm.Eligible b pod j node)
    (hnodup : ((c.bindings.take c.count).map (·.podId)).Nodup)
    (hasked : ∀ j node, sm.nodes[j]? = some node → ∀ r,
      sm.asked (c.bindings.take c.count) j r ≤ node.allocatable r) :
    ∃ ds : List BatchNodeDemand, sm.handleBindPodsToNodes c =
      some ((c.bindings.take c.count).foldl bindOne (ds.foldl takeDemand sm), .ok c.count) := by
  have hempty : ∀ j r, total [] j r = 0 := fun _ _ => rfl
  have hsums : ∀ j r, total [] j r + sm.asked (c.bindings.take c.count) j r ≤ r.limit := by
    intro j r
    rw [hempty, Nat.zero_add]
    cases hn : sm.nodes[j]? with
    | some node => exact (hasked j node hn r).trans (hwithin node (List.mem_of_getElem? hn) r)
    | none =>
      rw [asked_of_missing hn]
      exact Nat.zero_le _
  obtain ⟨ds, hcollect, hidxs⟩ : ∃ ds,
      sm.collectDemands (c.bindings.take c.count) [] [] = some (.ok ds) ∧
        ∀ i ∈ ds.map (·.nodeIdx), i < sm.nodes.length := by
    apply collectDemands_of hroom heach (fun _ _ => List.not_mem_nil) hnodup
    · exact List.nodup_nil
    · exact fun _ h => absurd h List.not_mem_nil
    · exact hsums
  obtain ⟨-, -, -, -, htotal⟩ := collectDemands_spec hcollect
  have hmet : ds.all sm.demandMet = true := by
    rw [List.all_eq_true]
    intro d hd
    have hlt := hidxs d.nodeIdx (List.mem_map_of_mem hd)
    have hn := List.getElem?_eq_getElem hlt
    have hle : ∀ r, d.amount r ≤ (sm.nodes[d.nodeIdx]).allocatable r := by
      intro r
      have hsum := htotal d.nodeIdx r
      rw [hempty, Nat.zero_add] at hsum
      exact (amount_le_total hd r).trans (hsum.trans_le (hasked _ _ hn r))
    rw [demandMet, hn]
    simp only [Bool.and_eq_true, Bool.not_eq_true', decide_eq_false_iff_not, not_lt]
    exact ⟨⟨hle .cpu, hle .memory⟩, hle .gpu⟩
  refine ⟨ds, ?_⟩
  have hbad : ¬ (c.count == 0 || decide (c.count > bindBatchMax)) = true := by
    simp only [Bool.or_eq_true, beq_iff_eq, decide_eq_true_eq]
    omega
  rw [handleBindPodsToNodes, if_neg hbad]
  dsimp only
  rw [hcollect]
  dsimp only
  rw [hmet, Bool.not_true, if_neg Bool.false_ne_true]

end StateMachine

end Hivemind
