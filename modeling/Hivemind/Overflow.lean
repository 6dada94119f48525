import Hivemind.Batch
import Hivemind.Placement
import Hivemind.Ready

/-! The integers of the tables: what keeps every sum and difference of the handlers within its type.
What a node can give and what is bound to it only shift against each other, so their sum, which a
refund can not exceed, changes with registrations alone. -/
namespace Hivemind

/-- The bindings a command asks for. -/
def Command.bindings : Command → List PodBinding
  | .bindPodToNode podId nodeId => [⟨podId, nodeId⟩]
  | .bindPodsToNodes c => c.bindings.take c.count
  | _ => []

namespace StateMachine

variable {sm sm₁ : StateMachine} {cmd : Command} {res : Result} {id j : ℕ}

/-! ### Refunds -/

/-- Every capacity is within its type, and so is what a node can give together with what is bound
to it. -/
def Contained (sm : StateMachine) : Prop :=
  ∀ n ∈ sm.nodes, ∀ r, n.capacity r ≤ r.limit ∧ n.allocatable r + sm.boundTo n.id r ≤ r.limit

theorem Contained.shifted (h : sm.Contained) (hs : Shifted sm sm₁) : sm₁.Contained := by
  intro n₁ hn₁ r
  obtain ⟨n, hn, -, hcap, hsum⟩ := hs n₁ hn₁
  rw [← hcap, hsum r]
  exact h n hn r

theorem amount_le_limit {c : RegisterNodeCmd} (h : c.Within) (r : Resource) :
    c.amount r ≤ r.limit := by
  cases r with
  | cpu => exact h.1
  | memory => exact h.2.1
  | gpu => exact h.2.2

theorem apply_contained (happly : sm.apply cmd = some (sm₁, res)) (h : sm.Contained)
    (hk : sm.Keyed) (hk₁ : sm₁.Keyed) (hhomed : sm.Homed) (hroom : sm.pods.length ≤ maxPods)
    (hwithin : cmd.Within) (hwaste : sm.slips cmd .waste = false)
    (hforget : sm.slips cmd .forget = false) : sm₁.Contained := by
  by_cases hcmd : ∃ c, cmd = .registerNode c
  swap
  · exact h.shifted (apply_moves happly hk hroom hwaste fun c hc => hcmd ⟨c, hc⟩).shifted
  obtain ⟨c, rfl⟩ := hcmd
  obtain ⟨hbound, hnodes⟩ := handleRegisterNode_registers happly hk₁ hhomed hforget
  intro n hn r
  rw [hbound]
  rcases hnodes n hn with hold | ⟨hcap, halloc, hid⟩
  · exact h n hold r
  have hcapacity : n.capacity r ≤ r.limit := by
    rw [hcap]
    exact amount_le_limit (hwithin c rfl) r
  have hfits : sm.boundTo n.id r ≤ r.limit := by
    rcases hid with hmem | hzero
    · obtain ⟨m, hm, hsame⟩ := List.mem_map.mp hmem
      have hheld := (h m hm r).2
      rw [← hsame]
      omega
    · rw [hzero r]
      exact Nat.zero_le _
  refine ⟨hcapacity, ?_⟩
  rw [halloc r]
  omega

theorem releaseOnNode_returns (h : sm.Contained) {p : Pod} (hp : p ∈ sm.pods) :
    ∃ sm₁, sm.releaseOnNode p = some sm₁ := by
  unfold releaseOnNode
  split
  · exact ⟨sm, rfl⟩
  cases hidx : sm.findNodeIndex p.nodeId with
  | none => exact ⟨sm, rfl⟩
  | some i =>
    obtain ⟨n, hn, hid⟩ := getElem?_of_findIdx? hidx
    dsimp only
    rw [hn]
    dsimp only
    obtain ⟨i', hi'⟩ := List.mem_iff_getElem?.mp hp
    have hfits : ∀ r, n.allocatable r + p.demand r ≤ r.limit := by
      intro r
      have hheld := held_le_boundTo hi' n.id r
      rw [held, if_pos (beq_iff_eq.mp hid).symm] at hheld
      have hroom := (h n (List.mem_of_getElem? hn) r).2
      omega
    have hrelease : ∃ n', releasePod n p = some n' := by
      have hcpu : n.allocatableCpu + p.cpuMillicores ≤ u32Max := hfits .cpu
      have hmemory : n.allocatableMem + p.memoryMegabytes ≤ u32Max := hfits .memory
      have hgpu : n.allocatableGpu + p.gpuCount ≤ u8Max := hfits .gpu
      have hgpu' : (if p.gpuCount > 0 then n.allocatableGpu + p.gpuCount else n.allocatableGpu) ≤
          u8Max := by
        split
        · exact hgpu
        · omega
      unfold releasePod
      rw [if_neg]
      · exact ⟨_, rfl⟩
      · simp only [gt_iff_lt, Bool.or_eq_true, decide_eq_true_eq, not_or, not_lt]
        exact ⟨⟨hgpu', hcpu⟩, hmemory⟩
    obtain ⟨n', hn'⟩ := hrelease
    rw [hn']
    exact ⟨_, rfl⟩

theorem deletePods_returns (slots : List ℕ) (h : sm.Contained) (hk : sm.Keyed) :
    ∃ sm₁, deletePods id j slots sm = some sm₁ := by
  induction slots generalizing sm with
  | nil => exact ⟨sm, rfl⟩
  | cons i rest ih =>
    unfold deletePods
    cases hp : sm.pods[i]? with
    | none => exact ih h hk
    | some p =>
      dsimp only
      split
      · exact ih h hk
      obtain ⟨sm₂, hrel⟩ := releaseOnNode_returns h (List.mem_of_getElem? hp)
      rw [hrel]
      dsimp only
      have hpods : sm₂.pods = sm.pods := by rw [releaseOnNode_frame hrel]
      have hp₂ : sm₂.pods[i]? = some p := by
        rw [hpods]
        exact hp
      obtain ⟨f, -, hleave⟩ := terminatePod_leave j hp₂
      rw [hleave, hpods]
      have hids := releaseOnNode_ids hrel
      apply ih
      · exact h.shifted (release_moves hk hp hrel rfl).shifted
      · exact hk.of_ids hids

/-! ### Sums of a batch -/

theorem collectDemands_returns {bs : List PodBinding} {seen : List ℕ} {ds : List BatchNodeDemand}
    (hsums : ∀ j r, total ds j r + sm.asked bs j r ≤ r.limit) :
    ∃ x, sm.collectDemands bs seen ds = some x := by
  induction bs generalizing seen ds with
  | nil => exact ⟨_, rfl⟩
  | cons b bs ih =>
    unfold collectDemands
    split
    · exact ⟨_, rfl⟩
    split
    · exact ⟨_, rfl⟩
    cases hpod : sm.findPod b.podId with
    | none => exact ⟨_, rfl⟩
    | some pod =>
      cases hidx : sm.findNodeIndex b.nodeId with
      | none => exact ⟨_, rfl⟩
      | some k =>
        cases hnode : sm.findNode b.nodeId with
        | none => exact ⟨_, rfl⟩
        | some node =>
          dsimp only
          have hsums' : ∀ j r, total (addDemand ds k pod) j r + sm.asked bs j r ≤ r.limit := by
            intro j r
            rw [total_asked hpod hidx]
            exact hsums j r
          have hfits : (addDemand ds k pod).all demandFits = true :=
            demandFits_all fun j r => (Nat.le_add_right _ _).trans (hsums' j r)
          split
          · exact ⟨_, rfl⟩
          split
          · exact ⟨_, rfl⟩
          split
          · exact ⟨_, rfl⟩
          split
          · exact ⟨_, rfl⟩
          exact ih hsums'

/-- A batch asks a node for more than the type of the sum holds. -/
def overasks (sm : StateMachine) : Command → Bool
  | .bindPodsToNodes c => (List.range sm.nodes.length).any fun j =>
      decide (∃ r : Resource, r.limit < sm.asked (c.bindings.take c.count) j r)
  | _ => false

theorem asked_le_limit {c : BindPodsToNodesCmd}
    (hasks : sm.overasks (.bindPodsToNodes c) = false) (j : ℕ) (r : Resource) :
    sm.asked (c.bindings.take c.count) j r ≤ r.limit := by
  by_cases hj : j < sm.nodes.length
  · have hnot := List.any_eq_false.mp hasks j (List.mem_range.mpr hj)
    rw [decide_eq_true_eq, not_exists] at hnot
    exact not_lt.mp (hnot r)
  · rw [asked_of_missing (List.getElem?_eq_none (not_lt.mp hj))]
    exact Nat.zero_le _

/-! ### Counters of a deployment -/

/-- No counter of a deployment is above `k`. -/
def Young (k : ℕ) (sm : StateMachine) : Prop :=
  ∀ d ∈ sm.deployments, d.readyReplicas ≤ k ∧ d.version ≤ k

variable {k : ℕ}

theorem Young.same (h : sm.Young k) (hdeps : sm₁.deployments = sm.deployments) : sm₁.Young k := by
  intro d hd
  rw [hdeps] at hd
  exact h d hd

theorem Young.later (h : sm.Young k) : sm.Young (k + 1) := by
  intro d hd
  obtain ⟨hready, hversion⟩ := h d hd
  exact ⟨hready.trans (Nat.le_succ k), hversion.trans (Nat.le_succ k)⟩

theorem Young.set {d' : Deployment} (h : sm.Young k)
    (hdeps : sm₁.deployments = sm.deployments.set j d')
    (hd' : d'.readyReplicas ≤ k ∧ d'.version ≤ k) : sm₁.Young k := by
  intro d hd
  rw [hdeps] at hd
  rcases List.mem_or_eq_of_mem_set hd with hd | rfl
  · exact h d hd
  · exact hd'

theorem Young.modify {f : Deployment → Deployment} (h : sm.Young k)
    (hdeps : sm₁.deployments = sm.deployments.modify j f)
    (hf : ∀ d, (f d).readyReplicas ≤ d.readyReplicas ∧ (f d).version = d.version) :
    sm₁.Young k := by
  intro d hd
  rw [hdeps] at hd
  rcases mem_modify hd with hd | ⟨b, hb, rfl⟩
  · exact h d hd
  · obtain ⟨hready, hversion⟩ := h b (List.mem_of_getElem? hb)
    rw [(hf b).2]
    exact ⟨(hf b).1.trans hready, hversion⟩

theorem terminatePod_young {i : ℕ} {p : Pod} (h : sm.Young k) : (sm.terminatePod j i p).Young k := by
  unfold terminatePod
  split
  · exact h.modify rfl fun _ => ⟨Nat.sub_le _ _, rfl⟩
  · exact h.same rfl

theorem terminateExcess_young {slots : List ℕ} {excess : ℕ} (h : sm.Young k) :
    (terminateExcess id j slots excess sm).Young k := by
  induction slots generalizing sm excess with
  | nil => exact h
  | cons i rest ih =>
    cases excess with
    | zero => exact h
    | succ excess =>
      unfold terminateExcess
      cases sm.pods[i]? with
      | none => exact ih h
      | some p =>
        dsimp only
        split
        · exact ih h
        · exact ih (terminatePod_young h)

theorem deletePods_young {slots : List ℕ} (hloop : deletePods id j slots sm = some sm₁)
    (h : sm.Young k) : sm₁.Young k := by
  induction slots generalizing sm with
  | nil =>
    cases hloop
    exact h
  | cons i rest ih =>
    obtain ⟨hrest, -⟩ | ⟨p, sm₂, f, -, -, -, hrel, hf, hrest⟩ := deletePods_cons hloop
    · exact ih hrest h
    · apply ih hrest
      have hdeps : sm₂.deployments = sm.deployments := by rw [releaseOnNode_frame hrel]
      exact (h.same hdeps).modify rfl fun d => ⟨(hf d).ready, (hf d).version⟩

theorem appendPods_deployments (id ordinal remaining : ℕ) (sm : StateMachine) :
    (appendPods id ordinal remaining sm).deployments = sm.deployments := by
  induction remaining generalizing sm ordinal with
  | zero => rfl
  | succ remaining ih =>
    obtain ⟨⟨filled, sm'⟩, happends, hnext⟩ := appendPods_succ sm id ordinal remaining
    rw [hnext]
    have hone : sm'.deployments = sm.deployments := by cases happends <;> rfl
    cases filled with
    | false => exact hone
    | true => exact (ih (ordinal + 1) sm').trans hone

theorem ensureDeploymentReplicaCount_deployments (id : ℕ) (sm : StateMachine) :
    (sm.ensureDeploymentReplicaCount id).deployments = sm.deployments := by
  unfold ensureDeploymentReplicaCount
  cases sm.findDeployment id with
  | none => rfl
  | some dep =>
    dsimp only
    split
    · rfl
    · exact appendPods_deployments _ _ _ sm

theorem handleCreateDeployment_young (c : CreateDeploymentCmd) (h : sm.Young k) :
    (sm.handleCreateDeployment c).1.Young (k + 1) := by
  have hnew : ∀ podId, (deploymentOf c podId).readyReplicas ≤ k + 1 ∧
      (deploymentOf c podId).version ≤ k + 1 := fun _ => ⟨Nat.zero_le _, Nat.le_add_left 1 k⟩
  unfold handleCreateDeployment
  cases sm.findInactiveDeploymentIndex with
  | some idx => exact h.later.set (appendPods_deployments _ _ _ _) (hnew _)
  | none =>
    dsimp only
    split
    · exact h.later
    · intro d hd
      rw [appendPods_deployments] at hd
      rcases List.mem_append.mp hd with hd | hd
      · exact h.later d hd
      · rw [List.mem_singleton.mp hd]
        exact hnew _

theorem handleScaleDeployment_young {desired : ℕ} (h : sm.Young k) :
    (sm.handleScaleDeployment id desired).1.Young k := by
  unfold handleScaleDeployment
  split
  · next depIdx dep _ _ =>
    have hset : (sm.setDeployment depIdx fun d => { d with replicas := desired }).Young k :=
      h.modify rfl fun _ => ⟨le_rfl, rfl⟩
    dsimp only
    split
    · exact hset.same (appendPods_deployments _ _ _ _)
    · exact terminateExcess_young hset
  · exact h

theorem handleUnbindPod_young (podId : ℕ) (h : sm.Young k) : (sm.handleUnbindPod podId).1.Young k := by
  unfold handleUnbindPod
  split
  · split
    · exact terminatePod_young h
    · exact h.same rfl
  · exact h

theorem countReady_le {d d' : Deployment} {oldPhase newPhase : PodPhase}
    (h : countReady d oldPhase newPhase = some d') : d'.readyReplicas ≤ d.readyReplicas + 1 := by
  unfold countReady at h
  split at h
  · split at h
    · cases h
    · cases h
      exact le_rfl
  · split at h
    · cases h
      exact (Nat.sub_le _ _).trans (Nat.le_succ _)
    · cases h
      exact Nat.le_succ _

theorem handleUpdatePodStatus_young {podId : ℕ} {newPhase : PodPhase}
    (happly : sm.handleUpdatePodStatus podId newPhase = some (sm₁, res)) (h : sm.Young k) :
    sm₁.Young (k + 1) := by
  obtain rfl | ⟨i, p, j, f, -, -, -, hready, hrest⟩ := handleUpdatePodStatus_cases happly
  · exact h.later
  have hcount : (sm.setDeployment j f).Young (k + 1) := by
    obtain ⟨-, hsame⟩ | ⟨j', d, d', hd, -, hd', hset⟩ := countReadyAt_spec hready
    · rw [hsame]
      exact h.later
    · obtain ⟨hdr, hdv⟩ := h d (List.mem_of_getElem? hd)
      exact h.later.set hset
        ⟨(countReady_le hd').trans (Nat.succ_le_succ hdr), hdv.trans (Nat.le_succ k)⟩
  obtain ⟨-, sm₂, hrel, hsm₁⟩ | rfl := hrest
  · have hleft : ({ sm₂ with pods := sm.pods.set i (ended newPhase p) } : StateMachine).Young
        (k + 1) := by
      apply hcount.same
      rw [releaseOnNode_frame hrel]
    obtain rfl | rfl := hsm₁
    · exact hleft
    · exact hleft.same (ensureDeploymentReplicaCount_deployments _ _)
  · exact hcount.same rfl

theorem handleDeleteDeployment_young (happly : sm.handleDeleteDeployment id = some (sm₁, res))
    (h : sm.Young k) : sm₁.Young k := by
  obtain ⟨rfl, -⟩ | ⟨j, -, -, hloop⟩ := handleDeleteDeployment_cases happly
  · exact h
  · exact deletePods_young hloop (h.modify rfl fun _ => ⟨le_rfl, rfl⟩)

theorem apply_young (happly : sm.apply cmd = some (sm₁, res)) (h : sm.Young k) :
    sm₁.Young (k + 1) := by
  by_cases hside : cmd.outside = true
  · exact h.later.same (apply_outside hside happly).2
  by_cases hrewrites : cmd.rewrites = true
  · obtain rfl | ⟨j, d, d', hd, hd', rfl⟩ := apply_rewrites hrewrites happly
    · exact h.later
    · obtain ⟨hready, hversion⟩ := h d (List.mem_of_getElem? hd)
      refine h.later.set rfl ⟨?_, hd'.version.trans (Nat.succ_le_succ hversion)⟩
      rw [hd'.ready]
      exact hready.trans (Nat.le_succ k)
  cases cmd with
  | createDeployment c =>
    rw [← next_eq happly]
    exact handleCreateDeployment_young c h
  | bindPodToNode podId nodeId =>
    rw [← next_eq happly]
    obtain ⟨code, herr⟩ | ⟨i, p, j, n, -, -, -, -, -, -, -, -, hok⟩ :=
      handleBindPodToNode_cases sm podId nodeId
    · rw [herr]
      exact h.later
    · rw [hok]
      exact h.later.same rfl
  | bindPodsToNodes c =>
    obtain ⟨rfl, -⟩ | ⟨ds, -, -, -, rfl⟩ := handleBindPodsToNodes_cases happly
    · exact h.later
    · apply h.later.same
      rw [bindAll_frame, takeDemands_frame]
  | updatePodStatus podId newPhase => exact handleUpdatePodStatus_young happly h
  | scaleDeployment id desired =>
    rw [← next_eq happly]
    exact (handleScaleDeployment_young h).later
  | unbindPod podId =>
    rw [← next_eq happly]
    exact (handleUnbindPod_young podId h).later
  | deleteDeployment id => exact (handleDeleteDeployment_young happly h).later
  | registerNode _ | deregisterNode _ | updateNodeStatus _ _ | setKillswitch _ _ _ | noop =>
    exact absurd rfl hside
  | _ => exact absurd rfl hrewrites

/-! ### Commands return -/

theorem countReadyAt_returns {oldPhase newPhase : PodPhase} :
    (∃ sm₁, sm.countReadyAt id oldPhase newPhase = some sm₁) ∨
      ∃ d ∈ sm.deployments, u32Max ≤ d.readyReplicas := by
  unfold countReadyAt
  cases hidx : sm.findDeploymentIndex id with
  | none => exact .inl ⟨sm, rfl⟩
  | some j =>
    obtain ⟨d, hd, -⟩ := getElem?_of_findIdx? hidx
    have hfound : sm.deployments[j]? = sm.findDeployment id := find?_of_findIdx? hidx
    rw [← hfound, hd]
    dsimp only
    cases hcount : countReady d oldPhase newPhase with
    | some d' => exact .inl ⟨_, rfl⟩
    | none =>
      refine .inr ⟨d, List.mem_of_getElem? hd, ?_⟩
      unfold countReady at hcount
      split at hcount
      · split at hcount
        · omega
        · cases hcount
      · split at hcount <;> cases hcount

theorem handleUpdatePodStatus_returns {podId : ℕ} {newPhase : PodPhase} (h : sm.Contained) :
    (∃ x, sm.handleUpdatePodStatus podId newPhase = some x) ∨
      ∃ d ∈ sm.deployments, u32Max ≤ d.readyReplicas := by
  unfold handleUpdatePodStatus
  cases hidx : sm.findPodIndex podId with
  | none => exact .inl ⟨_, rfl⟩
  | some i =>
    obtain ⟨p, hp, -⟩ := getElem?_of_findIdx? hidx
    have hfound : sm.pods[i]? = sm.findPod podId := find?_of_findIdx? hidx
    rw [← hfound, hp]
    dsimp only
    have hready : (∃ sm₂, sm.countReadyAt p.deploymentId p.phase newPhase = some sm₂) ∨
        ∃ d ∈ sm.deployments, u32Max ≤ d.readyReplicas := countReadyAt_returns
    obtain ⟨sm₂, hready⟩ | hworn := hready
    swap
    · exact .inr hworn
    left
    rw [hready]
    dsimp only
    split
    · -- the count of ready pods has no part in what nodes can give
      obtain ⟨j, f, -, rfl⟩ := countReadyAt_cases hready
      have hcontained : (sm.setDeployment j f).Contained := h
      have hmem : p ∈ (sm.setDeployment j f).pods := List.mem_of_getElem? hp
      obtain ⟨sm₃, hrel⟩ := releaseOnNode_returns hcontained hmem
      rw [hrel]
      exact ⟨_, rfl⟩
    · exact ⟨_, rfl⟩

theorem handleDeleteDeployment_returns (h : sm.Contained) (hk : sm.Keyed) :
    ∃ x, sm.handleDeleteDeployment id = some x := by
  unfold handleDeleteDeployment
  cases sm.findDeploymentIndex id with
  | none => exact ⟨_, rfl⟩
  | some j =>
    have hcontained : (sm.setDeployment j fun d => { d with active := false }).Contained := h
    have hkeyed : (sm.setDeployment j fun d => { d with active := false }).Keyed :=
      ⟨hk.nodup, hk.ne_zero⟩
    obtain ⟨sm₁, hloop⟩ : ∃ sm₁, deletePods id j
        (List.range (sm.setDeployment j fun d => { d with active := false }).pods.length)
        (sm.setDeployment j fun d => { d with active := false }) = some sm₁ :=
      deletePods_returns _ hcontained hkeyed
    dsimp only
    rw [hloop]
    exact ⟨_, rfl⟩

theorem handleBindPodsToNodes_returns {c : BindPodsToNodesCmd}
    (hasks : sm.overasks (.bindPodsToNodes c) = false) :
    ∃ x, sm.handleBindPodsToNodes c = some x := by
  unfold handleBindPodsToNodes
  split
  · exact ⟨_, rfl⟩
  dsimp only
  have hempty : ∀ j r, total [] j r = 0 := fun _ _ => rfl
  have hsums : ∀ j r, total [] j r + sm.asked (c.bindings.take c.count) j r ≤ r.limit := by
    intro j r
    rw [hempty, Nat.zero_add]
    exact asked_le_limit hasks j r
  obtain ⟨x, hx⟩ : ∃ x, sm.collectDemands (c.bindings.take c.count) [] [] = some x :=
    collectDemands_returns hsums
  rw [hx]
  cases x with
  | error code => exact ⟨_, rfl⟩
  | ok ds =>
    dsimp only
    split <;> exact ⟨_, rfl⟩

theorem updateDeploymentAt_returns {f : Deployment → Option (Except ErrorCode Deployment)}
    (hf : ∀ d, f d = none → u32Max ≤ d.version) :
    (∃ x, sm.updateDeploymentAt id f = some x) ∨ ∃ d ∈ sm.deployments, u32Max ≤ d.version := by
  unfold updateDeploymentAt
  split
  · next j d _ hfind =>
    cases hfd : f d with
    | none => exact .inr ⟨d, List.mem_of_find?_eq_some hfind, hf d hfd⟩
    | some x =>
      left
      cases x with
      | error code => exact ⟨_, rfl⟩
      | ok d' => exact ⟨_, rfl⟩
  · exact .inl ⟨_, rfl⟩

/-- A command returns, or a counter of a deployment is at its end. -/
theorem apply_returns (h : sm.Contained) (hk : sm.Keyed) (hasks : sm.overasks cmd = false) :
    (∃ x, sm.apply cmd = some x) ∨
      ∃ d ∈ sm.deployments, u32Max ≤ d.readyReplicas ∨ u32Max ≤ d.version := by
  have hversion : ∀ {id : ℕ} {f : Deployment → Option (Except ErrorCode Deployment)},
      (∀ d, f d = none → u32Max ≤ d.version) →
      (∃ x, sm.updateDeploymentAt id f = some x) ∨
        ∃ d ∈ sm.deployments, u32Max ≤ d.readyReplicas ∨ u32Max ≤ d.version := by
    intro id f hf
    have hrewrite : (∃ x, sm.updateDeploymentAt id f = some x) ∨
        ∃ d ∈ sm.deployments, u32Max ≤ d.version := updateDeploymentAt_returns hf
    obtain hreturns | ⟨d, hd, hworn⟩ := hrewrite
    · exact .inl hreturns
    · exact .inr ⟨d, hd, .inr hworn⟩
  cases cmd with
  | bindPodsToNodes c => exact .inl (handleBindPodsToNodes_returns hasks)
  | updatePodStatus podId newPhase =>
    have hreport : (∃ x, sm.handleUpdatePodStatus podId newPhase = some x) ∨
        ∃ d ∈ sm.deployments, u32Max ≤ d.readyReplicas := handleUpdatePodStatus_returns h
    obtain hreturns | ⟨d, hd, hworn⟩ := hreport
    · exact .inl hreturns
    · exact .inr ⟨d, hd, .inl hworn⟩
  | deleteDeployment id => exact .inl (handleDeleteDeployment_returns h hk)
  | updateDeployment c =>
    refine hversion fun d hd => ?_
    split at hd
    · omega
    · cases hd
  | rollbackDeployment id =>
    refine hversion fun d hd => ?_
    split at hd
    · cases hd
    · split at hd
      · omega
      · cases hd
  | setTrafficSplit c =>
    simp only [apply, handleSetTrafficSplit]
    exact hversion fun d hd => by cases hd
  | pauseDeployment id =>
    simp only [apply, handlePauseDeployment]
    exact hversion fun d hd => by cases hd
  | resumeDeployment id =>
    simp only [apply, handleResumeDeployment]
    exact hversion fun d hd => by cases hd
  | _ => exact .inl ⟨_, rfl⟩

theorem bindings_exact (happly : sm.apply cmd = some (sm₁, .ok id)) (hbinds : cmd.bindings ≠ [])
    {n : Node} (hn : sm.nodes[j]? = some n) : ∃ n₁, sm₁.nodes[j]? = some n₁ ∧
      ∀ r, n₁.allocatable r + sm.asked cmd.bindings j r = n.allocatable r := by
  have hbound : sm.Coverable cmd.bindings ∧ sm.Bound cmd.bindings sm₁ := by
    cases cmd with
    | bindPodToNode podId nodeId =>
      have hnodup : (([⟨podId, nodeId⟩] : List PodBinding).map (·.podId)).Nodup :=
        List.nodup_singleton podId
      apply (binds_iff hnodup).mp
      refine ⟨[.ok id], Replay.run_cons.mpr ⟨sm₁, _, [], happly, rfl, rfl⟩, ?_⟩
      intro r hr
      rw [List.mem_singleton.mp hr]
      rfl
    | bindPodsToNodes c =>
      obtain ⟨hcover, -, hbound⟩ := handleBindPodsToNodes_bound happly
      exact ⟨hcover, hbound⟩
    | _ => exact absurd rfl hbinds
  refine ⟨n.less (sm.asked cmd.bindings j), ?_, fun r => ?_⟩
  · rw [hbound.2.nodes, hn]
    rfl
  · have hroom := hbound.1.room j n hn r
    rw [Node.less_allocatable]
    omega

/-! ### Runs -/

/-- The command is within its types, wastes no pod slot, forgets no bound pod and asks no node for
more than the type of the sum holds. -/
def moderate (sm : StateMachine) (cmd : Command) : Bool :=
  Wire.command.fits cmd && !sm.slips cmd .waste && !sm.slips cmd .forget && !sm.overasks cmd

theorem moderate_iff : moderate sm cmd = true ↔ ((Wire.command.fits cmd = true ∧
    sm.slips cmd .waste = false) ∧ sm.slips cmd .forget = false) ∧ sm.overasks cmd = false := by
  simp only [moderate, Bool.and_eq_true, Bool.not_eq_true']

theorem run_contained {seed : UInt64} {cmds : List Command} {results : List Result}
    (hrun : Replay.run apply (sm.initInPlace seed) cmds = some (sm₁, results))
    (hok : Replay.along apply moderate (sm.initInPlace seed) cmds = true)
    (hfew : maxDraws * cmds.length < 2 ^ 64) : sm₁.Contained ∧ sm₁.Keyed := by
  have hwaste : ∀ sm cmd, moderate sm cmd = true → sm.slips cmd .waste = false :=
    fun sm cmd hok => (moderate_iff.mp hok).1.1.2
  have hstep : ∀ sm cmd sm₁ r, sm.Distinct → sm₁.Distinct → moderate sm cmd = true →
      sm.apply cmd = some (sm₁, r) → sm.Homed ∧ sm.Contained → sm₁.Homed ∧ sm₁.Contained := by
    rintro sm cmd sm₁ r hids hids₁ hok happly ⟨hhomed, hcontained⟩
    obtain ⟨⟨⟨hfits, hwaste⟩, hforget⟩, -⟩ := moderate_iff.mp hok
    exact ⟨apply_homed happly hwaste hids.podRoom hhomed,
      apply_contained happly hcontained hids.keyed hids₁.keyed hhomed hids.podRoom
        (within_of_fits hfits) hwaste hforget⟩
  have hinit : (sm.initInPlace seed).Homed ∧ (sm.initInPlace seed).Contained :=
    ⟨fun _ h => absurd h List.not_mem_nil, fun _ h => absurd h List.not_mem_nil⟩
  obtain ⟨hids, -, hcontained⟩ := run_tables hwaste hstep hinit hrun hok hfew
  exact ⟨hcontained, hids.keyed⟩

theorem run_young {seed : UInt64} {cmds : List Command} {results : List Result}
    (hrun : Replay.run apply (sm.initInPlace seed) cmds = some (sm₁, results))
    (hok : Replay.along apply moderate (sm.initInPlace seed) cmds = true) :
    sm₁.Young cmds.length := by
  have hinit : (sm.initInPlace seed).Young 0 := fun _ h => absurd h List.not_mem_nil
  have hyoung := Replay.run_invariant (I := fun i sm => sm.Young i) (i := 0)
    (fun i sm cmd sm₁ r h _ happly => apply_young happly h) hinit hok hrun
  rwa [Nat.zero_add] at hyoung

/-- Along every run of moderate commands no sum and no difference leaves its type: fewer than
`2 ^ 32` commands all return, a longer run stops only at a counter of a deployment that is at its
end, and a node that is bound to gives exactly what the bindings ask of it. -/
theorem commands_stay_in_range (sm : StateMachine) (seed : UInt64) (cmds : List Command)
    (hok : Replay.along apply moderate (sm.initInPlace seed) cmds = true)
    (hfew : maxDraws * cmds.length < 2 ^ 64) :
    (cmds.length < 2 ^ 32 → ∃ x, Replay.run apply (sm.initInPlace seed) cmds = some x) ∧
    ∀ done cmd rest sm₁ results, cmds = done ++ cmd :: rest →
      Replay.run apply (sm.initInPlace seed) done = some (sm₁, results) →
      ((∃ x, sm₁.apply cmd = some x) ∨
        ∃ d ∈ sm₁.deployments, u32Max ≤ d.readyReplicas ∨ u32Max ≤ d.version) ∧
      ∀ sm₂ id, sm₁.apply cmd = some (sm₂, .ok id) → cmd.bindings ≠ [] →
        ∀ j n, sm₁.nodes[j]? = some n → ∃ n₂, sm₂.nodes[j]? = some n₂ ∧
          ∀ r, n₂.allocatable r + sm₁.asked cmd.bindings j r = n.allocatable r := by
  have hnext : ∀ done cmd rest sm₁ results, cmds = done ++ cmd :: rest →
      Replay.run apply (sm.initInPlace seed) done = some (sm₁, results) →
      (∃ x, sm₁.apply cmd = some x) ∨
        ∃ d ∈ sm₁.deployments, u32Max ≤ d.readyReplicas ∨ u32Max ≤ d.version := by
    intro done cmd rest sm₁ results hcmds hrun
    subst hcmds
    obtain ⟨hdone, hcmd⟩ := Replay.along_at hok hrun
    have hlen : maxDraws * done.length ≤ maxDraws * (done ++ cmd :: rest).length := by
      apply Nat.mul_le_mul_left
      rw [List.length_append]
      exact Nat.le_add_right _ _
    obtain ⟨hcontained, hkeyed⟩ := run_contained hrun hdone (by omega)
    exact apply_returns hcontained hkeyed (moderate_iff.mp hcmd).2
  refine ⟨fun hshort => ?_, fun done cmd rest sm₁ results hcmds hrun =>
    ⟨hnext done cmd rest sm₁ results hcmds hrun, fun sm₂ id happly hbinds j n hn =>
      bindings_exact happly hbinds hn⟩⟩
  -- the commands return one after the other, since no counter has got to its end
  have htake : ∀ n ≤ cmds.length, ∃ x, Replay.run apply (sm.initInPlace seed) (cmds.take n) =
      some x := by
    intro n
    induction n with
    | zero => exact fun _ => ⟨_, rfl⟩
    | succ n ih =>
      intro hn
      obtain ⟨⟨sm₁, results⟩, hrun⟩ := ih (Nat.le_of_succ_le hn)
      have hsplit : cmds = cmds.take n ++ cmds[n] :: cmds.drop (n + 1) := by
        rw [List.getElem_cons_drop, List.take_append_drop]
      have hyoung := run_young hrun (Replay.along_take hok n)
      rw [List.length_take, min_eq_left (Nat.le_of_succ_le hn)] at hyoung
      obtain ⟨⟨sm₂, r⟩, happly⟩ | ⟨d, hd, hworn⟩ := hnext _ _ _ sm₁ results hsplit hrun
      · refine ⟨(sm₂, results ++ [r]), ?_⟩
        rw [List.take_succ_eq_append_getElem hn]
        exact Replay.run_concat hrun happly
      · obtain ⟨hready, hversion⟩ := hyoung d hd
        simp only [u32Max] at hworn
        omega
  obtain ⟨x, hx⟩ := htake cmds.length le_rfl
  rw [List.take_length] at hx
  exact ⟨x, hx⟩

/-- A batch command in full length. -/
def batchOf (bs : List PodBinding) : Command :=
  .bindPodsToNodes
    { count := bs.length, bindings := bs ++ List.replicate (bindBatchMax - bs.length) {} }

/-- A batch asks for more than a node has and fails. After the node has grown the same batch takes all
of it, a pod leaves and comes back, and the node is registered again. -/
theorem commands_stay_in_range_batch :
    let cmds : List Command :=
      [.registerNode { cpuMillicores := 3, gpuCount := 255 },
        .createDeployment { replicas := 2, cpuMillicores := 2, gpuCount := 100 },
        batchOf [⟨nthId 3, nthId 1⟩, ⟨nthId 4, nthId 1⟩],
        .registerNode { cpuMillicores := 4, gpuCount := 255 },
        batchOf [⟨nthId 3, nthId 1⟩, ⟨nthId 4, nthId 1⟩],
        .updatePodStatus (nthId 3) .running, .updatePodStatus (nthId 3) .failed,
        .registerNode { cpuMillicores := 4, gpuCount := 255 }, .bindPodToNode (nthId 5) (nthId 1)]
    Replay.along apply moderate (blank.initInPlace 1) cmds = true ∧
      ∃ x, Replay.run apply (blank.initInPlace 1) cmds = some x := by
  intro cmds
  have hok : Replay.along apply moderate (blank.initInPlace 1) cmds = true := by decide +kernel
  exact ⟨hok, (commands_stay_in_range blank 1 cmds hok (by decide +kernel)).1 (by decide)⟩

/-- Commands within their types that `validateCommand` accepts. Two pods that need 200 gpus each are
in one batch for a node: their sum is not a `u8`. A pod with all of a node's millicores is unbound,
the node is registered again, and the pod is reported to have failed: the node, which already has all
of them again, is given the pod's on top. -/
theorem command_overflows :
    let summed : List Command :=
      [.registerNode { gpuCount := 255 }, .createDeployment { replicas := 2, gpuCount := 200 },
        batchOf [⟨nthId 3, nthId 1⟩, ⟨nthId 4, nthId 1⟩]]
    let refunded : List Command :=
      [.registerNode { cpuMillicores := u32Max }, .createDeployment { cpuMillicores := u32Max },
        .bindPodToNode (nthId 3) (nthId 1), .unbindPod (nthId 3),
        .registerNode { cpuMillicores := u32Max }, .updatePodStatus (nthId 3) .failed]
    (∀ cmd ∈ summed ++ refunded, validateCommand cmd = .ok () ∧ Wire.command.fits cmd = true) ∧
    (Replay.run apply (blank.initInPlace 1) (summed.take 2)).isSome = true ∧
    (Replay.run apply (blank.initInPlace 1) summed).isSome = false ∧
    (Replay.run apply (blank.initInPlace 1) (refunded.take 5)).isSome = true ∧
    (Replay.run apply (blank.initInPlace 1) refunded).isSome = false := by
  refine ⟨?_, by decide +kernel, by decide +kernel, by decide +kernel, by decide +kernel⟩
  intro cmd hcmd
  constructor
  · revert cmd
    simp [validateCommand, batchOf, bindBatchMax]
  · revert cmd
    decide +kernel

end StateMachine

end Hivemind
