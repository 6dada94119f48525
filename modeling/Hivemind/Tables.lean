import Hivemind.Binding
import Hivemind.Ids
import Hivemind.Ticks

/-! What a command can do to the tables: a sequence of changes of single records, with the ids
it draws counted. Invariants of the tables are proved once for each kind of change. -/
namespace Hivemind

namespace StateMachine

/-! ### Changes of single records -/

/-- The ways in which a command leaves the tables odd. -/
inductive Slip where
  /-- A scale-up of a deleted deployment claims a new pod slot and does not fill it. -/
  | waste
  /-- A pod that is bound is reported to be pending. -/
  | reset
  /-- A node is registered again while a pod that is no longer active is bound to it. -/
  | forget
  /-- A pod leaves a node that has less than its pods demand. -/
  | overdraw
  deriving DecidableEq

end StateMachine

/-- The commands that change node records or put pods on nodes and take them off. -/
def Command.moves : Command → Bool
  | .registerNode _ | .deregisterNode _ | .updateNodeStatus _ _ | .bindPodToNode _ _
  | .bindPodsToNodes _ | .updatePodStatus _ _ | .deleteDeployment _ => true
  | _ => false

/-- The commands that only rewrite the record of one deployment. -/
def Command.rewrites : Command → Bool
  | .updateDeployment _ | .setTrafficSplit _ | .rollbackDeployment _ | .pauseDeployment _
  | .resumeDeployment _ => true
  | _ => false

/-- The commands that touch neither pods nor deployments. -/
def Command.outside : Command → Bool
  | .registerNode _ | .deregisterNode _ | .updateNodeStatus _ _ | .setKillswitch _ _ _
  | .noop => true
  | _ => false

/-- The amounts a registration states are within their types. -/
def RegisterNodeCmd.Within (c : RegisterNodeCmd) : Prop :=
  c.cpuMillicores ≤ StateMachine.u32Max ∧ c.memoryMegabytes ≤ StateMachine.u32Max ∧
    c.gpuCount ≤ StateMachine.u8Max

/-- A registration is within its types. -/
def Command.Within (cmd : Command) : Prop := ∀ c, cmd = .registerNode c → c.Within

namespace StateMachine

/-- What the pods bound to a node demand, active or not. -/
def boundTo (sm : StateMachine) (nodeId : ℕ) (r : Resource) : ℕ :=
  ((sm.pods.filter fun p => p.nodeId == nodeId).map (·.demand r)).sum

/-- The pod's node has less than its pods demand, of something this pod gives back. -/
def overdraws (sm : StateMachine) (p : Pod) : Bool :=
  sm.nodes.any fun n => n.id == p.nodeId && decide (∃ r, 0 < p.demand r ∧
    n.capacity r < sm.boundTo n.id r)

def slips (sm : StateMachine) (cmd : Command) : Slip → Bool
  | .waste => sm.wastes cmd
  | .reset =>
    match cmd with
    | .updatePodStatus podId .pending => (sm.findPod podId).any fun p => p.active && p.nodeId != 0
    | _ => false
  | .forget =>
    match cmd with
    | .registerNode c =>
      (sm.findActiveNodeIndexByName c.nodeName).any fun idx => sm.nodes[idx]?.any fun n =>
        sm.pods.any fun p => p.nodeId == n.id && !p.active && decide (∃ r, 0 < p.demand r)
    | _ => false
  | .overdraw =>
    match cmd with
    | .updatePodStatus podId newPhase =>
      (newPhase == .succeeded || newPhase == .failed) && (sm.findPod podId).any sm.overdraws
    | .deleteDeployment id => sm.pods.any fun p => p.deploymentId == id && p.active && sm.overdraws p
    | _ => false

variable {sm sm₁ sm₂ sm₃ : StateMachine} {cmd : Command} {allow : Slip → Prop}

/-- A pod that comes out of a change as an active pending one is unbound, or it kept its node and
was pending before, unless a bound pod is reset. -/
def StaysLoose (allow : Slip → Prop) (p p' : Pod) : Prop :=
  p'.active = true → p'.phase = .pending → p'.nodeId = 0 ∨
    p'.nodeId = p.nodeId ∧ (p.phase = .pending ∨ (p.nodeId ≠ 0 → allow .reset))

/-- The pod keeps its node and its demand. -/
def Stays (p p' : Pod) : Prop := p'.nodeId = p.nodeId ∧ ∀ r, p'.demand r = p.demand r

/-- The pod keeps its node, leaves it, or is on one of the table. -/
def Goes (sm : StateMachine) (p p' : Pod) : Prop :=
  p'.nodeId = p.nodeId ∨ p'.nodeId = 0 ∨ ∃ n ∈ sm.nodes, n.id = p'.nodeId

/-- The record is still that of the same node. -/
def SameNode (n n' : Node) : Prop := n'.id = n.id ∧ n'.name = n.name

/-- One record changes. -/
inductive Edit (cmd : Command) (allow : Slip → Prop) (sm : StateMachine) : StateMachine → Prop where
  | node {j : ℕ} {n n' : Node} (hmoves : cmd.moves = true) (hn : sm.nodes[j]? = some n)
      (hsame : SameNode n n') (hwithin : cmd.Within → n.Within → n'.Within) :
      Edit cmd allow sm { sm with nodes := sm.nodes.set j n' }
  | deployment {j : ℕ} {d d' : Deployment} (hd : sm.deployments[j]? = some d) (hid : d'.id = d.id)
      (hactive : d'.active = d.active) :
      Edit cmd allow sm { sm with deployments := sm.deployments.set j d' }
  | retire {j : ℕ} {d : Deployment} (hd : sm.deployments[j]? = some d)
      (hcmd : cmd = .deleteDeployment d.id) :
      Edit cmd allow sm { sm with deployments := sm.deployments.set j { d with active := false } }
  | pod {i : ℕ} {p p' : Pod} (hp : sm.pods[i]? = some p) (hid : p'.id = p.id)
      (hdep : p'.deploymentId = p.deploymentId) (hactive : p'.active = true → p.active = true)
      (hloose : StaysLoose allow p p') (hstays : cmd.moves = true ∨ Stays p p')
      (hgoes : Goes sm p p') :
      Edit cmd allow sm { sm with pods := sm.pods.set i p' }
  | claim (hwaste : allow .waste) (hroom : sm.pods.length < maxPods) :
      Edit cmd allow sm { sm with pods := sm.pods ++ [sm.podMemory sm.pods.length] }
  | killswitch {ks : List Killswitch} : Edit cmd allow sm { sm with killswitches := ks }

/-- One record is written under a new id. -/
inductive Draw (cmd : Command) (sm : StateMachine) : StateMachine → Prop where
  | node {n : Node} (hmoves : cmd.moves = true) (hid : n.id = sm.generateId.1)
      (hroom : sm.nodes.length < maxNodes) (hwithin : cmd.Within → n.Within) :
      Draw cmd sm { sm.generateId.2 with nodes := sm.nodes ++ [n] }
  | deployment {d : Deployment} (hid : d.id = sm.generateId.1) (hactive : d.active = true)
      (hroom : sm.deployments.length < maxDeployments) :
      Draw cmd sm { sm.generateId.2 with deployments := sm.deployments ++ [d] }
  | redeployment {j : ℕ} {d d' : Deployment} (hd : sm.deployments[j]? = some d)
      (hold : d.active = false) (hid : d'.id = sm.generateId.1) (hactive : d'.active = true) :
      Draw cmd sm { sm.generateId.2 with deployments := sm.deployments.set j d' }
  | pod {i : ℕ} {p p' : Pod} {d : Deployment} (hp : sm.pods[i]? = some p) (hfree : p.active = false)
      (hnode : p.nodeId = 0) (hid : p'.id = sm.generateId.1) (hunbound : p'.nodeId = 0)
      (hfind : sm.findDeployment p'.deploymentId = some d) (hactive : d.active = true) :
      Draw cmd sm { sm.generateId.2 with pods := sm.pods.set i p' }
  | newPod {p : Pod} {d : Deployment} (hroom : sm.pods.length < maxPods)
      (hid : p.id = sm.generateId.1) (hunbound : p.nodeId = 0)
      (hfind : sm.findDeployment p.deploymentId = some d) (hactive : d.active = true) :
      Draw cmd sm { sm.generateId.2 with pods := sm.pods ++ [p] }

/-- A sequence of changes in which `c` ids are drawn. -/
inductive Edits (cmd : Command) (allow : Slip → Prop) (sm : StateMachine) : ℕ → StateMachine → Prop where
  | refl : Edits cmd allow sm 0 sm
  | edit {c : ℕ} {sm₁ sm₂ : StateMachine} (h : Edits cmd allow sm c sm₁)
      (e : Edit cmd allow sm₁ sm₂) : Edits cmd allow sm c sm₂
  | draw {c : ℕ} {sm₁ sm₂ : StateMachine} (h : Edits cmd allow sm c sm₁) (e : Draw cmd sm₁ sm₂) :
      Edits cmd allow sm (c + 1) sm₂

namespace Edits

variable {c c' : ℕ}

theorem single (e : Edit cmd allow sm sm₁) : Edits cmd allow sm 0 sm₁ := .edit .refl e

theorem trans (h : Edits cmd allow sm c sm₁) (h' : Edits cmd allow sm₁ c' sm₂) :
    Edits cmd allow sm (c + c') sm₂ := by
  induction h' with
  | refl => exact h
  | edit _ e ih => exact ih.edit e
  | draw _ e ih => exact ih.draw e

theorem after (h : Edits cmd allow sm 0 sm₁) (h' : Edits cmd allow sm₁ c sm₂) :
    Edits cmd allow sm c sm₂ := by
  have htrans := h.trans h'
  rwa [Nat.zero_add] at htrans

end Edits

theorem setPod_edit {i : ℕ} {p : Pod} {f : Pod → Pod} (hp : sm.pods[i]? = some p)
    (hid : (f p).id = p.id) (hdep : (f p).deploymentId = p.deploymentId)
    (hactive : (f p).active = true → p.active = true) (hloose : StaysLoose allow p (f p))
    (hstays : cmd.moves = true ∨ Stays p (f p)) (hgoes : Goes sm p (f p)) :
    Edit cmd allow sm (sm.setPod i f) := by
  rw [setPod, modify_eq_set f hp]
  exact .pod hp hid hdep hactive hloose hstays hgoes

theorem setDeployment_edits {j : ℕ} {f : Deployment → Deployment} (hid : ∀ d, (f d).id = d.id)
    (hactive : ∀ d, (f d).active = d.active) : Edits cmd allow sm 0 (sm.setDeployment j f) := by
  unfold setDeployment
  cases hd : sm.deployments[j]? with
  | none =>
    rw [modify_of_none f hd]
    exact .refl
  | some d =>
    rw [modify_eq_set f hd]
    exact .single (.deployment hd (hid d) (hactive d))

/-! ### Pods of a deployment -/

/-- The pod slots that are taken. -/
def occupied (sm : StateMachine) : ℕ := sm.pods.countP fun p => p.active || p.nodeId != 0

theorem occupied_le : sm.occupied ≤ sm.pods.length := List.countP_le_length

theorem countP_set {α : Type*} (P : α → Bool) {l : List α} {i : ℕ} {a : α} (a' : α)
    (h : l[i]? = some a) :
    (l.set i a').countP P + (P a).toNat = l.countP P + (P a').toNat := by
  obtain ⟨hlt, rfl⟩ := List.getElem?_eq_some_iff.mp h
  rw [List.countP_set hlt]
  cases ha : P l[i] with
  | false => cases P a' <;> rfl
  | true =>
    have hpos : 0 < l.countP P := List.countP_pos_iff.mpr ⟨_, List.getElem_mem hlt, ha⟩
    cases P a' with
    | false =>
      simp only [if_true, Bool.false_eq_true, if_false, Bool.toNat_true, Bool.toNat_false]
      omega
    | true =>
      simp only [if_true, Bool.toNat_true]
      omega

theorem findInactivePodIndex_some {i : ℕ} (h : sm.findInactivePodIndex = some i) :
    ∃ p, sm.pods[i]? = some p ∧ p.active = false ∧ p.nodeId = 0 := by
  obtain ⟨p, hp, hfree⟩ := getElem?_of_findIdx? h
  simp only [Bool.and_eq_true, Bool.not_eq_true', beq_iff_eq] at hfree
  exact ⟨p, hp, hfree⟩

/-- What appending a pod does. -/
inductive Appends (sm : StateMachine) (id : ℕ) : Bool × StateMachine → Prop where
  | full (hroom : maxPods ≤ sm.pods.length) : Appends sm id (false, sm)
  | refused (hno : ¬ sm.Serves id) : Appends sm id (false, sm)
  | wasted (hno : ¬ sm.Serves id) (hnone : sm.findInactivePodIndex = none)
      (hroom : sm.pods.length < maxPods) :
      Appends sm id (false, { sm with pods := sm.pods ++ [sm.podMemory sm.pods.length] })
  | filled {i ordinal : ℕ} {p : Pod} {d : Deployment} (hp : sm.pods[i]? = some p)
      (hfree : p.active = false) (hnode : p.nodeId = 0) (hfind : sm.findDeployment id = some d)
      (hactive : d.active = true) :
      Appends sm id (true, { sm.generateId.2 with
        pods := sm.pods.set i (podOf id d sm.generateId.1 ordinal) })
  | added {ordinal : ℕ} {d : Deployment} (hroom : sm.pods.length < maxPods)
      (hfind : sm.findDeployment id = some d) (hactive : d.active = true) :
      Appends sm id (true, { sm.generateId.2 with
        pods := sm.pods ++ [podOf id d sm.generateId.1 ordinal] })

theorem appendPodForDeployment_appends (id ordinal : ℕ) :
    Appends sm id (sm.appendPodForDeployment id ordinal) := by
  unfold appendPodForDeployment claimPodSlot
  cases hfree : sm.findInactivePodIndex with
  | some i =>
    obtain ⟨p, hp, hinactive, hnode⟩ := findInactivePodIndex_some hfree
    dsimp only
    cases hfind : sm.findDeployment id with
    | none =>
      apply Appends.refused
      rintro ⟨d, hd, -⟩
      rw [hfind] at hd
      cases hd
    | some d =>
      dsimp only
      cases hactive : d.active with
      | false =>
        apply Appends.refused
        rintro ⟨d', hd', hactive'⟩
        rw [hfind] at hd'
        cases hd'
        rw [hactive] at hactive'
        cases hactive'
      | true => exact .filled hp hinactive hnode hfind hactive
  | none =>
    by_cases hroom : sm.pods.length ≥ maxPods
    · rw [if_pos hroom]
      exact .full hroom
    have hlt : sm.pods.length < maxPods := not_le.mp hroom
    rw [if_neg hroom]
    have hsame : findDeployment { sm with pods := sm.pods ++ [sm.podMemory sm.pods.length] } id =
        sm.findDeployment id := rfl
    dsimp only
    rw [hsame]
    cases hfind : sm.findDeployment id with
    | none =>
      apply Appends.wasted _ hfree hlt
      rintro ⟨d, hd, -⟩
      rw [hfind] at hd
      cases hd
    | some d =>
      dsimp only
      cases hactive : d.active with
      | false =>
        apply Appends.wasted _ hfree hlt
        rintro ⟨d', hd', hactive'⟩
        rw [hfind] at hd'
        cases hd'
        rw [hactive] at hactive'
        cases hactive'
      | true =>
        have hset : (sm.pods ++ [sm.podMemory sm.pods.length]).set sm.pods.length
            (podOf id d sm.generateId.1 ordinal) = sm.pods ++ [podOf id d sm.generateId.1 ordinal] := by
          simp
        have hadded : Appends sm id (true, { sm.generateId.2 with
            pods := (sm.pods ++ [sm.podMemory sm.pods.length]).set sm.pods.length
              (podOf id d sm.generateId.1 ordinal) }) := by
          rw [hset]
          exact .added hlt hfind hactive
        exact hadded

theorem Appends.draws {id : ℕ} {sm' : StateMachine} (h : Appends sm id (true, sm'))
    (hlen : sm.pods.length ≤ maxPods) :
    Draw cmd sm sm' ∧ sm'.occupied = sm.occupied + 1 ∧ sm'.pods.length ≤ maxPods ∧ sm'.Serves id := by
  cases h with
  | @filled _ ordinal _ d hp hfree hnode hfind hactive =>
    refine ⟨.pod hp hfree hnode rfl rfl hfind hactive, ?_, ?_, ⟨_, hfind, hactive⟩⟩
    · have htaken := countP_set (fun p : Pod => p.active || p.nodeId != 0)
        (podOf id d sm.generateId.1 ordinal) hp
      rw [hfree, hnode] at htaken
      exact htaken
    · rwa [List.length_set]
  | added hroom hfind hactive =>
    refine ⟨.newPod hroom rfl rfl hfind hactive, ?_, ?_, ⟨_, hfind, hactive⟩⟩
    · unfold occupied
      rw [List.countP_append]
      rfl
    · rw [List.length_append]
      exact hroom

theorem appendPods_succ (sm : StateMachine) (id ordinal remaining : ℕ) :
    ∃ x : Bool × StateMachine, Appends sm id x ∧ appendPods id ordinal (remaining + 1) sm =
      if x.1 then appendPods id (ordinal + 1) remaining x.2 else x.2 := by
  refine ⟨_, appendPodForDeployment_appends id ordinal, ?_⟩
  rw [appendPods]
  split
  all_goals
    next heq =>
    rw [heq]
    rfl

/-- Pods are appended until the table is full: one draw for each slot that gets taken. -/
theorem appendPods_edits (id ordinal remaining : ℕ) (hlen : sm.pods.length ≤ maxPods)
    (hwaste : 0 < remaining → ¬ sm.Serves id → sm.findInactivePodIndex = none →
      sm.pods.length < maxPods → allow .waste) :
    ∃ c, c + sm.occupied ≤ maxPods ∧ Edits cmd allow sm c (appendPods id ordinal remaining sm) := by
  have hstop : 0 + sm.occupied ≤ maxPods := by
    have hle : sm.occupied ≤ sm.pods.length := occupied_le
    omega
  induction remaining generalizing sm ordinal with
  | zero => exact ⟨0, hstop, .refl⟩
  | succ remaining ih =>
    obtain ⟨⟨filled, sm'⟩, happends, hnext⟩ := appendPods_succ sm id ordinal remaining
    rw [hnext]
    cases filled with
    | true =>
      obtain ⟨hdraw, htaken, hlen', hserves⟩ := happends.draws hlen
      have hstop' : 0 + sm'.occupied ≤ maxPods := by
        have hle : sm'.occupied ≤ sm'.pods.length := occupied_le
        omega
      obtain ⟨c, hc, h⟩ := ih (ordinal + 1) hlen' (fun _ hno => absurd hserves hno) hstop'
      have hone : Edits cmd allow sm 1 sm' := .draw .refl hdraw
      refine ⟨1 + c, ?_, hone.trans h⟩
      omega
    | false =>
      refine ⟨0, hstop, ?_⟩
      cases happends with
      | full => exact .refl
      | refused => exact .refl
      | wasted hno hnone hroom =>
        exact .single (.claim (hwaste (Nat.succ_pos _) hno hnone hroom) hroom)

theorem ensureDeploymentReplicaCount_edits (id : ℕ) (hlen : sm.pods.length ≤ maxPods) :
    ∃ c, c ≤ maxPods ∧ Edits cmd allow sm c (sm.ensureDeploymentReplicaCount id) := by
  unfold ensureDeploymentReplicaCount
  cases hfind : sm.findDeployment id with
  | none => exact ⟨0, Nat.zero_le _, .refl⟩
  | some dep =>
    dsimp only
    split
    · exact ⟨0, Nat.zero_le _, .refl⟩
    · next hgo =>
      have hserves : sm.Serves id := by
        refine ⟨dep, hfind, ?_⟩
        simp only [Bool.or_eq_true, not_or, Bool.not_eq_true', Bool.not_eq_false] at hgo
        exact hgo.1
      obtain ⟨c, hc, h⟩ : ∃ c, c + sm.occupied ≤ maxPods ∧ Edits cmd allow sm c
          (appendPods id (sm.getActivePodCount id) (dep.replicas - sm.getActivePodCount id) sm) :=
        appendPods_edits _ _ _ hlen fun _ hno => absurd hserves hno
      exact ⟨c, by omega, h⟩

/-! ### Pods that leave -/

theorem releasePod_spec {n n' : Node} {p : Pod} (h : releasePod n p = some n') :
    SameNode n n' ∧ n'.Within ∧ n'.capacity = n.capacity ∧
      ∀ r, n'.allocatable r = n.allocatable r + p.demand r := by
  unfold releasePod at h
  dsimp only at h
  have hgpu : (if p.gpuCount > 0 then n.allocatableGpu + p.gpuCount else n.allocatableGpu) =
      n.allocatableGpu + p.gpuCount := by
    split <;> omega
  rw [hgpu] at h
  split at h
  · cases h
  · next hfits =>
    cases h
    simp only [gt_iff_lt, Bool.or_eq_true, decide_eq_true_eq, not_or, not_lt] at hfits
    refine ⟨⟨rfl, rfl⟩, ?_, ?_, ?_⟩
    · intro r
      cases r with
      | cpu => exact hfits.1.2
      | memory => exact hfits.2
      | gpu => exact hfits.1.1
    · funext r
      cases r <;> rfl
    · intro r
      cases r <;> rfl

theorem releaseOnNode_cases {p : Pod} (h : sm.releaseOnNode p = some sm₁) :
    ((p.nodeId = 0 ∨ sm.findNodeIndex p.nodeId = none) ∧ sm₁ = sm) ∨
    ∃ j n n', sm.findNodeIndex p.nodeId = some j ∧ sm.nodes[j]? = some n ∧ n.id = p.nodeId ∧
      releasePod n p = some n' ∧ sm₁ = { sm with nodes := sm.nodes.set j n' } := by
  unfold releaseOnNode at h
  split at h
  · next hzero =>
    cases h
    exact .inl ⟨.inl hzero, rfl⟩
  cases hidx : sm.findNodeIndex p.nodeId with
  | none =>
    rw [hidx] at h
    cases h
    exact .inl ⟨.inr rfl, rfl⟩
  | some j =>
    obtain ⟨n, hn, hid⟩ := getElem?_of_findIdx? hidx
    rw [hidx] at h
    dsimp only at h
    rw [hn] at h
    obtain ⟨n', hn', rfl⟩ := Option.map_eq_some_iff.mp h
    exact .inr ⟨j, n, n', rfl, hn, beq_iff_eq.mp hid, hn', rfl⟩

theorem releaseOnNode_frame {p : Pod} (h : sm.releaseOnNode p = some sm₁) :
    sm₁ = { sm with nodes := sm₁.nodes } := by
  obtain ⟨-, rfl⟩ | ⟨j, n, n', -, -, -, -, rfl⟩ := releaseOnNode_cases h
  · rfl
  · rfl

theorem releaseOnNode_edits {p : Pod} (hmoves : cmd.moves = true)
    (h : sm.releaseOnNode p = some sm₁) :
    Edits cmd allow sm 0 sm₁ := by
  obtain ⟨-, rfl⟩ | ⟨j, n, n', -, hn, -, hrel, rfl⟩ := releaseOnNode_cases h
  · exact .refl
  · exact .single (.node hmoves hn (releasePod_spec hrel).1 fun _ _ => (releasePod_spec hrel).2.1)

theorem staysLoose_of_phase {p p' : Pod} (h : p'.phase ≠ .pending) : StaysLoose allow p p' :=
  fun _ hpending => absurd hpending h

theorem staysLoose_of_inactive {p p' : Pod} (h : p'.active = false) : StaysLoose allow p p' := by
  intro hactive
  rw [h] at hactive
  cases hactive

theorem terminatePod_edits {depIdx i : ℕ} {pod p : Pod} (hp : sm.pods[i]? = some p) :
    Edits cmd allow sm 0 (sm.terminatePod depIdx i pod) := by
  have hready : Edits cmd allow sm 0 (if pod.phase = .running then
      sm.setDeployment depIdx (fun d => { d with readyReplicas := d.readyReplicas - 1 }) else sm) := by
    split
    · exact setDeployment_edits (fun _ => rfl) (fun _ => rfl)
    · exact .refl
  have hp' : (if pod.phase = .running then sm.setDeployment depIdx
      (fun d => { d with readyReplicas := d.readyReplicas - 1 }) else sm).pods[i]? = some p := by
    split <;> exact hp
  apply hready.edit
  apply setPod_edit hp' rfl rfl
  · intro hactive
    cases hactive
  · exact staysLoose_of_inactive rfl
  · exact .inr ⟨rfl, fun r => by cases r <;> rfl⟩
  · exact .inl rfl

theorem terminateExcess_edits (id depIdx : ℕ) (slots : List ℕ) (excess : ℕ) :
    Edits cmd allow sm 0 (terminateExcess id depIdx slots excess sm) := by
  induction slots generalizing sm excess with
  | nil => exact .refl
  | cons i rest ih =>
    cases excess with
    | zero => exact .refl
    | succ excess =>
      unfold terminateExcess
      cases hp : sm.pods[i]? with
      | none => exact ih _
      | some pod =>
        dsimp only
        split
        · exact ih _
        · exact (terminatePod_edits hp).after (ih _)

theorem terminatePod_pods {depIdx i : ℕ} {pod : Pod} :
    (sm.terminatePod depIdx i pod).pods =
      sm.pods.modify i (fun p => { p with phase := .terminating, active := false }) := by
  unfold terminatePod
  split <;> rfl

/-- A pod that left its node with its deployment. -/
def leave (p : Pod) : Pod := { p with phase := .terminating, active := false, nodeId := 0 }

/-- The record of a deployment after a pod of it was counted out, or not. -/
structure CountedOut (d d' : Deployment) : Prop where
  id : d'.id = d.id
  active : d'.active = d.active
  ready : d'.readyReplicas ≤ d.readyReplicas
  version : d'.version = d.version

theorem terminatePod_leave (depIdx : ℕ) {i : ℕ} {p : Pod} (hp : sm.pods[i]? = some p) :
    ∃ f : Deployment → Deployment, (∀ d, CountedOut d (f d)) ∧
      (sm.terminatePod depIdx i p).setPod i (fun p => { p with nodeId := 0 }) =
        { sm with
          deployments := sm.deployments.modify depIdx f
          pods := sm.pods.set i (leave p) } := by
  have hmodify : ((sm.pods.modify i fun p => { p with phase := .terminating, active := false }).modify
      i fun p => { p with nodeId := 0 }) = sm.pods.set i (leave p) := by
    rw [List.modify_modify_eq, modify_eq_set _ hp]
    rfl
  unfold terminatePod setPod
  split
  · refine ⟨fun d => { d with readyReplicas := d.readyReplicas - 1 },
      fun _ => ⟨rfl, rfl, Nat.sub_le _ _, rfl⟩, ?_⟩
    rw [← hmodify]
    rfl
  · refine ⟨fun d => d, fun _ => ⟨rfl, rfl, le_rfl, rfl⟩, ?_⟩
    rw [← hmodify, show (fun d : Deployment => d) = id from rfl, List.modify_id]

theorem deletePods_cons {id depIdx i : ℕ} {rest : List ℕ}
    (h : deletePods id depIdx (i :: rest) sm = some sm₁) :
    (deletePods id depIdx rest sm = some sm₁ ∧
      ∀ p, sm.pods[i]? = some p → p.active = true → p.deploymentId ≠ id) ∨
    ∃ p sm₂ f, sm.pods[i]? = some p ∧ p.deploymentId = id ∧ p.active = true ∧
      sm.releaseOnNode p = some sm₂ ∧ (∀ d, CountedOut d (f d)) ∧
      deletePods id depIdx rest
        { sm₂ with
          deployments := sm₂.deployments.modify depIdx f
          pods := sm.pods.set i (leave p) } = some sm₁ := by
  unfold deletePods at h
  cases hp : sm.pods[i]? with
  | none =>
    rw [hp] at h
    exact .inl ⟨h, fun p hp => by cases hp⟩
  | some p =>
    rw [hp] at h
    dsimp only at h
    split at h
    · next hskip =>
      refine .inl ⟨h, ?_⟩
      rintro p' ⟨⟩ hactive heq
      simp [hactive, heq] at hskip
    · next hskip =>
      simp only [Bool.or_eq_true, bne_iff_ne, ne_eq, Bool.not_eq_true', not_or, not_not,
        Bool.not_eq_false] at hskip
      cases hrel : sm.releaseOnNode p with
      | none =>
        rw [hrel] at h
        cases h
      | some sm₂ =>
        rw [hrel] at h
        dsimp only at h
        have hpods : sm₂.pods = sm.pods := by rw [releaseOnNode_frame hrel]
        have hp₂ : sm₂.pods[i]? = some p := by
          rw [hpods]
          exact hp
        obtain ⟨f, hf, hleave⟩ := terminatePod_leave depIdx hp₂
        rw [hleave, hpods] at h
        exact .inr ⟨p, sm₂, f, rfl, hskip.1, hskip.2, hrel, hf, h⟩

theorem deletePods_edits (id depIdx : ℕ) (slots : List ℕ) (hmoves : cmd.moves = true)
    (h : deletePods id depIdx slots sm = some sm₁) : Edits cmd allow sm 0 sm₁ := by
  induction slots generalizing sm with
  | nil =>
    cases h
    exact .refl
  | cons i rest ih =>
    obtain ⟨hrest, -⟩ | ⟨p, sm₂, f, hp, -, -, hrel, hf, hrest⟩ := deletePods_cons h
    · exact ih hrest
    · have hdeps : Edits cmd allow sm₂ 0 (sm₂.setDeployment depIdx f) :=
        setDeployment_edits (fun d => (hf d).id) (fun d => (hf d).active)
      have hpods : sm₂.pods = sm.pods := by rw [releaseOnNode_frame hrel]
      have hp₂ : (sm₂.setDeployment depIdx f).pods[i]? = some p := by
        rw [setDeployment, hpods]
        exact hp
      refine Edits.after ?_ (ih hrest)
      rw [← hpods]
      refine ((releaseOnNode_edits hmoves hrel).after hdeps).edit
        (.pod hp₂ rfl rfl ?_ (staysLoose_of_inactive rfl) (.inl hmoves) (.inr (.inl rfl)))
      intro hactive
      cases hactive

theorem deletePods_pods {id depIdx : ℕ} {slots : List ℕ}
    (h : deletePods id depIdx slots sm = some sm₁) {i : ℕ} {x' : Pod}
    (hx : sm₁.pods[i]? = some x') (hactive : x'.active = true) :
    sm.pods[i]? = some x' ∧ (i ∈ slots → x'.deploymentId ≠ id) := by
  induction slots generalizing sm with
  | nil =>
    cases h
    exact ⟨hx, fun hmem => absurd hmem List.not_mem_nil⟩
  | cons j rest ih =>
    obtain ⟨hrest, hskip⟩ | ⟨p, sm₂, f, hp, -, -, -, -, hrest⟩ := deletePods_cons h
    · obtain ⟨hbefore, hslots⟩ := ih hrest
      refine ⟨hbefore, fun hmem => ?_⟩
      rcases List.mem_cons.mp hmem with rfl | hmem
      · exact hskip x' hbefore hactive
      · exact hslots hmem
    · obtain ⟨hbefore, hslots⟩ := ih hrest
      have hne : j ≠ i := by
        rintro rfl
        obtain ⟨hlt, -⟩ := List.getElem?_eq_some_iff.mp hp
        have hleft : (sm.pods.set j (leave p))[j]? = some (leave p) := by simp [hlt]
        rw [hleft] at hbefore
        rw [← Option.some.inj hbefore] at hactive
        cases hactive
      refine ⟨?_, fun hmem => ?_⟩
      · rwa [List.getElem?_set_ne hne] at hbefore
      · rcases List.mem_cons.mp hmem with rfl | hmem
        · exact absurd rfl hne
        · exact hslots hmem

/-! ### Handlers -/

theorem setNode_edits {j : ℕ} {f : Node → Node} (hmoves : cmd.moves = true)
    (hsame : ∀ n, SameNode n (f n)) (hwithin : ∀ n, cmd.Within → n.Within → (f n).Within) :
    Edits cmd allow sm 0 { sm with nodes := sm.nodes.modify j f } := by
  cases hn : sm.nodes[j]? with
  | none =>
    rw [modify_of_none f hn]
    exact .refl
  | some n =>
    rw [modify_eq_set f hn]
    exact .single (.node hmoves hn (hsame n) (hwithin n))

theorem foldl_chargePod_same (pods : List Pod) {n₀ n : Node} (h : SameNode n₀ n) :
    SameNode n₀ (pods.foldl chargePod n) := by
  induction pods generalizing n with
  | nil => exact h
  | cons p pods ih =>
    apply ih
    unfold chargePod
    split <;> exact h

theorem chargePod_allocatable (n : Node) (p : Pod) (r : Resource) :
    (chargePod n p).allocatable r ≤ n.allocatable r := by
  unfold chargePod
  split
  · exact le_rfl
  · cases r with
    | cpu => exact Nat.sub_le _ _
    | memory => exact Nat.sub_le _ _
    | gpu =>
      split
      · exact Nat.sub_le _ _
      · exact le_rfl

theorem foldl_chargePod_within (pods : List Pod) {n : Node} (h : n.Within) :
    (pods.foldl chargePod n).Within := by
  induction pods generalizing n with
  | nil => exact h
  | cons p pods ih => exact ih fun r => (chargePod_allocatable n p r).trans (h r)

theorem within_of_within {c : RegisterNodeCmd} (h : c.Within) {n : Node}
    (hn : ∀ r, n.allocatable r = match r with
      | .cpu => c.cpuMillicores
      | .memory => c.memoryMegabytes
      | .gpu => c.gpuCount) : n.Within := by
  intro r
  rw [hn]
  cases r with
  | cpu => exact h.1
  | memory => exact h.2.1
  | gpu => exact h.2.2

theorem handleRegisterNode_edits (hmoves : cmd.moves = true) (c : RegisterNodeCmd)
    (hcmd : cmd.Within → c.Within) :
    ∃ k ≤ 1, Edits cmd allow sm k (sm.handleRegisterNode c).1 := by
  unfold handleRegisterNode
  cases sm.findActiveNodeIndexByName c.nodeName with
  | some idx =>
    refine ⟨0, Nat.zero_le _, ?_⟩
    unfold recomputeNodeAllocatable
    dsimp only
    rw [List.modify_modify_eq]
    apply setNode_edits hmoves
    · exact fun n => foldl_chargePod_same _ ⟨rfl, rfl⟩
    · refine fun n hwithin _ => foldl_chargePod_within _ (within_of_within (hcmd hwithin) ?_)
      intro r
      cases r <;> rfl
  | none =>
    dsimp only
    split
    · exact ⟨0, Nat.zero_le _, .refl⟩
    · next hroom =>
      refine ⟨1, le_rfl, .draw .refl (.node hmoves rfl (not_le.mp hroom) ?_)⟩
      refine fun hwithin => within_of_within (hcmd hwithin) ?_
      intro r
      cases r <;> rfl

theorem handleDeregisterNode_edits (hmoves : cmd.moves = true) (nodeId : ℕ) :
    Edits cmd allow sm 0 (sm.handleDeregisterNode nodeId).1 := by
  unfold handleDeregisterNode
  cases sm.findNodeIndex nodeId with
  | none => exact .refl
  | some idx => exact setNode_edits hmoves (fun _ => ⟨rfl, rfl⟩) fun _ _ hn => hn

theorem handleUpdateNodeStatus_edits (hmoves : cmd.moves = true) (nodeId : ℕ) (newStatus : NodeStatus) :
    Edits cmd allow sm 0 (sm.handleUpdateNodeStatus nodeId newStatus).1 := by
  unfold handleUpdateNodeStatus
  cases sm.findNodeIndex nodeId with
  | none => exact .refl
  | some idx =>
    dsimp only
    cases hn : sm.nodes[idx]? with
    | none => exact .refl
    | some n =>
      dsimp only
      split
      · exact .refl
      · exact .single (.node hmoves hn ⟨rfl, rfl⟩ fun _ hn => hn)

/-- A deployment gets its slot, and then its pods. -/
theorem created_edits {id : ℕ} (replicas : ℕ) (hdraw : Draw cmd sm sm₁)
    (hlen : sm₁.pods.length ≤ maxPods) (hserves : sm₁.Serves id) :
    ∃ k ≤ maxPods + 1, Edits cmd allow sm k (appendPods id 0 replicas sm₁) := by
  obtain ⟨k, hk, h⟩ : ∃ k, k + sm₁.occupied ≤ maxPods ∧
      Edits cmd allow sm₁ k (appendPods id 0 replicas sm₁) :=
    appendPods_edits id 0 replicas hlen fun _ hno => absurd hserves hno
  have hone : Edits cmd allow sm 1 sm₁ := .draw .refl hdraw
  exact ⟨1 + k, by omega, hone.trans h⟩

theorem handleCreateDeployment_edits (c : CreateDeploymentCmd) (hlen : sm.pods.length ≤ maxPods) :
    ∃ k ≤ maxPods + 1, Edits cmd allow sm k (sm.handleCreateDeployment c).1 := by
  unfold handleCreateDeployment
  cases hidx : sm.findInactiveDeploymentIndex with
  | some idx =>
    obtain ⟨d, hd, hinactive⟩ := getElem?_of_findIdx? hidx
    have hold : d.active = false := by simpa using hinactive
    exact created_edits c.replicas (.redeployment hd hold rfl rfl) hlen
      (serves_set sm.generateId.2 hidx rfl)
  | none =>
    dsimp only
    split
    · exact ⟨0, Nat.zero_le _, .refl⟩
    · next hfull =>
      exact created_edits c.replicas (.deployment rfl rfl (not_le.mp hfull)) hlen
        (serves_append sm.generateId.2 hidx rfl)

theorem handleBindPodToNode_edits (hmoves : cmd.moves = true) (podId nodeId : ℕ) :
    Edits cmd allow sm 0 (sm.handleBindPodToNode podId nodeId).1 := by
  obtain ⟨code, herr⟩ | ⟨i, p, j, n, -, hp, -, hn, hid, -, -, -, hok⟩ :=
    handleBindPodToNode_cases sm podId nodeId
  · rw [herr]
    exact .refl
  · rw [hok]
    have hpod : Edits cmd allow sm 0 { sm with pods := sm.pods.set i (p.on nodeId) } := by
      refine .single (.pod hp rfl rfl (fun h => h) (staysLoose_of_phase PodPhase.noConfusion)
        (.inl hmoves) ?_)
      exact .inr (.inr ⟨n, List.mem_of_getElem? hn, hid⟩)
    exact hpod.edit (.node hmoves hn ⟨rfl, rfl⟩ fun _ hn => hn.less p.demand)

theorem takeDemands_edits (hmoves : cmd.moves = true) (demands : List BatchNodeDemand) :
    Edits cmd allow sm 0 (demands.foldl takeDemand sm) := by
  induction demands generalizing sm with
  | nil => exact .refl
  | cons d demands ih =>
    have hone : Edits cmd allow sm 0 (sm.takeDemand d) :=
      setNode_edits hmoves (fun _ => ⟨rfl, rfl⟩) fun _ _ hn => hn.less d.amount
    exact hone.after ih

theorem bindAll_edits (hmoves : cmd.moves = true) {bindings : List PodBinding}
    (hnodes : ∀ b ∈ bindings, ∃ n ∈ sm.nodes, n.id = b.nodeId) :
    Edits cmd allow sm 0 (bindings.foldl bindOne sm) := by
  induction bindings generalizing sm with
  | nil => exact .refl
  | cons b bindings ih =>
    have hone : Edits cmd allow sm 0 (sm.bindOne b) := by
      cases hidx : sm.findPodIndex b.podId with
      | none =>
        rw [bindOne, hidx]
        exact .refl
      | some i =>
        obtain ⟨p, hp, -⟩ := getElem?_of_findIdx? hidx
        rw [bindOne_some hidx hp]
        exact .single (.pod hp rfl rfl (fun h => h) (staysLoose_of_phase PodPhase.noConfusion)
          (.inl hmoves) (.inr (.inr (hnodes b List.mem_cons_self))))
    refine hone.after (ih ?_)
    intro b' hb'
    have hframe : (sm.bindOne b).nodes = sm.nodes := by
      unfold bindOne
      cases sm.findPodIndex b.podId <;> rfl
    rw [hframe]
    exact hnodes b' (List.mem_cons_of_mem _ hb')

theorem handleBindPodsToNodes_edits {c : BindPodsToNodesCmd} {r : Result}
    (hmoves : cmd.moves = true) (h : sm.handleBindPodsToNodes c = some (sm₁, r)) :
    Edits cmd allow sm 0 sm₁ := by
  obtain ⟨rfl, -⟩ | ⟨ds, hcollect, -, -, rfl⟩ := handleBindPodsToNodes_cases h
  · exact .refl
  · obtain ⟨heach, -⟩ := collectDemands_spec hcollect
    refine (takeDemands_edits hmoves ds).after (bindAll_edits hmoves ?_)
    intro b hb
    obtain ⟨pod, j, node, hb⟩ := heach b hb
    refine ⟨node.less (total ds j), ?_, hb.node_id⟩
    apply List.mem_of_getElem?
    rw [takeDemands_nodes, hb.node_at]
    rfl

theorem countReadyAt_cases {depId : ℕ} {oldPhase newPhase : PodPhase}
    (h : sm.countReadyAt depId oldPhase newPhase = some sm₁) :
    ∃ j f, (∀ d, (f d).id = d.id ∧ (f d).active = d.active) ∧ sm₁ = sm.setDeployment j f := by
  unfold countReadyAt at h
  split at h
  · obtain ⟨d, -, rfl⟩ := Option.map_eq_some_iff.mp h
    exact ⟨_, fun d' => { d' with readyReplicas := d.readyReplicas }, fun _ => ⟨rfl, rfl⟩, rfl⟩
  · cases h
    refine ⟨0, id, fun _ => ⟨rfl, rfl⟩, ?_⟩
    rw [setDeployment, List.modify_id]

/-- A pod whose work is over. -/
def ended (newPhase : PodPhase) (p : Pod) : Pod :=
  { p with phase := newPhase, nodeId := 0, active := false }

/-- What a status report does: it is about no pod; the pod leaves its node and may be replaced; or
only its phase changes. The deployment's count of ready pods comes first. -/
theorem handleUpdatePodStatus_cases {podId : ℕ} {newPhase : PodPhase} {r : Result}
    (h : sm.handleUpdatePodStatus podId newPhase = some (sm₁, r)) :
    sm₁ = sm ∨
    ∃ i p j f, sm.findPod podId = some p ∧ sm.pods[i]? = some p ∧
      (∀ d, (f d).id = d.id ∧ (f d).active = d.active) ∧
      sm.countReadyAt p.deploymentId p.phase newPhase = some (sm.setDeployment j f) ∧
      (((newPhase = .succeeded ∨ newPhase = .failed) ∧ ∃ sm₂,
        (sm.setDeployment j f).releaseOnNode p = some sm₂ ∧
        (sm₁ = { sm₂ with pods := sm.pods.set i (ended newPhase p) } ∨
          sm₁ = { sm₂ with pods := sm.pods.set i (ended newPhase p)
            }.ensureDeploymentReplicaCount p.deploymentId)) ∨
      sm₁ = { sm.setDeployment j f with pods := sm.pods.set i { p with phase := newPhase } }) := by
  unfold handleUpdatePodStatus at h
  cases hidx : sm.findPodIndex podId with
  | none =>
    rw [hidx] at h
    cases h
    exact .inl rfl
  | some i =>
    obtain ⟨p, hp, -⟩ := getElem?_of_findIdx? hidx
    have hfound : sm.pods[i]? = sm.findPod podId := find?_of_findIdx? hidx
    rw [hidx, ← hfound, hp] at h
    dsimp only at h
    cases hready : sm.countReadyAt p.deploymentId p.phase newPhase with
    | none =>
      rw [hready] at h
      cases h
    | some sm₂ =>
      rw [hready] at h
      dsimp only at h
      obtain ⟨j, f, hf, rfl⟩ := countReadyAt_cases hready
      refine .inr ⟨i, p, j, f, hfound ▸ hp, hp, hf, hready, ?_⟩
      split at h
      · next hends =>
        cases hrel : (sm.setDeployment j f).releaseOnNode p with
        | none =>
          rw [hrel] at h
          cases h
        | some sm₃ =>
          rw [hrel] at h
          dsimp only at h
          have hpods : sm₃.pods = sm.pods := by
            rw [releaseOnNode_frame hrel]
            rfl
          rw [setPod, hpods, modify_eq_set _ hp] at h
          refine .inl ⟨hends, sm₃, rfl, ?_⟩
          split at h
          · cases h
            exact .inr rfl
          · cases h
            exact .inl rfl
      · cases h
        right
        rw [setPod, setDeployment]
        rw [modify_eq_set _ hp]

theorem handleUpdatePodStatus_edits {podId : ℕ} {newPhase : PodPhase} {r : Result}
    (hmoves : cmd.moves = true)
    (h : sm.handleUpdatePodStatus podId newPhase = some (sm₁, r))
    (hreset : sm.slips (.updatePodStatus podId newPhase) .reset = true → allow .reset)
    (hlen : sm.pods.length ≤ maxPods) :
    ∃ k ≤ maxPods, Edits cmd allow sm k sm₁ := by
  obtain rfl | ⟨i, p, j, f, hfind, hp, hf, -, ⟨-, sm₂, hrel, hsm₁⟩ | rfl⟩ :=
    handleUpdatePodStatus_cases h
  · exact ⟨0, Nat.zero_le _, .refl⟩
  · have hready : Edits cmd allow sm 0 (sm.setDeployment j f) :=
      setDeployment_edits (fun d => (hf d).1) (fun d => (hf d).2)
    have hpods : sm₂.pods = sm.pods := by
      rw [releaseOnNode_frame hrel]
      rfl
    have hp₂ : sm₂.pods[i]? = some p := by
      rw [hpods]
      exact hp
    have hleft : Edits cmd allow sm 0 { sm₂ with pods := sm.pods.set i (ended newPhase p) } := by
      rw [← hpods]
      refine (hready.after (releaseOnNode_edits hmoves hrel)).edit
        (.pod hp₂ rfl rfl ?_ (staysLoose_of_inactive rfl) (.inl hmoves) (.inr (.inl rfl)))
      intro hactive
      cases hactive
    obtain rfl | rfl := hsm₁
    · exact ⟨0, Nat.zero_le _, hleft⟩
    · have hlen₂ : (sm.pods.set i (ended newPhase p)).length ≤ maxPods := by
        rwa [List.length_set]
      obtain ⟨k, hk, hensure⟩ : ∃ k, k ≤ maxPods ∧
          Edits cmd allow { sm₂ with pods := sm.pods.set i (ended newPhase p) } k
            ({ sm₂ with pods := sm.pods.set i (ended newPhase p)
              }.ensureDeploymentReplicaCount p.deploymentId) :=
        ensureDeploymentReplicaCount_edits _ hlen₂
      exact ⟨k, hk, hleft.after hensure⟩
  · have hready : Edits cmd allow sm 0 (sm.setDeployment j f) :=
      setDeployment_edits (fun d => (hf d).1) (fun d => (hf d).2)
    refine ⟨0, Nat.zero_le _, hready.edit (.pod hp rfl rfl (fun h => h) ?_ (.inl hmoves) (.inl rfl))⟩
    -- a report of any other phase leaves no pending pod behind
    intro hactive hpending
    refine .inr ⟨rfl, .inr fun hbound => hreset ?_⟩
    have hphase : newPhase = .pending := hpending
    have hactive' : p.active = true := hactive
    simp [slips, hphase, hfind, hactive', hbound]

theorem scale_wastes {id desired j : ℕ} {dep : Deployment} (hfind : sm.findDeployment id = some dep)
    (hup : desired > dep.replicas)
    (hno : ¬ (sm.setDeployment j fun d => { d with replicas := desired }).Serves id)
    (hnone : sm.findInactivePodIndex = none) (hroom : sm.pods.length < maxPods) :
    sm.slips (.scaleDeployment id desired) .waste = true := by
  have hinactive : dep.active = false := by
    by_contra hactive
    apply hno
    have hserves : sm.Serves id := ⟨dep, hfind, by simpa using hactive⟩
    apply hserves.setDeployment
    · exact fun _ => rfl
    · exact fun _ => rfl
  simp [slips, wastes, hfind, hinactive, hup, hnone, hroom]

theorem handleScaleDeployment_edits {id desired : ℕ} (hlen : sm.pods.length ≤ maxPods)
    (hwaste : sm.slips (.scaleDeployment id desired) .waste = true → allow .waste) :
    ∃ k ≤ maxPods, Edits cmd allow sm k (sm.handleScaleDeployment id desired).1 := by
  unfold handleScaleDeployment
  cases hidx : sm.findDeploymentIndex id with
  | none => exact ⟨0, Nat.zero_le _, .refl⟩
  | some j =>
    cases hfind : sm.findDeployment id with
    | none => exact ⟨0, Nat.zero_le _, .refl⟩
    | some dep =>
      dsimp only
      have hset : Edits cmd allow sm 0
          (sm.setDeployment j fun d => { d with replicas := desired }) :=
        setDeployment_edits (fun _ => rfl) (fun _ => rfl)
      split
      · next hup =>
        obtain ⟨k, hk, h⟩ : ∃ k, k + occupied (sm.setDeployment j
              fun d => { d with replicas := desired }) ≤ maxPods ∧
            Edits cmd allow (sm.setDeployment j fun d => { d with replicas := desired }) k
              (appendPods id dep.replicas (desired - dep.replicas)
                (sm.setDeployment j fun d => { d with replicas := desired })) := by
          exact appendPods_edits _ _ _ hlen fun _ hno hnone hroom =>
            hwaste (scale_wastes hfind hup hno hnone hroom)
        exact ⟨k, by omega, hset.after h⟩
      · exact ⟨0, Nat.zero_le _, hset.after (terminateExcess_edits _ _ _ _)⟩

theorem handleUnbindPod_edits (podId : ℕ) : Edits cmd allow sm 0 (sm.handleUnbindPod podId).1 := by
  unfold handleUnbindPod
  cases hidx : sm.findPodIndex podId with
  | none => exact .refl
  | some i =>
    obtain ⟨p, hp, -⟩ := getElem?_of_findIdx? hidx
    cases sm.findPod podId with
    | none => exact .refl
    | some pod =>
      dsimp only
      cases sm.findDeploymentIndex pod.deploymentId with
      | some depIdx => exact terminatePod_edits hp
      | none =>
        refine .single (setPod_edit hp rfl rfl ?_ ?_ ?_ ?_)
        · intro hactive
          cases hactive
        · exact staysLoose_of_inactive rfl
        · exact .inr ⟨rfl, fun r => by cases r <;> rfl⟩
        · exact .inl rfl

theorem updateDeploymentAt_cases {id : ℕ} {f : Deployment → Option (Except ErrorCode Deployment)}
    {r : Result} (h : sm.updateDeploymentAt id f = some (sm₁, r)) :
    sm₁ = sm ∨ ∃ j d d', sm.deployments[j]? = some d ∧ f d = some (.ok d') ∧
      sm₁ = { sm with deployments := sm.deployments.set j d' } := by
  unfold updateDeploymentAt at h
  cases hidx : sm.findDeploymentIndex id with
  | none =>
    rw [hidx] at h
    cases h
    exact .inl rfl
  | some j =>
    have hfound : sm.deployments[j]? = sm.findDeployment id := find?_of_findIdx? hidx
    rw [hidx] at h
    cases hdep : sm.findDeployment id with
    | none =>
      rw [hdep] at h
      cases h
      exact .inl rfl
    | some dep =>
      rw [hdep] at h hfound
      dsimp only at h
      cases hfd : f dep with
      | none =>
        rw [hfd] at h
        cases h
      | some x =>
        rw [hfd] at h
        cases x with
        | error code =>
          cases h
          exact .inl rfl
        | ok dep' =>
          cases h
          exact .inr ⟨j, dep, dep', hfound, hfd, rfl⟩

/-- The record is still that of the same deployment, with its count of ready pods. -/
structure Rewritten (d d' : Deployment) : Prop where
  id : d'.id = d.id
  active : d'.active = d.active
  ready : d'.readyReplicas = d.readyReplicas
  version : d'.version ≤ d.version + 1

theorem apply_rewrites {r : Result} (hcmd : cmd.rewrites = true)
    (h : sm.apply cmd = some (sm₁, r)) :
    sm₁ = sm ∨ ∃ j d d', sm.deployments[j]? = some d ∧ Rewritten d d' ∧
      sm₁ = { sm with deployments := sm.deployments.set j d' } := by
  have hat : ∀ {id : ℕ} {f : Deployment → Option (Except ErrorCode Deployment)},
      sm.updateDeploymentAt id f = some (sm₁, r) →
      (∀ d d', f d = some (.ok d') → Rewritten d d') →
      sm₁ = sm ∨ ∃ j d d', sm.deployments[j]? = some d ∧ Rewritten d d' ∧
        sm₁ = { sm with deployments := sm.deployments.set j d' } := by
    intro id f h hf
    obtain hsame | ⟨j, d, d', hd, hfd, hset⟩ := updateDeploymentAt_cases h
    · exact .inl hsame
    · exact .inr ⟨j, d, d', hd, hf d d' hfd, hset⟩
  cases cmd with
  | updateDeployment c =>
    refine hat h fun d d' hd => ?_
    split at hd
    · cases hd
    · cases hd
      exact ⟨rfl, rfl, rfl, le_rfl⟩
  | setTrafficSplit c =>
    simp only [apply, handleSetTrafficSplit] at h
    refine hat h fun d d' hd => ?_
    cases hd
    exact ⟨rfl, rfl, rfl, Nat.le_succ _⟩
  | rollbackDeployment id =>
    refine hat h fun d d' hd => ?_
    split at hd
    · cases hd
    · split at hd
      · cases hd
      · cases hd
        exact ⟨rfl, rfl, rfl, le_rfl⟩
  | pauseDeployment id =>
    simp only [apply, handlePauseDeployment] at h
    refine hat h fun d d' hd => ?_
    cases hd
    exact ⟨rfl, rfl, rfl, Nat.le_succ _⟩
  | resumeDeployment id =>
    simp only [apply, handleResumeDeployment] at h
    refine hat h fun d d' hd => ?_
    cases hd
    exact ⟨rfl, rfl, rfl, Nat.le_succ _⟩
  | _ => cases hcmd

theorem handleDeleteDeployment_cases {id : ℕ} {r : Result}
    (h : sm.handleDeleteDeployment id = some (sm₁, r)) :
    (sm₁ = sm ∧ r = .err .notFound) ∨ ∃ j, sm.findDeploymentIndex id = some j ∧ r = .ok id ∧
      deletePods id j (List.range sm.pods.length)
        (sm.setDeployment j fun d => { d with active := false }) = some sm₁ := by
  unfold handleDeleteDeployment at h
  cases hidx : sm.findDeploymentIndex id with
  | none =>
    rw [hidx] at h
    cases h
    exact .inl ⟨rfl, rfl⟩
  | some j =>
    rw [hidx] at h
    obtain ⟨sm₂, hloop, heq⟩ := Option.map_eq_some_iff.mp h
    cases heq
    exact .inr ⟨j, rfl, rfl, hloop⟩

theorem handleDeleteDeployment_edits {id : ℕ} {r : Result}
    (h : sm.handleDeleteDeployment id = some (sm₁, r)) (hcmd : cmd = .deleteDeployment id) :
    Edits cmd allow sm 0 sm₁ := by
  obtain ⟨rfl, -⟩ | ⟨j, hidx, -, hdelete⟩ := handleDeleteDeployment_cases h
  · exact .refl
  obtain ⟨d, hd, hid⟩ := getElem?_of_findIdx? hidx
  have hretire : Edits cmd allow sm 0 (sm.setDeployment j fun d => { d with active := false }) := by
    unfold setDeployment
    rw [modify_eq_set _ hd]
    refine .single (.retire hd ?_)
    rw [hcmd, beq_iff_eq.mp hid]
  have hmoves : cmd.moves = true := by rw [hcmd]; rfl
  exact hretire.after (deletePods_edits _ _ _ hmoves hdelete)

theorem handleSetKillswitch_edits (nodeId deploymentId : ℕ) (active : Bool) :
    Edits cmd allow sm 0 (sm.handleSetKillswitch nodeId deploymentId active).1 := by
  unfold handleSetKillswitch
  split
  · exact .single .killswitch
  · split_ifs
    · exact .refl
    · exact .refl
    · exact .single .killswitch

theorem next_eq {x : StateMachine × Result} {r : Result} (h : some x = some (sm₁, r)) :
    x.1 = sm₁ := by
  cases h
  rfl

theorem apply_outside {r : Result} (hcmd : cmd.outside = true)
    (h : sm.apply cmd = some (sm₁, r)) :
    sm₁.pods = sm.pods ∧ sm₁.deployments = sm.deployments := by
  cases cmd with
  | registerNode c =>
    rw [← next_eq h]
    unfold handleRegisterNode
    split
    · exact ⟨rfl, rfl⟩
    · split <;> exact ⟨rfl, rfl⟩
  | deregisterNode nodeId =>
    rw [← next_eq h]
    unfold handleDeregisterNode
    split <;> exact ⟨rfl, rfl⟩
  | updateNodeStatus nodeId newStatus =>
    rw [← next_eq h]
    unfold handleUpdateNodeStatus
    split
    · exact ⟨rfl, rfl⟩
    · split
      · exact ⟨rfl, rfl⟩
      · split <;> exact ⟨rfl, rfl⟩
  | setKillswitch nodeId deploymentId active =>
    rw [← next_eq h]
    unfold handleSetKillswitch
    split
    · exact ⟨rfl, rfl⟩
    · split_ifs <;> exact ⟨rfl, rfl⟩
  | noop =>
    cases h
    exact ⟨rfl, rfl⟩
  | _ => cases hcmd

/-- Every command is a sequence of changes of single records, and draws few ids. -/
theorem apply_edits {r : Result} (h : sm.apply cmd = some (sm₁, r))
    (hlen : sm.pods.length ≤ maxPods) :
    ∃ k ≤ maxPods + 1, Edits cmd (fun slip => sm.slips cmd slip = true) sm k sm₁ := by
  have hnone : ∀ {sm₁ : StateMachine}, Edits cmd (fun slip => sm.slips cmd slip = true) sm 0 sm₁ →
      ∃ k ≤ maxPods + 1, Edits cmd (fun slip => sm.slips cmd slip = true) sm k sm₁ :=
    fun h => ⟨0, Nat.zero_le _, h⟩
  by_cases hrewrites : cmd.rewrites = true
  · obtain rfl | ⟨j, d, d', hd, hd', rfl⟩ := apply_rewrites hrewrites h
    · exact hnone .refl
    · exact hnone (.single (.deployment hd hd'.id hd'.active))
  cases cmd with
  | registerNode c =>
    rw [← next_eq h]
    obtain ⟨k, hk, hedits⟩ : ∃ k ≤ 1, Edits (.registerNode c) (fun slip =>
        sm.slips (.registerNode c) slip = true) sm k (sm.handleRegisterNode c).1 :=
      handleRegisterNode_edits rfl c fun hwithin => hwithin c rfl
    exact ⟨k, by omega, hedits⟩
  | deregisterNode nodeId =>
    rw [← next_eq h]
    exact hnone (handleDeregisterNode_edits rfl nodeId)
  | updateNodeStatus nodeId newStatus =>
    rw [← next_eq h]
    exact hnone (handleUpdateNodeStatus_edits rfl nodeId newStatus)
  | createDeployment c =>
    rw [← next_eq h]
    exact handleCreateDeployment_edits c hlen
  | bindPodToNode podId nodeId =>
    rw [← next_eq h]
    exact hnone (handleBindPodToNode_edits rfl podId nodeId)
  | updatePodStatus podId newPhase =>
    obtain ⟨k, hk, hedits⟩ : ∃ k ≤ maxPods, Edits (.updatePodStatus podId newPhase) (fun slip =>
        sm.slips (.updatePodStatus podId newPhase) slip = true) sm k sm₁ :=
      handleUpdatePodStatus_edits rfl h (fun hr => hr) hlen
    exact ⟨k, by omega, hedits⟩
  | scaleDeployment id desired =>
    rw [← next_eq h]
    obtain ⟨k, hk, hedits⟩ : ∃ k ≤ maxPods, Edits (.scaleDeployment id desired) (fun slip =>
        sm.slips (.scaleDeployment id desired) slip = true) sm k
        (sm.handleScaleDeployment id desired).1 := handleScaleDeployment_edits hlen fun hw => hw
    exact ⟨k, by omega, hedits⟩
  | unbindPod podId =>
    rw [← next_eq h]
    exact hnone (handleUnbindPod_edits podId)
  | setKillswitch nodeId deploymentId active =>
    rw [← next_eq h]
    exact hnone (handleSetKillswitch_edits nodeId deploymentId active)
  | noop =>
    cases h
    exact hnone .refl
  | deleteDeployment id => exact hnone (handleDeleteDeployment_edits h rfl)
  | bindPodsToNodes c => exact hnone (handleBindPodsToNodes_edits rfl h)
  | _ => exact absurd rfl hrewrites

end StateMachine

end Hivemind
