import Hivemind.Replay
import Hivemind.Tables

/-! What holds of the tables along every run of commands: ids are drawn from the generator and
distinct in each table, active pods belong to active deployments, and pods that wait for a node
have none. -/
namespace Hivemind

/-- The id is among the first `k` values the generator gives. -/
def Prng.Drawn (p : Prng) (k id : ℕ) : Prop := ∃ i, 0 < i ∧ i ≤ k ∧ id = (p.after i).state.toNat

namespace Prng

variable {p : Prng} {k id : ℕ}

theorem Drawn.mono {k' : ℕ} (h : p.Drawn k id) (hk : k ≤ k') : p.Drawn k' id := by
  obtain ⟨i, hpos, hi, hid⟩ := h
  exact ⟨i, hpos, hi.trans hk, hid⟩

theorem Drawn.ne_zero (h : p.Drawn k id) (hp : p.state ≠ 0) : id ≠ 0 := by
  obtain ⟨i, -, -, rfl⟩ := h
  intro hzero
  apply after_state_ne hp i
  apply UInt64.toNat_inj.mp
  rw [hzero]
  rfl

theorem drawn_succ : p.Drawn (k + 1) (p.after (k + 1)).state.toNat :=
  ⟨k + 1, Nat.succ_pos k, le_rfl, rfl⟩

theorem Drawn.fresh (h : p.Drawn k id) (hp : p.state ≠ 0) (hk : k < period) :
    (p.after (k + 1)).state.toNat ≠ id := by
  obtain ⟨i, hpos, hi, rfl⟩ := h
  intro heq
  have hlt : i < k + 1 := by omega
  have hround : k + 1 < i + period := by omega
  exact after_state_inj hp hlt hround (UInt64.toNat_inj.mp heq).symm

end Prng

namespace StateMachine

variable {p : Prng} {k c : ℕ} {sm sm₁ sm₂ : StateMachine} {cmd : Command} {allow : Slip → Prop}
  {r : Result}

/-! ### Ids -/

/-- The ids of a table: all drawn, no two alike. -/
structure Listed (p : Prng) (k : ℕ) (ids : List ℕ) : Prop where
  drawn : ∀ id ∈ ids, p.Drawn k id
  nodup : ids.Nodup

namespace Listed

variable {ids : List ℕ}

theorem later (h : Listed p k ids) : Listed p (k + 1) ids :=
  ⟨fun id hid => (h.drawn id hid).mono (Nat.le_succ k), h.nodup⟩

theorem fresh (h : Listed p k ids) (hp : p.state ≠ 0) (hk : k < Prng.period) :
    (p.after (k + 1)).state.toNat ∉ ids := by
  intro hmem
  exact (h.drawn _ hmem).fresh hp hk rfl

theorem append (h : Listed p k ids) (hp : p.state ≠ 0) (hk : k < Prng.period) :
    Listed p (k + 1) (ids ++ [(p.after (k + 1)).state.toNat]) := by
  constructor
  · intro id hid
    rcases List.mem_append.mp hid with hid | hid
    · exact h.later.drawn id hid
    · rw [List.mem_singleton.mp hid]
      exact Prng.drawn_succ
  · rw [← List.concat_eq_append]
    exact h.nodup.concat (h.fresh hp hk)

theorem set (h : Listed p k ids) (hp : p.state ≠ 0) (hk : k < Prng.period) (j : ℕ) :
    Listed p (k + 1) (ids.set j (p.after (k + 1)).state.toNat) := by
  constructor
  · intro id hid
    rcases List.mem_or_eq_of_mem_set hid with hid | rfl
    · exact h.later.drawn id hid
    · exact Prng.drawn_succ
  · apply h.nodup.set
    exact h.fresh hp hk

end Listed

/-- The ids of the three tables after `k` draws. -/
structure Named (p : Prng) (k : ℕ) (sm : StateMachine) : Prop where
  prng : sm.prng = p.after k
  nodes : Listed p k (sm.nodes.map (·.id))
  deployments : Listed p k (sm.deployments.map (·.id))
  pods : Listed p k (sm.pods.map (·.id))
  nodeRoom : sm.nodes.length ≤ maxNodes
  podRoom : sm.pods.length ≤ maxPods

theorem Edit.named (e : Edit cmd allow sm sm₁) (hno : ¬ allow .waste) (h : Named p k sm) :
    Named p k sm₁ := by
  cases e with
  | node _ hn hsame _ =>
    refine { h with nodes := ?_, nodeRoom := ?_ }
    · rw [map_set_of_eq hn hsame.1]
      exact h.nodes
    · simpa using h.nodeRoom
  | deployment hd hid _ =>
    refine { h with deployments := ?_ }
    rw [map_set_of_eq hd hid]
    exact h.deployments
  | retire hd _ =>
    refine { h with deployments := ?_ }
    rw [map_set_of_eq hd]
    · exact h.deployments
    · rfl
  | pod hp hid _ _ _ _ _ =>
    refine { h with pods := ?_, podRoom := ?_ }
    · rw [map_set_of_eq hp hid]
      exact h.pods
    · simpa using h.podRoom
  | claim hwaste _ => exact absurd hwaste hno
  | killswitch => exact { h with }

theorem generateId_after (h : sm.prng = p.after k) :
    sm.generateId.1 = (p.after (k + 1)).state.toNat ∧ sm.generateId.2.prng = p.after (k + 1) := by
  have hnext : sm.prng.next = ((p.after (k + 1)).state, p.after (k + 1)) := by
    rw [h, Prng.after_succ]
    rfl
  rw [generateId, hnext]
  exact ⟨rfl, rfl⟩

theorem Draw.named (e : Draw cmd sm sm₁) (hp : p.state ≠ 0) (hk : k < Prng.period)
    (h : Named p k sm) : Named p (k + 1) sm₁ := by
  obtain ⟨hid, hprng⟩ := generateId_after h.prng
  cases e with
  | node _ hn hroom _ =>
    refine ⟨hprng, ?_, h.deployments.later, h.pods.later, ?_, h.podRoom⟩
    · simp only [List.map_append, List.map_cons, List.map_nil, hn, hid]
      exact h.nodes.append hp hk
    · simp only [List.length_append, List.length_cons, List.length_nil]
      omega
  | deployment hd _ _ =>
    refine ⟨hprng, h.nodes.later, ?_, h.pods.later, h.nodeRoom, h.podRoom⟩
    simp only [List.map_append, List.map_cons, List.map_nil, hd, hid]
    exact h.deployments.append hp hk
  | redeployment _ _ hd _ =>
    refine ⟨hprng, h.nodes.later, ?_, h.pods.later, h.nodeRoom, h.podRoom⟩
    simp only [List.map_set, hd, hid]
    exact h.deployments.set hp hk _
  | pod _ _ _ hpod _ _ _ =>
    refine ⟨hprng, h.nodes.later, h.deployments.later, ?_, h.nodeRoom, ?_⟩
    · simp only [List.map_set, hpod, hid]
      exact h.pods.set hp hk _
    · simpa using h.podRoom
  | newPod hroom hpod _ _ _ =>
    refine ⟨hprng, h.nodes.later, h.deployments.later, ?_, h.nodeRoom, ?_⟩
    · simp only [List.map_append, List.map_cons, List.map_nil, hpod, hid]
      exact h.pods.append hp hk
    · simp only [List.length_append, List.length_cons, List.length_nil]
      omega

theorem Edits.named (e : Edits cmd allow sm c sm₁) (hno : ¬ allow .waste) (hp : p.state ≠ 0)
    (hk : k + c ≤ Prng.period) (h : Named p k sm) : Named p (k + c) sm₁ := by
  induction e with
  | refl => exact h
  | edit _ e ih => exact e.named hno (ih hk)
  | draw _ e ih =>
    have hprev := ih (by omega)
    have hnext := e.named hp (by omega) hprev
    rwa [Nat.add_assoc] at hnext

/-- What every edit and every draw of a command keeps holds after the command. -/
theorem apply_keeps {P : StateMachine → Prop} (h : sm.apply cmd = some (sm₁, r))
    (hroom : sm.pods.length ≤ maxPods)
    (hedit : ∀ {sm₂ sm₃}, Edit cmd (fun slip => sm.slips cmd slip = true) sm₂ sm₃ → P sm₂ → P sm₃)
    (hdraw : ∀ {sm₂ sm₃}, Draw cmd sm₂ sm₃ → P sm₂ → P sm₃) (hP : P sm) : P sm₁ := by
  obtain ⟨c, -, e⟩ := apply_edits h hroom
  clear h
  induction e with
  | refl => exact hP
  | edit _ e ih => exact hedit e ih
  | draw _ e ih => exact hdraw e ih

/-- A command draws at most this many ids. -/
def maxDraws : ℕ := maxPods + 1

theorem apply_named (h : sm.apply cmd = some (sm₁, r)) (hno : sm.slips cmd .waste = false)
    (hp : p.state ≠ 0) (hk : k + maxDraws ≤ Prng.period) (hnamed : Named p k sm) :
    ∃ c ≤ maxDraws, Edits cmd (fun slip => sm.slips cmd slip = true) sm c sm₁ ∧
      Named p (k + c) sm₁ := by
  obtain ⟨c, hc, e⟩ := apply_edits h hnamed.podRoom
  have hc' : c ≤ maxDraws := hc
  refine ⟨c, hc, e, e.named ?_ hp (by omega) hnamed⟩
  rw [hno]
  decide

theorem initInPlace_named (seed : UInt64) : Named (Prng.init seed) 0 (sm.initInPlace seed) where
  prng := rfl
  nodes := ⟨fun _ h => absurd h List.not_mem_nil, List.nodup_nil⟩
  deployments := ⟨fun _ h => absurd h List.not_mem_nil, List.nodup_nil⟩
  pods := ⟨fun _ h => absurd h List.not_mem_nil, List.nodup_nil⟩
  nodeRoom := Nat.zero_le _
  podRoom := Nat.zero_le _

/-! ### Names and room -/

theorem forall_mem_set {α : Type*} {l : List α} {j : ℕ} {a : α} {P : α → Prop}
    (h : ∀ x ∈ l, P x) (ha : P a) : ∀ x ∈ l.set j a, P x := by
  intro x hx
  rcases List.mem_or_eq_of_mem_set hx with hx | rfl
  · exact h x hx
  · exact ha

theorem forall_mem_concat {α : Type*} {l : List α} {a : α} {P : α → Prop} (h : ∀ x ∈ l, P x)
    (ha : P a) : ∀ x ∈ l ++ [a], P x :=
  List.forall_mem_append.mpr ⟨h, List.forall_mem_singleton.mpr ha⟩

theorem mem_set_of_ne {α : Type*} {l : List α} {j : ℕ} {a a' x : α} (h : l[j]? = some a)
    (hx : x ∈ l) (hne : x ≠ a) : x ∈ l.set j a' := by
  obtain ⟨i, hi⟩ := List.mem_iff_getElem?.mp hx
  apply List.mem_iff_getElem?.mpr
  refine ⟨i, ?_⟩
  rw [List.getElem?_set_ne, hi]
  rintro rfl
  rw [h] at hi
  exact hne (Option.some.inj hi).symm

/-- The tables are within their bounds. -/
structure Roomy (sm : StateMachine) : Prop where
  nodes : sm.nodes.length ≤ maxNodes
  deployments : sm.deployments.length ≤ maxDeployments
  pods : sm.pods.length ≤ maxPods

theorem Edit.roomy (e : Edit cmd allow sm sm₁) (h : sm.Roomy) : sm₁.Roomy := by
  cases e with
  | node _ _ _ _ => exact { h with nodes := by simpa using h.nodes }
  | deployment _ _ _ => exact { h with deployments := by simpa using h.deployments }
  | retire _ _ => exact { h with deployments := by simpa using h.deployments }
  | pod _ _ _ _ _ _ _ => exact { h with pods := by simpa using h.pods }
  | claim _ hroom =>
    refine { h with pods := ?_ }
    simp only [List.length_append, List.length_cons, List.length_nil]
    omega
  | killswitch => exact { h with }

theorem Draw.roomy (e : Draw cmd sm sm₁) (h : sm.Roomy) : sm₁.Roomy := by
  cases e with
  | node _ _ hroom _ =>
    refine { h with nodes := ?_ }
    simp only [List.length_append, List.length_cons, List.length_nil]
    omega
  | deployment _ _ hroom =>
    refine { h with deployments := ?_ }
    simp only [List.length_append, List.length_cons, List.length_nil]
    omega
  | redeployment _ _ _ _ => exact { h with deployments := by simpa using h.deployments }
  | pod _ _ _ _ _ _ _ => exact { h with pods := by simpa using h.pods }
  | newPod hroom _ _ _ _ =>
    refine { h with pods := ?_ }
    simp only [List.length_append, List.length_cons, List.length_nil]
    omega

theorem apply_roomy (h : sm.apply cmd = some (sm₁, r)) (hroom : sm.Roomy) : sm₁.Roomy :=
  apply_keeps h hroom.pods (fun e => e.roomy) (fun e => e.roomy) hroom

/-! ### Amounts -/

/-- What nodes can give is within its types. -/
def Bounded (sm : StateMachine) : Prop := ∀ n ∈ sm.nodes, n.Within

theorem Edit.bounded (e : Edit cmd allow sm sm₁) (hcmd : cmd.Within) (h : sm.Bounded) :
    sm₁.Bounded := by
  cases e with
  | node _ hn _ hwithin => exact forall_mem_set h (hwithin hcmd (h _ (List.mem_of_getElem? hn)))
  | _ => exact h

theorem Draw.bounded (e : Draw cmd sm sm₁) (hcmd : cmd.Within) (h : sm.Bounded) : sm₁.Bounded := by
  cases e with
  | node _ _ _ hwithin => exact forall_mem_concat h (hwithin hcmd)
  | _ => exact h

theorem apply_bounded (h : sm.apply cmd = some (sm₁, r)) (hcmd : cmd.Within)
    (hroom : sm.pods.length ≤ maxPods) (hbounded : sm.Bounded) : sm₁.Bounded :=
  apply_keeps h hroom (fun e => e.bounded hcmd) (fun e => e.bounded hcmd) hbounded

/-! ### Pods that wait -/

/-- Active pods that wait for a node have none. -/
def Loose (sm : StateMachine) : Prop :=
  ∀ x ∈ sm.pods, x.active = true → x.phase = .pending → x.nodeId = 0

theorem Edit.loose (e : Edit cmd allow sm sm₁) (hwaste : ¬ allow .waste) (hreset : ¬ allow .reset)
    (h : sm.Loose) : sm₁.Loose := by
  cases e with
  | node _ _ _ _ => exact h
  | deployment _ _ _ => exact h
  | retire _ _ => exact h
  | @pod i p p' hp _ _ hactive hloose _ _ =>
    refine forall_mem_set h fun hxa hxp => ?_
    rcases hloose hxa hxp with hzero | ⟨hsame, hpending | hbound⟩
    · exact hzero
    · rw [hsame]
      exact h p (List.mem_of_getElem? hp) (hactive hxa) hpending
    · rw [hsame]
      by_contra hne
      exact hreset (hbound hne)
  | claim hclaim _ => exact absurd hclaim hwaste
  | killswitch => exact h

theorem Draw.loose (e : Draw cmd sm sm₁) (h : sm.Loose) : sm₁.Loose := by
  cases e with
  | node _ _ _ _ => exact h
  | deployment _ _ _ => exact h
  | redeployment _ _ _ _ => exact h
  | pod _ _ _ _ hunbound _ _ => exact forall_mem_set h fun _ _ => hunbound
  | newPod _ _ hunbound _ _ => exact forall_mem_concat h fun _ _ => hunbound

theorem apply_loose (h : sm.apply cmd = some (sm₁, r)) (hwaste : sm.slips cmd .waste = false)
    (hreset : sm.slips cmd .reset = false) (hroom : sm.pods.length ≤ maxPods) (hloose : sm.Loose) :
    sm₁.Loose :=
  apply_keeps h hroom (fun e => e.loose (by simp [hwaste]) (by simp [hreset])) (fun e => e.loose)
    hloose

/-! ### Pods and their nodes -/

/-- Pods are bound to nodes of the table. -/
def Homed (sm : StateMachine) : Prop :=
  ∀ x ∈ sm.pods, x.nodeId = 0 ∨ x.nodeId ∈ sm.nodes.map (·.id)

theorem Edit.homed (e : Edit cmd allow sm sm₁) (hwaste : ¬ allow .waste) (h : sm.Homed) :
    sm₁.Homed := by
  cases e with
  | node _ hn hsame _ =>
    intro x hx
    rw [map_set_of_eq hn hsame.1]
    exact h x hx
  | deployment _ _ _ => exact h
  | retire _ _ => exact h
  | @pod i p p' hp _ _ _ _ _ hgoes =>
    refine forall_mem_set h ?_
    rcases hgoes with hsame | hzero | ⟨n, hn, hid⟩
    · rw [hsame]
      exact h p (List.mem_of_getElem? hp)
    · exact .inl hzero
    · rw [← hid]
      exact .inr (List.mem_map_of_mem hn)
  | claim hclaim _ => exact absurd hclaim hwaste
  | killswitch => exact h

theorem Draw.homed (e : Draw cmd sm sm₁) (h : sm.Homed) : sm₁.Homed := by
  cases e with
  | node _ _ _ _ =>
    intro x hx
    rcases h x hx with hzero | hmem
    · exact .inl hzero
    · right
      rw [List.map_append]
      exact List.mem_append_left _ hmem
  | deployment _ _ _ => exact h
  | redeployment _ _ _ _ => exact h
  | pod _ _ _ _ hunbound _ _ => exact forall_mem_set h (.inl hunbound)
  | newPod _ _ hunbound _ _ => exact forall_mem_concat h (.inl hunbound)

theorem apply_homed (h : sm.apply cmd = some (sm₁, r)) (hwaste : sm.slips cmd .waste = false)
    (hroom : sm.pods.length ≤ maxPods) (hhomed : sm.Homed) : sm₁.Homed :=
  apply_keeps h hroom (fun e => e.homed (by simp [hwaste])) (fun e => e.homed) hhomed

/-! ### Pods and their deployments -/

/-- The deployment is in the table and active. -/
def Runs (sm : StateMachine) (id : ℕ) : Prop := ∃ d ∈ sm.deployments, d.id = id ∧ d.active = true

/-- Active pods belong to active deployments, apart from those of one that is being deleted. -/
def ServedBut (cmd : Command) (sm : StateMachine) : Prop :=
  ∀ x ∈ sm.pods, x.active = true → sm.Runs x.deploymentId ∨ cmd = .deleteDeployment x.deploymentId

/-- Active pods belong to active deployments. -/
def Served (sm : StateMachine) : Prop := ∀ x ∈ sm.pods, x.active = true → sm.Runs x.deploymentId

theorem runs_of_findDeployment {id : ℕ} {d : Deployment} (h : sm.findDeployment id = some d)
    (hactive : d.active = true) : sm.Runs id := by
  have hid := List.find?_some h
  exact ⟨d, List.mem_of_find?_eq_some h, by simpa using hid, hactive⟩

theorem Edit.served (e : Edit cmd allow sm sm₁) (hwaste : ¬ allow .waste)
    (h : sm.ServedBut cmd) : sm₁.ServedBut cmd := by
  cases e with
  | node _ _ _ _ => exact h
  | @deployment j d d' hd hid hsame =>
    intro x hx hxa
    rcases h x hx hxa with ⟨d₀, hd₀, hd₀id, hd₀a⟩ | hdel
    · left
      by_cases heq : d₀ = d
      · subst heq
        have hlt := (List.getElem?_eq_some_iff.mp hd).1
        exact ⟨d', List.mem_set hlt d', hid.trans hd₀id, hsame.trans hd₀a⟩
      · exact ⟨d₀, mem_set_of_ne hd hd₀ heq, hd₀id, hd₀a⟩
    · exact .inr hdel
  | @retire j d hd hcmd =>
    intro x hx hxa
    rcases h x hx hxa with ⟨d₀, hd₀, hd₀id, hd₀a⟩ | hdel
    · by_cases heq : d₀ = d
      · right
        rw [hcmd, ← heq, hd₀id]
      · exact .inl ⟨d₀, mem_set_of_ne hd hd₀ heq, hd₀id, hd₀a⟩
    · exact .inr hdel
  | @pod i p p' hp _ hdep hactive _ _ _ =>
    refine forall_mem_set h fun hxa => ?_
    rw [hdep]
    exact h p (List.mem_of_getElem? hp) (hactive hxa)
  | claim hclaim _ => exact absurd hclaim hwaste
  | killswitch => exact h

theorem Draw.served (e : Draw cmd sm sm₁) (h : sm.ServedBut cmd) : sm₁.ServedBut cmd := by
  cases e with
  | node _ _ _ _ => exact h
  | deployment _ _ _ =>
    intro x hx hxa
    rcases h x hx hxa with ⟨d₀, hd₀, hrest⟩ | hdel
    · exact .inl ⟨d₀, List.mem_append_left _ hd₀, hrest⟩
    · exact .inr hdel
  | @redeployment j d d' hd hold _ _ =>
    intro x hx hxa
    rcases h x hx hxa with ⟨d₀, hd₀, hd₀id, hd₀a⟩ | hdel
    · left
      refine ⟨d₀, mem_set_of_ne hd hd₀ ?_, hd₀id, hd₀a⟩
      rintro rfl
      rw [hold] at hd₀a
      cases hd₀a
    · exact .inr hdel
  | pod _ _ _ _ _ hfind hactive =>
    exact forall_mem_set h fun _ => .inl (runs_of_findDeployment hfind hactive)
  | newPod _ _ _ hfind hactive =>
    exact forall_mem_concat h fun _ => .inl (runs_of_findDeployment hfind hactive)

theorem handleDeleteDeployment_pods {id : ℕ} (h : sm.handleDeleteDeployment id = some (sm₁, r)) :
    sm₁ = sm ∨ ∀ x ∈ sm₁.pods, x.active = true → x.deploymentId ≠ id := by
  obtain ⟨rfl, -⟩ | ⟨j, -, -, hloop⟩ := handleDeleteDeployment_cases h
  · exact .inl rfl
  right
  intro x hx hxa
  obtain ⟨i, hi⟩ := List.mem_iff_getElem?.mp hx
  obtain ⟨hbefore, hslots⟩ := deletePods_pods hloop hi hxa
  obtain ⟨hlt, -⟩ := List.getElem?_eq_some_iff.mp hbefore
  exact hslots (List.mem_range.mpr hlt)

theorem apply_served (h : sm.apply cmd = some (sm₁, r)) (hwaste : sm.slips cmd .waste = false)
    (hroom : sm.pods.length ≤ maxPods) (hserved : sm.Served) : sm₁.Served := by
  have hbut : sm₁.ServedBut cmd := apply_keeps h hroom (fun e => e.served (by simp [hwaste]))
    (fun e => e.served) fun x hx hxa => .inl (hserved x hx hxa)
  intro x hx hxa
  rcases hbut x hx hxa with hruns | rfl
  · exact hruns
  · rcases handleDeleteDeployment_pods h with rfl | hnone
    · exact hserved x hx hxa
    · exact absurd rfl (hnone x hx hxa)

/-! ### The deployments pods were made for -/

/-- Every pod was made for a deployment whose id had been drawn. -/
def Owned (p : Prng) (k : ℕ) (sm : StateMachine) : Prop :=
  ∀ x ∈ sm.pods, p.Drawn k x.deploymentId

theorem Edit.owned (e : Edit cmd allow sm sm₁) (hwaste : ¬ allow .waste) (h : sm.Owned p k) :
    sm₁.Owned p k := by
  cases e with
  | node _ _ _ _ | deployment _ _ _ | retire _ _ | killswitch => exact h
  | claim hclaim _ => exact absurd hclaim hwaste
  | pod hp _ hdep _ _ _ _ =>
    refine forall_mem_set h ?_
    rw [hdep]
    exact h _ (List.mem_of_getElem? hp)

theorem Draw.owned (e : Draw cmd sm sm₁) (hnamed : Named p k sm) (h : sm.Owned p k) :
    sm₁.Owned p (k + 1) := by
  have hlater : ∀ x ∈ sm.pods, p.Drawn (k + 1) x.deploymentId :=
    fun x hx => (h x hx).mono (Nat.le_succ k)
  -- a new pod is made for a deployment that is in the table
  have hfound : ∀ {id : ℕ} {d : Deployment}, sm.findDeployment id = some d →
      p.Drawn (k + 1) id := by
    intro id d hfind
    have hid := List.find?_some (p := fun d : Deployment => d.id == id) hfind
    have hmem : d ∈ sm.deployments := List.mem_of_find?_eq_some hfind
    have hdrawn := hnamed.deployments.drawn d.id (List.mem_map_of_mem hmem)
    rw [beq_iff_eq.mp hid] at hdrawn
    exact hdrawn.mono (Nat.le_succ k)
  cases e with
  | node _ _ _ _ | deployment _ _ _ | redeployment _ _ _ _ => exact hlater
  | pod _ _ _ _ _ hfind _ => exact forall_mem_set hlater (hfound hfind)
  | newPod _ _ _ hfind _ => exact forall_mem_concat hlater (hfound hfind)

theorem Edits.owned (e : Edits cmd allow sm c sm₁) (hwaste : ¬ allow .waste) (hp : p.state ≠ 0)
    (hk : k + c ≤ Prng.period) (hnamed : Named p k sm) (h : sm.Owned p k) :
    sm₁.Owned p (k + c) := by
  induction e with
  | refl => exact h
  | edit _ e ih => exact e.owned hwaste (ih hk)
  | @draw c _ _ hbefore e ih =>
    have hprev : k + c ≤ Prng.period := by omega
    have hnext := e.owned (hbefore.named hwaste hp hprev hnamed) (ih hprev)
    rwa [Nat.add_assoc] at hnext

/-! ### Runs -/

/-- Ids tell the records of a table apart, and the tables are within their bounds. -/
structure Distinct (sm : StateMachine) : Prop where
  nodes : (sm.nodes.map (·.id)).Nodup
  deployments : (sm.deployments.map (·.id)).Nodup
  pods : (sm.pods.map (·.id)).Nodup
  node_ne : ∀ n ∈ sm.nodes, n.id ≠ 0
  pod_ne : ∀ x ∈ sm.pods, x.id ≠ 0
  nodeRoom : sm.nodes.length ≤ maxNodes
  podRoom : sm.pods.length ≤ maxPods

theorem Named.distinct (h : Named p k sm) (hp : p.state ≠ 0) : sm.Distinct where
  nodes := h.nodes.nodup
  deployments := h.deployments.nodup
  pods := h.pods.nodup
  node_ne n hn := (h.nodes.drawn n.id (List.mem_map_of_mem hn)).ne_zero hp
  pod_ne x hx := (h.pods.drawn x.id (List.mem_map_of_mem hx)).ne_zero hp
  nodeRoom := h.nodeRoom
  podRoom := h.podRoom

/-- What every command keeps while its ids are drawn for the first time holds along every run that
wastes no slot, as long as the generator has not been all the way round. -/
theorem run_named {ok : StateMachine → Command → Bool} {J : ℕ → StateMachine → Prop} {seed : UInt64}
    (hwaste : ∀ sm cmd, ok sm cmd = true → sm.slips cmd .waste = false)
    (hstep : ∀ k c sm cmd sm₁ r, Named (Prng.init seed) k sm → Named (Prng.init seed) (k + c) sm₁ →
      k + maxDraws ≤ Prng.period → c ≤ maxDraws → ok sm cmd = true → sm.apply cmd = some (sm₁, r) →
      Edits cmd (fun slip => sm.slips cmd slip = true) sm c sm₁ → J k sm → J (k + c) sm₁)
    {cmds : List Command} {results : List Result} (hinit : J 0 (sm.initInPlace seed))
    (hrun : Replay.run apply (sm.initInPlace seed) cmds = some (sm₁, results))
    (hok : Replay.along apply ok (sm.initInPlace seed) cmds = true)
    (hfew : maxDraws * cmds.length < 2 ^ 64) : ∃ k, Named (Prng.init seed) k sm₁ ∧ J k sm₁ := by
  have hp := Prng.init_state_ne seed
  -- the invariant is only claimed while there are ids left
  have hnext : ∀ i sm cmd sm₁ r,
      (maxDraws * i ≤ Prng.period →
        ∃ k ≤ maxDraws * i, Named (Prng.init seed) k sm ∧ J k sm) →
      ok sm cmd = true → apply sm cmd = some (sm₁, r) → maxDraws * (i + 1) ≤ Prng.period →
      ∃ k ≤ maxDraws * (i + 1), Named (Prng.init seed) k sm₁ ∧ J k sm₁ := by
    intro i sm cmd sm₁ r hI hok happly hleft
    have hsucc : maxDraws * (i + 1) = maxDraws * i + maxDraws := Nat.mul_succ _ _
    obtain ⟨k, hk, hnamed, hJ⟩ := hI (by omega)
    have hdraws : k + maxDraws ≤ Prng.period := by omega
    obtain ⟨c, hc, e, hnamed'⟩ := apply_named happly (hwaste sm cmd hok) hp hdraws hnamed
    exact ⟨k + c, by omega, hnamed',
      hstep k c sm cmd sm₁ r hnamed hnamed' hdraws hc hok happly e hJ⟩
  have hall := Replay.run_invariant
    (I := fun i sm => maxDraws * i ≤ Prng.period →
      ∃ k ≤ maxDraws * i, Named (Prng.init seed) k sm ∧ J k sm)
    (i := 0) hnext (fun _ => ⟨0, Nat.zero_le _, initInPlace_named seed, hinit⟩) hok hrun
  rw [Nat.zero_add] at hall
  have hleft : maxDraws * cmds.length ≤ Prng.period := by
    rw [Prng.period_eq]
    omega
  obtain ⟨k, -, hnamed, hJ⟩ := hall hleft
  exact ⟨k, hnamed, hJ⟩

theorem run_tables {ok : StateMachine → Command → Bool} {J : StateMachine → Prop}
    (hwaste : ∀ sm cmd, ok sm cmd = true → sm.slips cmd .waste = false)
    (hstep : ∀ sm cmd sm₁ r, sm.Distinct → sm₁.Distinct → ok sm cmd = true →
      sm.apply cmd = some (sm₁, r) → J sm → J sm₁)
    {seed : UInt64} {cmds : List Command} {results : List Result} (hinit : J (sm.initInPlace seed))
    (hrun : Replay.run apply (sm.initInPlace seed) cmds = some (sm₁, results))
    (hok : Replay.along apply ok (sm.initInPlace seed) cmds = true)
    (hfew : maxDraws * cmds.length < 2 ^ 64) : sm₁.Distinct ∧ J sm₁ := by
  have hp := Prng.init_state_ne seed
  obtain ⟨k, hnamed, hJ⟩ := run_named (J := fun _ => J) hwaste
    (fun k c sm cmd sm₁ r hnamed hnamed' _ _ hok happly _ =>
      hstep sm cmd sm₁ r (hnamed.distinct hp) (hnamed'.distinct hp) hok happly)
    hinit hrun hok hfew
  exact ⟨hnamed.distinct hp, hJ⟩

end StateMachine

end Hivemind
