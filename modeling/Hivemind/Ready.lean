import Hivemind.Capacity
import Hivemind.Wire

/-! The count of ready replicas, and what keeps it the number of running pods. -/
namespace Hivemind

namespace StateMachine

variable {sm sm₁ : StateMachine} {cmd : Command} {r : Result} {id i j : ℕ} {p p' : Pod}

/-! ### Counting running pods -/

/-- The pod runs for the deployment. -/
def runsFor (id : ℕ) (p : Pod) : Bool := p.deploymentId == id && p.phase == .running

/-- The deployment counts its running pods, and these are active. -/
structure Tallied (pods : List Pod) (d : Deployment) : Prop where
  count : d.readyReplicas = pods.countP (runsFor d.id)
  active : ∀ x ∈ pods, runsFor d.id x = true → x.active = true

/-- The deployments that are not deleted count their running pods. -/
def Counted (sm : StateMachine) : Prop :=
  ∀ d ∈ sm.deployments, d.active = true → Tallied sm.pods d

theorem runsFor_of_ne (h : p.deploymentId ≠ id) : runsFor id p = false := by
  simp [runsFor, h]

theorem runsFor_of_phase (h : p.phase ≠ .running) : runsFor id p = false := by
  simp [runsFor, h]

theorem runsFor_of_eq (h : p.deploymentId = id) : runsFor id p = (p.phase == .running) := by
  simp [runsFor, h]

namespace Tallied

variable {pods : List Pod} {d d' : Deployment}

theorem idle (h : Tallied pods d) (hmem : p ∈ pods) (hoff : p.active = false) :
    runsFor d.id p = false := by
  by_contra hruns
  have hactive := h.active p hmem (by simpa using hruns)
  rw [hoff] at hactive
  cases hactive

theorem pos (h : Tallied pods d) (hmem : p ∈ pods) (hruns : runsFor d.id p = true) :
    0 < d.readyReplicas := by
  rw [h.count]
  exact List.countP_pos_iff.mpr ⟨p, hmem, hruns⟩

theorem set (h : Tallied pods d) (hp : pods[i]? = some p) (hid : d'.id = d.id)
    (hready : d'.readyReplicas + (runsFor d.id p).toNat =
      d.readyReplicas + (runsFor d.id p').toNat)
    (hactive : runsFor d.id p' = true → p'.active = true) : Tallied (pods.set i p') d' where
  count := by
    have hset := countP_set (runsFor d.id) p' hp
    have hcount := h.count
    rw [hid]
    omega
  active := by
    intro x hx hruns
    rw [hid] at hruns
    rcases List.mem_or_eq_of_mem_set hx with hx | rfl
    · exact h.active x hx hruns
    · exact hactive hruns

theorem append (h : Tallied pods d) (hidle : runsFor d.id p = false) : Tallied (pods ++ [p]) d where
  count := by
    rw [List.countP_append, List.countP_singleton, hidle]
    exact h.count
  active := by
    intro x hx hruns
    rcases List.mem_append.mp hx with hx | hx
    · exact h.active x hx hruns
    · rw [List.mem_singleton.mp hx, hidle] at hruns
      cases hruns

end Tallied

theorem Counted.keep (h : sm.Counted) (hpods : sm₁.pods = sm.pods)
    (hdeps : ∀ d' ∈ sm₁.deployments, d'.active = true → ∃ d ∈ sm.deployments, d.active = true ∧
      d'.id = d.id ∧ d'.readyReplicas = d.readyReplicas) : sm₁.Counted := by
  intro d' hd' hactive'
  obtain ⟨d, hd, hactive, hid, hready⟩ := hdeps d' hd' hactive'
  obtain ⟨hcount, hon⟩ := h d hd hactive
  rw [hpods]
  constructor
  · rw [hid, hready, hcount]
  · rw [hid]
    exact hon

theorem Counted.same (h : sm.Counted) (hpods : sm₁.pods = sm.pods)
    (hdeps : sm₁.deployments = sm.deployments) : sm₁.Counted := by
  refine h.keep hpods fun d hd hactive => ?_
  rw [hdeps] at hd
  exact ⟨d, hd, hactive, rfl, rfl⟩

theorem Counted.set_idle (h : sm.Counted) (hp : sm.pods[i]? = some p)
    (hpods : sm₁.pods = sm.pods.set i p') (hdeps : sm₁.deployments = sm.deployments)
    (hidle : ∀ d ∈ sm.deployments, d.active = true →
      runsFor d.id p = false ∧ runsFor d.id p' = false) : sm₁.Counted := by
  intro d hd hactive
  rw [hdeps] at hd
  obtain ⟨hbefore, hafter⟩ := hidle d hd hactive
  rw [hpods]
  refine (h d hd hactive).set hp rfl ?_ ?_
  · rw [hbefore, hafter]
  · rw [hafter]
    exact fun hruns => absurd hruns Bool.false_ne_true

/-- A pod changes, and the record of its deployment with it. -/
theorem Counted.set {d d' : Deployment} (h : sm.Counted)
    (hnodup : (sm.deployments.map (·.id)).Nodup) (hp : sm.pods[i]? = some p)
    (hpods : sm₁.pods = sm.pods.set i p') (hd : sm.deployments[j]? = some d)
    (hdeps : sm₁.deployments = sm.deployments.set j d')
    (hdep : p'.deploymentId = p.deploymentId)
    (hown : d.id = p.deploymentId) (hid : d'.id = d.id) (hactive : d'.active = d.active)
    (hready : d.active = true → d'.readyReplicas + (p.phase == .running).toNat =
      d.readyReplicas + (p'.phase == .running).toNat)
    (hon : d.active = true → p'.phase = .running → p'.active = true) : sm₁.Counted := by
  intro x hx hxactive
  rw [hdeps] at hx
  rw [hpods]
  obtain ⟨k, hk⟩ := List.mem_iff_getElem?.mp hx
  obtain ⟨hlt, hdj⟩ := List.getElem?_eq_some_iff.mp hd
  by_cases hkj : j = k
  · -- the pod's own deployment
    subst hkj
    have hxd : d' = x := by simpa [hlt] using hk
    subst hxd
    have hdactive : d.active = true := hactive ▸ hxactive
    refine (h d (List.mem_of_getElem? hd) hdactive).set hp hid ?_ ?_
    · rw [runsFor_of_eq hown.symm, runsFor_of_eq (hdep.trans hown.symm)]
      exact hready hdactive
    · intro hruns
      rw [runsFor_of_eq (hdep.trans hown.symm)] at hruns
      exact hon hdactive (beq_iff_eq.mp hruns)
  · -- the ids are distinct, so the pod is not another's
    rw [List.getElem?_set_ne hkj] at hk
    have hne : p.deploymentId ≠ x.id := by
      intro heq
      exact hkj (index_unique hnodup hd hk (hown.trans heq))
    refine (h x (List.mem_of_getElem? hk) hxactive).set hp rfl ?_ ?_
    · rw [runsFor_of_ne hne, runsFor_of_ne (hdep ▸ hne)]
    · rw [runsFor_of_ne (hdep ▸ hne)]
      exact fun hruns => absurd hruns Bool.false_ne_true

/-! ### Pods that start -/

theorem Appends.counted {x : Bool × StateMachine} (e : Appends sm id x) (h : sm.Counted)
    (hwaste : ¬ sm.Serves id → sm.findInactivePodIndex = none → maxPods ≤ sm.pods.length) :
    x.2.Counted := by
  have hnew : ∀ {d : Deployment} {podId ordinal : ℕ} (id' : ℕ),
      runsFor id' (podOf id d podId ordinal) = false :=
    fun _ => runsFor_of_phase PodPhase.noConfusion
  cases e with
  | full | refused => exact h
  | wasted hno hnone hroom => exact absurd (hwaste hno hnone) (not_le.mpr hroom)
  | filled hp hfree _ _ _ =>
    refine h.set_idle hp rfl rfl fun d hd hactive => ⟨?_, hnew d.id⟩
    exact (h d hd hactive).idle (List.mem_of_getElem? hp) hfree
  | added _ _ _ => exact fun d hd hactive => (h d hd hactive).append (hnew d.id)

theorem appendPods_counted (id ordinal remaining : ℕ) (h : sm.Counted)
    (hwaste : 0 < remaining → ¬ sm.Serves id → sm.findInactivePodIndex = none →
      maxPods ≤ sm.pods.length) :
    (appendPods id ordinal remaining sm).Counted := by
  induction remaining generalizing sm ordinal with
  | zero => exact h
  | succ remaining ih =>
    obtain ⟨⟨filled, sm'⟩, happends, heq⟩ := appendPods_succ sm id ordinal remaining
    have hnext := happends.counted h (hwaste (Nat.succ_pos _))
    rw [heq]
    cases filled with
    | false => exact hnext
    | true =>
      refine ih _ hnext fun _ hno => absurd ?_ hno
      -- a deployment that got a pod is there, and gets the next one
      cases happends with
      | filled _ _ _ hfind hactive => exact ⟨_, hfind, hactive⟩
      | added _ hfind hactive => exact ⟨_, hfind, hactive⟩

theorem ensureDeploymentReplicaCount_counted (id : ℕ) (h : sm.Counted) :
    (sm.ensureDeploymentReplicaCount id).Counted := by
  unfold ensureDeploymentReplicaCount
  cases hfind : sm.findDeployment id with
  | none => exact h
  | some dep =>
    dsimp only
    split
    · exact h
    · next hgo =>
      simp only [Bool.or_eq_true, not_or, Bool.not_eq_true', Bool.not_eq_false] at hgo
      exact appendPods_counted _ _ _ h fun _ hno => absurd ⟨dep, hfind, hgo.1⟩ hno

theorem Counted.create {d : Deployment} (h : sm.Counted)
    (hnew : ∀ x ∈ sm.pods, x.deploymentId ≠ d.id) (hready : d.readyReplicas = 0)
    (hpods : sm₁.pods = sm.pods)
    (hdeps : ∀ d' ∈ sm₁.deployments, d' ∈ sm.deployments ∨ d' = d) : sm₁.Counted := by
  intro d' hd' hactive
  rw [hpods]
  rcases hdeps d' hd' with hd' | rfl
  · exact h d' hd' hactive
  have hnone : ∀ x ∈ sm.pods, runsFor d'.id x = false := fun x hx => runsFor_of_ne (hnew x hx)
  constructor
  · rw [hready, eq_comm, List.countP_eq_zero]
    intro x hx
    rw [hnone x hx]
    exact Bool.false_ne_true
  · intro x hx hruns
    rw [hnone x hx] at hruns
    cases hruns

theorem handleCreateDeployment_counted (c : CreateDeploymentCmd) (h : sm.Counted)
    (hnew : ∀ x ∈ sm.pods, x.deploymentId ≠ sm.generateId.1) :
    (sm.handleCreateDeployment c).1.Counted := by
  unfold handleCreateDeployment
  cases hidx : sm.findInactiveDeploymentIndex with
  | some idx =>
    refine appendPods_counted _ _ _ ?_ fun _ hno => absurd (serves_set sm.generateId.2 hidx rfl) hno
    exact h.create (d := deploymentOf c sm.generateId.1) hnew rfl rfl
      fun d' hd' => List.mem_or_eq_of_mem_set hd'
  | none =>
    dsimp only
    split
    · exact h
    · refine appendPods_counted _ _ _ ?_ fun _ hno =>
        absurd (serves_append sm.generateId.2 hidx rfl) hno
      refine h.create (d := deploymentOf c sm.generateId.1) hnew rfl rfl fun d' hd' => ?_
      exact (List.mem_append.mp hd').imp_right List.mem_singleton.mp

/-! ### Pods that stop -/

theorem terminatePod_deployments {d : Deployment} (hd : sm.deployments[j]? = some d) :
    (sm.terminatePod j i p).deployments = sm.deployments.set j
      { d with readyReplicas := d.readyReplicas - (p.phase == .running).toNat } := by
  unfold terminatePod
  split
  · next hruns =>
    show sm.deployments.modify j _ = _
    rw [modify_eq_set _ hd, hruns]
    rfl
  · next hruns =>
    have hoff : (p.phase == .running) = false := by simpa using hruns
    obtain ⟨hlt, rfl⟩ := List.getElem?_eq_some_iff.mp hd
    rw [hoff]
    exact (List.set_getElem_self hlt).symm

theorem terminatePod_counted (h : sm.Counted) (hnodup : (sm.deployments.map (·.id)).Nodup)
    (hp : sm.pods[i]? = some p) (hat : (sm.deployments.map (·.id))[j]? = some p.deploymentId) :
    (sm.terminatePod j i p).Counted := by
  rw [List.getElem?_map] at hat
  obtain ⟨d, hd, hown⟩ := Option.map_eq_some_iff.mp hat
  have hpods : (sm.terminatePod j i p).pods =
      sm.pods.set i { p with phase := .terminating, active := false } := by
    rw [terminatePod_pods, modify_eq_set _ hp]
  refine h.set hnodup hp hpods hd (terminatePod_deployments hd) rfl hown rfl rfl ?_ ?_
  · intro hactive
    have hpos : (p.phase == .running) = true → 0 < d.readyReplicas := by
      intro hruns
      rw [← runsFor_of_eq hown.symm] at hruns
      exact (h d (List.mem_of_getElem? hd) hactive).pos (List.mem_of_getElem? hp) hruns
    cases hruns : p.phase == .running with
    | false => rfl
    | true => exact Nat.sub_add_cancel (hpos hruns)
  · exact fun _ hruns => absurd hruns PodPhase.noConfusion

theorem terminatePod_ids : (sm.terminatePod j i p).deployments.map (·.id) =
    sm.deployments.map (·.id) := by
  cases hd : sm.deployments[j]? with
  | some d =>
    rw [terminatePod_deployments hd]
    exact map_set_of_eq hd rfl
  | none =>
    unfold terminatePod
    split
    · show (sm.deployments.modify j _).map _ = _
      rw [modify_of_none _ hd]
    · rfl

theorem terminateExcess_counted {slots : List ℕ} {excess : ℕ} (h : sm.Counted)
    (hnodup : (sm.deployments.map (·.id)).Nodup) (hat : (sm.deployments.map (·.id))[j]? = some id) :
    (terminateExcess id j slots excess sm).Counted := by
  induction slots generalizing sm excess with
  | nil => exact h
  | cons i rest ih =>
    cases excess with
    | zero => exact h
    | succ excess =>
      unfold terminateExcess
      cases hp : sm.pods[i]? with
      | none => exact ih h hnodup hat
      | some p =>
        dsimp only
        split
        · exact ih h hnodup hat
        · next hskip =>
          have hid : p.deploymentId = id := by
            simp only [Bool.or_eq_true, bne_iff_ne, not_or, not_not] at hskip
            exact hskip.1.2
          apply ih
          · exact terminatePod_counted h hnodup hp (hid ▸ hat)
          · rwa [terminatePod_ids]
          · rwa [terminatePod_ids]

theorem getElem?_of_findDeploymentIndex (h : sm.findDeploymentIndex id = some j) :
    (sm.deployments.map (·.id))[j]? = some id := by
  obtain ⟨d, hd, hid⟩ := getElem?_of_findIdx? h
  rw [List.getElem?_map, hd]
  exact congrArg some (beq_iff_eq.mp hid)

theorem handleScaleDeployment_counted {desired : ℕ} (h : sm.Counted)
    (hnodup : (sm.deployments.map (·.id)).Nodup)
    (hwaste : sm.slips (.scaleDeployment id desired) .waste = false) :
    (sm.handleScaleDeployment id desired).1.Counted := by
  unfold handleScaleDeployment
  cases hidx : sm.findDeploymentIndex id with
  | none => exact h
  | some j =>
    cases hfind : sm.findDeployment id with
    | none => exact h
    | some dep =>
      obtain ⟨d, hd, -⟩ := getElem?_of_findIdx? hidx
      have hset : (sm.setDeployment j fun d => { d with replicas := desired }).deployments =
          sm.deployments.set j { d with replicas := desired } := modify_eq_set _ hd
      have hids : ((sm.setDeployment j fun d => { d with replicas := desired }).deployments.map
          (·.id)) = sm.deployments.map (·.id) := by
        rw [hset]
        exact map_set_of_eq hd rfl
      have hcounted : (sm.setDeployment j fun d => { d with replicas := desired }).Counted := by
        refine h.keep rfl fun d' hd' hactive => ?_
        rw [hset] at hd'
        rcases List.mem_or_eq_of_mem_set hd' with hd' | rfl
        · exact ⟨d', hd', hactive, rfl, rfl⟩
        · exact ⟨d, List.mem_of_getElem? hd, hactive, rfl, rfl⟩
      dsimp only
      split
      · next hup =>
        refine appendPods_counted _ _ _ hcounted fun _ hno hnone => ?_
        by_contra hroom
        rw [scale_wastes hfind hup hno hnone (not_le.mp hroom)] at hwaste
        cases hwaste
      · apply terminateExcess_counted hcounted
        · rwa [hids]
        · rw [hids]
          exact getElem?_of_findDeploymentIndex hidx

theorem handleUnbindPod_counted (podId : ℕ) (h : sm.Counted)
    (hnodup : (sm.deployments.map (·.id)).Nodup) : (sm.handleUnbindPod podId).1.Counted := by
  unfold handleUnbindPod
  cases hidx : sm.findPodIndex podId with
  | none => exact h
  | some i =>
    obtain ⟨p, hp, -⟩ := getElem?_of_findIdx? hidx
    have hfound : sm.pods[i]? = sm.findPod podId := find?_of_findIdx? hidx
    rw [← hfound, hp]
    dsimp only
    cases hdep : sm.findDeploymentIndex p.deploymentId with
    | some j => exact terminatePod_counted h hnodup hp (getElem?_of_findDeploymentIndex hdep)
    | none =>
      refine h.set_idle hp (modify_eq_set _ hp) rfl fun d hd _ => ⟨runsFor_of_ne ?_, ?_⟩
      · have hnot := List.findIdx?_eq_none_iff.mp hdep d hd
        exact fun heq => by simp [heq] at hnot
      · exact runsFor_of_phase PodPhase.noConfusion

theorem mem_modify {α : Type*} {l : List α} {f : α → α} {a : α} (h : a ∈ l.modify j f) :
    a ∈ l ∨ ∃ b, l[j]? = some b ∧ a = f b := by
  cases hb : l[j]? with
  | none =>
    rw [modify_of_none f hb] at h
    exact .inl h
  | some b =>
    rw [modify_eq_set f hb] at h
    exact (List.mem_or_eq_of_mem_set h).imp_right fun ha => ⟨b, rfl, ha⟩

theorem deletePods_counted {slots : List ℕ} (hloop : deletePods id j slots sm = some sm₁)
    (h : sm.Counted) (hat : (sm.deployments.map (·.id))[j]? = some id)
    (hgone : ∀ d ∈ sm.deployments, d.id = id → d.active = false) : sm₁.Counted := by
  induction slots generalizing sm with
  | nil =>
    cases hloop
    exact h
  | cons i rest ih =>
    obtain ⟨hrest, -⟩ | ⟨p, sm₂, f, hp, hdep, -, hrel, hf, hrest⟩ := deletePods_cons hloop
    · exact ih hrest h hat hgone
    have hdeps : sm₂.deployments = sm.deployments := by rw [releaseOnNode_frame hrel]
    obtain ⟨d, hd, hid⟩ : ∃ d, sm.deployments[j]? = some d ∧ d.id = id := by
      rw [List.getElem?_map] at hat
      exact Option.map_eq_some_iff.mp hat
    have hold : ∀ d' ∈ sm₂.deployments.modify j f, d'.active = true → d' ∈ sm.deployments := by
      intro d' hd' hactive
      rw [hdeps] at hd'
      rcases mem_modify hd' with hd' | ⟨b, hb, rfl⟩
      · exact hd'
      · rw [hd] at hb
        cases hb
        rw [(hf d).active, hgone d (List.mem_of_getElem? hd) hid] at hactive
        cases hactive
    apply ih hrest
    · intro d' hd' hactive
      have hmem := hold d' hd' hactive
      have hne : p.deploymentId ≠ d'.id := by
        intro heq
        rw [hgone d' hmem (heq ▸ hdep)] at hactive
        cases hactive
      refine (h d' hmem hactive).set hp rfl ?_ ?_
      · rw [runsFor_of_ne hne, runsFor_of_phase PodPhase.noConfusion]
      · rw [runsFor_of_phase PodPhase.noConfusion]
        exact fun hruns => absurd hruns Bool.false_ne_true
    · rw [hdeps, modify_eq_set f hd, map_set_of_eq hd (hf d).id]
      exact hat
    · intro d' hd' hid'
      by_contra hactive
      have hactive' : d'.active = true := by simpa using hactive
      exact hactive (hgone d' (hold d' hd' hactive') hid')

theorem handleDeleteDeployment_counted (happly : sm.handleDeleteDeployment id = some (sm₁, r))
    (h : sm.Counted) (hnodup : (sm.deployments.map (·.id)).Nodup) : sm₁.Counted := by
  obtain ⟨rfl, -⟩ | ⟨j, hidx, -, hloop⟩ := handleDeleteDeployment_cases happly
  · exact h
  obtain ⟨d, hd, hid⟩ := getElem?_of_findIdx? hidx
  have hset : (sm.setDeployment j fun d => { d with active := false }).deployments =
      sm.deployments.set j { d with active := false } := modify_eq_set _ hd
  apply deletePods_counted hloop
  · refine h.keep rfl fun d' hd' hactive => ?_
    rw [hset] at hd'
    rcases List.mem_or_eq_of_mem_set hd' with hd' | rfl
    · exact ⟨d', hd', hactive, rfl, rfl⟩
    · cases hactive
  · have hids : (sm.deployments.set j { d with active := false }).map (·.id) =
        sm.deployments.map (·.id) := map_set_of_eq hd rfl
    rw [hset, hids]
    exact getElem?_of_findDeploymentIndex hidx
  · intro d' hd' hid'
    rw [hset] at hd'
    obtain ⟨k, hk⟩ := List.mem_iff_getElem?.mp hd'
    obtain ⟨hlt, -⟩ := List.getElem?_eq_some_iff.mp hd
    by_cases hjk : j = k
    · subst hjk
      have hxd : { d with active := false } = d' := by simpa [hlt] using hk
      rw [← hxd]
    · rw [List.getElem?_set_ne hjk] at hk
      exact absurd (index_unique hnodup hd hk ((beq_iff_eq.mp hid).trans hid'.symm)) hjk

/-! ### Reports -/

theorem countReady_spec {d d' : Deployment} {oldPhase newPhase : PodPhase}
    (h : countReady d oldPhase newPhase = some d') :
    d'.id = d.id ∧ d'.active = d.active ∧ ((oldPhase = .running → 0 < d.readyReplicas) →
      d'.readyReplicas + (oldPhase == .running).toNat =
        d.readyReplicas + (newPhase == .running).toNat) := by
  unfold countReady at h
  by_cases hold : oldPhase = .running
  · by_cases hnew : newPhase = .running
    · simp only [hold, hnew, ne_eq, not_true_eq_false, false_and, and_false, if_false] at h
      cases h
      exact ⟨rfl, rfl, fun _ => by rw [hold, hnew]⟩
    · simp only [hold, hnew, ne_eq, not_true_eq_false, not_false_eq_true, and_self,
        if_false, if_true] at h
      cases h
      refine ⟨rfl, rfl, fun hpos => ?_⟩
      have hoff : (newPhase == PodPhase.running) = false := by simpa using hnew
      rw [hold, hoff]
      exact Nat.sub_add_cancel (hpos hold)
  · have hoff : (oldPhase == PodPhase.running) = false := by simpa using hold
    by_cases hnew : newPhase = .running
    · simp only [hold, hnew, ne_eq, not_false_eq_true, and_self, if_true] at h
      split at h
      · cases h
      · cases h
        refine ⟨rfl, rfl, fun _ => ?_⟩
        rw [hoff, hnew]
        rfl
    · simp only [hold, hnew, and_false, false_and, if_false] at h
      cases h
      refine ⟨rfl, rfl, fun _ => ?_⟩
      have hoff' : (newPhase == PodPhase.running) = false := by simpa using hnew
      rw [hoff, hoff']

theorem countReadyAt_spec {oldPhase newPhase : PodPhase}
    (h : sm.countReadyAt id oldPhase newPhase = some sm₁) :
    ((∀ d ∈ sm.deployments, d.id ≠ id) ∧ sm₁ = sm) ∨
    ∃ j d d', sm.deployments[j]? = some d ∧ d.id = id ∧
      countReady d oldPhase newPhase = some d' ∧
      sm₁.deployments = sm.deployments.set j { d with readyReplicas := d'.readyReplicas } := by
  unfold countReadyAt at h
  cases hidx : sm.findDeploymentIndex id with
  | none =>
    rw [hidx] at h
    cases h
    refine .inl ⟨fun d hd heq => ?_, rfl⟩
    have hnot := List.findIdx?_eq_none_iff.mp hidx d hd
    simp [heq] at hnot
  | some j =>
    obtain ⟨d, hd, hid⟩ := getElem?_of_findIdx? hidx
    have hfound : sm.deployments[j]? = sm.findDeployment id := find?_of_findIdx? hidx
    rw [hidx, ← hfound, hd] at h
    obtain ⟨d', hd', rfl⟩ := Option.map_eq_some_iff.mp h
    exact .inr ⟨j, d, d', hd, beq_iff_eq.mp hid, hd', modify_eq_set _ hd⟩

theorem Counted.report {sm₂ : StateMachine} (h : sm.Counted)
    (hnodup : (sm.deployments.map (·.id)).Nodup) (hp : sm.pods[i]? = some p)
    (hpods : sm₁.pods = sm.pods.set i p')
    (hready : sm.countReadyAt p.deploymentId p.phase p'.phase = some sm₂)
    (hdeps : sm₁.deployments = sm₂.deployments) (hdep : p'.deploymentId = p.deploymentId)
    (hon : sm.Runs p.deploymentId → p'.phase = .running → p'.active = true) : sm₁.Counted := by
  obtain ⟨hnone, rfl⟩ | ⟨j, d, d', hd, hown, hcount, hset⟩ := countReadyAt_spec hready
  · refine h.set_idle hp hpods hdeps fun d hd _ => ⟨?_, ?_⟩
    · exact runsFor_of_ne (hnone d hd).symm
    · exact runsFor_of_ne (hdep ▸ (hnone d hd).symm)
  · obtain ⟨-, -, hexact⟩ := countReady_spec hcount
    refine h.set hnodup hp hpods hd (hdeps.trans hset) hdep hown rfl rfl ?_ ?_
    · intro hactive
      refine hexact fun hruns => ?_
      apply (h d (List.mem_of_getElem? hd) hactive).pos (List.mem_of_getElem? hp)
      rw [runsFor_of_eq hown.symm, hruns]
      rfl
    · exact fun hactive => hon ⟨d, List.mem_of_getElem? hd, hown, hactive⟩

/-- A pod that is no longer active is reported to be running while its deployment is there. -/
def revives (sm : StateMachine) : Command → Bool
  | .updatePodStatus podId .running => (sm.findPod podId).any fun p => !p.active &&
      sm.deployments.any fun d => d.id == p.deploymentId && d.active
  | _ => false

theorem handleUpdatePodStatus_counted {podId : ℕ} {newPhase : PodPhase}
    (happly : sm.handleUpdatePodStatus podId newPhase = some (sm₁, r)) (h : sm.Counted)
    (hnodup : (sm.deployments.map (·.id)).Nodup)
    (hrevives : sm.revives (.updatePodStatus podId newPhase) = false) : sm₁.Counted := by
  obtain rfl | ⟨i, p, j, f, hfind, hp, -, hready, ⟨hends, sm₂, hrel, hsm₁⟩ | rfl⟩ :=
    handleUpdatePodStatus_cases happly
  · exact h
  · have hdeps : sm₂.deployments = (sm.setDeployment j f).deployments := by
      rw [releaseOnNode_frame hrel]
    have hended : ({ sm₂ with pods := sm.pods.set i (ended newPhase p) } : StateMachine).Counted := by
      refine h.report hnodup hp rfl hready hdeps rfl fun _ hruns => ?_
      have hruns' : newPhase = .running := hruns
      rcases hends with hends | hends <;> rw [hruns'] at hends <;> cases hends
    obtain rfl | rfl := hsm₁
    · exact hended
    · exact ensureDeploymentReplicaCount_counted _ hended
  · refine h.report hnodup hp rfl hready rfl rfl fun hthere hruns => ?_
    obtain ⟨d, hd, hid, hactive⟩ := hthere
    have hruns' : newPhase = .running := hruns
    subst hruns'
    by_contra hoff
    have hoff' : p.active = false := by simpa using hoff
    have hany : (sm.deployments.any fun d => d.id == p.deploymentId && d.active) = true :=
      List.any_eq_true.mpr ⟨d, hd, by simp [hid, hactive]⟩
    simp [revives, hfind, hoff', hany] at hrevives

/-! ### Bindings -/

theorem handleBindPodToNode_counted (podId nodeId : ℕ) (h : sm.Counted) :
    (sm.handleBindPodToNode podId nodeId).1.Counted := by
  obtain ⟨code, herr⟩ | ⟨i, p, j, n, -, hp, -, -, -, -, hpending, -, hok⟩ :=
    handleBindPodToNode_cases sm podId nodeId
  · rw [herr]
    exact h
  · rw [hok]
    refine h.set_idle hp rfl rfl fun d _ _ => ⟨runsFor_of_phase ?_, ?_⟩
    · rw [hpending]
      exact PodPhase.noConfusion
    · exact runsFor_of_phase PodPhase.noConfusion

theorem bindAll_counted {bs : List PodBinding} (h : sm.Counted)
    (hnodup : (bs.map (·.podId)).Nodup)
    (hidle : ∀ b ∈ bs, ∀ p, sm.findPod b.podId = some p → p.phase ≠ .running) :
    (bs.foldl bindOne sm).Counted := by
  induction bs generalizing sm with
  | nil => exact h
  | cons b bs ih =>
    rw [List.map_cons, List.nodup_cons] at hnodup
    refine ih ?_ hnodup.2 fun b' hb' p hp => ?_
    · cases hidx : sm.findPodIndex b.podId with
      | none =>
        rw [bindOne, hidx]
        exact h
      | some i =>
        obtain ⟨p, hp, -⟩ := getElem?_of_findIdx? hidx
        have hfound : sm.pods[i]? = sm.findPod b.podId := find?_of_findIdx? hidx
        rw [bindOne_some hidx hp]
        refine h.set_idle hp rfl rfl fun d _ _ => ⟨runsFor_of_phase ?_, ?_⟩
        · exact hidle b List.mem_cons_self p (hfound ▸ hp)
        · exact runsFor_of_phase PodPhase.noConfusion
    · -- the other pods of the batch are not touched
      have hne : b.podId ≠ b'.podId := by
        intro heq
        exact hnodup.1 (List.mem_map.mpr ⟨b', hb', heq.symm⟩)
      rw [findPod_bindOne_ne hne] at hp
      exact hidle b' (List.mem_cons_of_mem _ hb') p hp

theorem handleBindPodsToNodes_counted {c : BindPodsToNodesCmd}
    (happly : sm.handleBindPodsToNodes c = some (sm₁, r)) (h : sm.Counted) : sm₁.Counted := by
  obtain ⟨rfl, -⟩ | ⟨ds, hcollect, -, -, rfl⟩ := handleBindPodsToNodes_cases happly
  · exact h
  obtain ⟨heach, -, hnodup, -⟩ := collectDemands_spec hcollect
  rw [takeDemands_frame]
  refine bindAll_counted (h.same rfl rfl) hnodup fun b hb p hp => ?_
  obtain ⟨pod, j, node, hb⟩ := heach b hb
  have hpod : sm.findPod b.podId = some p := hp
  rw [hb.findPod] at hpod
  cases hpod
  rw [hb.pending]
  exact PodPhase.noConfusion

/-! ### Runs -/

/-- No command upsets the counts but one that revives a pod or wastes a slot. -/
theorem apply_counted (happly : sm.apply cmd = some (sm₁, r)) (h : sm.Counted)
    (hnodup : (sm.deployments.map (·.id)).Nodup)
    (hnew : ∀ x ∈ sm.pods, x.deploymentId ≠ sm.generateId.1)
    (hwaste : sm.slips cmd .waste = false) (hrevives : sm.revives cmd = false) :
    sm₁.Counted := by
  by_cases hside : cmd.outside = true
  · obtain ⟨hpods, hdeps⟩ := apply_outside hside happly
    exact h.same hpods hdeps
  by_cases hrewrites : cmd.rewrites = true
  · obtain rfl | ⟨j, d, d', hd, hd', rfl⟩ := apply_rewrites hrewrites happly
    · exact h
    refine h.keep rfl fun x hx hactive => ?_
    rcases List.mem_or_eq_of_mem_set hx with hx | rfl
    · exact ⟨x, hx, hactive, rfl, rfl⟩
    · exact ⟨d, List.mem_of_getElem? hd, hd'.active ▸ hactive, hd'.id, hd'.ready⟩
  cases cmd with
  | createDeployment c =>
    rw [← next_eq happly]
    exact handleCreateDeployment_counted c h hnew
  | bindPodToNode podId nodeId =>
    rw [← next_eq happly]
    exact handleBindPodToNode_counted podId nodeId h
  | bindPodsToNodes c => exact handleBindPodsToNodes_counted happly h
  | updatePodStatus podId newPhase => exact handleUpdatePodStatus_counted happly h hnodup hrevives
  | scaleDeployment id desired =>
    rw [← next_eq happly]
    exact handleScaleDeployment_counted h hnodup hwaste
  | unbindPod podId =>
    rw [← next_eq happly]
    exact handleUnbindPod_counted podId h hnodup
  | deleteDeployment id => exact handleDeleteDeployment_counted happly h hnodup
  | registerNode _ | deregisterNode _ | updateNodeStatus _ _ | setKillswitch _ _ _ | noop =>
    exact absurd rfl hside
  | _ => exact absurd rfl hrewrites

/-- The command revives no pod and wastes no slot. -/
def counts (sm : StateMachine) (cmd : Command) : Bool :=
  !sm.slips cmd .waste && !sm.revives cmd

theorem run_counted {seed : UInt64} {cmds : List Command} {results : List Result}
    (hrun : Replay.run apply (sm.initInPlace seed) cmds = some (sm₁, results))
    (hok : Replay.along apply counts (sm.initInPlace seed) cmds = true)
    (hfew : maxDraws * cmds.length < 2 ^ 64) : sm₁.Counted := by
  have hp := Prng.init_state_ne seed
  have hsplit : ∀ sm cmd, counts sm cmd = true →
      sm.slips cmd .waste = false ∧ sm.revives cmd = false := by
    intro sm cmd hok
    simpa only [counts, Bool.and_eq_true, Bool.not_eq_true'] using hok
  have hstep : ∀ k c sm cmd sm₁ r, Named (Prng.init seed) k sm →
      Named (Prng.init seed) (k + c) sm₁ → k + maxDraws ≤ Prng.period → c ≤ maxDraws →
      counts sm cmd = true → sm.apply cmd = some (sm₁, r) →
      Edits cmd (fun slip => sm.slips cmd slip = true) sm c sm₁ →
      sm.Counted ∧ sm.Owned (Prng.init seed) k →
      sm₁.Counted ∧ sm₁.Owned (Prng.init seed) (k + c) := by
    rintro k c sm cmd sm₁ r hnamed - hleft hc hok happly e ⟨hcounted, howned⟩
    obtain ⟨hwaste, hrevives⟩ := hsplit sm cmd hok
    have hdraws : 0 < maxDraws := Nat.succ_pos _
    -- the next id was not drawn before, so no pod was made for it
    have hnew : ∀ x ∈ sm.pods, x.deploymentId ≠ sm.generateId.1 := by
      intro x hx
      rw [(generateId_after hnamed.prng).1]
      exact ((howned x hx).fresh hp (by omega)).symm
    exact ⟨apply_counted happly hcounted (hnamed.distinct hp).deployments hnew hwaste hrevives,
      e.owned (by simp [hwaste]) hp (by omega) hnamed howned⟩
  have hinit : (sm.initInPlace seed).Counted ∧ (sm.initInPlace seed).Owned (Prng.init seed) 0 :=
    ⟨fun _ h => absurd h List.not_mem_nil, fun _ h => absurd h List.not_mem_nil⟩
  obtain ⟨k, -, hcounted, -⟩ := run_named (J := fun k sm => sm.Counted ∧ sm.Owned (Prng.init seed) k)
    (fun sm cmd hok => (hsplit sm cmd hok).1) hstep hinit hrun hok hfew
  exact hcounted

/-- Along every run that revives no pod and wastes no slot, a deployment's `ready_replicas` is the
number of its active pods that run. -/
theorem ready_replicas_exact {seed : UInt64} {cmds : List Command} {results : List Result}
    (hrun : Replay.run apply (sm.initInPlace seed) cmds = some (sm₁, results))
    (hok : Replay.along apply counts (sm.initInPlace seed) cmds = true)
    (hfew : maxDraws * cmds.length < 2 ^ 64) :
    ∀ d ∈ sm₁.deployments, d.active = true → d.readyReplicas =
      sm₁.pods.countP fun p => p.active && p.deploymentId == d.id && p.phase == .running := by
  intro d hd hactive
  obtain ⟨hcount, hon⟩ := run_counted hrun hok hfew d hd hactive
  rw [hcount]
  apply List.countP_congr
  intro p hp
  constructor
  · intro hruns
    have hpactive := hon p hp hruns
    rw [runsFor, Bool.and_eq_true] at hruns
    rw [hpactive, hruns.1, hruns.2]
    rfl
  · intro hruns
    rw [Bool.and_eq_true, Bool.and_eq_true] at hruns
    rw [runsFor, hruns.1.2, hruns.2]
    rfl

/-- Three pods run, one of them fails and is replaced, and the deployment is scaled down to one. -/
theorem ready_replicas_exact_scaled :
    let cmds : List Command :=
      [.createDeployment { replicas := 3 }, .updatePodStatus (nthId 2) .running,
        .updatePodStatus (nthId 3) .running, .updatePodStatus (nthId 4) .running,
        .updatePodStatus (nthId 2) .failed, .scaleDeployment (nthId 1) 1]
    ∃ sm₁ results, Replay.run apply (blank.initInPlace 1) cmds = some (sm₁, results) ∧
      sm₁.deployments.map (fun d => (d.active, d.readyReplicas)) = [(true, 1)] ∧
      ∀ d ∈ sm₁.deployments, d.active = true → d.readyReplicas =
        sm₁.pods.countP fun p => p.active && p.deploymentId == d.id && p.phase == .running := by
  intro cmds
  have hsome : ((Replay.run apply (blank.initInPlace 1) cmds).map fun x => x.1.deployments.map
      fun d => (d.active, d.readyReplicas)) = some [(true, 1)] := by decide +kernel
  obtain ⟨⟨sm₁, results⟩, hrun, hdeps⟩ := Option.map_eq_some_iff.mp hsome
  exact ⟨sm₁, results, hrun, hdeps, ready_replicas_exact hrun (by decide +kernel) (by decide +kernel)⟩

/-- Commands that pass `validateCommand`: the pod is unbound, or has succeeded, and is reported to be
running after that. The deployment is active and counts one pod, and none that is active runs. -/
theorem ready_replicas_of_revived :
    let counted (x : StateMachine × List Result) : List (Bool × ℕ) × ℕ :=
      (x.1.deployments.map (fun d => (d.active, d.readyReplicas)),
        x.1.pods.countP fun p => p.active && p.phase == .running)
    let unbound : List Command := [.createDeployment { replicas := 1 }, .unbindPod (nthId 2),
      .updatePodStatus (nthId 2) .running]
    let succeeded : List Command := [.createDeployment { replicas := 1 },
      .updatePodStatus (nthId 2) .succeeded, .updatePodStatus (nthId 2) .running]
    (∀ cmd ∈ unbound ++ succeeded, validateCommand cmd = .ok ()) ∧
    (Replay.run apply (blank.initInPlace 1) unbound).map counted = some ([(true, 1)], 0) ∧
    (Replay.run apply (blank.initInPlace 1) succeeded).map counted = some ([(true, 1)], 0) := by
  refine ⟨?_, by decide +kernel, by decide +kernel⟩
  simp [validateCommand]

end StateMachine

end Hivemind
