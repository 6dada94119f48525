import Hivemind.Monitor
import Hivemind.WorkerAccounts

/-! The runtime's handles. Each handle that a creation returns is with one pod until its removal,
no pod is created again while its handle is out, and a pod at its end holds nothing any more: no
handle, no private data, no pending failure and none of the worker's resources. -/
namespace Hivemind.Agent

/-! ### Reading the handles off the history -/

/-- The runtime returned this handle. -/
def Obs.creates (handle : PodHandle) : Obs → Bool
  | .called ⟨.createPod _, .ok h⟩ => decide (h = handle)
  | _ => false

/-- The runtime removed this handle. -/
def Obs.removes (handle : PodHandle) : Obs → Bool
  | .called ⟨.removePod h, .ok _⟩ => decide (h = handle)
  | _ => false

/-- The worker, and what the runtime has returned for a pod and not removed. -/
structure Deal where
  worker : Worker
  outstanding : Option PodHandle

namespace Deal

variable (podId : ℕ)

def step (d : Deal) : Obs → Deal
  | .called ⟨.createPod spec, .ok handle⟩ =>
    if spec.podId = podId then { d with outstanding := some handle } else d
  | .called ⟨.removePod handle, .ok _⟩ =>
    if d.outstanding = some handle then { d with outstanding := none } else d
  | .became w => { d with worker := w }
  | _ => d

/-- A pod is created only while no handle for it is out, in the table or on its way. -/
def Allows (d : Deal) : Obs → Prop
  | .called ⟨.createPod spec, _⟩ => spec.podId = podId → d.outstanding = none ∧
    ∀ pod, d.worker.pods.lookup podId = some pod → pod.handle = none
  | _ => True

end Deal

/-- The deal about a pod after a history that began with `w₀`. -/
def deal (w₀ : Worker) (podId : ℕ) (tr : List Obs) : Deal :=
  tr.foldl (Deal.step podId) ⟨w₀, none⟩

/-- The write that brought the pod to its end is followed by the one that takes its requests off
the sums. -/
def Released (w₀ : Worker) (tr : List Obs) (podId : ℕ) (pod : TrackedPod) : Prop :=
  ∃ past w pod₀ pod₁ later, tr = past ++ .became w :: .became (w.without pod₁) :: later ∧
    (deal w₀ podId past).worker.pods.lookup podId = some pod₀ ∧ pod₀.state.terminal = false ∧
    w.pods.lookup podId = some pod₁ ∧ pod₁.scrubbed = pod

/-- What is left of a pod at its end. -/
structure TrackedPod.Bare (pod : TrackedPod) : Prop where
  handle : pod.handle = none
  entrypoint : pod.entrypoint = ""
  envVars : pod.envVars = []
  imagePullAuth : pod.imagePullAuth = none

/-- The handles and the pods at their end, after a history that began with `w₀`. -/
structure Custody (w₀ : Worker) (tr : List Obs) (w : Worker) : Prop where
  counted : ∀ handle, tr.countP (Obs.creates handle) = tr.countP (Obs.removes handle) +
    w.trackedPods.countP fun pod => decide (pod.handle = some handle)
  unique : ∀ handle, tr.countP (Obs.creates handle) = tr.countP (Obs.removes handle) + 1 →
    ∃! podId, ∃ pod, w.pods.lookup podId = some pod ∧ pod.handle = some handle
  lawful : ∀ podId, Abides (Deal.step podId) (Deal.Allows podId) ⟨w₀, none⟩ tr
  owned : ∀ podId handle, (deal w₀ podId tr).outstanding = some handle →
    ∃ pod, w.pods.lookup podId = some pod ∧ pod.handle = some handle
  live : ∀ podId pod, w.pods.lookup podId = some pod →
    pod.state = .starting ∨ pod.state = .running → pod.handle.isSome
  ended : ∀ podId pod, w.pods.lookup podId = some pod → pod.state.terminal →
    pod.Bare ∧ podId ∉ w.pendingFailureReasons ∧ Released w₀ tr podId pod

/-! ### The handles in the table -/

/-- One for a pod that holds the handle. -/
def TrackedPod.holds (handle : PodHandle) (pod : TrackedPod) : ℕ :=
  if pod.handle = some handle then 1 else 0

/-- The handle in the entry of a pod. -/
def Worker.handleOf (w : Worker) (podId : ℕ) : Option PodHandle :=
  (w.pods.lookup podId).bind TrackedPod.handle

theorem Worker.countP_holds (w : Worker) (handle : PodHandle) :
    (w.trackedPods.countP fun pod => decide (pod.handle = some handle)) =
      w.pods.total (TrackedPod.holds handle) := by
  unfold Worker.trackedPods AList.total
  induction w.pods.entries with
  | nil => rfl
  | cons e entries ih =>
    rw [List.map_cons, List.countP_cons, List.map_cons, List.sum_cons, ih, Nat.add_comm]
    simp only [TrackedPod.holds, decide_eq_true_eq]

/-- Writes that move no handle. -/
structure SameHandles (w w' : Worker) : Prop where
  each : ∀ podId, w'.handleOf podId = w.handleOf podId
  total : ∀ handle, w'.pods.total (TrackedPod.holds handle) =
    w.pods.total (TrackedPod.holds handle)

namespace SameHandles

variable {w w' w'' : Worker} {podId : ℕ} {pod pod' : TrackedPod}

theorem of_pods (h : w'.pods = w.pods) : SameHandles w w' :=
  ⟨fun podId => by rw [Worker.handleOf, h]; rfl, fun handle => by rw [h]⟩

theorem trans (h : SameHandles w w') (h' : SameHandles w' w'') : SameHandles w w'' :=
  ⟨fun podId => (h'.each podId).trans (h.each podId),
    fun handle => (h'.total handle).trans (h.total handle)⟩

theorem of_insert (hl : w.pods.lookup podId = some pod) (hh : pod'.handle = pod.handle)
    (hpods : w'.pods = w.pods.insert podId pod') : SameHandles w w' := by
  refine ⟨fun k => ?_, fun handle => ?_⟩
  · unfold Worker.handleOf
    rw [hpods]
    by_cases hk : k = podId
    · subst hk
      rw [AList.lookup_insert, hl]
      exact hh
    · rw [AList.lookup_insert_ne hk]
  · have hsum := AList.total_insert_of_lookup (c := pod') (TrackedPod.holds handle) hl
    have hsame : pod'.holds handle = pod.holds handle := by
      unfold TrackedPod.holds
      rw [hh]
    rw [hpods]
    omega

theorem setPod (hl : w.pods.lookup podId = some pod) (hh : pod'.handle = pod.handle) :
    SameHandles w (w.setPod podId pod') := of_insert hl hh rfl

theorem forget (hl : w.pods.lookup podId = some pod) (hh : pod.handle = none) :
    SameHandles w (w.forget podId) := by
  refine ⟨fun k => ?_, fun handle => ?_⟩
  · show ((w.pods.erase podId).lookup k).bind TrackedPod.handle = _
    unfold Worker.handleOf
    by_cases hk : k = podId
    · subst hk
      rw [AList.lookup_erase, hl]
      exact hh.symm
    · rw [AList.lookup_erase_ne hk]
  · have hsum := AList.total_erase (TrackedPod.holds handle) hl
    have hzero : pod.holds handle = 0 := by
      unfold TrackedPod.holds
      rw [hh]
      rfl
    show (w.pods.erase podId).total _ = _
    omega

theorem track (hfresh : w.pods.lookup pod.podId = none) (hh : pod.handle = none) :
    SameHandles w (w.track pod) := by
  refine ⟨fun k => ?_, fun handle => ?_⟩
  · show ((w.pods.insert pod.podId pod).lookup k).bind TrackedPod.handle = _
    unfold Worker.handleOf
    by_cases hk : k = pod.podId
    · subst hk
      rw [AList.lookup_insert, hfresh]
      exact hh
    · rw [AList.lookup_insert_ne hk]
  · have hzero : pod.holds handle = 0 := by
      unfold TrackedPod.holds
      rw [hh]
      rfl
    show (w.pods.insert pod.podId pod).total _ = _
    rw [AList.total_insert_of_notMem _ (AList.lookup_eq_none.mp hfresh), hzero, Nat.zero_add]

end SameHandles

theorem Plain.handle {now podId : ℕ} {inHand : Option ControlMessage} {pod pod' : TrackedPod}
    (h : Plain now inHand podId pod pod') : pod'.handle = pod.handle := by
  cases h <;> rfl

/-! ### What every deed keeps -/

/-- Every handle that was returned was removed, is with a pod or on its way to one, and what is out
for a pod is with it or on its way to it. -/
structure Kept (w₀ : Worker) (m : Moment) : Prop where
  counted : ∀ handle, m.trace.countP (Obs.creates handle) = m.trace.countP (Obs.removes handle) +
    m.worker.pods.total (TrackedPod.holds handle) +
    m.flights.countP fun entry => decide (entry.2 = handle)
  distinct : (m.flights.map Prod.fst).Nodup
  lawful : ∀ podId, Abides (Deal.step podId) (Deal.Allows podId) ⟨w₀, none⟩ m.trace
  worker : ∀ podId, (deal w₀ podId m.trace).worker = m.worker
  owned : ∀ podId handle, (deal w₀ podId m.trace).outstanding = some handle →
    (podId, handle) ∈ m.flights ∨ m.worker.handleOf podId = some handle

theorem deal_append (w₀ : Worker) (podId : ℕ) (tr : List Obs) (o : Obs) :
    deal w₀ podId (tr ++ [o]) = (deal w₀ podId tr).step podId o := foldl_concat

/-- An observation that is neither a write nor about a handle. -/
def Obs.idle : Obs → Bool
  | .became _ => false
  | .called c => c.inert
  | _ => true

namespace Kept

variable {w₀ w : Worker} {m : Moment} {podId : ℕ} {pod pod' : TrackedPod}

theorem idle_steps {o : Obs} (ho : o.idle) :
    (∀ handle, o.creates handle = false) ∧ (∀ handle, o.removes handle = false) ∧
      (∀ podId (d : Deal), d.step podId o = d) ∧ ∀ podId (d : Deal), d.Allows podId o := by
  match o with
  | .received _ => exact ⟨fun _ => rfl, fun _ => rfl, fun _ _ => rfl, fun _ _ => trivial⟩
  | .sent _ => exact ⟨fun _ => rfl, fun _ => rfl, fun _ _ => rfl, fun _ _ => trivial⟩
  | .called ⟨.pullImage .., _⟩ | .called ⟨.startPod .., _⟩ | .called ⟨.forwardRun .., _⟩
  | .called ⟨.probePod .., _⟩ | .called ⟨.stopPod .., _⟩ | .called ⟨.podStatus .., _⟩
  | .called ⟨.removePod _, .error _⟩ | .called ⟨.mount .., _⟩ | .called ⟨.unmount .., _⟩
  | .called ⟨.secret .., _⟩ =>
    exact ⟨fun _ => rfl, fun _ => rfl, fun _ _ => rfl, fun _ _ => trivial⟩

theorem noted (h : Kept w₀ m) {o : Obs} (ho : o.idle) (owed : Option (ℕ × PodStatusReport))
    (inHand : Option ControlMessage) :
    Kept w₀ ⟨m.worker, m.trace ++ [o], m.flights, owed, inHand⟩ := by
  obtain ⟨hcreates, hremoves, hstep, hallows⟩ := idle_steps ho
  refine ⟨fun handle => ?_, h.distinct, fun podId => abides_concat.mpr ⟨h.lawful podId, ?_⟩,
    fun podId => ?_, fun podId => ?_⟩
  · rw [List.countP_append, List.countP_append, List.countP_singleton, List.countP_singleton,
      hcreates, hremoves]
    exact h.counted handle
  · exact hallows podId _
  · rw [deal_append, hstep]
    exact h.worker podId
  · rw [deal_append, hstep]
    exact h.owned podId

theorem write (h : Kept w₀ m) (hsame : SameHandles m.worker w) : Kept w₀ (m.write w) := by
  refine ⟨fun handle => ?_, h.distinct, fun podId => abides_concat.mpr ⟨h.lawful podId, trivial⟩,
    fun podId => ?_, fun podId handle hout => ?_⟩
  · show (m.trace ++ [_]).countP _ = (m.trace ++ [_]).countP _ + w.pods.total _ + _
    rw [List.countP_append, List.countP_append, hsame.total handle]
    exact h.counted handle
  · exact congrArg Deal.worker (deal_append w₀ podId m.trace (.became w))
  · have hstep := deal_append w₀ podId m.trace (.became w)
    have hout' : (deal w₀ podId m.trace).outstanding = some handle := by
      rw [← hout]
      exact (congrArg Deal.outstanding hstep).symm
    refine (h.owned podId handle hout').imp id fun hheld => ?_
    exact (hsame.each podId).trans hheld

theorem asked (h : Kept w₀ m) {calls : List Call} (hcalls : ∀ c ∈ calls, c.inert) :
    Kept w₀ (m.ask calls) := by
  induction calls generalizing m with
  | nil =>
    unfold Moment.ask
    rw [List.map_nil, List.append_nil]
    exact h
  | cons c calls ih =>
    obtain ⟨hc, hrest⟩ := List.forall_mem_cons.mp hcalls
    have hnext := ih (h.noted (o := .called c) hc m.owed m.inHand) hrest
    unfold Moment.ask at hnext
    rw [List.append_assoc] at hnext
    exact hnext

/-- The runtime is asked for a pod that has no handle. -/
theorem creation (h : Kept w₀ m) (hw : m.worker.Orderly) {spec : PodSpec}
    (answer : Except RuntimeError PodHandle) (hl : m.worker.pods.lookup spec.podId = some pod)
    (hs : pod.state = .creating) (hfree : m.Free spec.podId) :
    Kept w₀ { m.note (.called ⟨.createPod spec, answer⟩) with
      flights := m.flights ++ flight spec answer } := by
  have hnone : pod.handle = none := by
    have hfit := hw.fit _ _ hl
    unfold TrackedPod.Fit at hfit
    rwa [hs] at hfit
  have hallows : ∀ podId, (deal w₀ podId m.trace).Allows podId
      (.called ⟨.createPod spec, answer⟩) := by
    rintro podId rfl
    refine ⟨?_, fun p hp => ?_⟩
    · cases hout : (deal w₀ spec.podId m.trace).outstanding with
      | none => rfl
      | some handle =>
        obtain hfly | hheld := h.owned _ _ hout
        · exact absurd hfly (hfree handle)
        · rw [Worker.handleOf, hl, Option.bind_some, hnone] at hheld
          contradiction
    · rw [h.worker] at hp
      cases hl.symm.trans hp
      exact hnone
  refine ⟨fun handle => ?_, ?_, fun podId => abides_concat.mpr ⟨h.lawful podId, hallows podId⟩,
    fun podId => ?_, fun podId handle hout => ?_⟩
  · have hcount := h.counted handle
    show (m.trace ++ [_]).countP _ = (m.trace ++ [_]).countP _ + m.worker.pods.total _ +
      (m.flights ++ _).countP _
    rw [List.countP_append, List.countP_append, List.countP_append, List.countP_singleton,
      List.countP_singleton]
    cases answer with
    | ok returned =>
      rw [flight, List.countP_singleton]
      show _ + (if decide (returned = handle) = true then 1 else 0) =
        _ + 0 + _ + (_ + if decide (returned = handle) = true then 1 else 0)
      omega
    | error e => exact hcount
  · show ((m.flights ++ flight spec answer).map Prod.fst).Nodup
    cases answer with
    | ok returned =>
      rw [flight, List.map_append, List.map_singleton]
      refine List.nodup_append.mpr ⟨h.distinct, List.nodup_singleton _, ?_⟩
      rintro k hk k' hk' rfl
      obtain ⟨entry, hentry, rfl⟩ := List.mem_map.mp hk
      have hid : entry.1 = spec.podId := List.mem_singleton.mp hk'
      apply hfree entry.2
      rw [← hid]
      exact hentry
    | error e =>
      rw [flight, List.append_nil]
      exact h.distinct
  · refine (congrArg Deal.worker (deal_append w₀ podId m.trace _)).trans
      (Eq.trans ?_ (h.worker podId))
    cases answer with
    | ok returned =>
      unfold Deal.step
      dsimp only
      split_ifs <;> rfl
    | error e => rfl
  · have hstep := deal_append w₀ podId m.trace (.called ⟨.createPod spec, answer⟩)
    have hout' : ((deal w₀ podId m.trace).step podId
        (.called ⟨.createPod spec, answer⟩)).outstanding = some handle := by
      rw [← hout]
      exact (congrArg Deal.outstanding hstep).symm
    cases answer with
    | ok returned =>
      unfold Deal.step at hout'
      dsimp only at hout'
      split_ifs at hout' with hid
      · left
        apply List.mem_append_right
        subst hid
        cases hout'
        exact List.mem_singleton.mpr rfl
      · exact (h.owned podId handle hout').imp (List.mem_append_left _) id
    | error e => exact (h.owned podId handle hout').imp (List.mem_append_left _) id

/-- A handle on its way reaches its pod. -/
theorem created {now : ℕ} {handle : PodHandle} (h : Kept w₀ m) (hw : m.worker.Orderly)
    (hl : m.worker.pods.lookup podId = some pod) (hs : pod.state = .creating)
    (hflight : (podId, handle) ∈ m.flights) :
    Kept w₀ { m.write (m.worker.setPod podId (pod.created now handle)) with
      flights := m.flights.erase (podId, handle) } := by
  have hnone : pod.handle = none := by
    have hfit := hw.fit _ _ hl
    unfold TrackedPod.Fit at hfit
    rwa [hs] at hfit
  refine ⟨fun found => ?_, ?_, fun k => abides_concat.mpr ⟨h.lawful k, trivial⟩, fun k => ?_,
    fun k found hout => ?_⟩
  · have hcount := h.counted found
    have hsum := AList.total_insert_of_lookup (c := pod.created now handle)
      (TrackedPod.holds found) hl
    have hperm := (List.perm_cons_erase hflight).countP_eq fun entry => decide (entry.2 = found)
    rw [List.countP_cons] at hperm
    show (m.trace ++ [_]).countP _ = (m.trace ++ [_]).countP _ +
      (m.worker.pods.insert podId (pod.created now handle)).total _ + (m.flights.erase _).countP _
    rw [List.countP_append, List.countP_append, List.countP_singleton, List.countP_singleton]
    show _ + 0 = _ + 0 + _ + _
    have hbefore : pod.holds found = 0 := by
      unfold TrackedPod.holds
      rw [hnone]
      rfl
    have hafter : (pod.created now handle).holds found =
        if decide ((podId, handle).2 = found) = true then 1 else 0 := by
      unfold TrackedPod.holds TrackedPod.created
      simp only [Option.some.injEq, decide_eq_true_eq]
    omega
  · exact ((List.erase_sublist).map Prod.fst).nodup h.distinct
  · exact congrArg Deal.worker (deal_append w₀ k m.trace _)
  · have hstep := deal_append w₀ k m.trace
      (.became (m.worker.setPod podId (pod.created now handle)))
    have hout' : (deal w₀ k m.trace).outstanding = some found := by
      rw [← hout]
      exact (congrArg Deal.outstanding hstep).symm
    by_cases hk : k = podId
    · subst hk
      right
      -- What is out for the pod is the handle that reaches it.
      obtain hfly | hheld := h.owned k found hout'
      · have hsame := List.inj_on_of_nodup_map h.distinct hfly hflight rfl
        rw [(Prod.mk.inj hsame).2]
        show ((m.worker.pods.insert k _).lookup k).bind _ = _
        rw [AList.lookup_insert]
        rfl
      · rw [Worker.handleOf, hl, Option.bind_some, hnone] at hheld
        contradiction
    · refine (h.owned k found hout').imp (fun hfly => ?_) fun hheld => ?_
      · exact (List.mem_erase_of_ne fun heq => hk (Prod.mk.inj heq).1).mpr hfly
      · show ((m.worker.pods.insert podId _).lookup k).bind _ = _
        rw [AList.lookup_insert_ne hk]
        exact hheld

/-- The runtime has removed the handle of a pod, and the pod lets go of it. -/
theorem removed {handle : PodHandle} (h : Kept w₀ m)
    (hl : m.worker.pods.lookup podId = some pod) (hh : pod.handle = some handle)
    (hfree : m.Free podId) (hh' : pod'.handle = none) :
    Kept w₀ ((m.note (.called ⟨.removePod handle, .ok ()⟩)).write
      (m.worker.setPod podId pod')) := by
  have hdeal : ∀ k, deal w₀ k (m.trace ++ [.called ⟨.removePod handle, .ok ()⟩] ++
      [.became (m.worker.setPod podId pod')]) =
      { (deal w₀ k m.trace).step k (.called ⟨.removePod handle, .ok ()⟩) with
        worker := m.worker.setPod podId pod' } := by
    intro k
    rw [deal_append, deal_append]
    rfl
  refine ⟨fun found => ?_, h.distinct, fun k => ?_, fun k => ?_, fun k found hout => ?_⟩
  · have hcount := h.counted found
    have hsum := AList.total_insert_of_lookup (c := pod') (TrackedPod.holds found) hl
    show (m.trace ++ [_] ++ [_]).countP _ = (m.trace ++ [_] ++ [_]).countP _ +
      (m.worker.pods.insert podId pod').total _ + _
    rw [List.countP_append, List.countP_append, List.countP_append, List.countP_append,
      List.countP_singleton, List.countP_singleton, List.countP_singleton, List.countP_singleton]
    show _ + 0 + 0 = _ + (if decide (handle = found) = true then 1 else 0) + 0 + _ + _
    have hbefore : pod.holds found = if decide (handle = found) = true then 1 else 0 := by
      unfold TrackedPod.holds
      rw [hh]
      simp only [Option.some.injEq, decide_eq_true_eq]
    have hafter : pod'.holds found = 0 := by
      unfold TrackedPod.holds
      rw [hh']
      rfl
    show _ = _ + _ + 0 + _ + m.flights.countP _
    omega
  · exact abides_concat.mpr ⟨abides_concat.mpr ⟨h.lawful k, trivial⟩, trivial⟩
  · exact congrArg Deal.worker (hdeal k)
  · have hout' : ((deal w₀ k m.trace).step k
        (.called ⟨.removePod handle, .ok ()⟩)).outstanding = some found := by
      rw [← hout]
      exact (congrArg Deal.outstanding (hdeal k)).symm
    unfold Deal.step at hout'
    dsimp only at hout'
    split_ifs at hout' with hthis
    by_cases hk : k = podId
    · subst hk
      obtain hfly | hheld := h.owned k found hout'
      · exact absurd hfly (hfree found)
      · rw [Worker.handleOf, hl, Option.bind_some, hh] at hheld
        rw [hout', ← hheld] at hthis
        exact absurd rfl hthis
    · refine (h.owned k found hout').imp id fun hheld => ?_
      show ((m.worker.pods.insert podId _).lookup k).bind _ = _
      rw [AList.lookup_insert_ne hk]
      exact hheld

theorem retired (h : Kept w₀ m) (hsame : SameHandles m.worker w)
    (hl : w.pods.lookup podId = some pod) (hh : pod'.handle = pod.handle)
    (owed : Option (ℕ × PodStatusReport)) :
    Kept w₀ { m.retire w podId pod' with owed := owed } := by
  have h₁ := h.write (hsame.trans (.setPod hl hh))
  have h₂ := h₁.write (w := (w.setPod podId pod').without pod') (.of_pods rfl)
  have hl' : ((w.setPod podId pod').without pod').pods.lookup podId = some pod' :=
    AList.lookup_insert _
  have h₃ := h₂.write (.setPod hl' (show pod'.scrubbed.handle = _ from rfl))
  exact ⟨h₃.counted, h₃.distinct, h₃.lawful, h₃.worker, h₃.owned⟩

theorem deed {now : ℕ} {m' : Moment} (h : Kept w₀ m) (hw : m.worker.Orderly)
    (hdeed : Deed now m m') : Kept w₀ m' := by
  cases hdeed with
  | received msg => exact h.noted rfl m.owed msg
  | sent msg _ => exact h.noted rfl m.owed m.inHand
  | reported _ _ _ => exact h.noted rfl none m.inHand
  | asked c hc => exact h.noted (o := .called c) hc m.owed m.inHand
  | creation spec answer hl hs hfree => exact h.creation hw answer hl hs hfree
  | moved hl hplain _ => exact h.write (.setPod hl hplain.handle)
  | created hl hs hflight => exact h.created hw hl hs hflight
  | exited hl _ handle exitCode _ _ =>
    have hasked := h.noted (o := .called ⟨.podStatus handle, .ok (.stopped exitCode)⟩) rfl m.owed
      m.inHand
    exact hasked.write (.setPod hl rfl)
  | @recreated podId pod handle hl _ hh _ tick hfree =>
    have hkeeps : (pod.retried tick).handle = pod.handle := rfl
    have hretried := h.write (.setPod hl hkeeps)
    have hdropped : ((pod.retried tick).recreated now).handle = none := rfl
    exact hretried.removed (AList.lookup_insert _) (hkeeps.trans hh) hfree hdropped
  | detached hl _ hh hfree => exact h.removed hl hh hfree rfl
  | @failing podId pod hl _ _ _ reason _ =>
    have hkeeps : (pod.failing now).handle = pod.handle := rfl
    have hmoved := h.write (.setPod hl hkeeps)
    have hsame : SameHandles (m.worker.setPod podId (pod.failing now))
        (m.worker.failing podId pod reason now) := .of_pods rfl
    exact hmoved.write hsame
  | @failed podId pod hl _ _ _ _ _ reason _ =>
    have hkeeps : (pod.failed now reason).handle = pod.handle := rfl
    exact h.retired (.of_pods rfl) hl hkeeps _
  | @stopped podId pod hl _ _ _ _ exitCode _ =>
    have hdropped : SameHandles m.worker (m.worker.dropReason podId) := .of_pods rfl
    have hkeeps : (pod.ended now (m.worker.pendingFailureReasons.lookup podId) exitCode).handle =
        pod.handle := rfl
    have hl' : (m.worker.dropReason podId).pods.lookup podId = some pod := hl
    exact (h.write hdropped).retired (.of_pods rfl) hl' hkeeps _
  | @forgotten podId pod hl ht =>
    refine h.write (.forget hl ?_)
    have hfit := hw.fit _ _ hl
    unfold TrackedPod.Fit at hfit
    cases hs : pod.state <;> rw [hs] at hfit ht <;> first | exact hfit | contradiction
  | tracked cmd envVars auth hfresh _ hcalls =>
    have hallocated : Kept w₀ (m.allocate cmd) := by
      unfold Moment.allocate
      refine write (write (write h ?_) ?_) ?_ <;> exact .of_pods rfl
    refine (hallocated.asked hcalls).write ?_
    have hsame : SameHandles m.worker (m.worker.track (cmd.tracked envVars auth now)) :=
      .track hfresh rfl
    exact ⟨hsame.each, hsame.total⟩
  | beat registered _ => exact h.write (.of_pods rfl)

end Kept

/-! ### Pods at their end -/

/-- What holds of every pod at its end. -/
def Ended (w₀ : Worker) (tr : List Obs) (w : Worker) : Prop :=
  ∀ podId pod, w.pods.lookup podId = some pod → pod.state.terminal →
    pod.Bare ∧ Released w₀ tr podId pod

namespace Ended

variable {w₀ w : Worker} {tr : List Obs} {podId : ℕ} {pod pod' : TrackedPod}

theorem append (h : Ended w₀ tr w) (more : List Obs) : Ended w₀ (tr ++ more) w := by
  intro podId pod hl ht
  obtain ⟨hbare, past, w₁, pod₀, pod₁, later, rfl, hrest⟩ := h podId pod hl ht
  refine ⟨hbare, past, w₁, pod₀, pod₁, later ++ more, ?_, hrest⟩
  rw [List.append_assoc]
  rfl

theorem setPod (h : Ended w₀ tr w) (podId : ℕ) (hactive : pod'.state.terminal = false) :
    Ended w₀ tr (w.setPod podId pod') := by
  refine AList.forall_lookup_insert h fun ht => ?_
  rw [hactive] at ht
  exact absurd ht Bool.false_ne_true

theorem retired {m : Moment} (h : Ended w₀ m.trace w)
    (hbefore : (deal w₀ podId m.trace).worker.pods.lookup podId = some pod)
    (hactive : pod.state.terminal = false) (hh : pod'.handle = none) :
    Ended w₀ (m.retire w podId pod').trace (m.retire w podId pod').worker := by
  have htrace : (m.retire w podId pod').trace = m.trace ++ [.became (w.setPod podId pod'),
      .became ((w.setPod podId pod').without pod'),
      .became (((w.setPod podId pod').without pod').setPod podId pod'.scrubbed)] := by
    show m.trace ++ [_] ++ [_] ++ [_] = _
    rw [List.append_assoc, List.append_assoc]
    rfl
  have hbare : pod'.scrubbed.Bare := ⟨hh, rfl, rfl, rfl⟩
  have hreleased : Released w₀ (m.retire w podId pod').trace podId pod'.scrubbed :=
    ⟨m.trace, w.setPod podId pod', pod, pod', _, htrace, hbefore, hactive,
      AList.lookup_insert _, rfl⟩
  have hothers := h.append [.became (w.setPod podId pod'),
    .became ((w.setPod podId pod').without pod'),
    .became (((w.setPod podId pod').without pod').setPod podId pod'.scrubbed)]
  rw [← htrace] at hothers
  have hpods : (m.retire w podId pod').worker.pods = w.pods.insert podId pod'.scrubbed :=
    AList.insert_insert _
  unfold Ended
  rw [hpods]
  exact AList.forall_lookup_insert hothers fun _ => ⟨hbare, hreleased⟩

theorem deed {now : ℕ} {m m' : Moment} (h : Ended w₀ m.trace m.worker) (hkept : Kept w₀ m)
    (hdeed : Deed now m m') : Ended w₀ m'.trace m'.worker := by
  cases hdeed with
  | received _ | sent _ _ | reported _ _ _ | asked _ _ | creation _ _ _ _ _ => exact h.append _
  | moved _ hplain _ => exact (h.setPod _ hplain.move.active.2).append _
  | @created podId pod handle _ _ _ =>
    have hactive : (pod.created now handle).state.terminal = false := rfl
    exact (h.setPod podId hactive).append _
  | @exited podId pod _ _ _ _ _ _ =>
    have hactive : (pod.exited now).state.terminal = false := rfl
    exact ((h.setPod podId hactive).append _).append _
  | @recreated podId pod handle _ hs _ _ tick _ =>
    have hactive : (pod.retried tick).state.terminal = false := by
      show pod.state.terminal = false
      rw [hs]
      rfl
    have hactive' : ((pod.retried tick).recreated now).state.terminal = false := rfl
    exact ((((h.setPod podId hactive).setPod podId hactive').append _).append _).append _
  | @detached podId pod handle _ hs _ _ =>
    have hactive : ({ pod with handle := none } : TrackedPod).state.terminal = false := by
      show pod.state.terminal = false
      rw [hs]
      rfl
    exact ((h.setPod podId hactive).append _).append _
  | @failing podId pod _ _ _ _ _ _ =>
    have hactive : (pod.failing now).state.terminal = false := rfl
    exact ((h.setPod podId hactive).append _).append _
  | @failed podId pod hl hs hh _ _ _ reason _ =>
    have hactive : pod.state.terminal = false := by
      obtain hs | hs := hs <;> rw [hs] <;> rfl
    have hbefore : (deal w₀ podId m.trace).worker.pods.lookup podId = some pod := by
      rw [hkept.worker]
      exact hl
    have hnone : (pod.failed now reason).handle = none := hh
    exact h.retired hbefore hactive hnone
  | @stopped podId pod hl hs hh _ _ exitCode _ =>
    have hactive : pod.state.terminal = false := by
      rw [hs]
      rfl
    have hbefore : (deal w₀ podId (m.write (m.worker.dropReason podId)).trace).worker.pods.lookup
        podId = some pod := by
      have hworker := congrArg Deal.worker
        (deal_append w₀ podId m.trace (.became (m.worker.dropReason podId)))
      exact (congrArg (fun w : Worker => w.pods.lookup podId) hworker).trans hl
    have hdropped : Ended w₀ (m.write (m.worker.dropReason podId)).trace
        (m.worker.dropReason podId) := h.append _
    have hnone : (pod.ended now (m.worker.pendingFailureReasons.lookup podId) exitCode).handle =
        none := hh
    exact hdropped.retired hbefore hactive hnone
  | @forgotten podId _ _ _ =>
    have hforgotten := h.append [.became (m.worker.forget podId)]
    exact AList.forall_lookup_erase hforgotten
  | @tracked cmd envVars auth _ _ calls _ =>
    have hactive : (cmd.tracked envVars auth now).state.terminal = false := rfl
    exact ((((((h.setPod cmd.podId hactive).append _).append _).append _).append
      (calls.map .called)).append _)
  | beat _ _ => exact h.append _

end Ended

/-! ### Whole runs -/

theorem Worker.one_holder {w : Worker} {handle : PodHandle} (hw : w.Orderly)
    (hone : (w.trackedPods.countP fun pod => decide (pod.handle = some handle)) = 1) :
    ∃! podId, ∃ pod, w.pods.lookup podId = some pod ∧ pod.handle = some handle := by
  rw [List.countP_eq_length_filter] at hone
  obtain ⟨holder, hholder⟩ := List.length_eq_one_iff.mp hone
  have hmem : ∀ podId pod, w.pods.lookup podId = some pod → pod.handle = some handle →
      pod = holder := by
    intro podId pod hl hh
    have hfiltered : pod ∈ w.trackedPods.filter fun pod => decide (pod.handle = some handle) :=
      List.mem_filter.mpr ⟨Worker.mem_trackedPods.mpr ⟨podId, hl⟩, decide_eq_true hh⟩
    rw [hholder] at hfiltered
    exact List.mem_singleton.mp hfiltered
  have hthere : holder ∈ w.trackedPods.filter fun pod => decide (pod.handle = some handle) := by
    rw [hholder]
    exact List.mem_singleton_self holder
  obtain ⟨htracked, hh⟩ := List.mem_filter.mp hthere
  obtain ⟨podId, hl⟩ := Worker.mem_trackedPods.mp htracked
  refine ⟨podId, ⟨holder, hl, of_decide_eq_true hh⟩, ?_⟩
  rintro k ⟨pod, hk, hpod⟩
  -- Each entry carries its own key.
  rw [← hw.named _ _ hl, ← hw.named _ _ hk, hmem k pod hk hpod]

/-- The handles in every run whose ticks return, at the end of each event. -/
theorem handles_in_custody {σ : Type} (env : Env σ) (outside : σ) (nodeName : String)
    (gpuType : GpuType) (gpuTotal cpuMillicores memoryMegabytes lifecycleConcurrency : ℕ)
    (events : List Event) (s : Scene σ)
    (hrun : run env events ⟨Worker.newWithLifecycleConcurrency nodeName gpuType gpuTotal
      cpuMillicores memoryMegabytes lifecycleConcurrency, [], outside⟩ = .ok ((), s)) :
    Custody (Worker.newWithLifecycleConcurrency nodeName gpuType gpuTotal cpuMillicores
      memoryMegabytes lifecycleConcurrency) s.trace s.worker := by
  let w₀ := Worker.newWithLifecycleConcurrency nodeName gpuType gpuTotal cpuMillicores
    memoryMegabytes lifecycleConcurrency
  have hstart : Kept w₀ ⟨w₀, [], [], none, none⟩ ∧ Ended w₀ [] w₀ := by
    refine ⟨⟨fun _ => rfl, List.nodup_nil, fun _ => trivial, fun _ => rfl, ?_⟩, ?_⟩
    · rintro _ _ h
      exact (nomatch h)
    · rintro _ _ h
      exact (nomatch h)
  obtain ⟨hw, hkept, hended⟩ := run_keeps
    (I := fun m => Kept w₀ m ∧ Ended w₀ m.trace m.worker)
    (fun _ _ _ hw hdeed h => ⟨h.1.deed hw hdeed, h.2.deed h.1 hdeed⟩)
    (Worker.new_orderly _ _ _ _ _ _) hstart hrun
  have hcounted : ∀ handle, s.trace.countP (Obs.creates handle) =
      s.trace.countP (Obs.removes handle) +
        s.worker.trackedPods.countP fun pod => decide (pod.handle = some handle) := by
    intro handle
    rw [Worker.countP_holds]
    exact hkept.counted handle
  refine ⟨hcounted, fun handle hone => ?_, hkept.lawful, fun podId handle hout => ?_,
    fun podId pod hl hs => ?_, fun podId pod hl ht => ?_⟩
  · apply Worker.one_holder hw
    have hsum := hcounted handle
    omega
  · obtain hfly | hheld := hkept.owned podId handle hout
    · exact absurd hfly List.not_mem_nil
    · exact Option.bind_eq_some_iff.mp hheld
  · have hfit := hw.fit podId pod hl
    unfold TrackedPod.Fit at hfit
    obtain hs | hs := hs <;> rw [hs] at hfit <;> exact hfit
  · obtain ⟨hbare, hreleased⟩ := hended podId pod hl ht
    refine ⟨hbare, fun hpending => ?_, hreleased⟩
    obtain ⟨found, hfound, hs⟩ := hw.pending podId hpending
    cases hl.symm.trans hfound
    rw [hs] at ht
    exact absurd ht Bool.false_ne_true

/-- A pod on its way to its start holds the one handle the runtime has returned. -/
theorem handles_in_custody_acceptances :
    ∃ s, acceptancesRun = .ok ((), s) ∧
      Custody (Worker.newWithLifecycleConcurrency "node" .none 4 0 0 4) s.trace s.worker ∧
      s.trace.countP (Obs.creates ⟨2, "container"⟩) = 1 ∧
      s.worker.handleOf 2 = some ⟨2, "container"⟩ := by
  have hends : (match acceptancesRun with
      | .ok (_, s) => some (s.trace.countP (Obs.creates ⟨2, "container"⟩), s.worker.handleOf 2)
      | .error _ => none) = some (1, some ⟨2, "container"⟩) := by decide +kernel
  cases h : acceptancesRun with
  | error e =>
    rw [h] at hends
    contradiction
  | ok r =>
    rw [h] at hends
    obtain ⟨hcreated, hheld⟩ := Prod.mk.inj (Option.some.inj hends)
    have hcustody := handles_in_custody obliging () "node" .none 4 0 0 4 acceptances r.2 h
    exact ⟨r.2, rfl, hcustody, hcreated, hheld⟩

end Hivemind.Agent
