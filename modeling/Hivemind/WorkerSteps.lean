import Hivemind.Keyed
import Hivemind.WorkerTick
import Mathlib.Logic.Relation

/-! What a tick can do to the worker's table, one change at a time, and what every change keeps:
the order between a pod's state, its runtime handle and its pending failure, and the sums of the
requests. The functions of the worker are shown in `WorkerRuns` to make such changes only. -/
namespace Hivemind.Agent

/-! ### One pod -/

/-- A step of a pod that is not at its end before or after it. -/
inductive Move (now : ℕ) (pod : TrackedPod) : TrackedPod → Prop
  | pulled (h : pod.state = .imagePulling) :
    Move now pod { pod with state := .creating, stateChangedAt := now }
  | created (h : pod.state = .creating) (handle : PodHandle) : Move now pod (pod.created now handle)
  | started (h : pod.state = .starting) : Move now pod (pod.started now)
  | retried (h : pod.state = .starting) (failures tick : ℕ) :
    Move now pod { pod with lifecycleFailures := failures, lifecycleRetryAfterTick := tick }
  | recreated (h : pod.state = .starting) : Move now pod (pod.recreated now)
  | halted (h : pod.state.stoppable) (gracePeriodMs : ℕ) :
    Move now pod (pod.halted gracePeriodMs now)
  | exited (h : pod.state = .running) : Move now pod (pod.exited now)
  | stopRetried (h : pod.state = .stopping) : Move now pod (pod.stopRetried now)
  | detached (h : pod.state = .stopping) : Move now pod { pod with handle := none }
  | probed (h : pod.state = .running) : Move now pod { pod with lastProbeTick := now }
  | counted (h : pod.state = .running) (failures : ℕ) :
    Move now pod { pod with consecutiveFailures := failures }

/-- The runtime handle a pod has in its state. -/
def TrackedPod.Fit (pod : TrackedPod) : Prop :=
  match pod.state with
  | .imagePulling | .creating | .stopped _ | .failed _ => pod.handle = none
  | .starting | .running => pod.handle.isSome
  | .stopping => True

/-- What a pod keeps as long as it is tracked. -/
structure TrackedPod.Same (pod pod' : TrackedPod) : Prop where
  podId : pod'.podId = pod.podId
  gpuCount : pod'.gpuCount = pod.gpuCount
  cpuMillicores : pod'.cpuMillicores = pod.cpuMillicores
  memoryMegabytes : pod'.memoryMegabytes = pod.memoryMegabytes
  probeIntervalMs : pod'.probeIntervalMs = pod.probeIntervalMs

namespace Move

variable {now : ℕ} {pod pod' : TrackedPod}

theorem same (h : Move now pod pod') : pod.Same pod' := by
  cases h <;> exact ⟨rfl, rfl, rfl, rfl, rfl⟩

theorem lastProbeTick (h : Move now pod pod') :
    pod'.lastProbeTick = pod.lastProbeTick ∨ pod'.lastProbeTick = now := by
  cases h with
  | probed _ => exact .inr rfl
  | _ => exact .inl rfl

theorem fit (h : Move now pod pod') (hfit : pod.Fit) : pod'.Fit := by
  unfold TrackedPod.Fit at hfit ⊢
  cases h with
  | pulled h => rw [h] at hfit; exact hfit
  | created h handle => rfl
  | started h => rw [h] at hfit; exact hfit
  | retried h _ _ => rw [h] at hfit ⊢; exact hfit
  | recreated h => rfl
  | halted h _ => trivial
  | exited h => trivial
  | stopRetried h => rw [show (pod.stopRetried now).state = .stopping from h]; trivial
  | detached h => simp only [h]
  | probed h => rw [h] at hfit ⊢; exact hfit
  | counted h _ => rw [h] at hfit ⊢; exact hfit

theorem active (h : Move now pod pod') :
    pod.state.terminal = false ∧ pod'.state.terminal = false := by
  cases h with
  | halted h _ =>
    refine ⟨?_, rfl⟩
    cases hs : pod.state <;> rw [hs] at h <;> first | rfl | contradiction
  | pulled h => exact ⟨by rw [h]; rfl, rfl⟩
  | created h _ => exact ⟨by rw [h]; rfl, rfl⟩
  | started h => exact ⟨by rw [h]; rfl, rfl⟩
  | recreated h => exact ⟨by rw [h]; rfl, rfl⟩
  | exited h => exact ⟨by rw [h]; rfl, rfl⟩
  | retried h _ _ => exact ⟨by rw [h]; rfl, by show pod.state.terminal = false; rw [h]; rfl⟩
  | stopRetried h => exact ⟨by rw [h]; rfl, by show pod.state.terminal = false; rw [h]; rfl⟩
  | detached h => exact ⟨by rw [h]; rfl, by show pod.state.terminal = false; rw [h]; rfl⟩
  | probed h => exact ⟨by rw [h]; rfl, by show pod.state.terminal = false; rw [h]; rfl⟩
  | counted h _ => exact ⟨by rw [h]; rfl, by show pod.state.terminal = false; rw [h]; rfl⟩

theorem stopping (h : Move now pod pod') (hs : pod.state = .stopping) : pod'.state = .stopping := by
  cases h with
  | stopRetried _ => exact hs
  | detached _ => exact hs
  | halted _ _ => rfl
  | exited _ => rfl
  | pulled h | created h _ | started h | retried h _ _ | recreated h | probed h | counted h _ =>
    rw [hs] at h
    contradiction

end Move

theorem TrackedPodState.stoppable_active {state : TrackedPodState} (h : state.stoppable) :
    state.terminal = false := by
  cases state <;> first | rfl | contradiction

theorem TrackedPodState.stoppable_ne {state : TrackedPodState} (h : state.stoppable) :
    state ≠ .stopping := by
  rintro rfl
  contradiction

/-! ### The table -/

def Worker.setPod (w : Worker) (podId : ℕ) (pod : TrackedPod) : Worker :=
  { w with pods := w.pods.insert podId pod }

def Worker.forget (w : Worker) (podId : ℕ) : Worker := { w with pods := w.pods.erase podId }

/-- The pod failed and waits for its cleanup. -/
def Worker.failing (w : Worker) (podId : ℕ) (pod : TrackedPod) (reason : String) (now : ℕ) :
    Worker :=
  { w with
    pods := w.pods.insert podId (pod.failing now)
    pendingFailureReasons := w.pendingFailureReasons.insert podId reason }

/-- The pod is at its end: nothing is held for it any more. -/
def Worker.retire (w : Worker) (podId : ℕ) (pod : TrackedPod) : Worker :=
  { w.without pod with
    pods := w.pods.insert podId pod.scrubbed
    pendingFailureReasons := w.pendingFailureReasons.erase podId }

/-- The pod of a start command is tracked; the sums are those of machine integers. -/
def Worker.track (w : Worker) (pod : TrackedPod) : Worker :=
  { w with
    pods := w.pods.insert pod.podId pod
    gpuAllocated := (w.gpuAllocated + pod.gpuCount) % 2 ^ 8
    cpuAllocatedMillicores := (w.cpuAllocatedMillicores + pod.cpuMillicores) % 2 ^ 32
    memoryAllocatedMegabytes := (w.memoryAllocatedMegabytes + pod.memoryMegabytes) % 2 ^ 32 }

inductive Change (now : ℕ) (w : Worker) : Worker → Prop
  | moved {podId : ℕ} {pod pod' : TrackedPod} (h : w.pods.lookup podId = some pod)
    (hmove : Move now pod pod') : Change now w (w.setPod podId pod')
  | tracked (cmd : StartPodCmd) (envVars : List (String × String)) (auth : Option ImagePullAuth)
    (hfresh : w.pods.lookup cmd.podId = none) (hroom : w.refusal cmd = none) :
    Change now w (w.track (cmd.tracked envVars auth now))
  | failing {podId : ℕ} {pod : TrackedPod} (h : w.pods.lookup podId = some pod)
    (hs : pod.state.stoppable) (reason : String) : Change now w (w.failing podId pod reason now)
  | retired {podId : ℕ} {pod : TrackedPod} (h : w.pods.lookup podId = some pod)
    (hs : pod.state.terminal = false) (hh : pod.handle = none) (state : TrackedPodState)
    (ht : state.terminal) (tick : ℕ) :
    Change now w (w.retire podId
      { pod with state := state, stateChangedAt := now, lifecycleRetryAfterTick := tick })
  | forgotten {podId : ℕ} {pod : TrackedPod} (h : w.pods.lookup podId = some pod)
    (ht : pod.state.terminal) : Change now w (w.forget podId)
  | beat (registered : Bool) {tick : ℕ} (htick : tick = w.lastHeartbeatTick ∨ tick = now) :
    Change now w { w with registered := registered, lastHeartbeatTick := tick }

abbrev Changes (now : ℕ) : Worker → Worker → Prop := Relation.ReflTransGen (Change now)

/-- What holds of the table between the worker's functions. -/
structure Worker.Orderly (w : Worker) : Prop where
  named : ∀ podId pod, w.pods.lookup podId = some pod → pod.podId = podId
  fit : ∀ podId pod, w.pods.lookup podId = some pod → pod.Fit
  pending : ∀ podId, podId ∈ w.pendingFailureReasons →
    ∃ pod, w.pods.lookup podId = some pod ∧ pod.state = .stopping

/-- What holds of it while the clock stays below `2 ^ 63`. -/
structure Worker.Clocked (w : Worker) : Prop where
  probe : ∀ podId pod, w.pods.lookup podId = some pod →
    pod.lastProbeTick < 2 ^ 63 ∧ pod.probeIntervalMs = 10000
  beat : w.lastHeartbeatTick < 2 ^ 63

namespace Change

variable {now : ℕ} {w w' : Worker}

theorem orderly (h : Change now w w') (hw : w.Orderly) : w'.Orderly := by
  cases h with
  | @moved podId pod pod' hl hmove =>
    refine ⟨?_, ?_, ?_⟩
    · apply AList.forall_lookup_insert hw.named
      rw [hmove.same.podId]
      exact hw.named _ _ hl
    · exact AList.forall_lookup_insert hw.fit (hmove.fit (hw.fit _ _ hl))
    · intro id hid
      obtain ⟨p, hp, hs⟩ := hw.pending id hid
      by_cases heq : id = podId
      · subst heq
        cases hl.symm.trans hp
        exact ⟨pod', AList.lookup_insert _, hmove.stopping hs⟩
      · exact ⟨p, (AList.lookup_insert_ne heq).trans hp, hs⟩
  | tracked cmd envVars auth hfresh _ =>
    refine ⟨AList.forall_lookup_insert hw.named rfl, AList.forall_lookup_insert hw.fit rfl, ?_⟩
    intro id hid
    obtain ⟨p, hp, hs⟩ := hw.pending id hid
    have hne : id ≠ cmd.podId := by
      rintro rfl
      rw [hfresh] at hp
      contradiction
    exact ⟨p, (AList.lookup_insert_ne hne).trans hp, hs⟩
  | @failing podId pod hl hs reason =>
    have hname : pod.podId = podId := hw.named _ _ hl
    refine ⟨AList.forall_lookup_insert hw.named hname,
      AList.forall_lookup_insert hw.fit trivial, ?_⟩
    intro id hid
    by_cases heq : id = podId
    · subst heq
      exact ⟨_, AList.lookup_insert _, rfl⟩
    · obtain ⟨p, hp, hst⟩ := hw.pending id (((AList.mem_insert _).mp hid).resolve_left heq)
      exact ⟨p, (AList.lookup_insert_ne heq).trans hp, hst⟩
  | @retired podId pod hl hs hh state ht tick =>
    have hname : pod.podId = podId := hw.named _ _ hl
    refine ⟨AList.forall_lookup_insert hw.named hname, ?_, ?_⟩
    · apply AList.forall_lookup_insert hw.fit
      cases state <;> first | exact hh | contradiction
    · intro id hid
      obtain ⟨hne, hin⟩ := AList.mem_erase.mp hid
      obtain ⟨p, hp, hst⟩ := hw.pending id hin
      exact ⟨p, (AList.lookup_insert_ne hne).trans hp, hst⟩
  | @forgotten podId pod hl ht =>
    refine ⟨AList.forall_lookup_erase hw.named, AList.forall_lookup_erase hw.fit, ?_⟩
    intro id hid
    obtain ⟨p, hp, hst⟩ := hw.pending id hid
    have hne : id ≠ podId := by
      rintro rfl
      cases hl.symm.trans hp
      rw [hst] at ht
      contradiction
    exact ⟨p, (AList.lookup_erase_ne hne).trans hp, hst⟩
  | beat registered htick => exact ⟨hw.named, hw.fit, hw.pending⟩

theorem clocked (h : Change now w w') (hnow : now < 2 ^ 63) (hw : w.Clocked) : w'.Clocked := by
  cases h with
  | @moved podId pod pod' hl hmove =>
    refine ⟨AList.forall_lookup_insert hw.probe ?_, hw.beat⟩
    obtain ⟨hp, hi⟩ := hw.probe _ _ hl
    refine ⟨?_, hmove.same.probeIntervalMs.trans hi⟩
    obtain heq | heq := hmove.lastProbeTick
    · rwa [heq]
    · rwa [heq]
  | tracked cmd envVars auth _ _ => exact ⟨AList.forall_lookup_insert hw.probe ⟨hnow, rfl⟩, hw.beat⟩
  | failing hl _ _ =>
    have hp := hw.probe _ _ hl
    exact ⟨AList.forall_lookup_insert hw.probe hp, hw.beat⟩
  | retired hl _ _ _ _ _ =>
    have hp := hw.probe _ _ hl
    exact ⟨AList.forall_lookup_insert hw.probe hp, hw.beat⟩
  | forgotten _ _ => exact ⟨AList.forall_lookup_erase hw.probe, hw.beat⟩
  | beat registered htick =>
    refine ⟨hw.probe, ?_⟩
    obtain rfl | rfl := htick
    · exact hw.beat
    · exact hnow

end Change

theorem Changes.orderly {now : ℕ} {w w' : Worker} (h : Changes now w w') (hw : w.Orderly) :
    w'.Orderly := by
  induction h with
  | refl => exact hw
  | tail _ hstep ih => exact hstep.orderly ih

theorem Changes.clocked {now : ℕ} {w w' : Worker} (h : Changes now w w') (hnow : now < 2 ^ 63)
    (hw : w.Clocked) : w'.Clocked := by
  induction h with
  | refl => exact hw
  | tail _ hstep ih => exact hstep.clocked hnow ih

/-! ### The sums -/

inductive Resource where
  | gpu | cpu | memory

namespace Resource

def bits : Resource → ℕ
  | .gpu => 8
  | .cpu | .memory => 32

def request : Resource → TrackedPod → ℕ
  | .gpu => TrackedPod.gpuCount
  | .cpu => TrackedPod.cpuMillicores
  | .memory => TrackedPod.memoryMegabytes

def asked : Resource → StartPodCmd → ℕ
  | .gpu => StartPodCmd.gpuCount
  | .cpu => StartPodCmd.cpuMillicores
  | .memory => StartPodCmd.memoryMegabytes

def total : Resource → Worker → ℕ
  | .gpu => Worker.gpuTotal
  | .cpu => Worker.cpuMillicores
  | .memory => Worker.memoryMegabytes

def allocated : Resource → Worker → ℕ
  | .gpu => Worker.gpuAllocated
  | .cpu => Worker.cpuAllocatedMillicores
  | .memory => Worker.memoryAllocatedMegabytes

end Resource

/-- The sum of a request over the pods that are not at their end. -/
def Worker.requested (w : Worker) (r : Resource) : ℕ :=
  ((w.trackedPods.filter fun pod => !pod.state.terminal).map r.request).sum

/-- Every sum is exact and within its total. -/
def Worker.Accounted (w : Worker) : Prop :=
  ∀ r : Resource, r.allocated w = w.requested r ∧ r.allocated w ≤ r.total w

/-- The totals are below the largest values of their types. -/
def Worker.Moderate (w : Worker) : Prop := ∀ r : Resource, r.total w < 2 ^ r.bits - 1

/-- What is held for a pod. -/
def Resource.held (r : Resource) (pod : TrackedPod) : ℕ :=
  if pod.state.terminal then 0 else r.request pod

theorem Resource.held_eq {r : Resource} {pod : TrackedPod} (h : pod.state.terminal = false) :
    r.held pod = r.request pod := by
  rw [held, h]
  rfl

theorem Resource.held_terminal {r : Resource} {pod : TrackedPod} (h : pod.state.terminal) :
    r.held pod = 0 := if_pos h

theorem TrackedPod.Same.request {pod pod' : TrackedPod} (h : pod.Same pod') (r : Resource) :
    r.request pod' = r.request pod := by
  cases r with
  | gpu => exact h.gpuCount
  | cpu => exact h.cpuMillicores
  | memory => exact h.memoryMegabytes

namespace Worker

variable {w w' : Worker}

theorem requested_eq_total (w : Worker) (r : Resource) :
    w.requested r = w.pods.total r.held := by
  unfold requested trackedPods AList.total
  induction w.pods.entries with
  | nil => rfl
  | cons e entries ih =>
    simp only [List.map_cons, List.filter_cons, List.sum_cons, ← ih]
    cases h : e.2.state.terminal <;> simp [Resource.held, h]

theorem requested_insert {podId : ℕ} {pod pod' : TrackedPod}
    (hpods : w'.pods = w.pods.insert podId pod') (hl : w.pods.lookup podId = some pod)
    (r : Resource) : w'.requested r + r.held pod = w.requested r + r.held pod' := by
  rw [requested_eq_total, requested_eq_total, hpods]
  exact AList.total_insert_of_lookup _ hl

theorem requested_kept {podId : ℕ} {pod pod' : TrackedPod}
    (hpods : w'.pods = w.pods.insert podId pod') (hl : w.pods.lookup podId = some pod)
    (r : Resource) (hheld : r.held pod' = r.held pod) : w'.requested r = w.requested r := by
  have := requested_insert hpods hl r
  omega

theorem refusal_none {cmd : StartPodCmd} (h : w.refusal cmd = none) (r : Resource) :
    ¬ r.total w < saturatingAdd r.bits (r.allocated w) (r.asked cmd) := by
  unfold refusal at h
  split_ifs at h with _ hg hc hm
  cases r with
  | gpu => exact hg
  | cpu => exact hc
  | memory => exact hm

end Worker

theorem saturatingAdd_fits {bits a b total : ℕ} (htop : total < 2 ^ bits - 1)
    (h : ¬ total < saturatingAdd bits a b) : a + b ≤ total ∧ (a + b) % 2 ^ bits = a + b := by
  unfold saturatingAdd at h
  have hle : a + b ≤ total := by omega
  exact ⟨hle, Nat.mod_eq_of_lt (by omega)⟩

namespace Change

variable {now : ℕ} {w w' : Worker}

theorem total (h : Change now w w') (r : Resource) : r.total w' = r.total w := by
  cases h <;> cases r <;> rfl

theorem accounted (h : Change now w w') (hm : w.Moderate) (hw : w.Accounted) : w'.Accounted := by
  intro r
  obtain ⟨hsum, hle⟩ := hw r
  rw [h.total r]
  cases h with
  | @moved podId pod pod' hl hmove =>
    have hheld : r.held pod' = r.held pod := by
      rw [Resource.held_eq hmove.active.1, Resource.held_eq hmove.active.2]
      exact hmove.same.request r
    rw [Worker.requested_kept rfl hl r hheld]
    cases r <;> exact ⟨hsum, hle⟩
  | tracked cmd envVars auth hfresh hroom =>
    -- The check before the addition leaves room below the top of the type.
    obtain ⟨hfits, hmod⟩ := saturatingAdd_fits (hm r) (Worker.refusal_none hroom r)
    have hreq : (w.track (cmd.tracked envVars auth now)).requested r =
        r.asked cmd + w.requested r := by
      rw [Worker.requested_eq_total, Worker.requested_eq_total]
      refine (AList.total_insert_of_notMem _ (AList.lookup_eq_none.mp hfresh)).trans ?_
      cases r <;> rfl
    have halloc : r.allocated (w.track (cmd.tracked envVars auth now)) =
        r.allocated w + r.asked cmd := by
      rw [← hmod]
      cases r <;> rfl
    omega
  | @failing podId pod hl hs reason =>
    have hheld : r.held (pod.failing now) = r.held pod := by
      rw [Resource.held_eq (TrackedPodState.stoppable_active hs)]
      cases r <;> rfl
    rw [Worker.requested_kept rfl hl r hheld]
    cases r <;> exact ⟨hsum, hle⟩
  | @retired podId pod hl hs hh state ht tick =>
    generalize hp : ({ pod with state := state, stateChangedAt := now,
                                lifecycleRetryAfterTick := tick } : TrackedPod) = pod'
    have hreq : (w.retire podId pod').requested r + r.held pod = w.requested r + r.held pod'.scrubbed :=
      Worker.requested_insert rfl hl r
    rw [Resource.held_eq hs, Resource.held_terminal (by rw [← hp]; exact ht)] at hreq
    have halloc : r.allocated (w.retire podId pod') = r.allocated w - r.request pod := by
      rw [← hp]
      cases r <;> rfl
    omega
  | @forgotten podId pod hl ht =>
    have hreq : (w.forget podId).requested r = w.requested r := by
      rw [Worker.requested_eq_total, Worker.requested_eq_total]
      have := AList.total_erase r.held hl
      rw [Resource.held_terminal ht, Nat.zero_add] at this
      exact this
    rw [hreq]
    cases r <;> exact ⟨hsum, hle⟩
  | beat registered htick => cases r <;> exact ⟨hsum, hle⟩

end Change

end Hivemind.Agent
