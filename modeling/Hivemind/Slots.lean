import Hivemind.Capacity
import Hivemind.Wire

/-! What the tables and `committedDigest` depend on. A slot is counted before it is written in one
place only; where that does not happen, replicas that executed the same commands agree whatever
their memory held before. -/
namespace Hivemind

open Wire Codec

/-! ### The digest -/

namespace CommittedDigest

def addByte (value : UInt64) (byte : UInt8) : UInt64 := (value ^^^ byte.toUInt64) * 0x100000001b3

/-- The bytes `addValue` feeds for a node: its fields in order. -/
def node (n : Node) : List UInt8 :=
  u64.write n.id ++ n.name.toList ++ u32.write n.cpuMillicores ++ u32.write n.memoryMegabytes ++
    gpuType.write n.gpuType ++ u8.write n.gpuCount ++ n.provider.toList ++ n.region.toList ++
    nodeStatus.write n.status ++ u32.write n.allocatableCpu ++ u32.write n.allocatableMem ++
    u8.write n.allocatableGpu ++ flag.write n.active

/-- `addDeployment`: every field but `last_request_tick`. -/
def deployment (d : Deployment) : List UInt8 :=
  u64.write d.id ++ d.name.toList ++ d.namespaceName.toList ++ d.image.toList ++
    d.entrypoint.toList ++ u16.write d.port ++ u32.write d.replicas ++ u32.write d.cpuMillicores ++
    u32.write d.memoryMegabytes ++ gpuType.write d.gpuType ++ u8.write d.gpuCount ++
    u32.write d.minReplicas ++ u32.write d.maxReplicas ++ u64.write d.scaleToZeroAfterMs ++
    u32.write d.targetQueueDepth ++ probeConfig.write d.liveness ++ probeConfig.write d.readiness ++
    u32.write d.startupTimeoutMs ++ d.juicefsPath.toList ++ d.envVars.flatMap envEntry.write ++
    u8.write d.envCount ++ d.imagePullRegistry.toList ++ d.imagePullUsername.toList ++
    d.imagePullPassword.toList ++ u8.write d.imagePullPasswordIsSecret ++
    d.trafficRules.flatMap trafficRule.write ++ u8.write d.trafficRuleCount ++ u32.write d.version ++
    d.previousImage.toList ++ u32.write d.previousVersion ++ flag.write d.paused ++
    u32.write d.readyReplicas ++ flag.write d.active

def pod (p : Pod) : List UInt8 :=
  u64.write p.id ++ u64.write p.deploymentId ++ u64.write p.nodeId ++ p.name.toList ++
    p.namespaceName.toList ++ podPhase.write p.phase ++ u32.write p.cpuMillicores ++
    u32.write p.memoryMegabytes ++ gpuType.write p.gpuType ++ u8.write p.gpuCount ++
    u32.write p.deploymentVersion ++ flag.write p.active

def killswitch (k : Killswitch) : List UInt8 :=
  u64.write k.nodeId ++ u64.write k.deploymentId ++ flag.write k.active

end CommittedDigest

namespace StateMachine

open CommittedDigest

variable {sm sm' sm₁ : StateMachine} {cmd : Command}

/-- The digest of the generator and of the tables with their counts. -/
def committedDigest (sm : StateMachine) : UInt64 :=
  (u64.write sm.prng.state.toNat ++
    u64.write sm.nodes.length ++ sm.nodes.flatMap node ++
    u64.write sm.deployments.length ++ sm.deployments.flatMap deployment ++
    u64.write sm.pods.length ++ sm.pods.flatMap pod ++
    u64.write sm.killswitches.length ++ sm.killswitches.flatMap killswitch).foldl
      addByte 0xcbf29ce484222325

theorem committedDigest_replicated : sm.replicated.committedDigest = sm.committedDigest := by
  have hdeps : (sm.deployments.map Deployment.eraseTick).flatMap deployment =
      sm.deployments.flatMap deployment := by
    rw [List.flatMap_map]
    rfl
  unfold committedDigest replicated forget eraseTicks
  rw [List.length_map, hdeps]

/-! ### What a replica's state machine goes through -/

/-- A committed command, or the router's note of a request. -/
inductive Event where
  | commit (cmd : Command)
  | route (deploymentId now : ℕ)

def play : StateMachine → List Event → Option StateMachine
  | sm, [] => some sm
  | sm, .commit cmd :: es => (sm.apply cmd).bind fun x => play x.1 es
  | sm, .route deploymentId now :: es => play (sm.touchDeployment deploymentId now) es

/-- The committed commands in order. -/
def committed : List Event → List Command
  | [] => []
  | .commit cmd :: es => cmd :: committed es
  | .route _ _ :: es => committed es

/-- The command wastes no pod slot. -/
def spares (sm : StateMachine) (cmd : Command) : Bool := !sm.wastes cmd

theorem play_replicated {es : List Event} (h : sm.replicated = sm'.replicated)
    (hok : Replay.along apply spares sm' (committed es) = true) :
    (sm.play es).map replicated =
      (Replay.run apply sm' (committed es)).map fun x => x.1.replicated := by
  induction es generalizing sm sm' with
  | nil => exact congrArg some h
  | cons e es ih =>
    cases e with
    | route deploymentId now =>
      apply ih _ hok
      rw [replicated_of_ticks (touchDeployment_erase deploymentId now), h]
    | commit cmd =>
      rw [committed, Replay.along, Bool.and_eq_true] at hok
      have hspares : sm'.wastes cmd = false := by simpa [spares] using hok.1
      have halike := apply_alike h.symm hspares
      rw [play, committed, Replay.run]
      cases happly : sm'.apply cmd with
      | none =>
        rw [happly] at halike
        rw [Option.map_eq_none_iff.mp halike.symm]
        rfl
      | some x =>
        rw [happly] at halike hok
        obtain ⟨y, hy, hxy⟩ := Option.map_eq_some_iff.mp halike.symm
        have hstates : y.1.replicated = x.1.replicated := congrArg Prod.fst hxy
        have hrest := ih hstates hok.2
        rw [hy, Option.bind_some, Option.bind_some, hrest, Option.map_map]
        rfl

theorem apply_spares (s t : StateMachine) (cmd : Command) (h : s.replicated = t.replicated)
    (hok : s.spares cmd = true) :
    (s.apply cmd).map (Prod.map replicated id) = (t.apply cmd).map (Prod.map replicated id) := by
  apply apply_alike h
  simpa [spares] using hok

theorem run_alike {cmds : List Command} (h : sm.replicated = sm'.replicated)
    (hok : Replay.along apply spares sm cmds = true) :
    (Replay.run apply sm cmds).map (Prod.map replicated id) =
      (Replay.run apply sm' cmds).map (Prod.map replicated id) :=
  Replay.run_congr apply_spares h hok

theorem along_alike {cmds : List Command} (h : sm.replicated = sm'.replicated) :
    Replay.along apply spares sm cmds = Replay.along apply spares sm' cmds :=
  Replay.along_congr (fun _ _ cmd hst => congrArg not (wastes_congr hst cmd)) apply_spares h

/-! ### What happens where a slot is wasted -/

theorem apply_podMemory {r : Result} (hspares : sm.wastes cmd = false)
    (h : sm.apply cmd = some (sm₁, r)) : sm₁.podMemory = sm.podMemory := by
  have hkept : (sm.forget (fun _ => sm.podMemory) id).apply cmd =
      (sm.apply cmd).map (forgotten (fun _ => sm.podMemory) id) := apply_forget (.inr hspares)
  have hsame : (sm.forget (fun mem => mem) id).apply cmd =
      (sm.apply cmd).map (forgotten (fun mem => mem) id) := apply_forget (.inr hspares)
  rw [h, Option.map_some] at hkept hsame
  have heq := Option.some.inj (hsame.symm.trans hkept)
  exact congrArg (fun x => x.1.podMemory) heq

theorem append_of_not_serves {id : ℕ} (ordinal : ℕ) (hno : ¬ sm.Serves id) :
    sm.appendPodForDeployment id ordinal =
      (false, if sm.findInactivePodIndex.isNone = true ∧ sm.pods.length < maxPods then
        { sm with pods := sm.pods ++ [sm.podMemory sm.pods.length] } else sm) := by
  have hinactive : ∀ dep, sm.findDeployment id = some dep → dep.active = false := by
    intro dep hdep
    by_contra hactive
    exact hno ⟨dep, hdep, by simpa using hactive⟩
  unfold appendPodForDeployment claimPodSlot
  cases hfree : sm.findInactivePodIndex with
  | some i =>
    dsimp only
    cases hdep : sm.findDeployment id with
    | none => rfl
    | some dep =>
      dsimp only
      rw [hinactive dep hdep]
      rfl
  | none =>
    by_cases hroom : sm.pods.length ≥ maxPods
    · rw [if_pos hroom, if_neg (by omega)]
    · rw [if_neg hroom, if_pos ⟨rfl, not_le.mp hroom⟩]
      have hsame : findDeployment { sm with pods := sm.pods ++ [sm.podMemory sm.pods.length] } id =
          sm.findDeployment id := rfl
      dsimp only
      rw [hsame]
      cases hdep : sm.findDeployment id with
      | none => rfl
      | some dep =>
        dsimp only
        rw [hinactive dep hdep]
        rfl

theorem apply_of_wastes (h : sm.wastes cmd = true) :
    ∃ sm₁ r, sm.apply cmd = some (sm₁, r) ∧
      sm₁.pods = sm.pods ++ [sm.podMemory sm.pods.length] := by
  cases cmd with
  | scaleDeployment id desired =>
    rw [wastes, Option.any_eq_true] at h
    obtain ⟨dep, hdep, h⟩ := h
    simp only [Bool.and_eq_true, Bool.not_eq_true', decide_eq_true_eq, Option.isNone_iff_eq_none] at h
    obtain ⟨⟨⟨hinactive, hup⟩, hnone⟩, hroom⟩ := h
    obtain ⟨j, hidx, hget⟩ := findIdx?_of_find? hdep
    have hidx' : sm.findDeploymentIndex id = some j := hidx
    have hno : ¬ (sm.setDeployment j fun d => { d with replicas := desired }).Serves id := by
      have hid : (dep.id == id) = true := by
        have hfound := List.find?_some hdep
        exact hfound
      have hset : (sm.deployments.set j { dep with replicas := desired }).find? (fun d => d.id == id) =
          some { dep with replicas := desired } := find?_set_of_findIdx? hidx hid
      rintro ⟨d, hd, hactive⟩
      rw [findDeployment, setDeployment, modify_eq_set _ hget, hset] at hd
      cases hd
      rw [hinactive] at hactive
      cases hactive
    obtain ⟨k, hk⟩ : ∃ k, desired - dep.replicas = k + 1 := ⟨desired - dep.replicas - 1, by omega⟩
    have hclaim : (sm.setDeployment j fun d =>
        { d with replicas := desired }).findInactivePodIndex.isNone = true ∧
        (sm.setDeployment j fun d => { d with replicas := desired }).pods.length < maxPods :=
      ⟨Option.isNone_iff_eq_none.mpr hnone, hroom⟩
    have hscale : sm.handleScaleDeployment id desired =
        (appendPods id dep.replicas (k + 1)
          (sm.setDeployment j fun d => { d with replicas := desired }), .ok id) := by
      rw [handleScaleDeployment, hidx', hdep, ← hk]
      exact if_pos hup
    refine ⟨_, _, congrArg some hscale, ?_⟩
    rw [appendPods, append_of_not_serves _ hno, if_pos hclaim]
    rfl
  | _ => cases h

/-- Memories that differ everywhere show where a slot is wasted. -/
theorem run_differs {cmds : List Command} (h : sm.replicated = sm'.replicated)
    (hmem : ∀ i, sm.podMemory i ≠ sm'.podMemory i)
    (hwaste : Replay.along apply spares sm cmds = false) :
    ∃ n, (Replay.run apply sm' (cmds.take n)).map (Prod.map replicated id) ≠
      (Replay.run apply sm (cmds.take n)).map (Prod.map replicated id) := by
  induction cmds generalizing sm sm' with
  | nil => cases hwaste
  | cons cmd cmds ih =>
    have hpods : sm.replicated.pods = sm'.replicated.pods := congrArg StateMachine.pods h
    change sm.pods = sm'.pods at hpods
    by_cases hw : sm.wastes cmd = true
    · obtain ⟨s, r, hs, hspods⟩ := apply_of_wastes hw
      obtain ⟨t, r', ht, htpods⟩ := apply_of_wastes ((wastes_congr h cmd).symm.trans hw)
      refine ⟨1, fun heq => hmem sm.pods.length ?_⟩
      have hrun : Replay.run apply sm [cmd] = some (s, [r]) :=
        Replay.run_cons.mpr ⟨s, r, [], hs, rfl, rfl⟩
      have hrun' : Replay.run apply sm' [cmd] = some (t, [r']) :=
        Replay.run_cons.mpr ⟨t, r', [], ht, rfl, rfl⟩
      rw [List.take_succ_cons, List.take_zero, hrun, hrun'] at heq
      have hlast : t.pods = s.pods :=
        congrArg (fun x : StateMachine × List Result => x.1.pods) (Option.some.inj heq)
      rw [hspods, htpods, ← hpods] at hlast
      have hsingle := List.append_cancel_left hlast
      exact (List.cons.inj hsingle).1.symm
    · have hspares : sm.wastes cmd = false := by simpa using hw
      rw [Replay.along, spares, hspares, Bool.not_false, Bool.true_and] at hwaste
      cases hs : sm.apply cmd with
      | none =>
        rw [hs] at hwaste
        cases hwaste
      | some x =>
        obtain ⟨s, r⟩ := x
        have halike := apply_alike h hspares
        rw [hs] at halike hwaste
        obtain ⟨⟨t, r'⟩, ht, htr⟩ := Option.map_eq_some_iff.mp halike.symm
        have hst : s.replicated = t.replicated := (congrArg Prod.fst htr).symm
        have hmem' : ∀ i, s.podMemory i ≠ t.podMemory i := by
          rw [apply_podMemory hspares hs,
            apply_podMemory ((wastes_congr h cmd).symm.trans hspares) ht]
          exact hmem
        obtain ⟨n, hn⟩ := ih hst hmem' hwaste
        refine ⟨n + 1, fun heq => hn ?_⟩
        have hcons : ∀ {sm s : StateMachine} {r : Result}, sm.apply cmd = some (s, r) →
            (Replay.run apply sm (cmd :: cmds.take n)).map (Prod.map replicated id) =
              ((Replay.run apply s (cmds.take n)).map (Prod.map replicated id)).map
                (Prod.map id (r :: ·)) := by
          intro sm s r hs
          rw [Replay.run, hs, Option.bind_some, Option.map_map, Option.map_map]
          rfl
        rw [List.take_succ_cons, hcons hs, hcons ht] at heq
        have hr : r' = r := congrArg Prod.snd htr
        rw [hr] at heq
        apply Option.map_injective _ heq
        rintro ⟨a, b⟩ ⟨c, d⟩ hab
        cases hab
        rfl

/-! ### Counted slots -/

/-- An append that fails leaves the count as it was where it finds a free slot or the table full. -/
theorem failed_append_counts {id ordinal : ℕ}
    (h : (sm.appendPodForDeployment id ordinal).1 = false) :
    (sm.appendPodForDeployment id ordinal).2.pods.length = sm.pods.length ↔
      sm.findInactivePodIndex.isSome = true ∨ maxPods ≤ sm.pods.length := by
  by_cases hserves : sm.Serves id
  · -- for an active deployment it only fails when the table is full
    obtain ⟨dep, hdep, hactive⟩ := hserves
    unfold appendPodForDeployment claimPodSlot at h ⊢
    cases hfree : sm.findInactivePodIndex with
    | some i =>
      rw [hfree] at h
      dsimp only at h
      rw [hdep] at h
      simp [hactive] at h
    | none =>
      rw [hfree] at h
      by_cases hroom : sm.pods.length ≥ maxPods
      · simp [hroom]
      · rw [if_neg hroom] at h
        have hfind : findDeployment { sm with pods := sm.pods ++ [sm.podMemory sm.pods.length] } id =
            some dep := hdep
        dsimp only at h
        rw [hfind] at h
        simp [hactive] at h
  · rw [append_of_not_serves ordinal hserves]
    by_cases hclaim : sm.findInactivePodIndex.isNone = true ∧ sm.pods.length < maxPods
    · obtain ⟨hnone, hroom⟩ := hclaim
      simp [hnone, hroom]
    · rw [if_neg hclaim]
      have hcases : sm.findInactivePodIndex.isSome = true ∨ maxPods ≤ sm.pods.length := by
        by_contra hnot
        rw [not_or, Bool.not_eq_true, Option.isSome_eq_false_iff, not_le] at hnot
        exact hclaim hnot
      simp [hcases]

/-- Every counted slot has been written, so that what replicas show depends on the commands and
the seed only, exactly as long as no command wastes a pod slot: the tables after each command, and
their digest whatever requests were routed in between. -/
theorem counted_slots_written (sm : StateMachine) (seed : UInt64) (cmds : List Command) :
    (Replay.along apply spares (sm.initInPlace seed) cmds = true ↔
      ∀ (n : ℕ) (sm' : StateMachine),
        (Replay.run apply (sm'.initInPlace seed) (cmds.take n)).map (Prod.map replicated id) =
          (Replay.run apply (sm.initInPlace seed) (cmds.take n)).map (Prod.map replicated id) ∧
        ∀ es es' : List Event, committed es = cmds.take n → committed es' = cmds.take n →
          ((sm'.initInPlace seed).play es).map committedDigest =
            ((sm.initInPlace seed).play es').map committedDigest) ∧
    ∀ (sm : StateMachine) (id ordinal : ℕ), (sm.appendPodForDeployment id ordinal).1 = false →
      ((sm.appendPodForDeployment id ordinal).2.pods.length = sm.pods.length ↔
        sm.findInactivePodIndex.isSome = true ∨ maxPods ≤ sm.pods.length) := by
  refine ⟨⟨?_, ?_⟩, fun sm id ordinal => failed_append_counts⟩
  · intro hok n sm'
    have hok' := Replay.along_take hok n
    have hsame : (sm.initInPlace seed).replicated = (sm'.initInPlace seed).replicated :=
      replicated_initInPlace sm sm' seed
    refine ⟨(run_alike hsame hok').symm, fun es es' hes hes' => ?_⟩
    have hplay : ((sm'.initInPlace seed).play es).map replicated =
        ((sm.initInPlace seed).play es').map replicated := by
      rw [play_replicated hsame.symm (hes ▸ hok'), play_replicated rfl (hes' ▸ hok'), hes, hes']
    have hdigest : ∀ x : Option StateMachine,
        x.map committedDigest = (x.map replicated).map committedDigest := by
      intro x
      cases x with
      | none => rfl
      | some sm => exact congrArg some committedDigest_replicated.symm
    rw [hdigest, hplay, ← hdigest]
  · intro hall
    by_contra hwaste
    -- a memory that differs from this one everywhere
    have hother : ∃ sm' : StateMachine, ∀ i, (sm.initInPlace seed).podMemory i ≠
        (sm'.initInPlace seed).podMemory i := by
      refine ⟨{ blank with podMemory := fun i =>
        { emptyPod with id := ((sm.initInPlace seed).podMemory i).id + 1 } }, fun i heq => ?_⟩
      have hid := congrArg Pod.id heq
      simp [initInPlace, blank] at hid
    obtain ⟨sm', hmem⟩ := hother
    obtain ⟨n, hn⟩ := run_differs (replicated_initInPlace sm sm' seed) hmem (by simpa using hwaste)
    exact hn (hall n sm').1

/-- A deleted deployment is scaled up on two replicas whose memory held different pods: the
append fails, a slot is counted all the same, and it shows what the memory held. -/
theorem wasted_slot_unwritten :
    let cmds : List Command :=
      [.createDeployment { replicas := 0 }, .deleteDeployment (nthId 1), .scaleDeployment (nthId 1) 1]
    let pods (sm : StateMachine) : Option (List ℕ) :=
      (Replay.run apply (sm.initInPlace 1) cmds).map fun x => x.1.pods.map Pod.id
    pods blank = some [0] ∧
    pods { blank with podMemory := fun _ => { emptyPod with id := 7 } } = some [7] ∧
    ∃ sm id, sm.pods = [] ∧ (appendPodForDeployment sm id 0).1 = false ∧
      (appendPodForDeployment sm id 0).2.pods.length = 1 := by
  refine ⟨by decide +kernel, by decide +kernel, blank, 0, rfl, by decide, by decide⟩

end StateMachine

end Hivemind
