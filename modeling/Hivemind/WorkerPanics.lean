import Hivemind.WorkerAccounts

/-! When a tick of the worker returns. Two things can stop the process: an addition in
`handle_start_pod` whose saturating check passed because the total is the largest value of its
type, and the walk of `drive_pods`, which indexes the table by ids collected before a failing pod
made it forget old tombstones. Without them every tick returns. -/
namespace Hivemind.Agent

open Job

variable {σ : Type} {env : Env σ} {now : ℕ} {w : Worker}

/-- There is room for a tombstone of every pod that the walk may bring to its end. -/
def Worker.Spacious (w : Worker) (now : ℕ) : Prop :=
  w.terminalPods.length + w.trackedPods.countP (TrackedPod.retirable now) ≤ maxTerminalTombstones

instance (w : Worker) (now : ℕ) : Decidable (w.Spacious now) :=
  inferInstanceAs (Decidable (_ ≤ _))

/-- Each message finds the sums low enough for its additions, and the walk that follows finds room
for its tombstones. -/
def Calm (env : Env σ) (now : ℕ) : List ControlMessage → Scene σ → Prop
  | [], s => s.worker.Spacious now
  | msg :: inbox, s => s.worker.Fits msg ∧
    ∀ s', (do observe (.received (some msg)); handleMessage env now msg) s = .ok ((), s') →
      Calm env now inbox s'

def Event.Calm (env : Env σ) (s : Scene σ) : Event → Prop
  | .tick now inbox => ∀ s', register now s = .ok ((), s') → Agent.Calm env now inbox s'
  | .connectionLost => True

/-- Every event of the run is calm in the state it meets. -/
def CalmRun (env : Env σ) : List Event → Scene σ → Prop
  | [], _ => True
  | event :: events, s => event.Calm env s ∧
    ∀ s', handleEvent env event s = .ok ((), s') → CalmRun env events s'

/-- The clock of an event. -/
def Event.Early : Event → Prop
  | .tick now _ => now < 2 ^ 63
  | .connectionLost => True

theorem Worker.countP_keys (w : Worker) (now : ℕ) :
    (w.pods.keys.insertionSort (· ≤ ·)).countP (w.retires now) =
      w.trackedPods.countP (TrackedPod.retirable now) := by
  rw [(List.perm_insertionSort _ _).countP_eq]
  unfold AList.keys List.keys trackedPods
  rw [List.countP_map, List.countP_map]
  apply List.countP_congr
  intro e he
  have hl : w.pods.lookup e.1 = some e.2 := (List.mem_dlookup_iff w.pods.nodupKeys).mpr he
  simp only [Function.comp_apply, retires, hl, Option.any_some]

theorem drivePods_returns {tr : List Obs} (hnow : now < 2 ^ 63) (hw : w.Orderly)
    (hclock : w.Clocked) (hroom : w.Spacious now) :
    Does (drivePods env now) w tr (fun _ w' _ => Changes now w w') (fun _ => False) := by
  have hreturns : Does (walk env now (w.pods.keys.insertionSort (· ≤ ·))) w tr
      (fun _ _ _ => True) (fun _ => False) := by
    refine walk_returns hnow hw hclock w.podIds_nodup ?_ ?_
    · intro podId hmem
      exact (List.mem_insertionSort _).mp hmem
    · rw [w.countP_keys]
      exact hroom
  have hwalk := (hreturns.and (walk_does hw w.podIds_nodup)).mono (fun _ _ _ h => h.2)
    fun _ he => he.1
  exact (drivePods_does hwalk hw).weaken fun _ _ _ h => Deeds.changes h

/-- Between two functions of the worker. -/
structure Worker.Sound (w : Worker) : Prop where
  orderly : w.Orderly
  clocked : w.Clocked

theorem Changes.sound {w' : Worker} (h : Changes now w w') (hnow : now < 2 ^ 63) (hw : w.Sound) :
    w'.Sound := ⟨h.orderly hw.orderly, h.clocked hnow hw.clocked⟩

theorem receive_returns (hnow : now < 2 ^ 63) {inbox : List ControlMessage} {s : Scene σ}
    (hs : s.worker.Sound) (hcalm : Calm env now inbox s) :
    ∃ s', receive env now inbox s = .ok ((), s') ∧ s'.worker.Sound ∧
      s'.worker.Spacious now := by
  induction inbox generalizing s with
  | nil => exact ⟨_, rfl, hs, hcalm⟩
  | cons msg inbox ih =>
    obtain ⟨hfits, hrest⟩ := hcalm
    have hmsg : Does (do observe (.received (some msg)); handleMessage env now msg) s.worker
        s.trace (fun _ w' _ => Changes now s.worker w') (fun _ => False) := by
      apply Does.observe
      exact (handleMessage_does hs.orderly msg).mono (fun _ _ _ h => h.changes)
        fun _ he => he.2 hfits
    obtain ⟨_, s₁, hok, hch⟩ := Fallible.returns (hmsg.ends s.outside)
    obtain ⟨s₂, hok₂, h₂⟩ := ih (hch.sound hnow hs) (hrest s₁ hok)
    have hloop : receive env now (msg :: inbox) =
        (do observe (.received (some msg)); handleMessage env now msg) >>=
          fun _ => receive env now inbox := (bind_assoc _ _ _).symm
    refine ⟨s₂, ?_, h₂⟩
    rw [hloop]
    exact (Fallible.bind_of_returns hok).trans hok₂

theorem tick_returns (hnow : now < 2 ^ 63) {inbox : List ControlMessage} {s : Scene σ}
    (hs : s.worker.Sound) (hcalm : (Event.tick now inbox).Calm env s) :
    ∃ s', tick env now inbox s = .ok ((), s') ∧ s'.worker.Sound := by
  have hregister : Does (register now : Job σ Unit) s.worker s.trace
      (fun _ w' _ => Changes now s.worker w') (fun _ => False) :=
    register_does.weaken fun _ _ _ h => h.changes
  obtain ⟨_, s₁, hok₁, hch₁⟩ := Fallible.returns (hregister.ends s.outside)
  have hs₁ := hch₁.sound hnow hs
  obtain ⟨s₂, hok₂, hs₂, hroom⟩ := receive_returns hnow hs₁ (hcalm s₁ hok₁)
  have hdrive : Does (drivePods env now) s₂.worker s₂.trace
      (fun _ w' _ => Changes now s₂.worker w') (fun _ => False) :=
    drivePods_returns hnow hs₂.orderly hs₂.clocked hroom
  obtain ⟨_, s₃, hok₃, hch₃⟩ := Fallible.returns (hdrive.ends s₂.outside)
  have hs₃ := hch₃.sound hnow hs₂
  have hbeat : Does (heartbeat env now) s₃.worker s₃.trace
      (fun _ w' _ => Changes now s₃.worker w') (fun _ => False) :=
    heartbeat_does.mono (fun _ _ _ h => h.changes) fun _ he => he.2 hs₃.clocked
  obtain ⟨_, s₄, hok₄, hch₄⟩ := Fallible.returns (hbeat.ends s₃.outside)
  refine ⟨s₄, ?_, hch₄.sound hnow hs₃⟩
  unfold tick
  rw [Fallible.bind_of_returns hok₁, Fallible.bind_of_returns hok₂, Fallible.bind_of_returns hok₃]
  exact hok₄

theorem run_returns {events : List Event} {s : Scene σ} (hs : s.worker.Sound)
    (hclock : ∀ event ∈ events, event.Early) (hcalm : CalmRun env events s) :
    ∃ s', run env events s = .ok ((), s') := by
  induction events generalizing s with
  | nil => exact ⟨s, rfl⟩
  | cons event events ih =>
    obtain ⟨hearly, hlater⟩ := List.forall_mem_cons.mp hclock
    have hevent : ∃ s', handleEvent env event s = .ok ((), s') ∧ s'.worker.Sound := by
      cases event with
      | tick now inbox => exact tick_returns hearly hs hcalm.1
      | connectionLost =>
        exact ⟨_, rfl, ⟨hs.orderly.named, hs.orderly.fit, hs.orderly.pending⟩,
          ⟨hs.clocked.probe, hs.clocked.beat⟩⟩
    obtain ⟨s₁, hok, hs₁⟩ := hevent
    obtain ⟨s₂, hok₂⟩ := ih hs₁ hlater (hcalm.2 s₁ hok)
    exact ⟨s₂, (Fallible.bind_of_returns hok).trans hok₂⟩

/-- With room for the sums and for the tombstones, no tick panics: the run returns. -/
theorem worker_ticks_return (env : Env σ) (outside : σ) (nodeName : String) (gpuType : GpuType)
    (gpuTotal cpuMillicores memoryMegabytes lifecycleConcurrency : ℕ) (events : List Event)
    (hclock : ∀ event ∈ events, event.Early)
    (hcalm : CalmRun env events ⟨Worker.newWithLifecycleConcurrency nodeName gpuType gpuTotal
      cpuMillicores memoryMegabytes lifecycleConcurrency, [], outside⟩) :
    ∃ s, run env events ⟨Worker.newWithLifecycleConcurrency nodeName gpuType gpuTotal cpuMillicores
      memoryMegabytes lifecycleConcurrency, [], outside⟩ = .ok ((), s) := by
  refine run_returns ⟨Worker.new_orderly _ _ _ _ _ _, ?_⟩ hclock hcalm
  exact ⟨fun _ _ h => (nomatch h), Nat.two_pow_pos 63⟩

theorem worker_ticks_return_start :
    ∃ s, run obliging [.tick 0 [.startPod (startCommand 1 2 "")], .connectionLost]
      ⟨Worker.newWithLifecycleConcurrency "node" .none 4 0 0 4, [], ()⟩ = .ok ((), s) := by
  refine worker_ticks_return obliging () "node" .none 4 0 0 4 _ ?_
    ⟨?_, fun _ _ => ⟨trivial, fun _ _ => trivial⟩⟩
  · intro event hmem
    obtain rfl | hmem := List.mem_cons.mp hmem
    · exact Nat.two_pow_pos 63
    · cases List.mem_singleton.mp hmem
      exact trivial
  · intro s hregister
    refine ⟨?_, fun s' hstart => ?_⟩
    · intro r
      cases hregister
      cases r <;> exact .inl (by decide)
    · have hroom : (match (register 0 >>= fun _ => do
            observe (.received (some (.startPod (startCommand 1 2 ""))))
            handleMessage obliging 0 (.startPod (startCommand 1 2 "")))
            ⟨Worker.newWithLifecycleConcurrency "node" .none 4 0 0 4, [], ()⟩ with
          | .ok (_, s) => decide (s.worker.Spacious 0)
          | .error _ => false) = true := by decide +kernel
      rw [Fallible.bind_of_returns hregister, hstart] at hroom
      show s'.worker.Spacious 0
      exact of_decide_eq_true hroom

/-- With overflow checks, a second pod on a node whose 255 GPUs are all taken stops the process. -/
theorem worker_ticks_panic :
    ∃ events : List Event, (∀ event ∈ events, event.Early) ∧ run obliging events
      ⟨Worker.newWithLifecycleConcurrency "node" .none 255 0 0 4, [], ()⟩ = .error .overflow := by
  refine ⟨[.tick 0 [.startPod (startCommand 1 255 ""), .startPod (startCommand 2 1 "")]], ?_, ?_⟩
  · intro event hmem
    cases List.mem_singleton.mp hmem
    exact Nat.two_pow_pos 63
  · have hends : (match run obliging
          [.tick 0 [.startPod (startCommand 1 255 ""), .startPod (startCommand 2 1 "")]]
          ⟨Worker.newWithLifecycleConcurrency "node" .none 255 0 0 4, [], ()⟩ with
        | .ok _ => false
        | .error e => e = .overflow) = true := by decide +kernel
    split at hends
    · contradiction
    · next e herror => rw [herror, of_decide_eq_true hends]

end Hivemind.Agent
