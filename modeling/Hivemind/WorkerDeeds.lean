import Hivemind.WorkerSteps

/-! The changes of `WorkerSteps` together with what is seen of them: which request precedes a
change, which writes it takes and which report follows. A deed is such a piece of the worker's
history; the functions of the worker are shown in `WorkerRuns` and `WorkerDrive` to do nothing
else. -/
namespace Hivemind.Agent

def PodStatusReport.terminal : PodStatusReport → Bool
  | .stopped _ | .failed _ => true
  | _ => false

/-- The terminal reports about a pod in a message. -/
def WorkerMessage.ends (podId : ℕ) : WorkerMessage → List PodStatusReport
  | .podStatusEvent event =>
    if event.podId = podId ∧ event.status.terminal then [event.status] else []
  | _ => []

/-- A request that neither asks for a pod to be created nor has removed one. -/
def Call.inert : Call → Bool
  | ⟨.createPod _, _⟩ => false
  | ⟨.removePod _, .ok _⟩ => false
  | _ => true

/-- The runtime's word that a pod has exited. -/
def Call.seesExit : Call → Bool
  | ⟨.podStatus _, .ok (.stopped _)⟩ => true
  | _ => false

/-- The request that was just answered, if nothing has happened since. -/
def lastCall (tr : List Obs) : Option Call :=
  match tr.getLast? with
  | some (.called c) => some c
  | _ => none

theorem lastCall_append (tr : List Obs) (o : Obs) : lastCall (tr ++ [o]) =
    match o with
    | .called c => some c
    | _ => none := by
  unfold lastCall
  rw [List.getLast?_append_of_ne_nil _ (List.cons_ne_nil _ _), List.getLast?_singleton]
  cases o <;> rfl

/-! ### Moments -/

/-- The worker and its history, with what the running function still has to do. -/
structure Moment where
  worker : Worker
  trace : List Obs
  /-- The handles that the runtime has returned and no pod has been given yet. -/
  flights : List (ℕ × PodHandle)
  /-- The report about a pod that has come to its end. -/
  owed : Option (ℕ × PodStatusReport)
  /-- The message that is being handled. -/
  inHand : Option ControlMessage

namespace Moment

/-- No handle is on its way to this pod. -/
def Free (m : Moment) (podId : ℕ) : Prop := ∀ handle, (podId, handle) ∉ m.flights

def note (m : Moment) (o : Obs) : Moment := { m with trace := m.trace ++ [o] }

def write (m : Moment) (w : Worker) : Moment :=
  { m with worker := w, trace := m.trace ++ [.became w] }

def ask (m : Moment) (calls : List Call) : Moment :=
  { m with trace := m.trace ++ calls.map .called }

end Moment

/-- The handle of a creation that succeeded. -/
def flight (spec : PodSpec) : Except RuntimeError PodHandle → List (ℕ × PodHandle)
  | .ok handle => [(spec.podId, handle)]
  | .error _ => []

def TrackedPod.retried (tick : ℕ) (pod : TrackedPod) : TrackedPod :=
  { pod with lifecycleFailures := pod.lifecycleFailures + 1, lifecycleRetryAfterTick := tick }

/-- The moves that are a single write. -/
inductive Plain (now : ℕ) (inHand : Option ControlMessage) (podId : ℕ) (pod : TrackedPod) :
    TrackedPod → Prop
  | pulled (h : pod.state = .imagePulling) :
    Plain now inHand podId pod { pod with state := .creating, stateChangedAt := now }
  | started (h : pod.state = .starting) : Plain now inHand podId pod (pod.started now)
  | retried (h : pod.state = .starting) (hfew : pod.lifecycleFailures + 1 < lifecycleRetryMax)
    (tick : ℕ) : Plain now inHand podId pod (pod.retried tick)
  | halted {cmd : StopPodCmd} (hcmd : inHand = some (.stopPod cmd)) (hid : cmd.podId = podId)
    (h : pod.state.stoppable) (gracePeriodMs : ℕ) :
    Plain now inHand podId pod (pod.halted gracePeriodMs now)
  | stopRetried (h : pod.state = .stopping) : Plain now inHand podId pod (pod.stopRetried now)
  | probed (h : pod.state = .running) : Plain now inHand podId pod { pod with lastProbeTick := now }
  | counted (h : pod.state = .running) (failures : ℕ) :
    Plain now inHand podId pod { pod with consecutiveFailures := failures }

/-- The pod as `fail_pod` ends it. -/
def TrackedPod.failed (now : ℕ) (reason : String) (pod : TrackedPod) : TrackedPod :=
  { pod with state := .failed reason, stateChangedAt := now }

/-- The pod as `complete_pod_stop` ends it. -/
def TrackedPod.ended (now : ℕ) (reason : Option String) (exitCode : Int32) (pod : TrackedPod) :
    TrackedPod :=
  { pod with state := finalState reason exitCode, stateChangedAt := now,
             lifecycleRetryAfterTick := 0 }

/-- The worker without the pending failure of a pod. -/
def Worker.dropReason (w : Worker) (podId : ℕ) : Worker :=
  { w with pendingFailureReasons := w.pendingFailureReasons.erase podId }

namespace Moment

/-- The writes that bring a pod to its end in the form `pod'`. -/
def retire (m : Moment) (w : Worker) (podId : ℕ) (pod' : TrackedPod) : Moment :=
  ((m.write (w.setPod podId pod')).write ((w.setPod podId pod').without pod')).write
    (((w.setPod podId pod').without pod').setPod podId pod'.scrubbed)

/-- The additions of a start command. -/
def allocate (m : Moment) (cmd : StartPodCmd) : Moment :=
  let w₁ := { m.worker with gpuAllocated := (m.worker.gpuAllocated + cmd.gpuCount) % 2 ^ 8 }
  let w₂ := { w₁ with
    cpuAllocatedMillicores := (w₁.cpuAllocatedMillicores + cmd.cpuMillicores) % 2 ^ 32 }
  let w₃ := { w₂ with
    memoryAllocatedMegabytes := (w₂.memoryAllocatedMegabytes + cmd.memoryMegabytes) % 2 ^ 32 }
  ((m.write w₁).write w₂).write w₃

end Moment

inductive Deed (now : ℕ) (m : Moment) : Moment → Prop
  | received (msg : Option ControlMessage) :
    Deed now m { m.note (.received msg) with inHand := msg }
  | sent (msg : WorkerMessage) (h : m.inHand = none → ∀ podId, msg.ends podId = []) :
    Deed now m (m.note (.sent msg))
  | reported {podId : ℕ} {status : PodStatusReport} (h : m.owed = some (podId, status))
    (ht : status.terminal) (hin : m.inHand = none) :
    Deed now m { m.note (.sent (.podStatusEvent ⟨podId, status⟩)) with owed := none }
  | asked (c : Call) (h : c.inert) : Deed now m (m.note (.called c))
  | creation (spec : PodSpec) (answer : Except RuntimeError PodHandle) {pod : TrackedPod}
    (hl : m.worker.pods.lookup spec.podId = some pod) (hs : pod.state = .creating)
    (hfree : m.Free spec.podId) :
    Deed now m { m.note (.called ⟨.createPod spec, answer⟩) with
      flights := m.flights ++ flight spec answer }
  | moved {podId : ℕ} {pod pod' : TrackedPod} (hl : m.worker.pods.lookup podId = some pod)
    (h : Plain now m.inHand podId pod pod') (hfree : m.Free podId) :
    Deed now m (m.write (m.worker.setPod podId pod'))
  | created {podId : ℕ} {pod : TrackedPod} {handle : PodHandle}
    (hl : m.worker.pods.lookup podId = some pod) (hs : pod.state = .creating)
    (hflight : (podId, handle) ∈ m.flights) :
    Deed now m { m.write (m.worker.setPod podId (pod.created now handle)) with
      flights := m.flights.erase (podId, handle) }
  | exited {podId : ℕ} {pod : TrackedPod} (hl : m.worker.pods.lookup podId = some pod)
    (hs : pod.state = .running) (handle : PodHandle) (exitCode : Int32) (hin : m.inHand = none)
    (hfree : m.Free podId) :
    Deed now m ((m.note (.called ⟨.podStatus handle, .ok (.stopped exitCode)⟩)).write
      (m.worker.setPod podId (pod.exited now)))
  | recreated {podId : ℕ} {pod : TrackedPod} {handle : PodHandle}
    (hl : m.worker.pods.lookup podId = some pod) (hs : pod.state = .starting)
    (hh : pod.handle = some handle) (hfew : pod.lifecycleFailures + 1 < lifecycleRetryMax)
    (tick : ℕ) (hfree : m.Free podId) :
    Deed now m (((m.write (m.worker.setPod podId (pod.retried tick))).note
      (.called ⟨.removePod handle, .ok ()⟩)).write
        ((m.worker.setPod podId (pod.retried tick)).setPod podId
          ((pod.retried tick).recreated now)))
  | detached {podId : ℕ} {pod : TrackedPod} {handle : PodHandle}
    (hl : m.worker.pods.lookup podId = some pod) (hs : pod.state = .stopping)
    (hh : pod.handle = some handle) (hfree : m.Free podId) :
    Deed now m ((m.note (.called ⟨.removePod handle, .ok ()⟩)).write
      (m.worker.setPod podId { pod with handle := none }))
  | failing {podId : ℕ} {pod : TrackedPod} (hl : m.worker.pods.lookup podId = some pod)
    (hs : pod.state.stoppable) (hin : m.inHand = none)
    (hrunning : pod.state = .running → ∀ c ∈ lastCall m.trace, c.seesExit = false)
    (reason : String) (hfree : m.Free podId) :
    Deed now m ((m.write (m.worker.setPod podId (pod.failing now))).write
      (m.worker.failing podId pod reason now))
  | failed {podId : ℕ} {pod : TrackedPod} (hl : m.worker.pods.lookup podId = some pod)
    (hs : pod.state = .imagePulling ∨ pod.state = .creating) (hh : pod.handle = none)
    (hpending : podId ∉ m.worker.pendingFailureReasons) (hin : m.inHand = none)
    (howed : m.owed = none) (reason : String) (hfree : m.Free podId) :
    Deed now m { m.retire m.worker podId (pod.failed now reason) with
      owed := some (podId, .failed reason) }
  | stopped {podId : ℕ} {pod : TrackedPod} (hl : m.worker.pods.lookup podId = some pod)
    (hs : pod.state = .stopping) (hh : pod.handle = none) (hin : m.inHand = none)
    (howed : m.owed = none) (exitCode : Int32) (hfree : m.Free podId) :
    Deed now m { (m.write (m.worker.dropReason podId)).retire (m.worker.dropReason podId) podId
        (pod.ended now (m.worker.pendingFailureReasons.lookup podId) exitCode) with
      owed := some (podId, finalStatus (m.worker.pendingFailureReasons.lookup podId) exitCode) }
  | forgotten {podId : ℕ} {pod : TrackedPod} (hl : m.worker.pods.lookup podId = some pod)
    (ht : pod.state.terminal) : Deed now m (m.write (m.worker.forget podId))
  | tracked (cmd : StartPodCmd) (envVars : List (String × String)) (auth : Option ImagePullAuth)
    (hfresh : m.worker.pods.lookup cmd.podId = none) (hroom : m.worker.refusal cmd = none)
    {calls : List Call} (hcalls : ∀ c ∈ calls, c.inert) :
    Deed now m (((m.allocate cmd).ask calls).write
      (m.worker.track (cmd.tracked envVars auth now)))
  | beat (registered : Bool) {tick : ℕ} (htick : tick = m.worker.lastHeartbeatTick ∨ tick = now) :
    Deed now m (m.write { m.worker with registered := registered, lastHeartbeatTick := tick })

abbrev Deeds (now : ℕ) : Moment → Moment → Prop := Relation.ReflTransGen (Deed now)

theorem Plain.move {now podId : ℕ} {inHand : Option ControlMessage} {pod pod' : TrackedPod}
    (h : Plain now inHand podId pod pod') : Move now pod pod' := by
  cases h with
  | pulled h => exact .pulled h
  | started h => exact .started h
  | retried h _ tick => exact .retried h _ tick
  | halted _ _ h gracePeriodMs => exact .halted h gracePeriodMs
  | stopRetried h => exact .stopRetried h
  | probed h => exact .probed h
  | counted h failures => exact .counted h failures

theorem Worker.setPod_without_scrubbed (w : Worker) (podId : ℕ) (pod : TrackedPod) :
    (((w.dropReason podId).setPod podId pod).without pod).setPod podId pod.scrubbed =
      w.retire podId pod := by
  unfold setPod without dropReason retire
  simp only [AList.insert_insert]
  rfl

theorem Worker.dropReason_of_notMem {w : Worker} {podId : ℕ}
    (h : podId ∉ w.pendingFailureReasons) : w.dropReason podId = w := by
  unfold dropReason
  rw [AList.erase_of_notMem h]

/-- What a deed does to the table. -/
theorem Deed.changes {now : ℕ} {m m' : Moment} (h : Deed now m m') :
    Changes now m.worker m'.worker := by
  cases h with
  | received _ | sent _ _ | reported _ _ _ | asked _ _ | creation _ _ _ _ _ => exact .refl
  | moved hl h _ => exact .single (.moved hl h.move)
  | created hl hs _ => exact .single (.moved hl (.created hs _))
  | exited hl hs _ _ _ _ => exact .single (.moved hl (.exited hs))
  | @recreated podId pod handle hl hs hh hfew tick _ =>
    refine (Relation.ReflTransGen.single (.moved hl
      (.retried hs (pod.lifecycleFailures + 1) tick))).tail ?_
    exact .moved (AList.lookup_insert _) (.recreated hs)
  | detached hl hs _ _ => exact .single (.moved hl (.detached hs))
  | failing hl hs _ _ reason _ => exact .single (.failing hl hs reason)
  | @failed podId pod hl hs hh hpending _ _ reason _ =>
    show Changes now m.worker (((m.worker.setPod podId _).without _).setPod podId _)
    have hactive : pod.state.terminal = false := by
      obtain hs | hs := hs <;> rw [hs] <;> rfl
    have hretire := m.worker.setPod_without_scrubbed podId (pod.failed now reason)
    rw [Worker.dropReason_of_notMem hpending] at hretire
    rw [hretire]
    exact .single (.retired hl hactive hh _ rfl pod.lifecycleRetryAfterTick)
  | @stopped podId pod hl hs hh _ _ exitCode _ =>
    show Changes now m.worker
      ((((m.worker.dropReason podId).setPod podId _).without _).setPod podId _)
    have hactive : pod.state.terminal = false := by rw [hs]; rfl
    rw [Worker.setPod_without_scrubbed]
    refine .single (.retired hl hactive hh _ ?_ 0)
    cases m.worker.pendingFailureReasons.lookup podId <;> rfl
  | forgotten hl ht => exact .single (.forgotten hl ht)
  | tracked cmd envVars auth hfresh hroom _ =>
    exact .single (.tracked cmd envVars auth hfresh hroom)
  | beat registered htick => exact .single (.beat registered htick)

theorem Deeds.changes {now : ℕ} {m m' : Moment} (h : Deeds now m m') :
    Changes now m.worker m'.worker := by
  induction h with
  | refl => exact .refl
  | tail _ hdeed ih => exact ih.trans hdeed.changes

/-- Deeds for one pod that end with nothing left to do, while this message is handled. -/
def Leads (now : ℕ) (inHand : Option ControlMessage) (podId : ℕ) (w : Worker) (tr : List Obs)
    (w' : Worker) (tr' : List Obs) : Prop :=
  ∀ flights : List (ℕ × PodHandle), (∀ handle, (podId, handle) ∉ flights) →
    Deeds now ⟨w, tr, flights, none, inHand⟩ ⟨w', tr', flights, none, inHand⟩

/-- Deeds between points at which nothing is left to do and no handle is on its way. -/
def Passes (now : ℕ) (inHand : Option ControlMessage) (w : Worker) (tr : List Obs) (w' : Worker)
    (tr' : List Obs) : Prop :=
  Deeds now ⟨w, tr, [], none, inHand⟩ ⟨w', tr', [], none, inHand⟩

namespace Leads

variable {now podId : ℕ} {inHand : Option ControlMessage} {w w' w'' : Worker}
  {tr tr' tr'' : List Obs}

theorem refl : Leads now inHand podId w tr w tr := fun _ _ => .refl

theorem trans (h : Leads now inHand podId w tr w' tr') (h' : Leads now inHand podId w' tr' w'' tr'') :
    Leads now inHand podId w tr w'' tr'' :=
  fun flights hfree => (h flights hfree).trans (h' flights hfree)

theorem single (h : ∀ flights : List (ℕ × PodHandle), (∀ handle, (podId, handle) ∉ flights) →
      Deed now ⟨w, tr, flights, none, inHand⟩ ⟨w', tr', flights, none, inHand⟩) :
    Leads now inHand podId w tr w' tr' :=
  fun flights hfree => .single (h flights hfree)

theorem passes (h : Leads now inHand podId w tr w' tr') : Passes now inHand w tr w' tr' :=
  h [] fun _ => List.not_mem_nil

theorem changes (h : Leads now inHand podId w tr w' tr') : Changes now w w' :=
  Deeds.changes h.passes

theorem orderly (h : Leads now inHand podId w tr w' tr') (hw : w.Orderly) : w'.Orderly :=
  h.changes.orderly hw

theorem asked (c : Call) (h : c.inert) : Leads now inHand podId w tr w (tr ++ [.called c]) :=
  single fun _ _ => .asked c h

theorem move {pod pod' : TrackedPod} (hl : w.pods.lookup podId = some pod)
    (h : Plain now inHand podId pod pod') :
    Leads now inHand podId w tr (w.setPod podId pod') (tr ++ [.became (w.setPod podId pod')]) :=
  single fun _ hfree => .moved hl h hfree

theorem sent (msg : WorkerMessage) (h : inHand = none → ∀ podId, msg.ends podId = []) :
    Leads now inHand podId w tr w (tr ++ [.sent msg]) := single fun _ _ => .sent msg h

end Leads

namespace Passes

variable {now : ℕ} {inHand : Option ControlMessage} {w w' w'' : Worker} {tr tr' tr'' : List Obs}

theorem trans (h : Passes now inHand w tr w' tr') (h' : Passes now inHand w' tr' w'' tr'') :
    Passes now inHand w tr w'' tr'' := Relation.ReflTransGen.trans h h'

theorem changes (h : Passes now inHand w tr w' tr') : Changes now w w' := Deeds.changes h

theorem orderly (h : Passes now inHand w tr w' tr') (hw : w.Orderly) : w'.Orderly :=
  h.changes.orderly hw

theorem sent (msg : WorkerMessage) (h : inHand = none → ∀ podId, msg.ends podId = []) :
    Passes now inHand w tr w (tr ++ [.sent msg]) := .single (.sent msg h)

end Passes

end Hivemind.Agent
