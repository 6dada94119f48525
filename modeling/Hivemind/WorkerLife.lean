import Hivemind.Monitor
import Hivemind.WorkerAccounts

/-! The life of one pod as the worker's history tells it: how often it was recreated, what moved it
to `Stopping`, which ends it came to and which ends were reported without being asked for. Every
change of its state in every run is one of the few that are allowed, with what has to come before
it. -/
namespace Hivemind.Agent

/-! ### Reading a life off the history -/

/-- What moved a pod to `Stopping`. -/
inductive Halt where
  | command
  | exit
  | failure (reason : Option String)

/-- A failure with its reason, as soon as that is recorded. -/
def Halt.recorded (pending : Option String) : Halt → Halt
  | .failure none => .failure pending
  | halt => halt

structure Life where
  entry : Option TrackedPod
  inHand : Option ControlMessage
  /-- The request that was answered just now. -/
  lastCall : Option Call
  /-- How often the pod went back from `Starting` to `Creating`. -/
  recreations : ℕ
  halt : Option Halt
  /-- The terminal states the pod has come to. -/
  endings : List PodStatusReport
  /-- The terminal reports sent while no message was being handled. -/
  reports : List PodStatusReport

def Life.new : Life := ⟨none, none, none, 0, none, [], []⟩

/-- A command to stop this pod. -/
def ControlMessage.stops (podId : ℕ) : ControlMessage → Bool
  | .stopPod cmd => cmd.podId == podId
  | _ => false

namespace Life

variable (podId : ℕ)

/-- What moves a pod to `Stopping` now. -/
def origin (l : Life) (pod : TrackedPod) : Halt :=
  if l.inHand.any (ControlMessage.stops podId) then .command
  else if pod.state = .running ∧ l.lastCall.any Call.seesExit then .exit
  else .failure none

/-- The tracked pod is written. -/
def change (l : Life) (pod pod' : TrackedPod) (pending : Option String) : Life :=
  if pod'.state = pod.state then
    { l with entry := some pod', lastCall := none, halt := l.halt.map (Halt.recorded pending) }
  else
    { l with
      entry := some pod'
      lastCall := none
      recreations :=
        if pod.state = .starting ∧ pod'.state = .creating then l.recreations + 1 else l.recreations
      halt := if pod'.state = .stopping then some (l.origin podId pod) else none
      endings :=
        if pod'.state.terminal then l.endings ++ [trackedPodStatus pod'.state] else l.endings }

def step (l : Life) : Obs → Life
  | .received msg => { l with inHand := msg, lastCall := none }
  | .sent m =>
    { l with lastCall := none
             reports := if l.inHand.isNone then l.reports ++ m.ends podId else l.reports }
  | .called c => { l with lastCall := some c }
  | .became w =>
    match l.entry, w.pods.lookup podId with
    | some pod, some pod' => l.change podId pod pod' (w.pendingFailureReasons.lookup podId)
    | _, entry => { l with entry := entry, lastCall := none, recreations := 0, halt := none }

end Life

/-- The life of a pod after this history. -/
def life (podId : ℕ) (tr : List Obs) : Life := tr.foldl (Life.step podId) Life.new

/-- The changes of a pod's state that are allowed after the life it has had. -/
inductive Transition (l : Life) (pod pod' : TrackedPod) : Prop
  | pulled (h : pod.state = .imagePulling) (h' : pod'.state = .creating)
  | created (h : pod.state = .creating) (h' : pod'.state = .starting)
  | started (h : pod.state = .starting) (h' : pod'.state = .running)
  | recreated (h : pod.state = .starting) (h' : pod'.state = .creating) (handle : PodHandle)
    (hheld : pod.handle = some handle) (hremoved : l.lastCall = some ⟨.removePod handle, .ok ()⟩)
    (hfew : l.recreations + 1 < lifecycleRetryMax)
  | halted (h : pod.state.stoppable) (h' : pod'.state = .stopping)
  | failed (h : pod.state = .imagePulling ∨ pod.state = .creating) (reason : String)
    (h' : pod'.state = .failed reason)
  | stopped (h : pod.state = .stopping) (exitCode : Int32) (h' : pod'.state = .stopped exitCode)
    (hhalt : l.halt = some .command ∨ l.halt = some .exit)
  | ended (h : pod.state = .stopping) (reason : String) (h' : pod'.state = .failed reason)
    (hhalt : l.halt = some (.failure (some reason)))

/-- What may happen next in a life: a write changes the state of the pod by a `Transition` only,
and an unsolicited terminal report is that of the end the pod has just come to. -/
def Life.Allows (podId : ℕ) (l : Life) : Obs → Prop
  | .became w => ∀ pod pod', l.entry = some pod → w.pods.lookup podId = some pod' →
    pod'.state ≠ pod.state → Transition l pod pod'
  | .sent m => l.inHand = none → m.ends podId ≠ [] → l.endings = l.reports ++ m.ends podId
  | _ => True

theorem life_append (podId : ℕ) (tr : List Obs) (o : Obs) :
    life podId (tr ++ [o]) = (life podId tr).step podId o := foldl_concat

theorem life_lastCall (podId : ℕ) (tr : List Obs) : (life podId tr).lastCall = lastCall tr := by
  induction tr using List.reverseRecOn with
  | nil => rfl
  | append_singleton tr o _ =>
    rw [life_append, lastCall_append]
    cases o with
    | became w =>
      unfold Life.step Life.change
      dsimp only
      split
      · split_ifs <;> rfl
      · rfl
    | _ => rfl

/-! ### What the worker's table says about a life -/

/-- The states from which a pod can still be recreated. -/
def TrackedPodState.early : TrackedPodState → Bool
  | .imagePulling | .creating | .starting => true
  | _ => false

/-- What holds a pod in `Stopping`, by its pending failure. -/
def Life.Halted (l : Life) : Option String → Prop
  | some reason => l.halt = some (.failure (some reason))
  | none => l.halt = some .command ∨ l.halt = some .exit

/-- A life and the table, with the reports that are due. -/
structure Life.Fits (l : Life) (found : Option TrackedPod) (pending : Option String)
    (msg : Option ControlMessage) (due : List PodStatusReport) : Prop where
  entry : l.entry = found
  inHand : l.inHand = msg
  owed : l.endings = l.reports ++ due
  counted : ∀ pod, found = some pod → pod.state.early → l.recreations ≤ pod.lifecycleFailures
  halted : ∀ pod, found = some pod → pod.state = .stopping → l.Halted pending

/-- The reports about a pod among those that are owed. -/
def due (podId : ℕ) : Option (ℕ × PodStatusReport) → List PodStatusReport
  | some (id, status) => if id = podId then [status] else []
  | none => []

structure Followed (podId : ℕ) (m : Moment) : Prop where
  lawful : Abides (Life.step podId) (Life.Allows podId) .new m.trace
  fits : (life podId m.trace).Fits (m.worker.pods.lookup podId)
    (m.worker.pendingFailureReasons.lookup podId) m.inHand (due podId m.owed)

namespace Life

variable {podId : ℕ} {l : Life} {pod pod' : TrackedPod} {found : Option TrackedPod}
  {pending : Option String} {msg : Option ControlMessage} {due : List PodStatusReport}
  {w w' : Worker}

theorem step_became (hentry : l.entry = some pod) (hl : w.pods.lookup podId = some pod') :
    l.step podId (.became w) =
      l.change podId pod pod' (w.pendingFailureReasons.lookup podId) := by
  unfold step
  dsimp only
  rw [hentry, hl]

theorem step_absent (h : l.entry = none ∨ w.pods.lookup podId = none) :
    l.step podId (.became w) = { l with entry := w.pods.lookup podId, lastCall := none,
                                        recreations := 0, halt := none } := by
  unfold step
  dsimp only
  split
  · next hentry hl =>
    rw [hentry, hl] at h
    obtain h | h := h <;> contradiction
  · rfl

namespace Fits

theorem called (h : l.Fits found pending msg due) (c : Call) :
    (l.step podId (.called c)).Fits found pending msg due :=
  ⟨h.entry, h.inHand, h.owed, h.counted, h.halted⟩

theorem received (h : l.Fits found pending msg due) (msg' : Option ControlMessage) :
    (l.step podId (.received msg')).Fits found pending msg' due :=
  ⟨h.entry, rfl, h.owed, h.counted, h.halted⟩

theorem kept (h : l.Fits (some pod) pending msg due) (hl : w.pods.lookup podId = some pod')
    (hstate : pod'.state = pod.state)
    (hcount : pod.state.early → pod.lifecycleFailures ≤ pod'.lifecycleFailures) :
    (l.step podId (.became w)).Fits (some pod') pending msg due := by
  rw [step_became h.entry hl]
  unfold change
  rw [if_pos hstate]
  refine ⟨rfl, h.inHand, h.owed, ?_, ?_⟩
  · rintro _ ⟨⟩ hearly
    rw [hstate] at hearly
    exact (h.counted pod rfl hearly).trans (hcount hearly)
  · rintro _ ⟨⟩ hs
    rw [hstate] at hs
    have hhalted := h.halted pod rfl hs
    cases pending with
    | some reason =>
      show l.halt.map _ = _
      rw [show l.halt = _ from hhalted]
      rfl
    | none =>
      obtain hhalt | hhalt := hhalted
      · exact .inl (by show l.halt.map _ = _; rw [hhalt]; rfl)
      · exact .inr (by show l.halt.map _ = _; rw [hhalt]; rfl)

theorem repend (h : l.Fits (some pod) pending msg due) {pending' : Option String}
    (hsame : pod.state = .stopping → pending' = pending) :
    l.Fits (some pod) pending' msg due := by
  refine ⟨h.entry, h.inHand, h.owed, h.counted, ?_⟩
  rintro _ ⟨⟩ hs
  rw [hsame hs]
  exact h.halted pod rfl hs

theorem absent (h : l.Fits found pending msg due)
    (hnone : found = none ∨ w.pods.lookup podId = none)
    (hfresh : ∀ pod, w.pods.lookup podId = some pod → pod.state = .imagePulling) :
    (l.step podId (.became w)).Fits (w.pods.lookup podId)
      (w.pendingFailureReasons.lookup podId) msg due := by
  rw [step_absent (h.entry ▸ hnone)]
  refine ⟨rfl, h.inHand, h.owed, fun _ _ _ => Nat.zero_le _, ?_⟩
  intro pod hl hs
  rw [hfresh pod hl] at hs
  contradiction

theorem changed (h : l.Fits (some pod) pending msg due) (hl : w.pods.lookup podId = some pod')
    (hne : pod'.state ≠ pod.state)
    (hcount : pod'.state.early →
      (if pod.state = .starting ∧ pod'.state = .creating then l.recreations + 1
        else l.recreations) ≤ pod'.lifecycleFailures)
    (hhalt : pod'.state = .stopping → w.pendingFailureReasons.lookup podId = none ∧
      (l.origin podId pod = .command ∨ l.origin podId pod = .exit)) :
    (l.step podId (.became w)).Fits (some pod') (w.pendingFailureReasons.lookup podId) msg
      (due ++ if pod'.state.terminal then [trackedPodStatus pod'.state] else []) := by
  rw [step_became h.entry hl]
  unfold change
  rw [if_neg hne]
  refine ⟨rfl, h.inHand, ?_, ?_, ?_⟩
  · dsimp only
    rw [h.owed]
    split_ifs
    · exact List.append_assoc _ _ _
    · rw [List.append_nil]
  · rintro _ ⟨⟩ hearly
    exact hcount hearly
  · rintro _ ⟨⟩ hs
    obtain ⟨hpending, horigin⟩ := hhalt hs
    rw [hpending]
    dsimp only [Halted]
    rw [if_pos hs]
    exact horigin.imp (congrArg some) (congrArg some)

/-- A failure moves the pod to `Stopping` and is then recorded. -/
theorem failing (h : l.Fits (some pod) pending msg due) (hl : w.pods.lookup podId = some pod')
    (hne : pod'.state ≠ pod.state) (hs : pod'.state = .stopping)
    (horigin : l.origin podId pod = .failure none) (hl' : w'.pods.lookup podId = some pod')
    {reason : String} (hpending : w'.pendingFailureReasons.lookup podId = some reason) :
    ((l.step podId (.became w)).step podId (.became w')).Fits (some pod') (some reason) msg
      due := by
  rw [step_became h.entry hl]
  have hchange : (l.change podId pod pod' (w.pendingFailureReasons.lookup podId)).entry =
      some pod' := by
    unfold change
    rw [if_neg hne]
  rw [step_became hchange hl', change, if_pos rfl, hpending, change, if_neg hne]
  refine ⟨rfl, h.inHand, ?_, ?_, ?_⟩
  · dsimp only
    rw [hs]
    exact h.owed
  · rintro _ ⟨⟩ hearly
    rw [hs] at hearly
    contradiction
  · rintro _ ⟨⟩ _
    dsimp only [Halted]
    rw [if_pos hs, horigin]
    rfl

end Fits

end Life

/-! ### Every deed follows the life -/

namespace Followed

variable {podId : ℕ} {m : Moment} {w : Worker} {pod pod' : TrackedPod}

theorem called (h : Followed podId m) (c : Call) : Followed podId (m.note (.called c)) := by
  refine ⟨abides_concat.mpr ⟨h.lawful, trivial⟩, ?_⟩
  unfold Moment.note
  rw [life_append]
  exact h.fits.called c

theorem asked (h : Followed podId m) (calls : List Call) : Followed podId (m.ask calls) := by
  induction calls generalizing m with
  | nil =>
    unfold Moment.ask
    rw [List.map_nil, List.append_nil]
    exact h
  | cons c calls ih =>
    have hrest := ih (h.called c)
    unfold Moment.ask Moment.note at hrest
    rw [List.append_assoc] at hrest
    exact hrest

theorem received (h : Followed podId m) (msg : Option ControlMessage) :
    Followed podId { m.note (.received msg) with inHand := msg } := by
  refine ⟨abides_concat.mpr ⟨h.lawful, trivial⟩, ?_⟩
  unfold Moment.note
  rw [life_append]
  exact h.fits.received msg

theorem sent (h : Followed podId m) {msg : WorkerMessage}
    (hquiet : m.inHand = none → msg.ends podId = []) : Followed podId (m.note (.sent msg)) := by
  refine ⟨abides_concat.mpr ⟨h.lawful, ?_⟩, ?_⟩
  · intro hin hends
    exact absurd (hquiet (h.fits.inHand.symm.trans hin)) hends
  · unfold Moment.note
    rw [life_append]
    refine ⟨h.fits.entry, h.fits.inHand, ?_, h.fits.counted, h.fits.halted⟩
    show (life podId m.trace).endings =
      (if (life podId m.trace).inHand.isNone then _ else _) ++ _
    split_ifs with hin
    · rw [hquiet (h.fits.inHand.symm.trans (Option.isNone_iff_eq_none.mp hin)), List.append_nil]
      exact h.fits.owed
    · exact h.fits.owed

theorem kept (h : Followed podId m) (hl : m.worker.pods.lookup podId = some pod)
    (hl' : w.pods.lookup podId = some pod') (hstate : pod'.state = pod.state)
    (hcount : pod.state.early → pod.lifecycleFailures ≤ pod'.lifecycleFailures)
    (hpending : pod.state = .stopping →
      w.pendingFailureReasons.lookup podId = m.worker.pendingFailureReasons.lookup podId) :
    Followed podId (m.write w) := by
  have hfits := h.fits
  rw [hl] at hfits
  refine ⟨abides_concat.mpr ⟨h.lawful, ?_⟩, ?_⟩
  · intro p p' hp hp' hne
    cases hfits.entry.symm.trans hp
    cases hl'.symm.trans hp'
    exact absurd hstate hne
  · unfold Moment.write
    rw [life_append]
    dsimp only
    rw [hl']
    exact (hfits.kept hl' hstate hcount).repend fun hs => hpending (hstate ▸ hs)

theorem absent (h : Followed podId m)
    (hnone : m.worker.pods.lookup podId = none ∨ w.pods.lookup podId = none)
    (hfresh : ∀ pod, w.pods.lookup podId = some pod → pod.state = .imagePulling) :
    Followed podId (m.write w) := by
  refine ⟨abides_concat.mpr ⟨h.lawful, ?_⟩, ?_⟩
  · intro p p' hp hp' _
    have hp := h.fits.entry.symm.trans hp
    rw [hp, hp'] at hnone
    obtain h | h := hnone <;> contradiction
  · unfold Moment.write
    rw [life_append]
    exact h.fits.absent hnone hfresh

theorem quiet (h : Followed podId m) (hsame : w.pods.lookup podId = m.worker.pods.lookup podId)
    (hpending : w.pendingFailureReasons.lookup podId =
      m.worker.pendingFailureReasons.lookup podId) : Followed podId (m.write w) := by
  cases hl : m.worker.pods.lookup podId with
  | none =>
    refine h.absent (.inl hl) fun pod hpod => ?_
    rw [hsame, hl] at hpod
    contradiction
  | some pod => exact h.kept hl (hsame.trans hl) rfl (fun _ => Nat.le_refl _) fun _ => hpending

theorem changed (hlawful : Abides (Life.step podId) (Life.Allows podId) .new m.trace) {pending : Option String}
    (hfits : (life podId m.trace).Fits (some pod) pending m.inHand (due podId m.owed))
    (hl : w.pods.lookup podId = some pod') (hne : pod'.state ≠ pod.state)
    (htransition : Transition (life podId m.trace) pod pod')
    (hcount : pod'.state.early →
      (if pod.state = .starting ∧ pod'.state = .creating then (life podId m.trace).recreations + 1
        else (life podId m.trace).recreations) ≤ pod'.lifecycleFailures)
    (hhalt : pod'.state = .stopping → w.pendingFailureReasons.lookup podId = none ∧
      ((life podId m.trace).origin podId pod = .command ∨
        (life podId m.trace).origin podId pod = .exit))
    {owed : Option (ℕ × PodStatusReport)}
    (howed : due podId owed = due podId m.owed ++
      if pod'.state.terminal then [trackedPodStatus pod'.state] else []) :
    Followed podId { m.write w with owed := owed } := by
  refine ⟨abides_concat.mpr ⟨hlawful, ?_⟩, ?_⟩
  · intro p p' hp hp' _
    cases hfits.entry.symm.trans hp
    cases hl.symm.trans hp'
    exact htransition
  · unfold Moment.write
    rw [life_append]
    dsimp only
    rw [hl, howed]
    exact hfits.changed hl hne hcount hhalt

theorem tracked (h : Followed podId m) (hl : m.worker.pods.lookup podId = some pod) :
    (life podId m.trace).Fits (some pod) (m.worker.pendingFailureReasons.lookup podId) m.inHand
      (due podId m.owed) := hl ▸ h.fits

theorem advanced (h : Followed podId m) (hl : m.worker.pods.lookup podId = some pod)
    (hl' : w.pods.lookup podId = some pod') (hne : pod'.state ≠ pod.state)
    (htransition : Transition (life podId m.trace) pod pod')
    (hforward : pod.state.early ∧ ¬ (pod.state = .starting ∧ pod'.state = .creating))
    (hfailures : pod'.state.early → pod'.lifecycleFailures = pod.lifecycleFailures)
    (hstopping : pod'.state ≠ .stopping) (hactive : pod'.state.terminal = false) :
    Followed podId (m.write w) := by
  have hfits := h.tracked hl
  refine changed h.lawful hfits hl' hne htransition ?_ (fun hs => absurd hs hstopping) ?_
  · intro hearly
    rw [if_neg hforward.2, hfailures hearly]
    exact hfits.counted pod rfl hforward.1
  · rw [hactive]
    exact (List.append_nil _).symm

theorem stopping (h : Followed podId m) (hw : m.worker.Orderly)
    (hl : m.worker.pods.lookup podId = some pod) (hs : pod.state.stoppable)
    (hs' : pod'.state = .stopping)
    (horigin : (life podId m.trace).origin podId pod = .command ∨
      (life podId m.trace).origin podId pod = .exit) :
    Followed podId (m.write (m.worker.setPod podId pod')) := by
  have hne : pod'.state ≠ pod.state := by
    rw [hs']
    exact (TrackedPodState.stoppable_ne hs).symm
  refine changed h.lawful (h.tracked hl) (AList.lookup_insert _) hne (.halted hs hs') ?_ ?_ ?_
  · intro hearly
    rw [hs'] at hearly
    contradiction
  · intro _
    have hnone := hw.pending_none hl (TrackedPodState.stoppable_ne hs)
    exact ⟨AList.lookup_eq_none.mpr hnone, horigin⟩
  · rw [hs']
    exact (List.append_nil _).symm

theorem plain {now k : ℕ} (h : Followed podId m) (hw : m.worker.Orderly)
    (hl : m.worker.pods.lookup k = some pod) (hplain : Plain now m.inHand k pod pod') :
    Followed podId (m.write (m.worker.setPod k pod')) := by
  by_cases hk : podId = k
  swap
  · exact h.quiet (AList.lookup_insert_ne hk) rfl
  subst hk
  have hl' : (m.worker.setPod podId pod').pods.lookup podId = some pod' := AList.lookup_insert _
  cases hplain with
  | pulled hs =>
    refine h.advanced hl hl' ?_ (.pulled hs rfl) ⟨?_, ?_⟩ (fun _ => rfl) ?_ rfl <;> simp [hs]
    rfl
  | started hs =>
    refine h.advanced hl hl' ?_ (.started hs rfl) ⟨?_, ?_⟩ ?_ ?_ rfl <;>
      simp [hs, TrackedPod.started]
    · rfl
    · exact fun hearly => nomatch hearly
  | retried hs hfew tick =>
    exact h.kept hl hl' rfl (fun _ => Nat.le_succ _) fun _ => rfl
  | @halted cmd hcmd hid hs gracePeriodMs =>
    refine h.stopping hw hl hs rfl (.inl (if_pos ?_))
    rw [h.fits.inHand, hcmd]
    exact beq_iff_eq.mpr hid
  | stopRetried hs =>
    refine h.kept hl hl' rfl ?_ fun _ => rfl
    rw [hs]
    exact fun hearly => nomatch hearly
  | probed hs => exact h.kept hl hl' rfl (fun _ => Nat.le_refl _) fun _ => rfl
  | counted hs failures => exact h.kept hl hl' rfl (fun _ => Nat.le_refl _) fun _ => rfl

theorem retired (hlawful : Abides (Life.step podId) (Life.Allows podId) .new m.trace) {pending : Option String}
    (hfits : (life podId m.trace).Fits (some pod) pending m.inHand (due podId m.owed))
    (howed : m.owed = none) (hne : pod'.state ≠ pod.state) (ht : pod'.state.terminal)
    (htransition : Transition (life podId m.trace) pod pod') (w : Worker) :
    Followed podId { m.retire w podId pod' with
      owed := some (podId, trackedPodStatus pod'.state) } := by
  have hends : Followed podId { m.write (w.setPod podId pod') with
      owed := some (podId, trackedPodStatus pod'.state) } := by
    refine changed hlawful hfits (AList.lookup_insert _) hne htransition ?_ ?_ ?_
    · intro hearly
      cases hs : pod'.state <;> rw [hs] at ht hearly <;> contradiction
    · intro hs
      rw [hs] at ht
      contradiction
    · rw [howed, if_pos ht]
      exact if_pos rfl
  have hreleased := hends.quiet (w := (w.setPod podId pod').without pod') rfl rfl
  have hl : ((w.setPod podId pod').without pod').pods.lookup podId = some pod' :=
    AList.lookup_insert _
  exact hreleased.kept hl (AList.lookup_insert _) rfl (fun _ => Nat.le_refl _) fun _ => rfl

theorem retired_other {k : ℕ} (h : Followed podId m) (hk : podId ≠ k) {w : Worker}
    (hsame : w.pods.lookup podId = m.worker.pods.lookup podId)
    (hpending : w.pendingFailureReasons.lookup podId =
      m.worker.pendingFailureReasons.lookup podId) (howed : m.owed = none)
    (status : PodStatusReport) :
    Followed podId { m.retire w k pod' with owed := some (k, status) } := by
  have hset : (w.setPod k pod').pods.lookup podId = w.pods.lookup podId :=
    AList.lookup_insert_ne hk
  have h₁ := h.quiet (w := w.setPod k pod') (hset.trans hsame) hpending
  have h₂ := h₁.quiet (w := (w.setPod k pod').without pod') rfl rfl
  have h₃ := h₂.quiet (w := ((w.setPod k pod').without pod').setPod k pod'.scrubbed)
    (AList.lookup_insert_ne hk) rfl
  refine ⟨h₃.lawful, h₃.fits.entry, h₃.fits.inHand, ?_, h₃.fits.counted, h₃.fits.halted⟩
  refine h₃.fits.owed.trans ?_
  show _ ++ due podId m.owed = _ ++ due podId (some (k, status))
  rw [howed]
  exact congrArg _ (if_neg fun hid => hk hid.symm).symm

theorem failing {now k : ℕ} {pod : TrackedPod} (h : Followed podId m)
    (hl : m.worker.pods.lookup k = some pod) (hs : pod.state.stoppable) (hin : m.inHand = none)
    (hrunning : pod.state = .running → ∀ c ∈ lastCall m.trace, c.seesExit = false)
    (reason : String) :
    Followed podId ((m.write (m.worker.setPod k (pod.failing now))).write
      (m.worker.failing k pod reason now)) := by
  by_cases hk : podId = k
  swap
  · have hset : (m.worker.setPod k (pod.failing now)).pods.lookup podId =
        m.worker.pods.lookup podId := AList.lookup_insert_ne hk
    exact (h.quiet hset rfl).quiet rfl (AList.lookup_insert_ne hk)
  subst hk
  have hfits := h.tracked hl
  have hne : (pod.failing now).state ≠ pod.state := (TrackedPodState.stoppable_ne hs).symm
  -- Neither a command nor an exit moves the pod.
  have horigin : (life podId m.trace).origin podId pod = .failure none := by
    unfold Life.origin
    rw [hfits.inHand, hin, Option.any_none, if_neg Bool.false_ne_true, if_neg]
    rintro ⟨hrun, hexit⟩
    rw [life_lastCall] at hexit
    cases hc : lastCall m.trace with
    | none =>
      rw [hc] at hexit
      contradiction
    | some c =>
      rw [hc, Option.any_some, hrunning hrun c hc] at hexit
      contradiction
  have hl₁ : (m.worker.setPod podId (pod.failing now)).pods.lookup podId =
      some (pod.failing now) := AList.lookup_insert _
  have hl₂ : (m.worker.failing podId pod reason now).pods.lookup podId =
      some (pod.failing now) := AList.lookup_insert _
  have hpending : (m.worker.failing podId pod reason now).pendingFailureReasons.lookup podId =
      some reason := AList.lookup_insert _
  have hlawful : Abides (Life.step podId) (Life.Allows podId) .new
      (m.trace ++ [.became (m.worker.setPod podId (pod.failing now))]) := by
    refine abides_concat.mpr ⟨h.lawful, ?_⟩
    intro p p' hp hp' _
    cases hfits.entry.symm.trans hp
    cases hl₁.symm.trans hp'
    exact .halted hs rfl
  have hdone := hfits.failing hl₁ hne rfl horigin hl₂ hpending
  refine ⟨abides_concat.mpr ⟨hlawful, ?_⟩, ?_⟩
  · intro p p' hp hp' hstate
    have hentry : (life podId (m.trace ++
        [.became (m.worker.setPod podId (pod.failing now))])).entry = some (pod.failing now) := by
      rw [life_append, Life.step_became hfits.entry hl₁, Life.change, if_neg hne]
    cases hentry.symm.trans hp
    cases hl₂.symm.trans hp'
    exact absurd rfl hstate
  · unfold Moment.write
    dsimp only
    rw [life_append, life_append, hl₂, hpending]
    exact hdone

theorem recreated {now k tick : ℕ} {handle : PodHandle} (h : Followed podId m)
    (hl : m.worker.pods.lookup k = some pod) (hs : pod.state = .starting)
    (hh : pod.handle = some handle) (hfew : pod.lifecycleFailures + 1 < lifecycleRetryMax) :
    Followed podId (((m.write (m.worker.setPod k (pod.retried tick))).note
      (.called ⟨.removePod handle, .ok ()⟩)).write
        ((m.worker.setPod k (pod.retried tick)).setPod k ((pod.retried tick).recreated now))) := by
  by_cases hk : podId = k
  swap
  · have hset : (m.worker.setPod k (pod.retried tick)).pods.lookup podId =
        m.worker.pods.lookup podId := AList.lookup_insert_ne hk
    exact ((h.quiet hset rfl).called _).quiet (AList.lookup_insert_ne hk) rfl
  subst hk
  have hfits := h.tracked hl
  have hl₁ : (m.worker.setPod podId (pod.retried tick)).pods.lookup podId =
      some (pod.retried tick) := AList.lookup_insert _
  have hretried : Followed podId (m.write (m.worker.setPod podId (pod.retried tick))) :=
    h.kept hl hl₁ rfl (fun _ => Nat.le_succ _) fun _ => rfl
  have hremoved := hretried.called ⟨.removePod handle, .ok ()⟩
  -- The counter has been raised and the recreation is still to come.
  have hcount : (life podId (m.trace ++
      [.became (m.worker.setPod podId (pod.retried tick))] ++
      [.called ⟨.removePod handle, .ok ()⟩])).recreations ≤ pod.lifecycleFailures := by
    have hsame : (pod.retried tick).state = pod.state := rfl
    rw [life_append, life_append, Life.step_became hfits.entry hl₁, Life.change, if_pos hsame]
    refine hfits.counted pod rfl ?_
    rw [hs]
    rfl
  refine changed hremoved.lawful (hremoved.tracked hl₁) (AList.lookup_insert _) ?_ ?_ ?_ ?_ ?_
  · show TrackedPodState.creating ≠ pod.state
    rw [hs]
    exact fun heq => nomatch heq
  · refine .recreated hs rfl handle hh ?_ ?_
    · rw [life_lastCall]
      exact lastCall_append _ _
    · exact Nat.lt_of_le_of_lt (Nat.succ_le_succ hcount) hfew
  · intro _
    rw [if_pos ⟨hs, rfl⟩]
    exact Nat.succ_le_succ hcount
  · intro hstopping
    contradiction
  · exact (List.append_nil _).symm

theorem reported {k : ℕ} {status : PodStatusReport} (h : Followed podId m)
    (howed : m.owed = some (k, status)) (ht : status.terminal) (hin : m.inHand = none) :
    Followed podId { m.note (.sent (.podStatusEvent ⟨k, status⟩)) with owed := none } := by
  have hends : (WorkerMessage.podStatusEvent ⟨k, status⟩).ends podId = due podId m.owed := by
    rw [howed]
    show (if k = podId ∧ status.terminal = true then [status] else []) = _
    simp only [ht, and_true]
    rfl
  refine ⟨abides_concat.mpr ⟨h.lawful, ?_⟩, ?_⟩
  · intro _ _
    rw [hends]
    exact h.fits.owed
  · unfold Moment.note
    rw [life_append]
    refine ⟨h.fits.entry, h.fits.inHand, ?_, h.fits.counted, h.fits.halted⟩
    show (life podId m.trace).endings =
      (if (life podId m.trace).inHand.isNone then _ ++ _ else _) ++ []
    rw [h.fits.inHand, hin, hends]
    exact h.fits.owed.trans (List.append_nil _).symm

theorem deed {now : ℕ} {m' : Moment} (h : Followed podId m) (hw : m.worker.Orderly)
    (hdeed : Deed now m m') : Followed podId m' := by
  cases hdeed with
  | received msg => exact h.received msg
  | sent msg hquiet => exact h.sent fun hin => hquiet hin podId
  | reported howed ht hin => exact h.reported howed ht hin
  | asked c _ => exact h.called c
  | creation spec answer _ _ _ => exact ⟨(h.called _).lawful, (h.called _).fits⟩
  | moved hl hplain => exact h.plain hw hl hplain
  | @created k pod handle hl hs _ =>
    by_cases hk : podId = k
    · subst hk
      have hl' : (m.worker.setPod podId (pod.created now handle)).pods.lookup podId =
          some (pod.created now handle) := AList.lookup_insert _
      have hnext : Followed podId (m.write (m.worker.setPod podId (pod.created now handle))) := by
        refine h.advanced hl hl' ?_ (.created hs rfl) ⟨?_, ?_⟩ (fun _ => rfl) ?_ rfl <;>
          simp [hs, TrackedPod.created, TrackedPodState.early]
      exact ⟨hnext.lawful, hnext.fits⟩
    · have hset : (m.worker.setPod k (pod.created now handle)).pods.lookup podId =
          m.worker.pods.lookup podId := AList.lookup_insert_ne hk
      have hnext := h.quiet hset rfl
      exact ⟨hnext.lawful, hnext.fits⟩
  | @exited k pod hl hs handle exitCode hin =>
    have hcalled := h.called ⟨.podStatus handle, .ok (.stopped exitCode)⟩
    by_cases hk : podId = k
    · subst hk
      refine hcalled.stopping hw hl (by rw [hs]; rfl) rfl (.inr ?_)
      have hsees : (life podId (m.trace ++
          [.called ⟨.podStatus handle, .ok (.stopped exitCode)⟩])).lastCall.any Call.seesExit := by
        rw [life_lastCall, lastCall_append]
        rfl
      unfold Life.origin
      rw [hcalled.fits.inHand]
      show (if m.inHand.any _ = true then _ else _) = _
      rw [hin, Option.any_none, if_neg Bool.false_ne_true]
      exact if_pos ⟨hs, hsees⟩
    · exact hcalled.quiet (AList.lookup_insert_ne hk) rfl
  | recreated hl hs hh hfew tick => exact h.recreated hl hs hh hfew
  | @detached k pod handle hl hs hh =>
    have hcalled := h.called ⟨.removePod handle, .ok ()⟩
    by_cases hk : podId = k
    · subst hk
      exact hcalled.kept hl (AList.lookup_insert _) rfl (fun _ => Nat.le_refl _) fun _ => rfl
    · exact hcalled.quiet (AList.lookup_insert_ne hk) rfl
  | failing hl hs hin hrunning reason => exact h.failing hl hs hin hrunning reason
  | @failed k pod hl hs hh hpending hin howed reason =>
    by_cases hk : podId = k
    · subst hk
      refine retired h.lawful (h.tracked hl) howed ?_ rfl (.failed hs reason rfl) m.worker
      obtain hs | hs := hs <;> rw [hs] <;> exact fun heq => nomatch heq
    · exact h.retired_other hk rfl rfl howed _
  | @stopped k pod hl hs hh hin howed exitCode =>
    by_cases hk : podId = k
    · subst hk
      -- The reason leaves the table first; the life still knows what moved the pod.
      have hl₁ : (m.worker.dropReason podId).pods.lookup podId = some pod := hl
      have hfits := (h.tracked hl).kept hl₁ rfl fun _ => Nat.le_refl _
      have hlawful : Abides (Life.step podId) (Life.Allows podId) .new
          (m.trace ++ [.became (m.worker.dropReason podId)]) := by
        refine abides_concat.mpr ⟨h.lawful, ?_⟩
        intro p p' hp hp' hstate
        cases (h.tracked hl).entry.symm.trans hp
        cases hl₁.symm.trans hp'
        exact absurd rfl hstate
      rw [← life_append] at hfits
      have hhalted := hfits.halted pod rfl hs
      have hterminal : (pod.ended now (m.worker.pendingFailureReasons.lookup podId)
          exitCode).state.terminal := finalState_terminal _ _
      have hstatus : finalStatus (m.worker.pendingFailureReasons.lookup podId) exitCode =
          trackedPodStatus (finalState (m.worker.pendingFailureReasons.lookup podId) exitCode) := by
        cases m.worker.pendingFailureReasons.lookup podId <;> rfl
      rw [hstatus]
      refine Followed.retired (m := m.write (m.worker.dropReason podId)) hlawful hfits howed ?_
        hterminal ?_ _
      · intro heq
        rw [heq, hs] at hterminal
        contradiction
      · cases hreason : m.worker.pendingFailureReasons.lookup podId with
        | some reason =>
          rw [hreason] at hhalted
          exact .ended hs reason rfl hhalted
        | none =>
          rw [hreason] at hhalted
          exact .stopped hs exitCode rfl hhalted
    · have hdrop : (m.worker.dropReason k).pendingFailureReasons.lookup podId =
          m.worker.pendingFailureReasons.lookup podId := AList.lookup_erase_ne hk
      exact (h.quiet (w := m.worker.dropReason k) rfl hdrop).retired_other hk rfl rfl howed _
  | @forgotten k pod hl ht =>
    by_cases hk : podId = k
    · subst hk
      have hnone : (m.worker.forget podId).pods.lookup podId = none := AList.lookup_erase _ _
      refine h.absent (.inr hnone) fun p hp => ?_
      rw [hnone] at hp
      contradiction
    · exact h.quiet (AList.lookup_erase_ne hk) rfl
  | @tracked cmd envVars auth hfresh hroom calls hcalls =>
    have hallocated : Followed podId ((m.allocate cmd).ask calls) := by
      apply Followed.asked
      unfold Moment.allocate
      refine quiet (quiet (quiet h ?_ ?_) ?_ ?_) ?_ ?_ <;> rfl
    by_cases hk : podId = cmd.podId
    · subst hk
      refine hallocated.absent (.inl hfresh) fun p hp => ?_
      cases (AList.lookup_insert _).symm.trans hp
      rfl
    · exact hallocated.quiet (AList.lookup_insert_ne hk) rfl
  | beat registered htick => exact h.quiet rfl rfl

end Followed

/-- The lifecycle of every pod in every run whose ticks return: each change of its state is one of
those of `Transition`, it comes to no second end, and at the end of each event the terminal reports
sent without being asked for are those of the ends it came to. -/
theorem lifecycle_followed {σ : Type} (env : Env σ) (outside : σ) (nodeName : String)
    (gpuType : GpuType) (gpuTotal cpuMillicores memoryMegabytes lifecycleConcurrency : ℕ)
    (events : List Event) (s : Scene σ)
    (hrun : run env events ⟨Worker.newWithLifecycleConcurrency nodeName gpuType gpuTotal
      cpuMillicores memoryMegabytes lifecycleConcurrency, [], outside⟩ = .ok ((), s))
    (podId : ℕ) :
    Abides (Life.step podId) (Life.Allows podId) .new s.trace ∧
      (life podId s.trace).reports = (life podId s.trace).endings ∧
      (life podId s.trace).entry = s.worker.pods.lookup podId := by
  have hstart : Followed podId ⟨Worker.newWithLifecycleConcurrency nodeName gpuType gpuTotal
      cpuMillicores memoryMegabytes lifecycleConcurrency, [], [], none, none⟩ :=
    ⟨trivial, rfl, rfl, rfl, fun _ h => (nomatch h), fun _ h => (nomatch h)⟩
  have hkept := run_keeps (fun _ _ _ hw hdeed h => h.deed hw hdeed)
    (Worker.new_orderly _ _ _ _ _ _) hstart hrun
  refine ⟨hkept.2.lawful, ?_, hkept.2.fits.entry⟩
  exact (hkept.2.fits.owed.trans (List.append_nil _)).symm

/-- A host on which every pod has exited. -/
def shortlived : Env Unit where
  overflowChecks := true
  answer := fun
    | .podStatus _, o => (.ok (.stopped 3), o)
    | r, o => obliging.answer r o

def shortlivedRun : Except Panic (Unit × Scene Unit) :=
  run shortlived [.tick 0 [.startPod (startCommand 1 2 "")], .tick 1 [], .tick 2 [], .tick 3 []]
    ⟨Worker.newWithLifecycleConcurrency "node" .none 4 0 0 4, [], ()⟩

theorem lifecycle_followed_exit :
    ∃ s, shortlivedRun = .ok ((), s) ∧ Abides (Life.step 1) (Life.Allows 1) .new s.trace ∧
      (life 1 s.trace).reports = [.stopped 3] := by
  have hends : (match shortlivedRun with
      | .ok (_, s) => some (life 1 s.trace).endings
      | .error _ => none) = some [.stopped 3] := by decide +kernel
  cases h : shortlivedRun with
  | error e =>
    rw [h] at hends
    contradiction
  | ok r =>
    rw [h] at hends
    obtain ⟨hlawful, hreports, -⟩ := lifecycle_followed shortlived () "node" .none 4 0 0 4 _ r.2 h 1
    exact ⟨r.2, rfl, hlawful, hreports.trans (Option.some.inj hends)⟩

end Hivemind.Agent
