import Hivemind.WorkerRuns

/-! `drive_pods` and `tick` against the changes of `WorkerSteps`. The walk reads `self.pods[&pod_id]`
for ids collected before it began, so it depends on no pod being forgotten meanwhile; the results
of the operations are only applied to pods that are still in the state of their operation. -/
namespace Hivemind.Agent

open Job

def LifecycleOp.podId : LifecycleOp → ℕ
  | .pull podId _ _ _ | .create podId _ _ | .start podId _ _ | .stop podId _ _ _ => podId

variable {σ : Type} {env : Env σ} {now podId : ℕ} {w : Worker} {tr tr' : List Obs}
  {pod : TrackedPod} {E : Panic → Prop}

/-! ### One round of the walk -/

/-- The panics a round may end in. -/
inductive Excused (w : Worker) (podId : ℕ) : Panic → Prop
  | missing (h : w.pods.lookup podId = none) : Excused w podId (.noEntry podId)
  | overflow (h : ¬ w.Clocked) : Excused w podId .overflow

/-- A pod that a round of the walk may bring to its end. -/
def TrackedPod.retirable (now : ℕ) (pod : TrackedPod) : Bool :=
  match pod.state with
  | .running => true
  | .creating => decide (pod.lifecycleRetryAfterTick ≤ now) && !pod.juicefsPath.isEmpty
  | _ => false

structure Visited (now podId : ℕ) (w w' : Worker) : Prop where
  touched : Touched podId w w'
  quiet : (w.pods.lookup podId).any (TrackedPod.retirable now) = false → w' = w

theorem Visited.refl : Visited now podId w w := ⟨Aside.refl.touched, fun _ => rfl⟩

theorem Touched.visited {w' : Worker} (h : Touched podId w w')
    (hl : w.pods.lookup podId = some pod) (hr : pod.retirable now) : Visited now podId w w' := by
  refine ⟨h, fun hno => ?_⟩
  rw [hl, Option.any_some, hr] at hno
  contradiction

/-- The pod is in the state of its operation, which has its handle. -/
def LifecycleOp.Ready (w : Worker) (op : LifecycleOp) : Prop :=
  ∃ pod, w.pods.lookup op.podId = some pod ∧
    match op with
    | .pull .. => pod.state = .imagePulling
    | .create _ _ spec => pod.state = .creating ∧ spec.podId = op.podId
    | .start _ _ handle => pod.state = .starting ∧ pod.handle = some handle
    | .stop .. => pod.state = .stopping

theorem LifecycleOp.Ready.kept {w' : Worker} {op : LifecycleOp} (h : op.Ready w)
    (htouched : Touched podId w w') (hne : op.podId ≠ podId) : op.Ready w' := by
  obtain ⟨pod, hl, hs⟩ := h
  refine ⟨pod, htouched.kept _ _ hne hl ?_, hs⟩
  cases op with
  | pull _ _ _ _ => rw [hs]; rfl
  | create _ _ _ => rw [hs.1]; rfl
  | start _ _ _ => rw [hs.1]; rfl
  | stop _ _ _ _ => rw [hs]; rfl

/-- What a round of the walk does and which operation it asks for. -/
structure Round (now podId : ℕ) (w : Worker) (tr : List Obs) (op : Option LifecycleOp)
    (w' : Worker) (tr' : List Obs) : Prop where
  visited : Visited now podId w w'
  leads : Leads now none podId w tr w' tr'
  ready : ∀ o ∈ op, o.podId = podId ∧ o.Ready w'

theorem Round.idle (h : Leads now none podId w tr w tr') : Round now podId w tr none w tr' :=
  ⟨.refl, h, fun _ ho => nomatch ho⟩

theorem Round.op {op : LifecycleOp} (h : Leads now none podId w tr w tr') (hid : op.podId = podId)
    (hready : op.Ready w) : Round now podId w tr (some op) w tr' :=
  ⟨.refl, h, fun _ ho => Option.mem_some.mp ho ▸ ⟨hid, hready⟩⟩

theorem podMounts_does (now : ℕ) : Does (podMounts env pod podId) w tr (fun a w' tr' => w' = w ∧
    (pod.juicefsPath.isEmpty → a = .ok []) ∧ Leads now none podId w tr w' tr') E := by
  unfold podMounts
  split_ifs with hempty
  · exact Does.pure ⟨rfl, fun _ => rfl, .refl⟩
  · unfold mountJuicefs
    split_ifs
    · exact Does.pure ⟨rfl, fun h => absurd h hempty, .refl⟩
    · rw [bind_assoc]
      apply Does.call
      intro mounted
      exact Does.pure ⟨rfl, fun h => absurd h hempty, .asked _ rfl⟩

theorem visitCreating_does (hw : w.Orderly) (hl : w.pods.lookup podId = some pod)
    (hs : pod.state = .creating) :
    Does (visitCreating env podId now) w tr (Round now podId w tr) E := by
  unfold visitCreating
  apply Does.pod hl
  split_ifs with hlate
  · exact Does.pure (.idle .refl)
  · refine Does.bind (podMounts_does now) ?_
    rintro mounts w' tr' ⟨rfl, hmounts, hleads⟩
    cases mounts with
    | ok mounts =>
      apply Does.worker
      exact Does.pure (.op hleads rfl ⟨pod, hl, hs, rfl⟩)
    | error error =>
      have hr : pod.retirable now := by
        have hpath : ¬ pod.juicefsPath.isEmpty := fun h => nomatch hmounts h
        unfold TrackedPod.retirable
        rw [hs]
        simp [Nat.not_lt.mp hlate, hpath]
      refine Does.bind (failPod_does _ hw hl (by rw [hs]; rfl) (by simp [hs])) ?_
      rintro _ w'' _ ⟨htouched, hfailed⟩
      exact Does.pure ⟨htouched.visited hl hr, hleads.trans hfailed, fun _ ho => nomatch ho⟩

theorem visitStarting_does (hl : w.pods.lookup podId = some pod) (hs : pod.state = .starting) :
    Does (visitStarting podId now : Job σ _) w tr (Round now podId w tr) E := by
  unfold visitStarting
  apply Does.pod hl
  split_ifs
  · exact Does.pure (.idle .refl)
  · apply Does.pure
    cases hh : pod.handle with
    | none => exact .idle .refl
    | some handle => exact .op .refl rfl ⟨pod, hl, hs, hh⟩

theorem visitStopping_does (hl : w.pods.lookup podId = some pod) (hs : pod.state = .stopping) :
    Does (visitStopping podId now : Job σ _) w tr (Round now podId w tr) E := by
  unfold visitStopping
  apply Does.pod hl
  split_ifs
  · exact Does.pure (.idle .refl)
  · exact Does.pure (.op .refl rfl ⟨pod, hl, hs⟩)

theorem shouldProbe_does (hl : w.pods.lookup podId = some pod) :
    Does (shouldProbe env podId now) w tr (fun _ w' tr' => w' = w ∧ tr' = tr)
      (Excused w podId) := by
  unfold shouldProbe
  apply Does.pod hl
  split_ifs
  · apply Does.add
    · intro hover
      apply Excused.overflow
      intro hclock
      obtain ⟨hprobe, hinterval⟩ := hclock.probe _ _ hl
      omega
    · exact Does.pure ⟨rfl, rfl⟩
  · exact Does.pure ⟨rfl, rfl⟩

section Entry

variable (hw : w.Orderly) (hl : w.pods.lookup podId = some pod)
include hw hl

theorem recordProbe_does (hs : pod.state = .running) (alive : Except RuntimeError Bool) :
    Does (recordProbe env podId now alive) w tr (Handled now podId w tr) E := by
  have hcounted : ∀ failures,
      Aside podId w (w.setPod podId { pod with consecutiveFailures := failures }) :=
    fun failures => Aside.move hl (.counted hs failures : Move now pod _)
  have hleads : ∀ failures, Leads now none podId w tr
      (w.setPod podId { pod with consecutiveFailures := failures })
      (tr ++ [.became (w.setPod podId { pod with consecutiveFailures := failures })]) :=
    fun failures => .move hl (.counted hs failures)
  have hfail : Does (do
      let found ← Job.pod podId .unwrapNone
      let failures := saturatingAdd 8 found.consecutiveFailures 1
      updatePod podId .unwrapNone fun pod => { pod with consecutiveFailures := failures }
      if 3 ≤ failures then failPod env podId "liveness probe failed" now else pure ()) w tr
      (Handled now podId w tr) E := by
    apply Does.pod hl
    apply Does.updatePod hl
    split_ifs
    · refine (failPod_does _ ((hleads _).orderly hw) (AList.lookup_insert _) ?_ ?_).weaken
        fun _ _ _ h => ⟨(hcounted _).trans_touched h.1, (hleads _).trans h.2⟩
      · show pod.state.stoppable
        rw [hs]
        rfl
      · rw [lastCall_append]
        exact fun _ _ hc => nomatch hc
    · exact Does.pure ⟨(hcounted _).touched, hleads _⟩
  match alive with
  | .ok true =>
    apply Does.last
    apply Does.updatePod hl
    exact Does.pure ⟨(hcounted 0).touched, hleads 0⟩
  | .ok false => exact hfail
  | .error _ => exact hfail

theorem Worker.Orderly.handle (hs : pod.state = .running) : ∃ handle, pod.handle = some handle := by
  have hfit := hw.fit _ _ hl
  unfold TrackedPod.Fit at hfit
  rw [hs] at hfit
  exact Option.isSome_iff_exists.mp hfit

theorem probeLiveness_does (hs : pod.state = .running) :
    Does (probeLiveness env podId now) w tr (Handled now podId w tr) E := by
  obtain ⟨handle, hh⟩ := hw.handle hl hs
  have hprobed : Aside podId w (w.setPod podId { pod with lastProbeTick := now }) :=
    Aside.move hl (.probed hs : Move now pod _)
  have hleads : Leads now none podId w tr (w.setPod podId { pod with lastProbeTick := now })
      (tr ++ [.became (w.setPod podId { pod with lastProbeTick := now })]) :=
    .move hl (.probed hs)
  unfold probeLiveness
  apply Does.pod hl
  rw [hh]
  apply Does.updatePod hl
  apply Does.call
  intro alive
  refine (recordProbe_does (hleads.orderly hw) (AList.lookup_insert _) ?_ alive).weaken
    fun _ _ _ h => ⟨hprobed.trans_touched h.1, (hleads.trans (.asked _ rfl)).trans h.2⟩
  exact hs

theorem visitRunning_does (hs : pod.state = .running) :
    Does (visitRunning env podId now) w tr (Handled now podId w tr) (Excused w podId) := by
  obtain ⟨handle, hh⟩ := hw.handle hl hs
  have hstoppable : pod.state.stoppable := by rw [hs]; rfl
  -- The pod fails on what its status was, which is not that it has exited.
  have hfail : ∀ (reason : String) (status : Except RuntimeError PodStatus),
      Call.seesExit ⟨.podStatus handle, status⟩ = false →
      Does (failPod env podId reason now) w (tr ++ [.called ⟨.podStatus handle, status⟩])
        (Handled now podId w tr) (Excused w podId) := by
    intro reason status hstatus
    refine (failPod_does reason hw hl hstoppable fun _ c hc => ?_).weaken fun _ _ _ h =>
      ⟨h.1, Leads.trans (.asked ⟨.podStatus handle, status⟩ rfl) h.2⟩
    rw [lastCall_append] at hc
    cases hc
    exact hstatus
  unfold visitRunning
  apply Does.pod hl
  rw [hh]
  apply Does.call
  intro status
  match status with
  | .ok .running =>
    refine Does.bind (shouldProbe_does hl) ?_
    rintro due w' tr' ⟨rfl, rfl⟩
    have hasked : Leads now none podId w' tr w' (tr ++ [.called ⟨.podStatus handle, .ok .running⟩]) :=
      .asked _ rfl
    split_ifs
    · exact (probeLiveness_does hw hl hs).weaken fun _ _ _ h => ⟨h.1, hasked.trans h.2⟩
    · exact Does.pure ⟨Aside.refl.touched, hasked⟩
  | .ok (.stopped exitCode) =>
    have hexited : Aside podId w (w.setPod podId (pod.exited now)) :=
      Aside.move hl (.exited hs : Move now pod _)
    have hleads : Leads now none podId w tr (w.setPod podId (pod.exited now))
        (tr ++ [.called ⟨.podStatus handle, .ok (.stopped exitCode)⟩] ++
          [.became (w.setPod podId (pod.exited now))]) :=
      .single fun _ hfree => .exited hl hs handle exitCode rfl hfree
    apply Does.updatePod hl
    exact (completePodStop_does exitCode (hleads.orderly hw) (AList.lookup_insert _)
      rfl).weaken fun _ _ _ h => ⟨hexited.trans_touched h.1, hleads.trans h.2⟩
  | .ok .created => exact hfail _ _ rfl
  | .ok .unknown => exact hfail _ _ rfl
  | .error _ => exact hfail _ _ rfl

end Entry

theorem visit_does (hw : w.Orderly) :
    Does (visit env now podId) w tr (Round now podId w tr) (Excused w podId) := by
  cases hl : w.pods.lookup podId with
  | none => exact Does.pod_missing hl (.missing hl)
  | some pod =>
    unfold visit
    apply Does.pod hl
    cases hs : pod.state with
    | imagePulling => exact Does.pure (.op .refl rfl ⟨pod, hl, hs⟩)
    | creating => exact visitCreating_does hw hl hs
    | starting => exact visitStarting_does hl hs
    | running =>
      have hr : pod.retirable now := by
        unfold TrackedPod.retirable
        rw [hs]
      refine Does.bind (visitRunning_does hw hl hs) ?_
      rintro _ w' _ ⟨htouched, hleads⟩
      exact Does.pure ⟨htouched.visited hl hr, hleads, fun _ ho => nomatch ho⟩
    | stopping => exact visitStopping_does hl hs
    | stopped _ => exact Does.pure (.idle .refl)
    | failed _ => exact Does.pure (.idle .refl)

/-! ### The walk -/

/-- What the walk does and which operations it asks for. -/
structure Walked (now : ℕ) (podIds : List ℕ) (w : Worker) (tr : List Obs)
    (ops : List LifecycleOp) (w' : Worker) (tr' : List Obs) : Prop where
  passes : Passes now none w tr w' tr'
  ready : ∀ op ∈ ops, op.Ready w'
  distinct : (ops.map LifecycleOp.podId).Sublist podIds
  kept : ∀ op : LifecycleOp, op.podId ∉ podIds → op.Ready w → op.Ready w'

theorem walk_does (hw : w.Orderly) {podIds : List ℕ} (hnodup : podIds.Nodup) :
    Does (walk env now podIds) w tr (Walked now podIds w tr) (fun _ => True) := by
  induction podIds generalizing w tr with
  | nil => exact Does.pure ⟨.refl, fun _ h => absurd h List.not_mem_nil, .slnil, fun _ _ h => h⟩
  | cons podId podIds ih =>
    obtain ⟨hnotin, hnodup⟩ := List.nodup_cons.mp hnodup
    unfold walk
    refine Does.bind ((visit_does hw).mono (fun _ _ _ h => h) fun _ _ => trivial) ?_
    intro op w' tr' hround
    refine Does.bind (ih (hround.leads.orderly hw) hnodup) ?_
    intro ops w'' tr'' hrest
    refine Does.pure ⟨hround.leads.passes.trans hrest.passes, ?_, ?_, ?_⟩
    · intro o ho
      obtain ho | ho := List.mem_append.mp ho
      · obtain ⟨hid, hready⟩ := hround.ready o (Option.mem_toList.mp ho)
        exact hrest.kept o (hid ▸ hnotin) hready
      · exact hrest.ready o ho
    · cases op with
      | none => exact hrest.distinct.cons podId
      | some o =>
        rw [Option.toList_some, List.singleton_append, List.map_cons,
          (hround.ready o rfl).1]
        exact hrest.distinct.cons_cons podId
    · intro o ho hready
      obtain ⟨hne, hrestid⟩ := List.ne_and_not_mem_of_not_mem_cons ho
      exact hrest.kept o hrestid (hready.kept hround.visited.touched hne)

theorem Worker.podIds_nodup (w : Worker) : (w.pods.keys.insertionSort (· ≤ ·)).Nodup :=
  (List.perm_insertionSort _ _).nodup_iff.mpr w.pods.keys_nodup

/-- The pod of this id may come to its end in the walk. -/
def Worker.retires (w : Worker) (now podId : ℕ) : Bool :=
  (w.pods.lookup podId).any (TrackedPod.retirable now)

/-- With room for a tombstone of every pod that may come to its end, no pod is forgotten during
the walk and every id it reads is that of a tracked pod. -/
theorem walk_returns (hnow : now < 2 ^ 63) (hw : w.Orderly) (hclock : w.Clocked) {podIds : List ℕ}
    (hnodup : podIds.Nodup) (htracked : ∀ podId ∈ podIds, podId ∈ w.pods)
    (hroom : w.terminalPods.length + podIds.countP (w.retires now) ≤ maxTerminalTombstones) :
    Does (walk env now podIds) w tr (fun _ _ _ => True) (fun _ => False) := by
  induction podIds generalizing w tr with
  | nil => exact Does.pure trivial
  | cons podId podIds ih =>
    have hnotin := List.nodup_cons.mp hnodup
    unfold walk
    refine Does.bind ((visit_does hw).mono (fun _ _ _ h => h) ?_) ?_
    · intro e he
      cases he with
      | missing hnone => exact AList.lookup_eq_none.mp hnone (htracked _ List.mem_cons_self)
      | overflow hnot => exact hnot hclock
    · intro op w' tr' hround
      have hvisited := hround.visited
      have hch := hround.leads.changes
      have hrest : (∀ k ∈ podIds, w'.pods.lookup k = w.pods.lookup k) ∧
          w'.terminalPods.length + podIds.countP (w.retires now) ≤ maxTerminalTombstones := by
        rw [List.countP_cons] at hroom
        cases hr : w.retires now podId with
        | false =>
          rw [hvisited.quiet hr]
          exact ⟨fun _ _ => rfl, by omega⟩
        | true =>
          rw [if_pos hr] at hroom
          obtain ⟨hothers, htombs⟩ := hvisited.touched.room (by omega)
          refine ⟨fun k hk => hothers k ?_, by omega⟩
          rintro rfl
          exact hnotin.1 hk
      refine Does.bind (ih (hch.orderly hw) (hch.clocked hnow hclock) hnotin.2 ?_ ?_) ?_
      · intro k hk
        rw [← AList.lookup_isSome, hrest.1 k hk, AList.lookup_isSome]
        exact htracked k (List.mem_cons_of_mem _ hk)
      · have hcount : podIds.countP (w'.retires now) = podIds.countP (w.retires now) := by
          apply List.countP_congr
          intro k hk
          rw [Worker.retires, hrest.1 k hk]
          rfl
        rw [hcount]
        exact hrest.2
      · intro ops w'' tr'' _
        exact Does.pure trivial

/-! ### The operations and their results -/

theorem phaseConcurrency_pos (c : ℕ) (op : LifecycleOp) : 0 < phaseConcurrency c op := by
  cases op <;> simp only [phaseConcurrency] <;> omega

theorem chunks_flatten (c : ℕ) {fuel : ℕ} {ops : List LifecycleOp} (h : ops.length ≤ fuel) :
    (chunks c fuel ops).flatten = ops := by
  induction fuel generalizing ops with
  | zero => exact (List.length_eq_zero_iff.mp (Nat.le_zero.mp h)).symm
  | succ fuel ih =>
    cases ops with
    | nil => rfl
    | cons op ops =>
      have hpos := phaseConcurrency_pos c op
      have hshort : ((op :: ops).drop (phaseConcurrency c op)).length ≤ fuel := by
        rw [List.length_drop]
        simp only [List.length_cons] at h ⊢
        omega
      rw [chunks, List.flatten_cons, ih hshort]
      exact List.take_append_drop _ _

/-- The result is that of an operation of its kind. -/
def LifecycleOp.Answers : LifecycleOp → LifecycleResult → Prop
  | .pull .., .pull _ | .create .., .create _ | .start .., .start _ | .stop .., .stop _ => True
  | _, _ => False

theorem verifyStopped_does (now podId : ℕ) (handle : PodHandle) (stopError : Option RuntimeError) :
    Does (verifyStopped env handle stopError) w tr
      (fun _ w' tr' => w' = w ∧ Leads now none podId w tr w' tr') E := by
  unfold verifyStopped
  apply Does.call
  intro status
  match status with
  | .ok (.stopped _) | .ok .created | .ok .running | .ok .unknown | .error _ =>
    exact Does.pure ⟨rfl, .asked _ rfl⟩

theorem stopPod_does (now podId : ℕ) (handle : PodHandle) (gracePeriodMs : ℕ) (attemptStop : Bool) :
    Does (stopPod env handle gracePeriodMs attemptStop) w tr
      (fun _ w' tr' => w' = w ∧ Leads now none podId w tr w' tr') E := by
  unfold stopPod
  split_ifs
  · apply Does.call
    intro stopped
    have hasked : Leads now none podId w tr w
        (tr ++ [.called ⟨.stopPod handle gracePeriodMs, stopped⟩]) := .asked _ rfl
    match stopped with
    | .ok () | .error _ =>
      exact (verifyStopped_does now podId _ _).weaken fun _ _ _ h => ⟨h.1, hasked.trans h.2⟩
  · exact verifyStopped_does now podId _ _

/-- The handle that a completion has for its pod. -/
def flightOf : LifecycleOp × LifecycleResult → List (ℕ × PodHandle)
  | (.create _ _ spec, .create answer) => flight spec answer
  | _ => []

/-- What an operation does before its result is applied. -/
def Executes (now : ℕ) (w : Worker) (tr : List Obs) (completions : List (LifecycleOp × LifecycleResult))
    (tr' : List Obs) (flights : List (ℕ × PodHandle)) : Prop :=
  Deeds now ⟨w, tr, flights, none, none⟩
    ⟨w, tr', flights ++ completions.flatMap flightOf, none, none⟩

theorem execute_does (now : ℕ) {op : LifecycleOp} (hready : op.Ready w) :
    Does (execute env op) w tr (fun result w' tr' => w' = w ∧ op.Answers result ∧
      ∀ flights : List (ℕ × PodHandle), (∀ handle, (op.podId, handle) ∉ flights) →
        Executes now w tr [(op, result)] tr' flights) E := by
  have hquiet : ∀ {result tr'}, flightOf (op, result) = [] → Leads now none op.podId w tr w tr' →
      ∀ flights : List (ℕ × PodHandle), (∀ handle, (op.podId, handle) ∉ flights) →
        Executes now w tr [(op, result)] tr' flights := by
    intro result tr' hnone hleads flights hfree
    unfold Executes
    rw [List.flatMap_singleton, hnone, List.append_nil]
    exact hleads flights hfree
  match op with
  | .pull _ _ image auth =>
    apply Does.call
    intro result
    exact Does.pure ⟨rfl, trivial, hquiet rfl (.asked _ rfl)⟩
  | .create podId _ spec =>
    obtain ⟨pod, hl, hs, rfl⟩ := hready
    apply Does.call
    intro result
    refine Does.pure ⟨rfl, trivial, fun flights hfree => ?_⟩
    unfold Executes
    rw [List.flatMap_singleton]
    exact .single (.creation spec result hl hs hfree)
  | .start _ _ handle =>
    apply Does.call
    intro result
    exact Does.pure ⟨rfl, trivial, hquiet rfl (.asked _ rfl)⟩
  | .stop podId (some handle) gracePeriodMs attemptStop =>
    refine Does.bind (stopPod_does now podId _ _ _) ?_
    rintro result w' tr' ⟨rfl, hleads⟩
    exact Does.pure ⟨rfl, trivial, hquiet rfl hleads⟩
  | .stop _ none _ _ => exact Does.pure ⟨rfl, trivial, hquiet rfl .refl⟩

theorem mem_flightOf {c : LifecycleOp × LifecycleResult} {entry : ℕ × PodHandle}
    (hready : c.1.Ready w) (h : entry ∈ flightOf c) : entry.1 = c.1.podId := by
  match c, h with
  | (.create podId _ spec, .create (.ok handle)), h =>
    obtain ⟨pod, _, _, hid⟩ := hready
    rw [List.mem_singleton.mp h]
    exact hid

theorem executeAll_does (now : ℕ) {ops : List LifecycleOp} (hready : ∀ op ∈ ops, op.Ready w)
    (hnodup : (ops.map LifecycleOp.podId).Nodup) :
    Does (executeAll env ops) w tr (fun completions w' tr' => w' = w ∧
      completions.map Prod.fst = ops ∧ (∀ c ∈ completions, c.1.Answers c.2) ∧
      ∀ flights : List (ℕ × PodHandle), (∀ op ∈ ops, ∀ handle, (op.podId, handle) ∉ flights) →
        Executes now w tr completions tr' flights) E := by
  induction ops generalizing tr with
  | nil =>
    refine Does.pure ⟨rfl, rfl, fun _ h => absurd h List.not_mem_nil, fun flights _ => ?_⟩
    unfold Executes
    rw [List.flatMap_nil, List.append_nil]
  | cons op ops ih =>
    obtain ⟨hhead, htail⟩ := List.forall_mem_cons.mp hready
    obtain ⟨hnotin, hnodup⟩ := List.nodup_cons.mp hnodup
    unfold executeAll
    refine Does.bind (execute_does now hhead) ?_
    rintro result w' tr' ⟨rfl, hop, hexec⟩
    refine Does.bind (ih htail hnodup) ?_
    rintro rest w'' tr'' ⟨rfl, hops, hrest, hexecs⟩
    refine Does.pure ⟨rfl, by rw [List.map_cons, hops], List.forall_mem_cons.mpr ⟨hop, hrest⟩, ?_⟩
    intro flights hfree
    obtain ⟨hfirst, hlater⟩ := List.forall_mem_cons.mp hfree
    unfold Executes at hexecs ⊢
    rw [List.flatMap_cons, ← List.append_assoc]
    have h1 := hexec flights hfirst
    unfold Executes at h1
    rw [List.flatMap_singleton] at h1
    refine h1.trans (hexecs _ fun o ho handle hmem => ?_)
    obtain hmem | hmem := List.mem_append.mp hmem
    · exact hlater o ho handle hmem
    · have hsame := mem_flightOf hhead hmem
      exact hnotin (hsame ▸ List.mem_map_of_mem ho)

theorem podIs_does {state : TrackedPodState} {m : Job σ Unit} {Q : Unit → Worker → List Obs → Prop}
    (hsame : (∀ pod, w.pods.lookup podId = some pod → pod.state ≠ state) → Q () w tr)
    (h : ∀ pod, w.pods.lookup podId = some pod → pod.state = state → Does m w tr Q E) :
    Does (do if ← podIs podId state then m else pure ()) w tr Q E := by
  unfold podIs
  rw [bind_assoc]
  apply Does.worker
  rw [pure_bind]
  split_ifs with his
  · obtain ⟨pod, hl, hs⟩ := Option.map_eq_some_iff.mp (of_decide_eq_true his)
    exact h pod hl hs
  · apply Does.pure
    apply hsame
    intro pod hl hs
    apply his
    rw [hl, Option.map_some, hs]
    exact decide_eq_true rfl

theorem retryLifecyclePod_does (hl : w.pods.lookup podId = some pod) :
    Does (retryLifecyclePod env podId now) w tr (fun retry w' tr' =>
      if retry then pod.lifecycleFailures + 1 < lifecycleRetryMax ∧ ∃ tick,
        w' = w.setPod podId (pod.retried tick) ∧ tr' = tr ++ [.became w']
      else w' = w ∧ tr' = tr) E := by
  unfold retryLifecyclePod
  apply Does.worker
  rw [hl]
  dsimp only
  split_ifs with hmax
  · exact Does.pure ⟨rfl, rfl⟩
  · have hfew : pod.lifecycleFailures + 1 < lifecycleRetryMax := by
      unfold saturatingAdd lifecycleRetryMax at hmax
      unfold lifecycleRetryMax
      omega
    unfold lifecycleRetryMax at hfew
    apply Does.add (fun hover => by omega)
    rw [Nat.mod_eq_of_lt (by omega)]
    apply Does.shiftOne (by omega)
    apply Does.modifyWorker
    apply Does.pure
    exact ⟨hfew, _, rfl, rfl⟩

section Answers

variable (hw : w.Orderly) (hl : w.pods.lookup podId = some pod)
include hw hl

theorem startFailed_does (hs : pod.state = .starting) {handle : PodHandle} (hh : pod.handle = some handle)
    (e : RuntimeError) :
    Does (startFailed env podId now handle e) w tr (Handled now podId w tr) E := by
  have hstoppable : pod.state.stoppable := by rw [hs]; rfl
  have hnot : pod.state = .running → ∀ c ∈ lastCall tr, c.seesExit = false := by
    intro hrunning
    rw [hs] at hrunning
    contradiction
  unfold startFailed
  refine Does.bind (retryLifecyclePod_does hl) ?_
  intro retry w' tr' hretry
  split_ifs at hretry ⊢
  · obtain ⟨hfew, tick, rfl, rfl⟩ := hretry
    have haside : Aside podId w (w.setPod podId (pod.retried tick)) :=
      Aside.move hl (.retried hs _ tick : Move now pod _)
    apply Does.call
    intro removed
    match removed with
    | .ok () =>
      apply Does.worker
      have hl' : (w.setPod podId (pod.retried tick)).pods.lookup podId =
          some (pod.retried tick) := AList.lookup_insert _
      rw [hl']
      apply Does.last
      apply Does.modifyWorker
      apply Does.pure
      have haside' : Aside podId (w.setPod podId (pod.retried tick))
          ((w.setPod podId (pod.retried tick)).setPod podId ((pod.retried tick).recreated now)) :=
        Aside.move hl' (.recreated hs)
      exact ⟨haside.trans_touched haside'.touched, .single fun _ hfree => .recreated hl hs hh hfew tick hfree⟩
    | .error cleanupError =>
      have hleads : Leads now none podId w tr (w.setPod podId (pod.retried tick))
          (tr ++ [.became (w.setPod podId (pod.retried tick))] ++
            [.called ⟨.removePod handle, .error cleanupError⟩]) :=
        (Leads.move hl (.retried hs hfew tick)).trans (.asked _ rfl)
      refine (failPod_does _ (hleads.orderly hw) (AList.lookup_insert _) hstoppable ?_).weaken
        fun _ _ _ h => ⟨haside.trans_touched h.1, hleads.trans h.2⟩
      rw [lastCall_append]
      rintro _ c hc
      cases hc
      rfl
  · obtain ⟨rfl, rfl⟩ := hretry
    exact failPod_does _ hw hl hstoppable hnot

theorem completePull_does (hs : pod.state = .imagePulling) (result : Except RuntimeError Unit) :
    Does (completePull env podId now (.pull result)) w tr (Handled now podId w tr) E := by
  match result with
  | .ok () =>
    have hmove : Plain now none podId pod { pod with state := .creating, stateChangedAt := now } :=
      .pulled hs
    apply Does.updatePod hl
    apply Does.last
    apply Does.send
    refine Does.pure ⟨(Aside.move hl hmove.move).touched, (Leads.move hl hmove).trans (.sent _ ?_)⟩
    intro _ k
    exact if_neg fun h => nomatch h.2
  | .error e => exact failPod_does _ hw hl (by rw [hs]; rfl) (by simp [hs])

theorem completeCreate_does (hs : pod.state = .creating) {spec : PodSpec} (hid : spec.podId = podId)
    (result : Except RuntimeError PodHandle) :
    Does (completeCreate env podId now (.create result)) w tr
      (fun _ w' tr' => Touched podId w w' ∧
        ∀ flights : List (ℕ × PodHandle), (∀ handle, (podId, handle) ∉ flights) →
          Deeds now ⟨w, tr, flight spec result ++ flights, none, none⟩
            ⟨w', tr', flights, none, none⟩) E := by
  match result with
  | .ok handle =>
    apply Does.last
    apply Does.updatePod hl
    refine Does.pure ⟨(Aside.move hl (.created hs handle : Move now pod _)).touched, ?_⟩
    intro flights _
    have hflight : (podId, handle) ∈ flight spec (.ok handle) ++ flights := by
      rw [← hid]
      exact List.mem_cons_self
    have hdeed : Deed now ⟨w, tr, flight spec (.ok handle) ++ flights, none, none⟩ _ :=
      .created hl hs hflight
    have herase : (flight spec (.ok handle) ++ flights).erase (podId, handle) = flights := by
      rw [← hid]
      exact List.erase_cons_head _ _
    rw [herase] at hdeed
    exact .single hdeed
  | .error e =>
    exact (failPod_does _ hw hl (by rw [hs]; rfl) (by simp [hs])).weaken
      fun _ _ _ h => ⟨h.1, h.2⟩

theorem completeStart_does (hs : pod.state = .starting) {handle : PodHandle} (hh : pod.handle = some handle)
    (result : Except RuntimeError Unit) :
    Does (completeStart env podId now handle (.start result)) w tr (Handled now podId w tr) E := by
  match result with
  | .ok () =>
    have hmove : Plain now none podId pod (pod.started now) := .started hs
    apply Does.updatePod hl
    apply Does.last
    apply Does.send
    refine Does.pure ⟨(Aside.move hl hmove.move).touched, (Leads.move hl hmove).trans (.sent _ ?_)⟩
    intro _ k
    exact if_neg fun h => nomatch h.2
  | .error e => exact startFailed_does hw hl hs hh e

theorem completeStop_does (hs : pod.state = .stopping) (result : Except RuntimeError Int32) :
    Does (completeStop env podId now (.stop result)) w tr (Handled now podId w tr) E := by
  match result with
  | .ok exitCode => exact completePodStop_does exitCode hw hl hs
  | .error e =>
    exact (scheduleStopRetry_does hl hs).weaken fun _ _ _ h => ⟨h.1.touched, h.2⟩

end Answers

theorem complete_does (hw : w.Orderly) {c : LifecycleOp × LifecycleResult} (hready : c.1.Ready w)
    (hc : c.1.Answers c.2) :
    Does (complete env now c) w tr (fun _ w' tr' => Touched c.1.podId w w' ∧
      ∀ flights : List (ℕ × PodHandle), (∀ handle, (c.1.podId, handle) ∉ flights) →
        Deeds now ⟨w, tr, flightOf c ++ flights, none, none⟩
          ⟨w', tr', flights, none, none⟩) E := by
  obtain ⟨pod, hl, hs⟩ := hready
  match c, hc with
  | (.pull .., .pull result), _ =>
    refine podIs_does (fun hno => absurd hs (hno pod hl)) fun found hfound _ => ?_
    exact (completePull_does hw hl hs result).weaken fun _ _ _ h => ⟨h.1, h.2⟩
  | (.create .., .create result), _ =>
    refine podIs_does (fun hno => absurd hs.1 (hno pod hl)) fun found hfound _ => ?_
    exact completeCreate_does hw hl hs.1 hs.2 result
  | (.start _ _ handle, .start result), _ =>
    refine podIs_does (fun hno => absurd hs.1 (hno pod hl)) fun found hfound _ => ?_
    exact (completeStart_does hw hl hs.1 hs.2 result).weaken fun _ _ _ h => ⟨h.1, h.2⟩
  | (.stop .., .stop result), _ =>
    refine podIs_does (fun hno => absurd hs (hno pod hl)) fun found hfound _ => ?_
    exact (completeStop_does hw hl hs result).weaken fun _ _ _ h => ⟨h.1, h.2⟩

/-- The completions still to be applied have the handles that are on their way. -/
theorem completions_does (hw : w.Orderly) {completions : List (LifecycleOp × LifecycleResult)}
    (hready : ∀ c ∈ completions, c.1.Ready w) (hc : ∀ c ∈ completions, c.1.Answers c.2)
    (hnodup : (completions.map (·.1.podId)).Nodup) :
    Does (completions.forM (complete env now)) w tr (fun _ w' tr' =>
      Deeds now ⟨w, tr, completions.flatMap flightOf, none, none⟩ ⟨w', tr', [], none, none⟩) E := by
  let I : List (LifecycleOp × LifecycleResult) → Worker → List Obs → Prop := fun cs w' tr' =>
    Deeds now ⟨w, tr, completions.flatMap flightOf, none, none⟩
      ⟨w', tr', cs.flatMap flightOf, none, none⟩ ∧
    (∀ c ∈ cs, c.1.Ready w') ∧ (∀ c ∈ cs, c.1.Answers c.2) ∧ (cs.map (·.1.podId)).Nodup
  have hI : I completions w tr := ⟨.refl, hready, hc, hnodup⟩
  refine (Does.forM I ?_ hI).weaken fun _ _ _ h => h.1
  rintro c cs w' tr' ⟨hdeeds, hready, hanswers, hnodup⟩
  obtain ⟨hhead, htail⟩ := List.forall_mem_cons.mp hready
  obtain ⟨hfirst, hlater⟩ := List.forall_mem_cons.mp hanswers
  obtain ⟨hnotin, hdistinct⟩ := List.nodup_cons.mp hnodup
  refine (complete_does (hdeeds.changes.orderly hw) hhead hfirst).weaken ?_
  rintro _ w'' tr'' ⟨htouched, hstep⟩
  have hfree : ∀ handle, (c.1.podId, handle) ∉ cs.flatMap flightOf := by
    intro handle hmem
    obtain ⟨d, hd, hflight⟩ := List.mem_flatMap.mp hmem
    have hsame := mem_flightOf (htail d hd) hflight
    exact hnotin (List.mem_map.mpr ⟨d, hd, hsame.symm⟩)
  refine ⟨hdeeds.trans (hstep _ hfree), fun d hd => (htail d hd).kept htouched ?_, hlater, hdistinct⟩
  intro hsame
  exact hnotin (List.mem_map.mpr ⟨d, hd, hsame⟩)

theorem drivePods_does
    (hwalk : Does (walk env now (w.pods.keys.insertionSort (· ≤ ·))) w tr
      (Walked now (w.pods.keys.insertionSort (· ≤ ·)) w tr) E) (hw : w.Orderly) :
    Does (drivePods env now) w tr (fun _ w' tr' => Passes now none w tr w' tr') E := by
  unfold drivePods
  apply Does.worker
  refine Does.bind hwalk ?_
  intro ops w₁ tr₁ hwalked
  apply Does.worker
  dsimp only
  rw [chunks_flatten _ (Nat.le_refl _)]
  have hperm := List.perm_insertionSort (fun a b => Older a.key b.key) ops
  have hready : ∀ op ∈ ops.insertionSort fun a b => Older a.key b.key, op.Ready w₁ :=
    fun op hop => hwalked.ready op (hperm.mem_iff.mp hop)
  have hnodup : ((ops.insertionSort fun a b => Older a.key b.key).map LifecycleOp.podId).Nodup :=
    (hperm.map LifecycleOp.podId).nodup_iff.mpr (hwalked.distinct.nodup w.podIds_nodup)
  refine Does.bind (executeAll_does now hready hnodup) ?_
  rintro completions w₂ tr₂ ⟨rfl, hops, hanswers, hexecutes⟩
  rw [← hops, List.map_map] at hnodup
  rw [← hops] at hready
  refine (completions_does (hwalked.passes.orderly hw)
    (fun c hc => hready _ (List.mem_map_of_mem hc)) hanswers hnodup).weaken ?_
  intro _ w₃ tr₃ hdone
  exact (Relation.ReflTransGen.trans hwalked.passes (hexecutes [] fun _ _ _ h => absurd h List.not_mem_nil)).trans
    hdone

/-! ### Control messages -/

/-- A start command that makes none of the additions overflow. -/
def Worker.Fits (w : Worker) : ControlMessage → Prop
  | .startPod cmd => ∀ r : Resource,
    r.total w < 2 ^ r.bits - 1 ∨ r.allocated w + r.asked cmd < 2 ^ r.bits
  | _ => True

/-- Only requests to the secret store, and nothing written. -/
def Asks (w : Worker) (tr : List Obs) (w' : Worker) (tr' : List Obs) : Prop :=
  w' = w ∧ ∃ calls : List Call, tr' = tr ++ calls.map .called ∧ ∀ c ∈ calls, c.inert

theorem Asks.refl : Asks w tr w tr :=
  ⟨rfl, [], (List.append_nil tr).symm, fun _ h => absurd h List.not_mem_nil⟩

theorem Asks.trans {w' w'' : Worker} {tr'' : List Obs} (h : Asks w tr w' tr')
    (h' : Asks w' tr' w'' tr'') : Asks w tr w'' tr'' := by
  obtain ⟨rfl, calls, rfl, hcalls⟩ := h
  obtain ⟨rfl, calls', rfl, hcalls'⟩ := h'
  refine ⟨rfl, calls ++ calls', ?_, ?_⟩
  · rw [List.map_append, List.append_assoc]
  · intro c hc
    obtain hc | hc := List.mem_append.mp hc
    · exact hcalls c hc
    · exact hcalls' c hc

theorem Asks.secret (name : String) (value : Option String) :
    Asks w tr w (tr ++ [.called ⟨.secret name, value⟩]) := by
  refine ⟨rfl, [⟨.secret name, value⟩], rfl, ?_⟩
  intro c hc
  rw [List.mem_singleton.mp hc]
  rfl

theorem resolve_does (entries : List EnvEntry) :
    Does (resolve env entries) w tr (fun _ => Asks w tr) E := by
  induction entries generalizing w tr with
  | nil => exact Does.pure .refl
  | cons e entries ih =>
    unfold resolve
    split_ifs
    · apply Does.call
      intro value
      refine Does.bind ih ?_
      intro rest w' _ hrest
      exact Does.pure (.trans (.secret _ _) hrest)
    · rw [pure_bind]
      refine Does.bind ih ?_
      intro rest w' _ hrest
      exact Does.pure hrest

theorem resolvePlainOrSecret_does (value : String) (isSecretRef : Bool) :
    Does (resolvePlainOrSecret env value isSecretRef) w tr (fun _ => Asks w tr) E := by
  unfold resolvePlainOrSecret
  split_ifs
  · exact Does.pure .refl
  · apply Does.last
    apply Does.call
    intro _
    exact Does.pure (.secret _ _)
  · exact Does.pure .refl

theorem allocate_trackPod_does {cmd : StartPodCmd}
    (hover : (∃ r : Resource, ¬ r.allocated w + r.asked cmd < 2 ^ r.bits) → E .overflow)
    (hfresh : w.pods.lookup cmd.podId = none) (hroom : w.refusal cmd = none) :
    Does (do allocate env cmd; trackPod env cmd now) w tr
      (fun _ w' tr' => (∃ envVars auth, w' = w.track (cmd.tracked envVars auth now)) ∧
        Passes now (some (.startPod cmd)) w tr w' tr') E := by
  unfold allocate
  simp only [bind_assoc]
  apply Does.worker
  apply Does.add fun h => hover ⟨.gpu, h⟩
  apply Does.modifyWorker
  apply Does.worker
  apply Does.add fun h => hover ⟨.cpu, h⟩
  apply Does.modifyWorker
  apply Does.worker
  apply Does.add fun h => hover ⟨.memory, h⟩
  apply Does.modifyWorker
  unfold trackPod
  refine Does.bind (resolve_does _) ?_
  intro envVars w' tr₁ hasks
  refine Does.bind (resolvePlainOrSecret_does _ _) ?_
  intro password w'' tr₂ hasks'
  obtain ⟨rfl, calls, rfl, hcalls⟩ := hasks.trans hasks'
  apply Does.modifyWorker
  apply Does.last
  apply Does.send
  apply Does.pure
  refine ⟨⟨envVars, _, rfl⟩, Passes.trans (.single ?_) (.sent _ fun h => nomatch h)⟩
  exact .tracked cmd envVars _ hfresh hroom hcalls

theorem handleStartPod_does (hw : w.Orderly) (cmd : StartPodCmd) :
    Does (handleStartPod env cmd now) w tr
      (fun _ w' tr' => Passes now (some (.startPod cmd)) w tr w' tr')
      (fun e => e = .overflow ∧ ¬ w.Fits (.startPod cmd)) := by
  unfold handleStartPod
  apply Does.worker
  cases hl : w.pods.lookup cmd.podId with
  | some pod =>
    apply Does.last
    apply Does.send
    exact Does.pure (.sent _ fun h => nomatch h)
  | none =>
    refine Does.bind (prune_does now hw (Nat.le_refl _)) ?_
    rintro _ w' tr' ⟨hpruned, hdeeds⟩
    have hleads : Passes now (some (.startPod cmd)) w tr w' tr' := hdeeds _ _ _
    apply Does.worker
    have hreject : ∀ reason, Does (rejectStart cmd.podId reason : Job σ Unit) w' tr'
        (fun _ w'' tr'' => Passes now (some (.startPod cmd)) w tr w'' tr'')
        (fun e => e = .overflow ∧ ¬ w.Fits (.startPod cmd)) := by
      intro reason
      apply Does.last
      apply Does.send
      exact Does.pure (hleads.trans (.sent _ fun h => nomatch h))
    split_ifs
    · exact hreject _
    · cases hroom : w'.refusal cmd with
      | some reason => exact hreject reason
      | none =>
        refine (allocate_trackPod_does ?_ (hpruned.fresh hl) hroom).weaken
          fun _ _ _ h => hleads.trans h.2
        rintro ⟨r, hr⟩
        refine ⟨rfl, fun hfits => ?_⟩
        have hsat := Worker.refusal_none hroom r
        rw [hpruned.allocated] at hr hsat
        rw [hpruned.total] at hsat
        obtain hsmall | hsmall := hfits r
        · have := (saturatingAdd_fits hsmall hsat).1
          omega
        · exact hr hsmall

theorem handleStopPod_does (cmd : StopPodCmd) :
    Does (handleStopPod cmd now : Job σ Unit) w tr
      (fun _ w' tr' => Passes now (some (.stopPod cmd)) w tr w' tr') E := by
  unfold handleStopPod
  apply Does.worker
  cases hl : w.pods.lookup cmd.podId with
  | none => exact Does.pure .refl
  | some pod =>
    dsimp only
    split_ifs with hs
    · apply Does.last
      apply Does.modifyWorker
      exact Does.pure (Leads.move hl (.halted rfl rfl hs _)).passes
    · exact Does.pure .refl

theorem handleProbePod_does (podId : ℕ) :
    Does (handleProbePod podId : Job σ Unit) w tr
      (fun _ w' tr' => Passes now (some (.probePod podId)) w tr w' tr') E := by
  unfold handleProbePod
  apply Does.worker
  cases w.pods.lookup podId with
  | none => exact Does.pure .refl
  | some pod =>
    apply Does.last
    apply Does.send
    exact Does.pure (.sent _ fun h => nomatch h)

theorem handleRunRequest_does (cmd : RunRequestCmd) :
    Does (handleRunRequest env cmd) w tr
      (fun _ w' tr' => Passes now (some (.runRequest cmd)) w tr w' tr') E := by
  unfold handleRunRequest
  apply Does.worker
  cases hmin : (w.trackedPods.filter (·.serves cmd.deploymentId)).argmin TrackedPod.podId with
  | none =>
    apply Does.last
    apply Does.send
    exact Does.pure (.sent _ fun h => nomatch h)
  | some pod =>
    -- The pod was chosen among those with a handle.
    have hserves : pod.serves cmd.deploymentId := (List.mem_filter.mp (List.argmin_mem hmin)).2
    have hhandle : pod.handle.isSome := (Bool.and_eq_true_iff.mp hserves).2
    obtain ⟨handle, hh⟩ := Option.isSome_iff_exists.mp hhandle
    dsimp only
    rw [hh]
    apply Does.call
    intro reply
    have hasked : Passes now (some (.runRequest cmd)) w tr w
        (tr ++ [.called ⟨.forwardRun handle pod.port cmd.payload, reply⟩]) := .single (.asked _ rfl)
    cases reply with
    | ok response =>
      apply Does.last
      apply Does.send
      exact Does.pure (hasked.trans (.sent _ fun h => nomatch h))
    | error e =>
      apply Does.last
      apply Does.send
      exact Does.pure (hasked.trans (.sent _ fun h => nomatch h))

/-- A control message only does deeds; a panic is an overflow. -/
theorem handleMessage_does (hw : w.Orderly) (msg : ControlMessage) :
    Does (handleMessage env now msg) w tr (fun _ w' tr' => Passes now (some msg) w tr w' tr')
      (fun e => e = .overflow ∧ ¬ w.Fits msg) := by
  cases msg with
  | startPod cmd => exact handleStartPod_does hw cmd
  | stopPod cmd => exact handleStopPod_does cmd
  | probePod podId => exact handleProbePod_does podId
  | runRequest cmd => exact handleRunRequest_does cmd

theorem receive_does (hw : w.Orderly) (inbox : List ControlMessage) :
    Does (receive env now inbox) w tr (fun _ w' tr' => ∀ inHand,
      Deeds now ⟨w, tr, [], none, inHand⟩ ⟨w', tr', [], none, none⟩) (fun e => e = .overflow) := by
  induction inbox generalizing w tr with
  | nil =>
    apply Does.last
    apply Does.observe
    exact Does.pure fun _ => .single (.received none)
  | cons msg inbox ih =>
    apply Does.observe
    refine Does.bind ((handleMessage_does hw msg).mono (fun _ _ _ h => h) fun _ he => he.1) ?_
    intro _ w' tr' hleads
    refine (ih (hleads.orderly hw)).weaken fun _ w'' tr'' hrest inHand => ?_
    exact (Relation.ReflTransGen.head (.received (some msg)) hleads).trans (hrest (some msg))

/-! ### Ticks -/

theorem register_does :
    Does (register now : Job σ Unit) w tr (fun _ w' tr' => Passes now none w tr w' tr') E := by
  unfold register
  apply Does.worker
  split_ifs
  · exact Does.pure .refl
  · apply Does.send
    apply Does.last
    apply Does.modifyWorker
    refine Does.pure (Passes.trans (.sent _ ?_) (.single (.beat true (.inr rfl))))
    exact fun _ _ => rfl

theorem heartbeat_does :
    Does (heartbeat env now) w tr (fun _ w' tr' => Passes now none w tr w' tr')
      (fun e => e = .overflow ∧ ¬ w.Clocked) := by
  unfold heartbeat
  apply Does.worker
  apply Does.add
  · intro hover
    refine ⟨rfl, fun hclock => ?_⟩
    have := hclock.beat
    unfold heartbeatIntervalTicks at hover
    omega
  · split_ifs
    · apply Does.worker
      apply Does.send
      apply Does.last
      apply Does.modifyWorker
      refine Does.pure (Passes.trans (.sent _ ?_) (.single (.beat w.registered (.inr rfl))))
      exact fun _ _ => rfl
    · exact Does.pure .refl

theorem tick_does (hw : w.Orderly) (inbox : List ControlMessage) :
    Does (tick env now inbox) w tr (fun _ w' tr' => Passes now none w tr w' tr') (fun _ => True) := by
  unfold tick
  refine Does.bind register_does ?_
  intro _ w₁ tr₁ h₁
  have hw₁ := h₁.orderly hw
  refine Does.bind ((receive_does hw₁ inbox).mono (fun _ _ _ h => h) fun _ _ => trivial) ?_
  intro _ w₂ tr₂ h₂
  have hw₂ := (h₂ none).changes.orderly hw₁
  refine Does.bind (drivePods_does (walk_does hw₂ (Worker.podIds_nodup w₂)) hw₂) ?_
  intro _ w₃ tr₃ h₃
  refine heartbeat_does.mono (fun _ w₄ tr₄ h₄ => ?_) fun _ _ => trivial
  exact (h₁.trans (h₂ none)).trans (h₃.trans h₄)

theorem handleEvent_does (hw : w.Orderly) (event : Event) :
    Does (handleEvent env event) w tr (fun _ w' tr' => ∃ now, Passes now none w tr w' tr')
      (fun _ => True) := by
  cases event with
  | tick now inbox => exact (tick_does hw inbox).weaken fun _ _ _ h => ⟨now, h⟩
  | connectionLost =>
    apply Does.last
    apply Does.modifyWorker
    exact Does.pure ⟨0, .single (.beat false (.inl rfl))⟩

/-- What every deed keeps holds after every run that returns. -/
theorem run_keeps {I : Moment → Prop}
    (hstep : ∀ now m m', m.worker.Orderly → Deed now m m' → I m → I m') (hw : w.Orderly)
    (hI : I ⟨w, tr, [], none, none⟩) {events : List Event} {outside : σ} {s : Scene σ}
    (hrun : run env events ⟨w, tr, outside⟩ = .ok ((), s)) :
    s.worker.Orderly ∧ I ⟨s.worker, s.trace, [], none, none⟩ := by
  have hdeeds : ∀ {now m m'}, Deeds now m m' → m.worker.Orderly → I m → I m' := by
    intro now m m' h hm hIm
    induction h with
    | refl => exact hIm
    | tail hpast hdeed ih => exact hstep _ _ _ ((Deeds.changes hpast).orderly hm) hdeed ih
  have hruns : Does (run env events) w tr
      (fun _ w' tr' => w'.Orderly ∧ I ⟨w', tr', [], none, none⟩) (fun _ => True) := by
    refine Does.forM (fun _ w' tr' => w'.Orderly ∧ I ⟨w', tr', [], none, none⟩) ?_ ⟨hw, hI⟩
    rintro event _ w' tr' ⟨hw', hI'⟩
    refine (handleEvent_does hw' event).weaken fun _ w'' tr'' ⟨now, h⟩ => ?_
    exact ⟨(Deeds.changes h).orderly hw', hdeeds h hw' hI'⟩
  exact hruns.returned hrun

end Hivemind.Agent
