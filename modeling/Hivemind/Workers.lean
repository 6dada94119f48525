import Hivemind.Reach
import Hivemind.Sane

/-! The part of a replica its workers see. Only the callbacks of workers and the publication of
committed effects touch it; everything else the protocol does leaves it alone. A call is then a
sequence of steps of the protocol, of callbacks and of publications. -/
namespace Hivemind

open Relation

/-- The slots of the workers and what was sent to them. -/
def Replica.workerSide (s : Replica) :
    (ℕ → WorkerConnection) × ℕ × Bool × List (ℕ × WorkerFrame) :=
  (s.workers, s.workerCount, s.workerSendSet, s.workerFrames)

/-- What workers are told and the tables it is told from: their slots, the stops that wait for a
barrier, the state machine, and the executions that made it. -/
def Replica.outward (s : Replica) :
    ((ℕ → WorkerConnection) × ℕ × Bool × List (ℕ × WorkerFrame)) ×
      List (ℕ × StopDispatch) × StateMachine × List Executed :=
  (s.workerSide, s.pendingStops, s.stateMachine, s.executions)

/-- What looking for the log of a view leaves alone, besides: the view and who was heard of in it. -/
def Replica.bystanders (s : Replica) :
    (((ℕ → WorkerConnection) × ℕ × Bool × List (ℕ × WorkerFrame)) ×
      List (ℕ × StopDispatch) × StateMachine × List Executed) × ℕ × (ℕ → Bool) × (ℕ → Bool) :=
  (s.outward, s.viewNumber, s.startVcCount, s.repairStatusReceived)

/-- A relation between the states before and after a part of a call that sees the bystanders only.
It allows every execution of an entry. -/
structure Lenient (R : Replica → Replica → Prop) : Prop where
  same : ∀ {s s' : Replica}, s'.bystanders = s.bystanders → R s s'
  commit : ∀ (s : Replica) (op : ℕ), R s (s.commitEntry op).state
  trans : ∀ {s₁ s₂ s₃ : Replica}, R s₁ s₂ → R s₂ s₃ → R s₁ s₃

/-- Such a relation that asks for nothing in a new view, beyond what is told to workers. -/
structure Tolerates (R : Replica → Replica → Prop) : Prop extends Lenient R where
  fresh : ∀ {s s' : Replica}, s'.outward = s.outward → s.viewNumber < s'.viewNumber → R s s'

/-- Such a relation that sees nothing of the view. -/
structure Blind (R : Replica → Replica → Prop) : Prop where
  same : ∀ {s s' : Replica}, s'.outward = s.outward → R s s'
  commit : ∀ (s : Replica) (op : ℕ), R s (s.commitEntry op).state
  trans : ∀ {s₁ s₂ s₃ : Replica}, R s₁ s₂ → R s₂ s₃ → R s₁ s₃

/-- A part of a call that keeps to `R`, whether or not it stops the process. -/
def Within (R : Replica → Replica → Prop) (s : Replica) (o : Outcome) : Prop := R s o.state

namespace Lenient

variable {R : Replica → Replica → Prop} {s s₀ : Replica} {o : Outcome}

theorem done (hR : Lenient R) : R s s := hR.same rfl

theorem after (hR : Lenient R) (h : Within R s o) (h₀ : s.bystanders = s₀.bystanders) :
    Within R s₀ o := hR.trans (hR.same h₀) h

theorem bind (hR : Lenient R) {k : Replica → Outcome} (h : Within R s o)
    (hk : ∀ s', Within R s' (k s')) : Within R s (o.bind k) := by
  cases o with
  | ok s' => exact hR.trans h (hk s')
  | error s' => exact h

theorem assert (hR : Lenient R) (cond : Bool) : Within R s (s.assert cond) := by
  unfold Replica.assert
  split
  · exact hR.done
  · exact hR.done

end Lenient

namespace Blind

variable {R : Replica → Replica → Prop} {s s₀ : Replica} {o : Outcome}

theorem tolerates (hR : Blind R) : Tolerates R where
  same h := hR.same (congrArg Prod.fst h)
  commit := hR.commit
  trans := hR.trans
  fresh h _ := hR.same h

theorem done (hR : Blind R) : R s s := hR.same rfl

theorem after (hR : Blind R) (h : Within R s o) (h₀ : s.outward = s₀.outward) : Within R s₀ o :=
  hR.trans (hR.same h₀) h

theorem bind (hR : Blind R) {k : Replica → Outcome} (h : Within R s o)
    (hk : ∀ s', Within R s' (k s')) : Within R s (o.bind k) := hR.tolerates.bind h hk

theorem map (hR : Blind R) {f : Replica → Replica} (h : Within R s o)
    (hf : ∀ s', R s' (f s')) : Within R s (o.map f) := by
  cases o with
  | ok s' => exact hR.trans h (hf s')
  | error s' => exact h

end Blind

theorem Within.ite {R : Replica → Replica → Prop} {s : Replica} {o o' : Outcome} {p : Prop}
    [Decidable p] (h : Within R s o) (h' : Within R s o') : Within R s (if p then o else o') := by
  split
  · exact h
  · exact h'

/-- Executing an entry changes nothing of the replica beside its core and its effects, and not the
view. -/
theorem Replica.commitEntry_frame (s : Replica) (op : ℕ) :
    (s.commitEntry op).state = { s with
      toCore := (s.commitEntry op).state.toCore
      pendingEffect := (s.commitEntry op).state.pendingEffect
      pendingStops := (s.commitEntry op).state.pendingStops
      executions := (s.commitEntry op).state.executions } ∧
    (s.commitEntry op).state.viewNumber = s.viewNumber := by
  unfold commitEntry
  split
  · exact ⟨rfl, rfl⟩
  split
  · exact ⟨rfl, rfl⟩
  dsimp only
  split
  · exact ⟨rfl, rfl⟩
  unfold queueStops
  split
  · split <;> exact ⟨rfl, rfl⟩
  · exact ⟨rfl, rfl⟩

theorem Blind.workers : Blind fun s s' => s'.workerSide = s.workerSide where
  same h := congrArg Prod.fst h
  commit s op := by rw [(s.commitEntry_frame op).1]; rfl
  trans h h' := h'.trans h

namespace Core

theorem foldl_sends {f : Core → ℕ → Core} (hf : ∀ c i, f c i = { c with history := (f c i).history })
    (l : List ℕ) (c : Core) : l.foldl f c = { c with history := (l.foldl f c).history } := by
  induction l generalizing c with
  | nil => rfl
  | cons i l ih =>
    rw [List.foldl_cons, ih, hf]

theorem sendToAll_frame (c : Core) (m : Message) :
    c.sendToAll m = { c with history := (c.sendToAll m).history } :=
  foldl_sends (fun _ _ => rfl) _ c

theorem sendToAllOthers_frame (c : Core) (m : Message) :
    c.sendToAllOthers m = { c with history := (c.sendToAllOthers m).history } := by
  refine foldl_sends (fun c i => ?_) _ c
  split <;> rfl

theorem requestMissing_frame : ∀ (ops : List ℕ) (room : ℕ) (c : Core),
    (requestMissing ops room c).2 = { c with history := (requestMissing ops room c).2.history }
  | [], _, _ => rfl
  | _ :: _, 0, _ => rfl
  | op :: rest, room + 1, c => by
    unfold requestMissing
    split
    · exact requestMissing_frame rest (room + 1) c
    · rw [requestMissing_frame rest room, sendToAllOthers_frame]

theorem resendPrepares_frame : ∀ (ops : List ℕ) (c : Core),
    resendPrepares ops c = { c with history := (resendPrepares ops c).history }
  | [], _ => rfl
  | op :: rest, c => by
    unfold resendPrepares
    rw [resendPrepares_frame rest]
    split
    · rfl
    split
    · rw [sendToAllOthers_frame]
    · rfl

theorem ackRepaired_stateMachine : ∀ (ops : List ℕ) (c : Core),
    (ackRepaired ops c).stateMachine = c.stateMachine
  | [], _ => rfl
  | op :: rest, c => by
    unfold ackRepaired
    split <;> exact ackRepaired_stateMachine rest _

end Core

namespace Replica

variable {hash : Hash} {env : Env} {s : Replica}

theorem core_outward {f : Core → Core} (h : (f s.toCore).stateMachine = s.stateMachine) :
    (s.core f).outward = s.outward :=
  congrArg (fun sm => (s.workerSide, s.pendingStops, sm, s.executions)) h

theorem core_bystanders {f : Core → Core} (h : (f s.toCore).stateMachine = s.stateMachine)
    (hview : (f s.toCore).viewNumber = s.viewNumber) : (s.core f).bystanders = s.bystanders := by
  unfold bystanders
  rw [core_outward h, core_toCore, hview]
  rfl

section Selection

variable {R : Replica → Replica → Prop} {abort : Replica → Outcome}

/-! ### Execution -/

theorem commitLoop_within (hR : Lenient R) (limit : ℕ) :
    ∀ (fuel : ℕ) (s : Replica), Within R s (commitLoop limit fuel s)
  | 0, _ => hR.done
  | fuel + 1, _ =>
    .ite (.ite hR.done
      (hR.bind (hR.commit _ _) fun s' => commitLoop_within hR limit fuel s')) hR.done

theorem commitUpTo_within (hR : Lenient R) (target : ℕ) : Within R s (s.commitUpTo target) :=
  hR.after (commitLoop_within hR _ _ _) rfl

/-! ### Selection -/

theorem openView_bystanders : (s.core Core.openView).bystanders = s.bystanders := by
  unfold Core.openView
  apply core_bystanders
  all_goals split <;> rfl

theorem openSelectedView_within (hR : Lenient R) : Within R s (s.openSelectedView hash) :=
  .ite hR.done (.ite hR.done (hR.after (hR.assert _) openView_bystanders))

theorem startViewCandidateReady_within (hR : Lenient R) :
    Within R s (s.startViewCandidateReady hash) := by
  refine .ite hR.done (.ite hR.done (.ite hR.done (.ite hR.done (.ite hR.done ?_))))
  split
  · exact hR.after (openSelectedView_within hR) rfl
  · exact openSelectedView_within hR
  · exact hR.done

theorem installCandidate_bystanders :
    (s.core Core.installCandidate).bystanders = s.bystanders := by
  unfold Core.installCandidate
  apply core_bystanders
  all_goals
    rw [Core.installEntries_frame]
    rfl

theorem installCompletedCandidate_within (hR : Lenient R) (habort : ∀ s, Within R s (abort s)) :
    Within R s (s.installCompletedCandidate hash abort) := by
  refine .ite hR.done (.ite hR.done ?_)
  split
  · exact habort s
  split
  · exact habort s
  · have hinstalled : R s (s.core Core.installCandidate) := hR.same installCandidate_bystanders
    exact hR.trans hinstalled (hR.after (startViewCandidateReady_within hR) rfl)

theorem addSelectedEntry_within (hR : Lenient R) {k : Replica → Outcome} (e : LogEntry)
    (habort : ∀ s, Within R s (abort s)) (hk : ∀ s, Within R s (k s)) :
    Within R s (s.addSelectedEntry hash abort e k) := by
  refine .ite hR.done (.ite hR.done ?_)
  split
  · exact habort s
  · exact hR.after (hk _) rfl

theorem requestSelectedEntry_within (hR : Lenient R) (op expectedChecksum : ℕ) :
    Within R s (s.requestSelectedEntry op expectedChecksum) := by
  refine .ite hR.done (.ite (hR.same rfl) ?_)
  split
  · exact hR.done
  · exact hR.same rfl

theorem fillFromJournal_within (hR : Lenient R) {k : Replica → Outcome}
    (habort : ∀ s, Within R s (abort s)) (hk : ∀ s, Within R s (k s)) :
    ∀ (ops : List ℕ) (s : Replica), Within R s (fillFromJournal hash abort k ops s)
  | [], s => hk s
  | op :: rest, s => by
    refine .ite (fillFromJournal_within hR habort hk rest s) ?_
    split
    · exact hk s
    · exact addSelectedEntry_within hR _ habort fun s' =>
        fillFromJournal_within hR habort hk rest s'

theorem aimAt_bystanders (op expectedChecksum : ℕ) :
    (s.aimAt op expectedChecksum).bystanders = s.bystanders := by
  unfold aimAt
  split <;> rfl

theorem fetchMissing_within (hR : Lenient R) (habort : ∀ s, Within R s (abort s)) :
    ∀ (ops : List ℕ) (s : Replica), Within R s (fetchMissing hash abort ops s)
  | [], _ => hR.done
  | op :: rest, s => by
    refine .ite (fetchMissing_within hR habort rest s) ?_
    split
    · exact fetchMissing_within hR habort rest s
    dsimp only
    split
    · refine hR.after (addSelectedEntry_within hR _ habort fun s' => ?_) (aimAt_bystanders _ _)
      exact .ite (hR.after (installCompletedCandidate_within hR habort) rfl)
        (hR.after (fetchMissing_within hR habort rest _) rfl)
    · exact hR.after (requestSelectedEntry_within hR _ _) (aimAt_bystanders _ _)

theorem completeOrFetch_within (hR : Lenient R) (habort : ∀ s, Within R s (abort s)) :
    Within R s (s.completeOrFetch hash abort) :=
  .ite (installCompletedCandidate_within hR habort) (fetchMissing_within hR habort _ _)

theorem advanceSelectedView_within (hR : Lenient R) (habort : ∀ s, Within R s (abort s)) :
    Within R s (s.advanceSelectedView hash abort) := by
  refine .ite hR.done (.ite hR.done (.ite (hR.same rfl) (.ite (startViewCandidateReady_within hR)
    (.ite (habort s) (.ite ?_ (completeOrFetch_within hR habort))))))
  exact fillFromJournal_within hR habort (fun _ => completeOrFetch_within hR habort) _ _

/-! ### View changes -/

theorem collectCandidate_within (hR : Lenient R) (entries : List LogEntry)
    (habort : ∀ s, Within R s (abort s)) :
    Within R s (s.collectCandidate hash env abort entries) := by
  refine .ite ?_ (advanceSelectedView_within hR habort)
  split
  · exact habort s
  split
  · exact habort s
  · exact hR.after (advanceSelectedView_within hR habort) rfl

theorem maybeStartView_within (hR : Lenient R) (habort : ∀ s, Within R s (abort s)) :
    Within R s (s.maybeStartView hash env abort) := by
  refine .ite hR.done (.ite (advanceSelectedView_within hR habort) ?_)
  split
  · exact hR.done
  · exact hR.after (collectCandidate_within hR _ habort) rfl

theorem maybeDoViewChange_within (hR : Lenient R) (habort : ∀ s, Within R s (abort s)) :
    Within R s (s.maybeDoViewChange hash env abort) := by
  refine .ite hR.done ?_
  split
  · exact hR.done
  · exact .ite (hR.after (maybeStartView_within hR habort) rfl) (hR.same rfl)

theorem announceView_viewNumber (v : ℕ) : (s.announceView v).viewNumber = s.viewNumber := by
  unfold announceView
  rw [core_toCore, Core.sendToAll_frame]

theorem announceView_outward (v : ℕ) : (s.announceView v).outward = s.outward := by
  apply core_outward
  rw [Core.sendToAll_frame]

theorem initiateViewChangeTo_within (hR : Tolerates R) (v : ℕ)
    (habort : ∀ s, Within R s (abort s)) :
    Within R s (s.initiateViewChangeTo hash env abort v) := by
  refine .ite hR.done ?_
  split
  · exact hR.done
  · next hlater =>
    have hlt : s.viewNumber < v := by
      simp only [Bool.or_eq_true, Bool.not_eq_true', decide_eq_false_iff_not, not_or, not_not]
        at hlater
      exact hlater.1
    have hnew : R s ((s.resetForView env v).dropCatchUp.announceView v) := by
      have hsame : ((s.resetForView env v).dropCatchUp.announceView v).outward = s.outward :=
        announceView_outward v
      apply hR.fresh hsame
      rw [announceView_viewNumber]
      exact hlt
    exact hR.trans hnew (maybeDoViewChange_within hR.toLenient habort)

theorem initiateViewChange_within (hR : Tolerates R) (habort : ∀ s, Within R s (abort s)) :
    Within R s (s.initiateViewChange hash env abort) :=
  .ite hR.done (initiateViewChangeTo_within hR _ habort)

theorem abortSelectedViewAt_within (hR : Tolerates R) : ∀ (depth : ℕ) (s : Replica),
    Within R s (abortSelectedViewAt hash env depth s)
  | 0, _ => hR.done
  | depth + 1, _ =>
    .ite (hR.after (initiateViewChange_within hR fun s' => abortSelectedViewAt_within hR depth s')
      rfl) (hR.same rfl)

theorem abortSelectedView_within (hR : Tolerates R) (s : Replica) :
    Within R s (s.abortSelectedView hash env) := abortSelectedViewAt_within hR _ s

end Selection

section Walk

variable {R : Replica → Replica → Prop}

/-! ### Execution and selection -/

theorem advanceCommitMin_within (hR : Blind R) : Within R s s.advanceCommitMin :=
  commitLoop_within hR.tolerates.toLenient _ _ _

theorem commitUpTo_kept (hR : Blind R) (target : ℕ) : Within R s (s.commitUpTo target) :=
  commitUpTo_within hR.tolerates.toLenient target

theorem countVotes_frame : ∀ (fuel : ℕ) (c : Core), (countVotes fuel c).stateMachine = c.stateMachine
  | 0, _ => rfl
  | fuel + 1, c => by
    unfold countVotes
    split
    · split
      · rfl
      split
      · rfl
      · exact countVotes_frame fuel _
    · rfl

theorem advanceCommit_within (hR : Blind R) : Within R s s.advanceCommit := by
  refine hR.after (advanceCommitMin_within hR) ?_
  unfold outward
  rw [core_toCore, countVotes_frame]
  rfl

theorem abortSelectedView_kept (hR : Blind R) (s : Replica) :
    Within R s (s.abortSelectedView hash env) := abortSelectedView_within hR.tolerates s

theorem advanceSelectedView_kept (hR : Blind R) :
    Within R s (s.advanceSelectedView hash (abortSelectedView hash env)) :=
  advanceSelectedView_within hR.tolerates.toLenient (abortSelectedView_kept hR)

theorem initiateViewChange_kept (hR : Blind R) :
    Within R s (s.initiateViewChange hash env (abortSelectedView hash env)) :=
  initiateViewChange_within hR.tolerates (abortSelectedView_kept hR)

theorem awaitStartView_within (hR : Blind R) (v : ℕ) : Within R s (s.awaitStartView env v) :=
  .ite hR.done (hR.same rfl)

theorem requestStartView_within (hR : Blind R) (v : ℕ) : Within R s (s.requestStartView v) :=
  .ite (hR.same rfl) (hR.same rfl)

theorem onRequestStartView_outward (src v : ℕ) :
    (s.onRequestStartView src v).outward = s.outward := by
  unfold onRequestStartView
  repeat' split
  all_goals rfl

theorem onStartViewChange_within (hR : Blind R) (src : ℕ) (svc : StartViewChangeMsg) :
    Within R s (s.onStartViewChange hash env src svc) := by
  refine .ite hR.done (.ite hR.done (.ite hR.done ?_))
  refine hR.after (maybeDoViewChange_within hR.tolerates.toLenient (abortSelectedView_kept hR)) ?_
  split
  · exact announceView_outward (s := s.resetForView env svc.viewNumber) svc.viewNumber
  · rfl

theorem onDoViewChange_within (hR : Blind R) (src : ℕ) (dvc : DoViewChangeMsg) :
    Within R s (s.onDoViewChange hash env src dvc) :=
  .ite hR.done (.ite (abortSelectedView_kept hR s)
    (hR.after (maybeStartView_within hR.tolerates.toLenient (abortSelectedView_kept hR)) rfl))

theorem adoptStartView_within (hR : Blind R) (src : ℕ) (sv : StartViewMsg) :
    Within R s (s.adoptStartView hash env src sv) :=
  hR.after (collectCandidate_within hR.tolerates.toLenient _ (abortSelectedView_kept hR)) rfl

theorem onStartView_within (hR : Blind R) (src : ℕ) (sv : StartViewMsg) :
    Within R s (s.onStartView hash env src sv) := by
  have hjoin (s' : Replica) : Within R s' (if s'.status ≠ .viewChange ∨ sv.viewNumber ≠ s'.viewNumber
      then .ok s' else if s'.pendingViewSelection then
        if s'.matchesSelection src sv then .ok s' else s'.abortSelectedView hash env
      else s'.adoptStartView hash env src sv) :=
    .ite hR.done (.ite (.ite hR.done (abortSelectedView_kept hR s')) (adoptStartView_within hR _ _))
  exact .ite hR.done (.ite hR.done (.ite hR.done (.ite hR.done
    (.ite (hR.bind (awaitStartView_within hR _) hjoin) (hjoin s)))))

/-! ### Normal operation -/

theorem maybeResumeRepair_outward (s : Replica) : s.maybeResumeRepair.outward = s.outward := by
  unfold maybeResumeRepair
  repeat' split
  all_goals rfl

theorem onRequest_outward (s : Replica) (m : RequestMsg) :
    (s.onRequest hash m).outward = s.outward := by
  unfold onRequest
  repeat' split
  all_goals rfl

theorem transferIfGaps_outward (s : Replica) (target : ℕ) :
    (s.transferIfGaps target).outward = s.outward := by
  unfold transferIfGaps
  split <;> rfl

theorem dropConflict_outward (m : PrepareMsg) : (s.dropConflict m).outward = s.outward := by
  unfold dropConflict
  repeat' split
  all_goals rfl

theorem placePrepare_within (hR : Blind R) (src : ℕ) (m : PrepareMsg) :
    Within R s (s.placePrepare src m) := by
  refine .ite (.ite hR.done (.ite (hR.same rfl) (hR.same rfl)))
    (.ite ?_ (.ite (.ite (hR.same rfl) hR.done) hR.done))
  split
  · exact hR.done
  · refine .ite ?_ (hR.same rfl)
    split
    · exact hR.done
    · exact hR.same rfl

theorem seekView_within (hR : Blind R) (v : ℕ) :
    Within R s ((s.awaitStartView env v).bind fun s => s.requestStartView v) :=
  hR.bind (awaitStartView_within hR v) fun _ => requestStartView_within hR v

theorem onPrepare_within (hR : Blind R) (src : ℕ) (m : PrepareMsg) :
    Within R s (s.onPrepare hash env src m) := by
  refine .ite hR.done (.ite hR.done (.ite hR.done (.ite hR.done (.ite (seekView_within hR _)
    (.ite hR.done (.ite (requestStartView_within hR _) (.ite hR.done ?_)))))))
  refine .ite (hR.same (dropConflict_outward m))
    (hR.bind ?_ fun s' => hR.same (transferIfGaps_outward s' _))
  exact hR.after (placePrepare_within hR src m) (dropConflict_outward m)

theorem onPrepareOk_within (hR : Blind R) (src : ℕ) (m : PrepareOkMsg) :
    Within R s (s.onPrepareOk src m) := by
  refine .ite hR.done (.ite hR.done (.ite hR.done (.ite hR.done (.ite hR.done ?_))))
  split
  · exact hR.done
  refine .ite hR.done (.ite hR.done (.ite hR.done (hR.map (hR.after (advanceCommit_within hR) ?_)
    fun s' => hR.same (maybeResumeRepair_outward s'))))
  split <;> rfl

theorem followCommit_within (hR : Blind R) (m : CommitMsg) (target : ℕ) :
    Within R s (s.followCommit m target) :=
  .ite (.ite (.ite hR.done (commitUpTo_kept hR _)) (hR.same rfl)) hR.done

theorem onCommit_within (hR : Blind R) (src : ℕ) (m : CommitMsg) :
    Within R s (s.onCommit env src m) := by
  refine .ite hR.done (.ite hR.done (.ite hR.done (.ite hR.done (.ite (seekView_within hR _)
    (.ite hR.done (.ite hR.done (.ite (requestStartView_within hR _) (.ite hR.done ?_))))))))
  refine hR.bind (hR.after (followCommit_within hR m _) rfl) fun s' => hR.same ?_
  refine (transferIfGaps_outward _ _).trans ?_
  split <;> rfl

/-! ### Repair -/

theorem onRequestStatus_within (hR : Blind R) (src v : ℕ) :
    Within R s (s.onRequestStatus src v) := by
  refine .ite hR.done ?_
  split
  · exact hR.done
  · exact hR.same rfl

theorem onSendStatusLeader_outward (src : ℕ) (m : SendStatusMsg) :
    (s.onSendStatusLeader src m).outward = s.outward := by
  unfold onSendStatusLeader
  split
  · rfl
  dsimp only
  split
  · exact maybeResumeRepair_outward _
  · split <;> rfl

theorem afterStatus_outward (s : Replica) (m : SendStatusMsg) :
    (s.afterStatus m).outward = s.outward := by
  refine (transferIfGaps_outward _ _).trans ?_
  split <;> rfl

theorem onSendStatusFollower_within (hR : Blind R) (src : ℕ) (m : SendStatusMsg) :
    Within R s (s.onSendStatusFollower env src m) := by
  refine .ite ?_ (hR.same (afterStatus_outward _ m))
  split
  · exact .ite (hR.same rfl) (hR.map (hR.after (commitUpTo_kept hR _) rfl)
      fun s' => hR.same (afterStatus_outward s' m))
  · exact hR.same (afterStatus_outward _ m)

theorem onSendStatus_within (hR : Blind R) (src : ℕ) (m : SendStatusMsg) :
    Within R s (s.onSendStatus env src m) :=
  .ite hR.done (.ite hR.done (.ite hR.done (.ite (hR.same (onSendStatusLeader_outward src m))
    (.ite hR.done (onSendStatusFollower_within hR src m)))))

theorem onRequestPrepare_outward (src : ℕ) (m : RequestPrepareMsg) :
    (s.onRequestPrepare src m).outward = s.outward := by
  unfold onRequestPrepare
  dsimp only
  repeat' split
  all_goals rfl

theorem onSelectedPrepare_within (hR : Blind R) (src : ℕ) (m : SendPrepareMsg) :
    Within R s (s.onSelectedPrepare hash env src m) := by
  refine .ite hR.done (.ite (advanceSelectedView_kept hR)
    (addSelectedEntry_within hR.tolerates.toLenient _ (abortSelectedView_kept hR) fun s' =>
      hR.after (advanceSelectedView_kept hR) rfl))

theorem onRepairPrepare_within (hR : Blind R) (src : ℕ) (e : LogEntry) (senderCommitted : Bool) :
    Within R s (s.onRepairPrepare src e senderCommitted) := by
  have hadopt : (s.core fun c => c.adoptCommitted e).outward = s.outward := by
    apply core_outward
    unfold Core.adoptCommitted
    split <;> rfl
  refine .ite hR.done (.ite (.ite hR.done (.ite hR.done (hR.after (commitUpTo_kept hR _) hadopt)))
    (.ite hR.done (.ite hR.done (.ite hR.done (hR.same ?_)))))
  show (ite _ _ _ : Replica).outward = _
  split <;> rfl

theorem afterTransfer_within (hR : Blind R) : Within R s s.afterTransfer := by
  have hjoin (s' : Replica) : Within R s' (if s'.opNumber ≥ s'.transferTargetOp && !s'.hasLogGaps
      then .ok { s' with transferPending := false } else .ok s') := .ite (hR.same rfl) hR.done
  exact .ite (hR.bind (commitUpTo_kept hR _) hjoin) (hjoin s)

theorem onTransferPrepare_within (hR : Blind R) (e : LogEntry) :
    Within R s (s.onTransferPrepare e) := by
  refine .ite hR.done (.ite (.ite hR.done (hR.after (afterTransfer_within hR) ?_))
    (.ite (hR.after (afterTransfer_within hR) rfl) hR.done))
  split <;> rfl

theorem onSendPrepare_within (hR : Blind R) (src : ℕ) (m : SendPrepareMsg) :
    Within R s (s.onSendPrepare hash env src m) :=
  .ite hR.done (.ite hR.done (.ite hR.done (.ite (onSelectedPrepare_within hR src m) (.ite hR.done
    (.ite hR.done (.ite (onRepairPrepare_within hR _ _ _) (onTransferPrepare_within hR _)))))))

theorem requestMissing_outward (ops : List ℕ) (room : ℕ) :
    ({ s with toCore := (Core.requestMissing ops room s.toCore).2 } : Replica).outward =
      s.outward := by
  refine core_outward (f := fun c => (Core.requestMissing ops room c).2) ?_
  rw [Core.requestMissing_frame]

theorem sendToAllOthers_outward (m : Core → Message) :
    (s.core fun c => c.sendToAllOthers (m c)).outward = s.outward := by
  apply core_outward
  rw [Core.sendToAllOthers_frame]

theorem tickRepair_within (hR : Blind R) : Within R s s.tickRepair := by
  have hasked := sendToAllOthers_outward (s := s) fun c => .requestStatus c.viewNumber
  refine .ite hR.done ?_
  generalize (s.core fun c => c.sendToAllOthers (.requestStatus c.viewNumber)) = s₁ at hasked ⊢
  refine hR.after (s := s₁) (.ite hR.done (.ite hR.done (.ite (hR.same ?_) ?_))) hasked
  · exact sendToAllOthers_outward fun c =>
      .requestPrepare { viewNumber := c.viewNumber, opNumber := c.commitMin + 1 }
  have hmissing := requestMissing_outward (s := s₁) (opsAbove s₁.commitMin s₁.opNumber)
    repairBatchMax
  refine .ite (hR.same hmissing) (.ite (hR.same hmissing)
    (hR.after (hR.after (advanceCommit_within hR) (core_outward ?_)) hmissing))
  exact Core.ackRepaired_stateMachine _ _

theorem tickTransfer_within (hR : Blind R) : Within R s s.tickTransfer := by
  have hmissing := requestMissing_outward (s := s) (opsAbove s.commitMin s.opNumber) repairBatchMax
  refine .ite hR.done (.ite (hR.same hmissing) (.ite (hR.same (Eq.trans ?_ hmissing))
    (hR.same hmissing)))
  exact sendToAllOthers_outward fun c =>
    .requestPrepare { viewNumber := c.viewNumber, opNumber := c.opNumber + 1 }

/-! ### Ticks and messages -/

theorem submitScaleDowns_outward : ∀ (actions : List ScaleDownAction) (s : Replica),
    (submitScaleDowns hash actions s).outward = s.outward
  | [], _ => rfl
  | _ :: rest, s => (submitScaleDowns_outward rest _).trans (onRequest_outward s _)

theorem tickScheduler_within (hR : Blind R) : Within R s (s.tickScheduler hash env) := by
  refine .ite hR.done (hR.same ((submitScaleDowns_outward _ _).trans ?_))
  split
  · rfl
  · exact onRequest_outward _ _

theorem tickHeartbeat_outward : (s.tickHeartbeat env).outward = s.outward := by
  have hbeat : (s.core Core.sendCommitHeartbeat).outward = s.outward := by
    apply core_outward
    unfold Core.sendCommitHeartbeat
    dsimp only
    split
    · rfl
    split
    · rfl
    · rw [Core.sendToAllOthers_frame]
  have hresend : ∀ s' : Replica, (s'.core Core.resendUncommittedPrepares).outward = s'.outward := by
    intro s'
    apply core_outward
    unfold Core.resendUncommittedPrepares
    rw [Core.resendPrepares_frame]
  unfold tickHeartbeat
  split
  · dsimp only
    split
    · exact hbeat
    · exact (hresend _).trans hbeat
  · rfl

theorem tickLeader_within (hR : Blind R) : Within R s (s.tickLeader hash env) :=
  .ite (hR.after (tickRepair_within hR) tickHeartbeat_outward)
    (hR.after (tickScheduler_within hR) tickHeartbeat_outward)

theorem tickFollower_within (hR : Blind R) : Within R s (s.tickFollower hash env) := by
  have hjoin (s' : Replica) : Within R s' (if env.now - s'.lastLeaderActivity ≥ viewChangeTimeout
      then s'.initiateViewChange hash env (abortSelectedView hash env) else .ok s') :=
    .ite (initiateViewChange_kept hR) hR.done
  exact .ite (hR.bind (tickTransfer_within hR) hjoin) (.ite (hR.after (hjoin _) rfl) (hjoin s))

theorem tickViewChange_within (hR : Blind R) : Within R s (s.tickViewChange hash env) :=
  .ite (hR.tolerates.assert _) (.ite (.ite (abortSelectedView_kept hR s)
    (advanceSelectedView_kept hR)) (.ite (initiateViewChange_kept hR) hR.done))

theorem catchUp_within (hR : Blind R) : Within R s s.catchUp :=
  .ite (advanceCommitMin_within hR) hR.done

theorem tickProtocol_within (hR : Blind R) : Within R s (s.tickProtocol hash env) := by
  refine hR.bind (hR.after (catchUp_within hR) rfl) fun s' => ?_
  split
  · exact .ite (tickLeader_within hR) (tickFollower_within hR)
  · exact tickViewChange_within hR
  · exact hR.done

theorem deferView_outward (src : ℕ) (m : Message) :
    (s.deferView hash src m).outward = s.outward := by
  unfold deferView
  split
  · split <;> rfl
  · rfl

theorem dispatch_within (hR : Blind R) (src : ℕ) (m : Message) :
    Within R s (s.dispatch hash env src m) := by
  cases m with
  | request m => exact hR.same (onRequest_outward s m)
  | prepare m => exact onPrepare_within hR src m
  | prepareOk m => exact onPrepareOk_within hR src m
  | commit m => exact onCommit_within hR src m
  | startViewChange m => exact onStartViewChange_within hR src m
  | doViewChange m => exact onDoViewChange_within hR src m
  | startView m => exact onStartView_within hR src m
  | requestPrepare m => exact hR.same (onRequestPrepare_outward src m)
  | sendPrepare m => exact onSendPrepare_within hR src m
  | requestStatus v => exact onRequestStatus_within hR src v
  | sendStatus m => exact onSendStatus_within hR src m
  | requestStartView v => exact hR.same (onRequestStartView_outward src v)
  | reply m => exact hR.done

theorem onMessage_within (hR : Blind R) (src : ℕ) (m : Message) :
    Within R s (s.onMessage hash env src m) := by
  refine .ite hR.done (.ite hR.done ?_)
  have hdefer : (if s.pendingStartView.active = true then s.deferView hash src m else s).outward =
      s.outward := by
    split
    · exact deferView_outward src m
    · rfl
  exact .ite (hR.same hdefer) (.ite (hR.same hdefer) (hR.after (dispatch_within hR src m) hdefer))

/-! ### Barriers -/

theorem announceNormal_within (hR : Blind R) : Within R s s.announceNormal := by
  refine .ite (hR.same ?_) ?_
  · exact sendToAllOthers_outward fun c => .startView c.buildStartView
  split
  · exact hR.done
  · exact hR.same rfl

theorem enterPending_within (hR : Blind R) : Within R s s.enterPending :=
  .ite (hR.after (commitUpTo_kept hR _) rfl) (hR.same rfl)

theorem settleNormal_outward : ((s.core Core.settleNormal).resetForNormal env).outward =
    s.outward := by
  have hsettle : (s.core Core.settleNormal).outward = s.outward := by
    apply core_outward
    unfold Core.settleNormal
    dsimp only
    split <;> rfl
  exact hsettle

theorem settlePending_within (hR : Blind R) : Within R s (s.settlePending env) :=
  .ite hR.done (.ite hR.done (hR.map (hR.after (announceNormal_within hR) settleNormal_outward)
    fun _ => hR.same rfl))

theorem followDeferred_within (hR : Blind R) (deferredView : ℕ) :
    Within R s (s.followDeferred hash env deferredView) :=
  .ite hR.done (.ite (initiateViewChangeTo_within hR.tolerates _ (abortSelectedView_kept hR)) hR.done)

theorem publishPendingStartView_within (hR : Blind R) (hash : Hash) (env : Env) (s : Replica) :
    Within R s (s.publishPendingStartViewAfterBarrier hash env) :=
  .ite hR.done (.ite hR.done (hR.bind (enterPending_within hR) fun _ =>
    hR.bind (settlePending_within hR) fun _ => followDeferred_within hR _))

theorem publishPrepare_frame (c : Core) (op : ℕ) (e : LogEntry) :
    (c.publishPrepare op e).stateMachine = c.stateMachine := by
  unfold Core.publishPrepare
  dsimp only
  split
  · rw [Core.sendToAllOthers_frame]
    rfl
  · rfl

theorem publishPrepares_within (hR : Blind R) : ∀ (ops : List ℕ) (s : Replica),
    Within R s (publishPrepares ops s)
  | [], _ => hR.done
  | op :: rest, s => by
    unfold publishPrepares
    split
    · exact publishPrepares_within hR rest s
    next e _ =>
    split
    · exact hR.same (core_outward (publishPrepare_frame s.toCore op e))
    next c hc =>
    refine hR.after (publishPrepares_within hR rest _) ?_
    have hsame : c.stateMachine = s.stateMachine := by
      refine Eq.trans ?_ (publishPrepare_frame s.toCore op e)
      unfold Core.publishPrepareOk at hc
      dsimp only at hc
      split at hc
      · obtain ⟨m, -, rfl⟩ := Option.map_eq_some_iff.mp hc
        rfl
      · cases hc
        rfl
    exact core_outward (f := fun _ => c) hsame

theorem syncPendingStartView_outward (hash : Hash) (s : Replica) (d : Disk) :
    match s.syncPendingStartView hash d with
    | .error s' | .ok (_, s') => s'.outward = s.outward := by
  unfold syncPendingStartView
  cases s.metadataForPersistence hash with
  | none => rfl
  | some m =>
    dsimp only
    by_cases hhigh : m.opNumber ≠ s.logHighOp
    · rw [if_pos hhigh]
    rw [if_neg hhigh]
    cases d.stage s.journalDirty s.journal slots with
    | none => rfl
    | some d₁ =>
      dsimp only
      cases d₁.writeMetadata m with
      | none => rfl
      | some d₂ =>
        dsimp only
        cases d₂.sync with
        | none => rfl
        | some d₃ =>
          dsimp only
          by_cases heq : d₃.metadataEquals m = true
          · rw [if_pos heq]
            rfl
          · rw [if_neg heq]
            rfl

end Walk

/-! ### Callbacks and publication -/

/-- A deployment has more variables than fit in a frame. -/
def Overlong (c : Core) : Prop := ∃ dep ∈ c.stateMachine.deployments, startPodEnvMax < dep.envCount

/-- Workers are told something: their slots and the frames sent to them change, and the call stops
only at a deployment that is too long for a frame. -/
structure Tells (s : Replica) (o : Outcome) : Prop where
  frame : o.state = { s with workers := o.state.workers, workerFrames := o.state.workerFrames }
  overlong : ∀ s', o = .error s' → Overlong s.toCore

namespace Tells

variable {s' : Replica} {o : Outcome}

theorem ok (h : s' = { s with workers := s'.workers, workerFrames := s'.workerFrames }) :
    Tells s (.ok s') := ⟨h, fun _ h => nomatch h⟩

theorem bind {k : Replica → Outcome} (h : Tells s o) (hk : ∀ s', Tells s' (k s')) :
    Tells s (o.bind k) := by
  cases o with
  | error s' => exact ⟨h.frame, h.overlong⟩
  | ok s' =>
    have hs' : s' = { s with workers := s'.workers, workerFrames := s'.workerFrames } := h.frame
    obtain ⟨hframe, hlong⟩ := hk s'
    refine ⟨?_, fun s₁ hs₁ => ?_⟩
    · show (k s').state = { s with
        workers := (k s').state.workers, workerFrames := (k s').state.workerFrames }
      rw [hframe, hs']
    · have hcore := hlong s₁ hs₁
      rw [hs'] at hcore
      exact hcore

theorem map {f : Replica → Replica} (h : Tells s o) (hf : ∀ s' : Replica, f s' = { s' with
    workers := (f s').workers, workerFrames := (f s').workerFrames }) : Tells s (o.map f) := by
  exact h.bind fun s' => .ok (hf s')

end Tells

/-- A publication: in addition, what waits for the barrier changes. -/
structure Posts (s : Replica) (o : Outcome) : Prop where
  frame : o.state = { s with
    workers := o.state.workers
    workerFrames := o.state.workerFrames
    pendingStops := o.state.pendingStops
    pendingEffect := o.state.pendingEffect }
  overlong : ∀ s', o = .error s' → Overlong s.toCore

theorem Tells.posts {o : Outcome} (h : Tells s o) : Posts s o := by
  refine ⟨?_, h.overlong⟩
  rw [h.frame]

theorem Posts.keeps {o : Outcome} (h : Posts s o) : o.Keeps s.toCore := by
  unfold Outcome.Keeps
  rw [h.frame]

theorem dispatchPodToWorker_tells (s : Replica) (podId nodeId : ℕ) :
    Tells s (s.dispatchPodToWorker podId nodeId) := by
  unfold dispatchPodToWorker
  split
  · exact .ok rfl
  split
  · exact .ok rfl
  split
  · exact .ok rfl
  next dep hdep =>
  split
  · exact .ok rfl
  split
  · next henv => exact ⟨rfl, fun _ _ => ⟨dep, List.mem_of_find?_eq_some hdep, henv⟩⟩
  · exact .ok rfl

theorem dispatchAll_tells (nodeId : ℕ) : ∀ (pods : List ℕ) (s : Replica),
    Tells s (dispatchAll nodeId pods s)
  | [], _ => .ok rfl
  | podId :: rest, s =>
    (dispatchPodToWorker_tells s podId nodeId).bind fun s' => dispatchAll_tells nodeId rest s'

theorem dispatchBindings_tells : ∀ (bindings : List PodBinding) (s : Replica),
    Tells s (dispatchBindings bindings s)
  | [], _ => .ok rfl
  | b :: rest, s =>
    (dispatchPodToWorker_tells s b.podId b.nodeId).bind fun s' => dispatchBindings_tells rest s'

theorem dispatchPodsForWorkerMatching_tells (s : Replica) (workerIdx : ℕ) (includeRunning : Bool) :
    Tells s (s.dispatchPodsForWorkerMatching workerIdx includeRunning) := by
  unfold dispatchPodsForWorkerMatching
  split
  · exact .ok rfl
  split
  · exact .ok rfl
  dsimp only
  split
  · exact .ok rfl
  · exact dispatchAll_tells _ _ s

theorem Tells.slot {w : ℕ → WorkerConnection} {o : Outcome} (h : Tells { s with workers := w } o) :
    Tells s o := by
  refine ⟨?_, h.overlong⟩
  rw [h.frame]

theorem publishWorkerEffect_tells (s : Replica) (e : LogEntry) (entityId : ℕ) :
    Tells s (s.publishWorkerEffect e entityId) := by
  unfold publishWorkerEffect
  split
  · unfold publishRegistration
    split
    · dsimp only
      split
      · exact (dispatchPodsForWorkerMatching_tells _ _ _).slot
      · exact .ok rfl
    · exact .ok rfl
  · exact dispatchPodToWorker_tells s _ _
  · exact dispatchBindings_tells _ s
  · exact .ok rfl

theorem onWorkerHeartbeat_tells (s : Replica) (env : Env) (workerIdx : ℕ) :
    Tells s (s.onWorkerHeartbeat env workerIdx) := by
  unfold onWorkerHeartbeat
  split
  · exact .ok rfl
  split
  · exact .ok rfl
  dsimp only
  split
  · exact (dispatchPodsForWorkerMatching_tells _ _ _).slot.map fun _ => rfl
  · exact .ok rfl

theorem publishStops_frame (op : ℕ) : ∀ (fuel i : ℕ) (s : Replica), publishStops op fuel i s = { s with
      pendingStops := (publishStops op fuel i s).pendingStops
      workerFrames := (publishStops op fuel i s).workerFrames }
  | 0, _, _ => rfl
  | fuel + 1, i, s => by
    have hstop : ∀ d, s.dispatchStopPodToWorker d = { s with
        workerFrames := (s.dispatchStopPodToWorker d).workerFrames } := by
      intro d
      unfold dispatchStopPodToWorker
      split_ifs <;> rfl
    unfold publishStops
    split
    · rfl
    · split
      · rw [publishStops_frame op fuel i]
        rw [hstop]
      · exact publishStops_frame op fuel (i + 1) s

theorem publishEffect_posts (s : Replica) (op : ℕ) (e : LogEntry) (result : Result) :
    Posts s (s.publishEffect op e result) := by
  unfold publishEffect
  split
  swap
  · exact (Tells.ok rfl).posts
  split
  · exact (Tells.ok rfl).posts
  next entityId =>
  have hstops := publishStops_frame op s.pendingStops.length 0 s
  dsimp only
  generalize publishStops op s.pendingStops.length 0 s = s₁ at hstops ⊢
  obtain ⟨hframe, hlong⟩ := publishWorkerEffect_tells s₁ e entityId
  have hcore : s₁.toCore = s.toCore := by rw [hstops]
  cases hout : s₁.publishWorkerEffect e entityId with
  | ok s₂ =>
    rw [hout] at hframe
    have h₂ : s₂ = { s₁ with workers := s₂.workers, workerFrames := s₂.workerFrames } := hframe
    refine ⟨?_, fun _ h => nomatch h⟩
    rw [h₂, hstops]
    rfl
  | error s₂ =>
    rw [hout] at hframe
    have h₂ : s₂ = { s₁ with workers := s₂.workers, workerFrames := s₂.workerFrames } := hframe
    refine ⟨?_, fun s' h => hcore ▸ hlong s₂ hout⟩
    rw [h₂, hstops]
    rfl

theorem onWorkerPodStatus_outward (workerIdx : ℕ) (m : WorkerPodStatusMsg) :
    (s.onWorkerPodStatus hash workerIdx m).outward = s.outward := by
  unfold onWorkerPodStatus
  split
  · rfl
  split
  · rfl
  split
  · exact onRequest_outward s _
  · rfl

end Replica

/-! ### Calls as the workers see them -/

/-- What a step of a call is about. -/
inductive WorkerEvent where
  | protocol
  | register (workerIdx : ℕ) (m : WorkerRegisterMsg)
  | disconnect (workerIdx : ℕ)
  | heartbeat (workerIdx : ℕ)
  | publish (op : ℕ)

/-- A step of a call: `R`-transitions of the protocol core that leave the workers alone, a callback
of a worker, or the publication of what an op has committed. -/
inductive Replica.Step (hash : Hash) (R : Core → Core → Prop) :
    Replica → WorkerEvent → Replica → Prop where
  | protocol {s s' : Replica} (hacts : ReflTransGen R s.toCore s'.toCore)
      (haside : s'.workerSide = s.workerSide) : Step hash R s .protocol s'
  | register {s s' : Replica} {env : Env} {workerIdx : ℕ} {m : WorkerRegisterMsg}
      (hacts : ReflTransGen R s.toCore s'.toCore)
      (h : s.onWorkerRegister hash env workerIdx m = .ok s') :
      Step hash R s (.register workerIdx m) s'
  | disconnect {s : Replica} {workerIdx : ℕ} :
      Step hash R s (.disconnect workerIdx) (s.onWorkerDisconnect workerIdx)
  | heartbeat {s : Replica} {env : Env} {workerIdx : ℕ} :
      Step hash R s (.heartbeat workerIdx) (s.onWorkerHeartbeat env workerIdx).state
  | publish {s : Replica} {op : ℕ} (hpos : 0 < op) (hle : op ≤ s.commitMin)
      (hacts : ReflTransGen R s.toCore (s.publishCommittedEffect op).state.toCore) :
      Step hash R s (.publish op) (s.publishCommittedEffect op).state

/-- A sequence of steps. -/
def Replica.Steps (hash : Hash) (R : Core → Core → Prop) : Replica → Replica → Prop :=
  ReflTransGen fun s s' => ∃ ev, s.Step hash R ev s'

/-- A call that starts in `s` is a sequence of steps, and ends or stops after them. -/
def Works (hash : Hash) (R : Core → Core → Prop) (s : Replica) : Outcome → Prop
  | .ok s' => s.Steps hash R s'
  | .error s' => ∃ p, s.Steps hash R p ∧ p.Halted s'.toCore ∧ s'.workerSide = p.workerSide

namespace Replica

variable {hash : Hash} {R R' : Core → Core → Prop} {s s' s₁ : Replica} {ev : WorkerEvent}

/-- To the core, callbacks and publications are transitions like any other. -/
theorem Step.acts (h : s.Step hash R ev s') : ReflTransGen R s.toCore s'.toCore := by
  cases h with
  | protocol hacts => exact hacts
  | register hacts => exact hacts
  | @disconnect workerIdx =>
    have hcore : (s.onWorkerDisconnect workerIdx).toCore = s.toCore := by
      unfold onWorkerDisconnect
      split <;> rfl
    rw [hcore]
  | @heartbeat env workerIdx =>
    rw [(onWorkerHeartbeat_tells s env workerIdx).posts.keeps]
  | publish _ _ hacts => exact hacts

theorem Steps.acts (h : s.Steps hash R s') : ReflTransGen R s.toCore s'.toCore := by
  induction h with
  | refl => exact .refl
  | tail _ h ih =>
    obtain ⟨ev, h⟩ := h
    exact ih.trans h.acts

theorem Steps.mono (hR : ∀ {a b}, R a b → R' a b) (h : s.Steps hash R s') :
    s.Steps hash R' s' := by
  have hacts : ∀ {a b}, ReflTransGen R a b → ReflTransGen R' a b :=
    fun h => ReflTransGen.mono (fun _ _ => hR) _ _ h
  refine ReflTransGen.mono ?_ _ _ h
  rintro a b ⟨ev, h⟩
  cases h with
  | protocol h haside => exact ⟨_, .protocol (hacts h) haside⟩
  | register h hout => exact ⟨_, .register (hacts h) hout⟩
  | disconnect => exact ⟨_, .disconnect⟩
  | heartbeat => exact ⟨_, .heartbeat⟩
  | publish hpos hle h => exact ⟨_, .publish hpos hle (hacts h)⟩

theorem Steps.protocol (hacts : ReflTransGen R s.toCore s'.toCore)
    (haside : s'.workerSide = s.workerSide) : s.Steps hash R s' :=
  .single ⟨_, .protocol hacts haside⟩

end Replica

namespace Works

variable {hash : Hash} {R R' : Core → Core → Prop} {s s₁ : Replica} {o o' : Outcome}

theorem ok : Works hash R s (.ok s) := ReflTransGen.refl

theorem error : Works hash R s (.error s) := ⟨s, .refl, .refl _, rfl⟩

theorem after (h : s.Steps hash R s₁) (ho : Works hash R s₁ o) : Works hash R s o := by
  cases o with
  | ok s' => exact ReflTransGen.trans h ho
  | error s' =>
    obtain ⟨p, hp, hend⟩ := ho
    exact ⟨p, h.trans hp, hend⟩

theorem head (s₁ : Replica) (h : R s.toCore s₁.toCore) (haside : s₁.workerSide = s.workerSide)
    (ho : Works hash R s₁ o) : Works hash R s o := after (.protocol (.single h) haside) ho

theorem quiet (h : Reaches R s.toCore o) (haside : o.state.workerSide = s.workerSide) :
    Works hash R s o := by
  cases o with
  | ok s' => exact .protocol h haside
  | error s' =>
    obtain ⟨c₁, hacts, hhalt⟩ := h
    exact ⟨{ s with toCore := c₁ }, .protocol hacts rfl, hhalt, haside⟩

theorem bind {k : Replica → Outcome} (h : Works hash R s o)
    (hk : ∀ s', o = .ok s' → s.Steps hash R s' → Works hash R s' (k s')) :
    Works hash R s (o.bind k) := by
  cases o with
  | ok s' => exact after h (hk s' rfl h)
  | error s' => exact h

theorem mono (hR : ∀ {a b}, R a b → R' a b) (h : Works hash R s o) : Works hash R' s o := by
  cases o with
  | ok s' => exact Replica.Steps.mono hR h
  | error s' =>
    obtain ⟨p, hp, hend⟩ := h
    exact ⟨p, hp.mono hR, hend⟩

theorem ite {p : Prop} [Decidable p] (h : p → Works hash R s o) (h' : ¬ p → Works hash R s o') :
    Works hash R s (if p then o else o') := by
  by_cases hp : p
  · rw [if_pos hp]
    exact h hp
  · rw [if_neg hp]
    exact h' hp

theorem reaches (h : Works hash R s o) : Reaches R s.toCore o := by
  cases o with
  | ok s' => exact Replica.Steps.acts h
  | error s' =>
    obtain ⟨p, hp, hhalt, -⟩ := h
    exact ⟨p.toCore, hp.acts, hhalt⟩

end Works

end Hivemind
