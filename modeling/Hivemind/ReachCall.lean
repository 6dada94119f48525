import Hivemind.ReachFlush

/-! Whole calls as sequences of transitions, and the states before a call in which one
of the hazards can arise. -/
namespace Hivemind

open Relation Core

/-- The view a message asks its receiver to enter. -/
def Message.entersView : Message → Option ℕ
  | .startViewChange m => some m.viewNumber
  | .prepare m => some m.viewNumber
  | .commit m => some m.viewNumber
  | .startView m => some m.viewNumber
  | _ => none

namespace Input

/-- A vote, a report or an announcement of a view, with its sender. -/
def vote : Input → Option (ℕ × StartViewChangeMsg)
  | .message src (.startViewChange m) => some (src, m)
  | _ => none

def report : Input → Option (ℕ × DoViewChangeMsg)
  | .message src (.doViewChange m) => some (src, m)
  | _ => none

def announcement : Input → Option (ℕ × StartViewMsg)
  | .message src (.startView m) => some (src, m)
  | _ => none

/-- An entry another replica hands over. -/
def transfer : Input → Option (ℕ × SendPrepareMsg)
  | .message src (.sendPrepare m) => some (src, m)
  | _ => none

def entersView : Input → Option ℕ
  | .message _ m => m.entersView
  | _ => none

def isTick : Input → Bool
  | .tick => true
  | _ => false

end Input

/-- The replica is between two views. -/
def Core.Away (c : Core) : Prop := c.status = .viewChange ∨ c.pendingStartView.active = true

instance (c : Core) : Decidable c.Away := inferInstanceAs (Decidable (_ ∨ _))

namespace Replica

section

variable (env : Env) (s : Replica) (inp : Input)

/-- The call makes the replica leave its view. -/
def Leaves : Prop :=
  (∃ v ∈ inp.entersView, s.viewNumber < v) ∨
    (inp.isTick = true ∧ s.status = .normal ∧ s.isLeader = false ∧
      env.now - (s.startTimers env).lastLeaderActivity ≥ viewChangeTimeout)

/-- A vote from `src` for the current view that lets the leader build a report. -/
def Elects (src : ℕ) (m : StartViewChangeMsg) : Prop :=
  m.viewNumber = s.viewNumber ∧ m.replicaId = src ∧
    s.viewChangeQuorum ≤ (s.countStartVc src).startVcTotal ∧ s.isLeader = true

/-- A report for the view the replica is about to lead. -/
def Reports (m : DoViewChangeMsg) : Prop :=
  s.status = .viewChange ∧ m.viewNumber = s.viewNumber ∧ s.isLeader = true

/-- With the report `m` there is a quorum, and none of it knows the leader's commit. -/
def Overlooks (m : DoViewChangeMsg) : Prop :=
  s.quorumSize ≤ (s.recordDvc m).doVcTotal ∧ (s.recordDvc m).maxDvcCommit < s.commitMin

/-- The states and calls in which a hazard can arise. -/
def Arises : Hazard → Prop
  | .reselect => s.viewNumber ≤ s.lastNormalView ∧
      ((∃ x ∈ inp.vote, s.Elects x.1 x.2) ∨ ∃ x ∈ inp.report, s.Reports x.2)
  | .readopt => s.viewNumber ≤ s.lastNormalView ∧ s.status = .viewChange ∧
      ∃ x ∈ inp.announcement, x.2.viewNumber = s.viewNumber
  | .staleFlag => (s.Owes ∧ (s.status = .viewChange ∨ s.Leaves env inp)) ∨
      (inp.isTick = true ∧ DeferredHazard s.toCore)
  | .phantom => inp.isTick = true ∧ s.status = .normal ∧ s.isLeader = true ∧
      s.repairPending = true ∧ s.repairStatusQuorum ≤ s.repairStatusCount ∧
      ∃ op ∈ opsAbove s.commitMin s.opNumber, s.prepareOkCounts (journalSlot op) = 0
  | .shrink => (∃ x ∈ inp.vote, s.Elects x.1 x.2 ∧ s.Overlooks s.dvcMessage) ∨
      ∃ x ∈ inp.report, s.Reports x.2 ∧ x.2.replicaId = x.1 ∧ s.Overlooks x.2
  | .solo => s.replicaCount = 1 ∧ (s.Away ∨ s.Leaves env inp)
  | .unlinked => ∃ x ∈ inp.transfer, s.Unlinks x.1 x.2
  | .disorder => ∃ x ∈ s.submitting env inp, x.1.Listens ∧ x.1.Disorderly x.2
  | .overtaken => ∃ x ∈ s.submitting env inp, x.1.Listens ∧ ∃ m ∈ x.2,
      x.1.hasPendingClientReply m.clientId m.requestId = false ∧ x.1.Overtaken m

instance (c : Core) : Decidable c.Owes :=
  inferInstanceAs (Decidable (∃ i < logSizeMax, _ ∨ _))

instance (c : Core) : Decidable (DeferredHazard c) := inferInstanceAs (Decidable (_ ∧ _))

instance : Decidable (s.Leaves env inp) := inferInstanceAs (Decidable (_ ∨ _))

instance (src : ℕ) (m : StartViewChangeMsg) : Decidable (s.Elects src m) :=
  inferInstanceAs (Decidable (_ ∧ _))

instance (m : DoViewChangeMsg) : Decidable (s.Reports m) := inferInstanceAs (Decidable (_ ∧ _))

instance (m : DoViewChangeMsg) : Decidable (s.Overlooks m) := inferInstanceAs (Decidable (_ ∧ _))

instance (src : ℕ) (m : SendPrepareMsg) : Decidable (s.Unlinks src m) :=
  inferInstanceAs (Decidable (_ ∧ _))

instance : DecidablePred (s.Arises env inp)
  | .reselect => inferInstanceAs (Decidable (_ ∧ _))
  | .readopt => inferInstanceAs (Decidable (_ ∧ _))
  | .staleFlag => inferInstanceAs (Decidable (_ ∨ _))
  | .phantom => inferInstanceAs (Decidable (_ ∧ _))
  | .shrink => inferInstanceAs (Decidable (_ ∨ _))
  | .solo => inferInstanceAs (Decidable (_ ∧ _))
  | .unlinked => inferInstanceAs (Decidable (∃ x ∈ inp.transfer, _))
  | .disorder => inferInstanceAs (Decidable (∃ x ∈ s.submitting env inp, _))
  | .overtaken => inferInstanceAs (Decidable (∃ x ∈ s.submitting env inp, _))

end

variable {hash : Hash} {env : Env} {inp : Input} {allow : Hazard → Prop} {s : Replica}

/-! ### Messages -/

/-- A single submitted request; `s` is the state it is submitted in, up to what does not
matter for requests. -/
theorem request_reaches {s₀ : Replica} {c : Core} {m : RequestMsg} (hsub : MaySubmit inp m)
    (hallow : ∀ k, s₀.Arises env inp k → allow k) (h : s₀.submitting env inp = some (s, [m]))
    {s' : Replica} (hcore : s'.toCore = c) (hrepair : s'.repairPending = s.repairPending)
    (hdecides : c = { s.toCore with deferredViewTarget := c.deferredViewTarget }) :
    Reaches (Act hash inp allow) c (.ok (s'.onRequest hash m)) := by
  subst hcore
  have hlistens : s'.Listens → s.Listens := by
    unfold Listens
    rw [hrepair, hdecides]
    exact id
  refine calmActs_acts (onRequest_reaches hsub ?_ ?_)
  · rw [hdecides]
    intro hl ha hb
    exact hallow .disorder ⟨_, h, hlistens hl, 0, by simp, m, rfl, { ha with }, .inl hb⟩
  · rw [hdecides]
    exact fun hl hp ho => hallow .overtaken ⟨_, h, hlistens hl, m, by simp, hp, ho⟩

theorem dispatch_reaches {src : ℕ} {m : Message} (hs : Sane hash s.toCore)
    (hsrc : src < s.replicaCount) (hact : s.pendingStartView.active = false)
    (hallow : ∀ k, s.Arises env (.message src m) k → allow k) :
    Reaches (Act hash (.message src m) allow) s.toCore (s.dispatch hash env src m) := by
  have haway : s.status = .viewChange → s.MayLeave allow :=
    fun hst => ⟨fun h => hallow .staleFlag (.inl ⟨h, .inl hst⟩),
      fun h => hallow .solo ⟨h, .inl (.inl hst)⟩⟩
  have hleave : ∀ v, m.entersView = some v → s.viewNumber < v → s.MayLeave allow :=
    fun v hm hv => ⟨fun h => hallow .staleFlag (.inl ⟨h, .inr (.inl ⟨v, hm, hv⟩)⟩),
      fun h => hallow .solo ⟨h, .inr (.inl ⟨v, hm, hv⟩)⟩⟩
  cases m with
  | request m => exact request_reaches (.relayed rfl) hallow rfl rfl rfl rfl
  | prepare m => exact onPrepare_reaches rfl (hleave _ rfl)
  | prepareOk m => exact onPrepareOk_reaches rfl hsrc
  | commit m => exact onCommit_reaches rfl (hleave _ rfl)
  | reply m => exact .ok rfl
  | startViewChange m =>
    exact (onStartViewChange_reaches hs rfl hact (fun h => h.elim haway (hleave _ rfl))
      (fun hv hid hq hl h => hallow .reselect ⟨h, .inl ⟨_, rfl, hv, hid, hq, hl⟩⟩)
      (fun hv hid hq hl ht h => hallow .shrink (.inl ⟨_, rfl, ⟨hv, hid, hq, hl⟩, ht, h⟩))).view
  | doViewChange m =>
    exact (onDoViewChange_reaches hs rfl hact haway
      (fun hst hv hl h => hallow .reselect ⟨h, .inr ⟨_, rfl, hst, hv, hl⟩⟩)
      (fun hst hv hl hid ht h => hallow .shrink (.inr ⟨_, rfl, ⟨hst, hv, hl⟩, hid, ht, h⟩))).view
  | startView m =>
    exact (onStartView_reaches hs rfl hact (fun h => h.elim haway (hleave _ rfl))
      (fun hst hv h => hallow .readopt ⟨h, hst, _, rfl, hv⟩)).view
  | requestPrepare m =>
    exact ReflTransGen.mono (fun _ _ => .view) _ _ (onRequestPrepare_reaches rfl)
  | sendPrepare m =>
    exact onSendPrepare_reaches hs rfl hsrc hact haway
      (fun h => hallow .unlinked ⟨_, rfl, h⟩)
  | requestStatus v => exact (onRequestStatus_reaches rfl hact).view
  | sendStatus m => exact onSendStatus_reaches rfl
  | requestStartView v =>
    exact ReflTransGen.mono (fun _ _ => .view) _ _ (onRequestStartView_reaches rfl hact)

theorem deferView_frame {src : ℕ} {m : Message} : s.deferView hash src m =
    { s with deferredViewTarget := (s.deferView hash src m).deferredViewTarget } := by
  unfold deferView
  split
  · split <;> rfl
  · rfl

theorem deferView_acts {src : ℕ} {m : Message} (hact : s.pendingStartView.active = true) :
    ReflTransGen (Act hash inp allow) s.toCore (s.deferView hash src m).toCore := by
  unfold deferView
  split
  · split
    · exact .single (.defer hact)
    · exact .refl
  · exact .refl

theorem dispatch_pending_reaches {src : ℕ} {m : Message} (hm : servedWhilePending m = true)
    (hallow : ∀ k, s.Arises env (.message src m) k → allow k) :
    Reaches (Act hash (.message src m) allow) (s.deferView hash src m).toCore
      ((s.deferView hash src m).dispatch hash env src m) := by
  cases m with
  | request m =>
    exact request_reaches (.relayed rfl) hallow rfl rfl rfl rfl
  | reply m => exact .ok rfl
  | requestPrepare m =>
    exact ReflTransGen.mono (fun _ _ => .view) _ _ (onRequestPrepare_reaches rfl)
  | _ => cases hm

theorem onMessage_reaches {src : ℕ} {m : Message} (hs : Sane hash s.toCore)
    (hallow : ∀ k, s.Arises env (.message src m) k → allow k) :
    Reaches (Act hash (.message src m) allow) s.toCore (s.onMessage hash env src m) := by
  refine .guard fun _ => .guard fun hsrc => ?_
  dsimp only
  by_cases hact : s.pendingStartView.active = true
  · rw [if_pos hact]
    refine .trans (deferView_acts hact) (.guard fun hserved => .guard fun _ => ?_)
    exact dispatch_pending_reaches (by simpa [hact] using hserved) hallow
  · rw [if_neg hact]
    exact .guard fun _ => .guard fun _ =>
      dispatch_reaches hs (by omega) (by simpa using hact) hallow

/-! ### Ticks -/

theorem commitLoop_frame {limit : ℕ} : ∀ {fuel : ℕ} {s s' : Replica},
    commitLoop limit fuel s = .ok s' → s' = { s with
      toCore := s'.toCore
      pendingEffect := s'.pendingEffect
      pendingStops := s'.pendingStops
      executions := s'.executions }
  | 0, s, s', h => by
    cases h
    rfl
  | fuel + 1, s, s', h => by
    unfold commitLoop at h
    split at h
    · split at h
      · cases h
        rfl
      · cases h₁ : s.commitEntry (s.commitMin + 1) with
        | error s₁ =>
          rw [h₁] at h
          cases h
        | ok s₁ =>
          rw [h₁] at h
          have hframe := (s.commitEntry_frame (s.commitMin + 1)).1
          rw [h₁] at hframe
          rw [commitLoop_frame h, show s₁ = _ from hframe]
    · cases h
      rfl

theorem maySubmit_scheduled {m : RequestMsg} (h : m ∈ s.scheduledRequests env) :
    MaySubmit .tick m := by
  rcases List.mem_append.mp h with h | h
  · cases hacts : (Scheduler.tick s.stateMachine s.scheduler (nowUnsigned env)).2.actions with
    | nil => simp [hacts, bindRequests] at h
    | cons first rest =>
      rw [hacts, bindRequests, List.mem_singleton] at h
      subst h
      exact .bound rfl
  · obtain ⟨a, -, rfl⟩ := List.mem_map.mp h
    exact .scaledDown rfl

theorem tickScheduler_reaches (hst : s.status = .normal) (hlead : s.isLeader = true)
    (horder : s.Listens → s.Disorderly (s.scheduledRequests env) → allow .disorder)
    (hlate : s.Listens → (∃ m ∈ s.scheduledRequests env,
      s.hasPendingClientReply m.clientId m.requestId = false ∧ s.Overtaken m) → allow .overtaken) :
    Reaches (CalmAct hash .tick allow) s.toCore (s.tickScheduler hash env) := by
  rw [tickScheduler_eq hash env s hst hlead]
  have hsub : ∀ m ∈ s.scheduledRequests env, MaySubmit .tick m := fun m => maySubmit_scheduled
  exact submitAll_reaches hsub horder hlate _ [] (s := { s with
    scheduler := (Scheduler.tick s.stateMachine s.scheduler (nowUnsigned env)).1 }) rfl
    { Submitted.refl s with }

theorem sentFrame_trans {c c₁ c₂ : Core} (h₁ : c₁ = { c with history := c₁.history })
    (h₂ : c₂ = { c₁ with history := c₂.history }) : c₂ = { c with history := c₂.history } := by
  rw [h₁] at h₂
  exact h₂

variable (hash inp allow) in
theorem sendCommitHeartbeat_acts {c : Core} (hst : c.status = .normal) (hlead : c.isLeader = true) :
    ReflTransGen (CalmAct hash inp allow) c c.sendCommitHeartbeat ∧
      c.sendCommitHeartbeat = { c with history := c.sendCommitHeartbeat.history } := by
  unfold sendCommitHeartbeat
  dsimp only
  split
  · exact ⟨.refl, rfl⟩
  · next checksum hsum =>
    split
    · exact ⟨.refl, rfl⟩
    · obtain ⟨hacts, hframe⟩ := sendToAllOthers_acts hash inp allow (c := c)
        (m := c.commitMessage checksum) (fun _ _ => .heartbeat hst hlead hsum)
      exact ⟨ReflTransGen.mono (fun _ _ => CalmAct.view) _ _ hacts, hframe⟩

variable (hash inp allow) in
theorem resendPrepares_acts : ∀ (ops : List ℕ) {c : Core}, c.status = .normal → c.isLeader = true →
    (∀ op ∈ ops, op ≤ c.opNumber) →
      ReflTransGen (CalmAct hash inp allow) c (resendPrepares ops c) ∧
        resendPrepares ops c = { c with history := (resendPrepares ops c).history }
  | [], c, _, _, _ => ⟨.refl, rfl⟩
  | op :: rest, c, hst, hlead, hops => by
    unfold resendPrepares
    have hrest : ∀ op' ∈ rest, op' ≤ c.opNumber := fun op' h => hops op' (by simp [h])
    split
    · exact resendPrepares_acts _ hst hlead hrest
    · next e he =>
      split
      · next hdur =>
        rw [Bool.and_eq_true] at hdur
        obtain ⟨hacts, hframe⟩ := sendToAllOthers_acts hash inp allow (c := c)
          (m := c.prepareFor op e)
          (fun _ _ => .resend hst hlead he hdur.1 (hops op (by simp)))
        obtain ⟨hacts', hframe'⟩ := resendPrepares_acts rest
          (c := c.sendToAllOthers (c.prepareFor op e)) (by rw [hframe]; exact hst)
          (by rw [hframe]; exact hlead) (by rw [hframe]; exact hrest)
        exact ⟨.trans (ReflTransGen.mono (fun _ _ => CalmAct.view) _ _ hacts) hacts',
          sentFrame_trans hframe hframe'⟩
      · exact resendPrepares_acts _ hst hlead hrest

variable (hash env inp allow) in
theorem tickHeartbeat_acts (hst : s.status = .normal) (hlead : s.isLeader = true) :
    ReflTransGen (CalmAct hash inp allow) s.toCore (s.tickHeartbeat env).toCore ∧
      (s.tickHeartbeat env).toCore = { s.toCore with history := (s.tickHeartbeat env).history } ∧
      (s.tickHeartbeat env).repairPending = s.repairPending ∧
      (s.tickHeartbeat env).repairStatusCount = s.repairStatusCount ∧
      (s.tickHeartbeat env).scheduler = s.scheduler := by
  obtain ⟨hacts, hframe⟩ := sendCommitHeartbeat_acts hash inp allow (c := s.toCore) hst hlead
  unfold tickHeartbeat
  split
  · dsimp only
    split
    · exact ⟨hacts, hframe, rfl, rfl, rfl⟩
    · obtain ⟨hacts', hframe'⟩ := resendPrepares_acts hash inp allow
        (opsAbove s.sendCommitHeartbeat.commitMin s.sendCommitHeartbeat.opNumber)
          (c := s.sendCommitHeartbeat) (by rw [hframe]; exact hst) (by rw [hframe]; exact hlead)
        (fun op hop => (mem_opsAbove.mp hop).2)
      exact ⟨hacts.trans hacts', sentFrame_trans hframe hframe', rfl, rfl, rfl⟩
  · exact ⟨.refl, rfl, rfl, rfl, rfl⟩

theorem tickLeader_reaches (hst : s.status = .normal) (hlead : s.isLeader = true)
    (hallow : ∀ op, s.commitMin < op → op ≤ s.opNumber → s.prepareOkCounts (journalSlot op) = 0 →
      s.repairPending = true → s.repairStatusQuorum ≤ s.repairStatusCount → allow .phantom)
    (horder : s.Listens → s.Disorderly (s.scheduledRequests env) → allow .disorder)
    (hlate : s.Listens → (∃ m ∈ s.scheduledRequests env,
      s.hasPendingClientReply m.clientId m.requestId = false ∧ s.Overtaken m) → allow .overtaken) :
    Reaches (CalmAct hash .tick allow) s.toCore (s.tickLeader hash env) := by
  obtain ⟨hacts, hcore, hrep, hcount, hsched⟩ := tickHeartbeat_acts hash env .tick allow hst hlead
  have hreqs : (s.tickHeartbeat env).scheduledRequests env = s.scheduledRequests env := by
    unfold scheduledRequests
    rw [hsched, hcore]
  have hlistens : (s.tickHeartbeat env).Listens → s.Listens := by
    unfold Listens
    rw [hrep, hcore]
    exact id
  refine .trans hacts (.ite (fun h => tickRepair_reaches ?_) (fun _ => ?_))
  · unfold repairStatusQuorum at hallow ⊢
    rw [hcore, hcount]
    exact fun op hgt hle h0 hq => hallow op hgt hle h0 (hrep ▸ h) hq
  · refine tickScheduler_reaches ?_ ?_ ?_ ?_
    · rw [hcore]
      exact hst
    · rw [hcore]
      exact hlead
    · rw [hreqs, hcore]
      rintro hl ⟨i, hi, m, hm, ha, hb⟩
      exact horder (hlistens hl) ⟨i, hi, m, hm, { ha with }, hb⟩
    · rw [hreqs, hcore]
      exact fun hl hm => hlate (hlistens hl) hm

theorem tickTransfer_frame {s' : Replica} (h : s.tickTransfer = .ok s') :
    s'.toCore = { s.toCore with history := s'.history } ∧
      s'.lastLeaderActivity = s.lastLeaderActivity := by
  have hframe := (requestMissing_acts (fun _ => 0) .tick (fun _ => True)
    (opsAbove s.commitMin s.opNumber) repairBatchMax (c := s.toCore)).2
  unfold tickTransfer at h
  dsimp only at h
  split at h
  · cases h
  split at h
  · cases h
    exact ⟨hframe, rfl⟩
  split at h
  · cases h
    exact ⟨sentFrame_trans hframe
      (sendToAllOthers_acts (fun _ => 0) .tick (fun _ => True) (fun _ _ => .ask rfl)).2, rfl⟩
  · cases h
    exact ⟨hframe, rfl⟩

theorem tickFollower_reaches (hs : Sane hash s.toCore) (hfol : s.isLeader = false)
    (hleave : env.now - s.lastLeaderActivity ≥ viewChangeTimeout → s.MayLeave allow) :
    Reaches (CalmAct hash inp allow) s.toCore (s.tickFollower hash env) := by
  have hrest : ∀ s₁ : Replica, s₁.toCore = { s.toCore with history := s₁.history } →
      s₁.lastLeaderActivity = s.lastLeaderActivity →
      Reaches (CalmAct hash inp allow) s₁.toCore
        (if env.now - s₁.lastLeaderActivity ≥ viewChangeTimeout then
          s₁.initiateViewChange hash env (abortSelectedView hash env) else .ok s₁) := by
    intro s₁ hcore hact
    refine .ite (fun h => ?_) (fun _ => .ok rfl)
    refine (initiateViewChange_reaches abortSelectedView_reaches ?_ ?_).mono CalmAct.view
    · rw [hcore]
      exact { hs with }
    · rw [hcore]
      exact hleave (hact ▸ h)
  unfold tickFollower
  refine .ite (fun _ => ?_) (fun _ => .ite (fun _ => ?_) (fun _ => hrest s rfl rfl))
  · refine tickTransfer_reaches.bind (fun s₁ hs₁ _ => ?_)
    obtain ⟨hcore, hact⟩ := tickTransfer_frame hs₁
    exact hrest s₁ hcore hact
  · exact .head (.view (.send (.ask rfl) (.inr (.inl (leader_ne hfol))))) (hrest { s.core
      (fun c => c.sendTo c.leader (.requestStatus c.viewNumber)) with lastHeartbeat := env.now }
      rfl rfl)

theorem tickViewChange_reaches (hs : Sane hash s.toCore) (hleave : s.MayLeave allow) :
    Reaches (CalmAct hash inp allow) s.toCore (s.tickViewChange hash env) := by
  refine .ite (fun _ => .assert rfl) (fun hact => ?_)
  have hmay : s.MayAbort hash allow := ⟨hs, by simpa using hact, fun _ => hleave⟩
  refine .ite (fun _ => ?_) (fun _ => ?_)
  · exact .ite (fun _ => (abortSelectedView_reaches s hmay).mono CalmAct.view)
      (fun _ => (advanceSelectedView_reaches abortSelectedView_reaches hmay).mono CalmAct.view)
  · exact .ite (fun _ => (initiateViewChange_reaches abortSelectedView_reaches hs hleave).mono
      CalmAct.view) (fun _ => .ok rfl)

theorem catchUp_reaches : Reaches (CalmAct hash inp allow) s.toCore s.catchUp := by
  exact .ite (fun h => (advanceCommitMin_reaches _ (.inl h.1)).mono CalmAct.commit)
    (fun _ => .ok rfl)

variable (inp) in
theorem catchUp_spec {s' : Replica} (h : s.catchUp = .ok s') :
    ReflTransGen (CommitAct inp) s.toCore s'.toCore ∧
      s'.lastLeaderActivity = s.lastLeaderActivity ∧ s'.repairPending = s.repairPending ∧
      s'.repairStatusCount = s.repairStatusCount := by
  unfold catchUp at h
  split at h
  · next hc =>
    have hacts := advanceCommitMin_reaches inp (.inl hc.1)
    rw [h] at hacts
    rw [commitLoop_frame h]
    exact ⟨hacts, rfl, rfl, rfl⟩
  · cases h
    exact ⟨.refl, rfl, rfl, rfl⟩

theorem tickProtocol_reaches (hs : Sane hash s.toCore) (harmed : s.armFaults env = s)
    (hallow : ∀ k, s.Arises env .tick k → allow k) :
    Reaches (CalmAct hash .tick allow) s.toCore (s.tickProtocol hash env) := by
  refine Reaches.bind (catchUp_reaches (s := s.startTimers env)) fun s₁ hs₁ _ => ?_
  have hsubmits : s.submitting env .tick = some (s₁, s₁.scheduledRequests env) := by
    unfold submitting
    rw [harmed, hs₁]
  obtain ⟨hacts, hactivity, hrep, hcount⟩ := catchUp_spec .tick hs₁
  have hframe := commitActs_frame hacts
  have hsane : Sane hash s₁.toCore :=
    acts_sane (ReflTransGen.mono (fun _ _ => .commit) _ _ hacts : ReflTransGen
      (Act hash .tick allow) _ _) hs
  have hstatus : s₁.status = s.status := by rw [hframe]; rfl
  have hleader : s₁.isLeader = s.isLeader := by rw [hframe]; rfl
  have hcluster : s₁.replicaCount = s.replicaCount := by rw [hframe]; rfl
  have howes : s₁.Owes → s.Owes := by
    rw [hframe]
    exact id
  split
  · next hst =>
    rw [hstatus] at hst
    refine .ite (fun hlead => ?_) (fun hlead => ?_)
    · rw [hleader] at hlead
      refine tickLeader_reaches (hstatus.trans hst) (hleader.trans hlead) ?_
        (fun hl hd => hallow .disorder ⟨_, hsubmits, hl, hd⟩)
        (fun hl ho => hallow .overtaken ⟨_, hsubmits, hl, ho⟩)
      intro op hgt hle h0 hr hq
      have hlt := (commitActs_le hacts).1.trans_lt hgt
      unfold repairStatusQuorum at hq
      rw [hcount, hframe] at hq
      rw [hframe] at hle h0
      exact hallow .phantom ⟨rfl, hst, hlead, hrep ▸ hr, hq, op, mem_opsAbove.mpr ⟨hlt, hle⟩, h0⟩
    · refine tickFollower_reaches hsane (by simpa using hlead) fun ht => ?_
      rw [hactivity] at ht
      rw [hleader] at hlead
      have hleaves : s.Leaves env .tick := .inr ⟨rfl, hst, by simpa using hlead, ht⟩
      exact ⟨fun ho => hallow .staleFlag (.inl ⟨howes ho, .inr hleaves⟩),
        fun h => hallow .solo ⟨hcluster ▸ h, .inr hleaves⟩⟩
  · next hst =>
    rw [hstatus] at hst
    exact tickViewChange_reaches hsane
      ⟨fun ho => hallow .staleFlag (.inl ⟨howes ho, .inl hst⟩),
        fun h => hallow .solo ⟨hcluster ▸ h, .inl (.inl hst)⟩⟩
  · exact .ok rfl

theorem deferredHazard_of_calmActs {c c' : Core} (hs : Sane hash c)
    (h : ReflTransGen (CalmAct hash inp allow) c c') (hd : DeferredHazard c') :
    DeferredHazard c := by
  obtain ⟨⟨hdef, -⟩, hpend⟩ := calmActs_pending h
  obtain ⟨hact, hrole, hgt⟩ := hd
  by_cases ha : c.pendingStartView.active = true
  · have hp := hpend ha
    rw [hp] at hrole hgt
    exact ⟨ha, hrole, hdef ▸ hgt⟩
  · rw [hdef, hs.deferred (by simpa using ha)] at hgt
    exact absurd hgt (Nat.not_lt_zero _)

theorem away_of_act {c c' : Core} (h : Act hash inp allow c c')
    (hc : c.Away → c.replicaCount = 1 → allow .solo) :
    c'.Away → c'.replicaCount = 1 → allow .solo := by
  rw [h.place.2.1]
  intro haway h1
  cases h with
  | view h =>
    cases h with
    | enter _ _ _ hleave => exact hleave.2 h1
    | place hsel => exact hc (.inl hsel.status) h1
    | openView hsel => exact hc (.inl hsel.status) h1
    | _ => exact hc haway h1
  | commit h =>
    rw [h.frame] at haway
    exact hc haway h1
  | settle hact => exact hc (.inr hact) h1
  | close hact => exact hc (.inr hact) h1
  | _ => exact hc haway h1

theorem armFaults_armFaults : (s.armFaults env).armFaults env = s.armFaults env := by
  unfold armFaults
  cases s.disk <;> rfl

theorem arises_armFaults {k : Hazard} (h : (s.armFaults env).Arises env .tick k) :
    s.Arises env .tick k := by
  have hsame : (s.armFaults env).submitting env .tick = s.submitting env .tick := by
    unfold submitting
    rw [armFaults_armFaults]
  cases k with
  | disorder | overtaken =>
    simp only [Arises, hsame] at h
    exact h
  | _ => exact h

theorem tick_works (hs : Sane hash s.toCore)
    (hallow : ∀ k, s.Arises env .tick k → allow k) :
    Works hash (Act hash .tick allow) s (s.tick hash env) := by
  have hs' : Sane hash (s.armFaults env).toCore := { hs with }
  have hcalm : Reaches (CalmAct hash .tick allow) (s.armFaults env).toCore
      ((s.armFaults env).tickProtocol hash env) :=
    tickProtocol_reaches hs' armFaults_armFaults (fun k h => hallow k (arises_armFaults h))
  refine .ite (fun _ => .ok) fun _ =>
    .head (s.armFaults env) (@Act.arm _ _ _ _ env.faults) rfl ?_
  refine Works.bind (.quiet (hcalm.mono (fun h => h.1)) (tickProtocol_within .workers)) ?_
  intro s₁ hs₁ hsteps
  rw [hs₁] at hcalm
  refine flushDurableState_works rfl (acts_sane hsteps.acts hs') ⟨fun hd => ?_, fun hact => ?_⟩
  · exact hallow .staleFlag (.inr ⟨rfl,
      deferredHazard_of_calmActs (c := (s.armFaults env).toCore) hs' hcalm hd⟩)
  · have hend : ∀ c', ReflTransGen (Act hash .tick allow) (s.armFaults env).toCore c' →
        c'.Away → c'.replicaCount = 1 → allow .solo := by
      intro c' h
      induction h with
      | refl => exact fun haway h1 => hallow .solo ⟨h1, .inl haway⟩
      | tail _ h ih => exact away_of_act h ih
    exact hend s₁.toCore hsteps.acts (.inr hact)

/-! ### Worker callbacks and whole calls -/

theorem onWorkerRegister_works {workerIdx : ℕ} {m : WorkerRegisterMsg}
    (hallow : ∀ k, s.Arises env (.workerRegister workerIdx m) k → allow k) :
    Works hash (Act hash (.workerRegister workerIdx m) allow) s
      (s.onWorkerRegister hash env workerIdx m) := by
  have hreach : Reaches (Act hash (.workerRegister workerIdx m) allow) s.toCore
      (s.onWorkerRegister hash env workerIdx m) := by
    refine .guard fun hidx => .guardError fun _ => ?_
    dsimp only
    split
    · exact request_reaches (.registered rfl (by omega)) hallow rfl rfl rfl rfl
    · exact .ok rfl
  cases hout : s.onWorkerRegister hash env workerIdx m with
  | ok s' =>
    rw [hout] at hreach
    exact .single ⟨_, .register hreach hout⟩
  | error s' =>
    have hsame : s' = s := by
      unfold onWorkerRegister at hout
      by_cases hidx : workerIdx ≥ maxWorkers
      · rw [if_pos hidx] at hout
        cases hout
      rw [if_neg hidx] at hout
      by_cases hseq : (if workerIdx < s.workerCount then (s.workers workerIdx).registerSeq else 0) +
          1 ≥ 2 ^ 64
      · rw [if_pos hseq] at hout
        exact (Except.error.inj hout).symm
      · rw [if_neg hseq, ← apply_ite Except.ok] at hout
        cases hout
    rw [hsame]
    exact .error

theorem onWorkerHeartbeat_works {R : Core → Core → Prop} {workerIdx : ℕ} :
    Works hash R s (s.onWorkerHeartbeat env workerIdx) := by
  have hstep : s.Steps hash R (s.onWorkerHeartbeat env workerIdx).state := .single ⟨_, .heartbeat⟩
  cases hout : s.onWorkerHeartbeat env workerIdx with
  | ok s' =>
    rw [hout] at hstep
    exact hstep
  | error s' =>
    rw [hout] at hstep
    exact .after hstep .error

theorem onWorkerPodStatus_reaches {workerIdx : ℕ} {m : WorkerPodStatusMsg}
    (hallow : ∀ k, s.Arises env (.workerPodStatus workerIdx m) k → allow k) :
    ReflTransGen (Act hash (.workerPodStatus workerIdx m) allow) s.toCore
      (s.onWorkerPodStatus hash workerIdx m).toCore := by
  refine acts_unless fun _ => acts_unless fun _ => ?_
  split
  · exact request_reaches (.reported rfl) hallow rfl rfl rfl rfl
  · exact .refl

/-- A call is a sequence of steps; only the hazards that arise in the state it starts in can
occur. -/
theorem handle_works (hs : Sane hash s.toCore)
    (hallow : ∀ k, s.Arises env inp k → allow k) :
    Works hash (Act hash inp allow) s (s.handle hash env inp) := by
  cases inp with
  | message src m => exact .quiet (onMessage_reaches hs hallow) (onMessage_within .workers src m)
  | request m =>
    exact .quiet (request_reaches (.client rfl) hallow rfl rfl rfl rfl)
      (congrArg Prod.fst (onRequest_outward s m))
  | tick => exact tick_works hs hallow
  | workerRegister i m => exact onWorkerRegister_works hallow
  | workerDisconnect i => exact .single ⟨_, .disconnect⟩
  | workerHeartbeat i => exact onWorkerHeartbeat_works
  | workerPodStatus i m =>
    exact .quiet (onWorkerPodStatus_reaches hallow)
      (congrArg Prod.fst (onWorkerPodStatus_outward i m))
  | route deploymentId now => exact .quiet (.single .route) rfl

/-- A call is a sequence of transitions of the core. -/
theorem handle_reaches (hs : Sane hash s.toCore)
    (hallow : ∀ k, s.Arises env inp k → allow k) :
    Reaches (Act hash inp allow) s.toCore (s.handle hash env inp) :=
  (handle_works hs hallow).reaches

end Replica

end Hivemind
