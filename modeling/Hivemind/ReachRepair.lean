import Hivemind.ReachNormal

/-! Log repair and catch-up as sequences of transitions. -/
namespace Hivemind

open Relation Core

variable {hash : Hash} {env : Env} {inp : Input} {allow : Hazard → Prop}

namespace Core

variable {c : Core}

variable (hash inp allow) in
theorem requestMissing_acts : ∀ (ops : List ℕ) (room : ℕ) {c : Core},
    ReflTransGen (ViewAct hash inp allow) c (requestMissing ops room c).2 ∧
      (requestMissing ops room c).2 = { c with history := (requestMissing ops room c).2.history }
  | [], _, c => ⟨.refl, rfl⟩
  | _ :: _, 0, c => ⟨.refl, rfl⟩
  | op :: rest, room + 1, c => by
    unfold requestMissing
    split
    · exact requestMissing_acts _ _
    · dsimp only
      obtain ⟨hsend, hframe⟩ := sendToAllOthers_acts hash inp allow (c := c)
        (m := .requestPrepare { viewNumber := c.viewNumber, opNumber := op })
        (fun _ _ => .ask rfl)
      obtain ⟨hacts, hframe'⟩ := requestMissing_acts rest room
        (c := c.sendToAllOthers (.requestPrepare { viewNumber := c.viewNumber, opNumber := op }))
      refine ⟨hsend.trans hacts, ?_⟩
      rw [hframe', hframe]

variable (hash inp allow) in
theorem ackRepaired_acts : ∀ (ops : List ℕ) {c : Core}, c.status = .normal → c.isLeader = true →
    (∀ op ∈ ops, c.commitMin < op ∧ op ≤ c.opNumber) →
    (∀ op, c.commitMin < op → op ≤ c.opNumber → c.prepareOkCounts (journalSlot op) = 0 →
      allow .phantom) →
      ReflTransGen (CalmAct hash inp allow) c (ackRepaired ops c) ∧
        ackRepaired ops c = { c with prepareOkCounts := (ackRepaired ops c).prepareOkCounts }
  | [], c, _, _, _, _ => ⟨.refl, rfl⟩
  | op :: rest, c, hst, hlead, hops, hallow => by
    unfold ackRepaired
    obtain ⟨hgt, hle⟩ := hops op (by simp)
    split
    · next hzero =>
      have h0 : c.prepareOkCounts (journalSlot op) = 0 := by
        simp only [Bool.and_eq_true, beq_iff_eq] at hzero
        exact hzero.2
      have hact : CalmAct hash inp allow c
          { c with prepareOkCounts := upd c.prepareOkCounts (journalSlot op) 1 } :=
        ⟨.phantom (hallow op hgt hle h0) hst hlead hgt hle h0, ⟨rfl, rfl⟩, fun _ => rfl⟩
      obtain ⟨hacts, hframe⟩ := ackRepaired_acts rest
        (c := { c with prepareOkCounts := upd c.prepareOkCounts (journalSlot op) 1 })
        hst hlead (fun op' hop' => hops op' (by simp [hop'])) (fun _ _ _ _ => hallow op hgt hle h0)
      exact ⟨.head hact hacts, by rw [hframe]⟩
    · exact ackRepaired_acts _ hst hlead (fun op' hop' => hops op' (by simp [hop'])) hallow

end Core

namespace Replica

variable {s : Replica}

/-! ### Status messages -/

theorem onRequestStatus_reaches {src v : ℕ} (hinp : inp = .message src (.requestStatus v))
    (hact : s.pendingStartView.active = false) :
    Reaches (ViewAct hash inp allow) s.toCore (s.onRequestStatus src v) := by
  refine .guard fun _ => ?_
  split
  · exact .error rfl
  · next m hm =>
    exact .single (.send (.status hm (.inl hact)) (.inr (.inr ⟨_, hinp, rfl⟩)))

theorem onSendStatusLeader_reaches {src : ℕ} {m : SendStatusMsg}
    (hinp : inp = .message src (.sendStatus m)) (hv : m.viewNumber = s.viewNumber)
    (hst : s.status = .normal) (hlead : s.isLeader = true) :
    ReflTransGen (Act hash inp allow) s.toCore (s.onSendStatusLeader src m).toCore := by
  unfold onSendStatusLeader
  split
  · exact .refl
  next hagree =>
  have hnote : Act hash inp allow s.toCore (s.noteReplicaCommitMin src m.commitMin) :=
    .note (.reported hinp hv hst hlead (by simpa using hagree))
  dsimp only
  split
  · rw [maybeResumeRepair_toCore]
    exact .single hnote
  · split
    · exact .single hnote
    · exact .single hnote

theorem afterStatus_toCore (s : Replica) (m : SendStatusMsg) :
    (s.afterStatus m).toCore = s.toCore := by
  unfold afterStatus
  rw [transferIfGaps_toCore]
  split <;> rfl

theorem onSendStatusFollower_reaches {src : ℕ} {m : SendStatusMsg}
    (hinp : inp = .message src (.sendStatus m)) (hsrc : src = s.leader)
    (hv : m.viewNumber = s.viewNumber) (hst : s.status = .normal) (hfol : s.isLeader = false) :
    Reaches (Act hash inp allow) s.toCore (s.onSendStatusFollower env src m) := by
  have hnote : Act hash inp allow s.toCore (s.noteReplicaCommitMin src m.commitMin) :=
    .note (.led hsrc hst hfol (.inr (.inr ⟨m, hinp, hv, rfl⟩)))
  unfold onSendStatusFollower
  refine .ite (fun _ => ?_) (fun _ => ?_)
  · split
    · next e he =>
      refine .ite (fun _ => .single hnote) (fun hsum => .head hnote (Reaches.map (Reaches.commit
        (commitUpTo_reaches ?_ ?_)) (fun s => afterStatus_toCore s m)))
      · exact .inl hst
      · exact .reported hinp hsrc hv hst hfol he (not_not.mp hsum)
    · exact .head hnote (.ok (afterStatus_toCore _ m))
  · exact .head hnote (.ok (afterStatus_toCore _ m))

theorem onSendStatus_reaches {src : ℕ} {m : SendStatusMsg}
    (hinp : inp = .message src (.sendStatus m)) :
    Reaches (Act hash inp allow) s.toCore (s.onSendStatus env src m) := by
  refine .guard fun hst => .guard fun hv => .guard fun _ => ?_
  rw [not_not] at hst hv
  refine .ite (fun hlead => onSendStatusLeader_reaches hinp hv hst hlead)
    (fun hlead => .guard fun hsrc => ?_)
  exact onSendStatusFollower_reaches hinp (not_not.mp hsrc) hv hst (by simpa using hlead)

/-! ### Serving and receiving entries -/

theorem onRequestPrepare_reaches {src : ℕ} {m : RequestPrepareMsg}
    (hinp : inp = .message src (.requestPrepare m)) :
    ReflTransGen (ViewAct hash inp allow) s.toCore (s.onRequestPrepare src m).toCore := by
  refine acts_unless fun _ => acts_unless fun hserve => ?_
  split
  · exact .refl
  next e he =>
  refine acts_unless fun hscope => acts_unless fun hexpect => ?_
  refine .single (.send (.serve hinp he ?_) (.inr (.inr ⟨_, hinp, rfl⟩)))
  by_cases h0 : m.selectedTipChecksum = 0
  · refine .inr ⟨h0, by simpa [h0] using hserve, ?_⟩
    by_contra hno
    rw [not_or] at hno
    exact hscope (by simp [h0, hno.1]; omega)
  · exact .inl ⟨h0, by simpa [h0] using hserve, by simpa [h0] using hexpect⟩

theorem onSelectedPrepare_reaches {src : ℕ} {m : SendPrepareMsg} (h : s.MayAbort hash allow)
    (hinp : inp = .message src (.sendPrepare m)) :
    Reaches (ViewAct hash inp allow) s.toCore (s.onSelectedPrepare hash env src m) := by
  refine .guard fun hans => .ite (fun _ => advanceSelectedView_reaches abortSelectedView_reaches h)
    (fun _ => ?_)
  refine .guard fun hsel => .guard fun _ => ?_
  split
  · exact abortSelectedView_reaches s h
  · next cand hadd =>
    have hact : ViewAct hash inp allow s.toCore { s.toCore with viewChangeCandidate := cand } :=
      .collect h.idle hadd (.fetched hinp rfl)
    exact .head hact (advanceSelectedView_reaches
      (s := forgetSources { s with viewChangeCandidate := cand }) abortSelectedView_reaches
      { h with sane := hact.sane h.sane })

/-- An entry its sender has committed is taken over although the log does not lead to it,
or in place of another one. -/
def Unlinks (s : Replica) (src : ℕ) (m : SendPrepareMsg) : Prop :=
  s.status = .normal ∧ m.viewNumber = s.viewNumber ∧
    m.entry.opNumber ≤ s.replicaCommitMin src ∧
    ((s.isLeader = false ∧ s.transferPending = true ∧ m.entry.opNumber = s.opNumber + 1 ∧
        s.linkHolds m.entry = false) ∨
      (s.isLeader = true ∧ s.repairPending = true ∧ m.entry.opNumber = s.commitMin + 1 ∧
        s.parentMatches m.entry = true ∧ s.slotReplaceable m.entry false = true))

theorem onRepairPrepare_reaches {src : ℕ} {m : SendPrepareMsg}
    (hinp : inp = .message src (.sendPrepare m)) (hsrc : src < s.replicaCount)
    (hv : m.viewNumber = s.viewNumber) (hval : m.entry.valid hash = true)
    (hpos : 0 < m.entry.opNumber) (hcap : m.entry.opNumber ≤ logSizeMax)
    (hst : s.status = .normal) (hlead : s.isLeader = true)
    (hlink : s.Unlinks src m → allow .unlinked) :
    Reaches (Act hash inp allow) s.toCore
      (s.onRepairPrepare src m.entry (m.entry.opNumber ≤ s.replicaCommitMin src)) := by
  refine .guard fun hrepair => .ite (fun hle => ?_) (fun _ => ?_)
  · rw [decide_eq_true_eq] at hle
    refine .guard fun hnext => .guard fun hpar => ?_
    rw [not_not] at hnext
    have hadopt : Act hash inp allow s.toCore (s.adoptCommitted m.entry) := by
      rw [adoptCommitted_frame]
      refine .adopt hinp hv hval hst hlead hnext hcap hle (by simpa using hpar) fun hrep => ?_
      exact hlink
        ⟨hst, hv, hle, .inr ⟨hlead, by simpa using hrepair, hnext, by simpa using hpar, hrep⟩⟩
    refine .head hadopt (commitUpTo_reaches (s := s.core (fun c => c.adoptCommitted m.entry))
      ?_ ?_).commit
    all_goals rw [core_toCore, adoptCommitted_frame]
    · exact .inl hst
    · exact .peer hinp hv hst hlead hnext hle
  · refine .guard fun hhas => .guard fun _ => .guard fun hle => ?_
    have hfill : Act hash inp allow s.toCore (s.fillHole src m.entry) :=
      .fillHole hinp hsrc hval hst hlead (by simpa using hhas) hpos (by omega)
    dsimp only
    split
    · exact .single hfill
    · exact .single hfill

theorem afterTransfer_reaches (hst : s.status = .normal) :
    Reaches (Act hash inp allow) s.toCore s.afterTransfer := by
  unfold afterTransfer
  have hrest : ∀ s' : Replica, Reaches (Act hash inp allow) s'.toCore
      (if s'.opNumber ≥ s'.transferTargetOp && !s'.hasLogGaps then
        .ok { s' with transferPending := false } else .ok s') :=
    fun s' => .ite (fun _ => .ok rfl) (fun _ => .ok rfl)
  refine .ite (fun _ => ?_) (fun _ => hrest s)
  exact Reaches.bind (Reaches.commit (commitUpTo_reaches (.inl hst) (.known le_rfl)))
    (fun s' _ _ => hrest s')

theorem onTransferPrepare_reaches {src : ℕ} {m : SendPrepareMsg}
    (hinp : inp = .message src (.sendPrepare m)) (hv : m.viewNumber = s.viewNumber)
    (hval : m.entry.valid hash = true) (hpos : 0 < m.entry.opNumber)
    (hcap : m.entry.opNumber ≤ logSizeMax) (hst : s.status = .normal) (hfol : s.isLeader = false)
    (hfit : m.entry.opNumber ≤ s.replicaCommitMin src ∨ s.entryFitsLog m.entry = true)
    (hlink : s.Unlinks src m → allow .unlinked) :
    Reaches (Act hash inp allow) s.toCore (s.onTransferPrepare m.entry) := by
  have haccept : MayAccept hash inp s.toCore m.entry s.leader := .transferred hinp hv hval hfit
  refine .guard fun hpending => .ite (fun hle => .guard fun hhas => ?_)
    (fun _ => .ite (fun hnext => ?_) (fun _ => .ok rfl))
  · have hfill := @Act.fillGap _ _ allow _ _ _ hst hfol hpos hle (by simpa using hhas) haccept
    rw [fillGap_eq] at hfill
    dsimp only
    by_cases hgt : m.entry.opNumber > s.commitMin
    · rw [if_pos hgt] at hfill
      rw [if_pos]
      · exact .head hfill (afterTransfer_reaches hst)
      · exact hgt
    · rw [if_neg hgt] at hfill
      rw [if_neg]
      · exact .head hfill (afterTransfer_reaches hst)
      · exact hgt
  · have hallow : s.linkHolds m.entry = false → allow .unlinked := by
      intro hno
      rcases hfit with hle | hfit
      · exact hlink ⟨hst, hv, hle, .inl ⟨hfol, by simpa using hpending, hnext, hno⟩⟩
      · exact absurd ((linkHolds_of_fits hfit).symm.trans hno) (by decide)
    have hacc : Act hash inp allow s.toCore (s.acceptEntry m.entry s.leader) :=
      @Act.accept _ _ _ _ _ _ false hst hfol hnext hcap haccept hallow
    exact .head hacc (afterTransfer_reaches hst)

theorem onSendPrepare_reaches {src : ℕ} {m : SendPrepareMsg} (hs : Sane hash s.toCore)
    (hinp : inp = .message src (.sendPrepare m)) (hsrc : src < s.replicaCount)
    (hact : s.pendingStartView.active = false)
    (hleave : s.status = .viewChange → s.MayLeave allow)
    (hlink : s.Unlinks src m → allow .unlinked) :
    Reaches (Act hash inp allow) s.toCore (s.onSendPrepare hash env src m) := by
  refine .guard fun hv => .guard fun hval => .guard fun hbounds => .ite (fun _ => ?_)
    (fun _ => .guard fun hst => ?_)
  · exact (onSelectedPrepare_reaches ⟨hs, hact, hleave⟩ hinp).view
  · rw [not_not] at hv hst
    have hval' : m.entry.valid hash = true := by simpa using hval
    refine .guard fun hfit => .ite (fun hlead => ?_) (fun hlead => ?_)
    · exact onRepairPrepare_reaches hinp hsrc hv hval' (by omega) (by omega) hst hlead hlink
    · refine onTransferPrepare_reaches hinp hv hval' (by omega) (by omega) hst
        (by simpa using hlead) ?_ hlink
      by_contra hno
      rw [not_or] at hno
      exact hfit (by simp [hno.1, hno.2])

/-! ### Repair ticks -/

theorem finishRepair_reaches (hst : s.status = .normal) (hlead : s.isLeader = true)
    (hallow : ∀ op, s.commitMin < op → op ≤ s.opNumber → s.prepareOkCounts (journalSlot op) = 0 →
      allow .phantom) :
    Reaches (CalmAct hash inp allow) s.toCore s.finishRepair := by
  obtain ⟨hacts, hframe⟩ := ackRepaired_acts hash inp allow (opsAbove s.commitMin s.opNumber)
    (c := s.toCore) hst hlead
    (fun op hop => mem_opsAbove.mp hop) hallow
  refine .trans hacts (Reaches.mono CalmAct.commit (advanceCommit_reaches
    (s := ({ s with repairPending := false } : Replica).core
      (fun c => ackRepaired (opsAbove c.commitMin c.opNumber) c)) ?_ ?_))
  all_goals rw [core_toCore, hframe]
  · exact hst
  · exact hlead

theorem tickRepair_reaches
    (hallow : ∀ op, s.commitMin < op → op ≤ s.opNumber → s.prepareOkCounts (journalSlot op) = 0 →
      s.repairStatusQuorum ≤ s.repairStatusCount → allow .phantom) :
    Reaches (CalmAct hash inp allow) s.toCore s.tickRepair := by
  refine .guardError fun hguard => ?_
  simp only [Bool.or_eq_true, Bool.not_eq_true', bne_iff_ne, ne_eq, not_or, Bool.not_eq_false,
    not_not] at hguard
  obtain ⟨hsend, hframe⟩ := sendToAllOthers_acts hash inp allow (c := s.toCore)
    (m := .requestStatus s.viewNumber) (fun _ _ => .ask rfl)
  refine .trans (ReflTransGen.mono (fun _ _ => CalmAct.view) _ _ hsend) ?_
  let s₁ : Replica := s.core (fun c => c.sendToAllOthers (.requestStatus c.viewNumber))
  have h₁ : s₁.toCore = { s.toCore with history := s₁.history } := hframe
  have hq : s₁.repairStatusQuorum = s.repairStatusQuorum := by
    unfold repairStatusQuorum
    rw [h₁]
  refine .guardError fun _ => .guard fun hcount => .ite (fun _ => ?_) (fun _ => ?_)
  · exact ReflTransGen.mono (fun _ _ => CalmAct.view) _ _
      (sendToAllOthers_acts _ _ _ (fun _ _ => .ask rfl)).1
  · obtain ⟨hreq, hframe₂⟩ := requestMissing_acts hash inp allow (opsAbove s₁.commitMin s₁.opNumber)
      repairBatchMax (c := s₁.toCore)
    refine .trans (ReflTransGen.mono (fun _ _ => CalmAct.view) _ _ hreq) ?_
    let s₂ : Replica := { s₁ with
      toCore := (requestMissing (opsAbove s₁.commitMin s₁.opNumber) repairBatchMax s₁.toCore).2 }
    have h₂ : s₂.toCore = { s.toCore with history := s₂.history } := by
      rw [show s₂.toCore = _ from hframe₂, h₁]
    refine .guard fun _ => .guard fun _ => finishRepair_reaches ?_ ?_ ?_
    all_goals rw [h₂]
    · exact hguard.2
    · exact hguard.1
    · exact fun op hgt hle h0 => hallow op hgt hle h0 (hq ▸ not_lt.mp hcount)

theorem tickTransfer_reaches : Reaches (CalmAct hash inp allow) s.toCore s.tickTransfer := by
  refine .guardError fun _ => ?_
  obtain ⟨hreq, -⟩ := requestMissing_acts hash inp allow (opsAbove s.commitMin s.opNumber)
    repairBatchMax (c := s.toCore)
  refine .trans (ReflTransGen.mono (fun _ _ => CalmAct.view) _ _ hreq) ?_
  refine .guard fun _ => .ite (fun _ => ?_) (fun _ => .ok rfl)
  exact ReflTransGen.mono (fun _ _ => CalmAct.view) _ _
    (sendToAllOthers_acts _ _ _ (fun _ _ => .ask rfl)).1

end Replica

end Hivemind
