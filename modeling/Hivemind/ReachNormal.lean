import Hivemind.ReachView

/-! Normal operation and log repair as sequences of transitions. -/
namespace Hivemind

open Relation Core

variable {hash : Hash} {env : Env} {inp : Input} {allow : Hazard → Prop}

theorem Reaches.view {c : Core} {o : Outcome} (h : Reaches (ViewAct hash inp allow) c o) :
    Reaches (Act hash inp allow) c o := h.mono .view

theorem Reaches.commit {c : Core} {o : Outcome} (h : Reaches (CommitAct inp) c o) :
    Reaches (Act hash inp allow) c o := h.mono .commit

theorem Act.send {c : Core} {dst : ℕ} {m : Message} (h : MaySend hash inp c dst m)
    (hdst : c.MayAddress inp dst m) : Act hash inp allow c (c.sendTo dst m) :=
  .view (.send h hdst)

/-- A transition that leaves the disk and a pending publication alone. -/
def CalmAct (hash : Hash) (inp : Input) (allow : Hazard → Prop) (c c' : Core) : Prop :=
  Act hash inp allow c c' ∧
    (c'.deferredViewTarget = c.deferredViewTarget ∧ c'.disk = c.disk) ∧
    (c.pendingStartView.active = true → c'.pendingStartView = c.pendingStartView)

namespace CalmAct

variable {c c' : Core}

theorem view (h : ViewAct hash inp allow c c') : CalmAct hash inp allow c c' := by
  refine ⟨.view h, ?_⟩
  cases h with
  | place _ h =>
    rw [h.frame]
    exact ⟨⟨rfl, rfl⟩, fun _ => rfl⟩
  | openView hsel h =>
    refine ⟨?_, fun hact => absurd (hact.symm.trans hsel.idle) (by decide)⟩
    rw [h.frame]
    unfold Core.openView
    split <;> exact ⟨rfl, rfl⟩
  | _ => exact ⟨⟨rfl, rfl⟩, fun _ => rfl⟩

theorem commit (h : CommitAct inp c c') : CalmAct hash inp allow c c' := by
  refine ⟨.commit h, ?_⟩
  rw [h.frame]
  exact ⟨⟨rfl, rfl⟩, fun _ => rfl⟩

end CalmAct

theorem calmActs_acts {c c' : Core} (h : ReflTransGen (CalmAct hash inp allow) c c') :
    ReflTransGen (Act hash inp allow) c c' :=
  ReflTransGen.mono (fun _ _ h => h.1) _ _ h

theorem calmActs_pending {c c' : Core} (h : ReflTransGen (CalmAct hash inp allow) c c') :
    (c'.deferredViewTarget = c.deferredViewTarget ∧ c'.disk = c.disk) ∧
      (c.pendingStartView.active = true → c'.pendingStartView = c.pendingStartView) := by
  induction h with
  | refl => exact ⟨⟨rfl, rfl⟩, fun _ => rfl⟩
  | tail _ h ih =>
    refine ⟨⟨h.2.1.1.trans ih.1.1, h.2.1.2.trans ih.1.2⟩, fun hact => ?_⟩
    have := ih.2 hact
    exact (h.2.2 (this ▸ hact)).trans this

namespace Replica

variable {s : Replica}

/-! ### Requests -/

theorem onRequest_reaches {m : RequestMsg} (hsub : MaySubmit inp m)
    (horder : s.Listens → s.Admits m → s.Behind m → allow .disorder)
    (hlate : s.Listens → s.hasPendingClientReply m.clientId m.requestId = false →
      s.Overtaken m → allow .overtaken) :
    ReflTransGen (CalmAct hash inp allow) s.toCore (s.onRequest hash m).toCore := by
  unfold onRequest
  split
  · exact .refl
  next hst =>
  split
  · exact .refl
  next hlead =>
  split
  · exact .refl
  next hrepair =>
  split
  · exact .refl
  next hup =>
  split
  · exact .refl
  next hunpub =>
  have hlistens : s.Listens := ⟨by simpa using hst, by simpa using hlead,
    by simpa using hrepair, by simpa using hup⟩
  rw [Bool.not_eq_true] at hup hunpub
  split
  · next e he =>
    obtain ⟨hfind, hle⟩ := Option.filter_eq_some_iff.mp he
    exact .single ⟨.reply hup (.replay hfind (by simpa using hle)) (hlate hlistens hunpub),
      ⟨rfl, rfl⟩, fun _ => rfl⟩
  next hnone =>
  -- nothing in the table answers the request
  have hnew : ¬ s.Overtaken { clientId := m.clientId, requestId := m.requestId } := by
    rintro ⟨e, he, hlt⟩
    have := Option.filter_eq_none_iff.mp hnone e he
    exact this (by simpa using hlt.le)
  split
  · exact .refl
  next hunlogged =>
  split
  · exact .single ⟨.reply hup .logFull (fun h => absurd h hnew), ⟨rfl, rfl⟩, fun _ => rfl⟩
  next hcap =>
  have hadmits : s.Admits m := ⟨hunpub, hnone, by simpa using hunlogged⟩
  exact .single ⟨.append hlistens.1 hlistens.2.1 (by omega) hsub hadmits (horder hlistens hadmits),
    ⟨rfl, rfl⟩, fun _ => rfl⟩

/-- What submitting the requests `ms` may have changed of what decides on the next one. -/
structure Submitted (ms : List RequestMsg) (s s' : Replica) : Prop where
  listens : s'.Listens → s.Listens
  pendingReply : s'.pendingReply = s.pendingReply
  pendingReplyClientId : s'.pendingReplyClientId = s.pendingReplyClientId
  pendingReplyRequestId : s'.pendingReplyRequestId = s.pendingReplyRequestId
  clientTable : s'.clientTable = s.clientTable
  commitMin : s'.commitMin = s.commitMin
  logged : ∀ clientId requestId, s.hasPendingRequest clientId requestId = true →
    s'.hasPendingRequest clientId requestId = true
  journal : ∀ i, ∀ e ∈ s'.journal i, e ∈ s.journal i ∨
    ∃ m ∈ ms, e.clientId = m.clientId ∧ e.requestId = m.requestId

namespace Submitted

variable {ms ms' : List RequestMsg} {s' : Replica} {m : RequestMsg}

theorem refl (s : Replica) : Submitted [] s s :=
  ⟨id, rfl, rfl, rfl, rfl, rfl, fun _ _ => id, fun _ _ => .inl⟩

theorem trans {s₁ s₂ : Replica} (h : Submitted ms s s₁) (h' : Submitted ms' s₁ s₂) :
    Submitted (ms ++ ms') s s₂ where
  listens := h.listens ∘ h'.listens
  pendingReply := h'.pendingReply.trans h.pendingReply
  pendingReplyClientId := h'.pendingReplyClientId.trans h.pendingReplyClientId
  pendingReplyRequestId := h'.pendingReplyRequestId.trans h.pendingReplyRequestId
  clientTable := h'.clientTable.trans h.clientTable
  commitMin := h'.commitMin.trans h.commitMin
  logged := fun clientId requestId => h'.logged clientId requestId ∘ h.logged clientId requestId
  journal := by
    intro i e he
    rcases h'.journal i e he with he | ⟨m, hm, hids⟩
    · rcases h.journal i e he with he | ⟨m, hm, hids⟩
      · exact .inl he
      · exact .inr ⟨m, by simp [hm], hids⟩
    · exact .inr ⟨m, by simp [hm], hids⟩

theorem hasPendingClientReply (h : Submitted ms s s') (clientId requestId : ℕ) :
    s'.hasPendingClientReply clientId requestId = s.hasPendingClientReply clientId requestId := by
  simp only [Core.hasPendingClientReply, h.pendingReply, h.pendingReplyClientId,
    h.pendingReplyRequestId]

theorem findClient (h : Submitted ms s s') (clientId : ℕ) :
    s'.findClient clientId = s.findClient clientId := by
  simp only [Core.findClient, h.clientTable]

theorem admits (h : Submitted ms s s') (ha : s'.Admits m) : s.Admits m := by
  refine ⟨?_, ?_, ?_⟩
  · rw [← h.hasPendingClientReply]
    exact ha.unpublished
  · rw [← h.findClient]
    exact ha.unanswered
  · by_contra hno
    exact absurd (h.logged _ _ (by simpa using hno)) (by simp [ha.unlogged])

theorem behind (h : Submitted ms s s') (hb : s'.Behind m) :
    s.Behind m ∨ ∃ m' ∈ ms, m'.clientId = m.clientId ∧ m.requestId ≤ m'.requestId := by
  obtain ⟨i, hi, ⟨hflag, hclient, hlt⟩ | ⟨e, he, hop, hclient, hlt⟩⟩ := hb
  · rw [h.pendingReply] at hflag
    rw [h.pendingReplyClientId] at hclient
    rw [h.pendingReplyRequestId] at hlt
    exact .inl ⟨i, hi, .inl ⟨hflag, hclient, hlt⟩⟩
  · rw [h.commitMin] at hop
    rcases h.journal i e he with he | ⟨m', hm', hc, hr⟩
    · exact .inl ⟨i, hi, .inr ⟨e, he, hop, hclient, hlt⟩⟩
    · exact .inr ⟨m', hm', hc ▸ hclient, hr ▸ hlt⟩

end Submitted

theorem hasPendingRequest_append {clientId requestId : ℕ} {m : RequestMsg}
    (hcap : s.opNumber + 1 ≤ logSizeMax) (h : s.hasPendingRequest clientId requestId = true) :
    (s.appendRequest hash m).hasPendingRequest clientId requestId = true := by
  unfold hasPendingRequest at h ⊢
  rw [List.any_eq_true] at h ⊢
  obtain ⟨op, hop, hids⟩ := h
  obtain ⟨hgt, hle⟩ := mem_opsAbove.mp hop
  refine ⟨op, mem_opsAbove.mpr ⟨hgt, Nat.le_succ_of_le hle⟩, ?_⟩
  have hget : (s.appendRequest hash m).journalGet op = s.journalGet op := by
    have hslot : journalSlot op ≠ journalSlot (s.opNumber + 1) := by
      intro heq
      have := journalSlot_inj (by omega) (by omega) (by omega) hcap heq
      omega
    have hj : (s.appendRequest hash m).journal (journalSlot op) = s.journal (journalSlot op) := by
      refine (journal_put _).trans (if_neg ?_)
      exact fun hh => hslot hh.2
    unfold journalGet
    rw [hj]
  rw [hget]
  exact hids

theorem onRequest_submitted (s : Replica) (m : RequestMsg) :
    Submitted [m] s (s.onRequest hash m) := by
  have hsame : Submitted [m] s s := ⟨id, rfl, rfl, rfl, rfl, rfl, fun _ _ => id, fun _ _ => .inl⟩
  unfold onRequest
  split
  · exact hsame
  split
  · exact hsame
  split
  · exact hsame
  split
  · exact hsame
  split
  · exact hsame
  split
  · exact { hsame with }
  split
  · exact hsame
  split
  · exact { hsame with }
  next hcap =>
  refine { hsame with logged := fun _ _ => hasPendingRequest_append (by omega), journal := ?_ }
  intro i e he
  have hput := (journal_put i).symm.trans he
  split at hput
  · cases hput
    exact .inr ⟨m, by simp, rfl, rfl⟩
  · exact .inl hput

theorem submitAll_reaches {start : Replica} {all : List RequestMsg}
    (hsub : ∀ m ∈ all, MaySubmit inp m)
    (horder : start.Listens → start.Disorderly all → allow .disorder)
    (hlate : start.Listens → (∃ m ∈ all, start.hasPendingClientReply m.clientId m.requestId = false ∧
      start.Overtaken m) → allow .overtaken) :
    ∀ (ms done : List RequestMsg) {s : Replica}, all = done ++ ms → Submitted done start s →
      ReflTransGen (CalmAct hash inp allow) s.toCore (submitAll hash ms s).toCore
  | [], _, _, _, _ => .refl
  | m :: rest, done, s, hall, hs => by
    have hmem : m ∈ all := by simp [hall]
    have hfirst : ReflTransGen (CalmAct hash inp allow) s.toCore (s.onRequest hash m).toCore := by
      refine onRequest_reaches (hsub m hmem) (fun hl ha hb => ?_) (fun hl hp ho => ?_)
      · refine horder (hs.listens hl) ⟨done.length, by simp [hall], m, by simp [hall], hs.admits ha, ?_⟩
        rcases hs.behind hb with hb | hb
        · exact .inl hb
        · exact .inr (by simpa [hall] using hb)
      · refine hlate (hs.listens hl) ⟨m, hmem, (hs.hasPendingClientReply _ _).symm.trans hp, ?_⟩
        unfold Core.Overtaken at ho
        rw [hs.findClient] at ho
        exact ho
    refine hfirst.trans (submitAll_reaches hsub horder hlate rest (done ++ [m]) (by simp [hall]) ?_)
    exact hs.trans (onRequest_submitted s m)

theorem maybeResumeRepair_toCore (s : Replica) : s.maybeResumeRepair.toCore = s.toCore := by
  unfold maybeResumeRepair
  split_ifs <;> rfl

theorem transferIfGaps_toCore (s : Replica) (target : ℕ) :
    (s.transferIfGaps target).toCore = s.toCore := by
  unfold transferIfGaps
  split <;> rfl

/-! ### Prepare -/

/-- A prepare of the current view that got this far conflicts with nothing. -/
theorem dropConflict_eq {m : PrepareMsg} (hv : m.viewNumber = s.viewNumber)
    (h : s.conflictsInView m = false) : s.dropConflict m = s := by
  unfold dropConflict
  split
  · split
    · rfl
    · next existing he =>
      split
      · rfl
      · next hne =>
        simp [conflictsInView, holdsOther, hv, he, hne] at h
  · rfl

structure PrepareOkay (hash : Hash) (s : Replica) (src : ℕ) (m : PrepareMsg) : Prop where
  src : src = s.leader
  view : m.viewNumber = s.viewNumber
  status : s.status = .normal
  follower : s.isLeader = false
  entry : m.entry.opNumber = m.opNumber
  valid : m.entry.valid hash = true
  link : s.linkHolds m.entry = true

theorem linkHolds_of_fits {e : LogEntry} (h : s.entryFitsLog e = true) : s.linkHolds e = true := by
  simp only [entryFitsLog, Bool.and_eq_true] at h
  exact h.1.2

theorem placePrepare_reaches {src : ℕ} {m : PrepareMsg} (hinp : inp = .message src (.prepare m))
    (h : s.PrepareOkay hash src m) :
    Reaches (Act hash inp allow) s.toCore (s.placePrepare src m) := by
  have haccept : MayAccept hash inp s.toCore m.entry src :=
    .prepared hinp h.src h.view h.entry.symm h.valid
  unfold placePrepare
  split
  · next hnext =>
    split
    · exact .ok rfl
    · next hcap =>
      have hact : Act hash inp allow s.toCore
          { s.acceptEntry m.entry src with metadataDirty := true } :=
        @Act.accept _ _ _ _ _ _ true h.status h.follower (h.entry.trans hnext)
          (by rw [h.entry]; omega) haccept
          (fun hno => absurd (h.link.symm.trans hno) (by decide))
      dsimp only
      split
      · exact .single hact
      · exact .single hact
  · split
    · next hin =>
      split
      · exact .ok rfl
      · next existing he =>
        obtain ⟨hget, hsum⟩ := Option.filter_eq_some_iff.mp he
        split
        · next hdur =>
          split
          · exact .error rfl
          · next ok hok =>
            exact .single (.send (.reack hinp h.src h.status h.follower hin.1 hget hdur hok)
              (.inr (.inr ⟨_, hinp, rfl⟩)))
        · exact .single (.owe hinp h.src h.status h.follower (journalHas_iff.mpr ⟨_, hget⟩) hin.1)
    · split
      · split
        · exact .ok rfl
        · exact .ok rfl
      · exact .ok rfl

theorem prepareSemanticsValid_spec {m : PrepareMsg} (h : prepareSemanticsValid hash m = true) :
    m.entry.opNumber = m.opNumber ∧ m.entry.valid hash = true := by
  simp only [prepareSemanticsValid, Bool.and_eq_true, beq_iff_eq] at h
  exact ⟨h.1.2, h.2⟩

theorem awaitThenRequest_reaches {v : ℕ} (hleave : s.MayLeave allow)
    (hdst : ∃ m, inp = .message (s.leaderForView v) m ∧ m.elects = false) :
    Reaches (ViewAct hash inp allow) s.toCore
      ((s.awaitStartView env v).bind (fun s => s.requestStartView v)) := by
  refine (awaitStartView_reaches hleave).bind (fun s₁ hs₁ _ => requestStartView_reaches ?_)
  unfold awaitStartView at hs₁
  split at hs₁
  · cases hs₁
  · cases hs₁
    exact hdst

theorem normal_of_ne {st : Status} (hrec : ¬ st = .recovering) (hview : ¬ st = .viewChange) :
    st = .normal := by
  cases st with
  | normal => rfl
  | viewChange => exact absurd rfl hview
  | recovering => exact absurd rfl hrec

theorem onPrepare_reaches {src : ℕ} {m : PrepareMsg} (hinp : inp = .message src (.prepare m))
    (hleave : s.viewNumber < m.viewNumber → s.MayLeave allow) :
    Reaches (Act hash inp allow) s.toCore (s.onPrepare hash env src m) := by
  refine .guard fun hrec => ?_
  refine .guard fun hsrc => ?_
  have hdst : ∃ m', inp = .message (s.leaderForView m.viewNumber) m' ∧ m'.elects = false :=
    ⟨_, by rw [← not_not.mp hsrc]; exact hinp, rfl⟩
  refine .guard fun hval => ?_
  refine .guard fun hconf => ?_
  split
  · next hgt => exact (awaitThenRequest_reaches (hleave hgt) hdst).view
  refine .guard fun hv => ?_
  split
  · exact (requestStartView_reaches hdst).view
  next hst =>
  refine .guard fun hlead => ?_
  rw [not_not] at hsrc hv
  rw [Bool.not_eq_true] at hlead hconf
  obtain ⟨hentry, hvalid⟩ := prepareSemanticsValid_spec (by simpa using hval)
  have hnormal := normal_of_ne hrec hst
  have hleader : src = s.leader := by rw [hsrc, hv]; rfl
  have hnote : Act hash inp allow s.toCore (s.noteReplicaCommitMin src m.commitMin) :=
    .note (.led hleader hnormal hlead (.inl ⟨m, hinp, hv, rfl⟩))
  dsimp only
  rw [dropConflict_eq (s := ({ s with lastLeaderActivity := env.now } : Replica).core
    (fun c => c.noteReplicaCommitMin src m.commitMin)) hv hconf]
  split
  · exact .single hnote
  · next hfits =>
    refine .head hnote ?_
    refine Reaches.bind (placePrepare_reaches
      (s := ({ s with lastLeaderActivity := env.now } : Replica).core _) hinp
      ⟨hleader, hv, hnormal, hlead, hentry, hvalid, linkHolds_of_fits (by simpa using hfits)⟩)
      (fun s' _ _ => ?_)
    exact .ok (transferIfGaps_toCore _ _)

/-! ### PrepareOk and Commit -/

theorem onPrepareOk_reaches {src : ℕ} {m : PrepareOkMsg}
    (hinp : inp = .message src (.prepareOk m)) (hsrc : src < s.replicaCount) :
    Reaches (Act hash inp allow) s.toCore (s.onPrepareOk src m) := by
  refine .guard fun hst => ?_
  refine .guard fun hlead => ?_
  refine .guard fun hv => ?_
  refine .guard fun hid => ?_
  refine .guard fun _ => ?_
  split
  · exact .ok rfl
  next e he =>
  refine .guard fun hsum => ?_
  refine .guard fun _ => ?_
  refine .guard fun hwm => ?_
  rw [not_not] at hst hv hid hsum
  have hlead' : s.isLeader = true := by simpa using hlead
  have hnote : Act hash inp allow s.toCore (s.noteReplicaCommitMin src m.commitMin) :=
    .note (.acknowledged hinp hv hst hlead' (by simpa using hwm))
  refine .head hnote ?_
  dsimp only
  split
  · next hin =>
    refine .head (.vote hinp hid hsrc hst hlead' hv he hsum hin.1 hin.2) ?_
    refine (Reaches.commit (advanceCommit_reaches ?_ ?_)).map maybeResumeRepair_toCore
    · exact hst
    · exact hlead'
  · refine (Reaches.commit (advanceCommit_reaches ?_ ?_)).map maybeResumeRepair_toCore
    · exact hst
    · exact hlead'

theorem followCommit_reaches {src : ℕ} {m : CommitMsg} (hinp : inp = .message src (.commit m))
    (hsrc : src = s.leader) (hv : m.viewNumber = s.viewNumber) (hst : s.status = .normal)
    (hfol : s.isLeader = false)
    (hagree : ∀ e, max m.commitMin m.commitMax > s.commitMin →
      s.journalGet (max m.commitMin m.commitMax) = some e → e.checksum = m.commitChecksum) :
    Reaches (Act hash inp allow) s.toCore (s.followCommit m (max m.commitMin m.commitMax)) := by
  unfold followCommit
  split
  · next hgt =>
    split
    · next hhas =>
      obtain ⟨e, he⟩ := journalHas_iff.mp hhas
      split
      · exact .error rfl
      · exact (commitUpTo_reaches (.inl hst)
          (.announced hinp hsrc hv hst hfol he (hagree e hgt he))).commit
    · exact .ok rfl
  · exact .ok rfl

theorem onCommit_reaches {src : ℕ} {m : CommitMsg} (hinp : inp = .message src (.commit m))
    (hleave : s.viewNumber < m.viewNumber → s.MayLeave allow) :
    Reaches (Act hash inp allow) s.toCore (s.onCommit env src m) := by
  refine .guard fun hrec => ?_
  refine .guard fun hsrc => ?_
  have hdst : ∃ m', inp = .message (s.leaderForView m.viewNumber) m' ∧ m'.elects = false :=
    ⟨_, by rw [← not_not.mp hsrc]; exact hinp, rfl⟩
  refine .guard fun _ => ?_
  refine .guard fun _ => ?_
  split
  · next hgt => exact (awaitThenRequest_reaches (hleave hgt) hdst).view
  refine .guard fun hv => ?_
  refine .guard fun hagree => ?_
  split
  · exact (requestStartView_reaches hdst).view
  next hst =>
  refine .guard fun hlead => ?_
  rw [not_not] at hsrc hv
  rw [Bool.not_eq_true] at hlead
  have hnormal := normal_of_ne hrec hst
  have hleader : src = s.leader := by rw [hsrc, hv]; rfl
  have hnote : Act hash inp allow s.toCore (s.noteReplicaCommitMin src m.commitMin) :=
    .note (.led hleader hnormal hlead (.inr (.inl ⟨m, hinp, hv, rfl⟩)))
  refine .head hnote (Reaches.bind (followCommit_reaches
    (s := ({ s with lastLeaderActivity := env.now } : Replica).core _) hinp hleader hv hnormal hlead
    (fun e hgt he => ?_)) (fun s' _ _ => ?_))
  · have hgt' : max m.commitMin m.commitMax > s.commitMin := hgt
    have he' : s.journalGet (max m.commitMin m.commitMax) = some e := he
    by_contra hne
    exact hagree (by simp [holdsOther, hgt', he', hne])
  · split
    · exact .ok (transferIfGaps_toCore _ _)
    · exact .ok (transferIfGaps_toCore _ _)

end Replica

end Hivemind
