import Hivemind.Peers
import Hivemind.Recovery

/-! Who may vote in a replica's own name. What arrives on a socket is recorded under the id the
socket is bound to, and a vote that a replica records under its own id covers an entry that its own
barrier has written. -/
namespace Hivemind

open Relation Core

variable {hash : Hash} {inp : Input} {allow : Hazard → Prop} {c c' : Core} {e : LogEntry}

/-! ### Votes in the own name -/

namespace Core

/-- The slot holds an entry whose identity a barrier has covered. -/
def DurableAt (c : Core) (i : ℕ) : Prop :=
  ∃ e, c.journal i = some e ∧ c.durablePrepareOp i = e.opNumber ∧
    c.durablePrepareChecksum i = e.checksum

/-- `prepare_ok_from` has the replica's own bit at the slot. -/
def ownVote (c : Core) (i : ℕ) : Bool := (c.prepareOkFrom i).getLsbD c.replicaId

end Core

/-- A vote in the own name covers a durable entry, and a recorded `DoViewChange` stands under its
author. -/
structure OwnVotes (c : Core) : Prop where
  durable : ∀ i, c.ownVote i = true → c.DurableAt i
  reports : ∀ i, c.doVcReceived i = true → (c.doVcMsgs i).replicaId = i

theorem replicaBit_other {src me : ℕ} (h : src ≠ me) : (replicaBit src).getLsbD me = false := by
  have hdiff : src ≤ me → me - src ≠ 0 := by omega
  simp only [replicaBit, BitVec.getLsbD_shiftLeft, BitVec.getLsbD_one]
  simp only [Bool.and_eq_false_iff, Bool.not_eq_false', decide_eq_false_iff_not, decide_eq_true_eq]
  by_cases hle : src ≤ me
  · exact .inr (.inr (hdiff hle))
  · exact .inl (.inr (by omega))

theorem Core.countVote_own {op src : ℕ} (h : src ≠ c.replicaId) :
    (c.countVote op src).ownVote = c.ownVote := by
  funext i
  unfold countVote ownVote
  dsimp only
  split
  · by_cases hi : i = journalSlot op
    · rw [hi, upd_self, BitVec.getLsbD_or, replicaBit_other h, Bool.or_false]
    · rw [upd_of_ne _ _ hi]
  · rfl

namespace OwnVotes

theorem of_none (hfrom : ∀ i, c.prepareOkFrom i = 0) (hdvc : ∀ i, c.doVcReceived i = false) :
    OwnVotes c where
  durable i h := by
    rw [ownVote, hfrom] at h
    simp at h
  reports i h := by
    rw [hdvc] at h
    cases h

theorem put (hv : OwnVotes c) (b : Bool) : OwnVotes (c.journalPutInternal e b) where
  durable i h := by
    unfold journalPutInternal at h ⊢
    unfold ownVote at h
    unfold DurableAt
    by_cases haccepts : c.putAccepts e b = true
    swap
    · simp only [haccepts, Bool.false_and, Bool.false_eq_true, if_false] at h ⊢
      exact hv.durable i h
    · simp only [haccepts, Bool.true_and, if_true] at h ⊢
      by_cases hi : i = journalSlot e.opNumber
      swap
      · split at h
        · next hreplace =>
          rw [upd_of_ne _ _ hi] at h
          simp only [hreplace, if_true, upd_of_ne _ _ hi]
          exact hv.durable i h
        · next hreplace =>
          simp only [hreplace, Bool.false_eq_true, if_false, upd_of_ne _ _ hi]
          exact hv.durable i h
      · subst hi
        split at h
        · simp at h
        · next hreplace =>
          -- The slot holds the entry already: its own vote says that it is not free.
          obtain ⟨old, hold, hop, hsum⟩ := hv.durable _ h
          have hagrees : c.slotAgrees e = true := by
            simp only [putAccepts, hreplace, Bool.or_false, Bool.and_eq_true] at haccepts
            exact haccepts.2
          rw [slotAgrees, hold] at hagrees
          simp only [Bool.and_eq_true, beq_iff_eq] at hagrees
          simp only [hreplace, Bool.false_eq_true, if_false, upd_self]
          exact ⟨e, rfl, hop.trans hagrees.1, hsum.trans hagrees.2⟩
  reports := hv.reports

theorem truncate (hv : OwnVotes c) (limit : ℕ) (b : Bool) :
    OwnVotes (c.truncateAboveInternal limit b) where
  durable i h := by
    unfold truncateAboveInternal at h ⊢
    unfold ownVote at h
    unfold DurableAt
    dsimp only at h ⊢
    split at h
    · simp at h
    · next hgone =>
      simp only [hgone, Bool.false_eq_true, if_false]
      exact hv.durable i h
  reports := hv.reports

theorem install (hv : OwnVotes c) (entries : List (Option LogEntry)) :
    OwnVotes (c.installEntries entries) := by
  unfold installEntries
  induction entries using List.reverseRecOn with
  | nil => exact hv.truncate _ _
  | append_singleton l e ih =>
    rw [List.foldl_append, List.foldl_cons, List.foldl_nil]
    cases e with
    | none => exact ih
    | some e => exact ih.put true

theorem place {c₁ : Core} (hv : OwnVotes c) (h : c.Placed hash c₁) : OwnVotes c₁ := by
  have hnoted : OwnVotes c.noteInstalled := { hv with }
  cases h with
  | installed => exact hnoted.install _
  | truncated => exact hnoted.truncate _ _
  | kept => exact hv

theorem count {op src : ℕ} (hv : OwnVotes c)
    (h : src ≠ c.replicaId ∨ c.isDurablePrepare op = true) : OwnVotes (c.countVote op src) where
  durable i hown := by
    have hkept : c.ownVote i = true → (c.countVote op src).DurableAt i := fun h => hv.durable i h
    rcases h with hne | hdurable
    · rw [countVote_own hne] at hown
      exact hkept hown
    by_cases hi : i = journalSlot op
    · subst hi
      obtain ⟨e, he, hop, hsum⟩ := isDurablePrepare_spec hdurable
      obtain ⟨-, hslot, heq⟩ := journalGet_eq_some.mp he
      exact ⟨e, hslot, hop.trans heq.symm, hsum⟩
    · unfold countVote ownVote at hown
      dsimp only at hown
      rw [ite_apply, upd_of_ne _ _ hi, ite_self] at hown
      exact hkept hown
  reports := hv.reports

theorem record (hv : OwnVotes c) (m : DoViewChangeMsg) : OwnVotes (c.recordDvc m) where
  durable := hv.durable
  reports i h := by
    unfold recordDvc at h ⊢
    dsimp only at h ⊢
    split at h
    · next hknown =>
      rw [if_pos hknown]
      exact hv.reports i h
    · next hknown =>
      rw [if_neg hknown]
      by_cases hi : i = m.replicaId
      · rw [hi, upd_self]
      · rw [upd_of_ne _ _ hi] at h ⊢
        exact hv.reports i h

theorem mark (hv : OwnVotes c) (through : ℕ) : OwnVotes (c.markDurable through) where
  durable i h := by
    obtain ⟨e, he, hop, hsum⟩ := hv.durable i h
    refine ⟨e, he, ?_, ?_⟩
    · unfold markDurable
      dsimp only
      rw [he]
      dsimp only
      split
      · rfl
      · exact hop
    · unfold markDurable
      dsimp only
      rw [he]
      dsimp only
      split
      · rfl
      · exact hsum
  reports := hv.reports

theorem settle (hv : OwnVotes c) (hdur : c.suffixDurable = true) : OwnVotes c.asSettled := by
  refine ⟨?_, hv.reports⟩
  intro i hown
  have hdurable : ∀ op, journalSlot op = i → c.isDurablePrepare op = true → c.DurableAt i := by
    intro op hslot hop
    obtain ⟨e, he, hmark, hsum⟩ := isDurablePrepare_spec hop
    obtain ⟨-, hget, heq⟩ := journalGet_eq_some.mp he
    rw [hslot] at hget hmark hsum
    exact ⟨e, hget, hmark.trans heq.symm, hsum⟩
  suffices hd : c.DurableAt i from hd
  rw [← settleNormal_frame] at hown
  unfold settleNormal ownVote at hown
  dsimp only at hown
  split at hown
  · -- The leader: its bit stands at the slots of the suffix.
    unfold voteForSelected at hown
    dsimp only at hown
    split at hown
    · next hany =>
      obtain ⟨op, hmem, hslot⟩ := List.any_eq_true.mp hany
      apply hdurable op (beq_iff_eq.mp hslot)
      exact List.all_eq_true.mp hdur op hmem
    · simp at hown
  · simp [oweSelected] at hown

end OwnVotes

/-- A transition keeps the own votes, if the message at hand is from another replica. -/
theorem Act.ownVotes (h : Act hash inp allow c c')
    (hsrc : ∀ src m, inp = .message src m → src ≠ c.replicaId) (hv : OwnVotes c) : OwnVotes c' := by
  cases h with
  | view h =>
    cases h with
    | enter => exact ⟨hv.durable, fun _ h => nomatch h⟩
    | recordOwn => exact hv.record _
    | recordPeer => exact hv.record _
    | place _ h => exact hv.place h
    | openView _ h =>
      have hplaced := hv.place h
      rw [openView_frame]
      exact ⟨fun i h => absurd h (by simp [ownVote]), hplaced.reports⟩
    | _ => exact { hv with }
  | commit h =>
    rw [h.frame]
    exact { hv with }
  | @append m =>
    let c₀ : Core := { c with opNumber := c.opNumber + 1 }
    have hput : OwnVotes (c₀.journalPut (c₀.requestEntry hash m)) :=
      OwnVotes.put (c := c₀) { hv with } false
    refine ⟨fun i hown => ?_, hput.reports⟩
    have hbit : (upd (c₀.journalPut (c₀.requestEntry hash m)).prepareOkFrom
        (journalSlot (c.opNumber + 1)) 0 i).getLsbD c.replicaId = true := hown
    by_cases hi : i = journalSlot (c.opNumber + 1)
    · rw [hi, upd_self] at hbit
      simp at hbit
    · rw [upd_of_ne _ _ hi] at hbit
      exact hput.durable i hbit
  | @accept e dst dirty =>
    have hput : OwnVotes (({ c with opNumber := e.opNumber } : Core).journalPut e) :=
      OwnVotes.put (c := { c with opNumber := e.opNumber }) { hv with } false
    exact { hput with }
  | @fillGap e dst =>
    have hput : OwnVotes (c.journalPut e) := hv.put false
    exact { hput with }
  | @adopt src m =>
    have hput : OwnVotes (c.journalPut m.entry) := hv.put false
    rw [← adoptCommitted_frame, adoptCommitted]
    split
    · exact { hput with }
    · exact { hv with }
  | @fillHole src m hinp =>
    have hput : OwnVotes (c.journalPut m.entry) := hv.put false
    have hne : src ≠ c.replicaId := hsrc src _ hinp
    refine ⟨fun i hown => ?_, hput.reports⟩
    have hbit : (upd (c.journalPut m.entry).prepareOkFrom (journalSlot m.entry.opNumber)
        (if src = c.replicaId then 0 else replicaBit src) i).getLsbD c.replicaId = true := hown
    by_cases hi : i = journalSlot m.entry.opNumber
    · rw [hi, upd_self, if_neg hne, replicaBit_other hne] at hbit
      cases hbit
    · rw [upd_of_ne _ _ hi] at hbit
      exact hput.durable i hbit
  | @vote src m e hinp =>
    exact hv.count (.inl (hsrc src _ hinp))
  | @selfVote op _ _ hdur =>
    have hcount : OwnVotes (c.countVote op c.replicaId) := hv.count (.inr hdur)
    exact { hcount with }
  | mark =>
    have hmark := hv.mark
    exact { hmark _ with }
  | settle _ _ _ _ _ hdur => exact hv.settle hdur
  | _ => exact { hv with }

/-! ### What one message records -/

namespace Replica

variable {env : Env} {s : Replica} {src me : ℕ}

/-- The view was left, or nobody new was heard of in it. -/
def Unannounced (s s' : Replica) : Prop :=
  (s'.viewNumber = s.viewNumber ∧ s'.startVcCount = s.startVcCount) ∨ s.viewNumber < s'.viewNumber

end Replica

theorem Tolerates.unannounced : Tolerates Replica.Unannounced where
  same h := .inl ⟨congrArg (·.2.1) h, congrArg (·.2.2.1) h⟩
  commit s op := .inl ⟨(s.commitEntry_frame op).2, by rw [(s.commitEntry_frame op).1]⟩
  trans h h' := by
    rcases h with ⟨hv, hc⟩ | hlt <;> rcases h' with ⟨hv', hc'⟩ | hlt'
    · exact .inl ⟨hv'.trans hv, hc'.trans hc⟩
    · exact .inr (hv ▸ hlt')
    · exact .inr (hv' ▸ hlt)
    · exact .inr (hlt.trans hlt')
  fresh _ h := .inr h

theorem Lenient.statuses :
    Lenient fun s s' : Replica => s'.repairStatusReceived = s.repairStatusReceived where
  same h := congrArg (·.2.2.2) h
  commit s op := by rw [(s.commitEntry_frame op).1]
  trans h h' := h'.trans h

namespace Replica

variable {env : Env} {s : Replica} {src me : ℕ}

/-- A `StartViewChange` of another replica is not counted as the own one, which a replica counts
when it moves to a later view. -/
theorem onStartViewChange_own (hne : src ≠ me) (m : StartViewChangeMsg)
    (h : (s.onStartViewChange hash env src m).state.startVcCount me = true) :
    s.startVcCount me = true ∨
      s.viewNumber < (s.onStartViewChange hash env src m).state.viewNumber := by
  -- What follows the counting keeps to the counts of the view, or leaves the view.
  have hrest : ∀ s₁ : Replica, (s.viewNumber < s₁.viewNumber ∨ (s₁.viewNumber = s.viewNumber ∧
      (s₁.startVcCount me = true → s.startVcCount me = true))) →
      (s₁.maybeDoViewChange hash env (abortSelectedView hash env)).state.startVcCount me = true →
      s.startVcCount me = true ∨ s.viewNumber <
        (s₁.maybeDoViewChange hash env (abortSelectedView hash env)).state.viewNumber := by
    intro s₁ h₁ hcount
    have hunannounced : Unannounced s₁
        (s₁.maybeDoViewChange hash env (abortSelectedView hash env)).state :=
      maybeDoViewChange_within Tolerates.unannounced.toLenient
        (abortSelectedView_within .unannounced)
    rcases hunannounced with ⟨hv, hc⟩ | hlt
    · rw [hc] at hcount
      rw [hv]
      rcases h₁ with hlater | ⟨-, hown⟩
      · exact .inr hlater
      · exact .inl (hown hcount)
    · rcases h₁ with hlater | ⟨hsame, -⟩
      · exact .inr (hlater.trans hlt)
      · exact .inr (hsame ▸ hlt)
  unfold onStartViewChange at h ⊢
  split at h
  · exact .inl h
  · next hvalid =>
    rw [if_neg hvalid]
    split at h
    · exact .inl h
    · next hid =>
      have hother : me ≠ m.replicaId := by
        rw [not_not.mp hid]
        exact hne.symm
      rw [if_neg hid]
      split at h
      · exact .inl h
      · next hold =>
        rw [if_neg hold]
        refine hrest _ ?_ h
        by_cases hnew : m.viewNumber > s.viewNumber
        · left
          rw [if_pos hnew]
          show s.viewNumber < (announceView _ m.viewNumber).viewNumber
          rw [announceView_viewNumber]
          exact hnew
        · right
          rw [if_neg hnew]
          refine ⟨rfl, fun hcount => ?_⟩
          unfold countStartVc at hcount
          dsimp only at hcount
          split at hcount
          · exact hcount
          · rw [upd_of_ne _ _ hother] at hcount
            exact hcount

theorem onSendStatus_own (hne : src ≠ me) (m : SendStatusMsg)
    (h : (s.onSendStatus env src m).state.repairStatusReceived me = true) :
    s.repairStatusReceived me = true := by
  have hresume : ∀ s' : Replica, s'.maybeResumeRepair.repairStatusReceived me = true →
      s'.repairStatusReceived me = true := by
    intro s' h
    unfold maybeResumeRepair at h
    split_ifs at h <;> exact h
  have htransfer : ∀ s' : Replica,
      (s'.afterStatus m).repairStatusReceived = s'.repairStatusReceived := by
    intro s'
    unfold afterStatus
    dsimp only
    unfold transferIfGaps
    split_ifs <;> rfl
  unfold onSendStatus at h
  split_ifs at h with hst hview hbounds hlead hleader
  · exact h
  · exact h
  · exact h
  · -- The leader marks the sender.
    unfold onSendStatusLeader at h
    dsimp only at h
    split_ifs at h
    · exact h
    · exact hresume (s.core fun c => c.noteReplicaCommitMin src m.commitMin) h
    · exact h
    · have h : upd s.repairStatusReceived src true me = true := h
      rw [upd_of_ne _ _ hne.symm] at h
      exact h
  · exact h
  · -- A follower commits what the leader has committed, and asks for what it lacks.
    unfold onSendStatusFollower at h
    dsimp only at h
    split_ifs at h
    · split at h
      · split_ifs at h
        · exact h
        · have hcommit := commitUpTo_within Lenient.statuses m.commitMin
            (s := ({ s with lastLeaderActivity := env.now } : Replica).core
              (fun c => c.noteReplicaCommitMin src m.commitMin))
          generalize commitUpTo _ _ = o at h hcommit
          cases o with
          | ok s' =>
            have hkept : s'.repairStatusReceived = s.repairStatusReceived := hcommit
            have h : (s'.afterStatus m).repairStatusReceived me = true := h
            rw [htransfer, hkept] at h
            exact h
          | error s' =>
            have hkept : s'.repairStatusReceived = s.repairStatusReceived := hcommit
            rw [← hkept]
            exact h
      · have h : (Replica.afterStatus _ m).repairStatusReceived me = true := h
        rw [htransfer] at h
        exact h
    · have h : (Replica.afterStatus _ m).repairStatusReceived me = true := h
      rw [htransfer] at h
      exact h

theorem ownVotes_kept (h : ReflTransGen (fun c c' => c'.ownVote = c.ownVote) c c') :
    c'.ownVote = c.ownVote := by
  induction h with
  | refl => rfl
  | tail _ h ih => exact h.trans ih

/-- A `PrepareOk` of another replica leaves the own bits, also where it lets entries commit. -/
theorem onPrepareOk_own (hne : src ≠ s.replicaId) (m : PrepareOkMsg) :
    Reaches (fun c c' => c'.ownVote = c.ownVote) s.toCore (s.onPrepareOk src m) := by
  refine .guard fun hst => .guard fun hlead => .guard fun _ => .guard fun _ => .guard fun _ => ?_
  split
  · exact .ok rfl
  refine .guard fun _ => .guard fun _ => .guard fun _ => ?_
  rw [not_not] at hst
  -- whether the vote is counted or was counted before, commits follow, which touch no bit
  have hcommit : ∀ s₁ : Replica, s₁.status = s.status → s₁.isLeader = s.isLeader →
      s₁.ownVote = s.ownVote →
      Reaches (fun c c' => c'.ownVote = c.ownVote) s.toCore
        (s₁.advanceCommit.map maybeResumeRepair) := by
    intro s₁ hst₁ hlead₁ hown
    have hadvance : Reaches (CommitAct .tick) s₁.toCore s₁.advanceCommit :=
      advanceCommit_reaches (hst₁.trans hst) (by simpa [hlead₁] using hlead)
    refine .head hown (Reaches.map (hadvance.mono fun h => ?_) maybeResumeRepair_toCore)
    rw [h.frame]
    rfl
  dsimp only
  split
  · exact hcommit _ rfl rfl (countVote_own (c := s.noteReplicaCommitMin src m.commitMin) hne)
  · exact hcommit _ rfl rfl rfl

theorem onMessage_cases (hash : Hash) (env : Env) (s : Replica) (src : ℕ) (m : Message) :
    ∃ v, s.onMessage hash env src m = .ok { s with deferredViewTarget := v } ∨
      s.onMessage hash env src m =
        ({ s with deferredViewTarget := v } : Replica).dispatch hash env src m := by
  unfold onMessage
  split
  · exact ⟨_, .inl rfl⟩
  · split
    · exact ⟨_, .inl rfl⟩
    · obtain ⟨v, hv⟩ : ∃ v, (if s.pendingStartView.active then s.deferView hash src m else s) =
          { s with deferredViewTarget := v } := by
        split
        · exact ⟨_, deferView_frame⟩
        · exact ⟨_, rfl⟩
      refine ⟨v, ?_⟩
      dsimp only
      rw [hv]
      split_ifs
      · exact .inl rfl
      · exact .inl rfl
      · exact .inr rfl

/-- What the message records under the id `me`, which is not its sender's. -/
structure RecordsOthers (me : ℕ) (m : Message) (s s' : Replica) : Prop where
  prepareOk : ∀ ok, m = .prepareOk ok → s'.ownVote = s.ownVote
  startViewChange : ∀ svc, m = .startViewChange svc → s'.startVcCount me = true →
    s.startVcCount me = true ∨ s.viewNumber < s'.viewNumber
  sendStatus : ∀ st, m = .sendStatus st → s'.repairStatusReceived me = true →
    s.repairStatusReceived me = true

theorem onMessage_records {m : Message} {s' : Replica} (hne : src ≠ s.replicaId)
    (hok : s.onMessage hash env src m = .ok s') : RecordsOthers s.replicaId m s s' := by
  obtain ⟨v, hm⟩ := onMessage_cases hash env s src m
  rw [hok] at hm
  rcases hm with hm | hm
  · cases hm
    exact ⟨fun _ _ => rfl, fun _ _ h => .inl h, fun _ _ h => h⟩
  have hstate := congrArg Outcome.state hm
  constructor
  · rintro ok rfl
    have hkeeps := onPrepareOk_own (s := { s with deferredViewTarget := v }) hne ok
    rw [show onPrepareOk _ src ok = .ok s' from hm.symm] at hkeeps
    exact (ownVotes_kept hkeeps :)
  · rintro svc rfl h
    rw [show s' = _ from hstate] at h ⊢
    exact onStartViewChange_own (s := { s with deferredViewTarget := v }) hne svc h
  · rintro st rfl h
    rw [show s' = _ from hstate] at h
    exact onSendStatus_own (s := { s with deferredViewTarget := v }) hne st h

end Replica

/-! ### A replica behind its sockets -/

/-- A replica process with its connection manager. -/
structure Server where
  table : PeerTable
  process : Process

/-- What happens to a server: something on its sockets, another call into the replica, or a crash,
after which there are no sockets. Call `k` of a socket event runs in `env k`. -/
inductive ServerEvent where
  | socket (e : PeerEvent) (env : ℕ → Env)
  | call (inp : Input) (env : Env)
  | crash (env : Env)

/-- The calls that the frames on a socket lead to. -/
def arrivals (env : ℕ → Env) (calls : List PeerCall) : List (Input × Env) :=
  calls.mapIdx fun k c => (.message c.src c.message, env k)

/-- The replica that a frame says it is from. -/
def PeerFrame.sender : PeerFrame → Option ℕ
  | .invalid => none
  | .payload p => some (senderOf p)

def Input.isMessage : Input → Bool
  | .message _ _ => true
  | _ => false

namespace Server

variable (aead : Aead) (hash : Hash)

def start (cfg : ReplicaConfig) (key : Option Key) : Server :=
  { table := { replicaId := cfg.replicaId, replicaCount := cfg.replicaCount, key }
    process := Process.start cfg }

/-- Messages come from sockets only. -/
def step (n : Server) : ServerEvent → Server
  | .socket e env =>
    let (table, calls) := n.table.step aead hash e
    { table, process := n.process.calls hash (arrivals env calls) }
  | .call inp env =>
    if inp.isMessage then n else { n with process := n.process.call hash inp env }
  | .crash env =>
    { table := { replicaId := n.table.replicaId, replicaCount := n.table.replicaCount
                 key := n.table.key }
      process := n.process.crash hash env }

def run (n : Server) (events : List ServerEvent) : Server := events.foldl (step aead hash) n

/-- No complete frame on a socket that the replica accepted names the replica itself. -/
def Tame (n : Server) : ServerEvent → Prop
  | .socket (.read i got _) _ => ∀ p ∈ n.table.peers[i]?, p.peerDirection = .inbound →
      ∀ f ∈ n.table.readFrames aead i got, f.sender ≠ some n.table.replicaId
  | _ => True

/-- Every step of a run is tame. -/
def TameRun : Server → List ServerEvent → Prop
  | _, [] => True
  | n, e :: rest => n.Tame aead e ∧ TameRun (n.step aead hash e) rest

end Server

/-- `I` is kept by every transition of a call that is `ok`, and by a restart. -/
structure Upheld (hash : Hash) (ok : Input → Prop) (I : Core → Prop) : Prop where
  act : ∀ {inp}, ok inp → ∀ c c', Sane hash c → I c → Act hash inp (fun _ => True) c c' → I c'
  restart : ∀ c c₀ c', (c₀ = c ∨ c₀ = c.noteInstalled) → Sane hash c → I c →
    c₀.Restarts hash c' → Sane hash c' ∧ I c'

/-- The replica of the process is sane and has the invariant. -/
def Process.Upholds (hash : Hash) (I : Core → Prop) (p : Process) : Prop :=
  ∃ c, p.RunsAs c ∧ Sane hash c ∧ I c

namespace Upheld

variable {p : Process} {ok : Input → Prop} {I : Core → Prop}

theorem call (h : Upheld hash ok I) (hp : p.Upholds hash I) (hinp : ok inp) (env : Env) :
    (p.call hash inp env).Upholds hash I := by
  obtain ⟨c, hc, hs, hI⟩ := hp
  exact hc.keep (h.act hinp) hs hI env

theorem calls (h : Upheld hash ok I) (hp : p.Upholds hash I) {cs : List (Input × Env)}
    (hinp : ∀ x ∈ cs, ok x.1) : (p.calls hash cs).Upholds hash I := by
  induction cs generalizing p with
  | nil => exact hp
  | cons x rest ih =>
    exact ih (h.call hp (hinp x List.mem_cons_self) x.2) fun y hy =>
      hinp y (List.mem_cons_of_mem _ hy)

theorem crash (h : Upheld hash ok I) (hp : p.Upholds hash I) (env : Env) :
    (p.crash hash env).Upholds hash I := by
  obtain ⟨c, hc, hs, hI⟩ := hp
  rcases hc.crash with hc' | ⟨c₀, c', hc₀, hre, hc'⟩
  · exact ⟨c, hc', hs, hI⟩
  · exact ⟨c', hc', h.restart c c₀ c' hc₀ hs hI hre⟩

end Upheld

/-- What a restart needs of the state it starts from: a note of an install changes none of it. -/
theorem Core.Restarts.revives {c₀ : Core} (hc₀ : c₀ = c ∨ c₀ = c.noteInstalled)
    (hs : Sane hash c) (hd : DiskOk hash c) (hre : c₀.Restarts hash c') :
    Sane hash c' ∧ DiskOk hash c₀ ∧ c'.replicaId = c.replicaId ∧
      c'.replicaCount = c.replicaCount ∧ (∀ i, c'.prepareOkFrom i = 0) ∧
      ∀ i, c'.doVcReceived i = false := by
  obtain ⟨hs₀, hd₀, hplace⟩ : Sane hash c₀ ∧ DiskOk hash c₀ ∧
      c₀.replicaId = c.replicaId ∧ c₀.replicaCount = c.replicaCount := by
    rcases hc₀ with rfl | rfl
    · exact ⟨hs, hd, rfl, rfl⟩
    · exact ⟨noteInstalled_sane hs, noteInstalled_diskOk hd, rfl, rfl⟩
  refine ⟨hre.sane hs₀ hd₀, hd₀, ?_⟩
  cases hre with
  | blank => exact ⟨hplace.1, hplace.2, fun _ => rfl, fun _ => rfl⟩
  | recovered _ _ _ h =>
    rw [Replica.rebuildCommittedState_frame h]
    exact ⟨hplace.1, hplace.2, fun _ => rfl, fun _ => rfl⟩

/-- The invariant of a replica that hears of others only. -/
def Upright (hash : Hash) (me : ℕ) (p : Process) : Prop :=
  ∃ c, p.RunsAs c ∧ Sane hash c ∧ Stored hash c ∧ OwnVotes c ∧ c.replicaId = me

namespace Upright

variable {p : Process} {me : ℕ}

theorem start {cfg : ReplicaConfig} (hcount : 0 < cfg.replicaCount)
    (hblank : ∀ d ∈ cfg.disk, d = {}) : Upright hash cfg.replicaId (Process.start cfg) :=
  ⟨_, Process.start_runsAs cfg, Replica.freshState_sane hcount, start_stored hblank,
    .of_none (fun _ => rfl) (fun _ => rfl), rfl⟩

theorem upheld : Upheld hash (fun inp => ∀ src m, inp = .message src m → src ≠ me)
    (fun c => Stored hash c ∧ OwnVotes c ∧ c.replicaId = me) where
  act hinp := by
    rintro c c' hs ⟨hstored, hv, hid⟩ h
    refine ⟨h.stored hs hstored, h.ownVotes (fun src m hm => ?_) hv, h.place.1.trans hid⟩
    rw [hid]
    exact hinp src m hm
  restart := by
    rintro c c₀ c' hc₀ hs ⟨hstored, hv, hid⟩ hre
    obtain ⟨hs', hd₀, hid', -, hfrom, hdvc⟩ := hre.revives hc₀ hs hstored.diskOk
    exact ⟨hs', hre.stored hd₀, .of_none hfrom hdvc, hid'.trans hid⟩

theorem call (h : Upright hash me p) (hinp : ∀ src m, inp = .message src m → src ≠ me)
    (env : Env) : Upright hash me (p.call hash inp env) :=
  upheld.call h hinp env

theorem calls (h : Upright hash me p) {cs : List (Input × Env)}
    (hinp : ∀ x ∈ cs, ∀ src m, x.1 = .message src m → src ≠ me) :
    Upright hash me (p.calls hash cs) :=
  upheld.calls h hinp

theorem crash (h : Upright hash me p) (env : Env) : Upright hash me (p.crash hash env) :=
  upheld.crash h env

theorem vouches (h : Upright hash me p) (hrun : p.stopped = false) {i : ℕ}
    (hown : p.replica.ownVote i = true) :
    ∃ e, p.replica.journal i = some e ∧ p.replica.isDurablePrepare e.opNumber = true ∧
      (p.replica.status = .normal → ∀ d ∈ p.replica.disk, d.durable i = some e) := by
  obtain ⟨c, hc, hs, hstored, hv, -⟩ := h
  have heq := hc.running hrun
  subst heq
  obtain ⟨e, he, hop, hsum⟩ := hv.durable i hown
  obtain ⟨⟨hpos, hcap⟩, hslot, -⟩ := hs.slots he
  have hget : p.replica.journalGet e.opNumber = some e :=
    journalGet_eq_some.mpr ⟨hpos.ne', hslot ▸ he, rfl⟩
  refine ⟨e, he, ?_, fun hnormal d hd => ?_⟩
  · rw [isDurablePrepare_iff hget]
    exact ⟨hslot ▸ hop, hslot ▸ hsum⟩
  · have hclean := hstored.marked.still (steady_of_normal hnormal) i (by omega)
    exact hstored.marked.synced d hd i e he hclean

theorem reported (h : Upright hash me p) (hrun : p.stopped = false)
    (hown : p.replica.doVcReceived me = true) : (p.replica.doVcMsgs me).replicaId = me := by
  obtain ⟨c, hc, -, -, hv, -⟩ := h
  have heq := hc.running hrun
  subst heq
  exact hv.reports me hown

end Upright

/-- The sockets of a server are bound to others, and its replica hears of others only. -/
structure Guarded (hash : Hash) (me : ℕ) (n : Server) : Prop where
  id : n.table.replicaId = me
  foreign : ∀ i, ¬ n.table.Bound i me
  upright : Upright hash me n.process

namespace Guarded

variable {aead : Aead} {me : ℕ} {n : Server}

theorem sockets (h : Guarded hash me n) {e : PeerEvent} {env : ℕ → Env}
    (htame : n.Tame aead (.socket e env)) :
    (n.table.step aead hash e).1.replicaId = me ∧
      (∀ i, ¬ (n.table.step aead hash e).1.Bound i me) ∧
      ∀ c ∈ (n.table.step aead hash e).2, c.src ≠ me ∧
        peerFrameIdentityValid c.src c.message = true := by
  have hid : (n.table.step aead hash e).1.replicaId = me :=
    (PeerTable.step_stepped n.table e).me.trans h.id
  refine ⟨hid, ?_⟩
  rcases PeerTable.step_cases aead hash n.table e with
    ⟨hsame, hnil⟩ | ⟨i, got, failed, rfl, hread⟩ | ⟨dst, -, hnil, hfailed⟩
  · refine ⟨fun i hb => h.foreign i ((hsame.bound i me).mp hb), fun c hc => ?_⟩
    rw [hnil] at hc
    exact absurd hc List.not_mem_nil
  · -- A frame that names the replica would have to be on an inbound socket.
    have hnames : PeerTable.Names i (n.table.readFrames aead i got) (fun x => x ≠ me) n.table := by
      rintro p hp payload hmem hdirection rfl
      have hinbound : p.peerDirection = .inbound := by
        rw [hdirection, PeerTable.preferredDirection, h.id, if_neg (lt_irrefl _)]
      apply htame p hp hinbound _ hmem
      rw [h.id]
      rfl
    obtain ⟨hprogress, hcalls⟩ := hread _ hnames
    refine ⟨fun j hb => ?_, fun c hc => ?_⟩
    · rcases hprogress.fresh hb with hb | hne
      · exact h.foreign j hb
      · exact hne rfl
    · obtain ⟨-, hbound, hvalid, hprogress⟩ := hcalls c hc
      refine ⟨?_, hvalid⟩
      rintro rfl
      rcases hprogress.fresh hbound with hb | hne
      · exact h.foreign i hb
      · exact hne rfl
  · refine ⟨fun i hb => ?_, fun c hc => ?_⟩
    · rcases (hfailed fun _ => False).fresh hb with hb | hno
      · exact h.foreign i hb
      · exact hno
    · rw [hnil] at hc
      exact absurd hc List.not_mem_nil

theorem arrive (h : Guarded hash me n) {e : PeerEvent} {env : ℕ → Env}
    (htame : n.Tame aead (.socket e env)) {calls : List PeerCall}
    (hcalls : ∀ c ∈ calls, c ∈ (n.table.step aead hash e).2) :
    Upright hash me (n.process.calls hash (arrivals env calls)) := by
  apply h.upright.calls
  intro x hx src m hm
  obtain ⟨k, hk, rfl⟩ := List.mem_mapIdx.mp hx
  cases hm
  exact ((h.sockets htame).2.2 _ (hcalls _ (List.getElem_mem hk))).1

theorem step (h : Guarded hash me n) {e : ServerEvent} (htame : n.Tame aead e) :
    Guarded hash me (n.step aead hash e) := by
  cases e with
  | socket e env =>
    obtain ⟨hid, hforeign, -⟩ := h.sockets htame
    exact ⟨hid, hforeign, h.arrive htame fun _ hc => hc⟩
  | call inp env =>
    rw [Server.step]
    split
    · exact h
    · next hother =>
      refine ⟨h.id, h.foreign, h.upright.call ?_ env⟩
      rintro src m rfl
      exact absurd rfl hother
  | crash env =>
    refine ⟨h.id, ?_, h.upright.crash env⟩
    rintro i ⟨p, hp, -⟩
    cases hp

theorem run (h : Guarded hash me n) {events : List ServerEvent}
    (htame : n.TameRun aead hash events) : Guarded hash me (n.run aead hash events) := by
  induction events generalizing n with
  | nil => exact h
  | cons e rest ih => exact ih (h.step htame.1) htame.2

end Guarded

theorem Server.tameRun_append {aead : Aead} {n : Server} {events more : List ServerEvent} :
    n.TameRun aead hash (events ++ more) ↔
      n.TameRun aead hash events ∧ (n.run aead hash events).TameRun aead hash more := by
  induction events generalizing n with
  | nil => exact ⟨fun h => ⟨trivial, h⟩, fun h => h.2⟩
  | cons e rest ih =>
    rw [List.cons_append, TameRun, TameRun, ih, and_assoc]
    rfl

/-- While no frame on an accepted socket names the replica itself, no message is handed to it in its
own name, and what a message leaves in its tables stands under other ids: its own votes for ops are
for entries that its barrier has written and no `PrepareOk` adds to them, its own vote for a view is counted when it moves there,
a report under its id is not the one that arrived, and its own status is not counted. -/
theorem remote_traffic_votes_for_others (aead : Aead) (hash : Hash) (cfg : ReplicaConfig)
    (key : Option Key) (hcount : 2 ≤ cfg.replicaCount) (hblank : ∀ d ∈ cfg.disk, d = {})
    (events : List ServerEvent) (e : PeerEvent) (env : ℕ → Env)
    (htame : (Server.start cfg key).TameRun aead hash (events ++ [.socket e env])) :
    let n := (Server.start cfg key).run aead hash events
    let me := cfg.replicaId
    (n.process.stopped = false → ∀ i, n.process.replica.ownVote i = true →
      ∃ e, n.process.replica.journal i = some e ∧
        n.process.replica.isDurablePrepare e.opNumber = true ∧
        (n.process.replica.status = .normal →
          ∀ d ∈ n.process.replica.disk, d.durable i = some e)) ∧
    ∀ before c after, (n.table.step aead hash e).2 = before ++ c :: after →
      let p := n.process.calls hash (arrivals env before)
      let p' := p.call hash (.message c.src c.message) (env before.length)
      c.src ≠ me ∧ (p'.stopped = false →
        (∀ i, p'.replica.ownVote i = true → ∃ e, p'.replica.journal i = some e ∧
          p'.replica.isDurablePrepare e.opNumber = true) ∧
        (∀ m, c.message = .prepareOk m → p'.replica.ownVote = p.replica.ownVote) ∧
        (∀ m, c.message = .startViewChange m → p'.replica.startVcCount me = true →
          p.replica.startVcCount me = true ∨ p.replica.viewNumber < p'.replica.viewNumber) ∧
        (∀ m, c.message = .doViewChange m → p'.replica.doVcReceived me = true →
          p'.replica.doVcMsgs me ≠ m) ∧
        ∀ m, c.message = .sendStatus m → p'.replica.repairStatusReceived me = true →
          p.replica.repairStatusReceived me = true) := by
  intro n me
  obtain ⟨hevents, hlast, -⟩ := Server.tameRun_append.mp htame
  have hstart : Guarded hash me (Server.start cfg key) := by
    refine ⟨rfl, ?_, Upright.start (by omega) hblank⟩
    rintro i ⟨p, hp, -⟩
    cases hp
  have hn : Guarded hash me n := hstart.run hevents
  refine ⟨fun hrun i hown => hn.upright.vouches hrun hown, ?_⟩
  intro before c after hcalls p p'
  have hmem : ∀ d ∈ before ++ [c], d ∈ (n.table.step aead hash e).2 := by
    intro d hd
    rw [hcalls]
    rcases List.mem_append.mp hd with hd | hd
    · exact List.mem_append_left _ hd
    · rw [List.mem_singleton.mp hd]
      exact List.mem_append_right _ List.mem_cons_self
  obtain ⟨hne, hvalid⟩ := (hn.sockets hlast).2.2 c (hmem c (by simp))
  have hp : Upright hash me p := hn.arrive hlast fun d hd => hmem d (List.mem_append_left _ hd)
  have hp' : Upright hash me p' := hp.call (fun src m hm => by cases hm; exact hne) _
  refine ⟨hne, fun hrun => ⟨?_, ?_⟩⟩
  · intro i hown
    obtain ⟨e, he, hdurable, -⟩ := hp'.vouches hrun hown
    exact ⟨e, he, hdurable⟩
  · -- The process was running before the call as well.
    have hbefore : p.stopped = false ∧ p.replica.onMessage hash (env before.length) c.src c.message =
        .ok p'.replica := by
      have hcall : p' = p.call hash (.message c.src c.message) (env before.length) := rfl
      unfold Process.call at hcall
      split at hcall
      · next hstopped =>
        rw [hcall, hstopped] at hrun
        cases hrun
      · next hgo =>
        refine ⟨by simpa using hgo, ?_⟩
        split at hcall
        · next s hs => rw [hcall]; exact hs
        · rw [hcall] at hrun
          cases hrun
    have hid : p.replica.replicaId = me := by
      obtain ⟨c, hc, -, -, -, hid⟩ := hp
      exact hc.running hbefore.1 ▸ hid
    have hrecords := Replica.onMessage_records (hid ▸ hne) hbefore.2
    rw [hid] at hrecords
    refine ⟨hrecords.prepareOk, hrecords.startViewChange, fun m hm hown heq => ?_,
      hrecords.sendStatus⟩
    have hauthor := hp'.reported hrun hown
    rw [heq] at hauthor
    rw [hm] at hvalid
    exact hne ((beq_iff_eq.mp hvalid).symm.trans hauthor)

/-- A frame of replica 0 on a socket that replica 1 of three has accepted. -/
theorem remote_traffic_votes_for_others_first :
    let cfg := (ClusterConfig.uniform 3 (by decide) true).cfg 1
    let frame := frameOf Aead.bare none (zeroes 24)
      (versioned 0 (serialize (.startViewChange ⟨1, 0⟩)))
    let n := (Server.start cfg none).run Aead.bare plainHash [.socket .accept fun _ => {}]
    let calls := (n.table.step Aead.bare plainHash (.read 0 (some frame) [])).2
    calls.length = 1 ∧ ∀ before c after, calls = before ++ c :: after → c.src ≠ 1 := by
  intro cfg frame n calls
  refine ⟨by decide +kernel, fun before c after h => ?_⟩
  refine ((remote_traffic_votes_for_others Aead.bare plainHash cfg none (by decide) ?_
    [.socket .accept fun _ => {}] (.read 0 (some frame) []) (fun _ => {}) ?_).2 before c after h).1
  · intro d hd
    exact (Option.some.inj hd).symm
  · refine ⟨trivial, ?_, trivial⟩
    show ∀ p ∈ n.table.peers[0]?, p.peerDirection = .inbound →
      ∀ f ∈ n.table.readFrames Aead.bare 0 (some frame), f.sender ≠ some 1
    decide +kernel

/-- Replica 0 leads and has not written op 1 yet; a frame on a socket it has accepted claims to be
its own `PrepareOk`. -/
theorem own_vote_from_socket :
    let cfg := (ClusterConfig.uniform 3 (by decide) true).cfg 0
    let frame := frameOf Aead.bare none (zeroes 24) (versioned 0 (serialize (.prepareOk
      { viewNumber := 0, opNumber := 1, replicaId := 0, commitMin := 0
        entryChecksum := 6507602, commitChecksum := 0 })))
    let n := (Server.start cfg none).run Aead.bare plainHash
      [.call (.request { clientId := 7, requestId := 1 }) {}, .socket .accept fun _ => {},
        .socket (.read 0 (some frame) []) fun _ => {}]
    n.table.peers.map (·.peerId) = [some 0] ∧ n.process.stopped = false ∧
      n.process.replica.ownVote (journalSlot 1) = true ∧
      n.process.replica.isDurablePrepare 1 = false := by
  decide +kernel

end Hivemind
