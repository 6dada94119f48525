import Hivemind.Rebuild
import Hivemind.Sample

/-! Recovery refines the uninterrupted run: what a replica reads back after the loss of its
process is what it had when it had committed as much. -/
namespace Hivemind

open Relation Core

variable {hash : Hash} {inp : Input} {env : Env} {allow : Hazard → Prop} {c c₁ c' : Core}
  {s s' : Replica}

/-! ### Between calls the synced commit is executed -/

def Core.CommitSynced (c : Core) : Prop :=
  ∀ d ∈ c.disk, ∀ m ∈ d.metadata, m.commitMin ≤ c.commitMin

theorem Act.commitMin_le (h : Act hash inp allow c c') : c.commitMin ≤ c'.commitMin := by
  cases h.posts with
  | same hmin => exact hmin.ge
  | executed _ _ heq =>
    rw [heq]
    exact Nat.le_succ _
  | published h => exact h.commitMin.ge

theorem acts_commitMin_le (h : ReflTransGen (Act hash inp allow) c c') :
    c.commitMin ≤ c'.commitMin := by
  induction h with
  | refl => exact le_rfl
  | tail _ h ih => exact ih.trans h.commitMin_le

theorem Core.CommitSynced.step (h : c.CommitSynced) (hle : c.commitMin ≤ c'.commitMin)
    (hmeta : ∀ d' ∈ c'.disk, ∃ d ∈ c.disk, d'.metadata = d.metadata) : c'.CommitSynced := by
  intro d' hd' m hm
  obtain ⟨d, hd, heq⟩ := hmeta d' hd'
  exact (h d hd m (heq ▸ hm)).trans hle

theorem Core.CommitSynced.acts (h : c.CommitSynced) (hs : Sane hash c) (hd : DiskOk hash c)
    (hno : inp.mayFlush = false) (hacts : ReflTransGen (Act hash inp allow) c c') :
    c'.CommitSynced := by
  suffices Sane hash c' ∧ DiskOk hash c' ∧ c'.CommitSynced from this.2.2
  induction hacts with
  | refl => exact ⟨hs, hd, h⟩
  | tail _ hact ih =>
    obtain ⟨hs, hd, h⟩ := ih
    refine ⟨hact.sane hs, hact.diskOk hs hd, h.step hact.commitMin_le ?_⟩
    cases hact.diskStep hs hd with
    | same hsame =>
      intro d' hd'
      obtain ⟨d, hd, -, hmeta⟩ := hsame d' hd'
      exact ⟨d, hd, hmeta⟩
    | synced _ _ hinp => exact absurd (hno.symm.trans hinp) (by decide)

theorem acts_volatile (hs : Sane hash c) (hnone : c.disk = none)
    (hacts : ReflTransGen (Act hash inp allow) c c') : c'.disk = none := by
  suffices Sane hash c' ∧ c'.disk = none from this.2
  induction hacts with
  | refl => exact ⟨hs, hnone⟩
  | tail _ hact ih =>
    obtain ⟨hs, hnone⟩ := ih
    have hd : DiskOk hash _ :=
      ⟨fun _ d hd => (by rw [hnone] at hd; cases hd), fun d hd => (by rw [hnone] at hd; cases hd)⟩
    refine ⟨hact.sane hs, Option.eq_none_iff_forall_not_mem.mpr fun d' hd' => ?_⟩
    cases hact.diskStep hs hd with
    | same hsame =>
      obtain ⟨d, hd, -⟩ := hsame d' hd'
      rw [hnone] at hd
      cases hd
    | synced hsy => cases hnone.symm.trans hsy.before

namespace Replica

theorem mayDefer_any (c : Core) : MayDefer (fun _ => True) c :=
  ⟨fun _ => trivial, fun _ _ => trivial⟩

theorem publishPendingStartView_commits (hs : Sane hash s.toCore)
    (hact : s.pendingStartView.active = true) (hclean : s.toCore.Clean)
    (hdisk : s.toCore.DiskCurrent)
    (h : s.publishPendingStartViewAfterBarrier hash env = .ok s') :
    s.pendingStartView.commitMin ≤ s'.commitMin := by
  unfold publishPendingStartViewAfterBarrier at h
  rw [if_neg (by simpa using hact)] at h
  split at h
  · cases h
  next hchain =>
  obtain ⟨henter, hentered⟩ := enterPending_reaches hash .tick (fun _ => True) hact
    (by simpa using hchain) hclean hdisk
  cases h₁ : s.enterPending with
  | error s₁ =>
    rw [h₁] at h
    cases h
  | ok s₁ =>
    rw [h₁] at henter h
    obtain ⟨hent, -, hpend, -⟩ := hentered s₁ h₁
    have hs₁ : Sane hash s₁.toCore := acts_sane (publishActs_acts henter) hs
    obtain ⟨hsettle, hsettled⟩ := settlePending_reaches hash env .tick (fun _ => True) hs₁ hent
    have h' : (s₁.settlePending env).bind (fun s' =>
      s'.followDeferred hash env s.deferredViewTarget) = .ok s' := h
    cases h₂ : s₁.settlePending env with
    | error s₂ =>
      rw [h₂] at h'
      cases h'
    | ok s₂ =>
      rw [h₂] at hsettle h'
      have hcommit : s₁.commitMin = s₁.pendingStartView.commitMin := by
        by_contra hne
        rw [settlePending, if_pos hne] at h₂
        cases h₂
      have hsilent : Input.tick.Silent := .of_mayFlush rfl
      have hfollow := (followDeferred_reaches hash env (fun _ => True) hsilent
        s.deferredViewTarget (acts_sane (publishActs_acts hsettle) hs₁) (hsettled s₂ h₂).2.2.1
        fun _ => ⟨fun _ => trivial, fun _ => trivial⟩).1
      have h'' : s₂.followDeferred hash env s.deferredViewTarget = .ok s' := h'
      rw [h''] at hfollow
      rw [← hpend, ← hcommit]
      exact (acts_commitMin_le (publishActs_acts hsettle)).trans
        (acts_commitMin_le (publishActs_acts hfollow))

/-- A barrier leaves a commit that the replica executes before the call ends. -/
theorem publishPendingAfterBarrier_synced {through : ℕ} (h : Flushed hash s.toCore)
    (hok : s.publishPendingAfterBarrier hash env through = .ok s') :
    s'.toCore.CommitSynced ∧ (s.pendingStartView.active = false →
      s'.pendingStartView.active = false ∧ s'.storageFailed = false) := by
  have hsilent : Input.tick.Silent := .of_mayFlush rfl
  obtain ⟨hworks, hspec⟩ := publishPendingAfterBarrier_works env (fun _ => True) hsilent
    through h (mayDefer_any _)
  have hreach := hworks.reaches
  rw [hok] at hreach
  refine ⟨fun d hd m hm => ?_, fun hact => hspec hact s' hok⟩
  cases (h.current d ((publishActs_still hreach).1 ▸ hd)).symm.trans hm
  unfold metadataToPersist
  split
  swap
  · exact acts_commitMin_le (publishActs_acts hreach)
  next hact =>
  unfold publishPendingAfterBarrier at hok
  cases h₁ : (s.core (fun c => c.markDurable through)).publishPendingStartViewAfterBarrier
      hash env with
  | error s₁ =>
    rw [h₁] at hok
    cases hok
  | ok s₁ =>
    rw [h₁] at hok
    have howed := (publishOwed_after hsilent h (mayDefer_any _) h₁).2.1.reaches
    rw [show s₁.publishOwed through = .ok s' from hok] at howed
    have hle := publishPendingStartView_commits (s := s.core (fun c => c.markDurable through))
      { h.sane with } hact h.clean h.current h₁
    exact hle.trans (acts_commitMin_le (publishActs_acts howed))

theorem commitSynced_of_failed {d d₁ : Disk} (h : s.toCore.CommitSynced) (hd : s.disk = some d)
    (hmeta : d₁.metadata = d.metadata) (hmin : c.commitMin = s.commitMin)
    (hdisk : c.disk = some d₁) : c.CommitSynced := by
  refine h.step hmin.ge fun d' hd' => ⟨d, hd, ?_⟩
  cases hdisk.symm.trans hd'
  exact hmeta

theorem flushBarrier_synced {d : Disk} {again : Replica → Outcome} (hs : Sane hash s.toCore)
    (hup : s.storageFailed = false) (hdisk : s.disk = some d)
    (hact : s.pendingStartView.active = false) (h : s.toCore.CommitSynced)
    (hagain : ∀ s₁ : Replica, Sane hash s₁.toCore → s₁.storageFailed = false →
      s₁.pendingStartView.active = false → s₁.toCore.CommitSynced → again s₁ = .ok s' →
      s'.toCore.CommitSynced)
    (hok : s.flushBarrier hash env again d = .ok s') : s'.toCore.CommitSynced := by
  unfold flushBarrier at hok
  cases hst : d.stage s.journalDirty s.journal slots with
  | none =>
    rw [hst] at hok
    cases hok
    exact commitSynced_of_failed h hdisk rfl rfl rfl
  | some d₁ =>
    obtain ⟨-, hmeta₁⟩ := stage_fields hst
    rw [hst] at hok
    cases hm : s.metadataForPersistence hash with
    | none =>
      rw [hm] at hok
      cases hok
    | some m =>
      obtain ⟨hchain, rfl⟩ := metadataForPersistence_eq hm
      rw [hm] at hok
      dsimp only at hok
      split at hok
      · -- nothing changed since the last barrier
        next hneed =>
        simp only [Bool.not_eq_true', Bool.or_eq_false_iff, Bool.not_eq_false'] at hneed
        obtain ⟨⟨-, hany⟩, heq⟩ := hneed
        have hmeta : d.metadata = some s.metadataToPersist := by
          rw [← hmeta₁]
          simpa [Disk.metadataEquals] using heq
        refine (publishPendingAfterBarrier_synced
          ⟨hs, clean_of_not_dirty hs hany, fun d' hd' => ?_, fun d' hd' => ?_, hup⟩ hok).1
        · cases hdisk.symm.trans hd'
          exact ⟨_, hmeta, metadataToPersist_op hchain⟩
        · cases hdisk.symm.trans hd'
          exact hmeta
      cases hw : d₁.writeMetadata s.metadataToPersist with
      | none =>
        rw [hw] at hok
        cases hok
        exact commitSynced_of_failed h hdisk hmeta₁ rfl rfl
      | some d₂ =>
        obtain ⟨-, hmeta₂⟩ := writeMetadata_fields hw
        rw [hw] at hok
        dsimp only at hok
        cases hsync : d₂.sync with
        | none =>
          rw [hsync] at hok
          cases hok
          exact commitSynced_of_failed h hdisk (hmeta₂.trans hmeta₁) rfl rfl
        | some d₃ =>
          rw [hsync] at hok
          dsimp only at hok
          split at hok
          · cases hok
          next heq =>
          have hflushed := afterSync_flushed hs hup hchain (by simpa using heq)
          cases hpub : (s.core (fun c => c.afterSync d₃)).publishPendingAfterBarrier hash env
              s.metadataToPersist.opNumber with
          | error s₁ =>
            rw [hpub] at hok
            cases hok
          | ok s₁ =>
            rw [hpub] at hok
            obtain ⟨hsync₁, hidle₁⟩ := publishPendingAfterBarrier_synced
              (s := s.core (fun c => c.afterSync d₃)) hflushed hpub
            obtain ⟨hact₁, hup₁⟩ := hidle₁ hact
            have hok' : (if !s₁.metadataDirty && !s₁.anyJournalDirty then .ok s₁ else again s₁) =
                Except.ok s' := hok
            split at hok'
            · cases hok'
              exact hsync₁
            · have hreach := (publishPendingAfterBarrier_works env (fun _ => True)
                (Input.Silent.of_mayFlush (rfl : Input.tick.mayFlush = true))
                s.metadataToPersist.opNumber (s := s.core (fun c => c.afterSync d₃)) hflushed
                (mayDefer_any _)).1.reaches
              rw [hpub] at hreach
              exact hagain s₁ (acts_sane (publishActs_acts hreach) hflushed.sane) hup₁ hact₁
                hsync₁ hok'

theorem flushBarriers_synced : ∀ {barriers : ℕ} {s : Replica}, Sane hash s.toCore →
    s.storageFailed = false → s.pendingStartView.active = false → s.toCore.CommitSynced →
      flushBarriers hash env barriers s = .ok s' → s'.toCore.CommitSynced
  | 0, s, _, _, _, h, hok => by
    unfold flushBarriers Replica.assert at hok
    split at hok
    · cases hok
      exact h
    · cases hok
  | barriers + 1, s, hs, hup, hact, h, hok => by
    unfold flushBarriers at hok
    split at hok
    · cases hok
      exact h
    · next d hd =>
      exact flushBarrier_synced hs hup hd hact h
        (fun s₁ hs₁ hup₁ hact₁ h₁ => flushBarriers_synced hs₁ hup₁ hact₁ h₁) hok

theorem syncPendingStartView_failed {d : Disk} (h : s.toCore.CommitSynced)
    (hdisk : s.disk = some d) (hfail : s.syncPendingStartView hash d = .ok (false, s')) :
    s'.toCore.CommitSynced := by
  unfold syncPendingStartView at hfail
  split at hfail
  · cases hfail
  split at hfail
  · cases hfail
  split at hfail
  · cases hfail
    exact commitSynced_of_failed h hdisk rfl rfl rfl
  next d₁ hst =>
  obtain ⟨-, hmeta₁⟩ := stage_fields hst
  split at hfail
  · cases hfail
    exact commitSynced_of_failed h hdisk hmeta₁ rfl rfl
  next d₂ hw =>
  obtain ⟨-, hmeta₂⟩ := writeMetadata_fields hw
  split at hfail
  · cases hfail
    exact commitSynced_of_failed h hdisk (hmeta₂.trans hmeta₁) rfl rfl
  · split at hfail <;> cases hfail

theorem flushDurableState_synced (hs : Sane hash s.toCore) (h : s.toCore.CommitSynced)
    (hok : s.flushDurableState hash env = .ok s') : s'.toCore.CommitSynced := by
  unfold flushDurableState at hok
  split at hok
  · cases hok
    exact h
  next hup =>
  rw [Bool.not_eq_true] at hup
  split at hok
  · next hd =>
    have hsilent : Input.tick.Silent := .of_mayFlush rfl
    have hreach : Reaches (Act hash .tick fun _ => True) s.toCore (s.flushVolatile hash env) :=
      (flushVolatile_works hsilent hs hd hup (mayDefer_any _)).reaches
    rw [hok] at hreach
    intro d' hd'
    rw [acts_volatile hs hd hreach] at hd'
    cases hd'
  next d hd =>
  split at hok
  swap
  · next hact => exact flushBarriers_synced hs hup (by simpa using hact) h hok
  have hsync := syncPendingStartView_reaches (fun _ => True) (rfl : Input.tick.mayFlush = true)
    hs hup hd
  split at hok
  · cases hok
  · next s₁ h₁ =>
    cases hok
    exact syncPendingStartView_failed h hd h₁
  · next s₁ h₁ =>
    rw [h₁] at hsync
    exact (publishPendingAfterBarrier_synced (hsync.2 rfl).1 hok).1

theorem tick_synced (hs : Sane hash s.toCore) (h : s.toCore.CommitSynced)
    (hok : s.tick hash env = .ok s') : s'.toCore.CommitSynced := by
  unfold tick at hok
  split at hok
  · cases hok
    exact h
  have hs' : Sane hash (s.armFaults env).toCore := { hs with }
  have hcalm : Reaches (CalmAct hash .tick fun _ => True) (s.armFaults env).toCore
      ((s.armFaults env).tickProtocol hash env) :=
    tickProtocol_reaches hs' armFaults_armFaults (fun _ _ => trivial)
  cases h₁ : (s.armFaults env).tickProtocol hash env with
  | error s₁ =>
    rw [h₁] at hok
    cases hok
  | ok s₁ =>
    rw [h₁] at hok hcalm
    have hacts := calmActs_acts hcalm
    refine flushDurableState_synced (acts_sane hacts hs') ?_ hok
    have hle : (s.armFaults env).commitMin ≤ s₁.commitMin := acts_commitMin_le hacts
    refine Core.CommitSynced.step (h : s.toCore.CommitSynced) hle fun d' hd' => ?_
    rw [(calmActs_pending hcalm).1.2] at hd'
    obtain ⟨d, hd, rfl⟩ := Option.map_eq_some_iff.mp hd'
    exact ⟨d, hd, rfl⟩

theorem handle_synced (hs : Sane hash s.toCore) (hd : DiskOk hash s.toCore)
    (h : s.toCore.CommitSynced) (hok : s.handle hash env inp = .ok s') :
    s'.toCore.CommitSynced := by
  have hquiet : inp.mayFlush = false → s'.toCore.CommitSynced := by
    intro hno
    have hreach : Reaches (Act hash inp fun _ => True) s.toCore (s.handle hash env inp) :=
      handle_reaches hs fun _ _ => trivial
    rw [hok] at hreach
    exact h.acts hs hd hno hreach
  cases inp with
  | tick => exact tick_synced hs h hok
  | workerDisconnect i =>
    cases hok
    unfold onWorkerDisconnect
    split
    · exact h
    · exact h
  | _ => exact hquiet rfl

theorem restart_synced (h : s.restart hash env = some s') : s'.toCore.CommitSynced := by
  have hre := restart_restarts h
  generalize s'.toCore = c' at hre
  intro d hd m hm
  cases hre with
  | blank hblank =>
    obtain ⟨d₀, hd₀, rfl⟩ := Option.map_eq_some_iff.mp hd
    cases (hblank d₀ hd₀).symm.trans hm
  | recovered hd₀ hm₀ _ hc₁ =>
    rw [rebuildCommittedState_frame hc₁] at hd ⊢
    obtain ⟨d₀, hd₀', rfl⟩ := Option.map_eq_some_iff.mp hd
    cases hd₀.symm.trans hd₀'
    cases hm₀.symm.trans hm
    exact le_rfl

end Replica

theorem Cluster.commitSynced {n : ℕ} (k : ClusterConfig n) (acts : List Action) : ∀ r < n,
    ((run hash (start k) acts).procs r).stopped = false →
      ((run hash (start k) acts).replica r).toCore.CommitSynced := by
  refine Cluster.always (P := fun s => s.toCore.CommitSynced) k (fun r _ d hd m hm => ?_)
    (fun _ _ _ _ => Replica.handle_synced) (fun _ _ _ => Replica.restart_synced) acts
  rw [k.blank r d hd] at hm
  cases hm

/-! ### Rebuilding the committed state -/

section Rebuilt

variable {mem init : StateMachine} {seed : UInt64} {log es : List LogEntry} {d : Disk}
  {m : DiskMetadata}

/-- Every command of the log fills the pod slots it claims. -/
def Fills (init : StateMachine) (log : List LogEntry) : Bool :=
  Replay.along StateMachine.applyEntry (fun sm e => sm.fills e.command) init log

theorem run_alike {sm sm' : StateMachine} (hst : sm.replicated = sm'.replicated)
    (h : Fills sm log = true) :
    (Replay.run StateMachine.applyEntry sm log).map (Prod.map StateMachine.replicated id) =
      (Replay.run StateMachine.applyEntry sm' log).map (Prod.map StateMachine.replicated id) :=
  Replay.run_congr (fun _ _ _ => StateMachine.apply_replicated) hst h

/-- Whatever the memory held, such a log comes to the same. -/
theorem booksOf_alike {sm sm' : StateMachine} (hst : sm.replicated = sm'.replicated)
    (h : Fills sm log = true) : booksOf sm log = booksOf sm' log := by
  have hbooks : ∀ sm, booksOf sm log =
      ((Replay.run StateMachine.applyEntry sm log).map (Prod.map StateMachine.replicated id)).map
        fun x => ⟨x.1, tableOf (postings log x.2)⟩ := by
    intro sm
    rw [booksOf, Option.map_map]
    rfl
  rw [hbooks, hbooks, run_alike hst h]

theorem Solid.log_ops (hp : Solid c) {k : ℕ} (hk : k ≤ c.commitMin) :
    (c.committedLog.take k).map (·.opNumber) = opsAbove 0 k := by
  refine List.ext_getElem? fun i => ?_
  rw [List.getElem?_map, opsAbove]
  by_cases hi : i < k
  · obtain ⟨e, he⟩ := journalHas_iff.mp (hp.held (i + 1) i.succ_pos (by omega))
    have hlog : c.committedLog[i]? = some e := (hp.log_get i.succ_pos (by omega)).trans he
    rw [List.getElem?_take_of_lt hi, hlog, List.getElem?_range' (by omega), Option.map_some,
      opNumber_of_journalGet he]
    congr 1
    omega
  · rw [List.getElem?_eq_none (by rw [List.length_take]; omega),
      List.getElem?_eq_none (by simp; omega)]
    rfl

theorem Solid.mem_log (hp : Solid c) {k : ℕ} {e : LogEntry} (hk : k ≤ c.commitMin)
    (he : e ∈ c.committedLog.take k) :
    0 < e.opNumber ∧ e.opNumber ≤ k ∧ c.journalGet e.opNumber = some e := by
  have hop : e.opNumber ∈ opsAbove 0 k := hp.log_ops hk ▸ List.mem_map_of_mem he
  obtain ⟨op, -, hget⟩ := List.mem_filterMap.mp (List.mem_of_mem_take he)
  have := opNumber_of_journalGet hget
  exact ⟨(mem_opsAbove.mp hop).1, (mem_opsAbove.mp hop).2, this ▸ hget⟩

theorem Restorable.linked (hr : Restorable hash c) {k : ℕ} (hk : k ≤ c.commitMin) :
    ∃ tip, Linked 0 (c.committedLog.take k) tip := by
  have hp := hr.solid
  have hat : ∀ {i : ℕ} {e : LogEntry}, (c.committedLog.take k)[i]? = some e →
      i < k ∧ c.journalGet (i + 1) = some e := by
    intro i e he
    have hi : i < k := by
      by_contra hge
      rw [List.getElem?_eq_none (by rw [List.length_take]; omega)] at he
      cases he
    rw [List.getElem?_take_of_lt hi] at he
    exact ⟨hi, (hp.log_get i.succ_pos (by omega)).symm.trans he⟩
  refine HashChain.exists_chain (fun e he => ?_) fun i e e' he he' => ?_
  · obtain ⟨hi, hget⟩ := hat he
    have hlink := hr.threaded.committed _ e (by omega) hget
    rwa [linkHolds_first (opNumber_of_journalGet hget)] at hlink
  · obtain ⟨hi, hget⟩ := hat he
    obtain ⟨hi', hget'⟩ := hat he'
    have hop := opNumber_of_journalGet hget'
    have hlink := hr.threaded.committed _ e' (by omega) hget'
    rw [linkHolds_next (by omega)] at hlink
    exact (hlink e (by rw [hop]; exact hget)).symm

/-- What the disk holds replays to the end. -/
theorem Restorable.rebuilds (hr : Restorable hash c) (ha : Accounted seed c) (hs : SlotOk hash c)
    (hd : c.disk = some d) (hm : d.metadata = some m) (hsync : m.commitMin ≤ c.commitMin)
    (hinit : init.replicated = (mem.initInPlace seed).replicated)
    (hfills : Fills init (c.committedLog.take m.commitMin) = true) :
    ∃ c₁, Replica.rebuildCommittedState hash (Replica.recoveredCore hash d.crash m c.reborn)
        m.commitMin = some c₁ ∧
      booksOf init (c.committedLog.take m.commitMin) =
        some ⟨c₁.stateMachine.replicated, c₁.clientTable⟩ := by
  have hp := hr.solid
  obtain ⟨sm₀, rs₀, k, hb⟩ := ha.booked
  obtain ⟨sm₁, hrun₀, -⟩ := hb.state
  obtain ⟨sm₂, hrun⟩ := Replay.run_take hrun₀ m.commitMin
  -- the replay starts from other memory, so it ends with like tables and the same results
  let born := c.reborn.stateMachine.initInPlace c.reborn.stateMachine.seed
  have hseed : c.reborn.stateMachine.seed = seed := ha.seeded
  have hborn : init.replicated = born.replicated := by
    show _ = (c.reborn.stateMachine.initInPlace c.reborn.stateMachine.seed).replicated
    rw [hinit, hseed]
    rfl
  have halike := run_alike (hinit.trans (StateMachine.replicated_initInPlace mem sm₀ seed)) hfills
  have halike' := run_alike hborn hfills
  rw [hrun] at halike
  rw [halike] at halike'
  obtain ⟨⟨sm₃, rs⟩, hrun', -⟩ := Option.map_eq_some_iff.mp halike'.symm
  obtain ⟨tip, hlinked⟩ := hr.linked hsync
  have hsound := hr.backed.sound d hd m hm
  simp only [Replica.metadataSound, Bool.and_eq_true, Bool.not_eq_true',
    decide_eq_false_iff_not, not_lt] at hsound
  refine ⟨{ Replica.recoveredCore hash d.crash m c.reborn with
    stateMachine := sm₃
    clientTable := tableOf (postings (c.committedLog.take m.commitMin) rs) }, ?_, ?_⟩
  · unfold Replica.rebuildCommittedState
    rw [← hp.log_ops hsync]
    refine Replica.replay_of_run (fun e he => ?_) hlinked hrun' ?_
    · obtain ⟨hpos, hle, hget⟩ := hp.mem_log hsync he
      obtain ⟨e', he', hslot⟩ := hr.backed.held d hd m hm _ hpos hle
      cases hget.symm.trans he'
      have hvalid := hs.valid hget
      exact ⟨recovered_get.mpr ⟨hpos.ne', hslot, rfl, hvalid, by omega⟩, hvalid⟩
    · show 0 + (c.committedLog.take m.commitMin).length ≤ clientTableMax
      rw [List.length_take]
      have : clientTableMax = logSizeMax := rfl
      omega
  · rw [booksOf_alike hborn hfills, booksOf, hrun']
    rfl

end Rebuilt

theorem Replica.restart_of_rebuild (env : Env) {d : Disk} {m : DiskMetadata}
    (hd : s.disk = some d) (hm : d.metadata = some m) (hsound : metadataSound m = true)
    (h : rebuildCommittedState hash (recoveredCore hash d.crash m s.toCore.reborn) m.commitMin =
      some c₁) :
    ∃ s', s.restart hash env = some s' ∧ s'.recoveredFromDisk = true ∧
      s'.toCore = settleRecovered c₁ := by
  have hdisk : s.disk.map Disk.crash = some d.crash := by rw [hd]; rfl
  have hread : d.crash.readMetadata = some m := hm
  unfold restart recoverFromDisk
  dsimp only [freshState]
  rw [hdisk]
  dsimp only
  rw [hread]
  dsimp only
  rw [hsound, Bool.not_true, if_neg (by decide)]
  unfold Core.reborn freshState at h
  rw [hdisk] at h
  rw [h]
  exact ⟨_, rfl, rfl, rfl⟩

/-! ### Runs -/

theorem noteInstalled_accounted {seed : UInt64} (ha : Accounted seed c) :
    Accounted seed c.noteInstalled := by
  obtain ⟨sm, rs, k, hb⟩ := ha.booked
  exact ⟨⟨sm, rs, k, { hb with }⟩, ha.seeded⟩

theorem noteInstalled_restorable (hr : Restorable hash c) : Restorable hash c.noteInstalled := by
  refine ⟨{ hr with
      diskOk := noteInstalled_diskOk hr.diskOk
      solid := { hr.solid with }
      marked := { hr.marked with }
      commit := { hr.commit with } },
    { hr.ordered with }, { hr.threaded with }, { hr.backed with answered := ?_ },
    fun h1 => { hr.alone h1 with }⟩
  intro r hmem clientId requestId result op hev
  rcases List.mem_append.mp hmem with hmem | hmem
  · exact hr.backed.answered r hmem clientId requestId result op hev
  · rw [List.mem_singleton.mp hmem] at hev
    cases hev

theorem Moves.restorable {n r : ℕ} {safe : Core → Prop} {cs cs' : ℕ → Core}
    (h : Moves hash n allow safe cs cs') (hno : ¬ allow .unlinked) (hs : AllSane hash n cs)
    (hr : r < n) (hre : Restorable hash (cs r)) : Restorable hash (cs' r) := by
  have hcount := (hs.member r hr).count
  refine h.single hre (fun inp c' hinp h => ?_) fun c₀ c' _ hc₀ h => ?_
  · refine h.restorable hno (hs.sane r hr) (fun hheard => ?_) (fun h1 => ?_) hre
    · by_contra hle
      have hn : n = 1 := by omega
      exact hheard (hs.silent hn hr hinp)
    · exact hs.lone (hcount.symm.trans h1) r hr
  · obtain ⟨h1, h2, h3, -, h5⟩ := hs.remains hr hc₀
    refine h.restorable h1 h2 (fun hone => (h5 (h3.count.symm.trans hone)).status) ?_
    rcases hc₀ with rfl | rfl
    · exact hre
    · exact noteInstalled_restorable hre

theorem Moves.accounted {n r : ℕ} {safe : Core → Prop} {cs cs' : ℕ → Core} {seed : UInt64}
    (h : Moves hash n allow safe cs cs') (hs : AllSane hash n cs) (hr : r < n)
    (hp : Solid (cs r)) (ha : Accounted seed (cs r)) : Accounted seed (cs' r) := by
  refine h.single ha (fun inp c' _ h => h.accounted (hs.sane r hr) hp ha)
    fun c₀ c' _ hc₀ h => h.accounted (Accounted.seeded ?_)
  rcases hc₀ with rfl | rfl
  · exact ha
  · exact noteInstalled_accounted ha

/-- Whenever the process of `p` is lost after its first barrier, it starts again with
every answered op committed and with the tables and the client table of the synced prefix of
its log; where `q` has committed as much, with those of `q`. -/
def Recovers (hash : Hash) (init : StateMachine) (p q : Replica) : Prop :=
  ∀ env d m, p.disk = some d → d.metadata = some m →
    Fills init (p.committedLog.take m.commitMin) = true →
    ∃ s, p.restart hash env = some s ∧ s.recoveredFromDisk = true ∧ s.commitMin = m.commitMin ∧
      (∀ r ∈ p.history, ∀ clientId requestId result op,
        r.event = .replied clientId requestId result (some op) → op ≤ s.commitMin) ∧
      booksOf init (p.committedLog.take m.commitMin) = some s.books ∧
      s.books.clients = s.clientTable ∧ (q.commitMin = m.commitMin → s.books = q.books)

theorem KeepsCommitted.log_take (h : KeepsCommitted c c') (hp : Solid c) (hp' : Solid c')
    {k : ℕ} (hk : k ≤ c.commitMin) : c'.committedLog.take k = c.committedLog.take k := by
  refine List.ext_getElem? fun i => ?_
  by_cases hi : i < k
  · have hle : i + 1 ≤ c.commitMin := by omega
    have hle' : i + 1 ≤ c'.commitMin := hle.trans h.le
    rw [List.getElem?_take_of_lt hi, List.getElem?_take_of_lt hi]
    exact ((hp'.log_get i.succ_pos hle').trans (h.get _ hle)).trans
      (hp.log_get i.succ_pos hle).symm
  · rw [List.getElem?_eq_none (by rw [List.length_take]; omega),
      List.getElem?_eq_none (by rw [List.length_take]; omega)]

theorem Restorable.recovers {seed : UInt64} {init mem : StateMachine} {p q : Replica}
    (hr : Restorable hash p.toCore) (ha : Accounted seed p.toCore) (hq : Solid q.toCore)
    (haq : Accounted seed q.toCore) (hs : SlotOk hash p.toCore) (hsync : p.toCore.CommitSynced)
    (hinit : init = mem.initInPlace seed)
    (hlog : ∀ k ≤ p.commitMin, q.commitMin = k → q.committedLog = p.committedLog.take k) :
    Recovers hash init p q := by
  intro env d m hd hm hfills
  have hle := hsync d hd m hm
  obtain ⟨c₁, hc₁, hbooks⟩ :=
    hr.rebuilds ha hs hd hm hle (congrArg StateMachine.replicated hinit) hfills
  have hframe := Replica.rebuildCommittedState_frame hc₁
  have hsound := hr.backed.sound d hd m hm
  obtain ⟨s, hs', hrec, hcore⟩ := Replica.restart_of_rebuild env hd hm hsound hc₁
  have hmin : s.commitMin = m.commitMin := by
    rw [hcore, hframe]
    rfl
  have htable : s.publishedTable = s.clientTable := by
    have hnone : s.pendingReply = fun _ => false := by rw [hcore]; rfl
    unfold Core.publishedTable
    rw [hnone]
    simp
  have hsbooks : s.books = ⟨c₁.stateMachine.replicated, c₁.clientTable⟩ := by
    unfold Core.books
    rw [htable, hcore]
    rfl
  refine ⟨s, hs', hrec, hmin, fun r hmem clientId requestId result op hev => ?_,
    hbooks.trans (congrArg some hsbooks.symm), htable, fun heq => ?_⟩
  · obtain ⟨m', hm', hop⟩ := hr.backed.answered r hmem clientId requestId result op hev d hd
    cases hm.symm.trans hm'
    rw [hmin]
    exact hop
  · obtain ⟨sm, rs, k, hb⟩ := haq.booked
    have hqbooks := hb.books hq
    have halike : init.replicated = (sm.initInPlace seed).replicated := by
      rw [hinit]
      exact StateMachine.replicated_initInPlace mem sm seed
    rw [hlog _ hle heq, ← booksOf_alike halike hfills, hbooks] at hqbooks
    rw [hsbooks]
    exact Option.some.inj hqbooks

theorem Moves.keepsCommitted {n r : ℕ} {cs cs' : ℕ → Core}
    (h : Moves hash n allow (fun c => c.replicaId ≠ r) cs cs') (hs : AllSane hash n cs)
    (hr : r < n) (hp : Solid (cs r)) : KeepsCommitted (cs r) (cs' r) := by
  refine h.single ⟨le_rfl, fun _ _ => rfl⟩
    (fun inp c' _ h => h.keepsCommitted (hs.sane r hr) hp) fun c₀ c' hsafe _ _ => ?_
  exact absurd (hs.member r hr).id hsafe

theorem Cluster.restorable_twice {n : ℕ} (k : ClusterConfig n) {r : ℕ} (hr : r < n)
    {mem : StateMachine} {seed : UInt64} (hdisk : (k.cfg r).disk = some {})
    (hinit : (k.cfg r).stateMachine = mem.initInPlace seed) {acts more : List Action}
    (hrun : Execution.Along (step hash) (Keeps [.unlinked] fun _ => True) (start k) acts)
    (hmore : Execution.Along (step hash) (Keeps [.unlinked] fun c => c.replicaId ≠ r)
      (run hash (start k) acts) more)
    (hup : ((run hash (start k) acts).procs r).stopped = false)
    (hup' : ((run hash (start k) (acts ++ more)).procs r).stopped = false) :
    let x := ((run hash (start k) acts).replica r).toCore
    let y := ((run hash (start k) (acts ++ more)).replica r).toCore
    (SlotOk hash x ∧ Restorable hash x ∧ Accounted seed x) ∧
      (SlotOk hash y ∧ Restorable hash y ∧ Accounted seed y) ∧ KeepsCommitted x y := by
  intro x y
  have hblank : ∀ d ∈ (k.cfg r).disk, d = {} := fun d hd => Option.some.inj (hd.symm.trans hdisk)
  obtain ⟨cs, hcs, hs, hre⟩ := Cluster.invariant k (fun _ _ _ h => h)
    (I := fun cs => Restorable hash (cs r) ∧ Accounted seed (cs r))
    ⟨start_restorable hblank, start_accounted hinit⟩
    (fun cs cs' hs hre h => ⟨h.restorable (by simp) hs hr hre.1,
      h.accounted hs hr hre.1.solid hre.2⟩) hrun
  have hx : cs r = x := (hcs.procs r hr).running hup
  have hkept : KeepsCommitted x (cs r) := by
    rw [hx]
    exact ⟨le_rfl, fun _ _ => rfl⟩
  obtain ⟨cs', hcs', hs', hre', hkeep⟩ := hcs.invariant hs
    (I := fun cs' => (Restorable hash (cs' r) ∧ Accounted seed (cs' r)) ∧ KeepsCommitted x (cs' r))
    ⟨hre, hkept⟩ (fun c c' h hne => by rwa [h.replicaId] at hne)
    (fun cs cs' hs hI h => ⟨⟨h.restorable (by simp) hs hr hI.1.1,
      h.accounted hs hr hI.1.1.solid hI.1.2⟩,
      hI.2.trans (h.keepsCommitted hs hr hI.1.1.solid)⟩) hmore
  have hy : cs' r = y := by
    have hrun' : run hash (start k) (acts ++ more) = run hash (run hash (start k) acts) more :=
      List.foldl_append
    refine ((hcs'.procs r hr).running ?_).trans ?_
    · rw [← hrun']
      exact hup'
    · show _ = ((run hash (start k) (acts ++ more)).replica r).toCore
      rw [hrun']
      rfl
  have hslots := (hs.sane r hr).slots
  have hslots' := (hs'.sane r hr).slots
  rw [hx] at hre hslots
  rw [hy] at hre' hkeep hslots'
  exact ⟨⟨hslots, hre⟩, ⟨hslots', hre'⟩, hkeep⟩

/-- While no entry is taken over that does not link to the log, a replica that loses its
process is rebuilt, and to the state it had, or will have had, with as much committed. -/
theorem recovery_refines_run {n : ℕ} (k : ClusterConfig n) (r : ℕ) (hr : r < n)
    (hdisk : (k.cfg r).disk = some {}) (mem : StateMachine) (seed : UInt64)
    (hinit : (k.cfg r).stateMachine = mem.initInPlace seed) (acts more : List Action)
    (hrun : Execution.Along (Cluster.step hash) (Cluster.Keeps [.unlinked] fun _ => True)
      (Cluster.start k) acts)
    (hmore : Execution.Along (Cluster.step hash)
      (Cluster.Keeps [.unlinked] fun c => c.replicaId ≠ r)
      (Cluster.run hash (Cluster.start k) acts) more)
    (hup : ((Cluster.run hash (Cluster.start k) acts).procs r).stopped = false)
    (hup' : ((Cluster.run hash (Cluster.start k) (acts ++ more)).procs r).stopped = false) :
    let x := (Cluster.run hash (Cluster.start k) acts).replica r
    let y := (Cluster.run hash (Cluster.start k) (acts ++ more)).replica r
    Recovers hash (k.cfg r).stateMachine x y ∧ Recovers hash (k.cfg r).stateMachine y x := by
  intro x y
  obtain ⟨⟨hslots, hx, hax⟩, ⟨hslots', hy, hay⟩, hkeep⟩ :=
    Cluster.restorable_twice k hr hdisk hinit hrun hmore hup hup'
  have hsolid := hx.solid
  have hsolid' := hy.solid
  have hwhole : ∀ {c : Core}, Solid c → c.committedLog.take c.commitMin = c.committedLog :=
    fun hp => List.take_of_length_le hp.log_length.le
  refine ⟨hx.recovers hax hsolid' hay hslots (Cluster.commitSynced k acts r hr hup) hinit ?_,
    hy.recovers hay hsolid hax hslots' (Cluster.commitSynced k _ r hr hup') hinit ?_⟩
  · -- the later state has committed as much as the disk held before
    rintro j hj rfl
    rw [← hwhole hsolid']
    exact hkeep.log_take hsolid hsolid' hj
  · rintro j hj rfl
    rw [hkeep.log_take hsolid hsolid' le_rfl, hwhole hsolid]

/-- A replica alone is rebuilt after its first commit to what it still has one request
later. -/
theorem recovery_refines_run_alone :
    let x := (Cluster.run pairingHash (Cluster.start (.uniform 1 (by decide) true))
      [.request 0 1 1, .tick 0 1]).replica 0
    let y := (Cluster.run pairingHash (Cluster.start (.uniform 1 (by decide) true))
      ([.request 0 1 1, .tick 0 1] ++ [.request 0 2 2])).replica 0
    ∃ s, x.restart pairingHash { now := 2 } = some s ∧ s.commitMin = 1 ∧ s.books = y.books := by
  intro x y
  obtain ⟨hx, -⟩ : Recovers pairingHash blankStateMachine x y ∧
      Recovers pairingHash blankStateMachine y x :=
    recovery_refines_run _ 0 (by decide) rfl blankStateMachine 1 rfl _ _ (by decide +kernel)
      (by decide +kernel) (by decide +kernel) (by decide +kernel)
  have hmeta : (x.disk.bind (·.metadata)).map (·.commitMin) = some 1 := by decide +kernel
  obtain ⟨m, hm, hmin⟩ := Option.map_eq_some_iff.mp hmeta
  obtain ⟨d, hd, hdm⟩ := Option.bind_eq_some_iff.mp hm
  have hfills : Fills blankStateMachine (x.committedLog.take 1) = true := by decide +kernel
  obtain ⟨s, hs, -, hcommit, -, -, -, hbooks⟩ := hx { now := 2 } d m hd hdm
    (by rw [hmin]; exact hfills)
  exact ⟨s, hs, hcommit.trans hmin, hbooks (by rw [hmin]; decide +kernel)⟩

/-- A hash of everything but the command. -/
def plainHash : Hash := fun x =>
  Nat.pair (Nat.pair x.parentChecksum x.viewNumber)
    (Nat.pair (Nat.pair x.opNumber x.clientId) x.requestId) + 1

/-- A request of client 7 to replica 0. -/
def Action.ask (requestId : ℕ) (command : Command) : Action :=
  .call 0 (.request { clientId := 7, requestId, command }) { now := 0 }

/-- The first id the orchestrator draws. -/
def firstId : ℕ := (Prng.init 1).next.1.toNat

/-- Two ways a rebuild departs from the run. Replica 2 is sent committed ops by a leader
that chose its view anew after a crash; they do not link to its log, and once they are synced
it does not start again. A replica alone scales up a deleted deployment, which claims a pod
slot and fills it later; the rebuilt tables have the later pod twice. -/
theorem recovery_departs :
    (let k := Cluster.run pairingHash (Cluster.start (.uniform 3 (by decide) true))
      [.tick 2 1, .tick 2 2001, .receive 2 3 1 2002, .receive 2 2 0 2003, .receive 1 2 2 2004,
        .receive 2 6 1 2005, .tick 1 2006, .receive 1 7 2 2007, .tick 2 2008, .receive 2 9 1 2009,
        .tick 1 2010, .request 1 2011 1, .tick 1 2012, .receive 1 12 2 2012, .lose 1 2013,
        .receive 0 3 1 2014, .receive 2 6 1 2014, .tick 1 2015, .receive 1 15 0 2016, .tick 0 2017,
        .receive 0 6 1 2018, .tick 1 2019, .request 1 2020 2, .request 1 2020 3, .tick 1 2020,
        .receive 1 20 0 2021, .receive 1 22 0 2021, .tick 0 2022, .receive 0 8 1 2023,
        .receive 0 9 1 2023, .tick 1 2600, .receive 1 27 2 2601, .tick 2 2602, .receive 2 11 1 2603,
        .receive 1 31 2 2604, .receive 1 27 2 2605, .tick 2 2606]
    (k.procs 2).stopped = false ∧ ((k.replica 2).disk.bind (·.metadata)).isSome = true ∧
      ((k.replica 2).restart pairingHash { now := 2607 }).isNone = true) ∧
    (let k := Cluster.run plainHash (Cluster.start (.uniform 1 (by decide) true))
      [.ask 1 (.createDeployment { replicas := 0 }), .tick 0 1, .ask 2 (.deleteDeployment firstId),
        .tick 0 2, .ask 3 (.scaleDeployment firstId 1), .tick 0 3, .ask 4 (.createDeployment {}),
        .tick 0 4]
    (k.procs 0).stopped = false ∧
      ((k.replica 0).commitMin, (k.replica 0).stateMachine.pods.length) = (4, 1) ∧
      ((k.replica 0).restart plainHash { now := 5 }).map
        (fun s => (s.commitMin, s.stateMachine.pods.length)) = some (4, 2)) := by
  decide +kernel

end Hivemind
