import Hivemind.Books
import Hivemind.Durable
import Hivemind.Whole

/-! What a replica can be rebuilt from: the committed prefix is linked, the synced disk
holds the part of it that the synced metadata names, and nothing was answered beyond. -/
namespace Hivemind

open Relation Core

variable {hash : Hash} {inp : Input} {allow : Hazard → Prop} {c c₁ c' : Core} {e : LogEntry}
  {sm : StateMachine} {rs : List Result}

/-! ### Replaying the journal -/

/-- A replay that succeeds has executed linked entries and posted their results. -/
theorem Replica.replay_posts : ∀ {ops : List ℕ} {parent : ℕ} {c c' : Core},
    replay hash ops parent c = some c' → ∃ es rs tip, ops.map c.journalGet = es.map some ∧
      Linked parent es tip ∧
      Replay.run StateMachine.applyEntry c.stateMachine es = some (c'.stateMachine, rs) ∧
      c'.clientTable = (postings es rs).foldl postRow c.clientTable
  | [], parent, c, c', h => by
    cases h
    exact ⟨[], [], parent, rfl, rfl, rfl, rfl⟩
  | op :: rest, parent, c, c', h => by
    unfold replay at h
    split at h
    · cases h
    next e he =>
    split at h
    · cases h
    split at h
    · cases h
    next hparent =>
    split at h
    · cases h
    next sm result happly =>
    split at h
    · cases h
    next c₁ hc₁ =>
      obtain ⟨es, rs, tip, hget, hlinked, hrun, htable⟩ := replay_posts h
      rw [updateClientTable_row hc₁] at hget hrun htable
      have hop := opNumber_of_journalGet he
      refine ⟨e :: es, result :: rs, tip, ?_, ⟨not_not.mp hparent, hlinked⟩, ?_, ?_⟩
      · rw [List.map_cons, List.map_cons, he]
        exact congrArg _ hget
      · exact Replay.run_cons.mpr ⟨sm, result, rs, happly, hrun, rfl⟩
      · rw [htable, ← hop]
        rfl

theorem Replica.rebuild_posts {target : ℕ}
    (h : rebuildCommittedState hash c target = some c') : ∃ es rs tip,
      (opsAbove 0 target).map c.journalGet = es.map some ∧ Linked 0 es tip ∧
      Replay.run StateMachine.applyEntry (c.stateMachine.initInPlace c.stateMachine.seed) es =
        some (c'.stateMachine, rs) ∧
      c'.clientTable = tableOf (postings es rs) := replay_posts h

theorem Replica.replay_of_run : ∀ {es : List LogEntry} {parent tip : ℕ} {c : Core}
    {rs : List Result}, (∀ e ∈ es, c.journalGet e.opNumber = some e ∧ e.valid hash = true) →
    Linked parent es tip →
    Replay.run StateMachine.applyEntry c.stateMachine es = some (sm, rs) →
    c.clientTable.length + es.length ≤ clientTableMax →
      replay hash (es.map (·.opNumber)) parent c = some
        { c with
          stateMachine := sm
          clientTable := (postings es rs).foldl postRow c.clientTable }
  | [], _, _, c, rs, _, _, hrun, _ => by
    cases hrun
    rfl
  | e :: es, parent, tip, c, rs, hes, hlinked, hrun, hfit => by
    obtain ⟨sm₁, r, rs', happly, hrest, rfl⟩ := Replay.run_cons.mp hrun
    obtain ⟨hget, hvalid⟩ := hes e (by simp)
    have happly' : c.stateMachine.apply e.command = some (sm₁, r) := happly
    rw [List.length_cons] at hfit
    rw [List.map_cons, replay, hget]
    dsimp only
    rw [hvalid, Bool.not_true, if_neg (by decide), if_neg (not_not.mpr hlinked.1), happly']
    dsimp only
    have hroom : ({ c with stateMachine := sm₁ } : Core).clientTable.length < clientTableMax := by
      show c.clientTable.length < clientTableMax
      omega
    rw [updateClientTable_fits _ _ _ _ hroom]
    refine replay_of_run (fun e' he' => hes e' (by simp [he'])) hlinked.2 hrest ?_
    have := postRow_length c.clientTable (posting e r)
    show (postRow c.clientTable (posting e r)).length + es.length ≤ clientTableMax
    omega

/-! ### Links -/

/-- The committed entries are linked; all entries are while the log is that of a view. -/
structure Threaded (c : Core) : Prop where
  committed : ∀ op e, op ≤ c.commitMin → c.journalGet op = some e → c.linkHolds e = true
  all : c.Settled → c.Chained

/-- Outside a settled log only the opening of a view moves anything. -/
theorem Act.unsettled (h : Act hash inp allow c c') (hset : ¬ c.Settled) :
    (∃ c₁, c.Selecting ∧ c.Placed hash c₁ ∧ c' = c₁.openView) ∨
      (¬ c'.Settled ∧ c'.commitMin = c.commitMin) := by
  have hnormal : c.status ≠ .normal := fun h => hset (.inl h)
  have hidle : c.pendingStartView.active ≠ true := fun h => hset (.inr h)
  cases h with
  | view h =>
    cases h with
    | enter =>
      refine .inr ⟨?_, rfl⟩
      rintro (h | h)
      · cases h
      · exact hidle h
    | place hsel h =>
      rw [h.frame]
      exact .inr ⟨hset, rfl⟩
    | openView hsel h => exact .inl ⟨_, hsel, h, rfl⟩
    | _ => exact .inr ⟨hset, rfl⟩
  | commit h =>
    cases h with
    | execute hst => exact absurd hst hset
    | votes hst => exact absurd hst hnormal
    | follow => exact .inr ⟨hset, rfl⟩
  | append hst => exact absurd hst hnormal
  | accept hst => exact absurd hst hnormal
  | fillGap hst => exact absurd hst hnormal
  | adopt _ _ _ hst => exact absurd hst hnormal
  | fillHole _ _ _ hst => exact absurd hst hnormal
  | begin hact => exact absurd hact hidle
  | settle hact => exact absurd hact hidle
  | close hact => exact absurd hact hidle
  | _ => exact .inr ⟨hset, rfl⟩

theorem Act.threaded (h : Act hash inp allow c c') (hno : ¬ allow .unlinked) (hs : Sane hash c)
    (hp : Solid c) (hheard : ¬ inp.Silent → 1 < c.replicaCount) (ht : Threaded c) :
    Threaded c' := by
  have hof : c'.Chained → Threaded c' := fun hc => ⟨fun op e _ => hc op e, fun _ => hc⟩
  by_cases hset : c.Settled
  · exact hof (h.chained hno hs hp (ht.all hset) fun hm => hp.full hset (hheard hm))
  rcases h.unsettled hset with ⟨c₁, hsel, hpl, rfl⟩ | ⟨hset', hmin⟩
  · obtain ⟨parent, l, tip, hplace⟩ := hpl.placement hs hsel
    have hc := chained_of_placement hplace ht.committed
    refine hof ?_
    rw [openView_frame]
    exact hc.congr fun _ => rfl
  · have hkeep := h.keepsCommitted hs hp
    refine ⟨fun op e hop he => ?_, fun h => absurd h hset'⟩
    rw [hmin] at hop
    rw [hkeep.get op hop] at he
    have hop' := opNumber_of_journalGet he
    rw [linkHolds_congr (hkeep.get _ (by omega))]
    exact ht.committed op e hop he

/-! ### Bounds -/

/-- The numbers a barrier writes are in order. -/
structure Ordered (c : Core) : Prop where
  view : viewNumberValid c.viewNumber = true
  commit : c.commitMin ≤ c.commitMax
  op : c.opNumber ≤ logSizeMax
  max : c.pendingStartView.active = false ∨ c.status = .normal → c.commitMax ≤ c.opNumber
  entered : c.pendingStartView.active = true → c.status ≠ .viewChange →
    c.pendingStartView.commitMin ≤ c.commitMin

theorem Act.ordered (h : Act hash inp allow c c') (hs : Sane hash c) (hp : Solid c)
    (ho : Ordered c) : Ordered c' := by
  cases h with
  | view h =>
    cases h with
    | enter _ hval hact =>
      exact { ho with
        view := hval
        max := fun _ => ho.max (.inl hact)
        entered := fun h => absurd (hact.symm.trans h) (by decide) }
    | place _ h =>
      rw [h.frame]
      exact { ho with }
    | openView hsel h =>
      obtain ⟨parent, l, tip, hpl⟩ := h.placement hs hsel
      have hfr := h.frame
      rw [openView_frame, hfr]
      refine ⟨ho.view, ho.commit, hpl.cap, fun hor => ?_, fun _ hst => absurd hsel.status hst⟩
      rcases hor with hact | hst
      · cases hact
      · exact absurd (hst.symm.trans hsel.status) (by decide)
    | _ => exact { ho with }
  | commit h =>
    cases h with
    | votes hst _ hlt =>
      exact { ho with
        commit := ho.commit.trans (le_max_left _ _)
        max := fun hor => max_le (ho.max hor) hlt }
    | follow =>
      exact { ho with
        commit := ho.commit.trans (le_max_left _ _)
        max := fun hor => max_le (ho.max hor) (min_le_right _ _) }
    | execute _ hle =>
      exact { ho with
        commit := hle
        entered := fun hact hst => (ho.entered hact hst).trans (Nat.le_succ _) }
  | append hst _ hcap =>
    exact { ho with
      op := hcap
      max := fun _ => (ho.max (.inr hst)).trans (Nat.le_succ _) }
  | accept hst _ hnext hcap =>
    exact { ho with
      op := hcap
      max := fun _ => (ho.max (.inr hst)).trans ((Nat.le_succ _).trans hnext.ge) }
  | @adopt src m _ _ _ hst _ _ hcap =>
    exact { ho with
      op := max_le ho.op hcap
      max := fun _ => (ho.max (.inr hst)).trans (le_max_left _ _) }
  | begin hact hchain =>
    have hok := pendingOk hact hchain
    refine ⟨?_, ho.commit.trans (le_max_left _ _), hok.op.ge.trans ho.op, fun hor => ?_,
      fun _ hst => absurd hok.status hst⟩
    · show viewNumberValid c.pendingStartView.targetView = true
      rw [(hs.pending hact).1]
      exact ho.view
    rcases hor with hno | hst
    · exact absurd (hact.symm.trans hno) (by decide)
    · exact absurd (hst.symm.trans hok.status) (by decide)
  | settle hact _ _ _ hcommit =>
    exact { ho with
      commit := le_rfl
      max := fun _ => hp.commit_le (.inr hact)
      entered := fun _ _ => hcommit.ge }
  | close _ hst =>
    exact { ho with
      max := fun _ => ho.max (.inr hst)
      entered := fun h => by cases h }
  | _ => exact { ho with }

theorem Ordered.sound (ho : Ordered c) (hs : Sane hash c)
    (hchain : c.pendingStartViewChainOk hash = true) :
    Replica.metadataSound c.metadataToPersist = true := by
  have hview := ho.view
  have hop := ho.op
  unfold metadataToPersist
  split
  · next hact =>
    have hok := pendingOk hact hchain
    obtain ⟨htarget, hlast⟩ := hs.pending hact
    have hbound := hok.bound
    have heq := hok.op
    simp only [Replica.metadataSound, Bool.and_eq_true, Bool.not_eq_true',
      decide_eq_false_iff_not, not_lt]
    exact ⟨⟨⟨⟨htarget ▸ hview, le_rfl⟩, hbound⟩, by omega⟩, by omega⟩
  · next hact =>
    have hmax := ho.max (.inl (by simpa using hact))
    simp only [Replica.metadataSound, Bool.and_eq_true, Bool.not_eq_true',
      decide_eq_false_iff_not, not_lt]
    exact ⟨⟨⟨⟨hview, ho.commit⟩, hmax⟩, hop⟩, hs.views⟩

/-! ### The synced prefix -/

/-- A transition leaves the synced disk alone, or is a barrier. -/
inductive DiskStep (hash : Hash) (inp : Input) (c c' : Core) : Prop where
  | same (h : ∀ d' ∈ c'.disk, ∃ d ∈ c.disk, d'.durable = d.durable ∧ d'.metadata = d.metadata)
  | synced {d₀ d : Disk} (h : Synced c d₀ d) (hchain : c.pendingStartViewChainOk hash = true)
      (hinp : inp.mayFlush = true) (heq : c' = c.afterSync d)

theorem Act.diskStep (h : Act hash inp allow c c') (hs : Sane hash c) (hd : DiskOk hash c) :
    DiskStep hash inp c c' := by
  have hsame : c'.disk = c.disk → DiskStep hash inp c c' :=
    fun heq => .same fun d hd => ⟨d, heq ▸ hd, rfl, rfl⟩
  cases h with
  | view h => exact hsame (PublishAct.view h).2.1
  | commit h => exact hsame (by rw [h.frame])
  | arm =>
    refine .same fun d hd => ?_
    obtain ⟨d₀, hd₀, rfl⟩ := Option.map_eq_some_iff.mp hd
    exact ⟨d₀, hd₀, rfl, rfl⟩
  | sync h hinp =>
    obtain ⟨d₀, hsy⟩ := h.synced hs hd
    exact .synced hsy h.chain hinp rfl
  | fail hd₀ hdur hmeta =>
    refine .same fun d hd => ?_
    cases hd
    exact ⟨_, hd₀, hdur, hmeta⟩
  | _ => exact hsame rfl

theorem Act.journal_pending (h : Act hash inp allow c c') (hact : c.pendingStartView.active = true)
    (hst : c.status = .viewChange) : c'.journal = c.journal := by
  have hnormal : c.status ≠ .normal := by rw [hst]; decide
  have hno : ¬ c.Selecting := not_selecting_of_active hact
  cases h with
  | view h =>
    cases h with
    | place hsel => exact absurd hsel hno
    | openView hsel => exact absurd hsel hno
    | _ => rfl
  | commit h => rw [h.frame]
  | append hst => exact absurd hst hnormal
  | accept hst => exact absurd hst hnormal
  | fillGap hst => exact absurd hst hnormal
  | adopt _ _ _ hst => exact absurd hst hnormal
  | fillHole _ _ _ hst => exact absurd hst hnormal
  | _ => rfl

/-- The synced disk holds the committed entries its metadata names, and nothing was
answered beyond them. -/
structure Backed (c : Core) : Prop where
  held : ∀ d ∈ c.disk, ∀ m ∈ d.metadata, ∀ op, 0 < op → op ≤ m.commitMin →
    ∃ e, c.journalGet op = some e ∧ d.durable (journalSlot op) = some e
  sound : ∀ d ∈ c.disk, ∀ m ∈ d.metadata, Replica.metadataSound m = true
  answered : ∀ r ∈ c.history, ∀ clientId requestId result op,
    r.event = .replied clientId requestId result (some op) →
      ∀ d ∈ c.disk, ∃ m ∈ d.metadata, op ≤ m.commitMin

theorem Act.keepsSaved (h : Act hash inp allow c c') (hs : Sane hash c) (hp : Solid c)
    (ho : Ordered c) {k op : ℕ} (hk : k ≤ c.commitToPersist) (hop : op ≤ k) :
    c'.journalGet op = c.journalGet op := by
  by_cases hpend : c.pendingStartView.active = true ∧ c.status = .viewChange
  · rw [journalGet, h.journal_pending hpend.1 hpend.2]
    rfl
  · refine (h.keepsCommitted hs hp).get op (hop.trans (hk.trans ?_))
    unfold commitToPersist
    split
    · next hact => exact ho.entered hact fun hst => hpend ⟨hact, hst⟩
    · exact le_rfl

theorem Synced.held {d₀ d : Disk} {op : ℕ} (h : Synced c d₀ d) (hm : Marked c)
    (hhas : c.journalHas op = true) :
    ∃ e, c.journalGet op = some e ∧ d.durable (journalSlot op) = some e := by
  obtain ⟨e, he⟩ := journalHas_iff.mp hhas
  obtain ⟨-, hslot, -⟩ := journalGet_eq_some.mp he
  refine ⟨e, he, ?_⟩
  rw [h.durable]
  split
  · exact hslot
  · next hdirty =>
    exact hm.synced d₀ h.before _ e hslot (by simpa using hdirty)

theorem Emits.answered {ev : Event} {snap : Snapshot} (h : Emits hash inp c ev snap)
    (hc : CommitSaved c) {clientId requestId op : ℕ} {result : Result}
    (hev : ev = .replied clientId requestId result (some op)) :
    ∀ d ∈ c.disk, ∃ m ∈ d.metadata, op ≤ m.commitMin := by
  intro d hd
  cases h with
  | replayed h =>
    cases h with
    | replay hx =>
      cases hev
      exact hc.table _ (List.mem_of_find?_eq_some hx) d hd
    | logFull => cases hev
  | executed hpos hle hdirty hup =>
    cases hev
    obtain ⟨m, hm, hcommit⟩ := hc.commit hup hdirty (by omega) d hd
    exact ⟨m, hm, hle.trans hcommit⟩
  | _ => cases hev

theorem Act.backed (h : Act hash inp allow c c') (hs : Sane hash c) (hsafe : Stored hash c)
    (ho : Ordered c) (hlone : c.replicaCount = 1 → c.pendingStartView.active = false)
    (hb : Backed c) : Backed c' := by
  cases h.diskStep hs hsafe.diskOk with
  | same hsame =>
    refine ⟨fun d' hd' m hm op hpos hop => ?_, fun d' hd' m hm => ?_,
      fun r hr clientId requestId result op hev d' hd' => ?_⟩
    all_goals obtain ⟨d, hd, hdur, hmeta⟩ := hsame d' hd'
    · rw [hmeta] at hm
      obtain ⟨e, he, hslot⟩ := hb.held d hd m hm op hpos hop
      have hk := hsafe.commit.bound d hd m hm
      exact ⟨e, (h.keepsSaved hs hsafe.solid ho hk hop).trans he, hdur ▸ hslot⟩
    · exact hb.sound d hd m (hmeta ▸ hm)
    · rw [hmeta]
      rcases h.grows with hist | ⟨ev, snap, hist, hem⟩
      · exact hb.answered r (hist ▸ hr) clientId requestId result op hev d hd
      · rw [hist] at hr
        rcases List.mem_append.mp hr with hr | hr
        · exact hb.answered r hr clientId requestId result op hev d hd
        · rw [List.mem_singleton.mp hr] at hev
          exact hem.answered hsafe.commit hev d hd
  | @synced d₀ d hsy hok _ heq =>
    subst heq
    refine ⟨fun d' hd' m hm op hpos hop => ?_, fun d' hd' m hm => ?_,
      fun r hr clientId requestId result op hev d' hd' => ?_⟩
    all_goals cases hd'
    · cases hsy.metadata.symm.trans hm
      rw [metadataToPersist_commit] at hop
      refine hsy.held hsafe.marked ?_
      by_cases hle : op ≤ c.commitMin
      · exact hsafe.solid.held op hpos hle
      -- a pending view commits ops it has not executed yet
      have hact : c.pendingStartView.active = true := by
        by_contra hno
        rw [commitToPersist, if_neg hno] at hop
        exact hle hop
      rw [commitToPersist, if_pos hact] at hop
      have hpend := pendingOk hact hok
      have hn : 1 < c.replicaCount := by
        have hpos := hs.count
        by_contra hone
        exact absurd (hact.symm.trans (hlone (by omega))) (by decide)
      exact hsafe.solid.full (.inr hact) hn op hpos (hop.trans (hpend.bound.trans hpend.op.ge))
    · cases hsy.metadata.symm.trans hm
      exact ho.sound hs hok
    · rcases List.mem_append.mp hr with hr | hr
      · obtain ⟨m₀, hm₀, hle⟩ := hb.answered r hr clientId requestId result op hev d₀ hsy.before
        refine ⟨_, hsy.metadata, (hle.trans (hsafe.commit.bound d₀ hsy.before m₀ hm₀)).trans ?_⟩
        exact (metadataToPersist_commit c).ge
      · rw [List.mem_singleton.mp hr] at hev
        cases hev

/-! ### A replica alone -/

/-- The journal of the only replica of a cluster is complete, and so is its disk up to the
synced op number. -/
structure Alone (c : Core) : Prop where
  full : ∀ op, 0 < op → op ≤ c.opNumber → c.journalHas op = true
  reach : ∀ d ∈ c.disk, ∀ m ∈ d.metadata, m.opNumber ≤ c.opNumber
  held : ∀ d ∈ c.disk, ∀ m ∈ d.metadata, ∀ op, 0 < op → op ≤ m.opNumber →
    ∃ e, c.journalGet op = some e ∧ d.durable (journalSlot op) = some e

theorem Act.appends (h : Act hash inp allow c c') (hq : inp.Silent) (hl : Lone c) :
    (c'.journal = c.journal ∧ c'.opNumber = c.opNumber) ∨
      ∃ m, c.opNumber + 1 ≤ logSizeMax ∧ c' = c.appendRequest hash m := by
  have hselecting : ¬ c.Selecting := not_selecting_of_normal hl.status
  have hidle : c.pendingStartView.active ≠ true := by rw [hl.idle]; decide
  cases h with
  | view h =>
    cases h with
    | place hsel => exact absurd hsel hselecting
    | openView hsel => exact absurd hsel hselecting
    | _ => exact .inl ⟨rfl, rfl⟩
  | commit h =>
    rw [h.frame]
    exact .inl ⟨rfl, rfl⟩
  | append _ _ hcap => exact .inr ⟨_, hcap, rfl⟩
  | accept _ _ _ _ h => cases h <;> exact absurd ‹_› (hq _ _)
  | fillGap _ _ _ _ _ h => cases h <;> exact absurd ‹_› (hq _ _)
  | adopt hinp => exact absurd hinp (hq _ _)
  | fillHole hinp => exact absurd hinp (hq _ _)
  | begin hact => exact absurd hact hidle
  | settle hact => exact absurd hact hidle
  | close hact => exact absurd hact hidle
  | _ => exact .inl ⟨rfl, rfl⟩

theorem Act.alone (h : Act hash inp allow c c') (hq : inp.Silent) (hl : Lone c)
    (hs : Sane hash c) (hsafe : Stored hash c) (ha : Alone c) : Alone c' := by
  -- the journal only grows at its end
  have hgrow : c.opNumber ≤ c'.opNumber ∧
      (∀ op, op ≤ c.opNumber → c'.journalGet op = c.journalGet op) ∧
      ∀ op, 0 < op → op ≤ c'.opNumber → c'.journalHas op = true := by
    rcases h.appends hq hl with ⟨hj, hop⟩ | ⟨m, hcap, rfl⟩
    · have hget : ∀ op, c'.journalGet op = c.journalGet op := fun op => by
        rw [journalGet, hj]
        rfl
      refine ⟨hop.ge, fun op _ => hget op, fun op hpos hle => ?_⟩
      rw [journalHas, hget]
      exact ha.full op hpos (by omega)
    · let c₀ : Core := { c with opNumber := c.opNumber + 1 }
      let e := c₀.requestEntry hash m
      have hfree := hsafe.solid.free (e := e) hs.slots (.inl hl.status) (Nat.lt_succ_self _) hcap
      have hget : ∀ op, (c.appendRequest hash m).journalGet op =
          if op = c.opNumber + 1 then some e else c.journalGet op := by
        intro op
        show (c₀.journalPutInternal e false).journalGet op = _
        rw [journalGet_put (c := c₀) hs.slots]
        simp only [putAccepts_of_free (c := c₀) (e := e) (b := false) (Nat.succ_pos _) hcap hfree,
          true_and]
        rfl
      refine ⟨Nat.le_succ _, fun op hop => ?_, fun op hpos hle => ?_⟩
      · rw [hget, if_neg (by omega)]
      · have hle' : op ≤ c.opNumber + 1 := hle
        rw [journalHas, hget]
        split
        · rfl
        · exact ha.full op hpos (by omega)
  obtain ⟨hle, hkeep, hfull⟩ := hgrow
  cases h.diskStep hs hsafe.diskOk with
  | same hsame =>
    refine ⟨hfull, fun d' hd' m hm => ?_, fun d' hd' m hm op hpos hop => ?_⟩
    all_goals
      obtain ⟨d, hd, hdur, hmeta⟩ := hsame d' hd'
      rw [hmeta] at hm
    · exact (ha.reach d hd m hm).trans hle
    · obtain ⟨e, he, hslot⟩ := ha.held d hd m hm op hpos hop
      exact ⟨e, (hkeep op (hop.trans (ha.reach d hd m hm))).trans he, hdur ▸ hslot⟩
  | @synced d₀ d hsy _ _ heq =>
    subst heq
    have hop : c.metadataToPersist.opNumber = c.opNumber := by
      rw [metadataToPersist, if_neg (by rw [hl.idle]; decide)]
    refine ⟨hfull, fun d' hd' m hm => ?_, fun d' hd' m hm op hpos hle => ?_⟩
    all_goals
      cases hd'
      cases hsy.metadata.symm.trans hm
    · exact hop.le
    · exact hsy.held hsafe.marked (ha.full op hpos (hop ▸ hle))

/-! ### Seeds -/

theorem run_seed {init : StateMachine} {es : List LogEntry}
    (h : Replay.run StateMachine.applyEntry init es = some (sm, rs)) : sm.seed = init.seed := by
  induction es generalizing init rs with
  | nil =>
    cases h
    rfl
  | cons e es ih =>
    obtain ⟨sm₁, r, rs', happly, hrun, -⟩ := Replay.run_cons.mp h
    exact (ih hrun).trans (StateMachine.apply_seed happly)

theorem Act.seed (h : Act hash inp allow c c') :
    c'.stateMachine.seed = c.stateMachine.seed := by
  cases h.posts with
  | same _ hstate =>
    show c'.stateMachine.eraseTicks.seed = _
    rw [hstate]
    rfl
  | executed _ happly heq =>
    rw [heq]
    exact StateMachine.apply_seed happly
  | published h => rw [h.state]

/-! ### Recovered journals -/

theorem recovered_get {d : Disk} {m : DiskMetadata} {op : ℕ} :
    (Replica.recoveredCore hash d.crash m c).journalGet op = some e ↔
      op ≠ 0 ∧ d.durable (journalSlot op) = some e ∧ e.opNumber = op ∧ e.valid hash = true ∧
        op ≤ m.opNumber := by
  rw [journalGet_eq_some]
  show _ ∧ (d.durable (journalSlot op)).filter _ = some e ∧ _ ↔ _
  rw [Option.filter_eq_some_iff]
  simp only [Bool.and_eq_true, decide_eq_true_eq, Bool.not_eq_true', decide_eq_false_iff_not,
    not_lt]
  constructor
  · rintro ⟨h0, ⟨hd, ⟨-, hval⟩, hle⟩, rfl⟩
    exact ⟨h0, hd, rfl, hval, hle⟩
  · rintro ⟨h0, hd, rfl, hval, hle⟩
    exact ⟨h0, ⟨hd, ⟨by omega, hval⟩, hle⟩, rfl⟩

theorem linkHolds_of_linked {k tip : ℕ} {es : List LogEntry} (hl : Linked 0 es tip)
    (hget : ∀ op, 0 < op → op ≤ k → c.journalGet op = es[op - 1]?) :
    ∀ op e, op ≤ k → c.journalGet op = some e → c.linkHolds e = true := by
  intro op e hle he
  have hop := opNumber_of_journalGet he
  have h0 : op ≠ 0 := (journalGet_eq_some.mp he).1
  have hat := (hget op (by omega) hle).symm.trans he
  by_cases h1 : op = 1
  · rw [linkHolds_first (by omega)]
    rw [h1] at hat
    exact hl.back_head hat
  · rw [linkHolds_next (by omega)]
    intro prev hprev
    rw [hop, hget _ (by omega) (by omega)] at hprev
    have hsucc : op - 1 - 1 + 1 = op - 1 := by omega
    exact (hl.back_succ hprev (hsucc.symm ▸ hat)).symm

/-! ### Transitions and restarts together -/

/-- Everything a rebuild after a crash relies on. -/
structure Restorable (hash : Hash) (c : Core) : Prop extends Stored hash c where
  ordered : Ordered c
  threaded : Threaded c
  backed : Backed c
  alone : c.replicaCount = 1 → Alone c

theorem Act.restorable (h : Act hash inp allow c c') (hno : ¬ allow .unlinked)
    (hs : Sane hash c) (hheard : ¬ inp.Silent → 1 < c.replicaCount)
    (hlone : c.replicaCount = 1 → Lone c) (hr : Restorable hash c) : Restorable hash c' where
  toStored := h.stored hs hr.toStored
  ordered := h.ordered hs hr.solid hr.ordered
  threaded := h.threaded hno hs hr.solid hheard hr.threaded
  backed := h.backed hs hr.toStored hr.ordered (fun h1 => (hlone h1).idle) hr.backed
  alone := fun h1 => by
    rw [h.place.2.1] at h1
    have hq : inp.Silent := by
      by_contra hm
      have := hheard hm
      omega
    exact h.alone hq (hlone h1) hs hr.toStored (hr.alone h1)

theorem fresh_restorable {cfg : ReplicaConfig} {hist : List Record}
    (hblank : ∀ d ∈ cfg.disk, d.metadata = none)
    (hanswered : ∀ r ∈ hist, ∀ clientId requestId result op,
      r.event = .replied clientId requestId result (some op) → cfg.disk = none)
    (hstored : Stored hash (Replica.freshState cfg hist).toCore) :
    Restorable hash (Replica.freshState cfg hist).toCore := by
  have hnone : ∀ d ∈ (Replica.freshState cfg hist).disk, ∀ m, ¬ m ∈ d.metadata := by
    intro d hd m hm
    cases (hblank d hd).symm.trans hm
  have hget : ∀ op e, (Replica.freshState cfg hist).journalGet op ≠ some e := by
    intro op e he
    obtain ⟨-, hj, -⟩ := journalGet_eq_some.mp he
    cases hj
  have hview : viewNumberValid 0 = true := by decide
  refine ⟨hstored, ⟨hview, le_rfl, Nat.zero_le _, fun _ => le_rfl, (fun h => by cases h)⟩,
    ⟨fun op e _ he => absurd he (hget op e), fun _ op e he => absurd he (hget op e)⟩,
    ⟨fun d hd m hm => absurd hm (hnone d hd m), fun d hd m hm => absurd hm (hnone d hd m),
      fun r hr clientId requestId result op hev d hd => ?_⟩,
    fun _ => ⟨fun op hpos hle => absurd (Nat.le_zero.mp hle) hpos.ne',
      fun d hd m hm => absurd hm (hnone d hd m), fun d hd m hm => absurd hm (hnone d hd m)⟩⟩
  cases (hanswered r hr clientId requestId result op hev).symm.trans hd

theorem start_restorable {cfg : ReplicaConfig} (hblank : ∀ d ∈ cfg.disk, d = {}) :
    Restorable hash (Replica.freshState cfg []).toCore :=
  fresh_restorable (fun d hd => by rw [hblank d hd]) (fun _ h => by cases h) (start_stored hblank)

theorem Alone.recovered {d : Disk} {m : DiskMetadata} {op : ℕ} (ha : Alone c)
    (hs : SlotOk hash c) (hd : c.disk = some d) (hm : d.metadata = some m) (hle : op ≤ m.opNumber) :
    (Replica.recoveredCore hash d.crash m c₁).journalGet op = c.journalGet op := by
  rcases Nat.eq_zero_or_pos op with rfl | hpos
  · rfl
  obtain ⟨e, he, hslot⟩ := ha.held d hd m hm op hpos hle
  rw [he, recovered_get]
  exact ⟨hpos.ne', hslot, opNumber_of_journalGet he, hs.valid he, hle⟩

theorem rebuilt_frame {d : Disk} {m : DiskMetadata}
    (h : Replica.rebuildCommittedState hash (Replica.recoveredCore hash d m c) m.commitMin =
      some c₁) :
    Replica.settleRecovered c₁ = { Replica.settleRecovered (Replica.recoveredCore hash d m c) with
      stateMachine := c₁.stateMachine
      clientTable := c₁.clientTable } := by
  rw [Replica.rebuildCommittedState_frame h]
  rfl

theorem rebuilt_log {d : Disk} {m : DiskMetadata}
    (h : Replica.rebuildCommittedState hash (Replica.recoveredCore hash d m c) m.commitMin =
      some c₁) :
    ∃ rs tip, Linked 0 (Replica.settleRecovered c₁).committedLog tip ∧
      Replay.run StateMachine.applyEntry (c.stateMachine.initInPlace c.stateMachine.seed)
        (Replica.settleRecovered c₁).committedLog = some (c₁.stateMachine, rs) ∧
      c₁.clientTable = tableOf (postings (Replica.settleRecovered c₁).committedLog rs) := by
  obtain ⟨es, rs, tip, hes, hlinked, hrun, htable⟩ := Replica.rebuild_posts h
  have hlog : (Replica.settleRecovered c₁).committedLog = es := by
    have hmap := congrArg (List.filterMap id) hes
    rw [rebuilt_frame h]
    show List.filterMap (Replica.recoveredCore hash d m c).journalGet (opsAbove 0 m.commitMin) = _
    simpa using hmap
  rw [hlog]
  exact ⟨rs, tip, hlinked, hrun, htable⟩

theorem Core.Restarts.booked (h : c.Restarts hash c') :
    ∃ rs k, Booked (c.stateMachine.initInPlace c.stateMachine.seed) rs k c' := by
  have hsolid := h.solid
  cases h with
  | blank => exact ⟨[], 0, blank_booked (c := c.reborn) rfl rfl⟩
  | @recovered d m c₁ hd hm _ h =>
    obtain ⟨rs, tip, -, hrun, htable⟩ := rebuilt_log h
    have hmin : (Replica.settleRecovered c₁).commitMin = m.commitMin := by
      rw [rebuilt_frame h]
      rfl
    have hrows : (postings (Replica.settleRecovered c₁).committedLog rs).length = m.commitMin := by
      rw [postings, List.length_zipWith, Replay.run_length hrun, min_self, hsolid.log_length, hmin]
    refine ⟨rs, m.commitMin, hsolid.log_length, ⟨c₁.stateMachine, hrun, rfl⟩, hmin.ge, ?_,
      fun op _ hle => ?_, fun op hlt hle => absurd hle (by omega)⟩
    · rw [List.take_of_length_le hrows.le]
      exact htable
    · exact ⟨fun h => (by cases h), fun h => absurd hle (by omega)⟩

theorem recovered_restorable {d : Disk} {m : DiskMetadata}
    (hr : Restorable hash c) (hs : SlotOk hash c) (hcount : 0 < c.replicaCount)
    (hd : c.disk = some d)
    (hm : d.metadata = some m) (hsound : Replica.metadataSound m = true)
    (h : Replica.rebuildCommittedState hash
      (Replica.recoveredCore hash d.crash m c.reborn) m.commitMin = some c₁)
    (hlone : c.replicaCount = 1 → c.status = .normal)
    (hstored : Stored hash (Replica.settleRecovered c₁)) :
    Restorable hash (Replica.settleRecovered c₁) := by
  let R := Replica.recoveredCore hash d.crash m c.reborn
  obtain ⟨-, tip, hlinked, -⟩ := rebuilt_log h
  have hframe := rebuilt_frame h
  have hmin : (Replica.settleRecovered c₁).commitMin = m.commitMin := by
    rw [hframe]
    rfl
  have hop : (Replica.settleRecovered c₁).opNumber = m.opNumber := by
    rw [hframe]
    rfl
  have hdisk : (Replica.settleRecovered c₁).disk = some d.crash := by
    rw [hframe]
    show c.disk.map Disk.crash = _
    rw [hd]
    rfl
  have hget : (Replica.settleRecovered c₁).journalGet = R.journalGet := by
    funext op
    rw [hframe]
    rfl
  have hhist : (Replica.settleRecovered c₁).history = c.history := by
    rw [hframe]
    rfl
  simp only [Replica.metadataSound, Bool.and_eq_true, Bool.not_eq_true',
    decide_eq_false_iff_not, not_lt] at hsound
  obtain ⟨⟨⟨⟨hview, hcommit⟩, hmax⟩, hcap⟩, -⟩ := hsound
  have hordered : Ordered (Replica.settleRecovered c₁) := by
    rw [hframe]
    exact ⟨hview, hcommit, hcap, fun _ => hmax, (fun h => by cases h)⟩
  have hthreaded : Threaded (Replica.settleRecovered c₁) := by
    refine ⟨linkHolds_of_linked hlinked fun op hpos hle => (hstored.solid.log_get hpos hle).symm,
      fun hset op e he => ?_⟩
    -- only a replica alone is normal at once
    have h1 : c.replicaCount = 1 := by
      by_contra hne
      have hst : (Replica.settleRecovered c₁).status = .viewChange := by
        rw [hframe]
        exact if_pos (show c.replicaCount > 1 by have := hcount; omega)
      have hact : (Replica.settleRecovered c₁).pendingStartView.active = false := by
        rw [hframe]
        rfl
      rcases hset with h | h
      · exact absurd (h.symm.trans hst) (by decide)
      · exact absurd (h.symm.trans hact) (by decide)
    have hle := (recovered_get.mp (hget ▸ he)).2.2.2.2
    have hold := hr.alone h1
    have he' := he
    rw [hget, hold.recovered hs hd hm hle] at he'
    have hlink := hr.threaded.all (.inl (hlone h1)) op e he'
    have hop' := opNumber_of_journalGet he'
    rw [linkHolds_congr (c := c), hlink]
    rw [hget]
    exact hold.recovered hs hd hm (by omega)
  have hbacked : Backed (Replica.settleRecovered c₁) := by
    refine ⟨?_, ?_, ?_⟩
    all_goals rw [hdisk]
    · rintro d' ⟨⟩ m' hm' op hpos hle
      cases hm.symm.trans hm'
      obtain ⟨e, he⟩ := journalHas_iff.mp (hstored.solid.held op hpos (hle.trans hmin.ge))
      exact ⟨e, he, (recovered_get.mp (hget ▸ he)).2.1⟩
    · rintro d' ⟨⟩
      exact hr.backed.sound d hd
    · rw [hhist]
      rintro r hr' clientId requestId result op hev d' ⟨⟩
      exact hr.backed.answered r hr' clientId requestId result op hev d hd
  refine ⟨hstored, hordered, hthreaded, hbacked, fun h1 => ?_⟩
  have h1' : c.replicaCount = 1 := by
    rw [hframe] at h1
    exact h1
  have hold := hr.alone h1'
  have hheld : ∀ op, 0 < op → op ≤ m.opNumber →
      ∃ e, (Replica.settleRecovered c₁).journalGet op = some e ∧
        d.durable (journalSlot op) = some e := by
    intro op hpos hle
    rw [hget, hold.recovered hs hd hm hle]
    exact hold.held d hd m hm op hpos hle
  refine ⟨fun op hpos hle => ?_, ?_, ?_⟩
  · obtain ⟨e, he, -⟩ := hheld op hpos (hop ▸ hle)
    exact journalHas_iff.mpr ⟨e, he⟩
  · rw [hdisk]
    rintro d' ⟨⟩ m' hm'
    cases hm.symm.trans hm'
    exact hop.ge
  · rw [hdisk]
    rintro d' ⟨⟩ m' hm'
    cases hm.symm.trans hm'
    exact hheld

theorem Core.Restarts.restorable (h : c.Restarts hash c') (hs : Sane hash c)
    (hok : DiskOk hash c) (hlone : c.replicaCount = 1 → c.status = .normal)
    (hr : Restorable hash c) : Restorable hash c' := by
  have hstored := h.stored hok
  cases h with
  | blank h =>
    refine fresh_restorable (fun d' hd' => ?_)
      (fun r hmem clientId requestId result op hev => ?_) hstored
    · obtain ⟨d₀, hd₀, rfl⟩ := Option.map_eq_some_iff.mp hd'
      exact h d₀ hd₀
    · cases hd : c.disk with
      | none => rfl
      | some d =>
        obtain ⟨m, hm, -⟩ := hr.backed.answered r hmem clientId requestId result op hev d hd
        cases (h d hd).symm.trans hm
  | recovered hd hm hsound h =>
    exact recovered_restorable hr hs.slots hs.count hd hm hsound h hlone hstored

/-! ### The books of all processes of a replica -/

/-- The replica has executed its log from a machine as its processes start with. -/
structure Accounted (seed : UInt64) (c : Core) : Prop where
  booked : ∃ mem rs k, Booked (StateMachine.initInPlace mem seed) rs k c
  seeded : c.stateMachine.seed = seed

theorem Act.accounted {seed : UInt64} (h : Act hash inp allow c c') (hs : Sane hash c)
    (hp : Solid c) (ha : Accounted seed c) : Accounted seed c' where
  booked := by
    obtain ⟨mem, hb⟩ := ha.booked
    exact ⟨mem, h.booked hs hp hb⟩
  seeded := h.seed.trans ha.seeded

theorem Core.Restarts.accounted {seed : UInt64} (h : c.Restarts hash c')
    (hseed : c.stateMachine.seed = seed) : Accounted seed c' := by
  obtain ⟨rs, k, hb⟩ := h.booked
  rw [hseed] at hb
  obtain ⟨sm, hrun, hticks⟩ := hb.state
  exact ⟨⟨_, rs, k, hb⟩, (congrArg StateMachine.seed hticks).symm.trans (run_seed hrun)⟩

theorem start_accounted {cfg : ReplicaConfig} {mem : StateMachine} {seed : UInt64}
    (hinit : cfg.stateMachine = mem.initInPlace seed) :
    Accounted seed (Replica.freshState cfg []).toCore := by
  refine ⟨⟨mem, [], 0, ?_⟩, congrArg StateMachine.seed hinit⟩
  rw [← hinit]
  exact blank_booked (c := (Replica.freshState cfg []).toCore) rfl rfl

end Hivemind
