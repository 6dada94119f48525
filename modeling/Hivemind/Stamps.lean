import Hivemind.Net
import Hivemind.Sample

/-! View stamps: a replica speaks in a view only while it is normal in it, and only in
its own part, leader or follower. The acknowledgements and broadcasts that wait for a
barrier are the difficulty: they are stamped when they are sent. -/
namespace Hivemind

open Relation Core

variable {hash : Hash} {inp : Input} {allow : Hazard → Prop} {c c' : Core} {n : ℕ}

/-- The view a message of a leader is about. -/
def Message.leads : Message → Option ℕ
  | .prepare m => some m.viewNumber
  | .commit m => some m.viewNumber
  | _ => none

/-- The view an acknowledgement is for. -/
def Message.acknowledges : Message → Option ℕ
  | .prepareOk m => some m.viewNumber
  | _ => none

def Snapshot.NormalIn (s : Snapshot) (w : ℕ) : Prop :=
  s.status = .normal ∧ s.viewNumber = w ∧ s.lastNormalView = w

instance (s : Snapshot) (w : ℕ) : Decidable (s.NormalIn w) := inferInstanceAs (Decidable (_ ∧ _))

/-- What replica `r` of `n` may say to `dst` in state `s`. -/
def HonestTo (n r : ℕ) (s : Snapshot) (dst : ℕ) (m : Message) : Prop :=
  (∀ w ∈ m.leads, s.NormalIn w ∧ r = w % n) ∧ ∀ w ∈ m.acknowledges, s.NormalIn w ∧ dst = w % n

instance (n r : ℕ) (s : Snapshot) (dst : ℕ) (m : Message) : Decidable (HonestTo n r s dst m) :=
  inferInstanceAs (Decidable (_ ∧ _))

def Event.sentTo : Event → Option (ℕ × Message)
  | .sent dst m => some (dst, m)
  | _ => none

def HonestStamps (n r : ℕ) (history : List Record) : Prop :=
  ∀ rec ∈ history, ∀ x ∈ rec.event.sentTo, HonestTo n r rec.state x.1 x.2

instance (n r : ℕ) (history : List Record) : Decidable (HonestStamps n r history) :=
  inferInstanceAs (Decidable (∀ rec ∈ history, ∀ x ∈ rec.event.sentTo, _))

/-! ### What waits for a barrier -/

/-- Whatever waits belongs to the view the replica is normal in. -/
structure Stamped (c : Core) : Prop where
  current : c.status = .normal → c.lastNormalView = c.viewNumber
  broadcasts : ∀ i < logSizeMax, c.pendingPrepareBroadcast i = true →
    c.status = .normal ∧ c.isLeader = true
  acks : ∀ i < logSizeMax, c.pendingPrepareOk i = true →
    c.status = .normal ∧ c.pendingPrepareOkTo i = c.leader

theorem Stamped.owe (hp : Stamped c) {op dst : ℕ} (hst : c.status = .normal)
    (hdst : dst = c.leader) : Stamped (c.owePrepareOk op dst) := by
  refine { hp with acks := fun i hi h => ?_ }
  have h' : upd c.pendingPrepareOk (journalSlot op) true i = true := h
  show _ ∧ upd c.pendingPrepareOkTo (journalSlot op) dst i = c.leader
  rw [upd_apply] at h' ⊢
  split
  · exact ⟨hst, hdst⟩
  · next hne =>
    rw [if_neg hne] at h'
    exact hp.acks i hi h'

theorem Stamped.broadcast (hp : Stamped c) (hst : c.status = .normal) (hlead : c.isLeader = true)
    {slot i : ℕ} (hi : i < logSizeMax) (h : upd c.pendingPrepareBroadcast slot true i = true) :
    c.status = .normal ∧ c.isLeader = true := by
  rcases upd_true h with - | h
  · exact ⟨hst, hlead⟩
  · exact hp.broadcasts i hi h

theorem MayAccept.toLeader {e : LogEntry} {dst : ℕ} (h : MayAccept hash inp c e dst) :
    dst = c.leader := by
  cases h with
  | prepared _ hsrc => exact hsrc
  | transferred => rfl

theorem enterView_stamped {v : ℕ} (howes : ¬ c.Owes) : Stamped (c.enterView v) where
  current := fun h => by cases h
  broadcasts := fun i hi h => absurd ⟨i, hi, .inl h⟩ howes
  acks := fun i hi h => absurd ⟨i, hi, .inr h⟩ howes

theorem openView_stamped (hp : Stamped c) : Stamped c.openView := by
  unfold openView
  split
  all_goals
    exact
      { current := hp.current
        broadcasts := fun i _ h => by cases h
        acks := fun i _ h => by cases h }

theorem settleNormal_stamped (hp : Stamped c) (hs : Sane hash c)
    (hact : c.pendingStartView.active = true)
    (hlnv : c.lastNormalView = c.pendingStartView.lastNormalView) : Stamped c.asSettled := by
  have hcur : c.lastNormalView = c.viewNumber := hlnv.trans (hs.pending hact).2
  have hbroad : ∀ i < logSizeMax, c.pendingPrepareBroadcast i = true → c.isLeader = true :=
    fun i hi h => (hp.broadcasts i hi h).2
  rw [← settleNormal_frame]
  unfold settleNormal
  dsimp only
  split
  · exact
      { current := fun _ => hcur
        broadcasts := fun i hi h => ⟨rfl, hbroad i hi h⟩
        acks := fun i _ h => by cases h }
  · refine
      { current := fun _ => hcur
        broadcasts := fun i hi h => ⟨rfl, hbroad i hi h⟩
        acks := fun i _ h => ⟨rfl, ?_⟩ }
    exact if_pos h

theorem Act.stamped (h : Act hash inp allow c c') (hno : ¬ allow .staleFlag) (hs : Sane hash c)
    (hp : Stamped c) : Stamped c' := by
  cases h with
  | view h =>
    cases h with
    | enter _ _ _ hleave => exact enterView_stamped fun h => hno (hleave.1 h)
    | place _ h =>
      rw [h.frame]
      exact { hp with }
    | openView _ h =>
      refine openView_stamped ?_
      rw [h.frame]
      exact { hp with }
    | _ => exact { hp with }
  | commit h =>
    rw [h.frame]
    exact { hp with }
  | append hst hlead =>
    exact { hp with broadcasts := fun i hi h => hp.broadcast hst hlead hi h }
  | @accept e dst dirty hst _ _ _ h =>
    let c₀ : Core := ({ c with opNumber := e.opNumber } : Core).journalPut e
    have hput : Stamped c₀ := { hp with }
    have howe : Stamped (c₀.owePrepareOk e.opNumber dst) := hput.owe hst h.toLeader
    exact { howe with }
  | @fillGap e dst hst _ _ _ _ h =>
    have hput : Stamped (c.journalPut e) := { hp with }
    rw [fillGap_eq]
    split
    · exact hput.owe hst h.toLeader
    · exact hput
  | owe _ hsrc hst => exact hp.owe hst hsrc
  | fillHole _ _ _ hst hlead =>
    exact { hp with broadcasts := fun i hi h => hp.broadcast hst hlead hi h }
  | selfVote =>
    exact { hp with broadcasts := fun i hi h => hp.broadcasts i hi (upd_false h) }
  | paid => exact { hp with acks := fun i hi h => hp.acks i hi (upd_false h) }
  | begin hact =>
    obtain ⟨hv, hl⟩ := hs.pending hact
    have hview : c.enterPendingView.viewNumber = c.viewNumber := hv
    refine ⟨fun _ => hl.trans hv.symm, fun i hi h => ?_, fun i hi h => ?_⟩
    · rw [isLeader, leader, hview]
      exact hp.broadcasts i hi h
    · rw [leader, hview]
      exact hp.acks i hi h
  | settle hact _ hlnv => exact settleNormal_stamped hp hs hact hlnv
  | _ => exact { hp with }

theorem Core.Restarts.stamped (h : c.Restarts hash c') (hl : c.replicaCount = 1 → Lone c)
    (hs : Sane hash c) : Stamped c' := by
  cases h with
  | blank =>
    exact ⟨fun _ => rfl, (fun _ _ h => by cases h), (fun _ _ h => by cases h)⟩
  | @recovered d m c₁ hd hm hsound h =>
    have hre : c.Restarts hash (Replica.settleRecovered c₁) := .recovered hd hm hsound h
    refine ⟨fun hst => ?_, ?_, ?_⟩
    · by_cases h1 : c.replicaCount = 1
      · have hlone := hre.lone h1 (hl h1)
        rw [hlone.view, hlone.normal]
      · rw [Replica.rebuildCommittedState_frame h] at hst
        have hst' : (if c.replicaCount > 1 then Status.viewChange else .normal) = .normal := hst
        have := hs.count
        rw [if_pos (by omega)] at hst'
        cases hst'
    all_goals
      exact fun _ _ h => by cases h

/-! ### What is said -/

theorem Message.leads_of_asks {m : Message} (h : m.asks = true) :
    m.leads = none ∧ m.acknowledges = none := by
  cases m <;> first | exact ⟨rfl, rfl⟩ | cases h

theorem HonestTo.of_silent {r dst : ℕ} {s : Snapshot} {m : Message} (hl : m.leads = none)
    (ha : m.acknowledges = none) : HonestTo n r s dst m := by
  refine ⟨fun w hw => ?_, fun w hw => ?_⟩
  · rw [hl] at hw
    cases hw
  · rw [ha] at hw
    cases hw

/-- What is sent from a state in which nothing stale waits is honest. -/
theorem MaySend.honest {dst r : ℕ} {m : Message} (h : MaySend hash inp c dst m)
    (hm : Member n r c) (hp : Stamped c) : HonestTo n r c.snapshot dst m := by
  have hnormal : c.status = .normal → c.snapshot.NormalIn c.viewNumber :=
    fun hst => ⟨hst, rfl, hp.current hst⟩
  have hleader : c.leader = c.viewNumber % n := by rw [leader, leaderForView, hm.count]
  have hlead : c.isLeader = true → r = c.viewNumber % n := fun h => by
    rw [← hleader, ← hm.id]
    exact (beq_iff_eq.mp h).symm
  have hok : ∀ {op sum : ℕ}, c.status = .normal → dst = c.leader →
      c.prepareOkFor op sum = some m → HonestTo n r c.snapshot dst m := by
    intro op sum hst hdst hm
    obtain ⟨_, -, rfl⟩ := Option.map_eq_some_iff.mp hm
    refine ⟨(fun w hw => by cases hw), fun w hw => ?_⟩
    cases hw
    exact ⟨hnormal hst, hdst.trans hleader⟩
  have hsay : c.status = .normal → c.isLeader = true → m.acknowledges = none →
      (∀ w ∈ m.leads, w = c.viewNumber) → HonestTo n r c.snapshot dst m := by
    intro hst hl ha hw
    refine ⟨fun w hmem => ?_, fun w hmem => ?_⟩
    · rw [hw w hmem]
      exact ⟨hnormal hst, hlead hl⟩
    · rw [ha] at hmem
      cases hmem
  cases h with
  | ask h => exact .of_silent (Message.leads_of_asks h).1 (Message.leads_of_asks h).2
  | status h =>
    unfold statusMessage at h
    split at h
    · cases h
      exact .of_silent rfl rfl
    · cases h
  | reack _ hsrc hst _ _ _ _ hm => exact hok hst hsrc hm
  | @ack op _ _ _ hflag _ hm =>
    obtain ⟨hst, hto⟩ := hp.acks _ (journalSlot_lt op) hflag
    exact hok hst hto hm
  | resend hst hl => exact hsay hst hl rfl fun w hw => by cases hw; rfl
  | @broadcast _ op _ _ hflag =>
    obtain ⟨hst, hl⟩ := hp.broadcasts _ (journalSlot_lt op) hflag
    exact hsay hst hl rfl fun w hw => by cases hw; rfl
  | heartbeat hst hl => exact hsay hst hl rfl fun w hw => by cases hw; rfl
  | _ => exact .of_silent rfl rfl

/-- The invariant of one replica's stamps. -/
structure Honest (n r : ℕ) (c : Core) : Prop where
  stamped : Stamped c
  said : HonestStamps n r c.history

theorem HonestStamps.append {r : ℕ} {history : List Record} {rec : Record}
    (h : HonestStamps n r history) (hrec : ∀ x ∈ rec.event.sentTo, HonestTo n r rec.state x.1 x.2) :
    HonestStamps n r (history ++ [rec]) := by
  intro rec' hmem
  rcases List.mem_append.mp hmem with hmem | hmem
  · exact h rec' hmem
  · rw [List.mem_singleton.mp hmem]
    exact hrec

theorem Act.honest {r : ℕ} (h : Act hash inp allow c c') (hno : ¬ allow .staleFlag)
    (hs : Sane hash c) (hm : Member n r c) (hh : Honest n r c) : Honest n r c' := by
  refine ⟨h.stamped hno hs hh.stamped, ?_⟩
  rcases h.grows with hist | ⟨ev, snap, hist, hem⟩
  · rw [hist]
    exact hh.said
  · rw [hist]
    refine hh.said.append fun x hx => ?_
    cases hem with
    | sent h =>
      cases hx
      exact h.honest hm hh.stamped
    | _ => cases hx

theorem Moves.honest {safe : Core → Prop} {cs cs' : ℕ → Core}
    (h : Moves hash n allow safe cs cs') (hno : ¬ allow .staleFlag) (hs : AllSane hash n cs)
    (hh : ∀ r < n, Honest n r (cs r)) : ∀ r < n, Honest n r (cs' r) := by
  intro r hr
  refine h.single (hh r hr)
    (fun inp c' _ h => h.honest hno (hs.sane r hr) (hs.member r hr) (hh r hr))
    fun c₀ c' _ hc₀ h => ?_
  obtain ⟨hsane, -, hm, -, hl⟩ := hs.remains hr hc₀
  refine ⟨h.stamped (fun h1 => hl (hm.count.symm.trans h1)) hsane, ?_⟩
  rw [h.history]
  rcases hc₀ with rfl | rfl
  · exact (hh r hr).said
  · exact (hh r hr).said.append fun x hx => by cases hx

/-- In every run in which no replica leaves a view while a `Prepare` or `PrepareOk` waits
for its barrier, every `Prepare`, `PrepareOk` and `Commit` is stamped honestly. -/
theorem view_stamps_honest (k : ClusterConfig n) (acts : List Action)
    (hrun : Execution.Along (Cluster.step hash) (Cluster.Keeps [.staleFlag] fun _ => True)
      (Cluster.start k) acts) (r : ℕ) (hr : r < n) :
    HonestStamps n r ((Cluster.run hash (Cluster.start k) acts).replica r).history := by
  obtain ⟨cs, hcs, -, hh⟩ := Cluster.invariant k (fun _ _ _ _ => trivial)
    (I := fun cs => ∀ r < n, Honest n r (cs r))
    (fun r _ => ⟨⟨fun _ => rfl, (fun _ _ h => by cases h), (fun _ _ h => by cases h)⟩,
      fun _ h => by cases h⟩)
    (fun cs cs' hs hh h => h.honest (by decide) hs hh) hrun
  rcases hcs.history hr with h | h
  · rw [h]
    exact (hh r hr).said
  · rw [h]
    exact (hh r hr).said.append fun x hx => by cases hx

/-- Replica 1 acknowledges an op of view 0, votes for view 1, and is lost. -/
theorem view_stamps_honest_across_views :
    HonestStamps 3 1 ((Cluster.run pairingHash (Cluster.start (.uniform 3 (by decide) true))
      [.request 0 1 1, .tick 0 1, .receive 0 1 1 2, .tick 1 3, .tick 2 1, .tick 2 2002,
        .receive 2 3 1 2003, .tick 1 2004, .lose 1 2005]).replica 1).history :=
  view_stamps_honest _ _ (by decide +kernel) 1 (by decide)

/-- Replica 1 accepts an op of view 0, and a vote takes it to view 1 before the barrier:
its `PrepareOk` goes to the leader of view 0, stamped with view 1, during the view change. -/
theorem acknowledgement_outlives_view :
    ¬ HonestStamps 3 1 ((Cluster.run pairingHash (Cluster.start (.uniform 3 (by decide) true))
      [.request 0 1 1, .tick 0 1, .receive 0 1 1 2, .tick 2 1, .tick 2 2002,
        .receive 2 3 1 2003, .tick 1 2004]).replica 1).history := by
  decide +kernel

end Hivemind
