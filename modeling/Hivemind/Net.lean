import Hivemind.Live

/-! A cluster as its protocol cores: single transitions at one replica on messages that
were really sent, and restarts. Every run of the cluster is a sequence of these. -/
namespace Hivemind

open Relation Core

variable {hash : Hash} {inp : Input} {allow : Hazard → Prop} {c c' : Core} {n : ℕ}

/-! ### Views -/

/-- The view a message about a view's log or election is stamped with. -/
def Message.stampedView : Message → Option ℕ
  | .startViewChange m => some m.viewNumber
  | .doViewChange m => some m.viewNumber
  | .prepare m => some m.viewNumber
  | .prepareOk m => some m.viewNumber
  | .commit m => some m.viewNumber
  | .startView m => some m.viewNumber
  | _ => none

theorem Message.stampedView_of_asks {m : Message} (h : m.asks = true) :
    m.stampedView = none := by
  cases m <;> first | rfl | cases h

theorem MaySend.stamp {dst : ℕ} {m : Message} (h : MaySend hash inp c dst m) :
    ∀ v ∈ m.stampedView, v = c.viewNumber := by
  have hok : ∀ {op checksum : ℕ} {m : Message}, c.prepareOkFor op checksum = some m →
      ∀ v ∈ m.stampedView, v = c.viewNumber := by
    intro op checksum m h v hv
    obtain ⟨sum, -, rfl⟩ := Option.map_eq_some_iff.mp h
    exact (Option.some.inj hv).symm
  intro v hv
  cases h with
  | ask h => rw [Message.stampedView_of_asks h] at hv; cases hv
  | status h =>
    unfold statusMessage at h
    split at h
    · cases h
      cases hv
    · cases h
  | fetch | serve => cases hv
  | reack _ _ _ _ _ _ _ h => exact hok h v hv
  | ack _ _ _ h => exact hok h v hv
  | _ => exact (Option.some.inj hv).symm

theorem Act.viewNumber_le (h : Act hash inp allow c c') (hs : Sane hash c) :
    c.viewNumber ≤ c'.viewNumber := by
  cases h with
  | view h =>
    cases h with
    | enter hv => exact hv.le
    | place _ h => rw [h.frame]
    | openView _ h => rw [openView_frame, h.frame]
    | _ => exact le_rfl
  | commit h => rw [h.frame]
  | begin hact => exact (hs.pending hact).1.ge
  | _ => exact le_rfl

/-! ### Histories -/

/-- What a transition from `c` can add to the history, and the state it is noted in. -/
inductive Emits (hash : Hash) (inp : Input) (c : Core) : Event → Snapshot → Prop where
  | sent {dst : ℕ} {m : Message} (h : MaySend hash inp c dst m) (hup : c.storageFailed = false)
      (hdst : c.MayAddress inp dst m) : Emits hash inp c (.sent dst m) c.snapshot
  | replayed {clientId requestId : ℕ} {result : Result} {origin : Option ℕ}
      (h : MayReply c clientId requestId result origin) (hup : c.storageFailed = false) :
      Emits hash inp c (.replied clientId requestId result origin) c.snapshot
  | executed {clientId requestId op : ℕ} {result : Result} (hpos : 0 < op)
      (hle : op ≤ c.commitMin) (hmeta : c.metadataDirty = false)
      (hup : c.storageFailed = false) :
      Emits hash inp c (.replied clientId requestId result (some op)) c.snapshot
  | synced {snap : Snapshot} : Emits hash inp c .synced snap
  | installed (hsel : c.Selecting) :
      Emits hash inp c (.installed c.selectedTargetView c.selectedTipOp c.selectedTipChecksum)
        c.snapshot
  | votes (hst : c.status = .normal) (hlead : c.isLeader = true)
      (hlt : c.commitMax < c.opNumber) (hhas : c.journalHas (c.commitMax + 1) = true)
      (hq : c.quorumSize ≤ c.prepareOkCounts (journalSlot (c.commitMax + 1))) :
      Emits hash inp c (.raised c.commitMax (c.commitMax + 1) true) c.snapshot
  | told {lo hi : ℕ} {snap : Snapshot} : Emits hash inp c (.raised lo hi false) snap

/-- A transition adds at most one record. -/
def Grows (hash : Hash) (inp : Input) (c c' : Core) : Prop :=
  c'.history = c.history ∨
    ∃ ev snap, c'.history = c.history ++ [⟨ev, snap⟩] ∧ Emits hash inp c ev snap

namespace Grows

theorem ite {p : Prop} [Decidable p] {ev : Event} {snap : Snapshot}
    (hist : c'.history = if p then c.history else c.history ++ [⟨ev, snap⟩])
    (h : ¬ p → Emits hash inp c ev snap) : Grows hash inp c c' := by
  by_cases hp : p
  · rw [if_pos hp] at hist
    exact .inl hist
  · rw [if_neg hp] at hist
    exact .inr ⟨ev, snap, hist, h hp⟩

theorem ite_not {p : Prop} [Decidable p] {ev : Event} {snap : Snapshot}
    (hist : c'.history = if p then c.history ++ [⟨ev, snap⟩] else c.history)
    (h : Emits hash inp c ev snap) : Grows hash inp c c' := by
  by_cases hp : p
  · rw [if_pos hp] at hist
    exact .inr ⟨ev, snap, hist, h⟩
  · rw [if_neg hp] at hist
    exact .inl hist

theorem isPrefix (h : Grows hash inp c c') : c.history <+: c'.history := by
  rcases h with h | ⟨ev, snap, h, -⟩
  · rw [h]
  · rw [h]
    exact List.prefix_append _ _

theorem of_placed {b : Core} (hsel : c.Selecting) (h : Placed hash c b) :
    Grows hash inp c b := by
  cases h with
  | installed =>
    rw [installCandidate, installEntries_frame]
    exact .inr ⟨_, _, rfl, .installed hsel⟩
  | truncated => exact .inr ⟨_, _, rfl, .installed hsel⟩
  | kept => exact .inl rfl

end Grows

theorem ViewAct.grows (h : ViewAct hash inp allow c c') : Grows hash inp c c' := by
  cases h with
  | send h hdst => exact .ite rfl fun hup => .sent h (by simpa using hup) hdst
  | place hsel h => exact .of_placed hsel h
  | @openView c₁ hsel h =>
    rw [openView_frame]
    exact Grows.of_placed (b := c₁) hsel h
  | _ => exact .inl rfl

theorem CommitAct.grows (h : CommitAct inp c c') : Grows hash inp c c' := by
  cases h with
  | votes hst hlead hlt hhas hq =>
    exact .ite (p := c.commitMax + 1 ≤ c.commitMax) rfl fun _ => .votes hst hlead hlt hhas hq
  | follow => exact .ite rfl fun _ => .told
  | execute => exact .inl rfl

theorem Act.grows (h : Act hash inp allow c c') : Grows hash inp c c' := by
  cases h with
  | view h => exact h.grows
  | commit h => exact h.grows
  | reply hup h => exact .ite_not rfl (.replayed h hup)
  | publishReply hpos hle _ hmeta hup => exact .ite_not rfl (.executed hpos hle hmeta hup)
  | sync => exact .inr ⟨_, _, rfl, .synced⟩
  | begin => exact .ite rfl fun _ => .told
  | _ => exact .inl rfl

theorem Act.history (h : Act hash inp allow c c') : c.history <+: c'.history := h.grows.isPrefix

theorem Core.Restarts.history (h : c.Restarts hash c') : c'.history = c.history := by
  cases h with
  | blank => rfl
  | recovered _ _ _ h =>
    rw [Replica.rebuildCommittedState_frame h]
    rfl

/-! ### Messages to oneself -/

/-- Every message in the history meets `P`. -/
def AllSent (P : ℕ → Message → Prop) (c : Core) : Prop :=
  ∀ r ∈ c.history, ∀ dst m, r.event = .sent dst m → P dst m

theorem AllSent.grows {P : ℕ → Message → Prop} (h : AllSent P c) (hg : Grows hash inp c c')
    (hnew : ∀ dst m, MaySend hash inp c dst m → c.MayAddress inp dst m → P dst m) :
    AllSent P c' := by
  intro r hr dst m hev
  rcases hg with hist | ⟨ev, snap, hist, hem⟩
  · exact h r (hist ▸ hr) dst m hev
  · rw [hist] at hr
    rcases List.mem_append.mp hr with hr | hr
    · exact h r hr dst m hev
    · rw [List.mem_singleton.mp hr] at hev
      cases hem with
      | sent hmay _ hdst =>
        cases hev
        exact hnew _ _ hmay hdst
      | _ => cases hev

theorem AllSent.noteInstalled {P : ℕ → Message → Prop} (h : AllSent P c) :
    AllSent P c.noteInstalled := by
  intro r hr dst m hev
  rcases List.mem_append.mp hr with hr | hr
  · exact h r hr dst m hev
  · rw [List.mem_singleton.mp hr] at hev
    cases hev

/-- A replica writes to itself only in an election. -/
def Outward (c : Core) : Prop := AllSent (fun dst m => dst = c.replicaId → m.elects = true) c

theorem Act.outward (h : Act hash inp allow c c')
    (hinp : ∀ m, inp = .message c.replicaId m → m.elects = true) (ho : Outward c) :
    Outward c' := by
  unfold Outward
  rw [h.place.1]
  refine AllSent.grows ho h.grows fun dst m _ hdst heq => ?_
  subst heq
  rcases hdst with he | hne | ⟨m', hm', hno⟩
  · exact he
  · exact absurd rfl hne
  · exact absurd ((hinp m' hm').symm.trans hno) (by decide)

theorem MaySend.elects {dst : ℕ} {m : Message} (h : MaySend hash inp c dst m)
    (he : m.elects = true) : c.status = .viewChange ∨ ∃ src m, inp = .message src m := by
  have hok : ∀ {op checksum : ℕ} {m : Message}, c.prepareOkFor op checksum = some m →
      m.elects = false := by
    intro op checksum m h
    obtain ⟨sum, -, rfl⟩ := Option.map_eq_some_iff.mp h
    rfl
  cases h with
  | ask h => cases m <;> simp [Message.elects, Message.asks] at he h
  | vote hst => exact .inl hst
  | report _ _ hwhy => exact hwhy
  | status h =>
    unfold statusMessage at h
    split at h
    · cases h
      cases he
    · cases h
  | reack _ _ _ _ _ _ _ h => exact absurd (he.symm.trans (hok h)) (by decide)
  | ack _ _ _ h => exact absurd (he.symm.trans (hok h)) (by decide)
  | _ => cases he

/-! ### A replica alone in its cluster -/

/-- It stays in view 0 and hears nothing. -/
structure Lone (c : Core) : Prop where
  status : c.status = .normal
  idle : c.pendingStartView.active = false
  view : c.viewNumber = 0
  normal : c.lastNormalView = 0
  disk : ∀ d ∈ c.disk, ∀ m ∈ d.metadata, m.viewNumber = 0 ∧ m.lastNormalView = 0
  sent : AllSent (fun dst _ => dst ≠ c.replicaId) c

theorem Lone.grows (hl : Lone c) (hq : inp.Silent) (hid : c'.replicaId = c.replicaId)
    (h : Grows hash inp c c') : AllSent (fun dst _ => dst ≠ c'.replicaId) c' := by
  rw [hid]
  refine hl.sent.grows h fun dst m hmay hdst => ?_
  rcases hdst with he | hne | ⟨m', hm', -⟩
  · rcases hmay.elects he with hst | ⟨src, m', hm'⟩
    · exact absurd (hl.status.symm.trans hst) (by decide)
    · exact absurd hm' (hq src m')
  · exact hne
  · exact absurd hm' (hq dst m')

theorem Act.lone (h : Act hash inp allow c c') (hno : ¬ allow .solo) (h1 : c.replicaCount = 1)
    (hq : inp.Silent) (hs : Sane hash c) (hd : DiskOk hash c) (hl : Lone c) : Lone c' := by
  have hsent := hl.grows hq h.place.1 h.grows
  have hselecting : ¬ c.Selecting := fun h =>
    absurd (h.status.symm.trans hl.status) (by decide)
  have hidle : ¬ c.pendingStartView.active = true := by rw [hl.idle]; decide
  cases h with
  | view h =>
    cases h with
    | enter _ _ _ hleave => exact absurd (hleave.2 h1) hno
    | place hsel => exact absurd hsel hselecting
    | openView hsel => exact absurd hsel hselecting
    | _ => exact { hl with sent := hsent }
  | commit h =>
    rw [h.frame] at hsent ⊢
    exact { hl with sent := hsent }
  | arm =>
    refine { hl with disk := fun d hd' => ?_ }
    obtain ⟨d₀, hd₀, rfl⟩ := Option.map_eq_some_iff.mp hd'
    exact hl.disk d₀ hd₀
  | sync h =>
    obtain ⟨d₀, hsy⟩ := h.synced hs hd
    refine { hl with sent := hsent, disk := fun d' hd' m hm => ?_ }
    cases hd'
    cases hsy.metadata.symm.trans hm
    rw [metadataToPersist, if_neg hidle]
    exact ⟨hl.view, hl.normal⟩
  | fail hd₀ _ hmeta =>
    refine { hl with disk := fun d' hd' => ?_ }
    cases hd'
    rw [hmeta]
    exact hl.disk _ hd₀
  | begin hact => exact absurd hact hidle
  | settle hact => exact absurd hact hidle
  | close hact => exact absurd hact hidle
  | _ => exact { hl with sent := hsent }

theorem Core.Restarts.lone (h : c.Restarts hash c') (h1 : c.replicaCount = 1) (hl : Lone c) :
    Lone c' := by
  have hreborn : Lone c.reborn := by
    refine ⟨rfl, rfl, rfl, rfl, fun d hd => ?_, hl.sent⟩
    obtain ⟨d₀, hd₀, rfl⟩ := Option.map_eq_some_iff.mp hd
    exact hl.disk d₀ hd₀
  cases h with
  | blank => exact hreborn
  | @recovered d m c₁ hd hm _ h =>
    rw [Replica.rebuildCommittedState_frame h]
    obtain ⟨hv, hn⟩ := hl.disk d hd m hm
    refine { hreborn with status := ?_, view := hv, normal := hn }
    show (if c.replicaCount > 1 then Status.viewChange else .normal) = .normal
    rw [h1]
    rfl

/-! ### Moves -/

/-- Replica `src` has sent `m` to `dst`. -/
def Sent (cs : ℕ → Core) (src dst : ℕ) (m : Message) : Prop :=
  ∃ r ∈ (cs src).history, r.event = .sent dst m

/-- A message is delivered only if it was sent. -/
def Genuine (n : ℕ) (cs : ℕ → Core) (dst : ℕ) (inp : Input) : Prop :=
  ∀ src m, inp = .message src m → src < n ∧ Sent cs src dst m

/-- One transition at one replica; a process is lost only in a `safe` state. -/
inductive Moves (hash : Hash) (n : ℕ) (allow : Hazard → Prop) (safe : Core → Prop)
    (cs : ℕ → Core) : (ℕ → Core) → Prop where
  | act {r : ℕ} {inp : Input} {c' : Core} (hr : r < n) (hinp : Genuine n cs r inp)
      (h : Act hash inp allow (cs r) c') : Moves hash n allow safe cs (upd cs r c')
  | restart {r : ℕ} {c₀ c' : Core} (hr : r < n) (hsafe : safe (cs r))
      (hc₀ : c₀ = cs r ∨ c₀ = (cs r).noteInstalled) (h : c₀.Restarts hash c') :
      Moves hash n allow safe cs (upd cs r c')

variable {safe : Core → Prop} {cs cs' : ℕ → Core}

/-- What holds of replica `r` after a move: its own transitions and restarts keep it, and
those of the others do not touch it. -/
theorem Moves.single {P : Core → Prop} {r : ℕ} (h : Moves hash n allow safe cs cs')
    (hP : P (cs r))
    (hact : ∀ inp c', Genuine n cs r inp → Act hash inp allow (cs r) c' → P c')
    (hrestart : ∀ c₀ c', safe (cs r) → c₀ = cs r ∨ c₀ = (cs r).noteInstalled →
      c₀.Restarts hash c' → P c') : P (cs' r) := by
  cases h with
  | act hq hinp h =>
    rw [upd_apply]
    split
    · next heq =>
      subst heq
      exact hact _ _ hinp h
    · exact hP
  | restart hq hsafe hc₀ h =>
    rw [upd_apply]
    split
    · next heq =>
      subst heq
      exact hrestart _ _ hsafe hc₀ h
    · exact hP

theorem Sent.mono {r src dst : ℕ} {m : Message} (h : Sent cs src dst m)
    (hist : (cs r).history <+: c'.history) : Sent (upd cs r c') src dst m := by
  obtain ⟨rec, hrec, hev⟩ := h
  refine ⟨rec, ?_, hev⟩
  rw [upd_apply]
  split
  · next heq =>
    subst heq
    exact hist.subset hrec
  · exact hrec

theorem Genuine.mono {r dst : ℕ} (h : Genuine n cs dst inp)
    (hist : (cs r).history <+: c'.history) : Genuine n (upd cs r c') dst inp :=
  fun src m hm => ⟨(h src m hm).1, (h src m hm).2.mono hist⟩

/-- The replica's place in a cluster of `n`. -/
structure Member (n r : ℕ) (c : Core) : Prop where
  id : c.replicaId = r
  count : c.replicaCount = n
  quorum : c.quorumSize = (n - 1) / 2 + 1

/-- The facts about single replicas, for all of them. -/
structure AllSane (hash : Hash) (n : ℕ) (cs : ℕ → Core) : Prop where
  sane : ∀ r < n, Sane hash (cs r)
  disk : ∀ r < n, DiskOk hash (cs r)
  member : ∀ r < n, Member n r (cs r)
  outward : ∀ r < n, Outward (cs r)
  lone : n = 1 → ∀ r < n, Lone (cs r)

theorem AllSane.upd (h : AllSane hash n cs) {r : ℕ} (hs : Sane hash c') (hd : DiskOk hash c')
    (hm : Member n r c') (ho : Outward c') (hl : n = 1 → Lone c') :
    AllSane hash n (upd cs r c') := by
  refine ⟨fun q hq => ?_, fun q hq => ?_, fun q hq => ?_, fun q hq => ?_, fun h1 q hq => ?_⟩
  all_goals
    rw [upd_apply]
    split
  · exact hs
  · exact h.sane q hq
  · exact hd
  · exact h.disk q hq
  · next heq => exact heq ▸ hm
  · exact h.member q hq
  · exact ho
  · exact h.outward q hq
  · exact hl h1
  · exact h.lone h1 q hq

theorem AllSane.elects_of_self (hs : AllSane hash n cs) {r : ℕ} (hr : r < n)
    (hinp : Genuine n cs r inp) {m : Message} (hm : inp = .message (cs r).replicaId m) :
    m.elects = true := by
  obtain ⟨-, rec, hrec, hev⟩ := hinp _ m hm
  have hid := (hs.member r hr).id
  rw [hid] at hrec
  exact hs.outward r hr rec hrec r m hev hid.symm

theorem AllSane.silent (hs : AllSane hash n cs) (hn : n = 1) {r : ℕ} (hr : r < n)
    (hinp : Genuine n cs r inp) : inp.Silent := by
  rintro src m rfl
  obtain ⟨hsrc, rec, hrec, hev⟩ := hinp src m rfl
  have heq : src = r := by omega
  subst heq
  exact (hs.lone hn src hr).sent rec hrec src m hev (hs.member src hr).id.symm

theorem noteInstalled_sane (h : Sane hash c) : Sane hash c.noteInstalled := { h with }

theorem noteInstalled_diskOk (h : DiskOk hash c) : DiskOk hash c.noteInstalled := { h with }

theorem noteInstalled_lone (h : Lone c) : Lone c.noteInstalled :=
  { h with sent := h.sent.noteInstalled }

theorem AllSane.remains (hs : AllSane hash n cs) {r : ℕ} (hr : r < n) {c₀ : Core}
    (hc₀ : c₀ = cs r ∨ c₀ = (cs r).noteInstalled) : Sane hash c₀ ∧ DiskOk hash c₀ ∧
      Member n r c₀ ∧ Outward c₀ ∧ (n = 1 → Lone c₀) := by
  rcases hc₀ with rfl | rfl
  · exact ⟨hs.sane r hr, hs.disk r hr, hs.member r hr, hs.outward r hr,
      fun h1 => hs.lone h1 r hr⟩
  · exact ⟨noteInstalled_sane (hs.sane r hr), noteInstalled_diskOk (hs.disk r hr),
      { hs.member r hr with }, AllSent.noteInstalled (hs.outward r hr),
      fun h1 => noteInstalled_lone (hs.lone h1 r hr)⟩

theorem Core.Restarts.member {r : ℕ} (h : c.Restarts hash c') (hm : Member n r c) :
    Member n r c' := by
  have hreborn : Member n r c.reborn := by
    refine ⟨hm.id, hm.count, ?_⟩
    show (c.replicaCount - 1) / 2 + 1 = _
    rw [hm.count]
  cases h with
  | blank => exact hreborn
  | recovered _ _ _ h =>
    rw [Replica.rebuildCommittedState_frame h]
    exact { hreborn with }

theorem Core.Restarts.outward (h : c.Restarts hash c') (ho : Outward c) : Outward c' := by
  have hid : c'.replicaId = c.replicaId := by
    cases h with
    | blank => rfl
    | recovered _ _ _ h =>
      rw [Replica.rebuildCommittedState_frame h]
      rfl
  unfold Outward AllSent
  rw [hid, h.history]
  exact ho

theorem Moves.allSane (h : Moves hash n allow safe cs cs') (hno : ¬ allow .solo)
    (hs : AllSane hash n cs) : AllSane hash n cs' := by
  cases h with
  | @act r _ c' hr hinp h =>
    have hm := hs.member r hr
    refine hs.upd (h.sane (hs.sane r hr)) (h.diskOk (hs.sane r hr) (hs.disk r hr)) ?_ ?_ ?_
    · exact ⟨h.place.1.trans hm.id, h.place.2.1.trans hm.count, h.place.2.2.trans hm.quorum⟩
    · exact h.outward (fun m hm => hs.elects_of_self hr hinp hm) (hs.outward r hr)
    · exact fun h1 => h.lone hno (hm.count.trans h1) (hs.silent h1 hr hinp) (hs.sane r hr)
        (hs.disk r hr) (hs.lone h1 r hr)
  | @restart r _ _ hr _ hc₀ h =>
    obtain ⟨h1, h2, h3, h4, h5⟩ := hs.remains hr hc₀
    exact hs.upd (h.sane h1 h2) (h.diskOk h2) (h.member h3) (h.outward h4)
      (fun hn => h.lone (h3.count.trans hn) (h5 hn))

theorem AllSane.not_solo (hs : AllSane hash n cs) {r : ℕ} (hr : r < n)
    (hinp : Genuine n cs r inp) {s : Replica} {env : Env} (hc : cs r = s.toCore) :
    ¬ s.Arises env inp .solo := by
  rintro ⟨hcount, hgo⟩
  have hm := hs.member r hr
  rw [hc] at hm
  have hn : n = 1 := hm.count.symm.trans hcount
  have hr0 : r = 0 := by omega
  have hl := hs.lone hn r hr
  have hl' := hl
  rw [hc] at hl'
  rcases hgo with (h | h) | ⟨v, hv, hlt⟩ | ⟨-, -, hlead, -⟩
  · exact absurd (h.symm.trans hl'.status) (by decide)
  · exact absurd (h.symm.trans hl'.idle) (by decide)
  · cases inp with
    | message src m => exact absurd rfl (hs.silent hn hr hinp src m)
    | _ => cases hv
  · have hid : s.replicaId = 0 := hm.id.trans hr0
    have : s.isLeader = true := by
      simp [Core.isLeader, Core.leader, Core.leaderForView, hcount, hid, Nat.mod_one]
    exact absurd (hlead.symm.trans this) (by decide)

theorem moves_of_acts {r : ℕ} (hr : r < n) (hinp : Genuine n cs r inp)
    (h : ReflTransGen (Act hash inp allow) (cs r) c') :
    ReflTransGen (Moves hash n allow safe) cs (upd cs r c') ∧ (cs r).history <+: c'.history := by
  induction h with
  | refl =>
    refine ⟨?_, List.prefix_rfl⟩
    rw [upd_eq_self]
  | @tail c₁ c₂ h₁ h ih =>
    obtain ⟨hmoves, hist⟩ := ih
    refine ⟨?_, hist.trans h.history⟩
    have hmove : Moves hash n allow safe (upd cs r c₁) (upd (upd cs r c₁) r c₂) :=
      .act hr (hinp.mono hist) (by rw [upd_self]; exact h)
    rw [upd_upd] at hmove
    exact hmoves.tail hmove

/-! ### Runs of a cluster -/

namespace Cluster

/-- A call meets none of the hazards in `bad`, and a process is lost only in a `safe`
state. -/
def Permits (bad : List Hazard) (safe : Core → Prop) (s : Replica) : Turn → Prop
  | .call inp env => ∀ hz ∈ bad, ¬ s.Arises env inp hz
  | .crash _ => safe s.toCore

instance {bad : List Hazard} {safe : Core → Prop} [DecidablePred safe] {s : Replica} :
    DecidablePred (Permits bad safe s)
  | .call inp env => inferInstanceAs (Decidable (∀ hz ∈ bad, ¬ s.Arises env inp hz))
  | .crash _ => inferInstanceAs (Decidable (safe s.toCore))

def Keeps (bad : List Hazard) (safe : Core → Prop) (k : Cluster) (a : Action) : Prop :=
  ∀ x ∈ k.turnOf a, Permits bad safe (k.replica x.1) x.2

instance {bad : List Hazard} {safe : Core → Prop} [DecidablePred safe] {k : Cluster} {a : Action} :
    Decidable (Keeps bad safe k a) :=
  inferInstanceAs (Decidable (∀ x ∈ k.turnOf a, Permits bad safe (k.replica x.1) x.2))

/-- The cores of a cluster. -/
structure RunsAs (n : ℕ) (k : Cluster) (cs : ℕ → Core) : Prop where
  size : k.size = n
  procs : ∀ r < n, (k.procs r).RunsAs (cs r)
  silent : ∀ r, n ≤ r → (k.replica r).history = []

/-- A stopped process may have noted an installation that was not carried out. -/
theorem RunsAs.history {k : Cluster} (h : RunsAs n k cs) {r : ℕ} (hr : r < n) :
    (k.replica r).history = (cs r).history ∨
      (k.replica r).history = (cs r).noteInstalled.history :=
  (h.procs r hr).remains.history

theorem RunsAs.genuine {k : Cluster} (h : RunsAs n k cs) {src idx dst : ℕ} {m : Message}
    (hm : k.sentMessage src idx dst = some m) : src < n ∧ Sent cs src dst m := by
  unfold sentMessage at hm
  split at hm
  · next d m' snap hrec =>
    split at hm
    · next hdst =>
      cases hm
      subst hdst
      have hmem : (⟨.sent d m, snap⟩ : Record) ∈ (k.replica src).history :=
        List.mem_of_getElem? hrec
      have hsrc : src < n := by
        by_contra hge
        rw [h.silent src (not_lt.mp hge)] at hmem
        cases hmem
      refine ⟨hsrc, ⟨.sent d m, snap⟩, ?_, rfl⟩
      -- the remains of a stopped process have sent nothing more
      rcases h.history hsrc with hist | hist
      · exact hist ▸ hmem
      · rw [hist] at hmem
        rcases List.mem_append.mp hmem with h' | h'
        · exact h'
        · cases List.mem_singleton.mp h'
    · cases hm
  · cases hm

theorem RunsAs.upd {k : Cluster} (h : RunsAs n k cs) {r : ℕ} (hr : r < n) {p : Process}
    (hp : p.RunsAs c') : RunsAs n { k with procs := upd k.procs r p } (upd cs r c') where
  size := h.size
  procs := fun q hq => by
    simp only [upd_apply]
    split
    · exact hp
    · exact h.procs q hq
  silent := fun q hq => by
    simp only [replica, upd_apply]
    rw [if_neg (by omega)]
    exact h.silent q hq

theorem turnOf_message {k : Cluster} {a : Action} {r src : ℕ} {m : Message} {env : Env}
    (h : k.turnOf a = some (r, .call (.message src m) env)) :
    ∃ idx, k.sentMessage src idx r = some m := by
  cases a with
  | deliver src' idx dst env' =>
    obtain ⟨m', hm', heq⟩ := Option.map_eq_some_iff.mp h
    cases heq
    exact ⟨idx, hm'⟩
  | call dst inp env' => cases inp <;> cases h
  | crash => cases h

theorem RunsAs.step {k : Cluster} {a : Action} {bad : List Hazard} (h : RunsAs n k cs)
    (hs : AllSane hash n cs) (hk : k.Keeps bad safe a)
    (hsafe : ∀ c c', Halted c c' → safe c' → safe c) :
    ∃ cs', RunsAs n (k.step hash a) cs' ∧
      ReflTransGen (Moves hash n (· ∉ .solo :: bad) safe) cs cs' := by
  unfold Cluster.step
  cases hturn : k.turnOf a with
  | none => exact ⟨cs, h, .refl⟩
  | some rt =>
    obtain ⟨r, t⟩ := rt
    have hk : Permits bad safe (k.replica r) t := hk (r, t) hturn
    dsimp only
    by_cases hr : r < k.size
    swap
    · rw [if_neg hr]
      exact ⟨cs, h, .refl⟩
    rw [if_pos hr]
    rw [h.size] at hr
    cases t with
    | call inp env =>
      have hinp : Genuine n cs r inp := by
        rintro src m rfl
        obtain ⟨idx, hm⟩ := turnOf_message hturn
        exact h.genuine hm
      have hallow : cs r = (k.replica r).toCore →
          ∀ hz, (k.replica r).Arises env inp hz → hz ∉ .solo :: bad := by
        intro hc hz harises hbad
        rcases List.mem_cons.mp hbad with rfl | hbad
        · exact hs.not_solo hr hinp hc harises
        · exact hk hz hbad harises
      obtain ⟨c', hp, hacts⟩ := (h.procs r hr).call (hs.sane r hr) hallow
      exact ⟨_, h.upd hr hp, (moves_of_acts hr hinp hacts).1⟩
    | crash env =>
      rcases (h.procs r hr).crash with hp | ⟨c₀, c', hc₀, hre, hp⟩
      · have := h.upd hr hp
        rw [upd_eq_self] at this
        exact ⟨cs, this, .refl⟩
      · exact ⟨_, h.upd hr hp, .single (.restart hr (hsafe _ _ (h.procs r hr).remains hk) hc₀ hre)⟩

/-- The cores a cluster starts with. -/
def startCores (k : ClusterConfig n) (r : ℕ) : Core := (Replica.freshState (k.cfg r) []).toCore

theorem start_runsAs (k : ClusterConfig n) : RunsAs n (start k) (startCores k) :=
  ⟨rfl, fun r _ => Process.start_runsAs (k.cfg r), fun _ _ => rfl⟩

theorem start_allSane (k : ClusterConfig n) : AllSane hash n (startCores k) := by
  refine ⟨fun r _ => Replica.freshState_sane (by rw [k.count]; exact k.size.1),
    fun r _ => Process.start_diskOk (k.blank r), fun r _ => ?_, (fun r _ _ h => by cases h),
    fun _ r _ => ?_⟩
  · refine ⟨k.id r, k.count r, ?_⟩
    show ((k.cfg r).replicaCount - 1) / 2 + 1 = _
    rw [k.count]
  · refine ⟨rfl, rfl, rfl, rfl, fun d hd m hm => ?_, fun _ h => by cases h⟩
    rw [k.blank r d hd] at hm
    cases hm

theorem RunsAs.invariant {I : (ℕ → Core) → Prop} {bad : List Hazard} {k : Cluster}
    (h : RunsAs n k cs) (hs : AllSane hash n cs) (h0 : I cs)
    (hsafe : ∀ c c', Halted c c' → safe c' → safe c)
    (hstep : ∀ cs cs', AllSane hash n cs → I cs →
      Moves hash n (· ∉ .solo :: bad) safe cs cs' → I cs')
    {acts : List Action} (hrun : Execution.Along (Cluster.step hash) (Keeps bad safe) k acts) :
    ∃ cs, RunsAs n (run hash k acts) cs ∧ AllSane hash n cs ∧ I cs := by
  refine Execution.Along.invariant
    (I := fun k => ∃ cs, RunsAs n k cs ∧ AllSane hash n cs ∧ I cs) (fun k a h hk => ?_)
    ⟨cs, h, hs, h0⟩ hrun
  obtain ⟨cs, hcs, hs, hI⟩ := h
  obtain ⟨cs', hcs', hmoves⟩ := hcs.step hs hk hsafe
  have hend : AllSane hash n cs' ∧ I cs' := by
    clear hcs'
    induction hmoves with
    | refl => exact ⟨hs, hI⟩
    | tail _ h ih =>
      exact ⟨h.allSane (fun h => h List.mem_cons_self) ih.1, hstep _ _ ih.1 ih.2 h⟩
  exact ⟨cs', hcs', hend⟩

/-- What holds of the cores at first and is kept by every move holds after every run. -/
theorem invariant {I : (ℕ → Core) → Prop} {bad : List Hazard} (k : ClusterConfig n)
    (hsafe : ∀ c c', Halted c c' → safe c' → safe c) (h0 : I (startCores k))
    (hstep : ∀ cs cs', AllSane hash n cs → I cs →
      Moves hash n (· ∉ .solo :: bad) safe cs cs' → I cs')
    {acts : List Action}
    (hrun : Execution.Along (Cluster.step hash) (Keeps bad safe) (start k) acts) :
    ∃ cs, RunsAs n (run hash (start k) acts) cs ∧ AllSane hash n cs ∧ I cs :=
  (start_runsAs k).invariant (start_allSane k) h0 hsafe hstep hrun

theorem along_keeps_nil (k : Cluster) (acts : List Action) :
    Execution.Along (Cluster.step hash) (Keeps [] fun _ => True) k acts := by
  induction acts generalizing k with
  | nil => exact trivial
  | cons a rest ih =>
    refine ⟨fun x _ => ?_, ih _⟩
    cases x.2 with
    | call => exact fun _ h => absurd h List.not_mem_nil
    | crash => exact trivial

theorem step_procs (k : Cluster) (a : Action) (r : ℕ) : (k.step hash a).procs r = k.procs r ∨
    ∃ t, (k.step hash a).procs r = (k.procs r).turn hash t := by
  unfold Cluster.step
  split
  · exact .inl rfl
  next q t _ =>
  split
  swap
  · exact .inl rfl
  dsimp only
  rw [upd_apply]
  split
  · next heq =>
    rw [heq]
    exact .inr ⟨t, rfl⟩
  · exact .inl rfl

/-- What a call keeps and a restart establishes holds of every running replica. -/
theorem always {P : Replica → Prop} (k : ClusterConfig n)
    (h0 : ∀ r < n, P (Replica.freshState (k.cfg r) []))
    (hcall : ∀ s s' env inp, Sane hash s.toCore → DiskOk hash s.toCore → P s →
      s.handle hash env inp = .ok s' → P s')
    (hrestart : ∀ (s s' : Replica) env, s.restart hash env = some s' → P s') (acts : List Action) :
    ∀ r < n, ((run hash (start k) acts).procs r).stopped = false →
      P ((run hash (start k) acts).replica r) := by
  suffices hI : ∃ cs, RunsAs n (run hash (start k) acts) cs ∧ AllSane hash n cs ∧
      ∀ r < n, ((run hash (start k) acts).procs r).stopped = false →
        P ((run hash (start k) acts).replica r) by
    obtain ⟨cs, -, -, h⟩ := hI
    exact h
  refine Execution.Along.invariant
    (I := fun k => ∃ cs, RunsAs n k cs ∧ AllSane hash n cs ∧
      ∀ r < n, (k.procs r).stopped = false → P (k.replica r)) (fun k a h hk => ?_)
    ⟨_, start_runsAs k, start_allSane k, fun r hr _ => h0 r hr⟩ (along_keeps_nil _ acts)
  obtain ⟨cs, hcs, hs, hP⟩ := h
  have hone : Execution.Along (Cluster.step hash) (Keeps [] fun _ => True) k [a] := ⟨hk, trivial⟩
  obtain ⟨cs', hcs', hs', -⟩ := hcs.invariant (I := fun _ => True) hs trivial
    (fun _ _ _ h => h) (fun _ _ _ _ _ => trivial) hone
  refine ⟨cs', hcs', hs', fun r hr => ?_⟩
  unfold replica
  rcases step_procs k a r with hsame | ⟨x, hturn⟩
  · rw [hsame]
    exact hP r hr
  rw [hturn]
  cases x with
  | call inp env =>
    show ((k.procs r).call hash inp env).stopped = false → P ((k.procs r).call hash inp env).replica
    unfold Process.call
    split
    · exact hP r hr
    next hup =>
    have hc := (hcs.procs r hr).running (by simpa using hup)
    cases hout : (k.procs r).replica.handle hash env inp with
    | error s => exact fun h => by cases h
    | ok s =>
      exact fun _ => hcall _ s env inp (hc ▸ hs.sane r hr) (hc ▸ hs.disk r hr)
        (hP r hr (by simpa using hup)) hout
  | crash env =>
    show ((k.procs r).crash hash env).stopped = false → P ((k.procs r).crash hash env).replica
    unfold Process.crash
    cases hout : (k.procs r).replica.restart hash env with
    | none => exact fun h => by cases h
    | some s => exact fun _ => hrestart _ s env hout

end Cluster

end Hivemind
