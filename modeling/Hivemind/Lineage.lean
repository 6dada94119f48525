import Hivemind.Net

/-! Entries travel: whatever is true of every entry that a leader makes from a request is
true of every entry in a journal, on a disk, in a candidate, in a report and in a message. -/
namespace Hivemind

open Relation Core

variable {hash : Hash} {inp : Input} {allow : Hazard → Prop} {c c₁ c' : Core} {e e' : LogEntry}
  {P : LogEntry → Prop} {n : ℕ}

/-- The log entries a message brings. -/
def Message.entries : Message → List LogEntry
  | .prepare m => [m.entry]
  | .sendPrepare m => [m.entry]
  | .doViewChange m => m.entries
  | .startView m => m.entries
  | _ => []

/-- Every entry the replica holds or has sent meets `P`. -/
structure Carries (P : LogEntry → Prop) (c : Core) : Prop where
  journal : ∀ i e, c.journal i = some e → P e
  disk : ∀ d ∈ c.disk, ∀ i e, d.durable i = some e → P e
  candidate : ∀ e, some e ∈ c.viewChangeCandidate.entries → P e
  reports : ∀ i, ∀ e ∈ (c.doVcMsgs i).entries, P e
  sent : AllSent (fun _ m => ∀ e ∈ m.entries, P e) c

/-- The entry a leader makes from a request. -/
def Core.nextEntry (c : Core) (hash : Hash) (m : RequestMsg) : LogEntry :=
  ({ c with opNumber := c.opNumber + 1 } : Core).requestEntry hash m

/-! ### Where entries come from -/

theorem Carries.get (hc : Carries P c) {op : ℕ} (h : c.journalGet op = some e) : P e :=
  hc.journal _ e (journalGet_eq_some.mp h).2.1

theorem mem_tailEntries {get : ℕ → Option LogEntry} : ∀ {op room : ℕ} {e : LogEntry},
    e ∈ tailEntries get op room → ∃ op, get op = some e
  | 0, room, e, h => by
    cases h
  | op + 1, 0, e, h => by
    cases h
  | op + 1, room + 1, e, h => by
    unfold tailEntries at h
    split at h
    · next e₁ he₁ =>
      rcases List.mem_cons.mp h with rfl | h
      · exact ⟨_, he₁⟩
      · exact mem_tailEntries h
    · exact mem_tailEntries h

theorem Carries.report (hc : Carries P c) : ∀ e ∈ c.dvcMessage.entries, P e := by
  intro e he
  have hentries : c.dvcMessage.entries = tailEntries c.journalGet c.opNumber dvcLogMax :=
    List.take_left
  obtain ⟨op, hget⟩ := mem_tailEntries (hentries ▸ he)
  exact hc.get hget

theorem Carries.announcement (hc : Carries P c) : ∀ e ∈ c.buildStartView.entries, P e := by
  intro e he
  have hentries : c.buildStartView.entries = tailEntries c.journalGet c.selectedTipOp svLogMax :=
    List.take_left
  obtain ⟨op, hget⟩ := mem_tailEntries (hentries ▸ he)
  exact hc.get hget

theorem Carries.sends {dst : ℕ} {m : Message} (hc : Carries P c) (h : MaySend hash inp c dst m) :
    ∀ e ∈ m.entries, P e := by
  have hok : ∀ {op checksum : ℕ} {m : Message}, c.prepareOkFor op checksum = some m →
      m.entries = [] := by
    intro op checksum m h
    obtain ⟨sum, -, rfl⟩ := Option.map_eq_some_iff.mp h
    rfl
  have hone : ∀ {op : ℕ} {e' : LogEntry}, c.journalGet op = some e' → ∀ e ∈ [e'], P e := by
    intro op e' hget e he
    rw [List.mem_singleton.mp he]
    exact hc.get hget
  have hnil : ∀ {m : Message}, m.entries = [] → ∀ e ∈ m.entries, P e := by
    intro m hm e he
    rw [hm] at he
    cases he
  cases h with
  | ask h => exact hnil (by cases m <;> first | rfl | cases h)
  | status h =>
    unfold statusMessage at h
    split at h
    · cases h
      exact hnil rfl
    · cases h
  | report => exact hc.report
  | announce => exact hc.announcement
  | certify => exact hc.announcement
  | serve _ hget => exact hone hget
  | reack _ _ _ _ _ _ _ h => exact hnil (hok h)
  | ack _ _ _ h => exact hnil (hok h)
  | resend _ _ hget => exact hone hget
  | broadcast hget => exact hone hget
  | _ => exact hnil rfl

theorem mem_journal_put {b : Bool} {i : ℕ} (h : (c.journalPutInternal e b).journal i = some e') :
    e' = e ∨ c.journal i = some e' := by
  rw [journal_put] at h
  split at h
  · exact .inl (Option.some.inj h).symm
  · exact .inr h

theorem mem_journal_truncate {limit i : ℕ} {b : Bool}
    (h : (c.truncateAboveInternal limit b).journal i = some e) : c.journal i = some e := by
  have h' : (if c.truncates limit b i then none else c.journal i) = some e := h
  split at h'
  · cases h'
  · exact h'

theorem mem_journal_install {entries : List (Option LogEntry)} {i : ℕ}
    (h : (c.installEntries entries).journal i = some e) :
    some e ∈ entries ∨ c.journal i = some e := by
  unfold installEntries at h
  generalize hc₀ : c.truncateAboveFromValidatedStartView c.commitMin = c₀ at h
  have hfound : some e ∈ entries ∨ c₀.journal i = some e := by
    clear hc₀
    induction entries generalizing c₀ with
    | nil => exact .inr h
    | cons x entries ih =>
      rcases ih _ h with h | h
      · exact .inl (by simp [h])
      cases x with
      | none => exact .inr h
      | some x =>
        rcases mem_journal_put h with rfl | h
        · exact .inl (by simp)
        · exact .inr h
  subst hc₀
  exact hfound.imp id mem_journal_truncate

/-! ### Transitions -/

theorem Carries.place (hc : Carries P c) (h : c.Placed hash c₁) : ∀ i e, c₁.journal i = some e →
    P e := by
  intro i e he
  cases h with
  | installed =>
    rcases mem_journal_install (c := c.noteInstalled) he with h | h
    · exact hc.candidate e h
    · exact hc.journal i e h
  | truncated => exact hc.journal i e (mem_journal_truncate (c := c.noteInstalled) he)
  | kept => exact hc.journal i e he

theorem Carries.records (hc : Carries P c) {m : DoViewChangeMsg} (hm : ∀ e ∈ m.entries, P e) :
    ∀ i, ∀ e ∈ ((c.recordDvc m).doVcMsgs i).entries, P e := by
  intro i
  unfold recordDvc
  dsimp only
  split
  · exact hc.reports i
  · rw [upd_apply]
    split
    · exact hm
    · exact hc.reports i

theorem Carries.collects (hc : Carries P c) (h : MayCollect inp c e)
    (hin : ∀ src m, inp = .message src m → ∀ e ∈ m.entries, P e) : P e := by
  cases h with
  | own h => exact hc.get h
  | report h => exact hc.reports _ e h
  | fetched hinp h => exact hin _ _ hinp e (by simp [Message.entries, h])
  | announced hinp h => exact hin _ _ hinp e h

theorem Carries.accepts {dst : ℕ} (h : MayAccept hash inp c e dst)
    (hin : ∀ src m, inp = .message src m → ∀ e ∈ m.entries, P e) : P e := by
  cases h with
  | prepared hinp => exact hin _ _ hinp _ (by simp [Message.entries])
  | transferred hinp => exact hin _ _ hinp _ (by simp [Message.entries])

theorem mem_candidate_add {cand cand' : ViewChangeCandidate} (h : cand.add hash e' = .ok cand')
    (he : some e ∈ cand'.entries) : e = e' ∨ some e ∈ cand.entries := by
  unfold ViewChangeCandidate.add at h
  split at h
  · cases h
  split at h
  · cases h
  split at h
  · cases h
  dsimp only at h
  split at h
  · split at h
    · cases h
    · cases h
      exact .inr he
  · cases h
    rcases List.mem_or_eq_of_mem_set he with h | h
    · exact .inr h
    · exact .inl (Option.some.inj h)

theorem not_mem_allocate {oom : Bool} {info : CandidateMetadata} {cand : ViewChangeCandidate}
    (h : ViewChangeCandidate.allocate oom info = .ok cand) (e : LogEntry) :
    some e ∉ cand.entries := by
  unfold ViewChangeCandidate.allocate at h
  split_ifs at h
  cases h
  intro he
  cases (List.mem_replicate.mp he).2

theorem Act.carries (h : Act hash inp allow c c') (hs : Sane hash c) (hd : DiskOk hash c)
    (hin : ∀ src m, inp = .message src m → ∀ e ∈ m.entries, P e)
    (hnew : ∀ m, c.status = .normal → c.isLeader = true → c.Admits m →
      (c.Behind m → allow .disorder) → P (c.nextEntry hash m)) (hc : Carries P c) :
    Carries P c' := by
  have hsent := AllSent.grows hc.sent h.grows fun dst m hmay _ => hc.sends hmay
  have hput : ∀ {e₁ : LogEntry} {b : Bool} {q : Core}, P e₁ → q.journal = c.journal →
      ∀ i e, (q.journalPutInternal e₁ b).journal i = some e → P e := by
    intro e₁ b q he₁ hj i e he
    rcases mem_journal_put he with rfl | he
    · exact he₁
    · exact hc.journal i e (hj ▸ he)
  have hempty : ∀ e, some e ∈ ViewChangeCandidate.reset.entries → P e :=
    fun e he => absurd he List.not_mem_nil
  cases h with
  | view h =>
    cases h with
    | enter => exact { hc with sent := hsent, candidate := hempty }
    | unselect => exact { hc with sent := hsent, candidate := hempty }
    | recordOwn => exact { hc with sent := hsent, reports := hc.records hc.report }
    | recordPeer hinp => exact { hc with sent := hsent, reports := hc.records (hin _ _ hinp) }
    | allocate _ _ _ _ _ _ h =>
      refine { hc with sent := hsent, candidate := fun e he => ?_ }
      exact absurd he (not_mem_allocate h e)
    | collect _ h hfrom =>
      refine { hc with sent := hsent, candidate := fun e he => ?_ }
      rcases mem_candidate_add h he with rfl | he
      · exact hc.collects hfrom hin
      · exact hc.candidate e he
    | place _ h =>
      have hj := hc.place h
      rw [h.frame] at hsent hj ⊢
      exact { hc with sent := hsent, journal := hj }
    | openView _ h =>
      have hj := hc.place h
      rw [openView_frame] at hsent ⊢
      rw [h.frame] at hsent hj ⊢
      exact { hc with sent := hsent, journal := hj }
    | _ => exact { hc with sent := hsent }
  | commit h =>
    rw [h.frame] at hsent ⊢
    exact { hc with sent := hsent }
  | arm =>
    refine { hc with sent := hsent, disk := fun d hd' => ?_ }
    obtain ⟨d₀, hd₀, rfl⟩ := Option.map_eq_some_iff.mp hd'
    exact hc.disk d₀ hd₀
  | append hst hlead _ _ hadmits horder =>
    exact { hc with sent := hsent, journal := hput (hnew _ hst hlead hadmits horder) rfl }
  | accept _ _ _ _ h =>
    exact { hc with sent := hsent, journal := hput (Carries.accepts h hin) rfl }
  | fillGap _ _ _ _ _ h =>
    exact { hc with
      sent := hsent
      journal := hput (b := false) (q := c) (Carries.accepts h hin) rfl }
  | @adopt src m hinp =>
    have he : P m.entry := hin _ _ hinp _ (by simp [Message.entries])
    have hj : ∀ i e, (c.adoptCommitted m.entry).journal i = some e → P e := by
      intro i e hi
      unfold adoptCommitted at hi
      split at hi
      · exact hput he rfl i e hi
      · exact hc.journal i e hi
    exact { hc with sent := hsent, journal := hj }
  | @fillHole src m hinp =>
    have he : P m.entry := hin _ _ hinp _ (by simp [Message.entries])
    exact { hc with sent := hsent, journal := hput he rfl }
  | sync h =>
    obtain ⟨d₀, hsy⟩ := h.synced hs hd
    refine { hc with sent := hsent, disk := fun d' hd' i e he => ?_ }
    cases hd'
    rw [hsy.durable] at he
    split at he
    · exact hc.journal i e he
    · exact hc.disk d₀ hsy.before i e he
  | fail hd₀ hdur =>
    refine { hc with sent := hsent, disk := fun d' hd' => ?_ }
    cases hd'
    rw [hdur]
    exact hc.disk _ hd₀
  | close => exact { hc with sent := hsent, candidate := hempty }
  | _ => exact { hc with sent := hsent }

/-! ### Runs -/

theorem Core.Restarts.carries (h : c.Restarts hash c') (hc : Carries P c) : Carries P c' := by
  have hreborn : Carries P c.reborn := by
    refine ⟨(fun i e h => by cases h), fun d hd i e he => ?_,
      fun e he => absurd he List.not_mem_nil, fun i e he => absurd he List.not_mem_nil, hc.sent⟩
    obtain ⟨d₀, hd₀, rfl⟩ := Option.map_eq_some_iff.mp hd
    exact hc.disk d₀ hd₀ i e he
  cases h with
  | blank => exact hreborn
  | @recovered d m c₁ hd _ _ h =>
    rw [Replica.rebuildCommittedState_frame h]
    refine { hreborn with journal := fun i e he => ?_ }
    obtain ⟨hread, -⟩ := Option.filter_eq_some_iff.mp
      (show (d.durable i).filter _ = some e from he)
    exact hc.disk d hd i e hread

theorem noteInstalled_carries (hc : Carries P c) : Carries P c.noteInstalled :=
  { hc with sent := hc.sent.noteInstalled }

/-- What holds of the entries that leaders make holds of all entries in the cluster. -/
theorem Moves.carries {safe : Core → Prop} {cs cs' : ℕ → Core}
    (h : Moves hash n allow safe cs cs') (hs : AllSane hash n cs)
    (hnew : ∀ r < n, ∀ m, (cs r).status = .normal → (cs r).isLeader = true → (cs r).Admits m →
      ((cs r).Behind m → allow .disorder) → P ((cs r).nextEntry hash m))
    (hc : ∀ r < n, Carries P (cs r)) : ∀ r < n, Carries P (cs' r) := by
  intro r hr
  refine h.single (hc r hr) (fun inp c' hinp h => ?_) fun c₀ c' _ hc₀ h => h.carries ?_
  · refine h.carries (hs.sane r hr) (hs.disk r hr) (fun src m hm => ?_) (hnew r hr) (hc r hr)
    obtain ⟨hsrc, rec, hrec, hev⟩ := hinp src m hm
    exact (hc src hsrc).sent rec hrec r m hev
  · rcases hc₀ with rfl | rfl
    · exact hc r hr
    · exact noteInstalled_carries (hc r hr)

theorem start_carries (k : ClusterConfig n) (r : ℕ) : Carries P (Cluster.startCores k r) := by
  refine ⟨(fun i e h => by cases h), fun d hd i e he => ?_,
    fun e he => absurd he List.not_mem_nil, fun i e he => absurd he List.not_mem_nil,
    (fun _ h => by cases h)⟩
  rw [k.blank r d hd] at he
  cases he

end Hivemind
