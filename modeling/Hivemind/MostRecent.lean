import Mathlib.Data.Prod.Lex
import Mathlib.Order.Bounds.Basic
import Hivemind.OwnVotes
import Hivemind.Lineage

/-! The log that a view change selects. The loop of `maybeStartView` passes once over the reports in
the order of their replicas and keeps one of them; what it keeps is the most recent report, whatever
order the reports came in. -/
namespace Hivemind

open Core Relation

variable {hash : Hash} {inp : Input} {allow : Hazard → Prop} {c c' : Core}

/-- How recent a report is: its last normal view, then the length of its log. -/
def DoViewChangeMsg.recency (m : DoViewChangeMsg) : ℕ ×ₗ ℕ := toLex (m.lastNormalView, m.opNumber)

/-- The same entry, or two that the checksum does not tell apart. -/
def LogEntry.Agrees (hash : Hash) (e e' : LogEntry) : Prop :=
  e = e' ∨ (e.hashInput ≠ e'.hashInput ∧ hash e.hashInput = hash e'.hashInput)

/-- What a replica has checked of a report that it holds under `i`. -/
structure Checked (hash : Hash) (replicaCount i : ℕ) (m : DoViewChangeMsg) : Prop where
  member : i < replicaCount
  author : m.replicaId = i
  tip : dvcTipSemanticsValid hash m = true
  entries : ∀ e ∈ m.entries, e.valid hash = true

/-- Every report held has been checked. -/
def Heard (hash : Hash) (c : Core) : Prop :=
  ∀ i, c.doVcReceived i = true → Checked hash c.replicaCount i (c.doVcMsgs i)

/-- The report of replica `k` is the most recent one that `c` holds, and `tip` is the checksum of
the log's last entry. A log without entries has the tip zero. -/
structure MostRecent (hash : Hash) (c : Core) (k tip : ℕ) : Prop where
  held : c.doVcReceived k = true
  newest : ∀ i, c.doVcReceived i = true → (c.doVcMsgs i).recency ≤ (c.doVcMsgs k).recency
  tip : ((c.doVcMsgs k).opNumber = 0 ∧ (c.doVcMsgs k).entries = [] ∧ tip = 0) ∨
    ∃ e, (c.doVcMsgs k).entries.filter (fun e => e.opNumber == (c.doVcMsgs k).opNumber) = [e] ∧
      e.valid hash = true ∧ e.checksum = tip
  ties : ∀ i, c.doVcReceived i = true → (c.doVcMsgs i).recency = (c.doVcMsgs k).recency → i ≠ k →
    ∀ e ∈ (c.doVcMsgs i).entries, ∀ e' ∈ (c.doVcMsgs k).entries, e.opNumber = e'.opNumber →
      e.checksum = e'.checksum ∧ e.Agrees hash e'
  committed : ∀ i, c.doVcReceived i = true → ∀ e ∈ (c.doVcMsgs i).entries,
    e.opNumber ≤ (c.doVcMsgs i).commitMin → ∀ e' ∈ (c.doVcMsgs k).entries,
      e.opNumber = e'.opNumber → e.checksum = e'.checksum ∧ e.Agrees hash e'
  bound : IsGreatest { x | ∃ i, c.doVcReceived i = true ∧ (c.doVcMsgs i).commitMin = x }
    c.maxDvcCommit
  within : c.maxDvcCommit ≤ (c.doVcMsgs k).opNumber

theorem LogEntry.agrees_of_checksum {e e' : LogEntry} (he : e.valid hash = true)
    (he' : e'.valid hash = true) (h : e.checksum = e'.checksum) : e.Agrees hash e' := by
  by_cases hi : e.hashInput = e'.hashInput
  · exact .inl (eq_of_hashInput_eq hi h)
  · refine .inr ⟨hi, ?_⟩
    rw [← valid_iff.mp he, ← valid_iff.mp he', h]

/-! ### The loop -/

section Loop

variable {received : ℕ → Bool} {msgs : ℕ → DoViewChangeMsg}

/-- What one round of the selection loop can do with the report of `i`. -/
inductive Round (hash : Hash) (received : ℕ → Bool) (msgs : ℕ → DoViewChangeMsg) (i : ℕ) :
    Option (ℕ × ℕ) → Option (ℕ × ℕ) → Prop where
  | absent {current : Option (ℕ × ℕ)} (hno : received i = false) :
      Round hash received msgs i current current
  | first {tip : ℕ} (hheld : received i = true)
      (htip : dvcEntryChecksum hash (msgs i) (msgs i).opNumber = some tip) :
      Round hash received msgs i none (some (i, tip))
  | older {j tip : ℕ} (hlt : (msgs i).recency < (msgs j).recency) :
      Round hash received msgs i (some (j, tip)) (some (j, tip))
  | tied {j tip : ℕ} (heq : (msgs i).recency = (msgs j).recency)
      (hagree : dvcOverlapEqual (msgs i) (msgs j) = true) :
      Round hash received msgs i (some (j, tip)) (some (j, tip))
  | lower {j tip : ℕ} (hheld : received i = true)
      (hid : ¬ (msgs j).replicaId < (msgs i).replicaId) :
      Round hash received msgs i (some (j, tip)) (some (i, tip))
  | newer {j tip tip' : ℕ} (hheld : received i = true)
      (htip : dvcEntryChecksum hash (msgs i) (msgs i).opNumber = some tip')
      (hlt : (msgs j).recency < (msgs i).recency) :
      Round hash received msgs i (some (j, tip)) (some (i, tip'))

theorem selectSource_cons {i : ℕ} {rest : List ℕ} {current r : Option (ℕ × ℕ)}
    (h : selectSource hash received msgs (i :: rest) current = some r) :
    ∃ next, Round hash received msgs i current next ∧
      selectSource hash received msgs rest next = some r := by
  unfold selectSource at h
  split at h
  · next hno => exact ⟨current, .absent (by simpa using hno), h⟩
  next hheld =>
  replace hheld : received i = true := by simpa using hheld
  split at h
  · cases h
  next tip htip =>
  split at h
  · exact ⟨_, .first hheld htip, h⟩
  next j tip' =>
  dsimp only at h
  -- The tests of the loop compare the pairs in the lexicographic order.
  split at h
  · next hview => exact ⟨_, .older (Prod.Lex.toLex_lt_toLex.mpr (.inl hview)), h⟩
  next hview =>
  split at h
  · next hop => exact ⟨_, .older (Prod.Lex.toLex_lt_toLex.mpr (.inr hop)), h⟩
  next hop =>
  split at h
  · next heq =>
    split_ifs at h with hsum hoverlap hid
    · have hrec : (msgs i).recency = (msgs j).recency := by
        unfold DoViewChangeMsg.recency
        rw [heq.1, heq.2]
      exact ⟨_, .tied hrec (by simpa using hoverlap), h⟩
    · rw [not_not.mp hsum] at h
      exact ⟨_, .lower hheld hid, h⟩
  · next hne =>
    refine ⟨_, .newer hheld htip (Prod.Lex.toLex_lt_toLex.mpr ?_), h⟩
    omega

/-- What the loop has when it has seen the reports of the replicas below `n`: the first of the most
recent ones, and every other one of them has been compared with it. -/
def Best (hash : Hash) (received : ℕ → Bool) (msgs : ℕ → DoViewChangeMsg) (n : ℕ) :
    Option (ℕ × ℕ) → Prop
  | none => ∀ i < n, received i = false
  | some (k, tip) => k < n ∧ received k = true ∧
      dvcEntryChecksum hash (msgs k) (msgs k).opNumber = some tip ∧
      ∀ i < n, received i = true → (msgs i).recency ≤ (msgs k).recency ∧
        ((msgs i).recency = (msgs k).recency → i = k ∨ dvcOverlapEqual (msgs i) (msgs k) = true)

theorem Best.skip {n : ℕ} {current : Option (ℕ × ℕ)} (hno : received n = false)
    (hb : Best hash received msgs n current) : Best hash received msgs (n + 1) current := by
  have hlt : ∀ i < n + 1, received i = true → i < n := by
    intro i hi hrec
    rcases Nat.lt_succ_iff_lt_or_eq.mp hi with hi | rfl
    · exact hi
    · rw [hno] at hrec
      cases hrec
  cases current with
  | none =>
    intro i hi
    by_contra hrec
    rw [Bool.not_eq_false] at hrec
    rw [hb i (hlt i hi hrec)] at hrec
    cases hrec
  | some p =>
    obtain ⟨hk, hheld, htip, hall⟩ := hb
    exact ⟨by omega, hheld, htip, fun i hi hrec => hall i (hlt i hi hrec) hrec⟩

theorem Round.best {n : ℕ} {current next : Option (ℕ × ℕ)}
    (hauthor : ∀ i, received i = true → (msgs i).replicaId = i)
    (h : Round hash received msgs n current next) (hb : Best hash received msgs n current) : Best hash received msgs (n + 1) next := by
  cases h with
  | absent hno => exact hb.skip hno
  | first hheld htip =>
    refine ⟨n.lt_succ_self, hheld, htip, ?_⟩
    intro i hi hrec
    rcases Nat.lt_succ_iff_lt_or_eq.mp hi with hlt | rfl
    · rw [hb i hlt] at hrec
      cases hrec
    · exact ⟨le_rfl, fun _ => .inl rfl⟩
  | @older j _ hlt =>
    obtain ⟨hj, hjheld, htip, hall⟩ := hb
    refine ⟨by omega, hjheld, htip, ?_⟩
    intro i hi hrec
    rcases Nat.lt_succ_iff_lt_or_eq.mp hi with hi | rfl
    · exact hall i hi hrec
    · exact ⟨hlt.le, fun heq => absurd heq hlt.ne⟩
  | @tied j _ heq hagree =>
    obtain ⟨hj, hjheld, htip, hall⟩ := hb
    refine ⟨by omega, hjheld, htip, ?_⟩
    intro i hi hrec
    rcases Nat.lt_succ_iff_lt_or_eq.mp hi with hi | rfl
    · exact hall i hi hrec
    · exact ⟨heq.le, fun _ => .inr hagree⟩
  | @lower j _ hheld hid =>
    -- The replicas are passed in ascending order, so this branch is never taken.
    obtain ⟨hj, hjheld, -⟩ := hb
    rw [hauthor n hheld, hauthor j hjheld] at hid
    exact absurd hj hid
  | @newer j _ _ hheld htip hlt =>
    obtain ⟨-, -, -, hall⟩ := hb
    refine ⟨n.lt_succ_self, hheld, htip, ?_⟩
    intro i hi hrec
    rcases Nat.lt_succ_iff_lt_or_eq.mp hi with hi | rfl
    · have hbelow := (hall i hi hrec).1.trans_lt hlt
      exact ⟨hbelow.le, fun heq => absurd heq hbelow.ne⟩
    · exact ⟨le_rfl, fun _ => .inl rfl⟩

theorem selectSource_best (hauthor : ∀ i, received i = true → (msgs i).replicaId = i)
    {len : ℕ} : ∀ {n : ℕ} {current r : Option (ℕ × ℕ)}, Best hash received msgs n current →
      selectSource hash received msgs (List.range' n len) current = some r →
        Best hash received msgs (n + len) r := by
  induction len with
  | zero =>
    intro n current r hb h
    cases h
    exact hb
  | succ len ih =>
    intro n current r hb h
    obtain ⟨next, hround, hrest⟩ := selectSource_cons h
    have hbest := ih (hround.best hauthor hb) hrest
    rwa [Nat.add_right_comm] at hbest

end Loop

/-! ### The guards behind the loop -/

namespace Core

theorem maxDvcCommit_attained : c.maxDvcCommit = 0 ∨
    ∃ i < c.replicaCount, c.doVcReceived i = true ∧ (c.doVcMsgs i).commitMin = c.maxDvcCommit := by
  have key : ∀ (is : List ℕ) (m₀ : ℕ),
      is.foldl (fun m i => if c.doVcReceived i then max m (c.doVcMsgs i).commitMin else m) m₀ = m₀ ∨
      ∃ i ∈ is, c.doVcReceived i = true ∧ (c.doVcMsgs i).commitMin =
        is.foldl (fun m i => if c.doVcReceived i then max m (c.doVcMsgs i).commitMin else m) m₀ := by
    intro is
    induction is with
    | nil => simp
    | cons j is ih =>
      intro m₀
      rw [List.foldl_cons]
      rcases ih (if c.doVcReceived j then max m₀ (c.doVcMsgs j).commitMin else m₀) with
        h | ⟨i, hi, hrec, h⟩
      · rw [h]
        split
        · next hrec =>
          rcases max_choice m₀ (c.doVcMsgs j).commitMin with hmax | hmax
          · exact .inl hmax
          · exact .inr ⟨j, List.mem_cons_self, hrec, hmax.symm⟩
        · exact .inl rfl
      · exact .inr ⟨i, List.mem_cons_of_mem _ hi, hrec, h⟩
  rcases key (List.range c.replicaCount) 0 with h | ⟨i, hi, hrec, h⟩
  · exact .inl h
  · exact .inr ⟨i, List.mem_range.mp hi, hrec, h⟩

theorem maxDvcCommit_greatest (hheard : Heard hash c) {k : ℕ} (hk : c.doVcReceived k = true) :
    IsGreatest { x | ∃ i, c.doVcReceived i = true ∧ (c.doVcMsgs i).commitMin = x }
      c.maxDvcCommit := by
  have hupper : ∀ i, c.doVcReceived i = true → (c.doVcMsgs i).commitMin ≤ c.maxDvcCommit :=
    fun i hi => le_maxDvcCommit (hheard i hi).member hi
  constructor
  · rcases maxDvcCommit_attained (c := c) with hzero | ⟨i, -, hrec, h⟩
    · have hle := hupper k hk
      exact ⟨k, hk, by omega⟩
    · exact ⟨i, hrec, h⟩
  · rintro x ⟨i, hi, rfl⟩
    exact hupper i hi

end Core

/-- The tip that the code reads off a checked report is that of the only entry there. -/
theorem Checked.tip_cases {n i tip : ℕ} {m : DoViewChangeMsg} (h : Checked hash n i m)
    (htip : dvcEntryChecksum hash m m.opNumber = some tip) :
    (m.opNumber = 0 ∧ m.entries = [] ∧ tip = 0) ∨
      ∃ e, m.entries.filter (fun e => e.opNumber == m.opNumber) = [e] ∧ e.valid hash = true ∧
        e.checksum = tip := by
  have hsem := h.tip
  unfold dvcTipSemanticsValid at hsem
  unfold dvcEntryChecksum at htip
  split at hsem
  · next hzero =>
    rw [if_pos hzero] at htip
    refine .inl ⟨by simpa using hzero, ?_, (Option.some.inj htip).symm⟩
    rw [DoViewChangeMsg.entries, beq_iff_eq.mp hsem, List.take_zero]
  · next hpos =>
    rw [if_neg hpos] at htip
    rw [Bool.and_eq_true, beq_iff_eq, List.length_eq_one_iff] at hsem
    obtain ⟨hvalid, e, he⟩ := hsem
    rw [he] at hvalid
    refine .inr ⟨e, he, by simpa using hvalid, ?_⟩
    obtain ⟨e', hfind, rfl⟩ := Option.map_eq_some_iff.mp htip
    have hmem : e' ∈ m.entries.filter (fun e => e.opNumber == m.opNumber) := by
      have hprop := List.find?_some hfind
      rw [Bool.and_eq_true] at hprop
      exact List.mem_filter.mpr ⟨List.mem_of_find?_eq_some hfind, hprop.1⟩
    rw [he, List.mem_singleton] at hmem
    rw [hmem]

theorem dvcOverlapEqual_iff {a b : DoViewChangeMsg} : dvcOverlapEqual a b = true ↔
    ∀ e ∈ a.entries, ∀ e' ∈ b.entries, e.opNumber = e'.opNumber → e.checksum = e'.checksum := by
  unfold dvcOverlapEqual
  simp only [List.all_eq_true, Bool.not_eq_true', Bool.and_eq_false_iff, beq_eq_false_iff_ne,
    bne_eq_false_iff_eq]
  constructor
  · intro h e he e' he' hop
    exact (h e he e' he').resolve_left (not_not.mpr hop)
  · intro h e he e' he'
    exact or_iff_not_imp_left.mpr fun hop => h e he e' he' (not_not.mp hop)

theorem Core.evidenceAgrees_spec {m : DoViewChangeMsg} (h : c.evidenceAgrees m = true) {i : ℕ}
    (hi : i < c.replicaCount) (hrec : c.doVcReceived i = true) :
    ∀ e ∈ (c.doVcMsgs i).entries, e.opNumber ≤ (c.doVcMsgs i).commitMin → ∀ e' ∈ m.entries,
      e.opNumber = e'.opNumber → e.checksum = e'.checksum := by
  intro e he hle e' he' hop
  have hall := List.all_eq_true.mp h i (List.mem_range.mpr hi)
  rw [hrec, Bool.not_true, Bool.false_or] at hall
  have hentry := List.all_eq_true.mp hall e he
  rw [decide_eq_false (not_lt.mpr hle), Bool.false_or] at hentry
  have hpair := List.all_eq_true.mp hentry e' he'
  by_contra hne
  simp [hop, Ne.symm hne] at hpair

theorem Core.Chosen.mostRecent {k tip : ℕ} (hheard : Heard hash c) (h : c.Chosen hash k tip) :
    MostRecent hash c k tip := by
  have hauthor : ∀ i, c.doVcReceived i = true → (c.doVcMsgs i).replicaId = i :=
    fun i hi => (hheard i hi).author
  have hstart : Best hash c.doVcReceived c.doVcMsgs 0 none := fun i hi => absurd hi i.not_lt_zero
  have hloop := h.selected
  rw [List.range_eq_range'] at hloop
  obtain ⟨-, hheld, htip, hall⟩ := selectSource_best hauthor hstart hloop
  rw [Nat.zero_add] at hall
  have hvalid : ∀ i, c.doVcReceived i = true → ∀ e ∈ (c.doVcMsgs i).entries, e.valid hash = true :=
    fun i hi => (hheard i hi).entries
  -- Both comparisons are of checksums of valid entries.
  have hagree : ∀ i, c.doVcReceived i = true → ∀ e ∈ (c.doVcMsgs i).entries,
      ∀ e' ∈ (c.doVcMsgs k).entries, e.checksum = e'.checksum →
        e.checksum = e'.checksum ∧ e.Agrees hash e' :=
    fun i hi e he e' he' hsum =>
      ⟨hsum, LogEntry.agrees_of_checksum (hvalid i hi e he) (hvalid k hheld e' he') hsum⟩
  constructor
  · exact hheld
  · exact fun i hi => (hall i (hheard i hi).member hi).1
  · exact (hheard k hheld).tip_cases htip
  · intro i hi heq hne e he e' he' hop
    have hoverlap := ((hall i (hheard i hi).member hi).2 heq).resolve_left hne
    exact hagree i hi e he e' he' (dvcOverlapEqual_iff.mp hoverlap e he e' he' hop)
  · intro i hi e he hle e' he' hop
    exact hagree i hi e he e' he'
      (evidenceAgrees_spec h.evidence (hheard i hi).member hi e he hle e' he' hop)
  · exact maxDvcCommit_greatest hheard hheld
  · exact h.bound

/-! ### Which reports are held -/

theorem dvcMessage_valid (hs : SlotOk hash c) : ∀ e ∈ c.dvcMessage.entries, e.valid hash = true := by
  intro e he
  have hentries : c.dvcMessage.entries = tailEntries c.journalGet c.opNumber dvcLogMax :=
    List.take_left
  obtain ⟨op, hget⟩ := mem_tailEntries (hentries ▸ he)
  exact (hs (journalGet_eq_some.mp hget).2.1).2.2

theorem peerLogEntriesOk_valid {m : DoViewChangeMsg}
    (h : peerLogEntriesOk hash m.logEntries m.logEntryCount dvcLogMax = true) :
    ∀ e ∈ m.entries, e.valid hash = true := by
  intro e he
  rw [peerLogEntriesOk, Bool.and_eq_true, List.all_eq_true] at h
  have hentry := h.2 e he
  rw [Bool.and_eq_true] at hentry
  exact hentry.2

namespace Heard

theorem record (h : Heard hash c) {m : DoViewChangeMsg}
    (hm : Checked hash c.replicaCount m.replicaId m) : Heard hash (c.recordDvc m) := by
  intro i hi
  unfold Core.recordDvc at hi ⊢
  dsimp only at hi ⊢
  split at hi
  · next hknown =>
    rw [if_pos hknown]
    exact h i hi
  · next hknown =>
    rw [if_neg hknown]
    by_cases heq : i = m.replicaId
    · rw [heq, upd_self]
      exact hm
    · rw [upd_of_ne _ _ heq] at hi ⊢
      exact h i hi

theorem own (h : Heard hash c) (hs : Sane hash c) (hlead : c.isLeader = true)
    (hval : dvcTipSemanticsValid hash c.dvcMessage = true) :
    Heard hash (c.recordDvc c.dvcMessage) :=
  h.record ⟨isLeader_lt hs.count hlead, rfl, hval, dvcMessage_valid hs.slots⟩

theorem place {c₁ : Core} (h : Heard hash c) (hp : c.Placed hash c₁) : Heard hash c₁ := by
  rw [hp.frame]
  exact h

end Heard

/-- A transition keeps the reports checked, if the message at hand is from a replica of the
cluster. -/
theorem Act.heard (h : Act hash inp allow c c')
    (hsrc : ∀ src m, inp = .message src m → src < c.replicaCount) (hs : Sane hash c)
    (hh : Heard hash c) : Heard hash c' := by
  cases h with
  | view h =>
    cases h with
    | enter => exact fun _ hi => nomatch hi
    | recordOwn hlead _ hval => exact hh.own hs hlead hval
    | recordPeer hinp hid _ _ _ _ _ hentries hval =>
      exact hh.record ⟨hid ▸ hsrc _ _ hinp, rfl, hval, peerLogEntriesOk_valid hentries⟩
    | place _ h => exact hh.place h
    | openView _ h =>
      have hplaced := hh.place h
      rw [openView_frame]
      exact hplaced
    | _ => exact hh
  | commit h =>
    rw [h.frame]
    exact hh
  | _ => exact hh

/-- A call brings no message, or one of a replica of the cluster. -/
def Input.FromMember (replicaCount : ℕ) (inp : Input) : Prop :=
  ∀ src m, inp = .message src m → src < replicaCount

theorem heard_upheld {n : ℕ} : Upheld hash (Input.FromMember n)
    (fun c => DiskOk hash c ∧ Heard hash c ∧ c.replicaCount = n) where
  act hinp := by
    rintro c c' hs ⟨hd, hh, hn⟩ h
    refine ⟨h.diskOk hs hd, h.heard (fun src m hm => ?_) hs hh, h.place.2.1.trans hn⟩
    rw [hn]
    exact hinp src m hm
  restart := by
    rintro c c₀ c' hc₀ hs ⟨hd, -, hn⟩ hre
    obtain ⟨hs', hd₀, -, hcount, -, hdvc⟩ := hre.revives hc₀ hs hd
    refine ⟨hs', hre.diskOk hd₀, fun i hi => ?_, hcount.trans hn⟩
    rw [hdvc i] at hi
    cases hi

namespace Server

variable {aead : Aead} {n : ℕ} {v : Server}

/-- The sockets are bound to replicas of the cluster, and the reports held are from there. -/
structure Hears (hash : Hash) (n : ℕ) (v : Server) : Prop where
  sound : v.table.Sound
  count : v.table.replicaCount = n
  process : v.process.Upholds hash (fun c => DiskOk hash c ∧ Heard hash c ∧ c.replicaCount = n)

theorem Hears.calls (h : Hears hash n v) (e : PeerEvent) :
    ∀ call ∈ (v.table.step aead hash e).2, call.src < n := by
  intro call hcall
  rcases PeerTable.step_cases aead hash v.table e with
    ⟨-, hnil⟩ | ⟨i, got, failed, rfl, hread⟩ | ⟨dst, -, hnil, -⟩
  · rw [hnil] at hcall
    exact absurd hcall List.not_mem_nil
  · obtain ⟨-, hbound, -, hprogress⟩ := (hread _ PeerTable.names_any).2 call hcall
    have hmember := (hprogress.sound h.sound).member hbound
    rw [hprogress.count, h.count] at hmember
    exact hmember
  · rw [hnil] at hcall
    exact absurd hcall List.not_mem_nil

theorem Hears.step (h : Hears hash n v) (e : ServerEvent) : Hears hash n (v.step aead hash e) := by
  cases e with
  | socket e env =>
    have hstep : PeerTable.Stepped v.table (v.table.step aead hash e).1 :=
      PeerTable.step_stepped v.table e
    refine ⟨hstep.sound h.sound, hstep.count.trans h.count, heard_upheld.calls h.process ?_⟩
    intro x hx src m hm
    obtain ⟨k, hk, rfl⟩ := List.mem_mapIdx.mp hx
    cases hm
    exact h.calls e _ (List.getElem_mem hk)
  | call inp env =>
    rw [Server.step]
    split
    · exact h
    · next hother =>
      refine ⟨h.sound, h.count, heard_upheld.call h.process ?_ env⟩
      rintro src m rfl
      exact absurd rfl hother
  | crash env =>
    refine ⟨?_, h.count, heard_upheld.crash h.process env⟩
    exact PeerTable.start_sound _ _ _

theorem Hears.run (h : Hears hash n v) (events : List ServerEvent) :
    Hears hash n (v.run aead hash events) := by
  induction events generalizing v with
  | nil => exact h
  | cons e rest ih => exact ih (h.step e)

theorem start_hears {cfg : ReplicaConfig} (key : Option Key) (hcount : 0 < cfg.replicaCount)
    (hblank : ∀ d ∈ cfg.disk, d = {}) : Hears hash cfg.replicaCount (start cfg key) where
  sound := PeerTable.start_sound _ _ _
  count := rfl
  process := ⟨_, Process.start_runsAs cfg, Replica.freshState_sane hcount, Process.start_diskOk hblank,
    (fun _ hi => nomatch hi), rfl⟩

end Server

/-! ### The selection -/

namespace Replica

variable {env : Env} {abort : Replica → Outcome} {s : Replica}

/-- The state in which `maybeStartView` starts to collect the log of replica `k`. -/
def selecting (s : Replica) (k tip : ℕ) : Replica :=
  { s.core (fun c => c.select k (c.doVcMsgs k).lastNormalView (c.doVcMsgs k).opNumber tip
      c.maxDvcCommit) with selectedNextOp := s.commitMin + 1 }

theorem maybeStartView_cases (hheard : Heard hash s.toCore) :
    s.maybeStartView hash env abort = .ok s ∨
    (s.pendingViewSelection = true ∧
      s.maybeStartView hash env abort = s.advanceSelectedView hash abort) ∨
    ∃ k tip, MostRecent hash s.toCore k tip ∧ s.maybeStartView hash env abort =
      (s.selecting k tip).collectCandidate hash env abort (s.doVcMsgs k).entries := by
  unfold maybeStartView
  split
  · exact .inl rfl
  split
  · next hpending => exact .inr (.inl ⟨hpending, rfl⟩)
  split
  · exact .inl rfl
  · next dvc tip hchoose =>
    obtain ⟨k, rfl, hchosen⟩ := Core.chooseDvc_cases hchoose
    have hrecent := hchosen.mostRecent hheard
    refine .inr (.inr ⟨k, tip, hrecent, ?_⟩)
    have hauthor : (s.doVcMsgs k).replicaId = k := (hheard k hrecent.held).author
    rw [hauthor]
    rfl

theorem onDoViewChange_heard {src : ℕ} (m : DoViewChangeMsg) (hsrc : src < s.replicaCount)
    (hheard : Heard hash s.toCore) (hok : s.dvcAcceptable hash src m = true) :
    s.onDoViewChange hash env src m = s.abortSelectedView hash env ∨
    ∃ s' : Replica, s'.toCore = s.recordDvc m ∧ Heard hash s'.toCore ∧
      s.onDoViewChange hash env src m =
        s'.maybeStartView hash env (abortSelectedView hash env) := by
  unfold onDoViewChange
  rw [hok, Bool.not_true, if_neg Bool.false_ne_true]
  split
  · exact .inl rfl
  · simp only [dvcAcceptable, Bool.and_eq_true, beq_iff_eq] at hok
    obtain ⟨⟨⟨⟨⟨⟨-, hid⟩, -⟩, -⟩, hentries⟩, htip⟩, -⟩ := hok
    refine .inr ⟨_, rfl, ?_, rfl⟩
    exact hheard.record ⟨hid ▸ hsrc, rfl, htip, peerLogEntriesOk_valid hentries⟩

theorem maybeDoViewChange_heard {m : DoViewChangeMsg} (hs : Sane hash s.toCore)
    (hheard : Heard hash s.toCore) (hq : s.viewChangeQuorum ≤ s.startVcTotal)
    (hlead : s.isLeader = true) (hm : s.buildDvc hash = some m) :
    ∃ s' : Replica, s'.toCore = (s.sendTo s.leader (.doViewChange m)).recordDvc m ∧
      Heard hash s'.toCore ∧
      s.maybeDoViewChange hash env abort = s'.maybeStartView hash env abort := by
  have hbuild : s.dvcMessage = m ∧ dvcTipSemanticsValid hash s.dvcMessage = true := by
    unfold Core.buildDvc at hm
    split at hm
    · next hval => exact ⟨Option.some.inj hm, hval⟩
    · cases hm
  obtain ⟨rfl, hval⟩ := hbuild
  have hsent : Sane hash (s.sendTo s.leader (.doViewChange s.dvcMessage)) := { hs with }
  refine ⟨s.core (fun c => (c.sendTo c.leader (.doViewChange s.dvcMessage)).recordDvc s.dvcMessage),
    rfl, ?_, ?_⟩
  · exact Heard.own (c := s.sendTo s.leader (.doViewChange s.dvcMessage)) hheard hsent hlead hval
  · unfold maybeDoViewChange
    rw [if_neg (not_lt.mpr hq), hm]
    exact if_pos hlead

end Replica

/-- Whatever reports a replica holds, a selection of `maybeStartView` takes the most recent of them.
What is assumed of the reports is what `onDoViewChange` and `buildDvc` have checked: it holds when
these two call `maybeStartView`, and at any point of any run. -/
theorem selection_most_recent (aead : Aead) (hash : Hash) :
    (∀ (s : Replica) (env : Env) (abort : Replica → Outcome), Heard hash s.toCore →
      s.maybeStartView hash env abort = .ok s ∨
      (s.pendingViewSelection = true ∧
        s.maybeStartView hash env abort = s.advanceSelectedView hash abort) ∨
      ∃ k tip, MostRecent hash s.toCore k tip ∧ s.maybeStartView hash env abort =
        (s.selecting k tip).collectCandidate hash env abort (s.doVcMsgs k).entries) ∧
    (∀ (s : Replica) (env : Env) (src : ℕ) (m : DoViewChangeMsg), src < s.replicaCount →
      Heard hash s.toCore → s.dvcAcceptable hash src m = true →
      s.onDoViewChange hash env src m = s.abortSelectedView hash env ∨
      ∃ s' : Replica, s'.toCore = s.recordDvc m ∧ Heard hash s'.toCore ∧
        s.onDoViewChange hash env src m =
          s'.maybeStartView hash env (Replica.abortSelectedView hash env)) ∧
    (∀ (s : Replica) (env : Env) (abort : Replica → Outcome) (m : DoViewChangeMsg),
      Sane hash s.toCore → Heard hash s.toCore → s.viewChangeQuorum ≤ s.startVcTotal →
      s.isLeader = true → s.buildDvc hash = some m →
      ∃ s' : Replica, s'.toCore = (s.sendTo s.leader (.doViewChange m)).recordDvc m ∧
        Heard hash s'.toCore ∧
        s.maybeDoViewChange hash env abort = s'.maybeStartView hash env abort) ∧
    ∀ (cfg : ReplicaConfig) (key : Option Key), 0 < cfg.replicaCount → (∀ d ∈ cfg.disk, d = {}) →
      ∀ events, let v := (Server.start cfg key).run aead hash events
      (∀ e, ∀ call ∈ (v.table.step aead hash e).2, call.src < cfg.replicaCount) ∧
      (v.process.stopped = false → ∀ c, ReflTransGen (fun c c' => ∃ inp : Input,
        inp.FromMember cfg.replicaCount ∧ Act hash inp (fun _ => True) c c')
          v.process.replica.toCore c → Heard hash c) := by
  refine ⟨fun s env abort => Replica.maybeStartView_cases, ?_, ?_, ?_⟩
  · intro s env src m hsrc hheard hok
    exact Replica.onDoViewChange_heard m hsrc hheard hok
  · intro s env abort m hs hheard hq hlead hm
    exact Replica.maybeDoViewChange_heard hs hheard hq hlead hm
  · intro cfg key hcount hblank events v
    have hv : v.Hears hash cfg.replicaCount := (Server.start_hears key hcount hblank).run events
    refine ⟨hv.calls, fun hrun c hacts => ?_⟩
    obtain ⟨c₀, hc₀, hs, hI⟩ := hv.process
    have heq := hc₀.running hrun
    subst heq
    -- Along the transitions the replica stays sane and keeps its place in the cluster.
    have hkept : Sane hash c ∧ DiskOk hash c ∧ Heard hash c ∧ c.replicaCount = cfg.replicaCount := by
      induction hacts with
      | refl => exact ⟨hs, hI⟩
      | tail _ hstep ih =>
        obtain ⟨inp, hinp, hact⟩ := hstep
        exact ⟨hact.sane ih.1, heard_upheld.act hinp _ _ ih.1 ih.2 hact⟩
    exact hkept.2.2.1

/-- A report of replica 0, with one entry of view 0. -/
def firstReport : DoViewChangeMsg :=
  let e : LogEntry := { opNumber := 1, command := .noop, clientId := 7, requestId := 1 }
  let e : LogEntry := { e with checksum := e.computeChecksum plainHash }
  { viewNumber := 1, replicaId := 0, lastNormalView := 0, opNumber := 1, commitMin := 0
    logEntries := Core.padEntries [e] dvcLogMax, logEntryCount := 1 }

/-- Replica 1 of three, which has seen no leader for a while and has the vote of replica 0. -/
def electedServer : Server :=
  let frame := frameOf Aead.bare none (zeroes 24)
    (versioned 0 (serialize (.startViewChange ⟨1, 0⟩)))
  (Server.start ((ClusterConfig.uniform 3 (by decide) true).cfg 1) none).run Aead.bare plainHash
    [.call .tick { now := 1 }, .call .tick { now := 3000 },
      .socket .accept fun _ => { now := 3000 },
      .socket (.read 0 (some frame) []) fun _ => { now := 3000 }]

/-- It holds its own report, and then selects with that of replica 0. -/
theorem selection_most_recent_elected :
    let s := electedServer.process.replica
    s.doVcReceived 1 = true ∧ s.dvcAcceptable plainHash 0 firstReport = true ∧
      ∃ k tip, MostRecent plainHash (s.recordDvc firstReport) k tip := by
  intro s
  have hok : s.dvcAcceptable plainHash 0 firstReport = true := by decide +kernel
  refine ⟨by decide +kernel, hok, ?_⟩
  obtain ⟨hselects, hreport, -, hruns⟩ := selection_most_recent Aead.bare plainHash
  have hheard : Heard plainHash s.toCore :=
    (hruns ((ClusterConfig.uniform 3 (by decide) true).cfg 1) none (by decide)
      (fun d hd => (Option.some.inj hd).symm) _).2 (by decide +kernel) _ .refl
  -- The call neither aborts nor returns at once: it has selected in view 1.
  have hstate : (s.onDoViewChange plainHash { now := 3000 } 0 firstReport).state.viewNumber = 1 ∧
      (s.onDoViewChange plainHash { now := 3000 } 0 firstReport).state.pendingViewSelection =
        true := by decide +kernel
  rcases hreport s { now := 3000 } 0 firstReport (by decide +kernel) hheard hok with
    habort | ⟨s', hcore, hheard', hcall⟩
  · rw [habort] at hstate
    exact absurd hstate.1 (by decide +kernel)
  · rw [hcall] at hstate
    have hidle : s'.pendingViewSelection = false := by
      rw [hcore]
      decide +kernel
    rcases hselects s' _ _ hheard' with hnone | ⟨hpending, -⟩ | ⟨k, tip, hrecent, -⟩
    · rw [hnone] at hstate
      exact absurd (hidle.symm.trans hstate.2) Bool.false_ne_true
    · exact absurd (hidle.symm.trans hpending) Bool.false_ne_true
    · rw [hcore] at hrecent
      exact ⟨k, tip, hrecent⟩

end Hivemind
