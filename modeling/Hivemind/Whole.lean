import Hivemind.Net
import Hivemind.Solid
import Hivemind.Sample

/-! The log tip is always present: in a cluster that loses no process, the journal of
every replica is the chain of ops 1, 2, ..., `opNumber` and nothing else. -/
namespace Hivemind

open Relation Core

variable {hash : Hash} {inp : Input} {allow : Hazard → Prop} {c c₁ c' : Core} {e : LogEntry}

/-! ### Links -/

/-- Every entry points at its predecessor, if the journal has that. -/
def Core.Chained (c : Core) : Prop := ∀ op e, c.journalGet op = some e → c.linkHolds e = true

theorem linkHolds_congr (h : c'.journalGet (e.opNumber - 1) = c.journalGet (e.opNumber - 1)) :
    c'.linkHolds e = c.linkHolds e := by
  unfold linkHolds
  rw [h]

theorem linkHolds_first (h : e.opNumber = 1) : c.linkHolds e = true ↔ e.parentChecksum = 0 := by
  rw [linkHolds, if_pos h, beq_iff_eq]

theorem linkHolds_next (h : e.opNumber ≠ 1) : c.linkHolds e = true ↔
    ∀ prev, c.journalGet (e.opNumber - 1) = some prev → prev.checksum = e.parentChecksum := by
  rw [linkHolds, if_neg h]
  cases hget : c.journalGet (e.opNumber - 1) with
  | none => exact ⟨(fun _ _ h => by cases h), fun _ => rfl⟩
  | some prev =>
    constructor
    · rintro hsum _ ⟨⟩
      exact beq_iff_eq.mp hsum
    · exact fun h => beq_iff_eq.mpr (h prev rfl)

theorem Core.Chained.extend (hc : c.Chained) (hlink : c.linkHolds e = true)
    (hget : ∀ op, c'.journalGet op = if op = e.opNumber then some e else c.journalGet op)
    (hpos : 0 < e.opNumber) (hnone : c.journalGet (e.opNumber + 1) = none) : c'.Chained := by
  intro op e' he'
  rw [hget] at he'
  split at he'
  · cases he'
    rw [linkHolds_congr, hlink]
    rw [hget, if_neg (by omega)]
  · next hne =>
    have hop := opNumber_of_journalGet he'
    have hsucc : op ≠ e.opNumber + 1 := by
      rintro rfl
      rw [hnone] at he'
      cases he'
    rw [linkHolds_congr, hc op e' he']
    rw [hget, if_neg (by omega)]

theorem Core.Chained.congr (hc : c.Chained) (hget : ∀ op, c'.journalGet op = c.journalGet op) :
    c'.Chained := by
  intro op e he
  rw [linkHolds_congr (hget _)]
  exact hc op e (hget op ▸ he)

theorem requestEntry_links (m : RequestMsg) :
    c.linkHolds (({ c with opNumber := c.opNumber + 1 } : Core).requestEntry hash m) = true := by
  let c₀ : Core := { c with opNumber := c.opNumber + 1 }
  have hparent : (c₀.requestEntry hash m).parentChecksum = c₀.lastChecksum := rfl
  have hop : (c₀.requestEntry hash m).opNumber = c.opNumber + 1 := rfl
  by_cases h0 : c.opNumber = 0
  · rw [linkHolds_first (by rw [hop, h0]), hparent, lastChecksum]
    exact if_pos (by show c.opNumber + 1 ≤ 1; omega)
  · rw [linkHolds_next (by rw [hop]; omega)]
    intro prev hprev
    have hprev' : c.journalGet c.opNumber = some prev := hprev
    have hat : c₀.journalGet (c₀.opNumber - 1) = some prev := hprev'
    rw [hparent, lastChecksum, if_neg (by show ¬ c.opNumber + 1 ≤ 1; omega), hat]

theorem linkHolds_of_parentMatches (hpos : 0 < e.opNumber) (h : c.parentMatches e = true) :
    c.linkHolds e = true := by
  unfold parentMatches at h
  split at h
  · rw [linkHolds_next (by omega)]
    intro prev hprev
    rw [hprev, beq_iff_eq] at h
    exact Option.some.inj h
  · rw [linkHolds_first (by omega)]
    exact beq_iff_eq.mp h

theorem chained_of_placement {parent tip : ℕ} {l : List LogEntry}
    (h : Placement hash c c₁ parent l tip)
    (hc : ∀ op e, op ≤ c.commitMin → c.journalGet op = some e → c.linkHolds e = true) :
    c₁.Chained := by
  intro op e he
  have hop := opNumber_of_journalGet he
  rw [h.get] at he
  by_cases hle : op ≤ c.commitMin
  · rw [if_pos hle] at he
    rw [linkHolds_congr, hc op e hle he]
    rw [h.get, if_pos (by omega)]
  rw [if_neg hle] at he
  obtain ⟨k, rfl⟩ : ∃ k, op = c.commitMin + 1 + k := ⟨op - (c.commitMin + 1), by omega⟩
  rw [Nat.add_sub_cancel_left] at he
  cases k with
  | zero =>
    -- the first entry above the commit points at the committed one
    have hpar := h.suffix.linked.back_head he
    have hanchor := h.anchor
    by_cases h0 : c.commitMin = 0
    · rw [linkHolds_first (by omega), hpar]
      rw [h0] at hanchor
      exact (Option.some.inj hanchor).symm
    · rw [linkHolds_next (by omega)]
      intro prev hprev
      rw [hop, h.get, if_pos (by omega)] at hprev
      have hat : c.commitMin + 1 + 0 - 1 = c.commitMin := by omega
      rw [hat] at hprev
      rw [checksumAt, if_neg h0, hprev] at hanchor
      rw [hpar]
      exact Option.some.inj hanchor
  | succ k =>
    rw [linkHolds_next (by omega)]
    intro prev hprev
    rw [hop, h.get, if_neg (by omega)] at hprev
    have hat : c.commitMin + 1 + (k + 1) - 1 - (c.commitMin + 1) = k := by omega
    rw [hat] at hprev
    exact (h.suffix.linked.back_succ hprev he).symm

theorem Core.Chained.put_next (hc : c.Chained) (hs : SlotOk hash c) (hlink : c.linkHolds e = true)
    (habove : ∀ op, c.opNumber < op → c.journalGet op = none) (hgt : c.opNumber < e.opNumber)
    (hcap : e.opNumber ≤ logSizeMax) : (c.journalPut e).Chained := by
  have hfree : c.journal (journalSlot e.opNumber) = none := by
    rw [hs.slot_eq_journalGet (by omega) hcap]
    exact habove _ hgt
  refine hc.extend hlink (fun op => ?_) (by omega) (habove _ (by omega))
  rw [journalPut, journalGet_put hs]
  simp only [putAccepts_of_free (b := false) (by omega) hcap hfree, true_and]

/-- Transitions keep the links, if transferred entries are linked and fill no holes. -/
theorem Act.chained (h : Act hash inp allow c c') (hno : ¬ allow .unlinked) (hs : Sane hash c)
    (hp : Solid c) (hc : c.Chained)
    (hfull : ¬ inp.Silent → ∀ op, 0 < op → op ≤ c.opNumber → c.journalHas op = true) :
    c'.Chained := by
  have hheard : ∀ {src : ℕ} {m : Message}, inp = .message src m → ¬ inp.Silent :=
    fun h hq => hq _ _ h
  cases h with
  | view h =>
    cases h with
    | place hsel h =>
      obtain ⟨parent, l, tip, hpl⟩ := h.placement hs hsel
      exact chained_of_placement hpl fun op e _ => hc op e
    | openView hsel h =>
      obtain ⟨parent, l, tip, hpl⟩ := h.placement hs hsel
      rw [openView_frame]
      exact (chained_of_placement hpl fun op e _ => hc op e).congr fun _ => rfl
    | _ => exact hc
  | commit h =>
    rw [h.frame]
    exact hc
  | @append m hst _ hcap =>
    let c₀ : Core := { c with opNumber := c.opNumber + 1 }
    exact hc.put_next (e := c₀.requestEntry hash m) hs.slots (requestEntry_links m)
      (hp.above (.inl hst)) (Nat.lt_succ_self _) hcap
  | @accept e _ _ hst _ hnext hcap _ hlink =>
    have hlink' : c.linkHolds e = true := by
      by_contra hunlinked
      exact hno (hlink (by simpa using hunlinked))
    exact hc.put_next hs.slots hlink' (hp.above (.inl hst)) (by omega) hcap
  | @fillGap e _ _ _ hpos hle hmissing h =>
    have hmsg : ¬ inp.Silent := by cases h <;> exact hheard ‹_›
    exact absurd ((hfull hmsg _ hpos hle).symm.trans hmissing) (by decide)
  | @adopt src m hinp _ hval hst _ hnext hcap _ hpar hlink =>
    have hlink' := linkHolds_of_parentMatches (c := c) (by omega) hpar
    rw [← adoptCommitted_frame, adoptCommitted]
    split
    swap
    · exact hc
    next hdiff =>
    by_cases hgt : c.opNumber < m.entry.opNumber
    · exact hc.put_next hs.slots hlink' (hp.above (.inl hst)) hgt hcap
    · -- another entry stands there, and it stays
      obtain ⟨old, hold⟩ := journalHas_iff.mp (hfull (hheard hinp) _ (by omega) (not_lt.mp hgt))
      obtain ⟨-, hslot, hop⟩ := journalGet_eq_some.mp hold
      have hsum : old.checksum ≠ m.entry.checksum := by
        rw [differsFrom, hold] at hdiff
        simpa using hdiff
      have hagree : c.slotAgrees m.entry = false := by simp [slotAgrees, hslot, hsum]
      have hrep : c.slotReplaceable m.entry false = false := by
        by_contra hrep
        exact hno (hlink (by simpa using hrep))
      refine hc.congr fun op => ?_
      show (c.journalPutInternal m.entry false).journalGet op = _
      rw [journalGet_put hs.slots, if_neg]
      simp [putAccepts, hagree, hrep]
  | @fillHole src m hinp _ _ _ _ hmissing hpos hle =>
    exact absurd ((hfull (hheard hinp) _ hpos hle).symm.trans hmissing) (by decide)
  | _ => exact hc

/-! ### The whole log -/

/-- The journal is a chain of the ops up to `opNumber`, and a leader selects no commit
below its own. -/
structure Whole (c : Core) : Prop where
  full : ∀ op, 0 < op → op ≤ c.opNumber → c.journalHas op = true
  above : ∀ op, c.opNumber < op → c.journalGet op = none
  chained : c.Chained
  own : c.Selecting → c.leadsTarget = true → c.commitMin ≤ c.selectedCommitBound

theorem not_selecting_of_normal (h : c.status = .normal) : ¬ c.Selecting :=
  fun hsel => absurd (h.symm.trans hsel.status) (by decide)

theorem not_selecting_of_active (h : c.pendingStartView.active = true) : ¬ c.Selecting :=
  fun hsel => absurd (h.symm.trans hsel.idle) (by decide)

theorem not_selecting_of_unselected (h : c.pendingViewSelection = false) : ¬ c.Selecting :=
  fun hsel => absurd (h.symm.trans hsel.selected) (by decide)

theorem Whole.extend (hw : Whole c) (hs : SlotOk hash c) (hst : c.status = .normal)
    (hnext : e.opNumber = c.opNumber + 1) (hcap : e.opNumber ≤ logSizeMax)
    (hchain : (c.journalPut e).Chained) :
    Whole (({ c with opNumber := e.opNumber } : Core).journalPut e) := by
  have hfree : c.journal (journalSlot e.opNumber) = none := by
    rw [hs.slot_eq_journalGet (by omega) hcap]
    exact hw.above _ (by omega)
  have hget : ∀ op, (c.journalPut e).journalGet op =
      if op = e.opNumber then some e else c.journalGet op := by
    intro op
    rw [journalPut, journalGet_put hs]
    simp only [putAccepts_of_free (b := false) (by omega) hcap hfree, true_and]
  refine ⟨fun op hpos hop => ?_, fun op hop => ?_, hchain,
    fun hsel => absurd hsel (not_selecting_of_normal hst)⟩
  · have hop' : op ≤ e.opNumber := hop
    show ((c.journalPut e).journalGet op).isSome = true
    rw [hget]
    split
    · rfl
    · exact hw.full op hpos (by omega)
  · have hop' : e.opNumber < op := hop
    show (c.journalPut e).journalGet op = none
    rw [hget, if_neg (by omega)]
    exact hw.above op (by omega)

theorem Whole.opened (hw : Whole c) (hs : Sane hash c) (hsel : c.Selecting)
    (h : c.Placed hash c₁) (hp : Solid c) : Whole c₁.openView := by
  obtain ⟨parent, l, tip, hpl⟩ := h.placement hs hsel
  have hsolid := openView_solid hs hsel h hp
  have hact : c₁.openView.pendingStartView.active = true := by
    rw [openView_frame]
    rfl
  refine ⟨fun _ => openView_full hs hsel h hp, hsolid.above (.inr hact), ?_,
    fun h => absurd h (not_selecting_of_active hact)⟩
  rw [openView_frame]
  exact (chained_of_placement hpl fun op e _ => hw.chained op e).congr fun _ => rfl

theorem Act.whole (h : Act hash inp allow c c') (hno : ¬ allow .unlinked)
    (hshrink : ¬ allow .shrink) (hs : Sane hash c) (hp : Solid c)
    (hother : ∀ m, inp ≠ .message c.replicaId (.startView m)) (hw : Whole c) : Whole c' := by
  have hchained := h.chained hno hs hp hw.chained fun _ => hw.full
  cases h with
  | view h =>
    cases h with
    | enter => exact { hw with own := fun h => absurd h (not_selecting_of_unselected rfl) }
    | unselect => exact { hw with own := fun h => absurd h (not_selecting_of_unselected rfl) }
    | selectDvc _ _ _ _ _ _ hown =>
      exact { hw with own := fun _ _ => not_lt.mp fun hlt => hshrink (hown hlt) }
    | @selectView src m hinp hsrc =>
      refine { hw with own := fun _ hleads => ?_ }
      have hlead : c.leader = c.replicaId := beq_iff_eq.mp hleads
      rw [hsrc, hlead] at hinp
      exact absurd hinp (hother m)
    | place hsel h hready =>
      exact absurd (h.ready hs hsel fun hb => not_lt.mpr (hw.own hsel hb.1) hb.2) hready
    | openView hsel h => exact hw.opened hs hsel h hp
    | send | recordOwn | recordPeer | allocate | collect =>
      exact { hw with own := fun hsel => hw.own { hsel with } }
  | commit h =>
    cases h with
    | execute hst =>
      refine { hw with own := fun hsel => ?_ }
      rcases hst with hst | hact
      · exact absurd hsel (not_selecting_of_normal hst)
      · exact absurd hsel (not_selecting_of_active hact)
    | _ => exact { hw with own := fun hsel => hw.own { hsel with } }
  | publishReply => exact { hw with own := fun hsel => hw.own { hsel with } }
  | @append m hst _ hcap =>
    let c₀ : Core := { c with opNumber := c.opNumber + 1 }
    have hput := hw.extend (e := c₀.requestEntry hash m) hs.slots hst rfl hcap hchained
    exact { hput with own := fun hsel => absurd hsel (not_selecting_of_normal hst) }
  | accept hst _ hnext hcap =>
    have hput := hw.extend hs.slots hst hnext hcap hchained
    exact { hput with own := fun hsel => absurd hsel (not_selecting_of_normal hst) }
  | fillGap _ _ hpos hle hmissing =>
    exact absurd ((hw.full _ hpos hle).symm.trans hmissing) (by decide)
  | @adopt src m _ _ _ hst _ hnext hcap =>
    have hsolid := hp.adopt hs.slots (.inl hst) hnext hcap
    refine ⟨fun op hpos hop => ?_, hsolid.above (.inl hst), hchained,
      fun h => absurd h (not_selecting_of_normal hst)⟩
    rw [← adoptCommitted_frame, adoptCommitted]
    by_cases hle : op ≤ c.opNumber
    · have hhas := hw.full op hpos hle
      split
      · exact journalHas_put hs.slots hhas
      · exact hhas
    · -- the adopted entry is the one above the log
      have hle' := hp.commit_le (.inl hst)
      have hop' : op ≤ max c.opNumber m.entry.opNumber := hop
      have heq : op = m.entry.opNumber := by omega
      have hdiffers : c.differsFrom m.entry = true := by
        rw [differsFrom, hw.above _ (by omega)]
      rw [if_pos hdiffers]
      show ((c.journalPutInternal m.entry false).journalGet op).isSome = true
      rw [journalGet_put hs.slots, if_pos]
      · rfl
      · exact ⟨putAccepts_of_free (by omega) hcap (hp.free hs.slots (.inl hst) (by omega) hcap), heq⟩
  | fillHole _ _ _ _ _ hmissing hpos hle =>
    exact absurd ((hw.full _ hpos hle).symm.trans hmissing) (by decide)
  | begin hact hchain =>
    have hop : c.pendingStartView.opNumber = c.opNumber := (pendingOk hact hchain).op.symm
    exact
      { full := fun op hpos h => hw.full op hpos (h.trans_eq hop)
        above := fun op h => hw.above op (lt_of_eq_of_lt hop.symm h)
        chained := hw.chained
        own := fun h => absurd h (not_selecting_of_active hact) }
  | settle => exact { hw with own := fun h => absurd h (not_selecting_of_normal rfl) }
  | close _ hst => exact { hw with own := fun h => absurd h (not_selecting_of_normal hst) }
  | _ => exact { hw with own := fun hsel => hw.own { hsel with } }

/-! ### What the tip is needed for -/

theorem mem_tailEntries_le {get : ℕ → Option LogEntry}
    (hget : ∀ op e, get op = some e → e.opNumber = op) :
    ∀ {op room : ℕ} {e : LogEntry}, e ∈ tailEntries get op room → e.opNumber ≤ op
  | 0, room, e, h => by
    cases h
  | op + 1, 0, e, h => by
    cases h
  | op + 1, room + 1, e, h => by
    unfold tailEntries at h
    split at h
    · next e₁ he₁ =>
      rcases List.mem_cons.mp h with rfl | h
      · exact (hget _ _ he₁).le
      · exact (mem_tailEntries_le hget h).trans (Nat.le_succ op)
    · exact (mem_tailEntries_le hget h).trans (Nat.le_succ op)

theorem dvcMessage_entries : c.dvcMessage.entries =
    tailEntries c.journalGet c.opNumber dvcLogMax := List.take_left

theorem buildDvc_of_tip (hs : SlotOk hash c)
    (h : c.opNumber = 0 ∨ c.journalHas c.opNumber = true) :
    c.buildDvc hash = some c.dvcMessage := by
  refine if_pos ?_
  unfold dvcTipSemanticsValid
  rcases h with h0 | hhas
  · have hop : c.dvcMessage.opNumber = 0 := h0
    have hcount : c.dvcMessage.logEntryCount = 0 := by
      show (tailEntries c.journalGet c.opNumber dvcLogMax).length = 0
      rw [h0]
      rfl
    simp [hop, hcount]
  · obtain ⟨e, he⟩ := journalHas_iff.mp hhas
    obtain ⟨op, hop⟩ : ∃ op, c.opNumber = op + 1 :=
      Nat.exists_eq_succ_of_ne_zero (journalGet_eq_some.mp he).1
    have hopm : c.dvcMessage.opNumber = op + 1 := hop
    have htail : c.dvcMessage.entries = e :: tailEntries c.journalGet op (dvcLogMax - 1) := by
      rw [dvcMessage_entries, hop]
      rw [hop] at he
      show tailEntries c.journalGet (op + 1) (dvcLogMax - 1 + 1) = _
      rw [tailEntries, he]
    have hlow : ∀ e' ∈ tailEntries c.journalGet op (dvcLogMax - 1),
        (e'.opNumber == op + 1) = false := by
      intro e' he'
      have := mem_tailEntries_le (fun _ _ => opNumber_of_journalGet) he'
      exact beq_eq_false_iff_ne.mpr (by omega)
    have heop : e.opNumber = op + 1 := (opNumber_of_journalGet he).trans hop
    have htips : c.dvcMessage.entries.filter (fun e => e.opNumber == c.dvcMessage.opNumber) =
        [e] := by
      rw [htail, hopm, List.filter_cons_of_pos (by simp [heop]),
        List.filter_eq_nil_iff.mpr fun e' he' => by simp [hlow e' he']]
    rw [if_neg (by simp [hopm])]
    rw [htips]
    simp [hs.valid he]

theorem checksumAt_of_has {op : ℕ} (h : op = 0 ∨ c.journalHas op = true) :
    ∃ sum, c.checksumAt op = some sum := by
  unfold checksumAt
  split
  · exact ⟨0, rfl⟩
  · next hne =>
    obtain ⟨e, he⟩ := journalHas_iff.mp (h.resolve_left hne)
    exact ⟨e.checksum, by rw [he]; rfl⟩

theorem statusMessage_of_tip (htip : c.opNumber = 0 ∨ c.journalHas c.opNumber = true)
    (hcommit : c.commitMin = 0 ∨ c.journalHas c.commitMin = true) :
    ∃ m, c.statusMessage = some m := by
  obtain ⟨tip, ht⟩ := checksumAt_of_has htip
  obtain ⟨commit, hc⟩ := checksumAt_of_has hcommit
  exact ⟨_, by rw [statusMessage, ht, hc]⟩

/-! ### Runs -/

/-- Everything that is claimed of a replica between two calls. -/
structure LogTipPresent (hash : Hash) (s : Replica) : Prop where
  present : ∀ op, 0 < op → op ≤ s.opNumber → ∃ e, s.journalGet op = some e ∧
    e.parentChecksum = if op = 1 then 0 else ((s.journalGet (op - 1)).map (·.checksum)).getD 0
  nothingAbove : ∀ i e, s.journal i = some e → e.opNumber ≤ s.opNumber
  reports : s.buildDvc hash = some s.dvcMessage
  reportsNext : ∀ v, (s.enterView v).buildDvc hash = some (s.enterView v).dvcMessage
  answersStatus : ∀ src v, ∃ s', s.onRequestStatus src v = .ok s'

theorem LogTipPresent.of_whole {s : Replica} (hs : Sane hash s.toCore) (hp : Solid s.toCore)
    (hw : Whole s.toCore) : LogTipPresent hash s := by
  have htip : s.opNumber = 0 ∨ s.journalHas s.opNumber = true :=
    (Nat.eq_zero_or_pos s.opNumber).imp id fun h => hw.full _ h le_rfl
  have hcommit : s.commitMin = 0 ∨ s.journalHas s.commitMin = true :=
    (Nat.eq_zero_or_pos s.commitMin).imp id fun h => hp.held _ h le_rfl
  refine ⟨fun op hpos hle => ?_, fun i e he => ?_, buildDvc_of_tip hs.slots htip,
    fun v => buildDvc_of_tip (c := s.enterView v) hs.slots htip, fun src v => ?_⟩
  · obtain ⟨e, he⟩ := journalHas_iff.mp (hw.full op hpos hle)
    have hop := opNumber_of_journalGet he
    have hlink := hw.chained op e he
    refine ⟨e, he, ?_⟩
    split
    · next h1 => exact (linkHolds_first (by omega)).mp hlink
    · next h1 =>
      obtain ⟨prev, hprev⟩ := journalHas_iff.mp (hw.full (op - 1) (by omega) (by omega))
      rw [hprev]
      rw [linkHolds_next (by omega), hop] at hlink
      exact (hlink prev hprev).symm
  · by_contra hgt
    have hget := hs.slots.journalGet_of_slot he
    rw [hw.above _ (not_le.mp hgt)] at hget
    cases hget
  · obtain ⟨m, hm⟩ := statusMessage_of_tip htip hcommit
    unfold Replica.onRequestStatus
    rw [hm]
    split
    · exact ⟨_, rfl⟩
    · exact ⟨_, rfl⟩

theorem Moves.whole {n : ℕ} {cs cs' : ℕ → Core} {safe : Core → Prop}
    (h : Moves hash n allow safe cs cs') (hsafe : ∀ c, ¬ safe c) (hno : ¬ allow .unlinked)
    (hshrink : ¬ allow .shrink) (hs : AllSane hash n cs)
    (hw : ∀ r < n, Solid (cs r) ∧ Whole (cs r)) : ∀ r < n, Solid (cs' r) ∧ Whole (cs' r) := by
  intro r hr
  refine h.single (P := fun c => Solid c ∧ Whole c) (hw r hr) (fun inp c' hinp h => ?_)
    fun _ _ hlost => absurd hlost (hsafe _)
  have hother : ∀ m, inp ≠ .message (cs r).replicaId (.startView m) := by
    intro m hm
    have := hs.elects_of_self hr hinp hm
    cases this
  obtain ⟨hp, hw⟩ := hw r hr
  exact ⟨h.solid (hs.sane r hr) hp, h.whole hno hshrink (hs.sane r hr) hp hother hw⟩

theorem start_whole (cfg : ReplicaConfig) : Whole (Replica.freshState cfg []).toCore where
  full := fun _ hpos h => absurd (Nat.le_zero.mp h) hpos.ne'
  above := fun _ _ => ite_self _
  chained := fun _ e h => by
    obtain ⟨-, hj, -⟩ := journalGet_eq_some.mp h
    cases hj
  own := fun h => absurd h (not_selecting_of_normal rfl)

/-- In every run without crashes in which no leader overlooks its own commit and no
unlinked entry is taken over, every running replica has its whole log and can report it. -/
theorem log_tip_present {n : ℕ} (k : ClusterConfig n) (acts : List Action)
    (hrun : Execution.Along (Cluster.step hash)
      (Cluster.Keeps [.shrink, .unlinked] fun _ => False) (Cluster.start k) acts)
    (r : ℕ) (hr : r < n)
    (hup : ((Cluster.run hash (Cluster.start k) acts).procs r).stopped = false) :
    LogTipPresent hash ((Cluster.run hash (Cluster.start k) acts).replica r) := by
  obtain ⟨cs, hcs, hs, hw⟩ := Cluster.invariant k (fun _ _ _ h => h)
    (I := fun cs => ∀ r < n, Solid (cs r) ∧ Whole (cs r))
    (fun r _ => ⟨start_solid (k.cfg r), start_whole (k.cfg r)⟩)
    (fun cs cs' hs hw h => h.whole (fun _ => id) (by simp) (by simp) hs hw) hrun
  have hc := (hcs.procs r hr).running hup
  obtain ⟨hsolid, hwhole⟩ := hw r hr
  have hsane := hs.sane r hr
  rw [hc] at hsolid hwhole hsane
  exact .of_whole hsane hsolid hwhole

/-- Replica 1 becomes the leader of view 1, and replica 2 takes over its log. -/
theorem log_tip_present_in_next_view :
    LogTipPresent pairingHash ((Cluster.run pairingHash
      (Cluster.start (.uniform 3 (by decide) false))
      [.request 0 1 1, .tick 0 1, .receive 0 0 1 2, .tick 1 2, .receive 1 0 0 3, .request 0 3 2,
        .tick 0 3, .receive 0 3 1 4, .tick 1 4, .tick 2 5, .tick 2 2005, .receive 2 2 1 2006,
        .receive 1 4 2 2007, .receive 2 4 1 2008, .tick 1 2009, .receive 1 8 2 2010,
        .tick 2 2011]).replica 2) :=
  log_tip_present _ _ (by decide +kernel) 2 (by decide) (by decide +kernel)

/-- Replica 0 has committed op 1 and holds ops 1 to 3 when it is made the leader of view
3 by reports that know no commit. It installs their log, which ends at op 2, and keeps its
op number; the next vote finds no tip to report. -/
theorem log_tip_missing :
    let k := Cluster.run pairingHash (Cluster.start (.uniform 3 (by decide) false))
      [.request 0 1 1, .tick 0 1, .receive 0 0 1 2, .tick 1 2, .receive 1 0 0 3, .request 0 3 2,
        .tick 0 3, .receive 0 3 1 4, .request 0 5 3, .tick 0 5, .tick 2 5, .tick 2 2005,
        .receive 2 1 0 2006, .tick 0 6006, .tick 0 10006, .receive 0 16 1 10007,
        .receive 0 17 2 10007, .receive 1 4 0 10008, .receive 2 7 0 10008]
    (k.procs 0).stopped = false ∧ ¬ LogTipPresent pairingHash (k.replica 0) ∧
      ((k.step pairingHash (.receive 1 1 0 10009)).procs 0).stopped = true := by
  intro k
  have hop : 3 ≤ (k.replica 0).opNumber := by decide +kernel
  have hmissing : (k.replica 0).journalHas 3 = false := by decide +kernel
  refine ⟨by decide +kernel, fun h => ?_, by decide +kernel⟩
  obtain ⟨e, he, -⟩ := h.present 3 (by decide) hop
  rw [journalHas_false.mp hmissing] at he
  cases he

end Hivemind
