import Hivemind.Journal
import Hivemind.Sample

/-! What one checksum says about a log: entries name the entry before them, so that two logs with
one checksum at an op are the same log up to it. -/
namespace Hivemind

namespace Core

variable {hash : Hash} {c c' : Core} {e : LogEntry} {k : ℕ}

/-- Ops `1` to `k` are present, valid and linked by their parent checksums from zero. -/
def LinkedTo (hash : Hash) (c : Core) (k : ℕ) : Prop :=
  ∀ op < k, ∃ e, c.journalGet (op + 1) = some e ∧ e.valid hash = true ∧
    c.checksumAt op = some e.parentChecksum

/-- Every entry names the checksum of the one before it, if that is present. The first one names
zero. -/
def Adjacent (c : Core) : Prop :=
  ∀ op e sum, c.journalGet (op + 1) = some e → c.checksumAt op = some sum → e.parentChecksum = sum

theorem checksumAt_succ (h : c.journalGet (k + 1) = some e) :
    c.checksumAt (k + 1) = some e.checksum := by
  rw [checksumAt, if_neg k.succ_ne_zero, h]
  rfl

/-- The induction goes down the log: one checksum gives the entry, and that the checksum below. -/
theorem LinkedTo.eq_below (hinj : Function.Injective hash) (h : c.LinkedTo hash k)
    (h' : c'.LinkedTo hash k) (hsum : c.checksumAt k = c'.checksumAt k) :
    ∀ j ≤ k, c.journalGet j = c'.journalGet j := by
  induction k with
  | zero =>
    intro j hj
    rw [Nat.le_zero.mp hj, journalGet_zero, journalGet_zero]
  | succ k ih =>
    obtain ⟨e, he, hvalid, hback⟩ := h k k.lt_succ_self
    obtain ⟨e', he', hvalid', hback'⟩ := h' k k.lt_succ_self
    rw [checksumAt_succ he, checksumAt_succ he', Option.some.injEq] at hsum
    have heq : e = e' := LogEntry.eq_of_checksum_eq hinj hvalid hvalid' hsum
    subst heq
    have hbelow := ih (fun op hop => h op (by omega)) (fun op hop => h' op (by omega))
      (hback.trans hback'.symm)
    intro j hj
    rcases Nat.le_succ_iff.mp hj with hj | rfl
    · exact hbelow j hj
    · rw [he, he']

theorem journalGet_put_cases {b : Bool} {op : ℕ} {a : LogEntry}
    (h : (c.journalPutInternal e b).journalGet op = some a) :
    (a = e ∧ op = e.opNumber) ∨ c.journalGet op = some a := by
  obtain ⟨hpos, hslot, hop⟩ := journalGet_eq_some.mp h
  rw [journal_put] at hslot
  split at hslot
  · cases hslot
    exact .inl ⟨rfl, hop.symm⟩
  · exact .inr (journalGet_eq_some.mpr ⟨hpos, hslot, hop⟩)

theorem checksumAt_put_cases {b : Bool} {op sum : ℕ}
    (h : (c.journalPutInternal e b).checksumAt op = some sum) :
    (op = e.opNumber ∧ sum = e.checksum) ∨ c.checksumAt op = some sum := by
  unfold checksumAt at h ⊢
  split at h
  · next hzero =>
    rw [if_pos hzero]
    exact .inr h
  · next hpos =>
    rw [if_neg hpos]
    obtain ⟨a, ha, rfl⟩ := Option.map_eq_some_iff.mp h
    rcases journalGet_put_cases ha with ⟨rfl, hop⟩ | ha
    · exact .inl ⟨hop, rfl⟩
    · rw [ha]
      exact .inr rfl

theorem entryFitsLog_spec (h : c.entryFitsLog e = true) :
    (∀ op sum, op + 1 = e.opNumber → c.checksumAt op = some sum → e.parentChecksum = sum) ∧
      ∀ a, c.journalGet (e.opNumber + 1) = some a → a.parentChecksum = e.checksum := by
  simp only [entryFitsLog, Bool.and_eq_true] at h
  obtain ⟨⟨-, hback⟩, hnext⟩ := h
  constructor
  · intro op sum hop hsum
    rw [checksumAt] at hsum
    split at hsum
    · next hzero =>
      rw [if_pos (by omega), beq_iff_eq] at hback
      rw [hback]
      exact Option.some.inj hsum
    · next hpos =>
      obtain ⟨a, ha, rfl⟩ := Option.map_eq_some_iff.mp hsum
      rw [if_neg (by omega), ← hop, Nat.add_sub_cancel, ha] at hback
      exact (beq_iff_eq.mp hback).symm
  · intro a ha
    rw [ha] at hnext
    exact beq_iff_eq.mp hnext

theorem Adjacent.put (h : c.Adjacent) (hfits : c.entryFitsLog e = true) (b : Bool) :
    (c.journalPutInternal e b).Adjacent := by
  obtain ⟨hback, hnext⟩ := entryFitsLog_spec hfits
  intro op a sum ha hsum
  -- At most one of the two neighbours is the new entry.
  rcases journalGet_put_cases ha with ⟨rfl, hop⟩ | ha
  · rcases checksumAt_put_cases hsum with ⟨heq, -⟩ | hsum
    · omega
    · exact hback op sum hop hsum
  · rcases checksumAt_put_cases hsum with ⟨rfl, rfl⟩ | hsum
    · exact hnext a ha
    · exact h op a sum ha hsum

end Core

/-- Without collisions of the checksum, linked logs with one checksum at op `k` have the same
entries up to `k`; and an entry that `entryFitsLog` accepts keeps neighbours linked, whichever way
it is put into the journal. -/
theorem checksums_fix_prefixes (hash : Hash) (hinj : Function.Injective hash) :
    (∀ (c c' : Core) (k : ℕ), c.LinkedTo hash k → c'.LinkedTo hash k →
      c.checksumAt k = c'.checksumAt k → ∀ j ≤ k, c.journalGet j = c'.journalGet j) ∧
    ∀ (c : Core) (e : LogEntry) (b : Bool), c.Adjacent → c.entryFitsLog e = true →
      (c.journalPutInternal e b).Adjacent :=
  ⟨fun _ _ _ h h' hsum => h.eq_below hinj h' hsum, fun _ _ b h hfits => h.put hfits b⟩

/-- Op 2 is put between ops 1 and 3. A log that goes on behind op 3 has the same entries up to it. -/
theorem checksums_fix_prefixes_three :
    let entry (op parent : ℕ) : LogEntry :=
      { opNumber := op, parentChecksum := parent
        checksum := pairingHash ⟨parent, 0, op, .noop, 0, 0⟩ }
    let e₁ := entry 1 0
    let e₂ := entry 2 e₁.checksum
    let e₃ := entry 3 e₂.checksum
    let blank := (Replica.freshState ((ClusterConfig.uniform 1 (by decide) true).cfg 0) []).toCore
    let gap : Core := { blank with journal := upd (upd blank.journal 1 (some e₁)) 3 (some e₃) }
    let full := gap.journalPut e₂
    let longer := full.journalPut (entry 4 e₃.checksum)
    gap.entryFitsLog e₂ = true ∧ full.Adjacent ∧ full.LinkedTo pairingHash 3 ∧
      ∀ j ≤ 3, full.journalGet j = longer.journalGet j := by
  -- with the hash a variable nothing below computes a checksum
  have hfix := checksums_fix_prefixes pairingHash pairingHash_injective
  revert hfix
  generalize pairingHash = hash
  intro hfix entry e₁ e₂ e₃ blank gap full longer
  have hfits : gap.entryFitsLog e₂ = true := by
    show (true && (e₁.checksum == e₁.checksum) && (e₂.checksum == e₂.checksum)) = true
    simp
  have hgap : gap.Adjacent := by
    intro op a sum ha hsum
    obtain ⟨-, hslot, hop⟩ := Core.journalGet_eq_some.mp ha
    have hwhich : a = e₃ ∨ a = e₁ := by
      simp only [gap, upd_apply] at hslot
      split_ifs at hslot
      · exact .inl (Option.some.inj hslot).symm
      · exact .inr (Option.some.inj hslot).symm
      · cases hslot
    rcases hwhich with rfl | rfl
    · obtain rfl : op = 2 := (Nat.succ.inj hop).symm
      cases hsum
    · obtain rfl : op = 0 := (Nat.succ.inj hop).symm
      cases hsum
      rfl
  have hlinked : ∀ d : Core, d.journalGet 1 = some e₁ → d.journalGet 2 = some e₂ →
      d.journalGet 3 = some e₃ → d.LinkedTo hash 3 := by
    intro d h₁ h₂ h₃ op hop
    have hvalid : ∀ n p, (entry n p).valid hash = true := fun _ _ => LogEntry.valid_iff.mpr rfl
    interval_cases op
    · exact ⟨e₁, h₁, hvalid _ _, rfl⟩
    · exact ⟨e₂, h₂, hvalid _ _, Core.checksumAt_succ h₁⟩
    · exact ⟨e₃, h₃, hvalid _ _, Core.checksumAt_succ h₂⟩
  have hfull := hlinked full rfl rfl rfl
  exact ⟨hfits, hfix.2 gap e₂ false hgap hfits, hfull,
    hfix.1 full longer 3 hfull (hlinked longer rfl rfl rfl) (Core.checksumAt_succ rfl)⟩

end Hivemind
