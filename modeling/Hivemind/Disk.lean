import Hivemind.Message

/-! Staged disk of `disk.zig`: writes go to pending state, `sync` publishes them,
`crash` drops them. Fault injection is a list of flags, one per write or sync
call of the coming flush; a missing flag is a call that succeeds. -/
namespace Hivemind

/-- A fixed array as a function of its index, with one slot replaced. -/
def upd {β : Type} (f : ℕ → β) (i : ℕ) (v : β) : ℕ → β := fun j => if j = i then v else f j

@[simp] theorem upd_self {β : Type} (f : ℕ → β) (i : ℕ) (v : β) : upd f i v i = v := if_pos rfl

theorem upd_of_ne {β : Type} (f : ℕ → β) {i j : ℕ} (v : β) (h : j ≠ i) : upd f i v j = f j :=
  if_neg h

theorem upd_apply {β : Type} (f : ℕ → β) (i j : ℕ) (v : β) :
    upd f i v j = if j = i then v else f j := rfl

theorem upd_eq_self {β : Type} (f : ℕ → β) (i : ℕ) : upd f i (f i) = f := by
  funext j
  rw [upd_apply]
  split
  · next h => rw [h]
  · rfl

theorem upd_upd {β : Type} (f : ℕ → β) (i : ℕ) (v w : β) : upd (upd f i v) i w = upd f i w := by
  funext j
  simp only [upd_apply]
  split <;> rfl

theorem upd_true {f : ℕ → Bool} {slot i : ℕ} (h : upd f slot true i = true) :
    i = slot ∨ f i = true := by
  rw [upd_apply] at h
  split at h
  · next heq => exact .inl heq
  · exact .inr h

theorem upd_false {f : ℕ → Bool} {slot i : ℕ} (h : upd f slot false i = true) : f i = true := by
  rw [upd_apply] at h
  split at h
  · cases h
  · exact h

/-- The indices of a slot-indexed array. -/
@[irreducible] def slots : List ℕ := List.range logSizeMax

@[simp] theorem mem_slots {i : ℕ} : i ∈ slots ↔ i < logSizeMax := by
  unfold slots
  exact List.mem_range

structure DiskMetadata where
  viewNumber : ℕ := 0
  lastNormalView : ℕ := 0
  opNumber : ℕ := 0
  commitMin : ℕ := 0
  commitMax : ℕ := 0
  deriving DecidableEq

/-- `durable` and `metadata` are the state of the last successful sync. A pending
slot holds `some none` for a staged clear and `some (some e)` for a staged write. -/
structure Disk where
  durable : ℕ → Option LogEntry := fun _ => none
  metadata : Option DiskMetadata := none
  pending : ℕ → Option (Option LogEntry) := fun _ => none
  pendingMetadata : Option DiskMetadata := none
  faults : List Bool := []

namespace Disk

variable (d : Disk)

def crash : Disk :=
  { d with pending := fun _ => none, pendingMetadata := none, faults := [] }

/-- Consume one fault flag; `none` is a failed call. -/
def call : Option Disk :=
  match d.faults with
  | [] => some d
  | true :: _ => none
  | false :: rest => some { d with faults := rest }

def writeSlot (slot : ℕ) (e : LogEntry) : Option Disk :=
  d.call.map (fun d => { d with pending := upd d.pending slot (some (some e)) })

def clearSlot (slot : ℕ) : Option Disk :=
  d.call.map (fun d => { d with pending := upd d.pending slot (some none) })

def readSlot (slot : ℕ) : Option LogEntry := d.durable slot

def writeMetadata (m : DiskMetadata) : Option Disk :=
  d.call.map (fun d => { d with pendingMetadata := some m })

def readMetadata : Option DiskMetadata := d.metadata

def metadataEquals (m : DiskMetadata) : Bool := d.metadata == some m

def sync : Option Disk :=
  d.call.map (fun d => { d with
    durable := fun i => (d.pending i).getD (d.durable i)
    metadata := d.pendingMetadata.orElse (fun _ => d.metadata)
    pending := fun _ => none
    pendingMetadata := none })

/-- The staging loop of the flush: every dirty slot is written, or cleared if the
journal no longer holds an entry there. -/
def stage (dirty : ℕ → Bool) (journal : ℕ → Option LogEntry) : List ℕ → Disk → Option Disk
  | [], d => some d
  | i :: rest, d =>
    if dirty i then
      match journal i with
      | some e => (d.writeSlot i e).bind (stage dirty journal rest)
      | none => (d.clearSlot i).bind (stage dirty journal rest)
    else stage dirty journal rest d

/-- Nothing is staged. -/
def Clean : Prop := (∀ i, d.pending i = none) ∧ d.pendingMetadata = none

variable {d}

theorem call_spec {d' : Disk} (h : d.call = some d') :
    ∃ rest, d' = { d with faults := rest } := by
  unfold call at h
  split at h
  · next hf => exact ⟨[], by cases h; cases d; simp_all⟩
  · cases h
  · next rest _ => exact ⟨rest, by cases h; rfl⟩

/-- Staging overlays the dirty slots it visits on what was pending. -/
theorem stage_spec {dirty : ℕ → Bool} {journal : ℕ → Option LogEntry} :
    ∀ {is : List ℕ} {d d' : Disk}, stage dirty journal is d = some d' →
      ∃ rest, d' = { d with
        pending := fun i => if i ∈ is ∧ dirty i = true then some (journal i) else d.pending i
        faults := rest }
  | [], d, d', h => ⟨d.faults, by cases h; simp⟩
  | i :: is, d, d', h => by
    unfold stage at h
    split at h
    · next hi =>
      -- both writes stage `journal i` at slot `i`
      have hstage : ∃ d₁ rest, d₁ = { d with
          pending := upd d.pending i (some (journal i)), faults := rest } ∧
          stage dirty journal is d₁ = some d' := by
        split at h
        all_goals
          next he =>
          obtain ⟨d₁, h1, h2⟩ := Option.bind_eq_some_iff.mp h
          obtain ⟨d₀, hc, rfl⟩ := Option.map_eq_some_iff.mp h1
          obtain ⟨rest, rfl⟩ := call_spec hc
          exact ⟨_, rest, by rw [he], h2⟩
      obtain ⟨d₁, rest, rfl, h2⟩ := hstage
      obtain ⟨rest', rfl⟩ := stage_spec h2
      refine ⟨rest', ?_⟩
      congr 1
      funext j
      by_cases hj : j = i
      · subst hj
        simp [hi]
      · simp [upd_of_ne, hj]
    · next hi =>
      obtain ⟨rest', rfl⟩ := stage_spec h
      refine ⟨rest', ?_⟩
      congr 1
      funext j
      by_cases hj : j = i
      · subst hj
        simp [hi]
      · simp [hj]

end Disk

end Hivemind
