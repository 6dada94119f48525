import Hivemind.Message

/-! The suffix a replica collects before it installs a new view
(`view_change_candidate.zig`), and the record of the pending publication. -/
namespace Hivemind

inductive ViewSelectionPhase where
  | idle | collectingDvc | fetchingCandidate | candidateComplete | persistingStartView
  deriving DecidableEq

inductive PendingStartViewRole where
  | none | leader | follower
  deriving DecidableEq

structure PendingStartView where
  active : Bool := false
  role : PendingStartViewRole := .none
  sourceReplica : ℕ := 0
  targetView : ℕ := 0
  sourceLastNormalView : ℕ := 0
  tipChecksum : ℕ := 0
  opNumber : ℕ := 0
  commitMin : ℕ := 0
  retentionFloor : ℕ := 0
  lastNormalView : ℕ := 0
  deriving DecidableEq

structure CandidateMetadata where
  sourceReplica : ℕ := 0
  targetView : ℕ := 0
  sourceLastNormalView : ℕ := 0
  baseOp : ℕ := 0
  tipOp : ℕ := 0
  tipChecksum : ℕ := 0
  commitBound : ℕ := 0
  deadlineTick : ℕ := 0
  deriving DecidableEq

inductive CandidateError where
  | invalidRange | rangeTooLarge | invalidTip | invalidCommitBound | outOfMemory
  | invalidPhase | invalidEntry | outOfRange | identityConflict
  | incomplete | invalidCommittedOverlap | invalidSequence | invalidParent
  deriving DecidableEq

/-- `entries` pairs the source's `entries` and `present` arrays: an element is
`none` while its `present` flag is false. -/
structure ViewChangeCandidate where
  entries : List (Option LogEntry) := []
  info : CandidateMetadata := {}
  phase : ViewSelectionPhase := .idle
  presentCount : ℕ := 0
  deriving DecidableEq

namespace ViewChangeCandidate

def allocate (outOfMemory : Bool) (m : CandidateMetadata) :
    Except CandidateError ViewChangeCandidate :=
  if m.baseOp = 0 then .error .invalidRange
  else if m.tipOp < m.baseOp then .error .invalidRange
  else if m.tipOp > logSizeMax then .error .rangeTooLarge
  else if m.tipChecksum = 0 then .error .invalidTip
  else if m.commitBound > m.tipOp then .error .invalidCommitBound
  else if outOfMemory then .error .outOfMemory
  else .ok
    { entries := List.replicate (m.tipOp - m.baseOp + 1) none
      info := m
      phase := .fetchingCandidate
      presentCount := 0 }

variable (hash : Hash) (c : ViewChangeCandidate)

def present (i : ℕ) : Bool := (c.entries.getD i none).isSome

def complete : Bool := c.entries.length > 0 && c.presentCount == c.entries.length

def add (e : LogEntry) : Except CandidateError ViewChangeCandidate :=
  if c.phase ≠ .fetchingCandidate ∧ c.phase ≠ .candidateComplete then .error .invalidPhase
  else if !e.valid hash then .error .invalidEntry
  else if e.opNumber < c.info.baseOp ∨ e.opNumber > c.info.tipOp then .error .outOfRange
  else
    let index := e.opNumber - c.info.baseOp
    match c.entries.getD index none with
    | some old => if old.checksum ≠ e.checksum then .error .identityConflict else .ok c
    | none =>
      .ok { c with
        entries := c.entries.set index (some e)
        presentCount := c.presentCount + 1
        phase := if c.presentCount + 1 = c.entries.length then .candidateComplete else c.phase }

/-- The loop of `validate`: each entry sits at its op and points at its predecessor;
the result is the checksum of the last one. -/
def validateFrom : List (Option LogEntry) → ℕ → ℕ → Except CandidateError ℕ
  | [], _, parent => .ok parent
  | none :: _, _, _ => .error .incomplete
  | some e :: rest, op, parent =>
    if e.opNumber ≠ op then .error .invalidSequence
    else if !e.valid hash then .error .invalidEntry
    else if e.parentChecksum ≠ parent then .error .invalidParent
    else validateFrom rest (op + 1) e.checksum

def validate (committedOp : ℕ) (committedChecksum : ℕ) : Except CandidateError Unit :=
  if !c.complete then .error .incomplete
  else if c.info.baseOp ≠ committedOp + 1 then .error .invalidCommittedOverlap
  else if c.info.commitBound > c.info.tipOp then .error .invalidCommitBound
  else
    match validateFrom hash c.entries c.info.baseOp
        (if committedOp = 0 then 0 else committedChecksum) with
    | .error err => .error err
    | .ok tip => if tip ≠ c.info.tipChecksum then .error .invalidTip else .ok ()

/-- `reset`: drop everything but the allocator. -/
def reset : ViewChangeCandidate := {}

/-- Add a list of received entries, skipping those below the base. -/
def addAll : List LogEntry → ViewChangeCandidate → Except CandidateError ViewChangeCandidate
  | [], c => .ok c
  | e :: rest, c =>
    if e.opNumber < c.info.baseOp then addAll rest c
    else match c.add hash e with
      | .error err => .error err
      | .ok c => addAll rest c

end ViewChangeCandidate

end Hivemind
