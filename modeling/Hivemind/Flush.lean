import Hivemind.Repair

/-! Group commit: stage dirty state, one durability barrier, then publish what was
waiting for it. Publishing a new view is part of the same barrier. -/
namespace Hivemind

namespace Core

variable (hash : Hash) (c : Core)

/-- The metadata a barrier writes. -/
def metadataToPersist : DiskMetadata :=
  if c.pendingStartView.active then
    { viewNumber := c.pendingStartView.targetView
      lastNormalView := c.pendingStartView.lastNormalView
      opNumber := c.pendingStartView.opNumber
      commitMin := c.pendingStartView.commitMin
      commitMax := c.pendingStartView.commitMin }
  else
    { viewNumber := c.viewNumber
      lastNormalView := c.lastNormalView
      opNumber := c.opNumber
      commitMin := c.commitMin
      commitMax := c.commitMax }

/-- `metadataForPersistence`; `none` is its failed assertion. -/
def metadataForPersistence : Option DiskMetadata :=
  if c.pendingStartViewChainOk hash then some c.metadataToPersist else none

/-- Fail-stop. What a failed barrier staged is never synced, so it is not kept. -/
def markStorageFailed (d : Disk) : Core := { c with disk := some d, storageFailed := true }

def markSyncFailed (d : Disk) : Core :=
  { c.markStorageFailed d with metadataDirty := true }

/-- Remember the identity of every present op up to `through` as durable. -/
def markDurable (through : ℕ) : Core :=
  let marks (i : ℕ) : Bool := (opsAbove 0 through).any (fun op =>
    journalSlot op == i && c.journalHas op)
  { c with
    durablePrepareOp := fun i =>
      match c.journal i with
      | some e => if marks i then e.opNumber else c.durablePrepareOp i
      | none => c.durablePrepareOp i
    durablePrepareChecksum := fun i =>
      match c.journal i with
      | some e => if marks i then e.checksum else c.durablePrepareChecksum i
      | none => c.durablePrepareChecksum i
    durablePrepareThrough := max c.durablePrepareThrough through }

/-- Everything dirty is on disk: the state after a successful sync. -/
def afterSync (d : Disk) : Core :=
  ({ c with disk := some d, journalDirty := fun _ => false, metadataDirty := false } : Core).record
    .synced

/-- The leader's own durable copy is its first vote for every op of the new view. -/
def voteForSelected : Core :=
  { c with
    prepareOkCounts := fun i => if (opsAbove c.commitMin c.opNumber).any (journalSlot · == i)
      then 1 else 0
    prepareOkFrom := fun i => if (opsAbove c.commitMin c.opNumber).any (journalSlot · == i)
      then replicaBit c.replicaId else 0
    pendingPrepareOk := fun _ => false }

/-- A follower owes the leader of the new view an acknowledgement of every
uncommitted op, and knows of no watermark but the announced one. -/
def oweSelected : Core :=
  { c with
    prepareOkCounts := fun _ => 0
    prepareOkFrom := fun _ => 0
    pendingPrepareOk := fun i => (opsAbove c.commitMin c.opNumber).any (journalSlot · == i)
    pendingPrepareOkTo := fun i =>
      if (opsAbove c.commitMin c.opNumber).any (journalSlot · == i) then c.leader
      else c.pendingPrepareOkTo i
    replicaCommitMin := fun i => if i = c.leader then c.selectedCommitBound
      else if i < c.replicaCount then 0 else c.replicaCommitMin i }

/-- Every op above the commit is covered by a barrier. -/
def suffixDurable : Bool := (opsAbove c.commitMin c.opNumber).all c.isDurablePrepare

/-- The state enters the pending view; commits follow. -/
def enterPendingView : Core :=
  ({ c with
    viewNumber := c.pendingStartView.targetView
    lastNormalView := c.pendingStartView.lastNormalView
    opNumber := c.pendingStartView.opNumber } : Core).raiseCommitMax
      c.pendingStartView.commitMin false

/-- Normal status in the new view, before anything is announced. -/
def settleNormal : Core :=
  let c := { c with
    commitMax := c.commitMin
    replicaCommitMin := upd c.replicaCommitMin c.replicaId c.commitMin }
  let c := if c.pendingStartView.role = .leader then c.voteForSelected else c.oweSelected
  { c with status := .normal, metadataDirty := false }

/-- The pending record is consumed. -/
def closePending : Core :=
  { c with
    viewChangeCandidate := .reset
    pendingViewSelection := false
    pendingStartView := {}
    deferredViewTarget := 0 }

/-- The `Prepare` for a journal entry, with the current commit. -/
def prepareFor (op : ℕ) (e : LogEntry) : Message :=
  .prepare
    { viewNumber := c.viewNumber
      opNumber := op
      commitMin := c.commitMin
      retentionFloor := 0
      entry := e }

/-- Broadcast a pending `Prepare`; the broadcast is the leader's own vote. -/
def publishPrepare (op : ℕ) (e : LogEntry) : Core :=
  let slot := journalSlot op
  if c.pendingPrepareBroadcast slot then
    let c := (c.sendToAllOthers (c.prepareFor op e)).countVote op c.replicaId
    { c with pendingPrepareBroadcast := upd c.pendingPrepareBroadcast slot false }
  else c

/-- Send a pending `PrepareOk`; `none` is the failed unwrap of the committed entry. -/
def publishPrepareOk (op : ℕ) (e : LogEntry) : Option Core :=
  let slot := journalSlot op
  if c.pendingPrepareOk slot then
    (c.prepareOkFor op e.checksum).map (fun m =>
      let c := c.sendTo (c.pendingPrepareOkTo slot) m
      { c with pendingPrepareOk := upd c.pendingPrepareOk slot false })
  else some c

end Core

namespace Replica

variable (hash : Hash) (env : Env) (s : Replica)

/-- Announce the new view: the leader to everyone, a follower its status to the leader. -/
def announceNormal : Outcome :=
  if s.pendingStartView.role = .leader then
    .ok (s.core (fun c => c.sendToAllOthers (.startView c.buildStartView)))
  else match s.statusMessage with
    | none => .error s
    | some m => .ok (s.core (fun c => c.sendTo c.leader m))

/-- The bookkeeping reset when a pending view becomes normal. -/
def resetForNormal : Replica :=
  { s with
    lastHeartbeat := env.now
    lastLeaderActivity := env.now
    repairPending := s.pendingStartView.role == .leader
    repairStatusReceived := fun _ => false
    repairStatusCount := 0
    transferPending := false
    transferTargetOp := 0
    recoveredFromDisk := false }

def diskAgrees : Bool :=
  match s.disk, s.metadataForPersistence hash with
  | some d, some m => d.metadataEquals m
  | some _, none => false
  | none, _ => true

/-- Enter the pending view and execute what it commits. -/
def enterPending : Outcome :=
  let pending := s.pendingStartView
  let s := s.core Core.enterPendingView
  if pending.commitMin > s.commitMin then s.commitUpTo pending.commitMin else .ok s

/-- Become normal in the entered view and announce it. -/
def settlePending : Outcome :=
  if s.commitMin ≠ s.pendingStartView.commitMin then .error s
  else if !s.suffixDurable then .error s
  else ((s.core Core.settleNormal).resetForNormal env).announceNormal.map (fun s =>
    ({ s with selectedNextOp := 0 }).core Core.closePending)

/-- A higher view was noted while the publication was pending. -/
def followDeferred (deferredView : ℕ) : Outcome :=
  if !s.diskAgrees hash then .error s
  else if deferredView > s.viewNumber then
    s.initiateViewChangeTo hash env (abortSelectedView hash env) deferredView
  else .ok s

def publishPendingStartViewAfterBarrier : Outcome :=
  if !s.pendingStartView.active then .ok s
  else if !s.pendingStartViewChainOk hash then .error s
  else
    let deferredView := s.deferredViewTarget
    s.enterPending.bind (fun s =>
      (s.settlePending env).bind (fun s => s.followDeferred hash env deferredView))

/-- Publish the pending `Prepare` and `PrepareOk` of each present op. -/
def publishPrepares : List ℕ → Replica → Outcome
  | [], s => .ok s
  | op :: rest, s =>
    match s.journalGet op with
    | none => publishPrepares rest s
    | some e =>
      match (s.publishPrepare op e).publishPrepareOk op e with
      | none => .error (s.core (fun c => c.publishPrepare op e))
      | some c => publishPrepares rest { s with toCore := c }

/-- Everything owed up to `through`: prepares, votes, and what they commit. -/
def publishOwed (through : ℕ) : Outcome := do
  let s ← publishPrepares (opsAbove 0 through) s
  let s := s.core (fun c => { c with
    durablePrepareOp := (c.markDurable through).durablePrepareOp
    durablePrepareChecksum := (c.markDurable through).durablePrepareChecksum })
  let s ← if s.isLeader && s.status == .normal then s.advanceCommit else .ok s
  if s.metadataDirty then .ok s else s.publishCommitEffects

def publishPendingAfterBarrier (through : ℕ) : Outcome :=
  ((s.core (fun c => c.markDurable through)).publishPendingStartViewAfterBarrier hash env).bind
    (fun s => s.publishOwed through)

/-- The barrier of a pending view: all dirty slots and the new metadata, one sync.
The flag is `false` where storage failed. -/
def syncPendingStartView (d : Disk) : Except Replica (Bool × Replica) :=
  match s.metadataForPersistence hash with
  | none => .error s
  | some m =>
    if m.opNumber ≠ s.logHighOp then .error s
    else match d.stage s.journalDirty s.journal slots with
      | none => .ok (false, s.core (fun c => c.markStorageFailed d))
      | some d =>
        match d.writeMetadata m with
        | none => .ok (false, s.core (fun c => c.markStorageFailed d))
        | some d =>
          match d.sync with
          | none => .ok (false, s.core (fun c => c.markSyncFailed d))
          | some d =>
            if d.metadataEquals m then .ok (true, s.core (fun c => c.afterSync d))
            else .error (s.core (fun c => c.afterSync d))

/-- One barrier of the normal flush loop. -/
def flushBarrier (again : Replica → Outcome) (d : Disk) : Outcome :=
  let anyDirty := s.anyJournalDirty
  match d.stage s.journalDirty s.journal slots with
  | none => .ok (s.core (fun c => c.markStorageFailed d))
  | some d =>
    match s.metadataForPersistence hash with
    | none => .error s
    | some m =>
      let needMeta := s.metadataDirty || anyDirty || !d.metadataEquals m
      if !needMeta then
        s.publishPendingAfterBarrier hash env s.durablePrepareThrough
      else match d.writeMetadata m with
        | none => .ok (s.core (fun c => c.markStorageFailed d))
        | some d =>
          match d.sync with
          | none => .ok (s.core (fun c => c.markSyncFailed d))
          | some d =>
            if !d.metadataEquals m then .error (s.core (fun c => c.afterSync d))
            else do
              let s ← (s.core (fun c => c.afterSync d)).publishPendingAfterBarrier hash env m.opNumber
              if !s.metadataDirty && !s.anyJournalDirty then .ok s else again s

/-- The flush loop with `barriers` left; running out while dirty fails its assertion. -/
def flushBarriers : ℕ → Replica → Outcome
  | 0, s => s.assert (!s.metadataDirty && !s.anyJournalDirty)
  | barriers + 1, s =>
    match s.disk with
    | none => .ok s
    | some d => s.flushBarrier hash env (flushBarriers barriers) d

/-- Without a disk, memory is the durability boundary. -/
def flushVolatile : Outcome := do
  let through := if s.pendingStartView.active then s.pendingStartView.opNumber else s.opNumber
  let s := { s with journalDirty := fun _ => false, metadataDirty := false }
  let s ← s.publishPendingAfterBarrier hash env through
  ({ s with metadataDirty := false }).publishCommitEffects

def flushDurableState : Outcome :=
  if s.storageFailed then .ok s
  else match s.disk with
    | none => s.flushVolatile hash env
    | some d =>
      if s.pendingStartView.active then
        let through := s.pendingStartView.opNumber
        match s.syncPendingStartView hash d with
        | .error s => .error s
        | .ok (false, s) => .ok s
        | .ok (true, s) => s.publishPendingAfterBarrier hash env through
      else flushBarriers hash env flushBarrierMax s

end Replica

end Hivemind
