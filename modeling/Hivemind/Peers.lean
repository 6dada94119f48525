import Hivemind.Framing
import Hivemind.Recover

/-! The sockets between replicas: the peer side of `ConnectionManager` in `connection.zig`. A socket
is bound to the id of a replica by the first good frame that arrives on it. A slot has a file
descriptor exactly while it is connected, so descriptors are left out; what the operating system
answers is in the events. -/
namespace Hivemind

open Codec

inductive PeerDirection where
  | inbound | outbound
  deriving DecidableEq

/-- A slot of `peers`. `peerId` is `worker_idx` where `peer_id_known`, and `configuredPeerId` is the
id a socket was opened for. -/
structure PeerConn where
  frameBuf : List UInt8 := []
  connected : Bool := false
  peerDirection : PeerDirection := .inbound
  connectPending : Bool := false
  peerDeadlineTick : ℕ := 0
  configuredPeerId : Option ℕ := none
  peerId : Option ℕ := none
  deriving DecidableEq

structure PeerTarget where
  peerId : ℕ
  host : ℕ
  port : ℕ

def maxPeerConnections : ℕ := replicaCountMax * 2
def peerConnectTimeoutTicks : ℕ := 2000
def peerIdentityTimeoutTicks : ℕ := 2000
def peerRetryIntervalTicks : ℕ := 2000

/-- What the connection manager knows of its peers; `key` is the peer key if encryption is
enabled. -/
structure PeerTable where
  replicaId : ℕ
  replicaCount : ℕ
  peers : List PeerConn := []
  peerTargets : List PeerTarget := []
  lastRetryTick : ℕ := 0
  pollCount : ℕ := 0
  key : Option Key := none

def disconnectPeer (p : PeerConn) : PeerConn :=
  { p with
    frameBuf := []
    connected := false
    connectPending := false
    peerDeadlineTick := 0
    configuredPeerId := none
    peerId := none }

/-- What `identifyPeerConnection` writes when it binds a socket. -/
def PeerConn.identified (peer : PeerConn) (fromId : ℕ) : PeerConn :=
  { peer with peerId := some fromId, peerDeadlineTick := 0 }

/-- What `readConn` leaves in the buffer, which has room for one frame. -/
def PeerConn.received (peer : PeerConn) (bytes : List UInt8) : PeerConn :=
  { peer with frameBuf := peer.frameBuf ++ bytes.take (maxFrameBytes - peer.frameBuf.length) }

/-! ### Checks of a message -/

def selectionBindingValid (source tipOp tipChecksum : ℕ) : Bool :=
  if tipChecksum = 0 then source == 0 && tipOp == 0
  else decide (source < replicaCountMax) && decide (0 < tipOp) && decide (tipOp ≤ logSizeMax)

/-- Stateless checks before a socket may claim an identity. -/
def peerMessageSemanticsValid (hash : Hash) : Message → Bool
  | .prepare m => prepareSemanticsValid hash m
  | .prepareOk m => decide (0 < m.opNumber) && decide (m.opNumber ≤ logSizeMax) &&
      decide (m.commitMin ≤ logSizeMax) && m.entryChecksum != 0 &&
      ((m.commitMin == 0) == (m.commitChecksum == 0))
  | .commit m => commitSemanticsValid m
  | .doViewChange m => !(decide (m.commitMin > m.opNumber) || decide (m.opNumber > logSizeMax)) &&
      m.retentionFloor == 0 && !decide (m.logEntryCount > dvcLogMax) &&
      m.entries.all fun e => !(e.opNumber == 0 || decide (e.opNumber > m.opNumber) || !e.valid hash)
  | .startView m => startViewEntriesValid hash m
  | .requestPrepare m => decide (0 < m.opNumber) && decide (m.opNumber ≤ logSizeMax) &&
      decide (m.selectedCommitBound ≤ m.selectedTipOp) &&
      selectionBindingValid m.selectedSource m.selectedTipOp m.selectedTipChecksum &&
      ((m.selectedTipChecksum == 0) == (m.expectedEntryChecksum == 0))
  | .sendPrepare m => decide (0 < m.entry.opNumber) && decide (m.entry.opNumber ≤ logSizeMax) &&
      m.entry.valid hash && decide (m.selectedCommitBound ≤ m.selectedTipOp) &&
      selectionBindingValid m.selectedSource m.selectedTipOp m.selectedTipChecksum &&
      ((m.selectedTipChecksum == 0) == (m.expectedEntryChecksum == 0))
  | .sendStatus m => decide (m.commitMin ≤ m.opNumber) && decide (m.opNumber ≤ logSizeMax) &&
      ((m.opNumber == 0) == (m.tipChecksum == 0)) && ((m.commitMin == 0) == (m.commitChecksum == 0))
  | .request _ | .reply _ | .startViewChange _ | .requestStatus _ | .requestStartView _ => true

/-- Messages that carry a replica id must agree with the sender the frame names. -/
def peerFrameIdentityValid (fromId : ℕ) : Message → Bool
  | .prepareOk m => m.replicaId == fromId
  | .startViewChange m => m.replicaId == fromId
  | .doViewChange m => m.replicaId == fromId
  | _ => true

/-! ### Frames -/

/-- What the loop of `processPeerFrames` finds in the buffer. -/
inductive PeerFrame where
  | invalid
  | payload (p : List UInt8)

/-- `declaration_valid`. -/
def declarationValid (key : Option Key) (data : List UInt8) : Bool :=
  let frameLen := ofLe (data.take 4)
  let flags := data.getD 4 0
  let payloadMin := if flags = 0x01 then nonceLen + tagLen + 3 else 3
  decide (frameLen ≤ maxFrameBytes - 4) && (flags == 0x00 || flags == 0x01) &&
    ((flags == 0x01) == key.isSome) && (flags != 0x01 || key.isSome) &&
    decide (frameLen ≥ 1 + payloadMin)

/-- The frames of the buffer that decode, up to a declaration that is not valid, and the bytes
behind the last complete one. Every round of the loop takes bytes off, so that the length of the
buffer is fuel enough. -/
def peerFrames (aead : Aead) (key : Option Key) : ℕ → List UInt8 → List PeerFrame × List UInt8
  | 0, data => ([], data)
  | fuel + 1, data =>
    if data.length < 5 then ([], data)
    else if !declarationValid key data then ([.invalid], data)
    else match decodeFrame aead key.isSome key data maxFrameBytes true with
      | (none, 0) => ([], data)
      | (none, consumed) => peerFrames aead key fuel (data.drop consumed)
      | (some p, consumed) =>
        let (frames, rest) := peerFrames aead key fuel (data.drop consumed)
        (.payload p :: frames, rest)

/-- `frame_payload[2]`: the replica that the frame says it is from. -/
def senderOf (payload : List UInt8) : ℕ := (payload.getD 2 0).toNat

/-- A call of `Replica.onMessage`: the slot the frame arrived on, and the table at that moment. -/
structure PeerCall where
  slot : ℕ
  table : PeerTable
  src : ℕ
  message : Message

namespace PeerTable

variable (aead : Aead) (hash : Hash) (t : PeerTable)

def disconnect (i : ℕ) : PeerTable := { t with peers := t.peers.modify i disconnectPeer }

def setPeer (i : ℕ) (peer : PeerConn) : PeerTable := { t with peers := t.peers.set i peer }

/-- The lower replica opens the socket, the higher one accepts it. -/
def preferredDirection (fromId : ℕ) : PeerDirection :=
  if t.replicaId < fromId then .outbound else .inbound

def identifyPeerConnection (peerIdx fromId : ℕ) : PeerTable × Bool :=
  match t.peers[peerIdx]? with
  | none => (t, false)
  | some peer =>
    if !peer.connected then (t, false)
    else match peer.peerId with
      | some id => (t, id == fromId)
      | none =>
        if peer.configuredPeerId.any (· != fromId) then (t.disconnect peerIdx, false)
        else if peer.peerDirection ≠ t.preferredDirection fromId then (t.disconnect peerIdx, false)
        else if (List.range t.peers.length).any (fun j => j != peerIdx &&
            (t.peers[j]?).any fun other => other.connected && other.peerId == some fromId) then
          (t.disconnect peerIdx, false)
        else (t.setPeer peerIdx (peer.identified fromId), true)

/-- The body of the loop of `processPeerFrames` for one decoded frame, up to the call. -/
def handlePayload (peerIdx : ℕ) (p : List UInt8) : PeerTable × Option (ℕ × Message) :=
  if p.length < 4 then (t, none)
  else
    let fromId := senderOf p
    if fromId ≥ t.replicaCount then (t, none)
    else match deserialize (p.drop 3) with
      | .error _ => (t, none)
      | .ok message =>
        if !peerFrameIdentityValid fromId message then (t, none)
        else if !peerMessageSemanticsValid hash message then (t, none)
        else match t.identifyPeerConnection peerIdx fromId with
          | (t, false) => (t, none)
          | (t, true) => (t, some (fromId, message))

/-- `sendToPeer` where the write fails: the socket it chose is closed. -/
def sendFailed (dst : ℕ) : PeerTable :=
  match t.peers.findIdx? (fun peer => peer.connected && !peer.connectPending &&
      (peer.peerId == some dst || (peer.peerId.isNone && peer.peerDirection == .outbound &&
        peer.configuredPeerId == some dst))) with
  | none => t
  | some i => t.disconnect i

/-- What the loop does with the frames. `failed` has, for each call of `onMessage`, the replicas to
which a write of that call fails. A frame on a socket that has been closed does nothing, so that
the `break` of the source needs no case of its own. -/
def actOnFrames (peerIdx : ℕ) : List PeerFrame → List (List ℕ) → PeerTable →
    PeerTable × List PeerCall
  | [], _, t => (t, [])
  | .invalid :: _, _, t => (t.disconnect peerIdx, [])
  | .payload p :: rest, failed, t =>
    match t.handlePayload hash peerIdx p with
    | (t, none) => actOnFrames peerIdx rest failed t
    | (t, some (src, message)) =>
      let (t', calls) := actOnFrames peerIdx rest failed.tail
        ((failed.headD []).foldl sendFailed t)
      (t', ⟨peerIdx, t, src, message⟩ :: calls)

/-- `shiftBuffer`; a socket that was closed has an empty buffer. -/
def shiftBuffer (i : ℕ) (rest : List UInt8) : PeerTable :=
  match t.peers[i]? with
  | none => t
  | some peer => t.setPeer i { peer with frameBuf := if peer.connected then rest else [] }

def processPeerFrames (peerIdx : ℕ) (failed : List (List ℕ)) : PeerTable × List PeerCall :=
  match t.peers[peerIdx]? with
  | none => (t, [])
  | some peer =>
    let (frames, rest) := peerFrames aead t.key peer.frameBuf.length peer.frameBuf
    let (t, calls) := actOnFrames hash peerIdx frames failed t
    (t.shiftBuffer peerIdx rest, calls)

/-- One round of `readPeers`: `got` is what `read` returned, nothing if it failed or the other side
has closed the socket. -/
def readPeer (peerIdx : ℕ) (got : Option (List UInt8)) (failed : List (List ℕ)) :
    PeerTable × List PeerCall :=
  match t.peers[peerIdx]? with
  | none => (t, [])
  | some peer =>
    if !peer.connected || peer.connectPending then (t, [])
    else if peer.frameBuf.length ≥ maxFrameBytes then (t.disconnect peerIdx, [])
    else match got with
      | none => (t.disconnect peerIdx, [])
      | some bytes =>
        (t.setPeer peerIdx (peer.received bytes)).processPeerFrames aead hash peerIdx failed

/-- The frames that a read of the slot finds complete. -/
def readFrames (peerIdx : ℕ) (got : Option (List UInt8)) : List PeerFrame :=
  match t.peers[peerIdx]?, got with
  | some peer, some bytes =>
    let data := (peer.received bytes).frameBuf
    (peerFrames aead t.key data.length data).1
  | _, _ => []

/-! ### Opening sockets -/

/-- `acquirePeerSlot` and the write of the slot; without a slot the socket is closed again. -/
def placePeer (peer : PeerConn) : PeerTable :=
  match t.peers.findIdx? (fun p => !p.connected) with
  | some i => t.setPeer i peer
  | none =>
    if t.peers.length ≥ maxPeerConnections then t
    else { t with peers := t.peers ++ [peer] }

/-- One round of `acceptPeers`. -/
def acceptPeer : PeerTable :=
  t.placePeer
    { connected := true, peerDeadlineTick := saturatingAdd 64 t.pollCount peerIdentityTimeoutTicks }

/-- `connectToPeerInner`: `connect` fails, or it returns a socket and whether it is pending. -/
def connectToPeerInner (peerId : ℕ) (result : Option Bool) : PeerTable :=
  match result with
  | none => t
  | some pending =>
    t.placePeer
      { connected := true
        peerDirection := .outbound
        connectPending := pending
        peerDeadlineTick := saturatingAdd 64 t.pollCount
          (if pending then peerConnectTimeoutTicks else peerIdentityTimeoutTicks)
        configuredPeerId := some peerId }

def recordPeerTarget (target : PeerTarget) : PeerTable :=
  match t.peerTargets.findIdx? (·.peerId == target.peerId) with
  | some i => { t with peerTargets := t.peerTargets.set i target }
  | none =>
    if t.peerTargets.length < replicaCountMax then
      { t with peerTargets := t.peerTargets ++ [target] }
    else t

def connectToPeer (target : PeerTarget) (result : Option Bool) : PeerTable :=
  if target.peerId = t.replicaId then t
  else
    let t := t.recordPeerTarget target
    if t.replicaId < target.peerId then t.connectToPeerInner target.peerId result else t

/-- What `poll` and `getsockopt` say of a pending connection. -/
inductive ConnectOutcome where
  | failed | notReady | ready
  deriving DecidableEq

/-- One peer in the loop of `completePeerConnections`. -/
def completePeer (now : ℕ) (outcome : ConnectOutcome) (peer : PeerConn) : PeerConn :=
  if !peer.connected || peer.peerId.isSome then peer
  else if now ≥ peer.peerDeadlineTick then disconnectPeer peer
  else if !peer.connectPending then peer
  else match outcome with
    | .failed => disconnectPeer peer
    | .notReady => peer
    | .ready =>
      { peer with
        connectPending := false
        peerDeadlineTick := saturatingAdd 64 now peerIdentityTimeoutTicks }

def completePeerConnections (now : ℕ) (outcomes : ℕ → ConnectOutcome) : PeerTable :=
  { t with peers := t.peers.mapIdx fun i peer => completePeer now (outcomes i) peer }

def peerNeedsRetry (peerId : ℕ) : Bool :=
  decide (t.replicaId < peerId) &&
    !t.peers.any (fun p => p.connected && p.peerId == some peerId) &&
    !t.peers.any (fun p => p.connected && p.peerId.isNone && p.configuredPeerId == some peerId)

/-- `retryPeerConnections`; `results` has what `connect` returns for each target. -/
def retryPeerConnections (now : ℕ) (outcomes : ℕ → ConnectOutcome) (results : ℕ → Option Bool) :
    PeerTable :=
  if t.peerTargets.isEmpty then t
  else
    let t := t.completePeerConnections now outcomes
    if 0 < now ∧ now - t.lastRetryTick < peerRetryIntervalTicks then t
    else
      t.peerTargets.foldl (fun t target =>
        if t.peerNeedsRetry target.peerId then
          t.connectToPeerInner target.peerId (results target.peerId)
        else t) { t with lastRetryTick := now }

end PeerTable

/-! ### Histories -/

/-- What can happen to the sockets: the parts of a `poll`, the calls of `connectToPeer` at the
start, and a write to a peer that fails outside of `readPeers`. -/
inductive PeerEvent where
  | poll
  | accept
  | complete (outcomes : ℕ → PeerTable.ConnectOutcome)
  | read (peerIdx : ℕ) (got : Option (List UInt8)) (failed : List (List ℕ))
  | retry (outcomes : ℕ → PeerTable.ConnectOutcome) (results : ℕ → Option Bool)
  | connect (target : PeerTarget) (result : Option Bool)
  | sendFailed (dst : ℕ)

namespace PeerTable

variable (aead : Aead) (hash : Hash)

def step (t : PeerTable) : PeerEvent → PeerTable × List PeerCall
  | .poll => ({ t with pollCount := t.pollCount + 1 }, [])
  | .accept => (t.acceptPeer, [])
  | .complete outcomes => (t.completePeerConnections t.pollCount outcomes, [])
  | .read peerIdx got failed => t.readPeer aead hash peerIdx got failed
  | .retry outcomes results => (t.retryPeerConnections t.pollCount outcomes results, [])
  | .connect target result => (t.connectToPeer target result, [])
  | .sendFailed dst => (t.sendFailed dst, [])

def run (t : PeerTable) (events : List PeerEvent) : PeerTable :=
  events.foldl (fun t e => (t.step aead hash e).1) t

/-- The slot has a connected socket. -/
def Connected (t : PeerTable) (i : ℕ) : Prop := ∃ p, t.peers[i]? = some p ∧ p.connected = true

/-- The slot has a connected socket that is bound to `x`. -/
def Bound (t : PeerTable) (i x : ℕ) : Prop :=
  ∃ p, t.peers[i]? = some p ∧ p.connected = true ∧ p.peerId = some x

/-- Every id is bound once, and only ids of the cluster are. -/
structure Sound (t : PeerTable) : Prop where
  once : ∀ {i j x}, t.Bound i x → t.Bound j x → i = j
  member : ∀ {i x}, t.Bound i x → x < t.replicaCount

variable {aead : Aead} {hash : Hash} {t t' t₁ : PeerTable}

theorem Bound.connected {i x : ℕ} (h : t.Bound i x) : t.Connected i := by
  obtain ⟨p, hp, hconnected, -⟩ := h
  exact ⟨p, hp, hconnected⟩

/-- A step that leaves the bindings as they are. -/
structure SameBindings (t t' : PeerTable) : Prop where
  me : t'.replicaId = t.replicaId
  count : t'.replicaCount = t.replicaCount
  bound : ∀ i x, t'.Bound i x ↔ t.Bound i x

theorem SameBindings.refl (t : PeerTable) : SameBindings t t := ⟨rfl, rfl, fun _ _ => Iff.rfl⟩

theorem SameBindings.trans (h : SameBindings t t₁) (h' : SameBindings t₁ t') :
    SameBindings t t' where
  me := h'.me.trans h.me
  count := h'.count.trans h.count
  bound i x := (h'.bound i x).trans (h.bound i x)

theorem SameBindings.sound (h : SameBindings t t') (hs : t.Sound) : t'.Sound where
  once hi hj := hs.once ((h.bound _ _).mp hi) ((h.bound _ _).mp hj)
  member hi := h.count ▸ hs.member ((h.bound _ _).mp hi)

/-! ### What the functions do to the bindings -/

theorem disconnect_get (t : PeerTable) (i j : ℕ) : (t.disconnect i).peers[j]? =
    if i = j then (t.peers[j]?).map disconnectPeer else t.peers[j]? := by
  rw [disconnect, List.getElem?_modify]
  split
  · rfl
  · exact Option.map_id'

theorem connected_disconnect {i j : ℕ} : (t.disconnect i).Connected j ↔ i ≠ j ∧ t.Connected j := by
  unfold Connected
  rw [disconnect_get]
  by_cases hij : i = j
  · rw [if_pos hij]
    constructor
    · rintro ⟨p, hp, hconnected⟩
      obtain ⟨q, -, rfl⟩ := Option.map_eq_some_iff.mp hp
      cases hconnected
    · rintro ⟨hne, -⟩
      exact absurd hij hne
  · rw [if_neg hij]
    exact ⟨fun h => ⟨hij, h⟩, fun h => h.2⟩

theorem bound_disconnect {i j x : ℕ} : (t.disconnect i).Bound j x ↔ i ≠ j ∧ t.Bound j x := by
  constructor
  · intro h
    have hij := (connected_disconnect.mp h.connected).1
    unfold Bound at h
    rw [disconnect_get, if_neg hij] at h
    exact ⟨hij, h⟩
  · rintro ⟨hij, h⟩
    unfold Bound
    rw [disconnect_get, if_neg hij]
    exact h

theorem bound_set {i j x : ℕ} {q : PeerConn} (hi : i < t.peers.length) :
    (t.setPeer i q).Bound j x ↔
      if i = j then q.connected = true ∧ q.peerId = some x else t.Bound j x := by
  unfold Bound setPeer
  by_cases hij : i = j
  · subst hij
    simp only [List.getElem?_set_self hi]
    exact ⟨fun ⟨p, hp, h⟩ => Option.some.inj hp ▸ h, fun h => ⟨q, rfl, h⟩⟩
  · rw [if_neg hij]
    simp only [List.getElem?_set_ne hij]

theorem set_same {i : ℕ} {q : PeerConn} (hi : i < t.peers.length) (hq : q.peerId = none)
    (hfree : ∀ x, ¬ t.Bound i x) : SameBindings t (t.setPeer i q) where
  me := rfl
  count := rfl
  bound j x := by
    rw [bound_set hi]
    split
    · next hij =>
      subst hij
      rw [hq]
      exact iff_of_false (fun h => nomatch h.2) (hfree x)
    · exact Iff.rfl

theorem append_same {q : PeerConn} (hq : q.peerId = none) :
    SameBindings t { t with peers := t.peers ++ [q] } where
  me := rfl
  count := rfl
  bound j x := by
    unfold Bound
    rcases lt_or_ge j t.peers.length with hj | hj
    · simp only [List.getElem?_append_left hj]
    · -- The new slot is not bound and there was none before.
      constructor
      · rintro ⟨p, hp, -, hx⟩
        have hmem : p ∈ [q] := by
          rw [List.getElem?_append_right hj] at hp
          exact List.mem_of_getElem? hp
        rw [List.mem_singleton.mp hmem, hq] at hx
        cases hx
      · rintro ⟨p, hp, -⟩
        rw [List.getElem?_eq_none hj] at hp
        cases hp

theorem placePeer_same {q : PeerConn} (hq : q.peerId = none) : SameBindings t (t.placePeer q) := by
  unfold placePeer
  split
  · next i hi =>
    obtain ⟨p, hp, hfree⟩ := StateMachine.getElem?_of_findIdx? hi
    have hlt : i < t.peers.length := (List.getElem?_eq_some_iff.mp hp).1
    apply set_same hlt hq
    rintro x ⟨p', hp', hconnected, -⟩
    rw [hp] at hp'
    cases hp'
    rw [hconnected] at hfree
    cases hfree
  · split
    · exact .refl t
    · exact append_same hq

theorem connectToPeerInner_same (peerId : ℕ) (result : Option Bool) :
    SameBindings t (t.connectToPeerInner peerId result) := by
  unfold connectToPeerInner
  split
  · exact .refl t
  · exact placePeer_same rfl

theorem recordPeerTarget_same (target : PeerTarget) :
    SameBindings t (t.recordPeerTarget target) := by
  unfold recordPeerTarget
  split
  · exact ⟨rfl, rfl, fun _ _ => Iff.rfl⟩
  · split
    · exact ⟨rfl, rfl, fun _ _ => Iff.rfl⟩
    · exact .refl t

theorem connectToPeer_same (target : PeerTarget) (result : Option Bool) :
    SameBindings t (t.connectToPeer target result) := by
  unfold connectToPeer
  split
  · exact .refl t
  · dsimp only
    split
    · exact (recordPeerTarget_same target).trans (connectToPeerInner_same _ _)
    · exact recordPeerTarget_same target

/-- `completePeerConnections` passes over a bound socket, and binds none. -/
theorem completePeer_bound {now x : ℕ} {outcome : ConnectOutcome} {p : PeerConn} :
    ((completePeer now outcome p).connected = true ∧ (completePeer now outcome p).peerId = some x) ↔
      (p.connected = true ∧ p.peerId = some x) := by
  unfold completePeer
  split
  · exact Iff.rfl
  · next hskip =>
    have hnone : p.peerId = none := by
      rw [Bool.or_eq_true, not_or] at hskip
      simpa using hskip.2
    have hfree : ¬ (p.connected = true ∧ p.peerId = some x) := by
      rw [hnone]
      exact fun h => nomatch h.2
    refine iff_of_false ?_ hfree
    split
    · exact fun h => nomatch h.1
    · split
      · exact hfree
      · cases outcome with
        | failed => exact fun h => nomatch h.1
        | notReady => exact hfree
        | ready => exact hfree

theorem completePeerConnections_same (now : ℕ) (outcomes : ℕ → ConnectOutcome) :
    SameBindings t (t.completePeerConnections now outcomes) where
  me := rfl
  count := rfl
  bound i x := by
    unfold Bound completePeerConnections
    simp only [List.getElem?_mapIdx, Option.map_eq_some_iff]
    constructor
    · rintro ⟨_, ⟨p, hp, rfl⟩, h⟩
      exact ⟨p, hp, completePeer_bound.mp h⟩
    · rintro ⟨p, hp, h⟩
      exact ⟨_, ⟨p, hp, rfl⟩, completePeer_bound.mpr h⟩

theorem foldl_same {α : Type} {f : PeerTable → α → PeerTable} (hf : ∀ t a, SameBindings t (f t a))
    (as : List α) (t : PeerTable) : SameBindings t (as.foldl f t) := by
  induction as generalizing t with
  | nil => exact .refl t
  | cons a as ih => exact (hf t a).trans (ih _)

theorem retryPeerConnections_same (now : ℕ) (outcomes : ℕ → ConnectOutcome)
    (results : ℕ → Option Bool) : SameBindings t (t.retryPeerConnections now outcomes results) := by
  unfold retryPeerConnections
  split
  · exact .refl t
  · dsimp only
    have hcomplete : SameBindings t (t.completePeerConnections now outcomes) :=
      completePeerConnections_same now outcomes
    split
    · exact hcomplete
    · apply hcomplete.trans
      have hnote : SameBindings (t.completePeerConnections now outcomes)
          { t.completePeerConnections now outcomes with lastRetryTick := now } :=
        ⟨rfl, rfl, fun _ _ => Iff.rfl⟩
      apply hnote.trans
      apply foldl_same
      intro t target
      split
      · exact connectToPeerInner_same _ _
      · exact .refl t

/-! ### Identification -/

/-- What `identifyPeerConnection` can do with a frame of `src` on slot `i`. A socket that is bound
stays as it is; one that is not is closed or takes an id that no socket has. -/
inductive Identified (t : PeerTable) (i src : ℕ) : PeerTable × Bool → Prop
  | refused (hbound : ∀ x, t.Bound i x → x ≠ src) : Identified t i src (t, false)
  | known (hbound : t.Bound i src) : Identified t i src (t, true)
  | closed (hfree : ∀ x, ¬ t.Bound i x) : Identified t i src (t.disconnect i, false)
  | taken (p : PeerConn) (hp : t.peers[i]? = some p) (hconnected : p.connected = true)
      (hnone : p.peerId = none)
      (hdirection : p.peerDirection = t.preferredDirection src)
      (hother : ∀ j, ¬ t.Bound j src) :
      Identified t i src (t.setPeer i (p.identified src), true)

theorem identifyPeerConnection_cases (t : PeerTable) (i src : ℕ) :
    Identified t i src (t.identifyPeerConnection i src) := by
  unfold identifyPeerConnection
  split
  · next hnone =>
    apply Identified.refused
    rintro x ⟨p, hp, -⟩
    rw [hnone] at hp
    cases hp
  · next p hp =>
    have hsame : ∀ {x}, t.Bound i x → p.connected = true ∧ p.peerId = some x := by
      rintro x ⟨q, hq, h⟩
      rw [hp] at hq
      exact Option.some.inj hq ▸ h
    split
    · next hclosed =>
      apply Identified.refused
      intro x hx
      rw [(hsame hx).1] at hclosed
      cases hclosed
    · next hopen =>
      have hconnected : p.connected = true := by simpa using hopen
      split
      · next id hid =>
        -- The socket is bound already: the frame has to name its id.
        by_cases heq : id = src
        · subst heq
          rw [beq_self_eq_true]
          exact .known ⟨p, hp, hconnected, hid⟩
        · rw [beq_false_of_ne heq]
          apply Identified.refused
          intro x hx
          have := (hsame hx).2
          rw [hid] at this
          cases this
          exact heq
      · next hnone =>
        have hfree : ∀ x, ¬ t.Bound i x := by
          intro x hx
          have := (hsame hx).2
          rw [hnone] at this
          cases this
        split
        · exact .closed hfree
        · split
          · exact .closed hfree
          · next hdirection =>
            split
            · exact .closed hfree
            · next hothers =>
              refine .taken p hp hconnected hnone (not_not.mp hdirection) ?_
              rintro j hj
              obtain ⟨q, hq, hqconnected, hqid⟩ := hj
              apply hothers
              rw [List.any_eq_true]
              refine ⟨j, List.mem_range.mpr (List.getElem?_eq_some_iff.mp hq).1, ?_⟩
              have hne : j ≠ i := by
                rintro rfl
                exact hfree src ⟨q, hq, hqconnected, hqid⟩
              simp [hne, hq, hqconnected, hqid]

/-- What the frames of slot `i` may do to the table: they bind ids that are `named`, a binding of
another slot is lost only where `lost` says that a write to its replica failed, and no slot gets a
socket. -/
structure Progress (i : ℕ) (named lost : ℕ → Prop) (t t' : PeerTable) : Prop where
  me : t'.replicaId = t.replicaId
  count : t'.replicaCount = t.replicaCount
  sound : t.Sound → t'.Sound
  direction : ∀ {j : ℕ} {p' : PeerConn}, t'.peers[j]? = some p' →
    ∃ p, t.peers[j]? = some p ∧ p.peerDirection = p'.peerDirection
  closed : ∀ {j}, t'.Connected j → t.Connected j
  fresh : ∀ {j x}, t'.Bound j x → t.Bound j x ∨ named x
  kept : ∀ {j x}, t.Bound j x → t'.Bound j x ∨ ¬ t'.Connected j
  spared : ∀ {j x}, j ≠ i → t.Bound j x → ¬ lost x → t'.Bound j x

section Progress

variable {i : ℕ} {named lost : ℕ → Prop}

theorem Progress.refl (t : PeerTable) : Progress i named lost t t where
  me := rfl
  count := rfl
  sound h := h
  direction h := ⟨_, h, rfl⟩
  closed h := h
  fresh h := .inl h
  kept h := .inl h
  spared _ h _ := h

theorem Progress.trans (h : Progress i named lost t t₁) (h' : Progress i named lost t₁ t') :
    Progress i named lost t t' where
  me := h'.me.trans h.me
  count := h'.count.trans h.count
  sound hs := h'.sound (h.sound hs)
  direction hp := by
    obtain ⟨p₁, hp₁, hd₁⟩ := h'.direction hp
    obtain ⟨p, hp, hd⟩ := h.direction hp₁
    exact ⟨p, hp, hd.trans hd₁⟩
  closed hc := h.closed (h'.closed hc)
  fresh hb := by
    rcases h'.fresh hb with hb | hnamed
    · exact h.fresh hb
    · exact .inr hnamed
  kept hb := by
    rcases h.kept hb with hb | hgone
    · exact h'.kept hb
    · exact .inr fun hc => hgone (h'.closed hc)
  spared hne hb hlost := h'.spared hne (h.spared hne hb hlost) hlost

theorem disconnect_progress {j : ℕ} (hlost : j ≠ i → ∀ x, t.Bound j x → lost x) :
    Progress i named lost t (t.disconnect j) where
  me := rfl
  count := rfl
  sound hs :=
    { once := fun ha hb => hs.once (bound_disconnect.mp ha).2 (bound_disconnect.mp hb).2
      member := fun ha => hs.member (bound_disconnect.mp ha).2 }
  direction {k p'} hp := by
    rw [disconnect_get] at hp
    split at hp
    · obtain ⟨p, hget, rfl⟩ := Option.map_eq_some_iff.mp hp
      exact ⟨p, hget, rfl⟩
    · exact ⟨p', hp, rfl⟩
  closed hc := (connected_disconnect.mp hc).2
  fresh hb := .inl (bound_disconnect.mp hb).2
  kept {k x} hb := by
    by_cases hjk : j = k
    · exact .inr fun hc => (connected_disconnect.mp hc).1 hjk
    · exact .inl (bound_disconnect.mpr ⟨hjk, hb⟩)
  spared {k x} hne hb hnot := by
    refine bound_disconnect.mpr ⟨?_, hb⟩
    rintro rfl
    exact hnot (hlost hne x hb)

theorem sendFailed_progress {dst : ℕ} (hdst : lost dst) :
    Progress i named lost t (t.sendFailed dst) := by
  unfold sendFailed
  split
  · exact .refl t
  · next j hj =>
    apply disconnect_progress
    rintro - x ⟨q, hq, -, hx⟩
    obtain ⟨p, hp, hmatch⟩ := StateMachine.getElem?_of_findIdx? hj
    rw [hp] at hq
    cases hq
    -- A bound socket is chosen by its id only.
    simp only [hx, Bool.and_eq_true, Bool.or_eq_true, beq_iff_eq, Option.some.injEq,
      Option.isNone_some, Bool.false_eq_true, false_and, or_false] at hmatch
    exact hmatch.2 ▸ hdst

theorem foldl_sendFailed_progress {failed : List ℕ} (hfailed : ∀ x ∈ failed, lost x) :
    Progress i named lost t (failed.foldl sendFailed t) := by
  induction failed generalizing t with
  | nil => exact .refl t
  | cons dst failed ih =>
    exact (sendFailed_progress (hfailed dst List.mem_cons_self)).trans
      (ih fun x hx => hfailed x (List.mem_cons_of_mem _ hx))

theorem connected_set {j : ℕ} {p q : PeerConn} (hp : t.peers[i]? = some p)
    (hq : q.connected = p.connected) :
    (t.setPeer i q).Connected j ↔ t.Connected j := by
  have hi : i < t.peers.length := (List.getElem?_eq_some_iff.mp hp).1
  unfold Connected setPeer
  by_cases hij : i = j
  · subst hij
    simp only [List.getElem?_set_self hi, hp, Option.some.injEq, exists_eq_left', hq]
  · simp only [List.getElem?_set_ne hij]

theorem set_direction {j : ℕ} {p q p' : PeerConn} (hp : t.peers[i]? = some p)
    (hq : q.peerDirection = p.peerDirection) (h : (t.setPeer i q).peers[j]? = some p') :
    ∃ p, t.peers[j]? = some p ∧ p.peerDirection = p'.peerDirection := by
  have hi : i < t.peers.length := (List.getElem?_eq_some_iff.mp hp).1
  unfold setPeer at h
  by_cases hij : i = j
  · subst hij
    rw [List.getElem?_set_self hi] at h
    cases h
    exact ⟨p, hp, hq.symm⟩
  · rw [List.getElem?_set_ne hij] at h
    exact ⟨p', h, rfl⟩

theorem identify_progress {src : ℕ} {r : PeerTable × Bool} (hsrc : src < t.replicaCount)
    (hnamed : ∀ p, t.peers[i]? = some p → p.peerDirection = t.preferredDirection src → named src)
    (h : Identified t i src r) : Progress i named lost t r.1 := by
  cases h with
  | refused => exact .refl t
  | known => exact .refl t
  | closed => exact disconnect_progress fun hne => absurd rfl hne
  | taken p hp hconnected hnone hdirection hother =>
    have hi : i < t.peers.length := (List.getElem?_eq_some_iff.mp hp).1
    have hfree : ∀ x, ¬ t.Bound i x := by
      rintro x ⟨q, hq, -, hx⟩
      rw [hp] at hq
      cases hq
      rw [hnone] at hx
      cases hx
    -- Slot `i` is bound to `src` now, every other slot is as it was.
    have hbound : ∀ {j x}, (t.setPeer i (p.identified src)).Bound j x →
        (i = j ∧ x = src) ∨ t.Bound j x := by
      intro j x h
      rw [bound_set hi] at h
      split at h
      · next hij => exact .inl ⟨hij, (Option.some.inj h.2).symm⟩
      · exact .inr h
    have hstays : ∀ {j x}, t.Bound j x → (t.setPeer i (p.identified src)).Bound j x := by
      intro j x h
      rw [bound_set hi, if_neg]
      · exact h
      · rintro rfl
        exact hfree x h
    exact
      { me := rfl
        count := rfl
        sound := fun hs =>
          { once := by
              intro a b x ha hb
              rcases hbound ha with ⟨rfl, rfl⟩ | ha
              · rcases hbound hb with ⟨rfl, -⟩ | hb
                · rfl
                · exact absurd hb (hother b)
              · rcases hbound hb with ⟨-, rfl⟩ | hb
                · exact absurd ‹t.Bound a _› (hother a)
                · exact hs.once ‹t.Bound a x› hb
            member := by
              intro a x ha
              rcases hbound ha with ⟨-, rfl⟩ | ha
              · exact hsrc
              · exact hs.member ha }
        direction := set_direction (q := p.identified src) hp rfl
        closed := (connected_set (q := p.identified src) hp rfl).mp
        fresh := by
          intro j x h
          rcases hbound h with ⟨-, rfl⟩ | h
          · exact .inr (hnamed p hp hdirection)
          · exact .inl h
        kept := fun h => .inl (hstays h)
        spared := fun _ h _ => hstays h }

theorem Identified.bound {src : ℕ} {r : PeerTable × Bool} (h : Identified t i src r)
    (hok : r.2 = true) : r.1.Bound i src := by
  cases h with
  | refused => cases hok
  | known hbound => exact hbound
  | closed => cases hok
  | taken p hp hconnected hnone hdirection hother =>
    rw [bound_set (List.getElem?_eq_some_iff.mp hp).1, if_pos rfl]
    exact ⟨hconnected, rfl⟩

theorem handlePayload_cases (hash : Hash) (t : PeerTable) (i : ℕ) (p : List UInt8) :
    t.handlePayload hash i p = (t, none) ∨ (senderOf p < t.replicaCount ∧
      ∃ r, Identified t i (senderOf p) r ∧ (t.handlePayload hash i p = (r.1, none) ∨
        r.2 = true ∧ ∃ m, peerFrameIdentityValid (senderOf p) m = true ∧
          t.handlePayload hash i p = (r.1, some (senderOf p, m)))) := by
  unfold handlePayload
  split
  · exact .inl rfl
  · dsimp only
    split
    · exact .inl rfl
    · next hsrc =>
      split
      · exact .inl rfl
      · next m hm =>
        split
        · exact .inl rfl
        · next hid =>
          split
          · exact .inl rfl
          · refine .inr ⟨not_le.mp hsrc, _, identifyPeerConnection_cases t i _, ?_⟩
            split
            · next heq => rw [heq]; exact .inl rfl
            · next heq =>
              rw [heq]
              exact .inr ⟨rfl, m, by simpa using hid, rfl⟩

end Progress

/-- A call that the frames of slot `i` lead to: the slot is bound to the sender then. -/
structure Made (i : ℕ) (named lost : ℕ → Prop) (t : PeerTable) (c : PeerCall) : Prop where
  slot : c.slot = i
  bound : c.table.Bound i c.src
  valid : peerFrameIdentityValid c.src c.message = true
  progress : Progress i named lost t c.table

section Frames

variable {i : ℕ} {named lost : ℕ → Prop}

theorem Made.after {c : PeerCall} (h : Progress i named lost t t₁) (hc : Made i named lost t₁ c) :
    Made i named lost t c :=
  ⟨hc.slot, hc.bound, hc.valid, h.trans hc.progress⟩

/-- The ids that the frames can bind slot `i` to, in the direction its socket has. -/
def Names (i : ℕ) (frames : List PeerFrame) (named : ℕ → Prop) (t : PeerTable) : Prop :=
  ∀ p, t.peers[i]? = some p → ∀ payload, .payload payload ∈ frames →
    p.peerDirection = t.preferredDirection (senderOf payload) → named (senderOf payload)

theorem Names.after {frames rest : List PeerFrame} (h : Progress i named lost t t')
    (hn : Names i frames named t) (hrest : ∀ f ∈ rest, f ∈ frames) : Names i rest named t' := by
  intro p' hp' payload hmem hdirection
  obtain ⟨p, hp, hd⟩ := h.direction hp'
  apply hn p hp payload (hrest _ hmem)
  rw [hd, hdirection]
  unfold preferredDirection
  rw [h.me]

variable (hash) in
theorem actOnFrames_progress {frames : List PeerFrame} {failed : List (List ℕ)}
    (hnamed : Names i frames named t) (hlost : ∀ l ∈ failed, ∀ x ∈ l, lost x) :
    Progress i named lost t (actOnFrames hash i frames failed t).1 ∧
      ∀ c ∈ (actOnFrames hash i frames failed t).2, Made i named lost t c := by
  induction frames generalizing t failed with
  | nil =>
    exact ⟨.refl t, fun _ hc => absurd hc List.not_mem_nil⟩
  | cons frame rest ih =>
    cases frame with
    | invalid =>
      exact ⟨disconnect_progress fun hne => absurd rfl hne, fun _ hc => absurd hc List.not_mem_nil⟩
    | payload p =>
      rw [actOnFrames]
      have hthis : ∀ q, t.peers[i]? = some q → q.peerDirection =
          t.preferredDirection (senderOf p) → named (senderOf p) :=
        fun q hq => hnamed q hq p List.mem_cons_self
      have hrest : ∀ f ∈ rest, f ∈ PeerFrame.payload p :: rest := fun f => List.mem_cons_of_mem _
      rcases handlePayload_cases hash t i p with
        hnothing | ⟨hsrc, r, hr, hnone | ⟨hok, m, hvalid, hcall⟩⟩
      · rw [hnothing]
        have hsame : Progress i named lost t t := .refl t
        exact ih (hnamed.after hsame hrest) hlost
      · rw [hnone]
        have hstep : Progress i named lost t r.1 := identify_progress hsrc hthis hr
        obtain ⟨hprogress, hcalls⟩ := ih (t := r.1) (hnamed.after hstep hrest) hlost
        exact ⟨hstep.trans hprogress, fun c hc => (hcalls c hc).after hstep⟩
      · rw [hcall]
        have hhead : ∀ x ∈ failed.headD [], lost x := by
          cases failed with
          | nil => exact nofun
          | cons l failed => exact hlost l List.mem_cons_self
        have htail : ∀ l ∈ failed.tail, ∀ x ∈ l, lost x :=
          fun l hl => hlost l (List.mem_of_mem_tail hl)
        -- The frame is identified, the call is made, and its failed writes close sockets.
        have hbind : Progress i named lost t r.1 := identify_progress hsrc hthis hr
        have hstep : Progress i named lost t ((failed.headD []).foldl sendFailed r.1) :=
          hbind.trans (foldl_sendFailed_progress hhead)
        obtain ⟨hprogress, hcalls⟩ := ih (t := (failed.headD []).foldl sendFailed r.1)
          (hnamed.after hstep hrest) htail
        refine ⟨hstep.trans hprogress, ?_⟩
        intro c hc
        rcases List.mem_cons.mp hc with rfl | hc
        · exact ⟨rfl, hr.bound hok, hvalid, hbind⟩
        · exact (hcalls c hc).after hstep

theorem setPeer_progress {p q : PeerConn} (hp : t.peers[i]? = some p)
    (hconnected : q.connected = p.connected) (hid : q.peerId = p.peerId)
    (hdirection : q.peerDirection = p.peerDirection) :
    Progress i named lost t (t.setPeer i q) := by
  have hi : i < t.peers.length := (List.getElem?_eq_some_iff.mp hp).1
  have hbound : ∀ {j x}, (t.setPeer i q).Bound j x ↔ t.Bound j x := by
    intro j x
    rw [bound_set hi]
    split
    · next hij =>
      subst hij
      rw [hconnected, hid, Bound, hp]
      simp only [Option.some.injEq, exists_eq_left']
    · exact Iff.rfl
  exact
    { me := rfl
      count := rfl
      sound := SameBindings.sound ⟨rfl, rfl, fun _ _ => hbound⟩
      direction := set_direction hp hdirection
      closed := (connected_set hp hconnected).mp
      fresh := fun h => .inl (hbound.mp h)
      kept := fun h => .inl (hbound.mpr h)
      spared := fun _ h _ => hbound.mpr h }

theorem shiftBuffer_progress (rest : List UInt8) :
    Progress i named lost t (t.shiftBuffer i rest) := by
  unfold shiftBuffer
  split
  · exact .refl t
  · next p hp => exact setPeer_progress hp rfl rfl rfl

theorem readPeer_progress {got : Option (List UInt8)} {failed : List (List ℕ)}
    (hnamed : Names i (t.readFrames aead i got) named t) (hlost : ∀ l ∈ failed, ∀ x ∈ l, lost x) :
    Progress i named lost t (t.readPeer aead hash i got failed).1 ∧
      ∀ c ∈ (t.readPeer aead hash i got failed).2, Made i named lost t c := by
  have hclose : Progress i named lost t (t.disconnect i) :=
    disconnect_progress fun hne => absurd rfl hne
  unfold readPeer
  split
  · exact ⟨.refl t, fun _ hc => absurd hc List.not_mem_nil⟩
  · next p hp =>
    split
    · exact ⟨.refl t, fun _ hc => absurd hc List.not_mem_nil⟩
    · split
      · exact ⟨hclose, fun _ hc => absurd hc List.not_mem_nil⟩
      · split
        · exact ⟨hclose, fun _ hc => absurd hc List.not_mem_nil⟩
        · next bytes =>
          -- The bytes are put behind the buffer, its frames are acted on, the rest is kept.
          have hread : Progress i named lost t (t.setPeer i (p.received bytes)) :=
            setPeer_progress hp rfl rfl rfl
          have hframes : t.readFrames aead i (some bytes) =
              (peerFrames aead t.key (p.received bytes).frameBuf.length
                (p.received bytes).frameBuf).1 := by
            unfold readFrames
            rw [hp]
          rw [hframes] at hnamed
          unfold processPeerFrames
          split
          · exact ⟨hread, fun _ hc => absurd hc List.not_mem_nil⟩
          · next q hq =>
            have hlt : i < t.peers.length := (List.getElem?_eq_some_iff.mp hp).1
            have heq : q = p.received bytes := by
              rw [setPeer, List.getElem?_set_self hlt] at hq
              exact (Option.some.inj hq).symm
            subst heq
            obtain ⟨hact, hcalls⟩ := actOnFrames_progress hash
              (hnamed.after hread fun f hf => hf) hlost
            exact ⟨(hread.trans hact).trans (shiftBuffer_progress _),
              fun c hc => (hcalls c hc).after hread⟩

end Frames

/-! ### Every history -/

/-- Every event keeps the bindings, or is the reading of one slot or a failed write. -/
theorem step_cases (aead : Aead) (hash : Hash) (t : PeerTable) (e : PeerEvent) :
    (SameBindings t (t.step aead hash e).1 ∧ (t.step aead hash e).2 = []) ∨
      (∃ i got failed, e = .read i got failed ∧
        ∀ named, Names i (t.readFrames aead i got) named t →
          Progress i named (fun x => ∃ l ∈ failed, x ∈ l) t (t.step aead hash e).1 ∧
          ∀ c ∈ (t.step aead hash e).2, Made i named (fun x => ∃ l ∈ failed, x ∈ l) t c) ∨
      ∃ dst, e = .sendFailed dst ∧ (t.step aead hash e).2 = [] ∧ ∀ named,
        Progress t.peers.length named (fun x => x = dst) t (t.step aead hash e).1 := by
  cases e with
  | poll => exact .inl ⟨⟨rfl, rfl, fun _ _ => Iff.rfl⟩, rfl⟩
  | accept => exact .inl ⟨placePeer_same rfl, rfl⟩
  | complete outcomes => exact .inl ⟨completePeerConnections_same _ _, rfl⟩
  | read i got failed =>
    refine .inr (.inl ⟨i, got, failed, rfl, fun named hnamed => ?_⟩)
    exact readPeer_progress hnamed fun l hl x hx => ⟨l, hl, hx⟩
  | retry outcomes results => exact .inl ⟨retryPeerConnections_same _ _ _, rfl⟩
  | connect target result => exact .inl ⟨connectToPeer_same _ _, rfl⟩
  | sendFailed dst => exact .inr (.inr ⟨dst, rfl, rfl, fun _ => sendFailed_progress rfl⟩)

theorem names_any {i : ℕ} {frames : List PeerFrame} : Names i frames (fun _ => True) t :=
  fun _ _ _ _ _ => trivial

/-- What holds of a step whatever it is. -/
structure Stepped (t t' : PeerTable) : Prop where
  me : t'.replicaId = t.replicaId
  count : t'.replicaCount = t.replicaCount
  sound : t.Sound → t'.Sound
  kept : ∀ {i x}, t.Bound i x → t'.Bound i x ∨ ¬ t'.Connected i

theorem step_stepped (t : PeerTable) (e : PeerEvent) : Stepped t (t.step aead hash e).1 := by
  rcases step_cases aead hash t e with ⟨h, -⟩ | ⟨_, _, _, -, h⟩ | ⟨_, -, -, h⟩
  · exact ⟨h.me, h.count, h.sound, fun {i x} hb => .inl ((h.bound i x).mpr hb)⟩
  · obtain ⟨h, -⟩ := h _ names_any
    exact ⟨h.me, h.count, h.sound, h.kept⟩
  · have h := h fun _ => True
    exact ⟨h.me, h.count, h.sound, h.kept⟩

theorem run_sound (events : List PeerEvent) (hs : t.Sound) : (t.run aead hash events).Sound := by
  induction events generalizing t with
  | nil => exact hs
  | cons e events ih => exact ih ((step_stepped t e).sound hs)

theorem run_count (events : List PeerEvent) :
    (t.run aead hash events).replicaCount = t.replicaCount := by
  induction events generalizing t with
  | nil => rfl
  | cons e events ih => exact (ih (t := (t.step aead hash e).1)).trans (step_stepped t e).count

theorem start_sound (replicaId replicaCount : ℕ) (key : Option Key) :
    ({ replicaId, replicaCount, key } : PeerTable).Sound where
  once := by
    rintro i j x ⟨p, hp, -⟩
    cases hp
  member := by
    rintro i x ⟨p, hp, -⟩
    cases hp

end PeerTable

/-- Identities of peers are bound once, over every history of the sockets. A read of slot `i` leaves
every other bound socket open, except where a write to its replica fails. -/
theorem peer_identity_bound_once (aead : Aead) (hash : Hash) (replicaId replicaCount : ℕ)
    (key : Option Key) (events : List PeerEvent) (e : PeerEvent) :
    let t := PeerTable.run aead hash { replicaId, replicaCount, key } events
    let t' := (t.step aead hash e).1
    let calls := (t.step aead hash e).2
    (∀ i j x, t.Bound i x → t.Bound j x → i = j) ∧
      (∀ i x, t.Bound i x → x < replicaCount) ∧
      (∀ i x, t.Bound i x → t'.Bound i x ∨ ¬ t'.Connected i) ∧
      (∀ i got failed, e = .read i got failed → ∀ j x, j ≠ i → t.Bound j x →
        (∀ l ∈ failed, x ∉ l) → t'.Bound j x) ∧
      ∀ c ∈ calls, (∃ got failed, e = .read c.slot got failed) ∧ c.table.Bound c.slot c.src ∧
        c.src < replicaCount ∧ ∀ i j x, c.table.Bound i x → c.table.Bound j x → i = j := by
  intro t t' calls
  have hs : t.Sound := PeerTable.run_sound events (PeerTable.start_sound _ _ _)
  have hcount : t.replicaCount = replicaCount := PeerTable.run_count events
  have hstep := PeerTable.step_cases aead hash t e
  refine ⟨fun i j x => hs.once, fun i x h => hcount ▸ hs.member h,
    fun i x => (PeerTable.step_stepped t e).kept, ?_, ?_⟩
  · rintro i got failed he j x hne hbound hfailed
    rcases hstep with ⟨hsame, -⟩ | ⟨_, _, _, he', hread⟩ | ⟨_, he', -⟩
    · exact (hsame.bound j x).mpr hbound
    · rw [he] at he'
      cases he'
      exact (hread _ PeerTable.names_any).1.spared hne hbound fun ⟨l, hl, hx⟩ => hfailed l hl hx
    · rw [he] at he'
      cases he'
  · intro c (hc : c ∈ (t.step aead hash e).2)
    rcases hstep with ⟨-, hnil⟩ | ⟨i, got, failed, he, hread⟩ | ⟨_, -, hnil, -⟩
    · rw [hnil] at hc
      exact absurd hc List.not_mem_nil
    · obtain ⟨rfl, hbound, -, hprogress⟩ := (hread _ PeerTable.names_any).2 c hc
      have hs' := hprogress.sound hs
      refine ⟨⟨got, failed, he⟩, hbound, ?_, fun i j x => hs'.once⟩
      exact (hprogress.count.trans hcount) ▸ hs'.member hbound
    · rw [hnil] at hc
      exact absurd hc List.not_mem_nil

end Hivemind
