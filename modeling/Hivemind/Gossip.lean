import Hivemind.Framing
import Hivemind.Capacity

/-! Gossip between clusters: `gossip.zig`. A cluster sends a datagram with what its nodes have left
to its peers, and each keeps the last one of every origin in a cache of sixteen entries. -/
namespace Hivemind

open Codec Scan
open StateMachine (getElem?_of_findIdx?)

/-! ### What a datagram says -/

structure OriginIdentity where
  originId : Bytes 32 := zeroes 32
  provider : Bytes 32 := zeroes 32
  region : Bytes 32 := zeroes 32
  locality : Bytes 32 := zeroes 32
  continent : Bytes 32 := zeroes 32
  deriving DecidableEq

/-- What `buildSnapshot` computes. The datagram also has a time stamp, which no receiver reads. -/
structure GossipSnapshot extends OriginIdentity where
  gpuAvailable : List ℕ := List.replicate 9 0
  gpuTotal : List ℕ := List.replicate 9 0
  cpuAvailableMillicores : ℕ := 0
  cpuTotalMillicores : ℕ := 0
  queueDepth : ℕ := 0
  activeDeployments : ℕ := 0
  runningPods : ℕ := 0
  nodeCount : ℕ := 0
  deriving DecidableEq

structure PeerCapacity extends GossipSnapshot where
  lastSeenMs : ℤ := 0
  deriving DecidableEq

structure GossipPeer where
  originId : Bytes 32 := zeroes 32
  host : ℕ := 0
  port : ℕ := 0
  active : Bool := false

def gossipMagic : ℕ := 0x48564750
def gossipMagicEnc : ℕ := 0x48564745
def broadcastIntervalMs : ℤ := 5000
def maxGossipPeers : ℕ := 16
def gossipMessageSize : ℕ := 232
def u16Max : ℕ := 2 ^ 16 - 1

def gpuTypes : List GpuType :=
  [.none, .a100_40, .a100_80, .h100_sxm, .h100_pcie, .h200, .l40s, .a10g, .t4]

/-- `encryption` is the key if encryption is set up and enabled. -/
structure GossipState where
  identity : OriginIdentity
  peers : List GossipPeer := []
  cache : List PeerCapacity := List.replicate maxGossipPeers {}
  lastBroadcastMs : ℤ := 0
  encryption : Option Key := none

/-! ### Sending -/

/-- One node in the loop over the nodes, for one type of GPU: what is available and the total. A
sum that is no `u16` stops the process. -/
def addGpus (gpuType : GpuType) : ℕ × ℕ → Node → Option (ℕ × ℕ)
  | (available, total), node =>
    if !node.active then some (available, total)
    else if node.gpuType == gpuType && decide (node.gpuCount > 0) then
      if total + node.gpuCount > u16Max ∨ available + node.allocatableGpu > u16Max then none
      else some (available + node.allocatableGpu, total + node.gpuCount)
    else some (available, total)

def gpuCapacity (nodes : List Node) (gpuType : GpuType) : Option (ℕ × ℕ) :=
  nodes.foldlM (addGpus gpuType) (0, 0)

/-- The loop over the nodes for the CPU: available, total; both wrap around. -/
def cpuCapacity (nodes : List Node) : ℕ × ℕ :=
  nodes.foldl (fun sums node =>
    if !node.active then sums
    else ((sums.1 + node.allocatableCpu) % 2 ^ 32, (sums.2 + node.cpuMillicores) % 2 ^ 32)) (0, 0)

/-- The values `buildSnapshot` writes. -/
def buildSnapshot (identity : OriginIdentity) (sm : StateMachine) : Option GossipSnapshot :=
  match gpuTypes.mapM (gpuCapacity sm.nodes) with
  | none => none
  | some gpus => some
    { identity with
      gpuAvailable := gpus.map Prod.fst
      gpuTotal := gpus.map Prod.snd
      cpuAvailableMillicores := (cpuCapacity sm.nodes).1
      cpuTotalMillicores := (cpuCapacity sm.nodes).2
      queueDepth := sm.pods.length
      activeDeployments := sm.deployments.length
      runningPods := sm.pods.countP fun p => p.active && p.phase == .running
      nodeCount := sm.nodes.length }

/-- The bytes of the message behind the magic number. -/
def GossipSnapshot.fields (m : GossipSnapshot) : List (List UInt8) :=
  [m.originId.toList, m.provider.toList, m.region.toList, m.locality.toList, m.continent.toList] ++
    (m.gpuAvailable.zip m.gpuTotal).map (fun g => [le 2 g.1, le 2 g.2].flatten) ++
    [le 4 m.cpuAvailableMillicores, le 4 m.cpuTotalMillicores, le 4 m.queueDepth,
      le 4 m.activeDeployments, le 4 m.runningPods, le 4 m.nodeCount]

def GossipSnapshot.message (m : GossipSnapshot) (now : ℤ) : List UInt8 :=
  le 4 gossipMagic ++ (m.fields.flatten ++ leInt 8 now)

namespace GossipState

variable (aead : Aead) (g : GossipState)

/-- What `broadcast` puts into `send_buf`, which has room for an encrypted message. -/
def datagram (sm : StateMachine) (now : ℤ) (nonce : Nonce) : Option (List UInt8) :=
  match buildSnapshot g.identity sm with
  | none => none
  | some m =>
    match g.encryption with
    | none => some (m.message now)
    | some key =>
      let magic := le 4 gossipMagicEnc
      match encryptFrame aead key nonce (m.message now) magic (24 + gossipMessageSize + 16) with
      | none => some magic
      | some encrypted => some (magic ++ encrypted)

/-- The datagrams of `broadcast` with the host and the port they go to. -/
def broadcast (sm : StateMachine) (now : ℤ) (nonce : Nonce) : Option (List (ℕ × ℕ × List UInt8)) :=
  (g.datagram aead sm now nonce).map fun bytes =>
    (g.peers.filter (·.active)).map fun peer => (peer.host, peer.port, bytes)

/-! ### Receiving -/

def scanGpus : Scan DecodeError (ℕ × ℕ) := do
  let available ← field (uint 2)
  let total ← field (uint 2)
  pure (available, total)

def scanSnapshot : Scan DecodeError GossipSnapshot := do
  let originId ← field (bytes 32)
  let provider ← field (bytes 32)
  let region ← field (bytes 32)
  let locality ← field (bytes 32)
  let continent ← field (bytes 32)
  let gpus ← times scanGpus 9
  let cpuAvailable ← field (uint 4)
  let cpuTotal ← field (uint 4)
  let queueDepth ← field (uint 4)
  let activeDeployments ← field (uint 4)
  let runningPods ← field (uint 4)
  let nodeCount ← field (uint 4)
  pure ⟨⟨originId, provider, region, locality, continent⟩, gpus.map Prod.fst, gpus.map Prod.snd,
    cpuAvailable, cpuTotal, queueDepth, activeDeployments, runningPods, nodeCount⟩

/-- The entry of the origin, otherwise the first one that was never used. -/
def findEntry (originId : Bytes 32) : Option ℕ :=
  match g.cache.findIdx? (fun c => c.originId == originId) with
  | some i => some i
  | none => g.cache.findIdx? fun c => c.lastSeenMs == 0

/-- `handleMessage`; reading past the end of the data stops the process. -/
def handleMessage (data : List UInt8) (now : ℤ) : Option GossipState :=
  if ofLe (data.take 4) ≠ gossipMagic then some g
  else match scanSnapshot.value (data.drop 4) with
    | .error _ => none
    | .ok m =>
      match g.findEntry m.originId with
      | none => some g
      | some i => some { g with cache := g.cache.set i { m with lastSeenMs := now } }

/-- The length of the buffer `receive` gives to `recvfrom`, which drops the rest of a datagram. -/
def receiveBufferLen : ℕ := 256

/-- One datagram in the loop of `receive`. -/
def receiveDatagram (now : ℤ) (datagram : List UInt8) : Option GossipState :=
  let buf := datagram.take receiveBufferLen
  if buf.length < 4 then some g
  else if ofLe (buf.take 4) = gossipMagicEnc then
    match g.encryption with
    | none => some g
    | some key =>
      match decryptFrame aead key (buf.drop 4) (buf.take 4) gossipMessageSize with
      | .error _ => some g
      | .ok plaintext =>
        if plaintext.length < gossipMessageSize then some g else g.handleMessage plaintext now
  else if ofLe (buf.take 4) = gossipMagic then
    if buf.length < gossipMessageSize then some g else g.handleMessage buf now
  else some g

/-- `receive`: the datagrams that wait, and those that wait still. An empty datagram ends the
loop. -/
def receive (now : ℤ) : List (List UInt8) → GossipState → Option (GossipState × List (List UInt8))
  | [], g => some (g, [])
  | d :: rest, g =>
    if d.length = 0 then some (g, rest)
    else match g.receiveDatagram aead now d with
      | none => none
      | some g => receive now rest g

/-- `tick`: what is sent, and what waits still. -/
def tick (sm : StateMachine) (now : ℤ) (nonce : Nonce) (waiting : List (List UInt8)) :
    Option (GossipState × List (ℕ × ℕ × List UInt8) × List (List UInt8)) :=
  match receive aead now waiting g with
  | none => none
  | some (g, rest) =>
    if now - g.lastBroadcastMs ≥ broadcastIntervalMs then
      match g.broadcast aead sm now nonce with
      | none => none
      | some sends => some ({ g with lastBroadcastMs := now }, sends, rest)
    else some (g, [], rest)

def addPeer (originId : List UInt8) (host port : ℕ) : GossipState :=
  if g.peers.length ≥ maxGossipPeers then g
  else { g with peers := g.peers ++ [⟨strToFixed 32 originId, host, port, true⟩] }

/-! ### The cache -/

/-- The calls of the main loop, with clock readings that are positive. -/
inductive Step : GossipState → GossipState → Prop where
  | tick {g g' : GossipState} {sm : StateMachine} {now : ℤ} {nonce : Nonce}
      {waiting rest : List (List UInt8)} {sends : List (ℕ × ℕ × List UInt8)} (hnow : 0 < now)
      (h : g.tick aead sm now nonce waiting = some (g', sends, rest)) : Step g g'
  | receiveOnly {g g' : GossipState} {now : ℤ} {waiting rest : List (List UInt8)} (hnow : 0 < now)
      (h : receive aead now waiting g = some (g', rest)) : Step g g'
  | addPeer {g : GossipState} {originId : List UInt8} {host port : ℕ} :
      Step g (g.addPeer originId host port)

/-- What calls of the main loop lead to from the start. -/
def Reached (g : GossipState) : Prop :=
  ∃ identity encryption, Relation.ReflTransGen (Step aead) { identity, encryption } g

end GossipState

namespace GossipState

variable {aead : Aead} {g g' : GossipState}

/-- An entry that was never used is blank, and two entries never are of one origin. -/
structure Sound (cache : List PeerCapacity) : Prop where
  blank : ∀ c ∈ cache, c.lastSeenMs = 0 → c.originId = zeroes 32
  apart : ∀ (i j : ℕ) (a b : PeerCapacity), cache[i]? = some a → cache[j]? = some b → a.originId = b.originId → a.originId ≠ zeroes 32 → i = j

theorem findEntry_spec {originId : Bytes 32} {i : ℕ} (h : g.findEntry originId = some i) :
    ∃ c, g.cache[i]? = some c ∧ (c.originId = originId ∨
      c.lastSeenMs = 0 ∧ ∀ c' ∈ g.cache, c'.originId ≠ originId) := by
  unfold findEntry at h
  split at h
  · next hidx =>
    cases h
    obtain ⟨c, hc, hid⟩ := getElem?_of_findIdx? hidx
    exact ⟨c, hc, .inl (beq_iff_eq.mp hid)⟩
  · next hnone =>
    obtain ⟨c, hc, hfree⟩ := getElem?_of_findIdx? h
    refine ⟨c, hc, .inr ⟨beq_iff_eq.mp hfree, ?_⟩⟩
    intro c' hc' hid
    have hno := List.findIdx?_eq_none_iff.mp hnone c' hc'
    rw [hid, beq_self_eq_true] at hno
    cases hno

theorem Sound.set {cache : List PeerCapacity} {i : ℕ} {c : PeerCapacity} {m : GossipSnapshot}
    {now : ℤ} (h : Sound cache) (hnow : 0 < now) (hc : cache[i]? = some c)
    (hfound : c.originId = m.originId ∨
      c.lastSeenMs = 0 ∧ ∀ c' ∈ cache, c'.originId ≠ m.originId) :
    Sound (cache.set i { m with lastSeenMs := now }) := by
  have hlt := (List.getElem?_eq_some_iff.mp hc).1
  -- no other entry is of this origin
  have halone : ∀ j a, j ≠ i → cache[j]? = some a → a.originId = m.originId →
      m.originId = zeroes 32 := by
    intro j a hne ha hid
    by_contra hzero
    rcases hfound with hsame | ⟨-, hno⟩
    · exact hne (h.apart j i a c ha hc (hid.trans hsame.symm) (hid ▸ hzero))
    · exact hno a (List.mem_of_getElem? ha) hid
  constructor
  · intro a ha hfree
    rcases List.mem_or_eq_of_mem_set ha with ha | rfl
    · exact h.blank a ha hfree
    · have hzero : now = 0 := hfree
      omega
  · intro j k a b ha hb hid hzero
    by_contra hjk
    by_cases hj : j = i
    · subst hj
      rw [List.getElem?_set_self hlt] at ha
      rw [List.getElem?_set_ne hjk] at hb
      cases ha
      exact hzero (halone k b (Ne.symm hjk) hb hid.symm)
    · rw [List.getElem?_set_ne (Ne.symm hj)] at ha
      by_cases hk : k = i
      · subst hk
        rw [List.getElem?_set_self hlt] at hb
        cases hb
        exact hzero (hid.trans (halone j a hj ha hid))
      · rw [List.getElem?_set_ne (Ne.symm hk)] at hb
        exact hjk (h.apart j k a b ha hb hid hzero)

theorem handleMessage_sound {data : List UInt8} {now : ℤ} (hnow : 0 < now) (hs : Sound g.cache)
    (h : g.handleMessage data now = some g') : Sound g'.cache := by
  unfold handleMessage at h
  split at h
  · cases h
    exact hs
  split at h
  · cases h
  split at h
  · cases h
    exact hs
  · next hfound =>
    cases h
    obtain ⟨c, hc, hwhich⟩ := findEntry_spec hfound
    exact hs.set hnow hc hwhich

theorem receiveDatagram_sound {d : List UInt8} {now : ℤ} (hnow : 0 < now) (hs : Sound g.cache)
    (h : g.receiveDatagram aead now d = some g') : Sound g'.cache := by
  unfold receiveDatagram at h
  dsimp only at h
  split at h
  · cases h
    exact hs
  split at h
  · split at h
    · cases h
      exact hs
    split at h
    · cases h
      exact hs
    split at h
    · cases h
      exact hs
    · exact handleMessage_sound hnow hs h
  split at h
  · split at h
    · cases h
      exact hs
    · exact handleMessage_sound hnow hs h
  · cases h
    exact hs

theorem receive_sound {now : ℤ} (hnow : 0 < now) {waiting rest : List (List UInt8)}
    (hs : Sound g.cache) (h : receive aead now waiting g = some (g', rest)) : Sound g'.cache := by
  induction waiting generalizing g with
  | nil =>
    cases h
    exact hs
  | cons d waiting ih =>
    rw [receive] at h
    split at h
    · cases h
      exact hs
    split at h
    · cases h
    · next hd => exact ih (receiveDatagram_sound hnow hs hd) h

theorem Step.sound (h : Step aead g g') (hs : Sound g.cache) : Sound g'.cache := by
  cases h with
  | tick hnow h =>
    unfold GossipState.tick at h
    split at h
    · cases h
    next hreceive =>
    have hsound := receive_sound hnow hs hreceive
    split at h
    · split at h
      · cases h
      · cases h
        exact hsound
    · cases h
      exact hsound
  | receiveOnly hnow h => exact receive_sound hnow hs h
  | addPeer =>
    unfold GossipState.addPeer
    split
    · exact hs
    · exact hs

theorem Reached.sound (h : g.Reached aead) : Sound g.cache := by
  obtain ⟨identity, encryption, hrun⟩ := h
  induction hrun with
  | refl =>
    constructor
    · intro c hc _
      rw [List.eq_of_mem_replicate hc]
    · intro i j a b ha hb _ hzero
      rw [List.eq_of_mem_replicate (List.mem_of_getElem? ha)] at hzero
      exact absurd rfl hzero
  | tail _ hstep ih => exact hstep.sound ih

end GossipState

/-! ### A datagram is read as it was written -/

/-- The values are of the types of their fields. -/
structure GossipSnapshot.Typed (m : GossipSnapshot) : Prop where
  types : m.gpuAvailable.length = 9 ∧ m.gpuTotal.length = 9
  available : ∀ v ∈ m.gpuAvailable, v < 2 ^ 16
  total : ∀ v ∈ m.gpuTotal, v < 2 ^ 16
  cpuAvailable : m.cpuAvailableMillicores < 2 ^ 32
  cpuTotal : m.cpuTotalMillicores < 2 ^ 32
  queue : m.queueDepth < 2 ^ 32
  deployments : m.activeDeployments < 2 ^ 32
  running : m.runningPods < 2 ^ 32
  nodes : m.nodeCount < 2 ^ 32

theorem foldlM_addGpus {gpuType : GpuType} {nodes : List Node} {available total k : ℕ}
    (hnodes : ∀ n ∈ nodes, n.Typed) (hroom : k + nodes.length ≤ 128)
    (havailable : available ≤ 255 * k) (htotal : total ≤ 255 * k) :
    ∃ sums, nodes.foldlM (addGpus gpuType) (available, total) = some sums ∧
      sums.1 < 2 ^ 16 ∧ sums.2 < 2 ^ 16 := by
  induction nodes generalizing available total k with
  | nil =>
    exact ⟨_, rfl, show available < _ by omega, show total < _ by omega⟩
  | cons n nodes ih =>
    have hn := hnodes n List.mem_cons_self
    have hgpu := hn.gpu
    have hfree := hn.freeGpu
    rw [List.length_cons] at hroom
    have hrest : ∀ {a t : ℕ}, a ≤ 255 * (k + 1) → t ≤ 255 * (k + 1) →
        ∃ sums, nodes.foldlM (addGpus gpuType) (a, t) = some sums ∧
          sums.1 < 2 ^ 16 ∧ sums.2 < 2 ^ 16 :=
      fun ha ht => ih (fun n hn => hnodes n (List.mem_cons_of_mem _ hn)) (by omega) ha ht
    rw [List.foldlM_cons, addGpus]
    split
    · exact hrest (by omega) (by omega)
    split
    · have hfits : ¬ (total + n.gpuCount > u16Max ∨ available + n.allocatableGpu > u16Max) := by
        rw [u16Max]
        omega
      rw [if_neg hfits]
      exact hrest (by omega) (by omega)
    · exact hrest (by omega) (by omega)

theorem exists_mapM {α β : Type} {f : α → Option β} {P : β → Prop} {as : List α}
    (h : ∀ a ∈ as, ∃ b, f a = some b ∧ P b) :
    ∃ bs, as.mapM f = some bs ∧ bs.length = as.length ∧ ∀ b ∈ bs, P b := by
  induction as with
  | nil => exact ⟨[], rfl, rfl, nofun⟩
  | cons a as ih =>
    obtain ⟨b, hb, hP⟩ := h a List.mem_cons_self
    obtain ⟨bs, hbs, hlen, hall⟩ := ih fun a ha => h a (List.mem_cons_of_mem _ ha)
    refine ⟨b :: bs, ?_, congrArg (· + 1) hlen, List.forall_mem_cons.mpr ⟨hP, hall⟩⟩
    rw [List.mapM_cons, hb, hbs]
    rfl

theorem cpuCapacity_lt (nodes : List Node) :
    (cpuCapacity nodes).1 < 2 ^ 32 ∧ (cpuCapacity nodes).2 < 2 ^ 32 := by
  unfold cpuCapacity
  induction nodes using List.reverseRecOn with
  | nil => decide
  | append_singleton nodes n ih =>
    rw [List.foldl_append, List.foldl_cons, List.foldl_nil]
    split
    · exact ih
    · exact ⟨Nat.mod_lt _ (by decide), Nat.mod_lt _ (by decide)⟩

theorem buildSnapshot_typed (identity : OriginIdentity) {sm : StateMachine} (hroom : sm.Roomy)
    (hnodes : ∀ n ∈ sm.nodes, n.Typed) :
    ∃ m, buildSnapshot identity sm = some m ∧ m.Typed ∧ m.toOriginIdentity = identity := by
  have hsums : ∀ gpuType ∈ gpuTypes, ∃ sums, gpuCapacity sm.nodes gpuType = some sums ∧
      sums.1 < 2 ^ 16 ∧ sums.2 < 2 ^ 16 := by
    intro gpuType _
    exact foldlM_addGpus hnodes ((Nat.zero_add _).trans_le hroom.nodes) le_rfl le_rfl
  obtain ⟨gpus, hgpus, hlen, hall⟩ := exists_mapM hsums
  have hpods : sm.pods.length ≤ 512 := hroom.pods
  have hdeployments : sm.deployments.length ≤ 64 := hroom.deployments
  have htable : sm.nodes.length ≤ 128 := hroom.nodes
  have hrunning : sm.pods.countP (fun p => p.active && p.phase == .running) ≤ sm.pods.length :=
    List.countP_le_length
  have hcpu := cpuCapacity_lt sm.nodes
  have hloop : gpuTypes.mapM (gpuCapacity sm.nodes) = some gpus := hgpus
  refine ⟨_, by rw [buildSnapshot, hloop], ?_, rfl⟩
  constructor
  · exact ⟨(List.length_map _).trans hlen, (List.length_map _).trans hlen⟩
  · exact List.forall_mem_map.mpr fun g hg => (hall g hg).1
  · exact List.forall_mem_map.mpr fun g hg => (hall g hg).2
  · exact hcpu.1
  · exact hcpu.2
  · show sm.pods.length < 2 ^ 32
    omega
  · show sm.deployments.length < 2 ^ 32
    omega
  · show sm.pods.countP (fun p => p.active && p.phase == .running) < 2 ^ 32
    omega
  · show sm.nodes.length < 2 ^ 32
    omega

namespace GossipSnapshot

variable {m : GossipSnapshot}

theorem length_zip (hm : m.Typed) : (m.gpuAvailable.zip m.gpuTotal).length = 9 := by
  rw [List.length_zip, hm.types.1, hm.types.2]
  rfl

theorem reads_fields (hm : m.Typed) : Reads GossipState.scanSnapshot m.fields m := by
  have hloop : Reads (times GossipState.scanGpus 9)
      ((m.gpuAvailable.zip m.gpuTotal).map fun g => [le 2 g.1, le 2 g.2].flatten)
      (m.gpuAvailable.zip m.gpuTotal) := by
    rw [← length_zip hm]
    apply Reads.times
    rw [List.forall₂_same]
    intro g hg
    obtain ⟨havailable, htotal⟩ := List.of_mem_zip hg
    apply Reads.join
    apply (reads_uint (hm.available _ havailable)).bind
    apply (reads_uint (hm.total _ htotal)).bind
    exact .nothing _
  have hfst : (m.gpuAvailable.zip m.gpuTotal).map Prod.fst = m.gpuAvailable :=
    List.map_fst_zip (by rw [hm.types.1, hm.types.2])
  have hsnd : (m.gpuAvailable.zip m.gpuTotal).map Prod.snd = m.gpuTotal :=
    List.map_snd_zip (by rw [hm.types.1, hm.types.2])
  apply (reads_bytes _).bind
  apply (reads_bytes _).bind
  apply (reads_bytes _).bind
  apply (reads_bytes _).bind
  apply (reads_bytes _).bind
  apply hloop.append
  rw [hfst, hsnd]
  apply (reads_uint hm.cpuAvailable).bind
  apply (reads_uint hm.cpuTotal).bind
  apply (reads_uint hm.queue).bind
  apply (reads_uint hm.deployments).bind
  apply (reads_uint hm.running).bind
  apply (reads_uint hm.nodes).bind
  exact .nothing _

theorem length_message (hm : m.Typed) (now : ℤ) : (m.message now).length = 232 := by
  have hgpus : ((m.gpuAvailable.zip m.gpuTotal).map
      fun g => [le 2 g.1, le 2 g.2].flatten).flatten.length = 36 := by
    rw [List.length_flatten, List.map_map]
    have hfour : ∀ g : ℕ × ℕ, (List.length ∘ fun g : ℕ × ℕ => [le 2 g.1, le 2 g.2].flatten) g = 4 := by
      intro g
      simp
    rw [List.map_congr_left fun g _ => hfour g, List.map_const', length_zip hm]
    rfl
  rw [message, fields, List.flatten_append, List.flatten_append, List.length_append,
    List.length_append, List.length_append, List.length_append, hgpus]
  simp [leInt]

end GossipSnapshot

namespace GossipState

variable {aead : Aead} {g : GossipState} {m : GossipSnapshot}

/-- The cache has one entry of the origin, and it has the values of the snapshot. -/
def Holds (m : GossipSnapshot) (cache : List PeerCapacity) : Prop :=
  ∃ (i : ℕ) (e : PeerCapacity), cache[i]? = some e ∧ e.toGossipSnapshot = m ∧
    ∀ (j : ℕ) (c : PeerCapacity), cache[j]? = some c → c.originId = m.originId → j = i

/-- The entries of the other origins are as they were. -/
def Spares (m : GossipSnapshot) (cache cache' : List PeerCapacity) : Prop :=
  ∀ (j : ℕ) (c : PeerCapacity), c.originId ≠ m.originId → c.lastSeenMs ≠ 0 →
    (cache'[j]? = some c ↔ cache[j]? = some c)

theorem exists_findEntry {originId : Bytes 32}
    (h : ∃ c ∈ g.cache, c.originId = originId ∨ c.lastSeenMs = 0) :
    ∃ i, g.findEntry originId = some i := by
  obtain ⟨c, hc, hwhich⟩ := h
  unfold findEntry
  split
  · exact ⟨_, rfl⟩
  · next hnone =>
    rcases hwhich with hid | hfree
    · have hno := List.findIdx?_eq_none_iff.mp hnone c hc
      rw [hid, beq_self_eq_true] at hno
      cases hno
    · apply Option.isSome_iff_exists.mp
      rw [List.findIdx?_isSome, List.any_eq_true]
      exact ⟨c, hc, beq_iff_eq.mpr hfree⟩

theorem holds_set {i : ℕ} {now : ℤ} (hs : Sound g.cache) (hid : m.originId ≠ zeroes 32)
    (hfound : g.findEntry m.originId = some i) :
    Holds m (g.cache.set i { m with lastSeenMs := now }) ∧
      Spares m g.cache (g.cache.set i { m with lastSeenMs := now }) := by
  obtain ⟨c, hc, hwhich⟩ := findEntry_spec hfound
  have hlt := (List.getElem?_eq_some_iff.mp hc).1
  constructor
  · refine ⟨i, _, List.getElem?_set_self hlt, rfl, ?_⟩
    intro j a ha hsame
    by_contra hne
    rw [List.getElem?_set_ne (Ne.symm hne)] at ha
    rcases hwhich with horigin | ⟨-, hno⟩
    · exact hne (hs.apart j i a c ha hc (hsame.trans horigin.symm) (hsame ▸ hid))
    · exact hno a (List.mem_of_getElem? ha) hsame
  · intro j a hother hused
    by_cases hj : j = i
    · subst hj
      rw [List.getElem?_set_self hlt, hc]
      -- neither the old nor the new entry is one of another origin
      constructor
      · intro h
        cases h
        exact absurd rfl hother
      · intro h
        cases h
        rcases hwhich with horigin | ⟨hfree, -⟩
        · exact absurd horigin hother
        · exact absurd hfree hused
    · rw [List.getElem?_set_ne (Ne.symm hj)]

theorem handleMessage_message (hm : m.Typed) {now now' : ℤ} {i : ℕ}
    (hfound : g.findEntry m.originId = some i) :
    g.handleMessage (m.message now) now' =
      some { g with cache := g.cache.set i { m with lastSeenMs := now' } } := by
  have hmagic : ofLe ((m.message now).take 4) = gossipMagic := by
    rw [GossipSnapshot.message, List.take_left' (length_le 4 _), ofLe_le (by decide)]
  have hdrop : (m.message now).drop 4 = m.fields.flatten ++ leInt 8 now :=
    List.drop_left' (length_le 4 _)
  have hread : scanSnapshot.value (m.fields.flatten ++ leInt 8 now) = .ok m := by
    rw [Scan.value, GossipSnapshot.reads_fields hm]
  rw [handleMessage, if_neg (not_not.mpr hmagic), hdrop, hread]
  dsimp only
  rw [hfound]

theorem receive_plain (hm : m.Typed) {now now' : ℤ} :
    receive aead now' [m.message now] g =
      (g.handleMessage (m.message now) now').map fun g => (g, []) := by
  have hlen := GossipSnapshot.length_message hm now
  have hbuf : receiveBufferLen = 256 := rfl
  have hsize : gossipMessageSize = 232 := rfl
  have hwhole : (m.message now).take receiveBufferLen = m.message now :=
    List.take_of_length_le (by omega)
  have hmagic : ofLe ((m.message now).take 4) = gossipMagic := by
    rw [GossipSnapshot.message, List.take_left' (length_le 4 _), ofLe_le (by decide)]
  rw [receive, if_neg (by omega), receiveDatagram, hwhole, if_neg (by omega), hmagic, if_neg (by decide), if_pos rfl, if_neg (by omega)]
  cases g.handleMessage (m.message now) now' with
  | none => rfl
  | some g' => rfl

theorem length_of_decryptFrame {key : Key} {data aad p : List UInt8} {outLen : ℕ}
    (h : decryptFrame aead key data aad outLen = .ok p) : p.length + 40 = data.length := by
  unfold decryptFrame at h
  split at h
  · cases h
  next hlong =>
  split at h
  · cases h
  split at h
  · cases h
  · next hdecrypt =>
    cases h
    have hcipher := congrArg List.length (aead.encrypt_of_decrypt _ _ _ _ _ hdecrypt)
    have hnonce : nonceLen = 24 := rfl
    rw [List.length_drop, aead.length_encrypt] at hcipher
    omega

/-- What is left of an encrypted datagram in the buffer is too short for a message, whatever it
decrypts to. -/
theorem receiveDatagram_encrypted {d : List UInt8} {now : ℤ} (hlong : 4 ≤ d.length)
    (hmagic : ofLe (d.take 4) = gossipMagicEnc) : g.receiveDatagram aead now d = some g := by
  have hfour : (d.take receiveBufferLen).take 4 = d.take 4 := by
    rw [List.take_take]
    rfl
  have hbuf : (d.take receiveBufferLen).length ≤ 256 := by
    rw [List.length_take]
    exact Nat.min_le_left _ _
  have hmin : ¬ (d.take receiveBufferLen).length < 4 := by
    rw [List.length_take, receiveBufferLen]
    omega
  rw [receiveDatagram, if_neg hmin, hfour, if_pos hmagic]
  split
  · rfl
  split
  · rfl
  · next hdecrypt =>
    have hlen := length_of_decryptFrame hdecrypt
    rw [List.length_drop] at hlen
    rw [if_pos]
    rw [gossipMessageSize]
    omega

theorem receive_encrypted {rest bytes : List UInt8} {now : ℤ}
    (h : bytes = le 4 gossipMagicEnc ++ rest) :
    receive aead now [bytes] g = some (g, []) := by
  have hlen : bytes.length = 4 + rest.length := by
    rw [h, List.length_append, length_le]
  have hmagic : ofLe (bytes.take 4) = gossipMagicEnc := by
    rw [h, List.take_left' (length_le 4 _), ofLe_le (by decide)]
  rw [receive, if_neg (by omega), receiveDatagram_encrypted (by omega) hmagic]
  rfl

end GossipState

open GossipState in
/-- A datagram that is sent in plain arrives intact. An encrypted one is longer than the receiver's
buffer and changes nothing, whatever key the receiver has. -/
theorem gossip_arrives_plain (aead : Aead) (sender receiver : GossipState) (sm : StateMachine)
    (hroom : sm.Roomy) (hnodes : ∀ n ∈ sm.nodes, n.Typed)
    (hid : sender.identity.originId ≠ zeroes 32) (hreached : receiver.Reached aead)
    (now now' : ℤ) (nonce : Nonce) (hfree : ∃ c ∈ receiver.cache,
      c.originId = sender.identity.originId ∨ c.lastSeenMs = 0) :
    ∃ m bytes receiver', buildSnapshot sender.identity sm = some m ∧
      sender.broadcast aead sm now nonce =
        some ((sender.peers.filter (·.active)).map fun peer => (peer.host, peer.port, bytes)) ∧
      receive aead now' [bytes] receiver = some (receiver', []) ∧
      (Holds m receiver'.cache ∧ Spares m receiver.cache receiver'.cache ↔
        sender.encryption = none ∨ Holds m receiver.cache) := by
  obtain ⟨m, hbuild, hm, hsame⟩ := buildSnapshot_typed sender.identity hroom hnodes
  have horigin : m.originId = sender.identity.originId := congrArg OriginIdentity.originId hsame
  cases henc : sender.encryption with
  | none =>
    have hdatagram : sender.datagram aead sm now nonce = some (m.message now) := by
      rw [datagram, hbuild, henc]
    rw [← horigin] at hfree hid
    obtain ⟨i, hfound⟩ := exists_findEntry hfree
    refine ⟨m, m.message now, { receiver with
      cache := receiver.cache.set i { m with lastSeenMs := now' } }, hbuild, ?_, ?_, ?_⟩
    · rw [broadcast, hdatagram]
      rfl
    · rw [receive_plain hm, handleMessage_message hm hfound]
      rfl
    · exact iff_of_true (holds_set hreached.sound hid hfound) (.inl rfl)
  | some key =>
    obtain ⟨rest, hdatagram⟩ : ∃ rest, sender.datagram aead sm now nonce =
        some (le 4 gossipMagicEnc ++ rest) := by
      rw [datagram, hbuild, henc]
      dsimp only
      split
      · exact ⟨[], by rw [List.append_nil]⟩
      · exact ⟨_, rfl⟩
    refine ⟨m, le 4 gossipMagicEnc ++ rest, receiver, hbuild, ?_, receive_encrypted rfl, ?_⟩
    · rw [broadcast, hdatagram]
      rfl
    constructor
    · intro h
      exact .inr h.1
    · rintro (h | h)
      · cases h
      · exact ⟨h, fun _ _ _ _ => Iff.rfl⟩

/-- One node with two GPUs, and a receiver that has heard of nobody. -/
theorem gossip_arrives_plain_first :
    let sender : GossipState :=
      { identity := { originId := strToFixed 32 [97] }, peers := [⟨zeroes 32, 1, 9300, true⟩] }
    let receiver : GossipState := { identity := { originId := strToFixed 32 [98] } }
    let sm := (StateMachine.blank.handleRegisterNode { gpuType := .t4, gpuCount := 2 }).1
    ∃ m bytes receiver', buildSnapshot sender.identity sm = some m ∧
      sender.broadcast .bare sm 1 (zeroes 24) = some [(1, 9300, bytes)] ∧
      GossipState.receive .bare 2 [bytes] receiver = some (receiver', []) ∧
      GossipState.Holds m receiver'.cache := by
  intro sender receiver sm
  have hreached : receiver.Reached .bare := ⟨_, _, .refl⟩
  obtain ⟨m, bytes, receiver', hbuild, hsent, hreceived, hiff⟩ := gossip_arrives_plain .bare sender
    receiver sm (by constructor <;> decide) (by decide) (by decide) hreached 1 2 (zeroes 24)
    ⟨{}, List.mem_replicate.mpr ⟨by decide, rfl⟩, .inr rfl⟩
  exact ⟨m, bytes, receiver', hbuild, hsent, hreceived, (hiff.mpr (.inl rfl)).1⟩

/-- With a key that both have, the receiver's cache stays blank. -/
theorem encrypted_gossip_dropped :
    let key : Key := zeroes 32
    let sender : GossipState :=
      { identity := { originId := strToFixed 32 [97] }, encryption := some key
        peers := [⟨zeroes 32, 1, 9300, true⟩] }
    let receiver : GossipState :=
      { identity := { originId := strToFixed 32 [98] }, encryption := some key }
    let received := (sender.broadcast .bare StateMachine.blank 1 (zeroes 24)).bind fun sends =>
      GossipState.receive .bare 2 (sends.map (·.2.2)) receiver
    (received.map fun r => r.1.cache.any fun c => c.originId == strToFixed 32 [97]) =
      some false := by
  decide +kernel

end Hivemind
