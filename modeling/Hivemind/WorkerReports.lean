import Hivemind.WorkerWire
import Hivemind.Placement

/-! The reports of a worker: `encode_agent_message` of `protocol.rs` against the parsers of
`connection.zig`, and what a committed progress report does to the pod it is about. -/
namespace Hivemind

open Codec Scan

/-! ### The worker's side -/

namespace Agent

structure NodeRegisterMsg where
  nodeName : String
  cpuMillicores : ℕ
  memoryMegabytes : ℕ
  gpuType : GpuType
  gpuCount : ℕ
  deriving DecidableEq

structure NodeHeartbeatMsg where
  tick : ℕ
  activePods : ℕ
  gpuFree : ℕ
  deriving DecidableEq

inductive PodStatusReport where
  | imagePulling
  | creating
  | running
  | stopped (exitCode : Int32)
  | failed (reason : String)
  deriving DecidableEq

structure PodStatusEventMsg where
  podId : ℕ
  status : PodStatusReport
  deriving DecidableEq

structure RunResponseMsg where
  requestId : ℕ
  status : ℕ
  payload : List UInt8
  deriving DecidableEq

inductive WorkerMessage where
  | nodeRegister (m : NodeRegisterMsg)
  | nodeHeartbeat (m : NodeHeartbeatMsg)
  | podStatusEvent (m : PodStatusEventMsg)
  | runResponse (m : RunResponseMsg)
  deriving DecidableEq

/-- `fixed_payload_mut`: the first bytes of the buffer, cleared, and what is copied into them. -/
def fixedPayload (bufLen payloadLen : ℕ) (message : String) (pieces : List (List UInt8)) :
    Except WireError (List UInt8) :=
  if bufLen < payloadLen then .error (.writeZero (message ++ " buffer too small"))
  else .ok pieces.flatten

/-- Phase, exit code and message of a report. -/
def PodStatusReport.fields : PodStatusReport → ℕ × Int32 × String
  | .imagePulling => (0, 0, "pulling")
  | .creating => (1, 0, "creating")
  | .running => (2, 0, "running")
  | .stopped exitCode => (3, exitCode, "stopped")
  | .failed reason => (4, 1, reason)

def nodeRegisterPieces (m : NodeRegisterMsg) : List (List UInt8) :=
  [(strToFixed 64 (utf8 m.nodeName)).toList, le 4 m.cpuMillicores, le 4 m.memoryMegabytes,
    Wire.gpuType.write m.gpuType, le 1 m.gpuCount, (zeroes 32).toList, (zeroes 32).toList]

def nodeHeartbeatPieces (m : NodeHeartbeatMsg) : List (List UInt8) :=
  [le 8 m.tick, le 1 0, le 4 0, (zeroes 8).toList, le 2 m.activePods]

def podStatusEventPieces (m : PodStatusEventMsg) : List (List UInt8) :=
  let fields := m.status.fields
  [le 8 m.podId, le 1 0, le 1 fields.1, le 8 0, le 4 fields.2.1.toUInt32.toNat,
    (strToFixed 128 (utf8 fields.2.2)).toList]

def runStatusNotLeader : ℕ := 9
def runStatusResponseTooLarge : ℕ := 4

/-- The tag and the payload, or why there is none in a buffer of this size. -/
def encodeAgentMessage (msg : WorkerMessage) (bufLen : ℕ) : Except WireError (ℕ × List UInt8) :=
  match msg with
  | .nodeRegister m =>
    (fixedPayload bufLen nodeRegisterPayloadLen "NodeRegister" (nodeRegisterPieces m)).map (0x10, ·)
  | .nodeHeartbeat m =>
    (fixedPayload bufLen nodeHeartbeatPayloadLen "NodeHeartbeat" (nodeHeartbeatPieces m)).map
      (0x11, ·)
  | .podStatusEvent m =>
    (fixedPayload bufLen podStatusEventPayloadLen "PodStatusEvent" (podStatusEventPieces m)).map
      (0x12, ·)
  | .runResponse m =>
    if bufLen < 9 then .error (.writeZero "RunResponse buffer too small")
    else if m.status ≥ runStatusNotLeader then
      .error (.invalidData "worker RunResponse status must be in 0..=8")
    else if m.payload.length > maxRunResponseBody then
      .ok (0x13, [le 8 m.requestId, le 1 runStatusResponseTooLarge].flatten)
    else if m.payload.length > bufLen - 9 then .error (.writeZero "RunResponse buffer too small")
    else .ok (0x13, [le 8 m.requestId, le 1 m.status, m.payload].flatten)

end Agent

/-! ### The core's side -/

structure WorkerHeartbeatMsg where
  timestamp : ℕ := 0
  cpuUsagePct : ℕ := 0
  memoryUsedMb : ℕ := 0
  gpuUtilization : Bytes 8 := zeroes 8
  podsRunning : ℕ := 0
  deriving DecidableEq

/-- `WorkerPodStatusMsg` with the fields that nothing reads. -/
structure WorkerPodStatusReport extends WorkerPodStatusMsg where
  oldPhase : PodPhase := .pending
  timestamp : ℕ := 0
  exitCode : Int32 := 0
  message : Bytes 128 := zeroes 128

inductive RunStatus where
  | ok | deploymentNotFound | queueFull | invalidPayload | responseTooLarge | outcomeAmbiguous
  | forwardingFailed | noRunningPod | unavailable | notLeader
  deriving DecidableEq

def Wire.runStatus : Wire.Format RunStatus :=
  numbered .invalidEnumTag
    [.ok, .deploymentNotFound, .queueFull, .invalidPayload, .responseTooLarge, .outcomeAmbiguous,
      .forwardingFailed, .noRunningPod, .unavailable, .notLeader]
    (fun t => by cases t <;> decide) (by decide) (by decide)

/-- A payload of exactly this length; a value that is not known makes the parser return null. -/
def parseExact {α : Type} (len : ℕ) (s : Scan DecodeError α) (payload : List UInt8) : Option α :=
  if payload.length ≠ len then none else (s.value payload).toOption

def parseWorkerRegister : List UInt8 → Option WorkerRegisterMsg :=
  parseExact 138 do
    let hostname ← field (bytes 64)
    let cpuMillicores ← field Wire.u32
    let memoryMegabytes ← field Wire.u32
    let gpuType ← field Wire.gpuType
    let gpuCount ← field Wire.u8
    let provider ← field (bytes 32)
    let region ← field (bytes 32)
    pure { hostname, cpuMillicores, memoryMegabytes, gpuType, gpuCount, provider, region }

def parseWorkerHeartbeat : List UInt8 → Option WorkerHeartbeatMsg :=
  parseExact 23 do
    let timestamp ← field Wire.u64
    let cpuUsagePct ← field Wire.u8
    let memoryUsedMb ← field Wire.u32
    let gpuUtilization ← field (bytes 8)
    let podsRunning ← field Wire.u16
    pure { timestamp, cpuUsagePct, memoryUsedMb, gpuUtilization, podsRunning }

def parseWorkerPodStatus : List UInt8 → Option WorkerPodStatusReport :=
  parseExact 150 do
    let podId ← field Wire.u64
    let oldPhase ← field Wire.podPhase
    let newPhase ← field Wire.podPhase
    let timestamp ← field Wire.u64
    let exitCode ← field Wire.u32
    let message ← field (bytes 128)
    pure { podId, newPhase, oldPhase, timestamp, exitCode := (UInt32.ofNat exitCode).toInt32, message }

structure WorkerRunResponse where
  requestId : ℕ
  status : RunStatus
  body : List UInt8
  deriving DecidableEq

/-- The checks at the start of `handleRunResponse`; where they fail the worker is disconnected. -/
def parseRunResponse (payload : List UInt8) : Option WorkerRunResponse :=
  if payload.length < 9 then none
  else
    let header : Scan DecodeError (ℕ × RunStatus) := do
      let requestId ← field Wire.u64
      let status ← field Wire.runStatus
      pure (requestId, status)
    match header.run payload with
    | .error _ => none
    | .ok ((requestId, status), body) =>
      if status = .notLeader then none
      else if body.length > Agent.maxRunResponseBody then none
      else some { requestId, status, body }

/-- What `dispatchWorkerMessage` makes of a frame of a worker. -/
inductive WorkerInput where
  | register (m : WorkerRegisterMsg)
  | heartbeat (m : WorkerHeartbeatMsg)
  | podStatus (m : WorkerPodStatusReport)
  | runResponse (m : WorkerRunResponse)
  | disconnected
  | ignored

def dispatchWorkerMessage (tag : ℕ) (payload : List UInt8) : WorkerInput :=
  match tag with
  | 0x10 => ((parseWorkerRegister payload).map .register).getD .disconnected
  | 0x11 => ((parseWorkerHeartbeat payload).map .heartbeat).getD .disconnected
  | 0x12 => ((parseWorkerPodStatus payload).map .podStatus).getD .disconnected
  | 0x13 => ((parseRunResponse payload).map .runResponse).getD .disconnected
  | _ => .ignored

/-! ### What is written is what is read -/

namespace Agent

/-- The phase of the core that a report names. -/
def PodStatusReport.phase : PodStatusReport → PodPhase
  | .imagePulling => .pending
  | .creating => .scheduled
  | .running => .running
  | .stopped _ => .succeeded
  | .failed _ => .failed

def RunResponseMsg.runStatus (m : RunResponseMsg) : RunStatus :=
  match m.status with
  | 0 => .ok
  | 1 => .deploymentNotFound
  | 2 => .queueFull
  | 3 => .invalidPayload
  | 4 => .responseTooLarge
  | 5 => .outcomeAmbiguous
  | 6 => .forwardingFailed
  | 7 => .noRunningPod
  | _ => .unavailable

/-- What a message tells the core: every field that is transmitted. The response to a request that
is too large for a frame is an error without a body. -/
def WorkerMessage.meaning : WorkerMessage → WorkerInput
  | .nodeRegister m => .register
    { hostname := strToFixed 64 (utf8 m.nodeName), cpuMillicores := m.cpuMillicores,
      memoryMegabytes := m.memoryMegabytes, gpuType := m.gpuType, gpuCount := m.gpuCount }
  | .nodeHeartbeat m => .heartbeat { timestamp := m.tick, podsRunning := m.activePods }
  | .podStatusEvent m => .podStatus
    { podId := m.podId, newPhase := m.status.phase, exitCode := m.status.fields.2.1,
      message := strToFixed 128 (utf8 m.status.fields.2.2) }
  | .runResponse m => .runResponse
    (if m.payload.length > maxRunResponseBody then ⟨m.requestId, .responseTooLarge, []⟩
    else ⟨m.requestId, m.runStatus, m.payload⟩)

/-- The message is one of the source's types, its strings fit their fields, its pod count fits 16
bits, and it is not the run status that only the core may send. -/
def WorkerMessage.Fits : WorkerMessage → Prop
  | .nodeRegister m => (utf8 m.nodeName).length ≤ 64 ∧ m.cpuMillicores < 2 ^ 32 ∧
      m.memoryMegabytes < 2 ^ 32 ∧ m.gpuCount < 2 ^ 8
  | .nodeHeartbeat m => m.tick < 2 ^ 64 ∧ m.activePods < 2 ^ 16
  | .podStatusEvent m => m.podId < 2 ^ 64 ∧ (utf8 m.status.fields.2.2).length ≤ 128
  | .runResponse m => m.requestId < 2 ^ 64 ∧ m.status < runStatusNotLeader

theorem parseExact_flatten {α : Type} {len : ℕ} {s : Scan DecodeError α}
    {pieces : List (List UInt8)} {a : α} (hlen : pieces.flatten.length = len)
    (h : Reads s pieces a) : parseExact len s pieces.flatten = some a := by
  rw [parseExact, if_neg (not_not.mpr hlen), h.value]
  rfl

theorem parseWorkerRegister_pieces {m : NodeRegisterMsg} (h : (WorkerMessage.nodeRegister m).Fits) :
    parseWorkerRegister (nodeRegisterPieces m).flatten = some
      { hostname := strToFixed 64 (utf8 m.nodeName), cpuMillicores := m.cpuMillicores,
        memoryMegabytes := m.memoryMegabytes, gpuType := m.gpuType, gpuCount := m.gpuCount } := by
  obtain ⟨-, hcpu, hmem, hgpu⟩ := h
  apply parseExact_flatten
  · simp [nodeRegisterPieces, length_gpuType]
  · apply (reads_bytes _).bind
    apply (reads_uint hcpu).bind
    apply (reads_uint hmem).bind
    apply (Reads.field (c := Wire.gpuType) rfl).bind
    apply (reads_uint hgpu).bind
    apply (reads_bytes _).bind
    apply (reads_bytes _).bind
    exact .nothing _

theorem parseWorkerHeartbeat_pieces {m : NodeHeartbeatMsg}
    (h : (WorkerMessage.nodeHeartbeat m).Fits) :
    parseWorkerHeartbeat (nodeHeartbeatPieces m).flatten =
      some { timestamp := m.tick, podsRunning := m.activePods } := by
  obtain ⟨htick, hpods⟩ := h
  apply parseExact_flatten
  · simp [nodeHeartbeatPieces]
  · apply (reads_uint htick).bind
    apply (reads_uint (by decide)).bind
    apply (reads_uint (by decide)).bind
    apply (reads_bytes _).bind
    apply (reads_uint hpods).bind
    exact .nothing _

theorem reads_phase (report : PodStatusReport) :
    Reads (field Wire.podPhase) [le 1 report.fields.1] report.phase := by
  cases report <;> exact Reads.field_of_write rfl rfl

theorem parseWorkerPodStatus_pieces {m : PodStatusEventMsg} (hpod : m.podId < 2 ^ 64) :
    parseWorkerPodStatus (podStatusEventPieces m).flatten = some
      { podId := m.podId, newPhase := m.status.phase, exitCode := m.status.fields.2.1,
        message := strToFixed 128 (utf8 m.status.fields.2.2) } := by
  have hcode : (UInt32.ofNat m.status.fields.2.1.toUInt32.toNat).toInt32 = m.status.fields.2.1 := by
    rw [UInt32.ofNat_toNat, Int32.toInt32_toUInt32]
  apply parseExact_flatten
  · simp [podStatusEventPieces]
  · apply (reads_uint hpod).bind
    apply (Reads.field_of_write (a := PodPhase.pending) rfl rfl).bind
    apply (reads_phase m.status).bind
    apply (reads_uint (by decide)).bind
    apply (reads_uint m.status.fields.2.1.toUInt32.toNat_lt).bind
    apply (reads_bytes _).bind
    rw [hcode]
    exact .nothing _

theorem reads_runStatus {m : RunResponseMsg} (h : m.status < runStatusNotLeader) :
    Reads (field Wire.runStatus) [le 1 m.status] m.runStatus ∧ m.runStatus ≠ .notLeader := by
  obtain ⟨requestId, status, payload⟩ := m
  have hcases : status = 0 ∨ status = 1 ∨ status = 2 ∨ status = 3 ∨ status = 4 ∨ status = 5 ∨
      status = 6 ∨ status = 7 ∨ status = 8 := by
    rw [runStatusNotLeader] at h
    dsimp only at h
    omega
  rcases hcases with rfl | rfl | rfl | rfl | rfl | rfl | rfl | rfl | rfl <;>
    exact ⟨Reads.field_of_write rfl rfl, nofun⟩

theorem parseRunResponse_pieces {requestId : ℕ} {status : RunStatus} {code : List UInt8}
    (body : List UInt8) (hreq : requestId < 2 ^ 64) (hstatus : Reads (field Wire.runStatus) [code] status)
    (hlen : code.length = 1) (hleader : status ≠ .notLeader)
    (hbody : body.length ≤ maxRunResponseBody) :
    parseRunResponse ([le 8 requestId, code].flatten ++ body) = some ⟨requestId, status, body⟩ := by
  have hlong : ¬ ([le 8 requestId, code].flatten ++ body).length < 9 := by
    simp only [List.length_append, List.length_flatten, List.map_cons, List.map_nil, length_le,
      hlen, List.sum_cons, List.sum_nil]
    omega
  have hheader : Reads (do
      let requestId ← field Wire.u64
      let status ← field Wire.runStatus
      pure (requestId, status)) [le 8 requestId, code] (requestId, status) := by
    apply (reads_uint hreq).bind
    apply hstatus.bind
    exact .nothing _
  rw [parseRunResponse, if_neg hlong]
  dsimp only
  rw [hheader body]
  dsimp only
  rw [if_neg hleader, if_neg (not_lt.mpr hbody)]

/-- Every message that fits is encoded, and is received as what it means. -/
theorem dispatch_encodeAgentMessage {m : WorkerMessage} (h : m.Fits) {bufLen : ℕ}
    (hbuf : maxFramePayload ≤ bufLen) :
    ∃ tag payload, encodeAgentMessage m bufLen = .ok (tag, payload) ∧
      dispatchWorkerMessage tag payload = m.meaning := by
  have hmax : maxFramePayload = 16384 := rfl
  have hfixed : ∀ {len : ℕ} (message : String) (pieces : List (List UInt8)), len ≤ 16384 →
      fixedPayload bufLen len message pieces = .ok pieces.flatten := by
    intro len message pieces hlen
    rw [fixedPayload, if_neg (by omega)]
  cases m with
  | nodeRegister m =>
    refine ⟨0x10, (nodeRegisterPieces m).flatten, ?_, ?_⟩
    · rw [encodeAgentMessage, hfixed _ _ (by decide)]
      rfl
    · rw [dispatchWorkerMessage, parseWorkerRegister_pieces h]
      rfl
  | nodeHeartbeat m =>
    refine ⟨0x11, (nodeHeartbeatPieces m).flatten, ?_, ?_⟩
    · rw [encodeAgentMessage, hfixed _ _ (by decide)]
      rfl
    · rw [dispatchWorkerMessage, parseWorkerHeartbeat_pieces h]
      rfl
  | podStatusEvent m =>
    refine ⟨0x12, (podStatusEventPieces m).flatten, ?_, ?_⟩
    · rw [encodeAgentMessage, hfixed _ _ (by decide)]
      rfl
    · rw [dispatchWorkerMessage, parseWorkerPodStatus_pieces h.1]
      rfl
  | runResponse m =>
    obtain ⟨hreq, hstatus⟩ := h
    have hbody : maxRunResponseBody = 16375 := rfl
    by_cases hlarge : m.payload.length > maxRunResponseBody
    · refine ⟨0x13, [le 8 m.requestId, le 1 runStatusResponseTooLarge].flatten, ?_, ?_⟩
      · rw [encodeAgentMessage, if_neg (by omega), if_neg (not_le.mpr hstatus), if_pos hlarge]
      · have hparse := parseRunResponse_pieces [] hreq
          (Reads.field_of_write (a := RunStatus.responseTooLarge) rfl rfl) (length_le 1 runStatusResponseTooLarge) (by decide)
          (Nat.zero_le _)
        rw [WorkerMessage.meaning, if_pos hlarge, dispatchWorkerMessage]
        exact congrArg (fun o => (Option.map WorkerInput.runResponse o).getD .disconnected) hparse
    · refine ⟨0x13, [le 8 m.requestId, le 1 m.status, m.payload].flatten, ?_, ?_⟩
      · rw [encodeAgentMessage, if_neg (by omega), if_neg (not_le.mpr hstatus), if_neg hlarge,
          if_neg (by omega)]
      · obtain ⟨hreads, hleader⟩ := reads_runStatus hstatus
        have hsplit : [le 8 m.requestId, le 1 m.status, m.payload].flatten =
            [le 8 m.requestId, le 1 m.status].flatten ++ m.payload := by simp
        have hparse := parseRunResponse_pieces m.payload hreq hreads (length_le 1 m.status)
          hleader (not_lt.mp hlarge)
        rw [WorkerMessage.meaning, if_neg hlarge, dispatchWorkerMessage, hsplit, hparse]
        rfl

/-- The reports a worker sends while it is starting a pod. -/
def PodStatusReport.starting (report : PodStatusReport) : Prop :=
  report = .imagePulling ∨ report = .creating ∨ report = .running

end Agent

/-! ### Progress reports of bound pods -/

namespace StateMachine

variable {sm sm₁ : StateMachine}

theorem findPod_handleUpdatePodStatus {podId : ℕ} {newPhase : PodPhase} {pod : Pod} {r : Result}
    (hpod : sm.findPod podId = some pod) (hgoes : newPhase ≠ .succeeded ∧ newPhase ≠ .failed)
    (h : sm.handleUpdatePodStatus podId newPhase = some (sm₁, r)) :
    ∃ i, sm.findPodIndex podId = some i ∧ sm₁.pods = sm.pods.set i { pod with phase := newPhase } ∧
      sm₁.findPod podId = some { pod with phase := newPhase } := by
  obtain ⟨i, hidx, hi⟩ : ∃ i, sm.findPodIndex podId = some i ∧ sm.pods[i]? = some pod := by
    cases hidx : sm.findPodIndex podId with
    | none =>
      rw [findPodIndex, List.findIdx?_eq_none_iff] at hidx
      have hmem := List.mem_of_find?_eq_some hpod
      have hid := List.find?_some hpod
      rw [hidx pod hmem] at hid
      cases hid
    | some i => exact ⟨i, rfl, (find?_of_findIdx? hidx).trans hpod⟩
  have hsame : (pod.id == podId) = true := List.find?_some (p := fun p : Pod => p.id == podId) hpod
  have hends : ¬ (newPhase = .succeeded ∨ newPhase = .failed) := by
    rintro (hs | hf)
    · exact hgoes.1 hs
    · exact hgoes.2 hf
  unfold handleUpdatePodStatus at h
  rw [hidx, hpod] at h
  dsimp only at h
  cases hready : sm.countReadyAt pod.deploymentId pod.phase newPhase with
  | none =>
    rw [hready] at h
    cases h
  | some sm₂ =>
    rw [hready] at h
    dsimp only at h
    obtain ⟨j, f, -, rfl⟩ := countReadyAt_cases hready
    rw [if_neg hends] at h
    cases h
    have hpods : ((sm.setDeployment j f).setPod i fun p => { p with phase := newPhase }).pods =
        sm.pods.set i { pod with phase := newPhase } := modify_eq_set _ hi
    refine ⟨i, hidx, hpods, ?_⟩
    rw [findPod, hpods]
    exact find?_set_of_findIdx? hidx hsame

theorem pending_of_mem_getPendingPods {dep podId : ℕ} (h : podId ∈ sm.getPendingPods dep) :
    ∃ p ∈ sm.pods, p.id = podId ∧ p.active = true ∧ p.phase = .pending := by
  obtain ⟨p, hp, rfl⟩ := List.mem_map.mp h
  have hfilter := List.mem_filter.mp (List.mem_of_mem_take hp)
  simp only [Bool.and_eq_true, beq_iff_eq] at hfilter
  exact ⟨p, hfilter.1, rfl, hfilter.2.1.1, hfilter.2.2⟩

theorem not_mem_getPendingPods {podId dep : ℕ} {pod : Pod} (hids : (sm.pods.map (·.id)).Nodup)
    (hpod : sm.findPod podId = some pod) (hphase : pod.phase ≠ .pending) :
    podId ∉ sm.getPendingPods dep := by
  intro hmem
  obtain ⟨p, hp, hid, -, hpending⟩ := pending_of_mem_getPendingPods hmem
  have hpod_mem := List.mem_of_find?_eq_some hpod
  have hpod_id : pod.id = podId := by simpa using List.find?_some hpod
  have hsame : p = pod := List.inj_on_of_nodup_map hids hp hpod_mem (hid.trans hpod_id.symm)
  exact hphase (hsame ▸ hpending)

end StateMachine

open Agent StateMachine

/-- Every report arrives with the value of each field, and the progress report of a bound pod
leaves it in a phase the scheduler looks for exactly if it says that the image is being pulled. -/
theorem worker_reports_keep_meaning (bufLen : ℕ) :
    (∀ m : WorkerMessage, m.Fits → maxFramePayload ≤ bufLen →
      ∃ tag payload, encodeAgentMessage m bufLen = .ok (tag, payload) ∧
        dispatchWorkerMessage tag payload = m.meaning) ∧
    ∀ (sm sm₁ : StateMachine) (pod : Pod) (podId tag : ℕ) (report : PodStatusReport)
      (payload : List UInt8) (status : WorkerPodStatusReport) (r : Result),
      podId < 2 ^ 64 → report.starting → sm.findPod podId = some pod → pod.nodeId ≠ 0 →
      encodeAgentMessage (.podStatusEvent ⟨podId, report⟩) bufLen = .ok (tag, payload) →
      parseWorkerPodStatus payload = some status →
      sm.apply (.updatePodStatus status.podId status.newPhase) = some (sm₁, r) →
      ∃ pod₁, sm₁.findPod podId = some pod₁ ∧ pod₁.nodeId = pod.nodeId ∧
        (pod₁.phase ≠ .pending ↔ report ≠ .imagePulling) ∧
        (report ≠ .imagePulling → (sm.pods.map (·.id)).Nodup →
          ∀ dep, podId ∉ sm₁.getPendingPods dep) := by
  constructor
  · intro m hfits hbuf
    exact dispatch_encodeAgentMessage hfits hbuf
  · intro sm sm₁ pod podId tag report payload status r hsmall hstarting hpod hbound hencode
      hparse happly
    have hstatus : status.podId = podId ∧ status.newPhase = report.phase := by
      rw [encodeAgentMessage, fixedPayload] at hencode
      split at hencode
      · cases hencode
      · cases hencode
        rw [parseWorkerPodStatus_pieces hsmall] at hparse
        cases hparse
        exact ⟨rfl, rfl⟩
    have hgoes : report.phase ≠ .succeeded ∧ report.phase ≠ .failed := by
      rcases hstarting with rfl | rfl | rfl <;> exact ⟨nofun, nofun⟩
    have hphase : report.phase ≠ .pending ↔ report ≠ .imagePulling := by
      rcases hstarting with rfl | rfl | rfl
      · exact iff_of_false (fun h => h rfl) fun h => h rfl
      · exact iff_of_true nofun nofun
      · exact iff_of_true nofun nofun
    rw [hstatus.1, hstatus.2] at happly
    obtain ⟨i, hidx, hpods, hfound⟩ :=
      StateMachine.findPod_handleUpdatePodStatus hpod hgoes happly
    refine ⟨_, hfound, rfl, hphase, fun hreport hids dep => ?_⟩
    have hi : sm.pods[i]? = some pod := (StateMachine.find?_of_findIdx? hidx).trans hpod
    have hsameIds : sm₁.pods.map (·.id) = sm.pods.map (·.id) := by
      rw [hpods]
      exact StateMachine.map_set_of_eq hi rfl
    exact StateMachine.not_mem_getPendingPods (hsameIds ▸ hids) hfound (hphase.mpr hreport)

/-- A node and a deployment of one pod, which is bound to the node. -/
def boundPod : List Command :=
  [.registerNode { cpuMillicores := 4 }, .createDeployment { cpuMillicores := 1 },
    .bindPodToNode (nthId 3) (nthId 1)]

/-- A bound pod that is being created is not offered to the scheduler. -/
theorem worker_reports_keep_meaning_creating :
    dispatchWorkerMessage 0x11 (nodeHeartbeatPieces ⟨7, 3, 0⟩).flatten =
      .heartbeat { timestamp := 7, podsRunning := 3 } ∧
    ∃ sm results sm₁ r, Replay.run StateMachine.apply (StateMachine.blank.initInPlace 1) boundPod =
        some (sm, results) ∧
      sm.apply (.updatePodStatus (nthId 3) .scheduled) = some (sm₁, r) ∧
      nthId 3 ∉ sm₁.getPendingPods (nthId 2) := by
  obtain ⟨hreceived, hprogress⟩ := worker_reports_keep_meaning maxFramePayload
  constructor
  · obtain ⟨tag, payload, hencode, hdispatch⟩ := hreceived (.nodeHeartbeat ⟨7, 3, 0⟩)
      ⟨by decide, by decide⟩ le_rfl
    cases hencode
    exact hdispatch
  · have hsome : ((Replay.run StateMachine.apply (StateMachine.blank.initInPlace 1) boundPod).bind
        fun x => (x.1.apply (.updatePodStatus (nthId 3) .scheduled)).bind fun _ =>
          (x.1.findPod (nthId 3)).map fun p =>
            (p.nodeId != 0, decide (x.1.pods.map (·.id)).Nodup)) = some (true, true) := by
      decide +kernel
    obtain ⟨⟨sm, results⟩, hrun, hsome⟩ := Option.bind_eq_some_iff.mp hsome
    obtain ⟨⟨sm₁, r⟩, happly, hsome⟩ := Option.bind_eq_some_iff.mp hsome
    obtain ⟨pod, hpod, hfacts⟩ := Option.map_eq_some_iff.mp hsome
    obtain ⟨hbound, hids⟩ := Prod.mk.inj hfacts
    refine ⟨sm, results, sm₁, r, hrun, happly, ?_⟩
    obtain ⟨-, -, -, -, hnot⟩ := hprogress sm sm₁ pod (nthId 3) 0x12
      .creating _ _ r (by decide +kernel) (.inr (.inl rfl)) hpod (bne_iff_ne.mp hbound) rfl
      (parseWorkerPodStatus_pieces (by decide +kernel)) happly
    exact hnot nofun (of_decide_eq_true hids) _

/-- The report that the image of a bound pod is being pulled makes the pod pending, and it is
offered to the scheduler although it has a node. -/
theorem pulling_pod_offered_again :
    let podId := nthId 3
    let reported := (encodeAgentMessage (.podStatusEvent ⟨podId, .imagePulling⟩) maxFramePayload).toOption.bind
      fun frame => parseWorkerPodStatus frame.2
    ((Replay.run StateMachine.apply (StateMachine.blank.initInPlace 1) boundPod).bind fun x =>
      reported.bind fun status =>
        (x.1.apply (.updatePodStatus status.podId status.newPhase)).map fun y =>
          (y.1.getPendingPods (nthId 2),
            (y.1.findPod podId).map fun p => (p.nodeId, p.phase))) =
      some ([podId], some (nthId 1, .pending)) := by
  decide +kernel

end Hivemind
