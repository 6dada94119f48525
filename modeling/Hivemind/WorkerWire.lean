import Hivemind.Text
import Hivemind.Ranges
import Hivemind.Tables
import Hivemind.Scheduler
import Hivemind.Replica

/-! The messages between the core and its workers: `encodeStartPodFrame`, the stop frame and the
run payload of the core against `decode_control_message` of the worker's `protocol.rs`, and
`encode_agent_message` of the worker against the parsers of `connection.zig`. Each side is
translated from its own source. -/
namespace Hivemind

open Codec Scan

/-! ### Core to worker: the core's side -/

def protocolVersion : ℕ := 6
def startPodFixedBytes : ℕ := 8 + 8 + 256 + 256 + 2 + 1 + 1 + 4 + 4 + 128 + 64 + 64 + 1
def startPodEnvBytes : ℕ := 64 + 256 + 1
def startPodRegistryAuthBytes : ℕ := 1 + 128 + 64 + 256 + 1
def startPodFrameBytesMax : ℕ :=
  7 + startPodFixedBytes + startPodEnvMax * startPodEnvBytes + startPodRegistryAuthBytes

inductive StartPodError where
  | tooManyEnvironmentVariables | frameBufferTooSmall
  deriving DecidableEq

/-- The bytes of one environment entry. -/
def startPodEnv (e : EnvEntry) : List UInt8 :=
  [e.name.toList, e.value.toList, [if e.isSecretRef then 1 else 0]].flatten

/-- `has_registry_auth`: some byte of the credentials is not NUL. -/
def Deployment.hasRegistryAuth (d : Deployment) : Bool :=
  d.imagePullRegistry.toList.any (· ≠ 0) || d.imagePullUsername.toList.any (· ≠ 0) ||
    d.imagePullPassword.toList.any (· ≠ 0)

/-- The fixed fields, then the environment. -/
def startPodFields (podId : ℕ) (d : Deployment) : List (List UInt8) :=
  [le 8 podId, le 8 d.id, d.image.toList, d.entrypoint.toList, le 2 d.port, le 1 d.gpuCount,
    Wire.gpuType.write d.gpuType, le 4 d.cpuMillicores, le 4 d.memoryMegabytes,
    d.juicefsPath.toList, d.liveness.path.toList, d.readiness.path.toList, le 1 d.envCount] ++
  (d.envVars.take d.envCount).map startPodEnv

/-- The trailer with the registry credentials. -/
def startPodAuth (d : Deployment) : List (List UInt8) :=
  [[1], d.imagePullRegistry.toList, d.imagePullUsername.toList, d.imagePullPassword.toList,
    le 1 d.imagePullPasswordIsSecret]

/-- What stands behind the header of the frame. -/
def startPodPayload (podId : ℕ) (d : Deployment) : List UInt8 :=
  (startPodFields podId d ++ if d.hasRegistryAuth then startPodAuth d else []).flatten

/-- The header of a frame to a worker: length, protocol version, tag. -/
def workerFrame (tag : ℕ) (payload : List UInt8) : List UInt8 :=
  [le 4 (3 + payload.length), le 2 protocolVersion, le 1 tag, payload].flatten

def encodeStartPodFrame (podId : ℕ) (d : Deployment) (outLen : ℕ) :
    Except StartPodError (List UInt8) :=
  if d.envCount > startPodEnvMax then .error .tooManyEnvironmentVariables
  else if outLen < startPodFrameBytesMax then .error .frameBufferTooSmall
  else .ok (workerFrame 0x02 (startPodPayload podId d))

/-- The frame of `dispatchStopPodToWorker`. -/
def stopPodFrame (podId gracePeriodMs : ℕ) : List UInt8 :=
  workerFrame 0x03 [le 8 podId, le 8 gracePeriodMs].flatten

/-- `agent_payload` of `dispatchRun`. -/
def runRequestPayload (workerRequestId deploymentId : ℕ) (payload : List UInt8) : List UInt8 :=
  [le 8 workerRequestId, le 8 deploymentId, le 4 payload.length, payload].flatten

/-- The texts of the record are zero-padded valid UTF-8 without interior NULs. -/
structure Deployment.HasTexts (d : Deployment) : Prop where
  image : IsText d.image
  entrypoint : IsText d.entrypoint
  juicefsPath : IsText d.juicefsPath
  liveness : IsText d.liveness.path
  readiness : IsText d.readiness.path
  env : ∀ e ∈ d.envVars.take d.envCount, IsText e.name ∧ IsText e.value
  registry : IsText d.imagePullRegistry
  username : IsText d.imagePullUsername
  password : IsText d.imagePullPassword

/-! ### Core to worker: the worker's side -/

/-- `io::Error` with its kind and text. A slice out of bounds would stop the process. -/
inductive WireError where
  | invalidData (text : String)
  | invalidInput (text : String)
  | writeZero (text : String)
  | outOfBounds
  deriving DecidableEq

instance : ShortError WireError := ⟨.outOfBounds⟩

namespace Agent

structure EnvEntry where
  name : String
  value : String
  isSecretRef : Bool
  deriving DecidableEq

structure StartPodCmd where
  podId : ℕ
  deploymentId : ℕ
  image : String
  entrypoint : String
  port : ℕ
  gpuCount : ℕ
  gpuType : GpuType
  cpuMillicores : ℕ
  memoryMegabytes : ℕ
  juicefsPath : String
  livenessPath : String
  readinessPath : String
  envVars : List EnvEntry
  imagePullRegistry : String
  imagePullUsername : String
  imagePullPassword : String
  imagePullPasswordIsSecret : Bool
  deriving DecidableEq

structure StopPodCmd where
  podId : ℕ
  gracePeriodMs : ℕ
  deriving DecidableEq

structure RunRequestCmd where
  requestId : ℕ
  deploymentId : ℕ
  payload : List UInt8
  deriving DecidableEq

inductive ControlMessage where
  | startPod (cmd : StartPodCmd)
  | stopPod (cmd : StopPodCmd)
  | probePod (podId : ℕ)
  | runRequest (cmd : RunRequestCmd)
  deriving DecidableEq

def maxFramePayload : ℕ := 16 * 1024
def maxRunPayload : ℕ := 512
def maxRunResponseBody : ℕ := maxFramePayload - 9
def stopPodPayloadLen : ℕ := 16
def probePodPayloadLen : ℕ := 8
def nodeRegisterPayloadLen : ℕ := 138
def nodeHeartbeatPayloadLen : ℕ := 23
def podStatusEventPayloadLen : ℕ := 150

def decodeBool (value : ℕ) (field : String) : Except WireError Bool :=
  match value with
  | 0 => .ok false
  | 1 => .ok true
  | v => .error (.invalidData (field ++ " must be 0 or 1, got " ++ toString v))

def u8ToGpuType (v : ℕ) : Except WireError GpuType :=
  match v with
  | 0 => .ok .none
  | 1 => .ok .a100_40
  | 2 => .ok .a100_80
  | 3 => .ok .h100_sxm
  | 4 => .ok .h100_pcie
  | 5 => .ok .h200
  | 6 => .ok .l40s
  | 7 => .ok .a10g
  | 8 => .ok .t4
  | v => .error (.invalidData ("invalid StartPod GPU type: " ++ toString v))

section Decode

variable (lossy : FromUtf8Lossy)

/-- A little-endian integer of `n` bytes. -/
def int (n : ℕ) : Scan WireError ℕ := field (uint n)

/-- A string in a fixed field. -/
def text (n : ℕ) : Scan WireError String :=
  fieldWith (bytes n) fun b => .ok (fixedToString lossy b)

/-- A byte that a check turns into a value. -/
def checked {α : Type} (f : ℕ → Except WireError α) : Scan WireError α := fieldWith (uint 1) f

def scanEnvEntry : Scan WireError EnvEntry := do
  let name ← text lossy 64
  let value ← text lossy 256
  let isSecretRef ← checked fun v => decodeBool v "StartPod env secret flag"
  pure { name, value, isSecretRef }

/-- The fields up to the end of the environment. The product of the count, a byte, and the size of
an entry does not overflow. -/
def scanStartPodFields : Scan WireError StartPodCmd := do
  need startPodFixedBytes (.invalidData "StartPod payload too short")
  let podId ← int 8
  let deploymentId ← int 8
  let image ← text lossy 256
  let entrypoint ← text lossy 256
  let port ← int 2
  let gpuCount ← int 1
  let gpuType ← checked u8ToGpuType
  let cpuMillicores ← int 4
  let memoryMegabytes ← int 4
  let juicefsPath ← text lossy 128
  let livenessPath ← text lossy 64
  let readinessPath ← text lossy 64
  let envCount ← int 1
  need (envCount * startPodEnvBytes) (.invalidData "StartPod env entries truncated")
  let envVars ← times (scanEnvEntry lossy) envCount
  pure {
    podId, deploymentId, image, entrypoint, port, gpuCount, gpuType, cpuMillicores,
    memoryMegabytes, juicefsPath, livenessPath, readinessPath, envVars, imagePullRegistry := "",
    imagePullUsername := "", imagePullPassword := "", imagePullPasswordIsSecret := false }

/-- The fields of the trailer. -/
def scanStartPodAuth (cmd : StartPodCmd) : Scan WireError StartPodCmd := do
  let _ ← int 1
  let registry ← text lossy 128
  let username ← text lossy 64
  let password ← text lossy 256
  let isSecret ← checked fun v => decodeBool v "StartPod image pull secret flag"
  pure { cmd with
    imagePullRegistry := registry, imagePullUsername := username, imagePullPassword := password,
    imagePullPasswordIsSecret := isSecret }

/-- What may follow the environment: nothing, or exactly a trailer. -/
def scanStartPodTrailer (cmd : StartPodCmd) : Scan WireError StartPodCmd := fun bs =>
  if bs.length = 0 then .ok (cmd, bs)
  else if bs.length ≠ startPodRegistryAuthBytes ∨ bs.head? ≠ some 0x01 then
    .error (.invalidData "StartPod registry auth trailer invalid")
  else (scanStartPodAuth lossy cmd).run bs

def decodeStartPod (payload : List UInt8) : Except WireError StartPodCmd :=
  match (scanStartPodFields lossy >>= scanStartPodTrailer lossy).run payload with
  | .error e => .error e
  | .ok (cmd, rest) =>
    if rest.length ≠ 0 then .error (.invalidData "StartPod payload has trailing bytes")
    else .ok cmd

def decodeStopPod (payload : List UInt8) : Except WireError StopPodCmd :=
  if payload.length ≠ stopPodPayloadLen then .error (.invalidData "StopPod payload length invalid")
  else value (do
    let podId ← int 8
    let gracePeriodMs ← int 8
    pure { podId, gracePeriodMs }) payload

def decodeProbePod (payload : List UInt8) : Except WireError ℕ :=
  if payload.length ≠ probePodPayloadLen then
    .error (.invalidData "ProbePod payload length invalid")
  else value (int 8) payload

def decodeRunRequest (payload : List UInt8) : Except WireError RunRequestCmd :=
  if payload.length < 20 then .error (.invalidData "RunRequest payload too short")
  else
    let header : Scan WireError (ℕ × ℕ × ℕ) := do
      let requestId ← int 8
      let deploymentId ← int 8
      let declaredLen ← int 4
      pure (requestId, deploymentId, declaredLen)
    match header.run payload with
    | .error e => .error e
    | .ok ((requestId, deploymentId, declaredLen), body) =>
      if declaredLen > maxRunPayload ∨ body.length ≠ declaredLen then
        .error (.invalidData "RunRequest payload length mismatch")
      else .ok { requestId, deploymentId, payload := body }

/-- Two hexadecimal digits of a byte. -/
def hexByte (v : ℕ) : String :=
  String.ofList [Nat.digitChar (v / 16), Nat.digitChar (v % 16)]

def decodeControlMessage (msgType : ℕ) (payload : List UInt8) : Except WireError ControlMessage :=
  match msgType with
  | 0x02 => (decodeStartPod lossy payload).map .startPod
  | 0x03 => (decodeStopPod payload).map .stopPod
  | 0x05 => (decodeProbePod payload).map .probePod
  | 0x04 => (decodeRunRequest payload).map .runRequest
  | t => .error (.invalidData ("unknown message type: 0x" ++ hexByte t))

end Decode

/-! ### Core to worker: what is written is what is read -/

section RoundTrip

variable (lossy : FromUtf8Lossy)

theorem reads_int {n v : ℕ} (h : v < 256 ^ n) : Reads (int n) [le n v] v :=
  Reads.field (c := uint n) (decide_eq_true h)

theorem reads_text {n : ℕ} {b : Bytes n} {s : String} (h : Spells b s) :
    Reads (text lossy n) [b.toList] s := by
  apply Reads.fieldWith (c := bytes n) rfl
  rw [h.fixedToString lossy]

theorem reads_checked {α : Type} {f : ℕ → Except WireError α} {v : ℕ} {a : α} (hv : v < 256)
    (h : f v = .ok a) : Reads (checked f) [le 1 v] a :=
  Reads.fieldWith (c := uint 1) (decide_eq_true (by rwa [Nat.pow_one])) h

theorem reads_gpuType (t : GpuType) : Reads (checked u8ToGpuType) [Wire.gpuType.write t] t := by
  cases t <;> exact reads_checked (by decide) rfl

theorem reads_bool (b : Bool) (field : String) :
    Reads (checked fun v => decodeBool v field) [[if b then 1 else 0]] b := by
  cases b
  · exact reads_checked (v := 0) (by decide) rfl
  · exact reads_checked (v := 1) (by decide) rfl

/-- The entry of the environment says what the record's entry says. -/
structure EnvEntry.Matches (c : EnvEntry) (e : Hivemind.EnvEntry) : Prop where
  name : Spells e.name c.name
  value : Spells e.value c.value
  isSecretRef : c.isSecretRef = e.isSecretRef

theorem reads_envEntry {c : EnvEntry} {e : Hivemind.EnvEntry} (h : c.Matches e) :
    Reads (scanEnvEntry lossy) [startPodEnv e] c := by
  obtain ⟨name, value, isSecretRef⟩ := c
  obtain ⟨hname, hvalue, rfl⟩ := h
  apply Reads.join
  apply (reads_text lossy hname).bind
  apply (reads_text lossy hvalue).bind
  apply (reads_bool e.isSecretRef _).bind
  exact .nothing _

theorem length_startPodEnv (e : Hivemind.EnvEntry) :
    (startPodEnv e).length = startPodEnvBytes := by
  simp only [startPodEnv, List.length_flatten, List.map_cons, List.map_nil, Vector.length_toList]
  rfl

theorem exists_envVars {es : List Hivemind.EnvEntry}
    (h : ∀ e ∈ es, IsText e.name ∧ IsText e.value) :
    ∃ cs : List EnvEntry, List.Forall₂ (fun e c => c.Matches e) es cs := by
  induction es with
  | nil => exact ⟨[], .nil⟩
  | cons e es ih =>
    obtain ⟨⟨name, hname⟩, value, hvalue⟩ := h e List.mem_cons_self
    obtain ⟨cs, hcs⟩ := ih fun e' he' => h e' (List.mem_cons_of_mem e he')
    exact ⟨⟨name, value, e.isSecretRef⟩ :: cs, .cons ⟨hname, hvalue, rfl⟩ hcs⟩

/-- The command says what the record says. The flag of the password goes with the trailer. -/
structure StartPodCmd.Matches (cmd : StartPodCmd) (podId : ℕ) (d : Deployment) : Prop where
  podId : cmd.podId = podId
  deploymentId : cmd.deploymentId = d.id
  image : Spells d.image cmd.image
  entrypoint : Spells d.entrypoint cmd.entrypoint
  port : cmd.port = d.port
  gpuCount : cmd.gpuCount = d.gpuCount
  gpuType : cmd.gpuType = d.gpuType
  cpuMillicores : cmd.cpuMillicores = d.cpuMillicores
  memoryMegabytes : cmd.memoryMegabytes = d.memoryMegabytes
  juicefsPath : Spells d.juicefsPath cmd.juicefsPath
  livenessPath : Spells d.liveness.path cmd.livenessPath
  readinessPath : Spells d.readiness.path cmd.readinessPath
  envVars : List.Forall₂ (fun e c => c.Matches e) (d.envVars.take d.envCount) cmd.envVars
  imagePullRegistry : Spells d.imagePullRegistry cmd.imagePullRegistry
  imagePullUsername : Spells d.imagePullUsername cmd.imagePullUsername
  imagePullPassword : Spells d.imagePullPassword cmd.imagePullPassword
  imagePullPasswordIsSecret : cmd.imagePullPasswordIsSecret =
    (d.hasRegistryAuth && d.imagePullPasswordIsSecret == 1)

/-- The command before its trailer has been read. -/
def StartPodCmd.withoutAuth (cmd : StartPodCmd) : StartPodCmd :=
  { cmd with
    imagePullRegistry := "", imagePullUsername := "", imagePullPassword := "",
    imagePullPasswordIsSecret := false }

theorem length_startPodEnvs {d : Deployment} (h : d.envCount ≤ d.envVars.length) :
    ((d.envVars.take d.envCount).map startPodEnv).flatten.length =
      d.envCount * startPodEnvBytes := by
  have hconst : List.length ∘ startPodEnv = fun _ => startPodEnvBytes :=
    funext length_startPodEnv
  rw [List.length_flatten, List.map_map, hconst, List.map_const', List.sum_replicate,
    List.length_take, min_eq_left h, smul_eq_mul]

theorem length_gpuType (t : GpuType) : (Wire.gpuType.write t).length = 1 :=
  Wire.gpuType.length_write t rfl

theorem length_startPodFields (podId : ℕ) {d : Deployment} (h : d.envCount ≤ d.envVars.length) :
    (startPodFields podId d).flatten.length =
      startPodFixedBytes + d.envCount * startPodEnvBytes := by
  rw [startPodFields, List.flatten_append, List.length_append, length_startPodEnvs h]
  simp only [List.length_flatten, List.map_cons, List.map_nil, Vector.length_toList, length_le,
    length_gpuType, List.sum_cons, List.sum_nil, startPodFixedBytes]
  omega

theorem reads_startPodFields {podId : ℕ} {d : Deployment} {cmd : StartPodCmd} (hpod : podId < 2 ^ 64)
    (hd : d.Typed) (hv : d.Validated) (h : cmd.Matches podId d) :
    Reads (scanStartPodFields lossy) (startPodFields podId d) cmd.withoutAuth := by
  have hlen := length_startPodFields podId hv.env
  have hcount : d.envCount ≤ 16 := hd.env ▸ hv.env
  have htake : (d.envVars.take d.envCount).length = d.envCount := by
    rw [List.length_take, min_eq_left hv.env]
  have henv : List.Forall₂ (fun e c => Reads (scanEnvEntry lossy) [startPodEnv e] c)
      (d.envVars.take d.envCount) cmd.envVars := h.envVars.imp fun e c hc => reads_envEntry lossy hc
  obtain ⟨podId, deploymentId, image, entrypoint, port, gpuCount, gpuType, cpu, memory, juicefs,
    liveness, readiness, envVars, registry, username, password, secret⟩ := cmd
  obtain ⟨rfl, rfl, himage, hentry, rfl, rfl, rfl, rfl, rfl, hjuice, hlive, hready, -, -, -, -, -⟩ := h
  apply Reads.need (by rw [hlen]; omega)
  apply (reads_int hpod).bind
  apply (reads_int hd.id).bind
  apply (reads_text lossy himage).bind
  apply (reads_text lossy hentry).bind
  apply (reads_int hd.port).bind
  apply (reads_int hd.gpu).bind
  apply (reads_gpuType d.gpuType).bind
  apply (reads_int hd.cpu).bind
  apply (reads_int hd.memory).bind
  apply (reads_text lossy hjuice).bind
  apply (reads_text lossy hlive).bind
  apply (reads_text lossy hready).bind
  apply (reads_int (show d.envCount < 256 ^ 1 by omega)).bind
  -- the loop runs over as many entries as the record counts
  have hloop := Reads.times henv
  rw [htake] at hloop
  apply Reads.need
  · exact (length_startPodEnvs hv.env).ge
  · rw [← List.append_nil (List.map startPodEnv _)]
    exact hloop.append (.nothing _)

theorem length_startPodAuth (d : Deployment) :
    (startPodAuth d).flatten.length = startPodRegistryAuthBytes := by
  simp only [startPodAuth, List.length_flatten, List.map_cons, List.map_nil, Vector.length_toList,
    length_le, List.length_nil, List.length_cons, List.sum_cons, List.sum_nil,
    startPodRegistryAuthBytes]
  omega

/-- Without credentials the three fields are zeroes, which spell the empty strings of a command
without a trailer. -/
theorem hasRegistryAuth_eq_false_iff {d : Deployment} : d.hasRegistryAuth = false ↔
    d.imagePullRegistry = zeroes 128 ∧ d.imagePullUsername = zeroes 64 ∧
      d.imagePullPassword = zeroes 256 := by
  have hzero : ∀ {n : ℕ} (b : Bytes n), b.toList.any (· ≠ 0) = false ↔ b = zeroes n := by
    intro n b
    rw [List.any_eq_false, ← Vector.toList_inj, zeroes, Vector.toList_replicate,
      List.eq_replicate_iff]
    simp [Vector.length_toList]
  rw [Deployment.hasRegistryAuth, Bool.or_eq_false_iff, Bool.or_eq_false_iff, hzero, hzero, hzero,
    and_assoc]

theorem reads_startPodAuth {podId : ℕ} {d : Deployment} {cmd : StartPodCmd} (hv : d.Validated)
    (h : cmd.Matches podId d) (hauth : d.hasRegistryAuth = true) :
    Reads (scanStartPodAuth lossy cmd.withoutAuth) (startPodAuth d) cmd := by
  have hflag : decodeBool d.imagePullPasswordIsSecret "StartPod image pull secret flag" =
      .ok cmd.imagePullPasswordIsSecret := by
    rw [h.imagePullPasswordIsSecret, hauth]
    rcases Nat.le_one_iff_eq_zero_or_eq_one.mp hv.secret with h0 | h1
    · rw [h0]
      rfl
    · rw [h1]
      rfl
  apply (reads_int (v := 1) (by decide)).bind
  apply (reads_text lossy h.imagePullRegistry).bind
  apply (reads_text lossy h.imagePullUsername).bind
  apply (reads_text lossy h.imagePullPassword).bind
  apply (reads_checked (lt_of_le_of_lt hv.secret (by decide)) hflag).bind
  exact .nothing _

theorem scanStartPodTrailer_auth {podId : ℕ} {d : Deployment} {cmd : StartPodCmd}
    (hv : d.Validated) (h : cmd.Matches podId d) :
    (scanStartPodTrailer lossy cmd.withoutAuth).run
      (if d.hasRegistryAuth then startPodAuth d else []).flatten = .ok (cmd, []) := by
  cases hauth : d.hasRegistryAuth with
  | false =>
    obtain ⟨hreg, huser, hpass⟩ := hasRegistryAuth_eq_false_iff.mp hauth
    have hsame : cmd.withoutAuth = cmd := by
      have hflag := h.imagePullPasswordIsSecret
      rw [hauth] at hflag
      rw [StartPodCmd.withoutAuth]
      nth_rewrite 1 [← (spells_empty_iff h.imagePullRegistry).mpr hreg,
        ← (spells_empty_iff h.imagePullUsername).mpr huser,
        ← (spells_empty_iff h.imagePullPassword).mpr hpass]
      rw [show false = cmd.imagePullPasswordIsSecret from hflag.symm]
    rw [hsame]
    rfl
  | true =>
    have hlen := length_startPodAuth d
    have hread := (reads_startPodAuth lossy hv h hauth).run_whole
    rw [if_pos rfl, StateT.run, scanStartPodTrailer, hlen, if_neg (by decide)]
    exact hread

theorem decodeStartPod_startPodPayload {podId : ℕ} {d : Deployment} {cmd : StartPodCmd}
    (hpod : podId < 2 ^ 64) (hd : d.Typed) (hv : d.Validated) (h : cmd.Matches podId d) :
    decodeStartPod lossy (startPodPayload podId d) = .ok cmd := by
  have hrun : (scanStartPodFields lossy >>= scanStartPodTrailer lossy).run
      (startPodPayload podId d) = .ok (cmd, []) := by
    rw [startPodPayload, List.flatten_append, StateT.run_bind,
      reads_startPodFields lossy hpod hd hv h]
    exact scanStartPodTrailer_auth lossy hv h
  rw [decodeStartPod, hrun]
  rfl

theorem length_startPodPayload {podId : ℕ} {d : Deployment} (h : d.envCount ≤ d.envVars.length) :
    (startPodPayload podId d).length ≤
      startPodFixedBytes + d.envCount * startPodEnvBytes + startPodRegistryAuthBytes := by
  rw [startPodPayload, List.flatten_append, List.length_append, length_startPodFields podId h]
  split
  · rw [length_startPodAuth]
  · exact Nat.le_add_right _ _

/-- For every record that can be sent there is the command it is read as. -/
theorem exists_matches (podId : ℕ) {d : Deployment} (h : d.HasTexts) :
    ∃ cmd : StartPodCmd, cmd.Matches podId d := by
  obtain ⟨image, himage⟩ := h.image
  obtain ⟨entrypoint, hentry⟩ := h.entrypoint
  obtain ⟨juicefs, hjuice⟩ := h.juicefsPath
  obtain ⟨liveness, hlive⟩ := h.liveness
  obtain ⟨readiness, hready⟩ := h.readiness
  obtain ⟨registry, hreg⟩ := h.registry
  obtain ⟨username, huser⟩ := h.username
  obtain ⟨password, hpass⟩ := h.password
  obtain ⟨envVars, henv⟩ := exists_envVars h.env
  exact ⟨⟨podId, d.id, image, entrypoint, d.port, d.gpuCount, d.gpuType, d.cpuMillicores,
    d.memoryMegabytes, juicefs, liveness, readiness, envVars, registry, username, password, _⟩,
    rfl, rfl, himage, hentry, rfl, rfl, rfl, rfl, rfl, hjuice, hlive, hready, henv, hreg, huser,
    hpass, rfl⟩

theorem decodeStopPod_stopPod {podId gracePeriodMs : ℕ} (hpod : podId < 2 ^ 64)
    (hgrace : gracePeriodMs < 2 ^ 64) :
    decodeStopPod [le 8 podId, le 8 gracePeriodMs].flatten = .ok ⟨podId, gracePeriodMs⟩ := by
  have hlen : [le 8 podId, le 8 gracePeriodMs].flatten.length = stopPodPayloadLen := by
    rfl
  rw [decodeStopPod, if_neg (not_not.mpr hlen)]
  apply Reads.value
  apply (reads_int hpod).bind
  apply (reads_int hgrace).bind
  exact .nothing _

theorem decodeRunRequest_runRequestPayload {requestId deploymentId : ℕ} {payload : List UInt8}
    (hreq : requestId < 2 ^ 64) (hdep : deploymentId < 2 ^ 64)
    (hlen : payload.length ≤ maxRunPayload) :
    decodeRunRequest (runRequestPayload requestId deploymentId payload) =
      .ok ⟨requestId, deploymentId, payload⟩ := by
  have hsmall : payload.length < 256 ^ 4 := lt_of_le_of_lt hlen (by decide)
  have hsplit : runRequestPayload requestId deploymentId payload =
      [le 8 requestId, le 8 deploymentId, le 4 payload.length].flatten ++ payload := by
    simp [runRequestPayload]
  have hlong : ¬ (runRequestPayload requestId deploymentId payload).length < 20 := by
    rw [hsplit, List.length_append]
    simp only [List.length_flatten, List.map_cons, List.map_nil, length_le, List.sum_cons,
      List.sum_nil]
    omega
  have hheader : Reads (do
      let requestId ← int 8
      let deploymentId ← int 8
      let declaredLen ← int 4
      pure (requestId, deploymentId, declaredLen))
      [le 8 requestId, le 8 deploymentId, le 4 payload.length]
      (requestId, deploymentId, payload.length) := by
    apply (reads_int hreq).bind
    apply (reads_int hdep).bind
    apply (reads_int hsmall).bind
    exact .nothing _
  rw [decodeRunRequest, if_neg hlong, hsplit]
  dsimp only
  rw [hheader payload]
  dsimp only
  rw [if_neg (by omega)]

end RoundTrip

/-- Every start, stop and run message of the core is read by the worker as what the core meant. -/
theorem control_messages_decode (lossy : FromUtf8Lossy) :
    (∀ (podId outLen : ℕ) (d : Deployment), podId < 2 ^ 64 → startPodFrameBytesMax ≤ outLen →
      d.Typed → d.Validated → d.HasTexts →
      ∃ payload cmd, encodeStartPodFrame podId d outLen = .ok (workerFrame 0x02 payload) ∧
        payload.length ≤ maxFramePayload ∧
        decodeControlMessage lossy 0x02 payload = .ok (.startPod cmd) ∧ cmd.Matches podId d ∧
        ((cmd.imagePullRegistry = "" ∧ cmd.imagePullUsername = "" ∧ cmd.imagePullPassword = "") ↔
          d.imagePullRegistry = zeroes 128 ∧ d.imagePullUsername = zeroes 64 ∧
            d.imagePullPassword = zeroes 256)) ∧
    (∀ podId gracePeriodMs : ℕ, podId < 2 ^ 64 → gracePeriodMs < 2 ^ 64 →
      ∃ payload, stopPodFrame podId gracePeriodMs = workerFrame 0x03 payload ∧
        payload.length ≤ maxFramePayload ∧
        decodeControlMessage lossy 0x03 payload = .ok (.stopPod ⟨podId, gracePeriodMs⟩)) ∧
    ∀ (requestId deploymentId : ℕ) (body : List UInt8), requestId < 2 ^ 64 →
      deploymentId < 2 ^ 64 → body.length ≤ 512 →
      (runRequestPayload requestId deploymentId body).length ≤ maxFramePayload ∧
        decodeControlMessage lossy 0x04 (runRequestPayload requestId deploymentId body) =
          .ok (.runRequest ⟨requestId, deploymentId, body⟩) := by
  refine ⟨?_, ?_, ?_⟩
  · intro podId outLen d hpod hout hd hv htexts
    obtain ⟨cmd, hcmd⟩ := exists_matches podId htexts
    have hcount : d.envCount ≤ startPodEnvMax := hv.env.trans hd.env.le
    refine ⟨startPodPayload podId d, cmd, ?_, ?_, ?_, hcmd, ?_⟩
    · rw [encodeStartPodFrame, if_neg (not_lt.mpr hcount), if_neg (not_lt.mpr hout)]
    · calc
        (startPodPayload podId d).length ≤
            startPodFixedBytes + d.envCount * startPodEnvBytes + startPodRegistryAuthBytes :=
          length_startPodPayload hv.env
        _ ≤ startPodFixedBytes + startPodEnvMax * startPodEnvBytes + startPodRegistryAuthBytes := by gcongr
        _ ≤ maxFramePayload := by decide
    · rw [decodeControlMessage, decodeStartPod_startPodPayload lossy hpod hd hv hcmd]
      rfl
    · rw [spells_empty_iff hcmd.imagePullRegistry, spells_empty_iff hcmd.imagePullUsername,
        spells_empty_iff hcmd.imagePullPassword]
  · intro podId gracePeriodMs hpod hgrace
    refine ⟨_, rfl, ?_, ?_⟩
    · simp only [List.length_flatten, List.map_cons, List.map_nil, length_le]
      decide
    · rw [decodeControlMessage, decodeStopPod_stopPod hpod hgrace]
      rfl
  · intro requestId deploymentId body hreq hdep hbody
    constructor
    · have hmax : maxFramePayload = 16384 := rfl
      simp only [runRequestPayload, List.length_flatten, List.map_cons, List.map_nil, length_le,
        List.sum_cons, List.sum_nil]
      omega
    · rw [decodeControlMessage, decodeRunRequest_runRequestPayload hreq hdep hbody]
      rfl

/-- A deployment with an image, one environment entry and a registry password. -/
def privateDeployment : Deployment :=
  let env : Hivemind.EnvEntry := { name := strToFixed 64 (utf8 "A"), value := strToFixed 256 (utf8 "b") }
  StateMachine.deploymentOf
    { image := strToFixed 256 (utf8 "img"), port := 80, envVars := env :: List.replicate 15 {},
      envCount := 1, imagePullPassword := strToFixed 256 (utf8 "pw"),
      imagePullPasswordIsSecret := 1 } 9

theorem spells_zeroes (n : ℕ) : Spells (zeroes n) "" :=
  ⟨List.not_mem_nil, Nat.zero_le n, (strToFixed_nil n).symm⟩

theorem control_messages_decode_private :
    ∃ payload cmd, encodeStartPodFrame 5 privateDeployment startPodFrameBytesMax =
        .ok (workerFrame 0x02 payload) ∧
      decodeControlMessage .strict 0x02 payload = .ok (.startPod cmd) ∧
      cmd.Matches 5 privateDeployment ∧
      decodeControlMessage .strict 0x04 (runRequestPayload 1 2 [3]) = .ok (.runRequest ⟨1, 2, [3]⟩) ∧
      ∃ stop, stopPodFrame 5 0 = workerFrame 0x03 stop ∧
        decodeControlMessage .strict 0x03 stop = .ok (.stopPod ⟨5, 0⟩) := by
  have hspell : ∀ {n : ℕ} (s : String), 0 ∉ utf8 s → (utf8 s).length ≤ n →
      IsText (strToFixed n (utf8 s)) := fun s hnul hlen => ⟨s, hnul, hlen, rfl⟩
  have hnone : ∀ n, IsText (zeroes n) := fun n => ⟨"", spells_zeroes n⟩
  obtain ⟨hstart, hstop, hrun⟩ := control_messages_decode .strict
  obtain ⟨payload, cmd, hframe, -, hdecode, hcmd, -⟩ := hstart 5 startPodFrameBytesMax
    privateDeployment (by decide) le_rfl
    ⟨by decide, by decide, by decide, by decide, by decide, by decide, by decide, by decide, rfl⟩
    ⟨by decide, by decide⟩
    ⟨hspell "img" (by decide) (by decide), hnone _, hnone _, hnone _, hnone _,
      by
        intro e he
        rw [List.mem_singleton.mp he]
        exact ⟨hspell "A" (by decide) (by decide), hspell "b" (by decide) (by decide)⟩,
      hnone _, hnone _, hspell "pw" (by decide) (by decide)⟩
  obtain ⟨stop, hsend, -, hread⟩ := hstop 5 0 (by decide) (by decide)
  exact ⟨payload, cmd, hframe, hdecode, hcmd, (hrun 1 2 [3] (by decide) (by decide) (by decide)).2,
    stop, hsend, hread⟩

end Agent

end Hivemind
