import Hivemind.WorkerReports
import Hivemind.Framing

/-! The commands of the API: the payloads the handlers of `handlers.go` build against
`parseClientCommand` of `connection.zig`, and the bytes of `sendClientReply` against `parseResult`
of `client.go`. The bounds on the size of a JSON body and the spans of the latency recorder are
left out. -/
namespace Hivemind

open Codec Scan

/-! ### The handlers -/

namespace Api

/-- What a handler answers with `writeErr`. -/
structure HttpError where
  status : ℕ
  text : String
  deriving DecidableEq

def badRequest (text : String) : HttpError := ⟨400, text⟩

/-- `stringFitsWire`. Strings of a decoded JSON body are valid UTF-8. -/
def stringFitsWire (value : String) (maximum : ℕ) : Bool :=
  decide ((utf8 value).length ≤ maximum) && !(utf8 value).contains 0

/-- The bytes of `writeFixedStr` in a field of `n` bytes. -/
def writeFixedStr (n : ℕ) (s : String) : List UInt8 := (strToFixed n (utf8 s)).toList

/-- `unicode.IsSpace`. -/
def isSpace (c : Char) : Bool :=
  [0x09, 0x0a, 0x0b, 0x0c, 0x0d, 0x20, 0x85, 0xa0, 0x1680, 0x2028, 0x2029, 0x202f, 0x205f,
    0x3000].contains c.toNat || decide (0x2000 ≤ c.toNat ∧ c.toNat ≤ 0x200a)

/-- `strings.TrimSpace(s) != ""`. -/
def hasText (s : String) : Bool := s.toList.any fun c => !isSpace c

def gpuTypeMap (name : String) : ℕ :=
  match name with
  | "none" => 0
  | "a100_40" => 1
  | "a100_80" => 2
  | "h100_sxm" => 3
  | "h100_pcie" => 4
  | "h200" => 5
  | "l40s" => 6
  | "a10g" => 7
  | "t4" => 8
  | _ => 0

structure CreateRequest where
  name : String
  image : String
  replicas : ℕ := 0
  cpu : ℕ := 0
  memory : ℕ := 0
  gpuType : String := ""
  gpuCount : ℕ := 0
  imagePullRegistry : String := ""
  imagePullUsername : String := ""
  imagePullPassword : String := ""
  imagePullPasswordSecret : Bool := false

/-- `hasPullAuth`. -/
def CreateRequest.hasPullAuth (req : CreateRequest) : Bool :=
  hasText req.imagePullRegistry || hasText req.imagePullUsername || hasText req.imagePullPassword

/-- The replicas after the default has been put in. -/
def CreateRequest.replicasOrOne (req : CreateRequest) : ℕ :=
  if req.replicas = 0 then 1 else req.replicas

def createBase (req : CreateRequest) : List (List UInt8) :=
  [writeFixedStr 64 req.name, (zeroes 64).toList, writeFixedStr 256 req.image,
    le 4 req.replicasOrOne, le 4 req.cpu, le 4 req.memory, le 1 (gpuTypeMap req.gpuType),
    le 1 req.gpuCount]

def createPullExt (req : CreateRequest) : List (List UInt8) :=
  [writeFixedStr 128 req.imagePullRegistry, writeFixedStr 64 req.imagePullUsername,
    writeFixedStr 256 req.imagePullPassword, le 1 (if req.imagePullPasswordSecret then 1 else 0)]

/-- The command tag and payload that `handleCreateDeployment` sends. -/
def handleCreateDeployment (req : CreateRequest) : Except HttpError (ℕ × List UInt8) :=
  if req.name = "" then .error (badRequest "name is required")
  else if req.image = "" then .error (badRequest "image is required")
  else if !stringFitsWire req.name 64 || !stringFitsWire req.image 256 ||
      !stringFitsWire req.imagePullRegistry 128 || !stringFitsWire req.imagePullUsername 64 ||
      !stringFitsWire req.imagePullPassword 256 then
    .error (badRequest "string field exceeds wire maximum or contains NUL")
  else .ok (3, (createBase req ++ if req.hasPullAuth then createPullExt req else []).flatten)

structure UpdateRequest where
  image : String
  cpu : ℕ := 0
  memory : ℕ := 0
  gpuType : String := ""
  gpuCount : ℕ := 0

def updatePieces (depId : ℕ) (req : UpdateRequest) : List (List UInt8) :=
  [le 8 depId, writeFixedStr 256 req.image, (zeroes 256).toList, le 2 0, le 4 req.cpu,
    le 4 req.memory, le 1 (gpuTypeMap req.gpuType), le 1 req.gpuCount]

def handleUpdateDeployment (depId : ℕ) (req : UpdateRequest) : Except HttpError (ℕ × List UInt8) :=
  if req.image = "" then .error (badRequest "image is required")
  else if !stringFitsWire req.image 256 then
    .error (badRequest "image exceeds wire maximum 256 bytes or contains NUL")
  else .ok (10, (updatePieces depId req).flatten)

def handleScaleDeployment (depId replicas : ℕ) : ℕ × List UInt8 :=
  (6, [le 8 depId, le 4 replicas].flatten)

/-- The bytes of one rule. -/
def trafficRule (r : TrafficRule) : List UInt8 := [le 4 r.version, le 1 r.weight].flatten

/-- The four rule fields; those without a rule stay zero. -/
def trafficRules (rules : List TrafficRule) : List TrafficRule :=
  rules ++ List.replicate (4 - rules.length) ({} : TrafficRule)

def handleSetTrafficSplit (depId : ℕ) (rules : List TrafficRule) :
    Except HttpError (ℕ × List UInt8) :=
  if rules.length > 4 then .error (badRequest "max 4 traffic rules")
  else .ok (11, ([le 8 depId] ++ (trafficRules rules).map trafficRule ++
    [le 1 rules.length]).flatten)

/-- `simpleDeploymentCommand`. -/
def simpleDeploymentCommand (cmdTag depId : ℕ) : ℕ × List UInt8 := (cmdTag, le 8 depId)

def handleRollbackDeployment : ℕ → ℕ × List UInt8 := simpleDeploymentCommand 12
def handleDeleteDeployment : ℕ → ℕ × List UInt8 := simpleDeploymentCommand 13
def handlePauseDeployment : ℕ → ℕ × List UInt8 := simpleDeploymentCommand 14
def handleResumeDeployment : ℕ → ℕ × List UInt8 := simpleDeploymentCommand 15

structure CommandResult where
  ok : Bool
  entityId : ℕ := 0
  errCode : ℕ := 0
  deriving DecidableEq

def parseResult (reply : List UInt8) (expectedRequestId : ℕ) : Except String CommandResult :=
  if reply.length < 9 then .error ("reply too short: " ++ toString reply.length ++ " bytes")
  else
    let replyRequestId := ofLe (reply.take 8)
    let resultType := (reply.getD 8 0).toNat
    if replyRequestId ≠ expectedRequestId then
      .error ("reply request_id mismatch: got " ++ toString replyRequestId ++ " want " ++
        toString expectedRequestId)
    else match resultType with
      | 0 =>
        if reply.length ≠ 17 then
          .error ("ok reply length " ++ toString reply.length ++ ", want 17")
        else .ok { ok := true, entityId := ofLe ((reply.drop 9).take 8) }
      | 1 =>
        if reply.length ≠ 10 then
          .error ("err reply length " ++ toString reply.length ++ ", want 10")
        else .ok { ok := false, errCode := (reply.getD 9 0).toNat }
      | t => .error ("unknown result type: " ++ toString t)

end Api

/-! ### The core -/

/-- A payload of at least this length, of which the first bytes are read. -/
def parsePrefix {α : Type} (len : ℕ) (s : Scan DecodeError α) (fields : List UInt8) : Option α :=
  if fields.length < len then none else (s.value fields).toOption

def scanRegisterNode : Scan DecodeError RegisterNodeCmd := do
  let nodeName ← field (bytes 64)
  let cpuMillicores ← field Wire.u32
  let memoryMegabytes ← field Wire.u32
  let gpuType ← field Wire.gpuType
  let gpuCount ← field Wire.u8
  let provider ← field (bytes 32)
  let region ← field (bytes 32)
  pure { nodeName, cpuMillicores, memoryMegabytes, gpuType, gpuCount, provider, region }

def scanCreateDeployment : Scan DecodeError CreateDeploymentCmd := do
  let name ← field (bytes 64)
  let namespaceName ← field (bytes 64)
  let image ← field (bytes 256)
  let replicas ← field Wire.u32
  let cpuMillicores ← field Wire.u32
  let memoryMegabytes ← field Wire.u32
  let gpuType ← field Wire.gpuType
  let gpuCount ← field Wire.u8
  pure { name, namespaceName, image, replicas, cpuMillicores, memoryMegabytes, gpuType, gpuCount }

def scanImagePull (cmd : CreateDeploymentCmd) : Scan DecodeError CreateDeploymentCmd := do
  let imagePullRegistry ← field (bytes 128)
  let imagePullUsername ← field (bytes 64)
  let imagePullPassword ← field (bytes 256)
  let imagePullPasswordIsSecret ← field Wire.u8
  pure { cmd with imagePullRegistry, imagePullUsername, imagePullPassword, imagePullPasswordIsSecret }

/-- The command with its optional extension. -/
def parseCreateDeployment (fields : List UInt8) : Option CreateDeploymentCmd :=
  if fields.length < 398 then none
  else match scanCreateDeployment.run fields with
    | .error _ => none
    | .ok (cmd, rest) =>
      if fields.length ≥ 398 + (128 + 64 + 256 + 1) then ((scanImagePull cmd).value rest).toOption
      else some cmd

def scanUpdateDeployment : Scan DecodeError UpdateDeploymentCmd := do
  let deploymentId ← field Wire.u64
  let image ← field (bytes 256)
  let entrypoint ← field (bytes 256)
  let port ← field Wire.u16
  let cpuMillicores ← field Wire.u32
  let memoryMegabytes ← field Wire.u32
  let gpuType ← field Wire.gpuType
  let gpuCount ← field Wire.u8
  pure { deploymentId, image, entrypoint, port, cpuMillicores, memoryMegabytes, gpuType, gpuCount }

def scanTrafficSplit : Scan DecodeError SetTrafficSplitCmd := do
  let deploymentId ← field Wire.u64
  let rules ← times (field Wire.trafficRule) 4
  let ruleCount ← field Wire.u8
  pure { deploymentId, rules, ruleCount }

def scanScale : Scan DecodeError (ℕ × ℕ) := do
  let deploymentId ← field Wire.u64
  let desiredReplicas ← field Wire.u32
  pure (deploymentId, desiredReplicas)

/-- The command in the fields of a request, before it is validated. -/
def readClientCommand (tag : ℕ) (fields : List UInt8) : Option Command :=
  match tag with
  | 0 => (parsePrefix 138 scanRegisterNode fields).map .registerNode
  | 3 => (parseCreateDeployment fields).map .createDeployment
  | 6 => (parsePrefix 12 scanScale fields).map fun (id, n) => .scaleDeployment id n
  | 10 => (parsePrefix 532 scanUpdateDeployment fields).map .updateDeployment
  | 11 => (parsePrefix 29 scanTrafficSplit fields).map .setTrafficSplit
  | 12 => (parsePrefix 8 (field Wire.u64) fields).map .rollbackDeployment
  | 13 => (parsePrefix 8 (field Wire.u64) fields).map .deleteDeployment
  | 14 => (parsePrefix 8 (field Wire.u64) fields).map .pauseDeployment
  | 15 => (parsePrefix 8 (field Wire.u64) fields).map .resumeDeployment
  | _ => none

def parseClientCommand (tag : ℕ) (fields : List UInt8) : Option Command :=
  match readClientCommand tag fields with
  | none => none
  | some command => match validateCommand command with
    | .error _ => none
    | .ok () => some command

/-- The result at the end of a reply. -/
def replyResult : Result → List UInt8
  | .ok entityId => le 1 0 ++ le 8 entityId
  | .err code => le 1 1 ++ Wire.errorCode.write code

/-- The content of the frame `sendClientReply` sends. -/
def sendClientReply (requestId : ℕ) (result : Result) : List UInt8 :=
  versioned 0x21 (le 8 requestId ++ replyResult result)

/-! ### What the API means is what the core reads -/

namespace Api

/-- The GPU type an API name stands for; an unknown name stands for none. -/
def gpuTypeNamed (name : String) : GpuType :=
  match name with
  | "a100_40" => .a100_40
  | "a100_80" => .a100_80
  | "h100_sxm" => .h100_sxm
  | "h100_pcie" => .h100_pcie
  | "h200" => .h200
  | "l40s" => .l40s
  | "a10g" => .a10g
  | "t4" => .t4
  | _ => .none

theorem reads_gpuTypeMap (name : String) :
    Reads (field Wire.gpuType) [le 1 (gpuTypeMap name)] (gpuTypeNamed name) := by
  apply Reads.field_of_write rfl
  unfold gpuTypeMap
  split
  any_goals rfl
  · unfold gpuTypeNamed
    split
    any_goals contradiction
    rfl

/-- The command a create request asks for. Credentials are sent if one of them has text. -/
def CreateRequest.command (req : CreateRequest) : CreateDeploymentCmd :=
  let base : CreateDeploymentCmd :=
    { name := strToFixed 64 (utf8 req.name), image := strToFixed 256 (utf8 req.image),
      replicas := req.replicasOrOne, cpuMillicores := req.cpu, memoryMegabytes := req.memory,
      gpuType := gpuTypeNamed req.gpuType, gpuCount := req.gpuCount }
  if req.hasPullAuth then
    { base with
      imagePullRegistry := strToFixed 128 (utf8 req.imagePullRegistry)
      imagePullUsername := strToFixed 64 (utf8 req.imagePullUsername)
      imagePullPassword := strToFixed 256 (utf8 req.imagePullPassword)
      imagePullPasswordIsSecret := if req.imagePullPasswordSecret then 1 else 0 }
  else base

def UpdateRequest.command (depId : ℕ) (req : UpdateRequest) : UpdateDeploymentCmd :=
  { deploymentId := depId, image := strToFixed 256 (utf8 req.image), cpuMillicores := req.cpu,
    memoryMegabytes := req.memory, gpuType := gpuTypeNamed req.gpuType, gpuCount := req.gpuCount }

/-- The numbers of the body are of the types the handler decodes them to. -/
structure CreateRequest.Typed (req : CreateRequest) : Prop where
  replicas : req.replicas < 2 ^ 32
  cpu : req.cpu < 2 ^ 32
  memory : req.memory < 2 ^ 32
  gpuCount : req.gpuCount < 2 ^ 8

structure UpdateRequest.Typed (req : UpdateRequest) : Prop where
  cpu : req.cpu < 2 ^ 32
  memory : req.memory < 2 ^ 32
  gpuCount : req.gpuCount < 2 ^ 8

theorem fixedToSlice_of_fits {n : ℕ} {s : String} (h : stringFitsWire s n = true) :
    fixedToSlice (strToFixed n (utf8 s)) = utf8 s := by
  rw [stringFitsWire, Bool.and_eq_true, decide_eq_true_eq, Bool.not_eq_true'] at h
  apply fixedToSlice_strToFixed h.1
  intro hmem
  rw [List.contains_iff_mem.mpr hmem] at h
  exact absurd h.2 (by decide)

theorem reads_createBase {req : CreateRequest} (h : req.Typed) :
    Reads scanCreateDeployment (createBase req)
      { name := strToFixed 64 (utf8 req.name), image := strToFixed 256 (utf8 req.image),
        replicas := req.replicasOrOne, cpuMillicores := req.cpu, memoryMegabytes := req.memory,
        gpuType := gpuTypeNamed req.gpuType, gpuCount := req.gpuCount } := by
  have hreplicas : req.replicasOrOne < 2 ^ 32 := by
    rw [CreateRequest.replicasOrOne]
    split
    · decide
    · exact h.replicas
  apply (reads_bytes _).bind
  apply (reads_bytes _).bind
  apply (reads_bytes _).bind
  apply (reads_uint hreplicas).bind
  apply (reads_uint h.cpu).bind
  apply (reads_uint h.memory).bind
  apply (reads_gpuTypeMap _).bind
  apply (reads_uint h.gpuCount).bind
  exact .nothing _

theorem reads_createPullExt (req : CreateRequest) (cmd : CreateDeploymentCmd) :
    Reads (scanImagePull cmd) (createPullExt req)
      { cmd with
        imagePullRegistry := strToFixed 128 (utf8 req.imagePullRegistry)
        imagePullUsername := strToFixed 64 (utf8 req.imagePullUsername)
        imagePullPassword := strToFixed 256 (utf8 req.imagePullPassword)
        imagePullPasswordIsSecret := if req.imagePullPasswordSecret then 1 else 0 } := by
  apply (reads_bytes _).bind
  apply (reads_bytes _).bind
  apply (reads_bytes _).bind
  apply (reads_uint (by split <;> decide)).bind
  exact .nothing _

theorem length_createBase (req : CreateRequest) : (createBase req).flatten.length = 398 := by
  simp [createBase, writeFixedStr]

theorem length_createPullExt (req : CreateRequest) : (createPullExt req).flatten.length = 449 := by
  simp [createPullExt, writeFixedStr]

theorem parseCreateDeployment_payload {req : CreateRequest} (h : req.Typed) :
    parseCreateDeployment
      (createBase req ++ if req.hasPullAuth then createPullExt req else []).flatten =
        some req.command := by
  have hbase := length_createBase req
  have hext := length_createPullExt req
  rw [List.flatten_append, parseCreateDeployment, List.length_append, hbase,
    if_neg (by omega), reads_createBase h, CreateRequest.command]
  dsimp only
  cases hauth : req.hasPullAuth with
  | false => rfl
  | true =>
    rw [if_pos rfl, if_pos rfl, hext, if_pos (by omega), (reads_createPullExt req _).value]
    rfl

theorem parsePrefix_flatten {α : Type} {len : ℕ} {s : Scan DecodeError α}
    {pieces : List (List UInt8)} {a : α} (hlen : pieces.flatten.length = len)
    (h : Reads s pieces a) : parsePrefix len s pieces.flatten = some a := by
  rw [parsePrefix, if_neg (by omega), h.value]
  rfl

theorem parsePrefix_update {depId : ℕ} {req : UpdateRequest} (hdep : depId < 2 ^ 64)
    (h : req.Typed) :
    parsePrefix 532 scanUpdateDeployment (updatePieces depId req).flatten =
      some (req.command depId) := by
  apply parsePrefix_flatten
  · simp [updatePieces, writeFixedStr]
  · apply (reads_uint hdep).bind
    apply (reads_bytes _).bind
    apply (reads_bytes _).bind
    apply (reads_uint (by decide)).bind
    apply (reads_uint h.cpu).bind
    apply (reads_uint h.memory).bind
    apply (reads_gpuTypeMap _).bind
    apply (reads_uint h.gpuCount).bind
    exact .nothing _

theorem parsePrefix_scale {depId replicas : ℕ} (hdep : depId < 2 ^ 64) (h : replicas < 2 ^ 32) :
    parsePrefix 12 scanScale [le 8 depId, le 4 replicas].flatten = some (depId, replicas) := by
  apply parsePrefix_flatten
  · simp
  · apply (reads_uint hdep).bind
    apply (reads_uint h).bind
    exact .nothing _

theorem parsePrefix_id {depId : ℕ} (hdep : depId < 2 ^ 64) :
    parsePrefix 8 (field Wire.u64) (le 8 depId) = some depId := by
  have hread : parsePrefix 8 (field Wire.u64) [le 8 depId].flatten = some depId :=
    parsePrefix_flatten (by simp only [List.flatten_singleton, length_le]) (reads_uint hdep)
  rwa [List.flatten_singleton] at hread

/-- Every rule of the body is of the types the handler decodes it to. -/
def TypedRules (rules : List TrafficRule) : Prop :=
  ∀ r ∈ rules, r.version < 2 ^ 32 ∧ r.weight < 2 ^ 8

theorem reads_trafficRule {r : TrafficRule} (h : r.version < 2 ^ 32 ∧ r.weight < 2 ^ 8) :
    Reads (field Wire.trafficRule) [trafficRule r] r := by
  apply Reads.field_of_write
  · show (decide (r.version < 256 ^ 4) && decide (r.weight < 256 ^ 1)) = true
    rw [Bool.and_eq_true, decide_eq_true_eq, decide_eq_true_eq]
    exact h
  · show le 4 r.version ++ le 1 r.weight = _
    rw [trafficRule, List.flatten_cons, List.flatten_singleton]

theorem length_trafficRules {rules : List TrafficRule} (h : rules.length ≤ 4) :
    (trafficRules rules).length = 4 := by
  rw [trafficRules, List.length_append, List.length_replicate]
  omega

theorem parsePrefix_traffic {depId : ℕ} {rules : List TrafficRule} (hdep : depId < 2 ^ 64)
    (hrules : TypedRules rules) (hlen : rules.length ≤ 4) :
    parsePrefix 29 scanTrafficSplit
      ([le 8 depId] ++ (trafficRules rules).map trafficRule ++ [le 1 rules.length]).flatten =
        some { deploymentId := depId, rules := trafficRules rules, ruleCount := rules.length } := by
  have hfour := length_trafficRules hlen
  have hall : List.Forall₂ (fun r r' => Reads (field Wire.trafficRule) [trafficRule r] r')
      (trafficRules rules) (trafficRules rules) := by
    apply List.forall₂_same.mpr
    intro r hr
    apply reads_trafficRule
    rcases List.mem_append.mp hr with hr | hr
    · exact hrules r hr
    · rw [List.eq_of_mem_replicate hr]
      decide
  have hloop := Reads.times hall
  rw [hfour] at hloop
  apply parsePrefix_flatten
  · have hwidth : List.length ∘ trafficRule = fun _ => 5 := by
      funext r
      simp [trafficRule]
    simp only [List.flatten_append, List.length_append, List.flatten_singleton, length_le,
      List.length_flatten, List.map_map, hwidth, List.map_const', List.sum_replicate, hfour]
    rfl
  · apply (reads_uint hdep).bind
    apply hloop.append
    apply (reads_uint (show rules.length < 256 ^ 1 by omega)).bind
    exact .nothing _

/-- The result as the API has it. -/
def resultOf : Result → CommandResult
  | .ok entityId => { ok := true, entityId }
  | .err code => { ok := false, errCode := ofLe (Wire.errorCode.write code) }

theorem parseResult_sendClientReply {requestId : ℕ} (hreq : requestId < 2 ^ 64) {result : Result}
    (hresult : ∀ id, result = .ok id → id < 2 ^ 64) :
    parseResult ((sendClientReply requestId result).drop 3) requestId = .ok (resultOf result) := by
  have hdrop : (sendClientReply requestId result).drop 3 = le 8 requestId ++ replyResult result :=
    (versioned_parts 0x21 _).2.2.2
  have htake : ofLe ((le 8 requestId ++ replyResult result).take 8) = requestId := by
    rw [List.take_left' (length_le 8 _), ofLe_le hreq]
  rw [hdrop, parseResult, htake]
  cases result with
  | ok entityId =>
    have hlen : (le 8 requestId ++ replyResult (.ok entityId)).length = 17 := by
      simp only [replyResult, List.length_append, length_le]
    have hid : ((le 8 requestId ++ replyResult (.ok entityId)).drop 9).take 8 = le 8 entityId := by
      rw [replyResult, ← List.append_assoc,
        List.drop_left' (by simp only [List.length_append, length_le]),
        List.take_of_length_le (by rw [length_le])]
    rw [hlen, if_neg (by decide), hid, ofLe_le (hresult entityId rfl)]
    rw [if_neg (not_not.mpr rfl)]
    rfl
  | err code =>
    have hlen : (le 8 requestId ++ replyResult (.err code)).length = 10 := by
      have hcode : (Wire.errorCode.write code).length = 1 := Wire.errorCode.length_write code rfl
      simp only [replyResult, List.length_append, length_le, hcode]
    rw [if_neg (not_not.mpr rfl)]
    cases code <;> rfl

/-- The strings of the command are those of the body, whole. -/
structure CreateRequest.Whole (req : CreateRequest) : Prop where
  name : fixedToSlice req.command.name = utf8 req.name
  image : fixedToSlice req.command.image = utf8 req.image
  registry : req.hasPullAuth = true →
    fixedToSlice req.command.imagePullRegistry = utf8 req.imagePullRegistry
  username : req.hasPullAuth = true →
    fixedToSlice req.command.imagePullUsername = utf8 req.imagePullUsername
  password : req.hasPullAuth = true →
    fixedToSlice req.command.imagePullPassword = utf8 req.imagePullPassword

theorem handleCreateDeployment_spec {req : CreateRequest} {tag : ℕ} {payload : List UInt8}
    (htyped : req.Typed) (h : handleCreateDeployment req = .ok (tag, payload)) :
    parseClientCommand tag payload = some (.createDeployment req.command) ∧ req.Whole := by
  rw [handleCreateDeployment] at h
  split at h
  · cases h
  split at h
  · cases h
  split at h
  · cases h
  next hfits =>
  cases h
  have hparse := parseCreateDeployment_payload htyped
  have hvalid : validateCommand (.createDeployment req.command) = .ok () := by
    have hsecret : req.command.imagePullPasswordIsSecret ≤ 1 := by
      rw [CreateRequest.command]
      split
      · dsimp only
        split <;> decide
      · exact Nat.zero_le 1
    have hcount : req.command.envCount = 0 := by
      rw [CreateRequest.command]
      split <;> rfl
    rw [validateCommand, hcount, if_neg (Nat.not_lt_zero _), if_neg (not_lt.mpr hsecret)]
  constructor
  · rw [parseClientCommand, readClientCommand, hparse]
    dsimp only [Option.map_some]
    rw [hvalid]
  · simp only [Bool.or_eq_true, Bool.not_eq_true', not_or, Bool.not_eq_false] at hfits
    obtain ⟨⟨⟨⟨hname, himage⟩, hregistry⟩, husername⟩, hpassword⟩ := hfits
    refine ⟨?_, ?_, ?_, ?_, ?_⟩
    · rw [CreateRequest.command]
      split <;> exact fixedToSlice_of_fits hname
    · rw [CreateRequest.command]
      split <;> exact fixedToSlice_of_fits himage
    · intro hauth
      rw [CreateRequest.command, if_pos hauth]
      exact fixedToSlice_of_fits hregistry
    · intro hauth
      rw [CreateRequest.command, if_pos hauth]
      exact fixedToSlice_of_fits husername
    · intro hauth
      rw [CreateRequest.command, if_pos hauth]
      exact fixedToSlice_of_fits hpassword

theorem handleUpdateDeployment_spec {depId : ℕ} {req : UpdateRequest} {tag : ℕ}
    {payload : List UInt8} (hdep : depId < 2 ^ 64) (htyped : req.Typed)
    (h : handleUpdateDeployment depId req = .ok (tag, payload)) :
    parseClientCommand tag payload = some (.updateDeployment (req.command depId)) ∧
      fixedToSlice (req.command depId).image = utf8 req.image := by
  rw [handleUpdateDeployment] at h
  split at h
  · cases h
  split at h
  · cases h
  next hfits =>
  cases h
  constructor
  · rw [parseClientCommand, readClientCommand, parsePrefix_update hdep htyped]
    rfl
  · rw [Bool.not_eq_true', Bool.not_eq_false] at hfits
    exact fixedToSlice_of_fits hfits

theorem handleSetTrafficSplit_spec {depId tag : ℕ} {rules : List TrafficRule}
    {payload : List UInt8} (hdep : depId < 2 ^ 64) (hrules : TypedRules rules)
    (h : handleSetTrafficSplit depId rules = .ok (tag, payload)) :
    parseClientCommand tag payload = some (.setTrafficSplit
      { deploymentId := depId, rules := trafficRules rules, ruleCount := rules.length }) := by
  rw [handleSetTrafficSplit] at h
  split at h
  · cases h
  next hlen =>
  cases h
  have hfour := length_trafficRules (not_lt.mp hlen)
  rw [parseClientCommand, readClientCommand, parsePrefix_traffic hdep hrules (not_lt.mp hlen)]
  dsimp only [Option.map_some]
  rw [validateCommand, hfour, if_neg hlen]

end Api

open Api

/-- Every request that a handler of the API sends is read by the core as the command it means, and
every reply of the core is read by the API as the result it carries. -/
theorem api_commands_decode :
    (∀ (req : CreateRequest) (tag : ℕ) (payload : List UInt8), req.Typed →
      handleCreateDeployment req = .ok (tag, payload) →
      parseClientCommand tag payload = some (.createDeployment req.command) ∧ req.Whole) ∧
    (∀ (depId : ℕ) (req : UpdateRequest) (tag : ℕ) (payload : List UInt8), depId < 2 ^ 64 →
      req.Typed → handleUpdateDeployment depId req = .ok (tag, payload) →
      parseClientCommand tag payload = some (.updateDeployment (req.command depId)) ∧
        fixedToSlice (req.command depId).image = utf8 req.image) ∧
    (∀ depId replicas : ℕ, depId < 2 ^ 64 → replicas < 2 ^ 32 →
      parseClientCommand (handleScaleDeployment depId replicas).1
        (handleScaleDeployment depId replicas).2 = some (.scaleDeployment depId replicas)) ∧
    (∀ (depId : ℕ) (rules : List TrafficRule) (tag : ℕ) (payload : List UInt8), depId < 2 ^ 64 →
      TypedRules rules → handleSetTrafficSplit depId rules = .ok (tag, payload) →
      parseClientCommand tag payload = some (.setTrafficSplit
        { deploymentId := depId, rules := trafficRules rules, ruleCount := rules.length })) ∧
    (∀ depId : ℕ, depId < 2 ^ 64 →
      (∀ sent ∈ [(handleRollbackDeployment depId, Command.rollbackDeployment depId),
          (handleDeleteDeployment depId, .deleteDeployment depId),
          (handlePauseDeployment depId, .pauseDeployment depId),
          (handleResumeDeployment depId, .resumeDeployment depId)],
        parseClientCommand sent.1.1 sent.1.2 = some sent.2)) ∧
    ∀ (requestId : ℕ) (result : Result), requestId < 2 ^ 64 →
      (∀ id, result = .ok id → id < 2 ^ 64) →
      parseResult ((sendClientReply requestId result).drop 3) requestId = .ok (resultOf result) := by
  refine ⟨?_, ?_, ?_, ?_, ?_, ?_⟩
  · intro req tag payload htyped h
    exact handleCreateDeployment_spec htyped h
  · intro depId req tag payload hdep htyped h
    exact handleUpdateDeployment_spec hdep htyped h
  · intro depId replicas hdep hreplicas
    rw [handleScaleDeployment, parseClientCommand, readClientCommand,
      parsePrefix_scale hdep hreplicas]
    rfl
  · intro depId rules tag payload hdep hrules h
    exact handleSetTrafficSplit_spec hdep hrules h
  · intro depId hdep sent hsent
    -- the four share one payload and differ in the tag
    have hid := parsePrefix_id hdep
    simp only [List.mem_cons, List.not_mem_nil, or_false] at hsent
    rcases hsent with rfl | rfl | rfl | rfl
    · rw [handleRollbackDeployment, simpleDeploymentCommand, parseClientCommand, readClientCommand,
        hid]
      rfl
    · rw [handleDeleteDeployment, simpleDeploymentCommand, parseClientCommand, readClientCommand,
        hid]
      rfl
    · rw [handlePauseDeployment, simpleDeploymentCommand, parseClientCommand, readClientCommand,
        hid]
      rfl
    · rw [handleResumeDeployment, simpleDeploymentCommand, parseClientCommand, readClientCommand,
        hid]
      rfl
  · intro requestId result hreq hresult
    exact parseResult_sendClientReply hreq hresult

/-- A private image on two GPUs, a split over two versions, and an error reply. -/
theorem api_commands_decode_private :
    let req : CreateRequest :=
      { name := "web", image := "img", gpuType := "t4", gpuCount := 2, imagePullPassword := "pw" }
    (∃ tag payload, handleCreateDeployment req = .ok (tag, payload) ∧
      parseClientCommand tag payload = some (.createDeployment req.command)) ∧
    (∃ tag payload, handleSetTrafficSplit 9 [⟨1, 60⟩, ⟨2, 40⟩] = .ok (tag, payload) ∧
      parseClientCommand tag payload = some (.setTrafficSplit
        { deploymentId := 9, rules := [⟨1, 60⟩, ⟨2, 40⟩, {}, {}], ruleCount := 2 })) ∧
    parseResult ((sendClientReply 5 (.err .notLeader)).drop 3) 5 =
      .ok { ok := false, errCode := 5 } := by
  intro req
  obtain ⟨hcreate, -, -, htraffic, -, hreply⟩ := api_commands_decode
  refine ⟨⟨3, _, rfl, ?_⟩, ⟨11, _, rfl, ?_⟩, ?_⟩
  · exact (hcreate req 3 _ ⟨by decide, by decide, by decide, by decide⟩ rfl).1
  · exact htraffic 9 [⟨1, 60⟩, ⟨2, 40⟩] 11 _ (by decide) (by unfold TypedRules; decide) rfl
  · exact hreply 5 (.err .notLeader) (by decide) nofun

end Hivemind
