import Hivemind.Codec
import Hivemind.Message

/-! The canonical peer codec of `message.zig`: packed little-endian fields in declaration order,
tag-first unions padded to their largest case, and the checks that follow decoding. The source
generates the codec by recursion over types; here each type has its own, built the same way. -/
namespace Hivemind

/-- The errors of `deserialize`. -/
inductive DecodeError where
  | messageTooShort | invalidMessageTag | invalidMessageSize | invalidCommandTag | invalidResultTag
  | invalidEnumTag | invalidBool | invalidEnvCount | invalidSecretFlag | invalidRuleCount
  | invalidBindingCount | invalidLogEntryCount
  deriving DecidableEq

instance : ShortError DecodeError := ⟨.messageTooShort⟩

namespace Wire

open Codec

abbrev Format (α : Type) := Codec DecodeError α

abbrev u8 : Format ℕ := uint 1
abbrev u16 : Format ℕ := uint 2
abbrev u32 : Format ℕ := uint 4
abbrev u64 : Format ℕ := uint 8
abbrev u128 : Format ℕ := uint 16
def flag : Format Bool := bool .invalidBool

/-! ### Enumerations and shared records -/

def gpuType : Format GpuType :=
  numbered .invalidEnumTag [.none, .a100_40, .a100_80, .h100_sxm, .h100_pcie, .h200, .l40s, .a10g, .t4]
    (fun t => by cases t <;> decide) (by decide) (by decide)

def nodeStatus : Format NodeStatus :=
  numbered .invalidEnumTag
    [.provisioning, .starting, .ready, .unhealthy, .draining, .terminating, .terminated]
    (fun t => by cases t <;> decide) (by decide) (by decide)

def podPhase : Format PodPhase :=
  numbered .invalidEnumTag [.pending, .scheduled, .running, .succeeded, .failed, .terminating]
    (fun t => by cases t <;> decide) (by decide) (by decide)

def errorCode : Format ErrorCode :=
  numbered .invalidEnumTag
    [.ok, .notFound, .alreadyExists, .capacityExceeded, .invalidTransition, .notLeader, .logFull]
    (fun t => by cases t <;> decide) (by decide) (by decide)

def envEntry : Format EnvEntry :=
  ((bytes 64).pair <| (bytes 256).pair flag).imap
    (fun (name, value, isSecretRef) => ⟨name, value, isSecretRef⟩)
    (fun e => (e.name, e.value, e.isSecretRef)) (fun _ => rfl) (fun _ _ => rfl)

def trafficRule : Format TrafficRule :=
  (u32.pair u8).imap (fun (version, weight) => ⟨version, weight⟩) (fun r => (r.version, r.weight))
    (fun _ => rfl) (fun _ _ => rfl)

def probeConfig : Format ProbeConfig :=
  ((bytes 64).pair <| u32.pair <| u32.pair flag).imap
    (fun (path, intervalMs, timeoutMs, enabled) => ⟨path, intervalMs, timeoutMs, enabled⟩)
    (fun p => (p.path, p.intervalMs, p.timeoutMs, p.enabled)) (fun _ => rfl) (fun _ _ => rfl)

/-! ### Commands -/

def registerNodeCmd : Format RegisterNodeCmd :=
  ((bytes 64).pair <| u32.pair <| u32.pair <| gpuType.pair <| u8.pair <| (bytes 32).pair
    (bytes 32)).imap
    (fun (nodeName, cpu, mem, gpuType, gpuCount, provider, region) =>
      ⟨nodeName, cpu, mem, gpuType, gpuCount, provider, region⟩)
    (fun c => (c.nodeName, c.cpuMillicores, c.memoryMegabytes, c.gpuType, c.gpuCount, c.provider,
      c.region)) (fun _ => rfl) (fun _ _ => rfl)

def createDeploymentCmd : Format CreateDeploymentCmd :=
  ((bytes 64).pair <| (bytes 64).pair <| (bytes 256).pair <| (bytes 256).pair <| u16.pair <|
    u32.pair <| u32.pair <| u32.pair <| gpuType.pair <| u8.pair <| u32.pair <| u32.pair <|
    u64.pair <| u32.pair <| probeConfig.pair <| probeConfig.pair <| u32.pair <| (bytes 128).pair <|
    (array 16 envEntry).pair <| u8.pair <| (bytes 128).pair <| (bytes 64).pair <|
    (bytes 256).pair u8).imap
    (fun (name, namespaceName, image, entrypoint, port, replicas, cpu, mem, gpuType, gpuCount,
        minReplicas, maxReplicas, scaleToZeroAfterMs, targetQueueDepth, liveness, readiness,
        startupTimeoutMs, juicefsPath, envVars, envCount, registry, username, password,
        passwordIsSecret) =>
      ⟨name, namespaceName, image, entrypoint, port, replicas, cpu, mem, gpuType, gpuCount,
        minReplicas, maxReplicas, scaleToZeroAfterMs, targetQueueDepth, liveness, readiness,
        startupTimeoutMs, juicefsPath, envVars, envCount, registry, username, password,
        passwordIsSecret⟩)
    (fun c => (c.name, c.namespaceName, c.image, c.entrypoint, c.port, c.replicas, c.cpuMillicores,
      c.memoryMegabytes, c.gpuType, c.gpuCount, c.minReplicas, c.maxReplicas, c.scaleToZeroAfterMs,
      c.targetQueueDepth, c.liveness, c.readiness, c.startupTimeoutMs, c.juicefsPath, c.envVars,
      c.envCount, c.imagePullRegistry, c.imagePullUsername, c.imagePullPassword,
      c.imagePullPasswordIsSecret)) (fun _ => rfl) (fun _ _ => rfl)

def podBinding : Format PodBinding :=
  (u64.pair u64).imap (fun (podId, nodeId) => ⟨podId, nodeId⟩) (fun b => (b.podId, b.nodeId))
    (fun _ => rfl) (fun _ _ => rfl)

def bindPodsToNodesCmd : Format BindPodsToNodesCmd :=
  ((array bindBatchMax podBinding).pair u8).imap (fun (bindings, count) => ⟨bindings, count⟩)
    (fun c => (c.bindings, c.count)) (fun _ => rfl) (fun _ _ => rfl)

def updateDeploymentCmd : Format UpdateDeploymentCmd :=
  (u64.pair <| (bytes 256).pair <| (bytes 256).pair <| u16.pair <| u32.pair <| u32.pair <|
    gpuType.pair <| u8.pair <| (array 16 envEntry).pair u8).imap
    (fun (deploymentId, image, entrypoint, port, cpu, mem, gpuType, gpuCount, envVars, envCount) =>
      ⟨deploymentId, image, entrypoint, port, cpu, mem, gpuType, gpuCount, envVars, envCount⟩)
    (fun c => (c.deploymentId, c.image, c.entrypoint, c.port, c.cpuMillicores, c.memoryMegabytes,
      c.gpuType, c.gpuCount, c.envVars, c.envCount)) (fun _ => rfl) (fun _ _ => rfl)

def setTrafficSplitCmd : Format SetTrafficSplitCmd :=
  (u64.pair <| (array 4 trafficRule).pair u8).imap
    (fun (deploymentId, rules, ruleCount) => ⟨deploymentId, rules, ruleCount⟩)
    (fun c => (c.deploymentId, c.rules, c.ruleCount)) (fun _ => rfl) (fun _ _ => rfl)

/-- `@intFromEnum(std.meta.activeTag(command))`. -/
def commandTag : Command → ℕ
  | .registerNode _ => 0
  | .deregisterNode _ => 1
  | .updateNodeStatus _ _ => 2
  | .createDeployment _ => 3
  | .bindPodToNode _ _ => 4
  | .updatePodStatus _ _ => 5
  | .scaleDeployment _ _ => 6
  | .unbindPod _ => 7
  | .setKillswitch _ _ _ => 8
  | .noop => 9
  | .updateDeployment _ => 10
  | .setTrafficSplit _ => 11
  | .rollbackDeployment _ => 12
  | .deleteDeployment _ => 13
  | .pauseDeployment _ => 14
  | .resumeDeployment _ => 15
  | .bindPodsToNodes _ => 16

/-- The payloads of `Command`, in the order of the source's union. -/
def commandCases : List (Variant DecodeError Command) :=
  [.mk _ registerNodeCmd .registerNode fun | .registerNode c => some c | _ => none,
    .mk _ u64 .deregisterNode fun | .deregisterNode n => some n | _ => none,
    .mk _ (u64.pair nodeStatus) (fun (n, s) => .updateNodeStatus n s)
      fun | .updateNodeStatus n s => some (n, s) | _ => none,
    .mk _ createDeploymentCmd .createDeployment fun | .createDeployment c => some c | _ => none,
    .mk _ (u64.pair u64) (fun (p, n) => .bindPodToNode p n)
      fun | .bindPodToNode p n => some (p, n) | _ => none,
    .mk _ (u64.pair podPhase) (fun (p, s) => .updatePodStatus p s)
      fun | .updatePodStatus p s => some (p, s) | _ => none,
    .mk _ (u64.pair u32) (fun (d, n) => .scaleDeployment d n)
      fun | .scaleDeployment d n => some (d, n) | _ => none,
    .mk _ u64 .unbindPod fun | .unbindPod p => some p | _ => none,
    .mk _ (u64.pair <| u64.pair flag) (fun (n, d, on) => .setKillswitch n d on)
      fun | .setKillswitch n d on => some (n, d, on) | _ => none,
    .mk _ void (fun _ => .noop) fun | .noop => some () | _ => none,
    .mk _ updateDeploymentCmd .updateDeployment fun | .updateDeployment c => some c | _ => none,
    .mk _ setTrafficSplitCmd .setTrafficSplit fun | .setTrafficSplit c => some c | _ => none,
    .mk _ u64 .rollbackDeployment fun | .rollbackDeployment d => some d | _ => none,
    .mk _ u64 .deleteDeployment fun | .deleteDeployment d => some d | _ => none,
    .mk _ u64 .pauseDeployment fun | .pauseDeployment d => some d | _ => none,
    .mk _ u64 .resumeDeployment fun | .resumeDeployment d => some d | _ => none,
    .mk _ bindPodsToNodesCmd .bindPodsToNodes fun | .bindPodsToNodes c => some c | _ => none]

def commandVariants : Variants DecodeError Command where
  cases := commandCases
  tag := commandTag
  few := by decide
  tag_spec c := by cases c <;> exact ⟨_, rfl, _, rfl⟩
  tag_inj k v h b := by
    obtain ⟨hlt, -⟩ := List.getElem?_eq_some_iff.mp h
    have hk : k < 17 := hlt
    interval_cases k <;> cases h <;> rfl

/-- `writeCanonicalCommand` and `readCanonicalCommand`. -/
def command : Format Command := commandVariants.padded .invalidCommandTag

/-! ### Results and log entries -/

def resultTag : Result → ℕ
  | .ok _ => 0
  | .err _ => 1

def resultVariants : Variants DecodeError Result where
  cases :=
    [.mk _ u64 .ok fun | .ok n => some n | _ => none,
      .mk _ errorCode .err fun | .err c => some c | _ => none]
  tag := resultTag
  few := by decide
  tag_spec r := by cases r <;> exact ⟨_, rfl, _, rfl⟩
  tag_inj k v h b := by
    obtain ⟨hlt, -⟩ := List.getElem?_eq_some_iff.mp h
    have hk : k < 2 := hlt
    interval_cases k <;> cases h <;> rfl

/-- `writeCanonicalResult` and `readCanonicalResult`. -/
def result : Format Result := resultVariants.padded .invalidResultTag

def logEntry : Format LogEntry :=
  (u64.pair <| u64.pair <| u64.pair <| u64.pair <| command.pair <| u128.pair u128).imap
    (fun (checksum, parentChecksum, viewNumber, opNumber, command, clientId, requestId) =>
      ⟨checksum, parentChecksum, viewNumber, opNumber, command, clientId, requestId⟩)
    (fun e => (e.checksum, e.parentChecksum, e.viewNumber, e.opNumber, e.command, e.clientId,
      e.requestId)) (fun _ => rfl) (fun _ _ => rfl)

/-! ### Messages -/

def requestMsg : Format RequestMsg :=
  (u128.pair <| u128.pair command).imap
    (fun (clientId, requestId, command) => ⟨clientId, requestId, command⟩)
    (fun m => (m.clientId, m.requestId, m.command)) (fun _ => rfl) (fun _ _ => rfl)

def prepareMsg : Format PrepareMsg :=
  (u64.pair <| u64.pair <| u64.pair <| u64.pair logEntry).imap
    (fun (viewNumber, opNumber, commitMin, retentionFloor, entry) =>
      ⟨viewNumber, opNumber, commitMin, retentionFloor, entry⟩)
    (fun m => (m.viewNumber, m.opNumber, m.commitMin, m.retentionFloor, m.entry))
    (fun _ => rfl) (fun _ _ => rfl)

def prepareOkMsg : Format PrepareOkMsg :=
  (u64.pair <| u64.pair <| u8.pair <| u64.pair <| u64.pair u64).imap
    (fun (viewNumber, opNumber, replicaId, commitMin, entryChecksum, commitChecksum) =>
      ⟨viewNumber, opNumber, replicaId, commitMin, entryChecksum, commitChecksum⟩)
    (fun m => (m.viewNumber, m.opNumber, m.replicaId, m.commitMin, m.entryChecksum,
      m.commitChecksum)) (fun _ => rfl) (fun _ _ => rfl)

def commitMsg : Format CommitMsg :=
  (u64.pair <| u64.pair <| u64.pair <| u64.pair <| u64.pair u64).imap
    (fun (viewNumber, commitMin, commitMax, opNumber, retentionFloor, commitChecksum) =>
      ⟨viewNumber, commitMin, commitMax, opNumber, retentionFloor, commitChecksum⟩)
    (fun m => (m.viewNumber, m.commitMin, m.commitMax, m.opNumber, m.retentionFloor,
      m.commitChecksum)) (fun _ => rfl) (fun _ _ => rfl)

def replyMsg : Format ReplyMsg :=
  (u64.pair <| u128.pair result).imap
    (fun (viewNumber, requestId, result) => ⟨viewNumber, requestId, result⟩)
    (fun m => (m.viewNumber, m.requestId, m.result)) (fun _ => rfl) (fun _ _ => rfl)

def startViewChangeMsg : Format StartViewChangeMsg :=
  (u64.pair u8).imap (fun (viewNumber, replicaId) => ⟨viewNumber, replicaId⟩)
    (fun m => (m.viewNumber, m.replicaId)) (fun _ => rfl) (fun _ _ => rfl)

/-- `[LOG_BITSET_WORDS]u64`: the words in order are the bits in order. -/
def logBitset : Format (BitVec logBitsetBits) := bits (8 * logBitsetWords)

def doViewChangeMsg : Format DoViewChangeMsg :=
  (u64.pair <| u8.pair <| u64.pair <| u64.pair <| u64.pair <| u64.pair <|
    (array dvcLogMax logEntry).pair <| u8.pair <| logBitset.pair logBitset).imap
    (fun (viewNumber, replicaId, lastNormalView, opNumber, commitMin, retentionFloor, logEntries,
        logEntryCount, presentBitset, nackBitset) =>
      ⟨viewNumber, replicaId, lastNormalView, opNumber, commitMin, retentionFloor, logEntries,
        logEntryCount, presentBitset, nackBitset⟩)
    (fun m => (m.viewNumber, m.replicaId, m.lastNormalView, m.opNumber, m.commitMin,
      m.retentionFloor, m.logEntries, m.logEntryCount, m.presentBitset, m.nackBitset))
    (fun _ => rfl) (fun _ _ => rfl)

def startViewMsg : Format StartViewMsg :=
  (u64.pair <| u64.pair <| u64.pair <| u64.pair <| u64.pair <| u64.pair <|
    (array svLogMax logEntry).pair u8).imap
    (fun (viewNumber, selectedLastNormalView, opNumber, tipChecksum, commitMin, retentionFloor,
        logEntries, logEntryCount) =>
      ⟨viewNumber, selectedLastNormalView, opNumber, tipChecksum, commitMin, retentionFloor,
        logEntries, logEntryCount⟩)
    (fun m => (m.viewNumber, m.selectedLastNormalView, m.opNumber, m.tipChecksum, m.commitMin,
      m.retentionFloor, m.logEntries, m.logEntryCount)) (fun _ => rfl) (fun _ _ => rfl)

def requestPrepareMsg : Format RequestPrepareMsg :=
  (u64.pair <| u64.pair <| u8.pair <| u64.pair <| u64.pair <| u64.pair <| u64.pair u64).imap
    (fun (viewNumber, opNumber, source, lastNormalView, tipOp, tipChecksum, commitBound,
        entryChecksum) =>
      ⟨viewNumber, opNumber, source, lastNormalView, tipOp, tipChecksum, commitBound,
        entryChecksum⟩)
    (fun m => (m.viewNumber, m.opNumber, m.selectedSource, m.selectedLastNormalView,
      m.selectedTipOp, m.selectedTipChecksum, m.selectedCommitBound, m.expectedEntryChecksum))
    (fun _ => rfl) (fun _ _ => rfl)

def sendPrepareMsg : Format SendPrepareMsg :=
  (u64.pair <| logEntry.pair <| u8.pair <| u64.pair <| u64.pair <| u64.pair <| u64.pair u64).imap
    (fun (viewNumber, entry, source, lastNormalView, tipOp, tipChecksum, commitBound,
        entryChecksum) =>
      ⟨viewNumber, entry, source, lastNormalView, tipOp, tipChecksum, commitBound, entryChecksum⟩)
    (fun m => (m.viewNumber, m.entry, m.selectedSource, m.selectedLastNormalView, m.selectedTipOp,
      m.selectedTipChecksum, m.selectedCommitBound, m.expectedEntryChecksum))
    (fun _ => rfl) (fun _ _ => rfl)

def sendStatusMsg : Format SendStatusMsg :=
  (u64.pair <| u64.pair <| u64.pair <| u64.pair u64).imap
    (fun (viewNumber, opNumber, commitMin, tipChecksum, commitChecksum) =>
      ⟨viewNumber, opNumber, commitMin, tipChecksum, commitChecksum⟩)
    (fun m => (m.viewNumber, m.opNumber, m.commitMin, m.tipChecksum, m.commitChecksum))
    (fun _ => rfl) (fun _ _ => rfl)

/-- `@intFromEnum(std.meta.activeTag(message))`. -/
def messageTag : Message → ℕ
  | .request _ => 0
  | .prepare _ => 1
  | .prepareOk _ => 2
  | .commit _ => 3
  | .reply _ => 4
  | .startViewChange _ => 5
  | .doViewChange _ => 6
  | .startView _ => 7
  | .requestPrepare _ => 8
  | .sendPrepare _ => 9
  | .requestStatus _ => 10
  | .sendStatus _ => 11
  | .requestStartView _ => 12

def messageCases : List (Variant DecodeError Message) :=
  [.mk _ requestMsg .request fun | .request m => some m | _ => none,
    .mk _ prepareMsg .prepare fun | .prepare m => some m | _ => none,
    .mk _ prepareOkMsg .prepareOk fun | .prepareOk m => some m | _ => none,
    .mk _ commitMsg .commit fun | .commit m => some m | _ => none,
    .mk _ replyMsg .reply fun | .reply m => some m | _ => none,
    .mk _ startViewChangeMsg .startViewChange fun | .startViewChange m => some m | _ => none,
    .mk _ doViewChangeMsg .doViewChange fun | .doViewChange m => some m | _ => none,
    .mk _ startViewMsg .startView fun | .startView m => some m | _ => none,
    .mk _ requestPrepareMsg .requestPrepare fun | .requestPrepare m => some m | _ => none,
    .mk _ sendPrepareMsg .sendPrepare fun | .sendPrepare m => some m | _ => none,
    .mk _ u64 .requestStatus fun | .requestStatus v => some v | _ => none,
    .mk _ sendStatusMsg .sendStatus fun | .sendStatus m => some m | _ => none,
    .mk _ u64 .requestStartView fun | .requestStartView v => some v | _ => none]

def messageVariants : Variants DecodeError Message where
  cases := messageCases
  tag := messageTag
  few := by decide
  tag_spec m := by cases m <;> exact ⟨_, rfl, _, rfl⟩
  tag_inj k v h b := by
    obtain ⟨hlt, -⟩ := List.getElem?_eq_some_iff.mp h
    have hk : k < 13 := hlt
    interval_cases k <;> cases h <;> rfl

/-! ### Padding -/

instance : Full flag := by
  unfold flag Codec.bool
  infer_instance

instance : Full gpuType := by
  unfold gpuType numbered
  infer_instance

instance : Full nodeStatus := by
  unfold nodeStatus numbered
  infer_instance

instance : Full podPhase := by
  unfold podPhase numbered
  infer_instance

instance : Full errorCode := by
  unfold errorCode numbered
  infer_instance

instance : Full envEntry := by
  unfold envEntry
  infer_instance

instance : Full trafficRule := by
  unfold trafficRule
  infer_instance

instance : Full probeConfig := by
  unfold probeConfig
  infer_instance

instance : Full podBinding := by
  unfold podBinding
  infer_instance

theorem commandCases_full : ∀ v ∈ commandCases, Full v.codec := by
  simp only [commandCases, List.forall_mem_cons, List.not_mem_nil, false_implies, implies_true,
    and_true, registerNodeCmd, createDeploymentCmd, updateDeploymentCmd, setTrafficSplitCmd,
    bindPodsToNodesCmd]
  refine ⟨?_, ?_, ?_, ?_, ?_, ?_, ?_, ?_, ?_, ?_, ?_, ?_, ?_, ?_, ?_, ?_, ?_⟩ <;> infer_instance

theorem resultCases_full : ∀ v ∈ resultVariants.cases, Full v.codec := by
  simp only [resultVariants, List.forall_mem_cons, List.not_mem_nil, false_implies, implies_true,
    and_true]
  exact ⟨inferInstance, inferInstance⟩

end Wire

open Wire Codec

/-! ### Checks after decoding

`validateEnumValue` and `validateProbe` re-check what the types already say. -/

def validateCommand : Command → Except DecodeError Unit
  | .createDeployment c =>
    if c.envCount > c.envVars.length then .error .invalidEnvCount
    else if c.imagePullPasswordIsSecret > 1 then .error .invalidSecretFlag
    else .ok ()
  | .updateDeployment c =>
    if c.envCount > c.envVars.length then .error .invalidEnvCount else .ok ()
  | .setTrafficSplit c =>
    if c.ruleCount > c.rules.length then .error .invalidRuleCount else .ok ()
  | .bindPodsToNodes c =>
    if c.count > c.bindings.length then .error .invalidBindingCount else .ok ()
  | _ => .ok ()

def validateLogEntry (e : LogEntry) : Except DecodeError Unit := validateCommand e.command

/-- The loop over the entries that a message counts. -/
def validateLogEntries : List LogEntry → Except DecodeError Unit
  | [] => .ok ()
  | e :: rest => match validateLogEntry e with
    | .error err => .error err
    | .ok () => validateLogEntries rest

def validateDecodedMessage : Message → Except DecodeError Unit
  | .request m => validateCommand m.command
  | .prepare m => validateLogEntry m.entry
  | .doViewChange m =>
    if m.logEntryCount > dvcLogMax then .error .invalidLogEntryCount
    else validateLogEntries (m.logEntries.take m.logEntryCount)
  | .startView m =>
    if m.logEntryCount > svLogMax then .error .invalidLogEntryCount
    else validateLogEntries (m.logEntries.take m.logEntryCount)
  | .sendPrepare m => validateLogEntry m.entry
  | _ => .ok ()

/-- The bytes `serialize` writes. -/
def serialize (m : Message) : List UInt8 := messageVariants.frame m

def deserialize (buf : List UInt8) : Except DecodeError Message :=
  match messageVariants.unframe .invalidMessageTag .invalidMessageSize buf with
  | .error e => .error e
  | .ok m => match validateDecodedMessage m with
    | .error e => .error e
    | .ok () => .ok m

/-- The value is one of the source's types: integers in range, arrays of their length. -/
def Message.typed (m : Message) : Bool := messageVariants.fitsFrame m

/-! ### Where the padding is -/

/-- A command's tag and payload, then padding up to the largest payload. -/
def commandMarks (c : Command) : List Bool :=
  List.replicate (1 + commandVariants.payloadSize c) true ++
    List.replicate (commandVariants.width - commandVariants.payloadSize c) false

def resultMarks (r : Result) : List Bool :=
  List.replicate (1 + resultVariants.payloadSize r) true ++
    List.replicate (resultVariants.width - resultVariants.payloadSize r) false

def logEntryMarks (e : LogEntry) : List Bool :=
  List.replicate 32 true ++ commandMarks e.command ++ List.replicate 32 true

/-- The bytes of a message that carry it; the others follow the payload of a command or a result. -/
def messageMarks : Message → List Bool
  | .request m => List.replicate 33 true ++ commandMarks m.command
  | .prepare m => List.replicate 33 true ++ logEntryMarks m.entry
  | .prepareOk _ => List.replicate 42 true
  | .commit _ => List.replicate 49 true
  | .reply m => List.replicate 25 true ++ resultMarks m.result
  | .startViewChange _ => List.replicate 10 true
  | .doViewChange m =>
    List.replicate 42 true ++ m.logEntries.flatMap logEntryMarks ++ List.replicate 257 true
  | .startView m =>
    List.replicate 49 true ++ m.logEntries.flatMap logEntryMarks ++ List.replicate 1 true
  | .requestPrepare _ => List.replicate 58 true
  | .sendPrepare m => List.replicate 9 true ++ logEntryMarks m.entry ++ List.replicate 41 true
  | .requestStatus _ => List.replicate 9 true
  | .sendStatus _ => List.replicate 41 true
  | .requestStartView _ => List.replicate 9 true

theorem command_keep {c : Command} (h : command.fits c = true) : command.keep c = commandMarks c :=
  commandVariants.padded_keep _ commandCases_full h

theorem result_keep {r : Result} (h : result.fits r = true) : result.keep r = resultMarks r :=
  resultVariants.padded_keep _ resultCases_full h

theorem logEntry_keep {e : LogEntry} (h : logEntry.fits e = true) :
    logEntry.keep e = logEntryMarks e := by
  have hcommand : command.fits e.command = true := by
    simp only [logEntry, imap, pair, Bool.and_eq_true] at h
    exact h.2.2.2.2.1
  have hkeep := command_keep hcommand
  rw [logEntryMarks, ← hkeep, List.append_assoc]
  rfl

theorem logEntries_keep {n : ℕ} {es : List LogEntry} (h : (array n logEntry).fits es = true) :
    (array n logEntry).keep es = es.flatMap logEntryMarks := by
  simp only [array, Bool.and_eq_true, List.all_eq_true] at h
  apply List.flatMap_congr
  intro e he
  exact logEntry_keep (h.2 e he)

theorem keepFrame_eq {m : Message} (h : m.typed = true) :
    messageVariants.keepFrame m = messageMarks m := by
  cases m with
  | request m =>
    have hfits : requestMsg.fits m = true := h
    simp only [requestMsg, imap, pair, Bool.and_eq_true] at hfits
    rw [messageMarks, ← command_keep hfits.2.2]
    rfl
  | prepare m =>
    have hfits : prepareMsg.fits m = true := h
    simp only [prepareMsg, imap, pair, Bool.and_eq_true] at hfits
    rw [messageMarks, ← logEntry_keep hfits.2.2.2.2]
    rfl
  | reply m =>
    have hfits : replyMsg.fits m = true := h
    simp only [replyMsg, imap, pair, Bool.and_eq_true] at hfits
    rw [messageMarks, ← result_keep hfits.2.2]
    rfl
  | doViewChange m =>
    have hfits : doViewChangeMsg.fits m = true := h
    simp only [doViewChangeMsg, imap, pair, Bool.and_eq_true] at hfits
    have htail : List.replicate 257 true =
        List.replicate 1 true ++ (List.replicate 128 true ++ List.replicate 128 true) := by
      rw [List.replicate_append_replicate, List.replicate_append_replicate]
    rw [messageMarks, ← logEntries_keep hfits.2.2.2.2.2.2.1, List.append_assoc, htail]
    rfl
  | startView m =>
    have hfits : startViewMsg.fits m = true := h
    simp only [startViewMsg, imap, pair, Bool.and_eq_true] at hfits
    rw [messageMarks, ← logEntries_keep hfits.2.2.2.2.2.2.1, List.append_assoc]
    rfl
  | sendPrepare m =>
    have hfits : sendPrepareMsg.fits m = true := h
    simp only [sendPrepareMsg, imap, pair, Bool.and_eq_true] at hfits
    rw [messageMarks, ← logEntry_keep hfits.2.1, List.append_assoc]
    rfl
  | _ => rfl

/-! ### Round trips -/

theorem deserialize_serialize {m : Message} (htyped : m.typed = true)
    (hvalid : validateDecodedMessage m = .ok ()) : deserialize (serialize m) = .ok m := by
  have hframe := messageVariants.unframe_frame .invalidMessageTag .invalidMessageSize htyped
  rw [deserialize, serialize, hframe]
  dsimp only
  rw [hvalid]

theorem serialize_deserialize {buf : List UInt8} {m : Message} (h : deserialize buf = .ok m) :
    m.typed = true ∧ validateDecodedMessage m = .ok () ∧ (messageMarks m).length = buf.length ∧
      serialize m = masked (messageMarks m) buf := by
  unfold deserialize at h
  cases hframe : messageVariants.unframe .invalidMessageTag .invalidMessageSize buf with
  | error e =>
    rw [hframe] at h
    cases h
  | ok m' =>
    rw [hframe] at h
    dsimp only at h
    cases hvalid : validateDecodedMessage m' with
    | error e =>
      rw [hvalid] at h
      cases h
    | ok u =>
      rw [hvalid] at h
      cases h
      obtain ⟨hfits, hlen, hwrite⟩ := messageVariants.frame_unframe hframe
      rw [keepFrame_eq hfits] at hlen hwrite
      exact ⟨hfits, hvalid, hlen, hwrite⟩

theorem serialize_injOn {m m' : Message} (h : m.typed = true) (h' : m'.typed = true)
    (hsame : serialize m = serialize m') : m = m' := by
  have hframe := messageVariants.unframe_frame .invalidMessageTag .invalidMessageSize h
  have hframe' := messageVariants.unframe_frame .invalidMessageTag .invalidMessageSize h'
  rw [serialize, serialize] at hsame
  rw [hsame, hframe'] at hframe
  exact (Except.ok.inj hframe).symm

/-- Serializing and deserializing undo each other: what is accepted is a typed message that passes
the checks, spelt as `serialize` spells it up to padding, and no two messages are spelt alike. The
checks go over the log entries that a message counts. -/
theorem peer_codec_exact :
    (∀ m : Message, m.typed = true → validateDecodedMessage m = .ok () →
      deserialize (serialize m) = .ok m) ∧
    (∀ (buf : List UInt8) (m : Message), deserialize buf = .ok m →
      m.typed = true ∧ validateDecodedMessage m = .ok () ∧ (serialize m).length = buf.length ∧
        (messageMarks m).length = buf.length ∧ serialize m = masked (messageMarks m) buf) ∧
    (∀ m m' : Message, m.typed = true → m'.typed = true → serialize m = serialize m' → m = m') := by
  refine ⟨fun m => deserialize_serialize, ?_, fun m m' => serialize_injOn⟩
  intro buf m h
  obtain ⟨htyped, hvalid, hlen, hwrite⟩ := serialize_deserialize h
  refine ⟨htyped, hvalid, ?_, hlen, hwrite⟩
  rw [hwrite, masked, List.length_zipWith, hlen, min_self]

/-- Entries beyond the count are decoded but not checked: a command with more traffic rules than
there is room for passes in one of them. -/
theorem uncounted_entry_unchecked :
    let split : Command := .setTrafficSplit { ruleCount := 5 }
    let m : Message := .doViewChange { logEntries := { command := split } :: List.replicate 7 {} }
    deserialize (serialize m) = .ok m ∧ validateCommand split = .error .invalidRuleCount :=
  ⟨deserialize_serialize (by decide +kernel) rfl, rfl⟩

end Hivemind
