import Hivemind.WorkerWire

/-! The frame around every message on a stream: `sendFrame` and `decodeFrame` of `connection.zig`,
`write_frame_encrypted` and `try_decode_frame` of the worker, `writeFrameEncrypted` and
`readFrameGeneric` of the API. Each is translated from its own source; deadlines and partial reads
are left out. -/
namespace Hivemind

open Codec

abbrev Key := Bytes 32
abbrev Nonce := Bytes 24

/-- XChaCha20-Poly1305: key, nonce, header bytes, then text or ciphertext with its tag. It decrypts
what it encrypted under the same key and header bytes and rejects anything else. -/
structure Aead where
  encrypt : Key → Nonce → List UInt8 → List UInt8 → List UInt8
  decrypt : Key → Nonce → List UInt8 → List UInt8 → Option (List UInt8)
  length_encrypt : ∀ k n aad p, (encrypt k n aad p).length = p.length + 16
  decrypt_encrypt : ∀ k n aad p, decrypt k n aad (encrypt k n aad p) = some p
  encrypt_of_decrypt : ∀ k n aad c p, decrypt k n aad c = some p → c = encrypt k n aad p

def nonceLen : ℕ := 24
def tagLen : ℕ := 16

/-- `[version][tag][payload]`. -/
def versioned (tag : UInt8) (payload : List UInt8) : List UInt8 :=
  le 2 protocolVersion ++ tag :: payload

section Formats

variable (aead : Aead)

/-! ### `encryption.zig` -/

inductive DecryptError where
  | frameTooShort | outputTooSmall | authenticationFailed
  deriving DecidableEq

/-- `encryptFrame`; nothing is written to a buffer that is too small. -/
def encryptFrame (key : Key) (nonce : Nonce) (plaintext aad : List UInt8) (outLen : ℕ) :
    Option (List UInt8) :=
  if outLen < nonceLen + plaintext.length + tagLen then none
  else some (nonce.toList ++ aead.encrypt key nonce aad plaintext)

def decryptFrame (key : Key) (data aad : List UInt8) (outLen : ℕ) :
    Except DecryptError (List UInt8) :=
  if data.length < nonceLen + tagLen then .error .frameTooShort
  else if outLen < data.length - nonceLen - tagLen then .error .outputTooSmall
  else match aead.decrypt key (strToFixed 24 data) aad (data.drop nonceLen) with
    | none => .error .authenticationFailed
    | some plaintext => .ok plaintext

/-! ### The core -/

def maxFrameBytes : ℕ := 64 * 1024
def encryptedOverhead : ℕ := 1 + nonceLen + tagLen

inductive SendError where
  | encryptionFailed
  /-- `@intCast` of a length that is no `u32` stops the process. -/
  | lengthOverflow
  deriving DecidableEq

/-- The bytes `sendFrame` writes. -/
def sendFrame (enabled : Bool) (key : Option Key) (nonce : Nonce) (payload : List UInt8) :
    Except SendError (List UInt8) :=
  match key, enabled with
  | some key, true =>
    let encPayloadLen := nonceLen + payload.length + tagLen
    if 1 + encPayloadLen ≥ 2 ^ 32 then .error .lengthOverflow
    else
      let header := le 4 (1 + encPayloadLen) ++ [0x01]
      match encryptFrame aead key nonce payload header (maxFrameBytes + encryptedOverhead) with
      | none => .error .encryptionFailed
      | some encrypted => .ok (header ++ encrypted)
  | _, _ =>
    if 1 + payload.length ≥ 2 ^ 32 then .error .lengthOverflow
    else .ok (le 4 (1 + payload.length) ++ [0x00] ++ payload)

/-- `plaintext` of `decodeFrame`. -/
def framePlaintext (key : Option Key) (flags : UInt8) (header body : List UInt8)
    (decryptLen innerMin : ℕ) : Option (List UInt8) :=
  if flags = 0x01 then
    match key with
    | none => none
    | some key => match decryptFrame aead key body header decryptLen with
      | .error _ => none
      | .ok plaintext => if plaintext.length < innerMin then none else some plaintext
  else some body

/-- `decodeFrame`: what it returns and what it writes to `consumed`. Nothing and 0 is a frame that
is not complete yet; nothing and another number is a frame that is refused. -/
def decodeFrame (enabled : Bool) (key : Option Key) (data : List UInt8) (decryptLen : ℕ)
    (isVersioned : Bool) : Option (List UInt8) × ℕ :=
  if data.length < 5 then (none, 0)
  else
    let frameLen := ofLe (data.take 4)
    let skipped := min data.length (4 + frameLen)
    let flags := data.getD 4 0
    let innerMin := if isVersioned then 3 else 1
    let payloadMin := if flags = 0x01 then nonceLen + tagLen + innerMin else innerMin
    let total := 4 + frameLen
    if frameLen > maxFrameBytes - 4 then (none, data.length)
    else if flags ≠ 0x00 ∧ flags ≠ 0x01 then (none, skipped)
    else if (flags == 0x01) ≠ enabled then (none, skipped)
    else if flags = 0x01 ∧ key = none then (none, skipped)
    else if frameLen < 1 + payloadMin then (none, skipped)
    else if data.length < total then (none, 0)
    else
      let body := (data.take total).drop 5
      match framePlaintext aead key flags (data.take 5) body decryptLen innerMin with
      | none => (none, total)
      | some plaintext =>
        if isVersioned = true ∧
            (plaintext.length < 3 ∨ ofLe (plaintext.take 2) ≠ protocolVersion) then (none, total)
        else (some plaintext, total)

/-! ### The worker -/

namespace Agent

def frameInnerMin : ℕ := 3
def encryptedFrameOverhead : ℕ := nonceLen + tagLen

def validateFrameDeclaration (totalLen : ℕ) (flags : UInt8) (keyConfigured : Bool) :
    Except WireError ℕ :=
  if flags ≠ 0x00 ∧ flags ≠ 0x01 then
    .error (.invalidData ("unknown frame flags: 0x" ++ hexByte flags.toNat))
  else if (flags == 0x01) ≠ keyConfigured then
    .error (.invalidData
      (if flags = 0x01 then "encrypted frame but no key" else "plaintext frame while key configured"))
  else if totalLen < 1 then .error (.invalidData "frame too short")
  else
    let remaining := totalLen - 1
    let overhead := if flags = 0x01 then encryptedFrameOverhead else 0
    let maximum := overhead + frameInnerMin + maxFramePayload
    if remaining < overhead + frameInnerMin then .error (.invalidData "frame too short")
    else if remaining > maximum then
      .error (.invalidData ("frame too large: declared=" ++ toString remaining ++ " max=" ++
        toString maximum))
    else .ok remaining

def validateProtocolVersion (inner : List UInt8) : Except WireError Unit :=
  if inner.length < frameInnerMin then .error (.invalidData "frame payload too short")
  else if ofLe (inner.take 2) ≠ protocolVersion then
    .error (.invalidData ("unsupported protocol version: " ++ toString (ofLe (inner.take 2))))
  else .ok ()

/-- `encrypt_frame` of `crypto.rs`. -/
def encryptFrame (key : Key) (nonce : Nonce) (plaintext aad : List UInt8) : List UInt8 :=
  nonce.toList ++ aead.encrypt key nonce aad plaintext

/-- `decrypt_frame` of `crypto.rs`. -/
def decryptFrame (key : Key) (data aad : List UInt8) : Except WireError (List UInt8) :=
  if data.length < nonceLen + tagLen then .error (.invalidData "frame too short")
  else match aead.decrypt key (strToFixed 24 data) aad (data.drop nonceLen) with
    | none => .error (.invalidData "authentication failed")
    | some plaintext => .ok plaintext

/-- The bytes `write_frame_encrypted` writes. The payload is bounded first, so that no length
overflows. -/
def writeFrameEncrypted (msgType : UInt8) (payload : List UInt8) (key : Option Key)
    (nonce : Nonce) : Except WireError (List UInt8) :=
  if payload.length > maxFramePayload then
    .error (.invalidInput ("frame payload too large: " ++ toString payload.length ++ " > " ++
      toString maxFramePayload))
  else
    let inner := le 2 protocolVersion ++ msgType :: payload
    match key with
    | some key =>
      let header := le 4 (1 + (nonceLen + inner.length + tagLen)) ++ [0x01]
      .ok (header ++ encryptFrame aead key nonce inner header)
    | none => .ok (le 4 (1 + inner.length) ++ [0x00] ++ inner)

/-- `plaintext` of `try_decode_frame`. -/
def framePlaintext (key : Option Key) (flags : UInt8) (header body : List UInt8) :
    Except WireError (List UInt8) :=
  match key with
  | some key => if flags = 0x01 then decryptFrame aead key body header else .ok body
  | none => .ok body

/-- `try_decode_frame`: nothing yet, or the type, the payload and the number of bytes consumed. -/
def tryDecodeFrame (data : List UInt8) (bufLen : ℕ) (key : Option Key) :
    Except WireError (Option (UInt8 × List UInt8 × ℕ)) :=
  if data.length < 5 then .ok none
  else
    let totalLen := ofLe (data.take 4)
    let flags := data.getD 4 0
    match validateFrameDeclaration totalLen flags key.isSome with
    | .error e => .error e
    | .ok _ =>
      let frameLen := 4 + totalLen
      if data.length < frameLen then .ok none
      else
        let framePayload := (data.take frameLen).drop 5
        match framePlaintext aead key flags (data.take 5) framePayload with
        | .error e => .error e
        | .ok plaintext => match validateProtocolVersion plaintext with
          | .error e => .error e
          | .ok () =>
            let payload := plaintext.drop frameInnerMin
            if payload.length > bufLen then
              .error (.invalidData ("frame too large: payload=" ++ toString payload.length ++
                " buffer=" ++ toString bufLen))
            else .ok (some (plaintext.getD 2 0, payload, frameLen))

end Agent

/-! ### The API -/

namespace Api

/-- `EncryptFrame` of `crypto.go`. -/
def encryptFrame (key : Key) (nonce : Nonce) (plaintext aad : List UInt8) : List UInt8 :=
  nonce.toList ++ aead.encrypt key nonce aad plaintext

/-- `DecryptFrame` of `crypto.go`. -/
def decryptFrame (key : Key) (data aad : List UInt8) : Except String (List UInt8) :=
  if data.length < nonceLen + tagLen then
    .error ("frame too short: " ++ toString data.length ++ " bytes")
  else match aead.decrypt key (strToFixed 24 data) aad (data.drop nonceLen) with
    | none => .error "chacha20poly1305: message authentication failed"
    | some plaintext => .ok plaintext

/-- The bytes `writeFrameEncrypted` writes. The conversion of the length to `uint32` wraps. -/
def writeFrameEncrypted (tag : UInt8) (payload : List UInt8) (key : Option Key) (nonce : Nonce) :
    List UInt8 :=
  let inner := le 2 protocolVersion ++ tag :: payload
  match key with
  | some key =>
    let header := le 4 (1 + (nonceLen + inner.length + tagLen)) ++ [0x01]
    header ++ encryptFrame aead key nonce inner header
  | none => le 4 (1 + inner.length) ++ [0x00] ++ inner

/-- `plaintext` of `readFrameGeneric`, whose flag agrees with the key. -/
def framePlaintext (key : Option Key) (frameLen : ℕ) (header body : List UInt8) :
    Except String (List UInt8) :=
  match key with
  | some key =>
    if frameLen < 1 + (nonceLen + 3 + tagLen) then
      .error ("encrypted frame too short: " ++ toString frameLen)
    else match decryptFrame aead key body header with
      | .error e => .error ("decrypt failed: " ++ e)
      | .ok plaintext => .ok plaintext
  | none =>
    if frameLen < 1 + 3 then .error ("plaintext frame too short: " ++ toString frameLen)
    else .ok body

/-- `readFrameGeneric` on what the connection delivers before it ends: the frame's content and what
has not been read. -/
def readFrameGeneric (stream : List UInt8) (bufLen : ℕ) (key : Option Key) :
    Except String (List UInt8 × List UInt8) :=
  if bufLen < 4 then .error ("frame buffer too small: " ++ toString bufLen)
  else if stream.length < 4 then .error "EOF"
  else
    let frameLen := ofLe (stream.take 4)
    if frameLen < 1 ∨ frameLen > bufLen - 4 then .error ("bad frame len: " ++ toString frameLen)
    else if stream.length < 4 + frameLen then .error "EOF"
    else
      let flags := stream.getD 4 0
      let rest := stream.drop (4 + frameLen)
      let body := (stream.take (4 + frameLen)).drop 5
      if flags ≠ 0x00 ∧ flags ≠ 0x01 then
        .error ("unknown frame flags: 0x" ++ Agent.hexByte flags.toNat)
      else if (flags == 0x01) ≠ key.isSome then
        .error (if flags = 0x01 then "encrypted frame but no key"
          else "plaintext frame while key configured")
      else
        match framePlaintext aead key frameLen (stream.take 5) body with
        | .error e => .error e
        | .ok plaintext =>
          if plaintext.length < 3 then
            .error ("frame payload too short: " ++ toString plaintext.length)
          else if ofLe (plaintext.take 2) ≠ protocolVersion then
            .error ("unsupported protocol version: " ++ toString (ofLe (plaintext.take 2)))
          else .ok (plaintext, rest)

end Api

/-! ### The common format -/

def frameFlag (key : Option Key) : UInt8 := if key.isSome then 0x01 else 0x00

/-- The bytes that encryption adds to the content. -/
def frameOverhead (key : Option Key) : ℕ := if key.isSome then nonceLen + tagLen else 0

/-- What the length field says of a frame with this much content. -/
def declaredLen (key : Option Key) (innerLen : ℕ) : ℕ := 1 + (frameOverhead key + innerLen)

def frameHeader (key : Option Key) (innerLen : ℕ) : List UInt8 :=
  le 4 (declaredLen key innerLen) ++ [frameFlag key]

def frameBody (key : Option Key) (nonce : Nonce) (inner : List UInt8) : List UInt8 :=
  match key with
  | none => inner
  | some k => nonce.toList ++ aead.encrypt k nonce (frameHeader (some k) inner.length) inner

def frameOf (key : Option Key) (nonce : Nonce) (inner : List UInt8) : List UInt8 :=
  frameHeader key inner.length ++ frameBody aead key nonce inner

variable {aead}

theorem length_frameHeader (key : Option Key) (n : ℕ) : (frameHeader key n).length = 5 := by
  rfl

variable (aead) in
theorem length_frameBody (key : Option Key) (nonce : Nonce) (inner : List UInt8) :
    (frameBody aead key nonce inner).length = frameOverhead key + inner.length := by
  cases key with
  | none => exact (Nat.zero_add _).symm
  | some k =>
    rw [frameBody, List.length_append, Vector.length_toList, aead.length_encrypt]
    show 24 + (inner.length + 16) = 24 + 16 + inner.length
    omega

variable (aead) in
theorem length_frameOf (key : Option Key) (nonce : Nonce) (inner : List UInt8) :
    (frameOf aead key nonce inner).length = 4 + declaredLen key inner.length := by
  rw [frameOf, List.length_append, length_frameHeader, length_frameBody, declaredLen]
  omega

theorem length_versioned (tag : UInt8) (payload : List UInt8) :
    (versioned tag payload).length = payload.length + 3 := by
  rw [versioned, List.length_append, length_le, List.length_cons]
  omega

variable (aead) in
/-- The parts of a frame at the front of a stream, where each reader looks for them. -/
structure Anatomy (key : Option Key) (nonce : Nonce) (inner rest data : List UInt8) : Prop where
  long : ¬ data.length < 5
  declared : ofLe (data.take 4) = declaredLen key inner.length
  flag : data.getD 4 0 = frameFlag key
  header : data.take 5 = frameHeader key inner.length
  complete : ¬ data.length < 4 + declaredLen key inner.length
  body : (data.take (4 + declaredLen key inner.length)).drop 5 = frameBody aead key nonce inner
  remainder : data.drop (4 + declaredLen key inner.length) = rest

variable (aead) in
theorem anatomy (key : Option Key) (nonce : Nonce) (inner rest : List UInt8)
    (h : declaredLen key inner.length < 2 ^ 32) :
    Anatomy aead key nonce inner rest (frameOf aead key nonce inner ++ rest) := by
  have hheader := length_frameHeader key inner.length
  have hlen := length_frameOf aead key nonce inner
  have hlong : 5 ≤ (frameOf aead key nonce inner).length := by
    rw [frameOf, List.length_append, hheader]
    exact Nat.le_add_right _ _
  have htake : (frameOf aead key nonce inner ++ rest).take
      (4 + declaredLen key inner.length) = frameOf aead key nonce inner := List.take_left' hlen
  constructor
  · rw [List.length_append]
    omega
  · rw [frameOf, frameHeader, List.append_assoc, List.append_assoc,
      List.take_left' (length_le 4 _), ofLe_le h]
  · rfl
  · exact List.take_left' hheader
  · rw [List.length_append, hlen]
    omega
  · rw [htake, frameOf]
    exact List.drop_left' hheader
  · exact List.drop_left' hlen

theorem strToFixed_toList_append {n : ℕ} (b : Bytes n) (rest : List UInt8) :
    strToFixed n (b.toList ++ rest) = b := by
  apply Vector.ext
  intro i hi
  have hlt : i < b.toList.length := by rwa [Vector.length_toList]
  rw [strToFixed, Vector.getElem_ofFn, List.getD_eq_getElem?_getD, List.getElem?_append_left hlt,
    List.getElem?_eq_getElem hlt]
  exact Vector.getElem_toList _

variable (aead) in
theorem decrypt_frameBody (k : Key) (nonce : Nonce) (inner : List UInt8) :
    ¬ (frameBody aead (some k) nonce inner).length < nonceLen + tagLen ∧
      (frameBody aead (some k) nonce inner).length - nonceLen - tagLen = inner.length ∧
      aead.decrypt k (strToFixed 24 (frameBody aead (some k) nonce inner))
        (frameHeader (some k) inner.length) ((frameBody aead (some k) nonce inner).drop nonceLen) =
          some inner := by
  have hlen := length_frameBody aead (some k) nonce inner
  have hover : frameOverhead (some k) = nonceLen + tagLen := rfl
  refine ⟨by omega, by omega, ?_⟩
  rw [frameBody, strToFixed_toList_append]
  have hdrop : (nonce.toList ++ aead.encrypt k nonce (frameHeader (some k) inner.length) inner).drop
      nonceLen = aead.encrypt k nonce (frameHeader (some k) inner.length) inner :=
    List.drop_left' Vector.length_toList
  rw [hdrop, aead.decrypt_encrypt]

theorem versioned_parts (tag : UInt8) (payload : List UInt8) :
    ¬ (versioned tag payload).length < 3 ∧
      ofLe ((versioned tag payload).take 2) = protocolVersion ∧
      (versioned tag payload).getD 2 0 = tag ∧ (versioned tag payload).drop 3 = payload := by
  refine ⟨?_, ?_, rfl, rfl⟩
  · rw [length_versioned]
    omega
  · rfl

/-! ### Every writer writes the common format -/

theorem sendFrame_eq {key : Option Key} {nonce : Nonce} {inner bytes : List UInt8}
    (h : sendFrame aead key.isSome key nonce inner = .ok bytes) :
    bytes = frameOf aead key nonce inner := by
  cases key with
  | none =>
    rw [sendFrame] at h
    · split at h
      · cases h
      · cases h
        rw [frameOf, frameHeader, declaredLen, frameOverhead, frameBody]
        simp [frameFlag]
    · intro k hk
      cases hk
  | some k =>
    have hheader : le 4 (1 + (nonceLen + inner.length + tagLen)) ++ [0x01] =
        frameHeader (some k) inner.length := by
      have hlen : 1 + (nonceLen + inner.length + tagLen) = declaredLen (some k) inner.length := by
        show _ = 1 + (nonceLen + tagLen + inner.length)
        omega
      rw [hlen]
      rfl
    rw [Option.isSome_some, sendFrame, hheader] at h
    dsimp only at h
    split at h
    · cases h
    · rw [encryptFrame] at h
      split at h
      · next hnone =>
        split at hnone
        · cases h
        · cases hnone
      · next encrypted hsome =>
        split at hsome
        · cases hsome
        · cases hsome
          cases h
          rfl

theorem exists_sendFrame {key : Option Key} {nonce : Nonce} {inner : List UInt8}
    (h : inner.length ≤ maxFrameBytes + 1) :
    ∃ bytes, sendFrame aead key.isSome key nonce inner = .ok bytes := by
  have hmax : maxFrameBytes = 65536 := rfl
  have hnonce : nonceLen = 24 := rfl
  have htag : tagLen = 16 := rfl
  have hover : encryptedOverhead = 41 := rfl
  cases key with
  | none =>
    rw [sendFrame]
    · rw [if_neg (by omega)]
      exact ⟨_, rfl⟩
    · intro k hk
      cases hk
  | some k =>
    rw [Option.isSome_some, sendFrame]
    dsimp only
    rw [if_neg (by omega), encryptFrame, if_neg (by omega)]
    exact ⟨_, rfl⟩

theorem Api.writeFrameEncrypted_eq {key : Option Key} {nonce : Nonce} {tag : UInt8}
    {payload : List UInt8} : Api.writeFrameEncrypted aead tag payload key nonce =
      frameOf aead key nonce (versioned tag payload) := by
  cases key with
  | none =>
    rw [Api.writeFrameEncrypted, frameOf, frameHeader, declaredLen, frameOverhead, frameBody]
    simp [frameFlag, versioned]
  | some k =>
    have hlen : 1 + (nonceLen + (versioned tag payload).length + tagLen) =
        declaredLen (some k) (versioned tag payload).length := by
      show _ = 1 + (nonceLen + tagLen + (versioned tag payload).length)
      omega
    rw [versioned] at hlen
    rw [Api.writeFrameEncrypted, hlen]
    rfl

theorem Agent.writeFrameEncrypted_eq {key : Option Key} {nonce : Nonce} {tag : UInt8}
    {payload : List UInt8} : Agent.writeFrameEncrypted aead tag payload key nonce =
      if payload.length > maxFramePayload then
        .error (.invalidInput ("frame payload too large: " ++ toString payload.length ++ " > " ++
          toString maxFramePayload))
      else .ok (frameOf aead key nonce (versioned tag payload)) := by
  rw [← Api.writeFrameEncrypted_eq, Agent.writeFrameEncrypted]
  cases key <;> rfl

/-! ### Every reader reads the common format -/

section Readers

variable {key : Option Key} {nonce : Nonce} {tag : UInt8} {payload : List UInt8}

variable (aead key nonce) in
theorem framePlaintext_frameBody {inner : List UInt8} {decryptLen innerMin : ℕ}
    (hmin : ¬ inner.length < innerMin) (hout : inner.length ≤ decryptLen) :
    framePlaintext aead key (frameFlag key) (frameHeader key inner.length)
      (frameBody aead key nonce inner) decryptLen innerMin = some inner := by
  cases key with
  | none => rfl
  | some k =>
    obtain ⟨hlong, hct, hdecrypt⟩ := decrypt_frameBody aead k nonce inner
    rw [framePlaintext, if_pos (by rfl), decryptFrame, if_neg hlong, hct, if_neg (not_lt.mpr hout), hdecrypt]
    dsimp only
    rw [if_neg hmin]

variable (aead key nonce) in
theorem Agent.framePlaintext_frameBody (inner : List UInt8) :
    Agent.framePlaintext aead key (frameFlag key) (frameHeader key inner.length)
      (frameBody aead key nonce inner) = .ok inner := by
  cases key with
  | none => rfl
  | some k =>
    obtain ⟨hlong, -, hdecrypt⟩ := decrypt_frameBody aead k nonce inner
    rw [Agent.framePlaintext, if_pos (by rfl), Agent.decryptFrame, if_neg hlong, hdecrypt]

variable (aead key nonce) in
theorem Api.framePlaintext_frameBody {inner : List UInt8} (hmin : ¬ inner.length < 3) :
    Api.framePlaintext aead key (declaredLen key inner.length) (frameHeader key inner.length)
      (frameBody aead key nonce inner) = .ok inner := by
  cases key with
  | none =>
    have hdeclared : declaredLen none inner.length = 1 + (0 + inner.length) := rfl
    rw [Api.framePlaintext, if_neg (by omega)]
    rfl
  | some k =>
    have hdeclared : declaredLen (some k) inner.length =
        1 + (nonceLen + tagLen + inner.length) := rfl
    obtain ⟨hlong, -, hdecrypt⟩ := decrypt_frameBody aead k nonce inner
    rw [Api.framePlaintext, if_neg (by omega), Api.decryptFrame, if_neg hlong, hdecrypt]

theorem flag_known (key : Option Key) :
    ¬ (frameFlag key ≠ 0x00 ∧ frameFlag key ≠ 0x01) ∧ ¬ (frameFlag key == 0x01) ≠ key.isSome := by
  cases key <;> simp [frameFlag]

theorem decodeFrame_frameOf (rest : List UInt8)
    (h : 4 + declaredLen key (versioned tag payload).length ≤ maxFrameBytes) :
    decodeFrame aead key.isSome key (frameOf aead key nonce (versioned tag payload) ++ rest)
        maxFrameBytes true =
      (some (versioned tag payload), (frameOf aead key nonce (versioned tag payload)).length) := by
  have hmax : maxFrameBytes = 65536 := rfl
  obtain ⟨hshort, hversion, -, -⟩ := versioned_parts tag payload
  obtain ⟨hknown, hagrees⟩ := flag_known key
  obtain ⟨hlong, hdeclared, hflag, hheader, hcomplete, hbody, -⟩ :=
    anatomy aead key nonce (versioned tag payload) rest
      (by omega)
  have hfits : (versioned tag payload).length ≤ maxFrameBytes := by
    rw [declaredLen] at h
    omega
  have hkey : ¬ (frameFlag key = 0x01 ∧ key = none) := by
    rintro ⟨hone, rfl⟩
    exact absurd hone (by decide)
  have hmin : ¬ declaredLen key (versioned tag payload).length <
      1 + (if frameFlag key = 0x01 then nonceLen + tagLen + 3 else 3) := by
    cases key with
    | none =>
      rw [if_neg (by decide), declaredLen]
      omega
    | some k =>
      have hover : frameOverhead (some k) = nonceLen + tagLen := rfl
      rw [if_pos (by rfl), declaredLen]
      omega
  have hplain := framePlaintext_frameBody aead key nonce hshort hfits
  have hgood : ¬ (true = true ∧ ((versioned tag payload).length < 3 ∨
      ofLe ((versioned tag payload).take 2) ≠ protocolVersion)) := by
    rintro ⟨-, hbad | hbad⟩
    · exact hshort hbad
    · exact hbad hversion
  rw [decodeFrame, if_neg hlong]
  dsimp only
  rw [hdeclared, hflag, hbody, hheader, if_neg (by omega), if_neg hknown, if_neg hagrees,
    if_neg hkey, if_pos rfl, if_neg hmin, if_neg hcomplete, hplain, length_frameOf]
  dsimp only
  rw [if_neg hgood]

variable (key) in
theorem Agent.validateFrameDeclaration_frame {innerLen : ℕ} (hmin : 3 ≤ innerLen)
    (hmax : innerLen ≤ 3 + maxFramePayload) :
    validateFrameDeclaration (declaredLen key innerLen) (frameFlag key) key.isSome =
      .ok (frameOverhead key + innerLen) := by
  obtain ⟨hknown, hagrees⟩ := flag_known key
  have hover : (if frameFlag key = 0x01 then encryptedFrameOverhead else 0) = frameOverhead key := by
    cases key <;> rfl
  have hinner : frameInnerMin = 3 := rfl
  rw [validateFrameDeclaration, if_neg hknown, if_neg hagrees, declaredLen, if_neg (by omega)]
  rw [hover, if_neg (by omega), if_neg (by omega), Nat.add_sub_cancel_left]

theorem Agent.tryDecodeFrame_frameOf (rest : List UInt8) {bufLen : ℕ}
    (h : payload.length ≤ maxFramePayload) (hbuf : payload.length ≤ bufLen) :
    tryDecodeFrame aead (frameOf aead key nonce (versioned tag payload) ++ rest) bufLen key =
      .ok (some (tag, payload, (frameOf aead key nonce (versioned tag payload)).length)) := by
  have hmax : maxFramePayload = 16384 := rfl
  have hlen := length_versioned tag payload
  have hover : frameOverhead key ≤ 40 := by
    rw [frameOverhead]
    split <;> decide
  obtain ⟨hshort, hversion, htag, hpayload⟩ := versioned_parts tag payload
  obtain ⟨hlong, hdeclared, hflag, hheader, hcomplete, hbody, -⟩ :=
    anatomy aead key nonce (versioned tag payload) rest
      (by rw [declaredLen]; omega)
  have hvalid := validateFrameDeclaration_frame key (show 3 ≤ (versioned tag payload).length by omega)
    (by omega)
  have hplain := framePlaintext_frameBody aead key nonce (versioned tag payload)
  have hcheck : validateProtocolVersion (versioned tag payload) = .ok () := by
    rw [validateProtocolVersion, frameInnerMin, if_neg hshort, if_neg (not_not.mpr hversion)]
  rw [tryDecodeFrame, if_neg hlong]
  dsimp only
  rw [hdeclared, hflag, hbody, hheader, hvalid]
  rw [if_neg hcomplete, hplain]
  dsimp only
  rw [hcheck]
  rw [frameInnerMin, hpayload, htag, if_neg (not_lt.mpr hbuf), length_frameOf]

theorem Api.readFrameGeneric_frameOf (rest : List UInt8) {bufLen : ℕ} (hsmall : bufLen ≤ 2 ^ 32)
    (h : (frameOf aead key nonce (versioned tag payload)).length ≤ bufLen) :
    readFrameGeneric aead (frameOf aead key nonce (versioned tag payload) ++ rest) bufLen key =
      .ok (versioned tag payload, rest) := by
  rw [length_frameOf] at h
  obtain ⟨hshort, hversion, -, -⟩ := versioned_parts tag payload
  obtain ⟨hknown, hagrees⟩ := flag_known key
  have hpos : 1 ≤ declaredLen key (versioned tag payload).length := by
    rw [declaredLen]
    omega
  obtain ⟨hlong, hdeclared, hflag, hheader, hcomplete, hbody, hrest⟩ :=
    anatomy aead key nonce (versioned tag payload) rest
      (by omega)
  have hplain := framePlaintext_frameBody aead key nonce hshort
  rw [readFrameGeneric, if_neg (by omega), if_neg (by omega)]
  dsimp only
  rw [hdeclared, hflag, hbody, hheader, hrest, if_neg (by omega), if_neg hcomplete, if_neg hknown,
    if_neg hagrees, hplain]
  dsimp only
  rw [if_neg hshort, if_neg (not_not.mpr hversion)]

end Readers

/-! ### What a reader accepts -/

/-- The flag byte agrees with the key and the declared length is within the reader's bounds. -/
def Declares (key : Option Key) (limit : ℕ) (data : List UInt8) : Prop :=
  data.getD 4 0 = frameFlag key ∧ declaredLen key 3 ≤ ofLe (data.take 4) ∧
    ofLe (data.take 4) ≤ limit

variable (aead) in
/-- The content of the frame at the front, as the key opens it. -/
def frameContent (key : Option Key) (data : List UInt8) : Option (List UInt8) :=
  let body := (data.take (4 + ofLe (data.take 4))).drop 5
  match key with
  | none => some body
  | some k => aead.decrypt k (strToFixed 24 body) (data.take 5) (body.drop nonceLen)

variable (aead) in
/-- The content opens and has the protocol's version. -/
def Opens (key : Option Key) (data inner : List UInt8) : Prop :=
  frameContent aead key data = some inner ∧ ofLe (inner.take 2) = protocolVersion

theorem flag_eq_of_known {key : Option Key} {flag : UInt8} (hknown : ¬ (flag ≠ 0x00 ∧ flag ≠ 0x01))
    (hagrees : ¬ (flag == 0x01) ≠ key.isSome) : flag = frameFlag key := by
  have hcases : flag = 0x00 ∨ flag = 0x01 := by
    by_contra hno
    exact hknown (not_or.mp hno)
  cases key with
  | none =>
    rcases hcases with rfl | rfl
    · rfl
    · exact absurd (by decide) hagrees
  | some k =>
    rcases hcases with rfl | rfl
    · exact absurd (show (false : Bool) ≠ true from nofun) hagrees
    · rfl

theorem header_append {data : List UInt8} (rest : List UInt8) (h5 : 5 ≤ data.length) :
    (data ++ rest).take 4 = data.take 4 ∧ (data ++ rest).take 5 = data.take 5 ∧
      (data ++ rest).getD 4 0 = data.getD 4 0 := by
  refine ⟨List.take_append_of_le_length (by omega), List.take_append_of_le_length h5, ?_⟩
  rw [List.getD_eq_getElem?_getD, List.getElem?_append_left (by omega),
    ← List.getD_eq_getElem?_getD]

theorem frameContent_of_framePlaintext {key : Option Key} {data inner : List UInt8}
    {decryptLen innerMin : ℕ}
    (h : framePlaintext aead key (frameFlag key) (data.take 5)
      ((data.take (4 + ofLe (data.take 4))).drop 5) decryptLen innerMin = some inner) :
    frameContent aead key data = some inner := by
  cases key with
  | none => exact h
  | some k =>
    rw [framePlaintext, if_pos (by rfl)] at h
    split at h
    · cases h
    · next plaintext hdecrypt =>
      split at h
      · cases h
      · cases h
        rw [decryptFrame] at hdecrypt
        split at hdecrypt
        · cases hdecrypt
        split at hdecrypt
        · cases hdecrypt
        split at hdecrypt
        · cases hdecrypt
        · next hsome =>
          cases hdecrypt
          exact hsome

theorem declaredLen_three (key : Option Key) :
    1 + (if frameFlag key = 0x01 then nonceLen + tagLen + 3 else 3) = declaredLen key 3 := by
  cases key <;> rfl

/-- A frame of the core's reader is refused, or its declaration is right and it is not complete or
accepted. -/
theorem decodeFrame_cases (aead : Aead) (key : Option Key) {data : List UInt8} (h5 : 5 ≤ data.length) :
    (∃ c, 0 < c ∧ decodeFrame aead key.isSome key data maxFrameBytes true = (none, c)) ∨
    Declares key (maxFrameBytes - 4) data ∧
      ((data.length < 4 + ofLe (data.take 4) ∧
        decodeFrame aead key.isSome key data maxFrameBytes true = (none, 0)) ∨
      ∃ inner, Opens aead key data inner ∧
        decodeFrame aead key.isSome key data maxFrameBytes true =
          (some inner, 4 + ofLe (data.take 4))) := by
  have hskip : 0 < min data.length (4 + ofLe (data.take 4)) := lt_min (by omega) (by omega)
  have htotal : 0 < 4 + ofLe (data.take 4) := by omega
  rw [decodeFrame, if_neg (not_lt.mpr h5)]
  dsimp only
  rw [if_pos rfl]
  split
  · exact .inl ⟨_, by omega, rfl⟩
  next hmax =>
  split
  · exact .inl ⟨_, hskip, rfl⟩
  next hknown =>
  split
  · exact .inl ⟨_, hskip, rfl⟩
  next hagrees =>
  have hflag := flag_eq_of_known hknown hagrees
  rw [hflag, declaredLen_three]
  split
  · exact .inl ⟨_, hskip, rfl⟩
  split
  · exact .inl ⟨_, hskip, rfl⟩
  next hmin =>
  have hdeclares : Declares key (maxFrameBytes - 4) data :=
    ⟨hflag, not_lt.mp hmin, not_lt.mp hmax⟩
  split
  · next hshort => exact .inr ⟨hdeclares, .inl ⟨hshort, rfl⟩⟩
  split
  · exact .inl ⟨_, htotal, rfl⟩
  · next inner hplain =>
    split
    · exact .inl ⟨_, htotal, rfl⟩
    · next hversion =>
      refine .inr ⟨hdeclares, .inr ⟨inner, ⟨frameContent_of_framePlaintext hplain, ?_⟩, rfl⟩⟩
      by_contra hbad
      exact hversion ⟨rfl, .inr hbad⟩

theorem Agent.frameContent_of_framePlaintext {key : Option Key} {data inner : List UInt8}
    (h : Agent.framePlaintext aead key (frameFlag key) (data.take 5)
      ((data.take (4 + ofLe (data.take 4))).drop 5) = .ok inner) :
    frameContent aead key data = some inner := by
  cases key with
  | none =>
    cases h
    rfl
  | some k =>
    rw [Agent.framePlaintext, if_pos (by rfl), Agent.decryptFrame] at h
    split at h
    · cases h
    split at h
    · cases h
    · next hsome =>
      cases h
      exact hsome

theorem Agent.validateFrameDeclaration_ok {key : Option Key} {totalLen remaining : ℕ}
    {flags : UInt8} (h : validateFrameDeclaration totalLen flags key.isSome = .ok remaining) :
    flags = frameFlag key ∧ remaining + 1 = totalLen ∧ frameOverhead key + 3 ≤ remaining ∧
      remaining ≤ frameOverhead key + 3 + maxFramePayload := by
  rw [validateFrameDeclaration] at h
  split at h
  · cases h
  next hknown =>
  split at h
  · cases h
  next hagrees =>
  have hflag := flag_eq_of_known hknown hagrees
  have hover : (if frameFlag key = 0x01 then encryptedFrameOverhead else 0) =
      frameOverhead key := by
    cases key <;> rfl
  have hinner : frameInnerMin = 3 := rfl
  split at h
  · cases h
  dsimp only at h
  rw [hflag, hover] at h
  split at h
  · cases h
  split at h
  · cases h
  cases h
  exact ⟨hflag, by omega, by omega, by omega⟩

theorem Agent.tryDecodeFrame_cases (aead : Aead) (key : Option Key) {data : List UInt8} (bufLen : ℕ)
    (h5 : 5 ≤ data.length) :
    (∃ e, tryDecodeFrame aead data bufLen key = .error e) ∨
    Declares key (declaredLen key (3 + maxFramePayload)) data ∧
      ((data.length < 4 + ofLe (data.take 4) ∧ tryDecodeFrame aead data bufLen key = .ok none) ∨
      ∃ inner, Opens aead key data inner ∧
        tryDecodeFrame aead data bufLen key =
          .ok (some (inner.getD 2 0, inner.drop 3, 4 + ofLe (data.take 4)))) := by
  rw [tryDecodeFrame, if_neg (not_lt.mpr h5)]
  dsimp only
  split
  · exact .inl ⟨_, rfl⟩
  next hvalid =>
  have hdeclares : Declares key (declaredLen key (3 + maxFramePayload)) data := by
    obtain ⟨hflag, htotal, hmin, hmax⟩ := validateFrameDeclaration_ok hvalid
    refine ⟨hflag, ?_, ?_⟩
    · rw [declaredLen]
      omega
    · rw [declaredLen]
      omega
  split
  · next hshort => exact .inr ⟨hdeclares, .inl ⟨hshort, rfl⟩⟩
  split
  · exact .inl ⟨_, rfl⟩
  next inner hplain =>
  rw [hdeclares.1] at hplain
  split
  · exact .inl ⟨_, rfl⟩
  next hversion =>
  split
  · exact .inl ⟨_, rfl⟩
  · refine .inr ⟨hdeclares, .inr ⟨inner, ⟨frameContent_of_framePlaintext hplain, ?_⟩, rfl⟩⟩
    by_contra hbad
    rw [validateProtocolVersion, if_pos hbad] at hversion
    split at hversion
    · cases hversion
    · cases hversion

theorem Api.frameContent_of_framePlaintext {key : Option Key} {data inner : List UInt8}
    (h : Api.framePlaintext aead key (ofLe (data.take 4)) (data.take 5)
      ((data.take (4 + ofLe (data.take 4))).drop 5) = .ok inner) :
    declaredLen key 3 ≤ ofLe (data.take 4) ∧ frameContent aead key data = some inner := by
  cases key with
  | none =>
    rw [Api.framePlaintext] at h
    split at h
    · cases h
    · next hmin =>
      cases h
      exact ⟨not_lt.mp hmin, rfl⟩
  | some k =>
    rw [Api.framePlaintext] at h
    split at h
    · cases h
    next hmin =>
    rw [Api.decryptFrame] at h
    split at h
    · cases h
    next hdecrypt =>
    cases h
    split at hdecrypt
    · cases hdecrypt
    split at hdecrypt
    · cases hdecrypt
    · next hsome =>
      cases hdecrypt
      exact ⟨not_lt.mp hmin, hsome⟩

/-- The same of the API's reader, which waits for the whole frame: a stream that ends before is an
error. -/
theorem Api.readFrameGeneric_cases (aead : Aead) (key : Option Key) (stream : List UInt8)
    (bufLen : ℕ) :
    (∃ e, readFrameGeneric aead stream bufLen key = .error e) ∨
    Declares key (bufLen - 4) stream ∧ 4 + ofLe (stream.take 4) ≤ stream.length ∧
      ∃ inner, Opens aead key stream inner ∧
        readFrameGeneric aead stream bufLen key =
          .ok (inner, stream.drop (4 + ofLe (stream.take 4))) := by
  rw [readFrameGeneric]
  split
  · exact .inl ⟨_, rfl⟩
  split
  · exact .inl ⟨_, rfl⟩
  dsimp only
  split
  · exact .inl ⟨_, rfl⟩
  next hbounds =>
  split
  · exact .inl ⟨_, rfl⟩
  next hcomplete =>
  split
  · exact .inl ⟨_, rfl⟩
  next hknown =>
  split
  · exact .inl ⟨_, rfl⟩
  next hagrees =>
  split
  · exact .inl ⟨_, rfl⟩
  next inner hplain =>
  obtain ⟨hmin, hcontent⟩ := frameContent_of_framePlaintext hplain
  split
  · exact .inl ⟨_, rfl⟩
  split
  · exact .inl ⟨_, rfl⟩
  next hversion =>
  refine .inr ⟨⟨flag_eq_of_known hknown hagrees, hmin, by omega⟩, not_lt.mp hcomplete, inner,
    ⟨hcontent, not_not.mp hversion⟩, rfl⟩

end Formats

/-- Whatever one of the three writers wrote, each reader takes back whole if it is within its size
limit, and each reader refuses a frame with another flag, another version or a length out of its
bounds. A length field has four bytes, so no frame is longer than what fits a buffer of `2 ^ 32`. -/
theorem one_frame_format (aead : Aead) (key : Option Key) :
    (∀ (nonce : Nonce) (tag : UInt8) (payload bytes rest : List UInt8),
      (sendFrame aead key.isSome key nonce (versioned tag payload) = .ok bytes ∨
        Agent.writeFrameEncrypted aead tag payload key nonce = .ok bytes ∨
        Api.writeFrameEncrypted aead tag payload key nonce = bytes) →
      (bytes.length ≤ maxFrameBytes →
        decodeFrame aead key.isSome key (bytes ++ rest) maxFrameBytes true =
          (some (versioned tag payload), bytes.length)) ∧
      (∀ bufLen, payload.length ≤ Agent.maxFramePayload → payload.length ≤ bufLen →
        Agent.tryDecodeFrame aead (bytes ++ rest) bufLen key =
          .ok (some (tag, payload, bytes.length))) ∧
      ∀ bufLen, bufLen ≤ 2 ^ 32 → bytes.length ≤ bufLen →
        Api.readFrameGeneric aead (bytes ++ rest) bufLen key = .ok (versioned tag payload, rest)) ∧
    (∀ (nonce : Nonce) (tag : UInt8) (payload : List UInt8),
      (payload.length + 3 ≤ maxFrameBytes + 1 →
        ∃ bytes, sendFrame aead key.isSome key nonce (versioned tag payload) = .ok bytes) ∧
      (payload.length ≤ Agent.maxFramePayload →
        ∃ bytes, Agent.writeFrameEncrypted aead tag payload key nonce = .ok bytes)) ∧
    ∀ data : List UInt8, 5 ≤ data.length →
      let unopened := 4 + ofLe (data.take 4) ≤ data.length ∧
        ∀ inner, ¬ Opens aead key data inner
      (¬ Declares key (maxFrameBytes - 4) data ∨ unopened →
        ∃ c, 0 < c ∧ decodeFrame aead key.isSome key data maxFrameBytes true = (none, c)) ∧
      (∀ bufLen, ¬ Declares key (declaredLen key (3 + Agent.maxFramePayload)) data ∨ unopened →
        ∃ e, Agent.tryDecodeFrame aead data bufLen key = .error e) ∧
      ∀ bufLen, ¬ Declares key (bufLen - 4) data ∨ unopened →
        ∃ e, Api.readFrameGeneric aead data bufLen key = .error e := by
  refine ⟨?_, ?_, ?_⟩
  · intro nonce tag payload bytes rest hwritten
    have hbytes : bytes = frameOf aead key nonce (versioned tag payload) := by
      rcases hwritten with h | h | h
      · exact sendFrame_eq h
      · rw [Agent.writeFrameEncrypted_eq] at h
        split at h
        · cases h
        · cases h
          rfl
      · rw [← h, Api.writeFrameEncrypted_eq]
    subst hbytes
    refine ⟨?_, ?_, ?_⟩
    · intro hlimit
      rw [length_frameOf] at hlimit
      exact decodeFrame_frameOf rest hlimit
    · intro bufLen hmax hbuf
      exact Agent.tryDecodeFrame_frameOf rest hmax hbuf
    · intro bufLen hsmall hbuf
      exact Api.readFrameGeneric_frameOf rest hsmall hbuf
  · intro nonce tag payload
    constructor
    · intro h
      apply exists_sendFrame
      rwa [length_versioned]
    · intro h
      rw [Agent.writeFrameEncrypted_eq, if_neg (not_lt.mpr h)]
      exact ⟨_, rfl⟩
  · intro data h5
    refine ⟨?_, ?_, ?_⟩
    · intro hbad
      rcases decodeFrame_cases aead key h5 with hrefused | ⟨hdeclares, hok⟩
      · exact hrefused
      · rcases hbad with hno | ⟨hcomplete, hno⟩
        · exact absurd hdeclares hno
        · rcases hok with ⟨hshort, -⟩ | ⟨inner, hopens, -⟩
          · omega
          · exact absurd hopens (hno inner)
    · intro bufLen hbad
      rcases Agent.tryDecodeFrame_cases aead key bufLen h5 with
        hrefused | ⟨hdeclares, hok⟩
      · exact hrefused
      · rcases hbad with hno | ⟨hcomplete, hno⟩
        · exact absurd hdeclares hno
        · rcases hok with ⟨hshort, -⟩ | ⟨inner, hopens, -⟩
          · omega
          · exact absurd hopens (hno inner)
    · intro bufLen hbad
      rcases Api.readFrameGeneric_cases aead key data bufLen with
        hrefused | ⟨hdeclares, -, inner, hopens, -⟩
      · exact hrefused
      · rcases hbad with hno | ⟨-, hno⟩
        · exact absurd hdeclares hno
        · exact absurd hopens (hno inner)

/-- The simplest functions with the laws: the text as it is, then a tag of zeroes. -/
def Aead.bare : Aead where
  encrypt _ _ _ p := p ++ List.replicate 16 0
  decrypt _ _ _ c :=
    if c.drop (c.length - 16) = List.replicate 16 0 then some (c.take (c.length - 16)) else none
  length_encrypt _ _ _ p := by rw [List.length_append, List.length_replicate]
  decrypt_encrypt _ _ _ p := by simp
  encrypt_of_decrypt _ _ _ c p h := by
    split at h
    · next htag =>
      cases h
      rw [← htag, List.take_append_drop]
    · cases h

/-- A run request of the core, encrypted, is read by the worker; without a key it is refused. -/
theorem one_frame_format_encrypted :
    let key : Key := zeroes 32
    let nonce : Nonce := zeroes 24
    ∃ bytes, sendFrame .bare true (some key) nonce (versioned 0x04 [1, 2]) = .ok bytes ∧
      Agent.tryDecodeFrame .bare bytes 2 (some key) = .ok (some (0x04, [1, 2], bytes.length)) ∧
      ∃ e, Agent.tryDecodeFrame .bare bytes 2 none = .error e := by
  intro key nonce
  obtain ⟨hread, hwrite, -⟩ := one_frame_format .bare (some key)
  obtain ⟨-, -, hrefuse⟩ := one_frame_format .bare none
  obtain ⟨bytes, hbytes⟩ := (hwrite nonce 0x04 [1, 2]).1 (by decide)
  have hframe := (hread nonce 0x04 [1, 2] bytes [] (.inl hbytes)).2.1 2 (by decide) (by decide)
  rw [List.append_nil] at hframe
  have hshape : bytes = frameOf .bare (some key) nonce (versioned 0x04 [1, 2]) := sendFrame_eq hbytes
  refine ⟨bytes, hbytes, hframe, ?_⟩
  apply (hrefuse bytes (by rw [hshape, length_frameOf, declaredLen]; omega)).2.1
  left
  rintro ⟨hflag, -⟩
  have hone := (anatomy .bare (some key) nonce (versioned 0x04 [1, 2]) [] (by decide)).flag
  rw [List.append_nil, ← hshape, hflag] at hone
  exact absurd hone (by decide)

end Hivemind
