import Hivemind.Chunks
import Hivemind.Framing

/-! The worker's two readers of frames: `read_frame_encrypted` of `protocol.rs`, which takes the
parts of a frame from a stream as it needs them, and `recv` of `real_io.rs`, which collects what the
socket gives and looks for frames in it. -/
namespace Hivemind

open Codec

namespace Agent

/-! ### The blocking reader -/

inductive ReadError where
  | unexpectedEof
  | wire (e : WireError)
  deriving DecidableEq

/-- `read_exact` on the rest of a stream. -/
def readExact (n : ℕ) (stream : List UInt8) : Except ReadError (List UInt8 × List UInt8) :=
  if stream.length < n then .error .unexpectedEof else .ok (stream.take n, stream.drop n)

/-- What `read_frame_encrypted` does after the declaration. -/
def readBody (aead : Aead) (key : Option Key) (flags : UInt8) (header : List UInt8)
    (remaining bufLen : ℕ) (rest : List UInt8) :
    Except ReadError ((UInt8 × List UInt8) × List UInt8) :=
  let tooLarge (n : ℕ) : ReadError := .wire (.invalidData ("frame too large: payload=" ++
    toString n ++ " buffer=" ++ toString bufLen))
  match key, flags with
  | some key, 0x01 => do
    let (encBuf, rest) ← readExact remaining rest
    let plaintext ← (decryptFrame aead key encBuf header).mapError .wire
    (validateProtocolVersion plaintext).mapError .wire
    let payload := plaintext.drop frameInnerMin
    if payload.length > bufLen then .error (tooLarge payload.length)
    else .ok ((plaintext.getD 2 0, payload), rest)
  | _, _ => do
    let (innerHeader, rest) ← readExact frameInnerMin rest
    (validateProtocolVersion innerHeader).mapError .wire
    let payloadLen := remaining - frameInnerMin
    if payloadLen > bufLen then .error (tooLarge payloadLen)
    else
      let (payload, rest) ← readExact payloadLen rest
      .ok ((innerHeader.getD 2 0, payload), rest)

/-- `read_frame_encrypted`: the type and the payload, and the rest of the stream. -/
def readFrameEncrypted (aead : Aead) (stream : List UInt8) (bufLen : ℕ) (key : Option Key) :
    Except ReadError ((UInt8 × List UInt8) × List UInt8) := do
  let (lenBytes, rest) ← readExact 4 stream
  let (flags, rest) ← readExact 1 rest
  let remaining ← (validateFrameDeclaration (ofLe lenBytes) (flags.getD 0 0) key.isSome).mapError
    .wire
  readBody aead key (flags.getD 0 0) (lenBytes ++ flags) remaining bufLen rest

/-- All that the reader returns on a stream, and the error at its end. A frame takes bytes off the
stream, so that the length is fuel enough. -/
def readFrames (aead : Aead) (key : Option Key) : ℕ → List UInt8 →
    List (UInt8 × List UInt8) × ReadError
  | 0, _ => ([], .unexpectedEof)
  | fuel + 1, stream =>
    match readFrameEncrypted aead stream maxFramePayload key with
    | .error e => ([], e)
    | .ok (pair, rest) =>
      let (pairs, e) := readFrames aead key fuel rest
      (pair :: pairs, e)

/-! ### The buffered reader -/

def readBufferSize : ℕ := 32 * 1024

/-- `frame_buf[..frame_pos]` and `connected` of `RealIo`, with what has been read from the socket,
the frames that `try_decode_frame` has found, the latest first, and its error. -/
structure RealIo where
  frameBuf : List UInt8 := []
  connected : Bool := true
  seen : List UInt8 := []
  decoded : List (UInt8 × List UInt8) := []
  failure : Option WireError := none

/-- What a read of the socket gives. -/
inductive SocketRead where
  | bytes (b : List UInt8)
  | endOfStream | wouldBlock | interrupted | failed

section Recv

variable (aead : Aead) (lossy : FromUtf8Lossy) (key : Option Key)

def decodeBufferedFrame (io : RealIo) : RealIo × Option ControlMessage :=
  match tryDecodeFrame aead io.frameBuf maxFramePayload key with
  | .ok (some (msgType, payload, consumed)) =>
    let io := { io with
      frameBuf := io.frameBuf.drop consumed, decoded := (msgType, payload) :: io.decoded }
    match decodeControlMessage lossy msgType.toNat payload with
    | .ok message => (io, some message)
    | .error _ => ({ io with connected := false }, none)
  | .ok none => (io, none)
  | .error e => ({ io with connected := false, failure := some e }, none)

/-- A read into the free part of the buffer. -/
def RealIo.read (io : RealIo) (b : List UInt8) : RealIo :=
  let got := b.take (readBufferSize - io.frameBuf.length)
  { io with frameBuf := io.frameBuf ++ got, seen := io.seen ++ got }

/-- One round of the loop of `recv`, with what it does when it comes to read the socket. -/
def recvRound (next : RealIo → RealIo × Option ControlMessage) (io : RealIo) :
    RealIo × Option ControlMessage :=
  if !io.connected then (io, none)
  else match decodeBufferedFrame aead lossy key io with
    | (io, some message) => (io, some message)
    | (io, none) =>
      if !io.connected then (io, none)
      else if io.frameBuf.length ≥ readBufferSize then ({ io with connected := false }, none)
      else next io

/-- `recv`, with what the socket gives during the call; a socket that gives nothing more would
block. -/
def recv : List SocketRead → RealIo → RealIo × Option ControlMessage
  | [] => recvRound aead lossy key fun io => (io, none)
  | .wouldBlock :: _ => recvRound aead lossy key fun io => (io, none)
  | .endOfStream :: _ | .failed :: _ =>
    recvRound aead lossy key fun io => ({ io with connected := false }, none)
  | .interrupted :: reads => recvRound aead lossy key fun io => recv reads io
  | .bytes b :: reads => recvRound aead lossy key fun io => recv reads (io.read b)

end Recv

/-! ### Both read the same -/

variable {aead : Aead} {key : Option Key} {data : List UInt8}

theorem tryDecodeFrame_append (rest : List UInt8)
    {r : Except WireError (Option (UInt8 × List UInt8 × ℕ))}
    (h : tryDecodeFrame aead data maxFramePayload key = r) (hr : r ≠ .ok none) :
    tryDecodeFrame aead (data ++ rest) maxFramePayload key = r := by
  have h5 : ¬ data.length < 5 := by
    intro hshort
    rw [tryDecodeFrame, if_pos hshort] at h
    exact hr h.symm
  obtain ⟨htake4, htake5, hflag⟩ := header_append rest (not_lt.mp h5)
  rw [tryDecodeFrame, if_neg h5] at h
  rw [tryDecodeFrame, if_neg (by rw [List.length_append]; omega), htake4, htake5, hflag]
  dsimp only at h ⊢
  cases hvalid : validateFrameDeclaration (ofLe (data.take 4)) (data.getD 4 0) key.isSome with
  | error e =>
    rw [hvalid] at h
    exact h
  | ok remaining =>
    rw [hvalid] at h
    dsimp only at h ⊢
    split at h
    · exact absurd h.symm hr
    next hfull =>
    rw [not_lt] at hfull
    rw [if_neg (by rw [List.length_append]; omega), List.take_append_of_le_length hfull]
    exact h

theorem tryDecodeFrame_bounds {msgType : UInt8} {payload : List UInt8} {n : ℕ}
    (h : tryDecodeFrame aead data maxFramePayload key = .ok (some (msgType, payload, n))) :
    0 < n ∧ n ≤ data.length := by
  rw [tryDecodeFrame] at h
  split at h
  · cases h
  dsimp only at h
  split at h
  · cases h
  split at h
  · cases h
  next hfull =>
  split at h
  · cases h
  split at h
  · cases h
  split at h
  · cases h
  cases h
  omega

theorem readExact_of_le {n : ℕ} (h : n ≤ data.length) :
    readExact n data = .ok (data.take n, data.drop n) := if_neg (not_lt.mpr h)

theorem readExact_of_lt {n : ℕ} (h : data.length < n) : readExact n data = .error .unexpectedEof :=
  if_pos h

theorem validateProtocolVersion_take (h : 3 ≤ data.length) :
    validateProtocolVersion (data.take 3) = validateProtocolVersion data := by
  have hlen : (data.take 3).length = 3 := by
    rw [List.length_take, min_eq_left h]
  have hinner : frameInnerMin = 3 := rfl
  have hshort : ¬ data.length < frameInnerMin := by omega
  rw [validateProtocolVersion, validateProtocolVersion, if_neg hshort, hlen, hinner,
    if_neg (lt_irrefl 3), List.take_take]
  rfl

theorem readFrameEncrypted_of_short (h : data.length < 5) :
    readFrameEncrypted aead data maxFramePayload key = .error .unexpectedEof := by
  unfold readFrameEncrypted
  by_cases h4 : data.length < 4
  · rw [readExact_of_lt h4]
    rfl
  · rw [readExact_of_le (not_lt.mp h4)]
    show (readExact 1 (data.drop 4) >>= _) = _
    rw [readExact_of_lt (by rw [List.length_drop]; omega)]
    rfl

theorem readFrameEncrypted_of_long (h : 5 ≤ data.length) :
    readFrameEncrypted aead data maxFramePayload key =
      match validateFrameDeclaration (ofLe (data.take 4)) (data.getD 4 0) key.isSome with
      | .error e => .error (.wire e)
      | .ok remaining => readBody aead key (data.getD 4 0) (data.take 5) remaining maxFramePayload
          (data.drop 5) := by
  have hflags : ((data.drop 4).take 1).getD 0 0 = data.getD 4 0 := by
    simp [List.getD_eq_getElem?_getD, List.getElem?_drop]
  have hheader : data.take 4 ++ (data.drop 4).take 1 = data.take 5 := by
    rw [← List.take_add]
  unfold readFrameEncrypted
  rw [readExact_of_le (by omega : 4 ≤ data.length)]
  show (readExact 1 (data.drop 4) >>= _) = _
  rw [readExact_of_le (by rw [List.length_drop]; omega : 1 ≤ (data.drop 4).length)]
  simp only [bind, Except.bind, hflags, hheader, List.drop_drop]
  cases validateFrameDeclaration (ofLe (data.take 4)) (data.getD 4 0) key.isSome with
  | error e => rfl
  | ok remaining => rfl

/-- The blocking reader returns what `try_decode_frame` finds at the front of the stream. Where
that finds no complete frame, the blocking reader runs into the end of the stream, unless it has
seen a wrong version by then. -/
theorem readFrameEncrypted_eq (aead : Aead) (key : Option Key) (data : List UInt8) :
    match tryDecodeFrame aead data maxFramePayload key with
    | .ok (some (msgType, payload, n)) =>
      readFrameEncrypted aead data maxFramePayload key = .ok ((msgType, payload), data.drop n)
    | .error e => readFrameEncrypted aead data maxFramePayload key = .error (.wire e)
    | .ok none => ∃ e, readFrameEncrypted aead data maxFramePayload key = .error e ∧
        (e = .unexpectedEof ∨
          ∃ w, e = .wire w ∧ validateProtocolVersion ((data.drop 5).take 3) = .error w) := by
  by_cases h5 : data.length < 5
  · rw [tryDecodeFrame, if_pos h5]
    exact ⟨.unexpectedEof, readFrameEncrypted_of_short h5, .inl rfl⟩
  rw [readFrameEncrypted_of_long (not_lt.mp h5), tryDecodeFrame, if_neg h5]
  dsimp only
  cases hvalid : validateFrameDeclaration (ofLe (data.take 4)) (data.getD 4 0) key.isSome with
  | error e => rfl
  | ok remaining =>
    obtain ⟨hflag, htotal, hmin, hmax⟩ := validateFrameDeclaration_ok hvalid
    generalize ofLe (data.take 4) = total at htotal
    have hbody : (data.take (4 + total)).drop 5 = (data.drop 5).take remaining := by
      rw [List.drop_take]
      congr 1
      omega
    have hrest : (data.drop 5).drop remaining = data.drop (4 + total) := by
      rw [List.drop_drop]
      congr 1
      omega
    have hlen : (data.drop 5).length = data.length - 5 := List.length_drop
    have hinner : frameInnerMin = 3 := rfl
    rw [hflag, hbody]
    by_cases hfull : data.length < 4 + total
    · -- The blocking reader may meet a wrong version before the stream ends.
      rw [if_pos hfull]
      cases key with
      | some k =>
        refine ⟨.unexpectedEof, ?_, .inl rfl⟩
        show (readExact remaining (data.drop 5) >>= _) = _
        rw [readExact_of_lt (by omega)]
        rfl
      | none =>
        have hover : frameOverhead (none : Option Key) = 0 := rfl
        show ∃ e, (readExact 3 (data.drop 5) >>= _) = .error e ∧ _
        by_cases h3 : (data.drop 5).length < 3
        · rw [readExact_of_lt h3]
          exact ⟨.unexpectedEof, rfl, .inl rfl⟩
        rw [readExact_of_le (not_lt.mp h3)]
        simp only [bind, Except.bind]
        cases hversion : validateProtocolVersion ((data.drop 5).take 3) with
        | error w => exact ⟨.wire w, rfl, .inr ⟨w, rfl, rfl⟩⟩
        | ok u =>
          refine ⟨.unexpectedEof, ?_, .inl rfl⟩
          have hsmall : ¬ remaining - 3 > maxFramePayload := by omega
          show (if remaining - 3 > maxFramePayload then _ else _) = _
          rw [if_neg hsmall, readExact_of_lt (by rw [List.length_drop]; omega)]
    · rw [if_neg hfull]
      have hle : remaining ≤ (data.drop 5).length := by omega
      cases key with
      | some k =>
        have hf : frameFlag (some k) = 0x01 := rfl
        rw [hf, framePlaintext, if_pos rfl]
        simp only [readBody, readExact_of_le hle, hrest, bind, Except.bind]
        cases hdec : decryptFrame aead k ((data.drop 5).take remaining) (data.take 5) with
        | error e => rfl
        | ok plaintext =>
          dsimp only [Except.mapError]
          cases hversion : validateProtocolVersion plaintext with
          | error e => rfl
          | ok u =>
            split_ifs <;> rfl
      | none =>
        have hover : frameOverhead (none : Option Key) = 0 := rfl
        have h3 : 3 ≤ ((data.drop 5).take remaining).length := by
          rw [List.length_take]
          omega
        have hfront : (data.drop 5).take 3 = ((data.drop 5).take remaining).take 3 := by
          rw [List.take_take, min_eq_left (by omega)]
        have hpayload : ((data.drop 5).drop 3).take (remaining - 3) =
            ((data.drop 5).take remaining).drop 3 := (List.drop_take).symm
        have hend : ((data.drop 5).drop 3).drop (remaining - 3) = data.drop (4 + total) := by
          rw [List.drop_drop, ← hrest]
          congr 1
          omega
        have htype : (((data.drop 5).take remaining).take 3).getD 2 0 =
            ((data.drop 5).take remaining).getD 2 0 := by
          simp [List.getD_eq_getElem?_getD, List.getElem?_take]
        have hsize : (((data.drop 5).take remaining).drop 3).length = remaining - 3 := by
          rw [List.length_drop, List.length_take, min_eq_left hle]
        have hmore : remaining - 3 ≤ ((data.drop 5).drop 3).length := by
          rw [List.length_drop]
          omega
        rw [framePlaintext]
        simp only [readBody, hinner, readExact_of_le (by omega : 3 ≤ (data.drop 5).length), hfront,
          validateProtocolVersion_take h3, bind, Except.bind]
        cases hversion : validateProtocolVersion ((data.drop 5).take remaining) with
        | error e => rfl
        | ok u =>
          dsimp only [Except.mapError]
          rw [hsize, if_neg (by omega), if_neg (by omega), readExact_of_le hmore, hpayload, hend,
            htype]

/-! ### Whole streams -/

def frameVerdict : Except WireError (Option (UInt8 × List UInt8 × ℕ)) →
    Verdict (UInt8 × List UInt8) WireError
  | .ok none => .more
  | .ok (some (msgType, payload, n)) => .frame (msgType, payload) n
  | .error e => .bad e

theorem frameVerdict_inj {r : Except WireError (Option (UInt8 × List UInt8 × ℕ))} :
    (∀ {a n}, frameVerdict r = .frame a n → r = .ok (some (a.1, a.2, n))) ∧
    (∀ {e}, frameVerdict r = .bad e → r = .error e) ∧ (frameVerdict r = .more → r = .ok none) := by
  match r with
  | .ok none => exact ⟨nofun, nofun, fun _ => rfl⟩
  | .ok (some (msgType, payload, n)) =>
    refine ⟨fun h => ?_, nofun, nofun⟩
    cases h
    rfl
  | .error e =>
    refine ⟨nofun, fun h => ?_, nofun⟩
    cases h
    rfl

variable (aead key) in
def bufferDecoder : StreamDecoder UInt8 (UInt8 × List UInt8) WireError where
  decode data := frameVerdict (tryDecodeFrame aead data maxFramePayload key)
  more_nil := rfl
  frame_bounds h := tryDecodeFrame_bounds (frameVerdict_inj.1 h)
  frame_append rest h := by
    rw [tryDecodeFrame_append rest (frameVerdict_inj.1 h) nofun]
    rfl
  bad_append rest h := by
    rw [tryDecodeFrame_append rest (frameVerdict_inj.2.1 h) nofun]
    rfl

/-- The control session ends with the first frame whose message does not decode. -/
def refusesMessage (lossy : FromUtf8Lossy) (pair : UInt8 × List UInt8) : Bool :=
  match decodeControlMessage lossy pair.1.toNat pair.2 with
  | .ok _ => false
  | .error _ => true

def endsSession (lossy : FromUtf8Lossy) : List (UInt8 × List UInt8) → Bool
  | [] => false
  | pair :: _ => refusesMessage lossy pair

/-- Up to the first element that satisfies a predicate, and with it. -/
def throughFirst {α : Type*} (p : α → Bool) : List α → List α
  | [] => []
  | a :: l => if p a then [a] else a :: throughFirst p l

variable {lossy : FromUtf8Lossy}

/-- Taken at once, a stream gives what the blocking reader returns on it, up to the end of the
session; and a frame that is refused is refused by both. -/
theorem drain_eq_readFrames (aead : Aead) (lossy : FromUtf8Lossy) (key : Option Key) {k : ℕ}
    (hk : data.length < k) (handed : List (UInt8 × List UInt8)) :
    let s := (bufferDecoder aead key).drain (endsSession lossy) k handed data
    let r := readFrames aead key k data
    s.handed.reverse = handed.reverse ++ throughFirst (refusesMessage lossy) r.1 ∧
    (∀ e, s.ended = some (.refused e) → s.handed.reverse = handed.reverse ++ r.1 ∧ r.2 = .wire e) ∧
    (s.ended = none → s.handed.reverse = handed.reverse ++ r.1 ∧
      readFrameEncrypted aead s.buffer maxFramePayload key = .error r.2) := by
  induction k generalizing handed data with
  | zero => omega
  | succ k ih =>
    have hread := readFrameEncrypted_eq aead key data
    cases h : (bufferDecoder aead key).decode data with
    | more =>
      rw [frameVerdict_inj.2.2 h] at hread
      obtain ⟨e, hread, -⟩ := hread
      rw [StreamDecoder.drain_more h, readFrames, hread]
      simp [throughFirst, hread]
    | bad e =>
      rw [frameVerdict_inj.2.1 h] at hread
      rw [StreamDecoder.drain_bad h, readFrames, hread]
      simp [throughFirst]
    | frame a n =>
      rw [frameVerdict_inj.1 h] at hread
      obtain ⟨hhanded, hrefused, hopen⟩ := ih (StreamDecoder.length_drop_lt h hk) (a :: handed)
      rw [StreamDecoder.drain_frame h, readFrames, hread]
      dsimp only
      rw [endsSession, throughFirst]
      split
      · simp
      · rw [List.reverse_cons, List.append_assoc] at hhanded hrefused hopen
        exact ⟨hhanded, hrefused, hopen⟩

/-- The state of `recv` against the session of all that was read. -/
structure Tracks (aead : Aead) (lossy : FromUtf8Lossy) (key : Option Key) (io : RealIo) : Prop where
  running : io.connected = true → (bufferDecoder aead key).drain (endsSession lossy)
    (io.frameBuf.length + 1) io.decoded io.frameBuf =
      (bufferDecoder aead key).whole (endsSession lossy) io.seen
  stopped : io.connected = false →
    ((bufferDecoder aead key).whole (endsSession lossy) io.seen).handed = io.decoded
  failed : ∀ e, io.failure = some e → io.connected = false ∧
    ((bufferDecoder aead key).whole (endsSession lossy) io.seen).ended = some (.refused e)

/-- Nothing is left to be decoded. -/
def Idle (aead : Aead) (lossy : FromUtf8Lossy) (key : Option Key) (io : RealIo) : Prop :=
  ((bufferDecoder aead key).whole (endsSession lossy) io.seen).handed = io.decoded ∧
  (io.connected = true → (bufferDecoder aead key).whole (endsSession lossy) io.seen =
    ⟨io.decoded, io.frameBuf, none⟩)

namespace Tracks

variable {io : RealIo}

theorem decode (h : Tracks aead lossy key io) (hc : io.connected = true) :
    Tracks aead lossy key (decodeBufferedFrame aead lossy key io).1 ∧
    ((decodeBufferedFrame aead lossy key io).2 = none →
      Idle aead lossy key (decodeBufferedFrame aead lossy key io).1) := by
  have hwhole := h.running hc
  have hnone : io.failure = none := by
    cases hf : io.failure with
    | none => rfl
    | some e =>
      rw [(h.failed e hf).1] at hc
      cases hc
  unfold decodeBufferedFrame
  cases hr : tryDecodeFrame aead io.frameBuf maxFramePayload key with
  | error e =>
    have hbad : (bufferDecoder aead key).decode io.frameBuf = .bad e := by
      show frameVerdict _ = _
      rw [hr]
      rfl
    rw [StreamDecoder.drain_bad hbad] at hwhole
    have hhanded := congrArg StreamDecoder.Session.handed hwhole.symm
    refine ⟨⟨nofun, fun _ => hhanded, fun e' he => ⟨rfl, ?_⟩⟩, fun _ => ⟨hhanded, nofun⟩⟩
    cases he
    rw [← hwhole]
  | ok r =>
    cases r with
    | none =>
      have hmore : (bufferDecoder aead key).decode io.frameBuf = .more := by
        show frameVerdict _ = _
        rw [hr]
        rfl
      rw [StreamDecoder.drain_more hmore] at hwhole
      exact ⟨h, fun _ => ⟨congrArg StreamDecoder.Session.handed hwhole.symm, fun _ => hwhole.symm⟩⟩
    | some r =>
      obtain ⟨msgType, payload, n⟩ := r
      have hframe : (bufferDecoder aead key).decode io.frameBuf = .frame (msgType, payload) n := by
        show frameVerdict _ = _
        rw [hr]
        rfl
      rw [StreamDecoder.drain_frame hframe] at hwhole
      dsimp only
      cases hmessage : decodeControlMessage lossy msgType.toNat payload with
      | error e =>
        rw [if_pos (by simp [endsSession, refusesMessage, hmessage])] at hwhole
        have hhanded := congrArg StreamDecoder.Session.handed hwhole.symm
        refine ⟨⟨nofun, fun _ => hhanded, fun e' he => ?_⟩, fun _ => ⟨hhanded, nofun⟩⟩
        rw [hnone] at he
        cases he
      | ok message =>
        rw [if_neg (by simp [endsSession, refusesMessage, hmessage])] at hwhole
        refine ⟨⟨fun _ => ?_, fun hstop => ?_, fun e he => ?_⟩, nofun⟩
        · rw [← hwhole]
          exact StreamDecoder.drain_fuel (Nat.lt_succ_self _)
            (StreamDecoder.length_drop_lt hframe (Nat.lt_succ_self _))
        · rw [hc] at hstop
          cases hstop
        · rw [hnone] at he
          cases he

theorem read (h : Tracks aead lossy key io) (hc : io.connected = true)
    (hidle : Idle aead lossy key io) (b : List UInt8) : Tracks aead lossy key (io.read b) := by
  refine ⟨fun _ => ?_, fun hstop => ?_, fun e he => ?_⟩
  · show _ = StreamDecoder.whole _ _ (io.seen ++ _)
    rw [← StreamDecoder.receive_whole, hidle.2 hc]
    rfl
  · rw [show (io.read b).connected = io.connected from rfl, hc] at hstop
    cases hstop
  · rw [(h.failed e he).1] at hc
    cases hc

theorem disconnect (h : Tracks aead lossy key io) (hidle : Idle aead lossy key io)
    (hc : io.connected = true) :
    Tracks aead lossy key { io with connected := false } ∧
    Idle aead lossy key { io with connected := false } := by
  refine ⟨⟨nofun, fun _ => hidle.1, fun e he => ?_⟩, hidle.1, nofun⟩
  rw [(h.failed e he).1] at hc
  cases hc

theorem recvRound {next : RealIo → RealIo × Option ControlMessage} (h : Tracks aead lossy key io)
    (hnext : ∀ io, Tracks aead lossy key io → io.connected = true → Idle aead lossy key io →
      Tracks aead lossy key (next io).1 ∧
      ((next io).2 = none → Idle aead lossy key (next io).1)) :
    Tracks aead lossy key (recvRound aead lossy key next io).1 ∧
    ((Agent.recvRound aead lossy key next io).2 = none →
      Idle aead lossy key (Agent.recvRound aead lossy key next io).1) := by
  unfold Agent.recvRound
  split
  · next hc =>
    rw [Bool.not_eq_true'] at hc
    exact ⟨h, fun _ => ⟨h.stopped hc, fun hc' => absurd hc' (by simp [hc])⟩⟩
  next hc =>
  rw [Bool.not_eq_true', Bool.not_eq_false] at hc
  obtain ⟨h', hidle⟩ := h.decode hc
  split
  · next hd =>
    rw [hd] at h'
    exact ⟨h', nofun⟩
  next io' hd =>
  rw [hd] at h' hidle
  split
  · exact ⟨h', hidle⟩
  next hc' =>
  rw [Bool.not_eq_true', Bool.not_eq_false] at hc'
  split
  · exact ⟨(h'.disconnect (hidle rfl) hc').1, fun _ => (h'.disconnect (hidle rfl) hc').2⟩
  · exact hnext io' h' hc' (hidle rfl)

theorem recv {reads : List SocketRead} (h : Tracks aead lossy key io) :
    Tracks aead lossy key (recv aead lossy key reads io).1 ∧
    ((Agent.recv aead lossy key reads io).2 = none →
      Idle aead lossy key (Agent.recv aead lossy key reads io).1) := by
  induction reads generalizing io with
  | nil => exact h.recvRound fun io h _ hidle => ⟨h, fun _ => hidle⟩
  | cons r reads ih =>
    cases r with
    | wouldBlock => exact h.recvRound fun io h _ hidle => ⟨h, fun _ => hidle⟩
    | endOfStream | failed =>
      exact h.recvRound fun io h hc hidle =>
        ⟨(h.disconnect hidle hc).1, fun _ => (h.disconnect hidle hc).2⟩
    | interrupted => exact h.recvRound fun io h _ _ => ih h
    | bytes b => exact h.recvRound fun io h hc hidle => ih (h.read hc hidle b)

end Tracks

theorem throughFirst_eq_self {α : Type*} {p : α → Bool} {l : List α}
    (h : ∀ a ∈ throughFirst p l, p a = false) : throughFirst p l = l := by
  induction l with
  | nil => rfl
  | cons a l ih =>
    rw [throughFirst] at h ⊢
    split at h
    · next ha =>
      rw [h a List.mem_cons_self] at ha
      cases ha
    · next ha =>
      rw [if_neg ha, ih fun b hb => h b (List.mem_cons_of_mem a hb)]

theorem length_lt_of_incomplete (h : tryDecodeFrame aead data maxFramePayload key = .ok none) :
    data.length < readBufferSize := by
  have hsize : readBufferSize = 32768 := rfl
  by_cases h5 : 5 ≤ data.length
  · obtain ⟨e, he⟩ | ⟨hdeclares, ⟨hshort, -⟩ | ⟨inner, -, hsome⟩⟩ :=
      tryDecodeFrame_cases aead key maxFramePayload h5
    · rw [h] at he
      cases he
    · have hlimit := hdeclares.2.2
      have hover : frameOverhead key ≤ 40 := by
        rw [frameOverhead]
        split <;> decide
      have hmax : maxFramePayload = 16384 := rfl
      rw [declaredLen] at hlimit
      omega
    · rw [h] at hsome
      cases hsome
  · omega

/-- The worker's buffered reader finds what the blocking one returns. After any calls of `recv`,
with whatever the socket gave during each, the frames found are the first ones that
`read_frame_encrypted` returns on all that was read; when a call has returned no message they are
all of them, up to the first one whose control message does not decode, which ends the session. A
frame that the buffered reader refuses is refused by the blocking one, with the same error. Where
the buffered reader waits for the rest of a frame it has consumed nothing of it and has room for
it; the blocking one has stopped at that frame too, at the end of the stream or at a wrong version
that it has seen by then. -/
theorem buffered_reader_agrees (aead : Aead) (lossy : FromUtf8Lossy) (key : Option Key)
    (calls : List (List SocketRead)) (reads : List SocketRead) :
    let io := calls.foldl (fun io reads => (recv aead lossy key reads io).1) {}
    let r := recv aead lossy key reads io
    let blocking := readFrames aead key (r.1.seen.length + 1) r.1.seen
    (∃ later, throughFirst (refusesMessage lossy) blocking.1 = r.1.decoded.reverse ++ later) ∧
    (r.2 = none → r.1.decoded.reverse = throughFirst (refusesMessage lossy) blocking.1) ∧
    (r.2 = none → (∀ pair ∈ r.1.decoded, refusesMessage lossy pair = false) →
      r.1.decoded.reverse = blocking.1) ∧
    (∀ e, r.1.failure = some e → r.1.decoded.reverse = blocking.1 ∧ blocking.2 = .wire e) ∧
    (r.2 = none → r.1.connected = true → r.1.decoded.reverse = blocking.1 ∧
      readFrameEncrypted aead r.1.frameBuf maxFramePayload key = .error blocking.2 ∧
      (blocking.2 = .unexpectedEof ∨ ∃ w, blocking.2 = .wire w ∧
        validateProtocolVersion ((r.1.frameBuf.drop 5).take 3) = .error w)) ∧
    ∀ io, tryDecodeFrame aead io.frameBuf maxFramePayload key = .ok none →
      decodeBufferedFrame aead lossy key io = (io, none) ∧ io.frameBuf.length < readBufferSize := by
  intro io r blocking
  have hinit : Tracks aead lossy key {} := by
    refine ⟨fun _ => ?_, nofun, nofun⟩
    exact StreamDecoder.drain_more rfl
  have hio : Tracks aead lossy key io := by
    show Tracks aead lossy key (calls.foldl _ _)
    generalize ({} : RealIo) = io₀ at hinit
    induction calls generalizing io₀ with
    | nil => exact hinit
    | cons reads calls ih => exact ih _ hinit.recv.1
  obtain ⟨htracks, hidle⟩ : Tracks aead lossy key r.1 ∧ (r.2 = none → Idle aead lossy key r.1) :=
    hio.recv
  -- The session of all that was read, against the blocking reader.
  set W := (bufferDecoder aead key).whole (endsSession lossy) r.1.seen with hW
  obtain ⟨hhanded, hrefused, hopen⟩ : W.handed.reverse =
        throughFirst (refusesMessage lossy) blocking.1 ∧
      (∀ e, W.ended = some (.refused e) → W.handed.reverse = blocking.1 ∧ blocking.2 = .wire e) ∧
      (W.ended = none → W.handed.reverse = blocking.1 ∧
        readFrameEncrypted aead W.buffer maxFramePayload key = .error blocking.2) :=
    drain_eq_readFrames aead lossy key (Nat.lt_succ_self r.1.seen.length) []
  have hall : r.2 = none →
      r.1.decoded.reverse = throughFirst (refusesMessage lossy) blocking.1 := by
    intro hnone
    rw [← hhanded, (hidle hnone).1]
  refine ⟨?_, hall, fun hnone hgood => ?_, fun e he => ?_, fun hnone hc => ?_, fun io hmore => ?_⟩
  · rw [← hhanded]
    cases hc : r.1.connected with
    | true =>
      rw [hW, ← htracks.running hc]
      exact ⟨_, (drain_eq_readFrames aead lossy key (Nat.lt_succ_self r.1.frameBuf.length)
        r.1.decoded).1⟩
    | false => exact ⟨[], by rw [List.append_nil, htracks.stopped hc]⟩
  · rw [hall hnone]
    apply throughFirst_eq_self
    rw [← hall hnone]
    intro pair hpair
    exact hgood pair (List.mem_reverse.mp hpair)
  · obtain ⟨hc, hended⟩ := htracks.failed e he
    rw [← htracks.stopped hc]
    exact hrefused e hended
  · have hwait := (hidle hnone).2 hc
    have hmore := (StreamDecoder.whole_rest (bufferDecoder aead key) (endsSession lossy)
      r.1.seen).2
    rw [hwait] at hmore
    rw [← hW] at hwait
    rw [hwait] at hopen
    obtain ⟨hsame, hread⟩ := hopen rfl
    have hwhy := readFrameEncrypted_eq aead key r.1.frameBuf
    rw [frameVerdict_inj.2.2 (hmore rfl)] at hwhy
    obtain ⟨e, he, hwhy⟩ := hwhy
    cases hread.symm.trans he
    exact ⟨hsame, hread, hwhy⟩
  · refine ⟨?_, length_lt_of_incomplete hmore⟩
    rw [decodeBufferedFrame, hmore]

/-- Two frames of an unknown type: `recv` ends the session at the first one, the blocking reader
returns both. And the beginning of a frame with a wrong version, which the blocking reader refuses
and `recv` waits for. -/
theorem buffered_reader_ends_session :
    let frame : List UInt8 := [4, 0, 0, 0, 0, 6, 0, 0xff]
    let r := recv .bare .strict none [.bytes (frame ++ frame)] {}
    let wrong : List UInt8 := [5, 0, 0, 0, 0, 7, 0, 0x02]
    let s := recv .bare .strict none [.bytes wrong] {}
    r.2 = none ∧ r.1.connected = false ∧ r.1.decoded.reverse = [(0xff, [])] ∧
      (readFrames .bare none 17 (frame ++ frame)).1 = [(0xff, []), (0xff, [])] ∧
      s.2 = none ∧ s.1.connected = true ∧ s.1.failure = none ∧
      (readFrames .bare none 9 wrong).2 =
        .wire (.invalidData "unsupported protocol version: 7") := by
  decide +kernel

end Agent

end Hivemind
