import Hivemind.Chunks
import Hivemind.ApiWire
import Hivemind.ClusterState

/-! The streams of clients and workers: `readConn`, `processWorkerFrames`, `processClientFrames` and
`shiftBuffer` of `connection.zig`. However the bytes arrive, the same frames are handled. -/
namespace Hivemind

open Codec

section Decoding

variable {aead : Aead} {key : Option Key} {data : List UInt8} {o : Option (List UInt8)} {c : ℕ}

/-- `decodeFrame` does not change its mind when more bytes come. -/
theorem decodeFrame_append (rest : List UInt8)
    (h : decodeFrame aead key.isSome key data maxFrameBytes true = (o, c)) (hc : c ≠ 0) :
    ∃ c', c' ≠ 0 ∧
      decodeFrame aead key.isSome key (data ++ rest) maxFrameBytes true = (o, c') ∧
      (o.isSome → c' = c ∧ c ≤ data.length) := by
  have h5 : ¬ data.length < 5 := by
    intro hshort
    rw [decodeFrame, if_pos hshort] at h
    cases h
    exact hc rfl
  have hlong : ¬ (data ++ rest).length < 5 := by
    rw [List.length_append]
    omega
  obtain ⟨htake4, htake5, hflag⟩ := header_append rest (not_lt.mp h5)
  have hskip : min (data ++ rest).length (4 + ofLe (data.take 4)) ≠ 0 := by
    omega
  rw [decodeFrame, if_neg h5] at h
  rw [decodeFrame, if_neg hlong, htake4, htake5, hflag]
  dsimp only at h ⊢
  rw [if_pos rfl] at h ⊢
  generalize (if data.getD 4 0 = 0x01 then nonceLen + tagLen + 3 else 3) = payloadMin at h ⊢
  split at h
  · next hmax =>
    cases h
    exact ⟨_, by rw [List.length_append]; omega, if_pos hmax, fun h => by cases h⟩
  next hmax =>
  rw [if_neg hmax]
  split at h
  · next hknown =>
    cases h
    exact ⟨_, hskip, if_pos hknown, fun h => by cases h⟩
  next hknown =>
  rw [if_neg hknown]
  split at h
  · next hagrees =>
    cases h
    exact ⟨_, hskip, if_pos hagrees, fun h => by cases h⟩
  next hagrees =>
  rw [if_neg hagrees]
  split at h
  · next hkey =>
    cases h
    exact ⟨_, hskip, if_pos hkey, fun h => by cases h⟩
  next hkey =>
  rw [if_neg hkey]
  split at h
  · next hmin =>
    cases h
    exact ⟨_, hskip, if_pos hmin, fun h => by cases h⟩
  next hmin =>
  rw [if_neg hmin]
  split at h
  · cases h
    exact absurd rfl hc
  next hfull =>
  rw [not_lt] at hfull
  -- The frame is complete, so that its body is the same.
  have hbody : (data ++ rest).take (4 + ofLe (data.take 4)) =
      data.take (4 + ofLe (data.take 4)) := List.take_append_of_le_length hfull
  rw [if_neg (by rw [List.length_append]; omega), hbody]
  refine ⟨c, hc, h, fun hsome => ⟨rfl, ?_⟩⟩
  split at h
  · cases h
    cases hsome
  · split at h
    · cases h
      cases hsome
    · cases h
      exact hfull

theorem length_lt_of_incomplete (h : decodeFrame aead key.isSome key data maxFrameBytes true =
    (none, 0)) : data.length < maxFrameBytes := by
  by_cases h5 : 5 ≤ data.length
  · obtain ⟨c, hpos, hbad⟩ | ⟨hdeclares, ⟨hshort, -⟩ | ⟨inner, -, hsome⟩⟩ :=
      decodeFrame_cases aead key h5
    · rw [h] at hbad
      cases hbad
      omega
    · have hlimit := hdeclares.2.2
      omega
    · rw [h] at hsome
      cases hsome
  · unfold maxFrameBytes
    omega

theorem decodeFrame_pos {p : List UInt8}
    (h : decodeFrame aead key.isSome key data maxFrameBytes true = (some p, c)) : c ≠ 0 := by
  have h5 : 5 ≤ data.length := by
    by_contra hshort
    rw [decodeFrame, if_pos (not_le.mp hshort)] at h
    cases h
  obtain ⟨c', -, hbad⟩ | ⟨-, ⟨-, hmore⟩ | ⟨inner, -, hsome⟩⟩ := decodeFrame_cases aead key h5
  · rw [h] at hbad
    cases hbad
  · rw [h] at hmore
    cases hmore
  · rw [h] at hsome
    cases hsome
    omega

/-- `decodeFrame` as the loops take it. The check of the length of the payload that follows in the
loops has been made here. -/
def frameVerdict : Option (List UInt8) × ℕ → Verdict (List UInt8) Unit
  | (some p, n) => .frame p n
  | (none, 0) => .more
  | (none, _ + 1) => .bad ()

theorem frameVerdict_frame {r : Option (List UInt8) × ℕ} {p : List UInt8} {n : ℕ} :
    frameVerdict r = .frame p n ↔ r = (some p, n) := by
  rcases r with ⟨_ | p, _ | n⟩ <;> simp [frameVerdict]

theorem frameVerdict_bad {r : Option (List UInt8) × ℕ} :
    frameVerdict r = .bad () ↔ ∃ n, n ≠ 0 ∧ r = (none, n) := by
  rcases r with ⟨_ | p, _ | n⟩ <;> simp [frameVerdict]

theorem frameVerdict_more {r : Option (List UInt8) × ℕ} :
    frameVerdict r = .more ↔ r = (none, 0) := by
  rcases r with ⟨_ | p, _ | n⟩ <;> simp [frameVerdict]

variable (aead key) in
/-- The decoder of the streams of clients and workers. -/
def frameDecoder : StreamDecoder UInt8 (List UInt8) Unit where
  decode data := frameVerdict (decodeFrame aead key.isSome key data maxFrameBytes true)
  more_nil := rfl
  frame_bounds := by
    intro data p n h
    rw [frameVerdict_frame] at h
    have hpos := decodeFrame_pos h
    obtain ⟨c', -, -, hbounds⟩ := decodeFrame_append [] h hpos
    exact ⟨Nat.pos_of_ne_zero hpos, (hbounds rfl).2⟩
  frame_append := by
    intro data p n rest h
    rw [frameVerdict_frame] at h ⊢
    obtain ⟨c', -, hrest, hbounds⟩ := decodeFrame_append rest h (decodeFrame_pos h)
    rw [hrest, (hbounds rfl).1]
  bad_append := by
    intro data e rest h
    obtain ⟨n, hn, hnone⟩ := frameVerdict_bad.mp h
    obtain ⟨c', hc', hrest, -⟩ := decodeFrame_append rest hnone hn
    exact frameVerdict_bad.mpr ⟨c', hc', hrest⟩

end Decoding

/-! ### Connections -/

/-- Of a connection: what has come in and been handled, and how it has ended. -/
abbrev ConnSession := StreamDecoder.Session UInt8 (List UInt8) Unit

structure Conn where
  /-- What the other side has sent and `readConn` has not read yet. -/
  unread : List UInt8
  session : ConnSession := {}
  /-- `readConn` found no room, which closes the connection. -/
  overflowed : Bool := false

/-- `readConn`, with `n` bytes there to be read, and the frames that are then handled. -/
def Conn.read (process : ConnSession → List UInt8 → ConnSession) (c : Conn) (n : ℕ) : Conn :=
  if c.session.ended.isSome || c.overflowed then c
  else
    let space := maxFrameBytes - c.session.buffer.length
    if space = 0 then { c with overflowed := true }
    else
      { c with
        unread := c.unread.drop (min n space)
        session := process c.session (c.unread.take (min n space)) }

/-- What a handler may send to the client whose frame it handles; a snapshot is the state of a
running replica. -/
inductive ClientReply where
  | reply (requestId : ℕ) (result : Result)
  | runError (requestId : ℕ) (status : UInt8)
  | leaderProbe (status : Status) (isLeader : Bool) (replicaId leaderId viewNumber : ℕ)
  | clusterState (s : Replica) (running : s.Running) (queue : QueueStats)

section Processing

variable (aead : Aead) (key : Option Key)

/-- Whether `sendFrame` fails, where the socket takes all that is written: the handler then closes
the connection. -/
def ClientReply.fails (nonce : Nonce) : ClientReply → Bool
  | .clusterState s _ queue =>
    s.handleClusterStateRequest queue aead key nonce == some .disconnected
  | .reply requestId result => refuses (sendClientReply requestId result)
  | .runError requestId status => refuses (versioned 0x23 (le 8 requestId ++ [status]))
  | .leaderProbe status isLeader replicaId leaderId viewNumber =>
    refuses (versioned 0x27 (le 1 status.toNat ++ flagByte isLeader ++ le 1 replicaId ++
      le 1 leaderId ++ le 8 viewNumber))
where
  refuses (payload : List UInt8) : Bool :=
    match sendFrame aead key.isSome key nonce payload with
    | .ok _ => false
    | .error _ => true

/-- The first `consumed` bytes of a buffer go. -/
def shiftBuffer (buffer : List UInt8) (consumed : ℕ) : List UInt8 :=
  if consumed > 0 then
    if consumed ≥ buffer.length then [] else buffer.drop consumed
  else buffer

/-- The loop over the frames of a buffer: the frames handled, the bytes consumed and how the
connection has ended. A handler may close it; `closes` says whether it does, of the frames handled so
far, and `goesOn` whether the loop goes on after that. -/
def frameLoop (goesOn : Bool) (closes : List (List UInt8) → Bool) (data : List UInt8) :
    ℕ → List (List UInt8) → ℕ → List (List UInt8) × ℕ × Option (StreamDecoder.Ending Unit)
  | 0, handled, consumed => (handled, consumed, none)
  | fuel + 1, handled, consumed =>
    match (frameDecoder aead key).decode (data.drop consumed) with
    | .more => (handled, consumed, none)
    | .bad e => (handled, consumed, some (.refused e))
    | .frame p n =>
      let rest := frameLoop goesOn closes data fuel (p :: handled) (consumed + n)
      if closes (p :: handled) then
        if goesOn then (rest.1, rest.2.1, some .closed) else (p :: handled, consumed + n, some .closed)
      else rest

/-- What the loop leaves; a connection that is closed has an empty buffer. -/
def afterLoop (data : List UInt8) :
    List (List UInt8) × ℕ × Option (StreamDecoder.Ending Unit) → ConnSession
  | (handled, consumed, none) => ⟨handled, shiftBuffer data consumed, none⟩
  | (handled, _, some ending) => ⟨handled, [], some ending⟩

def processFrames (goesOn : Bool) (closes : List (List UInt8) → Bool) (s : ConnSession)
    (chunk : List UInt8) : ConnSession :=
  if s.ended.isSome then s
  else
    let data := s.buffer ++ chunk
    afterLoop data (frameLoop aead key goesOn closes data (data.length + 1) s.handed 0)

def processWorkerFrames (closes : List (List UInt8) → Bool) : ConnSession → List UInt8 → ConnSession :=
  processFrames aead key false closes

/-- The loop goes on after a handler has closed the connection; `replies` is what the handlers
send. -/
def processClientFrames (nonce : Nonce) (replies : List (List UInt8) → List ClientReply) :
    ConnSession → List UInt8 → ConnSession :=
  processFrames aead key true fun handled => (replies handled).any (·.fails aead key nonce)

end Processing

section Independence

variable {aead : Aead} {key : Option Key}

theorem ClientReply.fails_eq_false (nonce : Nonce) (r : ClientReply) :
    r.fails aead key nonce = false := by
  have hshort : ∀ (tag : UInt8) (payload : List UInt8), payload.length ≤ 17 →
      fails.refuses aead key nonce (versioned tag payload) = false := by
    intro tag payload hle
    have hlen := length_versioned tag payload
    have hmax : maxFrameBytes = 65536 := rfl
    obtain ⟨bytes, hsend⟩ : ∃ bytes, sendFrame aead key.isSome key nonce (versioned tag payload) =
      .ok bytes := exists_sendFrame (by omega)
    rw [fails.refuses, hsend]
  cases r with
  | clusterState s running queue =>
    obtain ⟨bytes, hsent, -⟩ := running.bounded.handleClusterStateRequest queue aead key nonce
    rw [fails, hsent]
    rfl
  | reply requestId result =>
    apply hshort
    cases result with
    | ok entityId => simp [replyResult]
    | err code =>
      have hcode : (Wire.errorCode.write code).length = 1 := Wire.errorCode.length_write code rfl
      simp [replyResult, hcode]
  | runError requestId status =>
    apply hshort
    simp
  | leaderProbe status isLeader replicaId leaderId viewNumber =>
    apply hshort
    simp [flagByte]

theorem shiftBuffer_eq (buffer : List UInt8) (consumed : ℕ) :
    shiftBuffer buffer consumed = buffer.drop consumed := by
  unfold shiftBuffer
  split_ifs with hpos hall
  · exact (List.drop_eq_nil_of_le hall).symm
  · rfl
  · rw [Nat.eq_zero_of_not_pos hpos, List.drop_zero]

theorem afterLoop_eq {goesOn : Bool} {closes : List (List UInt8) → Bool}
    (hopen : goesOn = true → ∀ l, closes l = false) (data : List UInt8) (fuel : ℕ)
    (handled : List (List UInt8)) (consumed : ℕ) :
    afterLoop data (frameLoop aead key goesOn closes data fuel handled consumed) =
      (frameDecoder aead key).drain closes fuel handled (data.drop consumed) := by
  induction fuel generalizing handled consumed with
  | zero => rw [frameLoop, afterLoop, StreamDecoder.drain, shiftBuffer_eq]
  | succ fuel ih =>
    rw [frameLoop, StreamDecoder.drain]
    cases (frameDecoder aead key).decode (data.drop consumed) with
    | more => rw [afterLoop, shiftBuffer_eq]
    | bad e => rfl
    | frame p n =>
      dsimp only
      split
      · next hcloses =>
        cases goesOn with
        | false => rfl
        | true => exact absurd hcloses (by rw [hopen rfl]; decide)
      · rw [ih, List.drop_drop]

theorem processFrames_eq {goesOn : Bool} {closes : List (List UInt8) → Bool}
    (hopen : goesOn = true → ∀ l, closes l = false) :
    processFrames aead key goesOn closes = (frameDecoder aead key).receive closes := by
  funext s chunk
  rw [processFrames, StreamDecoder.receive]
  split
  · rfl
  · exact afterLoop_eq hopen _ _ _ 0

theorem processClientFrames_eq (nonce : Nonce) (replies : List (List UInt8) → List ClientReply) :
    processClientFrames aead key nonce replies =
      (frameDecoder aead key).receive fun _ => false := by
  have hopen : (fun handled => (replies handled).any (·.fails aead key nonce)) = fun _ => false := by
    funext handled
    rw [List.any_eq_false]
    intro r _
    rw [r.fails_eq_false]
    exact Bool.false_ne_true
  rw [processClientFrames, hopen]
  exact processFrames_eq fun _ _ => rfl

/-- A connection that has read some of a stream stands where it would if that had come at once. -/
structure Conn.Follows (d : StreamDecoder UInt8 (List UInt8) Unit) (closes : List (List UInt8) → Bool)
    (stream : List UInt8) (c : Conn) : Prop where
  /-- The frames handled, the bytes left over and the end. -/
  same : ∃ seen, stream = seen ++ c.unread ∧ c.session = d.whole closes seen ∧
    c.session.buffer <:+ seen
  ended : c.session.ended.isSome → c.session = d.whole closes stream
  room : c.session.ended = none → c.session.buffer.length < maxFrameBytes
  fits : c.overflowed = false

theorem Conn.Follows.read {closes : List (List UInt8) → Bool} {stream : List UInt8} {c : Conn}
    (h : c.Follows (frameDecoder aead key) closes stream) (n : ℕ) :
    (c.read ((frameDecoder aead key).receive closes) n).Follows (frameDecoder aead key) closes
      stream := by
  unfold Conn.read
  split
  · exact h
  next hopen =>
  rw [Bool.or_eq_true, not_or, Option.not_isSome_iff_eq_none] at hopen
  have hroom := h.room hopen.1
  rw [if_neg (by omega)]
  obtain ⟨seen, hstream, hsession, -⟩ := h.same
  generalize min n (maxFrameBytes - c.session.buffer.length) = k
  have hnew : (frameDecoder aead key).receive closes c.session (c.unread.take k) =
      (frameDecoder aead key).whole closes (seen ++ c.unread.take k) := by
    rw [hsession, StreamDecoder.receive_whole]
  have hsplit : stream = seen ++ c.unread.take k ++ c.unread.drop k := by
    rw [List.append_assoc, List.take_append_drop, hstream]
  obtain ⟨hsuffix, hmore⟩ :=
    (frameDecoder aead key).whole_rest closes (seen ++ c.unread.take k)
  refine ⟨⟨seen ++ c.unread.take k, hsplit, hnew, ?_⟩, ?_, ?_, h.fits⟩
  · rw [hnew]
    exact hsuffix
  · rw [hnew, hsplit]
    intro hended
    exact (StreamDecoder.whole_append_of_ended _ _ hended _).symm
  · rw [hnew]
    intro hend
    exact length_lt_of_incomplete (frameVerdict_more.mp (hmore hend))

theorem Conn.follows_reads (closes : List (List UInt8) → Bool) (stream : List UInt8)
    (sizes : List ℕ) :
    (sizes.foldl (Conn.read ((frameDecoder aead key).receive closes))
      { unread := stream }).Follows (frameDecoder aead key) closes stream := by
  have hinit : Conn.Follows (frameDecoder aead key) closes stream { unread := stream } := by
    refine ⟨⟨[], rfl, ?_, List.suffix_rfl⟩, (fun h => by cases h), fun _ => ?_, rfl⟩
    · rw [StreamDecoder.whole_nil]
    · show 0 < maxFrameBytes
      decide
  generalize ({ unread := stream } : Conn) = c at hinit
  induction sizes generalizing c with
  | nil => exact hinit
  | cons n sizes ih => exact ih _ (hinit.read n)

/-- Decoding does not depend on how a stream is cut. Whatever number of bytes each read finds, a
connection has handled the frames of what it has read, up to the first one that is refused or whose
handler closes it, as if that had come at once; when it has ended it stands where the whole stream
would have led. What is left over is the end of what was read, in its order, and leaves room in the
buffer. The handlers of a client never close its connection where the socket takes what they send;
those of a worker may at any frame. -/
theorem streams_independent_of_reads (aead : Aead) (key : Option Key) (stream : List UInt8)
    (sizes : List ℕ) :
    (∀ closes, Conn.Follows (frameDecoder aead key) closes stream
      (sizes.foldl (Conn.read (processWorkerFrames aead key closes)) { unread := stream })) ∧
    ∀ nonce replies, Conn.Follows (frameDecoder aead key) (fun _ => false) stream
      (sizes.foldl (Conn.read (processClientFrames aead key nonce replies))
        { unread := stream }) := by
  constructor
  · intro closes
    rw [processWorkerFrames, processFrames_eq (fun h => by cases h)]
    exact Conn.follows_reads closes stream sizes
  · intro nonce replies
    rw [processClientFrames_eq]
    exact Conn.follows_reads _ stream sizes

end Independence

end Hivemind
