import Mathlib.Data.List.Basic

/-! Decoding a stream that arrives in pieces. A decoder that does not change its mind when more
comes hands out the same frames, however the stream is cut. -/

/-- What a decoder says of what has come so far. -/
inductive Verdict (α ε : Type*) where
  | more
  | bad (e : ε)
  | frame (a : α) (n : ℕ)

structure StreamDecoder (β α ε : Type*) where
  decode : List β → Verdict α ε
  more_nil : decode [] = .more
  frame_bounds : ∀ {data a n}, decode data = .frame a n → 0 < n ∧ n ≤ data.length
  frame_append : ∀ {data a n} (rest), decode data = .frame a n → decode (data ++ rest) = .frame a n
  bad_append : ∀ {data e} (rest), decode data = .bad e → decode (data ++ rest) = .bad e

namespace StreamDecoder

variable {β α ε : Type*}

/-- How a session ends: with something that is no frame, or by whoever gets the frames. -/
inductive Ending (ε : Type*) where
  | refused (e : ε)
  | closed

/-- Of the frames that have been handed out the latest comes first. -/
structure Session (β α ε : Type*) where
  handed : List α := []
  buffer : List β := []
  ended : Option (Ending ε) := none

variable (d : StreamDecoder β α ε) (closes : List α → Bool)

/-- Hand out the frames of the buffer, until the one who gets them closes the session. -/
def drain : ℕ → List α → List β → Session β α ε
  | 0, handed, data => ⟨handed, data, none⟩
  | fuel + 1, handed, data =>
    match d.decode data with
    | .more => ⟨handed, data, none⟩
    | .bad e => ⟨handed, [], some (.refused e)⟩
    | .frame a n =>
      if closes (a :: handed) then ⟨a :: handed, [], some .closed⟩
      else drain fuel (a :: handed) (data.drop n)

def receive (s : Session β α ε) (chunk : List β) : Session β α ε :=
  if s.ended.isSome then s
  else d.drain closes ((s.buffer ++ chunk).length + 1) s.handed (s.buffer ++ chunk)

/-- The session of a stream that comes in one piece. -/
def whole (stream : List β) : Session β α ε := d.receive closes {} stream

variable {d closes} {handed : List α} {data rest : List β} {s : Session β α ε}

theorem drain_more {k : ℕ} (h : d.decode data = .more) :
    d.drain closes (k + 1) handed data = ⟨handed, data, none⟩ := by rw [drain, h]

theorem drain_bad {k : ℕ} {e : ε} (h : d.decode data = .bad e) :
    d.drain closes (k + 1) handed data = ⟨handed, [], some (.refused e)⟩ := by rw [drain, h]

theorem drain_frame {k n : ℕ} {a : α} (h : d.decode data = .frame a n) :
    d.drain closes (k + 1) handed data =
      if closes (a :: handed) then ⟨a :: handed, [], some .closed⟩
      else d.drain closes k (a :: handed) (data.drop n) := by rw [drain, h]

theorem length_drop_lt {fuel n : ℕ} {a : α} (h : d.decode data = .frame a n)
    (hlt : data.length < fuel + 1) : (data.drop n).length < fuel := by
  obtain ⟨hpos, hle⟩ := d.frame_bounds h
  rw [List.length_drop]
  omega

theorem drain_fuel {k l : ℕ} (hk : data.length < k) (hl : data.length < l) :
    d.drain closes k handed data = d.drain closes l handed data := by
  induction k generalizing l handed data with
  | zero => omega
  | succ k ih =>
    obtain ⟨l, rfl⟩ : ∃ m, l = m + 1 := ⟨l - 1, by omega⟩
    cases h : d.decode data with
    | more => rw [drain_more h, drain_more h]
    | bad e => rw [drain_bad h, drain_bad h]
    | frame a n =>
      rw [drain_frame h, drain_frame h]
      split
      · rfl
      · exact ih (length_drop_lt h hk) (length_drop_lt h hl)

theorem drain_rest {k : ℕ} (hk : data.length < k) :
    (d.drain closes k handed data).buffer <:+ data ∧
    ((d.drain closes k handed data).ended = none →
      d.decode (d.drain closes k handed data).buffer = .more) := by
  induction k generalizing handed data with
  | zero => omega
  | succ k ih =>
    cases h : d.decode data with
    | more =>
      rw [drain_more h]
      exact ⟨List.suffix_rfl, fun _ => h⟩
    | bad e =>
      rw [drain_bad h]
      exact ⟨List.nil_suffix, nofun⟩
    | frame a n =>
      rw [drain_frame h]
      split
      · exact ⟨List.nil_suffix, nofun⟩
      · obtain ⟨hsuffix, hmore⟩ := ih (length_drop_lt h hk)
        exact ⟨hsuffix.trans (List.drop_suffix n data), hmore⟩

/-- Draining may stop anywhere and go on when more has come. -/
theorem drain_append {k : ℕ} (hk : (data ++ rest).length < k) :
    d.drain closes k handed (data ++ rest) =
      if (d.drain closes k handed data).ended.isSome then d.drain closes k handed data
      else d.drain closes k (d.drain closes k handed data).handed
        ((d.drain closes k handed data).buffer ++ rest) := by
  induction k generalizing handed data with
  | zero => omega
  | succ k ih =>
    have hdata : data.length < k + 1 := by
      rw [List.length_append] at hk
      omega
    cases h : d.decode data with
    | more =>
      rw [drain_more h]
      rfl
    | bad e =>
      rw [drain_bad h, drain_bad (d.bad_append rest h)]
      rfl
    | frame a n =>
      rw [drain_frame h, drain_frame (d.frame_append rest h)]
      split
      · rfl
      · have hdrop : (data ++ rest).drop n = data.drop n ++ rest :=
          List.drop_append_of_le_length (d.frame_bounds h).2
        have hlt : (data.drop n ++ rest).length < k := by
          rw [← hdrop]
          exact length_drop_lt (d.frame_append rest h) hk
        rw [hdrop, ih hlt]
        split
        · rfl
        · -- The two sides go on with different fuel.
          have hrest : (d.drain closes k (a :: handed) (data.drop n)).buffer <:+ data.drop n :=
            (drain_rest (length_drop_lt h hdata)).1
          have hle := hrest.length_le
          rw [List.length_append] at hlt
          apply drain_fuel
          all_goals
            rw [List.length_append]
            omega

theorem receive_receive (s : Session β α ε) (c c' : List β) :
    d.receive closes (d.receive closes s c) c' = d.receive closes s (c ++ c') := by
  cases hended : s.ended with
  | some e => simp [receive, hended]
  | none =>
    -- One fuel for all three sides.
    have hlen : (s.buffer ++ c ++ c').length = (s.buffer ++ c).length + c'.length :=
      List.length_append
    have hfuel : d.drain closes ((s.buffer ++ c).length + 1) s.handed (s.buffer ++ c) =
        d.drain closes ((s.buffer ++ c ++ c').length + 1) s.handed (s.buffer ++ c) :=
      drain_fuel (by omega) (by omega)
    have hrest : (d.drain closes ((s.buffer ++ c ++ c').length + 1) s.handed
        (s.buffer ++ c)).buffer <:+ s.buffer ++ c := (drain_rest (by omega)).1
    have hle := hrest.length_le
    have happend : d.drain closes ((s.buffer ++ c ++ c').length + 1) s.handed
        (s.buffer ++ c ++ c') = _ := drain_append (Nat.lt_succ_self _)
    simp only [receive, hended, Option.isSome_none, Bool.false_eq_true, if_false, hfuel]
    rw [← List.append_assoc, happend]
    split
    · rfl
    · apply drain_fuel (Nat.lt_succ_self _)
      rw [List.length_append]
      omega

variable (d closes)

theorem whole_nil : d.whole closes [] = {} := by
  exact drain_more d.more_nil

/-- However a stream is cut, it leads to the session of the whole stream. -/
theorem receive_whole (stream chunk : List β) :
    d.receive closes (d.whole closes stream) chunk = d.whole closes (stream ++ chunk) :=
  receive_receive {} stream chunk

theorem whole_rest (stream : List β) :
    (d.whole closes stream).buffer <:+ stream ∧ ((d.whole closes stream).ended = none →
      d.decode (d.whole closes stream).buffer = .more) :=
  drain_rest (Nat.lt_succ_self _)

theorem whole_append_of_ended {stream : List β} (h : (d.whole closes stream).ended.isSome)
    (rest : List β) : d.whole closes (stream ++ rest) = d.whole closes stream := by
  rw [← receive_whole, receive, if_pos h]

end StreamDecoder
