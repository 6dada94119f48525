import Hivemind.Codec

/-! Reading a byte string from its front: the state is what has not been read yet. `Reads` is the
law that a reader and a writer share, and it composes along the bind of the reader and the list of
pieces of the writer. -/

abbrev Scan (ε : Type) := StateT (List UInt8) (Except ε)

namespace Scan

variable {ε α β : Type}

/-- The next value of a fixed-size format. -/
def field (c : Codec ε α) : Scan ε α := fun bs =>
  match c.read bs with
  | .error e => .error e
  | .ok a => .ok (a, bs.drop c.size)

/-- The next value of a format, turned into another one or refused. -/
def fieldWith (c : Codec ε α) (f : α → Except ε β) : Scan ε β := fun bs =>
  match c.read bs with
  | .error e => .error e
  | .ok a => match f a with
    | .error e => .error e
    | .ok b => .ok (b, bs.drop c.size)

/-- Stops with `e` if fewer than `n` bytes are left. -/
def need (n : ℕ) (e : ε) : Scan ε Unit := fun bs =>
  if bs.length < n then .error e else .ok ((), bs)

/-- One value after the other, `n` of them. -/
def times (s : Scan ε α) : ℕ → Scan ε (List α)
  | 0 => pure []
  | n + 1 => do
    let a ← s
    let as ← times s n
    pure (a :: as)

/-- The value of a reader, with what it leaves unread dropped. -/
def value (s : Scan ε α) (bs : List UInt8) : Except ε α :=
  match s.run bs with
  | .error e => .error e
  | .ok (a, _) => .ok a

/-- The reader takes these pieces off the front as this value, whatever comes after them. -/
def Reads (s : Scan ε α) (pieces : List (List UInt8)) (a : α) : Prop :=
  ∀ rest, s.run (pieces.flatten ++ rest) = .ok (a, rest)

namespace Reads

theorem nothing (a : α) : Reads (pure a : Scan ε α) [] a := fun _ => rfl

theorem of_pieces {s : Scan ε α} {ps qs : List (List UInt8)} {a : α} (h : Reads s ps a)
    (heq : ps.flatten = qs.flatten) : Reads s qs a := by
  intro rest
  rw [← heq]
  exact h rest

theorem field {c : Codec ε α} {a : α} (h : c.fits a = true) :
    Reads (Scan.field c) [c.write a] a := by
  intro rest
  have hread := c.read_write a rest h
  have hdrop : (c.write a ++ rest).drop c.size = rest := List.drop_left' (c.length_write a h)
  rw [List.flatten_cons, List.flatten_nil, List.append_nil, StateT.run, Scan.field, hread]
  rw [hdrop]

theorem field_of_write {c : Codec ε α} {a : α} {p : List UInt8} (h : c.fits a = true)
    (hp : c.write a = p) : Reads (Scan.field c) [p] a := hp ▸ field h

theorem fieldWith {c : Codec ε α} {f : α → Except ε β} {a : α} {b : β} (h : c.fits a = true)
    (hf : f a = .ok b) : Reads (Scan.fieldWith c f) [c.write a] b := by
  intro rest
  have hread := c.read_write a rest h
  have hdrop : (c.write a ++ rest).drop c.size = rest := List.drop_left' (c.length_write a h)
  rw [List.flatten_cons, List.flatten_nil, List.append_nil, StateT.run, Scan.fieldWith, hread]
  dsimp only
  rw [hf]
  rw [hdrop]

theorem append {s : Scan ε α} {f : α → Scan ε β} {ps qs : List (List UInt8)} {a : α} {b : β}
    (hs : Reads s ps a) (hf : Reads (f a) qs b) : Reads (s >>= f) (ps ++ qs) b := by
  intro rest
  rw [List.flatten_append, List.append_assoc, StateT.run_bind, hs (qs.flatten ++ rest)]
  exact hf rest

/-- A reader of one piece, then the rest: the rule a sequence of fields is read by. -/
theorem bind {s : Scan ε α} {f : α → Scan ε β} {p : List UInt8} {ps : List (List UInt8)} {a : α}
    {b : β} (hs : Reads s [p] a) (hf : Reads (f a) ps b) : Reads (s >>= f) (p :: ps) b :=
  append hs hf

theorem join {s : Scan ε α} {ps : List (List UInt8)} {a : α} (h : Reads s ps a) :
    Reads s [ps.flatten] a :=
  h.of_pieces (by rw [List.flatten_singleton])

theorem need {n : ℕ} {e : ε} {f : Unit → Scan ε α} {ps : List (List UInt8)} {a : α}
    (hlen : n ≤ ps.flatten.length) (h : Reads (f ()) ps a) : Reads (Scan.need n e >>= f) ps a := by
  intro rest
  have hlong : ¬ (ps.flatten ++ rest).length < n := by
    rw [List.length_append]
    omega
  rw [StateT.run_bind, StateT.run, Scan.need, if_neg hlong]
  exact h rest

/-- A loop that reads back the list a loop wrote. -/
theorem times {s : Scan ε β} {w : α → List UInt8} {as : List α} {bs : List β}
    (h : List.Forall₂ (fun a b => Reads s [w a] b) as bs) :
    Reads (Scan.times s as.length) (as.map w) bs := by
  induction h with
  | nil => exact nothing []
  | cons hhead _ ih =>
    apply hhead.bind
    rw [← List.append_nil (List.map w _)]
    exact ih.append (nothing _)

theorem run_whole {s : Scan ε α} {ps : List (List UInt8)} {a : α} (h : Reads s ps a) :
    s.run ps.flatten = .ok (a, []) := by
  have hrun := h []
  rwa [List.append_nil] at hrun

theorem value {s : Scan ε α} {ps : List (List UInt8)} {a : α} (h : Reads s ps a) :
    s.value ps.flatten = .ok a := by
  rw [Scan.value, h.run_whole]

end Reads

theorem reads_uint [ShortError ε] {n v : ℕ} (h : v < 256 ^ n) :
    Reads (field (Codec.uint n : Codec ε ℕ)) [Codec.le n v] v :=
  Reads.field (c := Codec.uint n) (decide_eq_true h)

theorem reads_bytes [ShortError ε] {n : ℕ} (b : Vector UInt8 n) :
    Reads (field (Codec.bytes n : Codec ε (Vector UInt8 n))) [b.toList] b :=
  Reads.field (c := Codec.bytes n) rfl

end Scan
