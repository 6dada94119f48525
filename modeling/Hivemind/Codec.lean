import Mathlib.Tactic

/-! Fixed-size binary formats. A codec carries its laws: reading what was written gives the value
back, and writing what was read gives the bytes back, with zeroes where the format leaves bytes
unused. Codecs of records, arrays and tagged unions are built from those of their parts. -/

namespace Codec

/-- Bytes with those that are not kept set to zero. -/
def masked (keep : List Bool) (bs : List UInt8) : List UInt8 :=
  List.zipWith (fun k b => if k then b else 0) keep bs

theorem masked_append {k₁ k₂ : List Bool} {b₁ b₂ : List UInt8} (h : k₁.length = b₁.length) :
    masked (k₁ ++ k₂) (b₁ ++ b₂) = masked k₁ b₁ ++ masked k₂ b₂ :=
  List.zipWith_append h

theorem masked_all (bs : List UInt8) : masked (List.replicate bs.length true) bs = bs := by
  induction bs with
  | nil => rfl
  | cons b bs ih =>
    exact congrArg (b :: ·) ih

theorem masked_none (n : ℕ) (bs : List UInt8) (h : bs.length = n) :
    masked (List.replicate n false) bs = List.replicate n 0 := by
  induction bs generalizing n with
  | nil =>
    cases h
    rfl
  | cons b bs ih =>
    cases h
    exact congrArg ((0 : UInt8) :: ·) (ih bs.length rfl)

end Codec

/-- The error of input that ends too early. -/
class ShortError (ε : Type) where
  short : ε

/-- A format of `size` bytes for the values that `fits` accepts; `keep` marks the bytes that
carry them. -/
structure Codec (ε α : Type) where
  size : ℕ
  fits : α → Bool
  write : α → List UInt8
  keep : α → List Bool
  read : List UInt8 → Except ε α
  length_write : ∀ a, fits a = true → (write a).length = size
  length_keep : ∀ a, fits a = true → (keep a).length = size
  read_write : ∀ a rest, fits a = true → read (write a ++ rest) = .ok a
  read_spec : ∀ bs a, read bs = .ok a →
    fits a = true ∧ size ≤ bs.length ∧ write a = Codec.masked (keep a) (bs.take size)

namespace Codec

variable {ε α β : Type}

/-! ### Little-endian integers -/

/-- The lowest `n` bytes, lowest first. -/
def le : ℕ → ℕ → List UInt8
  | 0, _ => []
  | n + 1, v => UInt8.ofNat v :: le n (v / 256)

/-- Two's complement. -/
def leInt (n : ℕ) (v : ℤ) : List UInt8 := le n (v % 256 ^ n).toNat

def ofLe : List UInt8 → ℕ
  | [] => 0
  | b :: bs => b.toNat + 256 * ofLe bs

@[simp] theorem length_le (n v : ℕ) : (le n v).length = n := by
  induction n generalizing v with
  | zero => rfl
  | succ n ih => rw [le, List.length_cons, ih]

theorem ofLe_le {n v : ℕ} (h : v < 256 ^ n) : ofLe (le n v) = v := by
  induction n generalizing v with
  | zero =>
    rw [le, ofLe]
    omega
  | succ n ih =>
    have hrest : v / 256 < 256 ^ n := by
      apply Nat.div_lt_of_lt_mul
      rwa [Nat.pow_succ, Nat.mul_comm] at h
    rw [le, ofLe, ih hrest, UInt8.toNat_ofNat']
    omega

theorem ofLe_lt (bs : List UInt8) : ofLe bs < 256 ^ bs.length := by
  induction bs with
  | nil => exact Nat.one_pos
  | cons b bs ih =>
    have hb : b.toNat < 256 := b.toNat_lt
    rw [ofLe, List.length_cons, Nat.pow_succ]
    omega

theorem le_ofLe (bs : List UInt8) : le bs.length (ofLe bs) = bs := by
  induction bs with
  | nil => rfl
  | cons b bs ih =>
    have hb : b.toNat < 256 := b.toNat_lt
    have hlow : UInt8.ofNat (b.toNat + 256 * ofLe bs) = b := by
      apply UInt8.toNat_inj.mp
      rw [UInt8.toNat_ofNat']
      omega
    have hrest : (b.toNat + 256 * ofLe bs) / 256 = ofLe bs := by omega
    rw [List.length_cons, ofLe, le, hlow, hrest, ih]

/-- An unsigned integer of `n` bytes. -/
def uint [ShortError ε] (n : ℕ) : Codec ε ℕ where
  size := n
  fits v := v < 256 ^ n
  write := le n
  keep _ := List.replicate n true
  read bs := if bs.length < n then .error ShortError.short else .ok (ofLe (bs.take n))
  length_write v _ := length_le n v
  length_keep _ _ := List.length_replicate
  read_write v rest h := by
    have hlen : ¬ (le n v ++ rest).length < n := by simp
    have htake : (le n v ++ rest).take n = le n v := List.take_left' (length_le n v)
    rw [if_neg hlen, htake, ofLe_le (of_decide_eq_true h)]
  read_spec bs v h := by
    split at h
    · cases h
    · next hlen =>
      have htake : (bs.take n).length = n := by
        rw [List.length_take]
        omega
      cases h
      have hlt := ofLe_lt (bs.take n)
      rw [htake] at hlt
      refine ⟨decide_eq_true hlt, not_lt.mp hlen, ?_⟩
      have hwrite := le_ofLe (bs.take n)
      have hmasked := masked_all (bs.take n)
      rw [htake] at hwrite hmasked
      rw [hwrite, hmasked]

/-! ### Records -/

/-- Nothing, in no bytes. -/
def void : Codec ε Unit where
  size := 0
  fits _ := true
  write _ := []
  keep _ := []
  read _ := .ok ()
  length_write _ _ := rfl
  length_keep _ _ := rfl
  read_write _ _ _ := rfl
  read_spec _ _ _ := ⟨rfl, Nat.zero_le _, rfl⟩

/-- One after the other. -/
def pair [ShortError ε] (c : Codec ε α) (d : Codec ε β) : Codec ε (α × β) where
  size := c.size + d.size
  fits x := c.fits x.1 && d.fits x.2
  write x := c.write x.1 ++ d.write x.2
  keep x := c.keep x.1 ++ d.keep x.2
  read bs :=
    if bs.length < c.size + d.size then .error ShortError.short
    else match c.read bs with
      | .error e => .error e
      | .ok a => match d.read (bs.drop c.size) with
        | .error e => .error e
        | .ok b => .ok (a, b)
  length_write x h := by
    rw [Bool.and_eq_true] at h
    rw [List.length_append, c.length_write x.1 h.1, d.length_write x.2 h.2]
  length_keep x h := by
    rw [Bool.and_eq_true] at h
    rw [List.length_append, c.length_keep x.1 h.1, d.length_keep x.2 h.2]
  read_write x rest h := by
    rw [Bool.and_eq_true] at h
    have hc := c.length_write x.1 h.1
    have hd := d.length_write x.2 h.2
    have hlen : ¬ (c.write x.1 ++ d.write x.2 ++ rest).length < c.size + d.size := by
      rw [List.length_append, List.length_append, hc, hd]
      omega
    have hdrop : (c.write x.1 ++ d.write x.2 ++ rest).drop c.size = d.write x.2 ++ rest := by
      rw [List.append_assoc]
      exact List.drop_left' hc
    rw [if_neg hlen, hdrop, List.append_assoc, c.read_write x.1 _ h.1, d.read_write x.2 _ h.2]
  read_spec bs x h := by
    split at h
    · cases h
    next hlen =>
    cases ha : c.read bs with
    | error e =>
      rw [ha] at h
      cases h
    | ok a =>
      rw [ha] at h
      dsimp only at h
      cases hb : d.read (bs.drop c.size) with
      | error e =>
        rw [hb] at h
        cases h
      | ok b =>
        rw [hb] at h
        cases h
        obtain ⟨hfa, hca, hwa⟩ := c.read_spec bs a ha
        obtain ⟨hfb, hcb, hwb⟩ := d.read_spec _ b hb
        refine ⟨by rw [hfa, hfb]; rfl, not_lt.mp hlen, ?_⟩
        have hkeep : (c.keep a).length = (bs.take c.size).length := by
          rw [c.length_keep a hfa, List.length_take]
          omega
        rw [hwa, hwb, List.take_add, masked_append hkeep]

/-- The same bytes for values of another type. -/
def imap (c : Codec ε α) (f : α → β) (g : β → α) (hfg : ∀ b, f (g b) = b)
    (hgf : ∀ a, c.fits a = true → g (f a) = a) : Codec ε β where
  size := c.size
  fits b := c.fits (g b)
  write b := c.write (g b)
  keep b := c.keep (g b)
  read bs := match c.read bs with
    | .error e => .error e
    | .ok a => .ok (f a)
  length_write b h := c.length_write (g b) h
  length_keep b h := c.length_keep (g b) h
  read_write b rest h := by
    rw [c.read_write (g b) rest h]
    exact congrArg Except.ok (hfg b)
  read_spec bs b h := by
    cases ha : c.read bs with
    | error e =>
      rw [ha] at h
      cases h
    | ok a =>
      rw [ha] at h
      cases h
      rw [hgf a (c.read_spec bs a ha).1]
      exact c.read_spec bs a ha

/-- The bits of a word, in `n` bytes. -/
def bits [ShortError ε] (n : ℕ) : Codec ε (BitVec (8 * n)) :=
  (uint n).imap (BitVec.ofNat (8 * n)) BitVec.toNat (fun b => by simp)
    (fun v h => by
      have hlt : v < 256 ^ n := of_decide_eq_true h
      have hpow : (256 : ℕ) ^ n = 2 ^ (8 * n) := by rw [Nat.pow_mul]
      rw [BitVec.toNat_ofNat, Nat.mod_eq_of_lt (hpow ▸ hlt)])

/-! ### Arrays -/

def readAll (c : Codec ε α) : ℕ → List UInt8 → Except ε (List α)
  | 0, _ => .ok []
  | n + 1, bs => match c.read bs with
    | .error e => .error e
    | .ok a => match readAll c n (bs.drop c.size) with
      | .error e => .error e
      | .ok as => .ok (a :: as)

theorem length_flatMap_of {β : Type} {f : α → List β} {n : ℕ} {as : List α}
    (h : ∀ a ∈ as, (f a).length = n) : (as.flatMap f).length = as.length * n := by
  rw [List.length_flatMap, List.map_congr_left h, List.map_const', List.sum_replicate, smul_eq_mul]

theorem readAll_write (c : Codec ε α) {as : List α} (rest : List UInt8)
    (h : as.all c.fits = true) : readAll c as.length (as.flatMap c.write ++ rest) = .ok as := by
  induction as with
  | nil => rfl
  | cons a as ih =>
    rw [List.all_cons, Bool.and_eq_true] at h
    have hdrop : (c.write a ++ (as.flatMap c.write ++ rest)).drop c.size =
        as.flatMap c.write ++ rest := List.drop_left' (c.length_write a h.1)
    rw [List.length_cons, readAll, List.flatMap_cons, List.append_assoc, c.read_write a _ h.1]
    rw [hdrop, ih h.2]

theorem readAll_spec (c : Codec ε α) {n : ℕ} {bs : List UInt8} {as : List α}
    (h : readAll c n bs = .ok as) :
    as.length = n ∧ as.all c.fits = true ∧ n * c.size ≤ bs.length ∧
      as.flatMap c.write = masked (as.flatMap c.keep) (bs.take (n * c.size)) := by
  induction n generalizing bs as with
  | zero =>
    cases h
    exact ⟨rfl, rfl, by simp, by simp [masked]⟩
  | succ n ih =>
    rw [readAll] at h
    cases ha : c.read bs with
    | error e =>
      rw [ha] at h
      cases h
    | ok a =>
      rw [ha] at h
      cases hrest : readAll c n (bs.drop c.size) with
      | error e =>
        rw [hrest] at h
        cases h
      | ok as' =>
        rw [hrest] at h
        cases h
        obtain ⟨hfa, hca, hwa⟩ := c.read_spec bs a ha
        obtain ⟨hlen, hall, hsize, hwrite⟩ := ih hrest
        rw [List.length_drop] at hsize
        have hmul : (n + 1) * c.size = c.size + n * c.size := by ring
        refine ⟨by rw [List.length_cons, hlen], by rw [List.all_cons, hfa, hall]; rfl, by omega, ?_⟩
        have hkeep : (c.keep a).length = (bs.take c.size).length := by
          rw [c.length_keep a hfa, List.length_take]
          omega
        rw [List.flatMap_cons, List.flatMap_cons, hwa, hwrite, hmul, List.take_add,
          masked_append hkeep]

/-- `n` values one after the other. -/
def array [ShortError ε] (n : ℕ) (c : Codec ε α) : Codec ε (List α) where
  size := n * c.size
  fits as := as.length == n && as.all c.fits
  write as := as.flatMap c.write
  keep as := as.flatMap c.keep
  read bs := if bs.length < n * c.size then .error ShortError.short else readAll c n bs
  length_write as h := by
    rw [Bool.and_eq_true, beq_iff_eq] at h
    rw [length_flatMap_of fun a ha => c.length_write a (List.all_eq_true.mp h.2 a ha), h.1]
  length_keep as h := by
    rw [Bool.and_eq_true, beq_iff_eq] at h
    rw [length_flatMap_of fun a ha => c.length_keep a (List.all_eq_true.mp h.2 a ha), h.1]
  read_write as rest h := by
    rw [Bool.and_eq_true, beq_iff_eq] at h
    have hlen : ¬ (as.flatMap c.write ++ rest).length < n * c.size := by
      rw [List.length_append, length_flatMap_of fun a ha =>
        c.length_write a (List.all_eq_true.mp h.2 a ha), h.1]
      omega
    rw [if_neg hlen, ← h.1]
    exact readAll_write c rest h.2
  read_spec bs as h := by
    split at h
    · cases h
    · obtain ⟨hlen, hall, hsize, hwrite⟩ := readAll_spec c h
      exact ⟨by rw [hlen, hall, beq_self_eq_true]; rfl, hsize, hwrite⟩

/-- A fixed number of bytes. -/
def bytes [ShortError ε] (n : ℕ) : Codec ε (Vector UInt8 n) where
  size := n
  fits _ := true
  write v := v.toList
  keep _ := List.replicate n true
  read bs :=
    if h : n ≤ bs.length then
      .ok ⟨(bs.take n).toArray, by rw [List.size_toArray, List.length_take, min_eq_left h]⟩
    else .error ShortError.short
  length_write v _ := Vector.length_toList
  length_keep _ _ := List.length_replicate
  read_write v rest _ := by
    have hlen : n ≤ (v.toList ++ rest).length := by
      rw [List.length_append, Vector.length_toList]
      omega
    have htake : (v.toList ++ rest).take n = v.toList := List.take_left' Vector.length_toList
    rw [dif_pos hlen]
    congr 1
    apply Vector.toList_inj.mp
    exact htake
  read_spec bs v h := by
    split at h
    · next hlen =>
      cases h
      have htake : (bs.take n).length = n := by
        rw [List.length_take]
        omega
      have hmasked := masked_all (bs.take n)
      rw [htake] at hmasked
      exact ⟨rfl, hlen, hmasked.symm⟩
    · cases h

/-! ### Enumerations -/

/-- One byte of which only some values are known. -/
def enum [ShortError ε] (bad : ε) (toNat : α → ℕ) (ofNat : ℕ → Option α)
    (hof : ∀ a, ofNat (toNat a) = some a) (hto : ∀ n a, ofNat n = some a → toNat a = n)
    (hlt : ∀ a, toNat a < 256) : Codec ε α where
  size := 1
  fits _ := true
  write a := [UInt8.ofNat (toNat a)]
  keep _ := [true]
  read bs := match bs with
    | [] => .error ShortError.short
    | b :: _ => match ofNat b.toNat with
      | none => .error bad
      | some a => .ok a
  length_write _ _ := rfl
  length_keep _ _ := rfl
  read_write a rest _ := by
    have hbyte : (UInt8.ofNat (toNat a)).toNat = toNat a := by
      rw [UInt8.toNat_ofNat']
      exact Nat.mod_eq_of_lt (hlt a)
    rw [List.singleton_append]
    dsimp only
    rw [hbyte, hof]
  read_spec bs a h := by
    cases bs with
    | nil => cases h
    | cons b bs =>
      dsimp only at h
      cases hb : ofNat b.toNat with
      | none =>
        rw [hb] at h
        cases h
      | some a' =>
        rw [hb] at h
        cases h
        refine ⟨rfl, Nat.succ_le_of_lt (Nat.succ_pos _), ?_⟩
        rw [hto _ _ hb, UInt8.ofNat_toNat]
        rfl

def bool [ShortError ε] (bad : ε) : Codec ε Bool :=
  enum bad (fun b => if b then 1 else 0)
    (fun n => if n = 0 then some false else if n = 1 then some true else none)
    (fun b => by cases b <;> rfl)
    (fun n b h => by
      split at h
      · cases h
        exact Eq.symm ‹_›
      · split at h
        · cases h
          exact Eq.symm ‹_›
        · cases h)
    (fun b => by cases b <;> decide)

/-- One byte that numbers the values in a list. -/
def numbered [ShortError ε] [DecidableEq α] (bad : ε) (all : List α) (hall : ∀ a, a ∈ all)
    (hnodup : all.Nodup) (hlen : all.length ≤ 256) : Codec ε α :=
  enum bad all.idxOf (fun n => all[n]?)
    (fun a => by
      have hlt := List.idxOf_lt_length_iff.mpr (hall a)
      rw [List.getElem?_eq_getElem hlt, List.getElem_idxOf])
    (fun n a h => by
      obtain ⟨hlt, rfl⟩ := List.getElem?_eq_some_iff.mp h
      exact hnodup.idxOf_getElem n hlt)
    (fun a => lt_of_lt_of_le (List.idxOf_lt_length_iff.mpr (hall a)) hlen)

/-! ### Formats without padding -/

/-- Every byte carries the value. -/
class Full (c : Codec ε α) : Prop where
  keep_eq : ∀ a, c.fits a = true → c.keep a = List.replicate c.size true

instance [ShortError ε] (n : ℕ) : Full (uint n : Codec ε ℕ) := ⟨fun _ _ => rfl⟩

instance [ShortError ε] (n : ℕ) : Full (bytes n : Codec ε (Vector UInt8 n)) := ⟨fun _ _ => rfl⟩

instance : Full (void : Codec ε Unit) := ⟨fun _ _ => rfl⟩

instance [ShortError ε] {bad : ε} {toNat : α → ℕ} {ofNat : ℕ → Option α} {hof hto hlt} :
    Full (enum bad toNat ofNat hof hto hlt) := ⟨fun _ _ => rfl⟩

instance [ShortError ε] {c : Codec ε α} {d : Codec ε β} [hc : Full c] [hd : Full d] :
    Full (c.pair d) where
  keep_eq x h := by
    rw [pair, Bool.and_eq_true] at h
    show c.keep x.1 ++ d.keep x.2 = List.replicate (c.size + d.size) true
    rw [hc.keep_eq x.1 h.1, hd.keep_eq x.2 h.2, List.replicate_append_replicate]

instance {c : Codec ε α} {f : α → β} {g : β → α} {hfg hgf} [hc : Full c] :
    Full (c.imap f g hfg hgf) :=
  ⟨fun b h => hc.keep_eq (g b) h⟩

instance [ShortError ε] {c : Codec ε α} {n : ℕ} [hc : Full c] : Full (array n c) where
  keep_eq as h := by
    rw [array, Bool.and_eq_true, beq_iff_eq] at h
    obtain ⟨rfl, hall⟩ := h
    show as.flatMap c.keep = List.replicate (as.length * c.size) true
    induction as with
    | nil => simp
    | cons a as ih =>
      rw [List.all_cons, Bool.and_eq_true] at hall
      rw [List.flatMap_cons, ih hall.2, hc.keep_eq a hall.1, List.replicate_append_replicate,
        List.length_cons]
      congr 1
      ring

/-! ### Tagged unions -/

/-- One case of a union: the values `inj b`, written as `b` is. -/
structure Variant (ε α : Type) where
  β : Type
  codec : Codec ε β
  inj : β → α
  proj : α → Option β
  proj_inj : ∀ b, proj (inj b) = some b := by
    intro b
    rfl
  inj_proj : ∀ a b, proj a = some b → inj b = a := by
    intro a b h
    cases a <;> cases h
    rfl

/-- The cases of a union by tag. -/
structure Variants (ε α : Type) where
  cases : List (Variant ε α)
  tag : α → ℕ
  few : cases.length ≤ 256
  tag_spec : ∀ a, ∃ v, cases[tag a]? = some v ∧ ∃ b, v.proj a = some b
  tag_inj : ∀ k v, cases[k]? = some v → ∀ b, tag (v.inj b) = k

namespace Variants

variable (vs : Variants ε α)

theorem tag_lt (a : α) : vs.tag a < 256 := by
  obtain ⟨v, hv, -⟩ := vs.tag_spec a
  obtain ⟨hlt, -⟩ := List.getElem?_eq_some_iff.mp hv
  exact lt_of_lt_of_le hlt vs.few

/-- The bytes of the payload's largest case. -/
def width : ℕ := vs.cases.foldl (fun w v => max w v.codec.size) 0

theorem le_foldl_max (l : List (Variant ε α)) (w : ℕ) :
    w ≤ l.foldl (fun w v => max w v.codec.size) w ∧
      ∀ v ∈ l, v.codec.size ≤ l.foldl (fun w v => max w v.codec.size) w := by
  induction l generalizing w with
  | nil => exact ⟨le_rfl, fun _ h => absurd h List.not_mem_nil⟩
  | cons v l ih =>
    obtain ⟨hle, hall⟩ := ih (max w v.codec.size)
    refine ⟨(le_max_left _ _).trans hle, fun u hu => ?_⟩
    rcases List.mem_cons.mp hu with rfl | hu
    · exact (le_max_right _ _).trans hle
    · exact hall u hu

theorem size_le_width {k : ℕ} {v : Variant ε α} (h : vs.cases[k]? = some v) :
    v.codec.size ≤ vs.width :=
  (le_foldl_max vs.cases 0).2 v (List.mem_of_getElem? h)

/-- What a value's case makes of it. -/
def onCase {γ : Type} (d : γ) (f : (v : Variant ε α) → v.β → γ) (a : α) : γ :=
  match vs.cases[vs.tag a]? with
  | none => d
  | some v => match v.proj a with
    | none => d
    | some b => f v b

theorem onCase_eq {γ : Type} {d : γ} {f : (v : Variant ε α) → v.β → γ} {a : α} {v : Variant ε α}
    {b : v.β} (hv : vs.cases[vs.tag a]? = some v) (hb : v.proj a = some b) :
    vs.onCase d f a = f v b := by
  simp only [onCase, hv, hb]

theorem onCase_inj {γ : Type} {d : γ} {f : (v : Variant ε α) → v.β → γ} {k : ℕ} {v : Variant ε α}
    (hv : vs.cases[k]? = some v) (b : v.β) : vs.onCase d f (v.inj b) = f v b := by
  apply vs.onCase_eq
  · rw [vs.tag_inj k v hv b]
    exact hv
  · exact v.proj_inj b

theorem fits_spec {a : α} (h : vs.onCase false (fun v b => v.codec.fits b) a = true) :
    ∃ (v : Variant ε α) (b : v.β), v.codec.fits b = true ∧ vs.cases[vs.tag a]? = some v ∧
      v.proj a = some b ∧ v.codec.size ≤ vs.width := by
  obtain ⟨v, hv, b, hb⟩ := vs.tag_spec a
  rw [vs.onCase_eq hv hb] at h
  exact ⟨v, b, h, hv, hb, vs.size_le_width hv⟩

/-- A tag byte, then the case's bytes, then zeroes up to the largest case. -/
def padded [ShortError ε] (bad : ε) : Codec ε α where
  size := 1 + vs.width
  fits := vs.onCase false fun v b => v.codec.fits b
  write a := UInt8.ofNat (vs.tag a) ::
    vs.onCase [] (fun v b => v.codec.write b ++ List.replicate (vs.width - v.codec.size) 0) a
  keep a := true ::
    vs.onCase [] (fun v b => v.codec.keep b ++ List.replicate (vs.width - v.codec.size) false) a
  read bs :=
    if bs.length < 1 + vs.width then .error ShortError.short
    else match vs.cases[(bs.headD 0).toNat]? with
      | none => .error bad
      | some v => match v.codec.read (bs.drop 1) with
        | .error e => .error e
        | .ok b => .ok (v.inj b)
  length_write a h := by
    obtain ⟨v, b, hfits, hv, hb, hle⟩ := vs.fits_spec h
    rw [vs.onCase_eq hv hb, List.length_cons, List.length_append, v.codec.length_write b hfits,
      List.length_replicate]
    omega
  length_keep a h := by
    obtain ⟨v, b, hfits, hv, hb, hle⟩ := vs.fits_spec h
    rw [vs.onCase_eq hv hb, List.length_cons, List.length_append, v.codec.length_keep b hfits,
      List.length_replicate]
    omega
  read_write a rest h := by
    obtain ⟨v, b, hfits, hv, hb, hle⟩ := vs.fits_spec h
    rw [vs.onCase_eq hv hb]
    have hlen : ¬ (UInt8.ofNat (vs.tag a) :: (v.codec.write b ++
        List.replicate (vs.width - v.codec.size) 0) ++ rest).length < 1 + vs.width := by
      rw [List.length_append, List.length_cons, List.length_append, v.codec.length_write b hfits,
        List.length_replicate]
      omega
    have hbyte : (UInt8.ofNat (vs.tag a)).toNat = vs.tag a := by
      rw [UInt8.toNat_ofNat']
      exact Nat.mod_eq_of_lt (vs.tag_lt a)
    rw [if_neg hlen, List.cons_append, List.headD_cons, hbyte, hv]
    dsimp only
    rw [List.drop_one, List.tail_cons, List.append_assoc, v.codec.read_write b _ hfits]
    dsimp only
    rw [v.inj_proj a b hb]
  read_spec bs a h := by
    split at h
    · cases h
    next hlen =>
    cases bs with
    | nil => simp at hlen
    | cons t bs =>
      rw [List.headD_cons, List.drop_one, List.tail_cons] at h
      rw [List.length_cons] at hlen
      cases hv : vs.cases[t.toNat]? with
      | none =>
        rw [hv] at h
        cases h
      | some v =>
        rw [hv] at h
        dsimp only at h
        cases hb : v.codec.read bs with
        | error e =>
          rw [hb] at h
          cases h
        | ok b =>
          rw [hb] at h
          cases h
          obtain ⟨hfits, hsize, hwrite⟩ := v.codec.read_spec bs b hb
          have hle := vs.size_le_width hv
          rw [vs.onCase_inj hv, vs.onCase_inj hv, vs.onCase_inj hv, vs.tag_inj _ v hv b]
          refine ⟨hfits, by rw [List.length_cons]; omega, ?_⟩
          have hsplit : vs.width = v.codec.size + (vs.width - v.codec.size) := by omega
          have hkeep : (v.codec.keep b).length = (bs.take v.codec.size).length := by
            rw [v.codec.length_keep b hfits, List.length_take]
            omega
          have hpad : ((bs.drop v.codec.size).take (vs.width - v.codec.size)).length =
              vs.width - v.codec.size := by
            rw [List.length_take, List.length_drop]
            omega
          have hbody : bs.take vs.width = bs.take v.codec.size ++
              (bs.drop v.codec.size).take (vs.width - v.codec.size) := by
            conv_lhs => rw [hsplit]
            exact List.take_add
          rw [Nat.add_comm, List.take_succ_cons, hbody, hwrite, UInt8.ofNat_toNat]
          show _ = t :: masked _ _
          rw [masked_append hkeep, masked_none _ _ hpad]

/-- The bytes of a value's case. -/
def payloadSize (a : α) : ℕ := vs.onCase 0 (fun v _ => v.codec.size) a

theorem padded_keep [ShortError ε] (bad : ε) (hfull : ∀ v ∈ vs.cases, Full v.codec) {a : α}
    (h : (vs.padded bad).fits a = true) : (vs.padded bad).keep a =
      List.replicate (1 + vs.payloadSize a) true ++
        List.replicate (vs.width - vs.payloadSize a) false := by
  obtain ⟨v, hv, b, hb⟩ := vs.tag_spec a
  have hfits : v.codec.fits b = true := by
    have hcase := vs.onCase_eq (d := false) (f := fun v b => v.codec.fits b) hv hb
    exact hcase.symm.trans h
  have hkeep := (hfull v (List.mem_of_getElem? hv)).keep_eq b hfits
  show true :: vs.onCase [] _ a = _
  rw [payloadSize, vs.onCase_eq hv hb, vs.onCase_eq hv hb, hkeep, Nat.add_comm,
    List.replicate_succ, List.cons_append]

/-- A tag byte, then the case's bytes and nothing else. -/
def frame (a : α) : List UInt8 :=
  UInt8.ofNat (vs.tag a) :: vs.onCase [] (fun v b => v.codec.write b) a

def fitsFrame (a : α) : Bool := vs.onCase false (fun v b => v.codec.fits b) a

def keepFrame (a : α) : List Bool := true :: vs.onCase [] (fun v b => v.codec.keep b) a

def unframe [ShortError ε] (bad badSize : ε) : List UInt8 → Except ε α
  | [] => .error ShortError.short
  | t :: bs => match vs.cases[t.toNat]? with
    | none => .error bad
    | some v =>
      if bs.length ≠ v.codec.size then .error badSize
      else match v.codec.read bs with
        | .error e => .error e
        | .ok b => .ok (v.inj b)

theorem unframe_frame [ShortError ε] (bad badSize : ε) {a : α} (h : vs.fitsFrame a = true) :
    vs.unframe bad badSize (vs.frame a) = .ok a := by
  obtain ⟨v, hv, b, hb⟩ := vs.tag_spec a
  rw [fitsFrame, vs.onCase_eq hv hb] at h
  have hbyte : (UInt8.ofNat (vs.tag a)).toNat = vs.tag a := by
    exact Nat.mod_eq_of_lt (vs.tag_lt a)
  have hread := v.codec.read_write b [] h
  rw [List.append_nil] at hread
  rw [frame, vs.onCase_eq hv hb, unframe, hbyte, hv]
  dsimp only
  rw [if_neg (not_not.mpr (v.codec.length_write b h)), hread]
  exact congrArg Except.ok (v.inj_proj a b hb)

theorem frame_unframe [ShortError ε] {bad badSize : ε} {bs : List UInt8} {a : α}
    (h : vs.unframe bad badSize bs = .ok a) :
    vs.fitsFrame a = true ∧ (vs.keepFrame a).length = bs.length ∧
      vs.frame a = masked (vs.keepFrame a) bs := by
  cases bs with
  | nil => cases h
  | cons t bs =>
    rw [unframe] at h
    cases hv : vs.cases[t.toNat]? with
    | none =>
      rw [hv] at h
      cases h
    | some v =>
      rw [hv] at h
      dsimp only at h
      split at h
      · cases h
      next hsize =>
      rw [not_not] at hsize
      cases hb : v.codec.read bs with
      | error e =>
        rw [hb] at h
        cases h
      | ok b =>
        rw [hb] at h
        cases h
        obtain ⟨hfits, -, hwrite⟩ := v.codec.read_spec bs b hb
        rw [List.take_of_length_le (le_of_eq hsize)] at hwrite
        rw [fitsFrame, keepFrame, frame, vs.onCase_inj hv, vs.onCase_inj hv, vs.onCase_inj hv,
          vs.tag_inj _ v hv b, UInt8.ofNat_toNat, hwrite, List.length_cons, List.length_cons,
          v.codec.length_keep b hfits, hsize]
        exact ⟨hfits, rfl, rfl⟩

end Variants

end Codec
