import Hivemind.Fold
import Hivemind.Replay

/-! The books of a replica: the tables after its committed log, and the client table once
every result is published. Execution moves the tables at once, publication follows when the
commit is durable; both together come to what a replay of the log yields. -/
namespace Hivemind

open Relation Core

variable {hash : Hash} {inp : Input} {allow : Hazard → Prop} {c c' : Core} {e : LogEntry}
  {init sm : StateMachine} {rs : List Result} {k : ℕ}

/-! ### The client table -/

/-- The row of a client is replaced, or added. -/
def postRow (table : List ClientEntry) (x : ClientEntry) : List ClientEntry :=
  match table.findIdx? (fun e => e.clientId == x.clientId) with
  | some i => table.modify i (fun e =>
      { e with requestId := x.requestId, result := x.result, op := x.op })
  | none => table ++ [x]

theorem updateClientTable_row {clientId requestId op : ℕ} {result : Result}
    (h : c.updateClientTable clientId requestId result op = some c') :
    c' = { c with clientTable := postRow c.clientTable { clientId, requestId, result, op } } := by
  unfold updateClientTable at h
  unfold postRow
  split at h
  · next i hi =>
    cases h
    simp only [hi]
  · next hi =>
    split at h
    · cases h
      simp only [hi]
    · cases h

theorem updateClientTable_fits (clientId requestId op : ℕ) (result : Result)
    (h : c.clientTable.length < clientTableMax) :
    c.updateClientTable clientId requestId result op = some
      { c with clientTable := postRow c.clientTable { clientId, requestId, result, op } } := by
  unfold updateClientTable postRow
  cases c.clientTable.findIdx? (fun e => e.clientId == clientId) with
  | some i => rfl
  | none => exact if_pos h

theorem postRow_length (table : List ClientEntry) (x : ClientEntry) :
    (postRow table x).length ≤ table.length + 1 := by
  unfold postRow
  split
  · rw [List.length_modify]
    exact Nat.le_succ _
  · exact (List.length_append).le

/-- The row an executed entry leaves in the client table. -/
def posting (e : LogEntry) (result : Result) : ClientEntry :=
  { clientId := e.clientId, requestId := e.requestId, result, op := e.opNumber }

def postings (log : List LogEntry) (rs : List Result) : List ClientEntry :=
  List.zipWith posting log rs

def tableOf (rows : List ClientEntry) : List ClientEntry := rows.foldl postRow []

/-- The row of a client. -/
def rowOf (table : List ClientEntry) (clientId : ℕ) : Option ClientEntry :=
  table.find? (fun e => e.clientId == clientId && e.active)

theorem postRow_active {table : List ClientEntry} {x : ClientEntry}
    (htable : ∀ y ∈ table, y.active = true) (hx : x.active = true) :
    ∀ y ∈ postRow table x, y.active = true := by
  intro y hy
  unfold postRow at hy
  split at hy
  · obtain ⟨i, hi, rfl⟩ := List.mem_iff_getElem.mp hy
    rw [List.getElem_modify]
    have hmem := htable _ (List.getElem_mem (show i < table.length by simpa using hi))
    split
    · exact hmem
    · exact hmem
  · rcases List.mem_append.mp hy with hy | hy
    · exact htable y hy
    · rw [List.mem_singleton.mp hy]
      exact hx

theorem rowOf_postRow {table : List ClientEntry} {x : ClientEntry} (clientId : ℕ)
    (htable : ∀ y ∈ table, y.active = true) (hx : x.active = true) :
    rowOf (postRow table x) clientId = if x.clientId = clientId then some x
      else rowOf table clientId := by
  induction table with
  | nil =>
    show rowOf [x] clientId = _
    unfold rowOf
    rw [List.find?_cons, hx, Bool.and_true]
    by_cases h : x.clientId = clientId
    · rw [if_pos h, beq_iff_eq.mpr h]
    · rw [if_neg h, beq_eq_false_iff_ne.mpr h]
  | cons y table ih =>
    have hy : y.active = true := htable y (by simp)
    have hrest := ih fun z hz => htable z (by simp [hz])
    by_cases hxy : y.clientId = x.clientId
    · have hrow : ({ y with requestId := x.requestId, result := x.result, op := x.op } :
          ClientEntry) = x := by
        cases x
        cases y
        simp_all
      have hpost : postRow (y :: table) x = x :: table := by
        unfold postRow
        rw [List.findIdx?_cons, beq_iff_eq.mpr hxy]
        exact congrArg (· :: table) hrow
      rw [hpost]
      unfold rowOf
      rw [List.find?_cons, List.find?_cons, hx, hy, Bool.and_true, Bool.and_true, hxy]
      by_cases h : x.clientId = clientId
      · rw [if_pos h, beq_iff_eq.mpr h]
      · rw [if_neg h, beq_eq_false_iff_ne.mpr h]
    · have hpost : postRow (y :: table) x = y :: postRow table x := by
        unfold postRow
        rw [List.findIdx?_cons, beq_eq_false_iff_ne.mpr hxy]
        cases table.findIdx? (fun e => e.clientId == x.clientId) with
        | none => rfl
        | some i => rfl
      rw [hpost]
      unfold rowOf at hrest ⊢
      rw [List.find?_cons, List.find?_cons, hy, Bool.and_true, hrest]
      by_cases h : y.clientId = clientId
      · have hne : x.clientId ≠ clientId := fun hx' => hxy (h.trans hx'.symm)
        rw [beq_iff_eq.mpr h, if_neg hne, if_neg hne]
      · rw [beq_eq_false_iff_ne.mpr h]

theorem rowOf_tableOf {rows : List ClientEntry} (clientId : ℕ)
    (hrows : ∀ y ∈ rows, y.active = true) :
    rowOf (tableOf rows) clientId = rows.reverse.find? (·.clientId == clientId) ∧
      ∀ y ∈ tableOf rows, y.active = true := by
  induction rows using List.reverseRecOn with
  | nil => exact ⟨rfl, fun y hy => absurd hy List.not_mem_nil⟩
  | append_singleton rows x ih =>
    obtain ⟨hrow, hact⟩ := ih fun y hy => hrows y (by simp [hy])
    have hx := hrows x (by simp)
    have htable : tableOf (rows ++ [x]) = postRow (tableOf rows) x := by
      rw [tableOf, List.foldl_append]
      rfl
    rw [htable]
    refine ⟨?_, postRow_active hact hx⟩
    rw [rowOf_postRow clientId hact hx, hrow, List.reverse_append, List.reverse_singleton,
      List.singleton_append, List.find?_cons]
    by_cases h : x.clientId = clientId
    · rw [if_pos h, beq_iff_eq.mpr h]
    · rw [if_neg h, beq_eq_false_iff_ne.mpr h]

/-! ### What a log comes to -/

def StateMachine.applyEntry (sm : StateMachine) (e : LogEntry) : Option (StateMachine × Result) :=
  sm.apply e.command

/-- The replicated tables, and the client table with every result published. -/
structure Books where
  tables : StateMachine
  clients : List ClientEntry

/-- What replaying a log comes to; `none` where a command stops the process. -/
def booksOf (init : StateMachine) (log : List LogEntry) : Option Books :=
  (Replay.run StateMachine.applyEntry init log).map fun x =>
    ⟨x.1.replicated, tableOf (postings log x.2)⟩

namespace Core

/-- The row that waits in the slot of `op`. -/
def pendingPosting (c : Core) (op : ℕ) : ClientEntry :=
  { clientId := c.pendingReplyClientId (journalSlot op)
    requestId := c.pendingReplyRequestId (journalSlot op)
    result := c.pendingReplyResult (journalSlot op)
    op }

/-- The client table after everything that waits is published. -/
def publishedTable (c : Core) : List ClientEntry :=
  (((opsAbove 0 c.commitMin).filter fun op => c.pendingReply (journalSlot op)).map
    c.pendingPosting).foldl postRow c.clientTable

def books (c : Core) : Books := ⟨c.stateMachine.replicated, c.publishedTable⟩

end Core

/-! ### Posting entry by entry -/

/-- The committed log was executed from `init`, and its first `k` results are published. -/
structure Booked (init : StateMachine) (rs : List Result) (k : ℕ) (c : Core) : Prop where
  complete : c.committedLog.length = c.commitMin
  state : ∃ sm, Replay.run StateMachine.applyEntry init c.committedLog = some (sm, rs) ∧
    sm.eraseTicks = c.stateMachine.eraseTicks
  le : k ≤ c.commitMin
  table : c.clientTable = tableOf ((postings c.committedLog rs).take k)
  flags : ∀ op, 0 < op → op ≤ c.commitMin → (c.pendingReply (journalSlot op) = true ↔ k < op)
  waiting : ∀ op, k < op → op ≤ c.commitMin →
    (postings c.committedLog rs)[op - 1]? = some (c.pendingPosting op)

/-- The first reply that waits is published. -/
structure Published (c c' : Core) (op : ℕ) : Prop where
  pos : 0 < op
  le : op ≤ c.commitMin
  flag : c.pendingReply (journalSlot op) = true
  first : ∀ op' < op, c.journalHas op' = true → c.pendingReply (journalSlot op') = false
  commitMin : c'.commitMin = c.commitMin
  state : c'.stateMachine = c.stateMachine
  table : c'.clientTable = postRow c.clientTable (c.pendingPosting op)
  reply : c'.pendingReply = upd c.pendingReply (journalSlot op) false
  row : c'.pendingPosting = c.pendingPosting

/-- What a transition does to the books. -/
inductive Posts (c c' : Core) : Prop where
  | same (hmin : c'.commitMin = c.commitMin)
      (hstate : c'.stateMachine.eraseTicks = c.stateMachine.eraseTicks)
      (htable : c'.clientTable = c.clientTable) (hreply : c'.pendingReply = c.pendingReply)
      (hrow : c'.pendingPosting = c.pendingPosting)
  | executed {e : LogEntry} {sm : StateMachine} {result : Result}
      (hget : c.journalGet (c.commitMin + 1) = some e)
      (happly : c.stateMachine.apply e.command = some (sm, result))
      (heq : c' = c.executed (c.commitMin + 1) e sm result)
  | published {op : ℕ} (h : Published c c' op)

theorem Act.posts (h : Act hash inp allow c c') : Posts c c' := by
  cases h with
  | view h =>
    cases h with
    | place _ h =>
      rw [h.frame]
      exact .same rfl rfl rfl rfl rfl
    | openView _ h =>
      rw [openView_frame, h.frame]
      exact .same rfl rfl rfl rfl rfl
    | _ => exact .same rfl rfl rfl rfl rfl
  | commit h =>
    cases h with
    | execute _ _ hget happly => exact .executed hget happly rfl
    | _ => exact .same rfl rfl rfl rfl rfl
  | publishReply hpos hle hflag _ _ h hfirst =>
    rw [updateClientTable_row h]
    exact .published ⟨hpos, hle, hflag, hfirst, rfl, rfl, rfl, rfl, rfl⟩
  | route => exact .same rfl (StateMachine.touchDeployment_erase _ _) rfl rfl rfl
  | _ => exact .same rfl rfl rfl rfl rfl

/-! ### The committed log, op by op -/

theorem filterMap_ops {α : Type*} {get : ℕ → Option α} :
    ∀ {hi : ℕ}, (∀ op, 0 < op → op ≤ hi → (get op).isSome = true) →
      ((opsAbove 0 hi).filterMap get).length = hi ∧
        ∀ op, 0 < op → op ≤ hi → ((opsAbove 0 hi).filterMap get)[op - 1]? = get op
  | 0, _ => ⟨rfl, fun op hpos hle => by omega⟩
  | hi + 1, hall => by
    obtain ⟨hlen, hget⟩ := filterMap_ops fun op hpos hle => hall op hpos (Nat.le_succ_of_le hle)
    obtain ⟨a, ha⟩ := Option.isSome_iff_exists.mp (hall (hi + 1) (Nat.succ_pos hi) le_rfl)
    rw [opsAbove_succ, List.filterMap_append]
    simp only [List.filterMap_cons, ha, List.filterMap_nil]
    refine ⟨by rw [List.length_append, hlen]; rfl, fun op hpos hle => ?_⟩
    rcases Nat.lt_or_eq_of_le hle with hlt | rfl
    · rw [List.getElem?_append_left (by omega)]
      exact hget op hpos (by omega)
    · rw [List.getElem?_append_right (by omega), hlen, ha]
      simp

theorem Solid.log_length (hp : Solid c) : c.committedLog.length = c.commitMin :=
  (filterMap_ops hp.held).1

theorem Solid.log_get (hp : Solid c) {op : ℕ} (hpos : 0 < op) (hle : op ≤ c.commitMin) :
    c.committedLog[op - 1]? = c.journalGet op := (filterMap_ops hp.held).2 op hpos hle

theorem Booked.rows (h : Booked init rs k c) (hp : Solid c) :
    (postings c.committedLog rs).length = c.commitMin := by
  obtain ⟨sm, hrun, -⟩ := h.state
  rw [postings, List.length_zipWith, Replay.run_length hrun, hp.log_length, min_self]

/-! ### Transitions -/

theorem journalSlot_ne {a b : ℕ} (ha : 0 < a) (hlt : a < b) (hb : b ≤ logSizeMax) :
    journalSlot a ≠ journalSlot b := fun h =>
  absurd (journalSlot_inj ha (by omega) (by omega) hb h) hlt.ne

theorem Booked.same (h : Booked init rs k c) (hkeep : KeepsCommitted c c')
    (hmin : c'.commitMin = c.commitMin)
    (hstate : c'.stateMachine.eraseTicks = c.stateMachine.eraseTicks)
    (htable : c'.clientTable = c.clientTable) (hreply : c'.pendingReply = c.pendingReply)
    (hrow : c'.pendingPosting = c.pendingPosting) : Booked init rs k c' := by
  obtain ⟨sm, hrun, hticks⟩ := h.state
  have hlog := hkeep.committedLog hmin
  refine ⟨?_, ⟨sm, ?_, hticks.trans hstate.symm⟩, ?_, ?_, ?_, ?_⟩
  · rw [hlog, hmin]
    exact h.complete
  · rw [hlog]
    exact hrun
  · rw [hmin]
    exact h.le
  · rw [hlog, htable]
    exact h.table
  · rw [hreply, hmin]
    exact h.flags
  · rw [hlog, hrow, hmin]
    exact h.waiting

theorem Booked.execute {result : Result} (h : Booked init rs k c) (hs : SlotOk hash c)
    (hp : Solid c) (hget : c.journalGet (c.commitMin + 1) = some e)
    (happly : c.stateMachine.apply e.command = some (sm, result)) :
    Booked init (rs ++ [result]) k (c.executed (c.commitMin + 1) e sm result) := by
  obtain ⟨sm₀, hrun, hticks⟩ := h.state
  obtain ⟨sm₁, happly₁, hticks₁⟩ := StateMachine.apply_congr hticks happly
  have hlog : (c.executed (c.commitMin + 1) e sm result).committedLog = c.committedLog ++ [e] := by
    show (opsAbove 0 (c.commitMin + 1)).filterMap c.journalGet = _
    rw [opsAbove_succ, List.filterMap_append]
    simp [Core.committedLog, hget]
  have hlen : c.committedLog.length = rs.length := (Replay.run_length hrun).symm
  have hrows : postings (c.committedLog ++ [e]) (rs ++ [result]) =
      postings c.committedLog rs ++ [posting e result] := List.zipWith_append hlen
  have hcount := h.rows hp
  have hcap := (hs.bounds hget).2
  -- the new reply waits in a slot of its own
  have hother : ∀ {op : ℕ}, 0 < op → op ≤ c.commitMin →
      journalSlot op ≠ journalSlot (c.commitMin + 1) :=
    fun hpos hle => journalSlot_ne hpos (by omega) hcap
  refine ⟨?_, ⟨sm₁, ?_, hticks₁⟩, Nat.le_succ_of_le h.le, ?_, fun op hpos hle => ?_,
    fun op hlt hle => ?_⟩
  · rw [hlog, List.length_append, hp.log_length]
    rfl
  · rw [hlog]
    exact Replay.run_concat hrun happly₁
  · rw [hlog, hrows, List.take_append_of_le_length (hcount ▸ h.le)]
    exact h.table
  · show upd c.pendingReply _ true (journalSlot op) = true ↔ _
    rcases Nat.lt_or_eq_of_le (show op ≤ c.commitMin + 1 from hle) with hlt | rfl
    · rw [upd_of_ne _ _ (hother hpos (by omega))]
      exact h.flags op hpos (by omega)
    · rw [upd_self]
      exact ⟨fun _ => Nat.lt_succ_of_le h.le, fun _ => rfl⟩
  · rw [hlog, hrows]
    rcases Nat.lt_or_eq_of_le (show op ≤ c.commitMin + 1 from hle) with hlt' | rfl
    · rw [List.getElem?_append_left (by omega), h.waiting op hlt (by omega)]
      have hne := hother (show 0 < op by omega) (by omega)
      simp only [Core.pendingPosting, executed, queueReply, upd_of_ne _ _ hne]
    · rw [List.getElem?_append_right (by omega), hcount]
      have hop := opNumber_of_journalGet hget
      simp [Core.pendingPosting, executed, queueReply, posting, hop]

theorem Booked.publish {op : ℕ} (h : Booked init rs k c) (hp : Solid c) (hs : SlotOk hash c)
    (hkeep : KeepsCommitted c c') (hpub : Published c c' op) : Booked init rs (k + 1) c' := by
  obtain ⟨hpos, hle, hflag, hfirst, hmin, hstate, htable, hreply, hrow⟩ := hpub
  obtain ⟨sm, hrun, hticks⟩ := h.state
  have hlog := hkeep.committedLog hmin
  have hgt : k < op := (h.flags op hpos hle).mp hflag
  -- the first unpublished op is the next one
  have hop : op = k + 1 := by
    by_contra hne
    have hwait := (h.flags (k + 1) (Nat.succ_pos k) (by omega)).mpr (Nat.lt_succ_self k)
    have hnone := hfirst (k + 1) (by omega) (hp.held _ (Nat.succ_pos k) (by omega))
    exact absurd (hwait.symm.trans hnone) (by decide)
  have hcap : c.commitMin ≤ logSizeMax := by
    obtain ⟨e, he⟩ := journalHas_iff.mp (hp.held c.commitMin (by omega) le_rfl)
    exact (hs.bounds he).2
  refine ⟨?_, ⟨sm, ?_, ?_⟩, by omega, ?_, fun op' hpos' hle' => ?_, fun op' hlt hle' => ?_⟩
  · rw [hlog, hmin]
    exact h.complete
  · rw [hlog]
    exact hrun
  · rw [hstate]
    exact hticks
  · have hwait := h.waiting op hgt hle
    rw [hop, Nat.add_sub_cancel] at hwait
    rw [hlog, List.take_add_one, hwait, htable, h.table, hop]
    simp [tableOf, List.foldl_append]
  · rw [hmin] at hle'
    rw [hreply]
    by_cases heq : op' = op
    · rw [heq, upd_self]
      exact ⟨fun h => (by cases h), fun h => absurd h (by omega)⟩
    · have hne : journalSlot op' ≠ journalSlot op := by
        rcases Nat.lt_or_gt_of_ne heq with hlt | hlt
        · exact journalSlot_ne hpos' hlt (hle.trans hcap)
        · exact (journalSlot_ne hpos hlt (hle'.trans hcap)).symm
      rw [upd_of_ne _ _ hne, h.flags op' hpos' hle']
      omega
  · rw [hlog, hrow]
    exact h.waiting op' (by omega) (by omega)

/-- Transitions keep the books. -/
theorem Act.booked (h : Act hash inp allow c c') (hs : Sane hash c) (hp : Solid c)
    (hb : ∃ rs k, Booked init rs k c) : ∃ rs k, Booked init rs k c' := by
  obtain ⟨rs, k, hb⟩ := hb
  have hkeep := h.keepsCommitted hs hp
  cases h.posts with
  | same hmin hstate htable hreply hrow =>
    exact ⟨rs, k, hb.same hkeep hmin hstate htable hreply hrow⟩
  | executed hget happly heq =>
    rw [heq]
    exact ⟨_, k, hb.execute hs.slots hp hget happly⟩
  | published hpub => exact ⟨rs, k + 1, hb.publish hp hs.slots hkeep hpub⟩

/-! ### Publication completed -/

theorem opsAbove_split {lo mid hi : ℕ} (h1 : lo ≤ mid) (h2 : mid ≤ hi) :
    opsAbove lo hi = opsAbove lo mid ++ opsAbove mid hi := by
  simp only [opsAbove]
  rw [show hi - lo = (mid - lo) + (hi - mid) by omega, ← List.range'_append_1]
  congr 2
  omega

/-- Once everything that waits is published, the books are those of the log. -/
theorem Booked.books (h : Booked init rs k c) (hp : Solid c) :
    booksOf init c.committedLog = some c.books := by
  obtain ⟨sm, hrun, hticks⟩ := h.state
  have hwaiting : ((opsAbove 0 c.commitMin).filter fun op => c.pendingReply (journalSlot op)) =
      opsAbove k c.commitMin := by
    rw [opsAbove_split (Nat.zero_le k) h.le, List.filter_append,
      List.filter_eq_nil_iff.mpr, List.nil_append, List.filter_eq_self.mpr]
    · intro op hop
      obtain ⟨hlt, hle⟩ := mem_opsAbove.mp hop
      exact (h.flags op (by omega) hle).mpr hlt
    · intro op hop
      obtain ⟨hpos, hle⟩ := mem_opsAbove.mp hop
      rw [h.flags op hpos (hle.trans h.le)]
      omega
  have hrows : (opsAbove k c.commitMin).map c.pendingPosting =
      (postings c.committedLog rs).drop k := by
    refine List.ext_getElem? fun i => ?_
    rw [List.getElem?_map, List.getElem?_drop, opsAbove]
    by_cases hi : i < c.commitMin - k
    · have hwait := h.waiting (k + 1 + i) (by omega) (by omega)
      rw [show k + 1 + i - 1 = k + i by omega] at hwait
      rw [hwait, List.getElem?_range' hi, Option.map_some, Nat.one_mul]
    · rw [List.getElem?_eq_none (by simp; omega), List.getElem?_eq_none (by rw [h.rows hp]; omega)]
      rfl
  unfold booksOf Core.books Core.publishedTable
  rw [hrun, hwaiting, hrows, h.table, Option.map_some]
  congr 2
  · exact StateMachine.replicated_of_ticks hticks
  · unfold tableOf
    rw [← List.foldl_append, List.take_append_drop]

theorem blank_booked (h0 : c.commitMin = 0) (htable : c.clientTable = []) :
    Booked c.stateMachine [] 0 c := by
  have hlog : c.committedLog = [] := by
    rw [Core.committedLog, h0]
    rfl
  refine ⟨?_, ⟨_, ?_, rfl⟩, Nat.zero_le _, ?_, fun op hpos hle => ?_, fun op hpos hle => ?_⟩
  · rw [hlog, h0]
    rfl
  · rw [hlog]
    rfl
  · rw [hlog, htable]
    rfl
  · omega
  · omega

end Hivemind
