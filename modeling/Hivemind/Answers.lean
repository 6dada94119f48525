import Hivemind.Recovery

/-! Replies answer the request they name: a result that is handed to a client comes from
the entry of the committed log that carries the client's own request. -/
namespace Hivemind

open Relation Core

variable {hash : Hash} {inp : Input} {allow : Hazard → Prop} {c c' : Core} {n : ℕ}
  {init : StateMachine} {rs : List Result} {k : ℕ} {seed : UInt64}

/-! ### What an answer says -/

/-- The log that was committed at the moment of an event. -/
def Snapshot.committedLog (s : Snapshot) : List LogEntry :=
  (opsAbove 0 s.commitMin).filterMap fun op =>
    if op = 0 then none else (s.journal (journalSlot op)).filter (fun e => e.opNumber == op)

/-- An entry of the log is the client's request, and `result` is what executing it returned,
on the way from a fresh machine to the tables of the moment. -/
def Snapshot.Yields (s : Snapshot) (seed : UInt64) (clientId requestId : ℕ)
    (result : Result) : Prop :=
  ∃ mem sm rs, ∃ i : ℕ, ∃ e : LogEntry,
    Replay.run StateMachine.applyEntry (StateMachine.initInPlace mem seed) s.committedLog =
      some (sm, rs) ∧
    sm.eraseTicks = s.stateMachine.eraseTicks ∧ s.committedLog[i]? = some e ∧
    rs[i]? = some result ∧ e.clientId = clientId ∧ e.requestId = requestId

/-- An execution result in the history belongs to the request it names. -/
def Record.Answers (seed : UInt64) (r : Record) : Prop :=
  ∀ clientId requestId result op, r.event = .replied clientId requestId result (some op) →
    r.state.Yields seed clientId requestId result

/-! ### Rows and entries -/

theorem mem_postings {log : List LogEntry} {x : ClientEntry} {i : ℕ}
    (h : (postings log rs)[i]? = some x) :
    ∃ e r, log[i]? = some e ∧ rs[i]? = some r ∧ x = posting e r := by
  obtain ⟨e, r, he, hr, hx⟩ := List.getElem?_zipWith_eq_some.mp h
  exact ⟨e, r, he, hr, hx.symm⟩

theorem postings_active (log : List LogEntry) (rs : List Result) :
    ∀ x ∈ postings log rs, x.active = true := by
  intro x hx
  obtain ⟨i, hi⟩ := List.mem_iff_getElem?.mp hx
  obtain ⟨e, r, -, -, rfl⟩ := mem_postings hi
  rfl

theorem Booked.row {clientId : ℕ} {x : ClientEntry} (h : Booked init rs k c)
    (hx : c.findClient clientId = some x) :
    ∃ i : ℕ, ∃ e : LogEntry, c.committedLog[i]? = some e ∧
      rs[i]? = some x.result ∧ e.clientId = clientId ∧ e.requestId = x.requestId := by
  have hrow : rowOf c.clientTable clientId = some x := hx
  have hactive : ∀ y ∈ (postings c.committedLog rs).take k, y.active = true :=
    fun y hy => postings_active _ _ y (List.mem_of_mem_take hy)
  rw [h.table, (rowOf_tableOf clientId hactive).1] at hrow
  have hmem : x ∈ postings c.committedLog rs :=
    List.mem_of_mem_take (List.mem_reverse.mp (List.mem_of_find?_eq_some hrow))
  have hclient : x.clientId = clientId := by simpa using List.find?_some hrow
  obtain ⟨i, hi⟩ := List.mem_iff_getElem?.mp hmem
  obtain ⟨e, r, he, hr, rfl⟩ := mem_postings hi
  exact ⟨i, e, he, hr, hclient, rfl⟩

theorem Booked.waits {op : ℕ} (h : Booked init rs k c) (hpos : 0 < op) (hle : op ≤ c.commitMin)
    (hflag : c.pendingReply (journalSlot op) = true) :
    ∃ i : ℕ, ∃ e : LogEntry, c.committedLog[i]? = some e ∧
      rs[i]? = some (c.pendingReplyResult (journalSlot op)) ∧
      e.clientId = c.pendingReplyClientId (journalSlot op) ∧
      e.requestId = c.pendingReplyRequestId (journalSlot op) := by
  have hwait := h.waiting op ((h.flags op hpos hle).mp hflag) hle
  obtain ⟨e, r, he, hr, heq⟩ := mem_postings hwait
  have hids := ClientEntry.mk.inj heq
  exact ⟨op - 1, e, he, by rw [hids.2.2.1]; exact hr, hids.1.symm, hids.2.1.symm⟩

/-! ### Transitions -/

/-- What a transition tells clients. -/
inductive Replies (allow : Hazard → Prop) (c c' : Core) : Prop where
  | silent (h : ∀ r ∈ c'.history, r ∈ c.history ∨
      ∀ clientId requestId result op, r.event ≠ .replied clientId requestId result (some op))
  | told {clientId requestId : ℕ} {x : ClientEntry} (hx : c.findClient clientId = some x)
      (hle : requestId ≤ x.requestId)
      (hlate : c.Overtaken { clientId, requestId } → allow .overtaken)
      (hist : c'.history = c.history ++
        [⟨.replied clientId requestId x.result (some x.op), c.snapshot⟩])
  | published {op : ℕ} (hpos : 0 < op) (hle : op ≤ c.commitMin)
      (hflag : c.pendingReply (journalSlot op) = true)
      (hist : c'.history = c.history ++ [⟨.replied (c.pendingReplyClientId (journalSlot op))
        (c.pendingReplyRequestId (journalSlot op)) (c.pendingReplyResult (journalSlot op))
        (some op), c.snapshot⟩])

theorem Replies.same (h : c'.history = c.history) : Replies allow c c' :=
  .silent fun _ hr => .inl (h ▸ hr)

theorem Replies.noted {ev : Event} {snap : Snapshot} (h : c'.history = c.history ++ [⟨ev, snap⟩])
    (hev : ∀ clientId requestId result op, ev ≠ .replied clientId requestId result (some op)) :
    Replies allow c c' := by
  refine .silent fun r hr => ?_
  rw [h] at hr
  rcases List.mem_append.mp hr with hr | hr
  · exact .inl hr
  · rw [List.mem_singleton.mp hr]
    exact .inr hev

theorem Replies.congr {c₁ : Core} (h : Replies allow c c₁) (hist : c'.history = c₁.history) :
    Replies allow c c' := by
  cases h with
  | silent h => exact .silent (hist ▸ h)
  | told hx hle hlate h => exact .told hx hle hlate (hist.trans h)
  | published hpos hle hflag h => exact .published hpos hle hflag (hist.trans h)

theorem Replies.of_placed {c₁ : Core} (h : c.Placed hash c₁) : Replies allow c c₁ := by
  cases h with
  | installed =>
    rw [installCandidate, installEntries_frame]
    exact .noted rfl fun _ _ _ _ h => by cases h
  | truncated => exact .noted rfl fun _ _ _ _ h => by cases h
  | kept => exact .same rfl

theorem Act.replies (h : Act hash inp allow c c') : Replies allow c c' := by
  cases h with
  | view h =>
    cases h with
    | @send dst m =>
      by_cases hup : c.storageFailed = true
      · exact .same (if_pos hup)
      · exact .noted (if_neg hup) fun _ _ _ _ h => by cases h
    | place _ h => exact .of_placed h
    | openView _ h => exact (Replies.of_placed h).congr (by rw [openView_frame])
    | _ => exact .same rfl
  | commit h =>
    cases h with
    | votes =>
      by_cases hup : c.commitMax + 1 ≤ c.commitMax
      · exact .same (if_pos hup)
      · exact .noted (if_neg hup) fun _ _ _ _ h => by cases h
    | @follow target =>
      by_cases hup : min target c.opNumber ≤ c.commitMax
      · exact .same (if_pos hup)
      · exact .noted (if_neg hup) fun _ _ _ _ h => by cases h
    | execute => exact .same rfl
  | reply hup h hlate =>
    by_cases hset : c.clientReplySet = true
    swap
    · exact .same (if_neg hset)
    cases h with
    | replay hx hle => exact .told hx hle hlate (if_pos hset)
    | logFull => exact .noted (if_pos hset) fun _ _ _ _ h => by cases h
  | publishReply hpos hle hflag =>
    by_cases hset : c.clientReplySet = true
    · exact .published hpos hle hflag (if_pos hset)
    · exact .same (if_neg hset)
  | sync => exact .noted rfl fun _ _ _ _ h => by cases h
  | begin =>
    by_cases hup : c.pendingStartView.commitMin ≤ c.commitMax
    · exact .same (if_pos hup)
    · exact .noted (if_neg hup) fun _ _ _ _ h => by cases h
  | _ => exact .same rfl

theorem Replies.answers (h : Replies allow c c') (hno : ¬ allow .overtaken)
    (hb : ∃ mem rs k, Booked (StateMachine.initInPlace mem seed) rs k c)
    (ha : ∀ r ∈ c.history, r.Answers seed) : ∀ r ∈ c'.history, r.Answers seed := by
  obtain ⟨mem, rs, k, hb⟩ := hb
  obtain ⟨sm, hrun, hticks⟩ := hb.state
  -- an entry of the committed log answers in the state at hand
  have hanswers : ∀ {i : ℕ} {e : LogEntry} {op : ℕ} {result : Result},
      c.committedLog[i]? = some e → rs[i]? = some result →
      Record.Answers seed ⟨.replied e.clientId e.requestId result (some op), c.snapshot⟩ := by
    rintro i e op result he hr clientId requestId result' op' ⟨⟩
    exact ⟨mem, sm, rs, i, e, hrun, hticks, he, hr, rfl, rfl⟩
  intro r hr
  cases h with
  | silent h =>
    rcases h r hr with h | h
    · exact ha r h
    · exact fun clientId requestId result op hev => absurd hev (h clientId requestId result op)
  | @told clientId requestId x hx hle hlate hist =>
    rw [hist] at hr
    rcases List.mem_append.mp hr with hr | hr
    · exact ha r hr
    have heq : requestId = x.requestId :=
      le_antisymm hle (not_lt.mp fun hlt => hno (hlate ⟨x, hx, hlt⟩))
    obtain ⟨i, e, he, hres, hclient, hreq⟩ := hb.row hx
    rw [List.mem_singleton.mp hr, heq, ← hclient, ← hreq]
    exact hanswers he hres
  | published hpos hle hflag hist =>
    rw [hist] at hr
    rcases List.mem_append.mp hr with hr | hr
    · exact ha r hr
    obtain ⟨i, e, he, hres, hclient, hreq⟩ := hb.waits hpos hle hflag
    rw [List.mem_singleton.mp hr, ← hclient, ← hreq]
    exact hanswers he hres

/-! ### Runs -/

/-- What is known of a replica that answers. -/
structure Answering (seed : UInt64) (c : Core) : Prop extends Accounted seed c where
  solid : Solid c
  answers : ∀ r ∈ c.history, r.Answers seed

theorem Act.answering (h : Act hash inp allow c c') (hno : ¬ allow .overtaken)
    (hs : Sane hash c) (ha : Answering seed c) : Answering seed c' where
  toAccounted := h.accounted hs ha.solid ha.toAccounted
  solid := h.solid hs ha.solid
  answers := h.replies.answers hno ha.booked ha.answers

theorem noteInstalled_answers (h : ∀ r ∈ c.history, r.Answers seed) :
    ∀ r ∈ c.noteInstalled.history, r.Answers seed := by
  intro r hr
  rcases List.mem_append.mp hr with hr | hr
  · exact h r hr
  · rw [List.mem_singleton.mp hr]
    exact fun _ _ _ _ h => by cases h

theorem Core.Restarts.answering (h : c.Restarts hash c') (hseed : c.stateMachine.seed = seed)
    (ha : ∀ r ∈ c.history, r.Answers seed) : Answering seed c' :=
  ⟨h.accounted hseed, h.solid, h.history ▸ ha⟩

theorem Moves.answering {safe : Core → Prop} {cs cs' : ℕ → Core} {r : ℕ}
    (h : Moves hash n allow safe cs cs') (hno : ¬ allow .overtaken) (hs : AllSane hash n cs)
    (hr : r < n) (ha : Answering seed (cs r)) : Answering seed (cs' r) := by
  refine h.single ha (fun inp c' _ h => h.answering hno (hs.sane r hr) ha)
    fun c₀ c' _ hc₀ h => ?_
  rcases hc₀ with rfl | rfl
  · exact h.answering ha.seeded ha.answers
  · exact h.answering ha.seeded (noteInstalled_answers ha.answers)

/-- While no request comes in after a later one of the same client was answered, every
result that reaches a client is that of the request it names. -/
theorem replies_answer_requests (k : ClusterConfig n) (r : ℕ) (hr : r < n)
    (mem : StateMachine) (seed : UInt64) (hinit : (k.cfg r).stateMachine = mem.initInPlace seed)
    (acts : List Action)
    (hrun : Execution.Along (Cluster.step hash) (Cluster.Keeps [.overtaken] fun _ => True)
      (Cluster.start k) acts) :
    ∀ rec ∈ ((Cluster.run hash (Cluster.start k) acts).replica r).history, rec.Answers seed := by
  have hstart : Answering seed (Cluster.startCores k r) :=
    ⟨start_accounted hinit, start_solid _, fun _ h => by cases h⟩
  obtain ⟨cs, hcs, -, ha⟩ := Cluster.invariant k (fun _ _ _ h => h)
    (I := fun cs => Answering seed (cs r)) hstart
    (fun cs cs' hs ha h => h.answering (by simp) hs hr ha) hrun
  rcases hcs.history hr with hist | hist
  · rw [hist]
    exact ha.answers
  · rw [hist]
    exact noteInstalled_answers ha.answers

/-- Client 7 asks once, and asks again. -/
theorem replies_answer_requests_resent :
    let s := (Cluster.run pairingHash (Cluster.start (.uniform 1 (by decide) false))
      [.request 0 1 1, .tick 0 1, .request 0 2 1]).replica 0
    s.committedLog.length = 1 ∧ ∀ rec ∈ s.history, rec.Answers 1 :=
  ⟨by decide +kernel,
    replies_answer_requests _ 0 (by decide) blankStateMachine 1 rfl _ (by decide +kernel)⟩

/-- Client 7 sends request 2, and then request 1. It is told the result of request 2, and
the log has no request 1. -/
theorem late_request_gets_other_result :
    let s := (Cluster.run pairingHash (Cluster.start (.uniform 1 (by decide) false))
      [.request 0 1 2, .tick 0 1, .request 0 2 1]).replica 0
    (s.history.getLast?.map fun rec => match rec.event with
      | .replied clientId requestId _ origin => some (clientId, requestId, origin)
      | _ => none) = some (some (7, 1, some 1)) ∧
    s.committedLog.map (fun e => (e.clientId, e.requestId)) = [(7, 2)] := by
  decide +kernel

end Hivemind
