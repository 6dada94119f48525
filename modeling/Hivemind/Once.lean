import Hivemind.Answers
import Hivemind.Lineage

/-! Every request once: the requests of a client stand in the log in the order of their ids.
A leader knows this of the log it appends to, because the checksum of the last entry names
the whole log before it. -/
namespace Hivemind

open Relation Core

variable {hash : Hash} {inp : Input} {allow : Hazard → Prop} {c c' : Core} {e : LogEntry}
  {init : StateMachine} {rs : List Result} {k n : ℕ} {l : List LogEntry}

/-- Requests of one client stand in the order of their ids. -/
def Growing (l : List LogEntry) : Prop :=
  l.Pairwise fun e e' => e.clientId = e'.clientId → e.requestId < e'.requestId

/-- The log that ends in the entry is known, and its requests are in order. -/
def Descends (hash : Hash) (e : LogEntry) : Prop :=
  ∃ l, Suffix hash 1 0 (l ++ [e]) e.checksum ∧ Growing (l ++ [e])

/-- The journal up to op `k`. -/
def Core.logTo (c : Core) (k : ℕ) : List LogEntry := (opsAbove 0 k).filterMap c.journalGet

theorem Growing.nodup (h : Growing l) : (l.map fun e => (e.clientId, e.requestId)).Nodup := by
  refine List.pairwise_map.mpr (h.imp fun {e e'} hlt heq => ?_)
  obtain ⟨hclient, hrequest⟩ := Prod.mk.inj heq
  exact absurd (hlt hclient) (by omega)

/-! ### The log as a chain -/

theorem mem_logTo (h : e ∈ c.logTo k) :
    0 < e.opNumber ∧ e.opNumber ≤ k ∧ c.journalGet e.opNumber = some e := by
  obtain ⟨op, hop, hget⟩ := List.mem_filterMap.mp h
  obtain ⟨hpos, hle⟩ := mem_opsAbove.mp hop
  rw [opNumber_of_journalGet hget]
  exact ⟨hpos, hle, hget⟩

theorem logTo_succ (h : c.journalGet (k + 1) = some e) : c.logTo (k + 1) = c.logTo k ++ [e] := by
  rw [logTo, opsAbove_succ, List.filterMap_append]
  simp [logTo, h]

theorem logTo_get (hheld : ∀ op, 0 < op → op ≤ k → c.journalHas op = true) :
    (c.logTo k).length = k ∧
      ∀ i e, (c.logTo k)[i]? = some e → i < k ∧ c.journalGet (i + 1) = some e := by
  obtain ⟨hlen, hget⟩ := filterMap_ops hheld
  refine ⟨hlen, fun i e he => ?_⟩
  have hi : i < k := hlen ▸ (List.getElem?_eq_some_iff.mp he).1
  exact ⟨hi, (hget (i + 1) i.succ_pos hi).symm.trans he⟩

theorem logTo_suffix (hs : SlotOk hash c)
    (hheld : ∀ op, 0 < op → op ≤ k → c.journalHas op = true)
    (hlinks : ∀ op e, op ≤ k → c.journalGet op = some e → c.linkHolds e = true) :
    ∃ tip, Suffix hash 1 0 (c.logTo k) tip := by
  obtain ⟨hlen, hat⟩ := logTo_get hheld
  obtain ⟨tip, htip⟩ : ∃ tip, Linked 0 (c.logTo k) tip := by
    refine HashChain.exists_chain (fun e he => ?_) fun i e e' he he' => ?_
    · obtain ⟨hi, hget⟩ := hat 0 e he
      have hlink := hlinks _ e hi hget
      rwa [linkHolds_first (opNumber_of_journalGet hget)] at hlink
    · obtain ⟨-, hget⟩ := hat i e he
      obtain ⟨hi', hget'⟩ := hat (i + 1) e' he'
      have hop := opNumber_of_journalGet hget'
      have hlink := hlinks _ e' hi' hget'
      rw [linkHolds_next (by omega)] at hlink
      exact (hlink e (by rw [hop]; exact hget)).symm
  refine ⟨tip, fun i e he => ?_, fun e he => hs.valid (mem_logTo he).2.2, htip⟩
  rw [opNumber_of_journalGet (hat i e he).2, Nat.add_comm]

theorem Suffix.concat {op parent : ℕ} (hs : Suffix hash op parent l e.parentChecksum)
    (hvalid : e.valid hash = true) (hop : e.opNumber = op + l.length) :
    Suffix hash op parent (l ++ [e]) e.checksum := by
  refine ⟨fun i e' he' => ?_, fun e' he' => ?_, HashChain.chain_concat.mpr ⟨hs.linked, rfl⟩⟩
  · rcases Nat.lt_or_ge i l.length with hi | hi
    · rw [List.getElem?_append_left hi] at he'
      exact hs.numbered i e' he'
    · rw [List.getElem?_append_right hi] at he'
      obtain ⟨hlt, rfl⟩ := List.getElem?_eq_some_iff.mp he'
      have hi' : i = l.length := by
        simp only [List.length_singleton] at hlt
        omega
      subst hi'
      simpa using hop
  · rcases List.mem_append.mp he' with he' | he'
    · exact hs.valid e' he'
    · rw [List.mem_singleton.mp he']
      exact hvalid

/-- The last entry names the log before it. -/
theorem Descends.log_eq (hinj : Function.Injective hash) (hd : Descends hash e)
    {tip : ℕ} (hs : Suffix hash 1 0 (l ++ [e]) tip) : Growing (l ++ [e]) := by
  obtain ⟨l', hs', hgrow⟩ := hd
  have hlen : ∀ {l : List LogEntry} {tip : ℕ}, Suffix hash 1 0 (l ++ [e]) tip →
      e.opNumber = 1 + l.length := fun hs => hs.numbered _ e (by simp)
  have htip : tip = e.checksum := (HashChain.chain_concat.mp hs.linked).2.symm
  have heq : l ++ [e] = l' ++ [e] := by
    refine HashChain.Chain.eq_of_tip (S := fun e => e.valid hash = true)
      (fun a b => LogEntry.eq_of_checksum_eq hinj) hs.valid hs'.valid ?_ (htip ▸ hs.linked)
      hs'.linked
    have h := hlen hs
    have h' := hlen hs'
    simp only [List.length_append]
    omega
  rw [heq]
  exact hgrow

/-- A journal without holes is in order, if its last entry is known to end such a log. -/
theorem logTo_growing (hinj : Function.Injective hash) (hc : Carries (Descends hash) c)
    (hs : SlotOk hash c) (hheld : ∀ op, 0 < op → op ≤ k → c.journalHas op = true)
    (hlinks : ∀ op e, op ≤ k → c.journalGet op = some e → c.linkHolds e = true) :
    Growing (c.logTo k) := by
  obtain ⟨tip, htip⟩ := logTo_suffix hs hheld hlinks
  cases k with
  | zero => exact List.Pairwise.nil
  | succ k =>
    obtain ⟨e, he⟩ := journalHas_iff.mp (hheld (k + 1) k.succ_pos le_rfl)
    rw [logTo_succ he] at htip ⊢
    exact (hc.get he).log_eq hinj htip

/-! ### Appending a request -/

theorem Growing.postings (h : Growing l) (rs : List Result) :
    (postings l rs).Pairwise fun x y => x.clientId = y.clientId → x.requestId < y.requestId := by
  rw [List.pairwise_iff_getElem]
  intro i j hi hj hij
  obtain ⟨e, r, he, -, hx⟩ := mem_postings (List.getElem?_eq_getElem hi)
  obtain ⟨e', r', he', -, hy⟩ := mem_postings (List.getElem?_eq_getElem hj)
  obtain ⟨hi', rfl⟩ := List.getElem?_eq_some_iff.mp he
  obtain ⟨hj', rfl⟩ := List.getElem?_eq_some_iff.mp he'
  rw [hx, hy]
  exact List.pairwise_iff_getElem.mp h i j hi' hj' hij

theorem Booked.row_latest (hb : Booked init rs k c) (hp : Solid c)
    (hgrow : Growing c.committedLog) {i : ℕ} (he : c.committedLog[i]? = some e) (hi : i < k) :
    ∃ x, c.findClient e.clientId = some x ∧ e.requestId ≤ x.requestId := by
  let rows := (postings c.committedLog rs).take k
  have hactive : ∀ y ∈ rows, y.active = true :=
    fun y hy => postings_active _ _ y (List.mem_of_mem_take hy)
  have hlen : i < (postings c.committedLog rs).length := by
    rw [hb.rows hp]
    exact hi.trans_le hb.le
  obtain ⟨e', r, he', -, hx⟩ := mem_postings (List.getElem?_eq_getElem hlen)
  cases he.symm.trans he'
  have hmem : posting e r ∈ rows.reverse := by
    rw [List.mem_reverse, ← hx]
    exact List.mem_iff_getElem?.mpr ⟨i, by rw [List.getElem?_take_of_lt hi,
      List.getElem?_eq_getElem hlen]⟩
  have hrow : c.findClient e.clientId = rows.reverse.find? (·.clientId == e.clientId) := by
    show rowOf c.clientTable e.clientId = _
    rw [hb.table]
    exact (rowOf_tableOf e.clientId hactive).1
  obtain ⟨x, hfind⟩ : ∃ x, rows.reverse.find? (·.clientId == e.clientId) = some x :=
    Option.isSome_iff_exists.mp (List.find?_isSome.mpr ⟨_, hmem, beq_self_eq_true e.clientId⟩)
  refine ⟨x, hrow.trans hfind, ?_⟩
  -- the row that is found was posted last
  obtain ⟨hclient, before, after, hsplit, hbefore⟩ := List.find?_eq_some_iff_append.mp hfind
  have hsorted := (hgrow.postings rs).sublist (List.take_sublist k _)
  rw [← List.pairwise_reverse, show ((postings c.committedLog rs).take k).reverse = _ from hsplit]
    at hsorted
  rw [hsplit] at hmem
  rcases List.mem_append.mp hmem with hmem | hmem
  · have hne := hbefore _ hmem
    simp [posting] at hne
  rcases List.mem_cons.mp hmem with hmem | hmem
  · rw [← hmem]
    exact le_rfl
  · have hlt := (List.pairwise_cons.mp (List.pairwise_append.mp hsorted).2.1).1 _ hmem
    exact (hlt (beq_iff_eq.mp hclient).symm).le

/-- A request that is appended is later than all others of its client, unless one that is
no earlier is on its way. -/
theorem nextEntry_latest (hp : Solid c) (hb : Booked init rs k c) (hgrow : Growing c.committedLog)
    {m : RequestMsg} (hadmits : c.Admits m) (hbehind : ¬ c.Behind m) {j : ℕ} :
    ∀ e ∈ c.logTo j, e.clientId = m.clientId → e.requestId < m.requestId := by
  intro e he hclient
  obtain ⟨hpos, -, hget⟩ := mem_logTo he
  obtain ⟨-, hslot, -⟩ := journalGet_eq_some.mp hget
  by_contra hle
  by_cases hmin : c.commitMin < e.opNumber
  · exact hbehind ⟨_, journalSlot_lt _, .inr ⟨e, hslot, hmin, hclient, not_lt.mp hle⟩⟩
  have hlog : c.committedLog[e.opNumber - 1]? = some e :=
    (hp.log_get hpos (not_lt.mp hmin)).trans hget
  by_cases hk : k < e.opNumber
  · have hflag := (hb.flags _ hpos (not_lt.mp hmin)).mpr hk
    obtain ⟨e', r, he', -, hrow⟩ := mem_postings (hb.waiting _ hk (not_lt.mp hmin))
    cases hlog.symm.trans he'
    have hids := ClientEntry.mk.inj hrow
    exact hbehind ⟨_, journalSlot_lt _, .inl ⟨hflag, hids.1.trans hclient,
      (not_lt.mp hle).trans hids.2.1.ge⟩⟩
  · obtain ⟨x, hx, hxle⟩ := hb.row_latest hp hgrow hlog (by omega)
    have hnone := hadmits.unanswered
    rw [← hclient, hx, Option.filter_eq_none_iff] at hnone
    have hlt := hnone x rfl
    simp only [ge_iff_le, decide_eq_true_eq, not_le] at hlt
    omega

theorem Restorable.full (hr : Restorable hash c) (hset : c.Settled) (hcount : 0 < c.replicaCount) :
    ∀ op, 0 < op → op ≤ c.opNumber → c.journalHas op = true := by
  by_cases h1 : c.replicaCount = 1
  · exact (hr.alone h1).full
  · exact hr.solid.full hset (by omega)

theorem logTo_tip {tip : ℕ} (h : Suffix hash 1 0 (c.logTo c.opNumber) tip)
    (hfull : ∀ op, 0 < op → op ≤ c.opNumber → c.journalHas op = true) (m : RequestMsg) :
    tip = (c.nextEntry hash m).parentChecksum := by
  have hlink : c.linkHolds (c.nextEntry hash m) = true := requestEntry_links m
  rcases Nat.eq_zero_or_pos c.opNumber with h0 | hpos
  · rw [linkHolds_first (by show c.opNumber + 1 = 1; omega)] at hlink
    rw [h0] at h
    exact h.linked.symm.trans hlink.symm
  · obtain ⟨prev, hprev⟩ := journalHas_iff.mp (hfull c.opNumber hpos le_rfl)
    rw [linkHolds_next (by show c.opNumber + 1 ≠ 1; omega)] at hlink
    have hlast := hlink prev hprev
    have hsucc : c.opNumber = c.opNumber - 1 + 1 := by omega
    rw [hsucc] at h hprev
    rw [logTo_succ hprev] at h
    rw [← (HashChain.chain_concat.mp h.linked).2]
    exact hlast

theorem nextEntry_descends (hinj : Function.Injective hash) (hs : Sane hash c)
    (hr : Restorable hash c) (hb : Booked init rs k c) (hc : Carries (Descends hash) c)
    (hst : c.status = .normal) {m : RequestMsg} (hadmits : c.Admits m) (hbehind : ¬ c.Behind m) :
    Descends hash (c.nextEntry hash m) := by
  have hset : c.Settled := .inl hst
  have hfull := hr.full hset hs.count
  have hlinks : ∀ op e, op ≤ c.opNumber → c.journalGet op = some e → c.linkHolds e = true :=
    fun op e _ => hr.threaded.all hset op e
  have hcommitted : Growing c.committedLog :=
    logTo_growing hinj hc hs.slots hr.solid.held hr.threaded.committed
  have hgrow := logTo_growing hinj hc hs.slots hfull hlinks
  have hlatest := nextEntry_latest (j := c.opNumber) hr.solid hb hcommitted hadmits hbehind
  obtain ⟨tip, htip⟩ := logTo_suffix hs.slots hfull hlinks
  rw [logTo_tip htip hfull m] at htip
  refine ⟨c.logTo c.opNumber, htip.concat (requestEntry_valid m) ?_, ?_⟩
  · rw [(logTo_get hfull).1]
    exact Nat.add_comm _ _
  · refine List.pairwise_append.mpr ⟨hgrow, List.pairwise_singleton _ _, fun e he e' he' => ?_⟩
    rw [List.mem_singleton.mp he']
    exact hlatest e he

/-! ### Runs -/

/-- What is known of a replica whose log is in order. -/
structure Orderly (hash : Hash) (c : Core) : Prop extends Restorable hash c where
  booked : ∃ init rs k, Booked init rs k c
  carries : Carries (Descends hash) c

theorem Moves.orderly {safe : Core → Prop} {cs cs' : ℕ → Core} (hinj : Function.Injective hash)
    (h : Moves hash n allow safe cs cs') (hlink : ¬ allow .unlinked) (horder : ¬ allow .disorder)
    (hs : AllSane hash n cs) (ho : ∀ r < n, Orderly hash (cs r)) :
    ∀ r < n, Orderly hash (cs' r) := by
  intro r hr
  refine ⟨h.restorable hlink hs hr (ho r hr).toRestorable, ?_, ?_⟩
  · refine h.single (P := fun c => ∃ init rs k, Booked init rs k c) (ho r hr).booked
      (fun inp c' _ h => ?_) fun c₀ c' _ _ h => ⟨_, h.booked⟩
    obtain ⟨init, hb⟩ := (ho r hr).booked
    exact ⟨init, h.booked (hs.sane r hr) (ho r hr).solid hb⟩
  · refine h.carries hs (fun q hq m hst _ hadmits hbehind => ?_) (fun q hq => (ho q hq).carries) r hr
    obtain ⟨init, rs, k, hb⟩ := (ho q hq).booked
    exact nextEntry_descends hinj (hs.sane q hq) (ho q hq).toRestorable hb (ho q hq).carries hst
      hadmits fun h => horder (hbehind h)

theorem start_orderly (k : ClusterConfig n) (r : ℕ) : Orderly hash (Cluster.startCores k r) :=
  ⟨start_restorable (k.blank r), ⟨_, [], 0, blank_booked rfl rfl⟩, start_carries k r⟩

/-- In every run in which no request is appended behind a later one of its client, and no
entry is taken over that does not link to the log, the committed log of every running replica
has every request once. -/
theorem requests_committed_once (hinj : Function.Injective hash) (k : ClusterConfig n)
    (acts : List Action)
    (hrun : Execution.Along (Cluster.step hash)
      (Cluster.Keeps [.disorder, .unlinked] fun _ => True) (Cluster.start k) acts)
    (r : ℕ) (hr : r < n)
    (hup : ((Cluster.run hash (Cluster.start k) acts).procs r).stopped = false) :
    (((Cluster.run hash (Cluster.start k) acts).replica r).committedLog.map
      fun e => (e.clientId, e.requestId)).Nodup := by
  obtain ⟨cs, hcs, hs, ho⟩ := Cluster.invariant k (fun _ _ _ h => h)
    (I := fun cs => ∀ r < n, Orderly hash (cs r)) (fun r _ => start_orderly k r)
    (fun cs cs' hs ho h => h.orderly hinj (by simp) (by simp) hs ho) hrun
  have heq := (hcs.procs r hr).running hup
  have hor := ho r hr
  have hslots := (hs.sane r hr).slots
  rw [heq] at hor hslots
  have hgrow : Growing ((Cluster.run hash (Cluster.start k) acts).replica r).committedLog :=
    logTo_growing hinj hor.carries hslots hor.solid.held hor.threaded.committed
  exact hgrow.nodup

/-- Two requests of client 7, the second sent twice. -/
theorem requests_committed_once_resent :
    (((Cluster.run pairingHash (Cluster.start (.uniform 1 (by decide) false))
      [.request 0 1 3, .tick 0 1, .request 0 2 5, .tick 0 2, .request 0 3 5, .tick 0 3]).replica
        0).committedLog.map fun e => (e.clientId, e.requestId)).Nodup :=
  requests_committed_once pairingHash_injective _ _ (by decide +kernel) 0 (by decide)
    (by decide +kernel)

/-- Client 7 sends request 5 and then request 3, and resends 5. The row of request 3 has
replaced that of request 5, which is executed again. -/
theorem request_committed_twice :
    let s := (Cluster.run pairingHash (Cluster.start (.uniform 1 (by decide) false))
      [.request 0 1 5, .request 0 1 3, .tick 0 1, .request 0 2 5, .tick 0 2]).replica 0
    s.committedLog.map (fun e => (e.clientId, e.requestId)) = [(7, 5), (7, 3), (7, 5)] := by
  decide +kernel

end Hivemind
