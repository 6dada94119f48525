import Hivemind.RequestQueue

/-! The queues of the request queue, seen as a map from deployments to lists: whatever the calls,
the rings hold what this map holds. -/
namespace Hivemind.RequestQueue

/-- What the queues are for. A request is known by its place among all the accepted ones. -/
structure Shelf where
  /-- The latest first. -/
  accepted : List (ℕ × PendingRequest) := []
  waiting : ℕ → List (ℕ × PendingRequest) := fun _ => []
  /-- The latest first. -/
  taken : List (ℕ × PendingRequest) := []

namespace Shelf

/-- Nothing but the oldest request that waits for a deployment can be dequeued. -/
def step (s : Shelf) : Event → Option Shelf
  | .accepted r =>
    some
      { s with
        accepted := (s.accepted.length, r) :: s.accepted
        waiting := upd s.waiting r.deploymentId
          (s.waiting r.deploymentId ++ [(s.accepted.length, r)]) }
  | .dequeued r =>
    match s.waiting r.deploymentId with
    | [] => none
    | p :: rest =>
      if p.2 = r then
        some { s with waiting := upd s.waiting r.deploymentId rest, taken := p :: s.taken }
      else none
  | .cancelled c => some { s with waiting := fun d => (s.waiting d).filter (·.2.clientId != c) }
  | .refused _ | .issued _ _ _ | .resolved _ _ _ | .nothing => some s

/-- After events of which the latest comes first. -/
def run : List Event → Option Shelf
  | [] => some {}
  | e :: older => (run older).bind (·.step e)

structure Tidy (s : Shelf) : Prop where
  places : ∀ p ∈ s.accepted, p.1 < s.accepted.length
  distinct : s.accepted.Pairwise fun p m => m.1 < p.1
  waits : ∀ d, ∀ p ∈ s.waiting d, p ∈ s.accepted ∧ p.2.deploymentId = d
  ordered : ∀ d, (s.waiting d).Pairwise fun p m => p.1 < m.1
  went : ∀ p ∈ s.taken, p ∈ s.accepted ∧ ∀ m ∈ s.waiting p.2.deploymentId, p.1 < m.1
  inOrder : s.taken.Pairwise fun p m => p.2.deploymentId = m.2.deploymentId → m.1 < p.1

theorem tidy_init : Tidy {} := ⟨nofun, .nil, nofun, fun _ => .nil, nofun, .nil⟩

theorem Tidy.step {s s' : Shelf} {ev : Event} (h : Tidy s) (hstep : s.step ev = some s') :
    Tidy s' := by
  cases ev with
  | accepted r =>
    cases hstep
    have hlast : ∀ p ∈ s.accepted, p.1 < s.accepted.length := h.places
    refine ⟨?_, ?_, fun d p hp => ?_, fun d => ?_, fun p hp => ?_, h.inOrder⟩
    · refine List.forall_mem_cons.mpr ⟨Nat.lt_succ_self _, fun p hp => ?_⟩
      exact (hlast p hp).trans (Nat.lt_succ_self _)
    · exact List.pairwise_cons.mpr ⟨hlast, h.distinct⟩
    · dsimp only at hp
      rw [upd_apply] at hp
      split at hp
      · next hd =>
        subst hd
        obtain hp | hp := List.mem_append.mp hp
        · exact ⟨List.mem_cons_of_mem _ (h.waits _ p hp).1, (h.waits _ p hp).2⟩
        · rw [List.mem_singleton.mp hp]
          exact ⟨List.mem_cons_self, rfl⟩
      · exact ⟨List.mem_cons_of_mem _ (h.waits d p hp).1, (h.waits d p hp).2⟩
    · dsimp only
      rw [upd_apply]
      split
      · refine List.pairwise_append.mpr ⟨h.ordered _, List.pairwise_singleton _ _, ?_⟩
        intro p hp m hm
        rw [List.mem_singleton.mp hm]
        exact hlast p (h.waits _ p hp).1
      · exact h.ordered d
    · refine ⟨List.mem_cons_of_mem _ (h.went p hp).1, fun m hm => ?_⟩
      dsimp only at hm
      rw [upd_apply] at hm
      split at hm
      · next hd =>
        obtain hm | hm := List.mem_append.mp hm
        · exact (h.went p hp).2 m (hd ▸ hm)
        · rw [List.mem_singleton.mp hm]
          exact hlast p (h.went p hp).1
      · exact (h.went p hp).2 m hm
  | dequeued r =>
    simp only [Shelf.step] at hstep
    split at hstep
    · cases hstep
    next p rest hwait =>
    split at hstep
    · next hr =>
      cases hstep
      subst hr
      have hsub : ∀ d, (upd s.waiting p.2.deploymentId rest d).Sublist (s.waiting d) := by
        intro d
        rw [upd_apply]
        split
        · next hd =>
          rw [hd, hwait]
          exact List.sublist_cons_self p rest
        · exact List.Sublist.refl _
      have hp : p ∈ s.waiting p.2.deploymentId := hwait ▸ List.mem_cons_self
      refine ⟨h.places, h.distinct, fun d m hm => h.waits d m ((hsub d).subset hm),
        fun d => (h.ordered d).sublist (hsub d), ?_, ?_⟩
      · refine List.forall_mem_cons.mpr ⟨⟨(h.waits _ p hp).1, fun m hm => ?_⟩, fun m hm =>
          ⟨(h.went m hm).1, fun n hn => (h.went m hm).2 n ((hsub _).subset hn)⟩⟩
        have horder := h.ordered p.2.deploymentId
        rw [hwait] at horder
        dsimp only at hm
        rw [upd_self] at hm
        exact List.rel_of_pairwise_cons horder hm
      · refine List.pairwise_cons.mpr ⟨fun m hm hd => ?_, h.inOrder⟩
        exact (h.went m hm).2 p (hd ▸ hp)
    · cases hstep
  | cancelled c =>
    cases hstep
    exact ⟨h.places, h.distinct, fun d p hp => h.waits d p (List.mem_of_mem_filter hp),
      fun d => (h.ordered d).filter _,
      fun p hp => ⟨(h.went p hp).1, fun m hm => (h.went p hp).2 m (List.mem_of_mem_filter hm)⟩,
      h.inOrder⟩
  | refused r =>
    cases hstep
    exact h
  | issued id w r =>
    cases hstep
    exact h
  | resolved id w a =>
    cases hstep
    exact h
  | nothing =>
    cases hstep
    exact h

end Shelf

/-- The queues hold what waits, at most one of them for a deployment. -/
structure Holds (queues : List DeploymentQueue) (s : Shelf) : Prop where
  few : queues.length ≤ maxQueues
  apart : ∀ {i j : ℕ} {x y : DeploymentQueue}, queues[i]? = some x → queues[j]? = some y →
    x.deploymentId = y.deploymentId → i = j
  each : ∀ x ∈ queues, x.active = true ∧ x.ring.count ≤ maxQueueDepth ∧
    x.ring.toList = (s.waiting x.deploymentId).map Prod.snd
  rest : ∀ {d : ℕ}, (∀ x ∈ queues, x.deploymentId ≠ d) → s.waiting d = []
  active : ∀ d, ∀ p ∈ s.waiting d, p.2.active = true

variable {queues queues' : List DeploymentQueue} {s s' : Shelf} {i : ℕ} {x y : DeploymentQueue}

namespace Holds

theorem set (h : Holds queues s) (hi : queues[i]? = some x)
    (hy : y.active = true ∧ y.ring.count ≤ maxQueueDepth ∧
      y.ring.toList = (s'.waiting y.deploymentId).map Prod.snd)
    (hown : ∀ z ∈ queues, z.deploymentId = y.deploymentId → z.deploymentId = x.deploymentId)
    (hsame : ∀ d, d ≠ y.deploymentId → s'.waiting d = s.waiting d)
    (hgone : x.deploymentId ≠ y.deploymentId → s.waiting x.deploymentId = [])
    (hactive : ∀ p ∈ s'.waiting y.deploymentId, p.2.active = true) :
    Holds (queues.set i y) s' := by
  have hlt := (List.getElem?_eq_some_iff.mp hi).1
  -- A queue that stays is another one's, so that what it holds has not changed.
  have hother : ∀ {j : ℕ} {z : DeploymentQueue}, queues[j]? = some z → j ≠ i →
      z.deploymentId ≠ y.deploymentId := by
    intro j z hj hne heq
    exact hne (h.apart hj hi (hown z (List.mem_of_getElem? hj) heq))
  have hcases : ∀ {j : ℕ} {z : DeploymentQueue}, (queues.set i y)[j]? = some z →
      j = i ∧ z = y ∨ j ≠ i ∧ queues[j]? = some z := by
    intro j z hj
    by_cases hji : j = i
    · subst hji
      rw [List.getElem?_set_self hlt] at hj
      exact .inl ⟨rfl, (Option.some.inj hj).symm⟩
    · rw [List.getElem?_set_ne (Ne.symm hji)] at hj
      exact .inr ⟨hji, hj⟩
  refine ⟨by rw [List.length_set]; exact h.few, fun {j k z w} hj hk heq => ?_, fun z hz => ?_,
    fun {d} hd => ?_, fun d p hp => ?_⟩
  · obtain ⟨rfl, rfl⟩ | ⟨hji, hj'⟩ := hcases hj <;> obtain ⟨rfl, rfl⟩ | ⟨hki, hk'⟩ := hcases hk
    · rfl
    · exact absurd heq.symm (hother hk' hki)
    · exact absurd heq (hother hj' hji)
    · exact h.apart hj' hk' heq
  · obtain ⟨j, hj⟩ := List.mem_iff_getElem?.mp hz
    obtain ⟨-, rfl⟩ | ⟨hji, hj⟩ := hcases hj
    · exact hy
    · rw [hsame _ (hother hj hji)]
      exact h.each z (List.mem_of_getElem? hj)
  · have hdy : y.deploymentId ≠ d := hd y (List.mem_set hlt y)
    rw [hsame d hdy.symm]
    by_cases hdx : x.deploymentId = d
    · subst hdx
      exact hgone hdy.symm
    · refine h.rest fun z hz => ?_
      obtain ⟨j, hj⟩ := List.mem_iff_getElem?.mp hz
      by_cases hji : j = i
      · subst hji
        rwa [Option.some.inj (hj.symm.trans hi)]
      · exact hd z (List.mem_of_getElem? ((List.getElem?_set_ne (Ne.symm hji)).trans hj))
  · by_cases hdy : d = y.deploymentId
    · exact hactive p (hdy ▸ hp)
    · exact h.active d p (hsame d hdy ▸ hp)

theorem each_init {d : ℕ} (hd : s.waiting d = []) :
    (DeploymentQueue.init d).active = true ∧ (DeploymentQueue.init d).ring.count ≤ maxQueueDepth ∧
      (DeploymentQueue.init d).ring.toList =
        (s.waiting (DeploymentQueue.init d).deploymentId).map Prod.snd :=
  ⟨rfl, Nat.zero_le _, by
    show [] = (s.waiting d).map Prod.snd
    rw [hd]
    rfl⟩

theorem push (h : Holds queues s) {d : ℕ} (hroom : queues.length < maxQueues)
    (hnew : ∀ x ∈ queues, x.deploymentId ≠ d) : Holds (queues ++ [.init d]) s := by
  have hcases : ∀ {j : ℕ} {z : DeploymentQueue}, (queues ++ [.init d])[j]? = some z →
      queues[j]? = some z ∨ j = queues.length ∧ z = .init d := by
    intro j z hj
    rw [List.getElem?_append] at hj
    split at hj
    · exact .inl hj
    · rw [List.getElem?_singleton] at hj
      split at hj
      · exact .inr ⟨by omega, (Option.some.inj hj).symm⟩
      · cases hj
  refine ⟨?_, fun {j k z w} hj hk heq => ?_, fun z hz => ?_, fun {e} he => ?_, h.active⟩
  · rw [List.length_append]
    exact hroom
  · obtain hj | ⟨rfl, rfl⟩ := hcases hj <;> obtain hk | ⟨rfl, rfl⟩ := hcases hk
    · exact h.apart hj hk heq
    · exact absurd heq (hnew z (List.mem_of_getElem? hj))
    · exact absurd heq.symm (hnew w (List.mem_of_getElem? hk))
    · rfl
  · obtain hz | hz := List.mem_append.mp hz
    · exact h.each z hz
    · rw [List.mem_singleton.mp hz]
      exact each_init (h.rest hnew)
  · exact h.rest fun z hz => he z (List.mem_append_left _ hz)

/-- `getOrCreateQueue` finds the queue of a deployment or makes one; it gives up when the others
have requests in every queue. -/
theorem getOrCreateQueue (h : Holds queues s) (d : ℕ) :
    (RequestQueue.getOrCreateQueue queues d = none ∧ queues.length = maxQueues ∧
      ∀ x ∈ queues, x.active = true ∧ x.deploymentId ≠ d ∧ x.ring.toList ≠ []) ∨
    ∃ i queues' x, RequestQueue.getOrCreateQueue queues d = some (i, queues') ∧
      Holds queues' s ∧ queues'[i]? = some x ∧ x.deploymentId = d := by
  unfold RequestQueue.getOrCreateQueue
  cases hfind : queues.findIdx? (fun x => x.active && x.deploymentId == d) with
  | some i =>
    obtain ⟨hlt, hd, -⟩ := List.findIdx?_eq_some_iff_getElem.mp hfind
    rw [Bool.and_eq_true, beq_iff_eq] at hd
    exact .inr ⟨i, queues, _, rfl, h, List.getElem?_eq_getElem hlt, hd.2⟩
  | none =>
    have hnew : ∀ x ∈ queues, x.deploymentId ≠ d := by
      intro x hx heq
      have hnot := List.findIdx?_eq_none_iff.mp hfind x hx
      simp [(h.each x hx).1, heq] at hnot
    have hempty : s.waiting d = [] := h.rest hnew
    dsimp only
    split
    · next hroom =>
      refine .inr ⟨_, _, .init d, rfl, h.push hroom hnew, ?_, rfl⟩
      rw [List.getElem?_append_right le_rfl, Nat.sub_self]
      rfl
    next hfull =>
    cases hidle : queues.findIdx? (fun x => !x.active || x.ring.count == 0) with
    | none =>
      refine .inl ⟨rfl, by have := h.few; omega, fun x hx => ?_⟩
      have hnot := List.findIdx?_eq_none_iff.mp hidle x hx
      obtain ⟨hact, -, -⟩ := h.each x hx
      simp only [hact, Bool.not_true, Bool.false_or, beq_eq_false_iff_ne] at hnot
      refine ⟨hact, hnew x hx, fun hnil => hnot ?_⟩
      rw [← x.ring.length_toList, hnil, List.length_nil]
    | some i =>
      obtain ⟨hlt, hzero, -⟩ := List.findIdx?_eq_some_iff_getElem.mp hidle
      have hget := List.getElem?_eq_getElem hlt
      obtain ⟨hact, -, hlist⟩ := h.each _ (List.getElem_mem hlt)
      rw [hact, Bool.not_true, Bool.false_or, beq_iff_eq] at hzero
      -- The queue that gives way is empty.
      have hnil : s.waiting queues[i].deploymentId = [] := by
        rw [← List.map_eq_nil_iff, ← hlist, ← List.length_eq_zero_iff, RingBuffer.length_toList,
          hzero]
      refine .inr ⟨i, _, .init d, rfl, ?_, List.getElem?_set_self hlt, rfl⟩
      refine h.set hget (each_init hempty) (fun z hz heq => absurd heq (hnew z hz))
        (fun _ _ => rfl) (fun _ => hnil) fun p hp => ?_
      exact h.active _ p hp

theorem enqueueIn (h : Holds queues s) (r : PendingRequest) (hr : r.active = true) :
    (∃ s', s.step (.accepted r) = some s' ∧ (RequestQueue.enqueueIn queues r).2 = true ∧
      Holds (RequestQueue.enqueueIn queues r).1 s') ∨
    (RequestQueue.enqueueIn queues r).2 = false ∧ Holds (RequestQueue.enqueueIn queues r).1 s ∧
      (r.payload.length > maxPayload ∨ (s.waiting r.deploymentId).length = maxQueueDepth ∨
        queues.length = maxQueues ∧
          ∀ x ∈ queues, x.active = true ∧ x.deploymentId ≠ r.deploymentId ∧
            x.ring.toList ≠ []) := by
  unfold RequestQueue.enqueueIn
  obtain ⟨hnone, hfull⟩ | ⟨i, queues', x, hsome, h', hx, hd⟩ := h.getOrCreateQueue r.deploymentId
  · rw [hnone]
    exact .inr ⟨rfl, h, .inr (.inr hfull)⟩
  rw [hsome]
  dsimp only
  split
  · next hlong => exact .inr ⟨rfl, h', .inl hlong⟩
  obtain ⟨hact, hle, hlist⟩ := h'.each x (List.mem_of_getElem? hx)
  rw [hd] at hlist
  rw [hx, Option.bind_some, DeploymentQueue.enqueue]
  cases hpush : x.ring.push? r with
  | none =>
    have hcount := RingBuffer.push_eq_none.mp hpush
    refine .inr ⟨rfl, h', .inr (.inl ?_)⟩
    have hlen := congrArg List.length hlist
    rw [RingBuffer.length_toList, List.length_map] at hlen
    omega
  | some ring =>
    obtain ⟨htail, hlt⟩ := RingBuffer.toList_push hpush
    have hcount := congrArg List.length htail
    rw [RingBuffer.length_toList, List.length_append, RingBuffer.length_toList,
      List.length_singleton] at hcount
    refine .inl ⟨_, rfl, rfl, h'.set hx ⟨hact, ?_, ?_⟩ (fun _ _ heq => heq) (fun d hne => ?_)
      (fun hne => absurd rfl hne) fun p hp => ?_⟩
    · show ring.count ≤ _
      omega
    · show ring.toList = List.map Prod.snd (upd _ _ _ x.deploymentId)
      rw [htail, hd, upd_self, hlist, List.map_append]
      rfl
    · exact upd_of_ne _ _ (hd ▸ hne)
    · dsimp only at hp
      rw [hd, upd_self] at hp
      obtain hp | hp := List.mem_append.mp hp
      · exact h.active _ p hp
      · rw [List.mem_singleton.mp hp]
        exact hr

/-- What is dequeued is the oldest request of its deployment. -/
theorem dequeue {r : PendingRequest} (h : Holds queues s) (htidy : s.Tidy)
    (hi : queues[i]? = some x) (hx : x.dequeue = some (r, y)) :
    ∃ s', s.step (.dequeued r) = some s' ∧ Holds (queues.set i y) s' := by
  rw [DeploymentQueue.dequeue, Option.map_eq_some_iff] at hx
  obtain ⟨⟨r, ring⟩, hpop, heq⟩ := hx
  cases heq
  obtain ⟨hact, hle, hlist⟩ := h.each x (List.mem_of_getElem? hi)
  rw [RingBuffer.toList_pop hpop] at hlist
  obtain ⟨p, rest, hwait, rfl, hrest⟩ := List.map_eq_cons_iff.mp hlist.symm
  have hd : p.2.deploymentId = x.deploymentId :=
    (htidy.waits _ p (hwait ▸ List.mem_cons_self)).2
  have hcount := congrArg List.length (RingBuffer.toList_pop hpop)
  rw [RingBuffer.length_toList, List.length_cons, RingBuffer.length_toList] at hcount
  refine ⟨{ s with waiting := upd s.waiting p.2.deploymentId rest, taken := p :: s.taken }, ?_,
    h.set hi ⟨hact, ?_, ?_⟩ (fun _ _ heq => heq) (fun d hne => ?_) (fun hne => absurd rfl hne)
      fun m hm => ?_⟩
  · simp only [Shelf.step, hd, hwait, if_true]
  · show ring.count ≤ _
    omega
  · show ring.toList = List.map Prod.snd (upd _ _ _ x.deploymentId)
    rw [hd, upd_self, hrest]
  · exact upd_of_ne _ _ (hd ▸ hne)
  · dsimp only at hm
    rw [hd, upd_self] at hm
    exact h.active x.deploymentId m (hwait ▸ List.mem_cons_of_mem p hm)

theorem cancel (h : Holds queues s) (c : ℕ) :
    Holds (queues.map (DeploymentQueue.cancel c))
      { s with waiting := fun d => (s.waiting d).filter (·.2.clientId != c) } := by
  have hid : ∀ x, (DeploymentQueue.cancel c x).deploymentId = x.deploymentId := by
    intro x
    unfold DeploymentQueue.cancel
    split <;> rfl
  refine ⟨by rw [List.length_map]; exact h.few, fun {j k z w} hj hk heq => ?_, fun z hz => ?_,
    fun {d} hd => ?_, fun d p hp => h.active d p (List.mem_of_mem_filter hp)⟩
  · rw [List.getElem?_map, Option.map_eq_some_iff] at hj hk
    obtain ⟨x, hx, rfl⟩ := hj
    obtain ⟨y, hy, rfl⟩ := hk
    rw [hid, hid] at heq
    exact h.apart hx hy heq
  · obtain ⟨x, hx, rfl⟩ := List.mem_map.mp hz
    obtain ⟨hact, hle, hlist⟩ := h.each x hx
    -- All that waits is active, so that the scan keeps what the list keeps.
    have hkeep : x.ring.toList.filter (fun r => !r.active || r.clientId != c) =
        ((s.waiting x.deploymentId).filter (·.2.clientId != c)).map Prod.snd := by
      rw [hlist, List.filter_map]
      congr 1
      apply List.filter_congr
      intro p hp
      simp [h.active _ p hp]
    unfold DeploymentQueue.cancel
    split
    · next hskip =>
      rw [hact, Bool.not_true, Bool.false_or, beq_iff_eq] at hskip
      have hnil : x.ring.toList = [] := by
        rw [← List.length_eq_zero_iff, RingBuffer.length_toList, hskip]
      refine ⟨hact, hle, ?_⟩
      rw [← hkeep, hnil]
      rfl
    · have hlen : (x.ring.toList.filter fun r => !r.active || r.clientId != c).length ≤
          maxQueueDepth := by
        refine (List.length_filter_le _ _).trans ?_
        rwa [RingBuffer.length_toList]
      exact ⟨hact, hlen, (RingBuffer.toList_fill _ hlen).trans hkeep⟩
  · dsimp only
    rw [h.rest fun x hx => ?_, List.filter_nil]
    exact hid x ▸ hd _ (List.mem_map_of_mem hx)

end Holds

/-! ### Calls -/

variable {q q' : RequestQueue}

theorem removeEntry_queues {slot : ℕ} {e : InFlightEntry} (h : q.removeEntry slot e = some q') :
    q'.queues = q.queues := by
  unfold removeEntry at h
  simp only [Option.bind_eq_bind, Option.bind_eq_some_iff, Option.some.injEq] at h
  obtain ⟨_, _, _, _, _, _, _, _, rfl⟩ := h
  rfl

theorem cancelEntry_queues {c t slot : ℕ} (h : q.cancelEntry c t slot = some q') :
    q'.queues = q.queues := by
  obtain ⟨e, -, h⟩ := Option.bind_eq_some_iff.mp h
  split at h
  · cases h
    rfl
  · simp only [Option.bind_eq_bind, Option.bind_eq_some_iff, Option.some.injEq] at h
    obtain ⟨_, _, _, _, rfl⟩ := h
    rfl

theorem cancelEntries_queues {c t : ℕ} {l : List ℕ}
    (h : l.foldlM (fun q slot => cancelEntry q c t slot) q = some q') : q'.queues = q.queues := by
  induction l generalizing q with
  | nil =>
    cases h
    rfl
  | cons slot l ih =>
    obtain ⟨q₁, hone, hrest⟩ := Option.bind_eq_some_iff.mp h
    rw [ih hrest, cancelEntry_queues hone]

theorem step_inFlight {c : Call} {ev : Event} (hstep : q.step c = some (q', ev)) :
    match c with
    | .track _ _ _ | .classify _ _ | .release _ | .expired _ =>
      q'.queues = q.queues ∧ ∀ s : Shelf, s.step ev = some s ∧ ∀ r, ev ≠ .refused r
    | _ => True := by
  cases c with
  | track r client w =>
    obtain ⟨⟨q₁, id⟩, htrack, heq⟩ := Option.map_eq_some_iff.mp hstep
    cases heq
    refine ⟨?_, fun s => by cases id <;> exact ⟨rfl, nofun⟩⟩
    unfold trackInFlightForWorker at htrack
    split at htrack
    · cases htrack
      rfl
    split at htrack
    · cases htrack
    simp only [Option.bind_eq_bind, Option.bind_eq_some_iff, Option.some.injEq,
      Prod.mk.injEq] at htrack
    obtain ⟨_, _, _, _, _, _, _, _, rfl, -⟩ := htrack
    rfl
  | classify id w =>
    obtain ⟨⟨q₁, r⟩, hclassify, heq⟩ := Option.map_eq_some_iff.mp hstep
    cases heq
    refine ⟨?_, fun s => by cases r <;> exact ⟨rfl, nofun⟩⟩
    unfold classifyResponseForWorker at hclassify
    split at hclassify
    · cases hclassify
      rfl
    split at hclassify
    · cases hclassify
      rfl
    obtain ⟨⟨slot, e⟩, -, hclassify⟩ := Option.bind_eq_some_iff.mp hclassify
    dsimp only at hclassify
    split at hclassify
    · cases hclassify
      rfl
    obtain ⟨q₂, hremove, heq⟩ := Option.bind_eq_some_iff.mp hclassify
    cases heq
    exact removeEntry_queues hremove
  | release w =>
    obtain ⟨⟨q₁, r⟩, hrelease, heq⟩ := Option.map_eq_some_iff.mp hstep
    cases heq
    refine ⟨?_, fun s => by cases q.entryOf w <;> exact ⟨rfl, nofun⟩⟩
    unfold releaseWorker at hrelease
    split at hrelease
    · cases hrelease
      rfl
    split at hrelease
    · cases hrelease
      rfl
    obtain ⟨⟨slot, e⟩, -, hrelease⟩ := Option.bind_eq_some_iff.mp hrelease
    obtain ⟨q₂, hremove, heq⟩ := Option.bind_eq_some_iff.mp hrelease
    cases heq
    exact removeEntry_queues hremove
  | expired now =>
    obtain ⟨l, -, heq⟩ := Option.map_eq_some_iff.mp hstep
    cases heq
    exact ⟨rfl, fun s => ⟨rfl, nofun⟩⟩
  | enqueue => trivial
  | dequeue => trivial
  | cancelClient => trivial

/-- What a request can be refused for. -/
def Refuses (q : RequestQueue) (s : Shelf) (r : PendingRequest) : Prop :=
  r.payload.length > maxPayload ∨ (s.waiting r.deploymentId).length = maxQueueDepth ∨
    q.queues.length = maxQueues ∧ ∀ x ∈ q.queues, x.active = true ∧
      x.deploymentId ≠ r.deploymentId ∧ x.ring.toList ≠ []

/-- A call does to the queues what its event does to the lists. -/
theorem step_holds {c : Call} {ev : Event} (h : Holds q.queues s) (htidy : s.Tidy)
    (hstep : q.step c = some (q', ev)) :
    ∃ s', s.step ev = some s' ∧ Holds q'.queues s' ∧
      ∀ r, ev = .refused r → q.Refuses s r := by
  cases c with
  | enqueue d id client payload =>
    cases hstep
    obtain ⟨s', hs', hok, h'⟩ | ⟨hno, h', hwhy⟩ := h.enqueueIn
      { requestId := id, clientId := client, deploymentId := d, payload, active := true } rfl
    · refine ⟨s', ?_, h', ?_⟩
      · simp only [enqueue, hok, if_true]
        exact hs'
      · simp only [enqueue, hok, if_true]
        exact nofun
    · refine ⟨s, ?_, h', ?_⟩
      · simp only [enqueue, hno, Bool.false_eq_true, if_false]
        rfl
      · simp only [enqueue, hno, Bool.false_eq_true, if_false]
        rintro r hr
        cases hr
        exact hwhy
  | dequeue i =>
    cases hstep
    unfold dequeueAt
    cases hx : q.queues[i]?.bind DeploymentQueue.dequeue with
    | none => exact ⟨s, rfl, h, nofun⟩
    | some r =>
      obtain ⟨x, hi, hx⟩ := Option.bind_eq_some_iff.mp hx
      obtain ⟨s', hs', h'⟩ := h.dequeue htidy hi hx
      exact ⟨s', hs', h', nofun⟩
  | cancelClient client now =>
    rw [step] at hstep
    obtain ⟨q₁, hcancel, heq⟩ := Option.map_eq_some_iff.mp hstep
    cases heq
    refine ⟨_, rfl, ?_, nofun⟩
    rw [cancelEntries_queues hcancel]
    exact h.cancel client
  | track | classify | release | expired =>
    obtain ⟨hqueues, hevent⟩ := step_inFlight hstep
    obtain ⟨hs, hnot⟩ := hevent s
    exact ⟨s, hs, hqueues ▸ h, fun r hr => absurd hr (hnot r)⟩

/-- An event leaves a waiting request where it is, unless the request is the one that is dequeued
or its client is the one that goes. -/
theorem Shelf.step_keeps {ev : Event} (hstep : s.step ev = some s') {d : ℕ}
    {p : ℕ × PendingRequest} (hp : p ∈ s.waiting d) :
    p ∈ s'.waiting d ∨ p ∈ s'.taken ∧ ev = .dequeued p.2 ∨ ev = .cancelled p.2.clientId := by
  cases ev with
  | accepted r =>
    cases hstep
    left
    dsimp only
    rw [upd_apply]
    split
    · next hd => exact List.mem_append_left _ (hd ▸ hp)
    · exact hp
  | dequeued r =>
    simp only [Shelf.step] at hstep
    split at hstep
    · cases hstep
    next m rest hwait =>
    split at hstep
    · next hr =>
      cases hstep
      subst hr
      dsimp only
      rw [upd_apply]
      split
      · next hd =>
        rw [hd, hwait] at hp
        obtain rfl | hp := List.mem_cons.mp hp
        · exact .inr (.inl ⟨List.mem_cons_self, rfl⟩)
        · exact .inl hp
      · exact .inl hp
    · cases hstep
  | cancelled c =>
    cases hstep
    by_cases hc : p.2.clientId = c
    · exact .inr (.inr (congrArg _ hc.symm))
    · exact .inl (List.mem_filter.mpr ⟨hp, by simpa using hc⟩)
  | refused | issued | resolved | nothing =>
    cases hstep
    exact .inl hp

theorem run_holds {calls : List Call} {events : List Event} (h : run calls = some (q, events)) :
    ∃ s, Shelf.run events = some s ∧ s.Tidy ∧ Holds q.queues s := by
  induction calls generalizing q events with
  | nil =>
    cases h
    exact ⟨{}, rfl, Shelf.tidy_init, Nat.zero_le _, nofun, nofun, fun _ => rfl, nofun⟩
  | cons c earlier ih =>
    obtain ⟨q₀, older, ev, hrun, hstep, rfl⟩ := run_cons.mp h
    obtain ⟨s, hs, htidy, hholds⟩ := ih hrun
    obtain ⟨s', hs', hholds', -⟩ := step_holds hholds htidy hstep
    refine ⟨s', ?_, htidy.step hs', hholds'⟩
    rw [Shelf.run, hs]
    exact hs'

/-- Calls about requests that wait. -/
def Call.waiting : Call → Bool
  | .enqueue _ _ _ _ | .dequeue _ | .cancelClient _ _ => true
  | _ => false

theorem cancelClient_idle (hidle : q.inFlight = List.replicate maxInFlight {}) (clientId now : ℕ) :
    q.cancelClient clientId now =
      some { q with queues := q.queues.map (DeploymentQueue.cancel clientId) } := by
  unfold cancelClient
  have hslots : ∀ slot ∈ List.range maxInFlight, slot < maxInFlight := fun _ => List.mem_range.mp
  generalize List.range maxInFlight = l at hslots ⊢
  induction l with
  | nil => rfl
  | cons slot l ih =>
    have hentry : q.inFlight[slot]? = some {} := by
      rw [hidle, List.getElem?_replicate, if_pos (hslots slot List.mem_cons_self)]
    rw [List.foldlM_cons, cancelEntry, hentry]
    exact ih fun x hx => hslots x (List.mem_cons_of_mem _ hx)

/-- Such a call returns where no request is in flight, and none is after it. -/
theorem step_returns {c : Call} (hc : c.waiting = true)
    (hidle : q.inFlight = List.replicate maxInFlight {}) :
    ∃ q' ev, q.step c = some (q', ev) ∧ q'.inFlight = List.replicate maxInFlight {} := by
  cases c with
  | enqueue => exact ⟨_, _, rfl, hidle⟩
  | dequeue i =>
    refine ⟨_, _, rfl, ?_⟩
    unfold dequeueAt
    split <;> exact hidle
  | cancelClient clientId now =>
    rw [step, cancelClient_idle hidle]
    exact ⟨_, _, rfl, hidle⟩
  | _ => cases hc

theorem run_returns {calls : List Call} (h : ∀ c ∈ calls, c.waiting = true) :
    ∃ q events, run calls = some (q, events) ∧ q.inFlight = List.replicate maxInFlight {} := by
  induction calls with
  | nil => exact ⟨_, _, rfl, rfl⟩
  | cons c earlier ih =>
    obtain ⟨q, events, hrun, hidle⟩ := ih fun x hx => h x (List.mem_cons_of_mem _ hx)
    obtain ⟨q', ev, hstep, hidle'⟩ := step_returns (h c List.mem_cons_self) hidle
    exact ⟨q', ev :: events, run_cons.mpr ⟨q, events, ev, hrun, hstep, rfl⟩, hidle'⟩

/-- The deployment queues are lists, first in first out. After any calls the rings hold, with one
active queue for a deployment at most, the lists that the events lead to when every request goes to
the end of its deployment's list, only the first of a list can be dequeued and a client's requests
are struck out when it goes. So the requests of a deployment have come out in the order in which
they were accepted, each once; a further call takes a waiting request away only by dequeuing it or
for its own client; and a request is refused only for its length, for a full list, or when other
deployments have requests waiting in every queue. Calls about waiting requests alone return. -/
theorem deployment_queues_fifo :
    (∀ calls : List Call, (∀ c ∈ calls, c.waiting = true) → ∃ x, run calls = some x) ∧
    ∀ calls q events, run calls = some (q, events) →
      ∃ s, Shelf.run events = some s ∧ Holds q.queues s ∧ s.Tidy ∧
        ∀ c q' ev, q.step c = some (q', ev) → ∃ s', s.step ev = some s' ∧ Holds q'.queues s' ∧
          (∀ d, ∀ p ∈ s.waiting d, p ∈ s'.waiting d ∨ p ∈ s'.taken ∧ ev = .dequeued p.2 ∨
            ev = .cancelled p.2.clientId) ∧
          ∀ r, ev = .refused r → q.Refuses s r := by
  refine ⟨fun calls h => ?_, fun calls q events h => ?_⟩
  · obtain ⟨q, events, hrun, -⟩ := run_returns h
    exact ⟨_, hrun⟩
  obtain ⟨s, hs, htidy, hholds⟩ := run_holds h
  refine ⟨s, hs, hholds, htidy, fun c q' ev hstep => ?_⟩
  obtain ⟨s', hs', hholds', hwhy⟩ := step_holds hholds htidy hstep
  exact ⟨s', hs', hholds', fun d p hp => Shelf.step_keeps hs' hp, hwhy⟩

/-- Two requests for a deployment, of which the first one comes out. -/
theorem deployment_queues_fifo_two :
    let calls : List Call := [.dequeue 0, .enqueue 5 2 8 [], .enqueue 5 1 9 [7]]
    let events : List Event :=
      [.dequeued ⟨1, 9, 5, [7], true⟩, .accepted ⟨2, 8, 5, [], true⟩,
        .accepted ⟨1, 9, 5, [7], true⟩]
    ∃ q s, run calls = some (q, events) ∧ Shelf.run events = some s ∧ Holds q.queues s := by
  intro calls events
  have hevents : (run calls).map Prod.snd = some events := by decide +kernel
  obtain ⟨⟨q, l⟩, hrun⟩ := deployment_queues_fifo.1 calls (by decide)
  rw [hrun] at hevents
  obtain rfl : l = events := Option.some.inj hevents
  obtain ⟨s, hs, hholds, -⟩ := deployment_queues_fifo.2 calls q events hrun
  exact ⟨q, s, hrun, hs, hholds⟩

end Hivemind.RequestQueue
