import Hivemind.WorkerDeeds

/-! The functions of the worker only do the deeds of `WorkerDeeds`, and they return: the one
panic that is left to them is an overflow, and in the walk of `drive_pods` the access to a pod that
was forgotten meanwhile. -/
namespace Hivemind.Agent

open Job Fallible

variable {σ : Type} {env : Env σ} {α β : Type}

/-! ### Rules for jobs -/

/-- From this worker and whatever the outside is like, `m` ends in `Q` or panics in `E`. -/
structure Does (m : Job σ α) (w : Worker) (tr : List Obs) (Q : α → Worker → List Obs → Prop)
    (E : Panic → Prop) : Prop where
  ends : ∀ o : σ, wp m (fun a t => Q a t.worker t.trace) E ⟨w, tr, o⟩

namespace Does

variable {w : Worker} {tr : List Obs} {Q R : α → Worker → List Obs → Prop} {E F : Panic → Prop}
  {f : β → Job σ α}

theorem returned {m : Job σ α} (h : Does m w tr Q E) {o : σ} {a : α} {s : Scene σ}
    (hm : m ⟨w, tr, o⟩ = .ok (a, s)) : Q a s.worker s.trace := by
  have hends := wp_of_returns (h.ends o) hm
  exact hends

theorem pure {a : α} (h : Q a w tr) : Does (pure a : Job σ α) w tr Q E := ⟨fun _ => h⟩

theorem bind {S : β → Worker → List Obs → Prop} {m : Job σ β} (hm : Does m w tr S E)
    (hf : ∀ b w' tr', S b w' tr' → Does (f b) w' tr' Q E) : Does (m >>= f) w tr Q E := by
  constructor
  intro o
  rw [wp_bind]
  exact wp_mono (hm.ends o) (fun b t ht => (hf b t.worker t.trace ht).ends t.outside)
    fun _ he => he

theorem mono {m : Job σ α} (h : Does m w tr Q E) (hq : ∀ a w' tr', Q a w' tr' → R a w' tr')
    (he : ∀ e, E e → F e) : Does m w tr R F :=
  ⟨fun o => wp_mono (h.ends o) (fun a t => hq a t.worker t.trace) he⟩

theorem weaken {m : Job σ α} (h : Does m w tr Q E) (hq : ∀ a w' tr', Q a w' tr' → R a w' tr') :
    Does m w tr R E := h.mono hq fun _ he => he

theorem and {m : Job σ α} (h : Does m w tr Q E) (h' : Does m w tr R F) :
    Does m w tr (fun a w' tr' => Q a w' tr' ∧ R a w' tr') (fun e => E e ∧ F e) :=
  ⟨fun o => wp_and (h.ends o) (h'.ends o)⟩

theorem worker {f : Worker → Job σ α} (h : Does (f w) w tr Q E) :
    Does (Job.worker >>= f) w tr Q E := ⟨fun o => h.ends o⟩

theorem modifyWorker {g : Worker → Worker} {f : Unit → Job σ α}
    (h : Does (f ()) (g w) (tr ++ [.became (g w)]) Q E) :
    Does (Job.modifyWorker g >>= f) w tr Q E :=
  ⟨fun o => h.ends o⟩

theorem observe {o : Obs} {f : Unit → Job σ α} (h : Does (f ()) w (tr ++ [o]) Q E) :
    Does (Job.observe o >>= f) w tr Q E :=
  ⟨fun o => h.ends o⟩

theorem send {m : WorkerMessage} {f : Unit → Job σ α}
    (h : Does (f ()) w (tr ++ [.sent m]) Q E) : Does (Job.send m >>= f) w tr Q E :=
  ⟨fun o => h.ends o⟩

theorem call {r : Request} {f : r.Answer → Job σ α}
    (h : ∀ a, Does (f a) w (tr ++ [.called ⟨r, a⟩]) Q E) : Does (Job.call env r >>= f) w tr Q E :=
  ⟨fun o => (h (env.answer r o).1).ends (env.answer r o).2⟩

theorem require {holds : Bool} {text : String} {f : Unit → Job σ α} (hb : holds = true)
    (h : Does (f ()) w tr Q E) : Does (Job.require holds text >>= f) w tr Q E := by
  subst hb
  exact h

theorem pod {podId : ℕ} {missing : Panic} {f : TrackedPod → Job σ α} {found : TrackedPod}
    (hl : w.pods.lookup podId = some found) (h : Does (f found) w tr Q E) :
    Does (Job.pod podId missing >>= f) w tr Q E := by
  unfold Job.pod
  rw [bind_assoc]
  apply Does.worker
  rw [hl]
  exact h

theorem pod_missing {podId : ℕ} {missing : Panic} {f : TrackedPod → Job σ α}
    (hl : w.pods.lookup podId = none) (h : E missing) :
    Does (Job.pod podId missing >>= f) w tr Q E := by
  unfold Job.pod
  rw [bind_assoc]
  apply Does.worker
  rw [hl]
  exact ⟨fun _ => h⟩

theorem updatePod {podId : ℕ} {missing : Panic} {g : TrackedPod → TrackedPod}
    {f : Unit → Job σ α} {found : TrackedPod} (hl : w.pods.lookup podId = some found)
    (h : Does (f ()) (w.setPod podId (g found)) (tr ++ [.became (w.setPod podId (g found))]) Q E) :
    Does (Job.updatePod podId missing g >>= f) w tr Q E := by
  unfold Job.updatePod
  rw [bind_assoc]
  exact Does.pod hl (Does.modifyWorker h)

theorem add {bits a b : ℕ} {f : ℕ → Job σ α} (hover : ¬ a + b < 2 ^ bits → E .overflow)
    (h : Does (f ((a + b) % 2 ^ bits)) w tr Q E) : Does (Job.add env bits a b >>= f) w tr Q E := by
  unfold Job.add
  split_ifs with hlt hchecks
  · rw [Nat.mod_eq_of_lt hlt] at h
    exact h
  · exact ⟨fun _ => hover hlt⟩
  · exact h

theorem shiftOne {n : ℕ} {f : ℕ → Job σ α} (hn : n < 64) (h : Does (f (2 ^ n)) w tr Q E) :
    Does (Job.shiftOne env n >>= f) w tr Q E := by
  unfold Job.shiftOne
  rw [if_pos hn]
  exact h

theorem last {m : Job σ α} (h : Does (m >>= Pure.pure) w tr Q E) : Does m w tr Q E := by
  rwa [bind_pure] at h

theorem forM {f : β → Job σ Unit} (I : List β → Worker → List Obs → Prop)
    (hstep : ∀ x xs w' tr', I (x :: xs) w' tr' → Does (f x) w' tr' (fun _ => I xs) E) {xs : List β}
    (h : I xs w tr) : Does (xs.forM f) w tr (fun _ => I []) E :=
  ⟨fun _ => wp_forM (fun xs (t : Scene σ) => I xs t.worker t.trace)
    (fun x xs t ht => (hstep x xs t.worker t.trace ht).ends t.outside) h⟩

end Does

/-! ### Tombstones -/

/-- One for a pod at its end. -/
def TrackedPod.tombstone (pod : TrackedPod) : ℕ := if pod.state.terminal then 1 else 0

namespace Worker

variable {w w' : Worker}

theorem terminalPods_length (w : Worker) :
    w.terminalPods.length = w.pods.total TrackedPod.tombstone := by
  unfold terminalPods trackedPods AList.total
  rw [List.length_insertionSort, List.length_map]
  induction w.pods.entries with
  | nil => rfl
  | cons e entries ih =>
    simp only [List.map_cons, List.filter_cons, List.sum_cons, ← ih]
    cases h : e.2.state.terminal <;> simp [TrackedPod.tombstone, h, Nat.add_comm]

theorem mem_trackedPods {pod : TrackedPod} :
    pod ∈ w.trackedPods ↔ ∃ podId, w.pods.lookup podId = some pod := by
  unfold trackedPods
  rw [List.mem_map]
  constructor
  · rintro ⟨⟨podId, p⟩, hmem, rfl⟩
    exact ⟨podId, (List.mem_dlookup_iff w.pods.nodupKeys).mpr hmem⟩
  · rintro ⟨podId, h⟩
    exact ⟨⟨podId, pod⟩, (List.mem_dlookup_iff w.pods.nodupKeys).mp h, rfl⟩

theorem mem_terminalPods (hw : w.Orderly) {entry : ℕ × ℕ} (h : entry ∈ w.terminalPods) :
    ∃ pod, w.pods.lookup entry.2 = some pod ∧ pod.state.terminal ∧
      pod.stateChangedAt = entry.1 := by
  obtain ⟨pod, hmem, rfl⟩ := List.mem_map.mp ((List.mem_insertionSort _).mp h)
  obtain ⟨hpod, ht⟩ := List.mem_filter.mp hmem
  obtain ⟨podId, hl⟩ := mem_trackedPods.mp hpod
  have hname := hw.named _ _ hl
  subst hname
  exact ⟨pod, hl, ht, rfl⟩

theorem podIds_eq_keys (hw : w.Orderly) : w.trackedPods.map TrackedPod.podId = w.pods.keys := by
  unfold trackedPods AList.keys List.keys
  rw [List.map_map]
  apply List.map_congr_left
  intro e he
  exact hw.named e.1 e.2 ((List.mem_dlookup_iff w.pods.nodupKeys).mpr he)

theorem terminalPods_nodup (hw : w.Orderly) : (w.terminalPods.map Prod.snd).Nodup := by
  have hperm := (List.perm_insertionSort Older ((w.trackedPods.filter (·.state.terminal)).map
    fun pod => (pod.stateChangedAt, pod.podId))).map Prod.snd
  apply hperm.nodup_iff.mpr
  rw [List.map_map]
  have hkeys : (w.trackedPods.map TrackedPod.podId).Nodup := by
    rw [podIds_eq_keys hw]
    exact w.pods.keys_nodup
  exact (List.filter_sublist.map TrackedPod.podId).nodup hkeys

theorem Orderly.pending_none {podId : ℕ} {pod : TrackedPod} (hw : w.Orderly)
    (hl : w.pods.lookup podId = some pod) (hs : pod.state ≠ .stopping) :
    podId ∉ w.pendingFailureReasons := by
  intro hmem
  obtain ⟨p, hp, hst⟩ := hw.pending podId hmem
  cases hl.symm.trans hp
  exact hs hst

end Worker

/-- What is forgotten so that at most `limit` terminal pods are left, oldest first. -/
def Worker.excess (w : Worker) (limit : ℕ) : List (ℕ × ℕ) :=
  w.terminalPods.take (w.terminalPods.length - limit)

/-- What forgetting it leaves. -/
structure Pruned (limit : ℕ) (w w' : Worker) : Prop where
  full : w.terminalPods.length ≤ limit → w' = w
  lookup : ∀ podId, w'.pods.lookup podId =
    if podId ∈ (w.excess limit).map Prod.snd then none else w.pods.lookup podId
  allocated : ∀ r : Resource, r.allocated w' = r.allocated w
  total : ∀ r : Resource, r.total w' = r.total w

theorem Pruned.fresh {limit podId : ℕ} {w w' : Worker} (h : Pruned limit w w')
    (hnone : w.pods.lookup podId = none) : w'.pods.lookup podId = none := by
  rw [h.lookup, hnone, ite_self]

theorem removeTombstone_does {podId : ℕ} {pod : TrackedPod} {w : Worker} {tr : List Obs}
    {Q : Unit → Worker → List Obs → Prop} {E : Panic → Prop} (hw : w.Orderly)
    (hl : w.pods.lookup podId = some pod) (ht : pod.state.terminal)
    (h : Q () (w.forget podId) (tr ++ [.became (w.forget podId)])) :
    Does (removeTombstone podId : Job σ Unit) w tr Q E := by
  have hhandle : pod.handle = none := by
    have hfit := hw.fit _ _ hl
    unfold TrackedPod.Fit at hfit
    cases hs : pod.state <;> rw [hs] at hfit ht <;> first | exact hfit | contradiction
  have hne : pod.state ≠ .stopping := by
    intro hs
    rw [hs] at ht
    contradiction
  apply Does.pod hl
  apply Does.modifyWorker
  apply Does.require (by rw [hhandle]; rfl)
  apply Does.worker
  apply Does.last
  apply Does.require
  · rw [AList.lookup_eq_none.mpr (hw.pending_none hl hne)]
    rfl
  · exact Does.pure h

theorem prune_does (now : ℕ) {limit : ℕ} {w : Worker} {tr : List Obs} {E : Panic → Prop}
    (hw : w.Orderly) (hlimit : limit ≤ maxTerminalTombstones) :
    Does (pruneTerminalPodsTo limit : Job σ Unit) w tr (fun _ w' tr' => Pruned limit w w' ∧
      ∀ flights owed inHand,
        Deeds now ⟨w, tr, flights, owed, inHand⟩ ⟨w', tr', flights, owed, inHand⟩) E := by
  apply Does.require (decide_eq_true hlimit)
  apply Does.worker
  -- The entries removed so far and those left make up the list; every entry has its own id, so
  -- what is left is still tracked and terminal.
  have hnodup : ((w.excess limit).map Prod.snd).Nodup :=
    ((List.take_sublist _ _).map Prod.snd).nodup (Worker.terminalPods_nodup hw)
  let I : List (ℕ × ℕ) → Worker → List Obs → Prop := fun entries w' tr' =>
    ∃ removed, removed ++ entries = w.excess limit ∧
      (∀ flights owed inHand,
        Deeds now ⟨w, tr, flights, owed, inHand⟩ ⟨w', tr', flights, owed, inHand⟩) ∧
      (removed = [] → w' = w) ∧
      (∀ podId, w'.pods.lookup podId =
        if podId ∈ removed.map Prod.snd then none else w.pods.lookup podId) ∧
      ∀ r : Resource, r.allocated w' = r.allocated w ∧ r.total w' = r.total w
  have hI : I (w.excess limit) w tr :=
    ⟨[], rfl, fun _ _ _ => .refl, fun _ => rfl, fun _ => rfl, fun _ => ⟨rfl, rfl⟩⟩
  refine (Does.forM I ?_ hI).weaken ?_
  · rintro entry entries w' tr' ⟨removed, hlist, hdeeds, -, hlook, hsums⟩
    rw [← hlist, List.map_append, List.map_cons, List.nodup_append] at hnodup
    obtain ⟨-, -, hdisjoint⟩ := hnodup
    have hmem : entry ∈ w.terminalPods :=
      List.mem_of_mem_take (hlist ▸ List.mem_append_right _ List.mem_cons_self)
    obtain ⟨pod, hl, ht, -⟩ := Worker.mem_terminalPods hw hmem
    have hl' : w'.pods.lookup entry.2 = some pod := by
      rw [hlook, if_neg, hl]
      intro hin
      exact hdisjoint _ hin _ List.mem_cons_self rfl
    have hw' : w'.Orderly := (hdeeds [] none none).changes.orderly hw
    apply removeTombstone_does hw' hl' ht
    refine ⟨removed ++ [entry], by rw [List.append_assoc]; exact hlist,
      fun _ _ _ => (hdeeds _ _ _).tail (.forgotten hl' ht), fun hnil => absurd hnil (by simp), ?_, ?_⟩
    · intro podId
      rw [List.map_append, List.map_cons, List.map_nil]
      by_cases heq : podId = entry.2
      · subst heq
        rw [if_pos (List.mem_append_right _ List.mem_cons_self)]
        exact AList.lookup_erase _ _
      · refine (AList.lookup_erase_ne heq).trans ((hlook podId).trans ?_)
        simp only [List.mem_append, List.mem_singleton, heq, or_false]
    · intro r
      have hr := hsums r
      cases r <;> exact hr
  · rintro _ w' _ ⟨removed, hlist, hdeeds, hsame, hlook, hsums⟩
    rw [List.append_nil] at hlist
    subst hlist
    refine ⟨⟨fun hle => hsame ?_, hlook, fun r => (hsums r).1, fun r => (hsums r).2⟩, hdeeds⟩
    unfold Worker.excess
    rw [Nat.sub_eq_zero_of_le hle, List.take_zero]

/-! ### One pod failed or stopped -/

/-- Only this pod is written, and it is on its way before and after. -/
structure Aside (podId : ℕ) (w w' : Worker) : Prop where
  others : ∀ k, k ≠ podId → w'.pods.lookup k = w.pods.lookup k
  tombstones : w'.terminalPods.length = w.terminalPods.length

/-- This pod may also have come to its end. Of the others only tombstones are forgotten, and none
as long as there is room for one more. -/
structure Touched (podId : ℕ) (w w' : Worker) : Prop where
  kept : ∀ k pod, k ≠ podId → w.pods.lookup k = some pod → pod.state.terminal = false →
    w'.pods.lookup k = some pod
  room : w.terminalPods.length < maxTerminalTombstones →
    (∀ k, k ≠ podId → w'.pods.lookup k = w.pods.lookup k) ∧
    w'.terminalPods.length ≤ w.terminalPods.length + 1

/-- A job did its deeds on this pod. -/
abbrev Handled {α : Type} (now podId : ℕ) (w : Worker) (tr : List Obs) (_ : α) (w' : Worker)
    (tr' : List Obs) : Prop :=
  Touched podId w w' ∧ Leads now none podId w tr w' tr'

namespace Aside

variable {podId : ℕ} {w₁ w₂ w₃ : Worker}

theorem refl : Aside podId w₁ w₁ := ⟨fun _ _ => rfl, rfl⟩

theorem touched (h : Aside podId w₁ w₂) : Touched podId w₁ w₂ :=
  ⟨fun k _ hk hl _ => (h.others k hk).trans hl, fun _ => ⟨h.others, by rw [h.tombstones]; omega⟩⟩

theorem trans_touched (h : Aside podId w₁ w₂) (h' : Touched podId w₂ w₃) :
    Touched podId w₁ w₃ := by
  refine ⟨fun k pod hk hl => h'.kept k pod hk ((h.others k hk).trans hl), fun hroom => ?_⟩
  rw [← h.tombstones] at hroom ⊢
  obtain ⟨ho, hle⟩ := h'.room hroom
  exact ⟨fun k hk => (ho k hk).trans (h.others k hk), hle⟩

theorem of_insert {pod pod' : TrackedPod} (hpods : w₂.pods = w₁.pods.insert podId pod')
    (hl : w₁.pods.lookup podId = some pod) (hs : pod.state.terminal = false)
    (hs' : pod'.state.terminal = false) : Aside podId w₁ w₂ := by
  refine ⟨?_, ?_⟩
  · intro k hk
    rw [hpods]
    exact AList.lookup_insert_ne hk
  · have hsum := AList.total_insert_of_lookup (c := pod') TrackedPod.tombstone hl
    rw [Worker.terminalPods_length, Worker.terminalPods_length, hpods]
    simp only [TrackedPod.tombstone, hs, hs', Bool.false_eq_true, ↓reduceIte] at hsum
    exact hsum

theorem move {now : ℕ} {pod pod' : TrackedPod} (hl : w₁.pods.lookup podId = some pod)
    (hmove : Move now pod pod') : Aside podId w₁ (w₁.setPod podId pod') :=
  of_insert rfl hl hmove.active.1 hmove.active.2

end Aside

section

variable {now podId : ℕ} {w : Worker} {tr : List Obs} {pod : TrackedPod} {E : Panic → Prop}

theorem Does.release {Q : α → Worker → List Obs → Prop} {f : Unit → Job σ α}
    (hl : w.pods.lookup podId = some pod)
    (h : Does (f ()) (w.without pod) (tr ++ [.became (w.without pod)]) Q E) :
    Does (releasePodResources podId >>= f) w tr Q E := by
  unfold releasePodResources
  rw [bind_assoc]
  apply Does.worker
  rw [hl]
  exact Does.modifyWorker h

theorem Does.scrub {Q : α → Worker → List Obs → Prop} {f : Unit → Job σ α}
    (hl : w.pods.lookup podId = some pod) (ht : pod.state.terminal) (hh : pod.handle = none)
    (h : Does (f ()) (w.setPod podId pod.scrubbed)
      (tr ++ [.became (w.setPod podId pod.scrubbed)]) Q E) :
    Does (scrubTerminalPodData podId >>= f) w tr Q E := by
  unfold scrubTerminalPodData
  simp only [bind_assoc]
  apply Does.pod hl
  apply Does.require ht
  apply Does.require (by rw [hh]; rfl)
  exact Does.modifyWorker h

theorem Worker.retire_tombstones (hl : w.pods.lookup podId = some pod)
    (hs : pod.state.terminal = false) {pod' : TrackedPod} (ht : pod'.state.terminal) :
    (w.retire podId pod').terminalPods.length = w.terminalPods.length + 1 := by
  have hsum := AList.total_insert_of_lookup (c := pod'.scrubbed) TrackedPod.tombstone hl
  rw [Worker.terminalPods_length, Worker.terminalPods_length]
  have hone : pod'.scrubbed.tombstone = 1 := if_pos ht
  have hzero : pod.tombstone = 0 := if_neg (by rw [hs]; exact Bool.false_ne_true)
  rw [hone, hzero] at hsum
  exact hsum

/-- The pod was brought to its end in this form, and then the oldest tombstones were removed. -/
structure Retired (now podId : ℕ) (pod' : TrackedPod) (w w' : Worker) : Prop where
  change : Change now w (w.retire podId pod')
  tombstones : (w.retire podId pod').terminalPods.length = w.terminalPods.length + 1
  pruned : Pruned maxTerminalTombstones (w.retire podId pod') w'

theorem Retired.touched {pod' : TrackedPod} {w' : Worker} (hw : w.Orderly)
    (h : Retired now podId pod' w w') : Touched podId w w' := by
  refine ⟨fun k pod hk hl hactive => ?_, fun hroom => ?_⟩
  · have hl' : (w.retire podId pod').pods.lookup k = some pod :=
      (AList.lookup_insert_ne hk).trans hl
    rw [h.pruned.lookup, if_neg, hl']
    intro hin
    obtain ⟨entry, hentry, rfl⟩ := List.mem_map.mp hin
    obtain ⟨found, hfound, ht, -⟩ :=
      Worker.mem_terminalPods (h.change.orderly hw) (List.mem_of_mem_take hentry)
    cases hl'.symm.trans hfound
    rw [hactive] at ht
    exact Bool.false_ne_true ht
  · have htombs := h.tombstones
    rw [h.pruned.full (by omega)]
    exact ⟨fun k hk => AList.lookup_insert_ne hk, htombs.le⟩

theorem retire_does (hw : w.Orderly) (hl : w.pods.lookup podId = some pod)
    (hs : pod.state.terminal = false) {pod' : TrackedPod} (ht : pod'.state.terminal)
    (hh : pod'.handle = none) (hch : Change now w (w.retire podId pod')) {w₀ : Worker}
    (hw₀ : w₀ = w.dropReason podId) {tr₀ : List Obs} {status : PodStatusReport}
    (hstatus : status.terminal)
    (hdeed : ∀ flights : List (ℕ × PodHandle), (∀ handle, (podId, handle) ∉ flights) →
      Deed now ⟨w, tr₀, flights, none, none⟩
      { Moment.retire ⟨w₀, tr, flights, none, none⟩ w₀ podId pod' with
        owed := some (podId, status) }) :
    Does (do
      releasePodResources podId
      scrubTerminalPodData podId
      pruneTerminalPodsTo maxTerminalTombstones
      send (.podStatusEvent ⟨podId, status⟩) : Job σ Unit)
      (w₀.setPod podId pod') (tr ++ [.became (w₀.setPod podId pod')])
      (fun _ w' tr' => Retired now podId pod' w w' ∧ Leads now none podId w tr₀ w' tr') E := by
  have hlook : (w₀.setPod podId pod').pods.lookup podId = some pod' := AList.lookup_insert _
  have hreleased : ((w₀.setPod podId pod').without pod').pods.lookup podId = some pod' := hlook
  -- The three writes make up the table of `retire`.
  have hretire : ((w₀.setPod podId pod').without pod').setPod podId pod'.scrubbed =
      w.retire podId pod' := by
    rw [hw₀]
    exact w.setPod_without_scrubbed podId pod'
  apply Does.release hlook
  apply Does.scrub hreleased ht hh
  rw [hretire]
  refine Does.bind (prune_does now (hch.orderly hw) (Nat.le_refl _)) ?_
  rintro _ w' tr' ⟨hpruned, hforgotten⟩
  apply Does.last
  apply Does.send
  apply Does.pure
  refine ⟨⟨hch, Worker.retire_tombstones hl hs ht, hpruned⟩, fun flights hfree => ?_⟩
  have hended := hdeed flights hfree
  unfold Moment.retire at hended
  rw [hretire] at hended
  exact ((Relation.ReflTransGen.single hended).trans (hforgotten _ _ _)).tail (.reported rfl hstatus rfl)

theorem awaitCleanup_does (reason : String) (hw : w.Orderly) (hl : w.pods.lookup podId = some pod)
    (hs : pod.state.stoppable)
    (hrunning : pod.state = .running → ∀ c ∈ lastCall tr, c.seesExit = false) :
    Does (awaitCleanup podId reason now : Job σ Unit) w tr
      (fun _ w' tr' => Aside podId w w' ∧ Leads now none podId w tr w' tr') E := by
  have hleads : Leads now none podId w tr (w.failing podId pod reason now) (tr ++
      [.became (w.setPod podId (pod.failing now))] ++
      [.became (w.failing podId pod reason now)]) :=
    .single fun _ hfree => .failing hl hs rfl hrunning reason hfree
  unfold awaitCleanup
  apply Does.updatePod hl
  apply Does.worker
  apply Does.modifyWorker
  apply Does.require
  · show (w.pendingFailureReasons.lookup podId).isNone = true
    rw [AList.lookup_eq_none.mpr (hw.pending_none hl (TrackedPodState.stoppable_ne hs))]
    rfl
  apply Does.worker
  apply Does.last
  apply Does.require
  · -- Every pending failure is that of a tracked pod.
    apply decide_eq_true
    apply AList.keys_length_le
    intro id hid
    obtain ⟨p, hp, _⟩ := (hleads.orderly hw).pending id hid
    exact AList.mem_of_lookup hp
  apply Does.pure
  exact ⟨Aside.of_insert rfl hl (TrackedPodState.stoppable_active hs) rfl, hleads⟩

theorem failAtOnce_does (reason : String) (hw : w.Orderly) (hl : w.pods.lookup podId = some pod)
    (hs : pod.state.stoppable) (hh : pod.handle = none) :
    Does (failAtOnce podId reason now : Job σ Unit) w tr (fun _ w' tr' =>
      Retired now podId (pod.failed now reason) w w' ∧ Leads now none podId w tr w' tr') E := by
  have hpending := hw.pending_none hl (TrackedPodState.stoppable_ne hs)
  have hactive := TrackedPodState.stoppable_active hs
  have hearly : pod.state = .imagePulling ∨ pod.state = .creating := by
    have hfit := hw.fit _ _ hl
    unfold TrackedPod.Fit at hfit
    rw [hh] at hfit
    cases hstate : pod.state <;> rw [hstate] at hfit hs <;>
      first | exact .inl rfl | exact .inr rfl | contradiction
  have hch : Change now w (w.retire podId (pod.failed now reason)) :=
    .retired hl hactive hh _ rfl pod.lifecycleRetryAfterTick
  unfold failAtOnce
  apply Does.updatePod hl
  have hfailed : (pod.failed now reason).state.terminal := rfl
  refine retire_does hw hl hactive hfailed (by exact hh) hch
    (Worker.dropReason_of_notMem hpending).symm rfl fun _ hfree => ?_
  exact .failed hl hearly hh hpending rfl rfl reason hfree

theorem failPod_does (reason : String) (hw : w.Orderly) (hl : w.pods.lookup podId = some pod)
    (hs : pod.state.stoppable)
    (hrunning : pod.state = .running → ∀ c ∈ lastCall tr, c.seesExit = false) :
    Does (failPod env podId reason now) w tr (Handled now podId w tr) E := by
  apply Does.pod hl
  split_ifs with hhandle
  · exact (awaitCleanup_does reason hw hl hs hrunning).weaken fun _ _ _ h => ⟨h.1.touched, h.2⟩
  · apply Does.call
    intro cleanup
    have hasked : Leads now none podId w tr w (tr ++ [.called ⟨.unmount podId, cleanup⟩]) :=
      .asked _ rfl
    cases cleanup with
    | error _ =>
      refine (awaitCleanup_does reason hw hl hs fun _ c hc => ?_).weaken
        fun _ _ _ h => ⟨h.1.touched, hasked.trans h.2⟩
      rw [lastCall_append] at hc
      cases hc
      rfl
    | ok _ =>
      have hnone := Option.not_isSome_iff_eq_none.mp hhandle
      exact (failAtOnce_does reason hw hl hs hnone).weaken
        fun _ _ _ h => ⟨h.1.touched hw, hasked.trans h.2⟩

theorem scheduleStopRetry_does (hl : w.pods.lookup podId = some pod)
    (hs : pod.state = .stopping) :
    Does (scheduleStopRetry podId now : Job σ Unit) w tr
      (fun _ w' tr' => Aside podId w w' ∧ Leads now none podId w tr w' tr') E := by
  apply Does.pod hl
  apply Does.require (decide_eq_true hs)
  apply Does.last
  apply Does.modifyWorker
  apply Does.pure
  exact ⟨Aside.move hl (.stopRetried hs : Move now pod _), Leads.move hl (.stopRetried hs)⟩

theorem finalState_terminal (failureReason : Option String) (exitCode : Int32) :
    (finalState failureReason exitCode).terminal := by
  cases failureReason <;> rfl

theorem retireStopped_does (exitCode : Int32) (hw : w.Orderly)
    (hl : w.pods.lookup podId = some pod) (hs : pod.state = .stopping) (hh : pod.handle = none) :
    Does (retireStopped env podId exitCode now) w tr (Handled now podId w tr) E := by
  apply Does.call
  intro unmounted
  have hasked : Leads now none podId w tr w (tr ++ [.called ⟨.unmount podId, unmounted⟩]) :=
    .asked _ rfl
  cases unmounted with
  | error _ =>
    exact (scheduleStopRetry_does hl hs).weaken fun _ _ _ h => ⟨h.1.touched, hasked.trans h.2⟩
  | ok _ =>
    apply Does.worker
    apply Does.modifyWorker
    have hactive : pod.state.terminal = false := by rw [hs]; rfl
    have hstatus : (finalStatus (w.pendingFailureReasons.lookup podId) exitCode).terminal := by
      cases w.pendingFailureReasons.lookup podId <;> rfl
    have hfinal := finalState_terminal (w.pendingFailureReasons.lookup podId) exitCode
    have hch : Change now w (w.retire podId
        (pod.ended now (w.pendingFailureReasons.lookup podId) exitCode)) :=
      .retired hl hactive hh _ hfinal 0
    refine Does.updatePod (by exact hl) ?_
    refine (retire_does hw hl hactive hfinal (by exact hh) hch rfl hstatus fun _ hfree => ?_).weaken
      fun _ _ _ h => ⟨h.1.touched hw, hasked.trans h.2⟩
    exact .stopped hl hs hh rfl rfl exitCode hfree

theorem completePodStop_does (exitCode : Int32) (hw : w.Orderly)
    (hl : w.pods.lookup podId = some pod) (hs : pod.state = .stopping) :
    Does (completePodStop env podId exitCode now) w tr (Handled now podId w tr) E := by
  apply Does.worker
  apply Does.require
  · rw [hl]
    exact decide_eq_true (congrArg some hs)
  apply Does.pod hl
  cases hh : pod.handle with
  | none => exact retireStopped_does exitCode hw hl hs hh
  | some handle =>
    apply Does.call
    intro removed
    cases removed with
    | error e =>
      have hasked : Leads now none podId w tr w (tr ++ [.called ⟨.removePod handle, .error e⟩]) :=
        .asked _ rfl
      exact (scheduleStopRetry_does hl hs).weaken fun _ _ _ h => ⟨h.1.touched, hasked.trans h.2⟩
    | ok _ =>
      apply Does.updatePod hl
      have haside : Aside podId w (w.setPod podId { pod with handle := none }) :=
        Aside.move hl (.detached hs : Move now pod _)
      have hleads : Leads now none podId w tr (w.setPod podId { pod with handle := none })
          (tr ++ [.called ⟨.removePod handle, .ok ()⟩] ++
            [.became (w.setPod podId { pod with handle := none })]) :=
        .single fun _ hfree => .detached hl hs hh hfree
      exact (retireStopped_does exitCode (hleads.orderly hw) (AList.lookup_insert _) hs
        rfl).weaken fun _ _ _ h => ⟨haside.trans_touched h.1, hleads.trans h.2⟩

end

end Hivemind.Agent
