import Hivemind.Net
import Hivemind.Sample

/-! View promises: a replica that has voted for a view, or reported its log to the
leader of it, takes no part in an earlier view any more. -/
namespace Hivemind

open Relation Core

variable {hash : Hash} {inp : Input} {allow : Hazard → Prop} {c c' : Core} {n : ℕ}

/-- The view a message promises to have moved to. -/
def Message.promises : Message → Option ℕ
  | .startViewChange m => some m.viewNumber
  | .doViewChange m => some m.viewNumber
  | _ => none

/-- The view a message takes part in. -/
def Message.claims : Message → Option ℕ
  | .prepare m => some m.viewNumber
  | .prepareOk m => some m.viewNumber
  | .commit m => some m.viewNumber
  | .startView m => some m.viewNumber
  | _ => none

theorem Message.stamped_of_promises {m : Message} {v : ℕ} (h : v ∈ m.promises) :
    v ∈ m.stampedView := by
  cases m <;> first | exact h | cases h

theorem Message.stamped_of_claims {m : Message} {v : ℕ} (h : v ∈ m.claims) :
    v ∈ m.stampedView := by
  cases m <;> first | exact h | cases h

def Record.message (r : Record) : Option Message :=
  match r.event with
  | .sent _ m => some m
  | _ => none

def Record.promised (r : Record) : Option ℕ := r.message.bind Message.promises

def Record.claimed (r : Record) : Option ℕ := r.message.bind Message.claims

/-- No promise is followed by a part in an earlier view. -/
def PromisesKept (history : List Record) : Prop :=
  history.Pairwise fun a b => ∀ v ∈ a.promised, ∀ w ∈ b.claimed, v ≤ w

instance (history : List Record) : Decidable (PromisesKept history) :=
  inferInstanceAs (Decidable (List.Pairwise _ _))

/-- The synced view is the current one. -/
def Core.ViewSynced (c : Core) : Prop :=
  c.viewNumber = ((c.disk.bind (·.metadata)).map (·.viewNumber)).getD 0

instance (c : Core) : Decidable c.ViewSynced := inferInstanceAs (Decidable (_ = _))

theorem Core.ViewSynced.of_halted (h : c.Halted c') (hv : c'.ViewSynced) : c.ViewSynced := by
  unfold Core.ViewSynced at hv ⊢
  rw [← h.viewNumber, ← h.disk]
  exact hv

/-! ### Promises -/

/-- Promises were kept so far, and none is above the current view. -/
structure Promised (c : Core) : Prop where
  kept : PromisesKept c.history
  bound : ∀ r ∈ c.history, ∀ v ∈ r.promised, v ≤ c.viewNumber

theorem Promised.append (h : Promised c) (hle : c.viewNumber ≤ c'.viewNumber) {r : Record}
    (hist : c'.history = c.history ++ [r]) (hp : ∀ v ∈ r.promised, v = c.viewNumber)
    (hc : ∀ v ∈ r.claimed, v = c.viewNumber) : Promised c' := by
  constructor
  · rw [hist]
    refine List.pairwise_append.mpr ⟨h.kept, List.pairwise_singleton _ _, ?_⟩
    intro a ha b hb v hv w hw
    rw [List.mem_singleton.mp hb] at hw
    rw [hc w hw]
    exact h.bound a ha v hv
  · rw [hist]
    intro a ha v hv
    rcases List.mem_append.mp ha with ha | ha
    · exact (h.bound a ha v hv).trans hle
    · rw [List.mem_singleton.mp ha] at hv
      rw [hp v hv]
      exact hle

theorem Act.promised (h : Act hash inp allow c c') (hs : Sane hash c) (hp : Promised c) :
    Promised c' := by
  have hle := h.viewNumber_le hs
  rcases h.grows with hist | ⟨ev, snap, hist, hem⟩
  · refine ⟨by rw [hist]; exact hp.kept, ?_⟩
    rw [hist]
    exact fun r hr v hv => (hp.bound r hr v hv).trans hle
  · refine hp.append hle hist ?_ ?_
    all_goals
      intro v hv
      cases hem with
      | sent h =>
        first
        | exact h.stamp v (Message.stamped_of_promises hv)
        | exact h.stamp v (Message.stamped_of_claims hv)
      | _ => cases hv

theorem Core.Restarts.viewNumber (h : c.Restarts hash c') (hv : c.ViewSynced) :
    c'.viewNumber = c.viewNumber := by
  rw [hv]
  cases h with
  | blank h =>
    cases hd : c.disk with
    | none => rfl
    | some d =>
      rw [Option.bind_some, h d hd]
      rfl
  | recovered hd hm _ h =>
    rw [hd, Option.bind_some, hm, Replica.rebuildCommittedState_frame h]
    rfl

theorem Core.Restarts.promised (h : c.Restarts hash c') (hv : c.ViewSynced) (hp : Promised c) :
    Promised c' := by
  refine ⟨?_, ?_⟩
  · rw [h.history]
    exact hp.kept
  · rw [h.history, h.viewNumber hv]
    exact hp.bound

theorem Promised.noteInstalled (h : Promised c) : Promised c.noteInstalled :=
  h.append le_rfl rfl (fun v hv => by cases hv) (fun v hv => by cases hv)

theorem Moves.promised {cs cs' : ℕ → Core} (h : Moves hash n allow Core.ViewSynced cs cs')
    (hs : AllSane hash n cs) (hp : ∀ r < n, Promised (cs r)) : ∀ r < n, Promised (cs' r) := by
  intro r hr
  refine h.single (hp r hr) (fun inp c' _ h => h.promised (hs.sane r hr) (hp r hr))
    fun c₀ c' hsafe hc₀ h => ?_
  rcases hc₀ with rfl | rfl
  · exact h.promised hsafe (hp r hr)
  · exact h.promised hsafe (hp r hr).noteInstalled

/-- In every run that loses a process only while its view is synced, every replica
keeps its promises. -/
theorem promises_kept (k : ClusterConfig n) (acts : List Action)
    (hrun : Execution.Along (Cluster.step hash) (Cluster.Keeps [] Core.ViewSynced)
      (Cluster.start k) acts) (r : ℕ) (hr : r < n) :
    PromisesKept ((Cluster.run hash (Cluster.start k) acts).replica r).history := by
  obtain ⟨cs, hcs, -, hp⟩ := Cluster.invariant k (fun _ _ => Core.ViewSynced.of_halted)
    (I := fun cs => ∀ r < n, Promised (cs r))
    (fun r _ => ⟨List.Pairwise.nil, fun r hr => by cases hr⟩)
    (fun cs cs' hs hp h => h.promised hs hp) hrun
  rcases hcs.history hr with h | h
  · rw [h]
    exact (hp r hr).kept
  · rw [h]
    exact (hp r hr).noteInstalled.kept

/-- Replica 2 times out, syncs its new view, and is lost; the others serve a request. -/
theorem promises_kept_across_crash :
    PromisesKept ((Cluster.run pairingHash (Cluster.start (.uniform 3 (by decide) true))
      [.tick 2 1, .tick 2 2002, .tick 2 2003, .lose 2 2004, .request 0 2005 1, .tick 0 2005,
        .receive 0 1 1 2006, .tick 1 2007]).replica 2).history :=
  promises_kept _ _ (by decide +kernel) 2 (by decide)

/-- Replica 1 votes for view 1, is lost before the next barrier, and then acknowledges
a `Prepare` of view 0. -/
theorem promise_lost_with_process :
    ¬ PromisesKept ((Cluster.run pairingHash (Cluster.start (.uniform 3 (by decide) true))
      [.tick 2 1, .tick 2 2002, .receive 2 3 1 2003, .lose 1 2004, .request 0 2005 1,
        .tick 0 2005, .receive 0 1 1 2006, .tick 1 2007]).replica 1).history := by
  decide +kernel

end Hivemind
