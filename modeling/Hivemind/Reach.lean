import Hivemind.Transition

/-! Calls as sequences of transitions: the rules for sequencing, and the part of the
code that executes and publishes committed entries. -/
namespace Hivemind

open Relation

/-- What a stopped process leaves behind: its disk and what it did. -/
structure Core.Halted (c c' : Core) : Prop where
  replicaId : c'.replicaId = c.replicaId
  replicaCount : c'.replicaCount = c.replicaCount
  clientReplySet : c'.clientReplySet = c.clientReplySet
  viewNumber : c'.viewNumber = c.viewNumber
  stateMachine : c'.stateMachine = c.stateMachine
  disk : c'.disk = c.disk
  history : c'.history = c.history ∨ c'.history = c.noteInstalled.history

theorem Core.Halted.refl (c : Core) : c.Halted c := ⟨rfl, rfl, rfl, rfl, rfl, rfl, .inl rfl⟩

/-- A call that starts in `c` makes `R`-transitions, and ends or stops after them. -/
def Reaches (R : Core → Core → Prop) (c : Core) : Outcome → Prop
  | .ok s => ReflTransGen R c s.toCore
  | .error s => ∃ c₁, ReflTransGen R c c₁ ∧ c₁.Halted s.toCore

namespace Reaches

variable {R R' : Core → Core → Prop} {c c₁ : Core} {o : Outcome} {s : Replica}

theorem ok (h : s.toCore = c) : Reaches R c (.ok s) := by
  subst h
  exact .refl

theorem error (h : s.toCore = c) : Reaches R c (.error s) :=
  ⟨c, .refl, h ▸ Core.Halted.refl _⟩

theorem trans (h : ReflTransGen R c c₁) (ho : Reaches R c₁ o) : Reaches R c o := by
  cases o with
  | ok s => exact ReflTransGen.trans h ho
  | error s =>
    obtain ⟨c₂, h₂, hh⟩ := ho
    exact ⟨c₂, ReflTransGen.trans h h₂, hh⟩

theorem head (h : R c c₁) (ho : Reaches R c₁ o) : Reaches R c o := trans (.single h) ho

theorem bind {k : Replica → Outcome} (h : Reaches R c o)
    (hk : ∀ s, o = .ok s → ReflTransGen R c s.toCore → Reaches R s.toCore (k s)) :
    Reaches R c (o.bind k) := by
  cases o with
  | ok s => exact trans h (hk s rfl h)
  | error s => exact h

theorem map {f : Replica → Replica} (h : Reaches R c o) (hf : ∀ s, (f s).toCore = s.toCore) :
    Reaches R c (o.map f) := by
  cases o with
  | ok s =>
    show ReflTransGen R c (f s).toCore
    rw [hf]
    exact h
  | error s => exact h

theorem mono (hR : ∀ {a b}, R a b → R' a b) (h : Reaches R c o) : Reaches R' c o := by
  cases o with
  | ok s => exact ReflTransGen.mono (fun _ _ => hR) _ _ h
  | error s =>
    obtain ⟨c₁, h₁, hh⟩ := h
    exact ⟨c₁, ReflTransGen.mono (fun _ _ => hR) _ _ h₁, hh⟩

theorem assert {cond : Bool} (h : s.toCore = c) : Reaches R c (s.assert cond) := by
  unfold Replica.assert
  split
  · exact ok h
  · exact error h

theorem ite {p : Prop} [Decidable p] {o' : Outcome} (h : p → Reaches R c o)
    (h' : ¬ p → Reaches R c o') : Reaches R c (if p then o else o') := by
  by_cases hp : p
  · rw [if_pos hp]
    exact h hp
  · rw [if_neg hp]
    exact h' hp

theorem guard {p : Prop} [Decidable p] (h : ¬ p → Reaches R s.toCore o) :
    Reaches R s.toCore (if p then .ok s else o) := ite (fun _ => ok rfl) h

theorem guardError {p : Prop} [Decidable p] (h : ¬ p → Reaches R s.toCore o) :
    Reaches R s.toCore (if p then .error s else o) := ite (fun _ => error rfl) h

end Reaches

theorem acts_unless {R : Core → Core → Prop} {p : Prop} [Decidable p] {s s' : Replica}
    (h : ¬ p → ReflTransGen R s.toCore s'.toCore) :
    ReflTransGen R s.toCore (if p then s else s').toCore := by
  by_cases hp : p
  · rw [if_pos hp]
  · rw [if_neg hp]
    exact h hp

/-- A step that leaves the protocol core alone. -/
def Outcome.Keeps (c : Core) (o : Outcome) : Prop := o.state.toCore = c

namespace Outcome.Keeps

variable {R : Core → Core → Prop} {c : Core} {o : Outcome}

theorem reaches (h : o.Keeps c) : Reaches R c o := by
  cases o with
  | ok s => exact .ok h
  | error s => exact .error h

end Outcome.Keeps

/-! ### Executing entries -/

/-- `c`, with what executing entries changes as it is in `c'`. -/
abbrev Core.executedTo (c c' : Core) : Core :=
  { c with
    commitMin := c'.commitMin
    commitMax := c'.commitMax
    replicaCommitMin := c'.replicaCommitMin
    stateMachine := c'.stateMachine
    metadataDirty := c'.metadataDirty
    pendingReply := c'.pendingReply
    pendingReplyClientId := c'.pendingReplyClientId
    pendingReplyRequestId := c'.pendingReplyRequestId
    pendingReplyResult := c'.pendingReplyResult
    history := c'.history }

namespace CommitAct

variable {inp : Input} {c c' : Core}

theorem frame (h : CommitAct inp c c') : c' = c.executedTo c' := by
  cases h <;> rfl

theorem commitMin_le (h : CommitAct inp c c') : c.commitMin ≤ c'.commitMin := by
  cases h with
  | execute => exact Nat.le_succ _
  | _ => exact le_rfl

theorem commitMax_le (h : CommitAct inp c c') : c.commitMax ≤ c'.commitMax := by
  cases h with
  | execute => exact le_rfl
  | _ => exact le_max_left _ _

end CommitAct

theorem commitActs_frame {inp : Input} {c c' : Core} (h : ReflTransGen (CommitAct inp) c c') :
    c' = c.executedTo c' := by
  induction h with
  | refl => rfl
  | tail _ h ih =>
    rw [h.frame, ih]

theorem commitActs_le {inp : Input} {c c' : Core} (h : ReflTransGen (CommitAct inp) c c') :
    c.commitMin ≤ c'.commitMin ∧ c.commitMax ≤ c'.commitMax := by
  induction h with
  | refl => exact ⟨le_rfl, le_rfl⟩
  | tail _ h ih => exact ⟨ih.1.trans h.commitMin_le, ih.2.trans h.commitMax_le⟩

namespace Replica

variable {inp : Input} {s : Replica}

theorem queueStops_keeps (op : ℕ) (result : Result) (stops : List StopDispatch) :
    (s.queueStops op result stops).Keeps s.toCore := by
  unfold queueStops
  split
  · split <;> rfl
  · rfl

theorem commitEntry_reaches {op : ℕ}
    (hst : s.status = .normal ∨ s.pendingStartView.active = true) (hle : op ≤ s.commitMax) :
    Reaches (CommitAct inp) s.toCore (s.commitEntry op) := by
  unfold commitEntry
  split
  · exact .error rfl
  · next hop =>
    have hop : op = s.commitMin + 1 := by omega
    subst hop
    split
    · exact .error rfl
    · next e he =>
      split
      · exact .error rfl
      · next sm result ha =>
        exact .head (.execute hst hle he ha) (queueStops_keeps _ _ _).reaches

theorem commitLoop_reaches {limit : ℕ} : ∀ {fuel : ℕ} {s : Replica},
    s.status = .normal ∨ s.pendingStartView.active = true → limit ≤ s.commitMax →
      Reaches (CommitAct inp) s.toCore (commitLoop limit fuel s)
  | 0, s, _, _ => .ok rfl
  | fuel + 1, s, hst, hle => by
    unfold commitLoop
    split
    · next hlt =>
      split
      · exact .ok rfl
      · refine (commitEntry_reaches hst (by omega)).bind (fun s' _ h => ?_)
        have hf := commitActs_frame h
        refine commitLoop_reaches ?_ (hle.trans (commitActs_le h).2)
        rw [hf]
        exact hst
    · exact .ok rfl

variable (inp) in
theorem advanceCommitMin_reaches (hst : s.status = .normal ∨ s.pendingStartView.active = true) :
    Reaches (CommitAct inp) s.toCore s.advanceCommitMin :=
  commitLoop_reaches hst le_rfl

theorem commitUpTo_reaches {target : ℕ}
    (hst : s.status = .normal ∨ s.pendingStartView.active = true)
    (h : MayRaise inp s.toCore target) :
    Reaches (CommitAct inp) s.toCore (s.commitUpTo target) :=
  .head (.follow h) (commitLoop_reaches (s := s.core _) hst (le_max_right _ _))

variable (inp) in
theorem countVotes_reaches : ∀ (fuel : ℕ) {c : Core}, c.status = .normal → c.isLeader = true →
    ReflTransGen (CommitAct inp) c (countVotes fuel c)
  | 0, c, _, _ => .refl
  | fuel + 1, c, hst, hlead => by
    unfold countVotes
    split
    · next hlt =>
      split
      · exact .refl
      · next hhas =>
        split
        · exact .refl
        · next hq =>
          exact .head (.votes hst hlead hlt (by simpa using hhas) (by omega))
            (countVotes_reaches _ hst hlead)
    · exact .refl

theorem advanceCommit_reaches (hst : s.status = .normal) (hlead : s.isLeader = true) :
    Reaches (CommitAct inp) s.toCore s.advanceCommit := by
  have hvotes := countVotes_reaches inp (s.opNumber - s.commitMax) hst hlead
  refine .trans hvotes (advanceCommitMin_reaches _ (s := s.core _) (.inl ?_))
  rw [core_toCore, commitActs_frame hvotes]
  exact hst

end Replica

end Hivemind
