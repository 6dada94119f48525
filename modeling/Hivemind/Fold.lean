import Hivemind.Ticks
import Hivemind.Solid
import Hivemind.Sample

/-! The replicated state is the fold of the committed log: whatever messages a replica
receives, its state machine is the initial one with the committed commands applied to it
once each, in order. -/
namespace Hivemind

open Relation Core

variable {hash : Hash} {inp : Input} {allow : Hazard → Prop} {c c' : Core}

/-- Execute commands in order; `none` where one of them stops the process. -/
def StateMachine.executeAll (sm : StateMachine) (cmds : List Command) : Option StateMachine :=
  cmds.foldlM (fun sm cmd => (sm.apply cmd).map Prod.fst) sm

/-- The journal entries 1, 2, ..., `commitMin`. -/
def Core.committedLog (c : Core) : List LogEntry := (opsAbove 0 c.commitMin).filterMap c.journalGet

/-- The state machine is `init` with the committed commands applied, up to the ticks that
only the leader's router writes. -/
structure Core.FoldsFrom (init : StateMachine) (c : Core) : Prop where
  complete : c.committedLog.length = c.commitMin
  state : ∃ sm, init.executeAll (c.committedLog.map (·.command)) = some sm ∧
    sm.eraseTicks = c.stateMachine.eraseTicks

theorem StateMachine.executeAll_concat {sm sm' : StateMachine} {cmds : List Command}
    (h : sm.executeAll cmds = some sm') (cmd : Command) :
    sm.executeAll (cmds ++ [cmd]) = (sm'.apply cmd).map Prod.fst := by
  unfold executeAll at h ⊢
  rw [List.foldlM_append, h]
  simp

theorem StateMachine.apply_congr {sm sm' sm₁ : StateMachine} {cmd : Command} {result : Result}
    (heq : sm.eraseTicks = sm'.eraseTicks) (h : sm'.apply cmd = some (sm₁, result)) :
    ∃ sm₂, sm.apply cmd = some (sm₂, result) ∧ sm₂.eraseTicks = sm₁.eraseTicks := by
  have hsame : (sm.apply cmd).map erased = some (sm₁.eraseTicks, result) := by
    rw [← apply_erase, heq, apply_erase, h]
    rfl
  obtain ⟨⟨sm₂, result'⟩, h₂, herased⟩ := Option.map_eq_some_iff.mp hsame
  obtain ⟨hticks, hresult⟩ := Prod.mk.inj herased
  subst hresult
  exact ⟨sm₂, h₂, hticks⟩

theorem opsAbove_succ (k : ℕ) : opsAbove 0 (k + 1) = opsAbove 0 k ++ [k + 1] := by
  simp [opsAbove, List.range'_concat, Nat.add_comm]

theorem KeepsCommitted.committedLog (h : KeepsCommitted c c') (hmin : c'.commitMin = c.commitMin) :
    c'.committedLog = c.committedLog := by
  unfold Core.committedLog
  rw [hmin]
  exact List.filterMap_congr fun op hop => h.get op (mem_opsAbove.mp hop).2

/-- A transition executes the next op, or changes nothing but ticks. -/
theorem Act.executes (h : Act hash inp allow c c') :
    (c'.commitMin = c.commitMin ∧ c'.stateMachine.eraseTicks = c.stateMachine.eraseTicks) ∨
      ∃ e result, c.journalGet (c.commitMin + 1) = some e ∧ c'.journal = c.journal ∧
        c'.commitMin = c.commitMin + 1 ∧
        c.stateMachine.apply e.command = some (c'.stateMachine, result) := by
  cases h with
  | view h =>
    cases h with
    | place _ h =>
      rw [h.frame]
      exact .inl ⟨rfl, rfl⟩
    | openView _ h =>
      rw [openView_frame, h.frame]
      exact .inl ⟨rfl, rfl⟩
    | _ => exact .inl ⟨rfl, rfl⟩
  | commit h =>
    cases h with
    | execute _ _ hget happly => exact .inr ⟨_, _, hget, rfl, rfl, happly⟩
    | _ => exact .inl ⟨rfl, rfl⟩
  | route => exact .inl ⟨rfl, StateMachine.touchDeployment_erase _ _⟩
  | _ => exact .inl ⟨rfl, rfl⟩

theorem Act.foldsFrom {init : StateMachine} (h : Act hash inp allow c c') (hs : Sane hash c)
    (hp : Solid c) (hf : c.FoldsFrom init) : c'.FoldsFrom init := by
  obtain ⟨sm, hsm, hticks⟩ := hf.state
  rcases h.executes with ⟨hmin, hstate⟩ | ⟨e, result, hget, hjournal, hmin, happly⟩
  · have hlog := (h.keepsCommitted hs hp).committedLog hmin
    refine ⟨?_, sm, ?_, hticks.trans hstate.symm⟩
    · rw [hlog, hmin]
      exact hf.complete
    · rw [hlog]
      exact hsm
  · have hjget : c'.journalGet = c.journalGet := by
      funext op
      simp only [Core.journalGet, hjournal]
    have hlog : c'.committedLog = c.committedLog ++ [e] := by
      unfold Core.committedLog
      rw [hmin, opsAbove_succ, List.filterMap_append, hjget]
      simp [hget]
    obtain ⟨sm₂, happly₂, hticks₂⟩ := StateMachine.apply_congr hticks happly
    refine ⟨?_, sm₂, ?_, hticks₂⟩
    · rw [hlog, hmin, List.length_append, hf.complete]
      rfl
    · rw [hlog, List.map_append, List.map_singleton, StateMachine.executeAll_concat hsm, happly₂]
      rfl

/-- What holds of one replica from its start: its state is the fold of its log. -/
structure Folded (init : StateMachine) (c : Core) : Prop where
  solid : Solid c
  folds : c.FoldsFrom init

theorem Act.folded {init : StateMachine} (h : Act hash inp allow c c') (hs : Sane hash c)
    (hf : Folded init c) : Folded init c' :=
  ⟨h.solid hs hf.solid, h.foldsFrom hs hf.solid hf.folds⟩

theorem start_folded (cfg : ReplicaConfig) :
    Folded cfg.stateMachine (Replica.freshState cfg []).toCore :=
  ⟨start_solid cfg, rfl, _, rfl, rfl⟩

/-- Whatever calls a replica that does not stop has answered: after any further calls its
commit has not gone back, the committed entries are the same, and its state machine is
the fold of the committed log. -/
theorem replicated_state_is_fold (cfg : ReplicaConfig) (s₀ : Replica)
    (hinit : Replica.initInPlace cfg = some s₀) (cs more : List (Input × Env))
    (hrun : ((Process.mk s₀ false).calls hash (cs ++ more)).stopped = false) :
    ((Process.mk s₀ false).calls hash cs).replica.commitMin ≤
        ((Process.mk s₀ false).calls hash (cs ++ more)).replica.commitMin ∧
      (∀ op ≤ ((Process.mk s₀ false).calls hash cs).replica.commitMin,
        ((Process.mk s₀ false).calls hash (cs ++ more)).replica.journalGet op =
          ((Process.mk s₀ false).calls hash cs).replica.journalGet op) ∧
      ((Process.mk s₀ false).calls hash (cs ++ more)).replica.FoldsFrom cfg.stateMachine := by
  unfold Replica.initInPlace at hinit
  split at hinit
  swap
  · cases hinit
  next hcount =>
  cases hinit
  rw [Process.calls_append] at hrun ⊢
  obtain ⟨c, hc, hs, hf⟩ := (Process.start_runsAs cfg).calls
    (fun inp c c' hs hf h => h.folded hs hf) cs (Replica.freshState_sane hcount.1) (start_folded cfg)
  have hup : ((Process.start cfg).calls hash cs).stopped = false := by
    by_contra hstop
    rw [Bool.not_eq_false] at hstop
    have hend := congrArg Process.stopped (@Process.calls_of_stopped hash _ more hstop)
    exact absurd (hstop.symm.trans (hend.symm.trans hrun)) (by decide)
  obtain ⟨c', hc', -, hf', hkeep⟩ := hc.calls
    (I := fun c' => Folded cfg.stateMachine c' ∧ KeepsCommitted c c')
    (fun inp c₁ c₂ hs h h₁ =>
      ⟨h₁.folded hs h.1, h.2.trans (h₁.keepsCommitted hs h.1.solid)⟩)
    more hs ⟨hf, le_rfl, fun _ _ => rfl⟩
  have h1 := hc.running hup
  have h2 := hc'.running hrun
  rw [h1] at hkeep
  rw [h2] at hkeep hf'
  exact ⟨hkeep.le, hkeep.get, hf'.folds⟩

/-- A replica alone in its cluster commits a request with its next flush, and then
another one. -/
theorem replicated_state_is_fold_after_two_requests :
    let cfg := (ClusterConfig.uniform 1 (by decide) true).cfg 0
    let ask (id : ℕ) : Input × Env := (.request { clientId := 7, requestId := id }, {})
    let p := (Process.mk (Replica.freshState cfg []) false).calls pairingHash
      ([ask 1, (.tick, {})] ++ [ask 2, (.tick, {})])
    p.replica.commitMin = 2 ∧ p.replica.FoldsFrom cfg.stateMachine :=
  ⟨by decide +kernel, (replicated_state_is_fold _ _ rfl _ _ (by decide +kernel)).2.2⟩

end Hivemind
