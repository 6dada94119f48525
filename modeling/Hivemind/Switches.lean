import Hivemind.Answers
import Hivemind.Placement
import Hivemind.Slots

/-! When killswitches, pauses and deletions stop a placement. The scheduler looks at all three in
the state it chooses in. The batch handler looks at pods and nodes only; a deletion still stops the
placement, since it leaves no pod of the deployment active. -/
namespace Hivemind

open Relation Core

variable {hash : Hash} {n : ℕ} {seed : UInt64}

namespace StateMachine

open Scheduler

variable {sm sm' sm₁ : StateMachine}

/-- Along a run that wastes no slot active pods belong to active deployments. -/
theorem run_served {cmds : List Command} {results : List Result}
    (hrun : Replay.run apply (sm.initInPlace seed) cmds = some (sm₁, results))
    (hok : Replay.along apply spares (sm.initInPlace seed) cmds = true)
    (hfew : maxDraws * cmds.length < 2 ^ 64) : sm₁.Distinct ∧ sm₁.Served := by
  have hwaste : ∀ sm cmd, spares sm cmd = true → sm.slips cmd .waste = false := by
    intro sm cmd hok
    rw [spares, Bool.not_eq_true'] at hok
    exact hok
  have hinit : (sm.initInPlace seed).Served := fun _ h => absurd h List.not_mem_nil
  exact run_tables hwaste (fun sm cmd sm₁ r hids _ hok happly hserved =>
    apply_served happly (hwaste sm cmd hok) hids.podRoom hserved) hinit hrun hok hfew

/-! ### What the batch handler does not look at -/

section Frame

variable (deps : List Deployment) (ks : List Killswitch)

end Frame

end StateMachine

open StateMachine (nthId applyEntry maxDraws)

/-! ### What replicas execute -/

/-- The replica's tables come from executing its log on a machine that was initialised over `mem`,
with these results. -/
def Core.Ran (seed : UInt64) (mem : StateMachine) (results : List Result) (c : Core) : Prop :=
  ∃ sm, Replay.run applyEntry (mem.initInPlace seed) c.committedLog =
    some (sm, results) ∧ sm.eraseTicks = c.stateMachine.eraseTicks

/-- Executing the log wastes no pod slot: it scales up no deleted deployment where that claims a
slot. -/
def Wasteless (seed : UInt64) (log : List LogEntry) : Prop :=
  Replay.along StateMachine.apply StateMachine.spares (StateMachine.blank.initInPlace seed)
    (log.map (·.command)) = true

theorem Wasteless.take {log : List LogEntry} (h : Wasteless seed log) (i : ℕ) :
    Wasteless seed (log.take i) := by
  unfold Wasteless
  rw [List.map_take]
  exact Replay.along_take h i

/-- What is known of every running replica. -/
structure Logged (hash : Hash) (seed : UInt64) (c : Core) : Prop where
  sane : Sane hash c
  solid : Solid c
  accounted : Accounted seed c

namespace Logged

variable {c c' : Core} {inp : Input} {allow : Hazard → Prop}

theorem acts (h : ReflTransGen (Act hash inp allow) c c') (hl : Logged hash seed c) :
    Logged hash seed c' := by
  induction h with
  | refl => exact hl
  | tail _ h ih => exact ⟨h.sane ih.sane, h.solid ih.sane ih.solid, h.accounted ih.sane ih.solid ih.accounted⟩

theorem ran (h : Logged hash seed c) : ∃ mem results, c.Ran seed mem results := by
  obtain ⟨mem, results, k, hbooked⟩ := h.accounted.booked
  exact ⟨mem, results, hbooked.state⟩

theorem few (h : Logged hash seed c) : maxDraws * c.committedLog.length < 2 ^ 64 := by
  have hcap : c.commitMin ≤ logSizeMax := by
    rcases Nat.eq_zero_or_pos c.commitMin with hzero | hpos
    · omega
    · obtain ⟨e, he⟩ := Option.isSome_iff_exists.mp (h.solid.held c.commitMin hpos le_rfl)
      exact (h.sane.slots.bounds he).2
  rw [h.solid.log_length]
  calc maxDraws * c.commitMin
    _ ≤ maxDraws * logSizeMax := Nat.mul_le_mul_left _ hcap
    _ < 2 ^ 64 := by decide

end Logged

/-- Every running replica has executed its log. -/
theorem Cluster.logged (k : ClusterConfig n) {r : ℕ} (hr : r < n) {mem : StateMachine}
    (hinit : (k.cfg r).stateMachine = mem.initInPlace seed) (acts : List Action)
    (hup : ((Cluster.run hash (Cluster.start k) acts).procs r).stopped = false) :
    Logged hash seed ((Cluster.run hash (Cluster.start k) acts).replica r).toCore := by
  have hstep : ∀ cs cs', AllSane hash n cs → Accounted seed (cs r) ∧ Solid (cs r) →
      Moves hash n (· ∉ .solo :: []) (fun _ => True) cs cs' → Accounted seed (cs' r) ∧ Solid (cs' r) := by
    rintro cs cs' hs ⟨ha, hp⟩ hmove
    refine hmove.single (P := fun c => Accounted seed c ∧ Solid c) ⟨ha, hp⟩ ?_ ?_
    · intro inp c' _ h
      exact ⟨h.accounted (hs.sane r hr) hp ha, h.solid (hs.sane r hr) hp⟩
    · intro c₀ c' _ hc₀ h
      rcases hc₀ with rfl | rfl
      · exact ⟨h.accounted ha.seeded, h.solid⟩
      · exact ⟨h.accounted ha.seeded, h.solid⟩
  obtain ⟨cs, hcs, hs, ha, hp⟩ := Cluster.invariant k (fun _ _ _ h => h)
    (I := fun cs => Accounted seed (cs r) ∧ Solid (cs r)) ⟨start_accounted hinit, start_solid _⟩
    hstep (Cluster.along_keeps_nil (Cluster.start k) acts)
  have hc := (hcs.procs r hr).running hup
  have hthis : Logged hash seed (cs r) := ⟨hs.sane r hr, hp, ha⟩
  rw [hc] at hthis
  exact hthis

theorem Logged.submitting {s s' : Replica} {env : Env} {ms : List RequestMsg}
    (h : Logged hash seed s.toCore) (hsub : s.submitting env .tick = some (s', ms)) :
    Logged hash seed s'.toCore := by
  unfold Replica.submitting at hsub
  cases hcatch : ((s.armFaults env).startTimers env).catchUp with
  | error s₁ =>
    rw [hcatch] at hsub
    cases hsub
  | ok s₁ =>
    rw [hcatch] at hsub
    cases hsub
    have harm : Act hash .tick (fun _ => True) s.toCore (s.armFaults env).toCore := .arm
    have hacts : ReflTransGen (Act hash .tick (fun _ => True)) (s.armFaults env).toCore s'.toCore :=
      ReflTransGen.mono (fun _ _ => .commit) _ _ (Replica.catchUp_spec .tick hcatch).1
    exact h.acts (ReflTransGen.head harm hacts)

/-- After a log that wastes no slot ids tell records apart, and active pods belong to active
deployments. -/
theorem Wasteless.served {mem sm : StateMachine} {log : List LogEntry} {results : List Result}
    (h : Wasteless seed log)
    (hrun : Replay.run applyEntry (mem.initInPlace seed) log = some (sm, results))
    (hfew : maxDraws * log.length < 2 ^ 64) : sm.Distinct ∧ sm.Served := by
  have hrun' : Replay.run StateMachine.apply (mem.initInPlace seed) (log.map (·.command)) =
      some (sm, results) := by
    rw [← Replay.run_map]
    exact hrun
  refine StateMachine.run_served hrun' ?_ (by rwa [List.length_map])
  rw [StateMachine.along_alike (StateMachine.replicated_initInPlace mem .blank seed)]
  exact h

end Hivemind
