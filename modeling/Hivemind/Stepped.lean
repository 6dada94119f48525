import Hivemind.Switches

/-! A running replica of a cluster has come where it is by steps of the protocol and of what
concerns its workers. -/
namespace Hivemind

open Relation Core

variable {hash : Hash} {seed : UInt64} {n : ℕ}

/-- The transitions of the core in calls of any kind. -/
def AnyAct (hash : Hash) (c c' : Core) : Prop := ∃ inp, Act hash inp (fun _ => True) c c'

namespace Logged

variable {c c' : Core}

theorem roomy (hl : Logged hash seed c) : c.stateMachine.Roomy := by
  obtain ⟨mem, results, sm, hrun, hticks⟩ := hl.ran
  have hroom : sm.Roomy := Replay.run_keeps (fun _ _ _ _ hroom h => StateMachine.apply_roomy h hroom)
    ⟨Nat.zero_le _, Nat.zero_le _, Nat.zero_le _⟩ hrun
  have hnodes : sm.nodes = c.stateMachine.nodes :=
    show sm.eraseTicks.nodes = c.stateMachine.eraseTicks.nodes by rw [hticks]
  have hpods : sm.pods = c.stateMachine.pods :=
    show sm.eraseTicks.pods = c.stateMachine.eraseTicks.pods by rw [hticks]
  -- the ticks are in the deployments, of which only the number matters
  have hdeployments : sm.deployments.length = c.stateMachine.deployments.length := by
    have hlen := congrArg (fun sm => (StateMachine.deployments sm).length) hticks
    simpa only [StateMachine.eraseTicks, List.length_map] using hlen
  refine ⟨?_, ?_, ?_⟩
  · rw [← hnodes]
    exact hroom.nodes
  · rw [← hdeployments]
    exact hroom.deployments
  · rw [← hpods]
    exact hroom.pods

end Logged

namespace Replica

variable {s s' : Replica}

theorem publishReply_aside (op : ℕ) : (s.publishReply op).state.workerSide = s.workerSide := by
  unfold publishReply
  dsimp only
  split
  · split <;> rfl
  · rfl

/-- A replica that was just started: it has no workers and has executed nothing since. -/
structure Opened (hash : Hash) (seed : UInt64) (s : Replica) : Prop where
  logged : Logged hash seed s.toCore
  workers : ∀ i, (s.workers i).connected = false
  results : ∀ i, s.pendingReplyResult i = .ok 0

theorem restart_forgets {env : Env} (h : s.restart hash env = some s') :
    (s'.workerCount = 0 ∧ ∀ i, (s'.workers i).connected = false) ∧
      ∀ i, s'.pendingReplyResult i = .ok 0 := by
  have hcore := restart_restarts h
  constructor
  · obtain ⟨⟨b, s₁⟩, hrec, rfl⟩ := Option.map_eq_some_iff.mp h
    unfold recoverFromDisk at hrec
    split at hrec
    · cases hrec
      exact ⟨rfl, fun _ => rfl⟩
    split at hrec
    · cases hrec
      exact ⟨rfl, fun _ => rfl⟩
    split at hrec
    · cases hrec
    split at hrec
    · cases hrec
    · cases hrec
      exact ⟨rfl, fun _ => rfl⟩
  · generalize s'.toCore = c' at hcore ⊢
    cases hcore with
    | blank => exact fun _ => rfl
    | recovered _ _ _ hbuilt =>
      rw [rebuildCommittedState_frame hbuilt]
      exact fun _ => rfl

end Replica

/-- Whatever happens in a cluster: a running replica has come where it is by steps, from where it
was started last. -/
theorem Cluster.stepped (k : ClusterConfig n) {r : ℕ} (hr : r < n) {mem : StateMachine}
    (hinit : (k.cfg r).stateMachine = mem.initInPlace seed) (acts : List Action)
    (hup : ((Cluster.run hash (Cluster.start k) acts).procs r).stopped = false) :
    ∃ s₀ : Replica, s₀.Opened hash seed ∧ s₀.workerCount = 0 ∧
      s₀.Steps hash (AnyAct hash) ((Cluster.run hash (Cluster.start k) acts).replica r) := by
  induction acts using List.reverseRecOn with
  | nil =>
    have hlogged : Logged hash seed _ := Cluster.logged k hr hinit [] hup
    exact ⟨_, ⟨hlogged, fun _ => rfl, fun _ => rfl⟩, rfl, .refl⟩
  | append_singleton acts a ih =>
    have hlast : Cluster.run hash (Cluster.start k) (acts ++ [a]) =
        (Cluster.run hash (Cluster.start k) acts).step hash a := by
      rw [Cluster.run, List.foldl_append]
      rfl
    have hlogged : Logged hash seed _ := Cluster.logged k hr hinit (acts ++ [a]) hup
    have hbefore : _ → Logged hash seed _ := Cluster.logged k hr hinit acts
    rw [hlast] at hup hlogged ⊢
    generalize Cluster.run hash (Cluster.start k) acts = c at ih hbefore hup hlogged ⊢
    unfold Cluster.replica at hlogged ⊢
    rcases Cluster.step_procs c a r with hsame | ⟨t, hturn⟩
    · rw [hsame] at hup ⊢
      exact ih hup
    rw [hturn] at hup hlogged ⊢
    cases t with
    | call inp env =>
      change ((c.procs r).call hash inp env).stopped = false at hup
      show ∃ s₀ : Replica, _ ∧ _ ∧ s₀.Steps hash (AnyAct hash) ((c.procs r).call hash inp env).replica
      unfold Process.call at hup ⊢
      by_cases hstop : (c.procs r).stopped = true
      · rw [if_pos hstop, hstop] at hup
        cases hup
      rw [if_neg hstop] at hup ⊢
      have hrunning : (c.procs r).stopped = false := by simpa using hstop
      obtain ⟨s₀, h₀, hcount, hsteps⟩ := ih hrunning
      -- the call goes on from there
      have hworks : Works hash (Act hash inp fun _ => True) (c.procs r).replica
          ((c.procs r).replica.handle hash env inp) :=
        Replica.handle_works (hbefore hrunning).sane fun _ _ => trivial
      cases hout : (c.procs r).replica.handle hash env inp with
      | error s' =>
        rw [hout] at hup
        cases hup
      | ok s' =>
        rw [hout] at hworks
        have hcall : Works hash (AnyAct hash) _ (.ok s') := hworks.mono fun h => ⟨inp, h⟩
        exact ⟨s₀, h₀, hcount, ReflTransGen.trans hsteps hcall⟩
    | crash env =>
      change ((c.procs r).crash hash env).stopped = false at hup
      change Logged hash seed ((c.procs r).crash hash env).replica.toCore at hlogged
      show ∃ s₀ : Replica, _ ∧ _ ∧ s₀.Steps hash (AnyAct hash) ((c.procs r).crash hash env).replica
      unfold Process.crash at hup hlogged ⊢
      cases hout : (c.procs r).replica.restart hash env with
      | none =>
        rw [hout] at hup
        cases hup
      | some s' =>
        rw [hout] at hlogged
        obtain ⟨⟨hcount, hworkers⟩, hresults⟩ := Replica.restart_forgets hout
        exact ⟨s', ⟨hlogged, hworkers, hresults⟩, hcount, .refl⟩

theorem one_le_replicaCountMax : 1 ≤ 1 ∧ 1 ≤ replicaCountMax := by decide

/-- One replica that can send to its workers. -/
def staffed : ClusterConfig 1 :=
  let k := ClusterConfig.uniform 1 one_le_replicaCountMax false
  { cfg := fun r => { k.cfg r with workerSendSet := true }
    size := one_le_replicaCountMax
    id := fun _ => rfl, count := fun _ => rfl, blank := fun _ d h => by cases h }

end Hivemind
