import Hivemind.Rebuild
import Hivemind.Roster
import Hivemind.Sample
import Hivemind.Stops
import Hivemind.Workers

/-! The stops that wait for a barrier. Executing an entry adds those of the pods it takes out of
service, publishing an op takes out its own, and nothing else touches them. The buffer is as large
as the pod table: it suffices as long as the pods that get nodes fit in beside the stops that
wait. -/

namespace Hivemind

open Relation Core

variable {hash : Hash} {env : Env} {s s' : Replica}

namespace Replica

/-! ### Publication -/

/-- The active pods that are on a node. -/
def boundPods (sm : StateMachine) : ℕ := sm.pods.countP onNode

end Replica

/-- Where the execution puts more pods on nodes, they and the stops that wait fit into the buffer. -/
def Executed.HasRoom (x : Executed) : Prop :=
  Replica.boundPods x.before < Replica.boundPods x.after →
    x.waiting + Replica.boundPods x.after ≤ maxPendingStops

instance (x : Executed) : Decidable x.HasRoom := inferInstanceAs (Decidable (_ → _))

/-- The stops that the execution adds fit behind those that wait. -/
def Executed.Fits (x : Executed) : Prop := x.waiting + x.stops ≤ maxPendingStops

namespace Replica

/-- The stops that wait and those that the pods on nodes may still give fit into the buffer. -/
structure Buffered (s : Replica) : Prop where
  fits : s.pendingStops.length + boundPods s.stateMachine ≤ maxPendingStops
  room : s.stateMachine.Roomy

/-- From a buffered state: if every execution on the way finds room, the stops of each of them fit,
and the state is buffered again. -/
def Stows (s s' : Replica) : Prop :=
  ∃ new, s'.executions = s.executions ++ new ∧
    ((∀ x ∈ new, x.HasRoom) → s.Buffered → s'.Buffered ∧ ∀ x ∈ new, x.Fits)

theorem Stows.other (hexec : s'.executions = s.executions)
    (hkeeps : s.Buffered → s'.Buffered) : Stows s s' :=
  ⟨[], by rw [hexec, List.append_nil], fun _ hs => ⟨hkeeps hs, fun _ h => absurd h List.not_mem_nil⟩⟩

theorem Stows.same (hexec : s'.executions = s.executions)
    (hstops : s'.pendingStops.length ≤ s.pendingStops.length)
    (htables : s'.stateMachine = s.stateMachine) : Stows s s' := by
  refine .other hexec fun hs => ⟨?_, htables ▸ hs.room⟩
  rw [htables]
  exact (Nat.add_le_add_right hstops _).trans hs.fits

theorem Stows.trans {s₁ s₂ s₃ : Replica} (h : Stows s₁ s₂) (h' : Stows s₂ s₃) : Stows s₁ s₃ := by
  obtain ⟨new, hnew, hstep⟩ := h
  obtain ⟨more, hmore, hstep'⟩ := h'
  refine ⟨new ++ more, by rw [hmore, hnew, List.append_assoc], fun hroom hs => ?_⟩
  rw [List.forall_mem_append] at hroom ⊢
  obtain ⟨hs₂, hfits⟩ := hstep hroom.1 hs
  obtain ⟨hs₃, hfits'⟩ := hstep' hroom.2 hs₂
  exact ⟨hs₃, hfits, hfits'⟩

/-- What an execution adds and what may still be added after it: no more than before, or what there
is room for. -/
theorem Buffered.executed (h : s.Buffered) {op : ℕ} {cmd : Command} {sm : StateMachine}
    {result : Result} (happly : s.stateMachine.apply cmd = some (sm, result))
    (hroom : (s.execution op cmd sm result).HasRoom) :
    s.pendingStops.length + ((s.execution op cmd sm result).stops + boundPods sm) ≤
      maxPendingStops := by
  have hfits := h.fits
  have hkept : s.pendingStops.length + boundPods sm ≤ maxPendingStops := by
    by_cases hmore : boundPods s.stateMachine < boundPods sm
    · exact hroom hmore
    · omega
  unfold execution
  dsimp only
  split
  · next hok =>
    rcases collectStopDispatches_thins h.room.pods happly hok with hnone | hthin
    · rw [hnone, List.length_nil, Nat.zero_add]
      exact hkept
    · exact (Nat.add_le_add_left hthin _).trans hfits
  · rwa [Nat.zero_add]

end Replica

end Hivemind
