import Mathlib.Data.Nat.Pairing
import Hivemind.Cluster

/-! A collision-free hash, clusters of like replicas, and short names for the actions
of concrete runs. -/
namespace Hivemind

/-- A numbering of the commands; only that of `noop` is fixed. -/
noncomputable def commandCode : Command → ℕ
  | .noop => 0
  | cmd => Classical.choose (exists_injective_nat Command) cmd + 1

theorem commandCode_injective : Function.Injective commandCode := by
  have hinj := Classical.choose_spec (exists_injective_nat Command)
  intro a b h
  cases a <;> cases b <;> simp only [commandCode, Nat.add_right_cancel_iff] at h <;>
    first | rfl | exact hinj h | omega

/-- The fields of an entry, paired up. -/
noncomputable def pairingHash : Hash := fun x =>
  Nat.pair (Nat.pair x.parentChecksum x.viewNumber)
    (Nat.pair (Nat.pair x.opNumber x.clientId) (Nat.pair x.requestId (commandCode x.command))) + 1

theorem pairingHash_injective : Function.Injective pairingHash := by
  intro a b h
  obtain ⟨h1, h2⟩ := Nat.pair_eq_pair.mp (Nat.succ.inj h)
  obtain ⟨h3, h4⟩ := Nat.pair_eq_pair.mp h2
  obtain ⟨hrequest, hcode⟩ := Nat.pair_eq_pair.mp h4
  have hcommand := commandCode_injective hcode
  cases a
  cases b
  simp_all

/-- An empty orchestrator. -/
def blankStateMachine : StateMachine :=
  { seed := 1
    prng := Prng.init 1
    nodes := []
    deployments := []
    pods := []
    podMemory := fun _ => ⟨0, 0, 0, zeroes 64, zeroes 64, .pending, 0, 0, .none, 0, 0, false⟩
    killswitches := [] }

/-- `n` replicas that differ in their id only. -/
def ClusterConfig.uniform (n : ℕ) (size : 1 ≤ n ∧ n ≤ replicaCountMax) (disk : Bool) :
    ClusterConfig n where
  cfg r :=
    { replicaId := r
      replicaCount := n
      stateMachine := blankStateMachine
      disk := if disk then some {} else none
      clientReplySet := true }
  size := size
  id _ := rfl
  count _ := rfl
  blank _ d h := by
    cases disk with
    | true => exact (Option.some.inj h).symm
    | false => cases h

namespace Action

def tick (r : ℕ) (now : ℤ) : Action := .call r .tick { now }

/-- Client 7 asks replica `r` for a `noop`. -/
def request (r : ℕ) (now : ℤ) (requestId : ℕ) : Action :=
  .call r (.request { clientId := 7, requestId }) { now }

def receive (src idx dst : ℕ) (now : ℤ) : Action := .deliver src idx dst { now }

def lose (r : ℕ) (now : ℤ) : Action := .crash r { now }

end Action

end Hivemind
