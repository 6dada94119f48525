import Hivemind.Recover

/-! Replica processes, and clusters of them. Messages travel only from a replica's
history to the addressee, any number of times and in any order; a process can be lost
between two calls and restart from its disk. -/
namespace Hivemind

/-- What can happen to a replica process. -/
inductive Turn where
  | call (inp : Input) (env : Env)
  | crash (env : Env)

/-- A replica, and whether its process has stopped (a failed assertion, or a failed
start). -/
structure Process where
  replica : Replica
  stopped : Bool := false

namespace Process

variable (hash : Hash) (p : Process)

/-- Run a call, unless the process has stopped. -/
def call (inp : Input) (env : Env) : Process :=
  if p.stopped then p
  else match p.replica.handle hash env inp with
    | .ok s => ⟨s, false⟩
    | .error s => ⟨s, true⟩

def crash (env : Env) : Process :=
  match p.replica.restart hash env with
  | some s => ⟨s, false⟩
  | none => ⟨p.replica, true⟩

def turn : Turn → Process
  | .call inp env => p.call hash inp env
  | .crash env => p.crash hash env

def run (turns : List Turn) : Process := turns.foldl (turn hash) p

/-- A run without crashes. -/
def calls (cs : List (Input × Env)) : Process := p.run hash (cs.map fun x => .call x.1 x.2)

/-- A process right after `initInPlace`. -/
def start (cfg : ReplicaConfig) : Process := ⟨Replica.freshState cfg [], false⟩

end Process

/-- `n` replicas that know their place in the cluster, with blank disks or none. -/
structure ClusterConfig (n : ℕ) where
  cfg : ℕ → ReplicaConfig
  size : 1 ≤ n ∧ n ≤ replicaCountMax
  id : ∀ r, (cfg r).replicaId = r
  count : ∀ r, (cfg r).replicaCount = n
  blank : ∀ r d, (cfg r).disk = some d → d = {}

/-- A step of the cluster. -/
inductive Action where
  /-- Deliver the `idx`-th event of `src` to `dst`, if it is a message sent there. -/
  | deliver (src idx dst : ℕ) (env : Env)
  | call (dst : ℕ) (inp : Input) (env : Env)
  | crash (dst : ℕ) (env : Env)

structure Cluster where
  size : ℕ
  procs : ℕ → Process

namespace Cluster

variable (hash : Hash) (c : Cluster)

/-- The cluster before anything has happened. -/
def start {n : ℕ} (k : ClusterConfig n) : Cluster :=
  { size := n, procs := fun r => Process.start (k.cfg r) }

def replica (r : ℕ) : Replica := (c.procs r).replica

/-- The message the `idx`-th event of `src` sent to `dst`. -/
def sentMessage (src idx dst : ℕ) : Option Message :=
  match (c.replica src).history[idx]? with
  | some ⟨.sent d m, _⟩ => if d = dst then some m else none
  | _ => none

/-- The replica an action concerns, and what happens to it. -/
def turnOf : Action → Option (ℕ × Turn)
  | .deliver src idx dst env => (c.sentMessage src idx dst).map fun m =>
      (dst, .call (.message src m) env)
  | .call _ (.message _ _) _ => none
  | .call dst inp env => some (dst, .call inp env)
  | .crash dst env => some (dst, .crash env)

def step (a : Action) : Cluster :=
  match c.turnOf a with
  | none => c
  | some (r, t) =>
    if r < c.size then { c with procs := upd c.procs r ((c.procs r).turn hash t) } else c

def run (acts : List Action) : Cluster := acts.foldl (step hash) c

end Cluster

end Hivemind
