import Hivemind.Execution
import Hivemind.Cluster
import Hivemind.ReachCall

/-! Replicas over whole runs: what a barrier leaves on disk, what a restart reads back,
and the rule that carries an invariant of the protocol core through calls, stops and
restarts. -/
namespace Hivemind

open Relation Core

variable {hash : Hash} {env : Env} {inp : Input} {allow : Hazard → Prop} {c c' : Core}

/-! ### Disks -/

/-- Synced slots hold valid entries of their own op, and nothing is left staged. -/
structure DiskOk (hash : Hash) (c : Core) : Prop where
  clean : c.storageFailed = false → ∀ d ∈ c.disk, d.Clean
  slots : ∀ d ∈ c.disk, ∀ i e, d.durable i = some e →
    i = journalSlot e.opNumber ∧ e.valid hash = true

/-- A barrier syncs the dirty slots and the current metadata. -/
structure Synced (c : Core) (d₀ d : Disk) : Prop where
  before : c.disk = some d₀
  durable : ∀ i, d.durable i = if c.journalDirty i then c.journal i else d₀.durable i
  metadata : d.metadata = some c.metadataToPersist
  clean : d.Clean

theorem Barrier.synced {d : Disk} (h : Barrier hash c d) (hs : Sane hash c) (hd : DiskOk hash c) :
    ∃ d₀, Synced c d₀ d := by
  obtain ⟨d₀, d₁, d₂, hdisk, hstage, hwrite, hsync⟩ := h.run
  obtain ⟨rest, rfl⟩ := Disk.stage_spec hstage
  obtain ⟨d₂', hc, rfl⟩ := Option.map_eq_some_iff.mp hwrite
  obtain ⟨rest', rfl⟩ := Disk.call_spec hc
  obtain ⟨d₃, hc', rfl⟩ := Option.map_eq_some_iff.mp hsync
  obtain ⟨rest'', rfl⟩ := Disk.call_spec hc'
  have hclean := hd.clean h.up d₀ hdisk
  refine ⟨d₀, hdisk, fun i => ?_, rfl, fun i => rfl, rfl⟩
  by_cases hi : c.journalDirty i = true
  · simp [hi, hs.dirty i hi]
  · simp [hi, hclean.1 i]

theorem Act.diskOk (h : Act hash inp allow c c') (hs : Sane hash c) (hd : DiskOk hash c) :
    DiskOk hash c' := by
  cases h with
  | view h =>
    obtain ⟨-, h1, h2⟩ := PublishAct.view h
    exact ⟨by rw [h1, h2]; exact hd.clean, by rw [h1]; exact hd.slots⟩
  | commit h =>
    rw [h.frame]
    exact { hd with }
  | arm =>
    refine ⟨fun hup d hd' => ?_, fun d hd' => ?_⟩
    all_goals
      obtain ⟨d₀, hd₀, rfl⟩ := Option.map_eq_some_iff.mp hd'
    · exact hd.clean hup d₀ hd₀
    · exact hd.slots d₀ hd₀
  | sync h =>
    obtain ⟨d₀, hsy⟩ := h.synced hs hd
    refine ⟨fun _ d' hd' => ?_, fun d' hd' i e he => ?_⟩
    all_goals cases hd'
    · exact hsy.clean
    · rw [hsy.durable] at he
      split at he
      · exact ⟨(hs.slots he).2.1, (hs.slots he).2.2⟩
      · exact hd.slots d₀ hsy.before i e he
  | fail hd₀ hdur =>
    refine ⟨(fun h => by cases h), fun d' hd' => ?_⟩
    cases hd'
    rw [hdur]
    exact hd.slots _ hd₀
  | _ => exact { hd with }

/-! ### Restarts -/

namespace Core

/-- A fresh process of the same replica on what is left of its disk. -/
def reborn (c : Core) : Core :=
  (Replica.freshState
    { replicaId := c.replicaId
      replicaCount := c.replicaCount
      stateMachine := c.stateMachine.initInPlace c.stateMachine.seed
      disk := c.disk.map Disk.crash
      clientReplySet := c.clientReplySet } c.history).toCore

/-- What a restart can make of the remains `c` of a process. -/
inductive Restarts (hash : Hash) (c : Core) : Core → Prop where
  | blank (h : ∀ d ∈ c.disk, d.metadata = none) : Restarts hash c c.reborn
  | recovered {d : Disk} {m : DiskMetadata} {c' : Core} (hd : c.disk = some d)
      (hm : d.metadata = some m) (hsound : Replica.metadataSound m = true)
      (h : Replica.rebuildCommittedState hash
        (Replica.recoveredCore hash d.crash m c.reborn) m.commitMin = some c') :
      Restarts hash c (Replica.settleRecovered c')

end Core

namespace Replica

theorem replay_frame : ∀ {ops : List ℕ} {parent : ℕ} {c c' : Core},
    replay hash ops parent c = some c' →
      c' = { c with stateMachine := c'.stateMachine, clientTable := c'.clientTable }
  | [], _, c, c', h => by
    cases h
    rfl
  | op :: rest, parent, c, c', h => by
    unfold replay at h
    split at h
    · cases h
    split at h
    · cases h
    split at h
    · cases h
    split at h
    · cases h
    split at h
    · cases h
    next c₁ hc₁ =>
      rw [replay_frame h, updateClientTable_frame hc₁]

theorem rebuildCommittedState_frame {c c' : Core} {target : ℕ}
    (h : rebuildCommittedState hash c target = some c') :
    c' = { c with stateMachine := c'.stateMachine, clientTable := c'.clientTable } := by
  rw [replay_frame h]

theorem restart_restarts {s s' : Replica} (h : s.restart hash env = some s') :
    s.toCore.Restarts hash s'.toCore := by
  obtain ⟨⟨b, s₁⟩, hrec, rfl⟩ := Option.map_eq_some_iff.mp h
  unfold recoverFromDisk at hrec
  split at hrec
  · next hnone =>
    cases hrec
    refine .blank fun d hd => ?_
    have hnone' : s.disk.map Disk.crash = none := hnone
    rw [Option.mem_def.mp hd] at hnone'
    cases hnone'
  next d hd =>
  obtain ⟨d₀, hd₀, rfl⟩ := Option.map_eq_some_iff.mp (show s.disk.map Disk.crash = some d from hd)
  split at hrec
  · next hm =>
    cases hrec
    refine .blank fun d' hd' => ?_
    cases (Option.mem_def.mp hd').symm.trans hd₀
    exact hm
  next m hm =>
  split at hrec
  · cases hrec
  next hsound =>
  split at hrec
  · cases hrec
  next c' hc' =>
    cases hrec
    exact .recovered hd₀ hm (by simpa using hsound) hc'

theorem freshState_sane {cfg : ReplicaConfig} {history : List Record}
    (hcount : 0 < cfg.replicaCount) : Sane hash (freshState cfg history).toCore where
  count := hcount
  slots := fun i e h => by cases h
  dirty := fun i h => by cases h
  views := le_rfl
  pending := fun h => by cases h
  quiet := fun h => by cases h
  deferred := fun _ => rfl
  idle := fun _ => rfl
  empty := fun _ => rfl
  bound := fun _ h => by cases h
  collects := fun _ _ h => by cases h
  source := fun h => by cases h
  role := fun h => by cases h
  owed := fun _ h => by cases h

end Replica

namespace Core.Restarts

theorem sane (h : c.Restarts hash c') (hs : Sane hash c) (hd : DiskOk hash c) :
    Sane hash c' := by
  have hreborn : Sane hash c.reborn := Replica.freshState_sane hs.count
  cases h with
  | blank => exact hreborn
  | @recovered d m c₁ hdisk hm hsound h =>
    rw [Replica.rebuildCommittedState_frame h]
    simp only [Replica.metadataSound, Bool.and_eq_true, Bool.not_eq_true',
      decide_eq_false_iff_not, not_lt] at hsound
    refine { hreborn with
      slots := fun i e he => ?_
      views := hsound.2
      pending := fun h => by cases h
      quiet := fun h => by cases h
      bound := fun _ h => by cases h
      collects := fun _ _ h => by cases h
      source := fun h => by cases h
      role := fun h => by cases h
      owed := fun _ h => by cases h }
    obtain ⟨hread, hfilter⟩ := Option.filter_eq_some_iff.mp
      (show (d.durable i).filter _ = some e from he)
    simp only [Bool.and_eq_true, decide_eq_true_eq, Bool.not_eq_true',
      decide_eq_false_iff_not, not_lt] at hfilter
    obtain ⟨hslot, hvalid⟩ := hd.slots d hdisk i e hread
    exact ⟨⟨hfilter.1.1, hfilter.2.trans hsound.1.2⟩, hslot, hvalid⟩

theorem diskOk (h : c.Restarts hash c') (hd : DiskOk hash c) : DiskOk hash c' := by
  have hreborn : DiskOk hash c.reborn := by
    refine ⟨fun _ d hd' => ?_, fun d hd' => ?_⟩
    all_goals
      obtain ⟨d₀, hd₀, rfl⟩ := Option.map_eq_some_iff.mp hd'
    · exact ⟨fun i => rfl, rfl⟩
    · exact hd.slots d₀ hd₀
  cases h with
  | blank => exact hreborn
  | recovered _ _ _ h =>
    rw [Replica.rebuildCommittedState_frame h]
    exact { hreborn with }

end Core.Restarts

/-! ### Processes -/

namespace Process

variable {p : Process}

/-- `c` is the core of the running process, or the one whose remains it is. -/
structure RunsAs (p : Process) (c : Core) : Prop where
  running : p.stopped = false → c = p.replica.toCore
  remains : c.Halted p.replica.toCore

/-- A call is a sequence of transitions of the core, whether or not it stops the
process. -/
theorem RunsAs.call (h : p.RunsAs c) (hs : Sane hash c)
    (hallow : c = p.replica.toCore → ∀ k, p.replica.Arises env inp k → allow k) :
    ∃ c', (p.call hash inp env).RunsAs c' ∧ ReflTransGen (Act hash inp allow) c c' := by
  unfold Process.call
  by_cases hstop : p.stopped = true
  · rw [if_pos hstop]
    exact ⟨c, h, .refl⟩
  · have hc := h.running (by simpa using hstop)
    have hreach := Replica.handle_reaches (hc ▸ hs) (hallow hc)
    subst hc
    rw [if_neg hstop]
    cases hout : p.replica.handle hash env inp with
    | ok s =>
      rw [hout] at hreach
      exact ⟨_, ⟨fun _ => rfl, .refl _⟩, hreach⟩
    | error s =>
      rw [hout] at hreach
      obtain ⟨c₁, hacts, hhalt⟩ := hreach
      exact ⟨c₁, ⟨(fun h => by cases h), hhalt⟩, hacts⟩

/-- A restart reads only what a stopped process leaves behind. -/
theorem restarts_of_halted {c₁ : Core} (hh : c.Halted c₁) (h : c₁.Restarts hash c') :
    ∃ c₀, (c₀ = c ∨ c₀ = c.noteInstalled) ∧ c₀.Restarts hash c' := by
  have hre : ∀ c₀ : Core, c₀ = { c with history := c₁.history } → c₀.Restarts hash c' := by
    intro c₀ h₀
    have hborn : c₁.reborn = c₀.reborn := by
      unfold Core.reborn
      rw [h₀, hh.replicaId, hh.replicaCount, hh.stateMachine, hh.disk, hh.clientReplySet]
    have hdisk : c₁.disk = c₀.disk := by
      rw [hh.disk, h₀]
    cases h with
    | blank hb =>
      rw [hborn]
      exact .blank (hdisk ▸ hb)
    | recovered hd hm hsound hr =>
      rw [hborn] at hr
      exact .recovered (hdisk ▸ hd) hm hsound hr
  rcases hh.history with hist | hist
  · exact ⟨c, .inl rfl, hre c (by rw [hist])⟩
  · exact ⟨c.noteInstalled, .inr rfl, hre _ (by rw [hist]; rfl)⟩

theorem RunsAs.crash (h : p.RunsAs c) :
    (p.crash hash env).RunsAs c ∨ ∃ c₀ c', (c₀ = c ∨ c₀ = c.noteInstalled) ∧
      c₀.Restarts hash c' ∧ (p.crash hash env).RunsAs c' := by
  unfold Process.crash
  cases hr : p.replica.restart hash env with
  | none => exact .inl ⟨(fun h => by cases h), h.remains⟩
  | some s =>
    obtain ⟨c₀, hc₀, h₀⟩ := restarts_of_halted h.remains (Replica.restart_restarts hr)
    exact .inr ⟨c₀, s.toCore, hc₀, h₀, ⟨fun _ => rfl, .refl _⟩⟩

theorem start_runsAs (cfg : ReplicaConfig) :
    (start cfg).RunsAs (Replica.freshState cfg []).toCore :=
  ⟨fun _ => rfl, .refl _⟩

theorem start_diskOk {cfg : ReplicaConfig} (hblank : ∀ d ∈ cfg.disk, d = {}) :
    DiskOk hash (Replica.freshState cfg []).toCore := by
  refine ⟨fun _ d hd => ?_, fun d hd i e he => ?_⟩
  all_goals rw [hblank d hd] at *
  · exact ⟨fun i => rfl, rfl⟩
  · cases he

/-- A transition keeps `I`. -/
def Kept (hash : Hash) (I : Core → Prop) : Prop :=
  ∀ inp c c', Sane hash c → I c → Act hash inp (fun _ => True) c c' → I c'

theorem RunsAs.keep {I : Core → Prop}
    (hact : ∀ c c', Sane hash c → I c → Act hash inp (fun _ => True) c c' → I c')
    (h : p.RunsAs c) (hs : Sane hash c) (hI : I c) (env : Env) :
    ∃ c', (p.call hash inp env).RunsAs c' ∧ Sane hash c' ∧ I c' := by
  obtain ⟨c₁, h₁, hacts⟩ := @RunsAs.call hash env inp (fun _ => True) c p h hs
    (fun _ _ _ => trivial)
  refine ⟨c₁, h₁, acts_sane hacts hs, ?_⟩
  clear h₁
  induction hacts with
  | refl => exact hI
  | tail h₁ h₂ ih => exact hact _ _ (acts_sane h₁ hs) ih h₂

theorem RunsAs.calls {I : Core → Prop} (hact : Kept hash I) (cs : List (Input × Env)) :
    ∀ {p : Process} {c : Core}, p.RunsAs c → Sane hash c → I c →
      ∃ c', (p.calls hash cs).RunsAs c' ∧ Sane hash c' ∧ I c' := by
  induction cs with
  | nil => exact fun h hs hI => ⟨_, h, hs, hI⟩
  | cons x rest ih =>
    intro p c h hs hI
    obtain ⟨c₁, h₁, hs₁, hI₁⟩ := h.keep (hact x.1) hs hI x.2
    exact ih h₁ hs₁ hI₁

theorem RunsAs.run {I : Core → Prop} (hact : Kept hash I)
    (hre : ∀ c c₀ c', (c₀ = c ∨ c₀ = c.noteInstalled) → Sane hash c → I c →
      c₀.Restarts hash c' → Sane hash c' ∧ I c') (turns : List Turn) :
    ∀ {p : Process} {c : Core}, p.RunsAs c → Sane hash c → I c →
      ∃ c', (p.run hash turns).RunsAs c' ∧ Sane hash c' ∧ I c' := by
  induction turns with
  | nil => exact fun h hs hI => ⟨_, h, hs, hI⟩
  | cons t rest ih =>
    intro p c h hs hI
    cases t with
    | call inp env =>
      obtain ⟨c₁, h₁, hs₁, hI₁⟩ := h.keep (hact inp) hs hI env
      exact ih h₁ hs₁ hI₁
    | crash env =>
      rcases h.crash with h₁ | ⟨c₀, c₁, hc₀, hres, h₁⟩
      · exact ih h₁ hs hI
      · obtain ⟨hs₁, hI₁⟩ := hre c c₀ c₁ hc₀ hs hI hres
        exact ih h₁ hs₁ hI₁

theorem calls_of_stopped (cs : List (Input × Env)) (h : p.stopped = true) :
    p.calls hash cs = p := by
  induction cs with
  | nil => rfl
  | cons x rest ih =>
    have hcall : p.call hash x.1 x.2 = p := if_pos h
    show (p.call hash x.1 x.2).calls hash rest = p
    rw [hcall]
    exact ih

theorem calls_append (cs more : List (Input × Env)) :
    p.calls hash (cs ++ more) = (p.calls hash cs).calls hash more := by
  simp [calls, run, List.foldl_append]

end Process

end Hivemind
