import Hivemind.Roster
import Hivemind.Slots

/-! Every node, deployment and pod that a log creates has an id of its own: what a command writes
into a slot under a new id was drawn for that slot, and no draw is for two slots or two commands. -/
namespace Hivemind

inductive EntityKind where
  | node | deployment | pod

namespace StateMachine

variable {kind : EntityKind} {cmd : Command} {cmds : List Command} {allow : Slip → Prop} {c i id : ℕ}
  {sm sm₁ sm₂ : StateMachine}

/-- The ids of a table, slot by slot. -/
def idsOf (sm : StateMachine) : EntityKind → List ℕ
  | .node => sm.nodes.map (·.id)
  | .deployment => sm.deployments.map (·.id)
  | .pod => sm.pods.map (·.id)

/-- Command `n` of the log creates an entity in slot `i`: the slot has an id after it that it did not
have before. A pod slot that the command claims and leaves as the memory held it is no creation. -/
def Creates (sm : StateMachine) (cmds : List Command) (n : ℕ) (kind : EntityKind) (i id : ℕ) : Prop :=
  ∃ before rs cmd after r, Replay.run apply sm (cmds.take n) = some (before, rs) ∧
    cmds[n]? = some cmd ∧ before.apply cmd = some (after, r) ∧
    (before.idsOf kind)[i]? ≠ some id ∧ (after.idsOf kind)[i]? = some id ∧
    (kind = .pod → before.wastes cmd = false)

/-! ### The slots a command fills -/

theorem Edit.ids (e : Edit cmd allow sm sm₁) : sm₁.prng = sm.prng ∧
    ∀ kind, sm₁.idsOf kind = sm.idsOf kind ∨ kind = .pod ∧ allow .waste := by
  refine ⟨by cases e <;> rfl, fun kind => ?_⟩
  cases kind with
  | node =>
    cases e with
    | node _ hn hid _ => exact .inl (map_set_of_eq hn hid.1)
    | _ => exact .inl rfl
  | deployment =>
    cases e with
    | deployment hd hid _ => exact .inl (map_set_of_eq hd hid)
    | retire hd _ => exact .inl (map_set_of_eq hd rfl)
    | _ => exact .inl rfl
  | pod =>
    cases e with
    | pod hp hid _ _ _ _ _ => exact .inl (map_set_of_eq hp hid)
    | claim hwaste _ => exact .inr ⟨rfl, hwaste⟩
    | _ => exact .inl rfl

/-- The table gets a new id at its end or in one of its slots. -/
def Renamed (new : ℕ) (ids ids' : List ℕ) : Prop := ids' = ids ++ [new] ∨ ∃ j, ids' = ids.set j new

theorem Renamed.place {new : ℕ} {ids ids' : List ℕ} (h : Renamed new ids ids') :
    ∃ j, ∀ i id : ℕ, ids'[i]? = some id → ids[i]? = some id ∨ i = j ∧ id = new := by
  rcases h with rfl | ⟨j, rfl⟩
  · refine ⟨ids.length, fun i id h => ?_⟩
    by_cases hlt : i < ids.length
    · rw [List.getElem?_append_left hlt] at h
      exact .inl h
    · obtain ⟨hi, rfl⟩ := List.getElem?_eq_some_iff.mp h
      rw [List.length_append, List.length_singleton] at hi
      have hend : i = ids.length := by omega
      exact .inr ⟨hend, by simp [hend]⟩
  · refine ⟨j, fun i id h => ?_⟩
    by_cases hij : j = i
    · rw [hij, List.getElem?_set_self'] at h
      obtain ⟨_, -, heq⟩ := Option.map_eq_some_iff.mp h
      exact .inr ⟨hij.symm, heq.symm⟩
    · rw [List.getElem?_set_ne hij] at h
      exact .inl h

theorem Draw.ids (e : Draw cmd sm sm₁) : sm₁.prng = sm.generateId.2.prng ∧
    ∃ kind, (∀ other, other ≠ kind → sm₁.idsOf other = sm.idsOf other) ∧
      Renamed sm.generateId.1 (sm.idsOf kind) (sm₁.idsOf kind) := by
  cases e with
  | node _ hid _ _ =>
    refine ⟨rfl, .node, fun other hne => ?_, .inl (by simp [idsOf, hid])⟩
    cases other
    exacts [absurd rfl hne, rfl, rfl]
  | deployment hid _ _ =>
    refine ⟨rfl, .deployment, fun other hne => ?_, .inl (by simp [idsOf, hid])⟩
    cases other
    exacts [rfl, absurd rfl hne, rfl]
  | @redeployment j _ _ _ _ hid _ =>
    refine ⟨rfl, .deployment, fun other hne => ?_, .inr ⟨j, by simp [idsOf, List.map_set, hid]⟩⟩
    cases other
    exacts [rfl, absurd rfl hne, rfl]
  | @pod j _ _ _ _ _ _ hid _ _ _ =>
    refine ⟨rfl, .pod, fun other hne => ?_, .inr ⟨j, by simp [idsOf, List.map_set, hid]⟩⟩
    cases other
    exacts [rfl, rfl, absurd rfl hne]
  | newPod _ hid _ _ _ =>
    refine ⟨rfl, .pod, fun other hne => ?_, .inl (by simp [idsOf, hid])⟩
    cases other
    exacts [rfl, rfl, absurd rfl hne]

/-- A slot that has another id than before was filled by one of the draws. -/
theorem Edits.ids (e : Edits cmd allow sm c sm₁) : sm₁.prng = sm.prng.after c ∧
    ∃ places : List (EntityKind × ℕ), places.length = c ∧ ∀ kind i id,
      (sm₁.idsOf kind)[i]? = some id → (sm.idsOf kind)[i]? = some id ∨ (kind = .pod ∧ allow .waste) ∨
        ∃ d, places[d]? = some (kind, i) ∧ id = (sm.prng.after (d + 1)).state.toNat := by
  induction e with
  | refl => exact ⟨rfl, [], rfl, fun _ _ _ h => .inl h⟩
  | edit _ e ih =>
    obtain ⟨hprng, places, hlen, hids⟩ := ih
    obtain ⟨hsame, hkeeps⟩ := e.ids
    refine ⟨hsame.trans hprng, places, hlen, fun kind i id h => ?_⟩
    rcases hkeeps kind with heq | hwaste
    · exact hids kind i id (heq ▸ h)
    · exact .inr (.inl hwaste)
  | @draw c sm₂ _ _ e ih =>
    obtain ⟨hprng, places, hlen, hids⟩ := ih
    obtain ⟨hnext, table, hothers, htable⟩ := e.ids
    obtain ⟨hnew, hafter⟩ := generateId_after hprng
    obtain ⟨j, hplace⟩ := Renamed.place htable
    refine ⟨hnext.trans hafter, places ++ [(table, j)], by simp [hlen], fun kind i id h => ?_⟩
    have hbefore : (sm₂.idsOf kind)[i]? = some id ∨ (kind, i) = (table, j) ∧ id = sm₂.generateId.1 := by
      by_cases hkind : kind = table
      · subst hkind
        exact (hplace i id h).imp_right fun hthis => ⟨by rw [hthis.1], hthis.2⟩
      · exact .inl (hothers kind hkind ▸ h)
    rcases hbefore with h | ⟨hthis, hid⟩
    · refine (hids kind i id h).imp_right (Or.imp_right ?_)
      rintro ⟨d, hd, hid⟩
      exact ⟨d, by rw [List.getElem?_append_left (List.getElem?_eq_some_iff.mp hd).1, hd], hid⟩
    · refine .inr (.inr ⟨c, ?_, hid.trans hnew⟩)
      rw [← hlen, List.getElem?_concat_length, hthis]

/-! ### The draws of a log -/

/-- The value that call `i` of `generateId` returns, counted from zero. -/
def drawnId (sm : StateMachine) (i : ℕ) : ℕ :=
  ((fun sm : StateMachine => sm.generateId.2)^[i] sm).generateId.1

theorem drawnId_eq (sm : StateMachine) (i : ℕ) :
    sm.drawnId i = (sm.prng.after (i + 1)).state.toNat := by
  induction i generalizing sm with
  | zero => rfl
  | succ i ih =>
    have hshift : sm.drawnId (i + 1) = sm.generateId.2.drawnId i := rfl
    rw [hshift, ih, Prng.after_add sm.prng 1 (i + 1)]
    rfl

/-- What each draw of a log was for, in order: the number of the command, the table and the slot. -/
structure Traced (sm : StateMachine) (cmds : List Command) (born : List (ℕ × EntityKind × ℕ))
    (sm₁ : StateMachine) : Prop where
  prng : sm₁.prng = sm.prng.after born.length
  room : sm₁.Roomy
  few : born.length ≤ maxDraws * cmds.length
  creates : ∀ n kind i id, Creates sm cmds n kind i id →
    ∃ d, born[d]? = some (n, kind, i) ∧ id = sm.drawnId d
  rows : ∀ m sm' rs, Replay.run apply sm (cmds.take m) = some (sm', rs) → ∀ kind i id,
    (sm'.idsOf kind)[i]? = some id →
      (kind = .pod ∧ Replay.along apply spares sm (cmds.take m) = false) ∨
        ∃ d n, born[d]? = some (n, kind, i) ∧ id = sm.drawnId d

/-- A creation of a longer log is one of the shorter log or one of the last command. -/
theorem Creates.concat {n : ℕ} {results : List Result} {r : Result}
    (h : Creates sm (cmds ++ [cmd]) n kind i id)
    (hrun : Replay.run apply sm cmds = some (sm₁, results))
    (happly : sm₁.apply cmd = some (sm₂, r)) :
    Creates sm cmds n kind i id ∨ n = cmds.length ∧ (sm₁.idsOf kind)[i]? ≠ some id ∧
      (sm₂.idsOf kind)[i]? = some id ∧ (kind = .pod → sm₁.wastes cmd = false) := by
  obtain ⟨before, rs, cmd', after, r', hbefore, hcmd, hafter, hnew⟩ := h
  rcases lt_trichotomy n cmds.length with hlt | rfl | hgt
  · rw [List.take_append_of_le_length hlt.le] at hbefore
    rw [List.getElem?_append_left hlt] at hcmd
    exact .inl ⟨before, rs, cmd', after, r', hbefore, hcmd, hafter, hnew⟩
  · rw [List.take_left, hrun] at hbefore
    rw [List.getElem?_concat_length] at hcmd
    cases hbefore
    cases hcmd
    rw [happly] at hafter
    cases hafter
    exact .inr ⟨rfl, hnew⟩
  · rw [List.getElem?_eq_none (by simpa using hgt)] at hcmd
    cases hcmd

theorem Traced.step {born : List (ℕ × EntityKind × ℕ)} {results : List Result} {r : Result}
    (h : Traced sm cmds born sm₁) (hrun : Replay.run apply sm cmds = some (sm₁, results))
    (happly : sm₁.apply cmd = some (sm₂, r)) :
    ∃ born', Traced sm (cmds ++ [cmd]) born' sm₂ := by
  obtain ⟨c, hc, hedits⟩ := apply_edits happly h.room.pods
  obtain ⟨hprng, places, hlen, hids⟩ := hedits.ids
  have hall : Replay.run apply sm (cmds ++ [cmd]) = some (sm₂, results ++ [r]) :=
    Replay.run_concat hrun happly
  have hold : ∀ {d : ℕ} {x : ℕ × EntityKind × ℕ}, born[d]? = some x →
      (born ++ places.map (Prod.mk cmds.length))[d]? = some x := by
    intro d x hd
    rw [List.getElem?_append_left (List.getElem?_eq_some_iff.mp hd).1, hd]
  -- a slot that this command fills has one of its draws
  have hnew : ∀ {kind : EntityKind} {i id d : ℕ}, places[d]? = some (kind, i) →
      id = (sm₁.prng.after (d + 1)).state.toNat → ∃ d,
        (born ++ places.map (Prod.mk cmds.length))[d]? = some (cmds.length, kind, i) ∧
          id = sm.drawnId d := by
    intro kind i id d hd hid
    refine ⟨born.length + d, ?_, ?_⟩
    · rw [List.getElem?_append_right (Nat.le_add_right _ _), Nat.add_sub_cancel_left,
        List.getElem?_map, hd]
      rfl
    · rw [hid, h.prng, drawnId_eq, ← Prng.after_add]
      congr 3
      omega
  refine ⟨born ++ places.map (Prod.mk cmds.length), ?_, apply_roomy happly h.room, ?_, ?_, ?_⟩
  · rw [hprng, h.prng, ← Prng.after_add, List.length_append, List.length_map, hlen, Nat.add_comm]
  · have hfew := h.few
    rw [List.length_append, List.length_map, List.length_append, List.length_singleton, Nat.mul_succ,
      maxDraws] at *
    omega
  · intro n kind i id hcreates
    rcases hcreates.concat hrun happly with hbefore | ⟨rfl, hother, hid, hwaste⟩
    · obtain ⟨d, hd, hdrawn⟩ := h.creates n kind i id hbefore
      exact ⟨d, hold hd, hdrawn⟩
    · rcases hids kind i id hid with hkept | ⟨hpod, hslip⟩ | ⟨d, hd, hdrawn⟩
      · exact absurd hkept hother
      · exact absurd (hslip.symm.trans (hwaste hpod)) Bool.noConfusion
      · exact hnew hd hdrawn
  · intro m sm' rs hm kind i id hid
    by_cases hle : m ≤ cmds.length
    · -- a state within the shorter log
      rw [List.take_append_of_le_length hle] at hm ⊢
      refine (h.rows m sm' rs hm kind i id hid).imp_right ?_
      rintro ⟨d, n, hd, hdrawn⟩
      exact ⟨d, n, hold hd, hdrawn⟩
    · -- the state after the last command
      rw [List.take_of_length_le (by simpa using hle)] at hm ⊢
      rw [hall] at hm
      cases hm
      rcases hids kind i id hid with hkept | ⟨hpod, hslip⟩ | ⟨d, hd, hdrawn⟩
      · have hbefore := h.rows cmds.length sm₁ results (by rw [List.take_length, hrun]) kind i id hkept
        rw [List.take_length] at hbefore
        rcases hbefore with ⟨hpod, hwaste⟩ | ⟨d, n, hd, hdrawn⟩
        · refine .inl ⟨hpod, Bool.eq_false_iff.mpr fun hok => ?_⟩
          have hpart := Replay.along_take hok cmds.length
          rw [List.take_left, hwaste] at hpart
          cases hpart
        · exact .inr ⟨d, n, hold hd, hdrawn⟩
      · refine .inl ⟨hpod, Bool.eq_false_iff.mpr fun hok => ?_⟩
        have hspares := (Replay.along_at hok hrun).2
        have hwastes : sm₁.wastes cmd = true := hslip
        rw [spares, hwastes] at hspares
        cases hspares
      · obtain ⟨d, hd, hdrawn⟩ := hnew hd hdrawn
        exact .inr ⟨d, cmds.length, hd, hdrawn⟩

end StateMachine

end Hivemind
