import SpirvRules.Proofs.Decoration.Expansion
import SpirvRules.Proofs.Index.Agreement

/-!
# Annotations read answers only

Each annotation is accepted or refused by itself, whatever the others put where. On indexes that
agree the same are accepted, if ids among parameters stand alike before their targets.
-/

set_option autoImplicit false

namespace SpirvRules.Table

open Outcome

variable {ix ix' : Index} {i : Instruction}

theorem value_eq (op : Opcode) (id : Id) :
    value ix op id = target ix op id >>= fun l =>
      if l.inst.op = .opDecorationGroup then .error (.groupTarget op id) else .ok l := by
  unfold value
  apply bind_congr
  intro l
  by_cases hop : l.inst.op = .opDecorationGroup
  · rw [if_pos hop, if_pos hop]
    rfl
  · rw [if_neg hop, if_neg hop]
    rfl

/-! ### What a section needs to have records -/

theorem exists_groupRecords_iff (ds ds' : List Decoration) (os : List Operand) :
    (∃ rs, groupRecords ix ds os = .ok rs) ↔ ∃ rs, groupRecords ix ds' os = .ok rs := by
  simp only [groupRecords, exists_bind_iff, exists_pure, and_true, exists_mapM_iff]
  apply forall_congr'
  intro o
  apply imp_congr_right
  intro _
  cases o.anyId? with
  | none => rfl
  | some id => simp only [exists_bind_iff, exists_pure]

theorem exists_groupMemberRecords_iff (ds ds' : List Decoration) (os : List Operand) :
    (∃ rs, groupMemberRecords ix ds os = .ok rs) ↔ ∃ rs, groupMemberRecords ix ds' os = .ok rs := by
  fun_induction groupMemberRecords ix ds' os with
  | case1 => simp [groupMemberRecords]
  | case2 id n rest ih => simp only [groupMemberRecords, exists_bind_iff, exists_pure, and_true, ih]
  | case3 os hnil hcons =>
    unfold groupMemberRecords
    split
    · exact absurd rfl hnil
    · exact absurd rfl (hcons _ _ _)
    · simp

theorem exists_expand_iff (direct direct' : Table) (i : Instruction) :
    (∃ rs, expand ix direct i = .ok rs) ↔ ∃ rs, expand ix direct' i = .ok rs := by
  unfold expand
  split
  · rename_i g rest _
    by_cases hg : g ∉ groups ix
    · simp only [if_pos hg]
    simp only [if_neg hg]
    by_cases hop : i.op = .opGroupDecorate
    · simp only [if_pos hop]
      exact exists_groupRecords_iff _ _ rest
    simp only [if_neg hop]
    by_cases hodd : rest.length % 2 = 1
    · simp only [if_pos hodd]
    · simp only [if_neg hodd]
      exact exists_groupMemberRecords_iff _ _ rest
  · rfl

/-- A section has records when each annotation is accepted and no group is misused. -/
theorem exists_records_iff : (∃ rs, records ix = .ok rs) ↔
    (∀ i ∈ ix.module.annotations, ∃ r, directRecord ix i = .ok r) ∧
      (∀ i ∈ ix.module.annotations.filter usesGroup,
        ∃ rs, expand ix (ofRecords []) i = .ok rs) ∧
      misusedGroup? ix = none := by
  constructor
  · rintro ⟨rs, hrs⟩
    obtain ⟨os, rss, hos, hrss, hmisused, _⟩ := records_eq_ok.1 hrs
    refine ⟨exists_mapM_iff.1 ⟨os, hos⟩, fun i hi => ?_, hmisused⟩
    exact (exists_expand_iff _ _ i).1 (exists_mapM_iff.1 ⟨rss, hrss⟩ i hi)
  · rintro ⟨hdirect, hexpand, hmisused⟩
    obtain ⟨os, hos⟩ := exists_mapM_iff.2 hdirect
    obtain ⟨rss, hrss⟩ := exists_mapM_iff.2 fun i hi =>
      (exists_expand_iff (ofRecords (os.filterMap (·))) _ i).2 (hexpand i hi)
    exact ⟨_, records_eq_ok.2 ⟨os, rss, hos, hrss, hmisused, rfl⟩⟩

def valuesNamed (m : Module) : List Id :=
  (m.globals ++ m.entryPoints ++ m.executionModes).flatMap fun i =>
    i.operands.filterMap Operand.anyId?

theorem misusedGroup?_eq_none : misusedGroup? ix = none ↔
    (∀ g ∈ valuesNamed ix.module, g ∉ groups ix) ∧
      ∀ g ∈ groups ix, (ix.usesOfId g).isEmpty = true := by
  rw [misusedGroup?, Option.or_eq_none_iff, List.find?_eq_none, List.find?_eq_none]
  simp only [decide_eq_true_eq, Bool.not_eq_true', Bool.not_eq_false]
  rfl

/-! ### What indexes that agree accept -/

section Agrees

variable (hix : ix'.Agrees ix)

include hix

theorem checkMember_agrees : checkMember ix' = checkMember ix := by
  funext op id n
  rw [checkMember, hix.type?, ← checkMember]

theorem target_agrees {β : Type} (op : Opcode) (id : Id) (f : Opcode → Except TableFault β) :
    (target ix' op id >>= fun l => f l.inst.op) = target ix op id >>= fun l => f l.inst.op := by
  unfold target
  rcases none_or_some_of_map_eq (hix.op_def? id) with ⟨hl, hk⟩ | ⟨l, k, hl, hk, hop⟩
  · rw [hl, hk]
  · rw [hl, hk]
    exact congrArg f hop

theorem decorate_agrees : decorate ix' = decorate ix := by
  funext id kind
  exact target_agrees hix .opDecorate id fun op => do
    if kind.takesIds then throw (.takesIds id)
    if op ≠ .opDecorationGroup ∧ kind.onlyOnMembers then throw (.onlyOnMembers kind id)

theorem value_agrees {β : Type} (op : Opcode) (id : Id) (x : Except TableFault β) :
    (value ix' op id >>= fun _ => x) = value ix op id >>= fun _ => x := by
  have hvalue : ∀ jx : Index, (value jx op id >>= fun _ => x) = target jx op id >>= fun l =>
      if l.inst.op = .opDecorationGroup then .error (.groupTarget op id) else x := by
    intro jx
    rw [value_eq, bind_assoc]
    apply bind_congr
    intro l
    by_cases hop : l.inst.op = .opDecorationGroup
    · rw [if_pos hop, if_pos hop]
      rfl
    · rw [if_neg hop, if_neg hop]
      rfl
  rw [hvalue, hvalue]
  exact target_agrees hix op id fun o =>
    if o = .opDecorationGroup then .error (.groupTarget op id) else x

theorem decorateString_agrees : decorateString ix' = decorateString ix := by
  funext id kind
  exact value_agrees hix .opDecorateString id
    (do if !kind.takesStrings then throw (.takesNoStrings .opDecorateString id))

theorem decorateMember_agrees : decorateMember ix' = decorateMember ix := by
  funext op id n kind
  rw [decorateMember, checkMember_agrees hix, ← decorateMember]

def ParamsAlike (ix' ix : Index) : Prop := ∀ id l k, ix'.def? id = some l → ix.def? id = some k →
  l.inst.op ≠ .opDecorationGroup → checkIdParam ix' l id = checkIdParam ix k id

omit hix in
theorem paramsAlike_of_position
    (h : ∀ id, (ix'.def? id).map Located.position = (ix.def? id).map Located.position) :
    ParamsAlike ix' ix := by
  intro id l k hl hk _
  have hlk := h id
  rw [hl, hk, Option.map_some, Option.map_some, Option.some.injEq] at hlk
  funext param
  unfold checkIdParam
  rcases none_or_some_of_map_eq (h param) with ⟨hp, hq⟩ | ⟨p, q, hp, hq, hpq⟩
  · rw [hp, hq]
  · rw [hp, hq]
    simp only [hlk, hpq]

theorem decorateId_agrees (hparams : ParamsAlike ix' ix) : decorateId ix' = decorateId ix := by
  funext id kind params
  unfold decorateId
  rw [value_eq, value_eq, target, target]
  rcases none_or_some_of_map_eq (hix.op_def? id) with ⟨hl, hk⟩ | ⟨l, k, hl, hk, hop⟩
  · rw [hl, hk]
    rfl
  · rw [hl, hk]
    show (if _ then _ else _) >>= _ = (if _ then _ else _) >>= _
    by_cases hgroup : l.inst.op = .opDecorationGroup
    · rw [if_pos hgroup, if_pos (hop.symm.trans hgroup)]
      rfl
    · rw [if_neg hgroup, if_neg fun h => hgroup (hop.trans h)]
      simp only [bind, Except.bind, hparams id l k hl hk hgroup]

theorem directRecord_agrees (hparams : ParamsAlike ix' ix) :
    directRecord ix' = directRecord ix := by
  funext i
  unfold directRecord
  rw [decorate_agrees hix, decorateId_agrees hix hparams, decorateString_agrees hix,
    decorateMember_agrees hix]

theorem groupRecords_agrees : groupRecords ix' = groupRecords ix := by
  funext ds targets
  unfold groupRecords
  apply congrArg fun f : Operand → Except TableFault (List Record) =>
    targets.mapM f >>= fun records => pure records.flatten
  funext o
  cases o.anyId? with
  | none => rfl
  | some id => exact value_agrees hix .opGroupDecorate id _

theorem groupMemberRecords_agrees : groupMemberRecords ix' = groupMemberRecords ix := by
  funext ds targets
  fun_induction groupMemberRecords ix ds targets with
  | case1 => rfl
  | case2 id n rest ih =>
    rw [groupMemberRecords, ih, checkMember_agrees hix]
    exact value_agrees hix .opGroupMemberDecorate id _
  | case3 targets hnil hcons =>
    unfold groupMemberRecords
    split
    · exact absurd rfl hnil
    · exact absurd rfl (hcons _ _ _)
    · rfl

variable (hgroups : ∀ g, g ∈ groups ix' ↔ g ∈ groups ix)

include hgroups

theorem expand_agrees : expand ix' = expand ix := by
  funext direct i
  unfold expand
  rw [groupRecords_agrees hix, groupMemberRecords_agrees hix]
  simp only [hgroups]

theorem misusedGroup?_agrees
    (hnamed : ∀ id, id ∈ valuesNamed ix'.module ↔ id ∈ valuesNamed ix.module) :
    misusedGroup? ix' = none ↔ misusedGroup? ix = none := by
  have hempty : ∀ us : List Use, us.isEmpty = true ↔ ∀ r, r ∉ us.map Use.read := by
    intro us
    rw [← List.eq_nil_iff_forall_not_mem, List.map_eq_nil_iff, List.isEmpty_iff]
  simp only [misusedGroup?_eq_none, hnamed, hgroups, hempty, hix.uses]

end Agrees

end SpirvRules.Table
