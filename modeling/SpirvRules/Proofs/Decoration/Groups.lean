import SpirvRules.Proofs.Decoration.Agreement
import SpirvRules.Proofs.Decoration.Placement
import SpirvRules.Proofs.Index.StaticUse

/-!
# Where groups are named

A group is no value. Values, entry points and functions are searched for the ids of groups, and an
annotation may have a group as its target only if it fills the group or puts it to use. Elsewhere
nobody looks: in the other sections before the annotations, behind the kind of a decoration, and
between functions.
-/

set_option autoImplicit false

namespace SpirvRules

open Outcome

def Opcode.handlesGroups : Opcode → Bool
  | .opDecorate | .opGroupDecorate | .opGroupMemberDecorate | .opName => true
  | _ => false

namespace Instruction

def Names (i : Instruction) (id : Id) : Prop := ∃ o ∈ i.operands, o.anyId? = some id

instance (i : Instruction) (id : Id) : Decidable (i.Names id) :=
  inferInstanceAs (Decidable (∃ o ∈ i.operands, o.anyId? = some id))

/-- The operands behind the target and the kind of a decoration, and all operands of an instruction
that has no such. -/
def parameters (i : Instruction) : List Operand :=
  match i.op with
  | .opDecorateId | .opDecorateString => i.operands.drop 2
  | .opMemberDecorate | .opMemberDecorateString => i.operands.drop 3
  | _ => i.operands

end Instruction

namespace Module

variable {m : Module} {id : Id} {i : Instruction}

inductive Overlooks (m : Module) (id : Id) (i : Instruction) : Prop
  | early (hi : i ∈ m.capabilities ++ m.extensions ++ m.extInstImports ++ m.memoryModel.toList ++
      m.debugStrings ++ m.debugNames) (hid : i.Names id)
  | parameter (hi : i ∈ m.annotations) (hid : ∃ o ∈ i.parameters, o.anyId? = some id)
  | outside (hi : i ∈ m.functions.flatMap Function.instructions)
      (hout : ∀ f, ¬ Stands m.instructions f i) (hid : i.Names id)

theorem mem_instructions_iff : i ∈ m.instructions ↔
    i ∈ m.capabilities ++ m.extensions ++ m.extInstImports ++ m.memoryModel.toList ++
        m.debugStrings ++ m.debugNames ∨
      i ∈ m.globals ++ m.entryPoints ++ m.executionModes ∨ i ∈ m.annotations ∨
      i ∈ m.functions.flatMap Function.instructions := by
  simp only [instructions, List.mem_append]
  tauto

end Module

namespace Table

variable {m : Module} {ix : Index} {t : Table} {g id : Id} {i : Instruction}

theorem mem_valuesNamed : id ∈ valuesNamed m ↔
    ∃ i ∈ m.globals ++ m.entryPoints ++ m.executionModes, i.Names id := by
  simp only [valuesNamed, List.mem_flatMap, List.mem_filterMap, Instruction.Names]

theorem misusedGroup?_eq_none_iff (h : Index.ofModule m = .ok ix) :
    misusedGroup? ix = none ↔ ∀ g ∈ groups ix,
      (∀ i ∈ m.globals ++ m.entryPoints ++ m.executionModes, ¬ i.Names g) ∧
        ∀ f, ¬ m.Mentions f g := by
  rw [misusedGroup?_eq_none, Index.module_eq h]
  simp only [List.isEmpty_iff, Index.usesOfId_eq_nil_iff h, mem_valuesNamed]
  constructor
  · rintro ⟨hvalues, hfunctions⟩ g hg
    exact ⟨fun i hi hid => hvalues g ⟨i, hi, hid⟩ hg, hfunctions g hg⟩
  · intro hall
    exact ⟨fun g ⟨i, hi, hid⟩ hg => (hall g hg).1 i hi hid, fun g hg => (hall g hg).2⟩

theorem ne_group_of_def (h : Index.ofModule m = .ok ix) (hg : g ∈ groups ix) {l : Located}
    (hl : ix.def? id = some l) (hop : l.inst.op ≠ .opDecorationGroup) : id ≠ g := by
  rintro rfl
  obtain ⟨j, hj, hgroup⟩ := exists_inst?_group h hg
  rw [Index.inst?, hl] at hj
  cases hj
  exact hop hgroup

theorem ne_group_of_member (h : Index.ofModule m = .ok ix) (hg : g ∈ groups ix) {op : Opcode}
    {n : Nat} (hmember : checkMember ix op id n = .ok ()) : id ≠ g := by
  obtain ⟨l, hl, hop, _⟩ := checkMember_def hmember
  refine ne_group_of_def h hg hl ?_
  rw [hop]
  nofun

/-- An id among the operands of a decoration that is not its target is behind its kind. -/
theorem exists_param_of_ne {target : Id} {kind : DecorationKind} {params : List Operand}
    (hne : target ≠ g) (hid : ∃ o ∈ .id target :: .decoration kind :: params, o.anyId? = some g) :
    ∃ o ∈ params, o.anyId? = some g := by
  obtain ⟨o, ho, hid⟩ := hid
  rcases List.mem_cons.1 ho with rfl | ho
  · cases hid
    exact absurd rfl hne
  · rcases List.mem_cons.1 ho with rfl | ho
    · cases hid
    · exact ⟨o, ho, hid⟩

theorem exists_memberParam_of_ne {target : Id} {n : UInt32} {kind : DecorationKind}
    {params : List Operand} (hne : target ≠ g)
    (hid : ∃ o ∈ .id target :: .literal n :: .decoration kind :: params, o.anyId? = some g) :
    ∃ o ∈ params, o.anyId? = some g := by
  have hrest : ∃ o ∈ .id target :: .decoration kind :: params, o.anyId? = some g := by
    obtain ⟨o, ho, hid⟩ := hid
    rcases List.mem_cons.1 ho with rfl | ho
    · exact ⟨_, List.mem_cons_self, hid⟩
    · rcases List.mem_cons.1 ho with rfl | ho
      · cases hid
      · exact ⟨o, List.mem_cons_of_mem _ ho, hid⟩
  exact exists_param_of_ne hne hrest

/-- An accepted annotation that names a group handles it or has it behind its kind. -/
theorem handles_or_parameter (h : Index.ofModule m = .ok ix) (hg : g ∈ groups ix)
    {r : Option Record} (hi : directRecord ix i = .ok r) (hid : i.Names g) :
    i.op.handlesGroups = true ∨ ∃ o ∈ i.parameters, o.anyId? = some g := by
  obtain ⟨op, resultType, result, operands⟩ := i
  cases op <;> simp only [directRecord] at hi
  case opDecorate | opGroupDecorate | opGroupMemberDecorate | opName => exact .inl rfl
  case opDecorateId =>
    split at hi
    · obtain ⟨_, hcheck, _⟩ := bind_eq_ok.1 hi
      obtain ⟨l, ⟨hl, hop⟩, _⟩ := decorateId_eq_ok.1 hcheck
      exact .inr (exists_param_of_ne (ne_group_of_def h hg hl hop) hid)
    · cases hi
  case opDecorateString =>
    split at hi
    · obtain ⟨_, hcheck, _⟩ := bind_eq_ok.1 hi
      obtain ⟨⟨l, hl, hop⟩, _⟩ := decorateString_eq_ok.1 hcheck
      exact .inr (exists_param_of_ne (ne_group_of_def h hg hl hop) hid)
    · cases hi
  case opMemberDecorate | opMemberDecorateString =>
    split at hi
    · obtain ⟨_, hcheck, _⟩ := bind_eq_ok.1 hi
      have hmember := (decorateMember_eq_ok.1 hcheck).1
      exact .inr (exists_memberParam_of_ne (ne_group_of_member h hg hmember) hid)
    · cases hi
  -- the other operations have no target, and all their operands are looked at
  all_goals exact .inr hid

/-- No value, entry point or function names a group, and nothing else does but what handles groups,
except where nobody looks. -/
theorem handled_or_overlooked (h : Index.ofModule m = .ok ix) (ht : ofIndex ix = .ok t)
    (hg : g ∈ groups ix) :
    (∀ i ∈ m.globals ++ m.entryPoints ++ m.executionModes, ¬ i.Names g) ∧
      (∀ f, ¬ m.Mentions f g) ∧
      ∀ i ∈ m.instructions, i.Names g → i.op.handlesGroups = true ∨ m.Overlooks g i := by
  obtain ⟨rs, hrs, _⟩ := ofIndex_eq_ok.1 ht
  obtain ⟨_, _, _, _, hmisused, _⟩ := records_eq_ok.1 hrs
  obtain ⟨hvalues, hfunctions⟩ := (misusedGroup?_eq_none_iff h).1 hmisused g hg
  refine ⟨hvalues, hfunctions, fun i hi hid => ?_⟩
  rcases Module.mem_instructions_iff.1 hi with hi | hi | hi | hi
  · exact .inr (.early hi hid)
  · exact absurd hid (hvalues i hi)
  · exact (handles_or_parameter h hg ((accepted_of_ofIndex h ht).1 i hi) hid).imp_right
      (.parameter hi)
  · exact .inr (.outside hi (fun f hf => hfunctions f ⟨i, hf, hid⟩) hid)

def namedGroup : Module where
  debugNames := [⟨.opName, none, none, [.id 1, .text "group"]⟩]
  annotations := [⟨.opGroupDecorate, none, none, [.id 1, .id 2]⟩, .decorating 1 .restrict [],
    .declaring .opDecorationGroup 1 []]
  globals := [.declaring .opTypeFloat 2 [.literal 32]]
  functions := [.ofBody 20 [.storing 5 7]]

theorem handled_namedGroup :
    ∃ ix t, Index.ofModule namedGroup = .ok ix ∧ ofIndex ix = .ok t ∧ 1 ∈ groups ix ∧
      (∀ i ∈ namedGroup.instructions, i.Names 1 → i.op.handlesGroups = true) ∧
      ∃ i ∈ namedGroup.instructions, i.Names 1 := by
  have hrun : (namedGroup.context {}).toOption.any (fun cx => decide (1 ∈ groups cx.index)) =
      true := by
    decide +kernel
  obtain ⟨cx, hcx, hq⟩ := exists_of_any hrun
  obtain ⟨ix, t, hix, ht, rfl⟩ := Module.context_eq_ok.1 hcx
  have hg : 1 ∈ groups ix := of_decide_eq_true hq
  refine ⟨ix, t, hix, ht, hg, ?_, by decide⟩
  have hbody : ∀ i ∈ namedGroup.functions.flatMap Function.instructions, ¬ i.Names 1 := by decide
  intro i hi hid
  rcases (handled_or_overlooked hix ht hg).2.2 i hi hid with
    hop | ⟨hi, hid⟩ | ⟨hi, hid⟩ | ⟨hi, _, hid⟩
  · exact hop
  · revert i
    decide
  · revert i
    decide
  · exact absurd hid (hbody i hi)

/-- A group that a debug instruction calls a struct, and that another one takes for an alignment. -/
def describedGroup : Module where
  debugNames := [⟨.other "MemberName", none, none, [.id 1, .literal 0, .text "group"]⟩]
  annotations := [.declaring .opDecorationGroup 1 [],
    ⟨.opDecorateId, none, none, [.id 2, .decoration .alignmentId, .id 1]⟩]
  globals := [.declaring .opTypeFloat 2 [.literal 32]]

/-- Validation passes a group that two other instructions name. -/
theorem describedGroup_named :
    ∃ ix t, Index.ofModule describedGroup = .ok ix ∧ ofIndex ix = .ok t ∧
      describedGroup.validate {} = .ok t ∧ 1 ∈ groups ix ∧
      (∃ i ∈ describedGroup.debugNames, i.Names 1 ∧ i.op.handlesGroups = false) ∧
      ∃ i ∈ describedGroup.annotations, i.Names 1 ∧ i.op.handlesGroups = false := by
  have hrun : bothPass (describedGroup.context {}) (describedGroup.validate {}) (fun cx _ =>
      decide (1 ∈ groups cx.index)) = true := by
    decide +kernel
  obtain ⟨cx, t, hcx, ht, hq⟩ := exists_of_bothPass hrun
  obtain ⟨ix, t', hix, hix', rfl⟩ := Module.context_eq_ok.1 hcx
  obtain ⟨_, ix', hixv, htv, _⟩ := Module.validate_eq_ok.1 ht
  rw [hix] at hixv
  cases hixv
  rw [hix'] at htv
  cases htv
  exact ⟨ix, t, hix, hix', ht, of_decide_eq_true hq, by decide, by decide⟩

end Table

end SpirvRules
