import SpirvRules.Proofs.Decoration.Agreement
import SpirvRules.Proofs.Index.Renumbering
import SpirvRules.Proofs.Rule.Agreement

/-!
# Numbers where layout is not checked

Other numbers may merge what fills a group, or part it; but what has numbers may be applied once
only, to groups as to all else, so a module where that happens is refused either way. In all other
modules the numbers change nothing in the table but themselves, and where layout is not checked
nothing else looks at them.
-/

set_option autoImplicit false

namespace SpirvRules

open Outcome

def bareRecord (r : Record) : Record := (r.1, r.2.bare)

namespace Instruction

theorem direct?_unnumbered (i : Instruction) :
    i.unnumbered.direct?.map bareRecord = i.direct?.map bareRecord := by
  obtain ⟨op, resultType, result, operands⟩ := i
  cases op <;> try rfl
  case opDecorate | opDecorateId | opDecorateString =>
    rcases operands with _ | ⟨o, _ | ⟨p, params⟩⟩
    · rfl
    · cases o <;> rfl
    cases o <;> try rfl
    cases p <;> try rfl
    exact congrArg (fun d => some (_, d)) (Decoration.bare_ofOperands _ params none)
  case opMemberDecorate | opMemberDecorateString =>
    rcases operands with _ | ⟨o, _ | ⟨p, _ | ⟨q, params⟩⟩⟩
    · rfl
    · cases o <;> rfl
    · cases o <;> cases p <;> rfl
    cases o <;> try rfl
    cases p <;> try rfl
    cases q <;> try rfl
    exact congrArg (fun d => some (_, d)) (Decoration.bare_ofOperands _ params _)

theorem groupUse?_unnumbered (i : Instruction) : i.unnumbered.groupUse? = i.groupUse? := by
  obtain ⟨op, resultType, result, operands⟩ := i
  cases op <;> rfl

theorem unnumbered_of_usesGroup {i : Instruction} (h : Table.usesGroup i = true) :
    i.unnumbered = i := by
  apply unnumbered_eq
  obtain ⟨op, resultType, result, operands⟩ := i
  cases op <;> first
    | rfl
    | cases h

end Instruction

namespace Table

variable {m m' : Module} {ix ix' : Index} {rs rs' : List Record}

theorem decorateId_unnumbered (id : Id) (kind : DecorationKind) (params : List Operand) :
    decorateId ix id kind (if kind.isNumbered then params.map Operand.unnumbered else params) =
      decorateId ix id kind params := by
  split
  · have hids : Operand.anyId? ∘ Operand.unnumbered = Operand.anyId? :=
      funext Operand.anyId?_unnumbered
    rw [decorateId, List.filterMap_map, hids, ← decorateId]
  · rfl

/-- An instruction is accepted or refused whatever its numbers are. -/
theorem exists_directRecord_unnumbered (i : Instruction) :
    (∃ r, directRecord ix i.unnumbered = .ok r) ↔ ∃ r, directRecord ix i = .ok r := by
  have hrecord : ∀ (x : Except TableFault Unit) (r r' : Option Record),
      (∃ o, (x >>= fun _ => pure r) = .ok o) ↔ ∃ o, (x >>= fun _ => pure r') = .ok o := by
    intro x r r'
    simp only [exists_bind_iff, exists_pure]
  obtain ⟨op, resultType, result, operands⟩ := i
  cases op <;> try rfl
  case opDecorate | opDecorateString =>
    rcases operands with _ | ⟨o, _ | ⟨p, params⟩⟩
    · rfl
    · cases o <;> rfl
    cases o <;> try rfl
    cases p <;> try rfl
    exact hrecord _ _ _
  case opDecorateId =>
    rcases operands with _ | ⟨o, _ | ⟨p, params⟩⟩
    · rfl
    · cases o <;> rfl
    cases o <;> try rfl
    cases p <;> try rfl
    rename_i id kind
    show (∃ r, (decorateId ix id kind (if kind.isNumbered then params.map Operand.unnumbered
      else params) >>= _) = .ok r) ↔ _
    rw [decorateId_unnumbered]
    exact hrecord _ _ _
  case opMemberDecorate | opMemberDecorateString =>
    rcases operands with _ | ⟨o, _ | ⟨p, _ | ⟨q, params⟩⟩⟩
    · rfl
    · cases o <;> rfl
    · cases o <;> cases p <;> rfl
    cases o <;> try rfl
    cases p <;> try rfl
    cases q <;> try rfl
    exact hrecord _ _ _

end Table

namespace Module

variable {m m' : Module} (hm : m.unnumbered = m'.unnumbered)

def Unrepeated (m : Module) : Prop := ∀ id, Repetition.repeated? (m.directOn id) = none

theorem bare_on (rs : List Record) (id : Id) :
    ((rs.filter (·.1 = id)).map (·.2)).map Decoration.bare =
      ((rs.map bareRecord).filter (·.1 = id)).map (·.2) := by
  rw [List.filter_map, List.map_map, List.map_map]
  rfl

include hm

theorem annotations_alike :
    m.annotations.map Instruction.unnumbered = m'.annotations.map Instruction.unnumbered :=
  congrArg Module.annotations hm

theorem direct_alike : (m.annotations.filterMap Instruction.direct?).map bareRecord =
    (m'.annotations.filterMap Instruction.direct?).map bareRecord := by
  rw [List.map_filterMap, List.map_filterMap]
  exact filterMap_eq_of_alike (annotations_alike hm) Instruction.direct?_unnumbered

theorem directOn_alike (id : Id) :
    (m.directOn id).map Decoration.bare = (m'.directOn id).map Decoration.bare := by
  rw [directOn, directOn, bare_on, bare_on, direct_alike hm]

theorem Unrepeated.alike (h : m.Unrepeated) : m'.Unrepeated := by
  intro id
  have hperm := List.Perm.of_eq (directOn_alike hm id)
  exact (Repetition.repeated?_perm hperm).1 (h id)

theorem contents_alike (h : m.Unrepeated) (g : Id) :
    (m.contents g).map Decoration.bare = (m'.contents g).map Decoration.bare := by
  rw [contents, contents, Repetition.ofList_bare (h g), Repetition.ofList_bare (h.alike hm g),
    directOn_alike hm]

end Module

namespace Table

variable {m m' : Module} {ix ix' : Index} {rs rs' : List Record}

theorem bare_recordsAt (ds : List Decoration) (es : List (Id × Option Nat)) :
    (GroupUse.recordsAt ds es).map bareRecord =
      GroupUse.recordsAt (ds.map Decoration.bare) es := by
  rw [GroupUse.recordsAt, GroupUse.recordsAt, List.map_flatMap]
  simp only [List.map_map, Function.comp_def, bareRecord, Decoration.bare_placed]

/-- A table with nothing repeated comes from annotations that repeat nothing. -/
theorem unrepeated_of_check (h : Index.ofModule m = .ok ix) (hrs : records ix = .ok rs)
    (hcheck : Repetition.check (ofRecords rs) = .ok ()) :
    (∀ id, Repetition.repeated? ((ofRecords rs).applied id) = none) ∧ m.Unrepeated := by
  have hnone : ∀ id, Repetition.repeated? ((ofRecords rs).applied id) = none := by
    intro id
    by_cases hid : id ∈ (ofRecords rs).targets
    · have hfault := Repetition.check_eq_ok.1 hcheck id hid
      rw [Repetition.fault?, Option.orElse_eq_orElse, Option.orElse_eq_or, Option.or_eq_none_iff,
        Option.map_eq_none_iff] at hfault
      exact hfault.1
    · rw [mem_targets_ofRecords, Classical.not_not] at hid
      rw [hid]
      rfl
  refine ⟨hnone, fun id => ?_⟩
  have happlied := hnone id
  rw [applied_ofRecords, (records_eq h hrs).1, List.filter_append, List.map_append] at happlied
  exact Repetition.repeated?_append happlied

section Records

variable (hrs : rs.map bareRecord = rs'.map bareRecord)

include hrs

theorem applied_alike (id : Id) : ((ofRecords rs).applied id).map Decoration.bare =
    ((ofRecords rs').applied id).map Decoration.bare := by
  rw [applied_ofRecords, applied_ofRecords, Module.bare_on, Module.bare_on, hrs]

theorem alike_of_records
    (hnone : ∀ id, Repetition.repeated? ((ofRecords rs).applied id) = none) :
    (ofRecords rs').Alike (ofRecords rs) where
  targets := by
    apply targets_congr
    intro id
    rw [← List.map_eq_nil_iff (f := Decoration.bare), ← applied_alike hrs, List.map_eq_nil_iff]
  each := by
    intro id
    have hperm := List.Perm.of_eq (applied_alike hrs id)
    have hnone' := (Repetition.repeated?_perm hperm).1 (hnone id)
    rw [decorations_ofRecords, decorations_ofRecords, Repetition.ofList_bare hnone',
      Repetition.ofList_bare (hnone id), applied_alike hrs]

end Records

section Build

variable (hm : m.unnumbered = m'.unnumbered) (h : Index.ofModule m = .ok ix)
variable (h' : Index.ofModule m' = .ok ix')

include hm h h'

theorem records_alike (hu : m.Unrepeated) (hrs : records ix = .ok rs)
    (hrs' : records ix' = .ok rs') : rs.map bareRecord = rs'.map bareRecord := by
  have huses : m.annotations.filterMap Instruction.groupUse? =
      m'.annotations.filterMap Instruction.groupUse? :=
    filterMap_eq_of_alike (Module.annotations_alike hm) Instruction.groupUse?_unnumbered
  rw [(records_eq h hrs).1, (records_eq h' hrs').1, List.map_append, List.map_append,
    Module.direct_alike hm, huses, List.map_flatMap, List.map_flatMap]
  simp only [bare_recordsAt, Module.contents_alike hm hu]

theorem groups_renumbered : groups ix' = groups ix := by
  rw [groups, groups, Index.module_eq h, Index.module_eq h']
  apply filterMap_eq_of_alike (Module.annotations_alike hm).symm
  intro i
  rw [Instruction.op_unnumbered, Instruction.result_unnumbered]

theorem valuesNamed_renumbered : valuesNamed ix'.module = valuesNamed ix.module := by
  rw [Index.module_eq h, Index.module_eq h', valuesNamed, valuesNamed]
  have hvalues : (m'.globals ++ m'.entryPoints ++ m'.executionModes).map Instruction.unnumbered =
      (m.globals ++ m.entryPoints ++ m.executionModes).map Instruction.unnumbered := by
    simp only [List.map_append]
    show m'.unnumbered.globals ++ m'.unnumbered.entryPoints ++ m'.unnumbered.executionModes = _
    rw [← hm]
    rfl
  apply flatMap_eq_of_alike hvalues
  intro i
  exact Instruction.filterMap_anyId?_unnumbered i 0

omit h h' in
theorem filter_usesGroup_renumbered :
    m'.annotations.filter usesGroup = m.annotations.filter usesGroup := by
  rw [← List.filterMap_eq_filter]
  apply filterMap_eq_of_alike (Module.annotations_alike hm).symm
  intro i
  cases huses : usesGroup i with
  | true => rw [Instruction.unnumbered_of_usesGroup huses]
  | false =>
    have huses' : usesGroup i.unnumbered = false := by
      rw [usesGroup, Instruction.op_unnumbered, ← usesGroup, huses]
    rw [Option.guard_eq_none_iff.2 huses', Option.guard_eq_none_iff.2 huses]

theorem paramsAlike_renumbered : ParamsAlike ix' ix :=
  paramsAlike_of_position (Index.map_def?_renumbered hm h h' fun _ => rfl)

/-- With other numbers a section has records if it had some before. -/
theorem exists_records_renumbered (hrs : records ix = .ok rs) :
    ∃ rs', records ix' = .ok rs' := by
  have hagrees := Index.agrees_renumbered hm h h'
  have hgroups : ∀ g, g ∈ groups ix' ↔ g ∈ groups ix := by
    intro g
    rw [groups_renumbered hm h h']
  have hparams := paramsAlike_renumbered hm h h'
  obtain ⟨hdirect, hexpand, hmisused⟩ := exists_records_iff.1 ⟨rs, hrs⟩
  rw [Index.module_eq h] at hdirect hexpand
  rw [exists_records_iff, Index.module_eq h', directRecord_agrees hagrees hparams,
    expand_agrees hagrees hgroups,
    misusedGroup?_agrees hagrees hgroups fun _ => by rw [valuesNamed_renumbered hm h h']]
  rw [filter_usesGroup_renumbered hm,
    ← forall_mem_of_alike (Module.annotations_alike hm) exists_directRecord_unnumbered]
  exact ⟨hdirect, hexpand, hmisused⟩

end Build

end Table

namespace Module

variable {m m' : Module} {o : Options} {t : Table}

theorem validates_renumbered (hm : m.unnumbered = m'.unnumbered) (hskip : o.skipBlockLayout = true)
    (ht : m.validate o = .ok t) : ∃ t', m'.validate o = .ok t' := by
  obtain ⟨hversion, ix, hix, htable, haccepts⟩ := validate_eq_ok.1 ht
  obtain ⟨rs, hrs, rfl⟩ := Table.ofIndex_eq_ok.1 htable
  obtain ⟨hnone, hunrepeated⟩ := Table.unrepeated_of_check hix hrs
    (mapError_eq_ok.1 haccepts.repetition)
  obtain ⟨ix', hix'⟩ := Index.exists_ofModule_renumbered hm hix
  obtain ⟨rs', hrs'⟩ := Table.exists_records_renumbered hm hix hix' hrs
  have hrecords := Table.records_alike hm hix hix' hunrepeated hrs hrs'
  have hagrees : Context.Agrees ⟨ix', Table.ofRecords rs', o⟩ ⟨ix, Table.ofRecords rs, o⟩ :=
    ⟨Index.agrees_renumbered hm hix hix', Table.alike_of_records hrecords hnone, rfl⟩
  have hinterfaces := Interface.check_agrees hagrees (Index.name?_renumbered hm hix hix')
    (Index.entryPoints_renumbered hm hix hix')
  have hboth := Context.accepts_agrees hagrees
    (fun id => .of_eq (Table.applied_alike hrecords id).symm) (.inl hskip) hinterfaces
  have hstated : m'.statedVersion = m.statedVersion := by
    show m'.unnumbered.statedVersion = m.unnumbered.statedVersion
    rw [hm]
  rw [checkVersion, ← hstated, ← checkVersion] at hversion
  exact ⟨_, validate_eq_ok.2
    ⟨hversion, ix', hix', Table.ofIndex_eq_ok.2 ⟨rs', hrs', rfl⟩, hboth.2 haccepts⟩⟩

/-- Where layout is not checked, modules that differ only in the numbers of their decorations are
accepted together. -/
theorem validate_renumbered (hm : m.unnumbered = m'.unnumbered) (hskip : o.skipBlockLayout = true) :
    (∃ t, m.validate o = .ok t) ↔ ∃ t, m'.validate o = .ok t := by
  constructor
  · rintro ⟨t, ht⟩
    exact validates_renumbered hm hskip ht
  · rintro ⟨t, ht⟩
    exact validates_renumbered hm.symm hskip ht

def placedModule (stride first second : UInt32) : Module where
  annotations := [.declaring .opDecorationGroup 1 [], .decorating 1 .arrayStride [.literal stride],
    ⟨.opGroupDecorate, none, none, [.id 1, .id 5]⟩, .decorating 6 .block [], .placing 6 0 first,
    .placing 6 1 second]
  globals := [.declaring .opTypeFloat 2 [.literal 32],
      .declaring .opTypeInt 3 [.literal 32, .literal 0],
      ⟨.opConstant, some 3, some 4, [.literal 4]⟩,
      .declaring .opTypeArray 5 [.id 2, .id 4], .declaring .opTypeStruct 6 [.id 5, .id 2]] ++
    Instruction.holding 7 8 6

theorem validate_renumbered_placedModule :
    (∃ t, (placedModule 1 0 0).validate { skipBlockLayout := true } = .ok t) ∧
      (∃ t, (placedModule 4 0 16).validate {} = .ok t) ∧
      ¬∃ t, (placedModule 1 0 0).validate {} = .ok t := by
  have hplaced : ((placedModule 4 0 16).validate { skipBlockLayout := true }).toOption.any
      (fun _ => true) = true := by
    decide +kernel
  have hchecked : ((placedModule 4 0 16).validate {}).toOption.any (fun _ => true) = true := by
    decide +kernel
  have hrefused : ((placedModule 1 0 0).validate {}).isOk = false := by decide +kernel
  obtain ⟨t, ht, _⟩ := exists_of_any hplaced
  obtain ⟨t', ht', _⟩ := exists_of_any hchecked
  have hm : (placedModule 1 0 0).unnumbered = (placedModule 4 0 16).unnumbered := rfl
  refine ⟨(validate_renumbered hm rfl).2 ⟨t, ht⟩, ⟨t', ht'⟩, ?_⟩
  rintro ⟨_, hok⟩
  rw [hok] at hrefused
  cases hrefused

end Module

end SpirvRules
