import SpirvRules.Proofs.Decoration.Agreement
import SpirvRules.Proofs.Index.Reordering
import SpirvRules.Proofs.Rule.Agreement

/-!
# The order of annotations

Each annotation is refused or recorded by itself, and a group holds the same set however it is
filled. So a module is accepted with its annotations in any order, and its table then has the same
decorations, applied in another order.
-/

set_option autoImplicit false

namespace SpirvRules

open Outcome Located

namespace Module

variable {m : Module} {as : List Instruction} (hperm : as.Perm m.annotations)

include hperm

theorem directOn_perm (id : Id) : ((m.annotated as).directOn id).Perm (m.directOn id) :=
  ((hperm.filterMap _).filter _).map _

theorem contents_annotated (g : Id) : (m.annotated as).contents g = m.contents g :=
  Ordered.ofList_eq_of_mem_iff fun _ => (directOn_perm hperm g).mem_iff

end Module

namespace Table

variable {m : Module} {as : List Instruction} {ix ix' : Index} {t t' : Table}
variable (hperm : as.Perm m.annotations) (hsteady : Steady m.openFunction m.annotations)
variable (hgroups : ∀ i ∈ m.annotations, i.result.isSome = true → i.op = .opDecorationGroup)
variable (h : Index.ofModule m = .ok ix) (h' : Index.ofModule (m.annotated as) = .ok ix')

section Targets

include hperm hsteady h h'

include hgroups

theorem checkIdParam_annotated {l : Located} {id : Id} (hl : ix'.def? id = some l)
    (hop : l.inst.op ≠ .opDecorationGroup) :
    checkIdParam ix' l id = checkIdParam ix l id := by
  obtain ⟨haround, _⟩ := Index.def?_annotated hperm hsteady h h' hgroups hl hop
  funext param
  have hinst := Index.inst?_annotated hperm h h' param
  rw [Index.inst?, Index.inst?] at hinst
  unfold checkIdParam
  rcases none_or_some_of_map_eq hinst with ⟨hp, hk⟩ | ⟨p, k, hp, hk, _⟩
  · rw [hp, hk]
  · rw [hp, hk]
    simp only [Index.position_lt_annotated hperm hsteady h h' haround hp hk]

theorem directRecord_annotated : directRecord ix' = directRecord ix := by
  apply directRecord_agrees (Index.agrees_annotated hperm hsteady h h')
  intro id l k hl hk hop
  have hsame := (Index.def?_annotated hperm hsteady h h' hgroups hl hop).2
  cases hk.symm.trans hsame
  exact checkIdParam_annotated hperm hsteady hgroups h h' hl hop

end Targets

section Groups

include hperm h h'

theorem mem_groups_annotated (g : Id) : g ∈ groups ix' ↔ g ∈ groups ix := by
  rw [mem_groups h, mem_groups h']
  exact exists_congr fun i => and_congr_left fun _ => hperm.mem_iff

end Groups

section Build

variable {rs rs' : List Record}

theorem applied_perm (hrs : rs'.Perm rs) (id : Id) :
    ((ofRecords rs').applied id).Perm ((ofRecords rs).applied id) := by
  rw [applied_ofRecords, applied_ofRecords]
  exact (hrs.filter _).map _

/-- Records in another order put the same decorations on the same targets. -/
theorem agrees_of_perm (hrs : rs'.Perm rs) : (ofRecords rs').Agrees (ofRecords rs) where
  targets := by
    apply targets_congr
    intro id
    rw [← List.length_eq_zero_iff, (applied_perm hrs id).length_eq, List.length_eq_zero_iff]
  each := by
    intro id
    rw [decorations_ofRecords, decorations_ofRecords]
    exact Ordered.ofList_eq_of_mem_iff fun d => (applied_perm hrs id).mem_iff

include hperm h h'

theorem records_perm (hrs : records ix = .ok rs) (hrs' : records ix' = .ok rs') : rs'.Perm rs := by
  rw [(records_eq h hrs).1, (records_eq h' hrs').1]
  simp only [Module.contents_annotated hperm]
  exact (hperm.filterMap _).append ((hperm.filterMap _).flatMap_right _)

include hsteady hgroups

theorem exists_records_annotated (hrs : records ix = .ok rs) : ∃ rs', records ix' = .ok rs' := by
  have hagrees := Index.agrees_annotated hperm hsteady h h'
  have hgroup := mem_groups_annotated hperm h h'
  have hnamed : valuesNamed ix'.module = valuesNamed ix.module := by
    rw [Index.module_eq h, Index.module_eq h']
    rfl
  have hannotations : ix'.module.annotations = as := by
    rw [Index.module_eq h']
    rfl
  obtain ⟨hdirect, hexpand, hmisused⟩ := exists_records_iff.1 ⟨rs, hrs⟩
  rw [Index.module_eq h] at hdirect hexpand
  rw [exists_records_iff, hannotations, directRecord_annotated hperm hsteady hgroups h h',
    expand_agrees hagrees hgroup, misusedGroup?_agrees hagrees hgroup fun _ => by rw [hnamed]]
  exact ⟨fun i hi => hdirect i (hperm.mem_iff.1 hi),
    fun i hi => hexpand i ((hperm.filter _).mem_iff.1 hi), hmisused⟩

end Build

end Table

namespace Module

variable {m : Module} {as : List Instruction} {o : Options} {t t' : Table}

/-- The annotations of a module may be put in another order where only groups among them have
results, and either no earlier section leaves a function open or none of them begins or ends one. -/
structure Reorderable (m : Module) : Prop where
  groups : ∀ i ∈ m.annotations, i.result.isSome = true → i.op = .opDecorationGroup
  functions : m.openFunction = none ∨
    ∀ i ∈ m.annotations, i.op ≠ .opFunction ∧ i.op ≠ .opFunctionEnd

theorem Reorderable.steady (h : m.Reorderable) : Steady m.openFunction m.annotations := by
  intro i hi
  rcases h.functions with hnone | hno
  · rw [hnone]
    constructor
    · by_cases hop : i.op = .opFunction
      · rw [enter, if_pos hop]
        by_contra hresult
        have hgroup := h.groups i hi (Option.isSome_iff_ne_none.2 hresult)
        rw [hop] at hgroup
        cases hgroup
      · exact if_neg hop
    · by_cases hop : i.op = .opFunctionEnd
      · exact if_pos hop
      · exact if_neg hop
  · obtain ⟨hbegin, hend⟩ := hno i hi
    exact ⟨if_neg hbegin, if_neg hend⟩

theorem Reorderable.annotated (h : m.Reorderable) (hperm : as.Perm m.annotations) :
    (m.annotated as).Reorderable where
  groups := fun i hi => h.groups i (hperm.mem_iff.1 hi)
  functions := h.functions.imp_right fun hno i hi => hno i (hperm.mem_iff.1 hi)

theorem Reorderable.validates (h : m.Reorderable) (hperm : as.Perm m.annotations)
    (ht : m.validate o = .ok t) :
    ∃ t', (m.annotated as).validate o = .ok t' ∧
      ∀ id, t'.decorations id = t.decorations id ∧ (t'.applied id).Perm (t.applied id) := by
  obtain ⟨hversion, ix, hix, htable, haccepts⟩ := validate_eq_ok.1 ht
  obtain ⟨rs, hrs, rfl⟩ := Table.ofIndex_eq_ok.1 htable
  obtain ⟨ix', hix'⟩ := Index.exists_ofModule_annotated hperm h.steady hix
  obtain ⟨rs', hrs'⟩ := Table.exists_records_annotated hperm h.steady h.groups hix hix' hrs
  have hperm' := Table.records_perm hperm hix hix' hrs hrs'
  have hagrees := Index.agrees_annotated hperm h.steady hix hix'
  have htables := Table.agrees_of_perm hperm'
  have hname : ∀ id, ix'.name? id = ix.name? id := by
    intro id
    rw [Index.name?, Index.name?, Index.entryPoints_annotated hix hix', Index.module_eq hix,
      Index.module_eq hix']
    rfl
  have hcontexts : Context.Agrees ⟨ix', Table.ofRecords rs', o⟩ ⟨ix, Table.ofRecords rs, o⟩ :=
    ⟨hagrees, htables.alike, rfl⟩
  have hboth := Context.accepts_agrees hcontexts (fun id => (Table.applied_perm hperm' id).map _)
    (.inr htables)
    (Interface.check_agrees hcontexts hname (Index.entryPoints_annotated hix hix'))
  have htable' := Table.ofIndex_eq_ok.2 ⟨rs', hrs', rfl⟩
  exact ⟨Table.ofRecords rs',
    validate_eq_ok.2 ⟨hversion, ix', hix', htable', hboth.2 haccepts⟩,
    fun id => ⟨htables.each id, Table.applied_perm hperm' id⟩⟩

/-- A module is accepted with its annotations in any order, and then has the same decorations. -/
theorem validate_annotated (h : m.Reorderable) (hperm : as.Perm m.annotations) (o : Options) :
    ((∃ t, m.validate o = .ok t) ↔ ∃ t, (m.annotated as).validate o = .ok t) ∧
      ∀ t t', m.validate o = .ok t → (m.annotated as).validate o = .ok t' →
        ∀ id, t.decorations id = t'.decorations id ∧ (t.applied id).Perm (t'.applied id) := by
  constructor
  · constructor
    · rintro ⟨t, ht⟩
      obtain ⟨t', ht', _⟩ := h.validates hperm ht
      exact ⟨t', ht'⟩
    · rintro ⟨t', ht'⟩
      obtain ⟨t, ht, _⟩ := (h.annotated hperm).validates hperm.symm ht'
      exact ⟨t, ht⟩
  · intro t t' ht ht' id
    obtain ⟨t'', ht'', hall⟩ := h.validates hperm ht
    cases ht'.symm.trans ht''
    exact ⟨(hall id).1.symm, (hall id).2.symm⟩

def groupedBlock : Module where
  annotations := [⟨.opGroupDecorate, none, none, [.id 6, .id 5]⟩, .decorating 6 .restrict [],
    .declaring .opDecorationGroup 6 [], .decorating 6 .nonWritable [], .decorating 3 .block [],
    .placing 3 0 0]
  globals := [.declaring .opTypeFloat 1 [.literal 32], .declaring .opTypeStruct 3 [.id 1]] ++
    Instruction.holding 4 5 3

theorem validate_reversed_groupedBlock :
    ∃ t t', groupedBlock.validate {} = .ok t ∧
      (groupedBlock.annotated groupedBlock.annotations.reverse).validate {} = .ok t' ∧
      t.applied 5 = [⟨.restrict, [], none⟩, ⟨.nonWritable, [], none⟩] ∧
      ∀ id, t.decorations id = t'.decorations id ∧ (t.applied id).Perm (t'.applied id) := by
  have hrun : (groupedBlock.validate {}).toOption.any (fun t =>
      decide (t.applied 5 = [⟨.restrict, [], none⟩, ⟨.nonWritable, [], none⟩])) = true := by
    decide +kernel
  obtain ⟨t, ht, hq⟩ := exists_of_any hrun
  have hreorderable : groupedBlock.Reorderable := ⟨by decide, .inl rfl⟩
  have hall := validate_annotated hreorderable groupedBlock.annotations.reverse_perm {}
  obtain ⟨t', ht'⟩ := hall.1.1 ⟨t, ht⟩
  exact ⟨t, t', ht, ht', of_decide_eq_true hq, hall.2 t t' ht ht'⟩

/-- A function left open by the debug section, which ends after a group is filled. -/
def openFunctionModule : Module where
  debugNames := [.declaring .opFunction 9 []]
  annotations := [.declaring .opDecorationGroup 1 [], .decorating 1 .restrict [],
    ⟨.opFunctionEnd, none, none, []⟩]

/-- In that function filling the group is a use of it, which the function has not where it ends
first. -/
theorem openFunctionModule_ordered :
    ∃ as, as.Perm openFunctionModule.annotations ∧
      (∀ i ∈ openFunctionModule.annotations, i.result.isSome = true → i.op = .opDecorationGroup) ∧
      (∃ t, (openFunctionModule.annotated as).validate {} = .ok t) ∧
      ¬ ∃ t, openFunctionModule.validate {} = .ok t := by
  have hopen : (openFunctionModule.validate {}).isOk = false := by decide +kernel
  have hclosed : ((openFunctionModule.annotated
      openFunctionModule.annotations.reverse).validate {}).isOk = true := by
    decide +kernel
  refine ⟨openFunctionModule.annotations.reverse, List.reverse_perm _, by decide, ?_, ?_⟩
  · cases ht : (openFunctionModule.annotated openFunctionModule.annotations.reverse).validate {}
    · rw [ht] at hclosed
      cases hclosed
    · exact ⟨_, rfl⟩
  · rintro ⟨t, ht⟩
    rw [ht] at hopen
    cases hopen

end Module

end SpirvRules
