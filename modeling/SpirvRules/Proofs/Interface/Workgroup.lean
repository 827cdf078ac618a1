import SpirvRules.Proofs.Interface.Listing

/-!
# Blocks in workgroup memory

The rule compares how many distinct blocks there are with how many workgroup variables are listed.
That tells whether all of them are blocks, for an interface lists no workgroup variable twice.
-/

set_option autoImplicit false

namespace SpirvRules

open Outcome

theorem eraseDups_eq_of_nodup {α : Type} [DecidableEq α] {l : List α} (h : l.Nodup) :
    l.eraseDups = l := by
  induction l with
  | nil => rfl
  | cons a l ih =>
    obtain ⟨ha, hl⟩ := List.nodup_cons.1 h
    have hfilter : (l.filter fun b => !b == a) = l := by
      rw [List.filter_eq_self]
      intro b hb
      simpa using ne_of_mem_of_not_mem hb ha
    rw [List.eraseDups_cons, hfilter, ih hl]

namespace Context

variable (cx : Context)

def HoldsBlock (id : Id) : Prop := ∃ s, cx.Resolves id s ∧ cx.table.has s .block

def ListsWorkgroup (e : EntryPoint) (id : Id) : Prop :=
  id ∈ e.interface ∧ cx.index.variableClass? id = some .workgroup

/-- An entry point lists no blocks in workgroup memory, or the module has the capability for them,
all workgroup variables listed are blocks, and there is one of them or all of them may alias. -/
def WorkgroupInOrder (e : EntryPoint) : Prop :=
  (∀ id, cx.ListsWorkgroup e id → ¬ cx.HoldsBlock id) ∨
    cx.index.module.declares .workgroupMemoryExplicitLayoutKHR ∧
      (∀ id, cx.ListsWorkgroup e id → cx.HoldsBlock id) ∧
      ((∃! id, cx.ListsWorkgroup e id ∧ cx.HoldsBlock id) ∨
        ∀ id, cx.ListsWorkgroup e id ∧ cx.HoldsBlock id → cx.table.has id .aliased)

end Context

namespace Shared

variable {cx : Context} {e : EntryPoint} {vs : List InterfaceVar} {f id : Id}

/-- What the check makes of the distinct blocks, however they were found. -/
theorem workgroupFault?_eq_none : workgroupFault? cx vs f = none ↔
    workgroupBlocks cx vs = [] ∨ cx.index.module.declares .workgroupMemoryExplicitLayoutKHR ∧
      (workgroupBlocks cx vs).length = (workgroup vs).length ∧
      ((∃ id, workgroupBlocks cx vs = [id]) ∨
        ∀ id ∈ workgroupBlocks cx vs, cx.table.has id .aliased) := by
  unfold workgroupFault?
  generalize workgroupBlocks cx vs = blocks
  cases blocks with
  | nil => simp
  | cons first others =>
    have hone : (∃ id, first :: others = [id]) ↔ others = [] := by simp
    rw [hone]
    by_cases hdeclares : cx.index.module.declares .workgroupMemoryExplicitLayoutKHR = true
    · by_cases hlength : (first :: others).length = (workgroup vs).length
      · by_cases hothers : others = [] <;> simp [hdeclares, ← hlength, hothers]
      · have hlength' : ¬ others.length + 1 = (workgroup vs).length := hlength
        simp [hdeclares, hlength']
    · simp [hdeclares]

theorem workgroup_eq_nil (h : ∀ v ∈ vs, v.isInOrOut = true) : workgroup vs = [] := by
  rw [workgroup, List.filter_eq_nil_iff]
  intro v hv hclass
  have hinOrOut := h v hv
  simp [InterfaceVar.isInOrOut, of_decide_eq_true hclass] at hinOrOut

theorem holdsBlock_iff {v : InterfaceVar} (hv : v.Stated cx.index) :
    (v.struct? cx).any (cx.table.has · .block) = true ↔ cx.HoldsBlock v.id := by
  simp only [Option.any_eq_true, hv.struct?_eq_some, Context.HoldsBlock]

section Listed

variable (h : Listing.listedVars cx e = .ok vs)

include h

theorem stated_of_mem_workgroup : ∀ v ∈ workgroup vs, v.Stated cx.index := fun _ hv =>
  ((Listing.mem_listedVars h).1 (List.mem_of_mem_filter hv)).2

theorem exists_workgroup_iff :
    (∃ v ∈ workgroup vs, v.id = id) ↔ cx.ListsWorkgroup e id := by
  simp only [workgroup, List.mem_filter, decide_eq_true_eq, Listing.mem_listedVars h]
  constructor
  · rintro ⟨v, ⟨⟨hid, hv⟩, hclass⟩, rfl⟩
    rw [Context.ListsWorkgroup, hv.storage, hclass]
    exact ⟨hid, rfl⟩
  · rintro ⟨hid, hclass⟩
    obtain ⟨_, hids, _⟩ := Listing.listedVars_eq_ok.1 h
    rw [← hids] at hid
    obtain ⟨v, hv, rfl⟩ := List.mem_map.1 hid
    obtain ⟨hlisted, hstated⟩ := (Listing.mem_listedVars h).1 hv
    exact ⟨v, ⟨⟨hlisted, hstated⟩, Option.some.inj (hstated.storage.symm.trans hclass)⟩, rfl⟩

theorem mem_workgroupBlocks :
    id ∈ workgroupBlocks cx vs ↔ cx.ListsWorkgroup e id ∧ cx.HoldsBlock id := by
  rw [← exists_workgroup_iff h]
  simp only [workgroupBlocks, List.mem_eraseDups, List.mem_map, List.mem_filter]
  have hstated := stated_of_mem_workgroup h
  constructor
  · rintro ⟨v, ⟨hv, hblock⟩, rfl⟩
    exact ⟨⟨v, hv, rfl⟩, (holdsBlock_iff (hstated v hv)).1 hblock⟩
  · rintro ⟨⟨v, hv, rfl⟩, hblock⟩
    exact ⟨v, ⟨hv, (holdsBlock_iff (hstated v hv)).2 hblock⟩, rfl⟩

/-- No workgroup variable is listed twice: from 1.4 on nothing is, and before that none is
listed. -/
theorem nodup_workgroup : ((workgroup vs).map InterfaceVar.id).Nodup := by
  cases hglobals : Listing.listsGlobals cx with
  | true =>
    obtain ⟨hunique, hids, _⟩ := Listing.listedVars_eq_ok.1 h
    have hnodup := hunique hglobals
    rw [← hids] at hnodup
    exact hnodup.sublist (List.filter_sublist.map _)
  | false =>
    rw [workgroup_eq_nil fun v hv => Listing.isInOrOut_of_mem hglobals h hv]
    exact .nil

theorem workgroupBlocks_eq : workgroupBlocks cx vs = ((workgroup vs).filter fun v =>
    (v.struct? cx).any (cx.table.has · .block)).map InterfaceVar.id :=
  eraseDups_eq_of_nodup ((nodup_workgroup h).sublist (List.filter_sublist.map _))

theorem length_workgroupBlocks_iff : (workgroupBlocks cx vs).length = (workgroup vs).length ↔
    ∀ id, cx.ListsWorkgroup e id → cx.HoldsBlock id := by
  have hstated := stated_of_mem_workgroup h
  rw [workgroupBlocks_eq h, List.length_map, List.length_filter_eq_length_iff]
  simp only [← exists_workgroup_iff h]
  constructor
  · rintro hall _ ⟨v, hv, rfl⟩
    exact (holdsBlock_iff (hstated v hv)).1 (hall v hv)
  · intro hall v hv
    exact (holdsBlock_iff (hstated v hv)).2 (hall v.id ⟨v, hv, rfl⟩)

theorem exists_workgroupBlocks_eq_singleton :
    (∃ id, workgroupBlocks cx vs = [id]) ↔
      ∃! id, cx.ListsWorkgroup e id ∧ cx.HoldsBlock id := by
  simp only [← mem_workgroupBlocks h]
  constructor
  · rintro ⟨id, hid⟩
    rw [hid]
    exact ⟨id, List.mem_singleton_self id, fun _ => List.mem_singleton.1⟩
  · rintro ⟨id, hid, hunique⟩
    have hnodup : (workgroupBlocks cx vs).Nodup := by
      rw [workgroupBlocks_eq h]
      exact (nodup_workgroup h).sublist (List.filter_sublist.map _)
    refine ⟨id, List.perm_singleton.1 ?_⟩
    rw [List.perm_ext_iff_of_nodup hnodup (List.pairwise_singleton _ id)]
    intro x
    rw [List.mem_singleton]
    exact ⟨hunique x, fun hx => hx ▸ hid⟩

end Listed

/-- The check of workgroup memory passes exactly the interfaces whose blocks are in order; so an
accepted module has them in order at every entry point. -/
theorem workgroupFault?_eq_none_iff_inOrder :
    (∀ (cx : Context) (e : EntryPoint) (vs : List InterfaceVar),
      Listing.listedVars cx e = .ok vs →
        (workgroupFault? cx vs e.function = none ↔ cx.WorkgroupInOrder e)) ∧
      ∀ (m : Module) (o : Options) (t : Table), m.validate o = .ok t →
        ∃ ix, Index.ofModule m = .ok ix ∧ Table.ofIndex ix = .ok t ∧
          ∀ e ∈ ix.entryPoints, Context.WorkgroupInOrder ⟨ix, t, o⟩ e := by
  have hexact : ∀ (cx : Context) (e : EntryPoint) (vs : List InterfaceVar),
      Listing.listedVars cx e = .ok vs →
        (workgroupFault? cx vs e.function = none ↔ cx.WorkgroupInOrder e) := by
    intro cx e vs h
    rw [workgroupFault?_eq_none, length_workgroupBlocks_iff h,
      exists_workgroupBlocks_eq_singleton h, List.eq_nil_iff_forall_not_mem]
    simp only [mem_workgroupBlocks h, not_and, Context.WorkgroupInOrder]
  refine ⟨hexact, fun m o t h => ?_⟩
  obtain ⟨ix, hix, ht, hlists⟩ := Interface.exists_vars_of_validate h
  refine ⟨ix, hix, ht, fun e he => ?_⟩
  obtain ⟨vs, hvs, hfault⟩ := hlists e he
  exact (hexact _ e vs hvs).1 (Interface.fault?_eq_none.1 hfault).2.2.1

def aliasedBlocks : Module where
  version := some .v1_4
  capabilities := [⟨.opCapability, none, none, [.capability .workgroupMemoryExplicitLayoutKHR]⟩]
  entryPoints := [⟨.opEntryPoint, none, none,
    [.executionModel .glCompute, .id 20, .text "main", .id 8, .id 9]⟩]
  annotations := [.decorating 3 .block [], .placing 3 0 0,
    .decorating 5 .arrayStride [.literal 16], .decorating 8 .aliased [], .decorating 9 .aliased []]
  globals := [.declaring .opTypeInt 1 [.literal 32, .literal 0],
    ⟨.opConstant, some 1, some 2, [.literal 4]⟩, .declaring .opTypeStruct 3 [.id 1],
    .declaring .opTypePointer 4 [.storageClass .workgroup, .id 3],
    .declaring .opTypeArray 5 [.id 3, .id 2],
    .declaring .opTypePointer 6 [.storageClass .workgroup, .id 5],
    ⟨.opVariable, some 4, some 8, [.storageClass .workgroup]⟩,
    ⟨.opVariable, some 6, some 9, [.storageClass .workgroup]⟩]
  functions := [.ofBody 20 []]

theorem aliasedBlocks_inOrder :
    ∃ ix t e vs, Index.ofModule aliasedBlocks = .ok ix ∧ aliasedBlocks.validate {} = .ok t ∧
      e ∈ ix.entryPoints ∧ e.interface = [8, 9] ∧
      Listing.listedVars ⟨ix, t, {}⟩ e = .ok vs ∧
      workgroupFault? ⟨ix, t, {}⟩ vs e.function = none ∧
      Context.HoldsBlock ⟨ix, t, {}⟩ 8 ∧ Context.HoldsBlock ⟨ix, t, {}⟩ 9 := by
  have hrun : bothPass (aliasedBlocks.validate {}) (aliasedBlocks.context {}) (fun _ cx =>
      decide (cx.index.entryPoints.map EntryPoint.interface = [[8, 9]] ∧
        cx.index.variableClass? 8 = some .workgroup ∧ cx.index.variableClass? 9 = some .workgroup ∧
        cx.index.pointer? 8 = some (.workgroup, 3) ∧
        (cx.index.type? 3).any TypeView.isStruct ∧ cx.table.has 3 .block)) = true := by
    decide +kernel
  obtain ⟨t, cx, ht, hcx, hq⟩ := exists_of_bothPass hrun
  obtain ⟨hinterface, hclass, hclass', hpointer, hstruct, hblock⟩ := of_decide_eq_true hq
  obtain ⟨ix, t', hix, ht', rfl⟩ := Module.context_eq_ok.1 hcx
  obtain ⟨e, heps⟩ := List.length_eq_one_iff.1 (by simpa using congrArg List.length hinterface)
  have he : e ∈ ix.entryPoints := heps ▸ List.mem_singleton_self e
  have hids : e.interface = [8, 9] := by simpa [heps] using hinterface
  obtain ⟨hexact, hvalid⟩ := workgroupFault?_eq_none_iff_inOrder
  obtain ⟨ix', hix', htable, hinOrder⟩ := hvalid _ _ _ ht
  cases hix.symm.trans hix'
  cases ht'.symm.trans htable
  obtain ⟨_, hix'', _, hlists⟩ := Interface.exists_vars_of_validate ht
  cases hix.symm.trans hix''
  obtain ⟨vs, hvs, _⟩ := hlists e he
  have hlisted : Context.ListsWorkgroup ⟨ix, t, {}⟩ e 8 := ⟨by simp [hids], hclass⟩
  have hlisted' : Context.ListsWorkgroup ⟨ix, t, {}⟩ e 9 := ⟨by simp [hids], hclass'⟩
  have hholds : Context.HoldsBlock ⟨ix, t, {}⟩ 8 :=
    ⟨3, ⟨_, 3, hpointer, .refl, hstruct⟩, hblock⟩
  obtain ⟨_, hall, _⟩ := (hinOrder e he).resolve_left fun hnone => hnone 8 hlisted hholds
  exact ⟨ix, t, e, vs, hix, ht, he, hids, hvs, (hexact _ e vs hvs).2 (hinOrder e he), hholds,
    hall 9 hlisted'⟩

end Shared

end SpirvRules
