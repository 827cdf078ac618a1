import SpirvRules.Proofs.Index.StaticUse
import SpirvRules.Proofs.Interface.Listing
import SpirvRules.Proofs.Layout.Buffers

/-!
# The resources of an accepted module

A module accepted for Vulkan has bound every resource its entry points use, holds blocks in all its
buffers, and uses one push constant at most from each entry point. Decorations, static use and the
checks of two stages meet here.
-/

set_option autoImplicit false

namespace SpirvRules

open Outcome Stateful

def Module.HasVariable (m : Module) (id : Id) (c : StorageClass) : Prop :=
  ∃ i ∈ m.globals, i.op = .opVariable ∧ i.result = some id ∧ i.operand? 0 = some (.storageClass c)

def Table.IsBlockFor (t : Table) (struct : Id) : StorageClass → Prop
  | .pushConstant => t.has struct .block
  | .storageBuffer => t.has struct .block ∧ ¬ t.has struct .bufferBlock
  | .uniform => t.has struct .block ∨ t.has struct .bufferBlock
  | _ => True

namespace Resource

variable {cx : Context} {id struct pointee : Id} {c : StorageClass}

theorem descriptorFault?_eq_none :
    descriptorFault? cx id c = none ↔
      (c ∈ [.uniform, .storageBuffer, .uniformConstant] → isUsed cx id →
        cx.table.has id .descriptorSet ∧ cx.table.has id .binding) := by
  simp [descriptorFault?, descriptorKinds]

theorem blockFault?_eq_none :
    blockFault? cx id c struct = none ↔ cx.table.IsBlockFor struct c := by
  unfold blockFault? Table.IsBlockFor
  cases cx.table.has struct .block <;> cases cx.table.has struct .bufferBlock <;> cases c <;> simp

/-- Under Vulkan nothing is wrong with a variable when it is bound, if it has to be, and holds a
block, if it holds a struct. -/
theorem fault?_eq_none (hv : cx.isVulkan) :
    fault? cx id c pointee = none ↔
      (c ∈ [.uniform, .storageBuffer, .uniformConstant] → isUsed cx id →
        cx.table.has id .descriptorSet ∧ cx.table.has id .binding) ∧
        ∀ struct, cx.structBehind? pointee true = some struct → cx.table.IsBlockFor struct c := by
  rw [← descriptorFault?_eq_none]
  simp only [fault?, hv, if_true, Option.orElse_eq_orElse, Option.orElse_eq_or,
    Option.or_eq_none_iff, Option.bind_eq_none_iff, blockFault?_eq_none]

end Resource

theorem Shared.pushConstants_unique {cx : Context} {f a b : Id}
    (h : pushConstantFault? cx f = none) (ha : a ∈ pushConstants cx f)
    (hb : b ∈ pushConstants cx f) : a = b := by
  have hlength : (pushConstants cx f).length ≤ 1 := by simpa [pushConstantFault?] using h
  generalize pushConstants cx f = l at *
  match l with
  | [] => cases ha
  | [x] => rw [List.mem_singleton.1 ha, List.mem_singleton.1 hb]
  | x :: y :: l =>
    rw [List.length_cons, List.length_cons] at hlength
    omega

theorem Buffer.fault?_of_checkAll {cx : Context} {w w' : Walker}
    (h : run (checkAll cx) w = (.ok (), w')) {id : Id} {c : StorageClass} {pointee : Id}
    (hv : (id, c, pointee) ∈ cx.globalVariables) : Resource.fault? cx id c pointee = none := by
  obtain ⟨_, _, hvars, _⟩ := run_bind_eq_ok.1 h
  obtain ⟨_, _, hvar⟩ := run_forM_eq_ok hvars hv
  simp only [checkVariable_eq] at hvar
  cases hf : Resource.fault? cx id c pointee with
  | none => rfl
  | some f =>
    rw [hf] at hvar
    cases hvar

theorem Interface.pushConstantFault?_of_check {cx : Context} (hvulkan : cx.isVulkan)
    (h : check cx = .ok ()) {e : EntryPoint} (he : e ∈ cx.index.entryPoints) :
    Shared.pushConstantFault? cx e.function = none := by
  obtain ⟨_, _, hfault⟩ := checkEntryPoint_eq_ok.1 (forM_eq_ok.1 h e he)
  exact (fault?_eq_none.1 hfault).2.1 hvulkan

variable {m : Module} {ix : Index} {t : Table} {o : Options} {id : Id} {c : StorageClass}

theorem Index.variableClass?_eq_some (h : Index.ofModule m = .ok ix) (hv : m.HasVariable id c) :
    ix.variableClass? id = some c := by
  obtain ⟨i, hi, hop, hid, hc⟩ := hv
  have hdef : ix.inst? id = some i := inst?_eq_some h (by simp [Module.instructions, hi]) hid
  simp [variableClass?, hdef, hop, hc]

theorem Context.mem_globalVariables (h : Index.ofModule m = .ok ix) (hv : m.HasVariable id c)
    {c' : StorageClass} {pointee : Id} (hp : ix.pointer? id = some (c', pointee)) :
    (id, c, pointee) ∈ globalVariables ⟨ix, t, o⟩ := by
  have hclass := Index.variableClass?_eq_some h hv
  obtain ⟨i, hi, hop, hid, _⟩ := hv
  rw [← Index.module_eq h] at hi
  refine List.mem_filterMap.2 ⟨i, hi, Option.bind_eq_some_iff.2 ⟨(), if_pos hop, ?_⟩⟩
  refine Option.bind_eq_some_iff.2 ⟨id, hid, Option.bind_eq_some_iff.2 ⟨c, hclass, ?_⟩⟩
  exact Option.bind_eq_some_iff.2 ⟨(c', pointee), hp, rfl⟩

theorem Resource.isUsed_iff (h : Index.ofModule m = .ok ix) :
    isUsed ⟨ix, t, o⟩ id ↔ ∃ f ∈ m.entryFunctions, m.Uses f id := by
  simp only [isUsed, Bool.not_eq_true', List.isEmpty_eq_false_iff_exists_mem,
    Index.mem_staticUsers h]

theorem Shared.mem_pushConstants (h : Index.ofModule m = .ok ix)
    (hv : m.HasVariable id .pushConstant) {f : Id} (hf : f ∈ m.entryFunctions)
    (hu : m.Uses f id) : id ∈ pushConstants ⟨ix, t, o⟩ f := by
  have hclass := Index.variableClass?_eq_some h hv
  obtain ⟨i, hi, _, hid, _⟩ := hv
  rw [← Index.module_eq h] at hi
  refine List.mem_filter.2 ⟨List.mem_filterMap.2 ⟨i, hi, hid⟩, ?_⟩
  simpa [hclass] using (Index.mem_staticUsers h).2 ⟨hf, hu⟩

namespace Module

/-- What the rules for Vulkan make of the variables of a module: those its entry points use are
bound, those that hold structs hold blocks, and no entry point uses two push constants. -/
structure Provides (m : Module) (ix : Index) (t : Table) : Prop where
  bound : ∀ id c, m.HasVariable id c → (ix.pointer? id).isSome →
    c ∈ [.uniform, .storageBuffer, .uniformConstant] →
    (∃ f ∈ m.entryFunctions, m.Uses f id) → t.has id .descriptorSet ∧ t.has id .binding
  blocks : ∀ id c c' pointee, m.HasVariable id c → ix.pointer? id = some (c', pointee) →
    (ix.type? ((ix.element? pointee).getD pointee)).any TypeView.isStruct →
    t.IsBlockFor ((ix.element? pointee).getD pointee) c
  pushConstants : ∀ f ∈ m.entryFunctions, ∀ a b, m.HasVariable a .pushConstant →
    m.HasVariable b .pushConstant → m.Uses f a → m.Uses f b → a = b

/-- A module accepted for Vulkan has its resources in order, whether or not layouts are checked. -/
theorem provides_of_validate (hv : o.targetEnv.isVulkan) (h : m.validate o = .ok t) :
    ∃ ix, Index.ofModule m = .ok ix ∧ m.Provides ix t := by
  obtain ⟨_, ix, hix, _, haccepts⟩ := validate_eq_ok.1 h
  obtain ⟨w, hbuffers⟩ := haccepts.buffers
  have hvulkan : Context.isVulkan ⟨ix, t, o⟩ := hv
  refine ⟨ix, hix, ?_, ?_, ?_⟩
  · intro id c hvar hpointer hc hused
    obtain ⟨⟨c', pointee⟩, hp⟩ := Option.isSome_iff_exists.1 hpointer
    have hfault := Buffer.fault?_of_checkAll hbuffers (Context.mem_globalVariables hix hvar hp)
    exact ((Resource.fault?_eq_none hvulkan).1 hfault).1 hc ((Resource.isUsed_iff hix).2 hused)
  · intro id c c' pointee hvar hp hstruct
    have hfault := Buffer.fault?_of_checkAll hbuffers (Context.mem_globalVariables hix hvar hp)
    exact ((Resource.fault?_eq_none hvulkan).1 hfault).2 _ (if_pos hstruct)
  · intro f hf a b ha hb hua hub
    have hfunction := hf
    rw [← Index.map_function_entryPoints hix] at hfunction
    obtain ⟨e, he, rfl⟩ := List.mem_map.1 hfunction
    exact Shared.pushConstants_unique
      (Interface.pushConstantFault?_of_check hvulkan (mapError_eq_ok.1 haccepts.interfaces) he)
      (Shared.mem_pushConstants hix ha hf hua) (Shared.mem_pushConstants hix hb hf hub)

def boundResources : Module where
  entryPoints := [.entering 20]
  annotations := [.declaring .opDecorationGroup 8 [], .decorating 8 .descriptorSet [.literal 0],
    .decorating 8 .binding [.literal 0], ⟨.opGroupDecorate, none, none, [.id 8, .id 5]⟩,
    .decorating 3 .block [], .placing 3 0 0]
  globals := [.declaring .opTypeFloat 1 [.literal 32], .declaring .opTypeStruct 3 [.id 1]] ++
    Instruction.holding 4 5 3 ++ [.declaring .opTypePointer 6 [.storageClass .pushConstant, .id 3],
      ⟨.opVariable, some 6, some 7, [.storageClass .pushConstant]⟩]
  functions := [.ofBody 20 [.calling 22 21], .ofBody 21 [.storing 5 7]]

theorem provides_boundResources :
    ∃ t, boundResources.validate { targetEnv := .vulkan10 } = .ok t ∧
      boundResources.HasVariable 5 .storageBuffer ∧ boundResources.HasVariable 7 .pushConstant ∧
      boundResources.Uses 20 5 ∧ boundResources.Uses 20 7 ∧
      (t.has 5 .descriptorSet ∧ t.has 5 .binding) ∧ t.IsBlockFor 3 .storageBuffer ∧
      t.IsBlockFor 3 .pushConstant ∧ ∀ id, boundResources.HasVariable id .pushConstant →
        boundResources.Uses 20 id → id = 7 := by
  have hrun : bothPass (boundResources.validate { targetEnv := .vulkan10 })
      (Index.ofModule boundResources) (fun _ ix =>
        decide (ix.staticUsers 5 = [20] ∧ ix.staticUsers 7 = [20] ∧
          ix.pointer? 5 = some (.storageBuffer, 3) ∧ ix.pointer? 7 = some (.pushConstant, 3) ∧
          ix.element? 3 = none ∧ (ix.type? 3).any TypeView.isStruct)) = true := by
    decide +kernel
  obtain ⟨t, ix, ht, hix, hq⟩ := exists_of_bothPass hrun
  obtain ⟨husers, husers', hpointer, hpointer', helement, hstruct⟩ := of_decide_eq_true hq
  obtain ⟨ix', hix', hprovides⟩ := provides_of_validate rfl ht
  cases hix.symm.trans hix'
  have hbuffer : boundResources.HasVariable 5 .storageBuffer :=
    ⟨⟨.opVariable, some 4, some 5, [.storageClass .storageBuffer]⟩, by decide, rfl, rfl, rfl⟩
  have hpush : boundResources.HasVariable 7 .pushConstant :=
    ⟨⟨.opVariable, some 6, some 7, [.storageClass .pushConstant]⟩, by decide, rfl, rfl, rfl⟩
  have huses : ∀ id, ix.staticUsers id = [20] →
      20 ∈ boundResources.entryFunctions ∧ boundResources.Uses 20 id := by
    intro id hid
    rw [← Index.mem_staticUsers hix, hid]
    exact List.mem_singleton_self _
  obtain ⟨hentry, huse⟩ := huses 5 husers
  obtain ⟨_, huse'⟩ := huses 7 husers'
  have hblock := hprovides.blocks 5 _ _ _ hbuffer hpointer
  have hblock' := hprovides.blocks 7 _ _ _ hpush hpointer'
  rw [helement] at hblock hblock'
  refine ⟨t, ht, hbuffer, hpush, huse, huse', ?_, hblock hstruct, hblock' hstruct, ?_⟩
  · exact hprovides.bound 5 _ hbuffer (by rw [hpointer]; rfl) (by decide) ⟨20, hentry, huse⟩
  · exact fun id hid hu => hprovides.pushConstants 20 hentry id 7 hid hpush hu huse'

end Module

end SpirvRules
