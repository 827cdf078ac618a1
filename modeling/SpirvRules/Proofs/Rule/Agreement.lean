import SpirvRules.Proofs.Layout.Agreement
import SpirvRules.Proofs.Rule.Target

/-!
# Rules read answers only

On indexes and tables that agree the rules come out alike: whether a module is accepted does not
depend on where its definitions stand, nor on the order in which decorations were applied, and only
layout depends on the numbers in decorations.
-/

set_option autoImplicit false

namespace SpirvRules

open Outcome

/-- Contexts that differ in nothing that rules other than layout look at. -/
structure Context.Agrees (cx cx' : Context) : Prop where
  index : cx.index.Agrees cx'.index
  table : cx.table.Alike cx'.table
  options : cx.options = cx'.options

variable {cx cx' : Context} (h : cx.Agrees cx')

namespace Context.Agrees

include h

theorem isVulkan : cx.isVulkan = cx'.isVulkan := by
  rw [Context.isVulkan, h.options, ← Context.isVulkan]

theorem isOpenGL : cx.isOpenGL = cx'.isOpenGL := by
  rw [Context.isOpenGL, h.options, ← Context.isOpenGL]

theorem isVariable : cx.isVariable = cx'.isVariable := by
  funext id
  simp only [Context.isVariable, h.index.op?]

theorem isMemoryObject : cx.isMemoryObject = cx'.isMemoryObject := by
  funext id
  simp only [Context.isMemoryObject, h.isVariable, h.index.op?]

theorem structBehind? : cx.structBehind? = cx'.structBehind? := by
  funext type arrayed
  simp only [Context.structBehind?, h.index.element?, h.index.type?]

theorem globalVariables : cx.globalVariables = cx'.globalVariables := by
  unfold Context.globalVariables
  rw [h.index.variableClass?, h.index.pointer?]
  apply h.index.readGlobals
  intro i
  rw [Instruction.op_unnumbered, Instruction.result_unnumbered]

end Context.Agrees

namespace Rounding

theorem isNonSemantic_of_read {i j : Instruction} (h : i.read = j.read) :
    isNonSemantic i = isNonSemantic j := by
  rw [isNonSemantic, (Instruction.read_eq_iff.1 h).2.2.1, ← isNonSemantic]

theorem useFault?_of_read {ix : Index} {u w : Use} (h : u.read = w.read) :
    useFault? ix u = useFault? ix w := by
  simp only [Use.read, Prod.mk.injEq, decide_eq_decide] at h
  obtain ⟨hop, hid, hplace⟩ := h
  have hdebug : isDebug ix u.inst = isDebug ix w.inst := by
    rw [isDebug, hop, hid, ← isDebug]
  have hstore : storeFault? ix u.inst = storeFault? ix w.inst := by
    rw [storeFault?, hid, ← storeFault?]
  simp only [useFault?, hop, hdebug, hstore, ne_eq, hplace]

include h

theorem useFault?_agrees : useFault? cx.index = useFault? cx'.index := by
  have hdebug : isDebug cx.index = isDebug cx'.index := by
    funext i
    unfold isDebug
    cases i.idAt? 0 with
    | none => rfl
    | some set =>
      simp only [Option.bind_some, h.index.any_inst? fun _ _ => isNonSemantic_of_read]
  have hstore : storeFault? cx.index = storeFault? cx'.index := by
    funext i
    simp only [storeFault?, h.index.pointer?, h.index.numericShape?]
  funext u
  rw [useFault?, hdebug, hstore, ← useFault?]

theorem fault?_congr (huses : cx.index.usesOfId = cx'.index.usesOfId) :
    fault? cx = fault? cx' := by
  funext id d
  rw [fault?, h.index.declares, h.index.op?, h.isVulkan, useFault?_agrees h, huses, ← fault?]

/-- Which use is named as wrong may differ, but not whether one is. -/
theorem fault?_agrees (id : Id) (d : Decoration) :
    fault? cx id d = none ↔ fault? cx' id d = none := by
  unfold fault?
  rw [h.index.declares, h.index.op?, h.isVulkan, useFault?_agrees h]
  split
  · rfl
  split
  · rfl
  split
  · rfl
  have hread : ∀ us : List Use, us.findSome? (useFault? cx'.index) = none ↔
      ∀ r ∈ us.map Use.read, ∀ u : Use, u.read = r → useFault? cx'.index u = none := by
    intro us
    rw [List.findSome?_eq_none_iff, List.forall_mem_map]
    apply forall_congr'
    intro u
    apply imp_congr_right
    intro _
    exact ⟨fun hu w hw => (useFault?_of_read hw).trans hu, fun hall => hall u rfl⟩
  rw [hread, hread]
  simp only [h.index.uses]

end Rounding

namespace Uniformity

include h

theorem fault?_agrees : fault? cx = fault? cx' := by
  have hobject : objectFault? cx = objectFault? cx' := by
    funext id kind
    rw [objectFault?, h.index.typeOf?, h.index.type?, ← objectFault?]
  have hscope : scopeFault? cx = scopeFault? cx' := by
    funext scope
    rw [scopeFault?, h.index.typeOf?, h.index.type?, h.index.constant?, h.isVulkan, ← scopeFault?]
  funext id d
  rw [fault?, hobject, hscope, h.index.version, ← fault?]

end Uniformity

namespace Target

include h

theorem instructionFault?_agrees : instructionFault? cx = instructionFault? cx' := by
  have hmemory : memoryFault? cx = memoryFault? cx' := by
    funext id d
    rw [memoryFault?, h.isMemoryObject, h.index.pointer?, ← memoryFault?]
  have hbuiltIn : builtInFault? cx = builtInFault? cx' := by
    funext d op
    rw [builtInFault?, h.index.declares, ← builtInFault?]
  funext id d op
  rw [instructionFault?, hmemory, hbuiltIn, h.isVariable, ← instructionFault?]

theorem storageFault?_agrees : storageFault? cx = storageFault? cx' := by
  funext id d
  rw [storageFault?, h.index.variableClass?, h.isVulkan, ← storageFault?]

theorem blockFault?_agrees : blockFault? cx = blockFault? cx' := by
  funext id d
  rw [blockFault?, h.index.type?, h.index.version, ← blockFault?]

theorem componentFault?_agrees : componentFault? cx = componentFault? cx' := by
  funext d type
  rw [componentFault?, h.isVulkan, h.index.numericShape?, h.index.stripArrays, ← componentFault?]

theorem accessFault?_agrees : accessFault? cx = accessFault? cx' := by
  have huniform : cx.pointsToUniformBlock = cx'.pointsToUniformBlock := by
    funext c p
    rw [Context.pointsToUniformBlock, h.table.has, h.index.stripArrays,
      ← Context.pointsToUniformBlock]
  have hbuffer : cx.pointsToStorageBuffer = cx'.pointsToStorageBuffer := by
    funext c p
    simp only [Context.pointsToStorageBuffer, h.table.has, h.index.stripArrays]
  have himage : cx.pointsToStorageImage = cx'.pointsToStorageImage := by
    funext c p
    simp only [Context.pointsToStorageImage, h.index.type?, h.index.stripArrays]
  funext id d
  rw [accessFault?, h.index.pointer?, h.index.version, huniform, hbuffer, himage, ← accessFault?]

theorem wrapFault?_agrees : wrapFault? cx = wrapFault? cx' := by
  funext d op
  rw [wrapFault?, h.index.version, h.index.hasExtension, ← wrapFault?]

theorem linkageFault?_agrees : linkageFault? cx = linkageFault? cx' := by
  have hentry : ∀ (es : List EntryPoint) (id : Id),
      es.any (·.function = id) = (es.map EntryPoint.function).any (· = id) := by
    intro es id
    rw [List.any_map]
    rfl
  funext id d op
  simp only [linkageFault?, hentry, h.index.entryFunctions]

theorem memberFault?_agrees : memberFault? cx = memberFault? cx' := by
  funext id d member
  rw [memberFault?, h.index.type?, componentFault?_agrees h, ← memberFault?]

theorem vulkanFault?_agrees : vulkanFault? cx = vulkanFault? cx' := by
  funext d
  rw [vulkanFault?, h.isVulkan, ← vulkanFault?]

theorem kindFault?_of_ne {d : Decoration} (hd : d.kind ≠ .fpRoundingMode) (id : Id) :
    kindFault? cx id d = kindFault? cx' id d := by
  funext op
  unfold kindFault?
  rw [blockFault?_agrees h, componentFault?_agrees h, accessFault?_agrees h, wrapFault?_agrees h,
    linkageFault?_agrees h, Uniformity.fault?_agrees h, h.index.pointer?]
  split <;> first
    | rfl
    | exact absurd ‹_› hd

omit h in
theorem kindFault?_rounding {d : Decoration} (hd : d.kind = .fpRoundingMode) (id : Id)
    (op : Opcode) : kindFault? cx id d op = (Rounding.fault? cx id d).map .rounding := by
  simp only [kindFault?, hd]

theorem kindFault?_agrees (id : Id) (d : Decoration) (op : Opcode) :
    kindFault? cx id d op = none ↔ kindFault? cx' id d op = none := by
  by_cases hd : d.kind = .fpRoundingMode
  · rw [kindFault?_rounding hd, kindFault?_rounding hd, Option.map_eq_none_iff,
      Option.map_eq_none_iff]
    exact Rounding.fault?_agrees h id d
  · rw [kindFault?_of_ne h hd]

theorem fault?_agrees (id : Id) (d : Decoration) :
    fault? cx id d = none ↔ fault? cx' id d = none := by
  unfold fault?
  rw [h.index.op?, memberFault?_agrees h]
  split
  · rfl
  · rfl
  · rfl
  · simp only [objectFault?_eq_none, vulkanFault?_agrees h, instructionFault?_agrees h,
      storageFault?_agrees h, kindFault?_agrees h]

theorem fault?_congr (huses : cx.index.usesOfId = cx'.index.usesOfId) :
    fault? cx = fault? cx' := by
  funext id d
  have hkind : kindFault? cx id d = kindFault? cx' id d := by
    by_cases hd : d.kind = .fpRoundingMode
    · funext op
      rw [kindFault?_rounding hd, kindFault?_rounding hd, Rounding.fault?_congr h huses]
    · exact kindFault?_of_ne h hd id
  have hobject : objectFault? cx id d = objectFault? cx' id d := by
    funext op
    rw [objectFault?, vulkanFault?_agrees h, instructionFault?_agrees h, storageFault?_agrees h,
      hkind, ← objectFault?]
  rw [fault?, h.index.op?, memberFault?_agrees h, hobject, ← fault?]

theorem check_congr (huses : cx.index.usesOfId = cx'.index.usesOfId)
    (htable : cx.table = cx'.table) : check cx = check cx' := by
  rw [check, fault?_congr h huses, htable, ← check]

omit h in
theorem fault?_bare (id : Id) (d : Decoration) : fault? cx id d.bare = fault? cx id d := by
  obtain ⟨kind, params, member⟩ := d
  cases kind <;> rfl

theorem check_agrees : check cx = .ok () ↔ check cx' = .ok () := by
  have hfaults : ∀ id, (∀ d ∈ cx.table.decorations id, fault? cx' id d = none) ↔
      ∀ d ∈ cx'.table.decorations id, fault? cx' id d = none := by
    intro id
    apply forall_mem_of_alike (h.table.each id)
    intro d
    rw [fault?_bare]
  simp only [check_eq_ok, h.table.targets, fault?_agrees h, hfaults]

end Target

theorem BuiltInStruct.check_agrees (h : cx.Agrees cx') :
    check cx.index cx.table = check cx'.index cx'.table := by
  have hcount : memberCount? cx.index = memberCount? cx'.index := by
    funext id
    simp only [memberCount?, h.index.type?]
  have hmembers : builtInMembers cx.table = builtInMembers cx'.table := by
    funext id n
    rw [builtInMembers, h.table.memberHas, ← builtInMembers]
  have hmixed : isMixed cx.index cx.table = isMixed cx'.index cx'.table := by
    funext id
    rw [isMixed, hcount, hmembers, ← isMixed]
  have hhas : hasBuiltIns cx.index cx.table = hasBuiltIns cx'.index cx'.table := by
    funext id
    rw [hasBuiltIns, hcount, hmembers, ← hasBuiltIns]
  have hnested : nestedIn? cx.index cx.table = nestedIn? cx'.index cx'.table := by
    funext id
    simp only [nestedIn?, hhas, h.index.type?, h.index.stripArrays]
  have hstructs : structs cx.index = structs cx'.index := by
    apply h.index.readGlobals
    intro i
    rw [Instruction.op_unnumbered, Instruction.result_unnumbered]
  rw [check, hmixed, hnested, h.table.targets, hstructs, ← check]

namespace Buffer

theorem checkHeld_skip (hskip : cx.options.skipBlockLayout = true) (b : Held) :
    checkHeld cx b = pure () := by
  have hpolicy : policy? cx b = none := if_pos hskip
  rw [checkHeld, hpolicy]
  rfl

theorem checkNesting_skip (hskip : cx.options.skipBlockLayout = true) : checkNesting cx = .ok () :=
  if_pos hskip

include h

theorem resourceFault?_agrees : Resource.fault? cx = Resource.fault? cx' := by
  have hused : Resource.isUsed cx = Resource.isUsed cx' := by
    funext id
    rw [Resource.isUsed, h.index.staticUsers, ← Resource.isUsed]
  have hdescriptor : Resource.descriptorFault? cx = Resource.descriptorFault? cx' := by
    funext id c
    rw [Resource.descriptorFault?, hused, h.table.has, ← Resource.descriptorFault?]
  have hblock : Resource.blockFault? cx = Resource.blockFault? cx' := by
    funext id c s
    unfold Resource.blockFault?
    rw [h.table.has]
  have hbinding : Resource.bindingFault? cx = Resource.bindingFault? cx' := by
    funext id c s
    rw [Resource.bindingFault?, hused, h.table.has, ← Resource.bindingFault?]
  funext id c p
  rw [Resource.fault?, h.structBehind?, h.isVulkan, h.isOpenGL, hdescriptor, hblock, hbinding,
    ← Resource.fault?]

/-- Where blocks are laid out, the numbers count too. -/
theorem check_agrees (hlayout : cx.options.skipBlockLayout = true ∨ cx.table.Agrees cx'.table) :
    check cx = check cx' := by
  have hskip' : cx.options.skipBlockLayout = true → cx'.options.skipBlockLayout = true := by
    rw [h.options]
    exact fun hskip => hskip
  have hnesting : checkNesting cx = checkNesting cx' := by
    rcases hlayout with hskip | htable
    · rw [checkNesting_skip hskip, checkNesting_skip (hskip' hskip)]
    · rw [checkNesting, blocks, h.options, h.table.targets, h.table.blockKind?,
        Nesting.check_congr h.index htable, ← blocks, ← checkNesting]
  have hheld : checkHeld cx = checkHeld cx' := by
    funext b
    rcases hlayout with hskip | htable
    · rw [checkHeld_skip hskip, checkHeld_skip (hskip' hskip)]
    · rw [checkHeld, policy?, Walk.block_congr h.index htable, h.options, h.table.has, ← policy?,
        ← checkHeld]
  have hheld? : held? cx = held? cx' := by
    funext c p
    unfold held?
    rw [h.index.declares, h.structBehind?, h.index.version]
  have hpointed : pointed? cx = pointed? cx' := by
    funext i
    rw [pointed?, h.index.type?, h.structBehind?, ← pointed?]
  have hphysical : cx.index.module.globals.filterMap (pointed? cx') =
      cx'.index.module.globals.filterMap (pointed? cx') := by
    apply h.index.readGlobals
    intro i
    rw [pointed?, Instruction.op_unnumbered, Instruction.result_unnumbered, ← pointed?]
  have hvariable : checkVariable cx = checkVariable cx' := by
    funext id c p
    rw [checkVariable, resourceFault?_agrees h, hheld, hheld?, ← checkVariable]
  have hall : checkAll cx = checkAll cx' := by
    rw [checkAll, hheld, hpointed, hvariable, h.globalVariables, hphysical, ← checkAll]
  rw [check, hnesting, hall, ← check]

end Buffer

namespace Interface

include h

theorem struct?_agrees : InterfaceVar.struct? cx = InterfaceVar.struct? cx' := by
  funext v
  rw [InterfaceVar.struct?, h.index.type?, h.index.stripArrays, ← InterfaceVar.struct?]

theorem builtIns_agrees : BuiltIns.fault? cx = BuiltIns.fault? cx' := by
  have hstruct : BuiltIns.builtInStruct? cx = BuiltIns.builtInStruct? cx' := by
    funext v
    rw [BuiltIns.builtInStruct?, struct?_agrees h, h.table.anyMemberHas, ← BuiltIns.builtInStruct?]
  have hblocks : BuiltIns.blocksFault? cx = BuiltIns.blocksFault? cx' := by
    funext f seen vs
    induction vs generalizing seen with
    | nil => rfl
    | cons v vs ih => simp only [BuiltIns.blocksFault?, hstruct, h.table.has, ih]
  have hprovided : BuiltIns.provided cx = BuiltIns.provided cx' := by
    have hread : ∀ id (p : Decoration → Bool), (∀ d, p d.bare = p d) →
        (((cx.table.decorations id).filter p).filter (·.kind = .builtIn)).filterMap
            Decoration.builtIn? =
          (((cx'.table.decorations id).filter p).filter (·.kind = .builtIn)).filterMap
            Decoration.builtIn? := by
      intro id p hp
      simp only [List.filter_filter, List.filterMap_filter]
      apply filterMap_eq_of_alike (h.table.each id)
      intro d
      rw [Decoration.kind_bare, hp]
      by_cases hk : d.kind = .builtIn
      · rw [Decoration.builtIn?_bare d hk]
      · simp [hk]
    funext v
    simp only [BuiltIns.provided, struct?_agrees h, Table.objectDecorations, List.filter_append,
      List.filterMap_append, hread v.id (·.member.isNone) fun d => by rw [Decoration.member_bare]]
    cases InterfaceVar.struct? cx' v with
    | none => rfl
    | some s => rw [hread s (·.member.isSome) fun d => by rw [Decoration.member_bare]]
  have hrepeat : BuiltIns.repeatFault? cx = BuiltIns.repeatFault? cx' := by
    funext vs d
    simp only [BuiltIns.repeatFault?, BuiltIns.providedIn, hprovided]
  funext vs f
  rw [BuiltIns.fault?, hblocks, hrepeat, ← BuiltIns.fault?]

theorem pushConstantFault?_agrees :
    Shared.pushConstantFault? cx = Shared.pushConstantFault? cx' := by
  have hpush : Shared.pushConstants cx = Shared.pushConstants cx' := by
    have hresults := h.index.readGlobals Instruction.result_unnumbered
    funext f
    rw [Shared.pushConstants, hresults, h.index.variableClass?, h.index.users,
      ← Shared.pushConstants]
  funext f
  rw [Shared.pushConstantFault?, hpush, ← Shared.pushConstantFault?]

theorem workgroupFault?_agrees : Shared.workgroupFault? cx = Shared.workgroupFault? cx' := by
  have hblocks : Shared.workgroupBlocks cx = Shared.workgroupBlocks cx' := by
    funext vs
    rw [Shared.workgroupBlocks, struct?_agrees h, h.table.has, ← Shared.workgroupBlocks]
  funext vs f
  rw [Shared.workgroupFault?, hblocks, h.index.declares, h.table.has, ← Shared.workgroupFault?]

theorem interpolation_agrees : Interpolation.fault? cx = Interpolation.fault? cx' := by
  have hdiscrete : Interpolation.isDiscrete cx = Interpolation.isDiscrete cx' := by
    funext id
    rw [Interpolation.isDiscrete, h.index.numericShape?, h.index.stripArrays,
      ← Interpolation.isDiscrete]
  have hmember : Interpolation.memberNotFlat cx = Interpolation.memberNotFlat cx' := by
    funext id
    rw [Interpolation.memberNotFlat, hdiscrete, h.index.type?, h.table.memberHas,
      ← Interpolation.memberNotFlat]
  have hneeds : Interpolation.needsFlat cx = Interpolation.needsFlat cx' := by
    funext v
    rw [Interpolation.needsFlat, hmember, hdiscrete, struct?_agrees h, h.table.has,
      h.table.anyMemberHas, ← Interpolation.needsFlat]
  funext e v
  have houter : Interpolation.outerFault? cx e v = Interpolation.outerFault? cx' e v := by
    have hfind := h.table.find? (p := fun d => d.kind ∈ Interpolation.kinds)
      (fun d => by rw [Decoration.kind_bare]) v.id
    have hkind := congrArg (Option.map Decoration.kind) hfind
    simp only [Option.map_map, Function.comp_def, Decoration.kind_bare] at hkind
    have hread : ∀ o : Option Decoration, ∀ side,
        (o.bind fun d => some (InterfaceFault.interpolated v.id e.function d.kind side)) =
          (o.map Decoration.kind).map fun k => .interpolated v.id e.function k side := by
      intro o side
      cases o <;> rfl
    simp only [Interpolation.outerFault?, Option.bind_eq_bind, Option.pure_def, hread, hkind]
  rw [Interpolation.fault?, houter, Interpolation.flatFault?, hneeds, h.index.staticUsers,
    ← Interpolation.flatFault?, ← Interpolation.fault?]

theorem perVertexFault?_agrees :
    Interpolation.perVertexFault? cx = Interpolation.perVertexFault? cx' := by
  funext e v
  rw [Interpolation.perVertexFault?, h.table.has, h.index.type?, ← Interpolation.perVertexFault?]

theorem listsGlobals_agrees : Listing.listsGlobals cx = Listing.listsGlobals cx' := by
  rw [Listing.listsGlobals, h.index.version, ← Listing.listsGlobals]

theorem listed_agrees : Listing.listed cx = Listing.listed cx' := by
  have hstated : ∀ l l' : Located, l.inst.op = l'.inst.op →
      Listing.stated cx l = Listing.stated cx' l' := by
    intro l l' hl
    funext id
    rw [Listing.stated, hl, h.index.variableClass?, h.index.pointer?, ← Listing.stated]
  have hlisting : Listing.listingFault? cx = Listing.listingFault? cx' := by
    funext e f v
    rw [Listing.listingFault?, listsGlobals_agrees h, ← Listing.listingFault?]
  funext e id
  have hfunction := h.index.function id
  unfold Listing.listed
  rcases none_or_some_of_map_eq (h.index.op_def? id) with ⟨hl, hl'⟩ | ⟨l, l', hl, hl', hop⟩
  · rw [hl, hl']
  · rw [hl, hl', Option.map_some, Option.map_some, Option.some.injEq] at hfunction
    rw [hl, hl']
    simp only [hstated l l' hop, hlisting, hfunction]

theorem fault?_agrees : fault? cx = fault? cx' := by
  have hvulkan : vulkanOnly cx = vulkanOnly cx' := by
    funext f
    rw [vulkanOnly, h.isVulkan, ← vulkanOnly]
  funext e vs
  rw [fault?, builtIns_agrees h, hvulkan, pushConstantFault?_agrees h, workgroupFault?_agrees h,
    interpolation_agrees h, perVertexFault?_agrees h, ← fault?]

theorem checkEntryPoint_agrees (hname : ∀ id, cx.index.name? id = cx'.index.name? id) :
    checkEntryPoint cx = checkEntryPoint cx' := by
  have hunique : Listing.checkUnique cx = Listing.checkUnique cx' := by
    funext e
    rw [Listing.checkUnique, listsGlobals_agrees h, funext hname, ← Listing.checkUnique]
  have hvars : Listing.listedVars cx = Listing.listedVars cx' := by
    funext e
    rw [Listing.listedVars, hunique, listed_agrees h, ← Listing.listedVars]
  funext e
  rw [checkEntryPoint, hvars, fault?_agrees h, ← checkEntryPoint]

theorem check_agrees (hname : ∀ id, cx.index.name? id = cx'.index.name? id)
    (hentries : cx.index.entryPoints = cx'.index.entryPoints) : check cx = check cx' := by
  rw [check, checkEntryPoint_agrees h hname, hentries, ← check]

end Interface

theorem Repetition.check_eq_ok {t : Table} :
    check t = .ok () ↔ ∀ id ∈ t.targets, fault? t id = none := by
  simp only [check, forM_eq_ok]
  apply forall_congr'
  intro id
  apply imp_congr_right
  intro _
  cases fault? t id <;> simp

theorem Repetition.together?_eq_none {ds : List Decoration} {first second : DecorationKind} :
    together? ds first second = none ↔ ∀ d ∈ ds, d.kind = first →
      ∀ e ∈ ds, ¬(e.kind = second ∧ e.member = d.member) := by
  simp [together?]

/-- Which repetition is named may differ with the order of applications, but not whether one is. -/
theorem Repetition.check_agrees {t t' : Table} (ht : t.Alike t')
    (hperm : ∀ id,
      ((t.applied id).map Decoration.bare).Perm ((t'.applied id).map Decoration.bare)) :
    check t = .ok () ↔ check t' = .ok () := by
  have htogether : ∀ id first second, together? (t.decorations id) first second = none ↔
      together? (t'.decorations id) first second = none := by
    intro id first second
    rw [together?_eq_none, together?_eq_none]
    have hinner : ∀ d : Decoration,
        (∀ e ∈ t.decorations id, ¬(e.kind = second ∧ e.member = d.member)) ↔
          ∀ e ∈ t'.decorations id, ¬(e.kind = second ∧ e.member = d.member) := by
      intro d
      apply forall_mem_of_alike (ht.each id)
      intro e
      rw [Decoration.kind_bare, Decoration.member_bare]
    simp only [hinner]
    apply forall_mem_of_alike (ht.each id)
    intro d
    rw [Decoration.kind_bare, Decoration.member_bare]
  have hfault : ∀ id, fault? t id = none ↔ fault? t' id = none := by
    intro id
    simp only [fault?, Option.orElse_eq_orElse, Option.orElse_eq_or, Option.or_eq_none_iff,
      Option.map_eq_none_iff, repeated?_perm (hperm id), List.findSome?_eq_none_iff, htogether]
  simp only [check_eq_ok, hfault, ht.targets]

namespace Context

structure Passes (cx : Context) : Prop where
  targets : cx.checkTargets = .ok ()
  repetition : cx.checkRepetition = .ok ()
  builtInStructs : cx.checkBuiltInStructs = .ok ()
  buffers : cx.checkBuffers = .ok ()

theorem Passes.check_eq (h : cx.Passes) : cx.check = cx.checkInterfaces := by
  rw [check, h.targets, h.repetition, h.builtInStructs, h.buffers]
  rfl

theorem accepts_iff : cx.Accepts ↔ cx.Passes ∧ cx.checkInterfaces = .ok () := by
  rw [← check_eq_ok]
  constructor
  · intro h
    simp only [check, bind_eq_ok] at h
    obtain ⟨_, htargets, _, hrepetition, _, hstructs, _, hbuffers, hinterfaces⟩ := h
    exact ⟨⟨htargets, hrepetition, hstructs, hbuffers⟩, hinterfaces⟩
  · rintro ⟨hpasses, hinterfaces⟩
    rw [hpasses.check_eq, hinterfaces]

variable (h : cx.Agrees cx')
variable (happlied : ∀ id, ((cx.table.applied id).map Decoration.bare).Perm
  ((cx'.table.applied id).map Decoration.bare))
variable (hlayout : cx.options.skipBlockLayout = true ∨ cx.table.Agrees cx'.table)

include h happlied hlayout

theorem passes_agrees : cx.Passes ↔ cx'.Passes := by
  have hparts : ∀ cx : Context, cx.Passes ↔ Target.check cx = .ok () ∧
      Repetition.check cx.table = .ok () ∧ BuiltInStruct.check cx.index cx.table = .ok () ∧
      Buffer.check cx = .ok () := by
    intro cx
    simp only [← mapError_eq_ok (f := Cause.target), ← mapError_eq_ok (f := Cause.repetition),
      ← mapError_eq_ok (f := Cause.builtInStruct), ← mapError_eq_ok (f := Cause.buffer)]
    exact ⟨fun h => ⟨h.targets, h.repetition, h.builtInStructs, h.buffers⟩,
      fun ⟨htargets, hrepetition, hstructs, hbuffers⟩ =>
        ⟨htargets, hrepetition, hstructs, hbuffers⟩⟩
  rw [hparts, hparts, Target.check_agrees h, Repetition.check_agrees h.table happlied,
    BuiltInStruct.check_agrees h, Buffer.check_agrees h hlayout]

/-- Contexts that agree are accepted together if their interfaces are. -/
theorem accepts_agrees (hinterfaces : Interface.check cx = Interface.check cx') :
    cx.Accepts ↔ cx'.Accepts := by
  rw [accepts_iff, accepts_iff, passes_agrees h happlied hlayout, checkInterfaces, hinterfaces,
    ← checkInterfaces]

end Context

end SpirvRules
