import SpirvRules.Proofs.Index.Arrays
import SpirvRules.Proofs.Index.StaticUse
import SpirvRules.Proofs.Rule.Target

/-!
# Where rounded values go

Outside kernels, a valid module uses the result of a rounded conversion for further conversions, for
debugging, and as what it stores through pointers to 16-bit floats in shared memory; nothing that
stands in a function uses it otherwise. What stands in a function is told by its `OpFunction`, and
what is for debugging by the name that the set of an instruction is defined under.
-/

set_option autoImplicit false

namespace SpirvRules.Rounding

open Outcome

/-- Line information, or an instruction of a set that is defined under a name without meaning. -/
inductive Debugs (ix : Index) (i : Instruction) : Prop
  | line : i.op = .opLine → Debugs ix i
  | noLine : i.op = .opNoLine → Debugs ix i
  | extended {set : Id} {definition : Instruction} {name : String} :
      i.op = .opExtInst → i.idAt? 0 = some set → ix.inst? set = some definition →
      definition.operand? 0 = some (.text name) → "NonSemantic.".toList <+: name.toList →
      Debugs ix i

structure StoresHalf (ix : Index) (i : Instruction) : Prop where
  op : i.op = .opStore
  pointer : ∃ p c pointee s, i.idAt? 0 = some p ∧ ix.pointer? p = some (c, pointee) ∧
    ix.IsNumeric pointee s ∧ s.floating = true ∧ s.width = 16 ∧
    c ∈ [.storageBuffer, .physicalStorageBuffer, .uniform, .pushConstant, .input, .output]

/-- The ways in which an operand of an instruction may be a rounded value. -/
inductive Takes (ix : Index) (i : Instruction) (operand : Nat) : Prop
  | convert : i.op = .opFConvert → Takes ix i operand
  | debug : Debugs ix i → Takes ix i operand
  | store : StoresHalf ix i → operand = 1 → Takes ix i operand

variable {ix : Index} {i : Instruction} {u : Use}

theorem isNonSemantic_iff : isNonSemantic i = true ↔
    ∃ name, i.operand? 0 = some (.text name) ∧ "NonSemantic.".toList <+: name.toList := by
  unfold isNonSemantic
  split
  · next name hname => simp [hname, nonSemantic]
  · next hnone =>
    simp only [Bool.false_eq_true, false_iff]
    rintro ⟨name, hname, _⟩
    exact hnone name hname

theorem isDebug_iff : isDebug ix i = true ↔ Debugs ix i := by
  unfold isDebug
  split
  · next hop => simp [Debugs.line hop]
  · next hop => simp [Debugs.noLine hop]
  · next hop =>
    simp only [Option.any_eq_true, Option.bind_eq_some_iff, isNonSemantic_iff]
    constructor
    · rintro ⟨definition, ⟨set, hset, hdefinition⟩, name, hname, hstart⟩
      exact .extended hop hset hdefinition hname hstart
    · rintro (h | h | ⟨_, hset, hdefinition, hname, hstart⟩)
      · cases hop.symm.trans h
      · cases hop.symm.trans h
      · exact ⟨_, ⟨_, hset, hdefinition⟩, _, hname, hstart⟩
  · next hline hnoLine hext =>
    simp only [Bool.false_eq_true, false_iff]
    rintro (h | h | ⟨h, _⟩)
    · exact hline h
    · exact hnoLine h
    · exact hext h

theorem any_isHalf_iff {type : Id} : (ix.numericShape? type).any isHalf = true ↔
    ∃ s, ix.IsNumeric type s ∧ s.floating = true ∧ s.width = 16 := by
  simp only [Option.any_eq_true, Index.numericShape?_eq_some, isHalf, Bool.and_eq_true,
    decide_eq_true_eq]

theorem storeFault?_eq_none (hop : i.op = .opStore) :
    storeFault? ix i = none ↔ StoresHalf ix i := by
  unfold storeFault?
  split
  · next hnone =>
    simp only [reduceCtorEq, false_iff]
    rintro ⟨_, p, c, pointee, s, hp, hpointer, _⟩
    rw [hp, Option.bind_some, hpointer] at hnone
    cases hnone
  · next c pointee hsome =>
    obtain ⟨p, hp, hpointer⟩ := Option.bind_eq_some_iff.1 hsome
    constructor
    · intro h
      split_ifs at h with hhalf hc
      simp only [Bool.not_eq_true', Bool.not_eq_false, any_isHalf_iff] at hhalf
      obtain ⟨s, hs, hfloating, hwidth⟩ := hhalf
      exact ⟨hop, p, c, pointee, s, hp, hpointer, hs, hfloating, hwidth, hc⟩
    · rintro ⟨_, p', c', pointee', s, hp', hpointer', hs, hfloating, hwidth, hc⟩
      cases hp.symm.trans hp'
      cases hpointer.symm.trans hpointer'
      have hhalf := any_isHalf_iff.2 ⟨s, hs, hfloating, hwidth⟩
      have hstorage : c ∈ storage := hc
      rw [hhalf, if_neg (by decide), if_neg (Classical.not_not.2 hstorage)]

theorem useFault?_eq_none : useFault? ix u = none ↔ Takes ix u.inst u.operand := by
  unfold useFault?
  split_ifs with htaken hother
  · simp only [true_iff]
    rcases htaken with hop | hdebug
    · exact .convert hop
    · exact .debug (isDebug_iff.1 hdebug)
  · simp only [false_iff]
    rintro (hop | hdebug | ⟨hstores, hoperand⟩)
    · exact htaken (.inl hop)
    · exact htaken (.inr (isDebug_iff.2 hdebug))
    · exact hother.elim (absurd hstores.op) (absurd hoperand)
  · simp only [not_or, ne_eq, Classical.not_not] at htaken hother
    rw [storeFault?_eq_none hother.1]
    constructor
    · exact fun hstores => .store hstores hother.2
    · rintro (hop | hdebug | ⟨hstores, _⟩)
      · exact absurd hop htaken.1
      · exact absurd (isDebug_iff.2 hdebug) htaken.2
      · exact hstores

variable {cx : Context} {x : Id} {d : Decoration}

theorem modeAllowed_iff {mode : Option RoundingMode} :
    modeAllowed mode = true ↔ mode = some .rte ∨ mode = some .rtz := by
  rcases mode with _ | mode
  · simp [modeAllowed]
  · cases mode <;> simp [modeAllowed]

/-- Outside kernels a rounding mode passes on a conversion all uses of which are as they may be. -/
theorem fault?_eq_none (hkernel : cx.index.module.declares .kernel = false) :
    fault? cx x d = none ↔ cx.index.op? x = some .opFConvert ∧
      (cx.isVulkan = true → d.roundingMode? = some .rte ∨ d.roundingMode? = some .rtz) ∧
        ∀ u ∈ cx.index.usesOfId x, Takes cx.index u.inst u.operand := by
  simp only [← modeAllowed_iff, ← useFault?_eq_none, ← List.findSome?_eq_none_iff]
  unfold fault?
  rw [hkernel]
  split_ifs <;> simp_all

/-- In a valid module that is no kernel, what carries a rounding mode is a conversion, and every
operand that names it, of all that stands in functions, is one that may be a rounded value. -/
theorem takes_of_validate {m : Module} {o : Options} {t : Table}
    (hkernel : m.declares .kernel = false) (hv : m.validate o = .ok t) :
    ∃ ix, Index.ofModule m = .ok ix ∧ ∀ x, ix.op? x ≠ some .opDecorationGroup →
      ∀ d ∈ t.decorations x, d.kind = .fpRoundingMode → d.member = none →
        ix.op? x = some .opFConvert ∧
        (∀ f i n, Module.Stands m.instructions f i → i.idAt? n = some x → Takes ix i n) ∧
        (o.targetEnv.isVulkan = true →
          d.roundingMode? = some .rte ∨ d.roundingMode? = some .rtz) := by
  obtain ⟨ix, hix, _, hfaultless⟩ := Module.faultless_of_validate hv
  refine ⟨ix, hix, fun x hgroup d hd hkind hwhole => ?_⟩
  obtain ⟨op, hop, hobject, _⟩ := hfaultless x hgroup d hd
  obtain ⟨_, _, _, hrounding⟩ := Target.objectFault?_eq_none.1 (hobject hwhole)
  simp only [Target.kindFault?, hkind, Option.map_eq_none_iff] at hrounding
  rw [← Index.module_eq hix] at hkernel
  obtain ⟨hconvert, hmode, htakes⟩ := (@fault?_eq_none ⟨ix, t, o⟩ x d hkernel).1 hrounding
  refine ⟨hconvert, fun f i n hstands hn => ?_, hmode⟩
  exact htakes ⟨i, n⟩ ((Index.use_mem_usesOfId hix).2 ⟨f, hstands, hn⟩)

def storedModule : Module where
  extInstImports := [.declaring .opExtInstImport 1 [.text "NonSemantic.DebugPrintf"]]
  annotations := [.decorating 8 .fpRoundingMode [.roundingMode .rtz]]
  globals := [.declaring .opTypeFloat 2 [.literal 16], .declaring .opTypeFloat 3 [.literal 32],
    ⟨.opConstant, some 3, some 4, [.literal 0]⟩,
    .declaring .opTypePointer 5 [.storageClass .storageBuffer, .id 2],
    ⟨.opVariable, some 5, some 6, [.storageClass .storageBuffer]⟩]
  functions := [.ofBody 7 [⟨.opFConvert, some 2, some 8, [.id 4]⟩, .storing 6 8,
    ⟨.opExtInst, some 2, some 9, [.id 1, .extInst 0, .id 8]⟩]]

theorem takes_storedModule :
    ∃ ix, Index.ofModule storedModule = .ok ix ∧ ix.op? 8 = some .opFConvert ∧
      Takes ix (.storing 6 8) 1 ∧
      Takes ix ⟨.opExtInst, some 2, some 9, [.id 1, .extInst 0, .id 8]⟩ 2 := by
  have hrun : bothPass (Index.ofModule storedModule)
      (storedModule.validate { targetEnv := .vulkan10 }) (fun ix t =>
        decide (ix.op? 8 ≠ some .opDecorationGroup ∧
          ⟨.fpRoundingMode, [.roundingMode .rtz], none⟩ ∈ t.decorations 8)) = true := by
    decide +kernel
  obtain ⟨ix, t, hix, hv, hq⟩ := exists_of_bothPass hrun
  obtain ⟨hgroup, hd⟩ := of_decide_eq_true hq
  obtain ⟨ix', hix', htakes⟩ := takes_of_validate (by decide) hv
  rw [hix] at hix'
  cases hix'
  obtain ⟨hconvert, huses, _⟩ := htakes 8 hgroup _ hd rfl rfl
  have hframed : ∀ F ∈ storedModule.functions, F.Framed :=
    List.forall_mem_singleton.2 (Function.framed_ofBody (by decide))
  have hstands : ∀ i ∈ storedModule.functions.flatMap Function.instructions,
      Module.Stands storedModule.instructions 7 i := by
    intro i hi
    rw [Module.stands_iff_of_framed hframed (by decide)]
    obtain ⟨F, hF, hi⟩ := List.mem_flatMap.1 hi
    cases List.mem_singleton.1 hF
    exact ⟨_, hF, rfl, hi⟩
  refine ⟨ix, hix, hconvert, huses 7 _ 1 (hstands _ ?_) ?_, huses 7 _ 2 (hstands _ ?_) ?_⟩
  all_goals decide

/-- A rounded value in an instruction of a set that is not imported, but has the name of one. -/
def namedModule : Module where
  debugStrings := [.declaring (.other "String") 1 [.text "NonSemantic.Text"]]
  annotations := [.decorating 6 .fpRoundingMode [.roundingMode .rte]]
  globals := [.declaring .opTypeFloat 2 [.literal 16], .declaring .opTypeFloat 3 [.literal 32],
    ⟨.opConstant, some 3, some 4, [.literal 0]⟩]
  functions := [.ofBody 5 [⟨.opFConvert, some 2, some 6, [.id 4]⟩,
    ⟨.opExtInst, some 2, some 7, [.id 1, .extInst 0, .id 6]⟩]]

/-- A rounded value added up among what a function without its beginning holds. -/
def headlessModule : Module where
  annotations := [.decorating 6 .fpRoundingMode [.roundingMode .rte]]
  globals := [.declaring .opTypeFloat 2 [.literal 16], .declaring .opTypeFloat 3 [.literal 32],
    ⟨.opConstant, some 3, some 4, [.literal 0]⟩]
  functions := [.ofBody 5 [⟨.opFConvert, some 2, some 6, [.id 4]⟩],
    { blocks := [{ body := [⟨.opIAdd, some 2, some 7, [.id 6, .id 6]⟩] }],
      tail := some ⟨.opFunctionEnd, none, none, []⟩ }]

/-- Validation passes rounded values that are used otherwise, in an instruction of a set that is no
import, and where no function begins. -/
theorem exists_used_otherwise :
    (∃ ix t, Index.ofModule namedModule = .ok ix ∧ namedModule.validate {} = .ok t ∧
      namedModule.declares .kernel = false ∧ ix.op? 6 = some .opFConvert ∧
      ⟨.fpRoundingMode, [.roundingMode .rte], none⟩ ∈ t.decorations 6 ∧
      ∃ F ∈ namedModule.functions, ∃ i ∈ F.instructions, i.idAt? 2 = some 6 ∧
        i.op = .opExtInst ∧ ∀ set, i.idAt? 0 = some set → ix.op? set ≠ some .opExtInstImport) ∧
    ∃ ix t, Index.ofModule headlessModule = .ok ix ∧ headlessModule.validate {} = .ok t ∧
      headlessModule.declares .kernel = false ∧ ix.op? 6 = some .opFConvert ∧
      ⟨.fpRoundingMode, [.roundingMode .rte], none⟩ ∈ t.decorations 6 ∧
      ∃ F ∈ headlessModule.functions, ∃ i ∈ F.instructions, i.idAt? 0 = some 6 ∧
        ¬ Takes ix i 0 := by
  constructor
  · have hrun : bothPass (Index.ofModule namedModule) (namedModule.validate {}) (fun ix t =>
        decide (ix.op? 6 = some .opFConvert ∧ ix.op? 1 = some (.other "String") ∧
          ⟨.fpRoundingMode, [.roundingMode .rte], none⟩ ∈ t.decorations 6)) = true := by
      decide +kernel
    obtain ⟨ix, t, hix, hv, hq⟩ := exists_of_bothPass hrun
    obtain ⟨hconvert, hstring, hd⟩ := of_decide_eq_true hq
    refine ⟨ix, t, hix, hv, by decide, hconvert, hd, _, List.mem_singleton.2 rfl,
      ⟨.opExtInst, some 2, some 7, [.id 1, .extInst 0, .id 6]⟩, by decide, rfl, rfl, ?_⟩
    intro set hset
    cases hset
    rw [hstring]
    nofun
  · have hrun : bothPass (Index.ofModule headlessModule) (headlessModule.validate {}) (fun ix t =>
        decide (ix.op? 6 = some .opFConvert ∧
          ⟨.fpRoundingMode, [.roundingMode .rte], none⟩ ∈ t.decorations 6)) = true := by
      decide +kernel
    obtain ⟨ix, t, hix, hv, hq⟩ := exists_of_bothPass hrun
    obtain ⟨hconvert, hd⟩ := of_decide_eq_true hq
    refine ⟨ix, t, hix, hv, by decide, hconvert, hd, _, List.mem_cons_of_mem _ List.mem_cons_self,
      ⟨.opIAdd, some 2, some 7, [.id 6, .id 6]⟩, by decide, rfl, ?_⟩
    rintro (h | (h | h | ⟨h, _⟩) | ⟨⟨h, _⟩, _⟩) <;> cases h

end SpirvRules.Rounding
