import SpirvRules.Proofs.Strictness
import SpirvRules.Proofs.Validation

/-!
# Rules of an environment

Vulkan's rules come on top of the core ones: taking a module out of Vulkan, with block layout as
relaxed as it was there, takes away faults only, and those name the rule they break.
-/

set_option autoImplicit false

namespace SpirvRules

open Outcome

def Report.NamesRule (r : Report) : Prop := r.vuid.isSome = true

def Report.NamesRule? : Option Report → Prop
  | some r => r.NamesRule
  | none => True

/-- Options for another environment, with block layout as relaxed as it was. -/
def Options.moved (o : Options) (e : TargetEnv) : Options :=
  { o with targetEnv := e, relaxBlockLayout := o.isRelaxed }

def Context.moved (cx : Context) (e : TargetEnv) : Context :=
  { cx with options := cx.options.moved e }

namespace TargetEnv

variable {e : TargetEnv}

theorem isVulkan_of_isUniversal (h : e.isUniversal = true) : e.isVulkan = false := by
  cases e <;> first
    | rfl
    | cases h

theorem isOpenGL_of_isUniversal (h : e.isUniversal = true) : e.isOpenGL = false := by
  cases e <;> first
    | rfl
    | cases h

end TargetEnv

/-! ### Faults that name a rule of Vulkan -/

section Named

variable {cx : Context} {id : Id} {c : StorageClass}

theorem Target.namesRule_of_componentFault? {d : Decoration} {type : Id} {f : TargetCause}
    (h : componentFault? cx d type = some f) : Report.NamesRule? (f.report? id) := by
  unfold componentFault? at h
  split at h
  · cases h
  split at h
  · cases h
    rfl
  · obtain ⟨f, _, rfl⟩ := Option.map_eq_some_iff.1 h
    cases f <;> trivial

theorem Resource.namesRule_of_descriptorFault? {f : ResourceFault}
    (h : descriptorFault? cx id c = some f) : f.report.NamesRule := by
  unfold descriptorFault? at h
  split at h
  · obtain ⟨k, _, rfl⟩ := Option.map_eq_some_iff.1 h
    rfl
  · cases h

theorem Resource.namesRule_of_blockFault? {struct : Id} {f : ResourceFault}
    (h : blockFault? cx id c struct = some f) : f.report.NamesRule := by
  simp only [blockFault?] at h
  repeat' split at h
  all_goals cases h
  all_goals rfl

theorem Shared.namesRule_of_pushConstantFault? {function : Id} {f : InterfaceFault}
    (h : pushConstantFault? cx function = some f) : f.report.NamesRule := by
  unfold pushConstantFault? at h
  split at h
  · cases h
    rfl
  · cases h

theorem Interpolation.namesRule_of_fault? {entry : EntryPoint} {v : InterfaceVar}
    {f : InterfaceFault} (h : fault? cx entry v = some f) : f.report.NamesRule := by
  simp only [fault?, Option.orElse_eq_orElse, Option.orElse_eq_or, Option.or_eq_some_iff] at h
  rcases h with houter | ⟨_, hflat⟩
  · simp only [outerFault?, Option.bind_eq_bind, Option.bind_eq_some_iff, Option.pure_def,
      Option.some.injEq] at houter
    obtain ⟨side, _, d, _, rfl⟩ := houter
    rfl
  · unfold flatFault? at hflat
    split at hflat
    · cases hflat
      rfl
    · cases hflat

end Named

/-! ### The checks outside Vulkan -/

section Universal

variable {cx : Context} {o : Options} {e : TargetEnv} (he : e.isUniversal = true)

@[simp] theorem Context.index_moved : (cx.moved e).index = cx.index := rfl

@[simp] theorem Context.table_moved : (cx.moved e).table = cx.table := rfl

theorem BuiltIns.blocksFault?_moved (function : Id) (seen : List StorageClass)
    (vs : List InterfaceVar) :
    blocksFault? (cx.moved e) function seen vs = blocksFault? cx function seen vs := by
  have hstruct : builtInStruct? (cx.moved e) = builtInStruct? cx := rfl
  induction vs generalizing seen with
  | nil => rfl
  | cons v rest ih => simp only [blocksFault?, hstruct, Context.table_moved, ih]

include he

theorem Options.isRelaxed_moved : (o.moved e).isRelaxed = o.isRelaxed := by
  have hrelaxes : e.relaxesBlockLayout = false := by
    rw [TargetEnv.relaxesBlockLayout, TargetEnv.isVulkan_of_isUniversal he, Bool.false_and]
  show (o.isRelaxed || e.relaxesBlockLayout) = o.isRelaxed
  rw [hrelaxes, Bool.or_false]

theorem LayoutPolicy.select_moved (c : StorageClass) (b : Bool) :
    select c b (o.moved e) = select c b o := by
  have hpacking : packingFor c (o.moved e) = packingFor c o := by
    unfold packingFor
    rw [Options.isRelaxed_moved he]
    rfl
  unfold select
  rw [hpacking]
  rfl

theorem Context.isVulkan_moved : (cx.moved e).isVulkan = false :=
  TargetEnv.isVulkan_of_isUniversal he

theorem Context.isOpenGL_moved : (cx.moved e).isOpenGL = false :=
  TargetEnv.isOpenGL_of_isUniversal he

theorem Context.not_vulkan_moved (p : Prop) : ¬((cx.moved e).isVulkan = true ∧ p) := by
  rw [isVulkan_moved he]
  exact fun h => absurd h.1 nofun

theorem Uniformity.fault?_moved (id : Id) (d : Decoration) :
    FindsMore (fun f => (f.report id).NamesRule) (fault? cx id d) (fault? (cx.moved e) id d) := by
  have hscope : ∀ scope, FindsMore (fun f => (f.report id).NamesRule) (scopeFault? cx scope)
      (scopeFault? (cx.moved e) scope) := by
    intro scope
    simp only [scopeFault?, Context.index_moved]
    refine .ite (fun _ => .refl _) fun _ => ?_
    cases cx.index.constant? scope with
    | none => exact .refl _
    | some v =>
      refine .ite (fun _ => .refl _) fun _ => ?_
      exact .guard (Context.not_vulkan_moved he _) rfl (.refl _)
  refine .ite (fun _ => .refl _) fun _ => .ite (fun _ => .refl _) fun _ => .or (.refl _) ?_
  cases d.id? with
  | none => exact .refl _
  | some scope => exact hscope scope

theorem Rounding.fault?_moved (id : Id) (d : Decoration) :
    FindsMore (fun f => (f.report id).NamesRule) (fault? cx id d) (fault? (cx.moved e) id d) :=
  .ite (fun _ => .refl _) fun _ => .ite (fun _ => .refl _) fun _ =>
    .guard (Context.not_vulkan_moved he _) rfl (.refl _)

namespace Target

theorem componentFault?_moved (id : Id) (d : Decoration) (type : Id) :
    FindsMore (fun c => Report.NamesRule? (c.report? id)) (componentFault? cx d type)
      (componentFault? (cx.moved e) d type) := by
  have hnone : componentFault? (cx.moved e) d type = none := by
    rw [componentFault?, Context.isVulkan_moved he]
    rfl
  exact .of_none hnone fun _ => namesRule_of_componentFault?

theorem storageFault?_moved (id : Id) (d : Decoration) :
    FindsMore (fun c => Report.NamesRule? (c.report? id)) (storageFault? cx id d)
      (storageFault? (cx.moved e) id d) := by
  simp only [storageFault?, Context.index_moved]
  cases storageRule? d.kind with
  | none => exact .refl _
  | some r =>
    cases cx.index.variableClass? id with
    | none => exact .refl _
    | some c => exact .guard (Context.not_vulkan_moved he _) rfl (.refl _)

theorem kindFault?_moved (id : Id) (d : Decoration) (op : Opcode) :
    FindsMore (fun c => Report.NamesRule? (c.report? id)) (kindFault? cx id d op)
      (kindFault? (cx.moved e) id d op) := by
  unfold kindFault?
  cases d.kind
  case component => exact .bind fun p => componentFault?_moved he id d p.2
  case fpRoundingMode => exact (Rounding.fault?_moved he id d).map fun _ h => h
  case uniform | uniformId => exact (Uniformity.fault?_moved he id d).map fun _ h => h
  all_goals exact .refl _

theorem fault?_moved (id : Id) (d : Decoration) :
    FindsMore (fun c => Report.NamesRule? (c.report? id)) (fault? cx id d)
      (fault? (cx.moved e) id d) := by
  have hvulkan : FindsMore (fun c => Report.NamesRule? (c.report? id)) (vulkanFault? cx d)
      (vulkanFault? (cx.moved e) d) :=
    .guard (Context.not_vulkan_moved he _) rfl (.refl _)
  have hmember : ∀ n, FindsMore (fun c => Report.NamesRule? (c.report? id)) (memberFault? cx id d n)
      (memberFault? (cx.moved e) id d n) := by
    intro n
    exact .ite (fun _ => .bind fun type => componentFault?_moved he id d type) fun _ => .refl _
  simp only [fault?, Context.index_moved]
  split
  · exact .refl _
  · exact .refl _
  · exact hmember _
  · exact hvulkan.or (.or (.refl _) (.or (storageFault?_moved he id d)
      (kindFault?_moved he id d _)))

theorem check_moved :
    Stricter (fun f => Report.NamesRule? f.report?) (check cx) (check (cx.moved e)) := by
  apply Stricter.forM
  intro id
  apply Stricter.forM
  intro d
  have hfault : FindsMore (fun c => Report.NamesRule? (c.report? id)) (fault? cx id d)
      (fault? (cx.moved e) id d) := fault?_moved he id d
  rcases hfault with heq | ⟨c, hc, hsome⟩
  · rw [heq]
    exact .refl _
  · rw [hsome]
    exact .inr ⟨⟨id, c⟩, hc, rfl⟩

end Target

namespace Buffer

theorem resourceFault?_moved (hv : cx.isVulkan = true) (id : Id) (c : StorageClass) (p : Id) :
    FindsMore (fun f => f.report.NamesRule) (Resource.fault? cx id c p)
      (Resource.fault? (cx.moved e) id c p) := by
  have hnone : Resource.fault? (cx.moved e) id c p = none := by
    unfold Resource.fault?
    rw [Context.isVulkan_moved he, Context.isOpenGL_moved he]
    rfl
  apply FindsMore.of_none hnone
  intro f hf
  rw [Resource.fault?, if_pos hv] at hf
  simp only [Option.orElse_eq_orElse, Option.orElse_eq_or, Option.or_eq_some_iff,
    Option.bind_eq_some_iff] at hf
  rcases hf with hf | ⟨_, s, _, hf⟩
  · exact Resource.namesRule_of_descriptorFault? hf
  · exact Resource.namesRule_of_blockFault? hf

theorem checkHeld_moved (h : Held) : checkHeld (cx.moved e) h = checkHeld cx h := by
  have hpolicy : policy? (cx.moved e) h = policy? cx h := LayoutPolicy.select_moved he _ _
  rw [checkHeld, hpolicy]
  rfl

theorem checkVariable_moved (hv : cx.isVulkan = true) (id : Id) (c : StorageClass) (p : Id) :
    Stateful.Stricter (fun f => f.report.NamesRule) (checkVariable cx id c p)
      (checkVariable (cx.moved e) id c p) := by
  have hheld : checkHeld (cx.moved e) = checkHeld cx := funext (checkHeld_moved he)
  have hheld? : held? (cx.moved e) = held? cx := rfl
  unfold checkVariable
  rw [hheld, hheld?]
  rcases resourceFault?_moved he hv id c p with heq | ⟨f, hf, hsome⟩
  · rw [heq]
    exact .refl _
  · rw [hsome]
    exact fun w => .inr ⟨.resource f, w, hf, rfl⟩

theorem check_moved (hv : cx.isVulkan = true) :
    Stricter (fun f => f.report.NamesRule) (check cx) (check (cx.moved e)) := by
  have hheld : checkHeld (cx.moved e) = checkHeld cx := funext (checkHeld_moved he)
  have hpointed : pointed? (cx.moved e) = pointed? cx := rfl
  have hglobals : (cx.moved e).globalVariables = cx.globalVariables := rfl
  have hall : Stateful.Stricter (fun f => f.report.NamesRule) (checkAll cx)
      (checkAll (cx.moved e)) := by
    unfold checkAll
    rw [hheld, hpointed, hglobals]
    apply Stateful.Stricter.bind
    · apply Stateful.Stricter.forM
      rintro ⟨id, c, p⟩
      exact checkVariable_moved he hv id c p
    · intro _
      exact .refl _
  have hnesting : checkNesting (cx.moved e) = checkNesting cx := rfl
  rw [check, check, hnesting]
  exact (Stricter.refl _).bind fun _ => hall.fst {}

end Buffer

namespace Interface

theorem vulkanOnly_moved {f : Option InterfaceFault} (hf : ∀ c, f = some c → c.report.NamesRule) :
    FindsMore (fun c => c.report.NamesRule) (vulkanOnly cx f) (vulkanOnly (cx.moved e) f) := by
  have hnone : vulkanOnly (cx.moved e) f = none := by
    rw [vulkanOnly, Context.isVulkan_moved he]
    rfl
  apply FindsMore.of_none hnone
  intro c hc
  unfold vulkanOnly at hc
  split at hc
  · exact hf c hc
  · cases hc

theorem fault?_moved (entry : EntryPoint) (vs : List InterfaceVar) :
    FindsMore (fun c => c.report.NamesRule) (fault? cx entry vs)
      (fault? (cx.moved e) entry vs) := by
  have hinterpolation : ∀ c, vs.findSome? (Interpolation.fault? cx entry) = some c →
      c.report.NamesRule := by
    intro c hc
    obtain ⟨v, _, hc⟩ := List.exists_of_findSome?_eq_some hc
    exact Interpolation.namesRule_of_fault? hc
  have hbuiltIns : BuiltIns.fault? (cx.moved e) vs entry.function =
      BuiltIns.fault? cx vs entry.function := by
    rw [BuiltIns.fault?, BuiltIns.blocksFault?_moved, BuiltIns.fault?]
    rfl
  have hworkgroup : Shared.workgroupFault? (cx.moved e) = Shared.workgroupFault? cx := rfl
  have hvertex : Interpolation.perVertexFault? (cx.moved e) =
    Interpolation.perVertexFault? cx := rfl
  have hpushes : Shared.pushConstantFault? (cx.moved e) = Shared.pushConstantFault? cx := rfl
  have hinterpolations : Interpolation.fault? (cx.moved e) = Interpolation.fault? cx := rfl
  rw [fault?, fault?, hbuiltIns, hworkgroup, hvertex, hpushes, hinterpolations]
  exact .or (.refl _) (.or (vulkanOnly_moved he fun _ => Shared.namesRule_of_pushConstantFault?)
    (.or (.refl _) (.or (vulkanOnly_moved he hinterpolation) (.refl _))))

theorem check_moved :
    Stricter (fun f => f.report.NamesRule) (check cx) (check (cx.moved e)) := by
  apply Stricter.forM
  intro entry
  apply Stricter.bind (.refl _)
  intro vs
  have hfault : FindsMore (fun c => c.report.NamesRule) (fault? cx entry vs)
      (fault? (cx.moved e) entry vs) := fault?_moved he entry vs
  rcases hfault with heq | ⟨c, hc, hsome⟩
  · rw [heq]
    exact .refl _
  · rw [hsome]
    exact .inr ⟨_, hc, rfl⟩

end Interface

theorem Context.check_moved (hv : cx.isVulkan = true) :
    Stricter (fun c => Report.NamesRule? c.report?) cx.check (cx.moved e).check := by
  have htargets : Stricter (fun c : Cause => Report.NamesRule? c.report?) cx.checkTargets
      (cx.moved e).checkTargets := (Target.check_moved he).mapError fun _ h => h
  have hbuffers : Stricter (fun c : Cause => Report.NamesRule? c.report?) cx.checkBuffers
      (cx.moved e).checkBuffers := (Buffer.check_moved he hv).mapError fun _ h => h
  have hinterfaces : Stricter (fun c : Cause => Report.NamesRule? c.report?) cx.checkInterfaces
      (cx.moved e).checkInterfaces := (Interface.check_moved he).mapError fun _ h => h
  exact htargets.bind fun _ => (Stricter.refl _).bind fun _ => (Stricter.refl _).bind fun _ =>
    hbuffers.bind fun _ => hinterfaces

end Universal

/-! ### Faults of which nothing is reported -/

namespace Target

variable {cx : Context} {id type : Id} {d : Decoration} {op : Opcode} {f : ComponentFault}

theorem instructionFault?_ne_component : instructionFault? cx id d op ≠ some (.component f) := by
  unfold instructionFault? builtInFault? memoryFault?
  repeat' split
  all_goals simp

theorem isVulkan_of_componentFault? (h : componentFault? cx d type = some (.component f)) :
    cx.isVulkan = true := by
  cases hv : cx.isVulkan with
  | true => rfl
  | false =>
    rw [componentFault?, hv] at h
    cases h

theorem isVulkan_of_kindFault? (h : kindFault? cx id d op = some (.component f)) :
    cx.isVulkan = true := by
  unfold kindFault? at h
  split at h
  case h_3 =>
    obtain ⟨_, _, h⟩ := Option.bind_eq_some_iff.1 h
    exact isVulkan_of_componentFault? h
  all_goals
    simp only [blockFault?, accessFault?, wrapFault?, linkageFault?, Option.map_eq_some_iff,
      reduceCtorEq, and_false, exists_false] at h
    try (repeat' split at h) <;> cases h

theorem isVulkan_of_fault? (h : fault? cx id d = some (.component f)) : cx.isVulkan = true := by
  unfold fault? at h
  split at h
  · cases h
  · cases h
  · unfold memberFault? at h
    split at h
    · obtain ⟨_, _, h⟩ := Option.bind_eq_some_iff.1 h
      exact isVulkan_of_componentFault? h
    · cases h
  · simp only [objectFault?, Option.orElse_eq_orElse, Option.orElse_eq_or,
      Option.or_eq_some_iff] at h
    rcases h with hvulkan | ⟨_, hinstruction | ⟨_, hstorage | ⟨_, hkind⟩⟩⟩
    · unfold vulkanFault? at hvulkan
      split at hvulkan <;> cases hvulkan
    · exact absurd hinstruction instructionFault?_ne_component
    · unfold storageFault? at hstorage
      repeat' split at hstorage
      all_goals cases hstorage
    · exact isVulkan_of_kindFault? hkind

theorem isVulkan_of_report?_eq_none {f : TargetFault} (h : check cx = .error f)
    (hf : f.report? = none) : cx.isVulkan = true := by
  obtain ⟨id, _, h⟩ := exists_of_forM_error h
  obtain ⟨d, _, h⟩ := exists_of_forM_error h
  split at h
  · next c hc =>
    cases h
    cases c with
    | component f => exact isVulkan_of_fault? hc
    | _ => cases hf
  · cases h

end Target

theorem Cause.report?_eq_none {c : Cause} :
    c.report? = none ↔ ∃ f : TargetFault, c = .target f ∧ f.report? = none := by
  cases c <;> simp [report?]

theorem Context.checkTargets_of_target {cx : Context} {f : TargetFault}
    (h : cx.check = .error (.target f)) : Target.check cx = .error f := by
  simp only [check, checkTargets, checkRepetition, checkBuiltInStructs, checkBuffers,
    checkInterfaces, bind_eq_error, mapError_eq_error, reduceCtorEq, and_false, exists_false,
    or_false, Cause.target.injEq, exists_eq_right] at h
  exact h

theorem Context.isVulkan_of_report?_eq_none {cx : Context} {c : Cause} (h : cx.check = .error c)
    (hc : c.report? = none) : cx.isVulkan = true := by
  obtain ⟨f, rfl, hf⟩ := Cause.report?_eq_none.1 hc
  exact Target.isVulkan_of_report?_eq_none (checkTargets_of_target h) hf

namespace Module

variable {m : Module} {o : Options} {e : TargetEnv}

theorem isVulkan_of_report?_eq_none {c : Cause} (h : m.validate o = .error c)
    (hc : c.report? = none) : o.targetEnv.isVulkan = true := by
  obtain ⟨f, rfl, _⟩ := Cause.report?_eq_none.1 hc
  rcases bind_eq_error.1 h with hversion | ⟨_, _, h⟩
  · unfold checkVersion at hversion
    split at hversion <;> cases hversion
  rcases bind_eq_error.1 h with hcontext | ⟨cx, hcx, h⟩
  · rcases bind_eq_error.1 hcontext with hindex | ⟨_, _, hcontext⟩
    · obtain ⟨_, _, hcause⟩ := mapError_eq_error.1 hindex
      cases hcause
    rcases bind_eq_error.1 hcontext with htable | ⟨_, _, hcontext⟩
    · obtain ⟨_, _, hcause⟩ := mapError_eq_error.1 htable
      cases hcause
    · cases hcontext
  rcases bind_eq_error.1 h with hcheck | ⟨_, _, h⟩
  · obtain ⟨_, _, _, _, rfl⟩ := context_eq_ok.1 hcx
    exact Context.isVulkan_of_report?_eq_none hcheck hc
  · cases h

/-- What is said of a module: its table, or why it is refused, or nothing where that ends in a sum
that is no word. -/
def verdict (m : Module) (o : Options) : Except (Option Report) Table :=
  (m.validate o).mapError fun c => c.report?.map (·.within o.targetEnv)

/-- Moved out of Vulkan, to an environment that takes its version too, a module meets the same
faults but for those that name a rule. -/
theorem validate_moved (ho : o.targetEnv.isVulkan = true) (he : e.isUniversal = true)
    (hm : o.targetEnv.ceiling.before m.statedVersion = false)
    (hm' : e.ceiling.before m.statedVersion = false) :
    Stricter (fun c => Report.NamesRule? c.report?) (m.validate o) (m.validate (o.moved e)) := by
  have hversion : m.checkVersion (o.moved e).targetEnv = m.checkVersion o.targetEnv := by
    show m.checkVersion e = _
    simp [checkVersion, hm, hm']
  rw [validate, validate, hversion]
  apply Stricter.bind (.refl _)
  intro _
  have hcontext : m.context (o.moved e) = (m.context o).map (·.moved e) := by
    unfold context
    cases Index.ofModule m with
    | error f => rfl
    | ok ix =>
      simp only [Except.mapError, bind, Except.bind]
      cases Table.ofIndex ix <;> rfl
  rw [hcontext]
  cases hcx : m.context o with
  | error f => exact .refl _
  | ok cx =>
    have hvulkan : cx.isVulkan = true := by
      obtain ⟨ix, t, _, _, rfl⟩ := context_eq_ok.1 hcx
      exact ho
    exact (Context.check_moved he hvulkan).bind fun _ => .refl _

theorem verdict_eq_ok {t : Table} : m.verdict o = .ok t ↔ m.validate o = .ok t := mapError_eq_ok

theorem verdict_eq_error {r : Option Report} : m.verdict o = .error r ↔
    ∃ c, m.validate o = .error c ∧ c.report?.map (·.within o.targetEnv) = r := by
  unfold verdict
  cases m.validate o <;> simp [Except.mapError]

def reported? (m : Module) (o : Options) : Option Report :=
  match m.verdict o with
  | .ok _ => none
  | .error r => r

theorem reported?_eq_some {r : Report} :
    m.reported? o = some r ↔ m.verdict o = .error (some r) := by
  unfold reported?
  cases m.verdict o <;> simp

/-- Outside Vulkan a module has the table it has in Vulkan, or is refused with the same report where
that names no rule; and no report there names one, but there always is one. -/
theorem verdict_moved (ho : o.targetEnv.isVulkan = true) (he : e.isUniversal = true)
    (hm : o.targetEnv.ceiling.before m.statedVersion = false)
    (hm' : e.ceiling.before m.statedVersion = false) :
    (∀ t, m.verdict o = .ok t → m.verdict (o.moved e) = .ok t) ∧
      (∀ r, m.verdict o = .error (some r) → r.vuid = none →
        m.verdict (o.moved e) = .error (some r)) ∧
      (∀ r, m.verdict (o.moved e) = .error (some r) → r.vuid = none) ∧
      m.verdict (o.moved e) ≠ .error none := by
  have hstricter := validate_moved ho he hm hm'
  have hvulkan : ∀ r : Report, r.within o.targetEnv = r := by
    intro r
    rw [Report.within, if_pos ho]
  have huniversal : ∀ r : Report, (r.within (o.moved e).targetEnv).vuid = none := by
    intro r
    show (if e.isVulkan = true then r.vuid else none) = none
    rw [TargetEnv.isVulkan_of_isUniversal he]
    rfl
  refine ⟨fun t ht => ?_, fun r hr hnone => ?_, fun r hr => ?_, fun hnone => ?_⟩
  · rw [verdict_eq_ok] at ht ⊢
    exact hstricter.eq_of_ok ht
  · obtain ⟨c, hc, hr⟩ := verdict_eq_error.1 hr
    obtain ⟨r, hreport, rfl⟩ := Option.map_eq_some_iff.1 hr
    rw [hvulkan] at hnone ⊢
    have hunnamed : ¬Report.NamesRule? c.report? := by
      rw [hreport, Report.NamesRule?, Report.NamesRule, hnone]
      nofun
    refine verdict_eq_error.2 ⟨c, hstricter.eq_of_error hc hunnamed, ?_⟩
    rw [hreport, Option.map_some, Option.some.injEq, Report.mk.injEq]
    exact ⟨rfl, rfl, rfl, (huniversal _).trans hnone.symm⟩
  · obtain ⟨c, _, hr⟩ := verdict_eq_error.1 hr
    obtain ⟨r, _, rfl⟩ := Option.map_eq_some_iff.1 hr
    exact huniversal _
  · obtain ⟨c, hc, hreport⟩ := verdict_eq_error.1 hnone
    have hmoved := isVulkan_of_report?_eq_none hc (Option.map_eq_none_iff.1 hreport)
    rw [show (o.moved e).targetEnv = e from rfl, TargetEnv.isVulkan_of_isUniversal he] at hmoved
    cases hmoved

def relaxedBlock : Module where
  annotations := [.decorating 3 .block [], .placing 3 0 0, .placing 3 1 4]
  globals := [.declaring .opTypeFloat 1 [.literal 32],
      .declaring .opTypeVector 2 [.id 1, .literal 2], .declaring .opTypeStruct 3 [.id 1, .id 2]] ++
    Instruction.holding 4 5 3

/-- The block passes with the relaxed layout of Vulkan 1.1, and is refused in Vulkan 1.0; so it is
with what is left of the options outside. -/
theorem verdict_moved_relaxedBlock :
    (∃ t, relaxedBlock.verdict { targetEnv := .vulkan11 } = .ok t ∧
      relaxedBlock.verdict (Options.moved { targetEnv := .vulkan11 } .spv13) = .ok t) ∧
    ∃ r, relaxedBlock.verdict { targetEnv := .vulkan10 } = .error (some r) ∧ r.vuid = none ∧
      relaxedBlock.verdict (Options.moved { targetEnv := .vulkan10 } .spv10) = .error (some r) := by
  have hpass : (relaxedBlock.validate { targetEnv := .vulkan11 }).toOption.any (fun _ => true) =
      true := by
    decide +kernel
  have hrefused : (relaxedBlock.reported? { targetEnv := .vulkan10 }).any
      (fun r => r.vuid.isNone) = true := by
    decide +kernel
  constructor
  · obtain ⟨t, ht, _⟩ := exists_of_any hpass
    have hmoved := verdict_moved (m := relaxedBlock) (o := { targetEnv := .vulkan11 }) (e := .spv13)
      rfl rfl rfl rfl
    rw [← verdict_eq_ok] at ht
    exact ⟨t, ht, hmoved.1 t ht⟩
  · have hmoved := verdict_moved (m := relaxedBlock) (o := { targetEnv := .vulkan10 })
      (e := .spv10) rfl rfl rfl rfl
    obtain ⟨r, hr, hnone⟩ := (Option.any_eq_true _ _).1 hrefused
    rw [Option.isNone_iff_eq_none] at hnone
    rw [reported?_eq_some] at hr
    exact ⟨r, hr, hnone, hmoved.2.1 r hr hnone⟩

end Module

end SpirvRules
