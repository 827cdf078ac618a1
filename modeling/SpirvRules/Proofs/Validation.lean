import SpirvRules.Proofs.Outcome
import SpirvRules.Proofs.Stateful
import SpirvRules.Validate

/-!
# Validated modules

A module is valid exactly when all its checks pass, each on the one index and the one table it has.
-/

set_option autoImplicit false

namespace SpirvRules

open Outcome Stateful

/-- All checks of the rules pass. -/
structure Context.Accepts (cx : Context) : Prop where
  targets : cx.checkTargets = .ok ()
  repetition : cx.checkRepetition = .ok ()
  builtInStructs : cx.checkBuiltInStructs = .ok ()
  nesting : Buffer.checkNesting cx = .ok ()
  buffers : ∃ w, run (Buffer.checkAll cx) {} = (.ok (), w)
  interfaces : cx.checkInterfaces = .ok ()

theorem Buffer.check_eq_ok (cx : Context) :
    Buffer.check cx = .ok () ↔
      checkNesting cx = .ok () ∧ ∃ w, run (checkAll cx) {} = (.ok (), w) := by
  have hall : (checkAll cx {}).1 = .ok () ↔ ∃ w, run (checkAll cx) {} = (.ok (), w) := by
    constructor
    · intro h
      exact ⟨(checkAll cx {}).2, Prod.ext h rfl⟩
    · rintro ⟨w, h⟩
      exact congrArg Prod.fst h
  simp only [check, bind_eq_ok, mapError_eq_ok, hall]
  constructor
  · rintro ⟨_, hn, hw⟩
    exact ⟨hn, hw⟩
  · rintro ⟨hn, hw⟩
    exact ⟨(), hn, hw⟩

theorem Context.check_eq_ok (cx : Context) : cx.check = .ok () ↔ cx.Accepts := by
  simp only [check, checkBuffers, bind_eq_ok, mapError_eq_ok]
  constructor
  · rintro ⟨_, h₁, _, h₂, _, h₃, _, h₄, h₅⟩
    have hb := (Buffer.check_eq_ok cx).1 h₄
    exact ⟨h₁, h₂, h₃, hb.1, hb.2, h₅⟩
  · intro h
    exact ⟨_, h.targets, _, h.repetition, _, h.builtInStructs, _,
      (Buffer.check_eq_ok cx).2 ⟨h.nesting, h.buffers⟩, h.interfaces⟩

theorem Module.context_eq_ok {m : Module} {o : Options} {cx : Context} :
    m.context o = .ok cx ↔
      ∃ ix t, Index.ofModule m = .ok ix ∧ Table.ofIndex ix = .ok t ∧ cx = ⟨ix, t, o⟩ := by
  simp only [context, bind_eq_ok, mapError_eq_ok, pure, Except.pure, Except.ok.injEq]
  constructor
  · rintro ⟨ix, hix, t, ht, rfl⟩
    exact ⟨ix, t, hix, ht, rfl⟩
  · rintro ⟨ix, t, hix, ht, rfl⟩
    exact ⟨ix, hix, t, ht, rfl⟩

theorem Module.validate_eq_ok {m : Module} {o : Options} {t : Table} :
    m.validate o = .ok t ↔ m.checkVersion o.targetEnv = .ok () ∧
      ∃ ix, Index.ofModule m = .ok ix ∧ Table.ofIndex ix = .ok t ∧
        Context.Accepts ⟨ix, t, o⟩ := by
  simp only [validate, context, bind_eq_ok, mapError_eq_ok, pure, Except.pure, Except.ok.injEq,
    ← Context.check_eq_ok]
  constructor
  · rintro ⟨_, hv, _, ⟨ix, hix, t', ht, rfl⟩, _, hc, rfl⟩
    exact ⟨hv, ix, hix, ht, hc⟩
  · rintro ⟨hv, ix, hix, ht, hc⟩
    exact ⟨_, hv, _, ⟨ix, hix, t, ht, rfl⟩, _, hc, rfl⟩

/-- Whatever the loader, what is found of a binary is found of the module it stands for. -/
theorem Binary.validate_eq_ok {α : Type} {load : α → Except String Module} {binary : α}
    {o : Options} {m : Module} {t : Table} :
    Binary.validate load binary o = .ok (m, t) ↔ load binary = .ok m ∧ m.validate o = .ok t := by
  simp only [Binary.validate, bind_eq_ok, mapError_eq_ok, pure, Except.pure, Except.ok.injEq,
    Prod.mk.injEq]
  constructor
  · rintro ⟨m', hm, t', ht, rfl, rfl⟩
    exact ⟨hm, ht⟩
  · rintro ⟨hm, ht⟩
    exact ⟨m, hm, t, ht, rfl, rfl⟩

namespace Instruction

/-! Instructions as modules written down in the theory have them. -/

def decorating (target : Id) (kind : DecorationKind) (params : List Operand) : Instruction :=
  ⟨.opDecorate, none, none, .id target :: .decoration kind :: params⟩

def placing (struct : Id) (member offset : UInt32) : Instruction :=
  ⟨.opMemberDecorate, none, none,
    [.id struct, .literal member, .decoration .offset, .literal offset]⟩

def declaring (op : Opcode) (id : Id) (operands : List Operand) : Instruction :=
  ⟨op, none, some id, operands⟩

def holding (pointer holder pointee : Id) : List Instruction :=
  [declaring .opTypePointer pointer [.storageClass .storageBuffer, .id pointee],
    ⟨.opVariable, some pointer, some holder, [.storageClass .storageBuffer]⟩]

def entering (function : Id) : Instruction :=
  ⟨.opEntryPoint, none, none, [.executionModel .glCompute, .id function, .text "main"]⟩

def calling (id function : Id) : Instruction := declaring .opFunctionCall id [.id function]

def storing (pointer value : Id) : Instruction :=
  ⟨.opStore, none, none, [.id pointer, .id value]⟩

end Instruction

def Function.ofBody (id : Id) (body : List Instruction) : Function where
  head := some (.declaring .opFunction id [])
  blocks := [{ body }]
  tail := some ⟨.opFunctionEnd, none, none, []⟩

end SpirvRules
