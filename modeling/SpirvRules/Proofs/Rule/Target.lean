import SpirvRules.Proofs.Decoration.Placement

/-!
# Decorations that suit their targets

The check of targets passes exactly when no decoration has a fault where it is. In a valid module
everything decorated is defined, so what is decorated and is no group was looked at: for a
decoration on the whole of it as an object, for one on a member as a struct.
-/

set_option autoImplicit false

namespace SpirvRules

open Outcome

namespace Target

variable {cx : Context} {id : Id} {d : Decoration} {op : Opcode}

theorem check_eq_ok : check cx = .ok () ↔
    ∀ id ∈ cx.table.targets, ∀ d ∈ cx.table.decorations id, fault? cx id d = none := by
  simp only [check, forM_eq_ok]
  apply forall_congr'
  intro id
  apply imp_congr_right
  intro _
  apply forall_congr'
  intro d
  apply imp_congr_right
  intro _
  cases fault? cx id d <;> simp

theorem objectFault?_eq_none : objectFault? cx id d op = none ↔
    vulkanFault? cx d = none ∧ instructionFault? cx id d op = none ∧
      storageFault? cx id d = none ∧ kindFault? cx id d op = none := by
  simp only [objectFault?, Option.orElse_eq_orElse, Option.orElse_eq_or, Option.or_eq_none_iff]

theorem fault?_eq_none (hop : cx.index.op? id = some op) (hgroup : op ≠ .opDecorationGroup) :
    fault? cx id d = none ↔ (d.member = none → objectFault? cx id d op = none) ∧
      ∀ n, d.member = some n → memberFault? cx id d n = none := by
  unfold fault?
  rw [hop]
  cases d.member with
  | none => simp
  | some n => simp [hgroup]

end Target

namespace Table

variable {m : Module} {ix : Index} {t : Table} {id : Id} {d : Decoration}

theorem mem_targets_of_mem_decorations (ht : ofIndex ix = .ok t) (hd : d ∈ t.decorations id) :
    id ∈ t.targets := by
  rw [mem_decorations_iff ht] at hd
  obtain ⟨rs, _, rfl⟩ := ofIndex_eq_ok.1 ht
  exact (mem_targets_ofRecords rs id).2 (List.ne_nil_of_mem hd)

theorem exists_op?_of_mem_decorations (h : Index.ofModule m = .ok ix) (ht : ofIndex ix = .ok t)
    (hd : d ∈ t.decorations id) : ∃ op, ix.op? id = some op := by
  obtain ⟨l, hl, _⟩ := exists_suited h ht ((mem_decorations_iff ht).1 hd)
  refine ⟨l.inst.op, ?_⟩
  rw [Index.op?, Index.inst?, hl, Option.map_some, Option.map_some]

/-- What carries a decoration on a member is a struct that has the member. -/
theorem exists_struct_of_mem_decorations {k : Nat} (h : Index.ofModule m = .ok ix)
    (ht : ofIndex ix = .ok t) (hd : d ∈ t.decorations id) (hk : d.member = some k) :
    ∃ ms, ix.type? id = some (.struct ms) ∧ k < ms.length := by
  obtain ⟨l, hl, hsuits⟩ := exists_suited h ht ((mem_decorations_iff ht).1 hd)
  obtain ⟨hop, hlt⟩ := hsuits.member k hk
  exact ⟨_, Index.type?_eq_struct.2 ⟨l, hl, hop, rfl⟩, hlt⟩

end Table

/-- In a valid module, decorations away from groups have no fault on what defines their targets. -/
theorem Module.faultless_of_validate {m : Module} {o : Options} {t : Table}
    (hv : m.validate o = .ok t) :
    ∃ ix, Index.ofModule m = .ok ix ∧ Table.ofIndex ix = .ok t ∧
      ∀ id, ix.op? id ≠ some .opDecorationGroup → ∀ d ∈ t.decorations id,
        ∃ op, ix.op? id = some op ∧
          (d.member = none → Target.objectFault? ⟨ix, t, o⟩ id d op = none) ∧
          ∀ n, d.member = some n → Target.memberFault? ⟨ix, t, o⟩ id d n = none := by
  obtain ⟨_, ix, hix, ht, haccepts⟩ := Module.validate_eq_ok.1 hv
  have hfaults := Target.check_eq_ok.1 (mapError_eq_ok.1 haccepts.targets)
  refine ⟨ix, hix, ht, fun id hgroup d hd => ?_⟩
  obtain ⟨op, hop⟩ := Table.exists_op?_of_mem_decorations hix ht hd
  refine ⟨op, hop, (@Target.fault?_eq_none ⟨ix, t, o⟩ id d op hop ?_).1 ?_⟩
  · rintro rfl
    exact hgroup hop
  · exact hfaults id (Table.mem_targets_of_mem_decorations ht hd) d hd

end SpirvRules
