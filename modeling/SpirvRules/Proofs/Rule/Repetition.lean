import SpirvRules.Proofs.Decoration.Expansion
import SpirvRules.Proofs.Rule.Agreement

/-!
# Nothing repeated, nothing contradicted

Repetitions are counted over all applications to a target, while every answer of the table is read
off its distinct decorations. In a module that passes, a kind that lays out memory is applied at
most once at each place, so what the table answers is what was applied there; and the check fails
for a repetition or a contradiction only.
-/

set_option autoImplicit false

namespace SpirvRules

open Outcome

namespace Table

def timesApplied (t : Table) (id : Id) (place : Option Nat) (kind : DecorationKind) : Nat :=
  (t.applied id).countP fun d => d.member = place ∧ d.kind = kind

def Repeats (t : Table) (id : Id) (place : Option Nat) : Prop :=
  ∃ kind ∈ [DecorationKind.offset, .arrayStride, .matrixStride, .rowMajor, .colMajor],
    1 < t.timesApplied id place kind

def Contradicts (t : Table) (id : Id) (place : Option Nat) : Prop :=
  ∃ pair ∈ [(DecorationKind.rowMajor, DecorationKind.colMajor), (.block, .bufferBlock),
      (.aliased, .restrict), (.aliasedPointer, .restrictPointer)],
    0 < t.timesApplied id place pair.1 ∧ 0 < t.timesApplied id place pair.2

def literalAt? (t : Table) (id : Id) (kind : DecorationKind) : Option Nat → Option UInt32
  | none => t.literal? id kind
  | some member => t.memberLiteral? id member kind

/-- The numbers that lay out memory are those of the one application that states them. -/
structure Unambiguous (t : Table) : Prop where
  once : ∀ id place, ¬t.Repeats id place
  consistent : ∀ id place, ¬t.Contradicts id place
  answered : ∀ id place, ∀ kind ∈ [DecorationKind.offset, .arrayStride, .matrixStride],
    ∀ d ∈ t.applied id, d.member = place → d.kind = kind →
      t.literalAt? id kind place = d.literal?
  unanswered : ∀ id place, ∀ kind ∈ [DecorationKind.offset, .arrayStride, .matrixStride],
    t.timesApplied id place kind = 0 → t.literalAt? id kind place = none

variable {t : Table} {id : Id} {place : Option Nat} {kind : DecorationKind}

theorem timesApplied_pos :
    0 < t.timesApplied id place kind ↔ ∃ d ∈ t.applied id, d.member = place ∧ d.kind = kind := by
  simp only [timesApplied, List.countP_pos_iff, decide_eq_true_eq]

/-- Both kinds of question are answered by the first decoration of the kind at the place. -/
theorem literalAt?_eq : t.literalAt? id kind place =
    ((t.decorations id).find? fun d => d.member = place ∧ d.kind = kind).bind
      Decoration.literal? := by
  cases place with
  | none =>
    rw [literalAt?, literal?, objectDecorations, List.find?_filter]
    simp only [Option.isNone_iff_eq_none, Bool.decide_and, Bool.decide_eq_true]
  | some member =>
    rw [literalAt?, memberLiteral?, memberDecorations, List.find?_filter]
    simp only [Bool.decide_and, Bool.decide_eq_true]

theorem literalAt?_of_ofRecords (rs : List Record) (id : Id) (place : Option Nat)
    (kind : DecorationKind) :
    ((ofRecords rs).timesApplied id place kind = 0 ∧
        (ofRecords rs).literalAt? id kind place = none) ∨
      ∃ d ∈ (ofRecords rs).applied id, (d.member = place ∧ d.kind = kind) ∧
        (ofRecords rs).literalAt? id kind place = d.literal? := by
  rw [literalAt?_eq]
  cases hf : ((ofRecords rs).decorations id).find? fun d => d.member = place ∧ d.kind = kind with
  | none =>
    refine .inl ⟨List.countP_eq_zero.2 fun d hd => ?_, rfl⟩
    exact List.find?_eq_none.1 hf d ((mem_decorations_ofRecords rs id d).2 hd)
  | some d =>
    have hd := (mem_decorations_ofRecords rs id d).1 (List.mem_of_find?_eq_some hf)
    exact .inr ⟨d, hd, of_decide_eq_true (List.find?_some hf :), rfl⟩

end Table

namespace Repetition

variable {ds : List Decoration} {rs : List Record}

theorem repeated?_eq_none : repeated? ds = none ↔
    ∀ place, ∀ kind ∈ once, ds.countP (fun d => d.member = place ∧ d.kind = kind) ≤ 1 := by
  have hcount : ∀ place, ∀ kind ∈ once,
      ((ds.filter (·.kind ∈ once)).map fun d => (d.member, d.kind)).count (place, kind) =
        ds.countP fun d => d.member = place ∧ d.kind = kind := by
    intro place kind hk
    rw [List.count, List.countP_map, List.countP_filter]
    apply List.countP_congr
    intro d _
    simp only [Function.comp_apply, Bool.and_eq_true, beq_iff_eq, Prod.mk.injEq,
      decide_eq_true_eq]
    constructor
    · exact And.left
    · rintro ⟨hd, rfl⟩
      exact ⟨⟨hd, rfl⟩, hk⟩
  rw [repeated?, firstRepeat?_eq_none, List.nodup_iff_count_le_one]
  constructor
  · intro h place kind hk
    rw [← hcount place kind hk]
    exact h (place, kind)
  · rintro h ⟨place, kind⟩
    by_cases hk : kind ∈ once
    · rw [hcount place kind hk]
      exact h place kind hk
    · -- the kind was filtered out
      rw [List.count_eq_zero_of_not_mem]
      · exact Nat.zero_le 1
      · intro hmem
        obtain ⟨d, hd, heq⟩ := List.mem_map.1 hmem
        cases heq
        exact hk (of_decide_eq_true (List.mem_filter.1 hd).2)

theorem repeated?_applied_eq_none {t : Table} {id : Id} :
    repeated? (t.applied id) = none ↔ ∀ place, ¬t.Repeats id place := by
  rw [repeated?_eq_none]
  apply forall_congr'
  intro place
  simp only [Table.Repeats, not_exists, not_and, Nat.not_lt]
  rfl

theorem together?_decorations_eq_none {id : Id} {first second : DecorationKind} :
    together? ((Table.ofRecords rs).decorations id) first second = none ↔
      ∀ place, ¬(0 < (Table.ofRecords rs).timesApplied id place first ∧
        0 < (Table.ofRecords rs).timesApplied id place second) := by
  simp only [together?_eq_none, Table.mem_decorations_ofRecords, Table.timesApplied_pos]
  constructor
  · rintro h place ⟨⟨d, hd, rfl, hk⟩, e, he, hm, hk'⟩
    exact h d hd hk e he ⟨hk', hm⟩
  · rintro h d hd hk e he ⟨hk', hm⟩
    exact h d.member ⟨⟨d, hd, rfl, hk⟩, e, he, hm, hk'⟩

/-- An id passes when it repeats nothing and contradicts nothing at any place. -/
theorem fault?_eq_none {id : Id} : fault? (Table.ofRecords rs) id = none ↔
    ∀ place, ¬(Table.ofRecords rs).Repeats id place ∧
      ¬(Table.ofRecords rs).Contradicts id place := by
  rw [fault?, Option.orElse_eq_orElse, Option.orElse_eq_or, Option.or_eq_none_iff,
    Option.map_eq_none_iff, repeated?_applied_eq_none, List.findSome?_eq_none_iff, forall_and]
  simp only [Option.map_eq_none_iff, together?_decorations_eq_none, Table.Contradicts,
    not_exists, not_and]
  apply and_congr_right
  intro _
  constructor
  · intro h place pair hpair
    exact h pair hpair place
  · intro h pair hpair place
    exact h place pair hpair

/-- Ids without any decoration repeat nothing and contradict nothing. -/
theorem check_ofRecords : check (Table.ofRecords rs) = .ok () ↔
    ∀ id place, ¬(Table.ofRecords rs).Repeats id place ∧
      ¬(Table.ofRecords rs).Contradicts id place := by
  rw [check_eq_ok]
  constructor
  · intro h id
    rw [← fault?_eq_none]
    by_cases hid : id ∈ (Table.ofRecords rs).targets
    · exact h id hid
    · rw [Table.mem_targets_ofRecords, Classical.not_not] at hid
      rw [fault?_eq_none]
      intro place
      simp only [Table.Repeats, Table.Contradicts, Table.timesApplied, hid, List.countP_nil]
      simp
  · intro h id _
    exact fault?_eq_none.2 (h id)

theorem unambiguous_of_check (h : check (Table.ofRecords rs) = .ok ()) :
    (Table.ofRecords rs).Unambiguous := by
  have hnone := check_ofRecords.1 h
  refine ⟨fun id place => (hnone id place).1, fun id place => (hnone id place).2, ?_, ?_⟩
  · intro id place kind hkind d hd hmember hk
    have hnumbered : ∀ k ∈ [DecorationKind.offset, .arrayStride, .matrixStride],
        k.isNumbered = true := by decide
    have hrepeated := repeated?_applied_eq_none.2 fun place => (hnone id place).1
    rcases Table.literalAt?_of_ofRecords rs id place kind with
      ⟨hzero, _⟩ | ⟨e, he, ⟨hmember', hk'⟩, heq⟩
    · have hpos := Table.timesApplied_pos.2 ⟨d, hd, hmember, hk⟩
      omega
    · have hde : d = e := eq_of_repeated? hrepeated hd he (by rw [hk, hnumbered kind hkind])
        (by rw [hmember, hmember']) (by rw [hk, hk'])
      rw [heq, hde]
  · intro id place kind _ hzero
    rcases Table.literalAt?_of_ofRecords rs id place kind with
      ⟨_, hnone⟩ | ⟨d, hd, hat, _⟩
    · exact hnone
    · have hpos := Table.timesApplied_pos.2 ⟨d, hd, hat⟩
      omega

/-- A table of a valid module is unambiguous, and a table fails the check exactly for a repetition
or a contradiction at some place. -/
theorem unambiguous_and_caught :
    (∀ (m : Module) (o : Options) (t : Table), m.validate o = .ok t → t.Unambiguous) ∧
      ∀ (ix : Index) (t : Table), Table.ofIndex ix = .ok t →
        ((∃ f, check t = .error f) ↔ ∃ id place, t.Repeats id place ∨ t.Contradicts id place) := by
  constructor
  · intro m o t h
    obtain ⟨_, ix, _, htable, haccepts⟩ := Module.validate_eq_ok.1 h
    obtain ⟨rs, _, rfl⟩ := Table.ofIndex_eq_ok.1 htable
    exact unambiguous_of_check (mapError_eq_ok.1 haccepts.repetition)
  · intro ix t htable
    obtain ⟨rs, _, rfl⟩ := Table.ofIndex_eq_ok.1 htable
    have hfails : (∃ f, check (Table.ofRecords rs) = .error f) ↔
        ¬check (Table.ofRecords rs) = .ok () := by
      cases check (Table.ofRecords rs) <;> simp
    rw [hfails, check_ofRecords]
    simp only [not_forall, not_and_or, Classical.not_not]

def groupedStride (targets : List Operand) : Module where
  annotations := [.declaring .opDecorationGroup 1 [], .decorating 1 .arrayStride [.literal 4],
    ⟨.opGroupDecorate, none, none, .id 1 :: targets⟩]
  globals := [.declaring .opTypeInt 2 [.literal 32, .literal 0],
    ⟨.opConstant, some 2, some 3, [.literal 8]⟩,
    .declaring .opTypeArray 4 [.id 2, .id 3]]

/-- The stride is the answer for the array it is put on once, and a fault on one named twice. -/
theorem unambiguous_groupedStride :
    (∃ t, (groupedStride [.id 4]).validate {} = .ok t ∧ t.Unambiguous ∧
        t.timesApplied 4 none .arrayStride = 1 ∧ t.literal? 4 .arrayStride = some 4) ∧
      ∃ ix t, Index.ofModule (groupedStride [.id 4, .id 4]) = .ok ix ∧ Table.ofIndex ix = .ok t ∧
        (∃ f, check t = .error f) ∧ ∃ id place, t.Repeats id place ∨ t.Contradicts id place := by
  constructor
  · have hrun : ((groupedStride [.id 4]).validate {}).toOption.any (fun t =>
        decide (t.timesApplied 4 none .arrayStride = 1 ∧ t.literal? 4 .arrayStride = some 4)) =
          true := by
      decide +kernel
    obtain ⟨t, ht, hq⟩ := exists_of_any hrun
    exact ⟨t, ht, unambiguous_and_caught.1 _ _ t ht, of_decide_eq_true hq⟩
  · have hrun : ((groupedStride [.id 4, .id 4]).context {}).toOption.any (fun cx =>
        !(check cx.table).isOk) = true := by
      decide +kernel
    obtain ⟨cx, hcx, hq⟩ := exists_of_any hrun
    obtain ⟨ix, t, hix, ht, rfl⟩ := Module.context_eq_ok.1 hcx
    have hfails : ∃ f, check t = .error f := by
      cases hc : check t with
      | error f => exact ⟨f, rfl⟩
      | ok _ =>
        rw [hc] at hq
        cases hq
    exact ⟨ix, t, hix, ht, hfails, (unambiguous_and_caught.2 ix t ht).1 hfails⟩

end Repetition

end SpirvRules
