import SpirvRules.Proofs.Index.Arrays
import SpirvRules.Proofs.Layout.Measuring
import SpirvRules.Proofs.Layout.Periods
import SpirvRules.Proofs.Validation

/-!
# Alignments divide one another

The alignments a type may be asked to have are powers of two, each a divisor of the next stricter
one; and each is a multiple of all the alignments that are looked at on the way to it.
-/

set_option autoImplicit false

namespace SpirvRules

open Outcome Stateful

def Index.IsAggregate (ix : Index) (id : Id) : Prop :=
  (ix.type? id).any fun v => v.isMatrix || v.isArray || v.isStruct

instance (ix : Index) (id : Id) : Decidable (ix.IsAggregate id) :=
  inferInstanceAs (Decidable (_ = true))

namespace Quantity

variable {ix : Index} {t : Table} {a : UInt32}

theorem sixteen_dvd_aggregate (h : aggregate true a ∈ powers) :
    16 ∣ (aggregate true a).toNat := by
  -- rounding up comes to a multiple of sixteen unless it sticks, and there is no such power
  have htop : (aggregate true a).toNat ≠ 0xFFFFFFFF := by
    have hall : ∀ a ∈ powers, a.toNat ≠ 0xFFFFFFFF := by decide
    exact hall _ h
  have hdvd := Word.dvd_ceil a.toNat (a := 16) (by decide)
  simp only [aggregate, if_true, Word.toNat_roundUp, UInt32.reduceToNat] at htop ⊢
  rwa [Nat.min_eq_left (by omega)]

theorem power_of_mem (h : a ∈ powers) : (∃ k, a.toNat = 2 ^ k) ∧ a.toNat ∣ 128 := by
  have hall : ∀ a ∈ powers, (∃ k ∈ List.range 8, a.toNat = 2 ^ k) ∧ a.toNat ∣ 128 := by decide
  obtain ⟨⟨k, -, hk⟩, hdvd⟩ := hall a h
  exact ⟨⟨k, hk⟩, hdvd⟩

theorem exists_aggregate {id : Id} {c : Constraints} {up : Bool} (h : ix.IsAggregate id)
    (ha : (baseAlignment id c up).Value ix t a) : ∃ w, a = aggregate up w := by
  obtain ⟨vs, -, rfl⟩ := Rule.value_iff.1 ha
  obtain ⟨v, hv, hkind⟩ := (Option.any_eq_true _ _).1 h
  cases v with
  | matrix col n =>
    cases hr : c.rowMajor with
    | true => exact ⟨_, by simp [rule, baseRule, hv, hr, Rule.single]; rfl⟩
    | false => exact ⟨_, by simp [rule, baseRule, hv, hr, Rule.single]; rfl⟩
  | array | runtimeArray | struct => exact ⟨_, by simp [rule, baseRule, hv, Rule.single]; rfl⟩
  | _ => cases hkind

end Quantity

namespace LayoutPolicy

open Quantity

/-- The alignment of `x` is looked at for that of `y`; each is a type under constraints. Members are
under constraints of their own, all else is under those of the whole. A matrix is aligned by its
columns, or by what its rows are made of if it is row major and packing is not scalar. -/
inductive Inside (ix : Index) (t : Table) (p : LayoutPolicy) :
    (x y : Id × Constraints) → Prop where
  | member {id m : Id} {k : Nat} (c : Constraints) :
    (ix.members id)[k]? = some m → Inside ix t p (m, t.constraints id k) (id, c)
  | element {id e : Id} (c : Constraints) : ix.element? id = some e → Inside ix t p (e, c) (id, c)
  | component {id e : Id} {n : UInt32} (c : Constraints) :
    ix.type? id = some (.vector e n) → Inside ix t p (e, c) (id, c)
  | column {id col : Id} {n : UInt32} (c : Constraints) :
    ix.type? id = some (.matrix col n) → p.packing = .scalar ∨ c.rowMajor = false →
    Inside ix t p (col, c) (id, c)
  | row {id col e : Id} {n k : UInt32} (c : Constraints) :
    ix.type? id = some (.matrix col n) → ix.type? col = some (.vector e k) →
    p.packing ≠ .scalar → c.rowMajor = true → Inside ix t p (e, c) (id, c)

variable {ix : Index} {t : Table} {p : LayoutPolicy} {a w : UInt32} {x y : Id × Constraints}

/-- But for the members of a struct, one alignment alone is looked at, and it is not made less. -/
theorem Inside.member_or_single (hl : ix.LegalShapes) (h : Inside ix t p x y) :
    (∃ k, (ix.members y.1)[k]? = some x.1 ∧ x.2 = t.constraints y.1 k) ∨
      ∃ f, rule ix t (p.alignment y.1 y.2) = .single (p.alignment x.1 x.2) f ∧
        ∀ a, a ≤ f a := by
  cases h with
  | member c hm => exact .inl ⟨_, hm, rfl⟩
  | element c he =>
    refine .inr ⟨_, p.alignment_array he, fun a => ?_⟩
    split
    · exact UInt32.le_refl a
    · exact le_aggregate a _
  | component c hv =>
    refine .inr ⟨_, p.alignment_vector hv, fun a => ?_⟩
    split
    · exact UInt32.le_refl a
    · exact le_mulSat_spread (hl.vector _ _ _ hv).1 a
  | column c hv h =>
    refine .inr ⟨_, p.alignment_columns hv h, fun a => ?_⟩
    split
    · exact UInt32.le_refl a
    · exact le_aggregate a _
  | row c hv hcol hp hr =>
    refine .inr ⟨_, p.alignment_rows hv hcol hp hr, fun a => ?_⟩
    exact UInt32.le_trans (le_mulSat_spread (hl.columns hv) a) (le_aggregate _ _)

theorem Inside.isPart (hl : ix.LegalShapes) (h : Inside ix t p x y) :
    Rule.IsPart (rule ix t) (p.alignment x.1 x.2) (p.alignment y.1 y.2) := by
  rcases h.member_or_single hl with ⟨k, hm, hc⟩ | ⟨f, hrule, -⟩
  · rw [hc]
    exact p.mem_parts_of_member hm
  · rw [Rule.IsPart, hrule]
    exact List.mem_cons_self

theorem Inside.le (hl : ix.LegalShapes) (h : Inside ix t p x y)
    (hw : (p.alignment x.1 x.2).Value ix t w) (ha : (p.alignment y.1 y.2).Value ix t a) :
    w ≤ a := by
  rcases h.member_or_single hl with ⟨k, hm, hc⟩ | ⟨f, hrule, hf⟩
  · obtain ⟨v, hv, hle⟩ := p.exists_member_le hm ha
    rw [hc] at hw
    rwa [hw.unique hv]
  · obtain ⟨v, hv, rfl⟩ := (Rule.value_single hrule).1 ha
    rw [hw.unique hv]
    exact hf v

def Divides (ix : Index) (t : Table) (p : LayoutPolicy) (x : Id × Constraints) (a : UInt32) :
    Prop :=
  (∃ w, Gives ix t (p.alignment x.1 x.2) w) ∧
    ∀ w, Gives ix t (p.alignment x.1 x.2) w → w.toNat ∣ a.toNat

theorem Inside.divides (hl : ix.LegalShapes) (h : Inside ix t p x y)
    (ha : Gives ix t (p.alignment y.1 y.2) a) : Divides ix t p x a := by
  refine ⟨ha.part (h.isPart hl), fun w hw => ?_⟩
  exact dvd_of_mem_of_le (p.alignment_mem hl hw.value) (p.alignment_mem hl ha.value)
    (h.le hl hw.value ha.value)

theorem divides_of_inside (hl : ix.LegalShapes) (h : Relation.TransGen (Inside ix t p) x y)
    (ha : Gives ix t (p.alignment y.1 y.2) a) : Divides ix t p x a := by
  induction h using Relation.TransGen.head_induction_on with
  | single h => exact h.divides hl ha
  | head h _ ih =>
    obtain ⟨⟨w, hw⟩, hdvd⟩ := ih
    obtain ⟨hgives, hdvd'⟩ := h.divides hl hw
    exact ⟨hgives, fun v hv => (hdvd' v hv).trans (hdvd w hw)⟩

end LayoutPolicy

namespace Quantity

variable {ix : Index} {t : Table} {id : Id} {c : Constraints} {s b r : UInt32}

/-- Where queries for them succeed, the alignment of the largest number in a type, its base
alignment and its base alignment rounded up are powers of two up to 128, each a divisor of the next;
aggregates are rounded up to sixteen; and under every policy the alignment of a type is a multiple
of all the alignments inside it, each of which is given too. -/
theorem alignments_divide (hl : ix.LegalShapes) (hs : Gives ix t (.scalarAlignment id) s)
    (hb : Gives ix t (.baseAlignment id c false) b)
    (hr : Gives ix t (.baseAlignment id c true) r) :
    (∀ a ∈ [s, b, r], (∃ k, a.toNat = 2 ^ k) ∧ a.toNat ∣ 128) ∧
      s.toNat ∣ b.toNat ∧ b.toNat ∣ r.toNat ∧ (ix.IsAggregate id → 16 ∣ r.toNat) ∧
      ∀ (p : LayoutPolicy) a, Gives ix t (p.alignment id c) a →
        ∀ x, Relation.TransGen (p.Inside ix t) x (id, c) → p.Divides ix t x a := by
  have hs' := scalar_mem hl hs.value
  have hb' := base_mem hl hb.value
  have hr' := base_mem hl hr.value
  refine ⟨fun a ha => power_of_mem ?_, ?_, ?_, fun haggregate => ?_, fun p a ha x hx => ?_⟩
  · simp only [List.mem_cons, List.not_mem_nil, or_false] at ha
    rcases ha with rfl | rfl | rfl
    · exact hs'
    · exact hb'
    · exact hr'
  · exact dvd_of_mem_of_le hs' hb' ((Looser.scalar id c false).le hl hs.value hb.value)
  · exact dvd_of_mem_of_le hb' hr' ((Looser.storage id c).le hl hb.value hr.value)
  · obtain ⟨w, rfl⟩ := exists_aggregate haggregate hr.value
    exact sixteen_dvd_aggregate hr'
  · exact LayoutPolicy.divides_of_inside hl hx ha

def rowMajorBlock : Module where
  annotations := [.decorating 7 .block [], .placing 7 0 0, .placing 7 1 64,
    ⟨.opMemberDecorate, none, none, [.id 7, .literal 0, .decoration .rowMajor]⟩,
    ⟨.opMemberDecorate, none, none, [.id 7, .literal 0, .decoration .matrixStride, .literal 8]⟩,
    .decorating 6 .arrayStride [.literal 32]]
  globals := [.declaring .opTypeFloat 1 [.literal 32],
    .declaring .opTypeVector 2 [.id 1, .literal 4],
    .declaring .opTypeMatrix 3 [.id 2, .literal 2],
    .declaring .opTypeInt 4 [.literal 32, .literal 0],
    ⟨.opConstant, some 4, some 5, [.literal 2]⟩,
    .declaring .opTypeArray 6 [.id 3, .id 5],
    .declaring .opTypeStruct 7 [.id 6, .id 1]]

theorem alignments_divide_rowMajorBlock :
    ∃ cx, rowMajorBlock.context {} = .ok cx ∧ cx.index.LegalShapes ∧
      Gives cx.index cx.table (.scalarAlignment 7) 4 ∧
      Gives cx.index cx.table (.baseAlignment 7 {} false) 8 ∧
      Gives cx.index cx.table (.baseAlignment 7 {} true) 16 ∧
      (4 ∣ 8 ∧ 8 ∣ 16) ∧ cx.index.IsAggregate 7 ∧
      LayoutPolicy.Divides cx.index cx.table ⟨.storage, .standard⟩
        (1, cx.table.constraints 7 0) 8 := by
  have hrun : (rowMajorBlock.context {}).toOption.any (fun cx =>
      decide (cx.index.LegalShapes ∧ cx.index.IsAggregate 7 ∧
        (cx.index.members 7)[0]? = some 6 ∧ cx.index.element? 6 = some 3 ∧
        cx.index.type? 3 = some (.matrix 2 2) ∧ cx.index.type? 2 = some (.vector 1 4) ∧
        (cx.table.constraints 7 0).rowMajor = true ∧
        (run (measure cx.index cx.table (.scalarAlignment 7)) ∅).1 = .ok 4 ∧
        (run (measure cx.index cx.table (.baseAlignment 7 {} false)) ∅).1 = .ok 8 ∧
        (run (measure cx.index cx.table (.baseAlignment 7 {} true)) ∅).1 = .ok 16)) = true := by
    decide +kernel
  obtain ⟨cx, hcx, hq⟩ := exists_of_any hrun
  obtain ⟨hl, haggregate, hmember, helement, hmatrix, hcolumn, hrow, hs, hb, hr⟩ :=
    of_decide_eq_true hq
  have hs : Gives cx.index cx.table (.scalarAlignment 7) 4 := ⟨[], hs⟩
  have hb : Gives cx.index cx.table (.baseAlignment 7 {} false) 8 := ⟨[], hb⟩
  have hr : Gives cx.index cx.table (.baseAlignment 7 {} true) 16 := ⟨[], hr⟩
  obtain ⟨-, hsb, hbr, -, hinside⟩ := alignments_divide hl hs hb hr
  let p : LayoutPolicy := ⟨.storage, .standard⟩
  -- from a row through its matrix and the array to the block
  have hchain : Relation.TransGen (p.Inside cx.index cx.table)
      (1, cx.table.constraints 7 0) (7, {}) :=
    .head (.row _ hmatrix hcolumn (by decide) hrow)
      (.head (.element _ helement) (.single (.member {} hmember)))
  exact ⟨cx, hcx, hl, hs, hb, hr, ⟨hsb, hbr⟩, haggregate, hinside p 8 hb _ hchain⟩

end Quantity

end SpirvRules
