import SpirvRules.Proofs.Layout.Explicitness
import SpirvRules.Proofs.Layout.Periods
import SpirvRules.Proofs.Layout.Settling
import SpirvRules.Proofs.Rule.Repetition

/-!
# Strides of matrices

A matrix stride has to be a multiple of what the member with the matrix is aligned to, and nothing
else is asked of it. Where vectors are aligned as a whole, a multiple other than zero is as long as
a column, or as a row of a row-major matrix. Zero is a multiple too; and under scalar packing the
member is aligned to a single number, so columns and rows may overlap.
-/

set_option autoImplicit false

namespace SpirvRules

open Outcome Stateful

def Index.octets (ix : Index) (id : Id) : Nat :=
  ((ix.type? id).bind TypeView.scalarShape?).elim 0 fun s => s.width.toNat / 8

/-- The matrix stride a member states, zero if it states none. -/
def Table.matrixStride (t : Table) (struct : Id) (member : Nat) : UInt32 :=
  (t.memberLiteral? struct member .matrixStride).getD 0

section Constraints

variable {rs : List Record} {struct : Id} {member : Nat}

theorem matrixStride_foldl {ds : List Decoration} {v : UInt32} {c : Constraints}
    (hds : ∀ d ∈ ds, d.kind = .matrixStride → d.literal?.getD 0 = v)
    (hc : c.matrixStride = v ∨ ∃ d ∈ ds, d.kind = .matrixStride) :
    (ds.foldl .apply c).matrixStride = v := by
  induction ds generalizing c with
  | nil => exact hc.resolve_right (by simp)
  | cons d ds ih =>
    rw [List.foldl_cons]
    apply ih fun e he => hds e (by simp [he])
    by_cases hd : d.kind = .matrixStride
    · left
      rw [Constraints.apply, hd]
      exact hds d (by simp) hd
    · rcases hc with hc | ⟨e, he, hk⟩
      · left
        rw [← hc]
        unfold Constraints.apply
        split <;> first
          | rfl
          | exact absurd ‹_› hd
      · right
        rcases List.mem_cons.1 he with rfl | he
        · exact absurd hk hd
        · exact ⟨e, he, hk⟩

theorem Table.Unambiguous.not_both (h : (ofRecords rs).Unambiguous) :
    ¬((ofRecords rs).memberHas struct member .rowMajor ∧
      (ofRecords rs).memberHas struct member .colMajor) := by
  rintro ⟨hrow, hcol⟩
  exact h.consistent struct (some member) ⟨(.rowMajor, .colMajor), by simp,
    timesApplied_pos.2 (memberHas_ofRecords.1 hrow),
    timesApplied_pos.2 (memberHas_ofRecords.1 hcol)⟩

theorem Table.Unambiguous.ordered (h : (ofRecords rs).Unambiguous)
    (hone : (ofRecords rs).memberHas struct member .rowMajor ∨
      (ofRecords rs).memberHas struct member .colMajor) :
    (ofRecords rs).memberHas struct member .rowMajor ≠
      (ofRecords rs).memberHas struct member .colMajor := by
  intro heq
  rw [heq, or_self] at hone
  exact h.not_both ⟨heq.trans hone, hone⟩

theorem Table.Unambiguous.rowMajor (h : (ofRecords rs).Unambiguous) :
    ((ofRecords rs).constraints struct member).rowMajor =
      (ofRecords rs).memberHas struct member .rowMajor := by
  obtain ⟨hfree, hset⟩ :=
    Quantity.rowMajor_foldl ((ofRecords rs).memberDecorations struct member) {}
  cases hrow : (ofRecords rs).memberHas struct member .rowMajor with
  | false => exact hset hrow rfl
  | true =>
    have hcol : (ofRecords rs).memberHas struct member .colMajor = false :=
      eq_false_of_ne_true fun hcol => h.not_both ⟨hrow, hcol⟩
    exact (hfree hcol).trans (by rw [← hrow]; rfl)

theorem Table.Unambiguous.stride (h : (ofRecords rs).Unambiguous) :
    ((ofRecords rs).constraints struct member).matrixStride =
      (ofRecords rs).matrixStride struct member := by
  have hanswer : ∀ d ∈ (ofRecords rs).memberDecorations struct member,
      d.kind = .matrixStride → d.literal?.getD 0 = (ofRecords rs).matrixStride struct member := by
    intro d hd hk
    rw [memberDecorations, List.mem_filter, mem_decorations_ofRecords, decide_eq_true_eq] at hd
    rw [matrixStride, ← h.answered struct (some member) .matrixStride (by simp) d hd.1 hd.2 hk]
    rfl
  refine matrixStride_foldl hanswer ?_
  by_cases hany : ∃ d ∈ (ofRecords rs).memberDecorations struct member, d.kind = .matrixStride
  · exact .inr hany
  · left
    have hnone : (ofRecords rs).memberLiteral? struct member .matrixStride = none := by
      rw [memberLiteral?, Option.bind_eq_none_iff]
      intro d hd
      exact absurd ⟨d, List.mem_of_find?_eq_some hd,
        of_decide_eq_true (List.find?_some hd :)⟩ hany
    rw [matrixStride, hnone]
    rfl

theorem Table.Unambiguous.constraints (h : (ofRecords rs).Unambiguous) :
    (ofRecords rs).constraints struct member =
      ⟨(ofRecords rs).memberHas struct member .rowMajor,
        (ofRecords rs).matrixStride struct member⟩ := by
  rw [← h.rowMajor, ← h.stride]

end Constraints

namespace LayoutPolicy

open Quantity

variable {ix : Index} {t : Table} {p : LayoutPolicy} {v x col e : Id} {c : Constraints}
variable {a rows columns : UInt32}

/-- What is left of a type without some of its arrays is aligned to a divisor of its alignment. -/
theorem exists_stripped_dvd (hl : ix.LegalShapes) (hx : ix.Strips v x)
    (ha : (p.alignment v c).Value ix t a) :
    ∃ w, (p.alignment x c).Value ix t w ∧ w.toNat ∣ a.toNat := by
  induction hx with
  | refl => exact ⟨a, ha, Nat.dvd_refl _⟩
  | tail _ he ih =>
    obtain ⟨b, hb, hdvd⟩ := ih
    obtain ⟨w, hw, hle⟩ := p.exists_element_le he hb
    exact ⟨w, hw, (dvd_of_mem_of_le (p.alignment_mem hl hw) (p.alignment_mem hl hb) hle).trans hdvd⟩

theorem octets_of_flat {s : UInt32} {b : Bool → Bool → UInt32} (h : ix.IsNumber e)
    (hs : Flat ix t e s b) : ix.octets e = s.toNat := by
  obtain ⟨view, shape, hv, hshape⟩ := h
  have heq : shape.width / 8 = s := (hs.scalar _).1 ((Rule.value_fixed (number_rules (t := t) hv
    hshape).1).2 rfl)
  simp [Index.octets, hv, hshape, ← heq, UInt32.toNat_div]

/-- A matrix is aligned to whole numbers and, unless packing is scalar, is aligned to no less than a
column takes up, or a row in a row-major matrix. -/
theorem alignment_matrix (hl : ix.LegalShapes) (hx : ix.type? x = some (.matrix col columns))
    (hcol : ix.type? col = some (.vector e rows)) (ha : (p.alignment x c).Value ix t a) :
    ix.octets e ∣ a.toNat ∧ (p.packing ≠ .scalar →
      (if c.rowMajor then columns else rows).toNat * ix.octets e ≤ a.toNat) := by
  obtain ⟨hrows, he⟩ := hl.vector col e rows hcol
  obtain ⟨s, hs, hflat, hcolumn⟩ := flat_vector (t := t) hl hcol
  rw [octets_of_flat he hflat]
  have hall : ∀ s ∈ units, ∀ n ∈ [2, 3, 4, 8, 16], ∀ up,
      s.toNat ∣ (aggregate up (Word.mulSat s (spread n))).toNat ∧
        n.toNat * s.toNat ≤ (aggregate up (Word.mulSat s (spread n))).toNat := by decide
  unfold alignment at ha
  split at ha
  · next hscalar =>
    rw [scalar_single (e := col) (by simp [scalarRule, hx]), hcolumn.scalar] at ha
    exact ⟨by rw [ha], fun h => absurd hscalar h⟩
  · cases hr : c.rowMajor with
    | true =>
      rw [base_single (e := e) (f := fun a => aggregate (p.rules = .uniform)
        (Word.mulSat a (spread columns))) (by simp [baseRule, hx, hr, column, hcol])] at ha
      obtain ⟨w, hw, rfl⟩ := ha
      rw [(hflat.base _ _ _).1 hw]
      have hbound := hall s hs columns (hl.columns hx) (p.rules = .uniform)
      exact ⟨hbound.1, fun _ => hbound.2⟩
    | false =>
      rw [base_single (e := col) (f := aggregate (p.rules = .uniform))
        (by simp [baseRule, hx, hr])] at ha
      obtain ⟨w, hw, rfl⟩ := ha
      rw [(hcolumn.base _ _ _).1 hw]
      have hbound := hall s hs rows hrows (p.rules = .uniform)
      exact ⟨hbound.1, fun _ => hbound.2⟩

/-- A stride that fits the alignment of the member is of whole numbers and, unless packing is scalar
or it is zero, no shorter than a column, or than a row in a row-major matrix. -/
theorem stride_of_isAligned (hl : ix.LegalShapes) (hv : ix.Strips v x)
    (hx : ix.type? x = some (.matrix col columns)) (hcol : ix.type? col = some (.vector e rows))
    (ha : (p.alignment v c).Value ix t a) (hfit : Word.isAligned c.matrixStride a = true) :
    ix.octets e ∣ c.matrixStride.toNat ∧ (p.packing ≠ .scalar → c.matrixStride ≠ 0 →
      (if c.rowMajor then columns else rows).toNat * ix.octets e ≤ c.matrixStride.toNat) := by
  obtain ⟨w, hw, hdvd⟩ := exists_stripped_dvd hl hv ha
  obtain ⟨hwhole, hlong⟩ := alignment_matrix hl hx hcol hw
  have hstride : w.toNat ∣ c.matrixStride.toNat :=
    hdvd.trans (((Word.isAligned_iff _ _).1 hfit).resolve_left
      (dvd_256_of_mem (p.alignment_mem hl ha)).1)
  refine ⟨hwhole.trans hstride, fun hpacking hne => ?_⟩
  have hpos : 0 < c.matrixStride.toNat :=
    Nat.pos_of_ne_zero fun h0 => hne (UInt32.toNat_inj.1 h0)
  exact Nat.le_trans (hlong hpacking) (Nat.le_of_dvd hpos hstride)

end LayoutPolicy

namespace Walk

variable {ix : Index} {t : Table} {u : BlockUse} {p : LayoutPolicy} {M : Id → Nat → Prop}

def StridesFit (ix : Index) (t : Table) (p : LayoutPolicy) (struct : Id) : Prop :=
  ∀ k v x, (ix.members struct)[k]? = some v → ix.Strips v x →
    (ix.type? x).any TypeView.isMatrix →
      ∃ a, (p.alignment v (t.constraints struct k)).Value ix t a ∧
        Word.isAligned (t.constraints struct k).matrixStride a = true

def FitBelow (ix : Index) (t : Table) (p : LayoutPolicy) (id : Id) : Prop :=
  ∀ s, ix.Reaches id s → StridesFit ix t p s

def SiteFit (ix : Index) (t : Table) (u : BlockUse) : Site → Prop
  | .struct id _ => (ix.type? id).any TypeView.isStruct → FitBelow ix t u.policy id
  | .array h id _ => (ix.element? id).isSome → FitBelow ix t u.policy id ∧
    ∀ x, ix.Strips id x → (ix.type? x).any TypeView.isMatrix →
      Word.isAligned h.constraints.matrixStride h.alignment = true

def VisitFit (ix : Index) (t : Table) (v : Visit) : Prop :=
  (ix.type? v.struct).any TypeView.isStruct → FitBelow ix t v.policy v.struct

theorem fitBelow_of_inner {id : Id} (h : StridesFit ix t p id)
    (hinner : ∀ y ∈ Explicit.inner ix id, FitBelow ix t p y) : FitBelow ix t p id := by
  intro s hs
  rcases Relation.ReflTransGen.cases_head hs with rfl | ⟨y, hy, hys⟩
  · exact h
  · exact hinner y hy s hys

theorem stridesFit_of_not_struct {id : Id} (h : ix.members id = []) : StridesFit ix t p id := by
  intro k v x hv
  simp [h] at hv

theorem fitBelow_of_leaf {id : Id} (he : ix.element? id = none) (hm : ix.members id = []) :
    FitBelow ix t p id := by
  refine fitBelow_of_inner (stridesFit_of_not_struct hm) fun y hy => ?_
  rcases Explicit.mem_inner_iff.1 hy with hy | hy
  · simp [he] at hy
  · simp [hm] at hy

theorem fitBelow_of {id : Id} (hstruct : (ix.type? id).any TypeView.isStruct → FitBelow ix t p id)
    (harray : (ix.element? id).isSome → FitBelow ix t p id) : FitBelow ix t p id := by
  by_cases hs : (ix.type? id).any TypeView.isStruct
  · exact hstruct hs
  · cases he : ix.element? id with
    | some e => exact harray (by simp [he])
    | none =>
      exact fitBelow_of_leaf he
        (Classical.byContradiction fun hne => hs (Index.isStruct_of_members_ne_nil hne))

section Round

variable {id e : Id}

/-- A level of an array fits if its elements do, be they matrices, structs or arrays again. -/
theorem siteFit_of_level {h : Holder} {alignment length : UInt32} (he : ix.element? id = some e)
    (hl : Level ix t u (SiteFit ix t u) h id alignment e length) :
    SiteFit ix t u (.array h id alignment) := by
  obtain ⟨a, _, hdeeper⟩ := hl.deeper
  intro _
  constructor
  · refine fitBelow_of_inner (stridesFit_of_not_struct ?_) fun y hy => ?_
    · rcases Index.element?_eq_some_iff.1 he with ⟨_, hv⟩ | hv <;>
        simp [Index.members, hv, TypeView.memberIds]
    · have hye : y = e := by
        rcases Explicit.mem_inner_iff.1 hy with hy | hy
        · exact Option.some.inj (hy.symm.trans he)
        · obtain ⟨ms, hv⟩ := Index.exists_struct_of_mem_members hy
          cases he.symm.trans (Index.element?_struct hv)
      subst hye
      exact fitBelow_of
        (fun hs => hl.elements hs 0 (zero_mem_elementIndices _ _) hs) fun ha => (hdeeper ha).1
  · intro x hx hmatrix
    rcases Relation.ReflTransGen.cases_head hx with rfl | ⟨y, hy, hyx⟩
    · exact absurd hmatrix (Index.not_isMatrix_of_element he)
    · cases he.symm.trans hy
      by_cases ha : (ix.element? e).isSome
      · exact (hdeeper ha).2 x hyx hmatrix
      · -- the last level, whose elements are the matrices
        rcases Relation.ReflTransGen.cases_head hyx with rfl | ⟨z, hz, _⟩
        · exact Extent.matrixFault?_eq_none.1 hl.matrix hmatrix
        · simp [hz] at ha

theorem stridesFit_of_chain {base : UInt32}
    (hc : Chain ix t u M (SiteFit ix t u) id 0 (Slot.judged ix t id base)) :
    StridesFit ix t u.policy id := by
  intro k v x hv hx hmatrix
  obtain ⟨s, hs, rfl, rfl, _⟩ := Slot.exists_judged (t := t) hv
  have hne : ix.type? s.type ≠ some (.struct []) := by
    intro hempty
    rcases Relation.ReflTransGen.cases_head hx with rfl | ⟨y, hy, _⟩
    · simp [hempty, TypeView.isMatrix] at hmatrix
    · simp [Index.element?_struct hempty] at hy
  obtain ⟨e, he⟩ := hc.extends hs hne
  obtain ⟨_, _, _, hocc⟩ := hc.occupies hs he
  have hm := hocc.measures
  refine ⟨e.alignment, hm.alignment, ?_⟩
  rw [← hm.constraints]
  by_cases harray : (ix.element? s.type).isSome
  · exact (hocc.array harray).2 x hx hmatrix
  · rcases Relation.ReflTransGen.cases_head hx with rfl | ⟨y, hy, _⟩
    · have hfault := (Extent.fault?_eq_none.1 hocc.sound).2.2.2.2
      rw [hm.view] at hfault
      exact Extent.matrixFault?_eq_none.1 hfault hmatrix
    · simp [hy] at harray

theorem siteFit_of_chain {base : UInt32}
    (hc : Chain ix t u M (SiteFit ix t u) id 0 (Slot.judged ix t id base)) :
    SiteFit ix t u (.struct id base) := by
  intro hstruct
  refine fitBelow_of_inner (stridesFit_of_chain hc) fun y hy => ?_
  obtain ⟨ms, hv⟩ := Index.isStruct_iff.1 hstruct
  have hmem : y ∈ ix.members id := by
    rcases Explicit.mem_inner_iff.1 hy with hy | hy
    · simp [Index.element?_struct hv] at hy
    · exact hy
  obtain ⟨k, hk⟩ := List.getElem?_of_mem hmem
  obtain ⟨s, hs, _, rfl, _⟩ := Slot.exists_judged (t := t) hk
  by_cases hempty : ix.type? s.type = some (.struct [])
  · exact fitBelow_of_leaf (Index.element?_struct hempty)
      (by simp [Index.members_eq hempty, TypeView.memberIds])
  · obtain ⟨e, he⟩ := hc.extends hs hempty
    obtain ⟨_, _, _, hocc⟩ := hc.occupies hs he
    refine fitBelow_of (fun hs => ?_) fun ha => (hocc.array ha).1
    exact hocc.nested (by rw [hocc.measures.view]; exact hs) hs

end Round

theorem carries_siteFit :
    Carries ix t u (VisitFit ix t) M (fun _ => True) (SiteFit ix t u) := by
  refine carries_of_found ?struct ?void (fun h id a e he hl => siteFit_of_level he hl)
    fun _ _ => .rfl
  case struct =>
    intro id base hf hstruct
    obtain ⟨ms, hms⟩ := Index.isStruct_iff.1 hstruct
    exact siteFit_of_chain (hf ms hms).2 hstruct
  case void =>
    intro h id a he harray
    simp [he] at harray

end Walk

namespace Buffer

open Walk

variable {m : Module} {o : Options} {t : Table}

/-- What the stride of a member is found to be, where the member holds matrices of so many columns,
each of so many rows of numbers. -/
structure StrideRight (ix : Index) (t : Table) (p : LayoutPolicy) (struct : Id) (member : Nat)
    (columns rows : UInt32) (number : Id) : Prop where
  given : t.memberHas struct member .matrixStride
  ordered : t.memberHas struct member .rowMajor ≠ t.memberHas struct member .colMajor
  whole : ix.octets number ∣ (t.matrixStride struct member).toNat
  column : p.packing ≠ .scalar → t.matrixStride struct member ≠ 0 →
    t.memberHas struct member .colMajor →
      rows.toNat * ix.octets number ≤ (t.matrixStride struct member).toNat
  row : p.packing ≠ .scalar → t.matrixStride struct member ≠ 0 →
    t.memberHas struct member .rowMajor →
      columns.toNat * ix.octets number ≤ (t.matrixStride struct member).toNat

theorem fit_of_accepts {cx : Context} (h : cx.Accepts) {b : Held} {p : LayoutPolicy}
    (hb : Checked cx b) (hk : (cx.table.blockKind? b.struct).isSome)
    (hp : policy? cx b = some p) :
    (∀ n ∈ needs, Explicit.misses cx.index cx.table n b.struct = .ok false) ∧
      FitBelow cx.index cx.table p b.struct := by
  obtain ⟨w, hw⟩ := h.buffers
  have held : ∀ b', Checked cx b' →
      Yields cx.index cx.table (VisitFit cx.index cx.table) (fun _ _ => True) (checkHeld cx b')
        fun _ => ∀ p, policy? cx b' = some p → (cx.table.blockKind? b'.struct).isSome →
          (∀ n ∈ needs, Explicit.misses cx.index cx.table n b'.struct = .ok false) ∧
            ((cx.index.type? b'.struct).any TypeView.isStruct →
              FitBelow cx.index cx.table p b'.struct) :=
    fun b' _ => yields_checkHeld fun _ _ _ hk' => yields_block_explicit hk' carries_siteFit trivial
  have hall := (yields_checkAll held).ok upholds_empty hw fun _ _ => trivial
  obtain ⟨hneeds, hfit⟩ := hall.2 b hb p hp hk
  exact ⟨hneeds, hfit hb.isStruct⟩

theorem strideRight_of_accepts {ix : Index} {rs : List Record}
    (h : Context.Accepts ⟨ix, .ofRecords rs, o⟩) (hl : ix.LegalShapes) {b : Held}
    {p : LayoutPolicy} (hb : Checked ⟨ix, .ofRecords rs, o⟩ b)
    (hk : ((Table.ofRecords rs).blockKind? b.struct).isSome)
    (hp : policy? ⟨ix, .ofRecords rs, o⟩ b = some p) {s v x col e : Id} {k : Nat}
    {columns rows : UInt32} (hs : ix.Reaches b.struct s) (hv : (ix.members s)[k]? = some v)
    (hx : ix.Strips v x) (hmatrix : ix.type? x = some (.matrix col columns))
    (hcol : ix.type? col = some (.vector e rows)) :
    StrideRight ix (.ofRecords rs) p s k columns rows e := by
  have hclear := Repetition.unambiguous_of_check (mapError_eq_ok.1 h.repetition)
  obtain ⟨hneeds, hfit⟩ := fit_of_accepts h hb hk hp
  have meets : ∀ n ∈ needs, n ≠ .arrayStride → Explicit.meets (.ofRecords rs) n s k := by
    intro n hn hne
    have hnone := (Explicit.misses_iff hb.isStruct (hneeds n hn)).not.1 (by simp)
    exact (Explicit.not_wantsBelow_matrix hne).1 hnone s k hs ⟨v, x, col, columns, hv, hx, hmatrix⟩
  obtain ⟨a, ha, haligned⟩ := hfit s hs k v x hv hx (by simp [hmatrix, TypeView.isMatrix])
  obtain ⟨hwhole, hlong⟩ := LayoutPolicy.stride_of_isAligned hl hx hmatrix hcol ha haligned
  rw [hclear.constraints] at hwhole hlong
  have hone := meets .majorness (by simp [needs]) (by decide)
  rw [Explicit.meets, Bool.or_eq_true] at hone
  refine ⟨meets .matrixStride (by simp [needs]) (by decide), hclear.ordered hone, hwhole, ?_, ?_⟩
  · intro hpacking hne hcol'
    have hrow : (Table.ofRecords rs).memberHas s k .rowMajor = false :=
      eq_false_of_ne_true fun hrow => hclear.not_both ⟨hrow, hcol'⟩
    have hbound := hlong hpacking hne
    rwa [hrow] at hbound
  · intro hpacking hne hrow
    have hbound := hlong hpacking hne
    rwa [hrow] at hbound

/-- In a valid module with legal shapes every matrix in a checked block has one majorness and a
stride of whole numbers; unless the stride is zero or packing is scalar, columns of a column-major
matrix do not overlap, and neither do rows of a row-major one. -/
theorem strides_of_validate (h : m.validate o = .ok t) :
    ∃ ix, Index.ofModule m = .ok ix ∧ (ix.LegalShapes → ∀ b p, Checked ⟨ix, t, o⟩ b →
      (t.blockKind? b.struct).isSome → policy? ⟨ix, t, o⟩ b = some p →
      ∀ s k v x col columns e rows, ix.Reaches b.struct s → (ix.members s)[k]? = some v →
        ix.Strips v x → ix.type? x = some (.matrix col columns) →
        ix.type? col = some (.vector e rows) → StrideRight ix t p s k columns rows e) := by
  obtain ⟨_, ix, hix, htable, haccepts⟩ := Module.validate_eq_ok.1 h
  obtain ⟨rs, _, rfl⟩ := Table.ofIndex_eq_ok.1 htable
  exact ⟨ix, hix, fun hl b p hb hk hp s k v x col columns e rows hs hv hx hmatrix hcol =>
    strideRight_of_accepts haccepts hl hb hk hp hs hv hx hmatrix hcol⟩

def matricesBlock (stride : UInt32) : Module where
  annotations := [.decorating 6 .block [], .placing 6 0 0, .placing 5 0 0,
    .decorating 4 .arrayStride [.literal 32],
    ⟨.opMemberDecorate, none, none, [.id 5, .literal 0, .decoration .colMajor]⟩,
    ⟨.opMemberDecorate, none, none,
      [.id 5, .literal 0, .decoration .matrixStride, .literal stride]⟩]
  globals := [.declaring .opTypeFloat 1 [.literal 32],
    .declaring .opTypeVector 2 [.id 1, .literal 4], .declaring .opTypeMatrix 3 [.id 2, .literal 2],
    .declaring .opTypeRuntimeArray 4 [.id 3], .declaring .opTypeStruct 5 [.id 4],
    .declaring .opTypeStruct 6 [.id 5]] ++ Instruction.holding 8 9 6

def showsMatrices (ix : Index) (t : Table) (o : Options) : Bool :=
  decide (((9, .storageBuffer, 6) ∈ (⟨ix, t, o⟩ : Context).globalVariables ∧
    held? ⟨ix, t, o⟩ .storageBuffer 6 = some ⟨6, .storageBuffer⟩ ∧ (t.blockKind? 6).isSome) ∧
    ix.LegalShapes ∧ ix.members 6 = [5] ∧ ix.members 5 = [4] ∧ ix.element? 4 = some 3 ∧
    ix.type? 3 = some (.matrix 2 2) ∧ ix.type? 2 = some (.vector 1 4))

theorem strides_matricesBlock :
    ∃ t ix, (matricesBlock 16).validate {} = .ok t ∧ Index.ofModule (matricesBlock 16) = .ok ix ∧
      t.matrixStride 5 0 = 16 ∧ StrideRight ix t ⟨.storage, .standard⟩ 5 0 2 4 1 := by
  have hrun : bothPass ((matricesBlock 16).validate {}) (Index.ofModule (matricesBlock 16))
      (fun t ix => showsMatrices ix t {} && decide (t.matrixStride 5 0 = 16 ∧
        policy? ⟨ix, t, {}⟩ ⟨6, .storageBuffer⟩ = some ⟨.storage, .standard⟩)) = true := by
    decide +kernel
  obtain ⟨t, ix, ht, hix, hq⟩ := exists_of_bothPass hrun
  obtain ⟨hshows, hq⟩ := Bool.and_eq_true_iff.1 hq
  obtain ⟨hstride, hp⟩ := of_decide_eq_true hq
  obtain ⟨⟨hg, hh, hk⟩, hl, h6, h5, h4, h3, h2⟩ := of_decide_eq_true hshows
  obtain ⟨ix', hix', hall⟩ := strides_of_validate ht
  cases hix.symm.trans hix'
  refine ⟨t, ix, ht, hix, hstride, ?_⟩
  exact hall hl ⟨6, .storageBuffer⟩ _ (.global 9 _ 6 _ hg hh) hk hp 5 0 4 3 2 2 1 4
    (.single (Explicit.mem_inner_iff.2 (.inr (by simp [h6])))) (by simp [h5]) (.single h4) h3 h2

def FallsShort (m : Module) (o : Options) : Prop :=
  o.skipBlockLayout = false ∧ ∃ t ix, m.validate o = .ok t ∧ Index.ofModule m = .ok ix ∧
    ix.LegalShapes ∧ ∃ b, Checked ⟨ix, t, o⟩ b ∧ (t.blockKind? b.struct).isSome ∧
    ∃ s k v x col columns e rows, ix.Reaches b.struct s ∧ (ix.members s)[k]? = some v ∧
      ix.Strips v x ∧ ix.type? x = some (.matrix col columns) ∧
      ix.type? col = some (.vector e rows) ∧ t.memberHas s k .colMajor ∧
      (t.matrixStride s k).toNat < rows.toNat * ix.octets e

theorem fallsShort_of_run {stride : UInt32} {o : Options} (ho : o.skipBlockLayout = false)
    (hrun : bothPass ((matricesBlock stride).validate o) (Index.ofModule (matricesBlock stride))
      (fun t ix => showsMatrices ix t o && decide (t.memberHas 5 0 .colMajor ∧
        (t.matrixStride 5 0).toNat < 4 * ix.octets 1)) = true) :
    FallsShort (matricesBlock stride) o := by
  obtain ⟨t, ix, ht, hix, hq⟩ := exists_of_bothPass hrun
  obtain ⟨hshows, hq⟩ := Bool.and_eq_true_iff.1 hq
  obtain ⟨hcol, hlt⟩ := of_decide_eq_true hq
  obtain ⟨⟨hg, hh, hk⟩, hl, h6, h5, h4, h3, h2⟩ := of_decide_eq_true hshows
  exact ⟨ho, t, ix, ht, hix, hl, ⟨6, .storageBuffer⟩, .global 9 _ 6 _ hg hh, hk,
    5, 0, 4, 3, 2, 2, 1, 4, .single (Explicit.mem_inner_iff.2 (.inr (by simp [h6]))), by simp [h5],
    .single h4, h3, h2, hcol, hlt⟩

/-- A stride of zero passes as a multiple of any alignment, and under scalar packing the stride of a
single number passes. -/
theorem strides_fall_short :
    FallsShort (matricesBlock 0) {} ∧
      FallsShort (matricesBlock 4) { scalarBlockLayout := true } := by
  constructor
  · exact fallsShort_of_run rfl (by decide +kernel)
  · exact fallsShort_of_run rfl (by decide +kernel)

end Buffer

end SpirvRules
