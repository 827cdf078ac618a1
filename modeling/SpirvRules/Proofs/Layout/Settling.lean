import Mathlib.Data.UInt
import SpirvRules.Proofs.Layout.Canonical

/-!
# What canonical layouts measure

The alignment and the size in a derivation are what is measured of the type, in as much room as the
type has levels. All are small but the sizes of arrays and structs, which a word has to hold.
-/

set_option autoImplicit false

namespace SpirvRules

open Quantity

def Quantity.Settles (ix : Index) (t : Table) (q : Quantity) (r : Nat) : Prop :=
  ∃ v : UInt32, v.toNat = r ∧ q.Value ix t v ∧
    ∀ n, ix.isShallow n q.type → Rule.plain (rule ix t) n q = .ok v

namespace Quantity

variable {ix : Index} {t : Table} {q p : Quantity} {id col : Id} {c : Constraints}
variable {r s b : Nat} {n : UInt32}

/-- A quantity with parts settles when they do, one level down. -/
theorem settles_of_parts (vs : List UInt32) (hr : ((rule ix t q).combine vs).toNat = r)
    (hvs : List.Forall₂ (fun p v => p.Value ix t v ∧
      ∀ n, ix.isShallow (n + 1) q.type → Rule.plain (rule ix t) n p = .ok v)
      (rule ix t q).parts vs) : Settles ix t q r := by
  refine ⟨_, hr, Rule.value_iff.2 ⟨vs, hvs.imp fun _ _ h => h.1, rfl⟩, fun n hn => ?_⟩
  cases n with
  | zero => cases hn
  | succ n => exact Rule.plain_succ_eq_ok.2 ⟨vs, hvs.imp fun _ _ h => h.2 n hn, rfl⟩

theorem settles_fixed {v : UInt32} (h : rule ix t q = .fixed v) (hr : v.toNat = r) :
    Settles ix t q r := by
  apply settles_of_parts []
  · rw [h]
    exact hr
  · rw [h]
    exact .nil

theorem settles_single {f : UInt32 → UInt32} (h : rule ix t q = .single p f)
    (hp : Settles ix t p s) (hf : ∀ v : UInt32, v.toNat = s → (f v).toNat = r)
    (hdeep : ∀ n, ix.isShallow (n + 1) q.type → ix.isShallow n p.type) : Settles ix t q r := by
  obtain ⟨v, hv, hvalue, hplain⟩ := hp
  apply settles_of_parts [v]
  · rw [h]
    exact hf v hv
  · rw [h]
    exact .cons ⟨hvalue, fun n hn => hplain n (hdeep n hn)⟩ .nil

theorem number_settles (h : ix.Number id b) (c : Constraints) :
    Settles ix t (.baseAlignment id c true) b ∧ Settles ix t (.size id c) b := by
  obtain ⟨v, s, hv, hs, hw, hb⟩ := h
  have hoctets : (s.width / 8).toNat = b := by
    rw [UInt32.toNat_div, hb]
    simp
  exact ⟨settles_fixed ((number_rules hv hs).2 c true) hoctets,
    settles_fixed (sizeRule_number hv hs c) hoctets⟩

theorem toNat_mulSat_of_le {v w : UInt32} (h : v.toNat * w.toNat ≤ 1000) :
    (Word.mulSat v w).toNat = v.toNat * w.toNat := by
  rw [Word.toNat_mulSat]
  omega

theorem le_of_mem_uniformAlignments {a : Nat} (h : a ∈ uniformAlignments) : a ≤ 32 := by
  have hall : ∀ a ∈ uniformAlignments, a ≤ 32 := by decide
  exact hall a h

theorem toNat_aggregate {v : UInt32} (h : v.toNat ∈ uniformAlignments) :
    (aggregate true v).toNat = Word.ceil v.toNat 16 := by
  have hle := le_of_mem_uniformAlignments (ceil_mem_uniformAlignments h)
  rw [aggregate, if_pos rfl, Word.toNat_roundUp, show (16 : UInt32).toNat = 16 from rfl]
  omega

theorem vector_settles (h : ix.ShortVector id b n) (c : Constraints) :
    Settles ix t (.baseAlignment id c true) (b * (spread n).toNat) ∧
      Settles ix t (.size id c) (b * n.toNat) := by
  obtain ⟨e, hv, hn, he⟩ := h
  have hspread := le_of_mem_uniformAlignments (mul_spread_mem he.mem hn)
  have hle := Nat.mul_le_mul_left b (count_bounds hn).2.2
  obtain ⟨hbase, hsize⟩ := number_settles (t := t) he c
  constructor
  · refine settles_single (p := .baseAlignment e c true) (by simp [rule, baseRule, hv]; rfl) hbase
      (fun v hvb => ?_) (Index.isShallow_component hv)
    rw [toNat_mulSat_of_le (by rw [hvb]; omega), hvb]
  · refine settles_single (p := .size e c) (by simp [rule, sizeRule, hv]; rfl) hsize
      (fun v hvb => ?_) (Index.isShallow_component hv)
    rw [toNat_mulSat_of_le (by rw [hvb]; omega), hvb]

/-- Where nothing says the opposite, what a member says first of its majorness stays said. -/
theorem rowMajor_foldl (ds : List Decoration) (c : Constraints) :
    ((ds.any (·.kind = .colMajor)) = false →
      (ds.foldl .apply c).rowMajor = (c.rowMajor || ds.any (·.kind = .rowMajor))) ∧
    ((ds.any (·.kind = .rowMajor)) = false → c.rowMajor = false →
      (ds.foldl .apply c).rowMajor = false) := by
  induction ds generalizing c with
  | nil => simp
  | cons d ds ih =>
    constructor
    · intro h
      simp only [List.any_cons, Bool.or_eq_false_iff, decide_eq_false_iff_not] at h
      rw [List.foldl_cons, (ih _).1 h.2, List.any_cons]
      unfold Constraints.apply
      split <;> simp_all
    · intro h hc
      simp only [List.any_cons, Bool.or_eq_false_iff, decide_eq_false_iff_not] at h
      rw [List.foldl_cons]
      apply (ih _).2 h.2
      unfold Constraints.apply
      split <;> simp_all

theorem rowMajor_of_stores {x : Id} {k stride : Nat} {r : Bool} (h : t.Stores x k r stride) :
    (t.constraints x k).rowMajor = r := by
  obtain ⟨hfree, hset⟩ := rowMajor_foldl (t.memberDecorations x k) {}
  cases r with
  | true => exact (hfree h.col).trans h.row
  | false => exact hset h.row rfl

section Matrix

variable {x : Id} {k : Nat} {rows : UInt32} (hv : ix.type? id = some (.matrix col n))
variable (hn : n ∈ [2, 3, 4]) (hcol : ix.ShortVector col b rows)

include hv hn hcol

theorem rowMajor_settles (hs : t.Stores x k true (matrixAlignment b n rows true)) :
    Settles ix t (.baseAlignment id (t.constraints x k) true) (matrixAlignment b n rows true) ∧
      Settles ix t (.size id (t.constraints x k))
        (matrixSize b n rows true (matrixAlignment b n rows true)) := by
  have hrow := rowMajor_of_stores hs
  obtain ⟨e, hce, hrows, he⟩ := hcol
  have hspread := mul_spread_mem he.mem hn
  have hsmall := le_of_mem_uniformAlignments hspread
  have hle := le_of_mem_uniformAlignments (matrixAlignment_mem he.mem hn hrows true)
  have hrowCount := (count_bounds hrows).2.1
  obtain ⟨hbase, hsize⟩ := number_settles (t := t) he (t.constraints x k)
  constructor
  · refine settles_single (p := .baseAlignment e (t.constraints x k) true)
      (by simp [rule, baseRule, hv, hrow, column, hce]; rfl) hbase (fun v hvb => ?_)
      (Index.isShallow_cell hv hce)
    have hmul : (Word.mulSat v (spread n)).toNat = b * (spread n).toNat := by
      rw [toNat_mulSat_of_le (by rw [hvb]; omega), hvb]
    rw [toNat_aggregate (by rwa [hmul]), hmul]
    rfl
  · refine settles_single (p := .size e (t.constraints x k))
      (by simp [rule, sizeRule, hv, hrow, column, hce]; rfl) hsize (fun v hvb => ?_)
      (Index.isShallow_cell hv hce)
    have hcells : n.toNat * b ≤ b * (spread n).toNat := by
      rw [Nat.mul_comm]
      exact Nat.mul_le_mul_left b (count_bounds hn).2.2
    have hgaps : (rows.toNat - 1) * matrixAlignment b n rows true ≤ 128 :=
      Nat.mul_le_mul (by omega : rows.toNat - 1 ≤ 4) hle
    rw [toNat_strided, toNat_mulSat_of_le (by rw [hvb]; omega), hvb, hs.stride]
    simp only [matrixSize, if_true]
    omega

theorem colMajor_settles (hs : t.Stores x k false (matrixAlignment b n rows false)) :
    Settles ix t (.baseAlignment id (t.constraints x k) true) (matrixAlignment b n rows false) ∧
      Settles ix t (.size id (t.constraints x k))
        (matrixSize b n rows false (matrixAlignment b n rows false)) := by
  have hrow := rowMajor_of_stores hs
  obtain ⟨hbase, _⟩ := vector_settles (t := t) hcol (t.constraints x k)
  obtain ⟨_, _, hrows, he⟩ := hcol
  have hspread := mul_spread_mem he.mem hrows
  have hle := le_of_mem_uniformAlignments (matrixAlignment_mem he.mem hn hrows false)
  constructor
  · refine settles_single (p := .baseAlignment col (t.constraints x k) true)
      (by simp [rule, baseRule, hv, hrow]; rfl) hbase (fun v hvb => ?_) (Index.isShallow_column hv)
    rw [toNat_aggregate (by rwa [hvb]), hvb]
    rfl
  · refine settles_fixed (v := Word.mulSat n (t.constraints x k).matrixStride)
      (by simp [rule, sizeRule, hv, hrow]) ?_
    have hwhole : n.toNat * matrixAlignment b n rows false ≤ 128 :=
      Nat.mul_le_mul (count_bounds hn).2.1 hle
    rw [toNat_mulSat_of_le (by rw [hs.stride]; omega), hs.stride]
    rfl

theorem matrix_settles {r : Bool} (hs : t.Stores x k r (matrixAlignment b n rows r)) :
    Settles ix t (.baseAlignment id (t.constraints x k) true) (matrixAlignment b n rows r) ∧
      Settles ix t (.size id (t.constraints x k))
        (matrixSize b n rows r (matrixAlignment b n rows r)) := by
  cases r with
  | true => exact rowMajor_settles hv hn hcol hs
  | false => exact colMajor_settles hv hn hcol hs

end Matrix

theorem toNat_foldl_max {α : Type} (l : List α) (f : α → Nat) (v : UInt32)
    (h : ∀ x ∈ l, f x < 0x100000000) :
    ((l.map fun x => UInt32.ofNat (f x)).foldl max v).toNat = (l.map f).foldl max v.toNat := by
  induction l generalizing v with
  | nil => rfl
  | cons x l ih =>
    rw [List.map_cons, List.foldl_cons, ih _ fun y hy => h y (by simp [hy]), List.map_cons,
      List.foldl_cons, UInt32.toNat_max, UInt32.toNat_ofNat_of_lt' (h x (by simp))]

theorem struct_base_settles {ms : List Operand} {p : Nat → Span}
    (hv : ix.type? id = some (.struct ms))
    (hmem : ∀ j m, (ix.members id)[j]? = some m → (p j).alignment ∈ uniformAlignments)
    (hm : ∀ j m, (ix.members id)[j]? = some m →
      Settles ix t (.baseAlignment m (t.constraints id j) true) (p j).alignment) :
    Settles ix t (.baseAlignment id c true) (Word.ceil (largest (ix.members id) p) 16) := by
  have hrule : rule ix t (.baseAlignment id c true) =
      ⟨(ix.members id).zipIdx.map fun x => .baseAlignment x.1 (t.constraints id x.2) true,
        fun vs => aggregate true (vs.foldl max 1)⟩ := by
    rw [base_struct hv, Index.members_eq hv]
  have hsmall : ∀ x ∈ (ix.members id).zipIdx, (p x.2).alignment < 0x100000000 := by
    intro x hx
    have hle := le_of_mem_uniformAlignments
      (hmem x.2 x.1 (List.mk_mem_zipIdx_iff_getElem?.1 hx))
    omega
  have hfold : (((ix.members id).zipIdx.map fun x => UInt32.ofNat (p x.2).alignment).foldl max
      1).toNat = largest (ix.members id) p := toNat_foldl_max _ _ 1 hsmall
  apply settles_of_parts ((ix.members id).zipIdx.map fun x => UInt32.ofNat (p x.2).alignment)
  · rw [hrule]
    dsimp only
    rw [toNat_aggregate (by rw [hfold]; exact largest_mem_uniform hmem), hfold]
  · rw [hrule]
    dsimp only
    rw [List.forall₂_map_left_iff, List.forall₂_map_right_iff, List.forall₂_same]
    rintro ⟨m, j⟩ hx
    have hj := List.mk_mem_zipIdx_iff_getElem?.1 hx
    obtain ⟨v, hv', hvalue, hplain⟩ := hm j m hj
    have hword : v = UInt32.ofNat (p j).alignment := by rw [← hv', UInt32.ofNat_toNat]
    subst hword
    exact ⟨hvalue, fun n hn => hplain n (Index.isShallow_member hj n hn)⟩

end Quantity

namespace Canonical

variable {ix : Index} {t : Table} {x id : Id} {k a s : Nat}

theorem base_settles (h : Canonical ix t x k id a s) :
    Settles ix t (.baseAlignment id (t.constraints x k) true) a := by
  induction h with
  | number h => exact (number_settles h _).1
  | vector h => exact (vector_settles h _).1
  | matrix hv hn hcol hs => exact (matrix_settles hv hn hcol hs).1
  | @array x id e length k _ a _ _ hv _ _ _ _ he ih =>
    refine settles_single (p := .baseAlignment e (t.constraints x k) true)
      (by simp [rule, baseRule, hv]; rfl) ih (fun v hva => ?_) (Index.isShallow_element hv)
    rw [toNat_aggregate (by rw [hva]; exact he.alignment_mem), hva]
  | struct hv _ _ _ hm ih =>
    exact struct_base_settles hv (fun j m hj => (hm j m hj).alignment_mem) ih

/-- A word holds the length of an array whose size it holds, since no element takes up nothing. -/
theorem length_lt {n stride : Nat} (he : 0 < s) (hs : s ≤ stride)
    (hsize : (n - 1) * stride + s < 0x100000000) : n < 0x100000000 := by
  have hle : (n - 1) * 1 ≤ (n - 1) * stride := Nat.mul_le_mul_left _ (by omega)
  omega

theorem size_settles (h : Canonical ix t x k id a s) (hs : s < 0x100000000) :
    Settles ix t (.size id (t.constraints x k)) s := by
  induction h with
  | number h => exact (number_settles h _).2
  | vector h => exact (vector_settles h _).2
  | matrix hv hn hcol hstores => exact (matrix_settles hv hn hcol hstores).2
  | @array x id e length k n a s stride hv hn hpos hlit hstride he ih =>
    have hle : s ≤ stride.toNat := hstride ▸ Word.le_ceil s _
    obtain ⟨count, hcount, hcount'⟩ := Index.toNat_constant? hn (length_lt he.size_pos hle hs)
    refine settles_single (p := .size e (t.constraints x k)) (f := strided count stride)
      (by simp [rule, sizeRule, hv, hcount, Table.stride, hlit]) (ih (by omega)) (fun v hva => ?_)
      (Index.isShallow_element hv)
    rw [toNat_strided, hcount', hva]
    omega
  | @struct x id k ms p hv hne hids hp hm ih =>
    obtain ⟨last, m, hlen, hlast⟩ := exists_last hv hne hids
    rw [hlen, Nat.add_sub_cancel] at hs ⊢
    obtain ⟨o, ho, hoffset⟩ :=
      Option.map_eq_some_iff.1 (hp.offset last (by rw [length_members hv hids]; omega))
    have hmember := getElem?_members hv hids last
    rw [hlast] at hmember
    refine settles_single (p := .size m (t.constraints id last)) (f := Word.addSat o)
      (by simp [rule, sizeRule, hv, hlen, ho, ← hmember]) (ih last m hlast (by omega))
      (fun v hva => ?_) (Index.isShallow_member hlast)
    rw [Word.toNat_addSat, hoffset, hva]
    omega

end Canonical

end SpirvRules
