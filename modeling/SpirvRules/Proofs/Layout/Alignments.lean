import SpirvRules.Proofs.Layout.Slots
import SpirvRules.Proofs.Layout.Steps

/-!
# Sizes and alignments

What the size of a type comes to, kind by kind; a size that is not the largest word is exact. In a
module whose numbers, vectors and matrices have legal shapes every alignment is a power of two that
divides 128, and the alignment one policy asks for divides that of a stricter one.
-/

set_option autoImplicit false

namespace SpirvRules.Quantity

variable {ix : Index} {t : Table} {id e length : Id} {c : Constraints} {n k w count : UInt32}

theorem sizeRule_number {v : TypeView} {s : NumericShape} (hv : ix.type? id = some v)
    (hs : v.scalarShape? = some s) (c : Constraints) :
    sizeRule ix t id c = .fixed (s.width / 8) := by
  cases v <;> simp only [TypeView.scalarShape?, Option.some.injEq, reduceCtorEq] at hs
  all_goals
    cases hs
    simp [sizeRule, hv]

theorem size_number {v : TypeView} {s : NumericShape} (hv : ix.type? id = some v)
    (hs : v.scalarShape? = some s) : (size id c).Value ix t n ↔ n = s.width / 8 :=
  Rule.value_fixed (sizeRule_number hv hs c)

theorem size_vector (h : ix.type? id = some (.vector e count)) :
    (size id c).Value ix t n ↔ ∃ s, (size e c).Value ix t s ∧ n = Word.mulSat s count :=
  Rule.value_single (by simp [rule, sizeRule, h])

theorem size_array (h : ix.type? id = some (.array e length)) (hk : ix.constant? length = some k) :
    (size id c).Value ix t n ↔ ∃ s, (size e c).Value ix t s ∧
      n = strided k (t.stride id) s :=
  Rule.value_single (by simp [rule, sizeRule, h, hk])

theorem size_struct {ms : List Operand} {c' : Constraints} (h : ix.type? id = some (.struct ms))
    (hv : (size id c).Value ix t n) : (size id c').Value ix t n := by
  have hrule : rule ix t (size id c) = rule ix t (size id c') := by simp [rule, sizeRule, h]
  rw [Value, Rule.value_iff, hrule] at hv
  exact Rule.value_iff.2 hv

theorem toNat_strided (k stride last : UInt32) :
    (strided k stride last).toNat =
      min (min ((k.toNat - 1) * stride.toNat) 0xFFFFFFFF + last.toNat) 0xFFFFFFFF := by
  simp [strided]

theorem size_numeric {s : NumericShape} (h : ix.numericShape? id = some s)
    (hv : (size id c).Value ix t n) (hn : n.toNat < 0xFFFFFFFF) :
    n.toNat = s.count.toNat * (s.width.toNat / 8) := by
  unfold Index.numericShape? at h
  split at h
  · next e count hx =>
    simp only [Option.bind_eq_bind, Option.bind_eq_some_iff, Option.pure_def,
      Option.some.injEq] at h
    obtain ⟨v, hv', r, hr, rfl⟩ := h
    obtain ⟨a, ha, rfl⟩ := (size_vector hx).1 hv
    rw [(size_number hv' hr).1 ha] at hn ⊢
    rw [Word.toNat_mulSat, UInt32.toNat_div, Nat.mul_comm] at hn ⊢
    simp only [UInt32.reduceToNat] at hn ⊢
    omega
  · next v _ hx =>
    have hcount : s.count = 1 := by
      cases v <;> simp only [TypeView.scalarShape?, Option.some.injEq, reduceCtorEq] at h
      all_goals
        cases h
        rfl
    rw [(size_number hx h).1 hv, hcount, UInt32.toNat_div]
    simp
  · cases h

end SpirvRules.Quantity

namespace SpirvRules

def Index.IsNumber (ix : Index) (id : Id) : Prop :=
  ∃ v s, ix.type? id = some v ∧ v.scalarShape? = some s

/-- Numbers are of 8, 16, 32 or 64 bits, vectors of 2, 3, 4, 8 or 16 numbers, matrices of 2 to 4
vectors. -/
structure Index.LegalShapes (ix : Index) : Prop where
  number : ∀ id v s, ix.type? id = some v → v.scalarShape? = some s → s.width ∈ [8, 16, 32, 64]
  vector : ∀ id e n, ix.type? id = some (.vector e n) → n ∈ [2, 3, 4, 8, 16] ∧
    ix.IsNumber e
  matrix : ∀ id col n, ix.type? id = some (.matrix col n) → n ∈ [2, 3, 4] ∧
    ∃ e k, ix.type? col = some (.vector e k)

namespace Index

variable {ix : Index}

def legalShape (ix : Index) (id : Id) : Bool :=
  match ix.type? id with
  | some (.vector e n) =>
    n ∈ [2, 3, 4, 8, 16] ∧ (ix.type? e).any fun v => v.scalarShape?.isSome
  | some (.matrix col n) => n ∈ [2, 3, 4] ∧ (ix.type? col).any fun v => (v matches .vector ..)
  | some v => v.scalarShape?.all fun s => s.width ∈ [8, 16, 32, 64]
  | none => true

theorem LegalShapes.legalShape (hl : ix.LegalShapes) (id : Id) : ix.legalShape id = true := by
  unfold Index.legalShape
  split
  · next e n hv =>
    obtain ⟨hn, v, s, he, hs⟩ := hl.vector id e n hv
    simp only [he, Option.any_some, hs, Option.isSome_some, decide_eq_true_eq, and_true]
    exact hn
  · next col n hv =>
    obtain ⟨hn, e, k, hcol⟩ := hl.matrix id col n hv
    simp only [hcol, Option.any_some, decide_eq_true_eq, and_true]
    exact hn
  · next v _ _ hv =>
    cases hs : v.scalarShape? with
    | none => rfl
    | some s => exact decide_eq_true (hl.number id v s hv hs)
  · rfl

theorem legalShapes_of_legalShape (h : ∀ id v, ix.type? id = some v → ix.legalShape id = true) :
    ix.LegalShapes := by
  refine ⟨fun id v s hv hs => ?_, fun id e n hv => ?_, fun id col n hv => ?_⟩
  · have hlegal := h id v hv
    cases v <;> simp only [TypeView.scalarShape?, Option.some.injEq, reduceCtorEq] at hs
    all_goals
      rw [legalShape, hv] at hlegal
      cases hs
      exact of_decide_eq_true hlegal
  · have hlegal := h id _ hv
    rw [legalShape, hv] at hlegal
    obtain ⟨hn, he⟩ := of_decide_eq_true hlegal
    obtain ⟨v, hv', hs⟩ := (Option.any_eq_true _ _).1 he
    obtain ⟨s, hs⟩ := Option.isSome_iff_exists.1 hs
    exact ⟨hn, v, s, hv', hs⟩
  · have hlegal := h id _ hv
    rw [legalShape, hv] at hlegal
    obtain ⟨hn, hcol⟩ := of_decide_eq_true hlegal
    obtain ⟨v, hv', hs⟩ := (Option.any_eq_true _ _).1 hcol
    cases v <;> first | exact ⟨hn, _, _, hv'⟩ | cases hs

theorem legalShapes_iff : ix.LegalShapes ↔ ix.defs.keys.all ix.legalShape = true := by
  rw [List.all_eq_true]
  constructor
  · exact fun hl id _ => hl.legalShape id
  · intro h
    exact legalShapes_of_legalShape fun id _ hv =>
      h id (Std.TreeMap.mem_keys.2 (mem_defs_of_type? hv))

instance : Decidable ix.LegalShapes := decidable_of_iff _ legalShapes_iff.symm

theorem LegalShapes.columns (hl : ix.LegalShapes) {id col : Id} {n : UInt32}
    (hv : ix.type? id = some (.matrix col n)) : n ∈ [2, 3, 4, 8, 16] :=
  List.mem_append_left [8, 16] (hl.matrix id col n hv).1

end Index

namespace Quantity

variable {ix : Index} {t : Table} {id e : Id} {c : Constraints} {up : Bool}

-- Lists of alignments are gone through one by one, not word by word.
scoped instance (priority := high) decidableForallMem (l : List UInt32) (p : UInt32 → Prop)
    [DecidablePred p] : Decidable (∀ x ∈ l, p x) := List.decidableBAll p l

def units : List UInt32 := [1, 2, 4, 8]

def powers : List UInt32 := [1, 2, 4, 8, 16, 32, 64, 128]

theorem scalar_single {a : UInt32}
    (h : scalarRule ix id = .single (.scalarAlignment e) fun a => a) :
    (scalarAlignment id).Value ix t a ↔ (scalarAlignment e).Value ix t a := by
  have hv : (scalarAlignment id).Value ix t a ↔
      ∃ w, (scalarAlignment e).Value ix t w ∧ a = w := Rule.value_single h
  simp [hv]

theorem base_single {a : UInt32} {f : UInt32 → UInt32}
    (h : baseRule ix t id c up = .single (.baseAlignment e c up) f) :
    (baseAlignment id c up).Value ix t a ↔
      ∃ w, (baseAlignment e c up).Value ix t w ∧ a = f w := Rule.value_single h

/-- Alignments that do not depend on other types. Whether matrices are row major counts, and
whether aggregates are rounded up. -/
structure Flat (ix : Index) (t : Table) (id : Id) (s : UInt32) (b : (rowMajor up : Bool) → UInt32) :
    Prop where
  scalar : ∀ a, (scalarAlignment id).Value ix t a ↔ a = s
  base : ∀ c up a, (baseAlignment id c up).Value ix t a ↔ a = b c.rowMajor up
  le : ∀ r, s ≤ b r false ∧ b r false ≤ b r true
  mem : ∀ r, s ∈ powers ∧ b r false ∈ powers ∧ b r true ∈ powers

theorem unit_of_width {w : UInt32} (h : w ∈ [8, 16, 32, 64]) : w / 8 ∈ units := by
  revert w
  decide

theorem flat_fixed {s : UInt32} (hs : s ∈ units) (hscalar : scalarRule ix id = .fixed s)
    (hbase : ∀ c up, baseRule ix t id c up = .fixed s) : Flat ix t id s fun _ _ => s where
  scalar := fun _ => Rule.value_fixed hscalar
  base := fun c up _ => Rule.value_fixed (hbase c up)
  le := fun _ => ⟨UInt32.le_refl s, UInt32.le_refl s⟩
  mem := by
    have hall : ∀ s ∈ units, s ∈ powers := by decide
    exact fun _ => ⟨hall s hs, hall s hs, hall s hs⟩

theorem number_rules {v : TypeView} {s : NumericShape} (hv : ix.type? id = some v)
    (hs : v.scalarShape? = some s) : scalarRule ix id = .fixed (s.width / 8) ∧
      ∀ c up, baseRule ix t id c up = .fixed (s.width / 8) := by
  cases v <;> simp only [TypeView.scalarShape?, Option.some.injEq, reduceCtorEq] at hs
  all_goals
    cases hs
    exact ⟨by simp [scalarRule, hv], fun c up => by simp [baseRule, hv]⟩

theorem flat_number (hl : ix.LegalShapes) (h : ix.IsNumber id) :
    ∃ s ∈ units, Flat ix t id s fun _ _ => s := by
  obtain ⟨v, s, hv, hs⟩ := h
  have hunit := unit_of_width (hl.number id v s hv hs)
  have hrules := number_rules (t := t) hv hs
  exact ⟨_, hunit, flat_fixed hunit hrules.1 hrules.2⟩

theorem le_mulSat_spread {n : UInt32} (hn : n ∈ [2, 3, 4, 8, 16]) (a : UInt32) :
    a ≤ Word.mulSat a (spread n) := by
  have hall : ∀ n ∈ ([2, 3, 4, 8, 16] : List UInt32), 1 ≤ (spread n).toNat := by decide
  have hle := Nat.le_mul_of_pos_right a.toNat (hall n hn)
  have hlt := a.toNat_lt
  rw [UInt32.le_iff_toNat_le, Word.toNat_mulSat]
  omega

theorem flat_vector (hl : ix.LegalShapes) {n : UInt32} (hv : ix.type? id = some (.vector e n)) :
    ∃ s ∈ units, Flat ix t e s (fun _ _ => s) ∧
      Flat ix t id s fun _ _ => Word.mulSat s (spread n) := by
  obtain ⟨hn, he⟩ := hl.vector id e n hv
  obtain ⟨s, hs, hflat⟩ := flat_number (t := t) hl he
  refine ⟨s, hs, hflat, ?_, ?_, ?_, ?_⟩
  · intro a
    rw [scalar_single (e := e) (by simp [scalarRule, hv]), hflat.scalar]
  · intro c up a
    rw [base_single (e := e) (f := fun a => Word.mulSat a (spread n)) (by simp [baseRule, hv])]
    simp [hflat.base]
  · exact fun _ => ⟨le_mulSat_spread hn s, UInt32.le_refl _⟩
  · have hall : ∀ s ∈ units, ∀ n ∈ [2, 3, 4, 8, 16],
        s ∈ powers ∧ Word.mulSat s (spread n) ∈ powers := by decide
    exact fun _ => ⟨(hall s hs n hn).1, (hall s hs n hn).2, (hall s hs n hn).2⟩

theorem flat_matrix (hl : ix.LegalShapes) {col : Id} {n : UInt32}
    (hv : ix.type? id = some (.matrix col n)) : ∃ s b, Flat ix t id s b := by
  obtain ⟨-, e, k, hcol⟩ := hl.matrix id col n hv
  have hk := (hl.vector col e k hcol).1
  obtain ⟨s, hs, he, hc⟩ := flat_vector (t := t) hl hcol
  have hcount : ∀ r : Bool, (if r then n else k) ∈ ([2, 3, 4, 8, 16] : List UInt32) := by
    intro r
    cases r with
    | true => exact hl.columns hv
    | false => exact hk
  refine ⟨s, fun r up => aggregate up (Word.mulSat s (spread (if r then n else k))), ?_, ?_, ?_, ?_⟩
  · intro a
    rw [scalar_single (e := col) (by simp [scalarRule, hv]), hc.scalar]
  · intro c up a
    cases hr : c.rowMajor with
    | true =>
      rw [base_single (e := e) (f := fun a => aggregate up (Word.mulSat a (spread n)))
        (by simp [baseRule, hv, hr, column, hcol])]
      simp [he.base]
    | false =>
      rw [base_single (e := col) (f := aggregate up) (by simp [baseRule, hv, hr])]
      simp [hc.base]
  · have hall : ∀ s ∈ units, ∀ n ∈ [2, 3, 4, 8, 16],
        s ≤ aggregate false (Word.mulSat s (spread n)) ∧
          aggregate false (Word.mulSat s (spread n)) ≤
            aggregate true (Word.mulSat s (spread n)) := by decide
    exact fun r => hall s hs _ (hcount r)
  · have hall : ∀ s ∈ units, ∀ n ∈ [2, 3, 4, 8, 16],
        s ∈ powers ∧ aggregate false (Word.mulSat s (spread n)) ∈ powers ∧
          aggregate true (Word.mulSat s (spread n)) ∈ powers := by decide
    exact fun r => hall s hs _ (hcount r)

/-- Alignments are flat but for arrays, aligned like their elements, and structs. -/
theorem flat_or (hl : ix.LegalShapes) (t : Table) (id : Id) :
    (∃ s b, Flat ix t id s b) ∨
      (∃ e, scalarRule ix id = .single (.scalarAlignment e) (fun a => a) ∧
        ∀ c up, baseRule ix t id c up = .single (.baseAlignment e c up) (aggregate up)) ∨
      ∃ ms, ix.type? id = some (.struct ms) := by
  have fixed : ∀ s ∈ units, scalarRule ix id = .fixed s →
      (∀ c up, baseRule ix t id c up = .fixed s) → ∃ s b, Flat ix t id s b :=
    fun s hs h h' => ⟨s, _, flat_fixed hs h h'⟩
  cases hv : ix.type? id with
  | none =>
    exact .inl (fixed 1 (by decide) (by simp [scalarRule, hv]) fun _ _ => by simp [baseRule, hv])
  | some v =>
    cases v with
    | int w s =>
      obtain ⟨s, _, h⟩ := flat_number (t := t) hl ⟨_, _, hv, rfl⟩
      exact .inl ⟨_, _, h⟩
    | float w =>
      obtain ⟨s, _, h⟩ := flat_number (t := t) hl ⟨_, _, hv, rfl⟩
      exact .inl ⟨_, _, h⟩
    | vector e n =>
      obtain ⟨s, _, _, h⟩ := flat_vector (t := t) hl hv
      exact .inl ⟨_, _, h⟩
    | matrix col n => exact .inl (flat_matrix hl hv)
    | array e n =>
      exact .inr (.inl ⟨e, by simp [scalarRule, hv], fun _ _ => by simp [baseRule, hv]⟩)
    | runtimeArray e =>
      exact .inr (.inl ⟨e, by simp [scalarRule, hv], fun _ _ => by simp [baseRule, hv]⟩)
    | struct ms => exact .inr (.inr ⟨ms, rfl⟩)
    | pointer _ _ =>
      exact .inl (fixed 8 (by decide) (by simp [scalarRule, hv]) fun _ _ => by
        simp [baseRule, hv])
    | _ =>
      exact .inl (fixed 1 (by decide) (by simp [scalarRule, hv]) fun _ _ => by
        simp [baseRule, hv])

theorem aggregate_mem {a : UInt32} (h : a ∈ powers) (up : Bool) : aggregate up a ∈ powers := by
  have hall : ∀ a ∈ powers, ∀ up, aggregate up a ∈ powers := by decide
  exact hall a h up

theorem le_aggregate (a : UInt32) (up : Bool) : a ≤ aggregate up a := by
  cases up with
  | false => exact UInt32.le_refl a
  | true =>
    have hlt := a.toNat_lt
    have hle := Word.le_ceil a.toNat 16
    simp only [UInt32.le_iff_toNat_le, aggregate, if_true, Word.toNat_roundUp, UInt32.reduceToNat]
    omega

theorem aggregate_mono {a b : UInt32} (ha : a ∈ powers) (hb : b ∈ powers) (h : a ≤ b) :
    aggregate false a ≤ aggregate true b := by
  have hall : ∀ a ∈ powers, ∀ b ∈ powers, a ≤ b → aggregate false a ≤ aggregate true b := by decide
  exact hall a ha b hb h

theorem foldl_max_mem {vs : List UInt32} {x : UInt32} (hx : x ∈ powers)
    (h : ∀ v ∈ vs, v ∈ powers) : vs.foldl max x ∈ powers := by
  have hall : ∀ x ∈ powers, ∀ y ∈ powers, max x y ∈ powers := by decide
  induction vs generalizing x with
  | nil => exact hx
  | cons v vs ih => exact ih (hall x hx v (h v (by simp))) fun w hw => h w (by simp [hw])

theorem max_le_max {a b x y : UInt32} (h : a ≤ b) (h' : x ≤ y) : max a x ≤ max b y := by
  simp only [max, UInt32.le_iff_toNat_le] at h h' ⊢
  split <;> split <;> omega

theorem foldl_max_mono {as bs : List UInt32} {x y : UInt32} (h : List.Forall₂ (· ≤ ·) as bs)
    (hx : x ≤ y) : as.foldl max x ≤ bs.foldl max y := by
  induction h generalizing x y with
  | nil => exact hx
  | cons hab _ ih => exact ih (max_le_max hx hab)

def IsAlignment : Quantity → Prop
  | .size .. => False
  | _ => True

theorem forall_of_forall₂ {α β : Type} {R : α → β → Prop} {S : β → Prop} {as : List α}
    {bs : List β} (h : List.Forall₂ R as bs) (hs : ∀ a ∈ as, ∀ b, R a b → S b) :
    ∀ b ∈ bs, S b := by
  induction h with
  | nil => simp
  | cons hr _ ih =>
    intro b hb
    rcases List.mem_cons.1 hb with rfl | hb
    · exact hs _ (by simp) _ hr
    · exact ih (fun a ha => hs a (by simp [ha])) b hb

theorem largest_mem {κ : Type} {L : List κ} {f : κ → Quantity} {R : Quantity → UInt32 → Prop}
    {vs : List UInt32} (h : List.Forall₂ R (L.map f) vs) (hmem : ∀ x v, R (f x) v → v ∈ powers) :
    vs.foldl max 1 ∈ powers := by
  refine foldl_max_mem (by decide) (forall_of_forall₂ h ?_)
  intro p hp v hv
  obtain ⟨x, _, rfl⟩ := List.mem_map.1 hp
  exact hmem x v hv

theorem scalar_struct {ms : List Operand} (h : ix.type? id = some (.struct ms)) :
    rule ix t (scalarAlignment id) = .largest 1
      ((TypeView.struct ms).memberIds.zipIdx.map fun (m, _) => scalarAlignment m) := by
  have hmap : (TypeView.struct ms).memberIds.zipIdx.map (fun (m, _) => scalarAlignment m) =
      ((TypeView.struct ms).memberIds.zipIdx.map Prod.fst).map scalarAlignment := by
    rw [List.map_map]
    rfl
  rw [hmap, List.zipIdx_map_fst]
  simp [rule, scalarRule, h]

theorem base_struct {ms : List Operand} (h : ix.type? id = some (.struct ms)) :
    rule ix t (baseAlignment id c up) =
      ⟨(TypeView.struct ms).memberIds.zipIdx.map fun (m, i) =>
        baseAlignment m (t.constraints id i) up, fun vs => aggregate up (vs.foldl max 1)⟩ := by
  simp [rule, baseRule, h]

/-- Every alignment is a power of two up to 128. -/
theorem alignment_mem (hl : ix.LegalShapes) {q : Quantity} {v : UInt32} (hq : q.IsAlignment)
    (hv : q.Value ix t v) : v ∈ powers := by
  revert hq
  refine Rule.Value.induct (motive := fun q v => q.IsAlignment → v ∈ powers) ?_ hv
  intro q vs hvs hq
  have hvalue : q.Value ix t ((rule ix t q).combine vs) :=
    Rule.value_iff.2 ⟨vs, hvs.imp fun _ _ h => h.1, rfl⟩
  cases q with
  | size id c => cases hq
  | scalarAlignment id =>
    rcases flat_or hl t id with ⟨s, b, hf⟩ | ⟨e, hs, _⟩ | ⟨ms, hms⟩
    · rw [(hf.scalar _).1 hvalue]
      exact (hf.mem true).1
    · rw [show rule ix t (scalarAlignment id) = _ from hs] at hvs ⊢
      cases hvs with
      | cons h hnil =>
        cases hnil
        exact h.2 trivial
    · rw [scalar_struct hms] at hvs ⊢
      exact largest_mem hvs fun _ _ h => h.2 trivial
  | baseAlignment id c up =>
    rcases flat_or hl t id with ⟨s, b, hf⟩ | ⟨e, _, hb⟩ | ⟨ms, hms⟩
    · rw [(hf.base _ _ _).1 hvalue]
      cases up
      · exact (hf.mem _).2.1
      · exact (hf.mem _).2.2
    · rw [show rule ix t (baseAlignment id c up) = _ from hb c up] at hvs ⊢
      cases hvs with
      | cons h hnil =>
        cases hnil
        exact aggregate_mem (h.2 trivial) up
    · rw [base_struct hms] at hvs ⊢
      exact aggregate_mem (largest_mem hvs fun _ _ h => h.2 trivial) up

theorem scalar_mem (hl : ix.LegalShapes) {a : UInt32} (h : (scalarAlignment id).Value ix t a) :
    a ∈ powers := alignment_mem hl (show IsAlignment (scalarAlignment id) from trivial) h

theorem base_mem (hl : ix.LegalShapes) {a : UInt32} (h : (baseAlignment id c up).Value ix t a) :
    a ∈ powers := alignment_mem hl (show IsAlignment (baseAlignment id c up) from trivial) h

inductive Looser : (q r : Quantity) → Prop where
  | scalar (id : Id) (c : Constraints) (up : Bool) :
    Looser (.scalarAlignment id) (.baseAlignment id c up)
  | storage (id : Id) (c : Constraints) :
    Looser (.baseAlignment id c false) (.baseAlignment id c true)

theorem forall₂_le {κ : Type} {L : List κ} {f g : κ → Quantity} {as bs : List UInt32}
    (hfg : ∀ x, Looser (f x) (g x))
    (ha : List.Forall₂ (fun p w => p.Value ix t w) (L.map f) as)
    (hb : List.Forall₂ (fun p w => p.Value ix t w ∧
      ∀ q a, Looser q p → q.Value ix t a → a ≤ w) (L.map g) bs) :
    List.Forall₂ (· ≤ ·) as bs := by
  induction L generalizing as bs with
  | nil =>
    cases ha
    cases hb
    exact .nil
  | cons x L ih =>
    cases ha with
    | cons hx ha =>
      cases hb with
      | cons hy hb => exact .cons (hy.2 _ _ (hfg x) hx) (ih ha hb)

/-- What asks no more comes to no more. -/
theorem Looser.le (hl : ix.LegalShapes) {q r : Quantity} {a b : UInt32} (h : Looser q r)
    (ha : q.Value ix t a) (hb : r.Value ix t b) : a ≤ b := by
  revert q a
  refine Rule.Value.induct (motive := fun r b => ∀ {q : Quantity} {a : UInt32}, Looser q r →
    q.Value ix t a → a ≤ b) ?_ hb
  intro r vs hvs q a h ha
  have hvalue : r.Value ix t ((rule ix t r).combine vs) :=
    Rule.value_iff.2 ⟨vs, hvs.imp fun _ _ h => h.1, rfl⟩
  cases h with
  | scalar id c up =>
    rcases flat_or hl t id with ⟨s, b, hf⟩ | ⟨e, hs, hb⟩ | ⟨ms, hms⟩
    · rw [(hf.base _ _ _).1 hvalue, (hf.scalar _).1 ha]
      cases up
      · exact (hf.le _).1
      · exact UInt32.le_trans (hf.le _).1 (hf.le _).2
    · rw [show rule ix t (baseAlignment id c up) = _ from hb c up] at hvs ⊢
      rw [scalar_single hs] at ha
      cases hvs with
      | cons h hnil =>
        cases hnil
        exact UInt32.le_trans (h.2 (.scalar e c up) ha) (le_aggregate _ up)
    · obtain ⟨as, has, rfl⟩ := Rule.value_iff.1 ha
      rw [base_struct hms] at hvs ⊢
      rw [scalar_struct hms] at has ⊢
      have hle : List.Forall₂ (· ≤ ·) as vs :=
        forall₂_le (fun x : Id × Nat => Looser.scalar x.1 (t.constraints id x.2) up) has
          (hvs.imp fun _ _ h => ⟨h.1, fun _ _ => h.2⟩)
      exact UInt32.le_trans (foldl_max_mono hle (UInt32.le_refl 1)) (le_aggregate _ up)
  | storage id c =>
    rcases flat_or hl t id with ⟨s, b, hf⟩ | ⟨e, _, hb⟩ | ⟨ms, hms⟩
    · rw [(hf.base _ _ _).1 hvalue, (hf.base _ _ _).1 ha]
      exact (hf.le _).2
    · rw [show rule ix t (baseAlignment id c true) = _ from hb c true] at hvs ⊢
      rw [base_single (hb c false)] at ha
      obtain ⟨w, hw, rfl⟩ := ha
      cases hvs with
      | cons h hnil =>
        cases hnil
        exact aggregate_mono (base_mem hl hw) (base_mem hl h.1)
          (h.2 (.storage e c) hw)
    · obtain ⟨as, has, rfl⟩ := Rule.value_iff.1 ha
      rw [base_struct hms] at hvs has
      rw [base_struct hms, base_struct hms]
      have hle : List.Forall₂ (· ≤ ·) as vs :=
        forall₂_le (fun x : Id × Nat => Looser.storage x.1 (t.constraints id x.2)) has
          (hvs.imp fun _ _ h => ⟨h.1, fun _ _ => h.2⟩)
      have hmem := largest_mem has fun _ _ h => base_mem hl h
      have hmem' := largest_mem hvs fun _ _ h => base_mem hl h.1
      exact aggregate_mono hmem hmem' (foldl_max_mono hle (UInt32.le_refl 1))

theorem dvd_of_mem_of_le {a b : UInt32} (ha : a ∈ powers) (hb : b ∈ powers) (h : a ≤ b) :
    a.toNat ∣ b.toNat := by
  have hall : ∀ a ∈ powers, ∀ b ∈ powers, a ≤ b → a.toNat ∣ b.toNat := by decide
  exact hall a ha b hb h

theorem dvd_256_of_mem {a : UInt32} (ha : a ∈ powers) : a.toNat ≠ 0 ∧ a.toNat ∣ 256 := by
  have hall : ∀ a ∈ powers, a.toNat ≠ 0 ∧ a.toNat ∣ 256 := by decide
  exact hall a ha

/-- A vector does not straddle where it starts at a multiple of its alignment: a short one divides
sixteen up, a long one starts at a multiple of sixteen. -/
theorem not_straddles {offset size a : UInt32} (hd : a.toNat ∣ offset.toNat)
    (hle : size.toNat ≤ a.toNat) (hshort : size.toNat ≤ 16 → a.toNat ∣ 16)
    (hlong : 16 < size.toNat → 16 ∣ a.toNat) : straddles offset size = false := by
  have hlt := offset.toNat_lt
  unfold straddles
  split
  · next h =>
    have h16 : size.toNat ≤ 16 := h
    have hrest : a.toNat ∣ 16 - offset.toNat % 16 :=
      Nat.dvd_sub (hshort h16) ((Nat.dvd_mod_iff (hshort h16)).2 hd)
    have hroom := Nat.le_of_dvd (by omega) hrest
    simp only [ne_eq, decide_eq_false_iff_not, Decidable.not_not, ← UInt32.toNat_inj,
      UInt32.toNat_div, Word.toNat_addSat, Word.toNat_pred, UInt32.reduceToNat]
    omega
  · next h =>
    have h16 : 16 < size.toNat := Nat.lt_of_not_le h
    have hmod := Nat.mod_eq_zero_of_dvd (Nat.dvd_trans (hlong h16) hd)
    simp only [ne_eq, decide_eq_false_iff_not, Decidable.not_not, ← UInt32.toNat_inj,
      UInt32.toNat_mod, UInt32.reduceToNat]
    exact hmod

/-- A vector at a multiple of its base alignment is at one of its component's too, and does not
straddle. -/
theorem vector_placed (hl : ix.LegalShapes) {n a s size offset : UInt32} {c' : Constraints}
    (hv : ix.type? id = some (.vector e n)) (ha : (baseAlignment id c up).Value ix t a)
    (hs : (scalarAlignment e).Value ix t s) (hsize : (Quantity.size id c').Value ix t size)
    (hd : a.toNat ∣ offset.toNat) : s.toNat ∣ offset.toNat ∧ straddles offset size = false := by
  obtain ⟨hn, v, r, hve, hr⟩ := hl.vector id e n hv
  have hs' : s = r.width / 8 := (Rule.value_fixed (number_rules (t := t) hve hr).1).1 hs
  obtain ⟨w, hw, rfl⟩ := (size_vector hv).1 hsize
  obtain rfl : w = s := ((size_number hve hr).1 hw).trans hs'.symm
  have hunit : w ∈ units := hs' ▸ unit_of_width (hl.number e v r hve hr)
  obtain ⟨x, _, he, hflat⟩ := flat_vector (t := t) hl hv
  cases (he.scalar w).1 hs
  cases (hflat.base _ _ _).1 ha
  have hall : ∀ w ∈ units, ∀ n ∈ [2, 3, 4, 8, 16],
      w.toNat ∣ (Word.mulSat w (spread n)).toNat ∧
        (Word.mulSat w n).toNat ≤ (Word.mulSat w (spread n)).toNat ∧
        ((Word.mulSat w n).toNat ≤ 16 → (Word.mulSat w (spread n)).toNat ∣ 16) ∧
        (16 < (Word.mulSat w n).toNat → 16 ∣ (Word.mulSat w (spread n)).toNat) := by decide
  obtain ⟨hdvd, hle, hshort, hlong⟩ := hall w hunit n hn
  exact ⟨Nat.dvd_trans hdvd hd, not_straddles hd hle hshort hlong⟩

end Quantity

namespace LayoutPolicy

variable {ix : Index} {t : Table} {p : LayoutPolicy} {type : Id} {c : Constraints}

theorem isAlignment_alignment (p : LayoutPolicy) (type : Id) (c : Constraints) :
    (p.alignment type c).IsAlignment := by
  unfold alignment
  split <;> trivial

theorem alignment_mem (hl : ix.LegalShapes) {a : UInt32} (ha : (p.alignment type c).Value ix t a) :
    a ∈ Quantity.powers := Quantity.alignment_mem hl (isAlignment_alignment p type c) ha

end LayoutPolicy

end SpirvRules
