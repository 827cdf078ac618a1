import Mathlib.Data.Finset.Card
import Mathlib.Data.List.Perm.Subperm
import Mathlib.Data.Nat.SuccPred
import Mathlib.Logic.Relation
import Mathlib.Order.SuccPred.Relation
import SpirvRules.Index.Basic
import SpirvRules.Proofs.Outcome

/-!
# Levels of arrays, and what has none

An array has one element type, so the levels above a type that is no array form a chain without
repetitions, and each of them is defined. Stripping a type has room for every definition: where
there is an end to the levels, it comes to that end, and where there is none, the levels come round.
-/

set_option autoImplicit false

namespace SpirvRules.Index

open Outcome

abbrev Strips (ix : Index) : Id → Id → Prop :=
  Relation.ReflTransGen fun a b => ix.element? a = some b

variable {ix : Index} {x y : Id}

theorem mem_defs_of_element? (h : ix.element? x = some y) : x ∈ ix.defs := by
  by_contra hx
  simp [element?, type?, inst?, def?, Std.TreeMap.getElem?_eq_none hx] at h

theorem not_cycle_of_strips (h : ix.Strips x y) (hy : ix.element? y = none) :
    ¬ Relation.TransGen (fun a b => ix.element? a = some b) x x := by
  induction h using Relation.ReflTransGen.head_induction_on with
  | refl =>
    intro hcycle
    obtain ⟨_, he, _⟩ := Relation.TransGen.head'_iff.1 hcycle
    rw [hy] at he
    cases he
  | @head a b hab _ ih =>
    -- there is one way on from `a`, so a cycle through `a` goes through `b`
    intro hcycle
    obtain ⟨c, hac, hback⟩ := Relation.TransGen.head'_iff.1 hcycle
    rw [hab] at hac
    cases hac
    exact ih (.tail' hback hab)

/-- The levels above a type that is no array, and how far to strip to take them all off. -/
theorem exists_levels (h : ix.Strips x y) (hy : ix.element? y = none) :
    ∃ levels : List Id, levels.Nodup ∧ (∀ a ∈ levels, a ∈ ix.defs ∧ ix.Strips x a) ∧
      ∀ n, levels.length ≤ n → ix.stripWithin n x = y := by
  induction h using Relation.ReflTransGen.head_induction_on with
  | refl =>
    refine ⟨[], .nil, nofun, fun n _ => ?_⟩
    cases n with
    | zero => rfl
    | succ n => rw [stripWithin, hy]
  | @head a b hab hby ih =>
    obtain ⟨levels, hnodup, hlevels, hstrip⟩ := ih
    refine ⟨a :: levels, ?_, ?_, ?_⟩
    · refine List.nodup_cons.2 ⟨fun ha => ?_, hnodup⟩
      exact not_cycle_of_strips (.head hab hby) hy (.head' hab (hlevels a ha).2)
    · rw [List.forall_mem_cons]
      refine ⟨⟨mem_defs_of_element? hab, .refl⟩, fun c hc => ?_⟩
      exact ⟨(hlevels c hc).1, .head hab (hlevels c hc).2⟩
    · intro n hn
      obtain ⟨n, rfl⟩ : ∃ k, n = k + 1 := ⟨n - 1, by simp only [List.length_cons] at hn; omega⟩
      rw [stripWithin, hab]
      exact hstrip n (Nat.le_of_succ_le_succ hn)

theorem strips_stripWithin (n : Nat) (x : Id) : ix.Strips x (ix.stripWithin n x) := by
  induction n generalizing x with
  | zero => exact .refl
  | succ n ih =>
    rw [stripWithin]
    cases he : ix.element? x with
    | none => exact .refl
    | some e => exact .head he (ih e)

theorem strips_stripArrays (x : Id) : ix.Strips x (ix.stripArrays x) :=
  strips_stripWithin (ix.defs.size + 1) x

theorem stripArrays_eq (h : ix.Strips x y) (hy : ix.element? y = none) :
    ix.stripArrays x = y := by
  obtain ⟨levels, hnodup, hlevels, hstrip⟩ := exists_levels h hy
  have hkeys : levels ⊆ ix.defs.keys := fun a ha => Std.TreeMap.mem_keys.2 (hlevels a ha).1
  have hle := (hnodup.subperm hkeys).length_le
  rw [Std.TreeMap.length_keys] at hle
  exact hstrip _ (Nat.le_succ_of_le hle)

theorem Strips.eq_of_element? (h : ix.Strips x y) (hx : ix.element? x = none) : y = x := by
  rcases Relation.ReflTransGen.cases_head h with rfl | ⟨_, he, _⟩
  · rfl
  · cases hx.symm.trans he

/-! ### Levels without an end -/

def IsArray (ix : Index) (x : Id) : Prop := (ix.type? x).any TypeView.isArray

instance : Decidable (ix.IsArray x) := inferInstanceAs (Decidable (_ = true))

theorem isArray_iff : ix.IsArray x ↔ ∃ e, ix.element? x = some e := by
  unfold IsArray element?
  cases ix.type? x with
  | none => simp
  | some v => cases v <;> simp [TypeView.isArray, TypeView.element?]

theorem not_isArray_iff : ¬ ix.IsArray x ↔ ix.element? x = none := by
  rw [isArray_iff, ← Option.isSome_iff_exists, Option.not_isSome_iff_eq_none]

theorem stripWithin_succ {n : Nat} {e : Id} (h : ix.element? (ix.stripWithin n x) = some e) :
    ix.stripWithin (n + 1) x = e := by
  induction n generalizing x with
  | zero =>
    rw [stripWithin] at h
    rw [stripWithin, h]
    rfl
  | succ n ih =>
    rw [stripWithin] at h ⊢
    cases hx : ix.element? x with
    | none =>
      rw [hx] at h
      cases hx.symm.trans h
    | some y =>
      rw [hx] at h
      exact ih h

/-- Arrays without an end are more levels than there are definitions, so one of them comes twice. -/
theorem exists_cycle (h : ∀ y, ix.Strips x y → ix.IsArray y) :
    ∃ y, ix.Strips x y ∧ Relation.TransGen (fun a b => ix.element? a = some b) y y := by
  have hstep : ∀ n, ix.element? (ix.stripWithin n x) = some (ix.stripWithin (n + 1) x) := by
    intro n
    obtain ⟨e, he⟩ := isArray_iff.1 (h _ (strips_stripWithin n x))
    rw [he, stripWithin_succ he]
  have hmem : ∀ n ∈ Finset.range (ix.defs.size + 1),
      ix.stripWithin n x ∈ ix.defs.keys.toFinset := by
    intro n _
    rw [List.mem_toFinset, Std.TreeMap.mem_keys]
    exact mem_defs_of_element? (hstep n)
  have hcard : ix.defs.keys.toFinset.card < (Finset.range (ix.defs.size + 1)).card := by
    rw [Finset.card_range, ← Std.TreeMap.length_keys]
    exact Nat.lt_succ_of_le (List.toFinset_card_le _)
  obtain ⟨i, -, j, -, hne, heq⟩ := Finset.exists_ne_map_eq_of_card_lt_of_maps_to hcard hmem
  wlog hij : i < j generalizing i j
  · exact this j i hne.symm heq.symm (by omega)
  have hchain : Relation.TransGen
      (fun a b => ix.element? (ix.stripWithin a x) = some (ix.stripWithin b x)) i j :=
    transGen_of_succ_of_lt _ (fun k _ => hstep k) hij
  have hround : Relation.TransGen (fun a b => ix.element? a = some b)
      (ix.stripWithin i x) (ix.stripWithin j x) :=
    Relation.TransGen.lift (ix.stripWithin · x) (fun _ _ h => h) _ _ hchain
  refine ⟨ix.stripWithin i x, strips_stripWithin i x, ?_⟩
  rwa [← heq] at hround

theorem isArray_of_cycle (hxy : ix.Strips x y)
    (hcycle : Relation.TransGen (fun a b => ix.element? a = some b) y y) {z : Id}
    (hxz : ix.Strips x z) : ix.IsArray z := by
  by_contra hz
  rw [not_isArray_iff] at hz
  have hyz : ix.Strips y z := by
    rcases Relation.ReflTransGen.total_of_right_unique
      (fun _ _ _ h h' => Option.some.inj (h.symm.trans h')) hxy hxz with h | h
    · exact h
    · rw [Strips.eq_of_element? h hz]
  exact not_cycle_of_strips hyz hz hcycle

/-- All levels of arrays are taken off, however many there are: what is left is the type they end
at. An array is left exactly where there is no end to the levels, and that is where they come
round. -/
theorem stripArrays_complete (ix : Index) (x : Id) :
    (∀ y, ix.Strips x y → ¬ ix.IsArray y → ix.stripArrays x = y) ∧
    (ix.IsArray (ix.stripArrays x) ↔ ∀ y, ix.Strips x y → ix.IsArray y) ∧
    (ix.IsArray (ix.stripArrays x) ↔
      ∃ y, ix.Strips x y ∧ Relation.TransGen (fun a b => ix.element? a = some b) y y) := by
  have hend : ∀ y, ix.Strips x y → ¬ ix.IsArray y → ix.stripArrays x = y :=
    fun y h hy => stripArrays_eq h (not_isArray_iff.1 hy)
  have hendless : ix.IsArray (ix.stripArrays x) ↔ ∀ y, ix.Strips x y → ix.IsArray y := by
    constructor
    · intro h y hy
      by_contra hne
      rw [hend y hy hne] at h
      exact hne h
    · exact fun h => h _ (strips_stripArrays x)
  refine ⟨hend, hendless, ?_⟩
  rw [hendless]
  constructor
  · exact exists_cycle
  · rintro ⟨y, hxy, hcycle⟩ z hz
    exact isArray_of_cycle hxy hcycle hz

def ringedArrays : Module where
  globals := [⟨.opTypeInt, none, some 1, [.literal 32, .literal 0]⟩,
    ⟨.opConstant, some 1, some 2, [.literal 2]⟩, ⟨.opTypeArray, none, some 3, [.id 1, .id 2]⟩,
    ⟨.opTypeArray, none, some 4, [.id 3, .id 2]⟩, ⟨.opTypeRuntimeArray, none, some 5, [.id 4]⟩,
    ⟨.opTypeArray, none, some 6, [.id 7, .id 2]⟩, ⟨.opTypeArray, none, some 7, [.id 6, .id 2]⟩]

theorem stripArrays_ringedArrays :
    ∃ ix, ofModule ringedArrays = .ok ix ∧ ix.stripArrays 5 = 1 ∧
      ix.IsArray (ix.stripArrays 6) ∧ ∀ y, ix.Strips 6 y → ix.IsArray y := by
  have hrun : (ofModule ringedArrays).toOption.any (fun ix =>
      decide (ix.element? 5 = some 4 ∧ ix.element? 4 = some 3 ∧ ix.element? 3 = some 1 ∧
        ¬ ix.IsArray 1 ∧ ix.element? 6 = some 7 ∧ ix.element? 7 = some 6)) = true := by
    decide +kernel
  obtain ⟨ix, hix, hq⟩ := exists_of_any hrun
  obtain ⟨h5, h4, h3, h1, h6, h7⟩ := of_decide_eq_true hq
  obtain ⟨hend, -, -⟩ := stripArrays_complete ix 5
  obtain ⟨-, hendless, hcycle⟩ := stripArrays_complete ix 6
  have harray : ix.IsArray (ix.stripArrays 6) := hcycle.2 ⟨6, .refl, .tail (.single h6) h7⟩
  exact ⟨ix, hix, hend 1 (.head h5 (.head h4 (.single h3))) h1, harray, hendless.1 harray⟩

end SpirvRules.Index

/-!
### Shapes of numbers

A type has a shape if and only if it is one of integers or floating-point numbers, single or in
vectors. No such type is an array.
-/

namespace SpirvRules

inductive Index.IsNumeric (ix : Index) (type : Id) : NumericShape → Prop
  | int {width : UInt32} {signed : Bool} :
      ix.type? type = some (.int width signed) → IsNumeric ix type ⟨false, width, 1⟩
  | float {width : UInt32} :
      ix.type? type = some (.float width) → IsNumeric ix type ⟨true, width, 1⟩
  | ints {component : Id} {width count : UInt32} {signed : Bool} :
      ix.type? type = some (.vector component count) →
      ix.type? component = some (.int width signed) → IsNumeric ix type ⟨false, width, count⟩
  | floats {component : Id} {width count : UInt32} :
      ix.type? type = some (.vector component count) →
      ix.type? component = some (.float width) → IsNumeric ix type ⟨true, width, count⟩

theorem TypeView.scalarShape?_eq_some {v : TypeView} {s : NumericShape} :
    v.scalarShape? = some s ↔
      (∃ width signed, v = .int width signed ∧ s = ⟨false, width, 1⟩) ∨
        ∃ width, v = .float width ∧ s = ⟨true, width, 1⟩ := by
  cases v <;> simp [scalarShape?, eq_comm]

theorem TypeView.count_of_scalarShape? {v : TypeView} {s : NumericShape}
    (h : v.scalarShape? = some s) : s.count = 1 := by
  rcases scalarShape?_eq_some.1 h with ⟨_, _, _, rfl⟩ | ⟨_, _, rfl⟩ <;> rfl

namespace Index

variable {ix : Index} {m : Id} {s : NumericShape}

theorem numericShape?_cases (h : ix.numericShape? m = some s) :
    (∃ v, ix.type? m = some v ∧ v.scalarShape? = some s) ∨
      ∃ e n v r, ix.type? m = some (.vector e n) ∧ ix.type? e = some v ∧
        v.scalarShape? = some r ∧ s = { r with count := n } := by
  unfold Index.numericShape? at h
  split at h
  · next e n hx =>
    simp only [Option.bind_eq_bind, Option.bind_eq_some_iff, Option.pure_def,
      Option.some.injEq] at h
    obtain ⟨v, hv, r, hr, rfl⟩ := h
    exact .inr ⟨e, n, v, r, hx, hv, hr, rfl⟩
  · next v _ hx => exact .inl ⟨v, hx, h⟩
  · cases h

theorem numericShape?_eq_some : ix.numericShape? m = some s ↔ ix.IsNumeric m s := by
  constructor
  · intro h
    rcases numericShape?_cases h with ⟨v, hv, hs⟩ | ⟨e, n, v, r, hm, hv, hr, rfl⟩
    · rcases TypeView.scalarShape?_eq_some.1 hs with ⟨_, _, rfl, rfl⟩ | ⟨_, rfl, rfl⟩
      · exact .int hv
      · exact .float hv
    · rcases TypeView.scalarShape?_eq_some.1 hr with ⟨_, _, rfl, rfl⟩ | ⟨_, rfl, rfl⟩
      · exact .ints hm hv
      · exact .floats hm hv
  · rintro (hv | hv | ⟨hm, hv⟩ | ⟨hm, hv⟩)
    · simp [numericShape?, hv, TypeView.scalarShape?]
    · simp [numericShape?, hv, TypeView.scalarShape?]
    · simp [numericShape?, hm, hv, TypeView.scalarShape?]
    · simp [numericShape?, hm, hv, TypeView.scalarShape?]

theorem IsNumeric.element? (h : ix.IsNumeric m s) : ix.element? m = none := by
  cases h with
  | int hm | float hm | ints hm _ | floats hm _ => simp [Index.element?, hm, TypeView.element?]

end Index

end SpirvRules
