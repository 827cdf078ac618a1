import SpirvRules.Collection
import SpirvRules.Decoration.Table

/-!
# Decorations are ordered lawfully

Parameters and decorations compare equal only when they are the same, and comparing is transitive.
So a set of decorations in ascending order is one list, whatever order they were met in. What is on
a whole target comes before what is on its members, and keeps its order when it is moved onto one.
-/

set_option autoImplicit false

namespace SpirvRules

namespace DecorationParam

theorem eq_of_parts {p q : DecorationParam} (hr : p.rank = q.rank) (hn : p.number = q.number)
    (hc : p.characters = q.characters) : p = q := by
  cases p <;> cases q <;> simp only [rank, Nat.reduceEqDiff] at hr
  case literal.literal => exact congrArg literal hn
  case id.id => exact congrArg id hn
  case string.string => exact congrArg string hc
  case builtIn.builtIn => exact congrArg builtIn (BuiltIn.value_injective hn)
  case roundingMode.roundingMode => exact congrArg roundingMode (RoundingMode.value_injective hn)
  case linkage.linkage => exact congrArg linkage (Linkage.value_injective hn)
  case attribute.attribute =>
    exact congrArg DecorationParam.attribute (ParameterAttribute.value_injective hn)
  case other.other => exact congrArg other hc

instance : Std.TransOrd DecorationParam :=
  inferInstanceAs (Std.TransCmp
    (compareLex (compareOn rank) (compareLex (compareOn number) (compareOn characters))))

instance : Std.LawfulEqOrd DecorationParam where
  eq_of_compare {p q} h := by
    obtain ⟨hr, h⟩ := compareLex_eq_eq.1 h
    obtain ⟨hn, hc⟩ := compareLex_eq_eq.1 h
    exact eq_of_parts (Std.LawfulEqOrd.eq_of_compare hr) (Std.LawfulEqOrd.eq_of_compare hn)
      (Std.LawfulEqOrd.eq_of_compare hc)

end DecorationParam

namespace Decoration

instance : Std.TransOrd Decoration :=
  inferInstanceAs (Std.TransCmp (compareLex (compareOn member)
    (compareLex (compareOn fun d : Decoration => d.kind.value) (compareOn params))))

instance : Std.LawfulEqOrd Decoration where
  eq_of_compare {d e} h := by
    obtain ⟨hm, h⟩ := compareLex_eq_eq.1 h
    obtain ⟨hk, hp⟩ := compareLex_eq_eq.1 h
    obtain ⟨kind, params, member⟩ := d
    obtain ⟨kind', params', member'⟩ := e
    rw [mk.injEq]
    exact ⟨DecorationKind.value_injective (Std.LawfulEqOrd.eq_of_compare hk),
      Std.LawfulEqOrd.eq_of_compare hp, Std.LawfulEqOrd.eq_of_compare hm⟩

variable {d e f : Decoration}

theorem compare_eq (d e : Decoration) :
    compare d e = (compare d.member e.member).then
      ((compare d.kind.value e.kind.value).then (compare d.params e.params)) := rfl

theorem compare_eq_eq_iff :
    compare d e = .eq ↔ d.kind = e.kind ∧ d.params = e.params ∧ d.member = e.member := by
  constructor
  · intro h
    cases Std.LawfulEqOrd.eq_of_compare h
    exact ⟨rfl, rfl, rfl⟩
  · rintro ⟨hkind, hparams, hmember⟩
    rw [compare_eq, hkind, hparams, hmember]
    simp only [Std.ReflOrd.compare_self, Ordering.eq_then]

theorem compare_trans (o : Ordering) (h : compare d e = o) (h' : compare e f = o) :
    compare d f = o := by
  cases o with
  | lt => exact Std.TransCmp.lt_trans h h'
  | eq => exact Std.TransCmp.eq_trans h h'
  | gt => exact Std.TransCmp.gt_trans h h'

theorem compare_of_whole (hd : d.member = none) {n : Nat} (he : e.member = some n) :
    compare d e = .lt := by
  rw [compare_eq, hd, he]
  rfl

theorem compare_onMember (h : d.member = e.member) (n : Nat) :
    compare (d.onMember n) (e.onMember n) = compare d e := by
  rw [compare_eq, compare_eq, h, onMember, onMember]
  simp only [Std.ReflOrd.compare_self, Ordering.eq_then]

/-- Decorations are in a total order that tells apart what differs in kind, parameters or place. -/
theorem compare_lawful (a b c : Decoration) :
    compare b a = (compare a b).swap ∧
    (∀ o, compare a b = o → compare b c = o → compare a c = o) ∧
    ((compare a b).isLE → (compare b c).isLE → (compare a c).isLE) ∧
    (compare a b = .eq ↔ a.kind = b.kind ∧ a.params = b.params ∧ a.member = b.member) ∧
    (a.member = none → ∀ n, b.member = some n → compare a b = .lt) ∧
    (a.member = none → b.member = none →
      ∀ n, compare (a.onMember n) (b.onMember n) = compare a b) := by
  refine ⟨Std.OrientedOrd.eq_swap, compare_trans, Std.TransOrd.isLE_trans, compare_eq_eq_iff,
    fun ha _ hb => compare_of_whole ha hb, fun ha hb n => compare_onMember ?_ n⟩
  rw [ha, hb]

end Decoration

namespace Ordered

variable {α : Type} [Ord α] [Std.TransOrd α] [Std.LawfulEqOrd α]

theorem eq_of_mem_iff {s s' : List α} (h : s.Pairwise fun x y => compare x y = .lt)
    (h' : s'.Pairwise fun x y => compare x y = .lt) (hmem : ∀ a, a ∈ s ↔ a ∈ s') : s = s' := by
  have nodup : ∀ l : List α, (l.Pairwise fun x y => compare x y = .lt) → l.Nodup := by
    intro l hl
    apply hl.imp
    intro x y hxy heq
    rw [heq, Std.ReflOrd.compare_self] at hxy
    cases hxy
  have hperm : s.Perm s' := (List.perm_ext_iff_of_nodup (nodup s h) (nodup s' h')).2 hmem
  apply List.Perm.eq_of_pairwise ?_ h h' hperm
  intro a b _ _ hab hba
  exact absurd hba (Std.OrientedCmp.not_lt_of_lt hab)

/-- The set of some items does not depend on their order or on repetitions. -/
theorem ofList_eq_of_mem_iff {as bs : List α} (h : ∀ a, a ∈ as ↔ a ∈ bs) :
    ofList as = ofList bs := by
  apply eq_of_mem_iff (pairwise_ofList as) (pairwise_ofList bs)
  intro a
  rw [mem_ofList, mem_ofList]
  exact h a

end Ordered

/-!
### What the table answers

The distinct decorations of an id are those applied to it, and the ids listed are those with any.
-/

namespace Grouping

variable {α : Type}

theorem mem_ofPairs (ps : List (Id × α)) (i : Id) : i ∈ ofPairs ps ↔ ∃ a, (i, a) ∈ ps := by
  induction ps with
  | nil => simp [ofPairs]
  | cons p rest ih =>
    obtain ⟨j, a⟩ := p
    simp only [ofPairs, Std.TreeMap.mem_alter, Std.LawfulEqOrd.compare_eq_iff_eq]
    by_cases h : j = i
    · subst h
      simp only [if_true, Option.isSome_some, true_iff]
      exact ⟨a, List.mem_cons_self⟩
    · have hne : ∀ b, (i, b) ≠ (j, a) := fun b hb => h (congrArg Prod.fst hb).symm
      simp only [h, if_false, ih, List.mem_cons, hne, false_or]

end Grouping

namespace Table

variable (rs : List Record) (id : Id)

theorem mem_applied_ofRecords (d : Decoration) :
    d ∈ (ofRecords rs).applied id ↔ (id, d) ∈ rs := by
  rw [applied_ofRecords, List.mem_map]
  constructor
  · rintro ⟨r, hr, rfl⟩
    rw [List.mem_filter, decide_eq_true_eq] at hr
    rw [← hr.2]
    exact hr.1
  · intro h
    exact ⟨(id, d), List.mem_filter.2 ⟨h, decide_eq_true rfl⟩, rfl⟩

theorem mem_decorations_ofRecords (d : Decoration) :
    d ∈ (ofRecords rs).decorations id ↔ d ∈ (ofRecords rs).applied id := by
  rw [decorations_ofRecords]
  exact Ordered.mem_ofList d _

theorem decorations_ascending :
    ((ofRecords rs).decorations id).Pairwise fun d e => compare d e = .lt := by
  rw [decorations_ofRecords]
  exact Ordered.pairwise_ofList _

theorem mem_targets_ofRecords : id ∈ (ofRecords rs).targets ↔ (ofRecords rs).applied id ≠ [] := by
  show id ∈ Std.TreeMap.keys (Std.TreeMap.map _ (Grouping.ofPairs rs)) ↔ _
  rw [Std.TreeMap.mem_keys, Std.TreeMap.mem_map, Grouping.mem_ofPairs, Ne,
    List.eq_nil_iff_forall_not_mem]
  simp only [mem_applied_ofRecords, Classical.not_forall, Classical.not_not]

theorem memberHas_ofRecords {rs : List Record} {id : Id} {member : Nat} {kind : DecorationKind} :
    (ofRecords rs).memberHas id member kind ↔
      ∃ d ∈ (ofRecords rs).applied id, d.member = some member ∧ d.kind = kind := by
  simp only [memberHas, memberDecorations, List.any_filter, List.any_eq_true,
    mem_decorations_ofRecords, Bool.and_eq_true, decide_eq_true_eq]

theorem targets_congr {rs rs' : List Record}
    (h : ∀ id, (ofRecords rs').applied id = [] ↔ (ofRecords rs).applied id = []) :
    (ofRecords rs').targets = (ofRecords rs).targets := by
  apply Ordered.eq_of_mem_iff Std.TreeMap.ordered_keys Std.TreeMap.ordered_keys
  intro id
  show id ∈ (ofRecords rs').targets ↔ id ∈ (ofRecords rs).targets
  rw [mem_targets_ofRecords, mem_targets_ofRecords, Ne, h]

theorem targets_ascending (t : Table) : t.targets.Pairwise (· < ·) := by
  apply (Std.TreeMap.ordered_keys (t := t.sets)).imp
  intro a b h
  exact Std.compare_eq_lt.1 h

end Table

end SpirvRules
