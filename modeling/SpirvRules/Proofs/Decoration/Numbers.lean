import Mathlib.Data.List.Nodup
import SpirvRules.Layout.Explicit
import SpirvRules.Proofs.Decoration.Order
import SpirvRules.Proofs.Numbers
import SpirvRules.Rule.Basic

/-!
# Decorations without their numbers

Layout apart, rules look at a decoration that lays out memory for its kind and its member only. So
tables whose decorations are alike without the numbers answer alike; and where each such kind is
applied once only, taking the numbers away keeps the order of a set of decorations.
-/

set_option autoImplicit false

namespace SpirvRules

namespace Decoration

variable (d : Decoration)

def bare (d : Decoration) : Decoration := if d.kind.isNumbered then { d with params := [] } else d

@[simp] theorem kind_bare : d.bare.kind = d.kind := by
  unfold bare
  split <;> rfl

@[simp] theorem member_bare : d.bare.member = d.member := by
  unfold bare
  split <;> rfl

theorem bare_eq {d : Decoration} (h : d.kind.isNumbered = false) : d.bare = d := by
  rw [bare, h]
  rfl

theorem builtIn?_bare (h : d.kind = .builtIn) : d.bare.builtIn? = d.builtIn? := by
  rw [bare_eq (by rw [h]; rfl)]

theorem bare_placed (n : Option Nat) : (d.placed n).bare = d.bare.placed n := by
  cases n with
  | none => rfl
  | some n => cases hk : d.kind.isNumbered <;> simp [placed, onMember, bare, hk]

theorem bare_ofOperands (kind : DecorationKind) (params : List Operand) (member : Option Nat) :
    (ofOperands kind (if kind.isNumbered then params.map Operand.unnumbered else params)
      member).bare = (ofOperands kind params member).bare := by
  cases hk : kind.isNumbered <;> simp [bare, ofOperands, hk]

/-- Without their numbers two decorations stand in the same order, unless they are of one kind that
has numbers, at one place. -/
theorem compare_bare {d e : Decoration} (h : compare d e = .lt)
    (hne : d.kind.isNumbered = true → ¬(d.member = e.member ∧ d.kind = e.kind)) :
    compare d.bare e.bare = .lt := by
  rw [compare_eq, Ordering.then_eq_lt, Ordering.then_eq_lt] at h
  rw [compare_eq, Ordering.then_eq_lt, Ordering.then_eq_lt, member_bare, member_bare, kind_bare,
    kind_bare]
  rcases h with hm | ⟨hm, hk | ⟨hk, hp⟩⟩
  · exact .inl hm
  · exact .inr ⟨hm, .inl hk⟩
  · have hsame : d.kind = e.kind :=
      DecorationKind.value_injective (Std.LawfulEqOrd.eq_of_compare hk)
    have hd : d.kind.isNumbered = false := by
      rw [Bool.eq_false_iff]
      exact fun hd => hne hd ⟨Std.LawfulEqOrd.eq_of_compare hm, hsame⟩
    have he : e.kind.isNumbered = false := by
      rw [← hsame, hd]
    rw [bare_eq hd, bare_eq he]
    exact .inr ⟨hm, .inr ⟨hk, hp⟩⟩

end Decoration

namespace Repetition

theorem mem_once_of_isNumbered {k : DecorationKind} (h : k.isNumbered = true) : k ∈ once := by
  cases k <;> first
    | decide
    | cases h

/-- Two decorations of one kind with numbers, at one place, are one where nothing is repeated. -/
theorem eq_of_repeated? {ds : List Decoration} (h : repeated? ds = none) {d e : Decoration}
    (hd : d ∈ ds) (he : e ∈ ds) (hk : d.kind.isNumbered = true)
    (hmember : d.member = e.member) (hkind : d.kind = e.kind) : d = e := by
  rw [repeated?, firstRepeat?_eq_none] at h
  have hke : e.kind.isNumbered = true := by rw [← hkind, hk]
  apply List.inj_on_of_nodup_map h _ _ (Prod.ext hmember hkind)
  · exact List.mem_filter.2 ⟨hd, decide_eq_true (mem_once_of_isNumbered hk)⟩
  · exact List.mem_filter.2 ⟨he, decide_eq_true (mem_once_of_isNumbered hke)⟩

theorem ofList_bare {ds : List Decoration} (h : repeated? ds = none) :
    (Ordered.ofList ds).map Decoration.bare = Ordered.ofList (ds.map Decoration.bare) := by
  apply Ordered.eq_of_mem_iff
  · rw [List.pairwise_map]
    apply (Ordered.pairwise_ofList ds).imp_of_mem
    intro d e hd he hlt
    rw [Ordered.mem_ofList] at hd he
    apply Decoration.compare_bare hlt
    rintro hk ⟨hmember, hkind⟩
    rw [eq_of_repeated? h hd he hk hmember hkind, Std.ReflOrd.compare_self] at hlt
    cases hlt
  · exact Ordered.pairwise_ofList _
  · intro d
    simp only [List.mem_map, Ordered.mem_ofList]

/-- Repetitions are repetitions of a kind at a place, whatever the parameters. -/
theorem repeated?_perm {as bs : List Decoration}
    (hab : (as.map Decoration.bare).Perm (bs.map Decoration.bare)) :
    repeated? as = none ↔ repeated? bs = none := by
  have hkeys : ∀ ds : List Decoration, repeated? ds = none ↔
      ((ds.map Decoration.bare).filterMap fun d =>
        if d.kind ∈ once then some (d.member, d.kind) else none).Nodup := by
    intro ds
    rw [repeated?, firstRepeat?_eq_none, List.filterMap_map, ← List.filterMap_eq_map,
      List.filterMap_filter]
    simp
  rw [hkeys, hkeys]
  exact (hab.filterMap _).nodup_iff

theorem repeated?_append {as bs : List Decoration} (h : repeated? (as ++ bs) = none) :
    repeated? as = none := by
  rw [repeated?, firstRepeat?_eq_none] at h ⊢
  rw [List.filter_append, List.map_append] at h
  exact h.of_append_left

end Repetition

namespace Table

structure Alike (t t' : Table) : Prop where
  targets : t.targets = t'.targets
  each : ∀ id, (t.decorations id).map Decoration.bare = (t'.decorations id).map Decoration.bare

namespace Alike

variable {t t' : Table} (h : t.Alike t')

include h

theorem any {p : Decoration → Bool} (hp : ∀ d, p d.bare = p d) (id : Id) :
    (t.decorations id).any p = (t'.decorations id).any p :=
  any_eq_of_alike (h.each id) hp

theorem find? {p : Decoration → Bool} (hp : ∀ d, p d.bare = p d) (id : Id) :
    ((t.decorations id).find? p).map Decoration.bare =
      ((t'.decorations id).find? p).map Decoration.bare := by
  have hmap : ∀ ds : List Decoration,
      (ds.find? p).map Decoration.bare = (ds.map Decoration.bare).find? p := by
    intro ds
    rw [List.find?_map]
    exact congrArg (fun q => (ds.find? q).map Decoration.bare) (funext fun d => (hp d).symm)
  rw [hmap, h.each, ← hmap]

theorem has : t.has = t'.has := by
  funext id k
  simp only [Table.has, objectDecorations, List.any_filter]
  exact h.any (fun d => by rw [Decoration.member_bare, Decoration.kind_bare]) id

theorem memberHas : t.memberHas = t'.memberHas := by
  funext id n k
  simp only [Table.memberHas, memberDecorations, List.any_filter]
  exact h.any (fun d => by rw [Decoration.member_bare, Decoration.kind_bare]) id

theorem anyMemberHas : t.anyMemberHas = t'.anyMemberHas := by
  funext id k
  exact h.any (fun d => by rw [Decoration.member_bare, Decoration.kind_bare]) id

theorem blockKind? : t.blockKind? = t'.blockKind? := by
  funext id
  simp only [Table.blockKind?, h.has]

end Alike

end Table

end SpirvRules
