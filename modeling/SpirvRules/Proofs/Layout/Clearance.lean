import SpirvRules.Proofs.Layout.Canonical

/-!
# Canonical layouts lack nothing

The checks that come before the walk find that a block laid out canonically has all the offsets and
decorations it needs. They stop early only where its types go too deep.
-/

set_option autoImplicit false

namespace SpirvRules

open Stateful

namespace Explicit

section Check

variable {P I : Std.TreeSet Id → Prop} {Q : Unit → Std.TreeSet Id → Prop}
variable {E : Stop → Std.TreeSet Id → Prop} {c : Check Unit} {id : Id}

theorem run_unlessKnown (id : Id) (c : Check Unit) (known : Std.TreeSet Id) :
    run (unlessKnown id c) known = if id ∈ known then (.ok (), known) else run c known := by
  rw [unlessKnown, run_bind_of_ok (run_get known)]
  by_cases h : id ∈ known
  · rw [if_pos h, Std.TreeSet.contains_iff_mem.2 h]
    rfl
  · have hfalse : known.contains id = false := by
      rwa [← Bool.not_eq_true, Std.TreeSet.contains_iff_mem]
    rw [if_neg h, hfalse]
    rfl

theorem triple_unlessKnown (hk : ∀ known, P known → id ∈ known → Q () known)
    (h : Triple P c Q E) : Triple P (unlessKnown id c) Q E := by
  intro known hp
  rw [run_unlessKnown]
  split
  · next hid => exact .ok (hk known hp hid)
  · exact h known hp

theorem invariant_unlessKnown (h : Invariant I E c) : Invariant I E (unlessKnown id c) :=
  triple_unlessKnown (fun _ hi _ => hi) h

theorem invariant_learn : Invariant (fun _ => True) E (learn id) :=
  triple_modify fun _ _ => trivial

theorem outcome_eq (c : Check Unit) : outcome c =
    match (run c ∅).1 with
    | .ok _ => .ok false
    | .error .lacking => .ok true
    | .error (.tooDeep id) => .error id := rfl

end Check

/-- A check finds nothing lacking; if `deep`, it may find a type nested too deep. -/
def Clear (deep : Prop) (c : Check Unit) : Prop :=
  Invariant (fun _ => True) (fun f _ => deep ∧ ∃ id, f = .tooDeep id) c

section Canonical

variable {ix : Index} {t : Table} {deep : Prop} {x y id : Id} {k a s : Nat}

/-- What a type is made of is laid out canonically with it, and takes up no more. -/
theorem canonical_inner (h : Canonical ix t x k id a s) (hy : y ∈ inner ix id) :
    ∃ x' k' a' s', Canonical ix t x' k' y a' s' ∧ s' ≤ s := by
  rcases mem_inner_iff.1 hy with he | hm
  · obtain ⟨_, _, _, _, _, _, _, _, _, _, h', _, rfl⟩ := h.of_element he
    exact ⟨_, _, _, _, h', Nat.le_add_left _ _⟩
  · obtain ⟨ms, hv⟩ := Index.exists_struct_of_mem_members hm
    obtain ⟨_, hids, p, hp, hall, _, rfl⟩ := h.of_struct hv
    have hlen := length_members hv hids
    obtain ⟨j, hj, rfl⟩ := List.getElem_of_mem hm
    have hend := hp.end_le (j := j) (i := ms.length - 1) (by omega) (by omega)
    exact ⟨_, _, _, _, hall j _ (List.getElem?_eq_getElem hj), by omega⟩

theorem lacksOffset_eq_false {ms : List Operand} (h : Canonical ix t x k id a s)
    (hs : s < 0x100000000) (hv : ix.type? id = some (.struct ms)) :
    lacksOffset t id ms = false := by
  obtain ⟨_, hids, p, hp, hm, _, rfl⟩ := h.of_struct hv
  have hlen := length_members hv hids
  simp only [lacksOffset, List.any_eq_false, List.mem_range]
  intro j hj
  have hpos := (hm j _ (List.getElem?_eq_getElem (hlen ▸ hj))).size_pos
  obtain ⟨o, ho, _⟩ := hp.usable (by omega) (by omega) hpos hs
  simp [ho]

theorem clear_offsets (n : Nat) (h : Canonical ix t x k id a s) (hs : s < 0x100000000)
    (hdeep : ¬ deep → ix.isShallow n id) : Clear deep (offsets ix t n id) := by
  induction n generalizing x k id a s with
  | zero =>
    have hd : deep := by
      by_contra hd
      cases hdeep hd
    exact invariant_unlessKnown (triple_throw fun _ _ => ⟨hd, _, rfl⟩)
  | succ n ih =>
    have inside : Clear deep ((inner ix id).forM (offsets ix t n)) := by
      apply invariant_forM
      intro y hy
      obtain ⟨_, _, _, _, h', hle⟩ := canonical_inner h hy
      exact ih h' (by omega) fun hd => Index.isShallow_inner (hdeep hd) hy
    apply invariant_unlessKnown
    split
    · next ms hv =>
      rw [lacksOffset_eq_false h hs hv]
      exact inside.bind fun _ => invariant_learn
    · exact inside.bind fun _ => invariant_learn

/-- A place with what it takes to be looked at in `n` levels: a struct takes one, and each member
that is a struct another. -/
def Ready (ix : Index) (t : Table) (deep : Prop) (n : Nat) : Place → Prop
  | .struct id => (∃ x k a s, Canonical ix t x k id a s) ∧
    (¬ deep → 0 < n ∧ ix.isShallow (n + 1) id)
  | .member x k id => (∃ a s, Canonical ix t x k id a s) ∧ (¬ deep → ix.isShallow n id)

theorem meets_of_stores {stride : Nat} {r : Bool} (h : t.Stores x k r stride) (need : Need) :
    meets t need x k = true := by
  cases need with
  | arrayStride => rfl
  | matrixStride => exact h.given
  | majorness =>
    simp only [meets, h.row, h.col]
    cases r <;> rfl

theorem has_of_literal {stride : UInt32} (h : t.literal? id .arrayStride = some stride) :
    t.has id .arrayStride = true := by
  obtain ⟨d, hd, _⟩ := Option.bind_eq_some_iff.1 h
  have hkind := List.find?_some hd
  exact List.any_eq_true.2 ⟨d, List.mem_of_find?_eq_some hd, hkind⟩

theorem clear_needs_zero {need : Need} {l : Place} (h : Ready ix t deep 0 l) :
    Clear deep (needs ix t need 0 l) := by
  have hd : deep := by
    by_contra hd
    cases l with
    | struct id => exact Nat.lt_irrefl 0 (h.2 hd).1
    | member x k id => cases h.2 hd
  cases l with
  | struct id => exact invariant_unlessKnown (triple_throw fun _ _ => ⟨hd, _, rfl⟩)
  | member x k id => exact triple_throw fun _ _ => ⟨hd, _, rfl⟩

section Level

variable {need : Need} {n : Nat}
variable (ih : ∀ {l}, Ready ix t deep n l → Clear deep (needs ix t need n l))

include ih

theorem clear_needs_struct (h : Ready ix t deep (n + 1) (.struct id)) :
    Clear deep (needs ix t need (n + 1) (.struct id)) := by
  obtain ⟨⟨x, k, a, s, h⟩, hdeep⟩ := h
  apply invariant_unlessKnown
  split
  · next ms hv =>
    obtain ⟨_, _, p, _, hm, _⟩ := h.of_struct hv
    rw [Index.members_eq hv] at hm
    refine Triple.bind (invariant_forM ?_) fun _ => invariant_learn
    rintro ⟨y, j⟩ hy
    have hj := List.mk_mem_zipIdx_iff_getElem?.1 hy
    refine ih ⟨⟨_, _, hm j y hj⟩, fun hd => ?_⟩
    rw [← Index.members_eq hv] at hj
    exact Index.isShallow_member_of_struct hv (hdeep hd).2 (List.mem_of_getElem? hj)
  · exact invariant_pure ()

theorem clear_needs_member (h : Ready ix t deep (n + 1) (.member x k id)) :
    Clear deep (needs ix t need (n + 1) (.member x k id)) := by
  obtain ⟨⟨a, s, h⟩, hdeep⟩ := h
  have element : ∀ e, ix.element? id = some e → Clear deep (do
      if need = .arrayStride ∧ !t.has id .arrayStride then throw .lacking
      needs ix t need n (.member x k e)) := by
    intro e he
    obtain ⟨_, _, _, _, _, hv, _, _, hs, _, h', _⟩ := h.of_element he
    rw [has_of_literal hs, if_neg (by simp)]
    exact ih ⟨⟨_, _, h'⟩, fun hd => Index.isShallow_element hv n (hdeep hd)⟩
  simp only [needs]
  split
  · next e _ hv => exact element e (Index.element?_array hv)
  · next e hv => exact element e (Index.element?_runtimeArray hv)
  · next col _ hv =>
    obtain ⟨⟨r, hs⟩, _⟩ := h.of_matrix hv
    rw [if_pos (meets_of_stores hs need)]
    exact invariant_pure ()
  · next ms hv =>
    refine ih ⟨⟨_, _, _, _, h⟩, fun hd => ⟨?_, hdeep hd⟩⟩
    exact Nat.lt_of_succ_lt_succ (Index.one_lt_of_isShallow hv (hdeep hd))
  · exact invariant_pure ()

end Level

theorem clear_needs (need : Need) (n : Nat) {l : Place} (h : Ready ix t deep n l) :
    Clear deep (needs ix t need n l) := by
  induction n generalizing l with
  | zero => exact clear_needs_zero h
  | succ n ih =>
    cases l with
    | struct id => exact clear_needs_struct ih h
    | member x k id => exact clear_needs_member ih h

end Canonical

end Explicit

end SpirvRules
