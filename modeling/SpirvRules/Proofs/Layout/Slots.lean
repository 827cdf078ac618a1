import Mathlib.Data.List.Pairwise
import SpirvRules.Layout.Walk

/-!
# The slots of a struct

Each member has one slot, with the offset its decorations give it and the type its place gives it.
The elements of an array are looked at where their stride places them.
-/

set_option autoImplicit false

namespace SpirvRules

theorem Table.usableOffset?_eq_some {t : Table} {struct : Id} {i : Nat} {o : UInt32} :
    t.usableOffset? struct i = some o ↔ t.memberOffset? struct i = some o ∧ o ≠ Word.top := by
  simp [usableOffset?, Option.filter_eq_some_iff]

theorem Index.mem_defs_of_type? {ix : Index} {id : Id} {v : TypeView} (h : ix.type? id = some v) :
    id ∈ ix.defs := by
  unfold type? inst? def? at h
  by_contra hx
  rw [Std.TreeMap.getElem?_eq_none hx] at h
  cases h

def Index.members (ix : Index) (id : Id) : List Id := (ix.type? id).elim [] TypeView.memberIds

def Index.arrayLength (ix : Index) (id : Id) : UInt32 :=
  match ix.type? id with
  | some (.array _ length) => (ix.constant? length).getD 0
  | _ => 0

theorem Index.members_eq {ix : Index} {id : Id} {ms : List Operand}
    (h : ix.type? id = some (.struct ms)) : ix.members id = (TypeView.struct ms).memberIds := by
  simp [members, h]

theorem Index.element?_eq_some_iff {ix : Index} {id e : Id} :
    ix.element? id = some e ↔
      (∃ length, ix.type? id = some (.array e length)) ∨ ix.type? id = some (.runtimeArray e) := by
  rw [element?]
  cases ix.type? id with
  | none => simp
  | some v => cases v <;> simp [TypeView.element?]

theorem Index.element?_array {ix : Index} {id e length : Id}
    (h : ix.type? id = some (.array e length)) : ix.element? id = some e :=
  element?_eq_some_iff.2 (.inl ⟨length, h⟩)

theorem Index.element?_runtimeArray {ix : Index} {id e : Id}
    (h : ix.type? id = some (.runtimeArray e)) : ix.element? id = some e :=
  element?_eq_some_iff.2 (.inr h)

theorem Index.element?_struct {ix : Index} {id : Id} {ms : List Operand}
    (h : ix.type? id = some (.struct ms)) : ix.element? id = none := by
  simp [element?, h, TypeView.element?]

theorem Index.isStruct_iff {ix : Index} {id : Id} :
    (ix.type? id).any TypeView.isStruct ↔ ∃ ms, ix.type? id = some (.struct ms) := by
  cases ix.type? id with
  | none => simp
  | some v => cases v <;> simp [TypeView.isStruct]

theorem Index.isStruct_of_members_ne_nil {ix : Index} {id : Id} (h : ix.members id ≠ []) :
    (ix.type? id).any TypeView.isStruct := by
  unfold Index.members at h
  cases hv : ix.type? id with
  | none => simp [hv] at h
  | some v => cases v <;> simp [hv, TypeView.memberIds, TypeView.isStruct] at h ⊢

theorem Index.exists_struct_of_mem_members {ix : Index} {id x : Id} (h : x ∈ ix.members id) :
    ∃ ms, ix.type? id = some (.struct ms) :=
  Index.isStruct_iff.1 (Index.isStruct_of_members_ne_nil (List.ne_nil_of_mem h))

theorem Index.members_eq_nil {ix : Index} {id : Id}
    (h : ¬ (ix.type? id).any TypeView.isStruct) : ix.members id = [] :=
  Classical.byContradiction fun hne => h (Index.isStruct_of_members_ne_nil hne)

namespace Explicit

variable {ix : Index} {id x : Id}

theorem mem_inner_iff : x ∈ inner ix id ↔ ix.element? id = some x ∨ x ∈ ix.members id := by
  unfold inner Index.element? Index.members
  cases ix.type? id <;> simp

end Explicit

namespace Slot

variable {t : Table} {struct : Id} {base : UInt32} {members : List Id} {s : Slot}

theorem mem_ofStruct :
    s ∈ ofStruct t struct base members ↔ members[s.member]? = some s.type ∧
      s.offset = (t.usableOffset? struct s.member).map (Word.addSat base) := by
  constructor
  · intro h
    obtain ⟨⟨m, i⟩, hm, rfl⟩ := List.mem_map.1 h
    exact ⟨List.mk_mem_zipIdx_iff_getElem?.1 hm, rfl⟩
  · rintro ⟨hm, ho⟩
    refine List.mem_map.2 ⟨(s.type, s.member), List.mk_mem_zipIdx_iff_getElem?.2 hm, ?_⟩
    simp only [← ho]

theorem mem_places {i : Nat} {m : Id} {o : UInt32} (hm : members[i]? = some m)
    (ho : t.usableOffset? struct i = some o) :
    base.toNat + o.toNat ∈ places t struct base members :=
  List.mem_filterMap.2 ⟨(m, i), List.mk_mem_zipIdx_iff_getElem?.2 hm, by simp [ho]⟩

def judged (ix : Index) (t : Table) (struct : Id) (base : UInt32) : List Slot :=
  inOrder (ofStruct t struct base (ix.members struct))

variable {ix : Index}

theorem mem_judged :
    s ∈ judged ix t struct base ↔ (ix.members struct)[s.member]? = some s.type ∧
      s.offset = (t.usableOffset? struct s.member).map (Word.addSat base) :=
  (inOrder_perm _).mem_iff.trans mem_ofStruct

theorem type_mem (h : s ∈ judged ix t struct base) : s.type ∈ ix.members struct :=
  List.mem_of_getElem? (mem_judged.1 h).1

theorem exists_judged {i : Nat} {m : Id} (hm : (ix.members struct)[i]? = some m) :
    ∃ s ∈ judged ix t struct base, s.member = i ∧ s.type = m ∧
      s.offset = (t.usableOffset? struct i).map (Word.addSat base) :=
  ⟨⟨i, m, _⟩, mem_judged.2 ⟨hm, rfl⟩, rfl, rfl, rfl⟩

theorem inOrder_eq_self {l : List Slot} (h : l.Pairwise fun x y => x.key ≤ y.key) :
    inOrder l = l := by
  induction l with
  | nil => rfl
  | cons s l ih =>
    obtain ⟨hs, hl⟩ := List.pairwise_cons.1 h
    have hrest : inOrder (s :: l) = s.place l := congrArg (place s) (ih hl)
    rw [hrest]
    cases l with
    | nil => rfl
    | cons r l => exact if_pos (hs r (by simp))

def Before (s r : Slot) : Prop := s.key < r.key ∨ s.key = r.key ∧ s.member < r.member

theorem Before.asymm {s r : Slot} (h : Before s r) : ¬ Before r s := by
  simp only [Before, UInt32.lt_iff_toNat_lt, ← UInt32.toNat_inj] at h ⊢
  omega

theorem pairwise_place_before {l : List Slot} (h : l.Pairwise Before)
    (hs : ∀ r ∈ l, s.member < r.member) : (s.place l).Pairwise Before := by
  fun_induction place s l with
  | case1 => simp
  | case2 r rest hsr =>
    refine List.pairwise_cons.2 ⟨fun x hx => ?_, h⟩
    have hmember := hs x hx
    have hle : s.key ≤ x.key := by
      rcases List.mem_cons.1 hx with rfl | hx
      · exact hsr
      · refine UInt32.le_trans hsr ?_
        rcases (List.pairwise_cons.1 h).1 x hx with hlt | ⟨heq, _⟩
        · exact UInt32.le_of_lt hlt
        · exact UInt32.le_of_eq heq
    rcases UInt32.lt_or_eq_of_le hle with hlt | heq
    · exact .inl hlt
    · exact .inr ⟨heq, hmember⟩
  | case3 r rest hsr ih =>
    obtain ⟨hr, hrest⟩ := List.pairwise_cons.1 h
    refine List.pairwise_cons.2 ⟨fun x hx => ?_, ih hrest fun x hx => hs x (by simp [hx])⟩
    rcases List.mem_cons.1 ((place_perm s rest).mem_iff.1 hx) with rfl | hx
    · exact .inl (UInt32.not_le.1 hsr)
    · exact hr x hx

theorem pairwise_inOrder_before {l : List Slot} (h : l.Pairwise fun s r => s.member < r.member) :
    (inOrder l).Pairwise Before := by
  induction l with
  | nil => exact .nil
  | cons s l ih =>
    obtain ⟨hs, hl⟩ := List.pairwise_cons.1 h
    exact pairwise_place_before (ih hl) fun r hr => hs r ((inOrder_perm l).mem_iff.1 hr)

/-- Slots at one offset are judged in the order of their members. -/
theorem pairwise_judged_before : (judged ix t struct base).Pairwise Before := by
  apply pairwise_inOrder_before
  rw [ofStruct, List.pairwise_map, List.pairwise_iff_getElem]
  intro i j hi hj hij
  simpa using hij

theorem pairwise_judged : (judged ix t struct base).Pairwise fun x y => x.key ≤ y.key :=
  pairwise_inOrder _

end Slot

section Elements

variable {stride length offset : UInt32} {i : Nat}

theorem zero_mem_elementIndices (stride length : UInt32) : 0 ∈ elementIndices stride length := by
  have hle : Nat.gcd 16 stride.toNat ≤ 16 := Nat.gcd_le_left _ (by decide)
  have hpos : 0 < 16 / Nat.gcd 16 stride.toNat :=
    Nat.div_pos hle (Nat.gcd_pos_of_pos_left _ (by decide))
  rw [elementIndices, List.mem_range]
  omega

/-- Offsets of elements wrap. -/
theorem toNat_elementOffset_eq_mod :
    (elementOffset offset stride i).toNat = (offset.toNat + i * stride.toNat) % 0x100000000 := by
  simp only [elementOffset, UInt32.toNat_add, UInt32.toNat_mul, UInt32.toNat_ofNat',
    Nat.mod_mul_mod, Nat.add_mod_mod]

theorem toNat_elementOffset (h : offset.toNat + i * stride.toNat < 0x100000000) :
    (elementOffset offset stride i).toNat = offset.toNat + i * stride.toNat := by
  rw [toNat_elementOffset_eq_mod]
  exact Nat.mod_eq_of_lt h

end Elements

end SpirvRules
