import SpirvRules.Proofs.Layout.Alignments
import SpirvRules.Proofs.Layout.Buffers
import SpirvRules.Proofs.Layout.Chain
import SpirvRules.Proofs.Layout.Nesting
import SpirvRules.Proofs.Validation

/-!
# The leaves of a block

The numbers in a block, and the vectors of numbers, are reached by paths of members and array
indices. No two of them share an octet, as long as every nested struct ends where its size says,
lengths of arrays fit a word and no offset was met that a word cannot hold.
-/

set_option autoImplicit false

namespace SpirvRules

open Outcome Stateful

structure Leaf where
  offset : Nat
  size : Nat
  deriving DecidableEq

namespace Leaf

def stop (l : Leaf) : Nat := l.offset + l.size

def shift (n : Nat) (l : Leaf) : Leaf := ⟨n + l.offset, l.size⟩

def Apart (l r : Leaf) : Prop := l.stop ≤ r.offset ∨ r.stop ≤ l.offset

instance (l r : Leaf) : Decidable (Apart l r) := inferInstanceAs (Decidable (_ ∨ _))

theorem stop_shift (n : Nat) (l : Leaf) : (l.shift n).stop = n + l.stop := by
  simp only [stop, shift]
  omega

theorem Apart.symm {l r : Leaf} (h : Apart l r) : Apart r l := Or.symm h

theorem Apart.shift {l r : Leaf} (h : Apart l r) (n : Nat) : Apart (l.shift n) (r.shift n) := by
  simp only [Apart, stop_shift] at h ⊢
  simp only [Leaf.shift]
  omega

theorem apart_of_stop_le {l r : Leaf} {n o o' : Nat} (hl : l.stop ≤ n) (h : o + n ≤ o') :
    Apart (l.shift o) (r.shift o') := by
  left
  rw [stop_shift]
  simp only [Leaf.shift]
  omega

end Leaf

section Paths

variable (ix : Index) (t : Table)

def part? (id : Id) (k : Nat) : Option (Id × Nat) :=
  match ix.type? id with
  | some (.struct _) => do return (← (ix.members id)[k]?, (← t.memberOffset? id k).toNat)
  | some (.array e length) =>
    (ix.integer? length).bind fun n =>
      if k < n then some (e, k * (t.stride id).toNat) else none
  | _ => none

def leaf? : Id → List Nat → Option Leaf
  | id, [] => (ix.numericShape? id).map fun s => ⟨0, s.count.toNat * (s.width.toNat / 8)⟩
  | id, k :: path => do
    let (part, offset) ← part? ix t id k
    return (← leaf? part path).shift offset

def Separate (id : Id) : Prop :=
  ∀ p q l r, p ≠ q → leaf? ix t id p = some l → leaf? ix t id q = some r → l.Apart r

def EndBy (id : Id) (n : Nat) : Prop := ∀ p l, leaf? ix t id p = some l → l.stop ≤ n

end Paths

section Windows

variable {ix : Index} {t : Table} {id m : Id} {k n : Nat} {path : List Nat} {l : Leaf}

theorem leaf?_cons :
    leaf? ix t id (k :: path) = some l ↔
      ∃ m o r, part? ix t id k = some (m, o) ∧ leaf? ix t m path = some r ∧ l = r.shift o := by
  simp only [leaf?, Option.bind_eq_bind, Option.bind_eq_some_iff, Option.pure_def,
    Option.some.injEq]
  constructor
  · rintro ⟨⟨m, o⟩, hp, r, hr, rfl⟩
    exact ⟨m, o, r, hp, hr, rfl⟩
  · rintro ⟨m, o, r, hp, hr, rfl⟩
    exact ⟨(m, o), hp, r, hr, rfl⟩

/-- Leaves are apart when parts with leaves lie in windows of their own. -/
theorem separate_of_windows {W : (k offset size : Nat) → Prop}
    (hn : ix.numericShape? id = none)
    (hw : ∀ k m o p l, part? ix t id k = some (m, o) → leaf? ix t m p = some l →
      ∃ n, W k o n ∧ Separate ix t m ∧ EndBy ix t m n)
    (hd : ∀ j k o n o' n', j ≠ k → W j o n → W k o' n' → o + n ≤ o' ∨ o' + n' ≤ o) :
    Separate ix t id := by
  intro p q l r hpq hl hr
  cases p with
  | nil => simp [leaf?, hn] at hl
  | cons j p =>
    cases q with
    | nil => simp [leaf?, hn] at hr
    | cons k q =>
      obtain ⟨m, o, l, hm, hl', rfl⟩ := leaf?_cons.1 hl
      obtain ⟨m', o', r, hm', hr', rfl⟩ := leaf?_cons.1 hr
      obtain ⟨n, hwin, hsep, hend⟩ := hw j m o p l hm hl'
      obtain ⟨n', hwin', _, hend'⟩ := hw k m' o' q r hm' hr'
      by_cases hjk : j = k
      · subst hjk
        cases hm.symm.trans hm'
        exact (hsep p q l r (fun h => hpq (by rw [h])) hl' hr').shift o
      · rcases hd j k o n o' n' hjk hwin hwin' with h | h
        · exact Leaf.apart_of_stop_le (hend p l hl') h
        · exact (Leaf.apart_of_stop_le (hend' q r hr') h).symm

theorem endBy_of_windows {W : (k offset size : Nat) → Prop} {b : Nat}
    (hn : ix.numericShape? id = none)
    (hw : ∀ k m o p l, part? ix t id k = some (m, o) → leaf? ix t m p = some l →
      ∃ n, W k o n ∧ Separate ix t m ∧ EndBy ix t m n)
    (hb : ∀ k o n, W k o n → o + n ≤ b) : EndBy ix t id b := by
  intro p l hl
  cases p with
  | nil => simp [leaf?, hn] at hl
  | cons k p =>
    obtain ⟨m, o, l, hm, hl', rfl⟩ := leaf?_cons.1 hl
    obtain ⟨n, hwin, _, hend⟩ := hw k m o p l hm hl'
    rw [Leaf.stop_shift]
    exact Nat.le_trans (Nat.add_le_add_left (hend p l hl') o) (hb k o n hwin)

end Windows

/-- No member of a struct ends past the size of the struct, as when the member declared last ends
last. -/
def EndsInside (ix : Index) (t : Table) (struct : Id) : Prop :=
  ∀ i m o s n, (ix.members struct)[i]? = some m → ix.type? m ≠ some (.struct []) →
    t.memberOffset? struct i = some o →
    (Quantity.size m (t.constraints struct i)).Value ix t s →
    (Quantity.size struct {}).Value ix t n → o.toNat + s.toNat ≤ n.toNat

abbrev Index.Reaches (ix : Index) : Id → Id → Prop :=
  Relation.ReflTransGen fun a b => b ∈ Explicit.inner ix a

/-- Lengths of arrays fit a word, and nested structs end where their size says. -/
structure Regular (ix : Index) (t : Table) (root : Id) : Prop where
  lengths : ∀ x e length n, ix.Reaches root x → ix.type? x = some (.array e length) →
    ix.integer? length = some n → n < 0x100000000
  ends : ∀ x, ix.Inside root x → EndsInside ix t x

section Regular

variable {ix : Index} {t : Table} {types : List Id} {root x : Id}

theorem mem_of_reaches (hr : root ∈ types)
    (hc : ∀ a ∈ types, ∀ b ∈ Explicit.inner ix a, b ∈ types) (h : ix.Reaches root x) :
    x ∈ types := by
  induction h with
  | refl => exact hr
  | tail _ hb ih => exact hc _ ih _ hb

def regularAmong (ix : Index) (t : Table) (room : Nat) (types : List Id) : Bool :=
  types.all fun x => (Explicit.inner ix x).all types.contains &&
    (match ix.type? x with
      | some (.array _ length) => (ix.integer? length).all (· < 0x100000000)
      | _ => true) &&
    (ix.members x).zipIdx.all fun (m, i) =>
      match t.memberOffset? x i,
        Rule.plain (Quantity.rule ix t) room (.size m (t.constraints x i)),
        Rule.plain (Quantity.rule ix t) room (.size x {}) with
      | some o, .ok s, .ok n => o.toNat + s.toNat ≤ n.toNat
      | _, _, _ => false

theorem regular_of_regularAmong {room : Nat} (hr : root ∈ types)
    (h : regularAmong ix t room types = true) : Regular ix t root := by
  simp only [regularAmong, List.all_eq_true, Bool.and_eq_true, List.contains_iff_mem] at h
  have hmem : ∀ x, ix.Reaches root x → x ∈ types :=
    fun x => mem_of_reaches hr fun a ha b hb => (h a ha).1.1 b hb
  constructor
  · intro x e length n hx hv hn
    have hall := (h x (hmem x hx)).1.2
    simpa [hv, hn] using hall
  · intro x hx i m o s n hm _ ho hs hn
    have hall := (h x (hmem x hx.to_reflTransGen)).2 (m, i) (List.mk_mem_zipIdx_iff_getElem?.2 hm)
    simp only [ho] at hall
    split at hall
    · next o' s' n' ho' hs' hn' =>
      cases ho'
      cases hs.unique ⟨room, hs'⟩
      cases hn.unique ⟨room, hn'⟩
      simpa using hall
    · cases hall

end Regular

namespace Walk

variable {ix : Index} {t : Table} {u : BlockUse} {root : Id}

def StructApart (ix : Index) (t : Table) (root id : Id) : Prop :=
  (ix.type? id).any TypeView.isStruct → ix.Reaches root id →
    Separate ix t id ∧ (ix.Inside root id → ∀ c n, (Quantity.size id c).Value ix t n →
      n.toNat < 0xFFFFFFFF → EndBy ix t id n.toNat)

def ArrayApart (ix : Index) (t : Table) (root : Id) (c : Constraints) (id : Id) : Prop :=
  ix.Inside root id → (∀ ms, ix.type? id ≠ some (.struct ms)) → ∀ n,
    (Quantity.size id c).Value ix t n → n.toNat < 0xFFFFFFFF →
      Separate ix t id ∧ EndBy ix t id n.toNat

def SiteApart (ix : Index) (t : Table) (root : Id) : Site → Prop
  | .struct id _ => StructApart ix t root id
  | .array h id _ => ArrayApart ix t root h.constraints id

section Parts

variable {id m : Id} {k o : Nat} {path : List Nat} {l : Leaf}

theorem part?_struct {ms : List Operand} (hv : ix.type? id = some (.struct ms)) :
    part? ix t id k = some (m, o) ↔ (ix.members id)[k]? = some m ∧
      ∃ x, t.memberOffset? id k = some x ∧ o = x.toNat := by
  simp only [part?, hv, Option.bind_eq_bind, Option.bind_eq_some_iff, Option.pure_def,
    Option.some.injEq, Prod.mk.injEq]
  constructor
  · rintro ⟨_, hm, x, hx, rfl, rfl⟩
    exact ⟨hm, x, hx, rfl⟩
  · rintro ⟨hm, x, hx, rfl⟩
    exact ⟨m, hm, x, hx, rfl, rfl⟩

theorem part?_array {e length : Id} (hv : ix.type? id = some (.array e length)) :
    part? ix t id k = some (m, o) ↔ m = e ∧ (∃ n, ix.integer? length = some n ∧ k < n) ∧
      o = k * (t.stride id).toNat := by
  simp only [part?, hv, Option.bind_eq_some_iff, Option.ite_none_right_eq_some,
    Option.some.injEq, Prod.mk.injEq]
  constructor
  · rintro ⟨n, hn, hk, rfl, rfl⟩
    exact ⟨rfl, ⟨n, hn, hk⟩, rfl⟩
  · rintro ⟨rfl, ⟨n, hn, hk⟩, rfl⟩
    exact ⟨n, hn, hk, rfl, rfl⟩

theorem apart_of_no_parts (h : ∀ k, part? ix t id k = none) :
    Separate ix t id ∧ ∀ c n, (Quantity.size id c).Value ix t n → n.toNat < 0xFFFFFFFF →
      EndBy ix t id n.toNat := by
  constructor
  · intro p q l r hpq hl hr
    cases p with
    | nil =>
      cases q with
      | nil => exact absurd rfl hpq
      | cons k q => simp [leaf?, h] at hr
    | cons k p => simp [leaf?, h] at hl
  · intro c n hv hn p l hl
    cases p with
    | nil =>
      obtain ⟨s, hs, rfl⟩ := Option.map_eq_some_iff.1 hl
      rw [Quantity.size_numeric hs hv hn]
      simp only [Leaf.stop]
      omega
    | cons k p => simp [leaf?, h] at hl

theorem type?_ne_empty_of_leaf (h : leaf? ix t id path = some l) :
    ix.type? id ≠ some (.struct []) := by
  intro hv
  cases path with
  | nil => simp [leaf?, Index.numericShape?, hv, TypeView.scalarShape?] at h
  | cons k path =>
    obtain ⟨m, o, _, hp, _⟩ := leaf?_cons.1 h
    have hm := ((part?_struct hv).1 hp).1
    simp [Index.members_eq hv, TypeView.memberIds] at hm

end Parts

def Small (ix : Index) (root struct : Id) (n : Nat) : Prop :=
  ix.Reaches root struct → n < 0xFFFFFFFF

section Struct

variable {id : Id} {base : UInt32} {ms : List Operand} {k o n : Nat}

/-- The window of a member: what its slot takes up, counted from the start of the struct. -/
structure MemberWindow (ix : Index) (t : Table) (u : BlockUse) (id : Id) (base : UInt32)
    (k o n : Nat) (s : Slot) (e : Extent) : Prop where
  slot : s ∈ Slot.judged ix t id base
  member : s.member = k
  decorated : ∃ x, t.memberOffset? id k = some x ∧ x.toNat = o
  taken : Extends ix t u id s e
  offset : e.offset.toNat = base.toNat + o
  size : e.size.toNat = n
  stop : e.stop u.policy < 0xFFFFFFFF

theorem MemberWindow.offset_ne {s : Slot} {e : Extent}
    (h : MemberWindow ix t u id base k o n s e) : e.offset ≠ Word.top := by
  intro htop
  have hstop := h.stop
  have hle := e.offset_le_stop u.policy
  rw [htop, show Word.top.toNat = 0xFFFFFFFF from rfl] at hle
  omega

theorem MemberWindow.le {j o' n' : Nat} {s s' : Slot} {e e' : Extent}
    (h : MemberWindow ix t u id base j o n s e) (h' : MemberWindow ix t u id base k o' n' s' e')
    (hle : e.stop u.policy ≤ e'.offset.toNat) : o + n ≤ o' := by
  have hend := e.end_le_stop u.policy
  rw [h.offset, h.size] at hend
  rw [h'.offset] at hle
  omega

/-- In a struct found right, a member with leaves has a window, and its leaves are apart in it. -/
theorem exists_memberWindow (hv : ix.type? id = some (.struct ms)) (hr : ix.Reaches root id)
    (hp : ∀ n ∈ Slot.places t id base (ix.members id), Small ix root id n)
    (hc : Chain ix t u (Small ix root) (SiteApart ix t root) id 0 (Slot.judged ix t id base))
    {m : Id} {path : List Nat} {l : Leaf} (hk : part? ix t id k = some (m, o))
    (hl : leaf? ix t m path = some l) :
    ∃ n, (∃ s e, MemberWindow ix t u id base k o n s e) ∧ Separate ix t m ∧ EndBy ix t m n := by
  obtain ⟨hm, x, hx, rfl⟩ := (part?_struct hv).1 hk
  have hin : ix.Inside root m :=
    .tail' hr (Explicit.mem_inner_iff.2 (.inr (List.mem_of_getElem? hm)))
  have hplaces : ∀ n ∈ Slot.places t id base (ix.members id), n < 0x100000000 :=
    fun n hn => Nat.lt_trans (hp n hn hr) (by decide)
  obtain ⟨s, e, _, _, hs, rfl, rfl, he, hoffset, hocc⟩ :=
    hc.exists_occupies hplaces hm (type?_ne_empty_of_leaf hl) hx
  have hstop := hocc.stop hr
  have hend := e.end_le_stop u.policy
  refine ⟨e.size.toNat, ⟨s, e, hs, rfl, ⟨x, hx, rfl⟩, he, hoffset, rfl, hstop⟩, ?_⟩
  by_cases hstruct : (ix.type? s.type).any TypeView.isStruct
  · have happart := hocc.nested (by rwa [he.measures.view]) hstruct hin.to_reflTransGen
    exact ⟨happart.1, happart.2 hin _ _ he.measures.size (by omega)⟩
  · refine hocc.array hin (fun ms hms => hstruct (Index.isStruct_iff.2 ⟨ms, hms⟩)) _ ?_ (by omega)
    rw [he.measures.constraints]
    exact he.measures.size

/-- A struct found right keeps its leaves apart, and within its size if it ends where its size
says. -/
theorem structApart_of_chain (hreg : Regular ix t root) (hv : ix.type? id = some (.struct ms))
    (hp : ∀ n ∈ Slot.places t id base (ix.members id), Small ix root id n)
    (hc : Chain ix t u (Small ix root) (SiteApart ix t root) id 0 (Slot.judged ix t id base)) :
    StructApart ix t root id := by
  intro _ hr
  have hn : ix.numericShape? id = none := by
    simp [Index.numericShape?, hv, TypeView.scalarShape?]
  have hw : ∀ k m o path l, part? ix t id k = some (m, o) → leaf? ix t m path = some l →
      ∃ n, (∃ s e, MemberWindow ix t u id base k o n s e) ∧ Separate ix t m ∧ EndBy ix t m n :=
    fun k m o path l => exists_memberWindow hv hr hp hc
  constructor
  · refine separate_of_windows hn hw ?_
    rintro j k o n o' n' hjk ⟨s, e, h⟩ ⟨s', e', h'⟩
    have hne : s ≠ s' := by
      intro hs
      rw [← h.member, ← h'.member, hs] at hjk
      exact hjk rfl
    rcases hc.apart h.slot h'.slot hne h.taken h'.taken h.offset_ne h'.offset_ne with hle | hle
    · exact .inl (h.le h' hle)
    · exact .inr (h'.le h hle)
  · intro hin c b hb htop
    refine endBy_of_windows hn hw ?_
    rintro k o n ⟨s, e, h⟩
    obtain ⟨x, hx, rfl⟩ := h.decorated
    obtain ⟨hm, _⟩ := Slot.mem_judged.1 h.slot
    have htaken := h.taken
    rw [← h.size]
    have hs := htaken.measures.size
    rw [h.member] at hm hs
    exact hreg.ends id hin k s.type x e.size b hm htaken.nonempty hx hs (Quantity.size_struct hv hb)

end Struct

section Array

variable {id e length : Id} {h : Holder} {alignment : UInt32}

theorem element_apart {count : UInt32} (hin : ix.Inside root e)
    (hl : Level ix t u (SiteApart ix t root) h id alignment e count) {s : UInt32}
    (hs : (Quantity.size e h.constraints).Value ix t s) (hn : s.toNat < 0xFFFFFFFF) :
    Separate ix t e ∧ EndBy ix t e s.toNat := by
  by_cases hstruct : (ix.type? e).any TypeView.isStruct
  · have happart := hl.elements hstruct 0 (zero_mem_elementIndices _ _) hstruct hin.to_reflTransGen
    exact ⟨happart.1, happart.2 hin _ _ hs hn⟩
  · obtain ⟨a, _, ha⟩ := hl.deeper
    exact ha hin (fun ms hms => hstruct (Index.isStruct_iff.2 ⟨ms, hms⟩)) s hs hn

theorem mul_add_le {j k s stride : Nat} (hjk : j < k) (hs : s ≤ stride) :
    j * stride + s ≤ k * stride := by
  have hle := Nat.mul_le_mul_right stride (Nat.succ_le_of_lt hjk)
  rw [Nat.succ_mul] at hle
  omega

theorem arrayApart_of_sized (hreg : Regular ix t root) (hv : ix.type? id = some (.array e length))
    {count : UInt32} (hl : Level ix t u (SiteApart ix t root) h id alignment e count) :
    ArrayApart ix t root h.constraints id := by
  intro hin _ n hsize hn
  cases hlen : ix.integer? length with
  | none =>
    have hnone : ∀ k, part? ix t id k = none := by
      intro k
      simp [part?, hv, hlen]
    exact ⟨(apart_of_no_parts hnone).1, (apart_of_no_parts hnone).2 _ n hsize hn⟩
  | some bound =>
    have hword := hreg.lengths id e length bound hin.to_reflTransGen hv hlen
    obtain ⟨k, hk, rfl⟩ := Index.toNat_constant? hlen hword
    obtain ⟨s, hs, rfl⟩ := (Quantity.size_array hv hk).1 hsize
    obtain ⟨s', hs', hle⟩ := hl.size
    cases hs.unique hs'
    rw [Quantity.toNat_strided] at hn
    have helem : ix.Inside root e :=
      .tail hin (Explicit.mem_inner_iff.2 (.inl (Index.element?_array hv)))
    have hapart := element_apart helem hl hs (by omega)
    have hnum : ix.numericShape? id = none := by
      simp [Index.numericShape?, hv, TypeView.scalarShape?]
    have hw : ∀ i m o p l, part? ix t id i = some (m, o) → leaf? ix t m p = some l →
        ∃ n, (i < k.toNat ∧ o = i * (t.stride id).toNat ∧ n = s.toNat) ∧ Separate ix t m ∧
          EndBy ix t m n := by
      intro i m o p l hpart _
      obtain ⟨rfl, ⟨n, hn', hi⟩, rfl⟩ := (part?_array hv).1 hpart
      cases hlen.symm.trans hn'
      exact ⟨s.toNat, ⟨hi, rfl, rfl⟩, hapart⟩
    constructor
    · refine separate_of_windows hnum hw ?_
      rintro i j _ _ _ _ hij ⟨_, rfl, rfl⟩ ⟨_, rfl, rfl⟩
      rcases Nat.lt_or_gt_of_ne hij with hlt | hlt
      · exact .inl (mul_add_le hlt hle)
      · exact .inr (mul_add_le hlt hle)
    · refine endBy_of_windows hnum hw ?_
      rintro i _ _ ⟨hi, rfl, rfl⟩
      have hlast : i * (t.stride id).toNat ≤ (k.toNat - 1) * (t.stride id).toNat :=
        Nat.mul_le_mul_right _ (by omega)
      rw [Quantity.toNat_strided]
      omega

theorem arrayApart_of_unsized (hv : ∀ e length, ix.type? id ≠ some (.array e length))
    (c : Constraints) : ArrayApart ix t root c id := by
  intro _ hns n hsize hn
  have hnone : ∀ k, part? ix t id k = none := by
    intro k
    unfold part?
    split
    · next ms hms => exact absurd hms (hns ms)
    · next e length ha => exact absurd ha (hv e length)
    · rfl
  exact ⟨(apart_of_no_parts hnone).1, (apart_of_no_parts hnone).2 c n hsize hn⟩

theorem arrayApart_of_level (hreg : Regular ix t root) {e : Id} (he : ix.element? id = some e)
    (hl : Level ix t u (SiteApart ix t root) h id alignment e (ix.arrayLength id)) :
    ArrayApart ix t root h.constraints id := by
  rcases Index.element?_eq_some_iff.1 he with ⟨length, hv⟩ | hv
  · exact arrayApart_of_sized hreg hv hl
  · exact arrayApart_of_unsized (fun _ _ ha => by simp [hv] at ha) _

end Array

/-- Leaves are apart wherever a walk of the buffers succeeds. -/
theorem carries_siteApart (hreg : Regular ix t root) :
    Carries ix t u (fun v => StructApart ix t root v.struct) (Small ix root) (fun _ => True)
      (SiteApart ix t root) := by
  refine carries_of_found ?struct ?void (fun h id a e he hl => arrayApart_of_level hreg he hl)
    fun _ _ => .rfl
  case struct =>
    intro id base hf hstruct
    obtain ⟨ms, hms⟩ := Index.isStruct_iff.1 hstruct
    exact structApart_of_chain hreg hms (hf ms hms).1 (hf ms hms).2 hstruct
  case void =>
    intro h id a he
    refine arrayApart_of_unsized (fun e length ha => ?_) _
    simp [Index.element?_array ha] at he

end Walk

namespace Buffer

open Walk

variable {m : Module} {o : Options} {t : Table}

theorem separate_of_accepts {cx : Context} (h : cx.Accepts) {b : Held} {p : LayoutPolicy}
    (hb : Checked cx b) (hk : (cx.table.blockKind? b.struct).isSome)
    (hp : policy? cx b = some p) (hreg : Regular cx.index cx.table b.struct)
    (hmet : ∀ x ∈ (checkAll cx {}).2.met, cx.index.Reaches b.struct x.1 → x.2 < 0xFFFFFFFF) :
    Separate cx.index cx.table b.struct := by
  obtain ⟨w, hw⟩ := h.buffers
  have held : ∀ b', Checked cx b' →
      Yields cx.index cx.table (fun v => StructApart cx.index cx.table b.struct v.struct)
        (Small cx.index b.struct) (checkHeld cx b') fun _ => ∀ p, policy? cx b' = some p →
          (cx.table.blockKind? b'.struct).isSome →
            StructApart cx.index cx.table b.struct b'.struct :=
    fun b' _ => yields_checkHeld fun _ _ _ hk' => yields_block hk' (carries_siteApart hreg) trivial
  have hsmall : ∀ x ∈ w.met, Small cx.index b.struct x.1 x.2 := by
    intro x hx
    refine hmet x ?_
    rwa [show (checkAll cx {}).2 = w from congrArg Prod.snd hw]
  have hall := (yields_checkAll held).ok upholds_empty hw hsmall
  exact (hall.2 b hb p hp hk hb.isStruct .refl).1

/-- In a module that validates with layout checked, no two leaves of a checked block share an octet,
if lengths of arrays fit a word, nested structs end where their size says, and all offsets and ends
met in the structs of the block are below the largest word. -/
theorem leaves_apart_of_validate (h : m.validate o = .ok t) (hskip : o.skipBlockLayout = false) :
    ∃ ix, Index.ofModule m = .ok ix ∧ ∀ b, Checked ⟨ix, t, o⟩ b →
      (t.blockKind? b.struct).isSome → Regular ix t b.struct →
      (∀ x ∈ (checkAll ⟨ix, t, o⟩ {}).2.met, ix.Reaches b.struct x.1 → x.2 < 0xFFFFFFFF) →
      ∀ p q l r, p ≠ q → leaf? ix t b.struct p = some l → leaf? ix t b.struct q = some r →
        l.Apart r := by
  obtain ⟨_, ix, hix, _, ha⟩ := Module.validate_eq_ok.1 h
  refine ⟨ix, hix, fun b hb hk hreg hmet => ?_⟩
  exact separate_of_accepts ha hb hk (if_neg (by simp [hskip])) hreg hmet

def nestedBlock : Module where
  annotations := [.decorating 6 .block [], .decorating 5 .arrayStride [.literal 32],
    .placing 3 0 0, .placing 3 1 16, .placing 6 0 0, .placing 6 1 16]
  globals := [.declaring .opTypeFloat 1 [.literal 32],
    .declaring .opTypeVector 2 [.id 1, .literal 4],
    .declaring .opTypeStruct 3 [.id 1, .id 2],
    .declaring .opTypeInt 7 [.literal 32, .literal 0],
    ⟨.opConstant, some 7, some 4, [.literal 2]⟩,
    .declaring .opTypeArray 5 [.id 3, .id 4],
    .declaring .opTypeStruct 6 [.id 1, .id 5]] ++ Instruction.holding 8 9 6

theorem leaves_apart_nestedBlock :
    ∃ t ix, nestedBlock.validate {} = .ok t ∧ Index.ofModule nestedBlock = .ok ix ∧
      ∀ p q l r, p ≠ q → leaf? ix t 6 p = some l → leaf? ix t 6 q = some r → l.Apart r := by
  have hrun : bothPass (nestedBlock.validate {}) (Index.ofModule nestedBlock) (fun t ix =>
      decide ((9, .storageBuffer, 6) ∈ (⟨ix, t, {}⟩ : Context).globalVariables ∧
        held? ⟨ix, t, {}⟩ .storageBuffer 6 = some ⟨6, .storageBuffer⟩ ∧
        (t.blockKind? 6).isSome ∧ regularAmong ix t 5 [6, 1, 5, 3, 2] = true ∧
        ∀ x ∈ (checkAll ⟨ix, t, {}⟩ {}).2.met, x.2 < 0xFFFFFFFF)) = true := by
    decide +kernel
  obtain ⟨t, ix, ht, hix, hq⟩ := exists_of_bothPass hrun
  obtain ⟨hv, hh, hk, hreg, hmet⟩ := of_decide_eq_true hq
  obtain ⟨ix', hix', hall⟩ := leaves_apart_of_validate ht rfl
  cases hix.symm.trans hix'
  exact ⟨t, ix, ht, hix, hall ⟨6, .storageBuffer⟩ (.global 9 _ 6 _ hv hh) hk
    (regular_of_regularAmong (by simp) hreg) fun x hx _ => hmet x hx⟩

def Overlaps (m : Module) (b : Held) : Prop :=
  ∃ t ix, m.validate {} = .ok t ∧ Index.ofModule m = .ok ix ∧ Checked ⟨ix, t, {}⟩ b ∧
    (t.blockKind? b.struct).isSome ∧ ∃ p q l r, p ≠ q ∧ leaf? ix t b.struct p = some l ∧
      leaf? ix t b.struct q = some r ∧ ¬ l.Apart r

/-- A nested struct whose last member lies first, so that its size leaves out the other. -/
def disorderedBlock : Module where
  annotations := [.decorating 4 .block [], .placing 3 0 16, .placing 3 1 0, .placing 4 0 0,
    .placing 4 1 16]
  globals := [.declaring .opTypeFloat 1 [.literal 32],
    .declaring .opTypeVector 2 [.id 1, .literal 4],
    .declaring .opTypeStruct 3 [.id 2, .id 1],
    .declaring .opTypeStruct 4 [.id 3, .id 1]] ++ Instruction.holding 5 6 4

def overlongBlock : Module where
  annotations := [.decorating 5 .block [], .decorating 4 .arrayStride [.literal 4],
    .placing 5 0 0, .placing 5 1 4]
  globals := [.declaring .opTypeFloat 1 [.literal 32],
    .declaring .opTypeInt 2 [.literal 64, .literal 0],
    ⟨.opConstant, some 2, some 3, [.literal64 0x100000000]⟩,
    .declaring .opTypeArray 4 [.id 1, .id 3],
    .declaring .opTypeStruct 5 [.id 4, .id 1]] ++ Instruction.holding 6 7 5

/-- A struct with two members at one offset, held at an offset where both stick at the largest word,
and by another block where none does but the struct is taken as verified. -/
def stuckBlocks : Module where
  annotations := [.decorating 3 .block [], .decorating 6 .block [], .placing 2 0 0,
    .placing 2 1 32, .placing 2 2 32, .placing 3 0 0xFFFFFFF0, .placing 6 0 0xF0]
  globals := [.declaring .opTypeInt 1 [.literal 8, .literal 0],
    .declaring .opTypeStruct 2 [.id 1, .id 1, .id 1],
    .declaring .opTypeStruct 3 [.id 2], .declaring .opTypeStruct 6 [.id 2]] ++
    Instruction.holding 4 5 3 ++ Instruction.holding 7 8 6

theorem overlaps_of_run {m : Module} {v : Id} {b : Held} {p q : List Nat} {l r : Leaf}
    (hpq : p ≠ q) (hl : ¬ l.Apart r)
    (hrun : bothPass (m.validate {}) (Index.ofModule m) (fun t ix =>
      decide ((v, b.storage, b.struct) ∈ (⟨ix, t, {}⟩ : Context).globalVariables ∧
        held? ⟨ix, t, {}⟩ b.storage b.struct = some b ∧ (t.blockKind? b.struct).isSome ∧
        leaf? ix t b.struct p = some l ∧ leaf? ix t b.struct q = some r)) = true) :
    Overlaps m b := by
  obtain ⟨t, ix, ht, hix, hq⟩ := exists_of_bothPass hrun
  obtain ⟨hv, hh, hk, hp, hq⟩ := of_decide_eq_true hq
  exact ⟨t, ix, ht, hix, .global v _ _ _ hv hh, hk, p, q, l, r, hpq, hp, hq, hl⟩

/-- None of the three conditions on a block can be left out, nor can what is met in other blocks. -/
theorem leaves_overlap :
    Overlaps disorderedBlock ⟨4, .storageBuffer⟩ ∧ Overlaps overlongBlock ⟨5, .storageBuffer⟩ ∧
      Overlaps stuckBlocks ⟨3, .storageBuffer⟩ ∧ Overlaps stuckBlocks ⟨6, .storageBuffer⟩ := by
  refine ⟨?_, ?_, ?_, ?_⟩
  · exact overlaps_of_run (v := 6) (p := [0, 0]) (q := [1]) (l := ⟨16, 16⟩) (r := ⟨16, 4⟩)
      (by decide) (by decide) (by decide +kernel)
  · exact overlaps_of_run (v := 7) (p := [0, 1]) (q := [1]) (l := ⟨4, 4⟩) (r := ⟨4, 4⟩)
      (by decide) (by decide) (by decide +kernel)
  · exact overlaps_of_run (v := 5) (p := [0, 1]) (q := [0, 2]) (l := ⟨0x100000010, 1⟩)
      (r := ⟨0x100000010, 1⟩) (by decide) (by decide) (by decide +kernel)
  · exact overlaps_of_run (v := 8) (p := [0, 1]) (q := [0, 2]) (l := ⟨272, 1⟩)
      (r := ⟨272, 1⟩) (by decide) (by decide) (by decide +kernel)

end Buffer

end SpirvRules
