import SpirvRules.Proofs.Layout.Faults
import SpirvRules.Proofs.Layout.Slots
import SpirvRules.Proofs.Layout.Steps

/-!
# What a successful walk has found

A walk that succeeds has judged every slot it came by, unless it stands in a struct verified before.
So properties of sites are proved of a whole walk from one round of it: they follow from what the
round found, given the same of the sites inside, and verified visits carry them from walk to walk.
-/

set_option autoImplicit false

namespace SpirvRules.Walk

open Stateful

variable {ix : Index} {t : Table} {u : BlockUse} {ε ε' α β : Type}
variable {K : Visit → Prop} {M : Id → Nat → Prop}

/-- All that is remembered is true: measures are right, and verified visits have the property. -/
structure Upholds (ix : Index) (t : Table) (K : Visit → Prop) (w : Walker) : Prop where
  faithful : w.Faithful ix t
  visits : ∀ v ∈ w.verified, K v

theorem upholds_empty : Upholds ix t K {} := ⟨Walker.faithful_empty ix t, by simp⟩

theorem remembering_upholds : Remembering ix t (Upholds ix t K) :=
  ⟨fun _ hw => hw.faithful, fun _ _ hw hm => ⟨hm, hw.visits⟩⟩

theorem lasting_upholds : Lasting ix t (Upholds ix t K) where
  measure := fun _ => triple_measure Rule.triple_memoised (fun _ hw => hw.faithful)
    (fun _ _ _ hw hm => ⟨hm.1, hw.visits⟩) fun _ _ _ hw hm => ⟨hm, hw.visits⟩
  meet := fun _ _ => triple_meet fun _ hw => ⟨hw.faithful, hw.visits⟩

/-- A success has the property, provided all numbers met have theirs. -/
def Yields (ix : Index) (t : Table) (K : Visit → Prop) (M : Id → Nat → Prop)
    (x : ExceptT ε (StateM Walker) α) (Q : α → Prop) : Prop :=
  Triple (Upholds ix t K) x (fun a w => w.Meets M → Upholds ix t K w ∧ Q a) fun _ _ => True

theorem Yields.mono {x : ExceptT ε (StateM Walker) α} {Q R : α → Prop}
    (hx : Yields ix t K M x Q) (h : ∀ a, Q a → R a) : Yields ix t K M x R :=
  Triple.mono hx (fun _ => id) (fun a _ hq hm => (hq hm).imp_right (h a)) fun _ _ => id

theorem Keeping.yields {x : ExceptT ε (StateM Walker) α} {q : Prop}
    (hx : Keeping (Upholds ix t K) x) (hq : q) : Yields ix t K M x fun _ => q :=
  Triple.mono hx (fun _ => id) (fun _ _ hw _ => ⟨hw, hq⟩) fun _ _ _ => trivial

theorem Measuring.yields {x : Walk α} {Q : α → Prop} (hx : Measuring ix t x Q) :
    Yields ix t K M x Q :=
  (hx _ remembering_upholds).mono (fun _ => id) (fun _ _ hq _ => hq) fun _ _ _ => trivial

theorem Growing.unless {x : ExceptT ε (StateM Walker) α} {Q : α → Walker → Prop}
    (hx : Growing M x) :
    Triple (fun w => ¬ w.Meets M) x (fun a w => w.Meets M → Q a w) fun _ _ => True :=
  Triple.mono hx (fun _ => id) (fun _ _ hn hm => absurd hm hn) fun _ _ _ => trivial

/-- What the first step met is still met in the end, so its property holds before the second. -/
theorem Yields.bind {x : ExceptT ε (StateM Walker) α} {f : α → ExceptT ε (StateM Walker) β}
    {Q : α → Prop} {R : β → Prop} (hx : Yields ix t K M x Q) (hg : ∀ a, Growing M (f a))
    (hf : ∀ a, Q a → Yields ix t K M (f a) R) : Yields ix t K M (x >>= f) R :=
  Triple.bindUnless hx (fun a => (hg a).unless) hf

theorem yields_forM {l : List α} {f : α → ExceptT ε (StateM Walker) Unit} {P : α → Prop}
    (hg : ∀ a, Growing M (f a)) (hf : ∀ a ∈ l, Yields ix t K M (f a) fun _ => P a) :
    Yields ix t K M (l.forM f) fun _ => ∀ a ∈ l, P a :=
  triple_forM_unless (fun a => Triple.mono (hg a) (fun _ => id) (fun _ _ => id)
    fun _ _ _ => trivial) hf

theorem yields_meet (struct : Id) (ns : List Nat) :
    Yields ix t K M (meet struct ns) fun _ => ∀ n ∈ ns, M struct n :=
  triple_meet fun _ hw hm => ⟨⟨hw.faithful, hw.visits⟩, fun n hn =>
    hm (struct, n) (List.mem_append_left _ (List.mem_map_of_mem hn))⟩

theorem yields_rejectAny (struct : Id) (member : Nat) (f : Option SlotFault) :
    Yields ix t K M (rejectAny u struct member f) fun _ => f = none :=
  (triple_rejectAny fun _ _ _ _ => trivial).mono (fun _ => id) (fun _ _ hw _ => hw) fun _ _ => id

/-! ### One round -/

variable (ix t u) (P : Site → Prop) (M)

structure Occupies (struct : Id) (free : UInt32) (s : Slot) (later : List Slot) (offset : UInt32)
    (e : Extent) : Prop where
  measures : Measures ix t u s.type offset (t.constraints struct s.member) e
  sound : e.fault? free later = none
  nested : e.view.any TypeView.isStruct → P (.struct s.type e.offset)
  array : P (.array ⟨struct, s.member, e.offset, e.alignment, e.constraints⟩ s.type e.alignment)
  stop : M struct (e.stop u.policy)

inductive SlotRight (struct : Id) (free : UInt32) (s : Slot) (later : List Slot) :
    (next : UInt32) → Prop where
  | empty (offset : UInt32) (ho : s.offset = some offset)
      (hs : ix.type? s.type = some (.struct [])) : SlotRight struct free s later free
  | occupied (offset : UInt32) (e : Extent) (ho : s.offset = some offset)
      (hs : ix.type? s.type ≠ some (.struct []))
      (he : Occupies ix t u M P struct free s later offset e) :
      SlotRight struct free s later (e.free u.policy)

/-- Slots are right one after the other. -/
inductive Chain (struct : Id) : (free : UInt32) → List Slot → Prop where
  | nil (free : UInt32) : Chain struct free []
  | cons (free next : UInt32) (s : Slot) (later : List Slot)
      (hs : SlotRight ix t u M P struct free s later next) (hl : Chain struct next later) :
      Chain struct free (s :: later)

structure Level (h : Holder) (id : Id) (alignment : UInt32) (e : Id) (length : UInt32) : Prop where
  stride : strideFault? (t.literal? id .arrayStride) alignment = none
  elements : (ix.type? e).any TypeView.isStruct →
    ∀ i ∈ elementIndices (t.stride id) length,
      P (.struct e (elementOffset h.offset (t.stride id) i))
  matrix : matrixFault? (ix.type? e) h.constraints h.alignment = none
  size : ∃ s, (Quantity.size e h.constraints).Value ix t s ∧
    s ≤ t.stride id
  deeper : ∃ a, (u.policy.alignment e h.constraints).Value ix t a ∧ P (.array h e a)

/-- What one round finds of a site. -/
def Found : Site → Prop
  | .struct id base => ∀ ms, ix.type? id = some (.struct ms) →
    (∀ n ∈ Slot.places t id base (ix.members id), M id n) ∧
      Chain ix t u M P id 0 (Slot.judged ix t id base)
  | .array h id alignment => ∀ e, ix.element? id = some e →
    Level ix t u P h id alignment e (ix.arrayLength id)

/-! ### From one round to a whole walk -/

variable {ix t u P M}

section Inner

variable {inner : Site → Walk Unit} (hg : ∀ s, Growing M (inner s))

include hg

theorem yields_settle {struct : Id} {free : UInt32} {s : Slot} {later : List Slot}
    {offset : UInt32} {e : Extent}
    (hi : ∀ s' : Site, s'.type = s.type → Yields ix t K M (inner s') fun _ => P s')
    (he : Measures ix t u s.type offset (t.constraints struct s.member) e) :
    Yields ix t K M (settle u inner struct free s later e) fun next =>
      Occupies ix t u M P struct free s later offset e ∧ next = e.free u.policy := by
  refine (yields_rejectAny struct s.member _).bind (fun _ => growing_contents_free hg)
    fun _ hs => ?_
  refine Yields.bind (Q := fun _ => (e.view.any TypeView.isStruct → P (.struct s.type e.offset)) ∧
    P (.array ⟨struct, s.member, e.offset, e.alignment, e.constraints⟩ s.type e.alignment)) ?_
    (fun _ => growing_meet_pure _) fun _ hc => ?_
  · refine Yields.bind (Q := fun _ => e.view.any TypeView.isStruct → P (.struct s.type e.offset))
      ?_ (fun _ => hg _) fun _ hn => (hi _ rfl).mono fun _ ha => ⟨hn, ha⟩
    unfold enter
    split
    · exact (hi _ rfl).mono fun _ h _ => h
    · next hv => exact triple_pure fun _ hw _ => ⟨hw, fun h => absurd h hv⟩
  · refine (yields_meet struct _).bind (fun _ => invariant_pure _) fun _ hm =>
      triple_pure fun _ hw _ => ⟨hw, ?_⟩
    exact ⟨⟨he, hs, hc.1, hc.2, hm _ (by simp)⟩, rfl⟩

theorem yields_slot {struct : Id} {free : UInt32} {s : Slot} {later : List Slot}
    (hi : ∀ s' : Site, s'.type = s.type → Yields ix t K M (inner s') fun _ => P s') :
    Yields ix t K M (slot ix t u inner struct free s later)
      (SlotRight ix t u M P struct free s later) := by
  unfold slot
  cases ho : s.offset with
  | none => exact triple_throw fun _ _ => trivial
  | some offset =>
    dsimp only
    split
    · next hs => exact triple_pure fun _ hw _ => ⟨hw, .empty offset ho hs⟩
    · next hs =>
      refine (measuring_extent _ _ _).yields.bind
        (fun e => keeping_settle hg growing_meet _ _ _ _ e) fun e he => ?_
      refine (yields_settle hg hi he).mono fun next hn => ?_
      rw [hn.2]
      exact .occupied offset e ho hs hn.1

theorem yields_slots {struct : Id} {free : UInt32} {l : List Slot}
    (hi : ∀ s ∈ l, ∀ s' : Site, s'.type = s.type → Yields ix t K M (inner s') fun _ => P s') :
    Yields ix t K M (slots ix t u inner struct free l) fun _ =>
      Chain ix t u M P struct free l := by
  induction l generalizing free with
  | nil => exact triple_pure fun _ hw _ => ⟨hw, .nil free⟩
  | cons s later ih =>
    refine (yields_slot hg (hi s (by simp))).bind (fun _ => keeping_slots hg lasting_growing _ _ _)
      fun next hs => ?_
    exact (ih fun r hr => hi r (by simp [hr])).mono fun _ hl => .cons free next s later hs hl

theorem yields_elements {h : Holder} {e : Id} {stride length : UInt32}
    (hi : ∀ s' : Site, s'.type = e → Yields ix t K M (inner s') fun _ => P s') :
    Yields ix t K M (elements ix inner h e stride length) fun _ =>
      (ix.type? e).any TypeView.isStruct → ∀ i ∈ elementIndices stride length,
        P (.struct e (elementOffset h.offset stride i)) := by
  unfold elements
  split
  · refine (yields_forM (keeping_element hg growing_meet h e stride) fun i _ => ?_).mono
      fun _ h _ => h
    exact (yields_meet _ _).bind (fun _ => hg _) fun _ _ => hi _ rfl
  · next hv => exact triple_pure fun _ hw _ => ⟨hw, fun h => absurd h hv⟩

theorem yields_deeper {h : Holder} {e : Id} {stride : UInt32}
    (hi : ∀ s' : Site, s'.type = e → Yields ix t K M (inner s') fun _ => P s') :
    Yields ix t K M (deeper ix t u inner h e stride) fun _ =>
      (∃ s, (Quantity.size e h.constraints).Value ix t s ∧ s ≤ stride) ∧
        ∃ a, (u.policy.alignment e h.constraints).Value ix t a ∧ P (.array h e a) := by
  refine (measuring_measure _).yields.bind (fun _ => growing_measure_walk hg) fun a hv => ?_
  refine (measuring_measure _).yields.bind (fun _ => growing_reject_walk hg) fun s hs => ?_
  refine (yields_rejectAny _ _ _).bind (fun _ => hg _) fun _ hf => ?_
  exact (hi _ rfl).mono fun _ ha => ⟨⟨s, hs, elementFault?_eq_none.1 hf⟩, a, hv, ha⟩

theorem yields_level {h : Holder} {id : Id} {alignment : UInt32} {e : Id} {length : UInt32}
    (hi : ∀ s' : Site, s'.type = e → Yields ix t K M (inner s') fun _ => P s') :
    Yields ix t K M (level ix t u inner h id alignment e length) fun _ =>
      Level ix t u P h id alignment e length := by
  refine (yields_rejectAny _ _ _).bind (fun _ => growing_elements_deeper hg) fun _ hs => ?_
  refine (yields_elements hg hi).bind (fun _ => growing_reject_deeper hg) fun _ he => ?_
  refine (yields_rejectAny _ _ _).bind (fun _ => keeping_deeper hg lasting_growing _ _ _)
    fun _ hm => ?_
  exact (yields_deeper hg hi).mono fun _ hd => ⟨hs, he, hm, hd.1, hd.2⟩

omit hg in
theorem within_array {h : Holder} {id : Id} {alignment : UInt32} {e : Id}
    (he : ix.element? id = some e) : within ix t u inner (.array h id alignment) =
      level ix t u inner h id alignment e (ix.arrayLength id) := by
  rcases Index.element?_eq_some_iff.1 he with ⟨length, hv⟩ | hv
  · simp [within, Index.arrayLength, hv]
  · simp [within, Index.arrayLength, hv]

theorem yields_within {s : Site}
    (hi : ∀ s' : Site, s'.type ∈ Explicit.inner ix s.type →
      Yields ix t K M (inner s') fun _ => P s') :
    Yields ix t K M (within ix t u inner s) fun _ => Found ix t u M P s := by
  cases s with
  | struct id base =>
    simp only [within]
    split
    · next ms hv =>
      rw [← Index.members_eq hv]
      refine (yields_meet _ _).bind (fun _ => keeping_slots hg lasting_growing _ _ _) fun _ hm => ?_
      refine (yields_slots hg fun s hs s' hs' => hi s' ?_).mono fun _ hc _ _ => ⟨hm, hc⟩
      rw [hs']
      exact Explicit.mem_inner_iff.2 (.inr (Slot.type_mem hs))
    · next hv => exact triple_pure fun _ hw _ => ⟨hw, fun ms hv' => absurd hv' (hv ms)⟩
  | array h id alignment =>
    cases he : ix.element? id with
    | none =>
      rw [within_of_isVoid (by simp [Site.isVoid, he])]
      exact triple_pure fun _ hw _ => ⟨hw, fun e he' => by simp [he] at he'⟩
    | some e =>
      rw [within_array he]
      refine (yields_level hg fun s' hs' => hi s' ?_).mono fun _ hl e' he' => ?_
      · rw [hs']
        exact Explicit.mem_inner_iff.2 (.inl he)
      · cases he.symm.trans he'
        exact hl

end Inner

/-- A property of sites that whole walks establish, of the sites they may start from: it follows
from one round, and is what verified visits have. -/
structure Carries (ix : Index) (t : Table) (u : BlockUse) (K : Visit → Prop)
    (M : Id → Nat → Prop) (start P : Site → Prop) : Prop where
  inward : ∀ s s', start s → s'.type ∈ Explicit.inner ix s.type → start s'
  void : ∀ s, s.isVoid ix → P s
  found : ∀ s, start s → Found ix t u M P s → P s
  visit : ∀ s v, s.visit? u.policy = some v → (K v ↔ P s)

/-- Structs alone are verified; an array has the property by its level, if it has any. -/
theorem carries_of_found
    (hstruct : ∀ id base, Found ix t u M P (.struct id base) → P (.struct id base))
    (hvoid : ∀ h id alignment, ix.element? id = none → P (.array h id alignment))
    (hlevel : ∀ h id alignment e, ix.element? id = some e →
      Level ix t u P h id alignment e (ix.arrayLength id) → P (.array h id alignment))
    (hvisit : ∀ id base, K ⟨id, base % 256, u.policy⟩ ↔ P (.struct id base)) :
    Carries ix t u K M (fun _ => True) P where
  inward := fun _ _ _ _ => trivial
  void := by
    intro s hs
    cases s with
    | struct id base => cases hs
    | array h id alignment => exact hvoid h id alignment (by simpa [Site.isVoid] using hs)
  found := by
    intro s _ hf
    cases s with
    | struct id base => exact hstruct id base hf
    | array h id alignment =>
      cases he : ix.element? id with
      | none => exact hvoid h id alignment he
      | some e => exact hlevel h id alignment e he (hf e he)
  visit := by
    intro s v hv
    cases s with
    | struct id base =>
      cases hv
      exact hvisit id base
    | array h id alignment => cases hv

section Carries

variable {start : Site → Prop} (hc : Carries ix t u K M start P)

include hc

theorem yields_unlessVerified {s : Site} {otherwise : Walk Unit}
    (ho : Yields ix t K M otherwise fun _ => P s) :
    Yields ix t K M (unlessVerified u s otherwise) fun _ => P s :=
  triple_unlessVerified
    (fun _ hw ⟨v, hv, hmem⟩ _ => ⟨hw, (hc.visit s v hv).1 (hw.visits v hmem)⟩) ho

theorem keeping_verify {s : Site} (hs : P s) : Keeping (Upholds ix t K) (verify u s) := by
  refine triple_verify (fun v hv w hw => ⟨hw.faithful, fun v' hv' => ?_⟩) fun _ _ hw => hw
  rcases Std.TreeSet.mem_insert.1 hv' with h | h
  · cases Std.LawfulEqOrd.eq_of_compare h
    exact (hc.visit s v hv).2 hs
  · exact hw.visits v' h

theorem yields_verify {s : Site} (hs : P s) : Yields ix t K M (verify u s) fun _ => P s :=
  (keeping_verify hc hs).yields hs

theorem yields_walk (n : Nat) {s : Site} (hs : start s) :
    Yields ix t K M (walk ix t u n s) fun _ => P s := by
  induction n generalizing s with
  | zero =>
    refine yields_unlessVerified hc ?_
    split
    · next hv => exact triple_pure fun _ hw _ => ⟨hw, hc.void s hv⟩
    · exact triple_throw fun _ _ => trivial
  | succ n ih =>
    refine yields_unlessVerified hc ?_
    refine (yields_within (growing_walk n) fun s' hs' => ih (hc.inward s s' hs hs')).bind
      (fun _ => growing_verify s) fun _ hf => ?_
    exact yields_verify hc (hc.found s hs hf)

end Carries

/-- Also a walk that fails verifies nothing without the property, where that does not hang on the
numbers met. -/
theorem keeping_walk (hc : Carries ix t u K (fun _ _ => True) (fun _ => True) P) (n : Nat)
    (s : Site) : Keeping (Upholds ix t K) (walk ix t u n s) := by
  induction n generalizing s with
  | zero =>
    refine keeping_unlessVerified ?_
    split
    · exact invariant_pure _
    · exact triple_throw fun _ hw => hw
  | succ n ih =>
    have hround := Triple.and (keeping_within (u := u) ih lasting_upholds s)
      (yields_within (growing_walk n) fun s' _ => yields_walk hc n trivial)
    have hfound : Triple (Upholds ix t K) (within ix t u (walk ix t u n) s)
        (fun _ w => Upholds ix t K w ∧ Found ix t u (fun _ _ => True) P s)
        fun _ => Upholds ix t K :=
      hround.mono (fun _ => id) (fun _ _ h => ⟨h.1, (h.2 fun _ _ => trivial).2⟩) fun _ _ => And.left
    exact keeping_unlessVerified (hfound.bindFact fun _ hf =>
      keeping_verify hc (hc.found s trivial hf))

end SpirvRules.Walk
