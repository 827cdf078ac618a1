import SpirvRules.Proofs.Layout.Lockstep

/-!
# One round of two walks

Related sites are judged alike when related slots, strides and alignments are, provided the sites
inside are. What a comparison has to show of its relations is collected in `Comparison.Fair`.
-/

set_option autoImplicit false

namespace SpirvRules.Walk

open Stateful

namespace Comparison

variable (C : Comparison)

def Alignments (a b : UInt32) : Prop :=
  (∀ x, Word.isAligned x a = true → Word.isAligned x b = true) ∧ (C.strict = true → a = b)

def Frees (a b : UInt32) : Prop :=
  (∀ x y, C.offsets x y → a ≤ x → b ≤ y) ∧ (C.strict = true → a = b)

structure Slots (s r : Slot) : Prop where
  member : s.member = r.member
  type : s.type = r.type
  offset : Option.Rel C.offsets s.offset r.offset

structure Holders (h h' : Holder) : Prop where
  struct : h.struct = h'.struct
  member : h.member = h'.member
  constraints : h.constraints = h'.constraints
  offset : C.offsets h.offset h'.offset
  alignment : C.Alignments h.alignment h'.alignment

inductive Sites : Site → Site → Prop where
  | struct (id : Id) (a b : UInt32) (h : C.offsets a b) : Sites (.struct id a) (.struct id b)
  | array (h h' : Holder) (id : Id) (a a' : UInt32) (hh : C.Holders h h')
      (ha : C.Alignments a a') : Sites (.array h id a) (.array h' id a')

variable (ix : Index) (t : Table)

structure Extents (type : Id) (c : Constraints) (o o' : UInt32) (e e' : Extent) : Prop where
  first : Measures ix t C.first type o c e
  second : Measures ix t C.second type o' c e'
  offset : C.offsets o o'

def Fit (n m : Nat) : Prop :=
  (C.boundFirst = true → n < 0x100000000) ∧ (C.boundSecond = true → m < 0x100000000)

structure Fair : Prop where
  uses : C.strict = true → C.first = C.second
  /-- A walk that may give up on its own cannot be asked for the same fault. -/
  lenient : C.boundFirst = true → C.strict = false
  alignment : ∀ type c a b, (C.first.policy.alignment type c).Value ix t a →
    (C.second.policy.alignment type c).Value ix t b → C.Alignments a b
  fault : ∀ type c o o' e e' a b l l', C.Extents ix t type c o o' e e' →
    (C.boundFirst = true → e.stop C.first.policy < 0x100000000) → C.Frees a b →
    List.Forall₂ C.Slots l l' → (e.fault? a l = none → e'.fault? b l' = none) ∧
      (C.strict = true → e.fault? a l = e'.fault? b l')
  free : ∀ type c o o' e e', C.Extents ix t type c o o' e e' →
    C.Fit (e.stop C.first.policy) (e'.stop C.second.policy) →
    C.Frees (e.free C.first.policy) (e'.free C.second.policy)
  element : ∀ o o' stride i, C.offsets o o' →
    C.Fit (o.toNat + i * stride.toNat) (o'.toNat + i * stride.toNat) →
    C.offsets (elementOffset o stride i) (elementOffset o' stride i)
  slots : ∀ id a b, C.offsets a b →
    (C.boundFirst = true → ∀ n ∈ Slot.places t id a (ix.members id), n < 0x100000000) →
    (C.boundSecond = true → ∀ n ∈ Slot.places t id b (ix.members id), n < 0x100000000) →
    List.Forall₂ C.Slots (Slot.judged ix t id a) (Slot.judged ix t id b) ∨
      C.strict = false ∧ ∃ s ∈ Slot.judged ix t id a, s.offset = none

variable {C} {l l' : List Slot}

theorem eq_of_slots (hC : C.offsets = Eq) (hl : List.Forall₂ C.Slots l l') : l = l' := by
  induction hl with
  | nil => rfl
  | @cons s r _ _ hs _ ih =>
    obtain ⟨i, m, o⟩ := s
    obtain ⟨j, n, o'⟩ := r
    obtain ⟨rfl, rfl, ho⟩ := hs
    have hoffset : o = o' := by
      cases ho with
      | none => rfl
      | some ho => exact congrArg some (hC ▸ ho)
    rw [ih, hoffset]

theorem slots_refl (hC : C.offsets = Eq) (l : List Slot) : List.Forall₂ C.Slots l l := by
  refine List.forall₂_same.2 fun s _ => ⟨rfl, rfl, ?_⟩
  rw [hC]
  cases s.offset with
  | none => exact .none
  | some o => exact .some rfl

end Comparison

variable {ix : Index} {t : Table} {C : Comparison} {inner inner' : Site → Walk Unit}

theorem slots_ne_ok {u : BlockUse} {struct : Id} {free : UInt32} {l : List Slot} {s : Slot}
    (hs : s ∈ l) (hnone : s.offset = none) {w w' : Walker} :
    run (slots ix t u inner struct free l) w ≠ (.ok (), w') := by
  induction l generalizing free w with
  | nil => cases hs
  | cons r l ih =>
    intro h
    obtain ⟨free', w₁, hr, hl⟩ := run_bind_eq_ok.1 h
    rcases List.mem_cons.1 hs with rfl | hs
    · rw [slot, hnone] at hr
      cases hr
    · exact ih hs hl

/-- Who goes on past a slot has met its end. -/
theorem settle_tooLarge {u : BlockUse} {struct : Id} {free next : UInt32} {s : Slot}
    {later : List Slot} {e : Extent} {w w' : Walker} (hlarge : 0x100000000 ≤ e.stop u.policy)
    (h : run (settle u inner struct free s later e) w = (.ok next, w')) : ¬ InRange w' := by
  obtain ⟨_, _, _, h⟩ := run_bind_eq_ok.1 h
  obtain ⟨_, w₂, _, h⟩ := run_bind_eq_ok.1 h
  cases h
  intro hin
  have hstop := hin (struct, e.stop u.policy) (by simp)
  exact absurd hstop (Nat.not_lt_of_le hlarge)

section Rounds

variable (hfair : C.Fair ix t)
variable (hg : ∀ s, Growing InWord (inner s)) (hg' : ∀ s, Growing InWord (inner' s))
variable (hi : ∀ s s', C.Sites s s' → InStep ix t C (fun _ _ => True) (inner s) (inner' s'))

include hfair hg hg' hi

theorem inStep_contents {struct : Id} {s r : Slot} {c : Constraints} {o o' : UInt32}
    {e e' : Extent} (hs : C.Slots s r) (he : C.Extents ix t s.type c o o' e e') :
    InStep ix t C (fun _ _ => True) (contents inner struct s e) (contents inner' struct r e') := by
  have hview : e'.view = e.view := he.second.view.trans he.first.view.symm
  have hoffset : C.offsets e.offset e'.offset := by
    rw [he.first.offset, he.second.offset]
    exact he.offset
  have hcons : e.constraints = e'.constraints :=
    he.first.constraints.trans he.second.constraints.symm
  have halign := hfair.alignment _ _ _ _ he.first.alignment he.second.alignment
  refine InStep.bind (Q := fun _ _ => True) ?_ (fun _ => hg _) (fun _ => hg' _) fun _ _ _ => ?_
  · rw [enter, enter, hview, ← hs.type]
    split
    · exact hi _ _ (.struct _ _ _ hoffset)
    · exact inStep_pure trivial
  · rw [← hs.type, ← hs.member]
    exact hi _ _ (.array _ _ _ _ _ ⟨rfl, rfl, hcons, hoffset, halign⟩ halign)

theorem inStep_settle {struct : Id} {a b : UInt32} {s r : Slot} {l l' : List Slot}
    {c : Constraints} {o o' : UInt32} {e e' : Extent} (hs : C.Slots s r) (hf : C.Frees a b)
    (hl : List.Forall₂ C.Slots l l') (he : C.Extents ix t s.type c o o' e e') :
    InStep ix t C C.Frees (settle C.first inner struct a s l e)
      (settle C.second inner' struct b r l' e') := by
  by_cases hlarge : C.boundFirst = true ∧ 0x100000000 ≤ e.stop C.first.policy
  · intro w₁ w₂ _
    rcases hr : run (settle C.first inner struct a s l e) w₁ with ⟨f | x, w⟩
    · exact .error f w _ fun hstrict => by simp [hfair.lenient hlarge.1] at hstrict
    · exact .first _ _ (.tooLarge _ hlarge.1 fun hin => settle_tooLarge hlarge.2 hr hin)
  have hstop : C.boundFirst = true → e.stop C.first.policy < 0x100000000 :=
    fun hb => Nat.lt_of_not_le fun hle => hlarge ⟨hb, hle⟩
  have hfault := hfair.fault _ _ _ _ _ _ _ _ _ _ he hstop hf hl
  rw [settle, settle, ← hs.member]
  refine (inStep_rejectAny hfault.1 fun h => ⟨hfair.uses h, hfault.2 h⟩).bind
    (fun _ => growing_contents_free hg) (fun _ => growing_contents_free hg') fun _ _ _ => ?_
  refine (inStep_contents hfair hg hg' hi hs he).bind (fun _ => growing_meet_pure _)
    (fun _ => growing_meet_pure _) fun _ _ _ => ?_
  refine (inStep_meet _ _ _ _).bind (fun _ => invariant_pure _) (fun _ => invariant_pure _)
    fun _ _ hfit => inStep_pure ?_
  exact hfair.free _ _ _ _ _ _ he ⟨fun h => hfit.1 h _ (by simp), fun h => hfit.2 h _ (by simp)⟩

theorem inStep_slot {struct : Id} {a b : UInt32} {s r : Slot} {l l' : List Slot}
    (hs : C.Slots s r) (hf : C.Frees a b) (hl : List.Forall₂ C.Slots l l') :
    InStep ix t C C.Frees (slot ix t C.first inner struct a s l)
      (slot ix t C.second inner' struct b r l') := by
  have hoff := hs.offset
  unfold slot
  generalize s.offset = x at hoff
  generalize r.offset = y at hoff
  cases hoff with
  | none =>
    refine inStep_throw fun h => ?_
    rw [hfair.uses h, hs.member]
  | some ho =>
    dsimp only
    rw [← hs.type]
    split
    · exact inStep_pure hf
    · rw [occupied, occupied, ← hs.type, ← hs.member]
      refine ((measuring_extent _ _ _).inStep (measuring_extent _ _ _)).bind
        (fun _ => keeping_settle hg growing_meet _ _ _ _ _)
        (fun _ => keeping_settle hg' growing_meet _ _ _ _ _) fun e e' he => ?_
      exact inStep_settle hfair hg hg' hi hs hf hl ⟨he.1, he.2, ho⟩

theorem inStep_slots {struct : Id} {a b : UInt32} {l l' : List Slot} (hf : C.Frees a b)
    (hl : List.Forall₂ C.Slots l l') :
    InStep ix t C (fun _ _ => True) (slots ix t C.first inner struct a l)
      (slots ix t C.second inner' struct b l') := by
  induction hl generalizing a b with
  | nil => exact inStep_pure trivial
  | cons hs hl ih =>
    exact (inStep_slot hfair hg hg' hi hs hf hl).bind
      (fun _ => keeping_slots hg lasting_growing _ _ _)
      (fun _ => keeping_slots hg' lasting_growing _ _ _) fun _ _ hf' => ih hf'

theorem inStep_element {h h' : Holder} (hh : C.Holders h h') (e : Id) (stride : UInt32)
    (i : Nat) : InStep ix t C (fun _ _ => True) (element inner h e stride i)
      (element inner' h' e stride i) := by
  refine (inStep_meet _ _ _ _).bind (fun _ => hg _) (fun _ => hg' _) fun _ _ hfit => ?_
  refine hi _ _ (.struct e _ _ (hfair.element _ _ stride i hh.offset ⟨fun hb => ?_, fun hb => ?_⟩))
  · exact hfit.1 hb _ (by simp)
  · exact hfit.2 hb _ (by simp)

theorem inStep_elements {h h' : Holder} (hh : C.Holders h h') (e : Id) (stride length : UInt32) :
    InStep ix t C (fun _ _ => True) (elements ix inner h e stride length)
      (elements ix inner' h' e stride length) := by
  unfold elements
  split
  · exact inStep_forM (keeping_element hg growing_meet h e stride)
      (keeping_element hg' growing_meet h' e stride)
      fun i _ => inStep_element hfair hg hg' hi hh e stride i
  · exact inStep_pure trivial

theorem inStep_deeper {h h' : Holder} (hh : C.Holders h h') (e : Id) (stride : UInt32) :
    InStep ix t C (fun _ _ => True) (deeper ix t C.first inner h e stride)
      (deeper ix t C.second inner' h' e stride) := by
  rw [deeper, deeper, ← hh.constraints, ← hh.struct, ← hh.member]
  refine ((measuring_measure _).inStep (measuring_measure _)).bind
    (fun _ => growing_measure_walk hg) (fun _ => growing_measure_walk hg') fun a b hab => ?_
  refine ((measuring_measure _).inStep (measuring_measure _)).bind
    (fun _ => growing_reject_walk hg) (fun _ => growing_reject_walk hg') fun n m hnm => ?_
  obtain rfl := hnm.1.unique hnm.2
  refine (inStep_rejectAny (fun hn => hn) fun hs => ⟨hfair.uses hs, rfl⟩).bind (fun _ => hg _)
    (fun _ => hg' _) fun _ _ _ => ?_
  exact hi _ _ (.array _ _ _ _ _ hh (hfair.alignment _ _ _ _ hab.1 hab.2))

theorem inStep_level {h h' : Holder} (hh : C.Holders h h') {a a' : UInt32}
    (ha : C.Alignments a a') (id e : Id) (length : UInt32) :
    InStep ix t C (fun _ _ => True) (level ix t C.first inner h id a e length)
      (level ix t C.second inner' h' id a' e length) := by
  have hstride : strideFault? (t.literal? id .arrayStride) a = none →
      strideFault? (t.literal? id .arrayStride) a' = none := by
    simp only [strideFault?_eq_none]
    exact fun hf s hs => ⟨(hf s hs).1, ha.1 s (hf s hs).2⟩
  have hmatrix : matrixFault? (ix.type? e) h.constraints h.alignment = none →
      matrixFault? (ix.type? e) h.constraints h'.alignment = none := by
    simp only [Extent.matrixFault?_eq_none]
    exact fun hf hm => hh.alignment.1 _ (hf hm)
  rw [level, level, ← hh.struct, ← hh.member, ← hh.constraints]
  refine (inStep_rejectAny hstride fun hs => ⟨hfair.uses hs, by rw [ha.2 hs]⟩).bind
    (fun _ => growing_elements_deeper hg) (fun _ => growing_elements_deeper hg') fun _ _ _ => ?_
  refine (inStep_elements hfair hg hg' hi hh e _ _).bind
    (fun _ => growing_reject_deeper hg) (fun _ => growing_reject_deeper hg') fun _ _ _ => ?_
  refine (inStep_rejectAny hmatrix fun hs =>
    ⟨hfair.uses hs, by rw [hh.alignment.2 hs]⟩).bind
    (fun _ => keeping_deeper hg lasting_growing _ _ _)
    (fun _ => keeping_deeper hg' lasting_growing _ _ _) fun _ _ _ => ?_
  exact inStep_deeper hfair hg hg' hi hh e _

/-- A round keeps two walks in step where the sites inside do. -/
theorem inStep_within {s s' : Site} (hs : C.Sites s s') :
    InStep ix t C (fun _ _ => True) (within ix t C.first inner s)
      (within ix t C.second inner' s') := by
  cases hs with
  | struct id a b hab =>
    simp only [within]
    split
    · next ms hms =>
      refine (inStep_meet _ _ _ _).bind (fun _ => keeping_slots hg lasting_growing _ _ _)
        (fun _ => keeping_slots hg' lasting_growing _ _ _) fun _ _ hfit => ?_
      rw [← Index.members_eq hms] at hfit ⊢
      rcases hfair.slots id a b hab hfit.1 hfit.2 with hl | ⟨hstrict, s, hs, hnone⟩
      · exact inStep_slots hfair hg hg' hi ⟨fun _ _ _ _ => Nat.zero_le _, fun _ => rfl⟩ hl
      · exact inStep_of_error hstrict fun _ _ _ => slots_ne_ok hs hnone
    · exact inStep_pure trivial
  | array h h' id a a' hh ha =>
    simp only [within]
    split
    · exact inStep_level hfair hg hg' hi hh ha id _ _
    · exact inStep_level hfair hg hg' hi hh ha id _ _
    · exact inStep_pure trivial

end Rounds

theorem inStep_demand (lack : LayoutFault) (r : Except Id Bool) :
    InStep ix t C (fun _ _ => True) (demand lack r) (demand lack r) := by
  unfold demand
  split
  · exact inStep_pure trivial
  · exact inStep_throw fun _ => rfl
  · exact inStep_throw fun _ => rfl

theorem inStep_explicit (root : Id) (kind : DecorationKind) :
    InStep ix t C (fun _ _ => True) (explicit ix t root kind) (explicit ix t root kind) := by
  refine (inStep_demand _ _).bind (fun _ => invariant_forM fun _ _ => keeping_demand _ _)
    (fun _ => invariant_forM fun _ _ => keeping_demand _ _) fun _ _ _ => ?_
  exact inStep_forM (fun _ => keeping_demand _ _) (fun _ => keeping_demand _ _)
    fun _ _ => inStep_demand _ _

theorem inStep_afterExplicit {x y : Walk Unit} (hx : Growing InWord x) (hy : Growing InWord y)
    (root : Id) (kind : DecorationKind) (hxy : InStep ix t C (fun _ _ => True) x y) :
    InStep ix t C (fun _ _ => True) (explicit ix t root kind >>= fun _ => x)
      (explicit ix t root kind >>= fun _ => y) :=
  (inStep_explicit root kind).bind (fun _ => hx) (fun _ => hy) fun _ _ _ => hxy

end SpirvRules.Walk
