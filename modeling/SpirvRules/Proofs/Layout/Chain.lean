import SpirvRules.Proofs.Layout.Soundness

/-!
# Slots right one after the other

One running offset separates all slots of a struct: it never falls, so a slot that starts beyond it
starts beyond all slots before.
-/

set_option autoImplicit false

namespace SpirvRules.Walk

variable {ix : Index} {t : Table} {u : BlockUse} {M : Id → Nat → Prop} {P : Site → Prop}
variable {struct : Id} {free next : UInt32} {s r : Slot} {l later : List Slot} {e e' : Extent}

theorem Measures.unique {type : Id} {offset : UInt32} {c : Constraints}
    (h : Measures ix t u type offset c e) (h' : Measures ix t u type offset c e') : e = e' := by
  obtain ⟨v, d, o, a, n, k⟩ := e
  obtain ⟨v', d', o', a', n', k'⟩ := e'
  have hk : k = k' := by
    have hc := h.component
    have hc' := h'.component
    revert hc hc'
    generalize looseComponent? u (ix.type? type) = x
    intro hc hc'
    cases hc with
    | none => cases hc'; rfl
    | some hv => cases hc' with | some hv' => exact congrArg some (hv.unique hv')
  rw [Extent.mk.injEq]
  exact ⟨h.view.trans h'.view.symm, h.constraints.trans h'.constraints.symm,
    h.offset.trans h'.offset.symm, h.alignment.unique h'.alignment, h.size.unique h'.size, hk⟩

structure Extends (ix : Index) (t : Table) (u : BlockUse) (struct : Id) (s : Slot) (e : Extent) :
    Prop where
  offset : s.offset = some e.offset
  nonempty : ix.type? s.type ≠ some (.struct [])
  measures : Measures ix t u s.type e.offset (t.constraints struct s.member) e

theorem Extends.unique (h : Extends ix t u struct s e) (h' : Extends ix t u struct s e') :
    e = e' := by
  have ho : e.offset = e'.offset := Option.some.inj (h.offset.symm.trans h'.offset)
  have hm := h'.measures
  rw [← ho] at hm
  exact h.measures.unique hm

theorem Occupies.extends {offset : UInt32} (h : Occupies ix t u M P struct free s later offset e)
    (ho : s.offset = some offset) (hs : ix.type? s.type ≠ some (.struct [])) :
    Extends ix t u struct s e := by
  have hm := h.measures
  rw [← hm.offset] at ho hm
  exact ⟨ho, hs, hm⟩

theorem Occupies.free_le {offset : UInt32} (h : Occupies ix t u M P struct free s later offset e) :
    free ≤ e.offset :=
  Extent.overlapFault?_eq_none.1 (Extent.fault?_eq_none.1 h.sound).2.2.1

theorem SlotRight.occupies (h : SlotRight ix t u M P struct free s later next)
    (he : Extends ix t u struct s e) :
    Occupies ix t u M P struct free s later e.offset e ∧ next = e.free u.policy := by
  cases h with
  | empty offset ho hs => exact absurd hs he.nonempty
  | occupied offset e' ho hs hocc =>
    obtain rfl := (hocc.extends ho hs).unique he
    rw [hocc.measures.offset]
    exact ⟨hocc, rfl⟩

theorem SlotRight.le (h : SlotRight ix t u M P struct free s later next) : free ≤ next := by
  cases h with
  | empty offset ho hs => exact UInt32.le_refl _
  | occupied offset e ho hs hocc =>
    exact UInt32.le_trans hocc.free_le (Extent.offset_le_free e u.policy)

/-- Each slot of a chain is right, with more free before it than before the chain. -/
theorem Chain.right (h : Chain ix t u M P struct free l) (hs : s ∈ l) :
    ∃ free' next later, free ≤ free' ∧ SlotRight ix t u M P struct free' s later next := by
  induction h with
  | nil => cases hs
  | cons free next r later hr _ ih =>
    rcases List.mem_cons.1 hs with rfl | hs
    · exact ⟨free, next, later, UInt32.le_refl _, hr⟩
    · obtain ⟨free', next', later', hle, hright⟩ := ih hs
      exact ⟨free', next', later', UInt32.le_trans hr.le hle, hright⟩

theorem Chain.occupies (h : Chain ix t u M P struct free l) (hs : s ∈ l)
    (he : Extends ix t u struct s e) :
    ∃ free' later, free ≤ free' ∧ Occupies ix t u M P struct free' s later e.offset e := by
  obtain ⟨free', next, later, hle, hr⟩ := h.right hs
  exact ⟨free', later, hle, (hr.occupies he).1⟩

theorem Chain.offset (h : Chain ix t u M P struct free l) (hs : s ∈ l) :
    ∃ o, s.offset = some o := by
  obtain ⟨_, _, _, _, hr⟩ := h.right hs
  cases hr with
  | empty offset ho _ => exact ⟨offset, ho⟩
  | occupied offset _ ho _ _ => exact ⟨offset, ho⟩

theorem Chain.extends (h : Chain ix t u M P struct free l) (hs : s ∈ l)
    (hn : ix.type? s.type ≠ some (.struct [])) : ∃ e, Extends ix t u struct s e := by
  obtain ⟨_, _, _, _, hr⟩ := h.right hs
  cases hr with
  | empty offset _ he => exact absurd he hn
  | occupied offset e ho _ hocc => exact ⟨e, hocc.extends ho hn⟩

theorem Chain.pairwise (h : Chain ix t u M P struct free l) :
    l.Pairwise fun s r => ∀ e e', Extends ix t u struct s e → Extends ix t u struct r e' →
      e.free u.policy ≤ e'.offset := by
  induction h with
  | nil => exact .nil
  | cons free next s later hs hl ih =>
    refine List.pairwise_cons.2 ⟨fun r hr e e' he he' => ?_, ih⟩
    obtain ⟨_, _, hle, hocc⟩ := hl.occupies hr he'
    rw [← (hs.occupies he).2]
    exact UInt32.le_trans hle hocc.free_le

/-- No slot starts before another has ended, by exact count: an offset below the largest word is
no stuck one, so neither was what it was compared with. -/
theorem Chain.apart (h : Chain ix t u M P struct free l) (hs : s ∈ l) (hr : r ∈ l) (hne : s ≠ r)
    (he : Extends ix t u struct s e) (he' : Extends ix t u struct r e')
    (ho : e.offset ≠ Word.top) (ho' : e'.offset ≠ Word.top) :
    e.stop u.policy ≤ e'.offset.toNat ∨ e'.stop u.policy ≤ e.offset.toNat := by
  have exact_of_free_le : ∀ {e₁ e₂ : Extent}, e₁.free u.policy ≤ e₂.offset →
      e₂.offset ≠ Word.top → e₁.stop u.policy ≤ e₂.offset.toNat := by
    intro e₁ e₂ hle htop
    have hlt := e₂.offset.toNat_lt
    have hne : e₂.offset.toNat ≠ 0xFFFFFFFF := fun heq => htop (UInt32.toNat_inj.1 heq)
    rw [UInt32.le_iff_toNat_le, Extent.toNat_free] at hle
    omega
  have hsymm : l.Pairwise fun s r => ∀ e e', Extends ix t u struct s e →
      Extends ix t u struct r e' → e.free u.policy ≤ e'.offset ∨ e'.free u.policy ≤ e.offset :=
    h.pairwise.imp fun hp e e' he he' => .inl (hp e e' he he')
  have : Std.Symm fun s r => ∀ e e', Extends ix t u struct s e → Extends ix t u struct r e' →
      e.free u.policy ≤ e'.offset ∨ e'.free u.policy ≤ e.offset :=
    ⟨fun _ _ hp e e' he he' => (hp e' e he' he).symm⟩
  rcases hsymm.forall hs hr hne e e' he he' with hle | hle
  · exact .inl (exact_of_free_le hle ho')
  · exact .inr (exact_of_free_le hle ho)

/-- In a struct found right, a member that is no empty struct takes up something, and does so where
it is placed if a word can hold that. -/
theorem Chain.exists_occupies {id m : Id} {base o : UInt32} {k : Nat}
    (hc : Chain ix t u M P id 0 (Slot.judged ix t id base))
    (hplaces : ∀ n ∈ Slot.places t id base (ix.members id), n < 0x100000000)
    (hm : (ix.members id)[k]? = some m) (hn : ix.type? m ≠ some (.struct []))
    (ho : t.memberOffset? id k = some o) :
    ∃ s e free later, s ∈ Slot.judged ix t id base ∧ s.type = m ∧ s.member = k ∧
      Extends ix t u id s e ∧ e.offset.toNat = base.toNat + o.toNat ∧
      Occupies ix t u M P id free s later e.offset e := by
  obtain ⟨s, hs, hk, htype, hoff⟩ := Slot.exists_judged (t := t) hm
  rw [← htype] at hn
  obtain ⟨e, he⟩ := hc.extends hs hn
  rw [he.offset] at hoff
  obtain ⟨x, hx, hxe⟩ := Option.map_eq_some_iff.1 hoff.symm
  have hplace := hplaces _ (Slot.mem_places hm hx)
  cases ho.symm.trans (Table.usableOffset?_eq_some.1 hx).1
  obtain ⟨free, later, _, hocc⟩ := hc.occupies hs he
  refine ⟨s, e, free, later, hs, htype, hk, he, ?_, hocc⟩
  rw [← hxe, Word.toNat_addSat]
  omega

theorem Chain.last (h : Chain ix t u M P struct free l)
    (hsorted : l.Pairwise fun x y => x.key ≤ y.key) (hs : s ∈ l) (hr : r ∈ l)
    (he : Extends ix t u struct s e) (ha : e.view.any TypeView.isRuntimeArray) {o : UInt32}
    (ho : r.offset = some o) : o ≤ e.offset := by
  induction h with
  | nil => cases hs
  | cons free next x later hx _ ih =>
    obtain ⟨hfirst, hlater⟩ := List.pairwise_cons.1 hsorted
    rcases List.mem_cons.1 hs with rfl | hs'
    · rcases List.mem_cons.1 hr with rfl | hr'
      · rw [he.offset] at ho
        cases ho
        exact UInt32.le_refl _
      · have hsound := (Extent.fault?_eq_none.1 (hx.occupies he).1.sound).1
        exact Extent.orderFault?_eq_none.1 hsound ha r hr' o ho
    · rcases List.mem_cons.1 hr with rfl | hr'
      · have hkey := hfirst s hs'
        rw [Slot.key, Slot.key, ho, he.offset] at hkey
        exact hkey
      · exact ih hlater hs' hr'

end SpirvRules.Walk
