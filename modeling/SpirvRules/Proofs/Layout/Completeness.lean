import SpirvRules.Proofs.Layout.Clearance
import SpirvRules.Proofs.Layout.Faults
import SpirvRules.Proofs.Layout.Settling
import SpirvRules.Proofs.Validation

/-!
# Canonical layouts are accepted

Every check of a block laid out canonically passes under standard uniform rules, from whatever was
measured and verified before. Only the depth of types is bounded: where they go deep, a check may
stop for that reason, and for no other.
-/

set_option autoImplicit false

namespace SpirvRules

open Outcome Stateful

namespace Walk

variable {ix : Index} {t : Table} {u : BlockUse} {deep : Prop} {α β : Type}

/-- A computation succeeds from every walker that remembers nothing false; if `deep`, it may find a
type nested too deep. -/
def Passes (ix : Index) (t : Table) (deep : Prop) (x : Walk α) (Q : α → Prop) : Prop :=
  Triple (Walker.Faithful ix t) x (fun a w => w.Faithful ix t ∧ Q a)
    fun f _ => deep ∧ ∃ id, f = .tooDeep id

section Passes

theorem passes_forM {l : List α} {f : α → Walk Unit}
    (h : ∀ x ∈ l, Passes ix t deep (f x) fun _ => True) :
    Passes ix t deep (l.forM f) fun _ => True := by
  have hall : ∀ x ∈ l, Invariant (Walker.Faithful ix t) (fun e _ => deep ∧ ∃ id, e = .tooDeep id)
      (f x) := fun x hx => Triple.mono (h x hx) (fun _ => id) (fun _ _ => And.left) fun _ _ => id
  exact (invariant_forM hall).mono (fun _ => id) (fun _ _ hw => ⟨hw, trivial⟩) fun _ _ => id

theorem passes_meet (struct : Id) (ns : List Nat) :
    Passes ix t deep (meet struct ns) fun _ => True :=
  triple_meet fun _ hw => ⟨hw, trivial⟩

theorem passes_rejectAny {struct : Id} {member : Nat} {f : Option SlotFault} (h : f = none) :
    Passes ix t deep (rejectAny u struct member f) fun _ => True := by
  rw [h]
  exact triple_pure fun _ hw => ⟨hw, trivial⟩

theorem passes_measure_of_plain {q : Quantity} {v : UInt32}
    (h : Rule.plain (Quantity.rule ix t) Quantity.maxTypeDepth q = .ok v) :
    Passes ix t deep (measure ix t q) (· = v) := by
  refine triple_measure (Rule.triple_memoised_of_plain h) (fun _ hw => hw)
    (fun w a m _ ha => ⟨ha.1, ?_⟩) fun _ _ _ _ => False.elim
  cases h.symm.trans ha.2
  rfl

/-- What settles is measured, where its type is not too deep. -/
theorem passes_measure {q : Quantity} {r : Nat} (hq : q.Settles ix t r)
    (hdeep : ¬ deep → ix.isShallow Quantity.maxTypeDepth q.type) :
    Passes ix t deep (measure ix t q) fun v => v.toNat = r := by
  obtain ⟨v, rfl, hvalue, hplain⟩ := hq
  by_cases hd : deep
  · refine (measuring_measure q _ remembering_faithful).mono (fun _ => id) (fun a w h => ⟨h.1, ?_⟩)
      fun _ _ h => ⟨hd, h⟩
    rw [hvalue.unique h.2]
  · exact Triple.mono (passes_measure_of_plain (hplain _ (hdeep hd))) (fun _ => id)
      (fun _ _ h => ⟨h.1, congrArg _ h.2⟩) fun _ _ => id

theorem passes_demand {lack : LayoutFault} {c : Explicit.Check Unit}
    (h : Explicit.Clear deep c) :
    Passes ix t deep (demand lack (Explicit.outcome c)) fun _ => True := by
  have hends := h ∅ trivial
  rw [Explicit.outcome_eq]
  generalize run c ∅ = r at hends
  cases hends with
  | ok _ => exact triple_pure fun _ hw => ⟨hw, trivial⟩
  | error hf =>
    obtain ⟨hdeep, id, rfl⟩ := hf
    exact triple_throw fun _ _ => ⟨hdeep, id, rfl⟩

end Passes

theorem passes_explicit {x root : Id} {k a s : Nat} (h : Canonical ix t x k root a s)
    (hs : s < 0x100000000) (hdeep : ¬ deep → ix.isShallow Quantity.maxTypeDepth root)
    (kind : DecorationKind) : Passes ix t deep (explicit ix t root kind) fun _ => True := by
  refine (passes_demand (Explicit.clear_offsets _ h hs hdeep)).bindFact fun _ _ => ?_
  apply passes_forM
  intro need _
  apply passes_demand
  exact Explicit.clear_needs need _
    ⟨⟨_, _, _, _, h⟩, fun hd => ⟨by decide, Index.isShallow_succ (hdeep hd)⟩⟩

/-- A site laid out canonically and placed where its alignment asks, so that a word can say where
everything in it ends. -/
def Placed (ix : Index) (t : Table) : Site → Prop
  | .struct id base => ∃ x k a s, Canonical ix t x k id a s ∧ a ∣ base.toNat ∧
    base.toNat + s < 0x100000000
  | .array h id alignment => h.constraints = t.constraints h.struct h.member ∧
    ∃ s, Canonical ix t h.struct h.member id alignment.toNat s ∧
      alignment.toNat ∣ h.offset.toNat ∧ h.offset.toNat + s < 0x100000000 ∧
      ((ix.element? id).isSome → h.alignment = alignment)

structure Fills (ix : Index) (t : Table) (struct : Id) (base : UInt32) (p : Span) (s : Slot)
    (e : Extent) : Prop where
  view : e.view = ix.type? s.type
  constraints : e.constraints = t.constraints struct s.member
  offset : e.offset.toNat = base.toNat + p.offset
  alignment : e.alignment.toNat = p.alignment
  size : e.size.toNat = p.size
  component : e.component = none

section Standard

variable (hu : u.policy = ⟨.uniform, .standard⟩)

include hu

theorem alignment_standard (type : Id) (c : Constraints) :
    u.policy.alignment type c = .baseAlignment type c true := by
  simp [LayoutPolicy.alignment, hu]

theorem looseComponent_standard (view : Option TypeView) : looseComponent? u view = none := by
  unfold looseComponent?
  split
  · simp [hu]
  · rfl

theorem pads_standard (id : Id) : u.policy.pads (ix.type? id) = ix.isPadded id := by
  simp [LayoutPolicy.pads, Index.isPadded, hu]

variable {id : Id} {base : UInt32} {p : Nat → Span} {j : Nat} {m : Id}

theorem passes_extent {struct : Id} {s : Slot} {offset : UInt32} {q : Span}
    (hm : Canonical ix t struct s.member s.type q.alignment q.size)
    (hsize : q.size < 0x100000000) (ho : offset.toNat = base.toNat + q.offset)
    (hdeep : ¬ deep → ix.isShallow Quantity.maxTypeDepth s.type) :
    Passes ix t deep (extent ix t u s.type offset (t.constraints struct s.member))
      (Fills ix t struct base q s) := by
  unfold extent
  dsimp only
  rw [alignment_standard hu, looseComponent_standard hu]
  refine (passes_measure hm.base_settles hdeep).bindFact fun a ha => ?_
  refine (passes_measure (hm.size_settles hsize) hdeep).bindFact fun n hn => ?_
  exact triple_pure fun _ hw => ⟨hw, rfl, rfl, ho, ha, hn, rfl⟩

end Standard

/-- A slot filled canonically has no fault where all before it has ended. -/
theorem fault_of_fills {struct : Id} {base free : UInt32} {q : Span} {s : Slot} {e : Extent}
    {later : List Slot} (he : Fills ix t struct base q s e)
    (hm : Canonical ix t struct s.member s.type q.alignment q.size)
    (hbase : q.alignment ∣ base.toNat) (hoffset : q.alignment ∣ q.offset)
    (hfree : free.toNat ≤ base.toNat + q.offset) : e.fault? free later = none := by
  rw [Extent.fault?_eq_none]
  refine ⟨?_, ?_, ?_, ?_, ?_⟩
  · rw [Extent.orderFault?_eq_none, he.view, hm.not_runtimeArray]
    intro h
    cases h
  · rw [Extent.alignmentFault?_eq_none, he.component, Option.getD_none, Word.isAligned_iff,
      he.alignment, he.offset]
    exact .inr (Nat.dvd_add hbase hoffset)
  · rw [Extent.overlapFault?_eq_none, UInt32.le_iff_toNat_le, he.offset]
    exact hfree
  · rw [Extent.straddleFault?_eq_none, he.component]
    intro h
    cases h
  · rw [Extent.matrixFault?_eq_none, he.view, he.constraints, Word.isAligned_iff, he.alignment]
    intro h
    obtain ⟨v, hv, hv'⟩ := (Option.any_eq_true _ _).1 h
    cases v with
    | matrix col n =>
      obtain ⟨⟨r, hs⟩, _⟩ := hm.of_matrix hv
      rw [hs.stride]
      exact .inr (Nat.dvd_refl _)
    | _ => cases hv'

structure Based (ix : Index) (t : Table) (id : Id) (base : UInt32) (p : Nat → Span) : Prop where
  members : ∀ j m, (ix.members id)[j]? = some m →
    Canonical ix t id j m (p j).alignment (p j).size
  consecutive : Consecutive ix t id p
  aligned : ∀ j m, (ix.members id)[j]? = some m → (p j).alignment ∣ base.toNat
  fits : ∀ j m, (ix.members id)[j]? = some m →
    base.toNat + ((p j).offset + (p j).size) < 0x100000000

section Based

variable {id : Id} {base : UInt32} {p : Nat → Span} {j : Nat} {m : Id}

theorem based_of_placed {ms : List Operand} (hv : ix.type? id = some (.struct ms))
    (h : Placed ix t (.struct id base)) : ∃ p, Based ix t id base p := by
  obtain ⟨x, k, a, s, h, ha, hs⟩ := h
  obtain ⟨_, hids, p, hp, hm, rfl, rfl⟩ := h.of_struct hv
  have hlen := length_members hv hids
  refine ⟨p, hm, hp, fun j m hj => ?_, fun j m hj => ?_⟩
  · exact Nat.dvd_trans (dvd_ceil_largest (fun j m hj => (hm j m hj).alignment_mem) hj) ha
  · have hlt := (List.getElem?_eq_some_iff.1 hj).1
    have hend := hp.end_le (j := j) (i := ms.length - 1) (by omega) (by omega)
    omega

variable (hb : Based ix t id base p)

include hb

theorem Based.offset (hm : (ix.members id)[j]? = some m) :
    ∃ w, (t.usableOffset? id j).map (Word.addSat base) = some w ∧
      w.toNat = base.toNat + (p j).offset := by
  have hfit := hb.fits j m hm
  obtain ⟨o, ho, hoffset⟩ := hb.consecutive.usable (Nat.le_refl j)
    (List.getElem?_eq_some_iff.1 hm).1 (hb.members j m hm).size_pos (by omega)
  refine ⟨Word.addSat base o, by rw [ho]; rfl, ?_⟩
  rw [Word.toNat_addSat, hoffset]
  omega

theorem Based.judged : Slot.judged ix t id base = Slot.ofStruct t id base (ix.members id) := by
  apply Slot.inOrder_eq_self
  rw [Slot.ofStruct, List.pairwise_map, List.pairwise_iff_getElem]
  intro i j hi hj hij
  simp only [List.length_zipIdx] at hi hj
  simp only [List.getElem_zipIdx, Nat.zero_add]
  obtain ⟨w, hw, ho⟩ := hb.offset (List.getElem?_eq_getElem hi)
  obtain ⟨w', hw', ho'⟩ := hb.offset (List.getElem?_eq_getElem hj)
  have hle := hb.consecutive.offset_le (Nat.le_of_lt hij) hj
  simp only [Slot.key, hw, hw', Option.getD_some, UInt32.le_iff_toNat_le]
  omega

end Based

section Inner

variable (hu : u.policy = ⟨.uniform, .standard⟩)
variable {inner : Site → Walk Unit} {id : Id} {base free : UInt32} {p : Nat → Span}

include hu

/-- The free offset after a slot is where the member that follows may lie at the earliest. -/
theorem free_of_fills {q : Span} {s : Slot} {e : Extent} (he : Fills ix t id base q s e)
    (hbase : q.alignment ∣ base.toNat) :
    (e.free u.policy).toNat ≤ base.toNat + q.stop (ix.isPadded s.type) := by
  rw [Extent.toNat_free, Extent.stop, he.view, pads_standard hu, he.offset, he.size, he.alignment]
  have hceil := Word.ceil_add (q.offset + q.size) hbase
  have hsum : base.toNat + q.offset + q.size = q.offset + q.size + base.toNat := by omega
  unfold Span.stop
  split
  · rw [hsum, hceil]
    omega
  · omega

theorem passes_slot (hb : Based ix t id base p) {j : Nat} {m : Id} {later : List Slot}
    (hm : (ix.members id)[j]? = some m) (hfree : free.toNat ≤ base.toNat + (p j).offset)
    (hdeep : ¬ deep → ix.isShallow Quantity.maxTypeDepth m)
    (hi : ∀ s : Site, s.type = m → Placed ix t s → Passes ix t deep (inner s) fun _ => True) :
    Passes ix t deep
      (slot ix t u inner id free ⟨j, m, (t.usableOffset? id j).map (Word.addSat base)⟩ later)
      fun next => next.toNat ≤ base.toNat + (p j).stop (ix.isPadded m) := by
  obtain ⟨w, hw, ho⟩ := hb.offset hm
  have hc := hb.members j m hm
  have hfit := hb.fits j m hm
  have hbase := hb.aligned j m hm
  have hoffset := hb.consecutive.aligned (List.getElem?_eq_some_iff.1 hm).1 hc.alignment_ne_zero
  have hne : ix.type? m ≠ some (.struct []) := fun hv => (hc.of_struct hv).1 rfl
  unfold slot
  simp only [hw]
  rw [if_neg hne]
  refine (passes_extent hu (q := p j) hc (by omega) ho hdeep).bindFact fun e he => ?_
  refine (passes_rejectAny (fault_of_fills he hc hbase hoffset hfree)).bindFact fun _ _ => ?_
  have hplace : (p j).alignment ∣ e.offset.toNat := he.offset ▸ Nat.dvd_add hbase hoffset
  refine Triple.bindFact (q := fun _ => True) ?_ fun _ _ =>
    (passes_meet _ _).bindFact fun _ _ => triple_pure fun _ hw => ⟨hw, free_of_fills hu he hbase⟩
  refine Triple.bindFact (q := fun _ => True) ?_ fun _ _ => hi _ rfl ?_
  · unfold enter
    split
    · exact hi _ rfl ⟨_, _, _, _, hc, hplace, by rw [he.offset]; omega⟩
    · exact triple_pure fun _ hw => ⟨hw, trivial⟩
  · refine ⟨he.constraints, (p j).size, ?_, ?_, ?_, fun _ => rfl⟩
    · rw [he.alignment]
      exact hc
    · rw [he.alignment]
      exact hplace
    · rw [he.offset]
      omega

theorem passes_slots (hb : Based ix t id base p) (rest : List Id) (k : Nat)
    (hrest : ∀ i, rest[i]? = (ix.members id)[k + i]?)
    (hfree : rest ≠ [] → free.toNat ≤ base.toNat + (p k).offset)
    (hdeep : ¬ deep → ∀ m ∈ ix.members id, ix.isShallow Quantity.maxTypeDepth m)
    (hi : ∀ s : Site, s.type ∈ ix.members id → Placed ix t s →
      Passes ix t deep (inner s) fun _ => True) :
    Passes ix t deep (slots ix t u inner id free ((rest.zipIdx k).map fun (m, j) =>
      ⟨j, m, (t.usableOffset? id j).map (Word.addSat base)⟩)) fun _ => True := by
  induction rest generalizing k free with
  | nil => exact triple_pure fun _ hw => ⟨hw, trivial⟩
  | cons m rest ih =>
    have hm : (ix.members id)[k]? = some m := by simpa using (hrest 0).symm
    have hmem := List.mem_of_getElem? hm
    rw [List.zipIdx_cons, List.map_cons]
    refine (passes_slot hu hb hm (hfree (by simp)) (fun hd => hdeep hd m hmem)
      fun s hs => hi s (hs ▸ hmem)).bindFact fun next hnext =>
        ih (k + 1) (fun i => ?_) fun hne => ?_
    · have h := hrest (i + 1)
      rwa [List.getElem?_cons_succ, Nat.add_comm i 1, ← Nat.add_assoc] at h
    · obtain ⟨r, rest, rfl⟩ := List.exists_cons_of_ne_nil hne
      have hnext' : (ix.members id)[k + 1]? = some r := by simpa using (hrest 1).symm
      have hle := hb.consecutive.stop_le hm (List.getElem?_eq_some_iff.1 hnext').1
      omega

theorem passes_struct {ms : List Operand} (hv : ix.type? id = some (.struct ms))
    (hs : Placed ix t (.struct id base))
    (hdeep : ¬ deep → ∀ m ∈ ix.members id, ix.isShallow Quantity.maxTypeDepth m)
    (hi : ∀ s : Site, s.type ∈ ix.members id → Placed ix t s →
      Passes ix t deep (inner s) fun _ => True) :
    Passes ix t deep (within ix t u inner (.struct id base)) fun _ => True := by
  obtain ⟨p, hb⟩ := based_of_placed hv hs
  have hjudged := hb.judged
  have hfree : (0 : UInt32).toNat ≤ base.toNat + (p 0).offset := Nat.zero_le _
  have hslots := passes_slots hu hb (ix.members id) 0 (fun i => by rw [Nat.zero_add])
    (fun _ => hfree) hdeep hi
  rw [Slot.judged, Index.members_eq hv] at hjudged
  rw [Index.members_eq hv] at hslots
  simp only [within, hv, hjudged]
  exact (passes_meet _ _).bindFact fun _ _ => hslots

omit hu in
theorem passes_elements {h : Holder} {e : Id} {stride count : UInt32} {a s : Nat}
    (helem : Canonical ix t h.struct h.member e a s) (hplace : a ∣ h.offset.toNat)
    (hstride : a ∣ stride.toNat) (hcount : 0 < count.toNat)
    (hfit : h.offset.toNat + ((count.toNat - 1) * stride.toNat + s) < 0x100000000)
    (hi : ∀ s : Site, s.type = e → Placed ix t s → Passes ix t deep (inner s) fun _ => True) :
    Passes ix t deep (elements ix inner h e stride count) fun _ => True := by
  unfold elements
  split
  · apply passes_forM
    intro i hmem
    have hlt : i < count.toNat := by
      rw [elementIndices, List.mem_range] at hmem
      omega
    have hle : i * stride.toNat ≤ (count.toNat - 1) * stride.toNat :=
      Nat.mul_le_mul_right _ (by omega)
    have hoffset : (elementOffset h.offset stride i).toNat = h.offset.toNat + i * stride.toNat :=
      toNat_elementOffset (by omega)
    refine (passes_meet _ _).bindFact fun _ _ => hi _ rfl ⟨_, _, a, s, helem, ?_, ?_⟩
    · rw [hoffset]
      exact Nat.dvd_add hplace (Nat.dvd_mul_left_of_dvd hstride i)
    · rw [hoffset]
      omega
  · exact triple_pure fun _ hw => ⟨hw, trivial⟩

theorem passes_deeper {h : Holder} {e : Id} {stride : UInt32} {a s : Nat}
    (hc : h.constraints = t.constraints h.struct h.member)
    (helem : Canonical ix t h.struct h.member e a s) (hplace : a ∣ h.offset.toNat)
    (hsize : s ≤ stride.toNat) (hfit : h.offset.toNat + s < 0x100000000)
    (houter : (ix.element? e).isSome → h.alignment.toNat = a)
    (hdeep : ¬ deep → ix.isShallow Quantity.maxTypeDepth e)
    (hi : ∀ s : Site, s.type = e → Placed ix t s → Passes ix t deep (inner s) fun _ => True) :
    Passes ix t deep (deeper ix t u inner h e stride) fun _ => True := by
  unfold deeper
  rw [alignment_standard hu, hc]
  refine (passes_measure helem.base_settles hdeep).bindFact fun v hv => ?_
  refine (passes_measure (helem.size_settles (by omega)) hdeep).bindFact fun n hn => ?_
  refine (passes_rejectAny (elementFault?_eq_none.2 ?_)).bindFact fun _ _ => hi _ rfl ?_
  · rw [UInt32.le_iff_toNat_le, hn]
    exact hsize
  · subst hv
    exact ⟨hc, s, helem, hplace, hfit, fun he => UInt32.toNat_inj.1 (houter he)⟩

omit hu in
theorem matrixFault_of_element {h : Holder} {e : Id} {a s : Nat}
    (hc : h.constraints = t.constraints h.struct h.member)
    (helem : Canonical ix t h.struct h.member e a s)
    (houter : h.alignment.toNat = Word.ceil a 16) :
    matrixFault? (ix.type? e) h.constraints h.alignment = none := by
  rw [Extent.matrixFault?_eq_none, Word.isAligned_iff, hc, houter]
  intro hmatrix
  obtain ⟨v, hv, hv'⟩ := (Option.any_eq_true _ _).1 hmatrix
  cases v with
  | matrix col n =>
    obtain ⟨⟨r, hs⟩, hceil⟩ := helem.of_matrix hv
    rw [hs.stride, hceil]
    exact .inr (Nat.dvd_refl _)
  | _ => cases hv'

theorem passes_array {h : Holder} {alignment : UInt32} {e : Id} (he : ix.element? id = some e)
    (hs : Placed ix t (.array h id alignment))
    (hdeep : ¬ deep → ix.isShallow Quantity.maxTypeDepth e)
    (hi : ∀ s : Site, s.type = e → Placed ix t s → Passes ix t deep (inner s) fun _ => True) :
    Passes ix t deep (within ix t u inner (.array h id alignment)) fun _ => True := by
  obtain ⟨hc, s, hcanonical, hplace, hfit, houter⟩ := hs
  obtain ⟨length, n, stride, a, size, hv, hn, hpos, hlit, hstride, helem, ha, rfl⟩ :=
    hcanonical.of_element he
  have hsize := helem.size_pos
  have hle : size ≤ stride.toNat := hstride ▸ Word.le_ceil size _
  have hstrideOf : t.stride id = stride := by simp [Table.stride, hlit]
  obtain ⟨count, hcount, rfl⟩ :=
    Index.toNat_constant? hn (Canonical.length_lt hsize hle (by omega))
  have hup : a ∣ alignment.toNat := ha ▸ dvd_ceil_of_mem helem.alignment_mem
  have hdown : alignment.toNat ∣ stride.toNat :=
    hstride ▸ Word.dvd_ceil size hcanonical.alignment_ne_zero
  have houter' : h.alignment.toNat = Word.ceil a 16 := by rw [houter (by simp [he]), ha]
  have hfault : strideFault? (t.literal? id .arrayStride) alignment = none := by
    rw [hlit, strideFault?_eq_none]
    rintro _ ⟨rfl⟩
    refine ⟨fun hz => ?_, (Word.isAligned_iff _ _).2 (.inr hdown)⟩
    rw [hz, UInt32.toNat_zero] at hle
    omega
  have hinside : (ix.element? e).isSome → h.alignment.toNat = a := by
    intro hsome
    obtain ⟨e', he'⟩ := Option.isSome_iff_exists.1 hsome
    obtain ⟨_, _, _, a', _, _, _, _, _, _, _, rfl, _⟩ := helem.of_element he'
    rw [houter', Word.ceil_ceil]
  simp only [within, hv, hcount, Option.getD_some, level, hstrideOf]
  refine (passes_rejectAny hfault).bindFact fun _ _ => ?_
  refine (passes_elements helem (Nat.dvd_trans hup hplace) (Nat.dvd_trans hup hdown) hpos hfit
    hi).bindFact fun _ _ => ?_
  refine (passes_rejectAny (matrixFault_of_element hc helem houter')).bindFact fun _ _ => ?_
  exact passes_deeper hu hc helem (Nat.dvd_trans hup hplace) hle (by omega) hinside hdeep hi

theorem passes_within {s : Site} (hs : Placed ix t s)
    (hdeep : ¬ deep → ∀ x ∈ Explicit.inner ix s.type, ix.isShallow Quantity.maxTypeDepth x)
    (hi : ∀ s' : Site, s'.type ∈ Explicit.inner ix s.type → Placed ix t s' →
      Passes ix t deep (inner s') fun _ => True) :
    Passes ix t deep (within ix t u inner s) fun _ => True := by
  cases s with
  | struct id base =>
    by_cases hstruct : (ix.type? id).any TypeView.isStruct
    · obtain ⟨ms, hv⟩ := Index.isStruct_iff.1 hstruct
      exact passes_struct hu hv hs
        (fun hd m hm => hdeep hd m (Explicit.mem_inner_iff.2 (.inr hm)))
        fun s' hs' => hi s' (Explicit.mem_inner_iff.2 (.inr hs'))
    · simp only [within]
      split
      · next ms hv => exact absurd (Index.isStruct_iff.2 ⟨ms, hv⟩) hstruct
      · exact triple_pure fun _ hw => ⟨hw, trivial⟩
  | array h id alignment =>
    cases he : ix.element? id with
    | none =>
      rw [within_of_isVoid (by simp [Site.isVoid, he])]
      exact triple_pure fun _ hw => ⟨hw, trivial⟩
    | some e =>
      have hmem : e ∈ Explicit.inner ix id := Explicit.mem_inner_iff.2 (.inl he)
      exact passes_array hu he hs (fun hd => hdeep hd e hmem) fun s' hs' => hi s' (hs' ▸ hmem)

omit hu in
theorem passes_unlessVerified {s : Site} {otherwise : Walk Unit}
    (h : Passes ix t deep otherwise fun _ => True) :
    Passes ix t deep (unlessVerified u s otherwise) fun _ => True :=
  triple_unlessVerified (fun _ hw _ => ⟨hw, trivial⟩) h

omit hu in
theorem passes_verify (s : Site) : Passes ix t deep (verify u s) fun _ => True :=
  triple_verify (fun _ _ _ hw => ⟨hw, trivial⟩) fun _ _ hw => ⟨hw, trivial⟩

/-- A walk of what is laid out canonically passes, in as much room as its type has levels. -/
theorem passes_walk (n : Nat) (hn : n ≤ Quantity.maxTypeDepth) {s : Site} (hs : Placed ix t s)
    (hdeep : ¬ deep → ix.isShallow n s.type) :
    Passes ix t deep (walk ix t u n s) fun _ => True := by
  induction n generalizing s with
  | zero =>
    have hd : deep := by
      by_contra hd
      cases hdeep hd
    apply passes_unlessVerified
    split
    · exact triple_pure fun _ hw => ⟨hw, trivial⟩
    · exact triple_throw fun _ _ => ⟨hd, _, rfl⟩
  | succ n ih =>
    apply passes_unlessVerified
    refine (passes_within hu hs (fun hd x hx => ?_) fun s' hs' h => ?_).bindFact fun _ _ =>
      passes_verify s
    · exact Index.isShallow_mono (Index.isShallow_inner (hdeep hd) hx) (by omega)
    · exact ih (by omega) h fun hd => Index.isShallow_inner (hdeep hd) hs'

end Inner

theorem passes_block (deep : Prop) {x root : Id} {k a s : Nat} (h : Canonical ix t x k root a s)
    (hs : s < 0x100000000) (hdeep : ¬ deep → ix.isShallow Quantity.maxTypeDepth root)
    (storage : StorageClass) :
    Passes ix t deep (block ix t root storage (some ⟨.uniform, .standard⟩)) fun _ => True := by
  cases hk : t.blockKind? root with
  | none =>
    simp only [block, blockBy, hk]
    exact triple_pure fun _ hw => ⟨hw, trivial⟩
  | some kind =>
    simp only [block, blockBy, hk]
    refine (passes_explicit h hs hdeep kind).bindFact fun _ _ => ?_
    refine passes_walk rfl _ (Nat.le_refl _) ⟨_, _, _, _, h, ?_, ?_⟩ hdeep
    · exact Nat.dvd_zero a
    · simpa using hs

/-- A block laid out canonically, of a size that a word holds, is accepted under standard uniform
rules, unless it has a type that is nested too deep. There is none where no chain of types has more
of them than there are levels, a struct counting as two. -/
theorem checkBlock_canonical {x root : Id} {k a s : Nat} (h : Canonical ix t x k root a s)
    (hs : s < 0x100000000) (storage : StorageClass) :
    (checkBlock ix t root storage (some ⟨.uniform, .standard⟩) = .ok () ∨
      ∃ id, checkBlock ix t root storage (some ⟨.uniform, .standard⟩) = .error (.tooDeep id)) ∧
    (ix.isShallow Quantity.maxTypeDepth root →
      checkBlock ix t root storage (some ⟨.uniform, .standard⟩) = .ok ()) := by
  constructor
  · rcases (passes_block True h hs (by simp) storage).outcome (Walker.faithful_empty ix t) with
      ⟨_, w, hrun, _⟩ | ⟨_, w, hrun, _, id, rfl⟩
    · exact .inl (congrArg Prod.fst hrun)
    · exact .inr ⟨id, congrArg Prod.fst hrun⟩
  · intro hshallow
    rcases (passes_block False h hs (fun _ => hshallow) storage).outcome
        (Walker.faithful_empty ix t) with ⟨_, w, hrun, _⟩ | ⟨_, _, _, hfalse, _⟩
    · exact congrArg Prod.fst hrun
    · exact hfalse.elim

def canonicalBlock : Module where
  annotations := [.decorating 8 .block [], .decorating 7 .arrayStride [.literal 64],
    .placing 6 0 0, .placing 6 1 12, .placing 6 2 16, .placing 8 0 0, .placing 8 1 16,
    .placing 8 2 48, .placing 8 3 176] ++
    [(6, 2, .rowMajor, []), (6, 2, .matrixStride, [.literal 16]), (8, 1, .colMajor, []),
      (8, 1, .matrixStride, [.literal 16])].map fun (struct, member, kind, params) =>
        ⟨.opMemberDecorate, none, none, [.id struct, .literal member, .decoration kind] ++ params⟩
  globals := [.declaring .opTypeFloat 1 [.literal 32],
    .declaring .opTypeVector 2 [.id 1, .literal 3],
    .declaring .opTypeMatrix 3 [.id 2, .literal 2],
    .declaring .opTypeInt 4 [.literal 32, .literal 0],
    ⟨.opConstant, some 4, some 5, [.literal 2]⟩,
    .declaring .opTypeStruct 6 [.id 2, .id 1, .id 3],
    .declaring .opTypeArray 7 [.id 6, .id 5],
    .declaring .opTypeStruct 8 [.id 1, .id 3, .id 7, .id 1]]

def spans (l : List Span) (j : Nat) : Span := l.getD j ⟨0, 1, 0⟩

def innerSpans : List Span := [⟨0, 16, 12⟩, ⟨12, 4, 4⟩, ⟨16, 16, 40⟩]

def outerSpans : List Span := [⟨0, 4, 4⟩, ⟨16, 16, 32⟩, ⟨48, 16, 120⟩, ⟨176, 4, 4⟩]

theorem checkBlock_canonicalBlock :
    ∃ ix t, Index.ofModule canonicalBlock = .ok ix ∧ Table.ofIndex ix = .ok t ∧
      (t.blockKind? 8).isSome ∧ Canonical ix t 0 0 8 16 180 ∧
      checkBlock ix t 8 .uniform (some ⟨.uniform, .standard⟩) = .ok () := by
  have hrun : (canonicalBlock.context {}).toOption.any (fun ⟨ix, t, _⟩ =>
      decide (((t.blockKind? 8).isSome ∧ ix.isShallow Quantity.maxTypeDepth 8) ∧
        (ix.type? 1 = some (.float 32) ∧ ix.type? 2 = some (.vector 1 3) ∧
          ix.type? 3 = some (.matrix 2 2) ∧ ix.type? 6 = some (.struct [.id 2, .id 1, .id 3]) ∧
          ix.type? 7 = some (.array 6 5) ∧
          ix.type? 8 = some (.struct [.id 1, .id 3, .id 7, .id 1])) ∧
        (ix.members 6 = [2, 1, 3] ∧ ix.members 8 = [1, 3, 7, 1]) ∧
        (ix.integer? 5 = some 2 ∧ t.literal? 7 .arrayStride = some 64) ∧
        (t.Stores 6 2 true 16 ∧ t.Stores 8 1 false 16) ∧
        Consecutive ix t 6 (spans innerSpans) ∧ Consecutive ix t 8 (spans outerSpans))) = true := by
    decide +kernel
  obtain ⟨cx, hcx, hq⟩ := exists_of_any hrun
  obtain ⟨ix, t, hix, ht, rfl⟩ := Module.context_eq_ok.1 hcx
  obtain ⟨⟨hk, hshallow⟩, ⟨h1, h2, h3, h6, h7, h8⟩, ⟨hm6, hm8⟩, ⟨hn, hl⟩, ⟨hs6, hs8⟩, hp6, hp8⟩ :=
    of_decide_eq_true hq
  have number : ix.Number 1 4 := ⟨_, _, h1, rfl, by decide, rfl⟩
  have vector : ix.ShortVector 2 4 3 := ⟨1, h2, by decide, number⟩
  have struct : Canonical ix t 8 2 6 16 56 := by
    refine .of_members (p := spans innerSpans) h6 hm6 (by decide) (by decide) hp6 fun j m hm => ?_
    match j with
    | 0 => cases hm; exact .vector vector
    | 1 => cases hm; exact .number number
    | 2 => cases hm; exact .matrix h3 (by decide) vector hs6
  have array : Canonical ix t 8 2 7 16 120 := .array h7 hn (by decide) hl (by decide) struct
  have root : Canonical ix t 0 0 8 16 180 := by
    refine .of_members (p := spans outerSpans) h8 hm8 (by decide) (by decide) hp8 fun j m hm => ?_
    match j with
    | 0 => cases hm; exact .number number
    | 1 => cases hm; exact .matrix h3 (by decide) vector hs8
    | 2 => cases hm; exact array
    | 3 => cases hm; exact .number number
  exact ⟨ix, t, hix, ht, hk, root, (checkBlock_canonical root (by decide) .uniform).2 hshallow⟩

/-- A block with `n` arrays one in the other, all of one element, around a number. -/
def tower (n : Nat) : Module where
  annotations := [.decorating (UInt32.ofNat (n + 4)) .block [],
    .placing (UInt32.ofNat (n + 4)) 0 0] ++
    (List.range n).map fun j => .decorating (UInt32.ofNat (j + 4)) .arrayStride [.literal 16]
  globals := [.declaring .opTypeInt 1 [.literal 32, .literal 0],
    ⟨.opConstant, some 1, some 2, [.literal 1]⟩, .declaring .opTypeFloat 3 [.literal 32]] ++
    ((List.range n).map fun j =>
      .declaring .opTypeArray (UInt32.ofNat (j + 4)) [.id (UInt32.ofNat (j + 3)), .id 2]) ++
    [.declaring .opTypeStruct (UInt32.ofNat (n + 4)) [.id (UInt32.ofNat (n + 3))]]

/-- The types of a tower are nested one deeper than is looked at. -/
theorem checkBlock_tower :
    ∃ ix t, Index.ofModule (tower 512) = .ok ix ∧ Table.ofIndex ix = .ok t ∧
      (t.blockKind? 516).isSome ∧ Canonical ix t 0 0 516 16 4 ∧
      checkBlock ix t 516 .uniform (some ⟨.uniform, .standard⟩) = .error (.tooDeep 4) := by
  have hrun : ((tower 512).context {}).toOption.any (fun ⟨ix, t, _⟩ =>
      decide (((t.blockKind? 516).isSome ∧
        checkBlock ix t 516 .uniform (some ⟨.uniform, .standard⟩) = .error (.tooDeep 4)) ∧
        (ix.type? 516 = some (.struct [.id 515]) ∧ ix.members 516 = [515] ∧
          Consecutive ix t 516 fun _ => ⟨0, 16, 4⟩) ∧
        ix.type? 3 = some (.float 32) ∧ ix.integer? 2 = some 1 ∧
        ∀ j ∈ List.range 512,
          ix.type? (UInt32.ofNat (j + 4)) = some (.array (UInt32.ofNat (j + 3)) 2) ∧
          t.literal? (UInt32.ofNat (j + 4)) .arrayStride = some 16)) = true := by
    decide +kernel
  obtain ⟨cx, hcx, hq⟩ := exists_of_any hrun
  obtain ⟨ix, t, hix, ht, rfl⟩ := Module.context_eq_ok.1 hcx
  obtain ⟨⟨hk, hdeep⟩, ⟨hv, hm, hp⟩, hnumber, hn, harrays⟩ := of_decide_eq_true hq
  have number : ix.Number 3 4 := ⟨_, _, hnumber, rfl, by decide, rfl⟩
  have storeys : ∀ j < 512, Canonical ix t 516 0 (UInt32.ofNat (j + 4)) 16 4 := by
    intro j hj
    obtain ⟨harray, hstride⟩ := harrays j (List.mem_range.2 hj)
    induction j with
    | zero => exact .array harray hn (by decide) hstride (by decide) (.number number)
    | succ j ih =>
      obtain ⟨harray', hstride'⟩ := harrays j (List.mem_range.2 (by omega))
      exact .array harray hn (by decide) hstride (by decide) (ih (by omega) harray' hstride')
  have root : Canonical ix t 0 0 516 16 4 := by
    refine .of_members hv hm (by decide) (by decide) hp fun j m hj => ?_
    match j with
    | 0 => cases hj; exact storeys 511 (by decide)
  exact ⟨ix, t, hix, ht, hk, root, hdeep⟩

end Walk

end SpirvRules
