import SpirvRules.Proofs.Index.Arrays
import SpirvRules.Proofs.Layout.Clearance
import SpirvRules.Proofs.Layout.Leaves

/-!
# What a block lacks

The checks that come before the walk look at each type once, so what they say of the types they pass
by rests on what is known by then. The known types are closed under going inwards, and so the checks
find something lacking exactly when something in the block lacks it. The walk itself then finds an
offset wherever it looks for one.
-/

set_option autoImplicit false

namespace SpirvRules

open Outcome Stateful

/-- A member of a struct is a matrix, or an array of them of whatever level. -/
def Index.HoldsMatrix (ix : Index) (struct : Id) (member : Nat) : Prop :=
  ∃ m x column n, (ix.members struct)[member]? = some m ∧ ix.Strips m x ∧
    ix.type? x = some (.matrix column n)

section Reaches

variable {ix : Index} {root x y : Id}

theorem Index.reaches_of_strips (h : ix.Strips x y) : ix.Reaches x y :=
  Relation.ReflTransGen.mono (fun _ _ he => Explicit.mem_inner_iff.2 (.inl he)) _ _ h

theorem Index.reaches_of_member {struct m : Id} {k : Nat} (h : ix.Reaches root struct)
    (hm : (ix.members struct)[k]? = some m) (hx : ix.Strips m x) : ix.Reaches root x :=
  (h.tail (Explicit.mem_inner_iff.2 (.inr (List.mem_of_getElem? hm)))).trans (reaches_of_strips hx)

theorem Index.isMatrix_iff :
    (ix.type? x).any TypeView.isMatrix ↔ ∃ column n, ix.type? x = some (.matrix column n) := by
  cases ix.type? x with
  | none => simp
  | some v => cases v <;> simp [TypeView.isMatrix]

theorem Index.not_isMatrix_of_element (h : ix.element? x = some y) :
    ¬ (ix.type? x).any TypeView.isMatrix := by
  rcases element?_eq_some_iff.1 h with ⟨length, hv⟩ | hv
  · simp [hv, TypeView.isMatrix]
  · simp [hv, TypeView.isMatrix]

/-- Whatever a struct reaches is the struct or stands in a member of a struct, given that the
structs in the members of those counted are counted too. -/
theorem Index.held_of_reaches {K : Id → Prop} (hroot : K root)
    (hstruct : (ix.type? root).any TypeView.isStruct)
    (hK : ∀ (s : Id) (k : Nat) (m x : Id), K s → (ix.members s)[k]? = some m → ix.Strips m x →
      (ix.type? x).any TypeView.isStruct → K x) (h : ix.Reaches root x) :
    x = root ∨
      ∃ (s : Id) (k : Nat) (m : Id), K s ∧ (ix.members s)[k]? = some m ∧ ix.Strips m x := by
  induction h with
  | refl => exact .inl rfl
  | @tail x y _ hy ih =>
    refine .inr ?_
    rcases Explicit.mem_inner_iff.1 hy with he | hm
    · rcases ih with rfl | ⟨s, k, m, hs, hk, hx⟩
      · obtain ⟨ms, hv⟩ := Index.isStruct_iff.1 hstruct
        simp [Index.element?_struct hv] at he
      · exact ⟨s, k, m, hs, hk, hx.tail he⟩
    · obtain ⟨k, hk, rfl⟩ := List.getElem_of_mem hm
      have hx : K x := by
        rcases ih with rfl | ⟨s, k, m, hs, hk, hx⟩
        · exact hroot
        · exact hK s k m x hs hk hx (Index.isStruct_of_members_ne_nil (List.ne_nil_of_mem hm))
      exact ⟨x, k, _, hx, List.getElem?_eq_getElem hk, .refl⟩

end Reaches

namespace Explicit

/-! ### What a check learns -/

/-- What stays true however much more becomes known. -/
def Stable (S : Std.TreeSet Id → Prop) : Prop :=
  ∀ known more, (∀ x ∈ known, x ∈ more) → S known → S more

theorem stable_mem (id : Id) : Stable (id ∈ ·) := fun _ _ hm hk => hm id hk

/-- A check keeps the invariant of what is known and all that is stable, and ends with `Q`. It finds
something lacking only if `lack` holds. -/
def Learns (inv : Std.TreeSet Id → Prop) (lack : Prop) (c : Check Unit)
    (Q : Std.TreeSet Id → Prop) : Prop :=
  ∀ S, Stable S → Triple (fun known => inv known ∧ S known) c
    (fun _ known => (inv known ∧ S known) ∧ Q known) fun f _ => f = .lacking → lack

section Learns

variable {inv Q R : Std.TreeSet Id → Prop} {lack : Prop} {α : Type} {c d : Check Unit} {id : Id}

theorem learns_pure (h : ∀ known, Q known) : Learns inv lack (pure ()) Q :=
  fun _ _ => triple_pure fun known hk => ⟨hk, h known⟩

theorem learns_lacking (h : lack) : Learns inv lack (throw .lacking) Q :=
  fun _ _ => triple_throw fun _ _ _ => h

theorem learns_tooDeep : Learns inv lack (throw (.tooDeep id)) Q :=
  fun _ _ => triple_throw fun _ _ => nofun

theorem Learns.mono (hc : Learns inv lack c Q) (h : ∀ known, Q known → R known) :
    Learns inv lack c R :=
  fun S hS => Triple.mono (hc S hS) (fun _ => id) (fun _ known => And.imp_right (h known))
    fun _ _ => id

theorem Learns.bind (hc : Learns inv lack c Q) (hQ : Stable Q) (hd : Learns inv lack d R) :
    Learns inv lack (c >>= fun _ => d) fun known => Q known ∧ R known := by
  intro S hS
  have hboth : Stable fun known => S known ∧ Q known :=
    fun known more hm => And.imp (hS known more hm) (hQ known more hm)
  refine Triple.bind (hc S hS) fun _ => (hd _ hboth).mono (fun _ h => ⟨h.1.1, h.1.2, h.2⟩)
    (fun _ _ h => ?_) fun _ _ => id
  obtain ⟨⟨hi, hs, hq⟩, hr⟩ := h
  exact ⟨⟨hi, hs⟩, hq, hr⟩

theorem learns_forM {l : List α} {f : α → Check Unit} {P : α → Std.TreeSet Id → Prop}
    (hP : ∀ a, Stable (P a)) (h : ∀ a ∈ l, Learns inv lack (f a) (P a)) :
    Learns inv lack (l.forM f) fun known => ∀ a ∈ l, P a known := by
  induction l with
  | nil => exact learns_pure (by simp)
  | cons a l ih =>
    refine ((h a (by simp)).bind (hP a) (ih fun b hb => h b (by simp [hb]))).mono fun known hk => ?_
    exact List.forall_mem_cons.2 hk

/-- A type is learnt once enough is known for the invariant to hold of it too. -/
theorem Learns.learn (hc : Learns inv lack c Q)
    (hi : ∀ known, inv known → Q known → inv (known.insert id)) :
    Learns inv lack (c >>= fun _ => learn id) (id ∈ ·) := by
  intro S hS
  refine Triple.bind (hc S hS) fun _ => triple_modify fun known h => ⟨⟨hi known h.1.1 h.2, ?_⟩, ?_⟩
  · exact hS known _ (fun _ hx => Std.TreeSet.mem_insert.2 (.inr hx)) h.1.2
  · exact Std.TreeSet.mem_insert_self

theorem learns_unlessKnown (hc : Learns inv lack c Q) (hq : ∀ known, id ∈ known → Q known) :
    Learns inv lack (unlessKnown id c) Q :=
  fun S hS => triple_unlessKnown (fun known hk hid => ⟨hk, hq known hid⟩) (hc S hS)

theorem Learns.outcome (hc : Learns inv lack c Q) (hi : inv ∅) {v : Bool}
    (h : outcome c = .ok v) : (v = true → lack) ∧ (v = false → ∃ known, inv known ∧ Q known) := by
  have hends := hc (fun _ => True) (fun _ _ _ => id) ∅ ⟨hi, trivial⟩
  rw [outcome_eq] at h
  generalize run c ∅ = r at h hends
  cases hends with
  | ok hq =>
    cases h
    exact ⟨nofun, fun _ => ⟨_, hq.1.1, hq.2⟩⟩
  | @error f _ hl =>
    cases f with
    | lacking =>
      cases h
      exact ⟨fun _ => hl rfl, nofun⟩
    | tooDeep id => cases h

end Learns

variable {ix : Index} {t : Table} {root x id : Id} {n : Nat}

/-! ### Offsets -/

def Lacks (ix : Index) (t : Table) (struct : Id) : Prop :=
  ∃ ms k, ix.type? struct = some (.struct ms) ∧ k < ms.length ∧ t.usableOffset? struct k = none

theorem lacksOffset_iff {ms : List Operand} (hv : ix.type? id = some (.struct ms)) :
    lacksOffset t id ms = true ↔ Lacks ix t id := by
  simp only [lacksOffset, List.any_eq_true, List.mem_range, Option.isNone_iff_eq_none, Lacks]
  constructor
  · rintro ⟨k, hk, ho⟩
    exact ⟨ms, k, hv, hk, ho⟩
  · rintro ⟨ms', k, hv', hk, ho⟩
    cases hv.symm.trans hv'
    exact ⟨k, hk, ho⟩

def Closed (ix : Index) (t : Table) (known : Std.TreeSet Id) : Prop :=
  ∀ x ∈ known, ¬ Lacks ix t x ∧ ∀ y ∈ inner ix x, y ∈ known

theorem Closed.insert {known : Std.TreeSet Id} (h : Closed ix t known) (hid : ¬ Lacks ix t id)
    (hinner : ∀ y ∈ inner ix id, y ∈ known) : Closed ix t (known.insert id) := by
  intro x hx
  rcases Std.TreeSet.mem_insert.1 hx with heq | hx
  · cases Std.LawfulEqOrd.eq_of_compare heq
    exact ⟨hid, fun y hy => Std.TreeSet.mem_insert.2 (.inr (hinner y hy))⟩
  · exact ⟨(h x hx).1, fun y hy => Std.TreeSet.mem_insert.2 (.inr ((h x hx).2 y hy))⟩

theorem Closed.not_lacks {known : Std.TreeSet Id} (h : Closed ix t known) (hroot : root ∈ known)
    (hx : ix.Reaches root x) : ¬ Lacks ix t x := by
  have hmem : x ∈ known := by
    induction hx with
    | refl => exact hroot
    | tail _ hy ih => exact (h _ ih).2 _ hy
  exact (h x hmem).1

abbrev LacksBelow (ix : Index) (t : Table) (root : Id) : Prop :=
  ∃ s, ix.Reaches root s ∧ Lacks ix t s

theorem learns_offsets (n : Nat) (h : ix.Reaches root x) :
    Learns (Closed ix t) (LacksBelow ix t root) (offsets ix t n x) (x ∈ ·) := by
  -- on the depth left; a type is learnt after all it is made of, so the known ones stay closed
  induction n generalizing x with
  | zero => exact learns_unlessKnown learns_tooDeep fun _ hx => hx
  | succ n ih =>
    have inside : ¬ Lacks ix t x → Learns (Closed ix t) (LacksBelow ix t root)
        (((inner ix x).forM (offsets ix t n)) >>= fun _ => learn x) (x ∈ ·) := fun hl =>
      (learns_forM stable_mem fun y hy => ih (h.tail hy)).learn fun known hi hq => hi.insert hl hq
    refine learns_unlessKnown ?_ fun _ hx => hx
    split
    · next ms hv =>
      by_cases hl : lacksOffset t x ms
      · rw [if_pos hl]
        exact learns_lacking ⟨x, h, (lacksOffset_iff hv).1 hl⟩
      · rw [if_neg hl]
        exact inside fun hx => hl ((lacksOffset_iff hv).2 hx)
    · next hv => exact inside fun ⟨ms, _, hx, _⟩ => hv ms hx

theorem missesOffset_iff {v : Bool} (h : missesOffset ix t root = .ok v) :
    v = true ↔ LacksBelow ix t root := by
  obtain ⟨hlack, hknown⟩ :=
    (learns_offsets Quantity.maxTypeDepth Relation.ReflTransGen.refl).outcome (by simp [Closed]) h
  refine ⟨hlack, fun ⟨s, hs, hl⟩ => ?_⟩
  by_contra hv
  obtain ⟨known, hi, hroot⟩ := hknown (by simpa using hv)
  exact hi.not_lacks hroot hs hl

/-! ### Strides and majorness -/

variable {need : Need} {struct m : Id} {k : Nat} {known : Std.TreeSet Id}

def Wants (ix : Index) (t : Table) (need : Need) (struct : Id) (member : Nat) (x : Id) : Prop :=
  (need = .arrayStride ∧ (ix.element? x).isSome ∧ t.has x .arrayStride = false) ∨
    ((ix.type? x).any TypeView.isMatrix ∧ meets t need struct member = false)

/-- A member has all it needs but for the structs in it, and these are known. -/
def Served (ix : Index) (t : Table) (need : Need) (struct : Id) (member : Nat) (m : Id)
    (known : Std.TreeSet Id) : Prop :=
  ∀ x, ix.Strips m x → ¬ Wants ix t need struct member x ∧
    ((ix.type? x).any TypeView.isStruct → x ∈ known)

def Supplied (ix : Index) (t : Table) (need : Need) (known : Std.TreeSet Id) : Prop :=
  ∀ s ∈ known, ∀ k m, (ix.members s)[k]? = some m → Served ix t need s k m known

def WantsBelow (ix : Index) (t : Table) (need : Need) (root : Id) : Prop :=
  ∃ s k m x, ix.Reaches root s ∧ (ix.members s)[k]? = some m ∧ ix.Strips m x ∧
    Wants ix t need s k x

theorem stable_served : Stable (Served ix t need struct k m) :=
  fun _ _ hm h x hx => ⟨(h x hx).1, fun hs => hm x ((h x hx).2 hs)⟩

theorem served_of_not_array (he : ix.element? x = none)
    (hx : (ix.type? x).any TypeView.isMatrix → meets t need struct k)
    (hs : (ix.type? x).any TypeView.isStruct → x ∈ known) : Served ix t need struct k x known := by
  intro y hy
  rcases Relation.ReflTransGen.cases_head hy with rfl | ⟨z, hz, _⟩
  · refine ⟨?_, hs⟩
    rintro (⟨_, ha, _⟩ | ⟨hm, hf⟩)
    · simp [he] at ha
    · simp [hx hm] at hf
  · rw [he] at hz
    cases hz

theorem Served.of_element {e : Id} (h : Served ix t need struct k e known)
    (he : ix.element? x = some e) (hx : ¬ Wants ix t need struct k x) :
    Served ix t need struct k x known := by
  intro y hy
  rcases Relation.ReflTransGen.cases_head hy with rfl | ⟨z, hz, hzy⟩
  · refine ⟨hx, fun hs => ?_⟩
    obtain ⟨ms, hv⟩ := Index.isStruct_iff.1 hs
    simp [Index.element?_struct hv] at he
  · cases he.symm.trans hz
    exact h y hzy

theorem Supplied.insert (h : Supplied ix t need known)
    (hid : ∀ k m, (ix.members id)[k]? = some m → Served ix t need id k m known) :
    Supplied ix t need (known.insert id) := by
  have hsub : ∀ x ∈ known, x ∈ known.insert id := fun x hx => Std.TreeSet.mem_insert.2 (.inr hx)
  intro s hs k m hm
  rcases Std.TreeSet.mem_insert.1 hs with heq | hs
  · cases Std.LawfulEqOrd.eq_of_compare heq
    exact stable_served _ _ hsub (hid k m hm)
  · exact stable_served _ _ hsub (h s hs k m hm)

theorem Supplied.not_wants (h : Supplied ix t need known)
    (hstruct : (ix.type? root).any TypeView.isStruct) (hroot : root ∈ known) :
    ¬ WantsBelow ix t need root := by
  have hK : ∀ (s : Id) (k : Nat) (m x : Id), s ∈ known → (ix.members s)[k]? = some m →
      ix.Strips m x → (ix.type? x).any TypeView.isStruct → x ∈ known :=
    fun s k m x hs hm hx hv => (h s hs k m hm x hx).2 hv
  rintro ⟨s, k, m, x, hs, hm, hx, hw⟩
  have hmem : s ∈ known := by
    -- arrays are not learnt, so what is known is followed from struct to struct
    rcases Index.held_of_reaches (K := (· ∈ known)) hroot hstruct hK hs with
      rfl | ⟨s', k', m', hs', hm', hx'⟩
    · exact hroot
    · exact hK s' k' m' s hs' hm' hx' (Index.isStruct_of_members_ne_nil
        (List.ne_nil_of_mem (List.mem_of_getElem? hm)))
  exact (h s hmem k m hm x hx).1 hw

def Below (ix : Index) (root : Id) : Place → Prop
  | .struct id => ix.Reaches root id
  | .member s k x => ix.Reaches root s ∧ ∃ m, (ix.members s)[k]? = some m ∧ ix.Strips m x

def Lesson (ix : Index) (t : Table) (need : Need) (known : Std.TreeSet Id) : Place → Prop
  | .struct id => (ix.type? id).any TypeView.isStruct → id ∈ known
  | .member s k x => Served ix t need s k x known

theorem learns_needs_struct (n : Nat) (h : ix.Reaches root x)
    (ih : ∀ {l}, Below ix root l → Learns (Supplied ix t need) (WantsBelow ix t need root)
      (needs ix t need n l) (Lesson ix t need · l)) :
    Learns (Supplied ix t need) (WantsBelow ix t need root) (needs ix t need (n + 1) (.struct x))
      (Lesson ix t need · (.struct x)) := by
  refine learns_unlessKnown ?_ fun _ hx _ => hx
  split
  · next ms hv =>
    rw [← Index.members_eq hv]
    have hmembers : Learns (Supplied ix t need) (WantsBelow ix t need root) _
        fun known => ∀ p ∈ (ix.members x).zipIdx, Served ix t need x p.2 p.1 known :=
      learns_forM (fun _ => stable_served) fun p hp =>
        ih (l := .member x p.2 p.1) ⟨h, p.1, List.mk_mem_zipIdx_iff_getElem?.1 hp, .refl⟩
    refine (hmembers.learn fun known hi hq => hi.insert fun k m hm => ?_).mono fun _ hx _ => hx
    exact hq (m, k) (List.mk_mem_zipIdx_iff_getElem?.2 hm)
  · next hv =>
    refine learns_pure fun _ hs => ?_
    obtain ⟨ms, hv'⟩ := Index.isStruct_iff.1 hs
    exact absurd hv' (hv ms)

theorem learns_needs_element (n : Nat) {e : Id} (h : Below ix root (.member struct k x))
    (he : ix.element? x = some e)
    (ih : ∀ {l}, Below ix root l → Learns (Supplied ix t need) (WantsBelow ix t need root)
      (needs ix t need n l) (Lesson ix t need · l)) :
    Learns (Supplied ix t need) (WantsBelow ix t need root) (do
      if need = .arrayStride ∧ !t.has x .arrayStride then throw .lacking
      needs ix t need n (.member struct k e)) (Lesson ix t need · (.member struct k x)) := by
  obtain ⟨hs, m, hm, hx⟩ := h
  by_cases hw : need = .arrayStride ∧ !t.has x .arrayStride
  · rw [if_pos hw]
    exact learns_lacking
      ⟨struct, k, m, x, hs, hm, hx, .inl ⟨hw.1, by simp [he], by simpa using hw.2⟩⟩
  · rw [if_neg hw]
    refine (ih (l := .member struct k e) ⟨hs, m, hm, hx.tail he⟩).mono fun _ hk => ?_
    refine Served.of_element hk he ?_
    rintro (⟨hn, _, hf⟩ | ⟨hv, _⟩)
    · exact hw ⟨hn, by simp [hf]⟩
    · exact absurd hv (Index.not_isMatrix_of_element he)

theorem learns_needs_member (n : Nat) (h : Below ix root (.member struct k x))
    (ih : ∀ {l}, Below ix root l → Learns (Supplied ix t need) (WantsBelow ix t need root)
      (needs ix t need n l) (Lesson ix t need · l)) :
    Learns (Supplied ix t need) (WantsBelow ix t need root)
      (needs ix t need (n + 1) (.member struct k x)) (Lesson ix t need · (.member struct k x)) := by
  obtain ⟨hs, m, hm, hx⟩ := h
  simp only [needs]
  split
  · next e _ hv => exact learns_needs_element n ⟨hs, m, hm, hx⟩ (Index.element?_array hv) ih
  · next e hv => exact learns_needs_element n ⟨hs, m, hm, hx⟩ (Index.element?_runtimeArray hv) ih
  · next hv =>
    by_cases hmeets : meets t need struct k
    · rw [if_pos hmeets]
      have he : ix.element? x = none := by simp [Index.element?, hv, TypeView.element?]
      exact learns_pure fun _ =>
        served_of_not_array he (fun _ => hmeets) (by simp [hv, TypeView.isStruct])
    · rw [if_neg hmeets]
      have hmatrix : (ix.type? x).any TypeView.isMatrix := by simp [hv, TypeView.isMatrix]
      exact learns_lacking ⟨struct, k, m, x, hs, hm, hx, .inr ⟨hmatrix, by simpa using hmeets⟩⟩
  · next ms hv =>
    refine (ih (l := .struct x) (Index.reaches_of_member hs hm hx)).mono fun _ hk => ?_
    exact served_of_not_array (Index.element?_struct hv) (by simp [hv, TypeView.isMatrix]) hk
  · next harray hruntime hmatrix hstruct =>
    have he : ix.element? x = none := by
      apply Option.eq_none_iff_forall_ne_some.2
      intro e he
      rcases Index.element?_eq_some_iff.1 he with ⟨length, hv⟩ | hv
      · exact harray e length hv
      · exact hruntime e hv
    refine learns_pure fun _ => served_of_not_array he (fun h => ?_) fun h => ?_
    · obtain ⟨column, count, hv⟩ := Index.isMatrix_iff.1 h
      exact absurd hv (hmatrix column count)
    · obtain ⟨ms, hv⟩ := Index.isStruct_iff.1 h
      exact absurd hv (hstruct ms)

theorem learns_needs (n : Nat) {l : Place} (h : Below ix root l) :
    Learns (Supplied ix t need) (WantsBelow ix t need root) (needs ix t need n l)
      (Lesson ix t need · l) := by
  induction n generalizing l with
  | zero =>
    cases l with
    | struct id => exact learns_unlessKnown learns_tooDeep fun _ hid _ => hid
    | member s k x => exact learns_tooDeep
  | succ n ih =>
    cases l with
    | struct id => exact learns_needs_struct n h ih
    | member s k x => exact learns_needs_member n h ih

theorem misses_iff {v : Bool} (hstruct : (ix.type? root).any TypeView.isStruct)
    (h : misses ix t need root = .ok v) : v = true ↔ WantsBelow ix t need root := by
  obtain ⟨hlack, hknown⟩ := (learns_needs (l := .struct root) Quantity.maxTypeDepth
    Relation.ReflTransGen.refl).outcome (by simp [Supplied]) h
  refine ⟨hlack, fun hw => ?_⟩
  by_contra hv
  obtain ⟨known, hi, hroot⟩ := hknown (by simpa using hv)
  exact hi.not_wants hstruct (hroot hstruct) hw

theorem not_wantsBelow_stride (hstruct : (ix.type? root).any TypeView.isStruct) :
    ¬ WantsBelow ix t .arrayStride root ↔
      ∀ x e, ix.Reaches root x → ix.element? x = some e → t.has x .arrayStride := by
  constructor
  · intro h x e hx he
    have hheld := Index.held_of_reaches (K := fun s => ix.Reaches root s) .refl hstruct
      (fun s k m y hs hm hy _ => Index.reaches_of_member hs hm hy) hx
    rcases hheld with rfl | ⟨s, k, m, hs, hm, hmx⟩
    · obtain ⟨ms, hv⟩ := Index.isStruct_iff.1 hstruct
      simp [Index.element?_struct hv] at he
    · by_contra hhas
      exact h ⟨s, k, m, x, hs, hm, hmx, .inl ⟨rfl, by simp [he], by simpa using hhas⟩⟩
  · rintro h ⟨s, k, m, x, hs, hm, hx, ⟨_, ha, hf⟩ | ⟨_, hf⟩⟩
    · obtain ⟨e, he⟩ := Option.isSome_iff_exists.1 ha
      rw [h x e (Index.reaches_of_member hs hm hx) he] at hf
      cases hf
    · cases hf

theorem not_wantsBelow_matrix (hn : need ≠ .arrayStride) :
    ¬ WantsBelow ix t need root ↔
      ∀ s k, ix.Reaches root s → ix.HoldsMatrix s k → meets t need s k := by
  constructor
  · rintro h s k hs ⟨m, x, col, n, hm, hx, hv⟩
    by_contra hmeets
    refine h ⟨s, k, m, x, hs, hm, hx, .inr ⟨?_, by simpa using hmeets⟩⟩
    simp [hv, TypeView.isMatrix]
  · rintro h ⟨s, k, m, x, hs, hm, hx, ⟨rfl, _⟩ | ⟨hv, hf⟩⟩
    · exact hn rfl
    · obtain ⟨column, n, hv⟩ := Index.isMatrix_iff.1 hv
      rw [h s k hs ⟨m, x, column, n, hm, hx, hv⟩] at hf
      cases hf

end Explicit

namespace Walk

/-! ### Offsets are found -/

variable {ix : Index} {t : Table} {u : BlockUse} {α β : Type} {root : Id}

def Elsewhere (f : LayoutFault) : Prop := ∀ u struct member, f ≠ .slot u struct member .noOffset

theorem elsewhere_slot (struct : Id) (member : Nat) (f : SlotFault) (hf : f ≠ .noOffset) :
    Elsewhere (.slot u struct member f) := by
  intro u' s k h
  cases h
  exact hf rfl

theorem elsewhere_measurable (type : Id) :
    Measurable ix t (fun _ => True) (fun f _ => Elsewhere f) type :=
  fun _ _ => triple_measure (triple_true (P := fun _ => True)) (fun _ _ => trivial)
    (fun _ _ _ _ _ => trivial) fun _ _ _ _ _ _ _ _ => nofun

theorem failsBy_walk (hroot : ¬ Explicit.LacksBelow ix t root) (n : Nat) {s : Site}
    (hs : ix.Reaches root s.type) : FailsBy Elsewhere (walk ix t u n s) := by
  induction n generalizing s with
  | zero =>
    refine triple_unlessVerified (fun _ hw _ => hw) ?_
    split
    · exact invariant_pure ()
    · exact triple_throw fun _ _ _ _ _ => nofun
  | succ n ih =>
    refine triple_unlessVerified (fun _ hw _ => hw)
      (Triple.bind (Q := fun _ _ => True) ?_ fun _ =>
        triple_verify (fun _ _ _ _ => trivial) fun _ _ _ => trivial)
    refine invariant_within (steady_of_faults elsewhere_slot)
      (fun x hx => ⟨elsewhere_measurable x, fun s' hs' => ih (hs' ▸ hs.tail hx)⟩) fun k hk ho => ?_
    have hne : ix.members s.type ≠ [] := List.ne_nil_of_length_pos (Nat.zero_lt_of_lt hk)
    obtain ⟨ms, hv⟩ := Index.isStruct_iff.1 (Index.isStruct_of_members_ne_nil hne)
    rw [Index.members_eq hv] at hk
    have hlt : k < ms.length := Nat.lt_of_lt_of_le hk (List.length_filterMap_le _ _)
    exact absurd ⟨s.type, hs, ms, k, hv, hlt, ho⟩ hroot

/-- The walk comes after the checks, so it finds an offset wherever it looks for one. -/
theorem failsBy_block (storage : StorageClass) (policy : Option LayoutPolicy) :
    FailsBy Elsewhere (block ix t root storage policy) := by
  unfold block blockBy
  split
  · refine failsBy_explicit (fun _ _ _ => nofun) (fun _ _ _ _ => nofun) (fun _ _ _ _ _ => nofun)
      (fun _ _ _ _ _ _ => nofun) fun hmiss => failsBy_walk (fun hl => ?_) _ .refl
    have htrue := (Explicit.missesOffset_iff hmiss).2 hl
    cases htrue
  · exact invariant_pure ()

end Walk

namespace Explicit

/-- The checks before the walk tell exactly what a block lacks, at whatever depth: offsets, strides
of arrays, and the strides and majorness of matrices. So the walk never misses an offset. -/
theorem lacking_iff_reaches (ix : Index) (t : Table) (root : Id) :
    (∀ v, missesOffset ix t root = .ok v → (v = true ↔ ∃ s ms k, ix.Reaches root s ∧
      ix.type? s = some (.struct ms) ∧ k < ms.length ∧ t.usableOffset? s k = none)) ∧
    ((ix.type? root).any TypeView.isStruct →
      (∀ v, misses ix t .arrayStride root = .ok v → (v = false ↔
        ∀ x e, ix.Reaches root x → ix.element? x = some e → t.has x .arrayStride)) ∧
      (∀ v, misses ix t .matrixStride root = .ok v → (v = false ↔
        ∀ s k, ix.Reaches root s → ix.HoldsMatrix s k → t.memberHas s k .matrixStride)) ∧
      (∀ v, misses ix t .majorness root = .ok v → (v = false ↔
        ∀ s k, ix.Reaches root s → ix.HoldsMatrix s k →
          t.memberHas s k .rowMajor ∨ t.memberHas s k .colMajor))) ∧
    ∀ storage policy w u struct member,
      (run (Walk.block ix t root storage policy) w).1 ≠
        .error (.slot u struct member .noOffset) := by
  refine ⟨fun v h => ?_, fun hstruct => ⟨fun v h => ?_, fun v h => ?_, fun v h => ?_⟩, ?_⟩
  · rw [missesOffset_iff h]
    constructor
    · rintro ⟨s, hs, ms, k, hl⟩
      exact ⟨s, ms, k, hs, hl⟩
    · rintro ⟨s, ms, k, hs, hl⟩
      exact ⟨s, hs, ms, k, hl⟩
  · rw [← not_wantsBelow_stride hstruct, ← misses_iff hstruct h, Bool.not_eq_true]
  · rw [← Bool.not_eq_true, misses_iff hstruct h, not_wantsBelow_matrix (by decide)]
    rfl
  · rw [← Bool.not_eq_true, misses_iff hstruct h, not_wantsBelow_matrix (by decide)]
    simp only [meets, Bool.or_eq_true]
  · intro storage policy w u struct member h
    exact (Walk.failsBy_block storage policy).error trivial (Prod.ext h rfl) u struct member rfl

/-- A block with a struct that is a member and an element as well, which has a matrix in an array
and says its stride but not its majorness. -/
def vagueBlock : Module where
  annotations := [.decorating 6 .block [], .placing 6 0 0, .placing 6 1 64, .placing 5 0 0,
    .decorating 4 .arrayStride [.literal 32], .decorating 7 .arrayStride [.literal 64],
    ⟨.opMemberDecorate, none, none, [.id 5, .literal 0, .decoration .matrixStride, .literal 16]⟩]
  globals := [.declaring .opTypeFloat 1 [.literal 32],
    .declaring .opTypeVector 2 [.id 1, .literal 4], .declaring .opTypeMatrix 3 [.id 2, .literal 2],
    .declaring .opTypeRuntimeArray 4 [.id 3], .declaring .opTypeStruct 5 [.id 4],
    .declaring .opTypeRuntimeArray 7 [.id 5], .declaring .opTypeStruct 6 [.id 5, .id 7]]

theorem lacking_vagueBlock :
    ∃ cx, vagueBlock.context {} = .ok cx ∧
      (∀ s k, cx.index.Reaches 6 s → cx.index.HoldsMatrix s k →
        cx.table.memberHas s k .matrixStride) ∧
      ∃ s k, cx.index.Reaches 6 s ∧ cx.index.HoldsMatrix s k ∧
        ¬ cx.table.memberHas s k .rowMajor ∧ ¬ cx.table.memberHas s k .colMajor := by
  have hrun : (vagueBlock.context {}).toOption.any (fun ⟨ix, t, _⟩ =>
      decide ((ix.type? 6).any TypeView.isStruct ∧
        misses ix t .matrixStride 6 = .ok false ∧ misses ix t .majorness 6 = .ok true)) = true := by
    decide +kernel
  obtain ⟨cx, hcx, hq⟩ := exists_of_any hrun
  obtain ⟨hstruct, hstride, hmajor⟩ := of_decide_eq_true hq
  obtain ⟨_, hneeds, _⟩ := lacking_iff_reaches cx.index cx.table 6
  obtain ⟨_, hstrides, hmajors⟩ := hneeds hstruct
  have hvague := (hmajors true hmajor).not.1 nofun
  push Not at hvague
  obtain ⟨s, k, hs, hk, hrow, hcol⟩ := hvague
  exact ⟨cx, hcx, (hstrides false hstride).1 rfl, s, k, hs, hk, hrow, hcol⟩

end Explicit

end SpirvRules
