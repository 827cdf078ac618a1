import SpirvRules.Proofs.Layout.Faults
import SpirvRules.Proofs.Layout.Slots
import SpirvRules.Proofs.Recurrence

/-!
# The steps of a walk

What every step of a walk keeps of the walker the walk keeps, also when it fails, and what it fails
by was thrown in one of the steps. A measurement gives the value of its quantity or finds a type
nested too deep.
-/

set_option autoImplicit false

namespace SpirvRules

open Stateful

abbrev Quantity.Value (ix : Index) (t : Table) (q : Quantity) (v : UInt32) : Prop :=
  Rule.Value (Quantity.rule ix t) q v

theorem LayoutPolicy.alignment_type (p : LayoutPolicy) (type : Id) (c : Constraints) :
    (p.alignment type c).type = type := by
  unfold alignment
  split <;> rfl

namespace Walker

def Faithful (ix : Index) (t : Table) (w : Walker) : Prop :=
  Rule.Faithful (Quantity.rule ix t) w.measured

theorem faithful_empty (ix : Index) (t : Table) : Faithful ix t {} := Rule.faithful_empty

/-- All numbers met have a property, which may hang on the struct they were met in. -/
def Meets (w : Walker) (M : Id → Nat → Prop) : Prop := ∀ p ∈ w.met, M p.1 p.2

end Walker

namespace Walk

variable {ix : Index} {t : Table} {u : BlockUse} {ε α β : Type}

theorem run_measure (q : Quantity) (w : Walker) :
    run (measure ix t q) w =
      ((run (Quantity.measure ix t q) w.measured).1.mapError fun q => .tooDeep q.type,
        { w with measured := (run (Quantity.measure ix t q) w.measured).2 }) := rfl

theorem looseComponent?_eq_some {u : BlockUse} {view : Option TypeView} {e : Id} :
    looseComponent? u view = some e ↔
      (∃ n, view = some (.vector e n)) ∧ u.policy.packing = .relaxed := by
  unfold looseComponent?
  split
  · next e' n =>
    simp only [Option.ite_none_right_eq_some, Option.some.injEq, TypeView.vector.injEq]
    constructor
    · rintro ⟨hp, rfl⟩
      exact ⟨⟨n, rfl, rfl⟩, hp⟩
    · rintro ⟨⟨_, rfl, _⟩, hp⟩
      exact ⟨hp, rfl⟩
  · next hne =>
    simp only [reduceCtorEq, false_iff, not_and, forall_exists_index]
    intro n hv
    exact absurd hv (hne e n)

theorem within_of_isVoid {inner : Site → Walk Unit} {s : Site} (h : s.isVoid ix = true) :
    within ix t u inner s = pure () := by
  cases s with
  | struct id base => cases h
  | array holder id a =>
    simp only [Site.isVoid, Index.element?, Option.isNone_iff_eq_none] at h
    simp only [within]
    split
    · next hv => simp [hv, TypeView.element?] at h
    · next hv => simp [hv, TypeView.element?] at h
    · rfl

theorem walkAfresh_of_isVoid {s : Site} (h : s.isVoid ix = true) (n : Nat) :
    walkAfresh ix t u n s = pure () := by
  cases n with
  | zero => rw [walkAfresh, if_pos h]
  | succ n => exact within_of_isVoid h

def Known (u : BlockUse) (w : Walker) (s : Site) : Prop :=
  ∃ v, s.visit? u.policy = some v ∧ v ∈ w.verified

theorem run_unlessVerified_of_known {w : Walker} {s : Site} (h : Known u w s)
    (otherwise : Walk Unit) : run (unlessVerified u s otherwise) w = (.ok (), w) := by
  obtain ⟨v, hv, hmem⟩ := h
  rw [unlessVerified, run_bind_of_ok (run_get w)]
  dsimp only
  rw [hv, Option.any_some, Std.TreeSet.contains_iff_mem.2 hmem]
  rfl

theorem run_unlessVerified_of_not_known {w : Walker} {s : Site} (h : ¬ Known u w s)
    (otherwise : Walk Unit) : run (unlessVerified u s otherwise) w = run otherwise w := by
  have hfalse : (s.visit? u.policy).any w.verified.contains = false := by
    rw [Bool.eq_false_iff]
    intro hany
    obtain ⟨v, hv, hmem⟩ := (Option.any_eq_true _ _).1 hany
    exact h ⟨v, hv, Std.TreeSet.contains_iff_mem.1 hmem⟩
  rw [unlessVerified, run_bind_of_ok (run_get w)]
  dsimp only
  rw [hfalse]
  rfl

/-! ### One step -/

section Steps

variable {P I : Walker → Prop} {Q : Unit → Walker → Prop} {E : LayoutFault → Walker → Prop}
variable {struct : Id} {ns : List Nat} {member : Nat} {f : Option SlotFault} {s : Site}

/-- What a measurement leaves in the memory of measures is all it changes. -/
theorem triple_measure {q : Quantity} {P' : Quantity.Measured → Prop}
    {Q : UInt32 → Walker → Prop} {Q' : UInt32 → Quantity.Measured → Prop}
    {E' : Quantity → Quantity.Measured → Prop} (h : Triple P' (Quantity.measure ix t q) Q' E')
    (hP : ∀ w, P w → P' w.measured) (hQ : ∀ w v m, P w → Q' v m → Q v { w with measured := m })
    (hE : ∀ w k m, P w → E' k m → E (.tooDeep k.type) { w with measured := m }) :
    Triple P (measure ix t q) Q E := by
  intro w hw
  have hends := h w.measured (hP w hw)
  rw [run_measure]
  generalize run (Quantity.measure ix t q) w.measured = r at hends ⊢
  cases hends with
  | ok hq => exact .ok (hQ w _ _ hw hq)
  | error he => exact .error (hE w _ _ hw he)

theorem triple_meet (h : ∀ w, P w → Q () { w with met := ns.map (struct, ·) ++ w.met }) :
    Triple P (meet struct ns) Q E :=
  triple_modify h

theorem triple_rejectAny (h : ∀ g, f = some g → ∀ w, I w → E (.slot u struct member g) w) :
    Triple I (rejectAny u struct member f) (fun _ w => I w ∧ f = none) E := by
  cases f with
  | none => exact triple_pure fun _ hw => ⟨hw, rfl⟩
  | some g => exact triple_throw (h g rfl)

theorem triple_unlessVerified {otherwise : Walk Unit} (hk : ∀ w, P w → Known u w s → Q () w)
    (h : Triple P otherwise Q E) : Triple P (unlessVerified u s otherwise) Q E := by
  intro w hw
  by_cases hknown : Known u w s
  · rw [run_unlessVerified_of_known hknown]
    exact .ok (hk w hw hknown)
  · rw [run_unlessVerified_of_not_known hknown]
    exact h w hw

theorem triple_verify
    (hv : ∀ v, s.visit? u.policy = some v →
      ∀ w, P w → Q () { w with verified := w.verified.insert v })
    (hn : s.visit? u.policy = none → ∀ w, P w → Q () w) : Triple P (verify u s) Q E := by
  unfold verify
  split
  · next v hsome => exact triple_modify (hv v hsome)
  · next hnone => exact triple_pure (hn hnone)

theorem triple_demand {lack : LayoutFault} {o : Except Id Bool} (hl : ∀ w, I w → E lack w)
    (ho : ∀ id, o = .error id → ∀ w, I w → E (.tooDeep id) w) :
    Triple I (demand lack o) (fun _ w => I w ∧ o = .ok false) E := by
  unfold demand
  split
  · exact triple_pure fun _ hw => ⟨hw, rfl⟩
  · exact triple_throw hl
  · next id => exact triple_throw (ho id rfl)

end Steps

/-! ### One round -/

section Round

variable (ix t u) (I : Walker → Prop) (E : LayoutFault → Walker → Prop) (inner : Site → Walk Unit)

structure Steady : Prop where
  meet : ∀ struct ns, Invariant I E (meet struct ns)
  fault : ∀ struct member f, f ≠ .noOffset → ∀ w, I w → E (.slot u struct member f) w

/-- A type may be measured, and the component of a vector. -/
def Measurable (type : Id) : Prop :=
  ∀ q : Quantity, q.type = type ∨ (∃ n, ix.type? type = some (.vector q.type n)) →
    Invariant I E (measure ix t q)

structure Passable (type : Id) : Prop where
  measure : Measurable ix t I E type
  walk : ∀ s : Site, s.type = type → Invariant I E (inner s)

variable {ix t u I E inner} {struct id : Id} {s : Slot}

theorem invariant_extent {type : Id} (hm : Measurable ix t I E type) (offset : UInt32)
    (c : Constraints) : Invariant I E (extent ix t u type offset c) := by
  refine (hm _ (.inl (u.policy.alignment_type type c))).bind fun _ =>
    (hm _ (.inl rfl)).bind fun _ => Triple.bind ?_ fun _ => invariant_pure _
  cases hc : looseComponent? u (ix.type? type) with
  | none => exact invariant_pure _
  | some e =>
    obtain ⟨hv, _⟩ := looseComponent?_eq_some.1 hc
    exact (hm (.scalarAlignment e) (.inr hv)).bind fun _ => invariant_pure _

theorem invariant_contents (hi : ∀ s' : Site, s'.type = s.type → Invariant I E (inner s'))
    (e : Extent) : Invariant I E (contents inner struct s e) := by
  refine Triple.bind ?_ fun _ => hi _ rfl
  unfold enter
  split
  · exact hi _ rfl
  · exact invariant_pure ()

variable (hS : Steady u I E)

include hS

theorem invariant_rejectAny {member : Nat} {f : Option SlotFault} (hf : f ≠ some .noOffset) :
    Invariant I E (rejectAny u struct member f) := by
  cases f with
  | none => exact invariant_pure ()
  | some f => exact triple_throw (hS.fault _ _ _ fun h => hf (congrArg some h))

theorem invariant_settle (hi : ∀ s' : Site, s'.type = s.type → Invariant I E (inner s'))
    (free : UInt32) (later : List Slot) (e : Extent) :
    Invariant I E (settle u inner struct free s later e) :=
  (invariant_rejectAny hS (e.fault?_ne_noOffset free later)).bind fun _ =>
    (invariant_contents hi e).bind fun _ => (hS.meet _ _).bind fun _ => invariant_pure _

theorem invariant_slot (h : Passable ix t I E inner s.type)
    (hs : s.offset = none → ∀ w, I w → E (.slot u struct s.member .noOffset) w) (free : UInt32)
    (later : List Slot) : Invariant I E (slot ix t u inner struct free s later) := by
  unfold slot
  split
  · next ho => exact triple_throw (hs ho)
  · split
    · exact invariant_pure _
    · exact (invariant_extent h.measure _ _).bind fun e => invariant_settle hS h.walk _ _ e

theorem invariant_slots {l : List Slot} (h : ∀ s ∈ l, Passable ix t I E inner s.type)
    (hs : ∀ s ∈ l, s.offset = none → ∀ w, I w → E (.slot u struct s.member .noOffset) w)
    (free : UInt32) : Invariant I E (slots ix t u inner struct free l) := by
  induction l generalizing free with
  | nil => exact invariant_pure ()
  | cons s later ih =>
    refine (invariant_slot hS (h s (by simp)) (hs s (by simp)) free later).bind fun next => ?_
    exact ih (fun r hr => h r (by simp [hr])) (fun r hr => hs r (by simp [hr])) next

omit hS in
theorem invariant_element {e : Id} (hm : ∀ struct ns, Invariant I E (meet struct ns))
    (hi : ∀ s' : Site, s'.type = e → Invariant I E (inner s')) (h : Holder) (stride : UInt32)
    (i : Nat) : Invariant I E (element inner h e stride i) :=
  (hm _ _).bind fun _ => hi _ rfl

omit hS in
theorem invariant_elements {e : Id} (hm : ∀ struct ns, Invariant I E (meet struct ns))
    (hi : ∀ s' : Site, s'.type = e → Invariant I E (inner s')) (h : Holder)
    (stride length : UInt32) : Invariant I E (elements ix inner h e stride length) := by
  unfold elements
  split
  · exact invariant_forM fun i _ => invariant_element hm hi h stride i
  · exact invariant_pure ()

theorem invariant_deeper {e : Id} (he : Passable ix t I E inner e) (h : Holder) (stride : UInt32) :
    Invariant I E (deeper ix t u inner h e stride) :=
  (he.measure _ (.inl (u.policy.alignment_type _ _))).bind fun _ =>
    (he.measure _ (.inl rfl)).bind fun _ =>
    (invariant_rejectAny hS (elementFault?_ne_noOffset _ _)).bind fun _ => he.walk _ rfl

theorem invariant_level {e : Id} (he : Passable ix t I E inner e) (h : Holder) (id : Id)
    (alignment length : UInt32) : Invariant I E (level ix t u inner h id alignment e length) :=
  (invariant_rejectAny hS (strideFault?_ne_noOffset _ _)).bind fun _ =>
    (invariant_elements hS.meet he.walk h _ _).bind fun _ =>
    (invariant_rejectAny hS (matrixFault?_ne_noOffset _ _ _)).bind fun _ =>
    invariant_deeper hS he h _

/-- One round keeps what the sites inside keep and measures of their types, and fails by what they
fail by, but for the offsets that the struct of the site lacks. -/
theorem invariant_within {s : Site}
    (h : ∀ x ∈ Explicit.inner ix s.type, Passable ix t I E inner x)
    (hs : ∀ k < (ix.members s.type).length, t.usableOffset? s.type k = none →
      ∀ w, I w → E (.slot u s.type k .noOffset) w) :
    Invariant I E (within ix t u inner s) := by
  cases s with
  | struct id base =>
    simp only [within]
    split
    · next ms hv =>
      rw [← Index.members_eq hv]
      refine (hS.meet _ _).bind fun _ => invariant_slots hS (fun s hs' => ?_) (fun s hs' ho => ?_) _
      · exact h s.type (Explicit.mem_inner_iff.2 (.inr (Slot.type_mem hs')))
      · obtain ⟨hm, hoff⟩ := Slot.mem_judged.1 hs'
        rw [ho, eq_comm, Option.map_eq_none_iff] at hoff
        exact hs s.member (List.getElem?_eq_some_iff.1 hm).1 hoff
    · exact invariant_pure ()
  | array holder id alignment =>
    simp only [within]
    split
    · next e _ hv =>
      have hin := Explicit.mem_inner_iff.2 (.inl (Index.element?_array hv))
      exact invariant_level hS (h e hin) _ _ _ _
    · next e hv =>
      have hin := Explicit.mem_inner_iff.2 (.inl (Index.element?_runtimeArray hv))
      exact invariant_level hS (h e hin) _ _ _ _
    · exact invariant_pure ()

end Round

/-! ### What holds of the walker goes on to hold -/

/-- Whatever comes of it, what holds of the walker goes on to hold. -/
def Keeping (R : Walker → Prop) (x : ExceptT ε (StateM Walker) α) : Prop :=
  Invariant R (fun _ => R) x

/-- Once a number is met that has not the property, nothing undoes that. -/
def Growing (M : Id → Nat → Prop) (x : ExceptT ε (StateM Walker) α) : Prop :=
  Keeping (fun w => ¬ w.Meets M) x

section Keeping

variable {R : Walker → Prop}

theorem keeping_rejectAny (struct : Id) (member : Nat) (f : Option SlotFault) :
    Keeping R (rejectAny u struct member f) := by
  cases f with
  | none => exact invariant_pure ()
  | some f => exact triple_throw fun _ hw => hw

theorem keeping_unlessVerified {s : Site} {otherwise : Walk Unit} (h : Keeping R otherwise) :
    Keeping R (unlessVerified u s otherwise) :=
  triple_unlessVerified (fun _ hw _ => hw) h

theorem keeping_demand (lack : LayoutFault) (o : Except Id Bool) : Keeping R (demand lack o) :=
  (triple_demand (fun _ hw => hw) fun _ _ _ hw => hw).mono (fun _ => id) (fun _ _ => And.left)
    fun _ _ => id

theorem keeping_explicit (root : Id) (kind : DecorationKind) :
    Keeping R (explicit ix t root kind) :=
  (keeping_demand _ _).bind fun _ => invariant_forM fun _ _ => keeping_demand _ _

theorem keeping_blockBy {way : BlockUse → Nat → Site → Walk Unit}
    (hw : ∀ u n s, Keeping R (way u n s)) (root : Id) (storage : StorageClass)
    (policy : Option LayoutPolicy) : Keeping R (blockBy ix t way root storage policy) := by
  unfold blockBy
  split
  · exact (keeping_explicit _ _).bind fun _ => hw _ _ _
  · exact invariant_pure _

variable (ix t R)

/-- What holds of a walker whatever it measures and meets. -/
structure Lasting : Prop where
  measure : ∀ q, Keeping R (measure ix t q)
  meet : ∀ struct ns, Keeping R (meet struct ns)

variable {ix t R} {inner : Site → Walk Unit} (hi : ∀ s, Keeping R (inner s))

theorem steady_of_meet (hm : ∀ struct ns, Keeping R (meet struct ns)) : Steady u R fun _ => R :=
  ⟨hm, fun _ _ _ _ _ hw => hw⟩

include hi

theorem keeping_contents (struct : Id) (s : Slot) (e : Extent) :
    Keeping R (contents inner struct s e) :=
  invariant_contents (fun s _ => hi s) e

section Meet

variable (hm : ∀ struct ns, Keeping R (meet struct ns))

include hm

theorem keeping_settle (struct : Id) (free : UInt32) (s : Slot) (later : List Slot) (e : Extent) :
    Keeping R (settle u inner struct free s later e) :=
  invariant_settle (steady_of_meet hm) (fun s _ => hi s) free later e

theorem keeping_element (h : Holder) (e : Id) (stride : UInt32) (i : Nat) :
    Keeping R (element inner h e stride i) :=
  invariant_element hm (fun s _ => hi s) h stride i

theorem keeping_elements (h : Holder) (e : Id) (stride length : UInt32) :
    Keeping R (elements ix inner h e stride length) :=
  invariant_elements hm (fun s _ => hi s) h stride length

end Meet

variable (hR : Lasting ix t R)

include hR

theorem Lasting.passable (type : Id) : Passable ix t R (fun _ => R) inner type :=
  ⟨fun q _ => hR.measure q, fun s _ => hi s⟩

theorem keeping_slots (struct : Id) (free : UInt32) (l : List Slot) :
    Keeping R (slots ix t u inner struct free l) :=
  invariant_slots (steady_of_meet hR.meet) (fun _ _ => hR.passable hi _) (fun _ _ _ _ hw => hw) free

theorem keeping_deeper (h : Holder) (e : Id) (stride : UInt32) :
    Keeping R (deeper ix t u inner h e stride) :=
  invariant_deeper (steady_of_meet hR.meet) (hR.passable hi e) h stride

theorem keeping_within (s : Site) : Keeping R (within ix t u inner s) :=
  invariant_within (steady_of_meet hR.meet) (fun x _ => hR.passable hi x) fun _ _ _ _ hw => hw

end Keeping

variable {M : Id → Nat → Prop}

theorem growing_measure (q : Quantity) : Growing M (measure ix t q) :=
  triple_measure (triple_true (P := fun _ => True)) (fun _ _ => trivial) (fun _ _ _ hw _ => hw)
    fun _ _ _ hw _ => hw

theorem growing_meet (struct : Id) (ns : List Nat) : Growing M (meet struct ns) :=
  triple_meet fun _ hw hm => hw fun p hp => hm p (List.mem_append_right _ hp)

theorem lasting_growing : Lasting ix t fun w => ¬ w.Meets M := ⟨growing_measure, growing_meet⟩

theorem growing_verify (s : Site) : Growing M (verify u s) :=
  triple_verify (fun _ _ _ hw => hw) fun _ _ hw => hw

theorem growing_walk (n : Nat) (s : Site) : Growing M (walk ix t u n s) := by
  induction n generalizing s with
  | zero =>
    refine keeping_unlessVerified ?_
    split
    · exact invariant_pure _
    · exact triple_throw fun _ hw => hw
  | succ n ih =>
    exact keeping_unlessVerified ((keeping_within ih lasting_growing s).bind fun _ =>
      growing_verify s)

theorem growing_walkAfresh (n : Nat) (s : Site) : Growing M (walkAfresh ix t u n s) := by
  induction n generalizing s with
  | zero =>
    unfold walkAfresh
    split
    · exact invariant_pure _
    · exact triple_throw fun _ hw => hw
  | succ n ih => exact keeping_within ih lasting_growing s

/-! What is left of a step after its first parts. -/

section Rest

variable {struct id : Id} {ns : List Nat} {member : Nat} {f : Option SlotFault} {s : Site}

theorem growing_meet_pure (a : α) : Growing M (meet struct ns >>= fun _ => pure a) :=
  (growing_meet _ _).bind fun _ => invariant_pure _

variable {inner : Site → Walk Unit} (hi : ∀ s, Growing M (inner s))

include hi

theorem growing_contents_free {r : Slot} {e : Extent} {free : UInt32} :
    Growing M (contents inner struct r e >>= fun _ => meet struct ns >>= fun _ => pure free) :=
  (keeping_contents hi _ _ _).bind fun _ => growing_meet_pure _

theorem growing_reject_walk : Growing M (rejectAny u struct member f >>= fun _ => inner s) :=
  (keeping_rejectAny _ _ _).bind fun _ => hi _

theorem growing_measure_walk {q : Quantity} {g : UInt32 → Option SlotFault} :
    Growing M (measure ix t q >>= fun n => rejectAny u struct member (g n) >>= fun _ => inner s) :=
  (growing_measure _).bind fun _ => growing_reject_walk hi

variable {h : Holder} {stride length : UInt32}

theorem growing_reject_deeper : Growing M
    (rejectAny u struct member f >>= fun _ => deeper ix t u inner h id stride) :=
  (keeping_rejectAny _ _ _).bind fun _ => keeping_deeper hi lasting_growing _ _ _

theorem growing_elements_deeper : Growing M (elements ix inner h id stride length >>= fun _ =>
    rejectAny u struct member f >>= fun _ => deeper ix t u inner h id stride) :=
  (keeping_elements hi growing_meet _ _ _ _).bind fun _ => growing_reject_deeper hi

end Rest

/-! ### What a walk fails by -/

/-- Whatever a computation fails by has the property. -/
def FailsBy (E : LayoutFault → Prop) (x : Walk α) : Prop :=
  Invariant (fun _ => True) (fun f _ => E f) x

section FailsBy

variable {E : LayoutFault → Prop}

theorem steady_of_faults (hE : ∀ struct member f, f ≠ .noOffset → E (.slot u struct member f)) :
    Steady u (fun _ => True) fun f _ => E f :=
  ⟨fun _ _ => triple_meet fun _ _ => trivial, fun struct member f hf _ _ => hE struct member f hf⟩

/-- What follows the checks before a walk is only reached if all offsets are there. -/
theorem failsBy_explicit {root : Id} {kind : DecorationKind} {f : Unit → Walk α}
    (hoffset : E (.lacksOffset root kind)) (hneed : ∀ n, E (.lacks n root kind))
    (ho : ∀ id, Explicit.missesOffset ix t root = .error id → E (.tooDeep id))
    (hn : ∀ n id, Explicit.misses ix t n root = .error id → E (.tooDeep id))
    (hf : Explicit.missesOffset ix t root = .ok false → FailsBy E (f ())) :
    FailsBy E (explicit ix t root kind >>= f) := by
  rw [explicit, bind_assoc]
  refine (triple_demand (fun _ _ => hoffset) fun id h _ _ => ho id h).bindFact fun _ hmiss => ?_
  refine Triple.bind (invariant_forM fun n _ => ?_) fun _ => hf hmiss
  exact (triple_demand (fun _ _ => hneed n) fun id h _ _ => hn n id h).mono (fun _ => id)
    (fun _ _ => And.left) fun _ _ => id

end FailsBy

/-! ### What is measured -/

variable (ix t) in
/-- The measures are right, and what holds does not hang on which there are. -/
structure Remembering (I : Walker → Prop) : Prop where
  faithful : ∀ w, I w → w.Faithful ix t
  measured : ∀ w m, I w → Rule.Faithful (Quantity.rule ix t) m → I { w with measured := m }

theorem remembering_faithful : Remembering ix t (Walker.Faithful ix t) :=
  ⟨fun _ hw => hw, fun _ _ _ hm => hm⟩

theorem remembering_verified (verified : Std.TreeSet Visit) :
    Remembering ix t fun w => w.Faithful ix t ∧ w.verified = verified :=
  ⟨fun _ hw => hw.1, fun _ _ hw hm => ⟨hm, hw.2⟩⟩

/-- A computation that only measures: it gives a result with the property, or finds a type nested
too deep. -/
def Measuring (ix : Index) (t : Table) (x : Walk α) (Q : α → Prop) : Prop :=
  ∀ I, Remembering ix t I → Triple I x (fun a w => I w ∧ Q a) fun f _ => ∃ id, f = .tooDeep id

theorem measuring_measure (q : Quantity) : Measuring ix t (measure ix t q) (q.Value ix t) :=
  fun _ hI => triple_measure Rule.triple_memoised (fun w hw => hI.faithful w hw)
    (fun w _ m hw hm => ⟨hI.measured w m hw hm.1, hm.2⟩) fun _ k _ _ _ => ⟨k.type, rfl⟩

structure Measures (ix : Index) (t : Table) (u : BlockUse) (type : Id) (offset : UInt32)
    (c : Constraints) (e : Extent) : Prop where
  view : e.view = ix.type? type
  constraints : e.constraints = c
  offset : e.offset = offset
  alignment : (u.policy.alignment type c).Value ix t e.alignment
  size : (Quantity.size type c).Value ix t e.size
  component : Option.Rel (fun x a => (Quantity.scalarAlignment x).Value ix t a)
    (looseComponent? u (ix.type? type)) e.component

theorem measuring_extent (type : Id) (offset : UInt32) (c : Constraints) :
    Measuring ix t (extent ix t u type offset c) (Measures ix t u type offset c) := by
  intro I hI
  refine (measuring_measure _ I hI).bindFact fun a ha =>
    (measuring_measure _ I hI).bindFact fun s hs => Triple.bindFact
      (q := Option.Rel (fun x a => (Quantity.scalarAlignment x).Value ix t a)
        (looseComponent? u (ix.type? type))) ?_ fun o ho =>
      triple_pure fun _ hw => ⟨hw, rfl, rfl, rfl, ha, hs, ho⟩
  cases looseComponent? u (ix.type? type) with
  | none => exact triple_pure fun _ hw => ⟨hw, .none⟩
  | some x =>
    exact (measuring_measure _ I hI).bindFact fun b hb => triple_pure fun _ hw => ⟨hw, .some hb⟩

end Walk

end SpirvRules
