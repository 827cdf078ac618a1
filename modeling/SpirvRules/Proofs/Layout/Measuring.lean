import SpirvRules.Proofs.Layout.Steps

/-!
# Measuring again and again

One memory serves many queries, and queries that fail leave in it what they found on the way. It
cannot be seen in the answers: a query comes to what the recurrence alone comes to, or finds a type
nested too deep, and it answers at least where the recurrence alone would have had room. With a
quantity the memory holds its parts, so what gives a value has parts that give one too.
-/

set_option autoImplicit false

namespace SpirvRules

open Stateful

namespace Rule

variable {κ ν α β : Type} {rule : κ → Rule κ ν} {k e : κ} {v : ν} {n : Nat}

theorem pmap_eq_of_forall₂ {P : α → Prop} {f : ∀ a, P a → β} {as : List α} {bs : List β}
    (h : List.Forall₂ (fun a b => ∃ ha, f a ha = b) as bs) (hP : ∀ a ∈ as, P a) :
    as.pmap f hP = bs := by
  induction h with
  | nil => rfl
  | cons hab _ ih =>
    obtain ⟨ha, rfl⟩ := hab
    rw [List.pmap_cons, ih]

theorem forall₂_pmap {P : α → Prop} {R : α → β → Prop} {f : ∀ a, P a → β} {as : List α}
    (hP : ∀ a ∈ as, P a) (h : ∀ a (ha : a ∈ as), R a (f a (hP a ha))) :
    List.Forall₂ R as (as.pmap f hP) := by
  induction as with
  | nil => exact .nil
  | cons a as ih =>
    rw [List.pmap_cons]
    exact .cons (h a List.mem_cons_self) (ih _ fun b hb => h b (List.mem_cons_of_mem _ hb))

/-! ### The recurrence alone -/

def IsPart (rule : κ → Rule κ ν) (p k : κ) : Prop := p ∈ (rule k).parts

/-- The value of a key whose parts, and theirs, all come to an end. There is no memory here, and no
bound on the number of levels. -/
noncomputable def unbounded (rule : κ → Rule κ ν) (k : κ) (h : Acc (IsPart rule) k) : ν :=
  h.rec fun k _ values => (rule k).combine ((rule k).parts.pmap values fun _ hp => hp)

theorem unbounded_eq (h : Acc (IsPart rule) k) :
    unbounded rule k h =
      (rule k).combine ((rule k).parts.pmap (unbounded rule) fun _ hp => h.inv hp) := by
  cases h with
  | intro k h =>
    show (rule k).combine ((rule k).parts.pmap (fun p hp => unbounded rule p (h p hp)) _) = _
    congr 1
    exact List.pmap_congr_left _ fun _ _ _ _ => rfl

/-- A key has a value when its parts come to an end, and the value is then that of the recurrence
alone. -/
theorem value_iff_unbounded :
    Value rule k v ↔ ∃ h : Acc (IsPart rule) k, unbounded rule k h = v := by
  constructor
  · intro hv
    refine hv.induct (motive := fun k v => ∃ h : Acc (IsPart rule) k, unbounded rule k h = v) ?_
    intro k vs hvs
    have hparts := hvs.imp fun _ _ hp => hp.2
    have hacc : Acc (IsPart rule) k := by
      refine .intro k fun p hp => ?_
      obtain ⟨_, _, hacc, _⟩ := exists_right_of_mem hparts hp
      exact hacc
    exact ⟨hacc, by rw [unbounded_eq, pmap_eq_of_forall₂ hparts]⟩
  · rintro ⟨h, rfl⟩
    induction h with
    | intro k h ih =>
      rw [unbounded_eq, value_iff]
      exact ⟨_, forall₂_pmap _ ih, rfl⟩

/-! ### Where a computation runs out of room -/

def Below (rule : κ → Rule κ ν) : Nat → κ → κ → Prop
  | 0, k, e => k = e
  | n + 1, k, e => ∃ p, IsPart rule p k ∧ Below rule n p e

variable [Ord κ]

/-- The key a computation fails at is as many levels down as there was room. -/
theorem triple_below : Triple (fun _ => True) (memoised rule n k) (fun _ _ => True)
    fun e _ => Below rule n k e := by
  induction n generalizing k with
  | zero => exact triple_lookUp (fun _ _ _ _ => trivial) (triple_throw fun _ _ => rfl)
  | succ n ih =>
    have hparts : ∀ p ∈ (rule k).parts, Triple (fun _ => True) (memoised rule n p)
        (fun _ _ => True ∧ True) fun e _ => Below rule (n + 1) k e := fun p hp =>
      ih.mono (fun _ => id) (fun _ _ _ => ⟨trivial, trivial⟩) fun _ _ h => ⟨p, hp, h⟩
    exact triple_lookUp (fun _ _ _ _ => trivial)
      ((triple_mapM hparts).bindFact fun _ _ => triple_remember fun _ _ => trivial)

/-! ### What the memory holds -/

def Complete (rule : κ → Rule κ ν) (memory : Std.TreeMap κ ν) : Prop :=
  ∀ k ∈ memory, ∀ p ∈ (rule k).parts, p ∈ memory

theorem complete_empty : Complete rule ∅ := by
  intro k hk
  simp at hk

/-- The memory is complete and holds some keys. -/
structure Holding (rule : κ → Rule κ ν) (S : κ → Prop) (memory : Std.TreeMap κ ν) : Prop where
  complete : Complete rule memory
  holds : ∀ k, S k → k ∈ memory

section Holding

variable {S : κ → Prop} {memory : Std.TreeMap κ ν}

theorem Holding.sub {S' : κ → Prop} (h : Holding rule S memory) (hS : ∀ k, S' k → S k) :
    Holding rule S' memory :=
  ⟨h.complete, fun k hk => h.holds k (hS k hk)⟩

theorem holding_mapM {f : κ → Memo κ ν ν} (hf : ∀ k S, Triple (Holding rule S) (f k)
      (fun _ => Holding rule fun j => j = k ∨ S j) fun _ => Holding rule S) (ks : List κ)
    (S : κ → Prop) : Triple (Holding rule S) (ks.mapM f)
      (fun _ => Holding rule fun j => j ∈ ks ∨ S j) fun _ => Holding rule S := by
  induction ks generalizing S with
  | nil => exact triple_pure fun _ h => h.sub fun _ hj => hj.resolve_left List.not_mem_nil
  | cons k ks ih =>
    rw [List.mapM_cons]
    refine (hf k S).bind fun v => Triple.bind ((ih _).mono (fun _ => id) (fun _ _ => id)
      fun _ _ h => h.sub fun _ => .inr) fun vs => triple_pure fun _ h => h.sub fun j hj => ?_
    rcases hj with hj | hj
    · exact (List.mem_cons.1 hj).elim (fun hk => .inr (.inl hk)) .inl
    · exact .inr (.inr hj)

variable [Std.TransOrd κ]

theorem Holding.insert [Std.LawfulEqOrd κ] (h : Holding rule S memory)
    (hk : ∀ p ∈ (rule k).parts, S p) : Holding rule (fun j => j = k ∨ S j) (memory.insert k v) where
  complete := by
    intro j hj p hp
    rcases Std.TreeMap.mem_insert.1 hj with hjk | hj
    · cases Std.LawfulEqOrd.eq_of_compare hjk
      exact Std.TreeMap.mem_insert.2 (.inr (h.holds p (hk p hp)))
    · exact Std.TreeMap.mem_insert.2 (.inr (h.complete j hj p hp))
  holds := by
    rintro j (rfl | hj)
    · exact Std.TreeMap.mem_insert_self
    · exact Std.TreeMap.mem_insert.2 (.inr (h.holds j hj))

theorem Holding.lookUp (h : Holding rule S memory) (hv : memory[k]? = some v) :
    Holding rule (fun j => j = k ∨ S j) memory := by
  refine ⟨h.complete, ?_⟩
  rintro j (rfl | hj)
  · exact Std.TreeMap.mem_iff_isSome_getElem?.2 (by rw [hv]; rfl)
  · exact h.holds j hj

/-- A key is remembered once its parts are. -/
theorem holding_memoised [Std.LawfulEqOrd κ] (k : κ) (S : κ → Prop) :
    Triple (Holding rule S) (memoised rule n k) (fun _ => Holding rule fun j => j = k ∨ S j)
      fun _ => Holding rule S := by
  induction n generalizing k S with
  | zero => exact triple_lookUp (fun _ _ h hv => h.lookUp hv) (triple_throw fun _ h => h)
  | succ n ih =>
    refine triple_lookUp (fun _ _ h hv => h.lookUp hv) ?_
    refine (holding_mapM ih (rule k).parts S).bind fun vs => triple_remember fun _ h => ?_
    exact (h.insert fun _ => .inl).sub fun j hj => hj.imp_right .inr

end Holding

end Rule

namespace Quantity

variable {ix : Index} {t : Table} {q : Quantity}

/-- Queries made one after the other with one memory, those that fail among them. -/
def measureAll (ix : Index) (t : Table) (qs : List Quantity) :
    StateM Measured (List (Except Quantity UInt32)) :=
  qs.mapM fun q => (measure ix t q).run

theorem measureAll_cons (q : Quantity) (qs : List Quantity) (m : Measured) :
    measureAll ix t (q :: qs) m =
      ((run (measure ix t q) m).1 :: (measureAll ix t qs (run (measure ix t q) m).2).1,
        (measureAll ix t qs (run (measure ix t q) m).2).2) := by
  rw [measureAll, List.mapM_cons]
  rfl

theorem value_of_measure {m : Measured} {v : UInt32} (hm : Rule.Faithful (rule ix t) m)
    (h : (run (measure ix t q) m).1 = .ok v) : q.Value ix t v :=
  (Rule.triple_memoised.ok hm (Prod.ext h rfl)).2

theorem faithful_measure {m : Measured} (hm : Rule.Faithful (rule ix t) m) :
    Rule.Faithful (rule ix t) (run (measure ix t q) m).2 :=
  (Rule.triple_memoised.mono (fun _ => id) (fun _ _ => And.left) fun _ _ => id).after hm

theorem complete_measure {m : Measured} (hm : Rule.Complete (rule ix t) m) :
    Rule.Complete (rule ix t) (run (measure ix t q) m).2 :=
  ((Rule.holding_memoised q fun _ => False).mono (fun _ h => ⟨h, fun _ => False.elim⟩)
    (fun _ _ h => h.complete) fun _ _ h => h.complete).after hm

/-- What a query may answer. A value is that of the recurrence alone, which comes to an end; a
failure is at a type as deep as types may be nested; and where the recurrence alone comes to a value
within that depth, the query gives it. -/
structure Answers (ix : Index) (t : Table) (q : Quantity) (answer : Except Quantity UInt32) :
    Prop where
  value : ∀ v, answer = .ok v →
    ∃ h : Acc (Rule.IsPart (rule ix t)) q, Rule.unbounded (rule ix t) q h = v
  tooDeep : ∀ e, answer = .error e → Rule.Below (rule ix t) maxTypeDepth q e
  succeeds : ∀ v, Rule.plain (rule ix t) maxTypeDepth q = .ok v → answer = .ok v

theorem answers_measure {m : Measured} (hm : Rule.Faithful (rule ix t) m) :
    Answers ix t q (run (measure ix t q) m).1 where
  value _ hv := Rule.value_iff_unbounded.1 (value_of_measure hm hv)
  tooDeep _ he := Rule.triple_below.error trivial (Prod.ext he rfl)
  succeeds v hv := by
    obtain ⟨_, hrun⟩ := Rule.memoised_of_plain hm hv
    exact congrArg Prod.fst hrun

/-- The memory is faithful before each query, whatever became of those before it. -/
theorem measureAll_of_faithful {m : Measured} (hm : Rule.Faithful (rule ix t) m)
    (qs : List Quantity) : List.Forall₂ (Answers ix t) qs (measureAll ix t qs m).1 := by
  induction qs generalizing m with
  | nil => exact .nil
  | cons q qs ih =>
    rw [measureAll_cons]
    exact .cons (answers_measure hm) (ih (faithful_measure hm))

/-- No sequence of queries can tell the memory from the recurrence alone, but that a query may
answer where the recurrence alone has no room. -/
theorem measureAll_answers (ix : Index) (t : Table) (qs : List Quantity) :
    List.Forall₂ (Answers ix t) qs (measureAll ix t qs ∅).1 :=
  measureAll_of_faithful Rule.faithful_empty qs

/-! ### Queries that give a value -/

variable {p : Quantity} {v : UInt32}

def memoryAfter (ix : Index) (t : Table) (qs : List Quantity) : Measured := (measureAll ix t qs ∅).2

theorem memoryAfter_concat (qs : List Quantity) (q : Quantity) :
    memoryAfter ix t (qs ++ [q]) = (run (measure ix t q) (memoryAfter ix t qs)).2 := by
  unfold memoryAfter
  generalize (∅ : Measured) = m
  induction qs generalizing m with
  | nil => rfl
  | cons p qs ih =>
    rw [List.cons_append, measureAll_cons, measureAll_cons]
    exact ih _

/-- The memory is right and complete before each query, whatever became of those before it. -/
theorem kept_measureAll {m : Measured} (hf : Rule.Faithful (rule ix t) m)
    (hc : Rule.Complete (rule ix t) m) (qs : List Quantity) :
    Rule.Faithful (rule ix t) (measureAll ix t qs m).2 ∧
      Rule.Complete (rule ix t) (measureAll ix t qs m).2 := by
  induction qs generalizing m with
  | nil => exact ⟨hf, hc⟩
  | cons q qs ih =>
    rw [measureAll_cons]
    exact ih (faithful_measure hf) (complete_measure hc)

theorem faithful_memoryAfter (qs : List Quantity) :
    Rule.Faithful (rule ix t) (memoryAfter ix t qs) :=
  (kept_measureAll Rule.faithful_empty Rule.complete_empty qs).1

theorem complete_memoryAfter (qs : List Quantity) :
    Rule.Complete (rule ix t) (memoryAfter ix t qs) :=
  (kept_measureAll Rule.faithful_empty Rule.complete_empty qs).2

def Gives (ix : Index) (t : Table) (q : Quantity) (v : UInt32) : Prop :=
  ∃ qs, (run (measure ix t q) (memoryAfter ix t qs)).1 = .ok v

theorem Gives.value (h : Gives ix t q v) : q.Value ix t v := by
  obtain ⟨qs, hv⟩ := h
  exact value_of_measure (faithful_memoryAfter qs) hv

theorem gives_of_mem {qs : List Quantity} (h : q ∈ memoryAfter ix t qs) :
    ∃ v, Gives ix t q v := by
  obtain ⟨v, hv⟩ := Option.isSome_iff_exists.1 (Std.TreeMap.mem_iff_isSome_getElem?.1 h)
  refine ⟨v, qs, ?_⟩
  show (run (Rule.lookUp q _) (memoryAfter ix t qs)).1 = _
  rw [Rule.lookUp, run_bind_of_ok (run_get _), hv]
  rfl

/-- What gives a value has its parts remembered on the way. -/
theorem Gives.part (h : Gives ix t q v) (hp : Rule.IsPart (rule ix t) p q) :
    ∃ w, Gives ix t p w := by
  obtain ⟨qs, hv⟩ := h
  have hholding := (Rule.holding_memoised q fun _ => False).ok
    ⟨complete_memoryAfter qs, fun _ => False.elim⟩ (Prod.ext hv rfl)
  have hmem : p ∈ (run (measure ix t q) (memoryAfter ix t qs)).2 :=
    hholding.complete q (hholding.holds q (.inl rfl)) p hp
  rw [← memoryAfter_concat] at hmem
  exact gives_of_mem hmem

end Quantity

end SpirvRules
