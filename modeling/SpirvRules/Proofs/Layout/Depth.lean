import SpirvRules.Proofs.Layout.Cycles
import SpirvRules.Proofs.Layout.Explicitness

/-!
# Types that are not too deep

Measures, the walk and the check for offsets take one level of room for each type on the way, and so
run out of it only where a chain of types is longer than the room. The checks for strides and
majorness take two levels for each struct inside another, and run out of it sooner.
-/

set_option autoImplicit false

namespace SpirvRules

open Outcome Stateful

/-! ### Chains and what they cost -/

def outlay (cost : Id → Nat) : List Id → Nat
  | [] => 0
  | a :: l => cost a + outlay cost l

theorem outlay_one (l : List Id) : outlay (fun _ => 1) l = l.length := by
  induction l with
  | nil => rfl
  | cons a l ih => rw [outlay, ih, List.length_cons, Nat.add_comm]

/-- What comes after `a` in a chain of steps costs no more than `n` altogether. -/
def Affords (step : Id → Id → Prop) (cost : Id → Nat) (n : Nat) (a : Id) : Prop :=
  ∀ l, List.IsChain step (a :: l) → outlay cost l ≤ n

namespace Affords

variable {step step' : Id → Id → Prop} {cost : Id → Nat} {n m : Nat} {a b : Id}

theorem next (h : Affords step cost n a) (hab : step a b) :
    cost b ≤ n ∧ Affords step cost (n - cost b) b := by
  have htail : ∀ l, List.IsChain step (b :: l) → cost b + outlay cost l ≤ n :=
    fun l hl => h (b :: l) (List.isChain_cons_cons.2 ⟨hab, hl⟩)
  refine ⟨htail [] (.singleton b), fun l hl => ?_⟩
  have hl := htail l hl
  omega

theorem mono (h : Affords step cost n a) (hnm : n ≤ m) : Affords step cost m a :=
  fun l hl => Nat.le_trans (h l hl) hnm

theorem of_imp (h : Affords step cost n a) (hstep : ∀ a b, step' a b → step a b) :
    Affords step' cost n a :=
  fun l hl => h l (hl.imp hstep)

theorem of_reaches (h : Affords step cost n a) (hab : Relation.ReflTransGen step a b) :
    Affords step cost n b := by
  induction hab with
  | refl => exact h
  | tail _ hstep ih => exact (ih.next hstep).2.mono (Nat.sub_le _ _)

/-- A rank that falls by the cost of each step bounds the cost of all. -/
theorem of_rank (rank : Id → Nat) (hrank : ∀ a b, step a b → cost b + rank b ≤ rank a) (a : Id) :
    Affords step cost (rank a) a := by
  intro l
  induction l generalizing a with
  | nil => exact fun _ => Nat.zero_le _
  | cons b l ih =>
    intro hl
    obtain ⟨hab, hl⟩ := List.isChain_cons_cons.1 hl
    have hb := hrank a b hab
    have htail := ih b hl
    rw [outlay]
    omega

end Affords

namespace Index

variable {ix : Index} {a b : Id}

/-- The types looked at on account of a type: what it is made of and, for the size of a struct, what
stands last in it, which counts as the type 0 where it is no id. -/
def consulted (ix : Index) (id : Id) : List Id :=
  match ix.type? id with
  | some (.struct ms) => ix.members id ++ (ms.getLast?.map fun o => o.anyId?.getD 0).toList
  | _ => ix.parts id

abbrev Follows (ix : Index) (a b : Id) : Prop := b ∈ ix.consulted a

theorem follows_of_mem_parts (h : b ∈ ix.parts a) : ix.Follows a b := by
  unfold Follows consulted
  split
  · next ms hv =>
    rw [parts_struct hv] at h
    exact List.mem_append_left _ h
  · exact h

theorem follows_last {ms : List Operand} {last : Nat} (hv : ix.type? a = some (.struct ms))
    (hlength : ms.length = last + 1) :
    ix.Follows a (((TypeView.struct ms).member? last).getD 0) := by
  simp [Follows, consulted, hv, List.getLast?_eq_getElem?, hlength, TypeView.member?]

abbrev Contains (ix : Index) (a b : Id) : Prop := b ∈ Explicit.inner ix a

/-- A struct inside another counts twice, anything else once. -/
def weight (ix : Index) (id : Id) : Nat := if (ix.type? id).any TypeView.isStruct then 2 else 1

theorem weight_pos (ix : Index) (id : Id) : 1 ≤ ix.weight id := by
  unfold weight
  split <;> omega

theorem Contains.follows (h : ix.Contains a b) : ix.Follows a b :=
  follows_of_mem_parts (mem_parts_of_mem_inner h)

theorem consulted_eq_nil (h : a ∉ ix.defs) : ix.consulted a = [] := by
  have hnone : ix.type? a = none :=
    Option.eq_none_iff_forall_ne_some.2 fun _ hv => h (mem_defs_of_type? hv)
  simp [consulted, hnone, parts, Explicit.inner]

end Index

namespace Quantity

variable {ix : Index} {t : Table} {q p : Quantity} {n : Nat}

def StepsTo (ix : Index) (a b : Id) : Prop :=
  ix.Follows a b ∨ ∃ x, ix.Follows a x ∧ ix.Follows x b

variable {id e col : Id} {c : Constraints} {up : Bool} {columns : UInt32}

theorem stepsTo_of_mem_parts (h : e ∈ ix.parts id) : StepsTo ix id e :=
  .inl (Index.follows_of_mem_parts h)

theorem stepsTo_component (hv : ix.type? id = some (.matrix col columns)) :
    StepsTo ix id (column ix col).1 := by
  have hcol : ix.Follows id col := Index.follows_of_mem_parts (by simp [Index.parts, hv])
  rcases column_eq_or ix col with ⟨count, hvector⟩ | heq
  · exact .inr ⟨col, hcol, Index.follows_of_mem_parts (by simp [Index.parts, hvector])⟩
  · rw [heq]
    exact .inl hcol

theorem stepsTo_base (hp : p ∈ (baseRule ix t id c up).parts) : StepsTo ix id p.type := by
  cases hv : ix.type? id with
  | none => simp [baseRule, hv, Rule.fixed] at hp
  | some v =>
    cases v with
    | struct ms =>
      simp only [baseRule, hv, List.mem_map] at hp
      obtain ⟨⟨x, i⟩, hx, rfl⟩ := hp
      apply stepsTo_of_mem_parts
      rw [type, Index.parts_struct hv, Index.members_eq hv]
      exact List.fst_mem_of_mem_zipIdx hx
    | matrix col columns =>
      cases hrow : c.rowMajor with
      | true =>
        obtain rfl : p = .baseAlignment (column ix col).1 c up := by
          simpa [baseRule, hv, hrow, Rule.single] using hp
        exact stepsTo_component hv
      | false =>
        obtain rfl : p = .baseAlignment col c up := by
          simpa [baseRule, hv, hrow, Rule.single] using hp
        exact stepsTo_of_mem_parts (by simp [type, Index.parts, hv])
    | vector e | array e | runtimeArray e =>
      obtain rfl : p = .baseAlignment e c up := by simpa [baseRule, hv, Rule.single] using hp
      exact stepsTo_of_mem_parts (by
        simp [type, Index.parts, Explicit.inner, hv, TypeView.element?])
    | void | bool | int | float | pointer | function | image | sampler | sampledImage | other =>
      simp [baseRule, hv, Rule.fixed] at hp

theorem stepsTo_size (hp : p ∈ (sizeRule ix t id c).parts) : StepsTo ix id p.type := by
  cases hv : ix.type? id with
  | none => simp [sizeRule, hv, Rule.fixed] at hp
  | some v =>
    cases v with
    | struct ms =>
      cases hlength : ms.length with
      | zero => simp [sizeRule, hv, hlength, Rule.fixed] at hp
      | succ last =>
        simp only [sizeRule, hv, hlength, Rule.single, List.mem_singleton] at hp
        subst hp
        exact .inl (Index.follows_last hv hlength)
    | matrix col columns =>
      cases hrow : c.rowMajor with
      | true =>
        obtain rfl : p = .size (column ix col).1 c := by
          simpa [sizeRule, hv, hrow, Rule.single] using hp
        exact stepsTo_component hv
      | false => simp [sizeRule, hv, hrow, Rule.fixed] at hp
    | vector e =>
      obtain rfl : p = .size e c := by simpa [sizeRule, hv, Rule.single] using hp
      exact stepsTo_of_mem_parts (by simp [type, Index.parts, hv])
    | array e length =>
      cases hn : ix.constant? length with
      | none => simp [sizeRule, hv, hn, Rule.fixed] at hp
      | some count =>
        obtain rfl : p = .size e c := by simpa [sizeRule, hv, hn, Rule.single] using hp
        exact stepsTo_of_mem_parts (by
          simp [type, Index.parts, Explicit.inner, hv, TypeView.element?])
    | void | bool | int | float | runtimeArray | pointer | function | image | sampler
      | sampledImage | other => simp [sizeRule, hv, Rule.fixed] at hp

theorem stepsTo_of_rule (hp : p ∈ (rule ix t q).parts) : StepsTo ix q.type p.type := by
  cases q with
  | scalarAlignment id =>
    rw [parts_scalar] at hp
    obtain ⟨x, hx, rfl⟩ := List.mem_map.1 hp
    exact stepsTo_of_mem_parts hx
  | baseAlignment id c up => exact stepsTo_base hp
  | size id c => exact stepsTo_size hp

/-- A type that is not nested too deep can be measured. -/
theorem measure_total (h : Affords ix.Follows (fun _ => 1) n q.type) (hn : n < maxTypeDepth) :
    Triple (fun _ => True) (measure ix t q) (fun _ _ => True) fun _ _ => False := by
  refine Rule.memoised_total (fun room q =>
    ∃ n < room, Affords ix.Follows (fun _ => 1) n q.type) (fun _ ⟨_, hlt, _⟩ => nomatch hlt) ?_
    ⟨n, hn, h⟩
  rintro room q ⟨n, hlt, h⟩ p hp
  rcases stepsTo_of_rule hp with hpart | ⟨x, hx, hpart⟩
  · obtain ⟨hle, htail⟩ := h.next hpart
    exact ⟨n - 1, by omega, htail⟩
  · obtain ⟨hle, htail⟩ := h.next hx
    exact ⟨n - 1 - 1, by omega, (htail.next hpart).2⟩

end Quantity

namespace Explicit

variable {α : Type} {ix : Index} {t : Table} {id : Id} {n : Nat}

/-- A check does not find a type nested too deep, whatever is known. -/
def Fits (c : Check Unit) : Prop :=
  Invariant (fun _ => True) (fun f _ => ∀ id, f ≠ .tooDeep id) c

theorem fits_lacking : Fits (throw .lacking) := triple_throw fun _ _ _ => nofun

theorem Fits.outcome {c : Check Unit} (h : Fits c) (id : Id) : outcome c ≠ .error id := by
  have hends := h ∅ trivial
  rw [outcome_eq]
  generalize run c ∅ = r at hends
  cases hends with
  | ok _ => exact nofun
  | @error f _ hf =>
    cases f with
    | lacking => exact nofun
    | tooDeep id => exact absurd rfl (hf id)

theorem fits_offsets (h : Affords ix.Contains (fun _ => 1) n id) :
    Fits (offsets ix t (n + 1) id) := by
  induction n using Nat.strongRecOn generalizing id with
  | ind n ih =>
    have inside : Fits ((inner ix id).forM (offsets ix t n)) := by
      apply invariant_forM
      intro x hx
      obtain ⟨hle, htail⟩ := h.next hx
      obtain ⟨m, rfl⟩ : ∃ m, n = m + 1 := ⟨n - 1, by omega⟩
      exact ih m (Nat.lt_succ_self m) htail
    refine invariant_unlessKnown ?_
    split
    · split
      · exact fits_lacking
      · exact inside.bind fun _ => invariant_learn
    · exact inside.bind fun _ => invariant_learn

def Roomy (ix : Index) (n : Nat) : Place → Prop
  | .struct id => ∃ m < n, Affords ix.Contains ix.weight m id
  | .member _ _ id => ∃ m, m + ix.weight id ≤ n ∧ Affords ix.Contains ix.weight m id

theorem roomy_member {struct x : Id} {k room : Nat} (h : Affords ix.Contains ix.weight n id)
    (hx : ix.Contains id x) (hn : n ≤ room) : Roomy ix room (.member struct k x) := by
  obtain ⟨hle, htail⟩ := h.next hx
  exact ⟨n - ix.weight x, by omega, htail⟩

theorem fits_unless {p : Prop} {_ : Decidable p} {c : Check Unit} (h : Fits c) :
    Fits (if p then (throw .lacking : Check Unit) >>= fun _ => c else c) := by
  split
  · exact fits_lacking.bind fun _ => h
  · exact h

section Level

variable {need : Need} (ih : ∀ {l}, Roomy ix n l → Fits (needs ix t need n l))

include ih

theorem fits_needs_struct (h : Roomy ix (n + 1) (.struct id)) :
    Fits (needs ix t need (n + 1) (.struct id)) := by
  obtain ⟨m, hlt, hchain⟩ := h
  apply invariant_unlessKnown
  split
  · next ms hv =>
    refine (invariant_forM fun ⟨x, i⟩ hx => ih ?_).bind fun _ => invariant_learn
    refine roomy_member hchain (Explicit.mem_inner_iff.2 (.inr ?_)) (Nat.le_of_lt_succ hlt)
    rw [Index.members_eq hv]
    exact List.fst_mem_of_mem_zipIdx hx
  · exact invariant_pure ()

theorem fits_needs_member {s : Id} {k : Nat} (h : Roomy ix (n + 1) (.member s k id)) :
    Fits (needs ix t need (n + 1) (.member s k id)) := by
  obtain ⟨m, hle, hchain⟩ := h
  have helement : ∀ e, ix.element? id = some e → Fits (needs ix t need n (.member s k e)) := by
    intro e he
    have hpos := ix.weight_pos id
    exact ih (roomy_member hchain (Explicit.mem_inner_iff.2 (.inl he)) (by omega))
  simp only [needs]
  split
  · next e _ hv => exact fits_unless (helement e (Index.element?_array hv))
  · next e hv => exact fits_unless (helement e (Index.element?_runtimeArray hv))
  · split
    · exact invariant_pure ()
    · exact fits_lacking
  · next ms hv =>
    have hweight : ix.weight id = 2 := if_pos (Index.isStruct_iff.2 ⟨ms, hv⟩)
    exact ih ⟨m, by omega, hchain⟩
  · exact invariant_pure ()

end Level

theorem fits_needs {need : Need} {l : Place} (h : Roomy ix n l) : Fits (needs ix t need n l) := by
  induction n generalizing l with
  | zero =>
    cases l with
    | struct id =>
      obtain ⟨_, hlt, _⟩ := h
      cases hlt
    | member s k id =>
      obtain ⟨m, hle, _⟩ := h
      have hpos := ix.weight_pos id
      omega
  | succ n ih =>
    cases l with
    | struct id => exact fits_needs_struct ih h
    | member s k id => exact fits_needs_member ih h

end Explicit

namespace Walk

variable {ix : Index} {t : Table} {u : BlockUse} {root x : Id} {n : Nat}

def Shallow (f : LayoutFault) : Prop := ∀ id, f ≠ .tooDeep id

theorem measurable_shallow (h : Affords ix.Follows (fun _ => 1) n x)
    (hn : n < Quantity.maxTypeDepth) :
    Measurable ix t (fun _ => True) (fun f _ => Shallow f) x := by
  intro q hq
  refine triple_measure (Quantity.measure_total (n := n) ?_ hn) (fun _ _ => trivial)
    (fun _ _ _ _ _ => trivial) fun _ _ _ _ => False.elim
  rcases hq with heq | ⟨count, hv⟩
  · rwa [heq]
  · exact h.of_reaches (.single (Index.follows_of_mem_parts (by simp [Index.parts, hv])))

theorem shallow_walk
    (hm : ∀ x, ix.Reaches root x → Measurable ix t (fun _ => True) (fun f _ => Shallow f) x)
    {s : Site} (hs : ix.Reaches root s.type) (h : Affords ix.Contains (fun _ => 1) n s.type) :
    FailsBy Shallow (walk ix t u (n + 1) s) := by
  induction n using Nat.strongRecOn generalizing s with
  | ind n ih =>
    refine triple_unlessVerified (fun _ hw _ => hw)
      (Triple.bind (Q := fun _ _ => True) ?_ fun _ =>
        triple_verify (fun _ _ _ _ => trivial) fun _ _ _ => trivial)
    refine invariant_within (steady_of_faults fun _ _ _ _ _ => nofun)
      (fun x hx => ⟨hm x (hs.tail hx), ?_⟩) fun _ _ _ _ _ _ => nofun
    rintro s' rfl
    obtain ⟨hle, htail⟩ := h.next hx
    obtain ⟨m, rfl⟩ : ∃ m, n = m + 1 := ⟨n - 1, by omega⟩
    exact ih m (Nat.lt_succ_self m) (hs.tail hx) htail

/-- No type is found nested too deep in a block whose chains of types have at most 512, counting the
structs in it twice on chains of members and elements. -/
theorem checkBlock_ne_tooDeep
    (hchains : ∀ l, List.IsChain ix.Follows (root :: l) → l.length + 1 ≤ 512)
    (hstructs : ∀ l, List.IsChain ix.Contains (root :: l) →
      1 + outlay ix.weight l ≤ 512)
    (storage : StorageClass) (policy : Option LayoutPolicy) (id : Id) :
    checkBlock ix t root storage policy ≠ .error (.tooDeep id) := by
  have hfollows : Affords ix.Follows (fun _ => 1) 511 root := by
    intro l hl
    have hlength := hchains l hl
    rw [outlay_one]
    omega
  have hinner : Affords ix.Contains (fun _ => 1) 511 root :=
    hfollows.of_imp fun _ _ => Index.Contains.follows
  have hweight : Affords ix.Contains ix.weight 511 root := by
    intro l hl
    have hsum := hstructs l hl
    omega
  have hmeasure : ∀ x, ix.Reaches root x →
      Measurable ix t (fun _ => True) (fun f _ => Shallow f) x := fun x hx =>
    measurable_shallow (hfollows.of_reaches
      (Relation.ReflTransGen.mono (fun _ _ => Index.Contains.follows) _ _ hx)) (by decide)
  have hblock : FailsBy Shallow (block ix t root storage policy) := by
    unfold block blockBy
    split
    · refine failsBy_explicit nofun (fun _ => nofun) (fun id ho => ?_) (fun n id ho => ?_)
        fun _ => shallow_walk hmeasure .refl hinner
      · exact absurd ho ((Explicit.fits_offsets hinner).outcome id)
      · have hroomy : Explicit.Roomy ix 512 (.struct root) := ⟨511, by decide, hweight⟩
        exact absurd ho ((Explicit.fits_needs hroomy).outcome id)
    · exact invariant_pure ()
  exact fun h => hblock.error trivial (Prod.ext h rfl) id rfl

open scoped Quantity

def nest (n : Nat) : Module where
  annotations := .decorating (UInt32.ofNat (n + 4)) .block [] ::
    (List.range (n + 1)).map fun j => .placing (UInt32.ofNat (j + 4)) 0 0
  globals := .declaring .opTypeFloat 3 [.literal 32] ::
    (List.range (n + 1)).map fun j =>
      .declaring .opTypeStruct (UInt32.ofNat (j + 4)) [.id (UInt32.ofNat (j + 3))]

/-- Chains are no longer than ids are large, where types only consult those of smaller ids. -/
theorem affords_of_declared (h : ∀ a ∈ ix.defs.keys, ∀ b ∈ ix.consulted a, b < a) (a : Id) :
    Affords ix.Follows (fun _ => 1) a.toNat a := by
  refine Affords.of_rank UInt32.toNat (fun a b hab => ?_) a
  by_cases ha : a ∈ ix.defs
  · have hlt := UInt32.lt_iff_toNat_lt.1 (h a (Std.TreeMap.mem_keys.2 ha) b hab)
    omega
  · rw [Index.Follows, Index.consulted_eq_nil ha] at hab
    cases hab

theorem length_le_of_declared (h : ∀ a ∈ ix.defs.keys, ∀ b ∈ ix.consulted a, b < a)
    {l : List Id} (hl : List.IsChain ix.Follows (root :: l)) : l.length ≤ root.toNat := by
  have hsum := affords_of_declared h root l hl
  rwa [outlay_one] at hsum

/-- The block of 255 structs counts 512 on its one chain. -/
theorem checkBlock_nest :
    ∃ ix t, Index.ofModule (nest 255) = .ok ix ∧ Table.ofIndex ix = .ok t ∧
      (t.blockKind? 259).isSome ∧ ∀ storage policy id,
        checkBlock ix t 259 storage policy ≠ .error (.tooDeep id) := by
  have hrun : ((nest 255).context {}).toOption.any (fun ⟨ix, t, _⟩ =>
      decide ((t.blockKind? 259).isSome ∧
        (∀ a ∈ ix.defs.keys, ∀ b ∈ ix.consulted a, b < a) ∧
        ∀ a ∈ ix.defs.keys, ∀ b ∈ Explicit.inner ix a,
          ix.weight b + (2 * b.toNat - 7) ≤ 2 * a.toNat - 7)) = true := by
    decide +kernel
  obtain ⟨cx, hcx, hq⟩ := exists_of_any hrun
  obtain ⟨ix, t, hix, ht, rfl⟩ := Module.context_eq_ok.1 hcx
  obtain ⟨hk, hdeclared, hweight⟩ := of_decide_eq_true hq
  refine ⟨ix, t, hix, ht, hk, checkBlock_ne_tooDeep (fun l hl => ?_) fun l hl => ?_⟩
  · have hlength := length_le_of_declared hdeclared hl
    have hroot : (259 : UInt32).toNat = 259 := rfl
    omega
  · have hsum := Affords.of_rank (fun a => 2 * a.toNat - 7)
      (fun a b hab => hweight a (Std.TreeMap.mem_keys.2 ?_) b hab) 259 l hl
    · have hroot : 2 * (259 : UInt32).toNat - 7 = 511 := rfl
      omega
    · obtain ⟨v, hv⟩ := Index.type?_of_mem_inner hab
      exact Index.mem_defs_of_type? hv

/-- With one struct more the block is taken for too deep, though no chain in it has even 262
types. -/
theorem checkBlock_nest_tooDeep :
    ∃ ix t, Index.ofModule (nest 256) = .ok ix ∧ Table.ofIndex ix = .ok t ∧
      (t.blockKind? 260).isSome ∧
      (∀ l, List.IsChain ix.MadeOf (260 :: l) → l.length + 1 ≤ 512) ∧
      checkBlock ix t 260 .storageBuffer (some ⟨.storage, .standard⟩) = .error (.tooDeep 4) := by
  have hrun : ((nest 256).context {}).toOption.any (fun ⟨ix, t, _⟩ =>
      decide ((t.blockKind? 260).isSome ∧
        (∀ a ∈ ix.defs.keys, ∀ b ∈ ix.consulted a, b < a) ∧
        checkBlock ix t 260 .storageBuffer (some ⟨.storage, .standard⟩) = .error (.tooDeep 4))) =
          true := by
    decide +kernel
  obtain ⟨cx, hcx, hq⟩ := exists_of_any hrun
  obtain ⟨ix, t, hix, ht, rfl⟩ := Module.context_eq_ok.1 hcx
  obtain ⟨hk, hdeclared, hdeep⟩ := of_decide_eq_true hq
  refine ⟨ix, t, hix, ht, hk, fun l hl => ?_, hdeep⟩
  have hlength := length_le_of_declared hdeclared
    (hl.imp fun _ _ => Index.follows_of_mem_parts)
  have hroot : (260 : UInt32).toNat = 260 := rfl
  omega

end Walk

end SpirvRules
