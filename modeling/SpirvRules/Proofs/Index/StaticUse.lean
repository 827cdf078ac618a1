import Mathlib.Data.List.Basic
import SpirvRules.Proofs.Decoration.Order
import SpirvRules.Proofs.Index.Places
import SpirvRules.Proofs.Recurrence
import SpirvRules.Proofs.Search

/-!
# Static use is reachability by calls

The call graph is gathered in one pass over the stream, and searched from each entry point. An entry
point uses an id exactly when some chain of calls leads from it to a function that mentions the id,
recursion or not.
-/

set_option autoImplicit false

namespace SpirvRules

open Outcome

namespace Module

variable (m : Module)

def Mentions (f x : Id) : Prop :=
  ∃ i, Stands m.instructions f i ∧ ∃ o ∈ i.operands, o.anyId? = some x

def Calls (f g : Id) : Prop :=
  ∃ i, Stands m.instructions f i ∧ i.op = .opFunctionCall ∧ i.idAt? 0 = some g

/-- A chain of calls leads from `f` to a function that mentions `x`. -/
def Uses (f x : Id) : Prop := ∃ g, Relation.ReflTransGen m.Calls f g ∧ m.Mentions g x

def entryFunctions : List Id := m.entryPoints.filterMap (·.idAt? 1)

variable {m} {f g : Id}

theorem Calls.mentions (h : m.Calls f g) : m.Mentions f g := by
  obtain ⟨i, hi, _, hg⟩ := h
  obtain ⟨o, ho, hog⟩ := Option.bind_eq_some_iff.1 hg
  exact ⟨i, hi, o, List.mem_of_getElem? ho, hog⟩

end Module

/-! ### The call graph -/

theorem Grouping.mem_under {α : Type} {ps : List (Id × α)} {i : Id} {a : α} :
    a ∈ (ofPairs ps).under i ↔ (i, a) ∈ ps := by
  simp [under_ofPairs]

theorem Instruction.mem_idOperands {i : Instruction} {n : Nat} {x : Id} :
    (n, x) ∈ i.idOperands ↔ i.idAt? n = some x := by
  simp only [idOperands, idAt?, operand?, List.mem_filterMap, Option.map_eq_some_iff,
    Option.bind_eq_some_iff, Prod.mk.injEq]
  constructor
  · rintro ⟨⟨o, m⟩, ho, _, hx, rfl, rfl⟩
    exact ⟨o, List.mk_mem_zipIdx_iff_getElem?.1 ho, hx⟩
  · rintro ⟨o, ho, hx⟩
    exact ⟨(o, n), List.mk_mem_zipIdx_iff_getElem?.2 ho, x, hx, rfl, rfl⟩

theorem Instruction.exists_mem_idOperands {i : Instruction} {x : Id} :
    (∃ n, (n, x) ∈ i.idOperands) ↔ ∃ o ∈ i.operands, o.anyId? = some x := by
  simp only [mem_idOperands, idAt?, operand?, Option.bind_eq_some_iff]
  constructor
  · rintro ⟨_, o, ho, hx⟩
    exact ⟨o, List.mem_of_getElem? ho, hx⟩
  · rintro ⟨o, ho, hx⟩
    obtain ⟨n, hn⟩ := List.getElem?_of_mem ho
    exact ⟨n, o, hn, hx⟩

namespace Located

variable {l : Located} {f g x : Id}

theorem mem_mentions :
    (f, x) ∈ l.mentions ↔ l.function = some f ∧ ∃ o ∈ l.inst.operands, o.anyId? = some x := by
  rw [mentions, ← Instruction.exists_mem_idOperands]
  cases l.function with
  | none => simp
  | some f' =>
    simp only [List.mem_map, Prod.exists, Prod.mk.injEq, Option.some.injEq]
    constructor
    · rintro ⟨n, _, hn, rfl, rfl⟩
      exact ⟨rfl, n, hn⟩
    · rintro ⟨rfl, n, hn⟩
      exact ⟨n, x, hn, rfl, rfl⟩

theorem call?_eq_some :
    l.call? = some (f, g) ↔
      l.function = some f ∧ l.inst.op = .opFunctionCall ∧ l.inst.idAt? 0 = some g := by
  unfold call?
  split
  · next f' hf hop =>
    rw [hf, hop, Option.map_eq_some_iff]
    constructor
    · rintro ⟨_, hg, hcall⟩
      cases hcall
      exact ⟨rfl, rfl, hg⟩
    · rintro ⟨hf', _, hg⟩
      cases hf'
      exact ⟨g, hg, rfl⟩
  · next hcall =>
    simp only [reduceCtorEq, false_iff]
    rintro ⟨hf, hop, _⟩
    exact hcall f hf hop

end Located

namespace CallGraph

variable {m : Module} {f g x : Id}

theorem mem_mentions_under : x ∈ (ofStream m.stream).mentions.under f ↔ m.Mentions f x := by
  simp only [ofStream, Grouping.mem_under, List.mem_flatMap, Located.mem_mentions]
  exact Module.exists_mem_stream_iff (P := fun i => ∃ o ∈ i.operands, o.anyId? = some x)

theorem mem_calls_under : g ∈ (ofStream m.stream).calls.under f ↔ m.Calls f g := by
  simp only [ofStream, Grouping.mem_under, List.mem_filterMap, Located.call?_eq_some]
  exact Module.exists_mem_stream_iff
    (P := fun i => i.op = .opFunctionCall ∧ i.idAt? 0 = some g)

theorem mem_mentions : f ∈ (ofStream m.stream).mentions ↔ ∃ x, m.Mentions f x := by
  simp only [← mem_mentions_under, ofStream, Grouping.mem_under, Grouping.mem_ofPairs]

/-- The search finds the functions a chain of calls leads to, as far as they mention anything. -/
theorem exists_mem_reachedFrom :
    (∃ g ∈ (ofStream m.stream).reachedFrom f, m.Mentions g x) ↔ m.Uses f x := by
  simp only [reachedFrom, Search.mem_run_iff, List.mem_singleton, exists_eq_left,
    mem_calls_under, mem_mentions]
  constructor
  · rintro ⟨g, ⟨_, hpath⟩, hx⟩
    exact ⟨g, Relation.ReflTransGen.mono (fun _ _ h => h.1) _ _ hpath, hx⟩
  · rintro ⟨g, hpath, hx⟩
    refine ⟨g, ?_, hx⟩
    -- every caller on the way mentions what it calls, and the last function mentions `x`
    induction hpath using Relation.ReflTransGen.head_induction_on with
    | refl => exact ⟨⟨x, hx⟩, .refl⟩
    | head hcall _ ih => exact ⟨⟨_, hcall.mentions⟩, .head ⟨hcall, ih.1⟩ ih.2⟩

theorem mem_idsUsedFrom : x ∈ (ofStream m.stream).idsUsedFrom f ↔ m.Uses f x := by
  rw [idsUsedFrom, Std.TreeSet.mem_ofList, List.contains_iff_mem, List.mem_flatMap]
  simp only [mem_mentions_under]
  exact exists_mem_reachedFrom

end CallGraph

/-! ### Entry points in order -/

section Order

variable {α : Type} [DecidableEq α] {l : List α} {a b : α}

theorem idxOf_lt_of_filter {p : α → Bool} (ha : p a) (hb : p b)
    (h : (l.filter p).idxOf a < (l.filter p).idxOf b) : l.idxOf a < l.idxOf b := by
  induction l with
  | nil => cases h
  | cons c l ih =>
    by_cases hc : p c
    · rw [List.filter_cons_of_pos hc] at h
      simp only [List.idxOf_cons] at h ⊢
      grind
    · rw [List.filter_cons_of_neg hc] at h
      have hca : c ≠ a := fun heq => hc (heq ▸ ha)
      have hcb : c ≠ b := fun heq => hc (heq ▸ hb)
      rw [List.idxOf_cons_ne l hca, List.idxOf_cons_ne l hcb]
      exact Nat.succ_lt_succ (ih h)

/-- Without repetitions, values stand in the order they first come. -/
theorem pairwise_idxOf_eraseDups (l : List α) :
    l.eraseDups.Pairwise fun a b => l.idxOf a < l.idxOf b := by
  cases l with
  | nil => exact .nil
  | cons c l =>
    have hne : ∀ a ∈ (l.filter fun a => !a == c).eraseDups, c ≠ a := by
      intro a ha
      have hfilter := (List.mem_filter.1 (List.mem_eraseDups.1 ha)).2
      rintro rfl
      simp at hfilter
    have hrest := pairwise_idxOf_eraseDups (l.filter fun a => !a == c)
    rw [List.eraseDups_cons, List.pairwise_cons]
    constructor
    · intro a ha
      rw [List.idxOf_cons_self, List.idxOf_cons_ne l (hne a ha)]
      exact Nat.succ_pos _
    · refine hrest.imp_of_mem fun {a b} ha hb hab => ?_
      rw [List.idxOf_cons_ne l (hne a ha), List.idxOf_cons_ne l (hne b hb)]
      refine Nat.succ_lt_succ (idxOf_lt_of_filter ?_ ?_ hab)
      · simpa using (hne a ha).symm
      · simpa using (hne b hb).symm
termination_by l.length
decreasing_by exact Nat.lt_succ_of_le (List.length_filter_le _ l)

end Order

namespace Index

variable {m : Module} {ix : Index} {f x : Id}

theorem function_of_ofInstruction? {i : Instruction} {e : EntryPoint}
    (h : EntryPoint.ofInstruction? i = some e) : i.idAt? 1 = some e.function := by
  unfold EntryPoint.ofInstruction? at h
  split at h
  · next hf =>
    cases h
    exact hf
  · cases h

theorem map_function_entryPointsOf {eps : List EntryPoint} (h : entryPointsOf m = .ok eps) :
    eps.map EntryPoint.function = m.entryFunctions := by
  have hall := (Rule.mapM_eq_ok _ _ _).1 h
  rw [Module.entryFunctions]
  generalize m.entryPoints = is at hall
  clear h
  induction hall with
  | nil => rfl
  | @cons i e is es hi _ ih =>
    have hf : i.idAt? 1 = some e.function := by
      split at hi
      · next he =>
        cases hi
        exact function_of_ofInstruction? he
      · cases hi
    rw [List.map_cons, List.filterMap_cons, hf, ih]

theorem map_function_entryPoints (h : ofModule m = .ok ix) :
    ix.entryPoints.map EntryPoint.function = m.entryFunctions := by
  obtain ⟨_, _, _, heps, rfl⟩ := ofModule_eq_ok.1 h
  exact map_function_entryPointsOf heps

theorem staticUsers_eq (h : ofModule m = .ok ix) (x : Id) :
    ix.staticUsers x = m.entryFunctions.eraseDups.filter fun f =>
      ((CallGraph.ofStream m.stream).idsUsedFrom f).contains x := by
  rw [← map_function_entryPoints h]
  obtain ⟨defs, eps, _, _, rfl⟩ := ofModule_eq_ok.1 h
  simp only [staticUsers, CallGraph.staticUse]
  generalize (eps.map EntryPoint.function).eraseDups = fs
  induction fs with
  | nil => rfl
  | cons f fs ih =>
    rw [List.map_cons, List.filterMap_cons, ih, List.filter_cons]
    by_cases hx : ((CallGraph.ofStream m.stream).idsUsedFrom f).contains x <;> simp [hx]

theorem mem_staticUsers (h : ofModule m = .ok ix) :
    f ∈ ix.staticUsers x ↔ f ∈ m.entryFunctions ∧ m.Uses f x := by
  rw [staticUsers_eq h, List.mem_filter, List.mem_eraseDups, Std.TreeSet.contains_iff_mem,
    CallGraph.mem_idsUsedFrom]

/-- The entry points that use an id are those from which a chain of calls leads to a function that
mentions it. They are listed once each, in the order they are first named. -/
theorem staticUsers_reachable (h : ofModule m = .ok ix) (x : Id) :
    (ix.staticUsers x).Nodup ∧
      ((ix.staticUsers x).Pairwise fun f g =>
        m.entryFunctions.idxOf f < m.entryFunctions.idxOf g) ∧
      ∀ f, f ∈ ix.staticUsers x ↔ f ∈ m.entryFunctions ∧ m.Uses f x := by
  have hpairwise : (ix.staticUsers x).Pairwise fun f g =>
      m.entryFunctions.idxOf f < m.entryFunctions.idxOf g := by
    rw [staticUsers_eq h]
    exact (pairwise_idxOf_eraseDups m.entryFunctions).filter _
  refine ⟨hpairwise.imp fun hlt heq => ?_, hpairwise, fun f => mem_staticUsers h⟩
  exact Nat.lt_irrefl _ (heq ▸ hlt)

def mutualCalls : Module where
  entryPoints := [.entering 30, .entering 20, .entering 10, .entering 20]
  functions := [.ofBody 10 [.calling 11 20], .ofBody 20 [.calling 21 20, .calling 22 10,
    .storing 1 2], .ofBody 30 [.storing 3 2]]

theorem staticUsers_mutualCalls :
    ∃ ix, ofModule mutualCalls = .ok ix ∧ ix.staticUsers 1 = [20, 10] ∧
      mutualCalls.Uses 10 1 ∧ ¬ mutualCalls.Uses 30 1 := by
  have hrun : (ofModule mutualCalls).toOption.any (fun ix =>
      decide (ix.staticUsers 1 = [20, 10])) = true := by
    decide +kernel
  obtain ⟨ix, hix, hq⟩ := exists_of_any hrun
  have husers := of_decide_eq_true hq
  obtain ⟨_, _, hmem⟩ := staticUsers_reachable hix 1
  rw [husers] at hmem
  refine ⟨ix, hix, husers, ((hmem 10).1 (by simp)).2, fun h => ?_⟩
  have hnot : (30 : Id) ∈ [20, 10] := (hmem 30).2 ⟨by decide, h⟩
  simp at hnot

end Index

/-!
### What uses an id

The uses of an id are the places among the operands of instructions that stand in functions where
the id is named.
-/

namespace Index

variable {m : Module} {ix : Index} {l : Located} {id : Id} {u : Use}

theorem mem_usesOf : (id, u) ∈ usesOf l ↔
    l.function.isSome = true ∧ u.inst = l.inst ∧ (u.operand, id) ∈ l.inst.idOperands := by
  unfold usesOf
  cases l.function with
  | none => simp
  | some f =>
    obtain ⟨i, n⟩ := u
    simp only [List.mem_map, Prod.exists, Prod.mk.injEq, Use.mk.injEq, Option.isSome_some,
      true_and]
    constructor
    · rintro ⟨_, _, hn, rfl, rfl, rfl⟩
      exact ⟨rfl, hn⟩
    · rintro ⟨rfl, hn⟩
      exact ⟨n, id, hn, rfl, rfl, rfl⟩

theorem mem_usesOfId (h : ofModule m = .ok ix) : u ∈ ix.usesOfId id ↔
    ∃ l ∈ m.stream, l.function.isSome = true ∧ u.inst = l.inst ∧
      (u.operand, id) ∈ l.inst.idOperands := by
  obtain ⟨_, _, _, _, rfl⟩ := ofModule_eq_ok.1 h
  simp only [usesOfId, Grouping.mem_under, List.mem_flatMap, mem_usesOf]

/-- The uses of an id are the operands that name it, of all that stands in functions. -/
theorem use_mem_usesOfId (h : ofModule m = .ok ix) {i : Instruction} {n : Nat} :
    ⟨i, n⟩ ∈ ix.usesOfId id ↔ ∃ f, Module.Stands m.instructions f i ∧ i.idAt? n = some id := by
  simp only [mem_usesOfId h, Instruction.mem_idOperands]
  constructor
  · rintro ⟨l, hl, hf, rfl, hn⟩
    obtain ⟨f, hf⟩ := Option.isSome_iff_exists.1 hf
    obtain ⟨_, hstands, rfl, hn⟩ := Module.exists_mem_stream_iff
      (P := fun j => j = l.inst ∧ j.idAt? n = some id).1 ⟨l, hl, hf, rfl, hn⟩
    exact ⟨f, hstands, hn⟩
  · rintro ⟨f, hstands, hn⟩
    obtain ⟨l, hl, hf, rfl⟩ := Module.exists_mem_stream_iff (P := (· = i)).2 ⟨i, hstands, rfl⟩
    exact ⟨l, hl, Option.isSome_of_eq_some hf, rfl, hn⟩

theorem usesOfId_eq_nil_iff (h : ofModule m = .ok ix) :
    ix.usesOfId id = [] ↔ ∀ f, ¬ m.Mentions f id := by
  have hmentions : ∀ f, m.Mentions f id ↔
      ∃ i, Module.Stands m.instructions f i ∧ ∃ n, i.idAt? n = some id := by
    intro f
    simp only [Module.Mentions, ← Instruction.exists_mem_idOperands, Instruction.mem_idOperands]
  rw [List.eq_nil_iff_forall_not_mem]
  constructor
  · intro hnone f hf
    obtain ⟨i, hstands, n, hn⟩ := (hmentions f).1 hf
    exact hnone ⟨i, n⟩ ((use_mem_usesOfId h).2 ⟨f, hstands, hn⟩)
  · rintro hnone ⟨i, n⟩ hu
    obtain ⟨f, hstands, hn⟩ := (use_mem_usesOfId h).1 hu
    exact hnone f ((hmentions f).2 ⟨i, hstands, n, hn⟩)

end Index

end SpirvRules
