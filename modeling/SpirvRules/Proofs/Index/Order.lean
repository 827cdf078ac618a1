import Mathlib.Data.List.Forall2
import Mathlib.Data.Nat.Find
import Mathlib.Data.Prod.Lex
import SpirvRules.Proofs.Index.StaticUse

/-!
# The index and the order of the binary

A module is indexed in one pass over its instructions. It fails at the first instruction that
repeats a result. Otherwise the index says of each id where in the order its instruction is, which
function that place is in, and at which places of functions the id is named, in their order.
-/

set_option autoImplicit false

namespace SpirvRules

open Outcome

namespace Module

variable {m : Module} {k : Nat}

/-! ### Results and names -/

def Gives (m : Module) (k : Nat) (n : Id) : Prop :=
  ∃ i, m.instructions[k]? = some i ∧ i.result = some n

def Repeats (m : Module) (k : Nat) (n : Id) : Prop := m.Gives k n ∧ ∃ j < k, m.Gives j n

/-- An operand of an instruction in a function names an id; the instruction and the operand are
given by their places. -/
def Names (m : Module) (x : Id) (p : Nat × Nat) : Prop :=
  ∃ i, m.instructions[p.1]? = some i ∧ i.idAt? p.2 = some x ∧ ∃ f, Spans m.instructions f p.1

theorem gives_iff {n : Id} :
    m.Gives k n ↔ ∃ l, m.stream[k]? = some l ∧ l.inst.result = some n := by
  simp only [Gives, ← map_inst_getElem?_stream, Option.map_eq_some_iff]
  constructor
  · rintro ⟨_, ⟨l, hl, rfl⟩, hn⟩
    exact ⟨l, hl, hn⟩
  · rintro ⟨l, hl, hn⟩
    exact ⟨l.inst, ⟨l, hl, rfl⟩, hn⟩

end Module

theorem Instruction.pairwise_idOperands (i : Instruction) :
    i.idOperands.Pairwise fun p q => p.1 < q.1 := by
  have hindices : (i.operands.zipIdx.map Prod.snd).Pairwise (· < ·) := by
    rw [List.zipIdx_map_snd]
    exact List.pairwise_lt_range'
  refine List.Pairwise.filterMap _ ?_ (List.pairwise_map.1 hindices)
  rintro ⟨o, n⟩ ⟨o', n'⟩ hlt p hp q hq
  obtain ⟨_, _, rfl⟩ := Option.map_eq_some_iff.1 hp
  obtain ⟨_, _, rfl⟩ := Option.map_eq_some_iff.1 hq
  exact hlt

namespace Index

variable {m : Module} {ix : Index} {ls : List Located} {l : Located} {k : Nat} {n x : Id}
variable {defs defs' : Std.TreeMap Id Located}

/-! ### The first result to be repeated -/

def Clashes (ls : List Located) (defs : Std.TreeMap Id Located) (k : Nat) (n : Id) : Prop :=
  ∃ l, ls[k]? = some l ∧ l.inst.result = some n ∧
    (n ∈ defs ∨ ∃ j < k, ∃ c, ls[j]? = some c ∧ c.inst.result = some n)

theorem clashes_cons_zero : Clashes (l :: ls) defs 0 n ↔ l.inst.result = some n ∧ n ∈ defs := by
  simp [Clashes]

theorem clashes_cons_succ (h : ∀ n, n ∈ defs' ↔ n ∈ defs ∨ l.inst.result = some n) :
    Clashes (l :: ls) defs (k + 1) n ↔ Clashes ls defs' k n := by
  have hbefore : (∃ j < k + 1, ∃ c, (l :: ls)[j]? = some c ∧ c.inst.result = some n) ↔
      l.inst.result = some n ∨ ∃ j < k, ∃ c, ls[j]? = some c ∧ c.inst.result = some n := by
    constructor
    · rintro ⟨j, hj, c, hc, hn⟩
      cases j with
      | zero =>
        cases hc
        exact .inl hn
      | succ j => exact .inr ⟨j, by omega, c, hc, hn⟩
    · rintro (hn | ⟨j, hj, c, hc, hn⟩)
      · exact ⟨0, by omega, l, rfl, hn⟩
      · exact ⟨j + 1, by omega, c, hc, hn⟩
  simp only [Clashes, hbefore, h, List.getElem?_cons_succ, or_assoc]

theorem first_succ_iff {P : Nat → Id → Prop} (h : ∀ x, ¬ P 0 x) :
    (∃ k, P k n ∧ ∀ j < k, ∀ x, ¬ P j x) ↔ ∃ k, P (k + 1) n ∧ ∀ j < k, ∀ x, ¬ P (j + 1) x := by
  constructor
  · rintro ⟨k, hk, hfirst⟩
    cases k with
    | zero => exact absurd hk (h n)
    | succ k => exact ⟨k, hk, fun j hj => hfirst (j + 1) (by omega)⟩
  · rintro ⟨k, hk, hfirst⟩
    refine ⟨k + 1, hk, fun j hj => ?_⟩
    cases j with
    | zero => exact h
    | succ j => exact hfirst j (by omega)

theorem define_eq_error :
    define ls defs = .error (.duplicateResult n) ↔
      ∃ k, Clashes ls defs k n ∧ ∀ j < k, ∀ x, ¬ Clashes ls defs j x := by
  induction ls generalizing defs with
  | nil => simp [define, Clashes]
  | cons l ls ih =>
    rw [define]
    cases hr : l.inst.result with
    | none =>
      have hskip : ∀ k x, Clashes (l :: ls) defs (k + 1) x ↔ Clashes ls defs k x :=
        fun _ _ => clashes_cons_succ (by simp [hr])
      rw [first_succ_iff (by simp [clashes_cons_zero, hr])]
      simp only [hskip]
      exact ih
    | some id =>
      by_cases hid : id ∈ defs
      · have hzero : ∀ x, Clashes (l :: ls) defs 0 x ↔ id = x := by
          intro x
          rw [clashes_cons_zero, hr, Option.some.injEq]
          exact ⟨fun h => h.1, fun h => ⟨h, h ▸ hid⟩⟩
        simp only [Std.TreeMap.contains_iff_mem.2 hid, if_true, Except.error.injEq,
          IndexFault.duplicateResult.injEq]
        constructor
        · intro h
          exact ⟨0, (hzero n).2 h, fun j hj => absurd hj (Nat.not_lt_zero j)⟩
        · rintro ⟨k, hk, hfirst⟩
          cases k with
          | zero => exact (hzero n).1 hk
          | succ k => exact absurd ((hzero id).2 rfl) (hfirst 0 (by omega) id)
      · have hfresh : ¬ defs.contains id = true := fun h => hid (Std.TreeMap.contains_iff_mem.1 h)
        have hinsert : ∀ x, x ∈ defs.insert id l ↔ x ∈ defs ∨ l.inst.result = some x := by
          intro x
          rw [mem_insert_iff, hr, Option.some.injEq, or_comm]
        rw [first_succ_iff (by simp only [clashes_cons_zero, hr]; rintro x ⟨⟨⟩, hx⟩; exact hid hx)]
        simp only [clashes_cons_succ hinsert, hfresh, if_false, Bool.false_eq_true]
        exact ih

theorem clashes_stream : Clashes m.stream ∅ k n ↔ m.Repeats k n := by
  have hempty : n ∉ (∅ : Std.TreeMap Id Located) := by simp
  simp only [Clashes, Module.Repeats, Module.gives_iff, hempty, false_or]
  constructor
  · rintro ⟨l, hl, hn, h⟩
    exact ⟨⟨l, hl, hn⟩, h⟩
  · rintro ⟨⟨l, hl, hn⟩, h⟩
    exact ⟨l, hl, hn, h⟩

theorem entryPointsOf_ne_duplicate : entryPointsOf m ≠ .error (.duplicateResult n) := by
  intro h
  obtain ⟨i, _, hi⟩ := exists_of_mapM_error h
  split at hi <;> cases hi

/-- A module is refused for a result defined before when there is such a result, and for the first
one. -/
theorem ofModule_eq_duplicate :
    ofModule m = .error (.duplicateResult n) ↔
      ∃ k, m.Repeats k n ∧ ∀ j < k, ∀ x, ¬ m.Repeats j x := by
  simp only [← clashes_stream, ← define_eq_error, ofModule, bind_eq_error,
    entryPointsOf_ne_duplicate, pure_eq_ok, reduceCtorEq, and_false, exists_false, or_false]

/-! ### Definitions -/

theorem exists_def?_of_gives (h : ofModule m = .ok ix) (hk : m.Gives k x) :
    ∃ l, ix.def? x = some l ∧ l.position = k := by
  obtain ⟨l, hl, hx⟩ := Module.gives_iff.1 hk
  exact ⟨l, (def?_eq_some_iff h).2 ⟨List.mem_of_getElem? hl, hx⟩, (Module.getElem?_stream.1 hl).1⟩

/-- The instruction a definition is, where it stands and that no other has the result. -/
theorem def?_eq_some_iff_gives (h : ofModule m = .ok ix) :
    ix.def? x = some l ↔ m.instructions[l.position]? = some l.inst ∧ l.inst.result = some x ∧
      (∀ k, m.Gives k x → k = l.position) ∧
        ∀ f, l.function = some f ↔ Module.Spans m.instructions f l.position := by
  rw [def?_eq_some_iff h, Module.mem_stream_iff]
  constructor
  · rintro ⟨⟨hinst, hfunction⟩, hx⟩
    refine ⟨hinst, hx, fun k hk => ?_, hfunction⟩
    obtain ⟨c, hc, rfl⟩ := exists_def?_of_gives h hk
    have hl := (def?_eq_some_iff h).2 ⟨Module.mem_stream_iff.2 ⟨hinst, hfunction⟩, hx⟩
    rw [hc, Option.some.injEq] at hl
    rw [hl]
  · rintro ⟨hinst, hx, _, hfunction⟩
    exact ⟨⟨hinst, hfunction⟩, hx⟩

theorem def?_eq_none_iff_gives (h : ofModule m = .ok ix) :
    ix.def? x = none ↔ ∀ k, ¬ m.Gives k x := by
  constructor
  · intro hnone k hk
    obtain ⟨l, hl, _⟩ := exists_def?_of_gives h hk
    rw [hnone] at hl
    cases hl
  · intro hnone
    rw [Option.eq_none_iff_forall_ne_some]
    intro l hl
    obtain ⟨hinst, hx, _⟩ := (def?_eq_some_iff_gives h).1 hl
    exact hnone _ ⟨l.inst, hinst, hx⟩

/-! ### Uses in order -/

def namesAt (x : Id) (l : Located) : List (Nat × Nat) :=
  match l.function with
  | some _ => (l.inst.idOperands.filter (·.2 = x)).map fun p => (l.position, p.1)
  | none => []

theorem mem_namesAt {p : Nat × Nat} : p ∈ namesAt x l ↔
    (∃ f, l.function = some f) ∧ l.position = p.1 ∧ l.inst.idAt? p.2 = some x := by
  obtain ⟨a, b⟩ := p
  unfold namesAt
  cases l.function with
  | none => simp
  | some f =>
    simp only [List.mem_map, List.mem_filter, decide_eq_true_eq, Prod.mk.injEq, Prod.exists,
      Option.some.injEq, exists_eq', true_and, ← Instruction.mem_idOperands]
    constructor
    · rintro ⟨_, _, ⟨hmem, rfl⟩, hplace, rfl⟩
      exact ⟨hplace, hmem⟩
    · rintro ⟨hplace, hmem⟩
      exact ⟨b, x, ⟨hmem, rfl⟩, hplace, rfl⟩

theorem pairwise_position_stream : m.stream.Pairwise fun l c => l.position < c.position := by
  rw [List.pairwise_iff_getElem]
  intro j k hj hk hlt
  have hl := (Module.getElem?_stream.1 (List.getElem?_eq_getElem hj)).1
  have hc := (Module.getElem?_stream.1 (List.getElem?_eq_getElem hk)).1
  rw [hl, hc]
  exact hlt

theorem pairwise_namesAt : (m.stream.flatMap (namesAt x)).Pairwise (Prod.Lex (· < ·) (· < ·)) := by
  rw [List.pairwise_flatMap]
  constructor
  · intro l _
    unfold namesAt
    cases l.function with
    | none => exact .nil
    | some f =>
      rw [List.pairwise_map]
      exact ((Instruction.pairwise_idOperands l.inst).filter _).imp fun h => .right _ h
  · refine pairwise_position_stream.imp fun hlt p hp q hq => ?_
    obtain ⟨a, b⟩ := p
    obtain ⟨c, d⟩ := q
    rw [(mem_namesAt.1 hp).2.1, (mem_namesAt.1 hq).2.1] at hlt
    exact .left _ _ hlt

theorem mem_flatMap_namesAt {p : Nat × Nat} :
    p ∈ m.stream.flatMap (namesAt x) ↔ m.Names x p := by
  simp only [List.mem_flatMap, mem_namesAt, Module.Names]
  constructor
  · rintro ⟨l, hl, ⟨f, hf⟩, hplace, hx⟩
    obtain ⟨hinst, hfunction⟩ := Module.mem_stream_iff.1 hl
    rw [hplace] at hinst hfunction
    exact ⟨l.inst, hinst, hx, f, (hfunction f).1 hf⟩
  · rintro ⟨i, hi, hx, f, hf⟩
    rw [← Module.map_inst_getElem?_stream, Option.map_eq_some_iff] at hi
    obtain ⟨l, hl, rfl⟩ := hi
    obtain ⟨hplace, _, hfunction⟩ := Module.getElem?_stream.1 hl
    exact ⟨l, List.mem_of_getElem? hl, ⟨f, (hfunction f).2 hf⟩, hplace, hx⟩

/-- The uses of an id are the places it is named at, one by one. -/
theorem forall₂_usesOfId (h : ofModule m = .ok ix) :
    List.Forall₂ (fun p u => m.instructions[p.1]? = some u.inst ∧ u.operand = p.2)
      (m.stream.flatMap (namesAt x)) (ix.usesOfId x) := by
  obtain ⟨_, _, _, _, rfl⟩ := ofModule_eq_ok.1 h
  rw [usesOfId, Grouping.under_ofPairs, List.filter_flatMap, List.map_flatMap]
  refine List.rel_flatMap (R := fun l c => l = c ∧ l ∈ m.stream)
    (List.forall₂_same.2 fun l hl => ⟨rfl, hl⟩) ?_
  rintro l _ ⟨rfl, hl⟩
  beta_reduce
  unfold namesAt usesOf
  cases l.function with
  | none => exact .nil
  | some f =>
    simp only [List.filter_map, List.map_map, List.forall₂_map_left_iff,
      List.forall₂_map_right_iff, Function.comp_def]
    exact List.forall₂_same.2 fun _ _ => ⟨(Module.mem_stream_iff.1 hl).1, rfl⟩

/-! ### The index as a whole -/

def definedTwice (n : Id) : Report := .binary s!"ID {n} has already been defined" (some n)

theorem report_eq_definedTwice {e : IndexFault} :
    e.report = definedTwice n ↔ e = .duplicateResult n := by
  constructor
  · intro h
    cases e with
    | duplicateResult id =>
      have hid : some id = some n := congrArg Report.id h
      cases hid
      rfl
    | incompleteEntryPoint => exact absurd (congrArg Report.id h) nofun
  · rintro rfl
    rfl

theorem ofModule_eq_definedTwice :
    (ofModule m).mapError IndexFault.report = .error (definedTwice n) ↔
      ∃ k, m.Repeats k n ∧ ∀ j < k, ∀ x, ¬ m.Repeats j x := by
  rw [← ofModule_eq_duplicate, mapError_eq_error]
  simp only [report_eq_definedTwice, exists_eq_right]

theorem exists_first_iff :
    (∃ n k, m.Repeats k n ∧ ∀ j < k, ∀ x, ¬ m.Repeats j x) ↔
      ∃ j k n, j ≠ k ∧ m.Gives j n ∧ m.Gives k n := by
  constructor
  · rintro ⟨n, k, ⟨hk, j, hlt, hj⟩, _⟩
    exact ⟨j, k, n, by omega, hj, hk⟩
  · rintro ⟨j, k, n, hne, hj, hk⟩
    have hsome : ∃ k n, m.Repeats k n := by
      rcases Nat.lt_or_gt_of_ne hne with hlt | hlt
      · exact ⟨k, n, hk, j, hlt, hj⟩
      · exact ⟨j, n, hj, k, hlt, hk⟩
    classical
    obtain ⟨x, hx⟩ := Nat.find_spec hsome
    exact ⟨x, Nat.find hsome, hx, fun i hi y hy => Nat.find_min hsome hi ⟨y, hy⟩⟩

/-- An index agrees with the instructions of its module. Each definition is the one instruction with
the result, at its place and with the function the place is in, and what has none is no result; the
uses of an id are the places in functions that name it, in order. -/
structure Mirrors (ix : Index) (m : Module) : Prop where
  defined : ∀ x l, ix.def? x = some l ↔
    m.instructions[l.position]? = some l.inst ∧ l.inst.result = some x ∧
      (∀ k, m.Gives k x → k = l.position) ∧
        ∀ f, l.function = some f ↔ Module.Spans m.instructions f l.position
  undefined : ∀ x, ix.def? x = none ↔ ∀ k, ¬ m.Gives k x
  uses : ∀ x, ∃ places : List (Nat × Nat), places.Pairwise (Prod.Lex (· < ·) (· < ·)) ∧
    (∀ p, p ∈ places ↔ m.Names x p) ∧
      List.Forall₂ (fun p u => m.instructions[p.1]? = some u.inst ∧ u.operand = p.2) places
        (ix.usesOfId x)

/-- A module is refused for an id that is defined twice exactly when two of its instructions have
one result, and the id named is that of the first instruction to repeat one. An index that is built
mirrors the module. The places it takes to be in a function are those of the function, if functions
begin and end as they should and nowhere else. -/
theorem ofModule_mirrors (m : Module) :
    (∀ n, (ofModule m).mapError IndexFault.report = .error (definedTwice n) ↔
      ∃ k, m.Repeats k n ∧ ∀ j < k, ∀ x, ¬ m.Repeats j x) ∧
    ((∃ n, (ofModule m).mapError IndexFault.report = .error (definedTwice n)) ↔
      ∃ j k n, j ≠ k ∧ m.Gives j n ∧ m.Gives k n) ∧
    (∀ ix, ofModule m = .ok ix → ix.Mirrors m) ∧
    ((∀ F ∈ m.functions, F.Framed) → (∀ i ∈ m.preamble, i.op ≠ .opFunction) →
      ∀ f k, Module.Spans m.instructions f k ↔ ∃ F, m.HasPlace F k ∧ F.id? = some f) := by
  refine ⟨fun n => ofModule_eq_definedTwice, ?_,
    fun ix h => ⟨fun x l => ?_, fun x => ?_, fun x => ?_⟩,
    fun hframed hout f k => Module.spans_iff_of_framed hframed hout⟩
  · simp only [ofModule_eq_definedTwice]
    exact exists_first_iff
  · exact def?_eq_some_iff_gives h
  · exact def?_eq_none_iff_gives h
  · exact ⟨_, pairwise_namesAt, fun p => mem_flatMap_namesAt, forall₂_usesOfId h⟩

def crossedTypes : Module where
  globals := [.declaring .opTypeBool 1 [], .declaring .opTypeVoid 2 [], .declaring .opTypeBool 2 [],
    .declaring .opTypeVoid 1 []]

/-- The functions that call each other are told apart by their places, and what one of them names is
among its uses. -/
theorem mirrors_mutualCalls :
    (∃ ix, ofModule mutualCalls = .ok ix ∧ ix.Mirrors mutualCalls ∧
      (∃ l, ix.def? 21 = some l ∧ l.position = 8 ∧ l.function = some 20) ∧
      Module.Spans mutualCalls.instructions 20 8 ∧ mutualCalls.Names 20 (8, 0)) ∧
    (ofModule crossedTypes).mapError IndexFault.report = .error (definedTwice 2) := by
  constructor
  · have hrun : (ofModule mutualCalls).toOption.any (fun ix =>
        (ix.def? 21).any fun l => decide (l.position = 8 ∧ l.function = some 20)) = true := by
      decide +kernel
    obtain ⟨ix, hix, hq⟩ := exists_of_any hrun
    simp only [Option.any_eq_true, decide_eq_true_eq] at hq
    obtain ⟨l, hl, hplace, hfunction⟩ := hq
    have hmirrors := (ofModule_mirrors mutualCalls).2.2.1 ix hix
    have hspans := (((hmirrors.defined 21 l).1 hl).2.2.2 20).1 hfunction
    rw [hplace] at hspans
    exact ⟨ix, hix, hmirrors, ⟨l, hl, hplace, hfunction⟩, hspans, _, rfl, rfl, 20, hspans⟩
  · refine ((ofModule_mirrors crossedTypes).1 2).2 ⟨2, ?_, ?_⟩
    · exact ⟨⟨_, rfl, rfl⟩, 1, by decide, _, rfl, rfl⟩
    · rintro j hj x ⟨⟨i, hi, hx⟩, a, ha, i', hi', hx'⟩
      obtain ⟨rfl, rfl⟩ : j = 1 ∧ a = 0 := by omega
      cases hi
      cases hi'
      cases hx
      cases hx'

end Index

end SpirvRules
