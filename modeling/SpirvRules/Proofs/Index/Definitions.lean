import SpirvRules.Index.Basic
import SpirvRules.Proofs.Outcome

/-!
# What defines an id

A module is indexed when its results are distinct and its entry points complete. The definition of
an id is then the one instruction of the stream with that result.
-/

set_option autoImplicit false

namespace SpirvRules

open Outcome

namespace Located

theorem scan_map_inst (n : Nat) (current : Option Id) (is : List Instruction) :
    (scan n current is).map inst = is := by
  induction is generalizing n current with
  | nil => rfl
  | cons i is ih => rw [scan, List.map_cons, ih]

end Located

namespace TypeView

variable {i : Instruction} {ms : List Operand}

theorem wellFormed?_eq_struct :
    wellFormed? i = some (.struct ms) ↔ i.op = .opTypeStruct ∧ i.operands = ms := by
  by_cases hop : i.op = .opTypeStruct
  · simp [wellFormed?, hop]
  · have hne : wellFormed? i ≠ some (.struct ms) := by
      intro h
      unfold wellFormed? at h
      split at h <;> first
        | exact hop ‹_›
        | simp [Option.bind_eq_some_iff] at h
        | (split at h <;> cases h)
    simp [hop, hne]

theorem ofInstruction?_eq_struct :
    ofInstruction? i = some (.struct ms) ↔ i.op = .opTypeStruct ∧ i.operands = ms := by
  rw [← wellFormed?_eq_struct, ofInstruction?]
  cases hview : wellFormed? i with
  | none => simp
  | some v =>
    by_cases hv : v = .struct ms
    · subst hv
      simp [(wellFormed?_eq_struct.1 hview).1, Opcode.declaresType]
    · simp [hv]

end TypeView

namespace Index

variable {ix : Index} {m : Module} {defs defs' : Std.TreeMap Id Located} {ls : List Located}
variable {l : Located} {id : Id}

def results (ls : List Located) : List Id := ls.filterMap fun l => l.inst.result

theorem mem_insert_iff {id' : Id} : id' ∈ defs.insert id l ↔ id = id' ∨ id' ∈ defs := by
  rw [Std.TreeMap.mem_insert, Std.LawfulEqOrd.compare_eq_iff_eq]

theorem exists_define_iff :
    (∃ defs', define ls defs = .ok defs') ↔
      (results ls).Nodup ∧ ∀ id ∈ results ls, id ∉ defs := by
  induction ls generalizing defs with
  | nil => simp [define, results]
  | cons l ls ih =>
    rw [define]
    cases hr : l.inst.result with
    | none =>
      have hskip : results (l :: ls) = results ls := by simp [results, hr]
      rw [hskip]
      exact ih
    | some id =>
      have hcons : results (l :: ls) = id :: results ls := by simp [results, hr]
      rw [hcons, List.nodup_cons, List.forall_mem_cons]
      by_cases hid : id ∈ defs
      · simp [Std.TreeMap.contains_iff_mem.2 hid, hid]
      · have hfalse : defs.contains id = false := by
          rw [← Bool.not_eq_true, Std.TreeMap.contains_iff_mem]
          exact hid
        simp only [hfalse, Bool.false_eq_true, if_false, ih, mem_insert_iff]
        constructor
        · rintro ⟨hnodup, hfresh⟩
          refine ⟨⟨fun hmem => hfresh id hmem (.inl rfl), hnodup⟩, hid, fun j hj hjd => ?_⟩
          exact hfresh j hj (.inr hjd)
        · rintro ⟨⟨hmem, hnodup⟩, _, hfresh⟩
          refine ⟨hnodup, fun j hj => ?_⟩
          rintro (rfl | hjd)
          · exact hmem hj
          · exact hfresh j hj hjd

theorem getElem?_define (h : define ls defs = .ok defs') :
    defs'[id]? = some l ↔ defs[id]? = some l ∨ l ∈ ls ∧ l.inst.result = some id := by
  induction ls generalizing defs with
  | nil =>
    cases h
    simp
  | cons k ls ih =>
    rw [define] at h
    cases hr : k.inst.result with
    | none =>
      rw [hr] at h
      rw [ih h, List.mem_cons]
      constructor
      · rintro (hd | ⟨hl, hid⟩)
        · exact .inl hd
        · exact .inr ⟨.inr hl, hid⟩
      · rintro (hd | ⟨rfl | hl, hid⟩)
        · exact .inl hd
        · rw [hr] at hid
          cases hid
        · exact .inr ⟨hl, hid⟩
    | some j =>
      rw [hr] at h
      by_cases hj : defs.contains j = true
      · simp [hj] at h
      · simp only [hj, if_false, Bool.false_eq_true] at h
        have hjd : j ∉ defs := fun hmem => hj (Std.TreeMap.contains_iff_mem.2 hmem)
        have hget : (defs.insert j k)[id]? = some l ↔
            defs[id]? = some l ∨ l = k ∧ k.inst.result = some id := by
          rw [Std.TreeMap.getElem?_insert, hr]
          by_cases hji : j = id
          · subst hji
            simp [Std.TreeMap.getElem?_eq_none hjd, eq_comm]
          · have hne : compare j id ≠ .eq := fun hc => hji (Std.LawfulEqOrd.eq_of_compare hc)
            simp [hne, hji]
        rw [ih h, hget, List.mem_cons]
        constructor
        · rintro ((hd | ⟨rfl, hid⟩) | ⟨hl, hid⟩)
          · exact .inl hd
          · exact .inr ⟨.inl rfl, hid⟩
          · exact .inr ⟨.inr hl, hid⟩
        · rintro (hd | ⟨rfl | hl, hid⟩)
          · exact .inl (.inl hd)
          · exact .inl (.inr ⟨rfl, hid⟩)
          · exact .inr ⟨hl, hid⟩

theorem ofModule_eq_ok :
    ofModule m = .ok ix ↔ ∃ defs entryPoints, define m.stream ∅ = .ok defs ∧
      entryPointsOf m = .ok entryPoints ∧
      ix = ⟨m, defs, .ofPairs (m.stream.flatMap usesOf), entryPoints,
        (CallGraph.ofStream m.stream).staticUse (entryPoints.map EntryPoint.function)⟩ := by
  simp only [ofModule, bind_eq_ok, pure, Except.pure, Except.ok.injEq]
  constructor
  · rintro ⟨defs, hdefs, eps, heps, rfl⟩
    exact ⟨defs, eps, hdefs, heps, rfl⟩
  · rintro ⟨defs, eps, hdefs, heps, rfl⟩
    exact ⟨defs, hdefs, eps, heps, rfl⟩

/-- The definition of an id is the instruction of the stream with that result. -/
theorem def?_eq_some_iff (h : ofModule m = .ok ix) :
    ix.def? id = some l ↔ l ∈ m.stream ∧ l.inst.result = some id := by
  obtain ⟨defs, eps, hdefs, _, rfl⟩ := ofModule_eq_ok.1 h
  rw [def?, getElem?_define hdefs]
  simp

theorem module_eq (h : ofModule m = .ok ix) : ix.module = m := by
  obtain ⟨_, _, _, _, rfl⟩ := ofModule_eq_ok.1 h
  rfl

theorem inst?_eq_some (h : ofModule m = .ok ix) {i : Instruction} (hi : i ∈ m.instructions)
    (hid : i.result = some id) : ix.inst? id = some i := by
  rw [← Located.scan_map_inst 0 none m.instructions] at hi
  obtain ⟨l, hl, rfl⟩ := List.mem_map.1 hi
  rw [inst?, (def?_eq_some_iff h).2 ⟨hl, hid⟩, Option.map_some]

theorem type?_eq_struct {ms : List Operand} :
    ix.type? id = some (.struct ms) ↔
      ∃ l, ix.def? id = some l ∧ l.inst.op = .opTypeStruct ∧ l.inst.operands = ms := by
  simp only [type?, inst?, Option.bind_eq_some_iff, Option.map_eq_some_iff,
    TypeView.ofInstruction?_eq_struct]
  constructor
  · rintro ⟨_, ⟨l, hl, rfl⟩, hstruct⟩
    exact ⟨l, hl, hstruct⟩
  · rintro ⟨l, hl, hstruct⟩
    exact ⟨l.inst, ⟨l, hl, rfl⟩, hstruct⟩

end Index

end SpirvRules
