import Mathlib.Tactic.SplitIfs
import SpirvRules.Proofs.Index.Definitions
import SpirvRules.Proofs.Validation

/-!
# Places in functions

A function begins with its `OpFunction` and goes on to its `OpFunctionEnd`, wherever these stand.
The pass over the instructions finds out for each place which function it is in. Where functions
begin and end as they should, that is the function of the module which has the place.
-/

set_option autoImplicit false

namespace SpirvRules

def Function.id? (F : Function) : Option Id := F.head.bind Instruction.result

/-- A function with its `OpFunction`, its `OpFunctionEnd` and no other of either. -/
structure Function.Framed (F : Function) : Prop where
  head : ∃ i, F.head = some i ∧ i.op = .opFunction
  inner : ∀ i ∈ F.parameters ++ F.blocks.flatMap Block.instructions,
    i.op ≠ .opFunction ∧ i.op ≠ .opFunctionEnd
  tail : ∃ i, F.tail = some i ∧ i.op = .opFunctionEnd

theorem Function.framed_ofBody {id : Id} {body : List Instruction}
    (h : ∀ i ∈ body, i.op ≠ .opFunction ∧ i.op ≠ .opFunctionEnd) : (ofBody id body).Framed where
  head := ⟨_, rfl, rfl⟩
  inner := by simpa [ofBody, Block.instructions] using h
  tail := ⟨_, rfl, rfl⟩

namespace Module

def functionRest : List Instruction → List Instruction
  | [] => []
  | i :: rest =>
    if i.op = .opFunction then []
    else if i.op = .opFunctionEnd then [i]
    else i :: functionRest rest

/-- Among some instructions, one stands in the function `f`, from its `OpFunction` to its end. -/
def Stands (is : List Instruction) (f : Id) (i : Instruction) : Prop :=
  ∃ head rest, head :: rest <:+ is ∧ head.op = .opFunction ∧ head.result = some f ∧
    i ∈ head :: functionRest rest

/-- Among some instructions, a place is in the function `f`: at an `OpFunction` with the result `f`,
or behind it as far as its end. -/
def Spans (is : List Instruction) (f : Id) (k : Nat) : Prop :=
  ∃ s head rest, is.drop s = head :: rest ∧ head.op = .opFunction ∧ head.result = some f ∧
    s ≤ k ∧ k ≤ s + (functionRest rest).length

def preamble (m : Module) : List Instruction :=
  m.capabilities ++ m.extensions ++ m.extInstImports ++ m.memoryModel.toList ++ m.entryPoints ++
    m.executionModes ++ m.debugStrings ++ m.debugNames ++ m.annotations ++ m.globals

/-- A place of a function, among the instructions of the module: those of the preamble and of the
functions before it come first. -/
def HasPlace (m : Module) (F : Function) (k : Nat) : Prop :=
  ∃ before after a, m.functions = before ++ F :: after ∧ a < F.instructions.length ∧
    k = m.preamble.length + (before.flatMap Function.instructions).length + a

variable {m : Module} {is js : List Instruction} {F : Function} {f : Id} {i j : Instruction}
variable {k : Nat}

theorem stands_cons :
    Stands (j :: is) f i ↔
      j.op = .opFunction ∧ j.result = some f ∧ i ∈ j :: functionRest is ∨ Stands is f i := by
  simp only [Stands, List.suffix_cons_iff]
  constructor
  · rintro ⟨head, rest, h | h, hin⟩
    · cases h
      exact .inl hin
    · exact .inr ⟨head, rest, h, hin⟩
  · rintro (hin | ⟨head, rest, h, hin⟩)
    · exact ⟨j, is, .inl rfl, hin⟩
    · exact ⟨head, rest, .inr h, hin⟩

theorem spans_cons_zero : Spans (j :: is) f 0 ↔ j.op = .opFunction ∧ j.result = some f := by
  constructor
  · rintro ⟨s, head, rest, hdrop, hop, hid, hs, _⟩
    obtain rfl := Nat.le_zero.1 hs
    cases hdrop
    exact ⟨hop, hid⟩
  · rintro ⟨hop, hid⟩
    exact ⟨0, j, is, rfl, hop, hid, Nat.le_refl _, Nat.zero_le _⟩

theorem spans_cons_succ :
    Spans (j :: is) f (k + 1) ↔
      j.op = .opFunction ∧ j.result = some f ∧ k < (functionRest is).length ∨ Spans is f k := by
  constructor
  · rintro ⟨s, head, rest, hdrop, hop, hid, hs, hk⟩
    cases s with
    | zero =>
      cases hdrop
      exact .inl ⟨hop, hid, by omega⟩
    | succ s => exact .inr ⟨s, head, rest, hdrop, hop, hid, by omega, by omega⟩
  · rintro (⟨hop, hid, hk⟩ | ⟨s, head, rest, hdrop, hop, hid, hs, hk⟩)
    · exact ⟨0, j, is, rfl, hop, hid, by omega, by omega⟩
    · exact ⟨s + 1, head, rest, hdrop, hop, hid, by omega, by omega⟩

theorem spans_append (h : ∀ i ∈ is, i.op ≠ .opFunction) :
    Spans (is ++ js) f k ↔ ∃ a, k = is.length + a ∧ Spans js f a := by
  induction is generalizing k with
  | nil => simp
  | cons j is ih =>
    obtain ⟨hj, his⟩ := List.forall_mem_cons.1 h
    cases k with
    | zero =>
      rw [List.cons_append, spans_cons_zero, List.length_cons]
      constructor
      · rintro ⟨hop, _⟩
        exact absurd hop hj
      · rintro ⟨a, ha, _⟩
        omega
    | succ k =>
      rw [List.cons_append, spans_cons_succ, ih his, List.length_cons]
      simp only [hj, false_and, false_or]
      constructor
      · rintro ⟨a, rfl, ha⟩
        exact ⟨a, by omega, ha⟩
      · rintro ⟨a, hk, ha⟩
        exact ⟨a, by omega, ha⟩

theorem getElem?_functionRest (hk : k < (functionRest is).length) :
    (functionRest is)[k]? = is[k]? := by
  induction is generalizing k with
  | nil => rfl
  | cons j is ih =>
    rw [functionRest] at hk ⊢
    split_ifs at hk ⊢
    · cases hk
    · obtain rfl := Nat.lt_one_iff.1 hk
      rfl
    · cases k with
      | zero => rfl
      | succ k => exact ih (Nat.lt_of_succ_lt_succ hk)

theorem stands_iff_spans : Stands is f i ↔ ∃ k, is[k]? = some i ∧ Spans is f k := by
  induction is with
  | nil => simp [Stands]
  | cons j is ih =>
    rw [stands_cons, ih]
    constructor
    · rintro (⟨hop, hid, hin⟩ | ⟨k, hk, hspans⟩)
      · rcases List.mem_cons.1 hin with rfl | hin
        · exact ⟨0, rfl, spans_cons_zero.2 ⟨hop, hid⟩⟩
        · obtain ⟨k, hlt, hk⟩ := List.getElem_of_mem hin
          rw [← Option.some.injEq, ← List.getElem?_eq_getElem, getElem?_functionRest hlt] at hk
          exact ⟨k + 1, hk, spans_cons_succ.2 (.inl ⟨hop, hid, hlt⟩)⟩
      · exact ⟨k + 1, hk, spans_cons_succ.2 (.inr hspans)⟩
    · rintro ⟨k, hk, hspans⟩
      cases k with
      | zero =>
        cases hk
        obtain ⟨hop, hid⟩ := spans_cons_zero.1 hspans
        exact .inl ⟨hop, hid, List.mem_cons_self⟩
      | succ k =>
        rcases spans_cons_succ.1 hspans with ⟨hop, hid, hlt⟩ | hspans
        · rw [List.getElem?_cons_succ, ← getElem?_functionRest hlt] at hk
          exact .inl ⟨hop, hid, List.mem_cons_of_mem _ (List.mem_of_getElem? hk)⟩
        · exact .inr ⟨k, hk, hspans⟩

/-! ### Functions that begin and end as they should -/

theorem functionRest_framed {tail : Instruction} {js : List Instruction}
    (h : ∀ i ∈ is, i.op ≠ .opFunction ∧ i.op ≠ .opFunctionEnd) (ht : tail.op = .opFunctionEnd) :
    functionRest (is ++ tail :: js) = is ++ [tail] := by
  induction is with
  | nil => simp [functionRest, ht]
  | cons j is ih =>
    obtain ⟨⟨hj, hj'⟩, his⟩ := List.forall_mem_cons.1 h
    rw [List.cons_append, functionRest, if_neg hj, if_neg hj', ih his, List.cons_append]

end Module

/-- A framed function is its `OpFunction` and what follows up to its end, whatever comes after. -/
theorem Function.Framed.exists_body {F : Function} (hF : F.Framed) : ∃ head body,
    F.instructions = head :: body ∧ head.op = .opFunction ∧ F.id? = head.result ∧
      (∀ i ∈ body, i.op ≠ .opFunction) ∧ ∀ js, Module.functionRest (body ++ js) = body := by
  obtain ⟨head, hhead, hop⟩ := hF.head
  obtain ⟨tail, htail, hend⟩ := hF.tail
  refine ⟨head, F.parameters ++ F.blocks.flatMap Block.instructions ++ [tail], ?_, hop, ?_, ?_, ?_⟩
  · simp [Function.instructions, hhead, htail]
  · rw [Function.id?, hhead, Option.bind_some]
  · intro i hi
    rcases List.mem_append.1 hi with hi | hi
    · exact (hF.inner i hi).1
    · rw [List.mem_singleton.1 hi, hend]
      decide
  · intro js
    rw [List.append_assoc, List.singleton_append]
    exact Module.functionRest_framed hF.inner hend

namespace Module

variable {m : Module} {is js : List Instruction} {F : Function} {f : Id} {i j : Instruction}
variable {k : Nat}

theorem spans_framed (hF : F.Framed) :
    Spans (F.instructions ++ js) f k ↔
      F.id? = some f ∧ k < F.instructions.length ∨
        ∃ a, k = F.instructions.length + a ∧ Spans js f a := by
  obtain ⟨head, body, hinstructions, hop, hid, hbody, hrest⟩ := hF.exists_body
  rw [hinstructions, List.cons_append, hid]
  cases k with
  | zero =>
    rw [spans_cons_zero, and_iff_right hop]
    simp
    omega
  | succ k =>
    rw [spans_cons_succ, spans_append hbody, hrest, and_iff_right hop]
    simp only [List.length_cons]
    constructor
    · rintro (h | ⟨a, rfl, ha⟩)
      · exact .inl ⟨h.1, by omega⟩
      · exact .inr ⟨a, by omega, ha⟩
    · rintro (h | ⟨a, hk, ha⟩)
      · exact .inl ⟨h.1, by omega⟩
      · exact .inr ⟨a, by omega, ha⟩

/-- Where every function is framed and none begins outside them, a place is in the function it is
a place of. -/
theorem spans_iff_of_framed (hm : ∀ F ∈ m.functions, F.Framed)
    (hout : ∀ i ∈ m.preamble, i.op ≠ .opFunction) :
    Spans m.instructions f k ↔ ∃ F, m.HasPlace F k ∧ F.id? = some f := by
  rw [show m.instructions = m.preamble ++ m.functions.flatMap Function.instructions from rfl,
    spans_append hout]
  simp only [HasPlace, Nat.add_assoc]
  generalize m.functions = Fs at hm
  have hfunctions : ∀ k, Spans (Fs.flatMap Function.instructions) f k ↔
      ∃ before F after a, Fs = before ++ F :: after ∧ F.id? = some f ∧
        a < F.instructions.length ∧ k = (before.flatMap Function.instructions).length + a := by
    induction Fs with
    | nil => simp [Spans]
    | cons F Fs ih =>
      obtain ⟨hF, hFs⟩ := List.forall_mem_cons.1 hm
      intro k
      rw [List.flatMap_cons, spans_framed hF]
      simp only [ih hFs]
      constructor
      · rintro (⟨hid, hk⟩ | ⟨_, rfl, before, G, after, a, rfl, hid, ha, rfl⟩)
        · exact ⟨[], F, Fs, k, rfl, hid, hk, by simp⟩
        · exact ⟨F :: before, G, after, a, rfl, hid, ha, by simp; omega⟩
      · rintro ⟨before, G, after, a, hsplit, hid, ha, rfl⟩
        cases before with
        | nil =>
          cases hsplit
          exact .inl ⟨hid, by simpa using ha⟩
        | cons E before =>
          cases hsplit
          exact .inr ⟨_, by simp; omega, before, G, after, a, rfl, hid, ha, rfl⟩
  simp only [hfunctions]
  constructor
  · rintro ⟨_, rfl, before, F, after, a, hsplit, hid, ha, rfl⟩
    exact ⟨F, ⟨before, after, a, hsplit, ha, rfl⟩, hid⟩
  · rintro ⟨F, ⟨before, after, a, hsplit, ha, rfl⟩, hid⟩
    exact ⟨_, rfl, before, F, after, a, hsplit, hid, ha, rfl⟩

theorem exists_hasPlace_iff :
    (∃ k, m.instructions[k]? = some i ∧ m.HasPlace F k) ↔
      F ∈ m.functions ∧ i ∈ F.instructions := by
  have hget : ∀ before after a, m.functions = before ++ F :: after → a < F.instructions.length →
      m.instructions[m.preamble.length + (before.flatMap Function.instructions).length + a]? =
        F.instructions[a]? := by
    intro before after a hsplit ha
    rw [show m.instructions = m.preamble ++ m.functions.flatMap Function.instructions from rfl,
      hsplit, List.flatMap_append, List.flatMap_cons, Nat.add_assoc,
      List.getElem?_append_right (Nat.le_add_right _ _), Nat.add_sub_cancel_left,
      List.getElem?_append_right (Nat.le_add_right _ _), Nat.add_sub_cancel_left,
      List.getElem?_append_left ha]
  constructor
  · rintro ⟨_, hk, before, after, a, hsplit, ha, rfl⟩
    rw [hget before after a hsplit ha] at hk
    rw [hsplit]
    exact ⟨List.mem_append_right _ List.mem_cons_self, List.mem_of_getElem? hk⟩
  · rintro ⟨hF, hi⟩
    obtain ⟨before, after, hsplit⟩ := List.append_of_mem hF
    obtain ⟨a, ha, rfl⟩ := List.getElem_of_mem hi
    refine ⟨_, ?_, before, after, a, hsplit, ha, rfl⟩
    rw [hget before after a hsplit ha, List.getElem?_eq_getElem]

/-- Where every function is framed and none begins outside them, what stands in a function is what
the function holds. -/
theorem stands_iff_of_framed (hm : ∀ F ∈ m.functions, F.Framed)
    (hout : ∀ i ∈ m.preamble, i.op ≠ .opFunction) :
    Stands m.instructions f i ↔ ∃ F ∈ m.functions, F.id? = some f ∧ i ∈ F.instructions := by
  simp only [stands_iff_spans, spans_iff_of_framed hm hout]
  constructor
  · rintro ⟨k, hk, F, hplace, hid⟩
    obtain ⟨hF, hi⟩ := exists_hasPlace_iff.1 ⟨k, hk, hplace⟩
    exact ⟨F, hF, hid, hi⟩
  · rintro ⟨F, hF, hid, hi⟩
    obtain ⟨k, hk, hplace⟩ := exists_hasPlace_iff.2 ⟨hF, hi⟩
    exact ⟨k, hk, F, hplace, hid⟩

end Module

/-! ### The pass over the instructions -/

namespace Located

variable {is : List Instruction} {f : Id} {l : Located} {k n : Nat} {current : Option Id}

theorem inst_getElem?_scan : ((scan n current is)[k]?).map inst = is[k]? := by
  rw [← List.getElem?_map, scan_map_inst]

theorem position_of_getElem? (h : (scan n current is)[k]? = some l) : l.position = n + k := by
  induction is generalizing n current k with
  | nil => cases h
  | cons i is ih =>
    cases k with
    | zero =>
      cases h
      rfl
    | succ k =>
      rw [ih h]
      omega

/-- The pass puts a place in the function left open before it, up to that function's end, and in
those that begin later. -/
theorem function_of_getElem? (h : (scan n current is)[k]? = some l) :
    l.function = some f ↔
      current = some f ∧ k < (Module.functionRest is).length ∨ Module.Spans is f k := by
  induction is generalizing n current k with
  | nil => cases h
  | cons j is ih =>
    cases k with
    | zero =>
      cases h
      rw [Module.spans_cons_zero, Module.functionRest]
      by_cases hbegin : j.op = .opFunction
      · simp [enter, hbegin]
      · by_cases hend : j.op = .opFunctionEnd <;> simp [enter, hbegin, hend]
    | succ k =>
      rw [Module.spans_cons_succ, ih h, Module.functionRest]
      by_cases hbegin : j.op = .opFunction
      · simp only [enter, leave, hbegin, reduceCtorEq, if_true, if_false, true_and]
        grind
      · by_cases hend : j.op = .opFunctionEnd
        · simp [leave, hend]
        · simp [enter, leave, hbegin, hend]

end Located

namespace Module

variable {m : Module} {l : Located} {k : Nat}

theorem map_inst_getElem?_stream : (m.stream[k]?).map Located.inst = m.instructions[k]? :=
  Located.inst_getElem?_scan

theorem getElem?_stream : m.stream[k]? = some l ↔
    l.position = k ∧ m.instructions[k]? = some l.inst ∧
      ∀ f, l.function = some f ↔ Spans m.instructions f k := by
  have hplace : ∀ {c : Located}, m.stream[k]? = some c → c.position = k ∧
      m.instructions[k]? = some c.inst ∧
        ∀ f, c.function = some f ↔ Spans m.instructions f k := by
    intro c hc
    refine ⟨(Located.position_of_getElem? hc).trans (Nat.zero_add k), ?_, fun f => ?_⟩
    · rw [← map_inst_getElem?_stream, hc, Option.map_some]
    · rw [Located.function_of_getElem? hc]
      simp
  refine ⟨hplace, fun ⟨hposition, hinst, hfunction⟩ => ?_⟩
  rw [← map_inst_getElem?_stream, Option.map_eq_some_iff] at hinst
  obtain ⟨c, hc, hci⟩ := hinst
  obtain ⟨hcposition, _, hcfunction⟩ := hplace hc
  have hsame : c.function = l.function := by
    ext f
    rw [hcfunction, hfunction]
  obtain ⟨inst, position, function⟩ := l
  obtain ⟨inst', position', function'⟩ := c
  cases hci
  cases hsame
  cases hposition
  cases hcposition
  exact hc

theorem mem_stream_iff : l ∈ m.stream ↔ m.instructions[l.position]? = some l.inst ∧
    ∀ f, l.function = some f ↔ Spans m.instructions f l.position := by
  rw [List.mem_iff_getElem?]
  simp only [getElem?_stream]
  constructor
  · rintro ⟨_, rfl, h⟩
    exact h
  · exact fun h => ⟨_, rfl, h⟩

/-- What the stream puts in a function is what stands in it. -/
theorem exists_mem_stream_iff {f : Id} {P : Instruction → Prop} :
    (∃ l ∈ m.stream, l.function = some f ∧ P l.inst) ↔ ∃ i, Stands m.instructions f i ∧ P i := by
  constructor
  · rintro ⟨l, hl, hf, hP⟩
    obtain ⟨hinst, hfunction⟩ := mem_stream_iff.1 hl
    exact ⟨l.inst, stands_iff_spans.2 ⟨l.position, hinst, (hfunction f).1 hf⟩, hP⟩
  · rintro ⟨i, hstands, hP⟩
    obtain ⟨k, hk, hspans⟩ := stands_iff_spans.1 hstands
    rw [← map_inst_getElem?_stream, Option.map_eq_some_iff] at hk
    obtain ⟨l, hl, rfl⟩ := hk
    exact ⟨l, List.mem_of_getElem? hl, ((getElem?_stream.1 hl).2.2 f).2 hspans, hP⟩

end Module

end SpirvRules
