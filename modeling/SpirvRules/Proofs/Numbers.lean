import SpirvRules.Proofs.Decoration.Expansion

/-!
# Numbers that lay out memory

Offsets and strides are numbers behind a decoration. Zero in place of each leaves an instruction
with the same operation, type, result, first operand and ids, and layout apart nothing else is read
of an instruction that decorates.
-/

set_option autoImplicit false

namespace SpirvRules

section Alike

variable {α β : Type} {e : α → α} {l l' : List α} (h : l.map e = l'.map e)

include h

/-! Lists that look alike through `e` are alike to all that is read through `e`. -/

theorem map_eq_of_alike {f : α → β} (hf : ∀ a, f (e a) = f a) : l.map f = l'.map f := by
  have hmap : ∀ l : List α, l.map f = (l.map e).map f := by
    intro l
    rw [List.map_map]
    exact List.map_congr_left fun a _ => (hf a).symm
  rw [hmap, h, ← hmap]

theorem filterMap_eq_of_alike {f : α → Option β} (hf : ∀ a, f (e a) = f a) :
    l.filterMap f = l'.filterMap f := by
  have hmap : ∀ l : List α, l.filterMap f = (l.map f).filterMap id := by
    intro l
    rw [List.filterMap_map]
    rfl
  rw [hmap, map_eq_of_alike h hf, ← hmap]

theorem flatMap_eq_of_alike {f : α → List β} (hf : ∀ a, f (e a) = f a) :
    l.flatMap f = l'.flatMap f := by
  rw [List.flatMap_def, List.flatMap_def, map_eq_of_alike h hf]

theorem any_eq_of_alike {p : α → Bool} (hp : ∀ a, p (e a) = p a) : l.any p = l'.any p := by
  have hmap : ∀ l : List α, l.any p = (l.map p).any (·) := by
    intro l
    rw [List.any_map]
    rfl
  rw [hmap, map_eq_of_alike h hp, ← hmap]

theorem mapM_eq_of_alike {ε : Type} {f : α → Except ε β} (hf : ∀ a, f (e a) = f a) :
    l.mapM f = l'.mapM f := by
  have hmap : ∀ l : List α, l.mapM f = (l.map f).mapM (·) := by
    intro l
    induction l with
    | nil => rfl
    | cons a l ih => rw [List.mapM_cons, List.map_cons, List.mapM_cons, ih]
  rw [hmap, map_eq_of_alike h hf, ← hmap]

theorem forall_mem_of_alike {P : α → Prop} (hP : ∀ a, P (e a) ↔ P a) :
    (∀ a ∈ l, P a) ↔ ∀ a ∈ l', P a := by
  have hmap : ∀ l : List α, (∀ a ∈ l, P a) ↔ ∀ a ∈ l.map e, P a := by
    intro l
    rw [List.forall_mem_map]
    exact forall_congr' fun a => imp_congr_right fun _ => (hP a).symm
  rw [hmap, h, ← hmap]

end Alike

namespace DecorationKind

def isNumbered : DecorationKind → Bool
  | .offset | .arrayStride | .matrixStride => true
  | _ => false

end DecorationKind

namespace Operand

def unnumbered : Operand → Operand
  | .literal _ => .literal 0
  | .literal64 _ => .literal64 0
  | o => o

def unnumberedAll : List Operand → List Operand
  | [] => []
  | .decoration k :: params =>
    .decoration k :: if k.isNumbered then params.map unnumbered else params
  | o :: rest => o :: unnumberedAll rest

theorem anyId?_unnumbered (o : Operand) : o.unnumbered.anyId? = o.anyId? := by
  cases o <;> rfl

/-- What is read of each operand and is the same for all numbers, does not change. -/
theorem map_unnumberedAll {β : Type} {f : Operand → β} (hf : ∀ o, f o.unnumbered = f o)
    (os : List Operand) : (unnumberedAll os).map f = os.map f := by
  fun_induction unnumberedAll os with
  | case1 => rfl
  | case2 k params =>
    rw [List.map_cons, List.map_cons]
    split
    · rw [List.map_map]
      exact congrArg (f (decoration k) :: ·) (List.map_congr_left fun o _ => hf o)
    · rfl
  | case3 o rest _ ih => rw [List.map_cons, ih, List.map_cons]

theorem getElem?_zero_unnumberedAll (os : List Operand) : (unnumberedAll os)[0]? = os[0]? := by
  fun_cases unnumberedAll os <;> rfl

end Operand

namespace Instruction

variable (i : Instruction)

def unnumbered (i : Instruction) : Instruction :=
  if i.isDirect then { i with operands := Operand.unnumberedAll i.operands } else i

@[simp] theorem op_unnumbered : i.unnumbered.op = i.op := by
  unfold unnumbered
  split <;> rfl

@[simp] theorem resultType_unnumbered : i.unnumbered.resultType = i.resultType := by
  unfold unnumbered
  split <;> rfl

@[simp] theorem result_unnumbered : i.unnumbered.result = i.result := by
  unfold unnumbered
  split <;> rfl

theorem unnumbered_eq {i : Instruction} (h : i.isDirect = false) : i.unnumbered = i := by
  rw [unnumbered, h]
  rfl

theorem map_operands_unnumbered {β : Type} {f : Operand → β} (hf : ∀ o, f o.unnumbered = f o) :
    i.unnumbered.operands.map f = i.operands.map f := by
  unfold unnumbered
  split
  · exact Operand.map_unnumberedAll hf _
  · rfl

@[simp] theorem operand?_zero_unnumbered : i.unnumbered.operand? 0 = i.operand? 0 := by
  unfold unnumbered
  split
  · exact Operand.getElem?_zero_unnumberedAll _
  · rfl

theorem head?_operands_unnumbered : i.unnumbered.operands.head? = i.operands.head? := by
  rw [List.head?_eq_getElem?, List.head?_eq_getElem?]
  exact operand?_zero_unnumbered i

theorem map_anyId?_unnumbered :
    i.unnumbered.operands.map Operand.anyId? = i.operands.map Operand.anyId? :=
  map_operands_unnumbered i Operand.anyId?_unnumbered

@[simp] theorem idAt?_unnumbered (n : Nat) : i.unnumbered.idAt? n = i.idAt? n := by
  have hget : ∀ j : Instruction, j.idAt? n = (j.operands.map Operand.anyId?)[n]?.join := by
    intro j
    rw [idAt?, operand?, List.getElem?_map]
    cases j.operands[n]? <;> rfl
  rw [hget, hget, map_anyId?_unnumbered]

theorem filterMap_anyId?_unnumbered (n : Nat) :
    (i.unnumbered.operands.drop n).filterMap Operand.anyId? =
      (i.operands.drop n).filterMap Operand.anyId? := by
  have hfilter : ∀ j : Instruction, (j.operands.drop n).filterMap Operand.anyId? =
      ((j.operands.map Operand.anyId?).drop n).filterMap id := by
    intro j
    rw [← List.map_drop, List.filterMap_map]
    rfl
  rw [hfilter, hfilter, map_anyId?_unnumbered]

@[simp] theorem idOperands_unnumbered : i.unnumbered.idOperands = i.idOperands := by
  have hids : ∀ j : Instruction, j.idOperands =
      (j.operands.map Operand.anyId?).zipIdx.filterMap fun (o, n) => o.map (n, ·) := by
    intro j
    rw [idOperands, List.zipIdx_map, List.filterMap_map]
    rfl
  rw [hids, hids, map_anyId?_unnumbered]

end Instruction

theorem TypeView.ofInstruction?_unnumbered (i : Instruction) :
    ofInstruction? i.unnumbered = ofInstruction? i := by
  obtain ⟨op, resultType, result, operands⟩ := i
  cases op <;> rfl

theorem Index.nameGiven?_unnumbered (i : Instruction) : nameGiven? i.unnumbered = nameGiven? i := by
  obtain ⟨op, resultType, result, operands⟩ := i
  cases op <;> rfl

namespace EntryPoint

def textOf : Operand → String
  | .text s => s
  | _ => ""

theorem ofInstruction?_eq (i : Instruction) : ofInstruction? i =
    match i.operand? 0, i.idAt? 1 with
    | some (.executionModel model), some function =>
      some ⟨model, function, (i.operands.map textOf)[2]?.getD "",
        (i.operands.drop 3).filterMap Operand.anyId?⟩
    | _, _ => none := by
  rw [List.getElem?_map, ofInstruction?, Instruction.operand?, Instruction.operand?]
  cases i.operands[2]? with
  | none => rfl
  | some o => cases o <;> rfl

theorem ofInstruction?_unnumbered (i : Instruction) :
    ofInstruction? i.unnumbered = ofInstruction? i := by
  have htext : ∀ o : Operand, textOf o.unnumbered = textOf o := by
    intro o
    cases o <;> rfl
  rw [ofInstruction?_eq, ofInstruction?_eq, Instruction.map_operands_unnumbered i htext,
    Instruction.operand?_zero_unnumbered, Instruction.idAt?_unnumbered,
    Instruction.filterMap_anyId?_unnumbered]

end EntryPoint

namespace Located

variable (l : Located)

def unnumbered (l : Located) : Located := { l with inst := l.inst.unnumbered }

theorem scan_unnumbered (n : Nat) (current : Option Id) (is : List Instruction) :
    scan n current (is.map Instruction.unnumbered) = (scan n current is).map unnumbered := by
  induction is generalizing n current with
  | nil => rfl
  | cons i is ih =>
    have henter : enter current i.unnumbered = enter current i := by
      rw [enter, Instruction.op_unnumbered, Instruction.result_unnumbered, ← enter]
    have hleave : ∀ c, leave c i.unnumbered = leave c i := by
      intro c
      rw [leave, Instruction.op_unnumbered, ← leave]
    rw [List.map_cons, scan, scan, henter, hleave, ih]
    rfl

theorem mentions_unnumbered : mentions l.unnumbered = mentions l := by
  simp only [mentions, unnumbered, Instruction.idOperands_unnumbered]

theorem call?_unnumbered : call? l.unnumbered = call? l := by
  simp only [call?, unnumbered, Instruction.op_unnumbered, Instruction.idAt?_unnumbered]

end Located

def Use.unnumbered (u : Use) : Use := { u with inst := u.inst.unnumbered }

def Block.unnumbered (b : Block) : Block :=
  ⟨b.label.map Instruction.unnumbered, b.body.map Instruction.unnumbered⟩

def Function.unnumbered (f : Function) : Function :=
  ⟨f.head.map Instruction.unnumbered, f.parameters.map Instruction.unnumbered,
    f.blocks.map Block.unnumbered, f.tail.map Instruction.unnumbered⟩

def Module.unnumbered (m : Module) : Module where
  version := m.version
  capabilities := m.capabilities.map Instruction.unnumbered
  extensions := m.extensions.map Instruction.unnumbered
  extInstImports := m.extInstImports.map Instruction.unnumbered
  memoryModel := m.memoryModel.map Instruction.unnumbered
  entryPoints := m.entryPoints.map Instruction.unnumbered
  executionModes := m.executionModes.map Instruction.unnumbered
  debugStrings := m.debugStrings.map Instruction.unnumbered
  debugNames := m.debugNames.map Instruction.unnumbered
  annotations := m.annotations.map Instruction.unnumbered
  globals := m.globals.map Instruction.unnumbered
  functions := m.functions.map Function.unnumbered

theorem Block.instructions_unnumbered (b : Block) :
    b.unnumbered.instructions = b.instructions.map Instruction.unnumbered := by
  simp only [instructions, unnumbered, List.map_append, Option.toList_map]

theorem Function.instructions_unnumbered (f : Function) :
    f.unnumbered.instructions = f.instructions.map Instruction.unnumbered := by
  simp only [instructions, unnumbered, List.map_append, Option.toList_map, List.flatMap_map,
    List.map_flatMap, Block.instructions_unnumbered]

theorem Module.stream_unnumbered (m : Module) :
    m.unnumbered.stream = m.stream.map Located.unnumbered := by
  have hinstructions : m.unnumbered.instructions = m.instructions.map Instruction.unnumbered := by
    simp only [instructions, unnumbered, List.map_append, Option.toList_map, List.flatMap_map,
      List.map_flatMap, Function.instructions_unnumbered]
  rw [stream, hinstructions, Located.scan_unnumbered]
  rfl

end SpirvRules
