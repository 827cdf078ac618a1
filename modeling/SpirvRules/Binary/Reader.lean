import SpirvRules.Binary.Grammar

/-!
# Reading the binary form

A binary is a stream of little-endian words: a header of five, then instructions, each headed by a
word with the number of its words and its opcode. What is left of the stream when not even that word
is whole is ignored. Of the opcodes it reads those of the grammar; it is one loader among others.
-/

set_option autoImplicit false

namespace SpirvRules.Binary

/-!
### Assembling a module

Instructions come one by one and go where they belong. Functions do not nest, nor do blocks, and a
module ends outside both. Everything gathered stands in reverse until the end.
-/

structure Assembly where
  placed : List (Section × Instruction) := []
  functions : List Function := []
  /-- The function under way. -/
  function? : Option Function := none
  /-- The block under way. -/
  block? : Option Block := none

namespace Assembly

def add (a : Assembly) (p : Place) (i : Instruction) : Except AssemblyFault Assembly :=
  match p, a.function?, a.block? with
  | .within s, _, _ => .ok { a with placed := (s, i) :: a.placed }
  | .functionHead, some _, _ => .error .nestedFunction
  | .functionHead, none, _ => .ok { a with function? := some { head := some i } }
  | .parameter, none, _ => .error .parameterOutsideFunction
  | .parameter, some f, _ =>
    .ok { a with function? := some { f with parameters := i :: f.parameters } }
  | .label, none, _ => .error .blockOutsideFunction
  | .label, some _, some _ => .error .nestedBlock
  | .label, some _, none => .ok { a with block? := some { label := some i } }
  | .terminator, some f, some b =>
    let block := { b with body := (i :: b.body).reverse }
    .ok { a with function? := some { f with blocks := block :: f.blocks }, block? := none }
  | .terminator, _, _ => .error .returnOutsideBlock
  | .functionTail, none, _ => .error .endOutsideFunction
  | .functionTail, some _, some _ => .error .openBlock
  | .functionTail, some f, none =>
    let function := { f with
      parameters := f.parameters.reverse, blocks := f.blocks.reverse, tail := some i }
    .ok { a with functions := function :: a.functions, function? := none }

def sectionOf (a : Assembly) (s : Section) : List Instruction :=
  ((a.placed.filter (·.1 = s)).map (·.2)).reverse

/-- The last memory model stated counts. -/
def finish (a : Assembly) (version : Version) : Except AssemblyFault Module :=
  if a.block?.isSome then .error .openBlock
  else if a.function?.isSome then .error .openFunction
  else .ok {
    version := some version
    capabilities := a.sectionOf .capabilities
    memoryModel := (a.sectionOf .memoryModel).getLast?
    annotations := a.sectionOf .annotations
    globals := a.sectionOf .globals
    functions := a.functions.reverse }

end Assembly

/-! ### Reading the binary form -/

def wordsOf : List UInt8 → List UInt32
  | a :: b :: c :: d :: rest =>
    (a.toUInt32 ||| b.toUInt32 <<< 8 ||| c.toUInt32 <<< 16 ||| d.toUInt32 <<< 24) :: wordsOf rest
  | _ => []

def magic : UInt32 := 0x07230203

def swappedMagic : UInt32 := 0x03022307

/-- A place in the stream inside instruction `number`, of which `left` words are still to come. -/
structure Cursor where
  number : Nat
  offset : Nat
  left : Nat
  words : List UInt32

namespace Cursor

def take (c : Cursor) : Except ReadFault (UInt32 × Cursor) :=
  match c.left, c.words with
  | 0, _ => .error (.operandMissing c.offset c.number)
  | _ + 1, [] => .error (.streamEnds c.offset)
  | n + 1, w :: rest => .ok (w, { c with offset := c.offset + 4, left := n, words := rest })

def takeAs {α : Type} (c : Cursor) (family : String) (meaning? : UInt32 → Option α) :
    Except ReadFault (α × Cursor) := do
  let (w, after) ← c.take
  match meaning? w with
  | some a => .ok (a, after)
  | none => .error (.unknownValue family c.offset w)

def parameters (c : Cursor) (kind : DecorationKind) : Except ReadFault (List Operand × Cursor) :=
  if takesLiteral kind then do
    let (w, c) ← c.take
    return ([.literal w], c)
  else
    match kind with
    | .builtIn => do
      let (b, c) ← c.takeAs "BuiltIn" BuiltIn.ofValue?
      return ([.builtIn b], c)
    | .fpRoundingMode => do
      let (m, c) ← c.takeAs "FPRoundingMode" RoundingMode.ofValue?
      return ([.roundingMode m], c)
    | .funcParamAttr => do
      let (a, c) ← c.takeAs "FunctionParameterAttribute" ParameterAttribute.ofValue?
      return ([.attribute a], c)
    | _ => return ([], c)

def operand (c : Cursor) : Form → Except ReadFault (List Operand × Cursor)
  | .id => do
    let (w, c) ← c.take
    return ([.id w], c)
  | .literal => do
    let (w, c) ← c.take
    return ([.literal w], c)
  | .functionControl => do
    let (w, c) ← c.take
    return ([.mask .functionControl w], c)
  | .capability => do
    let (w, c) ← c.take
    return ([.capability (capability w)], c)
  | .addressingModel => do
    let (name, c) ← c.takeAs "AddressingModel" fun w => addressingModels.lookup w
    return ([.enumerant "AddressingModel" name], c)
  | .memoryModel => do
    let (name, c) ← c.takeAs "MemoryModel" fun w => memoryModels.lookup w
    return ([.enumerant "MemoryModel" name], c)
  | .decoration => do
    let (kind, c) ← c.takeAs "Decoration" DecorationKind.ofValue?
    let (params, c) ← c.parameters kind
    return (.decoration kind :: params, c)

def operands (f : Form) : Nat → Cursor → Except ReadFault (List Operand × Cursor)
  | 0, c => .ok ([], c)
  | n + 1, c =>
    if c.left = 0 then .ok ([], c)
    else do
      let (os, c) ← c.operand f
      let (rest, c) ← operands f n c
      return (os ++ rest, c)

def fields : List Field → Instruction → Cursor → Except ReadFault (Instruction × Cursor)
  | [], i, c => .ok (i, c)
  | .resultType :: fs, i, c => do
    let (w, c) ← c.take
    fields fs { i with resultType := some w } c
  | .result :: fs, i, c => do
    let (w, c) ← c.take
    fields fs { i with result := some w } c
  | .one f :: fs, i, c => do
    let (os, c) ← c.operand f
    fields fs { i with operands := i.operands ++ os } c
  | .any f :: fs, i, c => do
    let (os, c) ← c.operands f c.left
    fields fs { i with operands := i.operands ++ os } c

end Cursor

def instruction (number offset : Nat) (w : UInt32) (rest : List UInt32) :
    Except ReadFault (Place × Instruction × Cursor) := do
  let count := (w >>> 16).toNat
  let code := w &&& 0xFFFF
  if count = 0 then throw (.zeroCount offset number)
  let some format := format? code | throw (.unknownOpcode offset number code)
  let (i, c) ← Cursor.fields format.fields ⟨format.op, none, none, []⟩
    ⟨number, offset + 4, count - 1, rest⟩
  if c.left ≠ 0 then throw (.operandsLeft c.offset number)
  return (format.place, i, c)

/-- Reads instruction after instruction. Each takes a word at least, so as many steps as there are
words are enough. -/
def instructions (version : Version) :
    Nat → Nat → Nat → List UInt32 → Assembly → Except ReadFault Module
  | n + 1, number, offset, w :: rest, a => do
    let (place, i, c) ← instruction number offset w rest
    let a ← (a.add place i).mapError .assembly
    instructions version n (number + 1) c.offset c.words a
  | _, _, _, _, a => (a.finish version).mapError .assembly

def versionOf (w : UInt32) : Version :=
  ⟨(w >>> 16 &&& 0xFF).toNat, (w >>> 8 &&& 0xFF).toNat⟩

def readWords : List UInt32 → Except ReadFault Module
  | first :: version :: _ :: _ :: _ :: rest =>
    if first = magic then instructions (versionOf version) rest.length 1 20 rest {}
    else if first = swappedMagic then .error .endianness
    else .error .magic
  | short => .error (.headerIncomplete (4 * short.length))

def loadWords (words : List UInt32) : Except String Module := (readWords words).mapError (·.text)

def loadOctets (octets : List UInt8) : Except String Module := loadWords (wordsOf octets)

end SpirvRules.Binary
