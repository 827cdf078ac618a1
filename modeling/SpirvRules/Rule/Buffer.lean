import SpirvRules.Layout.Walk
import SpirvRules.Rule.Basic

/-!
# Buffers

Blocks may not nest. Then each global variable has to be the resource its storage class asks for,
and the block it holds has to be laid out; last come the blocks that physical pointers point to. One
walker goes through all blocks.
-/

set_option autoImplicit false

namespace SpirvRules

/-!
### Resources

Vulkan wants a set and a binding on every descriptor an entry point uses, and a block in every
struct that buffers and push constants hold; OpenGL wants a binding on the blocks that are used.
-/

inductive ResourceFault where
  | lacks (id : Id) (storage : StorageClass) (kind : DecorationKind)
  | pushConstant (id : Id)
  | storageBufferBlock (id : Id)
  | storageBuffer (id : Id)
  | uniform (id : Id)
  | lacksBinding (id : Id) (storage : StorageClass)
  deriving DecidableEq

def ResourceFault.report : ResourceFault → Report
  | .lacks id storage kind =>
    .ids (s!"{storage.name} id '{id}' is missing {kind.name} decoration.\nFrom Vulkan spec:\n" ++
      "These variables must have DescriptorSet and Binding decorations specified") id
      (some ⟨"UniformConstant", 6677⟩)
  | .pushConstant id =>
    .ids (s!"PushConstant id '{id}' is missing Block decoration.\nFrom Vulkan spec:\n" ++
      "Such variables must be identified with a Block decoration") id (some ⟨"PushConstant", 6675⟩)
  | .storageBufferBlock id =>
    .ids (s!"StorageBuffer id '{id}' is decorated with BufferBlock.\nFrom Vulkan spec:\n" ++
      "In Vulkan, BufferBlock is disallowed on variables in the StorageBuffer storage class") id
      (some ⟨"PushConstant", 6675⟩)
  | .storageBuffer id =>
    .ids (s!"StorageBuffer id '{id}' is missing Block decoration.\nFrom Vulkan spec:\n" ++
      "Such variables must be identified with a Block decoration") id (some ⟨"PushConstant", 6675⟩)
  | .uniform id =>
    .ids (s!"Uniform id '{id}' is missing Block or BufferBlock decoration.\n" ++
      "From Vulkan spec:\n" ++
      "Such variables must be identified with a Block or BufferBlock decoration") id
      (some ⟨"Uniform", 6676⟩)
  | .lacksBinding id storage =>
    .ids (s!"{storage.name} id '{id}' is missing Binding decoration.\n" ++
      "From ARB_gl_spirv extension:\n" ++
      "Uniform and shader storage block variables must also be decorated with a Binding.") id

namespace Resource

variable (cx : Context)

def isUsed (id : Id) : Bool := !(cx.index.staticUsers id).isEmpty

def descriptorKinds : List DecorationKind := [.descriptorSet, .binding]

def descriptorFault? (id : Id) (c : StorageClass) : Option ResourceFault :=
  if c ∈ [.uniform, .storageBuffer, .uniformConstant] ∧ isUsed cx id then
    (descriptorKinds.find? fun k => !cx.table.has id k).map (.lacks id c)
  else none

def blockFault? (id : Id) (c : StorageClass) (struct : Id) : Option ResourceFault :=
  let block := cx.table.has struct .block
  let bufferBlock := cx.table.has struct .bufferBlock
  match c with
  | .pushConstant => if block then none else some (.pushConstant id)
  | .storageBuffer =>
    if bufferBlock then some (.storageBufferBlock id)
    else if block then none
    else some (.storageBuffer id)
  | .uniform => if block ∨ bufferBlock then none else some (.uniform id)
  | _ => none

def bindingFault? (id : Id) (c : StorageClass) (struct : Id) : Option ResourceFault :=
  if isUsed cx id ∧ c ∈ [.uniform, .storageBuffer] ∧
      (cx.table.has struct .block ∨ cx.table.has struct .bufferBlock) ∧
      !cx.table.has id .binding then
    some (.lacksBinding id c)
  else none

def fault? (id : Id) (c : StorageClass) (pointee : Id) : Option ResourceFault :=
  let struct := cx.structBehind? pointee true
  if cx.isVulkan then descriptorFault? cx id c <|> struct.bind (blockFault? cx id c)
  else if cx.isOpenGL then struct.bind (bindingFault? cx id c)
  else none

end Resource

/-! ### Buffers -/

inductive BufferFault where
  | nesting (fault : NestingFault)
  | resource (fault : ResourceFault)
  | layout (fault : LayoutFault)
  deriving DecidableEq

def BufferFault.report : BufferFault → Report
  | .nesting f => f.report
  | .resource f => f.report
  | .layout f => f.report

namespace Buffer

variable (cx : Context)

structure Held where
  struct : Id
  storage : StorageClass
  deriving DecidableEq

def blocks : List Id := cx.table.targets.filter fun id => (cx.table.blockKind? id).isSome

def checkNesting : Except NestingFault Unit :=
  if cx.options.skipBlockLayout then .ok ()
  else (blocks cx).forM (Nesting.check cx.index cx.table)

/-- The struct of a variable whose layout is checked. Buffers may be arrays of blocks, memory shared
in a workgroup may not. -/
def held? (c : StorageClass) (pointee : Id) : Option Held :=
  let explicit := cx.index.module.declares .workgroupMemoryExplicitLayoutKHR
  match c with
  | .uniform | .storageBuffer | .pushConstant => (cx.structBehind? pointee true).map (⟨·, c⟩)
  | .workgroup =>
    if c.allowsLayout cx.index.version explicit then
      (cx.structBehind? pointee false).map (⟨·, c⟩)
    else none
  | _ => none

def pointed? (i : Instruction) : Option Held := do
  guard (i.op = .opTypePointer)
  match ← cx.index.type? (← i.result) with
  | .pointer .physicalStorageBuffer pointee =>
    (cx.structBehind? pointee false).map (⟨·, .physicalStorageBuffer⟩)
  | _ => none

def policy? (h : Held) : Option LayoutPolicy :=
  LayoutPolicy.select h.storage (cx.table.has h.struct .bufferBlock) cx.options

abbrev Check := ExceptT BufferFault (StateM Walker)

def checkHeld (h : Held) : Check Unit :=
  (Walk.block cx.index cx.table h.struct h.storage (policy? cx h)).adapt .layout

def checkVariable (id : Id) (c : StorageClass) (pointee : Id) : Check Unit := do
  if let some f := Resource.fault? cx id c pointee then throw (.resource f)
  (held? cx c pointee).forM (checkHeld cx)

def checkAll : Check Unit := do
  cx.globalVariables.forM fun (id, c, pointee) => checkVariable cx id c pointee
  (cx.index.module.globals.filterMap (pointed? cx)).forM (checkHeld cx)

def check : Except BufferFault Unit := do
  (checkNesting cx).mapError .nesting
  (checkAll cx {}).1

end Buffer

end SpirvRules
