/-!
# Target environments

The environment a module is meant for bounds its version and decides which client API's rules apply
beside the core ones. An environment is written by name, or as a triple: the name behind a fixed
stem.
-/

set_option autoImplicit false

namespace SpirvRules

/-!
### SPIR-V versions

A module states the version it is written in; versions are ordered by major, then minor number.
-/

structure Version where
  major : Nat
  minor : Nat
  deriving DecidableEq

namespace Version

def before (a b : Version) : Bool :=
  a.major < b.major || a.major == b.major && a.minor < b.minor

def atLeast (a b : Version) : Bool := !a.before b

def text (v : Version) : String := s!"{v.major}.{v.minor}"

/-- What a module without a header is taken to be written in. -/
def unstated : Version := ⟨1, 0⟩

def v1_4 : Version := ⟨1, 4⟩

end Version

/-! ### Target environments -/

inductive TargetEnv where
  | openGL40 | openGL41 | openGL42 | openGL43 | openGL45
  | spv10 | spv11 | spv12 | spv13 | spv14 | spv15 | spv16
  | vulkan10 | vulkan11 | vulkan11Spv14 | vulkan12 | vulkan13 | vulkan14
  deriving DecidableEq

namespace TargetEnv

def all : List TargetEnv :=
  [.openGL40, .openGL41, .openGL42, .openGL43, .openGL45,
   .spv10, .spv11, .spv12, .spv13, .spv14, .spv15, .spv16,
   .vulkan10, .vulkan11, .vulkan11Spv14, .vulkan12, .vulkan13, .vulkan14]

theorem mem_all (e : TargetEnv) : e ∈ all := by cases e <;> decide

def name : TargetEnv → String
  | .openGL40 => "opengl4.0"
  | .openGL41 => "opengl4.1"
  | .openGL42 => "opengl4.2"
  | .openGL43 => "opengl4.3"
  | .openGL45 => "opengl4.5"
  | .spv10 => "spv1.0"
  | .spv11 => "spv1.1"
  | .spv12 => "spv1.2"
  | .spv13 => "spv1.3"
  | .spv14 => "spv1.4"
  | .spv15 => "spv1.5"
  | .spv16 => "spv1.6"
  | .vulkan10 => "vulkan1.0"
  | .vulkan11 => "vulkan1.1"
  | .vulkan11Spv14 => "vulkan1.1spv1.4"
  | .vulkan12 => "vulkan1.2"
  | .vulkan13 => "vulkan1.3"
  | .vulkan14 => "vulkan1.4"

def standard : TargetEnv := .spv16

def ceiling : TargetEnv → Version
  | .openGL40 | .openGL41 | .openGL42 | .openGL43 | .openGL45 => ⟨1, 0⟩
  | .spv10 => ⟨1, 0⟩
  | .spv11 => ⟨1, 1⟩
  | .spv12 => ⟨1, 2⟩
  | .spv13 => ⟨1, 3⟩
  | .spv14 => ⟨1, 4⟩
  | .spv15 => ⟨1, 5⟩
  | .spv16 => ⟨1, 6⟩
  | .vulkan10 => ⟨1, 0⟩
  | .vulkan11 => ⟨1, 3⟩
  | .vulkan11Spv14 => ⟨1, 4⟩
  | .vulkan12 => ⟨1, 5⟩
  | .vulkan13 | .vulkan14 => ⟨1, 6⟩

def isVulkan : TargetEnv → Bool
  | .vulkan10 | .vulkan11 | .vulkan11Spv14 | .vulkan12 | .vulkan13 | .vulkan14 => true
  | _ => false

def isOpenGL : TargetEnv → Bool
  | .openGL40 | .openGL41 | .openGL42 | .openGL43 | .openGL45 => true
  | _ => false

def isUniversal (e : TargetEnv) : Bool := !e.isVulkan && !e.isOpenGL

/-- Relaxed block layout is part of Vulkan from 1.1 on. -/
def relaxesBlockLayout (e : TargetEnv) : Bool := e.isVulkan && e ≠ .vulkan10

inductive NameError where
  | wrongStem (text : String)
  | unknown (name : String)
  deriving DecidableEq

def stem : String := "spirv-unknown-"

def NameError.message : NameError → String
  | .wrongStem text => "Expected SPIR-V target with prefix `" ++ stem ++ "`, got `" ++ text ++ "`"
  | .unknown name =>
    "Unknown SPIR-V target environment `" ++ name ++
      "`, see `enum SpirvTargetEnv` for possible values"

def triple (e : TargetEnv) : String := stem ++ e.name

def ofName? (s : String) : Option TargetEnv := all.find? (·.name = s)

theorem ofName?_name (e : TargetEnv) : ofName? e.name = some e := by cases e <;> decide +kernel

def ofName (s : String) : Except NameError TargetEnv :=
  match ofName? s with
  | some e => .ok e
  | none => .error (.unknown s)

def afterStem? (s : String) : Option String :=
  if stem.toList.isPrefixOf s.toList then some (String.ofList (s.toList.drop stem.length)) else none

def ofTriple (s : String) : Except NameError TargetEnv :=
  match afterStem? s with
  | some name => ofName name
  | none => .error (.wrongStem s)

/-- Reads a triple where the text starts like one, and a name otherwise. -/
def ofText (s : String) : Except NameError TargetEnv :=
  match afterStem? s with
  | some name => ofName name
  | none => ofName s

end TargetEnv

end SpirvRules
