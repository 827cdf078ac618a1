/-!
# Logging settings

Two settings say how events are logged: a format and, for the tree format, whether it is coloured. A
setting may be absent. There is one log, and it can be set up once.
-/

set_option autoImplicit false

namespace SpirvRules

/-!
### Reading octets as text

Octets are read as UTF-8. A run of octets that begins a character and cannot be continued counts as
one mistake, as does an octet that begins none; each mistake is shown as U+FFFD.
-/

namespace Text

/-- A character under way: octets still owed, the range of the next one, the bits so far. -/
structure Unfinished where
  owed : Nat
  low : UInt8
  high : UInt8
  bits : Nat

inductive Start where
  | whole (c : Char)
  | first (p : Unfinished)
  | none

def start (b : UInt8) : Start :=
  let n := b.toNat
  if b < 0x80 then .whole (Char.ofNat n)
  else if b < 0xC2 then .none
  else if b < 0xE0 then .first ⟨1, 0x80, 0xBF, n - 0xC0⟩
  else if b = 0xE0 then .first ⟨2, 0xA0, 0xBF, 0⟩
  else if b = 0xED then .first ⟨2, 0x80, 0x9F, 0xD⟩
  else if b < 0xF0 then .first ⟨2, 0x80, 0xBF, n - 0xE0⟩
  else if b = 0xF0 then .first ⟨3, 0x90, 0xBF, 0⟩
  else if b < 0xF4 then .first ⟨3, 0x80, 0xBF, n - 0xF0⟩
  else if b = 0xF4 then .first ⟨3, 0x80, 0x8F, 4⟩
  else .none

def replacement : Char := '\uFFFD'

def decodeFrom : Option Unfinished → List UInt8 → List Char
  | none, [] => []
  | some _, [] => [replacement]
  | none, b :: rest => begin b rest
  | some p, b :: rest =>
    if p.low ≤ b ∧ b ≤ p.high then
      let bits := p.bits * 64 + (b.toNat - 0x80)
      if p.owed ≤ 1 then Char.ofNat bits :: decodeFrom none rest
      else decodeFrom (some ⟨p.owed - 1, 0x80, 0xBF, bits⟩) rest
    else replacement :: begin b rest
where
  begin (b : UInt8) (rest : List UInt8) : List Char :=
    match start b with
    | .whole c => c :: decodeFrom none rest
    | .first p => decodeFrom (some p) rest
    | .none => replacement :: decodeFrom none rest

def ofUtf8 (octets : List UInt8) : String := String.ofList (decodeFrom none octets)

end Text

/-! ### Logging settings -/

namespace Logging

abbrev Setting := Option String

/-- A setting given as octets; what is no text is shown as near as may be. -/
def Setting.ofOctets (octets : List UInt8) : Setting := some (Text.ofUtf8 octets)

inductive Format where
  | tree | flat | json
  deriving DecidableEq

inductive Color where
  | always | never
  /-- Coloured where the output is a terminal. -/
  | auto
  deriving DecidableEq

inductive Fault where
  | format (value : String)
  | color (value : String)
  | installed
  deriving DecidableEq

def Fault.message : Fault → String
  | .format v => s!"invalid output format value '{v}': expected one of tree, flat, or json"
  | .color v => s!"invalid log color value '{v}': expected one of always, never, or auto"
  | .installed => "a global tracing subscriber is already installed"

def Format.ofSetting : Setting → Except Fault Format
  | none | some "tree" => .ok .tree
  | some "flat" => .ok .flat
  | some "json" => .ok .json
  | some v => .error (.format v)

def Color.ofSetting : Setting → Except Fault Color
  | some "always" => .ok .always
  | some "never" => .ok .never
  | none | some "auto" => .ok .auto
  | some v => .error (.color v)

inductive Style where
  | tree (c : Color)
  | flat
  | json
  deriving DecidableEq

def Style.ofSettings (format color : Setting) : Except Fault Style := do
  match ← Format.ofSetting format with
  | .tree => return .tree (← Color.ofSetting color)
  | .flat => return .flat
  | .json => return .json

/-- Sets up the log unless there is one. The settings have to be good either way. -/
def setUp (present : Option Style) (format color : Setting) : Except Fault Style := do
  let style ← Style.ofSettings format color
  match present with
  | some _ => throw .installed
  | none => return style

end Logging

end SpirvRules
