/-!
# JSON

Texts are cut into tokens, and tokens read as values; of both only what the options need.
-/

set_option autoImplicit false

namespace SpirvRules

/-!
### JSON tokens

Text is cut into punctuation, words, numbers and strings. A number is checked but not evaluated. A
string with an escaped half of a surrogate pair and no other half is a token that stands for no
text.
-/

namespace Json

inductive Token where
  | openArray | closeArray | openObject | closeObject | comma | colon
  | null | bool (b : Bool) | number
  | string (text : Option String)
  deriving DecidableEq

def isBlank (c : Char) : Bool := c = ' ' || c = '\n' || c = '\t' || c = '\r'

/-- A character of a string, or one half of a pair. -/
inductive Unit16 where
  | char (c : Char)
  | high (bits : Nat)
  | low (bits : Nat)

def pairChar (high low : Nat) : Char := Char.ofNat (0x10000 + high * 0x400 + low)

def textOf? : List Unit16 → Option (List Char)
  | [] => some []
  | .char c :: rest => (textOf? rest).map (c :: ·)
  | .high h :: .low l :: rest => (textOf? rest).map (pairChar h l :: ·)
  | _ => none

def hexDigit? (c : Char) : Option Nat :=
  if c.isDigit then some (c.toNat - '0'.toNat)
  else if 'a' ≤ c ∧ c ≤ 'f' then some (c.toNat - 'a'.toNat + 10)
  else if 'A' ≤ c ∧ c ≤ 'F' then some (c.toNat - 'A'.toNat + 10)
  else none

def hexValue? (cs : List Char) : Option Nat :=
  cs.foldlM (fun n c => (hexDigit? c).map (n * 16 + ·)) 0

def unitOf (n : Nat) : Unit16 :=
  if 0xD800 ≤ n ∧ n < 0xDC00 then .high (n - 0xD800)
  else if 0xDC00 ≤ n ∧ n < 0xE000 then .low (n - 0xDC00)
  else .char (Char.ofNat n)

def shortEscape? : Char → Option Char
  | '"' => some '"'
  | '\\' => some '\\'
  | '/' => some '/'
  | 'b' => some '\x08'
  | 'f' => some '\x0c'
  | 'n' => some '\n'
  | 'r' => some '\r'
  | 't' => some '\t'
  | _ => none

def stringBody : List Char → Option (List Unit16 × List Char)
  | [] => none
  | '"' :: rest => some ([], rest)
  | '\\' :: 'u' :: a :: b :: c :: d :: rest => do
    let n ← hexValue? [a, b, c, d]
    let (us, after) ← stringBody rest
    return (unitOf n :: us, after)
  | '\\' :: e :: rest => do
    let c ← shortEscape? e
    let (us, after) ← stringBody rest
    return (.char c :: us, after)
  | c :: rest =>
    if c.val < 0x20 then none
    else (stringBody rest).map fun (us, after) => (.char c :: us, after)

/-- Where a number stands: what has been read decides what may follow. -/
inductive Digits where
  | sign | zero | whole | point | tenths | exponent | power | powers

def Digits.step : Digits → Char → Option Digits
  | .sign, c => if c = '0' then some .zero else if c.isDigit then some .whole else none
  | .zero, c => fraction c
  | .whole, c => if c.isDigit then some .whole else fraction c
  | .point, c => if c.isDigit then some .tenths else none
  | .tenths, c => if c.isDigit then some .tenths else scale c
  | .exponent, c =>
    if c = '+' ∨ c = '-' then some .power else if c.isDigit then some .powers else none
  | .power, c => if c.isDigit then some .powers else none
  | .powers, c => if c.isDigit then some .powers else none
where
  scale (c : Char) : Option Digits := if c = 'e' ∨ c = 'E' then some .exponent else none
  fraction (c : Char) : Option Digits := if c = '.' then some .point else scale c

def Digits.complete : Digits → Bool
  | .zero | .whole | .tenths | .powers => true
  | _ => false

def isNumeric (c : Char) : Bool := c.isDigit || c = '.' || c = 'e' || c = 'E' || c = '+' || c = '-'

def isNumber (cs : List Char) : Bool :=
  let unsigned := if cs.head? = some '-' then cs.tail else cs
  (unsigned.foldlM Digits.step .sign).any Digits.complete

def punctuation? : Char → Option Token
  | '[' => some .openArray
  | ']' => some .closeArray
  | '\x7b' => some .openObject
  | '\x7d' => some .closeObject
  | ',' => some .comma
  | ':' => some .colon
  | _ => none

def word? (cs : List Char) : Option Token :=
  if cs = ['n', 'u', 'l', 'l'] then some .null
  else if cs = ['t', 'r', 'u', 'e'] then some (.bool true)
  else if cs = ['f', 'a', 'l', 's', 'e'] then some (.bool false)
  else none

def token? (c : Char) (rest : List Char) : Option (Token × List Char) :=
  match punctuation? c with
  | some t => some (t, rest)
  | none =>
    if c = '"' then (stringBody rest).map fun (us, after) =>
      (.string ((textOf? us).map String.ofList), after)
    else if c.isAlpha then
      (word? (c :: rest.takeWhile Char.isAlpha)).map (·, rest.dropWhile Char.isAlpha)
    else if isNumber (c :: rest.takeWhile isNumeric) then
      some (.number, rest.dropWhile isNumeric)
    else none

/-- All tokens of a text. Each takes at least one character, so the length bounds their number. -/
def tokensWithin : Nat → List Char → Option (List Token)
  | _, [] => some []
  | 0, _ => none
  | n + 1, c :: rest =>
    if isBlank c then tokensWithin n rest
    else do
      let (t, after) ← token? c rest
      return t :: (← tokensWithin n after)

def tokens? (s : String) : Option (List Token) :=
  let cs := s.toList
  tokensWithin cs.length cs

end Json

/-!
### JSON values

A value is read from tokens with the containers still open kept beside it, so that reading is one
pass over the tokens and nesting needs no bound. A key may be a string that stands for no text.
-/

namespace Json

inductive Value where
  | null
  | bool (b : Bool)
  | number
  | string (text : Option String)
  | array (items : List Value)
  | object (fields : List (Option String × Value))

inductive Open where
  | array (items : List Value)
  | object (fields : List (Option String × Value)) (key : Option String)

mutual

def value? : List Token → List Open → Option Value
  | .openArray :: .closeArray :: ts, os => done? ts (.array []) os
  | .openArray :: ts, os => value? ts (.array [] :: os)
  | .openObject :: .closeObject :: ts, os => done? ts (.object []) os
  | .openObject :: .string k :: .colon :: ts, os => value? ts (.object [] k :: os)
  | .null :: ts, os => done? ts .null os
  | .bool b :: ts, os => done? ts (.bool b) os
  | .number :: ts, os => done? ts .number os
  | .string s :: ts, os => done? ts (.string s) os
  | _, _ => none

def done? : List Token → Value → List Open → Option Value
  | [], v, [] => some v
  | .comma :: ts, v, .array vs :: os => value? ts (.array (v :: vs) :: os)
  | .closeArray :: ts, v, .array vs :: os => done? ts (.array (v :: vs).reverse) os
  | .comma :: .string k :: .colon :: ts, v, .object fs key :: os =>
    value? ts (.object ((key, v) :: fs) k :: os)
  | .closeObject :: ts, v, .object fs key :: os => done? ts (.object ((key, v) :: fs).reverse) os
  | _, _, _ => none

end

def parse? (s : String) : Option Value := do value? (← tokens? s) []

end Json

end SpirvRules
