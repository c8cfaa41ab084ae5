import HeyServer.Lib.JsonString

/-!
# JSON values

Values as `encoding/json` reads and writes them: numbers keep their literal,
objects keep every member in order. The parser is the grammar with white
space, bounded nesting and the longest match for numbers.

## Implementation notes

`parseValue` takes fuel, so that it computes; the length of the text is always
enough for a text the encoder wrote, which `parse_encode` shows.
-/

namespace HeyServer.Lib

inductive Json
  | null
  | bool (b : Bool)
  | num (literal : Bytes)
  | str (s : Bytes)
  | arr (items : List Json)
  | obj (members : List (Bytes × Json))

namespace Json

/-! ## Reading members -/

@[simp] def asBool : Json → Option Bool
  | bool b => some b
  | _ => none

@[simp] def asText : Json → Option Bytes
  | str s => some s
  | _ => none

/-! ## Encoding -/

mutual
def encode : Json → Bytes
  | null => ascii "null"
  | bool b => if b then ascii "true" else ascii "false"
  | num literal => literal
  | str s => encodeString s
  | arr [] => [0x5B, 0x5D]
  | arr (v :: vs) => 0x5B :: (encode v ++ encodeItems vs)
  | obj [] => [0x7B, 0x7D]
  | obj ((k, v) :: ms) => 0x7B :: (encodeString k ++ 0x3A :: (encode v ++ encodeMembers ms))

/-- The items after the first one, up to the closing bracket. -/
def encodeItems : List Json → Bytes
  | [] => [0x5D]
  | v :: vs => 0x2C :: (encode v ++ encodeItems vs)

/-- The members after the first one, up to the closing brace. -/
def encodeMembers : List (Bytes × Json) → Bytes
  | [] => [0x7D]
  | (k, v) :: ms => 0x2C :: (encodeString k ++ 0x3A :: (encode v ++ encodeMembers ms))
end

/-! ## Numbers -/

def isDigit (b : UInt8) : Bool := 0x30 ≤ b.toNat && b.toNat ≤ 0x39

def parseSign : Bytes → Bytes × Bytes
  | [] => ([], [])
  | b :: rest => if b = 0x2D then ([b], rest) else ([], b :: rest)

/-- `0` or digits without a leading zero. -/
def parseInteger : Bytes → Option (Bytes × Bytes)
  | [] => none
  | b :: rest =>
    if b = 0x30 then some ([b], rest)
    else if isDigit b then some (b :: rest.takeWhile isDigit, rest.dropWhile isDigit)
    else none

variable (s : Bytes)

/-- At least one digit. -/
def parseDigits : Option (Bytes × Bytes) :=
  if s.takeWhile isDigit = [] then none else some (s.takeWhile isDigit, s.dropWhile isDigit)

def parseFraction : Bytes → Option (Bytes × Bytes)
  | [] => some ([], [])
  | b :: rest => if b = 0x2E then prepend [b] (parseDigits rest) else some ([], b :: rest)

def parseExponent : Bytes → Option (Bytes × Bytes)
  | [] => some ([], [])
  | b :: rest =>
    if b = 0x65 ∨ b = 0x45 then
      match rest with
      | c :: rest' =>
        if c = 0x2B ∨ c = 0x2D then prepend [b, c] (parseDigits rest')
        else prepend [b] (parseDigits rest)
      | [] => none
    else some ([], b :: rest)

/-- The longest number literal at the head of the text. -/
def parseNumber : Option (Bytes × Bytes) :=
  match parseInteger (parseSign s).2 with
  | none => none
  | some (i, rest) =>
    match parseFraction rest with
    | none => none
    | some (f, rest) => prepend ((parseSign s).1 ++ i ++ f) (parseExponent rest)

def isNumber : Bool := parseNumber s = some (s, [])

/-! ## Values -/

def isSpace (b : UInt8) : Bool := b = 0x20 || b = 0x09 || b = 0x0D || b = 0x0A

def skipSpace : Bytes := s.dropWhile isSpace

/-- `null`, `true`, `false` or a number. -/
def parseScalar : Option (Json × Bytes) :=
  if ascii "null" <+: s then some (null, s.drop 4)
  else if ascii "true" <+: s then some (bool true, s.drop 4)
  else if ascii "false" <+: s then some (bool false, s.drop 5)
  else (parseNumber s).map fun v => (num v.1, v.2)

/-- The key of a member with its colon. -/
def parseKey : Option (Bytes × Bytes) :=
  match skipSpace s with
  | [] => none
  | b :: rest =>
    if b = 0x22 then
      match parseChars 0 0 rest with
      | none => none
      | some (k, rest) =>
        match skipSpace rest with
        | [] => none
        | c :: rest => if c = 0x3A then some (k, rest) else none
    else none

mutual
/-- A value at the head of the text, with at most `depth` nested arrays and objects. -/
def parseValue : Nat → Nat → Bytes → Option (Json × Bytes)
  | 0, _, _ => none
  | fuel + 1, depth, s =>
    match skipSpace s with
    | [] => none
    | b :: rest =>
      if b = 0x22 then (parseChars 0 0 rest).map fun v => (str v.1, v.2)
      else if b = 0x5B then
        match depth, skipSpace rest with
        | depth + 1, c :: rest' =>
          if c = 0x5D then some (arr [], rest')
          else (parseItems fuel depth rest).map fun v => (arr v.1, v.2)
        | _, _ => none
      else if b = 0x7B then
        match depth, skipSpace rest with
        | depth + 1, c :: rest' =>
          if c = 0x7D then some (obj [], rest')
          else (parseMembers fuel depth rest).map fun v => (obj v.1, v.2)
        | _, _ => none
      else parseScalar (b :: rest)

/-- The items of an array up to its closing bracket. -/
def parseItems : Nat → Nat → Bytes → Option (List Json × Bytes)
  | 0, _, _ => none
  | fuel + 1, depth, s =>
    match parseValue fuel depth s with
    | none => none
    | some (v, rest) =>
      match skipSpace rest with
      | [] => none
      | c :: rest =>
        if c = 0x2C then (parseItems fuel depth rest).map fun w => (v :: w.1, w.2)
        else if c = 0x5D then some ([v], rest) else none

/-- The members of an object up to its closing brace. -/
def parseMembers : Nat → Nat → Bytes → Option (List (Bytes × Json) × Bytes)
  | 0, _, _ => none
  | fuel + 1, depth, s =>
    match parseKey s with
    | none => none
    | some (k, rest) =>
      match parseValue fuel depth rest with
      | none => none
      | some (v, rest) =>
        match skipSpace rest with
        | [] => none
        | c :: rest =>
          if c = 0x2C then
            (parseMembers fuel depth rest).map fun w => ((k, v) :: w.1, w.2)
          else if c = 0x7D then some ([(k, v)], rest) else none
end

/-- The nesting `encoding/json` accepts. -/
def maxNestingDepth : Nat := 10000

/-- One complete JSON text. -/
def parse : Option Json :=
  match parseValue (s.length + 1) maxNestingDepth s with
  | some (v, rest) => if skipSpace rest = [] then some v else none
  | none => none

end Json

end HeyServer.Lib
