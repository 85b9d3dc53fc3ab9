import StagedQuery.Binary64.Text
import StagedQuery.Json.Record

/-!
# JSON Texts

The compact text of a value, and the reading of any value from a text.
-/

namespace StagedQuery.Json

/-! ## Writing -/

/-- A code below the space as four hexadecimal digits. -/
def controlEscape (c : Char) : List Char :=
  ['\\', 'u', '0', '0'] ++ (if c.toNat < 16 then ['0'] else []) ++ Nat.toDigits 16 c.toNat

/-- The form of a character inside a string.  Only what has to be escaped is. -/
def stringChar (c : Char) : List Char :=
  match c with
  | '"' => ['\\', '"']
  | '\\' => ['\\', '\\']
  | '\x08' => ['\\', 'b']
  | '\x0c' => ['\\', 'f']
  | '\n' => ['\\', 'n']
  | '\r' => ['\\', 'r']
  | '\t' => ['\\', 't']
  | _ => if c < ' ' then controlEscape c else [c]

def stringText (value : String) : String :=
  String.ofList ('"' :: value.toList.flatMap stringChar ++ ['"'])

def Number.text : Number → String
  | .integer value _ => toString value
  | .double value => value.marked

/-- Texts between brackets, separated by commas. -/
def enclose (opening closing : String) (texts : List String) : String :=
  opening ++ ",".intercalate texts ++ closing

mutual

/-- The compact text of a value. -/
def text : Json → String
  | .null => "null"
  | .bool value => if value then "true" else "false"
  | .number value => value.text
  | .string value => stringText value
  | .array items => enclose "[" "]" (itemTexts items)
  | .object members => enclose "\x7b" "\x7d" (memberTexts members)

def itemTexts : List Json → List String
  | [] => []
  | item :: items => item.text :: itemTexts items

def memberTexts : List (String × Json) → List String
  | [] => []
  | (key, value) :: members => (stringText key ++ ":" ++ value.text) :: memberTexts members

end

/-! ## Reading -/

/-- The number of containers that may be nested in each other. -/
def nestingLimit : Nat := 127

/-- Reads a value of any shape that nests at most so many levels. -/
def Reader.value (levels : Nat) : Reader Json := fun document ↦
  match document.toJson? levels with
  | some value => .ok value
  | none => .error .malformed

/-- Reads a value of any shape from a text. -/
def ofText [DoubleReader] (text : String) : Except ReadError Json :=
  (Reader.value nestingLimit).run text

end StagedQuery.Json
