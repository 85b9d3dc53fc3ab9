import StagedQuery.Json.Token

/-!
# JSON Documents

A document is the tree of a JSON text that may break off.  Where a text stops being JSON, the
containers around that place stay open and everything before it is kept.  A reader can therefore
walk through a document in the order of its text and meet each fault, of grammar or of shape, in
that order. Keys are kept as they are written, with repetitions.
-/

namespace StagedQuery.Json

inductive Document where
  | null
  | bool (value : Bool)
  | number (value : Option Number)
  | string (value : Option String)
  | array (items : List Document) (closed : Bool)
  | object (members : List (Option String × Document)) (closed : Bool)
  /-- A place where a value should stand and none does. -/
  | missing

namespace Document

/-! ## From tokens -/

/-- A container whose next value is being read, with what it holds so far in reverse order. -/
inductive Frame where
  | array (items : List Document)
  | object (members : List (Option String × Document)) (key : Option String)

/-- A place between two tokens, inside the given frames. -/
inductive Place where
  | beforeValue (frames : List Frame)
  | afterOpenArray (frames : List Frame)
  | afterItem (items : List Document) (frames : List Frame)
  | afterOpenObject (frames : List Frame)
  | beforeKey (members : List (Option String × Document)) (frames : List Frame)
  | afterKey (members : List (Option String × Document)) (key : Option String)
      (frames : List Frame)
  | afterMember (members : List (Option String × Document)) (frames : List Frame)
  | afterRoot (root : Document)
  /-- No token can repair the text any more.  `trailing` says that only what follows the root is
  at fault. -/
  | stuck (root : Document) (trailing : Bool)

/-- The place after a whole value. -/
def Place.afterValue (value : Document) : List Frame → Place
  | [] => .afterRoot value
  | .array items :: frames => .afterItem (value :: items) frames
  | .object members key :: frames => .afterMember ((key, value) :: members) frames

/-- The root that remains when a value breaks off inside the given frames. -/
def breakOff (value : Document) : List Frame → Document
  | [] => value
  | .array items :: frames => breakOff (.array (value :: items).reverse false) frames
  | .object members key :: frames =>
    breakOff (.object ((key, value) :: members).reverse false) frames

namespace Place

/-- The place after a token that stands where a value should. -/
def takeValue (frames : List Frame) : Token → Place
  | .null => afterValue .null frames
  | .bool value => afterValue (.bool value) frames
  | .number value => afterValue (.number value) frames
  | .string value => afterValue (.string value) frames
  | .beginArray => .afterOpenArray frames
  | .beginObject => .afterOpenObject frames
  | _ => .stuck (breakOff .missing frames) false

def openArray (items : List Document) (frames : List Frame) : Place :=
  .stuck (breakOff (.array items.reverse false) frames) false

def openObject (members : List (Option String × Document)) (frames : List Frame) : Place :=
  .stuck (breakOff (.object members.reverse false) frames) false

/-- The place after one more token. -/
def take : Place → Token → Place
  | .beforeValue frames, token => takeValue frames token
  | .afterOpenArray frames, .endArray => afterValue (.array [] true) frames
  | .afterOpenArray frames, token => takeValue (.array [] :: frames) token
  | .afterItem items frames, .comma => .beforeValue (.array items :: frames)
  | .afterItem items frames, .endArray => afterValue (.array items.reverse true) frames
  | .afterItem items frames, _ => openArray items frames
  | .afterOpenObject frames, .endObject => afterValue (.object [] true) frames
  | .afterOpenObject frames, .string key => .afterKey [] key frames
  | .afterOpenObject frames, _ => openObject [] frames
  | .beforeKey members frames, .string key => .afterKey members key frames
  | .beforeKey members frames, _ => openObject members frames
  | .afterKey members key frames, .colon => .beforeValue (.object members key :: frames)
  | .afterKey members key frames, _ =>
    .stuck (breakOff .missing (.object members key :: frames)) false
  | .afterMember members frames, .comma => .beforeKey members frames
  | .afterMember members frames, .endObject => afterValue (.object members.reverse true) frames
  | .afterMember members frames, _ => openObject members frames
  | .afterRoot root, _ => .stuck root true
  | .stuck root trailing, _ => .stuck root trailing

/-- The root when the text ends here, and whether anything followed it. -/
def finish : Place → Document × Bool
  | .beforeValue frames => (breakOff .missing frames, false)
  | .afterOpenArray frames => (breakOff (.array [] false) frames, false)
  | .afterItem items frames => (breakOff (.array items.reverse false) frames, false)
  | .afterOpenObject frames => (breakOff (.object [] false) frames, false)
  | .beforeKey members frames | .afterMember members frames =>
    (breakOff (.object members.reverse false) frames, false)
  | .afterKey members key frames => (breakOff .missing (.object members key :: frames), false)
  | .afterRoot root => (root, false)
  | .stuck root trailing => (root, trailing)

end Place

/-- The document of a sequence of tokens, and whether tokens follow it. -/
def ofTokens (tokens : List Token) : Document × Bool :=
  (tokens.foldl Place.take (.beforeValue [])).finish

/-! ## Reading and skipping -/

mutual

/-- Whether a document is grammatical to its end. -/
def isWhole : Document → Bool
  | .null | .bool _ | .number _ | .string _ => true
  | .array items closed => closed && areWhole items
  | .object members closed => closed && areWholeMembers members
  | .missing => false

def areWhole : List Document → Bool
  | [] => true
  | item :: items => isWhole item && areWhole items

def areWholeMembers : List (Option String × Document) → Bool
  | [] => true
  | (_, value) :: members => isWhole value && areWholeMembers members

end

mutual

/-- The value of a document that is grammatical, within range, and nested at most `levels` deep.
-/
def toJson? : Document → (levels : Nat) → Option Json
  | .null, _ => some .null
  | .bool value, _ => some (.bool value)
  | .number value, _ => value.map .number
  | .string value, _ => value.map .string
  | .array items true, levels + 1 => (itemsToJson? items levels).map .array
  | .object members true, levels + 1 => (membersToJson? members levels).map ofMembers
  | _, _ => none

def itemsToJson? : List Document → Nat → Option (List Json)
  | [], _ => some []
  | item :: items, levels => do
    return (← toJson? item levels) :: (← itemsToJson? items levels)

def membersToJson? : List (Option String × Document) → Nat → Option (List (String × Json))
  | [], _ => some []
  | (key, value) :: members, levels => do
    return (← key, ← toJson? value levels) :: (← membersToJson? members levels)

end

end Document

end StagedQuery.Json
