import StagedQuery.Json.Mismatch

/-!
# Records

A record is read from a document in the order of its text, so of several faults the first one
counts. As an object it may have each of its fields once and any other keys, whose values only
have to be grammatical; a field that is missing is noticed at the end.  As an array it has its
fields in their order of declaration, and the last ones may be missing where they have a default.
-/

namespace StagedQuery.Json

/-- A reader of a whole document. -/
abbrev Reader (α : Type) := Document → Except ReadError α

/-- Reads a plain value. -/
def Reader.plain {α : Type} (read : Head → Except Mismatch α) : Reader α := fun document ↦
  match document.head? with
  | some head => (read head).mapError .mismatch
  | none => .error .malformed

/-- Reads an array of any length. -/
def Reader.list {α : Type} (read : Reader α) : Reader (List α)
  | .array items closed => do
    let values ← items.mapM read
    if closed then return values else throw .malformed
  | document => Reader.plain (fun head ↦ .error (.wrongType head .sequence)) document

/-- Passes over a value that is not needed. -/
def Reader.skip : Reader Unit := fun document ↦
  if document.isWhole then .ok () else .error .malformed

/-- Reads a document that fills a text. -/
def Reader.run {α : Type} [DoubleReader] (read : Reader α) (text : String) :
    Except ReadError α := do
  let (document, trailing) := Document.ofTokens (Token.scan text.toList)
  let value ← read document
  if trailing then throw .malformed else return value

namespace Reader

/-! ## Objects -/

/-- Reads a field of a record, given what was read for it before. -/
def once {α : Type} (name : String) (before : Option α) (read : Reader α) : Reader (Option α) :=
  fun document ↦
    if before.isSome then .error (.mismatch (.duplicateField name))
    else (read document).map some

/-- Reads the members of an object in their order.  `member` reads one member into a draft of the
record. -/
def members {δ : Type} (member : δ → String → Reader δ) (draft : δ)
    (written : List (Option String × Document)) (closed : Bool) : Except ReadError δ := do
  let draft ← written.foldlM
    (fun draft (key, value) ↦
      match key with
      | some key => member draft key value
      | none => .error .malformed)
    draft
  if closed then return draft else throw .malformed

/-- A field that has to be there. -/
def require {α : Type} (name : String) : Option α → Except ReadError α
  | some value => .ok value
  | none => .error (.mismatch (.missingField name))

/-! ## Arrays -/

/-- Reads the field at an index of an array. -/
def element {α : Type} (layout : Layout) (items : List Document) (closed : Bool) (index : Nat)
    (absent : Option α) (read : Reader α) : Except ReadError α :=
  match items[index]?, absent with
  | some value, _ => read value
  | none, some value => if closed then .ok value else .error .malformed
  | none, none => .error (if closed then .mismatch (.tooFewElements index layout) else .malformed)

/-- Checks that nothing follows the last field of an array. -/
def endElements (layout : Layout) (items : List Document) (closed : Bool) : Except ReadError Unit :=
  if closed && items.length ≤ layout.size then .ok () else .error .malformed

end Reader

end StagedQuery.Json
