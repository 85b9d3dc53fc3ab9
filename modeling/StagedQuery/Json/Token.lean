import StagedQuery.Json.Basic

/-!
# JSON Tokens

A JSON text is cut into tokens once, before anything is known about the values it should hold.  A
number out of range and a string with half a surrogate pair are tokens without a value: they are
grammatical, but cannot be read.  A text that is no token from some point on ends with the token
`invalid`.
-/

namespace StagedQuery.Json

inductive Token where
  | beginArray
  | endArray
  | beginObject
  | endObject
  | comma
  | colon
  | null
  | bool (value : Bool)
  | number (value : Option Number)
  | string (value : Option String)
  | invalid
deriving DecidableEq

namespace Token

/-! ## Strings -/

/-- A piece of a string: a character, or the UTF-16 code unit of a numeric escape. -/
inductive Piece where
  | char (value : Char)
  | unit (value : Nat)

/-- The value of four hexadecimal digits. -/
def hexUnit? (digits : List Char) : Option Nat :=
  digits.foldlM (fun value digit ↦ (hexDigit? digit).map (16 * value + ·)) 0
where
  hexDigit? (digit : Char) : Option Nat :=
    if digit.isDigit then some (digit.toNat - '0'.toNat)
    else if 'a' ≤ digit ∧ digit ≤ 'f' then some (digit.toNat - 'a'.toNat + 10)
    else if 'A' ≤ digit ∧ digit ≤ 'F' then some (digit.toNat - 'A'.toNat + 10)
    else none

/-- The character of a one-letter escape. -/
def simpleEscape? : Char → Option Char
  | '"' => some '"'
  | '\\' => some '\\'
  | '/' => some '/'
  | 'b' => some '\x08'
  | 'f' => some '\x0c'
  | 'n' => some '\n'
  | 'r' => some '\r'
  | 't' => some '\t'
  | _ => none

/-- The pieces up to the closing quote, and the text after it.  Controls must be escaped. -/
def scanPieces : List Char → Option (List Piece × List Char)
  | [] => none
  | '"' :: rest => some ([], rest)
  | '\\' :: 'u' :: a :: b :: c :: d :: rest => do
    let unit ← hexUnit? [a, b, c, d]
    let (pieces, rest) ← scanPieces rest
    return (.unit unit :: pieces, rest)
  | '\\' :: letter :: rest => do
    let char ← simpleEscape? letter
    let (pieces, rest) ← scanPieces rest
    return (.char char :: pieces, rest)
  | char :: rest =>
    if char < ' ' ∨ char = '\\' then none
    else do
      let (pieces, rest) ← scanPieces rest
      return (.char char :: pieces, rest)

def isHighSurrogate (unit : Nat) : Bool := 0xd800 ≤ unit && unit < 0xdc00

def isLowSurrogate (unit : Nat) : Bool := 0xdc00 ≤ unit && unit < 0xe000

/-- The characters of the pieces.  Two numeric escapes in a row may form a surrogate pair; half a
pair is refused. -/
def joinPieces : List Piece → Option (List Char)
  | [] => some []
  | .char char :: rest => (joinPieces rest).map (char :: ·)
  | .unit high :: .unit low :: rest =>
    if isHighSurrogate high then
      if isLowSurrogate low then
        (joinPieces rest).map
          (Char.ofNat (0x10000 + (high - 0xd800) * 0x400 + (low - 0xdc00)) :: ·)
      else none
    else if isLowSurrogate high then none
    else (joinPieces (.unit low :: rest)).map (Char.ofNat high :: ·)
  | .unit unit :: rest =>
    if isHighSurrogate unit || isLowSurrogate unit then none
    else (joinPieces rest).map (Char.ofNat unit :: ·)

/-! ## Numbers -/

/-- An optional minus. -/
def takeMinus : List Char → Bool × List Char
  | '-' :: rest => (true, rest)
  | rest => (false, rest)

/-- The numeral at the beginning of a text.  The whole digits have no leading zero, and a point or
an exponent has digits after it. -/
def scanNumeral (text : List Char) : Option (Numeral × List Char) :=
  let (negative, text) := takeMinus text
  let (whole, text) := Numeral.takeDigits text
  let (fraction, text) := Numeral.takeFraction text
  if whole = [] ∨ (whole.head? = some '0' ∧ whole ≠ ['0']) ∨ fraction = some [] then none
  else
    (Numeral.takeExponent text).map fun (exponent, rest) ↦
      ({ negative, whole, fraction, exponent }, rest)

/-! ## Whole texts -/

/-- The characters that may stand between tokens. -/
def isSpace (c : Char) : Bool :=
  c = ' ' || c = '\t' || c = '\n' || c = '\r'

/-- The token at the beginning of a text, and the text after it. -/
def scanFirst [DoubleReader] : List Char → Option (Token × List Char)
  | '[' :: rest => some (.beginArray, rest)
  | ']' :: rest => some (.endArray, rest)
  | '\x7b' :: rest => some (.beginObject, rest)
  | '\x7d' :: rest => some (.endObject, rest)
  | ',' :: rest => some (.comma, rest)
  | ':' :: rest => some (.colon, rest)
  | 'n' :: 'u' :: 'l' :: 'l' :: rest => some (.null, rest)
  | 't' :: 'r' :: 'u' :: 'e' :: rest => some (.bool true, rest)
  | 'f' :: 'a' :: 'l' :: 's' :: 'e' :: rest => some (.bool false, rest)
  | '"' :: rest =>
    (scanPieces rest).map fun (pieces, rest) ↦
      (.string ((joinPieces pieces).map String.ofList), rest)
  | text =>
    (scanNumeral text).map fun (numeral, rest) ↦ (.number (Number.ofNumeral? numeral), rest)

/-! ## What scanning leaves -/

theorem scanPieces_length_lt {text rest : List Char} {pieces : List Piece}
    (h : scanPieces text = some (pieces, rest)) : rest.length < text.length := by
  fun_induction scanPieces text generalizing pieces rest with
  | case1 => simp at h
  | case2 => simp_all
  | case3 a b c d text ih =>
    simp only [bind, Option.bind_eq_some_iff] at h
    obtain ⟨unit, -, ⟨found, remaining⟩, hfound, hresult⟩ := h
    obtain ⟨-, rfl⟩ : _ ∧ remaining = rest := by simpa using hresult
    have := ih hfound
    simp only [List.length_cons]
    omega
  | case4 letter text _ ih =>
    simp only [bind, Option.bind_eq_some_iff] at h
    obtain ⟨char, -, ⟨found, remaining⟩, hfound, hresult⟩ := h
    obtain ⟨-, rfl⟩ : _ ∧ remaining = rest := by simpa using hresult
    have := ih hfound
    simp only [List.length_cons]
    omega
  | case5 => simp at h
  | case6 char text _ _ _ _ ih =>
    simp only [bind, Option.bind_eq_some_iff] at h
    obtain ⟨⟨found, remaining⟩, hfound, hresult⟩ := h
    obtain ⟨-, rfl⟩ : _ ∧ remaining = rest := by simpa using hresult
    have := ih hfound
    simp only [List.length_cons]
    omega

theorem scanNumeral_length_lt {text rest : List Char} {numeral : Numeral}
    (h : scanNumeral text = some (numeral, rest)) : rest.length < text.length := by
  have hminus : (takeMinus text).2.length ≤ text.length := by
    unfold takeMinus
    split <;> simp
  have hdigits := Numeral.takeDigits_length (takeMinus text).2
  have hfraction := Numeral.takeFraction_length_le (Numeral.takeDigits (takeMinus text).2).2
  unfold scanNumeral at h
  dsimp only at h
  split at h
  · simp at h
  · rename_i hwhole
    obtain ⟨⟨exponent, remaining⟩, hexponent, hresult⟩ := Option.map_eq_some_iff.1 h
    obtain ⟨-, rfl⟩ : _ ∧ remaining = rest := by simpa using hresult
    have hlength := Numeral.takeExponent_length_le hexponent
    have hpositive := List.length_pos_iff.2 fun hempty ↦ hwhole (.inl hempty)
    omega

theorem scanFirst_length_lt [DoubleReader] {text rest : List Char} {token : Token}
    (h : scanFirst text = some (token, rest)) : rest.length < text.length := by
  unfold scanFirst at h
  split at h
  case h_10 text =>
    obtain ⟨⟨pieces, remaining⟩, hpieces, hresult⟩ := Option.map_eq_some_iff.1 h
    obtain ⟨-, rfl⟩ : _ ∧ remaining = rest := by simpa using hresult
    have := scanPieces_length_lt hpieces
    simp only [List.length_cons]
    omega
  case h_11 =>
    obtain ⟨⟨numeral, remaining⟩, hnumeral, hresult⟩ := Option.map_eq_some_iff.1 h
    obtain ⟨-, rfl⟩ : _ ∧ remaining = rest := by simpa using hresult
    exact scanNumeral_length_lt hnumeral
  all_goals
    obtain ⟨-, rfl⟩ : _ ∧ _ = rest := by simpa using h
    simp only [List.length_cons]
    omega

/-- The tokens of a text. -/
def scan [DoubleReader] : List Char → List Token
  | [] => []
  | char :: text =>
    if isSpace char then scan text
    else match h : scanFirst (char :: text) with
      | some (token, rest) =>
        have := scanFirst_length_lt h
        token :: scan rest
      | none => [.invalid]
termination_by text => text.length
decreasing_by
  · exact Nat.lt_succ_self _
  · exact this

end Token

end StagedQuery.Json
