import StagedQuery.Text.Unseen

/-!
# Escaped Texts

The form in which an error message shows a text: between double quotes, with escapes for the
quote, the backslash and every character that does not show.
-/

namespace StagedQuery.Text

/-- The code point of a character in lower-case hexadecimal, inside `\\u\x7b…\x7d`. -/
def escapeCode (c : Char) : List Char :=
  '\\' :: 'u' :: '\x7b' :: Nat.toDigits 16 c.toNat ++ ['\x7d']

def escapeChar (c : Char) : List Char :=
  match c with
  | '\x00' => ['\\', '0']
  | '\t' => ['\\', 't']
  | '\n' => ['\\', 'n']
  | '\r' => ['\\', 'r']
  | '"' => ['\\', '"']
  | '\\' => ['\\', '\\']
  | _ => if c < ' ' || isUnseen c then escapeCode c else [c]

def escape (text : String) : String :=
  String.ofList ('"' :: text.toList.flatMap escapeChar ++ ['"'])

end StagedQuery.Text
