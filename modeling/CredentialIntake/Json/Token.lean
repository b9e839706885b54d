import CredentialIntake.Bytes.Hex
import CredentialIntake.Json.Value

/-!
# JSON tokens

The scanner goes once over the characters of a document and cuts them into
punctuation and scalars. Blank is only the space, the tab and the two line
characters. A string may hold every character from U+0020 on; an escape that
names half of a surrogate pair without the other half leaves the string without
a text, but does not end the scan.
-/

namespace CredentialIntake.Json

inductive Token where
  | beginObject
  | endObject
  | beginArray
  | endArray
  | colon
  | comma
  | scalar (value : Value)

/-! ## Words -/

/-- The digits at the front and what follows them. -/
def spanDigits (chars : List Char) : List Char × List Char := chars.span Char.isDigit

/-- Whether the characters are an exponent, or nothing. -/
def isExponent : List Char → Bool
  | [] => true
  | mark :: rest =>
    (mark == 'e' || mark == 'E') &&
      let digits := match rest with
        | '+' :: rest => rest
        | '-' :: rest => rest
        | rest => rest
      !digits.isEmpty && digits.all Char.isDigit

/-- Whether the characters may follow the integer part of a number. -/
def isFractionAndExponent : List Char → Bool
  | '.' :: rest =>
    let (digits, rest) := spanDigits rest
    !digits.isEmpty && isExponent rest
  | rest => isExponent rest

/-- A number without its sign: an integer part with no needless leading zero,
then perhaps a fraction and an exponent. -/
def unsignedNumber? (chars : List Char) : Option Value :=
  let (digits, rest) := spanDigits chars
  let wellFormed := match digits with
    | [] => false
    | '0' :: _ :: _ => false
    | _ => true
  if !wellFormed then none
  else if rest.isEmpty then
    some (.natural (digits.foldl (fun value digit => 10 * value + (digit.toNat - 48)) 0))
  else if isFractionAndExponent rest then some .otherNumber
  else none

/-- The value a bare word stands for. -/
def wordValue? (chars : List Char) : Option Value :=
  match chars with
  | ['n', 'u', 'l', 'l'] => some .null
  | ['t', 'r', 'u', 'e'] => some (.bool true)
  | ['f', 'a', 'l', 's', 'e'] => some (.bool false)
  | '-' :: digits => (unsignedNumber? digits).map fun _ => .otherNumber
  | digits => unsignedNumber? digits

/-! ## Strings -/

/-- The part of a string already read: its characters in reverse, the first half
of a surrogate pair that waits for the second, and whether the string has lost
its claim to be a text. -/
structure PartialText where
  chars : List Char
  high : Option Nat
  broken : Bool

namespace PartialText

def empty : PartialText := ⟨[], none, false⟩

def push (part : PartialText) (char : Char) : PartialText :=
  ⟨char :: part.chars, none, part.broken || part.high.isSome⟩

/-- Takes an escaped UTF-16 unit: two halves of a pair in a row make one
character, a half without the other breaks the text. -/
def pushUnit (part : PartialText) (code : Nat) : PartialText :=
  let isHigh := 0xD800 ≤ code && code ≤ 0xDBFF
  let isLow := 0xDC00 ≤ code && code ≤ 0xDFFF
  match part.high with
  | some high =>
    if isLow then
      { part with
        chars := Char.ofNat (0x10000 + (high - 0xD800) * 0x400 + (code - 0xDC00)) :: part.chars
        high := none }
    else { part with broken := true }
  | none =>
    if isHigh then { part with high := some code }
    else if isLow then { part with broken := true }
    else part.push (Char.ofNat code)

def text? (part : PartialText) : Option String :=
  if part.broken || part.high.isSome then none else some (String.ofList part.chars.reverse)

end PartialText

/-- The character a one-letter escape stands for. -/
def shortEscape? : Char → Option Char
  | '"' => some '"'
  | '\\' => some '\\'
  | '/' => some '/'
  | 'b' => some '\x08'
  | 'f' => some '\x0c'
  | 'n' => some '\n'
  | 'r' => some '\r'
  | 't' => some '\t'
  | _ => none

/-! ## Scanning -/

/-- Where the scanner stands: between tokens, inside a bare word (in reverse),
inside a string, after the backslash of an escape, or inside the four digits of
a numeric escape. -/
inductive Scan where
  | between
  | word (chars : List Char)
  | text (part : PartialText)
  | escape (part : PartialText)
  | unit (part : PartialText) (missing : Nat) (code : Nat)

def isSpace (char : Char) : Bool := char == ' ' || char == '\t' || char == '\n' || char == '\r'

def punctuation? : Char → Option Token
  | '\x7b' => some .beginObject
  | '\x7d' => some .endObject
  | '[' => some .beginArray
  | ']' => some .endArray
  | ':' => some .colon
  | ',' => some .comma
  | _ => none

/-- A character outside of words and strings. -/
def scanBetween (char : Char) (tokens : List Token) : Scan × List Token :=
  if isSpace char then (.between, tokens)
  else if char = '"' then (.text .empty, tokens)
  else match punctuation? char with
    | some token => (.between, token :: tokens)
    | none => (.word [char], tokens)

/-- Ends a bare word. -/
def closeWord? (chars : List Char) (tokens : List Token) : Option (List Token) :=
  (wordValue? chars.reverse).map fun value => .scalar value :: tokens

/-- Takes one character; the tokens found so far are in reverse. -/
def scanChar? (char : Char) : Scan × List Token → Option (Scan × List Token)
  | (.between, tokens) => some (scanBetween char tokens)
  | (.word chars, tokens) =>
    if isSpace char || char == '"' || (punctuation? char).isSome then
      (closeWord? chars tokens).map (scanBetween char)
    else some (.word (char :: chars), tokens)
  | (.text part, tokens) =>
    if char = '"' then some (.between, .scalar (.string part.text?) :: tokens)
    else if char = '\\' then some (.escape part, tokens)
    else if char.toNat < 0x20 then none
    else some (.text (part.push char), tokens)
  | (.escape part, tokens) =>
    if char = 'u' then some (.unit part 4 0, tokens)
    else (shortEscape? char).map fun char => (.text (part.push char), tokens)
  | (.unit part missing code, tokens) =>
    (Hex.value? char).map fun digit =>
      let code := 16 * code + digit
      match missing with
      | missing + 2 => (.unit part (missing + 1) code, tokens)
      | _ => (.text (part.pushUnit code), tokens)

/-- The tokens of a document, none when a string is left open or a word is no
value. -/
def tokens? (chars : List Char) : Option (List Token) := do
  let (scan, tokens) ← chars.foldlM (fun state char => scanChar? char state) (.between, [])
  match scan with
  | .between => return tokens.reverse
  | .word chars => return (← closeWord? chars tokens).reverse
  | _ => none

end CredentialIntake.Json
