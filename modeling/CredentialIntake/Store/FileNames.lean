import CredentialIntake.Path

/-!
# Names of credential files

A credential of a client is kept under a name built from the client's name and
the credential's id. The client name is used as it is and therefore has to be a
single name; the id may be any text, so the characters that mean something in
paths or in ClassAd values are spelled out as `.<word>,`.
-/

namespace CredentialIntake.Store

/-- The characters that are spelled out in an id, with their words. -/
def spelledOut : List (Char × String) :=
  [('.', "dot"), (',', "comma"), ('&', "amp"), ('\\', "backslash"), ('|', "fork"),
    ('\'', "singquot"), ('"', "quot"), ('=', "eq"), ('+', "plus"), ('-', "minus"), ('<', "lt"),
    ('>', "gt"), ('(', "open"), (')', "close"), ('\x7b', "gopen"), ('\x7d', "gclose"),
    ('[', "sopen"), (']', "sclose"), ('#', "comment"), ('$', "dollar"), ('*', "star"),
    ('?', "question"), ('!', "not"), ('~', "tilde"), (':', "colon"), (';', "semicolon"),
    ('/', "slash"), (' ', "nbsp")]

/-- One character of an id: itself, or `.`, its word and `,`. -/
def escapeChar (char : Char) : List Char :=
  match spelledOut.lookup char with
  | some word => '.' :: (word.toList ++ [','])
  | none => [char]

def escapeChars (chars : List Char) : List Char := chars.flatMap escapeChar

/-- The form of an id that can stand in a file name. -/
def escapeId (id : String) : String := String.ofList (escapeChars id.toList)

/-- The character a word stands for. -/
def charOfWord? (word : List Char) : Option Char :=
  (spelledOut.find? fun entry => entry.2.toList == word).map (·.1)

/-- Reads an escaped id back. `word` is the word begun, in reverse, when the
reader stands between a `.` and its `,`. A character that writing spells out is
refused when it stands there by itself. -/
def unescapeFrom (word : Option (List Char)) : List Char → Option (List Char)
  | [] => if word.isNone then some [] else none
  | char :: rest =>
    match word with
    | none =>
      if char = '.' then unescapeFrom (some []) rest
      else if (spelledOut.lookup char).isSome then none
      else (unescapeFrom none rest).map (char :: ·)
    | some word =>
      if char = ',' then
        (charOfWord? word.reverse).bind fun char => (unescapeFrom none rest).map (char :: ·)
      else unescapeFrom (some (char :: word)) rest

/-- The id an escaped form stands for, if it is one. -/
def unescapeId? (escaped : String) : Option String :=
  (unescapeFrom none escaped.toList).map String.ofList

/-- Whether a text is a single name that neither climbs out of a directory nor
reaches across one. -/
def isSafeName (text : String) : Bool :=
  text ≠ "" && text ≠ "." && text ≠ ".." && !text.toList.contains '/' &&
    !text.toList.contains '\x00'

/-- The name of the file a credential is kept in. -/
def credentialName (client id : String) : String :=
  "credential_" ++ client ++ "_" ++ escapeId id

/-- The two files of one credential. -/
structure CredentialFiles where
  /-- The material as it is. -/
  raw : Path
  /-- The material in the compressed form. -/
  compressed : Path
  deriving DecidableEq

/-- The files of a credential in a directory: the compressed form stands beside
the raw one. -/
def credentialFiles (folder : Path) (client id : String) : CredentialFiles :=
  let raw := folder.join (credentialName client id)
  { raw, compressed := raw.withSuffix "_compressed" }

end CredentialIntake.Store
