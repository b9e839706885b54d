/-!
# Blank characters

Settings, method names and tokens are read without the blank characters around
them. Blank is every character with the Unicode property White_Space, so the
no-break space and the ideographic space count, the zero-width space does not.
-/

namespace CredentialIntake.Text

/-- Inclusive ranges of the code points with the property White_Space. -/
def blankRanges : List (Nat × Nat) :=
  [(0x9, 0xD), (0x20, 0x20), (0x85, 0x85), (0xA0, 0xA0), (0x1680, 0x1680), (0x2000, 0x200A),
   (0x2028, 0x2029), (0x202F, 0x202F), (0x205F, 0x205F), (0x3000, 0x3000)]

def isBlank (char : Char) : Bool :=
  blankRanges.any fun (first, last) => first ≤ char.toNat && char.toNat ≤ last

/-- The characters between the first and the last one that is not blank. -/
def trimChars (chars : List Char) : List Char :=
  ((chars.dropWhile isBlank).reverse.dropWhile isBlank).reverse

def trim (text : String) : String := String.ofList (trimChars text.toList)

/-- The text with the letters `A` to `Z` in lower case, all else unchanged. -/
def lowerCase (text : String) : String := String.ofList (text.toList.map Char.toLower)

end CredentialIntake.Text
