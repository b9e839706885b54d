import CredentialIntake.Bytes

/-!
# Base64

The standard alphabet with padding: three bytes become four symbols, and a last
group of one or two bytes is filled up with `=`. Reading accepts exactly what
writing produces: no line breaks, the padding required, and the unused bits of
the last symbol zero.
-/

namespace CredentialIntake.Base64

/-- The ASCII code of the symbol for a number below sixty-four: capital letters,
small letters, digits, `+` and `/`. -/
def symbol (value : Nat) : UInt8 :=
  if value < 26 then UInt8.ofNat (65 + value)
  else if value < 52 then UInt8.ofNat (71 + value)
  else if value < 62 then UInt8.ofNat (value - 4)
  else if value = 62 then 43
  else 47

/-- The ASCII code of `=`. -/
def padding : UInt8 := 61

/-- The number a symbol stands for. -/
def value? (code : UInt8) : Option Nat :=
  if 65 ≤ code ∧ code ≤ 90 then some (code.toNat - 65)
  else if 97 ≤ code ∧ code ≤ 122 then some (code.toNat - 71)
  else if 48 ≤ code ∧ code ≤ 57 then some (code.toNat + 4)
  else if code = 43 then some 62
  else if code = 47 then some 63
  else none

/-- Writes bytes three at a time; `done` holds the symbols written so far, the
last one first. -/
def encodeOnto (done : Bytes) : Bytes → Bytes
  | a :: b :: c :: rest =>
    let group := a.toNat * 65536 + b.toNat * 256 + c.toNat
    encodeOnto
      (symbol (group % 64) :: symbol (group / 64 % 64) :: symbol (group / 4096 % 64) ::
        symbol (group / 262144) :: done)
      rest
  | [a, b] =>
    let group := a.toNat * 1024 + b.toNat * 4
    (padding :: symbol (group % 64) :: symbol (group / 64 % 64) :: symbol (group / 4096) ::
      done).reverse
  | [a] =>
    let group := a.toNat * 16
    (padding :: padding :: symbol (group % 64) :: symbol (group / 64) :: done).reverse
  | [] => done.reverse

def encode (bytes : Bytes) : Bytes := encodeOnto [] bytes

/-- Reads symbols four at a time; `done` holds the bytes read so far, the last
one first. Padding may close the last group only. -/
def decodeOnto (done : Bytes) : Bytes → Option Bytes
  | [] => some done.reverse
  | a :: b :: c :: d :: rest =>
    match value? a, value? b, value? c, value? d with
    | some a, some b, some c, some d =>
      let group := a * 262144 + b * 4096 + c * 64 + d
      decodeOnto
        (UInt8.ofNat (group % 256) :: UInt8.ofNat (group / 256 % 256) ::
          UInt8.ofNat (group / 65536) :: done)
        rest
    | some a, some b, some c, none =>
      if d = padding ∧ rest = [] ∧ c % 4 = 0 then
        let group := a * 4096 + b * 64 + c
        some ((UInt8.ofNat (group / 4 % 256) :: UInt8.ofNat (group / 1024) :: done).reverse)
      else none
    | some a, some b, none, none =>
      if c = padding ∧ d = padding ∧ rest = [] ∧ b % 16 = 0 then
        some ((UInt8.ofNat ((a * 64 + b) / 16) :: done).reverse)
      else none
    | _, _, _, _ => none
  | _ => none

def decode? (symbols : Bytes) : Option Bytes := decodeOnto [] symbols

end CredentialIntake.Base64
