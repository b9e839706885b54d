import CredentialIntake.Bytes

/-!
# Deflate

Compressed data as a sequence of blocks. The writer stores the bytes as they
are, in blocks of at most 65535; the reader understands every block kind, so
what it gives back does not depend on who wrote the data.

Data elements are read from the low bit of each byte upwards, prefix codes from
their most significant bit.
-/

namespace CredentialIntake.Deflate

/-! ## Writing -/

/-- The most bytes a stored block can hold. -/
def storedLimit : Nat := 65535

/-- A block of at most `storedLimit` bytes kept as they are: one byte with the
kind and the mark of the last block, the length, its complement, the bytes. -/
def storedBlock (last : Bool) (content : Bytes) : Bytes :=
  (if last then 1 else 0) :: (Bytes.littleEndian 2 content.length ++
    (Bytes.littleEndian 2 (storedLimit - content.length) ++ content))

/-- The bytes in stored blocks: `full` blocks of `storedLimit` bytes, then the
last block with all others. -/
def storedBlocks : (full : Nat) → (content : Bytes) → Bytes
  | 0, content => storedBlock true content
  | full + 1, content =>
    storedBlock false (content.take storedLimit) ++ storedBlocks full (content.drop storedLimit)

/-- The bytes in as few stored blocks as can hold them, at least one. -/
def stored (content : Bytes) : Bytes :=
  storedBlocks ((content.length - 1) / storedLimit) content

/-! ## Reading bits -/

/-- What is left to read: the bits left of the byte last begun, the lowest
first, and the bytes after it. -/
structure Input where
  bits : List Bool
  rest : Bytes

namespace Input

def ofBytes (bytes : Bytes) : Input := ⟨[], bytes⟩

/-- The eight bits of a byte, the lowest first. -/
def bitsOf (byte : UInt8) : List Bool := (List.range 8).map byte.toNat.testBit

def takeBit? (input : Input) : Option (Bool × Input) :=
  match input.bits, input.rest with
  | bit :: bits, rest => some (bit, ⟨bits, rest⟩)
  | [], byte :: rest =>
    match bitsOf byte with
    | bit :: bits => some (bit, ⟨bits, rest⟩)
    | [] => none
  | [], [] => none

/-- A number of `count` bits, the low bit first. -/
def takeNumber? : (count : Nat) → Input → Option (Nat × Input)
  | 0, input => some (0, input)
  | count + 1, input => do
    let (bit, input) ← input.takeBit?
    let (high, input) ← takeNumber? count input
    return (bit.toNat + 2 * high, input)

/-- How many bits are left, an upper bound for every count of things to read. -/
def size (input : Input) : Nat := input.bits.length + 8 * input.rest.length

end Input

/-! ## Prefix codes -/

/-- A canonical prefix code: for the lengths 1, 2, … the symbols whose code has
that length, in ascending order. -/
abbrev Code := List (List Nat)

namespace Code

/-- The longest code a symbol can have. -/
def maxLength : Nat := 15

/-- The code in which symbol `i` has the `i`-th of the given lengths; length
zero leaves a symbol out. -/
def ofLengths (lengths : List Nat) : Code :=
  (List.range maxLength).map fun shorter =>
    lengths.zipIdx.filterMap fun (length, symbol) =>
      if length = shorter + 1 then some symbol else none

/-- How many codes of the longest length are left free, none when more codes
are asked for than there are. -/
def spare? (code : Code) : Option Nat :=
  code.foldl (fun free symbols => free.bind fun free =>
    if symbols.length ≤ 2 * free then some (2 * free - symbols.length) else none) (some 1)

/-- Whether every sequence of bits begins with a code of some symbol. -/
def isComplete (code : Code) : Bool := code.spare? == some 0

/-- A code is usable when it is complete. Besides, a single symbol may have a code
of one bit, and there may be no symbol at all. -/
def isUsable (code : Code) : Bool :=
  code.isComplete || (code.flatten.length ≤ 1 && (code.drop 1).flatten.isEmpty)

/-- Reads one symbol. `position` counts how far the bits read so far lie behind
the first code of their length. -/
def takeSymbol? (position : Nat) : Code → Input → Option (Nat × Input)
  | [], _ => none
  | symbols :: longer, input => do
    let (bit, input) ← input.takeBit?
    let position := 2 * position + bit.toNat
    match symbols[position]? with
    | some symbol => return (symbol, input)
    | none => takeSymbol? (position - symbols.length) longer input

end Code

/-! ## Reading blocks -/

/-- The shortest length each length symbol from 257 on stands for, with the
number of extra bits that follow it. -/
def lengthTable : List (Nat × Nat) :=
  [(3, 0), (4, 0), (5, 0), (6, 0), (7, 0), (8, 0), (9, 0), (10, 0), (11, 1), (13, 1), (15, 1),
    (17, 1), (19, 2), (23, 2), (27, 2), (31, 2), (35, 3), (43, 3), (51, 3), (59, 3), (67, 4),
    (83, 4), (99, 4), (115, 4), (131, 5), (163, 5), (195, 5), (227, 5), (258, 0)]

/-- The shortest distance each distance symbol stands for, with the number of
extra bits that follow it. -/
def distanceTable : List (Nat × Nat) :=
  [(1, 0), (2, 0), (3, 0), (4, 0), (5, 1), (7, 1), (9, 2), (13, 2), (17, 3), (25, 3), (33, 4),
    (49, 4), (65, 5), (97, 5), (129, 6), (193, 6), (257, 7), (385, 7), (513, 8), (769, 8),
    (1025, 9), (1537, 9), (2049, 10), (3073, 10), (4097, 11), (6145, 11), (8193, 12),
    (12289, 12), (16385, 13), (24577, 13)]

/-- A table row's base plus its extra bits. -/
def takeExtended? (table : List (Nat × Nat)) (row : Nat) (input : Input) :
    Option (Nat × Input) := do
  let (base, extra) ← table[row]?
  let (more, input) ← input.takeNumber? extra
  return (base + more, input)

/-- Repeats `length` times the byte `distance` places back; `done` holds the
output so far, the last byte first. -/
def copyBack? (distance : Nat) : (length : Nat) → (done : Bytes) → Option Bytes
  | 0, done => some done
  | length + 1, done => do
    let byte ← done[distance - 1]?
    copyBack? distance length (byte :: done)

/-- The symbols of a compressed block up to its end mark. Every symbol takes at
least one bit, so `bound` is never used up before the input is. -/
def takeSymbols? (literals distances : Code) :
    (bound : Nat) → (done : Bytes) → Input → Option (Bytes × Input)
  | 0, _, _ => none
  | bound + 1, done, input => do
    let (symbol, input) ← Code.takeSymbol? 0 literals input
    if symbol < 256 then
      takeSymbols? literals distances bound (UInt8.ofNat symbol :: done) input
    else if symbol = 256 then
      return (done, input)
    else
      let (length, input) ← takeExtended? lengthTable (symbol - 257) input
      let (row, input) ← Code.takeSymbol? 0 distances input
      let (distance, input) ← takeExtended? distanceTable row input
      let done ← copyBack? distance length done
      takeSymbols? literals distances bound done input

/-- The lengths of the fixed literal code. -/
def fixedLiterals : Code :=
  Code.ofLengths (List.replicate 144 8 ++ List.replicate 112 9 ++ List.replicate 24 7 ++
    List.replicate 8 8)

/-- The lengths of the fixed distance code. -/
def fixedDistances : Code := Code.ofLengths (List.replicate 30 5 ++ List.replicate 2 5)

/-- The order in which the lengths of the code-length code are written. -/
def lengthOrder : List Nat := [16, 17, 18, 0, 8, 7, 9, 6, 10, 5, 11, 4, 12, 3, 13, 2, 14, 1, 15]

/-- `count` numbers of three bits. -/
def takeTriples? : (count : Nat) → Input → Option (List Nat × Input)
  | 0, input => some ([], input)
  | count + 1, input => do
    let (first, input) ← input.takeNumber? 3
    let (others, input) ← takeTriples? count input
    return (first :: others, input)

/-- Code lengths until `wanted` are there, written with repeats; `done` holds
them in reverse. A repeat must not run past the wanted number. -/
def takeLengths? (code : Code) (wanted : Nat) :
    (bound : Nat) → (done : List Nat) → Input → Option (List Nat × Input)
  | 0, _, _ => none
  | bound + 1, done, input =>
    if done.length = wanted then some (done.reverse, input)
    else if wanted < done.length then none
    else do
      let (symbol, input) ← Code.takeSymbol? 0 code input
      if symbol < 16 then
        takeLengths? code wanted bound (symbol :: done) input
      else if symbol = 16 then
        let previous ← done.head?
        let (more, input) ← input.takeNumber? 2
        takeLengths? code wanted bound (List.replicate (3 + more) previous ++ done) input
      else if symbol = 17 then
        let (more, input) ← input.takeNumber? 3
        takeLengths? code wanted bound (List.replicate (3 + more) 0 ++ done) input
      else
        let (more, input) ← input.takeNumber? 7
        takeLengths? code wanted bound (List.replicate (11 + more) 0 ++ done) input

/-- The most literal and length symbols a dynamic block may have. -/
def literalLimit : Nat := 286

/-- The most distance symbols a dynamic block may have. -/
def distanceLimit : Nat := 30

/-- The two codes a dynamic block begins with. The code their lengths are written
in has to be complete, and the end mark has to have a code. -/
def takeCodes? (input : Input) : Option (Code × Code × Input) := do
  let (literalExtra, input) ← input.takeNumber? 5
  let (distanceExtra, input) ← input.takeNumber? 5
  let (lengthExtra, input) ← input.takeNumber? 4
  let literalCount := literalExtra + 257
  let distanceCount := distanceExtra + 1
  guard (literalCount ≤ literalLimit && distanceCount ≤ distanceLimit)
  let (triples, input) ← takeTriples? (lengthExtra + 4) input
  let written := lengthOrder.zip triples
  let lengthCode := Code.ofLengths ((List.range 19).map fun symbol =>
    (written.lookup symbol).getD 0)
  guard lengthCode.isComplete
  let wanted := literalCount + distanceCount
  let (lengths, input) ← takeLengths? lengthCode wanted (wanted + 1) [] input
  let literals := Code.ofLengths (lengths.take literalCount)
  let distances := Code.ofLengths (lengths.drop literalCount)
  guard (literals.flatten.contains 256)
  guard (literals.isUsable && distances.isUsable)
  return (literals, distances, input)

/-- A stored block begins at a whole byte; its length is written twice, the
second time complemented. -/
def takeStored? (done : Bytes) (input : Input) : Option (Bytes × Input) :=
  match input.rest with
  | a :: b :: c :: d :: rest =>
    let length := Bytes.littleEndianValue [a, b]
    if Bytes.littleEndianValue [c, d] = storedLimit - length ∧ length ≤ rest.length then
      some ((rest.take length).reverse ++ done, ⟨[], rest.drop length⟩)
    else none
  | _ => none

/-- Blocks up to the one marked as the last. Every block takes at least three
bits, so `bound` is never used up before the input is. -/
def takeBlocks? : (bound : Nat) → (done : Bytes) → Input → Option (Bytes × Input)
  | 0, _, _ => none
  | bound + 1, done, input => do
    let (last, input) ← input.takeBit?
    let (kind, input) ← input.takeNumber? 2
    let (done, input) ←
      if kind = 0 then takeStored? done input
      else if kind = 1 then takeSymbols? fixedLiterals fixedDistances (input.size + 1) done input
      else if kind = 2 then do
        let (literals, distances, input) ← takeCodes? input
        takeSymbols? literals distances (input.size + 1) done input
      else none
    if last then return (done, input) else takeBlocks? bound done input

/-- The content of compressed data and the bytes after it. -/
def inflate? (bytes : Bytes) : Option (Bytes × Bytes) := do
  let (done, input) ← takeBlocks? (8 * bytes.length + 1) [] (Input.ofBytes bytes)
  return (done.reverse, input.rest)

end CredentialIntake.Deflate
