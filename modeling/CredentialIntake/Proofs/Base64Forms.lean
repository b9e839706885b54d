import CredentialIntake.Bytes.Base64
import Mathlib

/-!
# The form of base64 texts

Base64 takes the bits of a byte string six at a time and writes each six as one
symbol of a fixed alphabet.  The last six are filled up with zeros, and the text
with padding to a multiple of four symbols.  Nothing is lost: what was written is
read back.
-/

namespace CredentialIntake

namespace Bytes

/-! ## Bits -/

/-- The lowest bits of a number, the highest of them first. -/
def lowBits : (count : Nat) → (value : Nat) → List Bool
  | 0, _ => []
  | count + 1, value => value.testBit count :: lowBits count value

theorem lowBits_mod (count value : Nat) : lowBits count (value % 2 ^ count) = lowBits count value := by
  have hlower : ∀ lower, lower ≤ count →
      lowBits lower (value % 2 ^ count) = lowBits lower value := by
    intro lower hle
    induction lower with
    | zero => rfl
    | succ lower ih =>
        rw [lowBits, lowBits, ih (Nat.le_of_succ_le hle), Nat.testBit_mod_two_pow,
          decide_eq_true (Nat.lt_of_succ_le hle), Bool.true_and]
  exact hlower count le_rfl

/-- The bits of a number are those of its high part and those of its low part. -/
theorem lowBits_add (high low value : Nat) :
    lowBits (high + low) value = lowBits high (value / 2 ^ low) ++ lowBits low value := by
  induction high with
  | zero => rw [Nat.zero_add, lowBits, List.nil_append]
  | succ high ih =>
      rw [Nat.succ_add, lowBits, lowBits, ih, Nat.testBit_div_two_pow, List.cons_append]

theorem testBit_eq_of_lowBits_eq {left right : Nat} :
    ∀ {count : Nat}, lowBits count left = lowBits count right →
      ∀ place < count, left.testBit place = right.testBit place
  | 0, _, _, hplace => absurd hplace (Nat.not_lt_zero _)
  | count + 1, hbits, place, hplace => by
      obtain ⟨hbit, hlower⟩ := List.cons.inj hbits
      rcases Nat.lt_succ_iff_lt_or_eq.1 hplace with hlt | rfl
      · exact testBit_eq_of_lowBits_eq hlower place hlt
      · exact hbit

theorem mod_eq_mod_of_lowBits_eq {left right count : Nat}
    (hbits : lowBits count left = lowBits count right) :
    left % 2 ^ count = right % 2 ^ count := by
  apply Nat.eq_of_testBit_eq
  intro place
  rw [Nat.testBit_mod_two_pow, Nat.testBit_mod_two_pow]
  by_cases hplace : place < count
  · rw [testBit_eq_of_lowBits_eq hbits place hplace]
  · rw [decide_eq_false hplace, Bool.false_and, Bool.false_and]

@[simp]
theorem length_lowBits (count value : Nat) : (lowBits count value).length = count := by
  induction count with
  | zero => rfl
  | succ count ih => rw [lowBits, List.length_cons, ih]

/-- The bits of a byte string, each byte from its highest bit on. -/
def bits (bytes : Bytes) : List Bool := bytes.flatMap fun byte => lowBits 8 byte.toNat

end Bytes

namespace Base64

open Bytes

/-! ## Symbols -/

/-- The standard alphabet, in the order of what its symbols stand for. -/
def alphabet : Bytes :=
  Bytes.ofText "ABCDEFGHIJKLMNOPQRSTUVWXYZabcdefghijklmnopqrstuvwxyz0123456789+/"

theorem alphabet_eq : alphabet = (List.range 64).map symbol := by decide +kernel

theorem alphabet_getElem? (digit : Nat) (hlt : digit < 64) :
    alphabet[digit]? = some (symbol digit) := by
  rw [alphabet_eq, List.getElem?_map, List.getElem?_range hlt, Option.map_some]

@[simp]
theorem value?_symbol : ∀ digit < 64, value? (symbol digit) = some digit := by
  decide +kernel

theorem value?_padding : value? padding = none := by decide

/-! ## Groups -/

/-- Bytes are taken three at a time, and one or two may be left. -/
@[elab_as_elim]
theorem groupInduction {motive : Bytes → Prop} (nil : motive [])
    (single : ∀ a, motive [a]) (pair : ∀ a b, motive [a, b])
    (group : ∀ a b c rest, motive rest → motive (a :: b :: c :: rest)) :
    ∀ bytes, motive bytes
  | [] => nil
  | [a] => single a
  | [a, b] => pair a b
  | a :: b :: c :: rest => group a b c rest (groupInduction nil single pair group rest)

/-- The digits of a byte string, six bits each, the last ones filled up with zeros. -/
def digits : Bytes → List Nat
  | a :: b :: c :: rest =>
    let group := a.toNat * 65536 + b.toNat * 256 + c.toNat
    [group / 262144, group / 4096 % 64, group / 64 % 64, group % 64] ++ digits rest
  | [a, b] =>
    let group := a.toNat * 1024 + b.toNat * 4
    [group / 4096, group / 64 % 64, group % 64]
  | [a] =>
    let group := a.toNat * 16
    [group / 64, group % 64]
  | [] => []

/-- How many padding symbols close the text. -/
def paddingCount (bytes : Bytes) : Nat := (3 - bytes.length % 3) % 3

/-- How many zero bits fill up the last digit. -/
def fillCount (bytes : Bytes) : Nat := 2 * paddingCount bytes

theorem paddingCount_group (a b c : UInt8) (rest : Bytes) :
    paddingCount (a :: b :: c :: rest) = paddingCount rest := by
  simp [paddingCount, Nat.add_assoc]

theorem fillCount_group (a b c : UInt8) (rest : Bytes) :
    fillCount (a :: b :: c :: rest) = fillCount rest := by
  rw [fillCount, paddingCount_group, fillCount]

theorem digits_lt (bytes : Bytes) : ∀ digit ∈ digits bytes, digit < 64 := by
  induction bytes using groupInduction with
  | nil => exact fun _ hdigit => nomatch hdigit
  | single a =>
      have ha := a.toNat_lt
      rw [digits, List.forall_mem_cons, List.forall_mem_singleton]
      omega
  | pair a b =>
      have ha := a.toNat_lt
      have hb := b.toNat_lt
      rw [digits, List.forall_mem_cons, List.forall_mem_cons, List.forall_mem_singleton]
      omega
  | group a b c rest ih =>
      have ha := a.toNat_lt
      have hb := b.toNat_lt
      have hc := c.toNat_lt
      rw [digits, List.forall_mem_append]
      refine ⟨?_, ih⟩
      rw [List.forall_mem_cons, List.forall_mem_cons, List.forall_mem_cons,
        List.forall_mem_singleton]
      omega

private theorem encodeOnto_eq (bytes : Bytes) : ∀ done, encodeOnto done bytes =
    done.reverse ++ ((digits bytes).map symbol ++ List.replicate (paddingCount bytes) padding) := by
  induction bytes using groupInduction with
  | nil => simp [encodeOnto, digits, paddingCount]
  | single a => simp [encodeOnto, digits, paddingCount, List.replicate_succ]
  | pair a b => simp [encodeOnto, digits, paddingCount]
  | group a b c rest ih =>
      intro done
      rw [encodeOnto, ih, paddingCount_group]
      simp [digits]

/-- A text consists of the symbols of the digits, and padding. -/
theorem encode_eq (bytes : Bytes) :
    encode bytes =
      (digits bytes).map symbol ++ List.replicate (paddingCount bytes) padding := by
  rw [encode, encodeOnto_eq, List.reverse_nil, List.nil_append]

private theorem encode_group (a b c : UInt8) (rest : Bytes) :
    encode (a :: b :: c :: rest) =
      symbol ((a.toNat * 65536 + b.toNat * 256 + c.toNat) / 262144) ::
        symbol ((a.toNat * 65536 + b.toNat * 256 + c.toNat) / 4096 % 64) ::
        symbol ((a.toNat * 65536 + b.toNat * 256 + c.toNat) / 64 % 64) ::
        symbol ((a.toNat * 65536 + b.toNat * 256 + c.toNat) % 64) :: encode rest := by
  rw [encode_eq, paddingCount_group, encode_eq, digits]
  rfl

/-! ## The rule of the format -/

/-- The bits of a group of three bytes are those of four digits. -/
private theorem bits_group (a b c : UInt8) :
    [(a.toNat * 65536 + b.toNat * 256 + c.toNat) / 262144,
        (a.toNat * 65536 + b.toNat * 256 + c.toNat) / 4096 % 64,
        (a.toNat * 65536 + b.toNat * 256 + c.toNat) / 64 % 64,
        (a.toNat * 65536 + b.toNat * 256 + c.toNat) % 64].flatMap (lowBits 6) =
      bits [a, b, c] := by
  have ha := a.toNat_lt
  have hb := b.toNat_lt
  have hc := c.toNat_lt
  generalize hgroup : a.toNat * 65536 + b.toNat * 256 + c.toNat = group
  have hhigh : group / 2 ^ 16 = a.toNat := by omega
  have hmiddle : group / 2 ^ 8 % 2 ^ 8 = b.toNat := by omega
  have hlow : group % 2 ^ 8 = c.toNat := by omega
  calc
    _ = lowBits 6 (group / 2 ^ 18) ++ (lowBits 6 (group / 2 ^ 12 % 2 ^ 6) ++
          (lowBits 6 (group / 2 ^ 6 % 2 ^ 6) ++ lowBits 6 (group % 2 ^ 6))) := by simp
    _ = lowBits 24 group := by
      rw [lowBits_mod, lowBits_mod, lowBits_mod, lowBits_add 6 18, lowBits_add 6 12,
        lowBits_add 6 6]
    _ = lowBits 8 (group / 2 ^ 16) ++ (lowBits 8 (group / 2 ^ 8 % 2 ^ 8) ++
          lowBits 8 (group % 2 ^ 8)) := by
      rw [lowBits_mod, lowBits_mod, lowBits_add 8 16, lowBits_add 8 8]
    _ = bits [a, b, c] := by
      rw [hhigh, hmiddle, hlow]
      simp [bits]

/-- Two bytes have the bits of three digits, but for the last two. -/
private theorem bits_pair (a b : UInt8) :
    [(a.toNat * 1024 + b.toNat * 4) / 4096, (a.toNat * 1024 + b.toNat * 4) / 64 % 64,
        (a.toNat * 1024 + b.toNat * 4) % 64].flatMap (lowBits 6) =
      bits [a, b] ++ List.replicate 2 false := by
  have ha := a.toNat_lt
  have hb := b.toNat_lt
  generalize hgroup : a.toNat * 1024 + b.toNat * 4 = group
  have hhigh : group / 2 ^ 10 = a.toNat := by omega
  have hmiddle : group / 2 ^ 2 % 2 ^ 8 = b.toNat := by omega
  have hfill : group % 2 ^ 2 = 0 := by omega
  calc
    _ = lowBits 6 (group / 2 ^ 12) ++ (lowBits 6 (group / 2 ^ 6 % 2 ^ 6) ++
          lowBits 6 (group % 2 ^ 6)) := by simp
    _ = lowBits 18 group := by
      rw [lowBits_mod, lowBits_mod, lowBits_add 6 12, lowBits_add 6 6]
    _ = lowBits 8 (group / 2 ^ 10) ++ (lowBits 8 (group / 2 ^ 2 % 2 ^ 8) ++
          lowBits 2 (group % 2 ^ 2)) := by
      rw [lowBits_mod, lowBits_mod, lowBits_add 8 10, lowBits_add 8 2]
    _ = bits [a, b] ++ List.replicate 2 false := by
      rw [hhigh, hmiddle, hfill]
      simp [bits, lowBits]

/-- One byte has the bits of two digits, but for the last four. -/
private theorem bits_single (a : UInt8) :
    [a.toNat * 16 / 64, a.toNat * 16 % 64].flatMap (lowBits 6) =
      bits [a] ++ List.replicate 4 false := by
  have ha := a.toNat_lt
  generalize hgroup : a.toNat * 16 = group
  have hhigh : group / 2 ^ 4 = a.toNat := by omega
  have hfill : group % 2 ^ 4 = 0 := by omega
  calc
    _ = lowBits 6 (group / 2 ^ 6) ++ lowBits 6 (group % 2 ^ 6) := by simp
    _ = lowBits 12 group := by rw [lowBits_mod, lowBits_add 6 6]
    _ = lowBits 8 (group / 2 ^ 4) ++ lowBits 4 (group % 2 ^ 4) := by
      rw [lowBits_mod, lowBits_add 8 4]
    _ = bits [a] ++ List.replicate 4 false := by
      rw [hhigh, hfill]
      simp [bits, lowBits]

theorem bits_digits (bytes : Bytes) :
    (digits bytes).flatMap (lowBits 6) =
      bits bytes ++ List.replicate (fillCount bytes) false := by
  induction bytes using groupInduction with
  | nil => rfl
  | single a => exact bits_single a
  | pair a b => exact bits_pair a b
  | group a b c rest ih =>
      have hbits : bits (a :: b :: c :: rest) = bits [a, b, c] ++ bits rest := by simp [bits]
      rw [digits, List.flatMap_append, bits_group, ih, hbits, fillCount_group,
        List.append_assoc]

/-- What the format asks of a text: symbols of the standard alphabet for the bits of
the bytes, six at a time and filled up with fewer than six zeros, then padding to a
multiple of four, and nothing else. -/
structure IsBase64 (bytes symbols : Bytes) : Prop where
  spelled : ∃ digits written fill, symbols = written ++ List.replicate (paddingCount bytes) padding ∧
    List.Forall₂ (fun digit symbol => alphabet[digit]? = some symbol) digits written ∧
    digits.flatMap (lowBits 6) = bits bytes ++ List.replicate fill false ∧ fill < 6
  length_eq : symbols.length = 4 * ((bytes.length + 2) / 3)

theorem length_digits_add_paddingCount (bytes : Bytes) :
    (digits bytes).length + paddingCount bytes = 4 * ((bytes.length + 2) / 3) := by
  induction bytes using groupInduction with
  | nil => rfl
  | single a => simp [digits, paddingCount]
  | pair a b => simp [digits, paddingCount]
  | group a b c rest ih =>
      rw [paddingCount_group, digits]
      simp only [List.length_append, List.length_cons, List.length_nil]
      omega

theorem isBase64_encode (bytes : Bytes) : IsBase64 bytes (encode bytes) where
  spelled := by
    refine ⟨digits bytes, (digits bytes).map symbol, fillCount bytes, encode_eq bytes, ?_,
      bits_digits bytes, ?_⟩
    · rw [List.forall₂_map_right_iff, List.forall₂_same]
      exact fun digit hdigit => alphabet_getElem? digit (digits_lt bytes digit hdigit)
    · rw [fillCount, paddingCount]
      omega
  length_eq := by
    rw [encode_eq, List.length_append, List.length_map, List.length_replicate,
      length_digits_add_paddingCount]

private theorem length_flatMap_lowBits (digits : List Nat) :
    (digits.flatMap (lowBits 6)).length = 6 * digits.length := by
  simp [List.length_flatMap, Nat.mul_comm]

/-- Digits below sixty-four are determined by their bits. -/
private theorem eq_of_flatMap_lowBits_eq :
    ∀ {left right : List Nat}, (∀ digit ∈ left, digit < 64) → (∀ digit ∈ right, digit < 64) →
      left.flatMap (lowBits 6) = right.flatMap (lowBits 6) → left = right
  | [], [], _, _, _ => rfl
  | [], _ :: _, _, _, hbits => nomatch hbits
  | _ :: _, [], _, _, hbits => nomatch hbits
  | a :: left, b :: right, hleft, hright, hbits => by
      obtain ⟨hhead, htail⟩ := List.append_inj hbits (by rw [length_lowBits, length_lowBits])
      have ha : a % 64 = a := Nat.mod_eq_of_lt (hleft a List.mem_cons_self)
      have hb : b % 64 = b := Nat.mod_eq_of_lt (hright b List.mem_cons_self)
      have hfirst : a = b := by
        calc
          a = a % 64 := ha.symm
          _ = b % 64 := mod_eq_mod_of_lowBits_eq hhead
          _ = b := hb
      have hrest : left = right :=
        eq_of_flatMap_lowBits_eq (fun digit hdigit => hleft digit (List.mem_cons_of_mem a hdigit))
          (fun digit hdigit => hright digit (List.mem_cons_of_mem b hdigit)) htail
      rw [hfirst, hrest]

private theorem lt_of_alphabet_getElem?_eq {digit : Nat} {code : UInt8}
    (hcode : alphabet[digit]? = some code) : digit < 64 := by
  obtain ⟨hlt, -⟩ := List.getElem?_eq_some_iff.1 hcode
  rwa [alphabet_eq, List.length_map, List.length_range] at hlt

private theorem symbols_eq_map {digits : List Nat} {written : Bytes}
    (hwritten : List.Forall₂ (fun digit symbol => alphabet[digit]? = some symbol) digits written) :
    (∀ digit ∈ digits, digit < 64) ∧ written = digits.map symbol := by
  induction hwritten with
  | nil => simp
  | cons hhead _ ih =>
      have hlt := lt_of_alphabet_getElem?_eq hhead
      have hsymbol := Option.some.inj ((alphabet_getElem? _ hlt).symm.trans hhead)
      exact ⟨List.forall_mem_cons.2 ⟨hlt, ih.1⟩, by rw [List.map_cons, hsymbol, ih.2]⟩

/-- The format leaves no choice. -/
theorem isBase64_iff {bytes symbols : Bytes} : IsBase64 bytes symbols ↔ symbols = encode bytes := by
  constructor
  · rintro ⟨⟨found, written, fill, rfl, hwritten, hbits, hfill⟩, -⟩
    obtain ⟨hlt, rfl⟩ := symbols_eq_map hwritten
    have hsix : fillCount bytes < 6 := by
      rw [fillCount, paddingCount]
      omega
    -- both fill up the last six bits, so they fill up by the same number
    have hfills : fill = fillCount bytes := by
      have hfound := congrArg List.length hbits
      have hdigits := congrArg List.length (bits_digits bytes)
      rw [length_flatMap_lowBits, List.length_append, List.length_replicate] at hfound hdigits
      omega
    have hsame : found = digits bytes := by
      apply eq_of_flatMap_lowBits_eq hlt (digits_lt bytes)
      rw [hbits, bits_digits, hfills]
    rw [encode_eq, hsame]
  · rintro rfl
    exact isBase64_encode bytes

/-- Only the alphabet and the padding occur in a text. -/
theorem mem_alphabet_or_eq_padding {bytes : Bytes} {code : UInt8} (hcode : code ∈ encode bytes) :
    code ∈ alphabet ∨ code = padding := by
  rw [encode_eq, List.mem_append] at hcode
  rcases hcode with hsymbol | hpadding
  · obtain ⟨digit, hdigit, rfl⟩ := List.mem_map.1 hsymbol
    exact Or.inl (List.mem_of_getElem? (alphabet_getElem? digit (digits_lt bytes digit hdigit)))
  · exact Or.inr (List.eq_of_mem_replicate hpadding)

/-! ## Reading back -/

private theorem ofNat_eq_of_eq_toNat {value : Nat} {byte : UInt8} (hvalue : value = byte.toNat) :
    UInt8.ofNat value = byte := by
  rw [hvalue, UInt8.ofNat_toNat]

/-- Four digits make up the number they were taken from. -/
private theorem sum_digits_group (group : Nat) :
    group / 262144 * 262144 + group / 4096 % 64 * 4096 + group / 64 % 64 * 64 + group % 64 =
      group := by
  have hfirst : group / 4096 / 64 = group / 262144 := Nat.div_div_eq_div_mul group 4096 64
  have hsecond : group / 64 / 64 = group / 4096 := Nat.div_div_eq_div_mul group 64 64
  calc
    _ = (64 * (group / 4096 / 64) + group / 4096 % 64) * 4096 + group / 64 % 64 * 64 +
          group % 64 := by
      rw [hfirst]
      ring
    _ = (64 * (group / 64 / 64) + group / 64 % 64) * 64 + group % 64 := by
      rw [Nat.div_add_mod, hsecond]
      ring
    _ = group := by rw [Nat.div_add_mod, Nat.mul_comm, Nat.div_add_mod]

/-- Four symbols are read as the number their digits make up. -/
private theorem decodeOnto_symbols {a b c d : Nat} (ha : a < 64) (hb : b < 64) (hc : c < 64)
    (hd : d < 64) (done rest : Bytes) :
    decodeOnto done (symbol a :: symbol b :: symbol c :: symbol d :: rest) =
      decodeOnto
        (UInt8.ofNat ((a * 262144 + b * 4096 + c * 64 + d) % 256) ::
          UInt8.ofNat ((a * 262144 + b * 4096 + c * 64 + d) / 256 % 256) ::
          UInt8.ofNat ((a * 262144 + b * 4096 + c * 64 + d) / 65536) :: done) rest := by
  rw [decodeOnto]
  simp only [value?_symbol _ ha, value?_symbol _ hb, value?_symbol _ hc, value?_symbol _ hd]

private theorem decodeOnto_encode (bytes : Bytes) :
    ∀ done, decodeOnto done (encode bytes) = some (done.reverse ++ bytes) := by
  induction bytes using groupInduction with
  | nil =>
      intro done
      simp [encode_eq, digits, paddingCount, decodeOnto]
  | single a =>
      intro done
      have ha := a.toNat_lt
      have hbyte : UInt8.ofNat ((a.toNat * 16 / 64 * 64 + a.toNat * 16 % 64) / 16) = a :=
        ofNat_eq_of_eq_toNat (by omega)
      have hfill : a.toNat * 16 % 64 % 16 = 0 := by omega
      simp [encode_eq, digits, paddingCount, List.replicate_succ, decodeOnto, hbyte, hfill,
        value?_symbol (a.toNat * 16 / 64) (by omega),
        value?_symbol (a.toNat * 16 % 64) (by omega), value?_padding]
  | pair a b =>
      intro done
      have ha := a.toNat_lt
      have hb := b.toNat_lt
      generalize hgroup : a.toNat * 1024 + b.toNat * 4 = group
      have hfirst : UInt8.ofNat
          ((group / 4096 * 4096 + group / 64 % 64 * 64 + group % 64) / 1024) = a :=
        ofNat_eq_of_eq_toNat (by omega)
      have hsecond : UInt8.ofNat
          ((group / 4096 * 4096 + group / 64 % 64 * 64 + group % 64) / 4 % 256) = b :=
        ofNat_eq_of_eq_toNat (by omega)
      have hfill : group % 64 % 4 = 0 := by omega
      simp [encode_eq, digits, paddingCount, decodeOnto, hgroup, hfirst, hsecond, hfill,
        value?_symbol (group / 4096) (by omega), value?_symbol (group / 64 % 64) (by omega),
        value?_symbol (group % 64) (by omega), value?_padding]
  | group a b c rest ih =>
      intro done
      have ha := a.toNat_lt
      have hb := b.toNat_lt
      have hc := c.toNat_lt
      rw [encode_group]
      generalize hgroup : a.toNat * 65536 + b.toNat * 256 + c.toNat = group
      have hfirst : UInt8.ofNat (group / 65536) = a := ofNat_eq_of_eq_toNat (by omega)
      have hsecond : UInt8.ofNat (group / 256 % 256) = b := ofNat_eq_of_eq_toNat (by omega)
      have hthird : UInt8.ofNat (group % 256) = c := ofNat_eq_of_eq_toNat (by omega)
      rw [decodeOnto_symbols (by omega) (by omega) (by omega) (by omega), sum_digits_group,
        hfirst, hsecond, hthird, ih]
      simp

/-- What was written is read back. -/
theorem decode?_encode (bytes : Bytes) : decode? (encode bytes) = some bytes := by
  rw [decode?, decodeOnto_encode, List.reverse_nil, List.nil_append]

end Base64

end CredentialIntake
