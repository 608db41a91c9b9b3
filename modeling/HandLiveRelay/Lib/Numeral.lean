import HandLiveRelay.Lib.Bytes

/-!
This module contains numbers as text: pairs of hexadecimal digits for bytes, and signed decimal
numbers.
-/

namespace Hex

/--
The value of a hexadecimal digit of either case.
-/
def value? (c : Char) : Option Nat :=
  if '0' ≤ c ∧ c ≤ '9' then
    some (c.toNat - '0'.toNat)
  else if 'a' ≤ c ∧ c ≤ 'f' then
    some (c.toNat - 'a'.toNat + 10)
  else if 'A' ≤ c ∧ c ≤ 'F' then
    some (c.toNat - 'A'.toNat + 10)
  else
    none

/--
Two lower case digits for each byte.
-/
def encode : List UInt8 → List Char
  | [] => []
  | b :: bs => Nat.digitChar (b.toNat / 16) :: Nat.digitChar (b.toNat % 16) :: encode bs

def decode : List Char → Option (List UInt8)
  | [] => some []
  | [_] => none
  | hi :: lo :: rest => do
    let hi ← value? hi
    let lo ← value? lo
    let bytes ← decode rest
    return UInt8.ofNat (hi * 16 + lo) :: bytes

theorem value?_digitChar {v : Nat} (h : v < 16) : value? (Nat.digitChar v) = some v := by
  have hall : ∀ v ∈ List.range 16, value? (Nat.digitChar v) = some v := by decide
  exact hall v (List.mem_range.mpr h)

@[simp]
theorem decode_encode (l : List UInt8) : decode (encode l) = some l := by
  induction l with
  | nil => rfl
  | cons b bs ih =>
    have hb := b.toNat_lt
    simp only [encode, decode]
    rw [value?_digitChar (by omega), value?_digitChar (by omega), ih]
    simp only [Option.bind_eq_bind, Option.bind_some, Option.pure_def, Option.some.injEq,
      List.cons.injEq, and_true, ← UInt8.toNat_inj, UInt8.toNat_ofNat']
    omega

@[simp]
theorem length_encode (l : List UInt8) : (encode l).length = 2 * l.length := by
  induction l with
  | nil => rfl
  | cons b bs ih =>
    simp only [encode, List.length_cons, ih]
    omega

theorem encode_append (l l' : List UInt8) : encode (l ++ l') = encode l ++ encode l' := by
  induction l with
  | nil => rfl
  | cons b bs ih => simp [encode, ih]

theorem mem_encode {c : Char} {l : List UInt8} (h : c ∈ encode l)
    : ∃ v < 16, c = Nat.digitChar v := by
  induction l with
  | nil => simp [encode] at h
  | cons b bs ih =>
    have hb := b.toNat_lt
    simp only [encode, List.mem_cons] at h
    rcases h with h | h | h
    . exact ⟨b.toNat / 16, by omega, h⟩
    . exact ⟨b.toNat % 16, by omega, h⟩
    . exact ih h

theorem toNat_lt_of_value? {c : Char} {v : Nat} (h : value? c = some v) : c.toNat < 128 := by
  have hle : ∀ {a : Char}, c ≤ a → c.toNat ≤ a.toNat := fun h => h
  unfold value? at h
  split at h
  . next hc => exact Nat.lt_of_le_of_lt (hle hc.2) (by decide)
  . split at h
    . next hc => exact Nat.lt_of_le_of_lt (hle hc.2) (by decide)
    . split at h
      . next hc => exact Nat.lt_of_le_of_lt (hle hc.2) (by decide)
      . cases h

theorem decode_eq_some {l : List Char} {bytes : List UInt8} (h : decode l = some bytes)
    : l.length = 2 * bytes.length ∧ ∀ c ∈ l, c.toNat < 128 := by
  induction l using decode.induct generalizing bytes with
  | case1 =>
    cases h
    exact ⟨rfl, nofun⟩
  | case2 => cases h
  | case3 hi lo rest ih =>
    simp only [decode, Option.bind_eq_bind, Option.bind_eq_some_iff] at h
    have ⟨a, ha, b, hb, bytes', hbytes', heq⟩ := h
    cases heq
    have ⟨hlen, hascii⟩ := ih hbytes'
    refine ⟨by simp only [List.length_cons, hlen]; omega, ?_⟩
    simp only [List.forall_mem_cons]
    exact ⟨toNat_lt_of_value? ha, toNat_lt_of_value? hb, hascii⟩

end Hex

namespace Decimal

/--
The digits of an unsigned number.
-/
def parseNat (l : List Char) : Option Nat :=
  if l ≠ [] ∧ l.all Char.isDigit then
    some (Nat.ofDigitChars 10 l 0)
  else
    none

/--
A signed number, with an optional sign in front of its digits.
-/
def parseInt (l : List Char) : Option Int :=
  match l with
  | '-' :: l => (parseNat l).map (fun v : Nat => -(v : Int))
  | '+' :: l => (parseNat l).map (fun v : Nat => (v : Int))
  | l => (parseNat l).map (fun v : Nat => (v : Int))

def encodeInt (v : Int) : List Char :=
  match v with
  | .ofNat v => Nat.toDigits 10 v
  | .negSucc v => '-' :: Nat.toDigits 10 (v + 1)

theorem isDigit_of_mem_toDigits {c : Char} {v : Nat} (h : c ∈ Nat.toDigits 10 v)
    : c.isDigit = true :=
  Nat.isDigit_of_mem_toDigits (by decide) (by decide) h

theorem isDigit_of_mem_zeros {c : Char} {n v : Nat}
    (h : c ∈ List.replicate n '0' ++ Nat.toDigits 10 v) : c.isDigit = true := by
  rw [List.mem_append] at h
  cases h with
  | inl h =>
    rw [List.eq_of_mem_replicate h]
    decide
  | inr h => exact isDigit_of_mem_toDigits h

/--
Zeros in front of the digits do not count.
-/
theorem parseNat_zeros (n v : Nat)
    : parseNat (List.replicate n '0' ++ Nat.toDigits 10 v) = some v := by
  have hdigits : (List.replicate n '0' ++ Nat.toDigits 10 v).all Char.isDigit = true := by
    rw [List.all_eq_true]
    intro c hc
    exact isDigit_of_mem_zeros hc
  rw [parseNat, if_pos ⟨by simp [Nat.toDigits_ne_nil], hdigits⟩, Nat.ofDigitChars_append,
    Nat.ofDigitChars_replicate_zero, Nat.mul_zero, Nat.ofDigitChars_toDigits (by decide) (by decide)]

theorem parseNat_toDigits (v : Nat) : parseNat (Nat.toDigits 10 v) = some v :=
  parseNat_zeros 0 v

theorem parseInt_zeros (n v : Nat)
    : parseInt (List.replicate n '0' ++ Nat.toDigits 10 v) = some (v : Int) := by
  unfold parseInt
  -- The digits of a number start with no sign.
  split
  . next heq =>
    have := isDigit_of_mem_zeros (heq ▸ List.mem_cons_self)
    simp at this
  . next heq =>
    have := isDigit_of_mem_zeros (heq ▸ List.mem_cons_self)
    simp at this
  . rw [parseNat_zeros]
    rfl

theorem parseInt_encodeInt (v : Int) : parseInt (encodeInt v) = some v := by
  cases v with
  | ofNat v => exact parseInt_zeros 0 v
  | negSucc v =>
    show (parseNat (Nat.toDigits 10 (v + 1))).map (fun v : Nat => -(v : Int)) = _
    rw [parseNat_toDigits]
    rfl

theorem mem_encodeInt {c : Char} {v : Int} (h : c ∈ encodeInt v)
    : c = '-' ∨ c.isDigit = true := by
  cases v with
  | ofNat v => exact .inr (isDigit_of_mem_toDigits h)
  | negSucc v =>
    cases List.mem_cons.mp h with
    | inl h => exact .inl h
    | inr h => exact .inr (isDigit_of_mem_toDigits h)

end Decimal
