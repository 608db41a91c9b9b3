import HandLiveRelay.Lib.Bytes

/-!
This module contains the base64 form of byte strings without padding. Decoding is strict: digits
outside the alphabet, a lone last digit and non-zero trailing bits are refused.
-/

namespace Base64

/--
The 64 digits of an encoding, and the value of each of them.
-/
structure Alphabet where
  digit : Nat → Char
  value? : Char → Option Nat
  value?_digit : ∀ v < 64, value? (digit v) = some v

variable (a : Alphabet)

/--
Three bytes become four digits; one or two bytes at the end become two or three digits.
-/
def encode : List UInt8 → List Char
  | x :: y :: z :: rest =>
    a.digit (x.toNat / 4) :: a.digit (x.toNat % 4 * 16 + y.toNat / 16)
      :: a.digit (y.toNat % 16 * 4 + z.toNat / 64) :: a.digit (z.toNat % 64) :: encode rest
  | [x, y] =>
    [a.digit (x.toNat / 4), a.digit (x.toNat % 4 * 16 + y.toNat / 16), a.digit (y.toNat % 16 * 4)]
  | [x] => [a.digit (x.toNat / 4), a.digit (x.toNat % 4 * 16)]
  | [] => []

def decode : List Char → Option (List UInt8)
  | p :: q :: r :: s :: rest => do
    let p ← a.value? p
    let q ← a.value? q
    let r ← a.value? r
    let s ← a.value? s
    let bytes ← decode rest
    return UInt8.ofNat (p * 4 + q / 16) :: UInt8.ofNat (q % 16 * 16 + r / 4)
      :: UInt8.ofNat (r % 4 * 64 + s) :: bytes
  | [p, q, r] => do
    let p ← a.value? p
    let q ← a.value? q
    let r ← a.value? r
    -- The last two bits of a three digit end carry no byte.
    guard (r % 4 = 0)
    return [UInt8.ofNat (p * 4 + q / 16), UInt8.ofNat (q % 16 * 16 + r / 4)]
  | [p, q] => do
    let p ← a.value? p
    let q ← a.value? q
    guard (q % 16 = 0)
    return [UInt8.ofNat (p * 4 + q / 16)]
  | [_] => none
  | [] => some []

/--
Decode a text that is padded with `=` to a multiple of four digits.
-/
def decodePadded (l : List Char) : Option (List UInt8) :=
  if l.length % 4 ≠ 0 then
    none
  else if l.drop (l.length - 2) = ['=', '='] then
    decode a (l.take (l.length - 2))
  else if l.drop (l.length - 1) = ['='] then
    decode a (l.take (l.length - 1))
  else
    decode a l

/--
Encode with padding.
-/
def encodePadded (l : List UInt8) : List Char :=
  encode a l ++ List.replicate ((4 - (encode a l).length % 4) % 4) '='

theorem decode_encode (l : List UInt8) : decode a (encode a l) = some l := by
  induction l using encode.induct with
  | case1 x y z rest ih =>
    have hx := x.toNat_lt
    have hy := y.toNat_lt
    have hz := z.toNat_lt
    simp only [encode, decode]
    rw [a.value?_digit _ (by omega), a.value?_digit _ (by omega), a.value?_digit _ (by omega),
      a.value?_digit _ (by omega), ih]
    simp only [Option.bind_eq_bind, Option.bind_some, Option.pure_def, Option.some.injEq,
      List.cons.injEq, and_true, ← UInt8.toNat_inj, UInt8.toNat_ofNat']
    omega
  | case2 x y =>
    have hx := x.toNat_lt
    have hy := y.toNat_lt
    simp only [encode, decode]
    rw [a.value?_digit _ (by omega), a.value?_digit _ (by omega), a.value?_digit _ (by omega)]
    have hguard : y.toNat % 16 * 4 % 4 = 0 := by omega
    simp only [Option.bind_eq_bind, Option.bind_some, Option.pure_def, guard, hguard, if_true,
      Option.some.injEq, List.cons.injEq, and_true, ← UInt8.toNat_inj, UInt8.toNat_ofNat']
    omega
  | case3 x =>
    have hx := x.toNat_lt
    simp only [encode, decode]
    rw [a.value?_digit _ (by omega), a.value?_digit _ (by omega)]
    have hguard : x.toNat % 4 * 16 % 16 = 0 := by omega
    simp only [Option.bind_eq_bind, Option.bind_some, Option.pure_def, guard, hguard, if_true,
      Option.some.injEq, List.cons.injEq, and_true, ← UInt8.toNat_inj, UInt8.toNat_ofNat']
    omega
  | case4 => rfl

/--
Everything in an encoding is a digit of the alphabet.
-/
theorem mem_encode {c : Char} {l : List UInt8} (hc : c ∈ encode a l)
    : ∃ v < 64, c = a.digit v := by
  induction l using encode.induct with
  | case1 x y z rest ih =>
    have hx := x.toNat_lt
    have hy := y.toNat_lt
    have hz := z.toNat_lt
    simp only [encode, List.mem_cons] at hc
    rcases hc with hc | hc | hc | hc | hc
    . exact ⟨_, by omega, hc⟩
    . exact ⟨_, by omega, hc⟩
    . exact ⟨_, by omega, hc⟩
    . exact ⟨_, by omega, hc⟩
    . exact ih hc
  | case2 x y =>
    have hx := x.toNat_lt
    have hy := y.toNat_lt
    simp only [encode, List.mem_cons, List.not_mem_nil, or_false] at hc
    rcases hc with hc | hc | hc
    all_goals exact ⟨_, by omega, hc⟩
  | case3 x =>
    have hx := x.toNat_lt
    simp only [encode, List.mem_cons, List.not_mem_nil, or_false] at hc
    rcases hc with hc | hc
    all_goals exact ⟨_, by omega, hc⟩
  | case4 => simp [encode] at hc

theorem length_encode (l : List UInt8) : (encode a l).length = (4 * l.length + 2) / 3 := by
  induction l using encode.induct with
  | case1 x y z rest ih =>
    simp only [encode, List.length_cons]
    omega
  | case2 x y => simp [encode]
  | case3 x => simp [encode]
  | case4 => simp [encode]

theorem length_encode_mod (l : List UInt8) : (encode a l).length % 4 ≠ 1 := by
  rw [length_encode]
  omega

/--
A padded text is read back, if the padding is no digit.
-/
theorem decodePadded_encodePadded (h : ∀ v < 64, a.digit v ≠ '=') (l : List UInt8)
    : decodePadded a (encodePadded a l) = some l := by
  have hdigits : '=' ∉ encode a l := by
    intro hmem
    have ⟨v, hv, heq⟩ := mem_encode a hmem
    exact h v hv heq.symm
  have hmod := length_encode_mod a l
  unfold decodePadded encodePadded
  rw [← decode_encode a l]
  generalize encode a l = digits at hdigits hmod
  have hend : ∀ {tail : List Char} (n : Nat), '=' ∈ tail → digits.drop n ≠ tail := by
    intro tail n htail heq
    exact hdigits (List.mem_of_mem_drop (heq ▸ htail))
  obtain hzero | htwo | hthree : digits.length % 4 = 0 ∨ digits.length % 4 = 2
      ∨ digits.length % 4 = 3 := by
    omega
  . have hpad : List.replicate ((4 - digits.length % 4) % 4) '=' = [] := by
      rw [hzero]
      rfl
    rw [hpad, List.append_nil, if_neg (by omega), if_neg (hend _ (by decide)),
      if_neg (hend _ (by decide))]
  . have hpad : List.replicate ((4 - digits.length % 4) % 4) '=' = ['=', '='] := by
      rw [htwo]
      rfl
    have hlen : (digits ++ ['=', '=']).length = digits.length + 2 := by simp
    rw [hpad, hlen, Nat.add_sub_cancel, List.drop_left, List.take_left, if_neg (by omega),
      if_pos rfl]
  . have hpad : List.replicate ((4 - digits.length % 4) % 4) '=' = ['='] := by
      rw [hthree]
      rfl
    have hlen : (digits ++ ['=']).length = digits.length + 1 := by simp
    have hlast : (digits ++ ['=']).drop (digits.length + 1 - 2) ≠ ['=', '='] := by
      rw [List.drop_append_of_le_length (by omega)]
      intro heq
      have hone : digits.drop (digits.length + 1 - 2) = ['='] :=
        List.append_cancel_right (heq.trans (rfl : ['=', '='] = ['='] ++ ['=']))
      exact hend _ (by decide) hone
    rw [hpad, hlen, Nat.add_sub_cancel, if_neg (by omega), if_neg hlast, List.drop_left,
      List.take_left, if_pos rfl]

theorem decode_eq_some {l : List Char} {bytes : List UInt8}
    (h : decode a l = some bytes)
    : 4 * bytes.length ≤ 3 * l.length ∧ ∀ c ∈ l, (a.value? c).isSome := by
  induction l using decode.induct generalizing bytes with
  | case1 p q r s rest ih =>
    simp only [decode, Option.bind_eq_bind, Option.bind_eq_some_iff] at h
    have ⟨_, hp, _, hq, _, hr, _, hs, bytes', hbytes', heq⟩ := h
    cases heq
    have ⟨hlen, hvalues⟩ := ih hbytes'
    refine ⟨by simp only [List.length_cons]; omega, ?_⟩
    simp only [List.forall_mem_cons]
    exact ⟨by simp [hp], by simp [hq], by simp [hr], by simp [hs], hvalues⟩
  | case2 p q r =>
    simp only [decode, Option.bind_eq_bind, Option.bind_eq_some_iff] at h
    have ⟨_, hp, _, hq, _, hr, _, _, heq⟩ := h
    cases heq
    simp [hp, hq, hr]
  | case3 p q =>
    simp only [decode, Option.bind_eq_bind, Option.bind_eq_some_iff] at h
    have ⟨_, hp, _, hq, _, _, heq⟩ := h
    cases heq
    simp [hp, hq]
  | case4 => cases h
  | case5 =>
    cases h
    simp

end Base64
