import HandLiveRelay.Lib.Base64
import HandLiveRelay.Lib.Numeral

/-!
This module contains the values that every part of the relay handles: UUIDs and their text forms,
unpadded base64url fields, and the errors of the HTTP API.
-/

namespace HandLiveRelay

/--
A UUID is its 16 bytes.
-/
abbrev Uuid := Bytes 16

instance : LawfulBEq Uuid := inferInstance

/--
The name of a relay instance, as `presence:<device_id>` holds it.
-/
abbrev InstanceId := String

namespace Uuid

/--
The characters of `8-4-4-4-12` lower case hex digits.
-/
def hyphenatedChars (u : Uuid) : List Char :=
  let h := Hex.encode u.toList
  h.take 8 ++ '-' :: ((h.drop 8).take 4 ++ '-' :: ((h.drop 12).take 4 ++ '-' ::
    ((h.drop 16).take 4 ++ '-' :: h.drop 20)))

def hyphenated (u : Uuid) : String :=
  String.ofList u.hyphenatedChars

def parseHyphenated (s : List Char) : Option Uuid := do
  guard (s.length = 36 ∧ s[8]? = some '-' ∧ s[13]? = some '-' ∧ s[18]? = some '-'
    ∧ s[23]? = some '-')
  let bytes ← Hex.decode (s.take 8 ++ (s.drop 9).take 4 ++ (s.drop 14).take 4
    ++ (s.drop 19).take 4 ++ s.drop 24)
  Bytes.ofList? 16 bytes

/--
The forms a UUID is accepted in: 32 hex digits, or the hyphenated form, which may stand in braces
or after `urn:uuid:`.
-/
def parse (s : List Char) : Option Uuid :=
  if s.length = 32 then
    (Hex.decode s).bind (Bytes.ofList? 16)
  else if s.length = 36 then
    parseHyphenated s
  else if s.length = 38 ∧ s.head? = some '\x7b' ∧ s.getLast? = some '\x7d' then
    parseHyphenated (s.drop 1).dropLast
  else if s.length = 45 ∧ s.take 9 = "urn:uuid:".toList then
    parseHyphenated (s.drop 9)
  else
    none

def tryParseAscii (s : List UInt8) : Option Uuid :=
  parse (Utf8.latin1 s)

def parseStr (s : String) : Option Uuid :=
  tryParseAscii (Utf8.encode s)

theorem length_hyphenatedChars (u : Uuid) : u.hyphenatedChars.length = 36 := by
  simp [hyphenatedChars]

theorem parseHyphenated_groups {a b c d e : List Char} (ha : a.length = 8) (hb : b.length = 4)
    (hc : c.length = 4) (hd : d.length = 4) (he : e.length = 12)
    : parseHyphenated (a ++ '-' :: (b ++ '-' :: (c ++ '-' :: (d ++ '-' :: e))))
        = (Hex.decode (a ++ b ++ c ++ d ++ e)).bind (Bytes.ofList? 16) := by
  simp [parseHyphenated, List.drop_append, List.drop_of_length_le, ha, hb, hc, hd, he]

theorem parseHyphenated_hyphenatedChars (u : Uuid)
    : parseHyphenated u.hyphenatedChars = some u := by
  have hgroups : ∀ (h : List Char), h.take 8 ++ (h.drop 8).take 4 ++ (h.drop 12).take 4
      ++ (h.drop 16).take 4 ++ h.drop 20 = h := by
    intro h
    have happend : ∀ (i : Nat), (h.drop i).take 4 ++ h.drop (i + 4) = h.drop i := by
      intro i
      rw [← List.drop_drop]
      exact List.take_append_drop 4 (h.drop i)
    simp only [List.append_assoc, happend 16, happend 12, happend 8, List.take_append_drop]
  unfold hyphenatedChars
  dsimp only
  rw [parseHyphenated_groups (by simp) (by simp) (by simp) (by simp) (by simp)]
  rw [hgroups]
  simp

theorem mem_hyphenatedChars {u : Uuid} {c : Char} (h : c ∈ u.hyphenatedChars)
    : c = '-' ∨ ∃ v < 16, c = Nat.digitChar v := by
  have hhex : ∀ {i j : Nat}, c ∈ ((Hex.encode u.toList).drop i).take j →
      ∃ v < 16, c = Nat.digitChar v := by
    intro i j hmem
    exact Hex.mem_encode (List.mem_of_mem_drop (List.mem_of_mem_take hmem))
  simp only [hyphenatedChars, List.mem_append, List.mem_cons] at h
  rcases h with h | h | h | h | h | h | h | h | h
  all_goals first
    | exact .inl h
    | exact .inr (hhex h)
    | exact .inr (Hex.mem_encode (List.mem_of_mem_take h))
    | exact .inr (Hex.mem_encode (List.mem_of_mem_drop h))

theorem toNat_lt_of_mem_hyphenatedChars {u : Uuid} {c : Char} (h : c ∈ u.hyphenatedChars)
    : c.toNat < 128 := by
  rcases mem_hyphenatedChars h with rfl | ⟨v, hv, rfl⟩
  . decide
  . have hall : ∀ v ∈ List.range 16, (Nat.digitChar v).toNat < 128 := by decide
    exact hall v (List.mem_range.mpr hv)

theorem parse_hyphenatedChars (u : Uuid) : parse u.hyphenatedChars = some u := by
  simp [parse, length_hyphenatedChars, parseHyphenated_hyphenatedChars]

theorem tryParseAscii_hyphenated (u : Uuid)
    : tryParseAscii (Utf8.encode u.hyphenated) = some u := by
  unfold tryParseAscii hyphenated
  rw [Utf8.latin1_encode_ofList]
  . exact parse_hyphenatedChars u
  . intro c hc
    exact toNat_lt_of_mem_hyphenatedChars hc

@[simp]
theorem parseStr_hyphenated (u : Uuid) : parseStr u.hyphenated = some u :=
  tryParseAscii_hyphenated u

theorem hyphenated_injective {u v : Uuid} (h : u.hyphenated = v.hyphenated) : u = v := by
  have hparse := parseStr_hyphenated u
  rw [h, parseStr_hyphenated] at hparse
  exact (Option.some.inj hparse).symm

/--
A key that holds a UUID in a fixed place can be taken apart again.
-/
theorem hyphenated_key_injective {a b s t : String} {u v : Uuid}
    (h : a ++ u.hyphenated ++ b ++ s = a ++ v.hyphenated ++ b ++ t) : u = v ∧ s = t := by
  have hlen : ∀ u : Uuid, u.hyphenated.toList.length = 36 := by
    intro u
    unfold hyphenated
    rw [String.toList_ofList]
    exact u.length_hyphenatedChars
  rw [← String.toList_inj] at h
  simp only [String.toList_append, List.append_assoc] at h
  have ⟨_, h⟩ := List.append_inj h rfl
  have ⟨hid, h⟩ := List.append_inj h (by rw [hlen, hlen])
  have ⟨_, h⟩ := List.append_inj h rfl
  exact ⟨hyphenated_injective (String.toList_inj.mp hid), String.toList_inj.mp h⟩

/--
Every form of a UUID holds its 32 digits.
-/
theorem exists_digits_of_parse {s : List Char} {u : Uuid} (h : parse s = some u)
    : ∃ digits : List Char, digits.Sublist s ∧ digits.length = 32 ∧ ∀ c ∈ digits, c.toNat < 128 := by
  have hdecode : ∀ {l : List Char} {u : Uuid}, (Hex.decode l).bind (Bytes.ofList? 16) = some u
      → l.length = 32 ∧ ∀ c ∈ l, c.toNat < 128 := by
    intro l u h
    have ⟨bytes, hbytes, hlist⟩ := Option.bind_eq_some_iff.mp h
    have ⟨hlen, hascii⟩ := Hex.decode_eq_some hbytes
    rw [Bytes.ofList?_eq_some] at hlist
    rw [hlist, u.length_toList] at hlen
    exact ⟨hlen, hascii⟩
  have hhyphenated : ∀ {l : List Char} {u : Uuid}, parseHyphenated l = some u → l.Sublist s
      → ∃ digits : List Char, digits.Sublist s ∧ digits.length = 32
        ∧ ∀ c ∈ digits, c.toNat < 128 := by
    intro l u h hl
    unfold parseHyphenated at h
    simp only [Option.bind_eq_bind, Option.bind_eq_some_iff] at h
    have ⟨_, _, bytes, hbytes, hlist⟩ := h
    have ⟨hlen, hascii⟩ := hdecode (Option.bind_eq_some_iff.mpr ⟨bytes, hbytes, hlist⟩)
    refine ⟨_, List.Sublist.trans ?_ hl, hlen, hascii⟩
    have hcut : ∀ {r : List Char} (i n j : Nat), i + n ≤ j → r.Sublist (l.drop j)
        → ((l.drop i).take n ++ r).Sublist (l.drop i) := by
      intro r i n j hij hr
      have hrest : r.Sublist ((l.drop i).drop n) := by
        rw [List.drop_drop]
        exact hr.trans (List.drop_sublist_drop_left l hij)
      have happend := (List.Sublist.refl ((l.drop i).take n)).append hrest
      rwa [List.take_append_drop] at happend
    simp only [List.append_assoc]
    exact hcut 0 8 9 (by decide) (hcut 9 4 14 (by decide) (hcut 14 4 19 (by decide)
      (hcut 19 4 24 (by decide) (List.Sublist.refl _))))
  unfold parse at h
  split at h
  . have ⟨hlen, hascii⟩ := hdecode h
    exact ⟨s, List.Sublist.refl s, hlen, hascii⟩
  . split at h
    . exact hhyphenated h (List.Sublist.refl s)
    . split at h
      . exact hhyphenated h ((List.dropLast_sublist _).trans (List.drop_sublist 1 s))
      . split at h
        . exact hhyphenated h (List.drop_sublist 9 s)
        . cases h

theorem length_of_parseStr {s : String} {u : Uuid} (h : parseStr s = some u)
    : 32 ≤ s.toList.length := by
  have ⟨digits, hsub, hlen, hascii⟩ := exists_digits_of_parse h
  rw [← hlen]
  exact Utf8.length_le_of_sublist_latin1 hsub hascii

end Uuid

/--
The errors of the HTTP API.
-/
inductive ApiError where
  | badRequest
  | challengeExpired
  | signatureInvalid
  | tokenExpired
  | notPaired
  | deviceNotFound
  | pairExists
  | pushTokenMissing
  | deviceRevoked
  | payloadTooLarge
  | rateLimited (retryAfterSecs : Nat)
  | internal
  | pushProviderError
deriving Repr, DecidableEq

namespace B64u

/--
The digits of base64url: `A`-`Z`, `a`-`z`, `0`-`9`, `-` and `_`.
-/
def urlSafe : Base64.Alphabet where
  digit v :=
    if v < 26 then Char.ofNat (65 + v)
    else if v < 52 then Char.ofNat (71 + v)
    else if v < 62 then Char.ofNat (v - 4)
    else if v = 62 then '-'
    else '_'
  value? c :=
    if 65 ≤ c.toNat ∧ c.toNat ≤ 90 then some (c.toNat - 65)
    else if 97 ≤ c.toNat ∧ c.toNat ≤ 122 then some (c.toNat - 71)
    else if 48 ≤ c.toNat ∧ c.toNat ≤ 57 then some (c.toNat + 4)
    else if c = '-' then some 62
    else if c = '_' then some 63
    else none
  value?_digit := by decide

def encode (bytes : List UInt8) : String :=
  String.ofList (Base64.encode urlSafe bytes)

/--
Decode a field of any length.
-/
def decode (text : String) : Option (List UInt8) :=
  Base64.decode urlSafe (Utf8.latin1 (Utf8.encode text))

/--
Decode a field into exactly `n` bytes.
-/
def decodeFixed (n : Nat) (text : String) : Option (Bytes n) :=
  (decode text).bind (Bytes.ofList? n)

/--
Decode a field of fixed length, where any failure is `badRequest`.
-/
def decodeField (n : Nat) (text : String) : Except ApiError (Bytes n) :=
  match decodeFixed n text with
  | some bytes => .ok bytes
  | none => .error .badRequest

theorem toNat_lt_of_mem_encode {c : Char} {bytes : List UInt8}
    (h : c ∈ Base64.encode urlSafe bytes) : c.toNat < 128 := by
  have ⟨v, hv, hc⟩ := Base64.mem_encode urlSafe h
  have hall : ∀ v < 64, (urlSafe.digit v).toNat < 128 := by decide
  rw [hc]
  exact hall v hv

@[simp]
theorem decode_encode (bytes : List UInt8) : decode (encode bytes) = some bytes := by
  unfold decode encode
  rw [Utf8.latin1_encode_ofList]
  . apply Base64.decode_encode
  . intro c hc
    exact toNat_lt_of_mem_encode hc

@[simp]
theorem decodeFixed_encode {n : Nat} (bytes : Bytes n)
    : decodeFixed n (encode bytes.toList) = some bytes := by
  simp [decodeFixed]

theorem decodeField_eq_ok {n : Nat} {text : String} {b : Bytes n}
    : decodeField n text = .ok b ↔ decode text = some b.toList := by
  unfold decodeField decodeFixed
  cases decode text with
  | none => simp
  | some l =>
    rw [Option.bind_some, Option.some.injEq, ← Bytes.ofList?_eq_some]
    cases Bytes.ofList? n l <;> simp

theorem decodeField_eq_ok_iff {n : Nat} {text : String} {b : Bytes n}
    : decodeField n text = .ok b ↔ decodeFixed n text = some b := by
  unfold decodeField
  cases decodeFixed n text <;> simp

theorem decodeField_eq_error {n : Nat} {text : String} {e : ApiError}
    (h : decodeField n text = .error e) : e = .badRequest := by
  unfold decodeField at h
  split at h
  . cases h
  . cases h
    rfl

theorem length_of_decodeFixed {n : Nat} {s : String} {b : Bytes n} (h : decodeFixed n s = some b)
    : 4 * n ≤ 3 * s.toList.length := by
  have ⟨bytes, hbytes, hlist⟩ := Option.bind_eq_some_iff.mp h
  have ⟨hlen, hvalues⟩ := Base64.decode_eq_some urlSafe hbytes
  rw [Bytes.ofList?_eq_some] at hlist
  rw [hlist, b.length_toList] at hlen
  have hascii : ∀ c, (urlSafe.value? c).isSome → c.toNat < 128 := by
    intro c hc
    dsimp only [urlSafe] at hc
    split at hc
    . omega
    . split at hc
      . omega
      . split at hc
        . omega
        . split at hc
          . next heq => rw [heq]; decide
          . split at hc
            . next heq => rw [heq]; decide
            . cases hc
  have hchars := Utf8.length_le_of_sublist_latin1 (List.Sublist.refl _)
    (fun c hc => hascii c (hvalues c hc))
  omega

end B64u
end HandLiveRelay
