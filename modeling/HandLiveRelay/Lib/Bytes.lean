import Mathlib

/-!
This module contains byte strings: arrays of a fixed length, the big endian form of numbers and
the UTF-8 form of text, and when a text begins with another.
-/

/--
An array of `n` bytes.
-/
structure Bytes (n : Nat) where
  toList : List UInt8
  length_toList : toList.length = n
  deriving DecidableEq

namespace Bytes

variable {n : Nat}

@[ext]
theorem ext {a b : Bytes n} (h : a.toList = b.toList) : a = b := by
  cases a
  cases b
  cases h
  rfl

attribute [simp] length_toList

/--
The bytes of a list, if there are exactly `n` of them.
-/
def ofList? (n : Nat) (l : List UInt8) : Option (Bytes n) :=
  if h : l.length = n then
    some ⟨l, h⟩
  else
    none

@[simp]
theorem ofList?_toList (b : Bytes n) : ofList? n b.toList = some b := by
  simp [ofList?]

theorem ofList?_eq_some {l : List UInt8} {b : Bytes n} : ofList? n l = some b ↔ l = b.toList := by
  unfold ofList?
  split
  . simp [Bytes.ext_iff]
  . next h =>
    simp only [reduceCtorEq, false_iff]
    intro heq
    apply h
    simp [heq]

@[simp]
theorem drop_toList (b : Bytes n) {m : Nat} (h : n ≤ m) : b.toList.drop m = [] := by
  apply List.drop_of_length_le
  rw [b.length_toList]
  exact h

@[simp]
theorem take_toList (b : Bytes n) {m : Nat} (h : n ≤ m) : b.toList.take m = b.toList := by
  apply List.take_of_length_le
  rw [b.length_toList]
  exact h

/--
The array of `n` times the same byte.
-/
def replicate (n : Nat) (b : UInt8) : Bytes n where
  toList := List.replicate n b
  length_toList := List.length_replicate

end Bytes

namespace BigEndian

/--
The last `w` bytes of a number, the most significant one first.
-/
def encode : Nat → Nat → List UInt8
  | 0, _ => []
  | w + 1, v => encode w (v / 256) ++ [UInt8.ofNat v]

def decode (l : List UInt8) : Nat :=
  l.foldl (fun acc b => acc * 256 + b.toNat) 0

@[simp]
theorem length_encode (w v : Nat) : (encode w v).length = w := by
  induction w generalizing v with
  | zero => rfl
  | succ w ih => simp [encode, ih]

theorem decode_encode (w v : Nat) : decode (encode w v) = v % 256 ^ w := by
  induction w generalizing v with
  | zero => simp [encode, decode, Nat.mod_one]
  | succ w ih =>
    have hsplit : decode (encode (w + 1) v) = decode (encode w (v / 256)) * 256 + v % 256 := by
      simp [encode, decode, List.foldl_append]
    rw [hsplit, ih, Nat.pow_succ, Nat.mul_comm (256 ^ w) 256, Nat.mod_mul]
    ring

theorem decode_encode_of_lt {w v : Nat} (h : v < 256 ^ w) : decode (encode w v) = v := by
  rw [decode_encode, Nat.mod_eq_of_lt h]

theorem decode_append_singleton (l : List UInt8) (b : UInt8)
    : decode (l ++ [b]) = decode l * 256 + b.toNat := by
  simp [decode, List.foldl_append]

theorem decode_lt (l : List UInt8) : decode l < 256 ^ l.length := by
  induction l using List.reverseRecOn with
  | nil => simp [decode]
  | append_singleton l b ih =>
    have hlt := b.toNat_lt
    rw [decode_append_singleton, List.length_append, List.length_singleton, Nat.pow_succ]
    omega

theorem encode_decode (l : List UInt8) : encode l.length (decode l) = l := by
  induction l using List.reverseRecOn with
  | nil => rfl
  | append_singleton l b ih =>
    have hdiv : (decode l * 256 + b.toNat) / 256 = decode l := by
      have hlt := b.toNat_lt
      omega
    have hlast : UInt8.ofNat (decode l * 256 + b.toNat) = b := by
      rw [← UInt8.toNat_inj]
      simp
    rw [decode_append_singleton, List.length_append, List.length_singleton, encode, hdiv, ih, hlast]

end BigEndian

namespace Utf8

/--
The bytes of a text.
-/
def encode (s : String) : List UInt8 :=
  s.toByteArray.data.toList

/--
The text with the given bytes, `none` if they are not valid UTF-8.
-/
def decode (l : List UInt8) : Option String :=
  String.fromUTF8? ⟨l.toArray⟩

@[simp]
theorem decode_encode (s : String) : decode (encode s) = some s := by
  have hvalid := s.isValidUTF8
  simp [decode, encode, String.fromUTF8?, hvalid, String.fromUTF8]

/--
Only the bytes of a text are read as that text.
-/
theorem encode_of_decode {l : List UInt8} {s : String} (h : decode l = some s) : encode s = l := by
  unfold decode String.fromUTF8? at h
  split at h
  . cases h
    simp [encode, String.fromUTF8]
  . cases h

theorem encode_injective {s t : String} (h : encode s = encode t) : s = t := by
  have hdecode := decode_encode s
  rw [h, decode_encode] at hdecode
  exact (Option.some.inj hdecode).symm

theorem encode_append (s t : String) : encode (s ++ t) = encode s ++ encode t := by
  simp [encode]

theorem length_encode (s : String) : (encode s).length = s.utf8ByteSize := by
  rfl

theorem encode_ofList_eq_flatMap (l : List Char)
    : encode (String.ofList l) = l.flatMap String.utf8EncodeChar := by
  simp [encode, List.utf8Encode]

/--
A text of ASCII characters has one byte per character.
-/
theorem encode_ofList {l : List Char} (h : ∀ c ∈ l, c.toNat < 128)
    : encode (String.ofList l) = l.map (fun c => UInt8.ofNat c.toNat) := by
  rw [encode_ofList_eq_flatMap]
  induction l with
  | nil => rfl
  | cons c cs ih =>
    have hc : c.val.toNat ≤ 0x7f := Nat.le_of_lt_succ (h c List.mem_cons_self)
    have hchar : String.utf8EncodeChar c = [UInt8.ofNat c.toNat] := if_pos hc
    rw [List.flatMap_cons, List.map_cons, hchar, ih]
    . rfl
    . intro c hc
      exact h c (List.mem_cons_of_mem _ hc)

/--
The first byte of a character that is not ASCII is not ASCII either.
-/
theorem exists_ge_of_ge {c : Char} (h : 128 ≤ c.toNat)
    : ∃ b ∈ String.utf8EncodeChar c, 128 ≤ b.toNat := by
  have hhead : ∀ (n : Nat) (l : List UInt8), 128 ≤ n → n < 256
      → ∃ b ∈ UInt8.ofNat n :: l, 128 ≤ b.toNat := by
    intro n l hge hlt
    refine ⟨UInt8.ofNat n, List.mem_cons_self, ?_⟩
    rwa [UInt8.toNat_ofNat', Nat.mod_eq_of_lt hlt]
  have hval : ¬ c.val.toNat ≤ 127 := Nat.not_le.mpr h
  unfold String.utf8EncodeChar
  extract_lets v
  rw [if_neg hval]
  split
  . exact hhead _ _ (by omega) (by omega)
  . split
    . exact hhead _ _ (by omega) (by omega)
    . exact hhead _ _ (by omega) (by omega)

/--
A text whose bytes are ASCII has its bytes as characters.
-/
theorem exists_byte_of_mem {s : String} (h : ∀ b ∈ encode s, b.toNat < 128) {c : Char}
    (hc : c ∈ s.toList) : ∃ b ∈ encode s, b.toNat = c.toNat := by
  rw [← String.ofList_toList (s := s), encode_ofList_eq_flatMap] at h ⊢
  have hall : ∀ b ∈ String.utf8EncodeChar c, b ∈ s.toList.flatMap String.utf8EncodeChar := by
    intro b hb
    exact List.mem_flatMap.mpr ⟨c, hc, hb⟩
  by_cases hge : 128 ≤ c.toNat
  . have ⟨b, hb, hb128⟩ := exists_ge_of_ge hge
    have hlt := h b (hall b hb)
    omega
  . have hle : c.val.toNat ≤ 0x7f := by
      have heq : c.val.toNat = c.toNat := rfl
      omega
    have hchar : String.utf8EncodeChar c = [UInt8.ofNat c.toNat] := if_pos hle
    refine ⟨UInt8.ofNat c.toNat, hall _ (by rw [hchar]; exact List.mem_singleton_self _), ?_⟩
    rw [UInt8.toNat_ofNat', Nat.mod_eq_of_lt (by omega)]

/--
The bytes of a text, each of them read as a character of its own. An ASCII text reads as itself.
-/
def latin1 (l : List UInt8) : List Char :=
  l.map (fun b => Char.ofNat b.toNat)

theorem latin1_encode_ofList {l : List Char} (h : ∀ c ∈ l, c.toNat < 128)
    : latin1 (encode (String.ofList l)) = l := by
  rw [encode_ofList h]
  unfold latin1
  rw [List.map_map]
  conv =>
    rhs
    rw [← List.map_id l]
  apply List.map_congr_left
  intro c hc
  have hlt := h c hc
  simp only [Function.comp_apply, UInt8.toNat_ofNat', id_eq]
  rw [Nat.mod_eq_of_lt (by omega)]
  exact Char.ofNat_toNat c

theorem utf8ByteSize_ofList {l : List Char} (h : ∀ c ∈ l, c.toNat < 128)
    : (String.ofList l).utf8ByteSize = l.length := by
  rw [← length_encode, encode_ofList h, List.length_map]

theorem countP_ascii_utf8EncodeChar_le (c : Char)
    : (String.utf8EncodeChar c).countP (fun b => decide (b.toNat < 128)) ≤ 1 := by
  have hbyte : ∀ n, 128 ≤ n → n < 256 → ¬ (UInt8.ofNat n).toNat < 128 := by
    intro n hge hlt
    rw [UInt8.toNat_ofNat', Nat.mod_eq_of_lt hlt]
    omega
  unfold String.utf8EncodeChar
  extract_lets v
  split
  . exact List.countP_le_length
  . have hzero : ∀ l : List UInt8, (∀ b ∈ l, ¬ b.toNat < 128)
        → l.countP (fun b => decide (b.toNat < 128)) ≤ 1 := by
      intro l hl
      rw [List.countP_eq_zero.mpr (by simpa using hl)]
      exact Nat.zero_le 1
    apply hzero
    split
    . simp only [List.forall_mem_cons]
      exact ⟨hbyte _ (by omega) (by omega), hbyte _ (by omega) (by omega), by simp⟩
    . split
      . simp only [List.forall_mem_cons]
        exact ⟨hbyte _ (by omega) (by omega), hbyte _ (by omega) (by omega),
          hbyte _ (by omega) (by omega), by simp⟩
      . simp only [List.forall_mem_cons]
        exact ⟨hbyte _ (by omega) (by omega), hbyte _ (by omega) (by omega),
          hbyte _ (by omega) (by omega), hbyte _ (by omega) (by omega), by simp⟩

/--
ASCII characters among the bytes of a text are characters of the text.
-/
theorem length_le_of_sublist_latin1 {s : String} {l : List Char} (h : l.Sublist (latin1 (encode s)))
    (hascii : ∀ c ∈ l, c.toNat < 128) : l.length ≤ s.toList.length := by
  have hcount : ∀ cs : List Char, (cs.flatMap String.utf8EncodeChar).countP
      (fun b => decide (b.toNat < 128)) ≤ cs.length := by
    intro cs
    induction cs with
    | nil => exact Nat.le_refl 0
    | cons c cs ih =>
      have hc := countP_ascii_utf8EncodeChar_le c
      rw [List.flatMap_cons, List.countP_append, List.length_cons]
      omega
  have hall : l.countP (fun c => decide (c.toNat < 128)) = l.length :=
    List.countP_eq_length.mpr (by simpa using hascii)
  have hbytes : (latin1 (encode s)).countP (fun c => decide (c.toNat < 128))
      = (encode s).countP (fun b => decide (b.toNat < 128)) := by
    unfold latin1
    rw [List.countP_map]
    apply List.countP_congr
    intro b _
    have hchar : (Char.ofNat b.toNat).toNat = b.toNat := by
      have hb : b.toNat < 256 := b.toNat_lt
      have hvalid : b.toNat.isValidChar := .inl (by omega)
      rw [Char.ofNat, dif_pos hvalid]
      rfl
    simp [hchar]
  have htext := hcount s.toList
  rw [← encode_ofList_eq_flatMap, String.ofList_toList, ← hbytes] at htext
  rw [← hall]
  exact Nat.le_trans h.countP_le htext

end Utf8

namespace Text

def startsWith (p t : String) : Bool :=
  p.toList.isPrefixOf t.toList

theorem startsWith_iff {p t : String} : startsWith p t ↔ p.toList <+: t.toList := by
  unfold startsWith
  exact List.isPrefixOf_iff_prefix

theorem startsWith_append {p a : String} (b : String) (h : p.toList.length ≤ a.toList.length)
    : startsWith p (a ++ b) = startsWith p a := by
  rw [Bool.eq_iff_iff, startsWith_iff, startsWith_iff, String.toList_append]
  constructor
  . intro hp
    exact List.prefix_of_prefix_length_le hp (List.prefix_append _ _) h
  . intro hp
    exact hp.trans (List.prefix_append _ _)

theorem startsWith_of_append {p q t : String} (h : startsWith (p ++ q) t) : startsWith p t := by
  rw [startsWith_iff] at h ⊢
  rw [String.toList_append] at h
  exact (List.prefix_append _ _).trans h

theorem startsWith_append_iff_eq {p a : String} (b : String)
    (h : p.toList.length = a.toList.length)
    : startsWith p (a ++ b) ↔ p = a := by
  rw [startsWith_append b h.le, startsWith_iff, ← String.toList_inj]
  constructor
  . intro hp
    exact hp.eq_of_length h
  . intro hp
    exact hp ▸ List.prefix_rfl

end Text
