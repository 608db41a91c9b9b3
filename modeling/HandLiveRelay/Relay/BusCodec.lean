import HandLiveRelay.Relay.Bus

/-!
This module contains the exactness of the bus codec: the bytes that are read as a message are the
bytes of that message and no others, and reading them never takes an index out of range.
-/

namespace HandLiveRelay.BusMessage

/--
The bytes of a range, `none` if it does not lie within them.
-/
def range (l : List UInt8) (start stop : Nat) : Option (List UInt8) :=
  if start ≤ stop ∧ stop ≤ l.length then
    some ((l.drop start).take (stop - start))
  else
    none

/--
The `?` of a function whose outer `none` is a panic: a missing value is returned at once.
-/
def orReturn {α β : Type} (a : Option α) (k : α → Option (Option β)) : Option (Option β) :=
  match a with
  | some a => k a
  | none => some none

/--
`decode` with the panics of its index expressions, which are the outer `none`. The fields of
`pairRevoked` and `close` are indexed, every other range is taken by `get` and `?`.
-/
def decodeIndexed : List UInt8 → Option (Option BusMessage)
  | [] => some none
  | tag :: rest =>
    let uuidAt := fun (pos : Nat) => (range rest pos (pos + 16)).bind (Bytes.ofList? 16)
    if tag = tagText then
      orReturn (uuidAt 0) fun source =>
      orReturn ((range rest 16 rest.length).bind Utf8.decode) fun text =>
      some (some (forwardText source text))
    else if tag = tagBinary then
      orReturn (uuidAt 0) fun source =>
      orReturn (range rest 16 rest.length) fun frame =>
      some (some (forwardBinary source frame))
    else if tag = tagControl then
      orReturn (Utf8.decode rest) fun text =>
      some (some (control text))
    else if tag = tagPairRevoked ∧ rest.length = pairRevokedLen then
      orReturn (uuidAt 0) fun pairId =>
      orReturn (uuidAt 16) fun signer => do
        let revokedAt ← range rest 32 40
        let sig ← range rest 40 rest.length
        orReturn (Bytes.ofList? 64 sig) fun sig =>
          some (some (pairRevoked { pairId, signer, revokedAt := i64FromBytes revokedAt, sig }))
    else if tag = tagPairsChanged ∧ rest = [] then
      some (some pairsChanged)
    else if tag = tagReplace ∧ rest.length = 16 then
      orReturn (uuidAt 0) fun connId =>
      some (some (replace connId))
    else if tag = tagClose ∧ rest.length = 2 then do
      let hi ← rest[0]?
      let lo ← rest[1]?
      some (some (close (UInt16.ofNat (BigEndian.decode [hi, lo]))))
    else
      some none

theorem range_eq_some {l : List UInt8} {start stop : Nat} (h : start ≤ stop)
    (hlen : stop ≤ l.length) : range l start stop = some ((l.drop start).take (stop - start)) :=
  if_pos ⟨h, hlen⟩

theorem range_bind_ofList? (l : List UInt8) (pos : Nat)
    : (range l pos (pos + 16)).bind (Bytes.ofList? 16) = Bytes.ofList? 16 ((l.drop pos).take 16) := by
  by_cases hlen : pos + 16 ≤ l.length
  . rw [range_eq_some (by omega) hlen, Nat.add_sub_cancel_left]
    rfl
  . have hshort : ¬ ((l.drop pos).take 16).length = 16 := by
      rw [List.length_take, List.length_drop]
      omega
    unfold range Bytes.ofList?
    rw [if_neg (by omega), dif_neg hshort]
    rfl

theorem length_of_ofList?_take {l : List UInt8} {n : Nat} {b : Bytes n}
    (h : Bytes.ofList? n (l.take n) = some b) : n ≤ l.length := by
  have hlen := congrArg List.length (Bytes.ofList?_eq_some.mp h)
  rw [b.length_toList, List.length_take] at hlen
  omega

/--
No index of `decode` is out of range.
-/
theorem decodeIndexed_eq (l : List UInt8) : decodeIndexed l = some (decode l) := by
  cases l with
  | nil => rfl
  | cons tag rest =>
    unfold decodeIndexed decode
    simp only [range_bind_ofList?, List.drop_zero]
    split
    . cases hsource : Bytes.ofList? 16 (rest.take 16) with
      | none => rfl
      | some source =>
        rw [range_eq_some (length_of_ofList?_take hsource) le_rfl]
        rw [List.take_of_length_le (by simp)]
        dsimp only [orReturn, Option.bind_some]
        cases Utf8.decode (rest.drop 16) <;> rfl
    . split
      . cases hsource : Bytes.ofList? 16 (rest.take 16) with
        | none => rfl
        | some source =>
          rw [range_eq_some (length_of_ofList?_take hsource) le_rfl]
          rw [List.take_of_length_le (by simp)]
          rfl
      . split
        . cases Utf8.decode rest <;> rfl
        . split
          . next h =>
            have hlen : rest.length = 104 := h.2
            rw [range_eq_some (by omega) (by omega), range_eq_some (by omega) le_rfl]
            rw [List.take_of_length_le (l := rest.drop 40) (by simp)]
            cases Bytes.ofList? 16 (rest.take 16) with
            | none => rfl
            | some pairId =>
              cases Bytes.ofList? 16 ((rest.drop 16).take 16) with
              | none => rfl
              | some signer =>
                dsimp only [orReturn, Option.bind_eq_bind, Option.bind_some]
                cases Bytes.ofList? 64 (rest.drop 40) <;> rfl
          . split
            . rfl
            . split
              . cases Bytes.ofList? 16 (rest.take 16) <;> rfl
              . split
                . next h =>
                  have ⟨hi, lo, hrest⟩ := List.length_eq_two.mp h.2
                  subst hrest
                  rfl
                . rfl

/--
The bytes of a message are determined by the message that is read from them.
-/
theorem encode_of_decode {l : List UInt8} {m : BusMessage} (h : decode l = some m)
    : m.encode = l := by
  cases l with
  | nil => cases h
  | cons tag rest =>
    unfold decode at h
    simp only [List.drop_zero] at h
    split at h
    . next htag =>
      obtain ⟨source, hsource, h⟩ := Option.bind_eq_some_iff.mp h
      obtain ⟨text, htext, h⟩ := Option.bind_eq_some_iff.mp h
      cases h
      rw [encode, ← Bytes.ofList?_eq_some.mp hsource, Utf8.encode_of_decode htext,
        List.take_append_drop, htag]
    . split at h
      . next htag =>
        obtain ⟨source, hsource, h⟩ := Option.bind_eq_some_iff.mp h
        cases h
        rw [encode, ← Bytes.ofList?_eq_some.mp hsource, List.take_append_drop, htag]
      . split at h
        . next htag =>
          obtain ⟨text, htext, h⟩ := Option.bind_eq_some_iff.mp h
          cases h
          rw [encode, Utf8.encode_of_decode htext, htag]
        . split at h
          . next htag =>
            obtain ⟨pairId, hpair, h⟩ := Option.bind_eq_some_iff.mp h
            obtain ⟨signer, hsigner, h⟩ := Option.bind_eq_some_iff.mp h
            obtain ⟨sig, hsig, h⟩ := Option.bind_eq_some_iff.mp h
            cases h
            have hlen : rest.length = 104 := htag.2
            have htime : ((rest.drop 32).take 8).length = 8 := by simp [hlen]
            rw [encode]
            dsimp only
            rw [← Bytes.ofList?_eq_some.mp hpair, ← Bytes.ofList?_eq_some.mp hsigner,
              ← Bytes.ofList?_eq_some.mp hsig, i64Bytes_i64FromBytes htime, htag.1]
            have happend : ∀ (i j : Nat), (rest.drop i).take j ++ rest.drop (i + j) = rest.drop i := by
              intro i j
              rw [← List.drop_drop, List.take_append_drop]
            simp only [List.append_assoc, happend 32 8, happend 16 16, List.take_append_drop]
          . split at h
            . next htag =>
              cases h
              rw [encode, htag.1, htag.2]
            . split at h
              . next htag =>
                obtain ⟨connId, hconn, h⟩ := Option.bind_eq_some_iff.mp h
                cases h
                rw [encode, ← Bytes.ofList?_eq_some.mp hconn, htag.1,
                  List.take_of_length_le htag.2.le]
              . split at h
                . next htag =>
                  cases h
                  have hlt : BigEndian.decode rest < 2 ^ 16 := by
                    have hlt := BigEndian.decode_lt rest
                    rw [htag.2] at hlt
                    exact hlt
                  have hencode := BigEndian.encode_decode rest
                  rw [htag.2] at hencode
                  rw [encode, htag.1, UInt16.toNat_ofNat', Nat.mod_eq_of_lt hlt, hencode]
                . cases h

/--
Encoding a message and reading it back gives the message, the bytes of messages are the only ones
that are read, no two messages have the same bytes, and no input makes the reader panic.
-/
theorem codec_is_exact
    : (∀ m, decode (encode m) = some m)
      ∧ (∀ l m, decode l = some m → encode m = l)
      ∧ Function.Injective encode
      ∧ (∀ l, (decode l).isSome ↔ l ∈ Set.range encode)
      ∧ ∀ l, decodeIndexed l = some (decode l) := by
  refine ⟨decode_encode, fun l m => encode_of_decode, ?_, ?_, decodeIndexed_eq⟩
  . intro m m' heq
    have hdecode := decode_encode m
    rw [heq, decode_encode] at hdecode
    exact (Option.some.inj hdecode).symm
  . intro l
    rw [Option.isSome_iff_exists]
    constructor
    . intro ⟨m, hm⟩
      exact ⟨m, encode_of_decode hm⟩
    . intro ⟨m, hm⟩
      exact ⟨m, hm ▸ decode_encode m⟩

end HandLiveRelay.BusMessage
