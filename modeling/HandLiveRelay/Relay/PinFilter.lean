import HandLiveRelay.Relay.Derived

/-!
This module contains what the filter of the rendezvous does with the `hello` of a pairing in PIN
mode, which a receiver may read more leniently than the relay: with the last of repeated members.
The filter refuses an envelope that it fails to read but lets a payload through that it fails to
read, so it stops such a `hello` exactly if the relay reads the payload or does not read the
envelope.
-/

namespace HandLiveRelay.Rendezvous

open Json

/--
The value of a member, where the last of repeated members counts.
-/
def lastMember (members : List (Text × Value)) (name : String) : Option Value :=
  (named members name).getLast?

/--
The value is a string with this text.
-/
def isText (s : String) : Option Value → Bool
  | some (.string units) => units = text s
  | _ => false

/--
The payload of a `hello` in PIN mode.
-/
def isPinHello : Value → Bool
  | .object members =>
    isText "hello" (lastMember members "op") && (lastMember members "data").any fun
      | .object data => isText "pin" (lastMember data "mode")
      | _ => false
  | _ => false

/--
The envelope is an object of type `pair` with the payload, a text, in base64.
-/
def carries (payload : String) : Value → Bool
  | .object members =>
    isText "pair" (lastMember members "type")
      && isText (String.ofList (Base64.encodePadded standard (Utf8.encode payload)))
        (lastMember members "payload")
  | _ => false

/--
All names are strings of whole characters.
-/
def wellNamed (members : List (Text × Value)) : Bool :=
  members.all fun m => (toString? m.1).isSome

/--
None of the members with these names is repeated, and all names are strings of whole characters.
-/
def plain (names : List String) (members : List (Text × Value)) : Bool :=
  wellNamed members && names.all fun name => (named members name).length ≤ 1

/--
The payload does not repeat a member that the relay reads, nor does its `data`, and all names in
the two are strings of whole characters.
-/
def unambiguous : Value → Bool
  | .object members =>
    plain ["op", "data"] members && (named members "data").all fun
      | .object data => plain ["mode"] data
      | _ => true
  | _ => true

/--
The envelope does not repeat a member that the relay reads, and all its names are strings of whole
characters.
-/
def plainEnvelope : Value → Bool
  | .object members => plain ["type", "payload"] members
  | _ => true

/-!
What the readers read is what the last members say.
-/

theorem isText_eq_true {s : String} {v : Option Value} (h : isText s v = true)
    : v = some (.string (text s)) := by
  unfold isText at h
  split at h
  . rw [of_decide_eq_true h]
  . cases h

theorem field?_eq (members : List (Text × Value)) (name : String)
    : field? members name
      = if (named members name).length ≤ 1 then some (lastMember members name) else none := by
  unfold field? lastMember
  split
  next h => simp [h]
  next a h => simp [h]
  next hnil hone =>
    rw [if_neg]
    intro hle
    cases hnamed : named members name with
    | nil => exact hnil hnamed
    | cons a rest =>
      rw [hnamed] at hle
      cases rest with
      | nil => exact hone a hnamed
      | cons b rest => simp at hle

/--
The fields of an object are its last members, if it can be read.
-/
theorem fields_eq (names : List String) (members : List (Text × Value))
    : fields names (.object members)
      = if plain names members then some (names.map (lastMember members)) else none := by
  show (if wellNamed members then names.mapM (field? members) else none) = _
  unfold plain
  cases wellNamed members with
  | false => rfl
  | true =>
    rw [if_pos rfl, Bool.true_and]
    induction names with
    | nil => rfl
    | cons name names ih =>
      rw [List.mapM_cons, field?_eq, ih, List.all_cons]
      by_cases hname : (named members name).length ≤ 1
      . rw [if_pos hname, decide_eq_true hname, Bool.true_and]
        split
        . rfl
        . rfl
      . rw [if_neg hname, decide_eq_false hname, Bool.false_and]
        rfl

/--
An envelope that is read at all is read as it says.
-/
theorem readEnvHead_of_carries {payload : String} {v : Value} (hcarries : carries payload v = true)
    : readEnvHead v
      = if plainEnvelope v then
          some {
            kind := "pair"
            payload := some (String.ofList (Base64.encodePadded standard (Utf8.encode payload)))
          }
        else
          none := by
  unfold carries at hcarries
  split at hcarries
  . next members =>
    rw [Bool.and_eq_true] at hcarries
    have hkind := isText_eq_true hcarries.1
    have hpayload := isText_eq_true hcarries.2
    rw [readEnvHead, plainEnvelope, fields_eq]
    cases plain ["type", "payload"] members with
    | false => rfl
    | true =>
      rw [if_pos rfl, if_pos rfl]
      simp only [List.map_cons, List.map_nil, hkind, hpayload, string?_text, optionalField_text,
        Option.bind_eq_bind, Option.bind_some]
      rfl
  . cases hcarries

theorem readPairDataHead_of_pin {data : List (Text × Value)}
    (hmode : lastMember data "mode" = some (.string (text "pin")))
    : readPairDataHead (.object data)
      = if plain ["mode"] data then some { mode := some "pin" } else none := by
  unfold readPairDataHead
  rw [fields_eq]
  cases plain ["mode"] data with
  | false => rfl
  | true =>
    rw [if_pos rfl, if_pos rfl]
    simp only [List.map_cons, List.map_nil, hmode, Option.bind_eq_bind, Option.bind_some,
      optionalField_text]
    rfl

/--
The only member with a name is the last one.
-/
theorem all_named_of_plain {names : List String} {members : List (Text × Value)} {name : String}
    {v : Value} (h : plain names members = true) (hname : name ∈ names)
    (hv : lastMember members name = some v) (p : Value → Bool)
    : (named members name).all p = p v := by
  unfold plain at h
  rw [Bool.and_eq_true, List.all_eq_true] at h
  have hle := of_decide_eq_true (h.2 name hname)
  unfold lastMember at hv
  cases hnamed : named members name with
  | nil => simp [hnamed] at hv
  | cons a rest =>
    cases rest with
    | nil =>
      rw [hnamed, List.getLast?_singleton, Option.some_inj] at hv
      simp [hv]
    | cons b rest => simp [hnamed] at hle

/--
A `hello` in PIN mode is read as one exactly if it is unambiguous.
-/
theorem readPairPayloadHead_of_pin {v : Value} (hpin : isPinHello v = true)
    : readPairPayloadHead v
      = if unambiguous v then some { op := "hello", data := some { mode := some "pin" } }
        else none := by
  unfold isPinHello at hpin
  split at hpin
  . next members =>
    rw [Bool.and_eq_true, Option.any_eq_true] at hpin
    obtain ⟨hop, d, hdata, hd⟩ := hpin
    have hop := isText_eq_true hop
    split at hd
    . next data =>
      have hread := readPairDataHead_of_pin (isText_eq_true hd)
      rw [readPairPayloadHead, unambiguous, fields_eq]
      cases hplain : plain ["op", "data"] members with
      | false => rfl
      | true =>
        rw [if_pos rfl, Bool.true_and, all_named_of_plain hplain (by simp) hdata]
        simp only [List.map_cons, List.map_nil, hop, hdata, Option.bind_eq_bind, Option.bind_some,
          string?_text, optionalField, hread]
        by_cases hmode : plain ["mode"] data = true
        . simp [hmode]
        . simp [hmode]
    . cases hd
  . cases hpin

theorem decode_payload (bytes : List UInt8)
    : Base64.decodePadded standard (Utf8.latin1 (Utf8.encode
        (String.ofList (Base64.encodePadded standard bytes)))) = some bytes := by
  have hdigit : ∀ v < 64, (standard.digit v).toNat < 128 ∧ standard.digit v ≠ '=' := by decide
  rw [Utf8.latin1_encode_ofList]
  . exact Base64.decodePadded_encodePadded standard (fun v hv => (hdigit v hv).2) bytes
  . intro c hc
    unfold Base64.encodePadded at hc
    rw [List.mem_append] at hc
    cases hc with
    | inl hc =>
      have ⟨v, hv, heq⟩ := Base64.mem_encode standard hc
      rw [heq]
      exact (hdigit v hv).1
    | inr hc =>
      rw [List.eq_of_mem_replicate hc]
      decide

/--
A `hello` in PIN mode does not pass the rendezvous exactly if its payload does not repeat a member
that the relay reads and has names of whole characters only, or its envelope is not so.
-/
theorem pin_hello_does_not_pass (serde : Serde) (hserde : serde.Derived) (env payload : String)
    (hcarries : (parse env).any (carries payload) = true)
    (hpin : (parse payload).any isPinHello = true)
    : rendezvousAllows serde.parseEnvHead serde.parsePairPayloadHead env = false
      ↔ (parse payload).any unambiguous = true ∨ (parse env).any plainEnvelope = false := by
  rw [Option.any_eq_true] at hcarries hpin
  obtain ⟨v, hv, hcarries⟩ := hcarries
  obtain ⟨p, hp, hpin⟩ := hpin
  unfold rendezvousAllows
  rw [hserde.envHead, hv, hp, Option.bind_some, Option.any_some, Option.any_some,
    readEnvHead_of_carries hcarries]
  cases plainEnvelope v with
  | false => exact iff_of_true rfl (.inr rfl)
  | true =>
    dsimp only
    rw [if_pos rfl]
    dsimp only
    rw [if_neg (not_not.mpr rfl), Option.bind_some, decode_payload, Option.bind_some,
      hserde.pairPayloadHead, hp, Option.bind_some, readPairPayloadHead_of_pin hpin]
    cases unambiguous p with
    | false => simp
    | true => simp

namespace Sample

/--
An envelope with a payload.
-/
def envelope (payload : String) : String :=
  "\x7b\"type\":\"pair\",\"payload\":\""
    ++ String.ofList (Base64.encodePadded standard (Utf8.encode payload)) ++ "\"\x7d"

def pinHello : String :=
  "\x7b\"op\":\"hello\",\"data\":\x7b\"mode\":\"pin\"\x7d\x7d"

/--
The same with its `op` twice.
-/
def repeatedPinHello : String :=
  "\x7b\"op\":\"hello\",\"op\":\"hello\",\"data\":\x7b\"mode\":\"pin\"\x7d\x7d"

end Sample

theorem plain_pin_hello_does_not_pass
    : rendezvousAllows Serde.derived.parseEnvHead Serde.derived.parsePairPayloadHead
        (Sample.envelope Sample.pinHello) = false :=
  (pin_hello_does_not_pass Serde.derived Serde.derived_derived (Sample.envelope Sample.pinHello)
    Sample.pinHello (by decide +kernel) (by decide +kernel)).mpr (.inl (by decide +kernel))

/--
With a repeated member the relay fails to read the payload and forwards it.
-/
theorem repeated_member_passes
    : (parse (Sample.envelope Sample.repeatedPinHello)).any (carries Sample.repeatedPinHello) = true
      ∧ (parse Sample.repeatedPinHello).any isPinHello = true
      ∧ rendezvousAllows Serde.derived.parseEnvHead Serde.derived.parsePairPayloadHead
          (Sample.envelope Sample.repeatedPinHello) = true := by
  decide +kernel

end HandLiveRelay.Rendezvous
