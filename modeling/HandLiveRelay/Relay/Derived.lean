import HandLiveRelay.Lib.JsonStruct
import HandLiveRelay.Relay.Conn

/-!
This module contains what the readers that `serde` derives for the frames of a device and for the
envelopes of a rendezvous make of a JSON text. A field that is repeated or has a value of another
type makes the whole text fail.
-/

namespace HandLiveRelay

open Wire Rendezvous

namespace Wire

def uuid? (v : Json.Value) : Option Uuid :=
  (Json.string? v).bind Uuid.parseStr

/--
The text of a value other than `null`.
-/
def rawText? : Option (Json.Value × List Char) → Option String
  | none | some (.null, _) => none
  | some (_, raw) => some (String.ofList raw)

def inboundNames : List String := ["op", "to", "env", "rv_id"]

def readInbound (text : String) : Option Inbound := do
  match ← Json.rawFields inboundNames text with
  | [op, dest, env, rvId] =>
    return {
      op := ← Json.optionalField Json.string? (op.map Prod.fst)
      dest := ← Json.optionalField uuid? (dest.map Prod.fst)
      env := rawText? env
      rvId := ← Json.optionalField Json.string? (rvId.map Prod.fst)
    }
  | _ => none

/-!
What a frame is made of.
-/

theorem weight_of_uuid? {field : Json.Value × List Char} {u : Uuid} (h : uuid? field.1 = some u)
    : 34 ≤ Json.weight field := by
  have ⟨s, hs, hu⟩ := Option.bind_eq_some_iff.mp h
  have hweight := Json.length_le_weight hs
  have hlength := Uuid.length_of_parseStr hu
  omega

theorem exists_of_rawText? {f : Option (Json.Value × List Char)} {env : String}
    (h : rawText? f = some env) : ∃ field, f = some field ∧ env.utf8ByteSize ≤ Json.weight field := by
  unfold rawText? at h
  split at h
  . cases h
  . cases h
  . cases h
    exact ⟨_, rfl, Nat.le_max_right _ _⟩

/--
The fields of a text frame, and the bytes that they take up.
-/
theorem readInbound_eq_some {text : String} {inbound : Inbound}
    (h : readInbound text = some inbound)
    : ∃ op dest env rvId, Json.RawFields inboundNames text.utf8ByteSize [op, dest, env, rvId]
      ∧ Json.optionalField Json.string? (op.map Prod.fst) = some inbound.op
      ∧ Json.optionalField uuid? (dest.map Prod.fst) = some inbound.dest
      ∧ rawText? env = inbound.env
      ∧ Json.optionalField Json.string? (rvId.map Prod.fst) = some inbound.rvId := by
  have ⟨fs, hfs, hread⟩ := Option.bind_eq_some_iff.mp h
  have hsize := Json.rawFields_spec (by decide) hfs
  split at hread
  next op dest env rvId =>
    simp only [Option.bind_eq_bind, Option.bind_eq_some_iff] at hread
    have ⟨_, hop, _, hdest, _, hrvId, heq⟩ := hread
    cases heq
    exact ⟨op, dest, env, rvId, hsize, hop, hdest, rfl, hrvId⟩
  . cases hread

/--
A wrapper with the members `to` and `env` is read as it was written.
-/
theorem readInbound_object {dest : Uuid} {env : String} {members : List (Json.Text × Json.Value)}
    (h : Json.Reads env (.object members)) (htrim : Json.trimWs env.toList = env.toList)
    : readInbound (Json.object [("to", Json.quote dest.hyphenated), ("env", env)])
      = some { op := none, dest := some dest, env := some env, rvId := none } := by
  have hfields := Json.rawFields_object inboundNames
    [("to", Json.quote dest.hyphenated, .string (Json.text dest.hyphenated)),
      ("env", env, .object members)] (List.cons_ne_nil _ _) (by
        simp only [List.mem_cons, List.not_mem_nil, or_false]
        rintro m (rfl | rfl)
        . exact Json.reads_quote _
        . exact h)
  have hop : Json.text "to" ≠ Json.text "op" ∧ Json.text "env" ≠ Json.text "op" := by decide
  have hto : Json.text "env" ≠ Json.text "to" := by decide
  have hrvId : Json.text "to" ≠ Json.text "rv_id" ∧ Json.text "env" ≠ Json.text "rv_id" := by decide
  have hdest : uuid? (.string (Json.text dest.hyphenated)) = some dest := by
    rw [uuid?, Json.string?_text, Option.bind_some, dest.parseStr_hyphenated]
  simp only [List.map_cons, List.map_nil, htrim] at hfields
  unfold readInbound
  rw [hfields]
  simp [Json.fieldsByName, inboundNames, Json.field?, Json.named, Json.toString?_text, hop, hto,
    hto.symm, hrvId, Json.optionalField, hdest, rawText?]

end Wire

namespace Rendezvous

def readEnvHead (v : Json.Value) : Option EnvHead := do
  match ← Json.fields ["type", "payload"] v with
  | [some kind, payload] =>
    return { kind := ← Json.string? kind, payload := ← Json.optionalField Json.string? payload }
  | _ => none

def readPairDataHead (v : Json.Value) : Option PairDataHead := do
  match ← Json.fields ["mode"] v with
  | [mode] => return { mode := ← Json.optionalField Json.string? mode }
  | _ => none

def readPairPayloadHead (v : Json.Value) : Option PairPayloadHead := do
  match ← Json.fields ["op", "data"] v with
  | [some op, data] =>
    return { op := ← Json.string? op, data := ← Json.optionalField readPairDataHead data }
  | _ => none

end Rendezvous

namespace Serde

/--
The functions of `serde_json` are these readers. Of a payload that is no UTF-8 text nothing is
said.
-/
structure Derived (serde : Serde) : Prop where
  inbound : serde.parseInbound = readInbound
  envHead : ∀ text, serde.parseEnvHead text = (Json.parse text).bind readEnvHead
  pairPayloadHead : ∀ text, serde.parsePairPayloadHead (Utf8.encode text)
    = (Json.parse text).bind readPairPayloadHead

/--
The readers, where a payload has to be a UTF-8 text.
-/
def derived : Serde where
  parseInbound := readInbound
  parseEnvHead text := (Json.parse text).bind readEnvHead
  parsePairPayloadHead bytes := ((Utf8.decode bytes).bind Json.parse).bind readPairPayloadHead

theorem derived_derived : derived.Derived where
  inbound := rfl
  envHead _ := rfl
  pairPayloadHead text := by
    show ((Utf8.decode (Utf8.encode text)).bind Json.parse).bind readPairPayloadHead = _
    rw [Utf8.decode_encode, Option.bind_some]

end Serde

end HandLiveRelay
