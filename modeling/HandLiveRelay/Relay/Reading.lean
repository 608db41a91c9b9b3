import HandLiveRelay.Relay.Vocabulary

/-!
This module contains how the texts read as JSON that a device gets because of a text frame of
another one. They are put together around the raw text of a value, `env`, and the `rv_id`.
-/

namespace HandLiveRelay

open Fiber Wire

theorem Uuid.quote_hyphenated (u : Uuid) : Json.quote u.hyphenated = "\"" ++ u.hyphenated ++ "\"" := by
  apply Json.quote_of_plain
  intro c hc
  unfold hyphenated at hc
  rw [String.toList_ofList] at hc
  rcases mem_hyphenatedChars hc with rfl | ⟨v, hv, rfl⟩
  . decide
  . have hall : ∀ v ∈ List.range 16, Nat.digitChar v ≠ '"' ∧ Nat.digitChar v ≠ '\\'
        ∧ 0x20 ≤ (Nat.digitChar v).toNat := by
      decide
    exact hall v (List.mem_range.mpr hv)

namespace Wire

theorem forwardedText_eq (source : Uuid) (env : String)
    : forwardedText source env
      = Json.object [("from", Json.quote source.hyphenated), ("env", env)] := by
  have hfrom : "\x7b\"from\":\"" = "\x7b" ++ (Json.quote "from" ++ (":" ++ "\"")) := by decide +kernel
  have henv : "\",\"env\":" = "\"" ++ ("," ++ (Json.quote "env" ++ ":")) := by decide +kernel
  unfold forwardedText
  rw [hfrom, henv]
  simp only [Json.object, List.map_cons, List.map_nil, String.intercalate_cons_cons,
    String.intercalate_singleton, source.quote_hyphenated, String.append_assoc]

theorem rvMsgMessage_eq (rvId env : String)
    : rvMsgMessage rvId env
      = Json.object [("op", Json.quote "rv_msg"), ("rv_id", Json.quote rvId), ("env", env)] := by
  have hop : "\x7b\"op\":\"rv_msg\",\"rv_id\":" = "\x7b" ++ (Json.quote "op" ++ (":"
      ++ (Json.quote "rv_msg" ++ ("," ++ (Json.quote "rv_id" ++ ":"))))) := by
    decide +kernel
  have henv : ",\"env\":" = "," ++ (Json.quote "env" ++ ":") := by decide +kernel
  unfold rvMsgMessage
  rw [hop, henv]
  simp only [Json.object, List.map_cons, List.map_nil, String.intercalate_cons_cons,
    String.intercalate_singleton, String.append_assoc]

theorem rvJoinedMessage_eq (rvId : String) (b : Bool)
    : rvJoinedMessage rvId b
      = Json.object [("op", Json.quote "rv_joined"), ("peer_present", boolText b),
          ("rv_id", Json.quote rvId)] := by
  have hop : "\x7b\"op\":\"rv_joined\",\"peer_present\":" = "\x7b" ++ (Json.quote "op" ++ (":"
      ++ (Json.quote "rv_joined" ++ ("," ++ (Json.quote "peer_present" ++ ":"))))) := by
    decide +kernel
  have hrv : ",\"rv_id\":" = "," ++ (Json.quote "rv_id" ++ ":") := by decide +kernel
  unfold rvJoinedMessage
  rw [hop, hrv]
  simp only [Json.object, List.map_cons, List.map_nil, String.intercalate_cons_cons,
    String.intercalate_singleton, String.append_assoc]

/-!
What is taken for an object is one.
-/

theorem isWhitespace_of_isWs {c : Char} (h : Json.isWs c = true) : isWhitespace c = true := by
  simp only [Json.isWs, decide_eq_true_eq] at h
  rcases h with rfl | rfl | rfl | rfl <;> decide

theorem isWhitespace_of_first {c : Char} {r : Json.Mode × Json.StackOp} (h : Json.first c = some r)
    : isWhitespace c = false := by
  have hdigit : Json.isDigit c = true → isWhitespace c = false := by
    intro hdigit
    have hbounds : 48 ≤ c.toNat ∧ c.toNat ≤ 57 := by
      simpa [Json.isDigit, Char.le_def, UInt32.le_iff_toNat_le] using hdigit
    unfold isWhitespace
    simp only [decide_eq_false_iff_not]
    omega
  have hplain : ∀ d : Char, isWhitespace d = false → c = d → isWhitespace c = false := by
    rintro d hd rfl
    exact hd
  unfold Json.first at h
  split at h
  . next hc => exact hplain _ (by decide) hc
  split at h
  . next hc => exact hplain _ (by decide) hc
  split at h
  . next hc => exact hplain _ (by decide) hc
  split at h
  . next hc => exact hplain _ (by decide) hc
  split at h
  . next hc => exact hplain _ (by decide) hc
  split at h
  . next hc => exact hplain _ (by decide) hc
  split at h
  . next hc => exact hc.elim (hplain _ (by decide)) hdigit
  . cases h

/--
`is_object` trims what Unicode calls white space, which is more than JSON does. Of a complete value
that is the same.
-/
theorem exists_object_of_isObject {raw : String} {v : Json.Value} (hobject : isObject raw = true)
    (hparse : Json.parse raw = some v) : ∃ members, v = .object members ∧ Json.Reads raw v := by
  have ⟨c, rest, r, hdrop, hfirst⟩ := Json.exists_first_of_parse hparse
  have htrim : raw.toList.dropWhile isWhitespace = c :: rest := by
    rw [← List.takeWhile_append_dropWhile (p := Json.isWs) (l := raw.toList), hdrop,
      List.dropWhile_append_of_pos, List.dropWhile_cons_of_neg]
    . simp [isWhitespace_of_first hfirst]
    . intro c hc
      exact isWhitespace_of_isWs (List.all_eq_true.mp List.all_takeWhile c hc)
  have hc : c = '\x7b' := by
    simpa [isObject, htrim] using hobject
  exact Json.exists_object_of_parse hparse (hc ▸ hdrop)

end Wire

/-!
What a text frame makes its connection do.
-/

/--
A message that a text frame makes its connection publish.
-/
inductive Causes (serde : Serde) (me : Ident) (frame : String) : BusMessage → Prop where
  | wrapper {inbound : Inbound} {env : String} (hparse : serde.parseInbound frame = some inbound)
      (henv : inbound.env = some env) (hobject : isObject env = true)
      : Causes serde me frame (.forwardText me.deviceId (forwardedText me.deviceId env))
  | rvMsg {inbound : Inbound} {rvId env : String} (hparse : serde.parseInbound frame = some inbound)
      (hop : inbound.op = some "rv_msg") (hsize : frame.utf8ByteSize ≤ maxFrameBytes)
      (hrv : inbound.rvId.bind Rendezvous.canonicalRvId = some rvId) (henv : inbound.env = some env)
      (hobject : isObject env = true)
      : Causes serde me frame (.control (rvMsgMessage rvId env))
  | rvJoined {inbound : Inbound} {rvId : String} (hparse : serde.parseInbound frame = some inbound)
      (hrv : inbound.rvId.bind Rendezvous.canonicalRvId = some rvId)
      : Causes serde me frame (.control (rvJoinedMessage rvId true))

/--
The operations that handle a text frame.
-/
inductive TextOp (serde : Serde) (me : Ident) (frame : String) : Op → Prop where
  | now : TextOp serde me frame .now
  | activePeers : TextOp serde me frame .activePeers
  | addEnvelope {bytes : Nat} : TextOp serde me frame (.addEnvelope bytes)
  | join {rvId : String} : TextOp serde me frame (.rvJoin rvId)
  | members {rvId : String} : TextOp serde me frame (.rvMembers rvId)
  | error {err : RelayError} {dest : Option Uuid}
      : TextOp serde me frame (.sendText (errorMessage err dest))
  | joined {rvId : String} {b : Bool} : TextOp serde me frame (.sendText (rvJoinedMessage rvId b))
  | publish {dest : Uuid} {msg : BusMessage} (h : Causes serde me frame msg)
      : TextOp serde me frame (.publish dest msg)

theorem Conn.asks_handleText_causes {settings : Settings} {serde : Serde} {me : Ident} {frame : String}
    : (handleText settings serde me frame).Asks (TextOp serde me frame) := by
  have herror : ∀ err dest, TextOp serde me frame (.sendText (errorMessage err dest)) :=
    fun _ _ => .error
  unfold handleText
  split
  . exact asks_sendError (herror _ _)
  next inbound hparse =>
    dsimp only
    split
    next op hop =>
      split
      next hknown =>
        split
        . exact asks_sendError (herror _ _)
        next hsize =>
          split
          . exact asks_rvJoin herror fun r hr =>
              ⟨.join, fun _ => .joined, fun _ => .publish (.rvJoined hparse hr)⟩
          next hjoin =>
            have hmsg : inbound.op = some "rv_msg" := by rw [hop, hknown.resolve_left hjoin]
            exact asks_rvMsg herror fun r e hr he hobject =>
              ⟨.members, fun _ => .publish (.rvMsg hparse hmsg (Nat.le_of_not_lt hsize) hr he hobject)⟩
      . exact asks_sendError (herror _ _)
    . split
      next dest env hdest henv =>
        split
        next hguard =>
          split
          . exact asks_sendError (herror _ _)
          . exact asks_forward .now .activePeers (fun _ => .addEnvelope) herror
              (.publish (.wrapper hparse henv hguard.2))
        . exact asks_sendError (herror _ _)
      . exact asks_sendError (herror _ _)

/--
`serde_json`'s `RawValue` holds exactly one complete JSON value of the input.
-/
def Serde.RawValues (serde : Serde) : Prop :=
  ∀ frame inbound raw, serde.parseInbound frame = some inbound → inbound.env = some raw
    → raw.toList <:+: frame.toList ∧ (Json.parse raw).isSome

/--
A text that another device gets because of a text frame of `source`, read as JSON. `env` is byte for
byte an object of the frame.
-/
inductive Relayed (source : Uuid) (frame text : String) : Prop where
  | wrapper {env : String} {members : List (Json.Text × Json.Value)}
      (htext : text = forwardedText source env) (hpart : env.toList <:+: frame.toList)
      (henv : Json.parse env = some (.object members))
      (hread : Json.parse text = some (.object [
        (Json.text "from", .string (Json.text source.hyphenated)),
        (Json.text "env", .object members)]))
  | rvMsg {rvId env : String} {members : List (Json.Text × Json.Value)}
      (htext : text = rvMsgMessage rvId env) (hpart : env.toList <:+: frame.toList)
      (henv : Json.parse env = some (.object members))
      (hread : Json.parse text = some (.object [
        (Json.text "op", .string (Json.text "rv_msg")),
        (Json.text "rv_id", .string (Json.text rvId)),
        (Json.text "env", .object members)]))
  | rvJoined {rvId : String} (htext : text = rvJoinedMessage rvId true)
      (hread : Json.parse text = some (.object [
        (Json.text "op", .string (Json.text "rv_joined")),
        (Json.text "peer_present", .bool true),
        (Json.text "rv_id", .string (Json.text rvId))]))

/--
The text that a message carries for its receiver.
-/
def BusMessage.text? : BusMessage → Option String
  | forwardText _ text | control text => some text
  | _ => none

theorem Causes.relayed {serde : Serde} (hraw : serde.RawValues) {me : Ident} {frame : String}
    {msg : BusMessage} (h : Causes serde me frame msg)
    : ∃ text, msg.text? = some text ∧ Relayed me.deviceId frame text := by
  have hobject : ∀ {inbound : Inbound} {env : String}, serde.parseInbound frame = some inbound
      → inbound.env = some env → isObject env = true
      → env.toList <:+: frame.toList
        ∧ ∃ members, Json.parse env = some (.object members) ∧ Json.Reads env (.object members) := by
    intro inbound env hparse henv hobject
    have ⟨hpart, hsome⟩ := hraw frame inbound env hparse henv
    have ⟨v, hv⟩ := Option.isSome_iff_exists.mp hsome
    have ⟨members, hmembers, hreads⟩ := exists_object_of_isObject hobject hv
    subst hmembers
    exact ⟨hpart, members, hv, hreads⟩
  cases h with
  | @wrapper inbound env hparse henv hobj =>
    have ⟨hpart, members, hv, hreads⟩ := hobject hparse henv hobj
    refine ⟨_, rfl, .wrapper rfl hpart hv (Json.parse_of_reads ?_)⟩
    rw [forwardedText_eq]
    refine Json.reads_object [("from", _, _), ("env", _, _)] ?_
    simp only [List.mem_cons, List.not_mem_nil, or_false]
    rintro m (rfl | rfl)
    . exact Json.reads_quote _
    . exact hreads
  | @rvMsg inbound rvId env hparse _ _ hrv henv hobj =>
    have ⟨hpart, members, hv, hreads⟩ := hobject hparse henv hobj
    refine ⟨_, rfl, .rvMsg rfl hpart hv (Json.parse_of_reads ?_)⟩
    rw [rvMsgMessage_eq]
    refine Json.reads_object [("op", _, _), ("rv_id", _, _), ("env", _, _)] ?_
    simp only [List.mem_cons, List.not_mem_nil, or_false]
    rintro m (rfl | rfl | rfl)
    . exact Json.reads_quote _
    . exact Json.reads_quote _
    . exact hreads
  | @rvJoined inbound rvId hparse hrv =>
    refine ⟨_, rfl, .rvJoined rfl (Json.parse_of_reads ?_)⟩
    rw [rvJoinedMessage_eq]
    refine Json.reads_object [("op", _, _), ("peer_present", _, _), ("rv_id", _, _)] ?_
    simp only [List.mem_cons, List.not_mem_nil, or_false]
    rintro m (rfl | rfl | rfl)
    . exact Json.reads_quote _
    . exact Json.reads_bool true
    . exact Json.reads_quote _

end HandLiveRelay
