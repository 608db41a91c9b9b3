import HandLiveRelay.Relay.Derived
import HandLiveRelay.System.Unforgeable

/-!
This module contains how long the frames are that a connection hands on. The limit is checked on
the frame that came in, but a text is put together anew around its envelope, with the source of the
frame in place of its destination. At the limit it may grow beyond it: what is handed on keeps the
limit exactly if the envelope leaves room for what is put around it.
-/

namespace HandLiveRelay

open Fiber Wire

/-!
The length of what is written.
-/

theorem Uuid.utf8ByteSize_hyphenated (u : Uuid) : u.hyphenated.utf8ByteSize = 36 := by
  unfold hyphenated
  rw [Utf8.utf8ByteSize_ofList fun c => toNat_lt_of_mem_hyphenatedChars, length_hyphenatedChars]

/--
An id of a rendezvous has 22 characters, which JSON prints as they are.
-/
theorem Rendezvous.canonicalRvId_size {text rvId : String} (h : canonicalRvId text = some rvId)
    : 22 ≤ text.toList.length ∧ (Json.quote rvId).utf8ByteSize = 24 := by
  have ⟨b, hb, hrv⟩ := Option.map_eq_some_iff.mp h
  have htext := B64u.length_of_decodeFixed hb
  subst hrv
  have hplain : ∀ v ∈ List.range 64, B64u.urlSafe.digit v ≠ '"' ∧ B64u.urlSafe.digit v ≠ '\\'
      ∧ 0x20 ≤ (B64u.urlSafe.digit v).toNat := by
    decide
  have hquote : Json.quote (B64u.encode b.toList) = "\"" ++ B64u.encode b.toList ++ "\"" := by
    apply Json.quote_of_plain
    intro c hc
    rw [B64u.encode, String.toList_ofList] at hc
    have ⟨v, hv, hdigit⟩ := Base64.mem_encode B64u.urlSafe hc
    rw [hdigit]
    exact hplain v (List.mem_range.mpr hv)
  have hsize : (B64u.encode b.toList).utf8ByteSize
      = (Base64.encode B64u.urlSafe b.toList).length :=
    Utf8.utf8ByteSize_ofList fun c => B64u.toNat_lt_of_mem_encode
  have hone : "\"".utf8ByteSize = 1 := rfl
  refine ⟨by omega, ?_⟩
  rw [hquote, String.utf8ByteSize_append, String.utf8ByteSize_append, hsize, hone,
    Base64.length_encode, b.length_toList]

namespace Wire

theorem utf8ByteSize_forwardedText (source : Uuid) (env : String)
    : (forwardedText source env).utf8ByteSize = env.utf8ByteSize + 54 := by
  have hfrom : "\x7b\"from\":\"".utf8ByteSize = 9 := rfl
  have henv : "\",\"env\":".utf8ByteSize = 8 := rfl
  have hend : "\x7d".utf8ByteSize = 1 := rfl
  unfold forwardedText
  simp only [String.utf8ByteSize_append, hfrom, henv, hend, source.utf8ByteSize_hyphenated]
  omega

section

variable {text rvId : String} (h : Rendezvous.canonicalRvId text = some rvId)

include h

theorem utf8ByteSize_rvMsgMessage (env : String)
    : (rvMsgMessage rvId env).utf8ByteSize = env.utf8ByteSize + 55 := by
  have hop : "\x7b\"op\":\"rv_msg\",\"rv_id\":".utf8ByteSize = 23 := rfl
  have henv : ",\"env\":".utf8ByteSize = 7 := rfl
  have hend : "\x7d".utf8ByteSize = 1 := rfl
  have ⟨_, hquote⟩ := Rendezvous.canonicalRvId_size h
  unfold rvMsgMessage
  simp only [String.utf8ByteSize_append, hop, henv, hend]
  omega

theorem utf8ByteSize_rvJoinedMessage : (rvJoinedMessage rvId true).utf8ByteSize ≤ maxFrameBytes := by
  have hop : "\x7b\"op\":\"rv_joined\",\"peer_present\":".utf8ByteSize = 33 := rfl
  have htrue : (boolText true).utf8ByteSize = 4 := rfl
  have hrv : ",\"rv_id\":".utf8ByteSize = 9 := rfl
  have hend : "\x7d".utf8ByteSize = 1 := rfl
  have ⟨_, hquote⟩ := Rendezvous.canonicalRvId_size h
  unfold rvJoinedMessage maxFrameBytes
  simp only [String.utf8ByteSize_append, hop, htrue, hrv, hend]
  omega

end

theorem utf8ByteSize_presenceMessage (pairId peer : Uuid) (b : Bool)
    : (presenceMessage pairId peer b).utf8ByteSize ≤ maxFrameBytes := by
  have honline : "\x7b\"online\":".utf8ByteSize = 10 := rfl
  have hbool : (boolText b).utf8ByteSize ≤ 5 := by cases b <;> decide
  have hpair : ",\"op\":\"presence\",\"pair_id\":\"".utf8ByteSize = 28 := rfl
  have hpeer : "\",\"peer_device_id\":\"".utf8ByteSize = 20 := rfl
  have hend : "\"\x7d".utf8ByteSize = 2 := rfl
  unfold presenceMessage maxFrameBytes
  simp only [String.utf8ByteSize_append, honline, hpair, hpeer, hend,
    Uuid.utf8ByteSize_hyphenated]
  omega

theorem length_rewriteHr {frame : List UInt8} {dest : Uuid} (h : parseHr frame = some dest)
    (source : Uuid) : (rewriteHr frame source).length = frame.length := by
  have hlong : ¬ frame.length ≤ hrHeaderLen := by
    intro hshort
    rw [parseHr, if_pos (.inl hshort)] at h
    cases h
  simp only [rewriteHr, List.length_append, List.length_take, List.length_drop,
    source.length_toList]
  unfold hrHeaderLen at hlong ⊢
  omega

/-!
The length of what was read. A frame may be an array of its fields, without their names, and a UUID
may come without hyphens.
-/

theorem size_of_wrapper {text env : String} {inbound : Inbound} {dest : Uuid}
    (h : readInbound text = some inbound) (hop : inbound.op = none) (hdest : inbound.dest = some dest)
    (henv : inbound.env = some env) : env.utf8ByteSize + 42 ≤ text.utf8ByteSize := by
  obtain ⟨_, _, _, _, hsize, hop', hdest', henv', _⟩ := readInbound_eq_some h
  rw [hop] at hop'
  rw [hdest] at hdest'
  obtain ⟨destField, hdestField, hread⟩ := Json.exists_of_optionalField hdest'
  obtain ⟨envField, henvField, hraw⟩ := exists_of_rawText? (henv'.trans henv)
  have hweight := weight_of_uuid? hread
  subst hdestField henvField
  cases hsize with
  | byName hsum =>
    have htoName : (Json.text "to").length = 2 := by decide
    have henvName : (Json.text "env").length = 3 := by decide
    simp only [inboundNames, List.zip_cons_cons, List.map_cons, List.sum_cons, Option.map_some,
      Option.getD_some, Json.memberWeight, htoName, henvName] at hsum
    omega
  | byPosition entries hfs hsum =>
    rcases entries with _ | ⟨opField, _ | ⟨_, _ | ⟨_, rest⟩⟩⟩
    . simp [inboundNames] at hfs
    . simp [inboundNames] at hfs
    . simp [inboundNames] at hfs
    . simp only [List.map_cons, List.cons_append, List.cons.injEq, Option.some.injEq] at hfs
      obtain ⟨hopField, hdestField, henvField, _⟩ := hfs
      subst hopField hdestField henvField
      have hnull := Json.four_le_weight hop'
      simp only [List.map_cons, List.sum_cons] at hsum
      omega

theorem size_of_rvMsg {text env rvId : String} {inbound : Inbound}
    (h : readInbound text = some inbound) (hop : inbound.op = some "rv_msg")
    (hrvId : inbound.rvId.bind Rendezvous.canonicalRvId = some rvId)
    (henv : inbound.env = some env) : env.utf8ByteSize + 41 ≤ text.utf8ByteSize := by
  obtain ⟨_, _, _, _, hsize, hop', hdest', henv', hrvId'⟩ := readInbound_eq_some h
  obtain ⟨raw, hraw, hcanonical⟩ := Option.bind_eq_some_iff.mp hrvId
  rw [hop] at hop'
  rw [hraw] at hrvId'
  obtain ⟨opField, hopField, hreadOp⟩ := Json.exists_of_optionalField hop'
  obtain ⟨rvField, hrvField, hreadRv⟩ := Json.exists_of_optionalField hrvId'
  obtain ⟨envField, henvField, hweight⟩ := exists_of_rawText? (henv'.trans henv)
  have hopWeight : 8 ≤ Json.weight opField := Json.length_le_weight hreadOp
  have hrvWeight := Json.length_le_weight hreadRv
  obtain ⟨hlength, _⟩ := Rendezvous.canonicalRvId_size hcanonical
  subst hopField hrvField henvField
  cases hsize with
  | byName hsum =>
    have hopName : (Json.text "op").length = 2 := by decide
    have henvName : (Json.text "env").length = 3 := by decide
    have hrvName : (Json.text "rv_id").length = 5 := by decide
    simp only [inboundNames, List.zip_cons_cons, List.map_cons, List.sum_cons, Option.map_some,
      Option.getD_some, Json.memberWeight, hopName, henvName, hrvName] at hsum
    omega
  | byPosition entries hfs hsum =>
    rcases entries with _ | ⟨_, _ | ⟨destField, _ | ⟨_, _ | ⟨_, rest⟩⟩⟩⟩
    . simp [inboundNames] at hfs
    . simp [inboundNames] at hfs
    . simp [inboundNames] at hfs
    . simp [inboundNames] at hfs
    . simp only [List.map_cons, List.cons_append, List.cons.injEq, Option.some.injEq] at hfs
      obtain ⟨hopField, hdestField, henvField, hrvField, _⟩ := hfs
      subst hopField hdestField henvField hrvField
      -- in an array the destination is there, if only as `null`
      have hdestWeight : 4 ≤ Json.weight destField := by
        cases hdest : inbound.dest with
        | none =>
          rw [hdest] at hdest'
          exact Json.four_le_weight hdest'
        | some dest =>
          rw [hdest] at hdest'
          obtain ⟨field, hfield, hread⟩ := Json.exists_of_optionalField hdest'
          cases hfield
          exact Nat.le_trans (by decide) (weight_of_uuid? hread)
      simp only [List.map_cons, List.sum_cons] at hsum
      omega

end Wire

/-!
What a connection hands on.
-/

/--
The bytes of the frame that a message carries for its receiver.
-/
def BusMessage.frameBytes : BusMessage → Nat
  | forwardText _ text | control text => text.utf8ByteSize
  | forwardBinary _ frame => frame.length
  | _ => 0

/--
A frame that a device sends, and the message in which it is handed on for another device: the text
around the envelope of a wrapper, the `HR` frame with its source, or the text around the envelope of
an `rv_msg`.
-/
inductive HandsOn (serde : Serde) (source : Uuid) : ClientMessage → BusMessage → Prop where
  | forward {dest : Uuid} {m : ClientMessage} {f : Frame} (h : Forwarded serde source dest m f)
      : HandsOn serde source m (f.toBus source)
  | rvMsg {text env rvId : String} {inbound : Inbound} (hparse : serde.parseInbound text = some inbound)
      (hop : inbound.op = some "rv_msg") (hsize : text.utf8ByteSize ≤ maxFrameBytes)
      (hrv : inbound.rvId.bind Rendezvous.canonicalRvId = some rvId) (henv : inbound.env = some env)
      : HandsOn serde source (.text text) (.control (rvMsgMessage rvId env))

/--
The envelope of a text frame leaves room for what the relay puts around it. A binary frame does not
grow.
-/
def LeavesRoom (serde : Serde) : ClientMessage → Prop
  | .text text => ∀ inbound ∈ serde.parseInbound text, ∀ env ∈ inbound.env,
    env.utf8ByteSize + (if inbound.op = none then 54 else 55) ≤ maxFrameBytes
  | _ => True

theorem leavesRoom_text {serde : Serde} {text env : String} {inbound : Inbound}
    (hparse : serde.parseInbound text = some inbound) (henv : inbound.env = some env)
    : LeavesRoom serde (.text text)
      ↔ env.utf8ByteSize + (if inbound.op = none then 54 else 55) ≤ maxFrameBytes := by
  simp only [LeavesRoom, hparse, henv, Option.mem_def, Option.some.injEq, forall_eq']

theorem HandsOn.frameBytes_le_iff {serde : Serde} {source : Uuid} {m : ClientMessage}
    {msg : BusMessage} (h : HandsOn serde source m msg)
    : msg.frameBytes ≤ maxFrameBytes ↔ LeavesRoom serde m := by
  cases h with
  | forward h =>
    cases h with
    | @text text inbound env hparse hop _ henv _ _ _ =>
      show (forwardedText source env).utf8ByteSize ≤ maxFrameBytes ↔ _
      rw [leavesRoom_text hparse henv, utf8ByteSize_forwardedText, if_pos hop]
    | @binary frame hparse _ hsize =>
      show (rewriteHr frame source).length ≤ maxFrameBytes ↔ True
      rw [length_rewriteHr hparse]
      exact iff_true_intro hsize
  | @rvMsg text env rvId inbound hparse hop _ hrv henv =>
    obtain ⟨_, _, hcanonical⟩ := Option.bind_eq_some_iff.mp hrv
    show (rvMsgMessage rvId env).utf8ByteSize ≤ maxFrameBytes ↔ _
    rw [leavesRoom_text hparse henv, utf8ByteSize_rvMsgMessage hcanonical, if_neg (by simp [hop])]

/--
A text frame that stays 14 bytes below the limit leaves room, however it is written.
-/
theorem HandsOn.leavesRoom {serde : Serde} (hserde : serde.Derived) {source : Uuid}
    {m : ClientMessage} {msg : BusMessage} (h : HandsOn serde source m msg)
    (hshort : ∀ text, m = .text text → text.utf8ByteSize + 14 ≤ maxFrameBytes)
    : LeavesRoom serde m := by
  cases h with
  | forward h =>
    cases h with
    | @text text inbound env hparse hop hdest henv _ _ _ =>
      have htext := hshort text rfl
      have hsize := size_of_wrapper (hserde.inbound ▸ hparse) hop hdest henv
      rw [leavesRoom_text hparse henv, if_pos hop]
      omega
    | binary _ _ _ => trivial
  | @rvMsg text env rvId inbound hparse hop _ hrv henv =>
    have htext := hshort text rfl
    have hsize := size_of_rvMsg (hserde.inbound ▸ hparse) hop hrv henv
    rw [leavesRoom_text hparse henv, if_neg (by simp [hop])]
    omega

/--
What a connection tells other connections by itself.
-/
inductive Announces (me : Ident) : BusMessage → Prop where
  | replace : Announces me (.replace me.connId)
  | presence {pairId : Uuid} {b : Bool}
      : Announces me (.control (presenceMessage pairId me.deviceId b))
  | rvJoined {raw rvId : String} (h : Rendezvous.canonicalRvId raw = some rvId)
      : Announces me (.control (rvJoinedMessage rvId true))

theorem Announces.frameBytes_le {me : Ident} {msg : BusMessage} (h : Announces me msg)
    : msg.frameBytes ≤ maxFrameBytes := by
  cases h with
  | replace => exact Nat.zero_le _
  | presence => exact utf8ByteSize_presenceMessage _ _ _
  | rvJoined h => exact utf8ByteSize_rvJoinedMessage h

/--
A connection publishes what it announces by itself, or hands on a frame of its device.
-/
theorem announces_or_handsOn {env : Env} {w : World} (hok : w.UtteredOk env) {c : Uuid}
    {t : ConnTask} (hc : w.conns c = some t) {s : Conn} {dest : Uuid} {msg : BusMessage}
    {k : Option Nat → Prog Conn Op Op.Res Next} (hprog : t.prog = .wait s (.publish dest msg) k)
    : Announces t.me msg
      ∨ ∃ m, .client m ∈ t.inputs ∧ HandsOn env.serde t.me.deviceId m msg := by
  have htask := hok.sound.tasks c t hc
  -- a frame is not always published while it is handled, it may have been held back
  have hforward : msg.isForward = true
      → ∃ m, .client m ∈ t.inputs ∧ HandsOn env.serde t.me.deviceId m msg := by
    intro hforward
    cases htask.sends hprog with
    | replace | presence | rvJoined | rvMsg => cases hforward
    | forward _ hin =>
      obtain ⟨e, he, heq⟩ := List.mem_filterMap.mp hin
      cases e with
      | client m =>
        obtain ⟨f, hf, hmsg⟩ := forwardFor_eq_some heq
        subst hmsg
        exact ⟨m, he, .forward hf⟩
      | _ => cases heq
  have hspeaks := (hok.kept c t hc).speaks hprog
  have hinputs := fun e => htask.mem_inputs (e := e)
  generalize t.stage = stage at hspeaks hinputs
  cases hspeaks with
  | opening h =>
    cases h with
    | replace => exact .inl .replace
    | comeOnline => exact .inl .presence
  | text h =>
    cases h with
    | publish h =>
      cases h with
      | wrapper _ _ _ => exact .inr (hforward rfl)
      | rvMsg hparse hop hsize hrv henv _ =>
        exact .inr ⟨_, hinputs _ rfl, .rvMsg hparse hop hsize hrv henv⟩
      | rvJoined _ hrv =>
        obtain ⟨_, _, hcanonical⟩ := Option.bind_eq_some_iff.mp hrv
        exact .inl (.rvJoined hcanonical)
  | binary h =>
    cases h with
    | publish h => exact .inr (hforward h)
  | deadline h =>
    cases h with
    | publish h => exact .inr (hforward h)
  | delivery h => cases h
  | finishing h =>
    cases h with
    | goOffline => exact .inl .presence

/--
When what is handed on keeps the limit. Whatever a connection publishes is an announcement of its own
within the limit, or some frame of its device that it hands on. That is within the limit exactly if
the envelope of the frame leaves room for what is put around it, and a text frame that stays 14 bytes
below the limit always does.
-/
theorem frames_handed_on_keep_the_limit {env : Env} {db : Db} {ls : List Label} {w : World}
    (hrun : run env (.init db) ls = some w) {c : Uuid} {t : ConnTask} (hc : w.conns c = some t)
    {s : Conn} {dest : Uuid} {msg : BusMessage} {k : Option Nat → Prog Conn Op Op.Res Next}
    (hprog : t.prog = .wait s (.publish dest msg) k)
    : (Announces t.me msg ∧ msg.frameBytes ≤ maxFrameBytes
      ∨ ∃ m, .client m ∈ t.inputs ∧ HandsOn env.serde t.me.deviceId m msg)
    ∧ (∀ m, HandsOn env.serde t.me.deviceId m msg
      → (msg.frameBytes ≤ maxFrameBytes ↔ LeavesRoom env.serde m))
    ∧ (env.serde.Derived → ∀ m, HandsOn env.serde t.me.deviceId m msg
      → (∀ text, m = .text text → text.utf8ByteSize + 14 ≤ maxFrameBytes)
      → LeavesRoom env.serde m) := by
  refine ⟨?_, fun m h => h.frameBytes_le_iff, fun hserde m h => h.leavesRoom hserde⟩
  cases announces_or_handsOn (World.utteredOk_run hrun) hc hprog with
  | inl h => exact .inl ⟨h, h.frameBytes_le⟩
  | inr h => exact .inr h

namespace Sample

/--
The first device sends a wrapper for the second one, which its connection is about to publish.
-/
def sendsWrapper : List Label :=
  opensPaired "a" (uuid 1) (device 1) ++ opensPaired "b" (uuid 2) (device 2)
    ++ [Label.event (uuid 1) (.client (.text chatText))] ++ execs 2 (uuid 1)

/--
The connection is about to publish a text, and all frames of its device leave room.
-/
def forwardsWithRoom (t : ConnTask) : Bool :=
  (match t.prog with
  | .wait _ (.publish _ (.forwardText _ _)) _ => true
  | _ => false)
    && t.inputs.all fun
      | .client (.text text) => (Serde.derived.parseInbound text).all fun inbound =>
        inbound.env.all fun env =>
          decide (env.utf8ByteSize + (if inbound.op = none then 54 else 55) ≤ maxFrameBytes)
      | _ => true

theorem of_forwardsWithRoom {t : ConnTask} (h : forwardsWithRoom t = true)
    : (∃ s dest source text k, t.prog = .wait s (.publish dest (.forwardText source text)) k)
      ∧ ∀ m, .client m ∈ t.inputs → LeavesRoom .derived m := by
  unfold forwardsWithRoom at h
  rw [Bool.and_eq_true] at h
  refine ⟨?_, fun m hmem => ?_⟩
  . have hprog := h.1
    split at hprog
    next s dest source text k heq => exact ⟨s, dest, source, text, k, heq⟩
    . cases hprog
  . have hroom := List.all_eq_true.mp h.2 _ hmem
    cases m with
    | text text =>
      simpa only [LeavesRoom, Option.mem_def, Option.all_eq_true, decide_eq_true_eq] using hroom
    | _ => trivial

end Sample

theorem wrapper_handed_on_keeps_the_limit
    : ∃ w t s dest source text k,
      run Sample.chat (World.init Sample.pairedDb) Sample.sendsWrapper = some w
      ∧ w.conns (Sample.uuid 1) = some t
      ∧ t.prog = .wait s (.publish dest (.forwardText source text)) k
      ∧ ∃ m, .client m ∈ t.inputs ∧ HandsOn .derived t.me.deviceId m (.forwardText source text)
        ∧ LeavesRoom .derived m ∧ text.utf8ByteSize ≤ maxFrameBytes := by
  have hrun : (run Sample.chat (World.init Sample.pairedDb) Sample.sendsWrapper).any (fun w =>
      (w.conns (Sample.uuid 1)).any Sample.forwardsWithRoom) = true := by
    decide +kernel
  simp only [Option.any_eq_true] at hrun
  obtain ⟨w, hw, t, ht, hforwards⟩ := hrun
  obtain ⟨⟨s, dest, source, text, k, hprog⟩, hroom⟩ := Sample.of_forwardsWithRoom hforwards
  obtain ⟨hfrom, hkeeps, _⟩ := frames_handed_on_keep_the_limit hw ht hprog
  refine ⟨w, t, s, dest, source, text, k, hw, ht, hprog, ?_⟩
  rcases hfrom with ⟨hannounces, _⟩ | ⟨m, hin, hhands⟩
  . cases hannounces
  . exact ⟨m, hin, hhands, hroom m hin, (hkeeps m hhands).mpr (hroom m hin)⟩

namespace Sample

/--
An empty object with `n` blanks in it.
-/
def blanks (n : Nat) : List Char :=
  '\x7b' :: (List.replicate n ' ' ++ ['\x7d'])

theorem reads_blanks (n : Nat) : Json.Reads (String.ofList (blanks n)) (.object []) := by
  unfold Json.Reads
  rw [String.toList_ofList, blanks, Json.read_cons]
  change Json.read ⟨.name true, [.object []]⟩ _ = _
  rw [Json.read_append, Json.read_spaces]
  rfl

theorem trimWs_blanks (n : Nat) : Json.trimWs (blanks n) = blanks n := by
  unfold Json.trimWs blanks
  rw [List.dropWhile_cons_of_neg (by decide), List.reverse_cons, List.reverse_append,
    List.reverse_singleton, List.singleton_append, List.cons_append,
    List.dropWhile_cons_of_neg (by decide)]
  simp

theorem utf8ByteSize_blanks (n : Nat) : (String.ofList (blanks n)).utf8ByteSize = n + 2 := by
  rw [Utf8.utf8ByteSize_ofList, blanks]
  . simp
  . unfold blanks
    simp only [List.forall_mem_cons, List.forall_mem_append, List.mem_replicate, List.not_mem_nil]
    refine ⟨by decide, ?_, by decide, nofun⟩
    rintro c ⟨_, rfl⟩
    decide

theorem isObject_blanks (n : Nat) : isObject (String.ofList (blanks n)) = true := by
  unfold isObject blanks
  rw [String.toList_ofList, List.dropWhile_cons_of_neg (by decide)]
  rfl

theorem utf8ByteSize_wrapper (dest : Uuid) (env : String)
    : (wrapper dest env).utf8ByteSize = env.utf8ByteSize + 52 := by
  have hopen : "\x7b".utf8ByteSize = 1 := rfl
  have hto : (Json.quote "to").utf8ByteSize = 4 := by decide
  have henv : (Json.quote "env").utf8ByteSize = 5 := by decide
  have hquote : "\"".utf8ByteSize = 1 := rfl
  have hcolon : ":".utf8ByteSize = 1 := rfl
  have hcomma : ",".utf8ByteSize = 1 := rfl
  have hclose : "\x7d".utf8ByteSize = 1 := rfl
  simp only [wrapper, Json.object, List.map_cons, List.map_nil, String.intercalate_cons_cons,
    String.intercalate_singleton, dest.quote_hyphenated, String.utf8ByteSize_append,
    dest.utf8ByteSize_hyphenated, hopen, hto, henv, hquote, hcolon, hcomma, hclose]
  omega

/--
The default bandwidth, which lets a whole frame pass at once.
-/
def settings : Settings :=
  { idleTimeout := 45, pairBandwidthBytesPerSec := 2 * 1024 * 1024, maxQueuedBytes := 1000 }

/--
A connection whose device has one peer.
-/
def peering : Conn :=
  { Conn.new with peers := [uuid 0x88] }

end Sample

/--
A frame for a peer is published at once when the bucket of the pair lets it pass.
-/
theorem Conn.forward_at_once {settings : Settings} {dest : Uuid} {bytes : Nat} {now : Rat}
    (s : Conn) (bus : BusMessage) (hpeer : dest ∈ s.peers) (hbucket : s.buckets dest = none)
    (hwait : ((TokenBucket.new settings.pairBandwidthBytesPerSec now).take bytes now).2 = 0)
    : ∃ k : Rat → Prog Conn Op Op.Res (Option End),
      (forward settings dest bus bytes).start s = .wait s .now k
      ∧ ∃ s', ∃ k' : Option Nat → Prog Conn Op Op.Res (Option End),
        k now = .wait s' (.publish dest bus) k' := by
  have hisPeer : (isPeer dest).start s = .done s true := by
    show (if dest ∈ s.peers then pure true else _ : ConnCode Bool).start s = _
    rw [if_pos hpeer]
    rfl
  unfold forward
  rw [Code.start_bind, hisPeer]
  refine ⟨_, rfl, ?_⟩
  simp [hbucket, hwait, publishForward, ask]

/--
A wrapper of exactly the limit is accepted, and two bytes more are published.
-/
theorem full_wrapper_outgrows_the_limit
    : ∃ text s s' dest msg, ∃ k : Rat → Prog Conn Op Op.Res (Option End),
      ∃ k' : Option Nat → Prog Conn Op Op.Res (Option End),
      text.utf8ByteSize ≤ maxFrameBytes
      ∧ (Conn.handleText Sample.settings .derived ⟨Sample.device 1, Sample.uuid 1, "a"⟩ text).start s
        = .wait s .now k
      ∧ k 0 = .wait s' (.publish dest msg) k'
      ∧ maxFrameBytes < msg.frameBytes := by
  have ⟨n, hn⟩ : ∃ n, n + 54 = maxFrameBytes := ⟨_, Nat.sub_add_cancel (by decide)⟩
  have hblanks := Sample.utf8ByteSize_blanks n
  have hparse : Serde.derived.parseInbound
      (Sample.wrapper (Sample.uuid 0x88) (String.ofList (Sample.blanks n))) = _ :=
    readInbound_object (Sample.reads_blanks n)
      (by rw [String.toList_ofList, Sample.trimWs_blanks])
  have hobject := Sample.isObject_blanks n
  -- nothing below depends on how the envelope looks
  generalize String.ofList (Sample.blanks n) = env at hblanks hparse hobject
  have hsize : (Sample.wrapper (Sample.uuid 0x88) env).utf8ByteSize = maxFrameBytes := by
    rw [Sample.utf8ByteSize_wrapper]
    omega
  have hdest : isDeviceId (Sample.uuid 0x88) = true := by decide
  have hwait : ((TokenBucket.new Sample.settings.pairBandwidthBytesPerSec 0).take
      maxFrameBytes 0).2 = 0 := by
    decide +kernel
  have hcode : Conn.handleText Sample.settings .derived ⟨Sample.device 1, Sample.uuid 1, "a"⟩
      (Sample.wrapper (Sample.uuid 0x88) env)
      = Conn.forward Sample.settings (Sample.uuid 0x88)
          (.forwardText (Sample.device 1) (forwardedText (Sample.device 1) env)) maxFrameBytes := by
    unfold Conn.handleText
    rw [hparse]
    dsimp only
    rw [if_pos ⟨hdest, hobject⟩, if_neg (by omega), hsize]
  have ⟨k, hstart, s', k', hpublish⟩ := Conn.forward_at_once Sample.peering
    (.forwardText (Sample.device 1) (forwardedText (Sample.device 1) env)) List.mem_cons_self rfl
    hwait
  refine ⟨_, Sample.peering, s', Sample.uuid 0x88, _, k, k', Nat.le_of_eq hsize, ?_, hpublish, ?_⟩
  . rw [hcode]
    exact hstart
  . show maxFrameBytes < (forwardedText _ _).utf8ByteSize
    rw [utf8ByteSize_forwardedText]
    omega

end HandLiveRelay
