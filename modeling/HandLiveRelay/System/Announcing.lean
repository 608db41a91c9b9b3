import HandLiveRelay.System.SilentRemoval
import HandLiveRelay.System.SlowReceiver

/-!
This module contains what a connection does about presence when nothing fails. It claims presence
before it reads that of its peers and before it tells them that its device is there, and it drops
presence before it tells them that its device is gone. What it writes last about a peer is what it
was told last.
-/

namespace HandLiveRelay

open Fiber Wire

/--
What a text says about the online state of `peer` in the pair `pairId`.
-/
def presenceOf (pairId peer : Uuid) (text : String) : Option Bool :=
  if text = presenceMessage pairId peer true then some true
  else if text = presenceMessage pairId peer false then some false
  else none

theorem presenceOf_eq_some {pairId peer : Uuid} {text : String} {b : Bool}
    : presenceOf pairId peer text = some b ↔ text = presenceMessage pairId peer b := by
  unfold presenceOf
  constructor
  . intro h
    split at h
    . cases h
      assumption
    . split at h
      . cases h
        assumption
      . cases h
  . intro h
    subst h
    cases b with
    | true => exact if_pos rfl
    | false =>
      rw [if_neg, if_pos rfl]
      intro heq
      exact absurd (presenceMessage_inj heq).2.2 (by simp)

theorem presenceOf_presenceMessage (pairId peer : Uuid) (b : Bool)
    : presenceOf pairId peer (presenceMessage pairId peer b) = some b :=
  presenceOf_eq_some.mpr rfl

theorem presenceOf_of_startsWith {pairId peer : Uuid} {text : String}
    (h : Text.startsWith "\x7b\"on" text = false) : presenceOf pairId peer text = none := by
  rw [Option.eq_none_iff_forall_ne_some]
  intro b hb
  rw [presenceOf_eq_some.mp hb, startsWith_presenceMessage] at h
  cases h

theorem presenceOf_pairRevokedMessage {pairId peer : Uuid} (st : RevokeStatement)
    : presenceOf pairId peer (pairRevokedMessage st) = none := by
  apply presenceOf_of_startsWith
  unfold pairRevokedMessage
  simp only [String.append_assoc]
  rw [Text.startsWith_append _ (by decide)]
  decide

theorem presenceOf_errorMessage {pairId peer : Uuid} (err : RelayError) (dest : Option Uuid)
    : presenceOf pairId peer (errorMessage err dest) = none := by
  apply presenceOf_of_startsWith
  unfold errorMessage
  simp only [String.append_assoc]
  rw [Text.startsWith_append _ (by decide)]
  decide

theorem presenceOf_rvJoinedMessage {pairId peer : Uuid} (rvId : String) (b : Bool)
    : presenceOf pairId peer (rvJoinedMessage rvId b) = none := by
  apply presenceOf_of_startsWith
  unfold rvJoinedMessage
  simp only [String.append_assoc]
  rw [Text.startsWith_append _ (by decide)]
  decide

def writtenPresence (pairId peer : Uuid) : Performed Conn Op Op.Res → Option Bool
  | ⟨_, .sendText text, .ok⟩ => presenceOf pairId peer text
  | _ => none

def readPresence (peer : Uuid) : Performed Conn Op Op.Res → Option Bool
  | ⟨_, .online devices, some online⟩ => (devices.zip online).lookup peer
  | _ => none

/--
What a connection has written about `peer` last.
-/
def lastWritten (pairId peer : Uuid) (t : ConnTrace) : Option Bool :=
  t.findSome? (writtenPresence pairId peer)

/--
What a connection has read about `peer` last.
-/
def lastRead (peer : Uuid) (t : ConnTrace) : Option Bool :=
  t.findSome? (readPresence peer)

theorem Extends.findSome? {P : Op → Prop} {t t' : ConnTrace} (h : Extends P t t') {α : Type}
    {f : Performed Conn Op Op.Res → Option α} (hf : ∀ e, P e.op → f e = none)
    : t'.findSome? f = t.findSome? f := by
  have ⟨u, heq, hu⟩ := h
  rw [heq, List.findSome?_append, List.findSome?_eq_none_iff.mpr fun e he => hf e (hu e he),
    Option.none_or]

theorem Extends.suffix {P : Op → Prop} {t t' : ConnTrace} (h : Extends P t t') : t <:+ t' := by
  have ⟨u, heq, _⟩ := h
  exact ⟨u, heq.symm⟩

theorem findSome?_of_all {α β : Type} {f : α → Option β} {l : List α} {b : β}
    (hall : ∀ a ∈ l, ∀ b', f a = some b' → b' = b) (hmem : ∃ a ∈ l, (f a).isSome)
    : l.findSome? f = some b := by
  have hsome : (l.findSome? f).isSome := by
    rw [List.findSome?_isSome_iff]
    exact hmem
  have ⟨b', hb'⟩ := Option.isSome_iff_exists.mp hsome
  have ⟨a, ha, hfa⟩ := List.exists_of_findSome?_eq_some hb'
  rw [hb', hall a ha b' hfa]

theorem lookup_zip_map {α β : Type} [BEq α] [LawfulBEq α] (f : α → β) {l : List α} {a : α}
    (h : a ∈ l) : (l.zip (l.map f)).lookup a = some (f a) := by
  induction l with
  | nil => cases h
  | cons b l ih =>
    by_cases hab : a = b
    . subst hab
      simp
    . rw [List.map_cons, List.zip_cons_cons, List.lookup_cons, beq_eq_false_iff_ne.mpr hab]
      exact ih (List.mem_of_ne_of_mem hab h)

theorem eq_of_lookup_zip_map {α β : Type} [BEq α] [LawfulBEq α] {f : α → β} {l : List α} {a : α}
    {b : β} (h : (l.zip (l.map f)).lookup a = some b) : b = f a := by
  by_cases ha : a ∈ l
  . rw [lookup_zip_map f ha] at h
    exact (Option.some.inj h).symm
  . have hnone : (l.zip (l.map f)).lookup a = none := by
      rw [List.lookup_eq_none_iff]
      intro p hp
      have hmem := (List.of_mem_zip hp).1
      rw [bne_iff_ne]
      rintro rfl
      exact ha hmem
    rw [hnone] at h
    cases h

/--
The answer to an operation of a connection when nothing fails and its device has the pair `pairId`
with `peer`.
-/
def Fine (pairId peer : Uuid) : Performed Conn Op Op.Res → Prop
  | ⟨_, .subscribed, r⟩ => r = true
  | ⟨_, .claim, r⟩ => r = some ()
  | ⟨_, .publish _ _, r⟩ => r ≠ none
  | ⟨_, .activePeers, r⟩ => ∃ pairs, r = some pairs ∧ (pairId, peer) ∈ pairs
  | ⟨_, .online devices, r⟩ => ∃ f, r = some (devices.map f)
  | ⟨_, .unregister, r⟩ => r = true
  | ⟨_, .release, r⟩ => r = some true
  | _ => True

/--
The operation is about presence: it reads the presence of others or publishes one's own.
-/
def Op.ofPeers : Op → Bool
  | .online _ | .publish _ (.control _) => true
  | _ => false

/--
The connection of the device `d` has told `peer` whether it is online.
-/
def Announced (pairId peer d : Uuid) (online : Bool) (t : ConnTrace) : Prop :=
  ∃ r, Did t (.publish peer (.control (presenceMessage pairId d online))) r

theorem Announced.of_suffix {pairId peer d : Uuid} {online : Bool} {t t' : ConnTrace}
    (h : Announced pairId peer d online t) (ht : t <:+ t') : Announced pairId peer d online t' := by
  have ⟨r, hr⟩ := h
  exact ⟨r, hr.of_suffix ht⟩

namespace Conn

variable {A : Performed Conn Op Op.Res → Prop} {s : Conn} {t : ConnTrace}

theorem yields_ask {α : Type} {o : Op} {f : o.Res → ConnCode α} {Q : α → Conn → ConnTrace → Prop}
    (hf : ∀ r, A ⟨s, o, r⟩ → ((f r).start s).Yields A Q (⟨s, o, r⟩ :: t))
    : ((ask o >>= f).start s).Yields A Q t := hf

theorem yields_sendTexts (texts : List String)
    : ((sendTexts texts).start s).Yields A
        (fun e s' t' => s' = s ∧ Extends Op.IsWrite t t'
          ∧ (e = none → t' = (texts.map fun text => ⟨s, .sendText text, .ok⟩).reverse ++ t)) t := by
  induction texts generalizing t with
  | nil => exact ⟨rfl, Extends.rfl, fun _ => rfl⟩
  | cons text texts ih =>
    intro r _
    have hext : Extends Op.IsWrite t (⟨s, .sendText text, r⟩ :: t) := Extends.rfl.cons ⟨_, rfl⟩
    cases r with
    | ok =>
      refine Prog.Yields.mono ih ?_
      rintro e s' t' ⟨hs, ht, hall⟩
      refine ⟨hs, hext.trans ht, fun he => ?_⟩
      rw [hall he, List.map_cons, List.reverse_cons, List.append_assoc]
      rfl
    | closed => exact ⟨rfl, hext, by simp⟩
    | timeout => exact ⟨rfl, hext, by simp⟩

theorem yields_announceTo (d : Uuid) (b : Bool) (pairs : List (Uuid × Uuid))
    : ((announceTo d b pairs).start s).Yields A
        (fun _ s' t' => s' = s ∧ Extends Op.IsPublish t t'
          ∧ ∀ q ∈ pairs, Announced q.1 q.2 d b t') t := by
  induction pairs generalizing t with
  | nil => exact ⟨rfl, Extends.rfl, by simp⟩
  | cons q pairs ih =>
    intro r _
    refine Prog.Yields.mono ih ?_
    rintro _ s' t' ⟨hs, hext, hall⟩
    refine ⟨hs, (Extends.rfl.cons ⟨_, _, rfl⟩).trans hext, ?_⟩
    intro q' hq'
    cases List.mem_cons.mp hq' with
    | inl heq =>
      subst heq
      exact ⟨r, hext.did (did_cons_self t s _ r)⟩
    | inr hmem => exact hall q' hmem

variable {me : Ident} {pairId peer : Uuid}

/--
What an opening connection leaves behind: it has claimed presence and read the pairs, and if it is
served it has told `peer` that it is online, and the last text about `peer` says what was read.
-/
structure Introduced (me : Ident) (pairId peer : Uuid) (r : Option UInt16) (t : ConnTrace)
    : Prop where
  claimed : Did t .claim (some ())
  read : ∃ pairs, Did t .activePeers (some pairs)
  announced : r = none → Announced pairId peer me.deviceId true t
  written : r = none → ∃ b, lastRead peer t = some b ∧ lastWritten pairId peer t = some b

theorem yields_sendRevoked (pairId peer : Uuid)
    : ((sendRevoked me).start s).Yields A
        (fun e _ t' => t <:+ t'
          ∧ (e = none → (∀ q ∈ s.pairs, Announced q.1 q.2 me.deviceId true t')
            ∧ lastRead peer t' = lastRead peer t
            ∧ lastWritten pairId peer t' = lastWritten pairId peer t)) t := by
  apply yields_ask
  intro revoked _
  apply yields_ask
  intro notices _
  refine Prog.Yields.bind (yields_sendTexts _) ?_
  rintro failed s1 t1 ⟨rfl, ht1, hall⟩
  have ht : t <:+ t1 := ((List.suffix_cons _ _).trans (List.suffix_cons _ _)).trans ht1.suffix
  cases failed with
  | some e => exact ⟨ht, by simp⟩
  | none =>
    refine Prog.Yields.bind (yields_announceTo me.deviceId true s1.pairs) ?_
    rintro _ s2 t2 ⟨rfl, hext, htold⟩
    have htexts : Extends (fun o => ∃ st, o = .sendText (pairRevokedMessage st)) _ t1 :=
      ⟨_, hall rfl, by
        intro e he
        simp only [List.map_map, List.mem_reverse, List.mem_map, Function.comp_apply] at he
        have ⟨st, _, heq⟩ := he
        exact ⟨st, heq ▸ rfl⟩⟩
    refine ⟨ht.trans hext.suffix, fun _ => ⟨htold, ?_, ?_⟩⟩
    . unfold lastRead
      rw [hext.findSome?, htexts.findSome?]
      . rfl
      . rintro ⟨_, _, _⟩ ⟨st, rfl⟩
        rfl
      . rintro ⟨_, _, _⟩ ⟨dest, msg, rfl⟩
        rfl
    . unfold lastWritten
      rw [hext.findSome?, htexts.findSome?]
      . rfl
      . rintro ⟨_, _, r⟩ ⟨st, rfl⟩
        cases r with
        | ok => exact presenceOf_pairRevokedMessage st
        | closed => rfl
        | timeout => rfl
      . rintro ⟨_, _, _⟩ ⟨dest, msg, rfl⟩
        rfl

/--
The texts about the peers say what was read.
-/
theorem lastWritten_presenceTexts {pairs : List (Uuid × Uuid)} (f : Uuid → Bool)
    (h : (pairId, peer) ∈ pairs)
    : lastWritten pairId peer
        (((presenceTexts pairs ((pairs.map (·.2)).map f)).map fun text =>
          ⟨s, .sendText text, .ok⟩).reverse ++ t) = some (f peer) := by
  have htexts : presenceTexts pairs ((pairs.map (·.2)).map f)
      = pairs.map fun q => presenceMessage q.1 q.2 (f q.2) := by
    unfold presenceTexts
    rw [List.map_map, List.zipWith_map_right, List.zipWith_self]
    rfl
  unfold lastWritten
  rw [List.findSome?_append, findSome?_of_all, Option.some_or]
  . intro e he b hb
    rw [htexts] at he
    simp only [List.map_map, List.mem_reverse, List.mem_map, Function.comp_apply] at he
    have ⟨q, _, heq⟩ := he
    subst heq
    have ⟨_, hpeer, hb⟩ := presenceMessage_inj (presenceOf_eq_some.mp hb)
    rw [← hb, hpeer]
  . refine ⟨⟨s, .sendText (presenceMessage pairId peer (f peer)), .ok⟩, ?_, ?_⟩
    . rw [htexts]
      simp only [List.map_map, List.mem_reverse, List.mem_map, Function.comp_apply]
      exact ⟨(pairId, peer), h, rfl⟩
    . exact Option.isSome_of_eq_some (presenceOf_presenceMessage pairId peer (f peer))

theorem yields_reloadPeers
    : (reloadPeers.start s).Yields (Fine pairId peer)
        (fun reloaded s' t' => ∃ pairs, reloaded = true ∧ (pairId, peer) ∈ pairs
          ∧ s' = s.withPairs pairs ∧ t' = ⟨s, .activePeers, some pairs⟩ :: t) t := by
  apply yields_ask
  rintro _ ⟨pairs, rfl, hmem⟩
  exact ⟨pairs, rfl, hmem, rfl, rfl⟩

theorem yields_peerPresence {pairs : List (Uuid × Uuid)} (h : (pairId, peer) ∈ pairs)
    : ((peerPresence pairs).start s).Yields (Fine pairId peer)
        (fun online s' t' => ∃ f, online = (pairs.map (·.2)).map f ∧ s' = s
          ∧ t' = ⟨s, .online (pairs.map (·.2)), some online⟩ :: t) t := by
  have hpeers : pairs.map (·.2) ≠ [] := by
    intro hnil
    simp [List.map_eq_nil_iff.mp hnil] at h
  unfold peerPresence
  dsimp only
  rw [if_neg hpeers]
  apply yields_ask
  rintro _ ⟨f, rfl⟩
  exact ⟨f, rfl, rfl, rfl⟩

theorem yields_sendOpening (hclaim : Did t .claim (some ()))
    : ((sendOpening me).start s).Yields (Fine pairId peer)
        (fun r _ t' => Introduced me pairId peer r t') t := by
  refine Prog.Yields.bind yields_reloadPeers ?_
  rintro _ s1 t1 ⟨pairs, rfl, hmem, rfl, rfl⟩
  have hclaim := hclaim.cons ⟨s, .activePeers, some pairs⟩
  have hread := did_cons_self t s .activePeers (some pairs)
  apply Prog.Yields.bind (p := (peerPresence pairs).start (s.withPairs pairs))
    (yields_peerPresence hmem)
  rintro _ s2 t2 ⟨f, rfl, rfl, rfl⟩
  refine Prog.Yields.bind (yields_sendTexts _) ?_
  rintro failed s3 t3 ⟨rfl, ht3, hall⟩
  have hlast : lastRead peer t3 = some (f peer) := by
    unfold lastRead
    rw [ht3.findSome?]
    . have hlookup := lookup_zip_map f (List.mem_map_of_mem (f := (·.2)) hmem)
      simp only [List.findSome?_cons, readPresence, hlookup]
    . rintro ⟨_, _, _⟩ ⟨text, rfl⟩
      rfl
  have ht3 := (List.suffix_cons _ _).trans ht3.suffix
  cases failed with
  | some e => exact ⟨hclaim.of_suffix ht3, ⟨pairs, hread.of_suffix ht3⟩, by simp, by simp⟩
  | none =>
    refine Prog.Yields.mono (yields_sendRevoked pairId peer) ?_
    rintro r _ t4 ⟨ht4, hnone⟩
    have ht4' := ht3.trans ht4
    refine ⟨hclaim.of_suffix ht4', ⟨pairs, hread.of_suffix ht4'⟩, ?_, ?_⟩
    . intro hr
      exact (hnone hr).1 (pairId, peer) hmem
    . intro hr
      have ⟨_, hsame, hsame'⟩ := hnone hr
      refine ⟨f peer, ?_, ?_⟩
      . rw [hsame, hlast]
      . rw [hsame', hall rfl]
        exact lastWritten_presenceTexts f hmem

theorem yields_openConn
    : ((openConn me).start s).Yields (Fine pairId peer)
        (fun r _ t' => Introduced me pairId peer r t') t := by
  apply yields_ask
  intro r0 _
  apply yields_ask
  rintro _ ⟨rfl⟩
  apply yields_ask
  rintro _ ⟨rfl⟩
  have hclaim := did_cons_self (⟨s, .subscribed, true⟩ :: ⟨s, .subscribe, r0⟩ :: t) s .claim
    (some ())
  apply yields_ask
  intro r hr
  cases r with
  | none => exact absurd rfl hr
  | some n => exact yields_sendOpening (hclaim.cons _)

/--
Presence is read, and the peers are told, only after the claim.
-/
theorem sat_start_claimed (me : Ident) (previous : Option Uuid)
    : ((start me previous).start .new).Sat
        (fun _ t o => o.ofPeers → Did t .claim (some ())) (fun _ _ _ => True) [] := by
  have hopen : ∀ t, ((start me none).start .new).Sat
      (fun _ t o => o.ofPeers → Did t .claim (some ())) (fun _ _ _ => True) t := by
    intro t
    refine ⟨nofun, fun r0 => ⟨nofun, fun subscribed => ?_⟩⟩
    cases subscribed with
    | false => trivial
    | true =>
      refine ⟨nofun, fun claimed => ?_⟩
      cases claimed with
      | none => trivial
      | some u =>
        have hclaim := did_cons_self (⟨.new, .subscribed, true⟩ :: ⟨.new, .subscribe, r0⟩ :: t) .new
          .claim (some ())
        refine (Prog.sat_suffix _ List.suffix_rfl).imp ?_ (by simp)
        intro s t' o ht' _
        exact hclaim.of_suffix ht'
  cases previous with
  | none => exact hopen []
  | some c => exact ⟨nofun, fun _ => hopen _⟩

/--
What the code up to the event loop leaves behind.
-/
theorem yields_start (me : Ident) (pairId peer : Uuid) (previous : Option Uuid)
    : ((start me previous).start s).Yields (Fine pairId peer)
        (fun n _ t' => ∃ r, Introduced me pairId peer r t' ∧ (n = .serve → r = none)) t := by
  have hopen : ∀ t, ((start me none).start s).Yields (Fine pairId peer)
      (fun n _ t' => ∃ r, Introduced me pairId peer r t' ∧ (n = .serve → r = none)) t := by
    intro t
    apply Prog.Yields.bind (p := (openConn me).start s) yields_openConn
    intro failed s1 t1 h
    cases failed with
    | some code => exact ⟨some code, h, by simp⟩
    | none =>
      apply yields_ask
      intro now _
      have ⟨pairs, hread⟩ := h.read
      refine ⟨none, ⟨h.claimed.cons _, ⟨pairs, hread.cons _⟩, ?_, ?_⟩, by simp⟩
      . intro hr
        exact (h.announced hr).of_suffix (List.suffix_cons _ _)
      . exact h.written
  cases previous with
  | none => exact hopen t
  | some c =>
    apply yields_ask
    intro r _
    exact hopen _

/--
What the cleanup leaves behind: it has left the registry, dropped presence and told every peer.
-/
theorem yields_finish (me : Ident) (pairId peer : Uuid) (e : End)
    : ((finish me e).start s).Yields (Fine pairId peer)
        (fun n s' t' => n = .stop ∧ (∃ r, Did t' .unregister r) ∧ (∃ r, Did t' .release r)
          ∧ ∀ q ∈ s'.pairs, Announced q.1 q.2 me.deviceId false t') t := by
  apply yields_ask
  rintro _ ⟨rfl⟩
  have hun := did_cons_self t s .unregister true
  apply yields_ask
  intro r0 _
  apply yields_ask
  rintro _ ⟨rfl⟩
  have hrel := did_cons_self (⟨s, .unsubscribe, r0⟩ :: ⟨s, .unregister, true⟩ :: t) s .release
    (some true)
  have hun := (hun.cons ⟨s, .unsubscribe, r0⟩).cons ⟨s, .release, some true⟩
  apply Prog.Yields.bind (p := (announceTo me.deviceId false s.pairs).start s)
    (yields_announceTo me.deviceId false s.pairs)
  rintro _ s1 t1 ⟨rfl, hext, htold⟩
  have hleft : ∀ t', t1 <:+ t' → (∃ r, Did t' .unregister r) ∧ (∃ r, Did t' .release r)
      ∧ ∀ q ∈ s1.pairs, Announced q.1 q.2 me.deviceId false t' := by
    intro t' ht'
    exact ⟨⟨_, (hext.did hun).of_suffix ht'⟩, ⟨_, (hext.did hrel).of_suffix ht'⟩,
      fun q hq => (htold q hq).of_suffix ht'⟩
  cases e with
  | gone => exact ⟨rfl, hleft t1 List.suffix_rfl⟩
  | clientClosed =>
    intro r _
    exact ⟨rfl, hleft _ (List.suffix_cons _ _)⟩
  | close code =>
    intro r _
    exact ⟨rfl, hleft _ (List.suffix_cons _ _)⟩

end Conn

/--
The text that an event has a connection write.
-/
def Event.text? : Event → Option String
  | .delivery (.bus (.control text)) => some text
  | .delivery (.bus (.forwardText _ text)) => some text
  | _ => none

theorem EventOp.text?_eq_some {e : Event} {o : Op} {pairId peer : Uuid} {b : Bool}
    (h : EventOp e o) (he : e ≠ .delivery (.bus .pairsChanged))
    (ho : o = .sendText (presenceMessage pairId peer b))
    : e.text? = some (presenceMessage pairId peer b) := by
  have hno : ∀ {text}, presenceOf pairId peer text = none → o ≠ .sendText text := by
    intro text hnone heq
    rw [ho] at heq
    cases heq
    rw [presenceOf_presenceMessage] at hnone
    cases hnone
  cases h with
  | frame h =>
    cases h with
    | error => exact absurd rfl (hno (presenceOf_errorMessage _ _))
    | _ => cases ho
  | rv h =>
    cases h with
    | error => exact absurd rfl (hno (presenceOf_errorMessage _ _))
    | joinedText => exact absurd rfl (hno (presenceOf_rvJoinedMessage _ _))
    | _ => cases ho
  | delivery h =>
    cases h with
    | presence => exact absurd rfl he
    | pairRevoked => exact absurd rfl (hno (presenceOf_pairRevokedMessage _))
    | forwardText =>
      cases ho
      rfl
    | control =>
      cases ho
      rfl
    | _ => cases ho
  | _ => cases ho

namespace Conn

/--
A pair that the connection knows already is not new to it.
-/
theorem only_pairsChanged {s : Conn} {pairId peer : Uuid} (h : (pairId, peer) ∈ s.pairs)
    : (pairsChanged.start s).Only fun o => ∀ b, o ≠ .sendText (presenceMessage pairId peer b) := by
  refine ⟨by simp, fun r => ?_⟩
  cases r with
  | none => trivial
  | some pairs =>
    change ((peerPresence _ >>= fun online => sendTexts (presenceTexts _ online)).start
      (s.withPairs pairs)).Only _
    refine Prog.Only.bind (asks_peerPresence (by simp) _) fun online => asks_sendTexts ?_
    intro text htext b heq
    have ⟨pairId', peer', b', htext, hq⟩ := mem_presenceTexts htext
    have hpair := (presenceMessage_inj (htext.symm.trans (Op.sendText.inj heq))).1
    have hnew := (List.mem_filter.mp hq).2
    rw [hpair] at hnew
    exact of_decide_eq_true hnew (List.mem_map_of_mem (f := (·.1)) h)

theorem only_serve_presence (settings : Settings) (serde : Serde) (me : Ident) (e : Event)
    {s : Conn} {pairId peer : Uuid} (hpending : ∀ p, s.pending = some p → p.bus.isForward)
    (h : (pairId, peer) ∈ s.pairs)
    : ((serve settings serde me e).start s).Only fun o =>
        ∀ b, o = .sendText (presenceMessage pairId peer b)
          → e.text? = some (presenceMessage pairId peer b) := by
  by_cases he : e = .delivery (.bus .pairsChanged)
  . subst he
    refine ⟨by simp, fun _ => ?_⟩
    refine Prog.Only.bind (Prog.Only.mono (only_pairsChanged h) ?_) fun _ => Code.asks_pure _
    intro o ho b heq
    exact absurd heq (ho b)
  . refine Prog.Only.mono (only_serve hpending) ?_
    intro o ho b heq
    exact ho.text?_eq_some he heq

theorem sat_serve_control {settings : Settings} {serde : Serde} {me : Ident} (text : String)
    (s : Conn) (t : ConnTrace) (pairId peer : Uuid)
    : ((serve settings serde me (.delivery (.bus (.control text)))).start s).Sat
        (fun _ _ _ => True)
        (fun n _ t' => n = .serve → ∀ b, presenceOf pairId peer text = some b
          → lastWritten pairId peer t' = some b) t := by
  refine ⟨trivial, fun _ => ⟨trivial, fun r => ?_⟩⟩
  cases r with
  | ok =>
    intro _ b hb
    have hwritten : writtenPresence pairId peer ⟨s, .sendText text, .ok⟩ = some b := hb
    unfold lastWritten
    rw [List.findSome?_cons, hwritten]
  | closed => exact nofun
  | timeout => exact nofun

end Conn

def BusMessage.presence? (pairId peer : Uuid) : BusMessage → Option Bool
  | control text => presenceOf pairId peer text
  | _ => none

def Event.presence? (pairId peer : Uuid) (e : Event) : Option Bool :=
  e.bus?.bind (·.presence? pairId peer)

/--
What a connection knows about `peer`: what it has read while it opens, then what it was told last.
-/
def Stage.known (pairId peer : Uuid) (t : ConnTrace) : Stage → Option Bool
  | .opening => lastRead peer t
  | .handling e => (e.presence? pairId peer).or (lastWritten pairId peer t)
  | .finishing _ => none

theorem isSome_lastWritten_of_suffix {pairId peer : Uuid} {t t' : ConnTrace} (h : t <:+ t')
    (hsome : (lastWritten pairId peer t).isSome) : (lastWritten pairId peer t').isSome := by
  unfold lastWritten at hsome ⊢
  rw [List.findSome?_isSome_iff] at hsome ⊢
  have ⟨e, he, hfe⟩ := hsome
  exact ⟨e, h.mem he, hfe⟩

theorem sat_serve_known {settings : Settings} {serde : Serde} {me : Ident} (e : Event) (s : Conn)
    (t : ConnTrace) (pairId peer : Uuid)
    : ((Conn.serve settings serde me e).start s).Sat (fun _ _ _ => True)
        (fun n _ t' => n = .serve → Stage.known pairId peer t' (.handling e)
          = lastWritten pairId peer t') t := by
  by_cases he : ∃ text, e = .delivery (.bus (.control text))
  . have ⟨text, he⟩ := he
    subst he
    refine Prog.Sat.mono (Conn.sat_serve_control text s t pairId peer) ?_
    intro n s' t' h hn
    change (presenceOf pairId peer text).or _ = _
    cases hb : presenceOf pairId peer text with
    | none => rfl
    | some b => rw [h hn b hb, Option.some_or]
  . have hnone : e.presence? pairId peer = none := by
      rw [Option.eq_none_iff_forall_ne_some]
      intro b hb
      have ⟨msg, hbus, hmsg⟩ := Option.bind_eq_some_iff.mp hb
      cases e with
      | delivery d =>
        cases d with
        | resync => cases hbus
        | bus msg' =>
          cases hbus
          cases msg with
          | control text => exact he ⟨text, rfl⟩
          | _ => cases hmsg
      | _ => cases hbus
    refine (Prog.sat_suffix _ List.suffix_rfl).imp (by simp) ?_
    intro n s' t' _ _
    change (e.presence? pairId peer).or _ = _
    rw [hnone, Option.none_or]

/--
The pairs that were read last have the pair if all that were read have it.
-/
theorem mem_lastPairs_of_fine {pairId peer : Uuid} {t : ConnTrace}
    (hfine : ∀ e ∈ t, Fine pairId peer e) (hread : ∃ pairs, Did t .activePeers (some pairs))
    : (pairId, peer) ∈ lastPairs t := by
  have ⟨pairs, s, hmem⟩ := hread
  have hsome : (t.findSome? readPairs).isSome := by
    rw [List.findSome?_isSome_iff]
    exact ⟨_, hmem, rfl⟩
  have ⟨last, hlast⟩ := Option.isSome_iff_exists.mp hsome
  have ⟨e, he, hfe⟩ := List.exists_of_findSome?_eq_some hlast
  have hfine := hfine e he
  unfold lastPairs
  rw [hlast]
  unfold readPairs at hfe
  split at hfe
  next s' r =>
    have ⟨pairs', heq, hmem'⟩ := hfine
    rw [hfe] at heq
    cases heq
    exact hmem'
  . cases hfe

/--
What a connection does as long as all the answers it gets are fine: it is about presence only after
its claim, it writes about `peer` only what it was told, and it drops presence only after it
has claimed it. When it is served `peer` has been told and the last text about `peer` says what is
known, and when it has ended it has left no trace.
-/
def announcing (env : Env) (pairId peer : Uuid) : StageRule env where
  obeys me stage _ _ t o := (∀ e ∈ t, Fine pairId peer e) →
    match stage with
    | .opening => o.ofPeers → Did t .claim (some ())
    | .handling e => ∀ b, o = .sendText (presenceMessage pairId peer b)
        → e.text? = some (presenceMessage pairId peer b)
    | .finishing _ => Did t .claim (some ())
  post me stage _ n s t := (∀ e ∈ t, Fine pairId peer e) →
    Did t .claim (some ()) ∧ (∃ pairs, Did t .activePeers (some pairs))
      ∧ match n with
        | .serve => Announced pairId peer me.deviceId true t ∧ (lastWritten pairId peer t).isSome
            ∧ stage.known pairId peer t = lastWritten pairId peer t
        | .finish _ => True
        | .stop => (∃ e, stage = .finishing e) → (∃ r, Did t .unregister r)
            ∧ (∃ r, Did t .release r) ∧ ∀ q ∈ s.pairs, Announced q.1 q.2 me.deviceId false t
  opening me previous := by
    have hpost := (Conn.yields_start me pairId peer previous (s := .new) (t := [])).sat
    refine ((Conn.sat_start_claimed me previous).and hpost).imp ?_ ?_
    . intro s t o h _
      exact h.1
    . intro n s t h hfine
      have ⟨r, hintro, hr⟩ := h.2 hfine
      refine ⟨hintro.claimed, hintro.read, ?_⟩
      cases n with
      | serve =>
        have ⟨b, hread, hwritten⟩ := hintro.written (hr rfl)
        exact ⟨hintro.announced (hr rfl), hwritten ▸ rfl, hread.trans hwritten.symm⟩
      | finish e => trivial
      | stop => simp
  handling me e stage t0 s t hrest hpost := by
    have hgrows := ((Conn.serve (env.settings me.inst) env.serde me e).start s).sat_suffix
      (List.suffix_refl t)
    by_cases hfine : ∀ e ∈ t, Fine pairId peer e
    . have ⟨hclaim, ⟨pairs, hread⟩, htold, hsome, _⟩ := hpost hfine
      have hpair : (pairId, peer) ∈ s.pairs := by
        rw [hrest.peers.pairs]
        exact mem_lastPairs_of_fine hfine ⟨pairs, hread⟩
      have hquiet := (Conn.only_serve_presence (env.settings me.inst) env.serde me e hrest.pending
        hpair).sat (t := t) (C := fun _ _ o => ∀ b, o = .sendText (presenceMessage pairId peer b)
          → e.text? = some (presenceMessage pairId peer b)) fun _ _ _ h => h
      refine (hgrows.and (hquiet.and (sat_serve_known e s t pairId peer))).imp ?_ ?_
      . intro s' t' o h _
        exact h.2.1
      . intro n s' t' ⟨ht', _, hknown⟩ _
        refine ⟨hclaim.of_suffix ht', ⟨pairs, hread.of_suffix ht'⟩, ?_⟩
        cases n with
        | serve =>
          exact ⟨htold.of_suffix ht', isSome_lastWritten_of_suffix ht' hsome, hknown rfl⟩
        | finish e => trivial
        | stop => simp
    . refine hgrows.imp ?_ ?_
      . intro s' t' o ht' hall
        exact absurd (fun e he => hall e (ht'.mem he)) hfine
      . intro n s' t' ht' hall
        exact absurd (fun e he => hall e (ht'.mem he)) hfine
  finishing me e stage t0 s t hpost := by
    have hgrows := ((Conn.finish me e).start s).sat_suffix (List.suffix_refl t)
    have hleft := (Conn.yields_finish me pairId peer e (s := s) (t := t)).sat
    refine (hgrows.and hleft).imp ?_ ?_
    . intro s' t' o ⟨ht', _⟩ hall
      exact (hpost fun e he => hall e (ht'.mem he)).1.of_suffix ht'
    . intro n s' t' ⟨ht', hleft⟩ hall
      have ⟨hclaim, ⟨pairs, hread⟩, _⟩ := hpost fun e he => hall e (ht'.mem he)
      have ⟨hn, hdone⟩ := hleft hall
      subst hn
      exact ⟨hclaim.of_suffix ht', ⟨pairs, hread.of_suffix ht'⟩, fun _ => hdone⟩

end HandLiveRelay
