import HandLiveRelay.Relay.Wire

/-!
This module contains the address the limits count a request for. `X-Forwarded-For` is believed only
as far as trusted proxies wrote it: its hops are read from the right, and the first one that no
trusted proxy stands for ends the walk, so what stands to the left of it makes no difference.
-/

namespace HandLiveRelay

inductive IpAddr where
  | v4 (octets : Bytes 4)
  | v6 (octets : Bytes 16)
deriving DecidableEq

namespace IpAddr

/--
The first 12 octets of an IPv4-mapped address.
-/
def mappedOctets : List UInt8 := [0, 0, 0, 0, 0, 0, 0, 0, 0, 0, 0xff, 0xff]

/--
`::ffff:a.b.c.d`
-/
def mapped (octets : Bytes 4) : IpAddr :=
  .v6 ⟨mappedOctets ++ octets.toList, by simp [mappedOctets]⟩

/--
An IPv4-mapped address as its IPv4 address, every other one as it is.
-/
def toCanonical : IpAddr → IpAddr
  | .v4 octets => .v4 octets
  | .v6 octets =>
    if octets.toList.take 12 = mappedOctets then
      .v4 ⟨octets.toList.drop 12, by simp⟩
    else
      .v6 octets

def isMapped : IpAddr → Bool
  | .v4 _ => false
  | .v6 octets => octets.toList.take 12 = mappedOctets

@[simp]
theorem toCanonical_mapped (octets : Bytes 4) : (mapped octets).toCanonical = .v4 octets := by
  simp [mapped, toCanonical, mappedOctets]

theorem isMapped_toCanonical (ip : IpAddr) : ip.toCanonical.isMapped = false := by
  cases ip with
  | v4 octets => rfl
  | v6 octets =>
    dsimp only [toCanonical]
    split
    . rfl
    . next h => simp [isMapped, h]

/--
An address, or its IPv4-mapped form.
-/
def SameOrMapped (ip ip' : IpAddr) : Prop :=
  ip' = ip ∨ ∃ octets, ip = .v4 octets ∧ ip' = mapped octets

theorem SameOrMapped.toCanonical_eq {ip ip' : IpAddr} (h : SameOrMapped ip ip')
    : ip'.toCanonical = ip.toCanonical := by
  cases h with
  | inl h => rw [h]
  | inr h =>
    have ⟨octets, hip, hip'⟩ := h
    rw [hip, hip', toCanonical_mapped]
    rfl

end IpAddr

/--
The functions of the standard library on addresses: how one is read from a text, and how it is
printed. The development holds for every choice of them.
-/
structure StdNet where
  parse : List Char → Option IpAddr
  display : IpAddr → String

namespace Limits

/--
`str::trim`
-/
def trim (s : List Char) : List Char :=
  ((s.dropWhile Wire.isWhitespace).reverse.dropWhile Wire.isWhitespace).reverse

/--
The comma separated hops of a header, the first one first.
-/
def hops (header : String) : List (List Char) :=
  header.toList.splitOn ','

def isTrusted (trusted : List IpAddr) (ip : IpAddr) : Bool :=
  trusted.any (·.toCanonical = ip)

section

variable (std : StdNet) (trusted : List IpAddr)

/--
The loop of `clientIp` over the hops, the last one first. `last` is the last trusted address seen.
-/
def walk (last : IpAddr) : List (List Char) → IpAddr
  | [] => last
  | hop :: rest =>
    match std.parse (trim hop) with
    | none => last
    | some ip =>
      let ip := ip.toCanonical
      if isTrusted trusted ip then walk ip rest else ip

/--
The address of the client behind a connection.
-/
def clientIp (peer : Option IpAddr) (forwardedFor : Option String) : Option IpAddr :=
  match peer.map IpAddr.toCanonical with
  | none => none
  | some peer =>
    if !isTrusted trusted peer then
      some peer
    else
      match forwardedFor with
      | none => some peer
      | some header => some (walk std trusted peer (hops header).reverse)

/--
The address a hop names, `none` if it is malformed.
-/
def address (hop : List Char) : Option IpAddr :=
  (std.parse (trim hop)).map IpAddr.toCanonical

/--
The hop is the address of a trusted proxy.
-/
def TrustedHop (hop : List Char) : Prop :=
  (address std hop).any (isTrusted trusted) = true

instance (hop : List Char) : Decidable (TrustedHop std trusted hop) :=
  inferInstanceAs (Decidable (_ = true))

/--
The last address of a list of hops, each of them trusted, and `last` if there is none.
-/
def lastSeen (last : IpAddr) (seen : List (List Char)) : IpAddr :=
  ((seen.filterMap (address std)).getLast?).getD last

end

variable {std : StdNet} {trusted : List IpAddr} {last : IpAddr}

theorem walk_cons (hop : List Char) (rest : List (List Char))
    : walk std trusted last (hop :: rest)
      = match address std hop with
        | none => last
        | some ip => if isTrusted trusted ip then walk std trusted ip rest else ip := by
  rw [walk, address]
  cases std.parse (trim hop) <;> rfl

theorem TrustedHop.exists_address {hop : List Char} (h : TrustedHop std trusted hop)
    : ∃ ip, address std hop = some ip ∧ isTrusted trusted ip = true := by
  unfold TrustedHop at h
  cases hip : address std hop with
  | none =>
    rw [hip] at h
    cases h
  | some ip =>
    rw [hip] at h
    exact ⟨ip, rfl, h⟩

theorem walk_cons_of_trusted {hop : List Char} {ip : IpAddr} (rest : List (List Char))
    (hip : address std hop = some ip) (htrusted : isTrusted trusted ip = true)
    : walk std trusted last (hop :: rest) = walk std trusted ip rest := by
  rw [walk_cons, hip]
  dsimp only
  rw [if_pos htrusted]

theorem lastSeen_cons {hop : List Char} {ip : IpAddr} (seen : List (List Char))
    (hip : address std hop = some ip) : lastSeen std last (hop :: seen) = lastSeen std ip seen := by
  unfold lastSeen
  rw [List.filterMap_cons_some hip, List.getLast?_cons]
  rfl

/--
Trusted hops are walked over.
-/
theorem walk_append {seen : List (List Char)} (hseen : ∀ hop ∈ seen, TrustedHop std trusted hop)
    (rest : List (List Char))
    : walk std trusted last (seen ++ rest)
      = walk std trusted (lastSeen std last seen) rest := by
  induction seen generalizing last with
  | nil => rfl
  | cons hop seen ih =>
    have ⟨ip, hip, htrusted⟩ := (hseen hop List.mem_cons_self).exists_address
    rw [List.cons_append, walk_cons_of_trusted _ hip htrusted, lastSeen_cons seen hip]
    apply ih
    intro hop' hhop'
    exact hseen hop' (List.mem_cons_of_mem hop hhop')

/--
A hop that is not trusted ends the walk.
-/
theorem walk_append_of_not_trusted {seen : List (List Char)}
    (hstop : ∃ hop ∈ seen, ¬ TrustedHop std trusted hop) (rest : List (List Char))
    : walk std trusted last (seen ++ rest) = walk std trusted last seen := by
  induction seen generalizing last with
  | nil =>
    have ⟨hop, hmem, _⟩ := hstop
    cases hmem
  | cons hop seen ih =>
    rw [List.cons_append, walk_cons, walk_cons]
    cases hip : address std hop with
    | none => rfl
    | some ip =>
      dsimp only
      split
      . next htrusted =>
        apply ih
        have ⟨hop', hmem, hnot⟩ := hstop
        cases List.mem_cons.mp hmem with
        | inl heq =>
          subst heq
          exact absurd (by simp [TrustedHop, hip, htrusted]) hnot
        | inr hmem => exact ⟨hop', hmem, hnot⟩
      . rfl

theorem isMapped_walk {rest : List (List Char)} (h : last.isMapped = false)
    : (walk std trusted last rest).isMapped = false := by
  induction rest generalizing last with
  | nil => exact h
  | cons hop rest ih =>
    rw [walk]
    split
    . exact h
    . dsimp only
      split
      . exact ih (IpAddr.isMapped_toCanonical _)
      . exact IpAddr.isMapped_toCanonical _

/-!
The forms of the addresses make no difference.
-/

theorem isTrusted_congr {trusted' : List IpAddr}
    (h : List.Forall₂ IpAddr.SameOrMapped trusted trusted')
    : isTrusted trusted' = isTrusted trusted := by
  funext ip
  induction h with
  | nil => rfl
  | cons hip _ ih =>
    unfold isTrusted at ih ⊢
    rw [List.any_cons, List.any_cons, ih, hip.toCanonical_eq]

/--
The two hops are the same text, or name an IPv4 address and its mapped form.
-/
def SameHop (std : StdNet) (hop hop' : List Char) : Prop :=
  hop' = hop
    ∨ ∃ ip ip', std.parse (trim hop) = some ip ∧ std.parse (trim hop') = some ip'
      ∧ IpAddr.SameOrMapped ip ip'

theorem SameHop.address_eq {hop hop' : List Char} (h : SameHop std hop hop')
    : address std hop' = address std hop := by
  cases h with
  | inl h => rw [h]
  | inr h =>
    have ⟨ip, ip', hip, hip', hsame⟩ := h
    unfold address
    rw [hip, hip', Option.map_some, Option.map_some, hsame.toCanonical_eq]

theorem walk_congr {trusted' : List IpAddr} (htrusted : isTrusted trusted' = isTrusted trusted)
    {l l' : List (List Char)} (h : List.Forall₂ (SameHop std) l l')
    : walk std trusted' last l' = walk std trusted last l := by
  induction h generalizing last with
  | nil => rfl
  | cons hhop _ ih =>
    rw [walk_cons, walk_cons, hhop.address_eq, htrusted]
    cases address std _ with
    | none => rfl
    | some ip =>
      dsimp only
      rw [ih]

/-!
The address of the client.
-/

variable {peer : IpAddr} {header : String}

theorem hops_append (before rest : String) : hops (before ++ "," ++ rest) = hops before ++ hops rest := by
  unfold hops
  rw [String.toList_append, String.toList_append, List.append_assoc]
  exact List.splitOn_append_cons_self before.toList rest.toList

theorem clientIp_of_trusted (hpeer : isTrusted trusted peer.toCanonical = true)
    : clientIp std trusted (some peer) (some header)
      = some (walk std trusted peer.toCanonical (hops header).reverse) := by
  simp [clientIp, hpeer]

/--
The result comes from the peer and from the hops up to the first one, from the right, that is not
trusted.
-/
theorem clientIp_append (peer : Option IpAddr) (before : String) {rest : String}
    (hstop : ∃ hop ∈ hops rest, ¬ TrustedHop std trusted hop)
    : clientIp std trusted peer (some (before ++ "," ++ rest))
      = clientIp std trusted peer (some rest) := by
  have hstop : ∃ hop ∈ (hops rest).reverse, ¬ TrustedHop std trusted hop := by
    simpa only [List.mem_reverse] using hstop
  unfold clientIp
  cases peer.map IpAddr.toCanonical with
  | none => rfl
  | some peer =>
    dsimp only
    rw [hops_append, List.reverse_append, walk_append_of_not_trusted hstop]

theorem clientIp_of_untrusted {seen rest : List (List Char)} {hop : List Char} {ip : IpAddr}
    (hpeer : isTrusted trusted peer.toCanonical = true)
    (hsplit : (hops header).reverse = seen ++ hop :: rest)
    (hseen : ∀ hop ∈ seen, TrustedHop std trusted hop) (hip : address std hop = some ip)
    (huntrusted : isTrusted trusted ip = false)
    : clientIp std trusted (some peer) (some header) = some ip := by
  rw [clientIp_of_trusted hpeer, hsplit, walk_append hseen, walk_cons, hip]
  simp [huntrusted]

theorem clientIp_of_end {seen rest : List (List Char)}
    (hpeer : isTrusted trusted peer.toCanonical = true)
    (hsplit : (hops header).reverse = seen ++ rest)
    (hseen : ∀ hop ∈ seen, TrustedHop std trusted hop)
    (hend : ∀ hop ∈ rest.head?, address std hop = none)
    : clientIp std trusted (some peer) (some header)
      = some (lastSeen std peer.toCanonical seen) := by
  rw [clientIp_of_trusted hpeer, hsplit, walk_append hseen]
  cases rest with
  | nil => rfl
  | cons hop rest =>
    rw [walk_cons, hend hop rfl]

theorem clientIp_congr {trusted' : List IpAddr} {peer peer' : Option IpAddr}
    {header header' : Option String}
    (hpeer : Option.Rel IpAddr.SameOrMapped peer peer')
    (htrusted : List.Forall₂ IpAddr.SameOrMapped trusted trusted')
    (hheader : Option.Rel (fun h h' => List.Forall₂ (SameHop std) (hops h) (hops h'))
      header header')
    : clientIp std trusted' peer' header' = clientIp std trusted peer header := by
  have hsame := isTrusted_congr htrusted
  cases hpeer with
  | none => rfl
  | some hpeer =>
    unfold clientIp
    rw [Option.map_some, Option.map_some, hpeer.toCanonical_eq]
    dsimp only
    rw [hsame]
    cases hheader with
    | none => rfl
    | some hheader =>
      dsimp only
      rw [walk_congr hsame (List.rel_reverse hheader)]

theorem isMapped_clientIp {peer : Option IpAddr} {header : Option String} {ip : IpAddr}
    (h : clientIp std trusted peer header = some ip) : ip.isMapped = false := by
  cases peer with
  | none => cases h
  | some peer =>
    have hpeer := peer.isMapped_toCanonical
    unfold clientIp at h
    rw [Option.map_some] at h
    dsimp only at h
    split at h
    . cases h
      exact hpeer
    . split at h
      . cases h
        exact hpeer
      . cases h
        exact isMapped_walk hpeer

/--
A forged header cannot choose the address of the client.
-/
theorem client_ip_is_not_forged (std : StdNet) (trusted : List IpAddr)
    : (∀ peer header, isTrusted trusted peer.toCanonical = false ∨ header = none →
        clientIp std trusted (some peer) header = some peer.toCanonical)
      ∧ (∀ peer header seen rest, isTrusted trusted peer.toCanonical = true →
        (hops header).reverse = seen ++ rest →
        (∀ hop ∈ seen, TrustedHop std trusted hop) →
        (∀ hop ip, rest.head? = some hop → address std hop = some ip →
          isTrusted trusted ip = false →
          clientIp std trusted (some peer) (some header) = some ip)
        ∧ ((∀ hop ∈ rest.head?, address std hop = none) →
          clientIp std trusted (some peer) (some header)
            = some (lastSeen std peer.toCanonical seen)))
      ∧ (∀ peer before before' rest, (∃ hop ∈ hops rest, ¬ TrustedHop std trusted hop) →
        clientIp std trusted peer (some (before ++ "," ++ rest))
          = clientIp std trusted peer (some (before' ++ "," ++ rest)))
      ∧ (∀ peer header ip, clientIp std trusted peer header = some ip → ip.isMapped = false)
      ∧ ∀ trusted' peer peer' header header',
        Option.Rel IpAddr.SameOrMapped peer peer' →
        List.Forall₂ IpAddr.SameOrMapped trusted trusted' →
        Option.Rel (fun h h' => List.Forall₂ (SameHop std) (hops h) (hops h')) header header' →
        clientIp std trusted' peer' header' = clientIp std trusted peer header := by
  refine ⟨?_, ?_, ?_, ?_, ?_⟩
  . intro peer header h
    cases h with
    | inl h => simp [clientIp, h]
    | inr h => simp [clientIp, h]
  . intro peer header seen rest hpeer hsplit hseen
    constructor
    . intro hop ip hhead hip huntrusted
      have ⟨tail, htail⟩ := List.head?_eq_some_iff.mp hhead
      exact clientIp_of_untrusted hpeer (htail ▸ hsplit) hseen hip huntrusted
    . intro hend
      exact clientIp_of_end hpeer hsplit hseen hend
  . intro peer before before' rest hstop
    rw [clientIp_append peer before hstop, clientIp_append peer before' hstop]
  . intro peer header ip h
    exact isMapped_clientIp h
  . intro trusted' peer peer' header header' hpeer htrusted hheader
    exact clientIp_congr hpeer htrusted hheader

end Limits
end HandLiveRelay
