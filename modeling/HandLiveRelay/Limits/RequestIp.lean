import HandLiveRelay.Limits.ClientIp

/-!
This module contains the address of a request, which is read from the first of its
`X-Forwarded-For` lines, and when that is the address all its lines together stand for.
-/

namespace HandLiveRelay.Limits

/--
The text of a header value, `none` if it holds anything but visible ASCII.
-/
def toStr (value : List UInt8) : Option String :=
  if value.all (fun b => 32 ≤ b && b < 127 || b = 9) then
    some (String.ofList (Utf8.latin1 value))
  else
    none

section

variable (std : StdNet) (trusted : List IpAddr)

/--
The client address of a request with the given `X-Forwarded-For` lines: `HeaderMap::get` returns
the first one.
-/
def requestIp (peer : Option IpAddr) (lines : List (List UInt8)) : Option IpAddr :=
  clientIp std trusted peer (lines.head?.bind toStr)

/--
Lines of a header that count as one list.
-/
def joined : List String → Option String
  | [] => none
  | line :: rest =>
    match joined rest with
    | none => some line
    | some text => some (line ++ "," ++ text)

/--
The lines after the first one make no difference. Either there are none, or they hold trusted proxies
only and the address that is reached before the first line does not matter: the first line ends in
an address, or that one is the peer's. Or the walk ends in them, and they stand for the address that
the first line stands for.
-/
def LaterLinesAgree (peer : IpAddr) : List String → Prop
  | [] => True
  | first :: rest =>
    rest = []
      ∨ ((∀ hop ∈ rest.flatMap hops, TrustedHop std trusted hop)
        ∧ ((∃ hop ∈ (hops first).getLast?, (address std hop).isSome)
          ∨ ∃ hop ∈ (rest.flatMap hops).head?, address std hop = some peer.toCanonical))
      ∨ ((∃ hop ∈ rest.flatMap hops, ¬ TrustedHop std trusted hop)
        ∧ clientIp std trusted (some peer) (joined rest)
          = clientIp std trusted (some peer) (some first))

end

def Printable (text : String) : Prop :=
  ∀ c ∈ text.toList, 32 ≤ c.toNat ∧ c.toNat < 127

theorem toStr_encode {text : String} (h : Printable text) : toStr (Utf8.encode text) = some text := by
  have hascii : ∀ c ∈ text.toList, c.toNat < 128 := by
    intro c hc
    have hc := h c hc
    omega
  have hencode := Utf8.encode_ofList hascii
  have hlatin1 := Utf8.latin1_encode_ofList hascii
  rw [String.ofList_toList] at hencode hlatin1
  unfold toStr
  rw [if_pos, hlatin1, String.ofList_toList]
  rw [hencode, List.all_map, List.all_eq_true]
  intro c hc
  have ⟨hlo, hhi⟩ := h c hc
  simp only [Function.comp_apply, Bool.or_eq_true, Bool.and_eq_true, decide_eq_true_eq]
  refine .inl ⟨?_, ?_⟩
  . rw [UInt8.le_iff_toNat_le, UInt8.toNat_ofNat']
    change 32 ≤ c.toNat % 256
    omega
  . rw [UInt8.lt_iff_toNat_lt, UInt8.toNat_ofNat']
    change c.toNat % 256 < 127
    omega

theorem hops_joined {lines : List String} {text : String} (h : joined lines = some text)
    : hops text = lines.flatMap hops := by
  induction lines generalizing text with
  | nil => cases h
  | cons line rest ih =>
    rw [joined] at h
    rw [List.flatMap_cons]
    split at h
    . next hrest =>
      cases h
      cases rest with
      | nil => simp
      | cons line' rest =>
        rw [joined] at hrest
        split at hrest <;> cases hrest
    . next text' hrest =>
      cases h
      rw [hops_append, ih hrest]

variable {std : StdNet} {trusted : List IpAddr} {peer : IpAddr}

theorem hops_ne_nil (line : String) : hops line ≠ [] :=
  List.splitOn_ne_nil ',' line.toList

theorem exists_joined (first : String) (rest : List String)
    : ∃ text, joined (first :: rest) = some text := by
  rw [joined]
  split
  . exact ⟨_, rfl⟩
  . exact ⟨_, rfl⟩

theorem clientIp_joined (hpeer : isTrusted trusted peer.toCanonical = true) (lines : List String)
    : clientIp std trusted (some peer) (joined lines)
      = some (walk std trusted peer.toCanonical (lines.flatMap hops).reverse) := by
  cases lines with
  | nil => simp [joined, clientIp, hpeer, walk]
  | cons first rest =>
    obtain ⟨text, htext⟩ := exists_joined first rest
    rw [htext, clientIp_of_trusted hpeer, hops_joined htext]

/--
Where the walk begins makes a difference exactly if it ends at once.
-/
theorem walk_eq_walk_iff (last last' : IpAddr) (hop : List Char) (rest : List (List Char))
    : walk std trusted last (hop :: rest) = walk std trusted last' (hop :: rest)
      ↔ (address std hop).isSome ∨ last = last' := by
  rw [walk_cons, walk_cons]
  cases address std hop with
  | none => simp
  | some ip => simp

/--
The walk over trusted hops ends at the leftmost one.
-/
theorem lastSeen_reverse (last : IpAddr) {hop : List Char} {hops : List (List Char)}
    (h : ∀ hop' ∈ hop :: hops, TrustedHop std trusted hop')
    : address std hop = some (lastSeen std last (hop :: hops).reverse) := by
  obtain ⟨ip, hip, _⟩ := (h hop List.mem_cons_self).exists_address
  unfold lastSeen
  rw [List.filterMap_reverse, List.getLast?_reverse, List.filterMap_cons_some hip, hip]
  rfl

/--
The first line alone stands for what all the lines stand for exactly if the later ones make no
difference.
-/
theorem laterLinesAgree_iff (hpeer : isTrusted trusted peer.toCanonical = true) (first : String)
    (rest : List String)
    : LaterLinesAgree std trusted peer (first :: rest)
      ↔ clientIp std trusted (some peer) (some first)
        = clientIp std trusted (some peer) (joined (first :: rest)) := by
  rw [LaterLinesAgree, clientIp_joined hpeer, clientIp_joined hpeer, clientIp_of_trusted hpeer, Option.some_inj,
    Option.some_inj, List.flatMap_cons, List.reverse_append]
  cases rest with
  | nil => simp
  | cons line rest =>
    obtain ⟨hop, later, hlater⟩ : ∃ hop later, (line :: rest).flatMap hops = hop :: later := by
      apply List.exists_cons_of_ne_nil
      rw [List.flatMap_cons]
      exact List.append_ne_nil_of_left_ne_nil (hops_ne_nil line) _
    obtain ⟨before, final, hfirst⟩ := List.eq_nil_or_concat (hops first) |>.resolve_left
      (hops_ne_nil first)
    rw [hlater]
    by_cases hseen : ∀ hop' ∈ hop :: later, TrustedHop std trusted hop'
    -- the walk reaches the first line, whose last hop is `final`
    . have hstop : ¬ ∃ hop' ∈ hop :: later, ¬ TrustedHop std trusted hop' := by
        simpa using hseen
      have hreverse : ∀ hop' ∈ (hop :: later).reverse, TrustedHop std trusted hop' := by
        simpa only [List.mem_reverse] using hseen
      rw [walk_append hreverse, hfirst, List.concat_eq_append, List.reverse_append, List.reverse_singleton,
        List.singleton_append, walk_eq_walk_iff, List.getLast?_concat]
      simp only [iff_true_intro hseen, iff_false_intro hstop, reduceCtorEq, false_or, true_and,
        false_and, or_false, Option.mem_some_iff, List.head?_cons, exists_eq_left',
        lastSeen_reverse peer.toCanonical hseen, Option.some_inj]
      exact or_congr_right eq_comm
    -- the walk ends before the first line
    . have hstop : ∃ hop' ∈ hop :: later, ¬ TrustedHop std trusted hop' := by
        simpa only [not_forall, exists_prop] using hseen
      have hreverse : ∃ hop' ∈ (hop :: later).reverse, ¬ TrustedHop std trusted hop' := by
        simpa only [List.mem_reverse] using hstop
      rw [walk_append_of_not_trusted hreverse]
      simp only [iff_false_intro hseen, iff_true_intro hstop, reduceCtorEq, false_and, true_and,
        false_or]
      exact eq_comm

theorem requestIp_encode {first : String} (h : Printable first) (rest : List String)
    : requestIp std trusted (some peer) ((first :: rest).map Utf8.encode)
      = clientIp std trusted (some peer) (some first) := by
  unfold requestIp
  rw [List.map_cons, List.head?_cons, Option.bind_some, toStr_encode h]

/--
A request has the address that its lines stand for as one list, and no line that comes before one
with an untrusted address decides it, exactly if the lines after the first one make no difference.
-/
theorem request_ip_reads_one_list (std : StdNet) (trusted : List IpAddr) (peer : IpAddr)
    (lines : List String) (hpeer : isTrusted trusted peer.toCanonical = true)
    (hprint : ∀ line ∈ lines, Printable line)
    : LaterLinesAgree std trusted peer lines
      ↔ requestIp std trusted (some peer) (lines.map Utf8.encode)
          = clientIp std trusted (some peer) (joined lines)
        ∧ ∀ before last, lines = before ++ [last] →
          (∃ hop ∈ hops last, ∃ ip, address std hop = some ip ∧ isTrusted trusted ip = false) →
          requestIp std trusted (some peer) (lines.map Utf8.encode)
            = requestIp std trusted (some peer) [Utf8.encode last] := by
  have hone : LaterLinesAgree std trusted peer lines
      ↔ requestIp std trusted (some peer) (lines.map Utf8.encode)
          = clientIp std trusted (some peer) (joined lines) := by
    cases lines with
    | nil => exact iff_of_true trivial rfl
    | cons first rest =>
      rw [laterLinesAgree_iff hpeer, requestIp_encode (hprint first List.mem_cons_self)]
  rw [hone, iff_self_and]
  rintro heq before last hlines ⟨hop, hhop, ip, hip, huntrusted⟩
  -- the hops of the last line end the walk
  have hstop : ∃ hop ∈ (hops last).reverse, ¬ TrustedHop std trusted hop := by
    refine ⟨hop, List.mem_reverse.mpr hhop, ?_⟩
    simp [TrustedHop, hip, huntrusted]
  have hlast : requestIp std trusted (some peer) [Utf8.encode last]
      = some (walk std trusted peer.toCanonical (hops last).reverse) :=
    (requestIp_encode (hprint last (by simp [hlines])) []).trans (clientIp_of_trusted hpeer)
  rw [heq, clientIp_joined hpeer, hlast, hlines, List.flatMap_append, List.flatMap_singleton,
    List.reverse_append, walk_append_of_not_trusted hstop]

namespace Sample

/--
Octets in dotted decimal form.
-/
def dotted (octets : List UInt8) : List Char :=
  ['.'].intercalate (octets.map fun b => Nat.toDigits 10 b.toNat)

/--
IPv4 addresses in dotted decimal form.
-/
def net : StdNet where
  parse l :=
    match l.splitOn '.' with
    | [a, b, c, d] => do
      let a ← Decimal.parseNat a
      let b ← Decimal.parseNat b
      let c ← Decimal.parseNat c
      let d ← Decimal.parseNat d
      guard (a < 256 ∧ b < 256 ∧ c < 256 ∧ d < 256)
      return .v4 ⟨[UInt8.ofNat a, UInt8.ofNat b, UInt8.ofNat c, UInt8.ofNat d], rfl⟩
    | _ => none
  display
    | .v4 octets => String.ofList (dotted octets.toList)
    | .v6 _ => ""

def ip (a b c d : UInt8) : IpAddr := .v4 ⟨[a, b, c, d], rfl⟩

/--
The address of the only trusted proxy.
-/
def proxy : IpAddr := ip 10 0 0 1

end Sample

open Sample

theorem request_ip_of_two_lines
    : requestIp net [proxy] (some proxy) (["6.6.6.6, 203.0.113.9", "10.0.0.1"].map Utf8.encode)
      = clientIp net [proxy] (some proxy) (joined ["6.6.6.6, 203.0.113.9", "10.0.0.1"]) := by
  have hprint : ∀ line ∈ ["6.6.6.6, 203.0.113.9", "10.0.0.1"], ∀ c ∈ line.toList,
      32 ≤ c.toNat ∧ c.toNat < 127 := by
    simp
  have hlines : (∀ hop ∈ ["10.0.0.1"].flatMap hops, TrustedHop net [proxy] hop)
      ∧ ∃ hop ∈ (hops "6.6.6.6, 203.0.113.9").getLast?, (address net hop).isSome := by
    decide +kernel
  exact ((request_ip_reads_one_list net [proxy] proxy _ (by decide +kernel) hprint).mp
    (.inr (.inl ⟨hlines.1, .inl hlines.2⟩))).1

/--
The line the client sent decides, although the trusted proxy appended another one.
-/
theorem first_line_decides
    : requestIp net [proxy] (some proxy) (["6.6.6.6", "203.0.113.9"].map Utf8.encode)
        = some (ip 6 6 6 6)
      ∧ requestIp net [proxy] (some proxy) (["7.7.7.7", "203.0.113.9"].map Utf8.encode)
        = some (ip 7 7 7 7)
      ∧ clientIp net [proxy] (some proxy) (joined ["6.6.6.6", "203.0.113.9"])
        = some (ip 203 0 113 9) := by
  decide +kernel

end HandLiveRelay.Limits
