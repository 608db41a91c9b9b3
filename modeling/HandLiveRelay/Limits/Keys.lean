import HandLiveRelay.Limits.RegistrationCap

/-!
This module contains the keys of the rate limits. All of them start with `rl:` and end with a tag
and the number of a window, and neither of these two contains the separator, so a key can be read
from its end although the separator occurs inside of IPv6 addresses.
-/

namespace HandLiveRelay.Limits

open Sample

/--
The groups of calls that are limited for each device.
-/
inductive Group where
  | rest
  | push
deriving DecidableEq

def Group.name : Group → String
  | rest => "rest"
  | push => "push"

/--
`rl:<device_id>:<group>:<minute>`
-/
def rateLimitKey (deviceId : Uuid) (group : Group) (minute : Int) : String :=
  "rl:" ++ deviceId.hyphenated ++ ":" ++ group.name ++ ":" ++ String.ofList (Decimal.encodeInt minute)

/--
`rl:ip:<ip>:auth:<minute>`
-/
def authIpKey (std : StdNet) (ip : IpAddr) (minute : Int) : String :=
  "rl:ip:" ++ ipBucket std ip ++ ":auth:" ++ String.ofList (Decimal.encodeInt minute)

/--
`rl:<device_id>:<ip>:chal:<minute>`, where the address may be unknown.
-/
def challengeQuotaKey (std : StdNet) (deviceId : Uuid) (ip : Option IpAddr) (minute : Int)
    : String :=
  let bucket := (ip.map (ipBucket std)).getD "unknown"
  "rl:" ++ deviceId.hyphenated ++ ":" ++ bucket ++ ":chal:" ++ String.ofList (Decimal.encodeInt minute)

/--
What a counter counts, apart from the window.
-/
inductive Counter where
  | rate (deviceId : Uuid) (group : Group)
  | challengeQuota (deviceId : Uuid) (ip : Option IpAddr)
  | authIp (ip : IpAddr)
  | registration (ip : IpAddr)
  | globalRegistration
deriving DecidableEq

/--
The key of a counter, as the function for its kind builds it.
-/
def Counter.key (std : StdNet) (c : Counter) (window : Int) : String :=
  match c with
  | rate deviceId group => rateLimitKey deviceId group window
  | challengeQuota deviceId ip => challengeQuotaKey std deviceId ip window
  | authIp ip => authIpKey std ip window
  | registration ip => registrationKey std ip window
  | globalRegistration => globalRegistrationKey window

/--
Addresses that one limit counts together: the same IPv4 address, or IPv6 addresses of one /64.
-/
def SameBucket (ip ip' : IpAddr) : Prop :=
  match ip.toCanonical, ip'.toCanonical with
  | .v4 octets, .v4 octets' => octets = octets'
  | .v6 octets, .v6 octets' => octets.toList.take 8 = octets'.toList.take 8
  | _, _ => False

/--
The counters come from the same function with the same device and group, and with addresses of one
bucket.
-/
def Counter.Same : Counter → Counter → Prop
  | rate d g, rate d' g' => d = d' ∧ g = g'
  | challengeQuota d none, challengeQuota d' none => d = d'
  | challengeQuota d (some ip), challengeQuota d' (some ip') => d = d' ∧ SameBucket ip ip'
  | authIp ip, authIp ip' => SameBucket ip ip'
  | registration ip, registration ip' => SameBucket ip ip'
  | globalRegistration, globalRegistration => True
  | _, _ => False

/--
How the standard library prints an address: no two addresses alike, and with hexadecimal digits,
dots and colons only.
-/
structure PlainDisplay (std : StdNet) : Prop where
  injective : Function.Injective std.display
  plain : ∀ ip, ∀ c ∈ (std.display ip).toList, (Hex.value? c).isSome ∨ c = '.' ∨ c = ':'

/-!
Keys read from their end.
-/

section Segments

/--
The part of a text after its last separator.
-/
theorem append_colon_inj {p p' s s' : List Char} (hs : ':' ∉ s) (hs' : ':' ∉ s')
    (h : p ++ ':' :: s = p' ++ ':' :: s') : p = p' ∧ s = s' := by
  have hrev := congrArg List.reverse h
  simp only [List.reverse_append, List.reverse_cons, List.append_assoc, List.singleton_append] at hrev
  have hlast : ∀ {p s : List Char}, ':' ∉ s
      → (s.reverse ++ ':' :: p.reverse).takeWhile (· != ':') = s.reverse := by
    intro p s hs
    rw [List.takeWhile_append_of_pos]
    . simp
    . intro c hc
      have hmem := List.mem_reverse.mp hc
      simp only [bne_iff_ne, ne_eq]
      intro heq
      exact hs (heq ▸ hmem)
  have htail := congrArg (List.takeWhile (· != ':')) hrev
  rw [hlast hs, hlast hs', List.reverse_inj] at htail
  refine ⟨?_, htail⟩
  rw [htail] at h
  exact List.append_cancel_right h

theorem colon_not_mem_encodeInt (v : Int) : ':' ∉ Decimal.encodeInt v := by
  intro h
  cases Decimal.mem_encodeInt h with
  | inl h => simp at h
  | inr h => simp at h

theorem encodeInt_injective {v v' : Int} (h : Decimal.encodeInt v = Decimal.encodeInt v') : v = v' := by
  have hparse := Decimal.parseInt_encodeInt v
  rw [h, Decimal.parseInt_encodeInt] at hparse
  exact (Option.some.inj hparse).symm

end Segments

namespace Counter

/--
The word that names the kind of the counter.
-/
def tag : Counter → List Char
  | rate _ group => group.name.toList
  | challengeQuota _ _ => "chal".toList
  | authIp _ => "auth".toList
  | registration _ => "reg".toList
  | globalRegistration => "reg".toList

/--
What stands in front of the tag.
-/
def scope (std : StdNet) : Counter → List Char
  | rate deviceId _ => "rl:".toList ++ deviceId.hyphenatedChars
  | challengeQuota deviceId ip => "rl:".toList ++ (deviceId.hyphenatedChars
      ++ ':' :: ((ip.map (ipBucket std)).getD "unknown").toList)
  | authIp ip => "rl:ip:".toList ++ (ipBucket std ip).toList
  | registration ip => "rl:ip:".toList ++ (ipBucket std ip).toList
  | globalRegistration => "rl".toList

variable {std : StdNet}

@[simp]
theorem scope_rate (deviceId : Uuid) (group : Group)
    : scope std (rate deviceId group) = "rl:".toList ++ deviceId.hyphenatedChars := rfl

@[simp]
theorem scope_challengeQuota (deviceId : Uuid) (ip : Option IpAddr)
    : scope std (challengeQuota deviceId ip) = "rl:".toList ++ (deviceId.hyphenatedChars
        ++ ':' :: ((ip.map (ipBucket std)).getD "unknown").toList) := rfl

@[simp]
theorem scope_authIp (ip : IpAddr)
    : scope std (authIp ip) = "rl:ip:".toList ++ (ipBucket std ip).toList := rfl

@[simp]
theorem scope_registration (ip : IpAddr)
    : scope std (registration ip) = "rl:ip:".toList ++ (ipBucket std ip).toList := rfl

@[simp]
theorem scope_globalRegistration : scope std globalRegistration = "rl".toList := rfl

theorem toList_key (c : Counter) (window : Int)
    : (c.key std window).toList
        = (c.scope std ++ ':' :: c.tag) ++ ':' :: Decimal.encodeInt window := by
  cases c <;> simp [key, tag, rateLimitKey, challengeQuotaKey, authIpKey, registrationKey,
    bucketKey, globalRegistrationKey, Uuid.hyphenated]

theorem colon_not_mem_tag (c : Counter) : ':' ∉ c.tag := by
  cases c with
  | rate _ group =>
    cases group <;> simp [tag, Group.name]
  | _ => simp [tag]

/--
The window, the tag and the rest of a key can be read from it.
-/
theorem key_inj {c c' : Counter} {window window' : Int}
    (h : c.key std window = c'.key std window')
    : c.scope std = c'.scope std ∧ c.tag = c'.tag ∧ window = window' := by
  have h := congrArg String.toList h
  rw [toList_key, toList_key] at h
  have ⟨hhead, hwindow⟩ :=
    append_colon_inj (colon_not_mem_encodeInt window) (colon_not_mem_encodeInt window') h
  have ⟨hscope, htag⟩ := append_colon_inj c.colon_not_mem_tag c'.colon_not_mem_tag hhead
  exact ⟨hscope, htag, encodeInt_injective hwindow⟩

end Counter

/-!
Buckets.
-/

section Buckets

variable {std : StdNet} (hstd : PlainDisplay std)

include hstd

theorem slash_not_mem_display (ip : IpAddr) : '/' ∉ (std.display ip).toList := by
  intro h
  have := hstd.plain ip '/' h
  revert this
  decide

theorem u_not_mem_ipBucket (ip : IpAddr) : 'u' ∉ (ipBucket std ip).toList := by
  have hdisplay : ∀ ip, 'u' ∉ (std.display ip).toList := by
    intro ip h
    have := hstd.plain ip 'u' h
    revert this
    decide
  intro h
  unfold ipBucket at h
  split at h
  . exact hdisplay _ h
  . rw [String.toList_append, List.mem_append] at h
    cases h with
    | inl h => exact hdisplay _ h
    | inr h =>
      revert h
      decide

theorem ipBucket_eq_iff (ip ip' : IpAddr)
    : ipBucket std ip = ipBucket std ip' ↔ SameBucket ip ip' := by
  have hmark : ∀ {a b : IpAddr}, std.display a ≠ std.display b ++ "/64" := by
    intro a b h
    apply slash_not_mem_display hstd a
    rw [h]
    simp
  unfold ipBucket SameBucket
  cases ip.toCanonical with
  | v4 octets =>
    cases ip'.toCanonical with
    | v4 octets' =>
      dsimp only
      rw [hstd.injective.eq_iff, IpAddr.v4.injEq]
    | v6 octets' => simp only [hmark]
  | v6 octets =>
    cases ip'.toCanonical with
    | v4 octets' => simp only [hmark.symm]
    | v6 octets' =>
      dsimp only
      rw [String.append_left_inj, hstd.injective.eq_iff, IpAddr.v6.injEq, Bytes.mk.injEq,
        List.append_left_inj]

/--
The text for an unknown address is no bucket.
-/
theorem getD_ipBucket_eq {ip ip' : Option IpAddr}
    (h : (ip.map (ipBucket std)).getD "unknown" = (ip'.map (ipBucket std)).getD "unknown")
    : ip = none ∧ ip' = none
      ∨ ∃ a a', ip = some a ∧ ip' = some a' ∧ ipBucket std a = ipBucket std a' := by
  have hunknown : ∀ a, ipBucket std a ≠ "unknown" := by
    intro a heq
    apply u_not_mem_ipBucket hstd a
    rw [heq]
    decide
  cases ip with
  | none =>
    cases ip' with
    | none => exact .inl ⟨rfl, rfl⟩
    | some a' => exact absurd h.symm (hunknown a')
  | some a =>
    cases ip' with
    | none => exact absurd h (hunknown a)
    | some a' => exact .inr ⟨a, a', rfl, rfl, h⟩

end Buckets

theorem hyphenatedChars_injective {d d' : Uuid} (h : d.hyphenatedChars = d'.hyphenatedChars)
    : d = d' :=
  Uuid.hyphenated_injective (congrArg String.ofList h)

theorem Group.name_injective {g g' : Group} (h : g.name.toList = g'.name.toList) : g = g' := by
  cases g <;> cases g' <;> simp [Group.name] at h ⊢

/--
Counters with the same tag and the same text in front of it are the same.
-/
theorem Counter.same_of_scope {std : StdNet} (hstd : PlainDisplay std) {c c' : Counter}
    (hscope : c.scope std = c'.scope std) (htag : c.tag = c'.tag) : c.Same c' := by
  have hbucket : ∀ {ip ip'}, (ipBucket std ip).toList = (ipBucket std ip').toList
      → SameBucket ip ip' := by
    intro ip ip' h
    exact (ipBucket_eq_iff hstd ip ip').mp (String.toList_inj.mp h)
  cases c with
  | rate d g =>
    cases c' with
    | rate d' g' =>
      exact ⟨hyphenatedChars_injective (List.append_cancel_left hscope), Group.name_injective htag⟩
    | _ => cases g <;> simp [tag, Group.name] at htag
  | challengeQuota d ip =>
    cases c' with
    | challengeQuota d' ip' =>
      have hrest := List.append_cancel_left hscope
      have ⟨hdevice, htext⟩ := List.append_inj hrest (by simp [Uuid.length_hyphenatedChars])
      have hdevice := hyphenatedChars_injective hdevice
      have htext := String.toList_inj.mp (List.cons.inj htext).2
      obtain ⟨hip, hip'⟩ | ⟨a, a', hip, hip', heq⟩ := getD_ipBucket_eq hstd htext
      . rw [hip, hip']
        exact hdevice
      . rw [hip, hip']
        exact ⟨hdevice, (ipBucket_eq_iff hstd a a').mp heq⟩
    | rate d' g' => cases g' <;> simp [tag, Group.name] at htag
    | _ => simp [tag] at htag
  | authIp ip =>
    cases c' with
    | authIp ip' => exact hbucket (List.append_cancel_left hscope)
    | rate d' g' => cases g' <;> simp [tag, Group.name] at htag
    | _ => simp [tag] at htag
  | registration ip =>
    cases c' with
    | registration ip' => exact hbucket (List.append_cancel_left hscope)
    | rate d' g' => cases g' <;> simp [tag, Group.name] at htag
    | globalRegistration =>
      have hlen := congrArg List.length hscope
      simp at hlen
    | _ => simp [tag] at htag
  | globalRegistration =>
    cases c' with
    | globalRegistration => trivial
    | rate d' g' => cases g' <;> simp [tag, Group.name] at htag
    | registration ip' =>
      have hlen := congrArg List.length hscope
      simp at hlen
    | _ => simp [tag] at htag

/--
Two keys of the rate limits are equal only if the same function built them for the same device,
group and window and for addresses of one bucket. Addresses are in one bucket exactly if they are the
same IPv4 address or IPv6 addresses with the same first 64 bits.
-/
theorem rate_limit_counters_never_mix (std : StdNet) (hstd : PlainDisplay std)
    : (∀ (c c' : Counter) (window window' : Int), c.key std window = c'.key std window'
        → c.Same c' ∧ window = window')
      ∧ ∀ ip ip', ipBucket std ip = ipBucket std ip' ↔ SameBucket ip ip' := by
  refine ⟨?_, ipBucket_eq_iff hstd⟩
  intro c c' window window' h
  have ⟨hscope, htag, hwindow⟩ := Counter.key_inj h
  exact ⟨Counter.same_of_scope hstd hscope htag, hwindow⟩

namespace Sample

/--
IPv4 addresses in dotted decimal form, the others in hexadecimal form after a colon.
-/
def printingNet : StdNet where
  parse _ := none
  display
    | .v4 octets => String.ofList (dotted octets.toList)
    | .v6 octets => String.ofList (':' :: Hex.encode octets.toList)

theorem dotted_injective {l l' : List UInt8} (hl : l ≠ []) (hl' : l' ≠ [])
    (h : dotted l = dotted l') : l = l' := by
  have hsplit : ∀ {l : List UInt8}, l ≠ [] →
      List.splitOn '.' (dotted l) = l.map fun b => Nat.toDigits 10 b.toNat := by
    intro l hl
    apply List.splitOn_intercalate
    . intro digits hdigits hmem
      obtain ⟨b, _, rfl⟩ := List.mem_map.mp hdigits
      exact absurd (Decimal.isDigit_of_mem_toDigits hmem) (by decide)
    . simpa using hl
  have hdigits := congrArg (List.splitOn '.') h
  rw [hsplit hl, hsplit hl'] at hdigits
  refine List.map_injective_iff.mpr ?_ hdigits
  intro b b' hb
  have hvalue := congrArg Decimal.parseNat hb
  dsimp only at hvalue
  rw [Decimal.parseNat_toDigits, Decimal.parseNat_toDigits] at hvalue
  exact UInt8.toNat_inj.mp (Option.some.inj hvalue)

theorem dotted_cons_cons (b b' : UInt8) (l : List UInt8)
    : dotted (b :: b' :: l) = Nat.toDigits 10 b.toNat ++ '.' :: dotted (b' :: l) := by
  simp [dotted, List.intercalate]

theorem mem_dotted {c : Char} {l : List UInt8} (h : c ∈ dotted l) : c = '.' ∨ c.isDigit = true := by
  induction l with
  | nil => cases h
  | cons b l ih =>
    cases l with
    | nil =>
      have hdigits : dotted [b] = Nat.toDigits 10 b.toNat := by simp [dotted, List.intercalate]
      exact .inr (Decimal.isDigit_of_mem_toDigits (hdigits ▸ h))
    | cons b' l =>
      rw [dotted_cons_cons, List.mem_append, List.mem_cons] at h
      rcases h with h | h | h
      . exact .inr (Decimal.isDigit_of_mem_toDigits h)
      . exact .inl h
      . exact ih h

theorem isSome_value?_of_isDigit {c : Char} (h : c.isDigit = true) : (Hex.value? c).isSome := by
  have hdigit : '0' ≤ c ∧ c ≤ '9' := by
    simpa [Char.isDigit, Char.le_def] using h
  unfold Hex.value?
  rw [if_pos hdigit]
  rfl

theorem printingNet_plain : PlainDisplay printingNet where
  injective := by
    -- the text of an IPv4 address has no colon
    have hne : ∀ {octets : Bytes 4} {rest : List Char}, dotted octets.toList ≠ ':' :: rest := by
      intro octets rest h
      have hcolon : ':' = '.' ∨ Char.isDigit ':' = true := mem_dotted (h ▸ List.mem_cons_self)
      revert hcolon
      decide
    intro ip ip' h
    cases ip with
    | v4 octets =>
      cases ip' with
      | v4 octets' =>
        have h := String.ofList_injective h
        have hoctets : ∀ o : Bytes 4, o.toList ≠ [] := by
          intro o
          simp [← List.length_pos_iff]
        rw [Bytes.ext (dotted_injective (hoctets octets) (hoctets octets') h)]
      | v6 octets' => exact absurd (String.ofList_injective h) hne
    | v6 octets =>
      cases ip' with
      | v4 octets' => exact absurd (String.ofList_injective h).symm hne
      | v6 octets' =>
        have h := congrArg Hex.decode (List.cons.inj (String.ofList_injective h)).2
        rw [Hex.decode_encode, Hex.decode_encode] at h
        rw [Bytes.ext (Option.some.inj h)]
  plain := by
    intro ip c hc
    cases ip with
    | v4 octets =>
      simp only [printingNet, String.toList_ofList] at hc
      rcases mem_dotted hc with hc | hc
      . exact .inr (.inl hc)
      . exact .inl (isSome_value?_of_isDigit hc)
    | v6 octets =>
      simp only [printingNet, String.toList_ofList, List.mem_cons] at hc
      rcases hc with hc | hc
      . exact .inr (.inr hc)
      . obtain ⟨v, hv, hc⟩ := Hex.mem_encode hc
        rw [hc, Hex.value?_digitChar hv]
        exact .inl rfl

end Sample

theorem counters_of_two_clients_do_not_mix
    : ¬ SameBucket (ip 192 0 2 1) (ip 192 0 2 2)
      ∧ authIpKey printingNet (ip 192 0 2 1) 0 ≠ authIpKey printingNet (ip 192 0 2 2) 0 := by
  have hne : ¬ SameBucket (ip 192 0 2 1) (ip 192 0 2 2) := by
    show ¬ (⟨[192, 0, 2, 1], rfl⟩ : Bytes 4) = ⟨[192, 0, 2, 2], rfl⟩
    decide
  refine ⟨hne, ?_⟩
  intro h
  have hmix := (rate_limit_counters_never_mix printingNet printingNet_plain).1
    (.authIp (ip 192 0 2 1)) (.authIp (ip 192 0 2 2)) 0 0 h
  exact hne hmix.1

end HandLiveRelay.Limits
