import HandLiveRelay.Revocation

/-!
This module contains what the relay keeps about devices in Redis: `presence:<device_id>`, the
instance that has the connection of the device, and `revoked_notice:<device_id>`, the statements
that wait for the device to connect. Renewal and removal of presence are compare-and-set scripts.
-/

namespace HandLiveRelay.Presence

/--
The presence keys, by device.
-/
abbrev Keys := Uuid → Option InstanceId

/--
Record that the device is connected here. A new connection always wins.
-/
def claim (keys : Keys) (deviceId : Uuid) (inst : InstanceId) : Keys :=
  Function.update keys deviceId (some inst)

/--
Set the key when it is missing or already ours. The answer says whether we hold it.
-/
def refresh (keys : Keys) (deviceId : Uuid) (inst : InstanceId) : Keys × Bool :=
  if keys deviceId = none ∨ keys deviceId = some inst then
    (Function.update keys deviceId (some inst), true)
  else
    (keys, false)

/--
Delete the key only when it is ours. The answer says whether it was deleted.
-/
def release (keys : Keys) (deviceId : Uuid) (inst : InstanceId) : Keys × Bool :=
  if keys deviceId = some inst then
    (Function.update keys deviceId none, true)
  else
    (keys, false)

/--
The online state of each device, in order.
-/
def online (keys : Keys) (devices : List Uuid) : List Bool :=
  devices.map fun d => (keys d).isSome

/--
The members of the notice sets, by device.
-/
abbrev Notices := Uuid → List String

/--
`<pair_id>|<by>|<revoked_at>|<sig b64u>`
-/
def revokedNoticeMember (s : RevokeStatement) : String :=
  String.ofList (s.pairId.hyphenatedChars ++ '|' :: (s.signer.hyphenatedChars
    ++ '|' :: (Decimal.encodeInt s.revokedAt.toInt
      ++ '|' :: Base64.encode B64u.urlSafe s.sig.toList)))

/--
The text of a signed 64 bit number, `none` if it is out of range.
-/
def parseI64 (text : List Char) : Option Int64 := do
  let v ← Decimal.parseInt text
  guard (-2 ^ 63 ≤ v ∧ v < 2 ^ 63)
  return Int64.ofInt v

/--
The statement of a member, `none` if it is malformed.
-/
def parseRevokedNotice (member : String) : Option RevokeStatement :=
  match (Utf8.latin1 (Utf8.encode member)).splitOn '|' with
  | [pairId, signer, revokedAt, sig] => do
    let pairId ← Uuid.parse pairId
    let signer ← Uuid.parse signer
    let revokedAt ← parseI64 revokedAt
    let sig ← (Base64.decode B64u.urlSafe sig).bind (Bytes.ofList? 64)
    return { pairId, signer, revokedAt, sig }
  | _ => none

/--
Queue the statement for `peer`.
-/
def addRevokedNotice (notices : Notices) (peer : Uuid) (s : RevokeStatement) : Notices :=
  Function.update notices peer ((notices peer).insert (revokedNoticeMember s))

/--
Read and delete the queued notices of a device. Malformed members are skipped.
-/
def takeRevokedNotices (notices : Notices) (deviceId : Uuid) : Notices × List RevokeStatement :=
  (Function.update notices deviceId [], (notices deviceId).filterMap parseRevokedNotice)

@[simp]
theorem parseI64_encodeInt (v : Int64) : parseI64 (Decimal.encodeInt v.toInt) = some v := by
  have hlo := v.le_toInt
  have hhi := v.toInt_lt
  unfold parseI64
  rw [Decimal.parseInt_encodeInt]
  simp only [Option.bind_eq_bind, Option.bind_some, guard, if_pos (And.intro hlo hhi)]
  simp

/--
None of the four parts of a member contains the separator.
-/
theorem bar_not_mem_parts (s : RevokeStatement)
    : ∀ part ∈ [s.pairId.hyphenatedChars, s.signer.hyphenatedChars,
        Decimal.encodeInt s.revokedAt.toInt, Base64.encode B64u.urlSafe s.sig.toList],
        ∀ c ∈ part, c ≠ '|' ∧ c.toNat < 128 := by
  have huuid : ∀ (u : Uuid), ∀ c ∈ u.hyphenatedChars, c ≠ '|' ∧ c.toNat < 128 := by
    intro u c hc
    refine ⟨?_, Uuid.toNat_lt_of_mem_hyphenatedChars hc⟩
    rcases Uuid.mem_hyphenatedChars hc with rfl | ⟨v, hv, rfl⟩
    . decide
    . have hall : ∀ v < 16, Nat.digitChar v ≠ '|' := by decide
      exact hall v hv
  have hint : ∀ c ∈ Decimal.encodeInt s.revokedAt.toInt, c ≠ '|' ∧ c.toNat < 128 := by
    intro c hc
    rcases Decimal.mem_encodeInt hc with rfl | hc
    . decide
    . have ⟨_, hle⟩ : '0'.val ≤ c.val ∧ c.val ≤ '9'.val := by simpa [Char.isDigit] using hc
      have hnat : c.toNat ≤ 57 := hle
      refine ⟨?_, by omega⟩
      intro heq
      subst heq
      revert hnat
      decide
  have hsig : ∀ c ∈ Base64.encode B64u.urlSafe s.sig.toList, c ≠ '|' ∧ c.toNat < 128 := by
    intro c hc
    refine ⟨?_, B64u.toNat_lt_of_mem_encode hc⟩
    have ⟨v, hv, hdigit⟩ := Base64.mem_encode B64u.urlSafe hc
    have hall : ∀ v < 64, B64u.urlSafe.digit v ≠ '|' := by decide
    rw [hdigit]
    exact hall v hv
  simp only [List.forall_mem_cons]
  exact ⟨huuid _, huuid _, hint, hsig, by simp⟩

@[simp]
theorem parseRevokedNotice_revokedNoticeMember (s : RevokeStatement)
    : parseRevokedNotice (revokedNoticeMember s) = some s := by
  have hparts := bar_not_mem_parts s
  have hascii : Utf8.latin1 (Utf8.encode (revokedNoticeMember s))
      = ['|'].intercalate [s.pairId.hyphenatedChars, s.signer.hyphenatedChars,
          Decimal.encodeInt s.revokedAt.toInt, Base64.encode B64u.urlSafe s.sig.toList] := by
    unfold revokedNoticeMember
    rw [Utf8.latin1_encode_ofList]
    . simp [List.intercalate, List.intersperse]
    . intro c hc
      simp only [List.mem_append, List.mem_cons] at hc
      simp only [List.forall_mem_cons] at hparts
      rcases hc with hc | rfl | hc | rfl | hc | rfl | hc
      . exact (hparts.1 c hc).2
      . decide
      . exact (hparts.2.1 c hc).2
      . decide
      . exact (hparts.2.2.1 c hc).2
      . decide
      . exact (hparts.2.2.2.1 c hc).2
  unfold parseRevokedNotice
  rw [hascii, List.splitOn_intercalate]
  . simp [Uuid.parse_hyphenatedChars, Base64.decode_encode]
  . intro part hpart hbar
    exact (hparts part hpart '|' hbar).1 rfl
  . simp

theorem revokedNoticeMember_injective {s s' : RevokeStatement}
    (h : revokedNoticeMember s = revokedNoticeMember s') : s = s' := by
  have hparse := parseRevokedNotice_revokedNoticeMember s
  rw [h, parseRevokedNotice_revokedNoticeMember] at hparse
  exact (Option.some.inj hparse).symm

/--
What happens to the notice sets: the two calls, and Redis dropping the set of a device whose time
is up.
-/
inductive NoticeCall where
  | add (peer : Uuid) (s : RevokeStatement)
  | take (deviceId : Uuid)
  | expire (deviceId : Uuid)
deriving DecidableEq

namespace NoticeCall

def step (notices : Notices) : NoticeCall → Notices
  | add peer s => addRevokedNotice notices peer s
  | take deviceId => (takeRevokedNotices notices deviceId).1
  | expire deviceId => Function.update notices deviceId []

/--
The notice sets after any number of calls.
-/
def run (calls : List NoticeCall) : Notices :=
  calls.foldl step (fun _ => [])

/--
The call leaves the device without notices.
-/
def empties (d : Uuid) : NoticeCall → Bool
  | add _ _ => false
  | take deviceId => deviceId = d
  | expire deviceId => deviceId = d

/--
The calls after the last one that left the device without notices.
-/
def sinceEmptied (d : Uuid) (calls : List NoticeCall) : List NoticeCall :=
  (calls.reverse.takeWhile (!empties d ·)).reverse

theorem run_concat (calls : List NoticeCall) (c : NoticeCall)
    : run (calls ++ [c]) = step (run calls) c := by
  simp [run]

theorem sinceEmptied_concat (d : Uuid) (calls : List NoticeCall) (c : NoticeCall)
    : sinceEmptied d (calls ++ [c])
        = if empties d c then [] else sinceEmptied d calls ++ [c] := by
  unfold sinceEmptied
  rw [List.reverse_concat, List.takeWhile_cons]
  cases empties d c <;> simp

theorem step_of_empties {d : Uuid} {c : NoticeCall} (h : empties d c) (notices : Notices)
    : step notices c d = [] := by
  cases c with
  | add peer s => cases h
  | take deviceId =>
    rw [← of_decide_eq_true h]
    exact Function.update_self ..
  | expire deviceId =>
    rw [← of_decide_eq_true h]
    exact Function.update_self ..

theorem step_of_not_empties {d : Uuid} {c : NoticeCall} (h : ¬ empties d c) (notices : Notices)
    : (∃ s, c = add d s ∧ step notices c d = (notices d).insert (revokedNoticeMember s))
      ∨ (∀ s, c ≠ add d s) ∧ step notices c d = notices d := by
  cases c with
  | add peer s =>
    by_cases hpeer : peer = d
    . subst hpeer
      exact .inl ⟨s, rfl, Function.update_self ..⟩
    . refine .inr ⟨?_, Function.update_of_ne (Ne.symm hpeer) ..⟩
      intro s' heq
      cases heq
      exact hpeer rfl
  | take deviceId =>
    have hne : deviceId ≠ d := by simpa [empties] using h
    exact .inr ⟨nofun, Function.update_of_ne hne.symm ..⟩
  | expire deviceId =>
    have hne : deviceId ≠ d := by simpa [empties] using h
    exact .inr ⟨nofun, Function.update_of_ne hne.symm ..⟩

/--
The set of a device holds the members of the statements added since it was empty, each once.
-/
theorem run_spec (calls : List NoticeCall) (d : Uuid)
    : (run calls d).Nodup ∧ ∀ m, m ∈ run calls d
        ↔ ∃ s, add d s ∈ sinceEmptied d calls ∧ m = revokedNoticeMember s := by
  induction calls using List.reverseRecOn with
  | nil => simp [run, sinceEmptied]
  | append_singleton calls c ih =>
    have ⟨hnodup, hmem⟩ := ih
    rw [run_concat, sinceEmptied_concat]
    by_cases hempties : empties d c
    . rw [step_of_empties hempties, if_pos hempties]
      simp
    . rw [if_neg hempties]
      obtain ⟨s, hc, hstep⟩ | ⟨hc, hstep⟩ := step_of_not_empties hempties (run calls)
      . rw [hstep]
        refine ⟨hnodup.insert, ?_⟩
        intro m
        rw [List.mem_insert_iff, hmem, hc]
        simp only [List.mem_append, List.mem_singleton, add.injEq, true_and, or_and_right,
          exists_or, exists_eq_left]
        exact or_comm
      . rw [hstep]
        refine ⟨hnodup, ?_⟩
        intro m
        rw [hmem]
        simp only [List.mem_append, List.mem_singleton, Ne.symm (hc _), or_false]

end NoticeCall

theorem filterMap_parseRevokedNotice {members : List String}
    (h : ∀ m ∈ members, ∃ s, m = revokedNoticeMember s)
    : (members.filterMap parseRevokedNotice).map revokedNoticeMember = members := by
  induction members with
  | nil => rfl
  | cons m members ih =>
    have ⟨s, hs⟩ := h m List.mem_cons_self
    have hrest := ih (fun m' hm' => h m' (List.mem_cons_of_mem m hm'))
    rw [hs, List.filterMap_cons, parseRevokedNotice_revokedNoticeMember]
    dsimp only
    rw [List.map_cons, hrest]

/--
A statement survives its text form, so no two statements share one. After any calls, what is taken
for a device are the statements added for it since its set was last taken or dropped, each once and
one for every member, so none is skipped.
-/
theorem queued_notices_survive_their_text
    : (∀ s, parseRevokedNotice (revokedNoticeMember s) = some s)
      ∧ (∀ s s', revokedNoticeMember s = revokedNoticeMember s' → s = s')
      ∧ ∀ calls d,
        (takeRevokedNotices (NoticeCall.run calls) d).2.Nodup
        ∧ (∀ s, s ∈ (takeRevokedNotices (NoticeCall.run calls) d).2
            ↔ .add d s ∈ NoticeCall.sinceEmptied d calls)
        ∧ (takeRevokedNotices (NoticeCall.run calls) d).2.map revokedNoticeMember
            = NoticeCall.run calls d := by
  refine ⟨parseRevokedNotice_revokedNoticeMember, fun s s' => revokedNoticeMember_injective, ?_⟩
  intro calls d
  have ⟨hnodup, hmem⟩ := NoticeCall.run_spec calls d
  have hmap : (takeRevokedNotices (NoticeCall.run calls) d).2.map revokedNoticeMember
      = NoticeCall.run calls d := by
    apply filterMap_parseRevokedNotice
    intro m hm
    have ⟨s, _, hs⟩ := (hmem m).mp hm
    exact ⟨s, hs⟩
  refine ⟨List.Nodup.of_map _ (hmap ▸ hnodup), ?_, hmap⟩
  intro s
  rw [← List.mem_map_of_injective (fun _ _ => revokedNoticeMember_injective), hmap, hmem]
  constructor
  . intro ⟨s', hadd, heq⟩
    rw [revokedNoticeMember_injective heq]
    exact hadd
  . intro hadd
    exact ⟨s, hadd, rfl⟩

end HandLiveRelay.Presence
