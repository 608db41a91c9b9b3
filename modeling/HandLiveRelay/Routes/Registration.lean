import HandLiveRelay.Lib.Except
import HandLiveRelay.Lib.Overflow
import HandLiveRelay.Routes.Devices

/-!
This module contains what the check of a registration accepts. The distance between the two clocks
is taken in 64 bit arithmetic, so it is the distance of the two times only as long as their
difference fits.
-/

namespace HandLiveRelay.Routes.Devices

section

variable (crypto : Crypto)

/--
`verifyRegistration` in a build that checks for overflow: the outer `none` is a panic.
-/
def verifyRegistrationChecked (req : RegisterRequest) (nowMs : Int64)
    : Option (Except ApiError (Platform × Bytes 32)) :=
  let chars := req.appVersion.length
  match Platform.ofStr? req.platform with
  | none => some (.error .badRequest)
  | some platform =>
    if chars = 0 ∨ chars > appVersionMaxChars then
      some (.error .badRequest)
    else
      match B64u.decodeField 32 req.ikSigPub, B64u.decodeField 64 req.sig with
      | .error e, _ => some (.error e)
      | .ok _, .error e => some (.error e)
      | .ok ikSigPub, .ok sig => do
        let diff ← nowMs.checkedSub req.ts
        let skew ← diff.checkedAbs
        if skew > maxTsSkewMs then
          return .error .signatureInvalid
        else
          let msg := registrationMessage req.deviceId ikSigPub req.platform req.ts
          match verifyDeviceSignature crypto req.deviceId ikSigPub msg sig with
          | .ok () => return .ok (platform, ikSigPub)
          | .error e => return .error e

/--
What is checked before the time: the platform, the version, and that key and signature decode.
-/
structure Shaped (req : RegisterRequest) : Prop where
  platform : req.platform ∈ ["android", "macos", "ios", "ipados"]
  version : 1 ≤ req.appVersion.length ∧ req.appVersion.length ≤ 32
  publicKey : ∃ key : Bytes 32, B64u.decode req.ikSigPub = some key.toList
  sig : ∃ sig : Bytes 64, B64u.decode req.sig = some sig.toList

/--
A registration as the relay is to accept it, with the public key it carries.
-/
structure Valid (req : RegisterRequest) (nowMs : Int64) (key : Bytes 32) : Prop where
  platform : req.platform ∈ ["android", "macos", "ios", "ipados"]
  version : 1 ≤ req.appVersion.length ∧ req.appVersion.length ≤ 32
  publicKey : B64u.decode req.ikSigPub = some key.toList
  recent : (nowMs.toInt - req.ts.toInt).natAbs ≤ 300000
  signed : ∃ sig : Bytes 64, B64u.decode req.sig = some sig.toList
    ∧ SignedBy crypto req.deviceId key
      (registrationMessage req.deviceId key req.platform req.ts) sig

end

variable {crypto : Crypto} {req : RegisterRequest} {nowMs : Int64}

theorem isSome_ofStr? {s : String}
    : (Platform.ofStr? s).isSome ↔ s ∈ ["android", "macos", "ios", "ipados"] := by
  unfold Platform.ofStr?
  rw [List.find?_isSome]
  simp only [decide_eq_true_eq]
  constructor
  . intro ⟨p, _, hp⟩
    rw [← hp]
    cases p <;> decide
  . intro hs
    have hall : ∀ s ∈ ["android", "macos", "ios", "ipados"],
        ∃ p ∈ [Platform.android, .macos, .ios, .ipados], p.asStr = s := by decide
    exact hall s hs

theorem Valid.shaped {key : Bytes 32} (h : Valid crypto req nowMs key) : Shaped req where
  platform := h.platform
  version := h.version
  publicKey := ⟨key, h.publicKey⟩
  sig := by
    obtain ⟨sig, hsig, _⟩ := h.signed
    exact ⟨sig, hsig⟩

/--
What is left of the check once shape and fields are fine.
-/
theorem verifyRegistration_eq_ok {platform : Platform} {key : Bytes 32}
    : verifyRegistration crypto req nowMs = .ok (platform, key)
      ↔ Platform.ofStr? req.platform = some platform
        ∧ (1 ≤ req.appVersion.length ∧ req.appVersion.length ≤ 32)
        ∧ B64u.decode req.ikSigPub = some key.toList
        ∧ ¬ (nowMs - req.ts).abs > maxTsSkewMs
        ∧ ∃ sig : Bytes 64, B64u.decode req.sig = some sig.toList
          ∧ SignedBy crypto req.deviceId key
            (registrationMessage req.deviceId key req.platform req.ts) sig := by
  unfold verifyRegistration
  dsimp only
  cases hplatform : Platform.ofStr? req.platform with
  | none => simp
  | some p =>
    dsimp only
    split
    . next hversion =>
      unfold appVersionMaxChars at hversion
      constructor
      . intro h
        cases h
      . intro ⟨_, hlen, _⟩
        omega
    . next hversion =>
      unfold appVersionMaxChars at hversion
      rw [Except.bind_eq_ok]
      constructor
      . intro ⟨key', hkey, h⟩
        have ⟨sig, hsig, h⟩ := Except.bind_eq_ok.mp h
        split at h
        . cases h
        . next hskew =>
          split at h
          . next hverify =>
            cases h
            exact ⟨rfl, by omega, B64u.decodeField_eq_ok.mp hkey, hskew, sig,
              B64u.decodeField_eq_ok.mp hsig, verifyDeviceSignature_eq_ok.mp hverify⟩
          . cases h
      . intro ⟨hp, _, hkey, hskew, sig, hsig, hsigned⟩
        cases hp
        refine ⟨key, B64u.decodeField_eq_ok.mpr hkey, ?_⟩
        rw [Except.bind_eq_ok]
        refine ⟨sig, B64u.decodeField_eq_ok.mpr hsig, ?_⟩
        rw [if_neg hskew, verifyDeviceSignature_eq_ok.mpr hsigned]

/--
The difference of the clock of the relay and `ts` does not overflow. It is negative only if `ts` is
in the future, so it can only be too large.
-/
def TsFits (nowMs ts : Int64) : Prop :=
  nowMs.toInt - ts.toInt < 2 ^ 63

section

variable {ts : Int64} (hnow : 0 ≤ nowMs) (hfits : TsFits nowMs ts)

include hnow hfits

theorem diff_bounds : -2 ^ 63 < nowMs.toInt - ts.toInt ∧ nowMs.toInt - ts.toInt < 2 ^ 63 := by
  have hnow : 0 ≤ nowMs.toInt := by simpa [Int64.le_iff_toInt_le] using hnow
  have hts := ts.toInt_lt
  exact ⟨by omega, hfits⟩

theorem toInt_diff : (nowMs - ts).toInt = nowMs.toInt - ts.toInt := by
  have ⟨hlo, hhi⟩ := diff_bounds hnow hfits
  exact Int64.toInt_sub_of_fits hlo.le hhi

theorem toInt_skew : (nowMs - ts).abs.toInt = (nowMs.toInt - ts.toInt).natAbs := by
  have ⟨hlo, _⟩ := diff_bounds hnow hfits
  have hdiff := toInt_diff hnow hfits
  rw [Int64.toInt_abs_of_ne (by omega), hdiff]

theorem skew_iff : ¬ (nowMs - ts).abs > maxTsSkewMs ↔ (nowMs.toInt - ts.toInt).natAbs ≤ 300000 := by
  have hmax : maxTsSkewMs.toInt = 300000 := by decide
  rw [gt_iff_lt, Int64.lt_iff_toInt_lt, toInt_skew hnow hfits, hmax]
  omega

theorem checked_skew
    : ((nowMs.checkedSub ts).bind fun diff => diff.checkedAbs) = some (nowMs - ts).abs := by
  have ⟨hlo, hhi⟩ := diff_bounds hnow hfits
  have hdiff := toInt_diff hnow hfits
  unfold Int64.checkedSub Int64.checkedAbs
  rw [if_pos ⟨hlo.le, hhi⟩, Option.bind_some, if_neg (by omega)]

end

/--
The two builds agree if the difference fits wherever the check comes to it.
-/
theorem verifyRegistrationChecked_eq (hnow : 0 ≤ nowMs) (h : Shaped req → TsFits nowMs req.ts)
    : verifyRegistrationChecked crypto req nowMs = some (verifyRegistration crypto req nowMs) := by
  unfold verifyRegistrationChecked verifyRegistration
  dsimp only
  cases hplatform : Platform.ofStr? req.platform with
  | none => rfl
  | some platform =>
    dsimp only
    split
    . rfl
    next hversion =>
      cases hkey : B64u.decodeField 32 req.ikSigPub with
      | error e => rfl
      | ok key =>
        cases hsig : B64u.decodeField 64 req.sig with
        | error e => rfl
        | ok sig =>
          have hfits := h {
            platform := isSome_ofStr?.mp (by rw [hplatform]; rfl)
            version := by
              unfold appVersionMaxChars at hversion
              omega
            publicKey := ⟨key, B64u.decodeField_eq_ok.mp hkey⟩
            sig := ⟨sig, B64u.decodeField_eq_ok.mp hsig⟩
          }
          obtain ⟨diff, hdiff, hskew⟩ := Option.bind_eq_some_iff.mp (checked_skew hnow hfits)
          rw [hdiff]
          dsimp only [Option.bind_eq_bind, Option.bind_some]
          rw [hskew, Option.bind_some]
          change _ = some (if (nowMs - req.ts).abs > maxTsSkewMs then _ else _)
          split
          . rfl
          . cases verifyDeviceSignature crypto req.deviceId key
              (registrationMessage req.deviceId key req.platform req.ts) sig <;> rfl

/--
A registration that comes to the difference panics if that does not fit.
-/
theorem verifyRegistrationChecked_eq_none (hshaped : Shaped req) (h : ¬ TsFits nowMs req.ts)
    : verifyRegistrationChecked crypto req nowMs = none := by
  obtain ⟨platform, hplatform⟩ := Option.isSome_iff_exists.mp (isSome_ofStr?.mpr hshaped.platform)
  obtain ⟨key, hkey⟩ := hshaped.publicKey
  obtain ⟨sig, hsig⟩ := hshaped.sig
  have hsub : nowMs.checkedSub req.ts = none := by
    unfold Int64.checkedSub
    rw [if_neg fun hfits => h hfits.2]
  have hversion : ¬ (req.appVersion.length = 0 ∨ req.appVersion.length > appVersionMaxChars) := by
    have := hshaped.version
    unfold appVersionMaxChars
    omega
  unfold verifyRegistrationChecked
  dsimp only
  rw [hplatform]
  dsimp only
  rw [if_neg hversion, B64u.decodeField_eq_ok.mpr hkey, B64u.decodeField_eq_ok.mpr hsig, hsub]
  rfl

/--
No arithmetic overflows and exactly the valid registrations pass, if and only if the difference of
the two times fits or one of the checks before it fails.
-/
theorem registration_check_is_exact (crypto : Crypto) (req : RegisterRequest) (nowMs : Int64)
    (hnow : 0 ≤ nowMs)
    : (TsFits nowMs req.ts ∨ ¬ Shaped req)
      ↔ verifyRegistrationChecked crypto req nowMs = some (verifyRegistration crypto req nowMs)
        ∧ ∀ key, (∃ platform, verifyRegistration crypto req nowMs = .ok (platform, key))
          ↔ Valid crypto req nowMs key := by
  constructor
  . intro h
    have hfits : Shaped req → TsFits nowMs req.ts := h.resolve_right ∘ not_not.mpr
    refine ⟨verifyRegistrationChecked_eq hnow hfits, ?_⟩
    intro key
    constructor
    . rintro ⟨platform, hok⟩
      obtain ⟨hplatform, hversion, hkey, hskew, sig, hsig, hsigned⟩ := verifyRegistration_eq_ok.mp hok
      have hknown : req.platform ∈ ["android", "macos", "ios", "ipados"] := by
        rw [← isSome_ofStr?, hplatform]
        rfl
      have hfits := hfits ⟨hknown, hversion, ⟨key, hkey⟩, ⟨sig, hsig⟩⟩
      exact ⟨hknown, hversion, hkey, (skew_iff hnow hfits).mp hskew, sig, hsig, hsigned⟩
    . intro h
      have hfits := hfits h.shaped
      obtain ⟨platform, hplatform⟩ := Option.isSome_iff_exists.mp (isSome_ofStr?.mpr h.platform)
      refine ⟨platform, verifyRegistration_eq_ok.mpr ?_⟩
      exact ⟨hplatform, h.version, h.publicKey, (skew_iff hnow hfits).mpr h.recent, h.signed⟩
  . rintro ⟨hsome, _⟩
    by_contra h
    rw [not_or, not_not] at h
    rw [verifyRegistrationChecked_eq_none h.2 h.1] at hsome
    cases hsome

namespace Sample

def registrationKey : Bytes 32 := .replicate 32 7

/--
A phone that registers with the given time, signed by its key.
-/
def registration (ts : Int64) : RegisterRequest :=
  let deviceId := deviceIdFromPublicKey .sample registrationKey
  let msg := registrationMessage deviceId registrationKey "android" ts
  {
    deviceId
    platform := "android"
    appVersion := "1.0"
    ikSigPub := B64u.encode registrationKey.toList
    ts
    sig := B64u.encode (Crypto.sampleSign registrationKey msg).toList
  }

end Sample

open Sample

theorem registration_within_skew_passes
    : verifyRegistration .sample (registration 5000) 1000 = .ok (.android, registrationKey)
      ∧ Valid .sample (registration 5000) 1000 registrationKey := by
  have hok : verifyRegistration .sample (registration 5000) 1000 = .ok (.android, registrationKey) := by
    decide +kernel
  have hexact := (registration_check_is_exact .sample (registration 5000) 1000 (by decide)).mp
    (.inl (by unfold TsFits; decide))
  exact ⟨hok, (hexact.2 registrationKey).mp ⟨.android, hok⟩⟩

/--
A time 2^63 ms before the clock of the relay: the difference wraps to the smallest number, which is
its own absolute value and below every bound.
-/
theorem ancient_registration_passes
    : verifyRegistration .sample (registration (1000 + Int64.minValue)) 1000
        = .ok (.android, registrationKey)
      ∧ (Int64.toInt 1000 - (registration (1000 + Int64.minValue)).ts.toInt).natAbs = 2 ^ 63
      ∧ ¬ Valid .sample (registration (1000 + Int64.minValue)) 1000 registrationKey
      ∧ verifyRegistrationChecked .sample (registration (1000 + Int64.minValue)) 1000 = none := by
  have hdist : (Int64.toInt 1000 - (registration (1000 + Int64.minValue)).ts.toInt).natAbs
      = 2 ^ 63 := by
    decide +kernel
  refine ⟨by decide +kernel, hdist, ?_, by decide +kernel⟩
  intro h
  have hrecent := h.recent
  rw [hdist] at hrecent
  omega

end HandLiveRelay.Routes.Devices
