import HandLiveRelay.System.Notices

/-!
This module contains the silent removal of a device. The request deletes the presence of the device
before it closes its connection, so that the cleanup of the connection finds no presence to drop
and tells the peers nothing. This fails if the connection sets the key again in between, which is
what its periodic refresh does with a missing key.
-/

namespace HandLiveRelay

open Fiber Wire

theorem presenceMessage_inj {pairId pairId' peer peer' : Uuid} {b b' : Bool}
    (h : presenceMessage pairId peer b = presenceMessage pairId' peer' b')
    : pairId = pairId' ∧ peer = peer' ∧ b = b' := by
  unfold presenceMessage at h
  have hlen : ∀ u v : Uuid, u.hyphenated.toList.length = v.hyphenated.toList.length := by
    intro u v
    simp [Uuid.hyphenated, Uuid.length_hyphenatedChars]
  simp only [← String.toList_inj, String.toList_append, List.append_assoc] at h
  rw [List.append_cancel_left_eq] at h
  have hb : b = b' := by
    cases b <;> cases b' <;> simp [boolText] at h ⊢
  subst hb
  rw [List.append_cancel_left_eq, List.append_cancel_left_eq] at h
  have ⟨hpair, h⟩ := List.append_inj h (hlen _ _)
  rw [List.append_cancel_left_eq] at h
  have ⟨hpeer, _⟩ := List.append_inj h (hlen _ _)
  rw [String.toList_inj] at hpair hpeer
  exact ⟨Uuid.hyphenated_injective hpair, Uuid.hyphenated_injective hpeer, rfl⟩

/--
Only the cleanup of a connection of the device tells a peer that the device is gone, after it has
deleted the key.
-/
theorem deleted_of_did_offline {me : Ident} {t : ConnTrace} (h : Permitted me t)
    {peer pairId d : Uuid} {r : Option Nat}
    (hdid : Did t (.publish peer (.control (presenceMessage pairId d false))) r)
    : me.deviceId = d ∧ Did t .release (some true) := by
  have ⟨stage, s, rest, hsuffix, hp⟩ := h.did hdid
  have hrest := (List.suffix_cons _ _).trans hsuffix
  generalize hmsg : BusMessage.control (presenceMessage pairId d false) = msg at hp
  cases hp with
  | replace _ _ => cases hmsg
  | comeOnline _ =>
    injection hmsg with heq
    exact absurd (presenceMessage_inj heq).2.2 (by simp)
  | rvJoined =>
    injection hmsg with heq
    exact absurd heq (presenceMessage_ne_rvJoinedMessage _ _ _ _ _)
  | rvMsg =>
    injection hmsg with heq
    exact absurd heq (presenceMessage_ne_rvMsgMessage _ _ _ _ _)
  | forward hforward =>
    subst hmsg
    cases hforward
  | goOffline _ hrel _ =>
    injection hmsg with heq
    exact ⟨(presenceMessage_inj heq).2.1.symm, hrel.of_suffix hrest⟩

/--
A connection never publishes a revocation.
-/
theorem not_did_publish_pairRevoked {me : Ident} {t : ConnTrace} (h : Permitted me t)
    {peer : Uuid} {st : RevokeStatement} {r : Option Nat}
    : ¬ Did t (.publish peer (.pairRevoked st)) r := by
  intro hdid
  have ⟨stage, s, rest, _, hp⟩ := h.did hdid
  cases hp with
  | forward hforward => cases hforward

namespace World

variable {env : Env} {w w' : World}

/--
In this step a claim or a refresh of a connection of the device is carried out.
-/
def setsPresence (d : Uuid) (w : World) : Label → Bool
  | .exec c f => decide (f ≠ .fail) && (w.conns c).any fun t =>
      decide (t.me.deviceId = d) && (t.next? = some .claim || t.next? = some .refresh)
  | _ => false

theorem setsPresence_eq_true {d c : Uuid} {f : Fault} {t : ConnTask} (hc : w.conns c = some t)
    (hf : f ≠ .fail) (hd : t.me.deviceId = d)
    (hnext : t.next? = some .claim ∨ t.next? = some .refresh)
    : w.setsPresence d (.exec c f) = true := by
  simp only [setsPresence, hc, Option.any_some, hd, decide_eq_true hf, decide_true, Bool.true_and,
    Bool.or_eq_true, decide_eq_true_eq]
  exact hnext

/--
The device has no presence, and whichever connection deleted it had done so in the state `w1`.
-/
structure Vacated (env : Env) (d : Uuid) (w1 w : World) : Prop where
  sound : Sound env w
  absent : w.presence d = none
  deleted : ∀ c t, w.conns c = some t → t.me.deviceId = d → Did t.trace .release (some true)
    → ∃ t1, w1.conns c = some t1 ∧ Did t1.trace .release (some true)

theorem Vacated.absent_step {d : Uuid} {w1 : World} {l : Label} (h : Vacated env d w1 w)
    (hl : w.setsPresence d l = false) (hstep : w.step env l = some w') : w'.presence d = none := by
  have hpresence := step_presence hstep d
  generalize w'.presence d = key at hpresence ⊢
  cases hpresence with
  | same => exact h.absent
  | claimed hc hprog hf hd =>
    rw [setsPresence_eq_true hc hf hd (.inl (ConnTask.next?_eq_some.mpr ⟨_, _, hprog⟩))] at hl
    cases hl
  | refreshed hc hprog hf hd _ =>
    rw [setsPresence_eq_true hc hf hd (.inr (ConnTask.next?_eq_some.mpr ⟨_, _, hprog⟩))] at hl
    cases hl
  | released _ _ _ _ => rfl
  | deleted _ => rfl
  | expired => rfl

theorem Vacated.deleted_step {d : Uuid} {w1 : World} {l : Label} (h : Vacated env d w1 w)
    (hstep : w.step env l = some w') {c : Uuid} {t' : ConnTask} (hc' : w'.conns c = some t')
    (hd : t'.me.deviceId = d) (hdel : Did t'.trace .release (some true))
    : ∃ t1, w1.conns c = some t1 ∧ Did t1.trace .release (some true) := by
  have htask := step_task hstep c
  rw [hc'] at htask
  generalize hu : some t' = u at htask
  cases htask with
  | same _ => exact h.deleted c t' hu.symm hd hdel
  | connected _ =>
    cases hu
    simp [ConnTask.new, Did] at hdel
  | handled hc _ _ =>
    cases hu
    rw [ConnTask.handle_me] at hd
    rw [ConnTask.handle_trace] at hdel
    exact h.deleted c _ hc hd hdel
  | @resumed f t s o k w2 r hc hprog hperf =>
    cases hu
    rw [ConnTask.resume_me] at hd
    rw [ConnTask.resume_trace] at hdel
    obtain ⟨s1, hs1⟩ := hdel
    cases List.mem_cons.mp hs1 with
    | inl heq =>
      -- there is no key to delete
      cases heq
      have hheld := held_of_released hperf
      rw [hd, h.absent] at hheld
      cases hheld
    | inr hs1 => exact h.deleted c t hc hd ⟨s1, hs1⟩

theorem vacated_run {d : Uuid} {w1 : World} {ls : List Label} (h : Vacated env d w1 w)
    (hls : Lts.Meets (World.step env) (fun w l => w.setsPresence d l = false) w ls)
    (hrun : run env w ls = some w') : Vacated env d w1 w' := by
  refine Lts.run_invariant (P := Vacated env d w1) ?_ h hls hrun
  intro w l w' hok hl hstep
  exact ⟨hok.sound.step hstep, hok.absent_step hl hstep,
    fun c t hc hd hdel => hok.deleted_step hstep hc hd hdel⟩

/--
The request has deleted the presence of the device.
-/
theorem vacated_job {d : Uuid} {k : Nat} {f : Fault} {actions : List Action}
    (hsound : Sound env w) (hjob : w.jobs[k]? = some (.delPresence d :: actions)) (hf : f ≠ .fail)
    (hstep : w.step env (.job k f) = some w') : Vacated env d w w' := by
  have ⟨a, actions', hjob', hw'⟩ := job_eq_some hstep
  rw [hjob] at hjob'
  cases hjob'
  refine ⟨hsound.step hstep, ?_, ?_⟩
  . subst hw'
    cases f with
    | fail => exact absurd rfl hf
    | _ => simp [act, Fault.command]
  . intro c t hc _ hdel
    rw [hw', (act_frame env _ _ _).1.conns] at hc
    exact ⟨t, hc, hdel⟩

end World

/--
What is done after the silent removal of a device: the peers are only told that their pairs
changed.
-/
theorem deleteMe_silent {crypto : Crypto} {db : Db} {nowMs : Int64} {d : Uuid}
    {limit : Option ApiError} {body : Except ApiError (List Revocation)} {a : Action}
    (h : a ∈ (Routes.Devices.deleteMe crypto db nowMs d limit false body).actions)
    : (∃ peer, a = .notify peer .pairsChanged) ∨ a = .delPresence d
      ∨ a = .notify d (.close closeNormal) := by
  unfold Routes.Devices.deleteMe at h
  split at h
  . cases h
  . split at h
    . cases h
    . dsimp only at h
      split at h
      . cases h
      next revocations hrev =>
        have hnone : revocations = none := by
          have ⟨_, _, heq⟩ := Except.bind_eq_ok.mp hrev
          cases heq
          rfl
        subst hnone
        simp only [Devices.deleteWithPeers, Routes.Devices.checkHeld, List.flatMap_map,
          List.mem_append, List.mem_flatMap, Routes.Devices.tellPeer, List.mem_cons,
          List.not_mem_nil, or_false] at h
        cases h with
        | inl h =>
          have ⟨p, _, heq⟩ := h
          exact .inl ⟨_, heq⟩
        | inr h => exact .inr h

/--
The removal of a device adds no revocation to those the database has for its peers.
-/
theorem recentlyRevoked_deleteMe {crypto : Crypto} {db : Db} {nowMs : Int64} {d : Uuid}
    {limit : Option ApiError} {revokePairs : Bool} {body : Except ApiError (List Revocation)}
    (peer : Uuid) (now : Int64)
    : Pairs.recentlyRevoked
        (Routes.Devices.deleteMe crypto db nowMs d limit revokePairs body).db peer now
      ⊆ Pairs.recentlyRevoked db peer now := by
  have hdeleted : ∀ p, Pairs.recentlyRevoked (db.deleteDevices p) peer now
      ⊆ Pairs.recentlyRevoked db peer now := by
    intro p
    apply List.filterMap_subset
    apply List.filter_subset
    apply List.filter_subset_self
  unfold Routes.Devices.deleteMe Devices.deleteWithPeers
  split
  . exact List.Subset.refl _
  . split
    . exact List.Subset.refl _
    . dsimp only
      split
      . exact List.Subset.refl _
      . cases Routes.Devices.checkHeld crypto d _ nowMs _ (Devices.heldPairs db d) with
        | error e => exact List.Subset.refl _
        | ok told => apply hdeleted

/--
A silent removal stays silent if the device does not set its presence again. After the request of
a silent removal anything may happen up to the deletion of the presence of the device. If from then
on no connection of the device claims or refreshes presence, a connection tells a peer that the
device is gone only if it had deleted the presence itself before the request did, so not because of
the removal. The request tells no peer so either, and neither the request, nor a connection, nor
the database shows a revocation because of it.
-/
theorem silent_removal_stays_silent {env : Env} {db : Db} {ls ls1 ls2 : List Label}
    {w w0 w1 w2 : World} {d : Uuid} {limit : Option ApiError}
    {body : Except ApiError (List Revocation)} {f : Fault} {actions : List Action}
    (hrun : run env (World.init db) ls = some w)
    (hreq : w.step env (.http (.deleteMe d limit false body)) = some w0)
    (hrun1 : run env w0 ls1 = some w1)
    (hjob : w1.jobs[w.jobs.length]? = some (.delPresence d :: actions)) (hf : f ≠ .fail)
    (hrun2 : run env w1 (.job w.jobs.length f :: ls2) = some w2)
    (hls : Lts.Meets (World.step env) (fun w l => w.setsPresence d l = false) w1
      (.job w.jobs.length f :: ls2))
    : (∃ told, w0.jobs = w.jobs ++ [told] ∧ ∀ a ∈ told, (∃ peer, a = .notify peer .pairsChanged)
        ∨ a = .delPresence d ∨ a = .notify d (.close closeNormal))
      ∧ (∀ peer now, Pairs.recentlyRevoked w0.db peer now ⊆ Pairs.recentlyRevoked w.db peer now)
      ∧ ∀ c t2, w2.conns c = some t2 → ∀ peer r,
        (∀ st, ¬ Did t2.trace (.publish peer (.pairRevoked st)) r)
        ∧ ∀ pairId, Did t2.trace (.publish peer (.control (presenceMessage pairId d false))) r
          → ∃ t1, w1.conns c = some t1 ∧ Did t1.trace .release (some true) := by
  have hsound1 : World.Sound env w1 :=
    Lts.run_stable (fun _ _ _ h hstep => h.step hstep) ((World.sound_run hrun).step hreq) hrun1
  have ⟨w1', hstep, hrun2⟩ := (Lts.run_cons_eq_some _).mp hrun2
  have hvacated := World.vacated_run (World.vacated_job hsound1 hjob hf hstep)
    (hls.2 w1' hstep) hrun2
  cases hreq
  refine ⟨⟨_, rfl, fun a ha => deleteMe_silent ha⟩, fun _ _ => recentlyRevoked_deleteMe _ _, ?_⟩
  intro c t2 hc peer r
  have ⟨mark, hat⟩ := hvacated.sound.tasks c t2 hc
  refine ⟨fun st => not_did_publish_pairRevoked hat.permitted, ?_⟩
  intro pairId hdid
  have ⟨hd, hdel⟩ := deleted_of_did_offline hat.permitted hdid
  exact hvacated.deleted c t2 hc hd hdel

namespace Sample

/--
The request for the silent removal of the first device.
-/
def removal : Request :=
  .deleteMe (device 1) none false (.ok [])

/--
Both devices of a pair connect, on different instances, and read what the bus has for them.
-/
def bothOpen : List Label :=
  opensPaired "a" (uuid 1) (device 1) ++ replaced "a" (uuid 1) (uuid 1)
    ++ opensPaired "b" (uuid 2) (device 2) ++ replaced "b" (uuid 2) (uuid 2)
    ++ [Label.busMessage "a",
      .event (uuid 1) (.delivery (.bus (.control (presenceMessage pairId (device 2) true))))]
    ++ execs 2 (uuid 1)

/--
The close message is published and reaches the connection of the first device.
-/
def isClosed : List Label :=
  [.job 0 .ok, .busMessage "a", .event (uuid 1) (.delivery (.bus (.close closeNormal)))]

/--
The connection of the second device takes what the bus has for it.
-/
def peerHears : List Label :=
  [Label.busMessage "b", .event (uuid 2) (.delivery (.bus .pairsChanged))] ++ execs 2 (uuid 2)
    ++ [Label.busMessage "b",
      .event (uuid 2) (.delivery (.bus (.control (presenceMessage pairId (device 1) false))))]
    ++ execs 2 (uuid 2)

end Sample

theorem removed_device_leaves_silently
    : ∃ w w0 w1 w2 t, run Sample.relay (World.init Sample.pairedDb) Sample.bothOpen = some w
      ∧ w.step Sample.relay (.http Sample.removal) = some w0
      ∧ run Sample.relay w0 [.job 0 .ok] = some w1
      ∧ run Sample.relay w1 (.job 0 .ok :: (Sample.isClosed ++ Sample.execs 5 (Sample.uuid 1)))
        = some w2
      ∧ w2.conns (Sample.uuid 1) = some t ∧ t.ended
      ∧ ∀ peer pairId r, ¬ Did t.trace
        (.publish peer (.control (presenceMessage pairId (Sample.device 1) false))) r := by
  have hrun : (run Sample.relay (World.init Sample.pairedDb) Sample.bothOpen).any (fun w =>
      decide (w.jobs.length = 0)
        && (w.step Sample.relay (.http Sample.removal)).any (fun w0 =>
          (run Sample.relay w0 [.job 0 .ok]).any (fun w1 =>
            decide (w1.jobs[0]? = some [.delPresence (Sample.device 1),
                .notify (Sample.device 1) (.close closeNormal)])
              && (w1.conns (Sample.uuid 1)).any (fun t1 => !t1.deleted)
              && decide (Lts.Meets (World.step Sample.relay)
                (fun w l => w.setsPresence (Sample.device 1) l = false) w1
                (.job 0 .ok :: (Sample.isClosed ++ Sample.execs 5 (Sample.uuid 1))))
              && (run Sample.relay w1
                  (.job 0 .ok :: (Sample.isClosed ++ Sample.execs 5 (Sample.uuid 1)))).any
                (fun w2 => (w2.conns (Sample.uuid 1)).any (·.ended))))) = true := by
    decide +kernel
  simp only [Option.any_eq_true, Bool.and_eq_true, decide_eq_true_eq, Bool.not_eq_true'] at hrun
  have ⟨w, hw, hlen, w0, hw0, w1, hw1, ⟨⟨hjob, t1, ht1, hdel⟩, hmeets⟩, w2, hw2, t, ht, hended⟩ :=
    hrun
  rw [← hlen] at hjob hmeets
  have hsilent := silent_removal_stays_silent hw hw0 hw1 hjob (f := .ok) (by simp)
    (hlen ▸ hw2) hmeets
  refine ⟨w, w0, w1, w2, t, hw, hw0, hw1, hw2, ht, hended, ?_⟩
  intro peer pairId r hdid
  have ⟨t1', ht1', hdid1⟩ := (hsilent.2.2 _ t ht peer r).2 pairId hdid
  rw [ht1] at ht1'
  cases ht1'
  rw [← ConnTask.deleted_iff, hdel] at hdid1
  cases hdid1

/--
The refresh of the removed device breaks the silence. The device has one connection, which is open
when the request deletes its presence. The connection refreshes before it is closed, so that there
is a key again, its cleanup deletes the key, and the peer is told that the device is gone.
-/
theorem refresh_breaks_the_silence
    : (run Sample.relay (World.init Sample.pairedDb)
          (Sample.bothOpen ++ [.http Sample.removal, .job 0 .ok])).any (fun w1 =>
        decide (w1.jobs[0]? = some [.delPresence (Sample.device 1),
            .notify (Sample.device 1) (.close closeNormal)])
          && decide (w1.connects = [Sample.uuid 2, Sample.uuid 1])
          && (w1.conns (Sample.uuid 1)).any (fun t1 => t1.serving
            && decide (t1.me.deviceId = Sample.device 1))
          && (run Sample.relay w1 ([.job 0 .ok, .event (Sample.uuid 1) .refresh,
              .exec (Sample.uuid 1) .ok] ++ Sample.isClosed ++ Sample.execs 6 (Sample.uuid 1)
              ++ Sample.peerHears)).any (fun w2 =>
            (w2.conns (Sample.uuid 1)).any (·.ended)
              && (w2.conns (Sample.uuid 2)).any (fun t2 =>
                decide (t2.me.deviceId = Sample.device 2)
                  && decide (presenceMessage Sample.pairId (Sample.device 1) false
                    ∈ texts t2.trace)))) = true := by
  decide +kernel

end HandLiveRelay
