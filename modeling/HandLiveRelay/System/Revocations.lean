import HandLiveRelay.Routes.Genuine
import HandLiveRelay.System.Notices
import HandLiveRelay.System.PairCheck

/-!
This module contains that every revocation a device is shown is genuine, on all three ways it can
take: as a message on the bus, as a notice in Redis and as a row of the database.
-/

namespace HandLiveRelay

open Fiber Wire

namespace World

variable {env : Env} {w w' : World}

/--
The calls that were verified stay on record.
-/
theorem step_verified {l : Label} (h : w.step env l = some w')
    : w'.verified = w.verified ∨ ∃ req, l = .http req
      ∧ w'.verified = (req.handle env.crypto w.db w.nowMs).verified ++ w.verified := by
  cases step_view h with
  | connect _ _ hw' => exact .inl (by rw [hw']; rfl)
  | exec _ _ hperf hw' => exact .inl (by rw [hw', ← (perform_sameFrame hperf).verified]; rfl)
  | event _ _ _ hw' => exact .inl (by rw [hw']; rfl)
  | bus _ hframe => exact .inl hframe.verified
  | job _ hw' => exact .inl (by rw [hw', (act_frame env _ _ _).1.verified])
  | store hl _ =>
    cases l <;> try contradiction
    case http req =>
      cases h
      exact .inr ⟨req, rfl, rfl⟩
    case tick nowMs secs =>
      unfold step at h
      dsimp only at h
      split at h
      . cases h
        exact .inl rfl
      . cases h
    case expirePresence d =>
      cases h
      exact .inl rfl
    case expireNotices d =>
      cases h
      exact .inl rfl
    case expireRv rvId =>
      cases h
      exact .inl rfl

theorem verified_subset {l : Label} (h : w.step env l = some w') : w.verified ⊆ w'.verified := by
  cases step_verified h with
  | inl heq => rw [heq]; exact List.Subset.refl _
  | inr hreq =>
    have ⟨_, _, heq⟩ := hreq
    rw [heq]
    exact List.subset_append_right _ _

/--
What a connection publishes shows nobody a revocation.
-/
theorem genuine_of_sends {t : ConnTask} {dest : Uuid} {msg : BusMessage} (h : Sends env t dest msg)
    (verified : List VerifyCall) : msg.Genuine env.crypto verified dest := by
  cases h with
  | replace => trivial
  | presence => exact isPairRevoked_presenceMessage _ _ _
  | rvJoined => exact isPairRevoked_rvJoinedMessage _ _
  | rvMsg => exact isPairRevoked_rvMsgMessage _ _
  | forward _ hin =>
    have ⟨e, _, he⟩ := List.mem_filterMap.mp hin
    cases e with
    | client m =>
      have ⟨f, hf, hmsg⟩ := forwardFor_eq_some he
      subst hmsg
      cases hf with
      | text _ _ _ _ _ _ _ => exact isPairRevoked_forwardedText _ _
      | binary _ _ _ => trivial
    | _ => cases he

/--
The statements a connection has read are genuine for its device.
-/
def ReadsGenuine (env : Env) (verified : List VerifyCall) (t : ConnTask) : Prop :=
  ∀ l, Did t.trace .recentlyRevoked (some l) ∨ Did t.trace .takeRevokedNotices (some l)
    → ∀ st ∈ l, Genuine env.crypto verified t.me.deviceId st

/--
All revocations in the system are genuine.
-/
structure GenuineOk (env : Env) (w : World) : Prop where
  sound : Sound env w
  rows : w.db.Genuine env.crypto w.verified
  jobs : ∀ a, w.Todo a → a.Genuine env.crypto w.verified
  notices : ∀ d m, m ∈ w.notices d → ∀ st, Presence.parseRevokedNotice m = some st
    → Genuine env.crypto w.verified d st
  flight : InFlight (fun d msg => msg.Genuine env.crypto w.verified d) w
  reads : ∀ c t, w.conns c = some t → ReadsGenuine env w.verified t

theorem genuineOk_init (env : Env) : GenuineOk env (init .empty) where
  sound := sound_init env .empty
  rows row hrow := by cases hrow
  jobs a htodo := by
    have ⟨_, hmem, _⟩ := htodo
    cases hmem
  notices d m hm := by cases hm
  flight := inFlight_init _ .empty
  reads c t hc := by cases hc

theorem GenuineOk.rows_step {l : Label} (h : GenuineOk env w) (hstep : w.step env l = some w')
    : w'.db.Genuine env.crypto w'.verified := by
  cases step_db hstep with
  | inl heq =>
    rw [heq]
    exact h.rows.mono (verified_subset hstep)
  | inr hreq =>
    have ⟨req, hl, _⟩ := hreq
    subst hl
    cases hstep
    exact (handle_genuine h.rows w.nowMs req).1

theorem GenuineOk.jobs_step {l : Label} (h : GenuineOk env w) (hstep : w.step env l = some w')
    {a : Action} (htodo : w'.Todo a) : a.Genuine env.crypto w'.verified := by
  cases htodo.of_step hstep with
  | inl htodo => exact (h.jobs a htodo).mono (verified_subset hstep)
  | inr hreq =>
    have ⟨req, hl, ha⟩ := hreq
    subst hl
    cases hstep
    exact (handle_genuine h.rows w.nowMs req).2 a ha

theorem GenuineOk.notices_step {l : Label} (h : GenuineOk env w) (hstep : w.step env l = some w')
    {d : Uuid} {m : String} (hm : m ∈ w'.notices d) {st : RevokeStatement}
    (hst : Presence.parseRevokedNotice m = some st) : Genuine env.crypto w'.verified d st := by
  have hsub := verified_subset hstep
  have hn := step_notices hstep d
  generalize w'.notices d = notices at hm hn
  cases hn with
  | same => exact (h.notices d m hm st hst).mono hsub
  | taken _ _ _ _ => cases hm
  | expired => cases hm
  | added hjob =>
    cases List.mem_insert_iff.mp hm with
    | inl heq =>
      rw [heq, Presence.parseRevokedNotice_revokedNoticeMember] at hst
      cases hst
      exact (h.jobs _ ⟨_, List.mem_of_getElem? hjob, List.mem_cons_self⟩).mono hsub
    | inr hm => exact (h.notices d m hm st hst).mono hsub

theorem GenuineOk.flight_step {l : Label} (h : GenuineOk env w) (hstep : w.step env l = some w')
    : InFlight (fun d msg => msg.Genuine env.crypto w'.verified d) w' := by
  have hsub := verified_subset hstep
  refine (h.flight.mono fun d msg hmsg => BusMessage.Genuine.mono hsub hmsg).step
    h.sound.wellFormed hstep (fun _ _ => trivial) ?_
  intro dest msg hpub
  cases hpub.cases h.sound.tasks with
  | inl hconn =>
    have ⟨_, _, _, _, _, _, _, _, hsends⟩ := hconn
    exact genuine_of_sends hsends _
  | inr htodo => exact BusMessage.Genuine.mono hsub (h.jobs _ htodo)

/--
What the two commands for revocations return is genuine.
-/
theorem GenuineOk.answer (h : GenuineOk env w) {me : Ident} {o : Op} {f : Fault} {w1 : World}
    {r : o.Res} (hperf : w.perform env me o f = some (w1, r)) {s : Conn}
    {l : List RevokeStatement}
    (hread : Did [⟨s, o, r⟩] .recentlyRevoked (some l) ∨ Did [⟨s, o, r⟩] .takeRevokedNotices (some l))
    {st : RevokeStatement} (hst : st ∈ l) : Genuine env.crypto w.verified me.deviceId st := by
  cases hread with
  | inl hread =>
    have ⟨s', hmem⟩ := hread
    rw [List.mem_singleton] at hmem
    cases hmem
    cases f with
    | ok =>
      cases hperf
      have ⟨row, hrow, hst⟩ := List.mem_filterMap.mp hst
      rw [List.mem_filter, decide_eq_true_eq] at hrow
      exact h.rows row hrow.1 w.nowMs st hst me.deviceId hrow.2
    | _ => cases hperf
  | inr hread =>
    have ⟨s', hmem⟩ := hread
    rw [List.mem_singleton] at hmem
    cases hmem
    cases f with
    | ok =>
      cases hperf
      have ⟨m, hm, hst⟩ := List.mem_filterMap.mp hst
      exact h.notices me.deviceId m hm st hst
    | _ => cases hperf

theorem ReadsGenuine.mono {verified' : List VerifyCall} {t t' : ConnTask}
    (h : ReadsGenuine env w.verified t) (hsub : w.verified ⊆ verified')
    (htrace : t'.trace = t.trace) (hme : t'.me = t.me) : ReadsGenuine env verified' t' := by
  intro l hl st hst
  rw [htrace] at hl
  rw [hme]
  exact (h l hl st hst).mono hsub

theorem GenuineOk.reads_step {l : Label} (h : GenuineOk env w) (hstep : w.step env l = some w')
    {c : Uuid} {t : ConnTask} (hc : w'.conns c = some t) : ReadsGenuine env w'.verified t := by
  have hsub := verified_subset hstep
  have htask := step_task hstep c
  rw [hc] at htask
  generalize hu : some t = u at htask
  cases htask with
  | same _ => exact (h.reads c t hu.symm).mono hsub rfl rfl
  | connected _ =>
    cases hu
    intro l hl
    simp [ConnTask.new, Did] at hl
  | handled hc1 _ _ =>
    cases hu
    exact (h.reads c _ hc1).mono hsub (ConnTask.handle_trace ..) (ConnTask.handle_me ..)
  | @resumed f t1 s o k w1 r hc1 hprog hperf =>
    cases hu
    intro l hl st hst
    rw [ConnTask.resume_trace] at hl
    rw [ConnTask.resume_me]
    have hcons : ∀ {o' : Op} {r' : o'.Res}, Did (⟨s, o, r⟩ :: t1.trace) o' r'
        → Did [⟨s, o, r⟩] o' r' ∨ Did t1.trace o' r' := by
      rintro o' r' ⟨s', hs'⟩
      cases List.mem_cons.mp hs' with
      | inl hs' => exact .inl ⟨s', List.mem_singleton.mpr hs'⟩
      | inr hs' => exact .inr ⟨s', hs'⟩
    cases hl with
    | inl hl =>
      cases hcons hl with
      | inl hnew => exact (h.answer hperf (.inl hnew) hst).mono hsub
      | inr hold => exact (h.reads c t1 hc1 l (.inl hold) st hst).mono hsub
    | inr hl =>
      cases hcons hl with
      | inl hnew => exact (h.answer hperf (.inr hnew) hst).mono hsub
      | inr hold => exact (h.reads c t1 hc1 l (.inr hold) st hst).mono hsub

theorem GenuineOk.step {l : Label} (h : GenuineOk env w) (hstep : w.step env l = some w')
    : GenuineOk env w' where
  sound := h.sound.step hstep
  rows := h.rows_step hstep
  jobs _ htodo := h.jobs_step hstep htodo
  notices _ _ hm _ hst := h.notices_step hstep hm hst
  flight := h.flight_step hstep
  reads _ _ hc := h.reads_step hstep hc

/--
A revocation that a connection is about to write is genuine.
-/
theorem GenuineOk.next (h : GenuineOk env w) {c : Uuid} {t : ConnTask} (hc : w.conns c = some t)
    {text : String} (hnext : t.next? = some (.sendText text)) (hop : isPairRevoked text)
    : ∃ st, text = pairRevokedMessage st
      ∧ Genuine env.crypto w.verified t.me.deviceId st := by
  have ⟨s, k, hprog⟩ := ConnTask.next?_eq_some.mp hnext
  have ⟨mark, hat⟩ := h.sound.tasks c t hc
  have hp := (hat.obeys hprog).2
  have hinput : ∀ msg, t.stage = .handling (.delivery (.bus msg))
      → msg.Genuine env.crypto w.verified t.me.deviceId := by
    intro msg hstage
    apply h.flight.inputs c t msg hc
    rw [hat.handling _ hstage]
    exact List.mem_cons_self
  generalize t.stage = stage at hp hinput
  cases hp with
  | recentText hdid hmem => exact ⟨_, rfl, h.reads c t hc _ (.inl hdid) _ hmem⟩
  | noticeText hdid hmem => exact ⟨_, rfl, h.reads c t hc _ (.inr hdid) _ hmem⟩
  | revokedText => exact ⟨_, rfl, hinput _ rfl⟩
  | presenceText _ =>
    rw [isPairRevoked_presenceMessage] at hop
    cases hop
  | errorText =>
    rw [isPairRevoked_errorMessage] at hop
    cases hop
  | rvJoinedText =>
    rw [isPairRevoked_rvJoinedMessage] at hop
    cases hop
  | forwardText _ =>
    have hno : isPairRevoked text = false := hinput _ rfl
    rw [hno] at hop
    cases hop
  | controlText =>
    have hno : isPairRevoked text = false := hinput _ rfl
    rw [hno] at hop
    cases hop

/--
What a connection has written it was about to write.
-/
structure WrittenGenuine (env : Env) (w : World) : Prop extends GenuineOk env w where
  written : ∀ c t, w.conns c = some t → ∀ text ∈ texts t.trace, isPairRevoked text
    → ∃ st, text = pairRevokedMessage st ∧ Genuine env.crypto w.verified t.me.deviceId st

theorem WrittenGenuine.step {l : Label} (h : WrittenGenuine env w)
    (hstep : w.step env l = some w') : WrittenGenuine env w' where
  toGenuineOk := h.toGenuineOk.step hstep
  written c t hc text htext hop := by
    have hsub := verified_subset hstep
    have hold : ∀ t1, w.conns c = some t1 → t1.me = t.me → text ∈ texts t1.trace
        → ∃ st, text = pairRevokedMessage st
          ∧ Genuine env.crypto w'.verified t.me.deviceId st := by
      intro t1 hc1 hme htext
      obtain ⟨st, heq, hst⟩ := h.written c t1 hc1 text htext hop
      exact ⟨st, heq, (hme ▸ hst).mono hsub⟩
    have htask := step_task hstep c
    rw [hc] at htask
    generalize hu : some t = u at htask
    cases htask with
    | same _ => exact hold t hu.symm rfl htext
    | connected _ =>
      cases hu
      simp [ConnTask.new, texts] at htext
    | handled hc1 _ _ =>
      cases hu
      rw [ConnTask.handle_trace] at htext
      exact hold _ hc1 (ConnTask.handle_me ..).symm htext
    | @resumed f t1 s o k w1 r hc1 hprog hperf =>
      cases hu
      rw [ConnTask.resume_trace, mem_texts] at htext
      obtain ⟨s', hs'⟩ := htext
      cases List.mem_cons.mp hs' with
      | inr hs' => exact hold t1 hc1 (ConnTask.resume_me ..).symm (mem_texts.mpr ⟨s', hs'⟩)
      | inl heq =>
        cases heq
        have hnext : t1.next? = some (.sendText text) :=
          ConnTask.next?_eq_some.mpr ⟨_, k, hprog⟩
        obtain ⟨st, heq, hst⟩ := h.toGenuineOk.next hc1 hnext hop
        rw [ConnTask.resume_me]
        exact ⟨st, heq, hst.mono hsub⟩

end World

/--
Every revocation that a device is shown is genuine. In every run from an empty database, a
`pair_revoked` message that a connection is about to write, or has written, is the message of a
statement that `verifyStatement` returned before, unchanged, where its signer and the device of the
connection were members of the pair when it was verified.
-/
theorem shown_revocations_are_genuine {env : Env} {ls : List Label} {w : World} {c : Uuid}
    {t : ConnTask} {text : String} (hrun : run env (World.init .empty) ls = some w)
    (hc : w.conns c = some t)
    (hwrite : t.next? = some (.sendText text) ∨ text ∈ texts t.trace) (hop : isPairRevoked text)
    : ∃ st, text = pairRevokedMessage st
      ∧ ∃ call ∈ w.verified, call.result env.crypto = .ok st
        ∧ ∃ row, call.db.pairs.find? st.pairId = some row ∧ row.HasMember st.signer
          ∧ row.HasMember t.me.deviceId := by
  have hok : World.WrittenGenuine env w :=
    Lts.run_stable (P := World.WrittenGenuine env) (fun _ _ _ hok hstep => hok.step hstep)
      ⟨World.genuineOk_init env, nofun⟩ hrun
  cases hwrite with
  | inl hnext => exact hok.toGenuineOk.next hc hnext hop
  | inr htext => exact hok.written c t hc text htext hop

namespace Sample

/--
The two devices are registered and paired by requests.
-/
def pairs : List Label :=
  [.http (registerDevice 1 "android"), .http (registerDevice 2 "ios"), .http registerPair]

end Sample

theorem shown_revocation_is_genuine_on_reconnect
    : ∃ w t st, run Sample.relay (World.init .empty)
          (Sample.pairs ++ [.http Sample.deletesAll, .job 3 .ok] ++ Sample.fetchesNotice) = some w
      ∧ w.conns (Sample.uuid 2) = some t
      ∧ t.next? = some (.sendText (pairRevokedMessage Sample.statement))
      ∧ pairRevokedMessage Sample.statement = pairRevokedMessage st
      ∧ ∃ call ∈ w.verified, call.result .sample = .ok st
        ∧ ∃ row, call.db.pairs.find? st.pairId = some row ∧ row.HasMember st.signer
          ∧ row.HasMember t.me.deviceId := by
  have hrun : (run Sample.relay (World.init .empty)
        (Sample.pairs ++ [.http Sample.deletesAll, .job 3 .ok] ++ Sample.fetchesNotice)).any (fun w =>
      (w.conns (Sample.uuid 2)).any (fun t =>
        decide (t.next? = some (.sendText (pairRevokedMessage Sample.statement))))) = true := by
    decide +kernel
  simp only [Option.any_eq_true, decide_eq_true_eq] at hrun
  have ⟨w, hw, t, ht, hnext⟩ := hrun
  have hop : isPairRevoked (pairRevokedMessage Sample.statement) := by decide +kernel
  have ⟨st, heq, hst⟩ := shown_revocations_are_genuine hw ht (.inl hnext) hop
  exact ⟨w, t, st, hw, ht, hnext, heq, hst⟩

end HandLiveRelay
