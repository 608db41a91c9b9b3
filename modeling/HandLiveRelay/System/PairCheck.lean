import HandLiveRelay.System.Forwarding
import HandLiveRelay.System.Handover

/-!
This module contains the check of pairs over whole runs. A connection checks the frames of both
directions against the valid pairs it has read last, and reads them again when it is told that they
changed. What it has accepted before and holds back for the bandwidth limit is not checked again.
-/

namespace HandLiveRelay

open Fiber Wire

/-!
The pairs in the database.
-/

/--
No valid pair joins the two devices.
-/
def Db.Unpaired (db : Db) (d x : Uuid) : Prop :=
  ∀ p ∈ db.pairs.rows, p.HasMember d → p.HasMember x → p.revokedAt ≠ none

/--
The request adds a pair of the two devices to the database.
-/
def Request.Registers (crypto : Crypto) (d x : Uuid) (db : Db) (nowMs : Int64) (req : Request)
    : Prop :=
  ∃ p ∈ (req.handle crypto db nowMs).db.pairs.rows, p.HasMember d ∧ p.HasMember x
    ∧ (db.pairs.find? p.pairId).isNone

instance (db : Db) (d x : Uuid) : Decidable (db.Unpaired d x) :=
  inferInstanceAs (Decidable (∀ p ∈ db.pairs.rows, p.HasMember d → p.HasMember x
    → p.revokedAt ≠ none))

instance (crypto : Crypto) (d x : Uuid) (db : Db) (nowMs : Int64) (req : Request)
    : Decidable (req.Registers crypto d x db nowMs) :=
  inferInstanceAs (Decidable (∃ p ∈ (req.handle crypto db nowMs).db.pairs.rows,
    p.HasMember d ∧ p.HasMember x ∧ (db.pairs.find? p.pairId).isNone))

/--
A valid pair was there before the request, or the request has added it.
-/
theorem Request.valid_of_handle {crypto : Crypto} {db : Db} {nowMs : Int64} {req : Request}
    {p : PairRow} (hp : p ∈ (req.handle crypto db nowMs).db.pairs.rows) (hvalid : p.revokedAt = none)
    : p ∈ db.pairs.rows ∨ (db.pairs.find? p.pairId).isNone := by
  have heffect := handle_effect crypto db nowMs req
  generalize req.handle crypto db nowMs = out at hp heffect
  cases heffect with
  | refused e => exact .inl hp
  | unchanged r => exact .inl hp
  | upserted r _ _ h =>
    unfold Outcome.accepted at hp
    rw [Devices.pairs_upsert h] at hp
    exact .inl hp
  | touched deviceId nowMs => exact .inl hp
  | pairCreated _ _ _ h =>
    have ⟨_, hfree, hfind⟩ := Pairs.insert_created h
    unfold Outcome.accepted at hp
    rw [Table.mem_rows_iff, hfind] at hp
    split at hp
    next heq => exact .inr (by rw [heq, hfree]; rfl)
    . exact .inl (Table.mem_rows_iff.mpr hp)
  | @revoked _ s _ _ _ _ _ =>
    have ⟨q, hq, heq⟩ := Pairs.mem_rows_revoke.mp hp
    unfold Pairs.revokeRow at heq
    split at heq
    . subst heq
      cases hvalid
    . exact .inl (heq ▸ hq)
  | deleted _ =>
    unfold Db.deleteDevices at hp
    exact .inl (Table.mem_rows_delete.mp hp).1
  | cleaned nowMs =>
    unfold Outcome.accepted Devices.deleteExpired Db.deleteDevices at hp
    exact .inl (Table.mem_rows_delete.mp hp).1

theorem Db.Unpaired.handle {crypto : Crypto} {db : Db} {nowMs : Int64} {req : Request} {d x : Uuid}
    (h : db.Unpaired d x) (hreg : ¬ req.Registers crypto d x db nowMs)
    : (req.handle crypto db nowMs).db.Unpaired d x := by
  intro p hp hd hx hvalid
  cases Request.valid_of_handle hp hvalid with
  | inl hold => exact h p hold hd hx hvalid
  | inr hnew => exact hreg ⟨p, hp, hd, hx, hnew⟩

theorem Db.Unpaired.not_mem_activePeers {db : Db} {d x : Uuid} (h : db.Unpaired d x)
    : x ∉ (Pairs.activePeers db d).map (·.2) := by
  intro hx
  have ⟨p, hp, heq⟩ := List.mem_map.mp hx
  unfold Pairs.activePeers at hp
  have ⟨row, hrow, hpair⟩ := List.mem_map.mp hp
  rw [List.mem_filter, decide_eq_true_eq] at hrow
  have ⟨hmem, hactive⟩ := hrow
  subst hpair
  exact h row hmem hactive.1 (heq ▸ row.hasMember_peer d) hactive.2.1

namespace World

variable {env : Env} {w w' : World}

/--
The step registers no pair of the two devices.
-/
def NoPairing (env : Env) (d x : Uuid) (w : World) : Label → Prop
  | .http req => ¬ req.Registers env.crypto d x w.db w.nowMs
  | _ => True

instance (env : Env) (d x : Uuid) (w : World) : ∀ l, Decidable (NoPairing env d x w l)
  | .http req => inferInstanceAs (Decidable (¬ req.Registers env.crypto d x w.db w.nowMs))
  | .connect _ _ _ | .exec _ _ | .event _ _ | .busRequest _ _ | .busUnsubscribe _ _
  | .busMessage _ | .lose _ _ | .busLost _ | .reconnect _ _ | .resubscribe _ _ | .resync _
  | .job _ _ | .tick _ _ | .expirePresence _ | .expireNotices _ | .expireRv _ => isTrue trivial

/--
Only requests change the database.
-/
theorem step_db {l : Label} (h : w.step env l = some w')
    : w'.db = w.db ∨ ∃ req, l = .http req ∧ w'.db = (req.handle env.crypto w.db w.nowMs).db := by
  cases step_view h with
  | connect _ _ hw' => exact .inl (by rw [hw']; rfl)
  | exec _ _ hperf hw' => exact .inl (by rw [hw', ← (perform_sameFrame hperf).db]; rfl)
  | event _ _ _ hw' => exact .inl (by rw [hw']; rfl)
  | bus _ hframe => exact .inl hframe.db
  | job _ hw' => exact .inl (by rw [hw', (act_frame env _ _ _).1.db])
  | store hl _ =>
    cases l <;> try contradiction
    case http req =>
      cases h
      exact .inr ⟨req, rfl, rfl⟩
    case tick nowMs secs =>
      unfold step at h
      dsimp only at h
      split at h
      . cases h
        exact .inl rfl
      . cases h
    case expirePresence d =>
      cases h
      exact .inl rfl
    case expireNotices d =>
      cases h
      exact .inl rfl
    case expireRv rvId =>
      cases h
      exact .inl rfl

theorem unpaired_step {l : Label} {d x : Uuid} (h : w.db.Unpaired d x)
    (hl : NoPairing env d x w l) (hstep : w.step env l = some w') : w'.db.Unpaired d x := by
  cases step_db hstep with
  | inl heq => rwa [heq]
  | inr hreq =>
    have ⟨req, hlabel, heq⟩ := hreq
    subst hlabel
    rw [heq]
    exact h.handle hl

theorem unpaired_run {ls : List Label} {d x : Uuid} (h : w.db.Unpaired d x)
    (hls : Lts.Meets (World.step env) (NoPairing env d x) w ls) (hrun : run env w ls = some w')
    : w'.db.Unpaired d x :=
  Lts.run_invariant (P := fun w => w.db.Unpaired d x)
    (fun _ _ _ hok hl hstep => unpaired_step hok hl hstep) h hls hrun

/--
The answer to a query for the valid pairs.
-/
theorem activePeers_some {me : Ident} {f : Fault} {w1 : World} {pairs : List (Uuid × Uuid)}
    (h : w.perform env me .activePeers f = some (w1, some pairs))
    : pairs = Pairs.activePeers w.db me.deviceId := by
  cases f with
  | ok =>
    cases h
    rfl
  | fail => cases h
  | lost => cases h

end World

/-!
What a connection writes and accepts.
-/

/--
The messages that tell a connection that its pairs changed.
-/
def BusMessage.isNotice : BusMessage → Bool
  | pairRevoked _ | pairsChanged => true
  | _ => false

/--
The connection is handling a notice that its pairs changed, and is about to read them again.
-/
def ConnTask.reloads (t : ConnTask) : Bool :=
  match t.stage, t.next? with
  | .handling (.delivery (.bus msg)), some .activePeers => msg.isNotice
  | _, _ => false

theorem ConnTask.next?_of_reloads {t : ConnTask} (h : t.reloads) : t.next? = some .activePeers := by
  unfold reloads at h
  split at h
  . assumption
  . cases h

/--
The frame that an operation is to write.
-/
def Op.frame? : Op → Option Frame
  | sendText text => some (.text text)
  | sendBinary frame => some (.binary frame)
  | _ => none

/--
The connection is about to write a frame of the device `x`: one that names it as its source, or
that came in a message with this source.
-/
def ConnTask.Writes (t : ConnTask) (x : Uuid) : Prop :=
  ∃ f, t.next?.bind Op.frame? = some f
    ∧ (f.hasSource x
      ∨ ∃ msg, t.stage = .handling (.delivery (.bus msg)) ∧ msg.frameFrom? x = some f)

/--
The step from `t` to `t'` accepts a frame for the device `x`.
-/
def ConnTask.Accepts (t t' : ConnTask) (x : Uuid) : Prop :=
  ∃ msg, t'.acc = (x, msg) :: t.acc

/--
The peers of a connection are those of its last successful query, only they have buckets, and only
their frames are written.
-/
structure ConnTask.PairChecked (t : ConnTask) : Prop where
  peers : t.prog.state.peers = (lastPairs t.trace).map (·.2)
  buckets : ∀ x, (t.prog.state.buckets x).isSome → x ∈ t.prog.state.peers
  writes : ∀ x, t.Writes x → x ∈ t.prog.state.peers

theorem Frame.ofText?_of_hasSource {x : Uuid} {text : String} (h : Frame.hasSource x (.text text))
    : Frame.ofText? text = some (.text text) := by
  apply if_pos
  have hassoc : "\x7b\"from\":\"" ++ x.hyphenated ++ "\",\"env\":"
      = "\x7b\"from\":" ++ ("\"" ++ x.hyphenated ++ "\",\"env\":") := by
    rw [← String.toList_inj]
    simp
  unfold hasSource at h
  dsimp only at h
  rw [hassoc] at h
  exact Text.startsWith_of_append h

/--
A text that is no frame of another device names no source.
-/
theorem Frame.not_hasSource {x : Uuid} {text : String} (h : Frame.ofText? text = none)
    : ¬ Frame.hasSource x (.text text) := by
  intro hsource
  rw [Frame.ofText?_of_hasSource hsource] at h
  cases h

namespace ConnTask

variable {env : Env} {t : ConnTask}

theorem settle_acc (t : ConnTask) : t.settle.acc = t.acc := by
  unfold settle
  split
  next s e hprog =>
    unfold acc
    rw [hprog]
    rfl
  . rfl

theorem settle_state (t : ConnTask) : t.settle.prog.state = t.prog.state := by
  unfold settle
  split
  next s e hprog =>
    rw [hprog]
    rfl
  . rfl

/--
Within a stage, what a connection has accepted grows by at most one frame, for a peer.
-/
theorem OkAt.acc_cases {mark : Mark} (h : OkAt env mark t)
    : t.acc = mark.accepted
      ∨ ∃ e f, t.stage = .handling e ∧ e.forward? env.serde t.me = some f
        ∧ t.acc = f :: mark.accepted ∧ f.1 ∈ t.prog.state.peers :=
  h.stageOk.accepted

end ConnTask

namespace World

variable {env : Env} {w w' : World}

/--
What a step makes of what a connection has accepted.
-/
theorem acc_step {l : Label} (hsound : Sound env w) (hstep : w.step env l = some w') {c : Uuid}
    {t t' : ConnTask} (hc : w.conns c = some t) (hc' : w'.conns c = some t')
    : t'.acc.Sublist t.acc ∨ ∃ f, t'.acc = f :: t.acc ∧ f.1 ∈ t'.prog.state.peers := by
  have hok := hsound.tasks c t hc
  have htask := step_task hstep c
  rw [hc'] at htask
  generalize hu : some t' = u at htask
  cases htask with
  | same _ =>
    rw [hc] at hu
    cases hu
    exact .inl (.refl _)
  | connected hnone =>
    rw [hc] at hnone
    cases hnone
  | @resumed f t1 s o k w1 r hc1 hprog _ =>
    rw [hc] at hc1
    cases hc1
    cases hu
    have ⟨mark, hat⟩ := hok
    have hat' := hat.resume hprog r
    unfold ConnTask.resume
    rw [ConnTask.settle_acc, ConnTask.settle_state]
    cases hat'.acc_cases with
    | inl hnew =>
      left
      rw [hnew]
      cases hat.acc_cases with
      | inl hold => rw [hold]
      | inr hold =>
        have ⟨_, f0, _, _, hold, _⟩ := hold
        rw [hold]
        exact List.sublist_cons_self f0 _
    | inr hnew =>
      have ⟨e, f1, hstage, hf1, hnew, hpeer⟩ := hnew
      cases hat.acc_cases with
      | inl hold => exact .inr ⟨f1, hnew.trans (by rw [hold]), hpeer⟩
      | inr hold =>
        -- the frame had been accepted before
        have ⟨e0, f0, hstage0, hf0, hold, _⟩ := hold
        dsimp only at hstage hf1
        rw [hstage0] at hstage
        cases hstage
        rw [hf0] at hf1
        cases hf1
        exact .inl (by rw [hnew, hold])
  | @handled e t1 s hc1 hprog hready =>
    rw [hc] at hc1
    cases hc1
    cases hu
    have hat' := hok.handle_okAt hprog (e := e) (by
      rintro msg rfl
      exact pending_of_ready hready)
    have hold : t.acc = (Mark.here s t.trace).accepted := by
      unfold ConnTask.acc
      rw [hprog]
      rfl
    unfold ConnTask.handle
    rw [ConnTask.settle_acc, ConnTask.settle_state]
    cases hat'.acc_cases with
    | inl hnew => exact .inl (by rw [hnew, hold])
    | inr hnew =>
      have ⟨_, f1, _, _, hnew, hpeer⟩ := hnew
      exact .inr ⟨f1, hnew.trans (by rw [hold]), hpeer⟩

theorem accepts_peer {l : Label} (hsound : Sound env w) (hstep : w.step env l = some w') {c : Uuid}
    {t t' : ConnTask} (hc : w.conns c = some t) (hc' : w'.conns c = some t') {x : Uuid}
    (h : t.Accepts t' x) : x ∈ t'.prog.state.peers := by
  have ⟨msg, hmsg⟩ := h
  cases acc_step hsound hstep hc hc' with
  | inl hsub =>
    have hlen := hsub.length_le
    rw [hmsg, List.length_cons] at hlen
    omega
  | inr hnew =>
    have ⟨f, hf, hpeer⟩ := hnew
    rw [hmsg] at hf
    cases hf
    exact hpeer

theorem peersOk {c : Uuid} {t : ConnTask} (hsound : Sound env w) (hc : w.conns c = some t)
    : PeersOk t.prog.state t.trace := by
  have ⟨mark, hat⟩ := hsound.tasks c t hc
  exact hat.stageOk.peers

/--
A frame that is about to be written comes from a peer.
-/
theorem writes_peer {c : Uuid} {t : ConnTask} (hok : SourcedOk env w) (hc : w.conns c = some t)
    {x : Uuid} (h : t.Writes x) : x ∈ t.prog.state.peers := by
  have ⟨f, hnext, hsource⟩ := h
  have ⟨mark, hat⟩ := hok.sound.tasks c t hc
  have hinput : ∀ msg, t.stage = .handling (.delivery (.bus msg)) → msg.Sourced := by
    intro msg hstage
    apply hok.sourced.inputs c t msg hc
    rw [hat.handling _ hstage]
    exact List.mem_cons_self
  -- a message with the source `x` carries a frame that names it
  have hsource : f.hasSource x := by
    cases hsource with
    | inl hsource => exact hsource
    | inr hmsg =>
      have ⟨msg, hstage, hframe⟩ := hmsg
      have hfilter := hinput msg hstage x
      rw [hframe, Option.filter_eq_some_iff] at hfilter
      exact hfilter.2
  have ⟨o, hnext, hframe⟩ := Option.bind_eq_some_iff.mp hnext
  have ⟨s, k, hprog⟩ := ConnTask.next?_eq_some.mp hnext
  have hstate : t.prog.state = s := by
    rw [hprog]
    rfl
  have hp := (hat.obeys hprog).2
  rw [hstate]
  generalize t.stage = stage at hp hinput
  cases hp with
  | recentText _ _ =>
    cases hframe
    exact absurd hsource (Frame.not_hasSource (by simp))
  | noticeText _ _ =>
    cases hframe
    exact absurd hsource (Frame.not_hasSource (by simp))
  | presenceText _ =>
    cases hframe
    exact absurd hsource (Frame.not_hasSource (by simp))
  | errorText =>
    cases hframe
    exact absurd hsource (Frame.not_hasSource (by simp))
  | rvJoinedText =>
    cases hframe
    exact absurd hsource (Frame.not_hasSource (by simp))
  | revokedText =>
    cases hframe
    exact absurd hsource (Frame.not_hasSource (by simp))
  | @forwardText _ _ source text hpeer =>
    cases hframe
    have hfilter := hinput _ rfl x
    simp only [BusMessage.frame?, Frame.ofText?_of_hasSource hsource, Option.filter_some, hsource,
      if_true, BusMessage.frameFrom?] at hfilter
    split at hfilter
    next heq => exact heq ▸ hpeer
    . cases hfilter
  | @forwardBinary _ _ source frame hpeer =>
    cases hframe
    have hfilter := hinput _ rfl x
    simp only [BusMessage.frame?, Option.filter_some, hsource, if_true,
      BusMessage.frameFrom?] at hfilter
    split at hfilter
    next heq => exact heq ▸ hpeer
    . cases hfilter
  | @controlText _ _ text =>
    cases hframe
    have hfilter := hinput _ rfl x
    simp only [BusMessage.frame?, Frame.ofText?_of_hasSource hsource, Option.filter_some, hsource,
      if_true, BusMessage.frameFrom?] at hfilter
    cases hfilter
  | _ => cases hframe

theorem pairChecked {c : Uuid} {t : ConnTask} (hok : SourcedOk env w) (hc : w.conns c = some t)
    : t.PairChecked := by
  have hpeers := peersOk hok.sound hc
  refine ⟨hpeers.peers, hpeers.buckets, ?_⟩
  intro x hx
  exact writes_peer hok hc hx

/-!
After a revocation.
-/

theorem lastPairs_of_read (s : Conn) (pairs : List (Uuid × Uuid)) (t : ConnTrace)
    : lastPairs (⟨s, .activePeers, some pairs⟩ :: t) = pairs := rfl

/--
The device `x` does not come back among the peers, as long as it is not paired.
-/
theorem not_mem_lastPairs_step {l : Label} {c x : Uuid} {t t' : ConnTask}
    (hstep : w.step env l = some w') (hc : w.conns c = some t) (hc' : w'.conns c = some t')
    (hunpaired : w.db.Unpaired t.me.deviceId x) (h : x ∉ (lastPairs t.trace).map (·.2))
    : x ∉ (lastPairs t'.trace).map (·.2) := by
  have htask := step_task hstep c
  rw [hc'] at htask
  generalize hu : some t' = u at htask
  cases htask with
  | same _ =>
    rw [hc] at hu
    cases hu
    exact h
  | connected hnone =>
    rw [hc] at hnone
    cases hnone
  | handled hc1 _ _ =>
    rw [hc] at hc1
    cases hc1
    cases hu
    rwa [ConnTask.handle_trace]
  | @resumed f t1 s o k w1 r hc1 _ hperf =>
    rw [hc] at hc1
    cases hc1
    cases hu
    rw [ConnTask.resume_trace]
    cases hread : readPairs ⟨s, o, r⟩ with
    | none => rwa [lastPairs_cons hread]
    | some pairs =>
      cases o with
      | activePeers =>
        have hr : r = some pairs := hread
        subst hr
        rw [lastPairs_of_read, activePeers_some hperf]
        exact hunpaired.not_mem_activePeers
      | _ => cases hread

/--
The connection `c`, which stood at `t0` then, has not accepted anything for `x` since, and has not
`x` among its peers.
-/
structure CutOff (env : Env) (c x : Uuid) (t0 : ConnTask) (w : World) : Prop where
  sourced : SourcedOk env w
  unpaired : w.db.Unpaired t0.me.deviceId x
  conn : ∃ t, w.conns c = some t ∧ t.me = t0.me ∧ x ∉ (lastPairs t.trace).map (·.2)
    ∧ (t.acc.filter (·.1 = x)).Sublist (t0.acc.filter (·.1 = x)) ∧ t0.trace <:+ t.trace

theorem acc_filter_step {l : Label} (hsound : Sound env w) (hstep : w.step env l = some w')
    {c x : Uuid} {t t' : ConnTask} (hc : w.conns c = some t) (hc' : w'.conns c = some t')
    (hx : x ∉ (lastPairs t'.trace).map (·.2))
    : (t'.acc.filter (·.1 = x)).Sublist (t.acc.filter (·.1 = x)) := by
  cases acc_step hsound hstep hc hc' with
  | inl hsub => exact hsub.filter _
  | inr hnew =>
    have ⟨f, hf, hpeer⟩ := hnew
    have hne : f.1 ≠ x := by
      rintro rfl
      rw [(peersOk (hsound.step hstep) hc').peers] at hpeer
      exact hx hpeer
    rw [hf, List.filter_cons_of_neg (by simpa using hne)]

theorem CutOff.step {l : Label} {c x : Uuid} {t0 : ConnTask} (h : CutOff env c x t0 w)
    (hl : NoPairing env t0.me.deviceId x w l) (hstep : w.step env l = some w')
    : CutOff env c x t0 w' := by
  have ⟨t, hc, hme, hx, hacc, htrace⟩ := h.conn
  have ⟨t', hc', hme'⟩ := step_conn hstep hc
  have hx' := not_mem_lastPairs_step hstep hc hc' (hme ▸ h.unpaired) hx
  exact ⟨h.sourced.step hstep, unpaired_step h.unpaired hl hstep, t', hc', hme'.trans hme, hx',
    (acc_filter_step h.sourced.sound hstep hc hc' hx').trans hacc,
    htrace.trans (trace_step hstep hc hc')⟩

theorem CutOff.not_peer {c x : Uuid} {t0 t : ConnTask} (h : CutOff env c x t0 w)
    (hc : w.conns c = some t) : x ∉ t.prog.state.peers := by
  have ⟨t', hc', _, hx, _⟩ := h.conn
  rw [hc] at hc'
  cases hc'
  rwa [(peersOk h.sourced.sound hc).peers]

/--
The cut-off begins with a successful query after the revocation.
-/
theorem cutOff_of_read {c x : Uuid} {t : ConnTask} (hok : SourcedOk env w)
    (hunpaired : w.db.Unpaired t.me.deviceId x) (hc : w.conns c = some t)
    (hnext : t.next? = some .activePeers) (hstep : w.step env (.exec c .ok) = some w')
    : CutOff env c x t w' := by
  have ⟨s, k, hprog⟩ := ConnTask.next?_eq_some.mp hnext
  have ⟨t1, s1, o1, k1, w1, r, hc1, hprog1, hperf, hw'⟩ := exec_eq_some.mp hstep
  rw [hc] at hc1
  cases hc1
  rw [hprog] at hprog1
  cases hprog1
  have hc' : w'.conns c = some (t.resume s .activePeers k r) := by
    rw [hw', setConn_self]
  have hx : x ∉ (lastPairs (t.resume s .activePeers k r).trace).map (·.2) := by
    cases hperf
    rw [ConnTask.resume_trace, lastPairs_of_read]
    exact hunpaired.not_mem_activePeers
  exact ⟨hok.step hstep, unpaired_step (l := .exec c .ok) hunpaired trivial hstep, _, hc', ConnTask.resume_me ..,
    hx, acc_filter_step hok.sound hstep hc hc' hx, trace_step hstep hc hc'⟩

theorem sourcedOk_steps {ls : List Label} (hok : SourcedOk env w) (hrun : run env w ls = some w')
    : SourcedOk env w' :=
  Lts.run_stable (fun _ _ _ hok hstep => SourcedOk.step hok hstep) hok hrun

theorem cutOff_run {c x : Uuid} {t : ConnTask} {ls : List Label} (hok : SourcedOk env w)
    (hunpaired : w.db.Unpaired t.me.deviceId x) (hc : w.conns c = some t)
    (hreloads : t.reloads) (hrun : run env w (.exec c .ok :: ls) = some w')
    (hls : Lts.Meets (World.step env) (NoPairing env t.me.deviceId x) w (.exec c .ok :: ls))
    : CutOff env c x t w' := by
  have ⟨w1, hstep, hrun1⟩ := (Lts.run_cons_eq_some _).mp hrun
  exact Lts.run_invariant (P := CutOff env c x t)
    (fun _ _ _ hcut hl hstep => CutOff.step hcut hl hstep)
    (cutOff_of_read hok hunpaired hc (ConnTask.next?_of_reloads hreloads) hstep) (hls.2 w1 hstep) hrun1

end World

/--
The check of pairs holds over whole runs. In every state the peers of a connection are those of its
last successful query, only they have buckets, and a frame is written only if it comes from one of
them; a frame is accepted only for one of them. If there is no valid pair of `d` and `x` in this
state and none is registered from here on, then a connection of `d` that handles a notice and reads
the pairs with success writes no frame of `x` from then on and accepts none for `x`.
-/
theorem pair_check_holds_over_runs {env : Env} {db : Db} {ls : List Label} {w : World}
    (hrun : run env (World.init db) ls = some w)
    : (∀ c t, w.conns c = some t → t.PairChecked)
      ∧ (∀ l w' c t t' x, w.step env l = some w' → w.conns c = some t → w'.conns c = some t'
        → t.Accepts t' x → x ∈ t'.prog.state.peers)
      ∧ (∀ ls1 w1 c t1 x, w.db.Unpaired t1.me.deviceId x → run env w ls1 = some w1
        → Lts.Meets (World.step env) (World.NoPairing env t1.me.deviceId x) w ls1
        → w1.conns c = some t1 → t1.reloads
        → ∀ ls2 w2 t2, run env w1 (.exec c .ok :: ls2) = some w2
        → Lts.Meets (World.step env) (World.NoPairing env t1.me.deviceId x) w1
          (.exec c .ok :: ls2)
        → w2.conns c = some t2
        → ¬ t2.Writes x
          ∧ ∀ l w3 t3, w2.step env l = some w3 → World.NoPairing env t1.me.deviceId x w2 l
            → w3.conns c = some t3 → ¬ t2.Accepts t3 x) := by
  have hok := World.sourcedOk_run hrun
  refine ⟨fun c t hc => World.pairChecked hok hc, ?_, ?_⟩
  . intro l w' c t t' x hstep hc hc' haccepts
    exact World.accepts_peer hok.sound hstep hc hc' haccepts
  . intro ls1 w1 c t1 x hunpaired hrun1 hls1 hc1 hreloads ls2 w2 t2 hrun2 hls2 hc2
    have hcut := World.cutOff_run (World.sourcedOk_steps hok hrun1)
      (World.unpaired_run hunpaired hls1 hrun1) hc1 hreloads hrun2 hls2
    refine ⟨fun hwrites => hcut.not_peer hc2 (World.writes_peer hcut.sourced hc2 hwrites), ?_⟩
    intro l w3 t3 hstep hl hc3 haccepts
    apply (hcut.step hl hstep).not_peer hc3
    exact World.accepts_peer hcut.sourced.sound hstep hc2 hc3 haccepts

namespace Sample

/--
An `HR` frame for the second device that is larger than what may be sent at once.
-/
def largeFrame : List UInt8 :=
  hrMagic ++ [hrVersion, hrOpForward] ++ (device 2).toList ++ List.replicate 1000 0

/--
The first device sends a large frame to the second one, which its connection holds back, and
revokes the pair.
-/
def revokesWhileHeld : List Label :=
  opensPaired "a" (uuid 1) (device 1) ++ opensPaired "b" (uuid 2) (device 2)
    ++ [Label.event (uuid 1) (.client (.binary largeFrame))] ++ execs 2 (uuid 1)
    ++ [Label.http revokePair]

/--
Both devices are told, and the connection of the first one is about to read the pairs again.
-/
def hearsOfIt : List Label :=
  [Label.job 0 .ok, .job 0 .ok] ++ replaced "a" (uuid 1) (uuid 1)
    ++ [Label.busMessage "a"]
    ++ writes (uuid 1) (.control (presenceMessage pairId (device 2) true))
    ++ [Label.busMessage "a", .event (uuid 1) (.delivery (.bus .pairsChanged)), .exec (uuid 1) .ok]

/--
The wait is over, and the frame that was held back is published.
-/
def letsGo : List Label :=
  [.exec (uuid 1) .ok, .tick 0 1, .event (uuid 1) .deadline, .exec (uuid 1) .ok]

theorem revoked_while_held
    : ∃ w w1 t1 w2 t2, run relay (World.init pairedDb) revokesWhileHeld = some w
      ∧ run relay w hearsOfIt = some w1 ∧ w1.conns (uuid 1) = some t1
      ∧ run relay w1 letsGo = some w2 ∧ w2.conns (uuid 1) = some t2
      ∧ t1.me.deviceId = device 1 ∧ w.db.Unpaired (device 1) (device 2)
      ∧ Lts.Meets (World.step relay) (World.NoPairing relay (device 1) (device 2)) w hearsOfIt
      ∧ t1.reloads
      ∧ Lts.Meets (World.step relay) (World.NoPairing relay (device 1) (device 2)) w1 letsGo := by
  have hrun : (run relay (World.init pairedDb) revokesWhileHeld).any (fun w =>
      decide (w.db.Unpaired (device 1) (device 2))
        && (run relay w hearsOfIt).any (fun w1 =>
          (w1.conns (uuid 1)).any (fun t1 => decide (t1.me.deviceId = device 1) && t1.reloads)
            && (run relay w1 letsGo).any (fun w2 => (w2.conns (uuid 1)).isSome))) = true := by
    decide +kernel
  simp only [Option.any_eq_true, Bool.and_eq_true, decide_eq_true_eq, Option.isSome_iff_exists]
    at hrun
  have ⟨w, hw, hunpaired, w1, hw1, ⟨t1, ht1, hme, hreloads⟩, w2, hw2, t2, ht2⟩ := hrun
  -- neither part of the run has a request
  have hmeets : ∀ w ls, (∀ req, Label.http req ∉ ls)
      → Lts.Meets (World.step relay) (World.NoPairing relay (device 1) (device 2)) w ls := by
    intro w ls hls
    refine (Lts.meets_of_forall (C := fun l => ∀ req, l ≠ .http req) ?_).imp ?_
    . rintro l hl req rfl
      exact hls req hl
    . intro w l hl
      cases l with
      | http req => exact absurd rfl (hl req)
      | _ => exact trivial
  have hhears : ∀ req, Label.http req ∉ hearsOfIt := by
    simp [hearsOfIt, replaced, writes, execs]
  have hlets : ∀ req, Label.http req ∉ letsGo := by
    simp [letsGo]
  exact ⟨w, w1, t1, w2, t2, hw, hw1, ht1, hw2, ht2, hme, hunpaired, hmeets w _ hhears, hreloads,
    hmeets w1 _ hlets⟩

end Sample

theorem pair_check_holds_after_revoking
    : ∃ w w1 t1 w2 t2, run Sample.relay (World.init Sample.pairedDb) Sample.revokesWhileHeld = some w
      ∧ run Sample.relay w Sample.hearsOfIt = some w1 ∧ w1.conns (Sample.uuid 1) = some t1
      ∧ t1.me.deviceId = Sample.device 1
      ∧ run Sample.relay w1 Sample.letsGo = some w2 ∧ w2.conns (Sample.uuid 1) = some t2
      ∧ t2.PairChecked ∧ ¬ t2.Writes (Sample.device 2) := by
  have ⟨w, w1, t1, w2, t2, hw, hw1, ht1, hw2, ht2, hme, hunpaired, hmeets, hreloads, hmeets1⟩ :=
    Sample.revoked_while_held
  have hcut := (pair_check_holds_over_runs hw).2.2 Sample.hearsOfIt w1 (Sample.uuid 1) t1
    (Sample.device 2) (hme ▸ hunpaired) hw1 (hme ▸ hmeets) ht1 hreloads _ w2 t2 hw2 (hme ▸ hmeets1) ht2
  have hall : run Sample.relay (World.init Sample.pairedDb)
      (Sample.revokesWhileHeld ++ (Sample.hearsOfIt ++ Sample.letsGo)) = some w2 := by
    rw [Lts.run_append_eq_some]
    refine ⟨w, hw, ?_⟩
    rw [Lts.run_append_eq_some]
    exact ⟨w1, hw1, hw2⟩
  exact ⟨w, w1, t1, w2, t2, hw, hw1, ht1, hme, hw2, ht2,
    (pair_check_holds_over_runs hall).1 _ t2 ht2, hcut.1⟩

/--
After a revocation a connection publishes at most the frame it was holding back. If there is no
valid pair of `d` and `x` and none is registered from here on, then a connection of `d` that has
handled a notice, and has read the pairs with success, publishes no frame for `x` from then on but
the one that it had accepted before and was holding back for the bandwidth limit.
-/
theorem revoked_peer_gets_at_most_the_held_frame {env : Env} {db : Db} {ls ls1 ls2 : List Label}
    {w w1 w2 : World} {c x : Uuid} {t1 t2 : ConnTask}
    (hrun : run env (World.init db) ls = some w) (hunpaired : w.db.Unpaired t1.me.deviceId x)
    (hrun1 : run env w ls1 = some w1)
    (hls1 : Lts.Meets (World.step env) (World.NoPairing env t1.me.deviceId x) w ls1)
    (hc1 : w1.conns c = some t1) (hreloads : t1.reloads)
    (hrun2 : run env w1 (.exec c .ok :: ls2) = some w2)
    (hls2 : Lts.Meets (World.step env) (World.NoPairing env t1.me.deviceId x) w1
      (.exec c .ok :: ls2))
    (hc2 : w2.conns c = some t2)
    : ∃ since, forwards t2.trace = since ++ forwards t1.trace
      ∧ (since.filter (·.1 = x)).Sublist
          ((t1.prog.state.pending.map fun p => (p.dest, p.bus)).toList.filter (·.1 = x)) := by
  have hcut := World.cutOff_run (World.sourcedOk_steps (World.sourcedOk_run hrun) hrun1)
    (World.unpaired_run hunpaired hls1 hrun1) hc1 hreloads hrun2 hls2
  have ⟨t, hc, _, _, hacc, htrace⟩ := hcut.conn
  rw [hc2] at hc
  cases hc
  have ⟨u, hu⟩ := htrace
  have hforwards : forwards t2.trace = forwards u ++ forwards t1.trace := by
    rw [← hu]
    exact List.filterMap_append
  refine ⟨forwards u, hforwards, ?_⟩
  -- what was published had been accepted, and nothing for `x` was accepted since
  have hpublished : (forwards t2.trace).Sublist t2.acc := by
    unfold ConnTask.acc accepted
    split
    . exact List.sublist_append_right _ _
    . exact (List.sublist_append_right _ _).trans (List.sublist_append_right _ _)
  have ⟨s, k, hprog⟩ := ConnTask.next?_eq_some.mp (ConnTask.next?_of_reloads hreloads)
  have hold : t1.acc
      = (t1.prog.state.pending.map fun p => (p.dest, p.bus)).toList ++ forwards t1.trace := by
    unfold ConnTask.acc accepted
    rw [hprog]
    rfl
  have hall := (hpublished.filter (·.1 = x)).trans hacc
  rw [hforwards, hold, List.filter_append, List.filter_append] at hall
  exact (List.append_sublist_append_right _).mp hall

theorem revoked_peer_gets_the_held_frame_only
    : ∃ w w1 t1 w2 t2 since,
      run Sample.relay (World.init Sample.pairedDb) Sample.revokesWhileHeld = some w
      ∧ run Sample.relay w Sample.hearsOfIt = some w1 ∧ w1.conns (Sample.uuid 1) = some t1
      ∧ run Sample.relay w1 Sample.letsGo = some w2 ∧ w2.conns (Sample.uuid 1) = some t2
      ∧ forwards t2.trace = since ++ forwards t1.trace
      ∧ (since.filter (·.1 = Sample.device 2)).Sublist
          ((t1.prog.state.pending.map fun p => (p.dest, p.bus)).toList.filter
            (·.1 = Sample.device 2)) := by
  have ⟨w, w1, t1, w2, t2, hw, hw1, ht1, hw2, ht2, hme, hunpaired, hmeets, hreloads, hmeets1⟩ :=
    Sample.revoked_while_held
  have ⟨since, heq, hsub⟩ := revoked_peer_gets_at_most_the_held_frame hw
    (hme ▸ hunpaired) hw1 (hme ▸ hmeets) ht1 hreloads hw2 (hme ▸ hmeets1) ht2
  exact ⟨w, w1, t1, w2, t2, since, hw, hw1, ht1, hw2, ht2, heq, hsub⟩

/--
The frame that was held back crosses the revocation. There is no valid pair any more, the
connection of the first device has handled the notice and has read that it has no peers, and then
it publishes the frame for the second device.
-/
theorem held_frame_crosses_revocation
    : (run Sample.relay (World.init Sample.pairedDb) Sample.revokesWhileHeld).any (fun w =>
        decide (w.db.Unpaired (Sample.device 1) (Sample.device 2))
          && (run Sample.relay w Sample.hearsOfIt).any (fun w1 =>
            (w1.conns (Sample.uuid 1)).any (·.reloads)
              && (run Sample.relay w1 [.exec (Sample.uuid 1) .ok]).any (fun w2 =>
                (w2.conns (Sample.uuid 1)).any (fun t => t.serving
                  && decide (t.prog.state.peers = []) && decide (forwards t.trace = [])))
              && (run Sample.relay w1 Sample.letsGo).any (fun w2 =>
                (w2.conns (Sample.uuid 1)).any (fun t => decide (forwards t.trace
                  = [(Sample.device 2, .forwardBinary (Sample.device 1)
                      (rewriteHr Sample.largeFrame (Sample.device 1)))])))))
      = true := by
  decide +kernel

end HandLiveRelay
