import HandLiveRelay.Routes.PairRequests
import HandLiveRelay.Routes.Permanence

/-!
This module contains what becomes of one pair when any number of requests revoke it and register it
again at the same time: the first statement stays and is announced once, by the request that stored
it, and registering the pair again changes nothing.
-/

namespace HandLiveRelay

namespace PairRow

/--
The row holds the statement.
-/
structure Holds (row : PairRow) (s : RevokeStatement) : Prop where
  pairId : row.pairId = s.pairId
  revokedAt : row.revokedAt = some s.revokedAt
  revokedBy : row.revokedBy = some s.signer
  revokeSig : row.revokeSig = some s.sig

/--
What may become of a row: its columns stay, except that a valid pair may be revoked.
-/
structure Later (row row' : PairRow) : Prop where
  pairId : row'.pairId = row.pairId
  deviceA : row'.deviceA = row.deviceA
  deviceB : row'.deviceB = row.deviceB
  attestation : row'.attestation = row.attestation
  sigA : row'.sigA = row.sigA
  sigB : row'.sigB = row.sigB
  createdAt : row'.createdAt = row.createdAt
  revoked : row.revokedAt ≠ none → row' = row

theorem Later.refl (row : PairRow) : row.Later row where
  pairId := rfl
  deviceA := rfl
  deviceB := rfl
  attestation := rfl
  sigA := rfl
  sigB := rfl
  createdAt := rfl
  revoked _ := rfl

theorem Later.trans {row row1 row2 : PairRow} (h1 : row.Later row1) (h2 : row1.Later row2)
    : row.Later row2 where
  pairId := h2.pairId.trans h1.pairId
  deviceA := h2.deviceA.trans h1.deviceA
  deviceB := h2.deviceB.trans h1.deviceB
  attestation := h2.attestation.trans h1.attestation
  sigA := h2.sigA.trans h1.sigA
  sigB := h2.sigB.trans h1.sigB
  createdAt := h2.createdAt.trans h1.createdAt
  revoked hne := by
    have heq := h1.revoked hne
    subst heq
    exact h2.revoked hne

theorem later_revokeRow (s : RevokeStatement) (row : PairRow)
    : row.Later (Pairs.revokeRow s row) := by
  by_cases hne : row.revokedAt = none
  . unfold Pairs.revokeRow
    split
    . exact ⟨rfl, rfl, rfl, rfl, rfl, rfl, rfl, fun h => absurd hne h⟩
    . exact .refl row
  . rw [Pairs.revokeRow_of_revoked s hne]
    exact .refl row

end PairRow

/--
A statement is stored in the row of its pair, if it is one that revokes it.
-/
theorem Pairs.revoke_snd (db : Db) (s : RevokeStatement)
    : (Pairs.revoke db s).2
      = ((db.pairs.find? s.pairId).filter (Revokes s ·)).map (·.peer s.signer) := by
  unfold Pairs.revoke
  dsimp only
  congr 1
  cases hfind : db.pairs.find? s.pairId with
  | none =>
    rw [Option.filter_none, List.find?_eq_none]
    intro row hrow hrevokes
    have hpair : row.pairId = s.pairId := (of_decide_eq_true hrevokes).1
    rw [Table.mem_rows_iff, hpair, hfind] at hrow
    cases hrow
  | some row =>
    rw [Option.filter_some]
    cases hrows : db.pairs.rows.find? (Revokes s ·) with
    | none =>
      rw [if_neg (List.find?_eq_none.mp hrows row (Table.mem_of_find? hfind))]
    | some row' =>
      have hrevokes := List.find?_some hrows
      have hpair : row'.pairId = s.pairId := (of_decide_eq_true hrevokes).1
      have hmem := Table.mem_rows_iff.mp (List.mem_of_find?_eq_some hrows)
      rw [hpair, hfind] at hmem
      cases hmem
      rw [if_pos hrevokes]

theorem Pairs.find?_revoke (db : Db) (s : RevokeStatement) (pairId : Uuid)
    : (Pairs.revoke db s).1.pairs.find? pairId = (db.pairs.find? pairId).map (revokeRow s) := by
  unfold Pairs.revoke Db.updatePairs
  dsimp only
  rw [Table.find?_update]

theorem Db.find?_pairs_deleteDevices_cases (db : Db) (p : DeviceRow → Bool) (pairId : Uuid)
    : (db.deleteDevices p).pairs.find? pairId = db.pairs.find? pairId
      ∨ (db.deleteDevices p).pairs.find? pairId = none := by
  unfold deleteDevices
  dsimp only
  rw [Table.find?_delete]
  cases db.pairs.find? pairId with
  | none => exact .inl rfl
  | some row =>
    rw [Option.filter_some]
    split
    . exact .inl rfl
    . exact .inr rfl

theorem Routes.Devices.db_deleteMe (crypto : Crypto) (db : Db) (nowMs : Int64) (caller : Uuid)
    (limit : Option ApiError) (revokePairs : Bool) (body : Except ApiError (List Revocation))
    : (deleteMe crypto db nowMs caller limit revokePairs body).db = db
      ∨ (deleteMe crypto db nowMs caller limit revokePairs body).db
        = db.deleteDevices (·.deviceId = caller) := by
  unfold deleteMe
  split
  . exact .inl rfl
  . split
    . exact .inl rfl
    . dsimp only
      split
      . exact .inl rfl
      . unfold HandLiveRelay.Devices.deleteWithPeers
        split
        . next h =>
          split at h
          . cases h
          . cases h
            exact .inl rfl
        . next h =>
          split at h
          . cases h
            exact .inr rfl
          . cases h

namespace Routes.PairRequests

open Fiber Routes.Pairs HandLiveRelay.Pairs

variable {crypto : Crypto} {pairId : Uuid}

/--
A request to another endpoint keeps a pair or deletes it.
-/
theorem find?_happen {w w' : PairWorld} {e : PairEvent} (h : w.happen crypto e = some w')
    : w'.db.pairs.find? pairId = w.db.pairs.find? pairId
      ∨ w'.db.pairs.find? pairId = none
        ∧ ∃ req, e = .http req ∧ w'.db = (req.handle crypto w.db w.nowMs).db := by
  cases e with
  | clock nowMs =>
    cases h
    exact .inl rfl
  | http req =>
    have hdb : w'.db = (req.handle crypto w.db w.nowMs).db := by
      cases req <;> cases h <;> rfl
    refine Or.imp_right (fun hnone => ⟨hnone, req, rfl, hdb⟩) ?_
    clear hdb
    cases req with
    | registerPair caller limit req => cases h
    | revokePair caller limit path req => cases h
    | registerDevice limit req =>
      cases h
      dsimp only [Request.handle]
      unfold Routes.Devices.register
      split
      . exact .inl rfl
      . dsimp only
        split
        . exact .inl rfl
        . split
          . exact .inl rfl
          . next hupsert => exact .inl (congrArg (·.find? pairId) (Devices.pairs_upsert hupsert))
          . next hupsert => exact .inl (congrArg (·.find? pairId) (Devices.pairs_upsert hupsert))
          . next hupsert => exact .inl (congrArg (·.find? pairId) (Devices.pairs_upsert hupsert))
    | deleteMe caller limit revokePairs body =>
      cases h
      dsimp only [Request.handle]
      rcases Routes.Devices.db_deleteMe crypto w.db w.nowMs caller limit revokePairs body with
        hsame | hdeleted
      . exact .inl (by rw [hsame])
      . rw [hdeleted]
        exact Db.find?_pairs_deleteDevices_cases _ _ _
    | token deviceId =>
      cases h
      exact .inl rfl
    | cleanup =>
      cases h
      exact Db.find?_pairs_deleteDevices_cases _ _ _

/-!
What a step does to the row of the pair, and who has won.
-/

/--
The statement about the pair that a request has stored, and the device it has to tell.
-/
def won (pairId : Uuid) : PairPerformed → Option (Uuid × RevokeStatement)
  | ⟨_, .revoke s, some peer⟩ => if s.pairId = pairId then some (peer, s) else none
  | _ => none

/--
The statement about the pair that a request has announced, and the device it was announced to.
-/
def told (pairId : Uuid) : PairPerformed → Option (Uuid × RevokeStatement)
  | ⟨_, .publish dest (.pairRevoked s), _⟩ => if s.pairId = pairId then some (dest, s) else none
  | _ => none

section

variable {w w' : PairWorld} {verdict : Except ApiError Unit}

theorem revokes_pairId {s : RevokeStatement} {row : PairRow} (hrow : w.db.pairs.find? pairId = some row)
    (h : Revokes s row) : s.pairId = pairId :=
  h.1.symm.trans (Table.key_of_find? hrow)

/--
What an operation can do to the row of the pair, next to what it notes down as won.
-/
inductive RowStep (w : PairWorld) (pairId : Uuid)
    : (o : PairOp) → o.Res → Option PairRow → Prop where
  | same {o : PairOp} {r : o.Res} (hlost : won pairId ⟨(), o, r⟩ = none)
      : RowStep w pairId o r (w.db.pairs.find? pairId)
  | created {new : NewPair} (hnone : w.db.pairs.find? pairId = none)
      (hpair : new.pairId = pairId)
      : RowStep w pairId (.insertPair new) (some true) (some new.row)
  | revoked {s : RevokeStatement} {row : PairRow} (hrow : w.db.pairs.find? pairId = some row)
      (hrevokes : Revokes s row)
      : RowStep w pairId (.revoke s) (some (row.peer s.signer)) (some (revokeRow s row))

theorem RowStep.of_eq {o : PairOp} {r : o.Res} {row : Option PairRow}
    (hlost : won pairId ⟨(), o, r⟩ = none) (hrow : w.db.pairs.find? pairId = row)
    : RowStep w pairId o r row :=
  hrow ▸ .same hlost

theorem row_revoke (s : RevokeStatement)
    : RowStep w pairId (.revoke s) (HandLiveRelay.Pairs.revoke w.db s).2
        ((HandLiveRelay.Pairs.revoke w.db s).1.pairs.find? pairId) := by
  rw [Pairs.revoke_snd, Pairs.find?_revoke]
  by_cases hpair : s.pairId = pairId
  . subst hpair
    cases hrow : w.db.pairs.find? s.pairId with
    | none => exact .of_eq rfl hrow
    | some row =>
      rw [Option.filter_some, Option.map_some]
      by_cases hrevokes : Revokes s row
      . rw [if_pos (decide_eq_true hrevokes)]
        exact .revoked hrow hrevokes
      . rw [if_neg (by simpa using hrevokes), revokeRow, if_neg hrevokes]
        exact .of_eq rfl hrow
  . have hsame : (w.db.pairs.find? pairId).map (revokeRow s) = w.db.pairs.find? pairId := by
      cases hrow : w.db.pairs.find? pairId with
      | none => rfl
      | some row =>
        rw [Option.map_some, revokeRow, if_neg]
        intro hrevokes
        exact hpair (revokes_pairId hrow hrevokes)
    rw [hsame]
    refine .same ?_
    generalize ((w.db.pairs.find? s.pairId).filter (Revokes s ·)).map (·.peer s.signer) = peer
    cases peer with
    | none => rfl
    | some peer => simp [won, hpair]

theorem row_insertPair (new : NewPair)
    : RowStep w pairId (.insertPair new) (w.insertPair new).2
        ((w.insertPair new).1.db.pairs.find? pairId) := by
  unfold PairWorld.insertPair
  split
  . exact .same rfl
  . next db hinsert =>
    have ⟨_, hfree, hfind⟩ := Pairs.insert_created hinsert
    dsimp only
    rw [hfind]
    split
    . next hpair =>
      subst hpair
      exact .created hfree rfl
    . exact .same rfl
  . next db stored hinsert =>
    rw [Pairs.insert_existing hinsert]
    exact .same rfl

theorem row_perform {o : PairOp} {r : o.Res} (h : w.perform verdict o = (w', r))
    : RowStep w pairId o r (w'.db.pairs.find? pairId) := by
  have hrow : RowStep w pairId o (w.perform verdict o).2
      ((w.perform verdict o).1.db.pairs.find? pairId) := by
    cases o with
    | insertPair new => exact row_insertPair new
    | revoke s => exact row_revoke s
    | _ => exact .same rfl
  rw [h] at hrow
  exact hrow

end

/-!
The requests at work.
-/

section

variable {p p' : PairPool} {l : PairLabel}

/--
The step does not delete the pair.
-/
def keepsPair (crypto : Crypto) (pairId : Uuid) (p : PairPool) : PairLabel → Bool
  | .happen (.http req) =>
    (p.world.db.pairs.find? pairId).isNone
      || ((req.handle crypto p.world.db p.world.nowMs).db.pairs.find? pairId).isSome
  | _ => true

/--
What a step can do to the row of the pair, and to the list of the statements that were stored in it.
-/
inductive PairStep (crypto : Crypto) (p : PairPool) (pairId : Uuid)
    : PairLabel → Option PairRow → List (Uuid × RevokeStatement) → Prop where
  | same {l : PairLabel}
      : PairStep crypto p pairId l (p.world.db.pairs.find? pairId) (p.notes (won pairId))
  | created {k : Nat} {verdict : Except ApiError Unit} {new : NewPair}
      (hnone : p.world.db.pairs.find? pairId = none)
      : PairStep crypto p pairId (.exec k verdict) (some new.row) (p.notes (won pairId))
  | revoked {k : Nat} {verdict : Except ApiError Unit} {t : PairTask} {s : RevokeStatement}
      {row : PairRow} {after : List (Uuid × RevokeStatement)} {cont} (htask : p.tasks[k]? = some t)
      (hprog : t.prog = .wait () (.revoke s) cont)
      (hrow : p.world.db.pairs.find? pairId = some row) (hrevokes : Revokes s row)
      (hfirst : p.notes (won pairId) = [] → after = [(row.peer s.signer, s)])
      : PairStep crypto p pairId (.exec k verdict) (some (revokeRow s row)) after
  | gone {req : HandLiveRelay.Request}
      (hgone : (req.handle crypto p.world.db p.world.nowMs).db.pairs.find? pairId = none)
      : PairStep crypto p pairId (.happen (.http req)) none (p.notes (won pairId))

theorem pair_step (pairId : Uuid) (hstep : p.step (server crypto) l = some p')
    : PairStep crypto p pairId l (p'.world.db.pairs.find? pairId) (p'.notes (won pairId)) := by
  cases Pool.step_cases hstep with
  | start req =>
    rw [Pool.notes_start]
    exact .same
  | @happen e w h =>
    rcases find?_happen h with hsame | ⟨hgone, req, he, hdb⟩
    . dsimp only
      rw [hsame]
      exact .same
    . subst he
      dsimp only
      rw [hgone]
      exact .gone (hdb ▸ hgone)
  | @exec k verdict t s o cont w r htask hprog hperform =>
    have hrow : RowStep p.world pairId o r (w.db.pairs.find? pairId) :=
      row_perform (Option.some.inj hperform)
    dsimp only
    generalize w.db.pairs.find? pairId = row' at hrow
    cases hrow with
    | same hlost =>
      rw [Pool.notes_exec_none htask hlost]
      exact .same
    | created hnone hpair =>
      rw [Pool.notes_exec_none htask rfl]
      exact .created hnone
    | @revoked st row hrow hrevokes =>
      refine .revoked htask hprog hrow hrevokes (Pool.notes_exec_first htask ?_)
      simp [won, revokes_pairId hrow hrevokes]

/--
A step keeps a pair that it does not delete, and its columns.
-/
theorem later_step (hkeeps : keepsPair crypto pairId p l = true)
    (hstep : p.step (server crypto) l = some p') {row : PairRow}
    (hrow : p.world.db.pairs.find? pairId = some row)
    : ∃ row', p'.world.db.pairs.find? pairId = some row' ∧ row.Later row' := by
  have hpair := pair_step pairId hstep
  generalize hafter : p'.world.db.pairs.find? pairId = after at hpair
  generalize p'.notes (won pairId) = notes at hpair
  cases hpair with
  | same => exact ⟨row, hrow, .refl row⟩
  | created hnone =>
    rw [hrow] at hnone
    cases hnone
  | revoked htask hprog hrow' hrevokes hfirst =>
    rw [hrow] at hrow'
    cases hrow'
    exact ⟨_, rfl, PairRow.later_revokeRow _ row⟩
  | gone hgone =>
    simp [keepsPair, hrow, hgone] at hkeeps

theorem later_of_append {w0 : PairWorld} {ls1 ls2 : List PairLabel}
    (hkeeps : Lts.Meets (Pool.step (server crypto)) (fun p l => keepsPair crypto pairId p l = true)
      (Pool.init w0) (ls1 ++ ls2))
    (hrun : runPairs crypto w0 (ls1 ++ ls2) = some p') (hrun1 : runPairs crypto w0 ls1 = some p)
    {row : PairRow} (hrow : p.world.db.pairs.find? pairId = some row)
    : ∃ row', p'.world.db.pairs.find? pairId = some row' ∧ row.Later row' := by
  have ⟨p1, hrun1', hrun2⟩ := (Lts.run_append_eq_some (Pool.step (server crypto))).mp hrun
  cases hrun1.symm.trans hrun1'
  refine Lts.run_invariant
    (P := fun p => ∃ row', p.world.db.pairs.find? pairId = some row' ∧ row.Later row') ?_
    ⟨row, hrow, .refl row⟩ ((Lts.meets_append.mp hkeeps).2 p hrun1) hrun2
  intro p l p' ⟨row1, hrow1, hlater⟩ hl hstep
  have ⟨row2, hrow2, hlater2⟩ := later_step hl hstep hrow1
  exact ⟨row2, hrow2, hlater.trans hlater2⟩

/--
A request that registers a pair changes nothing about one that is there.
-/
theorem find?_register_step {k : Nat} {verdict : Except ApiError Unit} {t : PairTask} {caller : Uuid}
    {req : PairRequest} {row : PairRow} (ht : p.tasks[k]? = some t)
    (hreq : t.req = .register caller req)
    (hsat : t.prog.Sat (Plan t.req) (Ends t.req) t.trace)
    (hstep : p.step (server crypto) (.exec k verdict) = some p')
    (hrow : p.world.db.pairs.find? pairId = some row)
    : p'.world.db.pairs.find? pairId = some row := by
  have hpair := pair_step pairId hstep
  generalize p'.world.db.pairs.find? pairId = after at hpair
  generalize p'.notes (won pairId) = notes at hpair
  cases hpair with
  | same => exact hrow
  | created hnone =>
    rw [hrow] at hnone
    cases hnone
  | revoked htask hprog hrow' hrevokes hfirst =>
    rw [ht] at htask
    cases htask
    rw [hprog, hreq] at hsat
    have hat : RegisterAt req t.trace (.revoke _) := hsat.1
    generalize t.trace = trace at hat
    cases hat with
    | read hreads hquiet => cases hreads

/-!
Who has announced the revocation.
-/

/--
The statements that were stored in the row of the pair by the requests, next to the row.
-/
inductive Announced (w0 : PairWorld) (pairId : Uuid)
    : Option PairRow → List (Uuid × RevokeStatement) → Prop where
  | absent (hnone0 : w0.db.pairs.find? pairId = none) : Announced w0 pairId none []
  | valid {row : PairRow} (hvalid0 : ∀ row0 ∈ w0.db.pairs.find? pairId, row0.revokedAt = none)
      (hvalid : row.revokedAt = none)
      : Announced w0 pairId (some row) []
  | before {row row0 : PairRow} (hrow0 : w0.db.pairs.find? pairId = some row0)
      (hrevoked0 : row0.revokedAt ≠ none) (hrevoked : row.revokedAt ≠ none)
      : Announced w0 pairId (some row) []
  | first {row : PairRow} {s : RevokeStatement}
      (hvalid0 : ∀ row0 ∈ w0.db.pairs.find? pairId, row0.revokedAt = none) (hholds : row.Holds s)
      (hmember : row.HasMember s.signer)
      : Announced w0 pairId (some row) [(row.peer s.signer, s)]

theorem announced_init (w0 : PairWorld)
    : Announced w0 pairId (w0.db.pairs.find? pairId) [] := by
  cases hrow : w0.db.pairs.find? pairId with
  | none => exact .absent hrow
  | some row =>
    by_cases hvalid : row.revokedAt = none
    . refine .valid ?_ hvalid
      intro row0 hrow0
      cases hrow.symm.trans hrow0
      exact hvalid
    . exact .before hrow hvalid hvalid

theorem Announced.step {w0 : PairWorld}
    (h : Announced w0 pairId (p.world.db.pairs.find? pairId) (p.notes (won pairId)))
    (hkeeps : keepsPair crypto pairId p l = true) (hstep : p.step (server crypto) l = some p')
    : Announced w0 pairId (p'.world.db.pairs.find? pairId) (p'.notes (won pairId)) := by
  have hpair := pair_step pairId hstep
  generalize p'.world.db.pairs.find? pairId = after at hpair ⊢
  generalize p'.notes (won pairId) = notes at hpair ⊢
  cases hpair with
  | same => exact h
  | created hnone =>
    rw [hnone] at h
    generalize p.notes (won pairId) = notes at h
    cases h with
    | absent hnone0 => exact .valid (by simp [hnone0]) rfl
  | @revoked k verdict t s row after cont htask hprog hrow hrevokes hfirst =>
    rw [hrow] at h
    generalize p.notes (won pairId) = notes at h hfirst
    cases h with
    | valid hvalid0 hvalid =>
      rw [hfirst rfl]
      have hrow' : revokeRow s row = { row with
          revokedAt := some s.revokedAt, revokedBy := some s.signer, revokeSig := some s.sig } :=
        if_pos hrevokes
      have hpeer : row.peer s.signer = (revokeRow s row).peer s.signer := by rw [hrow']; rfl
      rw [hpeer]
      refine .first hvalid0 ⟨?_, ?_, ?_, ?_⟩ ?_ <;> rw [hrow']
      . exact hrevokes.1
      . exact hrevokes.2.1
    | before hrow0 hrevoked0 hrevoked => exact absurd hrevokes.2.2 hrevoked
    | first hvalid0 hholds hmember =>
      exact absurd (hrevokes.2.2.symm.trans hholds.revokedAt) nofun
  | @gone req hgone =>
    cases hrow : p.world.db.pairs.find? pairId with
    | some row => simp [keepsPair, hrow, hgone] at hkeeps
    | none =>
      rw [hrow] at h
      exact h

theorem announced_run {w0 : PairWorld} {ls : List PairLabel}
    (hrun : runPairs crypto w0 ls = some p)
    (hkeeps : Lts.Meets (Pool.step (server crypto)) (fun p l => keepsPair crypto pairId p l = true)
      (Pool.init w0) ls)
    : Announced w0 pairId (p.world.db.pairs.find? pairId) (p.notes (won pairId)) := by
  refine Lts.run_invariant
    (P := fun p => Announced w0 pairId (p.world.db.pairs.find? pairId) (p.notes (won pairId))) ?_
    (announced_init w0) hkeeps hrun
  intro p l p' h hl hstep
  exact h.step hl hstep

theorem filterMap_quiet {trace : PairTrace} (hquiet : Quiet trace) (pairId : Uuid)
    : trace.filterMap (won pairId) = [] ∧ trace.filterMap (told pairId) = [] := by
  have hnone : ∀ e : PairPerformed, e.op.reads = true → won pairId e = none ∧ told pairId e = none := by
    intro ⟨s, o, r⟩ ho
    cases o with
    | insertPair new | storedPair id | revoke s | publish d msg => cases ho
    | _ => exact ⟨rfl, rfl⟩
  exact ⟨List.filterMap_eq_nil_iff.mpr fun e he => (hnone e (hquiet e he)).1,
    List.filterMap_eq_nil_iff.mpr fun e he => (hnone e (hquiet e he)).2⟩

/--
A request that is done has announced what it has stored.
-/
theorem told_of_ends {req : PairsRequest} {a : Except ApiError Reply} {s : Unit} {trace : PairTrace}
    (h : Ends req a s trace) (pairId : Uuid)
    : trace.filterMap (told pairId) = trace.filterMap (won pairId) := by
  cases req with
  | register caller req =>
    cases h with
    | refused e hquiet | failed hquiet | created hquiet | existing hfields stored hquiet =>
      have ⟨hwon, htold⟩ := filterMap_quiet hquiet pairId
      simp [List.filterMap_cons, won, told, hwon, htold]
  | revoke caller path req =>
    cases h with
    | refused e hquiet | already hquiet | first hquiet =>
      have ⟨hwon, htold⟩ := filterMap_quiet hquiet pairId
      simp [List.filterMap_cons, won, told, hwon, htold]

/--
A request announces only what it has stored.
-/
theorem told_sublist {t : PairTask} (hsat : t.prog.Sat (Plan t.req) (Ends t.req) t.trace)
    (pairId : Uuid)
    : (t.trace.filterMap (told pairId)).Sublist (t.trace.filterMap (won pairId)) := by
  generalize t.req = req at hsat
  cases hprog : t.prog with
  | done s a =>
    rw [hprog] at hsat
    rw [told_of_ends hsat]
  | wait s o cont =>
    rw [hprog] at hsat
    have hat := hsat.1
    generalize t.trace = trace at hat
    cases req with
    | register caller req =>
      have hat : RegisterAt req trace o := hat
      cases hat with
      | read hreads hquiet | insertPair hfields hmembers hplatforms hquiet
      | storedPair hfields hquiet | tellA hquiet | tellB hquiet =>
        have ⟨hwon, htold⟩ := filterMap_quiet hquiet pairId
        simp [List.filterMap_cons, won, told, hwon, htold]
    | revoke caller path req =>
      have hat : RevokeAt caller trace o := hat
      cases hat with
      | read hreads hquiet | revoke hsigner hquiet | tellPeer hquiet | tellMe hquiet =>
        have ⟨hwon, htold⟩ := filterMap_quiet hquiet pairId
        simp [List.filterMap_cons, won, told, hwon, htold]

/-!
What registering a pair again answers.
-/

theorem insertPair_conflict {w w' : PairWorld} {new : NewPair}
    (h : w.insertPair new = (w', some false)) : (w.db.pairs.find? new.pairId).isSome := by
  unfold PairWorld.insertPair at h
  split at h
  . cases h
  . cases h
  . next hinsert =>
    have hstored := storedPair_of_existing hinsert
    unfold storedPair at hstored
    have ⟨row, hrow, _⟩ := Option.map_eq_some_iff.mp hstored
    rw [hrow]
    rfl

theorem insertPair_of_exists {w : PairWorld} {new : NewPair} {row : PairRow}
    (hrow : w.db.pairs.find? new.pairId = some row) (hstorable : Storable new.createdAtMs)
    (hne : new.deviceA ≠ new.deviceB) : (w.insertPair new).2 = some false := by
  have hinsert : HandLiveRelay.Pairs.insert w.db new = some (w.db, .existing {
      deviceA := row.deviceA
      deviceB := row.deviceB
      attestation := row.attestation
      createdAtMs := row.createdAt
    }) := by
    unfold HandLiveRelay.Pairs.insert
    dsimp only
    rw [dif_pos ⟨hstorable, hne⟩]
    split
    . next p hfind =>
      cases hfind.symm.trans hrow
      rfl
    . next hfind => cases hfind.symm.trans hrow
  unfold PairWorld.insertPair
  rw [hinsert]

theorem insertPair_of_not_storable {w : PairWorld} {new : NewPair}
    (h : ¬ Storable new.createdAtMs) : (w.insertPair new).2 = none := by
  unfold PairWorld.insertPair HandLiveRelay.Pairs.insert
  dsimp only
  rw [dif_neg (fun hinsert => h hinsert.1)]

theorem storedPair_of_later {db db' : Db} {row row' : PairRow}
    (hrow : db.pairs.find? pairId = some row) (hrow' : db'.pairs.find? pairId = some row')
    (hlater : row.Later row') : storedPair db' pairId = storedPair db pairId := by
  unfold storedPair
  rw [hrow, hrow', Option.map_some, Option.map_some, hlater.deviceA, hlater.deviceB,
    hlater.attestation, hlater.createdAt]

/--
A request whose insertion was a conflict has the pair to look up, and has looked up what is stored.
-/
structure LooksUp (pairId : Uuid) (p : PairPool) : Prop where
  conflict : ∀ (k : Nat) (t : PairTask), p.tasks[k]? = some t →
    ∀ new, ⟨(), .insertPair new, some false⟩ ∈ t.trace → new.pairId = pairId →
      (p.world.db.pairs.find? pairId).isSome
  lookup : ∀ (k : Nat) (t : PairTask), p.tasks[k]? = some t →
    ∀ stored, ⟨(), .storedPair pairId, stored⟩ ∈ t.trace →
      (p.world.db.pairs.find? pairId).isSome ∧ stored = storedPair p.world.db pairId

theorem LooksUp.step (h : LooksUp pairId p) (hkeeps : keepsPair crypto pairId p l = true)
    (hplan : ∀ (k : Nat) (t : PairTask), p.tasks[k]? = some t
      → t.prog.Sat (Plan t.req) (Ends t.req) t.trace)
    (hstep : p.step (server crypto) l = some p') : LooksUp pairId p' := by
  have hstays : (p.world.db.pairs.find? pairId).isSome
      → (p'.world.db.pairs.find? pairId).isSome
        ∧ storedPair p'.world.db pairId = storedPair p.world.db pairId := by
    intro hsome
    have ⟨row, hrow⟩ := Option.isSome_iff_exists.mp hsome
    have ⟨row', hrow', hlater⟩ := later_step hkeeps hstep hrow
    exact ⟨by rw [hrow']; rfl, storedPair_of_later hrow hrow' hlater⟩
  constructor
  . intro k t ht new hmem hpair
    have htask := Pool.task_step hstep ht
    generalize p'.world = w' at htask hstays
    cases htask with
    | new req hnone => cases hmem
    | same htask => exact (hstays (h.conflict k t htask new hmem hpair)).1
    | @performed f t s o cont w r htask hprog hperform =>
      cases List.mem_cons.mp hmem with
      | inr hmem => exact (hstays (h.conflict k t htask new hmem hpair)).1
      | inl heq =>
        cases heq
        exact (hstays (hpair ▸ insertPair_conflict (Option.some.inj hperform))).1
  . intro k t ht stored hmem
    have htask := Pool.task_step hstep ht
    generalize p'.world = w' at htask hstays
    have hold : ∀ t, p.tasks[k]? = some t → ⟨(), .storedPair pairId, stored⟩ ∈ t.trace
        → (w'.db.pairs.find? pairId).isSome ∧ stored = storedPair w'.db pairId := by
      intro t ht hmem
      have ⟨hsome, hstored⟩ := h.lookup k t ht stored hmem
      have ⟨hsome', hstored'⟩ := hstays hsome
      exact ⟨hsome', hstored.trans hstored'.symm⟩
    cases htask with
    | new req hnone => cases hmem
    | same htask => exact hold t htask hmem
    | @performed f t s o cont w r htask hprog hperform =>
      cases List.mem_cons.mp hmem with
      | inr hmem => exact hold t htask hmem
      | inl heq =>
        cases heq
        cases hperform
        have hsat := hplan k t htask
        rw [hprog] at hsat
        have hconflict : ∃ new, new.pairId = pairId
            ∧ ⟨(), .insertPair new, some false⟩ ∈ t.trace := by
          have hat := hsat.1
          generalize t.req = req at hat
          generalize t.trace = trace at hat
          cases req with
          | revoke caller path req =>
            cases hat with
            | read hreads hquiet => cases hreads
          | register caller req =>
            cases hat with
            | read hreads hquiet => cases hreads
            | storedPair hfields hquiet => exact ⟨_, rfl, List.mem_cons_self⟩
        have ⟨new, hpair, hmem⟩ := hconflict
        exact ⟨h.conflict k t htask new hmem hpair, rfl⟩

theorem looksUp_run {w0 : PairWorld} {ls : List PairLabel} (hrun : runPairs crypto w0 ls = some p)
    (hkeeps : Lts.Meets (Pool.step (server crypto)) (fun p l => keepsPair crypto pairId p l = true)
      (Pool.init w0) ls)
    : LooksUp pairId p := by
  refine Lts.run_history (P := fun _ p => LooksUp pairId p) ?_ ?_ hkeeps hrun
  . constructor <;> intro k t ht <;> simp [Pool.init] at ht
  . intro ls p l p' hrun h hl hstep
    exact h.step hl (fun k t ht => Pool.sat_run (sat_code crypto) hrun ht) hstep

theorem Quiet.not_mem_insertPair {trace : PairTrace} (h : Quiet trace) {new : NewPair}
    {r : Option Bool} : ⟨(), .insertPair new, r⟩ ∉ trace :=
  fun hmem => absurd (h _ hmem) nofun

theorem Quiet.eq_of_mem_insertPair {trace : PairTrace} (h : Quiet trace) {new new' : NewPair}
    {r r' : Option Bool}
    (hmem : ⟨(), .insertPair new, r⟩ ∈ (⟨(), .insertPair new', r'⟩ :: trace : PairTrace))
    : r = r' := by
  cases List.mem_cons.mp hmem with
  | inl heq =>
    cases heq
    rfl
  | inr hmem => exact absurd hmem h.not_mem_insertPair

/--
The devices of a request that comes to its insertion are two.
-/
theorem distinct_of_insertPair {w0 w : PairWorld} {ls : List PairLabel} {k : Nat} {caller : Uuid}
    {req : PairRequest} {new : NewPair} {r : Option Bool}
    (hdid : Pool.Did (server crypto) w0 ls k (.register caller req) (.insertPair new) r w)
    : (∃ fields, decodePairRequest req = .ok fields ∧ new = newPair req fields)
      ∧ req.deviceA ≠ req.deviceB := by
  have ⟨ls1, f, ls2, p1, t, s, cont, w', heq, hrun, hw, ht, hreq, hprog, hperform⟩ := hdid
  have hsat := Pool.sat_run (sat_code crypto) hrun ht
  rw [hprog, hreq] at hsat
  have hat : RegisterAt req t.trace (.insertPair new) := hsat.1
  generalize htrace : t.trace = trace at hat
  cases hat with
  | read hreads hquiet => cases hreads
  | @insertPair _ fields a b hfields hmembers hplatforms hquiet =>
    refine ⟨⟨fields, hfields, rfl⟩, ?_⟩
    intro hsame
    subst htrace
    have ⟨w1, _, f1, _, _, _, _, _, w2, _, _, _, _, _, _, hread⟩ :=
      Pool.did_of_mem_trace hrun ht hmembers
    have hresult : (w1.perform f1 (.memberDevices req.deviceA req.deviceB)).2 = (some a, some b) :=
      congrArg Prod.snd (Option.some.inj hread)
    have ⟨ha, hb⟩ := Prod.mk.inj hresult
    rw [hsame, hb] at ha
    cases ha
    exact hplatforms.2 hplatforms.1

theorem existingReply_storedPair {db : Db} {row : PairRow} {req : PairRequest} {fields : PairFields}
    (hrow : db.pairs.find? pairId = some row)
    : existingReply req fields (storedPair db pairId)
      = if row.deviceA = req.deviceA ∧ row.deviceB = req.deviceB
            ∧ row.attestation = fields.attestation then
          .ok (.ok row.createdAt)
        else
          .error .pairExists := by
  unfold storedPair
  rw [hrow]
  rfl

/--
The answer of a request whose insertion was a conflict.
-/
theorem reply_of_conflict {p0 : PairWorld} {ls : List PairLabel}
    (hrun : runPairs crypto p0 ls = some p)
    (hlooks : LooksUp pairId p) {k : Nat} {t : PairTask} (ht : p.tasks[k]? = some t)
    {caller : Uuid} {req : PairRequest} (hreq : t.req = .register caller req)
    (hpair : req.pairId = pairId) {reply : Except ApiError Reply} (hdone : t.prog = .done () reply)
    {fields : PairFields} (hfields : decodePairRequest req = .ok fields) {new : NewPair}
    (hconflict : ⟨(), .insertPair new, some false⟩ ∈ t.trace)
    : reply = existingReply req fields (storedPair p.world.db pairId) := by
  have hsat := Pool.sat_run (sat_code crypto) hrun ht
  rw [hdone, hreq] at hsat
  have hends : RegisterReplied req reply t.trace := hsat
  have hlookup := hlooks.lookup k t ht
  generalize t.trace = trace at hends hconflict hlookup
  cases hends with
  | refused e hquiet => exact absurd hconflict hquiet.not_mem_insertPair
  | failed hquiet =>
    cases hquiet.eq_of_mem_insertPair hconflict
  | created hquiet =>
    have hmem := Trace.mem_of_mem_cons (Trace.mem_of_mem_cons hconflict nofun) nofun
    cases hquiet.eq_of_mem_insertPair hmem
  | existing hfields' stored hquiet =>
    cases hfields.symm.trans hfields'
    subst hpair
    rw [(hlookup stored List.mem_cons_self).2]

/--
The answer of a request whose insertion was refused.
-/
theorem reply_of_failure {p0 : PairWorld} {ls : List PairLabel}
    (hrun : runPairs crypto p0 ls = some p) {k : Nat} {t : PairTask} (ht : p.tasks[k]? = some t)
    {caller : Uuid} {req : PairRequest} (hreq : t.req = .register caller req)
    {reply : Except ApiError Reply} (hdone : t.prog = .done () reply) {new : NewPair}
    (hfailed : ⟨(), .insertPair new, none⟩ ∈ t.trace) : reply = .error .internal := by
  have hsat := Pool.sat_run (sat_code crypto) hrun ht
  rw [hdone, hreq] at hsat
  have hends : RegisterReplied req reply t.trace := hsat
  generalize t.trace = trace at hends hfailed
  cases hends with
  | refused e hquiet => exact absurd hfailed hquiet.not_mem_insertPair
  | failed hquiet => rfl
  | created hquiet =>
    have hmem := Trace.mem_of_mem_cons (Trace.mem_of_mem_cons hfailed (by simp)) (by simp)
    cases hquiet.eq_of_mem_insertPair hmem
  | existing hfields stored hquiet =>
    have hmem := Trace.mem_of_mem_cons hfailed (by simp)
    cases hquiet.eq_of_mem_insertPair hmem

/--
Every request is answered.
-/
def AllDone (p : PairPool) : Prop :=
  ∀ t ∈ p.tasks, ∃ reply, t.prog = .done () reply

/--
What the requests have announced about the pair, next to the row.
-/
structure AnnouncedOnce (w0 : PairWorld) (pairId : Uuid) (p : PairPool) (row : PairRow) : Prop where
  valid : row.revokedAt = none → p.notes (told pairId) = []
  before : (∃ row0 ∈ w0.db.pairs.find? pairId, row0.revokedAt ≠ none) → p.notes (told pairId) = []
  first : row.revokedAt ≠ none → (∀ row0 ∈ w0.db.pairs.find? pairId, row0.revokedAt = none)
    → ∃ s, row.Holds s ∧ row.HasMember s.signer
      ∧ row.HasMember (row.peer s.signer) ∧ row.peer s.signer ≠ s.signer
      ∧ (p.notes (told pairId)).Sublist [(row.peer s.signer, s)]
      ∧ (AllDone p → p.notes (told pairId) = [(row.peer s.signer, s)])

theorem told_run {w0 : PairWorld} {ls : List PairLabel} (hrun : runPairs crypto w0 ls = some p)
    (pairId : Uuid)
    : (p.notes (told pairId)).Sublist (p.notes (won pairId))
      ∧ (AllDone p → p.notes (told pairId) = p.notes (won pairId)) := by
  have hsub : (p.notes (told pairId)).Sublist (p.notes (won pairId)) := by
    refine Pool.notes_sublist ?_
    intro t ht
    have ⟨k, hk⟩ := List.getElem?_of_mem ht
    exact told_sublist (Pool.sat_run (sat_code crypto) hrun hk) pairId
  refine ⟨hsub, ?_⟩
  intro hdone
  refine hsub.antisymm (Pool.notes_sublist ?_)
  intro t ht
  have ⟨k, hk⟩ := List.getElem?_of_mem ht
  have ⟨reply, hprog⟩ := hdone t ht
  have hends := Pool.sat_run (sat_code crypto) hrun hk
  rw [hprog] at hends
  rw [told_of_ends hends]

theorem announcedOnce_run {w0 : PairWorld} {ls : List PairLabel}
    (hrun : runPairs crypto w0 ls = some p)
    (hkeeps : Lts.Meets (Pool.step (server crypto)) (fun p l => keepsPair crypto pairId p l = true)
      (Pool.init w0) ls)
    {row : PairRow} (hrow : p.world.db.pairs.find? pairId = some row)
    : AnnouncedOnce w0 pairId p row := by
  have hannounced := announced_run hrun hkeeps
  have ⟨hsub, hall⟩ := told_run hrun pairId
  rw [hrow] at hannounced
  generalize p.notes (won pairId) = notes at hannounced hsub hall
  cases hannounced with
  | valid hvalid0 hvalid =>
    have hnil := List.sublist_nil.mp hsub
    exact ⟨fun _ => hnil, fun _ => hnil, fun hrevoked => absurd hvalid hrevoked⟩
  | before hrow0 hrevoked0 hrevoked =>
    have hnil := List.sublist_nil.mp hsub
    exact ⟨fun _ => hnil, fun _ => hnil, fun _ hvalid0 => absurd (hvalid0 _ hrow0) hrevoked0⟩
  | @first _ s hvalid0 hholds hmember =>
    have hdistinct := p.world.db.membersDistinct row (Table.mem_of_find? hrow)
    refine ⟨?_, ?_, fun _ _ => ⟨s, hholds, hmember, row.hasMember_peer _, ?_, hsub, hall⟩⟩
    . intro hvalid
      cases hvalid.symm.trans hholds.revokedAt
    . intro ⟨row0, hrow0, hrevoked0⟩
      exact absurd (hvalid0 row0 hrow0) hrevoked0
    . unfold PairRow.peer
      split
      . next hA => exact fun hB => hdistinct (hA.trans hB.symm)
      . next hA => exact hA

/--
What `POST /v1/pairs` does and answers when the pair is there. The times are those that a
`TIMESTAMPTZ` holds.
-/
structure KeepsPair (crypto : Crypto) (w0 : PairWorld) (ls : List PairLabel) (p : PairPool)
    (pairId : Uuid) : Prop where
  unchanged : ∀ {ls1 k verdict p1 p2 t caller req}, runPairs crypto w0 ls1 = some p1
    → p1.tasks[k]? = some t → t.req = .register caller req
    → p1.step (server crypto) (.exec k verdict) = some p2
    → ∀ row, p1.world.db.pairs.find? pairId = some row → p2.world.db.pairs.find? pairId = some row
  reply : ∀ {k t caller req reply new r w}, p.tasks[k]? = some t → t.req = .register caller req
    → req.pairId = pairId → t.prog = .done () reply
    → Pool.Did (server crypto) w0 ls k (.register caller req) (.insertPair new) r w
    → ∀ row, w.db.pairs.find? pairId = some row
    → reply = if -210866803200000 ≤ req.createdAt ∧ req.createdAt ≤ 9223372036854774 then
        if row.deviceA = req.deviceA ∧ row.deviceB = req.deviceB
            ∧ row.attestation = new.attestation then
          .ok (.ok row.createdAt)
        else
          .error .pairExists
      else
        .error .internal

theorem keepsPair_run {w0 : PairWorld} {ls : List PairLabel} (hrun : runPairs crypto w0 ls = some p)
    (hkeeps : Lts.Meets (Pool.step (server crypto)) (fun p l => keepsPair crypto pairId p l = true)
      (Pool.init w0) ls)
    : KeepsPair crypto w0 ls p pairId where
  unchanged := by
    intro ls1 k verdict p1 p2 t caller req hrun1 ht hreq hstep row hrow
    exact find?_register_step ht hreq (Pool.sat_run (sat_code crypto) hrun1 ht) hstep hrow
  reply := by
    intro k t caller req reply new r w ht hreq hpair hdone hdid row hrow
    obtain ⟨⟨fields, hfields, hnew⟩, hdistinct⟩ := distinct_of_insertPair hdid
    subst hnew hpair
    have hmem := Pool.mem_trace_of_did hrun hdid ht
    obtain ⟨ls1, verdict, ls2, p1, t1, _, cont, w', heq, hrun1, hw, ht1, _, hprog, hperform⟩ := hdid
    have hresult : (w.insertPair (newPair req fields)).2 = r :=
      congrArg Prod.snd (Option.some.inj hperform)
    by_cases hstorable : -210866803200000 ≤ req.createdAt ∧ req.createdAt ≤ 9223372036854774
    . have hinsert : (w.insertPair (newPair req fields)).2 = some false :=
        insertPair_of_exists hrow (Timestamp.inRange_iff.mpr hstorable) hdistinct
      cases hinsert.symm.trans hresult
      rw [reply_of_conflict hrun (looksUp_run hrun hkeeps) ht hreq rfl hdone hfields hmem,
        if_pos hstorable]
      -- what is stored at the end is what was stored at the insertion
      subst heq hw
      obtain ⟨row', hrow', hlater⟩ := later_of_append hkeeps hrun hrun1 hrow
      rw [storedPair_of_later hrow hrow' hlater, existingReply_storedPair hrow]
      rfl
    . have hinsert : (w.insertPair (newPair req fields)).2 = none :=
        insertPair_of_not_storable (fun h => hstorable (Timestamp.inRange_iff.mp h))
      cases hinsert.symm.trans hresult
      rw [reply_of_failure hrun ht hreq hdone hmem, if_neg hstorable]

/--
Whatever the requests do at the same time, the row of a pair that is not deleted keeps its columns
and its first statement. The request that stored it announces it to the other member, and no other
request announces anything. Registering the pair again changes nothing, and a request that comes to
its insertion is answered from the row if and only if the database can hold its time.
-/
theorem first_revocation_stays_and_is_announced_once {w0 : PairWorld} {ls : List PairLabel}
    (hrun : runPairs crypto w0 ls = some p)
    (hkeeps : Lts.Meets (Pool.step (server crypto)) (fun p l => keepsPair crypto pairId p l = true)
      (Pool.init w0) ls)
    : (∀ ls1 ls2 p1 row1, ls = ls1 ++ ls2 → runPairs crypto w0 ls1 = some p1
        → p1.world.db.pairs.find? pairId = some row1
        → ∃ row, p.world.db.pairs.find? pairId = some row ∧ row1.Later row)
      ∧ (∀ row, p.world.db.pairs.find? pairId = some row → AnnouncedOnce w0 pairId p row)
      ∧ KeepsPair crypto w0 ls p pairId := by
  refine ⟨?_, fun row hrow => announcedOnce_run hrun hkeeps hrow, keepsPair_run hrun hkeeps⟩
  intro ls1 ls2 p1 row1 heq hrun1 hrow1
  subst heq
  exact later_of_append hkeeps hrun hrun1 hrow1

end

namespace Sample

open HandLiveRelay.Sample

/--
A device revokes the pair.
-/
def revokes (n : UInt8) : PairsRequest :=
  .revoke (device n) HandLiveRelay.Sample.pairId.hyphenated {
    revokedAt := some 0
    sig := some (sign n (revokeMessage HandLiveRelay.Sample.pairId (device n) 0))
    reason := none
  }

def paired : PairWorld where
  db := pairedDb
  nowMs := 0

/--
A request does its next operations.
-/
def goesOn (k n : Nat) : List PairLabel :=
  List.replicate n (.exec k (.ok ()))

/--
Both members come to their update, and the iPhone, which also registers the pair once more, is the
first.
-/
def contested : List PairLabel :=
  [.start (revokes 1), .start (revokes 2), .start (.register (device 2) (pairRequest 0))]
    ++ goesOn 0 5 ++ goesOn 1 5 ++ goesOn 2 4 ++ goesOn 1 1 ++ goesOn 0 1 ++ goesOn 2 1 ++ goesOn 1 2

def isDone (t : PairTask) : Bool :=
  match t.prog with
  | .done _ _ => true
  | .wait _ _ _ => false

theorem of_isDone {t : PairTask} (h : isDone t = true) : ∃ reply, t.prog = .done () reply := by
  unfold isDone at h
  split at h
  . next reply hprog => exact ⟨reply, hprog⟩
  . cases h

/--
The insertion was refused and the request answered with 500.
-/
def isFailed (t : PairTask) : Bool :=
  match t.prog, t.trace with
  | .done _ (.error .internal), ⟨_, .insertPair _, none⟩ :: _ => true
  | _, _ => false

theorem of_isFailed {t : PairTask} (h : isFailed t = true)
    : t.prog = .done () (.error .internal) ∧ ∃ new, ⟨(), .insertPair new, none⟩ ∈ t.trace := by
  unfold isFailed at h
  split at h
  . next s s' new trace hprog htrace =>
    refine ⟨hprog, new, ?_⟩
    rw [htrace]
    exact List.mem_cons_self
  . cases h

end Sample

theorem contested_revocation_is_announced_once
    : ∃ p row s, runPairs .sample Sample.paired Sample.contested = some p
        ∧ p.world.db.pairs.find? HandLiveRelay.Sample.pairId = some row ∧ row.Holds s
        ∧ p.notes (told HandLiveRelay.Sample.pairId) = [(row.peer s.signer, s)] := by
  have hrun : (runPairs .sample Sample.paired Sample.contested).any (fun p =>
      decide (∀ t ∈ p.tasks, Sample.isDone t = true)
      && (p.world.db.pairs.find? HandLiveRelay.Sample.pairId).any (·.revokedAt.isSome)) = true := by
    decide +kernel
  have hkeeps : Lts.Meets (Pool.step (server .sample))
      (fun p l => keepsPair .sample HandLiveRelay.Sample.pairId p l = true)
      (Pool.init Sample.paired) Sample.contested := by
    decide +kernel
  have hvalid0 : ∀ row0 ∈ Sample.paired.db.pairs.find? HandLiveRelay.Sample.pairId,
      row0.revokedAt = none := by
    decide +kernel
  simp only [Option.any_eq_true, Bool.and_eq_true, decide_eq_true_eq] at hrun
  have ⟨p, hp, hdone, row, hrow, hrevoked⟩ := hrun
  have honce := (first_revocation_stays_and_is_announced_once hp hkeeps).2.1 row hrow
  have ⟨s, hholds, _, _, _, _, hall⟩ :=
    honce.first (Option.isSome_iff_ne_none.mp hrevoked) hvalid0
  exact ⟨p, row, s, hp, hrow, hholds, hall fun t ht => Sample.of_isDone (hdone t ht)⟩

/--
A pair that is there is registered again with a time that no `TIMESTAMPTZ` can hold, signed by both
members. The row would be in conflict, but the time is computed first: the database refuses the
insertion, and the request fails with 500.
-/
theorem registering_again_can_fail
    : ∃ p t, runPairs .sample Sample.paired
          ([.start (.register (HandLiveRelay.Sample.device 2) (HandLiveRelay.Sample.pairRequest 9223372036854775807))]
            ++ Sample.goesOn 0 4) = some p
        ∧ p.tasks[0]? = some t
        ∧ (Sample.paired.db.pairs.find? HandLiveRelay.Sample.pairId).isSome
        ∧ (∃ new, ⟨(), .insertPair new, none⟩ ∈ t.trace)
        ∧ t.prog = .done () (.error .internal) := by
  have hrun : (runPairs .sample Sample.paired
      ([.start (.register (HandLiveRelay.Sample.device 2) (HandLiveRelay.Sample.pairRequest 9223372036854775807))]
        ++ Sample.goesOn 0 4)).any (fun p => p.tasks[0]?.any Sample.isFailed) = true := by
    decide +kernel
  simp only [Option.any_eq_true] at hrun
  have ⟨p, hp, t, ht, hfailed⟩ := hrun
  have ⟨hprog, hnew⟩ := Sample.of_isFailed hfailed
  exact ⟨p, t, hp, ht, by decide +kernel, hnew, hprog⟩

end Routes.PairRequests

end HandLiveRelay
