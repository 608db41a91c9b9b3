import HandLiveRelay.Lib.Pool
import HandLiveRelay.Routes.Effects

/-!
This module contains the handlers of `POST /v1/pairs` and `POST /v1/pairs/{pair_id}/revoke` statement
by statement, and any number of them at work at the same time. Run without interruption a handler
does what it does as one step in `Routes.Pairs`. Then it contains for every statement the record of
the request when it asks for it.
-/

namespace HandLiveRelay.Routes.PairRequests

open Fiber Routes.Pairs HandLiveRelay.Pairs

/--
The operations of the two handlers: a statement of the database, the rate limit, the clock, or a
message on the bus. An insertion the database refuses, and a row that is not there, are `none`.
-/
inductive PairOp where
  | findKey (deviceId : Uuid)
  | checkDevice (deviceId : Uuid)
  | memberDevices (deviceA deviceB : Uuid)
  | insertPair (new : NewPair)
  | storedPair (pairId : Uuid)
  | members (pairId : Uuid)
  | nowMs
  | revoke (statement : RevokeStatement)
  | publish (deviceId : Uuid) (msg : BusMessage)

@[reducible]
def PairOp.Res : PairOp → Type
  | findKey _ => Option Devices.DeviceKey
  | checkDevice _ => Except ApiError Unit
  | memberDevices _ _ => Option MemberDevice × Option MemberDevice
  | insertPair _ => Option Bool
  | storedPair _ => Option StoredPair
  | members _ => Option (Uuid × Uuid)
  | nowMs => Int64
  | revoke _ => Option Uuid
  | publish _ _ => Unit

abbrev PairCode := Code Unit PairOp PairOp.Res (Except ApiError Reply)

/--
Do an operation and go on with its result.
-/
def call (o : PairOp) (k : o.Res → PairCode) : PairCode :=
  Code.perform o >>= k

def answer (r : Except ApiError Reply) : PairCode :=
  pure r

inductive PairsRequest where
  | register (caller : Uuid) (req : PairRequest)
  | revoke (caller : Uuid) (path : String) (req : RevokeRequest)

/--
The extractor and the limit that both handlers begin with.
-/
def authenticated (caller : Uuid) (k : PairCode) : PairCode :=
  call (.findKey caller) fun (found : Option Devices.DeviceKey) =>
    match usableKey found with
    | .error e => answer (.error e)
    | .ok _ =>
      call (.checkDevice caller) fun
      | .error e => answer (.error e)
      | .ok () => k

def newPair (req : PairRequest) (fields : PairFields) : NewPair where
  pairId := req.pairId
  deviceA := req.deviceA
  deviceB := req.deviceB
  attestation := fields.attestation
  sigA := fields.sigA
  sigB := fields.sigB
  createdAtMs := req.createdAt

def claim (req : PairRequest) (fields : PairFields) : PairClaim where
  pairId := req.pairId
  deviceA := req.deviceA
  deviceB := req.deviceB
  createdAtMs := req.createdAt
  attestation := fields.attestation
  sigA := fields.sigA
  sigB := fields.sigB

/--
The answer when the pair is there already. The row is looked up after the insertion, so it may be
gone.
-/
def existingReply (req : PairRequest) (fields : PairFields)
    : Option StoredPair → Except ApiError Reply
  | none => .error .internal
  | some stored =>
    if stored.deviceA = req.deviceA ∧ stored.deviceB = req.deviceB
        ∧ stored.attestation = fields.attestation then
      .ok (.ok stored.createdAtMs)
    else
      .error .pairExists

variable (crypto : Crypto)

def register (caller : Uuid) (req : PairRequest) : PairCode :=
  authenticated caller <|
    match decodePairRequest req with
    | .error e => answer (.error e)
    | .ok fields =>
      if caller ≠ req.deviceA ∧ caller ≠ req.deviceB then
        answer (.error .notPaired)
      else
        call (.memberDevices req.deviceA req.deviceB) fun
        | (some a, some b) =>
          if a.platform ≠ .android ∨ b.platform = .android then
            answer (.error .badRequest)
          else
            match verifyPairClaim crypto (claim req fields) a.ikSigPub b.ikSigPub with
            | .error e => answer (.error e)
            | .ok () =>
              call (.insertPair (newPair req fields)) fun
              | none => answer (.error .internal)
              | some true =>
                -- both connections start routing for the new pair
                call (.publish req.deviceA .pairsChanged) fun _ =>
                  call (.publish req.deviceB .pairsChanged) fun _ =>
                    answer (.ok (.created req.createdAt))
              | some false =>
                call (.storedPair req.pairId) fun stored =>
                  answer (existingReply req fields stored)
        | _ => answer (.error .deviceNotFound)

def revoke (caller : Uuid) (path : String) (req : RevokeRequest) : PairCode :=
  authenticated caller <|
    match Uuid.parseStr path with
    | none => answer (.error .badRequest)
    | some pairId =>
      if req.reason.any (fun r => !revokeReasons.contains r) then
        answer (.error .badRequest)
      else
        call (.members pairId) fun
        | none => answer (.error .deviceNotFound)
        | some (a, b) =>
          if a ≠ caller ∧ b ≠ caller then
            answer (.error .notPaired)
          else
            call (.findKey caller) fun
            | none => answer (.error .deviceNotFound)
            | some key =>
              call .nowMs fun (nowMs : Int64) =>
                match verifyStatement crypto pairId caller key.ikSigPub req.revokedAt req.sig nowMs with
                | .error e => answer (.error e)
                | .ok statement =>
                  call (.revoke statement) fun
                  -- already revoked earlier: the first statement stays
                  | none => answer (.ok .noContent)
                  | some peer =>
                    call (.publish peer (.pairRevoked statement)) fun _ =>
                      call (.publish caller .pairsChanged) fun _ => answer (.ok .noContent)

/--
What the requests share: the database and the clock.
-/
structure PairWorld where
  db : Db
  nowMs : Int64

/--
`INSERT ... ON CONFLICT (pair_id) DO NOTHING`: whether a row was inserted.
-/
def PairWorld.insertPair (w : PairWorld) (new : NewPair) : PairWorld × Option Bool :=
  match HandLiveRelay.Pairs.insert w.db new with
  | none => (w, none)
  | some (db, .created) => ({ w with db }, some true)
  | some (db, .existing _) => ({ w with db }, some false)

def storedPair (db : Db) (pairId : Uuid) : Option StoredPair :=
  (db.pairs.find? pairId).map fun p => {
    deviceA := p.deviceA
    deviceB := p.deviceB
    attestation := p.attestation
    createdAtMs := p.createdAt
  }

/--
Do an operation, with the verdict of the rate limit if it is the one that asks for it.
-/
def PairWorld.perform (w : PairWorld) (verdict : Except ApiError Unit)
    : (o : PairOp) → PairWorld × o.Res
  | .findKey d => (w, Devices.findKey w.db d)
  | .checkDevice _ => (w, verdict)
  | .memberDevices a b => (w, memberDevice w.db a, memberDevice w.db b)
  | .insertPair new => w.insertPair new
  | .storedPair pairId => (w, storedPair w.db pairId)
  | .members pairId => (w, HandLiveRelay.Pairs.members w.db pairId)
  | .nowMs => (w, w.nowMs)
  | .revoke s =>
    let (db, peer) := HandLiveRelay.Pairs.revoke w.db s
    ({ w with db }, peer)
  | .publish _ _ => (w, ())

/--
What happens next to the requests: a request to another endpoint is handled, the clock goes on.
-/
inductive PairEvent where
  | http (req : HandLiveRelay.Request)
  | clock (nowMs : Int64)

def PairWorld.happen (w : PairWorld) : PairEvent → Option PairWorld
  | .http (.registerPair ..) | .http (.revokePair ..) => none
  | .http req => some { w with db := (req.handle crypto w.db w.nowMs).db }
  | .clock nowMs => some { w with nowMs }

def server : Server PairWorld PairsRequest (Except ApiError Unit) PairEvent PairOp PairOp.Res
    (Except ApiError Reply) where
  code
    | .register caller req => register crypto caller req
    | .revoke caller path req => revoke crypto caller path req
  perform w o verdict := some (w.perform verdict o)
  happen := PairWorld.happen crypto

abbrev PairPool := Pool PairWorld PairsRequest PairOp PairOp.Res (Except ApiError Reply)

abbrev PairLabel := Pool.Label PairsRequest (Except ApiError Unit) PairEvent

abbrev PairTask := Task PairsRequest PairOp PairOp.Res (Except ApiError Reply)

abbrev PairTrace := Trace Unit PairOp PairOp.Res

abbrev PairPerformed := Performed Unit PairOp PairOp.Res

abbrev runPairs (w : PairWorld) (ls : List PairLabel) : Option PairPool :=
  Lts.run (Pool.step (server crypto)) (Pool.init w) ls

/-!
A handler on its own.
-/

/--
Serve a request without interruption, with a verdict of the rate limit.
-/
def served (limit : Option ApiError) (w : PairWorld) (code : PairCode)
    : PairWorld × Except ApiError Reply :=
  (code.start ()).alone (fun w => w.perform (checkLimit limit)) w

section

variable {crypto} {w : PairWorld} {limit : Option ApiError}

@[simp]
theorem served_answer (r : Except ApiError Reply) : served limit w (answer r) = (w, r) := rfl

@[simp]
theorem served_findKey (d : Uuid) (k)
    : served limit w (call (.findKey d) k) = served limit w (k (Devices.findKey w.db d)) := rfl

@[simp]
theorem served_checkDevice (d : Uuid) (k)
    : served limit w (call (.checkDevice d) k) = served limit w (k (checkLimit limit)) := rfl

@[simp]
theorem served_memberDevices (a b : Uuid) (k)
    : served limit w (call (.memberDevices a b) k)
      = served limit w (k (memberDevice w.db a, memberDevice w.db b)) := rfl

@[simp]
theorem served_members (pairId : Uuid) (k)
    : served limit w (call (.members pairId) k)
      = served limit w (k (HandLiveRelay.Pairs.members w.db pairId)) := rfl

@[simp]
theorem served_nowMs (k) : served limit w (call .nowMs k) = served limit w (k w.nowMs) := rfl

@[simp]
theorem served_publish (d : Uuid) (msg : BusMessage) (k)
    : served limit w (call (.publish d msg) k) = served limit w (k ()) := rfl

@[simp]
theorem served_revoke (s : RevokeStatement) (k)
    : served limit w (call (.revoke s) k)
      = served limit { w with db := (HandLiveRelay.Pairs.revoke w.db s).1 }
          (k (HandLiveRelay.Pairs.revoke w.db s).2) := rfl

@[simp]
theorem served_insertPair (new : NewPair) (k)
    : served limit w (call (.insertPair new) k)
      = served limit (w.insertPair new).1 (k (w.insertPair new).2) := rfl

@[simp]
theorem served_storedPair (pairId : Uuid) (k)
    : served limit w (call (.storedPair pairId) k) = served limit w (k (storedPair w.db pairId)) := rfl

theorem served_authenticated {caller : Uuid} {k : PairCode}
    : served limit w (authenticated caller k)
      = match authenticate w.db caller, checkLimit limit with
        | .error e, _ => (w, .error e)
        | .ok _, .error e => (w, .error e)
        | .ok _, .ok () => served limit w k := by
  unfold authenticated authenticate
  rw [served_findKey]
  cases usableKey (Devices.findKey w.db caller) with
  | error e => rfl
  | ok key =>
    dsimp only
    rw [served_checkDevice]
    cases checkLimit limit with
    | error e => rfl
    | ok _ => rfl

theorem storedPair_of_existing {db db' : Db} {new : NewPair} {stored : StoredPair}
    (h : HandLiveRelay.Pairs.insert db new = some (db', .existing stored))
    : storedPair db new.pairId = some stored := by
  unfold HandLiveRelay.Pairs.insert at h
  dsimp only at h
  split at h
  . split at h
    . next hfind =>
      cases h
      unfold storedPair
      rw [show db.pairs.find? new.pairId = _ from hfind]
      rfl
    . split at h
      . cases h
      . cases h
  . cases h

/--
`POST /v1/pairs` without interruption is the request as one step.
-/
theorem served_register (caller : Uuid) (req : PairRequest)
    : served limit w (register crypto caller req)
      = ({ w with db := (Routes.Pairs.register crypto w.db caller limit req).db },
          (Routes.Pairs.register crypto w.db caller limit req).reply) := by
  unfold register Routes.Pairs.register checkRegister
  rw [served_authenticated]
  cases authenticate w.db caller with
  | error e => rfl
  | ok key =>
    cases checkLimit limit with
    | error e => rfl
    | ok _ =>
      dsimp only [bind, Except.bind]
      cases decodePairRequest req with
      | error e => rfl
      | ok fields =>
        dsimp only
        split
        . rfl
        . rw [served_memberDevices]
          cases memberDevice w.db req.deviceA with
          | none => rfl
          | some a =>
            cases memberDevice w.db req.deviceB with
            | none => rfl
            | some b =>
              dsimp only
              split
              . rfl
              . unfold claim
                cases verifyPairClaim crypto _ a.ikSigPub b.ikSigPub with
                | error e => rfl
                | ok _ =>
                  dsimp only [pure, Except.pure]
                  rw [served_insertPair]
                  unfold PairWorld.insertPair newPair
                  cases hinsert : HandLiveRelay.Pairs.insert w.db _ with
                  | none => rfl
                  | some out =>
                    have ⟨db, outcome⟩ := out
                    cases outcome with
                    | created => rfl
                    | existing stored =>
                      dsimp only
                      rw [served_storedPair, served_answer, Pairs.insert_existing hinsert]
                      rw [show storedPair w.db req.pairId = _ from storedPair_of_existing hinsert]
                      unfold existingReply
                      dsimp only
                      split
                      . rfl
                      . rfl

/--
`POST /v1/pairs/{pair_id}/revoke` without interruption is the request as one step.
-/
theorem served_revoke_request (caller : Uuid) (path : String) (req : RevokeRequest)
    : served limit w (revoke crypto caller path req)
      = ({ w with db := (Routes.Pairs.revoke crypto w.db w.nowMs caller limit path req).db },
          (Routes.Pairs.revoke crypto w.db w.nowMs caller limit path req).reply) := by
  unfold revoke Routes.Pairs.revoke checkRevoke
  rw [served_authenticated]
  cases authenticate w.db caller with
  | error e => rfl
  | ok key =>
    cases checkLimit limit with
    | error e => rfl
    | ok _ =>
      dsimp only [bind, Except.bind]
      cases Uuid.parseStr path with
      | none => rfl
      | some pairId =>
        dsimp only
        split
        . rfl
        . rw [served_members]
          cases HandLiveRelay.Pairs.members w.db pairId with
          | none => rfl
          | some members =>
            have ⟨a, b⟩ := members
            dsimp only
            split
            . rfl
            . rw [served_findKey]
              cases Devices.findKey w.db caller with
              | none => rfl
              | some key =>
                dsimp only
                rw [served_nowMs]
                unfold VerifyCall.result
                dsimp only
                cases verifyStatement crypto pairId caller key.ikSigPub req.revokedAt req.sig w.nowMs with
                | error e => rfl
                | ok statement =>
                  dsimp only
                  rw [served_revoke]
                  cases HandLiveRelay.Pairs.revoke w.db statement with
                  | mk db peer =>
                    cases peer with
                    | none => rfl
                    | some peer => rfl

end

/-!
What the handlers ask for, and when.
-/

/--
The operations that only read.
-/
def PairOp.reads : PairOp → Bool
  | findKey _ | checkDevice _ | memberDevices _ _ | members _ | nowMs => true
  | insertPair _ | storedPair _ | revoke _ | publish _ _ => false

def Quiet (trace : PairTrace) : Prop :=
  ∀ e ∈ trace, e.op.reads = true

/--
The record of `POST /v1/pairs` when it asks for an operation.
-/
inductive RegisterAt (req : PairRequest) : PairTrace → PairOp → Prop where
  | read {trace : PairTrace} {o : PairOp} (hreads : o.reads = true) (hquiet : Quiet trace)
      : RegisterAt req trace o
  | insertPair {trace : PairTrace} {fields : PairFields} {a b : MemberDevice}
      (hfields : decodePairRequest req = .ok fields)
      (hmembers : ⟨(), .memberDevices req.deviceA req.deviceB, (some a, some b)⟩ ∈ trace)
      (hplatforms : a.platform = .android ∧ b.platform ≠ .android) (hquiet : Quiet trace)
      : RegisterAt req trace (.insertPair (newPair req fields))
  | storedPair {trace : PairTrace} {fields : PairFields}
      (hfields : decodePairRequest req = .ok fields) (hquiet : Quiet trace)
      : RegisterAt req (⟨(), .insertPair (newPair req fields), some false⟩ :: trace)
          (.storedPair req.pairId)
  | tellA {trace : PairTrace} {new : NewPair} (hquiet : Quiet trace)
      : RegisterAt req (⟨(), .insertPair new, some true⟩ :: trace)
          (.publish req.deviceA .pairsChanged)
  | tellB {trace : PairTrace} {new : NewPair} (hquiet : Quiet trace)
      : RegisterAt req (⟨(), .publish req.deviceA .pairsChanged, ()⟩
            :: ⟨(), .insertPair new, some true⟩ :: trace)
          (.publish req.deviceB .pairsChanged)

/--
The record of `POST /v1/pairs` at its end.
-/
inductive RegisterReplied (req : PairRequest) : Except ApiError Reply → PairTrace → Prop where
  | refused {trace : PairTrace} (e : ApiError) (hquiet : Quiet trace)
      : RegisterReplied req (.error e) trace
  | failed {trace : PairTrace} {new : NewPair} (hquiet : Quiet trace)
      : RegisterReplied req (.error .internal) (⟨(), .insertPair new, none⟩ :: trace)
  | created {trace : PairTrace} {new : NewPair} (hquiet : Quiet trace)
      : RegisterReplied req (.ok (.created req.createdAt))
          (⟨(), .publish req.deviceB .pairsChanged, ()⟩
            :: ⟨(), .publish req.deviceA .pairsChanged, ()⟩
            :: ⟨(), .insertPair new, some true⟩ :: trace)
  | existing {trace : PairTrace} {fields : PairFields}
      (hfields : decodePairRequest req = .ok fields) (stored : Option StoredPair)
      (hquiet : Quiet trace)
      : RegisterReplied req (existingReply req fields stored)
          (⟨(), .storedPair req.pairId, stored⟩
            :: ⟨(), .insertPair (newPair req fields), some false⟩ :: trace)

/--
The record of `POST /v1/pairs/{pair_id}/revoke` when it asks for an operation.
-/
inductive RevokeAt (caller : Uuid) : PairTrace → PairOp → Prop where
  | read {trace : PairTrace} {o : PairOp} (hreads : o.reads = true) (hquiet : Quiet trace)
      : RevokeAt caller trace o
  | revoke {trace : PairTrace} {s : RevokeStatement} (hsigner : s.signer = caller)
      (hquiet : Quiet trace)
      : RevokeAt caller trace (.revoke s)
  | tellPeer {trace : PairTrace} {s : RevokeStatement} {peer : Uuid} (hquiet : Quiet trace)
      : RevokeAt caller (⟨(), .revoke s, some peer⟩ :: trace) (.publish peer (.pairRevoked s))
  | tellMe {trace : PairTrace} {s : RevokeStatement} {peer : Uuid} (hquiet : Quiet trace)
      : RevokeAt caller (⟨(), .publish peer (.pairRevoked s), ()⟩
            :: ⟨(), .revoke s, some peer⟩ :: trace)
          (.publish caller .pairsChanged)

/--
The record of `POST /v1/pairs/{pair_id}/revoke` at its end.
-/
inductive RevokeReplied (caller : Uuid) : Except ApiError Reply → PairTrace → Prop where
  | refused {trace : PairTrace} (e : ApiError) (hquiet : Quiet trace)
      : RevokeReplied caller (.error e) trace
  | already {trace : PairTrace} {s : RevokeStatement} (hquiet : Quiet trace)
      : RevokeReplied caller (.ok .noContent) (⟨(), .revoke s, none⟩ :: trace)
  | first {trace : PairTrace} {s : RevokeStatement} {peer : Uuid} (hquiet : Quiet trace)
      : RevokeReplied caller (.ok .noContent)
          (⟨(), .publish caller .pairsChanged, ()⟩ :: ⟨(), .publish peer (.pairRevoked s), ()⟩
            :: ⟨(), .revoke s, some peer⟩ :: trace)

def Plan : PairsRequest → Contract Unit PairOp PairOp.Res
  | .register _ req, _, trace, o => RegisterAt req trace o
  | .revoke caller _ _, _, trace, o => RevokeAt caller trace o

def Ends : PairsRequest → Except ApiError Reply → Unit → PairTrace → Prop
  | .register _ req, a, _, trace => RegisterReplied req a trace
  | .revoke caller _ _, a, _, trace => RevokeReplied caller a trace

section

variable {C : Contract Unit PairOp PairOp.Res}
  {Q : Except ApiError Reply → Unit → PairTrace → Prop} {trace : PairTrace} {caller : Uuid}

theorem Quiet.cons {o : PairOp} {r : o.Res} (h : Quiet trace) (ho : o.reads = true)
    : Quiet (⟨(), o, r⟩ :: trace) := by
  intro e he
  cases List.mem_cons.mp he with
  | inl heq => exact heq ▸ ho
  | inr he => exact h e he

theorem sat_call {o : PairOp} {k : o.Res → PairCode} (hC : C () trace o)
    (hk : ∀ r, ((k r).start ()).Sat C Q (⟨(), o, r⟩ :: trace))
    : ((call o k).start ()).Sat C Q trace :=
  Prog.sat_perform hC hk

theorem sat_answer {r : Except ApiError Reply} (h : Q r () trace)
    : ((answer r).start ()).Sat C Q trace :=
  h

/--
An operation that only reads, where the contract permits those after such ones.
-/
theorem sat_read {o : PairOp} {k : o.Res → PairCode} (ho : o.reads = true) (hquiet : Quiet trace)
    (hC : ∀ trace, Quiet trace → C () trace o)
    (hk : ∀ r trace, Quiet trace → ((k r).start ()).Sat C Q trace)
    : ((call o k).start ()).Sat C Q trace := by
  refine sat_call (hC trace hquiet) ?_
  intro r
  exact hk r _ (hquiet.cons ho)

theorem sat_authenticated {k : PairCode}
    (hC : ∀ o trace, o.reads = true → Quiet trace → C () trace o)
    (hrefused : ∀ e trace, Quiet trace → Q (.error e) () trace)
    (hk : ∀ trace, Quiet trace → (k.start ()).Sat C Q trace)
    : ((authenticated caller k).start ()).Sat C Q [] := by
  refine sat_read rfl nofun (fun trace => hC _ trace rfl) ?_
  intro found trace hquiet
  split
  . exact sat_answer (hrefused _ _ hquiet)
  . refine sat_read rfl hquiet (fun trace => hC _ trace rfl) ?_
    intro r trace hquiet
    cases r with
    | error e => exact sat_answer (hrefused _ _ hquiet)
    | ok _ => exact hk trace hquiet

theorem sat_register (req : PairRequest)
    : ((register crypto caller req).start ()).Sat (Plan (.register caller req))
        (Ends (.register caller req)) [] := by
  have hC : ∀ o trace, o.reads = true → Quiet trace → Plan (.register caller req) () trace o :=
    fun o trace => .read
  refine sat_authenticated hC (fun e trace => .refused e) ?_
  intro trace hquiet
  split
  . exact sat_answer (.refused _ hquiet)
  . next fields hfields =>
    split
    . exact sat_answer (.refused _ hquiet)
    . refine sat_call (hC _ trace rfl hquiet) ?_
      intro r
      have hquiet : Quiet (⟨(), .memberDevices req.deviceA req.deviceB, r⟩ :: trace) :=
        hquiet.cons rfl
      split
      . split
        . exact sat_answer (.refused _ hquiet)
        . next hplatforms =>
          split
          . exact sat_answer (.refused _ hquiet)
          . refine sat_call (.insertPair hfields List.mem_cons_self (by simpa using hplatforms)
              hquiet) ?_
            intro r
            match r with
            | none => exact sat_answer (.failed hquiet)
            | some true =>
              refine sat_call (.tellA hquiet) fun _ => sat_call (.tellB hquiet) fun _ => ?_
              exact sat_answer (.created hquiet)
            | some false =>
              refine sat_call (.storedPair hfields hquiet) ?_
              intro stored
              exact sat_answer (.existing hfields stored hquiet)
      . exact sat_answer (.refused _ hquiet)

theorem sat_revoke (path : String) (req : RevokeRequest)
    : ((revoke crypto caller path req).start ()).Sat (Plan (.revoke caller path req))
        (Ends (.revoke caller path req)) [] := by
  have hC : ∀ o trace, o.reads = true → Quiet trace → Plan (.revoke caller path req) () trace o :=
    fun o trace => .read
  refine sat_authenticated hC (fun e trace => .refused e) ?_
  intro trace hquiet
  split
  . exact sat_answer (.refused _ hquiet)
  . split
    . exact sat_answer (.refused _ hquiet)
    . refine sat_read rfl hquiet (fun trace => hC _ trace rfl) ?_
      intro r trace hquiet
      split
      . exact sat_answer (.refused _ hquiet)
      . split
        . exact sat_answer (.refused _ hquiet)
        . refine sat_read rfl hquiet (fun trace => hC _ trace rfl) ?_
          intro r trace hquiet
          split
          . exact sat_answer (.refused _ hquiet)
          . refine sat_read rfl hquiet (fun trace => hC _ trace rfl) ?_
            intro nowMs trace hquiet
            split
            . exact sat_answer (.refused _ hquiet)
            . next statement hverify =>
              have ⟨_, hsigner, _⟩ := verifyStatement_eq_ok hverify
              refine sat_call (.revoke hsigner hquiet) ?_
              intro r
              cases r with
              | none => exact sat_answer (.already hquiet)
              | some peer =>
                refine sat_call (.tellPeer hquiet) fun _ => sat_call (.tellMe hquiet) fun _ => ?_
                exact sat_answer (.first hquiet)

theorem sat_code (req : PairsRequest)
    : (((server crypto).code req).start ()).Sat (Plan req) (Ends req) [] := by
  cases req with
  | register caller req => exact sat_register crypto req
  | revoke caller path req => exact sat_revoke crypto path req

end

end HandLiveRelay.Routes.PairRequests
