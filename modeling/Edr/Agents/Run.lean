import Edr.Agents

/-!
# Certificates in every run

What holds however the transactions of agents and operators are interleaved. Only the history of
single rows matters (`agentLaw`): a row of `agent_auth_keys` keeps its fingerprint and its endpoint,
and once it is revoked, it stays so; an endpoint that is retired stays so. Every statement is seen to
respect this from its own conditions, but for one: the update at the end of `registerAgent` sets the
status of the endpoint without a look at it. It is the lock that was taken before, when the status
was checked, that makes it safe (`meets_registerAgent`).
-/

namespace Edr.EndpointRepository

open Db Option Bool Discipline

variable {ι : Type} [DecidableEq ι]

/-! ## The history of a row -/

/-- What a key may become: it is revoked once, and nothing else of it changes. -/
structure AgentAuthKey.Precedes (key key' : AgentAuthKey) : Prop where
  certFingerprint : key'.certFingerprint = key.certFingerprint
  endpointId : key'.endpointId = key.endpointId
  isDelete : key'.isDelete = key.isDelete
  revokedAt : key.revokedAt.isSome = true → key'.revokedAt = key.revokedAt

theorem AgentAuthKey.Precedes.trans {key key' key'' : AgentAuthKey} (h : Precedes key key')
    (h' : Precedes key' key'') : Precedes key key'' where
  certFingerprint := h'.certFingerprint.trans h.certFingerprint
  endpointId := h'.endpointId.trans h.endpointId
  isDelete := h'.isDelete.trans h.isDelete
  revokedAt hr := (h'.revokedAt (by rwa [h.revokedAt hr])).trans (h.revokedAt hr)

/-- The history of the rows. -/
def agentLaw : Law agentSchema where
  Born
    | .endpoints => fun _ => True
    | .agentAuthKeys => fun key : AgentAuthKey =>
      key.revokedAt = none ∧ key.isDelete = false ∧
        key.certFingerprint.toLower = key.certFingerprint
    | .auditLogs => fun _ => True
  Follows
    | .endpoints => fun endpoint endpoint' : AgentEndpoint =>
      endpoint.row.status = .retired → endpoint'.row.status = .retired
    | .agentAuthKeys => AgentAuthKey.Precedes
    | .auditLogs => fun log log' : AgentAuditLog => log = log'
  refl
    | .endpoints => fun _ h => h
    | .agentAuthKeys => fun _ => ⟨rfl, rfl, rfl, fun _ => rfl⟩
    | .auditLogs => fun _ => rfl
  trans
    | .endpoints => fun _ _ _ h h' hr => h' (h hr)
    | .agentAuthKeys => fun _ _ _ h h' => h.trans h'
    | .auditLogs => fun _ _ _ h h' => h.trans h'

theorem precedes_revoked {key : AgentAuthKey} (h : key.active = true) (now : Time) :
    AgentAuthKey.Precedes key (revoked now key) := by
  refine ⟨rfl, rfl, rfl, fun hr => ?_⟩
  rw [AgentAuthKey.active, and_eq_true, isNone_iff_eq_none] at h
  rw [h.2] at hr
  cases hr

theorem toLower_toLower (s : String) : s.toLower.toLower = s.toLower := by
  have h (c : Char) : c.toLower.toLower = c.toLower := by
    unfold Char.toLower
    grind
  apply String.toList_injective
  simp [String.toLower, String.toList_map, h]

/-! ## What the transactions meet -/

section

variable {i : ι} {db : AgentDb ι}

abbrev Meets {α : Type} (i : ι) (Q : α → AgentDb ι → Prop) (p : Tx ι α) (db : AgentDb ι) : Prop :=
  Db.Meets agentLaw i Q p db

/-- The transaction has locked a valid certificate with the fingerprint. -/
def HoldsCertificate (i : ι) (fingerprint : String) (db : AgentDb ι) : Prop :=
  ∃ (id : Nat) (key : AgentAuthKey), Holds (S := agentSchema) i .agentAuthKeys id key db ∧
    key.certFingerprint.toLower = fingerprint ∧ key.revokedAt = none

/-- The transaction has locked the endpoint, which is not retired. -/
def HoldsEndpoint (i : ι) (endpointId : Nat) (db : AgentDb ι) : Prop :=
  ∃ endpoint : AgentEndpoint, Holds (S := agentSchema) i .endpoints endpointId endpoint db ∧
    endpoint.row.status ≠ .retired

theorem keeps_holdsCertificate {t : AgentTable} (ht : AgentTable.agentAuthKeys ≠ t)
    {fingerprint : String} :
    Keeps (S := agentSchema) agentLaw i t (HoldsCertificate i fingerprint) := by
  refine keeps_exists fun id => keeps_exists fun key => ?_
  exact (keeps_holds ht).and keeps_const

theorem keeps_holdsEndpoint {t : AgentTable} (ht : AgentTable.endpoints ≠ t) {endpointId : Nat} :
    Keeps (S := agentSchema) agentLaw i t (HoldsEndpoint i endpointId) :=
  keeps_exists fun _ => (keeps_holds ht).and keeps_const

theorem meets_insertCertificate {J : AgentDb ι → Prop}
    (hJ : Keeps (S := agentSchema) agentLaw i .agentAuthKeys J) (h : J db) (endpointId : Nat)
    (certificate : AgentCertificateIdentity) (now : Time) :
    Meets i (fun _ db => J db ∧ HoldsCertificate i certificate.fingerprint db)
      (insertCertificate i endpointId certificate certificate.fingerprint now) db := by
  have hlower : certificate.fingerprint.toLower = certificate.fingerprint := toLower_toLower _
  refine meets_insert (S := agentSchema) ?_ hJ h fun id _ hJ hholds =>
    ⟨hJ, id, _, hholds, hlower, rfl⟩
  exact ⟨rfl, rfl, hlower⟩

/-- The certificate of an endpoint that is locked is its own in the end, and the endpoint is still
    locked. -/
theorem meets_rotate (request : AgentRegisterRequest) (certificate : AgentCertificateIdentity)
    (receivedAt : Time) (requestId : String) (fingerprintOwner : Option Nat) {endpointId : Nat}
    (h : HoldsEndpoint i endpointId db) :
    Meets i (fun _ db => HoldsEndpoint i endpointId db ∧
        HoldsCertificate i certificate.fingerprint db)
      (rotate i request certificate receivedAt requestId fingerprintOwner endpointId) db := by
  have hkeeps : Keeps (S := agentSchema) agentLaw i .agentAuthKeys (HoldsEndpoint i endpointId) :=
    keeps_holdsEndpoint (by decide)
  refine .bind (meets_selectForUpdate hkeeps.keptByLocks h fun keys db hend hkeys => ?_)
  dsimp only
  split_ifs with hsame
  · -- The certificate that was found is this one, and it is locked.
    obtain ⟨before, hbefore, hlower⟩ := (any_eq_true _ _).1 hsame
    obtain ⟨⟨id, key⟩, hhead, rfl⟩ := map_eq_some_iff.1 hbefore
    obtain ⟨hholds, hactive⟩ := hkeys _ (List.mem_of_head? hhead)
    refine .pure ⟨hend, id, key, hholds, of_decide_eq_true hlower, ?_⟩
    simp only [activeOf, AgentAuthKey.active, and_eq_true, isNone_iff_eq_none]
      at hactive
    exact hactive.2.2
  · refine .bind (.raiseIf fun _ => ?_)
    refine .bind (meets_update_of_keeps hkeeps (fun id key hactive => ?_) hend
      fun _ db hend => ?_)
    · exact precedes_revoked (and_eq_true_iff.1 hactive).2 receivedAt
    · refine .bind ((meets_insertCertificate hkeeps hend endpointId certificate
        receivedAt).mono fun _ db hcert => ?_)
      split
      · exact .pure hcert
      · refine .bind (meets_insert (S := agentSchema) trivial
          ((keeps_holdsEndpoint (by decide)).and (keeps_holdsCertificate (by decide))) hcert
          fun _ db h _ => ?_)
        exact .pure h

theorem meets_registerAgent (request : AgentRegisterRequest)
    (certificate : AgentCertificateIdentity) (receivedAt : Time) (requestId : String) :
    Meets i (fun _ db => HoldsCertificate i certificate.fingerprint db)
      (registerAgent i request certificate receivedAt requestId) db := by
  refine .bind (.raiseIf fun _ => ?_)
  refine .bind (meets_select fun db _ _ => ?_)
  refine .bind (meets_selectForUpdate keeps_const.keptByLocks trivial fun endpoints db _ hends => ?_)
  split
  · refine .bind (.raiseIf fun _ => ?_)
    refine .bind (meets_insert (S := agentSchema) trivial keeps_const trivial fun id db _ _ => ?_)
    refine .bind ((meets_insertCertificate keeps_const trivial id certificate
      receivedAt).mono fun _ db h => ?_)
    exact .pure h.2
  · rename_i endpointId endpoint hhead
    obtain ⟨hholds, -⟩ := hends _ (List.mem_of_head? hhead)
    refine .bind (.raiseIf fun hstatus => .bind (.raiseIf fun _ => ?_))
    refine .bind ((meets_rotate request certificate receivedAt requestId _
      ⟨endpoint, hholds, of_decide_eq_false hstatus⟩).mono fun _ db h => ?_)
    have hcert : Keeps (S := agentSchema) agentLaw i .endpoints
        (HoldsCertificate i certificate.fingerprint) := keeps_holdsCertificate (by decide)
    refine .bind (meets_update (J := fun db => HoldsEndpoint i endpointId db ∧
      HoldsCertificate i certificate.fingerprint db) ⟨?_, ?_⟩ ?_ h fun _ db h => .pure h.2)
    · rintro db db' hI hR ⟨⟨e, he, hne⟩, h⟩
      exact ⟨⟨e, he.rely hR, hne⟩, hcert.rely db db' hI hR h⟩
    · rintro db id c rows hc hrows ⟨⟨e, he, hne⟩, h⟩
      exact ⟨⟨e, he.set_hold hc hrows, hne⟩, hcert.other db rows h⟩
    · rintro db id c r hI ⟨⟨e, ⟨c', hc', hheld, hseen'⟩, hne⟩, h⟩ hc hseen hid
      cases of_decide_eq_true hid
      cases hc.symm.trans hc'
      cases hseen.symm.trans hseen'
      refine ⟨fun hretired => absurd hretired hne, fun rows hrows =>
        ⟨⟨registered request receivedAt r, ?_, ?_⟩, ?_⟩⟩
      · exact holds_set hc hrows (Cell.held_lock.2 rfl) Cell.seen_write
      · exact EndpointStatus.noConfusion
      · exact hcert.other db rows h

theorem meets_authenticateAgent (agentId : String) (certificate : AgentCertificateIdentity)
    (now : Time) (hidle : Idle i db) :
    Meets i (fun context db => ∃ (id : Nat) (key : AgentAuthKey),
        (db .agentAuthKeys).committed id = some key ∧
          key.certFingerprint = certificate.fingerprint ∧
          key.endpointId = context.endpointId ∧ key.revokedAt = none)
      (authenticateAgent i agentId certificate now) db := by
  refine .bind (.raiseIf fun _ => ?_)
  refine .bind (meets_select fun db hI hR => ?_)
  have hidle := hidle.rely hR
  split
  · trivial
  · rename_i endpointId endpoint hhead
    refine .bind (.raiseIf fun _ => .bind (meets_select fun db hI hR => ?_))
    refine .bind (.raiseIf fun hkeys => .pure ?_)
    obtain ⟨⟨id, key⟩, hmem⟩ := List.exists_mem_of_ne_nil _ (List.isEmpty_eq_false_iff.1 hkeys)
    obtain ⟨hseen, hkey⟩ := Rows.mem_select.1 hmem
    have hcommitted := (hidle.rely hR).seen.symm.trans hseen
    simp only [AgentAuthKey.active, and_eq_true, decide_eq_true_eq,
      isNone_iff_eq_none] at hkey
    exact ⟨id, key, hcommitted, hkey.1.2.1, hkey.1.1, hkey.2.2⟩

theorem meets_update_endpoints {Q : Nat → AgentDb ι → Prop} {plan : Plan}
    {p : Nat → AgentEndpoint → Bool} {f : AgentEndpoint → AgentEndpoint}
    (h : ∀ id endpoint, p id endpoint = true → endpoint.row.status = .retired →
      (f endpoint).row.status = .retired) (hQ : ∀ n db, Q n db) :
    Meets i Q (update i .endpoints plan p f) db :=
  meets_update_of_keeps keeps_const h trivial
    fun n db _ => hQ n db

theorem meets_heartbeat (endpointId : Nat) (request : AgentHeartbeatRequest) (receivedAt : Time) :
    Meets i (fun _ _ => True) (heartbeat i endpointId request receivedAt) db := by
  refine .bind (meets_update_endpoints (fun id endpoint hp hstatus => ?_) fun n db => ?_)
  · simp only [and_eq_true, decide_eq_true_eq] at hp
    exact absurd hstatus hp.2
  · exact .raiseIf fun _ => trivial

theorem meets_markOffline (plan : Plan) (cutoff updatedAt : Time) :
    Meets i (fun _ _ => True) (markOffline i plan cutoff updatedAt) db := by
  refine meets_update_endpoints (fun id endpoint hp hstatus => ?_) fun n db => trivial
  simp only [and_eq_true, decide_eq_true_eq] at hp
  exact absurd hstatus hp.1.1.2

theorem meets_retire (plan : Plan) (agentIds : List String) (now : Time) :
    Meets i (fun _ _ => True) (retire i plan agentIds now) db :=
  meets_update_endpoints (fun _ _ _ _ => rfl) fun _ _ => trivial

theorem meets_retireAndRevoke (plan : Plan) (agentIds : List String) (now : Time) :
    Meets i (fun _ _ => True) (retireAndRevoke i plan agentIds now) db := by
  refine .bind (meets_select fun db _ _ => ?_)
  refine .bind (meets_update_of_keeps keeps_const (fun id key hp => ?_) trivial
    fun n db _ => meets_retire plan agentIds now)
  exact precedes_revoked (and_eq_true_iff.1 hp).2 now

/-! ## All runs -/

/-- What a call ends with. -/
def AtEnd (i : ι) : Call → Reply → AgentDb ι → Prop
  | .registerAgent _ certificate _ _, .registered _, db =>
    HoldsCertificate i certificate.fingerprint db
  | .authenticateAgent _ certificate _, .authenticated context, db =>
    ∃ (id : Nat) (key : AgentAuthKey), (db .agentAuthKeys).committed id = some key ∧
      key.certFingerprint = certificate.fingerprint ∧ key.endpointId = context.endpointId ∧
      key.revokedAt = none
  | _, _, _ => True

/-- What is left of this until the transaction commits: the certificate may be revoked. -/
def BeforeCommit (i : ι) : Call → Reply → AgentDb ι → Prop
  | .registerAgent _ certificate _ _, .registered _, db =>
    HoldsCertificate i certificate.fingerprint db
  | .authenticateAgent _ certificate _, .authenticated context, db =>
    ∃ (id : Nat) (key : AgentAuthKey), (db .agentAuthKeys).committed id = some key ∧
      key.certFingerprint = certificate.fingerprint ∧ key.endpointId = context.endpointId
  | _, _, _ => True

theorem meets_program (call : Call) (hidle : Idle i db) :
    Meets i (AtEnd i call) (program i call) db := by
  cases call with
  | registerAgent request certificate receivedAt requestId =>
    exact .bind ((meets_registerAgent request certificate receivedAt requestId).mono
      fun _ _ h => .pure h)
  | authenticateAgent agentId certificate now =>
    exact .bind ((meets_authenticateAgent agentId certificate now hidle).mono fun _ _ h => .pure h)
  | heartbeat endpointId request receivedAt =>
    exact .bind ((meets_heartbeat endpointId request receivedAt).mono fun _ _ _ => .pure trivial)
  | markOffline plan cutoff updatedAt =>
    exact .bind ((meets_markOffline plan cutoff updatedAt).mono fun _ _ _ => .pure trivial)
  | retire plan agentIds now =>
    exact .bind ((meets_retire plan agentIds now).mono fun _ _ _ => .pure trivial)
  | retireAndRevoke plan agentIds now =>
    exact .bind ((meets_retireAndRevoke plan agentIds now).mono fun _ _ _ => .pure trivial)

theorem AtEnd.beforeCommit {call : Call} {reply : Reply} (h : AtEnd i call reply db) :
    BeforeCommit i call reply db := by
  cases call <;> cases reply <;> try trivial
  obtain ⟨id, key, hkey, hfingerprint, hendpoint, -⟩ := h
  exact ⟨id, key, hkey, hfingerprint, hendpoint⟩

theorem BeforeCommit.rely {call : Call} {reply : Reply} {db' : AgentDb ι}
    (hR : Rely agentLaw i db db') (h : BeforeCommit i call reply db) :
    BeforeCommit i call reply db' := by
  cases call <;> cases reply <;> try trivial
  · obtain ⟨id, key, hholds, hkey⟩ := h
    exact ⟨id, key, hholds.rely hR, hkey⟩
  · obtain ⟨id, key, hkey, hfingerprint, hendpoint⟩ := h
    obtain ⟨key', hkey', hprecedes⟩ := hR.follows .agentAuthKeys id key hkey
    exact ⟨id, key', hkey', hprecedes.certFingerprint.trans hfingerprint,
      hprecedes.endpointId.trans hendpoint⟩

abbrev AgentPool (ι : Type) [DecidableEq ι] :=
  Pool ι Call (AgentDb ι) (DbError AgentError) Reply

abbrev Reachable (pool : AgentPool ι) : Prop :=
  (agentService ι).system.Reachable System.always pool

abbrev Later (pool pool' : AgentPool ι) : Prop :=
  (agentService ι).system.Path System.always pool pool'

variable {pool pool' : AgentPool ι}

theorem contract :
    (discipline agentLaw (program (ι := ι))).Contract AtEnd BeforeCommit where
  program _ hidle := meets_program _ hidle
  post _ h := h.beforeCommit
  stable _ hR h := h.rely hR

theorem sound (h : Reachable pool) :
    Contract.Sound (discipline agentLaw program) AtEnd BeforeCommit pool :=
  contract.reachable h

theorem follows_later (h : Reachable pool) (hlater : Later pool pool') :
    Follows agentLaw pool.shared pool'.shared :=
  contract.path Follows.refl (fun _ _ _ => Follows.trans) (fun _ _ _ => follows_of_effect) h hlater

/-- The row of `agent_auth_keys` with this id. -/
abbrev key? (pool : AgentPool ι) (id : Nat) : Option AgentAuthKey :=
  (pool.shared .agentAuthKeys).committed id

/-- The row of `endpoints` with this id. -/
abbrev endpoint? (pool : AgentPool ι) (id : Nat) : Option AgentEndpoint :=
  (pool.shared .endpoints).committed id

theorem AgentAuthKey.of_lived {key : AgentAuthKey} (h : agentLaw.Lived .agentAuthKeys key) :
    key.isDelete = false ∧ key.certFingerprint.toLower = key.certFingerprint := by
  obtain ⟨key₀, ⟨-, hdelete, hlower⟩, hprecedes⟩ := h
  refine ⟨hprecedes.isDelete.trans hdelete, ?_⟩
  rw [hprecedes.certFingerprint, hlower]

variable {id id' : Nat} {key key' : AgentAuthKey}

theorem lived_key (h : Reachable pool) (hkey : key? pool id = some key) :
    agentLaw.Lived .agentAuthKeys key := by
  obtain ⟨c, hc, hcommitted⟩ := committed_eq_some.1 hkey
  exact ((sound h).1 .agentAuthKeys id c hc).1 key hcommitted

theorem fingerprint_mem_entries (key : AgentAuthKey) :
    KeyEntry.certFingerprint key.certFingerprint ∈ key.entries :=
  List.mem_cons_self

theorem fingerprint_unique (hkey : key? pool id = some key) (hkey' : key? pool id' = some key')
    (h : key'.certFingerprint = key.certFingerprint) : id' = id :=
  (pool.shared .agentAuthKeys).unique_of_apart (fun _ _ h => h.committed) hkey' hkey
    (h ▸ fingerprint_mem_entries key') (fingerprint_mem_entries key)

theorem active_unique (h : Reachable pool) (hkey : key? pool id = some key)
    (hkey' : key? pool id' = some key') (hendpoint : key'.endpointId = key.endpointId)
    (hvalid : key.revokedAt = none) (hvalid' : key'.revokedAt = none) : id' = id := by
  have hmem {id : Nat} {key : AgentAuthKey} (hkey : key? pool id = some key)
      (hvalid : key.revokedAt = none) : KeyEntry.oneActive key.endpointId ∈ key.entries := by
    have hdelete := (AgentAuthKey.of_lived (lived_key h hkey)).1
    simp [AgentAuthKey.entries, AgentAuthKey.active, hdelete, hvalid]
  exact (pool.shared .agentAuthKeys).unique_of_apart (fun _ _ h => h.committed) hkey' hkey
    (hendpoint ▸ hmem hkey' hvalid') (hmem hkey hvalid)

/-- A registration does not come to its end with a certificate that is revoked: it would hold the
    lock of a valid one with the same fingerprint. -/
theorem not_registered_of_revoked (h : Reachable pool)
    (hkey : key? pool id = some key) (hrevoked : key.revokedAt.isSome = true) (i : ι)
    {request : AgentRegisterRequest} {certificate : AgentCertificateIdentity} {receivedAt : Time}
    {requestId : String} {result : AgentRegistrationResult}
    (hcert : certificate.fingerprint = key.certFingerprint) :
    pool.threads i ≠ some (.registerAgent request certificate receivedAt requestId,
      .done (.registered result)) := by
  intro hi
  have hend := (sound h).2 i
  rw [hi] at hend
  obtain ⟨id', key', hholds, hlower, hvalid⟩ := hend
  have hlaw := (sound h).1
  -- What the transaction sees of the revoked row is revoked, too.
  obtain ⟨c, hc, hcommitted⟩ := committed_eq_some.1 hkey
  obtain ⟨seen, hseen⟩ : ∃ seen, c.seen i = some seen := by
    rw [← isSome_iff_exists, Cell.seen, hcommitted, isSome_or, isSome_some,
      Bool.or_true]
  obtain ⟨-, hover⟩ := (hlaw .agentAuthKeys id c hc).seen hseen
  have hprecedes := hover key hcommitted
  -- The other row has the same fingerprint, so it is the same row.
  obtain ⟨c', hc', -, hseen'⟩ := hholds
  have hlower' := (AgentAuthKey.of_lived ((hlaw .agentAuthKeys id' c' hc').seen hseen').1).2
  have hfingerprint : key'.certFingerprint = seen.certFingerprint := by
    rw [← hlower', hlower, hcert, hprecedes.certFingerprint]
  have hid : id' = id := (pool.shared .agentAuthKeys).unique_of_apart
    (fun _ _ h => h.seen _)
    (seen_eq_some.2 ⟨c', hc', hseen'⟩) (seen_eq_some.2 ⟨c, hc, hseen⟩)
    (hfingerprint ▸ fingerprint_mem_entries key') (fingerprint_mem_entries seen)
  subst hid
  cases hc.symm.trans hc'
  cases hseen.symm.trans hseen'
  have hstill := hprecedes.revokedAt hrevoked
  rw [hvalid] at hstill
  rw [← hstill] at hrevoked
  cases hrevoked

theorem not_authenticated_of_revoked (h : Reachable pool)
    (hkey : key? pool id = some key) (hrevoked : key.revokedAt.isSome = true) {i : ι}
    {action : Action ι Call} {agentId : String} {certificate : AgentCertificateIdentity}
    {now : Time} {context : EndpointAuthContext}
    (hcert : certificate.fingerprint = key.certFingerprint)
    (hn : (agentService ι).next pool action = some pool')
    (hi : pool'.threads i = some (.authenticateAgent agentId certificate now,
      .done (.authenticated context))) :
    pool.threads i = some (.authenticateAgent agentId certificate now,
      .done (.authenticated context)) := by
  refine (contract.ended h hn hi).resolve_right ?_
  rintro ⟨id', key', hkey', hfingerprint, -, hvalid⟩
  obtain ⟨key'', hkey'', hprecedes⟩ :=
    follows_later h (.step .refl trivial hn) .agentAuthKeys id key hkey
  have hid : id' = id := fingerprint_unique hkey'' hkey' (by
    rw [hfingerprint, hcert, hprecedes.certFingerprint])
  subst hid
  cases hkey''.symm.trans hkey'
  rw [← hprecedes.revokedAt hrevoked, hvalid] at hrevoked
  cases hrevoked

/-- In every state that is reached, and in every later one: a fingerprint belongs to one endpoint;
    an endpoint has one valid certificate at most; a certificate that is revoked stays so, no
    registration ends with it and no agent is authenticated by it; an agent that is authenticated is
    that of the endpoint which has the fingerprint; an endpoint that is retired stays so. -/
theorem certificates_sound (h : Reachable pool) (hlater : Later pool pool') :
    (∀ id id' key key', key? pool id = some key → key? pool' id' = some key' →
      key'.certFingerprint = key.certFingerprint → id' = id ∧ key'.endpointId = key.endpointId) ∧
    (∀ id id' key key', key? pool id = some key → key? pool id' = some key' →
      key'.endpointId = key.endpointId → key.revokedAt = none → key'.revokedAt = none →
      id' = id) ∧
    (∀ id key, key? pool id = some key → key.revokedAt.isSome = true →
      (∃ key', key? pool' id = some key' ∧ key'.certFingerprint = key.certFingerprint ∧
        key'.revokedAt = key.revokedAt) ∧
      ∀ certificate, certificate.fingerprint = key.certFingerprint →
        (∀ i request receivedAt requestId result, pool'.threads i ≠
          some (.registerAgent request certificate receivedAt requestId,
            .done (.registered result))) ∧
        ∀ i agentId now context action pool'',
          (agentService ι).next pool' action = some pool'' →
          pool''.threads i = some (.authenticateAgent agentId certificate now,
            .done (.authenticated context)) →
          pool'.threads i = pool''.threads i) ∧
    (∀ i agentId certificate now context,
      pool.threads i = some (.authenticateAgent agentId certificate now,
        .done (.authenticated context)) →
      (∃ id key, key? pool id = some key ∧ key.certFingerprint = certificate.fingerprint) ∧
      ∀ id key, key? pool id = some key → key.certFingerprint = certificate.fingerprint →
        key.endpointId = context.endpointId) ∧
    ∀ id endpoint, endpoint? pool id = some endpoint → endpoint.row.status = .retired →
      ∃ endpoint', endpoint? pool' id = some endpoint' ∧ endpoint'.row.status = .retired := by
  have hreach' := h.path hlater
  have hfollows := follows_later h hlater
  refine ⟨?_, ?_, ?_, ?_, ?_⟩
  · intro id id' key key' hkey hkey' hsame
    obtain ⟨key'', hkey'', hprecedes⟩ := hfollows .agentAuthKeys id key hkey
    have hid := fingerprint_unique hkey'' hkey' (hsame.trans hprecedes.certFingerprint.symm)
    subst hid
    cases hkey''.symm.trans hkey'
    exact ⟨rfl, hprecedes.endpointId⟩
  · intro id id' key key' hkey hkey' hendpoint hvalid hvalid'
    exact active_unique h hkey hkey' hendpoint hvalid hvalid'
  · intro id key hkey hrevoked
    obtain ⟨key', hkey', hprecedes⟩ := hfollows .agentAuthKeys id key hkey
    have hstill := hprecedes.revokedAt hrevoked
    have hrevoked' : key'.revokedAt.isSome = true := by rwa [hstill]
    refine ⟨⟨key', hkey', hprecedes.certFingerprint, hstill⟩, fun certificate hcert => ?_⟩
    have hcert' := hcert.trans hprecedes.certFingerprint.symm
    refine ⟨fun i request receivedAt requestId result =>
      not_registered_of_revoked hreach' hkey' hrevoked' i hcert', ?_⟩
    intro i agentId now context action pool'' hn hi
    exact (not_authenticated_of_revoked hreach' hkey' hrevoked' hcert' hn hi).trans hi.symm
  · intro i agentId certificate now context hi
    have hend := (sound h).2 i
    rw [hi] at hend
    obtain ⟨id, key, hkey, hfingerprint, hendpoint⟩ := hend
    refine ⟨⟨id, key, hkey, hfingerprint⟩, fun id' key' hkey' hfingerprint' => ?_⟩
    cases fingerprint_unique hkey hkey' (hfingerprint'.trans hfingerprint.symm)
    cases hkey.symm.trans hkey'
    exact hendpoint
  · intro id endpoint hendpoint hretired
    obtain ⟨endpoint', hendpoint', hstays⟩ := hfollows .endpoints id endpoint hendpoint
    exact ⟨endpoint', hendpoint', hstays hretired⟩

end

/-! ## A run -/

/-- A request of the agent `agent-1`. -/
def sampleRequest : AgentRegisterRequest where
  agentId := "agent-1"
  hostname := "host"
  osType := .windows
  osVersion := "11"
  agentVersion := "1.0.0"
  agentBuildId := "1"
  agentArch := .x64
  capabilityCodes := []

/-- A certificate of the agent `agent-1`. -/
def sampleCertificate (fingerprint : String) : AgentCertificateIdentity where
  subject := "CN=agent-1"
  sanAgentId := "agent-1"
  fingerprintSha256 := fingerprint
  issuedAt := 0
  expiresAt := 100

def retiredRun : List (Action Nat Call) :=
  .start 0 (.registerAgent sampleRequest (sampleCertificate "AA") 1 "r1") ::
    (.replicate 4 (.step 0) ++ [.commit 0]) ++
  .start 0 (.registerAgent sampleRequest (sampleCertificate "bb") 2 "r2") ::
    (.replicate 11 (.step 0) ++ [.commit 0]) ++
  [.start 1 (.retire inOrder ["agent-1"] 3), .step 1, .step 1, .commit 1]

def againRun : List (Action Nat Call) :=
  [.start 0 (.registerAgent sampleRequest (sampleCertificate "aa") 4 "r3"),
    .start 1 (.heartbeat 0 ⟨"1.0.0", "1", .x64, [], []⟩ 5),
    .step 0, .step 1, .step 0, .step 0, .abort 0, .abort 1]

/-- The certificate is still revoked, and the endpoint still retired. -/
theorem certificates_sound_againRun : ∃ pool pool' : AgentPool Nat,
    (agentService Nat).system.run (agentService Nat).system.init retiredRun = some pool ∧
      (agentService Nat).system.run pool againRun = some pool' ∧
      (∃ key, key? pool' 0 = some key ∧ key.certFingerprint = "aa" ∧ key.revokedAt = some 2) ∧
      ∃ endpoint, endpoint? pool' 0 = some endpoint ∧ endpoint.row.status = .retired := by
  have hruns : ((agentService Nat).system.run (agentService Nat).system.init retiredRun).any
      (fun pool => decide
        (key? pool 0 = some (revoked 2 (newCertificate 0 (sampleCertificate "AA") "aa" 1)) ∧
          (endpoint? pool 0).any (fun endpoint => endpoint.row.status = .retired) ∧
          ((agentService Nat).system.run pool againRun).isSome)) = true := by
    decide +kernel
  obtain ⟨pool, hrun, hpool⟩ := (any_eq_true _ _).1 hruns
  obtain ⟨hkey, hendpoint, hrun'⟩ := of_decide_eq_true hpool
  obtain ⟨endpoint, hendpoint, hretired⟩ := (any_eq_true _ _).1 hendpoint
  obtain ⟨pool', hrun'⟩ := isSome_iff_exists.1 hrun'
  obtain ⟨-, -, hrevoked, -, hstays⟩ :=
    certificates_sound (System.reachable_of_run hrun) (System.path_of_run hrun')
  exact ⟨pool, pool', hrun, hrun', (hrevoked 0 _ hkey rfl).1,
    hstays 0 endpoint hendpoint (of_decide_eq_true hretired)⟩

end Edr.EndpointRepository
