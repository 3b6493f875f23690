import BerryKeep.GlobalRegistration

/-!
What the registration service owes over every interleaving of its requests.
`Orderly` says where a challenge is at any moment: pending in the table, claimed
by one completion, or completed. Each section of a request keeps it, and from it
follow the single completion, the proof behind every grant, and that a cluster
already registered is never written by a completion.
-/
namespace BerryKeepRegistrationSafety
open FiniteTable StatefulProgram BerryKeepContentCodec BerryKeepGlobalRegistration

section Proofs
variable {prims : Primitives}

def ProvedByCa (prims : Primitives) (Signed : Bytes → Bytes → Prop)
    (challenge : PendingChallenge) : Prop :=
  ∃ certificate_der certificate message,
    prims.pemCertificates challenge.clusterCaPem = some [certificate_der] ∧
    challenge.response.clusterCaFingerprintSha256 = toHex (prims.sha256 certificate_der) ∧
    prims.parseCertificate certificate_der = some certificate ∧
    (challenge.response.proofMessage prims proofMessageDomain = .ok message ∨
      challenge.response.proofMessage prims legacyProofMessageDomain = .ok message) ∧
    Signed certificate.subjectPublicKey message

def NamesCa (prims : Primitives) (challenge : PendingChallenge) : Prop :=
  ∃ certificate_der, prims.pemCertificates challenge.clusterCaPem = some [certificate_der] ∧
    challenge.response.clusterCaFingerprintSha256 = toHex (prims.sha256 certificate_der)

def ProofChecked (prims : Primitives) (challenge : PendingChallenge) (request : CompleteRequest) :
    Prop :=
  ensureChallengeMatches challenge.response request = .ok () ∧
    verifyProof prims challenge.clusterCaPem request = .ok ()

theorem challengeFingerprint_ok {request : ChallengeRequest} {fingerprint : String}
    (named : challengeFingerprint prims request = .ok fingerprint) :
    ∃ certificate_der, prims.pemCertificates request.clusterCaPem = some [certificate_der] ∧
      fingerprint = toHex (prims.sha256 certificate_der) := by
  unfold challengeFingerprint at named
  obtain ⟨_, _, named⟩ := except_bind_ok named
  obtain ⟨_, _, named⟩ := except_bind_ok named
  obtain ⟨der, parsed, named⟩ := except_bind_ok named
  obtain ⟨_, _, named⟩ := except_bind_ok named
  cases named
  refine ⟨der, ?_, rfl⟩
  unfold parseSingleClusterCaPem at parsed
  split at parsed
  · cases parsed
  · split at parsed
    · cases parsed
    · split at parsed
      · cases parsed
      · split at parsed
        · cases parsed
        · next certificate found =>
          obtain ⟨_, _, same⟩ := except_bind_ok parsed
          cases same
          exact found
        · cases parsed

variable {request : CompleteRequest}

theorem ensureChallengeMatches_ok {response : ChallengeResponse}
    (matching : ensureChallengeMatches response request = .ok ()) :
    request.protocolVersion = response.protocolVersion ∧
      request.clusterId = response.clusterId ∧
      request.clusterCaFingerprintSha256 = response.clusterCaFingerprintSha256 ∧
      request.challengeId = response.challengeId ∧
      request.challengeNonceB64u = response.challengeNonceB64u ∧
      request.expiresAtUnix = response.expiresAtUnix := by
  unfold ensureChallengeMatches at matching
  split at matching
  · cases matching
  · next same =>
    simp only [not_or, not_not] at same
    exact ⟨same.1, same.2.1, same.2.2.1, same.2.2.2.2.1, same.2.2.2.2.2.1, same.2.2.2.2.2.2⟩

theorem proofMessage_of_matching {response : ChallengeResponse}
    (matching : ensureChallengeMatches response request = .ok ()) {domain message : Bytes}
    (built : request.proofMessage prims domain = .ok message) :
    response.proofMessage prims domain = .ok message := by
  obtain ⟨version, cluster, fingerprint, id, nonce, expiry⟩ := ensureChallengeMatches_ok matching
  unfold CompleteRequest.proofMessage at built
  obtain ⟨_, valid, built⟩ := except_bind_ok built
  obtain ⟨_, fields, _⟩ := except_bind_ok valid
  unfold ChallengeResponse.proofMessage
  rw [← version, ← cluster, ← fingerprint, ← id, ← nonce, ← expiry, fields]
  exact built

theorem verifyProof_ok {ca_pem : String}
    (proved : verifyProof prims ca_pem request = .ok ()) :
    ∃ key message signature, verifyingKeyFromCa prims ca_pem = .ok key ∧
      (request.proofMessage prims proofMessageDomain = .ok message ∨
        request.proofMessage prims legacyProofMessageDomain = .ok message) ∧
      prims.verify key message signature = true := by
  unfold verifyProof at proved
  obtain ⟨message, built, proved⟩ := except_bind_ok proved
  obtain ⟨signature, _, proved⟩ := except_bind_ok proved
  obtain ⟨key, keyed, proved⟩ := except_bind_ok proved
  split at proved
  · next verified => exact ⟨key, message, signature, keyed, .inl built, verified⟩
  · obtain ⟨legacy, legacy_built, proved⟩ := except_bind_ok proved
    split at proved
    · next verified => exact ⟨key, legacy, signature, keyed, .inr legacy_built, verified⟩
    · cases proved

theorem verifyingKeyFromCa_ok {ca_pem : String} {key : Bytes}
    (keyed : verifyingKeyFromCa prims ca_pem = .ok key) :
    ∃ certificate_der certificate, prims.pemCertificates ca_pem = some [certificate_der] ∧
      prims.parseCertificate certificate_der = some certificate ∧
      certificate.subjectPublicKey = key := by
  unfold verifyingKeyFromCa at keyed
  split at keyed
  · cases keyed
  · next der found =>
    split at keyed
    · cases keyed
    · next certificate parsed =>
      split at keyed
      · cases keyed
        exact ⟨der, certificate, found, parsed, rfl⟩
      · cases keyed
  · cases keyed

theorem provedByCa_of_checked {Signed : Bytes → Bytes → Prop}
    (unforgeable : ∀ key message signature, prims.verify key message signature = true →
      Signed key message)
    {challenge : PendingChallenge} (named : NamesCa prims challenge)
    (proofChecked : ProofChecked prims challenge request) : ProvedByCa prims Signed challenge := by
  obtain ⟨key, message, signature, keyed, built, verified⟩ := verifyProof_ok proofChecked.2
  obtain ⟨der, certificate, found, parsed, rfl⟩ := verifyingKeyFromCa_ok keyed
  obtain ⟨other, listed, fingerprint⟩ := named
  rw [found] at listed
  cases listed
  refine ⟨der, certificate, message, found, fingerprint, parsed, ?_,
    unforgeable _ _ _ verified⟩
  rcases built with current | legacy
  · exact .inl (proofMessage_of_matching proofChecked.1 current)
  · exact .inr (proofMessage_of_matching proofChecked.1 legacy)

end Proofs

section Invariant
variable {prims : Primitives} {service : Service}

def completedIssue : RegistrationEvent → Option Nat
  | .issued _ => none
  | .completed challenge _ _ _ => some challenge.issue

def Uncompleted (log : List RegistrationEvent) (issue : Nat) : Prop :=
  issue ∉ log.filterMap completedIssue

/-- What a completed challenge owes: it was issued before, to this source, had not expired, and
    its proof was checked. -/
def Granted (prims : Primitives) (earlier : List RegistrationEvent) (challenge : PendingChallenge)
    (request : CompleteRequest) (source_ip : IpAddr) (now : Nat) : Prop :=
  .issued challenge ∈ earlier ∧ source_ip = challenge.sourceIp ∧
    now < challenge.response.expiresAtUnix ∧ ProofChecked prims challenge request

def AllGranted (prims : Primitives) (log : List RegistrationEvent) : Prop :=
  ∀ recent challenge request source_ip now earlier,
    log = recent ++ .completed challenge request source_ip now :: earlier →
      Granted prims earlier challenge request source_ip now

/-- A challenge is pending, or claimed by one call, or completed, and never two of these; the
    call that may register holds the lock, and its cluster is not registered. -/
structure Orderly (prims : Primitives) (service : Service) : Prop where
  pending : ∀ id challenge, service.challenges.get id = some challenge →
    challenge.response.challengeId = id ∧ .issued challenge ∈ service.log ∧
      Uncompleted service.log challenge.issue ∧
      ∀ call current, service.calls.get call = some current →
        current.challenge.issue ≠ challenge.issue
  claimed : ∀ call current, service.calls.get call = some current →
    .issued current.challenge ∈ service.log ∧ current.sourceIp = current.challenge.sourceIp ∧
      current.now < current.challenge.response.expiresAtUnix ∧
      Uncompleted service.log current.challenge.issue
  apart : ∀ call other current another, service.calls.get call = some current →
    service.calls.get other = some another →
    current.challenge.issue = another.challenge.issue → call = other
  proved : ∀ call current, service.calls.get call = some current → current.phase = .registering →
    ProofChecked prims current.challenge current.request ∧ service.guard = some call ∧
      service.registry.get current.request.clusterId = none
  drawn : ∀ challenge, .issued challenge ∈ service.log → NamesCa prims challenge ∧
    challenge.issue < service.draws
  distinct : ∀ challenge other, .issued challenge ∈ service.log → .issued other ∈ service.log →
    challenge.issue = other.issue → challenge = other
  granted : AllGranted prims service.log
  once : (service.log.filterMap completedIssue).Nodup

theorem orderly_opened (registry : Registry) : Orderly prims (Service.opened registry) where
  pending := by intro _ _ found; cases found
  claimed := by intro _ _ found; cases found
  apart := by intro _ _ _ _ found; cases found
  proved := by intro _ _ found; cases found
  drawn := by intro _ member; cases member
  distinct := by intro _ _ member; cases member
  granted := by intro recent _ _ _ _ _ split; cases recent <;> cases split
  once := List.nodup_nil

theorem allGranted_issued {log : List RegistrationEvent} (granted : AllGranted prims log)
    (challenge : PendingChallenge) : AllGranted prims (.issued challenge :: log) := by
  intro recent other request source_ip now earlier split
  cases recent with
  | nil => cases split
  | cons first recent =>
    obtain ⟨_, rest⟩ := List.cons.inj split
    exact granted recent other request source_ip now earlier rest

variable (orderly : Orderly prims service)
include orderly

section Challenges
variable {challenges : Table Uuid PendingChallenge}
  (kept : ∀ id challenge, challenges.get id = some challenge →
    service.challenges.get id = some challenge)
include kept

theorem Orderly.fewer {draws : Nat} (later : service.draws ≤ draws) :
    Orderly prims { service with challenges := challenges, draws := draws } where
  pending := fun id challenge found => orderly.pending id challenge (kept id challenge found)
  claimed := orderly.claimed
  apart := orderly.apart
  proved := orderly.proved
  drawn := by
    intro challenge member
    obtain ⟨named, earlier⟩ := orderly.drawn challenge member
    exact ⟨named, Nat.lt_of_lt_of_le earlier later⟩
  distinct := orderly.distinct
  granted := orderly.granted
  once := orderly.once

/-- A challenge goes out. Whatever its id replaces in the table can no longer be completed. -/
theorem Orderly.issued {challenge : PendingChallenge} (named : NamesCa prims challenge)
    (latest : challenge.issue = service.draws) :
    Orderly prims { service with
      challenges := challenges.put challenge.response.challengeId challenge
      draws := service.draws + 1
      log := .issued challenge :: service.log } := by
  have new_issue : ∀ other, .issued other ∈ service.log → other.issue ≠ challenge.issue := by
    intro other member
    have earlier := (orderly.drawn other member).2
    omega
  constructor
  · intro id found stored
    rcases get_put_some stored with ⟨rfl, rfl⟩ | ⟨-, stored⟩
    · refine ⟨rfl, List.mem_cons_self, ?_, fun call current busy =>
      new_issue _ (orderly.claimed call current busy).1⟩
      intro completed
      obtain ⟨event, listed, same⟩ := List.mem_filterMap.mp completed
      cases event with
      | issued other => cases same
      | completed other request source_ip now =>
      have earlier : RegistrationEvent.completed other request source_ip now ∈ service.log := by
        simpa using listed
      obtain ⟨recent, before, split⟩ := List.append_of_mem earlier
      have issued := (orderly.granted recent other request source_ip now before split).1
      refine new_issue other ?_ (Option.some.inj same)
      rw [split]
      simp [issued]
    · obtain ⟨own, issued, uncompleted, unclaimed⟩ := orderly.pending id found (kept id found stored)
      exact ⟨own, List.mem_cons_of_mem _ issued, uncompleted, unclaimed⟩
  · intro call current busy
    obtain ⟨issued, source, alive, uncompleted⟩ := orderly.claimed call current busy
    exact ⟨List.mem_cons_of_mem _ issued, source, alive, uncompleted⟩
  · exact orderly.apart
  · exact orderly.proved
  · intro other member
    rcases List.mem_cons.mp member with same | older
    · cases same
      exact ⟨named, latest ▸ Nat.lt_succ_self service.draws⟩
    · obtain ⟨other_named, earlier⟩ := orderly.drawn other older
      exact ⟨other_named, Nat.lt_succ_of_lt earlier⟩
  · exact logged_apart (fun _ _ => RegistrationEvent.issued.inj) orderly.distinct new_issue
  · exact allGranted_issued orderly.granted challenge
  · exact orderly.once

theorem Orderly.claim {call : Nat} (idle : service.calls.get call = none)
    {challenge : PendingChallenge} (request : CompleteRequest) {source_ip : IpAddr} {now : Nat}
    (found : service.challenges.get request.challengeId = some challenge)
    (source : source_ip = challenge.sourceIp) (alive : now < challenge.response.expiresAtUnix) :
    Orderly prims { service with
      challenges := challenges.del request.challengeId
      calls := service.calls.put call ⟨challenge, request, source_ip, now, .claimed⟩ } := by
  obtain ⟨own, issued, uncompleted, unclaimed⟩ := orderly.pending _ challenge found
  constructor
  · intro id pending stored
    obtain ⟨different, stored⟩ := get_del_some stored
    obtain ⟨own', issued', uncompleted', unclaimed'⟩ :=
      orderly.pending id pending (kept id pending stored)
    refine ⟨own', issued', uncompleted', fun other current busy => ?_⟩
    rcases get_put_some busy with ⟨_, rfl⟩ | ⟨_, older⟩
    · intro same
      have equal := orderly.distinct challenge pending issued issued' same
      rw [← equal] at own'
      exact different (own'.symm.trans own)
    · exact unclaimed' other current older
  · intro other current busy
    rcases get_put_some busy with ⟨_, rfl⟩ | ⟨_, older⟩
    · exact ⟨issued, source, alive, uncompleted⟩
    · exact orderly.claimed other current older
  · intro one other current another first second same
    rcases get_put_some first with ⟨rfl, rfl⟩ | ⟨_, older⟩
    · rcases get_put_some second with ⟨rfl, rfl⟩ | ⟨_, older'⟩
      · rfl
      · exact absurd same.symm (unclaimed other another older')
    · rcases get_put_some second with ⟨rfl, rfl⟩ | ⟨_, older'⟩
      · exact absurd same (unclaimed one current older)
      · exact orderly.apart one other current another older older' same
  · intro other current busy registering
    rcases get_put_some busy with ⟨_, rfl⟩ | ⟨_, older⟩
    · cases registering
    · exact orderly.proved other current older registering
  · exact orderly.drawn
  · exact orderly.distinct
  · exact orderly.granted
  · exact orderly.once

end Challenges

theorem Orderly.finish (call : Nat) :
    Orderly prims (service.finish call) := by
  constructor
  · intro id challenge found
    obtain ⟨own, issued, uncompleted, unclaimed⟩ := orderly.pending id challenge found
    exact ⟨own, issued, uncompleted, fun other current busy =>
      unclaimed other current (get_del_some busy).2⟩
  · intro other current busy
    exact orderly.claimed other current (get_del_some busy).2
  · intro one other current another first second
    exact orderly.apart one other current another (get_del_some first).2 (get_del_some second).2
  · intro other current busy
    exact orderly.proved other current (get_del_some busy).2
  · exact orderly.drawn
  · exact orderly.distinct
  · exact orderly.granted
  · exact orderly.once

theorem Orderly.grant {call : Nat} {current : CompleteCall}
    (busy : service.calls.get call = some current)
    (proofChecked : ProofChecked prims current.challenge current.request) :
    Orderly prims { service.finish call with
      log := .completed current.challenge current.request current.sourceIp current.now ::
        service.log } := by
  obtain ⟨issued, source, alive, uncompleted⟩ := orderly.claimed call current busy
  have finished := orderly.finish call
  have still_uncompleted : ∀ issue, issue ≠ current.challenge.issue →
      Uncompleted service.log issue → Uncompleted (.completed current.challenge current.request
        current.sourceIp current.now :: service.log) issue := by
    intro issue different before member
    rw [List.filterMap_cons_some (show completedIssue _ = some _ from rfl), List.mem_cons] at member
    rcases member with same | older
    · exact different same
    · exact before older
  constructor
  · intro id challenge found
    obtain ⟨own, issued', uncompleted', unclaimed⟩ := orderly.pending id challenge found
    refine ⟨own, List.mem_cons_of_mem _ issued', ?_, fun other another stored =>
      unclaimed other another (get_del_some stored).2⟩
    exact still_uncompleted _ (unclaimed call current busy).symm uncompleted'
  · intro other another stored
    obtain ⟨different, older⟩ := get_del_some stored
    obtain ⟨issued', source', alive', uncompleted'⟩ := orderly.claimed other another older
    refine ⟨List.mem_cons_of_mem _ issued', source', alive', ?_⟩
    apply still_uncompleted _ _ uncompleted'
    intro same
    exact different (orderly.apart other call another current older busy same)
  · exact finished.apart
  · exact finished.proved
  · intro challenge member
    exact orderly.drawn challenge (by simpa using member)
  · intro one other first second
    exact orderly.distinct one other (by simpa using first) (by simpa using second)
  · intro recent challenge request source_ip now earlier split
    cases recent with
    | nil =>
      obtain ⟨same, rfl⟩ := List.cons.inj split
      cases same
      exact ⟨issued, source, alive, proofChecked⟩
    | cons first recent =>
      obtain ⟨_, rest⟩ := List.cons.inj split
      exact orderly.granted recent challenge request source_ip now earlier rest
  · change (List.filterMap completedIssue (_ :: service.log)).Nodup
    rw [List.filterMap_cons_some (show completedIssue _ = some _ from rfl), List.nodup_cons]
    exact ⟨uncompleted, orderly.once⟩

theorem Orderly.registered {registry : Registry}
    (unregistered : ∀ cluster, service.registry.get cluster = none → registry.get cluster = none) :
    Orderly prims { service with registry := registry } where
  pending := orderly.pending
  claimed := orderly.claimed
  apart := orderly.apart
  proved := by
    intro call current busy registering
    obtain ⟨proofChecked, lock, absent⟩ := orderly.proved call current busy registering
    exact ⟨proofChecked, lock, unregistered _ absent⟩
  drawn := orderly.drawn
  distinct := orderly.distinct
  granted := orderly.granted
  once := orderly.once

theorem Orderly.unlocked (none_registering : ∀ call current, service.calls.get call = some current →
      current.phase ≠ .registering) (registry : Registry) (guard : Option Nat) :
    Orderly prims { service with registry := registry, guard := guard } where
  pending := orderly.pending
  claimed := orderly.claimed
  apart := orderly.apart
  proved := fun call current busy registering =>
    absurd registering (none_registering call current busy)
  drawn := orderly.drawn
  distinct := orderly.distinct
  granted := orderly.granted
  once := orderly.once

theorem Orderly.lock {call : Nat} {current : CompleteCall}
    (busy : service.calls.get call = some current)
    (proofChecked : ProofChecked prims current.challenge current.request)
    (free : service.guard = none)
    (absent : service.registry.get current.request.clusterId = none) :
    Orderly prims { service with
      guard := some call
      calls := service.calls.put call { current with phase := .registering } } := by
  have as_before : ∀ other another, (service.calls.put call
      { current with phase := .registering }).get other = some another →
        ∃ older, service.calls.get other = some older ∧ older.challenge = another.challenge ∧
          older.sourceIp = another.sourceIp ∧ older.now = another.now := by
    intro other another stored
    rcases get_put_some stored with ⟨rfl, rfl⟩ | ⟨_, older⟩
    · exact ⟨current, busy, rfl, rfl, rfl⟩
    · exact ⟨another, older, rfl, rfl, rfl⟩
  constructor
  · intro id challenge found
    obtain ⟨own, issued, uncompleted, unclaimed⟩ := orderly.pending id challenge found
    refine ⟨own, issued, uncompleted, fun other another stored => ?_⟩
    obtain ⟨older, before, same, _⟩ := as_before other another stored
    rw [← same]
    exact unclaimed other older before
  · intro other another stored
    obtain ⟨older, before, same, source, time⟩ := as_before other another stored
    rw [← same, ← source, ← time]
    exact orderly.claimed other older before
  · intro one other first second stored stored' same
    obtain ⟨older, before, equal, _⟩ := as_before one first stored
    obtain ⟨older', before', equal', _⟩ := as_before other second stored'
    rw [← equal, ← equal'] at same
    exact orderly.apart one other older older' before before' same
  · intro other another stored registering
    rcases get_put_some stored with ⟨rfl, rfl⟩ | ⟨_, older⟩
    · exact ⟨proofChecked, rfl, absent⟩
    · have taken := (orderly.proved other another older registering).2.1
      rw [free] at taken
      cases taken
  · exact orderly.drawn
  · exact orderly.distinct
  · exact orderly.granted
  · exact orderly.once

end Invariant

section RegistryEffects
variable {prims : Primitives} {registry updated : Registry} {cluster_id : Uuid}
  {record : ClusterCaRecord} {failure : Option String}

theorem persistRegistry_ok (done : persistRegistry failure registry = .ok updated) :
    updated = registry := by
  cases failure with
  | none => exact (Except.ok.inj done).symm
  | some message => cases done

theorem updateRecord_ok {update : ClusterCaRecord → Except String ClusterCaRecord}
    (done : updateRecord registry cluster_id failure update = .ok (record, updated)) :
    ∃ before, registry.get cluster_id = some before ∧ update before = .ok record ∧
      updated = registry.put cluster_id record := by
  unfold updateRecord at done
  split at done
  · cases done
  · next before stored =>
    obtain ⟨changed, changes, done⟩ := except_bind_ok done
    obtain ⟨written, persisted, done⟩ := except_bind_ok done
    cases done
    exact ⟨before, stored, changes, persistRegistry_ok persisted⟩

variable {now : Nat}

theorem suspend_ok {reason : String}
    (done : suspend registry cluster_id reason now failure = .ok (record, updated)) :
    ∃ before, registry.get cluster_id = some before ∧
      record.caFingerprint = before.caFingerprint ∧ updated = registry.put cluster_id record := by
  unfold suspend at done
  obtain ⟨_, _, done⟩ := except_bind_ok done
  obtain ⟨before, stored, changes, written⟩ := updateRecord_ok done
  obtain ⟨_, _, changes⟩ := except_bind_ok changes
  cases changes
  exact ⟨before, stored, rfl, written⟩

theorem resume_ok (done : resume registry cluster_id failure = .ok (record, updated)) :
    ∃ before, registry.get cluster_id = some before ∧
      record.caFingerprint = before.caFingerprint ∧ updated = registry.put cluster_id record := by
  obtain ⟨before, stored, changes, written⟩ := updateRecord_ok done
  obtain ⟨_, _, changes⟩ := except_bind_ok changes
  cases changes
  exact ⟨before, stored, rfl, written⟩

theorem observeAccess_ok
    (done : observeAccess registry cluster_id now failure = .ok (record, updated)) :
    ∃ before, registry.get cluster_id = some before ∧
      record.caFingerprint = before.caFingerprint ∧ record.suspended = before.suspended ∧
      updated = registry.put cluster_id record := by
  obtain ⟨before, stored, changes, written⟩ := updateRecord_ok done
  split at changes
  · cases changes
  · cases changes
    exact ⟨before, stored, rfl, rfl, written⟩

theorem registerOrUpdate_ok {ca_pem proof_fingerprint : String}
    (done : registerOrUpdate prims registry cluster_id ca_pem proof_fingerprint now failure =
      .ok (record, updated)) : updated = registry.put cluster_id record := by
  unfold registerOrUpdate at done
  split at done
  · cases done
  · obtain ⟨_, _, done⟩ := except_bind_ok done
    obtain ⟨written, persisted, done⟩ := except_bind_ok done
    cases done
    exact persistRegistry_ok persisted

theorem setSuspension_cases (service : Service) (cluster_id : Uuid) (suspended : Bool)
    (reason : Option String) (now : Nat) (failure : Option String) :
    (setSuspension service cluster_id suspended reason now failure).2 = service ∨
      ∃ before record, service.registry.get cluster_id = some before ∧
        record.caFingerprint = before.caFingerprint ∧
        (setSuspension service cluster_id suspended reason now failure).2 =
          { service with registry := service.registry.put cluster_id record } := by
  unfold setSuspension
  simp only
  split
  · exact .inl rfl
  · next record updated done =>
    split at done
    · split at done
      · cases done
      · obtain ⟨before, stored, same, rfl⟩ := suspend_ok done
        exact .inr ⟨before, record, stored, same, rfl⟩
    · obtain ⟨before, stored, same, rfl⟩ := resume_ok done
      exact .inr ⟨before, record, stored, same, rfl⟩

theorem unregistered_put {registry : Registry} {cluster_id : Uuid} {before : ClusterCaRecord}
    (stored : registry.get cluster_id = some before) (record : ClusterCaRecord) (cluster : Uuid)
    (absent : registry.get cluster = none) : (registry.put cluster_id record).get cluster = none := by
  rw [get_put]
  split
  · next same =>
    rw [same, stored] at absent
    cases absent
  · exact absent

end RegistryEffects

section Steps
variable {prims : Primitives} {config : RegistrationConfig} {service : Service}

theorem cleanup_kept (challenges : Table Uuid PendingChallenge) (now : Nat) :
    ∀ id challenge, (cleanup challenges now).get id = some challenge →
      challenges.get id = some challenge := by
  intro id challenge found
  unfold cleanup at found
  rw [get_retain] at found
  exact (Option.filter_eq_some_iff.mp found).1

theorem challengeResponse_ok {request : ChallengeRequest} {fingerprint : String} {now draw : Nat}
    {response : ChallengeResponse}
    (built : challengeResponse prims config request fingerprint now draw = .ok response) :
    response.clusterCaFingerprintSha256 = fingerprint := by
  unfold challengeResponse at built
  split at built
  · cases built
  · obtain ⟨_, _, built⟩ := except_bind_ok built
    cases built
    rfl

theorem orderly_challenge (orderly : Orderly prims service) (request : ChallengeRequest) (source_ip : IpAddr) (now : Nat) :
    Orderly prims (challenge prims config service request source_ip now).2 := by
  unfold challenge
  simp only
  split
  · exact orderly
  · next fingerprint named =>
    split
    · exact orderly.fewer (fun _ _ found => found) (Nat.le_succ _)
    · next response built =>
      split
      · exact orderly.fewer (cleanup_kept service.challenges now) (Nat.le_succ _)
      · have fingerprint_set := challengeResponse_ok built
        obtain ⟨der, single, hashed⟩ := challengeFingerprint_ok named
        have ca_named : NamesCa prims ⟨source_ip, request.clusterCaPem, response, service.draws⟩ :=
          ⟨der, single, fingerprint_set.trans hashed⟩
        exact orderly.issued (cleanup_kept service.challenges now) ca_named rfl

variable {call : Nat}

theorem orderly_completeClaim (orderly : Orderly prims service)
    (idle : service.calls.get call = none) (request : CompleteRequest) (source_ip : IpAddr)
    (now : Nat) : Orderly prims (completeClaim prims service call request source_ip now).2 := by
  have kept := cleanup_kept service.challenges now
  unfold completeClaim
  simp only
  split
  · exact orderly
  · split
    · exact orderly.fewer kept (Nat.le_refl _)
    · next pending found =>
      split
      · exact orderly.fewer kept (Nat.le_refl _)
      · next same_source =>
        split
        · apply orderly.fewer _ (Nat.le_refl _)
          intro id other stored
          exact kept id other (get_del_some stored).2
        · next alive =>
          exact orderly.claim kept idle request (kept _ _ found)
            (not_not.mp same_source).symm (by omega)

variable {current : CompleteCall}

theorem orderly_completeVerify (orderly : Orderly prims service)
    (busy : service.calls.get call = some current) :
    Orderly prims (completeVerify prims service call current).2 := by
  unfold completeVerify
  split
  · exact orderly.finish call
  · next passed =>
    obtain ⟨_, matching, verified⟩ := except_bind_ok passed
    have proofChecked : ProofChecked prims current.challenge current.request :=
      ⟨matching, verified⟩
    split
    · exact orderly
    · next free =>
      split
      · split
        · exact orderly.finish call
        · exact orderly.grant busy proofChecked
      · next absent =>
        split
        · exact orderly.finish call
        · exact orderly.lock busy proofChecked (by simpa using free) absent

theorem none_registering_after (orderly : Orderly prims service)
    (busy : service.calls.get call = some current)
    (registering : current.phase = .registering) :
    ∀ other another, (service.finish call).calls.get other = some another →
      another.phase ≠ .registering := by
  intro other another stored also
  change (service.calls.del call).get other = some another at stored
  obtain ⟨different, stored⟩ := get_del_some stored
  have first := (orderly.proved call current busy registering).2.1
  have second := (orderly.proved other another stored also).2.1
  rw [first] at second
  exact different (Option.some.inj second).symm

theorem orderly_completeRegister (orderly : Orderly prims service)
    (busy : service.calls.get call = some current)
    (registering : current.phase = .registering) (now : Nat) (failure : Option String) :
    Orderly prims (completeRegister prims service call current now failure).2 := by
  have alone := none_registering_after orderly busy registering
  unfold completeRegister
  simp only
  split
  · exact (orderly.finish call).unlocked alone service.registry none
  · next registered registry done =>
    have proofChecked := (orderly.proved call current busy registering).1
    exact (orderly.grant busy proofChecked).unlocked alone registry none

theorem orderly_exec (orderly : Orderly prims service) (step : Step) : Orderly prims (step.exec prims config service) := by
  cases step with
  | challenge request source_ip now => exact orderly_challenge orderly request source_ip now
  | completeClaim call request source_ip now =>
    simp only [Step.exec]
    split
    · exact orderly
    · next idle => exact orderly_completeClaim orderly idle request source_ip now
  | completeVerify call =>
    simp only [Step.exec]
    split
    · next current busy =>
      split
      · exact orderly_completeVerify orderly busy
      · exact orderly
    · exact orderly
  | completeRegister call now failure =>
    simp only [Step.exec]
    split
    · next current busy =>
      split
      · next registering => exact orderly_completeRegister orderly busy registering now failure
      · exact orderly
    · exact orderly
  | setSuspension cluster_id suspended reason now failure =>
    simp only [Step.exec]
    rcases setSuspension_cases service cluster_id suspended reason now failure with
      same | ⟨before, record, stored, _, changed⟩
    · rw [same]
      exact orderly
    · rw [changed]
      exact orderly.registered (unregistered_put stored record)
  | observeAccess cluster_id now failure =>
    simp only [Step.exec]
    split
    · exact orderly
    · next record registry done =>
      obtain ⟨before, stored, _, _, rfl⟩ := observeAccess_ok done
      exact orderly.registered (unregistered_put stored record)

theorem challenge_registry (request : ChallengeRequest) (source_ip : IpAddr) (now : Nat) :
    (challenge prims config service request source_ip now).2.registry = service.registry := by
  unfold challenge
  simp only
  split
  · rfl
  · split
    · rfl
    · split <;> rfl

theorem completeClaim_registry (call : Nat) (request : CompleteRequest) (source_ip : IpAddr)
    (now : Nat) :
    (completeClaim prims service call request source_ip now).2.registry = service.registry := by
  unfold completeClaim
  simp only
  split
  · rfl
  · split
    · rfl
    · split
      · rfl
      · split <;> rfl

theorem completeVerify_registry (call : Nat) (current : CompleteCall) :
    (completeVerify prims service call current).2.registry = service.registry := by
  unfold completeVerify
  split
  · rfl
  · split
    · rfl
    · split
      · split <;> rfl
      · split <;> rfl

def SuspendsOrResumes (cluster : Uuid) : Step → Prop
  | .setSuspension cluster_id _ _ _ _ => cluster_id = cluster
  | _ => False

def RecordKept (cluster : Uuid) (record : ClusterCaRecord) (operator : Prop)
    (registry : Registry) : Prop :=
  ∃ after, registry.get cluster = some after ∧ after.caFingerprint = record.caFingerprint ∧
    (¬operator → after.suspended = record.suspended)

theorem recordKept_put {registry : Registry} {cluster cluster_id : Uuid} {operator : Prop}
    {record before changed : ClusterCaRecord} (stored : registry.get cluster = some record)
    (found : registry.get cluster_id = some before)
    (fingerprint : changed.caFingerprint = before.caFingerprint)
    (flag : cluster_id = cluster → ¬operator → changed.suspended = before.suspended) :
    RecordKept cluster record operator (registry.put cluster_id changed) := by
  by_cases same : cluster = cluster_id
  · subst same
    rw [stored] at found
    cases found
    exact ⟨changed, get_put_self _ _ _, fingerprint, flag rfl⟩
  · exact ⟨record, (get_put_other _ _ same).trans stored, rfl, fun _ => rfl⟩

theorem completeRegister_registry (orderly : Orderly prims service)
    (busy : service.calls.get call = some current)
    (registering : current.phase = .registering) (now : Nat) (failure : Option String)
    {cluster : Uuid} {record : ClusterCaRecord}
    (stored : service.registry.get cluster = some record) :
    (completeRegister prims service call current now failure).2.registry.get cluster =
      some record := by
  have absent := (orderly.proved call current busy registering).2.2
  have different : cluster ≠ current.request.clusterId := by
    intro same
    rw [same, absent] at stored
    cases stored
  unfold completeRegister
  simp only
  split
  · exact stored
  · next registered registry done =>
    obtain ⟨_, _, done⟩ := except_bind_ok done
    change registry.get cluster = some record
    rw [registerOrUpdate_ok done, get_put_other _ _ different]
    exact stored

theorem exec_registry (orderly : Orderly prims service) (step : Step) {cluster : Uuid}
    {record : ClusterCaRecord} (stored : service.registry.get cluster = some record) :
    RecordKept cluster record (SuspendsOrResumes cluster step)
      (step.exec prims config service).registry := by
  have unchanged : ∀ registry : Registry, registry.get cluster = some record →
      RecordKept cluster record (SuspendsOrResumes cluster step) registry :=
    fun _ kept => ⟨record, kept, rfl, fun _ => rfl⟩
  cases step with
  | challenge request source_ip now =>
    apply unchanged
    rw [← stored]
    exact congrArg (·.get cluster) (challenge_registry request source_ip now)
  | completeClaim call request source_ip now =>
    apply unchanged
    rw [← stored]
    simp only [Step.exec]
    split
    · rfl
    · rw [completeClaim_registry]
  | completeVerify call =>
    apply unchanged
    rw [← stored]
    simp only [Step.exec]
    split
    · split
      · rw [completeVerify_registry]
      · rfl
    · rfl
  | completeRegister call now failure =>
    apply unchanged
    simp only [Step.exec]
    split
    · next current busy =>
      split
      · next registering =>
        exact completeRegister_registry orderly busy registering now failure stored
      · exact stored
    · exact stored
  | setSuspension cluster_id suspended reason now failure =>
    simp only [Step.exec]
    rcases setSuspension_cases service cluster_id suspended reason now failure with
      same | ⟨before, changed_record, found, fingerprint, changed⟩
    · rw [same]
      exact unchanged _ stored
    · rw [changed]
      exact recordKept_put stored found fingerprint fun own other => absurd own other
  | observeAccess cluster_id now failure =>
    simp only [Step.exec]
    split
    · exact unchanged _ stored
    · next seen registry done =>
      obtain ⟨before, found, fingerprint, flag, rfl⟩ := observeAccess_ok done
      exact recordKept_put stored found fingerprint fun _ _ => flag

end Steps

section Runs
variable {prims : Primitives} {config : RegistrationConfig}

theorem orderly_run (registry : Registry) (steps : List Step) :
    Orderly prims (runAll (Step.exec prims config) (Service.opened registry) steps) :=
  run_keeps (Orderly prims) (fun _ step orderly => orderly_exec orderly step) steps _
    (orderly_opened registry)

theorem registry_run {cluster : Uuid} (steps : List Step) :
    ∀ service record, Orderly prims service → service.registry.get cluster = some record →
      RecordKept cluster record (∃ step ∈ steps, SuspendsOrResumes cluster step)
        (runAll (Step.exec prims config) service steps).registry := by
  induction steps with
  | nil =>
    intro service record _ stored
    exact ⟨record, stored, rfl, fun _ => rfl⟩
  | cons step steps ih =>
    intro service record orderly stored
    obtain ⟨middle, found, fingerprint, flag⟩ :=
      @exec_registry prims config service orderly step _ _ stored
    obtain ⟨after, kept, same, flags⟩ :=
      ih (step.exec prims config service) middle (orderly_exec orderly step) found
    refine ⟨after, kept, same.trans fingerprint, fun quiet => ?_⟩
    have later : ¬∃ other ∈ steps, SuspendsOrResumes cluster other := by
      rintro ⟨other, listed, changes⟩
      exact quiet ⟨other, List.mem_cons_of_mem _ listed, changes⟩
    have here : ¬SuspendsOrResumes cluster step :=
      fun changes => quiet ⟨step, List.mem_cons_self, changes⟩
    rw [flags later, flag here]

end Runs

/-- Over every interleaving: the CA of a registered cluster stays, its suspension changes only by
    the operator, and a challenge completes at most once, from its own source, before its expiry
    and with a proof by the key of the CA it names. -/
theorem registration_cannot_be_taken_over (prims : Primitives) (config : RegistrationConfig)
    (registry : Registry) (Signed : Bytes → Bytes → Prop)
    (unforgeable : ∀ key message signature, prims.verify key message signature = true →
      Signed key message)
    (before after : List Step) (service later : Service)
    (reached : service = runAll (Step.exec prims config) (Service.opened registry) before)
    (continued : later = runAll (Step.exec prims config) service after) :
    (∀ cluster record, service.registry.get cluster = some record →
      ∃ current, later.registry.get cluster = some current ∧
        current.caFingerprint = record.caFingerprint ∧
        (¬(∃ step ∈ after, SuspendsOrResumes cluster step) →
          current.suspended = record.suspended)) ∧
      (service.log.filterMap completedIssue).Nodup ∧
      ∀ recent challenge request source_ip now earlier,
        service.log = recent ++ .completed challenge request source_ip now :: earlier →
          .issued challenge ∈ earlier ∧ source_ip = challenge.sourceIp ∧
            now < challenge.response.expiresAtUnix ∧ ProvedByCa prims Signed challenge := by
  have orderly : Orderly prims service := by
    rw [reached]
    exact orderly_run registry before
  refine ⟨?_, orderly.once, ?_⟩
  · intro cluster record stored
    rw [continued]
    exact registry_run after service record orderly stored
  · intro recent challenge request source_ip now earlier split
    obtain ⟨issued, source, alive, proofChecked⟩ :=
      orderly.granted recent challenge request source_ip now earlier split
    have listed : RegistrationEvent.issued challenge ∈ service.log := by
      rw [split]
      simp [issued]
    exact ⟨issued, source, alive,
      provedByCa_of_checked unforgeable (orderly.drawn challenge listed).1 proofChecked⟩

section Example

def samplePem : String := "-----BEGIN CERTIFICATE-----\nMAA=\n-----END CERTIFICATE-----"

def sampleFingerprint : String := "e4f60d0aa6d7f3d3b6a6494b1c861b99f649c6f9ec51abaf201b20f297327c95"

def sampleKey : Bytes :=
  [4, 9, 36, 247, 241, 88, 220, 74, 199, 170, 41, 245, 213, 198, 112, 184, 58, 197, 32, 136, 156,
    10, 4, 106, 100, 32, 191, 68, 51, 80, 104, 1, 195, 19, 225, 26, 214, 190, 50, 209, 165, 132,
    234, 178, 208, 202, 162, 100, 52, 221, 74, 222, 32, 254, 16, 185, 193, 165, 120, 115, 247, 205,
    43, 177, 149]

def sampleNonce (draw : Nat) : String :=
  if draw = 0 then "AQEBAQEBAQEBAQEBAQEBAQEBAQEBAQEBAQEBAQEBAQE"
  else "AgICAgICAgICAgICAgICAgICAgICAgICAgICAgICAgI"

def sampleSignature (draw : Nat) : Bytes :=
  if draw = 0 then
    [48, 70, 2, 33, 0, 133, 8, 36, 217, 149, 31, 81, 27, 232, 204, 220, 16, 0, 88, 247, 219, 94,
      17, 209, 128, 104, 32, 157, 239, 125, 114, 166, 29, 220, 164, 122, 93, 2, 33, 0, 196, 224,
      133, 185, 146, 51, 3, 122, 209, 203, 48, 158, 42, 81, 253, 102, 32, 216, 154, 189, 225, 38,
      110, 157, 107, 251, 35, 247, 134, 27, 204, 15]
  else
    [48, 70, 2, 33, 0, 226, 180, 34, 6, 6, 201, 168, 174, 129, 83, 81, 231, 109, 103, 105, 5, 227,
      72, 210, 212, 227, 147, 43, 147, 164, 51, 187, 137, 127, 67, 126, 23, 2, 33, 0, 240, 187,
      186, 211, 65, 130, 188, 8, 229, 209, 20, 43, 177, 0, 172, 147, 108, 178, 222, 4, 41, 159, 27,
      232, 99, 65, 3, 61, 135, 26, 163, 71]

def sampleProof (draw : Nat) : String :=
  if draw = 0 then
    "MEYCIQCFCCTZlR9RG-jM3BAAWPfbXhHRgGggne99cqYd3KR6XQIhAMTghbmSMwN60cswnipR_WYg2Jq94SZunWv7I_eGG8wP"
  else
    "MEYCIQDitCIGBsmoroFTUedtZ2kF40jS1OOTK5OkM7uJf0N-FwIhAPC7utNBgrwI5dEUK7EArJNsst4EKZ8b6GNBAz2HGqNH"

def sampleTexts : List (String × Bytes) :=
  [(sampleNonce 0, List.replicate 32 1), (sampleNonce 1, List.replicate 32 2),
    (sampleProof 0, sampleSignature 0), (sampleProof 1, sampleSignature 1)]

def sampleMessage (draw : Nat) : Bytes :=
  proofMessageDomain ++ bytesOf 2 1 ++ bytesOf 16 7 ++ decodeFingerprint sampleFingerprint.toList ++
    bytesOf 16 (draw + 1) ++ bytesOf 2 32 ++ List.replicate 32 (UInt8.ofNat (draw + 1)) ++
    bytesOf 8 400

/-- The libraries on the texts of two registrations, with an empty sequence for the certificate; the
    key has signed nothing else. -/
def sampleLibraries : Primitives where
  pemCertificates text := if text = samplePem then some [[0x30, 0]] else none
  parseCertificate der := if der = [0x30, 0] then
    some ⟨[], some (some true), true, "1.2.840.10045.2.1", some "1.2.840.10045.3.1.7", sampleKey⟩
    else none
  sha256 bytes := if bytes = [0x30, 0] then decodeFingerprint sampleFingerprint.toList
    else List.replicate 32 0
  base64Decode text := (sampleTexts.find? fun row => row.1 = text).map Prod.snd
  base64Encode bytes := ((sampleTexts.find? fun row => row.2 = bytes).map Prod.fst).getD ""
  isP256Key key := decide (key = sampleKey)
  isDerSignature bytes := bytes.head? == some 0x30
  verify key message signature := decide (key = sampleKey ∧ (message, signature) ∈ [0, 1].map
    fun draw => (sampleMessage draw, sampleSignature draw))
  newChallengeId n := ⟨(n + 1) % 2 ^ 128, Nat.mod_lt _ (Nat.two_pow_pos 128)⟩
  newNonce n := List.replicate 32 (UInt8.ofNat (n + 1))

def sampleConfig : RegistrationConfig := ⟨300, 10⟩

def sampleChallenge : Step := .challenge ⟨1, 7, samplePem, .ecdsaP256Sha256Asn1⟩ (.v4 9) 100

def sampleCompletion (draw : Nat) : CompleteRequest :=
  ⟨1, 7, sampleFingerprint, .ecdsaP256Sha256Asn1, sampleLibraries.newChallengeId draw,
    sampleNonce draw, 400, sampleProof draw⟩

def suspendedRun : List Step :=
  [sampleChallenge, .completeClaim 0 (sampleCompletion 0) (.v4 9) 110, .completeVerify 0,
    .completeRegister 0 111 none, .setSuspension 7 true (some "abuse") 120 none]

def registerAgain : List Step :=
  [sampleChallenge, .completeClaim 1 (sampleCompletion 1) (.v4 9) 130, .completeVerify 1]

theorem sample_completed :
    (runAll (Step.exec sampleLibraries sampleConfig) (Service.opened Table.empty)
      (suspendedRun ++ registerAgain)).log.filterMap completedIssue = [1, 0] ∧
    ((runAll (Step.exec sampleLibraries sampleConfig) (Service.opened Table.empty)
      suspendedRun).registry.get 7).map (·.suspended) = some true := by
  decide +kernel

theorem registering_again_keeps_suspension :
    let service := runAll (Step.exec sampleLibraries sampleConfig) (Service.opened Table.empty)
      suspendedRun
    let later := runAll (Step.exec sampleLibraries sampleConfig) service registerAgain
    later.log.filterMap completedIssue = [1, 0] ∧
      ∃ record current, service.registry.get 7 = some record ∧ record.suspended = true ∧
        later.registry.get 7 = some current ∧ current.caFingerprint = record.caFingerprint ∧
        current.suspended = record.suspended := by
  obtain ⟨completed, suspended⟩ := sample_completed
  rw [runAll_append] at completed
  obtain ⟨record, stored, flag⟩ := Option.map_eq_some_iff.mp suspended
  have safe := registration_cannot_be_taken_over sampleLibraries sampleConfig Table.empty
    (fun key message => key = sampleKey ∧ ∃ draw ∈ [0, 1], message = sampleMessage draw)
    (by
      intro key message signature verified
      obtain ⟨own, known⟩ := of_decide_eq_true verified
      obtain ⟨draw, listed, same⟩ := List.mem_map.mp known
      exact ⟨own, draw, listed, (congrArg Prod.fst same).symm⟩)
    suspendedRun registerAgain _ _ rfl rfl
  obtain ⟨current, found, fingerprint, kept⟩ := safe.1 7 record stored
  refine ⟨completed, record, current, stored, flag, found, fingerprint, kept ?_⟩
  simp [registerAgain, sampleChallenge, SuspendsOrResumes]

end Example

/-- In every interleaving one call at most writes the registry: it holds the lock and a proved
    challenge of its own, and its cluster is not registered. -/
theorem registering_exclusive (prims : Primitives) (config : RegistrationConfig)
    (registry : Registry) (steps : List Step) :
    let service := runAll (Step.exec prims config) (Service.opened registry) steps
    ∀ call current, service.calls.get call = some current → current.phase = .registering →
      service.guard = some call ∧ ProofChecked prims current.challenge current.request ∧
      service.registry.get current.request.clusterId = none ∧
      ∀ other another, service.calls.get other = some another →
        another.phase = .registering ∨ another.challenge.issue = current.challenge.issue →
        other = call := by
  intro service call current busy last
  have orderly : Orderly prims service := orderly_run registry steps
  obtain ⟨checked, lock, free⟩ := orderly.proved call current busy last
  refine ⟨lock, checked, free, fun other another found => ?_⟩
  rintro (also | same)
  · exact Option.some.inj ((orderly.proved other another found also).2.1.symm.trans lock)
  · exact orderly.apart other call another current found busy same

end BerryKeepRegistrationSafety
