import BerryKeep.ClientRequestAuth

/-!
Retries of client mutations. A call that carries an operation id claims the id
before it runs: the first claim becomes the owner and gets a lease, later ones
wait for it, replay its response, or are turned away when they ask for
something else. The claims live in a table that forgets its old rows. Each
locked section of the table is one step here and any number of calls may be
under way.
-/
namespace BerryKeepMutationIdempotency
open FiniteTable TextOperations StatefulProgram BerryKeepContentCodec BerryKeepClientRequestAuth

def clientMutationOperationTtlSecs : Nat := 15 * 60

def headerOperationId : String := "x-berrykeep-operation-id"
def legacyHeaderOperationId : String := "x-ironmesh-operation-id"

structure ClientMutationOperationKey where
  requesterId : String
  operationId : String
  deriving DecidableEq

structure ClientMutationRecordedResponse where
  status : Nat
  headers : List (String × Bytes)
  body : Bytes

structure Response where
  status : Nat
  headers : Table String Bytes
  body : Bytes

def ClientMutationRecordedResponse.intoResponse (recorded : ClientMutationRecordedResponse) :
    Response where
  status := recorded.status
  headers := recorded.headers.foldl (fun headers row => headers.put row.1 row.2) Table.empty
  body := recorded.body

abbrev Channel := Nat

inductive ClientMutationOperationState where
  | inProgress (completion_tx : Channel)
  | completed (response : ClientMutationRecordedResponse)

structure ClientMutationOperationEntry where
  requestFingerprint : String
  updatedAtUnix : Nat
  state : ClientMutationOperationState

abbrev ClientMutationOperationStore := Table ClientMutationOperationKey ClientMutationOperationEntry

def ClientMutationOperationStore.prune (store : ClientMutationOperationStore) (now : Nat) :
    ClientMutationOperationStore :=
  let oldest_allowed := now - clientMutationOperationTtlSecs
  store.retain fun _ entry => decide (oldest_allowed ≤ entry.updatedAtUnix)

structure ClientMutationOperationLease where
  key : ClientMutationOperationKey
  completed : Bool

inductive ClientMutationOperationClaim where
  | owner (lease : ClientMutationOperationLease)
  | wait (completion_rx : Channel)
  | replay (response : ClientMutationRecordedResponse)
  | conflict

def claimClientMutationOperation (store : ClientMutationOperationStore)
    (key : ClientMutationOperationKey) (request_fingerprint : String) (now : Nat)
    (channel : Channel) : ClientMutationOperationClaim × ClientMutationOperationStore :=
  let store := ClientMutationOperationStore.prune store now
  match store.get key with
  | some entry =>
    let store := store.put key { entry with updatedAtUnix := now }
    if entry.requestFingerprint ≠ request_fingerprint then (.conflict, store)
    else match entry.state with
      | .inProgress completion_tx => (.wait completion_tx, store)
      | .completed response => (.replay response, store)
  | none => (.owner ⟨key, false⟩, store.put key ⟨request_fingerprint, now, .inProgress channel⟩)

def ClientMutationOperationLease.complete (lease : ClientMutationOperationLease)
    (response : ClientMutationRecordedResponse) (now : Nat)
    (store : ClientMutationOperationStore) :
    ClientMutationOperationLease × ClientMutationOperationStore :=
  if lease.completed then (lease, store)
  else
    let store := ClientMutationOperationStore.prune store now
    match store.get lease.key with
    | none => ({ lease with completed := true }, store)
    | some entry =>
      ({ lease with completed := true },
        store.put lease.key { entry with updatedAtUnix := now, state := .completed response })

def ClientMutationOperationLease.drop (lease : ClientMutationOperationLease)
    (store : ClientMutationOperationStore) : ClientMutationOperationStore :=
  if lease.completed then store else store.del lease.key

def requestHeaderValue (headers : HeaderMap) (canonical_header_name legacy_header_name : String) :
    Option String :=
  ((((headers canonical_header_name).or (headers legacy_header_name)).bind headerText).map
    trim).filter fun value => value ≠ ""

/-- The key of a call; a call without a requester or an operation id runs unguarded. -/
def operationKey (requester_id : Option String) (headers : HeaderMap) :
    Option ClientMutationOperationKey := do
  let requester_id ← (requester_id.map trim).filter fun value => value ≠ ""
  let operation_id ← requestHeaderValue headers headerOperationId legacyHeaderOperationId
  return ⟨requester_id, operation_id⟩

inductive Phase where
  | claiming
  | waiting (completion_rx : Channel)
  | running (lease : ClientMutationOperationLease)
  | returned (response : Response)
  | conflict
  | abandoned

structure Call where
  key : ClientMutationOperationKey
  requestFingerprint : String
  phase : Phase
  bodyStarted : Bool

/-- The table of claims and the calls under way. `returned` lists what calls returned since
    the entry of a key was made, as long as the entry was there. -/
structure MutationServer where
  store : ClientMutationOperationStore
  calls : Table Nat Call
  channels : Channel
  returned : ClientMutationOperationKey → List Response

def MutationServer.new : MutationServer := ⟨Table.empty, Table.empty, 0, fun _ => []⟩

inductive Step where
  | arrive (id : Nat) (requester_id : Option String) (headers : HeaderMap)
      (request_fingerprint : String)
  | claim (id : Nat) (now : Nat)
  | wake (id : Nat)
  | complete (id : Nat) (response : ClientMutationRecordedResponse) (now : Nat)
  | drop (id : Nat)

def MutationServer.setPhase (server : MutationServer) (id : Nat) (call : Call) (phase : Phase) :
    MutationServer :=
  { server with calls := server.calls.put id { call with phase := phase } }

def MutationServer.note (server : MutationServer) (key : ClientMutationOperationKey)
    (response : Response) : MutationServer :=
  if server.store.has key then
    { server with returned := fun other =>
        if other = key then server.returned key ++ [response] else server.returned other }
  else server

def MutationServer.own (server : MutationServer) (id : Nat) (call : Call)
    (lease : ClientMutationOperationLease) (store : ClientMutationOperationStore) :
    MutationServer where
  store := store
  calls := server.calls.put id { call with phase := .running lease, bodyStarted := true }
  channels := server.channels + 1
  returned other := if other = call.key then [] else server.returned other

def channelHeld (store : ClientMutationOperationStore) (channel : Channel) : Bool :=
  store.values.any fun entry => match entry.state with
    | .inProgress completion_tx => completion_tx == channel
    | .completed _ => false

def exec (step : Step) (server : MutationServer) : MutationServer :=
  match step with
  | .arrive id requester_id headers request_fingerprint =>
    match server.calls.get id, operationKey requester_id headers with
    | none, some key =>
      { server with calls := server.calls.put id ⟨key, request_fingerprint, .claiming, false⟩ }
    | _, _ => server
  | .claim id now =>
    match server.calls.get id with
    | none => server
    | some call => match call.phase with
      | .claiming =>
        match claimClientMutationOperation server.store call.key call.requestFingerprint now
            server.channels with
        | (.owner lease, store) => server.own id call lease store
        | (.wait completion_rx, store) =>
          { server with store := store }.setPhase id call (.waiting completion_rx)
        | (.replay response, store) =>
          ({ server with store := store }.setPhase id call
            (.returned response.intoResponse)).note call.key response.intoResponse
        | (.conflict, store) => { server with store := store }.setPhase id call .conflict
      | _ => server
  | .wake id =>
    match server.calls.get id with
    | none => server
    | some call => match call.phase with
      | .waiting completion_rx =>
        if channelHeld server.store completion_rx then server
        else server.setPhase id call .claiming
      | _ => server
  | .complete id response now =>
    match server.calls.get id with
    | none => server
    | some call => match call.phase with
      | .running lease =>
        match lease.complete response now server.store with
        | (lease, store) =>
          ({ server with store := lease.drop store }.setPhase id call
            (.returned response.intoResponse)).note lease.key response.intoResponse
      | _ => server
  | .drop id =>
    match server.calls.get id with
    | none => server
    | some call => match call.phase with
      | .running lease =>
        { server with store := lease.drop server.store }.setPhase id call .abandoned
      | .claiming | .waiting _ => server.setPhase id call .abandoned
      | _ => server

def LiveLease (server : MutationServer) (id : Nat) (key : ClientMutationOperationKey) : Prop :=
  ∃ call, server.calls.get id = some call ∧ call.phase = .running ⟨key, false⟩

structure Idempotent (server : MutationServer) : Prop where
  one_lease : ∀ id other key, LiveLease server id key → LiveLease server other key → id = other
  same_request : ∀ id call entry key, server.calls.get id = some call →
    call.phase = .running ⟨key, false⟩ → server.store.get key = some entry →
    entry.requestFingerprint = call.requestFingerprint
  refused_never_ran : ∀ id call, server.calls.get id = some call → call.phase = .conflict →
    call.bodyStarted = false
  same_response : ∀ key, ∀ response ∈ server.returned key, ∀ other ∈ server.returned key,
    response.status = other.status ∧ response.body = other.body

/-- A claim for a key under a live lease finds the entry of the lease, young enough. -/
def LeaseRemembered (server : MutationServer) : Step → Prop
  | .claim id now => ∀ call, server.calls.get id = some call → call.phase = .claiming →
    ∀ other, LiveLease server other call.key → ∃ entry, server.store.get call.key = some entry ∧
      now ≤ entry.updatedAtUnix + clientMutationOperationTtlSecs
  | _ => True

section Claims
variable {store : ClientMutationOperationStore} {key : ClientMutationOperationKey}
  {entry : ClientMutationOperationEntry} {request_fingerprint : String} {now : Nat}
  {channel : Channel}

theorem get_prune :
    (ClientMutationOperationStore.prune store now).get key = (store.get key).filter fun entry =>
      decide (now ≤ entry.updatedAtUnix + clientMutationOperationTtlSecs) := by
  simp [ClientMutationOperationStore.prune, get_retain]

/-- The rows of the second table stand in the first one, but for the time of the last claim. -/
def Touched (store after : ClientMutationOperationStore) : Prop :=
  ∀ key entry, after.get key = some entry → ∃ earlier, store.get key = some earlier ∧
    entry.requestFingerprint = earlier.requestFingerprint ∧ entry.state = earlier.state

theorem touched_refl : Touched store store := fun _ entry found => ⟨entry, found, rfl, rfl⟩

theorem touched_prune : Touched store (ClientMutationOperationStore.prune store now) := by
  intro key entry found
  rw [get_prune, Option.filter_eq_some_iff] at found
  exact ⟨entry, found.1, rfl, rfl⟩

theorem touched_del : Touched store (store.del key) := by
  intro other entry found
  exact ⟨entry, (get_del_some found).2, rfl, rfl⟩

theorem touched_refresh (found : (ClientMutationOperationStore.prune store now).get key = some entry) :
    Touched store ((ClientMutationOperationStore.prune store now).put key
      { entry with updatedAtUnix := now }) := by
  intro other row stored
  rcases get_put_some stored with ⟨rfl, rfl⟩ | ⟨-, stored⟩
  · obtain ⟨earlier, read, text, state⟩ := touched_prune other entry found
    exact ⟨earlier, read, text, state⟩
  · exact touched_prune other row stored

theorem claim_cases :
    ((ClientMutationOperationStore.prune store now).get key = none ∧
      claimClientMutationOperation store key request_fingerprint now channel =
        (.owner ⟨key, false⟩, (ClientMutationOperationStore.prune store now).put key
          ⟨request_fingerprint, now, .inProgress channel⟩)) ∨
    ∃ answer after, Touched store after ∧
      claimClientMutationOperation store key request_fingerprint now channel = (answer, after) ∧
      (answer = .conflict ∨ (∃ completion_rx, answer = .wait completion_rx) ∨
        ∃ response entry, answer = .replay response ∧ after.get key = some entry ∧
          entry.state = .completed response) := by
  unfold claimClientMutationOperation
  cases found : (ClientMutationOperationStore.prune store now).get key with
  | none => exact .inl ⟨rfl, by simp only [found]⟩
  | some entry =>
    right
    have touched := touched_refresh found
    simp only [found]
    split
    · exact ⟨_, _, touched, rfl, .inl rfl⟩
    · obtain ⟨fingerprint, updated_at_unix, state⟩ := entry
      cases state with
      | inProgress completion_tx => exact ⟨_, _, touched, rfl, .inr (.inl ⟨_, rfl⟩)⟩
      | completed response =>
        exact ⟨_, _, touched, rfl, .inr (.inr ⟨response, _, rfl, get_put_self _ _ _, rfl⟩)⟩

end Claims

section Exclusive
variable {server : MutationServer} {id : Nat} {call : Call}

def Logged : ClientMutationOperationState → List Response → Prop
  | .inProgress _, log => log = []
  | .completed response, log => ∀ returned ∈ log, returned = response.intoResponse

def Phase.unstarted : Phase → Bool
  | .claiming | .waiting _ | .conflict => true
  | _ => false

/-- What the locked sections keep as long as no lease is forgotten. -/
structure Exclusive (server : MutationServer) : Prop where
  leased : ∀ id call lease, server.calls.get id = some call → call.phase = .running lease →
    lease = ⟨call.key, false⟩
  unstarted : ∀ id call, server.calls.get id = some call → call.phase.unstarted = true →
    call.bodyStarted = false
  one_lease : ∀ id other key, LiveLease server id key → LiveLease server other key → id = other
  open_entry : ∀ id call entry key, server.calls.get id = some call →
    call.phase = .running ⟨key, false⟩ → server.store.get key = some entry →
    entry.requestFingerprint = call.requestFingerprint ∧
      ∃ completion_tx, entry.state = .inProgress completion_tx
  logged : ∀ key entry, server.store.get key = some entry →
    Logged entry.state (server.returned key)
  agreed : ∀ key, ∀ response ∈ server.returned key, ∀ other ∈ server.returned key,
    response = other

theorem Exclusive.idempotent (holds : Exclusive server) : Idempotent server where
  one_lease := holds.one_lease
  same_request id call entry key found running stored :=
    (holds.open_entry id call entry key found running stored).1
  refused_never_ran id call found refused := holds.unstarted id call found (by rw [refused]; rfl)
  same_response key response member other member' := by
    rw [holds.agreed key response member other member']
    exact ⟨rfl, rfl⟩

theorem exclusive_new : Exclusive MutationServer.new where
  leased id call lease found := by cases found
  unstarted id call found := by cases found
  one_lease id other key := by rintro ⟨call, found, -⟩; cases found
  open_entry id call entry key found := by cases found
  logged key entry found := by cases found
  agreed key response member := by cases member

theorem exclusive_touched {after : ClientMutationOperationStore} (holds : Exclusive server)
    (touched : Touched server.store after) : Exclusive { server with store := after } where
  leased := holds.leased
  unstarted := holds.unstarted
  one_lease := holds.one_lease
  open_entry id call entry key found running stored := by
    obtain ⟨earlier, read, text, state⟩ := touched key entry stored
    rw [text, state]
    exact holds.open_entry id call earlier key found running read
  logged key entry stored := by
    obtain ⟨earlier, read, -, state⟩ := touched key entry stored
    rw [state]
    exact holds.logged key earlier read
  agreed := holds.agreed

variable {key : ClientMutationOperationKey}

theorem liveLease_put {other : Nat}
    {row : Call} (live : LiveLease { server with calls := server.calls.put id row } other key) :
    (other = id ∧ row.phase = .running ⟨key, false⟩) ∨ (other ≠ id ∧ LiveLease server other key) := by
  obtain ⟨held, found, running⟩ := live
  rcases get_put_some found with ⟨same, rfl⟩ | ⟨ne, found⟩
  · exact .inl ⟨same, running⟩
  · exact .inr ⟨ne, held, found, running⟩

theorem exclusive_setPhase {phase : Phase} (holds : Exclusive server)
    (found : server.calls.get id = some call) (ended : ∀ lease, phase ≠ .running lease)
    (early : phase.unstarted = true → call.phase.unstarted = true) :
    Exclusive (server.setPhase id call phase) where
  leased other row lease read running := by
    rcases get_put_some read with ⟨-, rfl⟩ | ⟨-, read⟩
    · exact absurd running (ended lease)
    · exact holds.leased other row lease read running
  unstarted other row read waits := by
    rcases get_put_some read with ⟨-, rfl⟩ | ⟨-, read⟩
    · exact holds.unstarted id call found (early waits)
    · exact holds.unstarted other row read waits
  one_lease one other key first second := by
    rcases liveLease_put first with ⟨-, running⟩ | ⟨-, first⟩
    · exact absurd running (ended _)
    · rcases liveLease_put second with ⟨-, running⟩ | ⟨-, second⟩
      · exact absurd running (ended _)
      · exact holds.one_lease one other key first second
  open_entry other row entry key read running stored := by
    rcases get_put_some read with ⟨-, rfl⟩ | ⟨-, read⟩
    · exact absurd running (ended _)
    · exact holds.open_entry other row entry key read running stored
  logged := holds.logged
  agreed := holds.agreed

variable {now : Nat}

theorem exclusive_own (holds : Exclusive server) (found : server.calls.get id = some call)
    (free : ∀ other, ¬LiveLease server other call.key) :
    Exclusive (server.own id call ⟨call.key, false⟩ (server.store.put call.key
      ⟨call.requestFingerprint, now, .inProgress server.channels⟩)) where
  leased other row lease read running := by
    rcases get_put_some read with ⟨-, rfl⟩ | ⟨-, read⟩
    · cases running; rfl
    · exact holds.leased other row lease read running
  unstarted other row read waits := by
    rcases get_put_some read with ⟨-, rfl⟩ | ⟨-, read⟩
    · cases waits
    · exact holds.unstarted other row read waits
  one_lease one other key first second := by
    rcases liveLease_put first with ⟨rfl, mine⟩ | ⟨-, first⟩
    · rcases liveLease_put second with ⟨same, -⟩ | ⟨-, second⟩
      · exact same.symm
      · cases mine; exact absurd second (free other)
    · rcases liveLease_put second with ⟨-, mine⟩ | ⟨-, second⟩
      · cases mine; exact absurd first (free one)
      · exact holds.one_lease one other key first second
  open_entry other row entry key read running stored := by
    simp only [MutationServer.own, get_put] at read stored
    split at read
    · cases read
      cases running
      rw [if_pos rfl] at stored
      cases stored
      exact ⟨rfl, _, rfl⟩
    · have apart : key ≠ call.key := by
        rintro rfl
        exact free other ⟨row, read, running⟩
      rw [if_neg apart] at stored
      exact holds.open_entry other row entry key read running stored
  logged key entry stored := by
    simp only [MutationServer.own, get_put] at stored ⊢
    split at stored
    · next same => cases stored; rw [if_pos same]; rfl
    · next apart => rw [if_neg apart]; exact holds.logged key entry stored
  agreed key := by
    simp only [MutationServer.own]
    split
    · intro response member; cases member
    · exact holds.agreed key

variable {response : ClientMutationRecordedResponse}

theorem exclusive_record {entry : ClientMutationOperationEntry} (holds : Exclusive server)
    (silent : server.returned key = []) (free : ∀ other, ¬LiveLease server other key)
    (recorded : entry.state = .completed response) :
    Exclusive { server with store := server.store.put key entry } where
  leased := holds.leased
  unstarted := holds.unstarted
  one_lease := holds.one_lease
  open_entry other row stored_entry stored_key read running stored := by
    simp only [get_put] at stored
    split at stored
    · next same => subst same; exact absurd ⟨row, read, running⟩ (free other)
    · exact holds.open_entry other row stored_entry stored_key read running stored
  logged other stored_entry stored := by
    simp only [get_put] at stored ⊢
    split at stored
    · next same =>
      cases stored
      subst same
      rw [recorded, silent]
      intro returned member
      cases member
    · exact holds.logged other stored_entry stored
  agreed := holds.agreed

theorem exclusive_note (holds : Exclusive server)
    (recorded : ∀ entry, server.store.get key = some entry → entry.state = .completed response) :
    Exclusive (server.note key response.intoResponse) := by
  unfold MutationServer.note
  split
  · next stored =>
    obtain ⟨entry, read⟩ := (has_iff _ _).mp stored
    have same : ∀ returned ∈ server.returned key ++ [response.intoResponse],
        returned = response.intoResponse := by
      intro returned member
      rcases List.mem_append.mp member with earlier | last
      · have log := holds.logged key entry read
        rw [recorded entry read] at log
        exact log returned earlier
      · exact List.mem_singleton.mp last
    constructor
    · exact holds.leased
    · exact holds.unstarted
    · exact holds.one_lease
    · exact holds.open_entry
    · intro other row found
      by_cases equal : other = key
      · subst equal
        simp only [if_true, recorded row found]
        exact same
      · simp only [if_neg equal]
        exact holds.logged other row found
    · intro other
      by_cases equal : other = key
      · subst equal
        simp only [if_true]
        intro first member second member'
        rw [same first member, same second member']
      · simp only [if_neg equal]
        exact holds.agreed other
  · exact holds

theorem exclusive_arrive {request_fingerprint : String}
    (holds : Exclusive server) : Exclusive { server with
      calls := server.calls.put id ⟨key, request_fingerprint, .claiming, false⟩ } where
  leased other row lease read running := by
    rcases get_put_some read with ⟨-, rfl⟩ | ⟨-, read⟩
    · cases running
    · exact holds.leased other row lease read running
  unstarted other row read waits := by
    rcases get_put_some read with ⟨-, rfl⟩ | ⟨-, read⟩
    · rfl
    · exact holds.unstarted other row read waits
  one_lease one other key first second := by
    rcases liveLease_put first with ⟨-, running⟩ | ⟨-, first⟩
    · cases running
    · rcases liveLease_put second with ⟨-, running⟩ | ⟨-, second⟩
      · cases running
      · exact holds.one_lease one other key first second
  open_entry other row entry key read running stored := by
    rcases get_put_some read with ⟨-, rfl⟩ | ⟨-, read⟩
    · cases running
    · exact holds.open_entry other row entry key read running stored
  logged := holds.logged
  agreed := holds.agreed

theorem exclusive_claim (holds : Exclusive server)
    (remembered : LeaseRemembered server (.claim id now)) :
    Exclusive (exec (.claim id now) server) := by
  simp only [exec]
  cases found : server.calls.get id with
  | none => exact holds
  | some call =>
    dsimp only
    split
    · next phase =>
      have early : call.phase.unstarted = true := by rw [phase]; rfl
      rcases @claim_cases server.store call.key call.requestFingerprint now server.channels with
        ⟨absent, outcome⟩ | ⟨answer, after, touched, outcome, shape⟩
      · have free : ∀ other, ¬LiveLease server other call.key := by
          intro other live
          obtain ⟨entry, stored, young⟩ := remembered call found phase other live
          rw [get_prune, stored] at absent
          simp at absent
          omega
        rw [outcome]
        exact exclusive_own (exclusive_touched holds touched_prune) found free
      · have kept := exclusive_touched holds touched
        rw [outcome]
        rcases shape with rfl | ⟨completion_rx, rfl⟩ | ⟨response, entry, rfl, stored, state⟩
        · exact exclusive_setPhase kept found (by simp) fun _ => early
        · exact exclusive_setPhase kept found (by simp) fun _ => early
        · have ended := @exclusive_setPhase _ _ _ (.returned response.intoResponse) kept found
            (by simp) fun _ => early
          refine exclusive_note ended fun row read => ?_
          cases stored.symm.trans read
          exact state
    · exact holds

theorem exclusive_wake (holds : Exclusive server) : Exclusive (exec (.wake id) server) := by
  simp only [exec]
  cases found : server.calls.get id with
  | none => exact holds
  | some call =>
    dsimp only
    split
    · next completion_rx phase =>
      split
      · exact holds
      · exact exclusive_setPhase holds found (by simp) fun _ => by rw [phase]; rfl
    · exact holds

theorem no_lease_after {phase : Phase} (holds : Exclusive server)
    (found : server.calls.get id = some call) (running : call.phase = .running ⟨call.key, false⟩)
    (ended : ∀ lease, phase ≠ .running lease) (other : Nat) :
    ¬LiveLease (server.setPhase id call phase) other call.key := by
  intro live
  rcases liveLease_put live with ⟨-, running'⟩ | ⟨ne, live⟩
  · exact ended _ running'
  · exact ne (holds.one_lease other id call.key live ⟨call, found, running⟩)

theorem exclusive_complete
    (holds : Exclusive server) : Exclusive (exec (.complete id response now) server) := by
  simp only [exec]
  cases found : server.calls.get id with
  | none => exact holds
  | some call =>
    dsimp only
    split
    · next lease phase =>
      cases holds.leased id call lease found phase
      have pruned := exclusive_touched holds (@touched_prune _ now)
      have ended := @exclusive_setPhase _ _ _ (.returned response.intoResponse) pruned found
        (by simp) (fun waits => by cases waits)
      simp only [ClientMutationOperationLease.complete, Bool.false_eq_true, if_false]
      cases stored : (ClientMutationOperationStore.prune server.store now).get call.key with
      | none =>
        simp only [ClientMutationOperationLease.drop, if_true]
        refine exclusive_note ended fun entry read => ?_
        cases stored.symm.trans read
      | some entry =>
        simp only [ClientMutationOperationLease.drop, if_true]
        -- The entry was in progress, so nothing had been returned for it.
        obtain ⟨-, completion_tx, state⟩ :=
          pruned.open_entry id call entry call.key found phase stored
        have silent : server.returned call.key = [] := by
          have log := pruned.logged call.key entry stored
          rwa [state] at log
        have recorded := @exclusive_record _ _ response
          { entry with updatedAtUnix := now, state := .completed response }
          ended silent (no_lease_after pruned found phase (by simp)) rfl
        refine exclusive_note recorded fun row read => ?_
        cases (get_put_self _ _ _).symm.trans read
        rfl
    · exact holds

theorem exclusive_drop (holds : Exclusive server) : Exclusive (exec (.drop id) server) := by
  simp only [exec]
  cases found : server.calls.get id with
  | none => exact holds
  | some call =>
    dsimp only
    have gone : ∀ after, Touched server.store after →
        Exclusive ({ server with store := after }.setPhase id call .abandoned) := fun after touched =>
      exclusive_setPhase (exclusive_touched holds touched) found (by simp) (fun waits => by cases waits)
    split
    · next lease phase =>
      unfold ClientMutationOperationLease.drop
      split
      · exact gone _ touched_refl
      · exact gone _ touched_del
    · exact gone _ touched_refl
    · exact gone _ touched_refl
    · exact holds

theorem exclusive_step {step : Step} (holds : Exclusive server)
    (remembered : LeaseRemembered server step) : Exclusive (exec step server) := by
  cases step with
  | arrive id requester_id headers request_fingerprint =>
    simp only [exec]
    split
    · exact exclusive_arrive holds
    · exact holds
  | claim id now => exact exclusive_claim holds remembered
  | wake id => exact exclusive_wake holds
  | complete id response now => exact exclusive_complete holds
  | drop id => exact exclusive_drop holds

theorem forgotten_lease_shared {step : Step} (forgotten : ¬LeaseRemembered server step) :
    ¬Idempotent (exec step server) := by
  cases step with
  | claim id now =>
    simp only [LeaseRemembered, not_forall] at forgotten
    obtain ⟨call, found, phase, other, live, missing⟩ := forgotten
    have absent : (ClientMutationOperationStore.prune server.store now).get call.key = none := by
      rw [get_prune, Option.filter_eq_none_iff]
      intro entry stored
      simpa using fun young => missing ⟨entry, stored, young⟩
    have ne : other ≠ id := by
      rintro rfl
      obtain ⟨row, read, running⟩ := live
      cases found.symm.trans read
      rw [phase] at running
      cases running
    have after : exec (.claim id now) server = server.own id call ⟨call.key, false⟩
        ((ClientMutationOperationStore.prune server.store now).put call.key
          ⟨call.requestFingerprint, now, .inProgress server.channels⟩) := by
      simp only [exec, found, phase, claimClientMutationOperation, absent]
    rw [after]
    intro idempotent
    obtain ⟨row, read, running⟩ := live
    refine ne (idempotent.one_lease other id call.key ⟨row, ?_, running⟩ ⟨_, get_put_self _ _ _, rfl⟩)
    exact (get_put_other _ _ ne).trans read
  | arrive id requester_id headers request_fingerprint => exact absurd trivial forgotten
  | wake id => exact absurd trivial forgotten
  | complete id response now => exact absurd trivial forgotten
  | drop id => exact absurd trivial forgotten

end Exclusive

/-- In every interleaving the calls are idempotent at all times, exactly if no claim comes for
    a key under a live lease whose entry has been forgotten or is older than the time to live. -/
theorem retried_mutations_idempotent_iff (steps : List Step) :
    (∀ done, done <+: steps → Idempotent (runAll exec MutationServer.new done)) ↔
      AllSteps exec LeaseRemembered MutationServer.new steps :=
  allSteps_iff Exclusive (fun _ _ remembered holds => exclusive_step holds remembered)
    (fun _ holds => holds.idempotent) (fun _ _ _ forgotten => forgotten_lease_shared forgotten)
    steps MutationServer.new exclusive_new

def retriedHeaders : HeaderMap := fun name =>
  if name = headerOperationId then some (textBytes "op-1") else none

/-- The body of the first call takes more than fifteen minutes; its retry starts the body again. -/
theorem slow_body_runs_twice :
    ¬Idempotent (runAll exec MutationServer.new
      [.arrive 1 (some "device-1") retriedHeaders "f", .claim 1 0,
        .arrive 2 (some "device-1") retriedHeaders "f", .claim 2 901]) := by
  intro idempotent
  have first : LiveLease (runAll exec MutationServer.new
      [.arrive 1 (some "device-1") retriedHeaders "f", .claim 1 0,
        .arrive 2 (some "device-1") retriedHeaders "f", .claim 2 901]) 1 ⟨"device-1", "op-1"⟩ :=
    ⟨_, rfl, rfl⟩
  have second : LiveLease (runAll exec MutationServer.new
      [.arrive 1 (some "device-1") retriedHeaders "f", .claim 1 0,
        .arrive 2 (some "device-1") retriedHeaders "f", .claim 2 901]) 2 ⟨"device-1", "op-1"⟩ :=
    ⟨_, rfl, rfl⟩
  exact absurd (idempotent.one_lease 1 2 _ first second) (by decide)

end BerryKeepMutationIdempotency
