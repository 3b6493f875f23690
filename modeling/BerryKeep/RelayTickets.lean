import BerryKeep.ClusterPlacement
import BerryKeep.StatefulProgram
import Mathlib.Data.List.Perm.Basic

/-!
Relay tickets of the rendezvous server. A peer asks for a ticket, may release
it, and presents it to open a tunnel; the ticket travels through the peer, and
the server keeps its own copy of every outstanding one. A log of what the
server answered is kept next to its state, so that each source handed to the
tunnel broker can be traced back to the ticket it was issued for.
-/
namespace BerryKeepRelayTickets
open FiniteTable TextOperations StatefulProgram BerryKeepClusterPlacement

section Source

abbrev Uuid := Fin (2 ^ 128)

inductive PeerIdentity where
  | node (node_id : Uuid)
  | device (device_id : Uuid)
  deriving DecidableEq, Repr

def peerIdentityText : PeerIdentity → String
  | .node node_id => "node:" ++ nodeIdText node_id
  | .device device_id => "device:" ++ nodeIdText device_id

inductive RelayTunnelSessionKind where
  | multiplexTransport
  deriving DecidableEq, Repr

inductive RelayTunnelSecurityMode where
  | legacyPlaintext
  | innerMtls
  deriving DecidableEq, Repr

structure RelayTicketRequest where
  clusterId : Uuid
  source : PeerIdentity
  target : PeerIdentity
  sessionKind : RelayTunnelSessionKind
  securityMode : RelayTunnelSecurityMode
  requestedExpiresInSecs : Option Nat
  deriving DecidableEq, Repr

structure RelayTicket where
  clusterId : Uuid
  sessionId : String
  source : PeerIdentity
  target : PeerIdentity
  sessionKind : RelayTunnelSessionKind
  securityMode : RelayTunnelSecurityMode
  relayUrls : List String
  issuedAtUnix : Nat
  expiresAtUnix : Nat
  deriving DecidableEq, Repr

structure RelayTicketReleaseRequest where
  clusterId : Uuid
  source : PeerIdentity
  sessionId : String
  deriving DecidableEq, Repr

structure RelayTunnelSession where
  clusterId : Uuid
  sessionId : String
  source : PeerIdentity
  target : PeerIdentity
  sessionKind : RelayTunnelSessionKind
  securityMode : RelayTunnelSecurityMode
  deriving DecidableEq, Repr

structure AuthenticatedPeer where
  identity : PeerIdentity
  clusterId : Option Uuid

structure TicketApiError where
  status : Nat
  message : String
  retryAfterSecs : Option Nat
  deriving DecidableEq, Repr

def TicketApiError.backpressure (message : String) (retry_after_secs : Nat) : TicketApiError :=
  ⟨429, message, some (max retry_after_secs 1)⟩

def RelayTicketRequest.validate (request : RelayTicketRequest) : Except String Unit :=
  if request.clusterId = 0 then .error "relay ticket request must include a non-nil cluster_id"
  else .ok ()

def RelayTicket.validate (ticket : RelayTicket) : Except String Unit :=
  if ticket.clusterId = 0 then .error "relay ticket must include a non-nil cluster_id"
  else if isBlank ticket.sessionId then .error "relay ticket must include a session_id"
  else if ticket.relayUrls.isEmpty then .error "relay ticket must include at least one relay URL"
  else if ticket.expiresAtUnix ≤ ticket.issuedAtUnix then
    .error "relay ticket expires_at_unix must be greater than issued_at_unix"
  else .ok ()

def RelayTicketReleaseRequest.validate (request : RelayTicketReleaseRequest) :
    Except String Unit :=
  if request.clusterId = 0 then .error "relay ticket release must include a non-nil cluster_id"
  else if isBlank request.sessionId then .error "relay ticket release must include a session_id"
  else .ok ()

def RelayTunnelSession.validate (session : RelayTunnelSession) : Except String Unit :=
  if session.clusterId = 0 then .error "relay tunnel session must include a non-nil cluster_id"
  else if isBlank session.sessionId then .error "relay tunnel session must include a session_id"
  else .ok ()

def ensureAuthenticatedPeerIdentity (mtls_enabled : Bool) (peer : Option AuthenticatedPeer)
    (identity : PeerIdentity) (field_name : String) : Except String Unit :=
  if !mtls_enabled then .ok ()
  else match peer with
    | none => .error "rendezvous mTLS requires an authenticated peer certificate"
    | some peer =>
      if peer.identity = identity then .ok ()
      else .error (field_name ++ " " ++ peerIdentityText identity ++
        " does not match authenticated rendezvous client " ++ peerIdentityText peer.identity)

def ensureAuthenticatedPeerCluster (mtls_enabled : Bool) (peer : Option AuthenticatedPeer)
    (cluster_id : Uuid) (field_name : String) : Except String Unit :=
  if !mtls_enabled then .ok ()
  else match peer with
    | none => .error "rendezvous mTLS requires an authenticated peer certificate"
    | some peer => match peer.clusterId with
      | none =>
        .error "authenticated rendezvous client certificate is missing a cluster URI SAN"
      | some authenticated =>
        if authenticated = cluster_id then .ok ()
        else .error (field_name ++ " cluster_id " ++ nodeIdText cluster_id ++
          " does not match authenticated rendezvous client cluster_id " ++
          nodeIdText authenticated)

def ensureAuthenticated (mtls_enabled : Bool) (peer : Option AuthenticatedPeer)
    (source : PeerIdentity) (source_field : String) (cluster_id : Uuid) (cluster_field : String) :
    Except String Unit := do
  ensureAuthenticatedPeerIdentity mtls_enabled peer source source_field
  ensureAuthenticatedPeerCluster mtls_enabled peer cluster_id cluster_field

structure RelayTicketClientKey where
  clusterId : Uuid
  source : PeerIdentity
  deriving DecidableEq, Repr

structure RelayTicketIssueState where
  outstanding : Table RelayTicketClientKey (List RelayTicket)
  issueHistory : Table RelayTicketClientKey (List Nat)
  activeConnections : Table RelayTicketClientKey Nat

/-- `Uuid::now_v7` gives the text of the n-th draw. -/
structure RelayConfig where
  mtlsEnabled : Bool
  publicUrl : String
  relayPublicUrls : List String
  maxAllocationsPerClient : Nat
  maxIssuesPerMinute : Nat
  newSessionId : Nat → String

def saturatingAdd (a b : Nat) : Nat := min (a + b) (2 ^ 64 - 1)

def dropOldIssues (now_unix : Nat) (history : List Nat) : List Nat :=
  history.dropWhile fun issued => decide (saturatingAdd issued 60 ≤ now_unix)

def liveTickets (now_unix : Nat) (tickets : List RelayTicket) : List RelayTicket :=
  tickets.filter fun ticket => decide (now_unix < ticket.expiresAtUnix)

def prune (state : RelayTicketIssueState) (now_unix : Nat) : RelayTicketIssueState :=
  { state with
    outstanding := (state.outstanding.mapValues (liveTickets now_unix)).retain
      fun _ tickets => !tickets.isEmpty
    issueHistory := (state.issueHistory.mapValues (dropOldIssues now_unix)).retain
      fun _ history => !history.isEmpty }

def trimUrl (url : String) : String :=
  String.ofList ((trim url).toList.reverse.dropWhile (· == '/')).reverse

def orderedRelayUrls (config : RelayConfig) : List String :=
  config.relayPublicUrls.insertionSort fun a b =>
    (if trimUrl a ≠ trimUrl config.publicUrl then 1 else 0) ≤
      (if trimUrl b ≠ trimUrl config.publicUrl then 1 else 0)

def issueRuntimeRelayTicket (request : RelayTicketRequest) (relay_urls : List String)
    (now : Nat) (session_id : String) : RelayTicket where
  clusterId := request.clusterId
  sessionId := session_id
  source := request.source
  target := request.target
  sessionKind := request.sessionKind
  securityMode := request.securityMode
  relayUrls := relay_urls
  issuedAtUnix := now
  expiresAtUnix := now + min (max (request.requestedExpiresInSecs.getD 300) 60) 3600

def outstandingOf (state : RelayTicketIssueState) (client : RelayTicketClientKey) :
    List RelayTicket := (state.outstanding.get client).getD []

def putOutstanding (state : RelayTicketIssueState) (client : RelayTicketClientKey)
    (tickets : List RelayTicket) : RelayTicketIssueState :=
  { state with outstanding :=
      if tickets.isEmpty then state.outstanding.del client
      else state.outstanding.put client tickets }

/-- `clock` is the time the ticket itself is stamped with, read after `now_unix`. -/
def issue (config : RelayConfig) (state : RelayTicketIssueState) (request : RelayTicketRequest)
    (relay_urls : List String) (now_unix clock : Nat) (session_id : String) :
    Except TicketApiError RelayTicket × RelayTicketIssueState :=
  let client : RelayTicketClientKey := ⟨request.clusterId, request.source⟩
  let state := prune state now_unix
  let outstanding := outstandingOf state client
  let allocated := outstanding.length + (state.activeConnections.get client).getD 0
  if config.maxAllocationsPerClient ≤ allocated then
    let first_free := ((outstanding.map (·.expiresAtUnix)).min?).getD (saturatingAdd now_unix 1)
    (.error (.backpressure
      ("relay ticket allocation limit reached (" ++ toString allocated ++ "/" ++
        toString config.maxAllocationsPerClient ++ ")")
      (max (first_free - now_unix) 1)), state)
  else
    let history := dropOldIssues now_unix ((state.issueHistory.get client).getD [])
    let state := { state with issueHistory := state.issueHistory.put client history }
    if config.maxIssuesPerMinute ≤ history.length then
      (.error (.backpressure
        ("relay ticket issue rate exceeded (" ++ toString config.maxIssuesPerMinute ++
          " per minute)")
        (max (saturatingAdd (history.head?.getD now_unix) 60 - now_unix) 1)), state)
    else
      let ticket := issueRuntimeRelayTicket request relay_urls clock session_id
      match ticket.validate with
      | .error message => (.error ⟨500, message, none⟩, state)
      | .ok () =>
        (.ok ticket,
          { putOutstanding state client (outstanding ++ [ticket]) with
            issueHistory := state.issueHistory.put client (history ++ [now_unix]) })

/-- `Vec::swap_remove`: the last element takes the place of the removed one. -/
def swapRemove {α : Type} (xs : List α) (index : Nat) : List α :=
  match xs.getLast? with
  | none => []
  | some last => (xs.set index last).dropLast

def unknownTicket : String := "relay tunnel ticket is unknown, expired, or already consumed"

def consume (state : RelayTicketIssueState) (ticket : RelayTicket) (now_unix : Nat) :
    Except String RelayTicketClientKey × RelayTicketIssueState :=
  let client : RelayTicketClientKey := ⟨ticket.clusterId, ticket.source⟩
  let state := prune state now_unix
  match state.outstanding.get client with
  | none => (.error unknownTicket, state)
  | some tickets =>
    match tickets.findIdx? fun entry => entry.sessionId == ticket.sessionId with
    | none => (.error unknownTicket, state)
    | some index =>
      (.ok client,
        { putOutstanding state client (swapRemove tickets index) with
          activeConnections := state.activeConnections.put client
            ((state.activeConnections.get client).getD 0 + 1) })

def release (state : RelayTicketIssueState) (request : RelayTicketReleaseRequest)
    (now_unix : Nat) : Bool × RelayTicketIssueState :=
  let client : RelayTicketClientKey := ⟨request.clusterId, request.source⟩
  let state := prune state now_unix
  match state.outstanding.get client with
  | none => (false, state)
  | some tickets =>
    let kept := tickets.filter fun entry => entry.sessionId != request.sessionId
    (decide (kept.length ≠ tickets.length), putOutstanding state client kept)

def disconnect (state : RelayTicketIssueState) (client : RelayTicketClientKey) :
    RelayTicketIssueState :=
  match state.activeConnections.get client with
  | none => state
  | some active =>
    { state with activeConnections :=
        if active - 1 = 0 then state.activeConnections.del client
        else state.activeConnections.put client (active - 1) }

def connectSource (ticket : RelayTicket) (now : Nat) : Except String RelayTunnelSession := do
  ticket.validate
  if ticket.expiresAtUnix ≤ now then
    .error "relay tunnel ticket has expired"
  else
    let session : RelayTunnelSession :=
      ⟨ticket.clusterId, ticket.sessionId, ticket.source, ticket.target, ticket.sessionKind,
        ticket.securityMode⟩
    session.validate
    return session

end Source

inductive RelayEvent where
  | issued (ticket : RelayTicket)
  | released (request : RelayTicketReleaseRequest)
  | handedToBroker (ticket : RelayTicket) (now_unix : Nat)
  deriving DecidableEq

def RelayEvent.sessionId : RelayEvent → String
  | .issued ticket => ticket.sessionId
  | .released request => request.sessionId
  | .handedToBroker ticket _ => ticket.sessionId

structure RelayServer where
  tickets : RelayTicketIssueState
  sources : List RelayTunnelSession
  draws : Nat
  log : List RelayEvent

def RelayServer.start : RelayServer := ⟨⟨Table.empty, Table.empty, Table.empty⟩, [], 0, []⟩

/-- The requests, with the clock each one reads; a dropped connection is a step of its own. -/
inductive RelayCall where
  | issueRelayTicket (peer : Option AuthenticatedPeer) (request : RelayTicketRequest)
      (now_unix clock : Nat)
  | releaseRelayTicket (peer : Option AuthenticatedPeer) (request : RelayTicketReleaseRequest)
      (now_unix : Nat)
  | connectSource (peer : Option AuthenticatedPeer) (ticket : RelayTicket) (now_unix later : Nat)
  | disconnect (client : RelayTicketClientKey)

def issueRelayTicket (config : RelayConfig) (server : RelayServer)
    (peer : Option AuthenticatedPeer) (request : RelayTicketRequest) (now_unix clock : Nat) :
    Except TicketApiError RelayTicket × RelayServer :=
  match request.validate with
  | .error message => (.error ⟨400, message, none⟩, server)
  | .ok () =>
    match ensureAuthenticated config.mtlsEnabled peer request.source "relay ticket source"
        request.clusterId "relay ticket" with
    | .error message => (.error ⟨401, message, none⟩, server)
    | .ok () =>
      let answer := issue config server.tickets request (orderedRelayUrls config) now_unix clock
        (config.newSessionId server.draws)
      let server := { server with tickets := answer.2, draws := server.draws + 1 }
      match answer.1 with
      | .error error => (.error error, server)
      | .ok ticket => (.ok ticket, { server with log := .issued ticket :: server.log })

def releaseRelayTicket (config : RelayConfig) (server : RelayServer)
    (peer : Option AuthenticatedPeer) (request : RelayTicketReleaseRequest) (now_unix : Nat) :
    Except (Nat × String) Bool × RelayServer :=
  match request.validate with
  | .error message => (.error (400, message), server)
  | .ok () =>
    match ensureAuthenticated config.mtlsEnabled peer request.source
        "relay ticket release source" request.clusterId "relay ticket release" with
    | .error message => (.error (401, message), server)
    | .ok () =>
      let answer := release server.tickets request now_unix
      let log := if answer.1 then .released request :: server.log else server.log
      (.ok answer.1, { server with tickets := answer.2, log := log })

/-- The `ConnectSource` arm. A broker that refuses drops the connection again. -/
def establishRelayTunnelEndpoint (config : RelayConfig) (server : RelayServer)
    (peer : Option AuthenticatedPeer) (ticket : RelayTicket) (now_unix later : Nat) :
    Except String RelayTunnelSession × RelayServer :=
  match ensureAuthenticated config.mtlsEnabled peer ticket.source "relay tunnel source"
      ticket.clusterId "relay tunnel source" with
  | .error message => (.error message, server)
  | .ok () =>
    let answer := consume server.tickets ticket now_unix
    match answer.1 with
    | .error message => (.error message, { server with tickets := answer.2 })
    | .ok client =>
      let log := .handedToBroker ticket now_unix :: server.log
      match connectSource ticket later with
      | .error message =>
        (.error message, { server with tickets := disconnect answer.2 client, log := log })
      | .ok session =>
        (.ok session,
          { server with tickets := answer.2, sources := server.sources ++ [session], log := log })

def RelayCall.serve (config : RelayConfig) : RelayCall → RelayServer → RelayServer
  | .issueRelayTicket peer request now_unix clock, server =>
    (BerryKeepRelayTickets.issueRelayTicket config server peer request now_unix clock).2
  | .releaseRelayTicket peer request now_unix, server =>
    (BerryKeepRelayTickets.releaseRelayTicket config server peer request now_unix).2
  | .connectSource peer ticket now_unix later, server =>
    (establishRelayTunnelEndpoint config server peer ticket now_unix later).2
  | .disconnect client, server =>
    { server with tickets := BerryKeepRelayTickets.disconnect server.tickets client }

section Property

def SameTunnel (ticket presented : RelayTicket) : Prop :=
  ticket.sessionId = presented.sessionId ∧ ticket.clusterId = presented.clusterId ∧
    ticket.source = presented.source ∧ ticket.target = presented.target ∧
    ticket.sessionKind = presented.sessionKind ∧ ticket.securityMode = presented.securityMode

/-- Before the presented ticket was handed over, the server had issued it for this very tunnel
    and it was neither expired nor consumed nor released. -/
def Authorised (before : List RelayEvent) (presented : RelayTicket) (now_unix : Nat) : Prop :=
  ∃ ticket, .issued ticket ∈ before ∧ SameTunnel ticket presented ∧
    now_unix < ticket.expiresAtUnix ∧
    (∀ other time, .handedToBroker other time ∈ before → other.sessionId ≠ ticket.sessionId) ∧
    ∀ request, .released request ∈ before → request.sessionId ≠ ticket.sessionId

def AllAuthorised (log : List RelayEvent) : Prop :=
  ∀ after presented now_unix before, log = after ++ .handedToBroker presented now_unix :: before →
    Authorised before presented now_unix

def matchedTicket (state : RelayTicketIssueState) (ticket : RelayTicket) (now_unix : Nat) :
    Option RelayTicket :=
  (outstandingOf (prune state now_unix) ⟨ticket.clusterId, ticket.source⟩).find?
    fun entry => entry.sessionId == ticket.sessionId

/-- A presented ticket that finds an outstanding one names the same target, session kind and
    security mode. -/
def PresentsOwnTunnel (config : RelayConfig) (server : RelayServer) : RelayCall → Prop
  | .connectSource peer ticket now_unix _ =>
    ensureAuthenticated config.mtlsEnabled peer ticket.source "relay tunnel source"
        ticket.clusterId "relay tunnel source" = .ok () →
      ∀ entry, matchedTicket server.tickets ticket now_unix = some entry →
        entry.target = ticket.target ∧ entry.sessionKind = ticket.sessionKind ∧
          entry.securityMode = ticket.securityMode
  | _ => True

end Property

section Rows
variable {state : RelayTicketIssueState} {client other : RelayTicketClientKey} {now_unix : Nat}

theorem outstandingOf_prune (state : RelayTicketIssueState) (now_unix : Nat)
    (client : RelayTicketClientKey) :
    outstandingOf (prune state now_unix) client =
      liveTickets now_unix (outstandingOf state client) := by
  unfold outstandingOf prune
  simp only [get_retain, get_mapValues]
  cases state.outstanding.get client with
  | none => rfl
  | some tickets =>
    rw [Option.map_some, Option.filter_some, Option.getD_some]
    split
    · rfl
    · next emptied =>
      have nothing : liveTickets now_unix tickets = [] := by simpa using emptied
      rw [nothing]
      rfl

theorem outstandingOf_put (tickets : List RelayTicket) :
    outstandingOf (putOutstanding state client tickets) other =
      if other = client then tickets else outstandingOf state other := by
  unfold outstandingOf putOutstanding
  by_cases emptied : tickets.isEmpty = true
  · rw [List.isEmpty_iff] at emptied
    subst emptied
    simp only [List.isEmpty_nil, if_true, get_del]
    split <;> rfl
  · simp only [emptied, Bool.false_eq_true, if_false, get_put]
    split <;> rfl

def Fewer (before after : RelayTicketIssueState) : Prop :=
  ∀ client, (outstandingOf after client).Sublist (outstandingOf before client)

theorem fewer_prune (state : RelayTicketIssueState) (now_unix : Nat) :
    Fewer state (prune state now_unix) := by
  intro client
  rw [outstandingOf_prune]
  exact List.filter_sublist

theorem disconnect_outstanding (state : RelayTicketIssueState) (client : RelayTicketClientKey) :
    (disconnect state client).outstanding = state.outstanding := by
  unfold disconnect
  split <;> rfl

theorem swapRemove_perm {α : Type} {xs : List α} {index : Nat} (inside : index < xs.length) :
    xs.Perm (xs[index] :: swapRemove xs index) := by
  obtain ⟨front, last, rfl⟩ := (List.eq_nil_or_concat' xs).resolve_left fun empty => by
    rw [empty] at inside
    simp at inside
  apply (List.getElem_cons_eraseIdx_perm inside).symm.trans
  apply List.Perm.cons
  simp only [List.length_append, List.length_singleton] at inside
  unfold swapRemove
  rw [List.getLast?_concat]
  rcases Nat.lt_or_ge index front.length with within | at_end
  · simp only [List.set_append, within, if_true, List.dropLast_concat]
    rw [List.eraseIdx_append_of_lt_length within]
    exact (List.perm_append_singleton _ _).trans (List.set_perm_cons_eraseIdx within last).symm
  · have here : index = front.length := by omega
    subst here
    simp [List.eraseIdx_append_of_length_le]

end Rows

section Effects

theorem issue_cases (config : RelayConfig) (state : RelayTicketIssueState)
    (request : RelayTicketRequest) (relay_urls : List String) (now_unix clock : Nat)
    (session_id : String) :
    (∃ error, (issue config state request relay_urls now_unix clock session_id).1 = .error error ∧
        Fewer state (issue config state request relay_urls now_unix clock session_id).2) ∨
      ∃ ticket, (issue config state request relay_urls now_unix clock session_id).1 = .ok ticket ∧
        ticket = issueRuntimeRelayTicket request relay_urls clock session_id ∧
        ∀ client, outstandingOf
            (issue config state request relay_urls now_unix clock session_id).2 client =
          if client = ⟨request.clusterId, request.source⟩ then
            outstandingOf (prune state now_unix) client ++ [ticket]
          else outstandingOf (prune state now_unix) client := by
  have pruned := fewer_prune state now_unix
  unfold issue
  simp only
  split
  · exact .inl ⟨_, rfl, pruned⟩
  · split
    · exact .inl ⟨_, rfl, pruned⟩
    · split
      · exact .inl ⟨_, rfl, pruned⟩
      · refine .inr ⟨_, rfl, rfl, fun client => ?_⟩
        refine (outstandingOf_put _).trans ?_
        split
        · next own => rw [own]
        · rfl

theorem consume_cases (state : RelayTicketIssueState) (ticket : RelayTicket) (now_unix : Nat) :
    (∃ message, (consume state ticket now_unix).1 = .error message ∧
        matchedTicket state ticket now_unix = none ∧ Fewer state (consume state ticket now_unix).2) ∨
      ∃ entry client, (consume state ticket now_unix).1 = .ok client ∧
        matchedTicket state ticket now_unix = some entry ∧
        (outstandingOf (prune state now_unix) ⟨ticket.clusterId, ticket.source⟩).Perm
          (entry :: outstandingOf (consume state ticket now_unix).2
            ⟨ticket.clusterId, ticket.source⟩) ∧
        ∀ other, other ≠ ⟨ticket.clusterId, ticket.source⟩ →
          outstandingOf (consume state ticket now_unix).2 other =
            outstandingOf (prune state now_unix) other := by
  have pruned := fewer_prune state now_unix
  unfold consume matchedTicket
  simp only
  cases row : (prune state now_unix).outstanding.get ⟨ticket.clusterId, ticket.source⟩ with
  | none =>
    refine .inl ⟨_, rfl, ?_, pruned⟩
    simp [outstandingOf, row]
  | some tickets =>
    have here : outstandingOf (prune state now_unix) ⟨ticket.clusterId, ticket.source⟩ = tickets := by
      simp [outstandingOf, row]
    simp only [here]
    cases found : tickets.findIdx? fun entry => entry.sessionId == ticket.sessionId with
    | none =>
      refine .inl ⟨_, rfl, ?_, pruned⟩
      rw [List.findIdx?_eq_none_iff] at found
      exact List.find?_eq_none.mpr fun entry listed => by simpa using found entry listed
    | some index =>
      obtain ⟨inside, fits, first⟩ := List.findIdx?_eq_some_iff_getElem.mp found
      refine .inr ⟨tickets[index], _, rfl, ?_, ?_, ?_⟩
      · rw [List.find?_eq_some_iff_getElem]
        exact ⟨fits, index, inside, rfl, fun j earlier => by simpa using first j earlier⟩
      · have after : outstandingOf
            { putOutstanding (prune state now_unix) ⟨ticket.clusterId, ticket.source⟩
                (swapRemove tickets index) with
              activeConnections := (prune state now_unix).activeConnections.put
                ⟨ticket.clusterId, ticket.source⟩ (((prune state now_unix).activeConnections.get
                  ⟨ticket.clusterId, ticket.source⟩).getD 0 + 1) }
              ⟨ticket.clusterId, ticket.source⟩ = swapRemove tickets index :=
          (outstandingOf_put _).trans (if_pos rfl)
        simp only [after]
        exact swapRemove_perm inside
      · intro other apart
        exact (outstandingOf_put _).trans (if_neg apart)

theorem release_cases (state : RelayTicketIssueState) (request : RelayTicketReleaseRequest)
    (now_unix : Nat) :
    Fewer state (release state request now_unix).2 ∧
      ((release state request now_unix).1 = true →
        (∃ entry ∈ outstandingOf state ⟨request.clusterId, request.source⟩,
          entry.sessionId = request.sessionId) ∧
        ∀ entry ∈ outstandingOf (release state request now_unix).2
            ⟨request.clusterId, request.source⟩, entry.sessionId ≠ request.sessionId) := by
  have pruned := fewer_prune state now_unix
  unfold release
  simp only
  cases row : (prune state now_unix).outstanding.get ⟨request.clusterId, request.source⟩ with
  | none => exact ⟨pruned, fun changed => by cases changed⟩
  | some tickets =>
    have here : outstandingOf (prune state now_unix) ⟨request.clusterId, request.source⟩ =
        tickets := by
      simp [outstandingOf, row]
    constructor
    · intro client
      rw [outstandingOf_put]
      split
      · next own =>
        have inside := pruned client
        rw [own, here] at inside
        rw [own]
        exact List.filter_sublist.trans inside
      · exact pruned client
    · intro changed
      constructor
      · simp only [decide_eq_true_eq, ne_eq, List.length_filter_eq_length_iff, not_forall] at changed
        obtain ⟨entry, listed, dropped⟩ := changed
        have before := pruned ⟨request.clusterId, request.source⟩
        rw [here] at before
        exact ⟨entry, before.subset listed, by simpa using dropped⟩
      · intro entry listed
        rw [outstandingOf_put, if_pos rfl] at listed
        simpa using (List.mem_filter.mp listed).2

end Effects

section Invariant

/-- Every outstanding ticket was issued under a fresh id to the client of its row, and nothing
    in the log has used it up. -/
structure Traceable (config : RelayConfig) (server : RelayServer) : Prop where
  drawn : ∀ event ∈ server.log, ∃ n < server.draws, event.sessionId = config.newSessionId n
  unique : ∀ ticket other, .issued ticket ∈ server.log → .issued other ∈ server.log →
    ticket.sessionId = other.sessionId → ticket = other
  listed : ∀ client, ∀ ticket ∈ outstandingOf server.tickets client,
    .issued ticket ∈ server.log ∧ client = ⟨ticket.clusterId, ticket.source⟩
  unconsumed : ∀ client, ∀ ticket ∈ outstandingOf server.tickets client, ∀ other now_unix,
    .handedToBroker other now_unix ∈ server.log → other.sessionId ≠ ticket.sessionId
  unreleased : ∀ client, ∀ ticket ∈ outstandingOf server.tickets client, ∀ request,
    .released request ∈ server.log → request.sessionId ≠ ticket.sessionId
  distinct : ∀ client, ((outstandingOf server.tickets client).map (·.sessionId)).Nodup

variable {config : RelayConfig} {server : RelayServer}

theorem traceable_start : Traceable config RelayServer.start where
  drawn := by intro _ member; cases member
  unique := by intro _ _ member; cases member
  listed := by intro _ _ member; cases member
  unconsumed := by intro _ _ member; cases member
  unreleased := by intro _ _ member; cases member
  distinct := by intro _; exact List.nodup_nil

theorem Traceable.row_unique (traceable : Traceable config server)
    {client other : RelayTicketClientKey} {ticket entry : RelayTicket}
    (first : ticket ∈ outstandingOf server.tickets client)
    (second : entry ∈ outstandingOf server.tickets other)
    (same : ticket.sessionId = entry.sessionId) : ticket = entry ∧ client = other := by
  obtain ⟨first_issued, first_client⟩ := traceable.listed client ticket first
  obtain ⟨second_issued, second_client⟩ := traceable.listed other entry second
  have equal := traceable.unique ticket entry first_issued second_issued same
  subst equal
  exact ⟨rfl, first_client.trans second_client.symm⟩

variable {after : RelayTicketIssueState}

theorem Traceable.fewer (traceable : Traceable config server)
    (fewer : Fewer server.tickets after) {draws : Nat} (later : server.draws ≤ draws)
    (sources : List RelayTunnelSession) :
    Traceable config ⟨after, sources, draws, server.log⟩ where
  drawn := by
    intro event member
    obtain ⟨n, earlier, named⟩ := traceable.drawn event member
    exact ⟨n, Nat.lt_of_lt_of_le earlier later, named⟩
  unique := traceable.unique
  listed := fun client ticket member =>
    traceable.listed client ticket ((fewer client).subset member)
  unconsumed := fun client ticket member =>
    traceable.unconsumed client ticket ((fewer client).subset member)
  unreleased := fun client ticket member =>
    traceable.unreleased client ticket ((fewer client).subset member)
  distinct := fun client => (traceable.distinct client).sublist ((fewer client).map _)

theorem Traceable.issued (traceable : Traceable config server)
    (fresh : Function.Injective config.newSessionId)
    {ticket : RelayTicket} {now_unix : Nat} (named : ticket.sessionId = config.newSessionId server.draws)
    (rows : ∀ client, outstandingOf after client =
      if client = ⟨ticket.clusterId, ticket.source⟩ then
        outstandingOf (prune server.tickets now_unix) client ++ [ticket]
      else outstandingOf (prune server.tickets now_unix) client) :
    Traceable config ⟨after, server.sources, server.draws + 1, .issued ticket :: server.log⟩ := by
  have pruned := fewer_prune server.tickets now_unix
  have new_id : ∀ event ∈ server.log, event.sessionId ≠ ticket.sessionId := by
    intro event member same
    obtain ⟨n, earlier, drawn⟩ := traceable.drawn event member
    rw [drawn, named] at same
    exact absurd (fresh same) (by omega)
  have row_cases : ∀ client entry, entry ∈ outstandingOf after client →
      entry ∈ outstandingOf server.tickets client ∨
        entry = ticket ∧ client = ⟨ticket.clusterId, ticket.source⟩ := by
    intro client entry member
    rw [rows] at member
    split at member
    · next own =>
      rcases List.mem_append.mp member with older | last
      · exact .inl ((pruned client).subset older)
      · exact .inr ⟨List.mem_singleton.mp last, own⟩
    · exact .inl ((pruned client).subset member)
  constructor
  · intro event member
    rcases List.mem_cons.mp member with rfl | older
    · exact ⟨server.draws, Nat.lt_succ_self _, named⟩
    · obtain ⟨n, earlier, drawn⟩ := traceable.drawn event older
      exact ⟨n, Nat.lt_succ_of_lt earlier, drawn⟩
  · exact logged_apart (fun _ _ => RelayEvent.issued.inj) traceable.unique
      fun _ older => new_id _ older
  · intro client entry member
    rcases row_cases client entry member with older | ⟨rfl, own⟩
    · obtain ⟨known, own⟩ := traceable.listed client entry older
      exact ⟨List.mem_cons_of_mem _ known, own⟩
    · exact ⟨List.mem_cons_self, own⟩
  · intro client entry member other time handed
    have earlier : RelayEvent.handedToBroker other time ∈ server.log := by simpa using handed
    rcases row_cases client entry member with older | ⟨rfl, _⟩
    · exact traceable.unconsumed client entry older other time earlier
    · exact new_id _ earlier
  · intro client entry member request released
    have earlier : RelayEvent.released request ∈ server.log := by simpa using released
    rcases row_cases client entry member with older | ⟨rfl, _⟩
    · exact traceable.unreleased client entry older request earlier
    · exact new_id _ earlier
  · intro client
    change ((outstandingOf after client).map (·.sessionId)).Nodup
    have kept := (traceable.distinct client).sublist ((pruned client).map (·.sessionId))
    rw [rows]
    split
    · rw [List.map_append, List.nodup_append]
      refine ⟨kept, List.nodup_singleton _, ?_⟩
      intro id listed new_ticket last same
      obtain ⟨entry, member, rfl⟩ := List.mem_map.mp listed
      have known := (traceable.listed client entry ((pruned client).subset member)).1
      rw [List.map_singleton, List.mem_singleton] at last
      exact new_id _ known (same.trans last)
    · exact kept

theorem Traceable.usedUp (traceable : Traceable config server)
    {client : RelayTicketClientKey} {entry : RelayTicket}
    (was : entry ∈ outstandingOf server.tickets client) (event : RelayEvent)
    (named : event.sessionId = entry.sessionId) (not_issue : ∀ ticket, event ≠ .issued ticket)
    (inside : ∀ client, (outstandingOf after client).Subperm (outstandingOf server.tickets client))
    (gone : ∀ ticket ∈ outstandingOf after client, ticket.sessionId ≠ entry.sessionId)
    (sources : List RelayTunnelSession) :
    Traceable config ⟨after, sources, server.draws, event :: server.log⟩ := by
  have known := (traceable.listed client entry was).1
  have elsewhere : ∀ other, ∀ ticket ∈ outstandingOf after other,
      ticket.sessionId ≠ entry.sessionId := by
    intro other ticket member same
    have before := (inside other).subset member
    obtain ⟨_, rfl⟩ := traceable.row_unique before was same
    exact gone ticket member same
  have old_issue : ∀ ticket, .issued ticket ∈ event :: server.log → .issued ticket ∈ server.log := by
    intro ticket member
    rcases List.mem_cons.mp member with here | older
    · exact absurd here.symm (not_issue ticket)
    · exact older
  constructor
  · intro other member
    rcases List.mem_cons.mp member with rfl | older
    · rw [named]
      exact traceable.drawn _ known
    · exact traceable.drawn other older
  · intro one other first second same
    exact traceable.unique one other (old_issue one first) (old_issue other second) same
  · intro other ticket member
    obtain ⟨issued, own⟩ := traceable.listed other ticket ((inside other).subset member)
    exact ⟨List.mem_cons_of_mem _ issued, own⟩
  · intro other ticket member presented time handed
    rcases List.mem_cons.mp handed with here | older
    · rw [← here] at named
      intro same
      exact elsewhere other ticket member (same.symm.trans named)
    · exact traceable.unconsumed other ticket ((inside other).subset member) presented time older
  · intro other ticket member request released
    rcases List.mem_cons.mp released with here | older
    · rw [← here] at named
      intro same
      exact elsewhere other ticket member (same.symm.trans named)
    · exact traceable.unreleased other ticket ((inside other).subset member) request older
  · intro other
    obtain ⟨row, same_row, smaller⟩ := inside other
    exact (same_row.map _).nodup_iff.mp ((traceable.distinct other).sublist (smaller.map _))

end Invariant

section Steps
variable {config : RelayConfig} {server : RelayServer}

theorem traceable_issue (fresh : Function.Injective config.newSessionId)
    (traceable : Traceable config server) (peer : Option AuthenticatedPeer)
    (request : RelayTicketRequest) (now_unix clock : Nat) :
    Traceable config (issueRelayTicket config server peer request now_unix clock).2 := by
  unfold issueRelayTicket
  split
  · exact traceable
  · split
    · exact traceable
    · simp only
      rcases issue_cases config server.tickets request (orderedRelayUrls config) now_unix clock
        (config.newSessionId server.draws) with ⟨error, refused, fewer⟩ | ⟨ticket, ok, made, rows⟩
      · rw [refused]
        exact traceable.fewer fewer (Nat.le_succ _) server.sources
      · rw [ok]
        subst made
        exact traceable.issued fresh rfl rows

theorem traceable_release (traceable : Traceable config server) (peer : Option AuthenticatedPeer)
    (request : RelayTicketReleaseRequest) (now_unix : Nat) :
    Traceable config (releaseRelayTicket config server peer request now_unix).2 := by
  obtain ⟨fewer, removed⟩ := release_cases server.tickets request now_unix
  unfold releaseRelayTicket
  split
  · exact traceable
  · split
    · exact traceable
    · simp only
      cases outcome : (release server.tickets request now_unix).1 with
      | false => exact traceable.fewer fewer (Nat.le_refl _) server.sources
      | true =>
        obtain ⟨⟨entry, was, named⟩, gone⟩ := removed outcome
        exact traceable.usedUp was (.released request) named.symm (fun _ same => by cases same)
          (fun client => (fewer client).subperm)
          (fun ticket member same => gone ticket member (same.trans named)) server.sources

theorem traceable_consumed (traceable : Traceable config server) {ticket entry : RelayTicket}
    {now_unix : Nat} (matched : matchedTicket server.tickets ticket now_unix = some entry)
    (row : (outstandingOf (prune server.tickets now_unix) ⟨ticket.clusterId, ticket.source⟩).Perm
      (entry :: outstandingOf (consume server.tickets ticket now_unix).2
        ⟨ticket.clusterId, ticket.source⟩))
    (others : ∀ other, other ≠ ⟨ticket.clusterId, ticket.source⟩ →
      outstandingOf (consume server.tickets ticket now_unix).2 other =
        outstandingOf (prune server.tickets now_unix) other)
    {after : RelayTicketIssueState}
    (kept : after.outstanding = (consume server.tickets ticket now_unix).2.outstanding)
    (sources : List RelayTunnelSession) :
    Traceable config ⟨after, sources, server.draws,
      .handedToBroker ticket now_unix :: server.log⟩ := by
  have pruned := fewer_prune server.tickets now_unix
  have same_rows : ∀ client, outstandingOf after client =
      outstandingOf (consume server.tickets ticket now_unix).2 client := by
    intro client
    unfold outstandingOf
    rw [kept]
  have named : entry.sessionId = ticket.sessionId := by
    simpa using List.find?_some matched
  have was : entry ∈ outstandingOf server.tickets ⟨ticket.clusterId, ticket.source⟩ :=
    (pruned _).subset (List.mem_of_find?_eq_some matched)
  have ids := ((row.map (·.sessionId)).nodup_iff.mp
    ((traceable.distinct _).sublist ((pruned _).map _)))
  rw [List.map_cons, List.nodup_cons] at ids
  apply traceable.usedUp was (.handedToBroker ticket now_unix) named.symm
    (fun _ same => by cases same) _ _ sources
  · intro client
    rw [same_rows]
    by_cases own : client = ⟨ticket.clusterId, ticket.source⟩
    · subst own
      exact (List.sublist_cons_self _ _).subperm.trans (row.symm.subperm.trans (pruned _).subperm)
    · rw [others client own]
      exact (pruned client).subperm
  · intro other member same
    rw [same_rows] at member
    exact ids.1 (List.mem_map.mpr ⟨other, member, same⟩)

theorem establish_cases (traceable : Traceable config server) (peer : Option AuthenticatedPeer)
    (ticket : RelayTicket) (now_unix later : Nat) :
    Traceable config (establishRelayTunnelEndpoint config server peer ticket now_unix later).2 ∧
      ((establishRelayTunnelEndpoint config server peer ticket now_unix later).2.log = server.log ∧
          (ensureAuthenticated config.mtlsEnabled peer ticket.source "relay tunnel source"
              ticket.clusterId "relay tunnel source" = .ok () →
            matchedTicket server.tickets ticket now_unix = none) ∨
        ∃ entry, ensureAuthenticated config.mtlsEnabled peer ticket.source "relay tunnel source"
            ticket.clusterId "relay tunnel source" = .ok () ∧
          matchedTicket server.tickets ticket now_unix = some entry ∧
          (establishRelayTunnelEndpoint config server peer ticket now_unix later).2.log =
            .handedToBroker ticket now_unix :: server.log) := by
  unfold establishRelayTunnelEndpoint
  cases allowed : ensureAuthenticated config.mtlsEnabled peer ticket.source "relay tunnel source"
      ticket.clusterId "relay tunnel source" with
  | error message => exact ⟨traceable, .inl ⟨rfl, fun wrong => by cases wrong⟩⟩
  | ok _ =>
    simp only
    rcases consume_cases server.tickets ticket now_unix with
      ⟨message, refused, unmatched, fewer⟩ | ⟨entry, client, ok, matched, row, others⟩
    · rw [refused]
      exact ⟨traceable.fewer fewer (Nat.le_refl _) server.sources, .inl ⟨rfl, fun _ => unmatched⟩⟩
    · rw [ok]
      cases connectSource ticket later with
      | error message =>
        exact ⟨traceable_consumed traceable matched row others (disconnect_outstanding _ _) _,
          .inr ⟨entry, trivial, matched, rfl⟩⟩
      | ok session =>
        exact ⟨traceable_consumed traceable matched row others rfl _,
          .inr ⟨entry, trivial, matched, rfl⟩⟩

theorem traceable_serve (fresh : Function.Injective config.newSessionId)
    (traceable : Traceable config server) (call : RelayCall) :
    Traceable config (call.serve config server) := by
  cases call with
  | issueRelayTicket peer request now_unix clock =>
    exact traceable_issue fresh traceable peer request now_unix clock
  | releaseRelayTicket peer request now_unix =>
    exact traceable_release traceable peer request now_unix
  | connectSource peer ticket now_unix later =>
    exact (establish_cases traceable peer ticket now_unix later).1
  | disconnect client =>
    apply traceable.fewer _ (Nat.le_refl _) server.sources
    intro other
    unfold outstandingOf
    rw [disconnect_outstanding]

end Steps

section Authorisation
variable {config : RelayConfig} {server : RelayServer}

theorem allAuthorised_cons {log : List RelayEvent} {event : RelayEvent}
    (earlier : AllAuthorised log)
    (here : ∀ presented now_unix, event = .handedToBroker presented now_unix →
      Authorised log presented now_unix) : AllAuthorised (event :: log) := by
  intro after presented now_unix before split
  cases after with
  | nil =>
    obtain ⟨rfl, rfl⟩ := List.cons.inj split
    exact here presented now_unix rfl
  | cons first after =>
    obtain ⟨_, rest⟩ := List.cons.inj split
    exact earlier after presented now_unix before rest

theorem authorised_of_matched (traceable : Traceable config server) {ticket entry : RelayTicket}
    {now_unix : Nat} (matched : matchedTicket server.tickets ticket now_unix = some entry)
    (own : entry.target = ticket.target ∧ entry.sessionKind = ticket.sessionKind ∧
      entry.securityMode = ticket.securityMode) : Authorised server.log ticket now_unix := by
  have member := List.mem_of_find?_eq_some matched
  rw [outstandingOf_prune, liveTickets, List.mem_filter, decide_eq_true_eq] at member
  obtain ⟨issued, client⟩ := traceable.listed _ entry member.1
  simp only [RelayTicketClientKey.mk.injEq] at client
  have named : entry.sessionId = ticket.sessionId := by
    simpa using List.find?_some matched
  exact ⟨entry, issued, ⟨named, client.1.symm, client.2.symm, own⟩, member.2,
    traceable.unconsumed _ entry member.1, traceable.unreleased _ entry member.1⟩

theorem own_tunnel_of_authorised (traceable : Traceable config server)
    {ticket entry : RelayTicket} {now_unix : Nat}
    (matched : matchedTicket server.tickets ticket now_unix = some entry)
    (authorised : Authorised server.log ticket now_unix) :
    entry.target = ticket.target ∧ entry.sessionKind = ticket.sessionKind ∧
      entry.securityMode = ticket.securityMode := by
  have member := (fewer_prune _ _ _).subset (List.mem_of_find?_eq_some matched)
  have known := (traceable.listed _ entry member).1
  have named : entry.sessionId = ticket.sessionId := by
    simpa using List.find?_some matched
  obtain ⟨other, issued, same, _⟩ := authorised
  have equal := traceable.unique entry other known issued (named.trans same.1.symm)
  subst equal
  exact same.2.2.2

theorem serve_authorised (traceable : Traceable config server)
    (earlier : AllAuthorised server.log) (call : RelayCall)
    (own : PresentsOwnTunnel config server call) :
    AllAuthorised (call.serve config server).log := by
  cases call with
  | issueRelayTicket peer request now_unix clock =>
    simp only [RelayCall.serve, issueRelayTicket]
    split
    · exact earlier
    · split
      · exact earlier
      · split
        · exact earlier
        · exact allAuthorised_cons earlier fun _ _ same => by cases same
  | releaseRelayTicket peer request now_unix =>
    simp only [RelayCall.serve, releaseRelayTicket]
    split
    · exact earlier
    · split
      · exact earlier
      · simp only
        split
        · exact allAuthorised_cons earlier fun _ _ same => by cases same
        · exact earlier
  | connectSource peer ticket now_unix later =>
    rcases (establish_cases traceable peer ticket now_unix later).2 with
      ⟨unchanged, _⟩ | ⟨entry, allowed, matched, handed⟩
    · simp only [RelayCall.serve, unchanged]
      exact earlier
    · simp only [RelayCall.serve, handed]
      apply allAuthorised_cons earlier
      intro presented time same
      cases same
      exact authorised_of_matched traceable matched (own allowed entry matched)
  | disconnect client => exact earlier

theorem serve_unauthorised (traceable : Traceable config server) (call : RelayCall)
    (foreign : ¬PresentsOwnTunnel config server call) :
    ¬AllAuthorised (call.serve config server).log := by
  intro all
  apply foreign
  cases call with
  | connectSource peer ticket now_unix later =>
    intro allowed entry matched
    rcases (establish_cases traceable peer ticket now_unix later).2 with
      ⟨_, unmatched⟩ | ⟨_, _, _, handed⟩
    · rw [unmatched allowed] at matched
      cases matched
    · exact own_tunnel_of_authorised traceable matched (all [] ticket now_unix server.log handed)
  | issueRelayTicket peer request now_unix clock => trivial
  | releaseRelayTicket peer request now_unix => trivial
  | disconnect client => trivial

end Authorisation

/-- In every run, all sources handed to the broker hold a live ticket issued for their tunnel
    exactly if every presented ticket that finds an outstanding one names the same tunnel. -/
theorem relay_ticket_binds_tunnel_iff (config : RelayConfig)
    (fresh : Function.Injective config.newSessionId) (calls : List RelayCall) :
    (∀ done, done <+: calls →
        AllAuthorised (runAll (RelayCall.serve config) RelayServer.start done).log) ↔
      AllSteps (RelayCall.serve config) (PresentsOwnTunnel config) RelayServer.start calls := by
  have rule := @allSteps_iff _ _ (RelayCall.serve config) (PresentsOwnTunnel config)
    (fun server => AllAuthorised server.log)
    (fun server => Traceable config server ∧ AllAuthorised server.log)
    (fun server call own holds =>
      ⟨traceable_serve fresh holds.1 call, serve_authorised holds.1 holds.2 call own⟩)
    (fun _ holds => holds.2)
    (fun server call holds foreign => serve_unauthorised holds.1 call foreign)
  apply rule calls RelayServer.start
  refine ⟨traceable_start, ?_⟩
  intro after _ _ before split
  cases after <;> cases split

/-- Altered or not, a ticket is consumed only for one that was issued to the same client under the
    same session id and is neither expired nor used nor released. -/
theorem consumed_ticket_was_live (config : RelayConfig)
    (fresh : Function.Injective config.newSessionId) (calls : List RelayCall) :
    let server := runAll (RelayCall.serve config) RelayServer.start calls
    ∀ presented now_unix client, (consume server.tickets presented now_unix).1 = .ok client →
      ∃ ticket, ticket.sessionId = presented.sessionId ∧ ticket.clusterId = presented.clusterId ∧
        ticket.source = presented.source ∧ Authorised server.log ticket now_unix := by
  intro server presented now_unix _ consumed
  have traceable : Traceable config server := run_keeps (Traceable config)
    (fun _ call holds => traceable_serve fresh holds call) calls _ traceable_start
  rcases consume_cases _ presented now_unix with
    ⟨_, refused, _⟩ | ⟨entry, _, _, matched, _⟩
  · rw [refused] at consumed
    cases consumed
  · have member := List.mem_of_find?_eq_some matched
    rw [outstandingOf_prune, liveTickets, List.mem_filter] at member
    have client := (traceable.listed _ entry member.1).2
    have named : entry.sessionId = presented.sessionId := by simpa using List.find?_some matched
    have itself : matchedTicket server.tickets entry now_unix = some entry := by
      rwa [matchedTicket, named, ← client]
    simp only [RelayTicketClientKey.mk.injEq] at client
    exact ⟨entry, named, client.1.symm, client.2.symm,
      authorised_of_matched traceable itself ⟨rfl, rfl, rfl⟩⟩

section Relayed

def relayConfig : RelayConfig where
  mtlsEnabled := true
  publicUrl := "https://a.example"
  relayPublicUrls := ["https://a.example"]
  maxAllocationsPerClient := 4
  maxIssuesPerMinute := 10
  newSessionId := fun n => String.ofList (List.replicate (n + 1) '7')

theorem relayConfig_fresh : Function.Injective relayConfig.newSessionId := by
  intro a b same
  have lengths := congrArg (fun text => text.toList.length) same
  simpa [relayConfig] using lengths

def phone : AuthenticatedPeer := ⟨.device 5, some 1⟩

def ticketRequest : RelayTicketRequest :=
  ⟨1, .device 5, .node 2, .multiplexTransport, .innerMtls, none⟩

def issuedTicket : RelayTicket :=
  ⟨1, "7", .device 5, .node 2, .multiplexTransport, .innerMtls, ["https://a.example"], 100, 400⟩

theorem issued_ticket_opens_own_tunnel :
    AllAuthorised (runAll (RelayCall.serve relayConfig) RelayServer.start
      [.issueRelayTicket (some phone) ticketRequest 100 100,
        .connectSource (some phone) issuedTicket 110 110]).log := by
  apply (relay_ticket_binds_tunnel_iff relayConfig relayConfig_fresh _).mpr ?_ _ List.prefix_rfl
  refine ⟨trivial, fun _ entry matched => ?_, trivial⟩
  have found : matchedTicket ((RelayCall.issueRelayTicket (some phone) ticketRequest 100 100).serve
      relayConfig RelayServer.start).tickets issuedTicket 110 = some issuedTicket := by
    decide +kernel
  rw [found] at matched
  cases matched
  exact ⟨rfl, rfl, rfl⟩

/-- The ticket for one node, presented with another target and without the inner encryption,
    queues a source for that other target. -/
def alteredTicket : RelayTicket :=
  { issuedTicket with target := .node 3, securityMode := .legacyPlaintext }

theorem altered_ticket_opens_other_tunnel :
    (runAll (RelayCall.serve relayConfig) RelayServer.start
        [.issueRelayTicket (some phone) ticketRequest 100 100,
          .connectSource (some phone) alteredTicket 110 110]).log =
        [.handedToBroker alteredTicket 110, .issued issuedTicket] ∧
      (runAll (RelayCall.serve relayConfig) RelayServer.start
        [.issueRelayTicket (some phone) ticketRequest 100 100,
          .connectSource (some phone) alteredTicket 110 110]).sources =
        [⟨1, "7", .device 5, .node 3, .multiplexTransport, .legacyPlaintext⟩] ∧
      ¬Authorised [.issued issuedTicket] alteredTicket 110 := by
  refine ⟨by decide +kernel, by decide +kernel, ?_⟩
  rintro ⟨ticket, issued, same, _⟩
  cases List.mem_singleton.mp issued
  exact absurd same.2.2.2.1 (by decide)

theorem altered_ticket_was_live :
    ∃ ticket, ticket.sessionId = "7" ∧ ticket.clusterId = 1 ∧ ticket.source = .device 5 ∧
      Authorised [.issued issuedTicket] ticket 110 :=
  consumed_ticket_was_live relayConfig relayConfig_fresh
    [.issueRelayTicket (some phone) ticketRequest 100 100] alteredTicket 110 ⟨1, .device 5⟩
    (by decide +kernel)

end Relayed

end BerryKeepRelayTickets
