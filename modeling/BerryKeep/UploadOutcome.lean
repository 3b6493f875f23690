import BerryKeep.UploadSessions

/-!
What upload sessions promise. Each section of a request does to the upload it
works on what the one-upload machine allows and leaves every other upload
alone, so in any interleaving a session makes at most one object, of the bytes
that were uploaded for it.
-/
namespace BerryKeepUploadSessions
open FiniteTable TextOperations StatefulProgram BerryKeepContentCodec BerryKeepStoragePool
  BerryKeepStorageRelocation BerryKeepNodeStore BerryKeepStoreOperations BerryKeepStoreCalls
  BerryKeepContentCleanup BerryKeepUploadAssembly

section Sections
variable {codec : Codec} {sessions after : UploadSessionStore} {upload_id u : String}
  {device : Option String} {session : UploadSessionRecord} {now : Nat}

theorem get_pruned (sessions : UploadSessionStore) (now : Nat) (u : String) :
    (pruneExpiredUploadSessions sessions now).get u = (sessions.get u).filter fun session =>
      decide (now < session.expiresAtUnix) := by
  unfold pruneExpiredUploadSessions
  rw [get_retain]

theorem pruned_row (found : (pruneExpiredUploadSessions sessions now).get u = some session) :
    sessions.get u = some session := by
  rw [get_pruned, Option.filter_eq_some_iff] at found
  exact found.1

theorem pruned_or (sessions : UploadSessionStore) (now : Nat) (u : String) :
    (pruneExpiredUploadSessions sessions now).get u = sessions.get u ∨
      (pruneExpiredUploadSessions sessions now).get u = none := by
  cases found : (pruneExpiredUploadSessions sessions now).get u with
  | none => exact .inr rfl
  | some session => exact .inl (pruned_row found).symm

theorem sessionFor_ok (passed : sessionFor sessions upload_id device = .ok session) :
    sessions.get upload_id = some session := by
  unfold sessionFor at passed
  split at passed
  · cases passed
  · next found =>
    split at passed
    · cases passed
      exact found
    · cases passed

theorem chunkSession_ok (passed : chunkSession sessions upload_id device = .ok session) :
    sessions.get upload_id = some session ∧ session.finalizing = false ∧
      session.completed = false := by
  obtain ⟨found, first, passed⟩ := except_bind_ok passed
  split at passed
  · cases passed
  · next open_session =>
    split at passed
    · cases passed
    · cases passed
      simp only [Bool.or_eq_true, not_or, Bool.not_eq_true] at open_session
      exact ⟨sessionFor_ok first, open_session.2, open_session.1⟩

theorem commitChunk_ok {index : Nat} {next_ref : UploadChunkRef}
    (passed : commitChunk sessions upload_id index device next_ref now = .ok after) :
    ∃ session, sessions.get upload_id = some session ∧ session.finalizing = false ∧
      session.completed = false ∧
      (∀ existing, session.receivedChunks[index]? = some (some existing) → existing = next_ref) ∧
      after = sessions.put upload_id (session.withChunk index next_ref now) := by
  obtain ⟨session, first, passed⟩ := except_bind_ok passed
  obtain ⟨found, unmarked, unfinished⟩ := chunkSession_ok first
  split at passed
  · cases passed
  · next fits =>
    cases passed
    refine ⟨session, found, unmarked, unfinished, fun existing stored => ?_, rfl⟩
    simpa [stored] using fits

theorem prepareComplete_locks {plan : FinalizePlan}
    (locked : prepareComplete sessions upload_id device now = .inr (plan, after)) :
    ∃ session, sessions.get upload_id = some session ∧ session.finalizing = false ∧
      (session.completed = true → session.completedResult = none) ∧
      session.receivedChunks.any Option.isNone = false ∧ plan = session.finalizePlan ∧
      after = sessions.put upload_id (session.marked now) := by
  unfold prepareComplete at locked
  split at locked
  · cases locked
  · next session found =>
    split at locked
    · cases locked
    · next unfinished =>
      split at locked
      · cases locked
      · next ready =>
        split at locked
        · cases locked
        · cases locked
          simp only [Bool.or_eq_true, not_or, Bool.not_eq_true] at ready
          refine ⟨session, sessionFor_ok found, ready.1, fun done => ?_, ready.2, rfl, rfl⟩
          rwa [if_pos done] at unfinished

theorem deleteSession_ok (passed : deleteSession sessions upload_id device = .ok after) :
    after = sessions.del upload_id := by
  obtain ⟨session, _, passed⟩ := except_bind_ok passed
  split at passed
  · cases passed
  · cases passed
    rfl

theorem get_update (change : UploadSessionRecord → UploadSessionRecord) :
    (sessions.update upload_id change).get u =
      if u = upload_id then (sessions.get u).map change else sessions.get u := by
  unfold UploadSessionStore.update
  by_cases same : u = upload_id
  · subst same
    cases found : sessions.get u with
    | none => simp [found]
    | some session => simp
  · cases sessions.get upload_id with
    | none => simp [same]
    | some session => simp [same, get_put_other]

theorem finalizeInStore_ok {plan : FinalizePlan} {s t : Store} {key : String} {outcome : PutResult}
    (done : finalizeInStore codec plan s = (.ok (key, outcome), t)) :
    outcome.manifestHash =
      hashHex codec (codec.encodeManifest ⟨key, plan.totalSizeBytes, plan.chunkRefs⟩) ∧
    ∃ chunks, readChunks t.content plan.chunkRefs = some chunks ∧
      chunks.map (chunkRefOf codec) = plan.chunkRefs := by
  unfold finalizeInStore at done
  split at done
  · cases done
  · next key' _ =>
    split at done
    · cases done
    · have stored := @putObjectFromChunks_stored codec key' plan.totalSizeBytes
        plan.chunkRefs ⟨plan.parentVersionIds, plan.state, true, true, plan.explicitVersionId⟩ s
      unfold Ensures at stored
      split at done
      · cases done
      · next put =>
        cases done
        rw [put] at stored
        exact stored outcome rfl

theorem planStart_agrees {st : ContentStore} {request : UploadSessionStartRequest}
    {plan : StartPlan} (planned : planStart codec st request = some plan) :
    Agrees codec request [] plan.receivedChunks := by
  unfold planStart at planned
  split at planned
  · cases planned
  · split at planned
    · cases planned
    · split at planned
      · cases planned
      · next counted =>
        split at planned
        · cases planned
        · next sizes =>
          split at planned
          · cases planned
            constructor
            · simp
            · intro i ref found
              simp [List.getElem?_replicate] at found
            · intro i ref found
              simp [List.getElem?_replicate] at found
            · intro a member
              cases member
          · next some_named =>
            split at planned
            · cases planned
            · next received available =>
              cases planned
              obtain ⟨length, named⟩ := availableUploadChunkRefs_named available
              have all_sized := not_not.mp sizes
              constructor
              · rw [length]
                by_contra other
                exact counted ⟨some_named, other⟩
              · intro i ref found
                exact all_sized (ref, i) (List.mk_mem_zipIdx_iff_getElem?.mpr (named i ref found))
              · intro i ref found
                exact .inr (named i ref found)
              · intro a member
                cases member

end Sections

section Server
variable {codec : Codec} {server after : UploadServer} {id now : Nat} {upload_id u : String}
  {call : CallState}

def CallState.Checked (codec : Codec) (started : Table String UploadSessionStartRequest) :
    CallState → Prop
  | .starting _ request plan => Agrees codec request [] plan.receivedChunks
  | .ingesting upload_id index payload _ => ∃ request, started.get upload_id = some request ∧
    request.expectedSize index = some payload.length
  | .committing upload_id index payload _ hash _ => hash = hashHex codec payload ∧
    ∃ request, started.get upload_id = some request ∧
      request.expectedSize index = some payload.length
  | _ => True

structure Sound (codec : Codec) (server : UploadServer) : Prop where
  uploads : ∀ upload_id, UploadOk codec (server.upload upload_id)
  checked : ∀ id call, server.calls.get id = some call → call.Checked codec server.started

theorem new_sound (store : Store) : Sound codec (UploadServer.new store) where
  uploads upload_id := by
    constructor
    · exact fun _ => ⟨rfl, rfl, rfl, fun _ => rfl⟩
    · intro session found
      cases found
    · intro id other held held' found
      cases found
    · intro id held session found
      cases found
    · intro id plan found
      cases found
    · exact .inl rfl
    · intro id held found
      cases found
    · intro session found
      cases found
  checked id call found := by cases found

theorem Checked.mono {started later : Table String UploadSessionStartRequest}
    (grows : ∀ u request, started.get u = some request → later.get u = some request)
    (checked : call.Checked codec started) : call.Checked codec later := by
  cases call with
  | ingesting upload_id index payload device =>
    obtain ⟨request, begun, sized⟩ := checked
    exact ⟨request, grows _ _ begun, sized⟩
  | committing upload_id index payload device hash stored =>
    obtain ⟨same, request, begun, sized⟩ := checked
    exact ⟨same, request, grows _ _ begun, sized⟩
  | starting device request plan => exact checked
  | _ => trivial

theorem sound_setCall (sound : Sound codec server) (calls : after.calls = server.calls)
    (grows : ∀ u request, server.started.get u = some request → after.started.get u = some request)
    (moves : ∀ u, Moves codec (server.upload u) ((after.setCall id call).upload u))
    (checked : call.Checked codec after.started) : Sound codec (after.setCall id call) where
  uploads u := moves_ok (sound.uploads u) (moves u)
  checked other state found := by
    change (after.calls.put id call).get other = some state at found
    rw [get_put] at found
    split at found
    · cases found
      exact checked
    · rw [calls] at found
      exact Checked.mono grows (sound.checked other state found)

theorem upload_setCall (server : UploadServer) (id : Nat) (call : CallState) (u : String) :
    (server.setCall id call).upload u =
      { server.upload u with
        held := Function.update (server.upload u).held id (call.held u) } := by
  have held : (fun other => ((server.calls.put id call).get other).bind (CallState.held u)) =
      Function.update (fun other => (server.calls.get other).bind (CallState.held u)) id
        (call.held u) := by
    funext other
    rw [get_put]
    by_cases same : other = id
    · subst same
      simp
    · rw [if_neg same, Function.update_of_ne same]
  unfold UploadServer.upload UploadServer.setCall
  rw [held]
  rfl

theorem held_ne {v : Upload} {other : Nat} {held : Held} (found : Function.update v.held id none other = some held) :
    v.held other = some held := by
  rcases held_update found with ⟨_, none⟩ | ⟨_, before⟩
  · cases none
  · exact before

theorem quiet_setCall (calls : after.calls = server.calls)
    (started : after.started.get u = server.started.get u)
    (session : after.sessions.get u = server.sessions.get u ∨ after.sessions.get u = none)
    (accepted : (after.upload u).accepted = (server.upload u).accepted)
    (created : after.createdFor u = server.createdFor u) (free : call.held u = none) :
    Moves codec (server.upload u) ((after.setCall id call).upload u) := by
  rw [upload_setCall, free]
  refine .quiet started session accepted created fun other held found => ?_
  have before := held_ne found
  unfold UploadServer.upload at before ⊢
  rwa [calls] at before

theorem sound_quiet (sound : Sound codec server) (calls : after.calls = server.calls)
    (started : after.started = server.started) (accepted : after.accepted = server.accepted)
    (created : after.created = server.created)
    (session : ∀ u, after.sessions.get u = server.sessions.get u ∨ after.sessions.get u = none)
    (free : ∀ u, call.held u = none) (checked : call.Checked codec server.started) :
    Sound codec (after.setCall id call) := by
  refine sound_setCall sound calls (fun u request found => by rw [started]; exact found)
    (fun u => ?_) (by rw [started]; exact checked)
  refine quiet_setCall calls (by rw [started]) (session u) ?_ ?_ (free u)
  · unfold UploadServer.upload
    rw [accepted]
  · unfold UploadServer.createdFor
    rw [created]

theorem pruned_session (server : UploadServer) (now : Nat) (u : String) :
    (server.pruned now).sessions.get u = server.sessions.get u ∨
      (server.pruned now).sessions.get u = none :=
  pruned_or server.sessions now u

theorem pruned_put (other : u ≠ upload_id) (session : UploadSessionRecord) :
    ((server.pruned now).sessions.put upload_id session).get u = server.sessions.get u ∨
      ((server.pruned now).sessions.put upload_id session).get u = none := by
  rw [get_put_other _ session other]
  exact pruned_session server now u

theorem sound_answer (sound : Sound codec server) (now id : Nat) (answer : Answer) :
    Sound codec ((server.pruned now).answer id answer) :=
  sound_quiet sound rfl rfl rfl rfl (pruned_session server now) (fun _ => rfl) trivial

theorem sound_pruned (sound : Sound codec server) (now : Nat) : Sound codec (server.pruned now) where
  uploads u := ok_quiet (sound.uploads u) rfl (pruned_session server now u) rfl rfl fun _ _ found => found
  checked := sound.checked

end Server

section Steps
variable {codec : Codec} {server after : UploadServer} {id now : Nat} {upload_id u : String}
  {call : CallState}

theorem moves_setCall {w : Upload} (moves : Moves codec (server.upload u) w)
    (calls : after.calls = server.calls) (started : after.started.get u = w.started)
    (session : after.sessions.get u = w.session) (accepted : (after.upload u).accepted = w.accepted)
    (created : after.createdFor u = w.created)
    (held : Function.update (server.upload u).held id (call.held u) = w.held) :
    Moves codec (server.upload u) ((after.setCall id call).upload u) := by
  have result : (after.setCall id call).upload u = w := by
    rw [upload_setCall]
    obtain ⟨_, _, _, _, _⟩ := w
    unfold UploadServer.upload at accepted held ⊢
    simp only [calls] at accepted held ⊢
    rw [started, session, accepted, created, held]
  rw [result]
  exact moves

theorem held_same {before : CallState} (here : server.calls.get id = some before)
    (unheld : before.held u = none) (free : call.held u = none) :
    Function.update (server.upload u).held id (call.held u) = (server.upload u).held := by
  rw [Function.update_eq_self_iff, free]
  unfold UploadServer.upload
  simp [here, unheld]

theorem start_sound (sound : Sound codec server) (id : Nat) (device : Option String)
    (request : UploadSessionStartRequest) :
    Sound codec (exec codec (.start id device request) server) := by
  simp only [exec]
  split
  · exact sound
  · split
    · exact sound_quiet sound rfl rfl rfl rfl (fun _ => .inl rfl) (fun _ => rfl) trivial
    · next planned =>
      exact sound_quiet sound rfl rfl rfl rfl (fun _ => .inl rfl) (fun _ => rfl)
        (planStart_agrees planned)

theorem startInsert_sound (sound : Sound codec server) (id now : Nat)
    (fresh : server.started.get upload_id = none) :
    Sound codec (exec codec (.startInsert id upload_id now) server) := by
  simp only [exec]
  split
  case h_2 => exact sound
  next device request plan here =>
  refine sound_setCall sound rfl (fun u other found => ?_) (fun u => ?_) trivial
  · refine (get_put_other server.started request fun same => ?_).trans found
    rw [same, fresh] at found
    cases found
  · by_cases same : u = upload_id
    · subst same
      exact moves_setCall (@Moves.start _ _ _ (newSession u device request plan now) fresh
          ⟨rfl, rfl, rfl⟩ (sound.checked id _ here) rfl)
        rfl (get_put_self _ _ _) (get_put_self _ _ _) rfl rfl (held_same here rfl rfl)
    · exact quiet_setCall rfl (get_put_other _ _ same) (pruned_put same _) rfl rfl rfl

theorem chunkPreflight_sound (sound : Sound codec server) (id : Nat) (upload_id : String)
    (index : Nat) (payload : Bytes) (device : Option String) (now : Nat) :
    Sound codec (exec codec (.chunkPreflight id upload_id index payload device now) server) := by
  simp only [exec]
  split
  · exact sound
  split
  · exact sound_answer sound now id _
  · next session passed =>
    split
    · next sized =>
      refine sound_quiet sound rfl rfl rfl rfl (pruned_session server now) (fun _ => rfl) ?_
      have found := pruned_row (chunkSession_ok passed).1
      obtain ⟨request, begun, of, _⟩ := (sound.uploads upload_id).session session found
      rw [of.total, of.size, of.count] at sized
      exact ⟨request, begun, sized⟩
    · exact sound_answer sound now id _

theorem ingestChunkAuto_hash {payload : Bytes} {s t : Store} {hash : String} {stored : Bool}
    (done : (ingestChunkAuto codec payload).run s = (.ok (hash, stored), t)) :
    hash = hashHex codec payload := by
  have returns : Returns (fun result : String × Bool => result.1 = hashHex codec payload)
      (ingestChunkAuto codec payload) := returns_bind fun _ => returns_pure rfl
  exact returns s (hash, stored) (by rw [done])

theorem chunkIngest_sound (sound : Sound codec server) (id : Nat) :
    Sound codec (exec codec (.chunkIngest id) server) := by
  simp only [exec]
  split
  case h_2 => exact sound
  next upload_id index payload device here =>
  split
  · exact sound_quiet sound rfl rfl rfl rfl (fun _ => .inl rfl) (fun _ => rfl) trivial
  · next ingested =>
    refine sound_quiet sound rfl rfl rfl rfl (fun _ => .inl rfl) (fun _ => rfl) ?_
    exact ⟨ingestChunkAuto_hash ingested, sound.checked id _ here⟩

theorem chunkCommit_sound (sound : Sound codec server) (id now : Nat) :
    Sound codec (exec codec (.chunkCommit id now) server) := by
  simp only [exec]
  split
  case h_2 => exact sound
  next upload_id index payload device hash stored here =>
  obtain ⟨rfl, request, begun, sized⟩ := sound.checked id _ here
  split
  · exact sound_answer sound now id _
  · next sessions committed =>
    obtain ⟨session, found, unmarked, unfinished, fits, rfl⟩ := commitChunk_ok committed
    refine sound_setCall sound rfl (fun _ _ found => found) (fun u => ?_) trivial
    by_cases same : u = upload_id
    · subst same
      refine moves_setCall (.accept (a := ⟨u, index, payload⟩) now (pruned_row found) unmarked
          unfinished (fun other started => ?_) fits)
        rfl rfl (get_put_self _ _ _) ?_ rfl (held_same here rfl rfl)
      · have one : some request = some other := begun.symm.trans started
        cases one
        exact sized
      · change List.filter _ (server.accepted ++ [⟨u, index, payload⟩]) = _
        rw [List.filter_append, List.filter_singleton]
        simp [UploadServer.upload]
    · refine quiet_setCall rfl rfl (pruned_put same _) ?_ rfl rfl
      change List.filter _ (server.accepted ++ [⟨upload_id, index, payload⟩]) = _
      rw [List.filter_append, List.filter_singleton]
      simp [UploadServer.upload, Ne.symm same]

theorem held_storing {plan : FinalizePlan} (here : server.calls.get id = some (.storing u plan)) :
    (server.upload u).held id = some (.storing plan) := by
  simp [UploadServer.upload, here, CallState.held]

theorem completePrepare_sound (sound : Sound codec server) (id : Nat) (upload_id : String)
    (device : Option String) (now : Nat) :
    Sound codec (exec codec (.completePrepare id upload_id device now) server) := by
  simp only [exec]
  split
  · exact sound
  split
  · exact sound_answer sound now id _
  · next plan sessions locked =>
    obtain ⟨session, found, unmarked, unfinished, full, rfl, rfl⟩ := prepareComplete_locks locked
    refine sound_setCall sound rfl (fun _ _ found => found) (fun u => ?_) trivial
    by_cases same : u = upload_id
    · subst same
      refine moves_setCall (.lock id now (pruned_row found) unmarked unfinished full)
        rfl rfl (get_put_self _ _ _) rfl rfl ?_
      simp [CallState.held]
    · exact quiet_setCall rfl rfl (pruned_put same _) rfl rfl (if_neg (Ne.symm same))

theorem completeStore_sound (sound : Sound codec server) (id : Nat) :
    Sound codec (exec codec (.completeStore id) server) := by
  simp only [exec]
  split
  case h_2 => exact sound
  next upload_id plan here =>
  split
  · next status store _ =>
    refine sound_setCall sound rfl (fun _ _ found => found) (fun u => ?_) trivial
    by_cases same : u = upload_id
    · subst same
      refine moves_setCall (.fail (held_storing here)) rfl rfl rfl rfl rfl ?_
      simp [CallState.held]
    · exact quiet_setCall rfl rfl (.inl rfl) rfl rfl (if_neg (Ne.symm same))
  · next key outcome store stored =>
    obtain ⟨manifest, chunks, reads, refs⟩ := finalizeInStore_ok stored
    refine sound_setCall sound rfl (fun _ _ found => found) (fun u => ?_) trivial
    by_cases same : u = upload_id
    · subst same
      refine moves_setCall (.create (c := ⟨u, key, plan.chunkRefs,
          completeResponse outcome plan.totalSizeBytes, readChunks store.content plan.chunkRefs⟩)
        (held_storing here) rfl manifest ⟨chunks, reads, refs⟩) rfl rfl rfl rfl ?_ ?_
      · change List.filter _ (server.created ++ [_]) = _
        rw [List.filter_append, List.filter_singleton]
        simp [UploadServer.upload, UploadServer.createdFor]
      · simp [CallState.held]
    · refine quiet_setCall rfl rfl (.inl rfl) rfl ?_ (if_neg (Ne.symm same))
      change List.filter _ (server.created ++ [_]) = _
      rw [List.filter_append, List.filter_singleton]
      simp [UploadServer.createdFor, Ne.symm same]

theorem completeReset_sound (sound : Sound codec server) (id now : Nat) :
    Sound codec (exec codec (.completeReset id now) server) := by
  simp only [exec]
  split
  case h_2 => exact sound
  next upload_id status here =>
  refine sound_setCall sound rfl (fun _ _ found => found) (fun u => ?_) trivial
  by_cases same : u = upload_id
  · subst same
    have held : (server.upload u).held id = some .resetting := by
      simp [UploadServer.upload, here, CallState.held]
    exact moves_setCall (.reset now held) rfl rfl ((get_update _).trans (if_pos rfl)) rfl rfl rfl
  · exact quiet_setCall rfl rfl (.inl ((get_update _).trans (if_neg same))) rfl rfl rfl

theorem completeFinish_sound (sound : Sound codec server) (id now : Nat) :
    Sound codec (exec codec (.completeFinish id now) server) := by
  simp only [exec]
  split
  case h_2 => exact sound
  next upload_id response here =>
  refine sound_setCall sound rfl (fun _ _ found => found) (fun u => ?_) trivial
  by_cases same : u = upload_id
  · subst same
    have held : (server.upload u).held id = some (.finishing response) := by
      simp [UploadServer.upload, here, CallState.held]
    exact moves_setCall (.finish now held) rfl rfl ((get_update _).trans (if_pos rfl)) rfl rfl rfl
  · exact quiet_setCall rfl rfl (.inl ((get_update _).trans (if_neg same))) rfl rfl rfl

theorem delete_sound (sound : Sound codec server) (id : Nat) (upload_id : String)
    (device : Option String) (now : Nat) :
    Sound codec (exec codec (.delete id upload_id device now) server) := by
  simp only [exec]
  split
  · exact sound
  split
  · exact sound_answer sound now id _
  · next sessions deleted =>
    rw [deleteSession_ok deleted]
    refine sound_quiet sound rfl rfl rfl rfl (fun u => ?_) (fun _ => rfl) trivial
    have row : ((server.pruned now).sessions.del upload_id).get u =
        if u = upload_id then none else (server.pruned now).sessions.get u := get_del _ _ _
    by_cases same : u = upload_id
    · exact .inr (row.trans (if_pos same))
    · exact (pruned_session server now u).imp (row.trans (if_neg same)).trans
        (row.trans (if_neg same)).trans

theorem cancel_sound (sound : Sound codec server) (id : Nat) :
    Sound codec (exec codec (.cancel id) server) := by
  simp only [exec]
  split
  · exact sound
  · exact sound
  · exact sound_quiet sound rfl rfl rfl rfl (fun _ => .inl rfl) (fun _ => rfl) trivial

theorem exec_sound (step : Step) (fresh : FreshUploads server step) (sound : Sound codec server) :
    Sound codec (exec codec step server) := by
  cases step with
  | start id device request => exact start_sound sound id device request
  | startInsert id upload_id now => exact startInsert_sound sound id now fresh
  | chunkPreflight id upload_id index payload device now =>
    exact chunkPreflight_sound sound id upload_id index payload device now
  | chunkIngest id => exact chunkIngest_sound sound id
  | chunkCommit id now => exact chunkCommit_sound sound id now
  | completePrepare id upload_id device now =>
    exact completePrepare_sound sound id upload_id device now
  | completeStore id => exact completeStore_sound sound id
  | completeReset id now => exact completeReset_sound sound id now
  | completeFinish id now => exact completeFinish_sound sound id now
  | delete id upload_id device now => exact delete_sound sound id upload_id device now
  | prune now => exact sound_pruned sound now
  | outside store => exact ⟨sound.uploads, sound.checked⟩
  | cancel id => exact cancel_sound sound id

end Steps

section Uploads

def UploadServer.occurring (server : UploadServer) : List Bytes :=
  (server.accepted.map fun a => a.payload) ++ server.created.flatMap fun c => c.chunks.getD []

def CollisionFree (codec : Codec) (payloads : List Bytes) : Prop :=
  ∀ x ∈ payloads, ∀ y ∈ payloads, hashHex codec x = hashHex codec y → x = y

/-- The chunk at an index of the object is the payload of every request for the index that was
    answered with OK; without such a request it is the chunk that the start request named. -/
def ChunkFrom (codec : Codec) (server : UploadServer) (request : UploadSessionStartRequest)
    (upload_id : String) (index : Nat) (chunk : Bytes) : Prop :=
  (∀ a ∈ server.accepted, a.uploadId = upload_id → a.index = index → a.payload = chunk) ∧
  ((∃ a ∈ server.accepted, a.uploadId = upload_id ∧ a.index = index) ∨
    request.chunkRefs[index]? = some (chunkRefOf codec chunk))

structure UploadsSound (codec : Codec) (server : UploadServer) : Prop where
  one_object : ∀ upload_id, (server.createdFor upload_id).length ≤ 1
  all_chunks : ∀ c ∈ server.created, ∃ request, server.started.get c.uploadId = some request ∧
    c.chunkRefs.length = request.chunkCount ∧
    (∀ (i : Nat) (ref : UploadChunkRef), c.chunkRefs[i]? = some ref →
      request.expectedSize i = some ref.sizeBytes) ∧
    (c.chunkRefs.map fun ref => ref.sizeBytes).sum = request.totalSizeBytes ∧
    (∀ session, server.sessions.get c.uploadId = some session →
      session.receivedChunks = c.chunkRefs.map some) ∧
    c.response.manifestHash =
      hashHex codec (codec.encodeManifest ⟨c.key, request.totalSizeBytes, c.chunkRefs⟩)
  content : CollisionFree codec server.occurring → ∀ c ∈ server.created,
    ∃ (request : UploadSessionStartRequest) (chunks : List Bytes),
      server.started.get c.uploadId = some request ∧ c.content = some chunks.flatten ∧
      chunks.length = request.chunkCount ∧ ∀ (i : Nat) (chunk : Bytes), chunks[i]? = some chunk →
        ChunkFrom codec server request c.uploadId i chunk
  replayed : ∀ c ∈ server.created, ∀ session, server.sessions.get c.uploadId = some session →
    session.finalizing = false → ∀ id device now, server.calls.get id = none →
    session.ownedBy device = true → now < session.expiresAtUnix →
    (exec codec (.completePrepare id c.uploadId device now) server).answerOf id =
      some (.complete c.response)

variable {codec : Codec} {server : UploadServer}

variable {c : CreatedObject}

theorem Sound.only (sound : Sound codec server) (member : c ∈ server.created) :
    server.createdFor c.uploadId = [c] ∧ ∃ request,
      server.started.get c.uploadId = some request ∧
      Built codec request (server.upload c.uploadId).accepted c ∧
      ∀ session, server.sessions.get c.uploadId = some session →
        session.receivedChunks = c.chunkRefs.map some ∧
          (session.finalizing = true ∨ session.completed = true) := by
  have listed : c ∈ server.createdFor c.uploadId := List.mem_filter.mpr ⟨member, by simp⟩
  rcases (sound.uploads c.uploadId).created with none | ⟨d, request, one, begun, built, rows⟩
  · change server.createdFor c.uploadId = [] at none
    rw [none] at listed
    cases listed
  · change server.createdFor c.uploadId = [d] at one
    rw [one] at listed
    cases List.mem_singleton.mp listed
    exact ⟨one, request, begun, built, rows⟩

theorem built_sizes {request : UploadSessionStartRequest} {accepted : List AcceptedChunk}
    (built : Built codec request accepted c) :
    c.chunkRefs.length = request.chunkCount ∧
    (∀ (i : Nat) (ref : UploadChunkRef), c.chunkRefs[i]? = some ref →
      request.expectedSize i = some ref.sizeBytes) ∧
    (c.chunkRefs.map fun ref => ref.sizeBytes).sum = request.totalSizeBytes := by
  have length : c.chunkRefs.length = request.chunkCount := by
    have same := built.agrees.length
    rwa [List.length_map] at same
  have sized : ∀ (i : Nat) (ref : UploadChunkRef), c.chunkRefs[i]? = some ref →
      request.expectedSize i = some ref.sizeBytes := by
    intro i ref found
    exact built.agrees.sized i ref (by simp [found])
  refine ⟨length, sized, expected_sizes_sum ((List.length_map _).trans length) ?_⟩
  intro i size found
  rw [List.getElem?_map, Option.map_eq_some_iff] at found
  obtain ⟨ref, found, rfl⟩ := found
  exact sized i ref found

theorem Built.chunkFrom {request : UploadSessionStartRequest}
    {chunks : List Bytes} (built : Built codec request (server.upload c.uploadId).accepted c)
    (free : CollisionFree codec server.occurring) (member : c ∈ server.created)
    (read : c.chunks = some chunks) (refs : chunks.map (chunkRefOf codec) = c.chunkRefs) {i : Nat}
    {chunk : Bytes} (found : chunks[i]? = some chunk) :
    ChunkFrom codec server request c.uploadId i chunk := by
  have listed : (c.chunkRefs.map some)[i]? = some (some (chunkRefOf codec chunk)) := by
    rw [← refs]
    simp [found]
  have occurs : chunk ∈ server.occurring := by
    refine List.mem_append_right _ (List.mem_flatMap.mpr ⟨c, member, ?_⟩)
    rw [read]
    exact List.mem_of_getElem? found
  constructor
  · intro a accepted same index
    have kept := built.agrees.kept a (List.mem_filter.mpr ⟨accepted, by simpa using same⟩)
    rw [index, listed] at kept
    have hashes : hashHex codec chunk = hashHex codec a.payload :=
      congrArg ChunkRef.hash (Option.some.inj (Option.some.inj kept))
    exact (free chunk occurs a.payload (List.mem_append_left _ (List.mem_map_of_mem accepted))
      hashes).symm
  · rcases built.agrees.sourced i _ listed with ⟨a, accepted, index, _⟩ | named
    · obtain ⟨accepted, same⟩ := List.mem_filter.mp accepted
      exact .inl ⟨a, accepted, by simpa using same, index⟩
    · exact .inr named

theorem Sound.replayed (sound : Sound codec server) {session : UploadSessionRecord}
    {id now : Nat} {device : Option String} (member : c ∈ server.created)
    (found : server.sessions.get c.uploadId = some session) (unmarked : session.finalizing = false)
    (unused : server.calls.get id = none) (owner : session.ownedBy device = true)
    (unexpired : now < session.expiresAtUnix) :
    (exec codec (.completePrepare id c.uploadId device now) server).answerOf id =
      some (.complete c.response) := by
  obtain ⟨one, _, _, _, rows⟩ := sound.only member
  have done : session.completed = true := by
    rcases (rows session found).2 with marked | done
    · rw [unmarked] at marked; cases marked
    · exact done
  have result : session.completedResult = some c.response := by
    obtain ⟨d, single, recorded⟩ := (sound.uploads c.uploadId).completed session found done
    change server.createdFor c.uploadId = [d] at single
    rw [one] at single
    cases single
    exact recorded
  have kept : (server.pruned now).sessions.get c.uploadId = some session := by
    change (pruneExpiredUploadSessions server.sessions now).get c.uploadId = some session
    rw [get_pruned, found]
    simp [unexpired]
  have answer : prepareComplete (server.pruned now).sessions c.uploadId device now =
      .inl (.complete c.response) := by
    simp only [prepareComplete, sessionFor, kept, owner, done, result, if_true]
  have absent : server.calls.has id = false := by
    unfold Table.has
    rw [unused]
    rfl
  simp only [exec, absent, Bool.false_eq_true, if_false, answer]
  simp [UploadServer.answerOf, UploadServer.answer, UploadServer.setCall]

/-- Whatever the interleaving, a session makes at most one object, of exactly the bytes that
    were uploaded for it, and a repeated completion gets the same result. -/
theorem upload_creates_one_object (codec : Codec) (store : Store) (steps : List Step)
    (fresh : AllSteps (exec codec) FreshUploads (UploadServer.new store) steps) :
    UploadsSound codec (runAll (exec codec) (UploadServer.new store) steps) := by
  have sound : Sound codec (runAll (exec codec) (UploadServer.new store) steps) :=
    run_invariant (Sound codec) (fun server step allowed holds => exec_sound step allowed holds)
      steps _ fresh (new_sound store)
  constructor
  · intro upload_id
    rcases (sound.uploads upload_id).created with none | ⟨c, _, one, _⟩
    · exact le_of_eq_of_le (congrArg List.length none) (Nat.zero_le 1)
    · exact le_of_eq (congrArg List.length one)
  · intro c member
    obtain ⟨_, request, begun, built, rows⟩ := sound.only member
    obtain ⟨length, sized, sum⟩ := built_sizes built
    exact ⟨request, begun, length, sized, sum, fun session found => (rows session found).1,
      built.manifest⟩
  · intro free c member
    obtain ⟨_, request, begun, built, _⟩ := sound.only member
    obtain ⟨chunks, read, refs⟩ := built.reads
    refine ⟨request, chunks, begun, by simp [CreatedObject.content, read], ?_, ?_⟩
    · rw [← (built_sizes built).1, ← refs, List.length_map]
    · exact fun i chunk found => built.chunkFrom free member read refs found
  · intro c member session found unmarked id device now unused owner unexpired
    exact sound.replayed member found unmarked unused owner unexpired

/-- One request at a time completes an upload. Meanwhile the session is marked and keeps the
    chunks that the request stores. -/
structure CompletesAlone (v : Upload) : Prop where
  alone : ∀ id other held held', v.held id = some held → v.held other = some held' → id = other
  marked : ∀ id held session, v.held id = some held → v.session = some session →
    session.finalizing = true ∧ session.completed = false
  kept : ∀ id plan session, v.held id = some (.storing plan) → v.session = some session →
    session.receivedChunks = plan.chunkRefs.map some

theorem upload_completes_alone (codec : Codec) (store : Store) (steps : List Step)
    (fresh : AllSteps (exec codec) FreshUploads (UploadServer.new store) steps)
    (upload_id : String) :
    CompletesAlone ((runAll (exec codec) (UploadServer.new store) steps).upload upload_id) := by
  have ok := (run_invariant (Sound codec) (fun _ step allowed holds => exec_sound step allowed holds)
    steps _ fresh (new_sound store)).uploads upload_id
  refine ⟨ok.one_holder, ok.marked, fun id plan session storing found => ?_⟩
  obtain ⟨_, _, _, _, same⟩ := ok.planned id plan storing
  exact same session found

end Uploads

section Sample

def abcUploadCodec : Codec :=
  sampleCodec [([97, 98, 99], abcHash),
    (textBytes (prettyManifest abcManifest), abcManifestHash),
    (textBytes abcHash ++ [0] ++ textBytes "legacy-primary",
      "97d379029a95344af0c79c95589eed9183c791ece6f45c0a1d218b44bbfe3176"),
    (textBytes abcManifestHash ++ [0] ++ textBytes "legacy-primary",
      "05013a65b77a4120ca02a8d077b2f1b306dd0fd8f1a0296bd281553283feaf35")] [abcManifest]

def abcUpload : List Step :=
  [.start 0 (some "device-1") ⟨"a", 3, none, [], none, none, none, []⟩, .startInsert 0 "upload-1" 0,
    .chunkPreflight 1 "upload-1" 0 [97, 98, 99] (some "device-1") 1, .chunkIngest 1, .chunkCommit 1 2,
    .completePrepare 2 "upload-1" (some "device-1") 3, .completeStore 2, .completeFinish 2 4]

def abcRetry : List Step :=
  [.delete 3 "upload-1" (some "device-1") 5, .completePrepare 4 "upload-1" (some "device-1") 6]

def abcResponse : UploadSessionCompleteResponse where
  objectId := "obj-0"
  snapshotId := "snap-batch-1"
  versionId := "ver-0-fea26ca1a3e8"
  manifestHash := abcManifestHash
  state := .confirmed
  newChunks := 0
  dedupReusedChunks := 0
  createdNewVersion := true
  totalSizeBytes := 3

theorem abcUpload_run :
    let later := runAll (exec abcUploadCodec) (UploadServer.new emptyNode) (abcUpload ++ abcRetry)
    (later.created.map fun c => c.content) = [some [97, 98, 99]] ∧
      later.answerOf 2 = some (.complete abcResponse) ∧ later.answerOf 4 = some (.status 404) := by
  decide +kernel

theorem abcUpload_fresh :
    AllSteps (exec abcUploadCodec) FreshUploads (UploadServer.new emptyNode)
      (abcUpload ++ abcRetry) := by
  have started : ∀ (server : UploadServer) (id : Nat) (device : Option String)
      (request : UploadSessionStartRequest),
      (exec abcUploadCodec (.start id device request) server).started = server.started := by
    intro server id device request
    simp only [exec]
    split
    · rfl
    · split
      · rfl
      · rfl
  simp [AllSteps, abcUpload, abcRetry, FreshUploads, started, UploadServer.new]

theorem abc_uploaded_once :
    let later := runAll (exec abcUploadCodec) (UploadServer.new emptyNode) (abcUpload ++ abcRetry)
    UploadsSound abcUploadCodec later ∧
      (later.created.map fun c => c.content) = [some [97, 98, 99]] :=
  ⟨upload_creates_one_object abcUploadCodec emptyNode (abcUpload ++ abcRetry) abcUpload_fresh,
    abcUpload_run.1⟩

/-- The completion at second 3 succeeds and its session would live until second 86404; the same
    request at second 6 finds no session, since the owner has deleted it in between. -/
theorem deleted_session_forgets_result :
    let later := runAll (exec abcUploadCodec) (UploadServer.new emptyNode) (abcUpload ++ abcRetry)
    expiresAt 4 = 86404 ∧ later.answerOf 2 = some (.complete abcResponse) ∧
      later.answerOf 4 = some (.status 404) :=
  ⟨rfl, abcUpload_run.2⟩

theorem abc_completes_alone :
    let storing := runAll (exec abcUploadCodec) (UploadServer.new emptyNode) (abcUpload.take 6)
    CompletesAlone (storing.upload "upload-1") ∧ ((storing.upload "upload-1").held 2).isSome := by
  refine ⟨upload_completes_alone abcUploadCodec emptyNode _ ?_ "upload-1", by decide +kernel⟩
  exact ((allSteps_append _ (abcUpload.drop 6 ++ abcRetry) _).mp abcUpload_fresh).1

end Sample

end BerryKeepUploadSessions
