import BerryKeep.StreamedDownload

/-!
What a download leaves in its writer. Whatever the outcome of a request, the
writer holds the bytes of its attempts one after the other; only the last one
may have completed. A download that succeeds has therefore written the object
and, between its segments, everything that failed attempts had delivered.
-/
namespace BerryKeepDownloadDelivery
open StatefulProgram FaultInjection BerryKeepContentCodec BerryKeepStreamedDownload

section Bytes

def bytesOf (reports : List AttemptReport) : Bytes := reports.reverse.flatMap (·.delivered)

theorem bytesOf_append (later earlier : List AttemptReport) :
    bytesOf (later ++ earlier) = bytesOf earlier ++ bytesOf later := by
  simp [bytesOf]

theorem bytesOf_cons (report : AttemptReport) (earlier : List AttemptReport) :
    bytesOf (report :: earlier) = bytesOf earlier ++ report.delivered := by
  simp [bytesOf]

def completedBytes (reports : List AttemptReport) : Bytes :=
  bytesOf (reports.filter (·.completed))

theorem completedBytes_append (later earlier : List AttemptReport) :
    completedBytes (later ++ earlier) = completedBytes earlier ++ completedBytes later := by
  simp [completedBytes, bytesOf_append]

theorem completedBytes_of_last {last : AttemptReport} {earlier : List AttemptReport}
    (completed : last.completed = true) (failed : ∀ r ∈ earlier, r.completed = false) :
    completedBytes (last :: earlier) = last.delivered := by
  have none_left : earlier.filter (·.completed) = [] := by
    rw [List.filter_eq_nil_iff]
    intro report listed
    simp [failed report listed]
  simp [completedBytes, completed, none_left, bytesOf]

def NothingSpilled (reports : List AttemptReport) : Prop :=
  ∀ report ∈ reports, report.completed = false → report.delivered = []

instance (reports : List AttemptReport) : Decidable (NothingSpilled reports) :=
  inferInstanceAs (Decidable (∀ report ∈ reports, report.completed = false →
    report.delivered = []))

theorem completedBytes_length (reports : List AttemptReport) :
    (bytesOf reports).length = (completedBytes reports).length +
      (bytesOf (reports.filter fun report => !report.completed)).length := by
  induction reports with
  | nil => rfl
  | cons report earlier ih =>
    cases flag : report.completed with
    | true =>
      simp only [completedBytes, List.filter_cons, flag, Bool.not_true, Bool.false_eq_true,
        if_true, if_false, bytesOf_cons, List.length_append] at ih ⊢
      omega
    | false =>
      simp only [completedBytes, List.filter_cons, flag, Bool.not_false, Bool.false_eq_true,
        if_true, if_false, bytesOf_cons, List.length_append] at ih ⊢
      omega

theorem bytesOf_eq_completed_iff (reports : List AttemptReport) :
    bytesOf reports = completedBytes reports ↔ NothingSpilled reports := by
  constructor
  · intro same report listed failed
    have lengths := completedBytes_length reports
    rw [same] at lengths
    have empty : bytesOf (reports.filter fun report => !report.completed) = [] :=
      List.length_eq_zero_iff.mp (by omega)
    rw [bytesOf, List.flatMap_eq_nil_iff] at empty
    apply empty report
    rw [List.mem_reverse, List.mem_filter]
    exact ⟨listed, by simp [failed]⟩
  · intro clean
    induction reports with
    | nil => rfl
    | cons report earlier ih =>
      have rest := ih fun r listed => clean r (List.mem_cons_of_mem _ listed)
      cases flag : report.completed with
      | true => simp [completedBytes, flag, bytesOf_cons] at rest ⊢; exact rest
      | false =>
        have nothing := clean report List.mem_cons_self flag
        simp [completedBytes, flag, bytesOf_cons, nothing] at rest ⊢
        exact rest

end Bytes

section Requests
variable {σ : Type} (sink : Sink σ) (network : Network)

def Extends (before after : Transfer σ) (sent : Bytes) : Prop :=
  after.sink = sink.append sent before.sink ∧
    after.reports = before.reports.modifyHead (fun report =>
      { report with delivered := report.delivered ++ sent }) ∧
    after.progress = before.progress

theorem extends_nil (transfer : Transfer σ) : Extends sink transfer transfer [] := by
  refine ⟨(sink.append_nil _).symm, ?_, rfl⟩
  cases transfer.reports with
  | nil => rfl
  | cons report earlier => simp

variable {sink network}

variable {a b c : Transfer σ}

theorem Extends.trans {first second : Bytes} (one : Extends sink a b first)
    (two : Extends sink b c second) : Extends sink a c (first ++ second) := by
  refine ⟨?_, ?_, two.2.2.trans one.2.2⟩
  · rw [two.1, one.1, sink.append_append]
  · rw [two.2.1, one.2.1]
    cases a.reports with
    | nil => rfl
    | cons report earlier => simp

theorem writeChunk_ensures (chunk : Bytes) (s : Faulty (Transfer σ)) :
    Ensures (writeChunk sink chunk) s fun outcome t => ∃ sent, sent <+: chunk ∧
      Extends sink s.state t.state sent ∧ (outcome = .ok () → sent = chunk) := by
  unfold writeChunk
  split
  · next empty => exact ⟨[], List.nil_prefix, extends_nil sink _, fun _ => empty.symm⟩
  · have written : Extends sink s.state (Transfer.extend sink chunk s.state) chunk :=
      ⟨rfl, rfl, rfl⟩
    apply ensures_effect
    · intro plan
      exact ⟨chunk, List.prefix_refl _, written, fun _ => rfl⟩
    · intro plan
      exact ⟨[], List.nil_prefix, extends_nil sink _, fun done => by cases done⟩
    · intro t plan cut
      rcases cut with rfl | rfl
      · exact ⟨[], List.nil_prefix, extends_nil sink _, fun done => by cases done⟩
      · exact ⟨chunk, List.prefix_refl _, written, fun done => by cases done⟩

theorem writeChunks_ensures (chunks : List Bytes) :
    ∀ s : Faulty (Transfer σ), Ensures (forEach chunks (writeChunk sink)) s fun outcome t =>
      ∃ sent, sent <+: chunks.flatten ∧ Extends sink s.state t.state sent ∧
        (outcome = .ok () → sent = chunks.flatten) := by
  induction chunks with
  | nil =>
    intro s
    exact ⟨[], List.nil_prefix, extends_nil sink _, fun _ => rfl⟩
  | cons chunk rest ih =>
    intro s
    apply ensures_bind (writeChunk_ensures chunk s)
    · rintro _ t ⟨first, _, one, whole⟩
      have same := whole rfl
      subst same
      apply ensures_mono (ih t)
      rintro outcome u ⟨second, begins, two, all⟩
      refine ⟨first ++ second, ?_, one.trans two, fun done => ?_⟩
      · rw [List.flatten_cons]
        exact (List.prefix_append_right_inj first).mpr begins
      · rw [all done, List.flatten_cons]
    · rintro error t ⟨first, begins, one, _⟩
      refine ⟨first, ?_, one, fun done => by cases done⟩
      rw [List.flatten_cons]
      exact begins.trans (List.prefix_append _ _)

theorem readBody_ensures (chunks : List Bytes) (broken : Option Bool)
    (s : Faulty (Transfer σ)) :
    Ensures (readBody sink chunks broken) s fun outcome t =>
      ∃ sent, sent <+: chunks.flatten ∧ Extends sink s.state t.state sent ∧
        (outcome = .ok () → broken = none ∧ sent = chunks.flatten) := by
  unfold readBody
  apply ensures_bind (writeChunks_ensures chunks s)
  · rintro _ t ⟨sent, begins, extended, whole⟩
    have same := whole rfl
    cases broken with
    | some backpressure => exact ⟨sent, begins, extended, fun done => by cases done⟩
    | none =>
      apply ensures_effect
      · intro plan
        exact ⟨sent, begins, extended, fun _ => ⟨rfl, same⟩⟩
      · intro plan
        exact ⟨sent, begins, extended, fun done => by cases done⟩
      · intro u plan cut
        rcases cut with rfl | rfl
        · exact ⟨sent, begins, extended, fun done => by cases done⟩
        · exact ⟨sent, begins, extended, fun done => by cases done⟩
  · rintro error t ⟨sent, begins, extended, _⟩
    exact ⟨sent, begins, extended, fun done => by cases done⟩

def Tried (network : Network) (request : ObjectRequest) (report : AttemptReport) : Prop :=
  report.request = request ∧ ∃ round route_id chunks broken,
    network.attempt request round route_id = .answered report.status chunks broken ∧
    report.delivered <+: chunks.flatten ∧
    (report.completed = true → broken = none ∧ report.delivered = chunks.flatten)

structure Attempted (sink : Sink σ) (network : Network) (request : ObjectRequest)
    (before after : Transfer σ) (new : List AttemptReport) : Prop where
  reports : after.reports = new ++ before.reports
  written : after.sink = sink.append (bytesOf new) before.sink
  progress : after.progress = before.progress
  tried : ∀ report ∈ new, Tried network request report

/-- What a request did: attempts that failed, and after them one that completed if it
    succeeded. -/
def Streamed (sink : Sink σ) (network : Network) (request : ObjectRequest) (before : Transfer σ)
    (outcome : Except (Stop TransferError) StreamedResponse) (after : Transfer σ) : Prop :=
  match outcome with
  | .ok response => ∃ last earlier, Attempted sink network request before after (last :: earlier) ∧
      last.completed = true ∧ (∀ report ∈ earlier, report.completed = false) ∧
      response = ⟨last.status, last.delivered.length⟩
  | .error _ => ∃ new, Attempted sink network request before after new ∧
      ∀ report ∈ new, report.completed = false

theorem attempted_nil (request : ObjectRequest) (transfer : Transfer σ) :
    Attempted sink network request transfer transfer [] where
  reports := rfl
  written := (sink.append_nil _).symm
  progress := rfl
  tried := by intro _ listed; cases listed

variable {request : ObjectRequest}

theorem Attempted.trans
    {first second : List AttemptReport} (one : Attempted sink network request a b first)
    (two : Attempted sink network request b c second) :
    Attempted sink network request a c (second ++ first) where
  reports := by rw [two.reports, one.reports, List.append_assoc]
  written := by rw [two.written, one.written, sink.append_append, bytesOf_append]
  progress := two.progress.trans one.progress
  tried := by
    intro report listed
    rcases List.mem_append.mp listed with later | earlier
    · exact two.tried report later
    · exact one.tried report earlier

theorem Streamed.after {failed : AttemptReport}
    {outcome : Except (Stop TransferError) StreamedResponse}
    (one : Attempted sink network request a b [failed]) (incomplete : failed.completed = false)
    (rest : Streamed sink network request b outcome c) :
    Streamed sink network request a outcome c := by
  have all : ∀ (reports : List AttemptReport), (∀ report ∈ reports, report.completed = false) →
      ∀ report ∈ reports ++ [failed], report.completed = false := by
    intro reports each report listed
    rcases List.mem_append.mp listed with before | here
    · exact each report before
    · rw [List.mem_singleton.mp here]
      exact incomplete
  cases outcome with
  | ok response =>
    obtain ⟨last, earlier, attempted, completed, others, same⟩ := rest
    exact ⟨last, earlier ++ [failed], one.trans attempted, completed, all earlier others, same⟩
  | error error =>
    obtain ⟨new, attempted, others⟩ := rest
    exact ⟨new ++ [failed], one.trans attempted, all new others⟩

theorem streamed_failed {transfer : Transfer σ}
    (error : Stop TransferError) :
    Streamed sink network request transfer (.error error) transfer :=
  ⟨[], attempted_nil request transfer, by intro _ listed; cases listed⟩

theorem stream_stops (request : ObjectRequest) (error : Stop TransferError)
    (s : Faulty (Transfer σ)) :
    Ensures (throw error : TransferM σ StreamedResponse) s
      fun outcome t => Streamed sink network request s.state outcome t.state :=
  streamed_failed error

theorem attempt_ensures {round : Nat} {route_id : RouteId}
    {status : Nat} {chunks : List Bytes} {broken : Option Bool}
    (answer : network.attempt request round route_id = .answered status chunks broken)
    (s : Faulty (Transfer σ)) :
    Ensures (attempt (readBody sink chunks broken))
      ⟨{ s.state with reports := ⟨request, status, [], false⟩ :: s.state.reports }, s.plan⟩
      fun outcome t => ∃ sent,
        Attempted sink network request s.state t.state [⟨request, status, sent, false⟩] ∧
        (outcome = .ok none → broken = none ∧ sent = chunks.flatten) := by
  have reported : ∀ t : Faulty (Transfer σ), ∀ sent, sent <+: chunks.flatten →
      Extends sink
        { s.state with reports := ⟨request, status, [], false⟩ :: s.state.reports } t.state sent →
      Attempted sink network request s.state t.state [⟨request, status, sent, false⟩] := by
    intro t sent begins extended
    constructor
    · rw [extended.2.1]
      simp
    · rw [extended.1]
      simp [bytesOf]
    · exact extended.2.2
    · intro report listed
      rw [List.mem_singleton.mp listed]
      exact ⟨rfl, round, route_id, chunks, broken, answer, begins, fun done => by cases done⟩
  apply ensures_attempt (readBody_ensures chunks broken _)
  · rintro t ⟨sent, begins, extended, whole⟩
    exact ⟨sent, reported t sent begins extended, fun _ => whole rfl⟩
  · rintro error t ⟨sent, begins, extended, _⟩
    exact ⟨sent, reported t sent begins extended, fun done => by cases done⟩
  · rintro t ⟨sent, begins, extended, _⟩
    exact ⟨sent, reported t sent begins extended, fun done => by cases done⟩

theorem streamed_completed {round : Nat} {route_id : RouteId}
    {status : Nat} {chunks : List Bytes} {a b : Transfer σ}
    (answer : network.attempt request round route_id = .answered status chunks none)
    (attempted : Attempted sink network request a b [⟨request, status, chunks.flatten, false⟩]) :
    Streamed sink network request a (.ok ⟨status, chunks.flatten.length⟩)
      { b with reports := b.reports.modifyHead fun report =>
        { report with completed := true } } := by
  refine ⟨⟨request, status, chunks.flatten, true⟩, [], ⟨?_, ?_, attempted.progress, ?_⟩, rfl, ?_,
    rfl⟩
  · rw [attempted.reports]
    rfl
  · rw [attempted.written]
    simp [bytesOf]
  · intro report listed
    rw [List.mem_singleton.mp listed]
    exact ⟨rfl, round, route_id, chunks, none, answer, List.prefix_refl _, fun _ => ⟨rfl, rfl⟩⟩
  · intro report listed
    cases listed

theorem streamRoutes_ensures (request : ObjectRequest) (fuel : Nat) :
    ∀ (round : Nat) (pending : List RouteId) (last_error : Option TransferError)
      (s : Faulty (Transfer σ)),
      Ensures (streamRoutes sink network request fuel round pending last_error) s
        fun outcome t => Streamed sink network request s.state outcome t.state := by
  induction fuel with
  | zero =>
    intro round pending last_error s
    exact stream_stops request _ s
  | succ fuel ih =>
    intro round pending last_error s
    rw [streamRoutes]
    split
    · exact stream_stops request _ s
    · next route_id rest next =>
      split
      · exact ih _ _ _ s
      · exact ih _ _ _ s
      · exact stream_stops request _ s
      · split
        · exact stream_stops request _ s
        · exact ih _ _ _ s
      · next status chunks broken answer =>
        apply ensures_bind_ok (a := ()) rfl
        apply ensures_bind (attempt_ensures answer s)
        · rintro result t ⟨sent, attempted, whole⟩
          cases result with
          | none =>
            obtain ⟨rfl, rfl⟩ := whole rfl
            exact streamed_completed answer attempted
          | some error =>
            simp only
            split
            · apply ensures_mono (stream_stops request _ t)
              intro outcome u rest
              exact Streamed.after attempted rfl rest
            · apply ensures_mono (ih _ _ _ t)
              intro outcome u rest
              exact Streamed.after attempted rfl rest
        · rintro error t ⟨sent, attempted, _⟩
          exact Streamed.after attempted rfl (streamed_failed error)

theorem streamObject_ensures (request : ObjectRequest) (s : Faulty (Transfer σ)) :
    Ensures (streamObjectRequestToWriter sink network request) s
      fun outcome t => Streamed sink network request s.state outcome t.state := by
  unfold streamObjectRequestToWriter
  split
  · exact stream_stops request _ s
  · exact streamRoutes_ensures request _ _ _ _ s

-- Without faults an answer that does not break off is written to its end.
theorem writeChunks_calm (chunks : List Bytes) :
    ∀ s : Faulty (Transfer σ), Calm s →
      Ensures (forEach chunks (writeChunk sink)) s fun outcome t => outcome = .ok () ∧ Calm t := by
  induction chunks with
  | nil =>
    intro s calm
    exact ⟨rfl, calm⟩
  | cons chunk rest ih =>
    intro s calm
    have first : Ensures (writeChunk sink chunk) s fun outcome t => outcome = .ok () ∧ Calm t := by
      unfold writeChunk
      split
      · exact ⟨rfl, calm⟩
      · obtain ⟨t, run, _, still⟩ := effect_calm _ _ calm
        exact ensures_of_run run ⟨rfl, still⟩
    apply ensures_bind first
    · rintro _ t ⟨_, still⟩
      exact ih t still
    · rintro error t ⟨done, _⟩
      cases done

theorem readBody_calm (chunks : List Bytes) (broken : Option Bool) {s : Faulty (Transfer σ)}
    (calm : Calm s) :
    Ensures (readBody sink chunks broken) s fun outcome t =>
      Calm t ∧ (broken = none → outcome = .ok ()) := by
  unfold readBody
  apply ensures_bind (writeChunks_calm chunks s calm)
  · rintro _ t ⟨_, still⟩
    cases broken with
    | some backpressure => exact ⟨still, fun unbroken => by cases unbroken⟩
    | none =>
      obtain ⟨u, run, _, after⟩ := effect_calm _ _ still
      exact ensures_of_run run ⟨after, fun _ => rfl⟩
  · rintro error t ⟨done, _⟩
    cases done

theorem attempt_calm (request : ObjectRequest) (status : Nat) {chunks : List Bytes}
    {broken : Option Bool} (unbroken : chunks.flatten = [] ∨ broken = none)
    {s : Faulty (Transfer σ)} (calm : Calm s) :
    Ensures (attempt (readBody sink chunks broken))
      ⟨{ s.state with reports := ⟨request, status, [], false⟩ :: s.state.reports }, s.plan⟩
      fun outcome t => Calm t ∧ ∃ sent,
        t.state.reports = ⟨request, status, sent, false⟩ :: s.state.reports ∧
        (outcome = .ok none ∨ sent = []) := by
  have begun : Calm (⟨{ s.state with reports := ⟨request, status, [], false⟩ :: s.state.reports },
    s.plan⟩ : Faulty (Transfer σ)) := calm
  have stopped : ∀ outcome : Except (Stop TransferError) Unit, outcome ≠ .ok () →
      (broken = none → outcome = .ok ()) → ∀ sent, sent <+: chunks.flatten → sent = [] := by
    intro outcome failed whole sent begins
    rw [unbroken.resolve_right fun none_broken => failed (whole none_broken)] at begins
    exact List.prefix_nil.mp begins
  have reported : ∀ (t : Faulty (Transfer σ)) (sent : Bytes),
      Extends sink { s.state with reports := ⟨request, status, [], false⟩ :: s.state.reports }
        t.state sent →
      t.state.reports = ⟨request, status, sent, false⟩ :: s.state.reports := by
    intro t sent extended
    rw [extended.2.1]
    simp
  apply ensures_attempt (ensures_and (readBody_ensures chunks broken _)
    (readBody_calm chunks broken begun))
  · rintro t ⟨⟨sent, _, extended, _⟩, still, _⟩
    exact ⟨still, sent, reported t sent extended, .inl rfl⟩
  · rintro error t ⟨⟨sent, begins, extended, _⟩, still, whole⟩
    exact ⟨still, sent, reported t sent extended,
      .inr (stopped _ (fun done => by cases done) whole sent begins)⟩
  · rintro t ⟨⟨sent, begins, extended, _⟩, still, whole⟩
    exact ⟨still, sent, reported t sent extended,
      .inr (stopped _ (fun done => by cases done) whole sent begins)⟩

/-- What a request notes without faults: attempts of which those that failed delivered nothing. -/
def CalmlyTried (before : Transfer σ) (t : Faulty (Transfer σ)) : Prop :=
  Calm t ∧ ∃ new, t.state.reports = new ++ before.reports ∧ NothingSpilled new

theorem calmlyTried_none {s : Faulty (Transfer σ)} (calm : Calm s) : CalmlyTried s.state s :=
  ⟨calm, [], rfl, by intro _ listed; cases listed⟩

theorem CalmlyTried.after {before : Transfer σ} {t u : Faulty (Transfer σ)} {status : Nat}
    (first : t.state.reports = ⟨request, status, [], false⟩ :: before.reports)
    (rest : CalmlyTried t.state u) : CalmlyTried before u := by
  obtain ⟨calm, new, reports, clean⟩ := rest
  refine ⟨calm, new ++ [⟨request, status, [], false⟩], by simp [reports, first], ?_⟩
  intro report listed failed
  rcases List.mem_append.mp listed with later | here
  · exact clean report later failed
  · rw [List.mem_singleton.mp here]

variable (unbroken : ∀ round route_id status chunks broken,
  network.attempt request round route_id = .answered status chunks broken →
    chunks.flatten = [] ∨ broken = none)
include unbroken

theorem streamRoutes_calm (fuel : Nat) :
    ∀ (round : Nat) (pending : List RouteId) (last_error : Option TransferError)
      (s : Faulty (Transfer σ)), Calm s →
      Ensures (streamRoutes sink network request fuel round pending last_error) s
        fun _ t => CalmlyTried s.state t := by
  induction fuel with
  | zero =>
    intro round pending last_error s calm
    exact calmlyTried_none calm
  | succ fuel ih =>
    intro round pending last_error s calm
    rw [streamRoutes]
    split
    · exact calmlyTried_none calm
    · next route_id rest next =>
      split
      · exact ih _ _ _ s calm
      · exact ih _ _ _ s calm
      · exact calmlyTried_none calm
      · split
        · exact calmlyTried_none calm
        · exact ih _ _ _ s calm
      · next status chunks broken answer =>
        have sent_all := unbroken round route_id status chunks broken answer
        apply ensures_bind_ok (a := ()) rfl
        apply ensures_bind (attempt_calm request status sent_all calm)
        · rintro result t ⟨still, sent, reports, ended⟩
          cases result with
          | none =>
            refine ⟨still, [⟨request, status, sent, true⟩], ?_, ?_⟩
            · change t.state.reports.modifyHead _ = _
              rw [reports]
              rfl
            · intro report listed failed
              rw [List.mem_singleton.mp listed] at failed
              cases failed
          | some error =>
            obtain rfl := ended.resolve_left fun done => by cases done
            simp only
            split
            · exact CalmlyTried.after reports (calmlyTried_none still)
            · apply ensures_mono (ih _ _ _ t still)
              intro _ u tried
              exact CalmlyTried.after reports tried
        · rintro error t ⟨still, sent, reports, ended⟩
          obtain rfl := ended.resolve_left fun done => by cases done
          exact CalmlyTried.after reports (calmlyTried_none still)

theorem streamObject_calm {s : Faulty (Transfer σ)} (calm : Calm s) :
    Ensures (streamObjectRequestToWriter sink network request) s
      fun _ t => CalmlyTried s.state t := by
  unfold streamObjectRequestToWriter
  split
  · exact calmlyTried_none calm
  · exact streamRoutes_calm unbroken _ _ _ _ s calm

end Requests

section Downloads

def bytesSink : Sink Bytes where
  append chunk output := output ++ chunk
  append_nil := List.append_nil
  append_append := fun a b output => List.append_assoc output a b

/-- Every route serves this content: a whole answer is the object, a partial one the range that
    was asked for. -/
def Serves (content : Bytes) (network : Network) : Prop :=
  ∀ request round route_id status chunks,
    network.attempt request round route_id = .answered status chunks none →
      (status = statusOk → chunks.flatten = content) ∧
      (status = partialContent → ∀ start stop, request.range = some (start, stop) →
        chunks.flatten = (content.drop start).take (stop + 1 - start))

variable {network : Network} {content : Bytes} {key : String} {head : ObjectHeadResponse}

structure Written (before after : Transfer Bytes) (new : List AttemptReport) : Prop where
  reports : after.reports = new ++ before.reports
  sink : after.sink = before.sink ++ bytesOf new

theorem written_nil (transfer : Transfer Bytes) : Written transfer transfer [] where
  reports := rfl
  sink := (List.append_nil _).symm

theorem Written.trans {a b c : Transfer Bytes} {first second : List AttemptReport}
    (one : Written a b first) (two : Written b c second) : Written a c (second ++ first) where
  reports := by rw [two.reports, one.reports, List.append_assoc]
  sink := by rw [two.sink, one.sink, bytesOf_append, List.append_assoc]

theorem streamed_ok (serves : Serves content network) {request : ObjectRequest}
    {before after : Transfer Bytes} {response : StreamedResponse}
    (streamed : Streamed bytesSink network request before (.ok response) after) :
    ∃ new, Written before after new ∧ response.bytesWritten = (completedBytes new).length ∧
      (response.status = statusOk → completedBytes new = content) ∧
      (response.status = partialContent → ∀ start stop, request.range = some (start, stop) →
        completedBytes new = (content.drop start).take (stop + 1 - start)) := by
  obtain ⟨last, earlier, attempted, completed, others, same⟩ := streamed
  have body := completedBytes_of_last completed others
  obtain ⟨_, round, route_id, chunks, broken, answer, _, whole⟩ :=
    attempted.tried last List.mem_cons_self
  obtain ⟨rfl, delivered⟩ := whole completed
  have honest := serves request round route_id last.status chunks answer
  rw [← delivered, ← body] at honest
  refine ⟨last :: earlier, ⟨attempted.reports, attempted.written⟩, ?_, ?_⟩
  · rw [same, body]
  · rw [same]
    exact honest

theorem drop_segment (content : Bytes) {offset stop : Nat} (low : offset ≤ stop) :
    content.drop offset =
      (content.drop offset).take (stop + 1 - offset) ++ content.drop (stop + 1) := by
  have split := (List.take_append_drop (stop + 1 - offset) (content.drop offset)).symm
  rw [List.drop_drop] at split
  have same : offset + (stop + 1 - offset) = stop + 1 := by omega
  rw [same] at split
  exact split

theorem rangeLoop_ensures (serves : Serves content network)
    (sized : head.totalSizeBytes = content.length) (fuel : Nat) :
    ∀ (offset : Nat) (s : Faulty (Transfer Bytes)), content.length ≤ offset + fuel →
      Ensures (rangeLoop bytesSink network key head fuel offset) s fun outcome t =>
        outcome = .ok () → ∃ new, Written s.state t.state new ∧
          completedBytes new = content.drop offset := by
  induction fuel with
  | zero =>
    intro offset s enough _
    refine ⟨[], written_nil _, ?_⟩
    rw [List.drop_eq_nil_of_le (by omega)]
    rfl
  | succ fuel ih =>
    intro offset s enough
    rw [rangeLoop]
    split
    · next inside =>
      obtain ⟨low, high⟩ := segmentEnd_bounds inside
      apply ensures_bind (streamObject_ensures _ s)
      · intro response t streamed
        obtain ⟨first, written, count, whole, part⟩ := streamed_ok serves streamed
        split
        · next ranged =>
          split
          · intro done
            cases done
          · apply ensures_mono (ih _ t (by omega))
            intro outcome u rest done
            obtain ⟨later, more, bytes⟩ := rest done
            refine ⟨later ++ first, written.trans more, ?_⟩
            rw [completedBytes_append, bytes, part ranged _ _ rfl, ← drop_segment content low]
        · split
          · next accepted =>
            obtain ⟨full, rfl⟩ := accepted
            apply ensures_mono (ih _ t (by omega))
            intro outcome u rest done
            obtain ⟨later, more, bytes⟩ := rest done
            refine ⟨later ++ first, written.trans more, ?_⟩
            rw [completedBytes_append, bytes, whole full, sized, List.drop_length,
              List.append_nil, List.drop_zero]
          · intro done
            cases done
      · intro error t _ done
        cases done
    · next outside =>
      intro _
      refine ⟨[], written_nil _, ?_⟩
      rw [List.drop_eq_nil_of_le (by omega)]
      rfl

theorem flush_ensures (message : String) (s : Faulty (Transfer Bytes)) :
    Ensures (flush message) s fun _ t => t.state = s.state := by
  apply ensures_effect
  · intro plan; rfl
  · intro plan; rfl
  · intro t plan cut
    rcases cut with rfl | rfl <;> rfl

theorem downloadWithRangeRequests_ensures (serves : Serves content network)
    {head : Except String ObjectHeadResponse}
    (sized : ∀ found, head = .ok found → found.totalSizeBytes = content.length)
    (s : Faulty (Transfer Bytes)) :
    Ensures (downloadWithRangeRequests bytesSink network key head) s fun outcome t =>
      outcome = .ok () → ∃ new, Written s.state t.state new ∧ completedBytes new = content := by
  unfold downloadWithRangeRequests
  split
  · intro done
    cases done
  · next found =>
    have size := sized found rfl
    split
    · next empty =>
      apply ensures_mono (flush_ensures _ s)
      intro outcome t same _
      rw [same]
      refine ⟨[], written_nil _, ?_⟩
      rw [List.length_eq_zero_iff.mp (size.symm.trans empty)]
      rfl
    · split
      · apply ensures_bind (streamObject_ensures _ s)
        · intro response t streamed
          obtain ⟨new, written, count, whole, part⟩ := streamed_ok serves streamed
          split
          · intro done
            cases done
          · next accepted =>
            intro _
            exact ⟨new, written, whole (not_not.mp accepted)⟩
        · intro error t _ done
          cases done
      · apply ensures_bind (rangeLoop_ensures serves size _ 0 s (by omega))
        · intro _ t loop
          obtain ⟨new, written, bytes⟩ := loop rfl
          apply ensures_mono (flush_ensures _ t)
          intro outcome u same _
          rw [same]
          exact ⟨new, written, bytes⟩
        · intro error t _ done
          cases done

theorem ensures_checkCancel {α : Type} {cancelled : CancelCheck → Bool} {check : CancelCheck}
    {next : Unit → TransferM Bytes α} {s : Faulty (Transfer Bytes)}
    {Q : Except (Stop TransferError) α → Faulty (Transfer Bytes) → Prop}
    (stopped : ∀ error, Q (.error error) s) (rest : Ensures (next ()) s Q) :
    Ensures (checkCancel key cancelled check >>= next) s Q := by
  unfold checkCancel
  split
  · exact stopped _
  · exact rest

theorem take_segment (content : Bytes) {offset stop bound : Nat} (low : offset ≤ stop)
    (high : stop < bound) :
    (content.drop offset).take (bound - offset) =
      (content.drop offset).take (stop + 1 - offset) ++
        (content.drop (stop + 1)).take (bound - (stop + 1)) := by
  have split := (List.take_append_drop (stop + 1 - offset)
    ((content.drop offset).take (bound - offset))).symm
  rw [List.take_take, List.drop_take, List.drop_drop] at split
  have first : min (stop + 1 - offset) (bound - offset) = stop + 1 - offset := by omega
  have rest : bound - offset - (stop + 1 - offset) = bound - (stop + 1) := by omega
  have start : offset + (stop + 1 - offset) = stop + 1 := by omega
  rw [first, rest, start] at split
  exact split

theorem progressLoop_ensures (serves : Serves content network)
    (sized : head.totalSizeBytes = content.length) {cancelled : CancelCheck → Bool}
    {range : RequestedRange} (within : range.offset + range.length ≤ content.length) (fuel : Nat) :
    ∀ (offset counted : Nat) (s : Faulty (Transfer Bytes)),
      range.offset + range.length ≤ offset + fuel → offset ≤ range.offset + range.length →
      range.offset + counted = offset →
      Ensures (progressLoop bytesSink network key cancelled head range fuel offset counted) s
        fun outcome t => ∀ total, outcome = .ok total → total = range.length ∧
          ∃ new, Written s.state t.state new ∧
            completedBytes new = (content.drop offset).take (range.offset + range.length - offset) := by
  have at_end : ∀ (offset counted : Nat) (transfer : Transfer Bytes),
      offset = range.offset + range.length → range.offset + counted = offset →
      ∀ total, (.ok counted : Except (Stop TransferError) Nat) = .ok total →
        total = range.length ∧ ∃ new, Written transfer transfer new ∧
          completedBytes new = (content.drop offset).take (range.offset + range.length - offset) := by
    intro offset counted transfer reached sum total done
    cases done
    refine ⟨by omega, [], written_nil _, ?_⟩
    rw [show range.offset + range.length - offset = 0 by omega, List.take_zero]
    rfl
  induction fuel with
  | zero =>
    intro offset counted s enough inside sum
    exact at_end offset counted s.state (by omega) sum
  | succ fuel ih =>
    intro offset counted s enough inside sum
    have stopped : ∀ (error : Stop TransferError) (t : Faulty (Transfer Bytes)),
        ∀ total, (.error error : Except (Stop TransferError) Nat) = .ok total →
          total = range.length ∧ ∃ new, Written s.state t.state new ∧ completedBytes new =
            (content.drop offset).take (range.offset + range.length - offset) := by
      intro error t total done
      cases done
    rw [progressLoop]
    split
    · next left =>
      obtain ⟨low, high⟩ := segmentEnd_bounds left
      apply ensures_checkCancel (fun error => stopped error s)
      apply ensures_checkCancel (fun error => stopped error s)
      apply ensures_bind (streamObject_ensures _ s)
      · intro response t streamed
        obtain ⟨first, written, count, whole, part⟩ := streamed_ok serves streamed
        split
        · next ranged =>
          split
          · exact stopped _ t
          · next expected =>
            apply ensures_bind_ok (a := ()) rfl
            apply ensures_mono (ih _ _ _ (by omega) (by omega) (by omega))
            intro outcome u rest total done
            obtain ⟨all, later, more, bytes⟩ := rest total done
            have here : Written s.state { t.state with
                progress := t.state.progress ++ [⟨head.totalSizeBytes, range,
                  counted + response.bytesWritten⟩] } first := ⟨written.reports, written.sink⟩
            refine ⟨all, later ++ first, here.trans more, ?_⟩
            rw [completedBytes_append, bytes, part ranged _ _ rfl, ← take_segment content low high]
        · split
          · next accepted =>
            obtain ⟨full, rfl, entire⟩ := accepted
            have object := whole full
            have length : response.bytesWritten = range.length := by
              rw [count, object, entire, sized]
            apply ensures_bind_ok (a := ()) rfl
            apply ensures_mono (ih _ _ _ (by omega) (by omega) (by omega))
            intro outcome u rest total done
            obtain ⟨all, later, more, bytes⟩ := rest total done
            have here : Written s.state { t.state with
                progress := t.state.progress ++ [⟨head.totalSizeBytes, range,
                  response.bytesWritten⟩] } first := ⟨written.reports, written.sink⟩
            refine ⟨all, later ++ first, here.trans more, ?_⟩
            rw [completedBytes_append, bytes, object, Nat.sub_self, List.take_zero,
              List.append_nil, List.drop_zero, List.take_of_length_le (by omega)]
          · exact stopped _ t
      · intro error t _
        exact stopped error t
    · next done => exact at_end offset counted s.state (by omega) sum

theorem cutRange_bytes (content : Bytes) (requested : RequestedRange) :
    (content.drop (cutRange requested content.length).offset).take
        (cutRange requested content.length).length =
      (content.drop requested.offset).take requested.length := by
  unfold cutRange
  simp only
  by_cases inside : requested.offset ≤ content.length
  · rw [Nat.min_eq_left inside]
    by_cases fits : requested.offset + requested.length ≤ content.length
    · rw [Nat.min_eq_left fits, Nat.add_sub_cancel_left]
    · have rest : (content.drop requested.offset).length ≤ requested.length := by
        rw [List.length_drop]
        omega
      rw [Nat.min_eq_right (by omega), List.take_of_length_le rest,
        List.take_of_length_le (by rw [List.length_drop])]
  · have start : min requested.offset content.length = content.length := by omega
    rw [start, List.drop_length, List.take_nil, List.drop_eq_nil_of_le (by omega), List.take_nil]

theorem cutRange_within (requested : RequestedRange) (total : Nat) :
    (cutRange requested total).offset + (cutRange requested total).length ≤ total := by
  unfold cutRange
  simp only
  omega

theorem downloadRange_ensures (serves : Serves content network)
    {head : Except String ObjectHeadResponse}
    (sized : ∀ found, head = .ok found → found.totalSizeBytes = content.length)
    (requested : RequestedRange) (cancelled : CancelCheck → Bool) (s : Faulty (Transfer Bytes)) :
    Ensures (downloadRangeToWriterWithProgress bytesSink network key head requested cancelled) s
      fun outcome t => ∀ result, outcome = .ok result →
        ∃ new, Written s.state t.state new ∧
          completedBytes new = (content.drop requested.offset).take requested.length ∧
          result.bytesDownloaded = (completedBytes new).length := by
  have stopped : ∀ (error : Stop TransferError) (t : Faulty (Transfer Bytes)),
      ∀ result, (.error error : Except (Stop TransferError) DownloadRangeResult) = .ok result →
        ∃ new, Written s.state t.state new ∧
          completedBytes new = (content.drop requested.offset).take requested.length ∧
          result.bytesDownloaded = (completedBytes new).length := by
    intro error t result done
    cases done
  have cut := cutRange_bytes content requested
  have within := cutRange_within requested content.length
  have cut_length : ((content.drop (cutRange requested content.length).offset).take
      (cutRange requested content.length).length).length =
        (cutRange requested content.length).length := by
    rw [List.length_take, List.length_drop]
    omega
  unfold downloadRangeToWriterWithProgress
  apply ensures_checkCancel (fun error => stopped error s)
  split
  · exact stopped _ s
  · next found =>
    have size := sized found rfl
    simp only [size]
    apply ensures_bind_ok (a := ()) rfl
    split
    · next empty =>
      apply ensures_bind (flush_ensures _ _)
      · intro _ t same result done
        cases done
        simp only [pure_run, same]
        refine ⟨[], ⟨rfl, (List.append_nil _).symm⟩, ?_, rfl⟩
        rw [← cut, empty, List.take_zero]
        rfl
      · intro error t _
        exact stopped error t
    · split
      · split
        · exact stopped _ _
        · next entire =>
          simp only [not_or, not_not] at entire
          apply ensures_checkCancel (fun error => stopped error _)
          apply ensures_checkCancel (fun error => stopped error _)
          apply ensures_bind (streamObject_ensures _ _)
          · intro response t streamed
            obtain ⟨new, written, count, whole, part⟩ := streamed_ok serves streamed
            split
            · exact stopped _ t
            · next accepted =>
              intro result done
              cases done
              have object := whole (not_not.mp accepted)
              refine ⟨new, ⟨written.reports, written.sink⟩, ?_, count⟩
              rw [object, ← cut, entire.1, entire.2, List.drop_zero,
                List.take_of_length_le (Nat.le_refl _)]
          · intro error t _
            exact stopped error t
      · apply ensures_bind (progressLoop_ensures serves size within _ _ _ _ (by omega) (by omega)
          (by omega))
        · intro total t loop
          obtain ⟨all, new, written, bytes⟩ := loop total rfl
          rw [Nat.add_sub_cancel_left] at bytes
          apply ensures_bind (flush_ensures _ t)
          · intro _ u same result done
            cases done
            simp only [pure_run, same]
            refine ⟨new, ⟨written.reports, written.sink⟩, bytes.trans cut, ?_⟩
            rw [bytes, cut_length]
            exact all
          · intro error u _
            exact stopped error u
        · intro error t _
          exact stopped error t

end Downloads

def Transfer.start : Transfer Bytes := ⟨[], [], []⟩

/-- A download that reports success delivered exactly the object, or the range of it, precisely
    if no attempt of it failed after it had delivered something. -/
theorem download_exact_iff (network : Network) (key : String)
    (head : Except String ObjectHeadResponse) (content : Bytes) (requested : RequestedRange)
    (cancelled : CancelCheck → Bool) (plan : List Fault)
    (sized : ∀ found, head = .ok found → found.totalSizeBytes = content.length)
    (serves : Serves content network) :
    (∀ t, (downloadWithRangeRequests bytesSink network key head).run ⟨Transfer.start, plan⟩ =
        (.ok (), t) →
      (t.state.sink = content ↔ NothingSpilled t.state.reports)) ∧
    ∀ result t, (downloadRangeToWriterWithProgress bytesSink network key head requested
        cancelled).run ⟨Transfer.start, plan⟩ = (.ok result, t) →
      (t.state.sink = (content.drop requested.offset).take requested.length ∧
        result.bytesDownloaded = t.state.sink.length ↔ NothingSpilled t.state.reports) := by
  constructor
  · intro t run
    have ensured := @downloadWithRangeRequests_ensures network content key serves head sized
      ⟨Transfer.start, plan⟩
    unfold Ensures at ensured
    rw [run] at ensured
    obtain ⟨new, written, bytes⟩ := ensured rfl
    have reports : t.state.reports = new := by simpa [Transfer.start] using written.reports
    have output : t.state.sink = bytesOf new := by simpa [Transfer.start] using written.sink
    rw [reports, output, ← bytesOf_eq_completed_iff, bytes]
  · intro result t run
    have ensured := @downloadRange_ensures network content key serves head sized requested
      cancelled ⟨Transfer.start, plan⟩
    unfold Ensures at ensured
    rw [run] at ensured
    obtain ⟨new, written, bytes, counted⟩ := ensured result rfl
    have reports : t.state.reports = new := by simpa [Transfer.start] using written.reports
    have output : t.state.sink = bytesOf new := by simpa [Transfer.start] using written.sink
    rw [reports, output, ← bytesOf_eq_completed_iff, ← bytes]
    constructor
    · intro both
      exact both.1
    · intro same
      exact ⟨same, by rw [counted, same]⟩

section Example

def twoRoutes (content : Bytes) (delivered : Nat) : Network where
  planned _ := .ok ["first", "second"]
  admission _ _ _ := .available
  attempt request _ route_id := match request.range with
    | none => .answered statusOk [content] none
    | some (start, stop) =>
      let part := (content.drop start).take (stop + 1 - start)
      if route_id = "first" then .answered partialContent [part.take delivered] (some false)
      else .answered partialContent [part] none

theorem twoRoutes_serves (content : Bytes) (delivered : Nat) :
    Serves content (twoRoutes content delivered) := by
  intro request round route_id status chunks answer
  unfold twoRoutes at answer
  simp only at answer
  split at answer
  · cases answer
    constructor
    · intro _
      simp
    · intro partly
      cases partly
  · next start stop ranged =>
    split at answer
    · cases answer
    · cases answer
      constructor
      · intro full
        cases full
      · intro _ first last same
        rw [ranged] at same
        cases same
        simp

def threeBytes : Bytes := [1, 2, 3]

def threeBytesHead : Except String ObjectHeadResponse := .ok ⟨3, some "etag", true⟩

/-- The byte of the broken answer stays in front of the object. -/
theorem broken_attempt_stays_in_output :
    Serves threeBytes (twoRoutes threeBytes 1) ∧
      ∃ t, (downloadWithRangeRequests bytesSink (twoRoutes threeBytes 1) "key"
          threeBytesHead).run ⟨Transfer.start, []⟩ = (.ok (), t) ∧
        t.state.sink = [1, 1, 2, 3] ∧ t.state.sink ≠ threeBytes :=
  ⟨twoRoutes_serves threeBytes 1, _, rfl, by decide +kernel, by decide +kernel⟩

theorem empty_attempt_harmless :
    ∃ t, (downloadWithRangeRequests bytesSink (twoRoutes threeBytes 0) "key"
        threeBytesHead).run ⟨Transfer.start, []⟩ = (.ok (), t) ∧
      t.state.reports.length = 2 ∧ t.state.sink = threeBytes := by
  have exactness := download_exact_iff (twoRoutes threeBytes 0) "key" threeBytesHead threeBytes
    ⟨0, 3⟩ (fun _ => false) [] (by intro found same; cases same; rfl)
    (twoRoutes_serves threeBytes 0)
  exact ⟨_, rfl, rfl, (exactness.1 _ rfl).mpr (by decide +kernel)⟩

end Example

end BerryKeepDownloadDelivery
