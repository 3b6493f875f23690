import BerryKeep.DownloadDelivery

/-!
Resumable downloads into a file. What arrives is appended to a temporary file,
a state file says of which content it is the beginning, and the length of the
temporary file is where the next call goes on. A call may end anywhere: every
change of a file is an effect that the fault plan can refuse or cut off.
-/
namespace BerryKeepResumableDownload
open StatefulProgram FaultInjection BerryKeepContentCodec BerryKeepStreamedDownload
  BerryKeepDownloadDelivery

section Model

structure ResumableDownloadFileState where
  key : String
  snapshot : Option String
  version : Option String
  expectedSizeBytes : Nat
  etag : String
  deriving DecidableEq, Repr

/-- The three files. A state file that does not parse is there with the parser's message. -/
structure DownloadFiles where
  target : Option Bytes
  temp : Option Bytes
  state : Option (Except String ResumableDownloadFileState)

/-- The paths of the three files, and what the library makes of a path: its directory, if it has
    one, and the path with the extension `tmp` added. -/
structure DownloadPaths where
  target : String
  temp : String
  state : String
  parent : String → Option String
  withTmpExtension : String → String

/-- The open temporary file; its cursor is always at the end. -/
def tempSink : Sink DownloadFiles where
  append chunk files := { files with temp := files.temp.map (· ++ chunk) }
  append_nil := by
    intro files
    cases files with
    | mk target temp state => cases temp <;> simp
  append_append := by
    intro a b files
    cases files with
    | mk target temp state => cases temp <;> simp

abbrev FilesM := TransferM DownloadFiles

def fileStep (message : String) (change : DownloadFiles → DownloadFiles) : FilesM Unit :=
  effect ⟨message, false⟩ fun transfer => { transfer with sink := change transfer.sink }

section Steps
variable (paths : DownloadPaths)

def createParent (message path : String) : FilesM Unit :=
  match paths.parent path with
  | none => pure ()
  | some parent => fileStep (message ++ parent) id

def removeTemp : FilesM Unit :=
  fileStep ("failed to remove " ++ paths.temp) fun files => { files with temp := none }

def removeState : FilesM Unit :=
  fileStep ("failed to remove " ++ paths.state) fun files => { files with state := none }

def setTempLenZero : FilesM Unit :=
  fileStep ("failed to reset temp file " ++ paths.temp) fun files => { files with temp := some [] }

def placeDownloadedFile : FilesM Unit := do
  createParent paths "failed to create download target directory " paths.target
  fileStep ("failed to replace " ++ paths.target) fun files => { files with target := none }
  fileStep ("failed to place downloaded file " ++ paths.temp ++ " into " ++ paths.target)
    fun files => { files with target := files.temp, temp := none }

def closeDownload : FilesM Unit := do
  fileStep ("failed to flush temp file " ++ paths.temp) id
  placeDownloadedFile paths
  removeState paths

-- An error shows its outermost context, not the message of the parser below it.
def loadState : FilesM (Option ResumableDownloadFileState) := do
  fileStep ("failed to read " ++ paths.state) id
  match (← get).state.sink.state with
  | none => return none
  | some (.ok persisted) => return some persisted
  | some (.error _) => bail ("failed to parse " ++ paths.state)

/-- Drops what a call for another content left behind, if its state file tells. -/
def resetStale (expected_state : ResumableDownloadFileState) : FilesM Unit := do
  let persisted ← loadState paths
  if persisted.any fun persisted => decide (persisted ≠ expected_state) then do
    removeTemp paths
    removeState paths
  else pure ()

def persistState (expected_state : ResumableDownloadFileState) : FilesM Unit := do
  createParent paths "failed to create " paths.state
  fileStep ("failed to write " ++ paths.withTmpExtension paths.state) id
  fileStep ("failed to place transfer state " ++ paths.withTmpExtension paths.state ++ " into " ++
      paths.state)
    fun files => { files with state := some (.ok expected_state) }

def resetOverlong (total_size_bytes length : Nat) : FilesM Nat :=
  if total_size_bytes < length then do
    setTempLenZero paths
    return 0
  else return length

def seekTemp (offset : Nat) : FilesM Nat := do
  fileStep ("failed to seek temp file " ++ paths.temp) id
  if offset = 0 then do
    setTempLenZero paths
    fileStep ("failed to seek temp file " ++ paths.temp) id
    return 0
  else return offset

def openTemp (total_size_bytes : Nat) : FilesM Nat := do
  createParent paths "failed to create temp directory " paths.temp
  createParent paths "failed to create target directory " paths.target
  fileStep ("failed to open temp download file " ++ paths.temp) fun files =>
    { files with temp := some (files.temp.getD []) }
  fileStep ("failed to inspect temp file " ++ paths.temp) id
  let files := (← get).state.sink
  let offset ← resetOverlong paths total_size_bytes (files.temp.getD []).length
  seekTemp paths offset

/-- The segment loop. An empty answer of a server that ignores ranges is asked for again without
    end, so the rounds are given; a call that has used them up has not returned. -/
def resumeLoop (network : Network) (key : String) (total_size_bytes : Nat) (etag : String) :
    Nat → Nat → FilesM Unit
  | 0, offset => if offset < total_size_bytes then throw .crashed else pure ()
  | fuel + 1, offset =>
    if offset < total_size_bytes then do
      let end_inclusive := segmentEnd offset total_size_bytes
      let response ← streamObjectRequestToWriter tempSink network
        ⟨some (offset, end_inclusive), some etag⟩
      if response.status = partialContent then
        if response.bytesWritten ≠ end_inclusive - offset + 1 then
          bail (unexpectedLength key (end_inclusive - offset + 1) response.bytesWritten)
        else do
          fileStep ("failed to persist temp download file " ++ paths.temp) id
          resumeLoop network key total_size_bytes etag fuel (end_inclusive + 1)
      else if response.status = statusOk ∧ offset = 0 then do
        fileStep ("failed to persist temp download file " ++ paths.temp) id
        resumeLoop network key total_size_bytes etag fuel response.bytesWritten
      else bail ("server rejected resumable download for key=" ++ key ++ ": " ++
        toString response.status)
    else pure ()

end Steps

structure Selectors where
  key : String
  snapshot : Option String
  version : Option String
  paths : DownloadPaths

/-- What a call meets: the answer to its HEAD, that to the HEAD of a download without ranges,
    the network, the faults, and how many segments it gets to ask for. -/
structure DownloadCall where
  head : Except String ObjectHeadResponse
  secondHead : Except String ObjectHeadResponse
  network : Network
  plan : List Fault
  rounds : Nat

def downloadFileResumable (selectors : Selectors) (call : DownloadCall) : FilesM Unit :=
  let paths := selectors.paths
  match call.head with
  | .error message => bail message
  | .ok head =>
    if head.totalSizeBytes = 0 then do
      createParent paths "failed to create target directory " paths.target
      fileStep ("failed to write empty object " ++ paths.target) fun files =>
        { files with target := some [] }
      removeTemp paths
      removeState paths
    else if !head.acceptRanges then do
      fileStep ("failed to create temp file " ++ paths.temp) fun files =>
        { files with temp := some [] }
      downloadWithRangeRequests tempSink call.network selectors.key call.secondHead
      closeDownload paths
    else match head.etag with
      | none => bail ("server omitted ETag for resumable download key=" ++ selectors.key)
      | some current_etag => do
        let expected_state : ResumableDownloadFileState :=
          ⟨selectors.key, selectors.snapshot, selectors.version, head.totalSizeBytes, current_etag⟩
        resetStale paths expected_state
        persistState paths expected_state
        let offset ← openTemp paths head.totalSizeBytes
        resumeLoop paths call.network selectors.key head.totalSizeBytes current_etag call.rounds
          offset
        closeDownload paths

/-- A call, at whose HEAD the object had this ETag, or the loss of the state file. -/
inductive DownloadStep where
  | call (call : DownloadCall) (etag : String)
  | loseState

structure DownloadRun where
  files : DownloadFiles
  returned : Option String

def endOfCall (selectors : Selectors) (call : DownloadCall) (files : DownloadFiles) :
    Except (Stop TransferError) Unit × Transfer DownloadFiles :=
  let (outcome, t) := (downloadFileResumable selectors call).run ⟨⟨files, [], []⟩, call.plan⟩
  (outcome, t.state)

def execDownload (selectors : Selectors) (step : DownloadStep) (run : DownloadRun) : DownloadRun :=
  match step with
  | .loseState => ⟨{ run.files with state := none }, none⟩
  | .call call etag =>
    ⟨(endOfCall selectors call run.files).2.sink,
      match (endOfCall selectors call run.files).1 with
      | .ok _ => some etag
      | .error _ => none⟩

end Model

section Conditions
variable (contentOf : String → Bytes)

/-- A partial answer to a request for a range of the content with an ETag carries these bytes of
    it, as far as it gets. -/
def PartialAnswersHonest (network : Network) : Prop :=
  ∀ request round route_id chunks broken start stop etag,
    network.attempt request round route_id = .answered partialContent chunks broken →
    request.range = some (start, stop) → request.ifRange = some etag →
      chunks.flatten <+: ((contentOf etag).drop start).take (stop + 1 - start) ∧
      (broken = none → chunks.flatten = ((contentOf etag).drop start).take (stop + 1 - start))

structure HonestCall (call : DownloadCall) (etag : String) : Prop where
  size : ∀ head, call.head = .ok head → head.totalSizeBytes = (contentOf etag).length
  tag : ∀ head reported, call.head = .ok head → head.etag = some reported → reported = etag
  partly : PartialAnswersHonest contentOf call.network

/-- An answer that may be appended: a partial one, an empty one, or the content as a whole where
    the request started at its beginning. -/
def Appendable (content : Bytes) (report : AttemptReport) : Prop :=
  report.status = partialContent ∨ report.delivered = [] ∨
    (report.status = statusOk ∧ (∀ start stop, report.request.range = some (start, stop) → start = 0) ∧
      report.delivered <+: content ∧ (report.completed = true → report.delivered = content))

def WholeAnswers (call : DownloadCall) (P : Nat → Bytes → Option Bool → Prop) : Prop :=
  ∀ round route_id status chunks broken,
    call.network.attempt ⟨none, none⟩ round route_id = .answered status chunks broken →
      P status chunks.flatten broken

/-- The condition on a call to a server without ranges, by what the call meets and the files
    before it. What it would leave unfinished is the beginning of what the state file names, or
    nothing is sent, or nothing is cut off. -/
structure WholeServed (content : Bytes) (etag : String) (call : DownloadCall)
    (files : DownloadFiles) : Prop where
  again : call.secondHead = call.head ∨ ∃ message, call.secondHead = .error message
  answers : WholeAnswers call fun status body broken =>
    body <+: content ∧ (status = statusOk → broken = none → body = content)
  unfinished : (∃ persisted, files.state = some (.ok persisted) ∧ persisted.etag = etag) ∨
    (WholeAnswers call fun _ body _ => body = []) ∨
    ((∀ fault ∈ call.plan, fault = .none) ∧
      WholeAnswers call fun status body broken => body = [] ∨ (status = statusOk ∧ broken = none))

/-- The condition on a call, by the attempts it made (latest first). -/
structure CleanCall (content : Bytes) (etag : String) (call : DownloadCall)
    (files : DownloadFiles) (reports : List AttemptReport) : Prop where
  last_only : ∀ report ∈ reports.tail, report.completed = false → report.delivered = []
  appendable : ∀ report ∈ reports, Appendable content report
  whole : ∀ head, call.head = .ok head → head.totalSizeBytes ≠ 0 → head.acceptRanges = false →
    WholeServed content etag call files

def CleanStep (selectors : Selectors) (run : DownloadRun) (step : DownloadStep) : Prop :=
  match step with
  | .loseState => run.files.temp = none
  | .call call etag => CleanCall (contentOf etag) etag call run.files
      (endOfCall selectors call run.files).2.reports

def TargetExact (run : DownloadRun) : Prop :=
  ∀ etag, run.returned = some etag → run.files.target = some (contentOf etag)

def Resumable (files : DownloadFiles) : Prop :=
  ∀ bytes, files.temp = some bytes →
    bytes = [] ∨ ∃ persisted, files.state = some (.ok persisted) ∧
      bytes <+: contentOf persisted.etag

end Conditions

section Files
variable {α : Type} {s : Faulty (Transfer DownloadFiles)} {message : String} {paths : DownloadPaths}

theorem ensures_fileStep {change : DownloadFiles → DownloadFiles} {next : Unit → FilesM α}
    {Q : Except (Stop TransferError) α → Faulty (Transfer DownloadFiles) → Prop}
    (before : ∀ error plan, Q (.error error) ⟨s.state, plan⟩)
    (after : ∀ plan, Q (.error .crashed) ⟨{ s.state with sink := change s.state.sink }, plan⟩)
    (rest : ∀ plan, Ensures (next ()) ⟨{ s.state with sink := change s.state.sink }, plan⟩ Q) :
    Ensures (fileStep message change >>= next) s Q := by
  rcases effect_cases (⟨message, false⟩ : TransferError)
      (fun transfer : Transfer DownloadFiles => { transfer with sink := change transfer.sink }) s
    with ⟨plan, run⟩ | ⟨plan, run⟩ | ⟨t, plan, run, cut⟩
  · exact ensures_bind_ok run (rest plan)
  · exact ensures_of_run (bind_run_error run) (before _ plan)
  · apply ensures_of_run (bind_run_error run)
    rcases cut with rfl | rfl
    · exact before _ plan
    · exact after plan

theorem ensures_quietStep {next : Unit → FilesM α}
    {Q : Except (Stop TransferError) α → Faulty (Transfer DownloadFiles) → Prop}
    (stopped : ∀ error plan, Q (.error error) ⟨s.state, plan⟩)
    (rest : ∀ plan, Ensures (next ()) ⟨s.state, plan⟩ Q) :
    Ensures (fileStep message id >>= next) s Q :=
  ensures_fileStep stopped (stopped _) rest

theorem ensures_createParent {next : Unit → FilesM α} {path : String}
    {Q : Except (Stop TransferError) α → Faulty (Transfer DownloadFiles) → Prop}
    (stopped : ∀ error plan, Q (.error error) ⟨s.state, plan⟩)
    (rest : ∀ plan, Ensures (next ()) ⟨s.state, plan⟩ Q) :
    Ensures (createParent paths message path >>= next) s Q := by
  unfold createParent
  split
  · exact ensures_bind_ok (pure_run () s) (rest s.plan)
  · exact ensures_quietStep stopped rest

theorem ensures_lastStep {change : DownloadFiles → DownloadFiles}
    {Q : Except (Stop TransferError) Unit → Faulty (Transfer DownloadFiles) → Prop}
    (before : ∀ error plan, Q (.error error) ⟨s.state, plan⟩)
    (after : ∀ outcome plan, Q outcome ⟨{ s.state with sink := change s.state.sink }, plan⟩) :
    Ensures (fileStep message change) s Q := by
  apply ensures_effect
  · exact after _
  · exact before _
  · intro t plan cut
    rcases cut with rfl | rfl
    · exact before _ plan
    · exact after _ plan

structure Closing (before after : Transfer DownloadFiles) : Prop where
  reports : after.reports = before.reports
  temp : (after.sink.temp = before.sink.temp ∧ after.sink.state = before.sink.state) ∨
    after.sink.temp = none

theorem placeDownloadedFile_ensures (s : Faulty (Transfer DownloadFiles)) :
    Ensures (placeDownloadedFile paths) s fun outcome t => Closing s.state t.state ∧
      (outcome = .ok () → t.state.sink.temp = none ∧
        t.state.sink.target = s.state.sink.temp) := by
  apply ensures_createParent
  · intro error plan
    exact ⟨⟨rfl, .inl ⟨rfl, rfl⟩⟩, fun done => by cases done⟩
  · intro plan
    apply ensures_fileStep
    · intro error plan
      exact ⟨⟨rfl, .inl ⟨rfl, rfl⟩⟩, fun done => by cases done⟩
    · intro plan
      exact ⟨⟨rfl, .inl ⟨rfl, rfl⟩⟩, fun done => by cases done⟩
    · intro plan
      apply ensures_lastStep
      · intro error plan
        exact ⟨⟨rfl, .inl ⟨rfl, rfl⟩⟩, fun done => by cases done⟩
      · intro outcome plan
        exact ⟨⟨rfl, .inr rfl⟩, fun _ => ⟨rfl, rfl⟩⟩

theorem closeDownload_ensures (s : Faulty (Transfer DownloadFiles)) :
    Ensures (closeDownload paths) s fun outcome t => Closing s.state t.state ∧
      (outcome = .ok () → t.state.sink.temp = none ∧
        t.state.sink.target = s.state.sink.temp) := by
  apply ensures_quietStep
  · intro error plan
    exact ⟨⟨rfl, .inl ⟨rfl, rfl⟩⟩, fun done => by cases done⟩
  · intro plan
    apply ensures_bind (placeDownloadedFile_ensures ⟨s.state, plan⟩)
    · rintro _ t ⟨closing, moved⟩
      obtain ⟨gone, target⟩ := moved rfl
      apply ensures_lastStep
      · intro error plan
        exact ⟨closing, fun done => by cases done⟩
      · intro outcome plan
        exact ⟨⟨closing.reports, .inr gone⟩, fun _ => ⟨gone, target⟩⟩
    · rintro error t ⟨closing, _⟩
      exact ⟨closing, fun done => by cases done⟩

theorem ensures_calmStep {change : DownloadFiles → DownloadFiles} {next : Unit → FilesM α}
    {Q : Except (Stop TransferError) α → Faulty (Transfer DownloadFiles) → Prop} (calm : Calm s)
    (rest : ∀ plan, Calm (⟨s.state, plan⟩ : Faulty (Transfer DownloadFiles)) →
      Ensures (next ()) ⟨{ s.state with sink := change s.state.sink }, plan⟩ Q) :
    Ensures (fileStep message change >>= next) s Q := by
  obtain ⟨⟨state, plan⟩, run, same, still⟩ := effect_calm (⟨message, false⟩ : TransferError)
    (fun transfer : Transfer DownloadFiles => { transfer with sink := change transfer.sink }) calm
  subst same
  exact ensures_bind_ok run (rest plan still)

theorem ensures_lastCalm {change : DownloadFiles → DownloadFiles}
    {Q : Except (Stop TransferError) Unit → Faulty (Transfer DownloadFiles) → Prop} (calm : Calm s)
    (after : ∀ t, Calm t → Q (.ok ()) t) : Ensures (fileStep message change) s Q := by
  obtain ⟨t, run, _, still⟩ := effect_calm (⟨message, false⟩ : TransferError)
    (fun transfer : Transfer DownloadFiles => { transfer with sink := change transfer.sink }) calm
  exact ensures_of_run run (after t still)

theorem ensures_calmParent {next : Unit → FilesM α} {path : String}
    {Q : Except (Stop TransferError) α → Faulty (Transfer DownloadFiles) → Prop} (calm : Calm s)
    (rest : ∀ plan, Calm (⟨s.state, plan⟩ : Faulty (Transfer DownloadFiles)) →
      Ensures (next ()) ⟨s.state, plan⟩ Q) :
    Ensures (createParent paths message path >>= next) s Q := by
  unfold createParent
  split
  · exact ensures_bind_ok (pure_run () s) (rest s.plan calm)
  · exact ensures_calmStep calm rest

theorem closeDownload_calm (calm : Calm s) :
    Ensures (closeDownload paths) s fun outcome _ => outcome = .ok () := by
  have placed : ∀ t : Faulty (Transfer DownloadFiles), Calm t →
      Ensures (placeDownloadedFile paths) t fun outcome u => outcome = .ok () ∧ Calm u := by
    intro t calm
    apply ensures_calmParent calm
    intro plan calm
    apply ensures_calmStep calm
    intro plan calm
    apply ensures_lastCalm
    · exact calm
    · intro u still
      exact ⟨rfl, still⟩
  apply ensures_calmStep calm
  intro plan calm
  apply ensures_bind (placed _ calm)
  · rintro _ t ⟨_, calm⟩
    exact ensures_lastCalm calm fun _ _ => rfl
  · rintro error t ⟨done, _⟩
    cases done

end Files

section Opening
variable {contentOf : String → Bytes} {expected : ResumableDownloadFileState}
  {paths : DownloadPaths}

/-- Before the state file is written: whatever is in the temporary file will do. -/
def Usable (content : Bytes) (files : DownloadFiles) : Prop :=
  ∀ bytes, files.temp = some bytes → bytes <+: content

variable {files : DownloadFiles}

theorem usable_of_none (content : Bytes) (temp : files.temp = none) :
    Usable content files := by
  intro bytes there
  rw [temp] at there
  cases there

theorem resumable_of_none (temp : files.temp = none) :
    Resumable contentOf files := by
  intro bytes there
  rw [temp] at there
  cases there

theorem resumable_of_state (state : files.state = some (.ok expected))
    (usable : Usable (contentOf expected.etag) files) : Resumable contentOf files := by
  intro bytes there
  exact .inr ⟨expected, state, usable bytes there⟩

variable {s : Faulty (Transfer DownloadFiles)}

theorem resetStale_ensures (resumable : Resumable contentOf s.state.sink) :
    Ensures (resetStale paths expected) s fun outcome t => t.state.reports = s.state.reports ∧
      Resumable contentOf t.state.sink ∧
      (outcome = .ok () → Usable (contentOf expected.etag) t.state.sink) := by
  have loaded : Ensures (loadState paths) s fun outcome t => t.state = s.state ∧
      ∀ persisted, outcome = .ok persisted → s.state.sink.state = persisted.map .ok := by
    apply ensures_quietStep
    · intro error plan
      exact ⟨rfl, fun _ done => by cases done⟩
    · intro plan
      apply ensures_get
      simp only
      split
      · next missing => exact ⟨rfl, fun _ done => by cases done; exact missing⟩
      · next persisted found => exact ⟨rfl, fun _ done => by cases done; exact found⟩
      · exact ⟨rfl, fun _ done => by cases done⟩
  apply ensures_bind loaded
  · rintro persisted t ⟨same, state⟩
    have found := state persisted rfl
    rw [← same] at resumable found ⊢
    split
    · apply ensures_fileStep
      · intro error plan
        exact ⟨rfl, resumable, fun done => by cases done⟩
      · intro plan
        exact ⟨rfl, resumable_of_none rfl, fun done => by cases done⟩
      · intro plan
        apply ensures_lastStep
        · intro error plan
          exact ⟨rfl, resumable_of_none rfl, fun done => by cases done⟩
        · intro outcome plan
          exact ⟨rfl, resumable_of_none rfl, fun _ => usable_of_none _ rfl⟩
    · next fresh =>
      refine ⟨rfl, resumable, fun _ bytes there => ?_⟩
      rcases resumable bytes there with rfl | ⟨other, written, begins⟩
      · exact List.nil_prefix
      · -- the state file is there, so it is the expected one
        rw [found] at written
        cases persisted with
        | none => cases written
        | some persisted =>
          cases written
          have same_state : other = expected := by simpa using fresh
          rw [← same_state]
          exact begins
  · rintro error t ⟨same, _⟩
    rw [same]
    exact ⟨rfl, resumable, fun done => by cases done⟩

theorem persistState_ensures (resumable : Resumable contentOf s.state.sink)
    (usable : Usable (contentOf expected.etag) s.state.sink) :
    Ensures (persistState paths expected) s fun outcome t => t.state.reports = s.state.reports ∧
      Resumable contentOf t.state.sink ∧
      (outcome = .ok () → t.state.sink.state = some (.ok expected) ∧
        Usable (contentOf expected.etag) t.state.sink) := by
  apply ensures_createParent
  · intro error plan
    exact ⟨rfl, resumable, fun done => by cases done⟩
  · intro plan
    apply ensures_quietStep
    · intro error plan
      exact ⟨rfl, resumable, fun done => by cases done⟩
    · intro plan
      apply ensures_lastStep
      · intro error plan
        exact ⟨rfl, resumable, fun done => by cases done⟩
      · intro outcome plan
        exact ⟨rfl, resumable_of_state rfl usable, fun _ => ⟨rfl, usable⟩⟩

structure Resuming (content : Bytes) (expected : ResumableDownloadFileState) (bytes : Bytes)
    (files : DownloadFiles) : Prop where
  state : files.state = some (.ok expected)
  temp : files.temp = some bytes
  begins : bytes <+: content

variable {bytes : Bytes}

theorem Resuming.resumable (resuming : Resuming (contentOf expected.etag) expected bytes files) :
    Resumable contentOf files := by
  apply resumable_of_state resuming.state
  intro other there
  rw [resuming.temp] at there
  cases there
  exact resuming.begins

structure Reopened (contentOf : String → Bytes) (expected : ResumableDownloadFileState)
    (before : Transfer DownloadFiles) (outcome : Except (Stop TransferError) Nat)
    (after : Transfer DownloadFiles) : Prop where
  reports : after.reports = before.reports
  resumable : Resumable contentOf after.sink
  offset : ∀ offset, outcome = .ok offset → ∃ bytes,
    Resuming (contentOf expected.etag) expected bytes after.sink ∧ bytes.length = offset

theorem reopened_failed {before after : Transfer DownloadFiles} (error : Stop TransferError)
    (reports : after.reports = before.reports) (resumable : Resumable contentOf after.sink) :
    Reopened contentOf expected before (.error error) after :=
  ⟨reports, resumable, fun _ done => by cases done⟩

theorem reopened_at {before after : Transfer DownloadFiles}
    (reports : after.reports = before.reports)
    (resuming : Resuming (contentOf expected.etag) expected bytes after.sink) :
    Reopened contentOf expected before (.ok bytes.length) after := by
  refine ⟨reports, resuming.resumable, fun offset done => ?_⟩
  cases done
  exact ⟨bytes, resuming, rfl⟩

theorem Resuming.emptied {content bytes : Bytes}
    (resuming : Resuming content expected bytes files) :
    Resuming content expected [] { files with temp := some [] } :=
  ⟨resuming.state, rfl, List.nil_prefix⟩

theorem reopened_empty {before : Transfer DownloadFiles}
    (resuming : Resuming (contentOf expected.etag) expected bytes before.sink) :
    Reopened contentOf expected before (.ok 0)
      { before with sink := { before.sink with temp := some [] } } :=
  @reopened_at contentOf expected [] before _ rfl resuming.emptied

theorem resetOverlong_ensures (total_size_bytes : Nat)
    (resuming : Resuming (contentOf expected.etag) expected bytes s.state.sink) :
    Ensures (resetOverlong paths total_size_bytes bytes.length) s fun outcome t =>
      Reopened contentOf expected s.state outcome t.state := by
  unfold resetOverlong
  split
  · apply ensures_fileStep
    · intro error plan
      exact reopened_failed error rfl resuming.resumable
    · intro plan
      exact reopened_failed _ rfl resuming.emptied.resumable
    · intro plan
      exact reopened_empty resuming
  · exact reopened_at rfl resuming

theorem seekTemp_ensures
    (resuming : Resuming (contentOf expected.etag) expected bytes s.state.sink) :
    Ensures (seekTemp paths bytes.length) s fun outcome t =>
      Reopened contentOf expected s.state outcome t.state := by
  unfold seekTemp
  apply ensures_quietStep
  · intro error plan
    exact reopened_failed error rfl resuming.resumable
  · intro plan
    split
    · apply ensures_fileStep
      · intro error plan
        exact reopened_failed error rfl resuming.resumable
      · intro plan
        exact reopened_failed _ rfl resuming.emptied.resumable
      · intro plan
        apply ensures_quietStep
        · intro error plan
          exact reopened_failed error rfl resuming.emptied.resumable
        · intro plan
          exact reopened_empty resuming
    · exact reopened_at rfl resuming

theorem openTemp_ensures (total_size_bytes : Nat) (state : s.state.sink.state = some (.ok expected))
    (usable : Usable (contentOf expected.etag) s.state.sink) :
    Ensures (openTemp paths total_size_bytes) s fun outcome t =>
      Reopened contentOf expected s.state outcome t.state := by
  have before : Resumable contentOf s.state.sink := resumable_of_state state usable
  have opened : Resuming (contentOf expected.etag) expected (s.state.sink.temp.getD [])
      { s.state.sink with temp := some (s.state.sink.temp.getD []) } := by
    refine ⟨state, rfl, ?_⟩
    cases there : s.state.sink.temp with
    | none => exact List.nil_prefix
    | some bytes => exact usable bytes there
  apply ensures_createParent
  · intro error plan
    exact reopened_failed error rfl before
  intro plan
  apply ensures_createParent
  · intro error plan
    exact reopened_failed error rfl before
  intro plan
  apply ensures_fileStep
  · intro error plan
    exact reopened_failed error rfl before
  · intro plan
    exact reopened_failed _ rfl opened.resumable
  intro plan
  apply ensures_quietStep
  · intro error plan
    exact reopened_failed error rfl opened.resumable
  intro plan
  apply ensures_get
  apply ensures_bind (resetOverlong_ensures total_size_bytes opened)
  · intro offset t reached
    obtain ⟨bytes, resuming, rfl⟩ := reached.offset offset rfl
    apply ensures_mono (seekTemp_ensures resuming)
    intro outcome u sought
    exact ⟨sought.reports.trans reached.reports, sought.resumable, sought.offset⟩
  · intro error t reached
    exact reopened_failed error reached.reports reached.resumable

end Opening

section Segments
variable {contentOf : String → Bytes} {network : Network} {etag : String} {content : Bytes}
  {paths : DownloadPaths}

structure CleanReports (content : Bytes) (reports : List AttemptReport) : Prop where
  last_only : ∀ report ∈ reports.tail, report.completed = false → report.delivered = []
  appendable : ∀ report ∈ reports, Appendable content report

theorem bytesOf_quiet {reports : List AttemptReport} (quiet : ∀ r ∈ reports, r.delivered = []) :
    bytesOf reports = [] := by
  rw [bytesOf, List.flatMap_eq_nil_iff]
  intro report listed
  exact quiet report (List.mem_reverse.mp listed)

theorem CleanReports.last_delivers {later earlier old : List AttemptReport} {last : AttemptReport}
    (clean : CleanReports content (later ++ (last :: earlier ++ old)))
    (failed : ∀ r ∈ earlier, r.completed = false) :
    bytesOf (last :: earlier) = last.delivered := by
  have quiet : bytesOf earlier = [] := by
    apply bytesOf_quiet
    intro report listed
    apply clean.last_only report _ (failed report listed)
    cases later with
    | nil => simp [listed]
    | cons first rest => simp [listed]
  rw [bytesOf_cons, quiet, List.nil_append]

theorem CleanReports.last_appendable {later earlier old : List AttemptReport}
    {last : AttemptReport} (clean : CleanReports content (later ++ (last :: earlier ++ old))) :
    Appendable content last :=
  clean.appendable last (by simp)

variable {offset stop : Nat}

theorem take_append_segment (content : Bytes) (low : offset ≤ stop) :
    content.take offset ++ (content.drop offset).take (stop + 1 - offset) =
      content.take (stop + 1) := by
  rw [← List.take_add]
  congr 1
  omega

theorem appendable_continues (honest : PartialAnswersHonest contentOf network)
    {report : AttemptReport} (low : offset ≤ stop)
    (tried : Tried network ⟨some (offset, stop), some etag⟩ report)
    (appendable : Appendable (contentOf etag) report) :
    (contentOf etag).take offset ++ report.delivered <+: contentOf etag ∧
      (report.completed = true → report.status = partialContent →
        (contentOf etag).take offset ++ report.delivered = (contentOf etag).take (stop + 1)) := by
  obtain ⟨asked, round, route_id, chunks, broken, answer, begins, whole⟩ := tried
  by_cases ranged : report.status = partialContent
  · rw [ranged] at answer
    obtain ⟨within, all⟩ := honest _ round route_id chunks broken offset stop etag answer rfl rfl
    rw [← take_append_segment (contentOf etag) low]
    constructor
    · have piece := (List.prefix_append_right_inj ((contentOf etag).take offset)).mpr
        (begins.trans within)
      rw [take_append_segment (contentOf etag) low] at piece
      exact piece.trans (List.take_prefix _ _)
    · intro completed _
      obtain ⟨unbroken, delivered⟩ := whole completed
      rw [delivered, all unbroken]
  · refine ⟨?_, fun _ same => absurd same ranged⟩
    rcases appendable with same | empty | ⟨_, start, piece, _⟩
    · exact absurd same ranged
    · rw [empty, List.append_nil]
      exact List.take_prefix _ _
    · have zero : offset = 0 := start offset stop (by rw [asked])
      rw [zero, List.take_zero, List.nil_append]
      exact piece

variable {expected : ResumableDownloadFileState} {before after : Transfer DownloadFiles}
  {outcome : Except (Stop TransferError) StreamedResponse}

theorem segment_kept (honest : PartialAnswersHonest contentOf network) (low : offset ≤ stop)
    {later : List AttemptReport}
    (streamed : Streamed tempSink network ⟨some (offset, stop), some etag⟩ before outcome after)
    (clean : CleanReports (contentOf etag) (later ++ after.reports))
    (resuming : Resuming (contentOf etag) expected ((contentOf etag).take offset) before.sink) :
    (∃ bytes, Resuming (contentOf etag) expected bytes after.sink) ∧
    ∀ response, outcome = .ok response →
      (response.status = partialContent →
        Resuming (contentOf etag) expected ((contentOf etag).take (stop + 1)) after.sink) ∧
      (response.status = statusOk → offset = 0 →
        Resuming (contentOf etag) expected ((contentOf etag).take response.bytesWritten)
          after.sink) := by
  have appended : ∀ (last : AttemptReport) (earlier : List AttemptReport),
      Attempted tempSink network ⟨some (offset, stop), some etag⟩ before after (last :: earlier) →
      (∀ report ∈ earlier, report.completed = false) →
      Appendable (contentOf etag) last ∧
      Tried network ⟨some (offset, stop), some etag⟩ last ∧
      Resuming (contentOf etag) expected ((contentOf etag).take offset ++ last.delivered)
        after.sink := by
    intro last earlier attempted failed
    rw [attempted.reports] at clean
    have tried := attempted.tried last List.mem_cons_self
    have continues := appendable_continues honest low tried clean.last_appendable
    refine ⟨clean.last_appendable, tried, ?_, ?_, continues.1⟩
    · rw [attempted.written]
      exact resuming.state
    · rw [attempted.written, clean.last_delivers failed]
      simp only [tempSink, resuming.temp, Option.map_some]
  cases outcome with
  | error error =>
    refine ⟨?_, fun _ done => by cases done⟩
    obtain ⟨new, attempted, failed⟩ := streamed
    cases new with
    | nil =>
      have same : after.sink = before.sink := by
        rw [attempted.written]
        exact tempSink.append_nil _
      rw [same]
      exact ⟨_, resuming⟩
    | cons last earlier =>
      have kept := appended last earlier attempted fun report listed =>
        failed report (List.mem_cons_of_mem _ listed)
      exact ⟨_, kept.2.2⟩
  | ok response =>
    obtain ⟨last, earlier, attempted, completed, failed, rfl⟩ := streamed
    obtain ⟨appendable, tried, kept⟩ := appended last earlier attempted failed
    refine ⟨⟨_, kept⟩, fun response done => ?_⟩
    cases done
    constructor
    · intro ranged
      have continues := appendable_continues honest low tried appendable
      rw [← continues.2 completed ranged]
      exact kept
    · intro full zero
      rw [zero, List.take_zero, List.nil_append] at kept
      rcases appendable with ranged | empty | ⟨_, _, _, whole⟩
      · exact absurd (ranged.symm.trans full) (by decide)
      · rw [empty] at kept ⊢
        exact kept
      · rw [whole completed] at kept ⊢
        rw [List.take_length]
        exact kept

/-- What the rounds from an offset on did, judged by the attempts of the whole call. -/
def LoopKeeps (content : Bytes) (expected : ResumableDownloadFileState) (offset : Nat)
    (before : Transfer DownloadFiles) (outcome : Except (Stop TransferError) Unit)
    (after : Transfer DownloadFiles) : Prop :=
  ∃ later, after.reports = later ++ before.reports ∧
    ∀ beyond, CleanReports content (beyond ++ after.reports) →
      Resuming content expected (content.take offset) before.sink →
      ∃ bytes, Resuming content expected bytes after.sink ∧ (outcome = .ok () → bytes = content)

theorem streamed_reports {sink : Sink DownloadFiles} {request : ObjectRequest}
    (streamed : Streamed sink network request before outcome after) :
    ∃ new, after.reports = new ++ before.reports := by
  cases outcome with
  | error error =>
    obtain ⟨new, attempted, _⟩ := streamed
    exact ⟨new, attempted.reports⟩
  | ok response =>
    obtain ⟨last, earlier, attempted, _⟩ := streamed
    exact ⟨last :: earlier, attempted.reports⟩

theorem loopKeeps_stopped (honest : PartialAnswersHonest contentOf network) (low : offset ≤ stop)
    (streamed : Streamed tempSink network ⟨some (offset, stop), some etag⟩ before outcome after)
    (error : Stop TransferError) :
    LoopKeeps (contentOf etag) expected offset before (.error error) after := by
  obtain ⟨new, reports⟩ := streamed_reports streamed
  refine ⟨new, reports, fun beyond clean resuming => ?_⟩
  obtain ⟨bytes, kept⟩ := (segment_kept honest low streamed clean resuming).1
  exact ⟨bytes, kept, fun done => by cases done⟩

theorem loopKeeps_next (honest : PartialAnswersHonest contentOf network)
    {offset stop next : Nat} (low : offset ≤ stop)
    {a b c : Transfer DownloadFiles} {response : StreamedResponse}
    {outcome : Except (Stop TransferError) Unit}
    (streamed : Streamed tempSink network ⟨some (offset, stop), some etag⟩ a (.ok response) b)
    (reached : (response.status = partialContent ∧ next = stop + 1) ∨
      (response.status = statusOk ∧ offset = 0 ∧ next = response.bytesWritten))
    (rest : LoopKeeps (contentOf etag) expected next b outcome c) :
    LoopKeeps (contentOf etag) expected offset a outcome c := by
  obtain ⟨new, reports⟩ := streamed_reports streamed
  obtain ⟨later, more, keeps⟩ := rest
  refine ⟨later ++ new, by rw [more, reports, List.append_assoc], fun beyond clean resuming => ?_⟩
  apply keeps beyond clean
  rw [more, ← List.append_assoc] at clean
  have kept := (segment_kept honest low streamed clean resuming).2 response rfl
  rcases reached with ⟨ranged, rfl⟩ | ⟨full, zero, rfl⟩
  · exact kept.1 ranged
  · exact kept.2 full zero

theorem resumeLoop_ensures (honest : PartialAnswersHonest contentOf network) {key : String}
    (fuel : Nat) :
    ∀ (offset : Nat) (s : Faulty (Transfer DownloadFiles)),
      Ensures (resumeLoop paths network key (contentOf etag).length etag fuel offset) s fun outcome t =>
        LoopKeeps (contentOf etag) expected offset s.state outcome t.state := by
  have reached : ∀ (offset : Nat) (transfer : Transfer DownloadFiles),
      (contentOf etag).length ≤ offset →
      LoopKeeps (contentOf etag) expected offset transfer (.ok ()) transfer := by
    intro offset transfer outside
    exact ⟨[], rfl, fun _ _ resuming => ⟨_, resuming, fun _ => List.take_of_length_le outside⟩⟩
  induction fuel with
  | zero =>
    intro offset s
    rw [resumeLoop]
    split
    · exact ⟨[], rfl, fun _ _ resuming => ⟨_, resuming, fun done => by cases done⟩⟩
    · next outside => exact reached offset s.state (by omega)
  | succ fuel ih =>
    intro offset s
    rw [resumeLoop]
    split
    · next inside =>
      obtain ⟨low, high⟩ := segmentEnd_bounds inside
      apply ensures_bind (streamObject_ensures _ s)
      · intro response t streamed
        have stopped := @loopKeeps_stopped _ _ _ _ _ expected _ _ _ honest low streamed
        split
        · next ranged =>
          split
          · exact stopped _
          · apply ensures_quietStep
            · intro error plan
              exact stopped error
            · intro plan
              apply ensures_mono (ih _ ⟨t.state, plan⟩)
              intro outcome u rest
              exact loopKeeps_next honest low streamed (.inl ⟨ranged, rfl⟩) rest
        · split
          · next accepted =>
            apply ensures_quietStep
            · intro error plan
              exact stopped error
            · intro plan
              apply ensures_mono (ih _ ⟨t.state, plan⟩)
              intro outcome u rest
              exact loopKeeps_next honest low streamed (.inr ⟨accepted.1, accepted.2, rfl⟩) rest
          · exact stopped _
      · intro error t streamed
        exact loopKeeps_stopped honest low streamed error
    · next outside => exact reached offset s.state (by omega)

end Segments

section Calls
variable {contentOf : String → Bytes} {etag : String} {call : DownloadCall} {selectors : Selectors}
  {paths : DownloadPaths}

/-- How a call ends: ready for the next one, and with the content in place if it succeeded. -/
def Ends (contentOf : String → Bytes) (etag : String) (outcome : Except (Stop TransferError) Unit)
    (files : DownloadFiles) : Prop :=
  Resumable contentOf files ∧ (outcome = .ok () → files.target = some (contentOf etag))

theorem ends_failed {files : DownloadFiles} (error : Stop TransferError)
    (resumable : Resumable contentOf files) : Ends contentOf etag (.error error) files :=
  ⟨resumable, fun done => by cases done⟩

theorem Closing.resumable {before after : Transfer DownloadFiles} (closing : Closing before after)
    (resumable : Resumable contentOf before.sink) : Resumable contentOf after.sink := by
  rcases closing.temp with ⟨temp, state⟩ | gone
  · intro bytes there
    rw [state]
    exact resumable bytes (temp.symm.trans there)
  · exact resumable_of_none gone

theorem rangedCall_ensures (honest : PartialAnswersHonest contentOf call.network)
    {expected : ResumableDownloadFileState} (tag : expected.etag = etag)
    {s : Faulty (Transfer DownloadFiles)} (resumable : Resumable contentOf s.state.sink) :
    Ensures (do
        resetStale paths expected
        persistState paths expected
        let offset ← openTemp paths (contentOf etag).length
        resumeLoop paths call.network selectors.key (contentOf etag).length etag call.rounds offset
        closeDownload paths) s
      fun outcome t => CleanReports (contentOf etag) t.state.reports →
        Ends contentOf etag outcome t.state.sink := by
  subst tag
  apply ensures_bind (resetStale_ensures resumable)
  · rintro _ t ⟨_, kept, usable⟩
    apply ensures_bind (persistState_ensures kept (usable rfl))
    · rintro _ u ⟨_, kept, persisted⟩
      obtain ⟨state, usable⟩ := persisted rfl
      apply ensures_bind (openTemp_ensures _ state usable)
      · intro offset v reopened
        obtain ⟨bytes, resuming, rfl⟩ := reopened.offset offset rfl
        have start := resuming
        rw [List.prefix_iff_eq_take.mp resuming.begins] at start
        have loop := @resumeLoop_ensures contentOf call.network expected.etag paths expected honest
          selectors.key call.rounds bytes.length v
        apply ensures_bind loop
        · rintro _ w ⟨later, reports, keeps⟩
          apply ensures_mono (closeDownload_ensures w)
          rintro outcome x ⟨closing, placed⟩ clean
          rw [closing.reports] at clean
          obtain ⟨found, kept, whole⟩ := keeps [] clean start
          refine ⟨closing.resumable kept.resumable, fun done => ?_⟩
          rw [(placed done).2, kept.temp, whole rfl]
        · rintro error w ⟨later, reports, keeps⟩ clean
          obtain ⟨found, kept, _⟩ := keeps [] clean start
          exact ends_failed error kept.resumable
      · intro error v reopened _
        exact ends_failed error reopened.resumable
    · rintro error u ⟨_, kept, _⟩ _
      exact ends_failed error kept
  · rintro error t ⟨_, kept, _⟩ _
    exact ends_failed error kept

structure WholeRequested (network : Network) (before : Transfer DownloadFiles)
    (outcome : Except (Stop TransferError) Unit) (after : Transfer DownloadFiles)
    (new : List AttemptReport) : Prop where
  reports : after.reports = new ++ before.reports
  written : after.sink = tempSink.append (bytesOf new) before.sink
  tried : ∀ report ∈ new, Tried network ⟨none, none⟩ report
  failed : ∀ report ∈ new.tail, report.completed = false
  accepted : outcome = .ok () → ∃ last earlier, new = last :: earlier ∧ last.completed = true ∧
    last.status = statusOk
  rejected : ∀ error, outcome = .error error → ∀ report ∈ new, report.completed = true →
    report.status ≠ statusOk

theorem wholeRequest_ensures {network : Network} {key : String} {head : ObjectHeadResponse}
    (large : head.totalSizeBytes ≠ 0) (whole : head.acceptRanges = false)
    (s : Faulty (Transfer DownloadFiles)) :
    Ensures (downloadWithRangeRequests tempSink network key (.ok head)) s fun outcome t =>
      ∃ new, WholeRequested network s.state outcome t.state new := by
  unfold downloadWithRangeRequests
  simp only [large, whole, if_false, Bool.not_false, if_true]
  apply ensures_bind (streamObject_ensures _ s)
  · rintro response t ⟨last, earlier, attempted, completed, failed, rfl⟩
    split
    · next refused =>
      refine ⟨last :: earlier, attempted.reports, attempted.written, attempted.tried, failed,
        ?_, ?_⟩
      · intro done
        cases done
      intro _ _ report listed done
      rcases List.mem_cons.mp listed with rfl | before
      · exact refused
      · exact absurd done (by simp [failed report before])
    · next served =>
      refine ⟨last :: earlier, attempted.reports, attempted.written, attempted.tried, failed,
        ?_, ?_⟩
      · intro _
        exact ⟨last, earlier, rfl, completed, not_not.mp served⟩
      · intro _ done
        cases done
  · rintro error t ⟨new, attempted, failed⟩
    refine ⟨new, attempted.reports, attempted.written, attempted.tried,
      fun report listed => failed report (List.mem_of_mem_tail listed), ?_, ?_⟩
    · intro done
      cases done
    · intro _ _ report listed done
      exact absurd done (by simp [failed report listed])

theorem tried_answer {P : Nat → Bytes → Option Bool → Prop} (answers : WholeAnswers call P)
    {report : AttemptReport} (tried : Tried call.network ⟨none, none⟩ report) :
    ∃ body broken, P report.status body broken ∧ report.delivered <+: body ∧
      (report.completed = true → broken = none ∧ report.delivered = body) := by
  obtain ⟨_, round, route_id, chunks, broken, answer, begins, all⟩ := tried
  exact ⟨_, broken, answers round route_id report.status chunks broken answer, begins, all⟩

section Whole
variable {files : DownloadFiles} {new : List AttemptReport} {after : Transfer DownloadFiles}
  {outcome : Except (Stop TransferError) Unit}

theorem WholeRequested.delivers
    (requested : WholeRequested call.network ⟨{ files with temp := some [] }, [], []⟩ outcome after new)
    (served : WholeServed (contentOf etag) etag call files)
    (clean : CleanReports (contentOf etag) new) :
    bytesOf new <+: contentOf etag ∧ (outcome = .ok () → bytesOf new = contentOf etag) := by
  cases new with
  | nil =>
    refine ⟨List.nil_prefix, fun done => ?_⟩
    obtain ⟨last, earlier, none_made, _⟩ := requested.accepted done
    cases none_made
  | cons last earlier =>
    have only : CleanReports (contentOf etag) ([] ++ (last :: earlier ++ [])) := by simpa using clean
    have quiet := only.last_delivers requested.failed
    obtain ⟨body, broken, ⟨begins, whole⟩, sent, all⟩ :=
      tried_answer served.answers (requested.tried last List.mem_cons_self)
    rw [quiet]
    refine ⟨sent.trans begins, fun done => ?_⟩
    obtain ⟨first, _, same, completed, status⟩ := requested.accepted done
    cases same
    obtain ⟨unbroken, delivered⟩ := all completed
    rw [delivered, whole status unbroken]

theorem WholeRequested.temp
    (requested : WholeRequested call.network ⟨{ files with temp := some [] }, [], []⟩ outcome after new) :
    after.sink = { files with temp := some (bytesOf new) } := by
  rw [requested.written]
  simp [tempSink]

theorem resumable_of_empty (temp : files.temp = some []) : Resumable contentOf files := by
  intro bytes there
  rw [temp] at there
  cases there
  exact .inl rfl

theorem WholeRequested.resumable
    (requested : WholeRequested call.network ⟨{ files with temp := some [] }, [], []⟩ outcome after new)
    (begins : bytesOf new <+: contentOf etag)
    (left : (∃ persisted, files.state = some (.ok persisted) ∧ persisted.etag = etag) ∨
      bytesOf new = []) : Resumable contentOf after.sink := by
  rw [requested.temp]
  rcases left with ⟨persisted, state, rfl⟩ | empty
  · intro bytes there
    cases there
    exact .inr ⟨persisted, state, begins⟩
  · rw [empty]
    exact resumable_of_empty rfl

theorem wholeRequest_calm {key : String} {head : ObjectHeadResponse}
    (large : head.totalSizeBytes ≠ 0) (whole : head.acceptRanges = false)
    (unbroken : WholeAnswers call fun status body broken =>
      body = [] ∨ (status = statusOk ∧ broken = none))
    {s : Faulty (Transfer DownloadFiles)} (calm : Calm s) :
    Ensures (downloadWithRangeRequests tempSink call.network key (.ok head)) s
      fun _ t => CalmlyTried s.state t := by
  unfold downloadWithRangeRequests
  simp only [large, whole, if_false, Bool.not_false, if_true]
  have streamed : Ensures (streamObjectRequestToWriter tempSink call.network ⟨none, none⟩) s
      fun _ t => CalmlyTried s.state t := streamObject_calm
    (fun round route_id status chunks broken answer =>
      (unbroken round route_id status chunks broken answer).imp_right And.right) calm
  apply ensures_bind streamed
  · intro response t tried
    split
    · exact tried
    · exact tried
  · intro error t tried
    exact tried

-- Without faults only a completed answer with another status delivers before a failure, and
-- there is none that delivers.
theorem WholeRequested.nothing_left {error : Stop TransferError} {t : Faulty (Transfer DownloadFiles)}
    (requested : WholeRequested call.network ⟨{ files with temp := some [] }, [], []⟩
      (.error error) t.state new)
    (unbroken : WholeAnswers call fun status body broken =>
      body = [] ∨ (status = statusOk ∧ broken = none))
    (calmly : CalmlyTried ⟨{ files with temp := some [] }, [], []⟩ t) : bytesOf new = [] := by
  obtain ⟨_, others, reports, clean⟩ := calmly
  have same : new = others := by simpa [requested.reports] using reports
  subst same
  apply bytesOf_quiet
  intro report listed
  cases done : report.completed with
  | false => exact clean report listed done
  | true =>
    obtain ⟨body, broken, answer, sent, _⟩ := tried_answer unbroken (requested.tried report listed)
    have empty := answer.resolve_right fun both => requested.rejected error rfl report listed done both.1
    rw [empty] at sent
    exact List.prefix_nil.mp sent

theorem WholeRequested.nothing_sent {before : Transfer DownloadFiles}
    (requested : WholeRequested call.network before outcome after new)
    (nothing : WholeAnswers call fun _ body _ => body = []) : bytesOf new = [] := by
  apply bytesOf_quiet
  intro report listed
  obtain ⟨body, _, empty, sent, _⟩ := tried_answer nothing (requested.tried report listed)
  rw [empty] at sent
  exact List.prefix_nil.mp sent

theorem wholeBody_ensures {head : ObjectHeadResponse} (large : head.totalSizeBytes ≠ 0)
    (whole : head.acceptRanges = false) (served : WholeServed (contentOf etag) etag call files)
    (plan : List Fault)
    (unfinished : (∃ persisted, files.state = some (.ok persisted) ∧ persisted.etag = etag) ∨
      (WholeAnswers call fun _ body _ => body = []) ∨
      ((∀ fault ∈ plan, fault = .none) ∧ WholeAnswers call fun status body broken =>
        body = [] ∨ (status = statusOk ∧ broken = none))) :
    Ensures (do
        downloadWithRangeRequests tempSink call.network selectors.key (.ok head)
        closeDownload paths) ⟨⟨{ files with temp := some [] }, [], []⟩, plan⟩
      fun outcome t => CleanReports (contentOf etag) t.state.reports →
        Ends contentOf etag outcome t.state.sink := by
  apply ensures_bind (ensures_and (wholeRequest_ensures large whole _) (ensures_when fun unbroken =>
    ensures_when fun calm => @wholeRequest_calm call _ _ large whole unbroken _ calm))
  · rintro _ t ⟨⟨new, requested⟩, tried⟩
    apply ensures_mono (ensures_and (closeDownload_ensures t) (ensures_when closeDownload_calm))
    rintro outcome u ⟨⟨closing, placed⟩, finished⟩ clean
    rw [closing.reports, requested.reports, List.append_nil] at clean
    obtain ⟨begins, all⟩ := requested.delivers served clean
    cases outcome with
    | ok _ =>
      obtain ⟨gone, target⟩ := placed rfl
      refine ⟨resumable_of_none gone, fun _ => ?_⟩
      rw [target, requested.temp, all rfl]
    | error error =>
      apply ends_failed
      apply closing.resumable
      apply requested.resumable begins
      rcases unfinished with named | nothing | ⟨calm, unbroken⟩
      · exact .inl named
      · exact .inr (requested.nothing_sent nothing)
      · cases finished (tried unbroken calm).1
  · rintro error t ⟨⟨new, requested⟩, tried⟩ clean
    rw [requested.reports, List.append_nil] at clean
    apply ends_failed
    apply requested.resumable (requested.delivers served clean).1
    rcases unfinished with named | nothing | ⟨calm, unbroken⟩
    · exact .inl named
    · exact .inr (requested.nothing_sent nothing)
    · exact .inr (requested.nothing_left unbroken (tried unbroken calm))

theorem emptiedTemp_ensures (resumable : Resumable contentOf files) {next : FilesM Unit}
    {plan : List Fault} (rest : ∀ plan, Ensures next ⟨⟨{ files with temp := some [] }, [], []⟩, plan⟩
      fun outcome t => CleanReports (contentOf etag) t.state.reports →
        Ends contentOf etag outcome t.state.sink) :
    Ensures (do
        fileStep ("failed to create temp file " ++ paths.temp) fun files =>
          { files with temp := some [] }
        next) ⟨⟨files, [], []⟩, plan⟩
      fun outcome t => CleanReports (contentOf etag) t.state.reports →
        Ends contentOf etag outcome t.state.sink := by
  apply ensures_fileStep
  · intro error plan _
    exact ends_failed error resumable
  · intro plan _
    exact ends_failed _ (resumable_of_empty rfl)
  · exact rest

theorem wholeCall_ensures {head : ObjectHeadResponse} (large : head.totalSizeBytes ≠ 0)
    (whole : head.acceptRanges = false) (found : call.head = .ok head)
    (resumable : Resumable contentOf files)
    (served : WholeServed (contentOf etag) etag call files) :
    Ensures (do
        fileStep ("failed to create temp file " ++ paths.temp) fun files =>
          { files with temp := some [] }
        downloadWithRangeRequests tempSink call.network selectors.key call.secondHead
        closeDownload paths) ⟨⟨files, [], []⟩, call.plan⟩
      fun outcome t => CleanReports (contentOf etag) t.state.reports →
        Ends contentOf etag outcome t.state.sink := by
  rcases served.again with again | ⟨message, again⟩
  · rw [again, found]
    have body := @wholeBody_ensures contentOf etag call selectors paths files head large whole served
    rcases or_assoc.mpr served.unfinished with left | ⟨calm, unbroken⟩
    · exact emptiedTemp_ensures resumable fun plan => body plan (left.imp_right .inl)
    · apply ensures_calmStep
      · exact calm
      · intro plan still
        exact body plan (.inr (.inr ⟨still, unbroken⟩))
  · rw [again]
    apply emptiedTemp_ensures resumable
    intro plan _
    exact ends_failed _ (resumable_of_empty rfl)

end Whole

theorem emptyCall_ensures {s : Faulty (Transfer DownloadFiles)} (empty : contentOf etag = [])
    (resumable : Resumable contentOf s.state.sink) :
    Ensures (do
        createParent paths "failed to create target directory " paths.target
        fileStep ("failed to write empty object " ++ paths.target) fun files =>
          { files with target := some [] }
        removeTemp paths
        removeState paths) s
      fun outcome t => Ends contentOf etag outcome t.state.sink := by
  apply ensures_createParent
  · intro error plan
    exact ends_failed error resumable
  intro plan
  apply ensures_fileStep
  · intro error plan
    exact ends_failed error resumable
  · intro plan
    exact ends_failed _ resumable
  intro plan
  apply ensures_fileStep
  · intro error plan
    exact ends_failed error resumable
  · intro plan
    exact ends_failed _ (resumable_of_none rfl)
  intro plan
  apply ensures_lastStep
  · intro error plan
    exact ends_failed error (resumable_of_none rfl)
  · intro outcome plan
    refine ⟨resumable_of_none rfl, fun _ => ?_⟩
    rw [empty]

theorem downloadFileResumable_ensures (honest : HonestCall contentOf call etag)
    (files : DownloadFiles) (resumable : Resumable contentOf files) :
    Ensures (downloadFileResumable selectors call) ⟨⟨files, [], []⟩, call.plan⟩ fun outcome t =>
      CleanCall (contentOf etag) etag call files t.state.reports →
        Ends contentOf etag outcome t.state.sink := by
  unfold downloadFileResumable
  dsimp only
  split
  · intro _
    exact ends_failed _ resumable
  · next head found =>
    have size := honest.size head found
    split
    · next empty =>
      apply ensures_mono (emptyCall_ensures (List.length_eq_zero_iff.mp (size.symm.trans empty))
        resumable)
      intro outcome t ended _
      exact ended
    · next large =>
      split
      · next unranged =>
        have whole : head.acceptRanges = false := by simpa using unranged
        intro clean
        exact wholeCall_ensures large whole found resumable (clean.whole head found large whole)
          ⟨clean.last_only, clean.appendable⟩
      · split
        · intro _
          exact ends_failed _ resumable
        · next current_etag reported =>
          have tag := honest.tag head current_etag found reported
          subst tag
          rw [size]
          apply ensures_mono (rangedCall_ensures honest.partly rfl resumable)
          intro outcome t ended clean
          exact ended ⟨clean.last_only, clean.appendable⟩

end Calls

def freshRun (target : Option Bytes) : DownloadRun := ⟨⟨target, none, none⟩, none⟩

def ReadyToResume (contentOf : String → Bytes) (run : DownloadRun) : Prop :=
  Resumable contentOf run.files ∧ TargetExact contentOf run

theorem cleanStep_keeps {contentOf : String → Bytes} {selectors : Selectors} {run : DownloadRun}
    {step : DownloadStep}
    (honest : ∀ call etag, step = .call call etag → HonestCall contentOf call etag)
    (clean : CleanStep contentOf selectors run step) (ready : ReadyToResume contentOf run) :
    ReadyToResume contentOf (execDownload selectors step run) := by
  cases step with
  | loseState => exact ⟨resumable_of_none clean, fun etag returned => by cases returned⟩
  | call call etag =>
    obtain ⟨resumable, target⟩ := downloadFileResumable_ensures (honest call etag rfl) run.files
      ready.1 clean
    refine ⟨resumable, fun current returned => ?_⟩
    unfold execDownload at returned
    simp only at returned
    split at returned
    · next succeeded =>
      cases returned
      exact target succeeded
    · cases returned

/-- In every run whose steps are clean, a call that has just returned with success left exactly
    the content of its HEAD in the target file. -/
theorem resumed_download_exact (contentOf : String → Bytes) (selectors : Selectors)
    (target : Option Bytes) (steps : List DownloadStep)
    (honest : ∀ call etag, .call call etag ∈ steps → HonestCall contentOf call etag)
    (clean : AllSteps (execDownload selectors) (CleanStep contentOf selectors) (freshRun target)
      steps) :
    ∀ done, done <+: steps →
      TargetExact contentOf (runAll (execDownload selectors) (freshRun target) done) := by
  rintro done ⟨rest, rfl⟩
  have start : ReadyToResume contentOf (freshRun target) :=
    ⟨resumable_of_none rfl, fun etag returned => by cases returned⟩
  have kept := run_invariant_of
    (fun step => ∀ call etag, step = .call call etag → HonestCall contentOf call etag)
    (ReadyToResume contentOf) (fun _ _ honest clean ready => cleanStep_keeps honest clean ready)
    done (freshRun target)
    (fun step listed call etag same => honest call etag (by simp [← same, listed]))
    ((allSteps_append done rest _).mp clean).1 start
  exact kept.2

section Example

def oneRoute (answer : ObjectRequest → Attempt) : Network where
  planned _ := .ok ["only"]
  admission _ _ _ := .available
  attempt request _ _ := answer request

def byteByByte (content : Bytes) (request : ObjectRequest) : Attempt :=
  match request.range with
  | none => .answered statusOk [content] none
  | some (start, stop) =>
    .answered partialContent (((content.drop start).take (stop + 1 - start)).map fun b => [b]) none

def unavailable (_ : ObjectRequest) : Attempt := .answered 503 [[9]] none

theorem flatten_singletons (bytes : Bytes) : (bytes.map fun b => [b]).flatten = bytes := by
  induction bytes with
  | nil => rfl
  | cons b rest ih => simp [ih]

theorem byteByByte_honest (content : Bytes) :
    PartialAnswersHonest (fun _ => content) (oneRoute (byteByByte content)) := by
  intro request round route_id chunks broken start stop etag answer ranged _
  simp only [oneRoute, byteByByte, ranged, Attempt.answered.injEq] at answer
  obtain ⟨_, rfl, rfl⟩ := answer
  rw [flatten_singletons]
  exact ⟨List.prefix_refl _, fun _ => rfl⟩

theorem unavailable_honest (contentOf : String → Bytes) :
    PartialAnswersHonest contentOf (oneRoute unavailable) := by
  intro request round route_id chunks broken start stop etag answer
  simp [oneRoute, unavailable, partialContent] at answer

def threeBytesCall (answer : ObjectRequest → Attempt) (plan : List Fault) : DownloadCall :=
  ⟨threeBytesHead, threeBytesHead, oneRoute answer, plan, 3⟩

theorem threeBytesCall_honest {answer : ObjectRequest → Attempt} (plan : List Fault)
    (partly : PartialAnswersHonest (fun _ => threeBytes) (oneRoute answer)) :
    HonestCall (fun _ => threeBytes) (threeBytesCall answer plan) "etag" where
  size := by intro head same; cases same; rfl
  tag := by intro head reported same tag; cases same; cases tag; rfl
  partly := partly

def threeBytesKey : Selectors where
  key := "key"
  snapshot := none
  version := none
  paths := ⟨"d/f", "d/f.part", "d/f.json", fun _ => some "d", fun path => path ++ ".tmp"⟩

/-- The body of an error answer becomes the beginning of the object. -/
theorem error_body_resumed :
    HonestCall (fun _ => threeBytes) (threeBytesCall unavailable []) "etag" ∧
      HonestCall (fun _ => threeBytes) (threeBytesCall (byteByByte threeBytes) []) "etag" ∧
      (runAll (execDownload threeBytesKey) (freshRun none)
        [.call (threeBytesCall unavailable []) "etag",
          .call (threeBytesCall (byteByByte threeBytes) []) "etag"]).returned = some "etag" ∧
      (runAll (execDownload threeBytesKey) (freshRun none)
        [.call (threeBytesCall unavailable []) "etag",
          .call (threeBytesCall (byteByByte threeBytes) []) "etag"]).files.target =
        some [9, 2, 3] :=
  ⟨threeBytesCall_honest [] (unavailable_honest _),
    threeBytesCall_honest [] (byteByByte_honest threeBytes), by decide +kernel, by decide +kernel⟩

def unrangedHead : Except String ObjectHeadResponse := .ok ⟨3, some "etag", false⟩

def unrangedCall : DownloadCall :=
  ⟨unrangedHead, unrangedHead, oneRoute (byteByByte threeBytes), [], 0⟩

/-- The process ends after the first byte, a second call goes on from there, and a third one
    meets a server without ranges. -/
def interruptedTwice : List DownloadStep :=
  [.call (threeBytesCall (byteByByte threeBytes) (List.replicate 12 .none ++ [.crashBefore]))
      "etag",
    .call (threeBytesCall (byteByByte threeBytes) []) "etag",
    .call unrangedCall "etag"]

theorem unrangedCall_honest : HonestCall (fun _ => threeBytes) unrangedCall "etag" where
  size := by intro head same; cases same; rfl
  tag := by intro head reported same tag; cases same; cases tag; rfl
  partly := byteByByte_honest threeBytes

theorem cleanCall_of_ranged {content : Bytes} {answer : ObjectRequest → Attempt}
    {plan : List Fault} {files : DownloadFiles} {report : AttemptReport}
    (ranged : report.status = partialContent) :
    CleanCall content "etag" (threeBytesCall answer plan) files [report] where
  last_only := by intro _ listed; cases listed
  appendable := by
    intro other listed
    rw [List.mem_singleton.mp listed]
    exact .inl ranged
  whole := by intro head same _ none_accepted; cases same; cases none_accepted

theorem unrangedCall_served (files : DownloadFiles) :
    WholeServed threeBytes "etag" unrangedCall files := by
  have answers : ∀ {P : Nat → Bytes → Option Bool → Prop}, P statusOk threeBytes none →
      WholeAnswers unrangedCall P := by
    intro P holds round route_id status chunks broken answer
    cases answer
    exact holds
  exact ⟨.inl rfl, answers ⟨List.prefix_refl _, fun _ _ => rfl⟩,
    .inr (.inr ⟨fun _ listed => (by cases listed), answers (.inr ⟨rfl, rfl⟩)⟩)⟩

theorem cleanCall_of_unranged (files : DownloadFiles) :
    CleanCall threeBytes "etag" unrangedCall files [⟨⟨none, none⟩, statusOk, threeBytes, true⟩] where
  last_only := by intro _ listed; cases listed
  appendable := by
    intro other listed
    rw [List.mem_singleton.mp listed]
    exact .inr (.inr ⟨rfl, fun _ _ ranged => (by cases ranged), List.prefix_refl _, fun _ => rfl⟩)
  whole := fun _ _ _ _ => unrangedCall_served files

theorem interruptedTwice_clean :
    AllSteps (execDownload threeBytesKey) (CleanStep (fun _ => threeBytes) threeBytesKey)
      (freshRun none) interruptedTwice :=
  ⟨cleanCall_of_ranged rfl, cleanCall_of_ranged rfl, cleanCall_of_unranged _, trivial⟩

theorem interrupted_download_completes :
    (runAll (execDownload threeBytesKey) (freshRun none) interruptedTwice).returned =
        some "etag" ∧
      (runAll (execDownload threeBytesKey) (freshRun none) interruptedTwice).files.target =
        some threeBytes := by
  have returned : (runAll (execDownload threeBytesKey) (freshRun none)
      interruptedTwice).returned = some "etag" := by decide +kernel
  have exactness := resumed_download_exact (fun _ => threeBytes) threeBytesKey none
    interruptedTwice
    (by
      intro call etag listed
      simp only [interruptedTwice, List.mem_cons, DownloadStep.call.injEq, List.not_mem_nil,
        or_false] at listed
      rcases listed with ⟨rfl, rfl⟩ | ⟨rfl, rfl⟩ | ⟨rfl, rfl⟩
      · exact threeBytesCall_honest _ (byteByByte_honest threeBytes)
      · exact threeBytesCall_honest _ (byteByByte_honest threeBytes)
      · exact unrangedCall_honest)
    interruptedTwice_clean interruptedTwice (List.prefix_refl _)
  exact ⟨returned, exactness "etag" returned⟩

end Example

end BerryKeepResumableDownload
