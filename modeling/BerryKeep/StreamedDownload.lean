import BerryKeep.ContentCodec
import BerryKeep.FaultInjection
import Mathlib.Data.List.MinMax

/-!
Streamed object reads. A request is tried on one route after the other, and
every response body is written to the caller's writer chunk by chunk while it
arrives; what a failed attempt wrote stays there. The downloads below ask for
the object in segments. A writer is anything that bytes can be appended to.
Beside the writer a transfer keeps a report of each attempt, latest first, with
the bytes it delivered; nothing is decided by the reports. A fault plan says
which writes are refused and where the future is dropped or the process ends.
-/
namespace BerryKeepStreamedDownload
open StatefulProgram FaultInjection BerryKeepContentCodec

section Routes

abbrev RouteId := String

inductive RouteAdmission where
  | available
  | coolingUntil (until_unix_ms : Nat)
  | missing
  deriving DecidableEq, Repr

inductive AttemptDisposition where
  | accept
  | retryNextRoute
  | stop
  deriving DecidableEq, Repr

def classifyTransportError (rendezvous_backpressure request_body_reusable : Bool) :
    AttemptDisposition :=
  if rendezvous_backpressure || !request_body_reusable then .stop else .retryNextRoute

def coolingCandidate (candidate : (RouteId × RouteAdmission) × Nat) : Option (Nat × Nat) :=
  match candidate.1.2 with
  | .coolingUntil until_unix_ms => some (candidate.2, until_unix_ms)
  | _ => none

def selectCandidate (candidates : List (RouteId × RouteAdmission)) : Option Nat :=
  (candidates.findIdx? fun candidate => decide (candidate.2 = .available)).or
    (((candidates.zipIdx.filterMap coolingCandidate).argmin Prod.snd).map Prod.fst)

def nextRoute (admission : RouteId → RouteAdmission) (pending : List RouteId) :
    Option (RouteId × List RouteId) :=
  let candidates := pending.filterMap fun route_id =>
    if admission route_id = .missing then none else some (route_id, admission route_id)
  (selectCandidate candidates).bind fun index =>
    (candidates[index]?).map fun selected =>
      (selected.1, (candidates.eraseIdx index).map Prod.fst)

theorem nextRoute_shorter {admission : RouteId → RouteAdmission} {pending rest : List RouteId}
    {route_id : RouteId} (next : nextRoute admission pending = some (route_id, rest)) :
    rest.length < pending.length := by
  unfold nextRoute at next
  simp only [Option.bind_eq_some_iff, Option.map_eq_some_iff] at next
  obtain ⟨index, _, selected, found, same⟩ := next
  obtain ⟨inside, _⟩ := List.getElem?_eq_some_iff.mp found
  have shorter := List.length_filterMap_le (fun route_id =>
    if admission route_id = .missing then none else some (route_id, admission route_id)) pending
  rw [← (Prod.mk.inj same).2, List.length_map, List.length_eraseIdx_of_lt inside]
  omega

end Routes

section Transport

structure ObjectHeadResponse where
  totalSizeBytes : Nat
  etag : Option String
  acceptRanges : Bool
  deriving DecidableEq, Repr

structure ObjectRequest where
  range : Option (Nat × Nat)
  ifRange : Option String
  deriving DecidableEq, Repr

/-- What a route does with a request. A body that breaks off does so with an error that may be a
    sign of backpressure. -/
inductive Attempt where
  | gone
  | rewriteFailed (message : String)
  | headersFailed (message : String)
  | unreachable (message : String) (rendezvous_backpressure : Bool)
  | answered (status : Nat) (chunks : List Bytes) (broken : Option Bool)
  deriving DecidableEq, Repr

structure Network where
  planned : ObjectRequest → Except String (List RouteId)
  admission : ObjectRequest → Nat → RouteId → RouteAdmission
  attempt : ObjectRequest → Nat → RouteId → Attempt

structure TransferError where
  message : String
  rendezvousBackpressure : Bool
  deriving DecidableEq, Repr

structure AttemptReport where
  request : ObjectRequest
  status : Nat
  delivered : Bytes
  completed : Bool
  deriving DecidableEq, Repr

structure RequestedRange where
  offset : Nat
  length : Nat
  deriving DecidableEq, Repr

structure DownloadProgress where
  objectSizeBytes : Nat
  range : RequestedRange
  bytesDownloaded : Nat
  deriving DecidableEq, Repr

structure Sink (σ : Type) where
  append : Bytes → σ → σ
  append_nil : ∀ s, append [] s = s
  append_append : ∀ a b s, append b (append a s) = append (a ++ b) s

structure Transfer (σ : Type) where
  sink : σ
  reports : List AttemptReport
  progress : List DownloadProgress

abbrev TransferM (σ : Type) := FaultyProgram (Transfer σ) TransferError

structure StreamedResponse where
  status : Nat
  bytesWritten : Nat
  deriving DecidableEq, Repr

variable {σ : Type} (sink : Sink σ) (network : Network)

def bail {α : Type} (message : String) : TransferM σ α := throw (.failed ⟨message, false⟩)

def note (change : Transfer σ → Transfer σ) : TransferM σ Unit :=
  modify fun s => { s with state := change s.state }

def Transfer.extend (chunk : Bytes) (transfer : Transfer σ) : Transfer σ :=
  { transfer with
    sink := sink.append chunk transfer.sink
    reports := transfer.reports.modifyHead fun report =>
      { report with delivered := report.delivered ++ chunk } }

def flush (message : String) : TransferM σ Unit := effect ⟨message, false⟩ id

def writeChunk (chunk : Bytes) : TransferM σ Unit :=
  if chunk = [] then pure ()
  else effect ⟨"failed writing streamed transport response body", false⟩ (Transfer.extend sink chunk)

def readBody (chunks : List Bytes) (broken : Option Bool) : TransferM σ Unit := do
  forEach chunks (writeChunk sink)
  match broken with
  | some backpressure =>
    throw (.failed ⟨"failed reading streamed transport response body", backpressure⟩)
  | none => flush "failed flushing streamed transport response body"

def beginAttempt (request : ObjectRequest) (status : Nat) : TransferM σ Unit :=
  note fun transfer => { transfer with reports := ⟨request, status, [], false⟩ :: transfer.reports }

def completeAttempt : TransferM σ Unit :=
  note fun transfer => { transfer with
    reports := transfer.reports.modifyHead fun report => { report with completed := true } }

def finish {α : Type} (last_error : Option TransferError) : TransferM σ α :=
  throw (.failed (last_error.getD
    ⟨"no client transport endpoints are available for streamed GET", false⟩))

/-- The fail-over loop. Each round takes a route away, so the number of pending routes bounds
    the rounds. -/
def streamRoutes (request : ObjectRequest) :
    Nat → Nat → List RouteId → Option TransferError → TransferM σ StreamedResponse
  | 0, _, _, last_error => finish last_error
  | fuel + 1, round, pending, last_error =>
    match nextRoute (network.admission request round) pending with
    | none => finish last_error
    | some (route_id, rest) => match network.attempt request round route_id with
      | .gone => streamRoutes request fuel (round + 1) rest last_error
      | .rewriteFailed message =>
        streamRoutes request fuel (round + 1) rest (some ⟨message, false⟩)
      | .headersFailed message => bail message
      | .unreachable message backpressure =>
        if classifyTransportError backpressure true = .stop then
          finish (some ⟨message, backpressure⟩)
        else streamRoutes request fuel (round + 1) rest (some ⟨message, backpressure⟩)
      | .answered status chunks broken => do
        beginAttempt request status
        match ← attempt (readBody sink chunks broken) with
        | none =>
          completeAttempt
          return ⟨status, chunks.flatten.length⟩
        | some error =>
          if classifyTransportError error.rendezvousBackpressure true = .stop then
            finish (some error)
          else streamRoutes request fuel (round + 1) rest (some error)

omit sink network in
theorem nextRoute_nil (admission : RouteId → RouteAdmission) : nextRoute admission [] = none := by
  simp [nextRoute]

/-- The bound never ends the loop: rounds beyond the number of pending routes change nothing. -/
theorem streamRoutes_enough (request : ObjectRequest) (more : Nat) :
    ∀ (fuel round : Nat) (pending : List RouteId) (last_error : Option TransferError),
      pending.length ≤ fuel →
      streamRoutes sink network request (fuel + more) round pending last_error =
        streamRoutes sink network request fuel round pending last_error := by
  intro fuel
  induction fuel with
  | zero =>
    intro round pending last_error short
    rw [List.length_eq_zero_iff.mp (Nat.le_zero.mp short)]
    cases more with
    | zero => rfl
    | succ more => simp only [streamRoutes, nextRoute_nil]
  | succ fuel ih =>
    intro round pending last_error short
    rw [Nat.succ_add, streamRoutes, streamRoutes]
    split
    · rfl
    · next route_id rest next =>
      have shorter := nextRoute_shorter next
      have rounds := fun error => ih (round + 1) rest error (by omega)
      simp only [rounds]

def streamObjectRequestToWriter (request : ObjectRequest) : TransferM σ StreamedResponse :=
  match network.planned request with
  | .error message => bail message
  | .ok route_ids => streamRoutes sink network request route_ids.length 0 route_ids none

end Transport

section Downloads
variable {σ : Type} (sink : Sink σ) (network : Network) (key : String)

def downloadSegmentSizeBytes : Nat := 1024 * 1024

def partialContent : Nat := 206

def statusOk : Nat := 200

def segmentEnd (offset stop : Nat) : Nat :=
  min (offset + downloadSegmentSizeBytes - 1) (stop - 1)

theorem segmentEnd_bounds {offset stop : Nat} (inside : offset < stop) :
    offset ≤ segmentEnd offset stop ∧ segmentEnd offset stop < stop := by
  unfold segmentEnd downloadSegmentSizeBytes
  omega

def unexpectedLength (expected actual : Nat) : String :=
  "server returned unexpected range length for key=" ++ key ++ ": expected=" ++
    toString expected ++ " actual=" ++ toString actual

def rejectedRange (status : Nat) : String :=
  "server rejected ranged download for key=" ++ key ++ ": " ++ toString status

def rejectedDownload (status : Nat) : String :=
  "server rejected object download for key=" ++ key ++ ": " ++ toString status

def flushOutput : TransferM σ Unit := flush ("failed to flush output for key=" ++ key)

/-- The segment loop of `downloadWithRangeRequests`. A segment is never empty, so the distance to
    the end bounds the rounds. -/
def rangeLoop (head : ObjectHeadResponse) : Nat → Nat → TransferM σ Unit
  | 0, _ => pure ()
  | fuel + 1, offset =>
    if offset < head.totalSizeBytes then do
      let end_inclusive := segmentEnd offset head.totalSizeBytes
      let response ← streamObjectRequestToWriter sink network
        ⟨some (offset, end_inclusive), head.etag⟩
      if response.status = partialContent then
        if response.bytesWritten ≠ end_inclusive - offset + 1 then
          bail (unexpectedLength key (end_inclusive - offset + 1) response.bytesWritten)
        else rangeLoop head fuel (end_inclusive + 1)
      else if response.status = statusOk ∧ offset = 0 then
        rangeLoop head fuel head.totalSizeBytes
      else bail (rejectedRange key response.status)
    else pure ()

def downloadWithRangeRequests (head : Except String ObjectHeadResponse) : TransferM σ Unit :=
  match head with
  | .error message => bail message
  | .ok head =>
    if head.totalSizeBytes = 0 then flushOutput key
    else if !head.acceptRanges then do
      let response ← streamObjectRequestToWriter sink network ⟨none, none⟩
      if response.status ≠ statusOk then bail (rejectedDownload key response.status)
      else pure ()
    else do
      rangeLoop sink network key head head.totalSizeBytes 0
      flushOutput key

structure DownloadRangeResult where
  objectSizeBytes : Nat
  range : RequestedRange
  bytesDownloaded : Nat
  deriving DecidableEq, Repr

/-- Where the caller is asked whether to go on. A cancellation while a request runs is a drop of
    its future in the fault plan. -/
inductive CancelCheck where
  | head
  | whole
  | wholeRequest
  | segment (offset : Nat)
  | segmentRequest (offset : Nat)
  deriving DecidableEq, Repr

def checkCancel (cancelled : CancelCheck → Bool) (check : CancelCheck) : TransferM σ Unit :=
  if cancelled check then bail ("download canceled for key=" ++ key) else pure ()

def onProgress (progress : DownloadProgress) : TransferM σ Unit :=
  note fun transfer => { transfer with progress := transfer.progress ++ [progress] }

/-- The segment loop of `downloadRangeToWriterWithProgress`; returns the bytes counted. -/
def progressLoop (cancelled : CancelCheck → Bool) (head : ObjectHeadResponse)
    (range : RequestedRange) : Nat → Nat → Nat → TransferM σ Nat
  | 0, _, bytes_downloaded => pure bytes_downloaded
  | fuel + 1, offset, bytes_downloaded =>
    if offset < range.offset + range.length then do
      checkCancel key cancelled (.segment offset)
      let end_inclusive := segmentEnd offset (range.offset + range.length)
      checkCancel key cancelled (.segmentRequest offset)
      let response ← streamObjectRequestToWriter sink network
        ⟨some (offset, end_inclusive), head.etag⟩
      if response.status = partialContent then
        if response.bytesWritten ≠ end_inclusive - offset + 1 then
          bail (unexpectedLength key (end_inclusive - offset + 1) response.bytesWritten)
        else do
          onProgress ⟨head.totalSizeBytes, range, bytes_downloaded + response.bytesWritten⟩
          progressLoop cancelled head range fuel (end_inclusive + 1)
            (bytes_downloaded + response.bytesWritten)
      else if response.status = statusOk ∧ offset = 0 ∧
          range.length = head.totalSizeBytes then do
        onProgress ⟨head.totalSizeBytes, range, response.bytesWritten⟩
        progressLoop cancelled head range fuel (range.offset + range.length)
          response.bytesWritten
      else bail (rejectedRange key response.status)
    else pure bytes_downloaded

def cutRange (requested : RequestedRange) (total_size_bytes : Nat) : RequestedRange :=
  let range_start := min requested.offset total_size_bytes
  ⟨range_start, min (range_start + requested.length) total_size_bytes - range_start⟩

def downloadRangeToWriterWithProgress (head : Except String ObjectHeadResponse)
    (requested : RequestedRange) (cancelled : CancelCheck → Bool) :
    TransferM σ DownloadRangeResult := do
  checkCancel key cancelled .head
  match head with
  | .error message => bail message
  | .ok head => do
    let range := cutRange requested head.totalSizeBytes
    onProgress ⟨head.totalSizeBytes, range, 0⟩
    if range.length = 0 then do
      flushOutput key
      return ⟨head.totalSizeBytes, range, 0⟩
    else if !head.acceptRanges then
      if range.offset ≠ 0 ∨ range.length ≠ head.totalSizeBytes then
        bail ("server does not support byte ranges for key=" ++ key ++
          ", cannot satisfy requested range start=" ++ toString range.offset ++ " length=" ++
          toString range.length)
      else do
        checkCancel key cancelled .whole
        checkCancel key cancelled .wholeRequest
        let response ← streamObjectRequestToWriter sink network ⟨none, none⟩
        if response.status ≠ statusOk then bail (rejectedDownload key response.status)
        else do
          onProgress ⟨head.totalSizeBytes, range, response.bytesWritten⟩
          return ⟨head.totalSizeBytes, range, response.bytesWritten⟩
    else do
      let bytes_downloaded ← progressLoop sink network key cancelled head range range.length
        range.offset 0
      flushOutput key
      return ⟨head.totalSizeBytes, range, bytes_downloaded⟩

end Downloads

end BerryKeepStreamedDownload
