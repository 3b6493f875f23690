import Mathlib.Data.List.Sort
import BerryKeep.CursorPaging

/-!
The history of what the folder agent did. A listing shows the records from the
newest to the oldest by their time, and a full page names the id of its last
record as the cursor for the next one. The cursor restricts by id, not by time.
-/
namespace BerryKeepModificationLog
open CursorPaging

inductive ModificationOperation where
  | upload
  | download
  | deleteLocal
  | deleteRemote
  deriving DecidableEq, Repr

inductive ModificationOutcome where
  | success
  | error
  deriving DecidableEq, Repr

inductive ModificationPhase where
  | startup
  | steadyState
  | manual
  deriving DecidableEq, Repr

inductive ModificationTriggerSource where
  | localScan
  | localWatch
  | remoteRefresh
  | startupReconcile
  | conflictResolution
  deriving DecidableEq, Repr

structure ModificationLogRecord where
  id : Int
  occurredUnixMs : Nat
  operation : ModificationOperation
  outcome : ModificationOutcome
  phase : ModificationPhase
  triggerSource : ModificationTriggerSource
  localRelativePath : String
  remoteKey : String
  sizeBytes : Option Nat
  contentHash : Option String
  scopeLabel : String
  rootDir : String
  connectionTarget : String
  errorText : Option String
  deriving DecidableEq, Repr

structure ModificationHistoryPage where
  records : List ModificationLogRecord
  nextBeforeId : Option Int
  deriving DecidableEq, Repr

structure ModificationActions where
  rows : List ModificationLogRecord
  ids_nodup : (rows.map ModificationLogRecord.id).Nodup

def ListedBefore (a b : ModificationLogRecord) : Prop :=
  b.occurredUnixMs < a.occurredUnixMs ∨ (b.occurredUnixMs = a.occurredUnixMs ∧ b.id ≤ a.id)

instance : DecidableRel ListedBefore := fun a b => by
  unfold ListedBefore
  exact inferInstance

def resolvedLimit (limit : Option Nat) : Nat := max 1 (min (limit.getD 50) 500)

def queryRecords (log : ModificationActions) (before_id : Option Int)
    (operation : Option ModificationOperation) : List ModificationLogRecord :=
  (log.rows.filter fun record => (before_id.all fun id => decide (record.id < id)) &&
    operation.all fun wanted => decide (record.operation = wanted)).insertionSort ListedBefore

def ModificationActions.list (log : ModificationActions) (limit : Option Nat)
    (before_id : Option Int) (operation : Option ModificationOperation) :
    ModificationHistoryPage :=
  let records := (queryRecords log before_id operation).take (resolvedLimit limit)
  { records := records
    nextBeforeId :=
      if resolvedLimit limit ≤ records.length then records.getLast?.map fun record => record.id
      else none }

/-- What a reader collects who asks for the next page until there is none. -/
def ModificationActions.readThrough (log : ModificationActions) (limit : Option Nat)
    (operation : Option ModificationOperation) : Option (List ModificationLogRecord) :=
  follow (fun before_id =>
    ((log.list limit before_id operation).records, (log.list limit before_id operation).nextBeforeId))
    (log.rows.length + 1) none

section Listing
variable {log : ModificationActions}

theorem listedBefore_total (a b : ModificationLogRecord) : ListedBefore a b ∨ ListedBefore b a := by
  unfold ListedBefore
  omega

theorem listedBefore_trans (a b c : ModificationLogRecord) (ab : ListedBefore a b)
    (bc : ListedBefore b c) : ListedBefore a c := by
  unfold ListedBefore at ab bc ⊢
  omega

variable (before_id : Option Int)

theorem query_sorted (operation : Option ModificationOperation) :
    (queryRecords log before_id operation).Pairwise ListedBefore := by
  have : Std.Total ListedBefore := ⟨listedBefore_total⟩
  have : IsTrans ModificationLogRecord ListedBefore := ⟨listedBefore_trans⟩
  exact List.pairwise_insertionSort _ _

theorem query_perm (operation : Option ModificationOperation) :
    (queryRecords log before_id operation).Perm (log.rows.filter fun record =>
      (before_id.all fun id => decide (record.id < id)) &&
        operation.all fun wanted => decide (record.operation = wanted)) :=
  List.perm_insertionSort _ _

theorem rows_nodup (log : ModificationActions) : log.rows.Nodup := log.ids_nodup.of_map

theorem query_nodup (operation : Option ModificationOperation) :
    (queryRecords log before_id operation).Nodup :=
  (query_perm before_id operation).nodup_iff.mpr ((rows_nodup log).filter _)

theorem listed_antisymm {a b : ModificationLogRecord} (here : a ∈ log.rows) (there : b ∈ log.rows)
    (ab : ListedBefore a b) (ba : ListedBefore b a) : a = b := by
  apply List.inj_on_of_nodup_map log.ids_nodup here there
  unfold ListedBefore at ab ba
  omega

theorem query_filter (operation : Option ModificationOperation) :
    queryRecords log before_id operation =
      (queryRecords log none operation).filter (admits ModificationLogRecord.id before_id) := by
  have kept : ((queryRecords log none operation).filter
      (admits ModificationLogRecord.id before_id)).Perm (queryRecords log before_id operation) := by
    refine ((query_perm none operation).filter _).trans ?_
    refine List.Perm.trans ?_ (query_perm before_id operation).symm
    rw [List.filter_filter]
    apply List.Perm.of_eq
    apply List.filter_congr
    intro record _
    simp [admits]
  have inside : ∀ record ∈ queryRecords log before_id operation, record ∈ log.rows := by
    intro record listed
    exact (List.mem_filter.mp ((query_perm before_id operation).subset listed)).1
  apply List.Perm.eq_of_pairwise _ (query_sorted before_id operation)
    ((query_sorted none operation).filter _) kept.symm
  intro a b first second ab ba
  exact listed_antisymm (inside a first) (inside b (kept.subset second)) ab ba

theorem list_fetches (limit : Option Nat) (operation : Option ModificationOperation)
    (before_id : Option Int) :
    ((log.list limit before_id operation).records,
        (log.list limit before_id operation).nextBeforeId) =
      fetchPage ModificationLogRecord.id (resolvedLimit limit) (queryRecords log none operation)
        before_id := by
  unfold ModificationActions.list fetchPage nextCursor
  dsimp only
  rw [query_filter]

end Listing

theorem readThrough_complete_iff (log : ModificationActions) (limit : Option Nat)
    (operation : Option ModificationOperation) :
    (∃ records, log.readThrough limit operation = some records) ∧
      (log.readThrough limit operation = some (queryRecords log none operation) ↔
        Aligned ModificationLogRecord.id (resolvedLimit limit) (queryRecords log none operation)) := by
  have positive : 0 < resolvedLimit limit := by
    unfold resolvedLimit
    omega
  have fewer : (queryRecords log none operation).length < log.rows.length + 1 := by
    rw [(query_perm none operation).length_eq]
    exact Nat.lt_succ_of_le (List.length_filter_le _ _)
  have pages : (fun before_id => ((log.list limit before_id operation).records,
      (log.list limit before_id operation).nextBeforeId)) =
        fetchPage ModificationLogRecord.id (resolvedLimit limit)
          (queryRecords log none operation) := funext (list_fetches limit operation)
  unfold ModificationActions.readThrough
  rw [pages]
  exact follow_all positive (query_nodup none operation) fewer

def uploadAt (id : Int) (time : Nat) : ModificationLogRecord :=
  ⟨id, time, .upload, .success, .manual, .localScan, "a", "a", none, none, "", "", "", none⟩

def setBackLog : ModificationActions := ⟨[uploadAt 1 200, uploadAt 2 100], by decide⟩

theorem set_back_record_skipped :
    queryRecords setBackLog none none = [uploadAt 1 200, uploadAt 2 100] ∧
      setBackLog.readThrough (some 1) none = some [uploadAt 1 200] := by
  decide

end BerryKeepModificationLog
