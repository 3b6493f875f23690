import BerryKeep.FiniteTable
import BerryKeep.ContentCodec

/-!
The version graph of one object. A version names its parents, a head is a
version no stored record names, and the preferred head is the best head by
state, second and version id. Some operations recompute the heads from the
whole graph and some patch the head list; the lemmas say when the two agree.
-/
namespace BerryKeepVersionGraph
open FiniteTable TextOperations BerryKeepContentCodec

inductive VersionConsistencyState where
  | provisional
  | confirmed
  deriving DecidableEq, Repr

structure FileVersionRecord where
  versionId : String
  objectId : String
  manifestHash : String
  logicalPath : Option String
  parentVersionIds : List String
  state : VersionConsistencyState
  createdAtUnix : Nat
  copiedFromObjectId : Option String
  copiedFromVersionId : Option String
  copiedFromPath : Option String
  deriving DecidableEq, Repr

structure FileVersionIndex where
  objectId : String
  versions : Table String FileVersionRecord
  headVersionIds : List String
  preferredHeadVersionId : Option String
  keyed : ∀ id record, versions.get id = some record → record.versionId = id

inductive PreferredHeadReason where
  | confirmedPreferredOverProvisional
  | provisionalFallbackNoConfirmed
  | deterministicTiebreakVersionId
  deriving DecidableEq, Repr

inductive ObjectReadMode where
  | preferred
  | confirmedOnly
  | provisionalAllowed
  deriving DecidableEq, Repr

def emptyVersionIndex (object_id : String) : FileVersionIndex where
  objectId := object_id
  versions := Table.empty
  headVersionIds := []
  preferredHeadVersionId := none
  keyed := by intro id record found; cases found

def rankState : VersionConsistencyState → Nat
  | .confirmed => 2
  | .provisional => 1

/-- The order in which heads are preferred: state, then second, then version id. -/
def PrecedesAsHead (a b : FileVersionRecord) : Prop :=
  rankState b.state < rankState a.state ∨
    rankState a.state = rankState b.state ∧
      (b.createdAtUnix < a.createdAtUnix ∨
        a.createdAtUnix = b.createdAtUnix ∧ b.versionId ≤ a.versionId)

instance : DecidableRel PrecedesAsHead := fun a b =>
  inferInstanceAs (Decidable (rankState b.state < rankState a.state ∨ _ ∧ (_ ∨ _ ∧ _)))

def FileVersionIndex.headRecords (index : FileVersionIndex) : List FileVersionRecord :=
  index.headVersionIds.filterMap index.versions.get

def choosePreferredHeadWithReason (index : FileVersionIndex) :
    Option (String × PreferredHeadReason) :=
  match index.headRecords.insertionSort PrecedesAsHead with
  | [] => none
  | top :: others =>
    let tied := others.any fun entry =>
      rankState entry.state == rankState top.state && entry.createdAtUnix == top.createdAtUnix
    some (top.versionId,
      if tied then .deterministicTiebreakVersionId
      else if top.state = .confirmed then .confirmedPreferredOverProvisional
      else .provisionalFallbackNoConfirmed)

def choosePreferredHead (index : FileVersionIndex) : Option String :=
  (choosePreferredHeadWithReason index).map Prod.fst

def FileVersionIndex.isParent (index : FileVersionIndex) (id : String) : Bool :=
  index.versions.values.any fun record => record.parentVersionIds.contains id

def recomputeHeadVersionIds (index : FileVersionIndex) : List String :=
  (index.versions.keys.filter fun id => !index.isParent id).insertionSort (· ≤ ·)

def newerFirst (a b : FileVersionRecord) : Prop :=
  b.createdAtUnix < a.createdAtUnix ∨
    a.createdAtUnix = b.createdAtUnix ∧ b.versionId ≤ a.versionId

instance : DecidableRel newerFirst := fun a b =>
  inferInstanceAs (Decidable (b.createdAtUnix < a.createdAtUnix ∨ _ ∧ _))

def versionRecordForReadMode (index : FileVersionIndex) (read_mode : ObjectReadMode) :
    Option FileVersionRecord :=
  match read_mode with
  | .preferred => (choosePreferredHead index).bind index.versions.get
  | .confirmedOnly =>
    ((index.headRecords.filter fun record => record.state = .confirmed).insertionSort
      newerFirst).head?
  | .provisionalAllowed => (index.headRecords.insertionSort newerFirst).head?

namespace FileVersionIndex

def insertRecord (index : FileVersionIndex) (record : FileVersionRecord) : FileVersionIndex where
  objectId := index.objectId
  versions := index.versions.put record.versionId record
  headVersionIds := index.headVersionIds
  preferredHeadVersionId := index.preferredHeadVersionId
  keyed := by
    intro id found stored
    rw [get_put] at stored
    split at stored
    · next same => cases stored; exact same.symm
    · exact index.keyed id found stored

def removeVersion (index : FileVersionIndex) (version_id : String) : FileVersionIndex where
  objectId := index.objectId
  versions := index.versions.del version_id
  headVersionIds := index.headVersionIds
  preferredHeadVersionId := index.preferredHeadVersionId
  keyed := by
    intro id found stored
    rw [get_del] at stored
    split at stored
    · cases stored
    · exact index.keyed id found stored

def withHeads (index : FileVersionIndex) (heads : List String) : FileVersionIndex :=
  { index with headVersionIds := heads }

/-- The preferred head is always chosen from the head list of the moment. -/
def choosing (index : FileVersionIndex) : FileVersionIndex :=
  { index with preferredHeadVersionId := choosePreferredHead index }

def recomputed (index : FileVersionIndex) : FileVersionIndex :=
  (index.withHeads (recomputeHeadVersionIds index)).choosing

-- The head list as put, tombstone and rename patch it.
def patchedHeads (index : FileVersionIndex) (parents : List String) (version_id : String) :
    List String :=
  ((index.headVersionIds.dedup.filter fun id => !parents.contains id).insert
    version_id).insertionSort (· ≤ ·)

def extended (index : FileVersionIndex) (record : FileVersionRecord) : FileVersionIndex :=
  ((index.insertRecord record).withHeads
    (index.patchedHeads record.parentVersionIds record.versionId)).choosing

end FileVersionIndex

section PreferredHead
variable {index : FileVersionIndex}

theorem precedes_total (a b : FileVersionRecord) : PrecedesAsHead a b ∨ PrecedesAsHead b a := by
  unfold PrecedesAsHead
  rcases Nat.lt_trichotomy (rankState a.state) (rankState b.state) with lower | same | higher
  · exact .inr (.inl lower)
  · rcases Nat.lt_trichotomy a.createdAtUnix b.createdAtUnix with older | equal | newer
    · exact .inr (.inr ⟨same.symm, .inl older⟩)
    · rcases le_total a.versionId b.versionId with less | more
      · exact .inr (.inr ⟨same.symm, .inr ⟨equal.symm, less⟩⟩)
      · exact .inl (.inr ⟨same, .inr ⟨equal, more⟩⟩)
    · exact .inl (.inr ⟨same, .inl newer⟩)
  · exact .inl (.inl higher)

theorem precedes_trans (a b c : FileVersionRecord) (ab : PrecedesAsHead a b)
    (bc : PrecedesAsHead b c) : PrecedesAsHead a c := by
  unfold PrecedesAsHead at *
  rcases ab with ab | ⟨rank_ab, time_ab⟩
  · rcases bc with bc | ⟨rank_bc, _⟩
    · exact .inl (bc.trans ab)
    · exact .inl (rank_bc ▸ ab)
  · rcases bc with bc | ⟨rank_bc, time_bc⟩
    · exact .inl (rank_ab ▸ bc)
    · refine .inr ⟨rank_ab.trans rank_bc, ?_⟩
      rcases time_ab with newer_ab | ⟨time_ab, id_ab⟩
      · rcases time_bc with newer_bc | ⟨time_bc, _⟩
        · exact .inl (newer_bc.trans newer_ab)
        · exact .inl (time_bc ▸ newer_ab)
      · rcases time_bc with newer_bc | ⟨time_bc, id_bc⟩
        · exact .inl (time_ab ▸ newer_bc)
        · exact .inr ⟨time_ab.trans time_bc, id_bc.trans id_ab⟩

theorem mem_headRecords {record : FileVersionRecord} :
    record ∈ index.headRecords ↔
      record.versionId ∈ index.headVersionIds ∧
        index.versions.get record.versionId = some record := by
  unfold FileVersionIndex.headRecords
  rw [List.mem_filterMap]
  constructor
  · rintro ⟨id, listed, stored⟩
    rw [index.keyed id record stored]
    exact ⟨listed, stored⟩
  · intro both
    exact ⟨_, both⟩

theorem choosePreferredHead_eq (index : FileVersionIndex) :
    choosePreferredHead index =
      ((index.headRecords.insertionSort PrecedesAsHead).head?).map fun top => top.versionId := by
  unfold choosePreferredHead choosePreferredHeadWithReason
  cases index.headRecords.insertionSort PrecedesAsHead <;> rfl

theorem choosePreferredHead_some {version_id : String}
    (chosen : choosePreferredHead index = some version_id) :
    ∃ record, index.versions.get version_id = some record ∧
      version_id ∈ index.headVersionIds ∧
      ∀ other ∈ index.headRecords, PrecedesAsHead record other := by
  rw [choosePreferredHead_eq, Option.map_eq_some_iff] at chosen
  obtain ⟨record, first, rfl⟩ := chosen
  obtain ⟨member, best⟩ := head_insertionSort precedes_total precedes_trans first
  obtain ⟨listed, stored⟩ := mem_headRecords.mp member
  exact ⟨record, stored, listed, best⟩

theorem choosePreferredHead_none :
    choosePreferredHead index = none ↔ index.headRecords = [] := by
  rw [choosePreferredHead_eq, Option.map_eq_none_iff, List.head?_eq_none_iff,
    ← List.length_eq_zero_iff, List.length_insertionSort, List.length_eq_zero_iff]

theorem precedes_antisymm {a b : FileVersionRecord} (ab : PrecedesAsHead a b)
    (ba : PrecedesAsHead b a) : a.versionId = b.versionId := by
  unfold PrecedesAsHead at *
  rcases ab with ab | ⟨rank, time | ⟨time, id⟩⟩
  · rcases ba with ba | ⟨rank, _⟩ <;> omega
  · rcases ba with ba | ⟨_, later | ⟨equal, _⟩⟩ <;> omega
  · rcases ba with ba | ⟨_, later | ⟨_, id'⟩⟩
    · omega
    · omega
    · exact le_antisymm id' id

end PreferredHead

section Heads
variable {index : FileVersionIndex}

theorem isParent_iff {id : String} :
    index.isParent id = true ↔
      ∃ child record, index.versions.get child = some record ∧ id ∈ record.parentVersionIds := by
  unfold FileVersionIndex.isParent
  rw [List.any_eq_true]
  constructor
  · rintro ⟨record, member, named⟩
    obtain ⟨child, stored⟩ := (mem_values _ _).mp member
    exact ⟨child, record, stored, by simpa using named⟩
  · rintro ⟨child, record, stored, named⟩
    exact ⟨record, (mem_values _ _).mpr ⟨child, stored⟩, by simpa using named⟩

theorem mem_recompute {id : String} :
    id ∈ recomputeHeadVersionIds index ↔
      (∃ record, index.versions.get id = some record) ∧ index.isParent id = false := by
  unfold recomputeHeadVersionIds
  rw [List.mem_insertionSort, List.mem_filter, mem_keys]
  simp

theorem sorted_eq_recompute {ids : List String} (nodup : ids.Nodup)
    (members : ∀ id, id ∈ ids ↔
      (∃ record, index.versions.get id = some record) ∧ index.isParent id = false) :
    ids.insertionSort (· ≤ ·) = recomputeHeadVersionIds index := by
  apply sorted_list_unique nodup ((keys_nodup _).filter _)
  intro id
  have listed : id ∈ recomputeHeadVersionIds index ↔ _ := mem_recompute
  unfold recomputeHeadVersionIds at listed
  rw [List.mem_insertionSort] at listed
  rw [members, listed]

structure HeadsExact (index : FileVersionIndex) : Prop where
  heads : index.headVersionIds = recomputeHeadVersionIds index
  preferred : index.preferredHeadVersionId = choosePreferredHead index

theorem empty_exact (object_id : String) : HeadsExact (emptyVersionIndex object_id) := ⟨rfl, rfl⟩

theorem recomputed_exact (index : FileVersionIndex) : HeadsExact index.recomputed := ⟨rfl, rfl⟩

/-- Patching agrees with recomputing when the new version is really new: it is not
    stored, no record names it as a parent, and it is not its own parent. -/
theorem extended_exact (record : FileVersionRecord) (exact_before : HeadsExact index)
    (new : index.versions.get record.versionId = none)
    (unnamed : index.isParent record.versionId = false)
    (not_own : record.versionId ∉ record.parentVersionIds) : HeadsExact (index.extended record) := by
  refine ⟨?_, rfl⟩
  apply sorted_eq_recompute
  · exact ((List.nodup_dedup _).filter _).insert
  · intro id
    have parents : (index.extended record).isParent id = true ↔
        index.isParent id = true ∨ id ∈ record.parentVersionIds := by
      rw [isParent_iff, isParent_iff]
      constructor
      · rintro ⟨child, found, stored, named⟩
        change (index.versions.put _ _).get child = some found at stored
        rw [get_put] at stored
        split at stored
        · cases stored; exact .inr named
        · exact .inl ⟨child, found, stored, named⟩
      · rintro (⟨child, found, stored, named⟩ | named)
        · refine ⟨child, found, (get_put_other _ _ ?_).trans stored, named⟩
          rintro rfl
          rw [new] at stored
          cases stored
        · exact ⟨record.versionId, record, get_put_self _ _ _, named⟩
    have stored : (∃ found, (index.extended record).versions.get id = some found) ↔
        id = record.versionId ∨ ∃ found, index.versions.get id = some found := by
      change (∃ found, (index.versions.put _ _).get id = some found) ↔ _
      rw [get_put]
      split
      · next same => simp [same]
      · next other => simp [other]
    rw [List.mem_insert_iff, List.mem_filter, List.mem_dedup, exact_before.heads, mem_recompute,
      stored]
    have flip : (index.extended record).isParent id = false ↔
        index.isParent id = false ∧ id ∉ record.parentVersionIds := by
      rw [← Bool.not_eq_true, parents, not_or, Bool.not_eq_true]
    rw [flip]
    by_cases same : id = record.versionId
    · subst same; simp [unnamed, not_own]
    · simp [same, and_assoc]

end Heads

section Replacement
variable {index : FileVersionIndex} {record : FileVersionRecord}

theorem insertRecord_get (id : String) : (index.insertRecord record).versions.get id =
    if id = record.versionId then some record else index.versions.get id := get_put _ _ _ _

theorem recompute_insertRecord (index : FileVersionIndex) (old record : FileVersionRecord)
    (stored : index.versions.get record.versionId = some old)
    (parents : record.parentVersionIds = old.parentVersionIds) :
    recomputeHeadVersionIds (index.insertRecord record) = recomputeHeadVersionIds index := by
  have named : ∀ id, (index.insertRecord record).isParent id = index.isParent id := by
    intro id
    rw [Bool.eq_iff_iff, isParent_iff, isParent_iff]
    constructor
    · rintro ⟨child, found, holds, member⟩
      rw [insertRecord_get] at holds
      split at holds
      · cases holds
        exact ⟨record.versionId, old, stored, parents ▸ member⟩
      · exact ⟨child, found, holds, member⟩
    · rintro ⟨child, found, holds, member⟩
      by_cases here : child = record.versionId
      · subst here
        rw [stored] at holds
        cases holds
        exact ⟨record.versionId, record, by rw [insertRecord_get, if_pos rfl], parents.symm ▸ member⟩
      · exact ⟨child, found, by rw [insertRecord_get, if_neg here]; exact holds, member⟩
  apply sorted_list_unique ((keys_nodup _).filter _) ((keys_nodup _).filter _)
  intro id
  simp only [List.mem_filter, mem_keys, named, insertRecord_get]
  apply and_congr_left
  intro _
  by_cases here : id = record.versionId
  · subst here
    simp [stored]
  · simp [here]

end Replacement

section Extensional
variable {a b : FileVersionIndex}

structure SameIndex (a b : FileVersionIndex) : Prop where
  versions : ∀ id, a.versions.get id = b.versions.get id
  heads : a.headVersionIds = b.headVersionIds
  preferred : a.preferredHeadVersionId = b.preferredHeadVersionId

theorem sameIndex_refl (index : FileVersionIndex) : SameIndex index index :=
  ⟨fun _ => rfl, rfl, rfl⟩

theorem isParent_congr (same : ∀ id, a.versions.get id = b.versions.get id) (id : String) :
    a.isParent id = b.isParent id := by
  rw [Bool.eq_iff_iff, isParent_iff, isParent_iff]
  simp only [same]

theorem recompute_congr (same : ∀ id, a.versions.get id = b.versions.get id) :
    recomputeHeadVersionIds a = recomputeHeadVersionIds b := by
  apply sorted_list_unique ((keys_nodup _).filter _) ((keys_nodup _).filter _)
  intro id
  simp only [List.mem_filter, mem_keys, isParent_congr same, same]

theorem exact_sameIndex (same : ∀ id, a.versions.get id = b.versions.get id)
    (exact_a : HeadsExact a) (exact_b : HeadsExact b) : SameIndex a b := by
  have heads : a.headVersionIds = b.headVersionIds := by
    rw [exact_a.heads, exact_b.heads, recompute_congr same]
  have records : a.headRecords = b.headRecords := by
    unfold FileVersionIndex.headRecords
    rw [heads, funext same]
  refine ⟨same, heads, ?_⟩
  rw [exact_a.preferred, exact_b.preferred, choosePreferredHead_eq, choosePreferredHead_eq, records]

end Extensional

end BerryKeepVersionGraph
