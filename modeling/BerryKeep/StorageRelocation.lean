import BerryKeep.FaultInjection
import BerryKeep.StoragePool

/-!
Relocation of one payload to another storage path, and the restart after it.
There is one location record per payload, so the pending record of the target
replaces the available record of the source. Every way the relocation can end
leaves one of a few durable states; the restart is followed through each.
-/
namespace BerryKeepStorageRelocation
open FiniteTable StatefulProgram FaultInjection BerryKeepContentCodec BerryKeepStoragePool

def liftResult {α : Type} (r : Except StoreError α) : FaultyProgram ContentStore StoreError α :=
  lift (r.mapError Stop.failed)

theorem liftResult_ok {α : Type} (a : α) (s : Faulty ContentStore) :
    (liftResult (.ok a)).run s = (.ok a, s) := rfl

def moveContent (now : Int) (kind : StorageContentKind) (hash : String) (source : FilePath)
    (payload : Bytes) (target_id : String) (target_path : FilePath) :
    FaultyProgram ContentStore StoreError Bool := do
  let pending : StorageLocationRecord := ⟨kind, hash, target_id, payload.length, .pending⟩
  effect .io fun st => st.persistStorageLocation pending
  match ← attempt (effect .io fun st => st.writeFile target_path ⟨payload, now⟩) with
  | some error =>
    -- The result of the deletion is ignored.
    let _ ← attempt (effect .io fun st => st.deleteStorageLocation kind hash)
    throw (.failed error)
  | none =>
    let available := { pending with state := .available }
    effect .io fun st => st.persistStorageLocation available
    modify fun s => { s with state :=
      { s.state with pool := s.state.pool.noteLocation available } }
    effect .io fun st => st.removeFile source
    return true

def relocateStorageContent (codec : Codec) (free : String → Option Nat) (now : Int)
    (kind : StorageContentKind) (hash : String) (source : FilePath) :
    FaultyProgram ContentStore StoreError Bool := do
  let st := (← get).state
  let some file := st.fileAt source | throw (.failed .io)
  if hashHex codec file.bytes ≠ hash then
    throw (.failed (.bail ("storage content hash mismatch while rebalancing " ++ hash)))
  let target ← liftResult (selectWritePath codec st.pool (st.freeSpace free) hash file.bytes.length)
  let target_path ← liftResult (contentPathInRuntime target.config.id kind hash)
  if target_path = source then return false
  moveContent now kind hash source file.bytes target.config.id target_path

def loadLocations (pool : StoragePool) (locations : List StorageLocationRecord) : StoragePool :=
  locations.foldl (fun pool location =>
    if location.state ≠ .available || (pool.path location.pathId).isNone then pool
    else pool.noteLocation location) pool

def kindPayloadHashMatches (codec : Codec) (st : ContentStore) (file : FilePath) (hash : String)
    (expected_size : Nat) : Bool :=
  match st.fileAt file with
  | some entry => entry.bytes.length == expected_size && hashHex codec entry.bytes == hash
  | none => false

def recoverLocation (codec : Codec) (st : ContentStore) (location : StorageLocationRecord) :
    ContentStore :=
  if location.state ≠ .pending then st
  else match st.pool.contentPathIn location.pathId location.kind location.hash with
    | .error _ => st.deleteStorageLocation location.kind location.hash
    | .ok file =>
      if kindPayloadHashMatches codec st file location.hash location.sizeBytes then
        let available := { location with state := .available }
        let st := st.persistStorageLocation available
        { st with pool := st.pool.noteLocation available }
      else st.deleteStorageLocation location.kind location.hash

def recoverPendingStorageLocations (codec : Codec) (st : ContentStore)
    (locations : List StorageLocationRecord) : ContentStore :=
  locations.foldl (recoverLocation codec) st

def reloaded (st : ContentStore) : ContentStore :=
  let fresh : StoragePool := { st.pool with locations := Table.empty }
  { st with pool := loadLocations fresh st.loadStorageLocations }

def restart (codec : Codec) (st : ContentStore) : ContentStore :=
  recoverPendingStorageLocations codec (reloaded st) st.loadStorageLocations

section Ground

def SameGround (a b : ContentStore) : Prop :=
  a.disk = b.disk ∧ a.mounted = b.mounted ∧ a.pool.paths = b.pool.paths

theorem SameGround.trans {a b c : ContentStore} (first : SameGround a b) (next : SameGround b c) :
    SameGround a c :=
  ⟨first.1.trans next.1, first.2.1.trans next.2.1, first.2.2.trans next.2.2⟩

def ValidAt (codec : Codec) (st : ContentStore) (path_id : String) (kind : StorageContentKind)
    (hash : String) : Prop :=
  ∃ file entry, contentPathInRuntime path_id kind hash = .ok file ∧
    st.fileAt file = some entry ∧ hashHex codec entry.bytes = hash

def Readable (codec : Codec) (st : ContentStore) (kind : StorageContentKind) (hash : String) :
    Prop :=
  ∃ file entry, st.pool.contentPath kind hash = .ok file ∧
    st.fileAt file = some entry ∧ hashHex codec entry.bytes = hash

variable {codec : Codec} {st a b : ContentStore} {kind : StorageContentKind} {hash : String}

theorem path_congr {p q : StoragePool} (same : p.paths = q.paths) (id : String) :
    p.path id = q.path id := by
  unfold StoragePool.path; rw [same]

theorem legacyReadPath_congr {p q : StoragePool} (same : p.paths = q.paths) :
    p.legacyReadPath = q.legacyReadPath := by
  unfold StoragePool.legacyReadPath; rw [same]

theorem fileAt_congr (same : SameGround a b) (file : FilePath) : a.fileAt file = b.fileAt file := by
  unfold ContentStore.fileAt; rw [same.1, same.2.1]

variable {id : String}

theorem validAt_congr (same : SameGround a b) :
    ValidAt codec a id kind hash ↔ ValidAt codec b id kind hash := by
  unfold ValidAt
  simp only [fileAt_congr same]

variable {p : StoragePathRuntime}

theorem path_id_eq {pool : StoragePool} (found : pool.path id = some p) : p.config.id = id := by
  have named := List.find?_some found
  simpa using named

theorem path_of_mem {pool : StoragePool} (member : p ∈ pool.paths) :
    pool.path p.config.id = some p := by
  cases found : pool.path p.config.id with
  | none =>
    have absent := List.find?_eq_none.mp found p member
    simp at absent
  | some q =>
    have inside := List.mem_of_find?_eq_some found
    have same := path_id_eq found
    rw [List.inj_on_of_nodup_map pool.ids_nodup inside member same]

theorem readable_of_location
    (located : st.pool.locations.get (kind, hash) = some id) (known : st.pool.path id = some p) :
    Readable codec st kind hash ↔ ValidAt codec st id kind hash := by
  have read : st.pool.contentPath kind hash = contentPathInRuntime id kind hash := by
    simp [StoragePool.contentPath, StoragePool.readPath, located, known, path_id_eq known]
  unfold Readable ValidAt
  rw [read]

theorem readable_of_no_location (absent : st.pool.locations.get (kind, hash) = none) :
    Readable codec st kind hash ↔
      ∃ p, st.pool.legacyReadPath = some p ∧ ValidAt codec st p.config.id kind hash := by
  cases legacy : st.pool.legacyReadPath with
  | none =>
    have read : st.pool.contentPath kind hash =
        .error (.bail "storage pool has no readable path") := by
      simp [StoragePool.contentPath, StoragePool.readPath, absent, legacy]
    simp [Readable, read]
  | some p =>
    have read : st.pool.contentPath kind hash = contentPathInRuntime p.config.id kind hash := by
      simp [StoragePool.contentPath, StoragePool.readPath, absent, legacy]
    simp [Readable, ValidAt, read]

end Ground

section Restart
variable {codec : Codec} {st : ContentStore}

variable (pool : StoragePool)

theorem noteLocation_paths (location : StorageLocationRecord) :
    (pool.noteLocation location).paths = pool.paths := by
  unfold StoragePool.noteLocation; split <;> rfl

theorem noteLocation_get (location : StorageLocationRecord) (key : ContentKey) :
    (pool.noteLocation location).locations.get key =
      if location.state = .available ∧ key = (location.kind, location.hash) then
        some location.pathId
      else pool.locations.get key := by
  unfold StoragePool.noteLocation
  by_cases available : location.state = .available
  · simp [available, get_put]
  · simp [available]

theorem recoverLocation_ground (location : StorageLocationRecord) :
    SameGround st (recoverLocation codec st location) := by
  unfold recoverLocation
  split
  · exact ⟨rfl, rfl, rfl⟩
  · split
    · exact ⟨rfl, rfl, rfl⟩
    · split
      · exact ⟨rfl, rfl, (noteLocation_paths _ _).symm⟩
      · exact ⟨rfl, rfl, rfl⟩

def recoveredLocation (codec : Codec) (st : ContentStore) (key : ContentKey) (row : LocationRow) :
    Option String :=
  match row.state with
  | .available => if (st.pool.path row.pathId).isSome then some row.pathId else none
  | .pending =>
    match st.pool.contentPathIn row.pathId key.1 key.2 with
    | .ok file =>
      if kindPayloadHashMatches codec st file key.2 row.sizeBytes then some row.pathId else none
    | .error _ => none

theorem loadLocations_get (empty : pool.locations = Table.empty)
    (records : Table ContentKey LocationRow) (key : ContentKey) :
    (loadLocations pool (records.entries.map fun (key, row) =>
        ⟨key.1, key.2, row.pathId, row.sizeBytes, row.state⟩)).locations.get key =
      (records.get key).bind fun row =>
        if row.state = .available ∧ (pool.path row.pathId).isSome then some row.pathId
        else none := by
  unfold loadLocations
  rw [List.foldl_map]
  rw [foldl_entries records _ (fun (p : StoragePool) key => p.locations.get key)
    (fun p => p.paths = pool.paths)
    (fun _ row old =>
      if row.state = .available ∧ (pool.path row.pathId).isSome then some row.pathId else old)
    _ _ _ pool rfl key]
  · rw [empty]
    cases records.get key <;> rfl
  · intro p row same
    simp only
    split
    · exact same
    · rw [noteLocation_paths]; exact same
  · intro p k row same
    have known := path_congr same row.pathId
    by_cases available : row.state = .available
    · cases found : pool.path row.pathId with
      | none => simp [available, known, found]
      | some q => simp [available, known, found, noteLocation_get]
    · simp [available]
  · intro p k row j same ne
    simp only
    split
    · rfl
    · rw [noteLocation_get, if_neg]
      intro both
      exact ne both.2

theorem loadLocations_paths (locations : List StorageLocationRecord) :
    (loadLocations pool locations).paths = pool.paths := by
  unfold loadLocations
  induction locations generalizing pool with
  | nil => rfl
  | cons location locations ih =>
    rw [List.foldl_cons, ih]
    split
    · rfl
    · exact noteLocation_paths _ _

theorem recover_ground (codec : Codec) (locations : List StorageLocationRecord)
    (st : ContentStore) : SameGround st (recoverPendingStorageLocations codec st locations) := by
  unfold recoverPendingStorageLocations
  induction locations generalizing st with
  | nil => exact ⟨rfl, rfl, rfl⟩
  | cons location locations ih =>
    exact (recoverLocation_ground location).trans (ih (recoverLocation codec st location))

theorem reloaded_ground (st : ContentStore) : SameGround st (reloaded st) := by
  refine ⟨rfl, rfl, ?_⟩
  exact (loadLocations_paths { st.pool with locations := Table.empty } _).symm

theorem restart_ground (codec : Codec) (st : ContentStore) : SameGround st (restart codec st) :=
  (reloaded_ground st).trans (recover_ground codec _ _)

theorem matches_congr {a b : ContentStore} (same : SameGround a b) (file : FilePath)
    (hash : String) (size : Nat) :
    kindPayloadHashMatches codec a file hash size = kindPayloadHashMatches codec b file hash size := by
  unfold kindPayloadHashMatches
  rw [fileAt_congr same]

theorem contentPathIn_congr {p q : StoragePool} (same : p.paths = q.paths) (id : String)
    (kind : StorageContentKind) (hash : String) :
    p.contentPathIn id kind hash = q.contentPathIn id kind hash := by
  unfold StoragePool.contentPathIn
  rw [path_congr same]

theorem recoverLocation_hit {x : ContentStore} (same : SameGround st x) (key : ContentKey)
    (row : LocationRow) :
    (recoverLocation codec x ⟨key.1, key.2, row.pathId, row.sizeBytes, row.state⟩).pool.locations.get
        key =
      if row.state = .pending ∧ (recoveredLocation codec st key row).isSome then some row.pathId
      else x.pool.locations.get key := by
  unfold recoverLocation recoveredLocation
  simp only
  by_cases pending : row.state = .pending
  · simp only [pending, ne_eq, not_true_eq_false, if_false, true_and,
      contentPathIn_congr same.2.2]
    cases x.pool.contentPathIn row.pathId key.1 key.2 with
    | error e => simp [ContentStore.deleteStorageLocation]
    | ok file =>
      simp only [matches_congr same]
      split
      · simp [noteLocation_get, ContentStore.persistStorageLocation]
      · simp [ContentStore.deleteStorageLocation]
  · simp [pending]

theorem recoverLocation_miss {x : ContentStore} {key other : ContentKey} (row : LocationRow)
    (ne : other ≠ key) :
    (recoverLocation codec x ⟨key.1, key.2, row.pathId, row.sizeBytes, row.state⟩).pool.locations.get
        other = x.pool.locations.get other := by
  unfold recoverLocation
  simp only
  split
  · rfl
  · split
    · rfl
    · split
      · rw [noteLocation_get, if_neg]
        · rfl
        · intro both
          exact ne both.2
      · rfl

theorem restart_location (codec : Codec) (st : ContentStore) (key : ContentKey) :
    (restart codec st).pool.locations.get key =
      (st.records.get key).bind (recoveredLocation codec st key) := by
  have loaded : (reloaded st).pool.locations.get key = _ :=
    loadLocations_get { st.pool with locations := Table.empty } rfl st.records key
  unfold restart recoverPendingStorageLocations ContentStore.loadStorageLocations
  rw [List.foldl_map]
  rw [foldl_entries st.records _ (fun (x : ContentStore) key => x.pool.locations.get key)
    (SameGround st)
    (fun key row old =>
      if row.state = .pending ∧ (recoveredLocation codec st key row).isSome then some row.pathId
      else old) _ _ _ (reloaded st) (reloaded_ground st) key, loaded]
  · cases st.records.get key with
    | none => rfl
    | some row =>
      simp only [Option.bind_some]
      cases state : row.state with
      | available => simp [recoveredLocation, state]; rfl
      | pending =>
        simp only [true_and, recoveredLocation, state]
        split
        · split <;> simp_all
        · simp
  · intro x row same
    exact same.trans (recoverLocation_ground _)
  · intro x k row same
    exact recoverLocation_hit same k row
  · intro x k row j _ ne
    exact recoverLocation_miss row ne

end Restart

section Recovery
variable {codec : Codec} {st : ContentStore} {kind : StorageContentKind} {hash : String}

theorem restart_readable_of_no_record (absent : st.records.get (kind, hash) = none) :
    Readable codec (restart codec st) kind hash ↔
      ∃ p, st.pool.legacyReadPath = some p ∧ ValidAt codec st p.config.id kind hash := by
  have ground := restart_ground codec st
  have location := restart_location codec st (kind, hash)
  rw [absent] at location
  rw [readable_of_no_location location, ← legacyReadPath_congr ground.2.2]
  simp only [← validAt_congr ground]

theorem restart_readable_of_available {id : String} {size : Nat} {p : StoragePathRuntime}
    (stored : st.records.get (kind, hash) = some ⟨id, size, .available⟩)
    (known : st.pool.path id = some p) (valid : ValidAt codec st id kind hash) :
    Readable codec (restart codec st) kind hash := by
  have ground := restart_ground codec st
  have location := restart_location codec st (kind, hash)
  rw [stored] at location
  simp only [Option.bind_some, recoveredLocation, known, Option.isSome_some, if_true] at location
  rw [readable_of_location location ((path_congr ground.2.2 id).symm.trans known),
    ← validAt_congr ground]
  exact valid

theorem restart_readable_of_pending {id : String} {size : Nat} {p : StoragePathRuntime}
    {file : FilePath} (stored : st.records.get (kind, hash) = some ⟨id, size, .pending⟩)
    (known : st.pool.path id = some p) (placed : contentPathInRuntime id kind hash = .ok file)
    (either : kindPayloadHashMatches codec st file hash size = true ∨
      ∃ q, st.pool.legacyReadPath = some q ∧ ValidAt codec st q.config.id kind hash) :
    Readable codec (restart codec st) kind hash := by
  have ground := restart_ground codec st
  have location := restart_location codec st (kind, hash)
  have inside : st.pool.contentPathIn id kind hash = .ok file := by
    simp [StoragePool.contentPathIn, known, path_id_eq known, placed]
  rw [stored] at location
  simp only [Option.bind_some, recoveredLocation, inside] at location
  by_cases complete : kindPayloadHashMatches codec st file hash size = true
  · rw [if_pos complete] at location
    rw [readable_of_location location ((path_congr ground.2.2 id).symm.trans known),
      ← validAt_congr ground]
    unfold kindPayloadHashMatches at complete
    split at complete
    · next entry visible =>
      simp only [Bool.and_eq_true, beq_iff_eq] at complete
      exact ⟨file, entry, placed, visible, complete.2⟩
    · cases complete
  · rw [if_neg complete] at location
    obtain ⟨q, legacy, valid⟩ := either.resolve_left complete
    rw [readable_of_no_location location]
    exact ⟨q, (legacyReadPath_congr ground.2.2).symm.trans legacy, (validAt_congr ground).mp valid⟩

theorem betterWritePath_cases (free : String → Option Nat) (expected : Nat)
    (selected : Option (StoragePathRuntime × Nat)) (p : StoragePathRuntime) :
    betterWritePath codec free hash expected selected p = selected ∨
      (∃ score, betterWritePath codec free hash expected selected p = some (p, score)) ∧
        p.available = true ∧ p.config.state = .active ∧ (free p.config.id).isSome := by
  unfold betterWritePath
  split
  · exact .inl rfl
  · next usable_path =>
    have usable : p.available = true ∧ p.config.state = .active := by
      simpa using usable_path
    split
    · exact .inl rfl
    · next free_bytes space =>
      simp only
      split
      · exact .inl rfl
      · split
        · exact .inr ⟨⟨_, rfl⟩, usable.1, usable.2, by rw [space]; rfl⟩
        · split
          · exact .inr ⟨⟨_, rfl⟩, usable.1, usable.2, by rw [space]; rfl⟩
          · exact .inl rfl

theorem selectWritePath_ok {pool : StoragePool} {free : String → Option Nat} {expected : Nat}
    {target : StoragePathRuntime}
    (chosen : selectWritePath codec pool free hash expected = .ok target) :
    target ∈ pool.paths ∧ target.available = true ∧ target.config.state = .active ∧
      (free target.config.id).isSome := by
  have general : ∀ (paths : List StoragePathRuntime) (start : Option (StoragePathRuntime × Nat))
      (p : StoragePathRuntime) (score : Nat),
      paths.foldl (betterWritePath codec free hash expected) start = some (p, score) →
        start = some (p, score) ∨ (p ∈ paths ∧ p.available = true ∧ p.config.state = .active ∧
          (free p.config.id).isSome) := by
    intro paths
    induction paths with
    | nil => intro start p score found; exact .inl found
    | cons q paths ih =>
      intro start p score found
      rw [List.foldl_cons] at found
      rcases ih _ p score found with kept | ⟨member, rest⟩
      · rcases betterWritePath_cases free expected start q with same | ⟨⟨other, taken⟩, facts⟩
        · exact .inl (same ▸ kept)
        · rw [taken] at kept
          cases kept
          exact .inr ⟨List.mem_cons_self, facts⟩
      · exact .inr ⟨List.mem_cons_of_mem _ member, rest⟩
  unfold selectWritePath at chosen
  split at chosen
  · next p score found =>
    cases chosen
    rcases general _ _ _ _ found with nothing | facts
    · cases nothing
    · exact facts
  · cases chosen

end Recovery

section Relocation
variable {codec : Codec} {free : String → Option Nat} {now : Int} {st : ContentStore}
  {kind : StorageContentKind} {hash : String}

def pendingRecord (kind : StorageContentKind) (hash target_id : String) (payload : Bytes) :
    StorageLocationRecord := ⟨kind, hash, target_id, payload.length, .pending⟩

def availableRecord (kind : StorageContentKind) (hash target_id : String) (payload : Bytes) :
    StorageLocationRecord := ⟨kind, hash, target_id, payload.length, .available⟩

variable {source target_path : FilePath}

theorem moveContent_end {P : ContentStore → Prop}
    {payload : Bytes} {target_id : String} (untouched : P st)
    (announced : P (st.persistStorageLocation (pendingRecord kind hash target_id payload)))
    (withdrawn : P ((st.persistStorageLocation
      (pendingRecord kind hash target_id payload)).deleteStorageLocation kind hash))
    (written : P ((st.persistStorageLocation
      (pendingRecord kind hash target_id payload)).writeFile target_path ⟨payload, now⟩))
    (finished : ∀ pool : StoragePool, pool.paths = st.pool.paths →
      P { ((st.persistStorageLocation (pendingRecord kind hash target_id payload)).writeFile
        target_path ⟨payload, now⟩).persistStorageLocation
          (availableRecord kind hash target_id payload) with pool := pool })
    (moved : ∀ pool : StoragePool, pool.paths = st.pool.paths →
      P { (((st.persistStorageLocation (pendingRecord kind hash target_id payload)).writeFile
        target_path ⟨payload, now⟩).persistStorageLocation
          (availableRecord kind hash target_id payload)).removeFile source with pool := pool })
    (plan : List Fault) :
    P ((moveContent now kind hash source payload target_id target_path).run ⟨st, plan⟩).2.state := by
  unfold moveContent
  refine effect_bind_end untouched announced ?_
  intro plan
  refine attempt_bind_end announced written ?_ ?_
  · -- The target file is complete: from here on both records point at it.
    intro plan
    refine effect_bind_end written (finished _ rfl) ?_
    intro plan
    have noted := noteLocation_paths st.pool (availableRecord kind hash target_id payload)
    refine effect_bind_end (finished _ noted) (moved _ noted) ?_
    intro plan
    exact moved _ noted
  · intro plan
    refine attempt_bind_end announced withdrawn ?_ ?_
    · intro plan; exact withdrawn
    · intro plan; exact announced

variable {source_id : String}

theorem placed_on_every_path {source : FilePath}
    (placed : contentPathInRuntime source_id kind hash = .ok source) (id : String) :
    ∃ file, contentPathInRuntime id kind hash = .ok file ∧ file.pathId = id ∧
      (file = source → id = source_id) := by
  unfold contentPathInRuntime at placed ⊢
  cases kind with
  | chunk =>
    simp only at placed ⊢
    split at placed
    · cases placed
      exact ⟨_, if_pos ‹_›, rfl, fun same => congrArg FilePath.pathId same⟩
    · cases placed
  | manifest =>
    simp only at placed ⊢
    split at placed
    · cases placed
      exact ⟨_, if_pos ‹_›, rfl, fun same => congrArg FilePath.pathId same⟩
    · cases placed

variable {entry : FileEntry}

theorem relocate_checked {source : FilePath}
    (stored : st.fileAt source = some entry) (intact : hashHex codec entry.bytes = hash)
    (plan : List Fault) :
    (relocateStorageContent codec free now kind hash source).run ⟨st, plan⟩ =
      (liftResult (selectWritePath codec st.pool (st.freeSpace free) hash entry.bytes.length) >>=
        fun target => liftResult (contentPathInRuntime target.config.id kind hash) >>=
          fun target_path =>
            if target_path = source then pure false
            else moveContent now kind hash source entry.bytes target.config.id target_path).run
        ⟨st, plan⟩ := by
  unfold relocateStorageContent
  rw [bind_run_ok (get_run _)]
  simp only [stored, intact, ne_eq, not_true_eq_false, if_false]

theorem relocate_stays {source : FilePath}
    (placed : contentPathInRuntime source_id kind hash = .ok source)
    (stored : st.fileAt source = some entry) (intact : hashHex codec entry.bytes = hash)
    (stays : ∀ target, selectWritePath codec st.pool (st.freeSpace free) hash
      entry.bytes.length = .ok target → target.config.id = source_id) (plan : List Fault) :
    ((relocateStorageContent codec free now kind hash source).run ⟨st, plan⟩).2.state = st := by
  rw [relocate_checked stored intact]
  cases chosen : selectWritePath codec st.pool (st.freeSpace free) hash entry.bytes.length with
  | error e => rfl
  | ok target =>
    rw [bind_run_ok (liftResult_ok _ _)]
    rw [stays target chosen, placed, bind_run_ok (liftResult_ok _ _)]
    simp

theorem relocate_moves
    {target : StoragePathRuntime} (stored : st.fileAt source = some entry)
    (intact : hashHex codec entry.bytes = hash)
    (chosen : selectWritePath codec st.pool (st.freeSpace free) hash entry.bytes.length = .ok target)
    (placed : contentPathInRuntime target.config.id kind hash = .ok target_path)
    (elsewhere : target_path ≠ source) (plan : List Fault) :
    (relocateStorageContent codec free now kind hash source).run ⟨st, plan⟩ =
      (moveContent now kind hash source entry.bytes target.config.id target_path).run
        ⟨st, plan⟩ := by
  rw [relocate_checked stored intact, chosen, bind_run_ok (liftResult_ok _ _), placed,
    bind_run_ok (liftResult_ok _ _), if_neg elsewhere]

def LegacyCopy (codec : Codec) (st : ContentStore) (kind : StorageContentKind) (hash : String) :
    Prop :=
  ∃ p, st.pool.legacyReadPath = some p ∧ ValidAt codec st p.config.id kind hash

/-- A relocation with a legacy copy survives every fault: until the target file is
    complete the recovery may fall back, afterwards it finds the target. -/
theorem moveContent_survives {size : Nat} {target p : StoragePathRuntime}
    (known : st.pool.path source_id = some p)
    (recorded : st.records.get (kind, hash) = some ⟨source_id, size, .available⟩)
    (source_placed : contentPathInRuntime source_id kind hash = .ok source)
    (stored : st.fileAt source = some entry) (intact : hashHex codec entry.bytes = hash)
    (target_known : st.pool.path target.config.id = some target)
    (placed : contentPathInRuntime target.config.id kind hash = .ok target_path)
    (visible : st.mounted target_path.pathId = true) (elsewhere : target_path ≠ source)
    (legacy : LegacyCopy codec st kind hash) (plan : List Fault) :
    Readable codec (restart codec ((moveContent now kind hash source entry.bytes
      target.config.id target_path).run ⟨st, plan⟩).2.state) kind hash := by
  have written : ∀ x : ContentStore, x.mounted = st.mounted →
      x.disk.get target_path = some ⟨entry.bytes, now⟩ →
      ValidAt codec x target.config.id kind hash := by
    intro x mounts found
    refine ⟨target_path, ⟨entry.bytes, now⟩, placed, ?_, intact⟩
    rw [ContentStore.fileAt, mounts, if_pos visible, found]
  refine moveContent_end (P := fun x => Readable codec (restart codec x) kind hash)
    ?_ ?_ ?_ ?_ ?_ ?_ plan
  · exact restart_readable_of_available recorded known
      ⟨source, entry, source_placed, stored, intact⟩
  · exact restart_readable_of_pending (get_put_self _ _ _) target_known placed (.inr legacy)
  · exact (restart_readable_of_no_record (get_del_self _ _)).mpr legacy
  · refine restart_readable_of_pending (get_put_self _ _ _) target_known placed (.inl ?_)
    have found : (((st.persistStorageLocation (pendingRecord kind hash target.config.id
        entry.bytes)).writeFile target_path ⟨entry.bytes, now⟩).fileAt target_path) =
          some ⟨entry.bytes, now⟩ := by
      exact (if_pos visible).trans (get_put_self _ _ _)
    unfold kindPayloadHashMatches
    rw [found]
    simp [intact, pendingRecord]
  · intro pool same
    exact restart_readable_of_available (get_put_self _ _ _)
      ((path_congr same _).trans target_known) (written _ rfl (get_put_self _ _ _))
  · intro pool same
    refine restart_readable_of_available (get_put_self _ _ _)
      ((path_congr same _).trans target_known) (written _ rfl ?_)
    exact (get_del_other _ elsewhere).trans (get_put_self _ _ _)

/-- Refusing the target write deletes the only record, so the legacy path has to serve. -/
theorem refused_write_readable
    {target_id : String}
    (readable : Readable codec (restart codec ((moveContent now kind hash source entry.bytes
      target_id target_path).run ⟨st, [.none, .refused]⟩).2.state) kind hash) :
    LegacyCopy codec st kind hash := by
  have ended : ((moveContent now kind hash source entry.bytes target_id target_path).run
      ⟨st, [.none, .refused]⟩).2.state = (st.persistStorageLocation
        (pendingRecord kind hash target_id entry.bytes)).deleteStorageLocation kind hash := rfl
  have deleted : ((st.persistStorageLocation (pendingRecord kind hash target_id
      entry.bytes)).deleteStorageLocation kind hash).records.get (kind, hash) = none :=
    get_del_self _ _
  rw [ended] at readable
  exact (restart_readable_of_no_record deleted).mp readable

/-- A relocation is crash safe exactly when it writes nothing or the legacy read path
    already holds a valid copy. -/
theorem relocation_crash_safe_iff (codec : Codec) (free : String → Option Nat) (now : Int)
    (st : ContentStore) (kind : StorageContentKind) (hash source_id : String) (source : FilePath)
    (entry : FileEntry) (size : Nat) (known : (st.pool.path source_id).isSome = true)
    (recorded : st.records.get (kind, hash) = some ⟨source_id, size, .available⟩)
    (placed : contentPathInRuntime source_id kind hash = .ok source)
    (stored : st.fileAt source = some entry) (intact : hashHex codec entry.bytes = hash) :
    (∀ plan, Readable codec (restart codec
        ((relocateStorageContent codec free now kind hash source).run ⟨st, plan⟩).2.state)
        kind hash) ↔
      (∀ target, selectWritePath codec st.pool (st.freeSpace free) hash entry.bytes.length =
        .ok target → target.config.id = source_id) ∨ LegacyCopy codec st kind hash := by
  obtain ⟨p, path_known⟩ := Option.isSome_iff_exists.mp known
  have source_valid : ValidAt codec st source_id kind hash := ⟨source, entry, placed, stored, intact⟩
  by_cases stays : ∀ target, selectWritePath codec st.pool (st.freeSpace free) hash
      entry.bytes.length = .ok target → target.config.id = source_id
  · refine ⟨fun _ => .inl stays, fun _ plan => ?_⟩
    rw [relocate_stays placed stored intact stays]
    exact restart_readable_of_available recorded path_known source_valid
  · simp only [stays, false_or]
    push Not at stays
    obtain ⟨target, chosen, different⟩ := stays
    obtain ⟨target_path, target_placed, named, apart⟩ :=
      placed_on_every_path placed target.config.id
    have elsewhere : target_path ≠ source := fun same => different (apart same)
    obtain ⟨member, _, _, space⟩ := selectWritePath_ok chosen
    have visible : st.mounted target_path.pathId = true := by
      rw [named]
      by_contra hidden
      simp [ContentStore.freeSpace, hidden] at space
    constructor
    · intro safe
      have refused := safe [.none, .refused]
      rw [relocate_moves stored intact chosen target_placed elsewhere] at refused
      exact refused_write_readable refused
    · intro legacy plan
      rw [relocate_moves stored intact chosen target_placed elsewhere]
      exact moveContent_survives path_known recorded placed stored intact (path_of_mem member)
        target_placed visible elsewhere legacy plan

end Relocation

section DrainedPath

-- Digests of the payload "abc" and of its hash followed by a zero byte and a path id.
def abcDigest : Bytes :=
  [100, 55, 179, 172, 56, 70, 81, 51, 255, 182, 59, 117, 39, 58, 141, 181,
   72, 197, 88, 70, 93, 121, 219, 3, 253, 53, 156, 108, 213, 189, 157, 133]

def abcHash : String := "6437b3ac38465133ffb63b75273a8db548c558465d79db03fd359c6cd5bd9d85"

def abcCodec : Codec where
  digest payload :=
    if payload = [97, 98, 99] then abcDigest
    else if payload = textBytes abcHash ++ [0] ++ textBytes "legacy-primary" then
      [151, 211, 121, 2, 154, 149, 52, 74, 240, 199, 156, 149, 88, 158, 237, 145,
       131, 199, 145, 236, 230, 244, 92, 10, 29, 33, 139, 68, 187, 254, 49, 118]
    else if payload = textBytes abcHash ++ [0] ++ textBytes "disk-b" then
      [237, 199, 189, 255, 229, 212, 112, 66, 128, 65, 122, 146, 36, 186, 233, 165,
       29, 67, 196, 216, 221, 103, 204, 215, 62, 198, 140, 205, 94, 14, 151, 178]
    else List.replicate 32 0
  digest_length payload := by
    split
    · rfl
    · split
      · rfl
      · split
        · rfl
        · exact List.length_replicate
  encodeManifest _ := []
  decodeManifest _ := none

def drainingStore (draining active : String) (distinct : draining ≠ active) : ContentStore where
  pool :=
    { paths := [⟨⟨draining, .draining, 1, 0⟩, true⟩, ⟨⟨active, .active, 1, 0⟩, true⟩]
      ids_nodup := by simpa using distinct
      locations := Table.empty.put (.chunk, abcHash) draining }
  disk := Table.empty.put (chunkFile draining abcHash) ⟨[97, 98, 99], 0⟩
  mounted _ := true
  records := Table.empty.put (.chunk, abcHash) ⟨draining, 3, .available⟩

/-- The process stops right after the pending record was written. The restart drops that
    record, and the read goes to a path that never had the chunk. -/
theorem drained_chunk_lost_after_crash :
    let st := drainingStore "disk-b" "legacy-primary" (by decide)
    let stopped := ((relocateStorageContent abcCodec (fun _ => some 1000) 0 .chunk abcHash
      (chunkFile "disk-b" abcHash)).run ⟨st, [.crashAfter]⟩).2.state
    st.fileAt (chunkFile "disk-b" abcHash) = some ⟨[97, 98, 99], 0⟩ ∧
      hashHex abcCodec [97, 98, 99] = abcHash ∧
      st.records.get (.chunk, abcHash) = some ⟨"disk-b", 3, .available⟩ ∧
      (restart abcCodec stopped).pool.contentPath .chunk abcHash =
        .ok (chunkFile "legacy-primary" abcHash) ∧
      (restart abcCodec stopped).fileAt (chunkFile "legacy-primary" abcHash) = none := by
  decide +kernel

/-- Draining the legacy path itself is safe: until the move is done it still serves reads. -/
theorem drained_legacy_path_crash_safe :
    let st := drainingStore "legacy-primary" "disk-b" (by decide)
    st.fileAt (chunkFile "legacy-primary" abcHash) = some ⟨[97, 98, 99], 0⟩ ∧
      ∀ plan, Readable abcCodec (restart abcCodec ((relocateStorageContent abcCodec
        (fun _ => some 1000) 0 .chunk abcHash (chunkFile "legacy-primary" abcHash)).run
          ⟨st, plan⟩).2.state) .chunk abcHash := by
  refine ⟨by decide +kernel, ?_⟩
  refine (relocation_crash_safe_iff abcCodec (fun _ => some 1000) 0
    (drainingStore "legacy-primary" "disk-b" (by decide)) .chunk abcHash "legacy-primary"
    (chunkFile "legacy-primary" abcHash) ⟨[97, 98, 99], 0⟩ 3 (by decide) (by decide +kernel)
    (by decide +kernel) (by decide +kernel) (by decide +kernel)).mpr (.inr ?_)
  exact ⟨⟨⟨"legacy-primary", .draining, 1, 0⟩, true⟩, by decide,
    chunkFile "legacy-primary" abcHash, ⟨[97, 98, 99], 0⟩, by decide +kernel, by decide +kernel,
    by decide +kernel⟩

end DrainedPath

end BerryKeepStorageRelocation
