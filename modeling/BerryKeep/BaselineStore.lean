import BerryKeep.StartupConflicts

/-!
The table in which the agent remembers how it left each local entry: kind, size
and modification time, and for a file the fingerprint of its content. A write
that brings no fingerprint leaves the one of the row in place, also when it
changes the rest of the row. The startup trusts the table: a file that looks as
remembered and has the remembered fingerprint on the remote side is not read.
-/
namespace BerryKeepBaselineStore
open FiniteTable TextOperations StatefulProgram BerryKeepFolderSync BerryKeepStartupConflicts

structure BaselineRow where
  entry : LocalEntryState
  contentHash : Option String
  deriving DecidableEq

abbrev BaselineEntries := Table String BaselineRow

abbrev BaselineM := Program BaselineEntries String

def loadLocalBaseline (rows : BaselineEntries) : LocalTreeState :=
  rows.mapValues BaselineRow.entry

def loadLocalBaselineHashes (rows : BaselineEntries) : Table String String :=
  (rows.retain fun _ row => row.entry.isFile && row.contentHash.any fun hash => hash ≠ "").mapValues
    fun row => row.contentHash.getD ""

-- Sizes and times are stored as 64-bit signed integers.
def checkRange (path : String) (entry_state : LocalEntryState) : Except String Unit :=
  if 2 ^ 63 ≤ entry_state.sizeBytes then
    .error ("size overflow while persisting baseline: " ++ path)
  else if 2 ^ 63 ≤ entry_state.modifiedUnixMs then
    .error ("mtime overflow while persisting baseline: " ++ path)
  else .ok ()

def checkRanges : List (String × LocalEntryState) → Except String Unit
  | [] => .ok ()
  | (path, entry_state) :: rest =>
    match checkRange path entry_state with
    | .error error => .error error
    | .ok _ => checkRanges rest

def inPathOrder (state : LocalTreeState) : List (String × LocalEntryState) :=
  state.entries.insertionSort fun left right => left.1 ≤ right.1

def rewritten (existing_hashes : Table String String) (state : LocalTreeState) : BaselineEntries :=
  state.entries.foldl (fun rows row => rows.put row.1
    ⟨row.2, match row.2.kind with
      | .file => existing_hashes.get row.1
      | .directory => none⟩) Table.empty

/-- A value out of range ends the transaction, and nothing is written. -/
def persistLocalBaseline (state : LocalTreeState) : BaselineM Unit := do
  let rows ← get
  lift (checkRanges (inPathOrder state))
  set (rewritten (loadLocalBaselineHashes rows) state)

def mergedHash (rows : BaselineEntries) (path : String) (entry_state : LocalEntryState)
    (content_hash : Option String) : Option String :=
  match entry_state.kind with
  | .directory => none
  | .file => (content_hash.filter fun hash => !isBlank hash).or
      ((rows.get path).bind BaselineRow.contentHash)

def upsertBaselineEntryWithHash (path : String) (entry_state : LocalEntryState)
    (content_hash : Option String) : BaselineM Unit := do
  lift (checkRange path entry_state)
  modify fun rows => rows.put path ⟨entry_state, mergedHash rows path entry_state content_hash⟩

def upsertBaselineEntry (path : String) (entry_state : LocalEntryState) : BaselineM Unit :=
  upsertBaselineEntryWithHash path entry_state none

def removeBaselineEntry (path : String) : BaselineM Unit := modify fun rows => rows.del path

inductive BaselineCall where
  | upsert (path : String) (entry_state : LocalEntryState)
  | upsertWithHash (path : String) (entry_state : LocalEntryState) (content_hash : Option String)
  | persist (state : LocalTreeState)
  | remove (path : String)

def BaselineCall.program : BaselineCall → BaselineM Unit
  | .upsert path entry_state => upsertBaselineEntry path entry_state
  | .upsertWithHash path entry_state content_hash =>
    upsertBaselineEntryWithHash path entry_state content_hash
  | .persist state => persistLocalBaseline state
  | .remove path => removeBaselineEntry path

def execCall (call : BaselineCall) (rows : BaselineEntries) : BaselineEntries :=
  (call.program.run rows).2

section Loads
variable (rows : BaselineEntries) (path : String)

theorem loadLocalBaseline_get :
    (loadLocalBaseline rows).get path = (rows.get path).map BaselineRow.entry := by
  rw [loadLocalBaseline, get_mapValues]

theorem loadHashes_get {hash : String} :
    (loadLocalBaselineHashes rows).get path = some hash ↔
      ∃ row, rows.get path = some row ∧ row.entry.isFile = true ∧
        row.contentHash = some hash ∧ hash ≠ "" := by
  rw [loadLocalBaselineHashes, get_mapValues, get_retain]
  cases stored : rows.get path with
  | none => simp
  | some row =>
    cases kept : row.entry.isFile with
    | false => simp [kept]
    | true =>
      cases recorded : row.contentHash with
      | none => simp [recorded]
      | some found =>
        by_cases empty : found = ""
        · subst empty
          simp [kept, recorded]
        · simp only [kept, recorded, Option.filter_some, Option.any_some, ne_eq, empty,
            not_false_eq_true, decide_true, Bool.and_self, ↓reduceIte, Option.map_some,
            Option.getD_some, Option.some.injEq, exists_eq_left', true_and]
          constructor
          · intro same
            exact ⟨same, same ▸ empty⟩
          · intro same
            exact same.1

theorem rewritten_get (existing_hashes : Table String String) (state : LocalTreeState) :
    (rewritten existing_hashes state).get path = (state.get path).map fun entry_state =>
      ⟨entry_state, match entry_state.kind with
        | .file => existing_hashes.get path
        | .directory => none⟩ := by
  have collected := foldl_entries state
    (fun (rows : BaselineEntries) (row : String × LocalEntryState) => rows.put row.1
      ⟨row.2, match row.2.kind with
        | .file => existing_hashes.get row.1
        | .directory => none⟩)
    Table.get (fun _ => True)
    (fun k v _ => some ⟨v, match v.kind with
        | .file => existing_hashes.get k
        | .directory => none⟩)
    (fun _ _ _ => trivial) (fun x k v _ => get_put_self x k _)
    (fun x k v j _ ne => get_put_other x _ ne) Table.empty trivial path
  rw [rewritten, collected]
  cases state.get path <;> rfl

end Loads

section Exactness
variable {γ : Type} (content : String → LocalEntryState → γ) (fingerprint : γ → String)

def Describes (rows : BaselineEntries) : Prop :=
  ∀ path row hash, rows.get path = some row → row.contentHash = some hash →
    hash = fingerprint (content path row.entry)

def Honest : BaselineCall → Prop
  | .upsertWithHash path entry_state content_hash =>
    ∀ hash, content_hash = some hash → hash = fingerprint (content path entry_state)
  | _ => True

def Carries (rows : BaselineEntries) (path : String) (entry_state : LocalEntryState)
    (content_hash : Option String) : Prop :=
  checkRange path entry_state = .ok () → entry_state.kind = .file →
    (content_hash.filter fun hash => !isBlank hash) = none →
      ∀ row hash, rows.get path = some row → row.contentHash = some hash →
        hash = fingerprint (content path entry_state)

def CarriesOwn (rows : BaselineEntries) : BaselineCall → Prop
  | .upsert path entry_state => Carries content fingerprint rows path entry_state none
  | .upsertWithHash path entry_state content_hash =>
    Carries content fingerprint rows path entry_state content_hash
  | .persist state =>
    checkRanges (inPathOrder state) = .ok () →
      ∀ path entry_state hash, state.get path = some entry_state → entry_state.kind = .file →
        (loadLocalBaselineHashes rows).get path = some hash →
          hash = fingerprint (content path entry_state)
  | .remove _ => True

variable {content fingerprint} {rows : BaselineEntries}

theorem upsert_rows (path : String) (entry_state : LocalEntryState)
    (content_hash : Option String) :
    ((upsertBaselineEntryWithHash path entry_state content_hash).run rows).2 =
      match checkRange path entry_state with
      | .ok _ => rows.put path ⟨entry_state, mergedHash rows path entry_state content_hash⟩
      | .error _ => rows := by
  unfold upsertBaselineEntryWithHash
  rw [bind_run, lift_run]
  cases checkRange path entry_state <;> rfl

theorem persist_rows (state : LocalTreeState) :
    ((persistLocalBaseline state).run rows).2 =
      match checkRanges (inPathOrder state) with
      | .ok _ => rewritten (loadLocalBaselineHashes rows) state
      | .error _ => rows := by
  unfold persistLocalBaseline
  rw [bind_run, get_run]
  dsimp only
  rw [bind_run, lift_run]
  cases checkRanges (inPathOrder state) <;> rfl

variable {path : String}

theorem merged_exact {entry_state : LocalEntryState}
    {content_hash : Option String} (in_range : checkRange path entry_state = .ok ())
    (honest : ∀ hash, content_hash = some hash → hash = fingerprint (content path entry_state)) :
    (∀ hash, mergedHash rows path entry_state content_hash = some hash →
        hash = fingerprint (content path entry_state)) ↔
      Carries content fingerprint rows path entry_state content_hash := by
  unfold mergedHash Carries
  cases kind : entry_state.kind with
  | directory => simp
  | file =>
    simp only [in_range, forall_const]
    cases supplied : content_hash.filter fun hash => !isBlank hash with
    | some hash =>
      have given := (Option.filter_eq_some_iff.mp supplied).1
      simp [honest hash given]
    | none =>
      simp only [Option.none_or, forall_const, Option.bind_eq_some_iff]
      constructor
      · intro merged row hash stored recorded
        exact merged hash ⟨row, stored, recorded⟩
      · rintro carried hash ⟨row, stored, recorded⟩
        exact carried row hash stored recorded

theorem upsert_exact_iff {entry_state : LocalEntryState}
    {content_hash : Option String} (exact : Describes content fingerprint rows)
    (honest : ∀ hash, content_hash = some hash → hash = fingerprint (content path entry_state)) :
    Describes content fingerprint
        ((upsertBaselineEntryWithHash path entry_state content_hash).run rows).2 ↔
      Carries content fingerprint rows path entry_state content_hash := by
  rw [upsert_rows]
  cases range : checkRange path entry_state with
  | error error =>
    refine iff_of_true exact ?_
    intro in_range
    cases range.symm.trans in_range
  | ok _ =>
    rw [← merged_exact range honest]
    constructor
    · intro after hash merged
      exact after path _ hash (get_put_self _ _ _) merged
    · intro merged other row hash stored recorded
      rcases get_put_some stored with ⟨same, rfl⟩ | ⟨-, stored⟩
      · rw [same]
        exact merged hash recorded
      · exact exact other row hash stored recorded

theorem persist_exact_iff {state : LocalTreeState} (exact : Describes content fingerprint rows) :
    Describes content fingerprint ((persistLocalBaseline state).run rows).2 ↔
      CarriesOwn content fingerprint rows (.persist state) := by
  rw [persist_rows]
  unfold CarriesOwn
  cases range : checkRanges (inPathOrder state) with
  | error error =>
    refine iff_of_true exact ?_
    intro in_range
    cases range.symm.trans in_range
  | ok _ =>
    constructor
    · intro after _ path entry_state hash stored file carried
      have row := rewritten_get path (loadLocalBaselineHashes rows) state
      rw [stored, Option.map_some, file] at row
      exact after path _ hash row carried
    · intro carried path row hash stored recorded
      rw [rewritten_get] at stored
      obtain ⟨entry_state, listed, rfl⟩ := Option.map_eq_some_iff.mp stored
      dsimp only at recorded ⊢
      split at recorded
      · next file => exact carried range path entry_state hash listed file recorded
      · cases recorded

theorem call_exact_iff {call : BaselineCall} (exact : Describes content fingerprint rows)
    (honest : Honest content fingerprint call) :
    Describes content fingerprint (execCall call rows) ↔
      CarriesOwn content fingerprint rows call := by
  cases call with
  | upsert path entry_state =>
    exact upsert_exact_iff exact fun hash supplied => by cases supplied
  | upsertWithHash path entry_state content_hash => exact upsert_exact_iff exact honest
  | persist state => exact persist_exact_iff exact
  | remove path =>
    refine iff_of_true ?_ trivial
    intro other row hash stored recorded
    change (rows.del path).get other = some row at stored
    exact exact other row hash (get_del_some stored).2 recorded

theorem matching_exact {local_state : LocalTreeState} {remote_hashes : Table String String}
    {content_hash_for_path : String → Except SyncError String}
    (exact : Describes content fingerprint rows)
    (truthful : ∀ path entry_state hash, local_state.get path = some entry_state →
      content_hash_for_path path = .ok hash → hash = fingerprint (content path entry_state))
    (matched : path ∈ (localPathsMatchingRemoteOnStartup local_state
      (some (loadLocalBaseline rows)) (loadLocalBaselineHashes rows) remote_hashes
      content_hash_for_path).items) :
    ∃ entry_state, local_state.get path = some entry_state ∧
      remote_hashes.get path = some (fingerprint (content path entry_state)) := by
  obtain ⟨entry_state, stored, _, passes⟩ := mem_localFilesWhere.mp matched
  refine ⟨entry_state, stored, ?_⟩
  cases remote : remote_hashes.get path with
  | none =>
    rw [remote] at passes
    cases passes
  | some remote_hash =>
    rw [remote] at passes
    simp only [Option.bind_some, loadLocalBaseline_get, Bool.or_eq_true, Bool.and_eq_true,
      decide_eq_true_eq] at passes
    rcases passes with ⟨unchanged, recorded⟩ | read
    · obtain ⟨row, found, same⟩ := Option.map_eq_some_iff.mp unchanged
      obtain ⟨other, found_too, _, hash, _⟩ := (loadHashes_get rows path).mp recorded
      rw [found] at found_too
      cases found_too
      rw [exact path row remote_hash found hash, same]
    · split at read
      · next local_hash hashed =>
        rw [← of_decide_eq_true read, truthful path entry_state local_hash stored hashed]
      · cases read

end Exactness

theorem baseline_hash_exact_iff {γ : Type} (content : String → LocalEntryState → γ)
    (fingerprint : γ → String) (rows : BaselineEntries) (calls : List BaselineCall)
    (start : Describes content fingerprint rows)
    (honest : ∀ call ∈ calls, Honest content fingerprint call) :
    ((∀ done, done <+: calls → Describes content fingerprint (runAll execCall rows done)) ↔
      AllSteps execCall (CarriesOwn content fingerprint) rows calls) ∧
    (AllSteps execCall (CarriesOwn content fingerprint) rows calls →
      ∀ local_state remote_hashes content_hash_for_path,
        (∀ path entry_state hash, local_state.get path = some entry_state →
          content_hash_for_path path = .ok hash → hash = fingerprint (content path entry_state)) →
        ∀ path ∈ (localPathsMatchingRemoteOnStartup local_state
          (some (loadLocalBaseline (runAll execCall rows calls)))
          (loadLocalBaselineHashes (runAll execCall rows calls)) remote_hashes
          content_hash_for_path).items,
        ∃ entry_state, local_state.get path = some entry_state ∧
          remote_hashes.get path = some (fingerprint (content path entry_state))) := by
  have whole : (∀ done, done <+: calls → Describes content fingerprint (runAll execCall rows done)) ↔
      AllSteps execCall (CarriesOwn content fingerprint) rows calls :=
    allSteps_iff_of (Honest content fingerprint) (Describes content fingerprint)
      (fun rows call fair carries exact => (call_exact_iff exact fair).mpr carries)
      (fun _ exact => exact)
      (fun rows call fair exact broken after => broken ((call_exact_iff exact fair).mp after))
      calls rows honest start
  refine ⟨whole, ?_⟩
  intro steps local_state remote_hashes content_hash_for_path truthful path matched
  exact matching_exact (whole.mpr steps calls List.prefix_rfl) truthful matched

section Example

def timedContent (_ : String) (entry_state : LocalEntryState) : Nat := entry_state.modifiedUnixMs

def timedFingerprint (time : Nat) : String := if time = 1 then "first" else "second"

def firstState : LocalEntryState := ⟨.file, 3, 1⟩

def secondState : LocalEntryState := ⟨.file, 3, 2⟩

def staleCalls : List BaselineCall :=
  [.upsertWithHash "a.txt" firstState (some "first"), .upsert "a.txt" secondState]

theorem stale_hash_kept :
    (∀ call ∈ staleCalls, Honest timedContent timedFingerprint call) ∧
      (runAll execCall Table.empty staleCalls).get "a.txt" =
        some ⟨secondState, some "first"⟩ ∧
      timedFingerprint (timedContent "a.txt" secondState) = "second" ∧
      "a.txt" ∈ (localPathsMatchingRemoteOnStartup (Table.empty.put "a.txt" secondState)
        (some (loadLocalBaseline (runAll execCall Table.empty staleCalls)))
        (loadLocalBaselineHashes (runAll execCall Table.empty staleCalls))
        (Table.empty.put "a.txt" "first") fun _ => .ok "second").items := by
  refine ⟨?_, by decide +kernel, rfl, by decide +kernel⟩
  intro call listed
  simp only [staleCalls, List.mem_cons, List.not_mem_nil, or_false] at listed
  rcases listed with rfl | rfl
  · intro hash supplied
    cases supplied
    rfl
  · trivial

def repeatedCalls : List BaselineCall :=
  [.upsertWithHash "a.txt" firstState (some "first"), .upsert "a.txt" firstState]

theorem repeated_state_exact :
    Describes timedContent timedFingerprint (runAll execCall Table.empty repeatedCalls) := by
  have honest : ∀ call ∈ repeatedCalls, Honest timedContent timedFingerprint call := by
    intro call listed
    simp only [repeatedCalls, List.mem_cons, List.not_mem_nil, or_false] at listed
    rcases listed with rfl | rfl
    · intro hash supplied
      cases supplied
      rfl
    · trivial
  have exact := baseline_hash_exact_iff timedContent timedFingerprint Table.empty repeatedCalls
    (fun path row hash stored => by cases stored) honest
  refine exact.1.mpr ⟨?_, ?_, trivial⟩ repeatedCalls List.prefix_rfl
  · intro _ _ _ row hash stored
    cases stored
  · intro _ _ _ row hash stored recorded
    have kept : (execCall (.upsertWithHash "a.txt" firstState (some "first")) Table.empty).get
        "a.txt" = some ⟨firstState, some "first"⟩ := by decide +kernel
    rw [kept] at stored
    cases stored
    cases recorded
    rfl

end Example

end BerryKeepBaselineStore
