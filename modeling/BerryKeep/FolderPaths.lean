import BerryKeep.TextOperations
import BerryKeep.FileTree

/-!
Relative paths of the folder agent. A remote key is normalised, mapped into the
local scope and joined to the root directory; none of these steps gives "." or
".." a meaning, so where a path leads is decided by the file system alone.
-/
namespace BerryKeepFolderPaths
open TextOperations FileTree

def normalizeRelativePath (path : String) : String :=
  joinWith '/' ((splitOn (replaceChar (trimMatches (trim path) '/') '\\' '/') '/').filter
    fun segment => segment ≠ "")

/-- The names that a normalised path has once it is joined to a directory. -/
def components (path : String) : Path := (splitOn path '/').filter fun segment => segment ≠ ""

def absolutePath (root : Path) (relative_path : String) : Path :=
  root ++ components (normalizeRelativePath relative_path)

def parentDirectories (path : String) : List String :=
  let normalized := normalizeRelativePath path
  if normalized = "" then []
  else
    let segments := splitOn normalized '/'
    (List.range' 1 (segments.length - 1)).map fun index => joinWith '/' (segments.take index)

structure PathScope where
  remotePrefix : Option String

def PathScope.new (remote_root : Option String) : PathScope :=
  ⟨(remote_root.map normalizeRelativePath).filter fun value => value ≠ ""⟩

def PathScope.remoteToLocal (scope : PathScope) (remote_path : String) : Option String :=
  let normalized := normalizeRelativePath remote_path
  if normalized = "" then none
  else match scope.remotePrefix with
    | none => some normalized
    | some above =>
      if normalized = above then some ""
      else stripPrefix normalized (above ++ "/")

def PathScope.localToRemote (scope : PathScope) (local_path : String) : Option String :=
  let normalized := normalizeRelativePath local_path
  if normalized = "" then none
  else match scope.remotePrefix with
    | none => some normalized
    | some above => some (above ++ "/" ++ normalized)

def localPaths (scope : PathScope) (keys : List String) : List String :=
  (keys.filterMap scope.remoteToLocal).filter fun path => path ≠ ""

def validateUserRelativePathInput (path : String) : Except String String :=
  let normalized := normalizeRelativePath path
  if normalized = "" then .error "path must not be empty"
  else
    let refused := (splitOn normalized '/').findSome? fun segment =>
      if segment = ".." then some "path must not contain '..' segments"
      else if ':' ∈ segment.toList then some "path must not contain ':' characters"
      else none
    match refused with
    | some text => .error text
    | none => .ok normalized

/-- A path that leads to the root or below it, over directories that are in the root or
    lead to it. -/
def Confined (root : Path) (path : String) : Prop :=
  lexical root <+: lexical (absolutePath root path) ∧
    ∀ init, init <+: components (normalizeRelativePath path) →
      lexical root <+: lexical (root ++ init) ∨ lexical (root ++ init) <+: lexical root

theorem lexical_below (root : Path) (names : Path) (plain : ".." ∉ names) :
    lexical root <+: lexical (root ++ names) := by
  induction names using List.reverseRecOn with
  | nil => simp
  | append_singleton names name ih =>
    rw [← List.append_assoc, lexical_concat]
    have inner := ih fun member => plain (by simp [member])
    have other : name ≠ ".." := fun same => plain (by simp [same])
    rw [if_neg other]
    split
    · exact inner
    · exact inner.trans (List.prefix_append _ _)

theorem confined_of_plain {root : Path} {path : String}
    (plain : ".." ∉ components (normalizeRelativePath path)) : Confined root path := by
  refine ⟨lexical_below root _ plain, fun init within => .inl (lexical_below root init ?_)⟩
  exact fun member => plain (within.subset member)

/-- What the check on paths typed in by a user accepts stays in the root. -/
theorem validated_confined {root : Path} {path normalized : String}
    (valid : validateUserRelativePathInput path = .ok normalized) : Confined root path := by
  apply confined_of_plain
  intro member
  obtain ⟨listed, _⟩ := List.mem_filter.mp member
  simp only [validateUserRelativePathInput] at valid
  split at valid
  · cases valid
  · split at valid
    · cases valid
    · next none_refused =>
      rw [List.findSome?_eq_none_iff] at none_refused
      simpa using none_refused ".." listed

theorem nested_file_confined : Confined ["srv"] "docs//a.txt" :=
  @validated_confined ["srv"] "docs//a.txt" "docs/a.txt" (by decide +kernel)

section RoundTrip

def Clean (segments : List String) : Prop :=
  ∀ segment ∈ segments, segment ≠ "" ∧ '/' ∉ segment.toList ∧ '\\' ∉ segment.toList

theorem replaced_absent {old new : Char} (text : String) (differ : new ≠ old) :
    old ∉ (replaceChar text old new).toList := by
  unfold replaceChar
  rw [String.toList_ofList]
  intro member
  obtain ⟨c, _, same⟩ := List.mem_map.mp member
  split at same
  · exact differ same
  · next other => exact other same

theorem normalize_segments (path : String) :
    ∃ segments, Clean segments ∧ normalizeRelativePath path = joinWith '/' segments := by
  refine ⟨_, ?_, rfl⟩
  intro segment listed
  obtain ⟨piece, filled⟩ := List.mem_filter.mp listed
  refine ⟨of_decide_eq_true filled, ?_, ?_⟩
  · intro member
    exact (splitOn_pieces piece member).2 rfl
  · intro member
    exact replaced_absent _ (by decide) (splitOn_pieces piece member).1

variable {segments : List String}

theorem clean_nonempty (filled : joinWith '/' segments ≠ "") :
    segments ≠ [] := by
  intro empty
  rw [empty] at filled
  exact filled rfl

theorem trimMatches_unchanged {c : Char} {text : String} (first : text.toList.head? ≠ some c)
    (last : text.toList.getLast? ≠ some c) : trimMatches text c = text := by
  have kept : ∀ chars : List Char, chars.head? ≠ some c → chars.dropWhile (· == c) = chars := by
    intro chars other
    cases chars with
    | nil => rfl
    | cons d chars =>
      apply List.dropWhile_cons_of_neg
      intro same
      exact other (congrArg some (beq_iff_eq.mp same))
  unfold trimMatches
  rw [kept _ first, kept _ (by rwa [List.head?_reverse]), List.reverse_reverse, String.ofList_toList]

theorem joined_ends (clean : Clean segments) :
    (joinWith '/' segments).toList.head? ≠ some '/' ∧
      (joinWith '/' segments).toList.getLast? ≠ some '/' := by
  unfold joinWith
  rw [String.toList_ofList]
  induction segments with
  | nil => simp
  | cons segment segments ih =>
    obtain ⟨filled, plain, _⟩ := clean segment List.mem_cons_self
    have chars : segment.toList ≠ [] := fun empty => filled (String.toList_injective empty)
    have rest := ih fun other listed => clean other (List.mem_cons_of_mem _ listed)
    have inside : ∀ c, segment.toList.head? = some c → c ≠ '/' := by
      intro c first same
      exact plain (same ▸ List.mem_of_head? first)
    cases segments with
    | nil =>
      simp only [List.map_cons, List.map_nil, List.intercalate_singleton]
      refine ⟨fun first => inside _ first rfl, fun last => plain (List.mem_of_getLast? last)⟩
    | cons next segments =>
      have next_filled : next.toList ≠ [] := by
        intro empty
        exact (clean next (by simp)).1 (String.toList_injective empty)
      have tail_filled : ['/'].intercalate ((next :: segments).map String.toList) ≠ [] := by
        cases segments with
        | nil => simpa using next_filled
        | cons _ _ => simp [List.intercalate_cons_cons]
      simp only [List.map_cons, List.intercalate_cons_cons, List.append_assoc] at rest tail_filled ⊢
      constructor
      · rw [List.head?_append_of_ne_nil _ chars]
        exact fun first => inside _ first rfl
      · rw [List.getLast?_append_of_ne_nil _ (by simp), List.getLast?_append_of_ne_nil _ tail_filled]
        exact rest.2

theorem normalize_join (clean : Clean segments) (filled : segments ≠ [])
    (visible : trim (joinWith '/' segments) = joinWith '/' segments) :
    normalizeRelativePath (joinWith '/' segments) = joinWith '/' segments := by
  obtain ⟨first, last⟩ := joined_ends clean
  have plain : replaceChar (joinWith '/' segments) '\\' '/' = joinWith '/' segments := by
    unfold replaceChar
    rw [List.map_congr_left, List.map_id, String.ofList_toList]
    intro c member
    have other : c ≠ '\\' := by
      intro same
      rcases mem_joinWith member with sep | ⟨segment, listed, inside⟩
      · rw [same] at sep
        revert sep
        decide
      · exact (clean segment listed).2.2 (same ▸ inside)
    simp [other]
  have parts : splitOn (joinWith '/' segments) '/' = segments :=
    splitOn_joinWith filled fun segment listed => (clean segment listed).2.1
  have all : segments.filter (fun segment => segment ≠ "") = segments := by
    rw [List.filter_eq_self]
    intro segment listed
    exact decide_eq_true (clean segment listed).1
  unfold normalizeRelativePath
  rw [visible, trimMatches_unchanged first last, plain, parts, all]

theorem trimMatches_length (text : String) (c : Char) :
    (trimMatches text c).toList.length ≤ text.toList.length := by
  unfold trimMatches
  rw [String.toList_ofList, List.length_reverse]
  have outer := (List.dropWhile_sublist (l := (text.toList.dropWhile (· == c)).reverse)
    (· == c)).length_le
  have inner := (List.dropWhile_sublist (l := text.toList) (· == c)).length_le
  rw [List.length_reverse] at outer
  omega

theorem normalize_length (path : String) :
    (normalizeRelativePath path).toList.length ≤ (trim path).toList.length := by
  have pieces := @joinWith_splitOn_length _ '/'
    (replaceChar (trimMatches (trim path) '/') '\\' '/')
    (List.filter_sublist (p := fun segment => segment ≠ ""))
  have replaced : (replaceChar (trimMatches (trim path) '/') '\\' '/').toList.length =
      (trimMatches (trim path) '/').toList.length := by
    rw [replaceChar, String.toList_ofList, List.length_map]
  have trimmed := trimMatches_length (trim path) '/'
  unfold normalizeRelativePath
  omega

theorem normalize_fixed_iff (clean : Clean segments)
    (filled : segments ≠ []) :
    normalizeRelativePath (joinWith '/' segments) = joinWith '/' segments ↔
      trim (joinWith '/' segments) = joinWith '/' segments := by
  constructor
  · intro fixed
    have shorter := normalize_length (joinWith '/' segments)
    rw [fixed] at shorter
    exact String.toList_injective ((trim_sublist _).eq_of_length_le shorter)
  · exact normalize_join clean filled

theorem joinWith_append {above below : List String} (left : above ≠ []) (right : below ≠ []) :
    joinWith '/' above ++ "/" ++ joinWith '/' below = joinWith '/' (above ++ below) := by
  apply String.toList_injective
  unfold joinWith
  simp only [String.toList_append, String.toList_ofList, List.map_append]
  induction above with
  | nil => exact absurd rfl left
  | cons segment above ih =>
    cases above with
    | nil =>
      cases below with
      | nil => exact absurd rfl right
      | cons next below => simp [List.intercalate_cons_cons]
    | cons next above =>
      have rest := ih (by simp)
      simp only [List.map_cons, List.cons_append, List.intercalate_cons_cons,
        List.append_assoc] at rest ⊢
      rw [rest]

theorem scope_segments {remote_root : Option String} {above : String}
    (bounded : (PathScope.new remote_root).remotePrefix = some above) :
    ∃ segments, Clean segments ∧ segments ≠ [] ∧ above = joinWith '/' segments := by
  obtain ⟨stored, filled⟩ := Option.filter_eq_some_iff.mp bounded
  obtain ⟨raw, _, rfl⟩ := Option.map_eq_some_iff.mp stored
  obtain ⟨segments, clean, shape⟩ := normalize_segments raw
  have nonempty := of_decide_eq_true filled
  rw [shape] at nonempty
  exact ⟨segments, clean, clean_nonempty nonempty, shape⟩

theorem remote_key_segments {remote_root : Option String} {path key : String}
    (mapped : (PathScope.new remote_root).localToRemote path = some key) :
    ∃ segments, Clean segments ∧ segments ≠ [] ∧ key = joinWith '/' segments := by
  obtain ⟨below, clean, shape⟩ := normalize_segments path
  unfold PathScope.localToRemote at mapped
  dsimp only at mapped
  split at mapped
  · cases mapped
  · next filled =>
    rw [shape] at filled
    have nonempty := clean_nonempty filled
    split at mapped
    · obtain rfl := Option.some.inj mapped
      exact ⟨below, clean, nonempty, shape⟩
    · next above bounded =>
      obtain rfl := Option.some.inj mapped
      obtain ⟨segments, above_clean, above_filled, rfl⟩ := scope_segments bounded
      refine ⟨segments ++ below, ?_, by simp [above_filled], ?_⟩
      · intro segment listed
        rcases List.mem_append.mp listed with upper | lower
        · exact above_clean segment upper
        · exact clean segment lower
      · rw [shape, joinWith_append above_filled nonempty]

theorem mapped_back_iff {scope : PathScope} {path key : String}
    (mapped : scope.localToRemote path = some key) :
    scope.remoteToLocal key = some (normalizeRelativePath path) ↔
      normalizeRelativePath key = key := by
  unfold PathScope.localToRemote at mapped
  unfold PathScope.remoteToLocal
  dsimp only at mapped ⊢
  split at mapped
  · cases mapped
  · next filled =>
    cases bounded : scope.remotePrefix with
    | none =>
      rw [bounded] at mapped
      obtain rfl := Option.some.inj mapped
      dsimp only
      constructor
      · intro back
        split at back
        · cases back
        · exact Option.some.inj back
      · intro fixed
        rw [fixed, if_neg filled]
    | some above =>
      rw [bounded] at mapped
      obtain rfl := Option.some.inj mapped
      dsimp only
      constructor
      · intro back
        split at back
        · cases back
        · split at back
          · exact absurd (Option.some.inj back).symm filled
          · exact (stripPrefix_iff _ _).mp back
      · intro fixed
        have longer : above ++ "/" ++ normalizeRelativePath path ≠ above := by
          intro same
          have lengths := congrArg (fun text => text.toList.length) same
          simp only [String.toList_append, List.length_append] at lengths
          have slash : "/".toList.length = 1 := rfl
          omega
        have present : above ++ "/" ++ normalizeRelativePath path ≠ "" := by
          intro empty
          have lengths := congrArg (fun text => text.toList.length) empty
          simp at lengths
        rw [fixed, if_neg present, if_neg longer]
        exact (stripPrefix_iff _ _).mpr rfl

theorem scoped_round_trip_iff (remote_root : Option String) (path : String)
    (filled : normalizeRelativePath path ≠ "") :
    ∃ key, (PathScope.new remote_root).localToRemote path = some key ∧
      ((PathScope.new remote_root).remoteToLocal key = some (normalizeRelativePath path) ↔
        trim key = key) ∧
      ∀ other, (PathScope.new remote_root).localToRemote other = some key →
        normalizeRelativePath other = normalizeRelativePath path := by
  have exists_key : ∃ key, (PathScope.new remote_root).localToRemote path = some key := by
    unfold PathScope.localToRemote
    dsimp only
    rw [if_neg filled]
    cases (PathScope.new remote_root).remotePrefix with
    | none => exact ⟨_, rfl⟩
    | some above => exact ⟨_, rfl⟩
  obtain ⟨key, mapped⟩ := exists_key
  refine ⟨key, mapped, ?_, ?_⟩
  · obtain ⟨segments, clean, nonempty, shape⟩ := remote_key_segments mapped
    rw [mapped_back_iff mapped, shape]
    exact normalize_fixed_iff clean nonempty
  · intro other same
    unfold PathScope.localToRemote at mapped same
    dsimp only at mapped same
    rw [if_neg filled] at mapped
    split at same
    · cases same
    · split at same
      · next unscoped =>
        rw [unscoped] at mapped
        exact (Option.some.inj same).trans (Option.some.inj mapped).symm
      · next above bounded =>
        rw [bounded] at mapped
        have texts := (Option.some.inj same).trans (Option.some.inj mapped).symm
        have chars := congrArg String.toList texts
        simp only [String.toList_append, List.append_cancel_left_eq] at chars
        exact String.toList_injective chars

theorem leading_blank_lost :
    normalizeRelativePath "/ a" = " a" ∧ (PathScope.new none).localToRemote "/ a" = some " a" ∧
      (PathScope.new none).remoteToLocal " a" = some "a" := by
  decide +kernel

theorem inner_blank_kept :
    (PathScope.new (some "backup/")).remoteToLocal "backup/a b/c" = some "a b/c" := by
  obtain ⟨key, mapped, back, _⟩ := scoped_round_trip_iff (some "backup/") "a b//c" (by decide +kernel)
  have named : (PathScope.new (some "backup/")).localToRemote "a b//c" = some "backup/a b/c" := by
    decide +kernel
  cases mapped.symm.trans named
  exact back.mpr (by decide +kernel)

end RoundTrip

end BerryKeepFolderPaths
