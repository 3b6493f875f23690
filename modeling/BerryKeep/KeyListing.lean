import BerryKeep.ContentCodec
import BerryKeep.SortedGroups

/-!
Key listings. A page walks through the sorted keys, maps each key under the
requested prefix to an object or to the common prefix it collapses into, and
drops an entry that repeats the one before it. Sorted keys keep the members of
one group together, so comparing with the previous entry is enough; whether the
group has the right name depends on where the requested prefix ends.
-/
namespace BerryKeepKeyListing
open TextOperations SortedGroups BerryKeepContentCodec

section Source

inductive KeyListingPrefixMode where
  | exactStartsWith
  | pathBoundary
  deriving DecidableEq, Repr

inductive KeyListingEntryKind where
  | object
  | commonPrefix
  deriving DecidableEq, Repr

structure KeyListingEntry where
  path : String
  kind : KeyListingEntryKind
  deriving DecidableEq, Repr

structure KeyListingPage where
  entries : List KeyListingEntry
  nextCursor : Option String
  hasMore : Bool
  deriving DecidableEq, Repr

structure KeyListingCursor where
  scope : String
  prefixMode : KeyListingPrefixMode
  prefix_text : String
  delimiter : Option String
  collapseAfter : Option Nat
  lastPath : String
  lastKind : KeyListingEntryKind
  deriving DecidableEq, Repr

structure CursorFormat where
  base64Encode : Bytes → String
  base64Decode : String → Option Bytes
  toVec : KeyListingCursor → Bytes
  fromSlice : Bytes → Option KeyListingCursor

def encodeCursor (format : CursorFormat) (cursor : KeyListingCursor) : String :=
  format.base64Encode (format.toVec cursor)

def decodeCursor (format : CursorFormat) (token expected_scope : String)
    (expected_prefix_mode : KeyListingPrefixMode) (expected_prefix_text : String)
    (expected_delimiter : Option String) (expected_collapse_after : Option Nat) :
    Except String KeyListingCursor :=
  match format.base64Decode token with
  | none => .error "the continuation token could not be decoded"
  | some decoded => match format.fromSlice decoded with
    | none => .error "the continuation token payload was invalid"
    | some cursor =>
      if cursor.scope ≠ expected_scope ∨ cursor.prefixMode ≠ expected_prefix_mode ∨
          cursor.prefix_text ≠ expected_prefix_text ∨ cursor.delimiter ≠ expected_delimiter ∨
          cursor.collapseAfter ≠ expected_collapse_after then
        .error "the continuation token does not match the requested listing parameters"
      else .ok cursor

def entryKindRank : KeyListingEntryKind → Nat
  | .object => 0
  | .commonPrefix => 1

def trimStartMatches (text : String) (c : Char) : String :=
  String.ofList (text.toList.dropWhile (· == c))

def storeIndexRemainderForPrefix (key normalized_prefix_text : String) : Option String :=
  if normalized_prefix_text = "" then some (trimStartMatches key '/')
  else if key = normalized_prefix_text then some ""
  else match stripPrefix key normalized_prefix_text with
    | none => none
    | some remainder =>
      if remainder = "" then some ""
      else if ['/'].isPrefixOf remainder.toList then some (trimStartMatches remainder '/')
      else none

def keyRemainderForPrefix (key prefix_text : String) : KeyListingPrefixMode → Option String
  | .exactStartsWith => if prefix_text = "" then some key else stripPrefix key prefix_text
  | .pathBoundary => storeIndexRemainderForPrefix key prefix_text

/-- A segment is never empty, so the text has no more segments than characters. -/
def segmentsFrom (delimiter : List Char) : Nat → List Char → List (List Char)
  | 0, _ => []
  | rounds + 1, rest =>
    if rest = [] then []
    else match splitFirst delimiter rest with
      | some (before, after) => (before ++ delimiter) :: segmentsFrom delimiter rounds after
      | none => [rest]

def splitRemainderSegments (remainder delimiter : String) : List String :=
  (segmentsFrom delimiter.toList remainder.toList.length remainder.toList).map String.ofList

def groupedPath (prefix_text delimiter collapsed : String) : String :=
  if prefix_text = "" then collapsed
  else if delimiter.toList.isSuffixOf prefix_text.toList ||
      delimiter.toList.isPrefixOf collapsed.toList then prefix_text ++ collapsed
  else prefix_text ++ delimiter ++ collapsed

def entryForKey (key prefix_text remainder : String) (delimiter : Option String)
    (collapse_after : Option Nat) : KeyListingEntry :=
  match delimiter, collapse_after with
  | some delimiter, some collapse_after =>
    let segments := splitRemainderSegments remainder delimiter
    if collapse_after = 0 ∨ segments.length ≤ collapse_after then ⟨key, .object⟩
    else ⟨groupedPath prefix_text delimiter (String.join (segments.take collapse_after)),
      .commonPrefix⟩
  | _, _ => ⟨key, .object⟩

def alreadyListed (cursor_resume : Option KeyListingCursor) (resume_after : Option String)
    (entry : KeyListingEntry) : Bool :=
  (match cursor_resume with
    | some resume => decide (entry.path < resume.lastPath) ||
        (entry.path == resume.lastPath &&
          decide (entryKindRank entry.kind ≤ entryKindRank resume.lastKind))
    | none => false) ||
  match resume_after with
    | some after => decide (entry.path ≤ after)
    | none => false

def collectEntries (entry_of : String → Option KeyListingEntry)
    (already_listed : KeyListingEntry → Bool) (max_keys : Nat) :
    List String → List KeyListingEntry → Option KeyListingEntry → List KeyListingEntry × Bool
  | [], entries, _ => (entries, false)
  | key :: keys, entries, last_emitted =>
    match entry_of key with
    | none => collectEntries entry_of already_listed max_keys keys entries last_emitted
    | some entry =>
      if already_listed entry then
        collectEntries entry_of already_listed max_keys keys entries last_emitted
      else if last_emitted = some entry then
        collectEntries entry_of already_listed max_keys keys entries last_emitted
      else if max_keys ≤ entries.length then (entries, true)
      else collectEntries entry_of already_listed max_keys keys (entries ++ [entry]) (some entry)

def listedEntry (prefix_mode : KeyListingPrefixMode) (prefix_text : String)
    (delimiter : Option String) (collapse_after : Option Nat) (key : String) :
    Option KeyListingEntry :=
  (keyRemainderForPrefix key prefix_text prefix_mode).map fun remainder =>
    entryForKey key prefix_text remainder delimiter collapse_after

def paginateSortedKeys (format : CursorFormat) (sorted_keys : List String) (scope : String)
    (prefix_mode : KeyListingPrefixMode) (prefix_text : String) (delimiter : Option String)
    (collapse_after : Option Nat) (cursor resume_after : Option String) (max_keys : Nat) :
    Except String KeyListingPage := do
  let delimiter := (delimiter.map trim).filter fun value => value != ""
  let cursor_resume ← cursor.mapM fun token =>
    decodeCursor format token scope prefix_mode prefix_text delimiter collapse_after
  -- A cursor wins over the key to resume after.
  let resume_after := if cursor_resume.isNone then resume_after else none
  let walked := collectEntries (listedEntry prefix_mode prefix_text delimiter collapse_after)
    (alreadyListed cursor_resume resume_after) (max max_keys 1) sorted_keys [] none
  let next_cursor := if walked.2 then
      walked.1.getLast?.map fun entry => encodeCursor format
        { scope, prefixMode := prefix_mode, prefix_text, delimiter,
          collapseAfter := collapse_after, lastPath := entry.path, lastKind := entry.kind }
    else none
  return ⟨walked.1, next_cursor, walked.2⟩

def countEntries (entry_of : String → Option KeyListingEntry) :
    List String → Option KeyListingEntry → Nat → Nat
  | [], _, count => count
  | key :: keys, last_emitted, count =>
    match entry_of key with
    | none => countEntries entry_of keys last_emitted count
    | some entry =>
      if last_emitted = some entry then countEntries entry_of keys last_emitted count
      else countEntries entry_of keys (some entry) (count + 1)

def countSortedKeys (sorted_keys : List String) (prefix_mode : KeyListingPrefixMode)
    (prefix_text : String) (delimiter : Option String) (collapse_after : Option Nat) : Nat :=
  let delimiter := (delimiter.map trim).filter fun value => value != ""
  countEntries (listedEntry prefix_mode prefix_text delimiter collapse_after) sorted_keys none 0

end Source

section Adjacent
variable {α : Type}

def Contiguous (xs : List α) : Prop := ∀ a b, [a, b, a].Sublist xs → b = a

theorem Contiguous.sublist {xs ys : List α} (grouped : Contiguous ys) (inside : xs.Sublist ys) :
    Contiguous xs := fun a b found => grouped a b (found.trans inside)

variable [DecidableEq α]

theorem nodup_destutter' (a : α) {xs : List α} (grouped : Contiguous (a :: xs)) :
    (xs.destutter' (· ≠ ·) a).Nodup := by
  induction xs generalizing a with
  | nil => simp
  | cons b xs ih =>
    by_cases same : a = b
    · subst same
      rw [List.destutter'_cons_neg _ (by simp)]
      exact ih a (grouped.sublist (List.sublist_cons_self _ _))
    · rw [List.destutter'_cons_pos _ same, List.nodup_cons, mem_destutter']
      constructor
      · rintro (equal | later)
        · exact same equal
        · have back : [a, b, a].Sublist (a :: b :: xs) :=
            ((List.singleton_sublist.mpr later).cons_cons b).cons_cons a
          exact same (grouped a b back).symm
      · exact ih b (grouped.sublist (List.sublist_cons_self _ _))

theorem nodup_destutter {xs : List α} (grouped : Contiguous xs) :
    (xs.destutter (· ≠ ·)).Nodup := by
  cases xs with
  | nil => simp
  | cons a xs =>
    rw [List.destutter_cons']
    exact nodup_destutter' a grouped

end Adjacent

section Walk
variable {entry_of : String → Option KeyListingEntry} {already_listed : KeyListingEntry → Bool}
  {max_keys : Nat}

def freshEntries (entry_of : String → Option KeyListingEntry)
    (already_listed : KeyListingEntry → Bool) (keys : List String) : List KeyListingEntry :=
  (keys.filterMap entry_of).filter fun entry => !already_listed entry

theorem freshEntries_skip {key : String} {keys : List String} (none_listed : entry_of key = none) :
    freshEntries entry_of already_listed (key :: keys) =
      freshEntries entry_of already_listed keys := by
  rw [freshEntries, List.filterMap_cons_none none_listed, freshEntries]

theorem freshEntries_cons {key : String} {keys : List String} {entry : KeyListingEntry}
    (found : entry_of key = some entry) :
    freshEntries entry_of already_listed (key :: keys) =
      if already_listed entry then freshEntries entry_of already_listed keys
      else entry :: freshEntries entry_of already_listed keys := by
  rw [freshEntries, List.filterMap_cons_some found, List.filter_cons]
  cases already_listed entry <;> rfl

variable (keys : List String)

theorem collectEntries_after :
    ∀ (earlier : List KeyListingEntry) (last : KeyListingEntry), earlier.length + 1 ≤ max_keys →
      collectEntries entry_of already_listed max_keys keys (earlier ++ [last]) (some last) =
        ((earlier ++ (freshEntries entry_of already_listed keys).destutter' (· ≠ ·) last).take
            max_keys,
          decide (max_keys < earlier.length +
            ((freshEntries entry_of already_listed keys).destutter' (· ≠ ·) last).length)) := by
  induction keys with
  | nil =>
    intro earlier last room
    have whole : (earlier ++ [last]).take max_keys = earlier ++ [last] :=
      List.take_of_length_le (by simp; omega)
    have cut : ¬max_keys < earlier.length + 1 := by omega
    simp [collectEntries, freshEntries, whole, cut]
  | cons key keys ih =>
    intro earlier last room
    simp only [collectEntries]
    cases found : entry_of key with
    | none =>
      rw [freshEntries_skip found]
      exact ih earlier last room
    | some entry =>
      rw [freshEntries_cons found]
      dsimp only
      by_cases listed : already_listed entry = true
      · simp only [listed, if_true]
        exact ih earlier last room
      · simp only [listed, Bool.false_eq_true, if_false]
        by_cases same : last = entry
        · subst same
          rw [if_pos rfl, List.destutter'_cons_neg _ (by simp)]
          exact ih earlier last room
        · rw [if_neg (by simpa using same), List.destutter'_cons_pos _ same]
          by_cases full : max_keys ≤ (earlier ++ [last]).length
          · rw [if_pos full]
            rw [List.length_append, List.length_singleton] at full
            have exactly : max_keys = (earlier ++ [last]).length := by simp; omega
            have filled : 0 < ((freshEntries entry_of already_listed keys).destutter' (· ≠ ·)
                entry).length := List.length_pos_of_ne_nil (List.destutter'_ne_nil _ _)
            refine Prod.ext ?_ ?_
            · dsimp only
              rw [List.append_cons earlier last (List.destutter' _ _ _), exactly, List.take_left]
            · rw [List.length_cons]
              exact (decide_eq_true (by omega)).symm
          · rw [if_neg full]
            rw [List.length_append, List.length_singleton] at full
            have step := ih (earlier ++ [last]) entry (by simp; omega)
            rw [step]
            simp only [List.length_append, List.length_cons, List.length_nil,
              List.append_assoc, List.cons_append, List.nil_append, Nat.add_assoc, Nat.add_comm 1]

theorem collectEntries_eq (positive : 0 < max_keys) :
    collectEntries entry_of already_listed max_keys keys [] none =
      (((freshEntries entry_of already_listed keys).destutter (· ≠ ·)).take max_keys,
        decide (max_keys <
          ((freshEntries entry_of already_listed keys).destutter (· ≠ ·)).length)) := by
  induction keys with
  | nil => simp [collectEntries, freshEntries]
  | cons key keys ih =>
    simp only [collectEntries]
    cases found : entry_of key with
    | none =>
      rw [freshEntries_skip found]
      exact ih
    | some entry =>
      rw [freshEntries_cons found]
      dsimp only
      by_cases listed : already_listed entry = true
      · simp only [listed, if_true]
        exact ih
      · simp only [listed, Bool.false_eq_true, if_false]
        have fits : ¬max_keys ≤ ([] : List KeyListingEntry).length := by
          simp
          omega
        have step := @collectEntries_after entry_of already_listed max_keys keys [] entry
          (by simpa using Nat.succ_le_of_lt positive)
        rw [if_neg (by simp), if_neg fits, List.destutter_cons']
        simpa using step

theorem collectEntries_all (positive : 0 < max_keys) (room : keys.length ≤ max_keys) :
    collectEntries entry_of (fun _ => false) max_keys keys [] none =
      ((keys.filterMap entry_of).destutter (· ≠ ·), false) := by
  have fresh : freshEntries entry_of (fun _ => false) keys = keys.filterMap entry_of := by
    simp [freshEntries]
  have short : ((keys.filterMap entry_of).destutter (· ≠ ·)).length ≤ max_keys :=
    ((List.destutter_sublist _ _).length_le.trans (List.length_filterMap_le _ _)).trans room
  rw [collectEntries_eq keys positive, fresh, List.take_of_length_le short,
    decide_eq_false (by omega)]

theorem countEntries_after :
    ∀ (last : KeyListingEntry) (count : Nat),
      countEntries entry_of keys (some last) count =
        count + ((keys.filterMap entry_of).destutter' (· ≠ ·) last).length - 1 := by
  induction keys with
  | nil => simp [countEntries]
  | cons key keys ih =>
    intro last count
    simp only [countEntries]
    cases found : entry_of key with
    | none =>
      rw [List.filterMap_cons_none found]
      exact ih last count
    | some entry =>
      rw [List.filterMap_cons_some found]
      dsimp only
      by_cases same : last = entry
      · subst same
        rw [if_pos rfl, List.destutter'_cons_neg _ (by simp)]
        exact ih last count
      · rw [if_neg (by simpa using same), List.destutter'_cons_pos _ same, ih entry (count + 1),
          List.length_cons]
        omega

theorem countEntries_eq :
    countEntries entry_of keys none 0 = ((keys.filterMap entry_of).destutter (· ≠ ·)).length := by
  induction keys with
  | nil => simp [countEntries]
  | cons key keys ih =>
    simp only [countEntries]
    cases found : entry_of key with
    | none =>
      rw [List.filterMap_cons_none found]
      exact ih
    | some entry =>
      dsimp only
      rw [List.filterMap_cons_some found, List.destutter_cons', if_neg (by simp),
        countEntries_after keys entry 1]
      omega

end Walk

theorem count_eq_unlimited (format : CursorFormat) (sorted_keys : List String) (scope : String)
    (prefix_mode : KeyListingPrefixMode) (prefix_text : String) (delimiter : Option String)
    (collapse_after : Option Nat) (more : Nat) :
    (paginateSortedKeys format sorted_keys scope prefix_mode prefix_text delimiter collapse_after
        none none (sorted_keys.length + more)).map (·.entries.length) =
      .ok (countSortedKeys sorted_keys prefix_mode prefix_text delimiter collapse_after) := by
  have walked := @collectEntries_all (listedEntry prefix_mode prefix_text
    ((delimiter.map trim).filter fun value => value != "") collapse_after)
    (max (sorted_keys.length + more) 1) sorted_keys (by omega) (by omega)
  rw [countSortedKeys, countEntries_eq]
  exact congrArg (fun walked => Except.ok walked.1.length) walked

section Grouping

/-- The entry a listing owes a key: the key itself, or the part of it up to the first
    delimiter after the requested prefix if more follows. -/
def owedEntry (prefix_text delimiter key : String) : Option KeyListingEntry :=
  (stripPrefix key prefix_text).map fun remainder =>
    match splitOnce remainder delimiter with
    | none => ⟨key, .object⟩
    | some (segment, rest) =>
      if rest = "" then ⟨key, .object⟩
      else ⟨prefix_text ++ (segment ++ delimiter), .commonPrefix⟩

def Collapses (prefix_text delimiter remainder segment rest key : String) : Prop :=
  stripPrefix key prefix_text = some remainder ∧
    splitOnce remainder delimiter = some (segment, rest) ∧ rest ≠ ""

variable {prefix_text delimiter : String}

theorem keyRemainder_exact (key : String) :
    keyRemainderForPrefix key prefix_text .exactStartsWith = stripPrefix key prefix_text := by
  unfold keyRemainderForPrefix
  simp only
  split
  · next empty =>
    subst empty
    simp [stripPrefix]
  · rfl

theorem splitFirst_of_once {remainder segment rest : String}
    (found : splitOnce remainder delimiter = some (segment, rest)) :
    splitFirst delimiter.toList remainder.toList = some (segment.toList, rest.toList) := by
  unfold splitOnce at found
  obtain ⟨parts, split, named⟩ := Option.map_eq_some_iff.mp found
  cases named
  simp [split]

theorem segments_cases (filled : delimiter ≠ "") (remainder : String) :
    match splitOnce remainder delimiter with
    | none => (splitRemainderSegments remainder delimiter).length ≤ 1
    | some (segment, rest) =>
      if rest = "" then (splitRemainderSegments remainder delimiter).length ≤ 1
      else 1 < (splitRemainderSegments remainder delimiter).length ∧
        (splitRemainderSegments remainder delimiter).take 1 = [segment ++ delimiter] := by
  have marker : delimiter.toList ≠ [] := by simpa using filled
  unfold splitRemainderSegments
  cases found : splitOnce remainder delimiter with
  | none =>
    have absent : splitFirst delimiter.toList remainder.toList = none := by
      simpa [splitOnce] using found
    simp only [List.length_map]
    cases remainder.toList.length with
    | zero => simp [segmentsFrom]
    | succ rounds =>
      simp only [segmentsFrom, absent]
      split <;> simp
  | some parts =>
    obtain ⟨segment, rest⟩ := parts
    have split := splitFirst_of_once found
    have whole := splitFirst_append _ split
    have lengths := congrArg List.length whole
    have positive := List.length_pos_of_ne_nil marker
    simp only [List.length_append] at lengths
    obtain ⟨rounds, enough⟩ : ∃ rounds, remainder.toList.length = rounds + 1 :=
      ⟨remainder.toList.length - 1, by omega⟩
    have nonempty : remainder.toList ≠ [] := List.ne_nil_of_length_pos (by omega)
    simp only [enough, segmentsFrom, nonempty, if_false, split]
    by_cases ends : rest = ""
    · subst ends
      cases rounds <;> simp [segmentsFrom]
    · have more : rest.toList ≠ [] := by simpa using ends
      have left := List.length_pos_of_ne_nil more
      obtain ⟨fewer, again⟩ : ∃ fewer, rounds = fewer + 1 := ⟨rounds - 1, by omega⟩
      rw [if_neg ends, again]
      constructor
      · simp only [List.length_map, List.length_cons, segmentsFrom, more, if_false]
        cases splitFirst delimiter.toList rest.toList with
        | none => simp
        | some next => simp
      · simp

theorem listedEntry_eq (filled : delimiter ≠ "") (key : String) :
    listedEntry .exactStartsWith prefix_text (some delimiter) (some 1) key =
      (stripPrefix key prefix_text).map fun remainder =>
        match splitOnce remainder delimiter with
        | none => ⟨key, .object⟩
        | some (segment, rest) =>
          if rest = "" then ⟨key, .object⟩
          else ⟨groupedPath prefix_text delimiter (segment ++ delimiter), .commonPrefix⟩ := by
  unfold listedEntry
  rw [keyRemainder_exact]
  congr 1
  funext remainder
  have cases_of := segments_cases filled remainder
  unfold entryForKey
  simp only [Nat.one_ne_zero, false_or]
  cases found : splitOnce remainder delimiter with
  | none =>
    rw [found] at cases_of
    rw [if_pos cases_of]
  | some parts =>
    obtain ⟨segment, rest⟩ := parts
    rw [found] at cases_of
    simp only at cases_of ⊢
    by_cases ends : rest = ""
    · rw [if_pos ends] at cases_of ⊢
      rw [if_pos cases_of]
    · rw [if_neg ends] at cases_of ⊢
      rw [if_neg (by omega), cases_of.2]
      simp [String.join]

theorem groupedPath_eq_iff (filled : delimiter ≠ "") (collapsed : String) :
    groupedPath prefix_text delimiter collapsed = prefix_text ++ collapsed ↔
      prefix_text = "" ∨ delimiter.toList <:+ prefix_text.toList ∨
        delimiter.toList <+: collapsed.toList := by
  unfold groupedPath
  by_cases empty : prefix_text = ""
  · simp [empty]
  · rw [if_neg empty]
    split
    · next joined =>
      rw [Bool.or_eq_true, List.isSuffixOf_iff_suffix, List.isPrefixOf_iff_prefix] at joined
      simp [empty, joined]
    · next apart =>
      rw [Bool.or_eq_true, List.isSuffixOf_iff_suffix, List.isPrefixOf_iff_prefix] at apart
      simp only [empty, false_or, apart, iff_false]
      intro same
      have lengths := congrArg (fun text => text.toList.length) same
      simp only [String.toList_append, List.length_append] at lengths
      have positive : 0 < delimiter.toList.length :=
        List.length_pos_of_ne_nil (by simpa using filled)
      omega

end Grouping

section Order

theorem contiguous_filterMap {α β : Type} {f : α → Option β} {r : α → α → Prop} {xs : List α}
    (ordered : xs.Pairwise r)
    (convex : ∀ a b c, r a b → r b c → r a c → ∀ e e', f a = some e → f c = some e →
      f b = some e' → e' = e) : Contiguous (xs.filterMap f) := by
  intro e e' found
  obtain ⟨picked, inside, shape⟩ := List.sublist_filterMap_iff.mp found
  have kept := ordered.sublist inside
  obtain ⟨_, a, rest, rfl, _, first, tail⟩ := List.filterMap_eq_cons_iff.mp shape.symm
  obtain ⟨_, b, rest, rfl, _, second, tail⟩ := List.filterMap_eq_cons_iff.mp tail
  obtain ⟨_, c, rest, rfl, _, third, _⟩ := List.filterMap_eq_cons_iff.mp tail
  have from_a := (List.pairwise_cons.mp (List.pairwise_append.mp kept).2.1)
  have from_b := (List.pairwise_cons.mp (List.pairwise_append.mp from_a.2).2.1)
  exact convex a b c (from_a.1 b (by simp)) (from_b.1 c (by simp)) (from_a.1 c (by simp))
    e e' first third second

variable {prefix_text delimiter : String}

theorem splitOnce_swap {segment rest : String}
    (found : splitOnce (segment ++ delimiter ++ rest) delimiter = some (segment, rest))
    (other : String) :
    splitOnce (segment ++ delimiter ++ other) delimiter = some (segment, other) := by
  have split := splitFirst_of_once found
  simp only [String.toList_append] at split
  unfold splitOnce
  simp only [String.toList_append, splitFirst_swap split other.toList]
  simp

theorem splitOnce_whole {remainder segment rest : String}
    (found : splitOnce remainder delimiter = some (segment, rest)) :
    remainder = segment ++ delimiter ++ rest := by
  have whole := splitFirst_append _ (splitFirst_of_once found)
  apply String.toList_injective
  simpa using whole.symm

theorem owedEntry_cases {key : String} {entry : KeyListingEntry}
    (owed : owedEntry prefix_text delimiter key = some entry) :
    entry = ⟨key, .object⟩ ∨ ∃ segment rest, rest ≠ "" ∧
      key = prefix_text ++ (segment ++ delimiter ++ rest) ∧
      splitOnce (segment ++ delimiter ++ rest) delimiter = some (segment, rest) ∧
      entry = ⟨prefix_text ++ (segment ++ delimiter), .commonPrefix⟩ := by
  unfold owedEntry at owed
  obtain ⟨remainder, stripped, built⟩ := Option.map_eq_some_iff.mp owed
  rw [stripPrefix_iff] at stripped
  cases found : splitOnce remainder delimiter with
  | none =>
    rw [found] at built
    exact .inl built.symm
  | some parts =>
    obtain ⟨segment, rest⟩ := parts
    simp only [found] at built
    by_cases ends : rest = ""
    · rw [if_pos ends] at built
      exact .inl built.symm
    · rw [if_neg ends] at built
      have whole := splitOnce_whole found
      subst whole
      exact .inr ⟨segment, rest, ends, stripped, found, built.symm⟩

theorem owedEntry_group {segment rest : String}
    (found : splitOnce (segment ++ delimiter ++ rest) delimiter = some (segment, rest))
    (more : rest ≠ "") :
    owedEntry prefix_text delimiter (prefix_text ++ (segment ++ delimiter ++ rest)) =
      some ⟨prefix_text ++ (segment ++ delimiter), .commonPrefix⟩ := by
  have stripped := (@stripPrefix_iff prefix_text _
    (segment ++ delimiter ++ rest)).mpr rfl
  unfold owedEntry
  rw [stripped, Option.map_some]
  simp only [found, more, if_false]

theorem owedEntry_convex {low mid high : String} (first : low < mid) (second : mid < high)
    (whole : low < high) {entry other : KeyListingEntry}
    (owed_low : owedEntry prefix_text delimiter low = some entry)
    (owed_high : owedEntry prefix_text delimiter high = some entry)
    (owed_mid : owedEntry prefix_text delimiter mid = some other) : other = entry := by
  rcases owedEntry_cases owed_low with rfl | ⟨segment, rest, more, rfl, found, rfl⟩
  · rcases owedEntry_cases owed_high with same | ⟨_, _, _, _, _, kinds⟩
    · simp only [KeyListingEntry.mk.injEq, and_true] at same
      exact absurd (same ▸ whole) (lt_irrefl _)
    · cases kinds
  · rcases owedEntry_cases owed_high with kinds | ⟨segment', rest', _, rfl, _, paths⟩
    · cases kinds
    · have same_start : (prefix_text ++ (segment' ++ delimiter)).toList =
          (prefix_text ++ (segment ++ delimiter)).toList := by
        simp only [KeyListingEntry.mk.injEq, and_true] at paths
        rw [paths]
      rw [String.lt_iff_toList_lt] at first second
      simp only [String.toList_append, ← List.append_assoc] at first second same_start
      rw [same_start] at second
      obtain ⟨after, shape⟩ := prefix_between first second
      have named : mid = prefix_text ++ (segment ++ delimiter ++ String.ofList after) := by
        apply String.toList_injective
        rw [← shape]
        simp
      have follows : String.ofList after ≠ "" := by
        intro empty
        have nothing : after = [] := by
          have chars := congrArg String.toList empty
          simpa using chars
        rw [← shape, nothing, List.append_nil] at first
        exact List.le_append_left first
      rw [named, owedEntry_group (splitOnce_swap found _) follows] at owed_mid
      exact (Option.some.inj owed_mid).symm

end Order

section Page
variable {prefix_text delimiter : String}

theorem begins_iff (filled : delimiter ≠ "") {remainder segment rest : String}
    (found : splitOnce remainder delimiter = some (segment, rest)) :
    delimiter.toList <+: (segment ++ delimiter).toList ↔
      delimiter.toList <+: remainder.toList := by
  have whole := congrArg String.toList (splitOnce_whole found)
  rw [String.toList_append] at whole
  constructor
  · intro begins
    rw [whole]
    exact begins.trans (List.prefix_append _ _)
  · rintro ⟨after, shape⟩
    have split := splitFirst_of_once found
    rw [← shape, splitFirst_self (by simpa using filled)] at split
    simp only [Option.some.injEq, Prod.mk.injEq] at split
    rw [String.toList_append, ← split.1]
    exact List.prefix_rfl

theorem listedEntry_owed (filled : delimiter ≠ "") (key : String)
    (joined : ∀ remainder segment rest,
      Collapses prefix_text delimiter remainder segment rest key →
        prefix_text = "" ∨ delimiter.toList <:+ prefix_text.toList ∨
          delimiter.toList <+: remainder.toList) :
    listedEntry .exactStartsWith prefix_text (some delimiter) (some 1) key =
      owedEntry prefix_text delimiter key := by
  rw [listedEntry_eq filled]
  unfold owedEntry
  cases stripped : stripPrefix key prefix_text with
  | none => rfl
  | some remainder =>
    simp only [Option.map_some]
    cases found : splitOnce remainder delimiter with
    | none => rfl
    | some parts =>
      obtain ⟨segment, rest⟩ := parts
      by_cases ends : rest = ""
      · simp only [ends, if_true]
      · have named := joined remainder segment rest ⟨stripped, found, ends⟩
        rw [← begins_iff filled found, ← groupedPath_eq_iff filled] at named
        simp only [ends, if_false, named]

theorem owed_group_missing (filled : delimiter ≠ "") {segment : String}
    (apart : ¬(prefix_text = "" ∨ delimiter.toList <:+ prefix_text.toList ∨
      delimiter.toList <+: (segment ++ delimiter).toList)) (key : String) :
    listedEntry .exactStartsWith prefix_text (some delimiter) (some 1) key ≠
      some ⟨prefix_text ++ (segment ++ delimiter), .commonPrefix⟩ := by
  intro listed
  rw [listedEntry_eq filled] at listed
  obtain ⟨remainder, _, built⟩ := Option.map_eq_some_iff.mp listed
  cases found : splitOnce remainder delimiter with
  | none =>
    rw [found] at built
    cases built
  | some parts =>
    obtain ⟨other, rest⟩ := parts
    simp only [found] at built
    by_cases ends : rest = ""
    · rw [if_pos ends] at built
      cases built
    · rw [if_neg ends] at built
      simp only [KeyListingEntry.mk.injEq, and_true] at built
      unfold groupedPath at built
      rw [if_neg fun empty => apart (.inl empty)] at built
      split at built
      · next joined =>
        -- The named group is `prefix ++ other`, so the other segment begins with the delimiter.
        have same : other ++ delimiter = segment ++ delimiter := by
          apply String.toList_injective
          have chars := congrArg String.toList built
          simpa using chars
        rw [Bool.or_eq_true, List.isSuffixOf_iff_suffix, List.isPrefixOf_iff_prefix, same] at joined
        exact apart (.inr joined)
      · have chars := congrArg String.toList built
        simp only [String.toList_append, List.append_assoc, List.append_cancel_left_eq] at chars
        apply apart
        right
        right
        rw [String.toList_append, ← chars]
        exact List.prefix_append _ _

theorem page_unlimited (format : CursorFormat) (sorted_keys : List String) (scope : String)
    {max_keys : Nat} (filled : delimiter ≠ "") (tidy : trim delimiter = delimiter)
    (unlimited : sorted_keys.length ≤ max_keys) :
    paginateSortedKeys format sorted_keys scope .exactStartsWith prefix_text (some delimiter)
        (some 1) none none max_keys =
      .ok ⟨(sorted_keys.filterMap (listedEntry .exactStartsWith prefix_text (some delimiter)
        (some 1))).destutter (· ≠ ·), none, false⟩ := by
  have kept : ((some delimiter).map trim).filter (fun value => value != "") = some delimiter := by
    simp [tidy, Option.filter, filled]
  have walked := @collectEntries_all (listedEntry .exactStartsWith prefix_text (some delimiter)
    (some 1)) (max max_keys 1) sorted_keys (by omega) (by omega)
  unfold paginateSortedKeys
  simp only [kept]
  change Except.ok _ = _
  have nothing_listed : alreadyListed none
      (if (none : Option KeyListingCursor).isNone = true then none else none) = fun _ => false := rfl
  rw [nothing_listed, walked]
  rfl

end Page

/-- The listing is truthful exactly if every key that collapses does so behind a prefix that
    is empty, ends with the delimiter, or is followed by it in the key. -/
theorem listing_groups_truthfully_iff (format : CursorFormat) (sorted_keys : List String)
    (scope prefix_text delimiter : String) (max_keys : Nat)
    (sorted : sorted_keys.Pairwise (· < ·)) (filled : delimiter ≠ "")
    (tidy : trim delimiter = delimiter) (unlimited : sorted_keys.length ≤ max_keys) :
    (∃ page, paginateSortedKeys format sorted_keys scope .exactStartsWith prefix_text
        (some delimiter) (some 1) none none max_keys = .ok page ∧ page.entries.Nodup ∧
        ∀ entry, entry ∈ page.entries ↔
          ∃ key ∈ sorted_keys, owedEntry prefix_text delimiter key = some entry) ↔
      ∀ key ∈ sorted_keys, ∀ remainder segment rest,
        Collapses prefix_text delimiter remainder segment rest key →
          prefix_text = "" ∨ delimiter.toList <:+ prefix_text.toList ∨
            delimiter.toList <+: remainder.toList := by
  rw [page_unlimited format sorted_keys scope filled tidy unlimited]
  constructor
  · rintro ⟨page, built, _, exact_entries⟩ key listed remainder segment rest collapses
    cases built
    have owed : owedEntry prefix_text delimiter key =
        some ⟨prefix_text ++ (segment ++ delimiter), .commonPrefix⟩ := by
      obtain ⟨stripped, found, more⟩ := collapses
      unfold owedEntry
      rw [stripped, Option.map_some]
      simp only [found, more, if_false]
    have shown := (exact_entries _).mpr ⟨key, listed, owed⟩
    rw [mem_destutter, List.mem_filterMap] at shown
    obtain ⟨source, _, emitted⟩ := shown
    rw [← begins_iff filled collapses.2.1]
    by_contra apart
    exact owed_group_missing filled apart source emitted
  · intro joined
    have same : sorted_keys.filterMap (listedEntry .exactStartsWith prefix_text (some delimiter)
        (some 1)) = sorted_keys.filterMap (owedEntry prefix_text delimiter) :=
      List.filterMap_congr fun key listed => listedEntry_owed filled key (joined key listed)
    refine ⟨_, rfl, ?_, ?_⟩
    · simp only [same]
      apply nodup_destutter
      exact contiguous_filterMap sorted fun _ _ _ first second whole _ _ low high mid =>
        owedEntry_convex first second whole low high mid
    · intro entry
      simp only [same, mem_destutter, List.mem_filterMap]

def unusedFormat : CursorFormat := ⟨fun _ => "", fun _ => none, fun _ => [], fun _ => none⟩

theorem folder_listing_truthful :
    ∃ page, paginateSortedKeys unusedFormat ["docs/a", "docs/b/c", "docs/b/d"] "" .exactStartsWith
        "docs/" (some "/") (some 1) none none 3 = .ok page ∧ page.entries.Nodup ∧
        ∀ entry, entry ∈ page.entries ↔
          ∃ key ∈ ["docs/a", "docs/b/c", "docs/b/d"], owedEntry "docs/" "/" key = some entry :=
  (listing_groups_truthfully_iff unusedFormat ["docs/a", "docs/b/c", "docs/b/d"] "" "docs/" "/" 3
    (by decide +kernel) (by decide) (by decide) (by decide)).mpr fun _ _ _ _ _ _ =>
      .inr (.inl (by decide))

/-- With a prefix that ends inside a name the group is listed under a name that no key has. -/
theorem partial_name_listed_as_other_group :
    paginateSortedKeys unusedFormat ["photos/a"] "" .exactStartsWith "pho" (some "/") (some 1)
        none none 1 = .ok ⟨[⟨"pho/tos/", .commonPrefix⟩], none, false⟩ ∧
      owedEntry "pho" "/" "photos/a" = some ⟨"photos/", .commonPrefix⟩ := by
  decide

end BerryKeepKeyListing
