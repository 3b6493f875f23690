import BerryKeep.CursorPaging
import BerryKeep.KeyListing
import Mathlib.Logic.Equiv.List

/-!
Key listings over several pages. The first segments of a key do not depend on
what follows them, so sorted keys collapse into sorted entries, and the entry
that ends a page separates what was listed from what is left. A page resumes by
comparing entries with that one, so the pages of a listing are consecutive
pieces of the unlimited page.
-/
namespace BerryKeepListingPages
open TextOperations SortedGroups CursorPaging BerryKeepContentCodec BerryKeepKeyListing

section Segments
variable {delimiter : List Char}

def cutSegments (delimiter : List Char) : Nat → List Char → Option (List Char × List Char)
  | 0, text => if text = [] then none else some ([], text)
  | count + 1, text =>
    (splitFirst delimiter text).bind fun parts =>
      (cutSegments delimiter count parts.2).map fun rest =>
        (parts.1 ++ delimiter ++ rest.1, rest.2)

theorem cutSegments_succ {count : Nat} {text front rest : List Char}
    (cut : cutSegments delimiter (count + 1) text = some (front, rest)) :
    ∃ before after tail, splitFirst delimiter text = some (before, after) ∧
      cutSegments delimiter count after = some (tail, rest) ∧
        front = before ++ delimiter ++ tail := by
  simp only [cutSegments, Option.bind_eq_some_iff, Option.map_eq_some_iff] at cut
  obtain ⟨⟨before, after⟩, split, ⟨tail, rest'⟩, again, same⟩ := cut
  cases same
  exact ⟨before, after, tail, split, again, rfl⟩

theorem cutSegments_whole (count : Nat) : ∀ {text front rest : List Char},
    cutSegments delimiter count text = some (front, rest) → text = front ++ rest := by
  induction count with
  | zero =>
    intro text front rest cut
    simp only [cutSegments] at cut
    split at cut
    · cases cut
    · cases cut
      rfl
  | succ count ih =>
    intro text front rest cut
    obtain ⟨before, after, tail, split, again, rfl⟩ := cutSegments_succ cut
    rw [← splitFirst_append delimiter split, ih again, List.append_assoc _ tail rest]

theorem cutSegments_swap (count : Nat) : ∀ {front rest other : List Char},
    cutSegments delimiter count (front ++ rest) = some (front, rest) → other ≠ [] →
      cutSegments delimiter count (front ++ other) = some (front, other) := by
  induction count with
  | zero =>
    intro front rest other cut filled
    simp only [cutSegments] at cut
    split at cut
    · cases cut
    · simp only [Option.some.injEq, Prod.mk.injEq] at cut
      rw [← cut.1, List.nil_append, cutSegments, if_neg filled]
  | succ count ih =>
    intro front rest other cut filled
    obtain ⟨before, after, tail, split, again, rfl⟩ := cutSegments_succ cut
    have whole := splitFirst_append delimiter split
    rw [List.append_assoc _ tail rest, List.append_cancel_left_eq] at whole
    subst whole
    rw [List.append_assoc _ tail rest] at split
    rw [List.append_assoc _ tail other, cutSegments, splitFirst_swap split (tail ++ other)]
    simp [ih again filled]

theorem cutSegments_grouping (count : Nat) : Grouping (cutSegments delimiter count) :=
  ⟨cutSegments_whole count, cutSegments_swap count⟩

theorem segmentsFrom_cut (filled : delimiter ≠ []) (rounds : Nat) :
    ∀ (text : List Char) (count : Nat), text.length ≤ rounds →
      match cutSegments delimiter count text with
      | none => (segmentsFrom delimiter rounds text).length ≤ count
      | some (front, _) => count < (segmentsFrom delimiter rounds text).length ∧
          ((segmentsFrom delimiter rounds text).take count).flatten = front := by
  have nothing : splitFirst delimiter [] = none := by simp [splitFirst, filled]
  induction rounds with
  | zero =>
    intro text count short
    rw [List.length_eq_zero_iff.mp (Nat.le_zero.mp short)]
    cases count with
    | zero => simp [cutSegments, segmentsFrom]
    | succ count => simp [cutSegments, nothing, segmentsFrom]
  | succ rounds ih =>
    intro text count short
    by_cases empty : text = []
    · subst empty
      cases count with
      | zero => simp [cutSegments, segmentsFrom]
      | succ count => simp [cutSegments, nothing, segmentsFrom]
    · simp only [segmentsFrom, if_neg empty]
      cases split : splitFirst delimiter text with
      | none =>
        cases count with
        | zero => simp [cutSegments, empty]
        | succ count => simp [cutSegments, split]
      | some parts =>
        obtain ⟨before, after⟩ := parts
        have lengths := congrArg List.length (splitFirst_append delimiter split)
        have positive := List.length_pos_of_ne_nil filled
        simp only [List.length_append] at lengths
        cases count with
        | zero => simp [cutSegments, empty]
        | succ count =>
          have again := ih after count (by omega)
          simp only [cutSegments, split, Option.bind_some]
          cases cut : cutSegments delimiter count after with
          | none =>
            rw [cut] at again
            simpa using again
          | some rest =>
            rw [cut] at again
            simpa using again

end Segments

section Entries
variable {prefix_text : String} {delimiter : Option String} {collapse_after : Option Nat}

def collapse (delimiter : Option String) (collapse_after : Option Nat) :
    List Char → Option (List Char × List Char) :=
  match delimiter, collapse_after with
  | some delimiter, some (count + 1) => cutSegments delimiter.toList (count + 1)
  | _, _ => fun _ => none

theorem collapse_grouping (delimiter : Option String) (collapse_after : Option Nat) :
    Grouping (collapse delimiter collapse_after) := by
  unfold collapse
  split
  · exact cutSegments_grouping _
  · constructor
    · intro text front rest cut
      cases cut
    · intro front rest other cut
      cases cut

def namedEntry (prefix_text : String) (name : List Char × Bool) : KeyListingEntry :=
  ⟨prefix_text ++ String.ofList name.1, if name.2 then .commonPrefix else .object⟩

theorem join_ofList (segments : List (List Char)) :
    String.join (segments.map String.ofList) = String.ofList segments.flatten := by
  apply String.toList_injective
  simp [String.toList_join, List.flatMap_map, List.flatMap_id']

theorem groupedPath_joined {delimiter : String}
    (joined : prefix_text = "" ∨ delimiter.toList <:+ prefix_text.toList) (collapsed : String) :
    groupedPath prefix_text delimiter collapsed = prefix_text ++ collapsed := by
  unfold groupedPath
  rcases joined with rfl | ends
  · rw [if_pos rfl, String.empty_append]
  · split
    · next empty => rw [empty, String.empty_append]
    · rw [if_pos]
      rw [Bool.or_eq_true, List.isSuffixOf_iff_suffix]
      exact .inl ends

theorem entryForKey_named (filled : delimiter ≠ some "")
    (joined : ∀ text, delimiter = some text →
      prefix_text = "" ∨ text.toList <:+ prefix_text.toList) (remainder : String) :
    entryForKey (prefix_text ++ remainder) prefix_text remainder delimiter collapse_after =
      namedEntry prefix_text (groupName (collapse delimiter collapse_after) remainder.toList) := by
  have whole : ⟨prefix_text ++ remainder, .object⟩ =
      namedEntry prefix_text (remainder.toList, false) := by
    simp [namedEntry]
  cases delimiter with
  | none => exact whole
  | some delimiter =>
    cases collapse_after with
    | none => exact whole
    | some collapse_after =>
      cases collapse_after with
      | zero =>
        unfold entryForKey
        simp only [true_or, if_true]
        exact whole
      | succ count =>
        have marker : delimiter.toList ≠ [] := by
          intro empty
          apply filled
          rw [String.toList_eq_nil_iff.mp empty]
        have segments := segmentsFrom_cut marker remainder.toList.length remainder.toList
          (count + 1) (le_refl _)
        unfold entryForKey splitRemainderSegments
        simp only [Nat.succ_ne_zero, false_or, List.length_map]
        cases cut : cutSegments delimiter.toList (count + 1) remainder.toList with
        | none =>
          rw [cut] at segments
          rw [if_pos segments, groupName_text (by simpa [collapse] using cut)]
          exact whole
        | some parts =>
          obtain ⟨front, rest⟩ := parts
          rw [cut] at segments
          obtain ⟨more, taken⟩ := segments
          rw [if_neg (by omega), groupName_front (by simpa [collapse] using cut),
            groupedPath_joined (joined delimiter rfl), ← List.map_take, join_ofList, taken]
          simp [namedEntry]

theorem listedEntry_named (filled : delimiter ≠ some "")
    (joined : ∀ text, delimiter = some text →
      prefix_text = "" ∨ text.toList <:+ prefix_text.toList) (key : String) :
    listedEntry .exactStartsWith prefix_text delimiter collapse_after key =
      (stripPrefix key prefix_text).map fun remainder => namedEntry prefix_text
        (groupName (collapse delimiter collapse_after) remainder.toList) := by
  unfold listedEntry
  rw [keyRemainder_exact]
  cases stripped : stripPrefix key prefix_text with
  | none => rfl
  | some remainder =>
    rw [(stripPrefix_iff key remainder).mp stripped, Option.map_some, Option.map_some,
      entryForKey_named filled joined]

def entryOrder (entry : KeyListingEntry) : List Char ×ₗ Bool :=
  toLex (entry.path.toList, decide (entry.kind = .commonPrefix))

theorem entryOrder_injective : Function.Injective entryOrder := by
  rintro ⟨path, kind⟩ ⟨path', kind'⟩ same
  simp only [entryOrder, toLex_inj, Prod.mk.injEq, String.toList_inj] at same
  obtain ⟨rfl, kinds⟩ := same
  cases kind <;> cases kind' <;> simp_all

theorem entryOrder_named (prefix_text : String) (name : List Char × Bool) :
    entryOrder (namedEntry prefix_text name) = toLex (prefix_text.toList ++ name.1, name.2) := by
  obtain ⟨front, grouped⟩ := name
  cases grouped <;> simp [entryOrder, namedEntry]

theorem entries_sorted (filled : delimiter ≠ some "")
    (joined : ∀ text, delimiter = some text →
      prefix_text = "" ∨ text.toList <:+ prefix_text.toList) {keys : List String}
    (sorted : keys.Pairwise (· < ·)) :
    (keys.filterMap (listedEntry .exactStartsWith prefix_text delimiter collapse_after)).Pairwise
      fun a b => entryOrder a ≤ entryOrder b := by
  rw [List.pairwise_filterMap]
  refine sorted.imp ?_
  intro low high below a listed_low b listed_high
  rw [listedEntry_named filled joined, Option.map_eq_some_iff] at listed_low listed_high
  obtain ⟨first, strip_low, rfl⟩ := listed_low
  obtain ⟨second, strip_high, rfl⟩ := listed_high
  rw [(stripPrefix_iff low first).mp strip_low, (stripPrefix_iff high second).mp strip_high,
    String.lt_iff_toList_lt, String.toList_append, String.toList_append, append_lt_iff] at below
  have names := (collapse_grouping delimiter collapse_after).mono below
  rw [entryOrder_named, entryOrder_named, Prod.Lex.toLex_le_toLex]
  rw [Prod.Lex.toLex_le_toLex] at names
  rcases names with before | ⟨same, kinds⟩
  · exact .inl (List.append_left_lt before)
  · exact .inr ⟨congrArg (prefix_text.toList ++ ·) same, kinds⟩

end Entries

section Pages
variable (format : CursorFormat) (sorted_keys : List String) (scope prefix_text : String)
  (delimiter : Option String) (collapse_after : Option Nat) (resume_after : Option String)
  (max_keys : Nat)

def requestPage (cursor : Option String) : Option (List KeyListingEntry × Option (Option String)) :=
  match paginateSortedKeys format sorted_keys scope .exactStartsWith prefix_text delimiter
      collapse_after cursor resume_after max_keys with
  | .error _ => none
  | .ok page => some (page.entries, if page.hasMore then some page.nextCursor else none)

def usedDelimiter (delimiter : Option String) : Option String :=
  (delimiter.map trim).filter fun value => value != ""

def cursorAfter (entry : KeyListingEntry) : KeyListingCursor :=
  { scope, prefixMode := .exactStartsWith, prefix_text, delimiter := usedDelimiter delimiter,
    collapseAfter := collapse_after, lastPath := entry.path, lastKind := entry.kind }

def allEntries : List KeyListingEntry :=
  (freshEntries (listedEntry .exactStartsWith prefix_text (usedDelimiter delimiter) collapse_after)
    (alreadyListed none resume_after) sorted_keys).destutter (· ≠ ·)

inductive StandsAt : Option String → Nat → Prop where
  | start : StandsAt none 0
  | after {i : Nat} {last : KeyListingEntry}
      (listed : (allEntries sorted_keys prefix_text delimiter collapse_after resume_after)[i]? =
        some last) :
      StandsAt (some (encodeCursor format (cursorAfter scope prefix_text delimiter collapse_after
        last))) (i + 1)

variable {format sorted_keys scope prefix_text delimiter collapse_after resume_after max_keys}

theorem usedDelimiter_filled : usedDelimiter delimiter ≠ some "" := by
  intro empty
  have kept := Option.filter_eq_some_iff.mp empty
  simp at kept

theorem usedDelimiter_tidy (tidy : ∀ text, delimiter = some text → trim text = text)
    {text : String} (used : usedDelimiter delimiter = some text) : delimiter = some text := by
  obtain ⟨found, _⟩ := Option.filter_eq_some_iff.mp used
  obtain ⟨given, same, trimmed⟩ := Option.map_eq_some_iff.mp found
  rw [tidy given same] at trimmed
  rw [same, trimmed]

theorem paginate_walk {cursor : Option String} {cursor_resume : Option KeyListingCursor}
    (decoded : cursor.mapM (fun token => decodeCursor format token scope .exactStartsWith
      prefix_text (usedDelimiter delimiter) collapse_after) = .ok cursor_resume)
    {rows : List KeyListingEntry}
    (left : (freshEntries (listedEntry .exactStartsWith prefix_text (usedDelimiter delimiter)
      collapse_after) (alreadyListed cursor_resume
        (if cursor_resume.isNone then resume_after else none)) sorted_keys).destutter (· ≠ ·) =
      rows) :
    paginateSortedKeys format sorted_keys scope .exactStartsWith prefix_text delimiter
        collapse_after cursor resume_after max_keys =
      .ok ⟨rows.take (max max_keys 1), if max max_keys 1 < rows.length then
        (rows.take (max max_keys 1)).getLast?.map fun entry => encodeCursor format
          (cursorAfter scope prefix_text delimiter collapse_after entry) else none,
        decide (max max_keys 1 < rows.length)⟩ := by
  have walked := @collectEntries_eq (listedEntry .exactStartsWith prefix_text
    (usedDelimiter delimiter) collapse_after) (alreadyListed cursor_resume
      (if cursor_resume.isNone then resume_after else none)) (max max_keys 1) sorted_keys (by omega)
  rw [left] at walked
  unfold usedDelimiter at decoded walked
  unfold paginateSortedKeys
  simp only [decoded, bind, Except.bind, pure, Except.pure, walked]
  by_cases more : max max_keys 1 < rows.length
  · simp only [more, decide_true, if_true, cursorAfter, usedDelimiter]
  · simp only [more, decide_false, Bool.false_eq_true, if_false]

theorem alreadyListed_cursor (last entry : KeyListingEntry) :
    (!alreadyListed (some (cursorAfter scope prefix_text delimiter collapse_after last)) none
      entry) = decide (entryOrder last < entryOrder entry) := by
  obtain ⟨path, kind⟩ := entry
  obtain ⟨last_path, last_kind⟩ := last
  rw [Bool.eq_iff_iff, Bool.not_eq_true', ← Bool.not_eq_true, decide_eq_true_eq, not_iff_comm,
    not_lt]
  simp only [alreadyListed, cursorAfter, Bool.or_false, Bool.or_eq_true, decide_eq_true_eq,
    Bool.and_eq_true, beq_iff_eq, entryOrder, Prod.Lex.toLex_le_toLex, String.lt_iff_toList_lt,
    String.toList_inj]
  cases kind <;> cases last_kind <;> simp [entryKindRank]

theorem decodeCursor_after
    (inverse : ∀ cursor, (format.base64Decode (encodeCursor format cursor)).bind format.fromSlice =
      some cursor) (last : KeyListingEntry) :
    decodeCursor format (encodeCursor format (cursorAfter scope prefix_text delimiter collapse_after
        last)) scope .exactStartsWith prefix_text (usedDelimiter delimiter) collapse_after =
      .ok (cursorAfter scope prefix_text delimiter collapse_after last) := by
  obtain ⟨bytes, text, parsed⟩ := Option.bind_eq_some_iff.mp
    (inverse (cursorAfter scope prefix_text delimiter collapse_after last))
  unfold decodeCursor
  simp only [text, parsed]
  rw [if_neg]
  simp [cursorAfter]

theorem alreadyListed_start {low high : KeyListingEntry} (below : entryOrder low < entryOrder high)
    (fresh : alreadyListed none resume_after low = false) :
    alreadyListed none resume_after high = false := by
  cases resume_after with
  | none => rfl
  | some after =>
    simp only [alreadyListed, Bool.false_or, decide_eq_false_iff_not, not_le] at fresh ⊢
    have paths : low.path ≤ high.path := by
      rw [entryOrder, entryOrder, Prod.Lex.toLex_lt_toLex] at below
      rcases below with before | ⟨same, _⟩
      · exact le_of_lt (String.lt_iff_toList_lt.mpr before)
      · exact le_of_eq (String.toList_inj.mp same)
    exact lt_of_lt_of_le fresh paths

section Resuming
variable (sorted : sorted_keys.Pairwise (· < ·))
  (joined : ∀ text, usedDelimiter delimiter = some text →
    prefix_text = "" ∨ text.toList <:+ prefix_text.toList)
include sorted joined

theorem allEntries_filter :
    allEntries sorted_keys prefix_text delimiter collapse_after resume_after =
      ((sorted_keys.filterMap (listedEntry .exactStartsWith prefix_text (usedDelimiter delimiter)
        collapse_after)).destutter (· ≠ ·)).filter fun entry =>
          !alreadyListed none resume_after entry :=
  destutter_filter entryOrder_injective (entries_sorted usedDelimiter_filled joined sorted) _

theorem allEntries_ascending :
    (allEntries sorted_keys prefix_text delimiter collapse_after resume_after).Pairwise
      fun a b => entryOrder a < entryOrder b := by
  rw [allEntries_filter sorted joined]
  exact (destutter_ascending entryOrder_injective
    (entries_sorted usedDelimiter_filled joined sorted)).filter _

theorem resumed_entries {i : Nat} {last : KeyListingEntry}
    (listed : (allEntries sorted_keys prefix_text delimiter collapse_after resume_after)[i]? =
      some last) :
    (freshEntries (listedEntry .exactStartsWith prefix_text (usedDelimiter delimiter)
      collapse_after) (alreadyListed (some (cursorAfter scope prefix_text delimiter collapse_after
        last)) none) sorted_keys).destutter (· ≠ ·) =
      (allEntries sorted_keys prefix_text delimiter collapse_after resume_after).drop (i + 1) := by
  rw [← filter_above (allEntries_ascending sorted joined) listed]
  have member := List.mem_of_getElem? listed
  rw [allEntries_filter sorted joined, List.mem_filter] at member
  rw [allEntries_filter sorted joined, List.filter_filter]
  unfold freshEntries
  rw [destutter_filter entryOrder_injective (entries_sorted usedDelimiter_filled joined sorted)]
  apply List.filter_congr
  intro entry _
  rw [alreadyListed_cursor]
  by_cases above : entryOrder last < entryOrder entry
  · have fresh := alreadyListed_start above (by simpa using member.2)
    simp [above, fresh]
  · simp [above]

theorem requests_cut
    (inverse : ∀ cursor, (format.base64Decode (encodeCursor format cursor)).bind format.fromSlice =
      some cursor) :
    Cuts (requestPage format sorted_keys scope prefix_text delimiter collapse_after resume_after
        max_keys)
      (allEntries sorted_keys prefix_text delimiter collapse_after resume_after) (max max_keys 1)
      (StandsAt format sorted_keys scope prefix_text delimiter collapse_after resume_after) := by
  have request : ∀ {cursor : Option String} {i : Nat},
      StandsAt format sorted_keys scope prefix_text delimiter collapse_after resume_after cursor
        i → ∃ cursor_resume,
      cursor.mapM (fun token => decodeCursor format token scope .exactStartsWith prefix_text
        (usedDelimiter delimiter) collapse_after) = .ok cursor_resume ∧
      (freshEntries (listedEntry .exactStartsWith prefix_text (usedDelimiter delimiter)
        collapse_after) (alreadyListed cursor_resume
          (if cursor_resume.isNone then resume_after else none)) sorted_keys).destutter (· ≠ ·) =
        (allEntries sorted_keys prefix_text delimiter collapse_after resume_after).drop i := by
    intro cursor i stands
    cases stands with
    | start => exact ⟨none, rfl, rfl⟩
    | @after i last listed =>
      refine ⟨some (cursorAfter scope prefix_text delimiter collapse_after last), ?_, ?_⟩
      · rw [Option.mapM_some, decodeCursor_after inverse]
        rfl
      · exact resumed_entries sorted joined listed
  constructor
  · intro cursor i stands ends
    obtain ⟨cursor_resume, decoded, left⟩ := request stands
    have short : ((allEntries sorted_keys prefix_text delimiter collapse_after
        resume_after).drop i).length ≤ max max_keys 1 := by
      rw [List.length_drop]
      omega
    rw [requestPage, paginate_walk decoded left, List.take_of_length_le short,
      decide_eq_false (by omega)]
    rfl
  · intro cursor i stands more
    obtain ⟨cursor_resume, decoded, left⟩ := request stands
    have longer : max max_keys 1 < ((allEntries sorted_keys prefix_text delimiter collapse_after
        resume_after).drop i).length := by
      rw [List.length_drop]
      omega
    obtain ⟨last, found⟩ : ∃ last, (allEntries sorted_keys prefix_text delimiter collapse_after
        resume_after)[i + (max max_keys 1 - 1)]? = some last :=
      ⟨_, List.getElem?_eq_getElem (by omega)⟩
    have ending : (((allEntries sorted_keys prefix_text delimiter collapse_after
        resume_after).drop i).take (max max_keys 1)).getLast? = some last := by
      rw [List.getLast?_take, if_neg (by omega), List.getElem?_drop, found]
      rfl
    refine ⟨some (encodeCursor format (cursorAfter scope prefix_text delimiter collapse_after
      last)), ?_, ?_⟩
    · rw [requestPage, paginate_walk decoded left, if_pos longer, ending, decide_eq_true longer]
      rfl
    have place : i + (max max_keys 1 - 1) + 1 = i + max max_keys 1 := by omega
    exact place ▸ StandsAt.after found

end Resuming

end Pages

/-- Following the cursors of a listing from its first page loses and repeats nothing. -/
theorem pages_cover_listing (format : CursorFormat) (sorted_keys : List String)
    (scope prefix_text : String) (delimiter : Option String) (collapse_after : Option Nat)
    (resume_after : Option String) (max_keys unlimited : Nat)
    (sorted : sorted_keys.Pairwise (· < ·))
    (tidy : ∀ text, delimiter = some text → trim text = text)
    (joined : ∀ text, delimiter = some text →
      prefix_text = "" ∨ text.toList <:+ prefix_text.toList)
    (inverse : ∀ cursor, (format.base64Decode (encodeCursor format cursor)).bind format.fromSlice =
      some cursor)
    (room : sorted_keys.length ≤ unlimited) :
    ∃ pages whole,
      followPages (requestPage format sorted_keys scope prefix_text delimiter collapse_after
        resume_after max_keys) (sorted_keys.length + 1) none = some pages ∧
      paginateSortedKeys format sorted_keys scope .exactStartsWith prefix_text delimiter
        collapse_after none resume_after unlimited = .ok whole ∧ whole.hasMore = false ∧
      pages.flatten = whole.entries ∧
      (∀ page ∈ pages.dropLast, page.length = max max_keys 1) ∧
      (resume_after = none →
        countSortedKeys sorted_keys .exactStartsWith prefix_text delimiter collapse_after =
          whole.entries.length) := by
  have used : ∀ text, usedDelimiter delimiter = some text →
      prefix_text = "" ∨ text.toList <:+ prefix_text.toList :=
    fun text found => joined text (usedDelimiter_tidy tidy found)
  have short : (allEntries sorted_keys prefix_text delimiter collapse_after resume_after).length ≤
      sorted_keys.length := by
    unfold allEntries freshEntries
    exact (List.destutter_sublist _ _).length_le.trans
      ((List.length_filter_le _ _).trans (List.length_filterMap_le _ _))
  have cuts : Cuts (requestPage format sorted_keys scope prefix_text delimiter collapse_after
      resume_after max_keys) _ _ _ := requests_cut sorted used inverse
  obtain ⟨pages, followed, flat, full⟩ := followPages_cuts (by omega) cuts
    (sorted_keys.length + 1) none 0 .start (by omega)
  have whole := @paginate_walk format sorted_keys scope prefix_text delimiter collapse_after
    resume_after unlimited none none rfl _ rfl
  refine ⟨pages, _, followed, whole, decide_eq_false ?_, ?_, full, ?_⟩
  · have above := short.trans room
    unfold allEntries at above
    simp only [Option.isNone_none, if_true]
    omega
  · rw [flat, List.drop_zero]
    exact (List.take_of_length_le ((short.trans room).trans (by omega))).symm
  · rintro rfl
    have counted := @countEntries_eq (listedEntry .exactStartsWith prefix_text
      (usedDelimiter delimiter) collapse_after) sorted_keys
    have above := short.trans room
    have fresh : freshEntries (listedEntry .exactStartsWith prefix_text (usedDelimiter delimiter)
        collapse_after) (alreadyListed none none) sorted_keys = sorted_keys.filterMap
          (listedEntry .exactStartsWith prefix_text (usedDelimiter delimiter) collapse_after) := by
      simp [freshEntries, alreadyListed]
    unfold allEntries at above
    simp only [Option.isNone_none, if_true]
    rw [fresh] at above ⊢
    rw [List.take_of_length_le (above.trans (by omega))]
    exact counted

section Example

/-- The cursor after the group `a/` of a listing by `/`, its JSON and its token. -/
def folderCursor : KeyListingCursor :=
  ⟨"", .exactStartsWith, "", some "/", some 1, "a/", .commonPrefix⟩

def folderJson : Bytes :=
  textBytes ("\x7b\"scope\":\"\",\"prefix_mode\":\"exact_starts_with\",\"prefix\":\"\"," ++
    "\"delimiter\":\"/\",\"collapse_after\":1,\"last_path\":\"a/\"," ++
    "\"last_kind\":\"common_prefix\"\x7d")

def folderToken : String :=
  "eyJzY29wZSI6IiIsInByZWZpeF9tb2RlIjoiZXhhY3Rfc3RhcnRzX3dpdGgiLCJwcmVmaXgiOiIiLCJkZWxpbWl0ZXIi" ++
    "OiIvIiwiY29sbGFwc2VfYWZ0ZXIiOjEsImxhc3RfcGF0aCI6ImEvIiwibGFzdF9raW5kIjoiY29tbW9uX3ByZWZpeCJ9"

abbrev CursorFields :=
  List Nat × Bool × List Nat × Option (List Nat) × Option Nat × List Nat × Bool

def codesOf (text : String) : List Nat := text.toList.map Char.toNat

def textOf (codes : List Nat) : String := String.ofList (codes.map Char.ofNat)

def fieldsOf (cursor : KeyListingCursor) : CursorFields :=
  (codesOf cursor.scope, decide (cursor.prefixMode = .exactStartsWith),
    codesOf cursor.prefix_text, cursor.delimiter.map codesOf, cursor.collapseAfter,
    codesOf cursor.lastPath, decide (cursor.lastKind = .object))

def cursorOf : CursorFields → KeyListingCursor
  | (scope, mode, prefix_text, delimiter, collapse_after, last_path, kind) =>
    ⟨textOf scope, if mode then .exactStartsWith else .pathBoundary, textOf prefix_text,
      delimiter.map textOf, collapse_after, textOf last_path,
      if kind then .object else .commonPrefix⟩

/-- A token format that writes the folder's cursor as the server does, and any other one as a
    number. -/
def folderFormat : CursorFormat where
  base64Encode bytes := if bytes = folderJson then folderToken
    else String.ofList (List.replicate bytes.length '0')
  base64Decode token := if token = folderToken then some folderJson
    else some (List.replicate token.toList.length 0)
  toVec cursor := if cursor = folderCursor then folderJson
    else List.replicate (Encodable.encode (fieldsOf cursor)) 0
  fromSlice bytes := if bytes = folderJson then some folderCursor
    else (Encodable.decode bytes.length).map cursorOf

theorem textOf_codes (text : String) : textOf (codesOf text) = text := by
  have same : Char.ofNat ∘ Char.toNat = id := funext Char.ofNat_toNat
  apply String.toList_injective
  simp [textOf, codesOf, same]

theorem cursorOf_fields (cursor : KeyListingCursor) : cursorOf (fieldsOf cursor) = cursor := by
  obtain ⟨scope, mode, prefix_text, delimiter, collapse_after, last_path, kind⟩ := cursor
  cases mode <;> cases kind <;> cases delimiter <;>
    simp [cursorOf, fieldsOf, textOf_codes]

theorem zeros_not_json (n : Nat) : List.replicate n 0 ≠ folderJson := by
  intro same
  have member : (34 : UInt8) ∈ folderJson := by decide +kernel
  rw [← same] at member
  exact absurd (List.eq_of_mem_replicate member) (by decide)

theorem zeros_not_token (n : Nat) : String.ofList (List.replicate n '0') ≠ folderToken := by
  intro same
  have member : 'e' ∈ folderToken.toList := by decide +kernel
  rw [← same, String.toList_ofList] at member
  exact absurd (List.eq_of_mem_replicate member) (by decide)

theorem folderFormat_inverse (cursor : KeyListingCursor) :
    (folderFormat.base64Decode (encodeCursor folderFormat cursor)).bind folderFormat.fromSlice =
      some cursor := by
  by_cases known : cursor = folderCursor
  · simp [encodeCursor, folderFormat, known]
  · simp only [encodeCursor, folderFormat, known, zeros_not_json, zeros_not_token, if_false,
      Option.bind_some, List.length_replicate, String.toList_ofList, Encodable.encodek,
      Option.map_some, cursorOf_fields]

theorem folder_paged_by_one :
    ∃ pages whole,
      followPages (requestPage folderFormat ["a/x", "a/y", "b"] "" "" (some "/") (some 1) none 1)
        4 none = some pages ∧
      paginateSortedKeys folderFormat ["a/x", "a/y", "b"] "" .exactStartsWith "" (some "/")
        (some 1) none none 3 = .ok whole ∧ whole.hasMore = false ∧
      pages.flatten = whole.entries ∧ (∀ page ∈ pages.dropLast, page.length = 1) ∧
      ((none : Option String) = none →
        countSortedKeys ["a/x", "a/y", "b"] .exactStartsWith "" (some "/") (some 1) =
          whole.entries.length) :=
  pages_cover_listing folderFormat ["a/x", "a/y", "b"] "" "" (some "/") (some 1) none 1 3
    (by decide +kernel) (by rintro text ⟨⟩; decide) (fun _ _ => .inl rfl) folderFormat_inverse
    (by decide)

example : requestPage folderFormat ["a/x", "a/y", "b"] "" "" (some "/") (some 1) none 1 none =
    some ([⟨"a/", .commonPrefix⟩], some (some folderToken)) := by
  decide +kernel

end Example

end BerryKeepListingPages
