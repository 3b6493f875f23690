import BerryKeep.ContentCodec

/-!
The bulk delete of the S3 front end: a tag scanner picks the object keys out of
the request document. The scanner trims what stands between two tags and takes
it as it is, so an escaped key comes back escaped. The development renders the
document a client sends for a list of keys, follows the scanner through it, and
says for which keys it returns what was meant.
-/
namespace BerryKeepS3BulkDelete
open TextOperations BerryKeepContentCodec

section Source

def isAsciiWhitespace (c : Char) : Bool :=
  c == ' ' || c == '\t' || c == '\n' || c == '\x0c' || c == '\r'

def isAsciiWhitespaceByte (byte : UInt8) : Bool :=
  byte == 0x20 || byte == 0x09 || byte == 0x0a || byte == 0x0c || byte == 0x0d

/-- Every round leaves a shorter text, so as many rounds as characters are enough. -/
def xmlTagBlocksFrom (tag : List Char) : Nat → List Char → List String
  | 0, _ => []
  | rounds + 1, xml =>
    match splitFirst ('<' :: tag) xml with
    | none => []
    | some (_, []) => []
    | some (_, next_char :: after) =>
      if next_char != '>' && next_char != '/' && !isAsciiWhitespace next_char then
        xmlTagBlocksFrom tag rounds (next_char :: after)
      else
        -- The end of the opening tag is looked for from its beginning.
        match splitFirst ['>'] ('<' :: tag ++ next_char :: after) with
        | none => []
        | some (_, content) =>
          match splitFirst ('<' :: '/' :: tag ++ ['>']) content with
          | none => []
          | some (inner, rest) => trim (String.ofList inner) :: xmlTagBlocksFrom tag rounds rest

def xmlTagBlocks (xml tag : String) : List String :=
  xmlTagBlocksFrom tag.toList xml.toList.length xml.toList

def xmlTagContents (xml tag : String) : Option String := (xmlTagBlocks xml tag).head?

structure DeleteObjectsRequestItem where
  key : String
  versionId : Option String
  deriving DecidableEq, Repr

structure DeleteObjectsRequest where
  objects : List DeleteObjectsRequestItem
  quiet : Bool
  deriving DecidableEq, Repr

def fromUtf8 (payload : Bytes) : Option String :=
  payload.toByteArray.utf8Decode?.map fun chars => String.ofList chars.toList

def deleteObjectsRequestItem (object_xml : String) : Except String DeleteObjectsRequestItem :=
  match xmlTagContents object_xml "Key" with
  | none => .error "DeleteObjects Object elements must include a Key"
  | some key => .ok
    { key := key
      versionId := ((xmlTagContents object_xml "VersionId").map trim).filter fun value =>
        value != "" }

def deleteObjectsRequestOf (delete_xml : String) : Except String DeleteObjectsRequest :=
  let object_blocks := xmlTagBlocks delete_xml "Object"
  if object_blocks.isEmpty then
    .error "DeleteObjects must include at least one Object element"
  else if 1000 < object_blocks.length then
    .error "DeleteObjects may not include more than 1000 Object elements"
  else do
    let objects ← object_blocks.mapM deleteObjectsRequestItem
    return { objects := objects
             quiet := ((xmlTagContents delete_xml "Quiet").map fun value =>
               toAsciiLowercase (trim value) == "true").getD false }

def parseDeleteObjectsRequest (payload : Bytes) : Except String DeleteObjectsRequest :=
  if payload.all isAsciiWhitespaceByte then
    .error "DeleteObjects requires a non-empty XML request body"
  else match fromUtf8 payload with
    | none => .error "DeleteObjects request bodies must be valid UTF-8 XML"
    | some xml => match xmlTagContents xml "Delete" with
      | none => .error "DeleteObjects request bodies must include a Delete element"
      | some delete_xml => deleteObjectsRequestOf delete_xml

def replaceCharBy (value : String) (c : Char) (by_text : String) : String :=
  String.ofList (value.toList.flatMap fun d => if d = c then by_text.toList else [d])

def xmlEscape (value : String) : String :=
  replaceCharBy (replaceCharBy (replaceCharBy value '&' "&amp;") '<' "&lt;") '>' "&gt;"

end Source

section Document

def element (tag : String) (content : List Char) : List Char :=
  '<' :: (tag.toList ++ ['>']) ++ content ++ ('<' :: '/' :: tag.toList ++ ['>'])

def objectBody (item : DeleteObjectsRequestItem) : List Char :=
  element "Key" (xmlEscape item.key).toList ++
    match item.versionId with
    | none => []
    | some version_id => element "VersionId" (xmlEscape version_id).toList

def objectElements (objects : List DeleteObjectsRequestItem) : List Char :=
  objects.flatMap fun item => element "Object" (objectBody item)

def deleteDocument (objects : List DeleteObjectsRequestItem) : String :=
  String.ofList (element "Delete" (objectElements objects))

end Document

section Escape

def escapeChar (c : Char) : List Char :=
  if c = '&' then "&amp;".toList
  else if c = '<' then "&lt;".toList
  else if c = '>' then "&gt;".toList
  else [c]

variable (value : String)

theorem xmlEscape_toList :
    (xmlEscape value).toList = value.toList.flatMap escapeChar := by
  unfold xmlEscape replaceCharBy
  simp only [String.toList_ofList, List.flatMap_assoc]
  congr 1
  funext c
  unfold escapeChar
  by_cases amp : c = '&'
  · subst amp
    decide
  · by_cases lt : c = '<'
    · subst lt
      decide
    · by_cases gt : c = '>'
      · subst gt
        decide
      · simp [amp, lt, gt]

theorem escapeChar_plain (c d : Char) (member : d ∈ escapeChar c) : d ≠ '<' ∧ d ≠ '>' := by
  have plain : ∀ text : List Char, (text.all fun e => e != '<' && e != '>') = true → d ∈ text →
      d ≠ '<' ∧ d ≠ '>' := by
    intro text all inside
    simpa using List.all_eq_true.mp all d inside
  unfold escapeChar at member
  split at member
  · exact plain _ (by decide) member
  · split at member
    · exact plain _ (by decide) member
    · split at member
      · exact plain _ (by decide) member
      · rw [List.mem_singleton] at member
        subst member
        exact ⟨‹_›, ‹_›⟩

theorem xmlEscape_plain :
    '<' ∉ (xmlEscape value).toList ∧ '>' ∉ (xmlEscape value).toList := by
  rw [xmlEscape_toList]
  constructor
  · intro member
    obtain ⟨c, _, inside⟩ := List.mem_flatMap.mp member
    exact (escapeChar_plain c _ inside).1 rfl
  · intro member
    obtain ⟨c, _, inside⟩ := List.mem_flatMap.mp member
    exact (escapeChar_plain c _ inside).2 rfl

def isSpecial (c : Char) : Bool := c == '&' || c == '<' || c == '>'

theorem count_escape :
    (xmlEscape value).toList.count ';' =
      value.toList.count ';' + value.toList.countP isSpecial := by
  rw [xmlEscape_toList]
  induction value.toList with
  | nil => rfl
  | cons c chars ih =>
    have here : (escapeChar c).count ';' =
        (if c = ';' then 1 else 0) + if isSpecial c = true then 1 else 0 := by
      unfold escapeChar isSpecial
      by_cases amp : c = '&'
      · subst amp
        decide
      · by_cases lt : c = '<'
        · subst lt
          decide
        · by_cases gt : c = '>'
          · subst gt
            decide
          · simp [amp, lt, gt, List.count_singleton]
    rw [List.flatMap_cons, List.count_append, ih, here, List.count_cons, List.countP_cons]
    simp only [beq_iff_eq]
    omega

theorem escape_unchanged {value : String} (plain : ∀ c ∈ value.toList, isSpecial c = false) :
    xmlEscape value = value := by
  apply String.toList_injective
  rw [xmlEscape_toList]
  revert plain
  induction value.toList with
  | nil => intro _; rfl
  | cons c chars ih =>
    intro plain
    have here : escapeChar c = [c] := by
      have ordinary := plain c List.mem_cons_self
      simp only [isSpecial, Bool.or_eq_false_iff, beq_eq_false_iff_ne] at ordinary
      simp [escapeChar, ordinary]
    rw [List.flatMap_cons, here, ih fun d listed => plain d (List.mem_cons_of_mem _ listed)]
    rfl

end Escape

/-- A text the scanner gives back: nothing to escape in it and no white space at its ends. -/
def Verbatim (value : String) : Prop :=
  (∀ c ∈ value.toList, isSpecial c = false) ∧ trim value = value

instance (value : String) : Decidable (Verbatim value) :=
  decidable_of_iff ((value.toList.all fun c => !isSpecial c) = true ∧ trim value = value)
    (by simp [Verbatim])

section ReadBack

-- Trimming takes only white space away, so an escaped character shows in the semicolons.
theorem plain_of_count {value scanned : String} (same : scanned = value)
    (counted : scanned.toList.count ';' = (xmlEscape value).toList.count ';') :
    ∀ c ∈ value.toList, isSpecial c = false := by
  rw [same, count_escape] at counted
  have none_special : value.toList.countP isSpecial = 0 := by omega
  intro c listed
  simpa using List.countP_eq_zero.mp none_special c listed

theorem trim_escape_iff (value : String) : trim (xmlEscape value) = value ↔ Verbatim value := by
  constructor
  · intro same
    have plain := plain_of_count same (count_trim (by decide) _)
    rw [escape_unchanged plain] at same
    exact ⟨plain, same⟩
  · intro verbatim
    rw [escape_unchanged verbatim.1]
    exact verbatim.2

theorem trim_trim_escape_iff (value : String) :
    trim (trim (xmlEscape value)) = value ↔ Verbatim value := by
  constructor
  · intro same
    have plain : ∀ c ∈ value.toList, isSpecial c = false := by
      apply plain_of_count same
      rw [count_trim (by decide), count_trim (by decide)]
    rw [escape_unchanged plain] at same
    exact ⟨plain, trim_of_trim_trim same⟩
  · intro verbatim
    rw [escape_unchanged verbatim.1, verbatim.2, verbatim.2]

end ReadBack

section Scan

variable {tag : String}

theorem skips_element {sep : List Char} {content : List Char}
    (plain : '<' ∉ tag.toList)
    (opens : ¬sep <+: tag.toList ++ ['>'] ∧ ¬tag.toList ++ ['>'] <+: sep)
    (closes : ¬sep <+: '/' :: tag.toList ++ ['>'] ∧ ¬ '/' :: tag.toList ++ ['>'] <+: sep)
    (inside : Skips ('<' :: sep) content) : Skips ('<' :: sep) (element tag content) := by
  unfold element
  apply Skips.append
  · exact (skips_marker (by simpa using plain) opens.1 opens.2).append inside
  · exact skips_marker (by simpa using plain) closes.1 closes.2

theorem xmlTagBlocksFrom_element {content : List Char}
    (plain : '>' ∉ tag.toList) (inside : Skips ('<' :: '/' :: tag.toList ++ ['>']) content)
    {before : List Char} (skipped : Skips ('<' :: tag.toList) before) (rest : List Char)
    (rounds : Nat) :
    xmlTagBlocksFrom tag.toList (rounds + 1) (before ++ (element tag content ++ rest)) =
      trim (String.ofList content) :: xmlTagBlocksFrom tag.toList rounds rest := by
  have opened : splitFirst ('<' :: tag.toList) (before ++ (element tag content ++ rest)) =
      some (before, '>' :: (content ++ ('<' :: '/' :: tag.toList ++ ['>'] ++ rest))) := by
    have shape : element tag content ++ rest = ('<' :: tag.toList) ++
        ('>' :: (content ++ ('<' :: '/' :: tag.toList ++ ['>'] ++ rest))) := by
      simp [element]
    rw [shape]
    exact skipped.found (by simp) _
  have ended : splitFirst ['>'] ('<' :: tag.toList ++
      '>' :: (content ++ ('<' :: '/' :: tag.toList ++ ['>'] ++ rest))) =
        some ('<' :: tag.toList, content ++ ('<' :: '/' :: tag.toList ++ ['>'] ++ rest)) :=
    (skips_without [] (by simpa using plain)).found (by simp) _
  have closed : splitFirst ('<' :: '/' :: tag.toList ++ ['>'])
      (content ++ ('<' :: '/' :: tag.toList ++ ['>'] ++ rest)) = some (content, rest) :=
    inside.found (by simp) rest
  simp only [xmlTagBlocksFrom, opened, ended, closed]
  simp

theorem xmlTagBlocksFrom_absent {xml : List Char}
    (skipped : Skips ('<' :: tag.toList) xml) (rounds : Nat) :
    xmlTagBlocksFrom tag.toList rounds xml = [] := by
  cases rounds with
  | zero => rfl
  | succ rounds =>
    have absent := skipped.absent (by simp)
    simp only [xmlTagBlocksFrom, absent]

theorem element_length (tag : String) (content : List Char) :
    2 ≤ (element tag content).length := by
  simp [element]
  omega

theorem xmlTagContents_element {content before : List Char} {xml : String}
    (rest : List Char) (shape : xml.toList = before ++ (element tag content ++ rest))
    (plain : '>' ∉ tag.toList) (inside : Skips ('<' :: '/' :: tag.toList ++ ['>']) content)
    (skipped : Skips ('<' :: tag.toList) before) :
    xmlTagContents xml tag = some (trim (String.ofList content)) := by
  have long := element_length tag content
  obtain ⟨rounds, enough⟩ : ∃ rounds, xml.toList.length = rounds + 1 := by
    rw [shape]
    simp only [List.length_append]
    exact ⟨before.length + ((element tag content).length + rest.length) - 1, by omega⟩
  unfold xmlTagContents xmlTagBlocks
  rw [enough, shape, xmlTagBlocksFrom_element plain inside skipped]
  rfl

theorem xmlTagContents_absent {tag xml : String} (skipped : Skips ('<' :: tag.toList) xml.toList) :
    xmlTagContents xml tag = none := by
  unfold xmlTagContents xmlTagBlocks
  rw [xmlTagBlocksFrom_absent skipped]
  rfl

end Scan

section Bounded

def Tagged (text : List Char) : Prop := ∃ mid, text = '<' :: (mid ++ ['>'])

theorem tagged_element (tag : String) (content : List Char) : Tagged (element tag content) :=
  ⟨tag.toList ++ ['>'] ++ content ++ '<' :: '/' :: tag.toList, by simp [element]⟩

theorem Tagged.append {text more : List Char} (first : Tagged text) (second : Tagged more) :
    Tagged (text ++ more) := by
  obtain ⟨mid, rfl⟩ := first
  obtain ⟨rest, rfl⟩ := second
  exact ⟨mid ++ '>' :: '<' :: rest, by simp⟩

theorem Tagged.trim_eq {text : List Char} (tagged : Tagged text) :
    trim (String.ofList text) = String.ofList text := by
  obtain ⟨mid, rfl⟩ := tagged
  exact trim_visible mid (by decide) (by decide)

theorem tagged_objectBody (item : DeleteObjectsRequestItem) : Tagged (objectBody item) := by
  unfold objectBody
  cases item.versionId with
  | none => simpa using tagged_element _ _
  | some version_id => exact (tagged_element _ _).append (tagged_element _ _)

theorem tagged_objectElements (item : DeleteObjectsRequestItem)
    (objects : List DeleteObjectsRequestItem) : Tagged (objectElements (item :: objects)) := by
  induction objects generalizing item with
  | nil => simpa [objectElements] using tagged_element _ _
  | cons next objects ih =>
    exact (tagged_element "Object" (objectBody item)).append (ih next)

end Bounded

section Request
variable {sep : List Char}

variable (item : DeleteObjectsRequestItem)

theorem skips_objectBody (key_opens : ¬sep <+: "Key>".toList ∧ ¬"Key>".toList <+: sep)
    (key_closes : ¬sep <+: "/Key>".toList ∧ ¬"/Key>".toList <+: sep)
    (version_opens : ¬sep <+: "VersionId>".toList ∧ ¬"VersionId>".toList <+: sep)
    (version_closes : ¬sep <+: "/VersionId>".toList ∧ ¬"/VersionId>".toList <+: sep) :
    Skips ('<' :: sep) (objectBody item) := by
  have escaped : ∀ value, Skips ('<' :: sep) (xmlEscape value).toList := fun value =>
    skips_without sep (xmlEscape_plain value).1
  unfold objectBody
  apply Skips.append
  · exact skips_element (by decide) key_opens key_closes (escaped _)
  · cases item.versionId with
    | none => exact skips_nil _
    | some version_id => exact skips_element (by decide) version_opens version_closes (escaped _)

variable (objects : List DeleteObjectsRequestItem)

theorem skips_objectElements (opens : ¬sep <+: "Object>".toList ∧ ¬"Object>".toList <+: sep)
    (closes : ¬sep <+: "/Object>".toList ∧ ¬"/Object>".toList <+: sep)
    (inside : ∀ item, Skips ('<' :: sep) (objectBody item)) :
    Skips ('<' :: sep) (objectElements objects) :=
  skips_flatMap fun item _ => skips_element (by decide) opens closes (inside item)

theorem xmlTagContents_delete (objects : List DeleteObjectsRequestItem) :
    xmlTagContents (deleteDocument (item :: objects)) "Delete" =
      some (String.ofList (objectElements (item :: objects))) := by
  rw [← (tagged_objectElements item objects).trim_eq]
  apply xmlTagContents_element [] _ (by decide) _ (skips_nil _)
  · simp [deleteDocument]
  · exact @skips_objectElements "/Delete>".toList _ (by decide) (by decide) fun item =>
      skips_objectBody item (by decide) (by decide) (by decide) (by decide)

theorem xmlTagBlocksFrom_objects :
    ∀ rounds, objects.length ≤ rounds →
      xmlTagBlocksFrom "Object".toList rounds (objectElements objects) =
        objects.map fun item => String.ofList (objectBody item) := by
  induction objects with
  | nil =>
    intro rounds _
    exact xmlTagBlocksFrom_absent (skips_nil _) rounds
  | cons item objects ih =>
    intro rounds enough
    cases rounds with
    | zero => simp at enough
    | succ rounds =>
      have step := @xmlTagBlocksFrom_element "Object" (objectBody item) (by decide)
        (@skips_objectBody "/Object>".toList item (by decide) (by decide) (by decide) (by decide))
        [] (skips_nil _) (objectElements objects) rounds
      rw [(tagged_objectBody item).trim_eq, ih rounds (by simpa using enough)] at step
      exact step

theorem objects_length :
    objects.length ≤ (objectElements objects).length := by
  induction objects with
  | nil => simp
  | cons item objects ih =>
    have long := element_length "Object" (objectBody item)
    simp only [objectElements, List.flatMap_cons, List.length_append, List.length_cons] at ih ⊢
    omega

def scannedItem (item : DeleteObjectsRequestItem) : DeleteObjectsRequestItem where
  key := trim (xmlEscape item.key)
  versionId := (item.versionId.map fun version_id => trim (trim (xmlEscape version_id))).filter
    fun value => value != ""

theorem deleteObjectsRequestItem_scanned :
    deleteObjectsRequestItem (String.ofList (objectBody item)) = .ok (scannedItem item) := by
  have key_skips : Skips ('<' :: "VersionId".toList) (element "Key" (xmlEscape item.key).toList) :=
    skips_element (by decide) (by decide) (by decide)
      (skips_without _ (xmlEscape_plain item.key).1)
  have key_found : xmlTagContents (String.ofList (objectBody item)) "Key" =
      some (trim (xmlEscape item.key)) := by
    have found := @xmlTagContents_element "Key" (xmlEscape item.key).toList []
      (String.ofList (objectBody item)) _ String.toList_ofList (by decide)
      (skips_without _ (xmlEscape_plain item.key).1) (skips_nil _)
    rw [String.ofList_toList] at found
    exact found
  have version_found : xmlTagContents (String.ofList (objectBody item)) "VersionId" =
      item.versionId.map fun version_id => trim (xmlEscape version_id) := by
    unfold objectBody
    cases item.versionId with
    | none =>
      apply xmlTagContents_absent
      simpa using key_skips
    | some version_id =>
      have found := @xmlTagContents_element "VersionId" (xmlEscape version_id).toList
        (element "Key" (xmlEscape item.key).toList)
        (String.ofList (element "Key" (xmlEscape item.key).toList ++
          element "VersionId" (xmlEscape version_id).toList)) [] (by simp) (by decide)
        (skips_without _ (xmlEscape_plain version_id).1) key_skips
      rw [String.ofList_toList] at found
      exact found
  unfold deleteObjectsRequestItem
  rw [key_found, version_found, Option.map_map]
  rfl

theorem mapM_scanned :
    (objects.map fun item => String.ofList (objectBody item)).mapM deleteObjectsRequestItem =
      .ok (objects.map scannedItem) := by
  induction objects with
  | nil => rfl
  | cons item objects ih =>
    rw [List.map_cons, List.mapM_cons, deleteObjectsRequestItem_scanned, ih]
    rfl

theorem fromUtf8_textBytes (text : String) : fromUtf8 (textBytes text) = some text := by
  have decoded : (textBytes text).toByteArray.utf8Decode? = some text.toList.toArray :=
    List.utf8Decode?_utf8Encode
  simp [fromUtf8, decoded]

theorem document_not_blank :
    (textBytes (deleteDocument objects)).all isAsciiWhitespaceByte = false := by
  have first : 0x3c ∈ textBytes (deleteDocument objects) := by
    unfold textBytes
    rw [List.mem_flatMap]
    exact ⟨'<', by simp [deleteDocument, element], by decide⟩
  rw [List.all_eq_false]
  exact ⟨0x3c, first, by decide⟩

theorem parse_document {objects : List DeleteObjectsRequestItem} (some_object : objects ≠ [])
    (few : objects.length ≤ 1000) :
    parseDeleteObjectsRequest (textBytes (deleteDocument objects)) =
      .ok ⟨objects.map scannedItem, false⟩ := by
  obtain ⟨item, rest, rfl⟩ := List.exists_cons_of_ne_nil some_object
  have blocks : xmlTagBlocks (String.ofList (objectElements (item :: rest))) "Object" =
      (item :: rest).map fun item => String.ofList (objectBody item) := by
    unfold xmlTagBlocks
    rw [String.toList_ofList (l := objectElements (item :: rest))]
    exact xmlTagBlocksFrom_objects (item :: rest) _ (objects_length (item :: rest))
  have loud : xmlTagContents (String.ofList (objectElements (item :: rest))) "Quiet" = none := by
    apply xmlTagContents_absent
    rw [String.toList_ofList (l := objectElements (item :: rest))]
    exact @skips_objectElements "Quiet".toList _ (by decide) (by decide) fun item =>
      skips_objectBody item (by decide) (by decide) (by decide) (by decide)
  unfold parseDeleteObjectsRequest
  rw [document_not_blank, fromUtf8_textBytes]
  simp only [Bool.false_eq_true, if_false, xmlTagContents_delete]
  unfold deleteObjectsRequestOf
  simp only [blocks, loud, mapM_scanned]
  rw [List.length_map, if_neg (by simp), if_neg (by omega)]
  rfl

end Request

theorem scannedItem_eq_iff {item : DeleteObjectsRequestItem}
    (named : ∀ version_id, item.versionId = some version_id → isBlank version_id = false) :
    scannedItem item = item ↔
      Verbatim item.key ∧ ∀ version_id, item.versionId = some version_id → Verbatim version_id := by
  obtain ⟨key, version⟩ := item
  simp only [scannedItem, DeleteObjectsRequestItem.mk.injEq, trim_escape_iff]
  apply and_congr Iff.rfl
  cases version with
  | none => simp
  | some version_id =>
    have filled : version_id ≠ "" := by
      intro empty
      have visible := named version_id rfl
      rw [empty] at visible
      cases visible
    rw [Option.map_some]
    constructor
    · intro kept other same
      rw [Option.filter_eq_some_iff] at kept
      cases same
      exact (trim_trim_escape_iff version_id).mp (Option.some.inj kept.1)
    · intro verbatim
      rw [(trim_trim_escape_iff version_id).mpr (verbatim version_id rfl)]
      simp [Option.filter, filled]

/-- The bulk delete names the keys the client meant exactly if none of them, and no version
    id, has a character that is escaped or white space at an end. -/
theorem bulk_delete_round_trip_iff (objects : List DeleteObjectsRequestItem)
    (some_object : objects ≠ []) (few : objects.length ≤ 1000)
    (named : ∀ item ∈ objects, ∀ version_id, item.versionId = some version_id →
      isBlank version_id = false) :
    parseDeleteObjectsRequest (textBytes (deleteDocument objects)) = .ok ⟨objects, false⟩ ↔
      ∀ item ∈ objects, Verbatim item.key ∧
        ∀ version_id, item.versionId = some version_id → Verbatim version_id := by
  rw [parse_document some_object few]
  constructor
  · intro same item listed
    simp only [Except.ok.injEq, DeleteObjectsRequest.mk.injEq, and_true] at same
    have unchanged : scannedItem item = item := by
      have pointwise : objects.map scannedItem = objects.map id := by rw [same, List.map_id]
      exact List.map_inj_left.mp pointwise item listed
    exact (scannedItem_eq_iff (named item listed)).mp unchanged
  · intro verbatim
    have same : objects.map scannedItem = objects := by
      rw [List.map_congr_left fun item listed =>
        (scannedItem_eq_iff (named item listed)).mpr (verbatim item listed)]
      exact List.map_id' objects
    rw [same]

theorem plain_key_round_trip :
    parseDeleteObjectsRequest (textBytes (deleteDocument [⟨"a/b c", some "v1"⟩])) =
      .ok ⟨[⟨"a/b c", some "v1"⟩], false⟩ := by
  apply (bulk_delete_round_trip_iff [⟨"a/b c", some "v1"⟩] (by simp) (by simp) _).mpr
  · simp only [List.mem_singleton, forall_eq, Option.some.injEq, forall_eq']
    decide
  · simp only [List.mem_singleton, forall_eq, Option.some.injEq, forall_eq']
    decide

/-- A listed key with an ampersand is deleted under its escaped name, and a key with white
    space at an end under the name without it. -/
theorem escaped_key_names_other_object :
    parseDeleteObjectsRequest (textBytes (deleteDocument [⟨"a&b", none⟩, ⟨"a ", none⟩])) =
      .ok ⟨[⟨"a&amp;b", none⟩, ⟨"a", none⟩], false⟩ := by
  rw [parse_document (by simp) (by simp)]
  decide

end BerryKeepS3BulkDelete
