import Mathlib.Algebra.GroupWithZero.Nat
import Mathlib.Algebra.Order.BigOperators.Group.List
import Mathlib.Data.String.Basic

/-!
The few string operations of the standard library that text keyed programs rest
on: the first and last split at a separator, blank text, slices by byte length
and hexadecimal digests. Each one works on the characters of a string, so that
it evaluates on literals.
-/
namespace TextOperations

def splitFirst (sep : List Char) : List Char → Option (List Char × List Char)
  | [] => if sep = [] then some ([], []) else none
  | c :: cs =>
    if sep.isPrefixOf (c :: cs) then some ([], (c :: cs).drop sep.length)
    else (splitFirst sep cs).map fun parts => (c :: parts.1, parts.2)

def splitOnce (text sep : String) : Option (String × String) :=
  (splitFirst sep.toList text.toList).map fun parts =>
    (String.ofList parts.1, String.ofList parts.2)

def rsplitOnce (text : String) (sep : Char) : Option (String × String) :=
  (splitFirst [sep] text.toList.reverse).map fun parts =>
    (String.ofList parts.2.reverse, String.ofList parts.1.reverse)

theorem splitFirst_append (sep : List Char) :
    ∀ {text before after : List Char}, splitFirst sep text = some (before, after) →
      before ++ sep ++ after = text := by
  intro text
  induction text with
  | nil =>
    intro before after found
    simp only [splitFirst] at found
    split at found
    · cases found; simp_all
    · cases found
  | cons c cs ih =>
    intro before after found
    simp only [splitFirst] at found
    split at found
    · next starts =>
      obtain ⟨rest, whole⟩ := List.isPrefixOf_iff_prefix.mp starts
      cases found
      rw [← whole]
      simp
    · obtain ⟨parts, tail, same⟩ := Option.map_eq_some_iff.mp found
      cases same
      simpa using ih tail

variable {sep : Char}

variable {text key rest : String}

theorem rsplitOnce_parts (found : rsplitOnce text sep = some (key, rest)) :
    splitFirst [sep] text.toList.reverse = some (rest.toList.reverse, key.toList.reverse) := by
  unfold rsplitOnce at found
  obtain ⟨halves, parts, same⟩ := Option.map_eq_some_iff.mp found
  simp only [Prod.mk.injEq] at same
  obtain ⟨rfl, rfl⟩ := same
  simp [parts]

theorem rsplitOnce_append (found : rsplitOnce text sep = some (key, rest)) :
    key ++ String.ofList [sep] ++ rest = text := by
  have reversed := splitFirst_append [sep] (rsplitOnce_parts found)
  have whole := congrArg List.reverse reversed
  simp only [List.reverse_append, List.reverse_reverse, List.reverse_cons, List.reverse_nil,
    List.nil_append] at whole
  apply String.toList_injective
  rw [String.toList_append, String.toList_append, String.toList_ofList, List.append_assoc, whole]

theorem splitFirst_eq_none {sep text : List Char} :
    splitFirst sep text = none ↔ ¬sep <:+: text := by
  constructor
  · intro absent
    induction text with
    | nil =>
      intro occurs
      rw [List.infix_nil] at occurs
      simp [splitFirst, occurs] at absent
    | cons c cs ih =>
      simp only [splitFirst] at absent
      split at absent
      · cases absent
      · next starts =>
        intro occurs
        rcases List.infix_cons_iff.mp occurs with first | later
        · exact starts (List.isPrefixOf_iff_prefix.mpr first)
        · exact ih (by simpa using absent) later
  · intro absent
    cases found : splitFirst sep text with
    | none => rfl
    | some parts => exact absurd ⟨parts.1, parts.2, splitFirst_append sep found⟩ absent

theorem splitFirst_append_right {sep : List Char} :
    ∀ {text before after : List Char} (more : List Char),
      splitFirst sep text = some (before, after) →
      splitFirst sep (text ++ more) = some (before, after ++ more) := by
  intro text
  induction text with
  | nil =>
    intro before after more found
    simp only [splitFirst] at found
    split at found
    · next empty =>
      cases found
      subst empty
      cases more <;> simp [splitFirst]
    · cases found
  | cons c cs ih =>
    intro before after more found
    have whole := splitFirst_append sep found
    simp only [splitFirst] at found
    split at found
    · next starts =>
      cases found
      obtain ⟨rest, split⟩ := List.isPrefixOf_iff_prefix.mp starts
      have longer : sep.isPrefixOf (c :: cs ++ more) = true :=
        List.isPrefixOf_iff_prefix.mpr ⟨rest ++ more, by rw [← split, List.append_assoc]⟩
      rw [List.cons_append] at longer ⊢
      simp only [splitFirst, longer, if_true]
      rw [← List.cons_append, ← split]
      simp
    · next starts =>
      obtain ⟨parts, tail, same⟩ := Option.map_eq_some_iff.mp found
      cases same
      -- The separator fits into the tail, so it cannot begin here and end in `more`.
      have fits : sep.length ≤ cs.length := by
        have inside := congrArg List.length (splitFirst_append sep tail)
        simp only [List.length_append] at inside
        omega
      have still : sep.isPrefixOf (c :: cs ++ more) = false := by
        rw [Bool.eq_false_iff]
        intro longer
        apply starts
        rw [List.isPrefixOf_iff_prefix] at longer ⊢
        exact List.prefix_of_prefix_length_le longer (List.prefix_append _ _) (by simp; omega)
      rw [List.cons_append] at still ⊢
      simp [splitFirst, still, ih more tail]

theorem splitFirst_swap {sep before after : List Char}
    (found : splitFirst sep (before ++ sep ++ after) = some (before, after)) (other : List Char) :
    splitFirst sep (before ++ sep ++ other) = some (before, other) := by
  have occurs : sep <:+: before ++ sep := (List.suffix_append _ _).isInfix
  cases short : splitFirst sep (before ++ sep) with
  | none => exact absurd occurs (splitFirst_eq_none.mp short)
  | some parts =>
    obtain ⟨first, rest⟩ := parts
    have longer := splitFirst_append_right after short
    rw [found] at longer
    simp only [Option.some.injEq, Prod.mk.injEq] at longer
    have nothing : rest = [] := by
      have lengths := congrArg List.length longer.2
      simp only [List.length_append] at lengths
      exact List.length_eq_zero_iff.mp (by omega)
    have here := splitFirst_append_right other short
    rw [here, ← longer.1, nothing, List.nil_append]

variable {c : Char}

/-- A separator whose first character does not come back in it cannot reach over that
    character into a text without the separator. -/
theorem splitFirst_append_sep {rest text : List Char} (once : c ∉ rest)
    (absent : splitFirst (c :: rest) text = none) (more : List Char) :
    splitFirst (c :: rest) (text ++ c :: more) =
      (splitFirst (c :: rest) (c :: more)).map fun parts => (text ++ parts.1, parts.2) := by
  induction text with
  | nil => simp
  | cons d ds ih =>
    have tail : splitFirst (c :: rest) ds = none := by
      simp only [splitFirst] at absent
      split at absent
      · cases absent
      · simpa using absent
    have no_start : ¬ (c :: rest).isPrefixOf (d :: (ds ++ c :: more)) = true := by
      intro starts
      rw [List.isPrefixOf_iff_prefix, ← List.cons_append] at starts
      rcases Nat.lt_or_ge (d :: ds).length (c :: rest).length with longer | fits
      · have reached : d :: ds ++ [c] <+: c :: rest :=
          List.prefix_of_prefix_length_le (by simp) starts (by simp at longer ⊢; omega)
        obtain ⟨after, split⟩ := reached
        simp only [List.cons_append, List.append_assoc, List.cons.injEq] at split
        exact once (by rw [← split.2]; simp)
      · have inside : c :: rest <+: d :: ds :=
          List.prefix_of_prefix_length_le starts (List.prefix_append _ _) fits
        exact splitFirst_eq_none.mp absent inside.isInfix
    rw [List.cons_append, splitFirst, if_neg no_start, ih tail, Option.map_map]
    rfl

theorem rsplitOnce_mk (key : String) {rest : String} (clean : sep ∉ rest.toList) :
    rsplitOnce (key ++ String.ofList [sep] ++ rest) sep = some (key, rest) := by
  have reversed : splitFirst [sep] (rest.toList.reverse ++ sep :: key.toList.reverse) =
      some (rest.toList.reverse, key.toList.reverse) := by
    have absent : splitFirst [sep] rest.toList.reverse = none := by
      rw [splitFirst_eq_none]
      intro occurs
      exact clean (List.mem_reverse.mp (occurs.subset List.mem_cons_self))
    rw [splitFirst_append_sep (by simp) absent]
    simp [splitFirst]
  simp [rsplitOnce, reversed]

theorem splitFirst_char_clean :
    ∀ {text before after : List Char}, splitFirst [sep] text = some (before, after) →
      sep ∉ before := by
  intro text
  induction text with
  | nil => intro before after found; simp [splitFirst] at found
  | cons c cs ih =>
    intro before after found
    simp only [splitFirst] at found
    split at found
    · cases found
      simp
    · next starts =>
      obtain ⟨parts, tail, same⟩ := Option.map_eq_some_iff.mp found
      cases same
      have here : sep ≠ c := by simpa using starts
      simp [here, ih tail]

theorem rsplitOnce_clean (found : rsplitOnce text sep = some (key, rest)) : sep ∉ rest.toList := by
  simpa using splitFirst_char_clean (rsplitOnce_parts found)

def isWhitespace (c : Char) : Bool :=
  let n := c.toNat
  (9 ≤ n && n ≤ 13) || n == 32 || n == 0x85 || n == 0xA0 || n == 0x1680 ||
    (0x2000 ≤ n && n ≤ 0x200A) || n == 0x2028 || n == 0x2029 || n == 0x202F ||
    n == 0x205F || n == 0x3000

def isBlank (text : String) : Bool := text.toList.all isWhitespace

def trim (text : String) : String :=
  String.ofList ((text.toList.dropWhile isWhitespace).reverse.dropWhile isWhitespace).reverse

def trimMatches (text : String) (c : Char) : String :=
  String.ofList ((text.toList.dropWhile (· == c)).reverse.dropWhile (· == c)).reverse

def replaceChar (text : String) (old new : Char) : String :=
  String.ofList (text.toList.map fun c => if c = old then new else c)

theorem trim_sublist (text : String) : (trim text).toList.Sublist text.toList := by
  have inner : ((text.toList.dropWhile isWhitespace).reverse.dropWhile isWhitespace).Sublist
      text.toList.reverse :=
    (List.dropWhile_sublist _).trans (List.dropWhile_sublist _).reverse
  unfold trim
  rw [String.toList_ofList]
  simpa using inner.reverse

theorem trim_subset {text : String} (member : c ∈ (trim text).toList) : c ∈ text.toList :=
  (trim_sublist text).subset member

theorem count_trim (visible : isWhitespace c = false) (text : String) :
    (trim text).toList.count c = text.toList.count c := by
  have kept : ∀ chars : List Char, (chars.dropWhile isWhitespace).count c = chars.count c := by
    intro chars
    induction chars with
    | nil => rfl
    | cons d chars ih =>
      by_cases blank : isWhitespace d = true
      · have other : ¬d = c := by
          intro same
          rw [same, visible] at blank
          cases blank
        rw [List.dropWhile_cons_of_pos blank, ih, List.count_cons_of_ne other]
      · rw [List.dropWhile_cons_of_neg blank]
  unfold trim
  rw [String.toList_ofList, List.count_reverse, kept, List.count_reverse, kept]

theorem trim_keeps {text : String} (member : c ∈ text.toList)
    (visible : isWhitespace c = false) : c ∈ (trim text).toList := by
  rw [← List.count_pos_iff, count_trim visible]
  exact List.count_pos_iff.mpr member

def toAsciiUppercase (text : String) : String :=
  String.ofList (text.toList.map fun c =>
    if 97 ≤ c.toNat && c.toNat ≤ 122 then Char.ofNat (c.toNat - 32) else c)

def toAsciiLowercase (text : String) : String :=
  String.ofList (text.toList.map fun c =>
    if 65 ≤ c.toNat && c.toNat ≤ 90 then Char.ofNat (c.toNat + 32) else c)

def isAsciiDigit (c : Char) : Bool := 48 ≤ c.toNat && c.toNat ≤ 57

def parseU64 (text : String) : Option Nat :=
  let digits := match text.toList with
    | '+' :: rest => rest
    | chars => chars
  if digits.isEmpty || !digits.all isAsciiDigit then none
  else
    let n := digits.foldl (fun n c => n * 10 + (c.toNat - 48)) 0
    if n < 2 ^ 64 then some n else none

/-- The characters that make up exactly the first `n` bytes, if the cut falls
    between two characters. -/
def takeBytes : List Char → Nat → Option (List Char)
  | _, 0 => some []
  | [], _ + 1 => none
  | c :: cs, n + 1 =>
    if c.utf8Size ≤ n + 1 then (takeBytes cs (n + 1 - c.utf8Size)).map (c :: ·) else none

/-- The slice `&text[..n]`; a slice past the end or inside a character panics. -/
def bytePrefix (text : String) (n : Nat) : Option String :=
  (takeBytes text.toList n).map String.ofList

def hexDigit (n : Nat) : Char := Char.ofNat (if n < 10 then 48 + n else 87 + n)

def isHexDigit (c : Char) : Bool :=
  let n := c.toNat
  (48 ≤ n && n ≤ 57) || (65 ≤ n && n ≤ 70) || (97 ≤ n && n ≤ 102)

/-- Exactly `digits` hexadecimal digits; as they are ASCII this counts bytes. -/
def isHexOfLength (digits : Nat) (text : String) : Bool :=
  text.toList.length == digits && text.toList.all isHexDigit

def stripSuffix (text suffix : String) : Option String :=
  if suffix.toList.isSuffixOf text.toList then
    some (String.ofList (text.toList.take (text.toList.length - suffix.toList.length)))
  else none

def stripPrefix (text start : String) : Option String :=
  if start.toList.isPrefixOf text.toList then
    some (String.ofList (text.toList.drop start.toList.length))
  else none

theorem stripPrefix_iff {start : String} (text rest : String) :
    stripPrefix text start = some rest ↔ text = start ++ rest := by
  unfold stripPrefix
  constructor
  · intro found
    split at found
    · next starts =>
      obtain ⟨tail, whole⟩ := List.isPrefixOf_iff_prefix.mp starts
      cases found
      apply String.toList_injective
      rw [← whole]
      simp
    · cases found
  · intro whole
    subst whole
    rw [if_pos (by simp [List.isPrefixOf_iff_prefix])]
    simp

def byteSlice (text : String) (start stop : Nat) : Option String := do
  let upto ← takeBytes text.toList stop
  let skipped ← takeBytes text.toList start
  return String.ofList (upto.drop skipped.length)

def containsText (text piece : String) : Bool := (splitFirst piece.toList text.toList).isSome

section Pieces

def splitOn (text : String) (sep : Char) : List String :=
  (text.toList.splitOn sep).map String.ofList

def joinWith (sep : Char) (parts : List String) : String :=
  String.ofList ([sep].intercalate (parts.map String.toList))

def splitWhitespace (text : String) : List String :=
  ((text.toList.splitOnP isWhitespace).filter fun piece => !piece.isEmpty).map String.ofList

theorem splitOnP_pieces {p : Char → Bool} {text : List Char} :
    ∀ piece ∈ text.splitOnP p, ∀ c ∈ piece, c ∈ text ∧ p c = false := by
  induction text with
  | nil => simp [List.splitOnP_nil]
  | cons c cs ih =>
    intro piece listed d member
    rw [List.splitOnP_cons_eq_if_modifyHead] at listed
    split at listed
    · rcases List.mem_cons.mp listed with rfl | later
      · cases member
      · exact ⟨List.mem_cons_of_mem _ (ih piece later d member).1, (ih piece later d member).2⟩
    · next keep =>
      cases pieces : cs.splitOnP p with
      | nil => exact absurd pieces (List.splitOnP_ne_nil p cs)
      | cons first rest =>
        rw [pieces] at ih
        rw [pieces, List.modifyHead_cons] at listed
        rcases List.mem_cons.mp listed with rfl | later
        · rcases List.mem_cons.mp member with rfl | inside
          · exact ⟨List.mem_cons_self, by simpa using keep⟩
          · have known := ih first List.mem_cons_self d inside
            exact ⟨List.mem_cons_of_mem _ known.1, known.2⟩
        · have known := ih piece (List.mem_cons_of_mem _ later) d member
          exact ⟨List.mem_cons_of_mem _ known.1, known.2⟩

theorem splitOn_pieces {text piece : String} {sep c : Char} (listed : piece ∈ splitOn text sep)
    (member : c ∈ piece.toList) : c ∈ text.toList ∧ c ≠ sep := by
  obtain ⟨chars, split, rfl⟩ := List.mem_map.mp listed
  rw [List.splitOn_eq_splitOnP] at split
  rw [String.toList_ofList] at member
  have known := splitOnP_pieces chars split c member
  exact ⟨known.1, by simpa using known.2⟩

theorem splitWhitespace_pieces {text piece : String} {c : Char}
    (listed : piece ∈ splitWhitespace text) (member : c ∈ piece.toList) : c ∈ text.toList := by
  obtain ⟨chars, split, rfl⟩ := List.mem_map.mp listed
  rw [String.toList_ofList] at member
  exact (splitOnP_pieces chars (List.mem_filter.mp split).1 c member).1

variable {parts : List String}

theorem mem_joinWith {sep c : Char} (member : c ∈ (joinWith sep parts).toList) :
    c = sep ∨ ∃ part ∈ parts, c ∈ part.toList := by
  unfold joinWith at member
  rw [String.toList_ofList] at member
  induction parts with
  | nil => simp at member
  | cons part parts ih =>
    cases parts with
    | nil => exact .inr ⟨part, List.mem_cons_self, by simpa using member⟩
    | cons next parts =>
      simp only [List.map_cons, List.intercalate_cons_cons, List.mem_append,
        List.mem_singleton] at member ih
      rcases member with (inside | same) | later
      · exact .inr ⟨part, List.mem_cons_self, inside⟩
      · exact .inl same
      · rcases ih later with same | ⟨other, listed, inside⟩
        · exact .inl same
        · exact .inr ⟨other, List.mem_cons_of_mem _ listed, inside⟩

variable {sep : Char}

theorem joinWith_injective {parts others : List String}
    (clean : ∀ part ∈ parts, sep ∉ part.toList ∧ part ≠ "")
    (clean' : ∀ part ∈ others, sep ∉ part.toList ∧ part ≠ "")
    (same : joinWith sep parts = joinWith sep others) : parts = others := by
  have back : ∀ {list : List String}, (∀ part ∈ list, sep ∉ part.toList ∧ part ≠ "") →
      ((joinWith sep list).toList.splitOn sep).filter (fun piece => !piece.isEmpty) =
        list.map String.toList := by
    intro list clean
    have nonempty : (list.map String.toList).filter (fun piece => !piece.isEmpty) =
        list.map String.toList := by
      rw [List.filter_eq_self]
      intro chars listed
      obtain ⟨part, member, rfl⟩ := List.mem_map.mp listed
      have filled := (clean part member).2
      simpa using filled
    cases list with
    | nil => simp [joinWith, List.splitOn_nil]
    | cons part rest =>
      have separate : ∀ chars ∈ (part :: rest).map String.toList, sep ∉ chars := by
        intro chars listed
        obtain ⟨piece, member, rfl⟩ := List.mem_map.mp listed
        exact (clean piece member).1
      rw [joinWith, String.toList_ofList, List.splitOn_intercalate sep separate (by simp), nonempty]
  have texts : parts.map String.toList = others.map String.toList := by
    rw [← back clean, same, back clean']
  have apart : Function.Injective String.toList := fun _ _ => String.toList_injective
  exact List.map_injective_iff.mpr apart texts

theorem splitOn_joinWith (filled : parts ≠ [])
    (clean : ∀ part ∈ parts, sep ∉ part.toList) : splitOn (joinWith sep parts) sep = parts := by
  have separate : ∀ chars ∈ parts.map String.toList, sep ∉ chars := by
    intro chars listed
    obtain ⟨part, member, rfl⟩ := List.mem_map.mp listed
    exact clean part member
  rw [splitOn, joinWith, String.toList_ofList, List.splitOn_intercalate sep separate (by simpa)]
  simp

theorem joinWith_length (sep : Char) (parts : List String) :
    (joinWith sep parts).toList.length =
      (parts.map fun part => part.toList.length + 1).sum - 1 := by
  unfold joinWith
  rw [String.toList_ofList]
  induction parts with
  | nil => rfl
  | cons part parts ih =>
    cases parts with
    | nil => simp
    | cons next parts =>
      simp only [List.map_cons, List.intercalate_cons_cons, List.length_append,
        List.length_singleton, List.sum_cons] at ih ⊢
      omega

theorem joinWith_splitOn_length {text : String} (pieces : parts.Sublist (splitOn text sep)) :
    (joinWith sep parts).toList.length ≤ text.toList.length := by
  have whole : (joinWith sep (splitOn text sep)).toList = text.toList := by
    rw [joinWith, splitOn, String.toList_ofList, List.map_map]
    simp [Function.comp_def, List.intercalate_splitOn]
  have fewer := (pieces.map fun part => part.toList.length + 1).sum_le_sum fun _ _ => Nat.zero_le _
  rw [← whole, joinWith_length, joinWith_length]
  omega

theorem char_cancel {left other : String} {rest more : String}
    (first : sep ∉ left.toList) (second : sep ∉ other.toList)
    (same : left ++ String.ofList [sep] ++ rest = other ++ String.ofList [sep] ++ more) :
    left = other ∧ rest = more := by
  have split : ∀ {text : String} (tail : String), sep ∉ text.toList →
      splitFirst [sep] (text ++ String.ofList [sep] ++ tail).toList =
        some (text.toList, tail.toList) := by
    intro text tail clean
    have absent : splitFirst [sep] text.toList = none := by
      rw [splitFirst_eq_none]
      intro occurs
      exact clean (occurs.subset List.mem_cons_self)
    have chars : (text ++ String.ofList [sep] ++ tail).toList =
        text.toList ++ sep :: tail.toList := by simp
    rw [chars, splitFirst_append_sep (by simp) absent]
    simp [splitFirst]
  have here := split rest first
  rw [same, split more second] at here
  simp only [Option.some.injEq, Prod.mk.injEq] at here
  exact ⟨String.toList_injective here.1.symm, String.toList_injective here.2.symm⟩

theorem line_cancel {line other rest more : String} (first : '\n' ∉ line.toList)
    (second : '\n' ∉ other.toList) (same : line ++ "\n" ++ rest = other ++ "\n" ++ more) :
    line = other ∧ rest = more := char_cancel first second same

end Pieces

section Scanning

/-- No occurrence of the separator begins in `text`, whatever follows it. -/
def Skips (sep text : List Char) : Prop :=
  ∀ rest, splitFirst sep (text ++ rest) =
    (splitFirst sep rest).map fun parts => (text ++ parts.1, parts.2)

theorem skips_nil (sep : List Char) : Skips sep [] := by
  intro rest
  simp

theorem Skips.append {sep text more : List Char} (first : Skips sep text)
    (second : Skips sep more) : Skips sep (text ++ more) := by
  intro rest
  rw [List.append_assoc, first, second, Option.map_map]
  simp [Function.comp_def]

theorem skips_flatMap {α : Type} {sep : List Char} {render : α → List Char} {items : List α}
    (each : ∀ item ∈ items, Skips sep (render item)) : Skips sep (items.flatMap render) := by
  induction items with
  | nil => exact skips_nil sep
  | cons item items ih =>
    rw [List.flatMap_cons]
    exact (each item List.mem_cons_self).append
      (ih fun other listed => each other (List.mem_cons_of_mem _ listed))

theorem skips_without {c : Char} (marker : List Char) {text : List Char} (plain : c ∉ text) :
    Skips (c :: marker) text := by
  induction text with
  | nil => exact skips_nil _
  | cons d text ih =>
    intro rest
    have here : c ≠ d := fun same => plain (same ▸ List.mem_cons_self)
    have tail := ih (fun later => plain (List.mem_cons_of_mem _ later)) rest
    rw [List.cons_append, splitFirst, if_neg (by simp [here]), tail, Option.map_map]
    rfl

theorem skips_marker {c : Char} {marker other : List Char} (once : c ∉ other)
    (shorter : ¬marker <+: other) (longer : ¬other <+: marker) :
    Skips (c :: marker) (c :: other) := by
  intro rest
  have no_start : ¬(c :: marker).isPrefixOf (c :: (other ++ rest)) = true := by
    rw [List.isPrefixOf_iff_prefix, List.cons_prefix_cons]
    rintro ⟨_, starts⟩
    rcases Nat.le_total marker.length other.length with fits | reaches
    · exact shorter (List.prefix_of_prefix_length_le starts (List.prefix_append _ _) fits)
    · exact longer (List.prefix_of_prefix_length_le (List.prefix_append _ _) starts reaches)
  rw [List.cons_append, splitFirst, if_neg no_start, skips_without marker once, Option.map_map]
  rfl

theorem splitFirst_self {sep : List Char} (filled : sep ≠ []) (rest : List Char) :
    splitFirst sep (sep ++ rest) = some ([], rest) := by
  cases sep with
  | nil => exact absurd rfl filled
  | cons c sep =>
    have starts : (c :: sep).isPrefixOf (c :: (sep ++ rest)) = true := by
      rw [List.isPrefixOf_iff_prefix]
      exact ⟨rest, rfl⟩
    rw [List.cons_append, splitFirst, if_pos starts]
    simp

theorem Skips.found {sep text : List Char} (skips : Skips sep text) (filled : sep ≠ [])
    (rest : List Char) : splitFirst sep (text ++ (sep ++ rest)) = some (text, rest) := by
  rw [skips, splitFirst_self filled]
  simp

theorem Skips.absent {sep text : List Char} (skips : Skips sep text) (filled : sep ≠ []) :
    splitFirst sep text = none := by
  have whole := skips []
  rw [List.append_nil] at whole
  rw [whole]
  simp [splitFirst, filled]

end Scanning

section Trimming

theorem trim_of_trim_trim {text : String} (same : trim (trim text) = text) : trim text = text := by
  apply String.toList_injective
  apply (trim_sublist text).antisymm
  have inner := trim_sublist (trim text)
  rw [same] at inner
  exact inner

theorem trim_visible {first last : Char} (mid : List Char) (left : isWhitespace first = false)
    (right : isWhitespace last = false) :
    trim (String.ofList (first :: (mid ++ [last]))) = String.ofList (first :: (mid ++ [last])) := by
  unfold trim
  rw [String.toList_ofList, List.dropWhile_cons_of_neg (by simp [left]), ← List.cons_append,
    List.reverse_append, List.reverse_singleton, List.singleton_append,
    List.dropWhile_cons_of_neg (by simp [right]), List.reverse_cons, List.reverse_reverse]

end Trimming

end TextOperations
