import Mathlib.Data.List.DropRight
import BerryKeep.FiniteTable
import BerryKeep.StatefulProgram

/-!
A file system without links. A tree maps locations to files and directories;
everything but the top lies in a directory. A path may have "." and ".." in it
and is walked the way a kernel walks it: every name on the way has to be a
directory at that time. Programs that make, remove and replace entries are
described by what they do to the bytes of the files.
-/
namespace FileTree
open FiniteTable StatefulProgram

abbrev Location := List String

abbrev Path := List String

inductive Node where
  | file (bytes : List UInt8) (modified : Nat)
  | directory (size modified : Nat)
  deriving DecidableEq

def Node.isDirectory : Node → Bool
  | .file _ _ => false
  | .directory _ _ => true

inductive IoError where
  | notFound
  | notADirectory
  | alreadyExists
  | isADirectory
  | invalidName
  deriving DecidableEq

structure Tree where
  nodes : Table Location Node
  top : (nodes.get []).any Node.isDirectory = true
  closed : ∀ loc name, (nodes.get (loc ++ [name])).isSome = true →
    (nodes.get loc).any Node.isDirectory = true

def Tree.bare : Tree where
  nodes := Table.empty.put [] (.directory 0 0)
  top := rfl
  closed := by
    intro loc name there
    rw [get_put_other _ _ (by simp)] at there
    cases there

def Tree.directory (tree : Tree) (loc : Location) : Bool :=
  (tree.nodes.get loc).any Node.isDirectory

def Tree.fileBytes (tree : Tree) (loc : Location) : Option (List UInt8) :=
  match tree.nodes.get loc with
  | some (.file bytes _) => some bytes
  | _ => none

/-- An entry may be put where it leaves every other entry in a directory. -/
def Tree.admits (tree : Tree) (loc : Location) : Node → Bool
  | .directory _ _ => loc = [] || tree.directory loc.dropLast
  | .file _ _ => loc ≠ [] && tree.directory loc.dropLast && !tree.directory loc

section Shape
variable {tree : Tree} {loc other : Location} {node : Node} {name : String}

theorem put_top (admitted : tree.admits loc node = true) :
    ((tree.nodes.put loc node).get []).any Node.isDirectory = true := by
  rw [get_put]
  split
  · next here =>
    cases node with
    | file bytes modified => simp [Tree.admits, ← here] at admitted
    | directory size modified => rfl
  · exact tree.top

theorem put_closed (admitted : tree.admits loc node = true) (other : Location) (name : String)
    (there : ((tree.nodes.put loc node).get (other ++ [name])).isSome = true) :
    ((tree.nodes.put loc node).get other).any Node.isDirectory = true := by
  rw [get_put] at there ⊢
  have shorter : other ≠ other ++ [name] := fun same => by simpa using congrArg List.length same
  by_cases new : other ++ [name] = loc
  · -- the new entry lies in a directory that was there before
    have parent : tree.directory loc.dropLast = true := by
      cases node with
      | file bytes modified => simp [Tree.admits] at admitted; exact admitted.1.2
      | directory size modified =>
        have below : loc ≠ [] := by rw [← new]; simp
        simpa [Tree.admits, below] using admitted
    rw [← new, List.dropLast_concat] at parent
    rw [if_neg (by rw [← new]; exact shorter)]
    exact parent
  · rw [if_neg new] at there
    have before := tree.closed other name there
    split
    · next here =>
      subst here
      cases node with
      | file bytes modified =>
        simp only [Tree.admits, Bool.and_eq_true, Bool.not_eq_true'] at admitted
        exact absurd before (by simpa [Tree.directory] using admitted.2)
      | directory size modified => rfl
    · exact before

end Shape

def Tree.put (tree : Tree) (loc : Location) (node : Node) : Tree :=
  if admitted : tree.admits loc node = true then
    ⟨tree.nodes.put loc node, put_top admitted, put_closed admitted⟩
  else tree

/-- The entries at and below a location, or only those below it. The top is never one. -/
def covers (loc : Location) (strict : Bool) (other : Location) : Bool :=
  other ≠ [] && loc.isPrefixOf other && !(strict && other = loc)

theorem covers_iff {loc other : Location} {strict : Bool} : covers loc strict other = true ↔
    other ≠ [] ∧ loc <+: other ∧ (strict = true → other ≠ loc) := by
  cases strict with
  | false => simp [covers, ← List.isPrefixOf_iff_prefix]
  | true => simp [covers, ← List.isPrefixOf_iff_prefix, and_assoc]

theorem covers_concat {loc other : Location} {strict : Bool} {name : String}
    (inside : covers loc strict other = true) : covers loc strict (other ++ [name]) = true := by
  rw [covers_iff] at inside ⊢
  obtain ⟨_, below, _⟩ := inside
  refine ⟨by simp, below.trans (List.prefix_append _ _), fun _ same => ?_⟩
  have shorter := below.length_le
  rw [← same, List.length_append, List.length_singleton] at shorter
  omega

def Tree.prune (tree : Tree) (loc : Location) (strict : Bool) : Tree where
  nodes := tree.nodes.retain fun other _ => !covers loc strict other
  top := by simpa [get_retain, covers, Option.any_filter] using tree.top
  closed := by
    intro other name there
    rw [get_retain] at there ⊢
    cases found : tree.nodes.get (other ++ [name]) with
    | none => simp [found] at there
    | some node =>
      have kept : covers loc strict (other ++ [name]) = false := by simpa [found] using there
      have stays : covers loc strict other = false := by
        by_contra inside
        rw [covers_concat (by simpa using inside)] at kept
        cases kept
      have before := tree.closed other name (by rw [found]; rfl)
      cases here : tree.nodes.get other with
      | none => simp [here] at before
      | some directory => simpa [here, stays] using before

def Tree.walk (tree : Tree) : Location → Path → Except IoError Location
  | loc, [] => .ok loc
  | loc, name :: path =>
    match tree.nodes.get loc with
    | none => .error .notFound
    | some (.file _ _) => .error .notADirectory
    | some (.directory _ _) =>
      if name = "." then tree.walk loc path
      else if name = ".." then tree.walk loc.dropLast path
      else tree.walk (loc ++ [name]) path

def Tree.stat (tree : Tree) (path : Path) : Except IoError (Location × Node) := do
  let loc ← tree.walk [] path
  match tree.nodes.get loc with
  | none => .error .notFound
  | some node => .ok (loc, node)

def Tree.directoryAt (tree : Tree) (path : Path) : Except IoError Location := do
  let (loc, node) ← tree.stat path
  if node.isDirectory then .ok loc else .error .notADirectory

def Tree.isDirectory (tree : Tree) (path : Path) : Bool := (tree.directoryAt path).toOption.isSome

def Tree.entry (tree : Tree) (path : Path) : Except IoError (Location × String) :=
  match path.getLast? with
  | none => .error .invalidName
  | some name => do
    let dir ← tree.directoryAt path.dropLast
    if name = "." ∨ name = ".." then .error .invalidName else .ok (dir, name)

structure Disk where
  tree : Tree
  stamps : Nat → Nat × Nat

abbrev DiskM := Program Disk IoError

def change (f : Tree → Nat × Nat → Tree) : DiskM Unit :=
  modify fun d => ⟨f d.tree (d.stamps 0), fun n => d.stamps (n + 1)⟩

def touch (loc : Location) : DiskM Unit :=
  change fun tree stamp =>
    if tree.directory loc then tree.put loc (.directory stamp.1 stamp.2) else tree

def makeDirectory (path : Path) : DiskM Unit := do
  let d ← get
  let entry ← lift (d.tree.entry path)
  let loc := entry.1 ++ [entry.2]
  refuseIf ((d.tree.nodes.get loc).isSome = true) .alreadyExists
  change fun tree stamp => tree.put loc (.directory stamp.1 stamp.2)
  touch entry.1

def dropDots (path : Path) : Path := path.rdropWhile fun name => name = "."

/-- The path without its last name, where "." is no name. -/
def parentPath (path : Path) : Option Path :=
  if dropDots path = [] then none else some (dropDots (dropDots path).dropLast)

/-- An error does not matter if the directory is there. -/
def settle (path : Path) (error : IoError) : DiskM Unit := do
  refuseIf ((← get).tree.isDirectory path = false) error

def createDirectories : Nat → Path → DiskM Unit
  | 0, _ => throw .notFound
  | fuel + 1, path =>
    tryCatch (makeDirectory path) fun error =>
      if error = .notFound then
        match parentPath path with
        | none => throw error
        | some parent => do
          createDirectories fuel parent
          tryCatch (makeDirectory path) (settle path)
      else settle path error

def createDirAll (path : Path) : DiskM Unit := createDirectories (path.length + 1) path

def removeFile (path : Path) : DiskM Unit := do
  let d ← get
  let entry ← lift (d.tree.entry path)
  let loc := entry.1 ++ [entry.2]
  match d.tree.nodes.get loc with
  | none => throw .notFound
  | some (.directory _ _) => throw .isADirectory
  | some (.file _ _) => do
    modify fun d => { d with tree := d.tree.prune loc false }
    touch entry.1

/-- Removes what is in the directory and then the directory, which fails if the path ends
    with "." or "..". -/
def removeDirAll (path : Path) : DiskM Unit := do
  let d ← get
  let loc ← lift (d.tree.directoryAt path)
  if path.getLast?.all fun name => name = "." ∨ name = ".." then do
    modify fun d => { d with tree := d.tree.prune loc true }
    touch loc
    throw .invalidName
  else do
    modify fun d => { d with tree := d.tree.prune loc false }
    touch loc.dropLast

def placeFile (path : Path) (bytes : List UInt8) : DiskM Unit := do
  let d ← get
  let entry ← lift (d.tree.entry path)
  let loc := entry.1 ++ [entry.2]
  refuseIf (d.tree.directory loc = true) .isADirectory
  change fun tree stamp => tree.put loc (.file bytes stamp.2)
  touch entry.1

section Walks
variable {tree : Tree} {loc dest : Location} {path : Path} {name : String}

def lexicalFrom (loc : Location) (path : Path) : Location :=
  path.foldl (fun loc name =>
    if name = "." then loc else if name = ".." then loc.dropLast else loc ++ [name]) loc

def lexical (path : Path) : Location := lexicalFrom [] path

theorem lexical_concat (path : Path) (name : String) : lexical (path ++ [name]) =
    if name = "." then lexical path else if name = ".." then (lexical path).dropLast
    else lexical path ++ [name] := by
  simp [lexical, lexicalFrom, List.foldl_append]

theorem directory_iff : tree.directory loc = true ↔
    ∃ size modified, tree.nodes.get loc = some (.directory size modified) := by
  unfold Tree.directory
  cases found : tree.nodes.get loc with
  | none => simp
  | some node =>
    cases node with
    | file bytes modified => simp [Node.isDirectory]
    | directory size modified => simp [Node.isDirectory]

theorem directory_dropLast (here : tree.directory loc = true) :
    tree.directory loc.dropLast = true := by
  induction loc using List.reverseRecOn with
  | nil => exact here
  | append_singleton loc name _ =>
    rw [List.dropLast_concat]
    refine tree.closed loc name ?_
    obtain ⟨size, modified, found⟩ := directory_iff.mp here
    rw [found]
    rfl

theorem walk_iff : tree.walk loc path = .ok dest ↔ dest = lexicalFrom loc path ∧
    ∀ init, init <+: path → init ≠ path → tree.directory (lexicalFrom loc init) = true := by
  induction path generalizing loc with
  | nil =>
    simp only [Tree.walk, lexicalFrom, List.foldl_nil, Except.ok.injEq, List.prefix_nil]
    constructor
    · rintro rfl
      exact ⟨rfl, fun init nil other => absurd nil other⟩
    · exact fun same => same.1.symm
  | cons name path ih =>
    have step : ∀ next, (∀ rest, lexicalFrom loc (name :: rest) = lexicalFrom next rest) →
        tree.directory loc = true → (tree.walk next path = .ok dest ↔
          dest = lexicalFrom loc (name :: path) ∧
          ∀ init, init <+: name :: path → init ≠ name :: path →
            tree.directory (lexicalFrom loc init) = true) := by
      intro next onward here
      rw [ih, onward]
      refine and_congr_right fun _ => ⟨fun rest init within other => ?_, fun rest init within other => ?_⟩
      · cases init with
        | nil => exact here
        | cons first init =>
          obtain ⟨rfl, inner⟩ := List.cons_prefix_cons.mp within
          rw [onward]
          exact rest init inner fun same => other (by rw [same])
      · rw [← onward]
        exact rest (name :: init) (List.cons_prefix_cons.mpr ⟨rfl, within⟩)
          fun same => other (List.cons.inj same).2
    have blocked : tree.directory loc = false → ¬(dest = lexicalFrom loc (name :: path) ∧
        ∀ init, init <+: name :: path → init ≠ name :: path →
          tree.directory (lexicalFrom loc init) = true) := by
      rintro off ⟨_, rest⟩
      have here := rest [] (List.nil_prefix) (by simp)
      rw [show lexicalFrom loc [] = loc from rfl, off] at here
      cases here
    unfold Tree.walk
    cases found : tree.nodes.get loc with
    | none => simpa using blocked (by simp [Tree.directory, found])
    | some node =>
      cases node with
      | file bytes modified => simpa using blocked (by simp [Tree.directory, found, Node.isDirectory])
      | directory size modified =>
        have here : tree.directory loc = true := directory_iff.mpr ⟨size, modified, found⟩
        simp only
        split
        · next dot => exact step loc (fun rest => by simp [lexicalFrom, dot]) here
        · next dot =>
          split
          · next dots => exact step loc.dropLast (fun rest => by simp [lexicalFrom, dots]) here
          · next dots => exact step (loc ++ [name]) (fun rest => by simp [lexicalFrom, dot, dots]) here

theorem stat_iff {node : Node} : tree.stat path = .ok (loc, node) ↔
    tree.walk [] path = .ok loc ∧ tree.nodes.get loc = some node := by
  unfold Tree.stat
  cases walked : tree.walk [] path with
  | error error => simp [bind, Except.bind]
  | ok dest =>
    simp only [bind, Except.bind, Except.ok.injEq]
    cases found : tree.nodes.get dest with
    | none =>
      simp only [reduceCtorEq, false_iff, not_and]
      rintro rfl
      simp [found]
    | some other =>
      simp only [Except.ok.injEq, Prod.mk.injEq]
      constructor
      · rintro ⟨rfl, rfl⟩
        exact ⟨rfl, found⟩
      · rintro ⟨rfl, there⟩
        exact ⟨rfl, Option.some.inj (found.symm.trans there)⟩

theorem directoryAt_stat : tree.directoryAt path = .ok loc ↔
    ∃ size modified, tree.stat path = .ok (loc, .directory size modified) := by
  unfold Tree.directoryAt
  cases found : tree.stat path with
  | error error => simp [bind, Except.bind]
  | ok row =>
    obtain ⟨dest, node⟩ := row
    cases node with
    | file bytes modified => simp [bind, Except.bind, Node.isDirectory]
    | directory size modified => simp [bind, Except.bind, Node.isDirectory, and_comm]

theorem directoryAt_iff : tree.directoryAt path = .ok loc ↔
    loc = lexical path ∧ ∀ init, init <+: path → tree.directory (lexical init) = true := by
  rw [directoryAt_stat]
  simp only [stat_iff, walk_iff]
  constructor
  · rintro ⟨size, modified, ⟨rfl, inner⟩, found⟩
    refine ⟨rfl, fun init within => ?_⟩
    by_cases whole : init = path
    · subst whole
      exact directory_iff.mpr ⟨size, modified, found⟩
    · exact inner init within whole
  · rintro ⟨rfl, all⟩
    obtain ⟨size, modified, found⟩ := directory_iff.mp (all path List.prefix_rfl)
    exact ⟨size, modified, ⟨rfl, fun init within _ => all init within⟩, found⟩

theorem isDirectory_iff : tree.isDirectory path = true ↔
    ∀ init, init <+: path → tree.directory (lexical init) = true := by
  unfold Tree.isDirectory
  constructor
  · intro there
    cases found : tree.directoryAt path with
    | error error => simp [found, Except.toOption] at there
    | ok loc => exact (directoryAt_iff.mp found).2
  · intro all
    rw [directoryAt_iff.mpr ⟨rfl, all⟩]
    rfl

theorem entry_iff {dir : Location} : tree.entry path = .ok (dir, name) ↔
    ∃ init, path = init ++ [name] ∧ name ≠ "." ∧ name ≠ ".." ∧ tree.directoryAt init = .ok dir := by
  induction path using List.reverseRecOn with
  | nil => simp [Tree.entry]
  | append_singleton init last _ =>
    simp only [Tree.entry, List.getLast?_concat, List.dropLast_concat]
    cases found : tree.directoryAt init with
    | error error =>
      simp only [bind, Except.bind, reduceCtorEq, false_iff, not_exists, not_and]
      intro other same _ _ there
      obtain ⟨rfl, _⟩ := List.append_inj' same rfl
      rw [found] at there
      cases there
    | ok loc =>
      simp only [bind, Except.bind]
      constructor
      · intro done
        split at done
        · cases done
        · next plain =>
          cases done
          simp only [not_or] at plain
          exact ⟨init, rfl, plain.1, plain.2, found⟩
      · rintro ⟨other, same, dot, dots, there⟩
        obtain ⟨rfl, last_same⟩ := List.append_inj' same rfl
        cases last_same
        rw [if_neg (by simp [dot, dots])]
        rw [found] at there
        cases there
        rfl

theorem entry_lexical {dir : Location} (there : tree.entry path = .ok (dir, name)) :
    dir ++ [name] = lexical path := by
  obtain ⟨init, rfl, dot, dots, found⟩ := entry_iff.mp there
  rw [lexical_concat, if_neg dot, if_neg dots, (directoryAt_iff.mp found).1]

theorem stat_file_entry {bytes : List UInt8} {modified : Nat}
    (found : tree.stat path = .ok (loc, .file bytes modified)) :
    ∃ dir name, tree.entry path = .ok (dir, name) ∧ loc = dir ++ [name] := by
  obtain ⟨walked, node⟩ := stat_iff.mp found
  obtain ⟨rfl, inner⟩ := walk_iff.mp walked
  have no_directory : tree.directory (lexical path) = false := by
    simp [Tree.directory, lexical, node, Node.isDirectory]
  induction path using List.reverseRecOn with
  | nil =>
    rw [show tree.directory (lexical []) = true from tree.top] at no_directory
    cases no_directory
  | append_singleton init last _ =>
    have all : ∀ part, part <+: init → tree.directory (lexical part) = true := by
      intro part within
      refine inner part (within.trans (List.prefix_append _ _)) fun same => ?_
      have longer := congrArg List.length same
      have shorter := within.length_le
      rw [List.length_append, List.length_singleton] at longer
      omega
    have dot : last ≠ "." := by
      intro same
      rw [lexical_concat, if_pos same, all init List.prefix_rfl] at no_directory
      cases no_directory
    have dots : last ≠ ".." := by
      intro same
      rw [lexical_concat, if_neg dot, if_pos same,
        directory_dropLast (all init List.prefix_rfl)] at no_directory
      cases no_directory
    have there : tree.entry (init ++ [last]) = .ok (lexical init, last) :=
      entry_iff.mpr ⟨init, rfl, dot, dots, directoryAt_iff.mpr ⟨rfl, all⟩⟩
    exact ⟨lexical init, last, there, (entry_lexical there).symm⟩

end Walks

section Files
variable {tree : Tree} {loc : Location} {path : Path}

theorem fileBytes_none_of_directory (here : tree.directory loc = true) :
    tree.fileBytes loc = none := by
  obtain ⟨size, modified, found⟩ := directory_iff.mp here
  simp [Tree.fileBytes, found]

theorem put_nodes {node : Node} (admitted : tree.admits loc node = true) :
    (tree.put loc node).nodes = tree.nodes.put loc node := by
  unfold Tree.put
  rw [dif_pos admitted]

theorem put_file_files {bytes : List UInt8} {modified : Nat}
    (admitted : tree.admits loc (.file bytes modified) = true) (other : Location) :
    (tree.put loc (.file bytes modified)).fileBytes other =
      if other = loc then some bytes else tree.fileBytes other := by
  unfold Tree.fileBytes
  rw [put_nodes admitted]
  by_cases here : other = loc
  · rw [here, get_put_self, if_pos rfl]
  · rw [get_put_other _ _ here, if_neg here]

theorem put_directory_files {size modified : Nat} (free : tree.fileBytes loc = none)
    (other : Location) :
    (tree.put loc (.directory size modified)).fileBytes other = tree.fileBytes other := by
  by_cases admitted : tree.admits loc (.directory size modified) = true
  · by_cases here : other = loc
    · subst here
      rw [free]
      unfold Tree.fileBytes
      rw [put_nodes admitted, get_put_self]
    · unfold Tree.fileBytes
      rw [put_nodes admitted, get_put_other _ _ here]
  · unfold Tree.put
    rw [dif_neg admitted]

theorem prune_files (strict : Bool) (other : Location) : (tree.prune loc strict).fileBytes other =
    if covers loc strict other = true then none else tree.fileBytes other := by
  unfold Tree.fileBytes Tree.prune
  simp only [get_retain]
  cases tree.nodes.get other with
  | none => simp
  | some node =>
    cases covered : covers loc strict other with
    | true => simp [Option.filter]
    | false => simp [Option.filter]

def SameFiles (d e : Disk) : Prop := ∀ loc, e.tree.fileBytes loc = d.tree.fileBytes loc

theorem sameFiles_refl (d : Disk) : SameFiles d d := fun _ => rfl

theorem sameFiles_trans (a b c : Disk) (first : SameFiles a b) (second : SameFiles b c) :
    SameFiles a c := fun loc => (second loc).trans (first loc)

theorem touch_sameFiles (loc : Location) : Keeps SameFiles (touch loc) := by
  intro d other
  change (if d.tree.directory loc then d.tree.put loc (.directory _ _) else d.tree).fileBytes other =
    _
  split
  · next here => exact put_directory_files (fileBytes_none_of_directory here) other
  · rfl

theorem makeDirectory_sameFiles (path : Path) : Keeps SameFiles (makeDirectory path) := by
  intro d
  change Ensures (makeDirectory path) d fun _ e => SameFiles d e
  unfold makeDirectory
  refine ensures_get (ensures_lift (fun _ _ => sameFiles_refl d) fun entry _ => ?_)
  refine ensures_refuseIf (fun _ => sameFiles_refl d) fun absent => ?_
  have free : d.tree.fileBytes (entry.1 ++ [entry.2]) = none := by
    cases found : d.tree.nodes.get (entry.1 ++ [entry.2]) with
    | none => simp [Tree.fileBytes, found]
    | some node => simp [found] at absent
  refine ensures_bind_ok rfl fun other => ?_
  exact (touch_sameFiles entry.1 _ other).trans (put_directory_files free other)

theorem settle_sameFiles (path : Path) (error : IoError) : Keeps SameFiles (settle path error) :=
  keeps_bind sameFiles_trans (keeps_get sameFiles_refl) fun _ => keeps_refuseIf sameFiles_refl _ _

theorem createDirectories_sameFiles (fuel : Nat) :
    ∀ path, Keeps SameFiles (createDirectories fuel path) := by
  induction fuel with
  | zero => exact fun path => keeps_throw sameFiles_refl _
  | succ fuel ih =>
    intro path
    unfold createDirectories
    refine keeps_tryCatch sameFiles_trans (makeDirectory_sameFiles path) fun error => ?_
    refine keeps_ite ?_ (settle_sameFiles path error)
    split
    · exact keeps_throw sameFiles_refl _
    · refine keeps_bind sameFiles_trans (ih _) fun _ => ?_
      exact keeps_tryCatch sameFiles_trans (makeDirectory_sameFiles path) (settle_sameFiles path)

theorem createDirAll_sameFiles (path : Path) : Keeps SameFiles (createDirAll path) :=
  createDirectories_sameFiles _ path

theorem directory_of_below {other : Location} (there : (tree.nodes.get other).isSome = true)
    (within : loc <+: other) (apart : other ≠ loc) : tree.directory loc = true := by
  obtain ⟨rest, rfl⟩ := within
  induction rest using List.reverseRecOn with
  | nil => simp at apart
  | append_singleton rest name ih =>
    rw [← List.append_assoc] at there
    have parent := tree.closed (loc ++ rest) name there
    by_cases here : loc ++ rest = loc
    · rwa [here] at parent
    · refine ih ?_ here
      obtain ⟨size, modified, found⟩ := directory_iff.mp parent
      rw [found]
      rfl

theorem removeFile_files {d : Disk} {bytes : List UInt8} {modified : Nat}
    (found : d.tree.stat path = .ok (loc, .file bytes modified)) :
    Ensures (removeFile path) d fun result e => result = .ok () ∧
      ∀ other, e.tree.fileBytes other = if other = loc then none else d.tree.fileBytes other := by
  obtain ⟨dir, name, there, rfl⟩ := stat_file_entry found
  have node := (stat_iff.mp found).2
  have leaf : ∀ other, dir ++ [name] <+: other → other ≠ dir ++ [name] →
      d.tree.fileBytes other = none := by
    intro other within apart
    cases below : d.tree.nodes.get other with
    | none => simp [Tree.fileBytes, below]
    | some node' =>
      have directory := directory_of_below (by rw [below]; rfl) within apart
      simp [Tree.directory, node, Node.isDirectory] at directory
  unfold removeFile
  refine ensures_get (ensures_lift (fun _ failed => by rw [there] at failed; cases failed)
    fun entry same => ?_)
  rw [there] at same
  cases same
  simp only [node]
  refine ensures_bind_ok rfl ⟨rfl, fun other => ?_⟩
  refine (touch_sameFiles dir _ other).trans ?_
  refine (prune_files false other).trans ?_
  by_cases here : other = dir ++ [name]
  · rw [if_pos here, if_pos (by rw [covers_iff, here]; simp)]
  · rw [if_neg here]
    split
    · next covered => exact (leaf other (covers_iff.mp covered).2.1 here).symm
    · rfl

theorem removeDirAll_files {d : Disk} (found : d.tree.directoryAt path = .ok loc) :
    Ensures (removeDirAll path) d fun _ e =>
      ∀ other, e.tree.fileBytes other = if loc <+: other then none else d.tree.fileBytes other := by
  have directory : d.tree.directory loc = true := by
    obtain ⟨rfl, all⟩ := directoryAt_iff.mp found
    exact all path List.prefix_rfl
  have pruned : ∀ (strict : Bool) (other : Location), (d.tree.prune loc strict).fileBytes other =
      if loc <+: other then none else d.tree.fileBytes other := by
    intro strict other
    rw [prune_files]
    by_cases within : loc <+: other
    · rw [if_pos within]
      split
      · rfl
      · next uncovered =>
        -- only the top or the directory itself is left
        rw [covers_iff] at uncovered
        by_cases top : other = []
        · rw [top]
          exact fileBytes_none_of_directory d.tree.top
        · have here : other = loc := by
            by_contra apart
            exact uncovered ⟨top, within, fun _ => apart⟩
          rw [here]
          exact fileBytes_none_of_directory directory
    · rw [if_neg within, if_neg fun covered => within (covers_iff.mp covered).2.1]
  unfold removeDirAll
  refine ensures_get (ensures_lift (fun _ failed => by rw [found] at failed; cases failed)
    fun dest same => ?_)
  rw [found] at same
  cases same
  refine ensures_ite (fun _ => ?_) fun _ => ?_
  · refine ensures_bind_ok rfl ?_
    refine ensures_after (touch_sameFiles loc) (fun _ e same other => ?_) fun _ e same other => ?_
    · exact (same other).trans (pruned true other)
    · exact (same other).trans (pruned true other)
  · refine ensures_bind_ok rfl fun other => ?_
    exact (touch_sameFiles loc.dropLast _ other).trans (pruned false other)

theorem placeFile_files (bytes : List UInt8) (d : Disk) :
    Ensures (placeFile path bytes) d fun _ e =>
      (∀ dir name, d.tree.entry path = .ok (dir, name) →
        d.tree.directory (dir ++ [name]) = false → ∀ other, e.tree.fileBytes other =
          if other = lexical path then some bytes else d.tree.fileBytes other) ∧
      ((∀ dir name, d.tree.entry path = .ok (dir, name) →
        d.tree.directory (dir ++ [name]) = true) → e = d) := by
  unfold placeFile
  refine ensures_get (ensures_lift (fun error failed => ?_) fun entry there => ?_)
  · refine ⟨fun dir name there => ?_, fun _ => rfl⟩
    rw [failed] at there
    cases there
  refine ensures_refuseIf (fun taken => ?_) fun free => ensures_bind_ok rfl ?_
  · refine ⟨fun dir name same off => ?_, fun _ => rfl⟩
    rw [there] at same
    cases same
    rw [taken] at off
    cases off
  · refine ⟨fun dir name _ _ other => ?_, fun all => absurd (all entry.1 entry.2 there) free⟩
    obtain ⟨init, _, _, _, found⟩ := entry_iff.mp there
    have parent : d.tree.directory entry.1 = true := by
      obtain ⟨same, all⟩ := directoryAt_iff.mp found
      rw [same]
      exact all init List.prefix_rfl
    refine (touch_sameFiles entry.1 _ other).trans ?_
    rw [← entry_lexical there]
    refine put_file_files ?_ other
    simp [Tree.admits, parent, free]

section Creation

theorem walk_error {error : IoError} (failed : tree.walk loc path = .error error) :
    error = .notFound ∨
      ∃ init, init <+: path ∧ (tree.fileBytes (lexicalFrom loc init)).isSome = true := by
  induction path generalizing loc with
  | nil => cases failed
  | cons name path ih =>
    have onward : ∀ next, (∀ rest, lexicalFrom loc (name :: rest) = lexicalFrom next rest) →
        tree.walk next path = .error error → error = .notFound ∨ ∃ init, init <+: name :: path ∧
          (tree.fileBytes (lexicalFrom loc init)).isSome = true := by
      intro next same failed
      refine (ih failed).imp_right fun ⟨init, within, file⟩ => ?_
      exact ⟨name :: init, List.cons_prefix_cons.mpr ⟨rfl, within⟩, by rw [same]; exact file⟩
    unfold Tree.walk at failed
    cases found : tree.nodes.get loc with
    | none =>
      rw [found] at failed
      cases failed
      exact .inl rfl
    | some node =>
      cases node with
      | file bytes modified =>
        exact .inr ⟨[], List.nil_prefix, by simp [lexicalFrom, Tree.fileBytes, found]⟩
      | directory size modified =>
        simp only [found] at failed
        split at failed
        · next dot => exact onward loc (fun rest => by simp [lexicalFrom, dot]) failed
        · next dot =>
          split at failed
          · next dots => exact onward loc.dropLast (fun rest => by simp [lexicalFrom, dots]) failed
          · next dots =>
            exact onward (loc ++ [name]) (fun rest => by simp [lexicalFrom, dot, dots]) failed

theorem directoryAt_error {error : IoError} (failed : tree.directoryAt path = .error error) :
    error = .notFound ∨ ∃ init, init <+: path ∧ (tree.fileBytes (lexical init)).isSome = true := by
  unfold Tree.directoryAt Tree.stat at failed
  cases walked : tree.walk [] path with
  | error other =>
    simp only [walked, bind, Except.bind, Except.error.injEq] at failed
    subst failed
    exact walk_error walked
  | ok loc =>
    obtain ⟨rfl, _⟩ := walk_iff.mp walked
    simp only [walked, bind, Except.bind] at failed
    cases found : tree.nodes.get (lexicalFrom [] path) with
    | none =>
      simp only [found, Except.error.injEq] at failed
      exact .inl failed.symm
    | some node =>
      cases node with
      | file bytes modified =>
        exact .inr ⟨path, List.prefix_rfl, by simp [lexical, Tree.fileBytes, found]⟩
      | directory size modified => simp [found, Node.isDirectory] at failed

def Clear (tree : Tree) (path : Path) : Prop :=
  ∀ init, init <+: path → tree.fileBytes (lexical init) = none

theorem Clear.sameFiles {d e : Disk} (clear : Clear d.tree path) (same : SameFiles d e) :
    Clear e.tree path := fun init within => (same _).trans (clear init within)

theorem directory_of_clear (clear : tree.fileBytes loc = none)
    (there : (tree.nodes.get loc).isSome = true) : tree.directory loc = true := by
  cases found : tree.nodes.get loc with
  | none => simp [found] at there
  | some node =>
    cases node with
    | file bytes modified => simp [Tree.fileBytes, found] at clear
    | directory size modified => exact directory_iff.mpr ⟨size, modified, found⟩

variable {name : String} {init : Path}

theorem directoryAt_concat (parent : tree.directoryAt init = .ok loc)
    (here : tree.directory (lexical (init ++ [name])) = true) :
    tree.isDirectory (init ++ [name]) = true := by
  rw [isDirectory_iff]
  intro part within
  rcases List.prefix_concat_iff.mp within with whole | inner
  · rw [whole]
    exact here
  · exact (directoryAt_iff.mp parent).2 part inner

theorem put_directory_kept {size modified : Nat} {other : Location}
    (here : tree.directory other = true) :
    (tree.put loc (.directory size modified)).directory other = true := by
  unfold Tree.put
  split
  · unfold Tree.directory
    rw [get_put]
    split
    · rfl
    · exact here
  · exact here

theorem put_directory_made {size modified : Nat}
    (admitted : tree.admits loc (.directory size modified) = true) :
    (tree.put loc (.directory size modified)).directory loc = true := by
  unfold Tree.directory
  rw [put_nodes admitted, get_put_self]
  rfl

variable {d : Disk}

theorem touch_directory {other : Location} (loc : Location)
    (here : d.tree.directory other = true) : ((touch loc).run d).2.tree.directory other = true := by
  change (if d.tree.directory loc then d.tree.put loc (.directory _ _) else d.tree).directory other =
    true
  split
  · exact put_directory_kept here
  · exact here

theorem make_or_settle (dot : name ≠ ".")
    (parent : d.tree.directoryAt init = .ok loc) (clear : Clear d.tree (init ++ [name])) :
    ∃ result e, (makeDirectory (init ++ [name])).run d = (result, e) ∧ result ≠ .error .notFound ∧
      e.tree.isDirectory (init ++ [name]) = true := by
  have directory := (directoryAt_iff.mp parent).2 init List.prefix_rfl
  by_cases dots : name = ".."
  · -- the kernel refuses to make "..", but it is there
    have refused : d.tree.entry (init ++ [name]) = .error .invalidName := by
      simp [Tree.entry, parent, dots, bind, Except.bind]
    refine ⟨.error .invalidName, d, ?_, by simp, directoryAt_concat parent ?_⟩
    · unfold makeDirectory
      simp only [bind_run, get_run, lift_run, refused]
    · rw [lexical_concat, if_neg dot, if_pos dots]
      exact directory_dropLast directory
  · have there : d.tree.entry (init ++ [name]) = .ok (loc, name) :=
      entry_iff.mpr ⟨init, rfl, dot, dots, parent⟩
    have place := entry_lexical there
    cases taken : (d.tree.nodes.get (loc ++ [name])).isSome with
    | true =>
      refine ⟨.error .alreadyExists, d, ?_, by simp, directoryAt_concat parent ?_⟩
      · unfold makeDirectory
        simp only [bind_run, get_run, lift_run, there, refuseIf, taken, if_true, throw_run]
      · rw [place] at taken
        exact directory_of_clear (clear _ List.prefix_rfl) taken
    | false =>
      have admitted : ∀ size modified,
          d.tree.admits (loc ++ [name]) (.directory size modified) = true := by
        intro size modified
        rw [← (directoryAt_iff.mp parent).1] at directory
        simp [Tree.admits, directory]
      have run : ∃ e, (makeDirectory (init ++ [name])).run d = (.ok (), e) ∧
          e = ((touch loc).run ⟨d.tree.put (loc ++ [name]) (.directory (d.stamps 0).1 (d.stamps 0).2),
            fun n => d.stamps (n + 1)⟩).2 := by
        refine ⟨_, ?_, rfl⟩
        unfold makeDirectory
        simp only [bind_run, get_run, lift_run, there, refuseIf, taken, Bool.false_eq_true, if_false,
          pure_run]
        rfl
      obtain ⟨e, run, made⟩ := run
      refine ⟨.ok (), e, run, by simp, ?_⟩
      rw [isDirectory_iff]
      intro part within
      rw [made]
      refine touch_directory loc ?_
      rcases List.prefix_concat_iff.mp within with whole | inner
      · rw [whole, ← place]
        exact put_directory_made (admitted _ _)
      · exact put_directory_kept ((directoryAt_iff.mp parent).2 part inner)

theorem dropDots_concat (path : Path) (name : String) :
    dropDots (path ++ [name]) = if name = "." then dropDots path else path ++ [name] := by
  simp [dropDots, List.rdropWhile_concat]

theorem isDirectory_dropDots (there : tree.isDirectory (dropDots path) = true) :
    tree.isDirectory path = true := by
  induction path using List.reverseRecOn with
  | nil => exact there
  | append_singleton init name ih =>
    rw [dropDots_concat] at there
    split at there
    · next dot =>
      have parts := isDirectory_iff.mp (ih there)
      refine directoryAt_concat (directoryAt_iff.mpr ⟨rfl, parts⟩) ?_
      rw [lexical_concat, if_pos dot]
      exact parts init List.prefix_rfl
    · exact there

theorem settle_there (there : d.tree.isDirectory path = true) (error : IoError) :
    (settle path error).run d = (.ok (), d) := by
  unfold settle
  simp only [bind_run, get_run, refuseIf, there, Bool.true_eq_false, if_false, pure_run]

theorem make_settled {handle : IoError → DiskM Unit}
    (dot : name ≠ ".") (parent : d.tree.isDirectory init = true)
    (clear : Clear d.tree (init ++ [name]))
    (settles : ∀ error, error ≠ .notFound → handle error = settle (init ++ [name]) error) :
    ∃ e, (tryCatch (makeDirectory (init ++ [name])) handle).run d = (.ok (), e) ∧
      e.tree.isDirectory (init ++ [name]) = true := by
  obtain ⟨result, e, run, other, there⟩ :=
    make_or_settle dot (directoryAt_iff.mpr ⟨rfl, isDirectory_iff.mp parent⟩) clear
  refine ⟨e, ?_, there⟩
  rw [tryCatch_run, run]
  cases result with
  | ok done => rfl
  | error error =>
    simp only
    rw [settles error fun same => other (by rw [same])]
    exact settle_there there error

theorem parentPath_concat (dot : name ≠ ".") :
    parentPath (init ++ [name]) = some (dropDots init) := by
  unfold parentPath
  rw [dropDots_concat, if_neg dot, List.dropLast_concat, if_neg (by simp)]

theorem createDirectories_ok (fuel : Nat) : ∀ (path : Path) (d : Disk), path.length < fuel →
    dropDots path = path → Clear d.tree path → ∃ e, (createDirectories fuel path).run d = (.ok (), e) ∧
      e.tree.isDirectory path = true := by
  induction fuel with
  | zero => intro path d short; omega
  | succ fuel ih =>
    intro path d short plain clear
    unfold createDirectories
    induction path using List.reverseRecOn with
    | nil =>
      have top : d.tree.isDirectory [] = true := by
        rw [isDirectory_iff]
        intro part within
        rw [List.prefix_nil.mp within]
        exact d.tree.top
      refine ⟨d, ?_, top⟩
      have refused : (makeDirectory []).run d = (.error .invalidName, d) := rfl
      rw [tryCatch_run, refused]
      exact settle_there top _
    | append_singleton init name _ =>
      have shorter := (List.rdropWhile_prefix (fun name : String => name = ".") init).length_le
      change (dropDots init).length ≤ _ at shorter
      rw [List.length_append, List.length_singleton] at short
      have dot : name ≠ "." := by
        intro dot
        rw [dropDots_concat, if_pos dot] at plain
        have longer := congrArg List.length plain
        rw [List.length_append, List.length_singleton] at longer
        omega
      cases parent : d.tree.directoryAt init with
      | ok loc =>
        refine make_settled dot (isDirectory_iff.mpr (directoryAt_iff.mp parent).2) clear ?_
        exact fun error other => if_neg other
      | error error =>
        -- the directory that is missing is made first
        have missing : error = .notFound := by
          refine (directoryAt_error parent).resolve_right fun ⟨part, within, file⟩ => ?_
          rw [clear part (within.trans (List.prefix_append _ _))] at file
          cases file
        have refused : (makeDirectory (init ++ [name])).run d = (.error .notFound, d) := by
          have failed : d.tree.entry (init ++ [name]) = .error .notFound := by
            simp [Tree.entry, parent, missing, bind, Except.bind]
          unfold makeDirectory
          simp only [bind_run, get_run, lift_run, failed]
        obtain ⟨e, run, there⟩ := ih (dropDots init) d (by omega) (List.rdropWhile_idempotent _ _)
          fun part within => clear part (within.trans
            ((List.rdropWhile_prefix _ _).trans (List.prefix_append _ _)))
        have same := createDirectories_sameFiles fuel (dropDots init) d
        rw [run] at same
        rw [tryCatch_run, refused]
        simp only [if_true, parentPath_concat dot, bind_run, run]
        exact make_settled dot (isDirectory_dropDots there) (clear.sameFiles same) fun _ _ => rfl

def Placeable (tree : Tree) (path : Path) : Prop :=
  ∃ init name, path = init ++ [name] ∧ name ≠ "." ∧ name ≠ ".." ∧ Clear tree init

theorem placeable_of_entry {d e : Disk} (same : SameFiles d e) {entry : Location × String}
    (there : e.tree.entry path = .ok entry) : Placeable d.tree path := by
  obtain ⟨init, rfl, dot, dots, found⟩ := entry_iff.mp there
  refine ⟨init, entry.2, rfl, dot, dots, fun part within => ?_⟩
  rw [← same]
  exact fileBytes_none_of_directory ((directoryAt_iff.mp found).2 part within)

theorem entry_after_createDirAll (fits : Placeable d.tree path) :
    ∃ parent e entry, parentPath path = some parent ∧ (createDirAll parent).run d = (.ok (), e) ∧
      e.tree.entry path = .ok entry := by
  obtain ⟨init, name, rfl, dot, dots, clear⟩ := fits
  obtain ⟨e, run, there⟩ := createDirectories_ok _ (dropDots init) d (Nat.lt_succ_self _)
    (List.rdropWhile_idempotent _ _)
    fun part within => clear part (within.trans (List.rdropWhile_prefix _ _))
  refine ⟨_, e, (lexical init, name), parentPath_concat dot, run, ?_⟩
  refine entry_iff.mpr ⟨init, rfl, dot, dots, directoryAt_iff.mpr ⟨rfl, ?_⟩⟩
  exact isDirectory_iff.mp (isDirectory_dropDots there)

end Creation

end Files

end FileTree
