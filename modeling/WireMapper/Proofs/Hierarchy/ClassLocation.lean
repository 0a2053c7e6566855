import WireMapper.Proofs.FileTree.NameOrder
import WireMapper.Proofs.FirstFound
import WireMapper.Proofs.Hierarchy.Sources

/-!
Where a class is found. A root is searched like a tree: the entries of a directory in the order of
the bytes of their names, each directory before the entries that come after it, until a file
declares the class. Whatever order the entries are listed in, this finds the least path of all files
below the root that declare the class, and so does going through the sorted list of these files.
Other files are passed over, wherever they stand.
-/

namespace WireMapper

open FileTree (isEntryName nameBefore)
open Java (CompilationUnit)

/-- The entries that directories are listed with, in whatever order they come. -/
structure Listing (tree : FileTree) where
  names : Place → List String
  mem_names_iff : ∀ place name, tree.at? place = some .directory →
    (name ∈ names place ↔ isEntryName name = true ∧ tree.at? (place ++ [name]) ≠ none)

def Listing.sorted {tree : FileTree} (listing : Listing tree) (place : Place) : List String :=
  (listing.names place).mergeSort fun a b => !nameBefore b a

def FileTree.places (tree : FileTree) : List Place :=
  tree.working :: tree.nodes.map Prod.fst

theorem FileTree.at?_ne_none_iff {tree : FileTree} {place : Place} :
    tree.at? place ≠ none ↔ place ∈ tree.places := by
  unfold at? places
  split
  · rename_i hworking
    simp [hworking]
  · rename_i hworking
    simp [List.lookup_eq_none_iff, hworking]

/-- Each directory can be listed by the places just below it. -/
instance (tree : FileTree) : Inhabited (Listing tree) where
  default := {
    names := fun place => tree.places.filterMap fun at_ =>
      at_.getLast?.filter fun name => isEntryName name && at_ = place ++ [name]
    mem_names_iff := by
      intro place name _
      rw [FileTree.at?_ne_none_iff, List.mem_filterMap]
      constructor
      · rintro ⟨at_, hat, hname⟩
        obtain ⟨_, hentry⟩ := Option.filter_eq_some_iff.mp hname
        simp only [Bool.and_eq_true, decide_eq_true_eq] at hentry
        exact ⟨hentry.1, hentry.2 ▸ hat⟩
      · rintro ⟨hentry, hat⟩
        exact ⟨place ++ [name], hat, by simp [hentry]⟩ }

def FileTree.depth (tree : FileTree) : Nat :=
  (tree.places.map List.length).foldr max 0

theorem le_foldr_max {lengths : List Nat} {length : Nat} (h : length ∈ lengths) :
    length ≤ lengths.foldr max 0 := by
  induction h with
  | head => exact Nat.le_max_left _ _
  | tail _ _ ih => exact Nat.le_trans ih (Nat.le_max_right _ _)

theorem FileTree.length_le_depth {tree : FileTree} {place : Place} {node : FileNode}
    (h : tree.at? place = some node) : place.length ≤ tree.depth := by
  have hplace : place ∈ tree.places := at?_ne_none_iff.mp (by simp [h])
  exact le_foldr_max (List.mem_map_of_mem hplace)

def SourceFile.declaring? (tree : FileTree) (className : String) (path : Path) :
    Option SourceFile :=
  match SourceFile.read tree path with
  | .ok file => if (file.unit.type? className).isSome then some file else none
  | .error _ => none

/-- The first file below a directory that declares the class: its entries are tried by the bytes of
their names, and each directory among them is searched before the next entry. -/
def FileTree.findBelow (tree : FileTree) (listing : Listing tree) (className : String)
    (place : Place) (path : Path) : Option SourceFile :=
  (listing.sorted place).findSome? fun name =>
    match h : tree.at? (place ++ [name]) with
    | some .directory => tree.findBelow listing className (place ++ [name]) (path.join ⟨name⟩)
    | some (.file _) =>
        if name = sourceName className then SourceFile.declaring? tree className (path.join ⟨name⟩)
        else none
    | none => none
termination_by tree.depth + 1 - place.length
decreasing_by
  have hdepth := length_le_depth h
  rw [List.length_append, List.length_singleton] at hdepth ⊢
  omega

/-- The first file below one of the roots that declares the class. A root that is no directory
cannot be listed and is passed over. -/
def SourceRoots.searchClass? (r : SourceRoots) (tree : FileTree) (listing : Listing tree)
    (className : String) : Option SourceFile :=
  r.roots.findSome? fun root =>
    match tree.place? root with
    | .error _ => none
    | .ok place =>
      match tree.at? place with
      | some .directory => tree.findBelow listing className place root
      | _ => none

/-- One path comes before another one: the components are compared one after the other, each by its
bytes. -/
def Path.Before (p q : Path) : Prop :=
  p.components.map nameBytes < q.components.map nameBytes

/-- A file below a root that declares the class: its path leads down from the root by names of
entries, the last of which is the file name of the class, and it can be read as text, parses, and
has the class among its top-level types. -/
structure DeclaresBelow (tree : FileTree) (className : String) (root : Path) (file : SourceFile) :
    Prop where
  directory : tree.isDirectory root = true
  below : ∃ directories,
    (∀ name ∈ directories ++ [sourceName className], isEntryName name = true) ∧
      file.path = (directories ++ [sourceName className]).foldl (fun p name => p.join ⟨name⟩) root
  parses : ∃ source, tree.readText file.path = .ok source ∧
    CompilationUnit.parse source = .ok file.unit
  declares : ∃ t ∈ file.unit.types, t.name = className

/-- The names lead from a directory down to a file that declares the class. The directory is known
by its place and by the path it was reached by. -/
structure Leads (tree : FileTree) (className : String) (place : Place) (path : Path)
    (names : List String) (file : SourceFile) : Prop where
  entries : ∀ name ∈ names, isEntryName name = true
  last : names.getLast? = some (sourceName className)
  follow : tree.follow place names = .ok (place ++ names)
  regular : ∃ content, tree.at? (place ++ names) = some (.file content)
  declaring : SourceFile.declaring? tree className
    (names.foldl (fun p name => p.join ⟨name⟩) path) = some file

/-- What a search comes to: the file that the least names lead to, or nothing where no names lead to
a file. -/
structure FindsLeast (tree : FileTree) (className : String) (place : Place) (path : Path)
    (found : Option SourceFile) : Prop where
  least : ∀ file, found = some file → ∃ names, Leads tree className place path names file ∧
    ∀ others other, Leads tree className place path others other →
      names.map nameBytes ≤ others.map nameBytes
  missing : found = none → ∀ names file, ¬ Leads tree className place path names file

variable {tree : FileTree} {className : String} {place : Place} {path root : Path}
  {names : List String} {file : SourceFile}

/-- Names lead to one file at most. -/
theorem Leads.unique {other : SourceFile} (h : Leads tree className place path names file)
    (hother : Leads tree className place path names other) : file = other :=
  Option.some.inj (h.declaring.symm.trans hother.declaring)

/-- There is one outcome of a search. -/
theorem FindsLeast.unique {found other : Option SourceFile}
    (h : FindsLeast tree className place path found)
    (hother : FindsLeast tree className place path other) : found = other := by
  cases hfound : found with
  | none =>
      cases hfile : other with
      | none => rfl
      | some file =>
          obtain ⟨names, hleads, _⟩ := hother.least file hfile
          exact absurd hleads (h.missing hfound names file)
  | some file =>
      obtain ⟨names, hleads, hleast⟩ := h.least file hfound
      cases hfile : other with
      | none => exact absurd hleads (hother.missing hfile names file)
      | some file' =>
          obtain ⟨others, hleads', hleast'⟩ := hother.least file' hfile
          have heq : names.map nameBytes = others.map nameBytes :=
            le_antisymm (hleast others file' hleads') (hleast' names file hleads)
          obtain rfl := List.map_injective_iff.mpr nameBytes_injective heq
          rw [hleads.unique hleads']

theorem pairwise_sorted (listing : Listing tree) (place : Place) :
    (listing.sorted place).Pairwise fun a b => nameBytes a ≤ nameBytes b :=
  pairwise_mergeSort_key nameBefore_iff _

/-- The entries of a directory are the names under which something stands in it. -/
theorem mem_sorted_iff (listing : Listing tree) {name : String}
    (hdirectory : tree.at? place = some .directory) :
    name ∈ listing.sorted place ↔ isEntryName name = true ∧ tree.at? (place ++ [name]) ≠ none := by
  rw [Listing.sorted, List.mem_mergeSort, listing.mem_names_iff place name hdirectory]

theorem follow_entry {name : String} (hdirectory : tree.at? place = some .directory)
    (hname : isEntryName name = true) : tree.follow place [name] = .ok (place ++ [name]) := by
  have hvoid := (FileTree.isName_of_isEntryName hname).leads
  have hup := FileTree.ne_up_of_isEntryName hname
  simp [FileTree.follow, hdirectory, hvoid, hup]

/-- A single name leads to a file in the directory itself. -/
theorem leads_singleton_iff {name : String} (hdirectory : tree.at? place = some .directory) :
    Leads tree className place path [name] file ↔
      isEntryName name = true ∧ name = sourceName className ∧
        (∃ content, tree.at? (place ++ [name]) = some (.file content)) ∧
        SourceFile.declaring? tree className (path.join ⟨name⟩) = some file := by
  constructor
  · intro h
    exact ⟨h.entries name (by simp), by simpa using h.last, h.regular, h.declaring⟩
  · rintro ⟨hname, hlast, hregular, hdeclaring⟩
    refine ⟨?_, by simp [hlast], follow_entry hdirectory hname, hregular, hdeclaring⟩
    intro other hother
    rwa [List.mem_singleton.mp hother]

/-- More names lead into a directory first. -/
theorem leads_cons_iff {name : String} (hdirectory : tree.at? place = some .directory)
    (hnames : names ≠ []) :
    Leads tree className place path (name :: names) file ↔
      isEntryName name = true ∧ tree.at? (place ++ [name]) = some .directory ∧
        Leads tree className (place ++ [name]) (path.join ⟨name⟩) names file := by
  have hplace : place ++ name :: names = place ++ [name] ++ names := by simp
  have hlast : (name :: names).getLast? = names.getLast? := by
    obtain ⟨next, rest, rfl⟩ := List.exists_cons_of_ne_nil hnames
    rfl
  constructor
  · intro h
    have hname := h.entries name (by simp)
    have hfollow := h.follow
    rw [hplace, ← List.singleton_append] at hfollow
    obtain ⟨middle, hmiddle, hrest⟩ := FileTree.follow_append_eq_ok.mp hfollow
    obtain rfl : place ++ [name] = middle :=
      Except.ok.inj ((follow_entry hdirectory hname).symm.trans hmiddle)
    have hinner : tree.at? (place ++ [name]) = some .directory := by
      obtain ⟨next, rest, rfl⟩ := List.exists_cons_of_ne_nil hnames
      exact FileTree.at?_of_follow_cons hrest
    refine ⟨hname, hinner, fun other hother => h.entries other (by simp [hother]), hlast ▸ h.last,
      hrest, ?_, h.declaring⟩
    rw [← hplace]
    exact h.regular
  · rintro ⟨hname, hinner, h⟩
    refine ⟨?_, hlast ▸ h.last, ?_, ?_, h.declaring⟩
    · intro other hother
      rcases List.mem_cons.mp hother with rfl | hother
      · exact hname
      · exact h.entries other hother
    · rw [hplace, ← List.singleton_append]
      exact FileTree.follow_append_eq_ok.mpr ⟨_, follow_entry hdirectory hname, h.follow⟩
    · rw [hplace]
      exact h.regular

def FileTree.findAt (tree : FileTree) (listing : Listing tree) (className : String) (place : Place)
    (path : Path) (name : String) : Option SourceFile :=
  match tree.at? (place ++ [name]) with
  | some .directory => tree.findBelow listing className (place ++ [name]) (path.join ⟨name⟩)
  | some (.file _) =>
      if name = sourceName className then SourceFile.declaring? tree className (path.join ⟨name⟩)
      else none
  | none => none

theorem findBelow_eq (listing : Listing tree) (className : String) (place : Place) (path : Path) :
    tree.findBelow listing className place path =
      (listing.sorted place).findSome? (tree.findAt listing className place path) := by
  rw [FileTree.findBelow]
  congr 1
  funext name
  unfold FileTree.findAt
  split <;> simp_all

/-- What a search comes to at one entry of a directory: the file that the least names behind the
entry lead to, or nothing where no names behind it lead to a file. -/
structure FindsLeastAt (tree : FileTree) (className : String) (place : Place) (path : Path)
    (name : String) (found : Option SourceFile) : Prop where
  least : ∀ file, found = some file →
    ∃ names, Leads tree className place path (name :: names) file ∧
    ∀ others other, Leads tree className place path (name :: others) other →
      names.map nameBytes ≤ others.map nameBytes
  missing : found = none → ∀ names file, ¬ Leads tree className place path (name :: names) file

section

variable {name : String} (hdirectory : tree.at? place = some .directory)

include hdirectory

/-- The name of an entry leads to a file by itself, or into a directory with more names behind it.
-/
theorem Leads.regular_or_directory (h : Leads tree className place path (name :: names) file) :
    names = [] ∧ (∃ content, tree.at? (place ++ [name]) = some (.file content)) ∨
      names ≠ [] ∧ tree.at? (place ++ [name]) = some .directory := by
  by_cases hnames : names = []
  · subst hnames
    exact Or.inl ⟨rfl, ((leads_singleton_iff hdirectory).mp h).2.2.1⟩
  · exact Or.inr ⟨hnames, ((leads_cons_iff hdirectory hnames).mp h).2.1⟩

theorem findAt_least_of_none (listing : Listing tree) (className : String)
    (hnone : tree.at? (place ++ [name]) = none) :
    FindsLeastAt tree className place path name
      (tree.findAt listing className place path name) := by
  rw [FileTree.findAt, hnone]
  refine ⟨by simp, fun _ names file h => ?_⟩
  rcases h.regular_or_directory hdirectory with ⟨_, _, hat⟩ | ⟨_, hat⟩ <;> simp [hnone] at hat

/-- No names can follow that of a regular file. -/
theorem findAt_least_of_file (listing : Listing tree) (className : String) {content : ByteArray}
    (hname : isEntryName name = true) (hfile : tree.at? (place ++ [name]) = some (.file content)) :
    FindsLeastAt tree className place path name
      (tree.findAt listing className place path name) := by
  have hsingle : ∀ names file, Leads tree className place path (name :: names) file →
      names = [] := by
    intro names file h
    rcases h.regular_or_directory hdirectory with ⟨hnames, _⟩ | ⟨_, hat⟩
    · exact hnames
    · simp [hfile] at hat
  rw [FileTree.findAt, hfile]
  constructor
  · intro file h
    obtain ⟨hlast, hdeclaring⟩ := Option.ite_none_right_eq_some.mp h
    refine ⟨[], (leads_singleton_iff hdirectory).mpr ⟨hname, hlast, ⟨content, hfile⟩,
      hdeclaring⟩, ?_⟩
    intro others other hother
    rw [hsingle others other hother]
  · intro h names file hleads
    obtain rfl := hsingle names file hleads
    obtain ⟨_, hlast, _, hdeclaring⟩ := (leads_singleton_iff hdirectory).mp hleads
    simp [hlast.symm, hdeclaring] at h

/-- Behind the name of a directory, the least names are those that the search inside it finds. -/
theorem findAt_least_of_directory (listing : Listing tree) (className : String)
    (hname : isEntryName name = true) (hinner : tree.at? (place ++ [name]) = some .directory)
    (hsearch : FindsLeast tree className (place ++ [name]) (path.join ⟨name⟩)
      (tree.findBelow listing className (place ++ [name]) (path.join ⟨name⟩))) :
    FindsLeastAt tree className place path name
      (tree.findAt listing className place path name) := by
  have hnested : ∀ names file, Leads tree className place path (name :: names) file →
      Leads tree className (place ++ [name]) (path.join ⟨name⟩) names file := by
    intro names file h
    rcases h.regular_or_directory hdirectory with ⟨_, _, hat⟩ | ⟨hnames, _⟩
    · simp [hinner] at hat
    · exact ((leads_cons_iff hdirectory hnames).mp h).2.2
  rw [FileTree.findAt, hinner]
  constructor
  · intro file h
    obtain ⟨names, hleads, hmin⟩ := hsearch.least file h
    have hnames : names ≠ [] := by
      rintro rfl
      simpa using hleads.last
    refine ⟨names, (leads_cons_iff hdirectory hnames).mpr ⟨hname, hinner, hleads⟩, ?_⟩
    exact fun others other hother => hmin others other (hnested others other hother)
  · exact fun h names file hleads => hsearch.missing h names file (hnested names file hleads)

/-- An entry is a file, or it is a directory that is searched in turn: the search finds the least
names that start with the entry. -/
theorem findAt_least (listing : Listing tree) (className : String) (hname : isEntryName name = true)
    (hinner : tree.at? (place ++ [name]) = some .directory →
      FindsLeast tree className (place ++ [name]) (path.join ⟨name⟩)
        (tree.findBelow listing className (place ++ [name]) (path.join ⟨name⟩))) :
    FindsLeastAt tree className place path name
      (tree.findAt listing className place path name) := by
  cases hat : tree.at? (place ++ [name]) with
  | none => exact findAt_least_of_none hdirectory listing className hat
  | some node =>
      cases node with
      | file content => exact findAt_least_of_file hdirectory listing className hname hat
      | directory =>
          exact findAt_least_of_directory hdirectory listing className hname hat (hinner hat)

end

/-- The first of the names that lead to a file is that of an entry. -/
theorem Leads.exists_cons (h : Leads tree className place path names file)
    (listing : Listing tree) :
    ∃ first rest, names = first :: rest ∧ isEntryName first = true ∧
      first ∈ listing.sorted place := by
  obtain ⟨first, rest, rfl⟩ : ∃ first rest, names = first :: rest := by
    apply List.exists_cons_of_ne_nil
    rintro rfl
    simpa using h.last
  have hname := h.entries first List.mem_cons_self
  have hdirectory := FileTree.at?_of_follow_cons h.follow
  refine ⟨first, rest, rfl, hname, (mem_sorted_iff listing hdirectory).mpr ⟨hname, ?_⟩⟩
  by_cases hrest : rest = []
  · subst hrest
    obtain ⟨_, _, ⟨content, hfile⟩, _⟩ := (leads_singleton_iff hdirectory).mp h
    simp [hfile]
  · obtain ⟨_, hinner, _⟩ := (leads_cons_iff hdirectory hrest).mp h
    simp [hinner]

/-- Searching a directory finds the file that the least names lead to, whatever order its entries
and those of the directories in it are listed in. -/
theorem findBelow_least (listing : Listing tree) (className : String) (place : Place) (path : Path)
    (hdirectory : tree.at? place = some .directory) :
    FindsLeast tree className place path (tree.findBelow listing className place path) := by
  induction place, path using FileTree.findBelow.induct tree with
  | case1 place path ih =>
      have hentry : ∀ name, isEntryName name = true →
          FindsLeastAt tree className place path name
              (tree.findAt listing className place path name) :=
        fun name hname => findAt_least hdirectory listing className hname fun h => ih name h h
      rw [findBelow_eq]
      constructor
      · intro file h
        obtain ⟨name, hmem, hfound, hfirst⟩ := least_of_findSome? (pairwise_sorted listing place) h
        have hname := ((mem_sorted_iff listing hdirectory).mp hmem).1
        obtain ⟨names, hleads, hleast⟩ := (hentry name hname).least file hfound
        refine ⟨name :: names, hleads, fun others other hother => ?_⟩
        obtain ⟨first, rest, rfl, hentryName, hsorted⟩ := hother.exists_cons listing
        have hsome : tree.findAt listing className place path first ≠ none :=
          fun hnone => (hentry first hentryName).missing hnone rest other hother
        rcases lt_or_eq_of_le (hfirst first hsorted hsome) with hlt | heq
        · exact le_of_lt (List.cons_lt_cons_iff.mpr (Or.inl hlt))
        · obtain rfl := nameBytes_injective heq
          exact List.cons_le_cons _ (hleast rest other hother)
      · intro h names file hleads
        obtain ⟨first, rest, rfl, hentryName, hsorted⟩ := hleads.exists_cons listing
        have hnone := List.findSome?_eq_none_iff.mp h first hsorted
        exact (hentry first hentryName).missing hnone rest file hleads

theorem declaring?_eq (tree : FileTree) (className : String) (path : Path) :
    SourceRoots.declaring? tree className path =
      if path.fileName? = some (sourceName className) then SourceFile.declaring? tree className path
      else none := rfl

theorem read_of_declaring? (h : SourceFile.declaring? tree className path = some file) :
    SourceFile.read tree path = .ok file ∧ (file.unit.type? className).isSome := by
  unfold SourceFile.declaring? at h
  split at h
  · rename_i found hread
    obtain ⟨htype, hsame⟩ := Option.ite_none_right_eq_some.mp h
    rw [← Option.some.inj hsame]
    exact ⟨hread, htype⟩
  · cases h

/-- A file reached by entries leads down from the place of the path before them. -/
theorem follow_of_isFile (hplace : tree.place? root = .ok place)
    (hentries : ∀ name ∈ names, isEntryName name = true)
    (hfile : tree.isFile (names.foldl (fun p name => p.join ⟨name⟩) root) = true) :
    tree.follow place names = .ok (place ++ names) ∧
      ∃ content, tree.at? (place ++ names) = some (.file content) := by
  obtain ⟨hlead, hnames⟩ := foldl_join_names (p := root) hentries
  obtain ⟨reached, content, hfollow, hat⟩ := FileTree.at?_of_isFile hfile
  rw [hnames, FileTree.start_eq_of_lead hlead] at hfollow
  obtain ⟨middle, hroot, hrest⟩ := FileTree.follow_append_eq_ok.mp hfollow
  have hstart : tree.follow (tree.start root) root.names = .ok place := by
    apply FileTree.follow_leading
    unfold FileTree.place? at hplace
    split at hplace
    · cases hplace
    · exact hplace
  obtain rfl : middle = place := Except.ok.inj (hroot.symm.trans hstart)
  obtain rfl := FileTree.follow_entries hentries hrest
  exact ⟨hrest, content, hat⟩

theorem not_isFile_of_directory (hplace : tree.place? root = .ok place)
    (hdirectory : tree.at? place = some .directory) : tree.isFile root = false := by
  simp [FileTree.isFile, FileTree.node?, hplace, hdirectory, bind, Except.bind]

/-- A path that leads down from a root declares the class exactly if its names lead to a file that
does. -/
theorem declaring?_eq_some_iff (hplace : tree.place? root = .ok place)
    (hdirectory : tree.at? place = some .directory)
    (hentries : ∀ name ∈ names, isEntryName name = true) :
    SourceRoots.declaring? tree className (names.foldl (fun p name => p.join ⟨name⟩) root) =
      some file ↔
      Leads tree className place root names file := by
  have hfileName : ∀ directories last, names = directories ++ [last] →
      (names.foldl (fun p name => p.join ⟨name⟩) root).fileName? = some last := by
    rintro directories last rfl
    obtain ⟨_, hnames⟩ := foldl_join_names (p := root) hentries
    rw [← List.append_assoc] at hnames
    exact Path.fileName?_of_names hnames (FileTree.ne_up_of_isEntryName (hentries last (by simp)))
  rw [declaring?_eq, Option.ite_none_right_eq_some]
  constructor
  · rintro ⟨hname, hdeclaring⟩
    have hfile := (isFile_of_read (read_of_declaring? hdeclaring).1).1
    obtain ⟨hfollow, hregular⟩ := follow_of_isFile hplace hentries hfile
    refine ⟨hentries, ?_, hfollow, hregular, hdeclaring⟩
    rcases List.eq_nil_or_concat names with rfl | ⟨directories, last, hlast⟩
    · rw [List.foldl_nil, not_isFile_of_directory hplace hdirectory] at hfile
      cases hfile
    · rw [List.concat_eq_append] at hlast
      rw [hfileName directories last hlast] at hname
      rw [hlast, List.getLast?_concat, hname]
  · intro h
    obtain ⟨directories, hlast⟩ := List.getLast?_eq_some_iff.mp h.last
    exact ⟨hfileName directories _ hlast, h.declaring⟩

theorem pairwise_filesBelow (tree : FileTree) (place : Place) :
    (tree.filesBelow place).Pairwise fun p q => p.map nameBytes ≤ q.map nameBytes :=
  pairwise_mergeSort_key lex_nameBefore_iff _

/-- Going through the files below a root in their order finds the same. -/
theorem filesUnder_least (className : String) (hplace : tree.place? root = .ok place)
    (hdirectory : tree.at? place = some .directory) :
    FindsLeast tree className place root
      ((tree.filesUnder root).findSome? (SourceRoots.declaring? tree className)) := by
  rw [FileTree.filesUnder_eq hplace hdirectory rfl, List.findSome?_map, Function.comp_def]
  have hmem : ∀ names file, Leads tree className place root names file →
      names ∈ tree.filesBelow place := by
    intro names file h
    obtain ⟨content, hat⟩ := h.regular
    exact FileTree.mem_filesBelow hat h.entries
  constructor
  · intro file h
    obtain ⟨names, hnames, hfound, hfirst⟩ := least_of_findSome? (pairwise_filesBelow tree place) h
    have hentries := FileTree.isEntryName_of_mem_filesBelow hnames
    refine ⟨names, (declaring?_eq_some_iff hplace hdirectory hentries).mp hfound, ?_⟩
    intro others other hother
    apply hfirst others (hmem others other hother)
    rw [(declaring?_eq_some_iff hplace hdirectory hother.entries).mpr hother]
    exact Option.some_ne_none other
  · intro h names file hleads
    have hnone := List.findSome?_eq_none_iff.mp h names (hmem names file hleads)
    have hsome := (declaring?_eq_some_iff hplace hdirectory hleads.entries).mpr hleads
    rw [hsome] at hnone
    cases hnone

theorem isDirectory_iff :
    tree.isDirectory root = true ↔
      ∃ place, tree.place? root = .ok place ∧ tree.at? place = some .directory := by
  unfold FileTree.isDirectory FileTree.node?
  cases hplace : tree.place? root with
  | error e => simp [bind, Except.bind]
  | ok place =>
      cases hat : tree.at? place with
      | none => simp [bind, Except.bind, hat]
      | some node => cases node <;> simp [bind, Except.bind, hat]

theorem type?_isSome_iff {unit : CompilationUnit} :
    (unit.type? className).isSome ↔ ∃ t ∈ unit.types, t.name = className := by
  simp [CompilationUnit.type?]

theorem declaring?_of_parses (hparses : ∃ source, tree.readText file.path = .ok source ∧
      CompilationUnit.parse source = .ok file.unit)
    (hdeclares : ∃ t ∈ file.unit.types, t.name = className) :
    SourceFile.declaring? tree className file.path = some file := by
  have hread : SourceFile.read tree file.path = .ok file :=
    SourceFile.read_eq_ok_iff.mpr ⟨hparses, rfl⟩
  simp only [SourceFile.declaring?, hread, type?_isSome_iff.mpr hdeclares, if_true]

/-- Below a root that is a directory, names lead to each file that declares the class. -/
theorem declaresBelow_iff (hplace : tree.place? root = .ok place)
    (hdirectory : tree.at? place = some .directory) :
    DeclaresBelow tree className root file ↔
      ∃ names, Leads tree className place root names file := by
  constructor
  · intro h
    obtain ⟨directories, hentries, hpath⟩ := h.below
    have hdeclaring := declaring?_of_parses h.parses h.declares
    have hfile := (isFile_of_read (read_of_declaring? hdeclaring).1).1
    rw [hpath] at hdeclaring hfile
    obtain ⟨hfollow, hregular⟩ := follow_of_isFile hplace hentries hfile
    exact ⟨_, hentries, List.getLast?_concat, hfollow, hregular, hdeclaring⟩
  · rintro ⟨names, h⟩
    obtain ⟨hread, htype⟩ := read_of_declaring? h.declaring
    obtain ⟨directories, rfl⟩ := List.getLast?_eq_some_iff.mp h.last
    have hpath := (isFile_of_read hread).2.1
    refine ⟨isDirectory_iff.mpr ⟨place, hplace, hdirectory⟩, ⟨directories, h.entries, hpath⟩, ?_,
      type?_isSome_iff.mp htype⟩
    rw [hpath]
    exact (SourceFile.read_eq_ok_iff.mp hread).1

/-- Below one root, names are in the order of the paths they lead to. -/
theorem Leads.before {others : List String} {other : SourceFile}
    (h : Leads tree className place root names file)
    (hother : Leads tree className place root others other)
    (hle : names.map nameBytes ≤ others.map nameBytes) :
    other = file ∨ file.path.Before other.path := by
  have hcomponents : ∀ names file, Leads tree className place root names file →
      file.path.components = root.components ++ names := by
    intro names file h
    rw [(isFile_of_read (read_of_declaring? h.declaring).1).2.1]
    obtain ⟨hlead, hnames⟩ := foldl_join_names (p := root) h.entries
    exact Path.components_append hlead hnames
  rcases lt_or_eq_of_le hle with hlt | heq
  · apply Or.inr
    rw [Path.Before, hcomponents names file h, hcomponents others other hother, List.map_append,
      List.map_append]
    exact List.append_left_lt hlt
  · obtain rfl := List.map_injective_iff.mpr nameBytes_injective heq
    exact Or.inl (hother.unique h)

def IsLeastBelow (tree : FileTree) (className : String) (root : Path) (file : SourceFile) : Prop :=
  DeclaresBelow tree className root file ∧
    ∀ other, DeclaresBelow tree className root other → other = file ∨ file.path.Before other.path

theorem IsLeastBelow.unique {other : SourceFile} (h : IsLeastBelow tree className root file)
    (hother : IsLeastBelow tree className root other) : other = file := by
  rcases h.2 other hother.1 with heq | hbefore
  · exact heq
  · rcases hother.2 file h.1 with heq | hafter
    · exact heq.symm
    · exact absurd hafter (lt_asymm hbefore)

/-- A root that is no directory has no files. -/
theorem filesUnder_of_not_directory (h : tree.isDirectory root ≠ true) :
    tree.filesUnder root = [] := by
  rw [ne_eq, isDirectory_iff] at h
  unfold FileTree.filesUnder
  split
  · rfl
  · rename_i place hplace
    split
    · rename_i hdirectory
      exact absurd ⟨place, hplace, hdirectory⟩ h
    · rfl

/-- Below one root there is either no file that declares the class, or the one with the least path
is found. -/
theorem findUnder_cases (tree : FileTree) (className : String) (root : Path) :
    ((tree.filesUnder root).findSome? (SourceRoots.declaring? tree className) = none ∧
        ∀ file, ¬ DeclaresBelow tree className root file) ∨
      ∃ file, (tree.filesUnder root).findSome? (SourceRoots.declaring? tree className) = some file ∧
        IsLeastBelow tree className root file := by
  by_cases hroot : tree.isDirectory root = true
  · obtain ⟨place, hplace, hdirectory⟩ := isDirectory_iff.mp hroot
    have hleast := filesUnder_least className hplace hdirectory
    cases hfound : (tree.filesUnder root).findSome? (SourceRoots.declaring? tree className) with
    | none =>
        refine Or.inl ⟨rfl, fun file hfile => ?_⟩
        obtain ⟨names, hleads⟩ := (declaresBelow_iff hplace hdirectory).mp hfile
        exact hleast.missing hfound names file hleads
    | some file =>
        obtain ⟨names, hleads, hmin⟩ := hleast.least file hfound
        refine Or.inr ⟨file, rfl, (declaresBelow_iff hplace hdirectory).mpr ⟨names, hleads⟩, ?_⟩
        intro other hother
        obtain ⟨others, hleads'⟩ := (declaresBelow_iff hplace hdirectory).mp hother
        exact hleads.before hleads' (hmin others other hleads')
  · rw [filesUnder_of_not_directory hroot]
    exact Or.inl ⟨rfl, fun file hfile => hroot hfile.directory⟩

theorem findUnder_eq_some_iff :
    (tree.filesUnder root).findSome? (SourceRoots.declaring? tree className) = some file ↔
      IsLeastBelow tree className root file := by
  rcases findUnder_cases tree className root with ⟨hfound, hmissing⟩ | ⟨found, hfound, hleast⟩
  · rw [hfound]
    exact iff_of_false (by simp) fun h => hmissing file h.1
  · rw [hfound, Option.some.injEq]
    constructor
    · rintro rfl
      exact hleast
    · exact fun h => h.unique hleast

theorem findUnder_eq_none_iff :
    (tree.filesUnder root).findSome? (SourceRoots.declaring? tree className) = none ↔
      ∀ file, ¬ DeclaresBelow tree className root file := by
  rcases findUnder_cases tree className root with ⟨hfound, hmissing⟩ | ⟨found, hfound, hleast⟩
  · exact iff_of_true hfound hmissing
  · rw [hfound]
    exact iff_of_false (by simp) fun h => h found hleast.1

/-- Searching the roots directory by directory finds what going through their files finds. -/
theorem searchClass?_eq (roots : SourceRoots) (tree : FileTree) (listing : Listing tree)
    (className : String) :
    roots.searchClass? tree listing className = roots.findClass? tree className := by
  unfold SourceRoots.searchClass? SourceRoots.findClass?
  refine findSome?_congr fun root _ => ?_
  by_cases hroot : tree.isDirectory root = true
  · obtain ⟨place, hplace, hdirectory⟩ := isDirectory_iff.mp hroot
    simp only [hplace, hdirectory]
    exact (findBelow_least listing className place root hdirectory).unique
      (filesUnder_least className hplace hdirectory)
  · rw [filesUnder_of_not_directory hroot, List.findSome?_nil]
    rw [isDirectory_iff] at hroot
    split
    · rfl
    · rename_i place hplace
      split
      · rename_i hdirectory
        exact absurd ⟨place, hplace, hdirectory⟩ hroot
      · rfl

/-- A class is found at the least path. The file found for a class is, of the files that declare it
below the first root that has any, the one whose path comes first in the order of bytes, with what
it parses to; none is found exactly if no root has such a file. A search that goes through the
directories finds the same file whatever order their entries are listed in, and no file that does
not declare the class makes a difference. -/
theorem class_at_least_path (roots : SourceRoots) (tree : FileTree) (className : String) :
    (∀ file, roots.findClass? tree className = some file ↔
      ∃ earlier root later, roots.roots = earlier ++ root :: later ∧
        DeclaresBelow tree className root file ∧
        (∀ other, DeclaresBelow tree className root other →
          other = file ∨ file.path.Before other.path) ∧
        ∀ above ∈ earlier, ∀ other, ¬ DeclaresBelow tree className above other) ∧
    (roots.findClass? tree className = none ↔
      ∀ root ∈ roots.roots, ∀ file, ¬ DeclaresBelow tree className root file) ∧
    (∀ listing : Listing tree,
      roots.searchClass? tree listing className = roots.findClass? tree className) ∧
    ∀ other : FileTree, (∀ root ∈ roots.roots, ∀ file,
        DeclaresBelow other className root file ↔ DeclaresBelow tree className root file) →
      roots.findClass? other className = roots.findClass? tree className := by
  refine ⟨fun file => ?_, ?_, fun listing => searchClass?_eq roots tree listing className, ?_⟩
  · rw [SourceRoots.findClass?, List.findSome?_eq_some_iff]
    simp only [findUnder_eq_some_iff, findUnder_eq_none_iff, IsLeastBelow, and_assoc]
  · rw [SourceRoots.findClass?, List.findSome?_eq_none_iff]
    simp only [findUnder_eq_none_iff]
  · intro other hsame
    refine findSome?_congr fun root hroot => Option.ext fun file => ?_
    rw [findUnder_eq_some_iff, findUnder_eq_some_iff, IsLeastBelow, IsLeastBelow]
    simp only [hsame root hroot]

end WireMapper
