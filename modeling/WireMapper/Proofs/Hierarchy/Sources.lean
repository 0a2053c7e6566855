import WireMapper.Proofs.FileTree.Follow
import WireMapper.Proofs.Hierarchy.Ascent
import WireMapper.Proofs.Java.Parser.Names

/-!
Every file that a walk enters lies below a source root. A path reaches below a root when it has the
root's lead and names and then names that a directory can hold. Dotted names and siblings of such a
path reach below a root again, whatever the source says, so the paths that a walk can enter are
among the finitely many sources.
-/

namespace WireMapper

open Java (CompilationUnit IsIdentifier IsQualified)
open FileTree (isEntryName)

/-- The path leads below one of the roots by names that a directory can hold. -/
def SourceRoots.Reaches (roots : SourceRoots) (p : Path) : Prop :=
  ∃ root ∈ roots.roots, ∃ names, names ≠ [] ∧ p.lead = root.lead ∧
    p.names = root.names ++ names ∧ ∀ name ∈ names, isEntryName name = true

variable {roots : SourceRoots} {tree : FileTree} {root p : Path}

theorem isEntryName_of_isName {name : String} (h : Path.IsName name) (hup : name ≠ "..") :
    isEntryName name = true := by
  simp [isEntryName, h.leads, hup, h.noSlash]

/-- An identifier holds no slash and is no dot, so a directory can hold it as a name. -/
theorem isEntryName_of_isIdentifier {name : String} (h : IsIdentifier name) :
    isEntryName name = true := by
  apply isEntryName_of_isName
  · refine ⟨?_, h.not_mem (by decide)⟩
    have hdot : name ≠ "." := by
      rintro rfl
      exact h.noDot (by decide)
    simp [Path.isVoid, h.ne_empty, hdot]
  · rintro rfl
    exact h.noDot (by decide)

/-- The file name of a class is a name. -/
theorem isEntryName_sourceName {name : String} (h : '/' ∉ name.toList) :
    isEntryName (sourceName name) = true := by
  have hchars : (sourceName name).toList = name.toList ++ ['.', 'j', 'a', 'v', 'a'] := by
    simp [sourceName]
  have hlength : 5 ≤ (sourceName name).toList.length := by
    rw [hchars, List.length_append]
    exact Nat.le_add_left _ _
  have hlong : ∀ other : String, other.toList.length < 5 → sourceName name ≠ other := by
    rintro other hshort rfl
    omega
  refine isEntryName_of_isName ⟨?_, ?_⟩ (hlong ".." (by decide))
  · simp [Path.isVoid, hlong "" (by decide), hlong "." (by decide)]
  · rw [hchars]
    simpa using h

theorem not_mem_of_isQualified {name : String} {c : Char} (h : IsQualified name) (hdot : c ≠ '.')
    (hc : Java.isIdentPart c = false) : c ∉ name.toList := by
  intro hmem
  rw [← Text.join_split '.' name, Text.join, String.toList_ofList] at hmem
  rcases Text.eq_or_mem_of_mem_joinChars hmem with heq | ⟨piece, hpiece, hmem⟩
  · exact hdot heq
  · obtain ⟨segment, hsegment, rfl⟩ := List.mem_map.mp hpiece
    exact (h segment hsegment).not_mem hc hmem

/-- Joining names one after another leads down by these names. -/
theorem foldl_join_names {names : List String} (hnames : ∀ name ∈ names, isEntryName name = true) :
    (names.foldl (fun path name => path.join ⟨name⟩) p).lead = p.lead ∧
      (names.foldl (fun path name => path.join ⟨name⟩) p).names = p.names ++ names := by
  induction names generalizing p with
  | nil => simp
  | cons name names ih =>
      obtain ⟨hlead, hjoined⟩ :=
        Path.join_name (p := p) (FileTree.isName_of_isEntryName (hnames name (by simp)))
      have hrest := ih (p := p.join ⟨name⟩) fun other hother => hnames other (by simp [hother])
      rw [List.foldl_cons, hrest.1, hrest.2, hlead, hjoined]
      simp

theorem stem_of_isIdentifier {name : String} (h : IsIdentifier name) : Path.stem name = name := by
  simp [Path.stem, Text.split_of_not_mem h.noDot]

/-- The file of a dotted name is reached from the root by a directory for each package, and is named
for the last segment. -/
theorem qualifiedPath_names {name simple : String} {packages : List String}
    (hname : IsQualified name) (hsplit : Text.split '.' name = packages ++ [simple]) :
    (qualifiedPath root name).lead = root.lead ∧
      (qualifiedPath root name).names = root.names ++ (packages ++ [sourceName simple]) := by
  unfold IsQualified at hname
  rw [hsplit] at hname
  have hsimple := hname simple (by simp)
  have hentries : ∀ segment ∈ packages ++ [simple], isEntryName segment = true := fun segment h =>
    isEntryName_of_isIdentifier (hname segment h)
  obtain ⟨hlead, hnames⟩ := foldl_join_names (p := root) hentries
  rw [← List.append_assoc] at hnames
  have hsource : Path.stem simple ++ "." ++ "java" = sourceName simple := by
    rw [stem_of_isIdentifier hsimple, String.append_assoc]
    rfl
  obtain ⟨hlead', hnames'⟩ := @Path.withExtension_of_names _ _ _ "java" hnames
    (FileTree.ne_up_of_isEntryName (hentries simple (by simp)))
    (by rw [hsource]
        exact FileTree.isName_of_isEntryName (isEntryName_sourceName (hsimple.not_mem (by decide))))
  constructor
  · rw [qualifiedPath, hsplit, hlead', hlead]
  · rw [qualifiedPath, hsplit, hnames', hsource, List.append_assoc]

theorem exists_split (name : String) :
    ∃ packages simple, Text.split '.' name = packages ++ [simple] :=
  ⟨_, _, (List.dropLast_concat_getLast (Text.split_ne_nil '.' name)).symm⟩

/-- The file of a dotted name lies below the root. -/
theorem reaches_qualifiedPath {name : String} (hroot : root ∈ roots.roots)
    (hname : IsQualified name) : roots.Reaches (qualifiedPath root name) := by
  obtain ⟨packages, simple, hsplit⟩ := exists_split name
  obtain ⟨hlead, hnames⟩ := @qualifiedPath_names root _ _ _ hname hsplit
  refine ⟨root, hroot, packages ++ [sourceName simple], by simp, hlead, hnames, ?_⟩
  unfold IsQualified at hname
  rw [hsplit] at hname
  intro segment hsegment
  rcases List.mem_append.mp hsegment with hsegment | hsegment
  · exact isEntryName_of_isIdentifier (hname segment (by simp [hsegment]))
  · rw [List.mem_singleton.mp hsegment]
    exact isEntryName_sourceName ((hname simple (by simp)).not_mem (by decide))

/-- A file beside one below a root lies below that root. -/
theorem reaches_sibling {name : String} (h : roots.Reaches p) (hname : isEntryName name = true) :
    roots.Reaches ((Hierarchy.directoryOf p).join ⟨name⟩) := by
  obtain ⟨root, hroot, names, hne, hlead, hnames, hentries⟩ := h
  obtain ⟨packages, last, rfl⟩ : ∃ packages last, names = packages ++ [last] :=
    ⟨_, _, (List.dropLast_concat_getLast hne).symm⟩
  rw [← List.append_assoc] at hnames
  obtain ⟨directory, hparent, hlead', hnames'⟩ := Path.parent?_of_names hnames
  obtain ⟨hlead'', hnames''⟩ :=
    Path.join_name (p := directory) (FileTree.isName_of_isEntryName hname)
  rw [Hierarchy.directoryOf, hparent, Option.getD_some]
  refine ⟨root, hroot, packages ++ [name], by simp, ?_, ?_, ?_⟩
  · rw [hlead'', hlead', hlead]
  · rw [hnames'', hnames', List.append_assoc]
  · intro segment hsegment
    rcases List.mem_append.mp hsegment with hsegment | hsegment
    · exact hentries segment (List.mem_append_left _ hsegment)
    · rw [List.mem_singleton.mp hsegment]
      exact hname

/-- Wherever a superclass is found, its file lies below a root. -/
theorem reaches_of_findSuperclass? {unit : CompilationUnit} {superclass : String} {found : Path}
    (hunit : unit.IsNamed) (hsuper : IsQualified superclass) (hp : roots.Reaches p)
    (h : roots.findSuperclass? tree unit superclass (Hierarchy.directoryOf p) = some found) :
    roots.Reaches found ∧ tree.isFile found = true := by
  obtain ⟨root, hroot, h⟩ := List.exists_of_findSome?_eq_some h
  obtain ⟨hcandidate, hfile⟩ := Option.filter_eq_some_iff.mp h
  refine ⟨?_, hfile⟩
  unfold SourceRoots.superclassCandidate? at hcandidate
  split at hcandidate
  · rename_i imported himport
    rw [← Option.some.inj hcandidate]
    exact reaches_qualifiedPath hroot (hunit.import? himport)
  dsimp only at hcandidate
  split at hcandidate
  · rename_i hpackage
    rw [← Option.some.inj hcandidate]
    obtain ⟨hpath, _⟩ := Option.filter_eq_some_iff.mp hpackage
    obtain ⟨package, hsome, rfl⟩ := Option.map_eq_some_iff.mp hpath
    exact reaches_qualifiedPath hroot ((hunit.package package hsome).append hsuper)
  split at hcandidate
  · rw [← Option.some.inj hcandidate]
    exact reaches_sibling hp
      (isEntryName_sourceName (not_mem_of_isQualified hsuper (by decide) (by decide)))
  split at hcandidate
  · rw [← Option.some.inj hcandidate]
    exact reaches_qualifiedPath hroot hsuper
  · cases hcandidate

/-- A file that was read is a regular file, and what it refers to are dotted names. -/
theorem isFile_of_read {file : SourceFile} (h : SourceFile.read tree p = .ok file) :
    tree.isFile p = true ∧ file.path = p ∧ file.unit.IsNamed := by
  obtain ⟨⟨source, hsource, hunit⟩, hpath⟩ := SourceFile.read_eq_ok_iff.mp h
  refine ⟨?_, hpath, CompilationUnit.isNamed_of_parse hunit⟩
  unfold FileTree.isFile
  cases hnode : tree.node? p with
  | error e => simp [FileTree.readText, FileTree.readBytes, hnode, bind, Except.bind] at hsource
  | ok node =>
      cases node with
      | file content => rfl
      | directory =>
          simp [FileTree.readText, FileTree.readBytes, hnode, bind, Except.bind] at hsource

/-- The files that a walk through a root comes by lie below that root. -/
theorem reaches_of_mem_filesUnder (hroot : root ∈ roots.roots) (h : p ∈ tree.filesUnder root)
    (hfile : tree.isFile p = true) : roots.Reaches p := by
  unfold FileTree.filesUnder at h
  split at h
  · cases h
  rename_i place hplace
  split at h
  · rename_i hdirectory
    obtain ⟨names, hnames, rfl⟩ := List.mem_map.mp h
    have hentries := FileTree.isEntryName_of_mem_filesBelow hnames
    obtain ⟨hlead, hjoined⟩ := foldl_join_names (p := root) hentries
    refine ⟨root, hroot, names, ?_, hlead, hjoined, hentries⟩
    -- Without names the path is the root, where a directory stands.
    rintro rfl
    simp [FileTree.isFile, FileTree.node?, hplace, hdirectory, bind, Except.bind] at hfile
  · cases h

/-- Files below the roots are sources. -/
theorem components_mem_sources (h : roots.Reaches p) (hfile : tree.isFile p = true) :
    p.components ∈ roots.sources tree := by
  obtain ⟨root, hroot, names, hne, hlead, hnames, hentries⟩ := h
  obtain ⟨place, hfollow, hlisted⟩ := FileTree.listed_of_isFile hlead hnames hne hentries hfile
  unfold SourceRoots.sources
  rw [List.mem_flatMap]
  refine ⟨root, hroot, ?_⟩
  rw [hfollow, Path.components_append hlead hnames]
  exact List.mem_map_of_mem hlisted

namespace Hierarchy

/-- A visit below the source roots: its path is a file there, and its unit refers to other files by
dotted names. -/
structure Visit.Located (roots : SourceRoots) (tree : FileTree) (v : Visit) : Prop where
  reaches : roots.Reaches v.file.path
  isFile : tree.isFile v.file.path = true
  isNamed : v.file.unit.IsNamed

theorem Visit.Located.place_mem {v : Visit} (h : v.Located roots tree) :
    v.place ∈ roots.sources tree :=
  components_mem_sources h.reaches h.isFile

/-- A class is found below a root. -/
theorem located_of_findClass? {className : String} {file : SourceFile}
    (h : roots.findClass? tree className = some file) :
    Visit.Located roots tree ⟨file, className⟩ := by
  obtain ⟨root, hroot, h⟩ := List.exists_of_findSome?_eq_some h
  obtain ⟨path, hpath, h⟩ := List.exists_of_findSome?_eq_some h
  obtain ⟨-, hread, -⟩ := SourceRoots.declaring?_eq_some h
  obtain ⟨hfile, rfl, hnamed⟩ := isFile_of_read hread
  exact ⟨reaches_of_mem_filesUnder hroot hpath hfile, hfile, hnamed⟩

/-- Going up from a file below the roots leads to a file below the roots. -/
theorem Visit.Located.ascent {v w : Visit} {link : Link} (h : v.Located roots tree)
    (hlink : v.link? = some link) (hascent : link.ascent? roots tree = some w) :
    w.Located roots tree := by
  obtain ⟨hpath, hunit, htype⟩ := Visit.link?_eq_some hlink
  obtain ⟨superclass, path, hsuper, hfound, hread, _⟩ := Link.ascent?_eq_some hascent
  rw [hpath, hunit] at hfound
  have hmem : link.decl ∈ v.file.unit.types := List.mem_of_find?_eq_some htype
  obtain ⟨hreaches, hfile⟩ := reaches_of_findSuperclass? h.isNamed
    (h.isNamed.superclasses _ hmem _ hsuper) h.reaches hfound
  obtain ⟨_, hsame, hnamed⟩ := isFile_of_read hread
  exact ⟨hsame ▸ hreaches, hsame ▸ hfile, hnamed⟩

end Hierarchy

end WireMapper
