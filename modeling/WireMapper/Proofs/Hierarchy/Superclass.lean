import WireMapper.Proofs.FirstFound
import WireMapper.Proofs.Hierarchy.Sources
import WireMapper.Proofs.Java.Parser.Brackets
import WireMapper.Proofs.Java.Print.Parsing

/-!
Where the file of a superclass is found. A single-type import of the superclass's name decides
alone: the first root with a file at the imported path has it, whatever stands elsewhere. Without
one there are three rules, and the roots come before the rules: the first root in which any of the
rules finds a file gives the file, by the strongest of the rules that find one there.
-/

namespace WireMapper

open Java (CompilationUnit IsQualified)

namespace Java

/-- The import is of a single type, and so gives its path a simple name: the path's last segment. -/
structure Import.Names (i : Import) (simple path : String) : Prop where
  single : i.isStatic = false ∧ i.isWildcard = false
  path_eq : i.path = path
  simple_eq : ∃ packages, Text.split '.' path = packages ++ [simple]

/-- A single-type import of the unit binds the simple name to the path. Of two that name it the
first one counts. -/
def CompilationUnit.Binds (unit : CompilationUnit) (simple path : String) : Prop :=
  FirstIn unit.imports (fun i q => i.Names simple q) path

theorem Import.simpleName?_eq_some_iff {i : Import} {simple : String} :
    i.simpleName? = some simple ↔ i.Names simple i.path := by
  have hlast : (Text.split '.' i.path).getLast? = some simple ↔
      ∃ packages, Text.split '.' i.path = packages ++ [simple] := List.getLast?_eq_some_iff
  unfold Import.simpleName?
  constructor
  · intro h
    split at h
    · cases h
    · rename_i hsingle
      exact ⟨by simpa [and_comm] using hsingle, rfl, hlast.mp h⟩
  · rintro ⟨⟨hstatic, hwildcard⟩, _, hsimple⟩
    simpa [hstatic, hwildcard] using hlast.mpr hsimple

/-- The import that counts is the first of a single type with that simple name. -/
theorem CompilationUnit.import?_eq_some_iff {unit : CompilationUnit} {simple path : String} :
    unit.import? simple = some path ↔ unit.Binds simple path := by
  have hfind : unit.import? simple = unit.imports.findSome? fun i =>
      if i.simpleName? = some simple then some i.path else none := by
    rw [CompilationUnit.import?]
    induction unit.imports with
    | nil => rfl
    | cons i is ih => by_cases hi : i.simpleName? = some simple <;> simp [hi, ih]
  rw [hfind, CompilationUnit.Binds]
  refine findSome?_eq_some_iff_firstIn fun i _ q => ?_
  rw [Option.ite_none_right_eq_some, Import.simpleName?_eq_some_iff, Option.some.injEq]
  constructor
  · rintro ⟨h, rfl⟩
    exact h
  · intro h
    obtain rfl := h.path_eq
    exact ⟨h, rfl⟩

end Java

/-- The rules by which a superclass that no import binds is looked for below a root. -/
inductive LookupRule where
  | samePackage
  | sameDirectory
  | dottedName
deriving DecidableEq

def LookupRule.inOrder : List LookupRule :=
  [samePackage, sameDirectory, dottedName]

/-- The path at which a rule looks for the superclass below a root. The directory of the referencing
file counts only for a root that it lies in, and the name itself only if it is dotted. -/
inductive LookupRule.LooksAt (unit : CompilationUnit) (superclass : String)
    (directory root : Path) :
    LookupRule → Path → Prop where
  | samePackage {package : String} (h : unit.package? = some package) :
      LooksAt unit superclass directory root .samePackage
        (qualifiedPath root (package ++ "." ++ superclass))
  | sameDirectory (h : root.components <+: directory.components) :
      LooksAt unit superclass directory root .sameDirectory (directory.join ⟨sourceName superclass⟩)
  | dottedName (h : '.' ∈ superclass.toList) :
      LooksAt unit superclass directory root .dottedName (qualifiedPath root superclass)

def LookupRule.Finds (tree : FileTree) (unit : CompilationUnit) (superclass : String)
    (directory root : Path) (rule : LookupRule) (p : Path) : Prop :=
  rule.LooksAt unit superclass directory root p ∧ tree.isFile p = true

variable {roots : SourceRoots} {tree : FileTree} {unit : CompilationUnit} {superclass : String}
  {directory root p : Path}

def LookupRule.path? (unit : CompilationUnit) (superclass : String) (directory root : Path) :
    LookupRule → Option Path
  | samePackage => unit.package?.map fun package =>
      qualifiedPath root (package ++ "." ++ superclass)
  | sameDirectory =>
      if directory.isWithin root then some (directory.join ⟨sourceName superclass⟩) else none
  | dottedName => if '.' ∈ superclass.toList then some (qualifiedPath root superclass) else none

/-- Each rule looks at one path at most. -/
theorem LookupRule.path?_eq_some_iff {rule : LookupRule} :
    rule.path? unit superclass directory root = some p ↔
      rule.LooksAt unit superclass directory root p := by
  constructor
  · intro h
    cases rule with
    | samePackage =>
        obtain ⟨package, hpackage, rfl⟩ := Option.map_eq_some_iff.mp h
        exact .samePackage hpackage
    | sameDirectory =>
        obtain ⟨hwithin, hpath⟩ := Option.ite_none_right_eq_some.mp h
        rw [← Option.some.inj hpath]
        exact .sameDirectory (List.isPrefixOf_iff_prefix.mp hwithin)
    | dottedName =>
        obtain ⟨hdot, hpath⟩ := Option.ite_none_right_eq_some.mp h
        rw [← Option.some.inj hpath]
        exact .dottedName hdot
  · rintro (hpackage | hwithin | hdot)
    · simp [path?, hpackage]
    · simp [path?, Path.isWithin, List.isPrefixOf_iff_prefix.mpr hwithin]
    · simp [path?, hdot]

/-- Without an import, the file in a root is that of the first rule which finds one. -/
theorem filter_superclassCandidate? (himport : unit.import? superclass = none) :
    (SourceRoots.superclassCandidate? tree unit superclass directory root).filter tree.isFile =
      LookupRule.inOrder.findSome? fun rule =>
        (rule.path? unit superclass directory root).filter tree.isFile := by
  rw [LookupRule.inOrder, List.findSome?_cons, List.findSome?_cons, List.findSome?_singleton]
  unfold SourceRoots.superclassCandidate?
  simp only [himport, LookupRule.path?]
  cases hpackage : (unit.package?.map fun package =>
      qualifiedPath root (package ++ "." ++ superclass)).filter tree.isFile with
  | some path =>
      obtain ⟨_, hfile⟩ := Option.filter_eq_some_iff.mp hpackage
      simp only [Option.filter_some, hfile, if_true]
  | none =>
      by_cases hwithin : directory.isWithin root = true
      · by_cases hsibling : tree.isFile (directory.join ⟨sourceName superclass⟩) = true
        · simp [Option.filter_some, hwithin, hsibling]
        · simp [Option.filter_some, hwithin, hsibling]
      · simp [hwithin]

/-- With an import, the superclass's file in a root is the one at the imported path, if there is
one. -/
theorem findSuperclass?_of_import {imported : String}
    (himport : unit.import? superclass = some imported) :
    roots.findSuperclass? tree unit superclass directory =
      roots.roots.findSome? fun root =>
        (some (qualifiedPath root imported)).filter tree.isFile := by
  unfold SourceRoots.findSuperclass? SourceRoots.superclassCandidate?
  rw [himport]

theorem filter_isFile_eq_some_iff {q : Path} :
    (some q).filter tree.isFile = some p ↔ p = q ∧ tree.isFile p = true := by
  rw [Option.filter_eq_some_iff, Option.some.injEq, eq_comm (a := q)]

theorem LookupRule.filter_path?_eq_some_iff {rule : LookupRule} :
    (rule.path? unit superclass directory root).filter tree.isFile = some p ↔
      rule.Finds tree unit superclass directory root p := by
  rw [Option.filter_eq_some_iff, LookupRule.path?_eq_some_iff, LookupRule.Finds]

/-- What the rules find below a root when no import decides. -/
theorem filter_superclassCandidate?_eq_some_iff (himport : unit.import? superclass = none) :
    (SourceRoots.superclassCandidate? tree unit superclass directory root).filter tree.isFile =
      some p ↔
      FirstIn LookupRule.inOrder (LookupRule.Finds tree unit superclass directory root) p := by
  rw [filter_superclassCandidate? himport]
  exact findSome?_eq_some_iff_firstIn fun _ _ _ => LookupRule.filter_path?_eq_some_iff

theorem exists_firstIn_iff :
    (∃ q, FirstIn LookupRule.inOrder (LookupRule.Finds tree unit superclass directory root) q) ↔
      ∃ rule, ∃ q, LookupRule.Finds tree unit superclass directory root rule q := by
  have hfinds : ∀ rule ∈ LookupRule.inOrder, ∀ q,
      (rule.path? unit superclass directory root).filter tree.isFile = some q ↔
        rule.Finds tree unit superclass directory root q :=
    fun _ _ _ => LookupRule.filter_path?_eq_some_iff
  constructor
  · rintro ⟨q, _, rule, _, _, hfound, _⟩
    exact ⟨rule, q, hfound⟩
  · rintro ⟨rule, q, hfound⟩
    have hrule : rule ∈ LookupRule.inOrder := by cases rule <;> decide
    have hsome : LookupRule.inOrder.findSome? (fun rule =>
        (rule.path? unit superclass directory root).filter tree.isFile) ≠ none := by
      rw [ne_eq, findSome?_eq_none_iff_forall hfinds]
      exact fun hnone => hnone rule hrule q hfound
    obtain ⟨first, hfirst⟩ := Option.ne_none_iff_exists'.mp hsome
    exact ⟨first, (findSome?_eq_some_iff_firstIn hfinds).mp hfirst⟩

/-- The path is that of a dotted name below a root: a directory for each package, and in them a
source file with the name of the last segment. -/
def IsSourceOf (root : Path) (name : String) (p : Path) : Prop :=
  ∃ packages simple, Text.split '.' name = packages ++ [simple] ∧
    p.components = root.components ++ (packages ++ [simple ++ ".java"])

/-- The path that is made of a dotted name is that of its source file. -/
theorem isSourceOf_qualifiedPath {name : String} (h : IsQualified name) :
    IsSourceOf root name (qualifiedPath root name) := by
  obtain ⟨packages, simple, hsplit⟩ := exists_split name
  obtain ⟨hlead, hnames⟩ := @qualifiedPath_names root _ _ _ h hsplit
  exact ⟨packages, simple, hsplit, Path.components_append hlead hnames⟩

theorem components_sibling (h : IsQualified superclass) :
    (directory.join ⟨sourceName superclass⟩).components =
      directory.components ++ [superclass ++ ".java"] := by
  have hname := isEntryName_sourceName (not_mem_of_isQualified h (by decide) (by decide))
  obtain ⟨hlead, hnames⟩ := @Path.join_name directory _ (FileTree.isName_of_isEntryName hname)
  exact Path.components_append hlead hnames

/-- With an import, only files at the imported path matter. -/
theorem findSuperclass?_congr_of_import {imported : String} {other : FileTree} {elsewhere : Path}
    (himport : unit.import? superclass = some imported)
    (hsame : ∀ root ∈ roots.roots,
      other.isFile (qualifiedPath root imported) = tree.isFile (qualifiedPath root imported)) :
    roots.findSuperclass? other unit superclass elsewhere =
      roots.findSuperclass? tree unit superclass directory := by
  rw [findSuperclass?_of_import himport, findSuperclass?_of_import himport]
  refine findSome?_congr fun root hroot => ?_
  rw [Option.filter_some, Option.filter_some, hsame root hroot]

/-- Imports are decisive, and roots come before rules. If a single-type import binds the
superclass's name, its file is the one at the imported path in the first root that has it, and no
file at another path and no other directory of the referencing file makes a difference. Otherwise
its file is in the first root below which any rule finds one, by the first of the rules that does.
Where no root has such a file, none is found. The paths are those of the imported name, of the name
in the unit's package, of the name itself, and of its file in the directory. -/
theorem imports_decide_then_roots (roots : SourceRoots) (tree : FileTree)
    {source superclass : String} {unit : CompilationUnit} (directory : Path)
    (hparse : CompilationUnit.parse source = .ok unit) (hextends : unit.Extends superclass) :
    (∀ imported, unit.Binds superclass imported →
      (∀ p, roots.findSuperclass? tree unit superclass directory = some p ↔
        FirstIn roots.roots
          (fun root q => q = qualifiedPath root imported ∧ tree.isFile q = true) p) ∧
      (roots.findSuperclass? tree unit superclass directory = none ↔
        ∀ root ∈ roots.roots, tree.isFile (qualifiedPath root imported) = false) ∧
      ∀ (other : FileTree) (elsewhere : Path),
        (∀ root ∈ roots.roots, other.isFile (qualifiedPath root imported) =
          tree.isFile (qualifiedPath root imported)) →
        roots.findSuperclass? other unit superclass elsewhere =
          roots.findSuperclass? tree unit superclass directory) ∧
    ((∀ imported, ¬ unit.Binds superclass imported) →
      (∀ p, roots.findSuperclass? tree unit superclass directory = some p ↔
        FirstIn roots.roots (fun root q => FirstIn LookupRule.inOrder
          (LookupRule.Finds tree unit superclass directory root) q) p) ∧
      (roots.findSuperclass? tree unit superclass directory = none ↔
        ∀ root ∈ roots.roots, ∀ rule q,
          ¬ LookupRule.Finds tree unit superclass directory root rule q)) ∧
    (∀ root name, unit.Binds superclass name ∨
        (∃ package, unit.package? = some package ∧ name = package ++ "." ++ superclass) ∨
        name = superclass →
      IsSourceOf root name (qualifiedPath root name)) ∧
    (directory.join ⟨sourceName superclass⟩).components =
      directory.components ++ [superclass ++ ".java"] := by
  have hnamed := CompilationUnit.isNamed_of_parse hparse
  have hsuper := CompilationUnit.isQualified_of_extends hparse hextends
  refine ⟨fun imported hbinds => ?_, fun hunbound => ?_, fun root name hname => ?_,
    components_sibling hsuper⟩
  · have himport := CompilationUnit.import?_eq_some_iff.mpr hbinds
    refine ⟨fun p => ?_, ?_, fun other elsewhere => findSuperclass?_congr_of_import himport⟩
    · rw [findSuperclass?_of_import himport]
      exact findSome?_eq_some_iff_firstIn fun _ _ _ => filter_isFile_eq_some_iff
    · rw [findSuperclass?_of_import himport, List.findSome?_eq_none_iff]
      simp only [Option.filter_eq_none_iff, Option.some.injEq, forall_eq', Bool.not_eq_true]
  · have himport : unit.import? superclass = none :=
      Option.eq_none_iff_forall_ne_some.mpr fun imported h =>
        hunbound imported (CompilationUnit.import?_eq_some_iff.mp h)
    have hfound : ∀ root ∈ roots.roots, ∀ q,
        (SourceRoots.superclassCandidate? tree unit superclass directory root).filter tree.isFile =
          some q ↔
              FirstIn LookupRule.inOrder (LookupRule.Finds tree unit superclass directory root) q :=
      fun root _ q => filter_superclassCandidate?_eq_some_iff himport
    refine ⟨fun p => findSome?_eq_some_iff_firstIn hfound, ?_⟩
    refine (findSome?_eq_none_iff_forall hfound).trans (forall₂_congr fun root _ => ?_)
    rw [← not_exists, exists_firstIn_iff]
    simp only [not_exists]
  · refine isSourceOf_qualifiedPath ?_
    rcases hname with hbinds | ⟨package, hpackage, rfl⟩ | rfl
    · exact hnamed.import? (CompilationUnit.import?_eq_some_iff.mpr hbinds)
    · exact (hnamed.package package hpackage).append hsuper
    · exact hsuper

/-- A class that extends an imported class, with a class in it that extends one by its bare name. -/
def outerUnit : CompilationUnit where
  package? := some "p"
  imports := [⟨"q.S", false, false⟩]
  types := [⟨"A", .class_, some "S", [], [⟨"B", .class_, some "T", [], []⟩]⟩]

theorem outerUnit_wellFormed : outerUnit.WellFormed where
  package := by
    rintro _ ⟨⟩
    decide
  imports := by decide
  types := by
    have hinner : Java.TypeDecl.WellFormed ⟨"B", .class_, some "T", [], []⟩ :=
      ⟨_, _, _, _, _, by decide, by decide, by decide, by simp⟩
    intro t ht
    obtain rfl := List.mem_singleton.mp ht
    exact ⟨_, _, _, _, _, by decide, by decide, by decide, by simpa using hinner⟩

theorem parse_outerUnit :
    CompilationUnit.parse
      "package p; import q.S; class A extends S \x7b class B extends T \x7b \x7d \x7d" =
        .ok outerUnit := by
  have hscan : Java.scan
      "package p; import q.S; class A extends S \x7b class B extends T \x7b \x7d \x7d" =
        .ok (Java.placed outerUnit.tokens) := by decide +kernel
  simp only [CompilationUnit.parse, hscan, 
    Java.compilationUnit_of_words outerUnit_wellFormed (Java.words_placed _)]

def lookupTree : FileTree where
  nodes :=
    [(["r1"], .directory), (["r1", "p"], .directory), (["r1", "x"], .directory),
      (["r2"], .directory), (["r2", "p"], .directory), (["r2", "q"], .directory),
      (["r1", "p", "S.java"], .file ByteArray.empty),
      (["r2", "q", "S.java"], .file ByteArray.empty),
      (["r1", "x", "T.java"], .file ByteArray.empty),
      (["r2", "p", "T.java"], .file ByteArray.empty)]

/-- The imported class is found in the second root, for all that the package has a file in the
first. The other class is found beside the referencing file, since the package has its file only in
the second root. -/
theorem imports_decide_then_roots_outerUnit :
    outerUnit.Extends "S" ∧ outerUnit.Extends "T" ∧
      SourceRoots.findSuperclass? ⟨[⟨"r1"⟩, ⟨"r2"⟩]⟩ lookupTree outerUnit "S" ⟨"r1/x"⟩ =
        some ⟨"r2/q/S.java"⟩ ∧
      SourceRoots.findSuperclass? ⟨[⟨"r1"⟩, ⟨"r2"⟩]⟩ lookupTree outerUnit "T" ⟨"r1/x"⟩ =
        some ⟨"r1/x/T.java"⟩ := by
  have hS : outerUnit.Extends "S" := ⟨_, List.mem_singleton_self _, _, .self _, rfl⟩
  have hT : outerUnit.Extends "T" :=
    ⟨_, List.mem_singleton_self _, _, .nested (List.mem_singleton_self _) (.self _), rfl⟩
  obtain ⟨hbound, _, _, _⟩ := imports_decide_then_roots ⟨[⟨"r1"⟩, ⟨"r2"⟩]⟩ lookupTree ⟨"r1/x"⟩
    parse_outerUnit hS
  obtain ⟨_, hunbound, _, _⟩ := imports_decide_then_roots ⟨[⟨"r1"⟩, ⟨"r2"⟩]⟩ lookupTree ⟨"r1/x"⟩
    parse_outerUnit hT
  have hbinds : outerUnit.Binds "S" "q.S" :=
    CompilationUnit.import?_eq_some_iff.mp (by decide +kernel)
  have hfree : ∀ imported, ¬ outerUnit.Binds "T" imported := by
    intro imported himported
    have hnone : outerUnit.import? "T" = none := by decide +kernel
    rw [CompilationUnit.import?_eq_some_iff.mpr himported] at hnone
    cases hnone
  refine ⟨hS, hT, ?_, ?_⟩
  · refine ((hbound "q.S" hbinds).1 ⟨"r2/q/S.java"⟩).mpr
      ⟨[⟨"r1"⟩], ⟨"r2"⟩, [], rfl, by decide +kernel, ?_⟩
    -- The first root has no file at the imported path.
    intro root hroot q hfound
    rw [List.mem_singleton.mp hroot, ← filter_isFile_eq_some_iff] at hfound
    have hnone : (some (qualifiedPath ⟨"r1"⟩ "q.S")).filter lookupTree.isFile = none := by
      decide +kernel
    rw [hnone] at hfound
    cases hfound
  · refine ((hunbound hfree).1 ⟨"r1/x/T.java"⟩).mpr ⟨[], ⟨"r1"⟩, [⟨"r2"⟩], rfl, ?_, by simp⟩
    have hbeside : LookupRule.Finds lookupTree outerUnit "T" ⟨"r1/x"⟩ ⟨"r1"⟩ .sameDirectory
        ⟨"r1/x/T.java"⟩ := LookupRule.filter_path?_eq_some_iff.mp (by decide +kernel)
    refine ⟨[.samePackage], .sameDirectory, [.dottedName], rfl, hbeside, ?_⟩
    intro rule hrule q hfinds
    obtain rfl := List.mem_singleton.mp hrule
    have hnone : (LookupRule.samePackage.path? outerUnit "T" ⟨"r1/x"⟩ ⟨"r1"⟩).filter
        lookupTree.isFile = none := by decide +kernel
    rw [LookupRule.filter_path?_eq_some_iff.mpr hfinds] at hnone
    cases hnone

end WireMapper
