import Mathlib.Control.Monad.Basic
import WireMapper.Proofs.Hierarchy.Containment

/-!
Earlier roots decide. With more roots after the given ones, a class and its superclasses are found
where they were found before, so the chain of a class stays as it is. Only where it left source
code, because no root held the superclass's file, can it go on into the new roots; what was decided
on the way up to there stays decided.
-/

namespace WireMapper

namespace SourceRoots

def append (roots : SourceRoots) (more : List Path) : SourceRoots :=
  ⟨roots.roots ++ more⟩

variable {roots : SourceRoots} {more : List Path} {tree : FileTree}

/-- A class that was found is found in the same place. -/
theorem findClass?_append {className : String} {file : SourceFile}
    (h : roots.findClass? tree className = some file) :
    (roots.append more).findClass? tree className = some file := by
  unfold findClass? at h ⊢
  rw [append, List.findSome?_append, h, Option.some_or]

/-- A superclass that was found is found in the same place. -/
theorem findSuperclass?_append {unit : Java.CompilationUnit} {superclass : String}
    {directory found : Path}
    (h : roots.findSuperclass? tree unit superclass directory = some found) :
    (roots.append more).findSuperclass? tree unit superclass directory = some found := by
  unfold findSuperclass? at h ⊢
  rw [append, List.findSome?_append, h, Option.some_or]

theorem mem_sources_append {place : List String} (h : place ∈ roots.sources tree) :
    place ∈ (roots.append more).sources tree := by
  unfold sources at h ⊢
  rw [append, List.flatMap_append]
  exact List.mem_append_left _ h

end SourceRoots

namespace Hierarchy

def Origin.isInSource : Origin → Bool
  | own _ | source .. => true
  | library .. | unresolved => false

def Error.isInSource : Error → Bool
  | malformed .. | cyclic _ | unreadable .. => true
  | notFound _ | registry _ => false

/-- Source code decides, by a declaration or by a fault. -/
def DecidedInSource : Except Error Resolution → Prop
  | .ok answer => answer.origin.isInSource = true
  | .error e => e.isInSource = true

variable {roots : SourceRoots} {more : List Path} {tree : FileTree} {libraries : LibraryLookup}
  {className field : String}

/-- A root holds the file of the superclass, if the link names one. -/
def Link.IsSettled (roots : SourceRoots) (tree : FileTree) (link : Link) : Prop :=
  ∀ superclass, link.decl.superclass? = some superclass →
    roots.findSuperclass? tree link.unit superclass (directoryOf link.path) ≠ none

theorem Link.isSettled_of_ascent? {link : Link} {w : Visit}
    (h : link.ascent? roots tree = some w) : link.IsSettled roots tree := by
  obtain ⟨found, path, hfound, hpath, _⟩ := Link.ascent?_eq_some h
  rintro superclass hsuper
  obtain rfl : found = superclass := Option.some.inj (hfound.symm.trans hsuper)
  simp [hpath]

variable (more) in
/-- More roots change nothing about where a settled link leads. -/
theorem Link.IsSettled.append {link : Link} (h : link.IsSettled roots tree) :
    link.ascent? (roots.append more) tree = link.ascent? roots tree ∧
      link.summit (roots.append more) tree = link.summit roots tree := by
  unfold Link.ascent? Link.summit
  cases hsuper : link.decl.superclass? with
  | none => exact ⟨rfl, rfl⟩
  | some superclass =>
      obtain ⟨path, hpath⟩ := Option.ne_none_iff_exists'.mp (h superclass hsuper)
      simp only [hpath, SourceRoots.findSuperclass?_append hpath, Option.bind_some]
      exact ⟨trivial, trivial⟩

/-- What more roots make of a chain: it stays the same, or it goes on where it left source code. -/
inductive Prolongs (chain longer : List Link × ChainEnd) : Prop where
  | same (h : longer = chain)
  | further (superclass : String) (hend : chain.2 = .outside superclass)
      (hlinks : chain.1 <+: longer.1)

theorem Prolongs.cons {chain longer : List Link × ChainEnd} (link : Link)
    (h : Prolongs chain longer) :
    Prolongs (link :: chain.1, chain.2) (link :: longer.1, longer.2) := by
  cases h with
  | same h => exact .same (by rw [h])
  | further superclass hend hlinks =>
      exact .further superclass hend ((List.prefix_cons_inj link).mpr hlinks)

variable (roots more tree) in
/-- The chain of a visit below the roots, with more roots after them. That a path was entered is the
same for both walks, since both of them keep to the sources of the first roots as long as these go.
-/
theorem chainFrom_append (unentered : List (List String)) (entered : List String) (v : Visit)
    (remaining : List (List String)) (hlocated : v.Located roots tree)
    (hsame : ∀ place ∈ roots.sources tree, place ∈ remaining ↔ place ∈ unentered) :
    Prolongs (v.chainFrom roots tree unentered entered)
      (v.chainFrom (roots.append more) tree remaining entered) := by
  induction unentered, entered, v using walk_induction roots tree generalizing remaining with
  | again unentered entered v hplace =>
      have hplace' : v.place ∉ remaining := by rwa [hsame _ hlocated.place_mem]
      exact .same (by rw [chainFrom_of_entered hplace, chainFrom_of_entered hplace'])
  | undeclared unentered entered v hplace hlink =>
      have hplace' : v.place ∈ remaining := (hsame _ hlocated.place_mem).mpr hplace
      exact .same
        (by rw [chainFrom_of_undeclared hplace hlink, chainFrom_of_undeclared hplace' hlink])
  | summit unentered entered v link hplace hlink hascent =>
      have hplace' : v.place ∈ remaining := (hsame _ hlocated.place_mem).mpr hplace
      rw [chainFrom_of_summit hplace hlink hascent]
      by_cases hsettled : link.IsSettled roots tree
      · obtain ⟨hascent', hsummit⟩ := hsettled.append more
        rw [hascent] at hascent'
        exact .same (by rw [chainFrom_of_summit hplace' hlink hascent', hsummit])
      · -- No root holds the superclass's file, so the chain is left open.
        simp only [Link.IsSettled, ne_eq, Classical.not_forall, Decidable.not_not] at hsettled
        obtain ⟨superclass, hsuper, hfound⟩ := hsettled
        refine .further superclass (by simp only [Link.summit, hsuper, hfound]) ?_
        cases hfurther : link.ascent? (roots.append more) tree with
        | none =>
            simp only [chainFrom_of_summit hplace' hlink hfurther, List.prefix_rfl]
        | some w =>
            rw [chainFrom_of_ascent hplace' hlink hfurther]
            exact ⟨_, rfl⟩
  | ascent unentered entered v link w hplace hlink hascent ih =>
      have hplace' : v.place ∈ remaining := (hsame _ hlocated.place_mem).mpr hplace
      have hsettled := Link.isSettled_of_ascent? hascent
      have hascent' := (hsettled.append more).1.trans hascent
      rw [chainFrom_of_ascent hplace hlink hascent, chainFrom_of_ascent hplace' hlink hascent']
      refine (ih (unvisitedAfter v.place remaining) (hlocated.ascent hlink hascent) ?_).cons link
      intro place hsource
      rw [mem_unvisitedAfter, mem_unvisitedAfter, hsame place hsource]

/-- Library classes never decide in the place of source code. -/
theorem libraryOrigin_not_inSource (unit : Java.CompilationUnit) (superclass : String) :
    (libraryOrigin libraries unit superclass field).isInSource = false := by
  unfold libraryOrigin
  dsimp only
  split <;> rfl

/-- What the end of a chain says where it leaves source code. -/
theorem endOrigin_outside (links : List Link) (superclass : String) :
    ∃ origin, endOrigin libraries links field (.outside superclass) = .ok origin ∧
      origin.isInSource = false := by
  cases hlast : links.getLast? with
  | none => exact ⟨.unresolved, by simp [endOrigin, hlast], rfl⟩
  | some link =>
      exact ⟨libraryOrigin libraries link.unit superclass field, by simp [endOrigin, hlast],
        libraryOrigin_not_inSource _ _⟩

variable (libraries field) in
/-- Going on from where it left source code, a chain keeps what it decided, or it had decided
nothing. -/
theorem Prolongs.chainOrigin {chain longer : List Link × ChainEnd} (h : Prolongs chain longer) :
    chainOrigin libraries field longer = chainOrigin libraries field chain ∨
      ∃ origin, chainOrigin libraries field chain = .ok origin ∧ origin.isInSource = false := by
  cases h with
  | same h => exact Or.inl (by rw [h])
  | further superclass hend hlinks =>
      obtain ⟨links, fin⟩ := chain
      obtain ⟨_, fin'⟩ := longer
      obtain ⟨above, rfl⟩ := hlinks
      dsimp only at hend
      subst hend
      cases links with
      | nil => exact Or.inr ⟨.unresolved, rfl, rfl⟩
      | cons first rest =>
          rw [List.cons_append, Hierarchy.chainOrigin, Hierarchy.chainOrigin]
          by_cases hfirst : (first.decl.field? field).isSome
          · exact Or.inl (by rw [if_pos hfirst, if_pos hfirst])
          rw [if_neg hfirst, if_neg hfirst, List.findSome?_append]
          cases hfound : rest.findSome? (·.origin? field) with
          | some origin => exact Or.inl (by simp)
          | none => exact Or.inr (endOrigin_outside (first :: rest) superclass)

/-- More roots leave an outcome as it is, unless the class was not found or the field was not in
source code. -/
theorem resolveField_append (roots : SourceRoots) (more : List Path) (libraries : LibraryLookup)
    (tree : FileTree) (className field : String) :
    resolveField (roots.append more) libraries tree className field =
        resolveField roots libraries tree className field ∨
      resolveField roots libraries tree className field = .error (.notFound className) ∨
      ∃ answer, resolveField roots libraries tree className field = .ok answer ∧
        answer.origin.isInSource = false := by
  cases hfile : roots.findClass? tree className with
  | none => exact Or.inr (Or.inl (by simp [resolveField, hfile]))
  | some file =>
      have hlocated := located_of_findClass? hfile
      have hprolongs := chainFrom_append roots more tree (roots.sources tree) [] ⟨file, className⟩
        ((roots.append more).sources tree) hlocated fun place hsource =>
          iff_of_true (SourceRoots.mem_sources_append hsource) hsource
      rw [resolveField_of_found hfile,
        resolveField_of_found (SourceRoots.findClass?_append hfile)]
      rcases hprolongs.chainOrigin libraries field with
        hsame | ⟨origin, horigin, hlost⟩
      · exact Or.inl (by rw [hsame])
      · exact Or.inr (Or.inr ⟨⟨className, field, origin⟩, by rw [horigin]; rfl, hlost⟩)

theorem Origin.isInSource_eq_false {origin : Origin} :
    origin.isInSource = false ↔
      origin = .unresolved ∨ ∃ name visibility, origin = .library name visibility := by
  cases origin <;> simp [Origin.isInSource]

/-- Earlier roots decide. An answer that names a declaration in source code stays the same when more
roots are appended, and so does a fault of source code: a cycle, a malformed file or an unreadable
one. So more roots can only change the outcome where the class was not found at all, or where the
field was left to library classes or unresolved. -/
theorem earlier_roots_decide (roots : SourceRoots) (more : List Path) (libraries : LibraryLookup)
    (tree : FileTree) (className field : String) :
    (DecidedInSource (resolveField roots libraries tree className field) →
      resolveField (roots.append more) libraries tree className field =
        resolveField roots libraries tree className field) ∧
    (resolveField (roots.append more) libraries tree className field ≠
        resolveField roots libraries tree className field →
      resolveField roots libraries tree className field = .error (.notFound className) ∨
      ∃ answer, resolveField roots libraries tree className field = .ok answer ∧
        (answer.origin = .unresolved ∨
          ∃ name visibility, answer.origin = .library name visibility)) := by
  have happend := resolveField_append roots more libraries tree className field
  constructor
  · intro hdecided
    rcases happend with hsame | hmissing | ⟨answer, hanswer, hlost⟩
    · exact hsame
    · rw [hmissing] at hdecided
      cases hdecided
    · rw [hanswer, DecidedInSource, hlost] at hdecided
      cases hdecided
  · intro hchanged
    rcases happend with hsame | hmissing | ⟨answer, hanswer, hlost⟩
    · exact absurd hsame hchanged
    · exact Or.inl hmissing
    · exact Or.inr ⟨answer, hanswer, Origin.isInSource_eq_false.mp hlost⟩

def duplicateTree : FileTree where
  nodes :=
    [(["app"], .directory), (["old"], .directory),
      (["app", "A.java"], .file "class A { int id; }".toUTF8),
      (["old", "A.java"], .file "class A extends B {}".toUTF8)]

theorem duplicate_filesBelow : duplicateTree.filesBelow ["app"] = [["A.java"]] :=
  List.mergeSort_of_pairwise (by decide)

/-- The directory that comes first decides. -/
theorem earlier_roots_decide_duplicate :
    resolveField ⟨[⟨"app"⟩, ⟨"old"⟩]⟩ (fun _ _ => .unloadable) duplicateTree "A" "id" =
      .ok ⟨"A", "id", .own ⟨"app/A.java"⟩⟩ := by
  have hunder : duplicateTree.filesUnder ⟨"app"⟩ = [⟨"app/A.java"⟩] :=
    FileTree.filesUnder_eq rfl rfl duplicate_filesBelow
  have hsources : SourceRoots.sources ⟨[⟨"app"⟩]⟩ duplicateTree = [["app", "A.java"]] := by
    change (duplicateTree.filesBelow ["app"]).map _ ++ [] = _
    rw [duplicate_filesBelow]
    rfl
  have hanswer : resolveField ⟨[⟨"app"⟩]⟩ (fun _ _ => .unloadable) duplicateTree "A" "id" =
      .ok ⟨"A", "id", .own ⟨"app/A.java"⟩⟩ := by
    simp only [resolveField, SourceRoots.findClass?, List.findSome?_cons, hunder, chain, hsources]
    decide +kernel
  have hdecided :=
    (earlier_roots_decide ⟨[⟨"app"⟩]⟩ [⟨"old"⟩] (fun _ _ => .unloadable) duplicateTree
    "A" "id").1 (by rw [hanswer]; rfl)
  exact hdecided.trans hanswer

end Hierarchy

end WireMapper
