import WireMapper.Hierarchy.Resolve

/-!
The superclass chain as a walk. A visit enters a source file and expects a class in it; the class it
finds is a link, and the superclass clause of a link leads to the next visit. Nothing here knows
which paths were entered before: that a chain ends is the business of the bookkeeping around the
walk, and the rules at the end of this module say what that bookkeeping makes of each visit.
-/

namespace WireMapper.Hierarchy

/-- A source file that a walk enters, and the class that is expected in it. -/
structure Visit where
  file : SourceFile
  className : String

def Visit.place (v : Visit) : List String :=
  v.file.path.components

def Visit.link? (v : Visit) : Option Link :=
  (v.file.unit.type? v.className).map fun decl => ⟨v.file.path, v.file.unit, decl⟩

/-- The visit that the superclass clause of a link leads to: a root holds the superclass's file, and
the file can be read and parsed. -/
def Link.ascent? (roots : SourceRoots) (tree : FileTree) (link : Link) : Option Visit :=
  link.decl.superclass?.bind fun superclass =>
    (roots.findSuperclass? tree link.unit superclass (directoryOf link.path)).bind fun path =>
      (SourceFile.read tree path).toOption.map fun file => ⟨file, Naming.simpleName superclass⟩

def Link.above? (roots : SourceRoots) (tree : FileTree) (link : Link) : Option Link :=
  (link.ascent? roots tree).bind Visit.link?

/-- Why a walk ends at a link without an ascent. -/
def Link.summit (roots : SourceRoots) (tree : FileTree) (link : Link) : ChainEnd :=
  match link.decl.superclass? with
  | none => .top
  | some superclass =>
    match roots.findSuperclass? tree link.unit superclass (directoryOf link.path) with
    | none => .outside superclass
    | some path =>
      match SourceFile.read tree path with
      | .error e => .failed e
      | .ok _ => .top

def Visit.chainFrom (roots : SourceRoots) (tree : FileTree) (unentered : List (List String))
    (entered : List String) (v : Visit) : List Link × ChainEnd :=
  Hierarchy.chainFrom roots tree unentered entered v.file v.className

variable {roots : SourceRoots} {tree : FileTree} {unentered : List (List String)}
  {entered : List String} {v w : Visit} {link : Link}

theorem Visit.link?_eq_some (h : v.link? = some link) :
    link.path = v.file.path ∧ link.unit = v.file.unit ∧
      v.file.unit.type? v.className = some link.decl := by
  obtain ⟨decl, hdecl, rfl⟩ := Option.map_eq_some_iff.mp h
  exact ⟨rfl, rfl, hdecl⟩

/-- An ascent is made through the file that is found for the superclass, which must be readable. -/
theorem Link.ascent?_eq_some (h : link.ascent? roots tree = some w) :
    ∃ superclass path, link.decl.superclass? = some superclass ∧
      roots.findSuperclass? tree link.unit superclass (directoryOf link.path) = some path ∧
      SourceFile.read tree path = .ok w.file ∧ w.className = Naming.simpleName superclass := by
  obtain ⟨superclass, hsuper, h⟩ := Option.bind_eq_some_iff.mp h
  obtain ⟨path, hpath, h⟩ := Option.bind_eq_some_iff.mp h
  obtain ⟨file, hfile, rfl⟩ := Option.map_eq_some_iff.mp h
  refine ⟨superclass, path, hsuper, hpath, ?_, rfl⟩
  cases hread : SourceFile.read tree path with
  | error e => simp [hread, Except.toOption] at hfile
  | ok found => simpa [hread, Except.toOption] using hfile

/-- A link without an ascent names no superclass, one that no root holds, or one whose file is at
fault. -/
theorem Link.ascent?_eq_none (h : link.ascent? roots tree = none) :
    link.summit roots tree = .top ∧ link.decl.superclass? = none ∨
      (∃ superclass, link.summit roots tree = .outside superclass ∧
        link.decl.superclass? = some superclass ∧
        roots.findSuperclass? tree link.unit superclass (directoryOf link.path) = none) ∨
      ∃ path e, SourceFile.read tree path = .error e ∧ link.summit roots tree = .failed e := by
  unfold Link.ascent? at h
  unfold Link.summit
  cases hsuper : link.decl.superclass? with
  | none => exact Or.inl ⟨rfl, rfl⟩
  | some superclass =>
      cases hpath : roots.findSuperclass? tree link.unit superclass (directoryOf link.path) with
      | none => exact Or.inr (Or.inl ⟨superclass, by simp only [hpath], rfl, hpath⟩)
      | some path =>
          cases hread : SourceFile.read tree path with
          | error e => exact Or.inr (Or.inr ⟨path, e, hread, by simp only [hpath, hread]⟩)
          | ok file => simp [hsuper, hpath, hread, Except.toOption] at h

/-- Entering a path again is a cycle, whatever its file declares. -/
theorem chainFrom_of_entered (hplace : v.place ∉ unentered) :
    v.chainFrom roots tree unentered entered =
      ([], .failed (.cyclic (entered ++ [v.className]))) := by
  unfold Visit.chainFrom Hierarchy.chainFrom
  exact if_neg hplace

/-- A file that does not declare the expected class ends the walk with a fault. -/
theorem chainFrom_of_undeclared (hplace : v.place ∈ unentered) (hlink : v.link? = none) :
    v.chainFrom roots tree unentered entered =
      ([], .failed (.malformed v.file.path (v.className ++ " is not declared in this file"))) := by
  have hdecl : v.file.unit.type? v.className = none := Option.map_eq_none_iff.mp hlink
  unfold Visit.chainFrom Hierarchy.chainFrom
  rw [if_pos (show v.file.path.components ∈ unentered from hplace)]
  simp only [hdecl]

/-- Without an ascent the visited class is the last of the chain. -/
theorem chainFrom_of_summit (hplace : v.place ∈ unentered) (hlink : v.link? = some link)
    (hascent : link.ascent? roots tree = none) :
    v.chainFrom roots tree unentered entered = ([link], link.summit roots tree) := by
  obtain ⟨decl, hdecl, rfl⟩ := Option.map_eq_some_iff.mp hlink
  unfold Visit.chainFrom Hierarchy.chainFrom
  rw [if_pos (show v.file.path.components ∈ unentered from hplace)]
  unfold Link.ascent? at hascent
  unfold Link.summit
  simp only [hdecl]
  cases hsuper : decl.superclass? with
  | none => rfl
  | some superclass =>
      cases hpath : roots.findSuperclass? tree v.file.unit superclass
          (directoryOf v.file.path) with
      | none => simp only [hpath]
      | some path =>
          cases hread : SourceFile.read tree path with
          | error e => simp only [hpath, hread]
          | ok file => simp [hsuper, hpath, hread, Except.toOption] at hascent

/-- With an ascent the chain goes on from the next visit, which must not come back to this path. -/
theorem chainFrom_of_ascent (hplace : v.place ∈ unentered) (hlink : v.link? = some link)
    (hascent : link.ascent? roots tree = some w) :
    v.chainFrom roots tree unentered entered =
      (link :: (w.chainFrom roots tree (unvisitedAfter v.place unentered)
          (entered ++ [v.className])).1,
        (w.chainFrom roots tree (unvisitedAfter v.place unentered)
          (entered ++ [v.className])).2) := by
  obtain ⟨superclass, path, hsuper, hpath, hread, hname⟩ := Link.ascent?_eq_some hascent
  obtain ⟨decl, hdecl, rfl⟩ := Option.map_eq_some_iff.mp hlink
  rw [Visit.chainFrom, Hierarchy.chainFrom,
    if_pos (show v.file.path.components ∈ unentered from hplace)]
  dsimp only at hsuper hpath
  simp only [hdecl, hsuper, hpath, hread, hname, Visit.chainFrom, Visit.place]

/-- A class that was found is answered for by the chain of its visit. -/
theorem resolveField_of_found {libraries : LibraryLookup} {className field : String}
    {file : SourceFile} (hfile : roots.findClass? tree className = some file) :
    resolveField roots libraries tree className field =
      (chainOrigin libraries field
        ((⟨file, className⟩ : Visit).chainFrom roots tree (roots.sources tree) [])).map
          (⟨className, field, ·⟩) := by
  unfold resolveField chain
  simp only [hfile, Visit.chainFrom]
  cases chainOrigin libraries field
      (Hierarchy.chainFrom roots tree (roots.sources tree) [] file className) with
  | error e => rfl
  | ok origin => rfl

variable (roots tree) in
/-- What holds of a visit that ends the walk, for each of the three ways to end it, and of a visit
whenever it holds of the next one, holds of every visit. The walk ends because each step takes its
path from those that may still be entered. -/
theorem walk_induction {motive : List (List String) → List String → Visit → Prop}
    (again : ∀ unentered entered v, v.place ∉ unentered → motive unentered entered v)
    (undeclared : ∀ unentered entered v, v.place ∈ unentered → v.link? = none →
      motive unentered entered v)
    (summit : ∀ unentered entered v link, v.place ∈ unentered → v.link? = some link →
      link.ascent? roots tree = none → motive unentered entered v)
    (ascent : ∀ unentered entered v link w, v.place ∈ unentered → v.link? = some link →
      link.ascent? roots tree = some w →
      motive (unvisitedAfter v.place unentered) (entered ++ [v.className]) w →
      motive unentered entered v)
    (unentered : List (List String)) (entered : List String) (v : Visit) :
    motive unentered entered v := by
  induction hlength : unentered.length using Nat.strongRecOn
    generalizing unentered entered v with
  | ind n ih =>
      by_cases hplace : v.place ∈ unentered
      · cases hlink : v.link? with
        | none => exact undeclared _ _ v hplace hlink
        | some link =>
            cases hascent : link.ascent? roots tree with
            | none => exact summit _ _ v link hplace hlink hascent
            | some w =>
                have hshorter := length_unvisitedAfter_lt hplace
                exact ascent _ _ v link w hplace hlink hascent
                  (ih _ (by omega) _ _ w rfl)
      · exact again _ _ v hplace

end WireMapper.Hierarchy
