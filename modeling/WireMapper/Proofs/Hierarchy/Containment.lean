import WireMapper.Proofs.Hierarchy.Cycle

/-!
Looking for a field does not lead out of the source roots. The names in a source file are dotted
names, so whatever its package, imports and superclasses say, the file they lead to lies below a
root; and a file beside one below a root does too. By induction this holds of every file that a walk
enters, and so of every path that an answer or an error names.
-/

namespace WireMapper

/-- The path is at or below one of the roots, component by component. -/
def SourceRoots.Holds (roots : SourceRoots) (p : Path) : Prop :=
  ∃ root ∈ roots.roots, p.isWithin root = true

/-- A path that leads down from a root by names is within it, component by component. -/
theorem SourceRoots.Reaches.holds {roots : SourceRoots} {p : Path} (h : roots.Reaches p) :
    roots.Holds p := by
  obtain ⟨root, hroot, names, _, hlead, hnames, _⟩ := h
  refine ⟨root, hroot, ?_⟩
  rw [Path.isWithin, Path.components_append hlead hnames, List.isPrefixOf_iff_prefix]
  exact List.prefix_append _ _

namespace Hierarchy

def Origin.path? : Origin → Option Path
  | own path | source _ path _ => some path
  | library .. | unresolved => none

def Error.path? : Error → Option Path
  | malformed path _ | unreadable path _ => some path
  | notFound _ | cyclic _ | registry _ => none

/-- The file that a root holds for the superclass of a link, whether or not it can be read. -/
def Link.superPath? (roots : SourceRoots) (tree : FileTree) (link : Link) : Option Path :=
  link.decl.superclass?.bind fun superclass =>
    roots.findSuperclass? tree link.unit superclass (directoryOf link.path)

/-- The file that a walk opens after a visit, if the visited class does not end the walk. -/
def Visit.opened? (roots : SourceRoots) (tree : FileTree) (field : String) (v : Visit) :
    Option Path :=
  v.link?.bind fun link =>
    if (link.decl.field? field).isSome then none else link.superPath? roots tree

variable {roots : SourceRoots} {tree : FileTree} {className field : String} {v w : Visit}
  {link : Link}

theorem path?_of_read {p found : Path} {e : Error} (h : SourceFile.read tree p = .error e)
    (hpath : e.path? = some found) : found = p := by
  rcases SourceFile.read_eq_error h with ⟨_, rfl⟩ | ⟨_, rfl⟩
  · exact (Option.some.inj hpath).symm
  · exact (Option.some.inj hpath).symm

/-- What keeps a walk from going on is the file that was found for the superclass. -/
theorem Link.summit_failed {e : Error} (h : link.summit roots tree = .failed e) :
    ∃ path, link.superPath? roots tree = some path ∧ SourceFile.read tree path = .error e := by
  unfold Link.summit at h
  unfold Link.superPath?
  cases hsuper : link.decl.superclass? with
  | none => simp [hsuper] at h
  | some superclass =>
      rw [Option.bind_some]
      cases hfound : roots.findSuperclass? tree link.unit superclass (directoryOf link.path) with
      | none => simp [hsuper, hfound] at h
      | some path =>
          cases hread : SourceFile.read tree path with
          | ok file => simp [hsuper, hfound, hread] at h
          | error fault =>
              obtain rfl : fault = e := by simpa [hsuper, hfound, hread] using h
              exact ⟨path, rfl, hread⟩

/-- The superclass of a class in a file below the roots is looked for below the roots. -/
theorem Visit.Located.reaches_superPath? {path : Path} (h : v.Located roots tree)
    (hlink : v.link? = some link) (hpath : link.superPath? roots tree = some path) :
    roots.Reaches path := by
  obtain ⟨hfile, hunit, htype⟩ := Visit.link?_eq_some hlink
  obtain ⟨superclass, hsuper, hfound⟩ := Option.bind_eq_some_iff.mp hpath
  rw [hfile, hunit] at hfound
  have hmem : link.decl ∈ v.file.unit.types := List.mem_of_find?_eq_some htype
  exact (reaches_of_findSuperclass? h.isNamed (h.isNamed.superclasses _ hmem _ hsuper) h.reaches
    hfound).1

theorem Visit.Located.reaches_opened? {path : Path} (h : v.Located roots tree)
    (hpath : v.opened? roots tree field = some path) : roots.Reaches path := by
  obtain ⟨link, hlink, hpath⟩ := Option.bind_eq_some_iff.mp hpath
  split at hpath
  · cases hpath
  · exact h.reaches_superPath? hlink hpath

/-- One step of a walk does not lead out of the roots. -/
theorem Visit.Located.next (h : v.Located roots tree) (hnext : v.next? roots tree field = some w) :
    w.Located roots tree := by
  obtain ⟨link, hlink, hascent⟩ := Option.bind_eq_some_iff.mp hnext
  split at hascent
  · cases hascent
  · exact h.ascent hlink hascent

/-- Every visit of a walk is below the roots. -/
theorem located_of_visit? {n : Nat} (h : visit? roots tree className field n = some v) :
    v.Located roots tree := by
  obtain ⟨file, hfile, hafter⟩ := Option.bind_eq_some_iff.mp h
  clear h
  induction n generalizing v with
  | zero =>
      cases hafter
      exact located_of_findClass? hfile
  | succ n ih =>
      obtain ⟨before, hbefore, hnext⟩ := Option.bind_eq_some_iff.mp hafter
      exact (ih hbefore).next hnext

structure ChainWithin (roots : SourceRoots) (chain : List Link × ChainEnd) : Prop where
  links : ∀ link ∈ chain.1, roots.Reaches link.path
  fault : ∀ e path, chain.2 = .failed e → e.path? = some path → roots.Reaches path

variable (roots tree) in
/-- The chain of a visit below the roots stays below the roots. -/
theorem chainFrom_within (unentered : List (List String)) (entered : List String) (v : Visit)
    (hlocated : v.Located roots tree) :
    ChainWithin roots (v.chainFrom roots tree unentered entered) := by
  induction unentered, entered, v using walk_induction roots tree with
  | again unentered entered v hplace =>
      rw [chainFrom_of_entered hplace]
      refine ⟨by simp, ?_⟩
      intro e path hfailed hpath
      cases hfailed
      cases hpath
  | undeclared unentered entered v hplace hlink =>
      rw [chainFrom_of_undeclared hplace hlink]
      refine ⟨by simp, ?_⟩
      intro e path hfailed hpath
      cases hfailed
      cases hpath
      exact hlocated.reaches
  | summit unentered entered v link hplace hlink hascent =>
      rw [chainFrom_of_summit hplace hlink hascent]
      constructor
      · simpa [(Visit.link?_eq_some hlink).1] using hlocated.reaches
      · intro e path hfailed hpath
        obtain ⟨superPath, hfound, hread⟩ := Link.summit_failed hfailed
        obtain rfl := path?_of_read hread hpath
        exact hlocated.reaches_superPath? hlink hfound
  | ascent unentered entered v link w hplace hlink hascent ih =>
      obtain ⟨hlinks, hfault⟩ := ih (hlocated.ascent hlink hascent)
      rw [chainFrom_of_ascent hplace hlink hascent]
      refine ⟨?_, hfault⟩
      intro other hother
      rcases List.mem_cons.mp hother with rfl | hother
      · rw [(Visit.link?_eq_some hlink).1]
        exact hlocated.reaches
      · exact hlinks other hother

/-- An origin names the path of a link. -/
theorem ChainWithin.origin {libraries : LibraryLookup} {chain : List Link × ChainEnd}
    {origin : Origin} {path : Path} (h : ChainWithin roots chain)
    (horigin : chainOrigin libraries field chain = .ok origin) (hpath : origin.path? = some path) :
    roots.Reaches path := by
  obtain ⟨links, fin⟩ := chain
  rcases chainOrigin_eq_ok horigin with
    ⟨link, hlink, _, rfl⟩ | ⟨n, link, _, hlink, _, _, rfl⟩ | ⟨_, _, rfl | ⟨_, _, _, _, rfl⟩⟩
  · cases hpath
    exact h.links link (List.mem_of_getElem? hlink)
  · cases hpath
    exact h.links link (List.mem_of_getElem? hlink)
  · cases hpath
  · cases hpath

theorem reaches_of_answer {libraries : LibraryLookup} {answer : Resolution} {path : Path}
    (h : resolveField roots libraries tree className field = .ok answer)
    (hpath : answer.origin.path? = some path) : roots.Reaches path := by
  obtain ⟨file, origin, hfile, rfl, horigin⟩ := resolveField_eq_ok h
  exact (chainFrom_within roots tree _ _ _ (located_of_findClass? hfile)).origin horigin hpath

theorem reaches_of_error {libraries : LibraryLookup} {e : Error} {path : Path}
    (h : resolveField roots libraries tree className field = .error e)
    (hpath : e.path? = some path) : roots.Reaches path := by
  cases hfile : roots.findClass? tree className with
  | none =>
      simp only [resolveField, hfile, Except.error.injEq] at h
      subst h
      cases hpath
  | some file =>
      have hwithin := chainFrom_within roots tree (roots.sources tree) [] ⟨file, className⟩
        (located_of_findClass? hfile)
      exact hwithin.fault e path ((resolveField_eq_error hfile).mp h).2 hpath

/-- The source roots are never left. Whatever the files contain and whatever is asked for, the
source path in an answer and the one in an error are at or below one of the roots, and so is every
file that is entered, or only opened for a superclass, on the way. -/
theorem never_leaves_roots (roots : SourceRoots) (libraries : LibraryLookup) (tree : FileTree)
    (className field : String) :
    (∀ answer path, resolveField roots libraries tree className field = .ok answer →
      answer.origin.path? = some path → roots.Holds path) ∧
    (∀ e path, resolveField roots libraries tree className field = .error e →
      e.path? = some path → roots.Holds path) ∧
    (∀ n v, visit? roots tree className field n = some v → roots.Holds v.file.path ∧
      ∀ path, v.opened? roots tree field = some path → roots.Holds path) := by
  refine ⟨?_, ?_, ?_⟩
  · intro answer path hanswer hpath
    exact (reaches_of_answer hanswer hpath).holds
  · intro e path herror hpath
    exact (reaches_of_error herror hpath).holds
  · intro n v hvisit
    have hlocated := located_of_visit? hvisit
    refine ⟨hlocated.reaches.holds, ?_⟩
    intro path hopened
    exact (hlocated.reaches_opened? hopened).holds

end Hierarchy

end WireMapper
