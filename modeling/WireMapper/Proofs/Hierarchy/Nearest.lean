import WireMapper.Proofs.Hierarchy.Ascent

/-!
The nearest declaration of a field wins. The declarations on the way up from a class are counted
from the class itself, which is number zero; the chain that the resolver works on is a first part of
that count, and all of it where the chain ends without a fault.
-/

namespace WireMapper.Hierarchy

def Visit.ancestor? (roots : SourceRoots) (tree : FileTree) (v : Visit) : Nat → Option Link
  | 0 => v.link?
  | n + 1 => (v.ancestor? roots tree n).bind (Link.above? roots tree)

/-- The declaration that is `n` superclass clauses above the class found under a name. -/
def ancestor? (roots : SourceRoots) (tree : FileTree) (className : String) (n : Nat) :
    Option Link :=
  (roots.findClass? tree className).bind fun file =>
    Visit.ancestor? roots tree ⟨file, className⟩ n

def Link.Declares (link : Link) (field : String) : Prop :=
  (link.decl.field? field).isSome

structure IsNearest (roots : SourceRoots) (tree : FileTree) (className field : String) (n : Nat)
    (link : Link) : Prop where
  reached : ancestor? roots tree className n = some link
  declares : link.Declares field
  nearest : ∀ i < n, ∀ below, ancestor? roots tree className i = some below → ¬ below.Declares field

/-- The last declaration above a class has a superclass clause for which no root holds a file. -/
def LeavesSource (roots : SourceRoots) (tree : FileTree) (className : String) : Prop :=
  ∃ n last superclass, ancestor? roots tree className n = some last ∧
    ancestor? roots tree className (n + 1) = none ∧ last.decl.superclass? = some superclass ∧
    roots.findSuperclass? tree last.unit superclass (directoryOf last.path) = none

variable {roots : SourceRoots} {tree : FileTree} {className field : String}

/-- Counting from the next visit on is counting from this one, one step later. -/
theorem Visit.ancestor?_succ {v w : Visit} {link : Link} (hlink : v.link? = some link)
    (hascent : link.ascent? roots tree = some w) (n : Nat) :
    v.ancestor? roots tree (n + 1) = w.ancestor? roots tree n := by
  induction n with
  | zero => simp [Visit.ancestor?, hlink, Link.above?, hascent]
  | succ n ih =>
      rw [Visit.ancestor?, ih]
      rfl

theorem Visit.ancestor?_add_eq_none {v : Visit} {n : Nat}
    (hend : v.ancestor? roots tree n = none) (k : Nat) : v.ancestor? roots tree (n + k) = none := by
  induction k with
  | zero => exact hend
  | succ k ih =>
      change (v.ancestor? roots tree (n + k)).bind (Link.above? roots tree) = none
      rw [ih]
      rfl

theorem Link.above?_eq_none_of_ascent? {link : Link} (h : link.ascent? roots tree = none) :
    link.above? roots tree = none := by
  simp [Link.above?, h]

variable (roots tree) in
/-- The links of a chain are the declarations above the visit that it starts with, in order. -/
theorem chainFrom_getElem? (unentered : List (List String)) (entered : List String) (v : Visit) :
    ∀ i link, (v.chainFrom roots tree unentered entered).1[i]? = some link →
      v.ancestor? roots tree i = some link := by
  induction unentered, entered, v using walk_induction roots tree with
  | again unentered entered v hplace => simp [chainFrom_of_entered hplace]
  | undeclared unentered entered v hplace hlink => simp [chainFrom_of_undeclared hplace hlink]
  | summit unentered entered v link hplace hlink hascent =>
      intro i found hfound
      rw [chainFrom_of_summit hplace hlink hascent] at hfound
      cases i with
      | zero => simpa [Visit.ancestor?, hlink] using hfound
      | succ i => simp at hfound
  | ascent unentered entered v link w hplace hlink hascent ih =>
      intro i found hfound
      rw [chainFrom_of_ascent hplace hlink hascent] at hfound
      cases i with
      | zero => simpa [Visit.ancestor?, hlink] using hfound
      | succ i =>
          rw [Visit.ancestor?_succ hlink hascent]
          exact ih i found (by simpa using hfound)

variable (roots tree) in
/-- Where a chain ends without a fault, no declaration is left above it. A chain that leaves source
code ends at a link with a superclass clause for which no root holds a file. -/
theorem chainFrom_end (unentered : List (List String)) (entered : List String) (v : Visit) :
    (∃ e, (v.chainFrom roots tree unentered entered).2 = .failed e) ∨
      v.ancestor? roots tree (v.chainFrom roots tree unentered entered).1.length = none ∧
      ∀ superclass, (v.chainFrom roots tree unentered entered).2 = .outside superclass →
        ∃ last, (v.chainFrom roots tree unentered entered).1.getLast? = some last ∧
          last.decl.superclass? = some superclass ∧
          roots.findSuperclass? tree last.unit superclass (directoryOf last.path) = none := by
  induction unentered, entered, v using walk_induction roots tree with
  | again unentered entered v hplace =>
      rw [chainFrom_of_entered hplace]
      exact Or.inl ⟨_, rfl⟩
  | undeclared unentered entered v hplace hlink =>
      rw [chainFrom_of_undeclared hplace hlink]
      exact Or.inl ⟨_, rfl⟩
  | summit unentered entered v link hplace hlink hascent =>
      rw [chainFrom_of_summit hplace hlink hascent]
      have hnone : v.ancestor? roots tree 1 = none := by
        simp [Visit.ancestor?, hlink, Link.above?_eq_none_of_ascent? hascent]
      rcases Link.ascent?_eq_none hascent with
        ⟨htop, _⟩ | ⟨superclass, hout, hsuper, hfile⟩ | ⟨_, e, _, hfailed⟩
      · refine Or.inr ⟨hnone, ?_⟩
        intro superclass houtside
        simp [htop] at houtside
      · refine Or.inr ⟨hnone, ?_⟩
        intro other houtside
        obtain rfl : superclass = other := by simpa [hout] using houtside
        exact ⟨link, rfl, hsuper, hfile⟩
      · exact Or.inl ⟨e, hfailed⟩
  | ascent unentered entered v link w hplace hlink hascent ih =>
      rw [chainFrom_of_ascent hplace hlink hascent]
      rcases ih with hfailed | ⟨hnone, houtside⟩
      · exact Or.inl hfailed
      · refine Or.inr ⟨?_, ?_⟩
        · simpa [Visit.ancestor?_succ hlink hascent] using hnone
        · intro superclass hout
          obtain ⟨last, hlast, hrest⟩ := houtside superclass hout
          refine ⟨last, ?_, hrest⟩
          rw [List.getLast?_cons, hlast]
          rfl

theorem Link.not_declares_iff {link : Link} :
    ¬ link.Declares field ↔ link.decl.field? field = none := by
  simp [Link.Declares]

/-- A chain without a declaration of the field answers only if it ends without a fault, and names a
library class only if it leaves source code. -/
theorem endOrigin_eq_ok {libraries : LibraryLookup} {links : List Link} {fin : ChainEnd}
    {origin : Origin} (h : endOrigin libraries links field fin = .ok origin) :
    (∀ e, fin ≠ .failed e) ∧
      (origin = .unresolved ∨
        ∃ superclass name visibility, fin = .outside superclass ∧
          origin = .library name visibility) := by
  cases fin with
  | top =>
      obtain rfl : Origin.unresolved = origin := by simpa [endOrigin] using h
      exact ⟨by simp, Or.inl rfl⟩
  | failed e => simp [endOrigin] at h
  | outside superclass =>
      refine ⟨by simp, ?_⟩
      cases hlast : links.getLast? with
      | none =>
          obtain rfl : Origin.unresolved = origin := by simpa [endOrigin, hlast] using h
          exact Or.inl rfl
      | some last =>
          obtain rfl : libraryOrigin libraries last.unit superclass field = origin := by
            simpa [endOrigin, hlast] using h
          unfold libraryOrigin
          dsimp only
          split
          · rename_i name visibility _
            exact Or.inr ⟨superclass, name, visibility, rfl, rfl⟩
          · exact Or.inl rfl

theorem Link.origin?_eq_none_iff {link : Link} :
    link.origin? field = none ↔ ¬ link.Declares field := by
  rw [Link.not_declares_iff, Link.origin?, Option.map_eq_none_iff]

/-- The three ways in which a chain answers: the first class declares the field, a later link is the
first one to declare it, or none does and the end of the chain decides. -/
theorem chainOrigin_cases (libraries : LibraryLookup) (field : String) (links : List Link)
    (fin : ChainEnd) :
    (∃ link : Link, links[0]? = some link ∧ link.Declares field ∧
        chainOrigin libraries field (links, fin) = .ok (.own link.path)) ∨
      (∃ (n : Nat) (link : Link) (declared : Java.FieldDecl), links[n + 1]? = some link ∧
        link.decl.field? field = some declared ∧
        (∀ i < n + 1, ∀ below : Link, links[i]? = some below → ¬ below.Declares field) ∧
        chainOrigin libraries field (links, fin) =
          .ok (.source (link.unit.qualify link.decl.name) link.path declared.visibility)) ∨
      (∀ link ∈ links, ¬ link.Declares field) ∧
        chainOrigin libraries field (links, fin) = endOrigin libraries links field fin := by
  cases links with
  | nil => exact Or.inr (Or.inr ⟨by simp, rfl⟩)
  | cons first above =>
      rw [chainOrigin]
      by_cases hfirst : first.Declares field
      · rw [if_pos (show (first.decl.field? field).isSome = true from hfirst)]
        exact Or.inl ⟨first, rfl, hfirst, rfl⟩
      rw [if_neg (show ¬ (first.decl.field? field).isSome = true from hfirst)]
      cases hfound : above.findSome? (·.origin? field) with
      | some found =>
          obtain ⟨before, link, after, rfl, horigin, hbefore⟩ :=
            List.findSome?_eq_some_iff.mp hfound
          obtain ⟨declared, hdeclared, rfl⟩ := Option.map_eq_some_iff.mp horigin
          refine Or.inr (Or.inl ⟨before.length, link, declared, by simp, hdeclared, ?_, rfl⟩)
          intro i hi below hbelow
          cases i with
          | zero =>
              obtain rfl : first = below := by simpa using hbelow
              exact hfirst
          | succ i =>
              rw [List.getElem?_cons_succ, List.getElem?_append_left (by omega)] at hbelow
              exact Link.origin?_eq_none_iff.mp (hbefore below (List.mem_of_getElem? hbelow))
      | none =>
          refine Or.inr (Or.inr ⟨?_, rfl⟩)
          intro link hlink
          rcases List.mem_cons.mp hlink with rfl | hlink
          · exact hfirst
          · exact Link.origin?_eq_none_iff.mp (List.findSome?_eq_none_iff.mp hfound link hlink)

/-- A chain that answers without a declaration of the field ends without a fault. -/
theorem chainOrigin_eq_ok {libraries : LibraryLookup} {links : List Link} {fin : ChainEnd}
    {origin : Origin} (h : chainOrigin libraries field (links, fin) = .ok origin) :
    (∃ link : Link, links[0]? = some link ∧ link.Declares field ∧ origin = .own link.path) ∨
      (∃ (n : Nat) (link : Link) (declared : Java.FieldDecl), links[n + 1]? = some link ∧
        link.decl.field? field = some declared ∧
        (∀ i < n + 1, ∀ below : Link, links[i]? = some below → ¬ below.Declares field) ∧
        origin = .source (link.unit.qualify link.decl.name) link.path declared.visibility) ∨
      (∀ link ∈ links, ¬ link.Declares field) ∧ (∀ e, fin ≠ .failed e) ∧
        (origin = .unresolved ∨
          ∃ superclass name visibility, fin = .outside superclass ∧
            origin = .library name visibility) := by
  rcases chainOrigin_cases libraries field links fin with
    ⟨link, hlink, hdeclares, horigin⟩ | ⟨n, link, declared, hlink, hdeclared, hfirst, horigin⟩ |
    ⟨hnone, horigin⟩
  · rw [horigin] at h
    exact Or.inl ⟨link, hlink, hdeclares, (Except.ok.inj h).symm⟩
  · rw [horigin] at h
    exact Or.inr (Or.inl ⟨n, link, declared, hlink, hdeclared, hfirst, (Except.ok.inj h).symm⟩)
  · rw [horigin] at h
    exact Or.inr (Or.inr ⟨hnone, endOrigin_eq_ok h⟩)

/-- At most one declaration is the nearest. -/
theorem IsNearest.unique {n m : Nat} {a b : Link} (ha : IsNearest roots tree className field n a)
    (hb : IsNearest roots tree className field m b) : n = m ∧ a = b := by
  have hnm : n = m := by
    rcases Nat.lt_trichotomy n m with h | h | h
    · exact absurd ha.declares (hb.nearest n h a ha.reached)
    · exact h
    · exact absurd hb.declares (ha.nearest m h b hb.reached)
  subst hnm
  exact ⟨rfl, Option.some.inj (ha.reached.symm.trans hb.reached)⟩

section Chain

variable {unentered : List (List String)} {entered : List String} {v : Visit}

/-- Below the length of a chain, the chain and the count of declarations agree. -/
theorem ancestor?_eq_getElem? {i : Nat}
    (hi : i < (v.chainFrom roots tree unentered entered).1.length) :
    v.ancestor? roots tree i = (v.chainFrom roots tree unentered entered).1[i]? := by
  have hget := List.getElem?_eq_getElem hi
  rw [hget]
  exact chainFrom_getElem? roots tree unentered entered v i _ hget

/-- Where nothing is left above a chain, what holds of its links holds of every declaration. -/
theorem not_declares_of_links
    (hover : v.ancestor? roots tree (v.chainFrom roots tree unentered entered).1.length = none)
    (hnone : ∀ link ∈ (v.chainFrom roots tree unentered entered).1, ¬ link.Declares field)
    (n : Nat) (link : Link) (hreached : v.ancestor? roots tree n = some link) :
    ¬ link.Declares field := by
  rcases Nat.lt_or_ge n (v.chainFrom roots tree unentered entered).1.length with hn | hn
  · rw [ancestor?_eq_getElem? hn] at hreached
    exact hnone link (List.mem_of_getElem? hreached)
  · obtain ⟨k, rfl⟩ := Nat.exists_eq_add_of_le hn
    rw [Visit.ancestor?_add_eq_none hover k] at hreached
    cases hreached

/-- What the chain of a visit says about the field, in terms of the declarations above the visit. -/
theorem Visit.chainOrigin_eq_ok {libraries : LibraryLookup} {origin : Origin}
    (h : chainOrigin libraries field (v.chainFrom roots tree unentered entered) = .ok origin) :
    (∃ link : Link, v.ancestor? roots tree 0 = some link ∧ link.Declares field ∧
        origin = .own link.path) ∨
      (∃ (n : Nat) (link : Link) (declared : Java.FieldDecl),
        v.ancestor? roots tree (n + 1) = some link ∧
        link.decl.field? field = some declared ∧
        (∀ i < n + 1, ∀ below : Link, v.ancestor? roots tree i = some below →
          ¬ below.Declares field) ∧
        origin = .source (link.unit.qualify link.decl.name) link.path declared.visibility) ∨
      (∀ n link, v.ancestor? roots tree n = some link → ¬ link.Declares field) ∧
        (origin = .unresolved ∨
          ∃ name visibility, origin = .library name visibility ∧
            ∃ n last superclass, v.ancestor? roots tree n = some last ∧
              v.ancestor? roots tree (n + 1) = none ∧
              last.decl.superclass? = some superclass ∧
              roots.findSuperclass? tree last.unit superclass (directoryOf last.path) = none) := by
  have hlinks := chainFrom_getElem? roots tree unentered entered v
  rcases Hierarchy.chainOrigin_eq_ok h with
    ⟨link, hlink, hdeclares, horigin⟩ | ⟨n, link, declared, hlink, hdeclared, hfirst, horigin⟩ |
    ⟨hnone, hfault, horigin⟩
  · exact Or.inl ⟨link, hlinks 0 link hlink, hdeclares, horigin⟩
  · refine Or.inr (Or.inl ⟨n, link, declared, hlinks _ link hlink, hdeclared, ?_, horigin⟩)
    intro i hi below hreached
    have hlength := (List.getElem?_eq_some_iff.mp hlink).1
    rw [ancestor?_eq_getElem? (Nat.lt_trans hi hlength)] at hreached
    exact hfirst i hi below hreached
  · rcases chainFrom_end roots tree unentered entered v with ⟨e, hfailed⟩ | ⟨hover, houtside⟩
    · exact absurd hfailed (hfault e)
    refine Or.inr (Or.inr ⟨not_declares_of_links hover hnone, ?_⟩)
    rcases horigin with horigin | ⟨superclass, name, visibility, hfin, horigin⟩
    · exact Or.inl horigin
    · obtain ⟨last, hlast, hsuper, hfile⟩ := houtside superclass hfin
      rw [List.getLast?_eq_getElem?] at hlast
      have hlength := (List.getElem?_eq_some_iff.mp hlast).1
      refine Or.inr ⟨name, visibility, horigin, _, last, superclass, hlinks _ last hlast,
        ?_, hsuper, hfile⟩
      rw [Nat.sub_add_cancel (by omega)]
      exact hover

end Chain

theorem isNearest_zero_iff {link : Link} :
    IsNearest roots tree className field 0 link ↔
      ancestor? roots tree className 0 = some link ∧ link.Declares field := by
  constructor
  · intro h
    exact ⟨h.reached, h.declares⟩
  · rintro ⟨hreached, hdeclares⟩
    exact ⟨hreached, hdeclares, by simp⟩

/-- A file found for a class declares it. -/
theorem type?_of_findClass? {file : SourceFile}
    (h : roots.findClass? tree className = some file) :
    ∃ decl, file.unit.type? className = some decl := by
  obtain ⟨root, _, hroot⟩ := List.exists_of_findSome?_eq_some h
  obtain ⟨path, _, hpath⟩ := List.exists_of_findSome?_eq_some hroot
  obtain ⟨-, -, hdeclared⟩ := SourceRoots.declaring?_eq_some hpath
  exact Option.isSome_iff_exists.mp hdeclared

/-- Accessors are needed for what is inherited and private or protected. -/
theorem Origin.needsAccessor_iff {origin : Origin} :
    origin.needsAccessor = true ↔
      ∃ name visibility, (visibility = Java.Visibility.private_ ∨ visibility = .protected_) ∧
        ((∃ path, origin = .source name path visibility) ∨ origin = .library name visibility) := by
  have hrestricted : ∀ visibility : Java.Visibility, visibility.isRestricted = true ↔
      visibility = .private_ ∨ visibility = .protected_ := by
    intro visibility
    cases visibility <;> simp [Java.Visibility.isRestricted]
  cases origin with
  | own path => simp [Origin.needsAccessor]
  | unresolved => simp [Origin.needsAccessor]
  | source name path visibility =>
      simp only [Origin.needsAccessor, hrestricted]
      constructor
      · intro h
        exact ⟨name, visibility, h, Or.inl ⟨path, rfl⟩⟩
      · rintro ⟨_, _, h, ⟨_, hsame⟩ | hsame⟩
        · cases hsame
          exact h
        · cases hsame
  | library name visibility =>
      simp only [Origin.needsAccessor, hrestricted]
      constructor
      · intro h
        exact ⟨name, visibility, h, Or.inr rfl⟩
      · rintro ⟨_, _, h, ⟨_, hsame⟩ | hsame⟩
        · cases hsame
        · cases hsame
          exact h

/-- The chain of a class that was found, and the declarations counted from that class. -/
theorem resolveField_eq_ok {libraries : LibraryLookup} {answer : Resolution}
    (h : resolveField roots libraries tree className field = .ok answer) :
    ∃ file origin, roots.findClass? tree className = some file ∧
      answer = ⟨className, field, origin⟩ ∧
      chainOrigin libraries field
        ((⟨file, className⟩ : Visit).chainFrom roots tree (roots.sources tree) []) =
          .ok origin := by
  cases hfile : roots.findClass? tree className with
  | none => simp [resolveField, hfile] at h
  | some file =>
      rw [resolveField_of_found hfile] at h
      cases horigin : chainOrigin libraries field
          ((⟨file, className⟩ : Visit).chainFrom roots tree (roots.sources tree) []) with
      | error e => simp [horigin, Except.map] at h
      | ok origin => exact ⟨file, origin, rfl, by simpa [horigin, Except.map] using h.symm, horigin⟩

/-- An answer names the nearest declaration, or there is none. -/
theorem nearest_or_none {libraries : LibraryLookup} {answer : Resolution}
    (h : resolveField roots libraries tree className field = .ok answer) :
    (∃ link, IsNearest roots tree className field 0 link ∧ answer.origin = .own link.path) ∨
      (∃ n link declared, IsNearest roots tree className field (n + 1) link ∧
        link.decl.field? field = some declared ∧
        answer.origin =
          .source (link.unit.qualify link.decl.name) link.path declared.visibility) ∨
      (∀ n link, ancestor? roots tree className n = some link → ¬ link.Declares field) ∧
        (answer.origin = .unresolved ∨
          ∃ name visibility, answer.origin = .library name visibility ∧
            LeavesSource roots tree className) := by
  obtain ⟨file, origin, hfile, rfl, horigin⟩ := resolveField_eq_ok h
  have hancestor : ∀ n, ancestor? roots tree className n =
      Visit.ancestor? roots tree ⟨file, className⟩ n := by
    intro n
    simp [ancestor?, hfile]
  rcases Visit.chainOrigin_eq_ok horigin with
    ⟨link, hlink, hdeclares, rfl⟩ | ⟨n, link, declared, hlink, hdeclared, hfirst, rfl⟩ |
    ⟨hnone, hrest⟩
  · refine Or.inl ⟨link, ⟨by rw [hancestor, hlink], hdeclares, by simp⟩, rfl⟩
  · refine Or.inr (Or.inl ⟨n, link, declared, ⟨by rw [hancestor, hlink], ?_, ?_⟩, hdeclared, rfl⟩)
    · simp [Link.Declares, hdeclared]
    · intro i hi below hbelow
      exact hfirst i hi below (by rw [← hancestor, hbelow])
  · simp only [← hancestor] at hnone hrest
    exact Or.inr (Or.inr ⟨hnone, hrest⟩)

section Answers

variable {libraries : LibraryLookup} {answer : Resolution}
  (h : resolveField roots libraries tree className field = .ok answer)

include h

/-- The field is the class's own exactly if declaration number zero declares it. -/
theorem origin_eq_own_iff (path : Path) :
    answer.origin = .own path ↔
      ∃ first, ancestor? roots tree className 0 = some first ∧ first.Declares field ∧
        path = first.path := by
  constructor
  · intro hpath
    rcases nearest_or_none h with
      ⟨own, hown, horigin⟩ | ⟨_, _, _, _, _, horigin⟩ | ⟨_, horigin | ⟨_, _, horigin, _⟩⟩
    · rw [horigin] at hpath
      cases hpath
      exact ⟨own, hown.reached, hown.declares, rfl⟩
    all_goals
      rw [horigin] at hpath
      cases hpath
  · rintro ⟨first, hreached, hdeclares, rfl⟩
    have hzero := isNearest_zero_iff.mpr ⟨hreached, hdeclares⟩
    rcases nearest_or_none h with ⟨own, hown, horigin⟩ | ⟨n, _, _, hnear, _⟩ | ⟨hnone, _⟩
    · rw [horigin, (hown.unique hzero).2]
    · have hsame := (hnear.unique hzero).1
      omega
    · exact absurd hdeclares (hnone 0 first hreached)

/-- The field is inherited in source code exactly if a later declaration is the nearest, and the
answer describes that one. -/
theorem origin_eq_source_iff (name : String) (path : Path) (visibility : Java.Visibility) :
    answer.origin = .source name path visibility ↔
      ∃ n link declared, 1 ≤ n ∧ IsNearest roots tree className field n link ∧
        link.decl.field? field = some declared ∧
        name = link.unit.qualify link.decl.name ∧ path = link.path ∧
        visibility = declared.visibility := by
  constructor
  · intro hsource
    rcases nearest_or_none h with
      ⟨_, _, horigin⟩ | ⟨n, link, declared, hnear, hdeclared, horigin⟩ |
      ⟨_, horigin | ⟨_, _, horigin, _⟩⟩
    case inr.inl =>
      rw [horigin] at hsource
      cases hsource
      exact ⟨n + 1, link, declared, by omega, hnear, hdeclared, rfl, rfl, rfl⟩
    all_goals
      rw [horigin] at hsource
      cases hsource
  · rintro ⟨m, other, found, hm, hother, hfound, rfl, rfl, rfl⟩
    rcases nearest_or_none h with
      ⟨_, hown, _⟩ | ⟨n, link, declared, hnear, hdeclared, horigin⟩ | ⟨hnone, _⟩
    · have hzero := (hown.unique hother).1
      omega
    · obtain ⟨_, rfl⟩ := hnear.unique hother
      obtain rfl : declared = found := Option.some.inj (hdeclared.symm.trans hfound)
      exact horigin
    · exact absurd hother.declares (hnone m other hother.reached)

/-- What is left to library classes or unresolved is declared nowhere on the way up. -/
theorem not_declares_of_lost
    (hlost : answer.origin = .unresolved ∨
      ∃ name visibility, answer.origin = .library name visibility) (n : Nat) (link : Link)
    (hreached : ancestor? roots tree className n = some link) : ¬ link.Declares field := by
  rcases nearest_or_none h with ⟨_, _, horigin⟩ | ⟨_, _, _, _, _, horigin⟩ | ⟨hnone, _⟩
  case inr.inr => exact hnone n link hreached
  all_goals
    rcases hlost with hlost | ⟨_, _, hlost⟩ <;>
      · rw [horigin] at hlost
        cases hlost

/-- Library classes are asked only where source code ends at a superclass without a file. -/
theorem leavesSource_of_library {name : String} {visibility : Java.Visibility}
    (hlibrary : answer.origin = .library name visibility) : LeavesSource roots tree className := by
  rcases nearest_or_none h with
    ⟨_, _, horigin⟩ | ⟨_, _, _, _, _, horigin⟩ | ⟨_, horigin | ⟨_, _, _, hleaves⟩⟩
  case inr.inr.inr => exact hleaves
  all_goals
    rw [horigin] at hlibrary
    cases hlibrary

theorem exists_first : ∃ first, ancestor? roots tree className 0 = some first := by
  obtain ⟨file, _, hfile, _, _⟩ := resolveField_eq_ok h
  obtain ⟨decl, hdecl⟩ := type?_of_findClass? hfile
  refine ⟨⟨file.path, file.unit, decl⟩, ?_⟩
  simp [ancestor?, hfile, Visit.ancestor?, Visit.link?, hdecl]

end Answers

/-- The nearest declaration wins. Say that the resolver answers. Then the field is the class's own
exactly if the class itself declares it; it comes from the source of a superclass exactly if that is
the nearest declaration above the class, and the answer names this declaration; only if no class of
the chain declares it is it left to library classes or unresolved, and to library classes only where
the last class of the chain names a superclass for which no root holds a file. Accessors are needed
exactly for what is inherited and private or protected. -/
theorem nearest_declaration_wins (roots : SourceRoots) (libraries : LibraryLookup)
    (tree : FileTree) (className field : String) (answer : Resolution)
    (h : resolveField roots libraries tree className field = .ok answer) :
    answer.className = className ∧ answer.fieldName = field ∧
      (∃ first, ancestor? roots tree className 0 = some first) ∧
      (∀ path, answer.origin = .own path ↔
        ∃ first, ancestor? roots tree className 0 = some first ∧ first.Declares field ∧
          path = first.path) ∧
      (∀ name path visibility, answer.origin = .source name path visibility ↔
        ∃ n link declared, 1 ≤ n ∧ IsNearest roots tree className field n link ∧
          link.decl.field? field = some declared ∧
          name = link.unit.qualify link.decl.name ∧ path = link.path ∧
          visibility = declared.visibility) ∧
      ((answer.origin = .unresolved ∨ ∃ name visibility, answer.origin = .library name visibility) →
        ∀ n link, ancestor? roots tree className n = some link → ¬ link.Declares field) ∧
      (∀ name visibility, answer.origin = .library name visibility →
        LeavesSource roots tree className) ∧
      (answer.needsAccessor = true ↔
        ∃ name visibility, (visibility = .private_ ∨ visibility = .protected_) ∧
          ((∃ path, answer.origin = .source name path visibility) ∨
            answer.origin = .library name visibility)) := by
  obtain ⟨_, _, _, rfl, _⟩ := resolveField_eq_ok h
  refine ⟨rfl, rfl, exists_first h, origin_eq_own_iff h, origin_eq_source_iff h,
    not_declares_of_lost h, ?_, Origin.needsAccessor_iff⟩
  intro name visibility hlibrary
  exact leavesSource_of_library h hlibrary

/-- A class in one root whose superclass lies in another root, beside a superclass of its own. -/
def twoRoots : SourceRoots := ⟨[⟨"app"⟩, ⟨"lib"⟩]⟩

def twoRootsTree : FileTree where
  nodes :=
    [(["app"], .directory), (["lib"], .directory), (["lib", "q"], .directory),
      (["app", "Leaf.java"], .file "import q.Mid; class Leaf extends Mid {}".toUTF8),
      (["lib", "q", "Base.java"], .file "package q; class Base { private int id; }".toUTF8),
      (["lib", "q", "Mid.java"], .file "package q; class Mid extends Base {}".toUTF8)]

theorem twoRoots_findClass? :
    twoRoots.findClass? twoRootsTree "Leaf" =
      (SourceRoots.declaring? twoRootsTree "Leaf" ⟨"app/Leaf.java"⟩).or
        (SourceRoots.findClass? ⟨[⟨"lib"⟩]⟩ twoRootsTree "Leaf") := by
  have hbelow : twoRootsTree.filesBelow ["app"] = [["Leaf.java"]] :=
    List.mergeSort_of_pairwise (by decide)
  have hunder : twoRootsTree.filesUnder ⟨"app"⟩ = [⟨"app/Leaf.java"⟩] := by
    change (twoRootsTree.filesBelow ["app"]).map _ = _
    rw [hbelow]
    rfl
  simp only [SourceRoots.findClass?, twoRoots, List.findSome?_cons, hunder, List.findSome?_nil]
  cases SourceRoots.declaring? twoRootsTree "Leaf" ⟨"app/Leaf.java"⟩ <;> rfl

theorem twoRoots_sources :
    twoRoots.sources twoRootsTree =
      [["app", "Leaf.java"], ["lib", "q", "Base.java"], ["lib", "q", "Mid.java"]] := by
  have happ : twoRootsTree.filesBelow ["app"] = [["Leaf.java"]] :=
    List.mergeSort_of_pairwise (by decide)
  have hlib : twoRootsTree.filesBelow ["lib"] = [["q", "Base.java"], ["q", "Mid.java"]] :=
    List.mergeSort_of_pairwise (by decide)
  change (twoRootsTree.filesBelow ["app"]).map _ ++
    ((twoRootsTree.filesBelow ["lib"]).map _ ++ []) = _
  rw [happ, hlib]
  rfl

/-- A private field two superclasses up, behind an import into another root. -/
theorem nearest_declaration_wins_grandparent :
    ∃ n link, 1 ≤ n ∧ IsNearest twoRoots twoRootsTree "Leaf" "id" n link ∧
      link.unit.qualify link.decl.name = "q.Base" ∧ link.path = ⟨"lib/q/Base.java"⟩ := by
  have hanswer :
    (resolveField twoRoots (fun _ _ => .unloadable) twoRootsTree "Leaf" "id").toOption =
      some ⟨"Leaf", "id", .source "q.Base" ⟨"lib/q/Base.java"⟩ .private_⟩ := by
    rw [resolveField, twoRoots_findClass?]
    simp only [chain, twoRoots_sources]
    decide +kernel
  have hok : resolveField twoRoots (fun _ _ => .unloadable) twoRootsTree "Leaf" "id" =
      .ok ⟨"Leaf", "id", .source "q.Base" ⟨"lib/q/Base.java"⟩ .private_⟩ := by
    cases h : resolveField twoRoots (fun _ _ => .unloadable) twoRootsTree "Leaf" "id" with
    | error e => simp [h, Except.toOption] at hanswer
    | ok answer => simpa [h, Except.toOption] using hanswer
  have hnearest := nearest_declaration_wins _ _ _ _ _ _ hok
  obtain ⟨n, link, _, hn, hlink, _, hname, hpath, _⟩ := (hnearest.2.2.2.2.1 _ _ _).mp rfl
  exact ⟨n, link, hn, hlink, hname.symm, hpath.symm⟩

end WireMapper.Hierarchy
