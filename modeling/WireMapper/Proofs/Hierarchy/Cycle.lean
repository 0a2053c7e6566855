import WireMapper.Proofs.Hierarchy.Nearest
import WireMapper.Proofs.Hierarchy.Sources

/-!
A walk ends, and it ends in a cycle exactly when it comes back to a path that it entered. The visits
of a walk are counted here without regard to what was entered before; a walk enters a first part of
them, each path once, and either runs out of visits or meets a path again.
-/

namespace WireMapper.Hierarchy

/-- The visit after a visit, in a walk that looks for a field: the file declares the expected class,
the class does not declare the field, and its superclass clause leads to a file. -/
def Visit.next? (roots : SourceRoots) (tree : FileTree) (field : String) (v : Visit) :
    Option Visit :=
  v.link?.bind fun link =>
    if (link.decl.field? field).isSome then none else link.ascent? roots tree

def Visit.after? (roots : SourceRoots) (tree : FileTree) (field : String) (v : Visit) :
    Nat → Option Visit
  | 0 => some v
  | n + 1 => (v.after? roots tree field n).bind (Visit.next? roots tree field)

/-- The `n`-th visit of a walk that looks for a field from the class found under a name. -/
def visit? (roots : SourceRoots) (tree : FileTree) (className field : String) (n : Nat) :
    Option Visit :=
  (roots.findClass? tree className).bind fun file =>
    Visit.after? roots tree field ⟨file, className⟩ n

/-- No class of a chain declares the field, and the chain ends in a fault. -/
def Faults (field : String) (chain : List Link × ChainEnd) (e : Error) : Prop :=
  (∀ link ∈ chain.1, ¬ link.Declares field) ∧ chain.2 = .failed e

variable {roots : SourceRoots} {tree : FileTree} {className field : String}
  {libraries : LibraryLookup}

theorem Visit.after?_succ {v w : Visit} (h : v.next? roots tree field = some w) (n : Nat) :
    v.after? roots tree field (n + 1) = w.after? roots tree field n := by
  induction n with
  | zero => simp [Visit.after?, h]
  | succ n ih =>
      rw [Visit.after?, ih]
      rfl

theorem visit?_eq_none_of_le {m n : Nat} (h : visit? roots tree className field m = none)
    (hle : m ≤ n) : visit? roots tree className field n = none := by
  obtain ⟨k, rfl⟩ := Nat.exists_eq_add_of_le hle
  unfold visit? at h ⊢
  cases hfile : roots.findClass? tree className with
  | none => rfl
  | some file =>
      rw [hfile] at h
      induction k with
      | zero => exact h
      | succ k ih =>
          have hk := ih (Nat.le_add_right m k)
          change Visit.after? roots tree field ⟨file, className⟩ (m + k) = none at hk
          change (Visit.after? roots tree field ⟨file, className⟩ (m + k)).bind _ = none
          rw [hk]
          rfl

theorem endOrigin_eq_error {links : List Link} {fin : ChainEnd} {e : Error} :
    endOrigin libraries links field fin = .error e ↔ fin = .failed e := by
  cases fin with
  | top => simp [endOrigin]
  | failed other => simp [endOrigin]
  | outside superclass => cases hlast : links.getLast? <;> simp [endOrigin, hlast]

/-- An answer fails exactly for a fault that no declaration comes before. -/
theorem chainOrigin_eq_error (libraries : LibraryLookup) {chain : List Link × ChainEnd}
    {e : Error} :
    chainOrigin libraries field chain = .error e ↔ Faults field chain e := by
  obtain ⟨links, fin⟩ := chain
  rcases chainOrigin_cases libraries field links fin with
    ⟨link, hlink, hdeclares, horigin⟩ | ⟨n, link, declared, hlink, hdeclared, _, horigin⟩ |
    ⟨hnone, horigin⟩
  · rw [horigin]
    constructor
    · intro h
      cases h
    · rintro ⟨hnone, _⟩
      exact absurd hdeclares (hnone link (List.mem_of_getElem? hlink))
  · have hdeclares : link.Declares field := by
      rw [Link.Declares, hdeclared]
      rfl
    rw [horigin]
    constructor
    · intro h
      cases h
    · rintro ⟨hnone, _⟩
      exact absurd hdeclares (hnone link (List.mem_of_getElem? hlink))
  · rw [horigin, endOrigin_eq_error]
    constructor
    · intro hfin
      exact ⟨hnone, hfin⟩
    · intro h
      exact h.2

theorem faults_cons {link : Link} {rest : List Link × ChainEnd} {e : Error} :
    Faults field (link :: rest.1, rest.2) e ↔ ¬ link.Declares field ∧ Faults field rest e := by
  simp [Faults, and_assoc]

/-- Reading a file never reports a cycle, so only the bookkeeping of the walk does. -/
theorem read_ne_cyclic {path : Path} {classes : List String} :
    SourceFile.read tree path ≠ .error (.cyclic classes) := by
  intro hread
  rcases SourceFile.read_eq_error hread with ⟨_, hcyclic⟩ | ⟨_, hcyclic⟩
  · cases hcyclic
  · cases hcyclic

theorem summit_ne_cyclic {link : Link} {classes : List String}
    (hascent : link.ascent? roots tree = none) :
    link.summit roots tree ≠ .failed (.cyclic classes) := by
  rcases Link.ascent?_eq_none hascent with ⟨h, _⟩ | ⟨_, h, _⟩ | ⟨path, e, hread, h⟩
  · simp [h]
  · simp [h]
  · rw [h]
    rintro hcyclic
    cases hcyclic
    exact read_ne_cyclic hread

/-- What a walk makes of the visits from `v` on, when the paths `before` were entered already, by
classes with the names `entered`: it enters the visits of the trail, each at a new path. -/
structure Trail (roots : SourceRoots) (tree : FileTree) (field : String)
    (unentered : List (List String)) (v : Visit) (trail : List Visit) : Prop where
  visits : ∀ n < trail.length, v.after? roots tree field n = trail[n]?
  nodup : (trail.map Visit.place).Nodup
  fresh : ∀ w ∈ trail, w.place ∈ unentered
  bounded : trail.length ≤ unentered.length

/-- How a walk ends after its trail: it runs out of visits, and then there is no cycle; or the next
visit is at a path that was entered, and then this is the fault that ends the chain. -/
inductive Ends (roots : SourceRoots) (tree : FileTree) (field : String)
    (before : List (List String)) (entered : List String) (v : Visit) (trail : List Visit)
    (chain : List Link × ChainEnd) : Prop where
  | out (hnext : v.after? roots tree field trail.length = none)
      (hchain : ∀ classes, ¬ Faults field chain (.cyclic classes))
  | again (w : Visit) (hnext : v.after? roots tree field trail.length = some w)
      (hplace : w.place ∈ before ++ trail.map Visit.place)
      (hchain : Faults field chain (.cyclic (entered ++ (trail ++ [w]).map Visit.className)))

theorem Visit.next?_eq_none_of_declares {v : Visit} {link : Link} (hlink : v.link? = some link)
    (hdeclares : link.Declares field) : v.next? roots tree field = none := by
  simp [Visit.next?, hlink, show (link.decl.field? field).isSome from hdeclares]

/-- A walk goes on exactly through classes that do not declare the field. -/
theorem Visit.next?_of_not_declares {v : Visit} {link : Link} (hlink : v.link? = some link)
    (hdeclares : ¬ link.Declares field) :
    v.next? roots tree field = link.ascent? roots tree := by
  simp only [Visit.next?, hlink, Option.bind_some]
  exact if_neg hdeclares

theorem Trail.single {unentered : List (List String)} {v : Visit} (hplace : v.place ∈ unentered) :
    Trail roots tree field unentered v [v] where
  visits := by
    intro n hn
    obtain rfl : n = 0 := by simpa using hn
    rfl
  nodup := by simp
  fresh := by simpa using hplace
  bounded := List.length_pos_of_mem hplace

/-- A trail from the next visit, which keeps away from this path, is one from here. -/
theorem Trail.cons {unentered : List (List String)} {v w : Visit} {trail : List Visit}
    (hplace : v.place ∈ unentered) (hnext : v.next? roots tree field = some w)
    (htrail : Trail roots tree field (unvisitedAfter v.place unentered) w trail) :
    Trail roots tree field unentered v (v :: trail) where
  visits := by
    intro n hn
    cases n with
    | zero => rfl
    | succ n =>
        rw [Visit.after?_succ hnext, List.getElem?_cons_succ]
        exact htrail.visits n (by simpa using hn)
  nodup := by
    rw [List.map_cons, List.nodup_cons]
    refine ⟨?_, htrail.nodup⟩
    intro hmem
    obtain ⟨other, hother, hsame⟩ := List.mem_map.mp hmem
    exact (mem_unvisitedAfter.mp (htrail.fresh other hother)).2 hsame
  fresh := by
    intro other hother
    rcases List.mem_cons.mp hother with rfl | hother
    · exact hplace
    · exact (mem_unvisitedAfter.mp (htrail.fresh other hother)).1
  bounded := by
    have hless := length_unvisitedAfter_lt hplace
    have hbounded := htrail.bounded
    rw [List.length_cons]
    omega

/-- A walk ends as it does from the next visit on; the count of what was entered moves by one. -/
theorem Ends.cons {before : List (List String)} {entered : List String} {v w : Visit}
    {link : Link} {trail : List Visit} {chain : List Link × ChainEnd}
    (hnext : v.next? roots tree field = some w) (hdeclares : ¬ link.Declares field)
    (hends : Ends roots tree field (before ++ [v.place]) (entered ++ [v.className]) w trail chain) :
    Ends roots tree field before entered v (v :: trail) (link :: chain.1, chain.2) := by
  cases hends with
  | out hlast hchain =>
      refine .out ?_ ?_
      · rw [List.length_cons, Visit.after?_succ hnext, hlast]
      · intro classes hfaults
        exact hchain classes (faults_cons.mp hfaults).2
  | again u hlast hplace hchain =>
      refine .again u ?_ ?_ ?_
      · rw [List.length_cons, Visit.after?_succ hnext, hlast]
      · simpa using hplace
      · exact faults_cons.mpr ⟨hdeclares, by simpa using hchain⟩

variable (roots tree field) in
/-- Every walk from below the roots has a trail and an end. -/
theorem exists_trail (unentered : List (List String)) (entered : List String) (v : Visit)
    (before : List (List String)) (hlocated : v.Located roots tree)
    (hbefore : ∀ place ∈ roots.sources tree, place ∉ unentered → place ∈ before) :
    ∃ trail, Trail roots tree field unentered v trail ∧
      Ends roots tree field before entered v trail
        (v.chainFrom roots tree unentered entered) := by
  induction unentered, entered, v using walk_induction roots tree generalizing before with
  | again unentered entered v hplace =>
      refine ⟨[], ⟨by simp, by simp, by simp, by simp⟩, .again v rfl ?_ ?_⟩
      · simpa using hbefore _ hlocated.place_mem hplace
      · rw [chainFrom_of_entered hplace]
        exact ⟨by simp, rfl⟩
  | undeclared unentered entered v hplace hlink =>
      refine ⟨[v], Trail.single hplace, .out ?_ ?_⟩
      · simp [Visit.after?, Visit.next?, hlink]
      · intro classes hfaults
        rw [chainFrom_of_undeclared hplace hlink] at hfaults
        cases hfaults.2
  | summit unentered entered v link hplace hlink hascent =>
      refine ⟨[v], Trail.single hplace, .out ?_ ?_⟩
      · simp [Visit.after?, Visit.next?, hlink, hascent]
      · intro classes hfaults
        rw [chainFrom_of_summit hplace hlink hascent] at hfaults
        exact summit_ne_cyclic hascent hfaults.2
  | ascent unentered entered v link w hplace hlink hascent ih =>
      rw [chainFrom_of_ascent hplace hlink hascent]
      by_cases hdeclares : link.Declares field
      · -- The walk stops at the declaration, though the chain goes on above it.
        refine ⟨[v], Trail.single hplace, .out ?_ ?_⟩
        · simp [Visit.after?, Visit.next?_eq_none_of_declares hlink hdeclares]
        · intro classes hfaults
          exact (faults_cons.mp hfaults).1 hdeclares
      · have hnext : v.next? roots tree field = some w := by
          rw [Visit.next?_of_not_declares hlink hdeclares, hascent]
        have hbefore' : ∀ place ∈ roots.sources tree,
            place ∉ unvisitedAfter v.place unentered → place ∈ before ++ [v.place] := by
          intro place hsource hentered
          rw [mem_unvisitedAfter, not_and, Decidable.not_not] at hentered
          by_cases hopen : place ∈ unentered
          · simp [hentered hopen]
          · simp [hbefore place hsource hopen]
        obtain ⟨trail, htrail, hends⟩ := ih (before ++ [v.place])
          (hlocated.ascent hlink hascent) hbefore'
        exact ⟨v :: trail, htrail.cons hplace hnext, hends.cons hnext hdeclares⟩

variable (roots tree) in
/-- No path occurs twice in a chain. -/
theorem chainFrom_nodup (unentered : List (List String)) (entered : List String) (v : Visit) :
    ((v.chainFrom roots tree unentered entered).1.map fun link => link.path.components).Nodup ∧
      ∀ link ∈ (v.chainFrom roots tree unentered entered).1,
        link.path.components ∈ unentered := by
  induction unentered, entered, v using walk_induction roots tree with
  | again unentered entered v hplace => simp [chainFrom_of_entered hplace]
  | undeclared unentered entered v hplace hlink => simp [chainFrom_of_undeclared hplace hlink]
  | summit unentered entered v link hplace hlink hascent =>
      have hpath : link.path.components = v.place := by
        rw [(Visit.link?_eq_some hlink).1, Visit.place]
      rw [chainFrom_of_summit hplace hlink hascent]
      simpa [hpath] using hplace
  | ascent unentered entered v link w hplace hlink hascent ih =>
      obtain ⟨hnodup, hmem⟩ := ih
      have hpath : link.path.components = v.place := by
        rw [(Visit.link?_eq_some hlink).1, Visit.place]
      rw [chainFrom_of_ascent hplace hlink hascent]
      constructor
      · rw [List.map_cons, List.nodup_cons]
        refine ⟨?_, hnodup⟩
        intro hagain
        obtain ⟨other, hother, hsame⟩ := List.mem_map.mp hagain
        exact (mem_unvisitedAfter.mp (hmem other hother)).2 (hsame.trans hpath)
      · intro other hother
        rcases List.mem_cons.mp hother with rfl | hother
        · exact hpath ▸ hplace
        · exact (mem_unvisitedAfter.mp (hmem other hother)).1

/-- A class that was found is answered with an error exactly if its chain ends in that fault. -/
theorem resolveField_eq_error {file : SourceFile} {e : Error}
    (hfile : roots.findClass? tree className = some file) :
    resolveField roots libraries tree className field = .error e ↔
      Faults field
        ((⟨file, className⟩ : Visit).chainFrom roots tree (roots.sources tree) []) e := by
  rw [resolveField_of_found hfile, ← chainOrigin_eq_error libraries]
  cases chainOrigin libraries field
      ((⟨file, className⟩ : Visit).chainFrom roots tree (roots.sources tree) []) with
  | error fault => simp [Except.map]
  | ok origin => simp [Except.map]

/-- The walk that looks for a field from a class: it enters a first part of the visits, each at a
new path, and either runs out of visits, or reports the classes up to a visit at a path that it
entered. -/
theorem walk_ends (roots : SourceRoots) (libraries : LibraryLookup) (tree : FileTree)
    (className field : String) :
    ∃ trail : List Visit,
      (∀ n < trail.length, visit? roots tree className field n = trail[n]?) ∧
      (trail.map Visit.place).Nodup ∧
      trail.length ≤ (roots.sources tree).length ∧
      ((visit? roots tree className field trail.length = none ∧
          ∀ classes,
            resolveField roots libraries tree className field ≠ .error (.cyclic classes)) ∨
        ∃ again, visit? roots tree className field trail.length = some again ∧
          again.place ∈ trail.map Visit.place ∧
          resolveField roots libraries tree className field =
            .error (.cyclic ((trail ++ [again]).map Visit.className))) := by
  cases hfile : roots.findClass? tree className with
  | none =>
      refine ⟨[], by simp, by simp, by simp, Or.inl ⟨?_, ?_⟩⟩
      · simp [visit?, hfile]
      · simp [resolveField, hfile]
  | some file =>
      have hvisit : ∀ n, visit? roots tree className field n =
          Visit.after? roots tree field ⟨file, className⟩ n := by
        intro n
        simp [visit?, hfile]
      obtain ⟨trail, htrail, hends⟩ := exists_trail roots tree field (roots.sources tree) []
        ⟨file, className⟩ [] (located_of_findClass? hfile)
        (fun place hsource hnot => absurd hsource hnot)
      simp only [hvisit]
      refine ⟨trail, htrail.visits, htrail.nodup, htrail.bounded, ?_⟩
      cases hends with
      | out hnext hchain =>
          refine Or.inl ⟨hnext, ?_⟩
          intro classes hcyclic
          exact hchain classes ((resolveField_eq_error hfile).mp hcyclic)
      | again w hnext hplace hchain =>
          exact Or.inr ⟨w, hnext, by simpa using hplace, (resolveField_eq_error hfile).mpr hchain⟩

/-- Cycles are found, and nothing else is one. Looking for a field from a class enters each source
path at most once, and so does the chain that is kept for it. The answer is a cycle exactly if two
of the visits that following superclass clauses leads to are at the same path. The classes reported
are those of the visits up to the first one at a path that was entered before, in order. -/
theorem cycle_detection_exact (roots : SourceRoots) (libraries : LibraryLookup) (tree : FileTree)
    (className field : String) :
    (∃ trail : List Visit,
      (∀ n < trail.length, visit? roots tree className field n = trail[n]?) ∧
      (trail.map Visit.place).Nodup ∧
      trail.length ≤ (roots.sources tree).length ∧
      ((visit? roots tree className field trail.length = none ∧
          ∀ classes,
            resolveField roots libraries tree className field ≠ .error (.cyclic classes)) ∨
        ∃ again, visit? roots tree className field trail.length = some again ∧
          again.place ∈ trail.map Visit.place ∧
          resolveField roots libraries tree className field =
            .error (.cyclic ((trail ++ [again]).map Visit.className)))) ∧
    (∀ file, roots.findClass? tree className = some file →
      ((chain roots tree file className).1.map fun link => link.path.components).Nodup) ∧
    ((∃ classes, resolveField roots libraries tree className field = .error (.cyclic classes)) ↔
      ∃ m n v w, m < n ∧ visit? roots tree className field m = some v ∧
        visit? roots tree className field n = some w ∧ v.place = w.place) := by
  obtain ⟨trail, hvisits, hnodup, hbounded, hends⟩ :=
    walk_ends roots libraries tree className field
  refine ⟨⟨trail, hvisits, hnodup, hbounded, hends⟩, ?_, ?_⟩
  · intro file _
    exact (chainFrom_nodup roots tree (roots.sources tree) [] ⟨file, className⟩).1
  · constructor
    · rintro ⟨classes, hcyclic⟩
      rcases hends with ⟨_, hnone⟩ | ⟨w, hnext, hplace, _⟩
      · exact absurd hcyclic (hnone classes)
      · obtain ⟨v, hv, hsame⟩ := List.mem_map.mp hplace
        obtain ⟨m, hm, hget⟩ := List.mem_iff_getElem.mp hv
        refine ⟨m, trail.length, v, w, hm, ?_, hnext, hsame⟩
        rw [hvisits m hm, List.getElem?_eq_getElem hm, hget]
    · rintro ⟨m, n, v, w, hlt, hv, hw, hsame⟩
      rcases hends with ⟨hnone, _⟩ | ⟨again, _, _, hcyclic⟩
      · -- Both visits are on the trail, where no path occurs twice.
        have hn : n < trail.length := by
          refine Decidable.byContradiction fun hge => ?_
          rw [visit?_eq_none_of_le hnone (by omega)] at hw
          cases hw
        rw [hvisits m (by omega)] at hv
        rw [hvisits n hn] at hw
        have hvplace : (trail.map Visit.place)[m]? = some v.place := by simp [hv]
        have hwplace : (trail.map Visit.place)[n]? = some v.place := by simp [hw, hsame]
        have heq := (List.getElem?_inj (by simpa using Nat.lt_trans hlt hn) hnodup).mp
          (hvplace.trans hwplace.symm)
        omega
      · exact ⟨_, hcyclic⟩

end WireMapper.Hierarchy
