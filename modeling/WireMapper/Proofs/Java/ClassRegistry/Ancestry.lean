import WireMapper.Proofs.FirstFound
import WireMapper.Proofs.Java.ClassRegistry.Lookup

/-!
The walk along the superclasses of a library class. Superclass links alone say which classes lie
above a class; they may be missing, lead nowhere or run in circles. The walk visits a first part of
these classes, each once, and stops where a link leads nowhere or to a class that it has visited.
From there on the classes only repeat, so the walk misses none of them, and what it finds first is
the nearest.
-/

namespace WireMapper.Java

/-- A class declares a field with a visibility. Of several fields of the name the first one counts.
-/
def LibraryClass.Declares (c : LibraryClass) (field : String) (visibility : Visibility) : Prop :=
  FirstIn c.fields (fun f v => f.name = field ∧ f.visibility = v) visibility

/-- Looking a field up by name gives the first declaration under it. -/
theorem LibraryClass.declares_iff {c : LibraryClass} {field : String} {visibility : Visibility} :
    c.Declares field visibility ↔ (c.field? field).map (·.visibility) = some visibility := by
  have hfind : (c.field? field).map (·.visibility) =
      c.fields.findSome? fun f => if f.name = field then some f.visibility else none := by
    rw [field?]
    induction c.fields with
    | nil => rfl
    | cons f fs ih => by_cases hf : f.name = field <;> simp [hf, ih]
  rw [hfind, Declares]
  exact (findSome?_eq_some_iff_firstIn fun f _ v => by simp).symm

namespace ClassRegistry

def superclassOf? (registry : ClassRegistry) (c : LibraryClass) : Option LibraryClass :=
  c.superclass?.bind registry.load?

def ancestor? (registry : ClassRegistry) (start : LibraryClass) : Nat → Option LibraryClass
  | 0 => some start
  | n + 1 => (registry.ancestor? start n).bind registry.superclassOf?

structure IsNearest (registry : ClassRegistry) (start : LibraryClass) (field : String) (n : Nat)
    (c : LibraryClass) (visibility : Visibility) : Prop where
  reached : registry.ancestor? start n = some c
  declares : c.Declares field visibility
  nearest : ∀ i < n, ∀ below, registry.ancestor? start i = some below →
    ∀ v, ¬ below.Declares field v

variable {registry : ClassRegistry} {start c d : LibraryClass} {field : String}
  {visibility : Visibility} {unvisited : List String}

theorem ancestor?_succ (h : registry.superclassOf? start = some c) (n : Nat) :
    registry.ancestor? start (n + 1) = registry.ancestor? c n := by
  induction n with
  | zero => exact h
  | succ n ih =>
      rw [ancestor?, ih]
      rfl

theorem ancestryFrom_of_visited (h : start.name ∉ unvisited) :
    registry.ancestryFrom unvisited start = [] := by
  rw [ancestryFrom, if_neg h]

theorem ancestryFrom_of_end (h : start.name ∈ unvisited)
    (hend : registry.superclassOf? start = none) :
    registry.ancestryFrom unvisited start = [start] := by
  rw [superclassOf?] at hend
  rw [ancestryFrom, if_pos h, hend]

theorem ancestryFrom_of_link (h : start.name ∈ unvisited)
    (hlink : registry.superclassOf? start = some c) :
    registry.ancestryFrom unvisited start =
      start :: registry.ancestryFrom (unvisitedAfter start.name unvisited) c := by
  rw [superclassOf?] at hlink
  rw [ancestryFrom, if_pos h, hlink]

/-- What a walk from a class visits that may visit classes of some names: the classes above it in
order, each once, up to a link that leads nowhere, to a class that may not be visited, or to one
that was. -/
structure Walks (registry : ClassRegistry) (unvisited : List String) (start : LibraryClass)
    (classes : List LibraryClass) : Prop where
  links : ∀ n < classes.length, classes[n]? = registry.ancestor? start n
  once : (classes.map (·.name)).Nodup
  allowed : ∀ name ∈ classes.map (·.name), name ∈ unvisited
  stops : ∀ c, registry.ancestor? start classes.length = some c →
    c.name ∉ unvisited ∨ c.name ∈ classes.map (·.name)

theorem Walks.visited (h : start.name ∉ unvisited) : registry.Walks unvisited start [] where
  links := by simp
  once := List.nodup_nil
  allowed := by simp
  stops := by
    intro c hc
    cases hc
    exact Or.inl h

theorem Walks.last (h : start.name ∈ unvisited) (hend : registry.superclassOf? start = none) :
    registry.Walks unvisited start [start] where
  links := by
    intro n hn
    obtain rfl : n = 0 := by simpa using hn
    rfl
  once := List.nodup_singleton _
  allowed := by simpa using h
  stops := by
    intro c hc
    cases hend.symm.trans hc

/-- A walk from the superclass, which keeps away from this class, makes one from here. -/
theorem Walks.cons {classes : List LibraryClass} (h : start.name ∈ unvisited)
    (hlink : registry.superclassOf? start = some c)
    (hrest : registry.Walks (unvisitedAfter start.name unvisited) c classes) :
    registry.Walks unvisited start (start :: classes) where
  links := by
    intro n hn
    cases n with
    | zero => rfl
    | succ n =>
        rw [List.getElem?_cons_succ, ancestor?_succ hlink]
        exact hrest.links n (by simpa using hn)
  once := by
    rw [List.map_cons, List.nodup_cons]
    exact ⟨fun hmem => (mem_unvisitedAfter.mp (hrest.allowed _ hmem)).2 rfl, hrest.once⟩
  allowed := by
    rw [List.map_cons, List.forall_mem_cons]
    exact ⟨h, fun name hname => (mem_unvisitedAfter.mp (hrest.allowed name hname)).1⟩
  stops := by
    intro d hd
    rw [List.length_cons, ancestor?_succ hlink] at hd
    rw [List.map_cons, List.mem_cons]
    rcases hrest.stops d hd with hunvisited | hvisited
    · by_cases hagain : d.name = start.name
      · exact Or.inr (Or.inl hagain)
      · exact Or.inl fun hd => hunvisited (mem_unvisitedAfter.mpr ⟨hd, hagain⟩)
    · exact Or.inr (Or.inr hvisited)

/-- The classes that are collected are those that such a walk visits. -/
theorem walks_ancestryFrom (registry : ClassRegistry) (unvisited : List String)
    (start : LibraryClass) :
    registry.Walks unvisited start (registry.ancestryFrom unvisited start) := by
  induction unvisited, start using ancestryFrom.induct registry with
  | case1 unvisited start hname hend =>
      rw [ancestryFrom_of_end hname hend]
      exact .last hname hend
  | case2 unvisited start hname next hlink ih =>
      rw [ancestryFrom_of_link hname hlink]
      exact .cons hname hlink ih
  | case3 unvisited start hname =>
      rw [ancestryFrom_of_visited hname]
      exact .visited hname

theorem get?_name_of_ancestor? (hstart : registry.get? start.name = some start) {n : Nat}
    (h : registry.ancestor? start n = some c) : registry.get? c.name = some c := by
  cases n with
  | zero =>
      cases h
      exact hstart
  | succ n =>
      obtain ⟨below, -, hlink⟩ := Option.bind_eq_some_iff.mp h
      obtain ⟨superclass, -, hload⟩ := Option.bind_eq_some_iff.mp hlink
      exact get?_name_of_load? hload

section

variable {classes : List LibraryClass}
  (hwalk : registry.Walks (registry.classes.map (·.name)) start classes)
  (hstart : registry.get? start.name = some start)

include hwalk hstart

/-- The walk has visited a class that it does not visit where it stops. -/
theorem Walks.mem_of_le {n : Nat} (hn : n ≤ classes.length)
    (h : registry.ancestor? start n = some c) : c ∈ classes := by
  rcases Nat.lt_or_eq_of_le hn with hn | rfl
  · exact List.mem_of_getElem? ((hwalk.links n hn).trans h)
  · have hc := get?_name_of_ancestor? hstart h
    have hvisited : c.name ∈ classes.map (·.name) :=
      (hwalk.stops c h).resolve_left (not_not_intro (List.mem_map_of_mem (mem_of_get? hc)))
    obtain ⟨d, hd, hname⟩ := List.mem_map.mp hvisited
    obtain ⟨i, hi⟩ := List.getElem?_of_mem hd
    have hlength := (List.getElem?_eq_some_iff.mp hi).1
    have hkept := get?_name_of_ancestor? hstart ((hwalk.links i hlength).symm.trans hi)
    rw [hname, hc] at hkept
    cases hkept
    exact hd

/-- No class above the start is missed: behind a class that was visited comes another one that was.
-/
theorem Walks.mem_of_ancestor? {n : Nat} (h : registry.ancestor? start n = some c) :
    c ∈ classes := by
  induction n generalizing c with
  | zero => exact hwalk.mem_of_le hstart (Nat.zero_le _) h
  | succ n ih =>
      obtain ⟨below, hbelow, hlink⟩ := Option.bind_eq_some_iff.mp h
      obtain ⟨i, hi⟩ := List.getElem?_of_mem (ih hbelow)
      have hlength := (List.getElem?_eq_some_iff.mp hi).1
      apply hwalk.mem_of_le hstart (n := i + 1) hlength
      rw [ancestor?, ← hwalk.links i hlength, hi]
      exact hlink

end

theorem IsNearest.unique {n m : Nat} {v w : Visibility}
    (hc : registry.IsNearest start field n c v) (hd : registry.IsNearest start field m d w) :
    c = d ∧ v = w := by
  have hnm : n = m := by
    rcases Nat.lt_trichotomy n m with h | h | h
    · exact absurd hc.declares (hd.nearest n h c hc.reached v)
    · exact h
    · exact absurd hd.declares (hc.nearest m h d hd.reached w)
  subst hnm
  obtain rfl : c = d := Option.some.inj (hc.reached.symm.trans hd.reached)
  have hv := LibraryClass.declares_iff.mp hc.declares
  exact ⟨rfl, Option.some.inj (hv.symm.trans (LibraryClass.declares_iff.mp hd.declares))⟩

theorem declares_iff_map {v : Visibility} {d : String} :
    (c.field? field).map (c.name, ·.visibility) = some (d, v) ↔
      c.Declares field v ∧ c.name = d := by
  rw [LibraryClass.declares_iff]
  cases c.field? field with
  | none => simp
  | some f => simp [and_comm]

theorem map_eq_none_iff :
    (c.field? field).map (c.name, ·.visibility) = none ↔ ∀ v, ¬ c.Declares field v := by
  simp only [LibraryClass.declares_iff, Option.map_eq_none_iff]
  cases c.field? field with
  | none => simp
  | some f => simp

section

variable {classes : List LibraryClass}
  (hwalk : registry.Walks (registry.classes.map (·.name)) start classes)

include hwalk

/-- What a walk meets first is nearest. -/
theorem Walks.nearest_of_findSome? {d : String} {v : Visibility}
    (h : classes.findSome? (fun c => (c.field? field).map (c.name, ·.visibility)) = some (d, v)) :
    ∃ n c, registry.IsNearest start field n c v ∧ c.name = d := by
  obtain ⟨before, c, after, rfl, hfound, hbefore⟩ := List.findSome?_eq_some_iff.mp h
  obtain ⟨hdeclares, hname⟩ := declares_iff_map.mp hfound
  have hreached : registry.ancestor? start before.length = some c := by
    rw [← hwalk.links before.length (by simp)]
    simp
  refine ⟨before.length, c, ⟨hreached, hdeclares, fun i hi below hbelow => ?_⟩, hname⟩
  rw [← hwalk.links i (by simp; omega), List.getElem?_append_left hi] at hbelow
  exact map_eq_none_iff.mp (hbefore below (List.mem_of_getElem? hbelow))

variable (hstart : registry.get? start.name = some start)

include hstart

/-- A search through the visited classes gives the nearest declaration of all that lie above. -/
theorem Walks.findSome?_eq_some_iff {d : String} {v : Visibility} :
    classes.findSome? (fun c => (c.field? field).map (c.name, ·.visibility)) = some (d, v) ↔
      ∃ n c, registry.IsNearest start field n c v ∧ c.name = d := by
  refine ⟨hwalk.nearest_of_findSome?, ?_⟩
  rintro ⟨n, c, hnearest, rfl⟩
  cases hfound : classes.findSome? fun c => (c.field? field).map (c.name, ·.visibility) with
  | none =>
      have hmem := hwalk.mem_of_ancestor? hstart hnearest.reached
      have hnone := map_eq_none_iff.mp (List.findSome?_eq_none_iff.mp hfound c hmem)
      exact absurd hnearest.declares (hnone v)
  | some found =>
      obtain ⟨m, other, hother, hname⟩ := hwalk.nearest_of_findSome? hfound
      obtain ⟨rfl, hv⟩ := hnearest.unique hother
      rw [hname, hv]

/-- A search in vain rules out every class above, also those that the walk did not come to. -/
theorem Walks.findSome?_eq_none_iff :
    classes.findSome? (fun c => (c.field? field).map (c.name, ·.visibility)) = none ↔
      ∀ n c v, registry.ancestor? start n = some c → ¬ c.Declares field v := by
  rw [List.findSome?_eq_none_iff]
  constructor
  · intro hnone n c v h
    exact map_eq_none_iff.mp (hnone c (hwalk.mem_of_ancestor? hstart h)) v
  · intro hnone c hc
    obtain ⟨i, hi⟩ := List.getElem?_of_mem hc
    have hlength := (List.getElem?_eq_some_iff.mp hi).1
    exact map_eq_none_iff.mpr fun v => hnone i c v ((hwalk.links i hlength).symm.trans hi)

end

section

variable {name : String}

theorem ancestry?_of_load? (h : registry.load? name = some start) :
    registry.ancestry? name =
      some (registry.ancestryFrom (registry.classes.map (·.name)) start) := by
  rw [ ancestry?, h]
  rfl

/-- Only a name that leads to no class is unloadable. -/
theorem findField_eq_unloadable_iff :
    registry.findField name field = .unloadable ↔ registry.load? name = none := by
  cases hload : registry.load? name with
  | none => simp [findField, ancestry?, hload]
  | some start =>
      rw [findField, ancestry?_of_load? hload]
      dsimp only
      split <;> simp

variable (hload : registry.load? name = some start)

include hload

theorem findField_eq_declared_iff {d : String} {v : Visibility} :
    registry.findField name field = .declared d v ↔
      ∃ n c, registry.IsNearest start field n c v ∧ c.name = d := by
  have hwalk := registry.walks_ancestryFrom (registry.classes.map (·.name)) start
  rw [← hwalk.findSome?_eq_some_iff (get?_name_of_load? hload), findField, ancestry?_of_load? hload]
  dsimp only
  split
  · rename_i hnone
    simp [hnone]
  · rename_i hfound
    simp [hfound]

theorem findField_eq_absent_iff :
    registry.findField name field = .absent ↔
      ∀ n c v, registry.ancestor? start n = some c → ¬ c.Declares field v := by
  have hwalk := registry.walks_ancestryFrom (registry.classes.map (·.name)) start
  rw [← hwalk.findSome?_eq_none_iff (get?_name_of_load? hload), findField, ancestry?_of_load? hload]
  dsimp only
  split
  · rename_i hnone
    simp [hnone]
  · rename_i hfound
    simp [hfound]

/-- A declaration anywhere above the start makes one of them the nearest. -/
theorem exists_declared_iff :
    (∃ d v, registry.findField name field = .declared d v) ↔
      ∃ n c v, registry.ancestor? start n = some c ∧ c.Declares field v := by
  constructor
  · rintro ⟨d, v, h⟩
    obtain ⟨n, c, hnearest, -⟩ := (findField_eq_declared_iff hload).mp h
    exact ⟨n, c, v, hnearest.reached, hnearest.declares⟩
  · rintro ⟨n, c, v, hreached, hdeclares⟩
    cases h : registry.findField name field with
    | unloadable =>
        cases hload.symm.trans (findField_eq_unloadable_iff.mp h)
    | absent => exact absurd hdeclares ((findField_eq_absent_iff hload).mp h n c v hreached)
    | declared d v => exact ⟨d, v, rfl⟩

end

/-- The walk along library classes is exact. Whatever is registered, a walk from a class visits
registered classes only, each once, in the order of the superclass links, and none that lies above
the class is missed. The field is unloadable exactly if the name leads to no class, by itself or as
a name in `java.lang`. If some class above the start declares the field, the answer is the nearest
one with the visibility of its first declaration; otherwise the field is absent. -/
theorem library_walk_exact (registry : ClassRegistry) (name field : String) :
    (registry.findField name field = .unloadable ↔
      (∀ c ∈ registry.classes, c.name ≠ name) ∧
        ('.' ∈ name.toList ∨ ∀ c ∈ registry.classes, c.name ≠ "java.lang." ++ name)) ∧
    ∀ start, registry.load? name = some start →
      (∃ classes, registry.ancestry? name = some classes ∧
        (classes.map (·.name)).Nodup ∧ classes ⊆ registry.classes ∧
        (∀ n < classes.length, classes[n]? = registry.ancestor? start n) ∧
        ∀ n c, registry.ancestor? start n = some c → c ∈ classes) ∧
      (∀ d v, registry.findField name field = .declared d v ↔
        ∃ n c, registry.IsNearest start field n c v ∧ c.name = d) ∧
      ((∃ d v, registry.findField name field = .declared d v) ↔
        ∃ n c v, registry.ancestor? start n = some c ∧ c.Declares field v) ∧
      (registry.findField name field = .absent ↔
        ∀ n c v, registry.ancestor? start n = some c → ¬ c.Declares field v) := by
  constructor
  · rw [findField_eq_unloadable_iff, load?_eq_none_iff, get?_eq_none_iff, get?_eq_none_iff]
  · intro start hload
    have hstart := get?_name_of_load? hload
    have hwalk := registry.walks_ancestryFrom (registry.classes.map (·.name)) start
    refine ⟨⟨_, ancestry?_of_load? hload, hwalk.once, ?_, hwalk.links, ?_⟩,
      fun d v => findField_eq_declared_iff hload, exists_declared_iff hload,
      findField_eq_absent_iff hload⟩
    · intro c hc
      obtain ⟨i, hi⟩ := List.getElem?_of_mem hc
      have hlength := (List.getElem?_eq_some_iff.mp hi).1
      exact mem_of_get? (get?_name_of_ancestor? hstart ((hwalk.links i hlength).symm.trans hi))
    · intro n c h
      exact hwalk.mem_of_ancestor? hstart h

/-- Classes in a circle, one of which names its superclass without the package. -/
def circularClasses : ClassRegistry :=
  ⟨[{ name := "Leaf", superclass? := "Ring" },
    { name := "java.lang.Ring", superclass? := "org.lib.Ring" },
    { name := "org.lib.Ring", superclass? := "Ring",
      fields := [⟨"id", .private_⟩, ⟨"id", .public_⟩] }]⟩

/-- The field is found behind the simple name, and the circle ends the search for another one. -/
theorem library_walk_exact_circularClasses :
    circularClasses.findField "Leaf" "id" = .declared "org.lib.Ring" .private_ ∧
      circularClasses.findField "Leaf" "key" = .absent := by
  have hload : circularClasses.load? "Leaf" = some { name := "Leaf", superclass? := "Ring" } := by
    decide
  obtain ⟨-, hid⟩ := library_walk_exact circularClasses "Leaf" "id"
  obtain ⟨-, hkey⟩ := library_walk_exact circularClasses "Leaf" "key"
  obtain ⟨-, hdeclared, -⟩ := hid _ hload
  obtain ⟨⟨classes, -, -, hregistered, -, hvisited⟩, -, -, habsent⟩ := hkey _ hload
  constructor
  · refine (hdeclared _ _).mpr ⟨2, ⟨"org.lib.Ring", "Ring", _⟩, ⟨rfl, ?_, ?_⟩, rfl⟩
    · exact ⟨[], ⟨"id", .private_⟩, [⟨"id", .public_⟩], rfl, ⟨rfl, rfl⟩, by simp⟩
    · have hnone : ∀ i < 2, ((circularClasses.ancestor? ⟨"Leaf", "Ring", []⟩ i).bind
          (·.field? "id")) = none := by decide
      intro i hi below hbelow v hdeclares
      have hfield := hnone i hi
      rw [hbelow, Option.bind_some] at hfield
      rw [LibraryClass.declares_iff, hfield] at hdeclares
      cases hdeclares
  · refine habsent.mpr fun n c v h hdeclares => ?_
    have hnone : ∀ c ∈ circularClasses.classes, c.field? "key" = none := by decide
    rw [LibraryClass.declares_iff, hnone c (hregistered (hvisited n c h))] at hdeclares
    cases hdeclares

end ClassRegistry

end WireMapper.Java
