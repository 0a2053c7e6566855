import WireMapper.Proofs.Except
import WireMapper.Proofs.Hierarchy.Nearest
import WireMapper.Proofs.Hierarchy.Superclass
import WireMapper.Proofs.Java.ClassRegistry.Ancestry

/-!
Which library class a superclass without source stands for. A superclass that is named without its
package may have several full names, and the first one that the registry knows decides, also if the
field is not found there. The name as it is written comes before the name in the unit's package, and
the registry reads a bare name as one in `java.lang` where it has no class of that name. So a class
in the unit's own package is reached only if no class is known under the bare name.
-/

namespace WireMapper.Hierarchy

open Java (ClassRegistry CompilationUnit LibraryClass Visibility)

/-- The answer that a library class and its superclasses give for a field: the nearest declaration,
or that there is none. -/
inductive AnswerFrom (registry : ClassRegistry) (start : LibraryClass) (field : String) :
    Origin → Prop where
  | declared {n : Nat} {c : LibraryClass} {visibility : Visibility}
      (h : registry.IsNearest start field n c visibility) :
      AnswerFrom registry start field (.library c.name visibility)
  | absent (h : ∀ n c v, registry.ancestor? start n = some c → ¬ c.Declares field v) :
      AnswerFrom registry start field .unresolved

/-- No class on the source chain of a class declares the field, and the chain ends at a link for
whose superclass no root holds a file. -/
def LeavesSourceAt (roots : SourceRoots) (tree : FileTree) (className field : String) (link : Link)
    (superclass : String) : Prop :=
  ∃ file below, roots.findClass? tree className = some file ∧
    chain roots tree file className = (below ++ [link], .outside superclass) ∧
    ∀ l ∈ below ++ [link], ¬ l.Declares field

variable {registry : ClassRegistry} {unit : CompilationUnit} {superclass field : String}
  {start : LibraryClass}

theorem AnswerFrom.unique {first second : Origin} (hfirst : AnswerFrom registry start field first)
    (hsecond : AnswerFrom registry start field second) : first = second := by
  cases hfirst with
  | declared hnearest =>
      cases hsecond with
      | declared hother =>
          obtain ⟨rfl, rfl⟩ := hnearest.unique hother
          rfl
      | absent hnone => exact absurd hnearest.declares (hnone _ _ _ hnearest.reached)
  | absent hnone =>
      cases hsecond with
      | declared hother => exact absurd hother.declares (hnone _ _ _ hother.reached)
      | absent _ => rfl

/-- The first candidate that the registry knows decides. -/
theorem libraryOrigin_of_first
    (h : FirstIn (libraryCandidates unit superclass) (fun name c => registry.load? name = some c)
      start) :
    AnswerFrom registry start field (libraryOrigin registry.findField unit superclass field) := by
  obtain ⟨before, name, after, hcandidates, hload, hbefore⟩ := h
  have hunknown : (before.map (registry.findField · field)).find? (· ≠ .unloadable) = none := by
    simp only [List.find?_eq_none, List.mem_map, forall_exists_index, and_imp,
      forall_apply_eq_imp_iff₂, decide_eq_true_eq, not_not]
    intro earlier hearlier
    apply ClassRegistry.findField_eq_unloadable_iff.mpr
    exact Option.eq_none_iff_forall_ne_some.mpr (hbefore earlier hearlier)
  rw [libraryOrigin, hcandidates, List.map_append, List.map_cons, List.find?_append, hunknown,
    Option.none_or, List.find?_cons]
  cases hfound : registry.findField name field with
  | unloadable => cases hload.symm.trans (ClassRegistry.findField_eq_unloadable_iff.mp hfound)
  | absent => exact .absent ((ClassRegistry.findField_eq_absent_iff hload).mp hfound)
  | declared d v =>
      obtain ⟨n, c, hnearest, rfl⟩ := (ClassRegistry.findField_eq_declared_iff hload).mp hfound
      exact .declared hnearest

theorem Link.summit_of_outside {roots : SourceRoots} {tree : FileTree} {link : Link}
    (hsuper : link.decl.superclass? = some superclass)
    (hoff : roots.findSuperclass? tree link.unit superclass (directoryOf link.path) = none) :
    link.ascent? roots tree = none ∧ link.summit roots tree = .outside superclass := by
  constructor
  · rw [Link.ascent?, hsuper, Option.bind_some, hoff]
    rfl
  · rw [Link.summit, hsuper]
    simp only [hoff]

/-- Where a chain leaves source code, the candidates of its last link decide. -/
theorem resolveField_of_leaves {roots : SourceRoots} {libraries : LibraryLookup} {tree : FileTree}
    {className : String} {link : Link}
    (h : LeavesSourceAt roots tree className field link superclass) :
    resolveField roots libraries tree className field =
      .ok ⟨className, field, libraryOrigin libraries link.unit superclass field⟩ := by
  obtain ⟨file, below, hfile, hchain, hnone⟩ := h
  have horigin : chainOrigin libraries field (below ++ [link], .outside superclass) =
      .ok (libraryOrigin libraries link.unit superclass field) := by
    rcases chainOrigin_cases libraries field (below ++ [link]) (.outside superclass) with
      ⟨own, hown, hdeclares, -⟩ | ⟨n, above, declared, habove, hdeclared, -, -⟩ | ⟨-, horigin⟩
    · exact absurd hdeclares (hnone own (List.mem_of_getElem? hown))
    · refine absurd ?_ (hnone above (List.mem_of_getElem? habove))
      simp [Link.Declares, hdeclared]
    · rw [horigin, endOrigin, List.getLast?_concat]
  simp only [resolveField, hfile, hchain, horigin]

section

variable {package : String} {own bare : LibraryClass} (hpackage : unit.package? = some package)
  (hsimple : '.' ∉ superclass.toList) (hunbound : ∀ imported, ¬ unit.Binds superclass imported)

include hpackage hsimple hunbound

theorem libraryCandidates_of_bare :
    ∃ others, libraryCandidates unit superclass =
      superclass :: (package ++ "." ++ superclass) :: others := by
  have himport : unit.import? superclass = none :=
    Option.eq_none_iff_forall_ne_some.mpr fun imported h =>
      hunbound imported (CompilationUnit.import?_eq_some_iff.mp h)
  simp [libraryCandidates, himport, hpackage, hsimple]

/-- A class that is known under the bare name decides. -/
theorem answerFrom_bare (hbare : registry.load? superclass = some bare) :
    AnswerFrom registry bare field (libraryOrigin registry.findField unit superclass field) := by
  obtain ⟨others, hcandidates⟩ := libraryCandidates_of_bare hpackage hsimple hunbound
  exact libraryOrigin_of_first ⟨[], superclass, _, hcandidates, hbare, by simp⟩

/-- Without such a class, that of the package is the next candidate. -/
theorem answerFrom_package (hbare : registry.load? superclass = none)
    (hown : registry.get? (package ++ "." ++ superclass) = some own) :
    AnswerFrom registry own field (libraryOrigin registry.findField unit superclass field) := by
  obtain ⟨others, hcandidates⟩ := libraryCandidates_of_bare hpackage hsimple hunbound
  refine libraryOrigin_of_first ⟨[superclass], _, others, hcandidates,
    ClassRegistry.load?_of_get? hown, ?_⟩
  intro name hname c hc
  rw [List.mem_singleton.mp hname, hbare] at hc
  cases hc

end

/-- A bare name comes before the unit's package. Say that no import binds the bare name of a
superclass and that the registry has a class of that name in the unit's package. If a class is known
under the bare name, its chain decides. So the class in the package is decisive exactly if neither
the name itself nor the name in `java.lang` is registered, or the class that is known by it happens
to give the same answer. Where the source chain of any class ends at such a superclass, this is what
the resolver answers. -/
theorem bare_name_before_package (registry : ClassRegistry) {unit : CompilationUnit}
    {package superclass : String} {own : LibraryClass} (field : String)
    (hpackage : unit.package? = some package) (hsimple : '.' ∉ superclass.toList)
    (hunbound : ∀ imported, ¬ unit.Binds superclass imported)
    (hown : registry.get? (package ++ "." ++ superclass) = some own) :
    (∀ bare, registry.load? superclass = some bare →
      AnswerFrom registry bare field (libraryOrigin registry.findField unit superclass field)) ∧
    (AnswerFrom registry own field (libraryOrigin registry.findField unit superclass field) ↔
      registry.get? superclass = none ∧ registry.get? ("java.lang." ++ superclass) = none ∨
      ∃ bare origin, registry.load? superclass = some bare ∧
        AnswerFrom registry bare field origin ∧ AnswerFrom registry own field origin) ∧
    ∀ roots tree className link, LeavesSourceAt roots tree className field link superclass →
      link.unit = unit →
      resolveField roots registry.findField tree className field =
        .ok ⟨className, field, libraryOrigin registry.findField unit superclass field⟩ := by
  have hbareName (bare : LibraryClass) (hload : registry.load? superclass = some bare) :
      AnswerFrom registry bare field (libraryOrigin registry.findField unit superclass field) :=
    answerFrom_bare hpackage hsimple hunbound hload
  refine ⟨hbareName, ⟨?_, ?_⟩, ?_⟩
  · intro hanswer
    cases hload : registry.load? superclass with
    | none =>
        obtain ⟨hname, hlang⟩ := ClassRegistry.load?_eq_none_iff.mp hload
        exact Or.inl ⟨hname, hlang.resolve_left hsimple⟩
    | some bare => exact Or.inr ⟨bare, _, rfl, hbareName bare hload, hanswer⟩
  · rintro (⟨hname, hlang⟩ | ⟨bare, origin, hload, hbare, hsame⟩)
    · have hunknown := ClassRegistry.load?_eq_none_iff.mpr ⟨hname, Or.inr hlang⟩
      exact answerFrom_package hpackage hsimple hunbound hunknown hown
    · rwa [(hbareName bare hload).unique hbare]
  · rintro roots tree className link hleaves rfl
    exact resolveField_of_leaves hleaves

def orderUnit : CompilationUnit where
  package? := some "shop"
  imports := []
  types := [⟨"Order", .class_, some "Number", [], []⟩]

def orderTree : FileTree where
  nodes :=
    [(["src"], .directory), (["src", "shop"], .directory),
      (["src", "shop", "Order.java"],
        .file "package shop; class Order extends Number \x7b\x7d".toUTF8)]

def orderLink : Link :=
  ⟨⟨"src/shop/Order.java"⟩, orderUnit, ⟨"Order", .class_, some "Number", [], []⟩⟩

def shopNumber : LibraryClass :=
  { name := "shop.Number", fields := [⟨"id", .private_⟩] }

theorem parse_orderUnit :
    CompilationUnit.parse "package shop; class Order extends Number \x7b\x7d" = .ok orderUnit := by
  have hwellFormed : orderUnit.WellFormed := by
    refine ⟨?_, by simp [orderUnit], ?_⟩
    · rintro _ ⟨⟩
      decide
    · intro t ht
      obtain rfl := List.mem_singleton.mp ht
      exact ⟨_, _, _, _, _, by decide, by decide, by decide, by simp⟩
  have hscan : Java.scan "package shop; class Order extends Number \x7b\x7d" =
      .ok (Java.placed orderUnit.tokens) := by decide +kernel
  simp only [CompilationUnit.parse, hscan,
    Java.compilationUnit_of_words hwellFormed (Java.words_placed _)]

theorem read_order :
    SourceFile.read orderTree orderLink.path = .ok ⟨orderLink.path, orderUnit⟩ := by
  have htext : orderTree.readText orderLink.path =
      .ok "package shop; class Order extends Number \x7b\x7d" :=
    ok_of_toOption (by decide +kernel)
  rw [SourceFile.read, htext]
  simp only [parse_orderUnit]

theorem order_leavesSource :
    LeavesSourceAt ⟨[⟨"src"⟩]⟩ orderTree "Order" "id" orderLink "Number" := by
  have hbelow : orderTree.filesBelow ["src"] = [["shop", "Order.java"]] :=
    List.mergeSort_of_pairwise (by decide)
  have hunder : orderTree.filesUnder ⟨"src"⟩ = [orderLink.path] :=
    FileTree.filesUnder_eq rfl rfl hbelow
  have hsources : SourceRoots.sources ⟨[⟨"src"⟩]⟩ orderTree = [["src", "shop", "Order.java"]] := by
    change (orderTree.filesBelow ["src"]).map _ ++ [] = _
    rw [hbelow]
    rfl
  have hfile : SourceRoots.findClass? ⟨[⟨"src"⟩]⟩ orderTree "Order" =
      some ⟨orderLink.path, orderUnit⟩ := by
    have hname : orderLink.path.fileName? = some (sourceName "Order") := by decide +kernel
    simp only [SourceRoots.findClass?, List.findSome?_cons, hunder, SourceRoots.declaring?,
      if_pos hname, read_order]
    rfl
  have hoff : SourceRoots.findSuperclass? ⟨[⟨"src"⟩]⟩ orderTree orderUnit "Number"
      (directoryOf orderLink.path) = none := by
    decide +kernel
  have hend : orderLink.ascent? ⟨[⟨"src"⟩]⟩ orderTree = none ∧
      orderLink.summit ⟨[⟨"src"⟩]⟩ orderTree = .outside "Number" :=
    Link.summit_of_outside rfl hoff
  obtain ⟨hascent, hsummit⟩ := hend
  refine ⟨_, [], hfile, ?_, ?_⟩
  · change Visit.chainFrom ⟨[⟨"src"⟩]⟩ orderTree _ [] ⟨⟨orderLink.path, orderUnit⟩, "Order"⟩ = _
    rw [chainFrom_of_summit (by rw [hsources]; decide +kernel) rfl hascent, hsummit]
    rfl
  · intro l hl
    obtain rfl := List.mem_singleton.mp hl
    exact Link.not_declares_iff.mpr rfl

/-- Where no class is known under the bare name, the class of the package is found. -/
theorem bare_name_before_package_number :
    resolveField ⟨[⟨"src"⟩]⟩ (ClassRegistry.findField ⟨[shopNumber]⟩) orderTree "Order" "id" =
      .ok ⟨"Order", "id", .library "shop.Number" .private_⟩ := by
  have hpackage : orderUnit.package? = some "shop" := rfl
  have hunbound : ∀ imported, ¬ orderUnit.Binds "Number" imported := by
    rintro imported ⟨before, i, after, himports, -⟩
    simp [orderUnit] at himports
  have hown : ClassRegistry.get? ⟨[shopNumber]⟩ ("shop" ++ "." ++ "Number") = some shopNumber := by
    decide
  obtain ⟨-, hdecisive, hresolves⟩ :=
    bare_name_before_package ⟨[shopNumber]⟩ "id" hpackage (by decide) hunbound hown
  have hdeclares : shopNumber.Declares "id" .private_ := LibraryClass.declares_iff.mpr rfl
  have hnearest : AnswerFrom ⟨[shopNumber]⟩ shopNumber "id" (.library "shop.Number" .private_) :=
    .declared ⟨rfl, hdeclares, by simp⟩ (n := 0)
  have hanswer := hdecisive.mpr (Or.inl ⟨by decide, by decide⟩)
  rw [hresolves _ _ _ _ order_leavesSource rfl, hanswer.unique hnearest]

/-- A class of the package is missed because of a class of the same name in `java.lang`. -/
theorem package_class_missed :
    (ClassRegistry.standard.register shopNumber).get? "shop.Number" = some shopNumber ∧
      shopNumber.Declares "id" .private_ ∧
      resolveField ⟨[⟨"src"⟩]⟩
        (ClassRegistry.standard.register shopNumber).findField orderTree "Order"
          "id" =
        .ok ⟨"Order", "id", .unresolved⟩ := by
  refine ⟨by decide +kernel, LibraryClass.declares_iff.mpr rfl, ?_⟩
  rw [resolveField_of_leaves order_leavesSource]
  decide +kernel

end WireMapper.Hierarchy
