import WireMapper.Proofs.Java.Identifier
import WireMapper.Proofs.Java.Parser.Place

/-!
Names that come out of the parser. A package, an imported path and a superclass are taken from
identifier tokens, so they are identifiers between single dots however the source is laid out.
-/

namespace WireMapper.Java

variable {ts rest : Tokens}

/-- An identifier that was taken is spelled as one. -/
theorem isIdentifier_of_identifier {text : String} (hts : Spelled ts)
    (h : identifier ts = .ok (text, rest)) : IsIdentifier text := by
  obtain ⟨line, rfl⟩ := identifier_eq_ok h
  exact hts _ List.mem_cons_self _ rfl

theorem isIdentifier_of_mem_dottedNames {text : String} (hts : Spelled ts)
    (h : text ∈ (dottedNames ts).1) : IsIdentifier text := by
  fun_induction dottedNames ts with
  | case1 line name line' ts ih =>
      rcases List.mem_cons.mp h with rfl | h
      · exact hts ⟨.ident text, line'⟩ (by simp) text rfl
      · exact ih (hts.of_suffix ⟨[_, _], rfl⟩) h
  | case2 => cases h

theorem isQualified_of_qualifiedName {name : String} (hts : Spelled ts)
    (h : qualifiedName ts = .ok (name, rest)) : IsQualified name := by
  obtain ⟨first, after, hfirst, rfl, -⟩ := qualifiedName_eq_ok h
  apply isQualified_join (by simp)
  intro segment hsegment
  rcases List.mem_cons.mp hsegment with rfl | hsegment
  · exact isIdentifier_of_identifier hts hfirst
  · exact isIdentifier_of_mem_dottedNames (hts.of_suffix (identifier_suffix hfirst)) hsegment

theorem isIdentifier_of_mem_typeSegments {names : List String} (hts : Spelled ts)
    (h : typeSegments ts = .ok (names, rest)) : ∀ text ∈ names, IsIdentifier text := by
  fun_induction typeSegments ts generalizing names rest with
  | case1 => cases h
  | case2 => cases h
  | case3 line text line' ts rest hskip names after hrest ih =>
      cases h
      intro name hname
      rcases List.mem_cons.mp hname with rfl | hname
      · exact hts ⟨.ident name, line'⟩ (by simp) name rfl
      · exact ih (hts.of_suffix ((skipOptional_suffix hskip).trans ⟨[_, _], rfl⟩)) hrest name hname
  | case4 =>
      cases h
      simp

theorem isQualified_join_append {name : String} {names : List String} (hname : IsQualified name)
    (hnames : ∀ text ∈ names, IsIdentifier text) :
    IsQualified (Text.join '.' (name :: names)) := by
  cases names with
  | nil =>
      have hsingle : Text.join '.' [name] = name := by simp [Text.join, Text.joinChars]
      rw [hsingle]
      exact hname
  | cons next names =>
      have hcons : Text.join '.' (name :: next :: names) =
          name ++ "." ++ Text.join '.' (next :: names) := by
        apply String.toList_injective
        simp [Text.join, Text.joinChars]
      rw [hcons]
      exact hname.append (isQualified_join (List.cons_ne_nil next names) hnames)

/-- A type keeps only the segments of its name. -/
theorem isQualified_of_typeName {name : String} (hts : Spelled ts)
    (h : typeName ts = .ok (name, rest)) : IsQualified name := by
  obtain ⟨_, _, _, _, _, _, _, hmodifiers, hname, harguments, hsegments, rfl, -⟩ := typeName_eq_ok h
  have hstart := hts.of_suffix (modifiers_suffix hmodifiers)
  have hafter := hstart.of_suffix (qualifiedName_suffix hname)
  apply isQualified_join_append (isQualified_of_qualifiedName hstart hname)
  exact isIdentifier_of_mem_typeSegments (hafter.of_suffix (skipOptional_suffix harguments))
    hsegments

theorem isQualified_of_superclass? {kind : TypeKind} {name : String} (hts : Spelled ts)
    (h : superclass? kind ts = .ok (some name, rest)) : IsQualified name := by
  obtain ⟨-, type, htype, hname⟩ | ⟨-, hname, -⟩ := superclass?_eq_ok h
  · cases hname
    exact isQualified_of_typeName (hts.of_suffix (List.tail_suffix _)) htype
  · cases hname

/-- The superclass that a declaration names is a dotted name. -/
theorem isQualified_of_typeStart {start : TypeStart} {closed : Bool} (hts : Spelled ts)
    (h : typeStart ts = .ok ((start, closed), rest)) :
    ∀ name, start.superclass? = some name → IsQualified name := by
  obtain ⟨_, _, _, _, _, _, hkind, hname, hparameters, hcomponents, hsuper, _, _⟩ :=
    typeStart_eq_ok h
  intro name hsome
  rw [hsome] at hsuper
  refine isQualified_of_superclass? (hts.of_suffix ?_) hsuper
  exact (components_suffix hcomponents).trans ((skipOptional_suffix hparameters).trans
    ((identifier_suffix hname).trans (typeKind_suffix hkind)))

def CompilationUnit.Extends (unit : CompilationUnit) (superclass : String) : Prop :=
  ∃ t ∈ unit.types, ∃ found, t.Contains found ∧ found.superclass? = some superclass

theorem isQualified_of_typeDecl {t : TypeDecl} (hts : Spelled ts)
    (h : typeDecl ts = .ok (t, rest)) :
    ∀ name, t.superclass? = some name → IsQualified name := by
  obtain ⟨start, closed, body, _, hstart, rfl, -⟩ := exists_body_of_typeDecl h
  exact isQualified_of_typeStart hts hstart

theorem isQualified_of_packageDecl {name : String} (hts : Spelled ts)
    (h : packageDecl ts = .ok (some name, rest)) : IsQualified name := by
  obtain ⟨_, _, hmodifiers, ⟨-, _, _, hname, -, hsome⟩ | ⟨-, hsome, -⟩⟩ := packageDecl_eq_ok h
  · cases hsome
    exact isQualified_of_qualifiedName
      ((hts.of_suffix (modifiers_suffix hmodifiers)).of_suffix (List.tail_suffix _)) hname
  · cases hsome

theorem isQualified_of_importDecl {i : Import} (hts : Spelled ts)
    (h : importDecl ts = .ok (i, rest)) : IsQualified i.path := by
  obtain ⟨_, _, hpath, -, rfl⟩ := importDecl_eq_ok h
  exact isQualified_of_qualifiedName (hts.of_suffix (importStatic_suffix ts)) hpath

theorem isQualified_of_imports {is : List Import} (hts : Spelled ts)
    (h : imports ts = .ok (is, rest)) : ∀ i ∈ is, IsQualified i.path := by
  fun_induction imports ts generalizing is rest with
  | case1 => cases h
  | case2 => cases h
  | case3 =>
      rename_i hdecl _ _ hrest ih
      cases h
      have htail := hts.of_suffix (List.tail_suffix _)
      intro i hi
      rcases List.mem_cons.mp hi with rfl | hi
      · exact isQualified_of_importDecl htail hdecl
      · exact ih (htail.of_suffix (importDecl_suffix hdecl)) hrest i hi
  | case4 =>
      cases h
      simp

/-- The names by which a unit refers to other files are dotted names. -/
structure CompilationUnit.IsNamed (unit : CompilationUnit) : Prop where
  package : ∀ name, unit.package? = some name → IsQualified name
  imports : ∀ i ∈ unit.imports, IsQualified i.path
  superclasses : ∀ t ∈ unit.types, ∀ name : String, t.superclass? = some name → IsQualified name

/-- So is that of any type of a unit, however deep it stands. -/
theorem CompilationUnit.isQualified_of_extends {source superclass : String} {unit : CompilationUnit}
    (h : CompilationUnit.parse source = .ok unit) (hextends : unit.Extends superclass) :
    IsQualified superclass := by
  obtain ⟨t, ht, found, hfound, hsuper⟩ := hextends
  obtain ⟨ts, hscan, hread⟩ := CompilationUnit.wholly_of_parse h
  obtain ⟨place, rest, hplace, hdecl⟩ := hread t ht found hfound
  exact isQualified_of_typeDecl ((spelled_scan hscan).of_suffix hplace) hdecl superclass hsuper

/-- Whatever parses refers to other files by dotted names only. -/
theorem CompilationUnit.isNamed_of_parse {source : String} {unit : CompilationUnit}
    (h : CompilationUnit.parse source = .ok unit) : unit.IsNamed := by
  obtain ⟨ts, ts₁, ts₂, hscan, hpackage, himports, htypes⟩ := CompilationUnit.parse_eq_ok h
  have hts := spelled_scan hscan
  constructor
  · intro name hname
    rw [hname] at hpackage
    exact isQualified_of_packageDecl hts hpackage
  · exact isQualified_of_imports (hts.of_suffix (packageDecl_suffix hpackage)) himports
  · intro t ht name hname
    exact CompilationUnit.isQualified_of_extends h ⟨t, ht, t, .self t, hname⟩

/-- A single-type import gives a dotted name. -/
theorem CompilationUnit.IsNamed.import? {unit : CompilationUnit} (h : unit.IsNamed)
    {simple path : String} (himport : unit.import? simple = some path) : IsQualified path := by
  obtain ⟨i, hi, rfl⟩ := Option.map_eq_some_iff.mp himport
  exact h.imports i (List.mem_of_find?_eq_some hi)

end WireMapper.Java
