import WireMapper.Proofs.Java.Parser.ComponentList
import WireMapper.Proofs.Java.Parser.Names

/-!
What is true of every unit that parses. Names are words of letters, digits and two signs, with
single dots between them; only classes have a superclass; the fields of a type are what its kind
makes of them; and the components of a record are its first fields. All of this holds of a type
where it is read, and every type of a unit is read somewhere.
-/

namespace WireMapper.Java

open WireMapper.Text

variable {ts rest : Tokens} {kind : TypeKind} {name : String}

/-- A word of letters, digits, `_` and `$` that starts with no digit. -/
structure IsWord (text : String) : Prop where
  nonempty : text ≠ ""
  signs : ∀ c ∈ text.toList, isAlphabetic c = true ∨ isNumeric c = true ∨ c = '_' ∨ c = '$'
  start : ∀ c, text.toList.head? = some c → isAlphabetic c = true ∨ c = '_' ∨ c = '$'
  noDigit : ∀ c, text.toList.head? = some c → c.isDigit = false

def IsDottedWords (name : String) : Prop :=
  ∀ segment ∈ split '.' name, IsWord segment

/-- No digit starts an identifier, since below U+0080 only letters and two signs do. -/
theorem isDigit_eq_false_of_isIdentStart {c : Char} (h : isIdentStart c = true) :
    c.isDigit = false := by
  refine Bool.eq_false_iff.mpr fun hdigit => ?_
  have hascii : c.toNat < 0x80 := by
    simp only [Char.isDigit, Bool.and_eq_true, decide_eq_true_eq] at hdigit
    have hnine := UInt32.le_iff_toNat_le.mp hdigit.2
    exact Nat.lt_of_le_of_lt hnine (by decide)
  have hall : ∀ n < 0x80, isIdentStart (Char.ofNat n) = true → (Char.ofNat n).isDigit = false := by
    decide +kernel
  have hnone := hall c.toNat hascii
  rw [Char.ofNat_toNat] at hnone
  rw [hnone h] at hdigit
  cases hdigit

/-- An identifier of the lexer is a word in terms of its characters. -/
theorem IsIdentifier.isWord {text : String} (h : IsIdentifier text) : IsWord text := by
  have hfirst : ∀ c, text.toList.head? = some c → isIdentStart c = true := by
    obtain ⟨first, cs, htext, hstart, _⟩ := h
    intro c hc
    rw [htext, List.head?_cons, Option.some.injEq] at hc
    rwa [← hc]
  refine ⟨h.ne_empty, ?_, ?_, fun c hc => isDigit_eq_false_of_isIdentStart (hfirst c hc)⟩
  · intro c hc
    simpa [Java.isIdentPart, or_assoc] using h.isIdentPart c hc
  · intro c hc
    simpa [isIdentStart, or_assoc] using hfirst c hc

theorem IsQualified.isDottedWords {name : String} (h : IsQualified name) : IsDottedWords name :=
  fun segment hsegment => (h segment hsegment).isWord

/-- A field with a name of its own, as far as its kind of type makes it accessible. -/
structure FieldDecl.SuitsKind (kind : TypeKind) (f : FieldDecl) : Prop where
  name : IsIdentifier f.name
  exposed : kind = .interface ∨ kind = .annotationType → f.visibility = .public_
  shared : kind = .interface → f.isStatic = true

theorem isIdentifier_of_declarators {names : List String} (hts : Spelled ts)
    (hname : IsIdentifier name) (h : declarators name ts = .ok (names, rest)) :
    ∀ n ∈ names, IsIdentifier n := by
  fun_induction declarators name ts generalizing names rest with
  | case1 => cases h
  | case2 => cases h
  | case3 => cases h
  | case4 name ts after hinitializer _ next ts' hnext later _ hlater ih =>
      cases h
      have hafter := (hts.of_suffix (skipDimensions_suffix ts)).of_suffix
        (optionalInitializer_suffix hinitializer)
      have htail := hafter.of_suffix (List.tail_suffix _)
      have hrest :=
        ih (htail.of_suffix (identifier_suffix hnext)) (isIdentifier_of_identifier htail hnext)
        hlater
      exact List.forall_mem_cons.mpr ⟨hname, hrest⟩
  | case5 => cases h
  | case6 =>
      cases h
      exact List.forall_mem_singleton.mpr hname

theorem suitsKind_of_methodOrFields {m : Modifiers} {fields : List FieldDecl} (hts : Spelled ts)
    (h : methodOrFields kind m ts = .ok (fields, rest)) : ∀ f ∈ fields, f.SuitsKind kind := by
  cases methodOrFields_eq_ok_iff.mp h with
  | constructor => simp
  | method => simp
  | fields hparameters htype _ hname _ hnames =>
      have htyped := hts.of_suffix ((typeName_suffix htype).trans (skipOptional_suffix hparameters))
      have hidentifier := isIdentifier_of_declarators (htyped.of_suffix (identifier_suffix hname))
        (isIdentifier_of_identifier htyped hname) hnames
      rw [List.forall_mem_map]
      intro n hn
      refine ⟨hidentifier n hn, ?_, ?_⟩
      · exact fun hkind => if_pos hkind
      · intro hkind
        simp [fieldIsStatic, hkind]

/-- The fields of a member are as accessible as the kind of its type makes them. -/
theorem suitsKind_of_member {fields : List FieldDecl} (hts : Spelled ts)
    (h : member kind name ts = .ok (.fields fields, rest)) : ∀ f ∈ fields, f.SuitsKind kind := by
  cases member_eq_ok_iff.mp h with
  | initializer => simp
  | compact => simp
  | fields hmodifiers _ _ _ hfields =>
      exact suitsKind_of_methodOrFields (hts.of_suffix (modifiers_suffix hmodifiers)) hfields

theorem components_eq_nil {start : TypeStart} {closed : Bool}
    (h : typeStart ts = .ok ((start, closed), rest)) (hkind : start.kind ≠ .record) :
    start.components = [] := by
  obtain ⟨_, _, _, _, _, _, -, -, -, hcomponents, -, -, -⟩ := typeStart_eq_ok h
  obtain ⟨hrecord, -⟩ | ⟨-, hnone, -⟩ := components_eq_ok hcomponents
  · exact absurd hrecord hkind
  · exact hnone

theorem suitsKind_of_typeStart {start : TypeStart} {closed : Bool} (hts : Spelled ts)
    (h : typeStart ts = .ok ((start, closed), rest)) :
    ∀ f ∈ start.components, f.SuitsKind start.kind := by
  by_cases hkind : start.kind = .record
  · obtain ⟨names, hdeclares, hcomponents⟩ := declaresRecord_of_typeStart h hkind
    rw [hcomponents, hkind, List.forall_mem_map]
    intro component hcomponent
    obtain ⟨t, ht, htoken⟩ := List.mem_map.mp (hdeclares.mem component hcomponent)
    exact ⟨hts t ht component htoken, by simp, by simp⟩
  · simp [components_eq_nil h hkind]

theorem suitsKind_of_typeDecl {t : TypeDecl} (hts : Spelled ts) (h : typeDecl ts = .ok (t, rest)) :
    ∀ f ∈ t.fields, f.SuitsKind t.kind := by
  obtain ⟨start, closed, body, after, hstart, rfl, hbody⟩ := exists_body_of_typeDecl h
  have hafter := hts.of_suffix (typeStart_suffix hstart)
  rw [TypeStart.withBody, List.forall_mem_append]
  refine ⟨suitsKind_of_typeStart hts hstart, ?_⟩
  intro f hf
  obtain ⟨place, fields, _, hplace, hmember, hf⟩ := hbody.fields f hf
  exact suitsKind_of_member (hafter.of_suffix hplace) hmember f hf

/-- What holds of a type that was read in a source. It stands at some place there, and if it is a
record, its first fields are the components that the source lists at that place. -/
structure TypeDecl.IsSound (ts : Tokens) (t : TypeDecl) : Prop where
  name : IsWord t.name
  superclass : ∀ name, t.superclass? = some name → t.kind = .class_ ∧ IsDottedWords name
  fields : ∀ f ∈ t.fields, IsWord f.name
  exposed : t.kind = .interface ∨ t.kind = .annotationType → ∀ f ∈ t.fields, f.visibility = .public_
  shared : t.kind = .interface → ∀ f ∈ t.fields, f.isStatic = true
  read : ∃ place rest, place <:+ ts ∧ typeDecl place = .ok (t, rest) ∧
    (t.kind = .record → ∃ names later,
      (∀ listed, DeclaresRecord (words place) t.name listed ↔ listed = names) ∧
      t.fields = names.map (⟨·, .private_, false⟩) ++ later)

theorem kind_of_superclass? {superclass : String}
    (h : superclass? kind ts = .ok (some superclass, rest)) :
    kind = .class_ := by
  obtain ⟨hclause, -⟩ | ⟨-, hnone, -⟩ := superclass?_eq_ok h
  · exact hclause.1
  · cases hnone

/-- A type is sound where it is read; the types in it are read at places of their own. -/
theorem isSound_of_typeDecl {place : Tokens} {t : TypeDecl} (hts : Spelled ts)
    (hplace : place <:+ ts) (h : typeDecl place = .ok (t, rest)) : t.IsSound ts := by
  have hspelled := hts.of_suffix hplace
  have hfields := suitsKind_of_typeDecl hspelled h
  have hsuper := isQualified_of_typeDecl hspelled h
  obtain ⟨start, closed, body, after, hstart, rfl, -⟩ := exists_body_of_typeDecl h
  obtain ⟨ts₁, _, _, _, _, _, hkind, hname, -, -, hclause, -, -⟩ := typeStart_eq_ok hstart
  constructor
  case name =>
    exact (isIdentifier_of_identifier (hspelled.of_suffix (typeKind_suffix hkind)) hname).isWord
  case superclass =>
    intro superclass hsome
    rw [show start.superclass? = some superclass from hsome] at hclause
    exact ⟨kind_of_superclass? hclause, (hsuper superclass hsome).isDottedWords⟩
  case fields => exact fun f hf => (hfields f hf).name.isWord
  case exposed => exact fun hkind f hf => (hfields f hf).exposed hkind
  case shared => exact fun hkind f hf => (hfields f hf).shared hkind
  case read =>
    refine ⟨place, rest, hplace, h, fun hrecord => ?_⟩
    obtain ⟨names, hdeclares, hcomponents⟩ := declaresRecord_of_typeStart hstart hrecord
    refine ⟨names, body.fields, fun listed => ⟨fun hlisted => hlisted.unique hdeclares, ?_⟩, ?_⟩
    · rintro rfl
      exact hdeclares
    · rw [← hcomponents]
      rfl

/-- Whatever parses is well formed, at any depth. -/
theorem parsed_units_well_formed {source : String} {unit : CompilationUnit}
    (h : CompilationUnit.parse source = .ok unit) :
    (∀ package, unit.package? = some package → IsDottedWords package) ∧
      (∀ i ∈ unit.imports, IsDottedWords i.path) ∧
      ∃ ts, scan source = .ok ts ∧ ∀ t ∈ unit.types, ∀ found, t.Contains found →
        found.IsSound ts := by
  have hnamed := CompilationUnit.isNamed_of_parse h
  obtain ⟨ts, hscan, hread⟩ := CompilationUnit.wholly_of_parse h
  refine ⟨fun package hpackage => (hnamed.package package hpackage).isDottedWords,
    fun i hi => (hnamed.imports i hi).isDottedWords, ts, hscan, ?_⟩
  intro t ht found hfound
  obtain ⟨place, rest, hplace, hdecl⟩ := hread t ht found hfound
  exact isSound_of_typeDecl (spelled_scan hscan) hplace hdecl

def pointSource : String :=
  "package p.q; record Point(int x, @A Map<K, V> y) \x7b static int n; interface I \x7b int K = 1; \x7d \x7d"

theorem parsed_units_well_formed_point :
    ∃ unit ts point, CompilationUnit.parse pointSource = .ok unit ∧ scan pointSource = .ok ts ∧
      unit.types = [point] ∧
      point.fields = [⟨"x", .private_, false⟩, ⟨"y", .private_, false⟩, ⟨"n", .package, true⟩] ∧
      ∀ found, point.Contains found → found.IsSound ts := by
  have hfields :
      (CompilationUnit.parse pointSource).toOption.map (fun unit => unit.types.map (·.fields)) =
      some [[⟨"x", .private_, false⟩, ⟨"y", .private_, false⟩, ⟨"n", .package, true⟩]] := by
    decide +kernel
  obtain ⟨unit, hunit, hfields⟩ := Option.map_eq_some_iff.mp hfields
  obtain ⟨point, htypes, hpoint⟩ := List.map_eq_singleton_iff.mp hfields
  have hparse := ok_of_toOption hunit
  obtain ⟨_, _, ts, hscan, hsound⟩ := parsed_units_well_formed hparse
  exact ⟨unit, ts, point, hparse, hscan, htypes, hpoint, hsound point (by simp [htypes])⟩

end WireMapper.Java
