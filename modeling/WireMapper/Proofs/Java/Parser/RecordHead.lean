import WireMapper.Proofs.Java.Parser.TypedMember

/-!
Records with annotated types. The components of a record are read one after another, each up to its
type and on behind it. With annotations in front of the types only, the record is declared; at an
annotation inside the type of a component, the name that should follow is missed.
-/

namespace WireMapper.Java

variable {name : String} {m : Modifiers} {ts : Tokens} {mods after : List Token}

def Parameter.component (p : Parameter) : FieldDecl :=
  ⟨p.name, .private_, false⟩

/-- The component can be read if its type can. -/
structure Parameter.Readable (p : Parameter) : Prop where
  modified : p.IsModified
  type : p.type.Readable

theorem Parameter.Readable.bare {p : Parameter} (h : p.Readable) : p.bare.Readable :=
  ⟨h.modified, h.type.bare⟩

/-- Up to the end of its type a component is read in any case, with annotations in front of the
type. -/
theorem exists_componentType {p : Parameter} {type : List Token} (h : p.IsModified)
    (htype : MemberType type) (hafter : StopsType after)
    (hts : words ts = p.modifiers ++
      (p.type.annotations.flatMap Annotation.tokens ++ (type ++ after))) :
    ∃ m ts₁ text ts₂, next? ts ≠ some .closeParen ∧ modifiers ts = .ok (m, ts₁) ∧
      typeName ts₁ = .ok (text, ts₂) ∧ words ts₂ = after.dropWhile (· = .dot) := by
  obtain ⟨m, hmods⟩ := h
  have hall := hmods.append (modify_annotations m p.type.annotations)
  rw [← List.append_assoc] at hts
  have hclose : next? ts ≠ some .closeParen := by
    rw [next?_eq_head?, hts]
    apply hall.head?_ne rfl (by simp)
    cases htype with
    | mk _ _ _ _ _ => simp
  obtain ⟨ts₁, hmodifiers, h₁⟩ := hall.reads (htype.endsModifiers_of_head hafter.dash) ts hts
  obtain ⟨text, ts₂, htypeName, h₂⟩ := htype.typeName_stops hafter h₁
  exact ⟨m, ts₁, text, ts₂, hclose, hmodifiers, htypeName, h₂⟩

/-- A component with annotations in front is read, and the list goes on behind it. -/
theorem recordComponentsFrom_parameter {p : Parameter} (h : p.Readable)
    (hfront : p.type.AnnotatedInFront) (hts : words ts = p.tokens ++ after) :
    ∃ rest, words rest = after ∧ recordComponentsFrom ts =
      if next? rest = some .comma then
        (recordComponentsFrom rest.tail).map fun read => (p.component :: read.1, read.2)
      else (expect .closeParen rest).map fun read => ([p.component], read.2) := by
  simp only [Parameter.tokens, TypeReference.tokens, List.append_assoc] at hts
  obtain ⟨m, ts₁, text, ts₂, hclose, hmodifiers, htypeName, h₂⟩ :=
    exists_componentType h.modified (h.type.memberType hfront) (p.ending_stopsType after) hts
  rw [p.dropWhile_ending] at h₂
  obtain ⟨line, rest, rfl, hrest⟩ := words_eq_cons h₂
  exact ⟨rest, hrest, recordComponentsFrom_component hclose hmodifiers htypeName rfl⟩

theorem recordComponentsFrom_comma {p : Parameter} (h : p.Readable)
    (hfront : p.type.AnnotatedInFront) (hts : words ts = p.tokens ++ .comma :: after) :
    ∃ rest, words rest = after ∧ recordComponentsFrom ts =
      (recordComponentsFrom rest).map fun read => (p.component :: read.1, read.2) := by
  obtain ⟨ts₁, h₁, hsame⟩ := recordComponentsFrom_parameter h hfront hts
  obtain ⟨line, rest, rfl, hrest⟩ := words_eq_cons h₁
  exact ⟨rest, hrest, by rw [hsame, if_pos (by rfl), List.tail_cons]⟩

/-- At an annotation inside its type, the name of the component is missed. -/
theorem recordComponentsFrom_fault {p : Parameter} (h : p.Readable)
    (hfront : ¬ p.type.AnnotatedInFront) (hts : words ts = p.tokens ++ after) :
    ∃ rest, recordComponentsFrom ts = .error ⟨annotationFault, rest⟩ := by
  obtain ⟨plain, stop, hsplit, htype, hstop⟩ := h.type.exists_stop hfront
  have hstop' := hstop.append (p.ending ++ after)
  simp only [Parameter.tokens, TypeReference.tokens, hsplit, List.append_assoc] at hts
  obtain ⟨m, ts₁, text, ts₂, hclose, hmodifiers, htypeName, h₂⟩ :=
    exists_componentType h.modified htype hstop'.stopsType hts
  have hnext : next? ts₂ = some .atSign := by
    rw [next?_eq_head?, h₂]
    exact hstop'.head?_dropWhile
  exact ⟨ts₂, recordComponentsFrom_unnamed hclose hmodifiers htypeName (identifier_of_atSign hnext)⟩

theorem listTokens_cons_cons (first second : List Token) (later : List (List Token)) :
    listTokens (first :: second :: later) = first ++ .comma :: listTokens (second :: later) := by
  simp [listTokens]

/-- Components that are annotated in front only are all read. -/
theorem recordComponentsFrom_list {ps : List Parameter} (h : ∀ p ∈ ps, p.Readable)
    (hfront : ∀ p ∈ ps, p.type.AnnotatedInFront)
    (hts : words ts = listTokens (ps.map Parameter.tokens) ++ .closeParen :: after) :
    ∃ rest, recordComponentsFrom ts = .ok (ps.map Parameter.component, rest) ∧
      words rest = after := by
  induction ps generalizing ts with
  | nil =>
      obtain ⟨line, rest, rfl, hrest⟩ := words_eq_cons hts
      exact ⟨rest, recordComponentsFrom_close rfl, hrest⟩
  | cons p ps ih =>
      have hp := h p List.mem_cons_self
      have hpFront := hfront p List.mem_cons_self
      cases ps with
      | nil =>
          rw [List.map_singleton, listTokens, List.flatMap_nil, List.append_nil] at hts
          obtain ⟨ts₁, h₁, hsame⟩ := recordComponentsFrom_parameter hp hpFront hts
          obtain ⟨line, rest, rfl, hrest⟩ := words_eq_cons h₁
          refine ⟨rest, ?_, hrest⟩
          have hclose : expect .closeParen (⟨.closeParen, line⟩ :: rest) = .ok ((), rest) :=
            if_pos rfl
          rw [hsame, if_neg (by simp [next?]), hclose]
          rfl
      | cons q ps =>
          rw [List.map_cons, List.map_cons, listTokens_cons_cons, List.append_assoc,
            List.cons_append, ← List.map_cons] at hts
          obtain ⟨ts₁, h₁, hsame⟩ := recordComponentsFrom_comma hp hpFront hts
          obtain ⟨rest, hread, hrest⟩ :=
            ih (fun other hother => h other (List.mem_cons_of_mem p hother))
            (fun other hother => hfront other (List.mem_cons_of_mem p hother)) h₁
          exact ⟨rest, by rw [hsame, hread]; rfl, hrest⟩

/-- The first component that is annotated elsewhere is where the list fails. -/
theorem recordComponentsFrom_list_fault {ps : List Parameter} (h : ∀ p ∈ ps, p.Readable)
    (hfront : ¬ ∀ p ∈ ps, p.type.AnnotatedInFront)
    (hts : words ts = listTokens (ps.map Parameter.tokens) ++ after) :
    ∃ rest, recordComponentsFrom ts = .error ⟨annotationFault, rest⟩ := by
  induction ps generalizing ts with
  | nil => exact absurd (by simp) hfront
  | cons p ps ih =>
      have hp := h p List.mem_cons_self
      -- Components before the first one that is annotated elsewhere are read.
      by_cases hpFront : p.type.AnnotatedInFront
      · have hlater : ¬ ∀ q ∈ ps, q.type.AnnotatedInFront :=
          fun hall => hfront (List.forall_mem_cons.mpr ⟨hpFront, hall⟩)
        cases ps with
        | nil => exact absurd (by simp) hlater
        | cons q ps =>
            rw [List.map_cons, List.map_cons, listTokens_cons_cons, List.append_assoc,
              List.cons_append, ← List.map_cons] at hts
            obtain ⟨ts₁, h₁, hsame⟩ := recordComponentsFrom_comma hp hpFront hts
            obtain ⟨rest, hread⟩ :=
              ih (fun other hother => h other (List.mem_cons_of_mem p hother)) hlater h₁
            exact ⟨rest, by rw [hsame, hread]; rfl⟩
      · rw [List.map_cons, listTokens, List.append_assoc] at hts
        exact recordComponentsFrom_fault hp hpFront hts

/-- A record up to the brace that opens its body, from its name on. -/
structure RecordHead where
  name : String
  parameters? : Option TypeArguments
  components : List Parameter
  clause : List Token

namespace RecordHead

def tokens (r : RecordHead) : List Token :=
  .ident r.name :: (TypeArguments.optionalTokens r.parameters? ++ .openParen ::
    (listTokens (r.components.map Parameter.tokens) ++ .closeParen :: (r.clause ++ [.openBrace])))

def bare (r : RecordHead) : RecordHead where
  name := r.name
  parameters? := r.parameters?.map TypeArguments.bare
  components := r.components.map Parameter.bare
  clause := r.clause

def start (r : RecordHead) : TypeStart :=
  ⟨.record, r.name, none, r.components.map Parameter.component⟩

/-- The types of the components can be read, the brackets of the type parameters balance, and no
brace stands in front of the body. -/
structure Readable (r : RecordHead) : Prop where
  parameters : Arguments .less .greater (TypeArguments.optionalTokens r.parameters?)
  components : ∀ p ∈ r.components, p.Readable
  clause : .openBrace ∉ r.clause

theorem Readable.bare {r : RecordHead} (h : r.Readable) : r.bare.Readable where
  parameters := TypeArguments.arguments_bare r.parameters?
  components := by
    intro p hp
    obtain ⟨original, horiginal, rfl⟩ := List.mem_map.mp hp
    exact (h.components original horiginal).bare
  clause := h.clause

theorem start_bare (r : RecordHead) : r.bare.start = r.start := by
  simp [start, bare, Parameter.component, Parameter.bare, Function.comp_def]

end RecordHead

/-- Up to its components the start of a record is read in any case. -/
theorem exists_typeStart_eq {parameters : List Token}
    (hparameters : Arguments .less .greater parameters)
    (hts : words ts = .ident "record" :: .ident name :: (parameters ++ .openParen :: after)) :
    ∃ rest, words rest = after ∧ typeStart ts =
      match recordComponentsFrom rest with
      | .error e => .error e
      | .ok (fields, ts) =>
        (openBody name ts).map fun ts => ((⟨.record, name, none, fields⟩, false), ts) := by
  obtain ⟨line, ts₁, rfl, h₁⟩ := words_eq_cons hts
  obtain ⟨line', ts₂, rfl, h₂⟩ := words_eq_cons h₁
  obtain ⟨ts₃, hskip, h₃⟩ := hparameters.skipOptional_eq (by simp) (by simp) h₂
  obtain ⟨line'', rest, rfl, hrest⟩ := words_eq_cons h₃
  have hkind : typeKind (⟨.ident "record", line⟩ :: ⟨.ident name, line'⟩ :: ts₂) =
      .ok (.record, ⟨.ident name, line'⟩ :: ts₂) := rfl
  have hopen : expect .openParen (⟨.openParen, line''⟩ :: rest) = .ok ((), rest) := if_pos rfl
  refine ⟨rest, hrest, ?_⟩
  simp only [typeStart, hkind, identifier, hskip, components, recordComponents, hopen]
  rw [if_pos trivial]
  cases recordComponentsFrom rest with
  | error e => rfl
  | ok read =>
      obtain ⟨fields, ts₄⟩ := read
      simp only [superclass?]
      rw [if_neg (by simp)]
      dsimp only
      cases openBody name ts₄ <;> rfl

namespace RecordHead

variable {r : RecordHead}

/-- The head is read up to the brace that opens the body. -/
theorem Readable.exists_typeStart (h : r.Readable)
    (hfront : ∀ p ∈ r.components, p.type.AnnotatedInFront)
    (hts : words ts = .ident "record" :: (r.tokens ++ after)) :
    ∃ rest, typeStart ts = .ok ((r.start, false), rest) ∧ words rest = after := by
  simp only [tokens, List.cons_append, List.append_assoc] at hts
  obtain ⟨ts₁, h₁, hsame⟩ := exists_typeStart_eq h.parameters hts
  obtain ⟨ts₂, hcomponents, h₂⟩ := recordComponentsFrom_list h.components hfront h₁
  obtain ⟨clause, braced, rfl, hclause, hbraced⟩ := exists_append_of_words h₂
  obtain ⟨line, rest, rfl, hrest⟩ := words_eq_cons hbraced
  have hopen : openBody r.name (clause ++ ⟨.openBrace, line⟩ :: rest) = .ok rest := by
    apply openBody_append _ rfl
    rintro t ht htoken
    apply h.clause
    rw [← hclause, ← htoken]
    exact List.mem_map_of_mem ht
  refine ⟨rest, ?_, hrest⟩
  simp only [hsame, hcomponents, hopen]
  rfl

theorem Readable.exists_fault (h : r.Readable)
    (hfront : ¬ ∀ p ∈ r.components, p.type.AnnotatedInFront)
    (hts : words ts = .ident "record" :: (r.tokens ++ after)) :
    ∃ rest, typeStart ts = .error ⟨annotationFault, rest⟩ := by
  simp only [tokens, List.cons_append, List.append_assoc] at hts
  obtain ⟨ts₁, h₁, hsame⟩ := exists_typeStart_eq h.parameters hts
  obtain ⟨rest, hread⟩ := recordComponentsFrom_list_fault h.components hfront h₁
  exact ⟨rest, by rw [hsame, hread]⟩

/-- A record is taken for a type declaration, behind any modifiers. -/
theorem exists_start (h : Arguments .less .greater (TypeArguments.optionalTokens r.parameters?))
    (hmods : Modify ⟨none, false⟩ mods m)
    (hts : words ts = mods ++ .ident "record" :: (r.tokens ++ after)) :
    ∃ rest, words rest = .ident "record" :: (r.tokens ++ after) ∧
      modifiedStart ts = typeStart rest ∧
      ∀ kind name, member kind name ts =
        (typeStart rest).map fun read => (.type read.1.1 read.1.2, read.2) := by
  have hrecord : ∀ m : Modifiers, m.add? "record" = none := fun _ => rfl
  obtain ⟨rest, hmodifiers, hrest⟩ :=
    hmods.reads (endsModifiers_of_word hrecord (by simp [tokens])) ts hts
  refine ⟨rest, hrest, ?_, ?_⟩
  · simp only [modifiedStart, modifiers, hmodifiers]
  · intro kind name
    have hnext : next? rest = some (.ident "record") := by
      rw [next?_eq_head?, hrest, List.head?_cons]
    have hsecond : second? rest = some (.ident r.name) := by
      rw [second?_eq, hrest, tokens]
      rfl
    have hthird : next? rest.tail.tail = some .openParen ∨ next? rest.tail.tail = some .less := by
      rw [next?_eq_head?, words_tail, words_tail, hrest, tokens]
      generalize TypeArguments.optionalTokens r.parameters? = parameters at h
      cases h with
      | absent => exact Or.inl rfl
      | bracketed inner hinner => exact Or.inr rfl
    have hdecl : atTypeDecl rest = true := by
      rcases hthird with hthird | hthird <;>
        simp [atTypeDecl, hnext, hsecond, hthird, Token.isIdent]
    simp only [member, modifiers, hmodifiers]
    rw [if_neg (by simp [hnext]), if_neg (by simp [hsecond]), if_pos hdecl]
    cases typeStart rest <;> rfl

/-- A record whose components are annotated in front only is declared. -/
theorem Readable.declares {inner : List Token} {body : TypeBody} (h : r.Readable)
    (hfront : ∀ p ∈ r.components, p.type.AnnotatedInFront) (hmods : Modify ⟨none, false⟩ mods m)
    (hinner : Adds .record r.name inner body) :
    Declares (mods ++ .ident "record" :: (r.tokens ++ (inner ++ [.closeBrace])))
      (r.start.withBody body) := by
  have hts : words (placed (mods ++ .ident "record" :: r.tokens)) =
      mods ++ .ident "record" :: (r.tokens ++ []) := by rw [words_placed, List.append_nil]
  obtain ⟨ts₁, h₁, hmodified, hmember⟩ := exists_start h.parameters hmods hts
  obtain ⟨rest, hstart, hrest⟩ := h.exists_typeStart hfront h₁
  obtain rfl : rest = [] := by simpa [words] using hrest
  constructor
  · have haccepts : AcceptsStart (mods ++ .ident "record" :: r.tokens) r.start false :=
      ⟨_, [], words_placed _, by rw [List.append_nil, hmodified, hstart]⟩
    simpa using AddsTypes.type haccepts hinner
  · intro kind name
    have haccepts :
        AcceptsMember kind name (mods ++ .ident "record" :: r.tokens) (.type r.start false) :=
      ⟨_, [], words_placed _, by rw [List.append_nil, hmember, hstart]; rfl⟩
    simpa using Adds.type haccepts hinner

/-- At an annotation elsewhere in a component, the record is given up. -/
theorem Readable.fails (h : r.Readable) (hfront : ¬ ∀ p ∈ r.components, p.type.AnnotatedInFront)
    (hmods : Modify ⟨none, false⟩ mods m) :
    FailsToDeclare (mods ++ .ident "record" :: r.tokens) annotationFault := by
  have hstarts : StartsMember (mods ++ .ident "record" :: r.tokens) :=
    hmods.startsMember ⟨_, _, rfl, by simp, by simp⟩
  constructor
  · apply fails_of_start hstarts
    intro ts after hts
    rw [List.append_assoc, List.cons_append] at hts
    obtain ⟨ts₁, h₁, hmodified, _⟩ := exists_start h.parameters hmods hts
    rw [hmodified]
    exact h.exists_fault hfront h₁
  · intro kind name
    apply fails_of_member hstarts
    intro ts after hts
    rw [List.append_assoc, List.cons_append] at hts
    obtain ⟨ts₁, h₁, _, hmember⟩ := exists_start h.parameters hmods hts
    obtain ⟨rest, hfault⟩ := h.exists_fault hfront h₁
    exact ⟨rest, by rw [hmember, hfault]; rfl⟩

end RecordHead

end WireMapper.Java
