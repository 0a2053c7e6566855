import WireMapper.Proofs.Java.Print
import WireMapper.Proofs.Text.Ranges

/-!
Lexing printed source. The tokens of a text are found from its end: what stands before a text whose
tokens are known adds its own tokens in front, whatever line the text starts on. Only an identifier
needs to know what follows it, which must not go on as part of it.
-/

namespace WireMapper.Java

open WireMapper.Text (isWhiteSpace)

def words (ts : List PlacedToken) : List Token :=
  ts.map (·.token)

/-- The characters are cut into these tokens, on whatever line they start. -/
def Yields (cs : List Char) (tokens : List Token) : Prop :=
  ∀ line, ∃ ts, scanFrom line cs = .ok ts ∧ words ts = tokens

/-- The characters do not go on with an identifier that stands before them. -/
def EndsIdentifier (cs : List Char) : Prop :=
  ∀ c ∈ cs.head?, isIdentPart c = false

theorem yields_nil : Yields [] [] := by
  intro line
  exact ⟨[], by simp [scanFrom], rfl⟩

/-- One step, and the tokens of what it leaves. -/
theorem yields_cons (token? : Option Token) {c : Char} {cs rest : List Char}
    {tokens : List Token}
    (hstep : ∀ line, ∃ line', step line c cs = .ok ⟨token?.map (⟨·, line⟩), line', rest⟩)
    (hrest : Yields rest tokens) : Yields (c :: cs) (token?.toList ++ tokens) := by
  intro line
  obtain ⟨line', hstep⟩ := hstep line
  obtain ⟨ts, hts, rfl⟩ := hrest line'
  refine ⟨(token?.map (⟨·, line⟩)).toList ++ ts, ?_, ?_⟩
  · rw [scanFrom]
    split
    · rename_i e herror
      rw [hstep] at herror
      cases herror
    · rename_i s hs
      rw [hstep] at hs
      cases hs
      simp only [hts]
  · cases token? <;> simp [words]

theorem Yields.space {c : Char} {cs : List Char} {tokens : List Token}
    (hspace : isWhiteSpace c = true) (h : Yields cs tokens) : Yields (c :: cs) tokens := by
  refine yields_cons none (fun line => ⟨lineAfter line c, ?_⟩) h
  simp [step, hspace]

/-- A character that is a token by itself and starts nothing longer. -/
def isMark (c : Char) : Bool :=
  !(isWhiteSpace c || c = '/' || isIdentStart c || c.isDigit || c = '"' || c = '\'')

/-- A mark is a token whatever follows it. -/
theorem Yields.mark {c : Char} {cs : List Char} {tokens : List Token} (hmark : isMark c = true)
    (h : Yields cs tokens) : Yields (c :: cs) (Token.ofChar c :: tokens) := by
  simp only [isMark, Bool.not_eq_true', Bool.or_eq_false_iff, decide_eq_false_iff_not] at hmark
  obtain ⟨⟨⟨⟨⟨hspace, hslash⟩, hident⟩, hdigit⟩, hquote⟩, hapostrophe⟩ := hmark
  refine yields_cons (some (Token.ofChar c)) (fun line => ⟨line, ?_⟩) h
  simp [step, hspace, hslash, hident, hdigit, hquote, hapostrophe]

theorem isWhiteSpace_of_isIdentStart {c : Char} (h : isIdentStart c = true) :
    isWhiteSpace c = false := by
  rw [← Bool.not_eq_true]
  intro hspace
  have hletter := Text.isAlphabetic_of_isWhiteSpace hspace
  simp only [isIdentStart, hletter, Bool.false_or, Bool.or_eq_true, decide_eq_true_eq] at h
  rcases h with rfl | rfl <;> revert hspace <;> decide

/-- An identifier is read to its end only if what follows does not go on with it. -/
theorem Yields.ident {name : String} {cs : List Char} {tokens : List Token}
    (hname : IsIdentifier name) (hend : EndsIdentifier cs) (h : Yields cs tokens) :
    Yields (name.toList ++ cs) (.ident name :: tokens) := by
  obtain ⟨c, rest, htext, hstart, hpart⟩ := hname
  have htake : (rest ++ cs).takeWhile isIdentPart = rest := by
    rw [List.takeWhile_append_of_pos hpart]
    cases cs with
    | nil => simp
    | cons d cs => simp [hend d rfl]
  have hdrop : (rest ++ cs).dropWhile isIdentPart = cs := by
    rw [List.dropWhile_append_of_pos hpart]
    cases cs with
    | nil => rfl
    | cons d cs => simp [hend d rfl]
  have hslash : c ≠ '/' := by
    rintro rfl
    revert hstart
    decide
  have hname : String.ofList (c :: rest) = name := by
    rw [← htext, String.ofList_toList]
  rw [htext, List.cons_append]
  refine yields_cons (some (.ident name)) (fun line => ⟨line, ?_⟩) h
  simp [step, isWhiteSpace_of_isIdentStart hstart, hslash, hstart, htake, hdrop, hname]

/-- A word with a space after it. -/
theorem Yields.word {name : String} {cs : List Char} {tokens : List Token}
    (hname : IsIdentifier name) (h : Yields cs tokens) :
    Yields (name.toList ++ ' ' :: cs) (.ident name :: tokens) := by
  refine Yields.ident hname ?_ (Yields.space (by decide) h)
  intro c hc
  cases hc
  decide

/-- A dotted name with something after it that is no part of it. -/
theorem Yields.dotted {segments : List String} {cs : List Char} {tokens : List Token}
    (hsegments : ∀ segment ∈ segments, IsIdentifier segment) (hend : EndsIdentifier cs)
    (h : Yields cs tokens) :
    Yields (Text.joinChars '.' (segments.map String.toList) ++ cs)
      (dottedTokens segments ++ tokens) := by
  induction segments with
  | nil => exact h
  | cons segment segments ih =>
      have hsegment := hsegments segment List.mem_cons_self
      have hrest := ih fun other hother => hsegments other (List.mem_cons_of_mem segment hother)
      cases segments with
      | nil => exact Yields.ident hsegment hend h
      | cons next segments =>
          simp only [List.map_cons, Text.joinChars, List.append_assoc, List.cons_append,
            dottedTokens] at hrest ⊢
          refine Yields.ident hsegment ?_ (Yields.mark (c := '.') (by decide) hrest)
          intro c hc
          cases hc
          decide

theorem Yields.name {name : String} {cs : List Char} {tokens : List Token}
    (hname : IsPlainQualified name) (hend : EndsIdentifier cs) (h : Yields cs tokens) :
    Yields (name.toList ++ cs) (nameTokens name ++ tokens) := by
  have hchars : name.toList = Text.joinChars '.' ((Text.split '.' name).map String.toList) := by
    rw [← String.toList_ofList (l := Text.joinChars _ _)]
    exact congrArg String.toList (Text.join_split '.' name).symm
  rw [hchars]
  exact Yields.dotted (fun segment hsegment => (hname segment hsegment).isIdentifier) hend h

/-- A fixed word with a space after it. -/
theorem Yields.keyword {cs : List Char} {tokens : List Token} (text word : String)
    (h : Yields cs tokens) (htext : text = word ++ " ") (hword : IsIdentifier word) :
    Yields (text.toList ++ cs) (.ident word :: tokens) := by
  have hchars : text.toList ++ cs = word.toList ++ ' ' :: cs := by
    simp [htext]
  rw [hchars]
  exact Yields.word hword h

theorem Yields.visibility {v : Visibility} {cs : List Char} {tokens : List Token}
    (h : Yields cs tokens) : Yields (v.source.toList ++ cs) (v.tokens ++ tokens) := by
  cases v with
  | public_ => exact h.keyword "public " "public" rfl (by decide)
  | protected_ => exact h.keyword "protected " "protected" rfl (by decide)
  | package => simpa [Visibility.source, Visibility.tokens] using h
  | private_ => exact h.keyword "private " "private" rfl (by decide)

theorem Yields.endOfStatement {cs : List Char} {tokens : List Token} (h : Yields cs tokens) :
    Yields (";\n".toList ++ cs) (Token.semicolon :: tokens) :=
  Yields.mark (c := ';') (by decide) (Yields.space (by decide) h)

theorem endsIdentifier_mark {c : Char} {cs : List Char} (h : isIdentPart c = false) :
    EndsIdentifier (c :: cs) := by
  intro d hd
  cases hd
  exact h

theorem Yields.field {field : FieldDecl} {cs : List Char} {tokens : List Token}
    (hname : IsIdentifier field.name) (h : Yields cs tokens) :
    Yields (field.source.toList ++ cs) (field.tokens ++ tokens) := by
  have hend : EndsIdentifier (";\n".toList ++ cs) := endsIdentifier_mark (by decide)
  have hint := (Yields.ident hname hend h.endOfStatement).keyword "int " "int" rfl
    (by decide)
  simp only [FieldDecl.source, FieldDecl.tokens, FieldDecl.modifierTokens, String.toList_append,
    List.append_assoc]
  apply Yields.visibility
  cases field.isStatic with
  | true => exact hint.keyword "static " "static" rfl (by decide)
  | false => simpa using hint

theorem Yields.fields {fields : List FieldDecl} {cs : List Char} {tokens : List Token}
    (hnames : ∀ field ∈ fields, IsIdentifier field.name) (h : Yields cs tokens) :
    Yields ((String.join (fields.map FieldDecl.source)).toList ++ cs)
      (fields.flatMap FieldDecl.tokens ++ tokens) := by
  induction fields with
  | nil => simpa using h
  | cons field fields ih =>
      have hrest := ih fun other hother => hnames other (List.mem_cons_of_mem field hother)
      have hfield := Yields.field (hnames field List.mem_cons_self) hrest
      simpa using hfield

theorem Yields.kind {kind : TypeKind} {cs : List Char} {tokens : List Token}
    (h : Yields cs tokens) : Yields (kind.source.toList ++ cs) (kind.tokens ++ tokens) := by
  cases kind with
  | class_ => exact h.keyword "class " "class" rfl (by decide)
  | interface => exact h.keyword "interface " "interface" rfl (by decide)
  | enum => exact h.keyword "enum " "enum" rfl (by decide)
  | record => exact h.keyword "record " "record" rfl (by decide)
  | annotationType =>
      have hword := h.keyword "interface " "interface" rfl (by decide)
      exact Yields.mark (c := '@') (by decide) hword

theorem Yields.openBrace (kind : TypeKind) {cs : List Char} {tokens : List Token}
    (h : Yields cs tokens) :
    Yields (' ' :: '\x7b' :: '\n' :: ((if kind = .enum then ";\n" else "").toList ++ cs))
      (Token.openBrace :: ((if kind = .enum then [Token.semicolon] else []) ++ tokens)) := by
  refine Yields.space (c := ' ') (by decide) ?_
  refine Yields.mark (c := '\x7b') (by decide) ?_
  refine Yields.space (c := '\n') (by decide) ?_
  by_cases henum : kind = .enum
  · simp only [henum, ↓reduceIte]
    exact h.endOfStatement
  · simpa [henum] using h

/-- An extends clause, and the space after it that ends the name in front of it as well. -/
theorem Yields.superclass {superclass? : Option String} {cs : List Char} {tokens : List Token}
    (hsuper : ∀ superclass, superclass? = some superclass → IsPlainQualified superclass)
    (h : Yields (' ' :: cs) tokens) :
    Yields ((superclass?.elim "" fun superclass => " extends " ++ superclass).toList ++ ' ' :: cs)
      ((superclass?.elim [] fun superclass => Token.ident "extends" :: nameTokens superclass) ++
        tokens) := by
  cases superclass? with
  | none => simpa using h
  | some superclass =>
      have hname := Yields.name (hsuper superclass rfl) (endsIdentifier_mark (by decide)) h
      have hword := hname.keyword "extends " "extends" rfl (by decide)
      have hspace := Yields.space (c := ' ') (by decide) hword
      simpa using hspace

theorem endsIdentifier_superclass (superclass? : Option String) (cs : List Char) :
    EndsIdentifier ((superclass?.elim "" fun superclass => " extends " ++ superclass).toList ++
      ' ' :: cs) := by
  cases superclass? with
  | none => simpa using endsIdentifier_mark (c := ' ') (by decide)
  | some superclass => simpa using endsIdentifier_mark (c := ' ') (by decide)

theorem endsIdentifier_components {kind : TypeKind} {cs : List Char} (h : EndsIdentifier cs) :
    EndsIdentifier ((if kind = .record then "()" else "").toList ++ cs) := by
  by_cases hrecord : kind = .record
  · simpa [hrecord] using endsIdentifier_mark (c := '(') (by decide)
  · simpa [hrecord] using h

theorem Yields.components {kind : TypeKind} {cs : List Char} {tokens : List Token}
    (h : Yields cs tokens) :
    Yields ((if kind = .record then "()" else "").toList ++ cs)
      ((if kind = .record then [Token.openParen, .closeParen] else []) ++ tokens) := by
  by_cases hrecord : kind = .record
  · have hparens : Yields ('(' :: ')' :: cs) (.openParen :: .closeParen :: tokens) :=
      Yields.mark (by decide) (Yields.mark (by decide) h)
    simpa [hrecord] using hparens
  · simpa [hrecord] using h

theorem Yields.head {t : TypeDecl} {cs : List Char} {tokens : List Token}
    (hname : IsIdentifier t.name)
    (hsuper : ∀ superclass, t.superclass? = some superclass → IsPlainQualified superclass)
    (h : Yields cs tokens) : Yields (t.headSource.toList ++ cs) (t.headTokens ++ tokens) := by
  have hclause := Yields.superclass hsuper (h.openBrace t.kind)
  have hchars : t.headSource.toList ++ cs = t.kind.source.toList ++ (t.name.toList ++
      ((if t.kind = .record then "()" else "").toList ++
        ((t.superclass?.elim "" fun superclass => " extends " ++ superclass).toList ++
          ' ' :: '\x7b' :: '\n' :: ((if t.kind = .enum then ";\n" else "").toList ++ cs)))) := by
    simp [TypeDecl.headSource]
  have htokens : t.headTokens ++ tokens = t.kind.tokens ++ Token.ident t.name ::
      ((if t.kind = .record then [Token.openParen, .closeParen] else []) ++
        ((t.superclass?.elim [] fun superclass => Token.ident "extends" :: nameTokens superclass) ++
          Token.openBrace :: ((if t.kind = .enum then [Token.semicolon] else []) ++ tokens))) := by
    simp [TypeDecl.headTokens]
  rw [hchars, htokens]
  have hend := endsIdentifier_superclass t.superclass?
    ('\x7b' :: '\n' :: ((if t.kind = .enum then ";\n" else "").toList ++ cs))
  exact (Yields.ident hname (endsIdentifier_components hend) hclause.components).kind

theorem Yields.closeBrace {cs : List Char} {tokens : List Token} (h : Yields cs tokens) :
    Yields ("\x7d\n".toList ++ cs) (Token.closeBrace :: tokens) :=
  Yields.mark (c := '\x7d') (by decide) (Yields.space (c := '\n') (by decide) h)

theorem Yields.sources {types : List TypeDecl} {cs : List Char} {tokens : List Token}
    (htypes : ∀ t ∈ types, ∀ cs tokens, Yields cs tokens →
      Yields (t.source.toList ++ cs) (t.tokens ++ tokens))
    (h : Yields cs tokens) :
    Yields ((TypeDecl.sources types).toList ++ cs) (TypeDecl.tokensOf types ++ tokens) := by
  induction types with
  | nil => simpa [TypeDecl.sources, TypeDecl.tokensOf] using h
  | cons t types ih =>
      have hrest := ih fun other hother => htypes other (List.mem_cons_of_mem t hother)
      have hfirst := htypes t List.mem_cons_self _ _ hrest
      simpa [TypeDecl.sources, TypeDecl.tokensOf] using hfirst

/-- What is printed for a type yields its tokens. -/
theorem Yields.type {t : TypeDecl} (ht : t.WellFormed) :
    ∀ cs tokens, Yields cs tokens → Yields (t.source.toList ++ cs) (t.tokens ++ tokens) := by
  induction ht with
  | intro name kind superclass? fields nested hname hsuper hfields _ ih =>
      intro cs tokens h
      have hbody := Yields.fields (fun field hfield => (hfields field hfield).name.isIdentifier)
        (Yields.sources ih h.closeBrace)
      have hhead := Yields.head (t := ⟨name, kind, superclass?, fields, nested⟩)
        hname.isIdentifier (fun superclass hsome => (hsuper superclass hsome).2) hbody
      simpa [TypeDecl.source, TypeDecl.tokens] using hhead

theorem Yields.import {i : Import} {cs : List Char} {tokens : List Token}
    (hpath : IsPlainQualified i.path) (h : Yields cs tokens) :
    Yields (i.source.toList ++ cs) (i.tokens ++ tokens) := by
  have hpath' : Yields (i.path.toList ++ ((if i.isWildcard then ".*" else "").toList ++
        (";\n".toList ++ cs)))
      (nameTokens i.path ++ ((if i.isWildcard then [Token.dot, .other '*'] else []) ++
        Token.semicolon :: tokens)) := by
    cases i.isWildcard with
    | true =>
        refine Yields.name hpath (endsIdentifier_mark (by decide)) ?_
        exact Yields.mark (c := '.') (by decide) (Yields.mark (c := '*') (by decide)
          h.endOfStatement)
    | false => exact Yields.name hpath (endsIdentifier_mark (by decide)) h.endOfStatement
  have hstatic : Yields ((if i.isStatic then "static " else "").toList ++ (i.path.toList ++
        ((if i.isWildcard then ".*" else "").toList ++ (";\n".toList ++ cs))))
      ((if i.isStatic then [Token.ident "static"] else []) ++ (nameTokens i.path ++
        ((if i.isWildcard then [Token.dot, .other '*'] else []) ++
            Token.semicolon :: tokens))) := by
    cases i.isStatic with
    | true => exact hpath'.keyword "static " "static" rfl (by decide)
    | false => simpa using hpath'
  have himport := hstatic.keyword "import " "import" rfl (by decide)
  simpa only [Import.source, Import.tokens, String.toList_append, List.append_assoc,
    List.cons_append, List.nil_append] using himport

theorem Yields.imports {imports : List Import} {cs : List Char} {tokens : List Token}
    (hpaths : ∀ i ∈ imports, IsPlainQualified i.path) (h : Yields cs tokens) :
    Yields ((String.join (imports.map Import.source)).toList ++ cs)
      (imports.flatMap Import.tokens ++ tokens) := by
  induction imports with
  | nil => simpa using h
  | cons i imports ih =>
      have hrest := ih fun other hother => hpaths other (List.mem_cons_of_mem i hother)
      have hfirst := Yields.import (hpaths i List.mem_cons_self) hrest
      simpa using hfirst

theorem Yields.package {package? : Option String} {cs : List Char} {tokens : List Token}
    (hpackage : ∀ package, package? = some package → IsPlainQualified package)
    (h : Yields cs tokens) :
    Yields ((package?.elim "" fun package => "package " ++ package ++ ";\n").toList ++ cs)
      ((package?.elim [] fun package => Token.ident "package" ::
        (nameTokens package ++ [Token.semicolon])) ++
        tokens) := by
  cases package? with
  | none => simpa using h
  | some package =>
      have hend : EndsIdentifier (";\n".toList ++ cs) := endsIdentifier_mark (by decide)
      have hname := Yields.name (hpackage package rfl) hend h.endOfStatement
      have hword := hname.keyword "package " "package" rfl (by decide)
      simpa using hword

/-- The printed source of a unit is cut into the tokens of the unit. -/
theorem scan_source {unit : CompilationUnit} (h : unit.WellFormed) :
    ∃ ts, scan unit.source = .ok ts ∧ words ts = unit.tokens := by
  have htypes := Yields.sources (fun t ht => Yields.type (h.types t ht)) yields_nil
  have hunit := Yields.package h.package (Yields.imports h.imports htypes)
  obtain ⟨ts, hts, hwords⟩ := hunit 1
  refine ⟨ts, ?_, ?_⟩
  · simpa [scan, CompilationUnit.source] using hts
  · simpa [CompilationUnit.tokens] using hwords

end WireMapper.Java
