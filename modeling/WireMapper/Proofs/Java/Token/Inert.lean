import WireMapper.Proofs.Java.Print.Lexing
import WireMapper.Proofs.Java.Token.Seam

/-!
Comments and literals. What stands inside them is read over: a comment is no token, a literal is
one, and the text behind either is read as if it stood alone. Nothing that a comment or a literal
may hold can therefore be taken for a brace, a quote or the end of a statement.
-/

namespace WireMapper.Java

inductive LiteralChar where
  | plain (c : Char)
  | escaped (c : Char)
deriving DecidableEq, Repr

def LiteralChar.chars : LiteralChar → List Char
  | plain c => [c]
  | escaped c => ['\\', c]

/-- A comment or a literal in quotes, with its content. A line comment has the end of its line. -/
inductive Inert where
  | blockComment (text : List Char)
  | lineComment (text : List Char)
  | string (content : List LiteralChar)
  | character (content : List LiteralChar)
  | textBlock (content : List LiteralChar)
deriving DecidableEq, Repr

namespace Inert

def chars : Inert → List Char
  | blockComment text => '/' :: '*' :: (text ++ ['*', '/'])
  | lineComment text => '/' :: '/' :: (text ++ ['\n'])
  | string content => '"' :: (content.flatMap LiteralChar.chars ++ ['"'])
  | character content => '\'' :: (content.flatMap LiteralChar.chars ++ ['\''])
  | textBlock content => '"' :: '"' :: '"' :: (content.flatMap LiteralChar.chars ++ ['"', '"', '"'])

def source (piece : Inert) : String :=
  String.ofList piece.chars

/-- Whether the content stays within its delimiters. In a block comment and in a text block these
are found first at the end: nowhere else before the last character of the one does `*/` stand, and
nowhere else before the last quote of the other do three bare quotes stand in a row. -/
def Legal : Inert → Prop
  | blockComment text => ¬['*', '/'] <:+: text ++ ['*']
  | lineComment text => '\n' ∉ text
  | string content => ∀ c, .plain c ∈ content → c ≠ '\\' ∧ c ≠ '\n' ∧ c ≠ '"'
  | character content => ∀ c, .plain c ∈ content → c ≠ '\\' ∧ c ≠ '\n' ∧ c ≠ '\''
  | textBlock content =>
    (∀ c, .plain c ∈ content → c ≠ '\\') ∧
      ¬List.replicate 3 (.plain '"') <:+: content ++ List.replicate 2 (.plain '"')

def token? : Inert → Option Token
  | blockComment _ | lineComment _ => none
  | string _ | character _ | textBlock _ => some .literal

/-- The text behind does not make the two quotes of an empty string the start of a text block. -/
def Apart (piece : Inert) (after : List Char) : Prop :=
  piece = string [] → after.head? ≠ some '"'

end Inert

/-- The first `*/` ends a comment. -/
theorem endsWith_comment {text : List Char} (htext : ¬['*', '/'] <:+: text ++ ['*']) :
    EndsWith afterComment? (text ++ ['*', '/']) := by
  induction text with
  | nil => exact fun line after => by simp [afterComment?]
  | cons c text ih =>
      have hrest : ¬['*', '/'] <:+: text ++ ['*'] :=
        fun hmem => htext (hmem.trans (List.suffix_cons c _).isInfix)
      refine (ih hrest).cons ?_
      intro line after
      rw [afterComment?]
      rintro rest rfl hslash
      cases text with
      | nil => cases hslash
      | cons d text =>
          obtain ⟨rfl, _⟩ := List.cons.inj hslash
          exact htext ⟨[], text ++ ['*'], rfl⟩

/-- The first bare quote ends a literal. -/
theorem endsWith_quoted {delimiter : Char} {content : List LiteralChar}
    (hdelimiter : delimiter ≠ '\\' ∧ delimiter ≠ '\n')
    (hcontent : ∀ c, .plain c ∈ content → c ≠ '\\' ∧ c ≠ '\n' ∧ c ≠ delimiter) :
    EndsWith (afterQuoted? delimiter) (content.flatMap LiteralChar.chars ++ [delimiter]) := by
  induction content with
  | nil =>
      intro line after
      simp [afterQuoted?_cons _ _ _ hdelimiter.1, hdelimiter.2]
  | cons piece content ih =>
      have hrest := ih fun c hc => hcontent c (List.mem_cons_of_mem piece hc)
      cases piece with
      | plain c =>
          obtain ⟨hescape, hline, hbare⟩ := hcontent c List.mem_cons_self
          refine hrest.cons ?_
          intro line after
          rw [afterQuoted?_cons _ _ _ hescape, if_neg hbare, if_neg hline, lineAfter, if_neg hline]
      | escaped c => exact hrest.escape fun line after => by rw [afterQuoted?]

/-- The scanner of a text block that has just passed some bare quotes, fewer than three of which
stand in a row before the end. -/
theorem endsWith_textBlock {quotes : Nat} {content : List LiteralChar} (hquotes : quotes ≤ 2)
    (hescape : ∀ c, .plain c ∈ content → c ≠ '\\')
    (hquote : ¬List.replicate 3 (.plain '"') <:+:
      List.replicate quotes (.plain '"') ++ (content ++ List.replicate 2 (.plain '"'))) :
    EndsWith (afterTextBlock? quotes) (content.flatMap LiteralChar.chars ++ ['"', '"', '"']) := by
  induction content generalizing quotes with
  | nil =>
      obtain rfl : quotes = 0 := by
        refine Nat.eq_zero_of_not_pos fun hpos => hquote ?_
        refine ⟨List.replicate (quotes - 1) (.plain '"'), [], ?_⟩
        rw [List.append_nil, List.nil_append, List.replicate_append_replicate,
          List.replicate_append_replicate, show quotes - 1 + 3 = quotes + 2 by omega]
      intro line after
      simp [afterTextBlock?_cons]
  | cons piece content ih =>
      have hcontent : ∀ c, .plain c ∈ content → c ≠ '\\' :=
        fun c hc => hescape c (List.mem_cons_of_mem piece hc)
      have hrest : ¬List.replicate 3 (.plain '"') <:+:
          List.replicate 0 (.plain '"') ++ (content ++ List.replicate 2 (.plain '"')) := by
        intro hmem
        refine hquote (hmem.trans ?_)
        exact ⟨List.replicate quotes (.plain '"') ++ [piece], [], by simp⟩
      cases piece with
      | escaped c =>
          exact (ih (by omega) hcontent hrest).escape fun line after => by rw [afterTextBlock?]
      | plain c =>
          have hc : c ≠ '\\' := hescape c List.mem_cons_self
          by_cases hbare : c = '"'
          · subst hbare
            have hthree : quotes ≠ 2 := by
              rintro rfl
              exact hquote ⟨[], content ++ List.replicate 2 (.plain '"'), rfl⟩
            have hpassed : List.replicate (quotes + 1) (LiteralChar.plain '"') =
                List.replicate quotes (.plain '"') ++ [.plain '"'] := List.replicate_succ'
            have hmore : EndsWith (afterTextBlock? (quotes + 1)) _ :=
              ih (by omega) hcontent (by rwa [hpassed, List.append_assoc])
            refine hmore.cons ?_
            intro line after
            rw [afterTextBlock?_cons _ _ _ hc, if_pos rfl, if_neg hthree]
            rfl
          · refine (ih (by omega) hcontent hrest).cons ?_
            intro line after
            rw [afterTextBlock?_cons _ _ _ hc, if_neg hbare]

/-- A comment or a literal is read in one step. -/
theorem Inert.Legal.stepReads {piece : Inert} (h : piece.Legal) {after : List Char}
    (hafter : piece.Apart after) :
    ∃ c front, piece.chars = c :: front ∧ StepReads c front after piece.token? := by
  cases piece with
  | blockComment text =>
      exact ⟨'/', _, rfl, stepReads_blockComment (endsWith_comment h) after⟩
  | lineComment text => exact ⟨'/', _, rfl, stepReads_line h after⟩
  | character content =>
      exact ⟨'\'', _, rfl, stepReads_char (endsWith_quoted (by decide) h) after⟩
  | textBlock content =>
      have hcontent :
          EndsWith (afterTextBlock? 0) (content.flatMap LiteralChar.chars ++ ['"', '"', '"']) :=
        endsWith_textBlock (by omega) h.1 (by simpa using h.2)
      exact ⟨'"', _, rfl, stepReads_textBlock hcontent after⟩
  | string content =>
      refine ⟨'"', _, rfl, ?_⟩
      cases content with
      | nil =>
          refine stepReads_emptyString ?_
          rintro d hd rfl
          exact hafter rfl hd
      | cons piece content =>
          refine stepReads_string (endsWith_quoted (by decide) h) ?_ after
          cases piece with
          | plain c =>
              intro hhead
              exact (h c List.mem_cons_self).2.2 (Option.some.inj hhead)
          | escaped c => simp [LiteralChar.chars]

def bare : Except LexError (List PlacedToken) → Except LexFault (List Token)
  | .error e => .error e.fault
  | .ok ts => .ok (words ts)

/-- Behind a source of whole lines a comment or a literal is one step, and the text after it is read
as if it stood alone. -/
theorem scan_inert {before : String} {ts : List PlacedToken} (h : scan before = .ok ts)
    (hend : before = "" ∨ before.toList.getLast? = some '\n') {piece : Inert} (hpiece : piece.Legal)
    {after : String} (hafter : piece.Apart after.toList) :
    scan (before ++ piece.source ++ after) =
      (movedDown (before.toList.count '\n' + piece.chars.count '\n') (scan after)).map
        (ts ++ (piece.token?.map (⟨·, 1 + before.toList.count '\n'⟩)).toList ++ ·) := by
  obtain ⟨c, front, hchars, hreads⟩ := hpiece.stepReads hafter
  have hend' : before.toList = [] ∨ before.toList.getLast? = some '\n' :=
    hend.imp_left fun hnil => by rw [hnil]; rfl
  have htext : (before ++ piece.source ++ after).toList =
      before.toList ++ c :: (front ++ after.toList) := by
    simp [Inert.source, hchars]
  rw [scan, htext, scanFrom_append h hend', hreads.scanFrom_append (.alike rfl), ← hchars,
    Nat.add_assoc, scanFrom_down, scan]
  cases movedDown _ (scanFrom 1 after.toList) <;> simp [Except.map]

theorem words_down (n : Nat) (ts : List PlacedToken) :
    words (ts.map (PlacedToken.down n)) = words ts := by
  simp [words, PlacedToken.down, Function.comp_def]

/-- Moving a source down changes nothing but the lines. -/
theorem bare_movedDown (n : Nat) (us : List PlacedToken)
    (r : Except LexError (List PlacedToken)) :
    bare ((movedDown n r).map (us ++ ·)) = (bare r).map (words us ++ ·) := by
  cases r with
  | error e => rfl
  | ok ts =>
      have hwords : words (us ++ ts.map (PlacedToken.down n)) = words us ++ words ts := by
        rw [words, List.map_append, ← words, ← words, words_down]
      exact congrArg Except.ok hwords

/-- Comments and literals are read over. Behind a source of whole lines that can be read, a comment
yields no token and a literal exactly one, and the text after it is read as if it stood alone, only
further down. So one comment may stand for another and one literal for another: the tokens are the
same, and so is the fault if there is one, whatever the two hold. -/
theorem comments_and_literals_read_over (before : String) (ts : List PlacedToken)
    (h : scan before = .ok ts) (hend : before = "" ∨ before.toList.getLast? = some '\n')
    (piece : Inert) (hpiece : piece.Legal) (after : String) (hafter : piece.Apart after.toList) :
    scan (before ++ piece.source ++ after) =
      (match scan after with
        | .error e =>
          .error ⟨e.line + (before.toList.count '\n' + piece.chars.count '\n'), e.fault⟩
        | .ok us =>
          .ok (ts ++ (piece.token?.map (⟨·, 1 + before.toList.count '\n'⟩)).toList ++
            us.map fun t =>
              ⟨t.token, t.line + (before.toList.count '\n' + piece.chars.count '\n')⟩)) ∧
    ∀ other : Inert, other.Legal → other.Apart after.toList → other.token? = piece.token? →
      bare (scan (before ++ other.source ++ after)) =
        bare (scan (before ++ piece.source ++ after)) := by
  have hread := scan_inert h hend hpiece hafter
  constructor
  · rw [hread]
    cases scan after <;> rfl
  · intro other hother hotherAfter hsame
    rw [hread, scan_inert h hend hother hotherAfter, bare_movedDown, bare_movedDown, hsame]

/-- A text block of two quotes and a brace behind a line with a comment, and a string of an escaped
quote in its place. -/
theorem comments_and_literals_read_over_textBlock :
    scan "// \"\n" = .ok [] ∧
      scan ("// \"\n" ++ (Inert.textBlock [.plain '"', .plain '"', .plain '\x7b']).source ++ ";") =
        .ok [⟨.literal, 2⟩, ⟨.semicolon, 2⟩] ∧
      bare (scan ("// \"\n" ++ (Inert.string [.escaped '"']).source ++ ";")) =
        .ok [.literal, .semicolon] := by
  have hbefore : scan "// \"\n" = .ok [] := ok_of_toOption (by decide +kernel)
  have hafter : scan ";" = .ok [⟨.semicolon, 1⟩] := ok_of_toOption (by decide +kernel)
  have hblock : (Inert.textBlock [.plain '"', .plain '"', .plain '\x7b']).Legal := by
    refine ⟨?_, by decide⟩
    rintro c hc rfl
    simp at hc
  have hstring : (Inert.string [.escaped '"']).Legal := by
    intro c hc
    simp at hc
  obtain ⟨hread, hother⟩ := comments_and_literals_read_over _ _ hbefore (.inr (by decide)) _ hblock
    ";" (by simp [Inert.Apart])
  rw [hafter] at hread
  refine ⟨hbefore, hread, ?_⟩
  rw [hother _ hstring (by simp [Inert.Apart]) rfl, hread]
  rfl

end WireMapper.Java
