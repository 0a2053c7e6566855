import WireMapper.Java.Token.Lexer
import WireMapper.Proofs.Text.Ranges

/-!
How far a step of the lexer reads. A step that succeeds has read some characters from the front, and
it reads the same ones in the same way on every other line and before every text that cannot go on
with them. A step that fails does so on every line.
-/

namespace WireMapper.Java

open WireMapper.Text (isWhiteSpace)

theorem lineAfter_eq (line : Nat) (c : Char) : lineAfter line c = line + [c].count '\n' := by
  by_cases hc : c = '\n' <;> simp [lineAfter, hc]

theorem count_cons_add (line : Nat) (c : Char) (cs : List Char) :
    line + (c :: cs).count '\n' = lineAfter line c + cs.count '\n' := by
  rw [lineAfter_eq, ← List.singleton_append, List.count_append, Nat.add_assoc]

/-- The scanner reads `front` to its end, on every line and before every text. -/
def EndsWith (scanner : Nat → List Char → Option Unread) (front : List Char) : Prop :=
  ∀ line after, scanner line (front ++ after) = some ⟨line + front.count '\n', after⟩

/-- One more character that a scanner passes before it goes on as another. -/
theorem EndsWith.cons {scanner next : Nat → List Char → Option Unread} {c : Char}
    {front : List Char} (hfront : EndsWith next front)
    (hnext : ∀ line after, scanner line (c :: (front ++ after)) =
      next (lineAfter line c) (front ++ after)) : EndsWith scanner (c :: front) := by
  intro line after
  rw [List.cons_append, hnext, hfront, count_cons_add]

/-- An escape that a scanner passes before it goes on as another. -/
theorem EndsWith.escape {scanner next : Nat → List Char → Option Unread} {c : Char}
    {front : List Char} (hfront : EndsWith next front)
    (hnext : ∀ line after, scanner line ('\\' :: c :: (front ++ after)) =
      next (lineAfter line c) (front ++ after)) : EndsWith scanner ('\\' :: c :: front) := by
  intro line after
  rw [List.cons_append, List.cons_append, hnext, hfront, count_cons_add, count_cons_add]
  rfl

/-- A comment that ends is read up to its end, wherever it stands. -/
theorem afterComment?_extent {line : Nat} {cs : List Char} {unread : Unread}
    (h : afterComment? line cs = some unread) :
    ∃ front, cs = front ++ unread.chars ∧ EndsWith afterComment? front := by
  fun_induction afterComment? line cs with
  | case1 => cases h
  | case2 line cs =>
      cases h
      exact ⟨['*', '/'], rfl, fun line after => by simp [afterComment?]⟩
  | case3 line c cs hnext ih =>
      obtain ⟨front, rfl, hfront⟩ := ih h
      refine ⟨c :: front, rfl, hfront.cons ?_⟩
      intro line' after
      rw [afterComment?]
      rintro rest rfl hslash
      cases front with
      | nil => simpa [afterComment?] using hfront 0 []
      | cons d front =>
          obtain ⟨rfl, _⟩ := List.cons.inj hslash
          exact hnext _ rfl rfl

theorem afterQuoted?_cons (delimiter : Char) (line : Nat) {c : Char} (cs : List Char)
    (hc : c ≠ '\\') :
    afterQuoted? delimiter line (c :: cs) =
      if c = delimiter then some ⟨line, cs⟩
      else if c = '\n' then none
      else afterQuoted? delimiter line cs := by
  rw [afterQuoted?]
  · exact fun hsame => absurd hsame hc
  · exact fun _ _ hsame => absurd hsame hc

theorem afterTextBlock?_cons (quotes line : Nat) {c : Char} (cs : List Char) (hc : c ≠ '\\') :
    afterTextBlock? quotes line (c :: cs) =
      if c = '"' then
        if quotes = 2 then some ⟨line, cs⟩ else afterTextBlock? (quotes + 1) line cs
      else afterTextBlock? 0 (lineAfter line c) cs := by
  rw [afterTextBlock?]
  · exact fun hsame => absurd hsame hc
  · exact fun _ _ hsame => absurd hsame hc

/-- A character that starts no escape, whatever comes after it, is no backslash. -/
theorem ne_backslash {c : Char} {cs : List Char} (hlast : c = '\\' → cs = [] → False)
    (hescape : ∀ d ds, c = '\\' → cs = d :: ds → False) : c ≠ '\\' := by
  intro hc
  cases cs with
  | nil => exact hlast hc rfl
  | cons d ds => exact hescape d ds hc rfl

/-- A literal in quotes is read up to its last quote, wherever it stands. -/
theorem afterQuoted?_extent {delimiter : Char} (hdelimiter : delimiter ≠ '\n') {line : Nat}
    {cs : List Char} {unread : Unread} (h : afterQuoted? delimiter line cs = some unread) :
    ∃ front, cs = front ++ unread.chars ∧ EndsWith (afterQuoted? delimiter) front := by
  fun_induction afterQuoted? delimiter line cs with
  | case1 => cases h
  | case2 => cases h
  | case3 line c cs ih =>
      obtain ⟨front, rfl, hfront⟩ := ih h
      exact ⟨'\\' :: c :: front, rfl, hfront.escape fun line' after => by rw [afterQuoted?]⟩
  | case4 line cs hlast hescape =>
      cases h
      refine ⟨[delimiter], rfl, ?_⟩
      intro line' after
      rw [List.singleton_append, afterQuoted?_cons _ _ _ (ne_backslash hlast hescape), if_pos rfl,
        List.count_singleton, if_neg (by simpa using hdelimiter), Nat.add_zero]
  | case5 => cases h
  | case6 line c cs hlast hescape hbare hline ih =>
      obtain ⟨front, rfl, hfront⟩ := ih h
      refine ⟨c :: front, rfl, hfront.cons ?_⟩
      intro line' after
      rw [afterQuoted?_cons _ _ _ (ne_backslash hlast hescape), if_neg hbare, if_neg hline,
        lineAfter, if_neg hline]

/-- A text block is read up to the third of its last quotes, wherever it stands. -/
theorem afterTextBlock?_extent {quotes line : Nat} {cs : List Char} {unread : Unread}
    (h : afterTextBlock? quotes line cs = some unread) :
    ∃ front, cs = front ++ unread.chars ∧ EndsWith (afterTextBlock? quotes) front := by
  fun_induction afterTextBlock? quotes line cs with
  | case1 => cases h
  | case2 => cases h
  | case3 quotes line c cs ih =>
      obtain ⟨front, rfl, hfront⟩ := ih h
      exact ⟨'\\' :: c :: front, rfl, hfront.escape fun line' after => by rw [afterTextBlock?]⟩
  | case4 =>
      cases h
      exact ⟨['"'], rfl, fun line' after => by simp [afterTextBlock?_cons]⟩
  | case5 quotes line cs hquotes _ _ ih =>
      obtain ⟨front, rfl, hfront⟩ := ih h
      refine ⟨'"' :: front, rfl, hfront.cons ?_⟩
      intro line' after
      rw [afterTextBlock?_cons _ _ _ (by decide), if_pos rfl, if_neg hquotes]
      rfl
  | case6 quotes line c cs hlast hescape hbare ih =>
      obtain ⟨front, rfl, hfront⟩ := ih h
      refine ⟨c :: front, rfl, hfront.cons ?_⟩
      intro line' after
      rw [afterTextBlock?_cons _ _ _ (ne_backslash hlast hescape), if_neg hbare]

/-- A line comment is read up to the line feed that follows it. -/
theorem afterLine_append {text : List Char} (htext : '\n' ∉ text) (line : Nat) (after : List Char) :
    afterLine line (text ++ '\n' :: after) = ⟨line + 1, after⟩ := by
  induction text with
  | nil => simp [afterLine]
  | cons c text ih =>
      rw [List.mem_cons, not_or] at htext
      rw [List.cons_append, afterLine, if_neg (Ne.symm htext.1), ih htext.2]

theorem afterLine_of_not_mem {text : List Char} (htext : '\n' ∉ text) (line : Nat) :
    afterLine line text = ⟨line, []⟩ := by
  induction text with
  | nil => rfl
  | cons c text ih =>
      rw [List.mem_cons, not_or] at htext
      rw [afterLine, if_neg (Ne.symm htext.1), ih htext.2]

/-- What can stand behind `c :: front`, which one step has read, in the place of `unread`. -/
inductive Follows (c : Char) (front unread : List Char) : List Char → Prop
  | nothing : Follows c front unread []
  | alike {after : List Char} (h : after.head? = unread.head?) : Follows c front unread after
  | nextLine {after : List Char} (h : (c :: front).getLast? = some '\n') :
      Follows c front unread after
  /-- The end of the line. It would end a line comment that has no end so far. -/
  | lineFeed {after : List Char} (h : ¬(c = '/' ∧ front.head? = some '/')) :
      Follows c front unread ('\n' :: after)

/-- One step reads `c :: front` as the token, or as none, on every line and before everything that
can follow. -/
def StepReads (c : Char) (front unread : List Char) (token? : Option Token) : Prop :=
  ∀ line after, Follows c front unread after →
    step line c (front ++ after) =
      .ok ⟨token?.map (⟨·, line⟩), line + (c :: front).count '\n', after⟩

/-- What can follow a stretch within one line starts as the text that was there did, with the end of
the line, or not at all. -/
theorem Follows.head? {c : Char} {front unread after : List Char} {P : Char → Prop}
    (h : Follows c front unread after) (hfront : '\n' ∉ c :: front)
    (hunread : ∀ d ∈ unread.head?, P d) (hline : P '\n') : ∀ d ∈ after.head?, P d := by
  cases h with
  | nothing => simp
  | alike hsame => rwa [hsame]
  | nextLine hlast => exact absurd (List.mem_of_getLast? hlast) hfront
  | lineFeed => simpa using hline

theorem span_append {f : Char → Bool} {front after : List Char} (hfront : ∀ d ∈ front, f d = true)
    (hafter : ∀ d ∈ after.head?, f d = false) :
    (front ++ after).takeWhile f = front ∧ (front ++ after).dropWhile f = after := by
  rw [List.takeWhile_append_of_pos hfront, List.dropWhile_append_of_pos hfront]
  cases after with
  | nil => simp
  | cons d after => simp [hafter d rfl]

theorem head?_dropWhile (f : Char → Bool) (cs : List Char) :
    ∀ d ∈ (cs.dropWhile f).head?, f d = false := by
  intro d hd
  have hhead := List.head?_dropWhile_not f cs
  rw [Option.mem_def.mp hd] at hhead
  exact hhead

theorem stepReads_space {c : Char} (hspace : isWhiteSpace c = true) (unread : List Char) :
    StepReads c [] unread none := by
  intro line after _
  rw [count_cons_add]
  simp [step, hspace]

theorem stepReads_line {text : List Char} (htext : '\n' ∉ text) (unread : List Char) :
    StepReads '/' ('/' :: (text ++ ['\n'])) unread none := by
  intro line after _
  have hspace : isWhiteSpace '/' = false := by decide
  have hcount : ('/' :: '/' :: (text ++ ['\n'])).count '\n' = 1 := by
    simp [List.count_eq_zero_of_not_mem htext]
  rw [hcount]
  simp [step, hspace, afterLine_append htext]

/-- A line comment at the end of the source reads to the end. -/
theorem stepReads_lastLine {text : List Char} (htext : '\n' ∉ text) :
    StepReads '/' ('/' :: text) [] none := by
  intro line after hfollows
  have hspace : isWhiteSpace '/' = false := by decide
  have hlines : '\n' ∉ '/' :: '/' :: text := by simp [htext]
  have hafter : after = [] := by
    cases hfollows with
    | nothing => rfl
    | alike hsame => exact List.head?_eq_none_iff.mp hsame
    | nextLine hlast => exact absurd (List.mem_of_getLast? hlast) hlines
    | lineFeed hcomment => exact absurd ⟨rfl, rfl⟩ hcomment
  rw [hafter, List.count_eq_zero_of_not_mem hlines]
  simp [step, hspace, afterLine_of_not_mem htext]

/-- A comment between `/*` and `*/` yields nothing. -/
theorem stepReads_blockComment {front : List Char} (hfront : EndsWith afterComment? front)
    (unread : List Char) : StepReads '/' ('*' :: front) unread none := by
  intro line after _
  have hspace : isWhiteSpace '/' = false := by decide
  simp [step, hspace, hfront line after]

/-- A slash that starts no comment is a token by itself. -/
theorem stepReads_slash {unread : List Char} (hunread : ∀ d ∈ unread.head?, d ≠ '/' ∧ d ≠ '*') :
    StepReads '/' [] unread (some (.other '/')) := by
  intro line after hfollows
  have hspace : isWhiteSpace '/' = false := by decide
  have hafter := hfollows.head? (by decide) hunread (by decide)
  cases after with
  | nil => simp [step, hspace]
  | cons d after =>
      obtain ⟨hslash, hstar⟩ := hafter d rfl
      simp [step, hspace, hslash, hstar]

theorem stepReads_word {c : Char} (hspace : isWhiteSpace c = false) (hslash : c ≠ '/')
    (hstart : isIdentStart c = true) (cs : List Char) :
    StepReads c (cs.takeWhile isIdentPart) (cs.dropWhile isIdentPart)
      (some (.ident (String.ofList (c :: cs.takeWhile isIdentPart)))) := by
  intro line after hfollows
  have hfront : ∀ d ∈ cs.takeWhile isIdentPart, isIdentPart d = true :=
    List.all_eq_true.mp List.all_takeWhile
  have hlines : '\n' ∉ c :: cs.takeWhile isIdentPart := by
    intro hmem
    rcases List.mem_cons.mp hmem with rfl | hmem
    · revert hstart
      decide
    · exact absurd (hfront _ hmem) (by decide)
  obtain ⟨htake, hdrop⟩ :=
    span_append hfront (hfollows.head? hlines (head?_dropWhile isIdentPart cs) (by decide))
  rw [List.count_eq_zero_of_not_mem hlines]
  simp [step, hspace, hslash, hstart, htake, hdrop]

/-- A number is read as far as its characters go, letters and dots included. -/
theorem stepReads_number {c : Char} (hspace : isWhiteSpace c = false) (hslash : c ≠ '/')
    (hstart : isIdentStart c = false) (hdigit : c.isDigit = true) (cs : List Char) :
    StepReads c (cs.takeWhile isNumberPart) (cs.dropWhile isNumberPart) (some .literal) := by
  intro line after hfollows
  have hfront : ∀ d ∈ cs.takeWhile isNumberPart, isNumberPart d = true :=
    List.all_eq_true.mp List.all_takeWhile
  have hlines : '\n' ∉ c :: cs.takeWhile isNumberPart := by
    intro hmem
    rcases List.mem_cons.mp hmem with rfl | hmem
    · revert hdigit
      decide
    · exact absurd (hfront _ hmem) (by decide)
  obtain ⟨_, hdrop⟩ :=
    span_append hfront (hfollows.head? hlines (head?_dropWhile isNumberPart cs) (by decide))
  rw [List.count_eq_zero_of_not_mem hlines]
  simp [step, hspace, hslash, hstart, hdigit, hdrop]

/-- A character that starts a literal in quotes. -/
theorem step_quote (line : Nat) (cs : List Char) :
    step line '"' cs =
      match afterString? line cs with
      | .error e => .error e
      | .ok unread => .ok ⟨some ⟨.literal, line⟩, unread⟩ := by
  have hspace : isWhiteSpace '"' = false := by decide
  have hstart : isIdentStart '"' = false := by decide
  have hdigit : '"'.isDigit = false := by decide
  have hslash : '"' ≠ '/' := by decide
  cases hread : afterString? line cs with
  | error e => simp [step, hspace, hslash, hstart, hdigit, hread]
  | ok unread => simp [step, hspace, hslash, hstart, hdigit, hread]

theorem step_apostrophe (line : Nat) (cs : List Char) :
    step line '\'' cs =
      match afterQuoted? '\'' line cs with
      | none => .error ⟨line, .unterminatedChar⟩
      | some unread => .ok ⟨some ⟨.literal, line⟩, unread⟩ := by
  have hspace : isWhiteSpace '\'' = false := by decide
  have hstart : isIdentStart '\'' = false := by decide
  have hdigit : '\''.isDigit = false := by decide
  have hslash : '\'' ≠ '/' := by decide
  have hquote : '\'' ≠ '"' := by decide
  cases hread : afterQuoted? '\'' line cs with
  | none => simp [step, hspace, hslash, hstart, hdigit, hquote, hread]
  | some unread => simp [step, hspace, hslash, hstart, hdigit, hquote, hread]

theorem stepReads_textBlock {front : List Char} (hfront : EndsWith (afterTextBlock? 0) front)
    (unread : List Char) : StepReads '"' ('"' :: '"' :: front) unread (some .literal) := by
  intro line after _
  simp [step_quote, afterString?, hfront line after]

/-- Two quotes are an empty string unless a third one follows. -/
theorem stepReads_emptyString {unread : List Char} (hunread : ∀ d ∈ unread.head?, d ≠ '"') :
    StepReads '"' ['"'] unread (some .literal) := by
  intro line after hfollows
  have hafter := hfollows.head? (by decide) hunread (by decide)
  cases after with
  | nil => simp [step_quote, afterString?]
  | cons d after => simp [step_quote, afterString?, hafter d rfl]

theorem stepReads_string {front : List Char} (hfront : EndsWith (afterQuoted? '"') front)
    (hhead : front.head? ≠ some '"') (unread : List Char) :
    StepReads '"' front unread (some .literal) := by
  intro line after _
  cases front with
  | nil => simpa [afterQuoted?] using hfront 0 []
  | cons d front =>
      have hd : d ≠ '"' := fun hsame => hhead (congrArg some hsame)
      have hread := hfront line after
      rw [List.cons_append] at hread ⊢
      simp [step_quote, afterString?, hd, hread]

theorem stepReads_char {front : List Char} (hfront : EndsWith (afterQuoted? '\'') front)
    (unread : List Char) : StepReads '\'' front unread (some .literal) := by
  intro line after _
  simp [step_apostrophe, hfront line after]

/-- Every other character is a token by itself. -/
theorem stepReads_mark {c : Char} (hspace : isWhiteSpace c = false) (hslash : c ≠ '/')
    (hstart : isIdentStart c = false) (hdigit : c.isDigit = false) (hquote : c ≠ '"')
    (hapostrophe : c ≠ '\'') (unread : List Char) :
    StepReads c [] unread (some (Token.ofChar c)) := by
  intro line after _
  have hline : c ≠ '\n' := by
    rintro rfl
    revert hspace
    decide
  rw [List.count_eq_zero_of_not_mem (by simpa using Ne.symm hline)]
  simp [step, hspace, hslash, hstart, hdigit, hquote, hapostrophe]

/-- A line comment reads its line feed too, or stops at the end of the source. -/
theorem stepReads_lineComment (line : Nat) (cs : List Char) :
    ∃ front, cs = front ++ (afterLine line cs).chars ∧
      StepReads '/' ('/' :: front) (afterLine line cs).chars none := by
  by_cases hend : '\n' ∈ cs
  · obtain ⟨text, after, rfl, htext⟩ := List.eq_append_cons_of_mem hend
    rw [afterLine_append htext]
    exact ⟨text ++ ['\n'], by simp, stepReads_line htext after⟩
  · rw [afterLine_of_not_mem hend]
    exact ⟨cs, by simp, stepReads_lastLine hend⟩

theorem stepReads_quoted {line : Nat} {cs : List Char} {unread : Unread}
    (h : afterString? line cs = .ok unread) :
    ∃ front, cs = front ++ unread.chars ∧
      StepReads '"' front unread.chars (some .literal) := by
  unfold afterString? at h
  split at h
  · rename_i cs
    cases hblock : afterTextBlock? 0 line cs with
    | none => simp [hblock] at h
    | some found =>
        obtain ⟨front, rfl, hfront⟩ := afterTextBlock?_extent hblock
        simp only [hblock, Option.elim_some, Except.ok.injEq] at h
        subst h
        exact ⟨'"' :: '"' :: front, rfl, stepReads_textBlock hfront _⟩
  · rename_i cs hblock
    cases h
    refine ⟨['"'], rfl, stepReads_emptyString ?_⟩
    rintro d hd rfl
    cases cs with
    | nil => cases hd
    | cons d cs => cases hd; exact hblock cs rfl
  · rename_i hblock hempty
    cases hquoted : afterQuoted? '"' line cs with
    | none => simp [hquoted] at h
    | some found =>
        obtain ⟨front, rfl, hfront⟩ := afterQuoted?_extent (by decide) hquoted
        simp only [hquoted, Option.elim_some, Except.ok.injEq] at h
        subst h
        refine ⟨front, rfl, stepReads_string hfront ?_ _⟩
        intro hhead
        cases front with
        | nil => cases hhead
        | cons d front => cases hhead; exact hempty _ rfl

/-- A step that succeeds reads some characters, and reads them in the same way wherever they stand.
-/
theorem stepReads_of_step {line : Nat} {c : Char} {cs : List Char} {s : Step}
    (h : step line c cs = .ok s) :
    ∃ token? front, cs = front ++ s.unread.chars ∧ StepReads c front s.unread.chars token? := by
  cases step_eq_ok h with
  | space hspace => exact ⟨none, [], rfl, stepReads_space hspace cs⟩
  | @lineComment cs =>
      obtain ⟨front, hcs, hfront⟩ := stepReads_lineComment line cs
      exact ⟨none, '/' :: front, congrArg _ hcs, hfront⟩
  | blockComment hcomment =>
      obtain ⟨front, hcs, hfront⟩ := afterComment?_extent hcomment
      exact ⟨none, '*' :: front, congrArg _ hcs, stepReads_blockComment hfront _⟩
  | slash hline hblock =>
      refine ⟨_, [], rfl, stepReads_slash ?_⟩
      intro d hd
      obtain ⟨after, rfl⟩ : ∃ after, cs = d :: after := List.head?_eq_some_iff.mp hd
      exact ⟨fun hsame => hline after (by rw [hsame]), fun hsame => hblock after (by rw [hsame])⟩
  | word hspace hslash hstart =>
      exact ⟨_, _, List.takeWhile_append_dropWhile.symm, stepReads_word hspace hslash hstart cs⟩
  | number hspace hslash hstart hdigit =>
      exact ⟨_, _, List.takeWhile_append_dropWhile.symm,
        stepReads_number hspace hslash hstart hdigit cs⟩
  | string hstring =>
      obtain ⟨front, hcs, hfront⟩ := stepReads_quoted hstring
      exact ⟨_, front, hcs, hfront⟩
  | char hchar =>
      obtain ⟨front, hcs, hfront⟩ := afterQuoted?_extent (by decide) hchar
      exact ⟨_, front, hcs, stepReads_char hfront _⟩
  | mark hspace hslash hstart hdigit hquote hapostrophe =>
      exact ⟨_, [], rfl, stepReads_mark hspace hslash hstart hdigit hquote hapostrophe cs⟩

/-- What a step that reads `c :: front` in front of some text answers. -/
theorem StepReads.step_eq {c : Char} {front unread : List Char} {token? : Option Token}
    (h : StepReads c front unread token?) (line : Nat) :
    step line c (front ++ unread) =
      .ok ⟨token?.map (⟨·, line⟩), line + (c :: front).count '\n', unread⟩ :=
  h line unread (.alike rfl)

/-- A scanner that finds no end on one line finds none on any other. -/
theorem none_of_extent {scanner : Nat → List Char → Option Unread}
    (hextent : ∀ {line cs unread}, scanner line cs = some unread →
      ∃ front, cs = front ++ unread.chars ∧ EndsWith scanner front)
    {line : Nat} {cs : List Char} (h : scanner line cs = none) (line' : Nat) :
    scanner line' cs = none := by
  cases hread : scanner line' cs with
  | none => rfl
  | some unread =>
      obtain ⟨front, rfl, hfront⟩ := hextent hread
      rw [hfront] at h
      cases h

theorem afterString?_error {line : Nat} {cs : List Char} {e : LexError}
    (h : afterString? line cs = .error e) (line' : Nat) :
    e.line = line ∧ afterString? line' cs = .error ⟨line', e.fault⟩ := by
  unfold afterString? at h
  split at h
  · rename_i cs
    cases hblock : afterTextBlock? 0 line cs with
    | some found => simp [hblock] at h
    | none =>
        have hmoved := none_of_extent afterTextBlock?_extent hblock line'
        simp only [hblock, Option.elim_none, Except.error.injEq] at h
        subst h
        simp [afterString?, hmoved]
  · cases h
  · rename_i hblock hempty
    cases hquoted : afterQuoted? '"' line cs with
    | some found => simp [hquoted] at h
    | none =>
        have hmoved := none_of_extent (afterQuoted?_extent (by decide)) hquoted line'
        simp only [hquoted, Option.elim_none, Except.error.injEq] at h
        subst h
        refine ⟨rfl, ?_⟩
        rw [afterString?]
        · simp [hmoved]
        · exact hblock
        · exact hempty

/-- A step that fails names the line it stands on, and fails in the same way on every other line. -/
theorem step_error {line : Nat} {c : Char} {cs : List Char} {e : LexError}
    (h : step line c cs = .error e) (line' : Nat) :
    e.line = line ∧ step line' c cs = .error ⟨line', e.fault⟩ := by
  unfold step at h
  split at h
  · cases h
  rename_i hspace
  split at h
  · rename_i hslash
    subst hslash
    split at h
    · cases h
    · split at h
      · rename_i hcomment
        cases h
        have hmoved := none_of_extent afterComment?_extent hcomment line'
        simp [step, hspace, hmoved]
      · cases h
    · cases h
  split at h
  · cases h
  split at h
  · cases h
  split at h
  · rename_i hquote
    subst hquote
    split at h
    · rename_i hstring
      cases h
      obtain ⟨hline, hmoved⟩ := afterString?_error hstring line'
      exact ⟨hline, by rw [step_quote, hmoved]⟩
    · cases h
  split at h
  · rename_i hapostrophe
    subst hapostrophe
    split at h
    · rename_i hchar
      cases h
      have hmoved := none_of_extent (afterQuoted?_extent (by decide)) hchar line'
      exact ⟨rfl, by rw [step_apostrophe, hmoved]⟩
    · cases h
  · cases h

end WireMapper.Java
