import WireMapper.Java.Token
import WireMapper.Text.Alphabetic
import WireMapper.Text.Numeric
import WireMapper.Text.WhiteSpace

/-!
Cutting Java source into tokens. One step reads a white space character, a comment or a token from
the front of the source; every step leaves less source than it found, and the tokens are what the
steps yield one after another. Comments and white space yield nothing, and only line feeds count
lines.
-/

namespace WireMapper.Java

open WireMapper.Text

inductive LexFault where
  | unterminatedComment
  | unterminatedString
  | unterminatedTextBlock
  | unterminatedChar
deriving DecidableEq, Repr

def LexFault.message : LexFault → String
  | unterminatedComment => "unterminated block comment"
  | unterminatedString => "unterminated string literal"
  | unterminatedTextBlock => "unterminated text block"
  | unterminatedChar => "unterminated char literal"

/-- A fault and the line on which the comment or literal starts that has no end. -/
structure LexError where
  line : Nat
  fault : LexFault
deriving DecidableEq, Repr

def isIdentStart (c : Char) : Bool :=
  isAlphabetic c || c = '_' || c = '$'

def isIdentPart (c : Char) : Bool :=
  isAlphabetic c || isNumeric c || c = '_' || c = '$'

/-- A character of a number after its first digit: signs and exponents are not told apart from other
letters, so `0x1F`, `1.5e3f` and `10L` are one literal each. -/
def isNumberPart (c : Char) : Bool :=
  c.isAlphanum || c = '_' || c = '.'

def lineAfter (line : Nat) (c : Char) : Nat :=
  if c = '\n' then line + 1 else line

/-- Source that is still to be read, and the line of its first character. -/
structure Unread where
  line : Nat
  chars : List Char
deriving DecidableEq, Repr

def afterLine (line : Nat) : List Char → Unread
  | [] => ⟨line, []⟩
  | c :: cs => if c = '\n' then ⟨line + 1, cs⟩ else afterLine line cs

def afterComment? (line : Nat) : List Char → Option Unread
  | [] => none
  | '*' :: '/' :: cs => some ⟨line, cs⟩
  | c :: cs => afterComment? (lineAfter line c) cs

/-- What follows a literal that ends at the next bare delimiter on its line. A backslash takes the
character after it into the literal, whatever it is. -/
def afterQuoted? (delimiter : Char) (line : Nat) : List Char → Option Unread
  | [] => none
  | ['\\'] => none
  | '\\' :: c :: cs => afterQuoted? delimiter (lineAfter line c) cs
  | c :: cs =>
    if c = delimiter then some ⟨line, cs⟩
    else if c = '\n' then none
    else afterQuoted? delimiter line cs

/-- What follows a text block; `quotes` counts the bare double quotes just before. -/
def afterTextBlock? (quotes : Nat) (line : Nat) : List Char → Option Unread
  | [] => none
  | ['\\'] => none
  | '\\' :: c :: cs => afterTextBlock? 0 (lineAfter line c) cs
  | c :: cs =>
    if c = '"' then
      if quotes = 2 then some ⟨line, cs⟩ else afterTextBlock? (quotes + 1) line cs
    else
      afterTextBlock? 0 (lineAfter line c) cs

/-- What follows a string literal or a text block after its first double quote. -/
def afterString? (line : Nat) : List Char → Except LexError Unread
  | '"' :: '"' :: cs => (afterTextBlock? 0 line cs).elim (.error ⟨line, .unterminatedTextBlock⟩) .ok
  | '"' :: cs => .ok ⟨line, cs⟩
  | cs => (afterQuoted? '"' line cs).elim (.error ⟨line, .unterminatedString⟩) .ok

def Token.ofChar : Char → Token
  | '.' => .dot
  | ';' => .semicolon
  | ',' => .comma
  | '(' => .openParen
  | ')' => .closeParen
  | '{' => .openBrace
  | '}' => .closeBrace
  | '[' => .openBracket
  | ']' => .closeBracket
  | '<' => .less
  | '>' => .greater
  | '=' => .equals
  | '@' => .atSign
  | c => .other c

structure Step where
  yield? : Option PlacedToken
  unread : Unread
deriving DecidableEq, Repr

/-- Reads white space, a comment or a token that starts with the character `c`. -/
def step (line : Nat) (c : Char) (cs : List Char) : Except LexError Step :=
  if isWhiteSpace c then
    .ok ⟨none, lineAfter line c, cs⟩
  else if c = '/' then
    match cs with
    | '/' :: cs => .ok ⟨none, afterLine line cs⟩
    | '*' :: cs =>
      match afterComment? line cs with
      | none => .error ⟨line, .unterminatedComment⟩
      | some unread => .ok ⟨none, unread⟩
    | cs => .ok ⟨some ⟨.other '/', line⟩, line, cs⟩
  else if isIdentStart c then
    .ok ⟨some ⟨.ident (String.ofList (c :: cs.takeWhile isIdentPart)), line⟩,
      line, cs.dropWhile isIdentPart⟩
  else if c.isDigit then
    .ok ⟨some ⟨.literal, line⟩, line, cs.dropWhile isNumberPart⟩
  else if c = '"' then
    match afterString? line cs with
    | .error e => .error e
    | .ok unread => .ok ⟨some ⟨.literal, line⟩, unread⟩
  else if c = '\'' then
    match afterQuoted? '\'' line cs with
    | none => .error ⟨line, .unterminatedChar⟩
    | some unread => .ok ⟨some ⟨.literal, line⟩, unread⟩
  else
    .ok ⟨some ⟨Token.ofChar c, line⟩, line, cs⟩

theorem length_afterLine_le (line : Nat) (cs : List Char) :
    (afterLine line cs).chars.length ≤ cs.length := by
  induction cs with
  | nil => simp [afterLine]
  | cons c cs ih =>
    simp only [afterLine]
    split
    · simp
    · simp only [List.length_cons]; omega

theorem length_afterComment?_le {line : Nat} {cs : List Char} {unread : Unread}
    (h : afterComment? line cs = some unread) : unread.chars.length ≤ cs.length := by
  fun_induction afterComment? line cs with
  | case1 => simp at h
  | case2 line cs => simp only [Option.some.injEq] at h; subst h; simp; omega
  | case3 line c cs _ ih => have := ih h; simp only [List.length_cons]; omega

theorem length_afterQuoted?_le {delimiter : Char} {line : Nat} {cs : List Char} {unread : Unread}
    (h : afterQuoted? delimiter line cs = some unread) : unread.chars.length ≤ cs.length := by
  fun_induction afterQuoted? delimiter line cs with
  | case1 => simp at h
  | case2 => simp at h
  | case3 line c cs ih => have := ih h; simp only [List.length_cons]; omega
  | case4 line cs => simp only [Option.some.injEq] at h; subst h; simp
  | case5 => simp at h
  | case6 => rename_i ih; have := ih h; simp only [List.length_cons]; omega

theorem length_afterTextBlock?_le {quotes line : Nat} {cs : List Char} {unread : Unread}
    (h : afterTextBlock? quotes line cs = some unread) : unread.chars.length ≤ cs.length := by
  fun_induction afterTextBlock? quotes line cs with
  | case1 => simp at h
  | case2 => simp at h
  | case3 quotes line c cs ih => have := ih h; simp only [List.length_cons]; omega
  | case4 line cs => simp only [Option.some.injEq] at h; subst h; simp
  | case5 => rename_i ih; have := ih h; simp only [List.length_cons]; omega
  | case6 => rename_i ih; have := ih h; simp only [List.length_cons]; omega

theorem length_afterString?_le {line : Nat} {cs : List Char} {unread : Unread}
    (h : afterString? line cs = .ok unread) : unread.chars.length ≤ cs.length := by
  unfold afterString? at h
  split at h
  · rename_i cs
    cases hb : afterTextBlock? 0 line cs with
    | none => simp [hb] at h
    | some found =>
      simp only [hb, Option.elim_some, Except.ok.injEq] at h
      subst h
      have := length_afterTextBlock?_le hb
      simp only [List.length_cons]; omega
  · simp only [Except.ok.injEq] at h; subst h; simp
  · cases hq : afterQuoted? '"' line cs with
    | none => simp [hq] at h
    | some found =>
      simp only [hq, Option.elim_some, Except.ok.injEq] at h
      subst h
      exact length_afterQuoted?_le hq

/-- The ways in which a step reads: what it is given, and what it makes of it. -/
inductive StepCase (line : Nat) : Char → List Char → Step → Prop where
  | space {c : Char} {cs : List Char} (hspace : isWhiteSpace c = true) :
      StepCase line c cs ⟨none, lineAfter line c, cs⟩
  | lineComment {cs : List Char} : StepCase line '/' ('/' :: cs) ⟨none, afterLine line cs⟩
  | blockComment {cs : List Char} {unread : Unread}
      (hcomment : afterComment? line cs = some unread) :
      StepCase line '/' ('*' :: cs) ⟨none, unread⟩
  | slash {cs : List Char} (hline : ∀ after, cs ≠ '/' :: after)
      (hblock : ∀ after, cs ≠ '*' :: after) :
      StepCase line '/' cs ⟨some ⟨.other '/', line⟩, line, cs⟩
  | word {c : Char} {cs : List Char} (hspace : isWhiteSpace c = false) (hslash : c ≠ '/')
      (hstart : isIdentStart c = true) :
      StepCase line c cs ⟨some ⟨.ident (String.ofList (c :: cs.takeWhile isIdentPart)), line⟩,
        line, cs.dropWhile isIdentPart⟩
  | number {c : Char} {cs : List Char} (hspace : isWhiteSpace c = false) (hslash : c ≠ '/')
      (hstart : isIdentStart c = false) (hdigit : c.isDigit = true) :
      StepCase line c cs ⟨some ⟨.literal, line⟩, line, cs.dropWhile isNumberPart⟩
  | string {cs : List Char} {unread : Unread} (hstring : afterString? line cs = .ok unread) :
      StepCase line '"' cs ⟨some ⟨.literal, line⟩, unread⟩
  | char {cs : List Char} {unread : Unread} (hchar : afterQuoted? '\'' line cs = some unread) :
      StepCase line '\'' cs ⟨some ⟨.literal, line⟩, unread⟩
  | mark {c : Char} {cs : List Char} (hspace : isWhiteSpace c = false) (hslash : c ≠ '/')
      (hstart : isIdentStart c = false) (hdigit : c.isDigit = false) (hquote : c ≠ '"')
      (hapostrophe : c ≠ '\'') : StepCase line c cs ⟨some ⟨Token.ofChar c, line⟩, line, cs⟩

/-- Every step that succeeds is one of these cases. -/
theorem step_eq_ok {line : Nat} {c : Char} {cs : List Char} {s : Step}
    (h : step line c cs = .ok s) : StepCase line c cs s := by
  unfold step at h
  split at h
  · rename_i hspace
    cases h
    exact .space hspace
  rename_i hspace
  rw [Bool.not_eq_true] at hspace
  split at h
  · rename_i hslash
    subst hslash
    split at h
    · cases h
      exact .lineComment
    · split at h
      · cases h
      · rename_i hcomment
        cases h
        exact .blockComment hcomment
    · rename_i hline hblock
      cases h
      exact .slash hline hblock
  rename_i hslash
  split at h
  · rename_i hstart
    cases h
    exact .word hspace hslash hstart
  rename_i hstart
  rw [Bool.not_eq_true] at hstart
  split at h
  · rename_i hdigit
    cases h
    exact .number hspace hslash hstart hdigit
  rename_i hdigit
  rw [Bool.not_eq_true] at hdigit
  split at h
  · rename_i hquote
    subst hquote
    split at h
    · cases h
    · rename_i hstring
      cases h
      exact .string hstring
  rename_i hquote
  split at h
  · rename_i hapostrophe
    subst hapostrophe
    split at h
    · cases h
    · rename_i hchar
      cases h
      exact .char hchar
  · rename_i hapostrophe
    cases h
    exact .mark hspace hslash hstart hdigit hquote hapostrophe

/-- A step leaves no more source than follows its first character. -/
theorem length_step_le {line : Nat} {c : Char} {cs : List Char} {s : Step}
    (h : step line c cs = .ok s) : s.unread.chars.length ≤ cs.length := by
  cases step_eq_ok h with
  | space => simp
  | @lineComment cs =>
    have := length_afterLine_le line cs
    simp only [List.length_cons]
    omega
  | blockComment hcomment =>
    have := length_afterComment?_le hcomment
    simp only [List.length_cons]
    omega
  | slash => simp
  | word => exact (List.dropWhile_suffix _).length_le
  | number => exact (List.dropWhile_suffix _).length_le
  | string hstring => exact length_afterString?_le hstring
  | char hchar => exact length_afterQuoted?_le hchar
  | mark => simp

def scanFrom (line : Nat) (cs : List Char) : Except LexError (List PlacedToken) :=
  match cs with
  | [] => .ok []
  | c :: cs =>
    match _h : step line c cs with
    | .error e => .error e
    | .ok s =>
      match scanFrom s.unread.line s.unread.chars with
      | .error e => .error e
      | .ok tokens => .ok (s.yield?.toList ++ tokens)
termination_by cs.length
decreasing_by
  have := length_step_le _h
  simp only [List.length_cons]; omega

def scan (source : String) : Except LexError (List PlacedToken) :=
  scanFrom 1 source.toList

end WireMapper.Java
