import WireMapper.Java.Token.Lexer
import WireMapper.Java.Unit

/-!
Reading compilation units from tokens. Each reader takes the tokens that are left and returns what
it read with the tokens after it, which are never more than it was given. A failure keeps the tokens
at which it arose, and the line of the first of them is the line it is reported on.
-/

namespace WireMapper.Java

inductive ParseFault where
  | lexical (fault : LexFault)
  | expected (token : Token) (found? : Option Token)
  | expectedIdentifier (found? : Option Token)
  /-- An identifier where a type should be declared. -/
  | expectedTypeNotWord (word : String)
  | expectedType (found? : Option Token)
  | missingBody (name : String)
  | unterminatedBody
  | unterminatedEnum
  | unterminatedMethod
  | unterminatedInitializer
  | unbalanced (opening : Token)
deriving DecidableEq, Repr

def ParseFault.message : ParseFault → String
  | lexical fault => fault.message
  | expected token found? =>
    "expected " ++ token.describe ++ ", found " ++ Token.describeFound found?
  | expectedIdentifier found? => "expected identifier, found " ++ Token.describeFound found?
  | expectedTypeNotWord word => "expected type declaration, found " ++ word
  | expectedType found? => "expected type declaration, found " ++ Token.describeFound found?
  | missingBody name => "missing body for type " ++ name
  | unterminatedBody => "unterminated type body"
  | unterminatedEnum => "unterminated enum body"
  | unterminatedMethod => "unterminated method declaration"
  | unterminatedInitializer => "unterminated field initializer"
  | unbalanced opening => "unbalanced " ++ opening.describe

/-- A fault and the line it is reported on. -/
structure ParseError where
  line : Nat
  fault : ParseFault
deriving DecidableEq, Repr

def ParseError.message (e : ParseError) : String :=
  "line " ++ toString e.line ++ ": " ++ e.fault.message

abbrev Tokens := List PlacedToken

/-- A fault and the tokens at which it arose. -/
structure Failure where
  fault : ParseFault
  rest : Tokens
deriving DecidableEq, Repr

/-- What a reader makes of the tokens: a value and the tokens after it, or a failure. -/
abbrev Reading (α : Type) := Except Failure (α × Tokens)

def next? (ts : Tokens) : Option Token :=
  ts.head?.map (·.token)

def second? (ts : Tokens) : Option Token :=
  next? ts.tail

def Token.isIdent : Token → Bool
  | .ident _ => true
  | _ => false

def expect (token : Token) (ts : Tokens) : Reading Unit :=
  if next? ts = some token then .ok ((), ts.tail)
  else .error ⟨.expected token (next? ts), ts⟩

def identifier : Tokens → Reading String
  | ⟨.ident text, _⟩ :: ts => .ok (text, ts)
  | ts => .error ⟨.expectedIdentifier (next? ts), ts⟩

/-- Takes identifiers that each follow a dot. A dot before anything else is left. -/
def dottedNames : Tokens → List String × Tokens
  | ⟨.dot, _⟩ :: ⟨.ident text, _⟩ :: ts => (text :: (dottedNames ts).1, (dottedNames ts).2)
  | ts => ([], ts)

def qualifiedName (ts : Tokens) : Reading String :=
  match identifier ts with
  | .error e => .error e
  | .ok (first, ts) =>
    .ok (Text.join '.' (first :: (dottedNames ts).1), (dottedNames ts).2)

/-- Skips to the end of a bracketed stretch in which `depth` inner brackets are open. Brackets of
other kinds do not count. -/
def closeBracket (opening closing : Token) (depth : Nat) : Tokens → Except Failure Tokens
  | [] => .error ⟨.unbalanced opening, []⟩
  | t :: ts =>
    if t.token = opening then closeBracket opening closing (depth + 1) ts
    else if t.token = closing then
      match depth with
      | 0 => .ok ts
      | depth + 1 => closeBracket opening closing depth ts
    else closeBracket opening closing depth ts

def skipBracketed (opening closing : Token) (ts : Tokens) : Except Failure Tokens :=
  match expect opening ts with
  | .error e => .error e
  | .ok (_, ts) => closeBracket opening closing 0 ts

def skipOptional (opening closing : Token) (ts : Tokens) : Except Failure Tokens :=
  if next? ts = some opening then skipBracketed opening closing ts else .ok ts

theorem exists_eq_cons_of_next? {token : Token} {ts : Tokens} (h : next? ts = some token) :
    ∃ line, ts = ⟨token, line⟩ :: ts.tail := by
  cases ts with
  | nil => cases h
  | cons t ts =>
    cases h
    exact ⟨t.line, rfl⟩

/-- What is taken is the given token, on whatever line it stands. -/
theorem expect_eq_ok {token : Token} {ts rest : Tokens} {u : Unit}
    (h : expect token ts = .ok (u, rest)) : ∃ line, ts = ⟨token, line⟩ :: rest := by
  unfold expect at h
  split at h
  · rename_i hnext
    cases h
    exact exists_eq_cons_of_next? hnext
  · cases h

theorem identifier_eq_ok {ts rest : Tokens} {text : String}
    (h : identifier ts = .ok (text, rest)) : ∃ line, ts = ⟨.ident text, line⟩ :: rest := by
  unfold identifier at h
  split at h
  · cases h
    exact ⟨_, rfl⟩
  · cases h

/-- A qualified name is an identifier and those behind the dots after it. -/
theorem qualifiedName_eq_ok {ts rest : Tokens} {name : String}
    (h : qualifiedName ts = .ok (name, rest)) :
    ∃ first after, identifier ts = .ok (first, after) ∧
      name = Text.join '.' (first :: (dottedNames after).1) ∧ rest = (dottedNames after).2 := by
  unfold qualifiedName at h
  split at h
  · cases h
  · rename_i first after hfirst
    cases h
    exact ⟨first, after, hfirst, rfl, rfl⟩

theorem skipBracketed_eq_ok {opening closing : Token} {ts rest : Tokens}
    (h : skipBracketed opening closing ts = .ok rest) :
    ∃ after, expect opening ts = .ok ((), after) ∧
      closeBracket opening closing 0 after = .ok rest := by
  unfold skipBracketed at h
  split at h
  · cases h
  · rename_i after hopen
    exact ⟨after, hopen, h⟩

/-- Either a bracketed stretch was skipped, or none starts here and nothing was taken. -/
theorem skipOptional_eq_ok {opening closing : Token} {ts rest : Tokens}
    (h : skipOptional opening closing ts = .ok rest) :
    next? ts = some opening ∧ skipBracketed opening closing ts = .ok rest ∨
      next? ts ≠ some opening ∧ rest = ts := by
  unfold skipOptional at h
  split at h
  · rename_i hnext
    exact .inl ⟨hnext, h⟩
  · rename_i hnext
    cases h
    exact .inr ⟨hnext, rfl⟩

theorem length_expect {token : Token} {ts rest : Tokens} {u : Unit}
    (h : expect token ts = .ok (u, rest)) : rest.length + 1 = ts.length := by
  obtain ⟨line, rfl⟩ := expect_eq_ok h
  rfl

theorem length_identifier {ts rest : Tokens} {text : String}
    (h : identifier ts = .ok (text, rest)) : rest.length + 1 = ts.length := by
  obtain ⟨line, rfl⟩ := identifier_eq_ok h
  rfl

theorem length_dottedNames_le (ts : Tokens) : (dottedNames ts).2.length ≤ ts.length := by
  fun_induction dottedNames ts with
  | case1 => rename_i ih; simp only [List.length_cons]; omega
  | case2 => simp

theorem length_qualifiedName_lt {ts rest : Tokens} {name : String}
    (h : qualifiedName ts = .ok (name, rest)) : rest.length < ts.length := by
  obtain ⟨first, after, hfirst, rfl, rfl⟩ := qualifiedName_eq_ok h
  have h1 := length_identifier hfirst
  have h2 := length_dottedNames_le after
  omega

/-- The closing bracket is taken too, so fewer tokens are left. -/
theorem length_closeBracket_lt {opening closing : Token} {depth : Nat} {ts rest : Tokens}
    (h : closeBracket opening closing depth ts = .ok rest) : rest.length < ts.length := by
  fun_induction closeBracket opening closing depth ts with
  | case1 => cases h
  | case2 => rename_i ih; have := ih h; simp only [List.length_cons]; omega
  | case3 => cases h; simp
  | case4 => rename_i ih; have := ih h; simp only [List.length_cons]; omega
  | case5 => rename_i ih; have := ih h; simp only [List.length_cons]; omega

theorem length_skipBracketed_lt {opening closing : Token} {ts rest : Tokens}
    (h : skipBracketed opening closing ts = .ok rest) : rest.length < ts.length := by
  obtain ⟨after, hopen, hclose⟩ := skipBracketed_eq_ok h
  have h1 := length_expect hopen
  have h2 := length_closeBracket_lt hclose
  omega

theorem length_skipOptional_le {opening closing : Token} {ts rest : Tokens}
    (h : skipOptional opening closing ts = .ok rest) : rest.length ≤ ts.length := by
  rcases skipOptional_eq_ok h with ⟨-, hskip⟩ | ⟨-, rfl⟩
  · exact Nat.le_of_lt (length_skipBracketed_lt hskip)
  · exact Nat.le_refl _

end WireMapper.Java
