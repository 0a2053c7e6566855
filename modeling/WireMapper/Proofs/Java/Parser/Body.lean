import WireMapper.Proofs.Java.Parser.Brackets
import WireMapper.Proofs.Java.Parser.MemberEnd
import WireMapper.Proofs.Java.Print.Parsing

/-!
Bodies. What is read from the members in front of a body is put before what is read from the rest,
whatever the rest is; so two bodies that are read by themselves are read one after the other.
-/

namespace WireMapper.Java

variable {kind : TypeKind} {name : String} {ts rest : Tokens}

def TypeBody.before (body : TypeBody) (read : TypeBody × Tokens) : TypeBody × Tokens :=
  (body.append read.1, read.2)

namespace TypeBody

theorem append_empty (body : TypeBody) : body.append empty = body := by
  simp [append, empty]

theorem append_assoc (a b c : TypeBody) : (a.append b).append c = a.append (b.append c) := by
  simp [append, List.append_assoc]

theorem map_before_empty (x : Except Failure (TypeBody × Tokens)) : x.map empty.before = x := by
  cases x with
  | error e => rfl
  | ok read => simp [Except.map, before, append, empty]

/-- Contents can be put in front one after another. -/
theorem map_before_append (a b : TypeBody) (x : Except Failure (TypeBody × Tokens)) :
    x.map (a.append b).before = (x.map b.before).map a.before := by
  cases x with
  | error e => rfl
  | ok read => simp [Except.map, before, append_assoc]

end TypeBody

/-- Takes the members of a type of the given kind and name, and the brace that closes its body. -/
def readBody (kind : TypeKind) (name : String) (ts : Tokens) : Reading TypeBody :=
  (typeBody kind name ts).map fun read => (read.1, read.2.1)

theorem readBody_closeBrace (line : Nat) :
    readBody kind name (⟨.closeBrace, line⟩ :: ts) = .ok (.empty, ts) := by
  rw [readBody, typeBody, if_pos rfl]
  rfl

theorem readBody_semicolon (line : Nat) :
    readBody kind name (⟨.semicolon, line⟩ :: ts) = readBody kind name ts := by
  rw [readBody, readBody, typeBody, if_neg (by simp), if_pos rfl]
  cases typeBody kind name ts <;> rfl

/-- What a body holds after one of its members, if the member is the start of a type. -/
def readMember (kind : TypeKind) (name : String) (m : Member) (after : Tokens) : Reading TypeBody :=
  match m with
  | .fields fields => (readBody kind name after).map (TypeBody.before ⟨fields, []⟩)
  | .type start true =>
      (readBody kind name after).map (TypeBody.before ⟨[], [start.withBody .empty]⟩)
  | .type start false =>
    match readBody start.kind start.name after with
    | .error e => .error e
    | .ok (inner, after) =>
      (readBody kind name after).map (TypeBody.before ⟨[], [start.withBody inner]⟩)

/-- Tokens that a body does not take by itself are read as a member first. -/
theorem readBody_member {m : Member} {after : Tokens} (hstart : StartsMember (words ts))
    (hm : member kind name ts = .ok (m, after)) :
    readBody kind name ts = readMember kind name m after := by
  obtain ⟨token, tokens, hwords, hclose, hsemicolon⟩ := hstart
  obtain ⟨line, ts, rfl, _⟩ := words_eq_cons hwords
  rw [readBody, typeBody, if_neg hclose, if_neg hsemicolon]
  split
  · rename_i herror
    rw [hm] at herror
    cases herror
  · rename_i hsame
    rw [hm] at hsame
    cases hsame
    simp only [readMember, readBody]
    cases typeBody kind name after <;> rfl
  · rename_i hsame
    rw [hm] at hsame
    cases hsame
    simp only [readMember, readBody]
    cases typeBody kind name after <;> rfl
  · rename_i start after hsame
    rw [hm] at hsame
    cases hsame
    simp only [readMember, readBody]
    cases typeBody start.kind start.name after with
    | error e => rfl
    | ok read =>
        obtain ⟨inner, after', hshorter⟩ := read
        simp only [Except.map]
        cases typeBody kind name after' <;> rfl

theorem readBody_member_error {e : Failure} (hstart : StartsMember (words ts))
    (hm : member kind name ts = .error e) : readBody kind name ts = .error e := by
  obtain ⟨token, tokens, hwords, hclose, hsemicolon⟩ := hstart
  obtain ⟨line, ts, rfl, _⟩ := words_eq_cons hwords
  rw [readBody, typeBody, if_neg hclose, if_neg hsemicolon]
  split
  · rename_i hsame
    rw [hm] at hsame
    cases hsame
    rfl
  · rename_i hsame
    rw [hm] at hsame
    cases hsame
  · rename_i hsame
    rw [hm] at hsame
    cases hsame
  · rename_i hsame
    rw [hm] at hsame
    cases hsame

/-- The tokens are taken as a member in front of some others. -/
def AcceptsMember (kind : TypeKind) (name : String) (tokens : List Token) (m : Member) : Prop :=
  ∃ front rest, words front = tokens ∧ member kind name (front ++ rest) = .ok (m, rest)

theorem member_error_of_mark {token : Token} (hnext : next? ts = some token)
    (htoken : token = .closeBrace ∨ token = .semicolon) :
    ∃ e, member kind name ts = .error e := by
  have hmodifiers : ∀ m, modifiersFrom m ts = .ok (m, ts) := by
    intro m
    apply modifiersFrom_end
    · intro word hword
      rw [hnext] at hword
      rcases htoken with rfl | rfl <;> cases hword
    · intro hsign
      rw [hnext] at hsign
      rcases htoken with rfl | rfl <;> cases hsign
  cases ts with
  | nil => cases hnext
  | cons t ts =>
      obtain ⟨_, line⟩ := t
      cases hnext
      rcases htoken with rfl | rfl
      · simp [member, modifiers, hmodifiers, next?, atTypeDecl, methodOrFields,
          skipOptional, typeName, qualifiedName, identifier]
      · simp [member, modifiers, hmodifiers, next?, atTypeDecl, methodOrFields,
          skipOptional, typeName, qualifiedName, identifier]

namespace AcceptsMember

variable {tokens : List Token} {m : Member}

/-- A member is read the same wherever it stands. -/
theorem same (h : AcceptsMember kind name tokens m) {front : Tokens} (hfront : words front = tokens)
    (rest : Tokens) : member kind name (front ++ rest) = .ok (m, rest) := by
  obtain ⟨front', rest', rfl, hm⟩ := h
  exact member_same (exists_sameBefore hfront rest' rest) hm

/-- No member starts with a token that a body takes by itself. -/
theorem startsMember (h : AcceptsMember kind name tokens m) : StartsMember tokens := by
  obtain ⟨front, rest, rfl, hm⟩ := h
  have hlength := length_member_lt hm
  cases front with
  | nil => simp at hlength
  | cons t front =>
      have hmark : ∀ token, token = .closeBrace ∨ token = .semicolon → t.token ≠ token := by
        rintro token htoken rfl
        have hmember : ∃ e, member kind name (t :: front ++ rest) = .error e :=
          member_error_of_mark rfl htoken
        obtain ⟨e, herror⟩ := hmember
        rw [hm] at herror
        cases herror
      exact ⟨t.token, words front, rfl, hmark _ (Or.inl rfl), hmark _ (Or.inr rfl)⟩

/-- Accepted tokens are a member in front of whatever follows them. -/
theorem readBody_eq (h : AcceptsMember kind name tokens m) {front : Tokens}
    (hfront : words front = tokens) (after : Tokens) :
    readBody kind name (front ++ after) = readMember kind name m after := by
  obtain ⟨token, rest, htokens, hstart⟩ := h.startsMember
  refine readBody_member ⟨token, rest ++ words after, ?_, hstart⟩ (h.same hfront after)
  rw [words_append, hfront, htokens, List.cons_append]

end AcceptsMember

theorem exists_acceptsMember {m : Member} (h : member kind name ts = .ok (m, rest)) :
    ∃ front, ts = front ++ rest ∧ AcceptsMember kind name (words front) m := by
  obtain ⟨front, rfl⟩ := member_suffix h
  exact ⟨front, rfl, front, rest, rfl, h⟩

/-- Wherever the tokens stand in a body of a type of the given kind and name, they add the contents
to what is read after them. -/
def Adds (kind : TypeKind) (name : String) (tokens : List Token) (body : TypeBody) : Prop :=
  ∀ front, words front = tokens → ∀ after,
    readBody kind name (front ++ after) = (readBody kind name after).map body.before

namespace Adds

theorem nil : Adds kind name [] .empty := by
  intro front hfront after
  obtain rfl : front = [] := by simpa [words] using hfront
  exact (TypeBody.map_before_empty _).symm

/-- What is added one after another is added in that order. -/
theorem append {tokens tokens' : List Token} {body body' : TypeBody}
    (h : Adds kind name tokens body) (h' : Adds kind name tokens' body') :
    Adds kind name (tokens ++ tokens') (body.append body') := by
  intro front hfront after
  obtain ⟨ts₁, ts₂, rfl, h₁, h₂⟩ := exists_append_of_words hfront
  rw [List.append_assoc, h ts₁ h₁, h' ts₂ h₂, TypeBody.map_before_append]

theorem semicolon : Adds kind name [.semicolon] .empty := by
  intro front hfront after
  obtain ⟨line, rest, rfl, hrest⟩ := words_eq_cons hfront
  obtain rfl : rest = [] := by simpa [words] using hrest
  rw [List.cons_append, List.nil_append, readBody_semicolon, TypeBody.map_before_empty]

theorem fields {tokens : List Token} {fields : List FieldDecl}
    (h : AcceptsMember kind name tokens (.fields fields)) : Adds kind name tokens ⟨fields, []⟩ :=
  fun _ hfront after => h.readBody_eq hfront after

theorem closed {tokens : List Token} {start : TypeStart}
    (h : AcceptsMember kind name tokens (.type start true)) :
    Adds kind name tokens ⟨[], [start.withBody .empty]⟩ :=
  fun _ hfront after => h.readBody_eq hfront after

/-- With the brace that closes the body, the tokens are all that is read. -/
theorem readBody_append {tokens : List Token} {body : TypeBody} (h : Adds kind name tokens body)
    {front : Tokens} (hfront : words front = tokens ++ [.closeBrace]) (after : Tokens) :
    readBody kind name (front ++ after) = .ok (body, after) := by
  obtain ⟨ts₁, ts₂, rfl, h₁, h₂⟩ := exists_append_of_words hfront
  obtain ⟨line, rest, rfl, hrest⟩ := words_eq_cons h₂
  obtain rfl : rest = [] := by simpa [words] using hrest
  rw [List.append_assoc, h ts₁ h₁, List.cons_append, List.nil_append, readBody_closeBrace]
  simp only [Except.map, TypeBody.before, TypeBody.append_empty]

/-- A nested type: its start, its members and the closing brace. -/
theorem type {tokens inner : List Token} {start : TypeStart} {body : TypeBody}
    (h : AcceptsMember kind name tokens (.type start false))
    (hinner : Adds start.kind start.name inner body) :
    Adds kind name (tokens ++ (inner ++ [.closeBrace])) ⟨[], [start.withBody body]⟩ := by
  intro front hfront after
  obtain ⟨ts₁, ts₂, rfl, h₁, h₂⟩ := exists_append_of_words hfront
  rw [List.append_assoc, h.readBody_eq h₁]
  simp only [readMember, hinner.readBody_append h₂]

end Adds

/-- The induction goes along the members; a nested body is one of its cases. -/
theorem exists_adds_of_typeBody {body : TypeBody} {hless : rest.length < ts.length}
    (h : typeBody kind name ts = .ok (body, ⟨rest, hless⟩)) :
    ∃ front line, ts = front ++ ⟨.closeBrace, line⟩ :: rest ∧
      Adds kind name (words front) body := by
  fun_induction typeBody kind name ts generalizing body rest with
  | case1 => cases h
  | case2 kind name t ts ht =>
      cases h
      obtain ⟨_, line⟩ := t
      cases ht
      exact ⟨[], line, rfl, Adds.nil⟩
  | case3 => cases h
  | case4 kind name t ts _ ht _ _ _ hbody ih =>
      cases h
      obtain ⟨_, line⟩ := t
      cases ht
      obtain ⟨front, line', rfl, hfront⟩ := ih hbody
      exact ⟨⟨.semicolon, line⟩ :: front, line', rfl, Adds.semicolon.append hfront⟩
  | case5 => cases h
  | case6 => cases h
  | case7 kind name t ts _ _ fields after hm _ _ _ _ hbody ih =>
      cases h
      obtain ⟨front, line, rfl, hfront⟩ := ih hbody
      obtain ⟨front', hts, hmember⟩ := exists_acceptsMember hm
      refine ⟨front' ++ front, line, by rw [hts, List.append_assoc], ?_⟩
      rw [words_append]
      exact (Adds.fields hmember).append hfront
  | case8 => cases h
  | case9 kind name t ts _ _ start after hm _ _ _ _ hbody ih =>
      cases h
      obtain ⟨front, line, rfl, hfront⟩ := ih hbody
      obtain ⟨front', hts, hmember⟩ := exists_acceptsMember hm
      refine ⟨front' ++ front, line, by rw [hts, List.append_assoc], ?_⟩
      rw [words_append]
      exact (Adds.closed hmember).append hfront
  | case10 => cases h
  | case11 => cases h
  | case12 kind name t ts _ _ start after hm _ inner _ _ hinner _ _ _ hbody ihinner ihbody =>
      cases h
      obtain ⟨front, line, rfl, hfront⟩ := ihbody hbody
      obtain ⟨middle, line', rfl, hmiddle⟩ := ihinner hinner
      obtain ⟨front', hts, hmember⟩ := exists_acceptsMember hm
      refine ⟨front' ++ (middle ++ ⟨.closeBrace, line'⟩ :: front), line, ?_, ?_⟩
      · rw [hts]
        simp
      · have hall := (Adds.type hmember hmiddle).append hfront
        simpa [words] using hall

/-- A body is put together from its members. The tokens of a body that is read, up to the brace that
closes it, add what the body holds to whatever is read after them. -/
theorem exists_adds_of_readBody {body : TypeBody} (h : readBody kind name ts = .ok (body, rest)) :
    ∃ front line, ts = front ++ ⟨.closeBrace, line⟩ :: rest ∧
      Adds kind name (words front) body := by
  obtain ⟨read, hread, hsame⟩ := map_eq_ok.mp h
  cases hsame
  exact exists_adds_of_typeBody hread

/-- Takes a body with its braces. In an enum the constants come before the members, and the body may
end with them. -/
def bracedBody (kind : TypeKind) (name : String) (ts : Tokens) : Reading TypeBody :=
  match expect .openBrace ts with
  | .error e => .error e
  | .ok (_, ts) =>
    if kind = .enum then
      match enumConstants ts with
      | .error e => .error e
      | .ok (true, ts) => .ok (.empty, ts)
      | .ok (false, ts) => readBody kind name ts
    else readBody kind name ts

/-- Whatever stands before the first brace is skipped. -/
theorem openBody_append {clause braced : Tokens} (hclause : ∀ t ∈ clause, t.token ≠ .openBrace)
    (hbrace : next? braced = some .openBrace) :
    openBody name (clause ++ braced) = .ok braced.tail := by
  induction clause with
  | nil =>
      cases braced with
      | nil => cases hbrace
      | cons t braced =>
          rw [List.nil_append, openBody, if_pos (Option.some.inj hbrace), List.tail_cons]
  | cons t clause ih =>
      rw [List.cons_append, openBody, if_neg (hclause t List.mem_cons_self)]
      exact ih fun other hother => hclause other (List.mem_cons_of_mem t hother)

/-- A type declaration is its head, whatever else stands before the first brace, and the body from
there. -/
theorem typeDecl_eq_bracedBody {start : TypeStart} {clause braced : Tokens}
    (hhead : typeHead ts = .ok (start, clause ++ braced))
    (hclause : ∀ t ∈ clause, t.token ≠ .openBrace) (hbrace : next? braced = some .openBrace) :
    typeDecl ts =
      (bracedBody start.kind start.name braced).map fun read =>
        (start.withBody read.1, read.2) := by
  rw [typeDecl, typeStart_eq, hhead]
  simp only [bodyStart, openBody_append hclause hbrace, bracedBody, expect, if_pos hbrace]
  by_cases henum : start.kind = .enum
  · simp only [if_pos henum]
    cases enumConstants braced.tail with
    | error e => rfl
    | ok read =>
        obtain ⟨closed, after⟩ := read
        cases closed with
        | true => rfl
        | false =>
            simp only [Except.map, readBody]
            cases typeBody start.kind start.name after <;> rfl
  · simp only [if_neg henum, Except.map, readBody]
    cases typeBody start.kind start.name braced.tail <;> rfl

/-- The constants of an enum with their annotations, arguments and class bodies, in which the
brackets balance. -/
inductive Constants : List Token → Prop where
  | nil : Constants []
  | token {token : Token} {rest : List Token} (hsemicolon : token ≠ .semicolon)
      (hclose : token ≠ .closeBrace) (hparen : token ≠ .openParen) (hbrace : token ≠ .openBrace)
      (hrest : Constants rest) : Constants (token :: rest)
  | arguments (inner : List Token) {rest : List Token}
      (hinner : Balanced .openParen .closeParen inner) (hrest : Constants rest) :
      Constants (.openParen :: (inner ++ .closeParen :: rest))
  | body (inner : List Token) {rest : List Token} (hinner : Balanced .openBrace .closeBrace inner)
      (hrest : Constants rest) : Constants (.openBrace :: (inner ++ .closeBrace :: rest))

/-- Constants are passed over, since no semicolon or brace stands outside of their brackets. -/
theorem Constants.enumConstants_eq {constants after : List Token} (h : Constants constants)
    (hts : words ts = constants ++ after) :
    ∃ rest, words rest = after ∧ enumConstants ts = enumConstants rest := by
  induction h generalizing ts with
  | nil => exact ⟨ts, hts, rfl⟩
  | token hsemicolon hclose hparen hbrace _ ih =>
      obtain ⟨line, ts₁, rfl, h₁⟩ := words_eq_cons hts
      obtain ⟨rest, hrest, hsame⟩ := ih h₁
      exact ⟨rest, hrest, by rw [enumConstants_other hsemicolon hclose hparen hbrace, hsame]⟩
  | arguments inner hinner _ ih =>
      rw [List.cons_append, List.append_assoc, List.cons_append] at hts
      obtain ⟨ts₁, hskip, h₁⟩ := skipBracketed_of_words (by simp) hinner hts
      obtain ⟨rest, hrest, hsame⟩ := ih h₁
      obtain ⟨line, ts₂, rfl, _⟩ := words_eq_cons hts
      exact ⟨rest, hrest, by rw [enumConstants_brackets rfl (by simp) hskip, hsame]⟩
  | body inner hinner _ ih =>
      rw [List.cons_append, List.append_assoc, List.cons_append] at hts
      obtain ⟨ts₁, hskip, h₁⟩ := skipBracketed_of_words (by simp) hinner hts
      obtain ⟨rest, hrest, hsame⟩ := ih h₁
      obtain ⟨line, ts₂, rfl, _⟩ := words_eq_cons hts
      exact ⟨rest, hrest, by rw [enumConstants_brackets rfl (by simp) hskip, hsame]⟩

/-- The tokens between braces are taken as a body, to the last of them. -/
def AcceptsBody (kind : TypeKind) (name : String) (tokens : List Token) (body : TypeBody) : Prop :=
  ∃ ts, words ts = .openBrace :: (tokens ++ [.closeBrace]) ∧
    bracedBody kind name ts = .ok (body, [])

variable {tokens : List Token} {body : TypeBody}

theorem bracedBody_of_words {after : List Token} (hkind : kind ≠ .enum)
    (h : words ts = .openBrace :: after) :
    ∃ rest, words rest = after ∧ bracedBody kind name ts = readBody kind name rest := by
  obtain ⟨line, rest, rfl, hrest⟩ := words_eq_cons h
  refine ⟨rest, hrest, ?_⟩
  simp [bracedBody, expect, next?, hkind]

/-- The constants of an enum leave no trace in what its body holds. -/
theorem bracedBody_of_constants {constants after : List Token} (hconstants : Constants constants)
    (h : words ts = .openBrace :: (constants ++ .semicolon :: after)) :
    ∃ rest, words rest = after ∧ bracedBody .enum name ts = readBody .enum name rest := by
  obtain ⟨line, ts₁, rfl, h₁⟩ := words_eq_cons h
  obtain ⟨ts₂, h₂, hsame⟩ := hconstants.enumConstants_eq h₁
  obtain ⟨line', rest, rfl, hrest⟩ := words_eq_cons h₂
  refine ⟨rest, hrest, ?_⟩
  rw [enumConstants] at hsame
  simp [bracedBody, expect, next?, hsame]

/-- The tokens in front of a closing brace are taken as the members of a body. -/
def AcceptsMembers (kind : TypeKind) (name : String) (tokens : List Token)
    (body : TypeBody) : Prop :=
  ∃ ts, words ts = tokens ++ [.closeBrace] ∧ readBody kind name ts = .ok (body, [])

/-- Members that are read once are read wherever they stand. -/
theorem AcceptsMembers.adds (h : AcceptsMembers kind name tokens body) :
    Adds kind name tokens body := by
  obtain ⟨ts, hts, hbody⟩ := h
  obtain ⟨front, line, rfl, hadds⟩ := exists_adds_of_readBody hbody
  rw [words_append] at hts
  obtain ⟨rfl, _⟩ := List.append_inj' hts rfl
  exact hadds

theorem AcceptsBody.members (h : AcceptsBody kind name tokens body) (hkind : kind ≠ .enum) :
    AcceptsMembers kind name tokens body := by
  obtain ⟨ts, hts, hbody⟩ := h
  obtain ⟨rest, hrest, hsame⟩ := bracedBody_of_words hkind hts
  exact ⟨rest, hrest, hsame ▸ hbody⟩

theorem AcceptsBody.members_of_constants {constants : List Token} (hconstants : Constants constants)
    (h : AcceptsBody .enum name (constants ++ .semicolon :: tokens) body) :
    AcceptsMembers .enum name tokens body := by
  obtain ⟨ts, hts, hbody⟩ := h
  obtain ⟨rest, hrest, hsame⟩ := bracedBody_of_constants hconstants (by simpa using hts)
  exact ⟨rest, hrest, hsame ▸ hbody⟩

theorem Adds.reads_readBody (h : Adds kind name tokens body) (after : List Token) :
    Reads (readBody kind name) (tokens ++ [.closeBrace]) body after := by
  intro ts hts
  obtain ⟨front, rest, rfl, hfront, hrest⟩ := exists_append_of_words hts
  exact ⟨rest, h.readBody_append hfront rest, hrest⟩

/-- Members between braces are read as a body, except in an enum. -/
theorem Adds.reads_bracedBody (h : Adds kind name tokens body) (hkind : kind ≠ .enum)
    (after : List Token) :
    Reads (bracedBody kind name) (.openBrace :: (tokens ++ [.closeBrace])) body after := by
  intro ts hts
  obtain ⟨ts₁, h₁, hsame⟩ := bracedBody_of_words hkind hts
  rw [hsame]
  exact h.reads_readBody after ts₁ (by simpa using h₁)

/-- In an enum they are read behind the constants and a semicolon. -/
theorem Adds.reads_bracedBody_of_constants {constants : List Token}
    (h : Adds .enum name tokens body) (hconstants : Constants constants) (after : List Token) :
    Reads (bracedBody .enum name)
      (.openBrace :: (constants ++ .semicolon :: (tokens ++ [.closeBrace]))) body after := by
  intro ts hts
  obtain ⟨ts₁, h₁, hsame⟩ := bracedBody_of_constants hconstants (by simpa using hts)
  rw [hsame]
  exact h.reads_readBody after ts₁ (by simpa using h₁)

theorem Adds.acceptsMembers (h : Adds kind name tokens body) :
    AcceptsMembers kind name tokens body := by
  have hread := h.readBody_append (words_placed (tokens ++ [.closeBrace])) []
  rw [List.append_nil] at hread
  exact ⟨_, words_placed _, hread⟩

theorem acceptsBody_of_reads {braced : List Token}
    (hbraced : braced = .openBrace :: (tokens ++ [.closeBrace]))
    (h : Reads (bracedBody kind name) braced body []) : AcceptsBody kind name tokens body := by
  obtain ⟨rest, hread, hrest⟩ := h (placed braced) (by rw [words_placed, List.append_nil])
  obtain rfl : rest = [] := by simpa [words] using hrest
  exact ⟨placed braced, (words_placed braced).trans hbraced, hread⟩

end WireMapper.Java
