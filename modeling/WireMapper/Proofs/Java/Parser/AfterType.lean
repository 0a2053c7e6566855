import WireMapper.Proofs.Java.Parser.Shape

/-!
Members with a type. A method and a field declaration are read alike up to the end of their types,
with type parameters in front of them or without. What they are is decided by what comes after the
type.
-/

namespace WireMapper.Java

variable {kind : TypeKind} {name : String} {m : Modifiers} {ts : Tokens}
    {mods type after : List Token}

/-- Takes what comes after the type of a field or method. -/
def afterType (kind : TypeKind) (m : Modifiers) (ts : Tokens) : Reading (List FieldDecl) :=
  if next? ts = some .openParen then
    (method ts).map fun rest => ([], rest)
  else
    match identifier ts with
    | .error e => .error e
    | .ok (name, ts) =>
      if next? ts = some .openParen then
        (method ts).map fun rest => ([], rest)
      else
        (declarators name ts).map fun read =>
          (read.1.map (⟨·, fieldVisibility kind m, fieldIsStatic kind m⟩), read.2)

/-- Up to the end of the type a method and fields are read in the same way. -/
theorem methodOrFields_eq {ts₁ ts₂ : Tokens} {type : String}
    (hparameters : skipOptional .less .greater ts = .ok ts₁)
    (htype : typeName ts₁ = .ok (type, ts₂)) :
    methodOrFields kind m ts = afterType kind m ts₂ := by
  simp only [methodOrFields, hparameters, htype, afterType]
  split
  · cases method ts₂ <;> rfl
  cases identifier ts₂ with
  | error e => rfl
  | ok read =>
      obtain ⟨name, ts₃⟩ := read
      dsimp only
      split
      · cases method ts₃ <;> rfl
      · cases declarators name ts₃ <;> rfl

/-- A member that starts neither with a brace nor with a type declaration is a method or fields. -/
theorem member_eq {ts₁ ts₂ ts₃ : Tokens} {type : String} (hmodifiers : modifiers ts = .ok (m, ts₁))
    (hbrace : next? ts₁ ≠ some .openBrace)
    (hcompact : ¬ (next? ts₁ = some (.ident name) ∧ second? ts₁ = some .openBrace))
    (hdecl : atTypeDecl ts₁ = false) (hparameters : skipOptional .less .greater ts₁ = .ok ts₂)
    (htype : typeName ts₂ = .ok (type, ts₃)) :
    member kind name ts = (afterType kind m ts₃).map fun read => (.fields read.1, read.2) := by
  simp only [member, hmodifiers, hdecl, methodOrFields_eq hparameters htype]
  rw [if_neg hbrace, if_neg (fun hrecord => hcompact hrecord.2), if_neg (by simp)]
  cases afterType kind m ts₃ <;> rfl

/-- Without type parameters, annotations in front of a type are read with the modifiers. -/
theorem exists_member_eq_of_type (kind : TypeKind) (name : String)
    (hmods : Modify ⟨none, false⟩ mods m) (htype : MemberType type) (hafter : StopsType after)
    (hbrace : after.head? ≠ some .openBrace) (hts : words ts = mods ++ (type ++ after)) :
    ∃ rest, words rest = after.dropWhile (· = .dot) ∧
      member kind name ts = (afterType kind m rest).map fun read => (.fields read.1, read.2) := by
  obtain ⟨ts₁, hmodifiers, h₁⟩ := hmods.reads (htype.endsModifiers_of_head hafter.dash) ts hts
  obtain ⟨typeText, rest, htypeName, hrest⟩ := htype.typeName_stops hafter h₁
  obtain ⟨first, hfirst⟩ := htype.exists_next h₁
  have hparameters : skipOptional .less .greater ts₁ = .ok ts₁ := by
    rw [skipOptional, if_neg (by simp [hfirst])]
  have hsecond : second? ts₁ ≠ some .openBrace := by
    rw [second?_eq, h₁]
    exact htype.second_ne (by simp) (by simp) (by simp) hbrace
  refine ⟨rest, hrest, ?_⟩
  exact member_eq hmodifiers (by simp [hfirst]) (fun hcompact => hsecond hcompact.2)
    (htype.atTypeDecl_eq h₁) hparameters htypeName

/-- Behind type parameters, they are read with the type. -/
theorem exists_member_eq_of_parameters (kind : TypeKind) (name : String)
    {inner annotations : List Token} {m' : Modifiers} (hmods : Modify ⟨none, false⟩ mods m)
    (hinner : Balanced .less .greater inner) (hannotations : Modify ⟨none, false⟩ annotations m')
    (htype : MemberType type) (hafter : StopsType after)
    (hts : words ts = mods ++ .less :: (inner ++ .greater :: (annotations ++ (type ++ after)))) :
    ∃ rest, words rest = after.dropWhile (· = .dot) ∧
      member kind name ts = (afterType kind m rest).map fun read => (.fields read.1, read.2) := by
  obtain ⟨ts₁, hmodifiers, h₁⟩ := hmods.reads (endsModifiers_of_mark rfl (by simp)) ts hts
  have hless : next? ts₁ = some .less := by rw [next?_eq_head?, h₁, List.head?_cons]
  obtain ⟨ts₂, hskip, h₂⟩ := skipBracketed_of_words (by simp) hinner h₁
  have hparameters : skipOptional .less .greater ts₁ = .ok ts₂ := by
    rw [skipOptional, if_pos hless, hskip]
  obtain ⟨typeText, rest, htypeName, hrest⟩ := htype.typeName_stops_of_modify hannotations hafter h₂
  refine ⟨rest, hrest, ?_⟩
  exact member_eq hmodifiers (by simp [hless]) (by simp [hless])
    (by simp [atTypeDecl, hless]) hparameters
    htypeName

/-- Up to the end of its type a member is read in any case, with annotations in front of the type.
-/
theorem exists_member_eq (kind : TypeKind) (name : String) {parameters annotations : List Token}
    {m' : Modifiers} (hmods : Modify ⟨none, false⟩ mods m)
    (hparameters : Arguments .less .greater parameters)
    (hannotations : Modify ⟨none, false⟩ annotations m')
    (hneutral : parameters = [] → ∀ m, Modify m annotations m) (htype : MemberType type)
    (hafter : StopsType after) (hbrace : after.head? ≠ some .openBrace)
    (hts : words ts = mods ++ (parameters ++ (annotations ++ (type ++ after)))) :
    ∃ rest, words rest = after.dropWhile (· = .dot) ∧
      member kind name ts = (afterType kind m rest).map fun read => (.fields read.1, read.2) := by
  cases hparameters with
  | absent =>
      rw [List.nil_append, ← List.append_assoc] at hts
      have hall := hmods.append (hneutral rfl m)
      exact exists_member_eq_of_type kind name hall htype hafter hbrace hts
  | bracketed inner hinner =>
      simp only [List.cons_append, List.append_assoc, List.nil_append] at hts
      exact exists_member_eq_of_parameters kind name hmods hinner hannotations htype hafter hts

/-- Behind its type a method or constructor is passed over from its parameter list on. -/
theorem afterType_of_called (kind : TypeKind) (m : Modifiers) {called : List Token}
    (hcalled : called = [] ∨ ∃ text, called = [.ident text])
    (hts : words ts = called ++ .openParen :: after) :
    ∃ ts₁, words ts₁ = .openParen :: after ∧
      afterType kind m ts = (method ts₁).map fun rest => ([], rest) := by
  rcases hcalled with rfl | ⟨text, rfl⟩
  · have hparen : next? ts = some .openParen := by rw [next?_eq_head?, hts]; rfl
    exact ⟨ts, hts, by rw [afterType, if_pos hparen]⟩
  · obtain ⟨line, ts₁, rfl, h₁⟩ := words_eq_cons hts
    have hparen : next? ts₁ = some .openParen := by rw [next?_eq_head?, h₁]; rfl
    refine ⟨ts₁, h₁, ?_⟩
    rw [afterType, if_neg (by simp [next?])]
    simp only [identifier, if_pos hparen]

end WireMapper.Java
