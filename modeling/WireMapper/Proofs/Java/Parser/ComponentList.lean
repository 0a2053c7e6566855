import WireMapper.Proofs.Java.Parser.Shape

/-!
The component list of a record, as it stands in the source: types with names, between commas. What a
component is read from is cut at the commas that stand in no brackets, so the names of the
components are the words in front of these commas, and in front of the closing parenthesis.
-/

namespace WireMapper.Java

variable {ts rest mid : Tokens} {tokens tokens' : List Token} {opening closing : Token}

def Token.IsBracketPair (opening closing : Token) : Prop :=
  opening = .openParen ∧ closing = .closeParen ∨ opening = .less ∧ closing = .greater

/-- Tokens without a comma, unless it stands in brackets, and in which each bracket has its partner.
-/
inductive Enclosed : List Token → Prop where
  | nil : Enclosed []
  | token {token : Token} {rest : List Token}
      (hplain : token ∉ [Token.comma, .openParen, .closeParen, .less, .greater])
      (hrest : Enclosed rest) :
      Enclosed (token :: rest)
  | group {opening closing : Token} {inner rest : List Token}
      (hpair : Token.IsBracketPair opening closing) (hinner : Balanced opening closing inner)
      (hrest : Enclosed rest) : Enclosed (opening :: (inner ++ closing :: rest))

/-- The components of a record between its parentheses, each with its type and its name. A comma may
stand behind the last one. -/
inductive ComponentList : List Token → List String → Prop where
  | nil : ComponentList [] []
  | last {type : List Token} {name : String} (htype : type ≠ []) (henclosed : Enclosed type) :
      ComponentList (type ++ [.ident name]) [name]
  | cons {type rest : List Token} {name : String} {names : List String} (htype : type ≠ [])
      (henclosed : Enclosed type) (hrest : ComponentList rest names) :
      ComponentList (type ++ .ident name :: .comma :: rest) (name :: names)

/-- The tokens start with the head of a record of the name, whose components have the names listed.
-/
def DeclaresRecord (tokens : List Token) (name : String) (names : List String) : Prop :=
  ∃ parameters list back,
    tokens = .ident "record" :: .ident name ::
      (parameters ++ .openParen :: (list ++ .closeParen :: back)) ∧
      Arguments .less .greater parameters ∧ ComponentList list names

theorem Token.IsBracketPair.mem (h : Token.IsBracketPair opening closing) :
    opening ∈ [Token.comma, .openParen, .closeParen, .less, .greater] := by
  rcases h with ⟨rfl, rfl⟩ | ⟨rfl, rfl⟩ <;> simp

theorem Token.IsBracketPair.unique {closing' : Token} (h : Token.IsBracketPair opening closing)
    (h' : Token.IsBracketPair opening closing') : closing = closing' := by
  rcases h with ⟨rfl, rfl⟩ | ⟨rfl, rfl⟩ <;> rcases h' with ⟨hsame, rfl⟩ | ⟨hsame, rfl⟩
  case inl.inl | inr.inr => rfl
  case inl.inr | inr.inl => cases hsame

theorem Token.IsBracketPair.ne (h : Token.IsBracketPair opening closing) : opening ≠ closing := by
  rcases h with ⟨rfl, rfl⟩ | ⟨rfl, rfl⟩ <;> simp

theorem Enclosed.append (h : Enclosed tokens) (h' : Enclosed tokens') :
    Enclosed (tokens ++ tokens') := by
  induction h with
  | nil => exact h'
  | token hplain hrest ih => exact .token hplain ih
  | group hpair hinner hrest ih =>
      simp only [List.cons_append, List.append_assoc]
      exact .group hpair hinner ih

theorem ComponentList.mem {names : List String} (h : ComponentList tokens names) :
    ∀ name ∈ names, .ident name ∈ tokens := by
  induction h with
  | nil => simp
  | last htype henclosed => simp
  | cons htype henclosed hrest ih =>
      intro other hother
      rcases List.mem_cons.mp hother with rfl | hother
      · simp
      · simp [ih other hother]

theorem DeclaresRecord.mem {name : String} {names : List String}
    (h : DeclaresRecord tokens name names) :
    ∀ component ∈ names, .ident component ∈ tokens := by
  obtain ⟨parameters, list, back, rfl, _, hlist⟩ := h
  intro component hcomponent
  simp [hlist.mem component hcomponent]

/-- Such tokens start with no comma and no closing parenthesis. -/
theorem Enclosed.ne_cons {token : Token} (h : Enclosed tokens)
    (htoken : token = .comma ∨ token = .closeParen) (rest : List Token) :
    tokens ≠ token :: rest := by
  rintro rfl
  cases h with
  | token hplain _ => rcases htoken with rfl | rfl <;> simp at hplain
  | group hpair _ _ => rcases hpair with ⟨rfl, _⟩ | ⟨rfl, _⟩ <;> simp at htoken

/-- The first comma or closing parenthesis outside of brackets stands at one place only. -/
theorem Enclosed.end_unique {stop stop' : Token} {back back' : List Token} (h : Enclosed tokens)
    (h' : Enclosed tokens') (hstop : stop = .comma ∨ stop = .closeParen)
    (hstop' : stop' = .comma ∨ stop' = .closeParen)
    (hsame : tokens ++ stop :: back = tokens' ++ stop' :: back') : tokens = tokens' := by
  induction h generalizing tokens' with
  | nil =>
      cases tokens' with
      | nil => rfl
      | cons first rest =>
          cases hsame
          exact absurd rfl (h'.ne_cons hstop rest)
  | @token token rest hplain hrest ih =>
      cases h' with
      | nil =>
          cases hsame
          exact absurd rfl ((Enclosed.token hplain hrest).ne_cons hstop' rest)
      | token _ hrest' =>
          obtain ⟨rfl, hrests⟩ := List.cons.inj hsame
          rw [ih hrest' hrests]
      | group hpair _ _ =>
          obtain ⟨rfl, _⟩ := List.cons.inj hsame
          exact absurd hpair.mem hplain
  | @group opening closing inner rest hpair hinner hrest ih =>
      cases h' with
      | nil =>
          cases hsame
          exact absurd rfl ((Enclosed.group hpair hinner hrest).ne_cons hstop' _)
      | token hplain _ =>
          obtain ⟨rfl, _⟩ := List.cons.inj hsame
          exact absurd hpair.mem hplain
      | group hpair' hinner' hrest' =>
          simp only [List.cons_append, List.append_assoc, List.cons.injEq] at hsame
          obtain ⟨rfl, hsame⟩ := hsame
          obtain rfl := hpair.unique hpair'
          obtain ⟨rfl, hrests⟩ := hinner.closing_unique hpair.ne hinner' hsame
          rw [ih hrest' hrests]

/-- The word in front of the first comma or closing parenthesis outside of brackets, and what is
behind it. -/
theorem Enclosed.name_unique {stop stop' : Token} {back back' : List Token} {name name' : String}
    (h : Enclosed tokens) (h' : Enclosed tokens') (hstop : stop = .comma ∨ stop = .closeParen)
    (hstop' : stop' = .comma ∨ stop' = .closeParen)
    (hsame : tokens ++ .ident name :: stop :: back = tokens' ++ .ident name' :: stop' :: back') :
    name = name' ∧ stop = stop' ∧ back = back' := by
  have hnamed : ∀ {tokens : List Token} (name : String), Enclosed tokens →
      Enclosed (tokens ++ [.ident name]) :=
    fun name htokens => htokens.append (.token (by simp) .nil)
  have hcut : (tokens ++ [.ident name]) ++ stop :: back =
      (tokens' ++ [.ident name']) ++ stop' :: back' := by
    simpa using hsame
  have hfront := (hnamed name h).end_unique (hnamed name' h') hstop hstop' hcut
  rw [hfront] at hcut
  obtain ⟨rfl, rfl⟩ := List.cons.inj (List.append_cancel_left hcut)
  obtain ⟨_, hlast⟩ := List.append_inj' hfront rfl
  cases hlast
  exact ⟨rfl, rfl, rfl⟩

theorem Enclosed.name_ne_close {back back' : List Token} {name : String} (h : Enclosed tokens) :
    tokens ++ .ident name :: back ≠ .closeParen :: back' := by
  intro hsame
  cases tokens with
  | nil => cases hsame
  | cons first rest =>
      obtain ⟨rfl, _⟩ := List.cons.inj hsame
      exact h.ne_cons (Or.inr rfl) rest rfl

/-- Tokens list components in one way only. -/
theorem ComponentList.unique {list list' back back' : List Token} {names names' : List String}
    (h : ComponentList list names) (h' : ComponentList list' names')
    (hsame : list ++ .closeParen :: back = list' ++ .closeParen :: back') : names = names' := by
  induction h generalizing list' names' with
  | nil =>
      cases h' with
      | nil => rfl
      | last _ henclosed => exact absurd hsame.symm (by simpa using henclosed.name_ne_close)
      | cons _ henclosed _ => exact absurd hsame.symm (by simpa using henclosed.name_ne_close)
  | last _ henclosed =>
      cases h' with
      | nil => exact absurd hsame (by simpa using henclosed.name_ne_close)
      | last _ henclosed' =>
          simp only [List.append_assoc, List.cons_append, List.nil_append] at hsame
          obtain ⟨rfl, _, _⟩ := henclosed.name_unique henclosed' (Or.inr rfl) (Or.inr rfl) hsame
          rfl
      | cons _ henclosed' _ =>
          simp only [List.append_assoc, List.cons_append, List.nil_append] at hsame
          obtain ⟨_, hstop, _⟩ := henclosed.name_unique henclosed' (Or.inr rfl) (Or.inl rfl) hsame
          cases hstop
  | cons _ henclosed _ ih =>
      cases h' with
      | nil => exact absurd hsame (by simpa using henclosed.name_ne_close)
      | last _ henclosed' =>
          simp only [List.append_assoc, List.cons_append, List.nil_append] at hsame
          obtain ⟨_, hstop, _⟩ := henclosed.name_unique henclosed' (Or.inl rfl) (Or.inr rfl) hsame
          cases hstop
      | cons _ henclosed' hrest' =>
          simp only [List.append_assoc, List.cons_append] at hsame
          obtain ⟨rfl, _, hrests⟩ :=
            henclosed.name_unique henclosed' (Or.inl rfl) (Or.inl rfl) hsame
          rw [ih hrest' hrests]

/-- The source says which the components of a record are. -/
theorem DeclaresRecord.unique {name : String} {names names' : List String}
    (h : DeclaresRecord tokens name names) (h' : DeclaresRecord tokens name names') :
    names = names' := by
  obtain ⟨parameters, list, back, rfl, harguments, hlist⟩ := h
  obtain ⟨parameters', list', back', hsame, harguments', hlist'⟩ := h'
  obtain ⟨_, hsame⟩ := List.cons.inj hsame
  obtain ⟨_, hsame⟩ := List.cons.inj hsame
  cases harguments with
  | absent =>
      cases harguments' with
      | absent => exact hlist.unique hlist' (List.cons.inj hsame).2
      | bracketed inner' _ => cases hsame
  | bracketed inner hinner =>
      cases harguments' with
      | absent => cases hsame
      | bracketed inner' hinner' =>
          simp only [List.cons_append, List.append_assoc, List.cons.injEq, true_and,
            List.nil_append] at hsame
          obtain ⟨_, hrest⟩ := hinner.closing_unique (by simp) hinner' hsame
          exact hlist.unique hlist' (List.cons.inj hrest).2

/-- Between two places in the source there is no comma outside of brackets, and no bracket without
its partner. -/
def Takes (ts rest : Tokens) : Prop :=
  ∃ front, ts = front ++ rest ∧ Enclosed (words front)

namespace Takes

theorem refl (ts : Tokens) : Takes ts ts :=
  ⟨[], rfl, .nil⟩

theorem trans (h : Takes ts mid) (h' : Takes mid rest) : Takes ts rest := by
  obtain ⟨front, rfl, hfront⟩ := h
  obtain ⟨back, rfl, hback⟩ := h'
  refine ⟨front ++ back, by rw [List.append_assoc], ?_⟩
  rw [words_append]
  exact hfront.append hback

theorem cons {t : PlacedToken}
    (hplain : t.token ∉ [Token.comma, .openParen, .closeParen, .less, .greater])
    (h : Takes ts rest) :
    Takes (t :: ts) rest := by
  obtain ⟨front, rfl, hfront⟩ := h
  exact ⟨t :: front, rfl, .token hplain hfront⟩

end Takes

theorem Arguments.enclosed (hpair : Token.IsBracketPair opening closing)
    (h : Arguments opening closing tokens) : Enclosed tokens := by
  cases h with
  | absent => exact .nil
  | bracketed inner hinner => exact .group hpair hinner .nil

theorem exists_arguments_of_skipOptional (hne : opening ≠ closing)
    (h : skipOptional opening closing ts = .ok rest) :
    ∃ front, ts = front ++ rest ∧ Arguments opening closing (words front) := by
  rcases skipOptional_eq_ok h with ⟨-, hskip⟩ | ⟨-, rfl⟩
  · obtain ⟨line, inner, line', rfl, hinner⟩ := (skipBracketed_eq_ok_iff hne).mp hskip
    refine ⟨⟨opening, line⟩ :: (inner ++ [⟨closing, line'⟩]), by simp, ?_⟩
    simpa [words] using Arguments.bracketed _ hinner
  · exact ⟨[], rfl, .absent⟩

theorem skipOptional_takes (hpair : Token.IsBracketPair opening closing)
    (h : skipOptional opening closing ts = .ok rest) : Takes ts rest := by
  obtain ⟨front, hts, hfront⟩ := exists_arguments_of_skipOptional hpair.ne h
  exact ⟨front, hts, hfront.enclosed hpair⟩

theorem identifier_takes {text : String} (h : identifier ts = .ok (text, rest)) :
    Takes ts rest := by
  obtain ⟨line, rfl⟩ := identifier_eq_ok h
  exact .cons (by simp) (.refl _)

theorem dottedNames_takes (ts : Tokens) : Takes ts (dottedNames ts).2 := by
  fun_induction dottedNames ts with
  | case1 line text line' ts ih => exact .cons (by simp) (.cons (by simp) ih)
  | case2 => exact .refl _

theorem qualifiedName_takes {name : String} (h : qualifiedName ts = .ok (name, rest)) :
    Takes ts rest := by
  obtain ⟨first, after, hfirst, -, rfl⟩ := qualifiedName_eq_ok h
  exact (identifier_takes hfirst).trans (dottedNames_takes after)

theorem skipAnnotationUse_takes (h : skipAnnotationUse ts = .ok rest) : Takes ts rest := by
  obtain ⟨_, _, _, hsign, hname, harguments⟩ := skipAnnotationUse_eq_ok h
  obtain ⟨line, rfl⟩ := expect_eq_ok hsign
  exact .cons (by simp)
    ((qualifiedName_takes hname).trans (skipOptional_takes (Or.inl ⟨rfl, rfl⟩) harguments))

theorem afterNonSealed?_takes (h : afterNonSealed? ts = some rest) : Takes ts rest := by
  obtain ⟨_, _, _, rfl⟩ := afterNonSealed?_eq_some h
  exact .cons (by simp) (.cons (by simp) (.cons (by simp) (.refl _)))

theorem modifiersFrom_takes {m m' : Modifiers} (h : modifiersFrom m ts = .ok (m', rest)) :
    Takes ts rest := by
  fun_induction modifiersFrom m ts with
  | case1 => cases h; exact .refl _
  | case2 => cases h; exact .refl _
  | case3 => cases h
  | case4 => rename_i huse ih; exact (skipAnnotationUse_takes huse).trans (ih h)
  | case5 m t rest word ht _ _ ih =>
      refine .cons ?_ (ih h)
      simp [ht]
  | case6 => rename_i hafter ih; exact (afterNonSealed?_takes hafter).trans (ih h)
  | case7 => cases h; exact .refl _
  | case8 => cases h; exact .refl _

theorem typeSegments_takes {names : List String} (h : typeSegments ts = .ok (names, rest)) :
    Takes ts rest := by
  fun_induction typeSegments ts generalizing names rest with
  | case1 => cases h
  | case2 => cases h
  | case3 =>
      rename_i hskip _ _ hrest ih
      cases h
      have harguments := skipOptional_takes (Or.inr ⟨rfl, rfl⟩) hskip
      exact .cons (by simp) (.cons (by simp) (harguments.trans (ih hrest)))
  | case4 => cases h; exact .refl _

theorem skipDimensions_takes (ts : Tokens) : Takes ts (skipDimensions ts) := by
  fun_induction skipDimensions ts with
  | case1 line line' ts ih => exact .cons (by simp) (.cons (by simp) ih)
  | case2 => exact .refl _

theorem skipDots_takes (ts : Tokens) : Takes ts (skipDots ts) := by
  fun_induction skipDots ts with
  | case1 line ts ih => exact .cons (by simp) ih
  | case2 => exact .refl _

/-- A type is taken as a whole: its commas stand in its type arguments. -/
theorem typeName_takes {name : String} (h : typeName ts = .ok (name, rest)) : Takes ts rest := by
  obtain ⟨_, _, _, _, _, _, _, hmodifiers, hname, harguments, hsegments, -, rfl⟩ := typeName_eq_ok h
  have hfirst := (modifiersFrom_takes hmodifiers).trans (qualifiedName_takes hname)
  have hsegment := hfirst.trans (skipOptional_takes (Or.inr ⟨rfl, rfl⟩) harguments)
  have hdotted := hsegment.trans (typeSegments_takes hsegments)
  exact (hdotted.trans (skipDimensions_takes _)).trans (skipDots_takes _)

/-- A component is taken up to its name, which is the last word in front of a comma or parenthesis.
-/
theorem component_takes {m : Modifiers} {ts₁ ts₂ : Tokens} {type name : String}
    (hmodifiers : modifiers ts = .ok (m, ts₁)) (htype : typeName ts₁ = .ok (type, ts₂))
    (hname : identifier ts₂ = .ok (name, rest)) :
    ∃ front line, ts = front ++ ⟨.ident name, line⟩ :: rest ∧ words front ≠ [] ∧
      Enclosed (words front) := by
  obtain ⟨front, hts, hfront⟩ := (modifiersFrom_takes hmodifiers).trans (typeName_takes htype)
  obtain ⟨line, rfl⟩ := identifier_eq_ok hname
  refine ⟨front, line, hts, ?_, hfront⟩
  -- A type takes at least one token.
  intro hempty
  have hshorter := length_typeName_lt htype
  have hnotlonger := length_modifiers_le hmodifiers
  have hsame : front = [] := by simpa [words] using hempty
  rw [hts, hsame, List.nil_append] at hnotlonger
  omega

/-- The components that are read are those that the source lists. -/
theorem componentList_of_recordComponentsFrom {fields : List FieldDecl}
    (h : recordComponentsFrom ts = .ok (fields, rest)) :
    ∃ list line names, ts = list ++ ⟨.closeParen, line⟩ :: rest ∧ ComponentList (words list) names ∧
      fields = names.map (⟨·, .private_, false⟩) := by
  fun_induction recordComponentsFrom ts generalizing fields rest with
  | case1 ts hclose =>
      cases h
      obtain ⟨line, hts⟩ := exists_eq_cons_of_next? hclose
      exact ⟨[], line, [], hts, .nil, rfl⟩
  | case2 => cases h
  | case3 => cases h
  | case4 => cases h
  | case5 => cases h
  | case6 ts _ m ts₁ hmodifiers type ts₂ htype name ts₃ hname hcomma fields after hrest ih =>
      cases h
      obtain ⟨front, line, rfl, hne, hfront⟩ := component_takes hmodifiers htype hname
      obtain ⟨line', hts₃⟩ := exists_eq_cons_of_next? hcomma
      obtain ⟨list, last, names, htail, hlist, rfl⟩ := ih hrest
      rw [htail] at hts₃
      refine ⟨front ++ ⟨.ident name, line⟩ :: ⟨.comma, line'⟩ :: list, last, name :: names,
        ?_, ?_, rfl⟩
      · rw [hts₃]
        simp
      · rw [words_append]
        exact .cons hne hfront hlist
  | case7 => cases h
  | case8 ts _ m ts₁ hmodifiers type ts₂ htype name ts₃ hname hcomma _ after hclose =>
      cases h
      obtain ⟨front, line, rfl, hne, hfront⟩ := component_takes hmodifiers htype hname
      obtain ⟨last, rfl⟩ := expect_eq_ok hclose
      refine ⟨front ++ [⟨.ident name, line⟩], last, [name], by simp, ?_, rfl⟩
      rw [words_append]
      exact .last hne hfront

theorem exists_eq_cons_of_typeKind (h : typeKind ts = .ok (.record, rest)) :
    ∃ line, ts = ⟨.ident "record", line⟩ :: rest := by
  obtain ⟨word, line, rfl, hword⟩ | ⟨_, _, -, hkind, -⟩ := typeKind_eq_ok h
  · refine ⟨line, ?_⟩
    unfold TypeKind.ofWord? at hword
    split at hword <;> cases hword
    rfl
  · cases hkind

/-- A record that is read is declared where reading starts, and its components are those listed
there. -/
theorem declaresRecord_of_typeStart {start : TypeStart} {closed : Bool}
    (h : typeStart ts = .ok ((start, closed), rest)) (hkind : start.kind = .record) :
    ∃ names, DeclaresRecord (words ts) start.name names ∧
      start.components = names.map (⟨·, .private_, false⟩) := by
  obtain ⟨ts₁, ts₂, ts₃, ts₄, ts₅, ts₆, htypeKind, hname, hparameters, hcomponents, -, -, -⟩ :=
    typeStart_eq_ok h
  rw [hkind] at htypeKind hcomponents
  obtain ⟨line, rfl⟩ := exists_eq_cons_of_typeKind htypeKind
  obtain ⟨line', rfl⟩ := identifier_eq_ok hname
  obtain ⟨parameters, rfl, harguments⟩ := exists_arguments_of_skipOptional (by simp) hparameters
  rw [components, if_pos rfl] at hcomponents
  obtain ⟨_, hopen, hread⟩ := recordComponents_eq_ok hcomponents
  obtain ⟨line'', rfl⟩ := expect_eq_ok hopen
  obtain ⟨list, last, names, rfl, hlist, hfields⟩ := componentList_of_recordComponentsFrom hread
  refine ⟨names, ⟨words parameters, words list, words ts₄, ?_, harguments, hlist⟩, hfields⟩
  simp [words]

end WireMapper.Java
