import WireMapper.Proofs.Java.Parser.Steps

/-!
How far readers look. A reader may look at a token or two behind those it takes, but never beyond a
semicolon or a brace that it does not take. So it reads the same from any other tokens that agree
with the first ones up to there, whatever comes after and on whatever lines they stand.
-/

namespace WireMapper.Java

/-- The tokens behind which a reader does not look without taking them. -/
def Token.stops : Token → Bool
  | .semicolon | .openBrace | .closeBrace => true
  | _ => false

/-- The same tokens, on whatever lines, before `stop` and before `stop'`. -/
inductive SameBefore (stop stop' : Tokens) : Tokens → Tokens → Prop where
  | here : SameBefore stop stop' stop stop'
  | cons (token : Token) (line line' : Nat) {ts ts' : Tokens} (h : SameBefore stop stop' ts ts') :
      SameBefore stop stop' (⟨token, line⟩ :: ts) (⟨token, line'⟩ :: ts')

/-- Both start with the same token, and no reader looks beyond it. -/
def SameStop (stop stop' : Tokens) : Prop :=
  ∃ token, token.stops = true ∧ next? stop = some token ∧ next? stop' = some token

variable {stop stop' ts ts' rest : Tokens}

theorem SameStop.symm (h : SameStop stop stop') : SameStop stop' stop := by
  obtain ⟨token, hstops, hnext, hnext'⟩ := h
  exact ⟨token, hstops, hnext', hnext⟩

namespace SameBefore

theorem symm (h : SameBefore stop stop' ts ts') : SameBefore stop' stop ts' ts := by
  induction h with
  | here => exact here
  | cons token line line' _ ih => exact ih.cons token line' line

/-- The next token is the same one, since even at the end both sides have one token in common. -/
theorem next?_eq (hstop : SameStop stop stop') (h : SameBefore stop stop' ts ts') :
    next? ts' = next? ts := by
  cases h with
  | here =>
      obtain ⟨token, _, hnext, hnext'⟩ := hstop
      rw [hnext, hnext']
  | cons token line line' _ => rfl

/-- The tokens behind one that does not stop readers. -/
theorem tail {token : Token} (hstop : SameStop stop stop') (h : SameBefore stop stop' ts ts')
    (hnext : next? ts = some token) (htoken : token.stops = false) :
    SameBefore stop stop' ts.tail ts'.tail := by
  cases h with
  | here =>
      obtain ⟨other, hstops, hnext', _⟩ := hstop
      rw [hnext] at hnext'
      cases hnext'
      rw [htoken] at hstops
      cases hstops
  | cons token line line' h => exact h

/-- So is the one behind it, if the next one stops no reader. -/
theorem second?_eq {token : Token} (hstop : SameStop stop stop') (h : SameBefore stop stop' ts ts')
    (hnext : next? ts = some token) (htoken : token.stops = false) : second? ts' = second? ts :=
  (h.tail hstop hnext htoken).next?_eq hstop

theorem uncons {t : PlacedToken} (hstop : SameStop stop stop')
    (h : SameBefore stop stop' (t :: ts) ts') (ht : t.token.stops = false) :
    ∃ line rest', ts' = ⟨t.token, line⟩ :: rest' ∧ SameBefore stop stop' ts rest' := by
  have hnext := h.next?_eq hstop
  have htail := h.tail hstop rfl ht
  cases ts' with
  | nil => cases hnext
  | cons t' ts' =>
      obtain ⟨token', line'⟩ := t'
      obtain rfl : token' = t.token := Option.some.inj hnext
      exact ⟨line', ts', rfl, htail⟩

/-- A token that is not the last one before `stop`. -/
theorem uncons_of_length {t : PlacedToken} (h : SameBefore stop stop' (t :: ts) ts')
    (hlength : stop.length ≤ ts.length) :
    ∃ line rest', ts' = ⟨t.token, line⟩ :: rest' ∧ SameBefore stop stop' ts rest' := by
  cases h with
  | here =>
      simp only [List.length_cons] at hlength
      omega
  | cons token line line' h => exact ⟨line', _, rfl, h⟩

theorem length_le (h : SameBefore stop stop' ts ts') : stop.length ≤ ts.length := by
  induction h with
  | here => exact Nat.le_refl _
  | cons token line line' _ ih =>
      simp only [List.length_cons]
      omega

end SameBefore

theorem expect_same {token : Token} {u : Unit} (htoken : token.stops = false)
    (hstop : SameStop stop stop') (h : SameBefore stop stop' ts ts')
    (hread : expect token ts = .ok (u, rest)) :
    ∃ rest', expect token ts' = .ok (u, rest') ∧ SameBefore stop stop' rest rest' := by
  obtain ⟨line, rfl⟩ := expect_eq_ok hread
  obtain ⟨line', rest', rfl, hsame⟩ := h.uncons hstop htoken
  exact ⟨rest', if_pos rfl, hsame⟩

theorem identifier_same {text : String} (hstop : SameStop stop stop')
    (h : SameBefore stop stop' ts ts') (hread : identifier ts = .ok (text, rest)) :
    ∃ rest', identifier ts' = .ok (text, rest') ∧ SameBefore stop stop' rest rest' := by
  obtain ⟨line, rfl⟩ := identifier_eq_ok hread
  obtain ⟨line', rest', rfl, hsame⟩ := h.uncons hstop rfl
  exact ⟨rest', rfl, hsame⟩

theorem dottedNames_same (hstop : SameStop stop stop') (h : SameBefore stop stop' ts ts') :
    (dottedNames ts').1 = (dottedNames ts).1 ∧
      SameBefore stop stop' (dottedNames ts).2 (dottedNames ts').2 := by
  fun_induction dottedNames ts generalizing ts' with
  | case1 line text line' ts ih =>
      obtain ⟨_, _, rfl, hdot⟩ := h.uncons hstop rfl
      obtain ⟨_, _, rfl, hname⟩ := hdot.uncons hstop rfl
      obtain ⟨hnames, hrest⟩ := ih hname
      exact ⟨by rw [dottedNames, hnames], hrest⟩
  | case2 ts hnone =>
      have hsame : dottedNames ts' = ([], ts') := by
        unfold dottedNames
        split
        · obtain ⟨_, _, rfl, hdot⟩ := h.symm.uncons hstop.symm rfl
          obtain ⟨_, _, rfl, _⟩ := hdot.uncons hstop.symm rfl
          exact absurd rfl (hnone _ _ _ _)
        · rfl
      rw [hsame]
      exact ⟨rfl, h⟩

theorem qualifiedName_same {name : String} (hstop : SameStop stop stop')
    (h : SameBefore stop stop' ts ts') (hread : qualifiedName ts = .ok (name, rest)) :
    ∃ rest', qualifiedName ts' = .ok (name, rest') ∧ SameBefore stop stop' rest rest' := by
  obtain ⟨first, after, hfirst, rfl, rfl⟩ := qualifiedName_eq_ok hread
  obtain ⟨after', hfirst', hsame⟩ := identifier_same hstop h hfirst
  obtain ⟨hnames, hrest⟩ := dottedNames_same hstop hsame
  refine ⟨(dottedNames after').2, ?_, hrest⟩
  simp only [qualifiedName, hfirst', hnames]

/-- Brackets may be closed beyond any stop; how much is left tells that they are closed before it.
-/
theorem closeBracket_same {opening closing : Token} {depth : Nat}
    (h : SameBefore stop stop' ts ts') (hread : closeBracket opening closing depth ts = .ok rest)
    (hrest : stop.length ≤ rest.length) :
    ∃ rest', closeBracket opening closing depth ts' = .ok rest' ∧
      SameBefore stop stop' rest rest' := by
  induction ts generalizing depth ts' with
  | nil => cases hread
  | cons t ts ih =>
      have hlength := length_closeBracket_lt hread
      simp only [List.length_cons] at hlength
      obtain ⟨line, us, rfl, hsame⟩ := h.uncons_of_length (by omega)
      rw [closeBracket.eq_def] at hread ⊢
      dsimp only at hread ⊢
      by_cases hopening : t.token = opening
      · rw [if_pos hopening] at hread ⊢
        exact ih hsame hread
      rw [if_neg hopening] at hread ⊢
      by_cases hclosing : t.token = closing
      · rw [if_pos hclosing] at hread ⊢
        cases depth with
        | zero =>
            cases hread
            exact ⟨us, rfl, hsame⟩
        | succ depth => exact ih hsame hread
      · rw [if_neg hclosing] at hread ⊢
        exact ih hsame hread

theorem skipBracketed_same {opening closing : Token} (h : SameBefore stop stop' ts ts')
    (hread : skipBracketed opening closing ts = .ok rest) (hrest : stop.length ≤ rest.length) :
    ∃ rest', skipBracketed opening closing ts' = .ok rest' ∧ SameBefore stop stop' rest rest' := by
  obtain ⟨after, hopen, hclose⟩ := skipBracketed_eq_ok hread
  have hlength := length_closeBracket_lt hclose
  obtain ⟨line, rfl⟩ := expect_eq_ok hopen
  obtain ⟨line', after', rfl, hsame⟩ := h.uncons_of_length (by omega)
  obtain ⟨rest', hclose', hrest'⟩ := closeBracket_same hsame hclose hrest
  refine ⟨rest', ?_, hrest'⟩
  simpa [skipBracketed, expect, next?] using hclose'

theorem skipOptional_same {opening closing : Token} (hstop : SameStop stop stop')
    (h : SameBefore stop stop' ts ts') (hread : skipOptional opening closing ts = .ok rest)
    (hrest : stop.length ≤ rest.length) :
    ∃ rest', skipOptional opening closing ts' = .ok rest' ∧ SameBefore stop stop' rest rest' := by
  have hsame := h.next?_eq hstop
  obtain ⟨hnext, hskip⟩ | ⟨hnext, rfl⟩ := skipOptional_eq_ok hread
  · obtain ⟨rest', hskip', hrest'⟩ := skipBracketed_same h hskip hrest
    exact ⟨rest', by rw [skipOptional, if_pos (hsame.trans hnext), hskip'], hrest'⟩
  · exact ⟨ts', if_neg (by rwa [hsame]), h⟩

theorem skipAnnotationUse_same (hstop : SameStop stop stop') (h : SameBefore stop stop' ts ts')
    (hread : skipAnnotationUse ts = .ok rest) (hrest : stop.length ≤ rest.length) :
    ∃ rest', skipAnnotationUse ts' = .ok rest' ∧ SameBefore stop stop' rest rest' := by
  obtain ⟨_, _, _, hsign, hname, harguments⟩ := skipAnnotationUse_eq_ok hread
  obtain ⟨_, hsign', h₁⟩ := expect_same rfl hstop h hsign
  obtain ⟨_, hname', h₂⟩ := qualifiedName_same hstop h₁ hname
  obtain ⟨rest', harguments', h₃⟩ := skipOptional_same hstop h₂ harguments hrest
  exact ⟨rest', by simp only [skipAnnotationUse, hsign', hname', harguments'], h₃⟩

theorem afterNonSealed?_same (hstop : SameStop stop stop') (h : SameBefore stop stop' ts ts')
    (hread : afterNonSealed? ts = some rest) :
    ∃ rest', afterNonSealed? ts' = some rest' ∧ SameBefore stop stop' rest rest' := by
  obtain ⟨_, _, _, rfl⟩ := afterNonSealed?_eq_some hread
  obtain ⟨_, _, rfl, h₁⟩ := h.uncons hstop rfl
  obtain ⟨_, _, rfl, h₂⟩ := h₁.uncons hstop rfl
  obtain ⟨_, rest', rfl, h₃⟩ := h₂.uncons hstop rfl
  exact ⟨rest', rfl, h₃⟩

theorem afterNonSealed?_eq_none_same (hstop : SameStop stop stop')
    (h : SameBefore stop stop' ts ts') (hread : afterNonSealed? ts = none) :
    afterNonSealed? ts' = none := by
  cases hread' : afterNonSealed? ts' with
  | none => rfl
  | some rest' =>
      obtain ⟨rest, hsome, _⟩ := afterNonSealed?_same hstop.symm h.symm hread'
      rw [hread] at hsome
      cases hsome

/-- Modifiers are told by one token, and `non-sealed` by three that stop no reader. -/
theorem modifiersFrom_same {m m' : Modifiers} (hstop : SameStop stop stop')
    (h : SameBefore stop stop' ts ts') (hread : modifiersFrom m ts = .ok (m', rest))
    (hrest : stop.length ≤ rest.length) :
    ∃ rest', modifiersFrom m ts' = .ok (m', rest') ∧ SameBefore stop stop' rest rest' := by
  fun_induction modifiersFrom m ts generalizing ts' with
  | case1 m =>
      obtain ⟨_, _, hnext, _⟩ := hstop
      cases h
      cases hnext
  | case2 m t ts ht hinterface =>
      cases hread
      have hnext : next? (t :: ts) = some .atSign := by rw [← ht]; rfl
      refine ⟨ts', modifiersFrom_end ?_ fun _ => ?_, h⟩
      · intro word hword
        rw [h.next?_eq hstop, hnext] at hword
        cases hword
      · rw [h.second?_eq hstop hnext rfl]
        exact hinterface
  | case3 => cases hread
  | case4 m t ts ht hinterface _ hannotation ih =>
      have hlength := length_modifiersFrom_le hread
      obtain ⟨_, hannotation', hsame⟩ := skipAnnotationUse_same hstop h hannotation (by omega)
      obtain ⟨rest', hread', hrest'⟩ := ih hsame hread
      obtain ⟨_, line⟩ := t
      cases ht
      obtain ⟨_, us, rfl, hus⟩ := h.uncons hstop rfl
      refine ⟨rest', ?_, hrest'⟩
      rw [modifiersFrom_annotated (by rwa [hus.next?_eq hstop]) hannotation', hread']
  | case5 m t ts word ht m₁ hadd ih =>
      obtain ⟨_, line⟩ := t
      cases ht
      obtain ⟨_, us, rfl, hus⟩ := h.uncons hstop rfl
      obtain ⟨rest', hread', hrest'⟩ := ih hus hread
      exact ⟨rest', by rw [modifiersFrom_of_modifier hadd, hread'], hrest'⟩
  | case6 m t ts word ht hadd _ hsealed ih =>
      obtain ⟨_, hsealed', hsame⟩ := afterNonSealed?_same hstop h hsealed
      obtain ⟨rest', hread', hrest'⟩ := ih hsame hread
      obtain ⟨_, line⟩ := t
      cases ht
      obtain ⟨_, us, rfl, _⟩ := h.uncons hstop rfl
      exact ⟨rest', by rw [modifiersFrom_nonSealed hadd hsealed', hread'], hrest'⟩
  | case7 m t ts word ht hadd hsealed =>
      cases hread
      have hnext : next? (t :: ts) = some (.ident word) := by rw [← ht]; rfl
      refine ⟨ts', modifiersFrom_end ?_ ?_, h⟩
      · intro other hother
        rw [h.next?_eq hstop, hnext] at hother
        cases hother
        exact ⟨hadd, afterNonSealed?_eq_none_same hstop h hsealed⟩
      · intro hsign
        rw [h.next?_eq hstop, hnext] at hsign
        cases hsign
  | case8 m t ts hsign hword =>
      cases hread
      refine ⟨ts', modifiersFrom_end ?_ ?_, h⟩
      · intro word hnext
        rw [h.next?_eq hstop] at hnext
        exact absurd (Option.some.inj hnext) (hword word)
      · intro hnext
        rw [h.next?_eq hstop] at hnext
        exact absurd (Option.some.inj hnext) hsign

theorem typeSegments_same {names : List String} (hstop : SameStop stop stop')
    (h : SameBefore stop stop' ts ts') (hread : typeSegments ts = .ok (names, rest))
    (hrest : stop.length ≤ rest.length) :
    ∃ rest', typeSegments ts' = .ok (names, rest') ∧ SameBefore stop stop' rest rest' := by
  fun_induction typeSegments ts generalizing names rest ts' with
  | case1 => cases hread
  | case2 => cases hread
  | case3 line text line' ts _ hskip names rest htail ih =>
      cases hread
      have hlength := length_typeSegments_le htail
      obtain ⟨_, _, rfl, hdot⟩ := h.uncons hstop rfl
      obtain ⟨_, _, rfl, hname⟩ := hdot.uncons hstop rfl
      obtain ⟨_, hskip', hsame⟩ := skipOptional_same hstop hname hskip (by omega)
      obtain ⟨rest', htail', hrest'⟩ := ih hsame htail hrest
      refine ⟨rest', ?_, hrest'⟩
      rw [typeSegments_cons hskip', htail']
      rfl
  | case4 ts hnone =>
      cases hread
      refine ⟨ts', ?_, h⟩
      rw [typeSegments.eq_def]
      split
      · obtain ⟨_, _, rfl, hdot⟩ := h.symm.uncons hstop.symm rfl
        obtain ⟨_, _, rfl, _⟩ := hdot.uncons hstop.symm rfl
        exact absurd rfl (hnone _ _ _ _)
      · rfl

theorem skipDimensions_same (hstop : SameStop stop stop') (h : SameBefore stop stop' ts ts') :
    SameBefore stop stop' (skipDimensions ts) (skipDimensions ts') := by
  fun_induction skipDimensions ts generalizing ts' with
  | case1 line line' ts ih =>
      obtain ⟨_, _, rfl, hopen⟩ := h.uncons hstop rfl
      obtain ⟨_, _, rfl, hclose⟩ := hopen.uncons hstop rfl
      have hrest := ih hclose
      exact hrest
  | case2 ts hnone =>
      have hsame : skipDimensions ts' = ts' := by
        unfold skipDimensions
        split
        · obtain ⟨_, _, rfl, hopen⟩ := h.symm.uncons hstop.symm rfl
          obtain ⟨_, _, rfl, _⟩ := hopen.uncons hstop.symm rfl
          exact absurd rfl (hnone _ _ _)
        · rfl
      rw [hsame]
      exact h

theorem skipDots_same (hstop : SameStop stop stop') (h : SameBefore stop stop' ts ts') :
    SameBefore stop stop' (skipDots ts) (skipDots ts') := by
  fun_induction skipDots ts generalizing ts' with
  | case1 line ts ih =>
      obtain ⟨_, _, rfl, hdot⟩ := h.uncons hstop rfl
      have hrest := ih hdot
      exact hrest
  | case2 ts hnone =>
      have hsame : skipDots ts' = ts' := by
        unfold skipDots
        split
        · obtain ⟨_, _, rfl, _⟩ := h.symm.uncons hstop.symm rfl
          exact absurd rfl (hnone _ _)
        · rfl
      rw [hsame]
      exact h

/-- A type is read from both alike, annotations and type arguments included. -/
theorem typeName_same {name : String} (hstop : SameStop stop stop')
    (h : SameBefore stop stop' ts ts') (hread : typeName ts = .ok (name, rest))
    (hrest : stop.length ≤ rest.length) :
    ∃ rest', typeName ts' = .ok (name, rest') ∧ SameBefore stop stop' rest rest' := by
  obtain ⟨_, _, _, _, _, _, ts₁, hmodifiers, hname, harguments, hsegments, rfl, rfl⟩ :=
    typeName_eq_ok hread
  have hdots := length_skipDots_le (skipDimensions ts₁)
  have hdimensions := length_skipDimensions_le ts₁
  have hlater := length_typeSegments_le hsegments
  have hlater' := length_skipOptional_le harguments
  have hlater'' := length_qualifiedName_lt hname
  obtain ⟨_, hmodifiers', h₁⟩ := modifiersFrom_same hstop h hmodifiers (by omega)
  obtain ⟨_, hname', h₂⟩ := qualifiedName_same hstop h₁ hname
  obtain ⟨_, harguments', h₃⟩ := skipOptional_same hstop h₂ harguments (by omega)
  obtain ⟨ts₂, hsegments', h₄⟩ := typeSegments_same hstop h₃ hsegments (by omega)
  refine ⟨skipDots (skipDimensions ts₂), ?_, skipDots_same hstop (skipDimensions_same hstop h₄)⟩
  simp only [typeName, modifiers, hmodifiers', hname', harguments', hsegments']

theorem component_same {m : Modifiers} {type name : String} {ts₁ ts₂ after : Tokens}
    (hstop : SameStop stop stop') (h : SameBefore stop stop' ts ts')
    (hclose : next? ts ≠ some .closeParen) (hmodifiers : modifiers ts = .ok (m, ts₁))
    (htype : typeName ts₁ = .ok (type, ts₂)) (hname : identifier ts₂ = .ok (name, after))
    (hafter : stop.length ≤ after.length) :
    ∃ after', SameBefore stop stop' after after' ∧
      recordComponentsFrom ts' =
        if next? after' = some .comma then
          (recordComponentsFrom after'.tail).map fun read =>
            (⟨name, .private_, false⟩ :: read.1, read.2)
        else (expect .closeParen after').map fun read => ([⟨name, .private_, false⟩], read.2) := by
  have hlength := length_identifier hname
  have hlength' := length_typeName_lt htype
  obtain ⟨_, hmodifiers', h₁⟩ := modifiersFrom_same hstop h hmodifiers (by omega)
  obtain ⟨_, htype', h₂⟩ := typeName_same hstop h₁ htype (by omega)
  obtain ⟨after', hname', h₃⟩ := identifier_same hstop h₂ hname
  refine ⟨after', h₃, ?_⟩
  apply recordComponentsFrom_component ?_ hmodifiers' htype' hname'
  rwa [h.next?_eq hstop]

theorem recordComponentsFrom_same {fields : List FieldDecl} (hstop : SameStop stop stop')
    (h : SameBefore stop stop' ts ts') (hread : recordComponentsFrom ts = .ok (fields, rest))
    (hrest : stop.length ≤ rest.length) :
    ∃ rest', recordComponentsFrom ts' = .ok (fields, rest') ∧ SameBefore stop stop' rest rest' := by
  fun_induction recordComponentsFrom ts generalizing fields rest ts' with
  | case1 ts hclose =>
      cases hread
      refine ⟨ts'.tail, ?_, h.tail hstop hclose rfl⟩
      apply recordComponentsFrom_close
      rw [h.next?_eq hstop, hclose]
  | case2 => cases hread
  | case3 => cases hread
  | case4 => cases hread
  | case5 => cases hread
  | case6 ts hclose _ _ hmodifiers _ _ htype _ after hname hcomma fields rest hfields ih =>
      cases hread
      have hlength := length_recordComponentsFrom_le hfields
      simp only [List.length_tail] at hlength
      obtain ⟨after', hafter, hsame⟩ :=
        component_same hstop h hclose hmodifiers htype hname (by omega)
      obtain ⟨rest', hfields', hrest'⟩ := ih (hafter.tail hstop hcomma rfl) hfields hrest
      refine ⟨rest', ?_, hrest'⟩
      rw [hsame, if_pos (by rwa [hafter.next?_eq hstop]), hfields']
      rfl
  | case7 => cases hread
  | case8 ts hclose _ _ hmodifiers _ _ htype _ after hname hcomma _ rest hend =>
      cases hread
      have hlength := length_expect hend
      obtain ⟨after', hafter, hsame⟩ :=
        component_same hstop h hclose hmodifiers htype hname (by omega)
      obtain ⟨rest', hend', hrest'⟩ := expect_same rfl hstop hafter hend
      refine ⟨rest', ?_, hrest'⟩
      rw [hsame, if_neg (by rwa [hafter.next?_eq hstop]), hend']
      rfl

theorem components_same {kind : TypeKind} {fields : List FieldDecl} (hstop : SameStop stop stop')
    (h : SameBefore stop stop' ts ts') (hread : components kind ts = .ok (fields, rest))
    (hrest : stop.length ≤ rest.length) :
    ∃ rest', components kind ts' = .ok (fields, rest') ∧ SameBefore stop stop' rest rest' := by
  obtain ⟨hrecord, hlist⟩ | ⟨hrecord, rfl, rfl⟩ := components_eq_ok hread
  · obtain ⟨_, hopen, hfields⟩ := recordComponents_eq_ok hlist
    obtain ⟨_, hopen', h₁⟩ := expect_same rfl hstop h hopen
    obtain ⟨rest', hfields', h₂⟩ := recordComponentsFrom_same hstop h₁ hfields hrest
    refine ⟨rest', ?_, h₂⟩
    simp only [components, if_pos hrecord, recordComponents, hopen', hfields']
  · exact ⟨ts', if_neg hrecord, h⟩

theorem superclass?_same {kind : TypeKind} {name : Option String} (hstop : SameStop stop stop')
    (h : SameBefore stop stop' ts ts') (hread : superclass? kind ts = .ok (name, rest))
    (hrest : stop.length ≤ rest.length) :
    ∃ rest', superclass? kind ts' = .ok (name, rest') ∧ SameBefore stop stop' rest rest' := by
  have hsame := h.next?_eq hstop
  obtain ⟨hextends, _, htype, rfl⟩ | ⟨hextends, rfl, rfl⟩ := superclass?_eq_ok hread
  · obtain ⟨rest', htype', hrest'⟩ := typeName_same hstop (h.tail hstop hextends.2 rfl) htype hrest
    refine ⟨rest', ?_, hrest'⟩
    simp only [superclass?, hsame, if_pos hextends, htype']
  · refine ⟨ts', ?_, h⟩
    rw [superclass?, hsame, if_neg hextends]

/-- Three tokens are looked at, the first two of which stop no reader. -/
theorem atTypeDecl_same (hstop : SameStop stop stop') (h : SameBefore stop stop' ts ts') :
    atTypeDecl ts' = atTypeDecl ts := by
  unfold atTypeDecl
  rw [h.next?_eq hstop]
  cases hnext : next? ts with
  | none => rfl
  | some token =>
      cases token with
      | atSign => rw [h.second?_eq hstop hnext rfl]
      | ident text =>
          have hsecond := h.second?_eq hstop hnext rfl
          have htail := h.tail hstop hnext rfl
          split
          · rename_i heq
            cases heq
          · rw [hsecond]
            cases hsecond' : second? ts with
            | none => rfl
            | some token =>
                cases token with
                | ident other => rw [(htail.tail hstop hsecond' rfl).next?_eq hstop]
                | _ => rfl
          · rfl
          · rfl
      | _ => rfl

theorem atDeclarator_same (hstop : SameStop stop stop') (h : SameBefore stop stop' ts ts') :
    atDeclarator ts' = atDeclarator ts := by
  unfold atDeclarator
  rw [h.next?_eq hstop]
  cases hnext : next? ts with
  | none => rfl
  | some token =>
      cases token with
      | ident text => rw [h.second?_eq hstop hnext rfl]
      | _ => rfl

theorem skipInitializer_brackets_same {opening closing : Token} {t : PlacedToken} {after : Tokens}
    (hkind : opening.partner? = some closing) (ht : t.token = opening)
    (h : SameBefore stop stop' (t :: ts) ts')
    (hskip : skipBracketed opening closing (t :: ts) = .ok after)
    (hafter : stop.length ≤ after.length) :
    ∃ after', SameBefore stop stop' after after' ∧
      skipInitializer ts' = skipInitializer after' := by
  obtain ⟨after', hskip', hsame⟩ := skipBracketed_same h hskip hafter
  have hlength := length_skipBracketed_lt hskip
  simp only [List.length_cons] at hlength
  obtain ⟨line, us, rfl, _⟩ := h.uncons_of_length (by omega)
  rw [ht] at hskip' ⊢
  exact ⟨after', hsame, skipInitializer_brackets hkind hskip'⟩

/-- A comma in an initializer is judged by the two tokens behind it. -/
theorem skipInitializer_same (hstop : SameStop stop stop') (h : SameBefore stop stop' ts ts')
    (hread : skipInitializer ts = .ok rest) (hrest : stop.length ≤ rest.length) :
    ∃ rest', skipInitializer ts' = .ok rest' ∧ SameBefore stop stop' rest rest' := by
  have hbrackets : ∀ {opening closing : Token} {t : PlacedToken} {ts ts' after : Tokens},
      opening.partner? = some closing → t.token = opening → SameBefore stop stop' (t :: ts) ts' →
      skipBracketed opening closing (t :: ts) = .ok after → skipInitializer after = .ok rest →
      (∀ {after'}, SameBefore stop stop' after after' →
        ∃ rest', skipInitializer after' = .ok rest' ∧ SameBefore stop stop' rest rest') →
      ∃ rest', skipInitializer ts' = .ok rest' ∧ SameBefore stop stop' rest rest' := by
    intro opening closing t ts ts' after hkind ht h hskip hread ih
    obtain ⟨after', hafter, hsame⟩ := skipInitializer_brackets_same hkind ht h hskip
      (Nat.le_trans hrest (length_skipInitializer_le hread))
    rw [hsame]
    exact ih hafter
  fun_induction skipInitializer ts generalizing ts' with
  | case1 => cases hread
  | case2 t ts ht =>
      cases hread
      refine ⟨ts', ?_, h⟩
      have hnext := h.next?_eq hstop
      cases ts' with
      | nil => cases hnext
      | cons t' us =>
          obtain ht' : t'.token = t.token := Option.some.inj hnext
          rw [skipInitializer]
          simp only [ht', ht]
  | case3 t ts ht hnext =>
      cases hread
      obtain ⟨_, line⟩ := t
      cases ht
      obtain ⟨line', us, rfl, hus⟩ := h.uncons hstop rfl
      refine ⟨_, ?_, h⟩
      rw [skipInitializer_comma, atDeclarator_same hstop hus, if_pos hnext]
  | case4 t ts ht hnext ih =>
      obtain ⟨_, line⟩ := t
      cases ht
      obtain ⟨line', us, rfl, hus⟩ := h.uncons hstop rfl
      rw [skipInitializer_comma, atDeclarator_same hstop hus, if_neg hnext]
      exact ih hus hread
  | case5 => cases hread
  | case6 t ts ht after hskip ih =>
      exact hbrackets rfl ht h hskip hread fun hafter => ih hafter hread
  | case7 => cases hread
  | case8 t ts ht after hskip ih =>
      exact hbrackets rfl ht h hskip hread fun hafter => ih hafter hread
  | case9 => cases hread
  | case10 t ts ht after hskip ih =>
      exact hbrackets rfl ht h hskip hread fun hafter => ih hafter hread
  | case11 t ts hsemicolon hcomma hparen hbrace hsquare ih =>
      have hlength := length_skipInitializer_le hread
      obtain ⟨line, us, rfl, hus⟩ := h.uncons_of_length (by omega)
      have hkind : t.token.partner? = none := by
        unfold Token.partner?
        split
        · exact absurd ‹_› hparen
        · exact absurd ‹_› hbrace
        · exact absurd ‹_› hsquare
        · rfl
      rw [skipInitializer_other hsemicolon hcomma hkind]
      exact ih hus hread

theorem optionalInitializer_same (hstop : SameStop stop stop') (h : SameBefore stop stop' ts ts')
    (hread : optionalInitializer ts = .ok rest) (hrest : stop.length ≤ rest.length) :
    ∃ rest', optionalInitializer ts' = .ok rest' ∧ SameBefore stop stop' rest rest' := by
  have hsame := h.next?_eq hstop
  obtain ⟨hequals, hskip⟩ | ⟨hequals, rfl⟩ := optionalInitializer_eq_ok hread
  · obtain ⟨rest', hskip', hrest'⟩ :=
      skipInitializer_same hstop (h.tail hstop hequals rfl) hskip hrest
    exact ⟨rest', by rw [optionalInitializer, if_pos (hsame.trans hequals), hskip'], hrest'⟩
  · exact ⟨ts', if_neg (by rwa [hsame]), h⟩

end WireMapper.Java
