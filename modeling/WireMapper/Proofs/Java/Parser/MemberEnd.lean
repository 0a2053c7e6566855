import WireMapper.Proofs.Java.Parser.Locality

/-!
Where a member ends. A member that is no type ends with a semicolon or with a block, and the start
of a type with the brace that opens the body or with the end of the enum's constants. Up to there
nothing depends on what comes after, so a member is read the same in front of any other tokens.
-/

namespace WireMapper.Java

variable {stop stop' ts ts' rest rest' : Tokens}

namespace SameBefore

theorem eq_of_self (h : SameBefore stop stop' stop ts') : ts' = stop' := by
  cases h with
  | here => rfl
  | cons token line line' h =>
      have hlength := h.length_le
      simp only [List.length_cons] at hlength
      omega

/-- A place on the way to the place before which the tokens are the same. -/
theorem split (h : SameBefore rest rest' ts ts') (hsuffix : stop <:+ ts)
    (hlength : rest.length ≤ stop.length) :
    ∃ stop', SameBefore stop stop' ts ts' ∧ SameBefore rest rest' stop stop' := by
  induction h with
  | here =>
      obtain rfl := hsuffix.eq_of_length_le hlength
      exact ⟨rest', here, here⟩
  | cons token line line' h ih =>
      rcases List.suffix_cons_iff.mp hsuffix with rfl | hsuffix
      · exact ⟨_, here, h.cons token line line'⟩
      · obtain ⟨stop', hstop', hrest⟩ := ih hsuffix
        exact ⟨stop', hstop'.cons token line line', hrest⟩

/-- Agreement up to one stop goes on to another one behind it. -/
theorem trans {last last' : Tokens} (h : SameBefore stop stop' ts ts')
    (hlast : SameBefore last last' stop stop') : SameBefore last last' ts ts' := by
  induction h with
  | here => exact hlast
  | cons token line line' _ ih => exact ih.cons token line line'

/-- A token with the place behind it, at which the tokens after it need not agree. -/
theorem stop_of_cons {t : PlacedToken} (h : SameBefore rest rest' (t :: ts) ts')
    (hlength : rest.length ≤ ts.length) (ht : t.token.stops = true) : SameStop (t :: ts) ts' := by
  obtain ⟨line, us, rfl, _⟩ := h.uncons_of_length hlength
  exact ⟨t.token, ht, rfl, rfl⟩

end SameBefore

theorem SameStop.length_pos (h : SameStop stop stop') : 0 < stop.length := by
  obtain ⟨token, _, hnext, _⟩ := h
  cases stop with
  | nil => cases hnext
  | cons t stop => simp

/-- The same words agree in front of anything. -/
theorem exists_sameBefore {front front' : Tokens} (h : words front' = words front)
    (rest rest' : Tokens) :
    SameBefore rest rest' (front ++ rest) (front' ++ rest') := by
  induction front generalizing front' with
  | nil =>
      obtain rfl : front' = [] := by simpa [words] using h
      exact SameBefore.here
  | cons t front ih =>
      obtain ⟨line, front', rfl, hfront⟩ := words_eq_cons h
      exact (ih hfront).cons t.token t.line line

/-- A semicolon, or a block in braces, and the tokens after it. -/
inductive Closes : Tokens → Tokens → Prop where
  | semicolon (line : Nat) (rest : Tokens) : Closes (⟨.semicolon, line⟩ :: rest) rest
  | block {ts rest : Tokens}
      (h : skipBracketed .openBrace .closeBrace ts = .ok rest) : Closes ts rest

namespace Closes

theorem length_lt (h : Closes stop rest) : rest.length < stop.length := by
  cases h with
  | semicolon line rest => simp
  | block h => exact length_skipBracketed_lt h

theorem next?_eq (h : Closes stop rest) :
    next? stop = some .semicolon ∨ next? stop = some .openBrace := by
  cases h with
  | semicolon line rest => exact Or.inl rfl
  | block h =>
      obtain ⟨_, hopen, -⟩ := skipBracketed_eq_ok h
      obtain ⟨line, rfl⟩ := expect_eq_ok hopen
      exact Or.inr rfl

theorem semicolon_eq (h : Closes stop rest) (hnext : next? stop = some .semicolon) :
    expect .semicolon stop = .ok ((), rest) := by
  cases h with
  | semicolon line rest => rfl
  | block h =>
      obtain ⟨_, hopen, -⟩ := skipBracketed_eq_ok h
      obtain ⟨line, rfl⟩ := expect_eq_ok hopen
      cases hnext

theorem block_eq (h : Closes stop rest) (hnext : next? stop = some .openBrace) :
    skipBracketed .openBrace .closeBrace stop = .ok rest := by
  cases h with
  | semicolon line rest => cases hnext
  | block h => exact h

/-- The same end in front of other tokens. -/
theorem same (h : Closes stop rest) (hsame : SameBefore rest rest' stop stop') :
    Closes stop' rest' := by
  cases h with
  | semicolon line rest =>
      obtain ⟨line', us, rfl, hus⟩ := hsame.uncons_of_length (Nat.le_refl _)
      obtain rfl := hus.eq_of_self
      exact semicolon line' _
  | block h =>
      obtain ⟨us, hus, hrest⟩ := skipBracketed_same hsame h (Nat.le_refl _)
      obtain rfl := hrest.eq_of_self
      exact block hus

/-- What closes a member starts with a token that stops readers. -/
theorem sameStop (h : Closes stop rest) (hsame : SameBefore rest rest' stop stop') :
    SameStop stop stop' := by
  have hlength := h.length_lt
  cases stop with
  | nil => simp at hlength
  | cons t ts =>
      refine hsame.stop_of_cons (by simp only [List.length_cons] at hlength; omega) ?_
      rcases h.next?_eq with hnext | hnext
      · obtain ht : t.token = .semicolon := Option.some.inj hnext
        rw [ht]
        rfl
      · obtain ht : t.token = .openBrace := Option.some.inj hnext
        rw [ht]
        rfl

end Closes

/-- A reading that goes on to `stop`, takes what ends a member there, and leaves `rest`. It does so
with any tokens that are the same up to and including the first of `stop`. -/
structure StopsAt (Read : Tokens → Tokens → Prop) (ts stop rest : Tokens) : Prop where
  suffix : stop <:+ ts
  closes : Closes stop rest
  again : ∀ {stop' ts' rest'}, SameStop stop stop' → SameBefore stop stop' ts ts' →
    Closes stop' rest' → Read ts' rest'

/-- Such a reading takes the same tokens in front of any others. -/
theorem StopsAt.same {Read : Tokens → Tokens → Prop} (h : StopsAt Read ts stop rest)
    (hsame : SameBefore rest rest' ts ts') : Read ts' rest' := by
  obtain ⟨stop', hts, hstop⟩ := hsame.split h.suffix (Nat.le_of_lt h.closes.length_lt)
  exact h.again (h.closes.sameStop hstop) hts (h.closes.same hstop)

theorem methodRest_of_closes (h : Closes ts rest) : methodRest ts = .ok rest := by
  have hlength := h.length_lt
  cases ts with
  | nil => simp at hlength
  | cons t ts =>
      rw [methodRest]
      rcases h.next?_eq with hnext | hnext
      · have hend := h.semicolon_eq hnext
        obtain ht : t.token = .semicolon := Option.some.inj hnext
        simp only [expect, hnext, ↓reduceIte, List.tail_cons] at hend
        cases hend
        simp only [ht]
      · obtain ht : t.token = .openBrace := Option.some.inj hnext
        simp only [ht]
        exact h.block_eq hnext

/-- The rest of a method stops at its semicolon or at its block. -/
theorem methodRest_stopsAt (h : methodRest ts = .ok rest) :
    ∃ stop, StopsAt (fun ts rest => methodRest ts = .ok rest) ts stop rest := by
  fun_induction methodRest ts with
  | case1 => cases h
  | case2 t ts ht =>
      cases h
      obtain ⟨_, line⟩ := t
      cases ht
      refine ⟨_, List.suffix_rfl, Closes.semicolon line _, ?_⟩
      intro stop' ts' rest' _ hts hclose
      obtain rfl := hts.eq_of_self
      exact methodRest_of_closes hclose
  | case3 t ts ht =>
      refine ⟨_, List.suffix_rfl, Closes.block h, ?_⟩
      intro stop' ts' rest' _ hts hclose
      obtain rfl := hts.eq_of_self
      exact methodRest_of_closes hclose
  | case4 => cases h
  | case5 t ts ht after hskip ih =>
      obtain ⟨stop, hstop⟩ := ih h
      refine ⟨stop, hstop.suffix.trans (skipBracketed_suffix hskip), hstop.closes, ?_⟩
      intro stop' ts' rest' hsame hts hclose
      obtain ⟨after', hskip', hafter⟩ := skipBracketed_same hts hskip hstop.suffix.length_le
      obtain ⟨_, line⟩ := t
      cases ht
      have hlength := length_skipBracketed_lt hskip
      have hlength' := hstop.suffix.length_le
      obtain ⟨_, us, rfl, _⟩ :=
        hts.uncons_of_length (by simp only [List.length_cons] at hlength; omega)
      rw [methodRest_parens hskip']
      exact hstop.again hsame hafter hclose
  | case6 t ts hsemicolon hbrace hparen ih =>
      obtain ⟨stop, hstop⟩ := ih h
      refine ⟨stop, hstop.suffix.trans (List.suffix_cons _ _), hstop.closes, ?_⟩
      intro stop' ts' rest' hsame hts hclose
      obtain ⟨line, us, rfl, hus⟩ := hts.uncons_of_length hstop.suffix.length_le
      rw [methodRest_other hsemicolon hparen hbrace]
      exact hstop.again hsame hus hclose

theorem method_stopsAt (h : method ts = .ok rest) :
    ∃ stop, StopsAt (fun ts rest => method ts = .ok rest) ts stop rest := by
  obtain ⟨after, hparameters, hrest⟩ := method_eq_ok h
  obtain ⟨stop, hstop⟩ := methodRest_stopsAt hrest
  refine ⟨stop, hstop.suffix.trans (skipBracketed_suffix hparameters), hstop.closes, ?_⟩
  intro stop' ts' rest' hsame hts hclose
  obtain ⟨after', hparameters', hafter⟩ := skipBracketed_same hts hparameters hstop.suffix.length_le
  simp only [method, hparameters']
  exact hstop.again hsame hafter hclose

/-- The names of a declaration stop at its semicolon. -/
theorem declarators_stopsAt {name : String} {names : List String}
    (h : declarators name ts = .ok (names, rest)) :
    ∃ stop, StopsAt (fun ts rest => declarators name ts = .ok (names, rest)) ts stop rest ∧
      next? stop = some .semicolon := by
  fun_induction declarators name ts generalizing names rest with
  | case1 => cases h
  | case2 => cases h
  | case3 => cases h
  | case4 name ts after hafter hcomma next later hnext names rest hnames ih =>
      cases h
      obtain ⟨stop, hstop, hsemicolon⟩ := ih hnames
      have hlater := hstop.suffix.trans (identifier_suffix hnext)
      have hwhole := hlater.trans (List.tail_suffix _)
      refine ⟨stop, ⟨?_, hstop.closes, ?_⟩, hsemicolon⟩
      · exact (hwhole.trans (optionalInitializer_suffix hafter)).trans (skipDimensions_suffix ts)
      intro stop' ts' rest' hsame hts hclose
      obtain ⟨after', hafter', h₁⟩ := optionalInitializer_same hsame (skipDimensions_same hsame hts)
        hafter hwhole.length_le
      obtain ⟨later', hnext', h₂⟩ := identifier_same hsame (h₁.tail hsame hcomma rfl) hnext
      rw [declarators_comma hafter' (by rwa [h₁.next?_eq hsame]) hnext',
        hstop.again hsame h₂ hclose]
      rfl
  | case5 => cases h
  | case6 name ts after hafter hcomma u rest hend =>
      cases h
      obtain ⟨line, rfl⟩ := expect_eq_ok hend
      refine ⟨⟨.semicolon, line⟩ :: rest, ⟨?_, Closes.semicolon line rest, ?_⟩, rfl⟩
      · exact (optionalInitializer_suffix hafter).trans (skipDimensions_suffix ts)
      intro stop' ts' rest' hsame hts hclose
      obtain ⟨after', hafter', h₁⟩ := optionalInitializer_same hsame (skipDimensions_same hsame hts)
        hafter (Nat.le_refl _)
      obtain rfl := h₁.eq_of_self
      obtain ⟨token, _, hnext, hnext'⟩ := hsame
      cases hnext
      rw [declarators_end hafter' (by rw [hnext']; simp), hclose.semicolon_eq hnext']
      rfl

/-- The type parameters and the type that a method or a declaration starts with. -/
theorem parametersAndType_same {type : String} {ts₁ ts₂ : Tokens} (hstop : SameStop stop stop')
    (h : SameBefore stop stop' ts ts') (hparameters : skipOptional .less .greater ts = .ok ts₁)
    (htype : typeName ts₁ = .ok (type, ts₂)) (hlength : stop.length ≤ ts₂.length) :
    ∃ ts₁' ts₂', skipOptional .less .greater ts' = .ok ts₁' ∧ typeName ts₁' = .ok (type, ts₂') ∧
      SameBefore stop stop' ts₂ ts₂' := by
  have htyped := (typeName_suffix htype).length_le
  obtain ⟨ts₁', hparameters', h₁⟩ := skipOptional_same hstop h hparameters (by omega)
  obtain ⟨ts₂', htype', h₂⟩ := typeName_same hstop h₁ htype hlength
  exact ⟨ts₁', ts₂', hparameters', htype', h₂⟩

/-- What stops at a block is a method or a constructor. -/
theorem methodOrFields_stopsAt {kind : TypeKind} {m : Modifiers} {fields : List FieldDecl}
    (h : methodOrFields kind m ts = .ok (fields, rest)) :
    ∃ stop, StopsAt (fun ts rest => methodOrFields kind m ts = .ok (fields, rest)) ts stop rest ∧
      (next? stop = some .openBrace → fields = []) := by
  cases methodOrFields_eq_ok_iff.mp h with
  | constructor hparameters htype hparen hmethod =>
      obtain ⟨stop, hstop⟩ := method_stopsAt hmethod
      have htyped := (typeName_suffix htype).trans (skipOptional_suffix hparameters)
      refine ⟨stop, ⟨hstop.suffix.trans htyped, hstop.closes, ?_⟩, fun _ => rfl⟩
      intro stop' ts' rest' hsame hts hclose
      obtain ⟨_, _, hparameters', htype', h₂⟩ :=
        parametersAndType_same hsame hts hparameters htype hstop.suffix.length_le
      exact methodOrFields_eq_ok_iff.mpr (.constructor hparameters' htype'
        ((h₂.next?_eq hsame).trans hparen) (hstop.again hsame h₂ hclose))
  | method hparameters htype hbare hname hparen hmethod =>
      obtain ⟨stop, hstop⟩ := method_stopsAt hmethod
      have hnamed := hstop.suffix.trans (identifier_suffix hname)
      have htyped := (typeName_suffix htype).trans (skipOptional_suffix hparameters)
      refine ⟨stop, ⟨hnamed.trans htyped, hstop.closes, ?_⟩, fun _ => rfl⟩
      intro stop' ts' rest' hsame hts hclose
      obtain ⟨_, _, hparameters', htype', h₂⟩ :=
        parametersAndType_same hsame hts hparameters htype hnamed.length_le
      obtain ⟨_, hname', h₃⟩ := identifier_same hsame h₂ hname
      exact methodOrFields_eq_ok_iff.mpr
        (.method hparameters' htype' (by rwa [h₂.next?_eq hsame]) hname'
        ((h₃.next?_eq hsame).trans hparen) (hstop.again hsame h₃ hclose))
  | fields hparameters htype hbare hname hparen hnames =>
      obtain ⟨stop, hstop, hsemicolon⟩ := declarators_stopsAt hnames
      have hnamed := hstop.suffix.trans (identifier_suffix hname)
      have htyped := (typeName_suffix htype).trans (skipOptional_suffix hparameters)
      refine ⟨stop, ⟨hnamed.trans htyped, hstop.closes, ?_⟩, fun hbrace => ?_⟩
      · intro stop' ts' rest' hsame hts hclose
        obtain ⟨_, _, hparameters', htype', h₂⟩ :=
          parametersAndType_same hsame hts hparameters htype hnamed.length_le
        obtain ⟨_, hname', h₃⟩ := identifier_same hsame h₂ hname
        exact methodOrFields_eq_ok_iff.mpr
          (.fields hparameters' htype' (by rwa [h₂.next?_eq hsame]) hname'
          (by rwa [h₃.next?_eq hsame]) (hstop.again hsame h₃ hclose))
      · rw [hsemicolon] at hbrace
        cases hbrace

theorem openBody_same {name : String} (h : SameBefore rest rest' ts ts')
    (hread : openBody name ts = .ok rest) : openBody name ts' = .ok rest' := by
  fun_induction openBody name ts generalizing ts' with
  | case1 => cases hread
  | case2 t ts ht =>
      cases hread
      obtain ⟨line, us, rfl, hus⟩ := h.uncons_of_length (Nat.le_refl _)
      rw [openBody, if_pos ht, hus.eq_of_self]
  | case3 t ts ht ih =>
      obtain ⟨line, us, rfl, hus⟩ := h.uncons_of_length (length_openBody_le hread)
      rw [openBody, if_neg ht]
      exact ih hus hread

/-- The brace that opens a body. -/
theorem exists_openBrace {name : String} (h : openBody name ts = .ok rest) :
    ∃ line, ⟨.openBrace, line⟩ :: rest <:+ ts := by
  fun_induction openBody name ts with
  | case1 => cases h
  | case2 t ts ht =>
      cases h
      obtain ⟨_, line⟩ := t
      cases ht
      exact ⟨line, List.suffix_rfl⟩
  | case3 t ts ht ih =>
      obtain ⟨line, hsuffix⟩ := ih h
      exact ⟨line, hsuffix.trans (List.suffix_cons _ _)⟩

theorem enumConstants_same {closed : Bool} (h : SameBefore rest rest' ts ts')
    (hread : enumConstants ts = .ok (closed, rest)) : enumConstants ts' = .ok (closed, rest') := by
  have hbrackets : ∀ {opening closing : Token} {t : PlacedToken} {ts ts' after : Tokens},
      opening.partner? = some closing → opening ≠ .openBracket → t.token = opening →
      SameBefore rest rest' (t :: ts) ts' → skipBracketed opening closing (t :: ts) = .ok after →
      enumConstants after = .ok (closed, rest) →
      (∀ {after'}, SameBefore rest rest' after after' →
        enumConstants after' = .ok (closed, rest')) →
      enumConstants ts' = .ok (closed, rest') := by
    intro opening closing t ts ts' after hkind hsquare ht h hskip hread ih
    have hlength := length_skipBracketed_lt hskip
    have hlength' := length_enumConstants_le hread
    obtain ⟨after', hskip', hafter⟩ := skipBracketed_same h hskip hlength'
    simp only [List.length_cons] at hlength
    obtain ⟨line, us, rfl, _⟩ := h.uncons_of_length (by omega)
    rw [ht] at hskip' ⊢
    rw [enumConstants_brackets hkind hsquare hskip']
    exact ih hafter
  fun_induction enumConstants ts generalizing ts' with
  | case1 => cases hread
  | case2 t ts ht =>
      cases hread
      obtain ⟨line, us, rfl, hus⟩ := h.uncons_of_length (Nat.le_refl _)
      rw [ht, enumConstants, hus.eq_of_self]
  | case3 t ts ht =>
      cases hread
      obtain ⟨line, us, rfl, hus⟩ := h.uncons_of_length (Nat.le_refl _)
      rw [ht, enumConstants, hus.eq_of_self]
  | case4 => cases hread
  | case5 t ts ht after hskip ih =>
      exact hbrackets rfl (by simp) ht h hskip hread fun hafter => ih hafter hread
  | case6 => cases hread
  | case7 t ts ht after hskip ih =>
      exact hbrackets rfl (by simp) ht h hskip hread fun hafter => ih hafter hread
  | case8 t ts hsemicolon hclose hparen hbrace ih =>
      obtain ⟨line, us, rfl, hus⟩ := h.uncons_of_length (length_enumConstants_le hread)
      rw [enumConstants_other hsemicolon hclose hparen hbrace]
      exact ih hus hread

theorem typeKind_same {kind : TypeKind} (hstop : SameStop stop stop')
    (h : SameBefore stop stop' ts ts') (hread : typeKind ts = .ok (kind, rest))
    (hrest : stop.length ≤ rest.length) :
    ∃ rest', typeKind ts' = .ok (kind, rest') ∧ SameBefore stop stop' rest rest' := by
  obtain ⟨word, line, rfl, hword⟩ | ⟨line, after, rfl, rfl, rfl⟩ := typeKind_eq_ok hread
  · obtain ⟨line', us, rfl, hus⟩ := h.uncons_of_length hrest
    exact ⟨us, by simp only [typeKind, hword], hus⟩
  · cases after with
    | nil => exact absurd hstop.length_pos (by simpa using hrest)
    | cons second after =>
        obtain ⟨_, us, rfl, hus⟩ := h.uncons_of_length (Nat.le_succ_of_le hrest)
        obtain ⟨_, us, rfl, hsame⟩ := hus.uncons_of_length hrest
        exact ⟨us, rfl, hsame⟩

/-- Takes a type declaration up to what comes before its body. -/
def typeHead (ts : Tokens) : Reading TypeStart :=
  match typeKind ts with
  | .error e => .error e
  | .ok (kind, ts) =>
    match identifier ts with
    | .error e => .error e
    | .ok (name, ts) =>
      match skipOptional .less .greater ts with
      | .error e => .error e
      | .ok ts =>
        match components kind ts with
        | .error e => .error e
        | .ok (fields, ts) =>
          match superclass? kind ts with
          | .error e => .error e
          | .ok (superclass, ts) => .ok (⟨kind, name, superclass, fields⟩, ts)

/-- Takes the brace that opens a body and, in an enum, the constants. The flag says that the body
ended with them. -/
def bodyStart (start : TypeStart) (ts : Tokens) : Reading Bool :=
  match openBody start.name ts with
  | .error e => .error e
  | .ok ts => if start.kind = .enum then enumConstants ts else .ok (false, ts)

/-- The start of a declaration is read in two parts: what stands before the brace, and the brace
with the constants of an enum. -/
theorem typeStart_eq (ts : Tokens) :
    typeStart ts =
      match typeHead ts with
      | .error e => .error e
      | .ok (start, ts) => (bodyStart start ts).map fun read => ((start, read.1), read.2) := by
  unfold typeStart typeHead bodyStart
  cases typeKind ts with
  | error e => rfl
  | ok read =>
  obtain ⟨kind, ts⟩ := read
  dsimp only
  cases identifier ts with
  | error e => rfl
  | ok read =>
  obtain ⟨name, ts⟩ := read
  dsimp only
  cases skipOptional .less .greater ts with
  | error e => rfl
  | ok ts =>
  dsimp only
  cases components kind ts with
  | error e => rfl
  | ok read =>
  obtain ⟨fields, ts⟩ := read
  dsimp only
  cases superclass? kind ts with
  | error e => rfl
  | ok read =>
  obtain ⟨superclass, ts⟩ := read
  dsimp only
  cases openBody name ts with
  | error e => rfl
  | ok ts =>
  dsimp only
  by_cases henum : kind = .enum
  · simp only [if_pos henum]
    cases enumConstants ts <;> rfl
  · simp only [if_neg henum]
    rfl

/-- The readings that a head is made of, in order. -/
theorem typeHead_eq_ok {start : TypeStart} (h : typeHead ts = .ok (start, rest)) :
    ∃ ts₁ ts₂ ts₃ ts₄, typeKind ts = .ok (start.kind, ts₁) ∧
      identifier ts₁ = .ok (start.name, ts₂) ∧
      skipOptional .less .greater ts₂ = .ok ts₃ ∧
      components start.kind ts₃ = .ok (start.components, ts₄) ∧
      superclass? start.kind ts₄ = .ok (start.superclass?, rest) := by
  unfold typeHead at h
  split at h
  · cases h
  rename_i hkind
  split at h
  · cases h
  rename_i hname
  split at h
  · cases h
  rename_i hparameters
  split at h
  · cases h
  rename_i hcomponents
  split at h
  · cases h
  rename_i hsuper
  cases h
  exact ⟨_, _, _, _, hkind, hname, hparameters, hcomponents, hsuper⟩

theorem typeHead_same {start : TypeStart} (hstop : SameStop stop stop')
    (h : SameBefore stop stop' ts ts') (hread : typeHead ts = .ok (start, rest))
    (hrest : stop.length ≤ rest.length) :
    ∃ rest', typeHead ts' = .ok (start, rest') ∧ SameBefore stop stop' rest rest' := by
  obtain ⟨_, _, _, _, hkind, hname, hparameters, hcomponents, hsuper⟩ := typeHead_eq_ok hread
  have hlength₃ := length_superclass?_le hsuper
  have hlength₂ := length_components_le hcomponents
  have hlength₁ := length_skipOptional_le hparameters
  have hlength := length_identifier hname
  obtain ⟨_, hkind', h₁⟩ := typeKind_same hstop h hkind (by omega)
  obtain ⟨_, hname', h₂⟩ := identifier_same hstop h₁ hname
  obtain ⟨_, hparameters', h₃⟩ := skipOptional_same hstop h₂ hparameters (by omega)
  obtain ⟨_, hcomponents', h₄⟩ := components_same hstop h₃ hcomponents (by omega)
  obtain ⟨rest', hsuper', h₅⟩ := superclass?_same hstop h₄ hsuper hrest
  exact ⟨rest', by simp only [typeHead, hkind', hname', hparameters', hcomponents', hsuper'], h₅⟩

theorem typeHead_suffix {start : TypeStart} (h : typeHead ts = .ok (start, rest)) :
    rest <:+ ts := by
  obtain ⟨ts₁, ts₂, ts₃, ts₄, hkind, hname, hparameters, hcomponents, hsuper⟩ := typeHead_eq_ok h
  calc rest
      <:+ ts₄ := superclass?_suffix hsuper
    _ <:+ ts₃ := components_suffix hcomponents
    _ <:+ ts₂ := skipOptional_suffix hparameters
    _ <:+ ts₁ := identifier_suffix hname
    _ <:+ ts := typeKind_suffix hkind

theorem bodyStart_eq_ok {start : TypeStart} {closed : Bool}
    (h : bodyStart start ts = .ok (closed, rest)) :
    ∃ after, openBody start.name ts = .ok after ∧
      (start.kind = .enum ∧ enumConstants after = .ok (closed, rest) ∨
        start.kind ≠ .enum ∧ closed = false ∧ rest = after) := by
  unfold bodyStart at h
  split at h
  · cases h
  rename_i after hopen
  refine ⟨after, hopen, ?_⟩
  split at h
  · rename_i henum
    exact .inl ⟨henum, h⟩
  · rename_i henum
    cases h
    exact .inr ⟨henum, rfl, rfl⟩

theorem bodyStart_same {start : TypeStart} {closed : Bool} (h : SameBefore rest rest' ts ts')
    (hread : bodyStart start ts = .ok (closed, rest)) :
    bodyStart start ts' = .ok (closed, rest') := by
  obtain ⟨after, hopen, ⟨henum, hconstants⟩ | ⟨henum, rfl, rfl⟩⟩ := bodyStart_eq_ok hread
  · obtain ⟨after', hts, hafter⟩ :=
      h.split (openBody_suffix hopen) (length_enumConstants_le hconstants)
    simp only [bodyStart, openBody_same hts hopen, if_pos henum]
    exact enumConstants_same hafter hconstants
  · simp only [bodyStart, openBody_same h hopen, if_neg henum]

/-- The brace that opens a body is on the way to its members. -/
theorem exists_openBrace_of_bodyStart {start : TypeStart} {closed : Bool}
    (hread : bodyStart start ts = .ok (closed, rest)) :
    ∃ line after, ⟨.openBrace, line⟩ :: after <:+ ts ∧ rest.length ≤ after.length := by
  obtain ⟨after, hopen, hafter⟩ := bodyStart_eq_ok hread
  obtain ⟨line, hbrace⟩ := exists_openBrace hopen
  refine ⟨line, after, hbrace, ?_⟩
  obtain ⟨-, hconstants⟩ | ⟨-, -, rfl⟩ := hafter
  · exact length_enumConstants_le hconstants
  · exact Nat.le_refl _

theorem typeStart_eq_ok_iff {start : TypeStart} {closed : Bool} :
    typeStart ts = .ok ((start, closed), rest) ↔
      ∃ after, typeHead ts = .ok (start, after) ∧ bodyStart start after = .ok (closed, rest) := by
  rw [typeStart_eq]
  constructor
  · intro h
    split at h
    · cases h
    rename_i start' after hhead
    obtain ⟨read, hbody, hsame⟩ := map_eq_ok.mp h
    cases hsame
    exact ⟨after, hhead, hbody⟩
  · rintro ⟨after, hhead, hbody⟩
    simp only [hhead, hbody, Except.map]

/-- The brace that opens the body is on the way. -/
theorem typeStart_stop {start : TypeStart} {closed : Bool}
    (hread : typeStart ts = .ok ((start, closed), rest)) :
    ∃ line after, ⟨.openBrace, line⟩ :: after <:+ ts ∧ rest.length ≤ after.length := by
  obtain ⟨before, hhead, hbody⟩ := typeStart_eq_ok_iff.mp hread
  obtain ⟨line, after, hsuffix, hlength⟩ := exists_openBrace_of_bodyStart hbody
  exact ⟨line, after, hsuffix.trans (typeHead_suffix hhead), hlength⟩

/-- The place of the brace that opens the body, which stops the readers before it. -/
theorem SameBefore.split_openBrace {line : Nat} {after : Tokens} (h : SameBefore rest rest' ts ts')
    (hsuffix : ⟨.openBrace, line⟩ :: after <:+ ts) (hlength : rest.length ≤ after.length) :
    ∃ stop', SameStop (⟨.openBrace, line⟩ :: after) stop' ∧
      SameBefore (⟨.openBrace, line⟩ :: after) stop' ts ts' ∧
      SameBefore rest rest' (⟨.openBrace, line⟩ :: after) stop' := by
  obtain ⟨stop', hts, hrest⟩ := h.split hsuffix (by simp only [List.length_cons]; omega)
  exact ⟨stop', hrest.stop_of_cons hlength rfl, hts, hrest⟩

/-- The start of a type is read the same wherever its members begin. -/
theorem typeStart_same {start : TypeStart} {closed : Bool} (h : SameBefore rest rest' ts ts')
    (hread : typeStart ts = .ok ((start, closed), rest)) :
    typeStart ts' = .ok ((start, closed), rest') := by
  obtain ⟨before, hhead, hbody⟩ := typeStart_eq_ok_iff.mp hread
  obtain ⟨line, after, hsuffix, hlength⟩ := exists_openBrace_of_bodyStart hbody
  obtain ⟨stop', hstop, hts, hrest⟩ :=
    h.split_openBrace (hsuffix.trans (typeHead_suffix hhead)) hlength
  obtain ⟨before', hhead', hbefore⟩ := typeHead_same hstop hts hhead hsuffix.length_le
  exact typeStart_eq_ok_iff.mpr ⟨before', hhead', bodyStart_same (hbefore.trans hrest) hbody⟩

theorem atBlock_same {name : String} (hstop : SameStop stop stop')
    (h : SameBefore stop stop' ts ts') :
    (next? ts' = some (.ident name) ∧ second? ts' = some .openBrace) ↔
      (next? ts = some (.ident name) ∧ second? ts = some .openBrace) := by
  rw [h.next?_eq hstop]
  exact and_congr_right fun hnext => by rw [h.second?_eq hstop hnext rfl]

/-- A member that is no type stops at a semicolon or at a block, and with a block it adds nothing.
-/
theorem member_stopsAt {kind : TypeKind} {name : String} {fields : List FieldDecl}
    (h : member kind name ts = .ok (.fields fields, rest)) :
    ∃ stop, StopsAt (fun ts rest => member kind name ts = .ok (.fields fields, rest)) ts stop rest ∧
      (next? stop = some .openBrace → fields = []) := by
  cases member_eq_ok_iff.mp h with
  | @initializer m ts₁ hmodifiers hbrace hblock =>
      refine ⟨ts₁, ⟨modifiers_suffix hmodifiers, Closes.block hblock, ?_⟩, fun _ => rfl⟩
      intro stop' ts' rest' hsame hts hclose
      obtain ⟨ts₁', hmodifiers', h₁⟩ := modifiersFrom_same hsame hts hmodifiers (Nat.le_refl _)
      have hbrace' := (h₁.next?_eq hsame).trans hbrace
      obtain rfl := h₁.eq_of_self
      exact member_eq_ok_iff.mpr (.initializer hmodifiers' hbrace' (hclose.block_eq hbrace'))
  | @compact m ts₁ hmodifiers hbrace hcompact hblock =>
      have htail := List.tail_suffix ts₁
      refine ⟨ts₁.tail, ⟨htail.trans (modifiers_suffix hmodifiers), Closes.block hblock, ?_⟩,
        fun _ => rfl⟩
      intro stop' ts' rest' hsame hts hclose
      obtain ⟨ts₁', hmodifiers', h₁⟩ := modifiersFrom_same hsame hts hmodifiers htail.length_le
      have hcompact' := (atBlock_same hsame h₁).mpr hcompact.2
      have hstop : ts₁'.tail = stop' := (h₁.tail hsame hcompact.2.1 rfl).eq_of_self
      have hblock' : skipBracketed .openBrace .closeBrace ts₁'.tail = .ok rest' := by
        rw [hstop]
        apply hclose.block_eq
        rw [← hstop]
        exact hcompact'.2
      exact member_eq_ok_iff.mpr (.compact hmodifiers' (by rwa [h₁.next?_eq hsame])
        ⟨hcompact.1, hcompact'⟩ hblock')
  | fields hmodifiers hbrace hcompact hdecl hfields =>
      obtain ⟨stop, hstop, hempty⟩ := methodOrFields_stopsAt hfields
      refine ⟨stop, ⟨hstop.suffix.trans (modifiers_suffix hmodifiers), hstop.closes, ?_⟩, hempty⟩
      intro stop' ts' rest' hsame hts hclose
      obtain ⟨ts₁', hmodifiers', h₁⟩ :=
        modifiersFrom_same hsame hts hmodifiers hstop.suffix.length_le
      exact member_eq_ok_iff.mpr (.fields hmodifiers' (by rwa [h₁.next?_eq hsame])
        (mt (And.imp_right (atBlock_same hsame h₁).mp) hcompact) (by rwa [atTypeDecl_same hsame h₁])
        (hstop.again hsame h₁ hclose))

/-- The start of a nested type is a member that is read the same in front of any other tokens. -/
theorem member_type_same {kind : TypeKind} {name : String} {start : TypeStart} {closed : Bool}
    (h : SameBefore rest rest' ts ts')
    (hread : member kind name ts = .ok (.type start closed, rest)) :
    member kind name ts' = .ok (.type start closed, rest') := by
  cases member_eq_ok_iff.mp hread with
  | type hmodifiers hbrace hcompact hdecl hstart =>
      obtain ⟨line, after, hsuffix, hlength⟩ := typeStart_stop hstart
      obtain ⟨stop', hstop, hts, hrest⟩ :=
        h.split_openBrace (hsuffix.trans (modifiers_suffix hmodifiers)) hlength
      obtain ⟨ts₁', hmodifiers', h₁⟩ := modifiersFrom_same hstop hts hmodifiers hsuffix.length_le
      exact member_eq_ok_iff.mpr (.type hmodifiers' (by rwa [h₁.next?_eq hstop])
        (mt (And.imp_right (atBlock_same hstop h₁).mp) hcompact) (by rwa [atTypeDecl_same hstop h₁])
        (typeStart_same (h₁.trans hrest) hstart))

/-- A member is read by itself. Whatever comes after it, and on whatever lines it stands, the same
tokens are taken and the same is read from them. -/
theorem member_same {kind : TypeKind} {name : String} {m : Member}
    (h : SameBefore rest rest' ts ts') (hread : member kind name ts = .ok (m, rest)) :
    member kind name ts' = .ok (m, rest') := by
  cases m with
  | fields fields =>
      obtain ⟨stop, hstop, _⟩ := member_stopsAt hread
      exact hstop.same h
  | type start closed => exact member_type_same h hread

end WireMapper.Java
