import Mathlib.Data.List.Infix
import WireMapper.Proofs.Java.Parser.Suffix
import WireMapper.Proofs.Java.Print.Reading

/-!
Bracketed stretches. Brackets of one kind balance if every front part has at most as many closing
ones as opening ones and the whole has as many. That is what skipping passes over, and a closing
bracket that ends a balanced stretch has only one partner.
-/

namespace WireMapper.Java

variable {opening closing : Token} {depth : Nat} {t : Token} {tokens : List Token}
    {ts rest : Tokens}

theorem words_append (front rest : Tokens) : words (front ++ rest) = words front ++ words rest := by
  simp [words]

def placed (tokens : List Token) : Tokens :=
  tokens.map (⟨·, 1⟩)

theorem words_placed (tokens : List Token) : words (placed tokens) = tokens := by
  simp [words, placed, Function.comp_def]

/-- Some tokens with the words of two stretches, cut between them. -/
theorem exists_append_of_words {front back : List Token} (h : words ts = front ++ back) :
    ∃ ts₁ ts₂, ts = ts₁ ++ ts₂ ∧ words ts₁ = front ∧ words ts₂ = back := by
  obtain ⟨ts₁, ts₂, rfl, hfront, hback⟩ := List.map_eq_append_iff.mp h
  exact ⟨ts₁, ts₂, rfl, hfront, hback⟩

/-- Tokens that close `depth` brackets which were opened before them, and otherwise only brackets of
their own. Brackets of other kinds do not count. -/
structure Unwinds (opening closing : Token) (depth : Nat) (tokens : List Token) : Prop where
  front : ∀ part, part <+: tokens → part.count closing ≤ depth + part.count opening
  whole : tokens.count closing = depth + tokens.count opening

abbrev Balanced (opening closing : Token) (tokens : List Token) : Prop :=
  Unwinds opening closing 0 tokens

instance : Decidable (Unwinds opening closing depth tokens) :=
  decidable_of_iff
    ((∀ part ∈ tokens.inits, part.count closing ≤ depth + part.count opening) ∧
      tokens.count closing = depth + tokens.count opening)
    ⟨fun ⟨hfront, hwhole⟩ =>
        ⟨fun part hpart => hfront part ((List.mem_inits _ _).mpr hpart), hwhole⟩,
      fun ⟨hfront, hwhole⟩ =>
        ⟨fun part hpart => hfront part ((List.mem_inits _ _).mp hpart), hwhole⟩⟩

theorem unwinds_nil_iff : Unwinds opening closing depth [] ↔ depth = 0 := by
  constructor
  · intro h
    have hwhole := h.whole
    simp only [List.count_nil, Nat.add_zero] at hwhole
    exact hwhole.symm
  · rintro rfl
    exact ⟨fun part hpart => by rw [List.prefix_nil.mp hpart]; simp, by simp⟩

theorem unwinds_cons_iff : Unwinds opening closing depth (t :: tokens) ↔
    (∀ part, part <+: tokens → (t :: part).count closing ≤ depth + (t :: part).count opening) ∧
      (t :: tokens).count closing = depth + (t :: tokens).count opening := by
  constructor
  · rintro ⟨hfront, hwhole⟩
    exact ⟨fun part hpart => hfront _ ((List.prefix_cons_inj t).mpr hpart), hwhole⟩
  · rintro ⟨hfront, hwhole⟩
    refine ⟨fun part hpart => ?_, hwhole⟩
    rcases List.prefix_cons_iff.mp hpart with rfl | ⟨part', rfl, hpart'⟩
    · simp
    · exact hfront part' hpart'

theorem unwinds_opening_iff (hne : opening ≠ closing) :
    Unwinds opening closing depth (opening :: tokens) ↔
      Unwinds opening closing (depth + 1) tokens := by
  simp only [unwinds_cons_iff, List.count_cons_self, List.count_cons_of_ne hne]
  constructor
  · rintro ⟨hfront, hwhole⟩
    exact ⟨fun part hpart => by have := hfront part hpart; omega, by omega⟩
  · rintro ⟨hfront, hwhole⟩
    exact ⟨fun part hpart => by have := hfront part hpart; omega, by omega⟩

theorem unwinds_closing_iff (hne : opening ≠ closing) :
    Unwinds opening closing depth (closing :: tokens) ↔
      ∃ inner, depth = inner + 1 ∧ Unwinds opening closing inner tokens := by
  simp only [unwinds_cons_iff, List.count_cons_self, List.count_cons_of_ne hne.symm]
  constructor
  · rintro ⟨hfront, hwhole⟩
    have hfirst := hfront [] List.nil_prefix
    simp only [List.count_nil] at hfirst
    refine ⟨depth - 1, by omega, fun part hpart => ?_, by omega⟩
    have := hfront part hpart
    omega
  · rintro ⟨inner, rfl, hfront, hwhole⟩
    exact ⟨fun part hpart => by have := hfront part hpart; omega, by omega⟩

theorem unwinds_other_iff (hopening : t ≠ opening) (hclosing : t ≠ closing) :
    Unwinds opening closing depth (t :: tokens) ↔ Unwinds opening closing depth tokens := by
  simp only [unwinds_cons_iff, List.count_cons_of_ne hopening, List.count_cons_of_ne hclosing]
  exact ⟨fun ⟨hfront, hwhole⟩ => ⟨hfront, hwhole⟩, fun ⟨hfront, hwhole⟩ => ⟨hfront, hwhole⟩⟩

theorem exists_inner_cons {placed : PlacedToken} :
    (∃ inner line, placed :: ts = inner ++ ⟨closing, line⟩ :: rest ∧
        Unwinds opening closing depth (words inner)) ↔
      (placed.token = closing ∧ ts = rest ∧ depth = 0) ∨
        ∃ inner line, ts = inner ++ ⟨closing, line⟩ :: rest ∧
          Unwinds opening closing depth (placed.token :: words inner) := by
  constructor
  · rintro ⟨inner, line, hsplit, hinner⟩
    cases inner with
    | nil =>
        cases hsplit
        exact Or.inl ⟨rfl, rfl, unwinds_nil_iff.mp hinner⟩
    | cons first inner =>
        cases hsplit
        exact Or.inr ⟨inner, line, rfl, hinner⟩
  · rintro (⟨rfl, rfl, rfl⟩ | ⟨inner, line, rfl, hinner⟩)
    · exact ⟨[], placed.line, rfl, unwinds_nil_iff.mpr rfl⟩
    · exact ⟨placed :: inner, line, rfl, hinner⟩

/-- Skipping to the end of a bracketed stretch passes over tokens that close what is open, and over
the closing bracket behind them. -/
theorem closeBracket_eq_ok_iff (hne : opening ≠ closing) :
    closeBracket opening closing depth ts = .ok rest ↔
      ∃ inner line, ts = inner ++ ⟨closing, line⟩ :: rest ∧
        Unwinds opening closing depth (words inner) := by
  induction ts generalizing depth with
  | nil => simp [closeBracket]
  | cons placed ts ih =>
      rw [exists_inner_cons, closeBracket.eq_def]
      dsimp only
      by_cases hopening : placed.token = opening
      · rw [if_pos hopening, ih, hopening]
        simp only [unwinds_opening_iff hne, hne, false_and, false_or]
      rw [if_neg hopening]
      by_cases hclosing : placed.token = closing
      · rw [if_pos hclosing, hclosing]
        simp only [unwinds_closing_iff hne, true_and]
        cases depth with
        | zero => simp
        | succ depth => simp [ih]
      · rw [if_neg hclosing, ih]
        simp only [unwinds_other_iff hopening hclosing, hclosing, false_and, false_or]

/-- A bracketed stretch that is skipped is a balanced stretch between its brackets. -/
theorem skipBracketed_eq_ok_iff (hne : opening ≠ closing) :
    skipBracketed opening closing ts = .ok rest ↔
      ∃ line inner line', ts = ⟨opening, line⟩ :: (inner ++ ⟨closing, line'⟩ :: rest) ∧
        Balanced opening closing (words inner) := by
  constructor
  · intro h
    obtain ⟨_, hopen, hclose⟩ := skipBracketed_eq_ok h
    obtain ⟨line, rfl⟩ := expect_eq_ok hopen
    obtain ⟨inner, line', rfl, hinner⟩ := (closeBracket_eq_ok_iff hne).mp hclose
    exact ⟨line, inner, line', rfl, hinner⟩
  · rintro ⟨line, inner, line', rfl, hinner⟩
    have hclose : closeBracket opening closing 0 (inner ++ ⟨closing, line'⟩ :: rest) = .ok rest :=
      (closeBracket_eq_ok_iff hne).mpr ⟨inner, line', rfl, hinner⟩
    simpa [skipBracketed, expect, next?] using hclose

/-- The brackets and what stands between them are skipped. -/
theorem skipBracketed_of_words {inner after : List Token} (hne : opening ≠ closing)
    (hinner : Balanced opening closing inner)
    (h : words ts = opening :: (inner ++ closing :: after)) :
    ∃ rest, skipBracketed opening closing ts = .ok rest ∧ words rest = after := by
  obtain ⟨line, ts₁, rfl, h₁⟩ := words_eq_cons h
  obtain ⟨ts₂, ts₃, rfl, h₂, h₃⟩ := exists_append_of_words h₁
  obtain ⟨line', rest, rfl, hrest⟩ := words_eq_cons h₃
  refine ⟨rest, ?_, hrest⟩
  apply (skipBracketed_eq_ok_iff hne).mpr
  exact ⟨line, ts₂, line', rfl, by rwa [h₂]⟩

/-- The closing bracket that belongs to the front of some tokens stands at one place only. -/
theorem Balanced.closing_unique {inner inner' rest rest' : List Token}
    (hne : opening ≠ closing) (hinner : Balanced opening closing inner)
    (hinner' : Balanced opening closing inner')
    (hsame : inner ++ closing :: rest = inner' ++ closing :: rest') :
    inner = inner' ∧ rest = rest' := by
  have hclose : ∀ {inner rest : List Token}, Balanced opening closing inner →
      closeBracket opening closing 0 (placed (inner ++ closing :: rest)) = .ok (placed rest) := by
    intro inner rest hinner
    apply (closeBracket_eq_ok_iff hne).mpr
    exact ⟨placed inner, 1, by simp [placed], by rwa [words_placed]⟩
  have hrest : closeBracket opening closing 0 (placed (inner ++ closing :: rest)) =
      .ok (placed rest) :=
    hclose hinner
  rw [hsame, hclose hinner'] at hrest
  have hwords := congrArg words (Except.ok.inj hrest)
  rw [words_placed, words_placed] at hwords
  subst hwords
  exact ⟨List.append_cancel_right hsame, rfl⟩

/-- The opening bracket that belongs to the end of some tokens stands at one place only. -/
theorem Balanced.opening_unique {front front' inner inner' : List Token} (hne : opening ≠ closing)
    (hinner : Balanced opening closing inner) (hinner' : Balanced opening closing inner')
    (hsame : front ++ opening :: inner = front' ++ opening :: inner') :
    front = front' ∧ inner = inner' := by
  -- Were one place before the other, the stretch from it would have an opening bracket too many.
  have hnot : ∀ between inner inner' : List Token, Balanced opening closing inner →
      Balanced opening closing inner' → inner ≠ between ++ opening :: inner' := by
    rintro between inner inner' hinner hinner' rfl
    have hwhole := hinner.whole
    have hwhole' := hinner'.whole
    have hbetween := hinner.front between (List.prefix_append _ _)
    simp only [List.count_append, List.count_cons_self, List.count_cons_of_ne hne] at hwhole
    omega
  rcases List.append_eq_append_iff.mp hsame with ⟨between, rfl, hrest⟩ | ⟨between, rfl, hrest⟩
  · cases between with
    | nil => simpa using hrest
    | cons first between =>
        cases hrest
        exact absurd rfl (hnot between _ _ hinner hinner')
  · cases between with
    | nil => simpa using hrest.symm
    | cons first between =>
        cases hrest
        exact absurd rfl (hnot between _ _ hinner' hinner)

end WireMapper.Java
