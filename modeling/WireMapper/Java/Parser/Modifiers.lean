import WireMapper.Java.Parser.Basic

/-!
Modifiers and annotations in front of a declaration. Annotations are skipped with their arguments,
and of the modifiers only those are kept that a field's visibility depends on.
-/

namespace WireMapper.Java

def skipAnnotationUse (ts : Tokens) : Except Failure Tokens :=
  match expect .atSign ts with
  | .error e => .error e
  | .ok (_, ts) =>
    match qualifiedName ts with
    | .error e => .error e
    | .ok (_, ts) => skipOptional .openParen .closeParen ts

structure Modifiers where
  visibility? : Option Visibility
  isStatic : Bool
deriving DecidableEq, Repr

/-- Words that may stand before a declaration and say nothing about fields. -/
def plainModifiers : List String :=
  ["abstract", "final", "transient", "volatile", "synchronized", "native", "strictfp", "default",
    "sealed"]

/-- The modifiers after one more word, if the word is a modifier. -/
def Modifiers.add? (m : Modifiers) (word : String) : Option Modifiers :=
  match word with
  | "public" => some { m with visibility? := some .public_ }
  | "protected" => some { m with visibility? := some .protected_ }
  | "private" => some { m with visibility? := some .private_ }
  | "static" => some { m with isStatic := true }
  | word => if word ∈ plainModifiers then some m else none

/-- What follows the word `non-sealed`, which is three tokens. -/
def afterNonSealed? : Tokens → Option Tokens
  | ⟨.ident "non", _⟩ :: ⟨.other '-', _⟩ :: ⟨.ident "sealed", _⟩ :: ts => some ts
  | _ => none

/-- An annotation is the sign, a name, and the arguments if there are any. -/
theorem skipAnnotationUse_eq_ok {ts rest : Tokens} (h : skipAnnotationUse ts = .ok rest) :
    ∃ ts₁ name ts₂, expect .atSign ts = .ok ((), ts₁) ∧ qualifiedName ts₁ = .ok (name, ts₂) ∧
      skipOptional .openParen .closeParen ts₂ = .ok rest := by
  unfold skipAnnotationUse at h
  split at h
  · cases h
  rename_i hsign
  split at h
  · cases h
  rename_i hname
  exact ⟨_, _, _, hsign, hname, h⟩

theorem afterNonSealed?_eq_some {ts rest : Tokens} (h : afterNonSealed? ts = some rest) :
    ∃ line line' line'',
      ts = ⟨.ident "non", line⟩ :: ⟨.other '-', line'⟩ :: ⟨.ident "sealed", line''⟩ :: rest := by
  unfold afterNonSealed? at h
  split at h
  · cases h
    exact ⟨_, _, _, rfl⟩
  · cases h

theorem length_skipAnnotationUse_lt {ts rest : Tokens} (h : skipAnnotationUse ts = .ok rest) :
    rest.length < ts.length := by
  obtain ⟨_, _, _, hsign, hname, harguments⟩ := skipAnnotationUse_eq_ok h
  have := length_expect hsign
  have := length_qualifiedName_lt hname
  have := length_skipOptional_le harguments
  omega

theorem length_afterNonSealed? {ts rest : Tokens} (h : afterNonSealed? ts = some rest) :
    rest.length < ts.length := by
  obtain ⟨_, _, _, rfl⟩ := afterNonSealed?_eq_some h
  simp only [List.length_cons]
  omega

/-- Takes modifiers and annotations, adding to what was read before. The declaration of an
annotation type is not an annotation. -/
def modifiersFrom (m : Modifiers) : Tokens → Reading Modifiers
  | [] => .ok (m, [])
  | t :: rest =>
    match t.token with
    | .atSign =>
      if next? rest = some (.ident "interface") then .ok (m, t :: rest)
      else
        match _h : skipAnnotationUse (t :: rest) with
        | .error e => .error e
        | .ok rest => modifiersFrom m rest
    | .ident word =>
      match m.add? word with
      | some m => modifiersFrom m rest
      | none =>
        match _h : afterNonSealed? (t :: rest) with
        | some rest => modifiersFrom m rest
        | none => .ok (m, t :: rest)
    | _ => .ok (m, t :: rest)
termination_by ts => ts.length
decreasing_by
  · exact length_skipAnnotationUse_lt _h
  · simp
  · exact length_afterNonSealed? _h

def modifiers (ts : Tokens) : Reading Modifiers :=
  modifiersFrom ⟨none, false⟩ ts

theorem length_modifiersFrom_le {m m' : Modifiers} {ts rest : Tokens}
    (h : modifiersFrom m ts = .ok (m', rest)) : rest.length ≤ ts.length := by
  fun_induction modifiersFrom m ts with
  | case1 => cases h; simp
  | case2 => cases h; simp
  | case3 => cases h
  | case4 => rename_i hs ih; have := ih h; have := length_skipAnnotationUse_lt hs; omega
  | case5 => rename_i ih; have := ih h; simp only [List.length_cons]; omega
  | case6 => rename_i hs ih; have := ih h; have := length_afterNonSealed? hs; omega
  | case7 => cases h; simp
  | case8 => cases h; simp

theorem length_modifiers_le {m : Modifiers} {ts rest : Tokens}
    (h : modifiers ts = .ok (m, rest)) : rest.length ≤ ts.length :=
  length_modifiersFrom_le h

end WireMapper.Java
