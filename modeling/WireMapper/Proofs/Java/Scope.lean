import WireMapper.Java.Expr
import WireMapper.Proofs.Java.Identifier

/-!
Variables of written expressions. A lambda binds its parameter in its body, and an expression
mentions what a text in it names, unless a lambda around that text binds the name. What an
expression encloses is found below the parameters of the lambdas around it.
-/

namespace WireMapper.Java

/-- A text names a variable: the name is there as an identifier of its own, not behind a dot as a
member of something else. -/
def MentionedIn (name text : String) : Prop :=
  ∃ before after, text.toList = before ++ name.toList ++ after ∧
    (∀ c ∈ before.getLast?, c ≠ '.' ∧ isIdentPart c = false) ∧
    ∀ c ∈ after.head?, isIdentPart c = false

section

variable {name text : String}

theorem MentionedIn.isInfix (h : MentionedIn name text) : name.toList <:+: text.toList := by
  obtain ⟨before, after, htext, -, -⟩ := h
  exact ⟨before, after, htext.symm⟩

/-- A name that is mentioned in a dotted one is its start. -/
theorem MentionedIn.start (h : MentionedIn name text)
    (htext : ∀ c ∈ text.toList, c = '.' ∨ isIdentPart c = true) :
    ∃ after, text.toList = name.toList ++ after ∧ ∀ c ∈ after.head?, c = '.' := by
  obtain ⟨before, after, hsplit, hbefore, hafter⟩ := h
  rw [hsplit] at htext
  have hnone : before = [] := by
    rw [← List.getLast?_eq_none_iff, Option.eq_none_iff_forall_not_mem]
    intro c hc
    obtain ⟨hdot, hpart⟩ := hbefore c hc
    have hmem : c ∈ before := List.mem_of_getLast? hc
    rcases htext c (by simp [hmem]) with hsame | hsame
    · exact hdot hsame
    · cases hpart.symm.trans hsame
  subst hnone
  refine ⟨after, hsplit, fun c hc => ?_⟩
  have hmem : c ∈ after := List.mem_of_head? hc
  refine (htext c (by simp [hmem])).resolve_right fun hpart => ?_
  cases (hafter c hc).symm.trans hpart

/-- The only name that an identifier mentions is itself. -/
theorem MentionedIn.eq_of_isIdentifier (h : MentionedIn name text) (htext : IsIdentifier text) :
    name = text := by
  obtain ⟨after, hsplit, hafter⟩ := h.start fun c hc => Or.inr (htext.isIdentPart c hc)
  have hnone : after = [] := by
    rw [← List.head?_eq_none_iff, Option.eq_none_iff_forall_not_mem]
    intro c hc
    have hmem : c ∈ text.toList := by
      rw [hsplit]
      exact List.mem_append_right _ (List.mem_of_head? hc)
    rw [hafter c hc] at hmem
    exact htext.noDot hmem
  rw [hnone, List.append_nil] at hsplit
  exact (String.toList_inj.mp hsplit).symm

/-- What a dotted name mentions is the first identifier of it. -/
theorem MentionedIn.head?_split (h : MentionedIn name text) (hname : '.' ∉ name.toList)
    (htext : IsQualified text) : (Text.split '.' text).head? = some name := by
  obtain ⟨after, hsplit, hafter⟩ := h.start fun c hc => htext.eq_or_isIdentPart hc
  cases after with
  | nil =>
      rw [List.append_nil, String.toList_inj] at hsplit
      rw [hsplit, Text.split_of_not_mem hname]
      rfl
  | cons c rest =>
      obtain rfl : c = '.' := hafter c rfl
      have htext' : text = name ++ String.singleton '.' ++ String.ofList rest := by
        rw [← String.toList_inj, hsplit]
        simp
      rw [htext', split_append, Text.split_of_not_mem hname]
      rfl

end

namespace Expr

def parts : Expr → List Expr
  | source _ => []
  | call receiver _ arguments => receiver :: arguments
  | chained _ arguments => arguments
  | construct _ arguments => arguments
  | lambda _ _ => []
  | conditional condition yes no => [condition, yes, no]

/-- A text in the expression names the variable, and no lambda around the text binds it. Names of
methods are no variables. -/
inductive Mentions (name : String) : Expr → Prop where
  | source {text : String} (h : MentionedIn name text) : Mentions name (.source text)
  | type {type : String} {arguments : List Expr} (h : MentionedIn name type) :
      Mentions name (.construct type arguments)
  | part {whole part : Expr} (hpart : part ∈ whole.parts) (h : Mentions name part) :
      Mentions name whole
  | body {parameter : String} {body : Expr} (hfree : name ≠ parameter) (h : Mentions name body) :
      Mentions name (.lambda parameter body)

section

variable {name text method type parameter : String} {receiver body : Expr} {arguments : List Expr}

theorem Mentions.of_source (h : (Expr.source text).Mentions name) : MentionedIn name text := by
  cases h with
  | source h => exact h
  | part hpart => cases hpart

theorem Mentions.of_call (h : (Expr.call receiver method arguments).Mentions name) :
    receiver.Mentions name ∨ ∃ argument ∈ arguments, argument.Mentions name := by
  cases h with
  | part hpart h =>
      rcases List.mem_cons.mp hpart with rfl | hpart
      · exact Or.inl h
      · exact Or.inr ⟨_, hpart, h⟩

theorem Mentions.of_construct (h : (Expr.construct type arguments).Mentions name) :
    MentionedIn name type ∨ ∃ argument ∈ arguments, argument.Mentions name := by
  cases h with
  | type h => exact Or.inl h
  | part hpart h => exact Or.inr ⟨_, hpart, h⟩

/-- A lambda binds its parameter, so it mentions other names only. -/
theorem Mentions.of_lambda (h : (Expr.lambda parameter body).Mentions name) :
    name ≠ parameter ∧ body.Mentions name := by
  cases h with
  | part hpart => cases hpart
  | body hfree h => exact ⟨hfree, h⟩

end

inductive Encloses : Expr → List String → Expr → Prop where
  | self {e : Expr} : Encloses e [] e
  | part {whole part e : Expr} {parameters : List String} (hpart : part ∈ whole.parts)
      (h : Encloses part parameters e) : Encloses whole parameters e
  | body {parameter : String} {body e : Expr} {parameters : List String}
      (h : Encloses body parameters e) :
      Encloses (.lambda parameter body) (parameter :: parameters) e

/-- Lambdas that are inside one another bind different names, and of the variables in question the
body of a lambda mentions the lambda's own one only. -/
def Hygienic (isVariable : String → Prop) (e : Expr) : Prop :=
  ∀ parameters parameter body, e.Encloses parameters (.lambda parameter body) →
    (parameters ++ [parameter]).Nodup ∧
      ∀ name, isVariable name → body.Mentions name → name = parameter

end Expr

end WireMapper.Java
