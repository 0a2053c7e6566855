import WireMapper.Java.Expr
import WireMapper.Proofs.Java.Identifier
import WireMapper.Proofs.Naming
import WireMapper.Proofs.Text.Brackets

/-!
Brackets of written expressions. The names in an expression are plain, so its brackets are those
that are written around arguments: the text of an expression is balanced if those of its parts are.
-/

namespace WireMapper.Java

open Text (Neutral Plain marks)

theorem IsIdentifier.plain {text : String} (h : IsIdentifier text) : Plain text := by
  have hmarks : ∀ c ∈ marks, Java.isIdentPart c = false := by decide
  exact fun c hc => h.not_mem (hmarks c hc)

theorem IsQualified.plain {name : String} (h : IsQualified name) : Plain name := by
  have hmarks : ∀ c ∈ marks, c ≠ '.' ∧ isIdentPart c = false := by decide
  intro c hc hmem
  obtain ⟨hdot, hpart⟩ := hmarks c hc
  rcases h.eq_or_isIdentPart hmem with hsame | hpart'
  · exact hdot hsame
  · cases hpart.symm.trans hpart'

theorem plain_accessorSuffix {field : String} (h : Plain field) :
    Plain (Naming.accessorSuffix field) := by
  have hmarks : ∀ c ∈ marks, c.toNat < 0x80 ∧ c.isAlpha = false := by decide
  intro c hc hmem
  obtain ⟨hascii, hletter⟩ := hmarks c hc
  exact h c hc (Naming.mem_of_mem_accessorSuffix hascii hletter hmem)

section

variable {receiver body : Expr} {method type parameter : String} {arguments : List Expr}

theorem neutral_renderArguments (h : ∀ argument ∈ arguments, Neutral argument.render) :
    Neutral (Expr.renderArguments arguments) := by
  induction arguments with
  | nil => exact fun _ => rfl
  | cons argument arguments ih =>
      obtain ⟨hargument, harguments⟩ := List.forall_mem_cons.mp h
      cases arguments with
      | nil => exact hargument
      | cons next arguments =>
          have hcomma : Plain ", " := by decide
          exact (hargument.append hcomma.neutral).append (ih harguments)

/-- A call opens one pair of brackets and closes it. -/
theorem neutral_call (hreceiver : Neutral receiver.render) (hmethod : Plain method)
    (harguments : ∀ argument ∈ arguments, Neutral argument.render) :
    Neutral (Expr.call receiver method arguments).render := by
  have hdot : Plain "." := by decide
  have hnamed := (hreceiver.append hdot.neutral).append hmethod.neutral
  have hcall := hnamed.append (neutral_renderArguments harguments).parenthesized
  simpa only [Expr.render, String.append_assoc] using hcall

theorem neutral_construct (htype : Plain type)
    (harguments : ∀ argument ∈ arguments, Neutral argument.render) :
    Neutral (Expr.construct type arguments).render := by
  have hnew : Plain "new " := by decide
  have hcall := (hnew.append htype).neutral.append
    (neutral_renderArguments harguments).parenthesized
  simpa only [Expr.render, String.append_assoc] using hcall

theorem neutral_lambda (hparameter : Plain parameter) (hbody : Neutral body.render) :
    Neutral (Expr.lambda parameter body).render := by
  have harrow : Neutral " -> " := fun _ => rfl
  exact (hparameter.neutral.append harrow).append hbody

end

end WireMapper.Java
