import WireMapper.FieldConversion
import WireMapper.Proofs.Fragment

/-!
Where the operand of a conversion stands. What is written for a value holds the written value in one
place, between two texts that do not depend on it. So the copy of a field tells whether it reads the
field by its name or by a call: the parentheses of the call are found in the copy, once or, if there
is a guard, twice.
-/

namespace WireMapper

open Java (Expr)

namespace TypeModel

/-- What is made of an operand is written with the operand in one place. -/
def HoldsOperand (make : Expr → Expr) : Prop :=
  ∃ before after, ∀ operand, (make operand).render = before ++ operand.render ++ after

theorem holdsOperand_id : HoldsOperand fun operand => operand :=
  ⟨"", "", by simp⟩

section

variable {make : Expr → Expr} (h : HoldsOperand make)

include h

theorem HoldsOperand.call (method : String) (arguments : List Expr) :
    HoldsOperand fun operand => .call (make operand) method arguments := by
  obtain ⟨before, after, hmake⟩ := h
  refine ⟨before, after ++ "." ++ method ++ "(" ++ Expr.renderArguments arguments ++ ")", ?_⟩
  intro operand
  rw [Expr.render, hmake]
  simp only [String.append_assoc]

theorem HoldsOperand.argument (receiver : Expr) (method : String) :
    HoldsOperand fun operand => .call receiver method [make operand] := by
  obtain ⟨before, after, hmake⟩ := h
  refine ⟨receiver.render ++ "." ++ method ++ "(" ++ before, after ++ ")", ?_⟩
  intro operand
  rw [Expr.render, Expr.renderArguments, hmake]
  simp only [String.append_assoc]

theorem HoldsOperand.domainStream (container : RepeatedContainer) :
    HoldsOperand fun operand => TypeModel.domainStream container (make operand) := by
  cases container with
  | stream => exact h
  | _ => exact h.call "stream" []

theorem HoldsOperand.mapEntries (key value : Expr) :
    HoldsOperand fun operand => TypeModel.mapEntries (make operand) key value :=
  ((h.call "entrySet" []).call "stream" []).call "collect" [collector "toMap" [key, value]]

end

/-- A conversion towards the wire is written with its operand in one place, at every depth. -/
theorem holdsOperand_toWireExpr (model : TypeModel) (depth : Nat) :
    HoldsOperand fun operand => model.toWireExpr operand depth := by
  induction model with
  | scalar scalar boxed => exact holdsOperand_id
  | enum wireType domainType => exact holdsOperand_id.call "toGrpc" []
  | message wireType domainType => exact holdsOperand_id.call "toGrpc" []
  | repeated element container _ =>
      simp only [toWireExpr]
      split
      · split
        · exact holdsOperand_id.call "toList" []
        · exact holdsOperand_id
      · exact ((holdsOperand_id.domainStream container).call "map" _).call "toList" []
  | map key value _ _ =>
      simp only [toWireExpr]
      split
      · exact holdsOperand_id
      · exact holdsOperand_id.mapEntries _ _
  | unfolded wrapperType innerField inner ih =>
      exact (ih.argument (.call (.source wrapperType) "newBuilder" [])
        (inner.accessors innerField).setter).call "build" []

end TypeModel

namespace FieldConversion

/-- With a builder or without one, the call is written behind a dot. -/
theorem render_setterCall (c : FieldConversion) (builder value : String) :
    (c.setterCall builder value).render =
      builder ++ "." ++ c.accessors.setter ++ "(" ++ c.model.toWire value ++ ")" := by
  rw [setterCall]
  split
  · rename_i hbuilder
    subst hbuilder
    simp [Expr.render, Expr.renderArguments, TypeModel.toWire]
  · simp [Expr.render, Expr.renderArguments, TypeModel.toWire]

/-- The call of a setter is written with the value in one place. -/
theorem holdsOperand_setterCall (c : FieldConversion) (builder : String) :
    ∃ before after, ∀ value, (c.setterCall builder value).render = before ++ value ++ after := by
  obtain ⟨before, after, hconverted⟩ := c.model.holdsOperand_toWireExpr 0
  refine ⟨builder ++ "." ++ c.accessors.setter ++ "(" ++ before, after ++ ")", ?_⟩
  intro value
  rw [render_setterCall, TypeModel.toWire, hconverted, Expr.render]
  simp only [String.append_assoc]

end FieldConversion

def parens (s : String) : Nat :=
  s.toList.count '('

theorem parens_append (s t : String) : parens (s ++ t) = parens s + parens t := by
  rw [parens, String.toList_append, List.count_append]
  rfl

/-- Parentheses are no white space. -/
theorem parens_eq_count_solid (s : String) : parens s = (Text.solid s).count '(' := by
  rw [parens, Text.solid, List.count_filter (by decide)]

namespace Fragment

theorem parens_ofStatement (code : String) : parens (ofStatement code).code = parens code := by
  rw [ofStatement]
  split
  · rfl
  · rw [Fragment.code, parens, String.toList_push, List.count_append]
    rfl

theorem parens_guarded (condition code : String) :
    parens (guarded condition (ofStatement code)).code = parens condition + parens code + 1 := by
  have hopen : parens "if (" = 1 := rfl
  have hthen : parens ") \x7b" = 0 := rfl
  have hclose : parens "\x7d" = 0 := rfl
  have hlaidOut : parens (guarded condition (ofStatement code)).code =
      parens ("if (" ++ condition ++ ") \x7b" ++ (ofStatement code).code ++ "\x7d") := by
    rw [parens_eq_count_solid, parens_eq_count_solid]
    exact congrArg _ (solid_guarded condition (ofStatement code).code)
  rw [hlaidOut]
  simp only [parens_append, parens_ofStatement]
  omega

end Fragment

namespace FieldConversion

variable {c : FieldConversion}

/-- Each parenthesis of the operand is found in the copy as often as the operand is. -/
theorem exists_parens (c : FieldConversion) (builder : String) :
    ∃ uses rest, 0 < uses ∧ ∀ value copy, c.toWire builder value = .ok copy →
      parens copy.code = uses * parens value + rest := by
  obtain ⟨before, after, hcall⟩ := c.holdsOperand_setterCall builder
  have hparens (value : String) : parens (c.setterCall builder value).render =
      parens before + parens value + parens after := by
    rw [hcall, parens_append, parens_append]
  cases hnullable : c.nullable with
  | true =>
      refine ⟨2, parens " != null" + parens before + parens after + 1, by omega, ?_⟩
      intro value copy h
      rw [toWire, hnullable] at h
      split at h
      · cases h
      · obtain rfl := Except.ok.inj h
        rw [Fragment.parens_guarded, parens_append, hparens]
        omega
  | false =>
      refine ⟨1, parens before + parens after, by omega, ?_⟩
      intro value copy h
      rw [toWire, hnullable] at h
      have hcopy : parens copy.code = parens (c.setterCall builder value).render := by
        by_cases hbuilder : builder = ""
        · obtain rfl := Except.ok.inj ((if_pos hbuilder).symm.trans h)
          rfl
        · obtain rfl := Except.ok.inj ((if_neg hbuilder).symm.trans h)
          exact Fragment.parens_ofStatement _
      rw [hcopy, hparens]
      omega

/-- Copies that are alike read expressions with as many parentheses. -/
theorem parens_eq_of_toWire {builder value value' : String} {copy : Fragment}
    (h : c.toWire builder value = .ok copy) (h' : c.toWire builder value' = .ok copy) :
    parens value = parens value' := by
  obtain ⟨uses, rest, huses, hparens⟩ := c.exists_parens builder
  have hsame := (hparens value copy h).symm.trans (hparens value' copy h')
  exact Nat.eq_of_mul_eq_mul_left huses (Nat.add_right_cancel hsame)

end FieldConversion

namespace Naming

/-- Capital letters take away no parentheses. -/
theorem parens_le_capitalize (s : String) : parens s ≤ parens (capitalize s) := by
  rw [parens, parens, capitalize]
  cases s.toList with
  | nil => exact Nat.zero_le _
  | cons c cs =>
      rw [String.toList_ofList, List.count_append, List.count_cons]
      by_cases hc : c = '('
      · have hupper : (Text.upperChars '(').count '(' = 1 := by decide
        rw [hc, hupper]
        simp [Nat.add_comm]
      · simp [hc]

/-- A call of a getter opens a parenthesis that the name of the field does not. -/
theorem parens_lt_getterCall (s : String) : parens s < parens (getter s ++ "()") := by
  have hcapitalize := parens_le_capitalize s
  have hcall : parens "()" = 1 := rfl
  rw [getter, parens_append, parens_append, hcall]
  omega

end Naming

end WireMapper
