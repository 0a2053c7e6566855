import WireMapper.Proofs.FieldConversion
import WireMapper.Proofs.Fragment
import WireMapper.Proofs.TypeModel.Operand

/-!
The form in which the copy of a field is written. With a builder it is a statement whose call is
made on the builder. Without one the call is written as a link of a chain; but where the field can
be absent, the guard makes a statement of the link, and the call in it is made on nothing. How a
statement is laid out in lines makes no difference to this, so texts are compared here up to white
space.
-/

namespace WireMapper

open Java (Expr)

/-- The call that a statement makes, guarded or not. -/
def Statement.call : Statement → Expr
  | run call => call
  | whenPresent _ body => body.call

theorem Statement.isStatement_fragment (s : Statement) : s.fragment.isStatement = true := by
  cases s <;> rfl

namespace FieldConversion

/-- The statement that sets the field, as it would stand on one line. -/
def copyText (c : FieldConversion) (builder value : String) : String :=
  let call := builder ++ "." ++ c.accessors.setter ++ "(" ++ c.model.toWire value ++ ");"
  if c.nullable then "if (" ++ value ++ " != null) \x7b" ++ call ++ "\x7d" else call

/-- The forms in which a copy can be used: a statement that sets the field on a builder, guarded or
not, and a call to be put behind a builder. -/
inductive IsUsable (c : FieldConversion) (builder value : String) : Fragment → Prop where
  | statement {s : Statement} (hbuilder : builder ≠ "")
      (hcall : s.call =
        .call (.source builder) c.accessors.setter [c.model.toWireExpr (.source value) 0]) :
      IsUsable c builder value s.fragment
  | link (hbuilder : builder = "") :
      IsUsable c builder value
        (.expression ("." ++ c.accessors.setter ++ "(" ++ c.model.toWire value ++ ")"))

variable {c : FieldConversion} {builder value : String} {copy : Fragment}

/-- The only form without a builder is no statement. -/
theorem IsUsable.builder_ne (h : c.IsUsable builder value copy)
    (hstatement : copy.isStatement = true) :
    builder ≠ "" := by
  cases h with
  | statement hbuilder => exact hbuilder
  | link => cases hstatement

/-- A call does not end as a statement does, so the semicolon is added. -/
theorem ofStatement_setterCall (c : FieldConversion) (builder value : String) :
    Fragment.ofStatement (c.setterCall builder value).render =
      .statement ((c.setterCall builder value).render ++ ";") := by
  have hend : ");" = ")" ++ ";" := by decide
  rw [render_setterCall, Fragment.ofStatement_parens, hend]
  simp only [String.append_assoc]

/-- The copy that is made: an expression only where there is neither a builder nor a guard. -/
theorem toWire_cases (hcopy : c.toWire builder value = .ok copy) :
    (c.nullable = false ∧ builder = "" ∧ copy = .expression (c.setterCall builder value).render) ∨
      (c.nullable = false ∧ builder ≠ "" ∧
        copy = (Statement.run (c.setterCall builder value)).fragment) ∨
      (c.nullable = true ∧
        copy = (Statement.whenPresent (.source value)
          (.run (c.setterCall builder value))).fragment) := by
  rw [toWire] at hcopy
  split at hcopy
  · cases hcopy
  · dsimp only at hcopy
    split at hcopy
    · rename_i hnullable
      exact .inr (.inr ⟨hnullable, (Except.ok.inj hcopy).symm⟩)
    · rename_i hnullable
      rw [Bool.not_eq_true] at hnullable
      split at hcopy
      · rename_i hbuilder
        exact .inl ⟨hnullable, hbuilder, (Except.ok.inj hcopy).symm⟩
      · rename_i hbuilder
        exact .inr (.inl ⟨hnullable, hbuilder, (Except.ok.inj hcopy).symm⟩)

theorem solid_run (hnullable : c.nullable = false) :
    Text.solid (Statement.run (c.setterCall builder value)).fragment.code =
      Text.solid (c.copyText builder value) := by
  rw [Statement.fragment, ofStatement_setterCall, Fragment.code, render_setterCall, copyText,
    hnullable]
  simp [String.append_assoc]

/-- The lines of the guarded statement are the one line of its text, broken and indented. -/
theorem solid_whenPresent (hnullable : c.nullable = true) :
    Text.solid (Statement.whenPresent (.source value)
      (.run (c.setterCall builder value))).fragment.code =
      Text.solid (c.copyText builder value) := by
  rw [Statement.fragment, Statement.fragment, ofStatement_setterCall, Fragment.solid_guarded,
    render_setterCall, copyText, hnullable, Expr.render]
  simp [String.append_assoc]

/-- A statement that sets the field can be used if there is a builder. -/
theorem isUsable_fragment_iff {s : Statement} (hcall : s.call = c.setterCall builder value) :
    c.IsUsable builder value s.fragment ↔ builder ≠ "" := by
  constructor
  · intro h
    exact h.builder_ne s.isStatement_fragment
  · intro hbuilder
    rw [setterCall, if_neg hbuilder] at hcall
    exact .statement hbuilder hcall

/-- Only a guarded link is of no use. A copy that is made has one of the usable forms exactly if
there is a builder or the field cannot be absent. It is a statement exactly if there is a builder or
the field can be absent, and then it is the statement that sets the field, with the guard or without
it, and up to white space its text is that of this statement on one line. So without a builder a
field that can be absent is copied by a statement whose call has no receiver. -/
theorem copy_usable_iff (hcopy : c.toWire builder value = .ok copy) :
    (c.IsUsable builder value copy ↔ builder ≠ "" ∨ c.nullable = false) ∧
      (copy.isStatement = true ↔ builder ≠ "" ∨ c.nullable = true) ∧
      (copy.isStatement = true →
        (∃ s : Statement, s.call = c.setterCall builder value ∧ copy = s.fragment) ∧
        Text.solid copy.code = Text.solid (c.copyText builder value)) := by
  obtain ⟨hnullable, hbuilder, rfl⟩ | ⟨hnullable, hbuilder, rfl⟩ | ⟨hnullable, rfl⟩ :=
    toWire_cases hcopy
  · have husable : c.IsUsable builder value (.expression (c.setterCall builder value).render) := by
      rw [render_setterCall, hbuilder, String.empty_append]
      exact .link rfl
    refine ⟨iff_of_true husable (.inr hnullable), ?_, nofun⟩
    simp [Fragment.isStatement, hbuilder, hnullable]
  · have hstatement := (Statement.run (c.setterCall builder value)).isStatement_fragment
    exact ⟨iff_of_true ((isUsable_fragment_iff rfl).mpr hbuilder) (.inl hbuilder),
      iff_of_true hstatement (.inl hbuilder), fun _ => ⟨⟨_, rfl, rfl⟩, solid_run hnullable⟩⟩
  · refine ⟨?_, ?_, fun _ => ⟨⟨_, rfl, rfl⟩, solid_whenPresent hnullable⟩⟩
    · rw [isUsable_fragment_iff rfl]
      simp [hnullable]
    · exact iff_of_true (Statement.isStatement_fragment _) (.inr hnullable)

/-- The guarded statement on a builder can be used. -/
theorem copy_usable_iff_colors :
    colors.IsUsable "builder" "value" (colors.copyStatement "builder" "value").fragment := by
  have hcopy : colors.toWire "builder" "value" =
      .ok (colors.copyStatement "builder" "value").fragment := rfl
  have hbuilder : "builder" ≠ "" := by decide
  exact (copy_usable_iff hcopy).1.mpr (.inl hbuilder)

def note : FieldConversion :=
  ⟨.scalar .string false, "note", true, "unknown message"⟩

/-- The setter is called on nothing. -/
theorem guarded_link_unusable :
    note.toWire "" "note" = .ok (.statement "if (note != null) \x7b\n    .setNote(note);\n\x7d") ∧
      ¬ note.IsUsable "" "note"
        (.statement "if (note != null) \x7b\n    .setNote(note);\n\x7d") := by
  refine ⟨by decide +kernel, ?_⟩
  intro h
  exact h.builder_ne rfl rfl

end FieldConversion

end WireMapper
