/-!
Brackets in a text. It is read from the left with the closing brackets that are due; the text is
balanced if each closing bracket is the one that is due, and none is left in the end. Text without
brackets changes nothing about what is due.
-/

namespace WireMapper.Text

def closing? : Char → Option Char
  | '(' => some ')'
  | '[' => some ']'
  | '\x7b' => some '\x7d'
  | _ => none

/-- The closing brackets that are due behind a character, innermost first; none if another one is
due or nothing was opened. -/
def dueBehind (due : List Char) (c : Char) : Option (List Char) :=
  match closing? c with
  | some closing => some (closing :: due)
  | none =>
    if c ∈ [')', ']', '\x7d'] then
      match due with
      | expected :: due => if c = expected then some due else none
      | [] => none
    else
      some due

def dueAfter (due cs : List Char) : Option (List Char) :=
  cs.foldlM dueBehind due

/-- Every closing bracket closes the last one that was opened, and all are closed in the end. -/
def Balanced (text : String) : Prop :=
  dueAfter [] text.toList = some []

instance (text : String) : Decidable (Balanced text) :=
  inferInstanceAs (Decidable (dueAfter [] text.toList = some []))

/-- The text leaves due what was due before it. -/
def Neutral (text : String) : Prop :=
  ∀ due, dueAfter due text.toList = some due

theorem Neutral.balanced {text : String} (h : Neutral text) : Balanced text :=
  h []

/-- Brackets that are due behind one text are due before the next. -/
theorem dueAfter_append (due a b : List Char) :
    dueAfter due (a ++ b) = (dueAfter due a).bind fun due => dueAfter due b :=
  List.foldlM_append

theorem Neutral.append {a b : String} (ha : Neutral a) (hb : Neutral b) : Neutral (a ++ b) := by
  intro due
  rw [String.toList_append, dueAfter_append, ha due]
  exact hb due

/-- Parentheses around a text close each other. -/
theorem Neutral.parenthesized {text : String} (h : Neutral text) :
    Neutral ("(" ++ text ++ ")") := by
  intro due
  rw [String.toList_append, String.toList_append, dueAfter_append, dueAfter_append]
  change ((dueAfter (')' :: due) text.toList).bind fun due => dueAfter due [')']) = some due
  rw [h]
  rfl

/-- Brackets of different kinds do not close each other, and none closes before it is opened. -/
example : Balanced "(a[0])" ∧ ¬ Balanced "(a[0)]" ∧ ¬ Balanced ")(" := by
  decide

/-- Brackets, and the sign that an arrow starts with. -/
def marks : List Char :=
  ['(', ')', '[', ']', '\x7b', '\x7d', '-']

def Plain (text : String) : Prop :=
  ∀ c ∈ marks, c ∉ text.toList

instance (p : Char → Prop) [DecidablePred p] : Decidable (∀ c ∈ marks, p c) :=
  List.decidableBAll p marks

instance (text : String) : Decidable (Plain text) :=
  inferInstanceAs (Decidable (∀ c ∈ marks, c ∉ text.toList))

theorem Plain.append {a b : String} (ha : Plain a) (hb : Plain b) : Plain (a ++ b) := by
  intro c hc h
  rw [String.toList_append, List.mem_append] at h
  exact h.elim (ha c hc) (hb c hc)

theorem dueBehind_of_not_mem {c : Char} (due : List Char) (h : c ∉ marks) :
    dueBehind due c = some due := by
  simp only [marks, List.mem_cons, not_or] at h
  obtain ⟨hround, hround', hsquare, hsquare', hcurly, hcurly', -⟩ := h
  have hopen : closing? c = none := by
    unfold closing?
    split
    · exact absurd rfl hround
    · exact absurd rfl hsquare
    · exact absurd rfl hcurly
    · rfl
  simp [dueBehind, hopen, hround', hsquare', hcurly']

theorem dueAfter_of_not_mem {cs : List Char} (due : List Char) (h : ∀ c ∈ marks, c ∉ cs) :
    dueAfter due cs = some due := by
  induction cs with
  | nil => rfl
  | cons c cs ih =>
      have hc : c ∉ marks := fun hc => h c hc List.mem_cons_self
      have hcs : ∀ c ∈ marks, c ∉ cs := fun d hd hmem => h d hd (List.mem_cons_of_mem c hmem)
      rw [dueAfter, List.foldlM_cons, dueBehind_of_not_mem due hc]
      exact ih hcs

theorem Plain.neutral {text : String} (h : Plain text) : Neutral text :=
  fun due => dueAfter_of_not_mem due h

end WireMapper.Text
