import WireMapper.Fragment
import WireMapper.Text.WhiteSpace

/-!
How a guarded statement is laid out. Its body is broken into lines and indented, and all that this
adds or takes away is white space.
-/

namespace WireMapper

namespace Text

/-- What of a text is no white space. -/
def solid (s : String) : List Char :=
  s.toList.filter fun c => !isWhiteSpace c

theorem solid_append (s t : String) : solid (s ++ t) = solid s ++ solid t := by
  rw [solid, String.toList_append, List.filter_append]
  rfl

theorem filter_dropReturn (line : List Char) :
    (dropReturn line).filter (fun c => !isWhiteSpace c) =
      line.filter fun c => !isWhiteSpace c := by
  rw [dropReturn]
  split
  · rename_i hlast
    obtain ⟨start, rfl⟩ := List.getLast?_eq_some_iff.mp hlast
    have hreturn : isWhiteSpace '\r' = true := by decide
    simp [hreturn]
  · rfl

/-- Lines break at white space. -/
theorem filter_linesFrom (pending cs : List Char) :
    ((linesFrom pending cs).map (List.filter fun c => !isWhiteSpace c)).flatten =
      (pending.reverse ++ cs).filter fun c => !isWhiteSpace c := by
  induction cs generalizing pending with
  | nil =>
      cases pending with
      | nil => rfl
      | cons c pending => simp [linesFrom]
  | cons c cs ih =>
      rw [linesFrom]
      split
      · rename_i hc
        have hfeed : isWhiteSpace '\n' = true := by decide
        simp [filter_dropReturn, ih, hc, hfeed]
      · rw [ih]
        simp

/-- A text without a line feed is one line. -/
theorem lines_of_not_mem {s : String} (hline : '\n' ∉ s.toList) (hne : s ≠ "") : lines s = [s] := by
  have hfrom (pending cs : List Char) (hcs : '\n' ∉ cs) (hsome : pending.reverse ++ cs ≠ []) :
      linesFrom pending cs = [pending.reverse ++ cs] := by
    induction cs generalizing pending with
    | nil =>
        rw [List.append_nil, ne_eq, List.reverse_eq_nil_iff] at hsome
        simp [linesFrom, hsome]
    | cons c cs ih =>
        rw [List.mem_cons, not_or] at hcs
        obtain ⟨hc, hcs⟩ := hcs
        rw [linesFrom, if_neg (Ne.symm hc), ih (c :: pending) hcs (by simp)]
        simp
  rw [lines, hfrom [] s.toList hline (by simpa using hne)]
  simp

/-- Breaking a text into lines loses white space alone. -/
theorem solid_lines (s : String) : ((lines s).map solid).flatten = solid s := by
  have hlines : (lines s).map solid =
      (linesFrom [] s.toList).map (List.filter fun c => !isWhiteSpace c) := by
    rw [lines, List.map_map]
    apply List.map_congr_left
    intro line _
    rw [Function.comp_apply, solid, String.toList_ofList]
  rw [hlines, filter_linesFrom]
  rfl

end Text

namespace Fragment

/-- Code that ends in a parenthesis does not end as a statement does. -/
theorem ofStatement_parens (code : String) :
    ofStatement (code ++ ")") = .statement (code ++ ");") := by
  have hends : endsStatement (code ++ ")") = false := by
    simp [endsStatement]
  rw [ofStatement, hends, String.push_eq_append, String.append_assoc]
  rfl

/-- A body of one line is indented as a whole. -/
theorem guarded_line {condition code : String} (hline : '\n' ∉ code.toList) (hne : code ≠ "") :
    guarded condition (.statement code) =
      .statement ("if (" ++ condition ++ ") \x7b\n    " ++ code ++ "\n\x7d") := by
  have hlines : Text.lines (toStatement (.statement code)).code = [code] :=
    Text.lines_of_not_mem hline hne
  have hopen : ") \x7b\n    " = ") \x7b\n" ++ "    " := by decide
  have hclose : "\n\x7d" = "\n" ++ "\x7d" := by decide
  rw [guarded, hlines, hopen, hclose]
  simp only [List.map_cons, List.map_nil, String.join_cons, String.join_nil, String.append_empty,
    String.append_assoc]

/-- A guarded statement could stand on one line: what it has besides is white space. -/
theorem solid_guarded (condition code : String) :
    Text.solid (guarded condition (.statement code)).code =
      Text.solid ("if (" ++ condition ++ ") \x7b" ++ code ++ "\x7d") := by
  have hbody (lines : List String) :
      Text.solid (String.join (lines.map fun line => "    " ++ line ++ "\n")) =
        (lines.map Text.solid).flatten := by
    induction lines with
    | nil => rfl
    | cons line lines ih =>
        have hindent : Text.solid "    " = [] := by decide
        have hfeed : Text.solid "\n" = [] := by decide
        rw [List.map_cons, String.join_cons, Text.solid_append, ih, Text.solid_append,
          Text.solid_append, hindent, hfeed]
        simp
  have hlines := hbody (Text.lines code)
  rw [Text.solid_lines] at hlines
  have hthen : Text.solid ") \x7b\n" = Text.solid ") \x7b" := by decide
  rw [guarded, Fragment.code]
  simp only [Text.solid_append, hthen]
  change _ ++ Text.solid (String.join ((Text.lines code).map _)) ++ _ = _
  rw [hlines]

end Fragment

end WireMapper
