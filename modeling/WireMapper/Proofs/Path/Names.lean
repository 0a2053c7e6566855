import WireMapper.Proofs.Path.Spelling

/-!
The names of paths that are made from other paths. Joining a name adds it at the end, the directory
of a path has all of its names but the last, and a new extension changes the last name; the lead
stays what it was. Since components are a lead and names, this says where such paths are.
-/

namespace WireMapper.Path

open WireMapper.Text

/-- A piece that is the name of something: it leads somewhere and holds no slash. -/
structure IsName (piece : String) : Prop where
  leads : isVoid piece = false
  noSlash : '/' ∉ piece.toList

theorem IsName.ne_empty {name : String} (h : IsName name) : name ≠ "" := by
  rintro rfl
  exact absurd h.leads (by decide)

theorem IsName.ne_dot {name : String} (h : IsName name) : name ≠ "." := by
  rintro rfl
  exact absurd h.leads (by decide)

def leading (pieces : List String) : List String :=
  pieces.filter fun piece => !isVoid piece

@[simp]
theorem leading_append (a b : List String) : leading (a ++ b) = leading a ++ leading b :=
  List.filter_append ..

theorem leading_singleton {name : String} (h : IsName name) : leading [name] = [name] := by
  simp [leading, h.leads]

theorem names_eq_leading (p : Path) : p.names = leading p.pieces := rfl

/-- The names of a path hold no slash and lead somewhere. -/
theorem isName_of_mem_names {p : Path} {name : String} (h : name ∈ p.names) : IsName name := by
  obtain ⟨hpiece, hleads⟩ := List.mem_filter.mp h
  exact ⟨by simpa using hleads, p.follows.noSlash name hpiece⟩

/-- Components are told by the lead and the names. -/
theorem components_append {p q : Path} {names : List String} (hlead : p.lead = q.lead)
    (hnames : p.names = q.names ++ names) : p.components = q.components ++ names := by
  unfold components
  rw [hlead, hnames]
  split <;> simp

theorem names_spell {lead : String} {pieces : List String} (h : Follows lead pieces) :
    (spell lead pieces).names = leading pieces := by
  rw [names_eq_leading, pieces_spell h]

theorem follows_of_prefix {p : Path} {pieces : List String} (h : pieces <+: p.pieces)
    (hne : pieces ≠ []) : Follows p.lead pieces := by
  obtain ⟨_, hslash, hstart⟩ := p.follows
  obtain ⟨tail, htail⟩ := h
  cases pieces with
  | nil => exact absurd rfl hne
  | cons first rest =>
      have hhead : p.pieces.head? = some first := by simp [← htail]
      refine ⟨hne, ?_, ?_⟩
      · intro piece hpiece
        exact hslash piece (htail ▸ List.mem_append_left tail hpiece)
      · rcases hstart with hlead | ⟨hlead, hfirst⟩ | ⟨hlead, hdot, hempty⟩
        · exact Or.inl hlead
        · exact Or.inr (Or.inl ⟨hlead, by simpa [hhead] using hfirst⟩)
        · refine Or.inr (Or.inr ⟨hlead, by simpa [hhead] using hdot, ?_⟩)
          intro hfirst
          have hall := hempty (by simpa [hhead] using hfirst)
          rw [← htail] at hall
          simp only [List.cons_append, List.cons.injEq, List.append_eq_nil_iff] at hall
          rw [hall.1, hall.2.1]

/-- A path cut short between two pieces keeps its lead. -/
theorem spell_of_prefix {p : Path} {pieces : List String} (h : pieces <+: p.pieces) :
    (spell p.lead pieces).lead = p.lead ∧ (spell p.lead pieces).names = leading pieces := by
  cases pieces with
  | nil =>
      rcases lead_cases p with ⟨hlead, _⟩ | ⟨hlead, _⟩ | ⟨hlead, _⟩ | ⟨hlead, _⟩ <;>
        rw [hlead] <;> exact ⟨by decide, by decide⟩
  | cons first rest =>
      have hfollows := follows_of_prefix h (by simp)
      exact ⟨lead_spell hfollows, names_spell hfollows⟩

theorem leading_eq_nil {pieces : List String} (h : ∀ piece ∈ pieces, isVoid piece = true) :
    leading pieces = [] := by
  simpa [leading, List.filter_eq_nil_iff] using h

/-- Only void pieces are dropped at the end. -/
theorem dropVoidEnd_append (pieces : List String) :
    ∃ void, dropVoidEnd pieces ++ void = pieces ∧ ∀ piece ∈ void, isVoid piece = true := by
  refine ⟨(pieces.reverse.takeWhile isVoid).reverse, ?_, ?_⟩
  · rw [dropVoidEnd, ← List.reverse_append, List.takeWhile_append_dropWhile, List.reverse_reverse]
  · intro piece hpiece
    exact List.all_eq_true.mp List.all_takeWhile piece (List.mem_reverse.mp hpiece)

/-- The last name of a path stands before void pieces only. -/
theorem pieces_of_names {p : Path} {names : List String} {name : String}
    (h : p.names = names ++ [name]) :
    ∃ before, dropVoidEnd p.pieces = before ++ [name] ∧ before ++ [name] <+: p.pieces ∧
      leading before = names := by
  obtain ⟨before, after, hpieces, hbefore, hafter⟩ := List.filter_eq_append_iff.mp h
  obtain ⟨void, rest, rfl, hvoid, hname, hrest⟩ := List.filter_eq_cons_iff.mp hafter
  have hleading : leading void = [] := leading_eq_nil (by simpa using hvoid)
  have hdropped : ∀ piece ∈ rest.reverse, isVoid piece = true := by
    intro piece hpiece
    have := List.filter_eq_nil_iff.mp hrest piece (List.mem_reverse.mp hpiece)
    simpa using this
  refine ⟨before ++ void, ?_, ⟨rest, by simp [hpieces]⟩, ?_⟩
  · have hlast : isVoid name = false := by simpa using hname
    rw [hpieces, dropVoidEnd]
    simp only [List.reverse_append, List.reverse_cons, List.append_assoc]
    rw [List.dropWhile_append_of_pos hdropped]
    simp [hlast]
  · rw [leading_append, hleading, List.append_nil]
    exact hbefore

/-- The directory of a path that has a last name. -/
theorem parent?_of_names {p : Path} {names : List String} {name : String}
    (h : p.names = names ++ [name]) :
    ∃ directory, p.parent? = some directory ∧ directory.lead = p.lead ∧
      directory.names = names := by
  obtain ⟨before, hdropped, hprefix, hleading⟩ := pieces_of_names h
  obtain ⟨void, hvoid, hall⟩ := dropVoidEnd_append before
  have hpieces : dropVoidEnd before <+: p.pieces :=
    (show dropVoidEnd before <+: before from ⟨void, hvoid⟩).trans
      ((List.prefix_append before [name]).trans hprefix)
  obtain ⟨hlead, hnames⟩ := spell_of_prefix hpieces
  refine ⟨spell p.lead (dropVoidEnd before), ?_, hlead, ?_⟩
  · unfold parent?
    rw [hdropped]
    split
    · simp_all
    · simp [spell]
  · rw [hnames, ← hleading, ← hvoid, leading_append, leading_eq_nil hall, List.append_nil]
    rw [hvoid]

/-- The last name is the name of the file, unless it leads upwards. -/
theorem fileName?_of_names {p : Path} {names : List String} {name : String}
    (h : p.names = names ++ [name]) (hup : name ≠ "..") : p.fileName? = some name := by
  obtain ⟨before, hdropped, _, _⟩ := pieces_of_names h
  unfold fileName?
  rw [hdropped, List.getLast?_concat]
  split
  · simp_all
  · rfl

/-- A name follows a root slash, or nothing. -/
theorem Follows.single {lead name : String} (hlead : lead = "/" ∨ lead = "") (h : IsName name) :
    Follows lead [name] := by
  refine ⟨by simp, ?_, ?_⟩
  · intro piece hpiece
    rw [List.mem_singleton.mp hpiece]
    exact h.noSlash
  · rcases hlead with hlead | hlead
    · exact Or.inl hlead
    · refine Or.inr (Or.inr ⟨hlead, ?_, ?_⟩)
      · simpa using h.ne_dot
      · intro hfirst
        exact absurd (Option.some.inj hfirst) h.ne_empty

/-- A name follows pieces, unless they are the single empty one of the empty text. -/
theorem Follows.concat {lead name : String} {pieces : List String} (h : Follows lead pieces)
    (hfirst : lead = "" → pieces.head? ≠ some "") (hname : IsName name) :
    Follows lead (pieces ++ [name]) := by
  obtain ⟨hne, hslash, hstart⟩ := h
  have hhead : (pieces ++ [name]).head? = pieces.head? := by
    cases pieces with
    | nil => exact absurd rfl hne
    | cons first rest => rfl
  refine ⟨by simp, ?_, ?_⟩
  · intro piece hpiece
    rcases List.mem_append.mp hpiece with hpiece | hpiece
    · exact hslash piece hpiece
    · rw [List.mem_singleton.mp hpiece]
      exact hname.noSlash
  · rw [hhead]
    rcases hstart with hlead | hdot | ⟨hlead, hdot, _⟩
    · exact Or.inl hlead
    · exact Or.inr (Or.inl hdot)
    · exact Or.inr (Or.inr ⟨hlead, hdot, fun hempty => absurd hempty (hfirst hlead)⟩)

/-- The pieces of a path with its last one replaced by a name still follow its lead, unless that
leaves a name straight after a first dot. -/
theorem Follows.replaceLast {p : Path} {before : List String} {last name : String}
    (h : before ++ [last] <+: p.pieces) (hdot : before = [] → p.lead ≠ ".") (hname : IsName name) :
    Follows p.lead (before ++ [name]) := by
  obtain ⟨_, _, hstart⟩ := follows_of_prefix h (by simp)
  cases before with
  | nil =>
      rcases hstart with hlead | ⟨hlead, _⟩ | ⟨hlead, _⟩
      · exact Follows.single (Or.inl hlead) hname
      · exact absurd hlead (hdot rfl)
      · exact Follows.single (Or.inr hlead) hname
  | cons first rest =>
      have hbefore :=
        follows_of_prefix ((List.prefix_append _ _).trans h) (List.cons_ne_nil first rest)
      refine hbefore.concat ?_ hname
      intro hlead hfirst
      rcases hstart with hslash | ⟨hslash, _⟩ | ⟨_, _, hempty⟩
      · simp [hlead] at hslash
      · simp [hlead] at hslash
      · simpa using hempty (by simpa using hfirst)

/-- Replacing the extension replaces the last name. -/
theorem withExtension_of_names {p : Path} {names : List String} {name extension : String}
    (h : p.names = names ++ [name]) (hup : name ≠ "..")
    (hother : IsName (stem name ++ "." ++ extension)) :
    (p.withExtension extension).lead = p.lead ∧
      (p.withExtension extension).names = names ++ [stem name ++ "." ++ extension] := by
  obtain ⟨before, hdropped, hprefix, hleading⟩ := pieces_of_names h
  have hname : IsName name := isName_of_mem_names (p := p) (by simp [h])
  have hfollows : Follows p.lead (before ++ [stem name ++ "." ++ extension]) := by
    refine Follows.replaceLast hprefix ?_ hother
    rintro rfl hlead
    obtain ⟨_, _, hstart⟩ := follows_of_prefix hprefix (by simp)
    rcases hstart with hslash | ⟨_, hempty⟩ | ⟨hslash, _⟩
    · simp [hlead] at hslash
    · exact hname.ne_empty (by simpa using hempty)
    · simp [hlead] at hslash
  have hpath : p.withExtension extension =
      spell p.lead (before ++ [stem name ++ "." ++ extension]) := by
    unfold withExtension
    simp [fileName?_of_names h hup, hdropped, spell]
  rw [hpath]
  refine ⟨lead_spell hfollows, ?_⟩
  rw [names_spell hfollows, leading_append, hleading, leading_singleton hother]

theorem joinChars_concat_append (sep : Char) (pieces : List (List Char)) (a b : List Char) :
    joinChars sep (pieces ++ [a]) ++ b = joinChars sep (pieces ++ [a ++ b]) := by
  cases pieces with
  | nil => simp [joinChars]
  | cons first rest =>
      rw [joinChars_append (by simp) (by simp), joinChars_append (by simp) (by simp)]
      simp [joinChars]

/-- A path whose text ends in its last piece: another text after it goes into that piece. -/
theorem text_append_of_pieces {p : Path} {before : List String} {last : String}
    (h : p.pieces = before ++ [last]) (after : String) :
    (⟨p.text ++ after⟩ : Path) = spell p.lead (before ++ [last ++ after]) := by
  rw [Path.mk.injEq]
  apply String.toList_injective
  rw [String.toList_append, text_toList, h, List.map_append, List.append_assoc]
  rw [show [last].map String.toList = [last.toList] from rfl, joinChars_concat_append]
  simp [spell, Text.join]

/-- A slash and another text after a path make the text one more piece. -/
theorem text_slash_append (p : Path) (after : String) :
    (⟨p.text ++ "/" ++ after⟩ : Path) = spell p.lead (p.pieces ++ [after]) := by
  rw [Path.mk.injEq]
  apply String.toList_injective
  have hne : p.pieces.map String.toList ≠ [] := by simpa using p.follows.nonempty
  have hsplit : joinChars '/' (p.pieces.map String.toList ++ [after.toList]) = _ :=
    joinChars_append hne (List.cons_ne_nil after.toList [])
  rw [String.toList_append, String.toList_append, text_toList p, spell_toList, List.map_append]
  rw [show [after].map String.toList = [after.toList] from rfl, hsplit]
  simp [joinChars]

theorem isAbsolute_name {name : String} (h : IsName name) : isAbsolute ⟨name⟩ = false := by
  rcases lead_cases ⟨name⟩ with ⟨_, cs, ht⟩ | ⟨hlead, _⟩ | ⟨hlead, _⟩ | ⟨hlead, _⟩
  · exact absurd (show '/' ∈ name.toList by rw [show name.toList = _ from ht]; simp) h.noSlash
  all_goals simp [isAbsolute, hlead]

/-- Where a text is empty or ends in a slash, the last piece is empty, and no dot leads alone. -/
theorem last_of_open {p : Path} {before : List String} {last : String}
    (h : p.pieces = before ++ [last])
    (hopen : p.text = "" ∨ p.text.toList.getLast? = some '/') :
    last = "" ∧ (before = [] → p.lead ≠ ".") := by
  have htext := text_toList p
  rw [h, List.map_append, show [last].map String.toList = [last.toList] from rfl] at htext
  constructor
  · refine Decidable.byContradiction fun hlast => ?_
    have hchars : last.toList ≠ [] := by simpa using hlast
    obtain ⟨start, hstart⟩ : ∃ start, p.text.toList = start ++ last.toList := by
      refine ⟨p.lead.toList ++ joinChars '/' (before.map String.toList ++ [[]]), ?_⟩
      rw [htext, List.append_assoc, joinChars_concat_append, List.nil_append]
    rcases hopen with hempty | hslash
    · simp [hempty, hlast] at hstart
    · have hmem : '/' ∈ last.toList := by
        rw [hstart, List.getLast?_append, List.getLast?_eq_some_getLast hchars] at hslash
        rw [← Option.some.inj hslash]
        exact List.getLast_mem hchars
      exact p.follows.noSlash last (by simp [h]) hmem
  · rintro rfl hlead
    have hdot : p.text.toList = ['.'] := by
      obtain ⟨_, _, hstart⟩ := p.follows
      simp_all [joinChars]
    rcases hopen with hempty | hslash
    · simp [hempty] at hdot
    · simp [hdot] at hslash

/-- Joining a name keeps the lead and adds the name. -/
theorem join_name {p : Path} {name : String} (hname : IsName name) :
    (p.join ⟨name⟩).lead = p.lead ∧ (p.join ⟨name⟩).names = p.names ++ [name] := by
  obtain ⟨before, last, hpieces⟩ : ∃ before last, p.pieces = before ++ [last] :=
    ⟨_, _, (List.dropLast_concat_getLast p.follows.nonempty).symm⟩
  rw [join, isAbsolute_name hname, if_neg Bool.false_ne_true]
  by_cases hopen : p.text = "" ∨ p.text.toList.getLast? = some '/'
  · obtain ⟨rfl, hdot⟩ := last_of_open hpieces hopen
    have hall : before ++ [""] <+: p.pieces :=
      ⟨[], by rw [hpieces, List.append_nil]⟩
    have hfollows := Follows.replaceLast hall hdot hname
    rw [if_pos hopen, text_append_of_pieces hpieces, String.empty_append]
    refine ⟨lead_spell hfollows, ?_⟩
    rw [names_spell hfollows, names_eq_leading, hpieces, leading_append, leading_append,
      leading_singleton hname]
    simp [leading, isVoid]
  · have hfollows : Follows p.lead (p.pieces ++ [name]) := by
      refine p.follows.concat ?_ hname
      intro hlead hfirst
      rcases p.follows.start with hslash | ⟨hslash, _⟩ | ⟨_, _, hempty⟩
      · simp [hlead] at hslash
      · simp [hlead] at hslash
      · have htext := text_toList p
        rw [hlead, hempty hfirst] at htext
        exact hopen (Or.inl (String.toList_eq_nil_iff.mp (by simpa [joinChars] using htext)))
    rw [if_neg hopen, text_slash_append]
    refine ⟨lead_spell hfollows, ?_⟩
    rw [names_spell hfollows, leading_append, leading_singleton hname, names_eq_leading]

end WireMapper.Path
