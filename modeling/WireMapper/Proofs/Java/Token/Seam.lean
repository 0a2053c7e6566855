import WireMapper.Proofs.Except
import WireMapper.Proofs.Java.Token.Extent

/-!
Cutting a source in two. Behind a source of whole lines every text has the tokens that it has by
itself, moved down by the lines before it; and a line feed can always be put behind a source. Every
token is a stretch of the source that is read in one step, and its line is the one on which that
stretch starts.
-/

namespace WireMapper.Java

def PlacedToken.down (n : Nat) (t : PlacedToken) : PlacedToken :=
  ⟨t.token, t.line + n⟩

def LexError.down (n : Nat) (e : LexError) : LexError :=
  ⟨e.line + n, e.fault⟩

def movedDown (n : Nat) : Except LexError (List PlacedToken) → Except LexError (List PlacedToken)
  | .error e => .error (e.down n)
  | .ok ts => .ok (ts.map (PlacedToken.down n))

theorem scanFrom_cons {line : Nat} {c : Char} {cs : List Char} {s : Step}
    (h : step line c cs = .ok s) :
    scanFrom line (c :: cs) =
      (scanFrom s.unread.line s.unread.chars).map (s.yield?.toList ++ ·) := by
  rw [scanFrom]
  split
  · rename_i herror
    rw [h] at herror
    cases herror
  · rename_i hsame
    rw [h] at hsame
    cases hsame
    cases scanFrom s.unread.line s.unread.chars <;> rfl

theorem scanFrom_cons_error {line : Nat} {c : Char} {cs : List Char} {e : LexError}
    (h : step line c cs = .error e) : scanFrom line (c :: cs) = .error e := by
  rw [scanFrom]
  split
  · rename_i herror
    rw [h] at herror
    cases herror
    rfl
  · rename_i hsame
    rw [h] at hsame
    cases hsame

/-- A source is read from its second step on as the text that the first step left. -/
theorem StepReads.scanFrom_append {c : Char} {front unread after : List Char}
    {token? : Option Token} (h : StepReads c front unread token?)
    (hafter : Follows c front unread after) (line : Nat) :
    scanFrom line (c :: (front ++ after)) =
      (scanFrom (line + (c :: front).count '\n') after).map
        ((token?.map (⟨·, line⟩)).toList ++ ·) :=
  scanFrom_cons (h line after hafter)

/-- A step that succeeds, given by what it reads wherever it stands. -/
theorem exists_stepReads {line : Nat} {c : Char} {cs : List Char} {s : Step}
    (h : step line c cs = .ok s) :
    ∃ token? front unread, cs = front ++ unread ∧ StepReads c front unread token? ∧
      s = ⟨token?.map (⟨·, line⟩), line + (c :: front).count '\n', unread⟩ := by
  obtain ⟨token?, front, hcs, hreads⟩ := stepReads_of_step h
  refine ⟨token?, front, s.unread.chars, hcs, hreads, ?_⟩
  have hsame := hreads.step_eq line
  rw [← hcs, h] at hsame
  exact Except.ok.inj hsame

/-- The text after a step may be cut short. -/
theorem follows_front {c : Char} {front cs back : List Char} : Follows c front (cs ++ back) cs := by
  cases cs with
  | nil => exact .nothing
  | cons d cs => exact .alike rfl

/-- Where a source starts decides on the lines of its tokens and of its fault, and on nothing else.
-/
theorem scanFrom_down (n line : Nat) (cs : List Char) :
    scanFrom (line + n) cs = movedDown n (scanFrom line cs) := by
  fun_induction scanFrom line cs with
  | case1 => simp [scanFrom, movedDown]
  | case2 line c cs e hstep =>
      obtain ⟨hline, hmoved⟩ := step_error hstep (line + n)
      rw [scanFrom_cons_error hmoved, movedDown, LexError.down, hline]
  | case3 line c cs s hstep e hrest ih =>
      obtain ⟨token?, front, unread, rfl, hreads, rfl⟩ := exists_stepReads hstep
      rw [scanFrom_cons (hreads.step_eq (line + n)), Nat.add_right_comm, ih, hrest]
      rfl
  | case4 line c cs s hstep tokens hrest ih =>
      obtain ⟨token?, front, unread, rfl, hreads, rfl⟩ := exists_stepReads hstep
      rw [scanFrom_cons (hreads.step_eq (line + n)), Nat.add_right_comm, ih, hrest]
      cases token? <;> simp [movedDown, PlacedToken.down, Except.map]

/-- A source that can be read is read step by step, each step reading what it would read wherever it
stood. -/
theorem scanFrom_induction {motive : Nat → List Char → List PlacedToken → Prop}
    (nil : ∀ line, motive line [] [])
    (cons : ∀ line c front unread token? ts, StepReads c front unread token? →
      scanFrom (line + (c :: front).count '\n') unread = .ok ts →
      motive (line + (c :: front).count '\n') unread ts →
      motive line (c :: (front ++ unread)) ((token?.map (⟨·, line⟩)).toList ++ ts))
    {line : Nat} {cs : List Char} {ts : List PlacedToken} (h : scanFrom line cs = .ok ts) :
    motive line cs ts := by
  fun_induction scanFrom line cs generalizing ts with
  | case1 line =>
      cases h
      exact nil line
  | case2 => cases h
  | case3 => cases h
  | case4 line c cs s hstep tokens hrest ih =>
      obtain ⟨token?, front, unread, rfl, hreads, rfl⟩ := exists_stepReads hstep
      cases h
      exact cons line c front unread token? tokens hreads hrest (ih hrest)

/-- The end of a line is a seam. Behind a source of whole lines the tokens of any text are the ones
it has by itself. -/
theorem scanFrom_append {line : Nat} {cs : List Char} {ts : List PlacedToken}
    (h : scanFrom line cs = .ok ts) (hend : cs = [] ∨ cs.getLast? = some '\n')
    (after : List Char) :
    scanFrom line (cs ++ after) = (scanFrom (line + cs.count '\n') after).map (ts ++ ·) := by
  revert hend
  refine scanFrom_induction (motive := fun line cs ts => (cs = [] ∨ cs.getLast? = some '\n') →
    scanFrom line (cs ++ after) = (scanFrom (line + cs.count '\n') after).map (ts ++ ·)) ?_ ?_ h
  · intro line _
    cases hafter : scanFrom line after <;> simp [hafter, Except.map]
  · intro line c front unread token? ts hreads _ ih hend
    have hlast := hend.resolve_left (List.cons_ne_nil c _)
    rw [← List.cons_append, List.getLast?_append] at hlast
    have hunread : unread = [] ∨ unread.getLast? = some '\n' := by
      cases unread with
      | nil => exact .inl rfl
      | cons d unread =>
          rw [List.getLast?_cons, Option.some_or] at hlast
          rw [List.getLast?_cons]
          exact .inr hlast
    have hfollows : Follows c front unread (unread ++ after) := by
      cases unread with
      | nil => exact .nextLine hlast
      | cons d unread => exact .alike rfl
    rw [List.cons_append, List.append_assoc, hreads.scanFrom_append hfollows, ih hunread,
      ← List.cons_append, List.count_append, Nat.add_assoc]
    cases scanFrom _ after <;> simp [Except.map]

/-- A line comment yields no tokens, with its line feed or without. -/
theorem scanFrom_comment {text : List Char} (htext : '\n' ∉ text) (line : Nat) :
    scanFrom line ('/' :: '/' :: text) = .ok [] ∧
      scanFrom line ('/' :: '/' :: (text ++ ['\n'])) = .ok [] := by
  constructor
  · have hstep := (stepReads_lastLine htext).step_eq line
    rw [List.append_nil] at hstep
    rw [scanFrom_cons hstep, scanFrom]
    rfl
  · have hstep := (stepReads_line htext []).step_eq line
    rw [List.append_nil] at hstep
    rw [scanFrom_cons hstep, scanFrom]
    rfl

/-- A line comment that reads everything and holds the end of its line reads up to there. -/
theorem StepReads.getLast?_of_comment {text : List Char} {token? : Option Token}
    (h : StepReads '/' ('/' :: text) [] token?) (hline : '\n' ∈ text) :
    text.getLast? = some '\n' := by
  obtain ⟨front, after, rfl, hfront⟩ := List.eq_append_cons_of_mem hline
  have hstep := h 1 [] .nothing
  have hended := stepReads_line hfront after 1 after (.alike rfl)
  have hsame : '/' :: (front ++ '\n' :: after) ++ [] = '/' :: (front ++ ['\n']) ++ after := by simp
  rw [hsame, hended] at hstep
  obtain rfl : after = [] := congrArg (fun s => s.unread.chars) (Except.ok.inj hstep)
  simp

/-- A line feed at the end of a source changes nothing, not even where a line comment ends there. -/
theorem scanFrom_lineFeed {line : Nat} {cs : List Char} {ts : List PlacedToken}
    (h : scanFrom line cs = .ok ts) : scanFrom line (cs ++ ['\n']) = .ok ts := by
  refine scanFrom_induction (motive := fun line cs ts => scanFrom line (cs ++ ['\n']) = .ok ts)
    ?_ ?_ h
  · intro line
    have hstep := (stepReads_space (c := '\n') (by decide) []).step_eq line
    rw [List.append_nil] at hstep
    rw [List.nil_append, scanFrom_cons hstep, scanFrom]
    rfl
  · intro line c front unread token? ts hreads hrest ih
    by_cases hcomment : unread = [] ∧ c = '/' ∧ ∃ text, front = '/' :: text ∧ '\n' ∉ text
    · obtain ⟨rfl, rfl, text, rfl, htext⟩ := hcomment
      obtain ⟨hbare, hended⟩ := scanFrom_comment htext line
      have hsame := scanFrom_cons (hreads.step_eq line)
      simp only [List.append_nil, hbare, hrest, Except.map] at hsame
      rw [List.append_nil, List.cons_append, List.cons_append, hended]
      exact hsame
    · have hfollows : Follows c front unread (unread ++ ['\n']) := by
        cases unread with
        | cons d unread => exact .alike rfl
        | nil =>
            by_cases hslash : c = '/' ∧ front.head? = some '/'
            · obtain ⟨rfl, hhead⟩ := hslash
              obtain ⟨text, rfl⟩ := List.head?_eq_some_iff.mp hhead
              have hline : '\n' ∈ text :=
                Classical.byContradiction fun htext => hcomment ⟨rfl, rfl, text, rfl, htext⟩
              exact .nextLine (by simp [List.getLast?_cons, hreads.getLast?_of_comment hline])
            · exact .lineFeed hslash
      rw [List.cons_append, List.append_assoc, hreads.scanFrom_append hfollows, ih]
      rfl

/-- A text that one step reads all of as the token, on whatever line. -/
def IsLexeme (cs : List Char) (token : Token) : Prop :=
  ∃ c front, cs = c :: front ∧
    ∀ line, step line c front = .ok ⟨some ⟨token, line⟩, line + cs.count '\n', []⟩

/-- Every token is a stretch of the source, and its line is the one that the stretch starts on. -/
theorem exists_lexeme {line : Nat} {cs : List Char} {ts : List PlacedToken}
    (h : scanFrom line cs = .ok ts) {i : Nat} {t : PlacedToken} (hi : ts[i]? = some t) :
    ∃ front lexeme back, cs = front ++ (lexeme ++ back) ∧ scanFrom line front = .ok (ts.take i) ∧
      IsLexeme lexeme t.token ∧ t.line = line + front.count '\n' := by
  revert i
  refine scanFrom_induction (motive := fun line cs ts => ∀ {i : Nat}, ts[i]? = some t →
    ∃ front lexeme back, cs = front ++ (lexeme ++ back) ∧ scanFrom line front = .ok (ts.take i) ∧
      IsLexeme lexeme t.token ∧ t.line = line + front.count '\n') ?_ ?_ h
  · intro line i hi
    cases hi
  · intro line c front unread token? ts hreads hrest ih i hi
    cases token? with
    | none =>
        obtain ⟨before, lexeme, back, rfl, hbefore, hlexeme, hline⟩ := ih hi
        refine ⟨c :: (front ++ before), lexeme, back, by simp, ?_, hlexeme, ?_⟩
        · rw [hreads.scanFrom_append follows_front, hbefore]
          rfl
        · rw [hline, ← List.cons_append, List.count_append, Nat.add_assoc]
    | some token =>
        cases i with
        | zero =>
            cases hi
            refine ⟨[], c :: front, unread, by simp, by simp [scanFrom], ⟨c, front, rfl, ?_⟩, rfl⟩
            intro line'
            have hstep := hreads line' [] .nothing
            rwa [List.append_nil] at hstep
        | succ i =>
            obtain ⟨before, lexeme, back, rfl, hbefore, hlexeme, hline⟩ := ih hi
            refine ⟨c :: (front ++ before), lexeme, back, by simp, ?_, hlexeme, ?_⟩
            · rw [hreads.scanFrom_append follows_front, hbefore]
              rfl
            · rw [hline, ← List.cons_append, List.count_append, Nat.add_assoc]

/-- Sources join at line ends. A source that can be read, a line feed and any other source are
together cut into the tokens of the one and those of the other, further down by the lines of the
first; if the second cannot be read, the whole fails as it does, further down. And every token of a
source is placed on the line on which its text starts: one more than the line feeds before it. -/
theorem scan_joined_lines (a b : String) (ts : List PlacedToken) (h : scan a = .ok ts) :
    scan (a ++ "\n" ++ b) =
      (match scan b with
        | .error e => .error ⟨e.line + (1 + a.toList.count '\n'), e.fault⟩
        | .ok us => .ok (ts ++ us.map fun t => ⟨t.token, t.line + (1 + a.toList.count '\n')⟩)) ∧
    ∀ i t, ts[i]? = some t → ∃ front lexeme back : String,
      a = front ++ lexeme ++ back ∧ scan front = .ok (ts.take i) ∧
      IsLexeme lexeme.toList t.token ∧ t.line = 1 + front.toList.count '\n' := by
  constructor
  · have hended := scanFrom_lineFeed h
    have hjoined := scanFrom_append hended (.inr (by simp)) b.toList
    have hline : 1 + (a.toList ++ ['\n']).count '\n' = 1 + (1 + a.toList.count '\n') := by
      simp [Nat.add_comm]
    have hchars : (a ++ "\n" ++ b).toList = a.toList ++ ['\n'] ++ b.toList := by simp
    rw [scan, hchars, hjoined, hline, scanFrom_down, scan]
    cases scanFrom 1 b.toList <;> rfl
  · intro i t hi
    obtain ⟨front, lexeme, back, hchars, hfront, hlexeme, hline⟩ := exists_lexeme h hi
    refine ⟨.ofList front, .ofList lexeme, .ofList back, ?_, ?_, ?_, ?_⟩
    · apply String.toList_injective
      simp [hchars]
    · simpa [scan] using hfront
    · simpa using hlexeme
    · simpa using hline

/-- A comment over two lines, a text block over two lines and a line comment, with a name on the
line after them. -/
theorem scan_joined_lines_textBlock :
    scan "/* \x7b\n*/ s \"\"\"\n; \"\"\" // \x7d" = .ok [⟨.ident "s", 2⟩, ⟨.literal, 2⟩] ∧
      scan ("/* \x7b\n*/ s \"\"\"\n; \"\"\" // \x7d" ++ "\n" ++ "t") =
        .ok [⟨.ident "s", 2⟩, ⟨.literal, 2⟩, ⟨.ident "t", 4⟩] := by
  have hfirst : scan "/* \x7b\n*/ s \"\"\"\n; \"\"\" // \x7d" =
      .ok [⟨.ident "s", 2⟩, ⟨.literal, 2⟩] :=
    ok_of_toOption (by decide +kernel)
  have hsecond : scan "t" = .ok [⟨.ident "t", 1⟩] := ok_of_toOption (by decide +kernel)
  have hjoined := (scan_joined_lines _ "t" _ hfirst).1
  rw [hsecond] at hjoined
  exact ⟨hfirst, hjoined⟩

end WireMapper.Java
