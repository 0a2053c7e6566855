import WireMapper.Toml.Value

/-!
The four kinds of TOML strings. Basic strings know escapes and literal strings know none; either may
run over several lines between threefold quotes. A string is cut at its closing quotes first, and
what its content means is judged apart, so that a bad escape does not hide what comes after the
string.
-/

namespace WireMapper.Toml

/-- A control character other than the tab. -/
def isControl (c : Char) : Bool :=
  (c.toNat < 0x20 && c ≠ '\t') || c.toNat = 0x7F

def isBlankChar (c : Char) : Bool :=
  c = ' ' || c = '\t'

def hexDigit? (c : Char) : Option Nat :=
  if '0' ≤ c ∧ c ≤ '9' then some (c.toNat - '0'.toNat)
  else if 'a' ≤ c ∧ c ≤ 'f' then some (c.toNat - 'a'.toNat + 10)
  else if 'A' ≤ c ∧ c ≤ 'F' then some (c.toNat - 'A'.toNat + 10)
  else none

def hexNumber? (cs : List Char) : Option Nat :=
  cs.foldlM (fun n c => (hexDigit? c).map (16 * n + ·)) 0

def charOf? (n : Nat) : Option Char :=
  if h : n.isValidChar then some (Char.ofNatAux n h) else none

/-- How many digits follow the letter of an escape that gives a code point. -/
def escapeDigits? : Char → Option Nat
  | 'x' => some 2
  | 'u' => some 4
  | 'U' => some 8
  | _ => none

def unicodeEscape? (digits : Nat) (cs : List Char) : Option (Char × List Char) :=
  if cs.length < digits then none
  else ((hexNumber? (cs.take digits)).bind charOf?).map (·, cs.drop digits)

def shortEscape? : Char → Option Char
  | 'b' => some '\x08'
  | 't' => some '\t'
  | 'n' => some '\n'
  | 'f' => some '\x0c'
  | 'r' => some '\r'
  | 'e' => some '\x1b'
  | '"' => some '"'
  | '\\' => some '\\'
  | _ => none

def escape (cs : List Char) : Reading Char :=
  match cs with
  | [] => .error .badEscape
  | c :: rest =>
    match shortEscape? c with
    | some e => .ok (e, rest)
    | none =>
      match (escapeDigits? c).bind fun digits => unicodeEscape? digits rest with
      | some (e, rest) => .ok (e, rest)
      | none => .error .badEscape

theorem length_unicodeEscape?_le {digits : Nat} {cs rest : List Char} {c : Char}
    (h : unicodeEscape? digits cs = some (c, rest)) : rest.length ≤ cs.length := by
  unfold unicodeEscape? at h
  split at h
  · cases h
  · obtain ⟨_, _, he⟩ := Option.map_eq_some_iff.1 h
    cases he
    simp only [List.length_drop]; omega

theorem length_escape_lt {cs rest : List Char} {c : Char} (h : escape cs = .ok (c, rest)) :
    rest.length < cs.length := by
  unfold escape at h
  split at h
  · cases h
  · split at h
    · cases h; simp
    · split at h
      · rename_i hu
        cases h
        obtain ⟨digits, _, hd⟩ := Option.bind_eq_some_iff.1 hu
        have := length_unicodeEscape?_le hd
        simp only [List.length_cons]; omega
      · cases h

def afterNewline? : List Char → Option (List Char)
  | '\n' :: rest => some rest
  | '\r' :: '\n' :: rest => some rest
  | _ => none

def skipFirstNewline (cs : List Char) : List Char :=
  (afterNewline? cs).getD cs

def skipBlankLines : List Char → List Char
  | '\r' :: '\n' :: rest => skipBlankLines rest
  | c :: rest => if isBlankChar c ∨ c = '\n' then skipBlankLines rest else c :: rest
  | [] => []

/-- What follows a backslash that ends its line: the next character that is not blank. -/
def afterLineContinuation? (cs : List Char) : Option (List Char) :=
  (afterNewline? (cs.dropWhile isBlankChar)).map skipBlankLines

theorem length_afterNewline?_lt {cs rest : List Char} (h : afterNewline? cs = some rest) :
    rest.length < cs.length := by
  unfold afterNewline? at h
  split at h
  · cases h; simp
  · cases h; simp only [List.length_cons]; omega
  · cases h

theorem length_skipBlankLines_le (cs : List Char) : (skipBlankLines cs).length ≤ cs.length := by
  fun_induction skipBlankLines cs with
  | case1 _ ih => simp only [List.length_cons]; omega
  | case2 => rename_i ih; simp only [List.length_cons]; omega
  | case3 => exact Nat.le_refl _
  | case4 => exact Nat.le_refl _

theorem length_afterLineContinuation?_lt {cs rest : List Char}
    (h : afterLineContinuation? cs = some rest) : rest.length < cs.length := by
  unfold afterLineContinuation? at h
  obtain ⟨after, ha, rfl⟩ := Option.map_eq_some_iff.1 h
  have h1 := length_afterNewline?_lt ha
  have h2 := length_skipBlankLines_le after
  have h3 := (List.dropWhile_suffix (l := cs) isBlankChar).length_le
  omega

/-- What the content of a basic string means; `read` holds what was read before, in reverse. -/
def unescape (read : List Char) (cs : List Char) : Except Fault String :=
  match cs with
  | [] => .ok (String.ofList read.reverse)
  | '\\' :: rest =>
    match _hc : afterLineContinuation? rest with
    | some rest => unescape read rest
    | none =>
      match _h : escape rest with
      | .error e => .error e
      | .ok (c, rest) => unescape (c :: read) rest
  | '\r' :: '\n' :: rest => unescape ('\n' :: '\r' :: read) rest
  | c :: rest =>
    if isControl c ∧ c ≠ '\n' then .error .badCharacter else unescape (c :: read) rest
termination_by cs.length
decreasing_by
  · have := length_afterLineContinuation?_lt _hc
    simp only [List.length_cons]; omega
  · have := length_escape_lt _h
    simp only [List.length_cons]; omega
  · simp only [List.length_cons]; omega
  · simp

/-- A text without control characters but the line breaks in it. -/
def isPlain : List Char → Bool
  | [] => true
  | '\r' :: '\n' :: cs => isPlain cs
  | c :: cs => (!isControl c || c = '\n') && isPlain cs

def verbatim (cs : List Char) : Except Fault String :=
  if isPlain cs then .ok (String.ofList cs) else .error .badCharacter

structure Cut where
  content : Except Fault String
  rest : List Char

/-- Cuts off the content of a string of one line; `read` holds its start, in reverse. With
`escapes`, a backslash protects the character after it, and `isProtected` says that one came before.
The content is at fault if the line ends first. -/
def cutLine (quote : Char) (escapes isProtected : Bool) (read : List Char) :
    List Char → Except Fault (List Char) × List Char
  | [] => (.error .unterminatedString, [])
  | c :: rest =>
    if c = '\n' then (.error .unterminatedString, c :: rest)
    else if c = quote ∧ !isProtected then (.ok read.reverse, rest)
    else cutLine quote escapes (escapes && c = '\\' && !isProtected) (c :: read) rest

/-- Closes a string of several lines at a run of quotes that is at least three long; up to two
quotes before the closing ones belong to the string. -/
def closeLines? (quote : Char) (read : List Char) (cs : List Char) :
    Option (List Char × List Char) :=
  let run := (cs.takeWhile (· = quote)).length
  if run < 3 then none
  else
    let kept := min (run - 3) 2
    some ((List.replicate kept quote ++ read).reverse, cs.drop (kept + 3))

/-- Cuts off the content of a string of several lines, in the same way. -/
def cutLines (quote : Char) (escapes isProtected : Bool) (read : List Char) :
    List Char → Except Fault (List Char) × List Char
  | [] => (.error .unterminatedString, [])
  | c :: rest =>
    match if isProtected then none else closeLines? quote read (c :: rest) with
    | some (content, rest) => (.ok content, rest)
    | none => cutLines quote escapes (escapes && c = '\\' && !isProtected) (c :: read) rest

def lineString? (cs : List Char) : Option Cut :=
  match cs with
  | '"' :: rest =>
    let cut := cutLine '"' true false [] rest
    some ⟨cut.1 >>= unescape [], cut.2⟩
  | '\'' :: rest =>
    let cut := cutLine '\'' false false [] rest
    some ⟨cut.1 >>= verbatim, cut.2⟩
  | _ => none

/-- Takes a string of either kind with its quotes, if one starts here. -/
def anyString? (cs : List Char) : Option Cut :=
  match cs with
  | '"' :: '"' :: '"' :: rest =>
    let cut := cutLines '"' true false [] (skipFirstNewline rest)
    some ⟨cut.1 >>= unescape [], cut.2⟩
  | '\'' :: '\'' :: '\'' :: rest =>
    let cut := cutLines '\'' false false [] (skipFirstNewline rest)
    some ⟨cut.1 >>= verbatim, cut.2⟩
  | _ => lineString? cs

theorem length_cutLine_le (quote : Char) (escapes isProtected : Bool) (read cs : List Char) :
    (cutLine quote escapes isProtected read cs).2.length ≤ cs.length := by
  fun_induction cutLine quote escapes isProtected read cs with
  | case1 | case2 => exact Nat.le_refl _
  | case3 => simp
  | case4 => rename_i ih; simp only [List.length_cons]; omega

theorem length_closeLines?_le {quote : Char} {read cs content rest : List Char}
    (h : closeLines? quote read cs = some (content, rest)) : rest.length ≤ cs.length := by
  unfold closeLines? at h
  dsimp only at h
  split at h
  · cases h
  · cases h
    simp only [List.length_drop]
    omega

theorem length_cutLines_le (quote : Char) (escapes isProtected : Bool) (read cs : List Char) :
    (cutLines quote escapes isProtected read cs).2.length ≤ cs.length := by
  fun_induction cutLines quote escapes isProtected read cs with
  | case1 => exact Nat.le_refl _
  | case2 isProtected read c rest content rest' h =>
    cases isProtected with
    | true => simp at h
    | false => exact length_closeLines?_le h
  | case3 => rename_i ih; simp only [List.length_cons]; omega

theorem length_lineString?_lt {cs : List Char} {cut : Cut} (h : lineString? cs = some cut) :
    cut.rest.length < cs.length := by
  unfold lineString? at h
  split at h
  · cases h; exact Nat.lt_succ_of_le (length_cutLine_le ..)
  · cases h; exact Nat.lt_succ_of_le (length_cutLine_le ..)
  · cases h

theorem length_skipFirstNewline_le (cs : List Char) : (skipFirstNewline cs).length ≤ cs.length := by
  unfold skipFirstNewline
  cases h : afterNewline? cs with
  | none => exact Nat.le_refl _
  | some rest => exact Nat.le_of_lt (length_afterNewline?_lt h)

theorem length_anyString?_lt {cs : List Char} {cut : Cut} (h : anyString? cs = some cut) :
    cut.rest.length < cs.length := by
  unfold anyString? at h
  split at h
  · rename_i rest
    cases h
    have := length_cutLines_le '"' true false [] (skipFirstNewline rest)
    have := length_skipFirstNewline_le rest
    simp only [List.length_cons]; omega
  · rename_i rest
    cases h
    have := length_cutLines_le '\'' false false [] (skipFirstNewline rest)
    have := length_skipFirstNewline_le rest
    simp only [List.length_cons]; omega
  · exact length_lineString?_lt h

end WireMapper.Toml
