import WireMapper.Toml.Expression
import WireMapper.Toml.Text

/-!
Reading keys and values. Arrays and inline tables may run over several lines, with comments between
their parts, and may end in a comma.
-/

namespace WireMapper.Toml

def isBareKeyChar (c : Char) : Bool :=
  c.isAlphanum || c = '_' || c = '-'

def skipBlanks (cs : List Char) : List Char :=
  cs.dropWhile isBlankChar

def keySegment (cs : List Char) : Reading (Except Fault String) :=
  match lineString? cs with
  | some cut => .ok (cut.content, cut.rest)
  | none =>
    let name := cs.takeWhile isBareKeyChar
    if name.isEmpty then .error (.expected "key")
    else .ok (.ok (String.ofList name), cs.drop name.length)

theorem length_skipBlanks_le (cs : List Char) : (skipBlanks cs).length ≤ cs.length :=
  (List.dropWhile_suffix _).length_le

theorem length_keySegment_lt {cs rest : List Char} {segment : Except Fault String}
    (h : keySegment cs = .ok (segment, rest)) : rest.length < cs.length := by
  unfold keySegment at h
  split at h
  · rename_i hs
    cases h
    exact length_lineString?_lt hs
  · dsimp only at h
    split at h
    · cases h
    · rename_i hn
      cases h
      have hpos : 0 < (cs.takeWhile isBareKeyChar).length :=
        List.length_pos_iff.2 (by simpa using hn)
      have hle := (List.takeWhile_prefix (l := cs) isBareKeyChar).length_le
      simp only [List.length_drop]
      omega

/-- Takes a key: segments with dots between them, and blanks around the dots. -/
def key (cs : List Char) : Reading Key :=
  match _h : keySegment cs with
  | .error e => .error e
  | .ok (segment, after) =>
    match _hd : skipBlanks after with
    | '.' :: next =>
      match key (skipBlanks next) with
      | .error e => .error e
      | .ok (segments, rest) => .ok (segment :: segments, rest)
    | _ => .ok ([segment], after)
termination_by cs.length
decreasing_by
  have h1 := length_keySegment_lt _h
  have h2 := length_skipBlanks_le after
  have h3 := length_skipBlanks_le next
  rw [_hd, List.length_cons] at h2
  omega

/-- A key takes at least its first segment. -/
theorem length_key_lt {cs rest : List Char} {segments : Key}
    (h : key cs = .ok (segments, rest)) : rest.length < cs.length := by
  fun_induction key cs generalizing segments rest with
  | case1 => cases h
  | case2 => cases h
  | case3 cs segment after hs rest' hd segments' rest'' hk ih =>
    have h1 := length_keySegment_lt hs
    have h2 := length_skipBlanks_le after
    have h3 := length_skipBlanks_le rest'
    have h4 := ih hk
    rw [hd, List.length_cons] at h2
    cases h
    omega
  | case4 cs segment after hs => cases h; exact length_keySegment_lt hs

def skipComment : List Char → Except Fault (List Char)
  | [] => .ok []
  | '\n' :: cs => .ok ('\n' :: cs)
  | '\r' :: '\n' :: cs => .ok ('\r' :: '\n' :: cs)
  | c :: cs => if isControl c then .error .badCharacter else skipComment cs

theorem length_skipComment_le {cs rest : List Char} (h : skipComment cs = .ok rest) :
    rest.length ≤ cs.length := by
  fun_induction skipComment cs with
  | case1 => cases h; exact Nat.le_refl _
  | case2 => cases h; exact Nat.le_refl _
  | case3 => cases h; exact Nat.le_refl _
  | case4 => cases h
  | case5 => rename_i ih; have := ih h; simp only [List.length_cons]; omega

def skipLines (cs : List Char) : Except Fault (List Char) :=
  match cs with
  | [] => .ok []
  | '\r' :: '\n' :: rest => skipLines rest
  | '#' :: rest =>
    match _h : skipComment rest with
    | .error e => .error e
    | .ok rest => skipLines rest
  | c :: rest => if isBlankChar c ∨ c = '\n' then skipLines rest else .ok (c :: rest)
termination_by cs.length
decreasing_by
  · simp only [List.length_cons]; omega
  · have := length_skipComment_le _h
    simp only [List.length_cons]; omega
  · simp

theorem length_skipLines_le {cs rest : List Char} (h : skipLines cs = .ok rest) :
    rest.length ≤ cs.length := by
  fun_induction skipLines cs with
  | case1 => cases h; exact Nat.le_refl _
  | case2 => rename_i ih; have := ih h; simp only [List.length_cons]; omega
  | case3 => cases h
  | case4 =>
    rename_i hc ih
    have := ih h
    have := length_skipComment_le hc
    simp only [List.length_cons]; omega
  | case5 => rename_i ih; have := ih h; simp only [List.length_cons]; omega
  | case6 => cases h; exact Nat.le_refl _

def endsScalar (c : Char) : Bool :=
  isBlankChar c || c = '\n' || c = '\r' || c = ',' || c = ']' || c = '\x7d' || c = '#'

/-- Cuts off the characters up to one that ends a scalar. A date goes on after one blank if a digit
follows, since a time may be written there. -/
def cutScalar (cs : List Char) : List Char × List Char :=
  let first := cs.takeWhile fun c => !endsScalar c
  let rest := cs.drop first.length
  match rest with
  | ' ' :: d :: after =>
    if isDate first && d.isDigit then
      let second := (d :: after).takeWhile fun c => !endsScalar c
      (first ++ ' ' :: second, rest.drop (second.length + 1))
    else
      (first, rest)
  | _ => (first, rest)

abbrev Shorter (cs : List Char) := { rest : List Char // rest.length < cs.length }

def scalarExpression (cs : List Char) : Except Fault (Expression × Shorter cs) :=
  let cut := cutScalar cs
  if h : cut.2.length < cs.length then .ok (.scalar cut.1, ⟨cut.2, h⟩)
  else .error (.expected "value")

/-- Takes the given character after blanks, line breaks and comments. -/
def afterLines (wanted : Char) (cs : List Char) : Except Fault (Shorter cs) :=
  match h : skipLines cs with
  | .error e => .error e
  | .ok [] => .error (.expected (String.singleton wanted))
  | .ok (c :: rest) =>
    if c = wanted then
      .ok ⟨rest, by have := length_skipLines_le h; simp only [List.length_cons] at this; omega⟩
    else
      .error (.expected (String.singleton wanted))

mutual

/-- Takes a value that may hold so many levels of arrays and inline tables. -/
def expression (levels : Nat) (cs : List Char) : Except Fault (Expression × Shorter cs) :=
  match cs with
  | [] => .error (.expected "value")
  | '[' :: rest =>
    if levels = 0 then .error .nestedTooDeep
    else
      match arrayItems (levels - 1) rest with
      | .error e => .error e
      | .ok (items, ⟨rest, h⟩) =>
        .ok (.array items, ⟨rest, by simp only [List.length_cons]; omega⟩)
  | '{' :: rest =>
    if levels = 0 then .error .nestedTooDeep
    else
      match inlineMembers (levels - 1) rest with
      | .error e => .error e
      | .ok (members, ⟨rest, h⟩) =>
        .ok (.table members, ⟨rest, by simp only [List.length_cons]; omega⟩)
  | c :: rest =>
    match hs : anyString? (c :: rest) with
    | some cut => .ok (.string cut.content, ⟨cut.rest, length_anyString?_lt hs⟩)
    | none => scalarExpression (c :: rest)
termination_by 2 * cs.length

def arrayItems (levels : Nat) (cs : List Char) : Except Fault (List Expression × Shorter cs) :=
  match hl : skipLines cs with
  | .error e => .error e
  | .ok [] => .error (.expected "]")
  | .ok (']' :: rest) =>
    .ok ([], ⟨rest, by have := length_skipLines_le hl; simp only [List.length_cons] at this; omega⟩)
  | .ok (c :: rest) =>
    have h1 : rest.length + 1 ≤ cs.length := by simpa using length_skipLines_le hl
    match expression levels (c :: rest) with
    | .error e => .error e
    | .ok (item, ⟨after, h2⟩) =>
      match hm : skipLines after with
      | .error e => .error e
      | .ok (']' :: rest) =>
        .ok ([item], ⟨rest, by
          have := length_skipLines_le hm; simp only [List.length_cons] at this h1 h2; omega⟩)
      | .ok (',' :: rest) =>
        have h3 : rest.length < cs.length := by
          have := length_skipLines_le hm; simp only [List.length_cons] at this h2; omega
        match arrayItems levels rest with
        | .error e => .error e
        | .ok (items, ⟨rest, h4⟩) =>
          .ok (item :: items, ⟨rest, by omega⟩)
      | .ok _ => .error (.expected "]")
termination_by 2 * cs.length + 1

def inlineMembers (levels : Nat) (cs : List Char) :
    Except Fault (List (Key × Expression) × Shorter cs) :=
  match hl : skipLines cs with
  | .error e => .error e
  | .ok ('}' :: rest) =>
    .ok ([], ⟨rest, by have := length_skipLines_le hl; simp only [List.length_cons] at this; omega⟩)
  | .ok start =>
    have h1 := length_skipLines_le hl
    match hk : key start with
    | .error e => .error e
    | .ok (key, rest) =>
      have h2 := length_key_lt hk
      match afterLines '=' rest with
      | .error e => .error e
      | .ok ⟨rest, h3⟩ =>
        match hv : skipLines rest with
        | .error e => .error e
        | .ok start =>
          have h4 := length_skipLines_le hv
          match expression levels start with
          | .error e => .error e
          | .ok (item, ⟨after, h5⟩) =>
            match hm : skipLines after with
            | .error e => .error e
            | .ok ('}' :: rest) =>
              .ok ([(key, item)], ⟨rest, by
                have := length_skipLines_le hm; simp only [List.length_cons] at this; omega⟩)
            | .ok (',' :: rest) =>
              have h6 : rest.length < cs.length := by
                have := length_skipLines_le hm; simp only [List.length_cons] at this; omega
              match inlineMembers levels rest with
              | .error e => .error e
              | .ok (members, ⟨rest, h7⟩) => .ok ((key, item) :: members, ⟨rest, by omega⟩)
            | .ok _ => .error (.expected "closing brace")
termination_by 2 * cs.length + 1

end

end WireMapper.Toml
