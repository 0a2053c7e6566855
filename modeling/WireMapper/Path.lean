import WireMapper.Text.Pieces

/-!
Paths as they are written. A path keeps its spelling, so that what is joined is shown as it was
joined, but two spellings are the same path when their components agree: repeated and trailing
slashes and dots that do not come first make no difference.
-/

namespace WireMapper

structure Path where
  text : String
deriving DecidableEq, Repr, Inhabited

namespace Path

open WireMapper.Text

/-- A piece between slashes that says nothing about where the path leads. -/
def isVoid (piece : String) : Bool :=
  piece = "" || piece = "."

/-- The start of a path that counts as a component of its own: the root slash, or a first dot. -/
def lead (p : Path) : String :=
  match p.text.toList with
  | '/' :: _ => "/"
  | ['.'] => "."
  | '.' :: '/' :: _ => "."
  | _ => ""

def pieces (p : Path) : List String :=
  split '/' (String.ofList (p.text.toList.drop p.lead.length))

def names (p : Path) : List String :=
  p.pieces.filter fun piece => !isVoid piece

/-- The components: the lead, if there is one, and the names. -/
def components (p : Path) : List String :=
  if p.lead = "" then p.names else p.lead :: p.names

def isAbsolute (p : Path) : Bool :=
  p.lead = "/"

def same (p q : Path) : Bool :=
  p.components = q.components

def isWithin (p q : Path) : Bool :=
  q.components.isPrefixOf p.components

/-- The path with another one written after it; an absolute one takes its place. -/
def join (p q : Path) : Path :=
  if q.isAbsolute then q
  else if p.text = "" ∨ p.text.toList.getLast? = some '/' then ⟨p.text ++ q.text⟩
  else ⟨p.text ++ "/" ++ q.text⟩

def dropVoidEnd (pieces : List String) : List String :=
  (pieces.reverse.dropWhile isVoid).reverse

/-- The path that holds this one, in its own spelling. A path without components has none, and
neither has the root. -/
def parent? (p : Path) : Option Path :=
  match dropVoidEnd p.pieces with
  | [] => if p.lead = "." then some ⟨""⟩ else none
  | pieces => some ⟨p.lead ++ Text.join '/' (dropVoidEnd pieces.dropLast)⟩

/-- The last name. A path that ends in the root, or goes up at its end, has none. -/
def fileName? (p : Path) : Option String :=
  match (dropVoidEnd p.pieces).getLast? with
  | some ".." => none
  | name => name

/-- A name up to its last dot; a name whose only dot comes first is all stem. -/
def stem (name : String) : String :=
  match (split '.' name).dropLast with
  | [] => name
  | [""] => name
  | segments => Text.join '.' segments

def withExtension (p : Path) (extension : String) : Path :=
  match p.fileName? with
  | none => p
  | some name =>
    let directory := (dropVoidEnd p.pieces).dropLast
    ⟨p.lead ++ Text.join '/' (directory ++ [stem name ++ "." ++ extension])⟩

end Path

end WireMapper
