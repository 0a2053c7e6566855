import WireMapper.Hierarchy.Resolve

/-!
Answers kept for the next time they are asked for. Errors are not kept, and an answer that is kept
stays as it is when the files change, until the cache is cleared.
-/

namespace WireMapper.Hierarchy

/-- The answers given so far, by class and field, and how often a kept answer was given. -/
structure Cache where
  answers : List ((String × String) × Resolution)
  hits : Nat

namespace Cache

def empty : Cache := ⟨[], 0⟩

def size (cache : Cache) : Nat :=
  cache.answers.length

def get? (cache : Cache) (className field : String) : Option Resolution :=
  cache.answers.lookup (className, field)

/-- Forgets all answers. The count of hits goes on. -/
def clear (cache : Cache) : Cache :=
  ⟨[], cache.hits⟩

/-- Answers from the cache, or else by asking; a new answer is kept. -/
def query (cache : Cache) (ask : String → String → Except Error Resolution)
    (className field : String) : Except Error Resolution × Cache :=
  match cache.get? className field with
  | some answer => (.ok answer, ⟨cache.answers, cache.hits + 1⟩)
  | none =>
    match ask className field with
    | .error e => (.error e, cache)
    | .ok answer =>
      (.ok answer, ⟨((className, field), answer) :: cache.answers, cache.hits⟩)

end Cache

end WireMapper.Hierarchy
