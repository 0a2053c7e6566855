import WireMapper.Proofs.Hierarchy.Cache
import WireMapper.Proofs.Mapping.Outcome

/-!
The cache that the messages of a run share changes none of their mappings. While the files stay as
they are, everything that it keeps is what asking would give. A query preserves this, so every field
is mapped as if it were the first one, whatever was mapped before it and whatever failed.
-/

namespace WireMapper

namespace Hierarchy.Cache

variable {ask : String → String → Except Error Resolution} {cache : Cache}

def Agrees (cache : Cache) (ask : String → String → Except Error Resolution) : Prop :=
  ∀ className field answer, cache.get? className field = some answer →
    ask className field = .ok answer

theorem agrees_empty : empty.Agrees ask := by
  intro className field answer hkept
  cases hkept

/-- A query is answered as if it were asked afresh. -/
theorem Agrees.query_eq (h : cache.Agrees ask) (className field : String) :
    (cache.query ask className field).1 = ask className field := by
  rcases query_cases cache ask className field with
    ⟨answer, hkept, hquery⟩ | ⟨e, -, hask, hquery⟩ | ⟨answer, -, hask, hquery⟩
  · rw [hquery, h className field answer hkept]
  · rw [hquery, hask]
  · rw [hquery, hask]

theorem Agrees.query (h : cache.Agrees ask) (className field : String) :
    (cache.query ask className field).2.Agrees ask := by
  intro other part answer hkept
  rcases get?_query_eq_some.mp hkept with hkept | ⟨-, rfl, rfl, hask⟩
  · exact h other part answer hkept
  · exact hask

end Hierarchy.Cache

namespace Mapping.Generator

open Hierarchy (Cache)

section

variable (g : Generator) (m : Fin g.schema.size.messages)

def freshOutcome (f : Field g.schema.size) : FieldOutcome :=
  (g.outcome m f Cache.empty).1

/-- The mapping of a message in which nothing is kept from one field to the next. -/
def freshMapping : MessageMapping :=
  ⟨(g.schema.message m).fullName, g.schema.domainName m,
    (g.schema.message m).fields.map (g.freshOutcome m)⟩

end

variable {g : Generator} {m : Fin g.schema.size.messages} {f : Field g.schema.size} {cache : Cache}

theorem reply_of_agrees (h : cache.Agrees g.ask) :
    g.reply m f cache = g.ask (g.schema.domainName m) f.generatedName :=
  h.query_eq _ _

variable (g m f) in
theorem freshOutcome_becomes :
    g.Becomes m f (g.ask (g.schema.domainName m) f.generatedName) (g.freshOutcome m f) := by
  rw [← reply_of_agrees Cache.agrees_empty]
  exact outcome_becomes g m f Cache.empty

theorem outcome_snd : (g.outcome m f cache).2 = (g.domainField m f cache).2 := by
  rw [outcome]
  generalize g.domainField m f cache = side
  obtain ⟨side, after⟩ := side
  rcases side with e | _ | d
  · rfl
  · rfl
  · dsimp only
    split <;> rfl

variable (g m f cache) in
/-- A field leaves the cache as it is, or asks it once. -/
theorem outcome_snd_cases :
    (g.outcome m f cache).2 = cache ∨
      (g.outcome m f cache).2 =
        (cache.query g.ask (g.schema.domainName m) f.generatedName).2 := by
  cases hunused : f.options.unused with
  | true => exact Or.inl (by rw [outcome_of_skipped hunused])
  | false =>
      cases htype : g.schema.typeModel f with
      | error e => exact Or.inl (by rw [outcome_of_untyped hunused htype])
      | ok model =>
          right
          rw [outcome_snd, domainField_of_typed hunused htype]

/-- Mapping a field leaves nothing else in the cache than what asking gives. -/
theorem agrees_outcome (h : cache.Agrees g.ask) : (g.outcome m f cache).2.Agrees g.ask := by
  rcases outcome_snd_cases g m f cache with hsame | hasked
  · rw [hsame]
    exact h
  · rw [hasked]
    exact h.query _ _

/-- A field is mapped as if nothing were kept. -/
theorem outcome_of_agrees (h : cache.Agrees g.ask) :
    (g.outcome m f cache).1 = g.freshOutcome m f := by
  apply outcome_congr
  rw [reply_of_agrees h, reply_of_agrees Cache.agrees_empty]

/-- The fields of a message are mapped each as if nothing were kept. -/
theorem outcomes_of_agrees (h : cache.Agrees g.ask) (fields : List (Field g.schema.size)) :
    (g.outcomes m fields cache).1 = fields.map (g.freshOutcome m) ∧
      (g.outcomes m fields cache).2.Agrees g.ask := by
  induction fields generalizing cache with
  | nil => exact ⟨rfl, h⟩
  | cons f fields ih =>
      obtain ⟨hrest, hagrees⟩ := ih (agrees_outcome (m := m) (f := f) h)
      refine ⟨?_, hagrees⟩
      rw [List.map_cons, ← hrest, ← outcome_of_agrees h]
      rfl

/-- The mapping of a message does not depend on what the cache has kept. -/
theorem mapMessage_of_agrees (h : cache.Agrees g.ask) :
    (g.mapMessage m cache).1 = g.freshMapping m ∧ (g.mapMessage m cache).2.Agrees g.ask := by
  obtain ⟨houtcomes, hagrees⟩ := outcomes_of_agrees (m := m) h (g.schema.message m).fields
  refine ⟨?_, hagrees⟩
  rw [freshMapping, ← houtcomes]
  rfl

/-- Every message is mapped as if it were the only one. -/
theorem mapMessages_of_agrees (h : cache.Agrees g.ask)
    (messages : List (Fin g.schema.size.messages)) :
    (g.mapMessages messages cache).1 = messages.map g.freshMapping := by
  induction messages generalizing cache with
  | nil => rfl
  | cons m messages ih =>
      obtain ⟨hmapping, hagrees⟩ := mapMessage_of_agrees (m := m) h
      rw [List.map_cons, ← ih hagrees, ← hmapping]
      rfl

end Mapping.Generator

end WireMapper
