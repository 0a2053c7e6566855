import Mathlib.Data.List.Nodup
import WireMapper.Proofs.Except
import WireMapper.Protobuf.Typing

/-!
In a set whose names are accepted no name is declared twice. A field's full name is made of its own
name and that of the message around it, so the fields of one message are told apart by their own
names alone.
-/

namespace WireMapper.Protobuf

namespace Names

theorem repeated?_eq_none {α : Type} [DecidableEq α] {xs : List α} :
    repeated? xs = none ↔ xs.Nodup := by
  induction xs with
  | nil => simp [repeated?]
  | cons x xs ih =>
      rw [repeated?, List.nodup_cons, ← ih]
      by_cases hx : x ∈ xs <;> simp [hx]

variable {o : Outline} {names : Names o}

/-- Names are accepted only if no two symbols share one. -/
theorem nodup_of_ofOutline (h : ofOutline o = .ok names) : (o.symbols.map (·.name)).Nodup := by
  rw [ofOutline] at h
  split at h
  · simp [bind, Except.bind] at h
  · obtain ⟨-, -, h⟩ := bind_eq_ok.mp h
    obtain ⟨visible, -, h⟩ := bind_eq_ok.mp h
    dsimp only at h
    split at h
    · cases h
    · have hall := repeated?_eq_none.mp ‹_›
      exact (List.nodup_append.mp hall).2.1

end Names

namespace Outline

variable {o : Outline}

/-- The names of a message's fields, seen from outside the message, are declared. -/
theorem nodup_fields (h : (o.symbols.map (·.name)).Nodup) {m : Declared o.files.length MessageDecl}
    (hm : m ∈ o.messages) : (m.decl.fields.map (·.name)).Nodup := by
  have hmembers : (o.messages.flatMap fun m =>
      (m.decl.fields.map (·.name) ++
          m.decl.oneofs.map (·.name)).map (qualify m.fullName)).Nodup := by
    refine List.Nodup.sublist ?_ h
    simp only [symbols, List.map_append, List.map_flatMap, List.map_map]
    exact ((List.sublist_append_right _ _).trans (List.sublist_append_left _ _)).trans
      (List.sublist_append_left _ _)
  have hmember := (List.nodup_flatMap.mp hmembers).1 m hm
  exact (List.nodup_append.mp (List.Nodup.of_map _ hmember)).1

end Outline

section

variable {o : Outline} {names : Names o}

theorem Names.decl_of_field {file : o.Index} {scope : String} {f : FieldDecl} {typed : TypedField o}
    (h : names.field file scope f = .ok typed) : typed.decl = f := by
  obtain ⟨kind, -, h⟩ := bind_eq_ok.mp h
  split at h
  · cases pure_eq_ok.mp h
    rfl
  · split at h
    · cases pure_eq_ok.mp h
      rfl
    · cases h

theorem Names.kind_of_field {file : o.Index} {scope : String} {f : FieldDecl} {typed : TypedField o}
    (h : names.field file scope f = .ok typed) : names.kind file scope f.type = .ok typed.kind := by
  obtain ⟨kind, hkind, h⟩ := bind_eq_ok.mp h
  split at h
  · cases pure_eq_ok.mp h
    exact hkind
  · split at h
    · cases pure_eq_ok.mp h
      exact hkind
    · cases h

/-- The fields that have types are those that are declared. -/
theorem Names.fields_of_typing {typing : Typing o} (h : names.typing = .ok typing)
    (i : Fin o.messages.length) :
    (o.messages.get i).decl.fields.mapM
        (names.field (o.messages.get i).file (o.messages.get i).fullName) =
      .ok (typing.fields.get i) := by
  obtain ⟨fields, hfields, h⟩ := bind_eq_ok.mp h
  obtain ⟨extensions, -, h⟩ := bind_eq_ok.mp h
  cases pure_eq_ok.mp h
  exact get_of_mapM hfields i

end

end WireMapper.Protobuf
