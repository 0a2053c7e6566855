import Mathlib.Data.List.Lex
import WireMapper.FileTree

/-!
The order of names. Code points are in the order of their encodings, and no encoding starts another
one, so comparing names by code points is comparing them by bytes. Lists of names are compared name
by name.
-/

namespace WireMapper

def nameBytes (name : String) : List Nat :=
  name.toUTF8.data.toList.map UInt8.toNat

def charBytes (c : Char) : List Nat :=
  (String.utf8EncodeChar c).map UInt8.toNat

theorem nameBytes_eq (name : String) : nameBytes name = name.toList.flatMap charBytes := by
  have hbytes : name.toUTF8.data.toList = name.toList.flatMap String.utf8EncodeChar := by
    rw [String.toUTF8, ← String.utf8Encode_toList, List.utf8Encode, List.toList_data_toByteArray]
  rw [nameBytes, hbytes, List.map_flatMap]
  rfl

theorem charBytes_ne_nil (c : Char) : charBytes c ≠ [] := by
  simp [charBytes, String.utf8EncodeChar_ne_nil]

theorem toNat_lt_of_char (c : Char) : c.toNat < 0x110000 := by
  rcases c.valid with h | h
  · exact Nat.lt_trans h (by decide)
  · exact h.2

/-- The bytes of a character, by the length of its encoding. -/
theorem charBytes_eq (c : Char) :
    charBytes c =
      if c.toNat ≤ 0x7f then [c.toNat]
      else if c.toNat ≤ 0x7ff then [c.toNat / 64 + 0xc0, c.toNat % 64 + 0x80]
      else if c.toNat ≤ 0xffff then
        [c.toNat / 4096 + 0xe0, c.toNat / 64 % 64 + 0x80, c.toNat % 64 + 0x80]
      else
        [c.toNat / 262144 + 0xf0, c.toNat / 4096 % 64 + 0x80, c.toNat / 64 % 64 + 0x80,
          c.toNat % 64 + 0x80] := by
  have hc := toNat_lt_of_char c
  simp only [Char.toNat] at hc ⊢
  unfold charBytes String.utf8EncodeChar
  dsimp only
  split_ifs <;>
    simp only [List.map_cons, List.map_nil, UInt8.toNat_ofNat', List.cons.injEq, and_true] <;>
    omega

/-- A smaller code point has smaller bytes, whatever comes after them. -/
theorem charBytes_append_lt {c d : Char} (h : c.toNat < d.toNat) (cs ds : List Nat) :
    charBytes c ++ cs < charBytes d ++ ds := by
  have hd := toNat_lt_of_char d
  rw [charBytes_eq, charBytes_eq]
  split_ifs <;> simp only [List.cons_append, List.nil_append, List.cons_lt_cons_iff] <;> omega

theorem append_lt_append_iff (bytes cs ds : List Nat) : bytes ++ cs < bytes ++ ds ↔ cs < ds := by
  induction bytes with
  | nil => rfl
  | cons byte bytes ih => rw [List.cons_append, List.cons_append, List.cons_lt_cons_self, ih]

/-- Comparing characters by code points is comparing their bytes one after another. -/
theorem lex_chars_iff (cs ds : List Char) :
    (cs.lex ds fun c d => c.toNat < d.toNat) = true ↔
      cs.flatMap charBytes < ds.flatMap charBytes := by
  induction cs generalizing ds with
  | nil =>
      cases ds with
      | nil => simp
      | cons d ds =>
          obtain ⟨byte, bytes, hbytes⟩ := List.exists_cons_of_ne_nil (charBytes_ne_nil d)
          simp [hbytes]
  | cons c cs ih =>
      cases ds with
      | nil => simp
      | cons d ds =>
          rw [List.cons_lex_cons, Bool.or_eq_true, Bool.and_eq_true, ih, List.flatMap_cons,
            List.flatMap_cons]
          rcases Nat.lt_trichotomy c.toNat d.toNat with hlt | heq | hgt
          · exact iff_of_true (Or.inl (by simpa using hlt)) (charBytes_append_lt hlt _ _)
          · obtain rfl : c = d := Char.toNat_inj.mp heq
            simp [append_lt_append_iff]
          · have hne : c ≠ d := by
              rintro rfl
              exact Nat.lt_irrefl _ hgt
            refine iff_of_false ?_ (lt_asymm (charBytes_append_lt hgt _ _))
            simp [hne, Nat.le_of_lt hgt]

/-- Names are in the order of their bytes. -/
theorem nameBefore_iff (a b : String) :
    FileTree.nameBefore a b = true ↔ nameBytes a < nameBytes b := by
  rw [FileTree.nameBefore, lex_chars_iff, nameBytes_eq, nameBytes_eq]

theorem nameBytes_injective : Function.Injective nameBytes := by
  intro a b h
  have hmap : Function.Injective (List.map UInt8.toNat) :=
    List.map_injective_iff.mpr fun _ _ => UInt8.toNat_inj.mp
  have hdata : a.toUTF8.data = b.toUTF8.data := Array.toList_inj.mp (hmap h)
  exact String.toByteArray_inj.mp (ByteArray.ext hdata)

/-- Paths are in the order of their names, one after the other. -/
theorem lex_nameBefore_iff (ps qs : List String) :
    ps.lex qs FileTree.nameBefore = true ↔ ps.map nameBytes < qs.map nameBytes := by
  induction ps generalizing qs with
  | nil => cases qs <;> simp
  | cons p ps ih =>
      cases qs with
      | nil => simp
      | cons q qs =>
          rw [List.cons_lex_cons, Bool.or_eq_true, Bool.and_eq_true, ih, nameBefore_iff,
            List.map_cons, List.map_cons, List.cons_lt_cons_iff, beq_iff_eq,
            nameBytes_injective.eq_iff]

end WireMapper
