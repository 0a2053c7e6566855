import WireMapper.Proofs.Java.Parser.Suffix

/-!
Where types come from. Every type of a unit, nested however deeply, is what reading a type
declaration gives at some place in the source. So what holds of a type that is read on its own holds
of all types of a unit.
-/

namespace WireMapper.Java

variable {ts rest : Tokens}

/-- A type declaration is itself, or stands somewhere in the types nested in it. -/
inductive TypeDecl.Contains : TypeDecl → TypeDecl → Prop where
  | self (t : TypeDecl) : TypeDecl.Contains t t
  | nested {t inner found : TypeDecl} (hinner : inner ∈ t.nested) (h : inner.Contains found) :
      TypeDecl.Contains t found

/-- The type is what is read at some place in the source. -/
def TypeDecl.IsReadIn (t : TypeDecl) (ts : Tokens) : Prop :=
  ∃ place rest, place <:+ ts ∧ typeDecl place = .ok (t, rest)

/-- The type and all types in it are read in the source. -/
def TypeDecl.WhollyReadIn (t : TypeDecl) (ts : Tokens) : Prop :=
  ∀ found, t.Contains found → found.IsReadIn ts

theorem TypeDecl.WhollyReadIn.of_suffix {t : TypeDecl} (h : t.WhollyReadIn rest)
    (hrest : rest <:+ ts) :
    t.WhollyReadIn ts := by
  intro found hfound
  obtain ⟨place, after, hplace, hread⟩ := h found hfound
  exact ⟨place, after, hplace.trans hrest, hread⟩

/-- Each field of the body is declared by a member that is read at some place in the source, and all
types in the body are read there. -/
structure TypeBody.IsReadIn (kind : TypeKind) (name : String) (body : TypeBody) (ts : Tokens) :
    Prop where
  fields : ∀ f ∈ body.fields, ∃ place fields rest, place <:+ ts ∧
    member kind name place = .ok (.fields fields, rest) ∧ f ∈ fields
  nested : ∀ t ∈ body.nested, t.WhollyReadIn ts

/-- A declaration is read as a whole if it is itself and its body is. -/
theorem wholly_withBody {kind : TypeKind} {name : String} {start : TypeStart} {body : TypeBody}
    (hself : (start.withBody body).IsReadIn ts) (hbody : body.IsReadIn kind name ts) :
    (start.withBody body).WhollyReadIn ts := by
  intro found hfound
  cases hfound with
  | self => exact hself
  | nested hinner h => exact hbody.nested _ hinner found h

namespace TypeBody.IsReadIn

variable {kind : TypeKind} {name : String} {body : TypeBody}

theorem empty (kind : TypeKind) (name : String) (ts : Tokens) :
    TypeBody.empty.IsReadIn kind name ts :=
  ⟨by simp [TypeBody.empty], by simp [TypeBody.empty]⟩

theorem of_suffix (h : body.IsReadIn kind name rest) (hrest : rest <:+ ts) :
    body.IsReadIn kind name ts where
  fields f hf := by
    obtain ⟨place, fields, after, hplace, hread⟩ := h.fields f hf
    exact ⟨place, fields, after, hplace.trans hrest, hread⟩
  nested t ht := (h.nested t ht).of_suffix hrest

theorem append_fields {fields : List FieldDecl}
    (hmember : member kind name ts = .ok (.fields fields, rest)) (h : body.IsReadIn kind name ts) :
    (TypeBody.append ⟨fields, []⟩ body).IsReadIn kind name ts where
  fields f hf := by
    rcases List.mem_append.mp hf with hf | hf
    · exact ⟨ts, fields, rest, List.suffix_rfl, hmember, hf⟩
    · exact h.fields f hf
  nested := h.nested

theorem append_type {t : TypeDecl} (ht : t.WhollyReadIn ts) (h : body.IsReadIn kind name ts) :
    (TypeBody.append ⟨[], [t]⟩ body).IsReadIn kind name ts where
  fields := h.fields
  nested := List.forall_mem_cons.mpr ⟨ht, h.nested⟩

end TypeBody.IsReadIn

theorem typeDecl_of_closed {start : TypeStart} (hstart : typeStart ts = .ok ((start, true), rest)) :
    typeDecl ts = .ok (start.withBody .empty, rest) := by
  rw [typeDecl, hstart]

theorem typeDecl_of_body {start : TypeStart} {body : TypeBody} {after : Shorter rest}
    (hstart : typeStart ts = .ok ((start, false), rest))
    (hbody : typeBody start.kind start.name rest = .ok (body, after)) :
    typeDecl ts = .ok (start.withBody body, after.1) := by
  rw [typeDecl, hstart]
  simp only [hbody]

/-- A nested type starts behind its modifiers. -/
theorem exists_typeStart_of_member {kind : TypeKind} {name : String} {start : TypeStart}
    {closed : Bool} (h : member kind name ts = .ok (.type start closed, rest)) :
    ∃ place, place <:+ ts ∧ typeStart place = .ok ((start, closed), rest) := by
  cases member_eq_ok_iff.mp h with
  | type hmodifiers _ _ _ hstart => exact ⟨_, modifiers_suffix hmodifiers, hstart⟩

/-- By induction on the members: each of them is read at its place. -/
theorem isReadIn_of_typeBody {kind : TypeKind} {name : String} {body : TypeBody}
    {after : Shorter ts} (h : typeBody kind name ts = .ok (body, after)) :
    body.IsReadIn kind name ts := by
  fun_induction typeBody kind name ts generalizing body with
  | case1 => cases h
  | case2 => cases h; exact .empty _ _ _
  | case3 => cases h
  | case4 =>
      rename_i hbody ih
      cases h
      exact (ih hbody).of_suffix (List.suffix_cons _ _)
  | case5 => cases h
  | case6 => cases h
  | case7 =>
      rename_i hmember _ _ _ _ hbody ih
      cases h
      exact ((ih hbody).of_suffix (member_suffix hmember)).append_fields hmember
  | case8 => cases h
  | case9 kind name =>
      rename_i hmember _ _ _ _ hbody ih
      cases h
      obtain ⟨place, hplace, hstart⟩ := exists_typeStart_of_member hmember
      have hself :=
        wholly_withBody ⟨place, _, hplace, typeDecl_of_closed hstart⟩ (.empty kind name _)
      exact ((ih hbody).of_suffix (member_suffix hmember)).append_type hself
  | case10 => cases h
  | case11 => cases h
  | case12 =>
      rename_i hmember _ _ _ _ hinner _ _ _ hbody ihinner ihbody
      cases h
      obtain ⟨place, hplace, hstart⟩ := exists_typeStart_of_member hmember
      have hafter := member_suffix hmember
      have hself := wholly_withBody ⟨place, _, hplace, typeDecl_of_body hstart hinner⟩
        ((ihinner hinner).of_suffix hafter)
      exact ((ihbody hbody).of_suffix ((typeBody_suffix hinner).trans hafter)).append_type hself

/-- A declaration is a start with a body that is read behind it. -/
theorem exists_body_of_typeDecl {t : TypeDecl} (h : typeDecl ts = .ok (t, rest)) :
    ∃ start closed body after, typeStart ts = .ok ((start, closed), after) ∧
      t = start.withBody body ∧
      body.IsReadIn start.kind start.name after := by
  obtain ⟨_, hstart, rfl⟩ | ⟨_, _, _, _, hstart, hbody, rfl, -⟩ := typeDecl_eq_ok h
  · exact ⟨_, _, _, _, hstart, rfl, .empty _ _ _⟩
  · exact ⟨_, _, _, _, hstart, rfl, isReadIn_of_typeBody hbody⟩

/-- A declaration that is read is read with all types in it. -/
theorem wholly_of_typeDecl {t : TypeDecl} (h : typeDecl ts = .ok (t, rest)) :
    t.WhollyReadIn ts := by
  have hself : t.IsReadIn ts := ⟨ts, rest, List.suffix_rfl, h⟩
  obtain ⟨start, closed, body, after, hstart, rfl, hbody⟩ := exists_body_of_typeDecl h
  exact wholly_withBody hself (hbody.of_suffix (typeStart_suffix hstart))

theorem wholly_of_types {decls : List TypeDecl} (h : types ts = .ok decls) :
    ∀ t ∈ decls, t.WhollyReadIn ts := by
  fun_induction types ts generalizing decls with
  | case1 =>
      cases h
      simp
  | case2 =>
      rename_i ih
      exact fun t ht => (ih h t ht).of_suffix (List.suffix_cons _ _)
  | case3 => cases h
  | case4 => cases h
  | case5 =>
      rename_i hdecl _ hrest ih
      cases h
      intro t ht
      rcases List.mem_cons.mp ht with rfl | ht
      · obtain ⟨_, _, hmodifiers, hdecl⟩ := modifiedType_eq_ok hdecl
        exact (wholly_of_typeDecl hdecl).of_suffix (modifiers_suffix hmodifiers)
      · exact (ih hrest t ht).of_suffix (modifiedType_suffix hdecl)

/-- The readings that a unit is put together from. -/
theorem CompilationUnit.parse_eq_ok {source : String} {unit : CompilationUnit}
    (h : CompilationUnit.parse source = .ok unit) :
    ∃ ts ts₁ ts₂, scan source = .ok ts ∧ packageDecl ts = .ok (unit.package?, ts₁) ∧
      Java.imports ts₁ = .ok (unit.imports, ts₂) ∧ Java.types ts₂ = .ok unit.types := by
  unfold CompilationUnit.parse at h
  split at h
  · cases h
  rename_i hscan
  split at h
  · cases h
  rename_i hunit
  cases h
  unfold compilationUnit at hunit
  split at hunit
  · cases hunit
  rename_i hpackage
  split at hunit
  · cases hunit
  rename_i himports
  split at hunit
  · cases hunit
  rename_i htypes
  cases hunit
  exact ⟨_, _, _, hscan, hpackage, himports, htypes⟩

/-- All types of a unit are read in its tokens. -/
theorem CompilationUnit.wholly_of_parse {source : String} {unit : CompilationUnit}
    (h : CompilationUnit.parse source = .ok unit) :
    ∃ ts, scan source = .ok ts ∧ ∀ t ∈ unit.types, t.WhollyReadIn ts := by
  obtain ⟨ts, ts₁, ts₂, hscan, hpackage, himports, htypes⟩ := CompilationUnit.parse_eq_ok h
  refine ⟨ts, hscan, fun t ht => (wholly_of_types htypes t ht).of_suffix ?_⟩
  exact (imports_suffix himports).trans (packageDecl_suffix hpackage)

end WireMapper.Java
