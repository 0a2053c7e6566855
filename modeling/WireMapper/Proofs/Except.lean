import Mathlib.Data.List.Forall2

/-!
Steps that can fail, one after another. If they succeed, each of them has succeeded and the result
is made of theirs; if they fail, the first one that failed says why.
-/

namespace WireMapper

variable {ε α β : Type}

/-- Two steps succeed if the first does and the second does with what the first gave. -/
theorem bind_eq_ok {x : Except ε α} {f : α → Except ε β} {b : β} :
    (x >>= f) = .ok b ↔ ∃ a, x = .ok a ∧ f a = .ok b := by
  cases x with
  | error e => simp [bind, Except.bind]
  | ok a => simp [bind, Except.bind]

/-- Two steps fail if the first does, or the second with what the first gave. -/
theorem bind_eq_error {x : Except ε α} {f : α → Except ε β} {e : ε} :
    (x >>= f) = .error e ↔ x = .error e ∨ ∃ a, x = .ok a ∧ f a = .error e := by
  cases x with
  | error e' => simp [bind, Except.bind]
  | ok a => simp [bind, Except.bind]

theorem map_eq_ok {x : Except ε α} {f : α → β} {b : β} :
    x.map f = .ok b ↔ ∃ a, x = .ok a ∧ f a = b := by
  cases x with
  | error e => simp [Except.map]
  | ok a => simp [Except.map]

theorem ok_of_toOption {x : Except ε α} {a : α} (h : x.toOption = some a) : x = .ok a := by
  cases x with
  | error e => cases h
  | ok b => exact congrArg Except.ok (Option.some.inj h)

/-- What is true of the failures of both steps is true of those of the two together. -/
theorem failure_of_bind {P : ε → Prop} {x : Except ε α} {f : α → Except ε β} {e : ε}
    (hfirst : ∀ e, x = .error e → P e) (hrest : ∀ a e, f a = .error e → P e)
    (h : (x >>= f) = .error e) : P e := by
  cases x with
  | error e' =>
      obtain rfl : e' = e := Except.error.inj h
      exact hfirst e' rfl
  | ok a => exact hrest a e h

theorem pure_eq_ok {a b : α} : (pure a : Except ε α) = .ok b ↔ a = b :=
  Except.ok.injEq a b ▸ Iff.rfl

/-- A list is gone through successfully if all its elements are. -/
theorem mapM_eq_ok {f : α → Except ε β} {xs : List α} {ys : List β} :
    xs.mapM f = .ok ys ↔ List.Forall₂ (fun x y => f x = .ok y) xs ys := by
  induction xs generalizing ys with
  | nil => rw [List.mapM_nil, pure_eq_ok, List.forall₂_nil_left_iff, eq_comm]
  | cons x xs ih =>
      simp only [List.mapM_cons, bind_eq_ok, pure_eq_ok, ih, List.forall₂_cons_left_iff]
      constructor
      · rintro ⟨y, hy, rest, hrest, rfl⟩
        exact ⟨y, rest, hy, hrest, rfl⟩
      · rintro ⟨y, rest, hy, hrest, rfl⟩
        exact ⟨y, hy, rest, hrest, rfl⟩

/-- Going through a vector keeps positions. -/
theorem get_of_mapM {n : Nat} {f : α → Except ε β} {xs : Vector α n} {ys : Vector β n}
    (h : xs.mapM f = .ok ys) (i : Fin n) : f (xs.get i) = .ok (ys.get i) := by
  have harray : xs.toArray.mapM f = .ok ys.toArray := by
    rw [← Vector.toArray_mapM, h]
    rfl
  have hlist : xs.toList.mapM f = .ok ys.toList := by
    rw [← Vector.toList_toArray, ← Array.toList_mapM, harray]
    rfl
  have hi := List.forall₂_iff_get.mp (mapM_eq_ok.mp hlist)
  have hget : f xs[i] = .ok ys[i] := by simpa using hi.2 i (by simp) (by simp)
  exact hget

end WireMapper
