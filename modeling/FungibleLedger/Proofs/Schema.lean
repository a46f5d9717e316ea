import FungibleLedger.Schema

/-!
# When checks succeed

A check succeeds exactly on the values that its parts take, and gives what they give. The flaws of a
check that fails have no part in this.

* `Schema.field_eq_ok_iff`, `Schema.fieldOr_eq_ok_iff`, `Schema.both_eq_ok_iff` : fields, and their
  combination.
* `Schema.anyText_eq_ok_iff`, `Schema.atMost_eq_ok_iff` : texts and bounded whole numbers.
-/

namespace FungibleLedger.Schema

variable {α β ε ε' : Type}

theorem map_eq_ok_iff {x : Except ε α} {f : α → β} {b : β} :
    x.map f = .ok b ↔ ∃ a, x = .ok a ∧ f a = b := by
  cases x <;> simp [Except.map]

theorem bind_eq_ok_iff {x : Except ε α} {f : α → Except ε β} {b : β} :
    x.bind f = .ok b ↔ ∃ a, x = .ok a ∧ f a = .ok b := by
  cases x <;> simp [Except.bind]

theorem mapError_eq_ok_iff {x : Except ε α} {f : ε → ε'} {a : α} :
    x.mapError f = .ok a ↔ x = .ok a := by
  cases x with
  | error e => exact ⟨nofun, nofun⟩
  | ok b =>
    constructor
    · rintro ⟨⟩
      rfl
    · rintro ⟨⟩
      rfl

theorem mapError_eq_error_iff {x : Except ε α} {f : ε → ε'} {e' : ε'} :
    x.mapError f = .error e' ↔ ∃ e, x = .error e ∧ f e = e' := by
  cases x with
  | error e =>
    constructor
    · rintro ⟨⟩
      exact ⟨e, rfl, rfl⟩
    · rintro ⟨_, ⟨⟩, rfl⟩
      rfl
  | ok a =>
    constructor
    · nofun
    · rintro ⟨_, ⟨⟩, -⟩

theorem judgeJson_eq_ok_iff {model : String} {check : Json → Checked α} {value : Json} {a : α} :
    judgeJson model check value = .ok a ↔ check value = .ok a :=
  mapError_eq_ok_iff

theorem field_eq_ok_iff {members : Json.Members} {name : String} {check : Json → Checked α}
    {a : α} :
    field members name check = .ok a ↔
      ∃ value, members.get? name = some value ∧ check value = .ok a := by
  rw [field, under, mapError_eq_ok_iff]
  cases members.get? name <;> simp [fail]

/-- A field that may be left out is its default there. -/
theorem fieldOr_eq_ok_iff {members : Json.Members} {name : String} {default a : α}
    {check : Json → Checked α} :
    fieldOr members name default check = .ok a ↔
      (∃ value, members.get? name = some value ∧ check value = .ok a) ∨
        (members.get? name = none ∧ default = a) := by
  rw [fieldOr]
  cases members.get? name <;> simp [under, mapError_eq_ok_iff]

theorem both_eq_ok_iff {a : Checked α} {b : Checked β} {x : α} {y : β} :
    both a b = .ok (x, y) ↔ a = .ok x ∧ b = .ok y := by
  cases a <;> cases b <;> simp [both]

theorem anyText_eq_ok_iff {value : Json} {t : AnyText} :
    anyText value = .ok t ↔ value = .ofText t := by
  cases t <;> cases value <;> simp [anyText, Json.ofText, fail]

/-- A text field is checked by being a text, whole or broken. -/
theorem field_anyText_eq_ok_iff {members : Json.Members} {name : String} {t : AnyText} :
    field members name anyText = .ok t ↔ members.get? name = some (.ofText t) := by
  simp only [field_eq_ok_iff, anyText_eq_ok_iff, exists_eq_right]

theorem atMost_eq_ok_iff {greatest : Nat} {bound : String} {n : Int} {k : Fin (greatest + 1)} :
    atMost greatest bound n = .ok k ↔ n = k.val := by
  rw [atMost]
  by_cases habove : n > greatest
  · rw [dif_pos habove]
    constructor
    · nofun
    · omega
  · rw [dif_neg habove]
    by_cases hbelow : n < 0
    · rw [dif_pos hbelow]
      constructor
      · nofun
      · omega
    · rw [dif_neg hbelow, Except.ok.injEq, Fin.ext_iff]
      dsimp only
      omega

end FungibleLedger.Schema
