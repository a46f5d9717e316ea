import FungibleLedger.Proofs.Message

/-!
# Messages are read back

A message is read back from its written form: `message_roundTrip`. For commands and queries this is
the grammar of messages at one of the values that write them (`Command.written_toJson`,
`Query.written_toJson`). For a genesis there is no grammar, and it is checked field by field
(`Genesis.check_toJson`). The texts of a message may be broken.

Amounts are written as digits and read as numbers: `Amount.written_toJson`.
-/

namespace FungibleLedger

/-! ## Amounts -/

namespace Amount

theorem toList_digits (a : Amount) : a.digits.toList = Nat.toDigits 10 a.val :=
  Nat.toList_repr

/-- An amount has 39 digits at most. -/
theorem length_toDigits_le (a : Amount) : (Nat.toDigits 10 a.val).length ≤ 39 :=
  (Nat.length_toDigits_le_iff (by decide) (by decide)).2 (Nat.lt_of_lt_of_le a.val_lt (by decide))

theorem written_toJson (a : Amount) : Written a.toJson a := by
  have hdigits := a.toList_digits
  have hlength := a.length_toDigits_le
  refine .digits ?_ ?_ ?_ ?_
  · intro hempty
    rw [hempty] at hdigits
    exact Nat.toDigits_ne_nil hdigits.symm
  · rw [hdigits]
    exact fun c hc => Nat.isDigit_of_mem_toDigits (by decide) (by decide) hc
  · rw [hdigits]
    omega
  · rw [hdigits, Nat.ofDigitChars_toDigits (by decide) (by decide)]

theorem check_toJson (a : Amount) : check a.toJson = .ok a := by
  refine (check_eq_ok_iff fun x hx => ?_).2 a.written_toJson
  cases hx

end Amount

/-! ## Commands and queries -/

namespace Command

theorem exists_body_eq (c : Command) : ∃ members, c.body = .obj members ∧ c.Fields members := by
  cases c with
  | transfer recipient amount =>
    refine ⟨_, rfl, ?_, _, rfl, amount.written_toJson⟩
    simp [texts, Json.Members.get?, List.lookup_cons]
  | approve spender amount =>
    refine ⟨_, rfl, ?_, _, rfl, amount.written_toJson⟩
    simp [texts, Json.Members.get?, List.lookup_cons]
  | transferFrom owner recipient amount =>
    refine ⟨_, rfl, ?_, _, rfl, amount.written_toJson⟩
    simp [texts, Json.Members.get?, List.lookup_cons]
  | burn amount => exact ⟨_, rfl, by simp [texts], _, rfl, amount.written_toJson⟩

theorem written_toJson (c : Command) : Written c.toJson c := by
  obtain ⟨members, hbody, hfields⟩ := c.exists_body_eq
  exact ⟨c.body, members, rfl, hbody ▸ .members members, hfields⟩

/-- The amount of a command is written without a point. -/
theorem not_hasPoint_toJson (c : Command) : ¬ c.toJson.HasPoint := by
  rintro ⟨name, x, members, hd, hx⟩
  obtain ⟨members', hbody, hfields⟩ := c.exists_body_eq
  rw [toJson, hbody] at hd
  cases hd
  obtain ⟨value, hvalue, hwritten⟩ := hfields.amount
  rw [hx] at hvalue
  cases hvalue
  cases hwritten

theorem ofJson_toJson (c : Command) : ofJson c.toJson = .ok c :=
  (ofJson_eq_ok_iff c.not_hasPoint_toJson).2 c.written_toJson

end Command

namespace Query

theorem written_toJson (q : Query) : Written q.toJson q := by
  cases q with
  | balance address =>
    exact ⟨_, _, rfl, .members _, by simp [Fields, texts, Json.Members.get?, List.lookup_cons]⟩
  | allowance owner spender =>
    exact ⟨_, _, rfl, .members _, by simp [Fields, texts, Json.Members.get?, List.lookup_cons]⟩
  | tokenInfo => exact ⟨_, _, rfl, .members _, by simp [Fields, texts]⟩

theorem ofJson_toJson (q : Query) : ofJson q.toJson = .ok q :=
  ofJson_eq_ok_iff.2 q.written_toJson

end Query

/-! ## Genesis messages -/

/-- A list is read back if each of its items is. -/
theorem Schema.items_map {α : Type} {check : Json → Checked α} {toJson : α → Json}
    (h : ∀ a, check (toJson a) = .ok a) (i : Nat) (as : List α) :
    items check i (as.map toJson) = .ok as := by
  induction as generalizing i with
  | nil => rfl
  | cons a rest ih =>
    rw [List.map_cons, items, h, ih]
    rfl

theorem Seed.check_toJson (seed : Seed) : check seed.toJson = .ok seed := by
  rw [check, toJson, Schema.object, Schema.map_eq_ok_iff]
  refine ⟨(seed.address, seed.amount), Schema.both_eq_ok_iff.2 ⟨?_, ?_⟩, rfl⟩
  · exact Schema.field_anyText_eq_ok_iff.2 rfl
  · exact Schema.field_eq_ok_iff.2 ⟨_, rfl, seed.amount.check_toJson⟩

namespace Genesis

theorem fieldOr_seeds {members : Json.Members} (g : Genesis)
    (h : members.get? "initial_balances" = some (.arr (g.seeds.map Seed.toJson))) :
    Schema.fieldOr members "initial_balances" [] (Schema.list Seed.check) = .ok g.seeds := by
  rw [Schema.fieldOr, h]
  dsimp only
  rw [Schema.list, Schema.items_map Seed.check_toJson]
  rfl

theorem check_toJson (g : Genesis) : check g.toJson = .ok g := by
  rw [check, toJson, Schema.object, Schema.map_eq_ok_iff]
  refine ⟨(g.name, g.symbol, g.decimals, g.seeds), ?_, rfl⟩
  simp only [Schema.both_eq_ok_iff]
  refine ⟨?_, ?_, ?_, g.fieldOr_seeds rfl⟩
  · exact Schema.field_anyText_eq_ok_iff.2 rfl
  · exact Schema.field_anyText_eq_ok_iff.2 rfl
  · exact Schema.field_eq_ok_iff.2 ⟨_, rfl, checkDecimals_int g.decimals⟩

theorem ofJson_toJson (g : Genesis) : ofJson g.toJson = .ok g := by
  rw [ofJson, Schema.judgeJson_eq_ok_iff, check_toJson]

end Genesis

/-! ## Reading and writing -/

/-- What is read from a value, written and read once more is what was read at first. -/
theorem bind_read {α ε : Type} {read : Json → Except ε α} {write : α → Json}
    (h : ∀ a, read (write a) = .ok a) (d : Json) :
    ((read d).bind fun a => read (write a)) = read d := by
  cases read d with
  | error e => rfl
  | ok a => exact h a

/-- Every message is read back from its written form. So whatever value is read as a message, it
is written in a way that is read as the same message again. -/
theorem message_roundTrip :
    (∀ c : Command, Command.ofJson c.toJson = .ok c) ∧
    (∀ q : Query, Query.ofJson q.toJson = .ok q) ∧
    (∀ g : Genesis, Genesis.ofJson g.toJson = .ok g) ∧
    ∀ d : Json,
      ((Command.ofJson d).bind fun c => Command.ofJson c.toJson) = Command.ofJson d ∧
      ((Query.ofJson d).bind fun q => Query.ofJson q.toJson) = Query.ofJson d ∧
      ((Genesis.ofJson d).bind fun g => Genesis.ofJson g.toJson) = Genesis.ofJson d :=
  ⟨Command.ofJson_toJson, Query.ofJson_toJson, Genesis.ofJson_toJson, fun d =>
    ⟨bind_read Command.ofJson_toJson d, bind_read Query.ofJson_toJson d,
      bind_read Genesis.ofJson_toJson d⟩⟩

end FungibleLedger
