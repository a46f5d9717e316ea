import Mathlib.Tactic.SplitIfs
import FungibleLedger.Message
import FungibleLedger.Proofs.Schema

/-!
# The grammar of messages

Which values are messages, and which message each of them is: `message_grammar`. The relations below
say it field by field, without an order in which fields are looked at and without the flaws that are
reported, and the readers decide them.

Amounts that are written with a point are left out. A field takes some of them, as far as they are
whole and fit a word.

* `Amount.Written` : the values that write an amount.
* `Command.Written`, `Query.Written` : the values that write a command or a query.
* `MessageError.Explains` : the values that an error can be about.
-/

namespace FungibleLedger

/-! ## Amounts -/

/-- The values that write an amount without a point: whole numbers, and texts of ASCII digits. -/
inductive Amount.Written : Json → Amount → Prop
  | number (a : Amount) : Written (.int a.val) a
  | digits {s : String} {a : Amount} (hne : s ≠ "") (hdigits : ∀ c ∈ s.toList, c.isDigit)
      (hlength : s.toList.length ≤ 4300) (hval : Nat.ofDigitChars 10 s.toList 0 = a.val) :
      Written (.str s) a

namespace Amount

theorem ofChecked_eq_ok_iff {n : Int} {a : Amount} : ofChecked n = .ok a ↔ n = a.val := by
  rw [ofChecked, Schema.map_eq_ok_iff]
  constructor
  · rintro ⟨k, hk, rfl⟩
    exact Schema.atMost_eq_ok_iff.1 hk
  · intro h
    exact ⟨⟨a.val, a.val_lt⟩, Schema.atMost_eq_ok_iff.2 h, rfl⟩

theorem wholeOfText_eq_ok_iff {s : String} {n : Int} :
    wholeOfText s = .ok n ↔ s ≠ "" ∧ (∀ c ∈ s.toList, c.isDigit) ∧ s.toList.length ≤ 4300 ∧
      n = Nat.ofDigitChars 10 s.toList 0 := by
  have hplain : ¬ (s.toList.isEmpty || !s.toList.all Char.isDigit) = true ↔
      s ≠ "" ∧ ∀ c ∈ s.toList, c.isDigit := by
    simp
  unfold wholeOfText
  dsimp only
  split_ifs with hother hlong
  · constructor
    · nofun
    · rintro ⟨hne, hdigits, -⟩
      exact absurd hother (hplain.2 ⟨hne, hdigits⟩)
  · constructor
    · nofun
    · rintro ⟨-, -, hlength, -⟩
      exact absurd hlength (Nat.not_le.2 hlong)
  · obtain ⟨hne, hdigits⟩ := hplain.1 hother
    rw [Except.ok.injEq, Integer.ofDigits, if_neg Bool.false_ne_true]
    constructor
    · rintro rfl
      exact ⟨hne, hdigits, Nat.le_of_not_lt hlong, rfl⟩
    · rintro ⟨-, -, -, rfl⟩
      rfl

theorem check_eq_ok_iff {value : Json} {a : Amount} (hpoint : ∀ x, value ≠ .float x) :
    check value = .ok a ↔ Written value a := by
  have hfails : ∀ {problem : Schema.Problem},
      (Schema.fail problem : Schema.Checked Int).bind ofChecked ≠ .ok a := nofun
  cases value with
  | int n =>
    have hcheck : check (.int n) = ofChecked n := rfl
    rw [hcheck, ofChecked_eq_ok_iff]
    constructor
    · rintro rfl
      exact .number a
    · rintro ⟨⟩
      rfl
  | str s =>
    have hcheck : check (.str s) = (wholeOfText s).bind ofChecked := rfl
    simp only [hcheck, Schema.bind_eq_ok_iff, wholeOfText_eq_ok_iff, ofChecked_eq_ok_iff]
    constructor
    · rintro ⟨n, ⟨hne, hdigits, hlength, rfl⟩, hval⟩
      exact .digits hne hdigits hlength (by omega)
    · rintro (_ | ⟨hne, hdigits, hlength, hval⟩)
      exact ⟨_, ⟨hne, hdigits, hlength, rfl⟩, by rw [hval]⟩
  | float x => exact absurd rfl (hpoint x)
  | null => exact ⟨fun h => absurd h hfails, nofun⟩
  | bool b => exact ⟨nofun, nofun⟩
  | halves codes => exact ⟨nofun, nofun⟩
  | arr items => exact ⟨fun h => absurd h hfails, nofun⟩
  | obj members => exact ⟨fun h => absurd h hfails, nofun⟩

theorem field_check_eq_ok_iff {members : Json.Members} {name : String} {a : Amount}
    (hpoint : ∀ x, members.get? name ≠ some (.float x)) :
    Schema.field members name check = .ok a ↔
      ∃ value, members.get? name = some value ∧ Written value a := by
  rw [Schema.field_eq_ok_iff]
  refine exists_congr fun value => and_congr_right fun hvalue => check_eq_ok_iff ?_
  rintro x rfl
  exact hpoint x hvalue

end Amount

theorem checkDecimals_int (decimals : Fin 256) :
    checkDecimals (.int decimals.val) = .ok decimals :=
  Schema.atMost_eq_ok_iff.2 rfl

/-! ## Bodies -/

namespace Json

/-- The members that the body of a message stands for: `null` stands for none. -/
inductive StandsFor : Json → Members → Prop
  | members (members : Members) : StandsFor (.obj members) members
  | nothing : StandsFor .null []

/-- Whether the amount in the body of a message is written with a point. -/
def HasPoint (d : Json) : Prop :=
  ∃ name x, ∃ members : Members, d = .obj [(name, .obj members)] ∧
    members.get? "amount" = some (.float x)

theorem StandsFor.amount_ne_float {d body : Json} {members : Members} (h : body.StandsFor members)
    (hpoint : ¬ d.HasPoint) {name : String} (hd : d = .obj [(name, body)]) :
    ∀ x, members.get? "amount" ≠ some (.float x) := by
  intro x hx
  cases h with
  | members => exact hpoint ⟨name, x, members, hd, hx⟩
  | nothing => cases hx

end Json

/-! ## Reading -/

/-- The values that an error of a reader can be about: those that are no object with one member,
those whose member is no variant, and those with a variant whose fields they lack. -/
inductive MessageError.Explains {α : Type} (kind : MessageKind) (tag : α → String) (d : Json) :
    MessageError → Prop
  | noVariant (h : ∀ entry, d ≠ .obj [entry]) : Explains kind tag d (.noVariant kind)
  | unknownVariant {name : String} {body : Json} (h : d = .obj [(name, body)])
      (hname : ∀ a, tag a ≠ name) : Explains kind tag d (.unknownVariant kind name)
  | invalid {name : String} {body : Json} {rejection : Schema.Rejection}
      (h : d = .obj [(name, body)]) (hname : ∃ a, tag a = name) :
      Explains kind tag d (.invalid name rejection)

section Reading

variable {α : Type} {kind : MessageKind}
  {variant? : String → Option (String × (Json → Schema.Checked α))} {d body : Json}
  {name model : String} {check : Json → Schema.Checked α} {members : Json.Members} {a : α}

theorem readTagged_of_standsFor (hvariant : variant? name = some (model, check))
    (hbody : body.StandsFor members) :
    readTagged kind variant? (.obj [(name, body)]) =
      (Schema.judgeJson model check (.obj members)).mapError (.invalid name) := by
  cases hbody <;> simp [readTagged, hvariant]

/-- A reader of tagged messages reads what its variants take, each the fields of its messages. -/
theorem readTagged_eq_ok_iff {tag : α → String} {fields : Json.Members → α → Prop}
    (hobject : ∀ name model check, variant? name = some (model, check) →
      ∃ otherwise ofMembers, check = Schema.object otherwise ofMembers)
    (hvariants : ∀ name body members, d = .obj [(name, body)] → body.StandsFor members →
      ((∃ model check, variant? name = some (model, check) ∧ check (.obj members) = .ok a) ↔
        tag a = name ∧ fields members a)) :
    readTagged kind variant? d = .ok a ↔
      ∃ body members, d = .obj [(tag a, body)] ∧ body.StandsFor members ∧ fields members a := by
  constructor
  · intro h
    unfold readTagged at h
    split at h
    · next name body =>
      split at h
      · cases h
      · next model check hvariant =>
        rw [Schema.mapError_eq_ok_iff, Schema.judgeJson_eq_ok_iff] at h
        have hread : ∀ members, body.StandsFor members → check (.obj members) = .ok a →
            tag a = name ∧ fields members a := fun members hbody hcheck =>
          (hvariants name body members rfl hbody).1 ⟨model, check, hvariant, hcheck⟩
        cases body with
        | null =>
          obtain ⟨rfl, hfields⟩ := hread [] .nothing h
          exact ⟨.null, [], rfl, .nothing, hfields⟩
        | obj members =>
          obtain ⟨rfl, hfields⟩ := hread members (.members members) h
          exact ⟨.obj members, members, rfl, .members members, hfields⟩
        | _ =>
          obtain ⟨otherwise, ofMembers, rfl⟩ := hobject _ _ _ hvariant
          cases h
    · cases h
  · rintro ⟨body, members, rfl, hbody, hfields⟩
    obtain ⟨model, check, hvariant, hcheck⟩ :=
      (hvariants (tag a) body members rfl hbody).2 ⟨rfl, hfields⟩
    rw [readTagged_of_standsFor hvariant hbody, Schema.mapError_eq_ok_iff,
      Schema.judgeJson_eq_ok_iff, hcheck]

theorem readTagged_of_ne (h : ∀ entry, d ≠ .obj [entry]) :
    readTagged kind variant? d = .error (.noVariant kind) := by
  unfold readTagged
  split
  · exact absurd rfl (h _)
  · rfl

/-- An error of a reader says where it stopped. -/
theorem explains_of_readTagged {tag : α → String} {e : MessageError}
    (htags : ∀ name, (variant? name).isSome ↔ ∃ a, tag a = name)
    (h : readTagged kind variant? d = .error e) : e.Explains kind tag d := by
  by_cases hentry : ∃ entry, d = .obj [entry]
  · obtain ⟨⟨name, body⟩, rfl⟩ := hentry
    unfold readTagged at h
    dsimp only at h
    cases hvariant : variant? name with
    | none =>
      rw [hvariant] at h
      cases h
      refine .unknownVariant rfl fun a ha => ?_
      have hsome := (htags name).2 ⟨a, ha⟩
      rw [hvariant] at hsome
      cases hsome
    | some variant =>
      rw [hvariant] at h
      have htag := (htags name).1 (by rw [hvariant]; rfl)
      obtain ⟨rejection, -, rfl⟩ := Schema.mapError_eq_error_iff.1 h
      exact .invalid rfl htag
  · rw [readTagged_of_ne fun entry heq => hentry ⟨entry, heq⟩] at h
    cases h
    exact .noVariant fun entry heq => hentry ⟨entry, heq⟩

end Reading

/-! ## Commands -/

namespace Command

/-- The amount of a command. -/
def amount : Command → Amount
  | .transfer _ amount | .approve _ amount | .transferFrom _ _ amount | .burn amount => amount

/-- The text fields of a command. -/
def texts : Command → List (String × AnyText)
  | .transfer recipient _ => [("recipient", recipient)]
  | .approve spender _ => [("spender", spender)]
  | .transferFrom owner recipient _ => [("owner", owner), ("recipient", recipient)]
  | .burn _ => []

/-- The fields of a command are among some members. -/
structure Fields (members : Json.Members) (c : Command) : Prop where
  texts : ∀ field ∈ c.texts, members.get? field.1 = some (.ofText field.2)
  amount : ∃ value, members.get? "amount" = some value ∧ Amount.Written value c.amount

/-- The values that write a command: objects with the variant as their only member, whose body has
the fields of the command, and any others. -/
def Written (d : Json) (c : Command) : Prop :=
  ∃ body members, d = .obj [(c.tag, body)] ∧ body.StandsFor members ∧ c.Fields members

variable {members : Json.Members} {c : Command}

theorem checkTransfer_eq_ok_iff (hpoint : ∀ x, members.get? "amount" ≠ some (.float x)) :
    checkTransfer (.obj members) = .ok c ↔ c.tag = "transfer" ∧ c.Fields members := by
  simp only [checkTransfer, Schema.object, Schema.map_eq_ok_iff, Prod.exists,
    Schema.both_eq_ok_iff, Schema.field_anyText_eq_ok_iff, Amount.field_check_eq_ok_iff hpoint]
  constructor
  · rintro ⟨recipient, amount, ⟨hrecipient, hamount⟩, rfl⟩
    exact ⟨rfl, by simpa [texts] using hrecipient, hamount⟩
  · rintro ⟨htag, hfields⟩
    cases c with
    | transfer recipient amount =>
      exact ⟨recipient, amount, ⟨hfields.texts _ List.mem_cons_self, hfields.amount⟩, rfl⟩
    | _ => simp [tag] at htag

theorem checkApprove_eq_ok_iff (hpoint : ∀ x, members.get? "amount" ≠ some (.float x)) :
    checkApprove (.obj members) = .ok c ↔ c.tag = "approve" ∧ c.Fields members := by
  simp only [checkApprove, Schema.object, Schema.map_eq_ok_iff, Prod.exists,
    Schema.both_eq_ok_iff, Schema.field_anyText_eq_ok_iff, Amount.field_check_eq_ok_iff hpoint]
  constructor
  · rintro ⟨spender, amount, ⟨hspender, hamount⟩, rfl⟩
    exact ⟨rfl, by simpa [texts] using hspender, hamount⟩
  · rintro ⟨htag, hfields⟩
    cases c with
    | approve spender amount =>
      exact ⟨spender, amount, ⟨hfields.texts _ List.mem_cons_self, hfields.amount⟩, rfl⟩
    | _ => simp [tag] at htag

theorem checkTransferFrom_eq_ok_iff (hpoint : ∀ x, members.get? "amount" ≠ some (.float x)) :
    checkTransferFrom (.obj members) = .ok c ↔ c.tag = "transfer_from" ∧ c.Fields members := by
  simp only [checkTransferFrom, Schema.object, Schema.map_eq_ok_iff, Prod.exists,
    Schema.both_eq_ok_iff, Schema.field_anyText_eq_ok_iff, Amount.field_check_eq_ok_iff hpoint]
  constructor
  · rintro ⟨owner, recipient, amount, ⟨howner, hrecipient, hamount⟩, rfl⟩
    exact ⟨rfl, by simpa [texts] using ⟨howner, hrecipient⟩, hamount⟩
  · rintro ⟨htag, hfields⟩
    cases c with
    | transferFrom owner recipient amount =>
      have howner := hfields.texts _ List.mem_cons_self
      have hrecipient := hfields.texts _ (List.mem_cons_of_mem _ List.mem_cons_self)
      exact ⟨owner, recipient, amount, ⟨howner, hrecipient, hfields.amount⟩, rfl⟩
    | _ => simp [tag] at htag

theorem checkBurn_eq_ok_iff (hpoint : ∀ x, members.get? "amount" ≠ some (.float x)) :
    checkBurn (.obj members) = .ok c ↔ c.tag = "burn" ∧ c.Fields members := by
  simp only [checkBurn, Schema.object, Schema.map_eq_ok_iff, Amount.field_check_eq_ok_iff hpoint]
  constructor
  · rintro ⟨amount, hamount, rfl⟩
    exact ⟨rfl, by simp [texts], hamount⟩
  · rintro ⟨htag, hfields⟩
    cases c with
    | burn amount => exact ⟨amount, hfields.amount, rfl⟩
    | _ => simp [tag] at htag

/-- The variants of commands: each takes the fields of its commands. -/
theorem variant_iff (hpoint : ∀ x, members.get? "amount" ≠ some (.float x)) {name : String} :
    (∃ model check, variant? name = some (model, check) ∧ check (.obj members) = .ok c) ↔
      c.tag = name ∧ c.Fields members := by
  constructor
  · rintro ⟨model, check, hvariant, hcheck⟩
    unfold variant? at hvariant
    split at hvariant
    · cases hvariant
      exact (checkTransfer_eq_ok_iff hpoint).1 hcheck
    · cases hvariant
      exact (checkApprove_eq_ok_iff hpoint).1 hcheck
    · cases hvariant
      exact (checkTransferFrom_eq_ok_iff hpoint).1 hcheck
    · cases hvariant
      exact (checkBurn_eq_ok_iff hpoint).1 hcheck
    · cases hvariant
  · rintro ⟨rfl, hfields⟩
    cases c with
    | transfer recipient amount =>
      exact ⟨_, _, rfl, (checkTransfer_eq_ok_iff hpoint).2 ⟨rfl, hfields⟩⟩
    | approve spender amount =>
      exact ⟨_, _, rfl, (checkApprove_eq_ok_iff hpoint).2 ⟨rfl, hfields⟩⟩
    | transferFrom owner recipient amount =>
      exact ⟨_, _, rfl, (checkTransferFrom_eq_ok_iff hpoint).2 ⟨rfl, hfields⟩⟩
    | burn amount => exact ⟨_, _, rfl, (checkBurn_eq_ok_iff hpoint).2 ⟨rfl, hfields⟩⟩

theorem exists_object_of_variant {name model : String} {check : Json → Schema.Checked Command}
    (h : variant? name = some (model, check)) :
    ∃ otherwise ofMembers, check = Schema.object otherwise ofMembers := by
  unfold variant? at h
  split at h <;> cases h <;> exact ⟨_, _, rfl⟩

theorem isSome_variant_iff (name : String) :
    (variant? name).isSome ↔ ∃ c : Command, c.tag = name := by
  constructor
  · unfold variant?
    split
    · exact fun _ => ⟨.transfer (.whole "") .zero, rfl⟩
    · exact fun _ => ⟨.approve (.whole "") .zero, rfl⟩
    · exact fun _ => ⟨.transferFrom (.whole "") (.whole "") .zero, rfl⟩
    · exact fun _ => ⟨.burn .zero, rfl⟩
    · nofun
  · rintro ⟨c, rfl⟩
    cases c <;> rfl

theorem ofJson_eq_ok_iff {d : Json} (hpoint : ¬ d.HasPoint) :
    ofJson d = .ok c ↔ Written d c :=
  readTagged_eq_ok_iff (fun _ _ _ => exists_object_of_variant) fun _ _ _ hd hbody =>
    variant_iff (hbody.amount_ne_float hpoint hd)

end Command

/-! ## Queries -/

namespace Query

/-- The text fields of a query, which has no others. -/
def texts : Query → List (String × AnyText)
  | .balance address => [("address", address)]
  | .allowance owner spender => [("owner", owner), ("spender", spender)]
  | .tokenInfo => []

/-- The fields of a query are among some members. -/
def Fields (members : Json.Members) (q : Query) : Prop :=
  ∀ field ∈ q.texts, members.get? field.1 = some (.ofText field.2)

/-- The values that write a query, as for commands. -/
def Written (d : Json) (q : Query) : Prop :=
  ∃ body members, d = .obj [(q.tag, body)] ∧ body.StandsFor members ∧ q.Fields members

variable {members : Json.Members} {q : Query}

theorem checkBalance_eq_ok_iff :
    checkBalance (.obj members) = .ok q ↔ q.tag = "balance" ∧ q.Fields members := by
  simp only [checkBalance, Schema.object, Schema.map_eq_ok_iff, Schema.field_anyText_eq_ok_iff]
  constructor
  · rintro ⟨address, haddress, rfl⟩
    exact ⟨rfl, by simpa [Fields, texts] using haddress⟩
  · rintro ⟨htag, hfields⟩
    cases q with
    | balance address => exact ⟨address, hfields _ List.mem_cons_self, rfl⟩
    | _ => simp [tag] at htag

theorem checkAllowance_eq_ok_iff :
    checkAllowance (.obj members) = .ok q ↔ q.tag = "allowance" ∧ q.Fields members := by
  simp only [checkAllowance, Schema.object, Schema.map_eq_ok_iff, Prod.exists,
    Schema.both_eq_ok_iff, Schema.field_anyText_eq_ok_iff]
  constructor
  · rintro ⟨owner, spender, ⟨howner, hspender⟩, rfl⟩
    exact ⟨rfl, by simpa [Fields, texts] using ⟨howner, hspender⟩⟩
  · rintro ⟨htag, hfields⟩
    cases q with
    | allowance owner spender =>
      have howner := hfields _ List.mem_cons_self
      have hspender := hfields _ (List.mem_cons_of_mem _ List.mem_cons_self)
      exact ⟨owner, spender, ⟨howner, hspender⟩, rfl⟩
    | _ => simp [tag] at htag

theorem checkTokenInfo_eq_ok_iff :
    checkTokenInfo (.obj members) = .ok q ↔ q.tag = "token_info" ∧ q.Fields members := by
  have hcheck : checkTokenInfo (.obj members) = .ok .tokenInfo := rfl
  rw [hcheck]
  constructor
  · rintro ⟨⟩
    exact ⟨rfl, by simp [Fields, texts]⟩
  · rintro ⟨htag, -⟩
    cases q with
    | tokenInfo => rfl
    | _ => simp [tag] at htag

/-- The variants of queries: each takes the fields of its queries. -/
theorem variant_iff {name : String} :
    (∃ model check, variant? name = some (model, check) ∧ check (.obj members) = .ok q) ↔
      q.tag = name ∧ q.Fields members := by
  constructor
  · rintro ⟨model, check, hvariant, hcheck⟩
    unfold variant? at hvariant
    split at hvariant
    · cases hvariant
      exact checkBalance_eq_ok_iff.1 hcheck
    · cases hvariant
      exact checkAllowance_eq_ok_iff.1 hcheck
    · cases hvariant
      exact checkTokenInfo_eq_ok_iff.1 hcheck
    · cases hvariant
  · rintro ⟨rfl, hfields⟩
    cases q with
    | balance address => exact ⟨_, _, rfl, checkBalance_eq_ok_iff.2 ⟨rfl, hfields⟩⟩
    | allowance owner spender => exact ⟨_, _, rfl, checkAllowance_eq_ok_iff.2 ⟨rfl, hfields⟩⟩
    | tokenInfo => exact ⟨_, _, rfl, checkTokenInfo_eq_ok_iff.2 ⟨rfl, hfields⟩⟩

theorem exists_object_of_variant {name model : String} {check : Json → Schema.Checked Query}
    (h : variant? name = some (model, check)) :
    ∃ otherwise ofMembers, check = Schema.object otherwise ofMembers := by
  unfold variant? at h
  split at h <;> cases h <;> exact ⟨_, _, rfl⟩

theorem isSome_variant_iff (name : String) :
    (variant? name).isSome ↔ ∃ q : Query, q.tag = name := by
  constructor
  · unfold variant?
    split
    · exact fun _ => ⟨.balance (.whole ""), rfl⟩
    · exact fun _ => ⟨.allowance (.whole "") (.whole ""), rfl⟩
    · exact fun _ => ⟨.tokenInfo, rfl⟩
    · nofun
  · rintro ⟨q, rfl⟩
    cases q <;> rfl

theorem ofJson_eq_ok_iff {d : Json} : ofJson d = .ok q ↔ Written d q :=
  readTagged_eq_ok_iff (fun _ _ _ => exists_object_of_variant) fun _ _ _ _ _ => variant_iff

end Query

/-! ## The grammar -/

/-- A value whose amount is not written with a point is read as the command, or the query, that it
writes, and as no other. Where it writes none, the error says where it fails to. -/
theorem message_grammar {d : Json} (hpoint : ¬ d.HasPoint) :
    (∀ c, Command.ofJson d = .ok c ↔ Command.Written d c) ∧
    (∀ q, Query.ofJson d = .ok q ↔ Query.Written d q) ∧
    (∀ e, Command.ofJson d = .error e → e.Explains .execute Command.tag d) ∧
    ∀ e, Query.ofJson d = .error e → e.Explains .query Query.tag d :=
  ⟨fun _ => Command.ofJson_eq_ok_iff hpoint, fun _ => Query.ofJson_eq_ok_iff,
    fun _ => explains_of_readTagged Command.isSome_variant_iff,
    fun _ => explains_of_readTagged Query.isSome_variant_iff⟩

/-- A delegated transfer whose amount has leading zeros, with its fields in another order and one
more, which holds a number with a point. -/
theorem message_grammar_zeros :
    let body : Json.Members := [("amount", .str "007"), ("memo", .arr [.float .notANumber, .null]),
      ("recipient", .str "bob"), ("owner", .str "alice")]
    let d : Json := .obj [("transfer_from", .obj body)]
    let seven : Amount := ⟨7, by decide⟩
    ¬ d.HasPoint ∧ Command.ofJson d = .ok (.transferFrom (.whole "alice") (.whole "bob") seven) ∧
      ∃ e, Query.ofJson d = .error e ∧ e.Explains .query Query.tag d := by
  intro body d seven
  have hpoint : ¬ d.HasPoint := by
    rintro ⟨name, x, members, hd, hx⟩
    simp only [d, Json.obj.injEq, List.cons.injEq, Prod.mk.injEq, and_true] at hd
    rw [← hd.2] at hx
    cases hx
  obtain ⟨hcommand, -, -, herror⟩ := message_grammar hpoint
  refine ⟨hpoint, (hcommand _).2 ⟨.obj body, body, rfl, .members body, ?_, .str "007", rfl, ?_⟩,
    _, rfl, herror _ rfl⟩
  · intro field hfield
    simp only [Command.texts, List.mem_cons, List.not_mem_nil, or_false] at hfield
    rcases hfield with rfl | rfl <;> rfl
  · exact .digits (by decide) (List.all_eq_true.1 rfl) (by decide) (by decide)

end FungibleLedger
