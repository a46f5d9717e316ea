import FungibleLedger.Ledger.Query
import FungibleLedger.Proofs.Ledger.Seeding

/-!
# Which failures calls end with

Whatever bytes a store holds, a command that fails was turned down or found corrupt state
(`Ledger.failsOnly_execute`), with two exceptions, in which the failure says nothing about the
command or the state (`Command.Obstructed`): a sender whose name is no whole text has no account,
and one whose name is too long for a namespace cannot grant anything
(`Ledger.run_execute_of_obstructed`). A genesis that fails was turned down, with one exception of
its own: a name that is no whole text cannot be measured (`Genesis.flaw?_cases`).

`Ledger.FailsOnly` is closed under the ways in which actions are put together, so an order is read
off piece by piece. Amounts are read from arbitrary bytes, but what is written after that is always
a number in range, because a debit is covered and a credit is checked.
-/

namespace FungibleLedger

/-- A failure that is a verdict on the call or on the stored state. -/
def Failure.IsVerdict (e : Failure) : Prop :=
  e.kind = .rejected ∨ e.kind = .corrupt

instance : DecidablePred Failure.IsVerdict := fun e => by
  unfold Failure.IsVerdict
  infer_instance

/-- Whether all texts in a command that have to be addresses are. -/
def Command.HasAddresses (format : AddressFormat) : Command → Prop
  | .transfer recipient _ => ∃ name, Token.checkAddress format recipient = .ok name
  | .approve spender _ => ∃ name, Token.checkAddress format spender = .ok name
  | .transferFrom owner recipient _ =>
    (∃ name, Token.checkAddress format owner = .ok name) ∧
      ∃ name, Token.checkAddress format recipient = .ok name
  | .burn _ => True

/-- What a command with good addresses fails with because of its sender: the sender is no whole
text, or it approves under a name that is too long for a namespace. -/
inductive Command.Obstructed (format : AddressFormat) (sender : AnyText) (command : Command) :
    Failure → Prop
  | broken {codes : List Nat} (hsender : sender = .broken codes)
      (haddresses : command.HasAddresses format) :
      Obstructed format sender command (.unencodable (.ofCodes codes))
  | long {account : String} {spender : AnyText} {amount : Amount}
      (hsender : sender = .whole account) (hlong : Namespace.limit < (utf8 account).length)
      (hcommand : command = .approve spender amount)
      (haddresses : command.HasAddresses format) :
      Obstructed format sender command (.noView .tooLong)

theorem Command.Obstructed.kind_eq {format : AddressFormat} {sender : AnyText} {command : Command}
    {e : Failure} (h : command.Obstructed format sender e) : e.kind = .other := by
  cases h <;> rfl

theorem Command.Obstructed.limit_lt {format : AddressFormat} {account : String} {command : Command}
    {e : Failure} (h : command.Obstructed format account e) :
    Namespace.limit < (utf8 account).length := by
  cases h with
  | broken hsender => cases hsender
  | long hsender hlong =>
    cases hsender
    exact hlong

theorem error_of_map {ε α β : Type} {x : Except ε α} {f : α → β} {e : ε}
    (h : x.map f = .error e) : x = .error e := by
  cases x with
  | error e' =>
    cases h
    rfl
  | ok a => cases h

namespace Ledger

variable {α β : Type} {allowed : Failure → Prop} {l : Ledger}

/-! ## Closure -/

/-- An action fails for reasons of a kind only, whatever store it is run on. -/
def FailsOnly (allowed : Failure → Prop) (x : Action α) : Prop :=
  ∀ s e s', EStateM.run x s = .error e s' → allowed e

theorem failsOnly_pure (a : α) : FailsOnly allowed (pure a : Action α) := nofun

theorem failsOnly_get : FailsOnly allowed (get : Action Store) := nofun

theorem failsOnly_modify (f : Store → Store) : FailsOnly allowed (modify f : Action Unit) := nofun

theorem failsOnly_throw {e : Failure} (h : allowed e) : FailsOnly allowed (throw e : Action α) := by
  rintro s _ _ ⟨rfl, rfl⟩
  exact h

theorem FailsOnly.bind {x : Action α} {f : α → Action β} (hx : FailsOnly allowed x)
    (hf : ∀ a, FailsOnly allowed (f a)) : FailsOnly allowed (x >>= f) := by
  intro s e s' h
  cases hrun : EStateM.run x s with
  | error e' s₁ =>
    rw [run_bind_of_error hrun] at h
    cases h
    exact hx s e s' hrun
  | ok a s₁ =>
    rw [run_bind_of_ok hrun] at h
    exact hf a s₁ e s' h

theorem failsOnly_lift {x : Except Failure α} (h : ∀ e, x = .error e → allowed e) :
    FailsOnly allowed (lift x) := by
  cases x with
  | error e => exact failsOnly_throw (h e rfl)
  | ok a => exact failsOnly_pure a

/-- What follows a computation without a store may rely on its value. -/
theorem failsOnly_lift_bind {x : Except Failure α} {f : α → Action β}
    (hx : ∀ e, x = .error e → allowed e) (hf : ∀ a, x = .ok a → FailsOnly allowed (f a)) :
    FailsOnly allowed (lift x >>= f) := by
  cases x with
  | error e =>
    rintro s _ _ ⟨rfl, rfl⟩
    exact hx e rfl
  | ok a => exact hf a rfl

theorem FailsOnly.ite {p : Prop} [Decidable p] {x y : Action α} (hx : p → FailsOnly allowed x)
    (hy : ¬ p → FailsOnly allowed y) : FailsOnly allowed (if p then x else y) := by
  split
  · next hp => exact hx hp
  · next hp => exact hy hp

theorem allowed_of_mapError {ε : Type} {x : Except ε α} {f : ε → Failure}
    (h : ∀ e, allowed (f e)) : ∀ e, x.mapError f = .error e → allowed e := by
  cases x with
  | error e =>
    rintro _ ⟨rfl⟩
    exact h e
  | ok a => exact nofun

/-! ## Reading and writing amounts -/

theorem isVerdict_of_decodeAmount {raw : Bytes} :
    ∀ e, decodeAmount raw = .error e → e.IsVerdict :=
  allowed_of_mapError fun _ => .inr rfl

theorem isVerdict_of_amountAt {s : Store} {view : View} {key : Bytes} :
    ∀ e, amountAt s view key = .error e → e.IsVerdict := by
  intro e h
  unfold amountAt at h
  split at h
  · cases h
  · exact isVerdict_of_decodeAmount e h

theorem isVerdict_of_addressOf {text : AnyText} : ∀ e, l.addressOf text = .error e → e.IsVerdict :=
  allowed_of_mapError fun _ => .inl rfl

theorem failsOnly_readBalance (account : String) :
    FailsOnly Failure.IsVerdict (readBalance account) :=
  failsOnly_get.bind fun _ => failsOnly_lift isVerdict_of_amountAt

theorem failsOnly_readAllowance {owner : String} (howner : (utf8 owner).length ≤ Namespace.limit)
    (spender : String) : FailsOnly Failure.IsVerdict (readAllowance owner spender) := by
  refine failsOnly_get.bind fun s => failsOnly_lift ?_
  rw [allowanceAt, allowanceView_of_le howner]
  exact isVerdict_of_amountAt

theorem failsOnly_writeAmount (view : View) (key : Bytes) (a : Amount) :
    FailsOnly allowed (writeAmount view key a.val) := by
  unfold writeAmount
  rw [Amount.encode_val]
  exact failsOnly_modify _

theorem failsOnly_writeAllowance {owner : String} (howner : (utf8 owner).length ≤ Namespace.limit)
    (spender : String) (a : Amount) : FailsOnly allowed (writeAllowance owner spender a.val) := by
  unfold writeAllowance
  rw [allowanceView_of_le howner]
  refine FailsOnly.ite (fun _ => failsOnly_modify _) fun _ => ?_
  exact failsOnly_writeAmount _ _ a

/-! ## Orders -/

theorem failsOnly_move (sender recipient : String) (amount : Amount) :
    FailsOnly Failure.IsVerdict (move sender recipient amount) := by
  unfold move
  refine (failsOnly_readBalance sender).bind fun balance => ?_
  refine FailsOnly.ite (fun _ => failsOnly_throw (.inl rfl)) fun hfunds => ?_
  rw [← Amount.cast_less hfunds]
  refine (failsOnly_writeAmount _ _ _).bind fun _ => ?_
  refine (failsOnly_readBalance recipient).bind fun credited => ?_
  rw [Amount.checkedAdd_val]
  refine failsOnly_lift_bind (allowed_of_mapError fun _ => .inl rfl) fun total htotal => ?_
  -- a sum that passed the check is an amount
  obtain ⟨sum, -, rfl⟩ : ∃ sum, credited.plus amount = .ok sum ∧ (sum.val : Int) = total := by
    cases hsum : credited.plus amount with
    | error e =>
      rw [hsum] at htotal
      cases htotal
    | ok sum =>
      rw [hsum] at htotal
      cases htotal
      exact ⟨sum, rfl, rfl⟩
  exact failsOnly_writeAmount _ _ sum

theorem failsOnly_burn (sender : String) (amount : Amount) :
    FailsOnly Failure.IsVerdict (burn sender amount) := by
  unfold burn
  refine (failsOnly_readBalance sender).bind fun balance => ?_
  refine FailsOnly.ite (fun _ => failsOnly_throw (.inl rfl)) fun hfunds => ?_
  rw [← Amount.cast_less hfunds]
  refine (failsOnly_writeAmount _ _ _).bind fun _ => failsOnly_get.bind fun s => ?_
  split
  · exact failsOnly_throw (.inr rfl)
  · refine failsOnly_lift_bind isVerdict_of_decodeAmount fun supply _ => ?_
    refine failsOnly_lift_bind (allowed_of_mapError fun _ => .inr rfl) fun rest hrest => ?_
    have hcovered : ¬ supply < amount := by
      intro hlt
      rw [Amount.checkedSub_of_lt hlt] at hrest
      cases hrest
    rw [Amount.checkedSub_val hcovered] at hrest
    cases hrest
    exact (failsOnly_writeAmount _ _ _).bind fun _ => failsOnly_pure _

/-- An order that has a place for everything fails with a verdict only. -/
theorem failsOnly_carryOut {sender : String} {order : Order} (hfits : order.Fits sender) :
    FailsOnly Failure.IsVerdict (carryOut sender order) := by
  cases order with
  | transfer recipient amount =>
    exact (failsOnly_move sender recipient amount).bind fun _ => failsOnly_pure _
  | approve spender amount =>
    have hsender := Order.fits_approve_iff.1 hfits
    exact (failsOnly_writeAllowance hsender spender amount).bind fun _ => failsOnly_pure _
  | transferFrom owner recipient amount =>
    have howner := Order.fits_transferFrom_iff.1 hfits
    refine (failsOnly_readAllowance howner sender).bind fun allowance => ?_
    refine FailsOnly.ite (fun _ => failsOnly_throw (.inl rfl)) fun hcovered => ?_
    rw [← Amount.cast_less hcovered]
    refine (failsOnly_writeAllowance howner sender _).bind fun _ => ?_
    exact (failsOnly_move owner recipient amount).bind fun _ => failsOnly_pure _
  | burn amount => exact failsOnly_burn sender amount

/-! ## Commands -/

variable {sender : AnyText} {command : Command} {e : Failure}

theorem hasAddresses_iff :
    command.HasAddresses l.addresses ↔ ∃ order, l.orderOf command = .ok order := by
  cases command with
  | transfer recipient amount =>
    rw [Command.HasAddresses, orderOf, addressOf_eq]
    constructor
    · rintro ⟨name, hname⟩
      rw [hname]
      exact ⟨.transfer name amount, rfl⟩
    · rintro ⟨order, h⟩
      obtain ⟨name, hname, -⟩ := ok_of_bind h
      exact ⟨name, hname⟩
  | approve spender amount =>
    rw [Command.HasAddresses, orderOf, addressOf_eq]
    constructor
    · rintro ⟨name, hname⟩
      rw [hname]
      exact ⟨.approve name amount, rfl⟩
    · rintro ⟨order, h⟩
      obtain ⟨name, hname, -⟩ := ok_of_bind h
      exact ⟨name, hname⟩
  | transferFrom owner recipient amount =>
    rw [Command.HasAddresses, orderOf, addressOf_eq, addressOf_eq]
    constructor
    · rintro ⟨⟨source, hsource⟩, name, hname⟩
      rw [hsource, hname]
      exact ⟨.transferFrom source name amount, rfl⟩
    · rintro ⟨order, h⟩
      obtain ⟨source, hsource, h⟩ := ok_of_bind h
      obtain ⟨name, hname, -⟩ := ok_of_bind h
      exact ⟨⟨source, hsource⟩, name, hname⟩
  | burn amount =>
    constructor
    · intro _
      exact ⟨.burn amount, rfl⟩
    · intro _
      exact trivial

/-- A command that nothing about its sender obstructs fails with a verdict only. -/
theorem failsOnly_execute (h : ∀ e, ¬ command.Obstructed l.addresses sender e) :
    FailsOnly Failure.IsVerdict (l.execute sender command) := by
  cases hresolve : l.resolve sender command with
  | error e =>
    rw [execute_of_resolve_error hresolve]
    obtain ⟨-, fault, rfl⟩ | ⟨order, codes, horder, hsender, rfl⟩ := resolve_error_cases hresolve
    · exact failsOnly_throw (.inl rfl)
    · exact absurd (.broken hsender (hasAddresses_iff.2 ⟨order, horder⟩)) (h _)
  | ok resolved =>
    obtain ⟨account, order⟩ := resolved
    rw [execute_of_resolve hresolve]
    refine failsOnly_carryOut ?_
    by_contra hfits
    obtain ⟨hlong, spender, amount, rfl⟩ := approve_of_not_fits hresolve hfits
    obtain ⟨horder, hsender⟩ := of_resolve hresolve
    exact h _ (.long hsender hlong (eq_of_orderOf horder) (hasAddresses_iff.2 ⟨_, horder⟩))

/-- A command that its sender obstructs ends for just this reason, before the store is looked at. -/
theorem run_execute_of_obstructed (h : command.Obstructed l.addresses sender e) (s : Store) :
    EStateM.run (l.execute sender command) s = .error e s := by
  cases h with
  | @broken codes hsender haddresses =>
    obtain ⟨order, horder⟩ := hasAddresses_iff.1 haddresses
    have hresolve : l.resolve sender command = .error (.unencodable (.ofCodes codes)) := by
      rw [resolve, horder, hsender]
      rfl
    rw [execute_of_resolve_error hresolve]
    rfl
  | @long account spender amount hsender hlong hcommand haddresses =>
    obtain ⟨order, horder⟩ := hasAddresses_iff.1 haddresses
    have hresolve : l.resolve sender command = .ok (account, order) := by
      rw [resolve, horder, hsender]
      rfl
    rw [execute_of_resolve hresolve]
    refine run_carryOut_of_not_fits (fun hfits => ?_) s
    obtain ⟨-, hsame⟩ := eq_of_resolve hresolve
    rw [hcommand] at hsame
    cases order with
    | approve spender' amount' =>
      exact absurd (Order.fits_approve_iff.1 hfits) (Nat.not_le_of_lt hlong)
    | _ => cases hsame

/-! ## Questions -/

/-- A question fails with a verdict only. -/
theorem isVerdict_of_query {s : Store} {q : Query} :
    ∀ e, l.query s q = .error e → e.IsVerdict := by
  intro e h
  cases q with
  | balance address =>
    obtain hfault | ⟨account, -, h⟩ := error_of_bind h
    · exact isVerdict_of_addressOf e hfault
    · exact isVerdict_of_amountAt e (error_of_map h)
  | allowance owner spender =>
    obtain hfault | ⟨owner', howner, h⟩ := error_of_bind h
    · exact isVerdict_of_addressOf e hfault
    · obtain hfault | ⟨spender', -, h⟩ := error_of_bind h
      · exact isVerdict_of_addressOf e hfault
      · have hread := error_of_map h
        rw [allowanceAt, allowanceView_of_le (length_le_of_addressOf howner)] at hread
        exact isVerdict_of_amountAt e hread
  | tokenInfo =>
    change Ledger.tokenInfo s = .error e at h
    unfold Ledger.tokenInfo at h
    split at h
    · split at h
      · cases h
        exact .inr rfl
      · exact isVerdict_of_decodeAmount e (error_of_map h)
    · cases h
      exact .inr rfl

end Ledger

/-! ## Genesis -/

theorem Seed.kind_of_flaw? {format : AddressFormat} {before seeds : List Seed} {e : Failure}
    (h : flaw? format before seeds = some e) : e.kind = .rejected := by
  induction seeds generalizing before with
  | nil => cases h
  | cons seed seeds ih =>
    rw [flaw?] at h
    split at h
    · cases h
      rfl
    · split at h
      · exact ih h
      · cases h
        rfl

namespace Genesis

/-- Whether it comes to the name of a genesis, and that is no whole text but given code points. -/
def Unmeasurable (l : Ledger) (g : Genesis) (codes : List Nat) : Prop :=
  g.name = .broken codes ∧ Seed.flaw? l.addresses [] g.seeds = none

theorem flaw?_of_unmeasurable {l : Ledger} {g : Genesis} {codes : List Nat}
    (h : g.Unmeasurable l codes) : g.flaw? l = some (.unencodable (.ofCodes codes)) := by
  rw [flaw?, h.2, Option.none_or, metadataFlaw?, h.1]

theorem flaw?_cases {l : Ledger} {g : Genesis} {e : Failure} (h : g.flaw? l = some e) :
    e.kind = .rejected ∨
      ∃ codes, g.Unmeasurable l codes ∧ e = .unencodable (.ofCodes codes) := by
  cases hseeds : Seed.flaw? l.addresses [] g.seeds with
  | some fault =>
    rw [flaw?, hseeds, Option.some_or] at h
    cases h
    exact .inl (Seed.kind_of_flaw? hseeds)
  | none =>
    rw [flaw?, hseeds, Option.none_or, metadataFlaw?] at h
    split at h
    · next codes hname =>
      cases h
      exact .inr ⟨codes, ⟨hname, hseeds⟩, rfl⟩
    · left
      split at h
      · cases h
        rfl
      · split at h
        · cases h
          rfl
        · split at h
          · cases h
            rfl
          · cases h

end Genesis

end FungibleLedger
