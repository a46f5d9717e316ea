import FungibleLedger.Proofs.Address
import FungibleLedger.Proofs.Ledger.Outcomes
import FungibleLedger.Proofs.Ledger.Token

/-!
# Commands as orders

A ledger reads the addresses in a command and the account of its sender, and only then looks at its
store. What it reads is what is written: the sender is the account and the command is the order
(`Ledger.eq_of_resolve`), so no two commands give one order. A command that cannot be read fails at
once (`Ledger.execute_of_resolve_error`), with a failure that says so (`Ledger.isEarly_of_resolve`).

* `Ledger.execute_of_resolve` : a command that was read is carried out.
* `Token.execute_eq` : the same of a token, so that what follows is about orders.
* `Command.orderBy?_eq_some_iff` : which order a command of a sender is.
-/

namespace FungibleLedger

theorem AnyText.whole?_eq_some_iff {text : AnyText} {s : String} :
    text.whole? = some s ↔ text = .whole s := by
  cases text with
  | whole s' => simp [whole?]
  | broken codes => simp [whole?]

theorem Command.orderBy?_eq_some_iff {sender : AnyText} {command : Command} {account : String}
    {order : Order} :
    command.orderBy? sender = some (account, order) ↔
      sender = .whole account ∧ command = order := by
  constructor
  · intro h
    obtain ⟨account', hsender, h⟩ := Option.bind_eq_some_iff.1 h
    obtain ⟨order', hcommand, h⟩ := Option.bind_eq_some_iff.1 h
    cases h
    refine ⟨AnyText.whole?_eq_some_iff.1 hsender, ?_⟩
    cases command with
    | transfer recipient amount =>
      obtain ⟨recipient', hrecipient, h⟩ := Option.bind_eq_some_iff.1 hcommand
      cases h
      rw [AnyText.whole?_eq_some_iff.1 hrecipient]
      rfl
    | approve spender amount =>
      obtain ⟨spender', hspender, h⟩ := Option.bind_eq_some_iff.1 hcommand
      cases h
      rw [AnyText.whole?_eq_some_iff.1 hspender]
      rfl
    | transferFrom owner recipient amount =>
      obtain ⟨owner', howner, h⟩ := Option.bind_eq_some_iff.1 hcommand
      obtain ⟨recipient', hrecipient, h⟩ := Option.bind_eq_some_iff.1 h
      cases h
      rw [AnyText.whole?_eq_some_iff.1 howner, AnyText.whole?_eq_some_iff.1 hrecipient]
      rfl
    | burn amount =>
      cases hcommand
      rfl
  · rintro ⟨rfl, rfl⟩
    cases order <;> rfl

theorem Order.command_injective : Function.Injective Order.command := by
  intro order order' h
  have hsome : (order : Command).orderBy? (.whole "") = some ("", order) :=
    Command.orderBy?_eq_some_iff.2 ⟨rfl, rfl⟩
  rw [h, Command.orderBy?_eq_some_iff.2 ⟨rfl, rfl⟩] at hsome
  cases hsome
  rfl

namespace Ledger

variable {l : Ledger} {sender text : AnyText} {command : Command} {account address : String}
  {order : Order} {e : Failure}

/-! ## Texts -/

theorem addressOf_eq (l : Ledger) (text : AnyText) :
    l.addressOf text = Token.checkAddress l.addresses text := by
  cases text with
  | broken codes => rfl
  | whole address =>
    unfold addressOf AddressFormat.validate Token.checkAddress
    dsimp only
    cases l.addresses.fault? address with
    | none => rfl
    | some fault => rfl

theorem senderOf_eq (sender : AnyText) : senderOf sender = Token.checkSender sender := by
  cases sender <;> rfl

theorem fault?_of_addressOf (h : l.addressOf text = .ok address) :
    text = .whole address ∧ l.addresses.fault? address = none := by
  cases text with
  | broken codes => cases h
  | whole s =>
    rw [addressOf_eq, Token.checkAddress] at h
    split at h
    · next hfault =>
      cases h
      exact ⟨rfl, hfault⟩
    · cases h

theorem eq_of_addressOf (h : l.addressOf text = .ok address) : text = .whole address :=
  (fault?_of_addressOf h).1

theorem length_le_of_addressOf (h : l.addressOf text = .ok address) :
    (utf8 address).length ≤ Namespace.limit :=
  AddressFormat.length_le_limit (fault?_of_addressOf h).2

theorem exists_fault_of_addressOf (h : l.addressOf text = .error e) :
    ∃ fault, e = .invalidAddress fault := by
  unfold addressOf at h
  cases hvalidate : l.addresses.validate text with
  | ok address =>
    rw [hvalidate] at h
    cases h
  | error fault =>
    rw [hvalidate] at h
    cases h
    exact ⟨fault, rfl⟩

/-! ## Reading -/

theorem eq_of_orderOf (h : l.orderOf command = .ok order) : command = order := by
  cases command with
  | transfer recipient amount =>
    obtain ⟨recipient', hrecipient, h⟩ := ok_of_bind h
    cases h
    rw [eq_of_addressOf hrecipient]
    rfl
  | approve spender amount =>
    obtain ⟨spender', hspender, h⟩ := ok_of_bind h
    cases h
    rw [eq_of_addressOf hspender]
    rfl
  | transferFrom owner recipient amount =>
    obtain ⟨owner', howner, h⟩ := ok_of_bind h
    obtain ⟨recipient', hrecipient, h⟩ := ok_of_bind h
    cases h
    rw [eq_of_addressOf howner, eq_of_addressOf hrecipient]
    rfl
  | burn amount =>
    cases h
    rfl

theorem exists_fault_of_orderOf (h : l.orderOf command = .error e) :
    ∃ fault, e = .invalidAddress fault := by
  cases command with
  | transfer recipient amount =>
    obtain hfault | ⟨_, -, h⟩ := error_of_bind h
    · exact exists_fault_of_addressOf hfault
    · cases h
  | approve spender amount =>
    obtain hfault | ⟨_, -, h⟩ := error_of_bind h
    · exact exists_fault_of_addressOf hfault
    · cases h
  | transferFrom owner recipient amount =>
    obtain hfault | ⟨_, -, h⟩ := error_of_bind h
    · exact exists_fault_of_addressOf hfault
    · obtain hfault | ⟨_, -, h⟩ := error_of_bind h
      · exact exists_fault_of_addressOf hfault
      · cases h
  | burn amount => cases h

theorem of_resolve (h : l.resolve sender command = .ok (account, order)) :
    l.orderOf command = .ok order ∧ sender = .whole account := by
  obtain ⟨order', horder, h⟩ := ok_of_bind h
  obtain ⟨account', haccount, h⟩ := ok_of_bind h
  cases h
  cases sender with
  | broken codes => cases haccount
  | whole s =>
    cases haccount
    exact ⟨horder, rfl⟩

theorem eq_of_resolve (h : l.resolve sender command = .ok (account, order)) :
    sender = .whole account ∧ command = order :=
  ⟨(of_resolve h).2, eq_of_orderOf (of_resolve h).1⟩

theorem orderBy?_of_resolve (h : l.resolve sender command = .ok (account, order)) :
    command.orderBy? sender = some (account, order) :=
  Command.orderBy?_eq_some_iff.2 (eq_of_resolve h)

theorem footprint_of_resolve (h : l.resolve sender command = .ok (account, order)) :
    command.footprint sender = order.footprint account := by
  rw [Command.footprint, orderBy?_of_resolve h]

/-- What cannot be read is an address, or after all of them the sender. -/
theorem resolve_error_cases (h : l.resolve sender command = .error e) :
    (l.orderOf command = .error e ∧ ∃ fault, e = .invalidAddress fault) ∨
      ∃ order codes, l.orderOf command = .ok order ∧ sender = .broken codes ∧
        e = .unencodable (.ofCodes codes) := by
  obtain hfault | ⟨order, horder, h⟩ := error_of_bind h
  · exact .inl ⟨hfault, exists_fault_of_orderOf hfault⟩
  · cases sender with
    | whole account => cases h
    | broken codes =>
      cases h
      exact .inr ⟨order, codes, horder, rfl, rfl⟩

theorem isEarly_of_resolve (h : l.resolve sender command = .error e) : e.isEarly = true := by
  obtain ⟨-, fault, rfl⟩ | ⟨order, codes, -, -, rfl⟩ := resolve_error_cases h
  · rfl
  · rfl

/-! ## Carrying out -/

theorem execute_of_resolve (h : l.resolve sender command = .ok (account, order)) :
    l.execute sender command = carryOut account order := by
  rw [execute, h]
  rfl

theorem execute_of_resolve_error (h : l.resolve sender command = .error e) :
    l.execute sender command = throw e := by
  rw [execute, h]
  rfl

end Ledger

theorem Token.execute_eq (t : Token) (l : Ledger) (sender : AnyText) (command : Command) :
    t.execute l.addresses sender command =
      l.resolve sender command >>= fun (account, order) => t.carryOut account order := by
  unfold Ledger.resolve
  rw [Ledger.senderOf_eq]
  cases command with
  | transfer recipient amount =>
    rw [Ledger.orderOf, Ledger.addressOf_eq, Token.execute]
    simp only [bind_assoc, pure_bind]
  | approve spender amount =>
    rw [Ledger.orderOf, Ledger.addressOf_eq, Token.execute]
    simp only [bind_assoc, pure_bind]
  | transferFrom owner recipient amount =>
    rw [Ledger.orderOf, Ledger.addressOf_eq, Ledger.addressOf_eq, Token.execute]
    simp only [bind_assoc, pure_bind]
  | burn amount =>
    rw [Ledger.orderOf, Token.execute]
    simp only [bind_assoc, pure_bind]

end FungibleLedger
