import FungibleLedger.Proofs.Host.Calls
import FungibleLedger.Proofs.Ledger.Extensional
import FungibleLedger.Proofs.Ledger.Postings

/-!
# Payments in parts

A payment in two parts does what it does at once, over whatever records there are: the parts both
succeed if and only if the whole does, and they leave the same records (`Host.execute_split`).

This is a law of single postings first. A record that a sum is taken from, or put into, is the one
that the two parts in turn make of it, and where one of them fails the sum fails too
(`Posting.settle_split`). The postings of a payment are at different places, so that each settles
the record that was there before the call. They would not be in a transfer to oneself: the account
would have to hold each part, but never the whole.

* `Payment`, `Payment.Proper` : a command but for its amount, and whether it pays someone else.
* `Payment.Pays` : the postings of a payment whose texts can be read, whatever the amount.
* `Posting.Posted.trans` : postings of two amounts are postings of the sum.
-/

namespace FungibleLedger

/-! ## One posting -/

namespace Posting

variable {x y z : Amount} {s s₁ s₂ : Store} {postings : List Posting}

/-- Whether a posting moves its amount: a grant replaces what was there. -/
def Moves : Posting → Prop
  | .grant _ _ => False
  | _ => True

theorem settle_debit_split (hsum : z.val = x.val + y.val) (slot : Slot) (record : Option Bytes)
    (value : Option Amount) :
    (debit slot).settle z record = .ok value ↔ ∃ between,
      (debit slot).settle x record = .ok between ∧
        (debit slot).settle y (between.map Amount.toBytes) = .ok value := by
  simp only [settle_debit_eq_ok_iff, Amount.lt_iff]
  constructor
  · rintro ⟨held, hheld, hcovered, rfl⟩
    refine ⟨_, ⟨held, hheld, by omega, rfl⟩, held.less x, slot.held_recorded _, ?_, ?_⟩
    · rw [Amount.val_less]
      omega
    · congr 1
      apply Amount.ext_val
      simp only [Amount.val_less]
      omega
  · rintro ⟨_, ⟨held, hheld, hx, rfl⟩, rest, hrest, hy, rfl⟩
    rw [slot.held_recorded] at hrest
    cases hrest
    rw [Amount.val_less] at hy
    refine ⟨held, hheld, by omega, ?_⟩
    congr 1
    apply Amount.ext_val
    simp only [Amount.val_less]
    omega

theorem settle_credit_split (hsum : z.val = x.val + y.val) (account : String)
    (record : Option Bytes) (value : Option Amount) :
    (credit account).settle z record = .ok value ↔ ∃ between,
      (credit account).settle x record = .ok between ∧
        (credit account).settle y (between.map Amount.toBytes) = .ok value := by
  simp only [settle_credit_eq_ok_iff, Amount.plus_eq_ok_iff]
  constructor
  · rintro ⟨held, total, hheld, htotal, rfl⟩
    have hlt := total.val_lt
    let between : Amount := ⟨held.val + x.val, by omega⟩
    refine ⟨some between, ⟨held, between, hheld, rfl, rfl⟩, between, total,
      (Slot.balance account).held_recorded between, ?_, rfl⟩
    show total.val = held.val + x.val + y.val
    omega
  · rintro ⟨_, ⟨held, between, hheld, hx, rfl⟩, held', total, hheld', hy, rfl⟩
    have hbetween : Except.ok held' = Except.ok between :=
      hheld'.symm.trans ((Slot.balance account).held_recorded between)
    cases hbetween
    exact ⟨held, total, hheld, by omega, rfl⟩

/-- A sum is posted if and only if one part of it is, and then the other. -/
theorem settle_split (hsum : z.val = x.val + y.val) {posting : Posting} (hmoves : posting.Moves)
    (record : Option Bytes) (value : Option Amount) :
    posting.settle z record = .ok value ↔ ∃ between, posting.settle x record = .ok between ∧
      posting.settle y (between.map Amount.toBytes) = .ok value := by
  cases posting with
  | debit slot => exact settle_debit_split hsum slot record value
  | credit account => exact settle_credit_split hsum account record value
  | grant owner spender => exact absurd hmoves id

/-! ## Postings one after the other -/

theorem Posted.trans (hsum : z.val = x.val + y.val) (hmoves : ∀ posting ∈ postings, posting.Moves)
    (hx : Posted x postings s s₁) (hy : Posted y postings s₁ s₂) : Posted z postings s s₂ := by
  constructor
  · intro posting hposting
    obtain ⟨between, hsettle, hbetween⟩ := hx.settled posting hposting
    obtain ⟨value, hsettle', hvalue⟩ := hy.settled posting hposting
    rw [hbetween] at hsettle'
    exact ⟨value, (settle_split hsum (hmoves posting hposting) _ _).2 ⟨between, hsettle, hsettle'⟩,
      hvalue⟩
  · intro key hkey
    rw [hy.kept key hkey, hx.kept key hkey]

/-- What postings leave is settled by what was there. -/
theorem Posted.alike (h : Posted z postings s s₁) (h' : Posted z postings s s₂) : s₁.Alike s₂ := by
  intro key
  by_cases hkey : ∀ posting ∈ postings, key ≠ posting.slot.key
  · rw [h.kept key hkey, h'.kept key hkey]
  · push Not at hkey
    obtain ⟨posting, hposting, rfl⟩ := hkey
    obtain ⟨value, hsettle, hvalue⟩ := h.settled posting hposting
    obtain ⟨value', hsettle', hvalue'⟩ := h'.settled posting hposting
    rw [hsettle] at hsettle'
    cases hsettle'
    rw [hvalue, hvalue']

theorem Settles.first (hsum : z.val = x.val + y.val) (hmoves : ∀ posting ∈ postings, posting.Moves)
    (h : Settles z postings s) : Settles x postings s := by
  intro posting hposting
  obtain ⟨value, hvalue⟩ := h posting hposting
  obtain ⟨between, hbetween, -⟩ := (settle_split hsum (hmoves posting hposting) _ _).1 hvalue
  exact ⟨between, hbetween⟩

theorem Settles.second (hsum : z.val = x.val + y.val) (hmoves : ∀ posting ∈ postings, posting.Moves)
    (h : Settles z postings s) (hx : Posted x postings s s₁) : Settles y postings s₁ := by
  intro posting hposting
  obtain ⟨value, hvalue⟩ := h posting hposting
  obtain ⟨between, hbetween, hrest⟩ := (settle_split hsum (hmoves posting hposting) _ _).1 hvalue
  obtain ⟨between', hbetween', hrecord⟩ := hx.settled posting hposting
  rw [hbetween] at hbetween'
  cases hbetween'
  exact ⟨value, hrecord ▸ hrest⟩

end Posting

/-! ## Payments -/

/-- A command that moves an amount, but for the amount. -/
inductive Payment
  | transfer (recipient : AnyText)
  | transferFrom (owner recipient : AnyText)
  | burn
deriving DecidableEq

namespace Payment

/-- The command that pays an amount. -/
def command : Payment → Amount → Command
  | .transfer recipient, amount => .transfer recipient amount
  | .transferFrom owner recipient, amount => .transferFrom owner recipient amount
  | .burn, amount => .burn amount

/-- Whether a payment goes to someone else than the one who pays. -/
def Proper (sender : AnyText) : Payment → Prop
  | .transfer recipient => recipient ≠ sender
  | .transferFrom owner recipient => owner ≠ recipient
  | .burn => True

/-- A payment of a sender is read, whatever the amount, and then consists of some postings, which
move the amount between different places. -/
structure Pays (l : Ledger) (sender : AnyText) (payment : Payment) (postings : List Posting) :
    Prop where
  apart : Posting.Apart postings
  moves : ∀ posting ∈ postings, posting.Moves
  reads : ∀ amount, ∃ account order,
    l.resolve sender (payment.command amount) = .ok (account, order) ∧
    order.amount = amount ∧ order.postings account = postings

variable {l : Ledger} {sender : AnyText}

theorem pays_transfer {account name : String} {recipient : AnyText}
    (hname : l.addressOf recipient = .ok name)
    (hproper : (Payment.transfer recipient).Proper (.whole account)) :
    Pays l (.whole account) (.transfer recipient) [.debit (.balance account), .credit name] where
  apart := by
    have hne : account ≠ name := by
      rintro rfl
      exact hproper (Ledger.eq_of_addressOf hname)
    simp [Posting.Apart, Posting.slot, Slot.balance_key_ne hne]
  moves := by simp [Posting.Moves]
  reads amount := by
    refine ⟨account, .transfer name amount, ?_, rfl, rfl⟩
    rw [command, Ledger.resolve, Ledger.orderOf, hname]
    rfl

theorem pays_transferFrom {account source name : String} {owner recipient : AnyText}
    (howner : l.addressOf owner = .ok source) (hname : l.addressOf recipient = .ok name)
    (hproper : (Payment.transferFrom owner recipient).Proper (.whole account)) :
    Pays l (.whole account) (.transferFrom owner recipient)
      [.debit (.allowance source account), .debit (.balance source), .credit name] where
  apart := by
    have hne : source ≠ name := by
      rintro rfl
      exact hproper ((Ledger.eq_of_addressOf howner).trans (Ledger.eq_of_addressOf hname).symm)
    simp [Posting.Apart, Posting.slot, Slot.balance_key_ne hne, Slot.allowance_key_ne_balance]
  moves := by simp [Posting.Moves]
  reads amount := by
    refine ⟨account, .transferFrom source name amount, ?_, rfl, rfl⟩
    rw [command, Ledger.resolve, Ledger.orderOf, howner, hname]
    rfl

theorem pays_burn (account : String) :
    Pays l (.whole account) .burn [.debit (.balance account), .debit .supply] where
  apart := by simp [Posting.Apart, Posting.slot, Slot.balance_key_ne_supply]
  moves := by simp [Posting.Moves]
  reads amount := ⟨account, .burn amount, rfl, rfl, rfl⟩

/-- Whether a payment can be read does not depend on its amount. -/
theorem pays_or_fails (l : Ledger) (sender : AnyText) {payment : Payment}
    (hproper : payment.Proper sender) :
    (∃ postings, Pays l sender payment postings) ∨
      ∃ e, ∀ amount, l.resolve sender (payment.command amount) = .error e := by
  cases payment with
  | transfer recipient =>
    cases hname : l.addressOf recipient with
    | error e =>
      refine .inr ⟨e, fun amount => ?_⟩
      rw [command, Ledger.resolve, Ledger.orderOf, hname]
      rfl
    | ok name =>
      cases sender with
      | whole account => exact .inl ⟨_, pays_transfer hname hproper⟩
      | broken codes =>
        refine .inr ⟨.unencodable (.ofCodes codes), fun amount => ?_⟩
        rw [command, Ledger.resolve, Ledger.orderOf, hname]
        rfl
  | transferFrom owner recipient =>
    cases howner : l.addressOf owner with
    | error e =>
      refine .inr ⟨e, fun amount => ?_⟩
      rw [command, Ledger.resolve, Ledger.orderOf, howner]
      rfl
    | ok source =>
      cases hname : l.addressOf recipient with
      | error e =>
        refine .inr ⟨e, fun amount => ?_⟩
        rw [command, Ledger.resolve, Ledger.orderOf, howner, hname]
        rfl
      | ok name =>
        cases sender with
        | whole account => exact .inl ⟨_, pays_transferFrom howner hname hproper⟩
        | broken codes =>
          refine .inr ⟨.unencodable (.ofCodes codes), fun amount => ?_⟩
          rw [command, Ledger.resolve, Ledger.orderOf, howner, hname]
          rfl
  | burn =>
    cases sender with
    | whole account => exact .inl ⟨_, pays_burn account⟩
    | broken codes => exact .inr ⟨.unencodable (.ofCodes codes), fun _ => rfl⟩

end Payment

/-! ## Calls -/

namespace Host

open Posting

variable {h : Host} {sender : AnyText} {payment : Payment} {postings : List Posting}
  {x y z amount : Amount}

/-- A payment that can be read succeeds if each of its postings would succeed alone. -/
theorem pay_ok_iff (hpays : payment.Pays h.ledger sender postings) (amount : Amount) :
    (∃ response, (h.executeTyped sender (payment.command amount)).result = .ok response) ↔
      Settles amount postings h.store := by
  obtain ⟨account, order, hresolve, rfl, rfl⟩ := hpays.reads amount
  rw [executeTyped_result, run, Ledger.run_execute_eq, hresolve]
  dsimp only
  constructor
  · rintro ⟨response, hresponse⟩
    cases hpost : post order.amount (order.response account) (order.postings account)
        h.store.buffer with
    | error e buffer =>
      rw [hpost] at hresponse
      cases hresponse
    | ok answer buffer =>
      exact ((posted_of_ok hpays.apart hpost).congr h.store.get?_buffer fun _ => rfl).settles
  · intro hsettles
    have hbuffer := hsettles.congr fun key => (h.store.get?_buffer key).symm
    obtain ⟨buffer, hpost⟩ := exists_post_eq_ok hpays.apart hbuffer (order.response account)
    rw [hpost]
    exact ⟨_, rfl⟩

theorem posted_of_pay (hpays : payment.Pays h.ledger sender postings)
    (hok : ∃ response,
      (h.executeTyped sender (payment.command amount)).result = .ok response) :
    Posted amount postings h.store
      (h.executeTyped sender (payment.command amount)).host.store := by
  obtain ⟨response, hresult⟩ := hok
  obtain ⟨account, order, hresolve, rfl, rfl⟩ := hpays.reads amount
  rw [executeTyped_result] at hresult
  rw [executeTyped_host]
  obtain ⟨buffer, hrun, hafter⟩ :=
    run_ok (h.ledger.writesOnly_execute sender _) (Prod.ext hresult rfl)
  rw [Ledger.run_execute_eq, hresolve] at hrun
  exact (posted_of_ok hpays.apart hrun).congr h.store.get?_buffer fun key => (hafter key).symm

/-- The host after a first part reads the second as before. -/
theorem pays_after (hpays : payment.Pays h.ledger sender postings) (amount : Amount) :
    payment.Pays (h.executeTyped sender (payment.command amount)).host.ledger sender postings := by
  rw [executeTyped_host]
  exact hpays

/-- The parts of a payment that succeeds as a whole succeed one after the other. -/
theorem pay_parts (hpays : payment.Pays h.ledger sender postings) (hsum : z.val = x.val + y.val)
    (hwhole : ∃ response, (h.executeTyped sender (payment.command z)).result = .ok response) :
    let partly := h.executeTyped sender (payment.command x)
    (∃ response, partly.result = .ok response) ∧
      ∃ response, (partly.host.executeTyped sender (payment.command y)).result = .ok response := by
  intro partly
  have hsettles := (pay_ok_iff hpays z).1 hwhole
  have hfirst : ∃ response, partly.result = .ok response :=
    (pay_ok_iff hpays x).2 (hsettles.first hsum hpays.moves)
  refine ⟨hfirst, (pay_ok_iff (pays_after hpays x) y).2 ?_⟩
  exact hsettles.second hsum hpays.moves (posted_of_pay hpays hfirst)

/-- The parts of a payment leave what the whole leaves. -/
theorem posted_of_parts (hpays : payment.Pays h.ledger sender postings)
    (hsum : z.val = x.val + y.val)
    (hfirst : ∃ response, (h.executeTyped sender (payment.command x)).result = .ok response)
    (hsecond : ∃ response, ((h.executeTyped sender (payment.command x)).host.executeTyped sender
      (payment.command y)).result = .ok response) :
    Posted z postings h.store ((h.executeTyped sender
      (payment.command x)).host.executeTyped sender (payment.command y)).host.store :=
  (posted_of_pay hpays hfirst).trans hsum hpays.moves
    (posted_of_pay (pays_after hpays x) hsecond)

/-- A payment that cannot be read fails, whatever the amount. -/
theorem not_ok_of_fails {e : Failure}
    (hfails : ∀ amount, h.ledger.resolve sender (payment.command amount) = .error e) :
    ¬ ∃ response, (h.executeTyped sender (payment.command amount)).result = .ok response := by
  rintro ⟨response, hresult⟩
  rw [executeTyped_result, Ledger.execute_of_resolve_error (hfails amount)] at hresult
  cases hresult

/-- Two calls that pay an amount each both succeed if and only if one call that pays the sum does,
and then they leave the same records as that one. -/
theorem execute_split (h : Host) {sender : AnyText} {payment : Payment}
    (hproper : payment.Proper sender) {x y z : Amount} (hsum : z.val = x.val + y.val)
    {first second whole : Incoming Command} (hfirst : first.command? = some (payment.command x))
    (hsecond : second.command? = some (payment.command y))
    (hwhole : whole.command? = some (payment.command z)) :
    let partly := h.execute sender first
    let twice := partly.host.execute sender second
    let once := h.execute sender whole
    ((∃ r, partly.result = .ok r) ∧ (∃ r, twice.result = .ok r) ↔ ∃ r, once.result = .ok r) ∧
      ((∃ r, once.result = .ok r) → twice.host.store.Alike once.host.store) := by
  rw [h.execute_eq_typed sender hfirst, h.execute_eq_typed sender hwhole]
  intro partly twice once
  have htwice : twice = partly.host.executeTyped sender (payment.command y) :=
    partly.host.execute_eq_typed sender hsecond
  clear_value twice
  subst htwice
  obtain ⟨postings, hpays⟩ | ⟨e, hfails⟩ := Payment.pays_or_fails h.ledger sender hproper
  · refine ⟨⟨fun ⟨hpartly, htwice⟩ => ?_, pay_parts hpays hsum⟩, fun hok => ?_⟩
    · exact (pay_ok_iff hpays z).2 (posted_of_parts hpays hsum hpartly htwice).settles
    · obtain ⟨hpartly, htwice⟩ := pay_parts hpays hsum hok
      exact (posted_of_parts hpays hsum hpartly htwice).alike (posted_of_pay hpays hok)
  · have hnone : ∀ amount, ¬ ∃ r, (h.executeTyped sender (payment.command amount)).result = .ok r :=
      fun _ => not_ok_of_fails hfails
    exact ⟨⟨fun hparts => absurd hparts.1 (hnone x), fun hok => absurd hok (hnone z)⟩,
      fun hok => absurd hok (hnone z)⟩

/-- A delegated transfer whose first part is all of the allowance and of the balance. The second
part, of nothing, finds no allowance any more, and the supply may be corrupt. -/
theorem execute_split_exhausting :
    let five : Amount := ⟨5, by decide⟩
    let store := (((Store.memory .empty).setAmount (.allowance "alice" "carol") (some five)
      ).setAmount (.balance "alice") (some five)).set Slot.supply.key [1, 2, 3]
    let host : Host := ⟨⟨.simple, ⟨3, 30, 3, 6⟩⟩, store, none, .none⟩
    let pay (amount : Amount) : Incoming Command := .typed (.transferFrom "alice" "bob" amount)
    let twice := (host.execute "carol" (pay five)).host.execute "carol" (pay .zero)
    let once := host.execute "carol" (pay five)
    (∃ r, twice.result = .ok r) ∧ twice.host.store.Alike once.host.store := by
  intro five store host pay twice once
  have hok : ∃ r, once.result = .ok r :=
    ⟨(Order.transferFrom "alice" "bob" five).response "carol", by decide +kernel⟩
  let payment : Payment := .transferFrom "alice" "bob"
  have hproper : payment.Proper "carol" := by
    show AnyText.whole "alice" ≠ .whole "bob"
    decide
  have hsum : five.val = five.val + Amount.zero.val := rfl
  have hall : (pay five).command? = some (payment.command five) := rfl
  have hnothing : (pay .zero).command? = some (payment.command .zero) := rfl
  clear_value host
  obtain ⟨hiff, halike⟩ := execute_split host hproper hsum hall hnothing hall
  exact ⟨(hiff.2 hok).2, halike hok⟩

/-- Who holds five can send three of them to themselves twice, but not six at once. -/
example :
    let pay (n : ℕ) (h : n < Amount.bound) : Incoming Command := .typed (.transfer "alice" ⟨n, h⟩)
    let store := (Store.memory .empty).setAmount (.balance "alice") (some ⟨5, by decide⟩)
    let host : Host := ⟨⟨.simple, ⟨3, 30, 3, 6⟩⟩, store, none, .none⟩
    let partly := host.execute "alice" (pay 3 (by decide))
    let twice := partly.host.execute "alice" (pay 3 (by decide))
    let once := host.execute "alice" (pay 6 (by decide))
    partly.result.isOk ∧ twice.result.isOk ∧ ¬ once.result.isOk := by
  decide +kernel

end Host

end FungibleLedger
