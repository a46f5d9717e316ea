import Mathlib.Logic.Function.Basic
import FungibleLedger.Ledger.Call
import FungibleLedger.Proofs.Amount

/-!
# Tokens without a store

A token is three partial maps of numbers: the balances by account, the allowances by owner and
spender, and the supply. This module says what a command does to them, without keys, bytes or
buffers, and so states what a ledger is for.

* `Token`, `Slot` : the maps, and the places in them.
* `Token.debit`, `Token.credit`, `Token.allow`, `Token.draw`, `Token.retire` : the parts of
  orders.
* `Token.carryOut`, `Token.execute` : the token after an order, and after a command.
* `Order.response`, `Order.footprint` : what the sender of an order is told, and the places that the
  order reads or writes.
* `Command.orderBy?`, `Command.footprint` : the order that a command is, unless one of its texts is
  broken, and its places.
-/

namespace FungibleLedger

/-- Balances, allowances and supply. A place without a number counts as zero, and yet differs from
one that holds zero. -/
@[ext] structure Token where
  balance : String → Option Amount
  allowance : (owner spender : String) → Option Amount
  supply : Option Amount

/-- A place in a token. -/
inductive Slot
  | balance (account : String)
  | allowance (owner spender : String)
  | supply
deriving DecidableEq

/-- What a place may hold once it was written: an allowance of zero is none, and the other numbers
are never none. -/
def Slot.Admits : Slot → Option Amount → Prop
  | .allowance _ _, value => value ≠ some .zero
  | _, value => value ≠ none

namespace Token

/-! ## Places -/

/-- The number at a place. -/
def get (t : Token) : Slot → Option Amount
  | .balance account => t.balance account
  | .allowance owner spender => t.allowance owner spender
  | .supply => t.supply

/-- A token with the number at one place replaced. -/
def set (t : Token) (slot : Slot) (value : Option Amount) : Token :=
  match slot with
  | .balance account => { t with balance := Function.update t.balance account value }
  | .allowance owner spender =>
    { t with allowance :=
        Function.update t.allowance owner (Function.update (t.allowance owner) spender value) }
  | .supply => { t with supply := value }

theorem ext_get {t u : Token} (h : ∀ slot, t.get slot = u.get slot) : t = u := by
  ext1
  · funext account
    exact h (.balance account)
  · funext owner spender
    exact h (.allowance owner spender)
  · exact h .supply

theorem get_set (t : Token) (slot : Slot) (value : Option Amount) (other : Slot) :
    (t.set slot value).get other = if other = slot then value else t.get other := by
  cases slot with
  | balance account =>
    cases other with
    | balance account' => simp [get, set, Function.update_apply]
    | allowance owner spender => simp [get, set]
    | supply => simp [get, set]
  | allowance owner spender =>
    cases other with
    | balance account => simp [get, set]
    | allowance owner' spender' =>
      by_cases howner : owner' = owner
      · subst howner
        simp [get, set, Function.update_apply]
      · simp [get, set, howner]
    | supply => simp [get, set]
  | supply =>
    cases other with
    | balance account => simp [get, set]
    | allowance owner spender => simp [get, set]
    | supply => simp [get, set]

/-- The balance of an account, where no number stands for zero. -/
def balanceOf (t : Token) (account : String) : Amount := (t.balance account).getD .zero

/-- What a spender may still draw from an owner, where no number stands for zero. -/
def allowanceOf (t : Token) (owner spender : String) : Amount :=
  (t.allowance owner spender).getD .zero

/-- The supply, where no number stands for zero. -/
def supplyOf (t : Token) : Amount := t.supply.getD .zero

/-! ## Parts of orders -/

/-- An amount taken from an account that has it. -/
def debit (t : Token) (account : String) (amount : Amount) : Except Failure Token :=
  if t.balanceOf account < amount then .error (.insufficientFunds (t.balanceOf account) amount)
  else .ok (t.set (.balance account) (some ((t.balanceOf account).less amount)))

/-- An amount given to an account that can hold it. -/
def credit (t : Token) (account : String) (amount : Amount) : Except Failure Token :=
  match (t.balanceOf account).plus amount with
  | .error e => .error (.overflow e)
  | .ok total => .ok (t.set (.balance account) (some total))

/-- A debit and then a credit of the token that the debit left. -/
def move (t : Token) (sender recipient : String) (amount : Amount) : Except Failure Token := do
  let t ← t.debit sender amount
  t.credit recipient amount

/-- An allowance, in place of an earlier one; an allowance of nothing is none. -/
def allow (t : Token) (owner spender : String) (amount : Amount) : Token :=
  t.set (.allowance owner spender) (if amount = .zero then none else some amount)

/-- An amount drawn from an allowance that covers it. -/
def draw (t : Token) (owner spender : String) (amount : Amount) : Except Failure Token :=
  let allowance := t.allowanceOf owner spender
  if allowance < amount then .error (.insufficientAllowance allowance amount)
  else .ok (t.allow owner spender (allowance.less amount))

/-- An amount taken out of a supply that is recorded and covers it. -/
def retire (t : Token) (amount : Amount) : Except Failure Token :=
  match t.supply with
  | none => .error (.violation .noSupply)
  | some supply =>
    if supply < amount then .error (.violation (.negative ⟨supply.val, amount.val⟩))
    else .ok (t.set .supply (some (supply.less amount)))

/-! ## Orders and commands -/

/-- The token after an order of a sender, or why the order fails. -/
def carryOut (t : Token) (sender : String) : Order → Except Failure Token
  | .transfer recipient amount => t.move sender recipient amount
  | .approve spender amount => .ok (t.allow sender spender amount)
  | .transferFrom owner recipient amount => do
    let t ← t.draw owner sender amount
    t.move owner recipient amount
  | .burn amount => do
    let t ← t.debit sender amount
    t.retire amount

/-- The address that a text is, if it is one of a format. -/
def checkAddress (format : AddressFormat) : AnyText → Except Failure String
  | .whole address =>
    match format.fault? address with
    | none => .ok address
    | some fault => .error (.invalidAddress ⟨address, fault⟩)
  | text => .error (.invalidAddress ⟨text, format.brokenFault⟩)

/-- The account of a sender, if its name is whole. -/
def checkSender : AnyText → Except Failure String
  | .whole sender => .ok sender
  | .broken codes => .error (.unencodable (.ofCodes codes))

/-- The token after a command of a sender, or why the command fails. -/
def execute (format : AddressFormat) (t : Token) (sender : AnyText) :
    Command → Except Failure Token
  | .transfer recipient amount => do
    let recipient ← checkAddress format recipient
    let sender ← checkSender sender
    t.carryOut sender (.transfer recipient amount)
  | .approve spender amount => do
    let spender ← checkAddress format spender
    let sender ← checkSender sender
    t.carryOut sender (.approve spender amount)
  | .transferFrom owner recipient amount => do
    let owner ← checkAddress format owner
    let recipient ← checkAddress format recipient
    let sender ← checkSender sender
    t.carryOut sender (.transferFrom owner recipient amount)
  | .burn amount => do
    let sender ← checkSender sender
    t.carryOut sender (.burn amount)

end Token

namespace Order

/-- The command that is an order. -/
def command : Order → Command
  | .transfer recipient amount => .transfer recipient amount
  | .approve spender amount => .approve spender amount
  | .transferFrom owner recipient amount => .transferFrom owner recipient amount
  | .burn amount => .burn amount

instance : Coe Order Command := ⟨command⟩

/-- The amount of an order. -/
def amount : Order → Amount
  | .transfer _ amount | .approve _ amount | .transferFrom _ _ amount | .burn amount => amount

/-- What the sender of an order is told when it succeeds. -/
def response (sender : String) : Order → Response
  | .transfer recipient amount =>
    ⟨[("action", "transfer"), ("sender", sender), ("recipient", recipient),
      ("amount", amount.digits)]⟩
  | .approve spender amount =>
    ⟨[("action", "approve"), ("owner", sender), ("spender", spender), ("amount", amount.digits)]⟩
  | .transferFrom owner recipient amount =>
    ⟨[("action", "transfer_from"), ("spender", sender), ("sender", owner),
      ("recipient", recipient), ("amount", amount.digits)]⟩
  | .burn amount => ⟨[("action", "burn"), ("account", sender), ("amount", amount.digits)]⟩

/-- The places that an order of a sender reads or writes. -/
def footprint (sender : String) : Order → List Slot
  | .transfer recipient _ => [.balance sender, .balance recipient]
  | .approve spender _ => [.allowance sender spender]
  | .transferFrom owner recipient _ =>
    [.allowance owner sender, .balance owner, .balance recipient]
  | .burn _ => [.balance sender, .supply]

end Order

namespace Command

/-- The order that a command is, if its texts are whole. -/
def order? : Command → Option Order
  | .transfer recipient amount => do
    return .transfer (← recipient.whole?) amount
  | .approve spender amount => do
    return .approve (← spender.whole?) amount
  | .transferFrom owner recipient amount => do
    return .transferFrom (← owner.whole?) (← recipient.whole?) amount
  | .burn amount => some (.burn amount)

/-- The account of a sender and the order that a command is, if all texts are whole. -/
def orderBy? (sender : AnyText) (command : Command) : Option (String × Order) := do
  return (← sender.whole?, ← command.order?)

/-- The places that a command of a sender may read or write: none if one of the texts is broken. -/
def footprint (sender : AnyText) (command : Command) : List Slot :=
  match command.orderBy? sender with
  | none => []
  | some (account, order) => order.footprint account

end Command

end FungibleLedger
