import FungibleLedger.Proofs.Ledger.Effects

/-!
# Balances and what orders move

A successful order takes from accounts and gives to accounts, and what it takes and gives can be
read off it: the balance after it and what it took are the balance before it and what it gave
(`Token.balanceOf_carryOut`). What an order takes from an account other than its sender's is drawn
from an allowance of that account (`Token.spent_le_allowanceOf`). The supply after an order and
what the order burned are the supply before it (`Token.supply_carryOut`).
-/

namespace FungibleLedger

namespace Order

/-- What an order of a sender takes from an account. -/
def spent (account sender : String) : Order → ℕ
  | .transfer _ amount => if account = sender then amount.val else 0
  | .approve _ _ => 0
  | .transferFrom owner _ amount => if account = owner then amount.val else 0
  | .burn amount => if account = sender then amount.val else 0

/-- What an order gives to an account. -/
def received (account : String) : Order → ℕ
  | .transfer recipient amount => if account = recipient then amount.val else 0
  | .approve _ _ => 0
  | .transferFrom _ recipient amount => if account = recipient then amount.val else 0
  | .burn _ => 0

/-- What an order takes out of the supply. -/
def burned : Order → ℕ
  | .burn amount => amount.val
  | _ => 0

end Order

namespace Token

variable {t t' : Token} {sender : String} {amount : Amount}

/-! ## Parts of orders -/

theorem balanceOf_debit {account : String} (h : t.debit account amount = .ok t') (other : String) :
    (t'.balanceOf other).val + (if other = account then amount.val else 0) =
      (t.balanceOf other).val := by
  obtain ⟨hfunds, rfl⟩ := set_of_debit h
  rw [balanceOf_set_balance]
  split
  · next heq =>
    rw [heq, Option.getD_some, Amount.val_less]
    omega
  · rfl

theorem balanceOf_credit {account : String} (h : t.credit account amount = .ok t')
    (other : String) :
    (t'.balanceOf other).val =
      (t.balanceOf other).val + (if other = account then amount.val else 0) := by
  obtain ⟨total, htotal, rfl⟩ := set_of_credit h
  rw [balanceOf_set_balance]
  split
  · next heq => rw [heq, Option.getD_some, htotal]
  · rfl

theorem balanceOf_draw {owner spender : String} (h : t.draw owner spender amount = .ok t') :
    t'.balanceOf = t.balanceOf := by
  obtain ⟨-, rfl⟩ := set_of_draw h
  rfl

theorem balanceOf_retire (h : t.retire amount = .ok t') : t'.balanceOf = t.balanceOf := by
  obtain ⟨supply, -, -, rfl⟩ := set_of_retire h
  rfl

/-! ## Orders -/

theorem balanceOf_carryOut {order : Order} (h : t.carryOut sender order = .ok t')
    (account : String) :
    (t'.balanceOf account).val + order.spent account sender =
      (t.balanceOf account).val + order.received account := by
  cases order with
  | transfer recipient amount =>
    obtain ⟨debited, hdebit, hcredit⟩ := parts_of_transfer h
    have hless := balanceOf_debit hdebit account
    have hmore := balanceOf_credit hcredit account
    rw [Order.spent, Order.received]
    omega
  | approve spender amount =>
    rw [parts_of_approve h]
    rfl
  | transferFrom owner recipient amount =>
    obtain ⟨drawn, debited, hdraw, hdebit, hcredit⟩ := parts_of_transferFrom h
    have hless := balanceOf_debit hdebit account
    have hmore := balanceOf_credit hcredit account
    rw [balanceOf_draw hdraw] at hless
    rw [Order.spent, Order.received]
    omega
  | burn amount =>
    obtain ⟨debited, hdebit, hretire⟩ := parts_of_burn h
    have hless := balanceOf_debit hdebit account
    rw [balanceOf_retire hretire, Order.spent, Order.received]
    omega

theorem spent_le_allowanceOf {owner recipient : String}
    (h : t.carryOut sender (.transferFrom owner recipient amount) = .ok t')
    (account : String) :
    (Order.transferFrom owner recipient amount).spent account sender ≤
      (t.allowanceOf account sender).val := by
  obtain ⟨drawn, debited, hdraw, -, -⟩ := parts_of_transferFrom h
  obtain ⟨hcovered, -⟩ := set_of_draw hdraw
  rw [Order.spent]
  split
  · next heq =>
    rw [heq]
    exact hcovered
  · exact Nat.zero_le _

/-! ## Supply -/

theorem supply_of_burn (h : t.carryOut sender (.burn amount) = .ok t') :
    ∃ supply rest, t.supply = some supply ∧ t'.supply = some rest ∧
      rest.val + amount.val = supply.val := by
  obtain ⟨debited, hdebit, hretire⟩ := parts_of_burn h
  obtain ⟨-, rfl⟩ := set_of_debit hdebit
  obtain ⟨supply, hsupply, hcovered, rfl⟩ := set_of_retire hretire
  refine ⟨supply, supply.less amount, hsupply, rfl, ?_⟩
  rw [Amount.val_less]
  omega

theorem supply_of_not_burn {order : Order} (h : t.carryOut sender order = .ok t')
    (hburn : ∀ amount, order ≠ .burn amount) : t'.supply = t.supply := by
  cases order with
  | transfer recipient amount =>
    obtain ⟨debited, hdebit, hcredit⟩ := parts_of_transfer h
    obtain ⟨-, rfl⟩ := set_of_debit hdebit
    obtain ⟨total, -, rfl⟩ := set_of_credit hcredit
    rfl
  | approve spender amount =>
    rw [parts_of_approve h]
    rfl
  | transferFrom owner recipient amount =>
    obtain ⟨drawn, debited, hdraw, hdebit, hcredit⟩ := parts_of_transferFrom h
    obtain ⟨-, rfl⟩ := set_of_draw hdraw
    obtain ⟨-, rfl⟩ := set_of_debit hdebit
    obtain ⟨total, -, rfl⟩ := set_of_credit hcredit
    rfl
  | burn amount => exact absurd rfl (hburn amount)

theorem supply_carryOut {order : Order} (h : t.carryOut sender order = .ok t')
    {supply : Amount} (hsupply : t.supply = some supply) :
    ∃ rest, t'.supply = some rest ∧ rest.val + order.burned = supply.val := by
  cases order with
  | burn amount =>
    obtain ⟨before, rest, hbefore, hafter, hburned⟩ := supply_of_burn h
    rw [hsupply] at hbefore
    cases hbefore
    exact ⟨rest, hafter, hburned⟩
  | _ =>
    rw [← supply_of_not_burn h nofun] at hsupply
    exact ⟨supply, hsupply, rfl⟩

end Token

end FungibleLedger
