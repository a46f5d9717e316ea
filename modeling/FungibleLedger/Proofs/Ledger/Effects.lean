import FungibleLedger.Proofs.Ledger.Outcomes
import FungibleLedger.Proofs.Ledger.Token

/-!
# What successful orders leave

Each part of an order changes one place of a token, and only if it could: `Token.set_of_debit`,
`Token.set_of_credit`, `Token.set_of_draw`, `Token.set_of_retire`. A successful order is a chain
of its parts (`Token.parts_of_transfer` and the three beside it), and so what holds of all parts
holds of all orders.

* `Token.carryOut_admits` : an order leaves a number at every place that it writes, or none where
  that is how zero is written.
* `Token.balanceOf_transfer_self` : a transfer to oneself changes no balance.
-/

namespace FungibleLedger

namespace Token

variable {t t' : Token} {sender : String} {amount : Amount}

/-! ## Parts of orders -/

theorem set_of_debit {account : String} (h : t.debit account amount = .ok t') :
    amount.val ≤ (t.balanceOf account).val ∧
      t' = t.set (.balance account) (some ((t.balanceOf account).less amount)) := by
  unfold debit at h
  split at h
  · cases h
  · next hfunds =>
    cases h
    exact ⟨Nat.le_of_not_lt hfunds, rfl⟩

theorem set_of_credit {account : String} (h : t.credit account amount = .ok t') :
    ∃ total, total.val = (t.balanceOf account).val + amount.val ∧
      t' = t.set (.balance account) (some total) := by
  unfold credit at h
  split at h
  · cases h
  · next total hsum =>
    cases h
    exact ⟨total, Amount.val_of_plus hsum, rfl⟩

theorem set_of_draw {owner spender : String} (h : t.draw owner spender amount = .ok t') :
    amount.val ≤ (t.allowanceOf owner spender).val ∧
      t' = t.allow owner spender ((t.allowanceOf owner spender).less amount) := by
  unfold draw at h
  dsimp only at h
  split at h
  · cases h
  · next hcovered =>
    cases h
    exact ⟨Nat.le_of_not_lt hcovered, rfl⟩

theorem set_of_retire (h : t.retire amount = .ok t') :
    ∃ supply, t.supply = some supply ∧ amount.val ≤ supply.val ∧
      t' = t.set .supply (some (supply.less amount)) := by
  unfold retire at h
  split at h
  · cases h
  · next supply hsupply =>
    split at h
    · cases h
    · next hcovered =>
      cases h
      exact ⟨supply, hsupply, Nat.le_of_not_lt hcovered, rfl⟩

/-! ## Orders as chains of parts -/

theorem parts_of_transfer {recipient : String}
    (h : t.carryOut sender (.transfer recipient amount) = .ok t') :
    ∃ debited, t.debit sender amount = .ok debited ∧
      debited.credit recipient amount = .ok t' :=
  ok_of_bind h

theorem parts_of_approve {spender : String}
    (h : t.carryOut sender (.approve spender amount) = .ok t') :
    t' = t.allow sender spender amount := by
  cases h
  rfl

theorem parts_of_transferFrom {owner recipient : String}
    (h : t.carryOut sender (.transferFrom owner recipient amount) = .ok t') :
    ∃ drawn debited, t.draw owner sender amount = .ok drawn ∧
      drawn.debit owner amount = .ok debited ∧ debited.credit recipient amount = .ok t' := by
  obtain ⟨drawn, hdrawn, h⟩ := ok_of_bind h
  obtain ⟨debited, hdebited, h⟩ := ok_of_bind h
  exact ⟨drawn, debited, hdrawn, hdebited, h⟩

theorem parts_of_burn (h : t.carryOut sender (.burn amount) = .ok t') :
    ∃ debited, t.debit sender amount = .ok debited ∧ debited.retire amount = .ok t' :=
  ok_of_bind h

/-! ## Places after an order -/

theorem allow_eq_set (t : Token) (owner spender : String) (amount : Amount) :
    ∃ value, (Slot.allowance owner spender).Admits value ∧
      t.allow owner spender amount = t.set (.allowance owner spender) value := by
  refine ⟨_, ?_, rfl⟩
  split
  · exact nofun
  · next hamount => exact fun h => hamount (Option.some.inj h)

/-- A place that was written holds what it may, and so does a place that held it before. -/
theorem admits_set {slot other : Slot} {value : Option Amount} (hvalue : slot.Admits value)
    (hother : other ≠ slot → other.Admits (t.get other)) :
    other.Admits ((t.set slot value).get other) := by
  rw [get_set]
  split
  · next heq =>
    rw [heq]
    exact hvalue
  · next hne => exact hother hne

theorem carryOut_admits {order : Order} (h : t.carryOut sender order = .ok t') :
    ∀ slot ∈ order.footprint sender, slot.Admits (t'.get slot) := by
  have hsome : ∀ (account : String) (value : Amount), (Slot.balance account).Admits (some value) :=
    fun _ _ => nofun
  intro slot hslot
  cases order with
  | transfer recipient amount =>
    obtain ⟨debited, hdebit, hcredit⟩ := parts_of_transfer h
    obtain ⟨-, rfl⟩ := set_of_debit hdebit
    obtain ⟨total, -, rfl⟩ := set_of_credit hcredit
    refine admits_set (hsome _ _) fun hrecipient => admits_set (hsome _ _) fun hsender => ?_
    simp only [Order.footprint, List.mem_cons, List.not_mem_nil, or_false] at hslot
    exact absurd hslot (by simp [hrecipient, hsender])
  | approve spender amount =>
    obtain ⟨value, hvalue, hset⟩ := t.allow_eq_set sender spender amount
    rw [parts_of_approve h, hset]
    refine admits_set hvalue fun hgrant => ?_
    simp only [Order.footprint, List.mem_cons, List.not_mem_nil, or_false] at hslot
    exact absurd hslot hgrant
  | transferFrom owner recipient amount =>
    obtain ⟨drawn, debited, hdraw, hdebit, hcredit⟩ := parts_of_transferFrom h
    obtain ⟨-, rfl⟩ := set_of_draw hdraw
    obtain ⟨-, rfl⟩ := set_of_debit hdebit
    obtain ⟨total, -, rfl⟩ := set_of_credit hcredit
    obtain ⟨value, hvalue, hset⟩ := t.allow_eq_set owner sender _
    rw [hset]
    refine admits_set (hsome _ _) fun hrecipient => admits_set (hsome _ _) fun howner =>
      admits_set hvalue fun hgrant => ?_
    simp only [Order.footprint, List.mem_cons, List.not_mem_nil, or_false] at hslot
    exact absurd hslot (by simp [hrecipient, howner, hgrant])
  | burn amount =>
    obtain ⟨debited, hdebit, hretire⟩ := parts_of_burn h
    obtain ⟨-, rfl⟩ := set_of_debit hdebit
    obtain ⟨supply, -, -, rfl⟩ := set_of_retire hretire
    refine admits_set nofun fun hsupply => admits_set (hsome _ _) fun hsender => ?_
    simp only [Order.footprint, List.mem_cons, List.not_mem_nil, or_false] at hslot
    exact absurd hslot (by simp [hsupply, hsender])

@[simp] theorem balanceOf_set_balance (t : Token) (account : String) (value : Option Amount)
    (other : String) :
    (t.set (.balance account) value).balanceOf other =
      if other = account then value.getD .zero else t.balanceOf other := by
  simp only [balanceOf, set, Function.update_apply]
  split <;> rfl

theorem balanceOf_transfer_self (h : t.carryOut sender (.transfer sender amount) = .ok t')
    (account : String) : t'.balanceOf account = t.balanceOf account := by
  obtain ⟨debited, hdebit, hcredit⟩ := parts_of_transfer h
  obtain ⟨hfunds, rfl⟩ := set_of_debit hdebit
  obtain ⟨total, htotal, rfl⟩ := set_of_credit hcredit
  rw [balanceOf_set_balance, if_pos rfl] at htotal
  by_cases haccount : account = sender
  · rw [haccount, balanceOf_set_balance, if_pos rfl]
    apply Amount.ext_val
    simp only [Option.getD_some, Amount.val_less] at htotal ⊢
    omega
  · rw [balanceOf_set_balance, if_neg haccount, balanceOf_set_balance, if_neg haccount]

/-! ## Allowances -/

theorem allowanceOf_allow (t : Token) (owner spender : String) (amount : Amount)
    (owner' spender' : String) :
    (t.allow owner spender amount).allowanceOf owner' spender' =
      if owner' = owner ∧ spender' = spender then amount else t.allowanceOf owner' spender' := by
  have hget : (t.allow owner spender amount).allowance owner' spender' =
      (t.allow owner spender amount).get (.allowance owner' spender') := rfl
  have hslot : (Slot.allowance owner' spender' = .allowance owner spender) ↔
      (owner' = owner ∧ spender' = spender) := by simp
  rw [allowanceOf, hget, allow, get_set]
  by_cases h : owner' = owner ∧ spender' = spender
  · rw [if_pos (hslot.2 h), if_pos h]
    split
    · next hzero => rw [hzero, Option.getD_none]
    · rfl
  · rw [if_neg (mt hslot.1 h), if_neg h]
    rfl

theorem allowanceOf_debit {account : String} (h : t.debit account amount = .ok t') :
    t'.allowanceOf = t.allowanceOf := by
  obtain ⟨-, rfl⟩ := set_of_debit h
  rfl

theorem allowanceOf_credit {account : String} (h : t.credit account amount = .ok t') :
    t'.allowanceOf = t.allowanceOf := by
  obtain ⟨sum, -, rfl⟩ := set_of_credit h
  rfl

theorem allowanceOf_draw {owner spender : String} (h : t.draw owner spender amount = .ok t')
    (owner' spender' : String) :
    (t'.allowanceOf owner' spender').val +
        (if owner = owner' ∧ spender = spender' then amount.val else 0) =
      (t.allowanceOf owner' spender').val := by
  obtain ⟨hcovered, rfl⟩ := set_of_draw h
  rw [allowanceOf_allow]
  by_cases hpair : owner = owner' ∧ spender = spender'
  · obtain ⟨rfl, rfl⟩ := hpair
    rw [if_pos ⟨rfl, rfl⟩, if_pos ⟨rfl, rfl⟩, Amount.val_less]
    omega
  · have hpair' : ¬ (owner' = owner ∧ spender' = spender) :=
      fun h => hpair ⟨h.1.symm, h.2.symm⟩
    rw [if_neg hpair, if_neg hpair', Nat.add_zero]

end Token

end FungibleLedger
