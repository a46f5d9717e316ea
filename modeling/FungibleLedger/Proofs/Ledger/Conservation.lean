import Mathlib.Algebra.BigOperators.Finprod
import FungibleLedger.Proofs.Ledger.Effects

/-!
# Conservation of a token

The total of a token is the sum of its balances, of which only finitely many are not zero. A debit
lowers it by the amount and a credit raises it by the amount, also when they meet in one account. So
an order changes it exactly as it changes the supply: `Token.carryOut_total`.
-/

namespace FungibleLedger.Token

variable {t t' : Token} {sender : String} {amount : Amount}

/-- Whether only finitely many accounts have a balance that is not zero. -/
def Finite (t : Token) : Prop := {account | t.balanceOf account ≠ .zero}.Finite

/-- The sum of all balances. -/
noncomputable def total (t : Token) : ℕ := ∑ᶠ account, (t.balanceOf account).val

theorem total_eq_sum {accounts : Finset String}
    (h : ∀ account, t.balanceOf account ≠ .zero → account ∈ accounts) :
    t.total = ∑ account ∈ accounts, (t.balanceOf account).val := by
  apply finsum_eq_sum_of_support_subset
  intro account haccount
  apply Finset.mem_coe.2 (h account _)
  intro hzero
  rw [Function.mem_support, hzero] at haccount
  exact haccount rfl

theorem total_eq_zero (h : ∀ account, t.balanceOf account = .zero) : t.total = 0 := by
  have hcover : ∀ account, t.balanceOf account ≠ .zero → account ∈ (∅ : Finset String) :=
    fun account hne => absurd (h account) hne
  rw [total_eq_sum hcover, Finset.sum_empty]

theorem balanceOf_le_total (hfinite : t.Finite) (account : String) :
    (t.balanceOf account).val ≤ t.total := by
  have hcover : ∀ other, t.balanceOf other ≠ .zero → other ∈ insert account hfinite.toFinset :=
    fun other hother => Finset.mem_insert_of_mem (hfinite.mem_toFinset.2 hother)
  rw [total_eq_sum hcover]
  exact Finset.single_le_sum (f := fun other => (t.balanceOf other).val)
    (fun _ _ => Nat.zero_le _) (Finset.mem_insert_self _ _)

theorem eq_zero_of_total (hfinite : t.Finite) (h : t.total = 0) (account : String) :
    t.balanceOf account = .zero := by
  have hle := balanceOf_le_total hfinite account
  apply Amount.ext_val
  rw [Amount.val_zero]
  omega

/-! ## One number at a time -/

theorem Finite.set_balance (h : t.Finite) (account : String) (value : Option Amount) :
    (t.set (.balance account) value).Finite := by
  refine (h.insert account).subset fun other hother => ?_
  by_cases heq : other = account
  · exact Or.inl heq
  · have hsame : (t.set (.balance account) value).balanceOf other = t.balanceOf other := by
      rw [balanceOf_set_balance, if_neg heq]
    exact Or.inr fun hzero => hother (hsame.trans hzero)

theorem total_set_balance (h : t.Finite) (account : String) (value : Amount) :
    (t.set (.balance account) (some value)).total + (t.balanceOf account).val =
      t.total + value.val := by
  have hcover : ∀ other, t.balanceOf other ≠ .zero → other ∈ insert account h.toFinset :=
    fun other hother => Finset.mem_insert_of_mem (h.mem_toFinset.2 hother)
  have hcover' : ∀ other, (t.set (.balance account) (some value)).balanceOf other ≠ .zero →
      other ∈ insert account h.toFinset := by
    intro other hother
    rw [balanceOf_set_balance] at hother
    split at hother
    · next heq => exact heq ▸ Finset.mem_insert_self _ _
    · exact hcover other hother
  have hmem : account ∈ insert account h.toFinset := Finset.mem_insert_self _ _
  rw [total_eq_sum hcover, total_eq_sum hcover', ← Finset.add_sum_erase _ _ hmem,
    ← Finset.add_sum_erase (insert account h.toFinset) (fun a => (t.balanceOf a).val) hmem]
  -- apart from the account itself, the two sums agree
  have hrest : ∀ other ∈ (insert account h.toFinset).erase account,
      ((t.set (.balance account) (some value)).balanceOf other).val =
        (t.balanceOf other).val := by
    intro other hother
    rw [balanceOf_set_balance, if_neg (Finset.ne_of_mem_erase hother)]
  rw [Finset.sum_congr rfl hrest, balanceOf_set_balance, if_pos rfl, Option.getD_some]
  omega

/-! ## Parts of orders -/

theorem debit_total (hfinite : t.Finite) {account : String}
    (h : t.debit account amount = .ok t') :
    t'.Finite ∧ t'.total + amount.val = t.total ∧ t'.supply = t.supply := by
  obtain ⟨hfunds, rfl⟩ := set_of_debit h
  refine ⟨hfinite.set_balance _ _, ?_, rfl⟩
  have htotal := total_set_balance hfinite account ((t.balanceOf account).less amount)
  rw [Amount.val_less] at htotal
  omega

theorem credit_total (hfinite : t.Finite) {account : String}
    (h : t.credit account amount = .ok t') :
    t'.Finite ∧ t'.total = t.total + amount.val ∧ t'.supply = t.supply := by
  obtain ⟨sum, hsum, rfl⟩ := set_of_credit h
  refine ⟨hfinite.set_balance _ _, ?_, rfl⟩
  have htotal := total_set_balance hfinite account sum
  omega

theorem draw_total (hfinite : t.Finite) {owner spender : String}
    (h : t.draw owner spender amount = .ok t') :
    t'.Finite ∧ t'.total = t.total ∧ t'.supply = t.supply := by
  obtain ⟨-, rfl⟩ := set_of_draw h
  exact ⟨hfinite, rfl, rfl⟩

theorem retire_total (hfinite : t.Finite) (h : t.retire amount = .ok t') :
    t'.Finite ∧ t'.total = t.total ∧
      ∃ supply rest, t.supply = some supply ∧ t'.supply = some rest ∧
        rest.val + amount.val = supply.val := by
  obtain ⟨supply, hsupply, hcovered, rfl⟩ := set_of_retire h
  refine ⟨hfinite, rfl, supply, supply.less amount, hsupply, rfl, ?_⟩
  rw [Amount.val_less]
  omega

/-! ## Orders -/

/-- An order changes the total as it changes the supply, and never records the first supply. -/
theorem carryOut_total (hfinite : t.Finite) {order : Order}
    (h : t.carryOut sender order = .ok t') :
    t'.total + t.supplyOf.val = t.total + t'.supplyOf.val ∧
      (t'.supply = none ↔ t.supply = none) := by
  unfold supplyOf
  cases order with
  | transfer recipient amount =>
    obtain ⟨debited, hdebit, hcredit⟩ := parts_of_transfer h
    obtain ⟨hdebited, hless, hsupply⟩ := debit_total hfinite hdebit
    obtain ⟨-, hmore, hsupply'⟩ := credit_total hdebited hcredit
    rw [hsupply', hsupply]
    exact ⟨by omega, Iff.rfl⟩
  | approve spender amount =>
    rw [parts_of_approve h]
    exact ⟨rfl, Iff.rfl⟩
  | transferFrom owner recipient amount =>
    obtain ⟨drawn, debited, hdraw, hdebit, hcredit⟩ := parts_of_transferFrom h
    obtain ⟨hdrawn, hsame, hsupply⟩ := draw_total hfinite hdraw
    obtain ⟨hdebited, hless, hsupply'⟩ := debit_total hdrawn hdebit
    obtain ⟨-, hmore, hsupply''⟩ := credit_total hdebited hcredit
    rw [hsupply'', hsupply', hsupply]
    exact ⟨by omega, Iff.rfl⟩
  | burn amount =>
    obtain ⟨debited, hdebit, hretire⟩ := parts_of_burn h
    obtain ⟨hdebited, hless, hsupply⟩ := debit_total hfinite hdebit
    obtain ⟨-, hsame, supply, rest, hbefore, hafter, hburned⟩ := retire_total hdebited hretire
    rw [hsupply] at hbefore
    rw [hbefore, hafter, Option.getD_some, Option.getD_some]
    exact ⟨by omega, by simp⟩

end FungibleLedger.Token
