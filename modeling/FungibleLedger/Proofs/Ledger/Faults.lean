import FungibleLedger.Proofs.Ledger.Conservation

/-!
# Failures that tell of a broken token

Some failures turn a call down, and others tell of numbers that cannot be right: a sum out of range,
a supply below what is burned, a record of the wrong width. A token whose total is its supply never
ends with one of these (`Token.harmless_carryOut`), except that nobody can burn nothing of a supply
that is not recorded (`Token.carryOut_burn_zero`).

The balance to credit is bounded by what the debit left of the total, and the balance that covers a
burn by the supply: both are instances of `Token.balanceOf_le_total`. `Harmless` is closed under the
steps of a computation, so orders are read off piece by piece.
-/

namespace FungibleLedger

/-- Whether a failure tells of stored state or arithmetic gone wrong, and not of a call that is
turned down. -/
def Failure.isFatal : Failure → Bool
  | .overflow _ | .violation _ | .outOfRange _ | .undecodableKey _ => true
  | _ => false

theorem Failure.isFatal_of_isEarly {e : Failure} (h : e.isEarly = true) : e.isFatal = false := by
  cases e with
  | unreadable e => rfl
  | invalidAddress e => rfl
  | unencodable halves => rfl
  | noView fault => rfl
  | _ => cases h

/-- A computation ends well, or with a failure that is not fatal. -/
def Harmless {α : Type} (x : Except Failure α) : Prop :=
  ∀ e, x = .error e → e.isFatal = false

section

variable {α β : Type} {x : Except Failure α}

theorem harmless_ok (a : α) : Harmless (.ok a) := nofun

theorem harmless_error {e : Failure} (h : e.isFatal = false) :
    Harmless (.error e : Except Failure α) := by
  rintro _ ⟨rfl⟩
  exact h

theorem Harmless.bind {f : α → Except Failure β} (hx : Harmless x)
    (hf : ∀ a, x = .ok a → Harmless (f a)) : Harmless (x >>= f) := by
  cases x with
  | error e => exact harmless_error (hx e rfl)
  | ok a => exact hf a rfl

end

namespace Token

variable {t : Token} {sender : String} {amount : Amount}

/-! ## Parts of orders -/

theorem harmless_debit (t : Token) (account : String) (amount : Amount) :
    Harmless (t.debit account amount) := by
  unfold debit
  split
  · exact harmless_error rfl
  · exact harmless_ok _

theorem harmless_draw (t : Token) (owner spender : String) (amount : Amount) :
    Harmless (t.draw owner spender amount) := by
  unfold draw
  dsimp only
  split
  · exact harmless_error rfl
  · exact harmless_ok _

theorem harmless_credit (hfinite : t.Finite) (hbound : t.total + amount.val < Amount.bound)
    (account : String) : Harmless (t.credit account amount) := by
  have hle := balanceOf_le_total hfinite account
  have hsum : (t.balanceOf account).val + amount.val < Amount.bound := by omega
  rw [credit, Amount.plus, dif_pos hsum]
  exact harmless_ok _

theorem harmless_move (hfinite : t.Finite) (hbound : t.total < Amount.bound)
    (recipient : String) : Harmless (t.move sender recipient amount) := by
  refine (harmless_debit t sender amount).bind fun debited hdebit => ?_
  obtain ⟨hdebited, htotal, -⟩ := debit_total hfinite hdebit
  exact harmless_credit hdebited (by omega) recipient

theorem harmless_retire {supply : Amount} (hsupply : t.supply = some supply)
    (hcovered : amount.val ≤ supply.val) : Harmless (t.retire amount) := by
  have hnot : ¬ supply < amount := Nat.not_lt.2 hcovered
  rw [retire, hsupply]
  dsimp only
  rw [if_neg hnot]
  exact harmless_ok _

/-! ## Orders -/

theorem harmless_carryOut (hfinite : t.Finite) (hconserved : t.total = t.supplyOf.val)
    {order : Order} (hnothing : t.supply = none → order ≠ .burn .zero) :
    Harmless (t.carryOut sender order) := by
  have hbound : t.total < Amount.bound := by
    rw [hconserved]
    exact t.supplyOf.val_lt
  cases order with
  | transfer recipient amount => exact harmless_move hfinite hbound recipient
  | approve spender amount => exact harmless_ok _
  | transferFrom owner recipient amount =>
    refine (harmless_draw t owner sender amount).bind fun drawn hdraw => ?_
    obtain ⟨hdrawn, htotal, -⟩ := draw_total hfinite hdraw
    exact harmless_move hdrawn (by omega) recipient
  | burn amount =>
    refine (harmless_debit t sender amount).bind fun debited hdebit => ?_
    obtain ⟨hfunds, -⟩ := set_of_debit hdebit
    obtain ⟨-, -, hsame⟩ := debit_total hfinite hdebit
    have hle := balanceOf_le_total hfinite sender
    cases hsupply : t.supply with
    | none =>
      -- without a supply there is nothing to burn but nothing
      refine absurd ?_ (hnothing hsupply)
      rw [hconserved, supplyOf, hsupply, Option.getD_none, Amount.val_zero] at hle
      have hzero : amount = .zero := Amount.ext_val (Nat.le_zero.1 (hfunds.trans hle))
      rw [hzero]
    | some supply =>
      rw [hconserved, supplyOf, hsupply, Option.getD_some] at hle
      exact harmless_retire (hsame.trans hsupply) (hfunds.trans hle)

theorem carryOut_burn_zero (hsupply : t.supply = none) :
    t.carryOut sender (.burn .zero) = .error (.violation .noSupply) := by
  have hfunds : ¬ t.balanceOf sender < .zero := Nat.not_lt_zero _
  show (t.debit sender .zero >>= fun debited => debited.retire .zero) = _
  rw [debit, if_neg hfunds]
  show Token.retire _ .zero = _
  unfold retire
  rw [show (t.set (.balance sender) _).supply = none from hsupply]

end Token

end FungibleLedger
