import FungibleLedger.Proofs.Host.Allowances
import FungibleLedger.Proofs.Ledger.Balances

/-!
# No debit without consent

An account lets go of its tokens by a transfer or a burn, or lets others draw them by an approval.
As long as it has done none of these, no call by anyone lowers its balance
(`Host.balance_le_of_no_consent`). The invariant is that nobody has an allowance to draw from the
account; it is kept although the orders of all others are arbitrary, because only a grant by the
account itself makes one.
-/

namespace FungibleLedger

/-- Whether an order lets go of tokens of its sender, or lets another account draw them. -/
def Order.IsConsent : Order → Prop
  | .transfer _ _ => True
  | .approve _ _ => True
  | .transferFrom _ _ _ => False
  | .burn _ => True

/-- Whether nobody may draw from an account. -/
def Token.Ungranted (account : String) (t : Token) : Prop :=
  ∀ spender, t.allowanceOf account spender = .zero

variable {account : String}

/-! ## One order -/

theorem Order.isConsent_of_grant {spender sender : String} {order : Order} {amount : Amount}
    (h : order.grant? account spender sender = some amount) :
    sender = account ∧ order.IsConsent := by
  cases order with
  | approve grantee granted =>
    rw [grant?] at h
    split at h
    · next hpair => exact ⟨hpair.1, trivial⟩
    · cases h
  | _ => cases h

namespace Token

variable {t t' : Token} {sender : String} {order : Order}

theorem Ungranted.carryOut (ht : t.Ungranted account)
    (h : t.carryOut sender order = .ok t')
    (hconsent : sender = account → ¬ order.IsConsent) : t'.Ungranted account := by
  intro spender
  have hafter := allowanceOf_carryOut account spender h
  cases hgrant : order.grant? account spender sender with
  | some amount =>
    obtain ⟨hsender, hown⟩ := Order.isConsent_of_grant hgrant
    exact absurd hown (hconsent hsender)
  | none =>
    rw [hgrant] at hafter
    dsimp only at hafter
    rw [ht spender, Amount.val_zero] at hafter
    apply Amount.ext_val
    rw [Amount.val_zero]
    omega

/-- Nothing is taken from an account that has neither given the order nor granted anything. -/
theorem Ungranted.spent_eq_zero (ht : t.Ungranted account)
    (h : t.carryOut sender order = .ok t')
    (hconsent : sender = account → ¬ order.IsConsent) : order.spent account sender = 0 := by
  have hsender : order.IsConsent → account ≠ sender := fun hown hsame =>
    hconsent hsame.symm hown
  cases order with
  | transfer recipient amount => exact if_neg (hsender trivial)
  | approve spender amount => rfl
  | transferFrom owner recipient amount =>
    have hdrawn := spent_le_allowanceOf h account
    rw [ht sender] at hdrawn
    exact Nat.le_zero.1 hdrawn
  | burn amount => exact if_neg (hsender trivial)

end Token

/-! ## Runs -/

namespace Host

variable {h h' : Host}

theorem Step.ungranted {applied : Option (String × Order)} (hstep : Step h applied h')
    (hsound : Ledger.Sound h.store) (hgranted : (Token.ofStore h.store).Ungranted account)
    (hconsent : ∀ order, (account, order) ∈ applied.toList → ¬ order.IsConsent) :
    (Token.ofStore h'.store).Ungranted account := by
  cases hstep with
  | idle => exact hgranted
  | started hfresh hrun =>
    intro spender
    rw [allowanceOf_started account spender hrun]
    exact hgranted spender
  | applied hrun =>
    obtain ⟨token, htoken, -, rfl⟩ := token_of_run hsound.readable hrun
    refine hgranted.carryOut htoken ?_
    rintro rfl
    exact hconsent _ (List.mem_singleton.2 rfl)

theorem Step.balance_le {applied : Option (String × Order)} (hstep : Step h applied h')
    (hsound : Ledger.Sound h.store) (hgranted : (Token.ofStore h.store).Ungranted account)
    (hconsent : ∀ order, (account, order) ∈ applied.toList → ¬ order.IsConsent) :
    (Token.ofStore h.store).balanceOf account ≤ (Token.ofStore h'.store).balanceOf account := by
  cases hstep with
  | idle => exact Nat.le_refl _
  | started hfresh hrun =>
    -- a genesis may overwrite a balance, but there is none yet that is not zero
    have hsupply := hsound.started.1 (get?_metadataPlace_of_fresh hfresh)
    rw [hsound.balance_eq_zero hsupply account]
    exact Nat.zero_le _
  | @applied sender order response store hrun =>
    obtain ⟨token, htoken, -, rfl⟩ := token_of_run hsound.readable hrun
    have hspent : order.spent account sender = 0 := by
      refine hgranted.spent_eq_zero htoken ?_
      rintro rfl
      exact hconsent _ (List.mem_singleton.2 rfl)
    have hbalance := Token.balanceOf_carryOut htoken account
    show ((Token.ofStore h.store).balanceOf account).val ≤
      ((Token.ofStore store).balanceOf account).val
    omega

/-- Before an account consents to anything, nobody may draw from it. -/
theorem ungranted_afterAll (hempty : ∀ key, h.store.get? key = none) (calls : List Call)
    (hconsent : ∀ order, (account, order) ∈ h.applied calls → ¬ order.IsConsent) :
    (Token.ofStore (h.afterAll calls).store).Ungranted account := by
  have hstart : (Token.ofStore h.store).Ungranted account := by
    intro spender
    rw [Token.allowanceOf_ofStore, Ledger.amount?_of_empty hempty, Option.getD_none]
  have hrun := afterAll_induction
    (P := fun history h => Ledger.Sound h.store ∧
      ((∀ order, (account, order) ∈ history → ¬ order.IsConsent) →
        (Token.ofStore h.store).Ungranted account))
    ⟨Ledger.sound_of_empty hempty, fun _ => hstart⟩ ?_ calls
  · exact hrun.2 hconsent
  · rintro history h applied h' ⟨hsound, hgranted⟩ hstep
    refine ⟨hstep.sound hsound, fun hall => ?_⟩
    refine hstep.ungranted hsound (hgranted fun order hmem => ?_) fun order hmem => ?_
    · exact hall order (List.mem_append_left _ hmem)
    · exact hall order (List.mem_append_right _ hmem)

/-- In every run from an empty store, the balance of an account that is never the sender of a
successful transfer, burn or approval is at every step at least what it was before, whatever the
others do. -/
theorem balance_le_of_no_consent (h : Host) (hempty : ∀ key, h.store.get? key = none)
    (account : String) (calls : List Call)
    (hconsent : ∀ order, (account, order) ∈ h.applied calls → ¬ order.IsConsent)
    (before : List Call) (call : Call) (later : List Call)
    (hcalls : calls = before ++ call :: later) :
    ∃ balance balance' : Amount,
      Ledger.balanceAt (h.afterAll before).store account = .ok balance ∧
      Ledger.balanceAt (h.afterAll (before ++ [call])).store account = .ok balance' ∧
      balance ≤ balance' := by
  have happlied : h.applied calls = h.applied before ++ (((h.afterAll before).applied? call).toList
      ++ ((h.afterAll before).after call).applied later) := by
    rw [hcalls, applied_append]
    rfl
  rw [happlied] at hconsent
  have hsound := sound_afterAll hempty before
  have hsound' := sound_afterAll hempty (before ++ [call])
  have hgranted := ungranted_afterAll hempty before fun order hmem =>
    hconsent order (List.mem_append_left _ hmem)
  refine ⟨_, _, Ledger.balanceAt_eq hsound.readable account,
    Ledger.balanceAt_eq hsound'.readable account, ?_⟩
  rw [afterAll_concat]
  refine (step_after _ call).balance_le hsound hgranted fun order hmem => ?_
  exact hconsent order (List.mem_append_right _ (List.mem_append_left _ hmem))

/-- A run in which an account draws from another that allows it, while a third one tries to draw
from it, the ledger is to be started again, and the account fails to burn what it has not. -/
theorem balance_le_of_no_consent_drawing :
    let host : Host := ⟨⟨.simple, ⟨3, 30, 3, 6⟩⟩, .memory .empty, none, .none⟩
    let genesis : Genesis := ⟨.whole "Token", .whole "TOK", 2,
      [⟨.whole "alice", ⟨50, by decide⟩⟩, ⟨.whole "bob", ⟨30, by decide⟩⟩]⟩
    let before : List Call :=
      [.instantiate "alice" (.typed genesis),
        .execute "bob" (.typed (.approve "alice" ⟨20, by decide⟩)),
        .execute "carol" (.typed (.transferFrom "alice" "carol" ⟨5, by decide⟩)),
        .execute "carol" (.typed (.transferFrom "alice" "carol" .zero)),
        .instantiate "carol" (.typed genesis),
        .execute "alice" (.typed (.burn ⟨60, by decide⟩))]
    let call : Call := .execute "alice" (.typed (.transferFrom "bob" "alice" ⟨15, by decide⟩))
    let calls := before ++ [call]
    (∀ key, host.store.get? key = none) ∧
      (∀ order, ("alice", order) ∈ host.applied calls → ¬ order.IsConsent) ∧
      (host.applied calls).length = 3 ∧
      Ledger.balanceAt (host.afterAll before).store "alice" = .ok ⟨50, by decide⟩ ∧
      Ledger.balanceAt (host.afterAll calls).store "alice" = .ok ⟨65, by decide⟩ ∧
      ∃ balance balance' : Amount,
        Ledger.balanceAt (host.afterAll before).store "alice" = .ok balance ∧
        Ledger.balanceAt (host.afterAll calls).store "alice" = .ok balance' ∧
        balance ≤ balance' := by
  intro host genesis before call calls
  have hempty : ∀ key, host.store.get? key = none := fun _ => rfl
  have happlied : host.applied calls =
      [("bob", .approve "alice" ⟨20, by decide⟩),
        ("carol", .transferFrom "alice" "carol" .zero),
        ("alice", .transferFrom "bob" "alice" ⟨15, by decide⟩)] := by decide +kernel
  have hconsent : ∀ order, ("alice", order) ∈ host.applied calls → ¬ order.IsConsent := by
    intro order hmem
    rw [happlied] at hmem
    simp only [List.mem_cons, Prod.mk.injEq, List.not_mem_nil, or_false] at hmem
    rcases hmem with ⟨hname, -⟩ | ⟨hname, -⟩ | ⟨-, rfl⟩
    · exact absurd hname (by decide)
    · exact absurd hname (by decide)
    · exact not_false
  refine ⟨hempty, hconsent, by rw [happlied]; rfl, by decide +kernel, by decide +kernel, ?_⟩
  exact balance_le_of_no_consent host hempty "alice" calls hconsent before call [] rfl

end Host

end FungibleLedger
