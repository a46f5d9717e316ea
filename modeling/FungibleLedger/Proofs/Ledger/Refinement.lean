import FungibleLedger.Proofs.Ledger.Orders
import FungibleLedger.Proofs.Ledger.Records

/-!
# Orders do what tokens say

On a store that can be read, every order ends as `Token.carryOut` says: with a store that holds the
token that it gives, or with the failure that it gives. The bytes of records, their keys and the
sequence in which an order writes do not show (`Ledger.realizes_carryOut`).

An order can lack a place to write to: an owner whose name is too long for a namespace grants
nothing, and nothing can be drawn from it (`Order.Fits`). Of the orders that commands give, only an
approval can lack one, for the owner of a delegated transfer is an address and so short enough. So a
command has an order with a place for everything, or fails whatever is stored
(`Ledger.resolve_cases`).
-/

namespace FungibleLedger

/-- Whether there is a place for all that an order of a sender reads or writes. -/
def Order.Fits (sender : String) (order : Order) : Prop :=
  ∀ slot ∈ order.footprint sender, slot.Fits

namespace Order

variable {sender : String}

theorem fits_of_allowances {order : Order}
    (h : ∀ owner spender, .allowance owner spender ∈ order.footprint sender →
      (utf8 owner).length ≤ Namespace.limit) : order.Fits sender := by
  intro slot hslot
  cases slot with
  | balance account => exact trivial
  | allowance owner spender => exact h owner spender hslot
  | supply => exact trivial

theorem fits_transfer (recipient : String) (amount : Amount) :
    (transfer recipient amount).Fits sender :=
  fits_of_allowances fun _ _ hslot => by simp [footprint] at hslot

theorem fits_burn (amount : Amount) : (burn amount).Fits sender :=
  fits_of_allowances fun _ _ hslot => by simp [footprint] at hslot

theorem fits_approve_iff {spender : String} {amount : Amount} :
    (approve spender amount).Fits sender ↔ (utf8 sender).length ≤ Namespace.limit := by
  constructor
  · intro hfits
    exact hfits (.allowance sender spender) List.mem_cons_self
  · intro hsender
    refine fits_of_allowances fun owner spender' hslot => ?_
    simp only [footprint, List.mem_singleton, Slot.allowance.injEq] at hslot
    rw [hslot.1]
    exact hsender

theorem fits_transferFrom_iff {owner recipient : String} {amount : Amount} :
    (transferFrom owner recipient amount).Fits sender ↔
      (utf8 owner).length ≤ Namespace.limit := by
  constructor
  · intro hfits
    exact hfits (.allowance owner sender) List.mem_cons_self
  · intro howner
    refine fits_of_allowances fun owner' spender hslot => ?_
    simp only [footprint, List.mem_cons, List.not_mem_nil, or_false, reduceCtorEq,
      Slot.allowance.injEq] at hslot
    rw [hslot.1]
    exact howner

end Order

namespace Ledger

variable {α : Type} {s : Store}

/-! ## Running steps -/

/-- An action ends as a step of a token does: with the same value and a readable store that holds
the same token, or with the same failure. -/
inductive Realizes : EStateM.Result Failure Store α → Except Failure (α × Token) → Prop
  | ok (a : α) {s : Store} (hs : Readable s) : Realizes (.ok a s) (.ok (a, Token.ofStore s))
  | error (e : Failure) (s : Store) : Realizes (.error e s) (.error e)

theorem run_readBalance (hs : Readable s) (account : String) :
    EStateM.run (readBalance account) s = .ok ((Token.ofStore s).balanceOf account) s := by
  unfold readBalance
  rw [run_bind_of_ok (EStateM.run_get s), balanceAt_eq hs]
  rfl

theorem run_readAllowance (hs : Readable s) {owner : String}
    (howner : (utf8 owner).length ≤ Namespace.limit) (spender : String) :
    EStateM.run (readAllowance owner spender) s =
      .ok ((Token.ofStore s).allowanceOf owner spender) s := by
  unfold readAllowance
  rw [run_bind_of_ok (EStateM.run_get s), allowanceAt_eq hs howner]
  rfl

theorem run_readAllowance_of_lt {owner : String} (howner : Namespace.limit < (utf8 owner).length)
    (spender : String) :
    EStateM.run (readAllowance owner spender) s = .error (.noView .tooLong) s := by
  unfold readAllowance
  rw [run_bind_of_ok (EStateM.run_get s), allowanceAt, allowanceView_of_lt howner]
  rfl

theorem run_writeAmount {view : View} {key : Bytes} {slot : Slot}
    (hkey : view.path ++ key = slot.key) (a : Amount) :
    EStateM.run (writeAmount view key a.val) s = .ok () (s.setAmount slot (some a)) := by
  unfold writeAmount
  rw [Amount.encode_val, Store.setAmount, ← hkey]
  rfl

theorem run_writeBalance (account : String) (a : Amount) :
    EStateM.run (writeBalance account a.val) s =
      .ok () (s.setAmount (.balance account) (some a)) :=
  run_writeAmount rfl a

theorem run_writeAllowance {owner : String} (howner : (utf8 owner).length ≤ Namespace.limit)
    (spender : String) (a : Amount) :
    EStateM.run (writeAllowance owner spender a.val) s =
      .ok () (s.setAmount (.allowance owner spender) (if a = .zero then none else some a)) := by
  have hkey := Slot.append_eq_key owner spender
  unfold writeAllowance
  rw [allowanceView_of_le howner]
  show EStateM.run (if (a.val : Int) = 0 then _ else _) s = _
  by_cases hzero : a = .zero
  · subst hzero
    have hval : (Amount.zero.val : Int) = 0 := rfl
    rw [if_pos hval, if_pos rfl, Store.setAmount, ← hkey]
    rfl
  · have hval : (a.val : Int) ≠ 0 := by
      intro h
      apply hzero
      apply Amount.ext_val
      rw [Amount.val_zero]
      omega
    rw [if_neg hval, if_neg hzero]
    exact run_writeAmount hkey a

theorem run_writeAllowance_of_lt {owner : String} (howner : Namespace.limit < (utf8 owner).length)
    (spender : String) (a : Amount) :
    EStateM.run (writeAllowance owner spender a.val) s = .error (.noView .tooLong) s := by
  unfold writeAllowance
  rw [allowanceView_of_lt howner]
  rfl

/-! ## Orders -/

theorem realizes_move (hs : Readable s) (sender recipient : String) (amount : Amount) :
    Realizes (EStateM.run (move sender recipient amount) s)
      (((Token.ofStore s).move sender recipient amount).map ((), ·)) := by
  unfold move Token.move Token.debit
  rw [run_bind_of_ok (run_readBalance hs sender)]
  by_cases hfunds : (Token.ofStore s).balanceOf sender < amount
  · rw [if_pos hfunds, if_pos hfunds]
    exact .error _ _
  · have hs' := hs.setAmount (.balance sender)
      (some (((Token.ofStore s).balanceOf sender).less amount))
    rw [if_neg hfunds, if_neg hfunds, ← Amount.cast_less hfunds,
      run_bind_of_ok (run_writeBalance sender _), run_bind_of_ok (run_readBalance hs' recipient),
      Token.ofStore_setAmount s (Slot.fits_balance sender)]
    -- the balance to credit is that of the token after the debit, also when it is the sender's
    show Realizes _ (Except.map _ (Token.credit _ recipient amount))
    unfold Token.credit
    rw [Amount.checkedAdd_val]
    cases hsum : Amount.plus _ amount with
    | error e => exact .error _ _
    | ok total =>
      rw [Except.map, Except.mapError, run_bind_of_ok (run_lift_ok _), run_writeBalance,
        ← Token.ofStore_setAmount s (Slot.fits_balance sender)]
      dsimp only [Except.map]
      rw [← Token.ofStore_setAmount _ (Slot.fits_balance recipient)]
      exact .ok () (hs'.setAmount _ _)

/-- An action that is followed by an answer. -/
theorem Realizes.answer {x : Action Unit} {r : Except Failure Token}
    (h : Realizes (EStateM.run x s) (r.map ((), ·))) (a : α) :
    Realizes (EStateM.run (x >>= fun _ => pure a) s) (r.map (a, ·)) := by
  rw [EStateM.run_bind]
  cases r with
  | error e =>
    cases hx : EStateM.run x s with
    | ok u s' => rw [hx] at h; cases h
    | error e' s' =>
      rw [hx] at h
      cases h
      exact .error e s'
  | ok t =>
    cases hx : EStateM.run x s with
    | error e' s' => rw [hx] at h; cases h
    | ok u s' =>
      rw [hx] at h
      cases h with
      | ok _ hs' => exact .ok a hs'

theorem realizes_approve (hs : Readable s) {sender : String}
    (hsender : (utf8 sender).length ≤ Namespace.limit) (spender : String) (amount : Amount) :
    Realizes (EStateM.run (approve sender spender amount) s)
      (((Token.ofStore s).carryOut sender (.approve spender amount)).map
        ((Order.approve spender amount).response sender, ·)) := by
  have hslot : (Slot.allowance sender spender).Fits := hsender
  unfold approve
  rw [run_bind_of_ok (run_writeAllowance hsender spender amount)]
  show Realizes _ (.ok (_, Token.allow _ sender spender amount))
  rw [Token.allow, ← Token.ofStore_setAmount s hslot]
  exact .ok _ (hs.setAmount _ _)

theorem realizes_transferFrom (hs : Readable s) {owner : String}
    (howner : (utf8 owner).length ≤ Namespace.limit) (sender recipient : String)
    (amount : Amount) :
    Realizes (EStateM.run (transferFrom sender owner recipient amount) s)
      (((Token.ofStore s).carryOut sender (.transferFrom owner recipient amount)).map
        ((Order.transferFrom owner recipient amount).response sender, ·)) := by
  have hslot : (Slot.allowance owner sender).Fits := howner
  unfold transferFrom
  rw [run_bind_of_ok (run_readAllowance hs howner sender)]
  show Realizes _ (Except.map _ ((Token.draw _ owner sender amount).bind _))
  unfold Token.draw
  dsimp only
  by_cases hcovered : (Token.ofStore s).allowanceOf owner sender < amount
  · rw [if_pos hcovered, if_pos hcovered]
    exact .error _ _
  · rw [if_neg hcovered, if_neg hcovered, ← Amount.cast_less hcovered,
      run_bind_of_ok (run_writeAllowance howner sender _), Token.allow,
      ← Token.ofStore_setAmount s hslot]
    exact (realizes_move (hs.setAmount _ _) owner recipient amount).answer _

theorem realizes_burn (hs : Readable s) (sender : String) (amount : Amount) :
    Realizes (EStateM.run (burn sender amount) s)
      (((Token.ofStore s).carryOut sender (.burn amount)).map
        ((Order.burn amount).response sender, ·)) := by
  unfold burn Token.carryOut Token.debit
  dsimp only
  rw [run_bind_of_ok (run_readBalance hs sender)]
  by_cases hfunds : (Token.ofStore s).balanceOf sender < amount
  · rw [if_pos hfunds, if_pos hfunds]
    exact .error _ _
  · have hs' := hs.setAmount (.balance sender)
      (some (((Token.ofStore s).balanceOf sender).less amount))
    rw [if_neg hfunds, if_neg hfunds, ← Amount.cast_less hfunds,
      run_bind_of_ok (run_writeBalance sender _), run_bind_of_ok (EStateM.run_get _),
      ← Token.ofStore_setAmount s (Slot.fits_balance sender)]
    -- the supply is that of the store after the debit, whatever it was debited by
    generalize s.setAmount (.balance sender) _ = s' at hs' ⊢
    show Realizes _ (Except.map _ (Token.retire _ amount))
    have hsupply : configView.get? s' supplyKey = (s'.amount? .supply).map Amount.toBytes :=
      hs'.get?_key Slot.fits_supply
    have htoken : (Token.ofStore s').supply = s'.amount? .supply := rfl
    unfold Token.retire
    rw [hsupply, htoken]
    cases s'.amount? .supply with
    | none => exact .error _ _
    | some supply =>
      dsimp only [Option.map_some]
      rw [decodeAmount_toBytes, run_bind_of_ok (run_lift_ok supply)]
      by_cases hcovered : supply < amount
      · rw [if_pos hcovered, Amount.checkedSub_of_lt hcovered]
        exact .error _ _
      · have hwrite : EStateM.run (writeAmount configView supplyKey (supply.less amount).val) s' =
            .ok () (s'.setAmount .supply (some (supply.less amount))) := run_writeAmount rfl _
        rw [if_neg hcovered, Amount.checkedSub_val hcovered, Except.mapError,
          run_bind_of_ok (run_lift_ok _), run_bind_of_ok hwrite,
          ← Token.ofStore_setAmount s' Slot.fits_supply]
        exact .ok _ (hs'.setAmount _ _)

/-- An order realizes what it does to a token. -/
theorem realizes_carryOut (hs : Readable s) {sender : String} {order : Order}
    (hfits : order.Fits sender) :
    Realizes (EStateM.run (carryOut sender order) s)
      (((Token.ofStore s).carryOut sender order).map (order.response sender, ·)) := by
  cases order with
  | transfer recipient amount => exact (realizes_move hs sender recipient amount).answer _
  | approve spender amount =>
    exact realizes_approve hs (Order.fits_approve_iff.1 hfits) spender amount
  | transferFrom owner recipient amount =>
    exact realizes_transferFrom hs (Order.fits_transferFrom_iff.1 hfits) sender recipient amount
  | burn amount => exact realizes_burn hs sender amount

/-- An order without a place for what it grants or draws fails for that reason, whatever is
stored. -/
theorem run_carryOut_of_not_fits {sender : String} {order : Order} (h : ¬ order.Fits sender)
    (s : Store) : EStateM.run (carryOut sender order) s = .error (.noView .tooLong) s := by
  cases order with
  | transfer recipient amount => exact absurd (Order.fits_transfer recipient amount) h
  | approve spender amount =>
    have hlong := Nat.lt_of_not_le (mt Order.fits_approve_iff.2 h)
    exact run_bind_of_error (run_writeAllowance_of_lt hlong spender amount)
  | transferFrom owner recipient amount =>
    have hlong := Nat.lt_of_not_le (mt Order.fits_transferFrom_iff.2 h)
    exact run_bind_of_error (run_readAllowance_of_lt hlong sender)
  | burn amount => exact absurd (Order.fits_burn amount) h

/-! ## Commands -/

variable {l : Ledger} {sender : AnyText} {command : Command} {account : String} {order : Order}

theorem length_owner_of_resolve {owner recipient : String} {amount : Amount}
    (h : l.resolve sender command = .ok (account, .transferFrom owner recipient amount)) :
    (utf8 owner).length ≤ Namespace.limit := by
  obtain ⟨horder, -⟩ := of_resolve h
  rw [eq_of_orderOf horder] at horder
  obtain ⟨owner', howner, horder⟩ := ok_of_bind horder
  obtain ⟨recipient', -, horder⟩ := ok_of_bind horder
  cases horder
  exact length_le_of_addressOf howner

/-- Among the orders that commands give, it is only the name of the sender that may be too long. -/
theorem fits_of_resolve (h : l.resolve sender command = .ok (account, order))
    (hsender : (utf8 account).length ≤ Namespace.limit) : order.Fits account := by
  cases order with
  | transfer recipient amount => exact Order.fits_transfer recipient amount
  | approve spender amount => exact Order.fits_approve_iff.2 hsender
  | transferFrom owner recipient amount =>
    exact Order.fits_transferFrom_iff.2 (length_owner_of_resolve h)
  | burn amount => exact Order.fits_burn amount

/-- Only an approval lacks a place, by a sender whose name is too long. -/
theorem approve_of_not_fits (h : l.resolve sender command = .ok (account, order))
    (hfits : ¬ order.Fits account) :
    Namespace.limit < (utf8 account).length ∧
      ∃ spender amount, order = .approve spender amount := by
  refine ⟨Nat.lt_of_not_le fun hshort => hfits (fits_of_resolve h hshort), ?_⟩
  cases order with
  | transfer recipient amount => exact absurd (Order.fits_transfer recipient amount) hfits
  | approve spender amount => exact ⟨spender, amount, rfl⟩
  | transferFrom owner recipient amount =>
    exact absurd (Order.fits_transferFrom_iff.2 (length_owner_of_resolve h)) hfits
  | burn amount => exact absurd (Order.fits_burn amount) hfits

/-- A command gives an order with a place for all that it reads or writes, or it fails, with a
failure that does not depend on what is stored. -/
theorem resolve_cases (l : Ledger) (sender : AnyText) (command : Command) :
    (∃ account order, l.resolve sender command = .ok (account, order) ∧ order.Fits account) ∨
      ∃ e : Failure, e.isEarly = true ∧
        ∀ s, EStateM.run (l.execute sender command) s = .error e s := by
  cases hresolve : l.resolve sender command with
  | error e =>
    refine .inr ⟨e, isEarly_of_resolve hresolve, fun s => ?_⟩
    rw [execute_of_resolve_error hresolve]
    rfl
  | ok resolved =>
    obtain ⟨account, order⟩ := resolved
    by_cases hfits : order.Fits account
    · exact .inl ⟨account, order, rfl, hfits⟩
    · refine .inr ⟨.noView .tooLong, rfl, fun s => ?_⟩
      rw [execute_of_resolve hresolve, run_carryOut_of_not_fits hfits]

/-- A command that succeeds gave an order with a place for all that it reads or writes. -/
theorem exists_resolve_of_ok {response : Response} {s' : Store}
    (h : EStateM.run (l.execute sender command) s = .ok response s') :
    ∃ account order, l.resolve sender command = .ok (account, order) ∧ order.Fits account ∧
      EStateM.run (carryOut account order) s = .ok response s' := by
  obtain ⟨account, order, hresolve, hfits⟩ | ⟨e, -, hfails⟩ := resolve_cases l sender command
  · rw [execute_of_resolve hresolve] at h
    exact ⟨account, order, hresolve, hfits, h⟩
  · rw [hfails] at h
    cases h

end Ledger

end FungibleLedger
