import FungibleLedger.Proofs.Ledger.Refinement

/-!
# Orders as postings

An order is a sequence of postings, each of which reads the record of one place, checks it and
writes it: `Ledger.run_carryOut_eq`. A posting succeeds as a whole or leaves the store as it found
it. So an order that fails leaves the postings before the one that failed
(`Posting.split_of_error`). One that succeeds leaves all of them, and if no two of them are at one
place, each settles the record that was there before the order (`Posting.posted_of_ok`).

Nothing is asked of the store: a record may be any bytes, and a posting that meets bytes that are no
amount fails.

* `Slot.held`, `Slot.recorded` : the amount that a record stands for, and the record of an amount.
* `Posting`, `Posting.settle` : a posting, and what it makes of a record.
* `Posting.post` : postings one after the other, up to the first that fails.
* `Order.postings` : the postings of an order.
-/

namespace FungibleLedger

/-! ## Records and amounts -/

namespace Slot

/-- The amount that the record of a place stands for. No record stands for zero, except that a
supply has to be recorded. -/
def held : Slot → Option Bytes → Except Failure Amount
  | _, some raw => Ledger.decodeAmount raw
  | .supply, none => .error (.violation .noSupply)
  | _, none => .ok .zero

/-- Why a required amount cannot be taken out of a place that holds less. -/
def shortage : Slot → (held required : Amount) → Failure
  | .balance _, held, required => .insufficientFunds held required
  | .allowance _ _, held, required => .insufficientAllowance held required
  | .supply, held, required => .violation (.negative ⟨held.val, required.val⟩)

/-- How an amount is recorded at a place: an allowance of nothing by no record. -/
def recorded : Slot → Amount → Option Amount
  | .allowance _ _, amount => if amount = .zero then none else some amount
  | _, amount => some amount

theorem held_recorded (slot : Slot) (amount : Amount) :
    slot.held ((slot.recorded amount).map Amount.toBytes) = .ok amount := by
  cases slot with
  | balance account => exact Ledger.decodeAmount_toBytes amount
  | supply => exact Ledger.decodeAmount_toBytes amount
  | allowance owner spender =>
    by_cases hzero : amount = .zero
    · rw [recorded, if_pos hzero, hzero]
      rfl
    · rw [recorded, if_neg hzero]
      exact Ledger.decodeAmount_toBytes amount

theorem exists_violation_of_held {slot : Slot} {record : Option Bytes} {e : Failure}
    (h : slot.held record = .error e) : ∃ violation, e = .violation violation := by
  cases record with
  | none =>
    cases slot with
    | supply =>
      cases h
      exact ⟨_, rfl⟩
    | balance account => cases h
    | allowance owner spender => cases h
  | some raw =>
    rw [held, Ledger.decodeAmount] at h
    cases hread : Amount.decode raw with
    | error fault =>
      rw [hread] at h
      cases h
      exact ⟨_, rfl⟩
    | ok amount =>
      rw [hread] at h
      cases h

end Slot

/-! ## Postings -/

/-- A step of an order at one place: an amount is taken out of it, put into a balance, or granted
as an allowance. -/
inductive Posting
  | debit (slot : Slot)
  | credit (account : String)
  | grant (owner spender : String)
deriving DecidableEq

namespace Posting

variable {α : Type} {amount : Amount} {answer : α} {s s' : Store}

/-- The place of a posting. -/
def slot : Posting → Slot
  | .debit slot => slot
  | .credit account => .balance account
  | .grant owner spender => .allowance owner spender

/-- What a posting of an amount records at its place, or why it fails, by the record there. -/
def settle (amount : Amount) : Posting → Option Bytes → Except Failure (Option Amount)
  | .debit slot, record =>
    match slot.held record with
    | .error e => .error e
    | .ok held =>
      if held < amount then .error (slot.shortage held amount)
      else .ok (slot.recorded (held.less amount))
  | .credit account, record =>
    match (Slot.balance account).held record with
    | .error e => .error e
    | .ok held =>
      match held.plus amount with
      | .error e => .error (.overflow e)
      | .ok total => .ok (some total)
  | .grant owner spender, _ =>
    if (utf8 owner).length ≤ Namespace.limit then
      .ok ((Slot.allowance owner spender).recorded amount)
    else .error (.noView .tooLong)

section Settle

variable {slot : Slot} {account : String} {record : Option Bytes} {held total : Amount}
  {value : Option Amount}

theorem settle_debit_of_error {e : Failure} (h : slot.held record = .error e) :
    (debit slot).settle amount record = .error e := by
  rw [settle, h]

theorem settle_debit_of_lt (h : slot.held record = .ok held) (hlt : held < amount) :
    (debit slot).settle amount record = .error (slot.shortage held amount) := by
  rw [settle, h]
  exact if_pos hlt

theorem settle_debit_of_not_lt (h : slot.held record = .ok held) (hlt : ¬ held < amount) :
    (debit slot).settle amount record = .ok (slot.recorded (held.less amount)) := by
  rw [settle, h]
  exact if_neg hlt

theorem settle_credit_of_error {e : Failure} (h : (Slot.balance account).held record = .error e) :
    (credit account).settle amount record = .error e := by
  rw [settle, h]

theorem settle_credit_of_overflow {e : SumOverflow}
    (h : (Slot.balance account).held record = .ok held) (hsum : held.plus amount = .error e) :
    (credit account).settle amount record = .error (.overflow e) := by
  rw [settle, h]
  dsimp only
  rw [hsum]

theorem settle_credit_of_plus (h : (Slot.balance account).held record = .ok held)
    (hsum : held.plus amount = .ok total) :
    (credit account).settle amount record = .ok (some total) := by
  rw [settle, h]
  dsimp only
  rw [hsum]

theorem settle_debit_eq_ok_iff :
    (debit slot).settle amount record = .ok value ↔ ∃ held, slot.held record = .ok held ∧
      ¬ held < amount ∧ value = slot.recorded (held.less amount) := by
  constructor
  · intro h
    cases hheld : slot.held record with
    | error e =>
      rw [settle_debit_of_error hheld] at h
      cases h
    | ok held =>
      by_cases hlt : held < amount
      · rw [settle_debit_of_lt hheld hlt] at h
        cases h
      · rw [settle_debit_of_not_lt hheld hlt] at h
        cases h
        exact ⟨held, rfl, hlt, rfl⟩
  · rintro ⟨held, hheld, hlt, rfl⟩
    exact settle_debit_of_not_lt hheld hlt

theorem settle_credit_eq_ok_iff :
    (credit account).settle amount record = .ok value ↔
      ∃ held total, (Slot.balance account).held record = .ok held ∧
        held.plus amount = .ok total ∧ value = some total := by
  constructor
  · intro h
    cases hheld : (Slot.balance account).held record with
    | error e =>
      rw [settle_credit_of_error hheld] at h
      cases h
    | ok held =>
      cases hsum : held.plus amount with
      | error e =>
        rw [settle_credit_of_overflow hheld hsum] at h
        cases h
      | ok total =>
        rw [settle_credit_of_plus hheld hsum] at h
        cases h
        exact ⟨held, total, rfl, hsum, rfl⟩
  · rintro ⟨held, total, hheld, hsum, rfl⟩
    exact settle_credit_of_plus hheld hsum

/-- The ways in which a posting fails. -/
theorem settle_error_cases {posting : Posting} {e : Failure}
    (h : posting.settle amount record = .error e) :
    (∃ violation, e = .violation violation) ∨ (∃ fault, e = .overflow fault) ∨
      (∃ fault, e = .noView fault) ∨
      ∃ slot held, posting = .debit slot ∧ e = slot.shortage held amount := by
  cases posting with
  | debit slot =>
    cases hheld : slot.held record with
    | error e' =>
      rw [settle_debit_of_error hheld] at h
      cases h
      exact .inl (Slot.exists_violation_of_held hheld)
    | ok held =>
      by_cases hlt : held < amount
      · rw [settle_debit_of_lt hheld hlt] at h
        cases h
        exact .inr (.inr (.inr ⟨slot, held, rfl, rfl⟩))
      · rw [settle_debit_of_not_lt hheld hlt] at h
        cases h
  | credit account =>
    cases hheld : (Slot.balance account).held record with
    | error e' =>
      rw [settle_credit_of_error hheld] at h
      cases h
      exact .inl (Slot.exists_violation_of_held hheld)
    | ok held =>
      cases hsum : held.plus amount with
      | error fault =>
        rw [settle_credit_of_overflow hheld hsum] at h
        cases h
        exact .inr (.inl ⟨fault, rfl⟩)
      | ok total =>
        rw [settle_credit_of_plus hheld hsum] at h
        cases h
  | grant owner spender =>
    rw [settle] at h
    split at h
    · cases h
    · cases h
      exact .inr (.inr (.inl ⟨_, rfl⟩))

/-- Only a balance that is too low lacks funds. -/
theorem eq_debit_of_insufficientFunds {posting : Posting} {balance required : Amount}
    (h : posting.settle amount record = .error (.insufficientFunds balance required)) :
    ∃ account, posting = .debit (.balance account) := by
  obtain ⟨_, heq⟩ | ⟨_, heq⟩ | ⟨_, heq⟩ | ⟨slot, held, rfl, heq⟩ := settle_error_cases h
  · cases heq
  · cases heq
  · cases heq
  · cases slot with
    | balance account => exact ⟨account, rfl⟩
    | allowance owner spender => cases heq
    | supply => cases heq

/-- Only an allowance that is too low is insufficient as one. -/
theorem eq_debit_of_insufficientAllowance {posting : Posting} {allowance required : Amount}
    (h : posting.settle amount record = .error (.insufficientAllowance allowance required)) :
    ∃ owner spender, posting = .debit (.allowance owner spender) := by
  obtain ⟨_, heq⟩ | ⟨_, heq⟩ | ⟨_, heq⟩ | ⟨slot, held, rfl, heq⟩ := settle_error_cases h
  · cases heq
  · cases heq
  · cases heq
  · cases slot with
    | balance account => cases heq
    | allowance owner spender => exact ⟨owner, spender, rfl⟩
    | supply => cases heq

theorem settle_ne_invalidAddress (posting : Posting) (fault : InvalidAddress) :
    posting.settle amount record ≠ .error (.invalidAddress fault) := by
  intro h
  obtain ⟨_, heq⟩ | ⟨_, heq⟩ | ⟨_, heq⟩ | ⟨slot, held, rfl, heq⟩ := settle_error_cases h
  · cases heq
  · cases heq
  · cases heq
  · cases slot with
    | balance account => cases heq
    | allowance owner spender => cases heq
    | supply => cases heq

end Settle

/-- Postings of an amount one after the other, up to the first that fails, and an answer after the
last. -/
def post (amount : Amount) (answer : α) : List Posting → Store → EStateM.Result Failure Store α
  | [], s => .ok answer s
  | posting :: rest, s =>
    match posting.settle amount (s.get? posting.slot.key) with
    | .error e => .error e s
    | .ok value => post amount answer rest (s.setAmount posting.slot value)

theorem post_cons_of_ok {posting : Posting} {value : Option Amount}
    (h : posting.settle amount (s.get? posting.slot.key) = .ok value) (rest : List Posting) :
    post amount answer (posting :: rest) s =
      post amount answer rest (s.setAmount posting.slot value) := by
  rw [post, h]

theorem post_cons_of_error {posting : Posting} {e : Failure}
    (h : posting.settle amount (s.get? posting.slot.key) = .error e) (rest : List Posting) :
    post amount answer (posting :: rest) s = .error e s := by
  rw [post, h]

theorem answer_of_ok {postings : List Posting} {a : α}
    (h : post amount answer postings s = .ok a s') : a = answer := by
  induction postings generalizing s with
  | nil =>
    cases h
    rfl
  | cons posting rest ih =>
    cases hposting : posting.settle amount (s.get? posting.slot.key) with
    | error e =>
      rw [post_cons_of_error hposting] at h
      cases h
    | ok value =>
      rw [post_cons_of_ok hposting] at h
      exact ih h

/-- Where postings fail, those before the one that fails have been made. -/
theorem split_of_error {postings : List Posting} {e : Failure}
    (h : post amount answer postings s = .error e s') :
    ∃ before posting rest, postings = before ++ posting :: rest ∧
      post amount answer before s = .ok answer s' ∧
      posting.settle amount (s'.get? posting.slot.key) = .error e := by
  induction postings generalizing s with
  | nil => cases h
  | cons first rest ih =>
    cases hfirst : first.settle amount (s.get? first.slot.key) with
    | error e' =>
      rw [post_cons_of_error hfirst] at h
      cases h
      exact ⟨[], first, rest, rfl, rfl, hfirst⟩
    | ok value =>
      rw [post_cons_of_ok hfirst] at h
      obtain ⟨before, posting, rest', rfl, hbefore, hposting⟩ := ih h
      exact ⟨first :: before, posting, rest', rfl, by rwa [post_cons_of_ok hfirst], hposting⟩

/-! ## Postings at different places -/

/-- No two postings are at one place. -/
def Apart (postings : List Posting) : Prop :=
  (postings.map fun posting => posting.slot.key).Nodup

/-- What postings leave: at the place of each the record that it settles on, and elsewhere what was
there before. -/
structure Posted (amount : Amount) (postings : List Posting) (s s' : Store) : Prop where
  settled : ∀ posting ∈ postings, ∃ value,
    posting.settle amount (s.get? posting.slot.key) = .ok value ∧
      s'.get? posting.slot.key = value.map Amount.toBytes
  kept : ∀ key, (∀ posting ∈ postings, key ≠ posting.slot.key) → s'.get? key = s.get? key

theorem Apart.ne {posting other : Posting} {rest : List Posting} (h : Apart (posting :: rest))
    (hother : other ∈ rest) : posting.slot.key ≠ other.slot.key := by
  intro heq
  exact (List.nodup_cons.1 h).1 (List.mem_map.2 ⟨other, hother, heq.symm⟩)

theorem Apart.tail {posting : Posting} {rest : List Posting} (h : Apart (posting :: rest)) :
    Apart rest :=
  (List.nodup_cons.1 h).2

theorem Apart.sublist {postings more : List Posting} (h : Apart more)
    (hsublist : postings.Sublist more) : Apart postings :=
  List.Nodup.sublist (hsublist.map _) h

theorem Posted.cons {posting : Posting} {rest : List Posting} (hapart : Apart (posting :: rest))
    {value : Option Amount} (hfirst : posting.settle amount (s.get? posting.slot.key) = .ok value)
    (h : Posted amount rest (s.setAmount posting.slot value) s') :
    Posted amount (posting :: rest) s s' := by
  constructor
  · intro other hother
    rcases List.mem_cons.1 hother with rfl | hother
    · refine ⟨value, hfirst, ?_⟩
      rw [h.kept _ fun other hother => hapart.ne hother, Store.get?_setAmount, if_pos rfl]
    · obtain ⟨value', hsettle, hvalue⟩ := h.settled other hother
      rw [Store.get?_setAmount, if_neg (hapart.ne hother).symm] at hsettle
      exact ⟨value', hsettle, hvalue⟩
  · intro key hkey
    rw [h.kept key fun other hother => hkey other (List.mem_cons_of_mem _ hother),
      Store.get?_setAmount, if_neg (hkey posting List.mem_cons_self)]

theorem posted_of_ok {postings : List Posting} (hapart : Apart postings) {a : α}
    (h : post amount answer postings s = .ok a s') : Posted amount postings s s' := by
  induction postings generalizing s with
  | nil =>
    cases h
    exact ⟨nofun, fun _ _ => rfl⟩
  | cons posting rest ih =>
    cases hfirst : posting.settle amount (s.get? posting.slot.key) with
    | error e =>
      rw [post_cons_of_error hfirst] at h
      cases h
    | ok value =>
      rw [post_cons_of_ok hfirst] at h
      exact (ih hapart.tail h).cons hapart hfirst

/-- Only the records of the stores matter to what postings leave. -/
theorem Posted.congr {t t' : Store} {postings : List Posting} (hs : ∀ key, s.get? key = t.get? key)
    (hs' : ∀ key, s'.get? key = t'.get? key) (h : Posted amount postings s s') :
    Posted amount postings t t' := by
  constructor
  · intro posting hposting
    obtain ⟨value, hsettle, hvalue⟩ := h.settled posting hposting
    rw [hs] at hsettle
    rw [hs'] at hvalue
    exact ⟨value, hsettle, hvalue⟩
  · intro key hkey
    rw [← hs', ← hs, h.kept key hkey]

/-- Whether each of some postings would succeed alone on the records of a store. -/
def Settles (amount : Amount) (postings : List Posting) (s : Store) : Prop :=
  ∀ posting ∈ postings, ∃ value, posting.settle amount (s.get? posting.slot.key) = .ok value

theorem Settles.congr {postings : List Posting} (hs : ∀ key, s.get? key = s'.get? key)
    (h : Settles amount postings s) : Settles amount postings s' := by
  intro posting hposting
  rw [← hs]
  exact h posting hposting

theorem Posted.settles {postings : List Posting} (h : Posted amount postings s s') :
    Settles amount postings s := by
  intro posting hposting
  obtain ⟨value, hsettle, -⟩ := h.settled posting hposting
  exact ⟨value, hsettle⟩

/-- Postings at different places succeed together if each of them would alone. -/
theorem exists_post_eq_ok {postings : List Posting} (hapart : Apart postings)
    (h : Settles amount postings s) (answer : α) :
    ∃ s', post amount answer postings s = .ok answer s' := by
  induction postings generalizing s with
  | nil => exact ⟨s, rfl⟩
  | cons posting rest ih =>
    obtain ⟨value, hvalue⟩ := h posting List.mem_cons_self
    rw [post_cons_of_ok hvalue]
    refine ih hapart.tail fun other hother => ?_
    rw [Store.get?_setAmount, if_neg (hapart.ne hother).symm]
    exact h other (List.mem_cons_of_mem _ hother)

end Posting

/-! ## The postings of orders -/

/-- The postings of an order of a sender, one after the other. -/
def Order.postings (sender : String) : Order → List Posting
  | .transfer recipient _ => [.debit (.balance sender), .credit recipient]
  | .approve spender _ => [.grant sender spender]
  | .transferFrom owner recipient _ =>
    [.debit (.allowance owner sender), .debit (.balance owner), .credit recipient]
  | .burn _ => [.debit (.balance sender), .debit .supply]

namespace Ledger

open Posting

variable {α : Type} {s : Store} {amount : Amount} {answer : α} {rest : List Posting}
  {next : Action α}

/-! ## Steps -/

theorem amountAt_eq_held {view : View} {key : Bytes} (slot : Slot)
    (hkey : view.path ++ key = slot.key) (hslot : slot ≠ .supply) :
    amountAt s view key = slot.held (s.get? slot.key) := by
  rw [amountAt, View.get?, hkey]
  cases s.get? slot.key with
  | some raw => rfl
  | none =>
    cases slot with
    | supply => exact absurd rfl hslot
    | balance account => rfl
    | allowance owner spender => rfl

theorem run_readBalance_eq (account : String) :
    EStateM.run (readBalance account) s =
      EStateM.run (lift ((Slot.balance account).held (s.get? (Slot.balance account).key))) s := by
  unfold readBalance
  rw [run_bind_of_ok (EStateM.run_get s), balanceAt,
    amountAt_eq_held (.balance account) rfl (by simp)]

theorem allowanceAt_eq_held {owner : String} (howner : (utf8 owner).length ≤ Namespace.limit)
    (spender : String) :
    allowanceAt s owner spender =
      (Slot.allowance owner spender).held (s.get? (Slot.allowance owner spender).key) := by
  rw [allowanceAt, allowanceView_of_le howner]
  exact amountAt_eq_held (.allowance owner spender) (Slot.append_eq_key owner spender) (by simp)

theorem run_readAllowance_eq {owner : String} (howner : (utf8 owner).length ≤ Namespace.limit)
    (spender : String) :
    EStateM.run (readAllowance owner spender) s =
      EStateM.run (lift ((Slot.allowance owner spender).held
        (s.get? (Slot.allowance owner spender).key))) s := by
  unfold readAllowance
  rw [run_bind_of_ok (EStateM.run_get s), allowanceAt_eq_held howner]

/-- How orders take an amount out of a place: read it, compare, and write the difference. -/
theorem run_debit_bind {slot : Slot} {read : Action Amount} {write : Int → Action Unit}
    (hread : EStateM.run read s = EStateM.run (lift (slot.held (s.get? slot.key))) s)
    (hwrite : ∀ a : Amount, EStateM.run (write a.val) s =
      .ok () (s.setAmount slot (slot.recorded a)))
    (hnext : ∀ s', EStateM.run next s' = post amount answer rest s') :
    EStateM.run (read >>= fun held =>
        if held < amount then throw (slot.shortage held amount)
        else write (held.val - amount.val) >>= fun _ => next) s =
      post amount answer (.debit slot :: rest) s := by
  cases hheld : slot.held (s.get? slot.key) with
  | error e =>
    rw [hheld] at hread
    rw [post_cons_of_error (settle_debit_of_error hheld)]
    exact run_bind_of_error hread
  | ok held =>
    rw [hheld] at hread
    rw [run_bind_of_ok (hread.trans (run_lift_ok held))]
    by_cases hfunds : held < amount
    · rw [if_pos hfunds, post_cons_of_error (settle_debit_of_lt hheld hfunds)]
      rfl
    · rw [if_neg hfunds, ← Amount.cast_less hfunds, run_bind_of_ok (hwrite _), hnext,
        post_cons_of_ok (settle_debit_of_not_lt hheld hfunds)]
      rfl

/-- How orders put an amount into a balance: read it, add, and write the sum. -/
theorem run_credit (account : String) :
    EStateM.run (readBalance account >>= fun credited =>
        lift ((checkedAdd credited.val amount.val).mapError .overflow) >>= fun total =>
          writeBalance account total) s =
      post amount () [.credit account] s := by
  have hread := run_readBalance_eq (s := s) account
  cases hheld : (Slot.balance account).held (s.get? (Slot.balance account).key) with
  | error e =>
    rw [hheld] at hread
    rw [post_cons_of_error (settle_credit_of_error hheld)]
    exact run_bind_of_error hread
  | ok held =>
    rw [hheld] at hread
    rw [run_bind_of_ok (hread.trans (run_lift_ok held)), Amount.checkedAdd_val]
    cases hsum : held.plus amount with
    | error e =>
      rw [post_cons_of_error (settle_credit_of_overflow hheld hsum)]
      rfl
    | ok total =>
      rw [post_cons_of_ok (settle_credit_of_plus hheld hsum), Except.map, Except.mapError,
        run_bind_of_ok (run_lift_ok _), run_writeBalance]
      rfl

/-- What is done after postings follows them if they succeed. -/
theorem run_bind_post {x : Action Unit} {postings : List Posting}
    (hx : EStateM.run x s = post amount () postings s)
    (hnext : ∀ s', EStateM.run next s' = post amount answer rest s') :
    EStateM.run (x >>= fun _ => next) s = post amount answer (postings ++ rest) s := by
  rw [EStateM.run_bind, hx]
  clear hx
  induction postings generalizing s with
  | nil => exact hnext s
  | cons posting postings ih =>
    rw [List.cons_append]
    cases hposting : posting.settle amount (s.get? posting.slot.key) with
    | error e => rw [post_cons_of_error hposting, post_cons_of_error hposting]
    | ok value => rw [post_cons_of_ok hposting, post_cons_of_ok hposting, ih]

theorem run_move_eq (sender recipient : String) :
    EStateM.run (move sender recipient amount) s =
      post amount () [.debit (.balance sender), .credit recipient] s :=
  run_debit_bind (run_readBalance_eq sender) (run_writeBalance sender) fun _ =>
    run_credit recipient

theorem run_move_bind (sender recipient : String) :
    EStateM.run (move sender recipient amount >>= fun _ => pure answer) s =
      post amount answer [.debit (.balance sender), .credit recipient] s :=
  run_bind_post (run_move_eq sender recipient) fun _ => rfl

theorem run_grant_bind (owner spender : String) :
    EStateM.run (writeAllowance owner spender amount.val >>= fun _ => pure answer) s =
      post amount answer [.grant owner spender] s := by
  by_cases howner : (utf8 owner).length ≤ Namespace.limit
  · have hsettle : (Posting.grant owner spender).settle amount
        (s.get? (Slot.allowance owner spender).key) =
          .ok ((Slot.allowance owner spender).recorded amount) := if_pos howner
    rw [run_bind_of_ok (run_writeAllowance howner spender amount), post_cons_of_ok hsettle]
    rfl
  · have hsettle : (Posting.grant owner spender).settle amount
        (s.get? (Slot.allowance owner spender).key) = .error (.noView .tooLong) := if_neg howner
    rw [post_cons_of_error hsettle, writeAllowance, allowanceView_of_lt (Nat.lt_of_not_le howner)]
    rfl

/-- How a burn lowers the supply, which has to be recorded. -/
theorem run_retire {answer : Response} :
    EStateM.run (get >>= fun s' =>
      match configView.get? s' supplyKey with
      | none => throw (.violation .noSupply)
      | some raw =>
        lift (decodeAmount raw) >>= fun supply =>
          lift ((checkedSub supply.val amount.val).mapError fun e => .violation (.negative e)) >>=
            fun rest => writeAmount configView supplyKey rest >>= fun _ => pure answer) s =
      post amount answer [.debit .supply] s := by
  rw [run_bind_of_ok (EStateM.run_get s)]
  have hget : configView.get? s supplyKey = s.get? Slot.supply.key := rfl
  rw [hget]
  cases hraw : s.get? Slot.supply.key with
  | none =>
    have hheld : Slot.supply.held (s.get? Slot.supply.key) = .error (.violation .noSupply) := by
      rw [hraw]
      rfl
    rw [post_cons_of_error (settle_debit_of_error hheld)]
    rfl
  | some raw =>
    dsimp only
    have hheld : Slot.supply.held (s.get? Slot.supply.key) = decodeAmount raw := by
      rw [hraw]
      rfl
    cases hsupply : decodeAmount raw with
    | error e =>
      rw [post_cons_of_error (settle_debit_of_error (hheld.trans hsupply))]
      rfl
    | ok supply =>
      rw [run_bind_of_ok (run_lift_ok supply)]
      by_cases hcovered : supply < amount
      · rw [post_cons_of_error (settle_debit_of_lt (hheld.trans hsupply) hcovered),
          Amount.checkedSub_of_lt hcovered]
        rfl
      · have hwrite : EStateM.run (writeAmount configView supplyKey (supply.less amount).val) s =
            .ok () (s.setAmount .supply (some (supply.less amount))) := run_writeAmount rfl _
        rw [post_cons_of_ok (settle_debit_of_not_lt (hheld.trans hsupply) hcovered),
          Amount.checkedSub_val hcovered, Except.mapError, run_bind_of_ok (run_lift_ok _),
          run_bind_of_ok hwrite]
        rfl

/-! ## Orders -/

/-- An order is its postings, over whatever records there are. -/
theorem run_carryOut_eq {sender : String} {order : Order}
    (howner : ∀ owner recipient amount, order = .transferFrom owner recipient amount →
      (utf8 owner).length ≤ Namespace.limit) (s : Store) :
    EStateM.run (carryOut sender order) s =
      post order.amount (order.response sender) (order.postings sender) s := by
  cases order with
  | transfer recipient amount => exact run_move_bind sender recipient
  | approve spender amount => exact run_grant_bind sender spender
  | transferFrom owner recipient amount =>
    have hlength := howner owner recipient amount rfl
    exact run_debit_bind (run_readAllowance_eq hlength sender)
      (run_writeAllowance hlength sender) fun _ => run_move_bind owner recipient
  | burn amount =>
    exact run_debit_bind (run_readBalance_eq sender) (run_writeBalance sender) fun _ => run_retire

/-- A command is the reading of its texts and then the postings of its order. -/
theorem run_execute_eq (l : Ledger) (sender : AnyText) (command : Command) (s : Store) :
    EStateM.run (l.execute sender command) s =
      match l.resolve sender command with
      | .error e => .error e s
      | .ok (account, order) =>
        post order.amount (order.response account) (order.postings account) s := by
  cases hresolve : l.resolve sender command with
  | error e =>
    rw [execute_of_resolve_error hresolve]
    rfl
  | ok resolved =>
    obtain ⟨account, order⟩ := resolved
    rw [execute_of_resolve hresolve]
    refine run_carryOut_eq (fun owner recipient amount horder => ?_) s
    subst horder
    exact length_owner_of_resolve hresolve

/-- Whatever is stored, a command that succeeds is an order, and has the answer of that order. -/
theorem exists_order_of_ok {l : Ledger} {sender : AnyText} {command : Command} {s' : Store}
    {response : Response} (h : EStateM.run (l.execute sender command) s = .ok response s') :
    ∃ account order, l.resolve sender command = .ok (account, order) ∧
      response = order.response account := by
  rw [run_execute_eq] at h
  cases hresolve : l.resolve sender command with
  | error e =>
    rw [hresolve] at h
    cases h
  | ok resolved =>
    rw [hresolve] at h
    exact ⟨resolved.1, resolved.2, rfl, answer_of_ok h⟩

end Ledger

end FungibleLedger
