import FungibleLedger.Proofs.Ledger.Postings
import FungibleLedger.Proofs.Ledger.Seeding

/-!
# What a failed call leaves

A call writes as it goes, and its writes stay when it fails; whoever makes it has to drop them. This
module says what there is to drop, over whatever records there are.

An order takes before it gives. The last posting of an order is never made when it fails, and all
the others are debits of the places that it spends from (`Order.dropLast_postings`). So a failed
order leaves nothing but some of its debits: value is missing, and none has appeared anywhere. A
command that gives no order leaves nothing at all. A failed genesis leaves balances of its first
rows.

* `Store.Spent` : some records are lower by an amount, and the others are as before.
* `Order.spends` : the places that an order spends from.
* `Order.Residue`, `Command.Residue`, `Genesis.Residue` : what is left, by the failure.
* `Ledger.residue_of_error` : every call that fails leaves that.
-/

namespace FungibleLedger

/-! ## Spending -/

/-- The records of some places are lower by an amount, and all other records are as before. -/
structure Store.Spent (amount : Amount) (slots : List Slot) (s s' : Store) : Prop where
  lowered : ∀ slot ∈ slots, ∃ held rest : Amount, slot.held (s.get? slot.key) = .ok held ∧
    held.val = rest.val + amount.val ∧
    s'.get? slot.key = (slot.recorded rest).map Amount.toBytes
  kept : ∀ key, (∀ slot ∈ slots, key ≠ slot.key) → s'.get? key = s.get? key

namespace Store.Spent

variable {amount : Amount} {slots more : List Slot} {s s' : Store}

theorem nil (s : Store) : Spent amount [] s s := ⟨by simp, fun _ _ => rfl⟩

theorem of_posted (h : Posting.Posted amount (slots.map .debit) s s') :
    Spent amount slots s s' := by
  constructor
  · intro slot hslot
    obtain ⟨value, hsettle, hvalue⟩ := h.settled (.debit slot) (List.mem_map_of_mem hslot)
    obtain ⟨held, hheld, hcovered, rfl⟩ := Posting.settle_debit_eq_ok_iff.1 hsettle
    refine ⟨held, held.less amount, hheld, ?_, hvalue⟩
    rw [Amount.lt_iff] at hcovered
    rw [Amount.val_less]
    omega
  · intro key hkey
    refine h.kept key fun posting hposting => ?_
    obtain ⟨slot, hslot, rfl⟩ := List.mem_map.1 hposting
    exact hkey slot hslot

theorem kept_of_subset (h : Spent amount slots s s') (hsubset : slots ⊆ more) {key : Bytes}
    (hkey : ∀ slot ∈ more, key ≠ slot.key) : s'.get? key = s.get? key :=
  h.kept key fun slot hslot => hkey slot (hsubset hslot)

/-- What was taken out of a balance can be put back into it. -/
theorem exists_settle_credit {account : String} (h : Spent amount slots s s')
    (haccount : .balance account ∈ slots) :
    ∃ value, (Posting.credit account).settle amount (s'.get? (Slot.balance account).key) =
      .ok value := by
  obtain ⟨held, rest, -, hval, hrecord⟩ := h.lowered _ haccount
  have hrest : (Slot.balance account).held (s'.get? (Slot.balance account).key) = .ok rest := by
    rw [hrecord, Slot.held_recorded]
  exact ⟨_, Posting.settle_credit_of_plus hrest (Amount.plus_of_val hval)⟩

end Store.Spent

namespace Order

/-- The account that an order debits. -/
def payer? (sender : String) : Order → Option String
  | .transfer _ _ | .burn _ => some sender
  | .transferFrom owner _ _ => some owner
  | .approve _ _ => none

/-- The account that an order credits. -/
def payee? : Order → Option String
  | .transfer recipient _ | .transferFrom _ recipient _ => some recipient
  | _ => none

/-- The allowance that an order spends from, if it does. -/
def spentAllowance (sender : String) : Order → List Slot
  | .transferFrom owner _ _ => [.allowance owner sender]
  | _ => []

/-- The places that an order spends from, one after the other. -/
def spends (sender : String) (order : Order) : List Slot :=
  order.spentAllowance sender ++ ((order.payer? sender).map Slot.balance).toList

variable {sender : String} {order : Order} {before rest : List Posting} {posting : Posting}
  {spent : List Slot}

theorem mem_spentAllowance {slot : Slot} (h : slot ∈ order.spentAllowance sender) :
    ∃ owner spender, slot = .allowance owner spender := by
  cases order with
  | transferFrom owner recipient amount => exact ⟨owner, sender, List.mem_singleton.1 h⟩
  | _ => cases h

theorem mem_spends {slot : Slot} (h : slot ∈ order.spends sender) :
    (∃ owner spender, slot = .allowance owner spender) ∨
      ∃ account, order.payer? sender = some account ∧ slot = .balance account := by
  rcases List.mem_append.1 h with h | h
  · exact .inl (mem_spentAllowance h)
  · rw [Option.mem_toList, Option.map_eq_some_iff] at h
    obtain ⟨account, haccount, rfl⟩ := h
    exact .inr ⟨account, haccount, rfl⟩

/-- All postings of an order but the last are debits of what it spends from. -/
theorem dropLast_postings (sender : String) (order : Order) :
    (order.postings sender).dropLast = (order.spends sender).map .debit := by
  cases order <;> rfl

theorem apart_spends (sender : String) (order : Order) :
    Posting.Apart ((order.spends sender).map .debit) := by
  cases order with
  | transferFrom owner recipient amount =>
    simp [Posting.Apart, spends, spentAllowance, payer?, Posting.slot,
      Slot.allowance_key_ne_balance]
  | _ => simp [Posting.Apart, spends, spentAllowance, payer?]

/-- The postings before any one of an order are debits of the first places that it spends from. -/
theorem exists_spent_of_split (h : order.postings sender = before ++ posting :: rest) :
    ∃ spent, spent <+: order.spends sender ∧ before = spent.map .debit := by
  rw [← List.prefix_map_iff, ← dropLast_postings, h, List.dropLast_append_cons]
  exact List.prefix_append _ _

/-- The allowance that an order spends comes first. -/
theorem eq_nil_of_split {owner spender : String}
    (h : order.postings sender = before ++ .debit (.allowance owner spender) :: rest) :
    before = [] := by
  rcases before with _ | ⟨first, _ | ⟨second, _ | ⟨third, before⟩⟩⟩
  · rfl
  all_goals cases order <;> simp [postings] at h

/-- The balance that an order debits comes right after the allowance. -/
theorem eq_spentAllowance_of_split {account : String}
    (h : order.postings sender = before ++ .debit (.balance account) :: rest) :
    before = (order.spentAllowance sender).map .debit := by
  rcases before with _ | ⟨first, _ | ⟨second, _ | ⟨third, before⟩⟩⟩
  all_goals cases order <;> simp [postings, spentAllowance] at h ⊢
  exact h.1.symm

theorem spends_of_payer {account : String} (h : order.payer? sender = some account) :
    order.spends sender = order.spentAllowance sender ++ [.balance account] := by
  rw [spends, h]
  rfl

theorem spends_of_no_payer (h : order.payer? sender = none) :
    order.spends sender = order.spentAllowance sender := by
  rw [spends, h]
  exact List.append_nil _

/-- An order that credits an account does so last. -/
theorem postings_of_payee {payee : String} (h : order.payee? = some payee) :
    order.postings sender = (order.spends sender).map .debit ++ [.credit payee] := by
  cases order with
  | transfer recipient amount =>
    cases h
    rfl
  | transferFrom owner recipient amount =>
    cases h
    rfl
  | approve spender amount => cases h
  | burn amount => cases h

end Order

/-! ## What is left of an order -/

/-- What an order that fails leaves in a store. -/
structure Order.Residue (sender : String) (order : Order) (e : Failure) (s s' : Store) :
    Prop where
  /-- At most two records differ: the allowance is lower by the amount, or it and the balance of the
  payer are. -/
  spent : ∃ spent, spent <+: order.spends sender ∧ s.Spent order.amount spent s'
  payee : ∀ payee, order.payee? = some payee → order.payer? sender ≠ some payee →
    s'.get? (Slot.balance payee).key = s.get? (Slot.balance payee).key
  supply : s'.get? Slot.supply.key = s.get? Slot.supply.key
  metadata : s'.get? Ledger.metadataPlace = s.get? Ledger.metadataPlace
  /-- An address that is none, or an allowance that does not cover the amount, leaves nothing. -/
  refused : ((∃ fault, e = .invalidAddress fault) ∨
    ∃ allowance required, e = .insufficientAllowance allowance required) → s' = s
  /-- A lack of funds leaves the spent allowance, if the order spends one, and nothing else. -/
  unfunded : (∃ balance required, e = .insufficientFunds balance required) →
    s.Spent order.amount (order.spentAllowance sender) s' ∧
      (order.spentAllowance sender = [] → s' = s)
  /-- A payment of an account to itself leaves all balances as they were. -/
  toSelf : order.payer? sender = order.payee? → ∀ account,
    s'.get? (Slot.balance account).key = s.get? (Slot.balance account).key

namespace Order.Residue

variable {sender : String} {order : Order} {e : Failure} {s s' : Store}

theorem of_invalidAddress {fault : InvalidAddress} :
    order.Residue sender (.invalidAddress fault) s s where
  spent := ⟨[], List.nil_prefix, .nil s⟩
  payee _ _ _ := rfl
  supply := rfl
  metadata := rfl
  refused _ := rfl
  unfunded := by rintro ⟨_, _, h⟩; cases h
  toSelf _ _ := rfl

/-- If the payer is the payee, or there is neither, what was spent before a failure is no balance:
after the debit nothing is left that could fail. -/
theorem prefix_of_toSelf {rest : List Posting} {posting : Posting} {spent : List Slot}
    (hself : order.payer? sender = order.payee?)
    (hsplit : order.postings sender = spent.map .debit ++ posting :: rest)
    (hinitial : spent <+: order.spends sender) (hspent : s.Spent order.amount spent s')
    (hposting : posting.settle order.amount (s'.get? posting.slot.key) = .error e) :
    spent <+: order.spentAllowance sender := by
  cases hpayer : order.payer? sender with
  | none => rwa [Order.spends_of_no_payer hpayer] at hinitial
  | some account =>
    have hpayee : order.payee? = some account := hself ▸ hpayer
    rw [Order.spends_of_payer hpayer, List.prefix_concat_iff] at hinitial
    rcases hinitial with hall | hinitial
    · -- the posting that failed is the credit of the account that was debited
      rw [Order.postings_of_payee hpayee, Order.spends_of_payer hpayer, ← hall] at hsplit
      have hlast := List.append_cancel_left hsplit
      cases hlast
      have hmem : .balance account ∈ spent := by
        rw [hall]
        exact List.mem_append_right _ List.mem_cons_self
      obtain ⟨value, hvalue⟩ := hspent.exists_settle_credit hmem
      rw [Posting.slot, hvalue] at hposting
      cases hposting
    · exact hinitial

theorem of_post {answer : Response}
    (h : Posting.post order.amount answer (order.postings sender) s = .error e s') :
    order.Residue sender e s s' := by
  obtain ⟨before, posting, rest, hsplit, hbefore, hposting⟩ := Posting.split_of_error h
  obtain ⟨spent, hinitial, rfl⟩ := Order.exists_spent_of_split hsplit
  have hapart : Posting.Apart (spent.map .debit) :=
    (Order.apart_spends sender order).sublist (hinitial.sublist.map _)
  have hspent : s.Spent order.amount spent s' :=
    .of_posted (Posting.posted_of_ok hapart hbefore)
  have hsame : spent = [] → s' = s := by
    rintro rfl
    cases hbefore
    rfl
  constructor
  · exact ⟨spent, hinitial, hspent⟩
  · intro payee _ hpayer
    refine hspent.kept_of_subset hinitial.subset fun slot hslot => ?_
    obtain ⟨owner, spender, rfl⟩ | ⟨account, haccount, rfl⟩ := Order.mem_spends hslot
    · exact (Slot.allowance_key_ne_balance owner spender payee).symm
    · refine Slot.balance_key_ne fun heq => hpayer ?_
      rw [haccount, heq]
  · refine hspent.kept_of_subset hinitial.subset fun slot hslot => Slot.key_ne_of_space ?_
    obtain ⟨owner, spender, rfl⟩ | ⟨account, -, rfl⟩ := Order.mem_spends hslot <;>
      simp [Slot.space]
  · exact hspent.kept_of_subset hinitial.subset fun slot _ => (Slot.key_ne_metadataPlace slot).symm
  · rintro (⟨fault, rfl⟩ | ⟨allowance, required, rfl⟩)
    · exact absurd hposting (Posting.settle_ne_invalidAddress posting fault)
    · obtain ⟨owner, spender, rfl⟩ := Posting.eq_debit_of_insufficientAllowance hposting
      exact hsame (List.map_eq_nil_iff.1 (Order.eq_nil_of_split hsplit))
  · rintro ⟨balance, required, rfl⟩
    obtain ⟨account, rfl⟩ := Posting.eq_debit_of_insufficientFunds hposting
    have hdrawn : spent = order.spentAllowance sender :=
      List.map_injective_iff.2 (fun _ _ => Posting.debit.inj)
        (Order.eq_spentAllowance_of_split hsplit)
    rw [← hdrawn]
    exact ⟨hspent, hsame⟩
  · intro hself account
    have hallowance := prefix_of_toSelf hself hsplit hinitial hspent hposting
    refine hspent.kept_of_subset hallowance.subset fun slot hslot => ?_
    obtain ⟨owner, spender, rfl⟩ := Order.mem_spentAllowance hslot
    exact (Slot.allowance_key_ne_balance owner spender account).symm

end Order.Residue

/-- What a command that fails leaves in a store: what is left of the order that it is. One with a
broken text is no order and leaves nothing. -/
def Command.Residue (sender : AnyText) (command : Command) (e : Failure) (s s' : Store) : Prop :=
  match command.orderBy? sender with
  | none => s' = s
  | some (account, order) => order.Residue account e s s'

/-! ## What is left of a genesis -/

namespace Seed

variable {format : AddressFormat} {before seeds rows : List Seed} {seed : Seed} {account : String}
  {s s' : Store}

/-- The first flaw of seeds is at one of them, with none before it. -/
theorem exists_split_of_flaw {e : Failure} (h : flaw? format before seeds = some e) :
    ∃ rows seed rest, seeds = rows ++ seed :: rest ∧ flaw? format before rows = none ∧
      ((∃ fault, format.validate seed.address = .error fault ∧ e = .invalidAddress fault) ∨
        ∃ account, format.validate seed.address = .ok account ∧
          ¬ total (before ++ rows ++ [seed]) < Amount.bound ∧ ∃ fault, e = .overflow fault) := by
  induction seeds generalizing before with
  | nil => cases h
  | cons seed rest ih =>
    cases haddress : format.validate seed.address with
    | error fault =>
      rw [flaw?, haddress] at h
      cases h
      exact ⟨[], seed, rest, rfl, rfl, .inl ⟨fault, haddress, rfl⟩⟩
    | ok account =>
      rw [flaw?, haddress] at h
      dsimp only at h
      by_cases hbound : total (before ++ [seed]) < Amount.bound
      · rw [if_pos hbound] at h
        obtain ⟨rows, other, rest', rfl, hrows, hflaw⟩ := ih h
        refine ⟨seed :: rows, other, rest', rfl, ?_, ?_⟩
        · rw [flaw?, haddress]
          dsimp only
          rw [if_pos hbound, hrows]
        · rwa [← List.append_cons before seed rows] at hflaw
      · rw [if_neg hbound] at h
        cases h
        refine ⟨[], seed, rest, rfl, rfl, .inr ⟨account, haddress, ?_, _, rfl⟩⟩
        rwa [List.append_nil]

theorem Leave.concat (h : Leave rows s s') (haddress : seed.address = .whole account) :
    Leave (rows ++ [seed]) s (s'.setAmount (.balance account) (some seed.amount)) := by
  constructor
  · intro other hother account' heq
    rw [Store.get?_setAmount, latest_concat]
    by_cases hsame : account' = account
    · subst hsame
      rw [if_pos rfl, if_pos haddress]
      rfl
    · have hne : seed.address ≠ .whole account' := by
        rw [haddress, ne_eq, AnyText.whole.injEq]
        exact Ne.symm hsame
      rcases List.mem_append.1 hother with hother | hother
      · rw [if_neg (Slot.balance_key_ne hsame), if_neg hne, h.written other hother account' heq]
      · rw [List.mem_singleton.1 hother] at heq
        exact absurd heq hne
  · intro key hkey
    have hlast := hkey seed (List.mem_append_right _ List.mem_cons_self) account haddress
    rw [Store.get?_setAmount, if_neg hlast]
    exact h.kept key fun other hother => hkey other (List.mem_append_left _ hother)

/-- First balances are no records of the metadata or of the supply. -/
theorem Leave.config (h : Leave rows s s') {key : Bytes} (hkey : Ledger.configView.path <+: key) :
    s'.get? key = s.get? key := by
  have hconfig : (utf8 "config").length ≤ Namespace.limit := by decide
  have hbalances : (utf8 "balances").length ≤ Namespace.limit := by decide
  obtain ⟨rest, rfl⟩ := hkey
  refine h.kept _ fun seed _ account _ heq => ?_
  have hname := (Namespace.frame_append_inj hconfig hbalances heq).1
  exact absurd (utf8_injective hname) (by decide)

end Seed

namespace Genesis

/-- How a genesis fails, and the rows whose balances were written by then. A row is written before
the total with it is looked at, but not before its address is. -/
inductive Stops (l : Ledger) (g : Genesis) : Failure → List Seed → Prop
  | address {rows rest : List Seed} {seed : Seed} {fault : InvalidAddress}
      (hsplit : g.seeds = rows ++ seed :: rest) (hrows : Seed.flaw? l.addresses [] rows = none)
      (haddress : l.addresses.validate seed.address = .error fault) :
      Stops l g (.invalidAddress fault) rows
  | overflow {rows rest : List Seed} {seed : Seed} {account : String} {fault : SumOverflow}
      (hsplit : g.seeds = rows ++ seed :: rest) (hrows : Seed.flaw? l.addresses [] rows = none)
      (haddress : l.addresses.validate seed.address = .ok account)
      (htotal : ¬ Seed.total (rows ++ [seed]) < Amount.bound) :
      Stops l g (.overflow fault) (rows ++ [seed])
  | metadata {e : Failure} (hrows : Seed.flaw? l.addresses [] g.seeds = none)
      (hmetadata : g.metadataFlaw? l = some e) : Stops l g e g.seeds

/-- What a genesis that fails leaves in a store: balances of its rows up to the one that failed, and
no record of the metadata or of the supply. -/
structure Residue (l : Ledger) (g : Genesis) (e : Failure) (s s' : Store) : Prop where
  rows : ∃ rows, g.Stops l e rows ∧ rows <+: g.seeds ∧ Seed.Leave rows s s'
  config : ∀ key, Ledger.configView.path <+: key → s'.get? key = s.get? key

end Genesis

namespace Ledger

variable {l : Ledger} {s s' : Store} {e : Failure}

/-- A command that cannot be read leaves the store as it was. -/
theorem residue_of_resolve_error {sender : AnyText} {command : Command}
    (h : l.resolve sender command = .error e) : command.Residue sender e s s := by
  unfold Command.Residue
  cases horder : command.orderBy? sender with
  | none => rfl
  | some resolved =>
    obtain ⟨rfl, -⟩ := Command.orderBy?_eq_some_iff.1 horder
    obtain ⟨-, fault, rfl⟩ | ⟨-, codes, -, hsender, -⟩ := resolve_error_cases h
    · exact .of_invalidAddress
    · cases hsender

theorem residue_execute {sender : AnyText} {command : Command}
    (h : EStateM.run (l.execute sender command) s = .error e s') :
    command.Residue sender e s s' := by
  rw [run_execute_eq] at h
  cases hresolve : l.resolve sender command with
  | error fault =>
    rw [hresolve] at h
    cases h
    exact residue_of_resolve_error hresolve
  | ok resolved =>
    rw [hresolve] at h
    rw [Command.Residue, orderBy?_of_resolve hresolve]
    exact .of_post h

theorem residue_of_rows {rows : List Seed} {g : Genesis} (hstops : g.Stops l e rows)
    (hrows : rows <+: g.seeds) (hleave : Seed.Leave rows s s') : g.Residue l e s s' :=
  ⟨⟨rows, hstops, hrows, hleave⟩, fun _ hkey => hleave.config hkey⟩

/-- A genesis that fails for one of its rows has written those before it. It has also written that
row, unless its address is none. -/
theorem residue_of_row {g : Genesis} {flaw : Failure}
    (hseeds : Seed.flaw? l.addresses [] g.seeds = some flaw)
    (h : EStateM.run (l.instantiate g) s = .error e s') : g.Residue l e s s' := by
  unfold instantiate at h
  obtain ⟨rows, seed, rest, hsplit, hrows, hflaw⟩ := Seed.exists_split_of_flaw hseeds
  obtain ⟨seeded, s₁, hscanned, hleave, hrun⟩ :=
    run_seedBalances_append Scanned.nil hrows (seed :: rest) s
  rw [← hsplit] at hrun
  rcases hflaw with ⟨fault, haddress, rfl⟩ | ⟨account, haddress, htotal, fault, rfl⟩
  · have hrow : EStateM.run (l.address seed.address) s₁ = .error (.invalidAddress fault) s₁ := by
      rw [address, addressOf, haddress]
      rfl
    have hrest : EStateM.run (seedBalances l (Seed.total ([] ++ rows)) seeded (seed :: rest)) s₁ =
        .error (.invalidAddress fault) s₁ := run_bind_of_error hrow
    rw [run_bind_of_error (hrun.trans hrest)] at h
    cases h
    exact residue_of_rows (.address hsplit hrows haddress)
      (hsplit ▸ List.prefix_append _ _) hleave
  · rw [run_seedBalances_cons hscanned haddress, if_neg htotal] at hrun
    rw [run_bind_of_error hrun] at h
    cases h
    rw [List.nil_append] at htotal
    refine residue_of_rows (.overflow hsplit hrows haddress htotal) ?_
      (hleave.concat (eq_of_addressOf (addressOf_of_validate haddress)))
    rw [hsplit, List.append_cons rows seed rest]
    exact List.prefix_append _ _

/-- A genesis that fails for its metadata has written all of its rows. -/
theorem residue_of_metadata {g : Genesis} (hseeds : Seed.flaw? l.addresses [] g.seeds = none)
    {flaw : Failure} (hflaw : g.metadataFlaw? l = some flaw)
    (h : EStateM.run (l.instantiate g) s = .error e s') : g.Residue l e s s' := by
  unfold instantiate at h
  obtain ⟨seeded, s₁, -, hleave, hrun⟩ := run_seedBalances_append Scanned.nil hseeds [] s
  have hmetadata := metadataOf_eq l g
  rw [hflaw] at hmetadata
  rw [List.append_nil] at hrun
  rw [run_bind_of_ok (hrun.trans rfl), hmetadata] at h
  cases h
  exact residue_of_rows (.metadata hseeds hflaw) (List.prefix_refl _) hleave

theorem residue_instantiate {g : Genesis} (h : EStateM.run (l.instantiate g) s = .error e s') :
    g.Residue l e s s' := by
  cases hseeds : Seed.flaw? l.addresses [] g.seeds with
  | some flaw => exact residue_of_row hseeds h
  | none =>
    cases hflaw : g.metadataFlaw? l with
    | some flaw => exact residue_of_metadata hseeds hflaw h
    | none =>
      obtain ⟨_, hok, -⟩ := run_instantiate_of_no_flaw s (Option.or_eq_none_iff.2 ⟨hseeds, hflaw⟩)
      rw [h] at hok
      cases hok

/-- Whatever a store holds, a call that fails leaves in it what is its residue. -/
theorem residue_of_error (l : Ledger) (s s' : Store) (e : Failure) :
    (∀ sender command, EStateM.run (l.execute sender command) s = .error e s' →
      command.Residue sender e s s') ∧
    ∀ g, EStateM.run (l.instantiate g) s = .error e s' → g.Residue l e s s' :=
  ⟨fun _ _ h => residue_execute h, fun _ h => residue_instantiate h⟩

/-- The failure of an action on a store, if it fails. -/
def failure? {α : Type} (x : Action α) (s : Store) : Option Failure :=
  match EStateM.run x s with
  | .ok _ _ => none
  | .error e _ => some e

theorem run_of_failure {α : Type} {x : Action α} (h : failure? x s = some e) :
    EStateM.run x s = .error e (left x s) := by
  unfold failure? at h
  unfold left
  cases hrun : EStateM.run x s with
  | ok a s' =>
    rw [hrun] at h
    cases h
  | error e' s' =>
    rw [hrun] at h
    cases h
    rfl

/-- A delegated transfer of all that an owner has, to an account that holds almost everything, and a
genesis whose second row is too much. Both overflow after their writes. -/
theorem residue_of_error_overflow :
    let l : Ledger := ⟨.simple, ⟨3, 30, 3, 6⟩⟩
    let five : Amount := ⟨5, by decide⟩
    let most : Amount := ⟨Amount.greatest, by decide⟩
    let s : Store := (((Store.memory .empty).setAmount (.allowance "alice" "carol") (some five)
      ).setAmount (.balance "alice") (some five)).setAmount (.balance "bob") (some most)
    let order : Order := .transferFrom "alice" "bob" five
    let g : Genesis :=
      ⟨.whole "Token", .whole "TOK", 2, [⟨.whole "alice", five⟩, ⟨.whole "bob", most⟩]⟩
    (∃ e s', EStateM.run (l.execute "carol" order) s = .error e s' ∧
      Command.Residue "carol" order e s s' ∧ s'.get? (Slot.allowance "alice" "carol").key = none ∧
      s'.get? (Slot.balance "alice").key = some Amount.zero.toBytes) ∧
    ∃ e s', EStateM.run (l.instantiate g) s = .error e s' ∧ g.Residue l e s s' ∧
      s'.get? (Slot.balance "alice").key = some five.toBytes := by
  intro l five most s order g
  have horder : EStateM.run (l.execute "carol" order) s =
      .error (.overflow ⟨most.val, 5⟩) (left (l.execute "carol" order) s) :=
    run_of_failure (by decide +kernel)
  have hgenesis : EStateM.run (l.instantiate g) s =
      .error (.overflow ⟨5, most.val⟩) (left (l.instantiate g) s) :=
    run_of_failure (by decide +kernel)
  exact ⟨⟨_, _, horder, (residue_of_error l _ _ _).1 _ _ horder, by decide +kernel,
    by decide +kernel⟩, _, _, hgenesis, (residue_of_error l _ _ _).2 _ hgenesis, by decide +kernel⟩

end Ledger

end FungibleLedger
