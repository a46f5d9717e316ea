import FungibleLedger.Proofs.Ledger.Genesis

/-!
# The outcome of a genesis

A genesis is read row by row. The first row whose address is none, or after which the latest amounts
of the accounts so far add up to more than an amount can be, ends it; then its name, its symbol and
its decimal places are looked at, in this order (`Genesis.flaw?`). What the store holds has no part
in this: `Ledger.instantiate_outcome` gives the end of every genesis over every store, and the
records after a good one.

The sum is kept as the rows come, by taking away what a repeated address had before. The invariant
`Ledger.Scanned` says that it is the total of the rows so far, of which what is taken away is a part
(`Seed.latest_le_total`), so the sum is never negative.

* `Seed.total` : the sum of the latest amounts of all accounts in some seeds.
* `Seed.flaw?`, `Genesis.metadataFlaw?`, `Genesis.flaw?` : why a genesis fails.
* `Genesis.Leaves` : the records after one that does not.
-/

namespace FungibleLedger

/-! ## Latest amounts -/

namespace Seed

variable {account : String} {seeds : List Seed} {seed : Seed}

/-- The sum of the latest amounts of all accounts in some seeds. -/
def total (seeds : List Seed) : ℕ :=
  ∑ account ∈ (seeds.filterMap fun seed => seed.address.whole?).toFinset,
    (latest account .zero seeds).val

theorem mem_accounts :
    account ∈ (seeds.filterMap fun seed => seed.address.whole?).toFinset ↔
      ∃ seed ∈ seeds, seed.address = .whole account := by
  have hwhole : ∀ text : AnyText, text.whole? = some account ↔ text = .whole account := by
    intro text
    cases text <;> simp [AnyText.whole?]
  simp only [List.mem_toFinset, List.mem_filterMap, hwhole]

theorem latest_concat (earlier : Amount) :
    latest account earlier (seeds ++ [seed]) =
      if seed.address = .whole account then seed.amount else latest account earlier seeds := by
  induction seeds generalizing earlier with
  | nil => rfl
  | cons head rest ih => exact ih _

theorem latest_eq_zero (h : ¬ ∃ seed ∈ seeds, seed.address = .whole account) :
    latest account .zero seeds = .zero :=
  latest_of_notMem (fun seed hseed heq => h ⟨seed, hseed, heq⟩) _

/-- What an account had before a seed of it says nothing about what it has afterwards. -/
theorem latest_congr (h : ∃ seed ∈ seeds, seed.address = .whole account) (a b : Amount) :
    latest account a seeds = latest account b seeds := by
  induction seeds generalizing a b with
  | nil => simp at h
  | cons head rest ih =>
    rw [latest, latest]
    by_cases hhead : head.address = .whole account
    · rw [if_pos hhead, if_pos hhead]
    · rw [if_neg hhead, if_neg hhead]
      obtain ⟨other, hother, heq⟩ := h
      rcases List.mem_cons.1 hother with rfl | hrest
      · exact absurd heq hhead
      · exact ih ⟨other, hrest, heq⟩ a b

theorem total_eq_sum {accounts : Finset String}
    (h : ∀ seed ∈ seeds, ∀ account, seed.address = .whole account → account ∈ accounts) :
    total seeds = ∑ account ∈ accounts, (latest account .zero seeds).val := by
  apply Finset.sum_subset
  · intro account haccount
    obtain ⟨seed, hseed, heq⟩ := mem_accounts.1 haccount
    exact h seed hseed account heq
  · intro account _ haccount
    rw [latest_eq_zero (mt mem_accounts.2 haccount), Amount.val_zero]

theorem latest_le_total (account : String) (seeds : List Seed) :
    (latest account .zero seeds).val ≤ total seeds := by
  by_cases h : ∃ seed ∈ seeds, seed.address = .whole account
  · exact Finset.single_le_sum (f := fun account => (latest account .zero seeds).val)
      (fun _ _ => Nat.zero_le _) (mem_accounts.2 h)
  · rw [latest_eq_zero h]
    exact Nat.zero_le _

/-- One more seed changes the total by its amount, less what its account had before. -/
theorem total_concat (haddress : seed.address = .whole account) :
    total (seeds ++ [seed]) + (latest account .zero seeds).val =
      total seeds + seed.amount.val := by
  let accounts := insert account (seeds.filterMap fun seed => seed.address.whole?).toFinset
  have hmem : account ∈ accounts := Finset.mem_insert_self _ _
  have hbefore : ∀ seed ∈ seeds, ∀ account, seed.address = .whole account → account ∈ accounts :=
    fun seed hseed account heq =>
      Finset.mem_insert_of_mem (mem_accounts.2 ⟨seed, hseed, heq⟩)
  have hafter : ∀ other ∈ seeds ++ [seed], ∀ account, other.address = .whole account →
      account ∈ accounts := by
    intro other hother account' heq
    rcases List.mem_append.1 hother with hother | hother
    · exact hbefore other hother account' heq
    · rw [List.mem_singleton.1 hother, haddress, AnyText.whole.injEq] at heq
      exact heq ▸ hmem
  -- apart from the account of the seed, both sums have the same terms
  have hrest : ∀ other ∈ accounts.erase account,
      (latest other .zero (seeds ++ [seed])).val = (latest other .zero seeds).val := by
    intro other hother
    have hne : ¬ seed.address = .whole other := by
      rw [haddress, AnyText.whole.injEq]
      exact (Finset.ne_of_mem_erase hother).symm
    rw [latest_concat, if_neg hne]
  rw [total_eq_sum hbefore, total_eq_sum hafter, ← Finset.add_sum_erase _ _ hmem,
    ← Finset.add_sum_erase accounts (fun account => (latest account .zero seeds).val) hmem,
    Finset.sum_congr rfl hrest, latest_concat, if_pos haddress]
  omega

/-- The first flaw of seeds that come behind others: an address that is none, or a total that is no
amount. -/
def flaw? (format : AddressFormat) (before : List Seed) : List Seed → Option Failure
  | [] => none
  | seed :: rest =>
    match format.validate seed.address with
    | .error e => some (.invalidAddress e)
    | .ok account =>
      if total (before ++ [seed]) < Amount.bound then flaw? format (before ++ [seed]) rest
      else some (.overflow ⟨total before - (latest account .zero before).val, seed.amount.val⟩)

theorem flaw?_cons_eq_none {format : AddressFormat} {before : List Seed}
    (h : flaw? format before (seed :: seeds) = none) :
    ∃ account, format.validate seed.address = .ok account ∧
      total (before ++ [seed]) < Amount.bound ∧ flaw? format (before ++ [seed]) seeds = none := by
  rw [flaw?] at h
  split at h
  · cases h
  · next account haddress =>
    split at h
    · next hbound => exact ⟨account, haddress, hbound, h⟩
    · cases h

theorem total_lt {format : AddressFormat} {before : List Seed}
    (h : flaw? format before seeds = none) (hbefore : total before < Amount.bound) :
    total (before ++ seeds) < Amount.bound := by
  induction seeds generalizing before with
  | nil => rwa [List.append_nil]
  | cons seed seeds ih =>
    obtain ⟨-, -, hbound, h⟩ := flaw?_cons_eq_none h
    rw [← List.singleton_append, ← List.append_assoc]
    exact ih h hbound

/-- What seeds leave in a store: the record of each of their accounts holds its latest amount, and
all other records are as before. -/
structure Leave (seeds : List Seed) (s s' : Store) : Prop where
  written : ∀ seed ∈ seeds, ∀ account, seed.address = .whole account →
    s'.get? (Slot.balance account).key = some (latest account .zero seeds).toBytes
  kept : ∀ key, (∀ seed ∈ seeds, ∀ account, seed.address = .whole account →
    key ≠ (Slot.balance account).key) → s'.get? key = s.get? key

theorem Leave.cons {s s' : Store} (haddress : seed.address = .whole account)
    (h : Leave seeds (s.setAmount (.balance account) (some seed.amount)) s') :
    Leave (seed :: seeds) s s' := by
  constructor
  · intro other hother account' heq
    rw [latest]
    by_cases hmem : ∃ later ∈ seeds, later.address = .whole account'
    · obtain ⟨later, hlater, heq'⟩ := hmem
      rw [h.written later hlater account' heq', latest_congr ⟨later, hlater, heq'⟩]
    · -- no later seed is of this account, so the seed at the front is
      have hfront : seed.address = .whole account' := by
        rcases List.mem_cons.1 hother with rfl | hother
        · exact heq
        · exact absurd ⟨other, hother, heq⟩ hmem
      have hsame : account' = account := by
        rw [haddress, AnyText.whole.injEq] at hfront
        exact hfront.symm
      subst hsame
      have hkept := h.kept (Slot.balance account').key fun later hlater other heq' hkey => by
        have hslot := Slot.key_inj (Slot.fits_balance _) (Slot.fits_balance _) hkey
        cases hslot
        exact hmem ⟨later, hlater, heq'⟩
      rw [hkept, Store.get?_setAmount, if_pos rfl, if_pos hfront,
        latest_of_notMem fun later hlater heq' => hmem ⟨later, hlater, heq'⟩]
      rfl
  · intro key hkey
    rw [h.kept key fun later hlater => hkey later (List.mem_cons_of_mem _ hlater),
      Store.get?_setAmount, if_neg (hkey seed List.mem_cons_self account haddress)]

end Seed

/-! ## Flaws of a genesis -/

namespace Genesis

/-- Why the metadata of a genesis are refused: for the name, for the symbol or for the decimal
places, in this order. A name that is no whole text cannot even be measured. -/
def metadataFlaw? (l : Ledger) (g : Genesis) : Option Failure :=
  match g.name with
  | .broken codes => some (.unencodable (.ofCodes codes))
  | .whole name =>
    if ¬ l.isValidName name then some (.nameFormat name)
    else if ¬ g.symbol.whole?.any l.isValidSymbol then some (.symbolFormat g.symbol)
    else if decimalsLimit < g.decimals.val then some (.tooManyDecimals g.decimals.val)
    else none

/-- Why a genesis fails: for the first flaw of its seeds, or else for its metadata. -/
def flaw? (l : Ledger) (g : Genesis) : Option Failure :=
  (Seed.flaw? l.addresses [] g.seeds).or (g.metadataFlaw? l)

/-- What a genesis leaves in a store: the balances of its seeds, their total as the supply, and the
metadata that it describes. All other records are as before. -/
structure Leaves (g : Genesis) (s s' : Store) : Prop where
  balances : ∀ seed ∈ g.seeds, ∀ account, seed.address = .whole account →
    s'.get? (Slot.balance account).key = some (Seed.latest account .zero g.seeds).toBytes
  supply : ∃ supply : Amount, supply.val = Seed.total g.seeds ∧
    s'.get? Slot.supply.key = some supply.toBytes
  metadata : ∃ metadata : Metadata, g.Describes metadata ∧
    s'.get? Ledger.metadataPlace = some metadata.toBytes
  rest : ∀ key, key ≠ Slot.supply.key → key ≠ Ledger.metadataPlace →
    (∀ seed ∈ g.seeds, ∀ account, seed.address = .whole account →
      key ≠ (Slot.balance account).key) → s'.get? key = s.get? key

end Genesis

namespace Ledger

variable {l : Ledger} {s : Store}

theorem symbolOf_of_valid {text : AnyText} (h : text.whole?.any l.isValidSymbol = true) :
    ∃ symbol, l.symbolOf text = .ok symbol := by
  cases text with
  | broken codes => cases h
  | whole symbol => exact ⟨symbol, if_pos h⟩

theorem symbolOf_of_not_valid {text : AnyText} (h : ¬ text.whole?.any l.isValidSymbol = true) :
    l.symbolOf text = .error (.symbolFormat text) := by
  cases text with
  | broken codes => rfl
  | whole symbol => exact if_neg h

theorem metadataOf_eq (l : Ledger) (g : Genesis) :
    match g.metadataFlaw? l with
    | some e => l.metadataOf g = .error e
    | none => ∃ metadata, l.metadataOf g = .ok metadata := by
  rw [Genesis.metadataFlaw?, metadataOf]
  cases g.name with
  | broken codes => rfl
  | whole name =>
    dsimp only
    by_cases hname : l.isValidName name
    · have hnameOf : l.nameOf (.whole name) = .ok name := if_pos hname
      rw [hnameOf, if_neg (not_not.2 hname)]
      by_cases hsymbol : g.symbol.whole?.any l.isValidSymbol
      · obtain ⟨symbol, hsymbolOf⟩ := symbolOf_of_valid hsymbol
        rw [hsymbolOf, if_neg (not_not.2 hsymbol)]
        by_cases hdecimals : decimalsLimit < g.decimals.val
        · rw [if_pos hdecimals]
          exact if_pos hdecimals
        · rw [if_neg hdecimals]
          exact ⟨_, if_neg hdecimals⟩
      · rw [symbolOf_of_not_valid hsymbol, if_pos hsymbol]
        rfl
    · have hnameOf : l.nameOf (.whole name) = .error (.nameFormat name) := if_neg hname
      rw [hnameOf, if_pos hname]
      rfl

/-! ## The rows of a genesis -/

/-- What the running sum and the amounts in it are after some seeds. -/
structure Scanned (before : List Seed) (total : Int) (seeded : List (String × Amount)) : Prop where
  total_eq : total = Seed.total before
  lookup_eq : ∀ account, (seeded.lookup account).getD .zero = Seed.latest account .zero before

namespace Scanned

variable {before : List Seed} {total : Int} {seeded : List (String × Amount)} {seed : Seed}
  {account : String}

theorem nil : Scanned [] 0 [] := ⟨rfl, fun _ => rfl⟩

theorem concat (h : Scanned before total seeded) (haddress : seed.address = .whole account) :
    Scanned (before ++ [seed]) (Seed.total (before ++ [seed]))
      ((account, seed.amount) :: seeded) := by
  refine ⟨rfl, fun other => ?_⟩
  rw [Seed.latest_concat, List.lookup_cons, ← h.lookup_eq]
  by_cases hother : account = other
  · subst hother
    rw [if_pos haddress, beq_self_eq_true, Option.getD_some]
  · have hne : seed.address ≠ .whole other := by
      rwa [haddress, ne_eq, AnyText.whole.injEq]
    rw [if_neg hne, beq_false_of_ne (Ne.symm hother)]

/-- The next sum is the total with the next seed, unless that is no amount. -/
theorem checkedAdd_eq (h : Scanned before total seeded) (haddress : seed.address = .whole account) :
    checkedAdd (total - ((seeded.lookup account).getD .zero).val) seed.amount.val =
      if Seed.total (before ++ [seed]) < Amount.bound then .ok (Seed.total (before ++ [seed]) : Int)
      else .error ⟨Seed.total before - (Seed.latest account .zero before).val,
        seed.amount.val⟩ := by
  have hgreatest : (Amount.greatest : Int) + 1 = Amount.bound := by decide
  have htotal : Seed.total (before ++ [seed]) + (Seed.latest account .zero before).val =
      Seed.total before + seed.amount.val := Seed.total_concat haddress
  rw [checkedAdd, h.total_eq, h.lookup_eq]
  by_cases hbound : Seed.total (before ++ [seed]) < Amount.bound
  · rw [if_neg (by omega), if_pos hbound, Except.ok.injEq]
    omega
  · rw [if_pos (by omega), if_neg hbound]

end Scanned

section Rows

variable {before rows rest : List Seed} {total : Int} {seeded : List (String × Amount)}
  {seed : Seed} {account : String}

theorem addressOf_of_validate {text : AnyText} (h : l.addresses.validate text = .ok account) :
    l.addressOf text = .ok account := by
  rw [addressOf, h]
  rfl

/-- The step of one row with an address: its amount is written, and the sum goes on with it unless
that is no amount. -/
theorem run_seedBalances_cons (h : Scanned before total seeded)
    (haddress : l.addresses.validate seed.address = .ok account) :
    EStateM.run (seedBalances l total seeded (seed :: rest)) s =
      if Seed.total (before ++ [seed]) < Amount.bound then
        EStateM.run (seedBalances l (Seed.total (before ++ [seed]))
          ((account, seed.amount) :: seeded) rest)
          (s.setAmount (.balance account) (some seed.amount))
      else .error (.overflow ⟨Seed.total before - (Seed.latest account .zero before).val,
        seed.amount.val⟩) (s.setAmount (.balance account) (some seed.amount)) := by
  have haddressOf := addressOf_of_validate haddress
  have hrun : EStateM.run (l.address seed.address) s = .ok account s := by
    rw [address, haddressOf]
    rfl
  rw [seedBalances, run_bind_of_ok hrun, run_bind_of_ok (run_writeBalance account seed.amount)]
  dsimp only
  rw [h.checkedAdd_eq (eq_of_addressOf haddressOf)]
  split <;> rfl

/-- Rows without a flaw lead to the rows behind them, with the total of all rows so far. -/
theorem run_seedBalances_append (h : Scanned before total seeded)
    (hflaw : Seed.flaw? l.addresses before rows = none) (rest : List Seed) (s : Store) :
    ∃ seeded' s', Scanned (before ++ rows) (Seed.total (before ++ rows)) seeded' ∧
      Seed.Leave rows s s' ∧
      EStateM.run (seedBalances l total seeded (rows ++ rest)) s =
        EStateM.run (seedBalances l (Seed.total (before ++ rows)) seeded' rest) s' := by
  induction rows generalizing before total seeded s with
  | nil =>
    rw [List.append_nil, ← h.total_eq]
    exact ⟨seeded, s, h, ⟨by simp, by simp⟩, rfl⟩
  | cons seed rows ih =>
    obtain ⟨account, haddress, hbound, hflaw⟩ := Seed.flaw?_cons_eq_none hflaw
    have hwhole := eq_of_addressOf (addressOf_of_validate haddress)
    obtain ⟨seeded', s', hscanned, hleave, hrun⟩ :=
      ih (h.concat hwhole) hflaw (s.setAmount (.balance account) (some seed.amount))
    rw [List.append_assoc, List.singleton_append] at hscanned hrun
    refine ⟨seeded', s', hscanned, hleave.cons hwhole, ?_⟩
    rw [List.cons_append, run_seedBalances_cons h haddress, if_pos hbound, hrun]

/-- The first row with a flaw ends a genesis with it. -/
theorem run_seedBalances_of_flaw {e : Failure} (h : Scanned before total seeded)
    (hflaw : Seed.flaw? l.addresses before rows = some e) :
    ∃ s', EStateM.run (seedBalances l total seeded rows) s = .error e s' := by
  induction rows generalizing before total seeded s with
  | nil => cases hflaw
  | cons seed rows ih =>
    rw [Seed.flaw?] at hflaw
    split at hflaw
    · next fault haddress =>
      cases hflaw
      have hrun : EStateM.run (l.address seed.address) s = .error (.invalidAddress fault) s := by
        rw [address, addressOf, haddress]
        rfl
      exact ⟨s, run_bind_of_error hrun⟩
    · next account haddress =>
      have hwhole := eq_of_addressOf (addressOf_of_validate haddress)
      rw [run_seedBalances_cons h haddress]
      split at hflaw
      · next hbound =>
        rw [if_pos hbound]
        exact ih (h.concat hwhole) hflaw
      · next hbound =>
        cases hflaw
        rw [if_neg hbound]
        exact ⟨_, rfl⟩

end Rows

/-! ## A whole genesis -/

theorem run_instantiate_of_flaw {g : Genesis} {e : Failure} (s : Store) (h : g.flaw? l = some e) :
    ∃ s', EStateM.run (l.instantiate g) s = .error e s' := by
  unfold instantiate
  rw [Genesis.flaw?] at h
  cases hseeds : Seed.flaw? l.addresses [] g.seeds with
  | some fault =>
    rw [hseeds, Option.some_or] at h
    cases h
    obtain ⟨s', hrun⟩ := run_seedBalances_of_flaw (s := s) Scanned.nil hseeds
    exact ⟨s', run_bind_of_error hrun⟩
  | none =>
    rw [hseeds, Option.none_or] at h
    obtain ⟨seeded, s', -, -, hrun⟩ :=
      run_seedBalances_append Scanned.nil hseeds [] s
    rw [List.append_nil] at hrun
    have hmetadata := metadataOf_eq l g
    rw [h] at hmetadata
    refine ⟨s', ?_⟩
    rw [run_bind_of_ok (hrun.trans rfl), hmetadata]
    rfl

theorem run_instantiate_of_no_flaw {g : Genesis} (s : Store) (h : g.flaw? l = none) :
    ∃ s', EStateM.run (l.instantiate g) s = .ok .empty s' ∧ g.Leaves s s' := by
  obtain ⟨hseeds, hnone⟩ := Option.or_eq_none_iff.1 h
  obtain ⟨seeded, s₁, hscanned, hleave, hrun⟩ :=
    run_seedBalances_append Scanned.nil hseeds [] s
  rw [List.append_nil, List.nil_append] at hrun
  have hmetadata := metadataOf_eq l g
  rw [hnone] at hmetadata
  obtain ⟨metadata, hmetadata⟩ := hmetadata
  let supply : Amount := ⟨Seed.total g.seeds, Seed.total_lt hseeds (by decide)⟩
  have hsupply : EStateM.run (writeAmount configView supplyKey (Seed.total g.seeds))
      (s₁.write metadataPlace (some metadata.toBytes)) = .ok () ((s₁.write metadataPlace
        (some metadata.toBytes)).setAmount .supply (some supply)) := run_writeAmount rfl supply
  refine ⟨(s₁.write metadataPlace (some metadata.toBytes)).setAmount .supply (some supply), ?_, ?_⟩
  · unfold instantiate
    rw [run_bind_of_ok (hrun.trans rfl), hmetadata, run_bind_of_ok (run_lift_ok metadata),
      run_bind_of_ok (EStateM.run_modify _ _)]
    exact run_bind_of_ok hsupply
  · have hget : ∀ key, key ≠ Slot.supply.key → key ≠ metadataPlace →
        ((s₁.write metadataPlace (some metadata.toBytes)).setAmount .supply
          (some supply)).get? key = s₁.get? key := by
      intro key hkey hplace
      rw [Store.get?_setAmount, if_neg hkey, Store.get?_write, if_neg hplace]
    constructor
    · intro seed hseed account heq
      have hne : (Slot.balance account).key ≠ Slot.supply.key :=
        Slot.key_ne (Slot.fits_balance account) Slot.fits_supply nofun
      rw [hget _ hne (Slot.key_ne_metadataPlace _), hleave.written seed hseed account heq]
    · refine ⟨supply, rfl, ?_⟩
      rw [Store.get?_setAmount, if_pos rfl]
      rfl
    · refine ⟨metadata, describes_of_metadataOf hmetadata, ?_⟩
      rw [Store.get?_setAmount, if_neg (Slot.key_ne_metadataPlace _).symm, Store.get?_write,
        if_pos rfl]
    · intro key hkey hplace hseeds
      rw [hget key hkey hplace, hleave.kept key hseeds]

/-- Every genesis ends as its flaws say, over whatever records there are, and one without a flaw
leaves the records that it describes. Behind rows without a flaw the running sum is the total of the
latest amounts, and the amount that the next row takes out of it is one of them. -/
theorem instantiate_outcome (l : Ledger) (g : Genesis) (s : Store) :
    (match g.flaw? l with
      | some e => ∃ s', EStateM.run (l.instantiate g) s = .error e s'
      | none => ∃ s', EStateM.run (l.instantiate g) s = .ok .empty s' ∧ g.Leaves s s') ∧
    ∀ before rest, g.seeds = before ++ rest → Seed.flaw? l.addresses [] before = none →
      ∃ seeded s', EStateM.run (seedBalances l 0 [] g.seeds) s =
          EStateM.run (seedBalances l (Seed.total before) seeded rest) s' ∧
        Seed.Leave before s s' ∧
        ∀ account, (seeded.lookup account).getD .zero = Seed.latest account .zero before ∧
          ((seeded.lookup account).getD .zero).val ≤ Seed.total before := by
  constructor
  · cases h : g.flaw? l with
    | some e => exact run_instantiate_of_flaw s h
    | none => exact run_instantiate_of_no_flaw s h
  · intro before rest hsplit hflaw
    obtain ⟨seeded, s', hscanned, hleave, hrun⟩ :=
      run_seedBalances_append Scanned.nil hflaw rest s
    rw [List.nil_append] at hscanned hrun
    rw [← hsplit] at hrun
    refine ⟨seeded, s', hrun, hleave, fun account => ⟨hscanned.lookup_eq account, ?_⟩⟩
    rw [hscanned.lookup_eq]
    exact Seed.latest_le_total account before

/-- A genesis that seeds one account twice, with another one between, over records that hold
garbage. -/
theorem instantiate_outcome_repeated :
    let l : Ledger := ⟨.simple, ⟨3, 30, 3, 6⟩⟩
    let amount (n : ℕ) (h : n < Amount.bound) : Amount := ⟨n, h⟩
    let before : List Seed :=
      [⟨.whole "alice", amount 5 (by decide)⟩, ⟨.whole "bob", amount 7 (by decide)⟩]
    let again : Seed := ⟨.whole "alice", amount 2 (by decide)⟩
    let g : Genesis := ⟨.whole "Token", .whole "TOK", 2, before ++ [again]⟩
    let s : Store := (Store.memory .empty).set Slot.supply.key [1, 2, 3]
    (∃ s', EStateM.run (l.instantiate g) s = .ok .empty s' ∧
      s'.get? (Slot.balance "alice").key = some (amount 2 (by decide)).toBytes ∧
      s'.get? Slot.supply.key = some (amount 9 (by decide)).toBytes) ∧
    ∃ seeded s', EStateM.run (seedBalances l 0 [] g.seeds) s =
        EStateM.run (seedBalances l 12 seeded [again]) s' ∧
      ((seeded.lookup "alice").getD .zero).val = 5 := by
  intro l amount before again g s
  obtain ⟨houtcome, hrows⟩ := instantiate_outcome l g s
  have hflaw : g.flaw? l = none := by decide +kernel
  rw [hflaw] at houtcome
  obtain ⟨s', hrun, hleaves⟩ := houtcome
  obtain ⟨seeded, s'', hbefore, -, hlookup⟩ := hrows before [again] rfl (by decide +kernel)
  have htotal : Seed.total before = 12 := by decide +kernel
  refine ⟨⟨s', hrun, ?_, ?_⟩, seeded, s'', ?_, ?_⟩
  · rw [hleaves.balances again (by simp [g]) "alice" rfl]
    rfl
  · obtain ⟨supply, hval, hsupply⟩ := hleaves.supply
    have hnine : supply = amount 9 (by decide) := by
      apply Amount.ext_val
      rw [hval]
      decide +kernel
    rw [hsupply, hnine]
  · rw [htotal] at hbefore
    exact hbefore
  · rw [(hlookup "alice").1]
    rfl

/-- A name with half of a surrogate pair is not refused for its format, although it is far longer
than a name may be in any measure: it ends the genesis with a failure that is no refusal. -/
theorem instantiate_broken_name :
    let l : Ledger := ⟨.simple, ⟨3, 30, 3, 6⟩⟩
    let g : Genesis := ⟨.broken (List.replicate 31 0xD800), .whole "TOK", 6, []⟩
    ∃ e s', EStateM.run (l.instantiate g) (.memory .empty) = .error e s' ∧
      (∀ name, e ≠ .nameFormat name) ∧ e.kind = .other :=
  ⟨.unencodable ⟨0, 0xD800, 31⟩, .memory .empty, rfl, nofun, rfl⟩

end Ledger

end FungibleLedger
