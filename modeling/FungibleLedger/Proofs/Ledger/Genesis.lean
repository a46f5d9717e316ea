import FungibleLedger.Proofs.Ledger.Holders
import FungibleLedger.Proofs.Ledger.Refinement
import FungibleLedger.Proofs.Ledger.Writes

/-!
# What a genesis leaves

The first balances are written one by one and added up as they are written. A repeated address takes
the place of its earlier amount, in the records and in the sum. The invariant that carries the
induction is that the amounts seen so far are the balances of the store, and the sum so far is their
total (`Ledger.seedBalances_total`). A genesis that starts from no balances therefore records their
total as the supply: `Ledger.instantiate_total`.

The genesis alone says what that supply is (`Genesis.supply`), and what the metadata is
(`Genesis.Describes`): `Ledger.instantiate_records`.
-/

namespace FungibleLedger

/-- The amount that an account is left with when seeds are written over an earlier one. -/
def Seed.latest (account : String) (earlier : Amount) : List Seed → Amount
  | [] => earlier
  | seed :: rest =>
    latest account (if seed.address = .whole account then seed.amount else earlier) rest

theorem Seed.latest_of_notMem {account : String} {seeds : List Seed}
    (h : ∀ seed ∈ seeds, seed.address ≠ .whole account) (earlier : Amount) :
    latest account earlier seeds = earlier := by
  induction seeds with
  | nil => rfl
  | cons seed rest ih =>
    rw [latest, if_neg (h seed List.mem_cons_self)]
    exact ih fun other hother => h other (List.mem_cons_of_mem _ hother)

namespace Genesis

/-- The accounts that a genesis seeds. -/
def accounts (g : Genesis) : Finset String :=
  (g.seeds.filterMap fun seed => seed.address.whole?).toFinset

/-- The supply that a genesis seeds: the latest amount of each of its accounts. -/
def supply (g : Genesis) : ℕ :=
  ∑ account ∈ g.accounts, (Seed.latest account .zero g.seeds).val

/-- Whether metadata is what a genesis says of its token. -/
def Describes (g : Genesis) (m : Metadata) : Prop :=
  g.name = .whole m.name ∧ g.symbol = .whole m.symbol ∧ g.decimals = m.decimals

theorem Describes.unique {g : Genesis} {m m' : Metadata} (h : g.Describes m)
    (h' : g.Describes m') : m = m' := by
  obtain ⟨name, symbol, decimals⟩ := m
  obtain ⟨name', symbol', decimals'⟩ := m'
  obtain ⟨hname, hsymbol, hdecimals⟩ := h
  obtain ⟨hname', hsymbol', hdecimals'⟩ := h'
  cases hname.symm.trans hname'
  cases hsymbol.symm.trans hsymbol'
  cases hdecimals.symm.trans hdecimals'
  rfl

theorem mem_accounts {g : Genesis} {seed : Seed} {account : String} (hseed : seed ∈ g.seeds)
    (h : seed.address = .whole account) : account ∈ g.accounts := by
  rw [accounts, List.mem_toFinset, List.mem_filterMap]
  exact ⟨seed, hseed, by rw [h]; rfl⟩

end Genesis

namespace Ledger

variable {l : Ledger} {s s' : Store}

/-! ## First balances -/

theorem seedBalances_total {seeds : List Seed} {total total' : Int}
    {seeded : List (String × Amount)} (hs : Readable s)
    (hseeded : ∀ account,
      (Token.ofStore s).balanceOf account = (seeded.lookup account).getD .zero)
    (htotal : total = (Token.ofStore s).total)
    (h : EStateM.run (seedBalances l total seeded seeds) s = .ok total' s') :
    Readable s' ∧ total' = (Token.ofStore s').total := by
  induction seeds generalizing total seeded s with
  | nil =>
    cases h
    exact ⟨hs, htotal⟩
  | cons seed rest ih =>
    unfold seedBalances at h
    obtain ⟨address, -, h⟩ := ok_of_run_lift_bind h
    rw [run_bind_of_ok (run_writeBalance address seed.amount)] at h
    obtain ⟨sum, hsum, h⟩ := ok_of_run_lift_bind h
    have hsum := ok_of_mapError hsum
    have htoken := Token.ofStore_setAmount s (Slot.fits_balance address) (some seed.amount)
    refine ih (hs.setAmount _ _) (fun account => ?_) ?_ h
    · rw [htoken, Token.balanceOf_set_balance, List.lookup_cons, hseeded]
      by_cases haccount : account = address
      · subst haccount
        simp
      · rw [if_neg haccount, beq_false_of_ne haccount]
    · -- what the address had before leaves the sum and the total alike
      have hset := Token.total_set_balance (Token.finite_ofStore s) address seed.amount
      rw [htoken]
      unfold checkedAdd at hsum
      split at hsum
      · cases hsum
      · cases hsum
        rw [← hseeded]
        omega

theorem seedBalances_balanceOf {seeds : List Seed} {total total' : Int}
    {seeded : List (String × Amount)}
    (h : EStateM.run (seedBalances l total seeded seeds) s = .ok total' s') (account : String) :
    (Token.ofStore s').balanceOf account =
      Seed.latest account ((Token.ofStore s).balanceOf account) seeds := by
  induction seeds generalizing total seeded s with
  | nil =>
    cases h
    rfl
  | cons seed rest ih =>
    unfold seedBalances at h
    obtain ⟨address, haddress, h⟩ := ok_of_run_lift_bind h
    rw [run_bind_of_ok (run_writeBalance address seed.amount)] at h
    obtain ⟨sum, -, h⟩ := ok_of_run_lift_bind h
    have hseed : seed.address = .whole account ↔ account = address := by
      rw [eq_of_addressOf haddress, AnyText.whole.injEq, eq_comm]
    rw [ih h, Token.ofStore_setAmount s (Slot.fits_balance address),
      Token.balanceOf_set_balance, Seed.latest, if_congr hseed rfl rfl, Option.getD_some]

/-! ## The start of a ledger -/

theorem eq_of_nameOf {text : AnyText} {name : String} (h : l.nameOf text = .ok name) :
    text = .whole name := by
  cases text with
  | broken codes => cases h
  | whole s =>
    rw [nameOf] at h
    split at h <;> cases h
    rfl

theorem eq_of_symbolOf {text : AnyText} {symbol : String} (h : l.symbolOf text = .ok symbol) :
    text = .whole symbol := by
  cases text with
  | broken codes => cases h
  | whole s =>
    rw [symbolOf] at h
    split at h <;> cases h
    rfl

theorem describes_of_metadataOf {g : Genesis} {m : Metadata} (h : l.metadataOf g = .ok m) :
    g.Describes m := by
  obtain ⟨name, hname, h⟩ := ok_of_bind h
  obtain ⟨symbol, hsymbol, h⟩ := ok_of_bind h
  split at h
  · cases h
  · cases h
    exact ⟨eq_of_nameOf hname, eq_of_symbolOf hsymbol, rfl⟩

theorem run_instantiate_ok {g : Genesis} {response : Response}
    (h : EStateM.run (l.instantiate g) s = .ok response s') :
    ∃ total s₁ metadata supply, EStateM.run (seedBalances l 0 [] g.seeds) s = .ok total s₁ ∧
      l.metadataOf g = .ok metadata ∧ (supply.val : Int) = total ∧
      s' = (s₁.write metadataPlace (some metadata.toBytes)).setAmount .supply (some supply) := by
  unfold instantiate at h
  obtain ⟨total, s₁, hseeds, h⟩ := ok_of_run_bind h
  obtain ⟨metadata, hmetadata, h⟩ := ok_of_run_lift_bind h
  rw [run_bind_of_ok (EStateM.run_modify _ _)] at h
  obtain ⟨⟨⟩, s₂, hwrite, h⟩ := ok_of_run_bind h
  obtain ⟨bytes, hbytes, hwrite⟩ := ok_of_run_lift_bind hwrite
  obtain ⟨supply, hsupply, rfl⟩ := Amount.exists_of_encode (ok_of_mapError hbytes)
  cases hwrite
  cases h
  exact ⟨total, s₁, metadata, supply, hseeds, hmetadata, hsupply, rfl⟩

/-- A genesis over no balances records the metadata, and as the supply what its balances add up
to. -/
theorem instantiate_total {g : Genesis} {response : Response} (hs : Readable s)
    (hzero : ∀ account, (Token.ofStore s).balanceOf account = .zero)
    (h : EStateM.run (l.instantiate g) s = .ok response s') :
    Readable s' ∧ s'.get? metadataPlace ≠ none ∧
      ∃ supply, (Token.ofStore s').supply = some supply ∧
        (Token.ofStore s').total = supply.val := by
  obtain ⟨total, s₁, metadata, supply, hseeds, -, hsupply, rfl⟩ := run_instantiate_ok h
  have hstart : (0 : Int) = (Token.ofStore s).total := by
    rw [Token.total_eq_zero hzero]
    rfl
  have hseeded : ∀ account, (Token.ofStore s).balanceOf account =
      (([] : List (String × Amount)).lookup account).getD .zero := hzero
  obtain ⟨hs₁, htotal⟩ := seedBalances_total hs hseeded hstart hseeds
  have htoken := Token.ofStore_setAmount (s₁.write metadataPlace (some metadata.toBytes))
    Slot.fits_supply (some supply)
  rw [Token.ofStore_write_metadata] at htoken
  refine ⟨(hs₁.write_metadata _).setAmount _ _, ?_, supply, ?_, ?_⟩
  · rw [Store.get?_setAmount, if_neg (Slot.key_ne_metadataPlace _).symm, Store.get?_write,
      if_pos rfl]
    exact nofun
  · rw [htoken]
    rfl
  · rw [htoken]
    show (Token.ofStore s₁).total = supply.val
    omega

theorem balanceOf_instantiate {g : Genesis} {response : Response}
    (h : EStateM.run (l.instantiate g) s = .ok response s') (account : String) :
    (Token.ofStore s').balanceOf account =
      Seed.latest account ((Token.ofStore s).balanceOf account) g.seeds := by
  obtain ⟨total, s₁, metadata, supply, hseeds, -, -, rfl⟩ := run_instantiate_ok h
  rw [Token.ofStore_setAmount _ Slot.fits_supply, Token.ofStore_write_metadata,
    ← seedBalances_balanceOf hseeds]
  rfl

/-- A genesis over no balances leaves the records that it describes. -/
theorem instantiate_records {g : Genesis} {response : Response} (hs : Readable s)
    (hzero : ∀ account, (Token.ofStore s).balanceOf account = .zero)
    (h : EStateM.run (l.instantiate g) s = .ok response s') :
    ∃ metadata supply, g.Describes metadata ∧ s'.get? metadataPlace = some metadata.toBytes ∧
      (Token.ofStore s').supply = some supply ∧ supply.val = g.supply := by
  obtain ⟨-, -, supply, hsupply, htotal⟩ := instantiate_total hs hzero h
  have hbalance : ∀ account, (Token.ofStore s').balanceOf account =
      Seed.latest account .zero g.seeds := by
    intro account
    rw [balanceOf_instantiate h, hzero]
  have hcover : ∀ account, (Token.ofStore s').balanceOf account ≠ .zero →
      account ∈ g.accounts := by
    intro account hne
    by_contra hmem
    apply hne
    rw [hbalance]
    exact Seed.latest_of_notMem (fun seed hseed heq => hmem (Genesis.mem_accounts hseed heq)) _
  rw [Token.total_eq_sum hcover] at htotal
  simp only [hbalance] at htotal
  obtain ⟨total, s₁, metadata, supply', -, hmetadata, -, rfl⟩ := run_instantiate_ok h
  refine ⟨metadata, supply, describes_of_metadataOf hmetadata, ?_, hsupply, htotal.symm⟩
  rw [Store.get?_setAmount, if_neg (Slot.key_ne_metadataPlace _).symm, Store.get?_write,
    if_pos rfl]

end Ledger

end FungibleLedger
