import FungibleLedger.Proofs.Host.Invariant

/-!
# Conservation over runs

After every run from an empty store the list of holders succeeds, it names each balance record once,
and what it names adds up to the recorded supply; before there is a supply every balance is zero
(`Host.addsUp_afterAll`). This is the invariant of runs, read off the records instead of the token.
-/

namespace FungibleLedger.Host

/-- The holders of a host are the balance records in its store, and their amounts add up to the
supply record, which is one of 128 bits. Without a supply record they are all zero. -/
def AddsUp (h : Host) : Prop :=
  ∃ list, h.holders = .ok list ∧ (list.map Prod.fst).Nodup ∧
    (∀ key raw, Ledger.balanceView.get? h.store key = some raw ↔
      ∃ account amount, (account, amount) ∈ list ∧ key = utf8 account ∧ raw = amount.toBytes) ∧
    match Ledger.configView.get? h.store Ledger.supplyKey with
    | none => ∀ account amount, (account, amount) ∈ list → amount = .zero
    | some raw => ∃ supply : Amount, raw = supply.toBytes ∧ supply.val ≤ 2 ^ 128 - 1 ∧
        (list.map fun holder => holder.2.val).sum = supply.val

theorem addsUp_of_sound {h : Host} (hsound : Ledger.Sound h.store) : AddsUp h := by
  obtain ⟨list, hlist, hrange⟩ := Ledger.holders_eq hsound.readable hsound.tidy
  have hmem := Ledger.mem_of_range_eq hsound.readable hrange
  have hsum := Token.total_eq_sum_holders hsound.readable hrange
  have hsupply : Ledger.configView.get? h.store Ledger.supplyKey =
      (h.store.amount? .supply).map Amount.toBytes :=
    hsound.readable.get?_key Slot.fits_supply
  refine ⟨list, hlist, Ledger.nodup_of_range_eq hrange, fun key raw => ?_, ?_⟩
  · rw [← View.mem_range Ledger.balanceView_path_ne_nil, hrange, List.mem_map]
    constructor
    · rintro ⟨⟨account, amount⟩, hholder, heq⟩
      obtain ⟨rfl, rfl⟩ := Prod.mk.inj heq
      exact ⟨account, amount, hholder, rfl, rfl⟩
    · rintro ⟨account, amount, hholder, hkey, hraw⟩
      rw [hkey, hraw]
      exact ⟨(account, amount), hholder, rfl⟩
  · rw [hsupply]
    cases hrecord : h.store.amount? .supply with
    | none =>
      intro account amount hholder
      have hzero := hsound.balance_eq_zero hrecord account
      have hamount : (Token.ofStore h.store).balanceOf account = amount := by
        rw [Token.balanceOf_ofStore, (hmem account amount).1 hholder, Option.getD_some]
      exact hamount.symm.trans hzero
    | some supply =>
      have hgreatest : Amount.bound = 2 ^ 128 := by decide
      have hlt := supply.val_lt
      refine ⟨supply, rfl, by omega, ?_⟩
      rw [← hsum, hsound.conserved, Token.supplyOf_ofStore, hrecord, Option.getD_some]

/-- In every run from an empty store the balances add up to the supply. The calls may come from
anyone and in any order, fail, come before the ledger has started or try to start it again. -/
theorem addsUp_afterAll (h : Host) (hempty : ∀ key, h.store.get? key = none)
    (calls : List Call) : AddsUp (h.afterAll calls) :=
  addsUp_of_sound (sound_afterAll hempty calls)

/-- A run with a transfer of nothing before the start, an address seeded twice, a second start, a
transfer to oneself, a burn and a transfer of too much. -/
theorem addsUp_afterAll_eventful :
    let host : Host := ⟨⟨.simple, ⟨3, 30, 3, 6⟩⟩, .memory .empty, none, .none⟩
    let genesis : Genesis := ⟨.whole "Token", .whole "TOK", 2,
      [⟨.whole "alice", ⟨70, by decide⟩⟩, ⟨.whole "carol", ⟨30, by decide⟩⟩,
        ⟨.whole "alice", ⟨50, by decide⟩⟩]⟩
    let calls : List Call :=
      [.execute "alice" (.typed (.transfer "carol" .zero)),
        .instantiate "alice" (.typed genesis), .instantiate "carol" (.typed genesis),
        .execute "alice" (.typed (.transfer "alice" ⟨20, by decide⟩)),
        .execute "carol" (.typed (.burn ⟨10, by decide⟩)),
        .execute "carol" (.typed (.transfer "alice" ⟨60, by decide⟩))]
    (∀ key, host.store.get? key = none) ∧
      (host.afterAll calls).holders = .ok [("alice", ⟨50, by decide⟩), ("carol", ⟨20, by decide⟩)] ∧
      Ledger.configView.get? (host.afterAll calls).store Ledger.supplyKey =
        some (Amount.toBytes ⟨70, by decide⟩) ∧
      AddsUp (host.afterAll calls) := by
  intro host genesis calls
  have hempty : ∀ key, host.store.get? key = none := fun _ => rfl
  exact ⟨hempty, by decide +kernel, by decide +kernel, addsUp_afterAll host hempty calls⟩

end FungibleLedger.Host
