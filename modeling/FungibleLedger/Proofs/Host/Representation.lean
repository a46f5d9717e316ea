import FungibleLedger.Proofs.Host.Starts
import FungibleLedger.Proofs.Ledger.Layout

/-!
# What the stores of runs look like

Every store that a run from an empty one gets to is laid out in one way, `Ledger.Represents`, and
accounts with a balance record keep one (`Host.represents_afterAll`). The clauses about keys and
values are one invariant on records, `Ledger.Lawful`, which the writes of a step keep one by one;
that the metadata and the supply come together is in `Ledger.Sound`.
-/

namespace FungibleLedger

namespace Ledger

/-- The layout of a store. Every key is that of one place; the metadata and the supply are recorded
together; amounts have sixteen bytes and a recorded allowance is not zero; and the metadata can be
read and meets the rules of the ledger. -/
structure Represents (l : Ledger) (s : Store) : Prop where
  keys : ∀ key, s.get? key ≠ none → ∃! place : Place, place.Fits ∧ key = place.key
  together : s.get? metadataPlace = none ↔ s.get? Slot.supply.key = none
  widths : ∀ slot : Slot, slot.Fits → ∀ raw, s.get? slot.key = some raw → raw.length = 16
  grants : ∀ owner spender raw, (Slot.allowance owner spender).Fits →
    s.get? (Slot.allowance owner spender).key = some raw → Amount.decode raw ≠ .ok .zero
  metadata : ∀ raw, s.get? metadataPlace = some raw →
    ∃ metadata, Metadata.ofBytes raw = .ok metadata ∧ l.Accepts metadata

theorem represents_of_lawful {l : Ledger} {s : Store} (hs : l.Lawful s) (hsound : Sound s) :
    l.Represents s where
  keys key hkey := by
    obtain ⟨raw, hraw⟩ := Option.ne_none_iff_exists'.1 hkey
    obtain ⟨place, hfits, rfl, -⟩ := hs key raw hraw
    exact ⟨place, ⟨hfits, rfl⟩, fun other hother => Place.key_inj hother.1 hfits hother.2.symm⟩
  together := by
    have hsupply : s.get? Slot.supply.key = (Token.ofStore s).supply.map Amount.toBytes :=
      hsound.get?_supply
    rw [hsound.started, hsupply, Option.map_eq_none_iff]
  widths slot hfits raw hraw := hsound.readable slot hfits raw hraw
  grants owner spender raw hfits hraw hzero := by
    have hplace : (Place.number (.allowance owner spender)).Fits := hfits
    obtain ⟨amount, hbytes, hadmits⟩ := hs.holds hplace hraw
    rw [hbytes, Amount.decode_toBytes] at hzero
    cases hzero
    exact hadmits rfl
  metadata raw hraw := by
    have hplace : Place.metadata.Fits := trivial
    obtain ⟨metadata, hbytes, haccepts⟩ := hs.holds hplace hraw
    rw [hbytes]
    exact ⟨metadata, Metadata.ofBytes_toBytes metadata, haccepts⟩

end Ledger

namespace Host

variable {h h' : Host} {applied : Option (String × Order)}

/-- A step changes the store by writes of the ledger, and the rules stay. -/
theorem Step.writes (hstep : Step h applied h') :
    h'.ledger = h.ledger ∧ ∃ mutations : List Mutation,
      (∀ mutation ∈ mutations, h.ledger.CallWrite mutation) ∧
        ∀ key, h'.store.get? key = (h.store.applyBatch mutations).get? key := by
  cases hstep with
  | idle => exact ⟨rfl, [], nofun, fun _ => rfl⟩
  | started hfresh hrun =>
    obtain ⟨mutations, hmutations, hstore⟩ := run_writes (h.ledger.writesOnly_instantiate _) hrun
    have hwrites : ∀ mutation ∈ mutations, h.ledger.CallWrite mutation :=
      fun mutation hmem => Ledger.callWrite_of_genesisWrite (hmutations mutation hmem)
    exact ⟨rfl, mutations, hwrites, hstore⟩
  | applied hrun =>
    obtain ⟨mutations, hmutations, hstore⟩ := run_writes (Ledger.writesOnly_carryOut _ _) hrun
    have hwrites : ∀ mutation ∈ mutations, h.ledger.CallWrite mutation :=
      fun mutation hmem => Or.inl ⟨_, hmutations mutation hmem⟩
    exact ⟨rfl, mutations, hwrites, hstore⟩

theorem Step.lawful (hstep : Step h applied h') (hs : h.ledger.Lawful h.store) :
    h'.ledger.Lawful h'.store := by
  obtain ⟨hledger, mutations, hwrites, hstore⟩ := hstep.writes
  rw [hledger]
  exact (hs.applyBatch hwrites).congr fun key => (hstore key).symm

theorem Step.keeps_balance (hstep : Step h applied h') {account : String}
    (hrecord : Ledger.balanceView.get? h.store (utf8 account) ≠ none) :
    Ledger.balanceView.get? h'.store (utf8 account) ≠ none := by
  obtain ⟨-, mutations, hwrites, hstore⟩ := hstep.writes
  have hkept : ((Slot.balance account).key, none) ∉ mutations := by
    intro hmem
    have hbalance : ¬ (Slot.balance account).Admits none := fun hadmits => hadmits rfl
    exact (hwrites _ hmem).isSome (Slot.fits_balance account) hbalance rfl
  have hafter := Store.get?_applyBatch_ne_none hrecord hkept
  rw [← hstore] at hafter
  exact hafter

theorem ledger_afterAll (h : Host) (calls : List Call) : (h.afterAll calls).ledger = h.ledger :=
  afterAll_induction (P := fun _ h' => h'.ledger = h.ledger) rfl
    (fun _ _ _ _ hsame hstep => hstep.writes.1.trans hsame) calls

theorem ledger_after (h : Host) (call : Call) : (h.after call).ledger = h.ledger :=
  h.ledger_afterAll [call]

theorem lawful_afterAll (hempty : ∀ key, h.store.get? key = none) (calls : List Call) :
    h.ledger.Lawful (h.afterAll calls).store := by
  have hstart : h.ledger.Lawful h.store := by
    intro key raw hraw
    rw [hempty] at hraw
    cases hraw
  have hlawful := afterAll_induction (P := fun _ h' => h'.ledger.Lawful h'.store) hstart
    (fun _ _ _ _ hs hstep => hstep.lawful hs) calls
  rw [ledger_afterAll] at hlawful
  exact hlawful

theorem balance_afterAll {account : String}
    (hrecord : Ledger.balanceView.get? h.store (utf8 account) ≠ none) (calls : List Call) :
    Ledger.balanceView.get? (h.afterAll calls).store (utf8 account) ≠ none :=
  afterAll_induction (P := fun _ h' => Ledger.balanceView.get? h'.store (utf8 account) ≠ none)
    hrecord (fun _ _ _ _ hkept hstep => hstep.keeps_balance hkept) calls

/-- Every store that a run from an empty one gets to has the layout of its ledger, and an account
that has a balance record in it has one after all later calls. -/
theorem represents_afterAll (h : Host) (hempty : ∀ key, h.store.get? key = none)
    (calls : List Call) :
    h.ledger.Represents (h.afterAll calls).store ∧
      ∀ account, Ledger.balanceView.get? (h.afterAll calls).store (utf8 account) ≠ none →
        ∀ later,
          Ledger.balanceView.get? (h.afterAll (calls ++ later)).store (utf8 account) ≠ none := by
  refine ⟨Ledger.represents_of_lawful (lawful_afterAll hempty calls) (sound_afterAll hempty calls),
    fun account hrecord later => ?_⟩
  rw [afterAll_append]
  exact balance_afterAll hrecord later

/-- A run that uses an allowance up, moves a whole balance away and fails after some writes. The
allowance goes and the balance record stays. -/
theorem represents_afterAll_eventful :
    let host : Host := ⟨⟨.simple, ⟨3, 30, 3, 6⟩⟩, .memory .empty, none, .none⟩
    let genesis : Genesis :=
      ⟨.whole "Token", .whole "TOK", 6, [⟨.whole "alice", ⟨70, by decide⟩⟩]⟩
    let calls : List Call :=
      [.instantiate "alice" (.typed genesis),
        .execute "alice" (.typed (.approve "bob" ⟨70, by decide⟩)),
        .execute "bob" (.typed (.transferFrom "alice" "carol" ⟨80, by decide⟩))]
    let later : List Call :=
      [.execute "bob" (.typed (.transferFrom "alice" "carol" ⟨70, by decide⟩))]
    (∀ key, host.store.get? key = none) ∧
      host.ledger.Represents (host.afterAll (calls ++ later)).store ∧
      Ledger.balanceView.get? (host.afterAll (calls ++ later)).store (utf8 "alice") ≠ none ∧
      (host.afterAll calls).store.get? (Slot.allowance "alice" "bob").key =
        some (Amount.toBytes ⟨70, by decide⟩) ∧
      (host.afterAll (calls ++ later)).store.get? (Slot.allowance "alice" "bob").key = none := by
  intro host genesis calls later
  have hempty : ∀ key, host.store.get? key = none := fun _ => rfl
  have hrecord : Ledger.balanceView.get? (host.afterAll calls).store (utf8 "alice") ≠ none := by
    decide +kernel
  exact ⟨hempty, (represents_afterAll host hempty (calls ++ later)).1,
    (represents_afterAll host hempty calls).2 "alice" hrecord later,
    by decide +kernel, by decide +kernel⟩

end Host

end FungibleLedger
