import FungibleLedger.Proofs.Host.Refinement
import FungibleLedger.Proofs.Host.Runs
import FungibleLedger.Proofs.Ledger.Genesis

/-!
# The invariant of runs

`Ledger.Sound` is what every store has in common that a run from an empty one gets to
(`Host.sound_afterAll`). Two things can happen to a sound store. A genesis finds it without metadata
and so without a supply, which means that all balances are zero; and an order changes the sum of the
balances as it changes the supply.
-/

namespace FungibleLedger

namespace Ledger

/-- What holds of the stores of all runs: records of amounts have the width of one, there are no
stray keys, the balances add up to the supply, and the supply is recorded when the metadata is. -/
structure Sound (s : Store) : Prop where
  readable : Readable s
  tidy : Tidy s
  conserved : (Token.ofStore s).total = (Token.ofStore s).supplyOf.val
  started : s.get? metadataPlace = none ↔ (Token.ofStore s).supply = none

theorem amount?_of_empty {s : Store} (h : ∀ key, s.get? key = none) (slot : Slot) :
    s.amount? slot = none := by
  rw [Store.amount?, h]
  split <;> rfl

theorem sound_of_empty {s : Store} (h : ∀ key, s.get? key = none) : Sound s := by
  have hsupply : (Token.ofStore s).supply = none := amount?_of_empty h .supply
  have hbalance : ∀ account, (Token.ofStore s).balanceOf account = .zero := by
    intro account
    rw [Token.balanceOf_ofStore, amount?_of_empty h, Option.getD_none]
  refine ⟨readable_of_empty h, fun key raw hraw => ?_, ?_, ?_⟩
  · rw [h] at hraw
    cases hraw
  · rw [Token.total_eq_zero hbalance, Token.supplyOf, hsupply, Option.getD_none, Amount.val_zero]
  · exact iff_of_true (h _) hsupply

/-- Before the start of a ledger all balances are zero. -/
theorem Sound.balance_eq_zero {s : Store} (hs : Sound s)
    (hsupply : (Token.ofStore s).supply = none) (account : String) :
    (Token.ofStore s).balanceOf account = .zero := by
  apply Token.eq_zero_of_total (Token.finite_ofStore s)
  rw [hs.conserved, Token.supplyOf, hsupply, Option.getD_none, Amount.val_zero]

theorem Tidy.congr {s t : Store} (h : ∀ key, s.get? key = t.get? key) (hs : Tidy s) : Tidy t :=
  fun key raw hraw => hs key raw ((h key).trans hraw)

theorem Sound.congr {s t : Store} (h : ∀ key, s.get? key = t.get? key) (hs : Sound s) :
    Sound t := by
  have htoken : Token.ofStore t = Token.ofStore s := (Token.ofStore_congr h).symm
  refine ⟨hs.readable.congr h, hs.tidy.congr h, ?_, ?_⟩
  · rw [htoken]
    exact hs.conserved
  · rw [← h, htoken]
    exact hs.started

theorem isKey_of_write {places : List Slot} {mutation : Mutation}
    (h : Slot.Write places mutation) : IsKey mutation.1 := by
  obtain ⟨slot, -, hfits, hkey, -⟩ := h
  exact Or.inr ⟨slot, hfits, hkey⟩

theorem isKey_of_genesisWrite {l : Ledger} {g : Genesis} {mutation : Mutation}
    (h : GenesisWrite l g mutation) : IsKey mutation.1 := by
  rcases h with hslot | ⟨metadata, -, rfl⟩
  · exact isKey_of_write hslot
  · exact Or.inl rfl

end Ledger

namespace Host

variable {h h' : Host}

theorem tidy_run {α : Type} {allowed : Mutation → Prop} {x : Ledger.Action α}
    (hx : Ledger.WritesOnly allowed x) (hallowed : ∀ m, allowed m → Ledger.IsKey m.1)
    {store after : Store} {result : Except Failure α} (hstore : Ledger.Tidy store)
    (hrun : run store x = (result, after)) : Ledger.Tidy after := by
  obtain ⟨mutations, hmutations, hafter⟩ := run_writes hx hrun
  have hbatch := hstore.applyBatch fun m hm => hallowed m (hmutations m hm)
  exact hbatch.congr fun key => (hafter key).symm

theorem get?_metadataPlace_of_fresh (hfresh : h.isInitialized = false) :
    h.store.get? Ledger.metadataPlace = none := by
  have hnone : (h.store.get? Ledger.metadataPlace).isSome = false := hfresh
  simpa using hnone

theorem sound_of_started {g : Genesis} {response : Response} {store after : Store} {l : Ledger}
    (hsound : Ledger.Sound store) (hmetadata : store.get? Ledger.metadataPlace = none)
    (hrun : run store (l.instantiate g) = (.ok response, after)) : Ledger.Sound after := by
  have hwrites := l.writesOnly_instantiate g
  obtain ⟨buffer, hbuffer, hafter⟩ := run_ok hwrites hrun
  have hzero : ∀ account, (Token.ofStore store.buffer).balanceOf account = .zero := by
    rw [ofStore_buffer]
    exact hsound.balance_eq_zero (hsound.started.1 hmetadata)
  obtain ⟨hreadable, hrecorded, supply, hsupply, htotal⟩ :=
    Ledger.instantiate_total (readable_buffer hsound.readable) hzero hbuffer
  rw [← Token.ofStore_congr hafter] at hsupply htotal
  refine ⟨hreadable.congr fun key => (hafter key).symm,
    tidy_run hwrites (fun _ => Ledger.isKey_of_genesisWrite) hsound.tidy hrun, ?_, ?_⟩
  · rw [htotal, Token.supplyOf, hsupply, Option.getD_some]
  · rw [hafter, hsupply]
    exact ⟨fun hnone => absurd hnone hrecorded, nofun⟩

/-- No order writes the metadata. -/
theorem get?_metadataPlace_run (sender : String) (order : Order) (store : Store) :
    (run store (Ledger.carryOut sender order)).2.get? Ledger.metadataPlace =
      store.get? Ledger.metadataPlace :=
  get?_run_of_notMem (Ledger.writesOnly_carryOut sender order) store
    fun slot _ => (slot.key_ne_metadataPlace).symm

theorem sound_of_applied {sender : String} {order : Order} {response : Response}
    {store after : Store} (hsound : Ledger.Sound store)
    (hrun : run store (Ledger.carryOut sender order) = (.ok response, after)) :
    Ledger.Sound after := by
  have hwrites := Ledger.writesOnly_carryOut sender order
  obtain ⟨token, htoken, hreadable, rfl⟩ := token_of_run hsound.readable hrun
  obtain ⟨htotal, hsupply⟩ := Token.carryOut_total (Token.finite_ofStore store) htoken
  refine ⟨hreadable, tidy_run hwrites (fun _ => Ledger.isKey_of_write) hsound.tidy hrun, ?_, ?_⟩
  · have hconserved := hsound.conserved
    omega
  · have hsame := get?_metadataPlace_run sender order store
    rw [hrun] at hsame
    rw [hsame, hsound.started, hsupply]

theorem Step.sound {order : Option (String × Order)} (hstep : Step h order h')
    (hsound : Ledger.Sound h.store) : Ledger.Sound h'.store := by
  cases hstep with
  | idle => exact hsound
  | started hfresh hrun =>
    exact sound_of_started hsound (get?_metadataPlace_of_fresh hfresh) hrun
  | applied hrun => exact sound_of_applied hsound hrun

theorem sound_afterAll (hempty : ∀ key, h.store.get? key = none) (calls : List Call) :
    Ledger.Sound (h.afterAll calls).store :=
  afterAll_induction (P := fun _ h => Ledger.Sound h.store) (Ledger.sound_of_empty hempty)
    (fun _ _ _ _ hsound hstep => hstep.sound hsound) calls

end Host

end FungibleLedger
