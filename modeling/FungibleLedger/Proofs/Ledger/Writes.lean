import FungibleLedger.Proofs.Ledger.Orders
import FungibleLedger.Proofs.Ledger.Records

/-!
# What actions write

An action changes its store by writes alone, whether it ends well or fails. `Ledger.WritesOnly`
names the writes that an action may make. The predicate is closed under the ways in which actions
are put together, so it is read off a command or a genesis piece by piece.

* `Slot.Write` : a write of an amount to the record of one of some places. Balances and the supply
  are never removed, and an allowance of zero is never written.
* `Ledger.writesOnly_execute` : a command writes to the places of its footprint.
* `Ledger.writesOnly_instantiate` : a genesis writes the balances of its seeds, the supply and the
  metadata.
-/

namespace FungibleLedger

namespace Slot

/-- A write of a number, or of none, to the record of one of some places. -/
def Write (slots : List Slot) (mutation : Mutation) : Prop :=
  ∃ slot ∈ slots, slot.Fits ∧ mutation.1 = slot.key ∧
    ∃ value : Option Amount, slot.Admits value ∧ mutation.2 = value.map Amount.toBytes

theorem Write.mono {small large : List Slot} (h : small ⊆ large) {mutation : Mutation}
    (hwrite : Write small mutation) : Write large mutation := by
  obtain ⟨slot, hslot, hrest⟩ := hwrite
  exact ⟨slot, h hslot, hrest⟩

end Slot

namespace Ledger

variable {α β : Type} {allowed : Mutation → Prop}

/-! ## Closure -/

/-- The store that an action leaves, whether it ends well or fails. -/
def left (x : Action α) (s : Store) : Store :=
  match EStateM.run x s with
  | .ok _ s' => s'
  | .error _ s' => s'

/-- An action makes only writes of a kind. -/
def WritesOnly (allowed : Mutation → Prop) (x : Action α) : Prop :=
  ∀ s, ∃ mutations : List Mutation,
    (∀ mutation ∈ mutations, allowed mutation) ∧ left x s = s.applyBatch mutations

theorem WritesOnly.mono {larger : Mutation → Prop}
    (h : ∀ mutation, allowed mutation → larger mutation) {x : Action α}
    (hx : WritesOnly allowed x) : WritesOnly larger x := by
  intro s
  obtain ⟨mutations, hallowed, hleft⟩ := hx s
  exact ⟨mutations, fun mutation hmem => h mutation (hallowed mutation hmem), hleft⟩

theorem writesOnly_pure (a : α) : WritesOnly allowed (pure a : Action α) :=
  fun _ => ⟨[], by simp, rfl⟩

theorem writesOnly_throw (e : Failure) : WritesOnly allowed (throw e : Action α) :=
  fun _ => ⟨[], by simp, rfl⟩

theorem writesOnly_get : WritesOnly allowed (get : Action Store) :=
  fun _ => ⟨[], by simp, rfl⟩

theorem writesOnly_lift (e : Except Failure α) : WritesOnly allowed (lift e) := by
  cases e with
  | ok a => exact writesOnly_pure a
  | error e => exact writesOnly_throw e

theorem writesOnly_write {key : Bytes} {value : Option Bytes} (h : allowed (key, value)) :
    WritesOnly allowed (modify fun s => s.write key value : Action Unit) :=
  fun _ => ⟨[(key, value)], by simpa using h, rfl⟩

theorem WritesOnly.bind {x : Action α} {f : α → Action β} (hx : WritesOnly allowed x)
    (hf : ∀ a, WritesOnly allowed (f a)) : WritesOnly allowed (x >>= f) := by
  intro s
  obtain ⟨first, hfirst, hleft⟩ := hx s
  simp only [left, EStateM.run_bind] at hleft ⊢
  cases hrun : EStateM.run x s with
  | error e s' =>
    rw [hrun] at hleft
    exact ⟨first, hfirst, hleft⟩
  | ok a s' =>
    rw [hrun] at hleft
    obtain ⟨second, hsecond, hleft'⟩ := hf a s'
    refine ⟨first ++ second, fun mutation hmem => ?_, ?_⟩
    · rcases List.mem_append.1 hmem with hmem | hmem
      · exact hfirst mutation hmem
      · exact hsecond mutation hmem
    · rw [Store.applyBatch_append, ← hleft, ← hleft']
      rfl

/-- What follows a computation without a store may rely on its value. -/
theorem writesOnly_lift_bind {e : Except Failure α} {f : α → Action β}
    (hf : ∀ a, e = .ok a → WritesOnly allowed (f a)) : WritesOnly allowed (lift e >>= f) := by
  cases e with
  | ok a =>
    show WritesOnly allowed (pure a >>= f)
    rw [pure_bind]
    exact hf a rfl
  | error e => exact fun _ => ⟨[], by simp, rfl⟩

theorem WritesOnly.ite {p : Prop} [Decidable p] {x y : Action α} (hx : p → WritesOnly allowed x)
    (hy : ¬ p → WritesOnly allowed y) : WritesOnly allowed (if p then x else y) := by
  split
  · next hp => exact hx hp
  · next hp => exact hy hp

/-! ## Reading and writing amounts -/

theorem writesOnly_readBalance (account : String) : WritesOnly allowed (readBalance account) :=
  writesOnly_get.bind fun _ => writesOnly_lift _

theorem writesOnly_readAllowance (owner spender : String) :
    WritesOnly allowed (readAllowance owner spender) :=
  writesOnly_get.bind fun _ => writesOnly_lift _

theorem writesOnly_writeAmount {slots : List Slot} {slot : Slot} (hmem : slot ∈ slots)
    (hfits : slot.Fits) {view : View} {key : Bytes} (hkey : view.path ++ key = slot.key) {n : Int}
    (hadmits : ∀ amount : Amount, amount.val = n → slot.Admits (some amount)) :
    WritesOnly (Slot.Write slots) (writeAmount view key n) := by
  unfold writeAmount
  apply writesOnly_lift_bind
  intro bytes hbytes
  obtain ⟨amount, hval, rfl⟩ := Amount.exists_of_encode (ok_of_mapError hbytes)
  apply writesOnly_write
  exact ⟨slot, hmem, hfits, hkey, some amount, hadmits amount hval, rfl⟩

theorem writesOnly_writeBalance {slots : List Slot} {account : String}
    (hmem : Slot.balance account ∈ slots) (n : Int) :
    WritesOnly (Slot.Write slots) (writeBalance account n) := by
  apply writesOnly_writeAmount hmem (Slot.fits_balance account) rfl
  intro amount _ hnone
  cases hnone

theorem writesOnly_writeSupply {slots : List Slot} (hmem : Slot.supply ∈ slots) (n : Int) :
    WritesOnly (Slot.Write slots) (writeAmount configView supplyKey n) := by
  apply writesOnly_writeAmount hmem Slot.fits_supply rfl
  intro amount _ hnone
  cases hnone

theorem writesOnly_writeAllowance {slots : List Slot} {owner spender : String}
    (hmem : Slot.allowance owner spender ∈ slots) (n : Int) :
    WritesOnly (Slot.Write slots) (writeAllowance owner spender n) := by
  unfold writeAllowance
  apply writesOnly_lift_bind
  intro view hview
  have hfits : (utf8 owner).length ≤ Namespace.limit := by
    by_contra hlong
    rw [allowanceView_of_lt (Nat.lt_of_not_le hlong)] at hview
    cases hview
  rw [allowanceView_of_le hfits] at hview
  cases hview
  have hkey := Slot.append_eq_key owner spender
  apply WritesOnly.ite
  · intro _
    apply writesOnly_write
    exact ⟨.allowance owner spender, hmem, hfits, hkey, none, nofun, rfl⟩
  · intro hn
    apply writesOnly_writeAmount hmem hfits hkey
    intro amount hval hzero
    cases hzero
    exact hn hval.symm

/-! ## Orders -/

theorem writesOnly_move {slots : List Slot} {sender recipient : String}
    (hsender : Slot.balance sender ∈ slots) (hrecipient : Slot.balance recipient ∈ slots)
    (amount : Amount) : WritesOnly (Slot.Write slots) (move sender recipient amount) := by
  unfold move
  refine (writesOnly_readBalance sender).bind fun balance => ?_
  apply WritesOnly.ite
  · intro _
    exact writesOnly_throw _
  · intro _
    refine (writesOnly_writeBalance hsender _).bind fun _ => ?_
    refine (writesOnly_readBalance recipient).bind fun credited => ?_
    refine (writesOnly_lift _).bind fun total => ?_
    exact writesOnly_writeBalance hrecipient total

theorem writesOnly_carryOut (sender : String) (order : Order) :
    WritesOnly (Slot.Write (order.footprint sender)) (carryOut sender order) := by
  cases order with
  | transfer recipient amount =>
    refine (writesOnly_move (by simp [Order.footprint]) (by simp [Order.footprint])
      amount).bind fun _ => ?_
    exact writesOnly_pure _
  | approve spender amount =>
    refine (writesOnly_writeAllowance (by simp [Order.footprint]) _).bind fun _ => ?_
    exact writesOnly_pure _
  | transferFrom owner recipient amount =>
    refine (writesOnly_readAllowance _ _).bind fun allowance => ?_
    apply WritesOnly.ite
    · intro _
      exact writesOnly_throw _
    · intro _
      refine (writesOnly_writeAllowance (by simp [Order.footprint]) _).bind fun _ => ?_
      refine (writesOnly_move (by simp [Order.footprint]) (by simp [Order.footprint])
        amount).bind fun _ => ?_
      exact writesOnly_pure _
  | burn amount =>
    refine (writesOnly_readBalance sender).bind fun balance => ?_
    apply WritesOnly.ite
    · intro _
      exact writesOnly_throw _
    · intro _
      refine (writesOnly_writeBalance (by simp [Order.footprint]) _).bind fun _ => ?_
      refine writesOnly_get.bind fun s => ?_
      cases configView.get? s supplyKey with
      | none => exact writesOnly_throw _
      | some raw =>
        refine (writesOnly_lift _).bind fun supply => ?_
        refine (writesOnly_lift _).bind fun rest => ?_
        refine (writesOnly_writeSupply (by simp [Order.footprint]) _).bind fun _ => ?_
        exact writesOnly_pure _

/-! ## Commands -/

theorem writesOnly_execute (l : Ledger) (sender : AnyText) (command : Command) :
    WritesOnly (Slot.Write (command.footprint sender)) (l.execute sender command) := by
  apply writesOnly_lift_bind
  rintro ⟨account, order⟩ hresolve
  rw [footprint_of_resolve hresolve]
  exact writesOnly_carryOut account order

/-! ## Genesis -/

/-- The places that a genesis writes: the balances of the seeds whose address is whole, and the
supply. -/
def genesisSlots (g : Genesis) : List Slot :=
  .supply :: (g.seeds.filterMap fun seed => seed.address.whole?).map .balance

/-- A write of a genesis: of one of its numbers, or of the metadata that it describes. -/
def GenesisWrite (l : Ledger) (g : Genesis) (mutation : Mutation) : Prop :=
  Slot.Write (genesisSlots g) mutation ∨
    ∃ metadata, l.metadataOf g = .ok metadata ∧
      mutation = (metadataPlace, some metadata.toBytes)

theorem writesOnly_seedBalances (l : Ledger) (total : Int) (seeded : List (String × Amount))
    (seeds : List Seed) {slots : List Slot}
    (hslots : ∀ seed ∈ seeds, ∀ address, seed.address = .whole address →
      Slot.balance address ∈ slots) :
    WritesOnly (Slot.Write slots) (seedBalances l total seeded seeds) := by
  induction seeds generalizing total seeded with
  | nil => exact writesOnly_pure total
  | cons seed rest ih =>
    unfold seedBalances
    apply writesOnly_lift_bind
    intro address haddress
    have hmem := hslots seed List.mem_cons_self address (eq_of_addressOf haddress)
    refine (writesOnly_writeBalance hmem _).bind fun _ => ?_
    refine (writesOnly_lift _).bind fun total => ?_
    exact ih _ _ fun seed' hseed' => hslots seed' (List.mem_cons_of_mem _ hseed')

theorem writesOnly_instantiate (l : Ledger) (g : Genesis) :
    WritesOnly (GenesisWrite l g) (l.instantiate g) := by
  have hseeds : ∀ seed ∈ g.seeds, ∀ address, seed.address = .whole address →
      Slot.balance address ∈ genesisSlots g := by
    intro seed hseed address haddress
    refine List.mem_cons_of_mem _ (List.mem_map.2 ⟨address, ?_, rfl⟩)
    exact List.mem_filterMap.2 ⟨seed, hseed, by rw [haddress]; rfl⟩
  have hslot : ∀ mutation, Slot.Write (genesisSlots g) mutation → GenesisWrite l g mutation :=
    fun _ => Or.inl
  unfold instantiate
  refine ((writesOnly_seedBalances l 0 [] g.seeds hseeds).mono hslot).bind fun total => ?_
  apply writesOnly_lift_bind
  intro metadata hmetadata
  have hmetadata : WritesOnly (GenesisWrite l g)
      (modify fun s => configView.set s metadataKey metadata.toBytes : Action Unit) :=
    writesOnly_write (Or.inr ⟨metadata, hmetadata, rfl⟩)
  refine hmetadata.bind fun _ => ?_
  refine ((writesOnly_writeSupply (by simp [genesisSlots]) total).mono hslot).bind fun _ => ?_
  exact writesOnly_pure _

end Ledger

end FungibleLedger
