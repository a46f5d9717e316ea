import FungibleLedger.Proofs.Host.Starts

/-!
# What a start leaves for good

A run starts its ledger at most once, and from then on its host keeps to the genesis that did:
`Host.write_once`. The name, the symbol and the decimal places that the host tells are those of the
genesis, and the supply is what the genesis seeded less what was burned since.
-/

namespace FungibleLedger.Host

variable {h : Host} {call : Call} {metadata : Metadata} {supply : Amount}

/-! ## The record of the supply -/

/-- The record of the total supply. -/
def supplyRecord (h : Host) : Option Bytes :=
  Ledger.configView.get? h.store Ledger.supplyKey

theorem supplyRecord_of_not_started (hempty : ∀ key, h.store.get? key = none)
    {calls : List Call} (hstarts : h.starts calls = []) :
    (h.afterAll calls).supplyRecord = none := by
  rw [supplyRecord, (sound_afterAll hempty calls).get?_supply,
    supply_of_not_started hempty hstarts, Option.map_none]

/-- After the start a call that changes the record of the supply has burned. -/
theorem burn_of_supplyRecord (hs : Ledger.Started h.store metadata supply)
    (hchanged : (h.after call).supplyRecord ≠ h.supplyRecord) :
    ∃ sender amount, h.applied? call = some (sender, .burn amount) := by
  have hnone := started?_of_initialized (isInitialized_of_started hs) call
  rcases after_of_not_started hnone with
    hsame | ⟨sender, order, response, store, happlied, hrun, hafter⟩
  · rw [hsame] at hchanged
    exact absurd rfl hchanged
  · refine ⟨sender, ?_⟩
    by_contra hburn
    obtain ⟨token, htoken, -, rfl⟩ := token_of_run hs.sound.readable hrun
    have hsupply : (Token.ofStore store).supply = (Token.ofStore h.store).supply := by
      apply Token.supply_of_not_burn htoken
      intro amount heq
      exact hburn ⟨amount, by rw [happlied, heq]⟩
    apply hchanged
    rw [hafter, supplyRecord, supplyRecord, (sound_of_applied hs.sound hrun).get?_supply,
      hs.sound.get?_supply, hsupply]

/-! ## The genesis as the host shows it -/

/-- What a host shows of the genesis that started its ledger. No genesis that can be read starts it
again, the record of the metadata is that of the genesis, and so is what is said of the token; of
the supply that was seeded, what was burned is missing. -/
structure Keeps (h : Host) (metadata : Metadata) (seeded burned : ℕ) : Prop where
  closed : ∀ sender message genesis, message.genesis? = some genesis →
    (h.instantiate sender message).result = .error .alreadyStarted
  recorded : Ledger.configView.get? h.store Ledger.metadataKey = some metadata.toBytes
  answers : ∃ supply : Amount, supply.val + burned = seeded ∧
    ∀ message, message.query? = some .tokenInfo →
      h.query message = .ok (.tokenInfo metadata supply)
  burns : ∀ call, (h.after call).supplyRecord ≠ h.supplyRecord →
    ∃ sender amount, h.applied? call = some (sender, .burn amount)

theorem keeps_of_started {seeded burned : ℕ} (hs : Ledger.Started h.store metadata supply)
    (hsum : supply.val + burned = seeded) : h.Keeps metadata seeded burned where
  closed sender message genesis hmessage := by
    rw [h.instantiate_eq_typed sender hmessage,
      h.instantiateTyped_of_initialized sender genesis (isInitialized_of_started hs),
      silently_result]
  recorded := hs.metadata_eq
  answers := by
    refine ⟨supply, hsum, fun message hmessage => ?_⟩
    rw [query_eq_typed h hmessage]
    exact hs.tokenInfo
  burns call := burn_of_supplyRecord hs

/-- In every run from an empty store the ledger is started once at most. Before that there is no
supply, and from then on the host keeps to the genesis that started the ledger: no other follows,
its metadata stays as it is, byte for byte and in every answer, and only burning changes the
supply. -/
theorem write_once (h : Host) (hempty : ∀ key, h.store.get? key = none) :
    (∀ calls, (h.starts calls).length ≤ 1 ∧
      (h.starts calls = [] → (h.afterAll calls).supplyRecord = none)) ∧
    ∀ before call genesis, (h.afterAll before).started? call = some genesis →
      ∃ metadata, genesis.Describes metadata ∧ ∀ later,
        (h.afterAll (before ++ call :: later)).Keeps metadata genesis.supply
          (burned ((h.afterAll (before ++ [call])).applied later)) := by
  refine ⟨fun calls => ⟨length_starts_le_one h calls, supplyRecord_of_not_started hempty⟩, ?_⟩
  intro before call genesis hstart
  obtain ⟨metadata, supply, hdescribes, hseeded, hs⟩ :=
    started_after (sound_afterAll hempty before) hstart
  refine ⟨metadata, hdescribes, fun later => ?_⟩
  rw [← afterAll_concat] at hs
  obtain ⟨rest, hrest, hburned⟩ := started_afterAll hs later
  rw [List.append_cons, afterAll_append]
  exact keeps_of_started hrest (hburned.trans hseeded)

/-- A run with a genesis that has too many decimal places, one that seeds an address twice, a third
one, a burn, a burn of too much and a transfer. -/
theorem write_once_eventful :
    let host : Host := ⟨⟨.simple, ⟨3, 30, 3, 6⟩⟩, .memory .empty, none, .none⟩
    let seeds : List Seed := [⟨.whole "alice", ⟨70, by decide⟩⟩, ⟨.whole "carol", ⟨30, by decide⟩⟩,
      ⟨.whole "alice", ⟨50, by decide⟩⟩]
    let genesis : Genesis := ⟨.whole "Tök\"en\n", .whole "TOK", 2, seeds⟩
    let before : List Call :=
      [.execute "alice" (.typed (.transfer "carol" .zero)),
        .instantiate "alice" (.typed ⟨.whole "Token", .whole "TOK", 19, seeds⟩)]
    let call : Call := .instantiate "alice" (.typed genesis)
    let later : List Call :=
      [.instantiate "carol" (.typed ⟨.whole "Other", .whole "OTHER", 0, []⟩),
        .execute "carol" (.typed (.burn ⟨10, by decide⟩)),
        .execute "carol" (.typed (.burn ⟨60, by decide⟩)),
        .execute "alice" (.typed (.transfer "carol" ⟨20, by decide⟩))]
    (∀ key, host.store.get? key = none) ∧
      (host.afterAll before).started? call = some genesis ∧
      host.starts (before ++ call :: later) = [genesis] ∧
      (host.afterAll (before ++ call :: later)).query (.typed .tokenInfo) =
        .ok (.tokenInfo ⟨"Tök\"en\n", "TOK", 2⟩ ⟨70, by decide⟩) := by
  intro host seeds genesis before call later
  have hempty : ∀ key, host.store.get? key = none := fun _ => rfl
  have hstart : (host.afterAll before).started? call = some genesis := by decide +kernel
  have hburned : burned ((host.afterAll (before ++ [call])).applied later) = 10 := by
    decide +kernel
  have hseeded : genesis.supply = 80 := by decide +kernel
  obtain ⟨metadata, hdescribes, hkeeps⟩ := (write_once host hempty).2 before call genesis hstart
  obtain ⟨supply, hsum, hanswer⟩ := (hkeeps later).answers
  have hmetadata : metadata = ⟨"Tök\"en\n", "TOK", 2⟩ :=
    hdescribes.unique ⟨rfl, rfl, rfl⟩
  have hsupply : supply = ⟨70, by decide⟩ := by
    apply Amount.ext_val
    show supply.val = 70
    omega
  refine ⟨hempty, hstart, by decide +kernel, ?_⟩
  rw [← hmetadata, ← hsupply]
  exact hanswer _ rfl

end FungibleLedger.Host
