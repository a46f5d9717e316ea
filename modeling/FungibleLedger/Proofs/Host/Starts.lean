import FungibleLedger.Proofs.Host.Invariant
import FungibleLedger.Proofs.Ledger.Balances
import FungibleLedger.Proofs.Metadata

/-!
# The start of a ledger

A run starts its ledger at most once (`Host.length_starts_le_one`). What tells a started ledger from
one that is not is its metadata record: a call that starts the ledger writes it, and no other call
does (`Host.get?_metadataPlace_after`).

The invariant of the runs after a start is `Ledger.Started`, with metadata that stays and a supply
that may shrink. A start establishes it (`Host.started_after`), and a step keeps it with the supply
lowered by what the step burned (`Host.Step.keeps_started`).

* `Host.started?`, `Host.starts` : the genesis by which a call started a ledger, and those of a run.
* `Host.isInitialized_afterAll` : a run from a ledger without metadata ends with one that has it
  if the run started the ledger.
* `Host.started_afterAll` : the invariant, and what was burned.
-/

namespace FungibleLedger

namespace Ledger

/-- A store after the start of its ledger, with the metadata and the supply that it records. -/
structure Started (s : Store) (metadata : Metadata) (supply : Amount) : Prop where
  sound : Sound s
  metadata_eq : s.get? metadataPlace = some metadata.toBytes
  supply_eq : (Token.ofStore s).supply = some supply

theorem Sound.get?_supply {s : Store} (hs : Sound s) :
    configView.get? s supplyKey = (Token.ofStore s).supply.map Amount.toBytes :=
  hs.readable.get?_key Slot.fits_supply

theorem Started.tokenInfo {s : Store} {metadata : Metadata} {supply : Amount}
    (hs : Started s metadata supply) : tokenInfo s = .ok (.tokenInfo metadata supply) := by
  have hmetadata : configView.get? s metadataKey = some metadata.toBytes := hs.metadata_eq
  rw [Ledger.tokenInfo, hmetadata, hs.sound.get?_supply, hs.supply_eq, Option.map_some]
  dsimp only
  rw [Metadata.ofBytes_toBytes, decodeAmount_toBytes]
  rfl

end Ledger

namespace Host

variable {h h' : Host} {call : Call} {genesis : Genesis} {metadata : Metadata} {supply : Amount}

/-- The genesis by which a call started the ledger, if it did. -/
def started? (h : Host) : Call → Option Genesis
  | .instantiate sender message =>
    match message.genesis?, (h.instantiate sender message).result with
    | some genesis, .ok _ => some genesis
    | _, _ => none
  | _ => none

/-- The geneses by which the calls of a run started the ledger. -/
def starts (h : Host) : List Call → List Genesis
  | [] => []
  | call :: rest => (h.started? call).toList ++ (h.after call).starts rest

/-! ## One call -/

theorem run_of_started? (hstart : h.started? call = some genesis) :
    h.isInitialized = false ∧ ∃ response store,
      run h.store (h.ledger.instantiate genesis) = (.ok response, store) ∧
        h.after call = { h with store := store } := by
  cases call with
  | instantiate sender message =>
    unfold started? at hstart
    dsimp only at hstart
    split at hstart
    · next g response hmessage hresult =>
      cases hstart
      obtain ⟨genesis, store, hgenesis, hfresh, hrun, hhost⟩ := instantiate_of_ok hresult
      rw [hmessage] at hgenesis
      cases hgenesis
      exact ⟨hfresh, response, store, hrun, hhost⟩
    · cases hstart
  | _ => cases hstart

theorem started?_of_initialized (hstarted : h.isInitialized = true) (call : Call) :
    h.started? call = none := by
  cases hstart : h.started? call with
  | none => rfl
  | some genesis =>
    obtain ⟨hfresh, -⟩ := run_of_started? hstart
    rw [hstarted] at hfresh
    cases hfresh

/-- A genesis that succeeds is a start. -/
theorem started?_ne_none {sender : AnyText} {message : Incoming Genesis} {response : Response}
    (hresult : (h.instantiate sender message).result = .ok response) :
    h.started? (.instantiate sender message) ≠ none := by
  obtain ⟨genesis, store, hmessage, -⟩ := instantiate_of_ok hresult
  rw [started?, hmessage, hresult]
  exact nofun

/-- A call that does not start the ledger applies an order, or changes nothing. -/
theorem after_of_not_started (hnone : h.started? call = none) :
    h.after call = h ∨ ∃ sender order response store,
      h.applied? call = some (sender, order) ∧
        run h.store (Ledger.carryOut sender order) = (.ok response, store) ∧
          h.after call = { h with store := store } := by
  cases call with
  | instantiate sender message =>
    cases hresult : (h.instantiate sender message).result with
    | error e => exact .inl (instantiate_host_of_error hresult)
    | ok response => exact absurd hnone (started?_ne_none hresult)
  | execute sender message =>
    cases hresult : (h.execute sender message).result with
    | error e => exact .inl (execute_host_of_error hresult)
    | ok response =>
      obtain ⟨command, account, order, store, hmessage, hresolve, hrun, hhost⟩ :=
        execute_of_ok hresult
      refine .inr ⟨account, order, response, store, ?_, hrun, hhost⟩
      rw [applied?, hmessage, hresult]
      exact Ledger.orderBy?_of_resolve hresolve
  | query message => exact .inl rfl
  | holders => exact .inl rfl

theorem get?_metadataPlace_after (hnone : h.started? call = none) :
    (h.after call).store.get? Ledger.metadataPlace = h.store.get? Ledger.metadataPlace := by
  rcases after_of_not_started hnone with hsame | ⟨sender, order, response, store, -, hrun, hafter⟩
  · rw [hsame]
  · have hrecord := get?_metadataPlace_run sender order h.store
    rw [hrun] at hrecord
    rw [hafter, hrecord]

theorem isInitialized_eq (h : Host) :
    h.isInitialized = (h.store.get? Ledger.metadataPlace).isSome := rfl

/-- A call leaves a ledger with metadata if it had them before, or if it starts it. -/
theorem isInitialized_after (h : Host) (call : Call) :
    (h.after call).isInitialized = (h.isInitialized || (h.started? call).isSome) := by
  cases hstart : h.started? call with
  | none => rw [isInitialized_eq, get?_metadataPlace_after hstart, Option.isSome_none,
      Bool.or_false, isInitialized_eq]
  | some genesis =>
    obtain ⟨-, response, store, hrun, hafter⟩ := run_of_started? hstart
    obtain ⟨buffer, hbuffer, hstore⟩ := run_ok (h.ledger.writesOnly_instantiate genesis) hrun
    obtain ⟨total, s₁, metadata, supply, -, -, -, rfl⟩ := Ledger.run_instantiate_ok hbuffer
    rw [hafter, isInitialized_eq, hstore, Store.get?_setAmount,
      if_neg (Slot.key_ne_metadataPlace _).symm, Store.get?_write, if_pos rfl]
    simp

/-! ## Runs -/

theorem mem_starts {calls : List Call} (hmem : genesis ∈ h.starts calls) :
    ∃ before call later, calls = before ++ call :: later ∧
      (h.afterAll before).started? call = some genesis := by
  induction calls generalizing h with
  | nil => cases hmem
  | cons head rest ih =>
    rw [starts, List.mem_append, Option.mem_toList] at hmem
    rcases hmem with hhead | hrest
    · exact ⟨[], head, rest, rfl, hhead⟩
    · obtain ⟨before, call, later, rfl, hstart⟩ := ih hrest
      exact ⟨head :: before, call, later, rfl, hstart⟩

theorem isInitialized_afterAll (h : Host) (calls : List Call) :
    (h.afterAll calls).isInitialized = (h.isInitialized || !(h.starts calls).isEmpty) := by
  induction calls generalizing h with
  | nil => exact (Bool.or_false _).symm
  | cons call rest ih =>
    show ((h.after call).afterAll rest).isInitialized = _
    rw [ih, isInitialized_after, Bool.or_assoc, starts]
    cases h.started? call <;> simp

theorem starts_of_initialized (hstarted : h.isInitialized = true) (calls : List Call) :
    h.starts calls = [] := by
  induction calls generalizing h with
  | nil => rfl
  | cons call rest ih =>
    have hafter : (h.after call).isInitialized = true := by
      rw [isInitialized_after, hstarted, Bool.true_or]
    rw [starts, started?_of_initialized hstarted, ih hafter]
    rfl

theorem length_starts_le_one (h : Host) (calls : List Call) : (h.starts calls).length ≤ 1 := by
  induction calls generalizing h with
  | nil => exact Nat.zero_le 1
  | cons call rest ih =>
    rw [starts]
    cases hstart : h.started? call with
    | none => exact ih (h.after call)
    | some genesis =>
      have hafter : (h.after call).isInitialized = true := by
        rw [isInitialized_after, hstart, Option.isSome_some, Bool.or_true]
      rw [starts_of_initialized hafter]
      exact Nat.le_refl 1

theorem supply_of_not_started (hempty : ∀ key, h.store.get? key = none) {calls : List Call}
    (hstarts : h.starts calls = []) :
    (Token.ofStore (h.afterAll calls).store).supply = none := by
  have hfresh : (h.afterAll calls).isInitialized = false := by
    rw [isInitialized_afterAll, hstarts, isInitialized_eq, hempty]
    rfl
  exact (sound_afterAll hempty calls).started.1 (get?_metadataPlace_of_fresh hfresh)

/-! ## Runs after the start -/

/-- What applied orders took out of the supply. -/
def burned (history : List (String × Order)) : ℕ :=
  (history.map fun applied => applied.2.burned).sum

theorem burned_append (history later : List (String × Order)) :
    burned (history ++ later) = burned history + burned later := by
  rw [burned, List.map_append, List.sum_append]
  rfl

theorem started_after (hsound : Ledger.Sound h.store) (hstart : h.started? call = some genesis) :
    ∃ metadata supply, genesis.Describes metadata ∧ supply.val = genesis.supply ∧
      Ledger.Started (h.after call).store metadata supply := by
  obtain ⟨hfresh, response, store, hrun, hafter⟩ := run_of_started? hstart
  have hmetadata := get?_metadataPlace_of_fresh hfresh
  have hsound' := sound_of_started hsound hmetadata hrun
  obtain ⟨buffer, hbuffer, hstore⟩ := run_ok (h.ledger.writesOnly_instantiate genesis) hrun
  have hzero : ∀ account, (Token.ofStore h.store.buffer).balanceOf account = .zero := by
    rw [ofStore_buffer]
    exact hsound.balance_eq_zero (hsound.started.1 hmetadata)
  obtain ⟨metadata, supply, hdescribes, hrecord, hsupply, htotal⟩ :=
    Ledger.instantiate_records (readable_buffer hsound.readable) hzero hbuffer
  rw [← hstore] at hrecord
  rw [← Token.ofStore_congr hstore] at hsupply
  rw [hafter]
  exact ⟨metadata, supply, hdescribes, htotal, hsound', hrecord, hsupply⟩

theorem isInitialized_of_started (hs : Ledger.Started h.store metadata supply) :
    h.isInitialized = true := by
  rw [isInitialized_eq, hs.metadata_eq]
  rfl

theorem Step.keeps_started {applied : Option (String × Order)} (hstep : Step h applied h')
    (hs : Ledger.Started h.store metadata supply) :
    ∃ rest, Ledger.Started h'.store metadata rest ∧
      rest.val + burned applied.toList = supply.val := by
  have hsound := hstep.sound hs.sound
  cases hstep with
  | idle => exact ⟨supply, hs, rfl⟩
  | started hfresh hrun =>
    rw [isInitialized_of_started hs] at hfresh
    cases hfresh
  | @applied sender order response store hrun =>
    obtain ⟨token, htoken, -, rfl⟩ := token_of_run hs.sound.readable hrun
    obtain ⟨rest, hrest, hburned⟩ := Token.supply_carryOut htoken hs.supply_eq
    have hrecord := get?_metadataPlace_run sender order h.store
    rw [hrun, hs.metadata_eq] at hrecord
    exact ⟨rest, ⟨hsound, hrecord, hrest⟩, by simpa [burned] using hburned⟩

theorem started_afterAll (hs : Ledger.Started h.store metadata supply) (calls : List Call) :
    ∃ rest, Ledger.Started (h.afterAll calls).store metadata rest ∧
      rest.val + burned (h.applied calls) = supply.val := by
  refine afterAll_induction (P := fun history h => ∃ rest,
    Ledger.Started h.store metadata rest ∧ rest.val + burned history = supply.val)
    ⟨supply, hs, rfl⟩ ?_ calls
  rintro history h applied h' ⟨rest, hrest, hburned⟩ hstep
  obtain ⟨rest', hrest', hstep'⟩ := hstep.keeps_started hrest
  refine ⟨rest', hrest', ?_⟩
  rw [burned_append]
  omega

theorem exists_started (hempty : ∀ key, h.store.get? key = none) {calls : List Call}
    (hstarts : h.starts calls ≠ []) :
    ∃ metadata supply, Ledger.Started (h.afterAll calls).store metadata supply := by
  obtain ⟨genesis, hmem⟩ := List.exists_mem_of_ne_nil _ hstarts
  obtain ⟨before, call, later, rfl, hstart⟩ := mem_starts hmem
  obtain ⟨metadata, supply, -, -, hs⟩ := started_after (sound_afterAll hempty before) hstart
  rw [← afterAll_concat] at hs
  obtain ⟨rest, hrest, -⟩ := started_afterAll hs later
  rw [List.append_cons, afterAll_append]
  exact ⟨metadata, rest, hrest⟩

theorem exists_started_of_initialized (hempty : ∀ key, h.store.get? key = none)
    {calls : List Call} (hstarted : (h.afterAll calls).isInitialized = true) :
    ∃ metadata supply, Ledger.Started (h.afterAll calls).store metadata supply := by
  apply exists_started hempty
  intro hnone
  rw [isInitialized_afterAll, hnone, isInitialized_eq, hempty] at hstarted
  cases hstarted

end Host

end FungibleLedger
