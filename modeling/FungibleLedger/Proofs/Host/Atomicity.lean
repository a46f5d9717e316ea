import FungibleLedger.Proofs.Host.Calls

/-!
# Failed calls leave no trace

A ledger writes before it has checked everything: first balances before the metadata, an allowance
before the balance behind it, a debit before the credit. `Host.host_of_error` says that none of this
reaches the store of a host when the call fails, whatever the store holds and wherever the failure
comes from.
-/

namespace FungibleLedger.Host

theorem instantiate_host_of_error {h : Host} {sender : AnyText} {message : Incoming Genesis}
    {e : Failure} (herror : (h.instantiate sender message).result = .error e) :
    (h.instantiate sender message).host = h := by
  cases hmessage : message.genesis? with
  | none =>
    obtain ⟨e', hreply⟩ := h.instantiate_of_none sender hmessage
    rw [hreply, silently_host]
  | some genesis =>
    rw [h.instantiate_eq_typed sender hmessage] at herror ⊢
    by_cases hstarted : h.isInitialized = true
    · rw [h.instantiateTyped_of_initialized sender genesis hstarted, silently_host]
    · have hfresh : h.isInitialized = false := by simpa using hstarted
      rw [h.instantiateTyped_result sender genesis hfresh] at herror
      rw [h.instantiateTyped_host sender genesis hfresh]
      have hstore : (run h.store (h.ledger.instantiate genesis)).2 = h.store :=
        run_error (h.ledger.writesOnly_instantiate genesis) (Prod.ext herror rfl)
      rw [hstore]

theorem execute_host_of_error {h : Host} {sender : AnyText} {message : Incoming Command}
    {e : Failure} (herror : (h.execute sender message).result = .error e) :
    (h.execute sender message).host = h := by
  cases hmessage : message.command? with
  | none =>
    obtain ⟨e', hreply⟩ := h.execute_of_none sender hmessage
    rw [hreply, silently_host]
  | some command =>
    rw [h.execute_eq_typed sender hmessage] at herror ⊢
    rw [executeTyped_result] at herror
    rw [executeTyped_host]
    have hstore : (run h.store (h.ledger.execute sender command)).2 = h.store :=
      run_error (h.ledger.writesOnly_execute sender command) (Prod.ext herror rfl)
    rw [hstore]

theorem executeTyped_host_of_error {h : Host} {sender : AnyText} {command : Command} {e : Failure}
    (herror : (h.executeTyped sender command).result = .error e) :
    (h.executeTyped sender command).host = h := by
  have hmessage : (h.execute sender (.typed command)).result = .error e := herror
  exact execute_host_of_error hmessage

/-- A call that fails leaves its host as it was, and so the same bytes under the same keys. The
store may hold anything, and the message may be read before or not. -/
theorem host_of_error (h : Host) (sender : AnyText) :
    (∀ message e, (h.instantiate sender message).result = .error e →
      (h.instantiate sender message).host = h) ∧
    (∀ message e, (h.execute sender message).result = .error e →
      (h.execute sender message).host = h) :=
  ⟨fun _ _ => instantiate_host_of_error, fun _ _ => execute_host_of_error⟩

/-- Two calls that fail late. A genesis with too many decimal places has written the balance of its
seed, and a delegated transfer from an owner who has too little has lowered the allowance: each
write stays in a store that the ledger is handed, and none gets into the store of a host. -/
theorem host_of_error_late :
    let store := ((Store.memory .empty).setAmount (.balance "bob") (some ⟨50, by decide⟩)).setAmount
      (.allowance "bob" "alice") (some ⟨500, by decide⟩)
    let host : Host := ⟨⟨.simple, ⟨3, 30, 3, 6⟩⟩, store, none, .none⟩
    let genesis : Genesis := ⟨.whole "Token", .whole "TOK", 19, [⟨.whole "carol", ⟨7, by decide⟩⟩]⟩
    let command : Command := .transferFrom "bob" "carol" ⟨60, by decide⟩
    ((Ledger.left (host.ledger.instantiate genesis) store).amount? (.balance "carol") =
        some ⟨7, by decide⟩ ∧
      (host.instantiate "alice" (.typed genesis)).result = .error (.tooManyDecimals 19) ∧
      (host.instantiate "alice" (.typed genesis)).host = host) ∧
    ((Ledger.left (host.ledger.execute "alice" command) store).amount? (.allowance "bob" "alice") =
        some ⟨440, by decide⟩ ∧
      (host.execute "alice" (.typed command)).result =
        .error (.insufficientFunds ⟨50, by decide⟩ ⟨60, by decide⟩) ∧
      (host.execute "alice" (.typed command)).host = host) := by
  intro store host genesis command
  have hgenesis : (host.instantiate "alice" (.typed genesis)).result =
      .error (.tooManyDecimals 19) := by decide
  have hcommand : (host.execute "alice" (.typed command)).result =
      .error (.insufficientFunds ⟨50, by decide⟩ ⟨60, by decide⟩) := by decide
  refine ⟨⟨by decide, hgenesis, ?_⟩, by decide, hcommand, ?_⟩
  · exact (host_of_error host "alice").1 _ _ hgenesis
  · exact (host_of_error host "alice").2 _ _ hcommand

end FungibleLedger.Host
