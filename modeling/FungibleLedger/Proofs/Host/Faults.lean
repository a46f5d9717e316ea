import FungibleLedger.Proofs.Host.Starts
import FungibleLedger.Proofs.Ledger.Faults

/-!
# Started ledgers never break

In every run from an empty store that has started the ledger, no command of anyone, no query and no
list of holders ends with a fatal failure. Before the start a command does only if it burns nothing,
and then because there is no supply to burn from: `Host.harmless_afterAll`.

An order ends as the token in the store does (`Host.harmless_executeTyped`), and the token's total
is its supply (`Ledger.Sound`). What a command fails with before it gets to the token is not fatal.
-/

namespace FungibleLedger

namespace Ledger

variable {s : Store} {l : Ledger}

/-! ## Questions to a store -/

theorem harmless_addressOf (l : Ledger) (text : AnyText) : Harmless (l.addressOf text) := by
  intro e h
  obtain ⟨fault, rfl⟩ := exists_fault_of_addressOf h
  rfl

theorem Started.harmless_query {metadata : Metadata} {supply : Amount}
    (hs : Started s metadata supply) (l : Ledger) (q : Query) : Harmless (l.query s q) := by
  cases q with
  | balance address =>
    refine (harmless_addressOf l address).bind fun address _ => ?_
    rw [balanceAt_eq hs.sound.readable]
    exact harmless_ok _
  | allowance owner spender =>
    refine (harmless_addressOf l owner).bind fun owner howner => ?_
    refine (harmless_addressOf l spender).bind fun spender _ => ?_
    rw [allowanceAt_eq hs.sound.readable (length_le_of_addressOf howner)]
    exact harmless_ok _
  | tokenInfo =>
    show Harmless (Ledger.tokenInfo s)
    rw [hs.tokenInfo]
    exact harmless_ok _

end Ledger

namespace Host

variable {h : Host}

/-! ## One call -/

theorem harmless_executeTyped (hsound : Ledger.Sound h.store) {sender : AnyText}
    {command : Command}
    (hnothing : (Token.ofStore h.store).supply = none → command ≠ .burn .zero) :
    Harmless (h.executeTyped sender command).result := by
  intro e hresult
  obtain ⟨account, order, hresolve, hfits⟩ | ⟨e', hearly, hfails⟩ :=
    Ledger.resolve_cases h.ledger sender command
  · obtain ⟨-, rfl⟩ := Ledger.eq_of_resolve hresolve
    have htoken : Harmless ((Token.ofStore h.store).carryOut account order) := by
      refine Token.harmless_carryOut (Token.finite_ofStore _) hsound.conserved ?_
      intro hsupply hburn
      exact hnothing hsupply (by rw [hburn]; rfl)
    rw [executeTyped_result_eq hresolve hsound.readable hfits] at hresult
    cases hends : (Token.ofStore h.store).carryOut account order with
    | error e' =>
      rw [hends] at hresult
      cases hresult
      exact htoken _ hends
    | ok token =>
      rw [hends] at hresult
      cases hresult
  · rw [executeTyped_of_failing hfails rfl] at hresult
    cases hresult
    exact Failure.isFatal_of_isEarly hearly

theorem harmless_of_command?_none (sender : AnyText) {message : Incoming Command}
    (hmessage : message.command? = none) : Harmless (h.execute sender message).result := by
  cases message with
  | typed command => cases hmessage
  | raw value =>
    cases value with
    | obj members =>
      unfold execute
      dsimp only
      cases hread : Command.ofJson (.obj members) with
      | error e => exact harmless_error rfl
      | ok command =>
        rw [Incoming.command?, hread] at hmessage
        cases hmessage
    | _ => exact harmless_error rfl

theorem harmless_execute (hsound : Ledger.Sound h.store) (sender : AnyText)
    {message : Incoming Command}
    (hnothing : (Token.ofStore h.store).supply = none → message.command? ≠ some (.burn .zero)) :
    Harmless (h.execute sender message).result := by
  cases hmessage : message.command? with
  | none => exact harmless_of_command?_none sender hmessage
  | some command =>
    rw [h.execute_eq_typed sender hmessage]
    refine harmless_executeTyped hsound fun hsupply hburn => ?_
    exact hnothing hsupply (by rw [hmessage, hburn])

theorem execute_burn_zero (hsound : Ledger.Sound h.store)
    (hsupply : (Token.ofStore h.store).supply = none) (account : String)
    {message : Incoming Command} (hmessage : message.command? = some (.burn .zero)) :
    (h.execute account message).result = .error (.violation .noSupply) := by
  have hresolve : h.ledger.resolve account (.burn .zero) = .ok (account, .burn .zero) := rfl
  rw [h.execute_eq_typed account hmessage,
    executeTyped_result_eq hresolve hsound.readable (Order.fits_burn _),
    Token.carryOut_burn_zero hsupply]
  rfl

/-- A sender whose name is no whole text burns nothing. -/
theorem execute_burn_broken (codes : List Nat) {amount : Amount} {message : Incoming Command}
    (hmessage : message.command? = some (.burn amount)) :
    (h.execute (.broken codes) message).result = .error (.unencodable (.ofCodes codes)) := by
  rw [h.execute_eq_typed _ hmessage]
  exact executeTyped_of_failing (fun _ => rfl) rfl

theorem harmless_query {metadata : Metadata} {supply : Amount}
    (hs : Ledger.Started h.store metadata supply) (message : Incoming Query) :
    Harmless (h.query message) := by
  cases message with
  | typed q => exact hs.harmless_query h.ledger q
  | raw value =>
    cases value with
    | obj members =>
      unfold query
      dsimp only
      cases Query.ofJson (.obj members) with
      | error e => exact harmless_error rfl
      | ok q => exact hs.harmless_query h.ledger q
    | _ => exact harmless_error rfl

/-! ## Runs -/

/-- After every run from an empty store that has started the ledger, commands and queries may be
turned down, but never fail for a sum out of range or for what is stored, and the holders can be
listed. After a run that has not, a command fails like that only if it burns nothing for an account,
and then it always does, for there is no supply. -/
theorem harmless_afterAll (h : Host) (hempty : ∀ key, h.store.get? key = none)
    (calls : List Call) :
    (h.starts calls ≠ [] →
      (∀ sender message, Harmless ((h.afterAll calls).execute sender message).result) ∧
      (∀ message, Harmless ((h.afterAll calls).query message)) ∧
      ∃ list, (h.afterAll calls).holders = .ok list) ∧
    (h.starts calls = [] → ∀ sender message e,
      ((h.afterAll calls).execute sender message).result = .error e ∧ e.isFatal = true ↔
        (∃ account, sender = .whole account) ∧ message.command? = some (.burn .zero) ∧
          e = .violation .noSupply) := by
  have hsound := sound_afterAll hempty calls
  refine ⟨fun hstarts => ?_, fun hstarts sender message e => ?_⟩
  · obtain ⟨metadata, supply, hs⟩ := exists_started hempty hstarts
    refine ⟨fun sender message => ?_, harmless_query hs, ?_⟩
    · refine harmless_execute hsound sender fun hnone => ?_
      rw [hs.supply_eq] at hnone
      cases hnone
    · obtain ⟨list, hlist, -⟩ := Ledger.holders_eq hsound.readable hsound.tidy
      exact ⟨list, hlist⟩
  · have hnone := supply_of_not_started hempty hstarts
    constructor
    · rintro ⟨hresult, hfatal⟩
      have hburn : message.command? = some (.burn .zero) := by
        by_contra hnot
        have hharmless := harmless_execute hsound sender (fun _ => hnot) e hresult
        rw [hfatal] at hharmless
        cases hharmless
      cases sender with
      | broken codes =>
        rw [execute_burn_broken codes hburn] at hresult
        cases hresult
        cases hfatal
      | whole account =>
        rw [execute_burn_zero hsound hnone account hburn] at hresult
        cases hresult
        exact ⟨⟨account, rfl⟩, hburn, rfl⟩
    · rintro ⟨⟨account, rfl⟩, hburn, rfl⟩
      exact ⟨execute_burn_zero hsound hnone account hburn, rfl⟩

/-- A ledger whose supply is the greatest amount, where nearly all of it is moved to an account that
has the rest, and the same host before the start. -/
theorem harmless_afterAll_full :
    let host : Host := ⟨⟨.simple, ⟨3, 30, 3, 6⟩⟩, .memory .empty, none, .none⟩
    let most : Amount := ⟨Amount.greatest - 5, by decide⟩
    let genesis : Genesis := ⟨.whole "Token", .whole "TOK", 2,
      [⟨.whole "alice", most⟩, ⟨.whole "bob", ⟨5, by decide⟩⟩]⟩
    let calls : List Call :=
      [.instantiate "alice" (.typed genesis), .execute "alice" (.typed (.approve "carol" most)),
        .execute "carol" (.typed (.transferFrom "alice" "bob" most))]
    (∀ key, host.store.get? key = none) ∧ host.starts calls = [genesis] ∧
      (host.applied calls).length = 2 ∧
      (∀ sender message, Harmless ((host.afterAll calls).execute sender message).result) ∧
      (host.execute "alice" (.typed (.burn .zero))).result = .error (.violation .noSupply) := by
  intro host most genesis calls
  have hempty : ∀ key, host.store.get? key = none := fun _ => rfl
  have hstarts : host.starts calls = [genesis] := by decide +kernel
  have hstarted : host.starts calls ≠ [] := by
    rw [hstarts]
    exact nofun
  have hfresh := (harmless_afterAll host hempty []).2 rfl "alice" (.typed (.burn .zero))
    (.violation .noSupply)
  exact ⟨hempty, hstarts, by decide +kernel, ((harmless_afterAll host hempty calls).1 hstarted).1,
    (hfresh.2 ⟨⟨"alice", rfl⟩, rfl, rfl⟩).1⟩

end Host

end FungibleLedger
