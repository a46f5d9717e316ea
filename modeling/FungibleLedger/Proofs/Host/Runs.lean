import FungibleLedger.Proofs.Host.Atomicity
import FungibleLedger.Proofs.Ledger.Refinement

/-!
# Runs of a host

A run is a list of calls, whose messages may say anything. A call changes its host in one of two
ways, or not at all (`Host.step_after`): the first genesis that succeeds starts the ledger, and a
command that succeeds is an order that is applied. An invariant of runs is one of these steps
(`Host.afterAll_induction`).

* `Call`, `Host.after`, `Host.afterAll` : calls, and the host after one or several.
* `Host.applied` : the orders of a run that succeeded, with their senders, first to last.
* `Host.Step` : what a call may do.
-/

namespace FungibleLedger

/-- A call to a host, by whoever makes it. -/
inductive Call
  | instantiate (sender : AnyText) (message : Incoming Genesis)
  | execute (sender : AnyText) (message : Incoming Command)
  | query (message : Incoming Query)
  | holders

namespace Host

/-- The host after a call. A question leaves it as it is. -/
def after (h : Host) : Call → Host
  | .instantiate sender message => (h.instantiate sender message).host
  | .execute sender message => (h.execute sender message).host
  | .query _ | .holders => h

/-- The host after a run. -/
def afterAll (h : Host) (calls : List Call) : Host :=
  calls.foldl after h

/-- The order that a call applied, if it did, and its sender. -/
def applied? (h : Host) : Call → Option (String × Order)
  | .execute sender message =>
    match message.command?, (h.execute sender message).result with
    | some command, .ok _ => command.orderBy? sender
    | _, _ => none
  | _ => none

/-- The orders that a run applied. -/
def applied (h : Host) : List Call → List (String × Order)
  | [] => []
  | call :: rest => (h.applied? call).toList ++ (h.after call).applied rest

theorem afterAll_append (h : Host) (before later : List Call) :
    h.afterAll (before ++ later) = (h.afterAll before).afterAll later :=
  List.foldl_append

theorem afterAll_concat (h : Host) (calls : List Call) (call : Call) :
    h.afterAll (calls ++ [call]) = (h.afterAll calls).after call := by
  rw [afterAll_append]
  rfl

theorem applied_concat (h : Host) (calls : List Call) (call : Call) :
    h.applied (calls ++ [call]) =
      h.applied calls ++ ((h.afterAll calls).applied? call).toList := by
  induction calls generalizing h with
  | nil => simp [applied, afterAll]
  | cons head rest ih =>
    rw [List.cons_append, applied, applied, ih, List.append_assoc]
    rfl

theorem applied_append (h : Host) (before later : List Call) :
    h.applied (before ++ later) = h.applied before ++ (h.afterAll before).applied later := by
  induction before generalizing h with
  | nil => rfl
  | cons head rest ih =>
    rw [List.cons_append, applied, applied, ih, List.append_assoc]
    rfl

/-! ## Steps -/

/-- What a call does to a host, by the order that it applies: nothing, the start of the ledger, or
that order. -/
inductive Step (h : Host) : Option (String × Order) → Host → Prop
  | idle : Step h none h
  | started {genesis : Genesis} {response : Response} {store : Store}
      (hfresh : h.isInitialized = false)
      (hrun : run h.store (h.ledger.instantiate genesis) = (.ok response, store)) :
      Step h none { h with store := store }
  | applied {sender : String} {order : Order} {response : Response} {store : Store}
      (hrun : run h.store (Ledger.carryOut sender order) = (.ok response, store)) :
      Step h (some (sender, order)) { h with store := store }

theorem instantiate_of_ok {h : Host} {sender : AnyText} {message : Incoming Genesis}
    {response : Response} (hresult : (h.instantiate sender message).result = .ok response) :
    ∃ genesis store, message.genesis? = some genesis ∧ h.isInitialized = false ∧
      run h.store (h.ledger.instantiate genesis) = (.ok response, store) ∧
        (h.instantiate sender message).host = { h with store := store } := by
  cases hmessage : message.genesis? with
  | none =>
    obtain ⟨e, hreply⟩ := h.instantiate_of_none sender hmessage
    rw [hreply, silently_result] at hresult
    cases hresult
  | some genesis =>
    rw [h.instantiate_eq_typed sender hmessage] at hresult ⊢
    by_cases hstarted : h.isInitialized = true
    · rw [h.instantiateTyped_of_initialized sender genesis hstarted, silently_result] at hresult
      cases hresult
    · have hfresh : h.isInitialized = false := by simpa using hstarted
      rw [h.instantiateTyped_result sender genesis hfresh] at hresult
      exact ⟨genesis, _, rfl, hfresh, Prod.ext hresult rfl,
        h.instantiateTyped_host sender genesis hfresh⟩

theorem execute_of_ok {h : Host} {sender : AnyText} {message : Incoming Command}
    {response : Response} (hresult : (h.execute sender message).result = .ok response) :
    ∃ command account order store, message.command? = some command ∧
      h.ledger.resolve sender command = .ok (account, order) ∧
        run h.store (Ledger.carryOut account order) = (.ok response, store) ∧
          (h.execute sender message).host = { h with store := store } := by
  cases hmessage : message.command? with
  | none =>
    obtain ⟨e, hreply⟩ := h.execute_of_none sender hmessage
    rw [hreply, silently_result] at hresult
    cases hresult
  | some command =>
    rw [h.execute_eq_typed sender hmessage] at hresult ⊢
    rw [executeTyped_result] at hresult
    obtain ⟨buffer, hbuffer, -⟩ :=
      run_ok (h.ledger.writesOnly_execute sender command) (Prod.ext hresult rfl)
    obtain ⟨account, order, hresolve, -, -⟩ := Ledger.exists_resolve_of_ok hbuffer
    rw [Ledger.execute_of_resolve hresolve] at hresult
    refine ⟨command, account, order, _, rfl, hresolve, Prod.ext hresult rfl, ?_⟩
    rw [executeTyped_host, Ledger.execute_of_resolve hresolve]

theorem step_instantiate (h : Host) (sender : AnyText) (message : Incoming Genesis) :
    Step h none (h.instantiate sender message).host := by
  cases hresult : (h.instantiate sender message).result with
  | error e =>
    rw [instantiate_host_of_error hresult]
    exact .idle
  | ok response =>
    obtain ⟨genesis, store, -, hfresh, hrun, hhost⟩ := instantiate_of_ok hresult
    rw [hhost]
    exact .started hfresh hrun

theorem step_execute (h : Host) (sender : AnyText) (message : Incoming Command) :
    Step h (h.applied? (.execute sender message)) (h.execute sender message).host := by
  unfold applied?
  dsimp only
  cases hresult : (h.execute sender message).result with
  | error e =>
    rw [execute_host_of_error hresult]
    cases message.command? <;> exact .idle
  | ok response =>
    obtain ⟨command, account, order, store, hmessage, hresolve, hrun, hhost⟩ :=
      execute_of_ok hresult
    rw [hmessage, hhost]
    dsimp only
    rw [Ledger.orderBy?_of_resolve hresolve]
    exact .applied hrun

theorem step_after (h : Host) (call : Call) : Step h (h.applied? call) (h.after call) := by
  cases call with
  | instantiate sender message => exact h.step_instantiate sender message
  | execute sender message => exact h.step_execute sender message
  | query message => exact .idle
  | holders => exact .idle

/-- What holds of a host and the orders applied so far holds after every run, if it holds at the
start and every step keeps it. -/
theorem afterAll_induction {P : List (String × Order) → Host → Prop} {h : Host}
    (hstart : P [] h)
    (hstep : ∀ history h' order h'', P history h' → Step h' order h'' →
      P (history ++ order.toList) h'')
    (calls : List Call) : P (h.applied calls) (h.afterAll calls) := by
  induction calls using List.reverseRecOn with
  | nil => exact hstart
  | append_singleton calls call ih =>
    rw [applied_concat, afterAll_concat]
    exact hstep _ _ _ _ ih (step_after _ call)

end Host

end FungibleLedger
