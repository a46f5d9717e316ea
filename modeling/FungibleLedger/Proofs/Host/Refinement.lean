import FungibleLedger.Proofs.Host.Atomicity
import FungibleLedger.Proofs.Ledger.Effects
import FungibleLedger.Proofs.Ledger.Refinement

/-!
# Hosts refine tokens

A command that a host is sent does to the token in its store what `Token.execute` says, and to the
rest of the store nothing: `Host.execute_refines`. The steps of a ledger run over a buffer, which
answers as the store under it (`Host.readable_buffer`), and what they leave there is committed
(`Host.run_of_realizes`).
-/

namespace FungibleLedger

/-- A store after a call that left a token. The records at the places of the call are the stored
forms of the token's numbers, and all other records are those from before. -/
structure Store.Carries (before after : Store) (places : List Slot) (token : Token) : Prop where
  readable : Ledger.Readable after
  holds : Token.ofStore after = token
  records : ∀ slot ∈ places, slot.Admits (token.get slot) ∧
    after.get? slot.key = (token.get slot).map Amount.toBytes
  rest : ∀ key, (∀ slot ∈ places, key ≠ slot.key) → after.get? key = before.get? key

namespace Host

variable {α : Type} {allowed : Mutation → Prop}

/-! ## Steps over a buffer -/

theorem readable_buffer {store : Store} (hstore : Ledger.Readable store) :
    Ledger.Readable store.buffer :=
  hstore.congr fun key => (store.get?_buffer key).symm

theorem ofStore_buffer (store : Store) : Token.ofStore store.buffer = Token.ofStore store :=
  Token.ofStore_congr store.get?_buffer

theorem run_of_realizes {x : Ledger.Action α} (hx : Ledger.WritesOnly allowed x) {store : Store}
    {a : α} {t : Token} (h : Ledger.Realizes (EStateM.run x store.buffer) (.ok (a, t))) :
    (run store x).1 = .ok a ∧ Ledger.Readable (run store x).2 ∧
      Token.ofStore (run store x).2 = t := by
  generalize hrun : EStateM.run x store.buffer = ended at h
  cases h with
  | ok _ hs =>
    have hresult : run store x = (.ok a, (run store x).2) := by
      rw [run, hrun]
    obtain ⟨buffer, hbuffer, hafter⟩ := run_ok hx hresult
    rw [hrun] at hbuffer
    cases hbuffer
    exact ⟨by rw [hresult], hs.congr fun key => (hafter key).symm, Token.ofStore_congr hafter⟩

theorem run_of_realizes_error {x : Ledger.Action α} {store : Store} {e : Failure}
    {r : Except Failure (α × Token)} (h : Ledger.Realizes (EStateM.run x store.buffer) r)
    (hr : r = .error e) : (run store x).1 = .error e := by
  generalize hrun : EStateM.run x store.buffer = ended at h
  cases h with
  | ok _ hs => cases hr
  | error e' s =>
    cases hr
    rw [run, hrun]

theorem get?_run_of_notMem {x : Ledger.Action α} {places : List Slot}
    (hx : Ledger.WritesOnly (Slot.Write places) x) (store : Store) {key : Bytes}
    (hkey : ∀ slot ∈ places, key ≠ slot.key) : (run store x).2.get? key = store.get? key := by
  obtain ⟨mutations, hallowed, hafter⟩ := run_writes hx (Prod.mk.eta (p := run store x)).symm
  rw [hafter]
  apply Store.get?_applyBatch_of_notMem
  intro mutation hmem heq
  obtain ⟨slot, hslot, -, hslotkey, -⟩ := hallowed mutation hmem
  exact hkey slot hslot (heq.symm.trans hslotkey)

/-! ## Orders -/

section

variable {store : Store} {sender : String} {order : Order}

theorem run_carryOut_eq (hstore : Ledger.Readable store) (hfits : order.Fits sender) :
    (run store (Ledger.carryOut sender order)).1 =
      ((Token.ofStore store).carryOut sender order).map fun _ => order.response sender := by
  have hrealizes := Ledger.realizes_carryOut (readable_buffer hstore) hfits
  rw [ofStore_buffer] at hrealizes
  cases htoken : (Token.ofStore store).carryOut sender order with
  | error e =>
    rw [htoken] at hrealizes
    exact run_of_realizes_error hrealizes rfl
  | ok token =>
    rw [htoken] at hrealizes
    exact (run_of_realizes (Ledger.writesOnly_carryOut sender order) hrealizes).1

theorem carries_of_carryOut (hstore : Ledger.Readable store) (hfits : order.Fits sender)
    {token : Token} (htoken : (Token.ofStore store).carryOut sender order = .ok token) :
    store.Carries (run store (Ledger.carryOut sender order)).2 (order.footprint sender) token := by
  have hwrites := Ledger.writesOnly_carryOut sender order
  have hrealizes := Ledger.realizes_carryOut (readable_buffer hstore) hfits
  rw [ofStore_buffer, htoken] at hrealizes
  obtain ⟨-, hreadable, hafter⟩ := run_of_realizes hwrites hrealizes
  refine ⟨hreadable, hafter, fun slot hslot => ?_, fun key hkey => ?_⟩
  · refine ⟨Token.carryOut_admits htoken slot hslot, ?_⟩
    rw [← hafter, Token.get_ofStore]
    exact hreadable.get?_key (hfits slot hslot)
  · exact get?_run_of_notMem hwrites store hkey

/-- The converse: an order that succeeded did so as the token says. -/
theorem token_of_run {after : Store} {response : Response} (hstore : Ledger.Readable store)
    (h : run store (Ledger.carryOut sender order) = (.ok response, after)) :
    ∃ token, (Token.ofStore store).carryOut sender order = .ok token ∧
      Ledger.Readable after ∧ Token.ofStore after = token := by
  obtain ⟨buffer, hrun, hafter⟩ := run_ok (Ledger.writesOnly_carryOut sender order) h
  have hfits : order.Fits sender := by
    by_contra hfits
    rw [Ledger.run_carryOut_of_not_fits hfits] at hrun
    cases hrun
  have hrealizes := Ledger.realizes_carryOut (readable_buffer hstore) hfits
  rw [ofStore_buffer, hrun] at hrealizes
  cases htoken : (Token.ofStore store).carryOut sender order with
  | error e =>
    rw [htoken] at hrealizes
    cases hrealizes
  | ok token =>
    rw [htoken] at hrealizes
    cases hrealizes with
    | ok _ hs =>
      exact ⟨_, rfl, hs.congr fun key => (hafter key).symm, Token.ofStore_congr hafter⟩

end

/-! ## Commands -/

section

variable {h : Host} {sender : AnyText} {command : Command} {account : String} {order : Order}

/-- The result of a command that was read is that of the token, with an answer in the place of the
token. -/
theorem executeTyped_result_eq (hresolve : h.ledger.resolve sender command = .ok (account, order))
    (hstore : Ledger.Readable h.store) (hfits : order.Fits account) :
    (h.executeTyped sender command).result =
      ((Token.ofStore h.store).carryOut account order).map fun _ => order.response account := by
  rw [executeTyped_result, Ledger.execute_of_resolve hresolve]
  exact run_carryOut_eq hstore hfits

theorem executeTyped_carries (hresolve : h.ledger.resolve sender command = .ok (account, order))
    (hstore : Ledger.Readable h.store) (hfits : order.Fits account) {token : Token}
    (htoken : (Token.ofStore h.store).carryOut account order = .ok token) :
    h.store.Carries (h.executeTyped sender command).host.store (order.footprint account) token := by
  rw [executeTyped_host, Ledger.execute_of_resolve hresolve]
  exact carries_of_carryOut hstore hfits htoken

/-- A command that gives no order with a place for everything fails the same on all hosts of a
ledger. -/
theorem executeTyped_of_failing {l : Ledger} {e : Failure}
    (hfails : ∀ s, EStateM.run (l.execute sender command) s = .error e s) (hledger : h.ledger = l) :
    (h.executeTyped sender command).result = .error e := by
  subst hledger
  rw [executeTyped_result, run, hfails]

end

/-- A command ends as the token in the store of its host says. It fails as the token does, and then
changes nothing. Or it succeeds as the token does: then the command is an order of its sender, the
store holds the token that results, each record at a place of the order is the stored form of its
number, and no other record has changed. A transfer to oneself changes no balance. -/
theorem execute_refines (h : Host) (sender : AnyText) (message : Incoming Command)
    {command : Command} (hmessage : message.command? = some command)
    (hstore : Ledger.Readable h.store)
    (hsender : ∀ account, sender = .whole account → (utf8 account).length ≤ Namespace.limit) :
    match (Token.ofStore h.store).execute h.ledger.addresses sender command with
    | .error e =>
      (h.execute sender message).result = .error e ∧ (h.execute sender message).host = h
    | .ok token =>
      ∃ (account : String) (order : Order), sender = account ∧ command = order ∧
        (h.execute sender message).result = .ok (order.response account) ∧
        h.store.Carries (h.execute sender message).host.store (order.footprint account) token ∧
        ∀ amount, order = .transfer account amount →
          ∀ other, token.balanceOf other = (Token.ofStore h.store).balanceOf other := by
  rw [h.execute_eq_typed sender hmessage, Token.execute_eq]
  cases hresolve : h.ledger.resolve sender command with
  | error e =>
    have hresult : (h.executeTyped sender command).result = .error e := by
      refine executeTyped_of_failing (fun s => ?_) rfl
      rw [Ledger.execute_of_resolve_error hresolve]
      rfl
    exact ⟨hresult, executeTyped_host_of_error hresult⟩
  | ok resolved =>
    obtain ⟨account, order⟩ := resolved
    obtain ⟨rfl, rfl⟩ := Ledger.eq_of_resolve hresolve
    have hfits := Ledger.fits_of_resolve hresolve (hsender account rfl)
    have hresult := executeTyped_result_eq hresolve hstore hfits
    show match (Token.ofStore h.store).carryOut account order with | .error e => _ | .ok token => _
    cases htoken : (Token.ofStore h.store).carryOut account order with
    | error e =>
      rw [htoken] at hresult
      exact ⟨hresult, executeTyped_host_of_error hresult⟩
    | ok token =>
      rw [htoken] at hresult
      refine ⟨account, order, rfl, rfl, hresult, executeTyped_carries hresolve hstore hfits htoken,
        fun amount hself => ?_⟩
      subst hself
      exact Token.balanceOf_transfer_self htoken

/-- A delegated transfer that takes the last of an allowance. Its record goes, and the recipient,
who had none, gets one. -/
theorem execute_refines_exhausting :
    let funded := (Store.memory .empty).setAmount (.balance "alice") (some ⟨60, by decide⟩)
    let store := funded.setAmount (.allowance "alice" "bob") (some ⟨40, by decide⟩)
    let host : Host := ⟨⟨.simple, ⟨3, 30, 3, 6⟩⟩, store, none, .none⟩
    let bob : AnyText := .whole "bob"
    let order : Order := .transferFrom "alice" "carol" ⟨40, by decide⟩
    let after := (host.execute bob (.typed order)).host.store
    Ledger.Readable store ∧
      (∀ account, bob = .whole account → (utf8 account).length ≤ Namespace.limit) ∧
      ∃ token, (Token.ofStore store).execute .simple bob order = .ok token ∧
        (host.execute bob (.typed order)).result = .ok (order.response "bob") ∧
        store.Carries after (order.footprint "bob") token ∧
        after.get? (Slot.allowance "alice" "bob").key = none ∧
        after.get? (Slot.balance "carol").key = some (Amount.toBytes ⟨40, by decide⟩) := by
  intro funded store host bob order after
  have hempty : ∀ key, (Store.memory .empty).get? key = none := fun _ => rfl
  have hstore : Ledger.Readable store :=
    ((Ledger.readable_of_empty hempty).setAmount _ _).setAmount _ _
  have hsender : ∀ account, bob = .whole account → (utf8 account).length ≤ Namespace.limit := by
    intro account hbob
    obtain rfl : "bob" = account := AnyText.whole.inj hbob
    decide
  have href := execute_refines host bob (.typed order) rfl hstore hsender
  obtain ⟨token, htoken⟩ : ∃ token, (Token.ofStore store).execute .simple bob order = .ok token :=
    ⟨_, rfl⟩
  rw [htoken] at href
  obtain ⟨account, order', hbob, horder, hresult, hcarries, -⟩ := href
  obtain rfl : "bob" = account := AnyText.whole.inj hbob
  obtain rfl : order = order' := Order.command_injective horder
  exact ⟨hstore, hsender, token, htoken, hresult, hcarries, by decide, by decide⟩

end Host

end FungibleLedger
