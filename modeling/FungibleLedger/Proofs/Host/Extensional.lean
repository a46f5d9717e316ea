import FungibleLedger.Proofs.Host.Announcements
import FungibleLedger.Proofs.Ledger.Extensional
import FungibleLedger.Proofs.Storage.Overlay

/-!
# Hosts over the same records

Two hosts of one ledger whose stores hold the same records answer every call alike and go on with
the same records, whatever the stores are and whoever follows the calls: `Host.outcome_congr` and
`Host.Alike.after`.

A host over a table goes on with a table (`Host.exists_table_after`), so that its records can be put
back where the table came from.
-/

namespace FungibleLedger

namespace Host

variable {α : Type} {allowed : Mutation → Prop} {x : Ledger.Action α}

/-! ## Actions over a buffer -/

theorem run_alike (hx : Ledger.Extensional x) (hwrites : Ledger.WritesOnly allowed x)
    {store other : Store} (h : store.Alike other) :
    (run store x).1 = (run other x).1 ∧ (run store x).2.Alike (run other x).2 := by
  have hends := hx _ _ h.buffer
  cases hrun : EStateM.run x store.buffer with
  | error e left =>
    cases hrun' : EStateM.run x other.buffer with
    | ok a left' =>
      rw [hrun, hrun'] at hends
      cases hends
    | error e' left' =>
      rw [hrun, hrun'] at hends
      cases hends
      have hend : run store x = (.error e, left.discard.2.backing) := by rw [run, hrun]
      have hend' : run other x = (.error e, left'.discard.2.backing) := by rw [run, hrun']
      rw [hend, hend', run_error hwrites hend, run_error hwrites hend']
      exact ⟨rfl, h⟩
  | ok a left =>
    cases hrun' : EStateM.run x other.buffer with
    | error e left' =>
      rw [hrun, hrun'] at hends
      cases hends
    | ok a' left' =>
      rw [hrun, hrun'] at hends
      cases hends with
      | ok _ hleft =>
        have hend : run store x = (.ok a, left.commit.2.backing) := by rw [run, hrun]
        have hend' : run other x = (.ok a, left'.commit.2.backing) := by rw [run, hrun']
        obtain ⟨buffer, hbuffer, hget⟩ := run_ok hwrites hend
        obtain ⟨buffer', hbuffer', hget'⟩ := run_ok hwrites hend'
        rw [hrun] at hbuffer
        rw [hrun'] at hbuffer'
        cases hbuffer
        cases hbuffer'
        rw [hend, hend']
        exact ⟨rfl, fun key => by rw [hget, hget', hleft]⟩

theorem exists_table_run (hwrites : Ledger.WritesOnly allowed x) (rows : Table) :
    ∃ rows', (run (.table rows) x).2 = .table rows' := by
  obtain ⟨mutations, -, hleft⟩ := left_buffer hwrites (.table rows)
  rw [Ledger.left] at hleft
  rw [run]
  cases hrun : EStateM.run x (Store.table rows).buffer with
  | ok a buffer =>
    rw [hrun] at hleft
    dsimp only at hleft ⊢
    rw [hleft]
    exact ⟨_, Store.applyBatch_table rows _⟩
  | error e buffer =>
    rw [hrun] at hleft
    dsimp only at hleft ⊢
    rw [hleft]
    exact ⟨rows, rfl⟩

/-! ## Calls -/

/-- Two hosts of one ledger hold the same records. -/
structure Alike (g h : Host) : Prop where
  ledger : g.ledger = h.ledger
  store : g.store.Alike h.store

variable {g h : Host}

theorem Alike.isInitialized (hg : g.Alike h) : g.isInitialized = h.isInitialized := by
  rw [Host.isInitialized, Host.isInitialized, View.get?, View.get?, hg.store]

/-- Replies that give the same result and leave hosts alike. -/
structure SameReply (reply other : Reply Response) : Prop where
  result : reply.result = other.result
  host : reply.host.Alike other.host

theorem Alike.silently (hg : g.Alike h) (result : Except Failure Response) :
    SameReply (g.silently result) (h.silently result) :=
  ⟨rfl, hg⟩

theorem Alike.executeTyped (hg : g.Alike h) (sender : AnyText) (command : Command) :
    SameReply (g.executeTyped sender command) (h.executeTyped sender command) := by
  have hrun := run_alike (h.ledger.extensional_execute sender command)
    (h.ledger.writesOnly_execute sender command) hg.store
  constructor
  · rw [executeTyped_result, executeTyped_result, hg.ledger]
    exact hrun.1
  · rw [executeTyped_host, executeTyped_host, hg.ledger]
    exact ⟨rfl, hrun.2⟩

theorem Alike.instantiateTyped (hg : g.Alike h) (sender : AnyText) (genesis : Genesis) :
    SameReply (g.instantiateTyped sender genesis) (h.instantiateTyped sender genesis) := by
  cases hstarted : h.isInitialized with
  | true =>
    rw [g.instantiateTyped_of_initialized sender genesis (hg.isInitialized.trans hstarted),
      h.instantiateTyped_of_initialized sender genesis hstarted]
    exact hg.silently _
  | false =>
    have hfresh := hg.isInitialized.trans hstarted
    have hrun := run_alike (h.ledger.extensional_instantiate genesis)
      (h.ledger.writesOnly_instantiate genesis) hg.store
    constructor
    · rw [instantiateTyped_result _ _ _ hfresh, instantiateTyped_result _ _ _ hstarted, hg.ledger]
      exact hrun.1
    · rw [instantiateTyped_host _ _ _ hfresh, instantiateTyped_host _ _ _ hstarted, hg.ledger]
      exact ⟨rfl, hrun.2⟩

theorem Alike.execute (hg : g.Alike h) (sender : AnyText) (message : Incoming Command) :
    SameReply (g.execute sender message) (h.execute sender message) := by
  cases message with
  | typed command => exact hg.executeTyped sender command
  | raw value =>
    cases value with
    | obj members =>
      unfold Host.execute
      dsimp only
      cases Command.ofJson (.obj members) with
      | error e => exact hg.silently _
      | ok command => exact hg.executeTyped sender command
    | _ => exact hg.silently _

theorem Alike.instantiate (hg : g.Alike h) (sender : AnyText) (message : Incoming Genesis) :
    SameReply (g.instantiate sender message) (h.instantiate sender message) := by
  cases message with
  | typed genesis => exact hg.instantiateTyped sender genesis
  | raw value =>
    cases value with
    | obj members =>
      unfold Host.instantiate
      dsimp only
      cases Genesis.ofJson (.obj members) with
      | error rejection => exact hg.silently _
      | ok genesis => exact hg.instantiateTyped sender genesis
    | _ =>
      unfold Host.instantiate
      dsimp only
      rw [hg.isInitialized]
      split <;> exact hg.silently _

theorem Alike.query (hg : g.Alike h) (message : Incoming Query) :
    g.query message = h.query message := by
  have hquery : ∀ q, g.ledger.query g.store q = h.ledger.query h.store q := fun q => by
    rw [hg.ledger, Ledger.query_congr hg.store]
  cases message with
  | typed q => exact hquery q
  | raw value =>
    cases value with
    | obj members =>
      unfold Host.query
      simp only [hquery]
    | _ => rfl

theorem outcome_congr (hg : g.Alike h) (call : Call) : g.outcome call = h.outcome call := by
  cases call with
  | instantiate sender message =>
    rw [outcome, outcome, (hg.instantiate sender message).result]
  | execute sender message => rw [outcome, outcome, (hg.execute sender message).result]
  | query message => rw [outcome, outcome, hg.query]
  | holders => rw [outcome, outcome, holders, holders, Ledger.holders_congr fun key => hg.store _]

theorem Alike.after (hg : g.Alike h) (call : Call) : (g.after call).Alike (h.after call) := by
  cases call with
  | instantiate sender message => exact (hg.instantiate sender message).host
  | execute sender message => exact (hg.execute sender message).host
  | query message => exact hg
  | holders => exact hg

/-! ## Tables -/

/-- A host over a table goes on with a table. -/
theorem exists_table_after {rows : Table} (hrows : h.store = .table rows) (call : Call) :
    ∃ rows', (h.after call).store = .table rows' := by
  cases call with
  | instantiate sender message =>
    cases hmessage : message.genesis? with
    | none =>
      obtain ⟨e, hreply⟩ := h.instantiate_of_none sender hmessage
      exact ⟨rows, by rw [Host.after, hreply, silently_host, hrows]⟩
    | some genesis =>
      rw [Host.after, h.instantiate_eq_typed sender hmessage]
      cases hstarted : h.isInitialized with
      | true =>
        rw [h.instantiateTyped_of_initialized sender genesis hstarted, silently_host]
        exact ⟨rows, hrows⟩
      | false =>
        rw [h.instantiateTyped_host sender genesis hstarted, hrows]
        exact exists_table_run (h.ledger.writesOnly_instantiate genesis) rows
  | execute sender message =>
    cases hmessage : message.command? with
    | none =>
      obtain ⟨e, hreply⟩ := h.execute_of_none sender hmessage
      exact ⟨rows, by rw [Host.after, hreply, silently_host, hrows]⟩
    | some command =>
      rw [Host.after, h.execute_eq_typed sender hmessage, executeTyped_host, hrows]
      exact exists_table_run (h.ledger.writesOnly_execute sender command) rows
  | query message => exact ⟨rows, hrows⟩
  | holders => exact ⟨rows, hrows⟩

end Host

end FungibleLedger
