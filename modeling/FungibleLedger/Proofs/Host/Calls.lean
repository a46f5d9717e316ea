import FungibleLedger.Host
import FungibleLedger.Proofs.Ledger.Writes
import FungibleLedger.Proofs.Storage.Buffer

/-!
# What a call does to its host

A call runs an action over a buffer. The store under the buffer is the same one at the end of the
action as at its beginning, because an action only writes. So a failed call leaves the store of its
host as it was, and a successful one leaves what the action wrote.

* `Host.run_error`, `Host.run_ok` : the two endings of an action.
* `Host.run_writes` : the store after either of them, as the store before with some of the allowed
  writes.
* `Incoming.command?`, `Incoming.genesis?`, `Incoming.query?` : what a message says, whether it was
  read before or not.
* `Host.execute_eq_typed`, `Host.instantiate_eq_typed`, `Host.query_eq_typed` : calls of messages
  that say something.
-/

namespace FungibleLedger

namespace Host

variable {α : Type} {allowed : Mutation → Prop}

/-! ## Actions over a buffer -/

theorem left_buffer {x : Ledger.Action α} (hx : Ledger.WritesOnly allowed x) (store : Store) :
    ∃ mutations : List Mutation, (∀ mutation ∈ mutations, allowed mutation) ∧
      Ledger.left x store.buffer = .buffered store (Pending.empty.recordAll mutations) := by
  obtain ⟨mutations, hallowed, hleft⟩ := hx store.buffer
  refine ⟨mutations, hallowed, ?_⟩
  rw [hleft, Store.buffer, Store.applyBatch_buffered]

theorem run_error {x : Ledger.Action α} (hx : Ledger.WritesOnly allowed x) {store after : Store}
    {e : Failure} (h : run store x = (.error e, after)) : after = store := by
  obtain ⟨mutations, -, hleft⟩ := left_buffer hx store
  unfold Ledger.left at hleft
  unfold run at h
  split at h
  · cases h
  · next e' buffer hrun =>
    rw [hrun] at hleft
    dsimp only at hleft
    cases h
    rw [hleft]
    rfl

theorem run_ok {x : Ledger.Action α} (hx : Ledger.WritesOnly allowed x) {store after : Store}
    {a : α} (h : run store x = (.ok a, after)) :
    ∃ buffer, EStateM.run x store.buffer = .ok a buffer ∧
      ∀ key, after.get? key = buffer.get? key := by
  obtain ⟨mutations, -, hleft⟩ := left_buffer hx store
  unfold Ledger.left at hleft
  unfold run at h
  split at h
  · next a' buffer hrun =>
    rw [hrun] at hleft
    dsimp only at hleft
    cases h
    refine ⟨buffer, hrun, fun key => ?_⟩
    rw [hleft]
    exact Store.get?_commit (Pending.sound_empty.recordAll mutations) key
  · cases h

theorem run_writes {x : Ledger.Action α} (hx : Ledger.WritesOnly allowed x) {store after : Store}
    {result : Except Failure α} (h : run store x = (result, after)) :
    ∃ mutations : List Mutation, (∀ mutation ∈ mutations, allowed mutation) ∧
      ∀ key, after.get? key = (store.applyBatch mutations).get? key := by
  cases result with
  | error e =>
    rw [run_error hx h]
    exact ⟨[], by simp, fun _ => rfl⟩
  | ok a =>
    obtain ⟨buffer, hrun, hafter⟩ := run_ok hx h
    obtain ⟨mutations, hallowed, hleft⟩ := hx store.buffer
    refine ⟨mutations, hallowed, fun key => ?_⟩
    rw [Ledger.left, hrun] at hleft
    dsimp only at hleft
    rw [hafter, hleft, Store.get?_applyBatch, Store.get?_applyBatch, Store.get?_buffer]

/-! ## Replies -/

variable (h : Host)

@[simp] theorem silently_result (result : Except Failure α) :
    (h.silently result).result = result := rfl

@[simp] theorem silently_host (result : Except Failure α) : (h.silently result).host = h := rfl

@[simp] theorem announcing_result (result : Except Failure α) (event : Event)
    (accounts : List AnyText) (data : List (String × Json)) :
    (h.announcing result event accounts data).result = result := by
  unfold announcing
  dsimp only
  split <;> rfl

@[simp] theorem announcing_host (result : Except Failure α) (event : Event)
    (accounts : List AnyText) (data : List (String × Json)) :
    (h.announcing result event accounts data).host = h := by
  unfold announcing
  dsimp only
  split <;> rfl

end Host

/-! ## Messages -/

/-- The command that a message says, if it says one. -/
def Incoming.command? : Incoming Command → Option Command
  | .typed command => some command
  | .raw value => (Command.ofJson value).toOption

/-- The genesis that a message says, if it says one. -/
def Incoming.genesis? : Incoming Genesis → Option Genesis
  | .typed genesis => some genesis
  | .raw (.obj members) => (Genesis.ofJson (.obj members)).toOption
  | .raw _ => none

/-- The query that a message says, if it says one. -/
def Incoming.query? : Incoming Query → Option Query
  | .typed query => some query
  | .raw value => (Query.ofJson value).toOption

namespace Host

variable (h : Host) (sender : AnyText)

theorem execute_eq_typed {message : Incoming Command} {command : Command}
    (hmessage : message.command? = some command) :
    h.execute sender message = h.executeTyped sender command := by
  cases message with
  | typed c =>
    cases hmessage
    rfl
  | raw value =>
    rw [Incoming.command?] at hmessage
    cases hread : Command.ofJson value with
    | error e =>
      rw [hread] at hmessage
      cases hmessage
    | ok c =>
      rw [hread] at hmessage
      cases hmessage
      cases value with
      | obj members =>
        unfold execute
        dsimp only
        rw [hread]
      | _ => cases hread

theorem execute_of_none {message : Incoming Command} (hmessage : message.command? = none) :
    ∃ e, h.execute sender message = h.silently (.error e) := by
  cases message with
  | typed c => cases hmessage
  | raw value =>
    rw [Incoming.command?] at hmessage
    cases value with
    | obj members =>
      cases hread : Command.ofJson (.obj members) with
      | error e =>
        refine ⟨.unreadable e, ?_⟩
        unfold execute
        dsimp only
        rw [hread]
      | ok c =>
        rw [hread] at hmessage
        cases hmessage
    | _ => exact ⟨_, rfl⟩

theorem instantiate_eq_typed {message : Incoming Genesis} {genesis : Genesis}
    (hmessage : message.genesis? = some genesis) :
    h.instantiate sender message = h.instantiateTyped sender genesis := by
  cases message with
  | typed g =>
    cases hmessage
    rfl
  | raw value =>
    cases value with
    | obj members =>
      rw [Incoming.genesis?] at hmessage
      unfold instantiate
      dsimp only
      cases hread : Genesis.ofJson (.obj members) with
      | error e =>
        rw [hread] at hmessage
        cases hmessage
      | ok g =>
        rw [hread] at hmessage
        cases hmessage
        rfl
    | _ => cases hmessage

theorem instantiate_of_none {message : Incoming Genesis} (hmessage : message.genesis? = none) :
    ∃ e, h.instantiate sender message = h.silently (.error e) := by
  cases message with
  | typed g => cases hmessage
  | raw value =>
    cases value with
    | obj members =>
      rw [Incoming.genesis?] at hmessage
      unfold instantiate
      dsimp only
      cases hread : Genesis.ofJson (.obj members) with
      | error e => exact ⟨_, rfl⟩
      | ok g =>
        rw [hread] at hmessage
        cases hmessage
    | _ =>
      unfold instantiate
      dsimp only
      split <;> exact ⟨_, rfl⟩

theorem query_eq_typed {message : Incoming Query} {q : Query}
    (hmessage : message.query? = some q) : h.query message = h.ledger.query h.store q := by
  cases message with
  | typed q' =>
    cases hmessage
    rfl
  | raw value =>
    rw [Incoming.query?] at hmessage
    cases hread : Query.ofJson value with
    | error e =>
      rw [hread] at hmessage
      cases hmessage
    | ok q' =>
      rw [hread] at hmessage
      cases hmessage
      cases value with
      | obj members =>
        unfold query
        dsimp only
        rw [hread]
      | _ => cases hread

/-! ## Calls of messages that say something -/

theorem executeTyped_result (command : Command) :
    (h.executeTyped sender command).result =
      (run h.store (h.ledger.execute sender command)).1 := by
  unfold executeTyped
  split
  · next heq => rw [heq, announcing_result]
  · next heq =>
    dsimp only
    split <;> simp [heq]

theorem executeTyped_host (command : Command) :
    (h.executeTyped sender command).host =
      { h with store := (run h.store (h.ledger.execute sender command)).2 } := by
  unfold executeTyped
  split
  · next heq => rw [heq, announcing_host]
  · next heq =>
    dsimp only
    split <;> simp [heq]

theorem instantiateTyped_of_initialized (genesis : Genesis) (hstarted : h.isInitialized = true) :
    h.instantiateTyped sender genesis = h.silently (.error .alreadyStarted) := by
  rw [instantiateTyped, if_pos hstarted]

theorem instantiateTyped_result (genesis : Genesis) (hfresh : h.isInitialized = false) :
    (h.instantiateTyped sender genesis).result =
      (run h.store (h.ledger.instantiate genesis)).1 := by
  rw [instantiateTyped, if_neg (by simp [hfresh])]
  split
  · next heq => rw [heq, silently_result]
  · next heq => rw [heq, announcing_result]

theorem instantiateTyped_host (genesis : Genesis) (hfresh : h.isInitialized = false) :
    (h.instantiateTyped sender genesis).host =
      { h with store := (run h.store (h.ledger.instantiate genesis)).2 } := by
  rw [instantiateTyped, if_neg (by simp [hfresh])]
  split
  · next heq => rw [heq, silently_host]
  · next heq => rw [heq, announcing_host]

end Host

end FungibleLedger
