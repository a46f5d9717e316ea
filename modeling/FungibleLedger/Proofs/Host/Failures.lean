import FungibleLedger.Proofs.Host.Calls
import FungibleLedger.Proofs.Ledger.Failures

/-!
# Which failures get out of a host

Over a store that holds anything, a message that is an object, or was read before, is answered or
refused: it cannot be read, or the call is turned down, or a command finds corrupt state. Three
things get past this, and past those who follow the calls. The sender of a command is no whole text,
or its name is too long for a namespace and it approves of an address, or a ledger would be started
with a name that is no whole text. These are all: `Host.failures` says for each message whether it
is one of them.

A failed command that is not is announced as rejected, with its reason.
-/

namespace FungibleLedger

/-- Whether a host takes a message for one: an object, or a message that was read before. -/
def Incoming.IsMessage {α : Type} : Incoming α → Prop
  | .typed _ | .raw (.obj _) => True
  | .raw _ => False

namespace Host

variable (h : Host) (sender : AnyText)

/-- Whether a message is a command that fails because of its sender. -/
def Obstructed (message : Incoming Command) (e : Failure) : Prop :=
  ∃ command, message.command? = some command ∧ command.Obstructed h.ledger.addresses sender e

/-- Whether a message gets as far as a name that is no whole text but given code points. -/
def Unmeasurable (message : Incoming Genesis) (codes : List Nat) : Prop :=
  h.isInitialized = false ∧
    ∃ genesis, message.genesis? = some genesis ∧ genesis.Unmeasurable h.ledger codes

/-- How a command fails. -/
structure CommandFails (message : Incoming Command) : Prop where
  other : ∀ e, (h.execute sender message).result = .error e →
    (e.kind = .other ↔ h.Obstructed sender message e)
  obstructed : ∀ e, h.Obstructed sender message e →
    h.execute sender message = h.silently (.error e)
  rejected : ∀ command e, message.command? = some command → ¬ h.Obstructed sender message e →
    (h.execute sender message).result = .error e →
      h.execute sender message = h.announcing (.error e) .commandRejected [sender]
        [("sender", .ofText sender), ("action", .str command.tag),
          ("reason", .str (e.message h.details))]

/-- How a genesis fails. -/
structure GenesisFails (message : Incoming Genesis) : Prop where
  not_corrupt : ∀ e, (h.instantiate sender message).result = .error e → e.kind ≠ .corrupt
  other : ∀ e, (h.instantiate sender message).result = .error e →
    (e.kind = .other ↔ ∃ codes, h.Unmeasurable message codes)
  unmeasurable : ∀ codes, h.Unmeasurable message codes →
    h.instantiate sender message = h.silently (.error (.unencodable (.ofCodes codes)))

/-! ## Actions over a buffer -/

theorem run_of_run_error {α : Type} {x : Ledger.Action α} {store : Store} {e : Failure}
    {buffer : Store} (hrun : EStateM.run x store.buffer = .error e buffer) :
    (run store x).1 = .error e := by
  rw [run, hrun]

theorem exists_run_of_error {α : Type} {x : Ledger.Action α} {store : Store} {e : Failure}
    (hrun : (run store x).1 = .error e) :
    ∃ buffer, EStateM.run x store.buffer = .error e buffer := by
  unfold run at hrun
  split at hrun
  · cases hrun
  · next e' buffer heq =>
    cases hrun
    exact ⟨buffer, heq⟩

/-! ## Commands -/

variable {h sender} {command : Command} {e : Failure}

theorem isVerdict_of_executeTyped
    (hclear : ∀ e, ¬ command.Obstructed h.ledger.addresses sender e)
    (hresult : (h.executeTyped sender command).result = .error e) : e.IsVerdict := by
  rw [executeTyped_result] at hresult
  obtain ⟨buffer, hrun⟩ := exists_run_of_error hresult
  exact Ledger.failsOnly_execute hclear _ _ _ hrun

/-- A command that fails with a verdict leaves the host as it was, which announces the verdict. -/
theorem executeTyped_of_isVerdict (hresult : (h.executeTyped sender command).result = .error e)
    (hverdict : e.IsVerdict) :
    h.executeTyped sender command = h.announcing (.error e) .commandRejected [sender]
      [("sender", .ofText sender), ("action", .str command.tag),
        ("reason", .str (e.message h.details))] := by
  rw [executeTyped_result] at hresult
  have hrun : run h.store (h.ledger.execute sender command) = (.error e, h.store) :=
    Prod.ext hresult (run_error (h.ledger.writesOnly_execute sender command)
      (Prod.ext hresult rfl))
  unfold executeTyped
  rw [hrun]
  exact if_pos hverdict

theorem executeTyped_of_obstructed (h' : command.Obstructed h.ledger.addresses sender e) :
    h.executeTyped sender command = h.silently (.error e) := by
  have hrun : run h.store (h.ledger.execute sender command) = (.error e, h.store) := by
    rw [run, Ledger.run_execute_of_obstructed h']
    rfl
  have hkind : ¬ (e.kind = .rejected ∨ e.kind = .corrupt) := by
    rw [h'.kind_eq]
    exact nofun
  unfold executeTyped
  rw [hrun]
  exact if_neg hkind

/-- An object that says no command cannot be read. -/
theorem execute_unreadable {message : Incoming Command} (hmessage : message.IsMessage)
    (hread : message.command? = none) (hresult : (h.execute sender message).result = .error e) :
    ∃ fault, e = .unreadable fault := by
  cases message with
  | typed command => cases hread
  | raw value =>
    cases value with
    | obj members =>
      rw [Incoming.command?] at hread
      rw [execute] at hresult
      split at hresult
      · next command hok =>
        rw [hok] at hread
        cases hread
      · next fault herror =>
        cases hresult
        exact ⟨fault, rfl⟩
    | _ => exact hmessage.elim

theorem commandFails (h : Host) (sender : AnyText) {message : Incoming Command}
    (hmessage : message.IsMessage) : CommandFails h sender message := by
  have hobstructed : ∀ e, h.Obstructed sender message e →
      h.execute sender message = h.silently (.error e) := by
    rintro e ⟨command, hread, hcommand⟩
    rw [h.execute_eq_typed sender hread]
    exact executeTyped_of_obstructed hcommand
  -- there is one failure at most, so another obstacle is no way out
  have hverdict : ∀ command e, message.command? = some command → ¬ h.Obstructed sender message e →
      (h.execute sender message).result = .error e → e.IsVerdict := by
    intro command e hread hclear hresult
    have hnone : ∀ e', ¬ command.Obstructed h.ledger.addresses sender e' := by
      intro e' hcommand
      have hsame := hobstructed e' ⟨command, hread, hcommand⟩
      rw [hsame] at hresult
      cases hresult
      exact hclear ⟨command, hread, hcommand⟩
    rw [h.execute_eq_typed sender hread] at hresult
    exact isVerdict_of_executeTyped hnone hresult
  refine ⟨fun e hresult => ⟨fun hother => ?_, ?_⟩, hobstructed, ?_⟩
  · by_contra hclear
    cases hread : message.command? with
    | none =>
      obtain ⟨fault, rfl⟩ := execute_unreadable hmessage hread hresult
      cases hother
    | some command =>
      rcases hverdict command e hread hclear hresult with hkind | hkind <;>
        rw [hother] at hkind <;> cases hkind
  · rintro ⟨command, -, hcommand⟩
    exact hcommand.kind_eq
  · intro command e hread hclear hresult
    have hends := hverdict command e hread hclear hresult
    rw [h.execute_eq_typed sender hread] at hresult ⊢
    exact executeTyped_of_isVerdict hresult hends

/-! ## Questions -/

/-- A question cannot be read, or fails with a verdict. -/
theorem query_cases {message : Incoming Query} (hmessage : message.IsMessage)
    (hresult : h.query message = .error e) : e.kind = .unreadable ∨ e.IsVerdict := by
  cases message with
  | typed q => exact .inr (Ledger.isVerdict_of_query e hresult)
  | raw value =>
    cases value with
    | obj members =>
      rw [query] at hresult
      split at hresult
      · exact .inr (Ledger.isVerdict_of_query e hresult)
      · cases hresult
        exact .inl rfl
    | _ => exact hmessage.elim

/-! ## Genesis -/

theorem instantiateTyped_of_unmeasurable {genesis : Genesis} {codes : List Nat}
    (hfresh : h.isInitialized = false) (hname : genesis.Unmeasurable h.ledger codes) :
    h.instantiateTyped sender genesis =
      h.silently (.error (.unencodable (.ofCodes codes))) := by
  obtain ⟨buffer, herror⟩ :=
    Ledger.run_instantiate_of_flaw h.store.buffer (Genesis.flaw?_of_unmeasurable hname)
  have hresult := run_of_run_error herror
  have hrun : run h.store (h.ledger.instantiate genesis) =
      (.error (.unencodable (.ofCodes codes)), h.store) :=
    Prod.ext hresult (run_error (h.ledger.writesOnly_instantiate genesis) (Prod.ext hresult rfl))
  rw [instantiateTyped, if_neg (by simp [hfresh]), hrun]

theorem flaw?_of_instantiateTyped {genesis : Genesis} (hfresh : h.isInitialized = false)
    (hresult : (h.instantiateTyped sender genesis).result = .error e) :
    genesis.flaw? h.ledger = some e := by
  rw [h.instantiateTyped_result sender genesis hfresh] at hresult
  obtain ⟨buffer, hrun⟩ := exists_run_of_error hresult
  cases hflaw : genesis.flaw? h.ledger with
  | none =>
    obtain ⟨s', hok, -⟩ := Ledger.run_instantiate_of_no_flaw h.store.buffer hflaw
    rw [hrun] at hok
    cases hok
  | some e' =>
    obtain ⟨s', herror⟩ := Ledger.run_instantiate_of_flaw h.store.buffer hflaw
    rw [hrun] at herror
    cases herror
    rfl

/-- A genesis cannot be read, or comes too late, or has a flaw. -/
theorem instantiate_cases {message : Incoming Genesis} (hmessage : message.IsMessage)
    (hresult : (h.instantiate sender message).result = .error e) :
    message.genesis? = none ∧ (∃ fault, e = .unreadable fault) ∨ e = .alreadyStarted ∨
      h.isInitialized = false ∧
        ∃ genesis, message.genesis? = some genesis ∧ genesis.flaw? h.ledger = some e := by
  cases hread : message.genesis? with
  | some genesis =>
    rw [h.instantiate_eq_typed sender hread] at hresult
    cases hstarted : h.isInitialized with
    | true =>
      rw [h.instantiateTyped_of_initialized sender genesis hstarted] at hresult
      cases hresult
      exact .inr (.inl rfl)
    | false => exact .inr (.inr ⟨rfl, genesis, rfl, flaw?_of_instantiateTyped hstarted hresult⟩)
  | none =>
    refine .inl ⟨rfl, ?_⟩
    cases message with
    | typed genesis => cases hread
    | raw value =>
      cases value with
      | obj members =>
        rw [Incoming.genesis?] at hread
        rw [instantiate] at hresult
        split at hresult
        · next genesis hok =>
          rw [hok] at hread
          cases hread
        · cases hresult
          exact ⟨_, rfl⟩
      | _ => exact hmessage.elim

theorem genesisFails (h : Host) (sender : AnyText) {message : Incoming Genesis}
    (hmessage : message.IsMessage) : GenesisFails h sender message := by
  have hbroken : ∀ codes, h.Unmeasurable message codes →
      h.instantiate sender message = h.silently (.error (.unencodable (.ofCodes codes))) := by
    rintro codes ⟨hfresh, genesis, hread, hname⟩
    rw [h.instantiate_eq_typed sender hread]
    exact instantiateTyped_of_unmeasurable hfresh hname
  have hkind : ∀ e, (h.instantiate sender message).result = .error e →
      e.kind = .unreadable ∨ e.kind = .rejected ∨
        ∃ codes, h.Unmeasurable message codes ∧ e = .unencodable (.ofCodes codes) := by
    intro e hresult
    obtain ⟨-, fault, rfl⟩ | rfl | ⟨hfresh, genesis, hread, hflaw⟩ :=
      instantiate_cases hmessage hresult
    · exact .inl rfl
    · exact .inr (.inl rfl)
    · rcases Genesis.flaw?_cases hflaw with hrejected | ⟨codes, hname, rfl⟩
      · exact .inr (.inl hrejected)
      · exact .inr (.inr ⟨codes, ⟨hfresh, genesis, hread, hname⟩, rfl⟩)
  refine ⟨fun e hresult => ?_, fun e hresult => ⟨fun hother => ?_, ?_⟩, hbroken⟩
  · obtain hkind | hkind | ⟨codes, -, rfl⟩ := hkind e hresult
    · rw [hkind]
      exact nofun
    · rw [hkind]
      exact nofun
    · exact nofun
  · obtain hkind | hkind | ⟨codes, hname, -⟩ := hkind e hresult
    · rw [hother] at hkind
      cases hkind
    · rw [hother] at hkind
      cases hkind
    · exact ⟨codes, hname⟩
  · rintro ⟨codes, hname⟩
    rw [hbroken codes hname] at hresult
    cases hresult
    rfl

/-- The failures of a host, over a store that holds anything. They are what callers are told to
expect and followers hear of, but for those that `Obstructed` and `Unmeasurable` describe. -/
theorem failures (h : Host) (sender : AnyText) :
    (∀ message : Incoming Command, message.IsMessage → CommandFails h sender message) ∧
      ∀ message : Incoming Genesis, message.IsMessage → GenesisFails h sender message :=
  ⟨fun _ hmessage => commandFails h sender hmessage,
    fun _ hmessage => genesisFails h sender hmessage⟩

/-- A name of letters that is one byte too long for a namespace. -/
def endlessName : String := String.ofList (List.replicate (Namespace.limit + 1) 'a')

theorem length_endlessName : Namespace.limit < (utf8 endlessName).length := by
  have hlength := length_le_length_utf8 endlessName
  rw [endlessName, String.toList_ofList, List.length_replicate] at hlength
  exact hlength

/-- A ledger without a supply, whose only balance record is too short: a burn finds that, while a
burn by a sender whose name is no whole text, and a grant by one whose name is too long, get past
the verdicts. -/
theorem failures_corrupt :
    let store := (Store.memory .empty).set (Slot.balance "alice").key [1, 2, 3]
    let observers : Observers := .none fun _ _ => .ok ()
    let host : Host := ⟨⟨.simple, ⟨3, 30, 3, 6⟩⟩, store, some observers, .none⟩
    let burn : Incoming Command := .typed (.burn .zero)
    let grant : Incoming Command := .typed (.approve "bob" .zero)
    let broken : Incoming Genesis := .typed ⟨.broken [0xD800], .whole "TOK", 2, []⟩
    host.execute "alice" burn =
        host.announcing (.error (.violation (.wrongWidth ⟨3⟩))) .commandRejected ["alice"]
          [("sender", .str "alice"), ("action", .str "burn"),
            ("reason", .str "Corrupted data found. 16 byte expected, got 3")] ∧
      host.execute endlessName grant = host.silently (.error (.noView .tooLong)) ∧
      host.execute (.broken [97, 0xD800]) burn =
        host.silently (.error (.unencodable ⟨1, 0xD800, 1⟩)) ∧
      host.instantiate "alice" broken =
        host.silently (.error (.unencodable ⟨0, 0xD800, 1⟩)) := by
  intro store observers host burn grant broken
  have halice := (failures host "alice").1 burn trivial
  have hendless := (failures host endlessName).1 grant trivial
  have hhalf := (failures host (.broken [97, 0xD800])).1 burn trivial
  have hbroken := (failures host "alice").2 broken trivial
  have hclear : ¬ host.Obstructed "alice" burn (.violation (.wrongWidth ⟨3⟩)) := by
    rintro ⟨command, -, ⟨⟩⟩
  refine ⟨halice.rejected _ _ rfl hclear rfl, hendless.obstructed _ ?_, hhalf.obstructed _ ?_,
    hbroken.unmeasurable [0xD800] ?_⟩
  · exact ⟨_, rfl, .long rfl length_endlessName rfl ⟨"bob", rfl⟩⟩
  · exact ⟨_, rfl, .broken rfl trivial⟩
  · exact ⟨rfl, _, rfl, rfl, rfl⟩

/-- A grant that comes as an object fails like this on an empty ledger, and nobody hears of it. -/
theorem execute_endlessName :
    let observers : Observers := .none fun _ _ => .ok ()
    let host : Host := ⟨⟨.simple, ⟨3, 30, 3, 6⟩⟩, .memory .empty, some observers, .none⟩
    let grant : Incoming Command :=
      .raw (.obj [("approve", .obj [("spender", .str "bob"), ("amount", .str "1")])])
    ∃ e, (host.execute endlessName grant).result = .error e ∧ e.kind = .other ∧
      (host.execute endlessName grant).announced.isNone := by
  intro observers host grant
  have hread : grant.command? = some (.approve "bob" ⟨1, by decide⟩) := by decide
  have hreply : host.execute endlessName grant = host.silently (.error (.noView .tooLong)) := by
    rw [host.execute_eq_typed endlessName hread]
    exact executeTyped_of_obstructed (.long rfl length_endlessName rfl ⟨"bob", rfl⟩)
  rw [hreply]
  exact ⟨_, rfl, rfl, rfl⟩

end Host

end FungibleLedger
