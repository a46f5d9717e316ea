import FungibleLedger.Proofs.CommandLine.Session
import FungibleLedger.Proofs.Ledger.Holders

/-!
# Runs over corrupt records

A database can hold records that no call has written. Whatever they are, a command and a query end
with an exit code: what is wrong with the records is a failure of the call, and the run complains of
it (`Works.shows_command`, `Works.shows_query`). The list of the holders has nothing of the kind. It
is broken off if one balance record cannot be read (`System.shows_corrupt`).

* `Request.Stands` : a request to a ledger that stands, from a caller who is known.
* `Request.Calls` : the call that such a request makes.
* `System.ofRows` : a system with a database of given rows.
-/

namespace FungibleLedger.CommandLine

variable {s : System} {c : Config} {request : Request} {call : Call}

/-! ## Requests -/

/-- A request to a ledger that stands, from a caller who is known: a command by a sender who has
room in a namespace, a query or the list of the holders. -/
def Request.Stands (s : System) (c : Config) : Request → Prop
  | .transfer _ _ caller | .approve _ _ caller | .transferFrom _ _ _ caller | .burn _ caller =>
    ∃ sender, caller.named? = some sender ∧ (utf8 sender).length ≤ Namespace.limit
  | .balance holder => ∃ address, s.resolve c holder = .ok address
  | .allowance .. | .info | .holders => True
  | .init .. | .createWallet .. | .walletAddress .. => False

/-- The call that a request makes. The balance of an address may also be asked for by the wallet
that has the address. -/
inductive Request.Calls (s : System) (c : Config) : Request → Call → Prop
  | given {request : Request} {call : Call} (hcall : request.call? s c = some call) :
      Calls s c request call
  | wallet {holder : Caller} {address : String} (haddress : s.resolve c holder = .ok address) :
      Calls s c (.balance holder)
        (.query (.raw (.obj [("balance", .obj [("address", .str address)])])))

theorem Caller.exists_command? {caller : Caller} {sender : String} (message : Json.Members)
    (hnamed : caller.named? = some sender) (hsender : (utf8 sender).length ≤ Namespace.limit) :
    ∃ call, caller.command? message = some call := by
  rw [command?, hnamed, Option.filter_some, if_pos (decide_eq_true hsender)]
  exact ⟨_, rfl⟩

theorem Request.Stands.exists_calls (hstands : request.Stands s c) :
    ∃ call, request.Calls s c call := by
  cases request with
  | transfer | approve | transferFrom | burn =>
    obtain ⟨sender, hnamed, hsender⟩ := hstands
    exact (Caller.exists_command? _ hnamed hsender).imp fun _ => .given
  | balance holder => exact ⟨_, .wallet hstands.choose_spec⟩
  | allowance | info | holders => exact ⟨_, .given rfl⟩
  | init | createWallet | walletAddress => exact hstands.elim

/-- A request to a ledger that stands asks for its holders, or it is a command or a query. -/
theorem Request.Calls.kinds (hcalls : request.Calls s c call) (hstands : request.Stands s c) :
    (request = .holders ∧ call = .holders) ∨
      (request ≠ .holders ∧ ((∃ sender message, call = .execute sender message) ∨
        ∃ message, call = .query message)) := by
  cases hcalls with
  | wallet haddress => exact .inr ⟨nofun, .inr ⟨_, rfl⟩⟩
  | given hcall =>
    cases request with
    | transfer | approve | transferFrom | burn =>
      obtain ⟨_, -, rfl⟩ := Option.map_eq_some_iff.1 hcall
      exact .inr ⟨nofun, .inl ⟨_, _, rfl⟩⟩
    | balance holder =>
      obtain ⟨_, -, heq⟩ := Option.bind_eq_some_iff.1 hcall
      cases heq
      exact .inr ⟨nofun, .inr ⟨_, rfl⟩⟩
    | allowance | info =>
      cases hcall
      exact .inr ⟨nofun, .inr ⟨_, rfl⟩⟩
    | holders =>
      cases hcall
      exact .inl ⟨rfl, rfl⟩
    | init | createWallet | walletAddress => exact hstands.elim

theorem Request.Calls.exists_works (hcalls : request.Calls s c call) (fresh : Wallet) :
    ∃ work, Works call work ∧ s.serve c fresh request = s.withHost c work := by
  cases hcalls with
  | given hcall => exact System.exists_works_serve fresh hcall
  | wallet haddress => exact ⟨_, .query _, by rw [System.serve, haddress]⟩

/-! ## What is shown -/

/-- A call that is shown breaks nothing off, unless it is a start. -/
theorem Shows.ne_broken {details : Schema.Details} {outcome : Host.Outcome} {ending : Ending}
    (hshows : Shows details call outcome ending)
    (hstart : ∀ sender message, call ≠ .instantiate sender message) (cause : Breakdown) :
    ending ≠ .broken cause := by
  rintro rfl
  obtain ⟨sender, message, -, hcall, -⟩ := hshows.exists_start
  exact hstart sender message hcall

/-- One balance record that cannot be read breaks the list off. -/
theorem broken_runHolders {h : Host} (hlistable : ¬ Ledger.Listable h.store) :
    ∃ e, h.holders = .error e ∧ (runHolders h).ending = .broken (.call e) := by
  rw [Ledger.listable_iff] at hlistable
  rw [runHolders]
  cases hholders : h.holders with
  | ok list => exact absurd ⟨list, hholders⟩ hlistable
  | error e => exact ⟨e, rfl, rfl⟩

namespace System

/-- A run with a request to a ledger that stands ends with what became of the call, whatever the
rows of its database are: with 0 and a result, with 1 and why it was refused, or with 2 and what is
corrupt. Only a list of holders is broken off instead, if one of the balance records cannot be
read. -/
theorem shows_corrupt {run : Run} {arguments names : List String} {rows : Table}
    (hrun : Run.ofArguments arguments = .ok run) (hconfig : s.configOf run = .ok c)
    (hrequest : Request.ofArguments run.verb run.arguments = .ok request)
    (hstands : request.Stands s c) (hopens : s.files.Opens c.dbPath names rows) (fresh : Wallet) :
    let host : Host := ⟨c.ledger, .table rows, none, s.runtime.details⟩
    let ending := (s.perform fresh arguments).1
    ∃ call, request.Calls s c call ∧
      ((request = .holders → Ledger.Listable host.store) →
        Shows s.runtime.details call (host.outcome call) ending ∧
          ∀ cause, ending ≠ .broken cause) ∧
      (request = .holders → ¬ Ledger.Listable host.store →
        ∃ e, host.holders = .error e ∧ ending = .broken (.call e)) := by
  intro host ending
  obtain ⟨call, hcalls⟩ := hstands.exists_calls
  obtain ⟨work, hw, hserve⟩ := hcalls.exists_works fresh
  have hending : ending = (work host).ending := by
    show (s.perform fresh arguments).1 = _
    rw [perform_eq_serve hrun hconfig hrequest, hserve]
    exact (withHost_of_works hw hopens).1
  refine ⟨call, hcalls, ?_⟩
  rw [hending]
  rcases hcalls.kinds hstands with ⟨hholders, rfl⟩ | ⟨hother, hcall⟩
  · cases hw with
    | holders =>
      refine ⟨fun hlistable => ?_, fun _ => broken_runHolders⟩
      have hshows := Works.shows_holders (hlistable hholders)
      exact ⟨hshows, hshows.ne_broken (by simp)⟩
  · refine ⟨fun _ => ?_, fun hholders => absurd hholders hother⟩
    have hshows : Shows host.details call (host.outcome call) (work host).ending := by
      cases hw with
      | command message hsender => exact Works.shows_command hsender host
      | query message => exact Works.shows_query message host
      | holders | init => simp at hcall
    refine ⟨hshows, hshows.ne_broken ?_⟩
    rintro sender message rfl
    simp at hcall

/-! ## A balance record that is too short -/

/-- A system whose only file is a database of given rows. -/
def ofRows (rows : Table) : System :=
  ⟨⟨[([".tokenledger"], .folder), ([".tokenledger", "ledger.db"], .database (.ofRows rows))], []⟩,
    ⟨"/", []⟩, [("TOKENLEDGER_ADDRESS_FORMAT", "simple")], .plain⟩

theorem opens_ofRows (rows : Table) :
    (ofRows rows).files.Opens simple.dbPath [".tokenledger", "ledger.db"] rows :=
  Files.Stores.opens ⟨by decide, rfl, rfl, ⟨_, rfl, rfl⟩, rfl, rfl⟩

/-- Rows with one balance record of one byte. -/
def shortRows : Table := KeyMap.empty.insert (Slot.balance "alice").key [1]

/-- The host of a run over these rows. -/
def shortHost : Host := ⟨simple.ledger, .table shortRows, none, .none⟩

theorem shortHost_eq : shortHost =
    ⟨simple.ledger, .table shortRows, none, (ofRows shortRows).runtime.details⟩ := rfl

/-- Who asks for the balance is told that it is corrupt. -/
theorem shows_corrupt_balance :
    let fresh : Wallet := ⟨List.replicate 32 0, by decide⟩
    ((ofRows shortRows).perform fresh ["balance", "alice"]).1 =
      .complaint 2 "💥 Corrupted data found. 16 byte expected, got 1" := by
  intro fresh
  let message : Json.Members := [("balance", .obj [("address", .str "alice")])]
  have hanswer : shortHost.query (.raw (.obj message)) =
      .error (.violation (.wrongWidth ⟨1⟩)) := by decide +kernel
  have hrun : Run.ofArguments ["balance", "alice"] = .ok ⟨none, false, .balance, ["alice"]⟩ := rfl
  have hstands : Request.Stands (ofRows shortRows) simple
      (.balance ⟨some "alice", none, none⟩) := ⟨"alice", rfl⟩
  obtain ⟨call, hcalls, hshows, -⟩ :=
    shows_corrupt hrun rfl rfl hstands (opens_ofRows shortRows) fresh
  have hcall : call = .query (.raw (.obj message)) := by
    cases hcalls with
    | given hcall =>
      cases hcall
      rfl
    | wallet haddress =>
      cases haddress
      rfl
  obtain ⟨hshown, -⟩ := hshows nofun
  rw [hcall, Host.outcome, ← shortHost_eq, hanswer] at hshown
  generalize ((ofRows shortRows).perform fresh ["balance", "alice"]).1 = ending at hshown ⊢
  cases hshown with
  | refused hfailure hkind =>
    cases hfailure
    simp [Failure.kind] at hkind
  | corrupt hfailure hkind =>
    cases hfailure
    rfl

/-- Who asks for the holders is not told; the run is broken off. -/
theorem perform_short_balance :
    let fresh : Wallet := ⟨List.replicate 32 0, by decide⟩
    (∃ e, shortHost.holders = .error e ∧ e.kind = .corrupt) ∧
      ((ofRows shortRows).perform fresh ["holders"]).1 =
        .broken (.call (.violation (.wrongWidth ⟨1⟩))) := by
  intro fresh
  have hholders : shortHost.holders = .error (.violation (.wrongWidth ⟨1⟩)) := by decide +kernel
  refine ⟨⟨_, hholders, rfl⟩, ?_⟩
  have hperform : (ofRows shortRows).perform fresh ["holders"] =
      (ofRows shortRows).withHost simple runHolders := rfl
  rw [hperform, (withHost_of_works .holders (opens_ofRows shortRows)).1, ← shortHost_eq,
    runHolders, hholders]

end System

end FungibleLedger.CommandLine
