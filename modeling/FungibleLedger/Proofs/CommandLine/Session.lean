import FungibleLedger.Proofs.CommandLine.Endings
import FungibleLedger.Proofs.Files.Database
import FungibleLedger.Proofs.Host.Representation

/-!
# Runs over one database

Each run opens the database anew, lets a host make one call over its rows and puts the rows back.
Run after run, this comes to the same as one host that makes all the calls over a store of its own:
the database holds the records of that store, and a run shows what that host answers.

The two sides hold the same records in different stores. So a run is compared with the call of the
lasting host by `Host.Alike`, which calls respect, and the relation that carries the induction is
`Tracks` : the database opens, with the records of the host.

* `Request.call?`, `System.Makes` : the call that a request makes, or a run.
* `Leads` : runs that make calls, one after the other.
* `Tracks.after`, `Tracks.of_leads` : one run, and all of them.
* `System.refines_host` : what a run shows and leaves behind, after any runs before it.
-/

namespace FungibleLedger.CommandLine

/-! ## The call of a run -/

/-- The sender that a caller names. -/
def Caller.named? (caller : Caller) : Option String :=
  caller.sender.filter (· ≠ "")

/-- A command by the sender that a caller names, if that has room in a namespace. -/
def Caller.command? (caller : Caller) (message : Json.Members) : Option Call :=
  (caller.named?.filter fun sender => (utf8 sender).length ≤ Namespace.limit).map
    fun sender : String => .execute (.whole sender) (.raw (.obj message))

/-- The call that a request makes, if its caller is named and its genesis can be read. A request for
a wallet makes none. -/
def Request.call? (s : System) (c : Config) : Request → Option Call
  | .init genesis caller => do
    let path ← genesis <|> c.genesisFile
    let genesis ← (GenesisFile.read s.runtime.genesisDepth s.files path).toOption
    let sender ← caller.named?
    return .instantiate sender (.typed genesis)
  | .transfer recipient amount caller =>
    caller.command?
      [("transfer", .obj [("recipient", .str recipient), ("amount", .str amount)])]
  | .approve spender amount caller =>
    caller.command? [("approve", .obj [("spender", .str spender), ("amount", .str amount)])]
  | .transferFrom owner recipient amount caller =>
    caller.command?
      [("transfer_from",
        .obj [("owner", .str owner), ("recipient", .str recipient), ("amount", .str amount)])]
  | .burn amount caller => caller.command? [("burn", .obj [("amount", .str amount)])]
  | .balance holder => do
    let address ← holder.named?
    return .query (.raw (.obj [("balance", .obj [("address", .str address)])]))
  | .allowance owner spender =>
    some (.query (.raw (.obj
      [("allowance", .obj [("owner", .str owner), ("spender", .str spender)])])))
  | .info => some (.query (.raw (.obj [("token_info", .obj [])])))
  | .holders => some .holders
  | .createWallet .. | .walletAddress .. => none

namespace System

variable {s s' : System} {c : Config} {h : Host} {call : Call} {calls : List Call}
variable {arguments : List String}

/-- Whether a run under a configuration makes a call. -/
def Makes (s : System) (c : Config) (arguments : List String) (call : Call) : Prop :=
  ∃ run request, Run.ofArguments arguments = .ok run ∧ s.configOf run = .ok c ∧
    Request.ofArguments run.verb run.arguments = .ok request ∧
      request.call? s c = some call

/-- The system after a run. -/
def after (s : System) (fresh : Wallet) (arguments : List String) : System :=
  { s with files := (s.perform fresh arguments).2 }

theorem resolve_of_named {caller : Caller} {sender : String}
    (hnamed : caller.named? = some sender) : s.resolve c caller = .ok sender := by
  rw [Caller.named?] at hnamed
  rw [resolve, hnamed]

theorem exists_works_commandBy {caller : Caller} {message : Json.Members}
    (hcall : caller.command? message = some call) :
    ∃ work, Works call work ∧ s.commandBy c caller message = s.withHost c work := by
  simp only [Caller.command?, Option.map_eq_some_iff, Option.filter_eq_some_iff,
    decide_eq_true_eq] at hcall
  obtain ⟨sender, ⟨hnamed, hsender⟩, rfl⟩ := hcall
  exact ⟨_, .command message hsender, by rw [commandBy, resolve_of_named hnamed]⟩

theorem exists_works_initBy {genesis : Option Path} {caller : Caller}
    (hcall : (Request.init genesis caller).call? s c = some call) :
    ∃ work, Works call work ∧ s.initBy c genesis caller = s.withHost c work := by
  simp only [Request.call?, Option.bind_eq_bind, Option.bind_eq_some_iff, Option.pure_def,
    Option.some.injEq] at hcall
  obtain ⟨path, hpath, message, hread, sender, hnamed, rfl⟩ := hcall
  have hgenesis : readGenesis s.runtime s.files path = .ok message := by
    rw [readGenesis, ok_of_toOption hread]
  refine ⟨_, .init sender message, ?_⟩
  rw [initBy, hpath]
  dsimp only
  rw [hgenesis]
  dsimp only
  rw [resolve_of_named hnamed]

theorem exists_works_serve (fresh : Wallet) {request : Request}
    (hcall : request.call? s c = some call) :
    ∃ work, Works call work ∧ s.serve c fresh request = s.withHost c work := by
  cases request with
  | init genesis caller => exact exists_works_initBy hcall
  | transfer recipient amount caller => exact exists_works_commandBy hcall
  | approve spender amount caller => exact exists_works_commandBy hcall
  | transferFrom owner recipient amount caller => exact exists_works_commandBy hcall
  | burn amount caller => exact exists_works_commandBy hcall
  | balance holder =>
    simp only [Request.call?, Option.bind_eq_bind, Option.bind_eq_some_iff, Option.pure_def,
      Option.some.injEq] at hcall
    obtain ⟨address, hnamed, rfl⟩ := hcall
    exact ⟨_, .query _, by rw [serve, resolve_of_named hnamed]⟩
  | allowance owner spender =>
    cases hcall
    exact ⟨_, .query _, rfl⟩
  | info =>
    cases hcall
    exact ⟨_, .query _, rfl⟩
  | holders =>
    cases hcall
    exact ⟨_, .holders, rfl⟩
  | createWallet name path => cases hcall
  | walletAddress name path => cases hcall

/-- A run serves the request that its arguments make. -/
theorem perform_eq_serve {run : Run} {request : Request}
    (hrun : Run.ofArguments arguments = .ok run) (hconfig : s.configOf run = .ok c)
    (hrequest : Request.ofArguments run.verb run.arguments = .ok request) (fresh : Wallet) :
    s.perform fresh arguments = s.serve c fresh request := by
  rw [perform, hrun]
  dsimp only
  rw [hconfig]
  dsimp only
  rw [hrequest]

theorem exists_works (hmakes : s.Makes c arguments call) (fresh : Wallet) :
    ∃ work, Works call work ∧ s.perform fresh arguments = s.withHost c work := by
  obtain ⟨run, request, hrun, hconfig, hrequest, hcall⟩ := hmakes
  obtain ⟨work, hw, hserve⟩ := exists_works_serve fresh hcall
  exact ⟨work, hw, (perform_eq_serve hrun hconfig hrequest fresh).trans hserve⟩

/-! ## One run -/

/-- Work over a database ends as it does over its rows, and those that it leaves are put back. -/
theorem withHost_of_works {work : Host → Done} {names : List String} {rows : Table}
    (hw : Works call work) (hopens : s.files.Opens c.dbPath names rows) :
    let host : Host := ⟨c.ledger, .table rows, none, s.runtime.details⟩
    (s.withHost c work).1 = (work host).ending ∧ ∃ rows', (host.after call).store = .table rows' ∧
      (s.withHost c work).2.Stores c.dbPath names rows' := by
  intro host
  obtain ⟨db, g, hopen, hrows, hstores⟩ := hopens.opened
  obtain ⟨rows', hafter⟩ := Host.exists_table_after (h := host) rfl call
  have hleft : (work host).host.store = .table rows' := by rw [hw.host, hafter]
  have hrun : s.withHost c work = ((work host).ending, g.putDatabase names db rows') := by
    rw [withHost, hopen]
    dsimp only
    rw [hrows, hleft]
  rw [hrun]
  exact ⟨rfl, rows', hafter, hstores.putDatabase hrows rows'⟩

/-- A host and the database of a configuration, which opens with the records of the host. -/
structure Tracks (s : System) (c : Config) (h : Host) : Prop where
  ledger : h.ledger = c.ledger
  stored : ∃ names rows, s.files.Opens c.dbPath names rows ∧ (Store.table rows).Alike h.store

namespace Tracks

theorem rowsAt (ht : s.Tracks c h) : (Store.table (s.files.rowsAt c.dbPath)).Alike h.store := by
  obtain ⟨names, rows, hopens, hrows⟩ := ht.stored
  rwa [hopens.rowsAt_eq]

theorem after (ht : s.Tracks c h) (hsound : Ledger.Sound h.store)
    (hmakes : s.Makes c arguments call) (fresh : Wallet) :
    Shows s.runtime.details call (h.outcome call) (s.perform fresh arguments).1 ∧
      ((∃ cause, (s.perform fresh arguments).1 = .broken cause) ↔
        ∃ sender message codes, call = .instantiate sender message ∧
          h.Unmeasurable message codes) ∧
      (s.after fresh arguments).Tracks c (h.after call) := by
  obtain ⟨work, hw, hperform⟩ := exists_works hmakes fresh
  obtain ⟨names, rows, hopens, hrows⟩ := ht.stored
  -- the host of the run has the records of the lasting host, and none who follow its calls
  let host : Host := ⟨c.ledger, .table rows, none, s.runtime.details⟩
  have halike : host.Alike h := ⟨ht.ledger.symm, hrows⟩
  have hsound' : Ledger.Sound host.store := hsound.congr hrows.symm
  obtain ⟨hending, rows', hafter, hstores⟩ := withHost_of_works hw hopens
  refine ⟨?_, ?_, ?_, names, rows', ?_, ?_⟩
  · rw [hperform, hending, ← Host.outcome_congr halike]
    exact hw.shows hsound'
  · rw [hperform, hending, hw.broken_iff hsound']
    simp only [halike.unmeasurable_iff]
  · rw [h.ledger_after, ht.ledger]
  · rw [System.after, hperform]
    exact hstores.opens
  · rw [← hafter]
    exact (halike.after call).store

end Tracks

/-! ## All runs -/

/-- Runs under one configuration lead from a system to another one and make calls. -/
inductive Leads (c : Config) (s : System) : List Call → System → Prop
  | start : Leads c s [] s
  | run {calls : List Call} {s' : System} {arguments : List String} {call : Call} (fresh : Wallet)
      (hleads : Leads c s calls s') (hmakes : s'.Makes c arguments call) :
      Leads c s (calls ++ [call]) (s'.after fresh arguments)

/-- Before the first run, there are no records. -/
theorem tracks_of_admits (hadmits : s.files.Admits c.dbPath) (observers : Option Observers) :
    s.Tracks c ⟨c.ledger, .memory .empty, observers, s.runtime.details⟩ := by
  obtain ⟨names, hopens⟩ := hadmits.opens
  exact ⟨rfl, names, .empty, hopens, fun key => rfl⟩

theorem tracks_of_leads (hadmits : s.files.Admits c.dbPath) (observers : Option Observers)
    (hleads : Leads c s calls s') :
    s'.Tracks c
      ((Host.mk c.ledger (.memory .empty) observers s.runtime.details).afterAll calls) := by
  induction hleads with
  | start => exact tracks_of_admits hadmits observers
  | run fresh _ hmakes ih =>
    rw [Host.afterAll_concat]
    exact (ih.after (Host.sound_afterAll (fun key => rfl) _) hmakes fresh).2.2

/-! ## A ledger from one file -/

/-- A system whose only file is a genesis file. -/
def ofGenesis (text : String) : System :=
  ⟨⟨[(["genesis.json"], .file (utf8 text))], []⟩, ⟨"/", []⟩,
    [("TOKENLEDGER_ADDRESS_FORMAT", "simple")], .plain⟩

/-- The configuration of the runs in such a system. -/
def simple : Config := { Config.default "/" with addressFormat := .simple }

theorem runtime_ofGenesis (text : String) : (ofGenesis text).runtime = Runtime.plain := rfl

theorem admits_ofGenesis (text : String) : (ofGenesis text).files.Admits simple.dbPath :=
  ⟨_, _, _, rfl, rfl⟩

/-- The genesis that a text writes, as a file. -/
def genesis? (text : String) : Option Genesis := do
  let value ← (Json.read (.file Runtime.plain.genesisDepth) (Json.joinLines text.toList)).toOption
  (Genesis.ofJson value).toOption

theorem read_ofGenesis (text : String) :
    (GenesisFile.read Runtime.plain.genesisDepth (ofGenesis text).files
      ⟨0, ["genesis.json"]⟩).toOption = genesis? text := by
  have hfile : (ofGenesis text).files.read ⟨0, ["genesis.json"]⟩ = .ok (utf8 text) := rfl
  rw [GenesisFile.read, hfile]
  dsimp only
  rw [Json.ofFile, Utf8.decode_utf8]
  dsimp only
  rw [genesis?]
  cases Json.read (.file Runtime.plain.genesisDepth) (Json.joinLines text.toList) with
  | error e => rfl
  | ok value =>
    dsimp only [Except.mapError]
    cases hgenesis : Genesis.ofJson value with
    | error rejection => simp [Except.toOption, hgenesis]
    | ok genesis => simp [Except.toOption, hgenesis]

/-- The arguments of a start from the genesis file of `ofGenesis`, and what they ask for. -/
theorem ofArguments_init :
    let arguments := ["--genesis", "genesis.json", "--sender", "creator"]
    Run.ofArguments ("init" :: arguments) = .ok ⟨none, false, .init, arguments⟩ ∧
      Request.ofArguments .init arguments =
        .ok (.init (some ⟨0, ["genesis.json"]⟩) ⟨some "creator", none, none⟩) :=
  ⟨rfl, by decide +kernel⟩

theorem makes_init {text : String} {genesis : Genesis} (hread : genesis? text = some genesis) :
    (ofGenesis text).Makes simple ["init", "--genesis", "genesis.json", "--sender", "creator"]
      (.instantiate "creator" (.typed genesis)) := by
  obtain ⟨hrun, hrequest⟩ := ofArguments_init
  refine ⟨_, _, hrun, rfl, hrequest, ?_⟩
  have hnamed : Caller.named? ⟨some "creator", none, none⟩ = some "creator" := rfl
  simp [Request.call?, runtime_ofGenesis, read_ofGenesis, hread, hnamed]

/-! ## The host in memory -/

/-- Runs over a database that is new at first do what one host over a store in memory does with
their calls. -/
theorem refines_host (hadmits : s.files.Admits c.dbPath) (hleads : Leads c s calls s')
    (hmakes : s'.Makes c arguments call) (fresh : Wallet) (observers : Option Observers) :
    let host := (Host.mk c.ledger (.memory .empty) observers s.runtime.details).afterAll calls
    let ending := (s'.perform fresh arguments).1
    let rows := (s'.after fresh arguments).files.rowsAt c.dbPath
    Shows s'.runtime.details call (host.outcome call) ending ∧
      (Store.table rows).Alike (host.after call).store ∧
      (ending.code ≠ 0 → (Store.table rows).Alike (.table (s'.files.rowsAt c.dbPath))) ∧
      ((∃ cause, ending = .broken cause) ↔
        ∃ sender message codes, call = .instantiate sender message ∧
          host.Unmeasurable message codes) := by
  intro host ending rows
  have htracks := tracks_of_leads hadmits observers hleads
  obtain ⟨hshows, hbroken, hafter⟩ :=
    htracks.after (Host.sound_afterAll (fun key => rfl) calls) hmakes fresh
  refine ⟨hshows, hafter.rowsAt, fun hcode => ?_, hbroken⟩
  obtain ⟨e, hfailure⟩ := hshows.exists_failure hcode
  have hsame : (host.after call).store = host.store := by rw [Host.after_of_failure? hfailure]
  have hrows := hafter.rowsAt
  rw [hsame] at hrows
  exact hrows.trans htracks.rowsAt.symm

/-- A ledger starts, a transfer is applied, and then the holders are those of a host in memory. -/
theorem refines_host_transfer :
    let text := "\x7b\"name\": \"Token\", \"symbol\": \"TOK\", \"decimals\": 2, " ++
      "\"initial_balances\": [\x7b\"address\": \"alice\", \"amount\": \"5\"\x7d]\x7d"
    let fresh : Wallet := ⟨List.replicate 32 0, by decide⟩
    let started := (ofGenesis text).after fresh
      ["init", "--genesis", "genesis.json", "--sender", "creator"]
    let paid := started.after fresh
      ["transfer", "--to", "bob", "--amount", "2", "--sender", "alice"]
    (paid.perform fresh ["holders"]).1 = .said ["alice\t3", "bob\t2"] := by
  intro text fresh started paid
  let genesis : Genesis :=
    ⟨.whole "Token", .whole "TOK", 2, [⟨.whole "alice", ⟨5, by decide⟩⟩]⟩
  let calls : List Call := [.instantiate "creator" (.typed genesis),
    .execute "alice" (.raw (.obj
      [("transfer", .obj [("recipient", .str "bob"), ("amount", .str "2")])]))]
  have hread : genesis? text = some genesis := by decide +kernel
  have htransfer : started.Makes simple
      ["transfer", "--to", "bob", "--amount", "2", "--sender", "alice"] calls[1] :=
    ⟨⟨none, false, .transfer, ["--to", "bob", "--amount", "2", "--sender", "alice"]⟩,
      .transfer "bob" "2" ⟨some "alice", none, none⟩, rfl, rfl, by decide +kernel, rfl⟩
  have hholders : paid.Makes simple ["holders"] .holders :=
    ⟨⟨none, false, .holders, []⟩, .holders, rfl, rfl, rfl, rfl⟩
  have hleads : Leads simple (ofGenesis text) calls paid :=
    (Leads.start.run fresh (makes_init hread)).run fresh htransfer
  let host : Host := ⟨simple.ledger, .memory .empty, none, Runtime.plain.details⟩
  have houtcome : (host.afterAll calls).holders =
      .ok [("alice", ⟨3, by decide⟩), ("bob", ⟨2, by decide⟩)] := by decide +kernel
  obtain ⟨hshows, -⟩ := refines_host (admits_ofGenesis text) hleads hholders fresh none
  rw [Host.outcome, runtime_ofGenesis, houtcome] at hshows
  generalize (paid.perform fresh ["holders"]).1 = ending at hshows ⊢
  cases hshows with
  | listed rows => rfl
  | refused hfailure _ => cases hfailure
  | corrupt hfailure _ => cases hfailure

/-- A start is broken off whose name holds lone halves of a pair. -/
theorem perform_broken_name :
    let text := "\x7b\"name\": \"\\ud800\\ud800\\ud800\", \"symbol\": \"TOK\", " ++
      "\"decimals\": 2\x7d"
    let fresh : Wallet := ⟨List.replicate 32 0, by decide⟩
    let genesis : Genesis := ⟨.broken [0xD800, 0xD800, 0xD800], .whole "TOK", 2, []⟩
    let arguments := ["init", "--genesis", "genesis.json", "--sender", "creator"]
    (ofGenesis text).files.Admits simple.dbPath ∧
      (ofGenesis text).Makes simple arguments (.instantiate "creator" (.typed genesis)) ∧
        ∃ cause, ((ofGenesis text).perform fresh arguments).1 = .broken cause := by
  intro text fresh genesis arguments
  have hread : genesis? text = some genesis := by decide +kernel
  have hmakes := makes_init hread
  have htracks := tracks_of_admits (admits_ofGenesis text) none
  obtain ⟨-, hbroken, -⟩ := htracks.after (Ledger.sound_of_empty fun key => rfl) hmakes fresh
  exact ⟨admits_ofGenesis text, hmakes,
    hbroken.2 ⟨_, _, [0xD800, 0xD800, 0xD800], rfl, rfl, genesis, rfl, rfl, rfl⟩⟩

end System

end FungibleLedger.CommandLine
