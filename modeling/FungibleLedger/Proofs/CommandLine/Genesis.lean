import FungibleLedger.Proofs.CommandLine.Session
import FungibleLedger.Proofs.Json.Reading

/-!
# A ledger from any genesis file

A start reads a genesis file of any content, or none, and gives the genesis to a ledger. Over a
database without records this ends in one of four ways (`Starts`): the ledger stands as the file
says; the file is no genesis, or the genesis is refused, and the run complains of it; or the run is
broken off. In all but the first the database stays without records.

What breaks a run off can be told from the file (`GenesisFile.Escapes`): a whole number of too many
digits, a container nested too deep, a name that holds half of a pair when the seeds are good, or a
null character in the path.

* `Host.instantiate_of_no_flaw`, `Host.instantiate_of_flaw` : the end of a genesis, through a host.
* `GenesisFile.Unread.exists_fault`, `GenesisFile.readGenesis_of_quiet` : what becomes of a file
  that gives no genesis.
* `starts_of_no_flaw`, `starts_of_flaw` : what becomes of a genesis.
* `System.starts_of_init` : what becomes of a start.
-/

namespace FungibleLedger

/-! ## The genesis of a fresh host -/

theorem Genesis.Leaves.congr {g : Genesis} {s s' t t' : Store} (hleaves : g.Leaves s s')
    (hs : ∀ key, t.get? key = s.get? key) (hs' : ∀ key, t'.get? key = s'.get? key) :
    g.Leaves t t' where
  balances seed hseed account haddress := by
    rw [hs']
    exact hleaves.balances seed hseed account haddress
  supply := by simpa only [hs'] using hleaves.supply
  metadata := by simpa only [hs'] using hleaves.metadata
  rest key hsupply hplace hseeds := by rw [hs, hs', hleaves.rest key hsupply hplace hseeds]

namespace Host

variable {h : Host} {genesis : Genesis} {e : Failure}

/-- A genesis without a flaw starts a host that has not started, and leaves what it says. -/
theorem instantiate_of_no_flaw (hfresh : h.isInitialized = false)
    (hflaw : genesis.flaw? h.ledger = none) (sender : String) :
    (h.instantiate sender (.typed genesis)).result = .ok .empty ∧
      genesis.Leaves h.store (h.after (.instantiate sender (.typed genesis))).store := by
  obtain ⟨buffer, hrun, hleaves⟩ := Ledger.run_instantiate_of_no_flaw h.store.buffer hflaw
  have hresult : (run h.store (h.ledger.instantiate genesis)).1 = .ok .empty := by
    rw [run, hrun]
  have hafter : (h.after (.instantiate sender (.typed genesis))).store =
      (run h.store (h.ledger.instantiate genesis)).2 := by
    show (h.instantiateTyped sender genesis).host.store = _
    rw [h.instantiateTyped_host sender genesis hfresh]
  obtain ⟨buffer', hrun', hget⟩ :=
    run_ok (h.ledger.writesOnly_instantiate genesis) (Prod.ext hresult rfl)
  cases hrun'.symm.trans hrun
  refine ⟨(h.instantiateTyped_result sender genesis hfresh).trans hresult, ?_⟩
  rw [hafter]
  exact hleaves.congr (fun key => (Store.get?_buffer ..).symm) hget

/-- A genesis with a flaw fails with it. -/
theorem instantiate_of_flaw (hfresh : h.isInitialized = false)
    (hflaw : genesis.flaw? h.ledger = some e) (sender : String) :
    (h.instantiate sender (.typed genesis)).result = .error e := by
  obtain ⟨buffer, hrun⟩ := Ledger.run_instantiate_of_flaw h.store.buffer hflaw
  exact (h.instantiateTyped_result sender genesis hfresh).trans (run_of_run_error hrun)

end Host

/-! ## Genesis files -/

namespace GenesisFile

open CommandLine (Breakdown Runtime)

variable {runtime : Runtime} {files : Files} {path : Path} {cause : Breakdown}

/-- What breaks a run off while it reads a genesis file. -/
inductive Unread (runtime : Runtime) (files : Files) (path : Path) : Breakdown → Prop
  | nullCharacter {shown : String} (hfile : files.read path = .error ⟨.nullCharacter, shown⟩) :
      Unread runtime files path (.file ⟨.nullCharacter, shown⟩)
  | digits {bytes : Bytes} {count : ℕ} (hfile : files.read path = .ok bytes)
      (hjson : Json.ofFile runtime.genesisDepth bytes = .error (.invalid (.digits count))) :
      Unread runtime files path (.genesis (.invalid (.digits count)))
  | depth {bytes : Bytes} {container : Json.Container} (hfile : files.read path = .ok bytes)
      (hjson : Json.ofFile runtime.genesisDepth bytes = .error (.invalid (.depth container))) :
      Unread runtime files path (.genesis (.invalid (.depth container)))

/-- What breaks off a start from a genesis file, over a database without records. -/
inductive Escapes (runtime : Runtime) (l : Ledger) (files : Files) (path : Path) : Breakdown → Prop
  | unread {cause : Breakdown} (h : Unread runtime files path cause) :
      Escapes runtime l files path cause
  | name {genesis : Genesis} {codes : List ℕ}
      (hread : read runtime.genesisDepth files path = .ok genesis)
      (hname : genesis.Unmeasurable l codes) :
      Escapes runtime l files path (.call (.unencodable (.ofCodes codes)))

theorem read_of_file_error {e : FileError} (depth : ℕ) (h : files.read path = .error e) :
    read depth files path = .error (.file e) := by
  rw [read, h]

theorem read_of_json_error {depth : ℕ} {bytes : Bytes} {e : Json.FileError}
    (h : files.read path = .ok bytes) (hjson : Json.ofFile depth bytes = .error e) :
    read depth files path = .error (.unreadable e) := by
  rw [read, h]
  dsimp only
  rw [hjson]

theorem Unread.exists_fault (h : Unread runtime files path cause) :
    ∃ fault, read runtime.genesisDepth files path = .error fault ∧
      CommandLine.readGenesis runtime files path = .error (.broken cause) := by
  cases h with
  | nullCharacter hfile =>
    have hread := read_of_file_error runtime.genesisDepth hfile
    exact ⟨_, hread, by rw [CommandLine.readGenesis, hread]⟩
  | digits hfile hjson =>
    have hread := read_of_json_error hfile hjson
    exact ⟨_, hread, by rw [CommandLine.readGenesis, hread]⟩
  | depth hfile hjson =>
    have hread := read_of_json_error hfile hjson
    exact ⟨_, hread, by rw [CommandLine.readGenesis, hread]⟩

/-- What escapes from a file with a genesis in it is a flaw that is no refusal. -/
theorem Escapes.of_read {l : Ledger} {genesis : Genesis} (h : Escapes runtime l files path cause)
    (hread : read runtime.genesisDepth files path = .ok genesis) :
    ∃ e, genesis.flaw? l = some e ∧ e.kind = .other ∧ cause = .call e := by
  cases h with
  | unread h =>
    obtain ⟨fault, hfault, -⟩ := h.exists_fault
    rw [hfault] at hread
    cases hread
  | name hread' hname =>
    cases hread'.symm.trans hread
    exact ⟨_, Genesis.flaw?_of_unmeasurable hname, rfl, rfl⟩

theorem Escapes.unique {l : Ledger} {cause' : Breakdown} (h : Escapes runtime l files path cause)
    (h' : Escapes runtime l files path cause') : cause = cause' := by
  cases h with
  | name hread hname =>
    obtain ⟨e, hflaw, -, rfl⟩ := h'.of_read hread
    rw [Genesis.flaw?_of_unmeasurable hname] at hflaw
    cases hflaw
    rfl
  | unread h =>
    obtain ⟨fault, hfault, hcause⟩ := h.exists_fault
    cases h' with
    | name hread _ =>
      rw [hfault] at hread
      cases hread
    | unread h' =>
      obtain ⟨-, -, hcause'⟩ := h'.exists_fault
      cases hcause.symm.trans hcause'
      rfl

theorem readGenesis_of_quiet {fault : Fault}
    (hread : read runtime.genesisDepth files path = .error fault)
    (hquiet : ∀ cause, ¬ Unread runtime files path cause) :
    CommandLine.readGenesis runtime files path = .error
      (.complaint 1 s!"❌ Cannot read {path.toString}: {fault.message runtime.details}") := by
  rw [CommandLine.readGenesis, hread]
  rw [read] at hread
  split at hread
  · next e hfile =>
    cases hread
    obtain ⟨fault, shown⟩ := e
    cases fault with
    | nullCharacter => exact absurd (.nullCharacter hfile) (hquiet _)
    | _ => rfl
  · next bytes hfile =>
    split at hread
    · next e hjson =>
      cases hread
      cases e with
      | undecodable => rfl
      | invalid e =>
        cases e with
        | malformed => rfl
        | digits count => exact absurd (.digits hfile hjson) (hquiet _)
        | depth container => exact absurd (.depth hfile hjson) (hquiet _)
    · next value hjson =>
      cases hgenesis : Genesis.ofJson value with
      | ok genesis =>
        rw [hgenesis] at hread
        cases hread
      | error rejection =>
        rw [hgenesis] at hread
        cases hread
        rfl

end GenesisFile

/-! ## A start -/

namespace CommandLine

/-- How a start from a genesis file ends over a database without records, and the records that it
leaves. -/
inductive Starts (runtime : Runtime) (l : Ledger) (files : Files) (path : Path) :
    Ending → Table → Prop
  | started {genesis : Genesis} {metadata : Metadata} {supply : Amount} {rows : Table}
      (hread : GenesisFile.read runtime.genesisDepth files path = .ok genesis)
      (hflaw : genesis.flaw? l = none)
      (hdescribes : genesis.Describes metadata) (hsupply : supply.val = genesis.supply)
      (hleaves : genesis.Leaves (.table .empty) (.table rows)) :
      Starts runtime l files path
        (let token := s!"{metadata.name} ({metadata.symbol})"
        .said [s!"✅ Initialized {token} with total supply {supply.digits}"]) rows
  | unreadable {fault : GenesisFile.Fault}
      (hread : GenesisFile.read runtime.genesisDepth files path = .error fault)
      (hquiet : ∀ cause, ¬ GenesisFile.Unread runtime files path cause) :
      Starts runtime l files path
        (.complaint 1 s!"❌ Cannot read {path.toString}: {fault.message runtime.details}") .empty
  | refused {genesis : Genesis} {e : Failure}
      (hread : GenesisFile.read runtime.genesisDepth files path = .ok genesis)
      (hflaw : genesis.flaw? l = some e) (hkind : e.kind = .rejected) :
      Starts runtime l files path (.complaint 1 s!"❌ {e.message runtime.details}") .empty
  | brokenOff {cause : Breakdown} (hescapes : GenesisFile.Escapes runtime l files path cause) :
      Starts runtime l files path (.broken cause) .empty

namespace Starts

variable {runtime : Runtime} {l : Ledger} {files : Files} {path : Path} {ending : Ending}
  {rows : Table}

/-- A start ends well if its file is a genesis without a flaw. -/
theorem code_eq_zero_iff (h : Starts runtime l files path ending rows) :
    ending.code = 0 ↔
      ∃ genesis, GenesisFile.read runtime.genesisDepth files path = .ok genesis ∧
        genesis.flaw? l = none := by
  constructor
  · intro hcode
    cases h with
    | started hread hflaw => exact ⟨_, hread, hflaw⟩
    | unreadable | refused | brokenOff => simp [Ending.complaint, Ending.code] at hcode
  · rintro ⟨genesis, hread, hflaw⟩
    cases h with
    | started => rfl
    | unreadable hread' => cases hread.symm.trans hread'
    | refused hread' hflaw' =>
      cases hread.symm.trans hread'
      cases hflaw.symm.trans hflaw'
    | brokenOff hescapes =>
      obtain ⟨e, hflaw', -⟩ := hescapes.of_read hread
      cases hflaw.symm.trans hflaw'

/-- A start is broken off by what escapes from its file. -/
theorem broken_iff (h : Starts runtime l files path ending rows) (cause : Breakdown) :
    ending = .broken cause ↔ GenesisFile.Escapes runtime l files path cause := by
  cases h with
  | brokenOff hescapes =>
    rw [Ending.broken.injEq]
    exact ⟨fun heq => heq ▸ hescapes, hescapes.unique⟩
  | started hread hflaw =>
    refine ⟨nofun, fun hescapes => ?_⟩
    obtain ⟨e, hflaw', -⟩ := hescapes.of_read hread
    cases hflaw.symm.trans hflaw'
  | unreadable hread hquiet =>
    refine ⟨nofun, fun hescapes => ?_⟩
    cases hescapes with
    | unread h => exact absurd h (hquiet _)
    | name hread' _ => cases hread.symm.trans hread'
  | refused hread hflaw hkind =>
    refine ⟨nofun, fun hescapes => ?_⟩
    obtain ⟨e, hflaw', hother, -⟩ := hescapes.of_read hread
    cases hflaw.symm.trans hflaw'
    rw [hkind] at hother
    cases hother

/-- A start that does not end well leaves no records. -/
theorem rows_eq_empty (h : Starts runtime l files path ending rows) (hcode : ending.code ≠ 0) :
    rows = .empty := by
  cases h with
  | started => exact absurd rfl hcode
  | unreadable | refused | brokenOff => rfl

end Starts

section Read

variable {runtime : Runtime} {l : Ledger} {files : Files} {path : Path} {genesis : Genesis}
  {sender : String} {rows : Table}

/-- The host of a start over a database without records. -/
def Runtime.host (runtime : Runtime) (l : Ledger) : Host :=
  ⟨l, .table .empty, none, runtime.details⟩

/-- A good genesis is shown, and its records stay. -/
theorem starts_of_no_flaw (hread : GenesisFile.read runtime.genesisDepth files path = .ok genesis)
    (hflaw : genesis.flaw? l = none)
    (hafter : ((runtime.host l).after (.instantiate sender (.typed genesis))).store = .table rows) :
    Starts runtime l files path (runInit sender genesis (runtime.host l)).ending rows := by
  obtain ⟨hresult, hleaves⟩ := Host.instantiate_of_no_flaw (h := runtime.host l) rfl hflaw sender
  rw [hafter] at hleaves
  have hshows : Shows runtime.details (.instantiate sender (.typed genesis))
      (.changed ((runtime.host l).instantiate sender (.typed genesis)).result)
      (runInit sender genesis (runtime.host l)).ending :=
    Works.shows_init (h := runtime.host l) (Ledger.sound_of_empty fun key => rfl) sender genesis
  rw [hresult] at hshows
  generalize (runInit sender genesis (runtime.host l)).ending = ending at hshows ⊢
  cases hshows with
  | started hdescribes hsupply => exact .started hread hflaw hdescribes hsupply hleaves
  | refused hfailure | corrupt hfailure => cases hfailure

theorem runInit_of_error {h : Host} {e : Failure}
    (hresult : (h.instantiate sender (.typed genesis)).result = .error e) :
    (runInit sender genesis h).ending =
      if e.kind = .rejected then .complaint 1 s!"❌ {e.message h.details}"
      else .broken (.call e) := by
  rw [runInit]
  cases hreply : h.instantiate sender (.typed genesis) with
  | mk result host announced deliveries =>
    rw [hreply] at hresult
    cases hresult
    rfl

/-- A genesis with a flaw is complained of, unless its name breaks the run off, and there are no
records as before. -/
theorem starts_of_flaw {e : Failure}
    (hread : GenesisFile.read runtime.genesisDepth files path = .ok genesis)
    (hflaw : genesis.flaw? l = some e)
    (hafter : ((runtime.host l).after (.instantiate sender (.typed genesis))).store = .table rows) :
    Starts runtime l files path (runInit sender genesis (runtime.host l)).ending rows := by
  have hresult := Host.instantiate_of_flaw (h := runtime.host l) rfl hflaw sender
  have hfailure :
      ((runtime.host l).outcome (.instantiate sender (.typed genesis))).failure? = some e := by
    rw [Host.outcome, hresult]
    rfl
  have hsame := Host.after_of_failure? hfailure
  rw [hsame] at hafter
  rw [runInit_of_error hresult, ← Store.table.inj hafter]
  rcases Genesis.flaw?_cases hflaw with hrejected | ⟨codes, hname, rfl⟩
  · rw [if_pos hrejected]
    exact .refused hread hflaw hrejected
  · exact .brokenOff (.name hread hname)

end Read

namespace System

variable {s : System} {c : Config} {path : Path} {arguments names : List String} {run : Run}
  {genesis : Option Path} {caller : Caller} {sender : String}

theorem initBy_of_error {ending : Ending} (hpath : (genesis <|> c.genesisFile) = some path)
    (hread : readGenesis s.runtime s.files path = .error ending) :
    s.initBy c genesis caller = (ending, s.files) := by
  rw [initBy, hpath]
  dsimp only
  rw [hread]

/-- A start by a named caller, from whatever stands at the path of its genesis file, over a database
without records: the ledger stands as the file says, or the run complains, or one of the faults that
escape breaks it off. In the last two cases there still are no records. -/
theorem starts_of_init (hrun : Run.ofArguments arguments = .ok run)
    (hconfig : s.configOf run = .ok c)
    (hrequest : Request.ofArguments run.verb run.arguments = .ok (.init genesis caller))
    (hpath : (genesis <|> c.genesisFile) = some path) (hsender : caller.named? = some sender)
    (hopens : s.files.Opens c.dbPath names .empty) (fresh : Wallet) :
    let ending := (s.perform fresh arguments).1
    let rows := (s.after fresh arguments).files.rowsAt c.dbPath
    Starts s.runtime c.ledger s.files path ending rows ∧
      (ending.code = 0 ↔
        ∃ genesis, GenesisFile.read s.runtime.genesisDepth s.files path = .ok genesis ∧
          genesis.flaw? c.ledger = none) ∧
      (∀ cause, ending = .broken cause ↔
        GenesisFile.Escapes s.runtime c.ledger s.files path cause) ∧
      (ending.code ≠ 0 → rows = .empty) := by
  intro ending rows
  have hperform : s.perform fresh arguments = s.initBy c genesis caller :=
    perform_eq_serve hrun hconfig hrequest fresh
  have hstarts : Starts s.runtime c.ledger s.files path ending rows := by
    show Starts _ _ _ _ (s.perform fresh arguments).1 ((s.perform fresh arguments).2.rowsAt _)
    rw [hperform]
    cases hread : GenesisFile.read s.runtime.genesisDepth s.files path with
    | error fault =>
      -- the database is not even opened
      by_cases hunread : ∃ cause, GenesisFile.Unread s.runtime s.files path cause
      · obtain ⟨cause, hcause⟩ := hunread
        obtain ⟨-, -, hfile⟩ := hcause.exists_fault
        rw [initBy_of_error hpath hfile, hopens.rowsAt_eq]
        exact .brokenOff (.unread hcause)
      · rw [not_exists] at hunread
        rw [initBy_of_error hpath (GenesisFile.readGenesis_of_quiet hread hunread),
          hopens.rowsAt_eq]
        exact .unreadable hread hunread
    | ok message =>
      have hcall : (Request.init genesis caller).call? s c =
          some (.instantiate sender (.typed message)) := by
        simp [Request.call?, hpath, hread, hsender, Except.toOption]
      obtain ⟨work, hw, hinit⟩ := exists_works_initBy hcall
      obtain ⟨hending, rows', hafter, hstores⟩ := withHost_of_works hw hopens
      cases hw
      rw [hinit, hending, hstores.rowsAt_eq]
      cases hflaw : message.flaw? c.ledger with
      | none => exact starts_of_no_flaw hread hflaw hafter
      | some e => exact starts_of_flaw hread hflaw hafter
  exact ⟨hstarts, hstarts.code_eq_zero_iff, hstarts.broken_iff, hstarts.rows_eq_empty⟩

/-- A genesis that seeds one account twice: the ledger stands with the last amount. -/
theorem starts_of_init_repeated :
    let text := "\x7b\"name\": \"Token\", \"symbol\": \"TOK\", \"decimals\": 2, " ++
      "\"initial_balances\": [\x7b\"address\": \"alice\", \"amount\": \"5\"\x7d, " ++
      "\x7b\"address\": \"alice\", \"amount\": 7\x7d]\x7d"
    let fresh : Wallet := ⟨List.replicate 32 0, List.length_replicate⟩
    let arguments := ["init", "--genesis", "genesis.json", "--sender", "creator"]
    ((ofGenesis text).perform fresh arguments).1 =
        .said ["✅ Initialized Token (TOK) with total supply 7"] ∧
      (Store.table (((ofGenesis text).after fresh arguments).files.rowsAt simple.dbPath)).get?
        (Slot.balance "alice").key = some (Amount.toBytes ⟨7, by decide⟩) := by
  intro text fresh arguments
  let seeds : List Seed := [⟨.whole "alice", ⟨5, by decide⟩⟩, ⟨.whole "alice", ⟨7, by decide⟩⟩]
  let genesis : Genesis := ⟨.whole "Token", .whole "TOK", 2, seeds⟩
  have hgenesis : genesis? text = some genesis := by decide +kernel
  have hread : GenesisFile.read Runtime.plain.genesisDepth (ofGenesis text).files
      ⟨0, ["genesis.json"]⟩ = .ok genesis := by
    apply ok_of_toOption
    rw [read_ofGenesis, hgenesis]
  obtain ⟨names, hopens⟩ := (admits_ofGenesis text).opens
  obtain ⟨hrun, hrequest⟩ := ofArguments_init
  obtain ⟨hstarts, hcode, -⟩ :=
    starts_of_init (s := ofGenesis text) (c := simple) hrun rfl hrequest rfl rfl hopens fresh
  have hgood := hcode.2 ⟨genesis, hread, by decide +kernel⟩
  have hseven : genesis.supply = 7 := by decide +kernel
  generalize ((ofGenesis text).perform fresh arguments).1 = ending at hstarts hgood ⊢
  generalize ((ofGenesis text).after fresh arguments).files.rowsAt simple.dbPath = rows at hstarts ⊢
  cases hstarts with
  | unreadable | refused | brokenOff => simp [Ending.complaint, Ending.code] at hgood
  | @started _ metadata supply _ hread' _ hdescribes hsupply hleaves =>
    cases hread.symm.trans hread'
    have hname : metadata.name = "Token" := (AnyText.whole.inj hdescribes.1).symm
    have hsymbol : metadata.symbol = "TOK" := (AnyText.whole.inj hdescribes.2.1).symm
    have hamount : supply = ⟨7, by decide⟩ := Amount.ext_val (hsupply.trans hseven)
    refine ⟨?_, hleaves.balances ⟨.whole "alice", ⟨7, by decide⟩⟩ (by simp [genesis, seeds]) _ rfl⟩
    rw [hname, hsymbol, hamount]
    rfl

/-- A start is broken off by a whole number of 4301 digits in the place of a genesis. -/
theorem perform_long_number :
    let text := String.ofList (List.replicate 4301 '1')
    let fresh : Wallet := ⟨List.replicate 32 0, List.length_replicate⟩
    (ofGenesis text).files.read ⟨0, ["genesis.json"]⟩ = .ok (utf8 text) ∧
      (∃ names, (ofGenesis text).files.Opens simple.dbPath names .empty) ∧
      ((ofGenesis text).perform fresh
          ["init", "--genesis", "genesis.json", "--sender", "creator"]).1 =
        .broken (.genesis (.invalid (.digits 4301))) := by
  intro text fresh
  have hfile : (ofGenesis text).files.read ⟨0, ["genesis.json"]⟩ = .ok (utf8 text) := rfl
  have hjson : Json.ofFile Runtime.plain.genesisDepth (utf8 text) =
      .error (.invalid (.digits 4301)) := by
    have hdigits : ∀ c ∈ '1' :: List.replicate 4300 '1', c.isDigit := fun c hc => by
      rw [← List.replicate_succ] at hc
      rw [List.eq_of_mem_replicate hc]
      rfl
    have hlength : ('1' :: List.replicate 4300 '1').length = 4301 := by
      rw [List.length_cons, List.length_replicate]
    rw [← hlength]
    exact Json.ofFile_of_long hdigits (by decide) (by rw [hlength]; decide)
  refine ⟨hfile, (admits_ofGenesis text).opens, ?_⟩
  obtain ⟨-, -, hread⟩ := (GenesisFile.Unread.digits hfile hjson).exists_fault
  rw [← runtime_ofGenesis text] at hread
  obtain ⟨hrun, hrequest⟩ := ofArguments_init
  rw [perform_eq_serve (s := ofGenesis text) (c := simple) hrun rfl hrequest, serve,
    initBy_of_error rfl hread]

end System

end CommandLine

end FungibleLedger
