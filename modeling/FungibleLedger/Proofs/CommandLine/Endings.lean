import FungibleLedger.CommandLine.Session
import FungibleLedger.Proofs.Host.Extensional
import FungibleLedger.Proofs.Host.Failures
import FungibleLedger.Proofs.Host.Starts

/-!
# What a run shows of a call

A run makes one call to a host, and a start asks for the token once it succeeded. `Shows` says what
a run shows of the outcome of each call: the result if the call returns, a complaint with exit code
1 if it was refused or could not be read, and with exit code 2 if it found corrupt state. Nothing
else happens over records that only calls have written, but for a start whose name cannot be
measured, which breaks the run off.

* `Outcome.failure?` : why a call failed; such a call leaves its host as it was.
* `Works` : the work that runs do with a host, and the call that it is.
* `Works.host`, `Works.shows`, `Works.broken_iff` : the host that it leaves, and how it ends.
-/

namespace FungibleLedger

namespace Host

variable {h : Host} {call : Call} {e : Failure}

/-- Why a call failed, if it did. -/
def Outcome.failure? : Outcome → Option Failure
  | .changed (.error e) | .answered (.error e) | .listed (.error e) => some e
  | _ => none

theorem after_of_failure? (hfailure : (h.outcome call).failure? = some e) : h.after call = h := by
  cases call with
  | instantiate sender message =>
    rw [outcome] at hfailure
    cases hresult : (h.instantiate sender message).result with
    | error e' => exact instantiate_host_of_error hresult
    | ok response =>
      rw [hresult] at hfailure
      cases hfailure
  | execute sender message =>
    rw [outcome] at hfailure
    cases hresult : (h.execute sender message).result with
    | error e' => exact execute_host_of_error hresult
    | ok response =>
      rw [hresult] at hfailure
      cases hfailure
  | query message => rfl
  | holders => rfl

theorem Alike.unmeasurable_iff {g h : Host} (hg : g.Alike h) {message : Incoming Genesis}
    {codes : List Nat} : g.Unmeasurable message codes ↔ h.Unmeasurable message codes := by
  rw [Unmeasurable, Unmeasurable, hg.isInitialized, hg.ledger]

end Host

namespace CommandLine

/-- What comes before the wording of a violation. -/
def corruptTitle : Call → String
  | .execute .. => "💥 Ledger state is corrupted: "
  | _ => "💥 "

/-- What a run shows of the outcome of a call, with details of what it rejects. -/
inductive Shows (details : Schema.Details) : Call → Host.Outcome → Ending → Prop
  | applied {sender : String} {message : Incoming Command} (response : Response) :
      Shows details (.execute sender message) (.changed (.ok response)) (.said (applied response))
  | answered {message : Incoming Query} (answer : Answer) :
      Shows details (.query message) (.answered (.ok answer)) (.said [answer.toJson.compact])
  | listed (rows : List (String × Amount)) :
      Shows details .holders (.listed (.ok rows))
        (.said (rows.map fun (account, amount) => s!"{account}\t{amount.digits}"))
  | started {sender : String} {genesis : Genesis} {response : Response} {metadata : Metadata}
      {supply : Amount} (hdescribes : genesis.Describes metadata)
      (hsupply : supply.val = genesis.supply) :
      Shows details (.instantiate sender (.typed genesis)) (.changed (.ok response))
        (let token := s!"{metadata.name} ({metadata.symbol})"
        .said [s!"✅ Initialized {token} with total supply {supply.digits}"])
  | refused {call : Call} {outcome : Host.Outcome} {e : Failure}
      (hfailure : outcome.failure? = some e) (hkind : e.kind = .rejected ∨ e.kind = .unreadable) :
      Shows details call outcome (.complaint 1 s!"❌ {e.message details}")
  | corrupt {call : Call} {outcome : Host.Outcome} {e : Failure}
      (hfailure : outcome.failure? = some e) (hkind : e.kind = .corrupt) :
      Shows details call outcome (.complaint 2 (corruptTitle call ++ e.message details))
  | brokenOff {sender : String} {message : Incoming Genesis} {e : Failure}
      (hkind : e.kind = .other) :
      Shows details (.instantiate sender message) (.changed (.error e)) (.broken (.call e))

/-- A run that does not end well tells of a call that failed. -/
theorem Shows.exists_failure {details : Schema.Details} {call : Call} {outcome : Host.Outcome}
    {ending : Ending} (hshows : Shows details call outcome ending) (hcode : ending.code ≠ 0) :
    ∃ e, outcome.failure? = some e := by
  cases hshows with
  | refused hfailure _ => exact ⟨_, hfailure⟩
  | corrupt hfailure _ => exact ⟨_, hfailure⟩
  | brokenOff _ => exact ⟨_, rfl⟩
  | _ => exact absurd rfl hcode

/-- What breaks a run off is a start. -/
theorem Shows.exists_start {details : Schema.Details} {call : Call} {outcome : Host.Outcome}
    {cause : Breakdown} (hshows : Shows details call outcome (.broken cause)) :
    ∃ sender message e, call = .instantiate sender message ∧ outcome = .changed (.error e) ∧
      e.kind = .other := by
  cases hshows with
  | brokenOff hkind => exact ⟨_, _, _, rfl, rfl, hkind⟩

/-- The work that runs do with a host, and the call that it is. -/
inductive Works : Call → (Host → Done) → Prop
  | command {sender : String} (message : Json.Members)
      (hsender : (utf8 sender).length ≤ Namespace.limit) :
      Works (.execute sender (.raw (.obj message))) (runCommand sender message)
  | query (message : Json.Members) : Works (.query (.raw (.obj message))) (runQuery message)
  | holders : Works .holders runHolders
  | init (sender : String) (genesis : Genesis) :
      Works (.instantiate sender (.typed genesis)) (runInit sender genesis)

namespace Works

variable {call : Call} {work : Host → Done} {h : Host}

theorem host (hw : Works call work) (h : Host) : (work h).host = h.after call := by
  cases hw with
  | @command sender message _ =>
    rw [runCommand, Host.after]
    cases h.execute sender (.raw (.obj message)) with
    | mk result host' announced deliveries => cases result <;> rfl
  | query message =>
    unfold runQuery
    split <;> rfl
  | holders =>
    unfold runHolders
    split <;> rfl
  | init sender genesis =>
    rw [runInit, Host.after]
    cases h.instantiate sender (.typed genesis) with
    | mk result host' announced deliveries =>
      cases result with
      | error e => rfl
      | ok response =>
        dsimp only
        split <;> rfl

theorem shows_command {sender : String} {message : Json.Members}
    (hsender : (utf8 sender).length ≤ Namespace.limit) (h : Host) :
    let call : Call := .execute sender (.raw (.obj message))
    Shows h.details call (h.outcome call) (runCommand sender message h).ending := by
  intro call
  have hfails : Host.CommandFails h sender (.raw (.obj message)) :=
    Host.commandFails h sender trivial
  rw [runCommand, Host.outcome]
  cases hreply : h.execute sender (.raw (.obj message)) with
  | mk result host' announced deliveries =>
    cases result with
    | ok response => exact .applied response
    | error e =>
      have hkind : e.kind ≠ .other := fun hother => by
        obtain ⟨command, -, hcommand⟩ := (hfails.other e (by rw [hreply])).1 hother
        exact absurd hsender (Nat.not_le.2 (hcommand.limit_lt))
      dsimp only
      unfold commandFailed
      split
      · next hrejected => exact .refused rfl (.inl hrejected)
      · next hunreadable => exact .refused rfl (.inr hunreadable)
      · next hcorrupt => exact .corrupt rfl hcorrupt
      · next hother => exact absurd hother hkind

theorem shows_query (message : Json.Members) (h : Host) :
    let call : Call := .query (.raw (.obj message))
    Shows h.details call (h.outcome call) (runQuery message h).ending := by
  intro call
  rw [runQuery, Host.outcome]
  cases hanswer : h.query (.raw (.obj message)) with
  | ok answer => exact .answered answer
  | error e =>
    have hmessage : Incoming.IsMessage (.raw (.obj message) : Incoming Query) := trivial
    have hfails := Host.query_cases hmessage hanswer
    dsimp only
    unfold queryFailed
    split
    · next hrejected => exact .refused rfl (.inl hrejected)
    · next hunreadable => exact .refused rfl (.inr hunreadable)
    · next hcorrupt => exact .corrupt rfl hcorrupt
    · next hother =>
      rcases hfails with hkind | hkind | hkind <;> rw [hother] at hkind <;> cases hkind

/-- If all balance records can be read then the holders are listed. -/
theorem shows_holders (hlistable : Ledger.Listable h.store) :
    Shows h.details .holders (h.outcome .holders) (runHolders h).ending := by
  obtain ⟨rows, hrows⟩ := Ledger.listable_iff.1 hlistable
  have hholders : h.holders = .ok rows := hrows
  rw [runHolders, Host.outcome, hholders]
  exact .listed rows

theorem shows_init (hsound : Ledger.Sound h.store) (sender : String) (genesis : Genesis) :
    let call : Call := .instantiate sender (.typed genesis)
    Shows h.details call (h.outcome call) (runInit sender genesis h).ending := by
  intro call
  have hfails : ∀ e, (h.instantiate sender (.typed genesis)).result = .error e →
      e.kind = .rejected ∨ e.kind = .other := fun e hresult => by
    have hmessage : Incoming.IsMessage (.typed genesis) := trivial
    obtain ⟨hread, -⟩ | rfl | ⟨-, genesis', -, hflaw⟩ := Host.instantiate_cases hmessage hresult
    · cases hread
    · exact .inl rfl
    · rcases Genesis.flaw?_cases hflaw with hrejected | ⟨codes, -, rfl⟩
      · exact .inl hrejected
      · exact .inr rfl
  have hstarts : ∀ response, (h.instantiate sender (.typed genesis)).result = .ok response →
      h.started? (.instantiate sender (.typed genesis)) = some genesis := fun response hresult => by
    rw [Host.started?, hresult]
    rfl
  have hafter : (h.instantiate sender (.typed genesis)).host =
      h.after (.instantiate sender (.typed genesis)) := rfl
  rw [runInit, Host.outcome]
  cases hreply : h.instantiate sender (.typed genesis) with
  | mk result host' announced deliveries =>
    rw [hreply] at hfails hstarts hafter
    cases result with
    | ok response =>
      obtain ⟨metadata, supply, hdescribes, hsupply, hstarted⟩ :=
        Host.started_after hsound (hstarts response rfl)
      have hinfo : host'.query (.typed .tokenInfo) = .ok (.tokenInfo metadata supply) := by
        rw [← hafter] at hstarted
        exact hstarted.tokenInfo
      dsimp only
      rw [hinfo]
      exact .started hdescribes hsupply
    | error e =>
      dsimp only
      split
      · next hrejected => exact .refused rfl (.inl hrejected)
      · next hother => exact .brokenOff ((hfails e rfl).resolve_left hother)

/-- What a run shows of its call, over records that only calls have written. -/
theorem shows (hw : Works call work) (hsound : Ledger.Sound h.store) :
    Shows h.details call (h.outcome call) (work h).ending := by
  cases hw with
  | command message hsender => exact shows_command hsender h
  | query message => exact shows_query message h
  | holders => exact shows_holders (Ledger.listable_of_tidy hsound.readable hsound.tidy)
  | init sender genesis => exact shows_init hsound sender genesis

/-- A run is broken off by a start whose name cannot be measured, and by nothing else. -/
theorem broken_iff (hw : Works call work) (hsound : Ledger.Sound h.store) :
    (∃ cause, (work h).ending = .broken cause) ↔
      ∃ sender message codes, call = .instantiate sender message ∧
        h.Unmeasurable message codes := by
  constructor
  · rintro ⟨cause, hbroken⟩
    have hshows := hw.shows hsound
    rw [hbroken] at hshows
    obtain ⟨sender, message, e, rfl, houtcome, hkind⟩ := hshows.exists_start
    cases hw with
    | init sender genesis =>
      have hfails : Host.GenesisFails h sender (.typed genesis) :=
        Host.genesisFails h sender trivial
      have hresult : (h.instantiate sender (.typed genesis)).result = .error e :=
        Host.Outcome.changed.inj houtcome
      obtain ⟨codes, hname⟩ := (hfails.other e hresult).1 hkind
      exact ⟨sender, .typed genesis, codes, rfl, hname⟩
  · rintro ⟨sender, message, codes, rfl, hname⟩
    cases hw with
    | init sender genesis =>
      have hfails : Host.GenesisFails h sender (.typed genesis) :=
        Host.genesisFails h sender trivial
      rw [runInit, hfails.unmeasurable codes hname]
      exact ⟨_, rfl⟩

end Works

end CommandLine

end FungibleLedger
