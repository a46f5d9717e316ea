import FungibleLedger.Proofs.Host.Runs
import FungibleLedger.Proofs.Ledger.Postings
import FungibleLedger.Proofs.Observers.Deliveries

/-!
# What observers are told

A host with observers announces every change of its store, once, and its refusals of commands
(`Host.tells`). An announcement gets to all whom it concerns and to nobody else, to each of them
once (`Host.Tells`). The accounts that it names are read off the answer of a command or the seeds of
a genesis, while the store changes at the places that the call may write. So the accounts of these
places are compared with the named ones (`Host.covers_run`).

What observers do comes after the call. Whoever they are and whatever they do, all calls of a run
give the same results and leave the same stores (`Host.transcript_watched`).
-/

namespace FungibleLedger

theorem nodup_eraseDups {α : Type} [BEq α] [LawfulBEq α] (l : List α) : l.eraseDups.Nodup := by
  cases l with
  | nil => exact List.nodup_nil
  | cons head rest =>
    rw [List.eraseDups_cons, List.nodup_cons]
    constructor
    · simp [List.mem_eraseDups]
    · exact nodup_eraseDups (rest.filter fun other => !other == head)
termination_by l.length
decreasing_by exact Nat.lt_succ_of_le (List.length_filter_le _ _)

/-- The accounts that the number of a place concerns. -/
def Slot.accounts : Slot → List String
  | .balance account => [account]
  | .allowance owner spender => [owner, spender]
  | .supply => []

/-- Whether a list names the accounts of every record that differs between two stores, and no
account twice. -/
structure Covers (accounts : List AnyText) (before after : Store) : Prop where
  nodup : accounts.Nodup
  named : ∀ slot : Slot, slot.Fits → before.get? slot.key ≠ after.get? slot.key →
    ∀ account ∈ slot.accounts, .whole account ∈ accounts

/-! ## Places and names -/

theorem Slot.Write.mem {places : List Slot} {mutation : Mutation} (h : Slot.Write places mutation)
    {slot : Slot} (hfits : slot.Fits) (hkey : mutation.1 = slot.key) : slot ∈ places := by
  obtain ⟨other, hmem, hother, hslot, -⟩ := h
  rw [← Slot.key_inj hother hfits (hslot.symm.trans hkey)]
  exact hmem

theorem Ledger.mem_of_genesisWrite {l : Ledger} {g : Genesis} {mutation : Mutation}
    (h : GenesisWrite l g mutation) {slot : Slot} (hfits : slot.Fits)
    (hkey : mutation.1 = slot.key) : slot ∈ genesisSlots g := by
  rcases h with hslot | ⟨metadata, -, rfl⟩
  · exact hslot.mem hfits hkey
  · exact absurd hkey.symm slot.key_ne_metadataPlace

/-- The accounts that an order of a sender concerns. -/
def Order.accounts (sender : String) : Order → List String
  | .transfer recipient _ => [sender, recipient]
  | .approve spender _ => [sender, spender]
  | .transferFrom owner recipient _ => [owner, sender, recipient]
  | .burn _ => [sender]

/-- An answer names these accounts, each once. The sender of a delegated transfer is its spender
there, and the owner its sender. -/
theorem Order.accountsOf_response (sender : String) (order : Order) :
    Host.accountsOf (order.response sender) = ((order.accounts sender).map .whole).eraseDups := by
  cases order <;> rfl

theorem Order.mem_accounts {sender : String} {order : Order} {slot : Slot}
    (hslot : slot ∈ order.footprint sender) {account : String}
    (haccount : account ∈ slot.accounts) :
    account ∈ order.accounts sender := by
  cases order with
  | transfer recipient amount =>
    simp only [footprint, List.mem_cons, List.not_mem_nil, or_false] at hslot
    rcases hslot with rfl | rfl <;> simp_all [Slot.accounts, accounts]
  | approve spender amount =>
    simp only [footprint, List.mem_cons, List.not_mem_nil, or_false] at hslot
    subst hslot
    exact haccount
  | transferFrom owner recipient amount =>
    simp only [footprint, List.mem_cons, List.not_mem_nil, or_false] at hslot
    rcases hslot with rfl | rfl | rfl
    · simp only [Slot.accounts, List.mem_cons, List.not_mem_nil, or_false] at haccount
      rcases haccount with rfl | rfl <;> simp [accounts]
    · simp_all [Slot.accounts, accounts]
    · simp_all [Slot.accounts, accounts]
  | burn amount =>
    simp only [footprint, List.mem_cons, List.not_mem_nil, or_false] at hslot
    rcases hslot with rfl | rfl <;> simp_all [Slot.accounts, accounts]

/-! ## Announcements -/

/-- Whether an announcement concerns a callback: it follows the event, or watches an account that is
named. -/
def Announcement.Concerns (observers : Observers) (a : Announcement) (callback : String) : Prop :=
  callback ∈ observers.followers a.event ∨
    ∃ account ∈ a.accounts, callback ∈ observers.watchersOf account

/-- Who makes a call that may change the ledger. -/
def Call.sender? : Call → Option AnyText
  | .instantiate sender _ => some sender
  | .execute sender _ => some sender
  | .query _ | .holders => none

namespace Host

/-- A host with other observers, or with none. -/
def watchedBy (h : Host) (observers : Option Observers) : Host :=
  { h with observers := observers }

/-- What a call announced, if anything. -/
def announced? (h : Host) : Call → Option Announcement
  | .instantiate sender message => (h.instantiate sender message).announced
  | .execute sender message => (h.execute sender message).announced
  | .query _ | .holders => none

/-- What a call delivered to observers. -/
def deliveries (h : Host) : Call → List Delivery
  | .instantiate sender message => (h.instantiate sender message).deliveries
  | .execute sender message => (h.execute sender message).deliveries
  | .query _ | .holders => []

/-- The event that the end of a genesis is. -/
def genesisEvent : Except Failure Response → Option Event
  | .ok _ => some .ledgerInitialized
  | .error _ => none

/-- The event that the end of a command is: its success, or that it is turned down or finds corrupt
state. A message that says no command is no event. -/
def commandEvent (command : Option Command) : Except Failure Response → Option Event
  | .ok _ => some .commandApplied
  | .error e =>
    if command.isSome ∧ (e.kind = .rejected ∨ e.kind = .corrupt) then some .commandRejected
    else none

/-- The event that a call is. -/
def event? (h : Host) : Call → Option Event
  | .instantiate sender message => genesisEvent (h.instantiate sender message).result
  | .execute sender message => commandEvent message.command? (h.execute sender message).result
  | .query _ | .holders => none

variable {α : Type} {allowed : Mutation → Prop} {h : Host} {observers : Observers}

/-- An action changes the records of no other accounts than those of the places that it writes. -/
theorem covers_run {x : Ledger.Action α} (hx : Ledger.WritesOnly allowed x)
    {accounts : List AnyText}
    (hnamed : ∀ (mutation : Mutation) (slot : Slot), allowed mutation → slot.Fits →
      mutation.1 = slot.key → ∀ account ∈ slot.accounts, .whole account ∈ accounts)
    {store after : Store} {result : Except Failure α} (hrun : run store x = (result, after)) :
    Covers accounts.eraseDups store after := by
  obtain ⟨mutations, hmutations, hafter⟩ := run_writes hx hrun
  refine ⟨nodup_eraseDups _, fun slot hfits hchanged account haccount => ?_⟩
  rw [List.mem_eraseDups]
  by_contra hmem
  apply hchanged
  rw [hafter, Store.get?_applyBatch_of_notMem]
  intro mutation hmutation hkey
  exact hmem (hnamed mutation slot (hmutations mutation hmutation) hfits hkey account haccount)

theorem covers_of_started {l : Ledger} {genesis : Genesis} {response : Response}
    {store after : Store} (hrun : run store (l.instantiate genesis) = (.ok response, after)) :
    Covers (genesis.seeds.map Seed.address).eraseDups store after := by
  refine covers_run (l.writesOnly_instantiate genesis) ?_ hrun
  intro mutation slot hwrite hfits hkey account haccount
  rcases List.mem_cons.1 (Ledger.mem_of_genesisWrite hwrite hfits hkey) with rfl | hbalance
  · cases haccount
  · obtain ⟨address, haddress, rfl⟩ := List.mem_map.1 hbalance
    rw [Slot.accounts, List.mem_singleton] at haccount
    rw [haccount]
    obtain ⟨seed, hseed, hwhole⟩ := List.mem_filterMap.1 haddress
    exact List.mem_map.2 ⟨seed, hseed, AnyText.whole?_eq_some_iff.1 hwhole⟩

theorem covers_of_applied {l : Ledger} {sender : AnyText} {command : Command}
    {response : Response} {store after : Store}
    (hrun : run store (l.execute sender command) = (.ok response, after)) :
    Covers (accountsOf response) store after := by
  have hwrites := l.writesOnly_execute sender command
  obtain ⟨buffer, hbuffer, -⟩ := run_ok hwrites hrun
  obtain ⟨account, order, hresolve, rfl⟩ := Ledger.exists_order_of_ok hbuffer
  rw [Order.accountsOf_response]
  refine covers_run hwrites ?_ hrun
  intro mutation slot hwrite hfits hkey other hother
  have hslot := hwrite.mem hfits hkey
  rw [Ledger.footprint_of_resolve hresolve] at hslot
  exact List.mem_map_of_mem (Order.mem_accounts hslot hother)

/-! ## Replies -/

/-- What observers hear of a call between two stores: one announcement of its event, or none. It is
given to those whom it concerns and to nobody else, once if the lists of observers are tidy, and
after a history of subscriptions by their order; nobody hears anything else, and each does with it
what it does. A refusal names the sender, and every other event the accounts of all records that
changed. -/
structure Tells (observers : Observers) (event : Option Event) (sender : Option AnyText)
    (before after : Store) (announced : Option Announcement) (deliveries : List Delivery) :
    Prop where
  event : announced.map (·.event) = event
  heard : ∀ callback, callback ∈ deliveries.map (·.callback) ↔
    ∃ a ∈ announced, a.Concerns observers callback
  once : observers.Tidy → (deliveries.map (·.callback)).Nodup
  ordered : ∀ react ops, observers = (Observers.none react).afterAll ops → ∀ a ∈ announced,
    Observers.Hears ops (Observers.topicsOf a.event a.accounts) (deliveries.map (·.callback))
  said : ∀ delivery ∈ deliveries, ∃ a ∈ announced,
    delivery.notice = Observers.notice a.event a.data ∧
      delivery.outcome = observers.react delivery.callback delivery.notice
  listed : ∀ a ∈ announced, a.data.get? "accounts" = some (.arr (a.accounts.map .ofText))
  rejected : ∀ a ∈ announced, a.event = .commandRejected → a.accounts = sender.toList
  covers : ∀ a ∈ announced, a.event ≠ .commandRejected → Covers a.accounts before after

theorem tells_nothing (observers : Observers) (sender : Option AnyText) (before after : Store) :
    Tells observers none sender before after none [] where
  event := rfl
  heard callback := by simp
  once _ := .nil
  ordered _ _ _ := by simp
  said := by simp
  listed := by simp
  rejected := by simp
  covers := by simp

theorem announcing_of_watched (hwatched : h.observers = some observers)
    (result : Except Failure Response) (event : Event) (accounts : List AnyText)
    (data : List (String × Json)) :
    h.announcing result event accounts data =
      ⟨result, h,
        some ⟨event, accounts, data ++ [("accounts", .arr (accounts.map .ofText))]⟩,
        observers.publish event accounts
          (data ++ [("accounts", .arr (accounts.map .ofText))])⟩ := by
  rw [announcing, hwatched]

/-- What a reply to a sender tells of an event. -/
abbrev Replies (observers : Observers) (event : Option Event) (sender : AnyText) (before : Store)
    (reply : Reply Response) : Prop :=
  Tells observers event (some sender) before reply.host.store reply.announced reply.deliveries

variable {sender : AnyText} {before : Store}

theorem replies_silently (h : Host) (result : Except Failure Response) :
    Replies observers none sender before (h.silently result) :=
  tells_nothing _ _ _ _

theorem replies_announcing (hwatched : h.observers = some observers)
    {result : Except Failure Response} {event : Event} {accounts : List AnyText}
    {data : List (String × Json)} (hdata : data.lookup "accounts" = none)
    (hrejected : event = .commandRejected → accounts = [sender])
    (hcovers : event ≠ .commandRejected → Covers accounts before h.store) :
    Replies observers (some event) sender before (h.announcing result event accounts data) := by
  rw [announcing_of_watched hwatched]
  constructor
  case event => rfl
  case heard =>
    intro callback
    rw [Observers.callbacks_publish, Observers.mem_targets]
    simp [Announcement.Concerns]
  case once =>
    intro htidy
    rw [Observers.callbacks_publish]
    exact htidy.nodup_targets event accounts
  case ordered =>
    rintro react ops rfl a ⟨⟩
    rw [Observers.callbacks_publish]
    exact Observers.hears_targets (Observers.recorded_afterAll react ops) event accounts
  case said =>
    intro delivery hdelivery
    exact ⟨_, rfl, Observers.said_of_mem_publish hdelivery⟩
  case listed =>
    rintro a ⟨⟩
    simp [Json.Members.get?, List.lookup_append, hdata]
  case rejected =>
    rintro a ⟨⟩
    exact hrejected
  case covers =>
    rintro a ⟨⟩
    exact hcovers

theorem replies_instantiateTyped (hwatched : h.observers = some observers) (genesis : Genesis) :
    Replies observers (genesisEvent (h.instantiateTyped sender genesis).result) sender h.store
      (h.instantiateTyped sender genesis) := by
  unfold instantiateTyped
  split
  · exact replies_silently h _
  · split
    · exact replies_silently _ _
    · next response store hrun =>
      have hafter : ({ h with store := store } : Host).observers = some observers := hwatched
      rw [announcing_result]
      refine replies_announcing hafter ?_ ?_ fun _ => ?_
      · rfl
      · exact nofun
      · exact covers_of_started hrun

theorem replies_executeTyped (hwatched : h.observers = some observers) (command : Command) :
    Replies observers (commandEvent (some command) (h.executeTyped sender command).result) sender
      h.store (h.executeTyped sender command) := by
  unfold executeTyped
  split
  · next response store hrun =>
    have hafter : ({ h with store := store } : Host).observers = some observers := hwatched
    rw [announcing_result]
    refine replies_announcing hafter ?_ ?_ fun _ => ?_
    · rfl
    · exact nofun
    · exact covers_of_applied hrun
  · next e store hrun =>
    have hafter : ({ h with store := store } : Host).observers = some observers := hwatched
    dsimp only
    split
    · next hkind =>
      rw [announcing_result, commandEvent, if_pos ⟨rfl, hkind⟩]
      refine replies_announcing hafter ?_ (fun _ => rfl) fun hne => absurd rfl hne
      rfl
    · next hkind =>
      rw [silently_result, commandEvent, if_neg fun hboth => hkind hboth.2]
      exact replies_silently _ _

/-- A host with observers tells them of the event that a call is, and of nothing else. -/
theorem tells_call (hwatched : h.observers = some observers) (call : Call) :
    Tells observers (h.event? call) call.sender? h.store (h.after call).store (h.announced? call)
      (h.deliveries call) := by
  cases call with
  | instantiate sender message =>
    show Replies observers (genesisEvent (h.instantiate sender message).result) sender h.store _
    cases hmessage : message.genesis? with
    | none =>
      obtain ⟨e, hreply⟩ := h.instantiate_of_none sender hmessage
      rw [hreply]
      exact replies_silently h _
    | some genesis =>
      rw [h.instantiate_eq_typed sender hmessage]
      exact replies_instantiateTyped hwatched genesis
  | execute sender message =>
    show Replies observers (commandEvent message.command? (h.execute sender message).result) sender
      h.store _
    cases hmessage : message.command? with
    | none =>
      obtain ⟨e, hreply⟩ := h.execute_of_none sender hmessage
      rw [hreply, silently_result, commandEvent, if_neg (by simp)]
      exact replies_silently h _
    | some command =>
      rw [h.execute_eq_typed sender hmessage]
      exact replies_executeTyped hwatched command
  | query message => exact tells_nothing _ _ _ _
  | holders => exact tells_nothing _ _ _ _

/-! ## Runs under observers -/

/-- What is answered to a call. -/
inductive Outcome
  | changed (result : Except Failure Response)
  | answered (result : Except Failure Answer)
  | listed (result : Except Failure (List (String × Amount)))

def outcome (h : Host) : Call → Outcome
  | .instantiate sender message => .changed (h.instantiate sender message).result
  | .execute sender message => .changed (h.execute sender message).result
  | .query message => .answered (h.query message)
  | .holders => .listed h.holders

/-- The answers to the calls of a run and the stores after them, where each call finds its own
observers, or none. -/
def transcript (h : Host) : List (Option Observers × Call) → List (Outcome × Store)
  | [] => []
  | (watching, call) :: rest =>
    let host := h.watchedBy watching
    (host.outcome call, (host.after call).store) :: (host.after call).transcript rest

/-- Two replies with one result, the second of them by a host that others watch. -/
structure Same (watching : Option Observers) (reply other : Reply Response) : Prop where
  result : other.result = reply.result
  host : other.host = reply.host.watchedBy watching

variable (h) (watching : Option Observers)

theorem same_instantiateTyped (sender : AnyText) (genesis : Genesis) :
    Same watching (h.instantiateTyped sender genesis)
      ((h.watchedBy watching).instantiateTyped sender genesis) := by
  by_cases hstarted : h.isInitialized = true
  · have hstarted' : (h.watchedBy watching).isInitialized = true := hstarted
    rw [instantiateTyped_of_initialized _ _ _ hstarted,
      instantiateTyped_of_initialized _ _ _ hstarted']
    exact ⟨rfl, rfl⟩
  · have hfresh : h.isInitialized = false := by simpa using hstarted
    have hfresh' : (h.watchedBy watching).isInitialized = false := hfresh
    constructor
    · rw [instantiateTyped_result _ _ _ hfresh, instantiateTyped_result _ _ _ hfresh']
      rfl
    · rw [instantiateTyped_host _ _ _ hfresh, instantiateTyped_host _ _ _ hfresh']
      rfl

theorem same_executeTyped (sender : AnyText) (command : Command) :
    Same watching (h.executeTyped sender command)
      ((h.watchedBy watching).executeTyped sender command) := by
  constructor
  · rw [executeTyped_result, executeTyped_result]
    rfl
  · rw [executeTyped_host, executeTyped_host]
    rfl

theorem same_instantiate (sender : AnyText) (message : Incoming Genesis) :
    Same watching (h.instantiate sender message)
      ((h.watchedBy watching).instantiate sender message) := by
  cases message with
  | typed genesis => exact same_instantiateTyped h watching sender genesis
  | raw value =>
    cases value with
    | obj members =>
      unfold instantiate
      dsimp only
      cases Genesis.ofJson (.obj members) with
      | error rejection => exact ⟨rfl, rfl⟩
      | ok genesis => exact same_instantiateTyped h watching sender genesis
    | _ =>
      have hstarted : (h.watchedBy watching).isInitialized = h.isInitialized := rfl
      unfold instantiate
      dsimp only
      rw [hstarted]
      split <;> exact ⟨rfl, rfl⟩

theorem same_execute (sender : AnyText) (message : Incoming Command) :
    Same watching (h.execute sender message)
      ((h.watchedBy watching).execute sender message) := by
  cases message with
  | typed command => exact same_executeTyped h watching sender command
  | raw value =>
    cases value with
    | obj members =>
      unfold execute
      dsimp only
      cases Command.ofJson (.obj members) with
      | error e => exact ⟨rfl, rfl⟩
      | ok command => exact same_executeTyped h watching sender command
    | _ => exact ⟨rfl, rfl⟩

theorem outcome_watchedBy (call : Call) : (h.watchedBy watching).outcome call = h.outcome call := by
  cases call with
  | instantiate sender message =>
    rw [outcome, outcome, (same_instantiate h watching sender message).result]
  | execute sender message => rw [outcome, outcome, (same_execute h watching sender message).result]
  | query message => cases message <;> rfl
  | holders => rfl

theorem after_watchedBy (call : Call) :
    (h.watchedBy watching).after call = (h.after call).watchedBy watching := by
  cases call with
  | instantiate sender message => exact (same_instantiate h watching sender message).host
  | execute sender message => exact (same_execute h watching sender message).host
  | query message => rfl
  | holders => rfl

theorem transcript_watchedBy (calls : List (Option Observers × Call)) :
    (h.watchedBy watching).transcript calls = h.transcript calls := by
  cases calls with
  | nil => rfl
  | cons call rest => rfl

/-- Whoever watches the calls of a run, the answers and the stores are those of a run that nobody
watches. -/
theorem transcript_watched (calls : List (Option Observers × Call)) :
    h.transcript calls = h.transcript (calls.map fun call => (none, call.2)) := by
  induction calls generalizing h with
  | nil => rfl
  | cons call rest ih =>
    rw [List.map_cons, transcript, transcript, outcome_watchedBy, outcome_watchedBy,
      after_watchedBy, after_watchedBy, transcript_watchedBy, transcript_watchedBy, ih]
    rfl

/-- A host with observers announces the event that a call is, once and with the accounts that the
call concerns, to all whom it concerns, and announces nothing else. Neither the observers nor what
they do with an announcement, be it that they fail, shows in any answer or store of a run. -/
theorem tells (h : Host) (observers : Observers) :
    (∀ call, let host := h.watchedBy (some observers)
      Tells observers (host.event? call) call.sender? host.store (host.after call).store
        (host.announced? call) (host.deliveries call)) ∧
    ∀ calls : List (Option Observers × Call),
      h.transcript calls = h.transcript (calls.map fun call => (none, call.2)) :=
  ⟨fun call => tells_call rfl call, transcript_watched h⟩

/-- A transfer to an account that is watched by a callback that also follows the event, and fails,
and by another; and a refusal of a recipient whose name is no whole text. -/
theorem tells_subscribers :
    let store := (Store.memory .empty).setAmount (.balance "alice") (some ⟨50, by decide⟩)
    let react : String → Notice → Except String Unit :=
      fun callback _ => if callback = "log" then .error "full" else .ok ()
    let ops : List Observers.Op :=
      [.subscribe (.account "bob") "bell", .subscribe (.account "bob") "log",
        .subscribe (.event .commandApplied) "log", .subscribe (.event .commandRejected) "alarm",
        .subscribe (.account "carol") "quiet"]
    let observers := (Observers.none react).afterAll ops
    let host : Host := ⟨⟨.simple, ⟨3, 30, 3, 6⟩⟩, store, some observers, .none⟩
    let transfer (recipient : Json) : Call := .execute "alice" (.raw
      (.obj [("transfer", .obj [("recipient", recipient), ("amount", .str "20")])]))
    let applied := transfer (.str "bob")
    let refused := transfer (.halves [0xD800])
    host.event? applied = some .commandApplied ∧
      (host.deliveries applied).map (·.callback) = ["log", "bell"] ∧
      Tells observers (some .commandApplied) (some "alice") store (host.after applied).store
        (host.announced? applied) (host.deliveries applied) ∧
      host.event? refused = some .commandRejected ∧
      (host.deliveries refused).map (·.callback) = ["alarm"] ∧
      Tells observers (some .commandRejected) (some "alice") store (host.after refused).store
        (host.announced? refused) (host.deliveries refused) := by
  intro store react ops observers host transfer applied refused
  have happlied : host.event? applied = some .commandApplied := by decide +kernel
  have hrefused : host.event? refused = some .commandRejected := by decide +kernel
  have htells := (tells host observers).1
  refine ⟨happlied, by decide +kernel, ?_, hrefused, by decide +kernel, ?_⟩
  · rw [← happlied]
    exact htells applied
  · rw [← hrefused]
    exact htells refused

end Host

end FungibleLedger
