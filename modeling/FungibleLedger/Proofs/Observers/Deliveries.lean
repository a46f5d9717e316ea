import FungibleLedger.Proofs.Observers.Subscriptions

/-!
# Who hears of an event

A notice of an event that lists some accounts concerns the event and then each of the accounts.
After any history of subscriptions it is given to the followers of these topics, to each of them
once and in the order of the topics and of the subscriptions, and no failure of one of them keeps it
from another: `Observers.notify_afterAll`.

* `Observers.topicsOf` : what a notice concerns.
* `Observers.Heard` : the place of a callback, by the first topic that it follows and by when it
  began to.
* `Observers.Hears` : the callbacks that hear of some topics, in order.

The list of targets grows topic by topic, and so does the list that `Hears` describes
(`Observers.Hears.concat`).
-/

namespace FungibleLedger.Observers

variable {ops : List Op} {topics : List Topic} {topic : Topic} {callback : String}

/-! ## The order of callbacks -/

/-- The first topic that a callback follows is the one with number `i`, which it began to follow
with operation number `n`. -/
def Heard (ops : List Op) (topics : List Topic) (callback : String) (i n : Nat) : Prop :=
  ∃ earlier topic later, topics = earlier ++ topic :: later ∧ earlier.length = i ∧
    (∀ t ∈ earlier, ¬ Follows ops t callback) ∧ Began ops topic callback n

/-- The callbacks that hear of some topics: those that follow one of them, each once, ordered by the
first topic that they follow and by when they began to follow it. -/
structure Hears (ops : List Op) (topics : List Topic) (callbacks : List String) : Prop where
  mem_iff : ∀ callback, callback ∈ callbacks ↔ ∃ topic ∈ topics, Follows ops topic callback
  nodup : callbacks.Nodup
  ordered : callbacks.Pairwise fun a b =>
    ∃ i m j n, Heard ops topics a i m ∧ Heard ops topics b j n ∧ (i < j ∨ i = j ∧ m < n)

theorem Heard.lt {i n : Nat} (h : Heard ops topics callback i n) : i < topics.length := by
  obtain ⟨earlier, topic, later, rfl, rfl, -, -⟩ := h
  simp

theorem Heard.concat {i n : Nat} (h : Heard ops topics callback i n) (topic : Topic) :
    Heard ops (topics ++ [topic]) callback i n := by
  obtain ⟨earlier, t, later, rfl, hlength, hearlier, hbegan⟩ := h
  exact ⟨earlier, t, later ++ [topic], by simp, hlength, hearlier, hbegan⟩

theorem heard_last {n : Nat} (h : ∀ t ∈ topics, ¬ Follows ops t callback)
    (hbegan : Began ops topic callback n) :
    Heard ops (topics ++ [topic]) callback topics.length n :=
  ⟨topics, topic, [], rfl, rfl, h, hbegan⟩

/-- Whoever follows one of some topics has a place. -/
theorem exists_heard (h : ∃ topic ∈ topics, Follows ops topic callback) :
    ∃ i n, Heard ops topics callback i n := by
  induction topics using List.reverseRecOn with
  | nil => simp at h
  | append_singleton topics topic ih =>
    by_cases hearlier : ∃ t ∈ topics, Follows ops t callback
    · obtain ⟨i, n, hheard⟩ := ih hearlier
      exact ⟨i, n, hheard.concat topic⟩
    · have hlast : Follows ops topic callback := by
        obtain ⟨t, ht, hfollows⟩ := h
        rcases List.mem_append.1 ht with ht | ht
        · exact absurd ⟨t, ht, hfollows⟩ hearlier
        · exact List.mem_singleton.1 ht ▸ hfollows
      obtain ⟨n, hbegan⟩ := hlast.exists_began
      exact ⟨_, n, heard_last (fun t ht hfollows => hearlier ⟨t, ht, hfollows⟩) hbegan⟩

namespace Hears

variable {callbacks followers : List String}

theorem nil (ops : List Op) : Hears ops [] [] :=
  ⟨by simp, .nil, .nil⟩

/-- With one more topic, its followers come behind the others, except for those who are there
already. -/
theorem concat (h : Hears ops topics callbacks) (hfollowers : Recorded ops topic followers) :
    Hears ops (topics ++ [topic]) (callbacks ++ followers.filter (· ∉ callbacks)) := by
  have hnew : ∀ c, c ∈ followers.filter (· ∉ callbacks) ↔ c ∈ followers ∧ c ∉ callbacks := by
    simp
  refine ⟨fun c => ?_, ?_, ?_⟩
  · rw [List.mem_append, hnew, hfollowers.mem_iff]
    simp only [List.mem_append, List.mem_singleton, or_and_right, exists_or, exists_eq_left,
      ← h.mem_iff]
    tauto
  · refine List.nodup_append.2 ⟨h.nodup, hfollowers.nodup.filter _, ?_⟩
    rintro a ha b hb rfl
    exact ((hnew a).1 hb).2 ha
  · -- whoever is new follows none of the earlier topics
    have hlast : ∀ {c n}, c ∈ followers.filter (· ∉ callbacks) → Began ops topic c n →
        Heard ops (topics ++ [topic]) c topics.length n := by
      intro c n hc hbegan
      exact heard_last (fun t ht hfollows => ((hnew c).1 hc).2 ((h.mem_iff c).2 ⟨t, ht, hfollows⟩))
        hbegan
    refine List.pairwise_append.2 ⟨h.ordered.imp ?_, ?_, fun a ha b hb => ?_⟩
    · rintro a b ⟨i, m, j, n, hi, hj, hlt⟩
      exact ⟨i, m, j, n, hi.concat topic, hj.concat topic, hlt⟩
    · refine (hfollowers.ordered.filter _).imp_of_mem ?_
      rintro a b ha hb ⟨m, n, hm, hn, hlt⟩
      exact ⟨_, m, _, n, hlast ha hm, hlast hb hn, .inr ⟨rfl, hlt⟩⟩
    · obtain ⟨i, m, hi⟩ := exists_heard ((h.mem_iff a).1 ha)
      obtain ⟨n, hn⟩ := ((hfollowers.mem_iff b).1 ((hnew b).1 hb).1).exists_began
      exact ⟨i, m, _, n, hi.concat topic, hlast hb hn, .inl hi.lt⟩

end Hears

/-! ## Targets -/

/-- Joining callbacks one by one puts those at the end that are not there yet. -/
theorem foldl_join {callbacks : List String} (h : callbacks.Nodup) (found : List String) :
    callbacks.foldl (fun l c => join c l) found = found ++ callbacks.filter (· ∉ found) := by
  induction callbacks generalizing found with
  | nil => simp
  | cons c rest ih =>
    obtain ⟨hnot, hrest⟩ := List.nodup_cons.1 h
    rw [List.foldl_cons, ih hrest, join]
    by_cases hc : c ∈ found
    · rw [if_pos (List.contains_iff_mem.2 hc), List.filter_cons_of_neg (by simpa using hc)]
    · have hsame : rest.filter (· ∉ found ++ [c]) = rest.filter (· ∉ found) := by
        refine List.filter_congr fun d hd => ?_
        have hne : d ≠ c := fun heq => hnot (heq ▸ hd)
        simp [hne]
      rw [if_neg (mt List.contains_iff_mem.1 hc), List.filter_cons_of_pos (by simpa using hc),
        hsame, List.append_assoc, List.singleton_append]

theorem mem_foldl_join {callbacks found : List String} {c : String} :
    c ∈ callbacks.foldl (fun l c => join c l) found ↔ c ∈ found ∨ c ∈ callbacks := by
  induction callbacks generalizing found with
  | nil => simp
  | cons head rest ih =>
    rw [List.foldl_cons, ih, mem_join, List.mem_cons]
    tauto

theorem nodup_foldl_join (callbacks : List String) {found : List String} (h : found.Nodup) :
    (callbacks.foldl (fun l c => join c l) found).Nodup := by
  induction callbacks generalizing found with
  | nil => exact h
  | cons head rest ih => exact ih (nodup_join h head)

/-- The targets of an event are those who follow it and those who watch one of the accounts. -/
theorem mem_targets {o : Observers} {event : Event} {accounts : List AnyText} {c : String} :
    c ∈ o.targets event accounts ↔
      c ∈ o.followers event ∨ ∃ account ∈ accounts, c ∈ o.watchersOf account := by
  rw [targets]
  generalize o.followers event = found
  induction accounts generalizing found with
  | nil => simp
  | cons account rest ih =>
    rw [List.foldl_cons, ih, mem_foldl_join, or_assoc]
    simp only [List.mem_cons, exists_eq_or_imp]

theorem Tidy.nodup_targets {o : Observers} (h : o.Tidy) (event : Event)
    (accounts : List AnyText) : (o.targets event accounts).Nodup := by
  have hfollowers := h.followers event
  rw [targets]
  generalize o.followers event = found at hfollowers
  induction accounts generalizing found with
  | nil => exact hfollowers
  | cons account rest ih => exact ih _ (nodup_foldl_join _ hfollowers)

/-- What a notice of an event concerns that lists some accounts. -/
def topicsOf (event : Event) (accounts : List AnyText) : List Topic :=
  .event event :: accounts.map .account

theorem hears_foldl {o : Observers} (hlists : ∀ topic, Recorded ops topic (o.subscribers topic))
    {found : List String} (h : Hears ops topics found) (accounts : List AnyText) :
    Hears ops (topics ++ accounts.map .account)
      (accounts.foldl (fun found a => (o.watchersOf a).foldl (fun l c => join c l) found)
        found) := by
  induction accounts generalizing topics found with
  | nil => simpa using h
  | cons account rest ih =>
    have hlist : Recorded ops (.account account) (o.watchersOf account) := hlists (.account account)
    rw [List.foldl_cons, foldl_join hlist.nodup, List.map_cons, List.append_cons]
    exact ih (h.concat hlist)

theorem hears_targets {o : Observers} (hlists : ∀ topic, Recorded ops topic (o.subscribers topic))
    (event : Event) (accounts : List AnyText) :
    Hears ops (topicsOf event accounts) (o.targets event accounts) := by
  have hlist : Recorded ops (.event event) (o.followers event) := hlists (.event event)
  have hall : (o.followers event).filter (· ∉ ([] : List String)) = o.followers event :=
    List.filter_eq_self.2 (by simp)
  have hevent := (Hears.nil ops).concat hlist
  rw [hall] at hevent
  exact hears_foldl hlists hevent accounts

/-! ## Deliveries -/

theorem callbacks_publish (o : Observers) (event : Event) (accounts : List AnyText)
    (data : Json.Members) :
    (o.publish event accounts data).map Delivery.callback = o.targets event accounts := by
  simp [publish, Function.comp_def]

theorem said_of_mem_publish {o : Observers} {event : Event} {accounts : List AnyText}
    {data : Json.Members} {delivery : Delivery} (h : delivery ∈ o.publish event accounts data) :
    delivery.notice = notice event data ∧
      delivery.outcome = o.react delivery.callback delivery.notice := by
  obtain ⟨callback, -, rfl⟩ := List.mem_map.1 h
  exact ⟨rfl, rfl⟩

/-- The data of a notice lists some accounts, or none if it has no word on them. -/
def Lists (data : Json.Members) (accounts : List AnyText) : Prop :=
  data.get? "accounts" = .none ∧ accounts = [] ∨
    data.get? "accounts" = some (.arr (accounts.map .ofText))

theorem accountOfItem_ofText (account : AnyText) :
    accountOfItem (.ofText account) = .ok (some account) := by
  cases account <;> rfl

theorem accountsOf_arr (accounts : List AnyText) :
    accountsOf (.arr (accounts.map .ofText)) = .ok accounts := by
  have hitems : (accounts.map Json.ofText).mapM accountOfItem = .ok (accounts.map some) := by
    induction accounts with
    | nil => rfl
    | cons account rest ih =>
      rw [List.map_cons, List.mapM_cons, accountOfItem_ofText, ih]
      rfl
  rw [accountsOf, itemsOf?]
  dsimp only
  rw [hitems]
  simp [Except.map]

theorem notify_of_lists (o : Observers) (event : Event) {data : Json.Members}
    {accounts : List AnyText} (h : Lists data accounts) :
    o.notify event data = .ok (o.publish event accounts data) := by
  rw [notify]
  rcases h with ⟨hdata, rfl⟩ | hdata
  · rw [hdata]
  · rw [hdata]
    dsimp only
    rw [accountsOf_arr]
    rfl

theorem after_react (o : Observers) (react : String → Notice → Except String Unit) (op : Op) :
    after { o with react := react } op = { o.after op with react := react } := by
  cases op with
  | subscribe topic callback => cases topic <;> rfl
  | unsubscribe topic callback =>
    cases topic with
    | event event => rfl
    | account address =>
      have hwatchers : watchersOf { o with react := react } = o.watchersOf := rfl
      rw [after, after, unwatch, unwatch, hwatchers]
      split <;> rfl
  | notify event data => rfl

/-- What callbacks do with notices has no part in the subscriptions. -/
theorem afterAll_react (o : Observers) (react : String → Notice → Except String Unit)
    (ops : List Op) :
    afterAll { o with react := react } ops = { o.afterAll ops with react := react } := by
  induction ops generalizing o with
  | nil => rfl
  | cons op rest ih =>
    rw [afterAll, List.foldl_cons, after_react]
    exact ih (o.after op)

/-- After any history of subscriptions, a notice of an event that lists some accounts is delivered
to those who follow one of these topics, each once and in order, whatever each of them does with
it. No list of subscribers has a callback twice, and no account is kept without subscribers. -/
theorem notify_afterAll (ops : List Op) (event : Event) (data : Json.Members)
    (accounts : List AnyText) (h : Lists data accounts) :
    ∃ callbacks, Hears ops (topicsOf event accounts) callbacks ∧
      ∀ react, ((none react).afterAll ops).Tidy ∧
        ((none react).afterAll ops).notify event data =
          .ok (callbacks.map fun c => ⟨c, notice event data, react c (notice event data)⟩) := by
  let calm : Observers := (none fun _ _ => .ok ()).afterAll ops
  refine ⟨calm.targets event accounts, hears_targets (recorded_afterAll _ ops) event accounts,
    fun react => ⟨(tidy_none react).afterAll ops, ?_⟩⟩
  have hreact : (none react).afterAll ops = { calm with react := react } :=
    afterAll_react (none fun _ _ => .ok ()) react ops
  rw [hreact, notify_of_lists _ _ h]
  rfl

/-- A callback that has left and come back, one that hears of the event and of an account and fails,
and an account that is listed twice. -/
theorem notify_afterAll_returning :
    let ops : List Op :=
      [.subscribe (.event .commandApplied) "log", .subscribe (.account "bob") "boom",
        .subscribe (.account "alice") "log", .subscribe (.account "alice") "carl",
        .notify .commandRejected [], .subscribe (.event .commandApplied) "boom",
        .unsubscribe (.event .commandApplied) "log", .subscribe (.event .commandApplied) "log",
        .subscribe (.event .commandApplied) "boom", .subscribe (.account "bob") "dave",
        .unsubscribe (.account "carol") "erin"]
    let accounts : List AnyText := ["bob", "alice", "bob"]
    let data : Json.Members := [("accounts", .arr (accounts.map .ofText))]
    let react : String → Notice → Except String Unit :=
      fun callback _ => if callback = "boom" then .error "boom" else .ok ()
    Lists data accounts ∧
      Hears ops (topicsOf .commandApplied accounts) ["boom", "log", "dave", "carl"] ∧
      (((none react).afterAll ops).notify .commandApplied data).map
          (·.map fun delivery => (delivery.callback, delivery.outcome)) =
        .ok [("boom", .error "boom"), ("log", .ok ()), ("dave", .ok ()), ("carl", .ok ())] := by
  intro ops accounts data react
  have hlists : Lists data accounts := .inr rfl
  obtain ⟨callbacks, hhears, hnotify⟩ := notify_afterAll ops .commandApplied data accounts hlists
  have hrun : (((none react).afterAll ops).notify .commandApplied data).map
      (·.map fun delivery => (delivery.callback, delivery.outcome)) =
        .ok [("boom", .error "boom"), ("log", .ok ()), ("dave", .ok ()), ("carl", .ok ())] := by
    have htargets : ((none react).afterAll ops).targets .commandApplied accounts =
        ["boom", "log", "dave", "carl"] := by
      decide +kernel
    rw [notify_of_lists _ _ hlists, publish, htargets]
    rfl
  have hcallbacks : callbacks = ["boom", "log", "dave", "carl"] := by
    rw [(hnotify react).2] at hrun
    have hnames := congrArg (List.map Prod.fst) (Except.ok.inj hrun)
    rw [List.map_map, List.map_map] at hnames
    simpa [Function.comp_def] using hnames
  exact ⟨hlists, hcallbacks ▸ hhears, hrun⟩

end FungibleLedger.Observers
