import Mathlib.Data.List.Induction
import FungibleLedger.Observers

/-!
# What a history of subscriptions leaves

Callbacks subscribe to topics, which are events and accounts, and leave them again. Whether a
callback follows a topic is up to the last of these operations (`Observers.Follows`), and its place
among the others is up to the operation with which it began to follow (`Observers.Began`): to
subscribe once more does not move it, and to leave and come back does. The lists that observers keep
say just that: `Observers.recorded_afterAll`.

* `Observers.Op`, `Observers.afterAll` : operations, and the observers after a history of them.
* `Observers.Recorded` : what a list of subscribers says about a history.
* `Observers.Tidy` : no list has a callback twice, and no account has an empty list or two lists.
-/

namespace FungibleLedger

/-- What callbacks subscribe to. -/
inductive Topic
  | event (event : Event)
  | account (address : AnyText)
deriving DecidableEq

namespace Observers

/-- What observers are asked to do. -/
inductive Op
  | subscribe (topic : Topic) (callback : String)
  | unsubscribe (topic : Topic) (callback : String)
  | notify (event : Event) (data : Json.Members)

/-- The observers after an operation. A notice leaves them as they are. -/
def after (o : Observers) : Op → Observers
  | .subscribe (.event event) callback => o.subscribe event callback
  | .subscribe (.account address) callback => o.watch address callback
  | .unsubscribe (.event event) callback => o.unsubscribe event callback
  | .unsubscribe (.account address) callback => o.unwatch address callback
  | .notify _ _ => o

/-- The observers after a history. -/
def afterAll (o : Observers) (ops : List Op) : Observers :=
  ops.foldl after o

theorem afterAll_concat (o : Observers) (ops : List Op) (op : Op) :
    o.afterAll (ops ++ [op]) = (o.afterAll ops).after op := by
  rw [afterAll, List.foldl_append]
  rfl

/-! ## Histories -/

/-- Of the subscriptions of a callback to a topic and their ends, the last in a history is a
subscription. -/
def Follows (ops : List Op) (topic : Topic) (callback : String) : Prop :=
  ∃ earlier later, ops = earlier ++ .subscribe topic callback :: later ∧
    .subscribe topic callback ∉ later ∧ .unsubscribe topic callback ∉ later

/-- The operation with which a callback began to follow a topic that it follows: it did not follow
the topic before, and did not leave it afterwards. -/
def Began (ops : List Op) (topic : Topic) (callback : String) (n : Nat) : Prop :=
  ∃ earlier later, ops = earlier ++ .subscribe topic callback :: later ∧ earlier.length = n ∧
    ¬ Follows earlier topic callback ∧ .unsubscribe topic callback ∉ later

section Histories

variable {ops : List Op} {op : Op} {topic : Topic} {callback : String} {n : Nat}

theorem not_follows_nil : ¬ Follows [] topic callback := by
  rintro ⟨earlier, later, h, -, -⟩
  simp at h

theorem follows_concat :
    Follows (ops ++ [op]) topic callback ↔
      op = .subscribe topic callback ∨
        Follows ops topic callback ∧ op ≠ .unsubscribe topic callback := by
  constructor
  · rintro ⟨earlier, later, h, hsubscribe, hunsubscribe⟩
    rcases List.eq_nil_or_concat later with rfl | ⟨later, last, rfl⟩
    · left
      exact (List.cons.inj (List.append_inj' h rfl).2).1
    · rw [List.concat_eq_append, ← List.cons_append, ← List.append_assoc] at h
      obtain ⟨rfl, hlast⟩ := List.append_inj' h rfl
      obtain rfl : op = last := (List.cons.inj hlast).1
      simp only [List.concat_eq_append, List.mem_append, List.mem_singleton, not_or]
        at hsubscribe hunsubscribe
      exact .inr ⟨⟨earlier, later, rfl, hsubscribe.1, hunsubscribe.1⟩, Ne.symm hunsubscribe.2⟩
  · intro h
    by_cases hop : op = .subscribe topic callback
    · exact ⟨ops, [], by rw [hop], List.not_mem_nil, List.not_mem_nil⟩
    · obtain ⟨⟨earlier, later, rfl, hsubscribe, hunsubscribe⟩, hleave⟩ := h.resolve_left hop
      refine ⟨earlier, later ++ [op], by simp, ?_, ?_⟩
      · simp [hsubscribe, Ne.symm hop]
      · simp [hunsubscribe, Ne.symm hleave]

theorem Began.lt (h : Began ops topic callback n) : n < ops.length := by
  obtain ⟨earlier, later, rfl, rfl, -, -⟩ := h
  simp

theorem Began.concat (h : Began ops topic callback n) (hop : op ≠ .unsubscribe topic callback) :
    Began (ops ++ [op]) topic callback n := by
  obtain ⟨earlier, later, rfl, hlength, hbefore, hafter⟩ := h
  exact ⟨earlier, later ++ [op], by simp, hlength, hbefore, by simp [hafter, Ne.symm hop]⟩

theorem began_concat_subscribe (h : ¬ Follows ops topic callback) :
    Began (ops ++ [.subscribe topic callback]) topic callback ops.length :=
  ⟨ops, [], rfl, rfl, h, List.not_mem_nil⟩

/-- Whoever follows a topic began to at some time. -/
theorem Follows.exists_began (h : Follows ops topic callback) :
    ∃ n, Began ops topic callback n := by
  induction ops using List.reverseRecOn with
  | nil => exact absurd h not_follows_nil
  | append_singleton ops op ih =>
    by_cases hbefore : Follows ops topic callback
    · obtain ⟨n, hn⟩ := ih hbefore
      refine ⟨n, hn.concat ?_⟩
      rintro rfl
      simp [follows_concat] at h
    · obtain rfl := (follows_concat.1 h).resolve_right fun hboth => hbefore hboth.1
      exact ⟨_, began_concat_subscribe hbefore⟩

end Histories

/-! ## Lists of subscribers -/

/-- A list has the followers of a topic, each once and in the order in which they began to follow
it. -/
structure Recorded (ops : List Op) (topic : Topic) (callbacks : List String) : Prop where
  mem_iff : ∀ callback, callback ∈ callbacks ↔ Follows ops topic callback
  nodup : callbacks.Nodup
  ordered : callbacks.Pairwise fun a b =>
    ∃ m n, Began ops topic a m ∧ Began ops topic b n ∧ m < n

theorem mem_join {callback c : String} {callbacks : List String} :
    c ∈ join callback callbacks ↔ c = callback ∨ c ∈ callbacks := by
  rw [join]
  split
  · next h =>
    rw [List.contains_iff_mem] at h
    exact ⟨.inr, fun hc => hc.elim (fun heq => heq ▸ h) id⟩
  · rw [List.mem_append, List.mem_singleton, or_comm]

theorem nodup_join {callbacks : List String} (h : callbacks.Nodup) (callback : String) :
    (join callback callbacks).Nodup := by
  rw [join]
  split
  · exact h
  · next hnew =>
    rw [List.contains_iff_mem] at hnew
    refine List.nodup_append.2 ⟨h, List.pairwise_singleton _ _, ?_⟩
    rintro c hc d hd rfl
    exact hnew (List.mem_singleton.1 hd ▸ hc)

namespace Recorded

variable {ops : List Op} {op : Op} {topic : Topic} {callback : String} {callbacks : List String}

theorem nil (topic : Topic) : Recorded [] topic [] :=
  ⟨fun _ => ⟨nofun, fun h => absurd h not_follows_nil⟩, .nil, .nil⟩

/-- An operation on another topic, or a notice. -/
theorem keep (h : Recorded ops topic callbacks) (hsubscribe : ∀ c, op ≠ .subscribe topic c)
    (hunsubscribe : ∀ c, op ≠ .unsubscribe topic c) : Recorded (ops ++ [op]) topic callbacks := by
  refine ⟨fun c => ?_, h.nodup, h.ordered.imp ?_⟩
  · rw [h.mem_iff, follows_concat]
    simp [hsubscribe, hunsubscribe]
  · rintro a b ⟨m, n, ha, hb, hlt⟩
    exact ⟨m, n, ha.concat (hunsubscribe a), hb.concat (hunsubscribe b), hlt⟩

theorem subscribe (h : Recorded ops topic callbacks) (callback : String) :
    Recorded (ops ++ [.subscribe topic callback]) topic (join callback callbacks) := by
  have hordered : callbacks.Pairwise fun a b =>
      ∃ m n, Began (ops ++ [.subscribe topic callback]) topic a m ∧
        Began (ops ++ [.subscribe topic callback]) topic b n ∧ m < n := by
    refine h.ordered.imp ?_
    rintro a b ⟨m, n, ha, hb, hlt⟩
    exact ⟨m, n, ha.concat nofun, hb.concat nofun, hlt⟩
  refine ⟨fun c => ?_, nodup_join h.nodup callback, ?_⟩
  · rw [mem_join, h.mem_iff, follows_concat]
    simp [eq_comm]
  · rw [join]
    split
    · exact hordered
    · next hnew =>
      rw [List.contains_iff_mem, h.mem_iff] at hnew
      refine List.pairwise_append.2 ⟨hordered, List.pairwise_singleton _ _, fun a ha b hb => ?_⟩
      obtain rfl := List.mem_singleton.1 hb
      obtain ⟨m, hm⟩ := ((h.mem_iff a).1 ha).exists_began
      exact ⟨m, ops.length, hm.concat nofun, began_concat_subscribe hnew, hm.lt⟩

theorem unsubscribe (h : Recorded ops topic callbacks) (callback : String) :
    Recorded (ops ++ [.unsubscribe topic callback]) topic (callbacks.erase callback) := by
  have hstays : ∀ c ∈ callbacks.erase callback,
      Op.unsubscribe topic callback ≠ .unsubscribe topic c := by
    rintro c hc ⟨⟩
    exact (h.nodup.mem_erase_iff.1 hc).1 rfl
  refine ⟨fun c => ?_, h.nodup.erase callback, ?_⟩
  · rw [h.nodup.mem_erase_iff, h.mem_iff, follows_concat]
    simp [eq_comm, and_comm]
  · refine (h.ordered.sublist List.erase_sublist).imp_of_mem ?_
    rintro a b ha hb ⟨m, n, hm, hn, hlt⟩
    exact ⟨m, n, hm.concat (hstays a ha), hn.concat (hstays b hb), hlt⟩

end Recorded

/-! ## The lists that observers keep -/

/-- The subscribers of a topic. -/
def subscribers (o : Observers) : Topic → List String
  | .event event => o.followers event
  | .account address => o.watchersOf address

theorem lookup_putWatchers (address : AnyText) (callbacks : List String)
    (watchers : List (AnyText × List String)) (a : AnyText) :
    (putWatchers address callbacks watchers).lookup a =
      if a = address then some callbacks else watchers.lookup a := by
  induction watchers with
  | nil =>
    rw [putWatchers, List.lookup_cons]
    grind
  | cons head rest ih =>
    rw [putWatchers]
    grind

theorem lookup_filter_ne (address : AnyText) (watchers : List (AnyText × List String))
    (a : AnyText) :
    (watchers.filter (·.1 ≠ address)).lookup a =
      if a = address then .none else watchers.lookup a := by
  induction watchers with
  | nil => simp
  | cons head rest ih =>
    rw [List.filter_cons]
    grind

theorem watchersOf_watch (o : Observers) (address : AnyText) (callback : String) (a : AnyText) :
    (o.watch address callback).watchersOf a =
      if a = address then join callback (o.watchersOf a) else o.watchersOf a := by
  rw [watchersOf, watch, lookup_putWatchers]
  split
  · next heq => rw [heq, Option.getD_some]
  · rfl

theorem watchersOf_unwatch (o : Observers) (address : AnyText) (callback : String) (a : AnyText) :
    (o.unwatch address callback).watchersOf a =
      if a = address then (o.watchersOf a).erase callback else o.watchersOf a := by
  rw [unwatch]
  split
  · next hnone =>
    rw [watchersOf, lookup_filter_ne]
    split
    · next heq => rw [heq, hnone, Option.getD_none]
    · rfl
  · next hsome =>
    rw [watchersOf, lookup_putWatchers]
    split
    · next heq => rw [heq, Option.getD_some]
    · rfl

/-- A subscription adds to the list of its topic, and to no other. -/
theorem subscribers_subscribe (o : Observers) (topic : Topic) (callback : String) (t : Topic) :
    (o.after (.subscribe topic callback)).subscribers t =
      if t = topic then join callback (o.subscribers t) else o.subscribers t := by
  cases topic with
  | event event =>
    cases t with
    | event e => simp [after, Observers.subscribe, subscribers]
    | account a => simp [after, Observers.subscribe, subscribers, watchersOf]
  | account address =>
    cases t with
    | event e => simp [after, watch, subscribers]
    | account a => simp [after, subscribers, watchersOf_watch]

/-- The end of a subscription takes from the list of its topic, and from no other. -/
theorem subscribers_unsubscribe (o : Observers) (topic : Topic) (callback : String) (t : Topic) :
    (o.after (.unsubscribe topic callback)).subscribers t =
      if t = topic then (o.subscribers t).erase callback else o.subscribers t := by
  cases topic with
  | event event =>
    cases t with
    | event e => simp [after, Observers.unsubscribe, subscribers]
    | account a => simp [after, Observers.unsubscribe, subscribers, watchersOf]
  | account address =>
    cases t with
    | event e =>
      have hfollowers : (o.unwatch address callback).followers = o.followers := by
        rw [unwatch]
        split <;> rfl
      simp [after, subscribers, hfollowers]
    | account a => simp [after, subscribers, watchersOf_unwatch]

/-- After any history, the list of a topic says what the history says about it. -/
theorem recorded_afterAll (react : String → Notice → Except String Unit) (ops : List Op)
    (topic : Topic) : Recorded ops topic (((none react).afterAll ops).subscribers topic) := by
  induction ops using List.reverseRecOn with
  | nil => cases topic <;> exact .nil _
  | append_singleton ops op ih =>
    rw [afterAll_concat]
    cases op with
    | subscribe other callback =>
      rw [subscribers_subscribe]
      split
      · next heq => exact heq ▸ ih.subscribe callback
      · next hne =>
        exact ih.keep (fun c heq => hne (Op.subscribe.inj heq).1.symm) fun c => nofun
    | unsubscribe other callback =>
      rw [subscribers_unsubscribe]
      split
      · next heq => exact heq ▸ ih.unsubscribe callback
      · next hne =>
        exact ih.keep (fun c => nofun) fun c heq => hne (Op.unsubscribe.inj heq).1.symm
    | notify event data => exact ih.keep (fun c => nofun) fun c => nofun

/-! ## Tidy lists -/

/-- No list of subscribers has a callback twice, and an account that is kept has subscribers, in one
list. -/
structure Tidy (o : Observers) : Prop where
  followers : ∀ event, (o.followers event).Nodup
  watchers : ∀ entry ∈ o.watchers, entry.2 ≠ [] ∧ entry.2.Nodup
  addresses : (o.watchers.map Prod.fst).Nodup

theorem mem_putWatchers {address : AnyText} {callbacks : List String}
    {watchers : List (AnyText × List String)} {entry : AnyText × List String}
    (h : entry ∈ putWatchers address callbacks watchers) :
    entry = (address, callbacks) ∨ entry ∈ watchers := by
  induction watchers with
  | nil => simpa [putWatchers] using h
  | cons head rest ih =>
    rw [putWatchers] at h
    grind

theorem nodup_putWatchers (address : AnyText) (callbacks : List String)
    {watchers : List (AnyText × List String)} (h : (watchers.map Prod.fst).Nodup) :
    ((putWatchers address callbacks watchers).map Prod.fst).Nodup := by
  induction watchers with
  | nil => simp [putWatchers]
  | cons head rest ih =>
    obtain ⟨a, cs⟩ := head
    obtain ⟨hnot, hrest⟩ := List.nodup_cons.1 h
    rw [putWatchers]
    split
    · next heq => exact List.nodup_cons.2 ⟨heq ▸ hnot, hrest⟩
    · next hne =>
      refine List.nodup_cons.2 ⟨fun hmem => ?_, ih hrest⟩
      obtain ⟨entry, hentry, hfst⟩ := List.mem_map.1 hmem
      rcases mem_putWatchers hentry with rfl | hentry
      · exact hne hfst.symm
      · exact hnot (List.mem_map.2 ⟨entry, hentry, hfst⟩)

namespace Tidy

variable {o : Observers}

theorem nodup_watchersOf (h : o.Tidy) (address : AnyText) : (o.watchersOf address).Nodup := by
  rw [watchersOf]
  cases hfind : o.watchers.lookup address with
  | none => exact .nil
  | some callbacks =>
    obtain ⟨earlier, later, hsplit, -⟩ := List.lookup_eq_some_iff.1 hfind
    exact (h.watchers (address, callbacks) (by simp [hsplit])).2

theorem putWatchers (h : o.Tidy) (address : AnyText) {callbacks : List String}
    (hne : callbacks ≠ []) (hnodup : callbacks.Nodup) :
    Tidy { o with watchers := Observers.putWatchers address callbacks o.watchers } := by
  refine ⟨h.followers, fun entry hentry => ?_, nodup_putWatchers address callbacks h.addresses⟩
  rcases mem_putWatchers hentry with rfl | hentry
  · exact ⟨hne, hnodup⟩
  · exact h.watchers entry hentry

theorem subscribe (h : o.Tidy) (event : Event) (callback : String) :
    (o.subscribe event callback).Tidy := by
  refine ⟨fun e => ?_, h.watchers, h.addresses⟩
  rw [Observers.subscribe]
  dsimp only
  split
  · exact nodup_join (h.followers e) callback
  · exact h.followers e

theorem unsubscribe (h : o.Tidy) (event : Event) (callback : String) :
    (o.unsubscribe event callback).Tidy := by
  refine ⟨fun e => ?_, h.watchers, h.addresses⟩
  rw [Observers.unsubscribe]
  dsimp only
  split
  · exact (h.followers e).erase callback
  · exact h.followers e

theorem watch (h : o.Tidy) (address : AnyText) (callback : String) :
    (o.watch address callback).Tidy :=
  h.putWatchers address (List.ne_nil_of_mem (mem_join.2 (.inl rfl)))
    (nodup_join (h.nodup_watchersOf address) callback)

/-- Whoever leaves as the last one takes the account along. -/
theorem unwatch (h : o.Tidy) (address : AnyText) (callback : String) :
    (o.unwatch address callback).Tidy := by
  rw [Observers.unwatch]
  split
  · refine ⟨h.followers, fun entry hentry => h.watchers entry (List.mem_filter.1 hentry).1, ?_⟩
    exact h.addresses.sublist (List.filter_sublist.map _)
  · next callbacks hsome =>
    exact h.putWatchers address hsome ((h.nodup_watchersOf address).erase callback)

theorem after (h : o.Tidy) (op : Op) : (o.after op).Tidy := by
  cases op with
  | subscribe topic callback =>
    cases topic with
    | event event => exact h.subscribe event callback
    | account address => exact h.watch address callback
  | unsubscribe topic callback =>
    cases topic with
    | event event => exact h.unsubscribe event callback
    | account address => exact h.unwatch address callback
  | notify event data => exact h

theorem afterAll (h : o.Tidy) (ops : List Op) : (o.afterAll ops).Tidy := by
  induction ops generalizing o with
  | nil => exact h
  | cons op rest ih => exact ih (h.after op)

end Tidy

theorem tidy_none (react : String → Notice → Except String Unit) : (none react).Tidy :=
  ⟨fun _ => .nil, nofun, .nil⟩

end Observers

end FungibleLedger
