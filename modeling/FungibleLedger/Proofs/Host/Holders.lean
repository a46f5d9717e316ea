import FungibleLedger.Proofs.Host.Calls
import FungibleLedger.Proofs.Ledger.Extensional
import FungibleLedger.Proofs.Ledger.Holders
import FungibleLedger.Proofs.Ledger.Seeding

/-!
# The list of holders and the answers to queries

The list of holders comes from a scan over the balance records, and the answer to a query from the
look-up of one key. Over any store whose balance records are kept under the names of accounts the
two agree (`Host.holders_agree`): the list has the accounts in the order of their keys and each of
them once, and a balance that is asked for is the one of the list. One record of another width and
there is no list. Nothing else in the store matters for either of them.

* `Ledger.Lists` : what a list of holders says about the balance records of a store.
* `Ledger.holders_of_not_width` : there is no list if one record has another width.
-/

namespace FungibleLedger

namespace Ledger

variable {s : Store}

/-- A list has the accounts with a balance record in the order of their keys, each of them once, and
with each the amount of its record. -/
structure Lists (s : Store) (list : List (String × Amount)) : Prop where
  ascending : list.Pairwise fun a b => utf8 a.1 < utf8 b.1
  nodup : (list.map Prod.fst).Nodup
  mem_keys : ∀ account, account ∈ list.map Prod.fst ↔
    ∃ raw, balanceView.get? s (utf8 account) = some raw
  mem : ∀ account amount, (account, amount) ∈ list ↔
    balanceView.get? s (utf8 account) = some amount.toBytes

theorem lists_of_range_eq {list : List (String × Amount)}
    (hrange : balanceView.range s = list.map record) : Lists s list := by
  have hmem := mem_iff_get?_of_range_eq hrange
  refine ⟨?_, nodup_of_range_eq hrange, fun account => ?_, hmem⟩
  · have hascending := View.range_ascending s balanceView_path_ne_nil
    rw [hrange, List.pairwise_map] at hascending
    exact hascending
  · constructor
    · intro h
      obtain ⟨⟨account, amount⟩, hholder, rfl⟩ := List.mem_map.1 h
      exact ⟨amount.toBytes, (hmem account amount).1 hholder⟩
    · rintro ⟨raw, hraw⟩
      have hentry := (View.mem_range balanceView_path_ne_nil).2 hraw
      rw [hrange] at hentry
      obtain ⟨holder, hholder, heq⟩ := List.mem_map.1 hentry
      exact List.mem_map.2 ⟨holder, hholder, utf8_injective (congrArg Prod.fst heq)⟩

/-- A record of another width keeps all holders from being listed. The failure tells the width of
the first such record. -/
theorem holders_of_not_width (hs : Named s)
    (hwidth : ∃ key raw, balanceView.get? s key = some raw ∧ raw.length ≠ Amount.width) :
    ∃ key raw, balanceView.get? s key = some raw ∧ raw.length ≠ Amount.width ∧
      (∀ key' raw', key' < key → balanceView.get? s key' = some raw' →
        raw'.length = Amount.width) ∧
      holders s = .error (.violation (.wrongWidth ⟨raw.length⟩)) := by
  have hmem : ∀ key raw, (key, raw) ∈ balanceView.range s ↔ balanceView.get? s key = some raw :=
    fun key raw => View.mem_range balanceView_path_ne_nil
  rcases records_or_split (named_iff.1 hs) with
    ⟨list, hrange⟩ | ⟨list, account, raw, later, hrange, hraw⟩
  · obtain ⟨key, raw, hget, hraw⟩ := hwidth
    rw [← hmem, hrange] at hget
    exact absurd (length_of_mem_record hget) hraw
  · refine ⟨utf8 account, raw, (hmem _ _).1 (by simp [hrange]), hraw, ?_, ?_⟩
    · -- a lesser key stands in front, among records that have been read
      intro key' raw' hlt hget
      have hascending := View.range_ascending s balanceView_path_ne_nil
      rw [hrange, List.pairwise_append, List.pairwise_cons] at hascending
      obtain ⟨-, ⟨hlater, -⟩, -⟩ := hascending
      rw [← hmem, hrange, List.mem_append, List.mem_cons] at hget
      rcases hget with hearlier | heq | hafter
      · exact length_of_mem_record hearlier
      · obtain rfl : key' = utf8 account := congrArg Prod.fst heq
        exact absurd hlt (Bytes.lt_irrefl _)
      · exact absurd (Bytes.lt_trans hlt (hlater _ hafter)) (Bytes.lt_irrefl _)
    · rw [holders, hrange, mapM_holder_append, List.mapM_cons, holder_of_length hraw]
      rfl

end Ledger

namespace Host

variable (h : Host)

theorem query_balance_eq {message : Incoming Query} {address account : String}
    (hmessage : message.query? = some (.balance address))
    (haddress : h.ledger.addresses.validate address = .ok account) :
    h.query message = (Ledger.balanceAt h.store account).map .balance := by
  rw [h.query_eq_typed hmessage, Ledger.query, Ledger.addressOf_of_validate haddress]
  rfl

/-- If the balance records of a store are under the names of accounts and have the width of amounts,
the holders are listed, and a query answers what the list says of its account, or zero if the list
does not name it. If they are under such names and one has another width, there is no list. Both
depend on the balance records alone. -/
theorem holders_agree :
    (Ledger.Named h.store →
      (∀ key raw, Ledger.balanceView.get? h.store key = some raw → raw.length = Amount.width) →
      ∃ list, h.holders = .ok list ∧ Ledger.Lists h.store list ∧
        ∀ message (address account : String), message.query? = some (.balance address) →
          h.ledger.addresses.validate address = .ok account →
          h.query message = .ok (.balance ((list.lookup account).getD .zero))) ∧
    (Ledger.Named h.store →
      (∃ key raw, Ledger.balanceView.get? h.store key = some raw ∧ raw.length ≠ Amount.width) →
      ∃ key raw, Ledger.balanceView.get? h.store key = some raw ∧ raw.length ≠ Amount.width ∧
        (∀ key' raw', key' < key → Ledger.balanceView.get? h.store key' = some raw' →
          raw'.length = Amount.width) ∧
        h.holders = .error (.violation (.wrongWidth ⟨raw.length⟩))) ∧
    ∀ store : Store,
      (∀ key, Ledger.balanceView.get? store key = Ledger.balanceView.get? h.store key) →
      { h with store := store }.holders = h.holders ∧
        ∀ message address, message.query? = some (.balance address) →
          { h with store := store }.query message = h.query message := by
  refine ⟨fun hnamed hwidth => ?_, Ledger.holders_of_not_width, fun store hstore => ?_⟩
  · obtain ⟨list, hrange⟩ := Ledger.exists_range_of_width hnamed hwidth
    refine ⟨list, ?_, Ledger.lists_of_range_eq hrange, ?_⟩
    · rw [holders, Ledger.holders, hrange, Ledger.mapM_holder]
    · intro message address account hmessage haddress
      rw [h.query_balance_eq hmessage haddress, Ledger.balanceAt_of_range_eq hrange]
      rfl
  · refine ⟨Ledger.holders_congr hstore, fun message address hmessage => ?_⟩
    rw [query_eq_typed _ hmessage, query_eq_typed _ hmessage]
    exact Ledger.query_balance_congr hstore _ _

/-- Among the records are an allowance of an owner whose name is that of the balances, and keys that
have the path of the balances but for its first byte or for its last one. They do not show in the
list or in an answer. A third balance record that is too short leaves no list. -/
theorem holders_agree_imitating :
    let five : Amount := ⟨5, by decide⟩
    let seven : Amount := ⟨7, by decide⟩
    let path := Ledger.balanceView.path
    let balances : List (Bytes × Bytes) :=
      [(path ++ utf8 "carol", seven.toBytes), (path ++ utf8 "alice", five.toBytes)]
    let others : List (Bytes × Bytes) :=
      [(Ledger.allowancePath ++ path ++ utf8 "alice", [1]), (path.tail ++ utf8 "alice", [2]),
        (path.dropLast ++ utf8 "alice", [3]), (Ledger.metadataPlace, [4])]
    let store : Store := .memory (.ofList (others ++ balances))
    let host : Host := ⟨⟨.simple, ⟨3, 30, 3, 6⟩⟩, store, none, .none⟩
    let bare : Store := .memory (.ofList balances)
    let short : Host := { host with store := host.store.set (path ++ utf8 "bob") [1, 2, 3] }
    Ledger.Named host.store ∧
      (∀ key raw, Ledger.balanceView.get? host.store key = some raw →
        raw.length = Amount.width) ∧
      host.holders = .ok [("alice", five), ("carol", seven)] ∧
      host.query (.typed (.balance "carol")) = .ok (.balance seven) ∧
      host.query (.typed (.balance "bob")) = .ok (.balance .zero) ∧
      (∀ key, Ledger.balanceView.get? bare key = Ledger.balanceView.get? host.store key) ∧
      { host with store := bare }.holders = host.holders ∧
      Ledger.Named short.store ∧
      short.holders = .error (.violation (.wrongWidth ⟨3⟩)) := by
  intro five seven path balances others store host bare short
  have hpath := Ledger.balanceView_path_ne_nil
  have hrange : Ledger.balanceView.range host.store =
      [("alice", five), ("carol", seven)].map Ledger.record := by
    decide +kernel
  have hnamed : Ledger.Named host.store := by
    rw [Ledger.named_iff, hrange]
    simp [Ledger.record]
  have hwidth : ∀ key raw, Ledger.balanceView.get? host.store key = some raw →
      raw.length = Amount.width := by
    intro key raw hraw
    rw [← View.mem_range hpath, hrange] at hraw
    exact Ledger.length_of_mem_record hraw
  have hholders : host.holders = .ok [("alice", five), ("carol", seven)] := by
    rw [holders, Ledger.holders, hrange, Ledger.mapM_holder]
  obtain ⟨list, hlist, -, hanswers⟩ := (holders_agree host).1 hnamed hwidth
  obtain rfl := Except.ok.inj (hholders.symm.trans hlist)
  have hcarol := hanswers (.typed (.balance "carol")) "carol" "carol" rfl (by decide)
  have hbob := hanswers (.typed (.balance "bob")) "bob" "bob" rfl (by decide)
  have hbare : ∀ key,
      Ledger.balanceView.get? bare key = Ledger.balanceView.get? host.store key := by
    have hsame : Ledger.balanceView.range bare = Ledger.balanceView.range host.store := by
      decide +kernel
    intro key
    apply Option.ext
    intro raw
    rw [← View.mem_range hpath, ← View.mem_range hpath, hsame]
  have hothers := ((holders_agree host).2.2 bare hbare).1
  have hshort : Ledger.balanceView.range short.store =
      [(utf8 "alice", five.toBytes), (utf8 "bob", [1, 2, 3]), (utf8 "carol", seven.toBytes)] := by
    decide +kernel
  have hnamed' : Ledger.Named short.store := by
    rw [Ledger.named_iff, hshort]
    simp
  have hbad : Ledger.balanceView.get? short.store (utf8 "bob") = some [1, 2, 3] :=
    (View.mem_range hpath).1 (by simp [hshort])
  obtain ⟨key, raw, hraw, hne, -, herror⟩ :=
    (holders_agree short).2.1 hnamed' ⟨_, _, hbad, by decide⟩
  obtain rfl : raw = [1, 2, 3] := by
    rw [← View.mem_range hpath, hshort] at hraw
    simp only [List.mem_cons, List.not_mem_nil, Prod.mk.injEq, or_false] at hraw
    rcases hraw with ⟨-, hfive⟩ | ⟨-, hbytes⟩ | ⟨-, hseven⟩
    · rw [hfive, Amount.length_toBytes] at hne
      exact absurd rfl hne
    · exact hbytes
    · rw [hseven, Amount.length_toBytes] at hne
      exact absurd rfl hne
  exact ⟨hnamed, hwidth, hholders, hcarol, hbob, hbare, hothers, hnamed', herror⟩

end Host

end FungibleLedger
