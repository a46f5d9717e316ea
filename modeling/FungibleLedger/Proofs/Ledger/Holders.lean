import FungibleLedger.Ledger.Query
import FungibleLedger.Proofs.Ledger.Conservation
import FungibleLedger.Proofs.Ledger.Records

/-!
# The holders of a token

The list of holders reads the records of a store as a token reads them. In a store without stray
keys it succeeds and names every account with a record once, with its balance: `Ledger.holders_eq`.
So its sum is the total of the token: `Token.total_eq_sum_holders`.

* `Ledger.Tidy`, `Ledger.Named` : a store without stray keys, and one without stray balances.
* `Ledger.records_or_split` : what is read of balance records, up to the first that is corrupt.
* `Ledger.listable_iff` : the records of a store that has a list of holders.
-/

namespace FungibleLedger

namespace Ledger

variable {s : Store}

/-- Whether a key is one that a ledger writes to. -/
def IsKey (key : Bytes) : Prop :=
  key = metadataPlace ∨ ∃ slot : Slot, slot.Fits ∧ key = slot.key

/-- Whether a store has no other keys than those that a ledger writes to. -/
def Tidy (s : Store) : Prop :=
  ∀ key raw, s.get? key = some raw → IsKey key

theorem Tidy.applyBatch (hs : Tidy s) {mutations : List Mutation}
    (h : ∀ mutation ∈ mutations, IsKey mutation.1) : Tidy (s.applyBatch mutations) :=
  Store.forall_applyBatch hs fun _ _ hmem => h _ hmem

/-! ## Balance records -/

theorem balanceView_path_ne_nil : balanceView.path ≠ [] :=
  Namespace.frame_ne_nil _

/-- Every balance record of a store is kept under the name of an account. -/
def Named (s : Store) : Prop :=
  ∀ key raw, balanceView.get? s key = some raw → ∃ account, key = utf8 account

theorem named_iff :
    Named s ↔ ∀ entry ∈ balanceView.range s, ∃ account, entry.1 = utf8 account := by
  constructor
  · exact fun hs entry hentry => hs _ _ ((View.mem_range balanceView_path_ne_nil).1 hentry)
  · exact fun h key raw hraw => h _ ((View.mem_range balanceView_path_ne_nil).2 hraw)

/-- A tidy store has balance records of accounts only. -/
theorem Tidy.named (hs : Tidy s) : Named s := by
  intro key raw h
  have hbalances : (utf8 "balances").length ≤ Namespace.limit := by decide
  have hconfig : (utf8 "config").length ≤ Namespace.limit := by decide
  rcases hs _ _ h with hmetadata | ⟨slot, hslot, hkey⟩
  · have hspace := (Namespace.frame_append_inj hbalances hconfig hmetadata).1
    exact absurd hspace (by decide)
  · obtain ⟨rest, hrest⟩ := slot.exists_key_eq
    rw [hrest] at hkey
    have hspace := utf8_injective (Namespace.frame_append_inj hbalances slot.length_space hkey).1
    cases slot with
    | balance account =>
      rw [← hrest] at hkey
      exact ⟨account, List.append_cancel_left hkey⟩
    | allowance owner spender => exact absurd hspace (by simp [Slot.space])
    | supply => exact absurd hspace (by simp [Slot.space])

/-- Every balance record of a store has an account's name for a key and the width of an amount. -/
structure Listable (s : Store) : Prop where
  named : Named s
  width : ∀ key raw, balanceView.get? s key = some raw → raw.length = Amount.width

theorem listable_of_tidy (hs : Readable s) (htidy : Tidy s) : Listable s where
  named := htidy.named
  width := by
    intro key raw hraw
    obtain ⟨account, rfl⟩ := htidy.named key raw hraw
    exact hs (.balance account) (Slot.fits_balance account) raw hraw

/-- The balance record of a holder. -/
def record (holder : String × Amount) : Bytes × Bytes :=
  (utf8 holder.1, holder.2.toBytes)

theorem record_injective {a b : String × Amount} (h : record a = record b) : a = b := by
  obtain ⟨haccount, hamount⟩ := Prod.mk.inj h
  have hread := congrArg Amount.decode hamount
  rw [Amount.decode_toBytes, Amount.decode_toBytes] at hread
  exact Prod.ext (utf8_injective haccount) (Except.ok.inj hread)

theorem length_of_mem_record {list : List (String × Amount)} {key raw : Bytes}
    (h : (key, raw) ∈ list.map record) : raw.length = Amount.width := by
  obtain ⟨holder, -, heq⟩ := List.mem_map.1 h
  rw [record, Prod.mk.injEq] at heq
  rw [← heq.2, Amount.length_toBytes]

theorem holder_record (h : String × Amount) : holder (record h) = .ok h := by
  unfold holder record
  rw [Utf8.decode_utf8, decodeAmount_toBytes]
  rfl

theorem holder_of_length {account : String} {raw : Bytes} (h : raw.length ≠ Amount.width) :
    holder (utf8 account, raw) = .error (.violation (.wrongWidth ⟨raw.length⟩)) := by
  unfold holder decodeAmount
  rw [Utf8.decode_utf8, Amount.decode, dif_neg h]
  rfl

/-- What can be listed is listed before the rest. -/
theorem mapM_holder_append (holders : List (String × Amount)) (rest : List (Bytes × Bytes)) :
    (holders.map record ++ rest).mapM holder = (rest.mapM holder).map (holders ++ ·) := by
  induction holders with
  | nil =>
    show rest.mapM holder = _
    cases rest.mapM holder <;> rfl
  | cons h holders ih =>
    rw [List.map_cons, List.cons_append, List.mapM_cons, holder_record, ih]
    cases rest.mapM holder <;> rfl

theorem mapM_holder (holders : List (String × Amount)) :
    (holders.map record).mapM holder = .ok holders := by
  have h := mapM_holder_append holders []
  rw [List.append_nil] at h
  rw [h, List.mapM_nil]
  exact congrArg Except.ok holders.append_nil

/-- Records of accounts are the records of holders, or there is a first one whose amount has the
wrong width. -/
theorem records_or_split {entries : List (Bytes × Bytes)}
    (h : ∀ entry ∈ entries, ∃ account, entry.1 = utf8 account) :
    (∃ holders : List (String × Amount), entries = holders.map record) ∨
      ∃ (holders : List (String × Amount)) (account : String) (raw : Bytes)
        (later : List (Bytes × Bytes)),
        entries = holders.map record ++ (utf8 account, raw) :: later ∧
          raw.length ≠ Amount.width := by
  induction entries with
  | nil => exact .inl ⟨[], rfl⟩
  | cons entry rest ih =>
    obtain ⟨account, haccount⟩ := h entry List.mem_cons_self
    obtain ⟨key, raw⟩ := entry
    obtain rfl : key = utf8 account := haccount
    by_cases hwidth : raw.length = Amount.width
    · have hread := Amount.decode_of_length hwidth
      generalize (⟨raw.toNat, _⟩ : Amount) = amount at hread
      obtain rfl := Amount.toBytes_of_decode hread
      rcases ih fun e he => h e (List.mem_cons_of_mem _ he) with
        ⟨holders, rfl⟩ | ⟨holders, other, raw, later, rfl, hraw⟩
      · exact .inl ⟨(account, amount) :: holders, rfl⟩
      · exact .inr ⟨(account, amount) :: holders, other, raw, later, rfl, hraw⟩
    · exact .inr ⟨[], account, raw, rest, rfl, hwidth⟩

theorem get?_eq_toBytes_iff (hs : Readable s) {account : String} {amount : Amount} :
    balanceView.get? s (utf8 account) = some amount.toBytes ↔
      s.amount? (.balance account) = some amount := by
  have hkey : balanceView.get? s (utf8 account) =
      (s.amount? (.balance account)).map Amount.toBytes :=
    hs.get?_key (Slot.fits_balance account)
  rw [hkey]
  constructor
  · intro h
    obtain ⟨other, hother, hbytes⟩ := Option.map_eq_some_iff.1 h
    have hrecord : record (account, other) = record (account, amount) :=
      Prod.ext rfl hbytes
    rw [hother, (Prod.mk.inj (record_injective hrecord)).2]
  · intro h
    rw [h]
    rfl

theorem exists_range_of_width (hs : Named s)
    (hwidth : ∀ key raw, balanceView.get? s key = some raw → raw.length = Amount.width) :
    ∃ list : List (String × Amount), balanceView.range s = list.map record := by
  rcases records_or_split (named_iff.1 hs) with hrange | ⟨list, account, raw, later, hrange, hraw⟩
  · exact hrange
  · have hmem : (utf8 account, raw) ∈ balanceView.range s := by simp [hrange]
    exact absurd (hwidth _ _ ((View.mem_range balanceView_path_ne_nil).1 hmem)) hraw

/-! ## The list -/

theorem mem_iff_get?_of_range_eq {list : List (String × Amount)}
    (hrange : balanceView.range s = list.map record) (account : String) (amount : Amount) :
    (account, amount) ∈ list ↔ balanceView.get? s (utf8 account) = some amount.toBytes := by
  rw [← View.mem_range balanceView_path_ne_nil, hrange]
  constructor
  · exact fun h => List.mem_map_of_mem (f := record) h
  · intro h
    obtain ⟨other, hother, heq⟩ := List.mem_map.1 h
    exact record_injective (b := (account, amount)) heq ▸ hother

theorem mem_of_range_eq (hs : Readable s) {list : List (String × Amount)}
    (hrange : balanceView.range s = list.map record) (account : String) (amount : Amount) :
    (account, amount) ∈ list ↔ s.amount? (.balance account) = some amount :=
  (mem_iff_get?_of_range_eq hrange account amount).trans (get?_eq_toBytes_iff hs)

/-- A balance is what the list says, or zero for an account that it does not name. -/
theorem balanceAt_of_range_eq {list : List (String × Amount)}
    (hrange : balanceView.range s = list.map record) (account : String) :
    balanceAt s account = .ok ((list.lookup account).getD .zero) := by
  cases hlookup : list.lookup account with
  | none =>
    have hnone : balanceView.get? s (utf8 account) = none := by
      rw [Option.eq_none_iff_forall_ne_some]
      intro raw hraw
      have hmem := (View.mem_range balanceView_path_ne_nil).2 hraw
      rw [hrange] at hmem
      obtain ⟨other, hother, heq⟩ := List.mem_map.1 hmem
      have haccount : other.1 = account := utf8_injective (congrArg Prod.fst heq)
      have hne := List.lookup_eq_none_iff.1 hlookup other hother
      exact absurd haccount.symm (by simpa using hne)
    rw [balanceAt, amountAt, hnone]
    rfl
  | some amount =>
    obtain ⟨before, after, rfl, -⟩ := List.lookup_eq_some_iff.1 hlookup
    have hmem : (account, amount) ∈ before ++ (account, amount) :: after := by simp
    rw [balanceAt, amountAt, (mem_iff_get?_of_range_eq hrange account amount).1 hmem]
    exact decodeAmount_toBytes amount

theorem nodup_of_range_eq {list : List (String × Amount)}
    (hrange : balanceView.range s = list.map record) : (list.map Prod.fst).Nodup := by
  have hascending := View.range_ascending s balanceView_path_ne_nil
  rw [hrange] at hascending
  have hkeys := KeyMap.distinct_of_ascending hascending
  rw [List.map_map] at hkeys
  apply List.Nodup.of_map utf8
  rwa [List.map_map]

/-! ## Listing -/

theorem eq_record_of_holder {entry : Bytes × Bytes} {h : String × Amount}
    (hread : holder entry = .ok h) : entry = record h := by
  obtain ⟨key, raw⟩ := entry
  rw [holder] at hread
  cases hkey : Utf8.decode key with
  | error fault =>
    rw [hkey] at hread
    cases hread
  | ok account =>
    rw [hkey, decodeAmount] at hread
    cases hraw : Amount.decode raw with
    | error e =>
      rw [hraw] at hread
      cases hread
    | ok amount =>
      rw [hraw] at hread
      cases hread
      exact Prod.ext (Utf8.decode_eq_ok_iff.1 hkey) (Amount.toBytes_of_decode hraw).symm

theorem eq_map_of_mapM_holder {entries : List (Bytes × Bytes)} {list : List (String × Amount)}
    (hread : entries.mapM holder = .ok list) : entries = list.map record := by
  induction entries generalizing list with
  | nil =>
    cases hread
    rfl
  | cons entry rest ih =>
    rw [List.mapM_cons] at hread
    cases hentry : holder entry with
    | error e =>
      rw [hentry] at hread
      cases hread
    | ok h =>
      cases hrest : rest.mapM holder with
      | error e =>
        rw [hentry, hrest] at hread
        cases hread
      | ok others =>
        rw [hentry, hrest] at hread
        cases hread
        rw [List.map_cons, ← eq_record_of_holder hentry, ← ih hrest]

theorem holders_eq_ok_iff {list : List (String × Amount)} :
    holders s = .ok list ↔ balanceView.range s = list.map record := by
  constructor
  · exact eq_map_of_mapM_holder
  · intro hrange
    rw [holders, hrange, mapM_holder]

/-- The holders of a store can be listed exactly if all of its balance records can be read. -/
theorem listable_iff : Listable s ↔ ∃ list, holders s = .ok list := by
  constructor
  · rintro ⟨hnamed, hwidth⟩
    obtain ⟨list, hrange⟩ := exists_range_of_width hnamed hwidth
    exact ⟨list, holders_eq_ok_iff.2 hrange⟩
  · rintro ⟨list, hlist⟩
    have hrange := holders_eq_ok_iff.1 hlist
    refine ⟨named_iff.2 ?_, fun key raw hraw => ?_⟩
    · rw [hrange]
      intro entry hentry
      obtain ⟨h, -, rfl⟩ := List.mem_map.1 hentry
      exact ⟨h.1, rfl⟩
    · rw [← View.mem_range balanceView_path_ne_nil, hrange] at hraw
      exact length_of_mem_record hraw

theorem holders_eq (hs : Readable s) (htidy : Tidy s) :
    ∃ list, holders s = .ok list ∧ balanceView.range s = list.map record := by
  obtain ⟨list, hlist⟩ := listable_iff.1 (listable_of_tidy hs htidy)
  exact ⟨list, hlist, holders_eq_ok_iff.1 hlist⟩

end Ledger

namespace Token

/-- A store has room for finitely many records. -/
theorem finite_ofStore (s : Store) : (ofStore s).Finite := by
  have hkeys : {key | ∃ raw, (key, raw) ∈ Ledger.balanceView.range s}.Finite := by
    refine ((Ledger.balanceView.range s).map Prod.fst).finite_toSet.subset ?_
    rintro key ⟨raw, hraw⟩
    exact List.mem_map.2 ⟨_, hraw, rfl⟩
  refine (hkeys.preimage utf8_injective.injOn).subset fun account haccount => ?_
  have hsome : s.amount? (.balance account) ≠ none := by
    intro hnone
    apply haccount
    rw [balanceOf_ofStore, hnone, Option.getD_none]
  rw [Store.amount?, if_pos (Slot.fits_balance account)] at hsome
  cases hraw : s.get? (Slot.balance account).key with
  | none =>
    rw [hraw] at hsome
    exact absurd rfl hsome
  | some raw => exact ⟨raw, (View.mem_range Ledger.balanceView_path_ne_nil).2 hraw⟩

/-- The holders' amounts add up to the total. -/
theorem total_eq_sum_holders {s : Store} (hs : Ledger.Readable s) {list : List (String × Amount)}
    (hrange : Ledger.balanceView.range s = list.map Ledger.record) :
    (ofStore s).total = (list.map fun holder => holder.2.val).sum := by
  have hmem := Ledger.mem_of_range_eq hs hrange
  have hnodup := Ledger.nodup_of_range_eq hrange
  have hcover : ∀ account, (ofStore s).balanceOf account ≠ .zero →
      account ∈ (list.map Prod.fst).toFinset := by
    intro account hne
    rw [balanceOf_ofStore] at hne
    rw [List.mem_toFinset, List.mem_map]
    cases hamount : s.amount? (.balance account) with
    | none =>
      rw [hamount] at hne
      exact absurd rfl hne
    | some amount => exact ⟨_, (hmem account amount).2 hamount, rfl⟩
  rw [total_eq_sum hcover, List.sum_toFinset _ hnodup, List.map_map]
  congr 1
  apply List.map_congr_left
  rintro ⟨account, amount⟩ hholder
  rw [Function.comp_apply, balanceOf_ofStore, (hmem account amount).1 hholder, Option.getD_some]

end Token

end FungibleLedger
