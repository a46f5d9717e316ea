import FungibleLedger.Bytes

/-!
# Maps keyed by bytes

A map from byte strings, kept as a list of entries with strictly ascending keys. Keys are compared
byte by byte, a key before its extensions, so equal maps have equal lists.

* `KeyMap.get?`, `KeyMap.insert`, `KeyMap.erase` : looking up, setting and removing a key.
* `KeyMap.startsWith` : whether a key begins with given bytes.
* `KeyMap.ext_get?` : maps that answer every look-up alike are equal.
-/

namespace FungibleLedger

/-! ## The order of keys -/

namespace Bytes

theorem lt_irrefl (a : Bytes) : ¬ a < a := List.lt_irrefl a

theorem lt_trans {a b c : Bytes} (hab : a < b) (hbc : b < c) : a < c := List.lt_trans hab hbc

theorem ne_of_lt {a b : Bytes} (h : a < b) : a ≠ b := by
  rintro rfl
  exact lt_irrefl a h

theorem eq_of_not_lt {a b : Bytes} (hab : ¬ a < b) (hba : ¬ b < a) : a = b :=
  List.le_antisymm hba hab

theorem lt_of_not_lt_of_ne {a b : Bytes} (hab : ¬ a < b) (hne : a ≠ b) : b < a :=
  Decidable.byContradiction fun hba => hne (eq_of_not_lt hab hba)

end Bytes

/-- Entries with strictly ascending keys. -/
structure KeyMap (α : Type) where
  entries : List (Bytes × α)
  ascending : entries.Pairwise fun a b => a.1 < b.1

namespace KeyMap

variable {α : Type}

/-! ## Lists of entries -/

/-- The value of a key in a list of entries. -/
def find (key : Bytes) : List (Bytes × α) → Option α
  | [] => none
  | (k, v) :: rest => if k = key then some v else find key rest

/-- A list of entries with one key set, in its place by the order of keys. -/
def place (key : Bytes) (value : α) : List (Bytes × α) → List (Bytes × α)
  | [] => [(key, value)]
  | (k, v) :: rest =>
    if key < k then (key, value) :: (k, v) :: rest
    else if k = key then (key, value) :: rest
    else (k, v) :: place key value rest

theorem mem_place {key : Bytes} {value : α} {entry : Bytes × α} {entries : List (Bytes × α)}
    (h : entry ∈ place key value entries) : entry = (key, value) ∨ entry ∈ entries := by
  induction entries with
  | nil => simpa [place] using h
  | cons head rest ih =>
    obtain ⟨k, v⟩ := head
    rw [place] at h
    grind

theorem place_ascending (key : Bytes) (value : α) {entries : List (Bytes × α)}
    (h : entries.Pairwise fun a b => a.1 < b.1) :
    (place key value entries).Pairwise fun a b => a.1 < b.1 := by
  induction entries with
  | nil => simp [place]
  | cons head rest ih =>
    obtain ⟨k, v⟩ := head
    obtain ⟨hhead, hrest⟩ := List.pairwise_cons.1 h
    rw [place]
    split
    · next hlt =>
      refine List.pairwise_cons.2 ⟨fun entry hentry => ?_, h⟩
      rcases List.mem_cons.1 hentry with rfl | hentry
      · exact hlt
      · exact Bytes.lt_trans hlt (hhead entry hentry)
    · next hlt =>
      split
      · next heq =>
        subst heq
        exact List.pairwise_cons.2 ⟨hhead, hrest⟩
      · next hne =>
        refine List.pairwise_cons.2 ⟨fun entry hentry => ?_, ih hrest⟩
        rcases mem_place hentry with rfl | hentry
        · exact Bytes.lt_of_not_lt_of_ne hlt (Ne.symm hne)
        · exact hhead entry hentry

theorem find_place (key : Bytes) (value : α) (entries : List (Bytes × α)) (k : Bytes) :
    find k (place key value entries) = if k = key then some value else find k entries := by
  induction entries with
  | nil => simp [place, find, eq_comm]
  | cons head rest ih =>
    obtain ⟨k', v'⟩ := head
    rw [place]
    grind [find]

theorem find_eq_none {key : Bytes} {entries : List (Bytes × α)}
    (h : ∀ entry ∈ entries, key < entry.1) : find key entries = none := by
  induction entries with
  | nil => rfl
  | cons head rest ih =>
    obtain ⟨k, v⟩ := head
    have hk : k ≠ key := (Bytes.ne_of_lt (h (k, v) (by simp))).symm
    rw [find, if_neg hk]
    exact ih fun entry hentry => h entry (List.mem_cons_of_mem _ hentry)

theorem find_filter (key : Bytes) (entries : List (Bytes × α)) (k : Bytes) :
    find k (entries.filter (·.1 ≠ key)) = if k = key then none else find k entries := by
  induction entries with
  | nil => simp [find]
  | cons head rest ih =>
    obtain ⟨k', v'⟩ := head
    rw [List.filter_cons]
    grind [find]

theorem eq_of_find_eq {as bs : List (Bytes × α)} (ha : as.Pairwise fun a b => a.1 < b.1)
    (hb : bs.Pairwise fun a b => a.1 < b.1) (h : ∀ key, find key as = find key bs) : as = bs := by
  induction as generalizing bs with
  | nil => cases bs with
    | nil => rfl
    | cons b bs => simpa [find] using h b.1
  | cons a as ih => cases bs with
    | nil => simpa [find] using h a.1
    | cons b bs =>
      obtain ⟨ka, va⟩ := a
      obtain ⟨kb, vb⟩ := b
      obtain ⟨hhead, hrest⟩ := List.pairwise_cons.1 ha
      obtain ⟨hhead', hrest'⟩ := List.pairwise_cons.1 hb
      have hkey : ka = kb := by
        refine Bytes.eq_of_not_lt (fun hlt => ?_) (fun hlt => ?_)
        · have hnone : find ka ((kb, vb) :: bs) = none := find_eq_none fun entry hentry => by
            rcases List.mem_cons.1 hentry with rfl | hentry
            · exact hlt
            · exact Bytes.lt_trans hlt (hhead' entry hentry)
          have := h ka
          rw [hnone] at this
          simp [find] at this
        · have hnone : find kb ((ka, va) :: as) = none := find_eq_none fun entry hentry => by
            rcases List.mem_cons.1 hentry with rfl | hentry
            · exact hlt
            · exact Bytes.lt_trans hlt (hhead entry hentry)
          have := h kb
          rw [hnone] at this
          simp [find] at this
      subst hkey
      have hval : va = vb := by simpa [find] using h ka
      subst hval
      refine congrArg _ (ih hrest hrest' fun key => ?_)
      by_cases hk : ka = key
      · subst hk
        rw [find_eq_none hhead, find_eq_none hhead']
      · simpa [find, hk] using h key

/-! ## Maps -/

/-- The map without entries. -/
def empty : KeyMap α := ⟨[], .nil⟩

/-- The value of a key. -/
def get? (m : KeyMap α) (key : Bytes) : Option α :=
  find key m.entries

/-- A map with one key set. -/
def insert (m : KeyMap α) (key : Bytes) (value : α) : KeyMap α :=
  ⟨place key value m.entries, place_ascending key value m.ascending⟩

/-- A map without one key. -/
def erase (m : KeyMap α) (key : Bytes) : KeyMap α :=
  ⟨m.entries.filter (·.1 ≠ key), m.ascending.filter _⟩

/-- How many keys a map has. -/
def size (m : KeyMap α) : Nat := m.entries.length

/-- Whether a key begins with given bytes. -/
def startsWith (start key : Bytes) : Bool := start.isPrefixOf key

@[simp] theorem get?_empty (key : Bytes) : (empty : KeyMap α).get? key = none := rfl

theorem get?_insert (m : KeyMap α) (key : Bytes) (value : α) (k : Bytes) :
    (m.insert key value).get? k = if k = key then some value else m.get? k :=
  find_place key value m.entries k

theorem get?_erase (m : KeyMap α) (key k : Bytes) :
    (m.erase key).get? k = if k = key then none else m.get? k :=
  find_filter key m.entries k

theorem ext_get? {m n : KeyMap α} (h : ∀ key, m.get? key = n.get? key) : m = n := by
  obtain ⟨as, ha⟩ := m
  obtain ⟨bs, hb⟩ := n
  obtain rfl := eq_of_find_eq ha hb h
  rfl

end KeyMap

end FungibleLedger
