import FungibleLedger.Proofs.Storage.Contents
import FungibleLedger.Proofs.Storage.Namespaces

/-!
# Namespaces keep apart

Nested namespaces are written one behind the other, each behind its length. Two such paths with keys
behind them can only be the same bytes if one list of names continues the other
(`Namespace.prefix_of_frames_eq`): the lengths say where each name ends, whatever bytes the names
hold. So a write through a view shows in no view whose names neither continue its names nor are
continued by them: `View.isolation`.

* `Namespace.Fits` : every name is short enough for its length.
* `Namespace.encodeAll_of_fits`, `Namespace.encodeAll_of_not_fits` : the two outcomes of nesting.
* `View.write`, `View.writeAll` : setting and removing through a view, once and several times.
-/

namespace FungibleLedger

namespace Namespace

/-- Whether two bytes hold the length of every name. -/
def Fits (names : List Bytes) : Prop :=
  ∀ name ∈ names, name.length ≤ limit

instance (names : List Bytes) : Decidable (Fits names) := by
  unfold Fits
  infer_instance

theorem fits_cons {name : Bytes} {rest : List Bytes} :
    Fits (name :: rest) ↔ name.length ≤ limit ∧ Fits rest :=
  List.forall_mem_cons

theorem not_fits {names : List Bytes} : ¬ Fits names ↔ ∃ name ∈ names, limit < name.length := by
  simp [Fits]

/-! ## Nesting -/

theorem encodeAll_of_fits {names : List Bytes} (h : Fits names) :
    encodeAll names = .ok (names.flatMap frame) := by
  induction names with
  | nil => rfl
  | cons name rest ih =>
    obtain ⟨hname, hrest⟩ := fits_cons.1 h
    rw [encodeAll, encode_of_le hname, List.flatMap_cons]
    dsimp only
    rw [ih hrest]
    rfl

theorem encodeAll_of_not_fits {names : List Bytes} (h : ¬ Fits names) :
    encodeAll names = .error .tooLong := by
  induction names with
  | nil => exact absurd nofun h
  | cons name rest ih =>
    rw [encodeAll]
    by_cases hname : name.length ≤ limit
    · have hrest : ¬ Fits rest := fun hrest => h (fits_cons.2 ⟨hname, hrest⟩)
      rw [encode_of_le hname]
      dsimp only
      rw [ih hrest]
      rfl
    · rw [encode_of_lt (Nat.lt_of_not_le hname)]

theorem encodeAll_eq_ok_iff {names : List Bytes} {path : Bytes} :
    encodeAll names = .ok path ↔ Fits names ∧ path = names.flatMap frame := by
  by_cases h : Fits names
  · rw [encodeAll_of_fits h, Except.ok.injEq]
    exact ⟨fun heq => ⟨h, heq.symm⟩, fun heq => heq.2.symm⟩
  · rw [encodeAll_of_not_fits h]
    exact ⟨nofun, fun hfits => absurd hfits.1 h⟩

theorem encodeAll_eq_error_iff {names : List Bytes} {fault : Fault} :
    encodeAll names = .error fault ↔ fault = .tooLong ∧ ∃ name ∈ names, limit < name.length := by
  rw [← not_fits]
  by_cases h : Fits names
  · rw [encodeAll_of_fits h]
    exact ⟨nofun, fun hlong => absurd h hlong.2⟩
  · rw [encodeAll_of_not_fits h, Except.error.injEq]
    exact ⟨fun heq => ⟨heq.symm, h⟩, fun heq => heq.1.symm⟩

theorem encode_eq_error_iff {name : Bytes} {fault : Fault} :
    encode name = .error fault ↔ fault = .tooLong ∧ limit < name.length := by
  by_cases h : name.length ≤ limit
  · rw [encode_of_le h]
    exact ⟨nofun, fun hlong => absurd h (Nat.not_le.2 hlong.2)⟩
  · rw [encode_of_lt (Nat.lt_of_not_le h), Except.error.injEq]
    exact ⟨fun heq => ⟨heq.symm, Nat.lt_of_not_le h⟩, fun heq => heq.1.symm⟩

/-! ## Reading names off a path -/

section

variable {a b : List Bytes} {x y : Bytes}

theorem prefix_of_frames_eq (ha : Fits a) (hb : Fits b)
    (h : a.flatMap frame ++ x = b.flatMap frame ++ y) : a <+: b ∨ b <+: a := by
  induction a generalizing b with
  | nil => exact .inl List.nil_prefix
  | cons name rest ih =>
    cases b with
    | nil => exact .inr List.nil_prefix
    | cons name' rest' =>
      obtain ⟨hname, hrest⟩ := fits_cons.1 ha
      obtain ⟨hname', hrest'⟩ := fits_cons.1 hb
      rw [List.flatMap_cons, List.flatMap_cons, List.append_assoc, List.append_assoc] at h
      obtain ⟨rfl, hbehind⟩ := frame_append_inj hname hname' h
      rw [List.prefix_cons_inj, List.prefix_cons_inj]
      exact ih hrest hrest' hbehind

theorem eq_of_frames_eq (ha : Fits a) (hb : Fits b) (hlength : a.length = b.length)
    (h : a.flatMap frame ++ x = b.flatMap frame ++ y) : a = b ∧ x = y := by
  have heq : a = b := by
    rcases prefix_of_frames_eq ha hb h with hstart | hstart
    · exact hstart.eq_of_length hlength
    · exact (hstart.eq_of_length hlength.symm).symm
  subst heq
  exact ⟨rfl, List.append_cancel_left h⟩

theorem eq_nil_of_frames_eq_nil (h : a.flatMap frame = []) : a = [] := by
  cases a with
  | nil => rfl
  | cons name rest =>
    rw [List.flatMap_cons] at h
    exact absurd (List.append_eq_nil_iff.1 h).1 (frame_ne_nil name)

theorem frames_injective (ha : Fits a) (hb : Fits b) (h : a.flatMap frame = b.flatMap frame) :
    a = b := by
  have hkeys : a.flatMap frame ++ [] = b.flatMap frame ++ [] := by rw [h]
  rcases prefix_of_frames_eq ha hb hkeys with ⟨more, rfl⟩ | ⟨more, rfl⟩
  · rw [List.flatMap_append, List.self_eq_append_right] at h
    rw [eq_nil_of_frames_eq_nil h, List.append_nil]
  · rw [List.flatMap_append, List.append_right_eq_self] at h
    rw [eq_nil_of_frames_eq_nil h, List.append_nil]

end

end Namespace

/-! ## Views -/

namespace View

/-- A store after one write through a view: the key set, or removed if there is no value for it. -/
def write (v : View) (s : Store) (key : Bytes) : Option Bytes → Store
  | some value => v.set s key value
  | none => v.remove s key

/-- A store after some writes through a view, in order. -/
def writeAll (v : View) (s : Store) (writes : List Mutation) : Store :=
  writes.foldl (fun s (key, value) => v.write s key value) s

variable {a b : List Bytes} {v w : View}

theorem write_eq (v : View) (s : Store) (key : Bytes) (value : Option Bytes) :
    v.write s key value = s.write (v.path ++ key) value := by
  cases value <;> rfl

theorem encodeAll_of_view (h : View.of a = .ok v) : Namespace.encodeAll a = .ok v.path := by
  cases a with
  | nil => cases h
  | cons name rest =>
    change (Namespace.encodeAll (name :: rest)).map View.mk = .ok v at h
    cases hall : Namespace.encodeAll (name :: rest) with
    | error fault =>
      rw [hall] at h
      cases h
    | ok path =>
      rw [hall] at h
      cases h
      rfl

/-- No key of one view is a key of the other. -/
theorem keys_apart (hv : View.of a = .ok v) (hw : View.of b = .ok w) (hab : ¬ a <+: b)
    (hba : ¬ b <+: a) (x y : Bytes) : v.path ++ x ≠ w.path ++ y := by
  obtain ⟨ha, hv⟩ := Namespace.encodeAll_eq_ok_iff.1 (encodeAll_of_view hv)
  obtain ⟨hb, hw⟩ := Namespace.encodeAll_eq_ok_iff.1 (encodeAll_of_view hw)
  rw [hv, hw]
  intro h
  exact (Namespace.prefix_of_frames_eq ha hb h).elim hab hba

section

variable (happart : ∀ x y, v.path ++ x ≠ w.path ++ y)
include happart

theorem get?_write_of_apart (s : Store) (key : Bytes) (value : Option Bytes) (k : Bytes) :
    w.get? (v.write s key value) k = w.get? s k := by
  rw [write_eq, get?, Store.get?_write, if_neg (happart key k).symm, get?]

theorem scan_write_of_apart (hpath : w.path ≠ []) (s : Store) (key : Bytes)
    (value : Option Bytes) : (v.write s key value).scan w.path = s.scan w.path := by
  rw [write_eq]
  refine KeyMap.eq_of_find_eq (Store.scan_ascending _ _) (Store.scan_ascending _ _) fun k => ?_
  rw [Store.find_scan _ (.inl hpath), Store.find_scan _ (.inl hpath)]
  by_cases hk : KeyMap.startsWith w.path k = true
  · -- the key that is written does not begin with the path of the other view
    obtain ⟨rest, rfl⟩ := List.isPrefixOf_iff_prefix.1 hk
    rw [if_pos hk, if_pos hk, Store.get?_write, if_neg (happart key rest).symm]
  · rw [if_neg hk, if_neg hk]

theorem reads_writeAll_of_apart (hpath : w.path ≠ []) (s : Store) (writes : List Mutation) :
    (∀ key, w.get? (v.writeAll s writes) key = w.get? s key) ∧
      w.range (v.writeAll s writes) = w.range s := by
  induction writes generalizing s with
  | nil => exact ⟨fun _ => rfl, rfl⟩
  | cons head rest ih =>
    obtain ⟨key, value⟩ := head
    obtain ⟨hget, hrange⟩ := ih (v.write s key value)
    refine ⟨fun k => (hget k).trans (get?_write_of_apart happart s key value k), hrange.trans ?_⟩
    rw [range, scan_write_of_apart happart hpath, range]

end

/-- Nested namespaces have a path unless one of them is too long, and the path determines them, also
in front of keys: only if one list of names continues the other can their keys meet, and lists of
one length meet only in the same key of the same list. So a view reads all the same after any writes
through a view of other names, and it lists exactly the records below its path, in key order. -/
theorem isolation (a b : List Bytes) :
    (∀ name fault, Namespace.encode name = .error fault ↔
      fault = .tooLong ∧ Namespace.limit < name.length) ∧
    (∀ fault, Namespace.encodeAll a = .error fault ↔
      fault = .tooLong ∧ ∃ name ∈ a, Namespace.limit < name.length) ∧
    (∀ p q, Namespace.encodeAll a = .ok p → Namespace.encodeAll b = .ok q →
      (∀ x y, p ++ x = q ++ y →
        (a <+: b ∨ b <+: a) ∧ (a.length = b.length → a = b ∧ x = y)) ∧
      (p = q → a = b)) ∧
    (∀ v w, View.of a = .ok v → View.of b = .ok w → ∀ s : Store,
      (¬ a <+: b → ¬ b <+: a → ∀ writes : List Mutation,
        (∀ key, w.get? (v.writeAll s writes) key = w.get? s key) ∧
          w.range (v.writeAll s writes) = w.range s) ∧
      ((w.range s).Pairwise fun x y => x.1 < y.1) ∧
      ∀ key value, (key, value) ∈ w.range s ↔ s.get? (w.path ++ key) = some value) := by
  refine ⟨fun _ _ => Namespace.encode_eq_error_iff, fun _ => Namespace.encodeAll_eq_error_iff,
    fun p q hp hq => ?_, fun v w hv hw s => ?_⟩
  · obtain ⟨ha, rfl⟩ := Namespace.encodeAll_eq_ok_iff.1 hp
    obtain ⟨hb, rfl⟩ := Namespace.encodeAll_eq_ok_iff.1 hq
    refine ⟨fun x y h => ⟨Namespace.prefix_of_frames_eq ha hb h, fun hlength => ?_⟩,
      Namespace.frames_injective ha hb⟩
    exact Namespace.eq_of_frames_eq ha hb hlength h
  · have hpath := path_ne_nil hw
    refine ⟨fun hab hba => ?_, range_ascending s hpath, fun key value => mem_range hpath⟩
    exact reads_writeAll_of_apart (keys_apart hv hw hab hba) hpath s

/-- A name that looks like two nested ones, with a length inside. The view under it and the view
under the two names have no key in common, while a key of the view under the first name alone can
be one of the nested view. -/
theorem isolation_imitating :
    let outer : List Bytes := [[97]]
    let nested : List Bytes := [[97], [98]]
    let imitation : List Bytes := [[97, 0, 1, 98]]
    let v : View := ⟨imitation.flatMap Namespace.frame⟩
    let w : View := ⟨nested.flatMap Namespace.frame⟩
    let s := ((Store.memory .empty).set (w.path ++ [99]) [1]).buffer.set v.path [2]
    let writes : List Mutation := [([99], some [3]), ([], none)]
    (Namespace.encodeAll outer = .ok [0, 1, 97] ∧ Namespace.encodeAll nested = .ok w.path ∧
      [0, 1, 97] ++ [0, 1, 98, 99] = w.path ++ [99] ∧ (outer <+: nested ∨ nested <+: outer)) ∧
    View.of imitation = .ok v ∧ View.of nested = .ok w ∧ ¬ imitation <+: nested ∧
      ¬ nested <+: imitation ∧ v.range (v.writeAll s writes) = [([99], [3])] ∧
      w.range s = [([99], [1])] ∧ w.range (v.writeAll s writes) = [([99], [1])] := by
  intro outer nested imitation v w s writes
  have hkeys : [0, 1, 97] ++ [0, 1, 98, 99] = w.path ++ [99] := by decide
  have hmeet := ((isolation outer nested).2.2.1 [0, 1, 97] w.path rfl rfl).1 _ _ hkeys
  have hvw : ¬ imitation <+: nested := by decide
  have hwv : ¬ nested <+: imitation := by decide
  have hreads := ((isolation imitation nested).2.2.2 v w rfl rfl s).1 hvw hwv writes
  have hrange : w.range s = [([99], [1])] := by decide
  exact ⟨⟨rfl, rfl, hkeys, hmeet.1⟩, rfl, rfl, hvw, hwv, by decide, hrange, hreads.2.trans hrange⟩

end View

end FungibleLedger
