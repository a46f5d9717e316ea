import Mathlib.Data.List.Induction
import FungibleLedger.Files

/-!
# Ways through a tree of files

A path leads through folders, and only folders matter to where it leads. So whatever happens to the
files of a tree, a path leads to the same names as before while no folder on its way is lost
(`Files.Keeps.place`). The way to a path also shows that the folders above it are there: making them
once more changes nothing (`Files.makeFolders_parent`).

* `Files.entry?_put`, `Files.entry?_remove` : one change of a tree.
* `Files.Keeps` : no folder is lost.
* `Files.grows_makeFolders` : making folders makes nothing else.
* `Files.read_of_write` : what was written at a path is read there.
-/

namespace FungibleLedger.Files

variable {f g h : Files} {names other : List String}

/-! ## One change -/

theorem lookup_filter_ne (entries : List (List String × Entry)) (names other : List String) :
    (entries.filter (·.1 ≠ names)).lookup other =
      if other = names then none else entries.lookup other := by
  induction entries with
  | nil => simp
  | cons head rest ih =>
    obtain ⟨key, entry⟩ := head
    rw [List.filter_cons]
    by_cases hkey : key = names
    · subst hkey
      by_cases hother : other = key
      · simpa [hother] using ih
      · simpa [hother, List.lookup_cons, beq_false_of_ne hother] using ih
    · by_cases hother : other = key
      · subst hother
        simp [hkey]
      · simpa [hkey, List.lookup_cons, beq_false_of_ne hother] using ih

theorem entry?_put (hnames : names ≠ []) (f : Files) (entry : Entry) (other : List String) :
    Files.entry? (f.put names entry) other =
      if other = names then some entry else f.entry? other := by
  cases other with
  | nil => rw [if_neg (Ne.symm hnames), entry?, entry?]
  | cons name rest =>
    unfold entry? put
    dsimp only
    rw [List.lookup_cons]
    by_cases heq : name :: rest = names
    · rw [if_pos heq, heq, beq_self_eq_true]
    · rw [if_neg heq, beq_false_of_ne heq]
      exact (lookup_filter_ne _ _ _).trans (if_neg heq)

theorem entry?_remove (hnames : names ≠ []) (f : Files) (other : List String) :
    Files.entry? (f.remove names) other = if other = names then none else f.entry? other := by
  cases other with
  | nil => rw [if_neg (Ne.symm hnames), entry?, entry?]
  | cons name rest =>
    unfold entry? remove
    exact lookup_filter_ne _ _ _

/-! ## Folders -/

theorem ne_nil_of_not_folder (hfolder : f.entry? names ≠ some .folder) : names ≠ [] := by
  rintro rfl
  exact hfolder rfl

theorem ne_nil_of_none (hnone : f.entry? names = none) : names ≠ [] :=
  ne_nil_of_not_folder (by rw [hnone]; exact nofun)

/-- A tree has all folders of another one, and works in the same. -/
structure Keeps (f g : Files) : Prop where
  here : g.here = f.here
  folder : ∀ names, f.entry? names = some .folder → g.entry? names = some .folder

namespace Keeps

theorem refl (f : Files) : Keeps f f := ⟨rfl, fun _ => id⟩

theorem trans (hg : Keeps f g) (hh : Keeps g h) : Keeps f h :=
  ⟨hh.here.trans hg.here, fun names hnames => hh.folder names (hg.folder names hnames)⟩

theorem put (hfolder : f.entry? names ≠ some .folder) (entry : Entry) :
    Keeps f (f.put names entry) := by
  refine ⟨rfl, fun other hother => ?_⟩
  have hne : other ≠ names := by
    rintro rfl
    exact hfolder hother
  rw [entry?_put (ne_nil_of_not_folder hfolder), if_neg hne, hother]

theorem remove (hfolder : f.entry? names ≠ some .folder) : Keeps f (f.remove names) := by
  refine ⟨rfl, fun other hother => ?_⟩
  have hne : other ≠ names := by
    rintro rfl
    exact hfolder hother
  rw [entry?_remove (ne_nil_of_not_folder hfolder), if_neg hne, hother]

theorem base (hg : Keeps f g) (p : Path) : g.base p = f.base p := by
  rw [Files.base, Files.base, hg.here]

theorem walk (hg : Keeps f g) {folder : List String} {place : List String}
    (hwalk : f.walk folder names = .ok place) : g.walk folder names = .ok place := by
  induction names generalizing folder with
  | nil => exact hwalk
  | cons name rest ih =>
    rw [Files.walk] at hwalk ⊢
    cases hentry : f.entry? folder with
    | none =>
      rw [hentry] at hwalk
      cases hwalk
    | some entry =>
      rw [hentry] at hwalk
      cases entry with
      | folder =>
        rw [hg.folder folder hentry]
        dsimp only at hwalk ⊢
        split at hwalk
        · cases hwalk
        · next hname =>
          rw [if_neg hname]
          exact ih hwalk
      | file bytes => cases hwalk
      | database db => cases hwalk

theorem place (hg : Keeps f g) {p : Path} (hplace : f.place p = .ok names) :
    g.place p = .ok names := by
  rw [Files.place] at hplace ⊢
  split at hplace
  · cases hplace
  · next hnull =>
    rw [if_neg hnull]
    split at hplace
    · cases hplace
    · next hlength =>
      rw [if_neg hlength, hg.base]
      exact hg.walk hplace

end Keeps

/-! ## The way to a path -/

theorem walk_concat {folder place : List String} {name : String}
    (hwalk : f.walk folder (names ++ [name]) = .ok place) :
    ∃ above, f.walk folder names = .ok above ∧ f.entry? above = some .folder := by
  induction names generalizing folder with
  | nil =>
    refine ⟨folder, rfl, ?_⟩
    rw [List.nil_append, walk] at hwalk
    split at hwalk
    · cases hwalk
    · assumption
    · cases hwalk
  | cons head rest ih =>
    rw [List.cons_append, walk] at hwalk
    rw [walk]
    split at hwalk
    · cases hwalk
    · split at hwalk
      · cases hwalk
      · next hname =>
        rw [if_neg hname]
        exact ih hwalk
    · cases hwalk

theorem length_utf8_append (s t : String) :
    (utf8 (s ++ t)).length = (utf8 s).length + (utf8 t).length := by
  simp [utf8]

theorem length_utf8_intercalate_concat (names : List String) (name : String) :
    (utf8 ("/".intercalate names)).length ≤ (utf8 ("/".intercalate (names ++ [name]))).length := by
  induction names with
  | nil => exact Nat.zero_le _
  | cons head rest ih =>
    cases rest with
    | nil =>
      rw [List.singleton_append, String.intercalate_cons_cons, String.intercalate_singleton,
        String.intercalate_singleton, String.append_assoc, length_utf8_append]
      omega
    | cons next rest =>
      rw [List.cons_append] at ih ⊢
      rw [List.cons_append, String.intercalate_cons_cons, String.intercalate_cons_cons,
        length_utf8_append, length_utf8_append (head ++ "/")]
      omega

/-- The text of the path above a path is no longer than the text of the path, or a dot. -/
theorem length_parent_le (p : Path) :
    (utf8 p.parent.toString).length ≤ max 1 (utf8 p.toString).length := by
  obtain ⟨slashes, names⟩ := p
  have hdot : (utf8 ".").length = 1 := by decide
  cases names using List.reverseRecOn with
  | nil => exact Nat.le_max_right _ _
  | append_singleton names name =>
    have hparent : Path.parent ⟨slashes, names ++ [name]⟩ = ⟨slashes, names⟩ := by
      rw [Path.parent, List.dropLast_concat]
    have htext : Path.toString ⟨slashes, names ++ [name]⟩ =
        String.ofList (List.replicate slashes '/') ++ "/".intercalate (names ++ [name]) := by
      rw [Path.toString, if_neg (by simp)]
    rw [hparent, htext, Path.toString]
    split
    · omega
    · have hle := length_utf8_intercalate_concat names name
      rw [length_utf8_append, length_utf8_append]
      dsimp only
      omega

/-- Above a path that leads anywhere are folders. -/
theorem find_parent {p : Path} (hnames : p.names ≠ []) (hplace : f.place p = .ok names) :
    f.find p.parent = .ok .folder := by
  rw [place] at hplace
  split at hplace
  · cases hplace
  · next hnull =>
    split at hplace
    · cases hplace
    · next hlength =>
      have hsplit := List.dropLast_concat_getLast hnames
      have hbase : f.base p.parent = f.base p := rfl
      rw [← hsplit] at hplace
      obtain ⟨above, hwalk, hfolder⟩ := walk_concat hplace
      have hnull' : ¬ p.parent.hasNull = true := by
        intro h
        apply hnull
        rw [Path.hasNull, List.any_eq_true] at h ⊢
        obtain ⟨name, hname, hzero⟩ := h
        exact ⟨name, List.dropLast_subset _ hname, hzero⟩
      have hlength' : ¬ (utf8 p.parent.toString).length > pathLimit := by
        have hle := length_parent_le p
        have hlimit : pathLimit = 4095 := rfl
        omega
      have habove : f.place p.parent = .ok above := by
        rw [place, if_neg hnull', if_neg hlength', hbase]
        exact hwalk
      rw [find, habove]
      dsimp only
      rw [hfolder]

theorem place_of_find {p : Path} {entry : Entry} (hfind : f.find p = .ok entry) :
    ∃ names, f.place p = .ok names ∧ f.entry? names = some entry := by
  rw [find] at hfind
  split at hfind
  · cases hfind
  · next names hplace =>
    split at hfind
    · cases hfind
    · next hentry =>
      cases hfind
      exact ⟨names, hplace, hentry⟩

theorem makeFolders_of_find {p : Path} (hfind : f.find p = .ok .folder) :
    f.makeFolders p = (.ok (), f) := by
  obtain ⟨slashes, names⟩ := p
  cases names using List.reverseRecOn with
  | nil => rfl
  | append_singleton names name =>
    obtain ⟨place, hplace, hfolder⟩ := place_of_find hfind
    have habove := find_parent (by simp) hplace
    rw [makeFolders, List.reverse_append, List.reverse_singleton, List.singleton_append,
      makeFoldersUp]
    simp only [List.reverse_cons, List.reverse_reverse]
    rw [habove]
    dsimp only
    rw [makeFolder, hplace]
    dsimp only
    rw [hfolder]

/-- Where a path leads anywhere, the folders above it need not be made. -/
theorem makeFolders_parent {p : Path} (hplace : f.place p = .ok names) :
    f.makeFolders p.parent = (.ok (), f) := by
  by_cases hnames : p.names = []
  · obtain ⟨slashes, _⟩ := p
    cases hnames
    rfl
  · exact makeFolders_of_find (find_parent hnames hplace)

/-! ## New folders -/

/-- Nothing is new in a tree but folders where nothing stood. -/
def Grows (f g : Files) : Prop :=
  ∀ names, g.entry? names = f.entry? names ∨
    f.entry? names = none ∧ g.entry? names = some .folder

theorem Grows.refl (f : Files) : Grows f f := fun _ => .inl rfl

theorem Grows.trans (hg : Grows f g) (hh : Grows g h) : Grows f h := by
  intro names
  rcases hg names with hsame | ⟨hnone, hfolder⟩
  · rw [← hsame]
    exact hh names
  · rcases hh names with hsame' | ⟨hnone', -⟩
    · exact .inr ⟨hnone, hsame'.trans hfolder⟩
    · rw [hfolder] at hnone'
      cases hnone'

theorem grows_makeFolder (f : Files) (p : Path) : Grows f (f.makeFolder p).2 := by
  rw [makeFolder]
  split
  · exact Grows.refl f
  · next names hplace =>
    split
    · exact Grows.refl f
    · exact Grows.refl f
    · next hnone =>
      intro other
      rw [entry?_put (ne_nil_of_none hnone)]
      by_cases hother : other = names
      · rw [if_pos hother, hother]
        exact .inr ⟨hnone, rfl⟩
      · exact .inl (if_neg hother)

theorem grows_makeFoldersUp (f : Files) (slashes : ℕ) (names : List String) :
    Grows f (f.makeFoldersUp slashes names).2 := by
  induction names generalizing f with
  | nil => exact Grows.refl f
  | cons name above ih =>
    rw [makeFoldersUp]
    split
    · exact grows_makeFolder f _
    · have habove := ih f
      split
      · next heq =>
        rw [heq] at habove
        exact habove.trans (grows_makeFolder _ _)
      · exact habove

theorem grows_makeFolders (f : Files) (p : Path) : Grows f (f.makeFolders p).2 :=
  grows_makeFoldersUp f _ _

/-! ## Written files -/

/-- A file can be written wherever a path leads but to a folder. -/
theorem write_of_place {p : Path} {bytes : Bytes} (hplace : f.place p = .ok names)
    (hfolder : f.entry? names ≠ some .folder) :
    f.write p bytes = .ok (f.put names (.file bytes)) := by
  rw [write, hplace]
  dsimp only
  split
  · next hentry => exact absurd hentry hfolder
  · rfl

/-- A file that was written does not stand in the way to its own path. -/
theorem read_of_write {p : Path} {bytes : Bytes} (hwrite : f.write p bytes = .ok g) :
    g.read p = .ok bytes := by
  rw [write] at hwrite
  cases hplace : f.place p with
  | error fault =>
    rw [hplace] at hwrite
    cases hwrite
  | ok names =>
    rw [hplace] at hwrite
    dsimp only at hwrite
    split at hwrite
    · cases hwrite
    · next hfolder =>
      cases hwrite
      have hnames := ne_nil_of_not_folder hfolder
      rw [read, find, (Keeps.put hfolder (.file bytes)).place hplace]
      dsimp only
      rw [entry?_put hnames, if_pos rfl]
      rfl

end FungibleLedger.Files
