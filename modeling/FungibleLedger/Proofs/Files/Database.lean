import FungibleLedger.Files.Database
import FungibleLedger.Proofs.Files.Trees

/-!
# A database keeps its rows

A database that was opened once, at a path where there was none, can be opened there again and
again: it is found under the same names, with the rows that were last put into it. What the way
there takes are folders, and nothing that a database does to its tree loses one; its companions are
files, and are only ever cleared away.

* `Files.rowsAt` : the rows of the database at a path.
* `Files.Stores` : a database file with given rows stands at the end of a path, ready to be opened.
* `Files.Opens` : opening a path gives a database with given rows, which then stands there.
* `Files.Stores.opens`, `Files.Stores.putDatabase`, `Files.Admits.opens` : a database that stands
  somewhere is opened and written to, and one is made where there was none.
-/

namespace FungibleLedger.Files

variable {f g h : Files} {names other : List String}

/-! ## Companions -/

theorem withEnding_ne_nil (ending : String) (names : List String) :
    withEnding ending names ≠ [] := by
  simp [withEnding]

theorem withEnding_injective {ending ending' : String}
    (h : withEnding ending names = withEnding ending' names) : ending = ending' := by
  have hlast := List.append_inj_right' h rfl
  simp only [List.cons.injEq, and_true] at hlast
  have hcs := congrArg String.toList hlast
  rw [String.toList_append, String.toList_append] at hcs
  exact String.toList_inj.1 (List.append_cancel_left hcs)

theorem withEnding_empty (hnames : names ≠ []) : withEnding "" names = names := by
  rw [withEnding, String.append_empty, List.getLastD_eq_getLast?,
    List.getLast?_eq_some_getLast hnames]
  exact List.dropLast_concat_getLast hnames

theorem withEnding_ne {ending : String} (hnames : names ≠ []) (hending : ending ≠ "") :
    withEnding ending names ≠ names :=
  fun h => hending (withEnding_injective (h.trans (withEnding_empty hnames).symm))

theorem hasFolder_eq_false : f.hasFolder names = false ↔ f.entry? names ≠ some .folder := by
  rw [hasFolder]
  split
  · next h => simp [h]
  · next h => simpa using h

theorem hasFolder_put_withEnding {ending : String} (hnames : names ≠ []) (hending : ending ≠ "")
    (hfolder : f.hasFolder (withEnding ending names) = false) (entry : Entry) :
    (f.put names entry).hasFolder (withEnding ending names) = false := by
  rw [hasFolder_eq_false] at hfolder ⊢
  rwa [entry?_put hnames, if_neg (withEnding_ne hnames hending)]

/-- Nothing was done to a tree but that companions of a database, which are no folders, were cleared
away. -/
structure Clears (names : List String) (f g : Files) : Prop where
  here : g.here = f.here
  entry : ∀ other, g.entry? other = f.entry? other ∨
    f.hasFolder other = false ∧ g.entry? other = none ∧ (other = journal names ∨ other = log names)

namespace Clears

theorem refl (names : List String) (f : Files) : Clears names f f := ⟨rfl, fun _ => .inl rfl⟩

theorem remove (hother : other = journal names ∨ other = log names)
    (hfolder : f.hasFolder other = false) : Clears names f (f.remove other) := by
  have hne : other ≠ [] := by
    rcases hother with rfl | rfl <;> exact withEnding_ne_nil _ _
  refine ⟨rfl, fun other' => ?_⟩
  rw [entry?_remove hne]
  by_cases heq : other' = other
  · rw [if_pos heq, heq]
    exact .inr ⟨hfolder, rfl, hother⟩
  · exact .inl (if_neg heq)

theorem keeps (hg : Clears names f g) : Keeps f g := by
  refine ⟨hg.here, fun other hother => ?_⟩
  rcases hg.entry other with hsame | ⟨hfolder, -⟩
  · rw [hsame, hother]
  · exact absurd hother (hasFolder_eq_false.1 hfolder)

theorem hasFolder (hg : Clears names f g) (hother : f.hasFolder other = false) :
    g.hasFolder other = false := by
  rw [hasFolder_eq_false] at hother ⊢
  rcases hg.entry other with hsame | ⟨-, hnone, -⟩
  · rwa [hsame]
  · rw [hnone]
    exact nofun

theorem entry?_self (hg : Clears names f g) (hnames : names ≠ []) :
    g.entry? names = f.entry? names := by
  rcases hg.entry names with hsame | ⟨-, -, hcompanion⟩
  · exact hsame
  · rcases hcompanion with heq | heq
    · exact absurd heq.symm (withEnding_ne hnames (by decide))
    · exact absurd heq.symm (withEnding_ne hnames (by decide))

theorem trans (hg : Clears names f g) (hh : Clears names g h) : Clears names f h := by
  refine ⟨hh.here.trans hg.here, fun other => ?_⟩
  rcases hh.entry other with hsame | ⟨hfolder, hnone, hcompanion⟩
  · rw [hsame]
    exact hg.entry other
  · rcases hg.entry other with hsame' | ⟨hfolder', -⟩
    · rw [hasFolder_eq_false, hsame', ← hasFolder_eq_false] at hfolder
      exact .inr ⟨hfolder, hnone, hcompanion⟩
    · exact .inr ⟨hfolder', hnone, hcompanion⟩

end Clears

theorem hasFolder_of_firstByte? {b : UInt8} (hbyte : f.firstByte? names = some b) :
    f.hasFolder names = false := by
  rw [hasFolder_eq_false]
  intro hfolder
  rw [firstByte?, hfolder] at hbyte
  cases hbyte

theorem clears_dropLog (f : Files) (names : List String) : Clears names f (f.dropLog names) := by
  rw [dropLog]
  split
  · next hbyte =>
    obtain ⟨b, hb⟩ := Option.isSome_iff_exists.1 hbyte
    exact Clears.remove (.inr rfl) (hasFolder_of_firstByte? hb)
  · exact Clears.refl names f

theorem clears_dropJournal (f : Files) (names : List String) :
    Clears names f (f.dropJournal names) := by
  rw [dropJournal]
  split
  · next b hb =>
    split
    · exact Clears.refl names f
    · exact Clears.remove (.inl rfl) (hasFolder_of_firstByte? hb)
  · exact Clears.refl names f

/-! ## A database at a path -/

/-- A database file with given rows stands at the end of a path, ready to be opened. -/
structure Stores (f : Files) (p : Path) (names : List String) (rows : Table) : Prop where
  kept : p ≠ transient
  place : f.place p = .ok names
  room : hasRoom [] (f.base p ++ p.names) = true
  database : ∃ db : DatabaseFile, f.entry? names = some (.database db) ∧ db.rows = rows
  no_journal : f.hasFolder (journal names) = false
  no_log : f.hasFolder (log names) = false

/-- The rows of the database at a path; there are none if no file keeps it. -/
def rowsAt (f : Files) (p : Path) : Table :=
  match f.find p with
  | .ok (.database db) => db.rows
  | _ => .empty

/-- Opening a path gives a database with given rows, which stands there from then on. -/
structure Opens (f : Files) (p : Path) (names : List String) (rows : Table) : Prop where
  rowsAt_eq : f.rowsAt p = rows
  opened : ∃ db g, f.openDatabase p = (.ok (.kept names db), g) ∧ db.rows = rows ∧
    g.Stores p names rows

namespace Stores

variable {p : Path} {rows : Table}

theorem ne_nil (hf : f.Stores p names rows) : names ≠ [] := by
  obtain ⟨db, hentry, -⟩ := hf.database
  exact ne_nil_of_not_folder (by rw [hentry]; exact nofun)

theorem rowsAt_eq (hf : f.Stores p names rows) : f.rowsAt p = rows := by
  obtain ⟨db, hentry, hrows⟩ := hf.database
  rw [rowsAt, find, hf.place]
  dsimp only
  rw [hentry, ← hrows]

theorem clear (hf : f.Stores p names rows) (hg : Clears names f g) : g.Stores p names rows where
  kept := hf.kept
  place := hg.keeps.place hf.place
  room := by rw [hg.keeps.base, hf.room]
  database := by rw [hg.entry?_self hf.ne_nil]; exact hf.database
  no_journal := hg.hasFolder hf.no_journal
  no_log := hg.hasFolder hf.no_log

/-- The rows of a database can be replaced. -/
theorem putDatabase (hf : f.Stores p names rows) {db : DatabaseFile} (hdb : db.rows = rows)
    (rows' : Table) : (f.putDatabase names db rows').Stores p names rows' := by
  rw [Files.putDatabase]
  split
  · next hsame =>
    have hrows : rows' = rows := by
      rw [hdb] at hsame
      cases rows
      cases rows'
      cases hsame
      rfl
    rw [hrows]
    exact hf
  · next hother =>
    have hclear := hf.clear (Clears.remove (.inl rfl) hf.no_journal)
    obtain ⟨old, hold, -⟩ := hclear.database
    have hkeeps : Keeps (f.remove (journal names)) ((f.remove (journal names)).put names
        (.database (db.update rows'))) := Keeps.put (by rw [hold]; exact nofun) _
    have hentry := entry?_put hf.ne_nil (f.remove (journal names)) (.database (db.update rows'))
    have hupdate : (db.update rows').rows = rows' := by
      rw [DatabaseFile.update, if_neg hother]
    exact ⟨hf.kept, hkeeps.place hclear.place, by rw [hkeeps.base, hclear.room],
      ⟨db.update rows', by rw [hentry, if_pos rfl], hupdate⟩,
      hasFolder_put_withEnding hf.ne_nil (by decide) hclear.no_journal _,
      hasFolder_put_withEnding hf.ne_nil (by decide) hclear.no_log _⟩

/-- The database at a path is found there with its rows. -/
theorem opens (hf : f.Stores p names rows) : f.Opens p names rows := by
  obtain ⟨db, hentry, hrows⟩ := hf.database
  have hjournal := clears_dropJournal f names
  have hlog := clears_dropLog (f.dropJournal names) names
  refine ⟨hf.rowsAt_eq, db, (f.dropJournal names).dropLog names, ?_, hrows,
    hf.clear (hjournal.trans hlog)⟩
  have hsettle : f.settle names = .ok (f.dropJournal names) := by
    rw [settle, hf.no_journal]
    dsimp only
    rw [hjournal.hasFolder hf.no_log]
    rfl
  have hsetUp : f.setUpDatabase names = (.ok db, (f.dropJournal names).dropLog names) := by
    rw [setUpDatabase, hentry]
    dsimp only
    rw [hsettle]
  rw [openDatabase, makeFolders_parent hf.place]
  dsimp only
  rw [if_neg hf.kept, hf.place]
  dsimp only
  rw [if_pos hf.room, hsetUp]
  rfl

end Stores

/-! ## A new database -/

/-- Whether a database can be made at a path where there is none. -/
def Admits (f : Files) (p : Path) : Prop :=
  ∃ names db g, f.openDatabase p = (.ok (.kept names db), g) ∧ f.entry? names = none

/-- A database that was set up where nothing stood is empty. -/
theorem setUpDatabase_of_none {db : DatabaseFile} (hnone : f.entry? names = none)
    (hsetUp : f.setUpDatabase names = (.ok db, g)) :
    db = .fresh ∧ Keeps f g ∧ g.entry? names = some (.database .fresh) ∧
      g.hasFolder (journal names) = false ∧ g.hasFolder (log names) = false := by
  have hnames := ne_nil_of_none hnone
  rw [setUpDatabase, hnone] at hsetUp
  dsimp only [Option.getD_none] at hsetUp
  -- the new file is empty, and then the companions are looked after
  generalize hfile : f.put names (.file []) = file at hsetUp
  have hkeeps : Keeps f file := by
    rw [← hfile]
    exact Keeps.put (by rw [hnone]; exact nofun) _
  have hentry : file.entry? names = some (.file []) := by
    rw [← hfile, entry?_put hnames, if_pos rfl]
  rw [setUpEmpty] at hsetUp
  split at hsetUp
  · cases hsetUp
  · next hnolog =>
    have hclears := clears_dropLog file names
    dsimp only at hsetUp
    split at hsetUp
    · cases hsetUp
    · next hroom =>
      have hnojournal : (file.dropLog names).hasFolder (journal names) = false := by
        simp only [Bool.or_eq_true, not_or, Bool.not_eq_true] at hroom
        exact hroom.2
      have hclears' := hclears.trans (Clears.remove (.inl rfl) hnojournal)
      have hstands := (hclears'.entry?_self hnames).trans hentry
      cases hsetUp
      have hput := entry?_put hnames ((file.dropLog names).remove (journal names))
        (.database .fresh)
      refine ⟨rfl, ?_, by rw [hput, if_pos rfl], ?_, ?_⟩
      · exact (hkeeps.trans hclears'.keeps).trans (Keeps.put (by rw [hstands]; exact nofun) _)
      · have hgone := (Clears.remove (.inl rfl) hnojournal).hasFolder hnojournal
        exact hasFolder_put_withEnding hnames (by decide) hgone _
      · have hgone := hclears'.hasFolder (by simpa using hnolog)
        exact hasFolder_put_withEnding hnames (by decide) hgone _

/-- What has gone well when a database was opened that a file keeps. -/
theorem parts_of_openDatabase {p : Path} {db : DatabaseFile}
    (hopen : f.openDatabase p = (.ok (.kept names db), g)) :
    ∃ made, f.makeFolders p.parent = (.ok (), made) ∧ p ≠ transient ∧ made.place p = .ok names ∧
      hasRoom [] (made.base p ++ p.names) = true ∧ made.setUpDatabase names = (.ok db, g) := by
  rw [openDatabase] at hopen
  split at hopen
  · cases hopen
  · next made hmade =>
    split at hopen
    · cases hopen
    · next hkept =>
      split at hopen
      · cases hopen
      · cases hopen
      · next place hplace =>
        split at hopen
        · next hroom =>
          dsimp only at hopen
          cases hsetUp : made.setUpDatabase place with
          | mk result after =>
            rw [hsetUp] at hopen
            cases result with
            | error fault => cases hopen
            | ok db' =>
              cases hopen
              exact ⟨made, hmade, hkept, hplace, hroom, hsetUp⟩
        · cases hopen

/-- Where a database can still be made, there are no rows. -/
theorem rowsAt_of_new {p : Path} {db : DatabaseFile}
    (hopen : f.openDatabase p = (.ok (.kept names db), g)) (hnone : f.entry? names = none) :
    f.rowsAt p = .empty := by
  obtain ⟨made, hmade, -, hplace, -⟩ := parts_of_openDatabase hopen
  rw [rowsAt, find]
  cases hplace' : f.place p with
  | error e => rfl
  | ok place =>
    -- then all folders on the way are there, and none is made
    rw [makeFolders_parent hplace'] at hmade
    cases hmade
    rw [hplace'] at hplace
    cases hplace
    dsimp only
    rw [hnone]

/-- A database that was opened where nothing stood is there from then on, without rows. -/
theorem stores_of_new {p : Path} {db : DatabaseFile}
    (hopen : f.openDatabase p = (.ok (.kept names db), g)) (hnone : f.entry? names = none) :
    db.rows = .empty ∧ g.Stores p names .empty := by
  obtain ⟨made, hmade, hkept, hplace, hroom, hsetUp⟩ := parts_of_openDatabase hopen
  have hgrows := grows_makeFolders f p.parent
  rw [hmade] at hgrows
  rcases hgrows names with hsame | ⟨-, hfolder⟩
  · obtain ⟨hfresh, hkeeps, hentry, hjournal, hlog⟩ :=
      setUpDatabase_of_none (hsame.trans hnone) hsetUp
    rw [hfresh]
    exact ⟨rfl, hkept, hkeeps.place hplace, by rw [hkeeps.base, hroom], ⟨.fresh, hentry, rfl⟩,
      hjournal, hlog⟩
  · -- a folder that was made on the way is no database
    rw [setUpDatabase, hfolder] at hsetUp
    cases hsetUp

theorem Admits.opens {p : Path} (hf : f.Admits p) : ∃ names, f.Opens p names .empty := by
  obtain ⟨names, db, g, hopen, hnone⟩ := hf
  obtain ⟨hrows, hstores⟩ := stores_of_new hopen hnone
  exact ⟨names, rowsAt_of_new hopen hnone, db, g, hopen, hrows, hstores⟩

end FungibleLedger.Files
