import Mathlib.Data.List.Induction
import FungibleLedger.Config
import FungibleLedger.Proofs.Schema

/-!
# Assignments to a configuration

A value is checked twice when it is assigned: by its field before it is stored, and by the bounds
of the whole configuration afterwards. What a run of assignments stores thus depends on the first
check only (`Config.after_eq`). The promises of the fields hold after every run; the order of the
bounds does not, for a value that upsets it stays (`Config.assignments`).

* `Config.Sound`, `Config.Ordered` : what the fields promise, and what the bounds promise.
* `Config.Sets` : the values that a field takes, and the configuration with each of them.
* `Config.after`, `Config.afterAll` : the configuration after one or several assignments.
* `Config.Upsets` : a value that its field takes and the bounds do not.
-/

namespace FungibleLedger

open Schema

theorem LogLevel.name_mem (level : LogLevel) :
    level.name ∈ ["DEBUG", "INFO", "WARNING", "ERROR", "CRITICAL"] := by
  cases level <;> decide

theorem LogLevel.ofName?_eq_some_iff {s : String} {level : LogLevel} :
    ofName? s = some level ↔ s = level.name := by
  constructor
  · intro h
    unfold ofName? at h
    split at h <;> cases h <;> rfl
  · rintro rfl
    cases level <;> rfl

theorem AddressFormat.name_mem (format : AddressFormat) : format.name ∈ ["key", "simple"] := by
  cases format <;> decide

theorem AddressFormat.ofName?_eq_some_iff {s : String} {format : AddressFormat} :
    ofName? s = some format ↔ s = format.name := by
  constructor
  · intro h
    unfold ofName? at h
    split at h <;> cases h <;> rfl
  · rintro rfl
    cases format <;> rfl

namespace Config

/-- What a configuration shows for a field. -/
def shown (c : Config) (name : String) : Option Json :=
  match c.toJson with
  | .obj members => Json.Members.get? members name
  | _ => none

/-- What the fields of a configuration promise, each on its own. -/
structure Sound (c : Config) : Prop where
  nameLeast : 1 ≤ c.bounds.nameLeast
  symbolLeast : 1 ≤ c.bounds.symbolLeast
  logLevel : ∃ level ∈ ["DEBUG", "INFO", "WARNING", "ERROR", "CRITICAL"],
    c.shown "log_level" = some (.str level)
  addressFormat : ∃ format ∈ ["key", "simple"], c.shown "address_format" = some (.str format)

/-- No least length is above its greatest one. -/
structure Ordered (c : Config) : Prop where
  name : c.bounds.nameLeast ≤ c.bounds.nameGreatest
  symbol : c.bounds.symbolLeast ≤ c.bounds.symbolGreatest

variable {c d : Config} {name : String} {value : Json}

theorem ordered_iff : c.Ordered ↔
    c.bounds.nameLeast ≤ c.bounds.nameGreatest ∧ c.bounds.symbolLeast ≤ c.bounds.symbolGreatest :=
  ⟨fun h => ⟨h.name, h.symbol⟩, fun h => ⟨h.1, h.2⟩⟩

instance : Decidable c.Ordered := decidable_of_iff' _ ordered_iff

theorem Sound.of_least (hname : 1 ≤ c.bounds.nameLeast) (hsymbol : 1 ≤ c.bounds.symbolLeast) :
    c.Sound :=
  ⟨hname, hsymbol, ⟨_, c.logLevel.name_mem, rfl⟩, ⟨_, c.addressFormat.name_mem, rfl⟩⟩

/-! ## The checks -/

theorem checkPath_eq_ok_iff {p : Path} :
    checkPath value = .ok p ↔ ∃ s, value = .str s ∧ .ofString s = p := by
  cases value <;> simp [checkPath, fail]

theorem checkOptionalPath_eq_ok_iff {p : Option Path} :
    checkOptionalPath value = .ok p ↔
      (value = .null ∧ p = none) ∨ ∃ s, value = .str s ∧ p = some (.ofString s) := by
  cases value <;> simp [checkOptionalPath, checkPath, fail, Except.map, eq_comm]

/-- A least length is a whole number from one on. -/
theorem checkLeast_eq_ok_iff {n : Int} :
    checkLeast value = .ok n ↔ whole value = .ok n ∧ 1 ≤ n := by
  rw [checkLeast, bind_eq_ok_iff]
  constructor
  · rintro ⟨m, hm, h⟩
    split at h
    · cases h
    · cases h
      exact ⟨hm, by omega⟩
  · rintro ⟨hn, hleast⟩
    exact ⟨n, hn, if_neg (by omega)⟩

/-- A log level is a text that is the name of the level once it is in capitals. -/
theorem checkLevel_eq_ok_iff {level : LogLevel} :
    checkLevel value = .ok level ↔ ∃ s, value = .str s ∧ Text.upper s = level.name := by
  cases value with
  | str s =>
    simp only [checkLevel, text, Except.bind, Json.str.injEq, exists_eq_left']
    rw [← LogLevel.ofName?_eq_some_iff]
    cases LogLevel.ofName? (Text.upper s) <;> simp [fail]
  | _ => simp [checkLevel, text, fail, Except.bind]

/-- An address format is its own name. -/
theorem checkFormat_eq_ok_iff {format : AddressFormat} :
    checkFormat value = .ok format ↔ value = .str format.name := by
  cases value with
  | str s =>
    rw [Json.str.injEq, ← AddressFormat.ofName?_eq_some_iff, checkFormat]
    cases AddressFormat.ofName? s <;> simp [fail]
  | _ => simp [checkFormat, fail]

theorem checkBounds_eq_ok_iff : checkBounds c = .ok () ↔ c.Ordered := by
  rw [ordered_iff, checkBounds]
  split_ifs with hname hsymbol
  · exact ⟨nofun, fun h => by omega⟩
  · exact ⟨nofun, fun h => by omega⟩
  · exact ⟨fun _ => by omega, fun _ => rfl⟩

/-- The check of the bounds has one flaw to report at most, and it concerns the whole. -/
theorem exists_of_not_ordered (h : ¬ c.Ordered) :
    ∃ text, checkBounds c = .error [⟨[], .rule text⟩] := by
  rw [ordered_iff] at h
  rw [checkBounds]
  split_ifs with hname hsymbol
  · exact ⟨_, rfl⟩
  · exact ⟨_, rfl⟩
  · omega

/-! ## What a field can be set to -/

/-- A field takes a value, and the configuration has it then. A log level may be in any case, and an
address format may not. -/
inductive Sets (c : Config) : String → Json → Config → Prop
  | dbPath (s : String) : Sets c "db_path" (.str s) { c with dbPath := .ofString s }
  | noGenesisFile : Sets c "genesis_file" .null { c with genesisFile := none }
  | genesisFile (s : String) :
      Sets c "genesis_file" (.str s) { c with genesisFile := some (.ofString s) }
  | walletPath (s : String) : Sets c "wallet_path" (.str s) { c with walletPath := .ofString s }
  | addressFormat (format : AddressFormat) :
      Sets c "address_format" (.str format.name) { c with addressFormat := format }
  | nameLeast {value : Json} {n : Int} (hvalue : whole value = .ok n) (hn : 1 ≤ n) :
      Sets c "name_min_length" value { c with bounds := { c.bounds with nameLeast := n } }
  | nameGreatest {value : Json} {n : Int} (hvalue : whole value = .ok n) :
      Sets c "name_max_length" value { c with bounds := { c.bounds with nameGreatest := n } }
  | symbolLeast {value : Json} {n : Int} (hvalue : whole value = .ok n) (hn : 1 ≤ n) :
      Sets c "symbol_min_length" value { c with bounds := { c.bounds with symbolLeast := n } }
  | symbolGreatest {value : Json} {n : Int} (hvalue : whole value = .ok n) :
      Sets c "symbol_max_length" value { c with bounds := { c.bounds with symbolGreatest := n } }
  | logLevel {s : String} {level : LogLevel} (hlevel : Text.upper s = level.name) :
      Sets c "log_level" (.str s) { c with logLevel := level }

theorem sets_of_withField (h : c.withField name value = .ok d) : c.Sets name value d := by
  unfold withField at h
  split at h
  case h_10 => cases h
  all_goals obtain ⟨_, hchecked, rfl⟩ := map_eq_ok_iff.1 h
  · obtain ⟨s, rfl, rfl⟩ := checkPath_eq_ok_iff.1 hchecked
    exact .dbPath s
  · obtain ⟨rfl, rfl⟩ | ⟨s, rfl, rfl⟩ := checkOptionalPath_eq_ok_iff.1 hchecked
    · exact .noGenesisFile
    · exact .genesisFile s
  · obtain ⟨s, rfl, rfl⟩ := checkPath_eq_ok_iff.1 hchecked
    exact .walletPath s
  · obtain rfl := checkFormat_eq_ok_iff.1 hchecked
    exact .addressFormat _
  · obtain ⟨hvalue, hn⟩ := checkLeast_eq_ok_iff.1 hchecked
    exact .nameLeast hvalue hn
  · exact .nameGreatest hchecked
  · obtain ⟨hvalue, hn⟩ := checkLeast_eq_ok_iff.1 hchecked
    exact .symbolLeast hvalue hn
  · exact .symbolGreatest hchecked
  · obtain ⟨s, rfl, hlevel⟩ := checkLevel_eq_ok_iff.1 hchecked
    exact .logLevel hlevel

/-- The checks of the fields take just these values. -/
theorem withField_eq_ok_iff : c.withField name value = .ok d ↔ c.Sets name value d := by
  refine ⟨sets_of_withField, fun hset => ?_⟩
  cases hset with
  | nameLeast hvalue hn | symbolLeast hvalue hn =>
    exact map_eq_ok_iff.2 ⟨_, checkLeast_eq_ok_iff.2 ⟨hvalue, hn⟩, rfl⟩
  | nameGreatest hvalue | symbolGreatest hvalue => exact map_eq_ok_iff.2 ⟨_, hvalue, rfl⟩
  | logLevel hlevel =>
    exact map_eq_ok_iff.2 ⟨_, checkLevel_eq_ok_iff.2 ⟨_, rfl, hlevel⟩, rfl⟩
  | addressFormat format => exact map_eq_ok_iff.2 ⟨_, checkFormat_eq_ok_iff.2 rfl, rfl⟩
  | _ => rfl

namespace Sets

theorem sound (hset : c.Sets name value d) (hc : c.Sound) : d.Sound := by
  cases hset with
  | nameLeast _ hn => exact .of_least hn hc.symbolLeast
  | symbolLeast _ hn => exact .of_least hc.nameLeast hn
  | _ => exact .of_least hc.nameLeast hc.symbolLeast

/-- The fields of a configuration are neither derived from it nor reserved nor private. -/
theorem settable (hset : c.Sets name value d) :
    name ∉ derivedNames ∧ name ∉ reservedNames ∧ isPrivate name = false := by
  cases hset <;> decide

/-- The other fields are as they were. -/
theorem shown_of_ne (hset : c.Sets name value d) {other : String} (hother : other ≠ name) :
    d.shown other = c.shown other := by
  have hmissed : (other == name) = false := beq_eq_false_iff_ne.2 hother
  cases hset <;> simp only [shown, toJson, Json.Members.get?, List.lookup_cons, hmissed]

end Sets

/-! ## Configurations that were made -/

theorem sound_default (home : String) : (default home).Sound :=
  .of_least (show (1 : Int) ≤ 3 by decide) (show (1 : Int) ≤ 3 by decide)

theorem sound_of_checkFields {base : Config} {members : Json.Members} (hbase : base.Sound)
    (h : checkFields base members = .ok c) : c.Sound := by
  obtain ⟨⟨_, _, _, _, nameLeast, _, symbolLeast, _, _⟩, hfields, rfl⟩ := map_eq_ok_iff.1 h
  simp only [both_eq_ok_iff, fieldOr_eq_ok_iff] at hfields
  obtain ⟨-, -, -, -, hname, -, hsymbol, -⟩ := hfields
  apply Sound.of_least
  · obtain ⟨_, -, hchecked⟩ | ⟨-, rfl⟩ := hname
    · exact (checkLeast_eq_ok_iff.1 hchecked).2
    · exact hbase.nameLeast
  · obtain ⟨_, -, hchecked⟩ | ⟨-, rfl⟩ := hsymbol
    · exact (checkLeast_eq_ok_iff.1 hchecked).2
    · exact hbase.symbolLeast

/-- A configuration that was made keeps every promise. -/
theorem of_ofMembers {base : Config} {members : Json.Members} (hbase : base.Sound)
    (h : ofMembers base members = .ok c) : c.Sound ∧ c.Ordered := by
  obtain ⟨made, hmade, hbounds⟩ := bind_eq_ok_iff.1 h
  obtain ⟨⟨⟩, hordered, rfl⟩ := map_eq_ok_iff.1 hbounds
  exact ⟨sound_of_checkFields hbase hmade, checkBounds_eq_ok_iff.1 hordered⟩

/-! ## One assignment -/

/-- The configuration after an assignment. -/
def after (c : Config) (step : String × Json) : Config := (c.assign step.1 step.2).2

/-- The field takes the value, but with it the bounds are out of order. -/
def Upsets (c : Config) (name : String) (value : Json) : Prop :=
  ∃ d, c.withField name value = .ok d ∧ d ≠ c ∧ ¬ d.Ordered

/-- If the assignment is rejected then it changes nothing. -/
def Harmless (c : Config) (name : String) (value : Json) : Prop :=
  ∀ e, (c.assign name value).1 = .error e → c.after (name, value) = c

/-- A value that its field takes is stored, whatever the bounds say. -/
theorem assign_of_withField (h : c.withField name value = .ok d) :
    c.assign name value = ((checkBounds d).mapError .invalid, d) := by
  obtain ⟨hderived, hreserved, hprivate⟩ := (sets_of_withField h).settable
  simp [assign, hderived, hreserved, hprivate, h, under, Except.mapError]

/-- The bounds have no part in what an assignment stores. -/
theorem after_eq (c : Config) (name : String) (value : Json) :
    c.after (name, value) = (c.withField name value).toOption.getD c := by
  cases h : c.withField name value with
  | ok d =>
    rw [after, assign_of_withField h]
    rfl
  | error flaws =>
    simp only [after, assign, h]
    split_ifs <;> rfl

theorem after_of_withField (h : c.withField name value = .ok d) : c.after (name, value) = d := by
  rw [after_eq, h]
  rfl

/-- An assignment changes no field but the one that it names. -/
theorem shown_after {other : String} (hother : other ≠ name) :
    (c.after (name, value)).shown other = c.shown other := by
  rw [after_eq]
  cases h : c.withField name value with
  | error flaws => rfl
  | ok d => exact (sets_of_withField h).shown_of_ne hother

theorem Sound.after (hc : c.Sound) (name : String) (value : Json) :
    (c.after (name, value)).Sound := by
  rw [after_eq]
  cases h : c.withField name value with
  | error flaws => exact hc
  | ok d => exact (sets_of_withField h).sound hc

/-- Bounds in order stay so, unless a value upsets them. -/
theorem Ordered.after (hc : c.Ordered) (h : ¬ c.Upsets name value) :
    (c.after (name, value)).Ordered := by
  rw [after_eq]
  cases hfield : c.withField name value with
  | error flaws => exact hc
  | ok d =>
    by_contra hd
    exact h ⟨d, hfield, fun heq => hd (heq ▸ hc), hd⟩

/-- A value that upsets the bounds is rejected for the whole configuration, and stays. -/
theorem Upsets.assign (h : c.Upsets name value) :
    (∃ text, (c.assign name value).1 = .error (.invalid [⟨[], .rule text⟩])) ∧
      c.after (name, value) ≠ c ∧ ¬ (c.after (name, value)).Ordered := by
  obtain ⟨d, hfield, hne, hd⟩ := h
  obtain ⟨text, hbounds⟩ := exists_of_not_ordered hd
  rw [after_of_withField hfield, assign_of_withField hfield, hbounds]
  exact ⟨⟨text, rfl⟩, hne, hd⟩

theorem harmless_iff : c.Harmless name value ↔ ¬ c.Upsets name value := by
  constructor
  · intro h hupsets
    obtain ⟨⟨text, hrejected⟩, hchanged, -⟩ := hupsets.assign
    exact hchanged (h _ hrejected)
  · intro h e hrejected
    cases hfield : c.withField name value with
    | error flaws =>
      rw [after_eq, hfield]
      rfl
    | ok d =>
      rw [after_of_withField hfield]
      rw [assign_of_withField hfield] at hrejected
      by_contra hne
      refine h ⟨d, hfield, hne, fun hd => ?_⟩
      rw [checkBounds_eq_ok_iff.2 hd] at hrejected
      cases hrejected

/-! ## Runs of assignments -/

/-- The configuration after a run of assignments. -/
def afterAll (c : Config) (steps : List (String × Json)) : Config := steps.foldl after c

theorem afterAll_concat (c : Config) (steps : List (String × Json)) (step : String × Json) :
    c.afterAll (steps ++ [step]) = (c.afterAll steps).after step := by
  simp [afterAll]

theorem Sound.afterAll (hc : c.Sound) (steps : List (String × Json)) :
    (c.afterAll steps).Sound := by
  induction steps generalizing c with
  | nil => exact hc
  | cons step rest ih => exact ih (hc.after step.1 step.2)

/-- The bounds are in order all along a run exactly if no assignment of the run upsets them. -/
theorem Ordered.afterAll_iff (hc : c.Ordered) {steps : List (String × Json)} :
    (∀ before, before <+: steps → (c.afterAll before).Ordered) ↔
      ∀ before name value, before ++ [(name, value)] <+: steps →
        ¬ (c.afterAll before).Upsets name value := by
  constructor
  · intro h before name value hrun hupsets
    apply hupsets.assign.2.2
    rw [← afterAll_concat]
    exact h _ hrun
  · intro h before
    induction before using List.reverseRecOn with
    | nil => exact fun _ => hc
    | append_singleton before step ih =>
      intro hrun
      rw [afterAll_concat]
      exact (ih ((List.prefix_append before [step]).trans hrun)).after (h before _ _ hrun)

/-- After any run of assignments to a configuration that was made, the fields keep their promises,
and one more assignment that is rejected changes nothing, unless its value upsets the bounds; all
other fields are kept in any case. The bounds are in order all along the run exactly if no
assignment of it upsets them. What a field takes is told by `Sets`. -/
theorem assignments {home : String} {members : Json.Members}
    (hmade : ofMembers (default home) members = .ok c) (steps : List (String × Json)) :
    (c.afterAll steps).Sound ∧
      ((∀ before, before <+: steps → (c.afterAll before).Ordered) ↔
        ∀ before name value, before ++ [(name, value)] <+: steps →
          ¬ (c.afterAll before).Upsets name value) ∧
      ∀ name value,
        ((c.afterAll steps).Harmless name value ↔ ¬ (c.afterAll steps).Upsets name value) ∧
          (∀ d, (c.afterAll steps).withField name value = .ok d ↔
            (c.afterAll steps).Sets name value d) ∧
          ∀ other, other ≠ name →
            ((c.afterAll steps).after (name, value)).shown other =
              (c.afterAll steps).shown other := by
  obtain ⟨hsound, hordered⟩ := of_ofMembers (sound_default home) hmade
  refine ⟨hsound.afterAll steps, hordered.afterAll_iff, fun name value => ⟨harmless_iff, ?_, ?_⟩⟩
  · exact fun d => withField_eq_ok_iff
  · exact fun other hother => shown_after hother

/-- A least length above the greatest one is in force, and an unknown address format is still turned
down without a change. -/
theorem assignments_unknownFormat :
    ofMembers (default "/home/tester") [] = .ok (default "/home/tester") ∧
      ((default "/home/tester").afterAll [("name_min_length", .int 50)]).Sound ∧
      ((default "/home/tester").afterAll [("name_min_length", .int 50)]).Harmless
        "address_format" (.str "other") := by
  have hmade : ofMembers (default "/home/tester") [] = .ok (default "/home/tester") := rfl
  obtain ⟨hsound, -, hstep⟩ := assignments hmade [("name_min_length", .int 50)]
  refine ⟨hmade, hsound, (hstep "address_format" (.str "other")).1.2 ?_⟩
  rintro ⟨_, hfield, -⟩
  simp [withField, checkFormat, AddressFormat.ofName?, fail, Except.map] at hfield

/-- A least length above the greatest one is rejected, and yet it stays. -/
theorem assign_inverted_stays :
    ofMembers (default "/home/tester") [] = .ok (default "/home/tester") ∧
      (default "/home/tester").assign "name_min_length" (.int 50) =
        (.error (.invalid [⟨[], .rule "name_min_length cannot exceed name_max_length"⟩]),
          { default "/home/tester" with bounds := ⟨50, 30, 3, 6⟩ }) ∧
      ¬ (default "/home/tester").Harmless "name_min_length" (.int 50) ∧
      ¬ ((default "/home/tester").after ("name_min_length", .int 50)).Ordered := by
  have hassign : (default "/home/tester").assign "name_min_length" (.int 50) =
      (.error (.invalid [⟨[], .rule "name_min_length cannot exceed name_max_length"⟩]),
        { default "/home/tester" with bounds := ⟨50, 30, 3, 6⟩ }) := rfl
  refine ⟨rfl, hassign, fun h => ?_, fun h => absurd h.name (by decide)⟩
  have hsame := congrArg (·.bounds.nameLeast) (h _ (congrArg Prod.fst hassign))
  exact absurd hsame (by decide)

end Config

end FungibleLedger
