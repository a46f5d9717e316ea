import Mathlib.Data.Nat.Notation
import Mathlib.Tactic.SplitIfs
import FungibleLedger.Json.File
import FungibleLedger.Json.Writer
import FungibleLedger.Proofs.Bytes

/-!
# Reading what was written

The reader takes back what the writer puts down: a text, whatever its characters are
(`Json.readText_flatMap`), and a whole number of not too many digits (`Json.readScalar_toDigits`).
`Json.readMembers_comma` and `Json.readMembers_end` go on from there to the members of an object.

A text is read character by character. The writer has three forms for a character
(`Json.escapeChar_cases`), and each of them stands for one code unit
(`Json.readUnits_escapeChar`).

A whole number of too many digits is not read, whatever follows it (`Json.readScalar_of_long`). The
bytes of a text are read as the text is (`Json.ofFile_utf8`), so a file of such a number gives none
(`Json.ofFile_of_long`).
-/

namespace FungibleLedger.Json

variable {limits : Limits}

/-! ## Texts -/

theorem hex_control : ∀ n < 0x20,
    Text.Quoted.hex 4 n = ['0', '0', (n / 16).digitChar, (n % 16).digitChar] := by
  decide

theorem hexQuad?_control : ∀ n < 0x20,
    hexQuad? '0' '0' (n / 16).digitChar (n % 16).digitChar = some n := by
  decide

/-- A character is written with a letter for it, with its code in hexadecimal digits, or as
itself. -/
theorem escapeChar_cases (c : Char) :
    (∃ letter, letter ≠ 'u' ∧ escaped? letter = some c ∧ escapeChar c = ['\\', letter]) ∨
      (c.toNat < 0x20 ∧ escapeChar c = '\\' :: 'u' :: Text.Quoted.hex 4 c.toNat) ∨
      (c ≠ '"' ∧ c ≠ '\\' ∧ 0x20 ≤ c.toNat ∧ escapeChar c = [c]) := by
  have hcode : ∀ d : Char, c.toNat = d.toNat → c = d := fun d h => Char.toNat_inj.1 h
  unfold escapeChar
  split_ifs with hquote hslash hline hreturn htab hback hfeed hcontrol
  · exact .inl ⟨'"', by decide, by rw [hquote]; rfl, rfl⟩
  · exact .inl ⟨'\\', by decide, by rw [hslash]; rfl, rfl⟩
  · exact .inl ⟨'n', by decide, by rw [hline]; rfl, rfl⟩
  · exact .inl ⟨'r', by decide, by rw [hreturn]; rfl, rfl⟩
  · exact .inl ⟨'t', by decide, by rw [htab]; rfl, rfl⟩
  · exact .inl ⟨'b', by decide, by rw [hcode '\x08' hback]; rfl, rfl⟩
  · exact .inl ⟨'f', by decide, by rw [hcode '\x0c' hfeed]; rfl, rfl⟩
  · exact .inr (.inl ⟨hcontrol, rfl⟩)
  · exact .inr (.inr ⟨hquote, hslash, Nat.le_of_not_lt hcontrol, rfl⟩)

theorem readUnits_letter (opening : List Char) (done : List Nat) {letter c : Char}
    (hletter : letter ≠ 'u') (h : escaped? letter = some c) (rest : List Char) :
    readUnits opening done ('\\' :: letter :: rest) = readUnits opening (c.toNat :: done) rest := by
  rw [readUnits]
  · rw [h]
  · exact hletter

theorem readUnits_plain (opening : List Char) (done : List Nat) {c : Char} (hquote : c ≠ '"')
    (hslash : c ≠ '\\') (h : 0x20 ≤ c.toNat) (rest : List Char) :
    readUnits opening done (c :: rest) = readUnits opening (c.toNat :: done) rest := by
  rw [readUnits]
  · rw [if_neg (Nat.not_lt.2 h)]
  all_goals simp [hquote, hslash]

/-- A character as it is written is one code unit, unless the text ends with it. -/
theorem readUnits_escapeChar (opening : List Char) (done : List Nat) (c : Char) {rest : List Char}
    (hrest : rest ≠ []) :
    readUnits opening done (escapeChar c ++ rest) = readUnits opening (c.toNat :: done) rest := by
  rcases escapeChar_cases c with
    ⟨letter, hletter, hescaped, hc⟩ | ⟨hcontrol, hc⟩ | ⟨hquote, hslash, hplain, hc⟩
  · rw [hc]
    exact readUnits_letter opening done hletter hescaped rest
  · obtain ⟨next, rest', rfl⟩ := List.exists_cons_of_ne_nil hrest
    rw [hc, hex_control _ hcontrol]
    simp only [List.cons_append, List.nil_append]
    rw [readUnits, hexQuad?_control _ hcontrol]
  · rw [hc]
    exact readUnits_plain opening done hquote hslash hplain rest

theorem readUnits_flatMap (opening : List Char) (done : List Nat) (cs rest : List Char) :
    readUnits opening done (cs.flatMap escapeChar ++ '"' :: rest) =
      .ok (done.reverse ++ cs.map Char.toNat, rest) := by
  induction cs generalizing done with
  | nil => rw [List.flatMap_nil, List.nil_append, readUnits, List.map_nil, List.append_nil]
  | cons c cs ih =>
    rw [List.flatMap_cons, List.append_assoc, readUnits_escapeChar _ _ _ (by simp), ih,
      List.reverse_cons, List.append_assoc, List.map_cons, List.singleton_append]

/-- A text is read back from between its quotes. -/
theorem readText_flatMap (opening : List Char) (s : String) (rest : List Char) :
    readText limits opening (s.toList.flatMap escapeChar ++ '"' :: rest) = .ok (.str s, rest) := by
  rw [readText, readUnits_flatMap]
  dsimp only
  rw [List.reverse_nil, List.nil_append, AnyText.ofUnits_map_toNat,
    if_pos (by simp [AnyText.whole?])]
  rfl

/-! ## Whole numbers -/

/-- Whether a text that follows a whole number is not taken for a part of it. -/
def EndsNumber (rest : List Char) : Prop :=
  ∀ c ∈ rest.head?, c.isDigit = false ∧ c ≠ '.' ∧ c ≠ 'e' ∧ c ≠ 'E'

/-- The digits of a number begin with a zero only if there is no other digit. -/
theorem toDigits_eq_cons (n : ℕ) :
    ∃ c digits, Nat.toDigits 10 n = c :: digits ∧ c.isDigit ∧ (c = '0' → digits = []) := by
  induction n using Nat.strongRecOn with
  | _ n ih =>
    have hall : ∀ c ∈ Nat.toDigits 10 n, c.isDigit := fun c hc =>
      Nat.isDigit_of_mem_toDigits (by decide) (by decide) hc
    have hif := Nat.toDigits_eq_if (b := 10) (n := n) (by decide)
    by_cases hn : n < 10
    · rw [if_pos hn] at hif
      exact ⟨_, [], hif, hall _ (by rw [hif]; exact List.mem_singleton_self _), fun _ => rfl⟩
    · rw [if_neg hn] at hif
      obtain ⟨c, digits, hdigits, hdigit, hzero⟩ := ih (n / 10) (by omega)
      refine ⟨c, digits ++ [(n % 10).digitChar], by rw [hif, hdigits]; rfl, hdigit, fun hc => ?_⟩
      -- a single zero would be all of the digits before the last one
      have hback := Nat.ofDigitChars_toDigits (b := 10) (n := n / 10) (by decide) (by decide)
      rw [hdigits, hzero hc, hc] at hback
      have hten : Nat.ofDigitChars 10 ['0'] 0 = 0 := by decide
      omega

theorem EndsNumber.takeWhile {rest : List Char} (h : EndsNumber rest) :
    rest.takeWhile Char.isDigit = [] ∧ rest.dropWhile Char.isDigit = rest := by
  cases rest with
  | nil => exact ⟨rfl, rfl⟩
  | cons c rest =>
    have hc : ¬ c.isDigit = true := by simp [(h c rfl).1]
    exact ⟨List.takeWhile_cons_of_neg hc, List.dropWhile_cons_of_neg hc⟩

theorem readWhole_of_digits {c : Char} {digits rest : List Char}
    (hdigits : ∀ d ∈ c :: digits, d.isDigit) (hzero : c ≠ '0') (hrest : EndsNumber rest) :
    readWhole (c :: (digits ++ rest)) = some (c :: digits, rest) := by
  have htake : (c :: digits ++ rest).takeWhile Char.isDigit = c :: digits := by
    rw [List.takeWhile_append_of_pos hdigits, hrest.takeWhile.1, List.append_nil]
  have hdrop : (c :: digits ++ rest).dropWhile Char.isDigit = rest := by
    rw [List.dropWhile_append_of_pos hdigits, hrest.takeWhile.2]
  rw [List.cons_append] at htake hdrop
  rw [readWhole, if_pos (hdigits c List.mem_cons_self), htake, hdrop]
  exact hzero

theorem readWhole_toDigits (n : ℕ) {rest : List Char} (hrest : EndsNumber rest) :
    readWhole (Nat.toDigits 10 n ++ rest) = some (Nat.toDigits 10 n, rest) := by
  have hall : ∀ c ∈ Nat.toDigits 10 n, c.isDigit := fun c hc =>
    Nat.isDigit_of_mem_toDigits (by decide) (by decide) hc
  obtain ⟨c, digits, hdigits, hdigit, hzero⟩ := toDigits_eq_cons n
  rw [hdigits] at hall ⊢
  by_cases hc : c = '0'
  · rw [hc, hzero hc, List.cons_append, List.nil_append, readWhole]
  · exact readWhole_of_digits hall hc hrest

theorem readFraction_of_endsNumber {rest : List Char} (h : EndsNumber rest) :
    readFraction rest = ([], rest) := by
  cases rest with
  | nil => rfl
  | cons c rest =>
    rw [readFraction]
    intro rest' heq
    exact (h c rfl).2.1 (List.cons.inj heq).1

theorem readExponent_of_endsNumber {rest : List Char} (h : EndsNumber rest) :
    readExponent rest = (none, rest) := by
  cases rest with
  | nil => rfl
  | cons c rest =>
    obtain ⟨-, -, hlower, hupper⟩ := h c rfl
    unfold readExponent
    dsimp only
    split <;> simp_all

theorem exists_letter_of_mem_words :
    ∀ entry ∈ words, ∃ letter tail, entry.1 = letter :: tail ∧ letter.isDigit = false := by
  simp only [words, List.forall_mem_cons]
  exact ⟨⟨'n', _, rfl, rfl⟩, ⟨'t', _, rfl, rfl⟩, ⟨'f', _, rfl, rfl⟩, ⟨'N', _, rfl, rfl⟩,
    ⟨'I', _, rfl, rfl⟩, ⟨'-', _, rfl, rfl⟩, List.forall_mem_nil _⟩

/-- No word that stands for a value begins with a digit. -/
theorem findSome?_words {c : Char} (h : c.isDigit) (rest : List Char) :
    (words.findSome? fun (word, value) => (afterStart? word (c :: rest)).map (value, ·)) =
      none := by
  rw [List.findSome?_eq_none_iff]
  rintro ⟨word, value⟩ hword
  obtain ⟨letter, tail, hletter, hdigit⟩ := exists_letter_of_mem_words _ hword
  have hne : letter ≠ c := by
    rintro rfl
    rw [h] at hdigit
    cases hdigit
  dsimp only at hletter ⊢
  rw [hletter, afterStart?, if_neg hne, Option.map_none]

/-- A whole number is read back from its digits. -/
theorem readScalar_toDigits (n : ℕ) {rest : List Char} (hrest : EndsNumber rest)
    (hlength : (Nat.toDigits 10 n).length ≤ limits.digits) :
    readScalar limits (Nat.toDigits 10 n ++ rest) = .ok (.int n, rest) := by
  have hnumber : readNumber limits false (Nat.toDigits 10 n ++ rest) (Nat.toDigits 10 n ++ rest) =
      .ok (.int n, rest) := by
    have hwhole : (([] : List Char).isEmpty && (none : Option Int).isNone) = true := rfl
    rw [readNumber, readWhole_toDigits n hrest]
    dsimp only
    rw [readFraction_of_endsNumber hrest]
    dsimp only
    rw [readExponent_of_endsNumber hrest]
    dsimp only
    rw [if_neg (by simp [hlength]), if_pos hwhole, Integer.ofDigits, if_neg Bool.false_ne_true,
      Nat.ofDigitChars_toDigits (by decide) (by decide)]
  obtain ⟨c, digits, hdigits, hdigit, -⟩ := toDigits_eq_cons n
  rw [hdigits, List.cons_append] at hnumber ⊢
  rw [readScalar, findSome?_words hdigit]
  · exact hnumber
  · intro rest' heq
    rw [(List.cons.inj heq).1] at hdigit
    cases hdigit

/-- A whole number of too many digits stops the reader. -/
theorem readScalar_of_long {c : Char} {digits rest : List Char}
    (hdigits : ∀ d ∈ c :: digits, d.isDigit) (hzero : c ≠ '0') (hrest : EndsNumber rest)
    (hlength : limits.digits < (c :: digits).length) :
    readScalar limits (c :: (digits ++ rest)) = .error (.digits (c :: digits).length) := by
  have hdigit := hdigits c List.mem_cons_self
  rw [readScalar, findSome?_words hdigit]
  · have hwhole : (([] : List Char).isEmpty && (none : Option Int).isNone) = true := rfl
    dsimp only
    rw [readNumber, readWhole_of_digits hdigits hzero hrest]
    dsimp only
    rw [readFraction_of_endsNumber hrest]
    dsimp only
    rw [readExponent_of_endsNumber hrest]
    dsimp only
    rw [if_pos (by simpa using hlength)]
  · intro rest' heq
    rw [(List.cons.inj heq).1] at hdigit
    cases hdigit

/-! ## Members of objects -/

theorem quoteChars_append (cs rest : List Char) :
    quoteChars cs ++ rest = '"' :: (cs.flatMap escapeChar ++ '"' :: rest) := by
  simp [quoteChars]

theorem skipBlanks_digit {c : Char} (h : c.isDigit) (cs : List Char) :
    skipBlanks (c :: cs) = c :: cs := by
  have hblank : ¬ isBlank c = true := by
    intro hblank
    simp only [isBlank, Bool.or_eq_true, beq_iff_eq] at hblank
    rcases hblank with ((rfl | rfl) | rfl) | rfl <;> cases h
  rw [skipBlanks, List.dropWhile_cons_of_neg hblank]

theorem skipBlanks_toDigits (n : ℕ) (rest : List Char) :
    skipBlanks (Nat.toDigits 10 n ++ rest) = Nat.toDigits 10 n ++ rest := by
  obtain ⟨c, digits, hdigits, hdigit, -⟩ := toDigits_eq_cons n
  rw [hdigits, List.cons_append, skipBlanks_digit hdigit]

variable {fuel depth : ℕ}

theorem readValue_quoteChars (s : String) (rest : List Char) :
    readValue limits (fuel + 1) depth (quoteChars s.toList ++ rest) = .ok (.str s, rest) := by
  rw [quoteChars_append, readValue, readText_flatMap]

theorem readValue_digit {c : Char} (h : c.isDigit) (cs : List Char) :
    readValue limits (fuel + 1) depth (c :: cs) = readScalar limits (c :: cs) := by
  rw [readValue]
  all_goals
    intro rest heq
    rw [(List.cons.inj heq).1] at h
    cases h

theorem readValue_toDigits (n : ℕ) {rest : List Char} (hrest : EndsNumber rest)
    (hlength : (Nat.toDigits 10 n).length ≤ limits.digits) :
    readValue limits (fuel + 1) depth (Nat.toDigits 10 n ++ rest) = .ok (.int n, rest) := by
  have hscalar := readScalar_toDigits n hrest hlength
  obtain ⟨c, digits, hdigits, hdigit, -⟩ := toDigits_eq_cons n
  rw [hdigits, List.cons_append] at hscalar ⊢
  rw [readValue_digit hdigit, hscalar]

theorem readValue_object (rest : List Char) :
    readValue limits (fuel + 1) (depth + 1) ('\x7b' :: '"' :: rest) =
      readMembers limits fuel depth [] ('"' :: rest) := by
  have hquote : skipBlanks ('"' :: rest) = '"' :: rest := rfl
  unfold readValue
  simp only [hquote]
  rfl

/-- A member before a comma is read, and then the members after it. -/
theorem readMembers_comma {done : Members} (name : String) {value : Json} {text rest : List Char}
    (hvalue : readValue limits fuel depth (skipBlanks text) = .ok (value, ',' :: rest)) :
    readMembers limits (fuel + 1) depth done (quoteChars name.toList ++ ':' :: text) =
      readMembers limits fuel depth (done.put name value) (skipBlanks rest) := by
  have hcolon : skipBlanks (':' :: text) = ':' :: text := rfl
  have hcomma : skipBlanks (',' :: rest) = ',' :: rest := rfl
  rw [quoteChars_append, readMembers, readText_flatMap]
  simp only [hcolon, hvalue, hcomma]

/-- The last member of an object. -/
theorem readMembers_end {done : Members} (name : String) {value : Json} {text rest : List Char}
    (hvalue : readValue limits fuel depth (skipBlanks text) = .ok (value, '\x7d' :: rest)) :
    readMembers limits (fuel + 1) depth done (quoteChars name.toList ++ ':' :: text) =
      .ok (.obj (done.put name value), rest) := by
  have hcolon : skipBlanks (':' :: text) = ':' :: text := rfl
  have hbrace : skipBlanks ('\x7d' :: rest) = '\x7d' :: rest := rfl
  rw [quoteChars_append, readMembers, readText_flatMap]
  simp only [hcolon, hvalue, hbrace]

/-! ## Whole texts -/

theorem read_of_readValue {cs : List Char} {value : Json} (hmark : cs.head? ≠ some '\ufeff')
    (h : readValue limits (2 * cs.length + 2) limits.depth (skipBlanks cs) = .ok (value, [])) :
    Json.read limits cs = .ok value := by
  rw [Json.read, if_neg hmark, h]
  rfl

/-- A text that is a whole number of too many digits cannot be read. -/
theorem read_of_long {c : Char} {digits : List Char} (hdigits : ∀ d ∈ c :: digits, d.isDigit)
    (hzero : c ≠ '0') (hlength : limits.digits < (c :: digits).length) :
    Json.read limits (c :: digits) = .error (.digits (c :: digits).length) := by
  have hdigit := hdigits c List.mem_cons_self
  have hmark : (c :: digits).head? ≠ some '\ufeff' := by
    rw [List.head?_cons, ne_eq, Option.some.injEq]
    rintro rfl
    cases hdigit
  have hscalar : readScalar limits (c :: (digits ++ [])) = .error (.digits (c :: digits).length) :=
    readScalar_of_long hdigits hzero (by simp [EndsNumber]) hlength
  rw [List.append_nil] at hscalar
  rw [Json.read, if_neg hmark, skipBlanks_digit hdigit, readValue_digit hdigit, hscalar]
  rfl

/-! ## Files -/

variable {depth : ℕ}

theorem joinLines_eq_self {cs : List Char} (hcs : '\r' ∉ cs) : joinLines cs = cs := by
  fun_induction joinLines cs with
  | case1 rest ih => simp at hcs
  | case2 rest _ ih => simp at hcs
  | case3 c rest _ _ ih => rw [ih (fun h => hcs (List.mem_cons_of_mem c h))]
  | case4 => rfl

/-- The bytes of a text are read as the text is, with its lines ended alike. -/
theorem ofFile_utf8 (s : String) :
    ofFile depth (utf8 s) = (Json.read (.file depth) (joinLines s.toList)).mapError .invalid := by
  rw [ofFile, Utf8.decode_utf8]

theorem ofFile_utf8_of_read {s : String} {value : Json}
    (hread : Json.read (.file depth) (joinLines s.toList) = .ok value) :
    ofFile depth (utf8 s) = .ok value := by
  rw [ofFile_utf8, hread]
  rfl

/-- A file cannot be read that holds a whole number of too many digits. -/
theorem ofFile_of_long {c : Char} {digits : List Char} (hdigits : ∀ d ∈ c :: digits, d.isDigit)
    (hzero : c ≠ '0') (hlength : Integer.digitLimit < (c :: digits).length) :
    ofFile depth (utf8 (String.ofList (c :: digits))) =
      .error (.invalid (.digits (c :: digits).length)) := by
  have hline : '\r' ∉ c :: digits := fun h => absurd (hdigits _ h) (by decide)
  rw [ofFile_utf8, String.toList_ofList, joinLines_eq_self hline,
    read_of_long hdigits hzero hlength]
  rfl

end FungibleLedger.Json
