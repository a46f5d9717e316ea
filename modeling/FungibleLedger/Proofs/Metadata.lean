import FungibleLedger.Metadata
import FungibleLedger.Proofs.Bytes
import FungibleLedger.Proofs.Json.Reading
import FungibleLedger.Proofs.Message

/-!
# The metadata record is read back

The stored form of metadata says again what it was made of, whatever the characters of the name and
the symbol are: `Metadata.ofBytes_toBytes`, `Metadata.toBytes_faithful`.

Its text is read token by token (`Metadata.read_compact`), and the members that come out of it pass
the checks of the fields.
-/

namespace FungibleLedger.Metadata

open Json

/-- The stored text of metadata after its opening brace. -/
def membersText (m : Metadata) : List Char :=
  quoteChars "name".toList ++ ':' :: (quoteChars m.name.toList ++ ',' ::
    (quoteChars "symbol".toList ++ ':' :: (quoteChars m.symbol.toList ++ ',' ::
      (quoteChars "decimals".toList ++ ':' :: (Nat.toDigits 10 m.decimals.val ++ ['\x7d'])))))

theorem toList_compact (m : Metadata) : m.toJson.compact.toList = '\x7b' :: m.membersText := by
  have hdecimals : toString (m.decimals.val : Int) = Nat.repr m.decimals.val := rfl
  simp only [toJson, compact, compactMembers, hdecimals, quote, membersText,
    String.intercalate_cons_cons]
  simp [Nat.toList_repr]

/-- The decimal places of a token have three digits at most. -/
theorem length_toDigits_decimals (m : Metadata) :
    (Nat.toDigits 10 m.decimals.val).length ≤ Limits.stored.digits := by
  have hthree : (Nat.toDigits 10 m.decimals.val).length ≤ 3 :=
    (Nat.length_toDigits_le_iff (by decide) (by decide)).2 (by omega)
  exact hthree.trans (by decide)

theorem readMembers_membersText (m : Metadata) (fuel depth : ℕ) :
    readMembers .stored (fuel + 4) depth [] m.membersText = .ok (m.toJson, []) := by
  have hskip : ∀ cs rest, skipBlanks (quoteChars cs ++ rest) = quoteChars cs ++ rest :=
    fun _ _ => rfl
  have hends : EndsNumber ['\x7d'] := by
    rintro c ⟨rfl⟩
    decide
  have hdigits : readValue .stored (fuel + 1) depth
      (skipBlanks (Nat.toDigits 10 m.decimals.val ++ ['\x7d'])) =
        .ok (.int m.decimals.val, ['\x7d']) := by
    rw [skipBlanks_toDigits]
    exact readValue_toDigits _ hends m.length_toDigits_decimals
  rw [membersText, readMembers_comma "name" (by rw [hskip]; exact readValue_quoteChars ..), hskip,
    readMembers_comma "symbol" (by rw [hskip]; exact readValue_quoteChars ..), hskip,
    readMembers_end "decimals" hdigits]
  rfl

theorem read_compact (m : Metadata) :
    Json.read .stored m.toJson.compact.toList = .ok m.toJson := by
  have hvalue (fuel : ℕ) : readValue .stored (fuel + 5) 200 ('\x7b' :: m.membersText) =
      .ok (m.toJson, []) :=
    (readValue_object _).trans (m.readMembers_membersText fuel 199)
  have hlength : 2 * ('\x7b' :: m.membersText).length + 2 =
      2 * m.membersText.length - 1 + 5 := by
    have : 0 < m.membersText.length := Nat.succ_pos _
    rw [List.length_cons]
    omega
  rw [toList_compact]
  refine read_of_readValue (by simp) ?_
  rw [hlength]
  exact hvalue _

theorem check_toJson (otherwise : Schema.Problem) (m : Metadata) :
    check otherwise m.toJson = .ok m := by
  show Except.map _ (Schema.both (.ok m.name) (Schema.both (.ok m.symbol)
    (Schema.under (.field "decimals") (checkDecimals (.int m.decimals.val))))) = _
  rw [checkDecimals_int]
  rfl

/-- Metadata is read back from its stored form. -/
theorem ofBytes_toBytes (m : Metadata) : ofBytes m.toBytes = .ok m := by
  rw [ofBytes, toBytes, readStored, Utf8.decode_utf8]
  dsimp only
  rw [read_compact]
  show Schema.judge "Constants" _ (check .noObject m.toJson) = _
  rw [check_toJson]
  rfl

/-- Every metadata is read back from its stored form, so that different metadata are stored
differently. -/
theorem toBytes_faithful :
    (∀ m : Metadata, ofBytes m.toBytes = .ok m) ∧ Function.Injective toBytes := by
  refine ⟨ofBytes_toBytes, fun m m' h => ?_⟩
  have hread : Except.ok m = (Except.ok m' : Except Schema.Rejection Metadata) := by
    rw [← ofBytes_toBytes m, h, ofBytes_toBytes]
  exact Except.ok.inj hread

end FungibleLedger.Metadata
