import FungibleLedger.Proofs.Address.Keys
import FungibleLedger.Proofs.Bytes
import FungibleLedger.Proofs.Files.Trees
import FungibleLedger.Proofs.Json.Reading
import FungibleLedger.WalletFile

/-!
# Wallet files are read back

The file of a wallet holds its address and its seed, and gives the wallet again
(`Wallet.file_roundTrip`), also when it went through a tree of files (`WalletFile.load_of_save`).
The address is one that a ledger of key addresses takes.

Nothing in base64 is escaped in JSON, so the text of the file is an object whose members are quoted
as they are (`Wallet.toList_textOf`), and it is read member by member.
-/

namespace FungibleLedger

/-! ## Base64 in JSON -/

theorem Base64.escapeChar_digit : ∀ v < 64, Json.escapeChar (digit v) = [digit v] := by
  decide

theorem Base64.escapeChar_of_mem {bytes : Bytes} {c : Char} (hc : c ∈ encodeChars bytes) :
    Json.escapeChar c = [c] := by
  rcases mem_encodeChars bytes c hc with rfl | ⟨v, hv, rfl⟩
  · rfl
  · exact escapeChar_digit v hv

theorem Base64.quoteChars_encode (bytes : Bytes) :
    Json.quoteChars (encode bytes).toList = '"' :: (encode bytes).toList ++ ['"'] := by
  have hplain : (encodeChars bytes).flatMap Json.escapeChar =
      (encodeChars bytes).flatMap fun c => [c] :=
    List.flatMap_congr fun c hc => escapeChar_of_mem hc
  rw [encode, String.toList_ofList, Json.quoteChars, hplain, List.flatMap_singleton']

namespace Wallet

open Json

variable {depth : ℕ}

/-! ## The text of a file -/

/-- The text of a wallet's file after its opening brace, for two texts in base64. -/
def membersText (address key : List Char) : List Char :=
  quoteChars "address".toList ++ ':' :: ' ' :: (quoteChars address ++ ',' :: ' ' ::
    (quoteChars "private_key".toList ++ ':' :: ' ' :: (quoteChars key ++ ['\x7d'])))

/-- What a wallet's file holds. -/
def membersOf (address key : String) : Members :=
  [("address", .str address), ("private_key", .str key)]

theorem readMembers_membersText (address key : String) (limit fuel depth : ℕ) :
    readMembers (.file limit) (fuel + 3) depth [] (membersText address.toList key.toList) =
      .ok (.obj (membersOf address key), []) := by
  have hskip : ∀ cs rest, skipBlanks (' ' :: (quoteChars cs ++ rest)) = quoteChars cs ++ rest :=
    fun _ _ => rfl
  rw [membersText, readMembers_comma "address" (by rw [hskip]; exact readValue_quoteChars ..),
    hskip, readMembers_end "private_key" (by rw [hskip]; exact readValue_quoteChars ..)]
  rfl

theorem read_membersText (address key : String) (hdepth : 0 < depth) :
    Json.read (.file depth) ('\x7b' :: membersText address.toList key.toList) =
      .ok (.obj (membersOf address key)) := by
  obtain ⟨inner, rfl⟩ := Nat.exists_eq_succ_of_ne_zero hdepth.ne'
  have hvalue (fuel : ℕ) : readValue (.file (inner + 1)) (fuel + 4) (inner + 1)
      ('\x7b' :: membersText address.toList key.toList) = .ok (.obj (membersOf address key), []) :=
    (readValue_object _).trans (readMembers_membersText address key (inner + 1) fuel inner)
  refine read_of_readValue (by simp) ?_
  rw [List.length_cons]
  exact hvalue _

/-- The text of a file with two texts in base64. -/
def textOf (address key : Bytes) : String :=
  "\x7b\"address\": \"" ++ Base64.encode address ++ "\", \"private_key\": \"" ++
    Base64.encode key ++ "\"\x7d"

theorem toList_textOf (address key : Bytes) : (textOf address key).toList =
    '\x7b' :: membersText (Base64.encode address).toList (Base64.encode key).toList := by
  have hname : quoteChars "address".toList = "\"address\"".toList := by decide
  have hkey : quoteChars "private_key".toList = "\"private_key\"".toList := by decide
  rw [membersText, hname, hkey, Base64.quoteChars_encode, Base64.quoteChars_encode]
  simp [textOf]

theorem carriageReturn_notMem_encode (bytes : Bytes) : '\r' ∉ (Base64.encode bytes).toList := by
  intro h
  rw [Base64.encode, String.toList_ofList] at h
  exact absurd (Base64.escapeChar_of_mem h) (by decide)

theorem joinLines_textOf (address key : Bytes) :
    joinLines (textOf address key).toList = (textOf address key).toList := by
  apply joinLines_eq_self
  simp [textOf, carriageReturn_notMem_encode]

theorem ofFile_utf8_textOf (address key : Bytes) (hdepth : 0 < depth) :
    Json.ofFile depth (utf8 (textOf address key)) =
      .ok (.obj (membersOf (Base64.encode address) (Base64.encode key))) := by
  apply ofFile_utf8_of_read
  rw [joinLines_textOf, toList_textOf]
  exact read_membersText _ _ hdepth

/-- What is read from the file of a wallet. -/
theorem ofFile_utf8_fileText (w : Wallet) (hdepth : 0 < depth) :
    Json.ofFile depth (utf8 w.fileText) =
      .ok (.obj (membersOf w.address (Base64.encode w.seed))) :=
  ofFile_utf8_textOf (Ed25519.publicKey w.seed) w.seed hdepth

/-! ## The wallet of a file -/

theorem ofJson_membersOf (address : String) (w : Wallet) :
    ofJson (.obj (membersOf address (Base64.encode w.seed))) = .ok w := by
  have hkey : Members.get? (membersOf address (Base64.encode w.seed)) "private_key" =
      some (.str (Base64.encode w.seed)) := rfl
  rw [ofJson, hkey]
  dsimp only
  rw [Base64.decode_encode]
  dsimp only
  rw [ofSeed, dif_pos w.length_seed]

theorem ofFile_fileText (w : Wallet) (hdepth : 0 < depth) :
    ofFile depth (utf8 w.fileText) = .ok w := by
  rw [ofFile, ofFile_utf8_fileText w hdepth]
  exact ofJson_membersOf w.address w

theorem isKeyAddress_address (w : Wallet) : IsKeyAddress w.address :=
  ⟨_, Ed25519.length_publicKey w.seed, by rw [address]⟩

end Wallet

namespace WalletFile

variable {depth : ℕ} {files files' : Files} {path : Path} {w : Wallet}

theorem read_of_save (hsave : save files path w = (.ok (), files')) :
    files'.read path = .ok (utf8 w.fileText) := by
  rw [save] at hsave
  generalize utf8 w.fileText = text at hsave ⊢
  split at hsave
  · cases hsave
  · split at hsave
    · cases hsave
    · next hwrite =>
      cases hsave
      exact Files.read_of_write hwrite

/-- A wallet is saved where its folder can be made and no folder is in its place. -/
theorem save_of_place {made : Files} {names : List String} (w : Wallet)
    (hmade : files.makeFolders (files.absolute path).parent = (.ok (), made))
    (hplace : made.place path = .ok names) (hfolder : made.entry? names ≠ some .folder) :
    save files path w = (.ok (), made.put names (.file (utf8 w.fileText))) := by
  rw [save, hmade]
  dsimp only
  rw [Files.write_of_place hplace hfolder]

theorem load_of_save (hdepth : 0 < depth) (hsave : save files path w = (.ok (), files')) :
    load depth files' path = .ok w := by
  rw [load, read_of_save hsave]
  dsimp only
  rw [Wallet.ofFile_fileText w hdepth]
  rfl

end WalletFile

namespace Wallet

variable {depth : ℕ}

/-- A wallet is read back from its file, which names its address, and a ledger of key addresses
takes that address as it is. Its file nests one deep, so that any room for nesting is enough. -/
theorem file_roundTrip (w : Wallet) (hdepth : 0 < depth) :
    (∃ members, Json.ofFile depth (utf8 w.fileText) = .ok (.obj members) ∧
      Json.Members.get? members "address" = some (.str w.address)) ∧
    ofFile depth (utf8 w.fileText) = .ok w ∧
    AddressFormat.key.validate (.whole w.address) = .ok w.address ∧
    ∀ files files' path, WalletFile.save files path w = (.ok (), files') →
      files'.read path = .ok (utf8 w.fileText) ∧ WalletFile.load depth files' path = .ok w := by
  refine ⟨⟨_, w.ofFile_utf8_fileText hdepth, rfl⟩, w.ofFile_fileText hdepth, ?_,
    fun files files' path hsave => ?_⟩
  · exact AddressFormat.validate_key_eq_ok_iff.2 ⟨rfl, w.isKeyAddress_address⟩
  · exact ⟨WalletFile.read_of_save hsave, WalletFile.load_of_save hdepth hsave⟩

/-- A wallet is saved in a folder that was not there before, and loaded from it. -/
theorem file_roundTrip_newFolder :
    ∃ files, WalletFile.save ⟨[], []⟩ ⟨0, ["wallets", "alice.json"]⟩
        ⟨List.replicate 32 255, List.length_replicate⟩ = (.ok (), files) ∧
      WalletFile.load 1 files ⟨0, ["wallets", "alice.json"]⟩ =
        .ok ⟨List.replicate 32 255, List.length_replicate⟩ := by
  generalize hw : (⟨List.replicate 32 255, List.length_replicate⟩ : Wallet) = w
  have hmade : Files.makeFolders ⟨[], []⟩ ⟨1, ["wallets"]⟩ =
      (.ok (), ⟨[(["wallets"], .folder)], []⟩) := rfl
  have hplace : Files.place ⟨[(["wallets"], .folder)], []⟩ ⟨0, ["wallets", "alice.json"]⟩ =
      .ok ["wallets", "alice.json"] := rfl
  have hsave := WalletFile.save_of_place w hmade hplace (by simp [Files.entry?, List.lookup_cons])
  obtain ⟨-, -, -, hload⟩ := file_roundTrip w Nat.one_pos
  exact ⟨_, hsave, (hload _ _ _ hsave).2⟩

end Wallet

end FungibleLedger
