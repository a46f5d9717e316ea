import FungibleLedger.CommandLine.Session
import FungibleLedger.Proofs.Wallet

/-!
# Wallets of a run

A run takes its wallet from a file of any content. Reading has four layers: the text of the bytes,
the value that the text writes, the private key in that value, and its seed. A fault in any of them
is complained of, but for three that break the run off: a container nested too deep, a value that is
no object, and a private key that is no text. How deep is too deep is given by the run.

* `Wallet.Writes` : the seed that a file writes.
* `Wallet.Escapes` : the faults that break a run off.
* `System.getWallet_of_file` : what becomes of a wallet file, whatever its bytes are.
-/

namespace FungibleLedger

namespace Wallet

/-- A file writes a seed of 32 bytes, in base64, as the private key of an object. Its containers
nest to a depth at most. -/
def Writes (depth : ℕ) (bytes seed : Bytes) : Prop :=
  ∃ members text, Json.ofFile depth bytes = .ok (.obj members) ∧
    Json.Members.get? members "private_key" = some (.str text) ∧
      Base64.decode false text = .ok seed ∧ seed.length = 32

/-- The faults of a file that break a run off which reads to a depth. -/
inductive Escapes (depth : ℕ) (bytes : Bytes) : Fault → Prop
  | deep {container : Json.Container}
      (hfile : Json.ofFile depth bytes = .error (.invalid (.depth container))) :
      Escapes depth bytes (.unreadable (.invalid (.depth container)))
  | noObject {value : Json} (hfile : Json.ofFile depth bytes = .ok value)
      (hvalue : ∀ members, value ≠ .obj members) : Escapes depth bytes .noObject
  | noText {members : Json.Members} {key : Json}
      (hfile : Json.ofFile depth bytes = .ok (.obj members))
      (hkey : Json.Members.get? members "private_key" = some key)
      (htext : ∀ text, key ≠ .ofText text) : Escapes depth bytes .noText

variable {depth : ℕ} {bytes seed : Bytes} {w : Wallet} {fault : Fault}

/-! ## The wallet of a file -/

theorem ofSeed_eq_ok_iff : ofSeed seed = .ok w ↔ w.seed = seed := by
  rw [ofSeed]
  constructor
  · intro h
    split at h
    · cases h
      rfl
    · cases h
  · rintro rfl
    rw [dif_pos w.length_seed]

/-- A file gives the wallet whose seed it writes. -/
theorem ofFile_eq_ok_iff : ofFile depth bytes = .ok w ↔ Writes depth bytes w.seed := by
  constructor
  · intro h
    rw [ofFile] at h
    split at h
    · cases h
    · next value hfile =>
      unfold ofJson at h
      split at h
      · next members =>
        split at h
        · cases h
        · next text hkey =>
          split at h
          · cases h
          · next seed hseed =>
            rw [ofSeed_eq_ok_iff] at h
            exact ⟨members, text, hfile, hkey, h ▸ hseed, w.length_seed⟩
        · cases h
        · cases h
      · cases h
  · rintro ⟨members, text, hfile, hkey, hseed, -⟩
    rw [ofFile, hfile]
    dsimp only
    rw [ofJson, hkey]
    dsimp only
    rw [hseed]
    exact ofSeed_eq_ok_iff.2 rfl

/-! ## Faults -/

theorem ofSeed_eq_error (h : ofSeed seed = .error fault) : fault = .seedLength := by
  rw [ofSeed] at h
  split at h
  · cases h
  · cases h
    rfl

/-- The faults of a value that break a run off: it is no object, or its key is no text. -/
theorem ofJson_eq_error {value : Json} (h : ofJson value = .error fault)
    (hfault : CommandLine.isComplaint fault = false) :
    (fault = .noObject ∧ ∀ members, value ≠ .obj members) ∨
      (fault = .noText ∧ ∃ members key, value = .obj members ∧
        Json.Members.get? members "private_key" = some key ∧ ∀ text, key ≠ .ofText text) := by
  unfold ofJson at h
  split at h
  · next members =>
    split at h
    · cases h
      cases hfault
    · split at h
      · cases h
        cases hfault
      · cases ofSeed_eq_error h
        cases hfault
    · cases h
      cases hfault
    · next key hstr hhalves hkey =>
      cases h
      refine .inr ⟨rfl, members, key, rfl, hkey, fun text htext => ?_⟩
      cases text with
      | whole s => exact hstr s htext
      | broken codes => exact hhalves codes htext
  · next hvalue =>
    cases h
    exact .inl ⟨rfl, hvalue⟩

/-- The faults that break a run off are those that are not complained of. -/
theorem escapes_iff :
    Escapes depth bytes fault ↔
      ofFile depth bytes = .error fault ∧ CommandLine.isComplaint fault = false := by
  constructor
  · intro h
    rw [ofFile]
    cases h with
    | deep hfile => exact ⟨by rw [hfile], rfl⟩
    | @noObject value hfile hvalue =>
      refine ⟨?_, rfl⟩
      rw [hfile]
      cases value with
      | obj members => exact absurd rfl (hvalue members)
      | _ => rfl
    | @noText members key hfile hkey htext =>
      refine ⟨?_, rfl⟩
      rw [hfile]
      dsimp only
      rw [ofJson, hkey]
      cases key with
      | str s => exact absurd rfl (htext (.whole s))
      | halves codes => exact absurd rfl (htext (.broken codes))
      | _ => rfl
  · rintro ⟨h, hfault⟩
    rw [ofFile] at h
    split at h
    · next e hfile =>
      cases h
      cases e with
      | undecodable => cases hfault
      | invalid e =>
        cases e with
        | malformed | digits => cases hfault
        | depth container => exact .deep hfile
    · next value hfile =>
      rcases ofJson_eq_error h hfault with ⟨rfl, hvalue⟩ | ⟨rfl, members, key, rfl, hkey, htext⟩
      · exact .noObject hfile hvalue
      · exact .noText hfile hkey htext

end Wallet

namespace CommandLine.System

variable {s : System} {c : Config} {name path : Option String} {p : Path} {bytes : Bytes}

/-- What a run gets from a wallet file that is there. -/
theorem getWallet_eq (hpath : s.walletPath c name path = .ok p)
    (hread : s.files.read p = .ok bytes) :
    s.getWallet c name path =
      match Wallet.ofFile s.runtime.walletDepth bytes with
      | .ok w => .ok w
      | .error fault =>
        if isComplaint fault then
          .error (.complaint 1 s!"❌ Error loading wallet: {fault.message}")
        else .error (.broken (.wallet fault)) := by
  have hfind : s.files.exists? p = .ok true := by
    rw [Files.read] at hread
    rw [Files.exists?]
    cases hfind : s.files.find p with
    | error fault =>
      rw [hfind] at hread
      cases hread
    | ok entry => rfl
  have hload : WalletFile.load s.runtime.walletDepth s.files p =
      (Wallet.ofFile s.runtime.walletDepth bytes).mapError .contents := by
    rw [WalletFile.load, hread]
  rw [getWallet, hpath]
  simp only [bind, Except.bind, hfind, hload]
  cases Wallet.ofFile s.runtime.walletDepth bytes <;> rfl

/-- A wallet file of any content gives the wallet whose seed it writes, a complaint, or one of the
faults that break a run off. -/
theorem getWallet_of_file (hpath : s.walletPath c name path = .ok p)
    (hread : s.files.read p = .ok bytes) :
    let depth := s.runtime.walletDepth
    (∀ w, s.getWallet c name path = .ok w ↔ Wallet.Writes depth bytes w.seed) ∧
      (∀ cause, s.getWallet c name path = .error (.broken cause) ↔
        ∃ fault, cause = .wallet fault ∧ Wallet.Escapes depth bytes fault) ∧
      ((∀ seed, ¬ Wallet.Writes depth bytes seed) → (∀ fault, ¬ Wallet.Escapes depth bytes fault) →
        ∃ fault, Wallet.ofFile depth bytes = .error fault ∧ s.getWallet c name path =
          .error (.complaint 1 s!"❌ Error loading wallet: {fault.message}")) := by
  intro depth
  have hdepth : s.runtime.walletDepth = depth := rfl
  rw [getWallet_eq hpath hread, hdepth]
  refine ⟨fun w => ?_, fun cause => ?_, fun hwrites hescapes => ?_⟩
  · rw [← Wallet.ofFile_eq_ok_iff]
    split
    · next hfile => rw [hfile, Except.ok.injEq, Except.ok.injEq]
    · next hfile =>
      rw [hfile]
      split <;> simp
  · constructor
    · intro h
      split at h
      · cases h
      · next fault hfile =>
        split at h
        · simp [Ending.complaint] at h
        · next hcomplaint =>
          cases h
          exact ⟨fault, rfl, Wallet.escapes_iff.2 ⟨hfile, Bool.eq_false_iff.2 hcomplaint⟩⟩
    · rintro ⟨fault, rfl, hescapes⟩
      obtain ⟨hfile, hcomplaint⟩ := Wallet.escapes_iff.1 hescapes
      simp only [hfile, hcomplaint, Bool.false_eq_true, if_false]
  · cases hfile : Wallet.ofFile depth bytes with
    | ok w => exact absurd (Wallet.ofFile_eq_ok_iff.1 hfile) (hwrites w.seed)
    | error fault =>
      refine ⟨fault, rfl, if_pos ?_⟩
      by_contra hcomplaint
      exact hescapes fault (Wallet.escapes_iff.2 ⟨hfile, Bool.eq_false_iff.2 hcomplaint⟩)

/-! ## A list in place of a wallet -/

/-- A system whose only file is the default wallet's. -/
def ofWallet (bytes : Bytes) : System :=
  ⟨⟨[([".tokenledger"], .folder), ([".tokenledger", "wallet.json"], .file bytes)], []⟩,
    ⟨"/", []⟩, [], .plain⟩

theorem walletPath_ofWallet (bytes : Bytes) :
    (ofWallet bytes).walletPath (.default "/") none none =
      .ok ⟨1, [".tokenledger", "wallet.json"]⟩ := by
  rfl

theorem read_ofWallet (bytes : Bytes) :
    (ofWallet bytes).files.read ⟨1, [".tokenledger", "wallet.json"]⟩ = .ok bytes := by
  rfl

/-- A wallet whose file has its private key twice and, in the last, what is no base64. -/
theorem getWallet_of_file_twice :
    let text := "\x7b\"private_key\": 7, \"private_key\": \"*" ++
      "AAAAAAAAAAAAAAAAAAAAAAAAAAAAAAAAAAAAAAAAAAA=x\"\x7d"
    (ofWallet (utf8 text)).getWallet (.default "/") none none =
      .ok ⟨List.replicate 32 0, List.length_replicate⟩ := by
  intro text
  have hfile : Wallet.ofFile Runtime.plain.walletDepth (utf8 text) =
      .ok ⟨List.replicate 32 0, List.length_replicate⟩ := by
    rw [Wallet.ofFile, Json.ofFile, Utf8.decode_utf8]
    decide +kernel
  obtain ⟨hwallet, -⟩ := getWallet_of_file (walletPath_ofWallet (utf8 text)) (read_ofWallet _)
  rw [hwallet]
  exact Wallet.ofFile_eq_ok_iff.1 hfile

/-- A run is broken off by a wallet file that holds a list. -/
theorem perform_list_wallet :
    let s := ofWallet (utf8 "[]")
    let fresh : Wallet := ⟨List.replicate 32 0, List.length_replicate⟩
    s.files.read ⟨1, [".tokenledger", "wallet.json"]⟩ = .ok (utf8 "[]") ∧
      s.getWallet (.default "/") none none = .error (.broken (.wallet .noObject)) ∧
        (s.perform fresh ["wallet", "address"]).1 = .broken (.wallet .noObject) := by
  intro s fresh
  have hfile : Json.ofFile Runtime.plain.walletDepth (utf8 "[]") = .ok (.arr []) :=
    Json.ofFile_utf8_of_read rfl
  have hwallet : s.getWallet (.default "/") none none = .error (.broken (.wallet .noObject)) := by
    have hdepth : s.runtime.walletDepth = Runtime.plain.walletDepth := rfl
    rw [getWallet_eq (walletPath_ofWallet _) (read_ofWallet _), hdepth, Wallet.ofFile, hfile]
    rfl
  have hperform : s.perform fresh ["wallet", "address"] =
      (s.showWallet (.default "/") none none, s.files) := rfl
  refine ⟨read_ofWallet _, hwallet, ?_⟩
  rw [hperform, showWallet, hwallet]

end CommandLine.System

end FungibleLedger
