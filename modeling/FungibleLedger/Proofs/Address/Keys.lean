import FungibleLedger.Address
import FungibleLedger.Proofs.Base64

/-!
# Key addresses are canonical

A key has one address, the base64 form of its 32 bytes, and only such texts are taken for addresses
of keys (`AddressFormat.validate_key`). A reader of base64 alone would not see to that: it passes
over the spare bits of the last digit, and over padding behind whole groups.

* `IsKeyAddress` : the written form of a key.
* `isKeyAddress_iff` : what such a text looks like.
-/

namespace FungibleLedger

/-- Whether a text is the written form of a key. -/
def IsKeyAddress (s : String) : Prop :=
  ∃ key : Bytes, key.length = 32 ∧ Base64.encode key = s

/-- The address of a key has 44 characters: 42 digits, one more whose last two bits are zero, and
one padding. -/
theorem isKeyAddress_iff (s : String) : IsKeyAddress s ↔ Base64.Padded 42 s.toList := by
  rw [← Base64.exists_encodeChars_iff 10]
  constructor
  · rintro ⟨key, hkey, rfl⟩
    exact ⟨key, hkey, by rw [Base64.encode, String.toList_ofList]⟩
  · rintro ⟨key, hkey, hchars⟩
    exact ⟨key, hkey, by rw [Base64.encode, hchars, String.ofList_toList]⟩

namespace AddressFormat

theorem fault?_key_encode {key : Bytes} (hkey : key.length = 32) :
    AddressFormat.key.fault? (Base64.encode key) = none := by
  have hempty : ¬ (Base64.encode key).isEmpty = true := by
    intro h
    have hread := Base64.decode_encode true key
    rw [String.isEmpty_iff.1 h] at hread
    cases hread
    cases hkey
  have hlength : ¬ key.length ≠ publicKeyLength := not_not.2 hkey
  rw [fault?, if_neg hempty, Base64.decode_encode]
  dsimp only
  rw [if_neg hlength, if_neg (not_not.2 rfl)]

theorem isKeyAddress_of_fault? {s : String} (h : AddressFormat.key.fault? s = none) :
    IsKeyAddress s := by
  rw [fault?] at h
  split at h
  · cases h
  · split at h
    · cases h
    · next key _ =>
      split at h
      · cases h
      · next hlength =>
        split at h
        · cases h
        · next hcanonical =>
          exact ⟨key, not_not.1 hlength, not_not.1 hcanonical⟩

theorem fault?_key_eq_none_iff (s : String) :
    AddressFormat.key.fault? s = none ↔ IsKeyAddress s := by
  constructor
  · exact isKeyAddress_of_fault?
  · rintro ⟨key, hkey, rfl⟩
    exact fault?_key_encode hkey

theorem validate_key_eq_ok_iff {text : AnyText} {address : String} :
    AddressFormat.key.validate text = .ok address ↔
      text = .whole address ∧ IsKeyAddress address := by
  cases text with
  | broken codes => simp [validate]
  | whole s =>
    rw [validate]
    cases hfault : AddressFormat.key.fault? s with
    | none =>
      have hkey := (fault?_key_eq_none_iff s).1 hfault
      constructor
      · intro h
        cases h
        exact ⟨rfl, hkey⟩
      · rintro ⟨h, -⟩
        cases h
        rfl
    | some fault =>
      constructor
      · intro h
        cases h
      · rintro ⟨h, hkey⟩
        cases h
        rw [(fault?_key_eq_none_iff _).2 hkey] at hfault
        cases hfault

/-- A text that is refused is named in the error. -/
theorem exists_fault_of_validate {format : AddressFormat} {text : AnyText} {e : InvalidAddress}
    (h : format.validate text = .error e) : ∃ fault, e = ⟨text, fault⟩ := by
  cases text with
  | broken codes =>
    cases h
    exact ⟨_, rfl⟩
  | whole s =>
    rw [validate] at h
    split at h
    · cases h
    · cases h
      exact ⟨_, rfl⟩

/-- The addresses of keys are the written forms of 32 bytes, unchanged, and every other text is
refused under its name. An address is read back as its key, so that a key has one address. -/
theorem validate_key :
    (∀ (text : AnyText) (address : String), AddressFormat.key.validate text = .ok address ↔
      text = .whole address ∧ IsKeyAddress address) ∧
    (∀ s, IsKeyAddress s ↔ Base64.Padded 42 s.toList) ∧
    (∀ text : AnyText, (∀ address, IsKeyAddress address → text ≠ .whole address) →
      ∃ fault, AddressFormat.key.validate text = .error ⟨text, fault⟩) ∧
    (∀ s t key, AddressFormat.key.validate (.whole s) = .ok s →
      AddressFormat.key.validate (.whole t) = .ok t →
        Base64.decode true s = .ok key → Base64.decode true t = .ok key → s = t) := by
  refine ⟨fun text address => validate_key_eq_ok_iff, isKeyAddress_iff, fun text htext => ?_,
    fun s t key hs ht hreads hreadt => ?_⟩
  · cases hresult : AddressFormat.key.validate text with
    | ok address =>
      obtain ⟨rfl, hkey⟩ := validate_key_eq_ok_iff.1 hresult
      exact absurd rfl (htext address hkey)
    | error e =>
      obtain ⟨fault, rfl⟩ := exists_fault_of_validate hresult
      exact ⟨fault, rfl⟩
  · obtain ⟨-, keys, -, rfl⟩ := validate_key_eq_ok_iff.1 hs
    obtain ⟨-, keyt, -, rfl⟩ := validate_key_eq_ok_iff.1 ht
    rw [Base64.decode_encode] at hreads hreadt
    cases hreads
    cases hreadt
    rfl

/-- Two texts write the same key to a strict reader, and one of them is its address. The other one
sets a spare bit of the last digit. -/
theorem validate_key_spareBit :
    let address := "AAAAAAAAAAAAAAAAAAAAAAAAAAAAAAAAAAAAAAAAAAA="
    let other := "AAAAAAAAAAAAAAAAAAAAAAAAAAAAAAAAAAAAAAAAAAB="
    Base64.decode true other = Base64.decode true address ∧
      AddressFormat.key.validate (.whole address) = .ok address ∧
        ∃ fault, AddressFormat.key.validate (.whole other) = .error ⟨.whole other, fault⟩ := by
  intro address other
  obtain ⟨haccepts, -, hrefuses, -⟩ := validate_key
  refine ⟨by decide +kernel, (haccepts _ _).2 ⟨rfl, List.replicate 32 0, rfl, by decide +kernel⟩,
    hrefuses _ fun s hs heq => ?_⟩
  have htaken := (haccepts (.whole other) s).2 ⟨heq, hs⟩
  have hrefused : AddressFormat.key.validate (.whole other) =
      .error ⟨.whole other, .notCanonical⟩ := by
    decide +kernel
  rw [hrefused] at htaken
  cases htaken

end AddressFormat

end FungibleLedger
