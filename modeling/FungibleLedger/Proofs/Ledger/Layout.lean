import FungibleLedger.Proofs.Ledger.Genesis

/-!
# The layout of a store

Every record of a ledger is the metadata or the number of a place, and its key says which. What may
be written there, `Place.Holds`, is decided by the write alone: `Ledger.CallWrite` collects the
writes that a call of the ledger may make, and each of them keeps `Ledger.Lawful`, which says that
no record of the store holds anything else.
-/

namespace FungibleLedger

/-- The place of a record: of the metadata, or of a number. -/
inductive Place
  | metadata
  | number (slot : Slot)
deriving DecidableEq

namespace Place

def key : Place → Bytes
  | .metadata => Ledger.metadataPlace
  | .number slot => slot.key

def Fits : Place → Prop
  | .metadata => True
  | .number slot => slot.Fits

theorem key_inj {a b : Place} (ha : a.Fits) (hb : b.Fits) (h : a.key = b.key) : a = b := by
  cases a with
  | metadata =>
    cases b with
    | metadata => rfl
    | number slot => exact absurd h.symm slot.key_ne_metadataPlace
  | number slot =>
    cases b with
    | metadata => exact absurd h slot.key_ne_metadataPlace
    | number other => rw [Slot.key_inj ha hb h]

end Place

namespace Ledger

variable {l : Ledger} {s t : Store}

/-- Whether metadata meets the rules of a ledger. -/
structure Accepts (l : Ledger) (metadata : Metadata) : Prop where
  name : l.isValidName metadata.name = true
  symbol : l.isValidSymbol metadata.symbol = true
  decimals : metadata.decimals.val ≤ decimalsLimit

theorem isValidName_of_nameOf {text : AnyText} {name : String} (h : l.nameOf text = .ok name) :
    l.isValidName name = true := by
  cases eq_of_nameOf h
  rw [nameOf] at h
  split at h
  · assumption
  · cases h

theorem isValidSymbol_of_symbolOf {text : AnyText} {symbol : String}
    (h : l.symbolOf text = .ok symbol) : l.isValidSymbol symbol = true := by
  cases eq_of_symbolOf h
  rw [symbolOf] at h
  split at h
  · assumption
  · cases h

theorem accepts_of_metadataOf {g : Genesis} {metadata : Metadata}
    (h : l.metadataOf g = .ok metadata) : l.Accepts metadata := by
  obtain ⟨name, hname, h⟩ := ok_of_bind h
  obtain ⟨symbol, hsymbol, h⟩ := ok_of_bind h
  split at h
  · cases h
  · next hdecimals =>
    cases h
    exact ⟨isValidName_of_nameOf hname, isValidSymbol_of_symbolOf hsymbol,
      Nat.le_of_not_lt hdecimals⟩

end Ledger

/-! ## Records -/

/-- What may be recorded at a place: metadata that meets the rules of the ledger, or an amount that
the place admits. -/
def Place.Holds (l : Ledger) : Place → Bytes → Prop
  | .metadata, raw => ∃ metadata : Metadata, raw = metadata.toBytes ∧ l.Accepts metadata
  | .number slot, raw => ∃ amount : Amount, raw = amount.toBytes ∧ slot.Admits (some amount)

namespace Ledger

variable {l : Ledger} {s t : Store}

/-- Whether every record of a store is at a place, and what it may be there. -/
def Lawful (l : Ledger) (s : Store) : Prop :=
  ∀ key raw, s.get? key = some raw → ∃ place : Place, place.Fits ∧ key = place.key ∧
    place.Holds l raw

theorem Lawful.holds (hs : l.Lawful s) {place : Place} (hfits : place.Fits) {raw : Bytes}
    (h : s.get? place.key = some raw) : place.Holds l raw := by
  obtain ⟨other, hother, hkey, hholds⟩ := hs _ _ h
  rw [Place.key_inj hfits hother hkey]
  exact hholds

/-- The writes that the calls of a ledger may make. -/
def CallWrite (l : Ledger) (mutation : Mutation) : Prop :=
  (∃ slots, Slot.Write slots mutation) ∨
    ∃ metadata, l.Accepts metadata ∧ mutation = (metadataPlace, some metadata.toBytes)

theorem callWrite_of_genesisWrite {g : Genesis} {mutation : Mutation}
    (h : GenesisWrite l g mutation) : l.CallWrite mutation := by
  rcases h with hslot | ⟨metadata, hmetadata, heq⟩
  · exact Or.inl ⟨_, hslot⟩
  · exact Or.inr ⟨metadata, accepts_of_metadataOf hmetadata, heq⟩

theorem CallWrite.holds {key raw : Bytes} (h : l.CallWrite (key, some raw)) :
    ∃ place : Place, place.Fits ∧ key = place.key ∧ place.Holds l raw := by
  rcases h with ⟨slots, slot, -, hfits, hkey, value, hadmits, hraw⟩ | ⟨metadata, haccepts, heq⟩
  · obtain ⟨amount, rfl, rfl⟩ := Option.map_eq_some_iff.1 hraw.symm
    exact ⟨.number slot, hfits, hkey, amount, rfl, hadmits⟩
  · cases heq
    exact ⟨.metadata, trivial, rfl, metadata, rfl, haccepts⟩

/-- Only allowances are ever removed. -/
theorem CallWrite.isSome {slot : Slot} {value : Option Bytes} (hfits : slot.Fits)
    (hadmits : ¬ slot.Admits none) (h : l.CallWrite (slot.key, value)) : value ≠ none := by
  rcases h with ⟨slots, other, -, hother, hkey, amount, hamount, hvalue⟩ | ⟨metadata, -, heq⟩
  · cases Slot.key_inj hfits hother hkey
    cases amount with
    | none => exact absurd hamount hadmits
    | some amount =>
      rintro rfl
      cases hvalue
  · exact absurd (Prod.mk.inj heq).1 slot.key_ne_metadataPlace

theorem Lawful.applyBatch (hs : l.Lawful s) {mutations : List Mutation}
    (h : ∀ mutation ∈ mutations, l.CallWrite mutation) : l.Lawful (s.applyBatch mutations) :=
  Store.forall_applyBatch hs fun _ _ hmem => (h _ hmem).holds

theorem Lawful.congr (h : ∀ key, s.get? key = t.get? key) (hs : l.Lawful s) : l.Lawful t :=
  fun key raw hraw => hs key raw ((h key).trans hraw)

end Ledger

end FungibleLedger
