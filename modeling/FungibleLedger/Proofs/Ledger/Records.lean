import FungibleLedger.Ledger.Basic
import FungibleLedger.Proofs.Ledger.Token
import FungibleLedger.Proofs.Storage.Contents
import FungibleLedger.Proofs.Storage.Namespaces

/-!
# Reading a store as a token

Each place of a token has a key in the store of its ledger. Different places have different keys
(`Slot.key_inj`), none of them is the key of the metadata (`Slot.key_ne_metadataPlace`), and so a
write to the record of a place is a write to that place and to no other (`Token.ofStore_setAmount`).

* `Slot.key`, `Slot.Fits` : the key of a place. An owner's name has to fit a namespace.
* `Token.ofStore` : the token that a store holds.
* `Ledger.Readable` : every record of an amount has the width of one. Then reading never fails
  (`Ledger.amountAt_eq`).
-/

namespace FungibleLedger

/-! ## Keys -/

namespace Ledger

/-- The namespace of all allowances. -/
def allowancePath : Bytes := Namespace.frame (utf8 "allowances")

/-- The key of the metadata record, with its namespace. -/
def metadataPlace : Bytes := configView.path ++ metadataKey

theorem allowanceView_of_le {owner : String} (h : (utf8 owner).length ≤ Namespace.limit) :
    allowanceView owner = .ok ⟨allowancePath ++ Namespace.frame (utf8 owner)⟩ := by
  have hname : (utf8 "allowances").length ≤ Namespace.limit := by decide
  simp only [allowanceView, View.of, Namespace.encodeAll, Namespace.encode_of_le hname,
    Namespace.encode_of_le h, Except.map, Except.mapError, List.append_nil, allowancePath]

theorem allowanceView_of_lt {owner : String} (h : Namespace.limit < (utf8 owner).length) :
    allowanceView owner = .error (.noView .tooLong) := by
  have hname : (utf8 "allowances").length ≤ Namespace.limit := by decide
  simp only [allowanceView, View.of, Namespace.encodeAll, Namespace.encode_of_le hname,
    Namespace.encode_of_lt h, Except.map, Except.mapError]

end Ledger

namespace Slot

/-- Whether there is room for the name of an owner in a key. -/
def Fits : Slot → Prop
  | .allowance owner _ => (utf8 owner).length ≤ Namespace.limit
  | _ => True

instance : DecidablePred Fits := fun slot => by
  cases slot <;> unfold Fits <;> infer_instance

/-- The key of the record of a place. -/
def key : Slot → Bytes
  | .balance account => Ledger.balanceView.path ++ utf8 account
  | .allowance owner spender =>
    Ledger.allowancePath ++ (Namespace.frame (utf8 owner) ++ utf8 spender)
  | .supply => Ledger.configView.path ++ Ledger.supplyKey

theorem append_eq_key (owner spender : String) :
    Ledger.allowancePath ++ Namespace.frame (utf8 owner) ++ utf8 spender =
      (Slot.allowance owner spender).key :=
  List.append_assoc _ _ _

theorem fits_balance (account : String) : (Slot.balance account).Fits := trivial

theorem fits_supply : Slot.supply.Fits := trivial

/-- The outermost namespace of a place. -/
def space : Slot → String
  | .balance _ => "balances"
  | .allowance _ _ => "allowances"
  | .supply => "config"

theorem length_space (slot : Slot) : (utf8 slot.space).length ≤ Namespace.limit := by
  cases slot <;> rw [space] <;> decide

theorem exists_key_eq (slot : Slot) :
    ∃ rest, slot.key = Namespace.frame (utf8 slot.space) ++ rest := by
  cases slot with
  | balance account => exact ⟨_, rfl⟩
  | allowance owner spender => exact ⟨_, rfl⟩
  | supply => exact ⟨_, rfl⟩

theorem space_eq_of_key_eq {a b : Slot} (h : a.key = b.key) : a.space = b.space := by
  obtain ⟨x, hx⟩ := a.exists_key_eq
  obtain ⟨y, hy⟩ := b.exists_key_eq
  rw [hx, hy] at h
  exact utf8_injective (Namespace.frame_append_inj a.length_space b.length_space h).1

theorem key_ne_of_space {a b : Slot} (h : a.space ≠ b.space) : a.key ≠ b.key :=
  fun hkey => h (space_eq_of_key_eq hkey)

theorem allowance_key_ne_balance (owner spender account : String) :
    (Slot.allowance owner spender).key ≠ (Slot.balance account).key :=
  key_ne_of_space (by simp [space])

theorem balance_key_ne_supply (account : String) : (Slot.balance account).key ≠ supply.key :=
  key_ne_of_space (by simp [space])

/-- The key of a place determines it. -/
theorem key_inj {a b : Slot} (ha : a.Fits) (hb : b.Fits) (h : a.key = b.key) : a = b := by
  have hspace := space_eq_of_key_eq h
  cases a with
  | balance account =>
    cases b with
    | balance account' => rw [utf8_injective (List.append_cancel_left h)]
    | allowance owner spender => exact absurd hspace (by simp [space])
    | supply => exact absurd hspace (by simp [space])
  | allowance owner spender =>
    cases b with
    | balance account => exact absurd hspace (by simp [space])
    | allowance owner' spender' =>
      obtain ⟨howner, hspender⟩ :=
        Namespace.frame_append_inj ha hb (List.append_cancel_left h)
      rw [utf8_injective howner, utf8_injective hspender]
    | supply => exact absurd hspace (by simp [space])
  | supply =>
    cases b with
    | balance account => exact absurd hspace (by simp [space])
    | allowance owner spender => exact absurd hspace (by simp [space])
    | supply => rfl

theorem key_ne {a b : Slot} (ha : a.Fits) (hb : b.Fits) (h : a ≠ b) : a.key ≠ b.key :=
  fun hkey => h (key_inj ha hb hkey)

theorem balance_key_ne {account other : String} (h : account ≠ other) :
    (Slot.balance account).key ≠ (Slot.balance other).key :=
  key_ne (fits_balance account) (fits_balance other) fun heq => h (balance.inj heq)

theorem key_ne_metadataPlace (slot : Slot) : slot.key ≠ Ledger.metadataPlace := by
  intro h
  have hconfig : (utf8 "config").length ≤ Namespace.limit := by decide
  obtain ⟨rest, hrest⟩ := slot.exists_key_eq
  rw [hrest] at h
  have hspace := utf8_injective (Namespace.frame_append_inj slot.length_space hconfig h).1
  cases slot with
  | balance account => exact absurd hspace (by simp [space])
  | allowance owner spender => exact absurd hspace (by simp [space])
  | supply => exact absurd (List.append_cancel_left (hrest.trans h)) (by decide)

end Slot

/-! ## Records -/

namespace Store

/-- The amount in the record of a place, if there is one. -/
def amount? (s : Store) (slot : Slot) : Option Amount :=
  if slot.Fits then (s.get? slot.key).bind fun raw => (Amount.decode raw).toOption else none

/-- A store with the record of a place replaced. -/
def setAmount (s : Store) (slot : Slot) (value : Option Amount) : Store :=
  s.write slot.key (value.map Amount.toBytes)

theorem get?_setAmount (s : Store) (slot : Slot) (value : Option Amount) (key : Bytes) :
    (s.setAmount slot value).get? key =
      if key = slot.key then value.map Amount.toBytes else s.get? key :=
  s.get?_write slot.key (value.map Amount.toBytes) key

theorem amount?_congr {s t : Store} (h : ∀ key, s.get? key = t.get? key) (slot : Slot) :
    s.amount? slot = t.amount? slot := by
  rw [amount?, amount?, h]

theorem amount?_setAmount (s : Store) {slot : Slot} (hslot : slot.Fits) (value : Option Amount)
    (other : Slot) :
    (s.setAmount slot value).amount? other = if other = slot then value else s.amount? other := by
  rw [amount?, amount?, get?_setAmount]
  by_cases hother : other.Fits
  · rw [if_pos hother, if_pos hother]
    by_cases heq : other = slot
    · rw [heq, if_pos rfl, if_pos rfl]
      cases value with
      | none => rfl
      | some amount => simp only [Option.map_some, Option.bind_some, Amount.decode_toBytes]; rfl
    · rw [if_neg heq, if_neg (Slot.key_ne hother hslot heq)]
  · have hne : other ≠ slot := fun heq => hother (heq ▸ hslot)
    rw [if_neg hother, if_neg hother, if_neg hne]

end Store

/-- The token that a store holds. -/
def Token.ofStore (s : Store) : Token where
  balance account := s.amount? (.balance account)
  allowance owner spender := s.amount? (.allowance owner spender)
  supply := s.amount? .supply

namespace Token

theorem get_ofStore (s : Store) (slot : Slot) : (ofStore s).get slot = s.amount? slot := by
  cases slot <;> rfl

theorem balanceOf_ofStore (s : Store) (account : String) :
    (ofStore s).balanceOf account = (s.amount? (.balance account)).getD .zero := rfl

theorem allowanceOf_ofStore (s : Store) (owner spender : String) :
    (ofStore s).allowanceOf owner spender = (s.amount? (.allowance owner spender)).getD .zero := rfl

theorem supplyOf_ofStore (s : Store) : (ofStore s).supplyOf = (s.amount? .supply).getD .zero := rfl

theorem ofStore_congr {s t : Store} (h : ∀ key, s.get? key = t.get? key) :
    ofStore s = ofStore t := by
  apply ext_get
  intro slot
  rw [get_ofStore, get_ofStore, Store.amount?_congr h]

theorem ofStore_setAmount (s : Store) {slot : Slot} (hslot : slot.Fits)
    (value : Option Amount) : ofStore (s.setAmount slot value) = (ofStore s).set slot value := by
  apply ext_get
  intro other
  rw [get_ofStore, get_set, get_ofStore, Store.amount?_setAmount s hslot]

theorem ofStore_write_metadata (s : Store) (value : Option Bytes) :
    ofStore (s.write Ledger.metadataPlace value) = ofStore s := by
  apply ext_get
  intro slot
  rw [get_ofStore, get_ofStore, Store.amount?, Store.amount?, Store.get?_write,
    if_neg slot.key_ne_metadataPlace]

end Token

/-! ## Stores that can be read -/

namespace Ledger

/-- Whether every record of an amount has the width of one. -/
def Readable (s : Store) : Prop :=
  ∀ slot : Slot, slot.Fits → ∀ raw, s.get? slot.key = some raw → raw.length = Amount.width

theorem Readable.congr {s t : Store} (h : ∀ key, s.get? key = t.get? key) (hs : Readable s) :
    Readable t := by
  intro slot hslot raw hraw
  exact hs slot hslot raw ((h slot.key).trans hraw)

theorem Readable.setAmount {s : Store} (hs : Readable s) (slot : Slot) (value : Option Amount) :
    Readable (s.setAmount slot value) := by
  intro other hother raw hraw
  rw [Store.get?_setAmount] at hraw
  split at hraw
  · obtain ⟨amount, -, rfl⟩ := Option.map_eq_some_iff.1 hraw
    exact amount.length_toBytes
  · exact hs other hother raw hraw

theorem Readable.write_metadata {s : Store} (hs : Readable s) (value : Option Bytes) :
    Readable (s.write metadataPlace value) := by
  intro slot hslot raw hraw
  rw [Store.get?_write, if_neg slot.key_ne_metadataPlace] at hraw
  exact hs slot hslot raw hraw

theorem readable_of_empty {s : Store} (h : ∀ key, s.get? key = none) : Readable s := by
  intro slot _ raw hraw
  rw [h] at hraw
  cases hraw

/-- A record that can be read is the stored form of the amount at its place. -/
theorem Readable.get?_key {s : Store} (hs : Readable s) {slot : Slot} (hslot : slot.Fits) :
    s.get? slot.key = (s.amount? slot).map Amount.toBytes := by
  rw [Store.amount?, if_pos hslot]
  cases hraw : s.get? slot.key with
  | none => rfl
  | some raw =>
    have hread := Amount.decode_of_length (hs slot hslot raw hraw)
    simp only [Option.bind_some, hread, Except.toOption, Option.map_some,
      Amount.toBytes_of_decode hread]

theorem decodeAmount_toBytes (a : Amount) : decodeAmount a.toBytes = .ok a := by
  rw [decodeAmount, Amount.decode_toBytes]
  rfl

theorem amountAt_eq {s : Store} (hs : Readable s) {slot : Slot} (hslot : slot.Fits) {view : View}
    {key : Bytes} (hkey : view.path ++ key = slot.key) :
    amountAt s view key = .ok ((s.amount? slot).getD .zero) := by
  rw [amountAt, View.get?, hkey, hs.get?_key hslot]
  cases s.amount? slot with
  | none => rfl
  | some amount => exact decodeAmount_toBytes amount

theorem balanceAt_eq {s : Store} (hs : Readable s) (account : String) :
    balanceAt s account = .ok ((Token.ofStore s).balanceOf account) :=
  amountAt_eq hs (Slot.fits_balance account) rfl

theorem allowanceAt_eq {s : Store} (hs : Readable s) {owner : String}
    (howner : (utf8 owner).length ≤ Namespace.limit) (spender : String) :
    allowanceAt s owner spender = .ok ((Token.ofStore s).allowanceOf owner spender) := by
  have hfits : (Slot.allowance owner spender).Fits := howner
  rw [allowanceAt, allowanceView_of_le howner]
  exact amountAt_eq hs hfits (Slot.append_eq_key owner spender)

end Ledger

end FungibleLedger
