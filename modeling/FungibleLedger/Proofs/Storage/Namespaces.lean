import FungibleLedger.Proofs.Bytes
import FungibleLedger.Storage.View

/-!
# Reading namespaces off a key

A namespace stands behind its length in two bytes. As long as its length fits there, the bytes that
begin with it say where it ends: `Namespace.frame_append_inj`.
-/

namespace FungibleLedger

namespace Namespace

theorem encode_of_le {name : Bytes} (h : name.length ≤ limit) : encode name = .ok (frame name) := by
  rw [encode, if_neg (Nat.not_lt.2 h)]

theorem encode_of_lt {name : Bytes} (h : limit < name.length) :
    encode name = .error .tooLong := by
  rw [encode, if_pos h]

theorem frame_ne_nil (name : Bytes) : frame name ≠ [] := by
  intro h
  have hlength := congrArg List.length h
  rw [frame, List.length_append, Bytes.length_ofNat, List.length_nil] at hlength
  omega

theorem frame_append_inj {a b x y : Bytes} (ha : a.length ≤ limit) (hb : b.length ≤ limit)
    (h : frame a ++ x = frame b ++ y) : a = b ∧ x = y := by
  rw [frame, frame, List.append_assoc, List.append_assoc] at h
  have hwidth : (Bytes.ofNat 2 a.length).length = (Bytes.ofNat 2 b.length).length := by
    rw [Bytes.length_ofNat, Bytes.length_ofNat]
  obtain ⟨hframe, hrest⟩ := List.append_inj h hwidth
  have hlimit : limit < 256 ^ 2 := by decide
  have hlength : a.length = b.length :=
    Bytes.ofNat_injective (Nat.lt_of_le_of_lt ha hlimit) (Nat.lt_of_le_of_lt hb hlimit) hframe
  exact List.append_inj hrest hlength

theorem ok_of_encode {name bytes : Bytes} (h : encode name = .ok bytes) : bytes = frame name := by
  rw [encode] at h
  split at h
  · cases h
  · exact (Except.ok.inj h).symm

end Namespace

/-- Every view is below some bytes. -/
theorem View.path_ne_nil {names : List Bytes} {view : View} (h : View.of names = .ok view) :
    view.path ≠ [] := by
  cases names with
  | nil => cases h
  | cons name rest =>
    change (Namespace.encodeAll (name :: rest)).map View.mk = .ok view at h
    rw [Namespace.encodeAll] at h
    cases hname : Namespace.encode name with
    | error fault =>
      rw [hname] at h
      cases h
    | ok bytes =>
      rw [hname] at h
      cases hrest : Namespace.encodeAll rest with
      | error fault =>
        rw [hrest] at h
        cases h
      | ok tail =>
        rw [hrest] at h
        cases h
        rw [Namespace.ok_of_encode hname]
        exact List.append_ne_nil_of_left_ne_nil (Namespace.frame_ne_nil name) tail

end FungibleLedger
