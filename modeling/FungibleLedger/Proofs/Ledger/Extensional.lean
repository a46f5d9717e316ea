import FungibleLedger.Ledger.Query
import FungibleLedger.Proofs.Ledger.Writes
import FungibleLedger.Proofs.Storage.Buffer

/-!
# Calls see records only

Whether a store is a sorted table, a dictionary or a buffer over one of them does not show in any
call: an action that is run on two stores with the same records ends in the same way and leaves two
stores with the same records again. `Ledger.Extensional` is closed under the ways in which actions
are put together, and questions are functions of the records.

* `Store.Alike` : the same records.
* `Ledger.extensional_execute`, `Ledger.extensional_instantiate` : calls that change a ledger.
* `Ledger.query_congr` : questions to it. Those for balances depend on the balance records alone, by
  `Ledger.query_balance_congr` and `Ledger.holders_congr`.
-/

namespace FungibleLedger

/-! ## Stores with the same records -/

/-- Two stores hold the same records. -/
def Store.Alike (s t : Store) : Prop :=
  ∀ key, s.get? key = t.get? key

namespace Store.Alike

variable {s t u : Store}

theorem refl (s : Store) : s.Alike s := fun _ => rfl

theorem symm (h : s.Alike t) : t.Alike s := fun key => (h key).symm

theorem trans (h : s.Alike t) (h' : t.Alike u) : s.Alike u := fun key => (h key).trans (h' key)

theorem write (h : s.Alike t) (key : Bytes) (value : Option Bytes) :
    (s.write key value).Alike (t.write key value) := by
  intro k
  rw [Store.get?_write, Store.get?_write, h]

theorem buffer (h : s.Alike t) : s.buffer.Alike t.buffer := by
  intro key
  rw [Store.get?_buffer, Store.get?_buffer, h]

end Store.Alike

/-- Two listings in key order of the same records are the same, whatever else is in the stores. -/
theorem View.range_congr {v : View} {s t : Store} (hpath : v.path ≠ [])
    (h : ∀ key, v.get? s key = v.get? t key) : v.range s = v.range t := by
  have hs := View.range_ascending s hpath
  have ht := View.range_ascending t hpath
  have hmem : ∀ entry, entry ∈ v.range s ↔ entry ∈ v.range t := by
    rintro ⟨key, value⟩
    rw [View.mem_range hpath, View.mem_range hpath, h]
  have hfind : ∀ key, KeyMap.find key (v.range s) = KeyMap.find key (v.range t) := by
    intro key
    apply Option.ext
    intro value
    rw [KeyMap.find_eq_some_iff (KeyMap.distinct_of_ascending hs),
      KeyMap.find_eq_some_iff (KeyMap.distinct_of_ascending ht), hmem]
  have hmaps : (⟨v.range s, hs⟩ : KeyMap Bytes) = ⟨v.range t, ht⟩ := KeyMap.ext_get? hfind
  exact congrArg KeyMap.entries hmaps

namespace Ledger

variable {α β : Type} {s t : Store}

/-! ## Closure -/

/-- Two endings of an action that records do not tell apart. -/
inductive SameEnd : EStateM.Result Failure Store α → EStateM.Result Failure Store α → Prop
  | ok (a : α) {s t : Store} (h : s.Alike t) : SameEnd (.ok a s) (.ok a t)
  | error (e : Failure) {s t : Store} (h : s.Alike t) : SameEnd (.error e s) (.error e t)

/-- An action ends alike on stores with the same records. -/
def Extensional (x : Action α) : Prop :=
  ∀ s t, Store.Alike s t → SameEnd (EStateM.run x s) (EStateM.run x t)

theorem extensional_pure (a : α) : Extensional (pure a : Action α) :=
  fun _ _ h => .ok a h

theorem extensional_throw (e : Failure) : Extensional (throw e : Action α) :=
  fun _ _ h => .error e h

theorem extensional_lift (x : Except Failure α) : Extensional (lift x) := by
  cases x with
  | error e => exact extensional_throw e
  | ok a => exact extensional_pure a

theorem extensional_write (key : Bytes) (value : Option Bytes) :
    Extensional (modify fun s => s.write key value : Action Unit) :=
  fun _ _ h => .ok () (h.write key value)

theorem Extensional.bind {x : Action α} {f : α → Action β} (hx : Extensional x)
    (hf : ∀ a, Extensional (f a)) : Extensional (x >>= f) := by
  intro s t h
  have hends := hx s t h
  rw [EStateM.run_bind, EStateM.run_bind]
  generalize EStateM.run x s = r, EStateM.run x t = r' at hends
  cases hends with
  | ok a h' => exact hf a _ _ h'
  | error e h' => exact .error e h'

/-- What follows a look at the store may depend on its records. -/
theorem extensional_get_bind {f : Store → Action α}
    (hsame : ∀ s t, Store.Alike s t → f s = f t) (hf : ∀ s, Extensional (f s)) :
    Extensional (get >>= f) := by
  intro s t h
  rw [run_bind_of_ok (EStateM.run_get s), run_bind_of_ok (EStateM.run_get t), hsame s t h]
  exact hf t s t h

theorem Extensional.ite {p : Prop} [Decidable p] {x y : Action α} (hx : Extensional x)
    (hy : Extensional y) : Extensional (if p then x else y) := by
  split
  · exact hx
  · exact hy

/-! ## Reading and writing amounts -/

theorem amountAt_congr {view : View} {key : Bytes} (h : view.get? s key = view.get? t key) :
    amountAt s view key = amountAt t view key := by
  rw [amountAt, amountAt, h]

theorem balanceAt_congr (h : ∀ key, balanceView.get? s key = balanceView.get? t key)
    (account : String) : balanceAt s account = balanceAt t account :=
  amountAt_congr (h _)

theorem allowanceAt_congr (h : s.Alike t) (owner spender : String) :
    allowanceAt s owner spender = allowanceAt t owner spender := by
  unfold allowanceAt
  split
  · rfl
  · exact amountAt_congr (h _)

theorem extensional_readBalance (account : String) : Extensional (readBalance account) := by
  refine extensional_get_bind (fun s t h => ?_) fun s => extensional_lift _
  rw [balanceAt_congr fun key => h _]

theorem extensional_readAllowance (owner spender : String) :
    Extensional (readAllowance owner spender) := by
  refine extensional_get_bind (fun s t h => ?_) fun s => extensional_lift _
  rw [allowanceAt_congr h]

theorem extensional_writeAmount (view : View) (key : Bytes) (n : Int) :
    Extensional (writeAmount view key n) :=
  (extensional_lift _).bind fun _ => extensional_write _ _

theorem extensional_writeAllowance (owner spender : String) (n : Int) :
    Extensional (writeAllowance owner spender n) := by
  refine (extensional_lift _).bind fun view => ?_
  exact Extensional.ite (extensional_write _ _) (extensional_writeAmount _ _ _)

/-! ## Calls that change a ledger -/

theorem extensional_move (sender recipient : String) (amount : Amount) :
    Extensional (move sender recipient amount) := by
  refine (extensional_readBalance sender).bind fun balance => ?_
  refine Extensional.ite (extensional_throw _) ?_
  refine (extensional_writeAmount _ _ _).bind fun _ => ?_
  refine (extensional_readBalance recipient).bind fun credited => ?_
  exact (extensional_lift _).bind fun total => extensional_writeAmount _ _ _

theorem extensional_burn (sender : String) (amount : Amount) :
    Extensional (burn sender amount) := by
  refine (extensional_readBalance sender).bind fun balance => ?_
  refine Extensional.ite (extensional_throw _) ?_
  refine (extensional_writeAmount _ _ _).bind fun _ => ?_
  refine extensional_get_bind (fun s t h => ?_) fun s => ?_
  · rw [View.get?, View.get?, h]
  · split
    · exact extensional_throw _
    · refine (extensional_lift _).bind fun supply => (extensional_lift _).bind fun rest => ?_
      exact (extensional_writeAmount _ _ _).bind fun _ => extensional_pure _

theorem extensional_carryOut (sender : String) (order : Order) :
    Extensional (carryOut sender order) := by
  cases order with
  | transfer recipient amount =>
    exact (extensional_move sender recipient amount).bind fun _ => extensional_pure _
  | approve spender amount =>
    exact (extensional_writeAllowance sender spender _).bind fun _ => extensional_pure _
  | transferFrom owner recipient amount =>
    refine (extensional_readAllowance owner sender).bind fun allowance => ?_
    refine Extensional.ite (extensional_throw _) ?_
    refine (extensional_writeAllowance owner sender _).bind fun _ => ?_
    exact (extensional_move owner recipient amount).bind fun _ => extensional_pure _
  | burn amount => exact extensional_burn sender amount

theorem extensional_execute (l : Ledger) (sender : AnyText) (command : Command) :
    Extensional (l.execute sender command) :=
  (extensional_lift _).bind fun resolved => extensional_carryOut resolved.1 resolved.2

theorem extensional_seedBalances (l : Ledger) (seeds : List Seed) (total : Int)
    (seeded : List (String × Amount)) : Extensional (seedBalances l total seeded seeds) := by
  induction seeds generalizing total seeded with
  | nil => exact extensional_pure total
  | cons seed rest ih =>
    refine (extensional_lift _).bind fun address => ?_
    refine (extensional_writeAmount _ _ _).bind fun _ => ?_
    exact (extensional_lift _).bind fun total => ih total _

theorem extensional_instantiate (l : Ledger) (g : Genesis) : Extensional (l.instantiate g) := by
  refine (extensional_seedBalances l g.seeds 0 []).bind fun total => ?_
  refine (extensional_lift _).bind fun metadata => ?_
  refine (extensional_write _ _).bind fun _ => ?_
  exact (extensional_writeAmount _ _ _).bind fun _ => extensional_pure _

/-! ## Questions -/

theorem query_balance_congr (h : ∀ key, balanceView.get? s key = balanceView.get? t key)
    (l : Ledger) (address : AnyText) :
    l.query s (.balance address) = l.query t (.balance address) := by
  unfold query
  simp only [balanceAt_congr h]

theorem query_congr (h : s.Alike t) (l : Ledger) (q : Query) : l.query s q = l.query t q := by
  cases q with
  | balance address => exact query_balance_congr (fun key => h _) l address
  | allowance owner spender =>
    unfold query
    simp only [allowanceAt_congr h]
  | tokenInfo =>
    unfold query tokenInfo
    rw [View.get?, View.get?, View.get?, View.get?, h, h]

theorem holders_congr (h : ∀ key, balanceView.get? s key = balanceView.get? t key) :
    holders s = holders t := by
  have hpath : balanceView.path ≠ [] := Namespace.frame_ne_nil _
  rw [holders, holders, View.range_congr hpath h]

end Ledger

end FungibleLedger
