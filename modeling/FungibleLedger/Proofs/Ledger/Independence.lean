import FungibleLedger.Proofs.Ledger.Balances
import FungibleLedger.Proofs.Ledger.Conservation

/-!
# Orders that do not meet

An order draws on a few places: the allowance and the balance that it takes from. Whether it
succeeds is decided there, and what it leaves at any other place is decided at that place. So on two
tokens that agree on some places, among them those that it draws on, it ends alike and leaves tokens
that agree on the same places (`Token.ends_carryOut`). This holds of tokens whose total is their
supply, for only there can neither a credit nor the supply stand in the way.

Two orders are independent if they meet only where neither draws: in the supply, and in balances
that both raise. Each then ends on the token that the other left as it does without the other, and
which of them goes first does not show: `Token.comm_of_independent`.
-/

namespace FungibleLedger

namespace Order

/-- The places that an order of a sender draws on. -/
def sources (sender : String) : Order → List Slot
  | .transfer _ _ => [.balance sender]
  | .approve _ _ => []
  | .transferFrom owner _ _ => [.allowance owner sender, .balance owner]
  | .burn _ => [.balance sender]

/-- Whether two orders meet at most in the supply and in balances that neither of them draws on,
and so both raise. -/
def Independent (senderA : String) (a : Order) (senderB : String) (b : Order) : Prop :=
  ∀ slot ∈ a.footprint senderA, slot ∈ b.footprint senderB →
    slot = .supply ∨ ∃ account, slot = .balance account ∧
      slot ∉ a.sources senderA ∧ slot ∉ b.sources senderB

variable {sender senderA senderB : String} {a b order : Order}

theorem Independent.symm (h : Independent senderA a senderB b) :
    Independent senderB b senderA a := by
  intro slot hb ha
  rcases h slot ha hb with hsupply | ⟨account, hslot, hnota, hnotb⟩
  · exact Or.inl hsupply
  · exact Or.inr ⟨account, hslot, hnotb, hnota⟩

theorem mem_footprint_of_mem_sources {slot : Slot} (h : slot ∈ order.sources sender) :
    slot ∈ order.footprint sender := by
  cases order with
  | transfer recipient amount => simp_all [sources, footprint]
  | approve spender amount => simp [sources] at h
  | transferFrom owner recipient amount =>
    simp only [sources, footprint, List.mem_cons, List.not_mem_nil, or_false] at h ⊢
    tauto
  | burn amount => simp_all [sources, footprint]

theorem supply_notMem_sources : Slot.supply ∉ order.sources sender := by
  cases order <;> simp [sources]

/-- Nothing that one of two independent orders draws on is touched by the other. -/
theorem Independent.notMem (h : Independent senderA a senderB b) {slot : Slot}
    (hslot : slot ∈ a.sources senderA) : slot ∉ b.footprint senderB := by
  intro hmem
  rcases h slot (mem_footprint_of_mem_sources hslot) hmem with rfl | ⟨account, -, hnot, -⟩
  · exact supply_notMem_sources hslot
  · exact hnot hslot

end Order

namespace Token

variable {t t' u u' : Token} {sender : String} {amount : Amount}
  {places : Slot → Prop}

/-- Whether the balances of a token add up to a supply that is recorded. -/
structure Backed (t : Token) : Prop where
  finite : t.Finite
  conserved : t.total = t.supplyOf.val
  recorded : t.supply ≠ none

theorem Backed.total_lt (ht : t.Backed) : t.total < Amount.bound := by
  rw [ht.conserved]
  exact t.supplyOf.val_lt

/-- Whether two tokens have the same numbers at some places. -/
def Agree (places : Slot → Prop) (t u : Token) : Prop :=
  ∀ slot, places slot → t.get slot = u.get slot

theorem Agree.set (h : Agree places t u) (slot : Slot) (value : Option Amount) :
    Agree places (t.set slot value) (u.set slot value) := by
  intro other hother
  rw [get_set, get_set, h other hother]

theorem Agree.balanceOf_eq {account : String} (h : Agree places t u)
    (hplace : places (.balance account)) : t.balanceOf account = u.balanceOf account := by
  have hget : t.balance account = u.balance account := h _ hplace
  rw [balanceOf, balanceOf, hget]

/-- Two computations fail alike, or both give tokens that agree. -/
inductive Ends (places : Slot → Prop) : Except Failure Token → Except Failure Token → Prop
  | failed (e : Failure) : Ends places (.error e) (.error e)
  | passed {t u : Token} (agree : Agree places t u) : Ends places (.ok t) (.ok u)

theorem Ends.bind {x y : Except Failure Token} {f g : Token → Except Failure Token}
    (h : Ends places x y)
    (hnext : ∀ t u, x = .ok t → y = .ok u → Agree places t u → Ends places (f t) (g u)) :
    Ends places (x >>= f) (y >>= g) := by
  cases h with
  | failed e => exact .failed e
  | passed agree => exact hnext _ _ rfl rfl agree

/-! ## Parts of orders -/

theorem ends_debit (h : Agree places t u) {account : String} (hplace : places (.balance account))
    (amount : Amount) : Ends places (t.debit account amount) (u.debit account amount) := by
  unfold debit
  rw [h.balanceOf_eq hplace]
  split
  · exact .failed _
  · exact .passed (h.set _ _)

theorem ends_draw (h : Agree places t u) {owner spender : String}
    (hplace : places (.allowance owner spender)) (amount : Amount) :
    Ends places (t.draw owner spender amount) (u.draw owner spender amount) := by
  have hallowance : t.allowanceOf owner spender = u.allowanceOf owner spender := by
    have hget : t.allowance owner spender = u.allowance owner spender := h _ hplace
    rw [allowanceOf, allowanceOf, hget]
  unfold draw
  dsimp only
  rw [hallowance]
  split
  · exact .failed _
  · exact .passed (h.set _ _)

/-- A credit that cannot fail needs no agreement on the account, and keeps it where there is. -/
theorem ends_credit (h : Agree places t u) {account : String}
    (ht : (t.balanceOf account).val + amount.val < Amount.bound)
    (hu : (u.balanceOf account).val + amount.val < Amount.bound) :
    Ends places (t.credit account amount) (u.credit account amount) := by
  rw [credit, credit, Amount.plus, Amount.plus, dif_pos ht, dif_pos hu]
  refine .passed fun slot hslot => ?_
  rw [get_set, get_set]
  split
  · next heq =>
    subst heq
    have hbalance := h.balanceOf_eq hslot
    simp only [hbalance]
  · exact h slot hslot

theorem ends_retire (h : Agree places t u) {supply supply' : Amount} (ht : t.supply = some supply)
    (hu : u.supply = some supply') (hcovered : amount.val ≤ supply.val)
    (hcovered' : amount.val ≤ supply'.val) :
    Ends places (t.retire amount) (u.retire amount) := by
  have hnot : ¬ supply < amount := Nat.not_lt.2 hcovered
  have hnot' : ¬ supply' < amount := Nat.not_lt.2 hcovered'
  rw [retire, retire, ht, hu]
  dsimp only
  rw [if_neg hnot, if_neg hnot']
  refine .passed fun slot hslot => ?_
  rw [get_set, get_set]
  split
  · next heq =>
    subst heq
    have hsupply : t.supply = u.supply := h _ hslot
    rw [ht, hu, Option.some.injEq] at hsupply
    rw [hsupply]
  · exact h slot hslot

theorem balanceOf_add_lt_of_debit (hfinite : t.Finite) (hbound : t.total < Amount.bound)
    {account : String} (h : t.debit account amount = .ok t') (other : String) :
    (t'.balanceOf other).val + amount.val < Amount.bound := by
  obtain ⟨hfinite', htotal, -⟩ := debit_total hfinite h
  have hle := balanceOf_le_total hfinite' other
  omega

theorem ends_move (h : Agree places t u) {sender : String} (hplace : places (.balance sender))
    (ht : t.Finite) (hu : u.Finite) (hbound : t.total < Amount.bound)
    (hbound' : u.total < Amount.bound) (recipient : String) (amount : Amount) :
    Ends places (t.move sender recipient amount) (u.move sender recipient amount) := by
  refine (ends_debit h hplace amount).bind fun t₁ u₁ hdebit hdebit' hagree => ?_
  exact ends_credit hagree (balanceOf_add_lt_of_debit ht hbound hdebit recipient)
    (balanceOf_add_lt_of_debit hu hbound' hdebit' recipient)

theorem supply_of_debit (ht : t.Backed) {account : String} (h : t.debit account amount = .ok t') :
    ∃ supply, t'.supply = some supply ∧ amount.val ≤ supply.val := by
  obtain ⟨hfunds, -⟩ := set_of_debit h
  obtain ⟨-, -, hsame⟩ := debit_total ht.finite h
  obtain ⟨supply, hsupply⟩ := Option.ne_none_iff_exists'.1 ht.recorded
  have hle := balanceOf_le_total ht.finite account
  rw [ht.conserved, supplyOf, hsupply, Option.getD_some] at hle
  exact ⟨supply, hsame.trans hsupply, hfunds.trans hle⟩

/-! ## Orders -/

/-- An order ends alike on two tokens that agree on what it draws on, and where else they agreed
they still do. -/
theorem ends_carryOut (ht : t.Backed) (hu : u.Backed) (h : Agree places t u) {order : Order}
    (hsources : ∀ slot ∈ order.sources sender, places slot) :
    Ends places (t.carryOut sender order) (u.carryOut sender order) := by
  cases order with
  | transfer recipient amount =>
    have hsender := hsources (.balance sender) (by simp [Order.sources])
    exact ends_move h hsender ht.finite hu.finite ht.total_lt hu.total_lt recipient amount
  | approve spender amount => exact .passed (h.set _ _)
  | transferFrom owner recipient amount =>
    have hallowance := hsources (.allowance owner sender) (by simp [Order.sources])
    have howner := hsources (.balance owner) (by simp [Order.sources])
    refine (ends_draw h hallowance amount).bind fun t₁ u₁ hdraw hdraw' hagree => ?_
    obtain ⟨hfinite, htotal, -⟩ := draw_total ht.finite hdraw
    obtain ⟨hfinite', htotal', -⟩ := draw_total hu.finite hdraw'
    have hbound := ht.total_lt
    have hbound' := hu.total_lt
    exact ends_move hagree howner hfinite hfinite' (by omega) (by omega) recipient amount
  | burn amount =>
    have hsender := hsources (.balance sender) (by simp [Order.sources])
    refine (ends_debit h hsender amount).bind fun t₁ u₁ hdebit hdebit' hagree => ?_
    obtain ⟨supply, hsupply, hcovered⟩ := supply_of_debit ht hdebit
    obtain ⟨supply', hsupply', hcovered'⟩ := supply_of_debit hu hdebit'
    exact ends_retire hagree hsupply hsupply' hcovered hcovered'

/-- An order changes no place outside its footprint. -/
theorem get_carryOut_of_notMem {order : Order} (h : t.carryOut sender order = .ok t')
    {slot : Slot} (hslot : slot ∉ order.footprint sender) : t'.get slot = t.get slot := by
  cases order with
  | transfer recipient amount =>
    obtain ⟨debited, hdebit, hcredit⟩ := parts_of_transfer h
    obtain ⟨-, rfl⟩ := set_of_debit hdebit
    obtain ⟨total, -, rfl⟩ := set_of_credit hcredit
    simp only [Order.footprint, List.mem_cons, List.not_mem_nil, or_false, not_or] at hslot
    rw [get_set, if_neg hslot.2, get_set, if_neg hslot.1]
  | approve spender amount =>
    simp only [Order.footprint, List.mem_cons, List.not_mem_nil, or_false] at hslot
    rw [parts_of_approve h, allow, get_set, if_neg hslot]
  | transferFrom owner recipient amount =>
    obtain ⟨drawn, debited, hdraw, hdebit, hcredit⟩ := parts_of_transferFrom h
    obtain ⟨-, rfl⟩ := set_of_draw hdraw
    obtain ⟨-, rfl⟩ := set_of_debit hdebit
    obtain ⟨total, -, rfl⟩ := set_of_credit hcredit
    simp only [Order.footprint, List.mem_cons, List.not_mem_nil, or_false, not_or] at hslot
    rw [get_set, if_neg hslot.2.2, get_set, if_neg hslot.2.1, allow, get_set, if_neg hslot.1]
  | burn amount =>
    obtain ⟨debited, hdebit, hretire⟩ := parts_of_burn h
    obtain ⟨-, rfl⟩ := set_of_debit hdebit
    obtain ⟨supply, -, -, rfl⟩ := set_of_retire hretire
    simp only [Order.footprint, List.mem_cons, List.not_mem_nil, or_false, not_or] at hslot
    rw [get_set, if_neg hslot.2, get_set, if_neg hslot.1]

/-! ## Two orders -/

section

variable {senderA senderB : String} {a b : Order} {afterA afterB left right : Token}

theorem balance_comm (ha : t.carryOut senderA a = .ok afterA)
    (hb : t.carryOut senderB b = .ok afterB)
    (hab : afterA.carryOut senderB b = .ok left)
    (hba : afterB.carryOut senderA a = .ok right) {account : String}
    (hmema : Slot.balance account ∈ a.footprint senderA)
    (hmemb : Slot.balance account ∈ b.footprint senderB) :
    left.get (.balance account) = right.get (.balance account) := by
  have hfirst := balanceOf_carryOut ha account
  have hsecond := balanceOf_carryOut hab account
  have hfirst' := balanceOf_carryOut hb account
  have hsecond' := balanceOf_carryOut hba account
  obtain ⟨x, hx⟩ := Option.ne_none_iff_exists'.1 (carryOut_admits hab _ hmemb)
  obtain ⟨y, hy⟩ := Option.ne_none_iff_exists'.1 (carryOut_admits hba _ hmema)
  have hx' : left.balance account = some x := hx
  have hy' : right.balance account = some y := hy
  rw [balanceOf, hx', Option.getD_some] at hsecond
  rw [balanceOf, hy', Option.getD_some] at hsecond'
  have hxy : x = y := by
    apply Amount.ext_val
    omega
  rw [hx, hy, hxy]

theorem supply_comm (ht : t.Backed) (ha : t.carryOut senderA a = .ok afterA)
    (hb : t.carryOut senderB b = .ok afterB)
    (hab : afterA.carryOut senderB b = .ok left)
    (hba : afterB.carryOut senderA a = .ok right) : left.supply = right.supply := by
  obtain ⟨supply, hsupply⟩ := Option.ne_none_iff_exists'.1 ht.recorded
  obtain ⟨first, hfirst, hfirstBurned⟩ := supply_carryOut ha hsupply
  obtain ⟨x, hx, hxBurned⟩ := supply_carryOut hab hfirst
  obtain ⟨first', hfirst', hfirstBurned'⟩ := supply_carryOut hb hsupply
  obtain ⟨y, hy, hyBurned⟩ := supply_carryOut hba hfirst'
  have hxy : x = y := by
    apply Amount.ext_val
    omega
  rw [hx, hy, hxy]

/-- At a place of the first of two orders only, it does not matter which goes first. -/
theorem get_comm_of_notMem (ht : t.Backed) (htb : afterB.Backed)
    (hsources : ∀ slot ∈ a.sources senderA, slot ∉ b.footprint senderB)
    (ha : t.carryOut senderA a = .ok afterA)
    (hb : t.carryOut senderB b = .ok afterB)
    (hab : afterA.carryOut senderB b = .ok left)
    (hba : afterB.carryOut senderA a = .ok right) {slot : Slot}
    (hslot : slot ∉ b.footprint senderB) : left.get slot = right.get slot := by
  have hagree : Agree (· ∉ b.footprint senderB) t afterB :=
    fun other hother => (get_carryOut_of_notMem hb hother).symm
  have hends : Ends _ (t.carryOut senderA a) (afterB.carryOut senderA a) :=
    ends_carryOut ht htb hagree hsources
  rw [ha, hba] at hends
  cases hends with
  | passed hsame => rw [get_carryOut_of_notMem hab hslot, hsame slot hslot]

/-- Two independent orders that succeed leave the same token, whichever goes first. -/
theorem comm_of_independent (ht : t.Backed) (hta : afterA.Backed) (htb : afterB.Backed)
    (hindependent : Order.Independent senderA a senderB b)
    (ha : t.carryOut senderA a = .ok afterA)
    (hb : t.carryOut senderB b = .ok afterB)
    (hab : afterA.carryOut senderB b = .ok left)
    (hba : afterB.carryOut senderA a = .ok right) : left = right := by
  apply ext_get
  intro slot
  by_cases hmemb : slot ∈ b.footprint senderB
  · by_cases hmema : slot ∈ a.footprint senderA
    · rcases hindependent slot hmema hmemb with rfl | ⟨account, rfl, -, -⟩
      · exact supply_comm ht ha hb hab hba
      · exact balance_comm ha hb hab hba hmema hmemb
    · have hsources : ∀ slot ∈ b.sources senderB, slot ∉ a.footprint senderA :=
        fun _ => hindependent.symm.notMem
      exact (get_comm_of_notMem ht hta hsources hb ha hba hab hmema).symm
  · have hsources : ∀ slot ∈ a.sources senderA, slot ∉ b.footprint senderB :=
      fun _ => hindependent.notMem
    exact get_comm_of_notMem ht htb hsources ha hb hab hba hmemb

end

end Token

end FungibleLedger
