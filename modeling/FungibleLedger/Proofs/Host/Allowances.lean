import FungibleLedger.Proofs.Host.Invariant

/-!
# Allowances over runs

What a spender may still draw from an owner, together with what it has drawn since the owner's last
grant, is that grant (`Host.allowance_add_drawnSince`). The history of a run decides both sums: an
order is a grant, or draws, or has nothing to do with the pair (`Token.allowanceOf_carryOut`).

* `Order.grant?`, `Order.drawn` : what an order does to the allowance of a pair.
* `lastGrant`, `drawnSince` : the last grant in a history, and what was drawn after it.
* `Accounted` : the invariant of runs, for one pair.
-/

namespace FungibleLedger

namespace Order

/-- The allowance that an order of a sender grants to a spender of an owner, if it does. -/
def grant? (owner spender sender : String) : Order → Option Amount
  | .approve grantee amount => if sender = owner ∧ grantee = spender then some amount else none
  | _ => none

/-- What an order of a sender draws from the allowance of a spender of an owner. -/
def drawn (owner spender sender : String) : Order → ℕ
  | .transferFrom source _ amount => if source = owner ∧ sender = spender then amount.val else 0
  | _ => 0

end Order

variable (owner spender : String)

/-- The last grant in a history, or nothing. -/
def lastGrant (history : List (String × Order)) : ℕ :=
  match history.reverse.findSome? fun entry => entry.2.grant? owner spender entry.1 with
  | some amount => amount.val
  | none => 0

/-- What was drawn in a history after the last grant. -/
def drawnSince (history : List (String × Order)) : ℕ :=
  let since := history.reverse.takeWhile fun entry => (entry.2.grant? owner spender entry.1).isNone
  (since.map fun entry => entry.2.drawn owner spender entry.1).sum

/-- Whether what is left of an allowance and what was drawn of it since the last grant make up that
grant. -/
def Accounted (history : List (String × Order)) (t : Token) : Prop :=
  (t.allowanceOf owner spender).val + drawnSince owner spender history =
    lastGrant owner spender history

/-! ## One more order -/

theorem lastGrant_concat (history : List (String × Order)) (sender : String)
    (order : Order) :
    lastGrant owner spender (history ++ [(sender, order)]) =
      ((order.grant? owner spender sender).map Amount.val).getD
        (lastGrant owner spender history) := by
  unfold lastGrant
  rw [List.reverse_append, List.reverse_singleton, List.singleton_append, List.findSome?_cons]
  cases order.grant? owner spender sender <;> rfl

theorem drawnSince_concat (history : List (String × Order)) (sender : String)
    (order : Order) :
    drawnSince owner spender (history ++ [(sender, order)]) =
      if (order.grant? owner spender sender).isSome then 0
      else order.drawn owner spender sender + drawnSince owner spender history := by
  unfold drawnSince
  rw [List.reverse_append, List.reverse_singleton, List.singleton_append, List.takeWhile_cons]
  cases order.grant? owner spender sender with
  | some amount => rfl
  | none => exact List.sum_cons

/-- A grant is the new allowance, and any other order takes from the allowance what it draws. -/
theorem Token.allowanceOf_carryOut {t t' : Token} {sender : String}
    {order : Order} (h : t.carryOut sender order = .ok t') :
    match order.grant? owner spender sender with
    | some amount => t'.allowanceOf owner spender = amount
    | none => (t'.allowanceOf owner spender).val + order.drawn owner spender sender =
        (t.allowanceOf owner spender).val := by
  cases order with
  | transfer recipient amount =>
    obtain ⟨debited, hdebit, hcredit⟩ := parts_of_transfer h
    dsimp only [Order.grant?, Order.drawn]
    rw [allowanceOf_credit hcredit, allowanceOf_debit hdebit, Nat.add_zero]
  | approve grantee amount =>
    rw [parts_of_approve h, Order.grant?, allowanceOf_allow]
    by_cases hpair : sender = owner ∧ grantee = spender
    · obtain ⟨rfl, rfl⟩ := hpair
      rw [if_pos ⟨rfl, rfl⟩, if_pos ⟨rfl, rfl⟩]
    · have hpair' : ¬ (owner = sender ∧ spender = grantee) := fun h => hpair ⟨h.1.symm, h.2.symm⟩
      rw [if_neg hpair, if_neg hpair']
      rfl
  | transferFrom source recipient amount =>
    obtain ⟨drawn, debited, hdraw, hdebit, hcredit⟩ := parts_of_transferFrom h
    dsimp only [Order.grant?, Order.drawn]
    rw [allowanceOf_credit hcredit, allowanceOf_debit hdebit]
    exact allowanceOf_draw hdraw owner spender
  | burn amount =>
    obtain ⟨debited, hdebit, hretire⟩ := parts_of_burn h
    obtain ⟨supply, -, -, rfl⟩ := set_of_retire hretire
    show (debited.allowanceOf owner spender).val + 0 = (t.allowanceOf owner spender).val
    rw [allowanceOf_debit hdebit, Nat.add_zero]

/-- A grant starts the account anew, and every other order draws what it takes. -/
theorem Accounted.carryOut {history : List (String × Order)} {t t' : Token}
    {sender : String} {order : Order}
    (ht : Accounted owner spender history t) (h : t.carryOut sender order = .ok t') :
    Accounted owner spender (history ++ [(sender, order)]) t' := by
  have hafter := Token.allowanceOf_carryOut owner spender h
  rw [Accounted] at ht
  rw [Accounted, lastGrant_concat, drawnSince_concat]
  cases hgrant : order.grant? owner spender sender with
  | some amount =>
    rw [hgrant] at hafter
    dsimp only at hafter
    rw [hafter]
    rfl
  | none =>
    rw [hgrant] at hafter
    dsimp only at hafter
    rw [Option.isSome_none, if_neg Bool.false_ne_true, Option.map_none, Option.getD_none]
    omega

/-! ## Runs -/

theorem Ledger.key_ne_of_genesisWrite {l : Ledger} {g : Genesis} {mutation : Mutation}
    (h : GenesisWrite l g mutation) (hfits : (Slot.allowance owner spender).Fits) :
    mutation.1 ≠ (Slot.allowance owner spender).key := by
  rcases h with ⟨slot, hslot, hslotFits, hkey, -⟩ | ⟨metadata, -, rfl⟩
  · rw [hkey]
    apply Slot.key_ne hslotFits hfits
    rintro rfl
    simp [genesisSlots] at hslot
  · exact (Slot.key_ne_metadataPlace _).symm

namespace Host

theorem allowanceOf_started {l : Ledger} {g : Genesis} {response : Response}
    {store after : Store} (hrun : run store (l.instantiate g) = (.ok response, after)) :
    (Token.ofStore after).allowanceOf owner spender =
      (Token.ofStore store).allowanceOf owner spender := by
  obtain ⟨mutations, hallowed, hafter⟩ := run_writes (l.writesOnly_instantiate g) hrun
  rw [Token.allowanceOf_ofStore, Token.allowanceOf_ofStore, Store.amount?, Store.amount?]
  by_cases hfits : (Slot.allowance owner spender).Fits
  · have hsame := Store.get?_applyBatch_of_notMem (s := store) fun m hm =>
      Ledger.key_ne_of_genesisWrite owner spender (hallowed m hm) hfits
    rw [hafter, hsame]
  · rw [if_neg hfits, if_neg hfits]

theorem Step.accounted {h h' : Host} {order : Option (String × Order)}
    {history : List (String × Order)} (hstep : Step h order h')
    (hsound : Ledger.Sound h.store)
    (haccounted : Accounted owner spender history (Token.ofStore h.store)) :
    Accounted owner spender (history ++ order.toList) (Token.ofStore h'.store) := by
  cases hstep with
  | idle =>
    rw [Option.toList_none, List.append_nil]
    exact haccounted
  | started hfresh hrun =>
    rw [Option.toList_none, List.append_nil, Accounted, allowanceOf_started owner spender hrun]
    exact haccounted
  | @applied sender order response store hrun =>
    obtain ⟨token, htoken, -, rfl⟩ := token_of_run hsound.readable hrun
    exact haccounted.carryOut owner spender htoken

/-- In every run from an empty store, what a spender may still draw from an owner and what it has
drawn since the owner's last grant add up to that grant, so it never draws more than that. The rest
of the run does not matter: failed calls, other pairs, the start of the ledger. -/
theorem allowance_add_drawnSince (h : Host) (hempty : ∀ key, h.store.get? key = none)
    (calls : List Call) :
    ∃ allowance : Amount,
      ((utf8 owner).length ≤ Namespace.limit →
        Ledger.allowanceAt (h.afterAll calls).store owner spender = .ok allowance) ∧
      (Namespace.limit < (utf8 owner).length → allowance = .zero) ∧
      allowance.val + drawnSince owner spender (h.applied calls) =
        lastGrant owner spender (h.applied calls) ∧
      drawnSince owner spender (h.applied calls) ≤ lastGrant owner spender (h.applied calls) := by
  have hstart : Accounted owner spender [] (Token.ofStore h.store) := by
    rw [Accounted, Token.allowanceOf_ofStore, Ledger.amount?_of_empty hempty]
    rfl
  obtain ⟨hsound, haccounted⟩ := afterAll_induction
    (P := fun history h => Ledger.Sound h.store ∧
      Accounted owner spender history (Token.ofStore h.store))
    ⟨Ledger.sound_of_empty hempty, hstart⟩
    (fun _ _ _ _ ⟨hsound, haccounted⟩ hstep =>
      ⟨hstep.sound hsound, hstep.accounted owner spender hsound haccounted⟩)
    calls
  rw [Accounted] at haccounted
  refine ⟨_, fun hfits => Ledger.allowanceAt_eq hsound.readable hfits spender, fun hlong => ?_,
    haccounted, by omega⟩
  have hnot : ¬ (Slot.allowance owner spender).Fits := Nat.not_le_of_lt hlong
  rw [Token.allowanceOf_ofStore, Store.amount?, if_neg hnot, Option.getD_none]

/-- A run in which a grant is drawn on twice around a draw that fails. The grant comes before the
start of the ledger. -/
theorem allowance_add_drawnSince_drawnTwice :
    let host : Host := ⟨⟨.simple, ⟨3, 30, 3, 6⟩⟩, .memory .empty, none, .none⟩
    let genesis : Genesis := ⟨.whole "Token", .whole "TOK", 2, [⟨.whole "alice", ⟨50, by decide⟩⟩]⟩
    let draw (amount : Amount) : Call :=
      .execute "bob" (.typed (.transferFrom "alice" "carol" amount))
    let calls : List Call :=
      [.execute "alice" (.typed (.approve "bob" ⟨40, by decide⟩)),
        .instantiate "alice" (.typed genesis), draw ⟨15, by decide⟩, draw ⟨60, by decide⟩,
        draw ⟨5, by decide⟩]
    (∀ key, host.store.get? key = none) ∧
      (host.applied calls).length = 3 ∧ lastGrant "alice" "bob" (host.applied calls) = 40 ∧
      drawnSince "alice" "bob" (host.applied calls) = 20 ∧
      ∃ allowance : Amount, allowance.val + 20 = 40 ∧
        Ledger.allowanceAt (host.afterAll calls).store "alice" "bob" = .ok allowance := by
  intro host genesis draw calls
  have hempty : ∀ key, host.store.get? key = none := fun _ => rfl
  have hgrant : lastGrant "alice" "bob" (host.applied calls) = 40 := by decide +kernel
  have hdrawn : drawnSince "alice" "bob" (host.applied calls) = 20 := by decide +kernel
  obtain ⟨allowance, hallowance, -, hsum, -⟩ :=
    allowance_add_drawnSince "alice" "bob" host hempty calls
  rw [hgrant, hdrawn] at hsum
  exact ⟨hempty, by decide +kernel, hgrant, hdrawn, allowance, hsum, hallowance (by decide)⟩

end Host

end FungibleLedger
