import FungibleLedger.Proofs.Host.Starts
import FungibleLedger.Proofs.Ledger.Independence

/-!
# The order of independent commands

After every run that has started the ledger, two commands that are independent may change places:
each ends as it did, and the store holds the same in the end (`Host.execute_comm`).

The commands act on the token in the store (`Host.executeTyped_result_eq`), where one of them leaves
alone what the other draws on (`Token.ends_carryOut`). A sound store is known by its token and its
metadata (`Ledger.Sound.get?_eq`), so in the end tokens are compared.
-/

namespace FungibleLedger

namespace Ledger

variable {s t : Store} {metadata : Metadata} {supply supply' : Amount}

theorem Started.backed (hs : Started s metadata supply) : (Token.ofStore s).Backed where
  finite := Token.finite_ofStore s
  conserved := hs.sound.conserved
  recorded := by
    rw [hs.supply_eq]
    exact nofun

/-- A sound store has no other records than those of its token and its metadata. -/
theorem Sound.get?_eq (hs : Sound s) (ht : Sound t) (htoken : Token.ofStore s = Token.ofStore t)
    (hmetadata : s.get? metadataPlace = t.get? metadataPlace) (key : Bytes) :
    s.get? key = t.get? key := by
  by_cases hkey : IsKey key
  · rcases hkey with rfl | ⟨slot, hfits, rfl⟩
    · exact hmetadata
    · rw [hs.readable.get?_key hfits, ht.readable.get?_key hfits, ← Token.get_ofStore,
        ← Token.get_ofStore, htoken]
  · have hnone : ∀ {u : Store}, Sound u → u.get? key = none := by
      intro u hu
      by_contra hsome
      obtain ⟨raw, hraw⟩ := Option.ne_none_iff_exists'.1 hsome
      exact hkey (hu.tidy key raw hraw)
    rw [hnone hs, hnone ht]

end Ledger

/-- Whether two commands meet at most as two independent orders do. One that has a broken text is no
order, and so meets no other. -/
def Command.Independent (senderA : AnyText) (a : Command) (senderB : AnyText) (b : Command) :
    Prop :=
  ∀ accountA orderA accountB orderB, a.orderBy? senderA = some (accountA, orderA) →
    b.orderBy? senderB = some (accountB, orderB) →
      Order.Independent accountA orderA accountB orderB

namespace Command.Independent

variable {senderA senderB : AnyText} {a b : Command}

theorem symm (h : Independent senderA a senderB b) : Independent senderB b senderA a :=
  fun _ _ _ _ hb ha => (h _ _ _ _ ha hb).symm

theorem notMem (h : Independent senderA a senderB b) {account : String} {order : Order}
    (ha : a.orderBy? senderA = some (account, order)) {slot : Slot}
    (hslot : slot ∈ order.sources account) : slot ∉ b.footprint senderB := by
  rw [footprint]
  cases hb : b.orderBy? senderB with
  | none => exact List.not_mem_nil
  | some other => exact (h _ _ _ _ ha hb).notMem hslot

end Command.Independent

namespace Host

variable {g g' : Host} {metadata : Metadata} {supply supply' : Amount} {sender : AnyText}
  {command : Command} {account : String} {order : Order} {response : Response}

/-! ## One command -/

theorem executeTyped_result_congr (hledger : g'.ledger = g.ledger)
    (hs : Ledger.Started g.store metadata supply) (hs' : Ledger.Started g'.store metadata supply')
    {places : Slot → Prop}
    (hagree : Token.Agree places (Token.ofStore g.store) (Token.ofStore g'.store))
    (hsources : ∀ account order, command.orderBy? sender = some (account, order) →
      ∀ slot ∈ order.sources account, places slot) :
    (g'.executeTyped sender command).result = (g.executeTyped sender command).result := by
  obtain ⟨account, order, hresolve, hfits⟩ | ⟨e, -, hfails⟩ :=
    Ledger.resolve_cases g.ledger sender command
  · have hresolve' : g'.ledger.resolve sender command = .ok (account, order) := by
      rw [hledger, hresolve]
    rw [executeTyped_result_eq hresolve hs.sound.readable hfits,
      executeTyped_result_eq hresolve' hs'.sound.readable hfits]
    have hends : Token.Ends places ((Token.ofStore g.store).carryOut account order)
        ((Token.ofStore g'.store).carryOut account order) :=
      Token.ends_carryOut hs.backed hs'.backed hagree
        (hsources account order (Ledger.orderBy?_of_resolve hresolve))
    generalize (Token.ofStore g.store).carryOut account order = x,
      (Token.ofStore g'.store).carryOut account order = y at hends
    cases hends with
    | failed e => rfl
    | passed agree => rfl
  · rw [executeTyped_of_failing hfails rfl, executeTyped_of_failing hfails hledger]

theorem ledger_executeTyped : (g.executeTyped sender command).host.ledger = g.ledger := by
  rw [executeTyped_host]

theorem exists_resolve_of_executeTyped
    (hresult : (g.executeTyped sender command).result = .ok response) :
    ∃ account order, g.ledger.resolve sender command = .ok (account, order) := by
  obtain ⟨account, order, hresolve, -⟩ | ⟨e, -, hfails⟩ :=
    Ledger.resolve_cases g.ledger sender command
  · exact ⟨account, order, hresolve⟩
  · rw [executeTyped_of_failing hfails rfl] at hresult
    cases hresult

theorem token_of_executeTyped (hresolve : g.ledger.resolve sender command = .ok (account, order))
    (hstore : Ledger.Readable g.store)
    (hresult : (g.executeTyped sender command).result = .ok response) :
    (Token.ofStore g.store).carryOut account order =
      .ok (Token.ofStore (g.executeTyped sender command).host.store) := by
  rw [executeTyped_result, Ledger.execute_of_resolve hresolve] at hresult
  rw [executeTyped_host, Ledger.execute_of_resolve hresolve]
  obtain ⟨token, htoken, -, hafter⟩ := token_of_run hstore (Prod.ext hresult rfl)
  rw [htoken, ← hafter]

theorem started_executeTyped (hs : Ledger.Started g.store metadata supply) (sender : AnyText)
    (command : Command) :
    ∃ rest, Ledger.Started (g.executeTyped sender command).host.store metadata rest := by
  have hstep := g.step_execute sender (.typed command)
  obtain ⟨rest, hrest, -⟩ := hstep.keeps_started hs
  exact ⟨rest, hrest⟩

/-- Whether a command succeeds or fails, the token changes only at the places of the command. -/
theorem agree_executeTyped (hstore : Ledger.Readable g.store) :
    Token.Agree (· ∉ command.footprint sender) (Token.ofStore g.store)
      (Token.ofStore (g.executeTyped sender command).host.store) := by
  intro slot hslot
  cases hresult : (g.executeTyped sender command).result with
  | error e => rw [executeTyped_host_of_error hresult]
  | ok response =>
    obtain ⟨account, order, hresolve⟩ := exists_resolve_of_executeTyped hresult
    rw [Ledger.footprint_of_resolve hresolve] at hslot
    have htoken := token_of_executeTyped hresolve hstore hresult
    exact (Token.get_carryOut_of_notMem htoken hslot).symm

/-! ## Two commands -/

section

variable {senderA senderB : AnyText} {a b : Command}

/-- A command ends after an independent one as it would before. -/
theorem result_comm (hs : Ledger.Started g.store metadata supply)
    (hindependent : Command.Independent senderA a senderB b) :
    ((g.executeTyped senderB b).host.executeTyped senderA a).result =
      (g.executeTyped senderA a).result := by
  obtain ⟨rest, hrest⟩ := started_executeTyped hs senderB b
  exact executeTyped_result_congr ledger_executeTyped hs hrest
    (agree_executeTyped hs.sound.readable) fun _ _ horder _ => hindependent.notMem horder

theorem store_comm (hs : Ledger.Started g.store metadata supply)
    (hindependent : Command.Independent senderA a senderB b) (key : Bytes) :
    ((g.executeTyped senderA a).host.executeTyped senderB b).host.store.get? key =
      ((g.executeTyped senderB b).host.executeTyped senderA a).host.store.get? key := by
  have hresultA := result_comm hs hindependent
  have hresultB := result_comm hs hindependent.symm
  cases hA : (g.executeTyped senderA a).result with
  | error e =>
    rw [executeTyped_host_of_error hA, executeTyped_host_of_error (hresultA.trans hA)]
  | ok responseA =>
    cases hB : (g.executeTyped senderB b).result with
    | error e =>
      rw [executeTyped_host_of_error hB, executeTyped_host_of_error (hresultB.trans hB)]
    | ok responseB =>
      obtain ⟨accountA, orderA, horderA⟩ := exists_resolve_of_executeTyped hA
      obtain ⟨accountB, orderB, horderB⟩ := exists_resolve_of_executeTyped hB
      obtain ⟨restA, hsA⟩ := started_executeTyped hs senderA a
      obtain ⟨restB, hsB⟩ := started_executeTyped hs senderB b
      obtain ⟨_, hsAB⟩ := started_executeTyped hsA senderB b
      obtain ⟨_, hsBA⟩ := started_executeTyped hsB senderA a
      -- both are the same orders when they go second
      have horderAB : (g.executeTyped senderA a).host.ledger.resolve senderB b =
          .ok (accountB, orderB) := by
        rw [ledger_executeTyped, horderB]
      have horderBA : (g.executeTyped senderB b).host.ledger.resolve senderA a =
          .ok (accountA, orderA) := by
        rw [ledger_executeTyped, horderA]
      refine hsAB.sound.get?_eq hsBA.sound ?_ ?_ key
      · exact Token.comm_of_independent hs.backed hsA.backed hsB.backed
          (hindependent _ _ _ _ (Ledger.orderBy?_of_resolve horderA)
            (Ledger.orderBy?_of_resolve horderB))
          (token_of_executeTyped horderA hs.sound.readable hA)
          (token_of_executeTyped horderB hs.sound.readable hB)
          (token_of_executeTyped horderAB hsA.sound.readable (hresultB.trans hB))
          (token_of_executeTyped horderBA hsB.sound.readable (hresultA.trans hA))
      · rw [hsAB.metadata_eq, hsBA.metadata_eq]

end

/-- Whether two calls may change places: each has the same result in both orders, be it an answer or
a failure, and the store has the same records in the end. -/
structure Commute (g : Host) (senderA : AnyText) (messageA : Incoming Command) (senderB : AnyText)
    (messageB : Incoming Command) : Prop where
  left : ((g.execute senderB messageB).host.execute senderA messageA).result =
    (g.execute senderA messageA).result
  right : ((g.execute senderA messageA).host.execute senderB messageB).result =
    (g.execute senderB messageB).result
  store : ∀ key, ((g.execute senderA messageA).host.execute senderB messageB).host.store.get? key =
    ((g.execute senderB messageB).host.execute senderA messageA).host.store.get? key

/-- After every run that has started the ledger, two independent commands may change places. -/
theorem execute_comm (h : Host) (hempty : ∀ key, h.store.get? key = none) (calls : List Call)
    (hstarted : (h.afterAll calls).isInitialized = true) {senderA senderB : AnyText}
    {messageA messageB : Incoming Command} {a b : Command} (ha : messageA.command? = some a)
    (hb : messageB.command? = some b) (hindependent : Command.Independent senderA a senderB b) :
    (h.afterAll calls).Commute senderA messageA senderB messageB := by
  obtain ⟨metadata, supply, hs⟩ := exists_started_of_initialized hempty hstarted
  have hA : ∀ g : Host, g.execute senderA messageA = g.executeTyped senderA a :=
    fun g => g.execute_eq_typed senderA ha
  have hB : ∀ g : Host, g.execute senderB messageB = g.executeTyped senderB b :=
    fun g => g.execute_eq_typed senderB hb
  constructor
  · rw [hA, hA, hB]
    exact result_comm hs hindependent
  · rw [hA, hB, hB]
    exact result_comm hs hindependent.symm
  · intro key
    rw [hA, hB, hB, hA]
    exact store_comm hs hindependent key

/-- A transfer and a delegated transfer that uses up an allowance, to a recipient who had no record;
and two burns, which meet in the supply, of which one fails. -/
theorem execute_comm_meeting :
    let host : Host := ⟨⟨.simple, ⟨3, 30, 3, 6⟩⟩, .memory .empty, none, .none⟩
    let genesis : Genesis := ⟨.whole "Token", .whole "TOK", 6,
      [⟨.whole "alice", ⟨70, by decide⟩⟩, ⟨.whole "bob", ⟨30, by decide⟩⟩]⟩
    let calls : List Call := [.instantiate "alice" (.typed genesis),
      .execute "bob" (.typed (.approve "dave" ⟨5, by decide⟩))]
    let a : Order := .transfer "carol" ⟨20, by decide⟩
    let b : Order := .transferFrom "bob" "carol" ⟨5, by decide⟩
    let burnA : Order := .burn ⟨71, by decide⟩
    let burnB : Order := .burn ⟨30, by decide⟩
    (∀ key, host.store.get? key = none) ∧ (host.afterAll calls).isInitialized = true ∧
      Command.Independent "alice" a "dave" b ∧ Command.Independent "alice" burnA "bob" burnB ∧
      ((host.afterAll calls).execute "dave" (.typed b)).result = .ok (b.response "dave") ∧
      (host.afterAll calls).Commute "alice" (.typed a) "dave" (.typed b) ∧
      ((host.afterAll calls).execute "alice" (.typed burnA)).result =
        .error (.insufficientFunds ⟨70, by decide⟩ ⟨71, by decide⟩) ∧
      (host.afterAll calls).Commute "alice" (.typed burnA) "bob" (.typed burnB) := by
  intro host genesis calls a b burnA burnB
  have hempty : ∀ key, host.store.get? key = none := fun _ => rfl
  have hstarted : (host.afterAll calls).isInitialized = true := by decide +kernel
  have htransfers : Command.Independent "alice" a "dave" b := by
    rintro _ _ _ _ ⟨⟩ ⟨⟩ slot ha hb
    simp only [Order.footprint, List.mem_cons, List.not_mem_nil, or_false] at ha hb
    rcases ha with rfl | rfl
    · exact absurd hb (by decide)
    · exact Or.inr ⟨"carol", rfl, by decide, by decide⟩
  have hburns : Command.Independent "alice" burnA "bob" burnB := by
    rintro _ _ _ _ ⟨⟩ ⟨⟩ slot ha hb
    simp only [Order.footprint, List.mem_cons, List.not_mem_nil, or_false] at ha hb
    rcases ha with rfl | rfl
    · exact absurd hb (by decide)
    · exact Or.inl rfl
  have hreads : ∀ order : Order, (Incoming.typed (order : Command)).command? = some ↑order :=
    fun _ => rfl
  exact ⟨hempty, hstarted, htransfers, hburns, by decide +kernel,
    execute_comm host hempty calls hstarted (hreads a) (hreads b) htransfers, by decide +kernel,
    execute_comm host hempty calls hstarted (hreads burnA) (hreads burnB) hburns⟩

end Host

end FungibleLedger
