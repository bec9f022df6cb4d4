import PyChain.Transaction.Survivors

/-!
# Removal of a pending transaction

Removal admits every other entry again and lets validation drop what depended on
the removed one.  What goes is exactly the removed entry and its descendants.
-/

namespace PyChain

open Foundation

namespace Mempool

section Removals

variable [Crypto]

/-- The second entry spends an output of the first one. -/
def SpendsOutputOf (parent item : Str × MempoolEntry) : Prop :=
  exists outpoint output, outpoint ∈ item.2.transaction.spentOutpoints ∧
    (outpoint, output) ∈ UTXOSet.outputItems parent.2.transaction

/-- The entries of a pool that are reached from one of them through spent outputs. -/
inductive Descends (pool : Mempool) (txid : Str) : Str × MempoolEntry -> Prop where
  | self {item : Str × MempoolEntry} :
      item ∈ pool.entries.items -> item.1 = txid -> Descends pool txid item
  | spends {parent item : Str × MempoolEntry} :
      Descends pool txid parent -> item ∈ pool.entries.items ->
      SpendsOutputOf parent item -> Descends pool txid item

theorem Descends.mem {pool : Mempool} {txid : Str} {item : Str × MempoolEntry}
    (h : Descends pool txid item) : item ∈ pool.entries.items := by
  cases h with
  | self hmem _ => exact hmem
  | spends _ hmem _ => exact hmem

theorem Representation.coherent {pool : Mempool} (h : pool.Representation) :
    pool.Coherent where
  processes := by
    have hfront : forall items rest, pool.entries.items = items ++ rest ->
        exists working, Processes pool.confirmedUtxos pool.seenTxids
          (items.map (fun item => item.2.transaction))
          (items.map (fun item => item.2.fee)) working := by
      intro items
      induction items using List.reverseRecOn with
      | nil =>
          intro rest _
          exact ⟨pool.confirmedUtxos, Processes.nil _ _⟩
      | append_singleton front item ih =>
          intro rest hsplit
          rw [List.append_assoc, List.singleton_append] at hsplit
          rcases ih (item :: rest) hsplit with ⟨working, hfront⟩
          rcases h.fees front item.1 item.2 rest hsplit with ⟨working', hworking, hfee⟩
          have hreplay := (foldlM_applyValidTransaction_eq_ok_iff _ _ _).mp hworking
          have hsame := OutputLedger.replay_deterministic hfront.replay hreplay
          subst hsame
          have haccepted := (calculateTransactionFee_eq_ok_iff _ _ _).mp hfee
          have hwhole := (foldlM_applyValidTransaction_eq_ok_iff _ _ _).mp h.working
          rw [getTransactions_eq, hsplit] at hwhole
          unfold postings at hwhole
          rw [List.map_append, List.map_append] at hwhole
          rcases OutputLedger.replay_append_split hwhole with ⟨middle, hfirst, hlast⟩
          have hmiddle := OutputLedger.replay_deterministic hreplay hfirst
          subst hmiddle
          have hkeyed := h.keyed item.1 item.2 (by
            rw [hsplit]
            exact List.mem_append_right _ List.mem_cons_self)
          have hnew : item.2.transaction.txid ∉ seenAfter pool.seenTxids
              (front.map (fun item => item.2.transaction)) := by
            have hkeys := pool.entries.nodupKeys
            rw [hsplit, List.map_append, List.map_cons] at hkeys
            unfold seenAfter
            rw [Finset.mem_union, List.mem_toFinset, not_or, ← hkeyed.left]
            refine ⟨hkeyed.right, ?_⟩
            intro hmem
            rcases List.mem_map.mp hmem with ⟨transaction, htransaction, htxid⟩
            rcases List.mem_map.mp htransaction with ⟨other, hother, hsame⟩
            have hotherKeyed := h.keyed other.1 other.2 (by
              rw [hsplit]
              exact List.mem_append_left _ hother)
            refine (List.nodup_append.mp hkeys).right.right other.1
              (List.mem_map_of_mem hother) item.1 List.mem_cons_self ?_
            rw [hotherKeyed.left, ← htxid, ← hsame]
          cases hlast with
          | cons happlies _ =>
              rw [List.map_append, List.map_append]
              exact ⟨_, hfront.snoc ⟨haccepted, hnew, happlies⟩⟩
    rcases hfront pool.entries.items [] (List.append_nil _).symm with ⟨working, hall⟩
    have hworking := (foldlM_applyValidTransaction_eq_ok_iff _ _ _).mp h.working
    rw [getTransactions_eq] at hworking
    have hsame := OutputLedger.replay_deterministic hall.replay hworking
    subst hsame
    rw [getTransactions_eq]
    unfold Dict.values
    rw [List.map_map]
    exact hall
  keyed := by
    intro txid entry hmem
    exact ⟨(h.keyed txid entry hmem).left, h.sizes txid entry hmem⟩
  totalBytes_eq := h.totalBytes_eq
  size_le := h.size_le
  bytes_le := h.bytes_le

variable {pool : Mempool}

omit [Crypto] in
omit [Crypto] in
theorem spender_unique {items : List (Str × MempoolEntry)}
    (hnodup : (items.flatMap (fun item => item.2.transaction.spentOutpoints)).Nodup)
    {item other : Str × MempoolEntry} (hitem : item ∈ items) (hother : other ∈ items)
    {outpoint : OutPoint} (hspent : outpoint ∈ item.2.transaction.spentOutpoints)
    (hspent' : outpoint ∈ other.2.transaction.spentOutpoints) : item = other := by
  by_contra hne
  have hsymm : Std.Symm (Function.onFun List.Disjoint
      (fun item : Str × MempoolEntry => item.2.transaction.spentOutpoints)) :=
    ⟨fun _ _ h => List.Disjoint.symm h⟩
  exact (List.nodup_flatMap.mp hnodup).right.forall hitem hother hne hspent hspent'

theorem Coherent.made_unconfirmed (h : pool.Coherent)
    (hrecorded : RecordedOutputs pool.confirmedUtxos pool.seenTxids)
    {item : Str × MempoolEntry} (hitem : item ∈ pool.entries.items) {outpoint : OutPoint}
    {output : TxOutput}
    (hmade : (outpoint, output) ∈ UTXOSet.outputItems item.2.transaction) :
    outpoint ∉ pool.confirmedUtxos.keys := by
  intro hconfirmed
  apply ((h.representation hrecorded).keyed item.1 item.2 hitem).right
  rw [(h.keyed item.1 item.2 hitem).left, ← outputItems_txid hmade]
  exact hrecorded outpoint hconfirmed

theorem Coherent.maker_unique (h : pool.Coherent) {item other : Str × MempoolEntry}
    (hitem : item ∈ pool.entries.items) (hother : other ∈ pool.entries.items)
    {outpoint : OutPoint} {output output' : TxOutput}
    (hmade : (outpoint, output) ∈ UTXOSet.outputItems item.2.transaction)
    (hmade' : (outpoint, output') ∈ UTXOSet.outputItems other.2.transaction) :
    item = other := by
  apply item_unique hitem hother
  rw [(h.keyed item.1 item.2 hitem).left, (h.keyed other.1 other.2 hother).left,
    ← outputItems_txid hmade, outputItems_txid hmade']

/-- Among the entries that do not descend, an entry is funded exactly when it does
not descend either. -/
theorem Coherent.funded_iff (h : pool.Coherent)
    (hrecorded : RecordedOutputs pool.confirmedUtxos pool.seenTxids) {txid : Str}
    {done rest kept : List (Str × MempoolEntry)} {item : Str × MempoolEntry}
    (hsplit : pool.entries.items = done ++ item :: rest)
    (hkept : forall other, other ∈ kept <-> other ∈ done ∧ ¬ Descends pool txid other)
    (hne : item.1 ≠ txid) :
    Funded pool.confirmedUtxos kept item <-> ¬ Descends pool txid item := by
  have hitem : item ∈ pool.entries.items := by
    rw [hsplit]
    exact List.mem_append_right _ List.mem_cons_self
  have hdone : forall other, other ∈ done -> other ∈ pool.entries.items := by
    intro other hother
    rw [hsplit]
    exact List.mem_append_left _ hother
  constructor
  · intro hfunded hdescends
    cases hdescends with
    | self _ htxid => exact hne htxid
    | @spends parent _ hparent _ hspends =>
        rcases hspends with ⟨outpoint, output, hspent, hmade⟩
        rcases hfunded outpoint hspent with hconfirmed | hkeptMade
        · exact h.made_unconfirmed hrecorded hparent.mem hmade hconfirmed
        · rcases mem_madeBy.mp hkeptMade with ⟨other, output', hother, hmade'⟩
          rcases (hkept other).mp hother with ⟨hotherDone, hnot⟩
          rw [h.maker_unique (hdone other hotherDone) hparent.mem hmade' hmade] at hnot
          exact hnot hparent
  · intro hnot outpoint hspent
    rcases (h.representation hrecorded).provenance done item.1 item.2 rest hsplit outpoint
      hspent with hconfirmed | ⟨parent, output, hparent, hmade⟩
    · exact Or.inl hconfirmed
    · apply Or.inr
      refine mem_madeBy.mpr ⟨parent, output, (hkept parent).mpr ⟨hparent, ?_⟩, hmade⟩
      intro hdescends
      exact hnot (Descends.spends hdescends hitem ⟨outpoint, output, hspent, hmade⟩)

/-- The survivors of the other entries are those that do not descend from the
removed one. -/
theorem Coherent.survivors_iff (h : pool.Coherent)
    (hrecorded : RecordedOutputs pool.confirmedUtxos pool.seenTxids) (txid : Str)
    (item : Str × MempoolEntry) :
    item ∈ survivors pool.confirmedUtxos
        (pool.entries.items.filter (fun item => item.1 ≠ txid)) <->
      item ∈ pool.entries.items ∧ ¬ Descends pool txid item := by
  have hloop : forall rest done kept, pool.entries.items = done ++ rest ->
      (forall other, other ∈ kept <-> other ∈ done ∧ ¬ Descends pool txid other) ->
      (item ∈ survivorsAfter pool.confirmedUtxos kept
          (rest.filter (fun item => item.1 ≠ txid)) <->
        item ∈ pool.entries.items ∧ ¬ Descends pool txid item) := by
    intro rest
    induction rest with
    | nil =>
        intro done kept hsplit hkept
        rw [List.append_nil] at hsplit
        rw [hsplit]
        exact hkept item
    | cons other rest ih =>
        intro done kept hsplit hkept
        have hother : other ∈ pool.entries.items := by
          rw [hsplit]
          exact List.mem_append_right _ List.mem_cons_self
        have hnext : pool.entries.items = (done ++ [other]) ++ rest := by
          rw [hsplit, List.append_assoc]
          rfl
        have hskip : Descends pool txid other ->
            forall entry, entry ∈ kept <->
              entry ∈ done ++ [other] ∧ ¬ Descends pool txid entry := by
          intro hdescends entry
          rw [hkept, List.mem_append, List.mem_singleton]
          constructor
          · intro hentry
            exact ⟨Or.inl hentry.left, hentry.right⟩
          · intro hentry
            rcases hentry with ⟨hdone | heq, hnot⟩
            · exact ⟨hdone, hnot⟩
            · rw [heq] at hnot
              exact absurd hdescends hnot
        by_cases hne : other.1 ≠ txid
        · rw [List.filter_cons_of_pos (by simpa using hne)]
          unfold survivorsAfter
          have hiff := h.funded_iff hrecorded hsplit hkept hne
          by_cases hfunded : Funded pool.confirmedUtxos kept other
          · rw [if_pos hfunded]
            apply ih (done ++ [other]) (kept ++ [other]) hnext
            intro entry
            rw [List.mem_append, List.mem_append, hkept, List.mem_singleton]
            constructor
            · intro hentry
              rcases hentry with hold | heq
              · exact ⟨Or.inl hold.left, hold.right⟩
              · rw [heq]
                exact ⟨Or.inr rfl, hiff.mp hfunded⟩
            · intro hentry
              rcases hentry with ⟨hdone | heq, hnot⟩
              · exact Or.inl ⟨hdone, hnot⟩
              · exact Or.inr heq
          · rw [if_neg hfunded]
            apply ih (done ++ [other]) kept hnext
            apply hskip
            by_contra hnot
            exact hfunded (hiff.mpr hnot)
        · rw [List.filter_cons_of_neg (by simpa using hne)]
          apply ih (done ++ [other]) kept hnext
          exact hskip (Descends.self hother (not_not.mp hne))
  refine hloop pool.entries.items [] [] rfl ?_
  intro other
  simp

/-- Removing a pending transaction leaves exactly the entries that do not descend
from it, unchanged and in their order, and frees what the others had reserved. -/
theorem removeTransaction_descendants (hpool : pool.Representation)
    (hrecorded : RecordedOutputs pool.confirmedUtxos pool.seenTxids) {txid : Str}
    (hpending : pool.hasTransaction txid = true) :
    exists rest, pool.removeTransaction txid = (true, rest) ∧
      rest.entries.items.Sublist pool.entries.items ∧
      (forall item, item ∈ rest.entries.items <->
        item ∈ pool.entries.items ∧ ¬ Descends pool txid item) ∧
      (forall removed, Descends pool txid removed ->
        forall outpoint, outpoint ∈ removed.2.transaction.spentOutpoints ->
          forall output,
            (pool.confirmedUtxos.get? outpoint = some output ∨
              exists survivor, survivor ∈ rest.entries.items ∧
                (outpoint, output) ∈ UTXOSet.outputItems survivor.2.transaction) ->
            rest.workingUtxos.get? outpoint = some output) := by
  have h := hpool.coherent
  rcases removeTransaction_cases pool txid with hsame | ⟨_, hremoved⟩
  · unfold removeTransaction at hsame
    rw [if_neg (by simp [hpending])] at hsame
    cases congrArg Prod.fst hsame
  have hfilter : (pool.entries.items.filter (fun item => item.1 ≠ txid)).Sublist
      pool.entries.items := List.filter_sublist
  have hreplays : Replays pool pool.confirmedUtxos pool.seenTxids
      (pool.entries.items.filter (fun item => item.1 ≠ txid)) := by
    refine ⟨hfilter, hrecorded, ?_, ?_⟩
    · intro item hitem
      exact (hpool.keyed item.1 item.2 (hfilter.subset hitem)).right
    · intro item _ outpoint _ output houtput
      exact OutputLedger.source_of_base houtput
  have hitems := hreplays.replayEntries_items h hrecorded
  have hcoherent := replayEntries_coherent
    (fresh_coherent pool.limits pool.confirmedUtxos pool.seenTxids)
    (pool.entries.items.filter (fun item => item.1 ≠ txid))
  have hbase := replayEntries_sameBase
    (fresh pool.limits pool.confirmedUtxos pool.seenTxids)
    (pool.entries.items.filter (fun item => item.1 ≠ txid))
  refine ⟨_, hremoved, ?_, ?_, ?_⟩
  · rw [hitems]
    exact (survivors_sublist _ _).trans hfilter
  · intro item
    rw [hitems]
    exact h.survivors_iff hrecorded txid item
  · intro removed hdescends outpoint hspent output horigin
    rw [hreplays.working_iff hcoherent hbase rfl]
    refine ⟨horigin, ?_⟩
    intro hused
    rcases List.mem_flatMap.mp hused with ⟨survivor, hsurvivor, hagain⟩
    rw [hitems] at hsurvivor
    rcases (h.survivors_iff hrecorded txid survivor).mp hsurvivor with ⟨hmem, hnot⟩
    have heq := spender_unique (h.spends_nodup hrecorded) hmem hdescends.mem hagain hspent
    rw [heq] at hnot
    exact hnot hdescends

end Removals

end Mempool

namespace Sample

theorem family_contents :
    family.hasTransaction parentTxid = true ∧
      family.entries.items.map (fun item => (item.1, item.2.transaction)) =
        [(parentTxid, parent), (childTxid, child), (spareTxid, spare)] ∧
      (@Mempool.removeTransaction familyCrypto family parentTxid).2.entries.keys =
        [spareTxid] ∧
      family.workingUtxos.get? (transferTxid, 0) = none ∧
      family.confirmedUtxos.get? (transferTxid, 0) = some ⟨30, address⟩ := by
  decide +kernel

end Sample

/-- With the parent goes its child, the spare payment stays, and the coin of the parent
can be spent again. -/
theorem Mempool.removeTransaction_descendants_family :
    exists pool rest, pool = Sample.family ∧
      @Mempool.removeTransaction Sample.familyCrypto pool Sample.parentTxid = (true, rest) ∧
        rest.entries.keys = [Sample.spareTxid] ∧
        (forall item, item ∈ rest.entries.items <-> item ∈ pool.entries.items ∧
          ¬ @Mempool.Descends Sample.familyCrypto pool Sample.parentTxid item) ∧
        (forall item, item ∈ pool.entries.items ->
          item.1 ∈ [Sample.parentTxid, Sample.childTxid] ->
          @Mempool.Descends Sample.familyCrypto pool Sample.parentTxid item) ∧
        pool.workingUtxos.get? (Sample.transferTxid, 0) = none ∧
        rest.workingUtxos.get? (Sample.transferTxid, 0) = some ⟨30, Sample.address⟩ := by
  have hsample : exists pool, pool = Sample.family ∧
      @Mempool.Reachable Sample.familyCrypto pool ∧
      pool.hasTransaction Sample.parentTxid = true ∧
      pool.entries.items.map (fun item => (item.1, item.2.transaction)) =
        [(Sample.parentTxid, Sample.parent), (Sample.childTxid, Sample.child),
          (Sample.spareTxid, Sample.spare)] ∧
      (@Mempool.removeTransaction Sample.familyCrypto pool
        Sample.parentTxid).2.entries.keys = [Sample.spareTxid] ∧
      pool.workingUtxos.get? (Sample.transferTxid, 0) = none ∧
      pool.confirmedUtxos.get? (Sample.transferTxid, 0) = some ⟨30, Sample.address⟩ :=
    ⟨Sample.family, rfl, Sample.payments_reachable _, Sample.family_contents⟩
  rcases hsample with ⟨pool, heq, hreachable, hpending, hitems, hkeys, hreserved, hcoin⟩
  rcases @Mempool.reachable_coherent Sample.familyCrypto pool hreachable with
    ⟨hcoherent, hrecorded⟩
  rcases @Mempool.removeTransaction_descendants Sample.familyCrypto pool
    (@Mempool.Coherent.representation Sample.familyCrypto pool hcoherent hrecorded) hrecorded
    Sample.parentTxid hpending with ⟨rest, hremoved, _, hrest, hfreed⟩
  rw [hremoved] at hkeys
  have hdescends : forall item, item ∈ pool.entries.items ->
      item.1 ∈ [Sample.parentTxid, Sample.childTxid] ->
      @Mempool.Descends Sample.familyCrypto pool Sample.parentTxid item := by
    intro item hitem hgone
    by_contra hnot
    have hkept : item.1 ∈ rest.entries.keys :=
      List.mem_map_of_mem ((hrest item).mpr ⟨hitem, hnot⟩)
    rw [hkeys] at hkept
    rw [List.mem_singleton.mp hkept] at hgone
    revert hgone
    decide +kernel
  have hparent : (Sample.parentTxid, Sample.parent) ∈
      pool.entries.items.map (fun item => (item.1, item.2.transaction)) := by
    rw [hitems]
    exact List.mem_cons_self
  rcases List.mem_map.mp hparent with ⟨item, hitem, hpair⟩
  have hkey : item.1 = Sample.parentTxid := congrArg Prod.fst hpair
  have htransaction : item.2.transaction = Sample.parent := congrArg Prod.snd hpair
  refine ⟨pool, rest, heq, hremoved, hkeys, hrest, hdescends, hreserved, ?_⟩
  apply hfreed item (hdescends item hitem (by rw [hkey]; exact List.mem_cons_self))
  · rw [htransaction]
    exact List.mem_singleton_self _
  · exact Or.inl hcoin

end PyChain
