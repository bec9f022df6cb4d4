import PyChain.Api.AddressDetail

/-!
# Address details while the chain grows

A request reads a view of the chain, then the outputs of the address, and then asks
whether the tip has changed.  If it has, the view and the outputs are read again, and
nothing is compared any more.  The history and the outputs are those of one tip unless
the outputs of the address changed between the last two reads.
-/

namespace PyChain

open Foundation
open OutputLedger (Replay)

namespace Api

section Snapshot

variable [Crypto]

/-!
## Transactions that concern an address
-/

/-- The transaction pays the address or spends a confirmed output of it. -/
def Concerns (blocks : List Block) (address : Str) (transaction : Transaction) : Prop :=
  address ∈ transaction.outputs.map TxOutput.recipientAddress ∨
    SpendsConfirmed blocks address transaction

theorem senders_iff {blocks : List Block} {state : ChainState} {view : ChainView}
    (h : ChainLedger blocks state) (hview : ChainView.Populated blocks view)
    (address : Str) (transaction : Transaction) :
    address ∈ ChainView.senderAddresses view.outputsByOutpoint transaction <->
      SpendsConfirmed blocks address transaction := by
  unfold SpendsConfirmed
  simp only [mem_senderAddresses, List.mem_map, mem_spentOutputs, madeAt_iff h hview]
  constructor
  · rintro ⟨output, ⟨input, hinput, hget⟩, hpays⟩
    exact ⟨input, output, hinput, hget, hpays⟩
  · rintro ⟨input, output, hinput, hget, hpays⟩
    exact ⟨output, ⟨input, hinput, hget⟩, hpays⟩

theorem recordsOf_txids {blocks : List Block} {state : ChainState} {view : ChainView}
    (h : ChainLedger blocks state) (hview : ChainView.Populated blocks view) (height : Nat)
    (transaction : Transaction) (address txid : Str) :
    txid ∈ (Dict.valuesOf (ChainView.recordsOf view.outputsByOutpoint height transaction)
        address).map HistoryRecord.txid <->
      Concerns blocks address transaction ∧ txid = transaction.txid := by
  have hsenders := senders_iff h hview address transaction
  have hone : forall direction amount fee,
      txid ∈ [ChainView.confirmedRecord height transaction direction amount fee].map
          HistoryRecord.txid <->
        txid = transaction.txid := by
    intro direction amount fee
    exact List.mem_singleton
  unfold Concerns
  rw [valuesOf_recordsOf]
  by_cases hempty : transaction.inputs.isEmpty = true
  · have hunspent : ¬ SpendsConfirmed blocks address transaction := by
      rintro ⟨input, _, hinput, _⟩
      rw [List.isEmpty_iff.mp hempty] at hinput
      cases hinput
    rw [if_pos hempty]
    by_cases hpaid : address ∈ transaction.outputs.map TxOutput.recipientAddress
    · rw [if_pos hpaid, hone]
      exact ⟨fun heq => ⟨Or.inl hpaid, heq⟩, fun hboth => hboth.right⟩
    · rw [if_neg hpaid]
      simp [hpaid, hunspent]
  · rw [if_neg hempty]
    by_cases hsender : address ∈
        ChainView.senderAddresses view.outputsByOutpoint transaction
    · rw [if_pos hsender, hone]
      exact ⟨fun heq => ⟨Or.inr (hsenders.mp hsender), heq⟩, fun hboth => hboth.right⟩
    · have hunspent : ¬ SpendsConfirmed blocks address transaction :=
        fun hspends => hsender (hsenders.mpr hspends)
      rw [if_neg hsender]
      by_cases hpaid : address ∈ transaction.outputs.map TxOutput.recipientAddress
      · rw [if_pos hpaid, hone]
        exact ⟨fun heq => ⟨Or.inl hpaid, heq⟩, fun hboth => hboth.right⟩
      · rw [if_neg hpaid]
        simp [hpaid, hunspent]

theorem history_txids {blocks : List Block} {state : ChainState} {view : ChainView}
    (h : ChainLedger blocks state) (hview : ChainView.Populated blocks view)
    (address txid : Str) :
    txid ∈ (view.addressHistory.listAt address).map HistoryRecord.txid <->
      exists transaction, transaction ∈ chainHistory blocks ∧
        Concerns blocks address transaction ∧ txid = transaction.txid := by
  rw [((listAt_perm hview address).map HistoryRecord.txid).mem_iff, List.map_flatMap]
  simp only [List.map_flatMap, List.mem_flatMap, recordsOf_txids h hview, mem_chainHistory]
  constructor
  · rintro ⟨item, hitem, transaction, htransaction, hconcerns, htxid⟩
    exact ⟨transaction, ⟨item.1, List.fst_mem_of_mem_zipIdx hitem, htransaction⟩, hconcerns,
      htxid⟩
  · rintro ⟨transaction, ⟨block, hblock, htransaction⟩, hconcerns, htxid⟩
    rcases List.mem_iff_getElem?.mp hblock with ⟨height, hheight⟩
    exact ⟨(block, height), List.mk_mem_zipIdx_iff_getElem?.mpr hheight, transaction,
      htransaction, hconcerns, htxid⟩

/-!
## Histories determine outputs
-/

theorem outputs_of_unconcerned {blocks more : List Block} {state later : ChainState}
    (h : ChainLedger blocks state) (hlater : ChainLedger (blocks ++ more) later)
    {address : Str} (hnone : forall transaction, transaction ∈ chainHistory more ->
      ¬ Concerns (blocks ++ more) address transaction) :
    later.utxoSet.getUtxosForAddress address = state.utxoSet.getUtxosForAddress address := by
  have hreplay := hlater.replay
  rw [chainHistory_append, postings, List.map_append] at hreplay
  rcases OutputLedger.replay_append_split hreplay with ⟨middle, hfront, hback⟩
  rw [OutputLedger.replay_deterministic hfront h.replay] at hback
  refine @OutputLedger.replay_filter _ _ _ (MadeAt (blocks ++ more)) _ _ _ _ hback ?_ ?_ ?_
  · intro outpoint output hget
    rcases ((h.exact.get?_iff outpoint output).mp hget).left with hbase | hcreated
    · rw [Dict.get?_empty] at hbase
      cases hbase
    · rcases (mem_createdBy_iff _ _ _).mp hcreated with ⟨maker, hmaker, hitem⟩
      rcases (mem_chainHistory _ _).mp hmaker with ⟨block, hblock, hin⟩
      exact ⟨block, maker, List.mem_append_left _ hblock, hin, hitem⟩
  · intro posting hposting entry hentry
    rcases List.mem_map.mp hposting with ⟨maker, hmaker, rfl⟩
    rcases (mem_chainHistory _ _).mp hmaker with ⟨block, hblock, hin⟩
    refine ⟨⟨block, maker, List.mem_append_right _ hblock, hin, hentry⟩, ?_⟩
    rw [decide_eq_false_iff_not]
    intro hpays
    rcases (Posting.mem_created _ entry.1 entry.2).mp hentry with ⟨_, i, _, houtput⟩
    apply hnone maker hmaker
    refine Or.inl ?_
    rw [← hpays]
    exact List.mem_map_of_mem (List.mem_of_getElem? houtput)
  · intro posting hposting outpoint output hspends hmade
    rcases List.mem_map.mp hposting with ⟨spender, hspender, rfl⟩
    rw [decide_eq_false_iff_not]
    intro hpays
    rcases List.mem_map.mp hspends with ⟨input, hinput, rfl⟩
    exact hnone spender hspender (Or.inr ⟨input, output, hinput, hmade, hpays⟩)

theorem outputs_of_history {blocks more : List Block} {state later : ChainState}
    {view newer : ChainView} (h : ChainLedger blocks state)
    (hlater : ChainLedger (blocks ++ more) later)
    (hview : ChainView.Populated blocks view)
    (hnewer : ChainView.Populated (blocks ++ more) newer) {address : Str}
    (hsame : newer.addressHistory.listAt address = view.addressHistory.listAt address) :
    later.utxoSet.getUtxosForAddress address = state.utxoSet.getUtxosForAddress address := by
  apply outputs_of_unconcerned h hlater
  intro transaction hmem hconcerns
  have hwhole : transaction ∈ chainHistory (blocks ++ more) := by
    rw [chainHistory_append]
    exact List.mem_append_right _ hmem
  have hrecord := (history_txids hlater hnewer address transaction.txid).mpr
    ⟨transaction, hwhole, hconcerns, rfl⟩
  rw [hsame] at hrecord
  rcases (history_txids h hview address transaction.txid).mp hrecord with
    ⟨other, hother, _, htxid⟩
  have hnodup := hlater.txids_nodup
  rw [chainHistory_append, List.map_append, List.nodup_append] at hnodup
  exact hnodup.right.right _ (List.mem_map_of_mem hother) _ (List.mem_map_of_mem hmem)
    htxid.symm

omit [Crypto] in
theorem getBalance_eq_outputs (utxos : UTXOSet) (address : Str) :
    utxos.getBalance address =
      ((utxos.getUtxosForAddress address).values.map TxOutput.amount).sum := by
  unfold UTXOSet.getBalance UTXOSet.getUtxosForAddress Dict.values Dict.filter
  rw [List.filter_map]
  rfl

omit [Crypto] in
theorem getAddressInfo_eq_iff {chain other : Blockchain}
    (husable : Blockchain.ensureUsable chain = .ok ())
    (hother : Blockchain.ensureUsable other = .ok ()) (address : Str) :
    chain.getAddressInfo address = other.getAddressInfo address <->
      chain.state.utxoSet.getUtxosForAddress address =
        other.state.utxoSet.getUtxosForAddress address := by
  unfold Blockchain.getAddressInfo
  rw [husable, hother]
  constructor
  · intro h
    exact congrArg AddressInfo.utxos (Except.ok.inj h)
  · intro h
    simp only [getBalance_eq_outputs, h]

/-!
## What a request reads
-/

/-- The history is the one of the chain that was viewed, the outputs are those of the chain
that was queried. -/
def Describes (viewed queried : Blockchain) (collected : Collected) : Prop :=
  exists tip, ValidChain viewed.blocks tip viewed.state ∧
    collected.confirmed =
      (ChainView.of viewed.blocks tip).addressHistory.listAt collected.address ∧
    queried.getAddressInfo collected.address = .ok collected.info

/-- History and outputs are those of one tip, which was current at some moment. -/
def OneTip (before after : Blockchain) (collected : Collected) : Prop :=
  exists moment, Grows before moment ∧ Grows moment after ∧
    Describes moment moment collected

omit [Crypto] in
theorem getAddressInfo_usable {chain : Blockchain}
    (husable : Blockchain.ensureUsable chain = .ok ()) (address : Str) :
    exists info, chain.getAddressInfo address = .ok info := by
  unfold Blockchain.getAddressInfo
  rw [husable]
  exact ⟨_, rfl⟩

theorem tip_hash_eq_iff {chain later : Blockchain} {tip last : Block}
    (hgrows : Grows chain later) (hvalid : ValidChain chain.blocks tip chain.state)
    (hlater : ValidChain later.blocks last later.state) :
    last.hash = tip.hash <-> later.blocks = chain.blocks := by
  constructor
  · intro hhash
    rcases List.getLast?_eq_some_iff.mp hvalid.getLast? with ⟨front, hfront⟩
    have hinitial := hgrows.blocks
    rw [hfront] at hinitial
    rw [hfront]
    exact (prefix_eq_of_hash hlater hinitial hhash.symm).left.symm
  · intro hblocks
    rw [hblocks] at hlater
    rw [(hlater.deterministic hvalid).left]

theorem getLatestBlockInfo_reachable {chain : Blockchain} (h : chain.Reachable) :
    exists tip, ValidChain chain.blocks tip chain.state ∧
      chain.getLatestBlockInfo = .ok (some (tip, (chain.blocks.length : Int) - 1)) := by
  rcases reachable_valid h with ⟨husable, tip, hvalid⟩
  exact ⟨tip, hvalid, getLatestBlockInfo_eq_ok_iff.mpr ⟨husable, hvalid.getLast?, rfl⟩⟩

omit [Crypto] in
theorem ne_nil_of_isHash {text : Str} (h : isHash text = true) : text ≠ [] := by
  rintro rfl
  cases h

/-- What a request has collected, from a view and the outputs of the address. -/
def gather (address : Str) (view : ChainView) (info : AddressInfo) (chain : Blockchain) :
    Collected :=
  { address := address
    info := info
    pending := chain.mempool.entries.values.flatMap (pendingRecord view address)
    confirmed := view.addressHistory.listAt address
    service := { cachedChainView := some view } }

/-- A request describes the first two reads if the tip is the same at the third one, and
the fourth and the fifth if it is not. -/
theorem collectHistory_growing {service : ExplorerService} {reads : Nat -> Nat -> Blockchain}
    (hserves : Serves (reads 0 0) service) (h : Moments reads) {rawAddress : Str}
    (haddress : validateAddress (strip rawAddress) = true) {limit offset : Int}
    (hlimit : 1 ≤ limit ∧ limit ≤ 100) (hoffset : 0 ≤ offset) :
    exists collected, collectHistory service reads rawAddress limit offset = .ok collected ∧
      collected.address = strip rawAddress ∧
      (((reads 2 0).blocks = (reads 0 0).blocks ∧
          Describes (reads 0 0) (reads 1 0) collected) ∨
        ((reads 2 0).blocks ≠ (reads 0 0).blocks ∧
          Describes (reads 3 0) (reads 4 0) collected)) := by
  rcases getChainView_growing hserves (fun k => h.within 0 0 k (Nat.zero_le _)) false with
    ⟨tip, hvalid, hview⟩
  rcases getAddressInfo_usable (reachable_valid (h.reads_reachable 1 0)).left
    (strip rawAddress) with ⟨info, hinfo⟩
  rcases getLatestBlockInfo_reachable (h.reads_reachable 2 0) with ⟨last, hlast, hlatest⟩
  have htip : (ChainView.of (reads 0 0).blocks tip).tipHash = tip.hash := by
    unfold ChainView.of
    rw [ChainView.populate_tipHash]
    rfl
  have hsame := tip_hash_eq_iff (h.across 0 0 2 0 (by decide)) hvalid hlast
  unfold collectHistory
  simp only [haddress, Bool.true_eq_false, if_false]
  rw [if_neg (by omega), if_neg (by omega), hview]
  by_cases hblocks : (reads 2 0).blocks = (reads 0 0).blocks
  · have hkept : ¬ (last.hash ≠ [] ∧
        last.hash ≠ (ChainView.of (reads 0 0).blocks tip).tipHash) := by
      rw [htip]
      exact fun hchanged => hchanged.right (hsame.mpr hblocks)
    refine ⟨gather (strip rawAddress) (ChainView.of (reads 0 0).blocks tip) info (reads 5 0),
      ?_, rfl, Or.inl ⟨hblocks, tip, hvalid, rfl, hinfo⟩⟩
    simp only [bind_eq_ok_iff]
    refine ⟨_, rfl, info, ask_eq_ok_iff.mpr hinfo, _, ask_eq_ok_iff.mpr hlatest, ?_⟩
    simp only
    rw [if_neg hkept]
    rfl
  · have hchanged : last.hash ≠ [] ∧
        last.hash ≠ (ChainView.of (reads 0 0).blocks tip).tipHash := by
      rw [htip]
      exact ⟨ne_nil_of_isHash (sha256Hex_isHash _), fun hkept => hblocks (hsame.mp hkept)⟩
    have hstored : Serves (reads 3 0)
        { cachedChainView := some (ChainView.of (reads 0 0).blocks tip) } :=
      Serves.view hserves (fun k => h.across 0 k 3 0 (by decide)) hview
    rcases getChainView_growing hstored (fun k => h.within 3 0 k (Nat.zero_le _)) true with
      ⟨newest, hnewest, hsecond⟩
    rcases getAddressInfo_usable (reachable_valid (h.reads_reachable 4 0)).left
      (strip rawAddress) with ⟨later, hlater⟩
    refine ⟨gather (strip rawAddress) (ChainView.of (reads 3 0).blocks newest) later
      (reads 5 0), ?_, rfl, Or.inr ⟨hblocks, newest, hnewest, rfl, hlater⟩⟩
    simp only [bind_eq_ok_iff]
    refine ⟨_, rfl, info, ask_eq_ok_iff.mpr hinfo, _, ask_eq_ok_iff.mpr hlatest, ?_⟩
    simp only
    rw [if_pos hchanged, hsecond]
    simp only [bind_eq_ok_iff]
    exact ⟨_, rfl, later, ask_eq_ok_iff.mpr hlater, _, rfl, rfl⟩

/-!
## One tip
-/

theorem info_of_history {chain other after : Blockchain} (hchain : Grows chain after)
    (hother : Grows other after) (hreachable : chain.Reachable) (hpresent : other.Reachable)
    {tip last : Block} (hvalid : ValidChain chain.blocks tip chain.state)
    (hlast : ValidChain other.blocks last other.state) {address : Str}
    (hsame : (ChainView.of chain.blocks tip).addressHistory.listAt address =
      (ChainView.of other.blocks last).addressHistory.listAt address) :
    chain.getAddressInfo address = other.getAddressInfo address := by
  rw [getAddressInfo_eq_iff (reachable_valid hreachable).left (reachable_valid hpresent).left]
  have hview := ChainView.populate_populated chain.blocks
    ((chain.blocks.length : Int) - 1) tip.hash
  have hnewer := ChainView.populate_populated other.blocks
    ((other.blocks.length : Int) - 1) last.hash
  rcases List.prefix_or_prefix_of_prefix hchain.blocks hother.blocks with
    ⟨more, hmore⟩ | ⟨more, hmore⟩
  · have hledger := hlast.ledger
    rw [← hmore] at hledger hnewer
    refine (outputs_of_history hvalid.ledger hledger hview hnewer ?_).symm
    rw [hmore]
    exact hsame.symm
  · have hledger := hvalid.ledger
    rw [← hmore] at hledger hview
    refine outputs_of_history hlast.ledger hledger hnewer hview ?_
    rw [hmore]
    exact hsame

/-- A history and the outputs of a later moment are those of one tip exactly when the
outputs of the address are the same at both moments. -/
theorem describes_oneTip_iff {before viewed queried after : Blockchain}
    {collected : Collected} (hreachable : before.Reachable) (hviewed : Grows before viewed)
    (hqueried : Grows viewed queried) (hafter : Grows queried after)
    (h : Describes viewed queried collected) :
    OneTip before after collected <->
      viewed.state.utxoSet.getUtxosForAddress collected.address =
        queried.state.utxoSet.getUtxosForAddress collected.address := by
  have hpresent := hviewed.reachable hreachable
  rw [← getAddressInfo_eq_iff (reachable_valid hpresent).left
    (reachable_valid (hqueried.reachable hpresent)).left]
  rcases h with ⟨tip, hvalid, hconfirmed, hinfo⟩
  constructor
  · rintro ⟨moment, hbefore, hmoment, last, hlast, hhistory, htold⟩
    rw [hinfo, ← htold]
    exact info_of_history (hqueried.trans hafter) hmoment hpresent
      (hbefore.reachable hreachable) hvalid hlast (hconfirmed.symm.trans hhistory)
  · intro hsame
    exact ⟨viewed, hviewed, hqueried.trans hafter, tip, hvalid, hconfirmed,
      hsame.trans hinfo⟩

/-- History and outputs are those of one tip exactly when no block came before the check,
or the outputs of the address are the same at the last two reads. -/
theorem collectHistory_oneTip_iff {service : ExplorerService}
    {reads : Nat -> Nat -> Blockchain} (hserves : Serves (reads 0 0) service)
    (h : Moments reads) {rawAddress : Str}
    (haddress : validateAddress (strip rawAddress) = true) {limit offset : Int}
    (hlimit : 1 ≤ limit ∧ limit ≤ 100) (hoffset : 0 ≤ offset) :
    exists collected, collectHistory service reads rawAddress limit offset = .ok collected ∧
      (OneTip (reads 0 0) (reads 5 0) collected <->
        (reads 2 0).blocks = (reads 0 0).blocks ∨
          (reads 3 0).state.utxoSet.getUtxosForAddress (strip rawAddress) =
            (reads 4 0).state.utxoSet.getUtxosForAddress (strip rawAddress)) := by
  rcases collectHistory_growing hserves h haddress hlimit hoffset with
    ⟨collected, hcollected, hname, ⟨hblocks, hdescribes⟩ | ⟨hblocks, hdescribes⟩⟩
  · refine ⟨collected, hcollected, fun _ => Or.inl hblocks, fun _ => ?_⟩
    have hearlier : (reads 0 0).blocks = (reads 1 0).blocks := by
      refine (h.across 0 0 1 0 (by decide)).blocks.eq_of_length_le ?_
      rw [← hblocks]
      exact (h.across 1 0 2 0 (by decide)).blocks.length_le
    rw [describes_oneTip_iff h.reachable (Grows.refl _) (h.across 0 0 1 0 (by decide))
      (h.across 1 0 5 0 (by decide)) hdescribes,
      state_of_blocks h.reachable (h.reads_reachable 1 0) hearlier]
  · refine ⟨collected, hcollected, ?_⟩
    rw [describes_oneTip_iff h.reachable (h.across 0 0 3 0 (by decide))
      (h.across 3 0 4 0 (by decide)) (h.across 4 0 5 0 (by decide)) hdescribes, hname]
    simp only [hblocks, false_or]

end Snapshot

end Api

namespace Sample

/-- The first block arrives before the check, the second one between the last two reads. -/
def detailReads : Nat -> Nat -> Blockchain
  | 0, _ => start
  | 1, _ => start
  | 2, _ => waiting
  | 3, _ => waiting
  | _ + 4, _ => chain

theorem start_reachable : @Blockchain.Reachable crypto start :=
  ⟨clock, none, none, start, [], start_created, rfl⟩

theorem start_grows : @Api.Grows crypto start waiting :=
  ⟨firstCalls, rfl⟩

theorem detail_moments : @Api.Moments crypto detailReads := by
  have hall := @Api.Grows.trans crypto _ _ _ start_grows waiting_grows
  have hwithin : forall i j k, @Api.Grows crypto (detailReads i j) (detailReads i k) := by
    intro i j k
    match i with
    | 0 => exact @Api.Grows.refl crypto start
    | 1 => exact @Api.Grows.refl crypto start
    | 2 => exact @Api.Grows.refl crypto waiting
    | 3 => exact @Api.Grows.refl crypto waiting
    | _ + 4 => exact @Api.Grows.refl crypto chain
  refine @Api.Moments.mk crypto _ start_reachable (fun i j k _ => hwithin i j k) ?_
  intro i j k l hlt
  match i, k, hlt with
  | 0, 1, _ => exact @Api.Grows.refl crypto start
  | 0, 2, _ => exact start_grows
  | 0, 3, _ => exact start_grows
  | 0, _ + 4, _ => exact hall
  | 1, 2, _ => exact start_grows
  | 1, 3, _ => exact start_grows
  | 1, _ + 4, _ => exact hall
  | 2, 3, _ => exact @Api.Grows.refl crypto waiting
  | 2, _ + 4, _ => exact waiting_grows
  | 3, _ + 4, _ => exact waiting_grows
  | _ + 4, _ + 4, _ => exact @Api.Grows.refl crypto chain

theorem detail_address :
    @validateAddress crypto (Api.strip address) = true ∧
      waiting.blocks ≠ start.blocks ∧
      (waiting.state.utxoSet.getUtxosForAddress (Api.strip address)).items ≠
        (chain.state.utxoSet.getUtxosForAddress (Api.strip address)).items := by
  decide +kernel

end Sample

/-- The history ends with the first block, the outputs are those after the second one. -/
theorem Api.collectHistory_two_tips :
    exists service reads rawAddress limit offset collected,
      @Api.Serves Sample.crypto (reads 0 0) service ∧ @Api.Moments Sample.crypto reads ∧
        @validateAddress Sample.crypto (Api.strip rawAddress) = true ∧
        (1 ≤ limit ∧ limit ≤ 100) ∧ 0 ≤ offset ∧
        @Api.collectHistory Sample.crypto service reads rawAddress limit offset =
          .ok collected ∧
        ¬ @Api.OneTip Sample.crypto (reads 0 0) (reads 5 0) collected := by
  have hserves := @Api.Serves.start Sample.crypto _ Sample.start_reachable
  rcases Sample.detail_address with ⟨haddress, hblocks, houtputs⟩
  rcases @Api.collectHistory_growing Sample.crypto _ _ hserves Sample.detail_moments
    Sample.address haddress 20 0 (by decide) (by decide) with
    ⟨collected, hcollected, hname, ⟨hkept, _⟩ | ⟨_, hdescribes⟩⟩
  · exact absurd hkept hblocks
  refine ⟨_, Sample.detailReads, Sample.address, 20, 0, collected, hserves,
    Sample.detail_moments, haddress, by decide, by decide, hcollected, ?_⟩
  intro honeTip
  have hsame := (@Api.describes_oneTip_iff Sample.crypto _ _ _ _ _ Sample.start_reachable
    Sample.start_grows Sample.waiting_grows (@Api.Grows.refl Sample.crypto Sample.chain)
    hdescribes).mp honeTip
  rw [hname] at hsame
  exact houtputs (congrArg Dict.items hsame)

theorem Api.collectHistory_oneTip_iff_sample :
    exists collected, @Api.collectHistory Sample.crypto ⟨none⟩ Sample.detailReads
        Sample.address 20 0 = .ok collected ∧
      (@Api.OneTip Sample.crypto (Sample.detailReads 0 0) (Sample.detailReads 5 0)
          collected <->
        (Sample.detailReads 2 0).blocks = (Sample.detailReads 0 0).blocks ∨
          (Sample.detailReads 3 0).state.utxoSet.getUtxosForAddress
              (Api.strip Sample.address) =
            (Sample.detailReads 4 0).state.utxoSet.getUtxosForAddress
              (Api.strip Sample.address)) :=
  @Api.collectHistory_oneTip_iff Sample.crypto _ _
    (@Api.Serves.start Sample.crypto _ Sample.start_reachable) Sample.detail_moments
    Sample.address Sample.detail_address.left 20 0 (by decide) (by decide)

end PyChain
