import PyChain.Crypto.Primitives

/-!
# Transactions

The signed transaction record, its JSON forms and its identifier.  The
dictionaries list their fields in the order of the source; canonical bytes sort
them.
-/

namespace PyChain

open Foundation

structure TxInput where
  previousTxId : Str
  outputIndex : Int
  publicKey : Str
  signature : Str
deriving DecidableEq, Repr

structure TxOutput where
  amount : Int
  recipientAddress : Str
deriving DecidableEq, Repr

structure Transaction where
  inputs : List TxInput
  outputs : List TxOutput
  timestamp : Int
  version : Int
deriving DecidableEq, Repr

/-- A transaction output named by transaction identifier and index. -/
abbrev OutPoint : Type := Str × Int

instance instLawfulBEqOutPoint : LawfulBEq OutPoint :=
  inferInstance

namespace TxInput

def toDict (input : TxInput) (includeSignature : Bool) : Json :=
  Json.obj
    ([(str "previous_tx_id", Json.str input.previousTxId),
      (str "output_index", Json.int input.outputIndex),
      (str "public_key", Json.str input.publicKey)] ++
      (if includeSignature then [(str "signature", Json.str input.signature)] else []))

def outpointDict (input : TxInput) : Json :=
  Json.obj
    [(str "previous_tx_id", Json.str input.previousTxId),
      (str "output_index", Json.int input.outputIndex)]

def outpoint (input : TxInput) : OutPoint :=
  (input.previousTxId, input.outputIndex)

end TxInput

namespace TxOutput

def toDict (output : TxOutput) : Json :=
  Json.obj
    [(str "amount", Json.int output.amount),
      (str "recipient_address", Json.str output.recipientAddress)]

end TxOutput

namespace Transaction

def toDict (transaction : Transaction) (includeSignatures : Bool) : Json :=
  Json.obj
    [(str "version", Json.int transaction.version),
      (str "inputs", Json.arr
        (transaction.inputs.map (fun input => input.toDict includeSignatures))),
      (str "outputs", Json.arr (transaction.outputs.map TxOutput.toDict)),
      (str "timestamp", Json.int transaction.timestamp)]

def signingDict (transaction : Transaction) (inputIndex : Int) : Except PyError Json :=
  if inputIndex < 0 then .error (.indexError "input_index out of range")
  else
    match transaction.inputs[inputIndex.toNat]? with
    | none => .error (.indexError "input_index out of range")
    | some input =>
        .ok (Json.obj
          [(str "version", Json.int transaction.version),
            (str "inputs", Json.arr (transaction.inputs.map TxInput.outpointDict)),
            (str "outputs", Json.arr (transaction.outputs.map TxOutput.toDict)),
            (str "timestamp", Json.int transaction.timestamp),
            (str "signing_input_index", Json.int inputIndex),
            (str "public_key", Json.str input.publicKey)])

def signingBytes (transaction : Transaction) (inputIndex : Int) : Except PyError Bytes :=
  match transaction.signingDict inputIndex with
  | .error e => .error e
  | .ok dict => .ok (Json.serialize dict)

def encoding (transaction : Transaction) : Bytes :=
  Json.serialize (transaction.toDict true)

def txid [Crypto] (transaction : Transaction) : Str :=
  sha256Hex transaction.encoding

def spentOutpoints (transaction : Transaction) : List OutPoint :=
  transaction.inputs.map TxInput.outpoint

/-!
## The canonical bytes determine the transaction
-/

theorem inputDict_sortKeys (input : TxInput) :
    Json.sortKeys (input.toDict true) =
      Json.obj
        [(str "output_index", Json.int input.outputIndex),
          (str "previous_tx_id", Json.str input.previousTxId),
          (str "public_key", Json.str input.publicKey),
          (str "signature", Json.str input.signature)] := rfl

theorem outputDict_sortKeys (output : TxOutput) :
    Json.sortKeys output.toDict = output.toDict := rfl

theorem toDict_sortKeys (transaction : Transaction) :
    Json.sortKeys (transaction.toDict true) =
      Json.obj
        [(str "inputs", Json.arr
            (Json.sortItems (transaction.inputs.map (fun input => input.toDict true)))),
          (str "outputs", Json.arr
            (Json.sortItems (transaction.outputs.map TxOutput.toDict))),
          (str "timestamp", Json.int transaction.timestamp),
          (str "version", Json.int transaction.version)] := rfl

theorem inputDict_distinct (input : TxInput) :
    Json.DistinctKeys (input.toDict true) := by
  unfold TxInput.toDict
  simp only [if_true, List.cons_append, List.nil_append, Json.DistinctKeys,
    Json.FieldsDistinct, and_self, and_true, List.map_cons, List.map_nil]
  decide

theorem outputDict_distinct (output : TxOutput) :
    Json.DistinctKeys output.toDict := by
  unfold TxOutput.toDict
  simp only [Json.DistinctKeys, Json.FieldsDistinct, and_self, and_true,
    List.map_cons, List.map_nil]
  decide

theorem toDict_distinct (transaction : Transaction) :
    Json.DistinctKeys (transaction.toDict true) := by
  unfold toDict
  simp only [Json.DistinctKeys, Json.FieldsDistinct, and_true, true_and,
    List.map_cons, List.map_nil]
  constructor
  · decide
  constructor
  · rw [Json.itemsDistinct_iff]
    intro item hitem
    rcases List.mem_map.mp hitem with ⟨input, _, hinput⟩
    rw [← hinput]
    exact inputDict_distinct input
  · rw [Json.itemsDistinct_iff]
    intro item hitem
    rcases List.mem_map.mp hitem with ⟨output, _, houtput⟩
    rw [← houtput]
    exact outputDict_distinct output

theorem sortedInputDict_injective {x y : TxInput}
    (h : Json.sortKeys (x.toDict true) = Json.sortKeys (y.toDict true)) : x = y := by
  rw [inputDict_sortKeys, inputDict_sortKeys] at h
  cases x
  cases y
  simp only [Json.obj.injEq, List.cons.injEq, Prod.mk.injEq, Json.int.injEq,
    Json.str.injEq, true_and, and_true] at h
  simp only [TxInput.mk.injEq]
  exact ⟨h.right.left, h.left, h.right.right.left, h.right.right.right⟩

theorem sortedOutputDict_injective {x y : TxOutput}
    (h : Json.sortKeys x.toDict = Json.sortKeys y.toDict) : x = y := by
  rw [outputDict_sortKeys, outputDict_sortKeys] at h
  cases x
  cases y
  simp only [TxOutput.toDict, Json.obj.injEq, List.cons.injEq, Prod.mk.injEq,
    Json.int.injEq, Json.str.injEq, true_and, and_true] at h
  simp only [TxOutput.mk.injEq]
  exact h

theorem sortedDict_injective {x y : Transaction}
    (h : Json.sortKeys (x.toDict true) = Json.sortKeys (y.toDict true)) : x = y := by
  rw [toDict_sortKeys, toDict_sortKeys] at h
  simp only [Json.obj.injEq, List.cons.injEq, Prod.mk.injEq, Json.int.injEq,
    Json.arr.injEq, true_and, and_true, Json.sortItems_eq_map, List.map_map] at h
  rcases h with ⟨hinputs, houtputs, htimestamp, hversion⟩
  have hin : x.inputs = y.inputs := by
    apply List.map_injective_iff.mpr _ hinputs
    intro a b hab
    exact sortedInputDict_injective hab
  have hout : x.outputs = y.outputs := by
    apply List.map_injective_iff.mpr _ houtputs
    intro a b hab
    exact sortedOutputDict_injective hab
  cases x
  cases y
  simp only [Transaction.mk.injEq]
  exact ⟨hin, hout, htimestamp, hversion⟩

theorem encoding_injective {x y : Transaction} (h : x.encoding = y.encoding) : x = y :=
  sortedDict_injective
    (Json.serialize_injective (toDict_distinct x) (toDict_distinct y) h)

theorem encoding_length {transaction : Transaction} {output : TxOutput}
    (h : output ∈ transaction.outputs) :
    output.recipientAddress.length + 21 ≤ transaction.encoding.length := by
  have haddress := Json.renderString_length output.recipientAddress
  have hkey := Json.renderString_length (str "recipient_address")
  have houtput : (Json.renderString (str "recipient_address")).length +
      (Json.render (Json.str output.recipientAddress)).length <
        (Json.render output.toDict).length :=
    Json.render_obj_length (by simp)
  have hitem : (Json.render output.toDict).length <
      (Json.render (Json.arr
        (Json.sortItems (transaction.outputs.map TxOutput.toDict)))).length := by
    apply Json.render_arr_length
    rw [Json.sortItems_eq_map, List.map_map]
    exact List.mem_map.mpr ⟨output, h, outputDict_sortKeys output⟩
  have hfield : (Json.renderString (str "outputs")).length +
      (Json.render (Json.arr
        (Json.sortItems (transaction.outputs.map TxOutput.toDict)))).length <
        (Json.render (Json.sortKeys (transaction.toDict true))).length := by
    rw [toDict_sortKeys]
    exact Json.render_obj_length (by simp)
  have hlength : (str "recipient_address").length = 17 := rfl
  unfold encoding
  rw [Json.serialize_length]
  unfold Json.dumps
  rw [Json.render] at houtput
  omega

end Transaction

end PyChain
