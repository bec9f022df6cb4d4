import PyChain.Blockchain.Validation

/-!
# Canonical codecs of the store

Signed transactions and blocks are stored as their canonical JSON bytes.  A
reader checks the shape of every field, rebuilds the object and then insists on
the exact bytes the writer would have produced.
-/

namespace PyChain

open Foundation

namespace Codec

def corruption (message : String) : PyError :=
  .storageError .corruption message

def TRANSACTION_KEYS : List Str :=
  [str "version", str "inputs", str "outputs", str "timestamp"]

def INPUT_KEYS : List Str :=
  [str "previous_tx_id", str "output_index", str "public_key", str "signature"]

def OUTPUT_KEYS : List Str :=
  [str "amount", str "recipient_address"]

def HEADER_KEYS : List Str :=
  [str "version", str "previous_block_hash", str "merkle_root", str "timestamp",
    str "difficulty", str "nonce"]

def BLOCK_KEYS : List Str :=
  [str "header", str "transactions"]

/-- The errors of `_MALFORMED_ERRORS` become one corruption error; the others
pass. -/
def malformed (message : String) : PyError -> PyError
  | .indexError _ => corruption message
  | .keyError => corruption message
  | .typeError _ => corruption message
  | .valueError _ => corruption message
  | .overflowError _ => corruption message
  | e => e

/-- Run a codec, translating malformed-data errors. -/
def guarded {alpha : Type} (message : String) (x : Except PyError alpha) :
    Except PyError alpha :=
  match x with
  | .ok a => .ok a
  | .error e => .error (malformed message e)

theorem guarded_eq_ok_iff {alpha : Type} {message : String} {x : Except PyError alpha}
    {a : alpha} : guarded message x = .ok a <-> x = .ok a := by
  cases x with
  | error e => simp [guarded]
  | ok b => simp [guarded]

/-!
## Field checks
-/

def object (value : Json) (keys : List Str) (name : String) :
    Except PyError (List (Str × Json)) :=
  match value with
  | .obj fields =>
      if (fields.map Prod.fst).toFinset = keys.toFinset then .ok fields
      else .error (corruption (name ++ " has missing or unexpected fields"))
  | _ => .error (corruption (name ++ " must be an object"))

def field (fields : List (Str × Json)) (key : Str) : Except PyError Json :=
  match Dict.lookupKey fields key with
  | none => .error .keyError
  | some value => .ok value

def integer (value : Json) (name : String) (minimum : Nat) : Except PyError Int :=
  match value with
  | .int n =>
      if (minimum : Int) ≤ n then .ok n
      else .error
        (corruption (name ++ " must be an integer >= " ++ toString minimum))
  | _ => .error (corruption (name ++ " must be an integer >= " ++ toString minimum))

def string (value : Json) (name : String) : Except PyError Str :=
  match value with
  | .str text =>
      if text ≠ [] then .ok text
      else .error (corruption (name ++ " must be a nonempty string"))
  | _ => .error (corruption (name ++ " must be a nonempty string"))

def list (value : Json) (message : String) : Except PyError (List Json) :=
  match value with
  | .arr items => .ok items
  | _ => .error (corruption message)

def parse (data : Bytes) : Except PyError Json :=
  match decodeUtf8 data with
  | none => .error (.valueError "invalid utf-8")
  | some text =>
      match Json.loads text with
      | .ok value => .ok value
      | .error .malformed => .error (.valueError "invalid JSON")
      | .error (.duplicateKey key) =>
          .error (corruption ("Duplicate JSON key: " ++ String.ofList key))
      | .error .nonInteger =>
          .error (corruption
            "Floating-point and non-finite JSON numbers are not supported")

/-!
## Transactions
-/

def inputFromDict (item : Json) : Except PyError TxInput := do
  let txInput <- object item INPUT_KEYS "Input"
  let previousTxId <- field txInput (str "previous_tx_id")
  let previousTxId <- string previousTxId "Input.previous_tx_id"
  let outputIndex <- field txInput (str "output_index")
  let outputIndex <- integer outputIndex "Input.output_index" 0
  let publicKey <- field txInput (str "public_key")
  let publicKey <- string publicKey "Input.public_key"
  let signature <- field txInput (str "signature")
  let signature <- string signature "Input.signature"
  return {
    previousTxId := previousTxId
    outputIndex := outputIndex
    publicKey := publicKey
    signature := signature }

variable [Crypto]

def outputFromDict (item : Json) : Except PyError TxOutput := do
  let txOutput <- object item OUTPUT_KEYS "Output"
  let amount <- field txOutput (str "amount")
  let amount <- integer amount "Output.amount" 1
  let address <- field txOutput (str "recipient_address")
  let address <- string address "Output.recipient_address"
  require (validateAddress address = true)
    (corruption "Output.recipient_address is invalid")
  return { amount := amount, recipientAddress := address }

def transactionFromDict (value : Json) : Except PyError Transaction := do
  let data <- object value TRANSACTION_KEYS "Transaction"
  let version <- field data (str "version")
  let version <- integer version "Transaction.version" 1
  require (version = 1) (corruption "Unsupported transaction version")
  let timestamp <- field data (str "timestamp")
  let timestamp <- integer timestamp "Transaction.timestamp" 0
  let inputItems <- field data (str "inputs")
  let inputItems <- list inputItems "Transaction.inputs must be a list"
  let outputItems <- field data (str "outputs")
  let outputItems <- list outputItems "Transaction.outputs must be a nonempty list"
  require (outputItems ≠ []) (corruption "Transaction.outputs must be a nonempty list")
  let inputs <- inputItems.mapM inputFromDict
  let outputs <- outputItems.mapM outputFromDict
  require (inputs ≠ [] ∨ outputs.length = 1)
    (corruption "Coinbase must contain one output")
  return {
    inputs := inputs
    outputs := outputs
    timestamp := timestamp
    version := version }

def transactionData (transaction : Transaction) : Except PyError Json := do
  let data := transaction.toDict true
  let _ <- transactionFromDict data
  return data

def encodeTransaction (transaction : Transaction) : Except PyError Bytes :=
  guarded "Cannot encode transaction" do
    let data <- transactionData transaction
    return Json.serialize data

def decodeTransaction (data : Bytes) : Except PyError Transaction :=
  guarded "Cannot decode transaction" do
    let value <- parse data
    let transaction <- transactionFromDict value
    require (Json.serialize (transaction.toDict true) = data)
      (corruption "Transaction payload is not canonical")
    return transaction

/-!
## Blocks
-/

def blockFromDict (value : Json) : Except PyError Block := do
  let data <- object value BLOCK_KEYS "Block"
  let header <- field data (str "header")
  let header <- object header HEADER_KEYS "Header"
  let version <- field header (str "version")
  let version <- integer version "Header.version" 0
  let timestamp <- field header (str "timestamp")
  let timestamp <- integer timestamp "Header.timestamp" 0
  let difficulty <- field header (str "difficulty")
  let difficulty <- integer difficulty "Header.difficulty" 0
  let nonce <- field header (str "nonce")
  let nonce <- integer nonce "Header.nonce" 0
  let previousBlockHash <- field header (str "previous_block_hash")
  let previousBlockHash <- string previousBlockHash "Header.previous_block_hash"
  let merkleRoot <- field header (str "merkle_root")
  let merkleRoot <- string merkleRoot "Header.merkle_root"
  let items <- field data (str "transactions")
  let items <- list items "Block.transactions must be a list"
  let transactions <- items.mapM transactionFromDict
  let block <- Block.create transactions previousBlockHash timestamp version difficulty
    nonce
  require (block.merkleRoot = merkleRoot)
    (corruption "Stored Merkle root does not match transactions")
  require (validateBlockStructure block = true) (corruption "Block structure is invalid")
  return block

def encodeBlock (block : Block) : Except PyError Bytes :=
  guarded "Cannot encode block" do
    let _ <- block.transactions.mapM transactionData
    let data := block.toDict
    let _ <- blockFromDict data
    return Json.serialize data

def decodeBlock (data : Bytes) : Except PyError Block :=
  guarded "Cannot decode block" do
    let value <- parse data
    let block <- blockFromDict value
    require (Json.serialize block.toDict = data)
      (corruption "Block payload is not canonical")
    return block

/-!
## Amounts
-/

omit [Crypto] in
def encodeAmount (amount : Int) : Except PyError Str :=
  if 1 ≤ amount then .ok (Nat.toDigits 10 amount.toNat)
  else .error (corruption "Amount must be an integer >= 1")

/-- A decimal numeral without sign, space or leading zero. -/
def isCanonicalAmount (data : Str) : Bool :=
  match data with
  | [] => false
  | c :: _ => '1' ≤ c && c ≤ '9' && data.all (fun d => '0' ≤ d && d ≤ '9')

omit [Crypto] in
def decodeAmount (data : Str) : Except PyError Int :=
  if isCanonicalAmount data then .ok (Json.digitsValue data)
  else .error
    (corruption "Amount must be a canonical positive ASCII decimal string")

/-!
## What can be stored

The readers accept exactly the canonical bytes of the objects below, and the
writers accept exactly these objects.
-/

structure StorableInput (input : TxInput) : Prop where
  previousTxId : input.previousTxId ≠ []
  outputIndex : 0 ≤ input.outputIndex
  publicKey : input.publicKey ≠ []
  signature : input.signature ≠ []

structure Storable (transaction : Transaction) : Prop where
  version : transaction.version = 1
  timestamp : 0 ≤ transaction.timestamp
  outputs_ne : transaction.outputs ≠ []
  inputs : forall input, input ∈ transaction.inputs -> StorableInput input
  outputs : forall output, output ∈ transaction.outputs -> isValidOutput output = true
  coinbase : transaction.inputs ≠ [] ∨ transaction.outputs.length = 1

structure StorableBlock (block : Block) : Prop where
  structure_ : validateBlockStructure block = true
  transactions : forall transaction, transaction ∈ block.transactions ->
    Storable transaction

omit [Crypto] in
theorem integer_eq_ok_iff {value : Json} {name : String} {minimum : Nat} {n : Int} :
    integer value name minimum = .ok n <-> value = .int n ∧ (minimum : Int) ≤ n := by
  cases value with
  | int m =>
      unfold integer
      by_cases h : (minimum : Int) ≤ m
      · simp only [if_pos h, Except.ok.injEq, Json.int.injEq]
        constructor
        · intro heq
          rw [← heq]
          exact ⟨rfl, h⟩
        · intro heq
          exact heq.left
      · simp only [if_neg h, reduceCtorEq, Json.int.injEq, false_iff]
        intro heq
        rw [heq.left] at h
        exact h heq.right
  | null => simp [integer]
  | bool _ => simp [integer]
  | str _ => simp [integer]
  | arr _ => simp [integer]
  | obj _ => simp [integer]

omit [Crypto] in
theorem string_eq_ok_iff {value : Json} {name : String} {text : Str} :
    string value name = .ok text <-> value = .str text ∧ text ≠ [] := by
  cases value with
  | str other =>
      unfold string
      by_cases h : other ≠ []
      · simp only [if_pos h, Except.ok.injEq, Json.str.injEq]
        constructor
        · intro heq
          rw [← heq]
          exact ⟨rfl, h⟩
        · intro heq
          exact heq.left
      · simp only [if_neg h, reduceCtorEq, Json.str.injEq, false_iff]
        intro heq
        rw [heq.left] at h
        exact h heq.right
  | null => simp [string]
  | bool _ => simp [string]
  | int _ => simp [string]
  | arr _ => simp [string]
  | obj _ => simp [string]

omit [Crypto] in
theorem list_eq_ok_iff {value : Json} {message : String} {items : List Json} :
    list value message = .ok items <-> value = .arr items := by
  cases value <;> simp [list]

omit [Crypto] in
theorem object_eq_ok_iff {value : Json} {keys : List Str} {name : String}
    {fields : List (Str × Json)} :
    object value keys name = .ok fields <->
      value = .obj fields ∧ (fields.map Prod.fst).toFinset = keys.toFinset := by
  cases value with
  | obj other =>
      unfold object
      by_cases h : (other.map Prod.fst).toFinset = keys.toFinset
      · simp only [if_pos h, Except.ok.injEq, Json.obj.injEq]
        constructor
        · intro heq
          rw [← heq]
          exact ⟨rfl, h⟩
        · intro heq
          exact heq.left
      · simp only [if_neg h, reduceCtorEq, Json.obj.injEq, false_iff]
        intro heq
        rw [heq.left] at h
        exact h heq.right
  | null => simp [object]
  | bool _ => simp [object]
  | int _ => simp [object]
  | str _ => simp [object]
  | arr _ => simp [object]

/-!
### Inputs and outputs
-/

omit [Crypto] in
theorem inputFromDict_eq_ok_iff {item : Json} {input : TxInput} :
    inputFromDict item = .ok input <->
      exists fields, item = .obj fields ∧
        (fields.map Prod.fst).toFinset = INPUT_KEYS.toFinset ∧
        field fields (str "previous_tx_id") = .ok (.str input.previousTxId) ∧
        field fields (str "output_index") = .ok (.int input.outputIndex) ∧
        field fields (str "public_key") = .ok (.str input.publicKey) ∧
        field fields (str "signature") = .ok (.str input.signature) ∧
        StorableInput input := by
  unfold inputFromDict
  simp only [bind_eq_ok_iff, object_eq_ok_iff, string_eq_ok_iff, integer_eq_ok_iff]
  constructor
  · intro h
    rcases h with ⟨fields, ⟨hitem, hkeys⟩, _, hprevious, _, ⟨rfl, hprevious'⟩, _, hindex, _,
      ⟨rfl, hindex'⟩, _, hkey, _, ⟨rfl, hkey'⟩, _, hsignature, _, ⟨rfl, hsignature'⟩, heq⟩
    cases heq
    exact ⟨fields, hitem, hkeys, hprevious, hindex, hkey, hsignature, hprevious', hindex',
      hkey', hsignature'⟩
  · intro h
    rcases h with ⟨fields, hitem, hkeys, hprevious, hindex, hkey, hsignature, hstorable⟩
    exact ⟨fields, ⟨hitem, hkeys⟩, _, hprevious, _, ⟨rfl, hstorable.previousTxId⟩, _, hindex,
      _, ⟨rfl, hstorable.outputIndex⟩, _, hkey, _, ⟨rfl, hstorable.publicKey⟩, _, hsignature,
      _, ⟨rfl, hstorable.signature⟩, rfl⟩

omit [Crypto] in
theorem inputFromDict_toDict {input other : TxInput} :
    inputFromDict (input.toDict true) = .ok other <->
      other = input ∧ StorableInput input := by
  rw [inputFromDict_eq_ok_iff]
  constructor
  · intro h
    rcases h with ⟨fields, hfields, _, hprevious, hindex, hkey, hsignature, hstorable⟩
    cases hfields
    have heq : other = input := by
      cases other
      cases input
      cases hprevious
      cases hindex
      cases hkey
      cases hsignature
      rfl
    rw [heq] at hstorable
    exact ⟨heq, hstorable⟩
  · intro h
    rw [h.left]
    exact ⟨_, rfl, rfl, rfl, rfl, rfl, rfl, h.right⟩

omit [Crypto] in
theorem inputFromDict_sorted {input : TxInput} (h : StorableInput input) :
    inputFromDict (Json.sortKeys (input.toDict true)) = .ok input := by
  rw [Transaction.inputDict_sortKeys, inputFromDict_eq_ok_iff]
  refine ⟨_, rfl, ?_, rfl, rfl, rfl, rfl, h⟩
  simp only [List.map_cons, List.map_nil]
  decide

theorem outputFromDict_eq_ok_iff {item : Json} {output : TxOutput} :
    outputFromDict item = .ok output <->
      exists fields, item = .obj fields ∧
        (fields.map Prod.fst).toFinset = OUTPUT_KEYS.toFinset ∧
        field fields (str "amount") = .ok (.int output.amount) ∧
        field fields (str "recipient_address") = .ok (.str output.recipientAddress) ∧
        isValidOutput output = true := by
  unfold outputFromDict isValidOutput
  simp only [bind_eq_ok_iff, object_eq_ok_iff, string_eq_ok_iff, integer_eq_ok_iff,
    require_eq_ok_iff, Bool.and_eq_true, decide_eq_true_eq]
  constructor
  · intro h
    rcases h with ⟨fields, ⟨hitem, hkeys⟩, _, hamount, _, ⟨rfl, hpos⟩, _, haddress, _,
      ⟨rfl, _⟩, _, hvalid, heq⟩
    cases heq
    exact ⟨fields, hitem, hkeys, hamount, haddress, hpos, hvalid⟩
  · intro h
    rcases h with ⟨fields, hitem, hkeys, hamount, haddress, hpos, hvalid⟩
    have hne : output.recipientAddress ≠ [] := by
      intro hnil
      have hlength := validateAddress_length hvalid
      rw [hnil] at hlength
      cases hlength
    exact ⟨fields, ⟨hitem, hkeys⟩, _, hamount, _, ⟨rfl, hpos⟩, _, haddress, _, ⟨rfl, hne⟩, (),
      hvalid, rfl⟩

theorem outputFromDict_toDict {output other : TxOutput} :
    outputFromDict output.toDict = .ok other <->
      other = output ∧ isValidOutput output = true := by
  rw [outputFromDict_eq_ok_iff]
  constructor
  · intro h
    rcases h with ⟨fields, hfields, _, hamount, haddress, hvalid⟩
    cases hfields
    have heq : other = output := by
      cases other
      cases output
      cases hamount
      cases haddress
      rfl
    rw [heq] at hvalid
    exact ⟨heq, hvalid⟩
  · intro h
    rw [h.left]
    exact ⟨_, rfl, rfl, rfl, rfl, h.right⟩

/-!
### Transactions
-/

theorem transactionFromDict_eq_ok_iff {value : Json} {transaction : Transaction} :
    transactionFromDict value = .ok transaction <->
      exists fields inputItems outputItems, value = .obj fields ∧
        (fields.map Prod.fst).toFinset = TRANSACTION_KEYS.toFinset ∧
        field fields (str "version") = .ok (.int transaction.version) ∧
        field fields (str "timestamp") = .ok (.int transaction.timestamp) ∧
        field fields (str "inputs") = .ok (.arr inputItems) ∧
        field fields (str "outputs") = .ok (.arr outputItems) ∧
        inputItems.mapM inputFromDict = .ok transaction.inputs ∧
        outputItems.mapM outputFromDict = .ok transaction.outputs ∧
        Storable transaction := by
  unfold transactionFromDict
  simp only [bind_eq_ok_iff, object_eq_ok_iff, integer_eq_ok_iff, require_eq_ok_iff,
    list_eq_ok_iff]
  constructor
  · intro h
    rcases h with ⟨fields, ⟨hvalue, hkeys⟩, _, hversion, version, ⟨rfl, _⟩, _, hone, _,
      htimestamp, timestamp, ⟨rfl, hnonneg⟩, _, hinputItems, inputItems, rfl, _,
      houtputItems, outputItems, rfl, _, hne, inputs, hinputs, outputs, houtputs, _,
      hcoinbase, heq⟩
    cases heq
    refine ⟨fields, inputItems, outputItems, hvalue, hkeys, hversion, htimestamp,
      hinputItems, houtputItems, hinputs, houtputs, ?_⟩
    constructor
    · exact hone
    · exact hnonneg
    · intro hnil
      apply hne
      have hlength := (mapM_eq_ok_iff.mp houtputs).length_eq
      simp only at hnil
      rw [hnil] at hlength
      exact List.eq_nil_of_length_eq_zero hlength
    · refine mapM_forall (P := StorableInput) hinputs ?_
      intro item input hinput
      rcases inputFromDict_eq_ok_iff.mp hinput with ⟨_, _, _, _, _, _, _, hstorable⟩
      exact hstorable
    · refine mapM_forall (P := fun output => isValidOutput output = true) houtputs ?_
      intro item output houtput
      rcases outputFromDict_eq_ok_iff.mp houtput with ⟨_, _, _, _, _, hvalid⟩
      exact hvalid
    · exact hcoinbase
  · intro h
    rcases h with ⟨fields, inputItems, outputItems, hvalue, hkeys, hversion, htimestamp,
      hinputItems, houtputItems, hinputs, houtputs, hstorable⟩
    have hne : outputItems ≠ [] := by
      intro hnil
      apply hstorable.outputs_ne
      have hlength := (mapM_eq_ok_iff.mp houtputs).length_eq
      rw [hnil] at hlength
      exact List.eq_nil_of_length_eq_zero hlength.symm
    have hone : ((1 : Nat) : Int) ≤ transaction.version := by
      rw [hstorable.version]
      decide
    exact ⟨fields, ⟨hvalue, hkeys⟩, _, hversion, _, ⟨rfl, hone⟩, (), hstorable.version, _,
      htimestamp, _, ⟨rfl, hstorable.timestamp⟩, _, hinputItems, _, rfl, _, houtputItems, _,
      rfl, (), hne, _, hinputs, _, houtputs, (), hstorable.coinbase, rfl⟩

theorem transactionFromDict_toDict {transaction other : Transaction} :
    transactionFromDict (transaction.toDict true) = .ok other <->
      other = transaction ∧ Storable transaction := by
  rw [transactionFromDict_eq_ok_iff]
  constructor
  · intro h
    rcases h with ⟨fields, inputItems, outputItems, hfields, _, hversion, htimestamp,
      hinputItems, houtputItems, hinputs, houtputs, hstorable⟩
    cases hfields
    cases hinputItems
    cases houtputItems
    have hin : other.inputs = transaction.inputs :=
      mapM_map_eq_ok_inv hinputs (fun input other h => (inputFromDict_toDict.mp h).left)
    have hout : other.outputs = transaction.outputs :=
      mapM_map_eq_ok_inv houtputs (fun output other h => (outputFromDict_toDict.mp h).left)
    have heq : other = transaction := by
      cases other
      cases transaction
      cases hversion
      cases htimestamp
      cases hin
      cases hout
      rfl
    rw [heq] at hstorable
    exact ⟨heq, hstorable⟩
  · intro h
    rcases h with ⟨heq, hstorable⟩
    rw [heq]
    refine ⟨_, _, _, rfl, rfl, rfl, rfl, rfl, rfl, ?_, ?_, hstorable⟩
    · apply mapM_map_eq_ok
      intro input hinput
      exact inputFromDict_toDict.mpr ⟨rfl, hstorable.inputs input hinput⟩
    · apply mapM_map_eq_ok
      intro output houtput
      exact outputFromDict_toDict.mpr ⟨rfl, hstorable.outputs output houtput⟩

theorem transactionFromDict_sorted {transaction : Transaction} (h : Storable transaction) :
    transactionFromDict (Json.sortKeys (transaction.toDict true)) = .ok transaction := by
  rw [Transaction.toDict_sortKeys, transactionFromDict_eq_ok_iff]
  refine ⟨_, _, _, rfl, ?_, rfl, rfl, rfl, rfl, ?_, ?_, h⟩
  · simp only [List.map_cons, List.map_nil]
    decide
  · rw [Json.sortItems_eq_map, List.map_map]
    apply mapM_map_eq_ok
    intro input hinput
    exact inputFromDict_sorted (h.inputs input hinput)
  · rw [Json.sortItems_eq_map, List.map_map]
    apply mapM_map_eq_ok
    intro output houtput
    exact outputFromDict_toDict.mpr ⟨rfl, h.outputs output houtput⟩

theorem transactionData_eq_ok_iff {transaction : Transaction} {data : Json} :
    transactionData transaction = .ok data <->
      data = transaction.toDict true ∧ Storable transaction := by
  unfold transactionData
  simp only [bind_eq_ok_iff, transactionFromDict_toDict]
  constructor
  · intro h
    rcases h with ⟨_, ⟨_, hstorable⟩, heq⟩
    exact ⟨(Except.ok.inj heq).symm, hstorable⟩
  · intro h
    exact ⟨transaction, ⟨rfl, h.right⟩, congrArg Except.ok h.left.symm⟩

theorem encodeTransaction_eq_ok_iff {transaction : Transaction} {data : Bytes} :
    encodeTransaction transaction = .ok data <->
      data = transaction.encoding ∧ Storable transaction := by
  unfold encodeTransaction
  simp only [guarded_eq_ok_iff, bind_eq_ok_iff, transactionData_eq_ok_iff]
  constructor
  · intro h
    rcases h with ⟨value, ⟨hvalue, hstorable⟩, heq⟩
    subst hvalue
    exact ⟨(Except.ok.inj heq).symm, hstorable⟩
  · intro h
    exact ⟨_, ⟨rfl, h.right⟩, congrArg Except.ok h.left.symm⟩

omit [Crypto] in
theorem parse_serialize {value : Json} (h : Json.DistinctKeys value) :
    parse (Json.serialize value) = .ok (Json.sortKeys value) := by
  unfold parse
  rw [Json.decodeUtf8_serialize]
  simp only [Json.loads_dumps h]

theorem decodeTransaction_eq_ok_iff {data : Bytes} {transaction : Transaction} :
    decodeTransaction data = .ok transaction <->
      data = transaction.encoding ∧ Storable transaction := by
  unfold decodeTransaction
  simp only [guarded_eq_ok_iff, bind_eq_ok_iff, require_eq_ok_iff]
  constructor
  · intro h
    rcases h with ⟨value, _, other, hother, _, hcanonical, heq⟩
    cases heq
    rcases transactionFromDict_eq_ok_iff.mp hother with ⟨_, _, _, _, _, _, _, _, _, _, _, hs⟩
    exact ⟨hcanonical.symm, hs⟩
  · intro h
    rcases h with ⟨heq, hstorable⟩
    subst heq
    exact ⟨_, parse_serialize (Transaction.toDict_distinct transaction), transaction,
      transactionFromDict_sorted hstorable, (), rfl, rfl⟩

/-!
### Blocks
-/

theorem blockFromDict_eq_ok_iff {value : Json} {block : Block} :
    blockFromDict value = .ok block <->
      exists fields header items, value = .obj fields ∧
        (fields.map Prod.fst).toFinset = BLOCK_KEYS.toFinset ∧
        field fields (str "header") = .ok (.obj header) ∧
        (header.map Prod.fst).toFinset = HEADER_KEYS.toFinset ∧
        field header (str "version") = .ok (.int block.version) ∧
        field header (str "timestamp") = .ok (.int block.timestamp) ∧
        field header (str "difficulty") = .ok (.int block.difficulty) ∧
        field header (str "nonce") = .ok (.int block.nonce) ∧
        field header (str "previous_block_hash") = .ok (.str block.previousBlockHash) ∧
        field header (str "merkle_root") = .ok (.str block.merkleRoot) ∧
        field fields (str "transactions") = .ok (.arr items) ∧
        items.mapM transactionFromDict = .ok block.transactions ∧
        validateBlockStructure block = true := by
  unfold blockFromDict
  simp only [bind_eq_ok_iff, object_eq_ok_iff, integer_eq_ok_iff, string_eq_ok_iff,
    require_eq_ok_iff, list_eq_ok_iff, Block.create_eq_ok_iff]
  constructor
  · intro h
    rcases h with ⟨fields, ⟨hvalue, hkeys⟩, _, hheader, header, ⟨rfl, hheaderKeys⟩, _,
      hversion, _, ⟨rfl, _⟩, _, htimestamp, _, ⟨rfl, _⟩, _, hdifficulty, _, ⟨rfl, _⟩, _,
      hnonce, _, ⟨rfl, _⟩, _, hprevious, _, ⟨rfl, _⟩, _, hroot, _, ⟨rfl, _⟩, _, hitems, items,
      rfl, _, htransactions, other, ⟨_, rfl, rfl, rfl, rfl, rfl, rfl⟩, _, rfl, _, hvalid, heq⟩
    have hblock : other = block := Except.ok.inj heq
    subst hblock
    exact ⟨fields, header, items, hvalue, hkeys, hheader, hheaderKeys, hversion, htimestamp,
      hdifficulty, hnonce, hprevious, hroot, hitems, htransactions, hvalid⟩
  · intro h
    rcases h with ⟨fields, header, items, hvalue, hkeys, hheader, hheaderKeys, hversion,
      htimestamp, hdifficulty, hnonce, hprevious, hroot, hitems, htransactions, hvalid⟩
    have hstructure := (validateBlockStructure_iff block).mp hvalid
    have hversion' : ((0 : Nat) : Int) ≤ block.version := by
      rw [hstructure.version]
      decide
    have hdifficulty' : ((0 : Nat) : Int) ≤ block.difficulty := by
      have hrange := hstructure.difficulty
      simp only [isValidDifficulty, Bool.and_eq_true, decide_eq_true_eq] at hrange
      omega
    have hnonce' : ((0 : Nat) : Int) ≤ block.nonce := by
      have hrange := hstructure.nonce
      simp only [isValidNonce, Bool.and_eq_true, decide_eq_true_eq] at hrange
      omega
    have hprevious' : block.previousBlockHash ≠ [] := by
      intro hnil
      have hhash := hstructure.previousHash
      rw [hnil] at hhash
      exact absurd hhash (by decide)
    have hroot' : block.merkleRoot ≠ [] := by
      rcases calculateMerkleRoot_total block.transactions with ⟨data, hdata⟩
      have heq := hstructure.merkleRoot
      rw [hdata] at heq
      rw [← Except.ok.inj heq]
      exact sha256Hex_ne_nil data
    exact ⟨fields, ⟨hvalue, hkeys⟩, _, hheader, header, ⟨rfl, hheaderKeys⟩, _, hversion, _,
      ⟨rfl, hversion'⟩, _, htimestamp, _, ⟨rfl, hstructure.timestamp⟩, _, hdifficulty, _,
      ⟨rfl, hdifficulty'⟩, _, hnonce, _, ⟨rfl, hnonce'⟩, _, hprevious, _, ⟨rfl, hprevious'⟩, _,
      hroot, _, ⟨rfl, hroot'⟩, _, hitems, items, rfl, _, htransactions, block,
      ⟨hstructure.merkleRoot, rfl, rfl, rfl, rfl, rfl, rfl⟩, (), rfl, (), hvalid, rfl⟩

theorem blockFromDict_storable {value : Json} {block : Block}
    (h : blockFromDict value = .ok block) : StorableBlock block := by
  rcases blockFromDict_eq_ok_iff.mp h with ⟨_, _, items, _, _, _, _, _, _, _, _, _, _, _,
    htransactions, hvalid⟩
  refine ⟨hvalid, mapM_forall (P := Storable) htransactions ?_⟩
  intro item transaction htransaction
  rcases transactionFromDict_eq_ok_iff.mp htransaction with
    ⟨_, _, _, _, _, _, _, _, _, _, _, hstorable⟩
  exact hstorable

theorem blockFromDict_toDict {block other : Block} :
    blockFromDict block.toDict = .ok other <-> other = block ∧ StorableBlock block := by
  constructor
  · intro h
    have hstorable := blockFromDict_storable h
    rcases blockFromDict_eq_ok_iff.mp h with ⟨fields, header, items, hfields, _, hheader, _,
      hversion, htimestamp, hdifficulty, hnonce, hprevious, hroot, hitems, htransactions, _⟩
    cases hfields
    cases hheader
    cases hitems
    have htxs : other.transactions = block.transactions :=
      mapM_map_eq_ok_inv htransactions
        (fun transaction other h => (transactionFromDict_toDict.mp h).left)
    have heq : other = block := by
      cases other
      cases block
      cases hversion
      cases htimestamp
      cases hdifficulty
      cases hnonce
      cases hprevious
      cases hroot
      cases htxs
      rfl
    rw [heq] at hstorable
    exact ⟨heq, hstorable⟩
  · intro h
    rcases h with ⟨heq, hstorable⟩
    rw [heq, blockFromDict_eq_ok_iff]
    refine ⟨_, _, _, rfl, rfl, rfl, rfl, rfl, rfl, rfl, rfl, rfl, rfl, rfl, ?_,
      hstorable.structure_⟩
    apply mapM_map_eq_ok
    intro transaction htransaction
    exact transactionFromDict_toDict.mpr ⟨rfl, hstorable.transactions _ htransaction⟩

omit [Crypto] in
theorem blockDict_sortKeys (block : Block) :
    Json.sortKeys block.toDict =
      Json.obj
        [(str "header", Json.sortKeys block.header.toDict),
          (str "transactions", Json.arr (Json.sortItems
            (block.transactions.map (fun transaction => transaction.toDict true))))] := rfl

omit [Crypto] in
theorem blockDict_distinct (block : Block) : Json.DistinctKeys block.toDict := by
  unfold Block.toDict
  simp only [Json.DistinctKeys, Json.FieldsDistinct, and_true, List.map_cons, List.map_nil]
  refine ⟨by decide, BlockHeader.toDict_distinct block.header, ?_⟩
  rw [Json.itemsDistinct_iff]
  intro item hitem
  rcases List.mem_map.mp hitem with ⟨transaction, _, heq⟩
  rw [← heq]
  exact Transaction.toDict_distinct transaction

theorem blockFromDict_sorted {block : Block} (h : StorableBlock block) :
    blockFromDict (Json.sortKeys block.toDict) = .ok block := by
  rw [blockDict_sortKeys, BlockHeader.toDict_sortKeys, blockFromDict_eq_ok_iff]
  refine ⟨_, _, _, rfl, rfl, rfl, ?_, rfl, rfl, rfl, rfl, rfl, rfl, rfl, ?_, h.structure_⟩
  · simp only [List.map_cons, List.map_nil]
    decide
  · rw [Json.sortItems_eq_map, List.map_map]
    apply mapM_map_eq_ok
    intro transaction htransaction
    exact transactionFromDict_sorted (h.transactions transaction htransaction)

theorem encodeBlock_eq_ok_iff {block : Block} {data : Bytes} :
    encodeBlock block = .ok data <->
      data = Json.serialize block.toDict ∧ StorableBlock block := by
  unfold encodeBlock
  simp only [guarded_eq_ok_iff, bind_eq_ok_iff, blockFromDict_toDict]
  constructor
  · intro h
    rcases h with ⟨_, _, _, ⟨_, hstorable⟩, heq⟩
    exact ⟨(Except.ok.inj heq).symm, hstorable⟩
  · intro h
    rcases h with ⟨heq, hstorable⟩
    refine ⟨block.transactions.map (fun transaction => transaction.toDict true), ?_, block,
      ⟨rfl, hstorable⟩, congrArg Except.ok heq.symm⟩
    rw [mapM_eq_ok_iff, List.forall₂_map_right_iff, List.forall₂_same]
    intro transaction htransaction
    exact transactionData_eq_ok_iff.mpr ⟨rfl, hstorable.transactions _ htransaction⟩

theorem decodeBlock_eq_ok_iff {data : Bytes} {block : Block} :
    decodeBlock data = .ok block <->
      data = Json.serialize block.toDict ∧ StorableBlock block := by
  unfold decodeBlock
  simp only [guarded_eq_ok_iff, bind_eq_ok_iff, require_eq_ok_iff]
  constructor
  · intro h
    rcases h with ⟨value, _, other, hother, _, hcanonical, heq⟩
    cases heq
    exact ⟨hcanonical.symm, blockFromDict_storable hother⟩
  · intro h
    rcases h with ⟨heq, hstorable⟩
    subst heq
    exact ⟨_, parse_serialize (blockDict_distinct block), block,
      blockFromDict_sorted hstorable, (), rfl, rfl⟩

/-!
### Encoding and decoding are inverse
-/

/-- What encodes is decoded to itself, and what decodes is encoded to itself, for
transactions and for blocks. -/
theorem codec_bijective :
    (forall transaction data, encodeTransaction transaction = .ok data ->
        exists decoded, decodeTransaction data = .ok decoded ∧ decoded = transaction ∧
          decoded.txid = transaction.txid) ∧
      (forall data transaction, decodeTransaction data = .ok transaction ->
        encodeTransaction transaction = .ok data) ∧
      (forall block data, encodeBlock block = .ok data ->
        exists decoded, decodeBlock data = .ok decoded ∧ decoded = block ∧
          decoded.merkleRoot = block.merkleRoot ∧ decoded.hash = block.hash) ∧
      (forall data block, decodeBlock data = .ok block -> encodeBlock block = .ok data) := by
  refine ⟨?_, ?_, ?_, ?_⟩
  · intro transaction data h
    exact ⟨transaction, decodeTransaction_eq_ok_iff.mpr (encodeTransaction_eq_ok_iff.mp h),
      rfl, rfl⟩
  · intro data transaction h
    exact encodeTransaction_eq_ok_iff.mpr (decodeTransaction_eq_ok_iff.mp h)
  · intro block data h
    exact ⟨block, decodeBlock_eq_ok_iff.mpr (encodeBlock_eq_ok_iff.mp h), rfl, rfl, rfl⟩
  · intro data block h
    exact encodeBlock_eq_ok_iff.mpr (decodeBlock_eq_ok_iff.mp h)

/-!
### Amounts
-/

omit [Crypto] in
theorem encodeAmount_eq_ok_iff {amount : Int} {data : Str} :
    encodeAmount amount = .ok data <->
      1 ≤ amount ∧ data = Nat.toDigits 10 amount.toNat := by
  unfold encodeAmount
  by_cases h : 1 ≤ amount
  · simp [h, eq_comm]
  · simp [h]

omit [Crypto] in
theorem isCanonicalAmount_iff (data : Str) :
    isCanonicalAmount data = true <->
      exists c tail, data = c :: tail ∧ c ≠ '0' ∧
        forall d, d ∈ data -> d.isDigit = true := by
  have hdigit : forall d : Char, (d.isDigit = true <-> '0' ≤ d ∧ d ≤ '9') := by
    intro d
    simp only [Char.isDigit, Bool.and_eq_true, decide_eq_true_eq]
    exact Iff.rfl
  have hne : forall d : Char, '0' ≤ d -> (d ≠ '0' <-> '1' ≤ d) := by
    intro d hd
    have hle : 48 ≤ d.toNat := hd
    constructor
    · intro h
      have hcode : d.toNat ≠ 48 := fun heq => h (Json.char_eq_of_toNat heq)
      change 49 ≤ d.toNat
      omega
    · intro h heq
      rw [heq] at h
      exact absurd h (by decide)
  cases data with
  | nil => simp [isCanonicalAmount]
  | cons c tail =>
      simp only [isCanonicalAmount, Bool.and_eq_true, decide_eq_true_eq, List.all_eq_true]
      constructor
      · intro h
        rcases h with ⟨⟨hone, _⟩, hall⟩
        refine ⟨c, tail, rfl, (hne c (hall c List.mem_cons_self).left).mpr hone, ?_⟩
        intro d hd
        exact (hdigit d).mpr (hall d hd)
      · intro h
        rcases h with ⟨c', tail', heq, hc, hall⟩
        cases heq
        have hfirst := (hdigit c).mp (hall c List.mem_cons_self)
        refine ⟨⟨(hne c hfirst.left).mp hc, hfirst.right⟩, ?_⟩
        intro d hd
        exact (hdigit d).mp (hall d hd)

omit [Crypto] in
theorem decodeAmount_eq_ok_iff {amount : Int} {data : Str} :
    decodeAmount data = .ok amount <->
      1 ≤ amount ∧ data = Nat.toDigits 10 amount.toNat := by
  unfold decodeAmount
  constructor
  · intro h
    split at h
    · rename_i hcanonical
      rcases (isCanonicalAmount_iff data).mp hcanonical with ⟨c, tail, hdata, hc, hall⟩
      rw [hdata] at hall h ⊢
      rcases Json.toDigits_digitsValue hc tail hall with ⟨hpos, hdigits⟩
      rw [← Except.ok.inj h, Int.toNat_natCast]
      exact ⟨by omega, hdigits.symm⟩
    · cases h
  · intro h
    rcases h with ⟨hpos, hdata⟩
    rcases Json.toDigits_cons amount.toNat with ⟨c, tail, hcons, _, hzero⟩
    have hcanonical : isCanonicalAmount data = true := by
      rw [isCanonicalAmount_iff]
      refine ⟨c, tail, hdata.trans hcons, ?_, ?_⟩
      · intro hc
        have hnil := (hzero hc).left
        omega
      · rw [hdata]
        exact Json.toDigits_isDigit amount.toNat
    rw [if_pos hcanonical, hdata]
    unfold Json.digitsValue
    rw [Nat.ofDigitChars_ten_toDigits]
    simp only [Except.ok.injEq]
    omega

end Codec

theorem Codec.codec_bijective_sample :
    exists decoded,
      @Codec.decodeBlock Sample.crypto (Json.serialize Sample.second.toDict) = .ok decoded ∧
        decoded = Sample.second ∧ decoded.merkleRoot = Sample.second.merkleRoot ∧
        @Block.hash Sample.crypto decoded = @Block.hash Sample.crypto Sample.second := by
  have hencode : @Codec.encodeBlock Sample.crypto Sample.second =
      .ok (Json.serialize Sample.second.toDict) := by
    decide +kernel
  exact (@Codec.codec_bijective Sample.crypto).right.right.left Sample.second _ hencode

end PyChain
