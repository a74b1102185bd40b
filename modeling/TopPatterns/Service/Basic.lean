import TopPatterns.Dataset.Layout
import TopPatterns.Dataset.Store
import TopPatterns.Mining.Partition
import TopPatterns.Service.Params

/-!
# The service

The service stores at most one dataset. Requests upload one, mine it or the transactions that they
bring along, and preview it. A request is answered with a `Reply`. An upload is accepted or leaves
what is stored as it was (`upload_cases`), and no other request changes it
(`handle_of_not_accepted`).

`mineWith` mines transactions with the parameters of a request, and `Report` is what a request is
told: the patterns by falling support, each with the share of the transactions that hold it.
-/

namespace TopPatterns

/-! ## Reports -/

/-- Mines transactions with the parameters of a request. -/
def mineWith (transactions : List Transaction) (p : Params) : Except MiningError Collector :=
  let minimum := p.minimumCount transactions.length
  if 1 < p.partitions then
    minePartitioned transactions p.topK minimum p.subsumption p.partitions none
  else mine transactions p.topK minimum p.subsumption

/-- What a mining request is told. -/
structure Report where
  params : Params
  minimum : Int
  collector : Collector
  transactions : Nat

namespace Report

/-- The share of the transactions that hold a pattern, in units of 1/10000. -/
def share (r : Report) (p : Pattern) : Nat := (quotient p.support r.transactions).units 4

/-- The share of the transactions that hold a pattern, as a text with four places. -/
def shareText (r : Report) (p : Pattern) : String := fixedText 4 (r.share p)

end Report

/-- The report of mining transactions with the parameters of a request. -/
def report (transactions : List Transaction) (p : Params) : Except MiningError Report :=
  (mineWith transactions p).map fun c =>
    ⟨p, p.minimumCount transactions.length, c, transactions.length⟩

/-! ## Requests and replies -/

/-- The text that is stored, if a dataset is stored. -/
abbrev Store := Option String

/-- A file as an upload brings it, and the form field that asks for lower case. -/
structure Upload where
  filename : String
  content : List UInt8
  lowercase : String

/-- The body of a request for patterns. -/
inductive Body where
  /-- No body that counts: there is none, it is no JSON or is not said to be. -/
  | absent
  /-- A body with a value. -/
  | value (value : Json)
  /-- A body with a list or an object that lies too deep to be read. -/
  | tooDeep (nest : Json.Nest)

/-- What is asked of the service. -/
inductive Request where
  | health
  | upload (file : Option Upload)
  | topk (body : Body)
  | preview

/-- An answer of the service. -/
inductive Reply where
  /-- The service runs. -/
  | healthy
  /-- A request is refused or fails, with a status and a message. -/
  | failed (status : Nat) (message : String)
  /-- A dataset of this size is stored. -/
  | uploaded (stats : Dataset.Stats)
  /-- Patterns were mined. -/
  | mined (report : Report)
  /-- The first transactions of the stored dataset, and its size. -/
  | previewed (sample : List (List CodeText)) (stats : Dataset.Stats)

/-- The status of an answer. -/
def Reply.status : Reply → Nat
  | .failed status _ => status
  | _ => 200

namespace Service

/-- What the service says of itself. -/
def healthMessage : String := "TopK Miner backend is running"

/-- The name of the miner in reports. -/
def algorithmName : String := "topk-fp-growth"

/-- What is said of an upload that succeeded. -/
def uploadMessage : String := "Dataset uploaded successfully"

/-! ## Uploads -/

/-- The endings of the names of data files. -/
def fileEndings : List (List Char) := [".csv", ".txt", ".dat"].map String.toList

/-- Whether a file's name ends like one of a data file, in any case. -/
def isDataFile (filename : String) : Bool :=
  let name := Text.lower filename.toList
  fileEndings.any fun ending => ending.isSuffixOf name

/-- Whether the form field asks for lower case. -/
def asksLowercase (value : String) : Bool :=
  let word := Text.lowerString value
  word = "1" || word = "true" || word = "yes"

/-- Stores the transactions of a file. -/
def upload (file : Option Upload) (store : Store) : Reply × Store :=
  match file with
  | none => (.failed 400 "No file provided", store)
  | some file =>
    if file.filename.isEmpty then (.failed 400 "No file selected", store)
    else if !isDataFile file.filename then
      (.failed 400 "Unsupported file format. Use CSV, TXT or DAT.", store)
    else
      match Dataset.parse (asksLowercase file.lowercase) file.content with
      | [] => (.failed 400 "No valid transactions found in dataset", store)
      | transactions =>
        let transactions := Dataset.ofTexts (transactions.map fun t => t.map CodeText.ofString)
        (.uploaded (Dataset.stats transactions), some (Dataset.save transactions))

/-! ## Mining -/

/-- Whether a content type says that a body is JSON. What follows a semicolon plays no part, nor do
spaces and tabs around the rest. -/
def isJsonType (contentType : String) : Bool :=
  let main := contentType.toList.takeWhile (· ≠ ';')
  let name := Text.lower (Text.trimOf (fun c => c = ' ' || c = '\t') main)
  name = "application/json".toList ||
    ("application/".toList.isPrefixOf name && "+json".toList.isSuffixOf name)

/-- A body with a value, if the content type says that the body is JSON. -/
def bodyOfValue (contentType : String) (value : Json) : Body :=
  if isJsonType contentType then .value value else .absent

/-- A body given as bytes, if the content type says that it is JSON. -/
def bodyOfBytes (contentType : String) (bytes : List UInt8) : Body :=
  if isJsonType contentType then
    match (Json.decodeText bytes).map Json.readText with
    | some (.ok value) => .value value
    | some (.error (.tooDeep nest)) => .tooDeep nest
    | _ => .absent
  else .absent

/-- The parameters in a body; a body that says nothing counts as an empty object. -/
def requestData (body : Body) : Except Json.Nest Json :=
  match body with
  | .absent => .ok (.object [])
  | .value value => .ok (if value.isVoid then .object [] else value)
  | .tooDeep nest => .error nest

/-- The items of one transaction of a request, each as a text. -/
def requestItems (value : Json) : Except String (List CodeText) :=
  match value.elements? with
  | none => .error (Json.notIterableMessage value.kind)
  | some items => .ok (items.map Json.label)

/-- The transactions of a request; those that say nothing are left out. -/
def requestTransactions (value : Json) : Except String (List (List CodeText)) :=
  match value.elements? with
  | none => .error (Json.notIterableMessage value.kind)
  | some rows => (rows.filter fun row => !row.isVoid).mapM requestItems

/-- The answer to a request that fails for a reason beyond what it asks for. -/
def miningFailed (message : String) : Reply := .failed 500 ("Mining failed: " ++ message)

/-- The transactions that a request is about: those that it brings along, or the stored ones. -/
def transactionsOf (data : Json) (store : Store) : Except Reply (List (List CodeText)) :=
  let brought := match data with
    | .object fields => Json.field? fields "transactions"
    | _ => none
  match brought with
  | some value => (requestTransactions value).mapError miningFailed
  | none =>
    (Dataset.load store).mapError fun error =>
      if error.isRefusal then .failed 400 error.message else miningFailed error.message

/-- Mines with given parameters. -/
def mineReply (transactions : List (List CodeText)) (p : Params) : Reply :=
  if transactions.isEmpty then
    .failed 400 "No transactions loaded. Please upload a dataset first."
  else
    match report (Dataset.ofTexts transactions) p with
    | .error error => .failed 400 error.message
    | .ok r => .mined r

/-- Mines the stored dataset or the transactions of a request. -/
def topk (body : Body) (store : Store) : Reply :=
  match requestData body with
  | .error nest => miningFailed nest.tooDeepMessage
  | .ok data =>
    match Params.ofJson data with
    | .error error =>
      if error.isRefusal then .failed 400 error.message else miningFailed error.message
    | .ok p =>
      match transactionsOf data store with
      | .error reply => reply
      | .ok transactions => mineReply transactions p

/-! ## Previews -/

/-- How many transactions a preview shows. -/
def sampleSize : Nat := 10

/-- Shows the first transactions of the stored dataset. -/
def preview (store : Store) : Reply :=
  match Dataset.load store with
  | .error .noFile => .failed 404 (Dataset.LoadError.message .noFile)
  | .error error => .failed 500 error.message
  | .ok transactions =>
    .previewed (transactions.take sampleSize) (Dataset.stats (Dataset.ofTexts transactions))

/-! ## Answers -/

/-- Answers a request. -/
def handle (request : Request) (store : Store) : Reply × Store :=
  match request with
  | .health => (.healthy, store)
  | .upload file => upload file store
  | .topk body => (topk body store, store)
  | .preview => (preview store, store)

/-- Answers requests one after the other, beginning with a store. -/
def handleAll (store : Store) : List Request → List Reply × Store
  | [] => ([], store)
  | request :: rest =>
    let (reply, store) := handle request store
    let (replies, store) := handleAll store rest
    (reply :: replies, store)

end Service

end TopPatterns
