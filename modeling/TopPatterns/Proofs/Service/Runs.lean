import TopPatterns.Proofs.Dataset.Store
import TopPatterns.Service.Basic

/-!
# What the service stores

After requests from the start, the service stores what the last accepted upload brought, and nothing
if there was none. An upload is accepted or leaves the store as it was (`upload_cases`), so one
request keeps the store in step with the last upload accepted (`handle_stored`), and by induction so
do all of them (`handleAll_stored`). What is loaded from the store is what the parser found
(`Dataset.load_save_parse`): a preview shows it with the size that the upload was answered with, and
a request for patterns is answered as if it brought these transactions along (`handleAll_holds`).
-/

namespace TopPatterns.Service

open Dataset (ofStrings ofTexts)

/-- The transactions that the parser finds in a file. -/
def parsed (file : Upload) : List (List String) :=
  Dataset.parse (asksLowercase file.lowercase) file.content

/-- The file and the answer of an upload that is accepted. -/
def accepted? : Request × Reply → Option (Upload × Reply)
  | (.upload (some file), reply) => if reply.status = 200 then some (file, reply) else none
  | _ => none

/-- The last upload accepted among requests, with its answer. -/
def lastAccepted? (requests : List Request) (replies : List Reply) : Option (Upload × Reply) :=
  ((requests.zip replies).filterMap accepted?).getLast?

/-! ## Steps -/

/-- An upload fails and stores nothing, or stores the transactions of its file. -/
theorem upload_cases (file : Option Upload) (store : Store) :
    ((upload file store).1.status ≠ 200 ∧ (upload file store).2 = store) ∨
    ∃ f, file = some f ∧ parsed f ≠ [] ∧ upload file store =
      (.uploaded (Dataset.stats (ofTexts (ofStrings (parsed f)))),
        some (Dataset.save (ofTexts (ofStrings (parsed f))))) := by
  have hrefused : ∀ message, (Reply.failed 400 message).status ≠ 200 :=
    fun _ (h : 400 = 200) => absurd h (by decide)
  unfold upload
  split
  · exact .inl ⟨hrefused _, rfl⟩
  · next f =>
    split
    · exact .inl ⟨hrefused _, rfl⟩
    · split
      · exact .inl ⟨hrefused _, rfl⟩
      · split
        · exact .inl ⟨hrefused _, rfl⟩
        · next transactions hne =>
          exact .inr ⟨f, rfl, hne, rfl⟩

/-- A request that is no accepted upload leaves the store as it was. -/
theorem handle_of_not_accepted {request : Request} {store : Store}
    (h : accepted? (request, (handle request store).1) = none) :
    (handle request store).2 = store := by
  cases request with
  | health => rfl
  | topk body => rfl
  | preview => rfl
  | upload file =>
    rcases upload_cases file store with ⟨-, hstore⟩ | ⟨f, rfl, -, heq⟩
    · exact hstore
    · rw [handle, heq] at h
      cases h

/-- Whether a store is in step with the last upload accepted. -/
def Stored : Option (Upload × Reply) → Store → Prop
  | none, store => store = none
  | some (file, reply), store =>
    reply = .uploaded (Dataset.stats (ofTexts (ofStrings (parsed file)))) ∧
    store = some (Dataset.save (ofTexts (ofStrings (parsed file))))

/-- An accepted upload stores the transactions of its file, and is answered with their size. -/
theorem stored_of_accepted {request : Request} {store : Store} {last : Upload × Reply}
    (h : accepted? (request, (handle request store).1) = some last) :
    Stored (some last) (handle request store).2 := by
  cases request with
  | health => cases h
  | topk body => cases h
  | preview => cases h
  | upload file =>
    rw [handle] at h ⊢
    rcases upload_cases file store with ⟨hstatus, -⟩ | ⟨f, rfl, -, heq⟩
    · cases file with
      | none => cases h
      | some f =>
        rw [accepted?, if_neg hstatus] at h
        cases h
    · rw [heq] at h ⊢
      cases h
      exact ⟨rfl, rfl⟩

/-- One request keeps the store in step. -/
theorem handle_stored {last : Option (Upload × Reply)} {store : Store} (h : Stored last store)
    (request : Request) :
    Stored ((accepted? (request, (handle request store).1)).or last) (handle request store).2 := by
  cases haccepted : accepted? (request, (handle request store).1) with
  | none =>
    rw [handle_of_not_accepted haccepted]
    exact h
  | some next => exact stored_of_accepted haccepted

/-! ## Runs -/

theorem lastAccepted?_cons (request : Request) (requests : List Request) (reply : Reply)
    (replies : List Reply) (last : Option (Upload × Reply)) :
    (lastAccepted? (request :: requests) (reply :: replies)).or last =
      (lastAccepted? requests replies).or ((accepted? (request, reply)).or last) := by
  rw [lastAccepted?, List.zip_cons_cons, List.filterMap_cons]
  cases accepted? (request, reply) with
  | none => rfl
  | some next =>
    simp only
    rw [List.getLast?_cons, lastAccepted?]
    cases ((requests.zip replies).filterMap accepted?).getLast? <;> rfl

/-- Requests keep the store in step. -/
theorem handleAll_stored {last : Option (Upload × Reply)} {store : Store} (h : Stored last store)
    (requests : List Request) :
    Stored ((lastAccepted? requests (handleAll store requests).1).or last)
      (handleAll store requests).2 := by
  -- the last upload accepted so far is carried along, as the requests left may bring none
  induction requests generalizing last store with
  | nil => exact h
  | cons request requests ih =>
    rw [handleAll, lastAccepted?_cons]
    exact ih (handle_stored h request)

/-! ## Transactions brought along -/

/-- Transactions as the value of a field. -/
def rowsValue (transactions : List (List String)) : Json :=
  .array (transactions.map Dataset.stringsRow)

theorem isVoid_stringsRow {t : List String} (h : t ≠ []) :
    (Dataset.stringsRow t).isVoid = false := by
  obtain ⟨s, t, rfl⟩ := List.exists_cons_of_ne_nil h
  rfl

theorem requestItems_stringsRow (t : List String) :
    requestItems (Dataset.stringsRow t) = .ok (t.map CodeText.ofString) := by
  rw [requestItems, Dataset.stringsRow, Json.elements?_array]
  simp only
  rw [Json.strings, List.map_map, List.map_map]
  rfl

/-- Transactions that a request brings along are those of its field, if none is empty. -/
theorem requestTransactions_rowsValue {transactions : List (List String)}
    (h : ∀ t ∈ transactions, t ≠ []) :
    requestTransactions (rowsValue transactions) = .ok (ofStrings transactions) := by
  have hkept : ((transactions.map Dataset.stringsRow).filter fun row => !row.isVoid) =
      transactions.map Dataset.stringsRow := by
    refine List.filter_eq_self.2 fun row hrow => ?_
    obtain ⟨t, ht, rfl⟩ := List.mem_map.1 hrow
    rw [isVoid_stringsRow (h t ht), Bool.not_false]
  rw [requestTransactions, rowsValue, Json.elements?_array]
  simp only [hkept]
  rw [List.mapM_map]
  exact Dataset.mapM_eq_ok requestItems_stringsRow transactions

/-- The parameters do not depend on the transactions. -/
theorem ofFields_congr {fields fields' : List (CodeText × Json)}
    (h : ∀ key : CodeText, key ≠ "transactions" →
      Json.field? fields' key = Json.field? fields key) :
    Params.ofFields fields' = Params.ofFields fields := by
  simp only [Params.ofFields, h "top_k" (by decide), h "min_support" (by decide),
    h "subsumption" (by decide), h "partitions" (by decide)]

theorem requestData_object (fields : List (CodeText × Json)) :
    requestData (.value (.object fields)) = .ok (.object fields) := by
  rw [requestData, Json.isVoid]
  cases fields <;> rfl

/-- A request that brings along what is stored is answered like one that brings nothing. -/
theorem topk_rowsValue {transactions : List (List String)} {store : Store}
    (hne : ∀ t ∈ transactions, t ≠ []) (hload : Dataset.load store = .ok (ofStrings transactions))
    {fields fields' : List (CodeText × Json)}
    (hmissing : Json.field? fields "transactions" = none)
    (hrows : Json.field? fields' "transactions" = some (rowsValue transactions))
    (hother : ∀ key : CodeText, key ≠ "transactions" →
      Json.field? fields' key = Json.field? fields key) :
    topk (.value (.object fields')) store = topk (.value (.object fields)) store := by
  have hbrought : transactionsOf (.object fields') store = .ok (ofStrings transactions) := by
    simp only [transactionsOf, hrows, requestTransactions_rowsValue hne]
    rfl
  have hstored : transactionsOf (.object fields) store = .ok (ofStrings transactions) := by
    simp only [transactionsOf, hmissing, hload]
    rfl
  simp only [topk, requestData_object, Params.ofJson, ofFields_congr hother, hbrought, hstored]

/-- What a store holds after an upload that no other accepted one follows: it is loaded as the
parser found it, previewed with the size that the upload was answered with, and mined like
transactions that a request brings along. -/
structure Holds (file : Upload) (reply : Reply) (store : Store) : Prop where
  load_eq : Dataset.load store = .ok (ofStrings (parsed file))
  preview_eq : ∃ stats, reply = .uploaded stats ∧
    preview store = .previewed ((ofStrings (parsed file)).take sampleSize) stats
  topk_eq : ∀ fields fields' : List (CodeText × Json),
    Json.field? fields "transactions" = none →
    Json.field? fields' "transactions" = some (rowsValue (parsed file)) →
    (∀ key : CodeText, key ≠ "transactions" →
      Json.field? fields' key = Json.field? fields key) →
    topk (.value (.object fields')) store = topk (.value (.object fields)) store

theorem Stored.holds {file : Upload} {reply : Reply} {store : Store}
    (h : Stored (some (file, reply)) store) : Holds file reply store := by
  obtain ⟨rfl, rfl⟩ := h
  have hload := Dataset.load_save_parse (asksLowercase file.lowercase) file.content
  refine ⟨hload, ⟨_, rfl, ?_⟩, fun fields fields' hmissing hrows hother => ?_⟩
  · rw [preview, parsed, hload]
  · exact topk_rowsValue (fun t ht => (Dataset.of_mem_parse ht).1) hload hmissing hrows hother

/-- Only an accepted upload changes what is stored. After any requests from the start nothing is
stored if none was accepted, and what the last one brought otherwise. -/
theorem handleAll_holds (requests : List Request) :
    (∀ request store, accepted? (request, (handle request store).1) = none →
      (handle request store).2 = store) ∧
    (lastAccepted? requests (handleAll none requests).1 = none →
      Dataset.load (handleAll none requests).2 = .error .noFile) ∧
    ∀ file reply, lastAccepted? requests (handleAll none requests).1 = some (file, reply) →
      Holds file reply (handleAll none requests).2 := by
  have hstart : Stored none none := rfl
  have hstored := handleAll_stored hstart requests
  rw [Option.or_none] at hstored
  refine ⟨fun request store h => handle_of_not_accepted h, fun hnone => ?_,
    fun file reply hlast => ?_⟩
  · rw [hnone] at hstored
    rw [hstored, Dataset.load_none]
  · rw [hlast] at hstored
    exact hstored.holds

/-- A file of one line with capitals, to be put into lower case. -/
def teaAndMilk : Upload := ⟨"shop.csv", Text.Utf8.encode "Tea;MILK".toList, "yes"⟩

theorem upload_teaAndMilk (store : Store) :
    (upload (some teaAndMilk) store).1 = .uploaded ⟨1, 2, 200, 2⟩ := by
  have hname : teaAndMilk.filename.isEmpty = false := by decide +kernel
  have hfile : isDataFile teaAndMilk.filename = true := by decide +kernel
  have hparse : Dataset.parse (asksLowercase teaAndMilk.lowercase) teaAndMilk.content =
      [["tea", "milk"]] := by decide +kernel
  have hstats : Dataset.stats (ofTexts ([["tea", "milk"]].map fun t => t.map CodeText.ofString)) =
      ⟨1, 2, 200, 2⟩ := by decide +kernel
  simp only [upload, hname, hfile, hparse, hstats, Bool.not_true, Bool.false_eq_true, if_false]

/-- Without an upload there is nothing to load; after one, transactions brought along and those
stored are mined alike. -/
theorem handleAll_holds_of_one_upload :
    Dataset.load (handleAll none [.preview]).2 = .error .noFile ∧
    Holds teaAndMilk (.uploaded ⟨1, 2, 200, 2⟩)
      (handleAll none [.upload (some teaAndMilk), .upload none]).2 ∧
    topk (.value (.object [("transactions", rowsValue (parsed teaAndMilk))]))
        (handleAll none [.upload (some teaAndMilk), .upload none]).2 =
      topk (.value (.object [])) (handleAll none [.upload (some teaAndMilk), .upload none]).2 := by
  have hlast : lastAccepted? [.upload (some teaAndMilk), .upload none]
      (handleAll none [.upload (some teaAndMilk), .upload none]).1 =
      some (teaAndMilk, .uploaded ⟨1, 2, 200, 2⟩) := by
    simp only [handleAll, handle, upload_teaAndMilk]
    rfl
  have hholds := (handleAll_holds [.upload (some teaAndMilk), .upload none]).2.2 _ _ hlast
  have hother : ∀ key : CodeText, key ≠ "transactions" →
      Json.field? [("transactions", rowsValue (parsed teaAndMilk))] key = Json.field? [] key :=
    fun key hkey => (Json.field?_setField "transactions" key _ []).trans (if_neg hkey.symm)
  exact ⟨(handleAll_holds [.preview]).2.1 rfl, hholds, hholds.topk_eq _ _ rfl rfl hother⟩

end TopPatterns.Service
