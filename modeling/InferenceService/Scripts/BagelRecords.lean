import InferenceService.Gateway.Multimodal
import InferenceService.Scripts.ImageDimensions

/-!
# `run_bagel_workload_manifest.py`: the cases and their records

What is read of the manifest, and what is recorded of the reply to a case. Times
are left out.
-/

namespace InferenceService

/-- `str(value)` of what is not a text, and `str.lower`. -/
structure ValueTexts where
  format : Python.Value → String
  lower : Python.Str → Python.Str

namespace ValueTexts

def str (T : ValueTexts) : Python.Value → Python.Str
  | .str text => text
  | value => Python.str (T.format value)

/-- `str(value)` as a field of a form. -/
def field (T : ValueTexts) (value : Python.Value) : Option String := Python.encodeUtf8 (T.str value)

/-- `str(value).lower()` as a field of a form. -/
def flag (T : ValueTexts) (value : Python.Value) : Option String := Python.encodeUtf8 (T.lower (T.str value))

end ValueTexts

def typeName : Python.Value → String
  | .none => "NoneType"
  | .bool _ => "bool"
  | .int _ => "int"
  | .float _ => "float"
  | .str _ => "str"
  | .list _ => "list"
  | .dict _ => "dict"

def hashable : Python.Value → Bool
  | .list _ | .dict _ => false
  | .none | .bool _ | .int _ | .float _ | .str _ => true

def unhashable (value : Python.Value) : Python.Exception :=
  ⟨"TypeError", Python.str ("unhashable type: '" ++ typeName value ++ "'")⟩

/-! ## `load_manifest` -/

def requiredFields : List String :=
  ["case_id", "do_sample", "image_path", "image_sha256", "max_new_tokens", "prompt", "repeat_index", "scenario",
    "show_thinking", "source_case_id", "temperature"]

def missingFields (names : List Python.Str) : List String :=
  requiredFields.filter fun field => Python.str field ∉ names

structure ManifestRecord where
  fields : Python.Dict
  complete : missingFields (fields.map Prod.fst) = []
deriving DecidableEq

def ManifestRecord.get (record : ManifestRecord) (field : String) : Python.Value :=
  (record.fields.get? (Python.str field)).getD .none

/-- A list is taken for a record when the names of the fields are among its
items. -/
inductive ManifestRow where
  | record (record : ManifestRecord)
  | items (items : List Python.Value)
deriving DecidableEq

def ManifestRow.value : ManifestRow → Python.Value
  | .record r => .dict r.fields
  | .items values => .list values

/-- Of the items of a list only texts can be names. -/
def itemNames (items : List Python.Value) : List Python.Str :=
  items.filterMap fun item => match item with
    | .str text => some text
    | _ => none

def missingError (lineNumber : Nat) (names : List Python.Str) : Python.Exception :=
  ⟨"ValueError", Python.str ("manifest line " ++ toString lineNumber ++ " missing required fields: [" ++
    ", ".intercalate ((missingFields names).map fun field => "'" ++ field ++ "'") ++ "]")⟩

def manifestRow (lineNumber : Nat) : Python.Value → Except Python.Exception ManifestRow
  | .dict fields =>
    if h : missingFields (fields.map Prod.fst) = [] then .ok (.record ⟨fields, h⟩)
    else .error (missingError lineNumber (fields.map Prod.fst))
  | .list items =>
    match items.find? fun item => !hashable item with
    | some item => .error (unhashable item)
    | none =>
      if missingFields (itemNames items) = [] then .ok (.items items)
      else .error (missingError lineNumber (itemNames items))
  -- the set of a text is that of its characters
  | .str text => .error (missingError lineNumber (text.map fun c => [c]))
  | value => .error ⟨"TypeError", Python.str ("'" ++ typeName value ++ "' object is not iterable")⟩

def manifestLines (loads : Chars → Except Python.Exception Python.Value) :
    List (Chars × Nat) → Except Python.Exception (List ManifestRow)
  | [] => .ok []
  | (line, lineNumber) :: lines =>
    if Python.strip line = [] then manifestLines loads lines
    else do
      let value ← loads line
      let row ← manifestRow lineNumber value
      let rows ← manifestLines loads lines
      .ok (row :: rows)

def loadManifest (loads : Chars → Except Python.Exception Python.Value) (path : String) (text : Chars) :
    Except Python.Exception (List ManifestRow) := do
  let rows ← manifestLines loads ((Python.splitlines text).zipIdx 1)
  if rows = [] then .error ⟨"ValueError", Python.str ("manifest contains no records: " ++ path)⟩ else .ok rows

/-- The lines of the manifest that are not blank. -/
def manifestCases (text : Chars) : List Chars := (Python.splitlines text).filter fun line => Python.strip line ≠ []

/-! ## `prepare_case` -/

/-- The files of the repository, and what the standard library makes of them. -/
structure ImageFiles where
  image : Python.Str → Except Python.Exception (Option Bytes)
  absolute : Python.Str → Python.Str
  filename : Python.Str → Python.Str
  sha256 : Bytes → String
  guessType : Python.Str → Option String

structure BagelCase where
  record : ManifestRecord
  filename : Python.Str
  imageBytes : Bytes
  contentType : String
  imageWidth : Option Nat
  imageHeight : Option Nat

section
variable (F : ImageFiles) (T : ValueTexts)

def missingImage (record : ManifestRecord) (path : Python.Str) : Python.Exception :=
  ⟨"FileNotFoundError", Python.str "image missing for " ++ T.str (record.get "case_id") ++ Python.str ": " ++
    F.absolute path⟩

def sha256Mismatch (record : ManifestRecord) (imageBytes : Bytes) : Python.Exception :=
  ⟨"ValueError", Python.str "image sha256 mismatch for " ++ T.str (record.get "case_id") ++
    Python.str ": expected=" ++ T.str (record.get "image_sha256") ++
    Python.str (" actual=" ++ F.sha256 imageBytes)⟩

def prepareRecord (record : ManifestRecord) (path : Python.Str) : Except Python.Exception BagelCase := do
  match ← F.image path with
  | none => .error (missingImage F T record path)
  | some imageBytes =>
    if Python.Value.str (Python.str (F.sha256 imageBytes)) ≠ record.get "image_sha256" then
      .error (sha256Mismatch F T record imageBytes)
    else
      match imageDimensions 131074 imageBytes with
      | some (.returned imageWidth imageHeight) => .ok {
          record
          filename := F.filename path
          imageBytes
          contentType := match F.guessType (F.filename path) with
            | none => "application/octet-stream"
            | some contentType => if contentType = "" then "application/octet-stream" else contentType
          imageWidth
          imageHeight }
      | _ => .error ⟨"IndexError", Python.str "index out of range"⟩

def prepareCase : ManifestRow → Except Python.Exception BagelCase
  | .items _ => .error ⟨"TypeError", Python.str "list indices must be integers or slices, not str"⟩
  | .record record =>
    match record.get "image_path" with
    | .str path => prepareRecord F T record path
    | value => .error ⟨"TypeError",
        Python.str ("unsupported operand type(s) for /: 'PosixPath' and '" ++ typeName value ++ "'")⟩

def prepareCases (rows : List ManifestRow) : Except Python.Exception (List BagelCase) := rows.mapM (prepareCase F T)

end

/-! ## `run_case` -/

structure MultimodalForm where
  filename : String
  imageBytes : Bytes
  contentType : String
  prompt : String
  showThinking : String
  doSample : String
  temperature : String
  maxNewTokens : String

structure HttpResponse where
  status : Nat
  text : Python.Str
  json : Option Python.Value

/-- The prompt, when the base record can be built. -/
def BagelCase.prompt (case : BagelCase) : Option String :=
  match case.record.get "prompt" with
  | .str text => Python.encodeUtf8 text
  | _ => none

/-- What is sent; `none` is an exception, which is recorded when there is a base
record. -/
def caseForm (T : ValueTexts) (case : BagelCase) : Option MultimodalForm := do
  let prompt ← case.prompt
  let showThinking ← T.flag (case.record.get "show_thinking")
  let doSample ← T.flag (case.record.get "do_sample")
  let temperature ← T.field (case.record.get "temperature")
  let maxNewTokens ← T.field (case.record.get "max_new_tokens")
  let filename ← Python.encodeUtf8 case.filename
  some {
    filename
    imageBytes := case.imageBytes
    contentType := case.contentType
    prompt
    showThinking
    doSample
    temperature
    maxNewTokens }

structure BagelRecord where
  manifestIndex : Nat
  case : BagelCase
  httpStatus : Option Nat
  success : Bool
  serviceLatency : Python.Value
  response : Python.Str
  errorType : String
  error : Python.Str

def failedCase (manifestIndex : Nat) (case : BagelCase) (exc : Python.Exception) : BagelRecord where
  manifestIndex
  case
  httpStatus := none
  success := false
  serviceLatency := .none
  response := []
  errorType := exc.typeName
  error := exc.text

def HttpResponse.isSuccess (response : HttpResponse) : Bool := 200 ≤ response.status ∧ response.status < 300

def receivedCase (T : ValueTexts) (manifestIndex : Nat) (case : BagelCase) (response : HttpResponse)
    (payload : Python.Dict) : BagelRecord where
  manifestIndex
  case
  httpStatus := some response.status
  success := response.isSuccess
  serviceLatency := (payload.get? (Python.str "latency_seconds")).getD .none
  response :=
    if response.isSuccess then T.str ((payload.get? (Python.str "response")).getD (.str [])) else []
  errorType := if response.isSuccess then "" else "http_" ++ toString response.status
  error := if response.isSuccess then [] else response.text.take 2000

def caseRecord (T : ValueTexts) (manifestIndex : Nat) (case : BagelCase) :
    Except Python.Exception HttpResponse → BagelRecord
  | .error exc => failedCase manifestIndex case exc
  | .ok response =>
    match response.json.getD (.dict []) with
    | .dict payload => receivedCase T manifestIndex case response payload
    | payload => failedCase manifestIndex case
        ⟨"AttributeError", Python.str ("'" ++ typeName payload ++ "' object has no attribute 'get'")⟩

namespace BagelRecord

def promptText (record : BagelRecord) : String := record.case.prompt.getD ""

/-- The row of `records.jsonl`. -/
def row (record : BagelRecord) : Python.Dict :=
  let get (field : String) := (Python.str field, record.case.record.get field)
  let count (field : String) (n : Option Nat) := (Python.str field, Python.Value.ofInt? (n.map Int.ofNat))
  [count "manifest_index" (some record.manifestIndex), get "case_id", get "source_case_id", get "scenario",
    get "repeat_index", get "image_path", get "image_sha256",
    (Python.str "image_content_type", .str (Python.str record.case.contentType)),
    count "image_bytes" (some record.case.imageBytes.length), count "image_width" record.case.imageWidth,
    count "image_height" record.case.imageHeight,
    (Python.str "prompt_variant", (record.case.record.fields.get? (Python.str "prompt_variant")).getD
      (.str (Python.str "default"))),
    count "prompt_chars" (some record.promptText.length),
    count "prompt_utf8_bytes" (some record.promptText.utf8ByteSize),
    get "show_thinking", get "do_sample", get "temperature", get "max_new_tokens",
    count "http_status" record.httpStatus, (Python.str "success", .bool record.success),
    (Python.str "service_latency_seconds", record.serviceLatency),
    count "response_chars" (some record.response.length), (Python.str "response", .str record.response),
    (Python.str "error_type", .str (Python.str record.errorType)), (Python.str "error", .str record.error)]

/-- The row can be encoded. -/
def plain (record : BagelRecord) : Bool := (Python.Value.dict record.row).plain

end BagelRecord

/-! ## What the cases are of -/

theorem manifestRow_value {lineNumber : Nat} {value : Python.Value} {row : ManifestRow}
    (h : manifestRow lineNumber value = .ok row) : value = row.value := by
  unfold manifestRow at h
  split at h
  · split_ifs at h
    cases h
    rfl
  · split at h
    · cases h
    · split_ifs at h
      cases h
      rfl
  · cases h
  · cases h

theorem manifestLines_ok {loads : Chars → Except Python.Exception Python.Value} {lines : List (Chars × Nat)}
    {rows : List ManifestRow} (h : manifestLines loads lines = .ok rows) :
    List.Forall₂ (fun line row => loads line = .ok row.value)
      ((lines.map Prod.fst).filter fun line => Python.strip line ≠ []) rows := by
  induction lines generalizing rows with
  | nil =>
    cases h
    exact .nil
  | cons line lines ih =>
    obtain ⟨line, lineNumber⟩ := line
    unfold manifestLines at h
    by_cases hblank : Python.strip line = []
    · rw [if_pos hblank] at h
      rw [List.map_cons, List.filter_cons_of_neg (by simp [hblank])]
      exact ih h
    · rw [if_neg hblank] at h
      rw [List.map_cons, List.filter_cons_of_pos (by simp [hblank])]
      obtain ⟨value, hvalue, h⟩ := Python.bind_eq_ok.mp h
      obtain ⟨row, hrow, h⟩ := Python.bind_eq_ok.mp h
      obtain ⟨rest, hrest, h⟩ := Python.bind_eq_ok.mp h
      cases h
      rw [manifestRow_value hrow] at hvalue
      exact .cons hvalue (ih hrest)

theorem loadManifest_ok {loads : Chars → Except Python.Exception Python.Value} {path : String} {text : Chars}
    {manifest : List ManifestRow} (h : loadManifest loads path text = .ok manifest) :
    manifest ≠ [] ∧ List.Forall₂ (fun line row => loads line = .ok row.value) (manifestCases text) manifest := by
  obtain ⟨rows, hrows, h⟩ := Python.bind_eq_ok.mp h
  split_ifs at h with hempty
  cases h
  have hall := manifestLines_ok hrows
  rw [List.zipIdx_map_fst] at hall
  exact ⟨hempty, hall⟩

/-- The bytes that are sent are those that the manifest means. -/
theorem prepareCase_true {F : ImageFiles} {T : ValueTexts} {row : ManifestRow} {case : BagelCase}
    (h : prepareCase F T row = .ok case) : row = .record case.record ∧
      case.record.get "image_sha256" = .str (Python.str (F.sha256 case.imageBytes)) := by
  cases row with
  | items items => cases h
  | record record =>
    unfold prepareCase at h
    dsimp only at h
    split at h
    · obtain ⟨image, _, h⟩ := Python.bind_eq_ok.mp h
      cases image with
      | none => cases h
      | some imageBytes =>
        dsimp only at h
        split_ifs at h with hsha
        split at h
        · cases h
          exact ⟨rfl, (not_not.mp hsha).symm⟩
        · cases h
    · cases h

end InferenceService
