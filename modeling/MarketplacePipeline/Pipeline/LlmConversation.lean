import MarketplacePipeline.Pipeline.OpenAiSegmentClassifier
import MarketplacePipeline.Python.JsonGrammar

/-!
# The conversation with the LLM

The products go to the LLM as the text of a JSON object, and the segments come back as a JSON text.
`FollowsPrompt label content text` says that `text` is what the system prompt asks for: it reads the
items of `content`, labels each of them, and writes an array of their ids and segments, bare or as
the `items` of an object, in any notation that JSON has.
-/

namespace MarketplacePipeline.OpenAiSegmentClassifier

open JsonDumps JsonLoads JsonGrammar

/-! ### The message of the user -/

/-- An element of `user_payload`. -/
def itemJson (item : LlmItem) : Json :=
  .dict [("id".toList, .str item.id), ("name".toList, .str item.name),
    ("description".toList, .str item.description)]

/-- `json.dumps({"items": user_payload}, ensure_ascii=False)`. -/
def userContent (items : List LlmItem) : Str :=
  dumps .oneLine (.dict [("items".toList, .list (items.map itemJson))])

/-! ### The LLM -/

/-- A field of an object, if it is a text. -/
def textField (key : Str) : Json → Option Str
  | .dict fields =>
    match fields.lookup key with
    | some (.str s) => some s
    | _ => none
  | _ => none

def readItem (value : Json) : Option LlmItem := do
  let id ← textField "id".toList value
  let name ← textField "name".toList value
  let description ← textField "description".toList value
  pure { id := id, name := name, description := description }

/-- The items that stand in the content of a message. -/
def readContent (float message : Str → Str) (content : Str) : Option (List LlmItem) :=
  match loads float message content with
  | .ok (.dict fields) =>
    match fields.lookup "items".toList with
    | some (.list values) => values.mapM readItem
    | _ => none
  | _ => none

/-- `{"id": "...", "segment": "..."}`. -/
def entryFields (label : LlmItem → PriceSegment) (item : LlmItem) : List (Str × Json) :=
  [("id".toList, .str item.id), ("segment".toList, .str (label item).value)]

def entriesJson (label : LlmItem → PriceSegment) (items : List LlmItem) : Json :=
  .list (items.map fun item => .dict (entryFields label item))

/-- What the prompt asks for. -/
inductive FollowsPrompt (float message : Str → Str) (label : LlmItem → PriceSegment)
    (content : Str) : Str → Prop
  | array {items : List LlmItem} {text : Str}
      (hread : readContent float message content = some items)
      (htext : TextOf float (entriesJson label items) text) :
      FollowsPrompt float message label content text
  | object {items : List LlmItem} {text : Str}
      (hread : readContent float message content = some items)
      (htext : TextOf float (.dict [("items".toList, entriesJson label items)]) text) :
      FollowsPrompt float message label content text

/-- POST number `call` is answered as the prompt asks for, perhaps after failures for which
`HttpClient` tries again. -/
def Replies (float message : Str → Str) (label : LlmItem → PriceSegment) (settings : LlmSettings)
    (endpoint : LlmEndpoint) (call : ℕ) (content : Str) : Prop :=
  ∃ failures : ℕ, failures ≤ (settings.httpMaxRetries - 1).toNat ∧
    (∀ attempt < failures, ∃ exc,
      HttpClient.checkAnswer (endpoint.chat call attempt) = .error exc ∧
        HttpClient.isRetryable exc = true) ∧
    ∃ status body reason text, endpoint.chat call failures = .response status (.ok body) reason ∧
      200 ≤ status ∧ status ≤ 299 ∧ contentOf body = .ok (.str text) ∧
      FollowsPrompt float message label content text

end MarketplacePipeline.OpenAiSegmentClassifier
