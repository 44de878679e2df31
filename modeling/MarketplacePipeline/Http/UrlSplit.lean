import MarketplacePipeline.Python.Error

/-!
# The path of a URL

`UrlSplit.path` is `urllib.parse.urlsplit(url).path`.
-/

namespace MarketplacePipeline.UrlSplit

/-- Tabs and line breaks are removed from a URL. -/
def isUnsafe (c : Char) : Bool := c == '\t' || c == '\r' || c == '\n'

def isSchemeChar (c : Char) : Bool := c.isAlphanum || c == '+' || c == '-' || c == '.'

/-- What follows the scheme and its colon. -/
def dropScheme (url : Str) : Str :=
  match url.takeWhile (· ≠ ':'), url.dropWhile (· ≠ ':') with
  | c :: cs, _ :: rest => if c.isAlpha && (c :: cs).all isSchemeChar then rest else url
  | _, _ => url

/-- `_splitnetloc` ends the netloc at such a character. -/
def isDelimiter (c : Char) : Bool := c == '/' || c == '?' || c == '#'

/-- The netloc, empty if there is none, and what follows it. -/
def splitNetloc : Str → Str × Str
  | '/' :: '/' :: rest =>
    (rest.takeWhile fun c => !isDelimiter c, rest.dropWhile fun c => !isDelimiter c)
  | url => ([], url)

/-- A path ends before the query and the fragment. -/
def isPathChar (c : Char) : Bool := c != '?' && c != '#'

/-- `urlsplit(url).path`.  It raises for a netloc with unbalanced brackets, or with a character that
normalises to a delimiter; `accepts` says for which netlocs it does not. -/
def path (accepts : Str → Bool) (url : Str) : Except PyError Str :=
  let url := (url.dropWhile fun c => c.toNat ≤ 32).filter fun c => !isUnsafe c
  let split := splitNetloc (dropScheme url)
  if accepts split.1 then .ok (split.2.takeWhile isPathChar)
  else .error ⟨.value, "netloc contains invalid characters".toList⟩

end MarketplacePipeline.UrlSplit
