import AgenticSecurity.Publishing.Validation
import AgenticSecurity.Python.Json
import AgenticSecurity.Python.Query
import AgenticSecurity.Python.Surroundings

namespace AgenticSecurity.Publishing

open Library Python Regex

/-- `decodeReplace` is `bytes.decode("utf-8", "replace")`; `highEntropy` says whether
`_entropy`, a sum of floats, is at least 4.3. -/
structure ScanData extends UrlData where
  decodeReplace : List UInt8 → List Char
  highEntropy : List Char → Bool

def forbiddenPathParts : List String := ["credentials", "private", "prompts", "snapshots", "traces"]

def forbiddenSuffixes : List String := [".db", ".sqlite", ".sqlite3"]

def allowedTextSuffixes : List String :=
  [".astro", ".css", ".csv", ".html", ".js", ".json", ".md", ".mjs", ".svg", ".ts", ".tsx",
    ".txt", ".xml"]

def forbiddenNormalizedKeys : List String :=
  ["api_key", "api_secret", "access_token", "authorization", "auth_token", "aws_access_key_id",
    "aws_secret_access_key", "bearer_token", "client_token", "client_secret", "comments", "cookie",
    "credentials", "encryption_key", "github_token", "normalized_text", "notes",
    "password", "passwd",
    "personal_access_token", "private_key", "prompt", "prompts", "raw_content",
    "refresh_token", "secret",
    "secret_key", "service_account_key", "signing_key", "snapshot_id", "snapshots", "token",
    "trace", "traces"]

def safePlaceholders : List String :=
  ["changeme", "example", "none", "none_found", "not_configured", "redacted", "unknown"]

def hashValueLengths : List (String × ℕ) :=
  [("artifact_hash", 64), ("commit_sha", 40), ("fingerprint", 64), ("sha256", 64),
    ("snapshot_sha256", 64)]

/-- `[A-Za-z0-9]` and some further characters. -/
def alnumOr (extra : List Char) (c : Char) : Bool := c.isAlphanum || c ∈ extra

def upperOrDigit (c : Char) : Bool := c.isUpper || c.isDigit

def isolated (outside : Char → Bool) (inner : List Regex) : Regex :=
  Regex.sequence (notAfter outside :: (inner ++ [notBefore outside]))

def privateKeyHeader : Regex :=
  Regex.sequence [text "-----BEGIN ", many (one fun c ↦ c.isUpper || c = ' '), text "PRIVATE KEY-----"]

def knownSecretPatterns : List Regex :=
  [ privateKeyHeader,
    isolated (alnumOr []) [text "ghp_", between 20 255 (one (alnumOr []))],
    isolated (alnumOr ['_']) [text "github_pat_", between 20 255 (one (alnumOr ['_']))],
    isolated (alnumOr ['_', '-']) [text "sk-proj-", between 20 255 (one (alnumOr ['_', '-']))],
    isolated (alnumOr ['_', '-']) [text "sk-", between 20 255 (one (alnumOr []))],
    isolated upperOrDigit [anyOf [text "AKIA", text "ASIA"], between 16 16 (one upperOrDigit)],
    isolated (alnumOr ['_', '-'])
      [text "eyJ", atLeast 8 (one (alnumOr ['_', '-'])), text ".",
        atLeast 8 (one (alnumOr ['_', '-'])), text ".",
        atLeast 8 (one (alnumOr ['_', '-']))] ]

def maskedSecret : Regex := isolated (· = '*') [atLeast 6 (one (· = '*'))]

/-- Two words with `[_-]?` between them. -/
def compound (first second : String) : Regex :=
  Regex.sequence [textIgnoringCase first, upTo 1 (one fun c ↦ c = '_' || c = '-'),
    textIgnoringCase second]

/-- `SECRET_ASSIGNMENT` up to its group. -/
def secretAssignmentLead : Regex :=
  Regex.sequence
    [ boundary,
      anyOf
        [ compound "api" "key", compound "client" "secret", compound "private" "key",
          compound "access" "token", compound "refresh" "token", textIgnoringCase "password",
          textIgnoringCase "passwd",
          textIgnoringCase "secret", textIgnoringCase "token" ],
      boundary, many (one isSpace), one (fun c ↦ c = ':' || c = '='), many (one isSpace),
      upTo 1 (one fun c ↦ c = '\'' || c = '"') ]

def secretAssignmentValue : Regex :=
  atLeast 12 (one fun c ↦ letterIgnoringCase c || c.isDigit || c ∈ ['_', '.', '/', '+', '=', '-'])

def tokenCharacter : Char → Bool := alnumOr ['_', '+', '/', '=', '-']

def isHex (c : Char) : Bool := (hexDigit c).isSome

def uuidPattern : Regex :=
  Regex.sequence
    [ between 8 8 (one isHex), text "-", between 4 4 (one isHex), text "-",
      one fun c ↦ c ∈ ['1', '2', '3', '4', '5'], between 3 3 (one isHex), text "-",
      one fun c ↦ c ∈ ['8', '9', 'a', 'b', 'A', 'B'], between 3 3 (one isHex),
      text "-", between 12 12 (one isHex) ]

/-- `_` between a lower-case letter or digit and a capital. -/
def withWordBoundaries : List Char → List Char
  | c :: d :: rest =>
    if (c.isLower || c.isDigit) && d.isUpper then c :: '_' :: withWordBoundaries (d :: rest)
    else c :: withWordBoundaries (d :: rest)
  | rest => rest

/-- `re.sub("[^a-z0-9]+", "_", text)`; `inRun` says whether the character before was replaced. -/
def underscored (inRun : Bool) : List Char → List Char
  | [] => []
  | c :: rest =>
    if c.isLower || c.isDigit then c :: underscored false rest
    else if inRun then underscored true rest
    else '_' :: underscored true rest

def stripUnderscores (text : List Char) : List Char :=
  ((text.dropWhile (· = '_')).reverse.dropWhile (· = '_')).reverse

variable (data : ScanData)

def normalizeKey (value : List Char) : String :=
  String.ofList (stripUnderscores (underscored false (data.lower (withWordBoundaries value))))

def looksLikeHighEntropyToken (value : List Char) (allowedHashLength : Option ℕ) : Bool :=
  if value.all isHex ∧ 32 ≤ value.length ∧
    value.length ≤ 128 then some value.length ≠ allowedHashLength
  else if fullmatch data.toUnicodeData uuidPattern value then false
  else
    let classes := [value.any Char.isLower, value.any Char.isUpper, value.any Char.isDigit,
      value.any fun c ↦ c ∈ ['_', '+', '/', '=']]
    32 ≤ value.length && 3 ≤ classes.count true && data.highEntropy value

def credentialLike (location : String) : String :=
  "credential-like content found in publication data: " ++ location

def scanPatterns (value : List Char) (location : String) : Except String Unit :=
  if search data.toUnicodeData maskedSecret value then
    .error ("masked secret placeholder found in publication data: " ++ location)
  else if knownSecretPatterns.any fun pattern ↦ search data.toUnicodeData pattern value then
    .error (credentialLike location)
  else .ok ()

def assignedSecrets (value : List Char) : List (List Char) :=
  finditerFrom (lastGroup data.toUnicodeData secretAssignmentLead secretAssignmentValue)
    0 none value

def tokenCandidates (value : List Char) : List (List Char) :=
  finditerFrom (lastGroup data.toUnicodeData (notAfter tokenCharacter)
    (atLeast 32 (one tokenCharacter))) 0 none value

def scanNonUrlString (value : List Char) (location : String) (allowedHashLength : Option ℕ) :
    Except String Unit := do
  scanPatterns data value location
  if (assignedSecrets data value).any
    fun assigned ↦ String.ofList (data.lower assigned) ∉ safePlaceholders then
    .error (credentialLike location)
  else if (tokenCandidates data value).any
    fun token ↦ looksLikeHighEntropyToken data token allowedHashLength then
    .error ("high-entropy token-like content found in publication data: " ++ location)
  else .ok ()

def scanUrl (parts : SplitResult) (location : String) : Except String Unit := do
  if '@' ∈ parts.netloc then
    .error ("credential-bearing URL found in publication data: " ++ location)
  else
    (parseQs data.decodeReplace parts.query).forM fun (key, values) ↦
      if normalizeKey data key ∈ forbiddenNormalizedKeys then
        .error ("secret-bearing URL found in publication data: " ++ location)
      else values.forM fun item ↦ scanNonUrlString data item location none
    ((split '/' parts.path).filter (· ≠ [])).forM fun segment ↦
      scanNonUrlString data (unquote data.decodeReplace segment) location none
    if parts.fragment ≠ [] then
      scanNonUrlString data (unquote data.decodeReplace parts.fragment) location none

def scanString (value : List Char) (location : String) (allowedHashLength : Option ℕ) :
    Except String Unit := do
  let stripped := strip value
  scanPatterns data stripped location
  let parts ← urlsplit data.toUrlData stripped
  if (parts.scheme = "http".toList ∨ parts.scheme = "https".toList) ∧ parts.netloc ≠ [] ∧
    ¬ stripped.any isSpace then
    scanUrl data parts location
  else scanNonUrlString data stripped location allowedHashLength

mutual

def scanJson : Json → String → Option ℕ → Except String Unit
  | .object members, location, _ => scanMembers members location
  | .array items, location, allowedHashLength => scanItems items location 0 allowedHashLength
  | .string value, location, allowedHashLength =>
    scanString data (characters value) location allowedHashLength
  | _, _, _ => .ok ()

def scanMembers : List (CodePoints × Json) → String → Except String Unit
  | [], _ => .ok ()
  | (key, item) :: members, location =>
    let normalized := normalizeKey data (characters key)
    let inside := location ++ "." ++ String.ofList (characters key)
    if normalized ∈ forbiddenNormalizedKeys then
      .error ("private field is prohibited in publication data: " ++ inside)
    else do
      scanJson item inside (hashValueLengths.lookup normalized)
      scanMembers members location

def scanItems : List Json → String → ℕ → Option ℕ → Except String Unit
  | [], _, _, _ => .ok ()
  | item :: items, location, index, allowedHashLength => do
    scanJson item (location ++ "[" ++ toString index ++ "]") allowedHashLength
    scanItems items location (index + 1) allowedHashLength

end

/-- `path.suffix`. -/
def fileSuffix (path : Git.TreePath) : List Char :=
  let name := (path.getLast?.getD "").toList
  let extension := afterLast '.' name
  if extension ≠ [] ∧ extension.length + 1 < name.length then '.' :: extension else []

def loweredSuffix (path : Git.TreePath) : String := String.ofList (data.lower (fileSuffix path))

def scanPublicFile (relative : Git.TreePath) (raw : Bytes) : Except String Unit :=
  let loweredParts := relative.map fun part ↦ String.ofList (data.lower part.toList)
  if (loweredParts.any fun part ↦ part ∈ forbiddenPathParts) ∨
    loweredSuffix data relative ∈ forbiddenSuffixes then
    .error ("private path is prohibited in publication bundle: " ++ asPosix relative)
  else if loweredSuffix data relative ∉ allowedTextSuffixes then
    .error ("unapproved publication file type: " ++ asPosix relative)
  else
    match decodeUtf8 raw with
    | none => .error ("non-text publication file is prohibited: " ++ asPosix relative)
    | some text =>
      if '\x00' ∈ text then .error ("non-text publication file is prohibited: " ++ asPosix relative)
      else if loweredSuffix data relative = ".json" then
        match loads text with
        | none => .error "JSONDecodeError"
        | some value => scanJson data value (asPosix relative) none
      else scanString data text (asPosix relative) none

end AgenticSecurity.Publishing
