import AgenticSecurity.Models
import AgenticSecurity.Python.Url

namespace AgenticSecurity.Sources

open Models Python

/-- The parts of a URL that `canonicalize_url` keeps. -/
structure CanonicalParts where
  scheme : List Char
  host : List Char
  port : Option ℕ
  path : List Char
  query : List Char
  deriving DecidableEq

/-- `host if port is None else f"{host}:{port}"`. -/
def CanonicalParts.netloc (parts : CanonicalParts) : List Char :=
  match parts.port with
  | none => parts.host
  | some port => parts.host ++ ':' :: Nat.toDigits 10 port

def CanonicalParts.url (parts : CanonicalParts) : Url :=
  urlunsplit
    { scheme := parts.scheme, netloc := parts.netloc, path := parts.path, query := parts.query,
      fragment := [] }

def rstripSlashes (path : List Char) : List Char := (path.reverse.dropWhile (· = '/')).reverse

def canonicalPath (path : List Char) : List Char :=
  let path := if path = [] then ['/'] else path
  if path ≠ ['/'] then rstripSlashes path else path

def prohibitedHost (host : List Char) : Bool :=
  host = "localhost".toList ||
    [".localhost", ".local", ".internal"].any fun suffix ↦ suffix.toList.isSuffixOf host

def canonicalParts (data : UrlData) (url : Url) : Except String CanonicalParts := do
  let parts ← urlsplit data url
  let scheme := data.lower parts.scheme
  if (scheme ≠ "http".toList ∧ scheme ≠ "https".toList) ∨ parts.hostname data = [] then
    .error "only absolute HTTP(S) URLs are supported"
  else
    let host := data.lower (parts.hostname data)
    let shown := reprString data.toUnicodeData (String.ofList host)
    if prohibitedHost host then .error ("prohibited host: " ++ shown)
    else if data.isGlobal host = some false then
      .error ("prohibited non-public address: " ++ shown)
    else
      let port ← parts.port data
      .ok { scheme, host, port, path := canonicalPath parts.path, query := parts.query }

def canonicalizeUrl (data : UrlData) (url : Url) : Except String Url :=
  (canonicalParts data url).map CanonicalParts.url

structure SourceRegistry where
  sources : List Source

def SourceRegistry.get (registry : SourceRegistry) (sourceId : String) : Except String Source :=
  match registry.sources.reverse.find? fun source ↦ source.id.text = sourceId with
  | some source => .ok source
  | none => .error ("unknown source: " ++ sourceId)

/-- `host == domain or host.endswith(f".{domain}")`. -/
def inDomain (host : List Char) (domain : String) : Bool :=
  host = domain.toList || ('.' :: domain.toList).isSuffixOf host

def SourceRegistry.validateUrl (registry : SourceRegistry) (data : UrlData) (sourceId : String)
    (url : Url) : Except String Url := do
  let source ← registry.get sourceId
  if ¬ source.enabled then .error ("source " ++ sourceId ++ " is disabled")
  else if source.role = .output then
    .error ("source " ++ sourceId ++ " is publication output and cannot be collected")
  else
    let canonical ← canonicalizeUrl data url
    let parts ← urlsplit data canonical
    let host := parts.hostname data
    if ¬ source.domains.any (inDomain host) then
      .error ("domain " ++ reprString data.toUnicodeData (String.ofList host) ++
        " is not allowlisted for " ++ sourceId)
    else .ok canonical

end AgenticSecurity.Sources
