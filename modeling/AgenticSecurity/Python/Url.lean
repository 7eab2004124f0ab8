import AgenticSecurity.Python.Text
import Mathlib.Data.List.TakeWhile

namespace AgenticSecurity.Python

abbrev Url := List Char

/-- What `urllib.parse` and `ipaddress` decide that is left open here: the NFKC form
of a text, whether the host in the brackets of a netloc is well formed, and whether
a host is an address and a public one. -/
structure UrlData extends UnicodeData where
  nfkc : List Char → List Char
  bracketedNetloc : List Char → Bool
  isGlobal : List Char → Option Bool

/-- `text.partition(c)[0]`. -/
def before (c : Char) (text : List Char) : List Char := text.takeWhile (· ≠ c)

/-- `text.partition(c)[2]`. -/
def after (c : Char) (text : List Char) : List Char := (text.dropWhile (· ≠ c)).drop 1

/-- `text.rpartition(c)[2]`. -/
def afterLast (c : Char) (text : List Char) : List Char := (text.reverse.takeWhile (· ≠ c)).reverse

structure SplitResult where
  scheme : List Char
  netloc : List Char
  path : List Char
  query : List Char
  fragment : List Char
  deriving DecidableEq

def isUnsafeByte (c : Char) : Bool := c = '\t' || c = '\r' || c = '\n'

def isSchemeCharacter (c : Char) : Bool := c.isAlphanum || c = '+' || c = '-' || c = '.'

def cleanUrl (url : Url) : Url :=
  (url.dropWhile fun c ↦ c.toNat ≤ 32).filter fun c ↦ ¬ isUnsafeByte c

def splitScheme (data : UrlData) (url : Url) : List Char × Url :=
  if ':' ∈ url ∧ url.head?.any Char.isAlpha ∧ (before ':' url).all isSchemeCharacter then
    (data.lower (before ':' url), after ':' url)
  else ([], url)

def endsNetloc (c : Char) : Bool := c = '/' || c = '?' || c = '#'

/-- The netloc after `//`, and what follows it. -/
def splitNetloc (url : Url) : List Char × Url :=
  if ['/', '/'].isPrefixOf url then
    ((url.drop 2).takeWhile fun c ↦ ¬ endsNetloc c, (url.drop 2).dropWhile fun c ↦ ¬ endsNetloc c)
  else ([], url)

/-- `_checknetloc`: no character may stand for a delimiter in NFKC form. -/
def checkNetloc (data : UrlData) (netloc : List Char) : Bool :=
  let n := netloc.filter fun c ↦ c ≠ '@' && c ≠ ':' && c ≠ '#' && c ≠ '?'
  netloc.all (·.toNat < 128) || data.nfkc n = n ||
    (data.nfkc n).all fun c ↦ c ≠ '/' && c ≠ '?' && c ≠ '#' && c ≠ '@' && c ≠ ':'

def checkBrackets (data : UrlData) (netloc : List Char) : Bool :=
  if '[' ∈ netloc then ']' ∈ netloc && data.bracketedNetloc netloc else ']' ∉ netloc

def urlsplit (data : UrlData) (url : Url) : Except String SplitResult :=
  let (scheme, rest) := splitScheme data (cleanUrl url)
  let (netloc, tail) := splitNetloc rest
  if ¬ checkBrackets data netloc then .error "Invalid IPv6 URL"
  else if ¬ checkNetloc data netloc then
    .error "netloc contains invalid characters under NFKC normalization"
  else
    .ok
      { scheme, netloc, path := before '?' (before '#' tail), query := after '?' (before '#' tail),
        fragment := after '#' tail }

def SplitResult.hostinfo (parts : SplitResult) : List Char × List Char :=
  let hostinfo := afterLast '@' parts.netloc
  if '[' ∈ hostinfo then
    (before ']' (after '[' hostinfo), after ':' (after ']' (after '[' hostinfo)))
  else (before ':' hostinfo, after ':' hostinfo)

/-- Lower case except for a zone; empty where Python has `None`. -/
def SplitResult.hostname (data : UrlData) (parts : SplitResult) : List Char :=
  if parts.hostinfo.1 = [] then []
  else data.lower (before '%' parts.hostinfo.1) ++ parts.hostinfo.1.dropWhile (· ≠ '%')

def SplitResult.port (data : UrlData) (parts : SplitResult) : Except String (Option ℕ) :=
  let port := parts.hostinfo.2
  if port = [] then .ok none
  else if ¬ port.all Char.isDigit then
    .error ("Port could not be cast to integer value as " ++
      reprString data.toUnicodeData (String.ofList port))
  else if 65535 < Nat.ofDigitChars 10 port 0 then .error "Port out of range 0-65535"
  else .ok (some (Nat.ofDigitChars 10 port 0))

/-- `urlunsplit` for parts with a scheme and a netloc. -/
def urlunsplit (parts : SplitResult) : Url :=
  let path := if parts.path ≠ [] ∧ parts.path.head? ≠ some '/' then '/' :: parts.path
    else parts.path
  parts.scheme ++ [':', '/', '/'] ++ parts.netloc ++ path ++
    (if parts.query = [] then [] else '?' :: parts.query) ++
    (if parts.fragment = [] then [] else '#' :: parts.fragment)

theorem ne_all {c : Char} {xs : List Char} (h : c ∉ xs) : ∀ x ∈ xs, decide (x ≠ c) = true :=
  fun _ hx ↦ decide_eq_true fun he ↦ h (he ▸ hx)

theorem before_append {c : Char} {xs ys : List Char} (h : c ∉ xs) :
    before c (xs ++ c :: ys) = xs := by
  unfold before
  rw [List.takeWhile_append_of_pos (ne_all h), List.takeWhile_cons_of_neg (by simp),
    List.append_nil]

theorem after_append {c : Char} {xs ys : List Char} (h : c ∉ xs) :
    after c (xs ++ c :: ys) = ys := by
  unfold after
  rw [List.dropWhile_append_of_pos (ne_all h), List.dropWhile_cons_of_neg (by simp), List.drop_one,
    List.tail_cons]

theorem before_of_not_mem {c : Char} {xs : List Char} (h : c ∉ xs) : before c xs = xs :=
  List.takeWhile_eq_self_iff.mpr (ne_all h)

theorem after_of_not_mem {c : Char} {xs : List Char} (h : c ∉ xs) : after c xs = [] := by
  have hdrop : xs.dropWhile (· ≠ c) = [] :=
    List.dropWhile_eq_nil_iff.mpr (ne_all h)
  rw [after, hdrop, List.drop_nil]

theorem afterLast_of_not_mem {c : Char} {xs : List Char} (h : c ∉ xs) : afterLast c xs = xs := by
  have htake : xs.reverse.takeWhile (· ≠ c) = xs.reverse :=
    List.takeWhile_eq_self_iff.mpr (ne_all (mt List.mem_reverse.mp h))
  rw [afterLast, htake, List.reverse_reverse]

theorem afterLast_append {c : Char} {xs ys : List Char} (h : c ∉ ys) :
    afterLast c (xs ++ c :: ys) = ys := by
  have hys : ∀ y ∈ ys.reverse, decide (y ≠ c) = true := ne_all (mt List.mem_reverse.mp h)
  rw [afterLast, List.reverse_append, List.reverse_cons, List.append_assoc,
    List.takeWhile_append_of_pos hys, List.singleton_append, List.takeWhile_cons_of_neg (by simp),
    List.append_nil, List.reverse_reverse]

theorem not_mem_before (c : Char) (xs : List Char) : c ∉ before c xs := fun h ↦ by
  simpa using List.mem_takeWhile_imp h

theorem mem_of_mem_before {c x : Char} {xs : List Char} (h : x ∈ before c xs) : x ∈ xs :=
  (List.takeWhile_prefix _).subset h

theorem mem_of_mem_after {c x : Char} {xs : List Char} (h : x ∈ after c xs) : x ∈ xs :=
  (List.dropWhile_suffix _).subset (List.mem_of_mem_drop h)

theorem mem_of_mem_afterLast {c x : Char} {xs : List Char} (h : x ∈ afterLast c xs) : x ∈ xs :=
  List.mem_reverse.mp ((List.takeWhile_prefix _).subset (List.mem_reverse.mp h))

theorem not_mem_afterLast (c : Char) (xs : List Char) : c ∉ afterLast c xs := fun h ↦ by
  simpa using List.mem_takeWhile_imp (List.mem_reverse.mp h)

end AgenticSecurity.Python
