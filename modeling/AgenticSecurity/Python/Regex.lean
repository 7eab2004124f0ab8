import AgenticSecurity.Python.Text

namespace AgenticSecurity.Python

/-- The patterns of `re` that the code writes: a character class, repetition of a
pattern (greedy), `\b`, and a class that may not stand before or after the position. -/
inductive Regex
  | epsilon
  | one (accepts : Char → Bool)
  | seq (first second : Regex)
  | alt (first second : Regex)
  | many (body : Regex)
  | upTo (n : ℕ) (body : Regex)
  | boundary
  | notAfter (accepts : Char → Bool)
  | notBefore (accepts : Char → Bool)

namespace Regex

abbrev Cursor := Option Char × List Char

def isWord (unicode : UnicodeData) (c : Char) : Bool := unicode.isAlnum c || c = '_'

def atBoundary (unicode : UnicodeData) (cursor : Cursor) : Bool :=
  cursor.1.any (isWord unicode) != cursor.2.head?.any (isWord unicode)

def repeated (step : Cursor → List Cursor) : ℕ → Cursor → List Cursor
  | 0, cursor => [cursor]
  | fuel + 1, cursor =>
    ((step cursor).filter fun next ↦ next.2.length < cursor.2.length).flatMap
      (repeated step fuel) ++ [cursor]

def ends (unicode : UnicodeData) : Regex → Cursor → List Cursor
  | epsilon, cursor => [cursor]
  | one accepts, (_, c :: rest) => if accepts c then [(some c, rest)] else []
  | one _, (_, []) => []
  | seq first second, cursor => (ends unicode first cursor).flatMap (ends unicode second)
  | alt first second, cursor => ends unicode first cursor ++ ends unicode second cursor
  | many body, cursor => repeated (ends unicode body) cursor.2.length cursor
  | upTo n body, cursor => repeated (ends unicode body) n cursor
  | boundary, cursor => if atBoundary unicode cursor then [cursor] else []
  | notAfter accepts, cursor => if cursor.1.any accepts then [] else [cursor]
  | notBefore accepts, cursor => if cursor.2.head?.any accepts then [] else [cursor]

section Ends

variable (unicode : UnicodeData) (body : Regex) (accepts : Char → Bool) (cursor : Cursor)

theorem ends_one_nil (b : Option Char) : ends unicode (one accepts) (b, []) = [] := rfl

theorem ends_one_cons (b : Option Char) (c : Char) (rest : List Char) :
    ends unicode (one accepts) (b, c :: rest) = if accepts c then [(some c, rest)] else [] := rfl

theorem ends_many : ends unicode (many body) cursor =
    repeated (ends unicode body) cursor.2.length cursor := rfl

theorem ends_upTo (n : ℕ) :
    ends unicode (upTo n body) cursor = repeated (ends unicode body) n cursor := rfl

theorem ends_boundary : ends unicode boundary cursor =
    if atBoundary unicode cursor then [cursor] else [] := rfl

theorem ends_notAfter : ends unicode (notAfter accepts) cursor =
    if cursor.1.any accepts then [] else [cursor] := rfl

theorem ends_notBefore : ends unicode (notBefore accepts) cursor =
    if cursor.2.head?.any accepts then [] else [cursor] := rfl

end Ends

/-- `pattern.match(text)`. -/
def matchesAt (unicode : UnicodeData) (pattern : Regex) (text : List Char) : Bool :=
  ends unicode pattern (none, text) ≠ []

def searchFrom (unicode : UnicodeData) (pattern : Regex) : Option Char → List Char → Bool
  | before, [] => ends unicode pattern (before, []) ≠ []
  | before, c :: rest =>
    ends unicode pattern (before, c :: rest) ≠ [] || searchFrom unicode pattern (some c) rest

/-- `pattern.search(text)`. -/
def search (unicode : UnicodeData) (pattern : Regex) (text : List Char) : Bool :=
  searchFrom unicode pattern none text

/-- The characters of a match are skipped while `skip` is not zero. -/
def subFrom (unicode : UnicodeData) (pattern : Regex) (new : List Char) :
    ℕ → Option Char → List Char → List Char
  | _, _, [] => []
  | skip + 1, _, c :: rest => subFrom unicode pattern new skip (some c) rest
  | 0, before, c :: rest =>
    match ends unicode pattern (before, c :: rest) with
    | (_, left) :: _ => new ++ subFrom unicode pattern new (rest.length - left.length) (some c) rest
    | [] => c :: subFrom unicode pattern new 0 (some c) rest

/-- `pattern.sub(new, text)` for a pattern that matches no empty text. -/
def sub (unicode : UnicodeData) (pattern : Regex) (new text : List Char) : List Char :=
  subFrom unicode pattern new 0 none text

/-- `pattern.fullmatch(text)`. -/
def fullmatch (unicode : UnicodeData) (pattern : Regex) (text : List Char) : Bool :=
  (ends unicode pattern (none, text)).any fun cursor ↦ cursor.2 = []

/-- What `attempt` returns for the matches one after the other, where it gives a value
and the end of a match that is not empty. -/
def finditerFrom {α : Type} (attempt : Cursor → Option (α × Cursor)) : ℕ → Option Char →
    List Char → List α
  | _, _, [] => []
  | skip + 1, _, c :: rest => finditerFrom attempt skip (some c) rest
  | 0, before, c :: rest =>
    match attempt (before, c :: rest) with
    | some (a, (_, left)) => a :: finditerFrom attempt (rest.length - left.length) (some c) rest
    | none => finditerFrom attempt 0 (some c) rest

def lastGroup (unicode : UnicodeData) (lead group : Regex) (cursor : Cursor) :
    Option (List Char × Cursor) :=
  (ends unicode lead cursor).findSome? fun start ↦
    (ends unicode group start).head?.map fun stop ↦ (start.2.take (start.2.length - stop.2.length),
      stop)

/-- `re.findall("[class]+", text)`: the longest runs of the class. -/
def findallFrom (accepts : Char → Bool) (run : List Char) : List Char → List (List Char)
  | [] => if run = [] then [] else [run]
  | c :: rest =>
    if accepts c then findallFrom accepts (run ++ [c]) rest
    else if run = [] then findallFrom accepts [] rest
    else run :: findallFrom accepts [] rest

/-- A lower-case ASCII letter of a pattern under `re.I`. Four letters outside ASCII
fold to one inside. -/
def sameLetter (pattern c : Char) : Bool :=
  c = pattern || c = pattern.toUpper || (pattern = 'k' && c.toNat = 8490) ||
    (pattern = 's' && c.toNat = 383) || (pattern = 'i' && (c.toNat = 304 || c.toNat = 305))

/-- `[a-z]` under `re.I`. -/
def letterIgnoringCase (c : Char) : Bool :=
  c.isAlpha || c.toNat = 8490 || c.toNat = 383 || c.toNat = 304 || c.toNat = 305

def sequence : List Regex → Regex
  | [] => epsilon
  | [r] => r
  | r :: rs => seq r (sequence rs)

def anyOf : List Regex → Regex
  | [] => one fun _ ↦ false
  | [r] => r
  | r :: rs => alt r (anyOf rs)

def text (literal : String) : Regex := sequence (literal.toList.map fun p ↦ one (· = p))

def textIgnoringCase (literal : String) : Regex :=
  sequence (literal.toList.map fun p ↦ one (sameLetter p))

def plus (body : Regex) : Regex := seq body (many body)

/-- `{m,}`. -/
def atLeast (m : ℕ) (body : Regex) : Regex := sequence (List.replicate m body ++ [many body])

/-- `{m,n}`. -/
def between (m n : ℕ) (body : Regex) : Regex :=
  sequence (List.replicate m body ++ [upTo (n - m) body])

end Regex

end AgenticSecurity.Python
