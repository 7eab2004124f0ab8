import AgenticSecurity.Python.Text

namespace AgenticSecurity.Python

/-- The table of named references of `html.entities`, most of whose names end in a semicolon. -/
structure HtmlData where
  html5 : List Char → Option (List Char)

def invalidCharrefs : List (ℕ × ℕ) :=
  [(0, 0xFFFD), (13, 13)] ++
    (List.range' 128 32).zip
      [0x20AC, 0x81, 0x201A, 0x192, 0x201E, 0x2026, 0x2020, 0x2021, 0x2C6, 0x2030, 0x160, 0x2039,
        0x152, 0x8D, 0x17D, 0x8F, 0x90, 0x2018, 0x2019, 0x201C, 0x201D, 0x2022, 0x2013, 0x2014,
        0x2DC, 0x2122, 0x161, 0x203A, 0x153, 0x9D,
        0x17E, 0x178]

def isInvalidCodepoint (n : ℕ) : Bool :=
  (1 ≤ n && n ≤ 8) || n = 11 || (14 ≤ n && n ≤ 31) || (127 ≤ n && n ≤ 159) ||
    (0xFDD0 ≤ n && n ≤ 0xFDEF) ||
    n % 0x10000 = 0xFFFE || n % 0x10000 = 0xFFFF

inductive Charref
  | decimal (digits : List Char)
  | hexadecimal (digits : List Char)
  | named (name : List Char)

def numericText (n : ℕ) : List Char :=
  match invalidCharrefs.lookup n with
  | some code => [Char.ofNat code]
  | none =>
    if (0xD800 ≤ n ∧ n ≤ 0xDFFF) ∨ 0x10FFFF < n then [Char.ofNat 0xFFFD]
    else if isInvalidCodepoint n then []
    else [Char.ofNat n]

def isHexDigit (c : Char) : Bool := c.isDigit || ('a' ≤ c && c ≤ 'f') || ('A' ≤ c && c ≤ 'F')

def hexDigitValue (c : Char) : ℕ :=
  if c.isDigit then c.toNat - 48 else c.toLower.toNat - 87

/-- `_replace_charref`: a name that is not in the table is read up to its longest known beginning
of at least two characters. `int` refuses more than 4300 digits. -/
def Charref.text (data : HtmlData) : Charref → Option (List Char)
  | decimal digits =>
    if 4300 < digits.length then none
    else some (numericText (digits.foldl (fun n c ↦ 10 * n + hexDigitValue c) 0))
  | hexadecimal digits => some (numericText (digits.foldl (fun n c ↦ 16 * n + hexDigitValue c) 0))
  | named name =>
    some (data.html5 name |>.getD
      (((List.range name.length).reverse.filter (2 ≤ ·)).findSome?
        (fun n ↦ (data.html5 (name.take n)).map (· ++ name.drop n)) |>.getD ('&' :: name)))

def dropSemicolon : List Char → List Char
  | ';' :: rest => rest
  | rest => rest

def isNameCharacter (c : Char) : Bool :=
  c ≠ '\t' && c ≠ '\n' && c.toNat ≠ 12 && c ≠ ' ' && c ≠ '<' && c ≠ '&' && c ≠ '#' && c ≠ ';'

/-- `_charref` after its `&`: the reference and what is left of the text. -/
def charref : List Char → Option (Charref × List Char)
  | '#' :: rest =>
    let digits := rest.takeWhile Char.isDigit
    let hexDigits := rest.tail.takeWhile isHexDigit
    if digits ≠ [] then some (.decimal digits, dropSemicolon (rest.drop digits.length))
    else if (rest.head? = some 'x' ∨ rest.head? = some 'X') ∧ hexDigits ≠ [] then
      some (.hexadecimal hexDigits, dropSemicolon (rest.tail.drop hexDigits.length))
    else none
  | rest =>
    let name := (rest.take 32).takeWhile isNameCharacter
    if name = [] then none
    else
      match rest.drop name.length with
      | ';' :: left => some (.named (name ++ [';']), left)
      | left => some (.named name, left)

/-- The characters of a reference are skipped while `skip` is not zero. -/
def unescapeFrom (data : HtmlData) : ℕ → List Char → Option (List Char)
  | _, [] => some []
  | skip + 1, _ :: rest => unescapeFrom data skip rest
  | 0, c :: rest =>
    match if c = '&' then charref rest else none with
    | some (reference, left) =>
      (reference.text data).bind
        fun new ↦ (unescapeFrom data (rest.length - left.length) rest).map (new ++ ·)
    | none => (unescapeFrom data 0 rest).map (c :: ·)

/-- `html.unescape(text)`, which raises on a decimal reference that `int` refuses. -/
def unescape (data : HtmlData) (text : List Char) : Option (List Char) :=
  if '&' ∉ text then some text else unescapeFrom data 0 text

theorem unescape_of_plain (data : HtmlData) {text : List Char} (h : '&' ∉ text) :
    unescape data text = some text :=
  if_pos h

end AgenticSecurity.Python
