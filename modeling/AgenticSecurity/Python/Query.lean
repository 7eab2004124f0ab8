import AgenticSecurity.Python.Dict
import AgenticSecurity.Python.Json
import AgenticSecurity.Python.Url

namespace AgenticSecurity.Python

def unquoteToBytes : List Char → List UInt8
  | '%' :: a :: b :: rest =>
    match hexValue 0 [a, b] with
    | some byte => UInt8.ofNat byte :: unquoteToBytes rest
    | none => 37 :: unquoteToBytes (a :: b :: rest)
  | c :: rest => UInt8.ofNat c.toNat :: unquoteToBytes rest
  | [] => []

/-- `run` is what has been read of the current run of ASCII characters; `decode` is
`bytes.decode("utf-8", "replace")`. -/
def unquoteFrom (decode : List UInt8 → List Char) (run : List Char) : List Char → List Char
  | [] => decode (unquoteToBytes run)
  | c :: rest =>
    if c.toNat < 128 then unquoteFrom decode (run ++ [c]) rest
    else decode (unquoteToBytes run) ++ c :: unquoteFrom decode [] rest

def unquote (decode : List UInt8 → List Char) (text : List Char) : List Char :=
  if '%' ∈ text then unquoteFrom decode [] text else text

def parseQsl (decode : List UInt8 → List Char) (query : List Char) : List (List Char × List Char) :=
  ((split '&' query).filter (· ≠ [])).map fun item ↦
    (unquote decode (replace ['+'] [' '] (before '=' item)),
      unquote decode (replace ['+'] [' '] (after '=' item)))

def parseQs (decode : List UInt8 → List Char) (query : List Char) :
    List (List Char × List (List Char)) :=
  (parseQsl decode query).foldl
    (fun acc item ↦ dictSet acc item.1 ((acc.lookup item.1).getD [] ++ [item.2])) []

end AgenticSecurity.Python
