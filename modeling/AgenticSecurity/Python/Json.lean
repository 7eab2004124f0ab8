import AgenticSecurity.Python.Dict
import AgenticSecurity.Python.Text

namespace AgenticSecurity.Python

/-- The code points of a string that `json.loads` makes; an escape can leave a surrogate alone. -/
abbrev CodePoints := List ℕ

/-- The string with the replacement character for each lone surrogate. Neither is a letter,
a digit, a space or a delimiter. -/
def characters (points : CodePoints) : List Char :=
  points.map fun n ↦ if n.isValidChar then Char.ofNat n else '\uFFFD'

/-- A document with all the members of its objects, in order. Numbers are not kept. -/
inductive Json
  | null
  | boolean (value : Bool)
  | number
  | string (value : CodePoints)
  | array (items : List Json)
  | object (members : List (CodePoints × Json))

def isJsonSpace (c : Char) : Bool := c = ' ' || c = '\t' || c = '\n' || c = '\r'

def skipSpace (text : List Char) : List Char := text.dropWhile isJsonSpace

def hexDigit (c : Char) : Option ℕ :=
  if c.isDigit then some (c.toNat - 48)
  else if 'a' ≤ c ∧ c ≤ 'f' then some (c.toNat - 87)
  else if 'A' ≤ c ∧ c ≤ 'F' then some (c.toNat - 55)
  else none

def hexValue : ℕ → List Char → Option ℕ
  | value, [] => some value
  | value, c :: rest => (hexDigit c).bind fun d ↦ hexValue (16 * value + d) rest

def joinSurrogates (unit : ℕ) : CodePoints → CodePoints
  | low :: rest =>
    if 55296 ≤ unit ∧ unit ≤ 56319 ∧ 56320 ≤ low ∧ low ≤ 57343 then
      (65536 + (unit - 55296) * 1024 + (low - 56320)) :: rest
    else unit :: low :: rest
  | [] => [unit]

def escaped : Char → Option ℕ
  | '"' => some 34
  | '\\' => some 92
  | '/' => some 47
  | 'b' => some 8
  | 'f' => some 12
  | 'n' => some 10
  | 'r' => some 13
  | 't' => some 9
  | _ => none

def readString : List Char → Option (CodePoints × List Char)
  | [] => none
  | '"' :: rest => some ([], rest)
  | '\\' :: 'u' :: a :: b :: c :: d :: rest =>
    (hexValue 0 [a, b, c, d]).bind fun unit ↦
      (readString rest).map fun result ↦ (joinSurrogates unit result.1, result.2)
  | '\\' :: c :: rest =>
    (escaped c).bind fun point ↦ (readString rest).map fun result ↦ (point :: result.1, result.2)
  | c :: rest =>
    if c.toNat < 32 then none
      else (readString rest).map fun result ↦ (c.toNat :: result.1, result.2)

/-- The digits of `0|[1-9][0-9]*`, and what follows them. -/
def readInteger : List Char → Option (List Char × List Char)
  | '0' :: rest => some (['0'], rest)
  | c :: rest =>
    if c.isDigit then some ((c :: rest).takeWhile Char.isDigit, (c :: rest).dropWhile Char.isDigit)
      else none
  | [] => none

/-- What follows `(\.[0-9]+)?`. -/
def skipFraction : List Char → List Char
  | '.' :: c :: rest => if c.isDigit then rest.dropWhile Char.isDigit else '.' :: c :: rest
  | rest => rest

/-- What follows `([eE][-+]?[0-9]+)?`. -/
def skipExponent (text : List Char) : List Char :=
  match text with
  | e :: sign :: c :: rest =>
    if e = 'e' ∨ e = 'E' then
      if (sign = '-' ∨ sign = '+') ∧ c.isDigit then rest.dropWhile Char.isDigit
      else if sign.isDigit then (c :: rest).dropWhile Char.isDigit
      else text
    else text
  | [e, c] => if (e = 'e' ∨ e = 'E') ∧ c.isDigit then [] else text
  | _ => text

def readNumber (text : List Char) : Option (List Char) :=
  (readInteger (if text.head? = some '-' then text.drop 1 else text)).bind fun (digits, rest) ↦
    if skipExponent (skipFraction rest) = rest ∧ 4300 < digits.length then none
    else some (skipExponent (skipFraction rest))

def readScalar (text : List Char) : Option (Json × List Char) :=
  if "null".toList.isPrefixOf text then some (.null, text.drop 4)
  else if "true".toList.isPrefixOf text then some (.boolean true, text.drop 4)
  else if "false".toList.isPrefixOf text then some (.boolean false, text.drop 5)
  else
    match readNumber text with
    | some rest => some (.number, rest)
    | none =>
      if "NaN".toList.isPrefixOf text then some (.number, text.drop 3)
      else if "Infinity".toList.isPrefixOf text then some (.number, text.drop 8)
      else if "-Infinity".toList.isPrefixOf text then some (.number, text.drop 9)
      else none

mutual

def readValue : ℕ → List Char → Option (Json × List Char)
  | 0, _ => none
  | _ + 1, '"' :: rest => (readString rest).map fun result ↦ (.string result.1, result.2)
  | fuel + 1, '\x7b' :: rest =>
    match skipSpace rest with
    | '\x7d' :: rest => some (.object [], rest)
    | rest => (readMembers fuel rest).map fun result ↦ (.object result.1, result.2)
  | fuel + 1, '[' :: rest =>
    match skipSpace rest with
    | ']' :: rest => some (.array [], rest)
    | rest => (readItems fuel rest).map fun result ↦ (.array result.1, result.2)
  | _ + 1, text => readScalar text

def readItems : ℕ → List Char → Option (List Json × List Char)
  | 0, _ => none
  | fuel + 1, text =>
    match readValue fuel text with
    | none => none
    | some (value, rest) =>
      match skipSpace rest with
      | ']' :: rest => some ([value], rest)
      | ',' :: rest =>
        (readItems fuel (skipSpace rest)).map fun result ↦ (value :: result.1, result.2)
      | _ => none

def readMembers : ℕ → List Char → Option (List (CodePoints × Json) × List Char)
  | fuel + 1, '"' :: text =>
    match readString text with
    | none => none
    | some (name, rest) =>
      match skipSpace rest with
      | ':' :: rest =>
        match readValue fuel (skipSpace rest) with
        | none => none
        | some (value, rest) =>
          match skipSpace rest with
          | '\x7d' :: rest => some ([(name, value)], rest)
          | ',' :: rest =>
            (readMembers fuel (skipSpace rest)).map fun result ↦ ((name, value) ::
              result.1, result.2)
          | _ => none
      | _ => none
  | _, _ => none

end

/-- The document that `json.loads` reads. -/
def readDocument (text : List Char) : Option Json :=
  if text.head? = some '\uFEFF' then none
  else
    (readValue (text.length + 1) (skipSpace text)).bind fun (document, rest) ↦
      if skipSpace rest = [] then some document else none

mutual

def Json.value : Json → Json
  | .array items => .array (itemValues items)
  | .object members => .object (dictOf (memberValues members))
  | scalar => scalar

def itemValues : List Json → List Json
  | [] => []
  | item :: items => item.value :: itemValues items

def memberValues : List (CodePoints × Json) → List (CodePoints × Json)
  | [] => []
  | (name, item) :: members => (name, item.value) :: memberValues members

end

/-- `json.loads`. -/
def loads (text : List Char) : Option Json := (readDocument text).map Json.value

mutual

/-- All of them, names and values, at any depth. -/
def Json.strings : Json → List CodePoints
  | .string text => [text]
  | .array items => itemStrings items
  | .object members => memberStrings members
  | _ => []

def itemStrings : List Json → List CodePoints
  | [] => []
  | item :: items => item.strings ++ itemStrings items

def memberStrings : List (CodePoints × Json) → List CodePoints
  | [] => []
  | (name, item) :: members => name :: (item.strings ++ memberStrings members)

end

mutual

def Json.names : Json → List CodePoints
  | .array items => itemNames items
  | .object members => memberNames members
  | _ => []

def itemNames : List Json → List CodePoints
  | [] => []
  | item :: items => item.names ++ itemNames items

def memberNames : List (CodePoints × Json) → List CodePoints
  | [] => []
  | (name, item) :: members => name :: (item.names ++ memberNames members)

end

mutual

/-- The strings that are values. -/
def Json.texts : Json → List CodePoints
  | .string text => [text]
  | .array items => itemTexts items
  | .object members => memberTexts members
  | _ => []

def itemTexts : List Json → List CodePoints
  | [] => []
  | item :: items => item.texts ++ itemTexts items

def memberTexts : List (CodePoints × Json) → List CodePoints
  | [] => []
  | (_, item) :: members => item.texts ++ memberTexts members

end

mutual

/-- The strings in the members that a later member of the same name replaces. -/
def Json.shadowed : Json → List CodePoints
  | .array items => itemShadowed items
  | .object members => memberShadowed members
  | _ => []

def itemShadowed : List Json → List CodePoints
  | [] => []
  | item :: items => item.shadowed ++ itemShadowed items

def memberShadowed : List (CodePoints × Json) → List CodePoints
  | [] => []
  | (name, item) :: members =>
    (if name ∈ members.map Prod.fst then item.strings else item.shadowed) ++ memberShadowed members

end

theorem memberValues_eq_map (members : List (CodePoints × Json)) :
    memberValues members = members.map fun member ↦ (member.1, member.2.value) := by
  induction members with
  | nil => rfl
  | cons member members ih => rw [memberValues, ih, List.map_cons]

theorem mem_memberTexts {members : List (CodePoints × Json)} {name : CodePoints} {item : Json}
    {s : CodePoints} (hitem : (name, item) ∈ members) (hs : s ∈ item.texts) :
    s ∈ memberTexts members := by
  induction members with
  | nil => exact absurd hitem List.not_mem_nil
  | cons member members ih =>
    obtain ⟨name', item'⟩ := member
    rw [memberTexts]
    rcases List.mem_cons.mp hitem with he | hmem
    · obtain ⟨rfl, rfl⟩ := Prod.mk.inj he
      exact List.mem_append_left _ hs
    · exact List.mem_append_right _ (ih hmem)

mutual

theorem Json.mem_strings {s : CodePoints} : ∀ document : Json, s ∈ document.strings →
    s ∈ document.names ∨ s ∈ document.shadowed ∨ s ∈ document.value.texts
  | .null, h => absurd h List.not_mem_nil
  | .boolean _, h => absurd h List.not_mem_nil
  | .number, h => absurd h List.not_mem_nil
  | .string text, h => .inr (.inr h)
  | .array items, h => mem_itemStrings items h
  | .object members, h => by
    rcases mem_memberStrings members [] h with hname | hshadowed | ⟨name, item, hitem, hs⟩
    · exact .inl hname
    · exact .inr (.inl hshadowed)
    · exact .inr (.inr (mem_memberTexts hitem hs))

theorem mem_itemStrings {s : CodePoints} : ∀ items : List Json, s ∈ itemStrings items →
    s ∈ itemNames items ∨ s ∈ itemShadowed items ∨ s ∈ itemTexts (itemValues items)
  | [], h => absurd h List.not_mem_nil
  | item :: items, h => by
    rw [itemNames, itemShadowed, itemValues, itemTexts, List.mem_append, List.mem_append,
      List.mem_append]
    rcases List.mem_append.mp h with h | h
    · rcases item.mem_strings h with h | h | h
      · exact .inl (.inl h)
      · exact .inr (.inl (.inl h))
      · exact .inr (.inr (.inl h))
    · rcases mem_itemStrings items h with h | h | h
      · exact .inl (.inr h)
      · exact .inr (.inl (.inr h))
      · exact .inr (.inr (.inr h))

theorem mem_memberStrings {s : CodePoints} :
    ∀ (members front : List (CodePoints × Json)), s ∈ memberStrings members →
    s ∈ memberNames members ∨ s ∈ memberShadowed members ∨
      ∃ name item, (name, item) ∈ dictOf (memberValues (front ++ members)) ∧ s ∈ item.texts
  | [], _, h => absurd h List.not_mem_nil
  | (name, item) :: members, front, h => by
    rw [memberNames, memberShadowed, List.mem_cons, List.mem_append, List.mem_append]
    rw [memberStrings, List.mem_cons, List.mem_append] at h
    rcases h with rfl | h | h
    · exact .inl (.inl rfl)
    · split_ifs with hlater
      · exact .inr (.inl (.inl h))
      · rcases item.mem_strings h with h | h | h
        · exact .inl (.inr (.inl h))
        · exact .inr (.inl (.inl h))
        · refine .inr (.inr ⟨name, item.value, ?_, h⟩)
          rw [memberValues_eq_map, List.map_append, List.map_cons]
          apply mem_dictOf_of_last
          rwa [List.map_map]
    · rcases mem_memberStrings members (front ++ [(name, item)]) h with h | h | h
      · exact .inl (.inr (.inr h))
      · exact .inr (.inl (.inr h))
      · rw [List.append_assoc, List.singleton_append] at h
        exact .inr (.inr h)

end

mutual

theorem Json.strings_of_names {s : CodePoints} :
    ∀ document : Json, s ∈ document.names → s ∈ document.strings
  | .null, h => h
  | .boolean _, h => h
  | .number, h => h
  | .string _, h => absurd h List.not_mem_nil
  | .array items, h => itemStrings_of_names items h
  | .object members, h => memberStrings_of_names members h

theorem itemStrings_of_names {s : CodePoints} :
    ∀ items : List Json, s ∈ itemNames items → s ∈ itemStrings items
  | [], h => h
  | item :: items, h => by
    rcases List.mem_append.mp h with h | h
    · exact List.mem_append_left _ (item.strings_of_names h)
    · exact List.mem_append_right _ (itemStrings_of_names items h)

theorem memberStrings_of_names {s : CodePoints} : ∀ members : List (CodePoints × Json),
    s ∈ memberNames members → s ∈ memberStrings members
  | [], h => h
  | (name, item) :: members, h => by
    rw [memberNames, List.mem_cons, List.mem_append] at h
    rw [memberStrings, List.mem_cons, List.mem_append]
    exact h.imp_right (Or.imp item.strings_of_names (memberStrings_of_names members))

end

mutual

theorem Json.strings_of_shadowed {s : CodePoints} :
    ∀ document : Json, s ∈ document.shadowed → s ∈ document.strings
  | .null, h => h
  | .boolean _, h => h
  | .number, h => h
  | .string _, h => absurd h List.not_mem_nil
  | .array items, h => itemStrings_of_shadowed items h
  | .object members, h => memberStrings_of_shadowed members h

theorem itemStrings_of_shadowed {s : CodePoints} : ∀ items : List Json,
    s ∈ itemShadowed items → s ∈ itemStrings items
  | [], h => h
  | item :: items, h => by
    rcases List.mem_append.mp h with h | h
    · exact List.mem_append_left _ (item.strings_of_shadowed h)
    · exact List.mem_append_right _ (itemStrings_of_shadowed items h)

theorem memberStrings_of_shadowed {s : CodePoints} : ∀ members : List (CodePoints × Json),
    s ∈ memberShadowed members → s ∈ memberStrings members
  | [], h => h
  | (name, item) :: members, h => by
    rw [memberShadowed, List.mem_append] at h
    rw [memberStrings, List.mem_cons, List.mem_append]
    refine .inr (h.imp (fun h ↦ ?_) (memberStrings_of_shadowed members))
    split_ifs at h
    · exact h
    · exact item.strings_of_shadowed h

end

end AgenticSecurity.Python
