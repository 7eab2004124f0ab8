import AgenticSecurity.Models
import AgenticSecurity.Python.Regex
import AgenticSecurity.Python.SequenceMatcher

namespace AgenticSecurity.Changes

open Models Python

def synonyms : List (String × String) :=
  [("performs", "perform"), ("performed", "perform"), ("triages", "triage"), ("triaged", "triage"),
    ("investigates", "investigate"), ("automatically", "autonomous"), ("generally available", "ga"),
    ("general availability", "ga"), ("human approval", "approval"),
    ("requires approval", "approval")]

section Patterns

open Regex

def cosmetic : Regex :=
  seq (anyOf (["last updated", "updated", "copyright", "cookie", "skip to", "table of contents"].map
    textIgnoringCase)) boundary

def tracking : Regex :=
  sequence
    [boundary,
      anyOf [seq (textIgnoringCase "utm_") (plus (one letterIgnoringCase)), textIgnoringCase "ref",
        textIgnoringCase "tracking-id"],
      text "=",
      plus (one fun c ↦ ¬ isSpace c ∧ c ≠ '&')]

def functionWord : Regex :=
  sequence
    [boundary, anyOf (["the", "a", "an", "is", "are", "by", "for", "to", "of", "and"].map text),
      boundary]

def validationTerm : Regex :=
  anyOf (["independent validation", "independently validated", "independently designed",
    "source class i1", "i1/e3"].map textIgnoringCase)

def independentValidation : Regex := sequence [boundary, validationTerm, boundary]

/-- `first\s+second`. -/
def spaced (first second : String) : Regex :=
  sequence [textIgnoringCase first, plus (one isSpace), textIgnoringCase second]

def auxiliaryNegations : List Regex :=
  [spaced "has" "not", spaced "have" "not", spaced "had" "not", spaced "is" "not",
    spaced "was" "not", spaced "were" "not"]

def spaceOrUnderscore : Regex := one fun c ↦ isSpace c || c = '_'

def negationBefore : Regex :=
  anyOf ([textIgnoringCase "no", textIgnoringCase "not", textIgnoringCase "without",
    seq (textIgnoringCase "lack") (alt (textIgnoringCase "s") epsilon), textIgnoringCase "missing",
    textIgnoringCase "neither", textIgnoringCase "never",
    seq (textIgnoringCase "none")
      (alt (seq (plus spaceOrUnderscore) (textIgnoringCase "found")) epsilon)] ++
        auxiliaryNegations)

def negationAfter : Regex :=
  anyOf (["removed", "withdrawn", "retracted", "revoked", "unpublished", "unavailable"].map
      textIgnoringCase ++ auxiliaryNegations ++
    [spaced "does" "not", spaced "did" "not", textIgnoringCase "not published",
      textIgnoringCase "no longer",
      sequence [textIgnoringCase "none", many spaceOrUnderscore, textIgnoringCase "found"]])

/-- `.{0,80}`. -/
def within80 : Regex := upTo 80 (one (· ≠ '\n'))

def negatedIndependentValidation : Regex :=
  alt
    (sequence [boundary, negationBefore, boundary, within80, boundary, validationTerm, boundary])
    (sequence [boundary, validationTerm, boundary, within80, boundary, negationAfter, boundary])

end Patterns

variable (unicode : UnicodeData)

def isTokenCharacter (c : Char) : Bool := ('a' ≤ c && c ≤ 'z') || c.isDigit

def semantic (text : List Char) : List Char :=
  let value := synonyms.foldl (fun value entry ↦ replace entry.1.toList entry.2.toList value)
    (unicode.lower text)
  let value := tracking.sub unicode [] value
  let value := functionWord.sub unicode [' '] value
  join [' '] (sortedStrings (Regex.findallFrom isTokenCharacter [] value))

def isMeaningful (line : List Char) : Bool := strip line ≠ [] && ¬ cosmetic.matchesAt unicode line

def meaningfulLines (text : List Char) : List (List Char) :=
  ((splitlines text).filter (isMeaningful unicode)).map strip

/-- `tuple(sorted(set(lines) - set(others)))`. -/
def sortedDifference (lines others : List (List Char)) : List String :=
  (sortedStrings (lines.eraseDups.filter (· ∉ others))).map String.ofList

def evidenceStatusSubtype (added removed : List String) : Option EvidenceStatusChangeSubtype :=
  let addedText := unicode.lower (" ".intercalate added).toList
  let allText := addedText ++ [' '] ++ unicode.lower (" ".intercalate removed).toList
  if ["contradicting evidence", "contradiction added", "evidence conflict"].any
      fun term ↦ contains term.toList addedText then
    some .evidenceContradictionAdded
  else if independentValidation.search unicode addedText &&
      ¬ negatedIndependentValidation.search unicode addedText then
    some .independentValidationAdded
  else if ["evidence maturity", "maturity changed", "reproducibly evaluated", " e2 ",
      " e3 ", " e4 ", " e5 "].any fun term ↦ contains term.toList allText then
    some .evidenceMaturityChanged
  else none

def isParaphrase (oldLines newLines : List (List Char)) : Bool :=
  let oldSemantic := semantic unicode (join ['\n'] oldLines)
  let newSemantic := semantic unicode (join ['\n'] newLines)
  oldSemantic = newSemantic || SequenceMatcher.ratioAtLeastNineTenths oldSemantic newSemantic

/-- `sha256` is the hash of a text's UTF-8 bytes. -/
def detectChange (sha256 : String → Sha256) (old new : Snapshot) (diffId : DiffId)
    (derivativeOnly : Bool) : Except String StructuredDiff :=
  if old.sourceId ≠ new.sourceId then .error "snapshots must belong to the same source"
  else
    let oldLines := meaningfulLines unicode old.normalizedText.toList
    let newLines := meaningfulLines unicode new.normalizedText.toList
    let added := sortedDifference newLines oldLines
    let removed := sortedDifference oldLines newLines
    let changed := added ≠ [] || removed ≠ []
    let cosmeticOnly := old.normalizedText = new.normalizedText || ¬ changed
    let paraphraseOnly := ¬ cosmeticOnly && isParaphrase unicode oldLines newLines
    let material := changed && ¬ (cosmeticOnly || paraphraseOnly || derivativeOnly)
    .ok
      { id := diffId
        sourceId := old.sourceId
        oldSnapshotId := old.id
        newSnapshotId := new.id
        added
        removed
        cosmeticOnly
        paraphraseOnly
        derivativeOnly
        materialCandidate := material
        evidenceStatusSubtype :=
          if material then evidenceStatusSubtype unicode added removed else none
        fingerprint := sha256
          ("\n".intercalate ([old.sha256.text, new.sha256.text] ++ removed ++ ["--"] ++ added)) }

def rules : List (List String × ChangeClassification × Finset DecisionImpact) :=
  [(["generally available", " ga ", "public preview", "private preview"],
      .availabilityLifecycleChange, {.deployment, .procurement}),
    (["new agent", "agent added", "verification agent", "specialized agent"],
      .agentAddition, {.architecture, .risk}),
    (["approval", "human gate", "pre-action", "post-action"],
      .approvalChange, {.authorization, .operations}),
    (["permission", "read-only", "write access", "authorization"],
      .permissionChange, {.authorization, .risk}),
    (["trigger", "event-driven", "scheduled", "continuous"], .triggerChange, {.operations, .risk}),
    (["benchmark", "score", "success rate"], .benchmarkResultChange, {.evaluation, .procurement}),
    (["architecture", "supervisor", "multi-agent", "orchestration"],
      .architectureChange, {.architecture, .risk}),
    (["model", "llm", "foundation model"], .modelChange, {.architecture, .evaluation}),
    (["deprecated", "retired", "end of support"],
      .documentationDeprecation, {.deployment, .procurement}),
    (["autonomy", "persistent", "session-bound"],
      .autonomyFacetChange, {.authorization, .operations}),
    (["capability", "can now", "supports", "triage", "investigate", "remediate"],
      .capabilityAddition, {.operations, .evaluation})]

def containsAny (words : List String) (text : List Char) : Bool :=
  words.any fun word ↦ contains word.toList text

def classifyDiff (diff : StructuredDiff) : ChangeClassification × Finset DecisionImpact × String :=
  if ¬ diff.materialCandidate then
    (.notMaterial, ∅, "Filtered deterministic non-material change.")
  else
    match diff.evidenceStatusSubtype with
    | some subtype =>
      (.evidenceStatusChange, {.evaluation, .procurement},
        "Evidence establishment changed: " ++ subtype.value ++ ".")
    | none =>
      let text := unicode.lower (" ".intercalate (diff.added ++ diff.removed)).toList
      let removedText := unicode.lower (" ".intercalate diff.removed).toList
      let addedText := unicode.lower (" ".intercalate diff.added).toList
      let capabilityWords := ["capability", "supports", "can "]
      if containsAny ["agent"] removedText && ¬ containsAny ["agent"] addedText then
        (.agentRemoval, {.architecture, .risk},
          "Agent terminology was removed without a replacement.")
      else if containsAny capabilityWords removedText &&
        ¬ containsAny capabilityWords addedText then
        (.capabilityRemoval, {.operations, .risk},
          "Capability language was removed without a replacement.")
      else
        match rules.find? fun rule ↦ containsAny rule.1 ([' '] ++ text ++ [' ']) with
        | some (keywords, classification, impacts) =>
          (classification, impacts,
            "Matched deterministic keywords: " ++ ", ".intercalate keywords ++ ".")
        | none =>
          (.controlChange, {.architecture},
            "Surviving structured change requires analyst classification.")

end AgenticSecurity.Changes
