import Mathlib.Data.List.Nodup
import Santa.Rules.NormalForms

/-!
Rules as dictionaries, the form in which they are exported and imported. Keys are
compared in lower case, the policy and the rule type in upper case, and a key that
occurs in two spellings has the value that comes last. Only ASCII letters have a
case here; the keys, policies and types that are looked for have no others. Values
that are no text are known by their description.
-/
namespace SantaRuleExport
open SantaRule

def kRuleSHA256 : String := "sha256"
def kRuleIdentifier : String := "identifier"
def kRulePolicy : String := "policy"
def kRuleType : String := "rule_type"
def kRuleCustomMsg : String := "custom_msg"
def kRuleCustomURL : String := "custom_url"
def kRuleComment : String := "comment"
def kRuleCELExpr : String := "cel_expr"

inductive Value where
  | text (s : String)
  | other (description : String)
  deriving DecidableEq, Repr

abbrev Dictionary := List (String × Value)

inductive RawRule where
  | dictionary (dict : Dictionary)
  | other (className : String)
  deriving DecidableEq, Repr

inductive DictionaryError where
  | invalidType (className : String)
  | missingIdentifier (value : Option Value)
  | missingPolicy (value : Option Value)
  | invalidPolicy (policy : String)
  | missingRuleType (value : Option Value)
  | invalidRuleType (type : String)
  | rejected (error : Option SNTError)
  deriving DecidableEq, Repr

def described : Option Value → String
  | none => "(null)"
  | some (.text s) => s
  | some (.other description) => description

def DictionaryError.message : DictionaryError → Option String
  | .invalidType className => some ("Rule received with invalid type " ++ className)
  | .missingIdentifier value =>
      some ("Rule received with missing/invalid identifier '" ++ described value ++ "'")
  | .missingPolicy value =>
      some ("Rule received with missing/invalid policy '" ++ described value ++ "'")
  | .invalidPolicy policy => some ("Rule received with invalid policy '" ++ policy ++ "'")
  | .missingRuleType value =>
      some ("Rule received with missing/invalid rule type '" ++ described value ++ "'")
  | .invalidRuleType type => some ("Rule received with invalid rule type '" ++ type ++ "'")
  | .rejected error => error.map (·.message)

/-! ### Import -/

def normalizeEntry (entry : String × Value) : String × Value :=
  let newKey := lowercase entry.1.toList
  match entry.2 with
  | .text s =>
      (newKey, .text (if newKey = kRulePolicy ∨ newKey = kRuleType then uppercase s.toList else s))
  | value => (newKey, value)

def normalizeRuleDictionary (dict : Dictionary) : Dictionary := dict.map normalizeEntry

def Dictionary.at (dict : Dictionary) (key : String) : Option Value :=
  (dict.reverse.find? fun entry => entry.1 = key).map Prod.snd

def someText : Option Value → Option String
  | some (.text s) => if s = "" then none else some s
  | _ => none

def stateOfPolicy (policyString : String) : Option SNTRuleState :=
  if policyString = "ALLOWLIST" ∨ policyString = "WHITELIST" then some .allow
  else if policyString = "ALLOWLIST_COMPILER" ∨ policyString = "WHITELIST_COMPILER" then
    some .allowCompiler
  else if policyString = "ALLOWLIST_LOCAL_BINARY" then some .allowLocalBinary
  else if policyString = "ALLOWLIST_LOCAL_SIGNINGID" then some .allowLocalSigningID
  else if policyString = "BLOCKLIST" ∨ policyString = "BLACKLIST" then some .block
  else if policyString = "SILENT_BLOCKLIST" ∨ policyString = "SILENT_BLACKLIST" then
    some .silentBlock
  else if policyString = "REMOVE" then some .remove
  else if policyString = "CEL" then some .cel
  else none

def typeOfString (ruleTypeString : String) : Option SNTRuleType :=
  if ruleTypeString = "BINARY" then some .binary
  else if ruleTypeString = "CERTIFICATE" then some .certificate
  else if ruleTypeString = "TEAMID" then some .teamID
  else if ruleTypeString = "SIGNINGID" then some .signingID
  else if ruleTypeString = "CDHASH" then some .cdHash
  else none

def initWithDictionary : RawRule → Except DictionaryError SNTRule
  | .other className => .error (.invalidType className)
  | .dictionary rawDict =>
      let dict := normalizeRuleDictionary rawDict
      match (someText (dict.at kRuleIdentifier)).or (someText (dict.at kRuleSHA256)) with
      | none => .error (.missingIdentifier (dict.at kRuleSHA256))
      | some identifier =>
          match dict.at kRulePolicy with
          | some (.text policyString) =>
              match stateOfPolicy policyString with
              | none => .error (.invalidPolicy policyString)
              | some state =>
                  match dict.at kRuleType with
                  | some (.text ruleTypeString) =>
                      match typeOfString ruleTypeString with
                      | none => .error (.invalidRuleType ruleTypeString)
                      | some type =>
                          (initWithIdentifier ⟨identifier, state, type,
                            someText (dict.at kRuleCustomMsg), someText (dict.at kRuleCustomURL), 0,
                            someText (dict.at kRuleComment),
                            someText (dict.at kRuleCELExpr)⟩).mapError .rejected
                  | value => .error (.missingRuleType value)
          | value => .error (.missingPolicy value)

/-! ### Export -/

def ruleStateToPolicyString : SNTRuleState → String
  | .allow => "ALLOWLIST"
  | .allowCompiler => "ALLOWLIST_COMPILER"
  | .block => "BLOCKLIST"
  | .silentBlock => "SILENT_BLOCKLIST"
  | .remove => "REMOVE"
  | .allowTransitive => "AllowTransitive"
  | .allowLocalBinary => "ALLOWLIST_LOCAL_BINARY"
  | .allowLocalSigningID => "ALLOWLIST_LOCAL_SIGNINGID"
  | .cel => "CEL"
  | _ => "Unknown"

def ruleTypeToString : SNTRuleType → String
  | .binary => "BINARY"
  | .certificate => "CERTIFICATE"
  | .teamID => "TEAMID"
  | .signingID => "SIGNINGID"
  | _ => "Unknown"

def dictionaryRepresentation (r : SNTRule) : Dictionary :=
  [(kRuleIdentifier, .text r.identifier),
    (kRulePolicy, .text (ruleStateToPolicyString r.state)),
    (kRuleType, .text (ruleTypeToString r.type)),
    (kRuleCustomMsg, .text (r.customMsg.getD "")),
    (kRuleCustomURL, .text (r.customURL.getD "")),
    (kRuleComment, .text (r.comment.getD "")),
    (kRuleCELExpr, .text (r.celExpr.getD ""))]

def reimported (r : SNTRule) : Except DictionaryError SNTRule :=
  initWithDictionary (.dictionary (dictionaryRepresentation r))

/-! ### Round trip -/

/-- The comparison of the class looks at no texts but these. -/
def isEqual (r other : SNTRule) : Bool :=
  r.identifier = other.identifier && r.state = other.state && r.type = other.type &&
    (r.celExpr = none || r.celExpr = other.celExpr)

/-- A text that is missing is as good as an empty one. -/
def SameText (text other : Option String) : Prop := text.getD "" = other.getD ""

/-- A rule comes back that is equal, its texts included. -/
def RoundTrips (r : SNTRule) : Prop :=
  ∃ r', reimported r = .ok r' ∧ isEqual r' r = true ∧ SameText r'.celExpr r.celExpr ∧
    SameText r'.customMsg r.customMsg ∧ SameText r'.customURL r.customURL ∧
    SameText r'.comment r.comment

structure Exportable (r : SNTRule) : Prop where
  type : r.type ∈ [.binary, .certificate, .teamID, .signingID]
  state : r.state ∈ [.allow, .allowCompiler, .block, .silentBlock, .remove, .allowLocalBinary,
    .allowLocalSigningID, .cel]

/-- No text is there and empty. -/
structure TextsFilled (r : SNTRule) : Prop where
  customMsg : r.customMsg ≠ some ""
  customURL : r.customURL ≠ some ""
  comment : r.comment ≠ some ""
  celExpr : r.celExpr ≠ some ""

def filledText (text : Option String) : Option String := text.filter (· ≠ "")

def withoutEmptyTexts (r : SNTRule) : SNTRule :=
  { r with
    customMsg := filledText r.customMsg
    customURL := filledText r.customURL
    timestamp := 0
    comment := filledText r.comment
    celExpr := filledText r.celExpr }

theorem someText_getD (text : Option String) :
    someText (some (.text (text.getD ""))) = filledText text := by
  cases text with
  | none => rfl
  | some s =>
    by_cases empty : s = ""
    · simp [someText, filledText, Option.filter, empty]
    · simp [someText, filledText, Option.filter, empty]

theorem filled_sameText (text : Option String) : SameText (filledText text) text := by
  cases text with
  | none => rfl
  | some s =>
    by_cases empty : s = ""
    · simp [SameText, filledText, Option.filter, empty]
    · simp [SameText, filledText, Option.filter, empty]

theorem filled_eq_iff {text : Option String} : filledText text = text ↔ text ≠ some "" := by
  cases text with
  | none => simp [filledText]
  | some s => simp [filledText, Option.filter_eq_some_iff]

theorem at_of_mem {dict : Dictionary} (unique : (dict.map Prod.fst).Nodup) {key : String}
    {value : Value} (member : (key, value) ∈ dict) : dict.at key = some value := by
  cases found : dict.reverse.find? (fun entry => entry.1 = key) with
  | none =>
    have other := List.find?_eq_none.mp found (key, value) (List.mem_reverse.mpr member)
    exact absurd (decide_eq_true rfl) other
  | some entry =>
    have same : entry.1 = key := by simpa using List.find?_some found
    have here : entry ∈ dict := List.mem_reverse.mp (List.mem_of_find?_eq_some found)
    rw [Dictionary.at, found, Option.map_some,
      List.inj_on_of_nodup_map unique here member same]

theorem normalized_representation (r : SNTRule) :
    normalizeRuleDictionary (dictionaryRepresentation r) =
      [(kRuleIdentifier, .text r.identifier),
        (kRulePolicy, .text (uppercase (ruleStateToPolicyString r.state).toList)),
        (kRuleType, .text (uppercase (ruleTypeToString r.type).toList)),
        (kRuleCustomMsg, .text (r.customMsg.getD "")),
        (kRuleCustomURL, .text (r.customURL.getD "")),
        (kRuleComment, .text (r.comment.getD "")),
        (kRuleCELExpr, .text (r.celExpr.getD ""))] := by
  have entry : ∀ key s, lowercase key.toList = key → normalizeEntry (key, .text s) =
      (key, .text (if key = kRulePolicy ∨ key = kRuleType then uppercase s.toList else s)) := by
    intro key s lower
    simp [normalizeEntry, lower]
  simp only [normalizeRuleDictionary, dictionaryRepresentation, List.map_cons, List.map_nil]
  rw [entry kRuleIdentifier _ (by decide), entry kRulePolicy _ (by decide),
    entry kRuleType _ (by decide), entry kRuleCustomMsg _ (by decide),
    entry kRuleCustomURL _ (by decide), entry kRuleComment _ (by decide),
    entry kRuleCELExpr _ (by decide)]
  rfl

theorem unknown_unread : stateOfPolicy (uppercase "Unknown".toList) = none := by decide

theorem unknown_untyped : typeOfString (uppercase "Unknown".toList) = none := by decide

theorem policy_understood {state : SNTRuleState} :
    stateOfPolicy (uppercase (ruleStateToPolicyString state).toList) = some state ∧
        state ∈ [.allow, .allowCompiler, .block, .silentBlock, .remove, .allowLocalBinary,
          .allowLocalSigningID, .cel] ∨
      stateOfPolicy (uppercase (ruleStateToPolicyString state).toList) = none ∧
        state ∉ [.allow, .allowCompiler, .block, .silentBlock, .remove, .allowLocalBinary,
          .allowLocalSigningID, .cel] := by
  cases state with
  | unknown | allowTransitive | celv2 => exact Or.inr (by decide)
  | undeclared raw => exact Or.inr ⟨unknown_unread, by simp⟩
  | _ => exact Or.inl (by decide)

theorem type_understood {type : SNTRuleType} :
    typeOfString (uppercase (ruleTypeToString type).toList) = some type ∧
        type ∈ [.binary, .certificate, .teamID, .signingID] ∨
      typeOfString (uppercase (ruleTypeToString type).toList) = none ∧
        type ∉ [.binary, .certificate, .teamID, .signingID] := by
  cases type with
  | unknown | cdHash => exact Or.inr (by decide)
  | undeclared raw => exact Or.inr ⟨unknown_untyped, by simp⟩
  | _ => exact Or.inl (by decide)

theorem reimported_eq {r : SNTRule} (present : r.identifier ≠ "") :
    reimported r = match stateOfPolicy (uppercase (ruleStateToPolicyString r.state).toList) with
      | none => .error (.invalidPolicy (uppercase (ruleStateToPolicyString r.state).toList))
      | some state =>
          match typeOfString (uppercase (ruleTypeToString r.type).toList) with
          | none => .error (.invalidRuleType (uppercase (ruleTypeToString r.type).toList))
          | some type =>
              (initWithIdentifier { withoutEmptyTexts r with state := state, type := type }).mapError
                .rejected := by
  have unique : ((normalizeRuleDictionary (dictionaryRepresentation r)).map Prod.fst).Nodup := by
    rw [normalized_representation]
    simp only [List.map_cons, List.map_nil]
    decide
  have found : ∀ key value, (key, value) ∈ normalizeRuleDictionary (dictionaryRepresentation r) →
      Dictionary.at (normalizeRuleDictionary (dictionaryRepresentation r)) key = some value :=
    fun key value member => at_of_mem unique member
  have identifier : someText (some (.text r.identifier)) = some r.identifier := if_neg present
  unfold reimported initWithDictionary
  simp only
  rw [found kRuleIdentifier (.text r.identifier) (by simp [normalized_representation]),
    found kRulePolicy (.text (uppercase (ruleStateToPolicyString r.state).toList))
      (by simp [normalized_representation]),
    found kRuleType (.text (uppercase (ruleTypeToString r.type).toList))
      (by simp [normalized_representation]),
    found kRuleCustomMsg (.text (r.customMsg.getD "")) (by simp [normalized_representation]),
    found kRuleCustomURL (.text (r.customURL.getD "")) (by simp [normalized_representation]),
    found kRuleComment (.text (r.comment.getD "")) (by simp [normalized_representation]),
    found kRuleCELExpr (.text (r.celExpr.getD "")) (by simp [normalized_representation])]
  simp only [identifier, Option.some_or, someText_getD]
  rfl

theorem reimported_exportable {given r : SNTRule} (built : given.init = some r)
    (exportable : Exportable r) : reimported r = .ok (withoutEmptyTexts r) := by
  obtain ⟨present, normal⟩ := init_self_iff.mp (init_built built)
  rw [reimported_eq present]
  rcases @policy_understood r.state with ⟨state, _⟩ | ⟨_, unread⟩
  · rcases @type_understood r.type with ⟨type, _⟩ | ⟨_, unread⟩
    · rw [state, type]
      have again : (withoutEmptyTexts r).init = some (withoutEmptyTexts r) := by
        rw [init_self_iff]
        refine ⟨present, normal.identifier, ?_⟩
        intro cel none
        rw [withoutEmptyTexts] at none
        exact normal.celExpr cel ((filled_sameText r.celExpr).symm.trans none)
      unfold SNTRule.init at again
      change (initWithIdentifier (withoutEmptyTexts r)).mapError DictionaryError.rejected = _
      cases outcome : initWithIdentifier (withoutEmptyTexts r) with
      | error e =>
        rw [outcome] at again
        cases again
      | ok r' =>
        rw [outcome] at again
        rw [Option.some.inj again]
        rfl
    · exact absurd exportable.type unread
  · exact absurd exportable.state unread

theorem exportable_of_reimported {given r r' : SNTRule} (built : given.init = some r)
    (back : reimported r = .ok r') : Exportable r := by
  rw [reimported_eq (init_self_iff.mp (init_built built)).1] at back
  rcases @policy_understood r.state with ⟨state, knownState⟩ | ⟨unread, _⟩
  · rcases @type_understood r.type with ⟨type, knownType⟩ | ⟨unread, _⟩
    · exact ⟨knownType, knownState⟩
    · rw [state, unread] at back
      cases back
  · rw [unread] at back
    cases back

theorem without_eq_iff {r : SNTRule} :
    withoutEmptyTexts r = { r with timestamp := 0 } ↔ TextsFilled r := by
  constructor
  · intro same
    rw [withoutEmptyTexts, SNTRule.mk.injEq] at same
    obtain ⟨-, -, -, msg, url, -, comment, expr⟩ := same
    exact ⟨filled_eq_iff.mp msg, filled_eq_iff.mp url, filled_eq_iff.mp comment,
      filled_eq_iff.mp expr⟩
  · rintro ⟨msg, url, comment, expr⟩
    rw [withoutEmptyTexts, filled_eq_iff.mpr msg, filled_eq_iff.mpr url, filled_eq_iff.mpr comment,
      filled_eq_iff.mpr expr]

/-- An exported rule is imported as an equal one just if its type and state have names that
    the import knows, and as the same in every field if besides no text is there and empty. -/
theorem export_import_iff {given r : SNTRule} (built : given.init = some r) :
    (RoundTrips r ↔ Exportable r) ∧
      (reimported r = .ok { r with timestamp := 0 } ↔ Exportable r ∧ TextsFilled r) := by
  refine ⟨⟨?_, ?_⟩, ⟨?_, ?_⟩⟩
  · rintro ⟨r', back, _⟩
    exact exportable_of_reimported built back
  · intro exportable
    refine ⟨withoutEmptyTexts r, reimported_exportable built exportable, ?_,
      filled_sameText _, filled_sameText _, filled_sameText _, filled_sameText _⟩
    cases expr : r.celExpr with
    | none => simp [isEqual, withoutEmptyTexts, expr, filledText]
    | some s =>
      by_cases empty : s = ""
      · simp [isEqual, withoutEmptyTexts, expr, filledText, Option.filter, empty]
      · simp [isEqual, withoutEmptyTexts, expr, filledText, Option.filter, empty]
  · intro back
    have exportable := exportable_of_reimported built back
    rw [reimported_exportable built exportable, Except.ok.injEq] at back
    exact ⟨exportable, without_eq_iff.mp back⟩
  · rintro ⟨exportable, filled⟩
    rw [reimported_exportable built exportable, without_eq_iff.mpr filled]

def celRule : SNTRule :=
  ⟨"EQHXZ8M8AV:com.example.tool", .cel, .signingID, some "why", none, 0, none, some "true"⟩

theorem cel_rule_exported :
    celRule.init = some celRule ∧ (RoundTrips celRule ↔ Exportable celRule) ∧
      (reimported celRule = .ok { celRule with timestamp := 0 } ↔
        Exportable celRule ∧ TextsFilled celRule) :=
  ⟨by decide +kernel, @export_import_iff celRule celRule (by decide +kernel)⟩

/-- The name of the CDHash type is missing on export. -/
theorem cdhash_rule_lost :
    ¬ ∀ given r : SNTRule, given.init = some r →
      r.state ∉ [.allowTransitive, .allowLocalBinary, .allowLocalSigningID] → RoundTrips r := by
  intro all
  let rule : SNTRule := ⟨"dbe8c39801f93e05fc7bc53a02af5b4d3cfc670a", .allow, .cdHash, none, none,
    0, none, none⟩
  have lost : reimported rule = .error (.invalidRuleType "UNKNOWN") := by decide +kernel
  obtain ⟨r', back, _⟩ := all rule rule (by decide +kernel) (by decide)
  rw [lost] at back
  cases back

end SantaRuleExport
