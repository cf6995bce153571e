/-!
Execution rules as the daemon holds them. A rule that is read from the database
or built from a dictionary passes through `initWithIdentifier`, which checks the
identifier against the rule's type and normalizes its case; a rule decoded from
an XPC message does not. Numbers that name no declared type or state can arrive
both ways and are kept as they are.
-/
namespace SantaRule

inductive SNTRuleType where
  | unknown
  | cdHash
  | binary
  | signingID
  | certificate
  | teamID
  | undeclared (raw : Int)
  deriving DecidableEq, Repr

inductive SNTRuleState where
  | unknown
  | allow
  | block
  | silentBlock
  | remove
  | allowCompiler
  | allowTransitive
  | allowLocalBinary
  | allowLocalSigningID
  | cel
  | celv2
  | undeclared (raw : Int)
  deriving DecidableEq, Repr

def SNTRuleType.raw : SNTRuleType → Int
  | .unknown => 0
  | .cdHash => 500
  | .binary => 1000
  | .signingID => 2000
  | .certificate => 3000
  | .teamID => 4000
  | .undeclared raw => raw

def SNTRuleState.raw : SNTRuleState → Int
  | .unknown => 0
  | .allow => 1
  | .block => 2
  | .silentBlock => 3
  | .remove => 4
  | .allowCompiler => 5
  | .allowTransitive => 6
  | .allowLocalBinary => 7
  | .allowLocalSigningID => 8
  | .cel => 9
  | .celv2 => 10
  | .undeclared raw => raw

inductive SNTErrorCode where
  | manualRulesDisabled
  | ruleInvalid
  | ruleInvalidIdentifier
  | ruleInvalidCELExpression
  | emptyRuleArray
  | insertOrReplaceRuleFailed
  | removeRuleFailed
  deriving DecidableEq, Repr

structure SNTError where
  code : SNTErrorCode
  message : String
  detail : Option String
  deriving DecidableEq, Repr

/- A nil identifier has length zero and is the empty string here. -/
structure SNTRule where
  identifier : String
  state : SNTRuleState
  type : SNTRuleType
  customMsg : Option String
  customURL : Option String
  timestamp : Nat
  comment : Option String
  celExpr : Option String
  deriving DecidableEq, Repr

def SNTRule.description (r : SNTRule) : String :=
  "SNTRule: Identifier: " ++ r.identifier ++ ", State: " ++ toString r.state.raw ++ ", Type: " ++
    toString r.type.raw ++ ", Timestamp: " ++ toString r.timestamp

/-! ### Reading an identifier -/

def isHex (c : Char) : Bool :=
  c.isDigit || ('a' ≤ c && c ≤ 'f') || ('A' ≤ c && c ≤ 'F')

def isAlnum (c : Char) : Bool := c.isDigit || ('a' ≤ c && c ≤ 'z') || ('A' ≤ c && c ≤ 'Z')

/- Of ASCII letters only, where `lowercaseString` and `uppercaseString` map all of Unicode (a long
   s becomes an S). -/
def lowercase (cs : List Char) : String := String.ofList (cs.map Char.toLower)
def uppercase (cs : List Char) : String := String.ofList (cs.map Char.toUpper)

def kExpectedTeamIDLength : Nat := 10
def kSHA256Length : Nat := 64
def kCDHashLength : Nat := 40

def hexIdentifier (length : Nat) (identifier : String) : Option String :=
  let cs := identifier.toList
  if cs.length = length ∧ cs.all isHex then some (lowercase cs) else none

def teamIdentifier (cs : List Char) : Option String :=
  if cs.length = kExpectedTeamIDLength ∧ cs.all isAlnum then some (uppercase cs) else none

def splitAtColon : List Char → Option (List Char × List Char)
  | [] => none
  | c :: cs =>
      if c = ':' then some ([], cs)
      else (splitAtColon cs).map fun (before, after) => (c :: before, after)

def signingIdentifier (identifier : String) : Option String :=
  (splitAtColon identifier.toList).bind fun (team, signing) =>
    let prefixed :=
      if lowercase team = "platform" then some "platform" else teamIdentifier team
    if signing = [] then none
    else prefixed.map fun team => team ++ ":" ++ String.ofList signing

def normalizedIdentifier (type : SNTRuleType) (identifier : String) : Option String :=
  match type with
  | .binary | .certificate => hexIdentifier kSHA256Length identifier
  | .teamID => teamIdentifier identifier.toList
  | .signingID => signingIdentifier identifier
  | .cdHash => hexIdentifier kCDHashLength identifier
  | _ => some identifier

def ruleTypeString : SNTRuleType → String
  | .cdHash => "CDHASH"
  | .binary => "BINARY"
  | .signingID => "SIGNINGID"
  | .certificate => "CERTIFICATE"
  | .teamID => "TEAMID"
  | _ => "<unknown>"

def invalidIdentifier (identifier : String) (type : SNTRuleType) : SNTError :=
  ⟨.ruleInvalidIdentifier,
    "Rule received with invalid identifier for its type " ++
      "(rule type: " ++ ruleTypeString type ++ ", identifier: " ++ identifier ++ ")", none⟩

/-- An empty identifier gives nil without an error. Only the first CEL version is checked
    for a missing expression. -/
def initWithIdentifier (r : SNTRule) : Except (Option SNTError) SNTRule :=
  if r.identifier = "" then .error none
  else match normalizedIdentifier r.type r.identifier with
    | none => .error (some (invalidIdentifier r.identifier r.type))
    | some identifier =>
        if r.state = .cel ∧ r.celExpr.getD "" = "" then
          .error (some ⟨.ruleInvalidCELExpression, "Rule received missing CEL expression", none⟩)
        else .ok { r with identifier := identifier }

def SNTRule.init (r : SNTRule) : Option SNTRule := (initWithIdentifier r).toOption

theorem init_some_iff {r r' : SNTRule} : r.init = some r' ↔
    r.identifier ≠ "" ∧ ¬ (r.state = .cel ∧ r.celExpr.getD "" = "") ∧
      ∃ identifier, normalizedIdentifier r.type r.identifier = some identifier ∧
        r' = { r with identifier := identifier } := by
  unfold SNTRule.init initWithIdentifier
  by_cases missing : r.identifier = ""
  · rw [if_pos missing]
    constructor
    · exact fun h => nomatch h
    · exact fun h => absurd missing h.1
  rw [if_neg missing]
  cases shape : normalizedIdentifier r.type r.identifier with
  | none =>
    constructor
    · exact fun h => nomatch h
    · rintro ⟨_, _, i, some, _⟩
      exact nomatch some
  | some identifier =>
    simp only
    by_cases noExpr : r.state = .cel ∧ r.celExpr.getD "" = ""
    · rw [if_pos noExpr]
      constructor
      · exact fun h => nomatch h
      · exact fun h => absurd noExpr h.2.1
    · rw [if_neg noExpr]
      constructor
      · intro h
        exact ⟨missing, noExpr, identifier, rfl, (Option.some.inj h).symm⟩
      · rintro ⟨_, _, i, same, built⟩
        rw [built, ← Option.some.inj same]
        rfl

theorem init_congr {r s : SNTRule} (identifier : r.identifier = s.identifier)
    (type : r.type = s.type)
    (expr : r.state = .cel ∧ r.celExpr.getD "" = "" ↔ s.state = .cel ∧ s.celExpr.getD "" = "") :
    r.init.isSome ↔ s.init.isSome := by
  simp only [Option.isSome_iff_exists, init_some_iff, identifier, type, expr]
  constructor
  · rintro ⟨_, present, ok, i, shape, _⟩
    exact ⟨_, present, ok, i, shape, rfl⟩
  · rintro ⟨_, present, ok, i, shape, _⟩
    exact ⟨_, present, ok, i, shape, rfl⟩

theorem init_fields {r r' : SNTRule} (h : r.init = some r') :
    r'.state = r.state ∧ r'.type = r.type ∧ r'.celExpr = r.celExpr := by
  obtain ⟨_, _, identifier, _, same⟩ := init_some_iff.mp h
  subst same
  exact ⟨rfl, rfl, rfl⟩

end SantaRule
