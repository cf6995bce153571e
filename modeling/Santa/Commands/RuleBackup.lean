import Santa.Rules.DecisionCacheFlush
import Santa.Rules.RuleExport
import Santa.Rules.StoredRules

/-!
Rules written to a file and read from one on the command line. An import is sent to the daemon
as a whole, or not at all: one rule that cannot be read ends it. The file is the array of
dictionaries in it; that JSON gives back what was written is assumed.
-/
namespace SantaRuleBackup
open SantaRule SantaRuleTable SantaRuleAddition SantaRuleExport SantaRuleFlush
open SantaStoredRules (System ReadsBack Readable ReceivesNormal retrieveAllExecutionRules
  readsBack_iff retrieve_all)

/-- What an export ends with. An exception is raised where a row makes no rule. -/
inductive Export where
  | failed
  | raised
  | noRules
  | written (rules : List Dictionary)

section
variable (compile : Bool → String → Option String) (hash : FileAccessRules → String)

end

/-! ### Reading the file -/

section
variable {compile : Bool → String → Option String} {hash : FileAccessRules → String}

end

end SantaRuleBackup
