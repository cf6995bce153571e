import Santa.Events.StoredEvents
import Santa.Library.Replacing

/-!
The page that tells a user about a block. Its address is a template with placeholders, which are
replaced one after the other, in the order that the dictionary enumerates its keys in. A text is
the list of its composed characters. The host's names and the parser of addresses are parameters.
-/
namespace SantaBlockMessage
open Replacing
open SantaStoredEvents (SNTStoredExecutionEvent SNTStoredFileAccessEvent)

structure Host where
  machineID : Option String
  longHostname : Option String
  hardwareUUID : Option String
  serialNumber : Option String
  eventDetailURL : Option String

/-- `none` is NSNull. -/
abbrev TemplateMapping := List (String × Option String)

def fileSha (event : SNTStoredExecutionEvent) : Option String :=
  if event.fileSHA256.isSome then event.fileBundleHash <|> event.fileSHA256 else none

def eventDetailTemplateMappingForEvent (host : Host) (event : SNTStoredExecutionEvent) :
    TemplateMapping :=
  [("%file_sha%", fileSha event),
   ("%file_identifier%", event.fileSHA256),
   ("%bundle_or_file_identifier%", fileSha event),
   ("%username%", event.executingUser),
   ("%file_bundle_id%", event.fileBundleID),
   ("%team_id%", event.teamID),
   ("%signing_id%", event.signingID),
   ("%cdhash%", event.cdhash),
   ("%machine_id%", host.machineID),
   ("%hostname%", host.longHostname),
   ("%uuid%", host.hardwareUUID),
   ("%serial%", host.serialNumber)]

def fileAccessEventDetailTemplateMappingForEvent (host : Host) (event : SNTStoredFileAccessEvent) :
    TemplateMapping :=
  [("%rule_version%", event.ruleVersion),
   ("%rule_name%", event.ruleName),
   ("%accessed_path%", event.accessedPath),
   ("%file_identifier%", event.process.bind (·.fileSHA256)),
   ("%username%", event.process.bind (·.executingUser)),
   ("%team_id%", event.process.bind (·.teamID)),
   ("%signing_id%", event.process.bind (·.signingID)),
   ("%cdhash%", event.process.bind (·.cdhash)),
   ("%machine_id%", host.machineID),
   ("%hostname%", host.longHostname),
   ("%uuid%", host.hardwareUUID),
   ("%serial%", host.serialNumber)]

def stringByReplacingOccurrencesOfString (target value text : List Char) : List Char :=
  replaceAll target value text

def replaceFormatString (str : List Char) (replacements : TemplateMapping) : List Char :=
  replacements.foldl (fun formatStr entry =>
    match entry.2 with
    | some value => stringByReplacingOccurrencesOfString entry.1.toList value.toList formatStr
    | none => formatStr) str

section urls
variable {NSURL : Type} (URLWithString : List Char → Option NSURL)

def eventDetailURL (url : Option String) (templateMapping : TemplateMapping) : Option NSURL :=
  match url with
  | none => none
  | some formatStr =>
      if formatStr = "" then none
      else if formatStr = "null" then none
      else URLWithString (replaceFormatString formatStr.toList templateMapping)

/-- `enumerate` is the order in which the keys of a dictionary come. -/
def eventDetailURLForEvent (enumerate : TemplateMapping → TemplateMapping) (host : Host)
    (event : SNTStoredExecutionEvent) (url : Option String) : Option NSURL :=
  eventDetailURL URLWithString url (enumerate (eventDetailTemplateMappingForEvent host event))

def eventDetailURLForFileAccessEvent (enumerate : TemplateMapping → TemplateMapping) (host : Host)
    (event : SNTStoredFileAccessEvent) (url : Option String) : Option NSURL :=
  eventDetailURL URLWithString (url <|> host.eventDetailURL)
    (enumerate (fileAccessEventDetailTemplateMappingForEvent host event))

end urls

/-! ### What a template means -/

def nameOf (key : String) : List Char := (key.toList.drop 1).dropLast

def names (mapping : TemplateMapping) : List (List Char) := mapping.map fun e => nameOf e.1

/-- What stands for a name; a name without a value stands for itself. -/
def valueOf (mapping : TemplateMapping) (name : List Char) : Option (List Char) :=
  mapping.findSome? fun e => if nameOf e.1 = name then e.2.map String.toList else none

/-- The template with all its placeholders filled in at once. -/
def filled (mapping : TemplateMapping) (text : List Char) : List Char :=
  join '%' (expand (valueOf mapping) (segments '%' text).1 (segments '%' text).2)

/-- Before a placeholder, after the sign that ends the one before it, there is a character that
    no name has. -/
def WellSpaced (mapping : TemplateMapping) (text : List Char) : Prop :=
  Spaced (names mapping) (segments '%' text).2

instance (mapping : TemplateMapping) (text : List Char) : Decidable (WellSpaced mapping text) :=
  inferInstanceAs (Decidable (Spaced _ _))

def PlainValues (mapping : TemplateMapping) : Prop :=
  ∀ e ∈ mapping, ∀ value ∈ e.2, '%' ∉ value.toList

instance (mapping : TemplateMapping) : Decidable (PlainValues mapping) :=
  inferInstanceAs (Decidable (∀ e ∈ mapping, ∀ value ∈ e.2, '%' ∉ value.toList))

/-! ### Keys -/

def WellNamed (keys : List String) : Prop :=
  (∀ key ∈ keys, key.toList = placeholder '%' (nameOf key) ∧ '%' ∉ nameOf key) ∧
    (keys.map nameOf).Nodup

theorem eventDetailTemplateMappingForEvent_named (host : Host) (event : SNTStoredExecutionEvent) :
    WellNamed ((eventDetailTemplateMappingForEvent host event).map Prod.fst) := by
  show WellNamed ["%file_sha%", "%file_identifier%", "%bundle_or_file_identifier%", "%username%",
    "%file_bundle_id%", "%team_id%", "%signing_id%", "%cdhash%", "%machine_id%", "%hostname%",
    "%uuid%", "%serial%"]
  exact ⟨by decide, by decide⟩

theorem fileAccessEventDetailTemplateMappingForEvent_named (host : Host)
    (event : SNTStoredFileAccessEvent) :
    WellNamed ((fileAccessEventDetailTemplateMappingForEvent host event).map Prod.fst) := by
  show WellNamed ["%rule_version%", "%rule_name%", "%accessed_path%", "%file_identifier%",
    "%username%", "%team_id%", "%signing_id%", "%cdhash%", "%machine_id%", "%hostname%",
    "%uuid%", "%serial%"]
  exact ⟨by decide, by decide⟩

/-! ### Replacements -/

section replacements
variable {mapping order : TemplateMapping}

def entries (mapping : TemplateMapping) : List (List Char × List Char) :=
  mapping.filterMap fun e => e.2.map fun value => (nameOf e.1, value.toList)

theorem meaning_entries (mapping : TemplateMapping) :
    meaning (entries mapping) = valueOf mapping := by
  funext name
  induction mapping with
  | nil => rfl
  | cons e mapping ih =>
    obtain ⟨key, value⟩ := e
    simp only [entries, valueOf] at ih
    cases value with
    | none => simp [entries, valueOf, ih]
    | some value =>
      by_cases same : nameOf key = name
      · simp [entries, valueOf, meaning, override, same]
      · simp [entries, valueOf, meaning, override, same, Ne.symm same, ih]

theorem entries_names (mapping : TemplateMapping) :
    List.Sublist ((entries mapping).map Prod.fst) (names mapping) := by
  induction mapping with
  | nil => exact .slnil
  | cons e mapping ih =>
    obtain ⟨key, value⟩ := e
    cases value with
    | none => exact .cons _ ih
    | some value => exact .cons_cons _ ih

theorem replaceFormatString_passes (named : WellNamed (order.map Prod.fst)) (text : List Char) :
    replaceFormatString text order = passes '%' (entries order) text := by
  induction order generalizing text with
  | nil => rfl
  | cons e order ih =>
    obtain ⟨key, value⟩ := e
    obtain ⟨keys, unique⟩ := named
    simp only [List.map_cons, List.forall_mem_cons] at keys
    have later : WellNamed (order.map Prod.fst) := ⟨keys.2, (List.nodup_cons.mp unique).2⟩
    cases value with
    | none => exact ih later text
    | some value =>
      have pass := ih later (replaceAll key.toList value.toList text)
      calc
        replaceFormatString text ((key, some value) :: order) =
            passes '%' (entries order) (replaceAll key.toList value.toList text) := pass
        _ = passes '%' (entries ((key, some value) :: order)) text := by
          rw [keys.1.1]
          rfl

theorem WellNamed.perm {keys others : List String} (named : WellNamed keys)
    (same : others.Perm keys) : WellNamed others :=
  ⟨fun key member => named.1 key (same.mem_iff.mp member),
    (same.map nameOf).nodup_iff.mpr named.2⟩

theorem replaceFormatString_filled (named : WellNamed (mapping.map Prod.fst))
    (same : order.Perm mapping) (plain : PlainValues mapping) {text : List Char}
    (spaced : WellSpaced mapping text) :
    replaceFormatString text order = filled mapping text := by
  have known : ∀ e ∈ entries order, e.1 ∈ names mapping ∧ '%' ∉ e.2 := by
    intro e member
    obtain ⟨⟨key, value⟩, source, made⟩ := List.mem_filterMap.mp member
    have source := same.mem_iff.mp source
    cases value with
    | none => cases made
    | some value =>
      cases made
      exact ⟨List.mem_map_of_mem source, plain _ source value rfl⟩
  have plainNames : ∀ name ∈ names mapping, '%' ∉ name := by
    intro name member
    obtain ⟨e, source, rfl⟩ := List.mem_map.mp member
    exact (named.1 e.1 (List.mem_map_of_mem source)).2
  have unique : ((entries mapping).map Prod.fst).Nodup := by
    have all := named.2
    rw [List.map_map] at all
    exact (entries_names mapping).nodup all
  have orders : meaning (entries order) = valueOf mapping :=
    (meaning_perm (same.symm.filterMap _) unique).symm.trans (meaning_entries mapping)
  calc
    replaceFormatString text order = passes '%' (entries order) text :=
      replaceFormatString_passes (named.perm (same.map Prod.fst)) text
    _ = passes '%' (entries order) (join '%' (segments '%' text)) := by rw [join_segments]
    _ = join '%' (expand (meaning (entries order)) (segments '%' text).1 (segments '%' text).2) :=
      passes_join plainNames _ known _ _ (segments_free '%' text) spaced
    _ = filled mapping text := by rw [orders]; rfl

end replacements

/-! ### Addresses -/

/-- What a page's address is to be: none for an empty template or the text "null". -/
def pageURL {NSURL : Type} (URLWithString : List Char → Option NSURL) (mapping : TemplateMapping)
    (url : Option String) : Option NSURL :=
  url.bind fun template =>
    if template = "" ∨ template = "null" then none
    else URLWithString (filled mapping template.toList)

section pages
variable {NSURL : Type} (URLWithString : List Char → Option NSURL)

theorem eventDetailURL_page {mapping order : TemplateMapping} {url : Option String}
    (named : WellNamed (mapping.map Prod.fst)) (same : order.Perm mapping)
    (plain : PlainValues mapping)
    (spaced : ∀ template ∈ url, WellSpaced mapping template.toList) :
    eventDetailURL URLWithString url order = pageURL URLWithString mapping url := by
  cases url with
  | none => rfl
  | some template =>
    have text := replaceFormatString_filled named same plain (spaced template rfl)
    simp only [eventDetailURL, pageURL, Option.bind_some, text]
    by_cases empty : template = ""
    · simp [empty]
    · simp [empty]

/-- The address of the page of an event does not depend on the order of the dictionary: every
    placeholder is filled in as if alone. -/
theorem event_pages (enumerate : TemplateMapping → TemplateMapping) (host : Host)
    (enumerates : ∀ mapping, (enumerate mapping).Perm mapping) (url : Option String) :
    (∀ event, PlainValues (eventDetailTemplateMappingForEvent host event) →
      (∀ template ∈ url,
        WellSpaced (eventDetailTemplateMappingForEvent host event) template.toList) →
      eventDetailURLForEvent URLWithString enumerate host event url =
        pageURL URLWithString (eventDetailTemplateMappingForEvent host event) url) ∧
    (∀ event, PlainValues (fileAccessEventDetailTemplateMappingForEvent host event) →
      (∀ template ∈ url <|> host.eventDetailURL,
        WellSpaced (fileAccessEventDetailTemplateMappingForEvent host event) template.toList) →
      eventDetailURLForFileAccessEvent URLWithString enumerate host event url =
        pageURL URLWithString (fileAccessEventDetailTemplateMappingForEvent host event)
          (url <|> host.eventDetailURL)) :=
  ⟨fun event plain spaced => eventDetailURL_page URLWithString
      (eventDetailTemplateMappingForEvent_named host event) (enumerates _) plain spaced,
    fun event plain spaced => eventDetailURL_page URLWithString
      (fileAccessEventDetailTemplateMappingForEvent_named host event) (enumerates _) plain spaced⟩

def blockedHost : Host :=
  { machineID := some "m-1", longHostname := none, hardwareUUID := none, serialNumber := some "C02"
    eventDetailURL := some "https://santa/?path=%accessed_path%&by=%team_id%" }

def blockedAccess : SNTStoredFileAccessEvent :=
  { idx := 1, occurrenceDate := 0, ruleVersion := some "v2", ruleName := some "Cookies"
    accessedPath := some "/Users/a/Cookies", process := none, decision := .denied }

theorem blocked_pages :
    eventDetailURLForEvent some List.reverse blockedHost
        { idx := 1, occurrenceDate := 0, fileSHA256 := some "ab", fileBundleHash := some "cd" }
        (some "https://santa/%file_sha%/%file_identifier%?host=%hostname%&m=%machine_id%") =
      some "https://santa/cd/ab?host=%hostname%&m=m-1".toList ∧
    eventDetailURLForFileAccessEvent some List.reverse blockedHost blockedAccess none =
      some "https://santa/?path=/Users/a/Cookies&by=%team_id%".toList :=
  have pages := event_pages some List.reverse blockedHost (fun mapping => mapping.reverse_perm)
  ⟨((pages _).1 _ (by decide) (by decide)).trans (by decide),
    ((pages _).2 _ (by decide) (by decide)).trans (by decide)⟩

end pages

end SantaBlockMessage
