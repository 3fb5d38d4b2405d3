/-
# What a document mentions

A settings document may mention any of the settings, and the record of allocation symbols
inside it any of the symbols.  What it mentions replaces the standard value, and nothing
else does: neither the order of the fields matters, nor what stands between them under
other names, nor how the document is spelled.  The result is handed out exactly if no name
in it is empty.

Written out in full, settings that pass the validation are read back as they are, and only
settings that pass are ever read.
-/

import FlowProfile.Settings.Document
import FlowProfile.Proofs.Json.Records

namespace FlowProfile

namespace AllocSymbols

/-- Which fields the record of allocation symbols has. -/
structure Mention where
  request : Bool
  fragments : Bool
  sizeArg : Bool

/-- The standard symbols, except for those that are mentioned. -/
def overlay (symbols : AllocSymbols) (mention : Mention) : AllocSymbols where
  request := if mention.request then symbols.request else standard.request
  fragments := if mention.fragments then symbols.fragments else standard.fragments
  sizeArg := if mention.sizeArg then symbols.sizeArg else standard.sizeArg

/-- What is given of allocation symbols. -/
def given (symbols : AllocSymbols) (mention : Mention) : List (String × Option Json) :=
  [("preopt_symbol", if mention.request then some (.str (some symbols.request)) else none),
    ("postopt_fragments", if mention.fragments then
      some (.arr (symbols.fragments.map fun fragment => .str (some fragment))) else none),
    ("size_arg", if mention.sizeArg then some (.nat symbols.sizeArg) else none)]

/-- An object lists the mentioned symbols, with other fields between them. -/
def ListedBy (symbols : AllocSymbols) (mention : Mention) (json : Json) : Prop :=
  ∃ fields, json = .obj fields ∧ Json.Lists fieldNames (symbols.given mention) fields

variable {symbols : AllocSymbols}

/-- Symbols that are listed replace the standard ones. -/
theorem ofJson?_of_listedBy {mention : Mention} {json : Json}
    (small : symbols.sizeArg < UInt64.size) (listed : symbols.ListedBy mention json) :
    ofJson? json = some (symbols.overlay mention) := by
  obtain ⟨fields, rfl, listed⟩ := listed
  rw [ofJson?, listed.record rfl (by decide) false]
  simp [given, overlay, Json.optional_given (Json.asText?_str _),
    Json.optional_given (Json.asTexts?_map _), Json.optional_number small]

theorem plain_toJson (symbols : AllocSymbols) : symbols.toJson.Plain := by
  have fragments : Json.PlainItems (symbols.fragments.map fun text => .str (some text)) := by
    refine Json.plainItems_iff.mpr fun item mem => ?_
    obtain ⟨text, -, rfl⟩ := List.mem_map.mp mem
    exact trivial
  exact ⟨trivial, fragments, trivial, trivial⟩

end AllocSymbols

namespace Settings

/-- Which settings a document has, and which symbols if it has a record of them. -/
structure Mention where
  allocations : Bool
  calls : Bool
  branches : Bool
  alloc : Option AllocSymbols.Mention
  dumpPath : Bool

/-- A document with everything in it. -/
def Mention.whole : Mention :=
  ⟨true, true, true, some ⟨true, true, true⟩, true⟩

/-- The standard settings, except for those that are mentioned. -/
def overlay (settings : Settings) (mention : Mention) : Settings where
  forceAllocations :=
    if mention.allocations then settings.forceAllocations else standard.forceAllocations
  forceCalls := if mention.calls then settings.forceCalls else standard.forceCalls
  forceBranches := if mention.branches then settings.forceBranches else standard.forceBranches
  alloc := mention.alloc.elim standard.alloc settings.alloc.overlay
  dumpPath := if mention.dumpPath then settings.dumpPath else standard.dumpPath

/-- What is given of settings, with the record of allocation symbols if there is one. -/
def given (settings : Settings) (mention : Mention) (alloc : Option Json) :
    List (String × Option Json) :=
  [("force_profile_allocations",
      if mention.allocations then some (.bool settings.forceAllocations) else none),
    ("force_profile_calls", if mention.calls then some (.bool settings.forceCalls) else none),
    ("force_profile_branches",
      if mention.branches then some (.bool settings.forceBranches) else none),
    ("alloc", alloc),
    ("dump_path", if mention.dumpPath then
      some (settings.dumpPath.elim .null fun path => .str (some path)) else none)]

/-- An object lists the mentioned settings, with other fields between them. -/
def ListedBy (settings : Settings) (mention : Mention) (json : Json) : Prop :=
  ∃ alloc fields, json = .obj fields ∧
    Option.Rel settings.alloc.ListedBy mention.alloc alloc ∧
    Json.Lists fieldNames (settings.given mention alloc) fields

variable {settings : Settings} {mention : Mention} {json : Json} {text : String}

/-- The record of symbols inside a document is read like the others. -/
theorem optional_alloc (small : settings.alloc.sizeArg < UInt64.size)
    {mention : Option AllocSymbols.Mention} {alloc : Option Json}
    (listed : Option.Rel settings.alloc.ListedBy mention alloc) :
    Json.optional .standard AllocSymbols.ofJson? alloc =
      some (mention.elim .standard settings.alloc.overlay) := by
  cases listed with
  | none => rfl
  | some listed => exact AllocSymbols.ofJson?_of_listedBy small listed

/-- Settings that are listed replace the standard ones. -/
theorem ofJson?_of_listedBy (small : settings.alloc.sizeArg < UInt64.size)
    (listed : settings.ListedBy mention json) :
    ofJson? json = some (settings.overlay mention) := by
  obtain ⟨alloc, fields, rfl, inner, listed⟩ := listed
  have symbols := optional_alloc small inner
  rw [ofJson?, listed.record rfl (by decide) false]
  simp [given, overlay, standard, symbols, Json.optional_given (Json.asBool?_bool _),
    Json.optional_given (Json.asNullableText?_elim _)]

/-- A document is read as the settings that it lists, if these are valid. -/
theorem ofDocument_of_listedBy (small : settings.alloc.sizeArg < UInt64.size)
    (listed : settings.ListedBy mention json) (spelled : json.SpelledBy text) :
    ofDocument text =
      (settings.overlay mention).validate.map fun _ => settings.overlay mention := by
  rw [ofDocument, Json.ofText?_of_spelledBy spelled, Option.bind_some,
    ofJson?_of_listedBy small listed]

/-! ## Validation -/

theorem validate_of_named (request : settings.alloc.request ≠ "")
    (fragments : "" ∉ settings.alloc.fragments) : settings.validate = .ok () := by
  simp [validate, request, fragments]

/-- A name that is empty is refused. -/
theorem validate_of_unnamed
    (unnamed : ¬ (settings.alloc.request ≠ "" ∧ "" ∉ settings.alloc.fragments)) :
    settings.validate = .error (.settings
      (if settings.alloc.request = "" then .emptySymbol else .emptyFragment)) := by
  unfold validate
  by_cases request : settings.alloc.request = ""
  · simp [request]
  · have fragments : "" ∈ settings.alloc.fragments := by simpa [request] using unnamed
    simp [request, fragments]

/-- Settings are only read if they are valid. -/
theorem validate_of_ofDocument (read : ofDocument text = .ok settings) :
    settings.validate = .ok () := by
  unfold ofDocument at read
  split at read
  · cases read
  · next found _ =>
      cases valid : found.validate with
      | error fault => rw [valid] at read; cases read
      | ok =>
          rw [valid] at read
          cases read
          exact valid

/-! ## Whole documents -/

theorem listedBy_toJson (settings : Settings) : settings.ListedBy .whole settings.toJson :=
  ⟨some settings.alloc.toJson, _, rfl, .some ⟨_, rfl, Json.lists_present _ _⟩,
    Json.lists_present _ _⟩

theorem overlay_whole (settings : Settings) : settings.overlay .whole = settings := rfl

theorem plain_toJson (settings : Settings) : settings.toJson.Plain := by
  have path : (settings.dumpPath.elim .null fun path => Json.str (some path)).Plain := by
    cases settings.dumpPath <;> exact trivial
  exact ⟨trivial, trivial, trivial, settings.alloc.plain_toJson, path, trivial⟩

/-- Valid settings are read back from their text. -/
theorem ofDocument_text (small : settings.alloc.sizeArg < UInt64.size)
    (valid : settings.validate = .ok ()) : ofDocument settings.toJson.text = .ok settings := by
  rw [ofDocument_of_listedBy small settings.listedBy_toJson
    (Json.spelledBy_text settings.plain_toJson), overlay_whole, valid]
  rfl

/-- A document overrides exactly what it mentions, at both levels, whatever the order of its
fields, whatever stands between them and however it is spelled; settings without an empty
name are handed out, and others are refused. The full text of valid settings is read as these
settings, and nothing that is read fails the validation. -/
theorem ofDocument_overrides :
    (∀ (settings : Settings) (mention : Mention) (json : Json) (text : String),
      settings.alloc.sizeArg < UInt64.size → settings.ListedBy mention json →
      json.SpelledBy text →
        ofDocument text =
          if (settings.overlay mention).alloc.request ≠ "" ∧
              "" ∉ (settings.overlay mention).alloc.fragments then
            .ok (settings.overlay mention)
          else .error (.settings (if (settings.overlay mention).alloc.request = "" then
            .emptySymbol else .emptyFragment))) ∧
    (∀ settings : Settings, settings.alloc.sizeArg < UInt64.size → settings.validate = .ok () →
      ofDocument settings.toJson.text = .ok settings) ∧
    ∀ (text : String) (settings : Settings), ofDocument text = .ok settings →
      settings.validate = .ok () := by
  refine ⟨fun settings mention json text small listed spelled => ?_,
    fun settings small valid => ofDocument_text small valid,
    fun text settings read => validate_of_ofDocument read⟩
  rw [ofDocument_of_listedBy small listed spelled]
  split
  · next named => rw [validate_of_named named.1 named.2]; rfl
  · next unnamed => rw [validate_of_unnamed unnamed]; rfl

/-- A switch and the argument of the symbols are mentioned, behind something unknown. -/
theorem ofDocument_overrides_switch_and_argument :
    let document := "\x7b \"other\" : null, \"alloc\":\x7b\"size_arg\":2\x7d,\n" ++
      "\"force_profile_calls\": true \x7d"
    let read : Settings :=
      ⟨false, true, false, ⟨"jit.gc_alloc_obj", ["gc_pool_alloc", "gc_big_alloc"], 2⟩, none⟩
    ofDocument document = .ok read ∧ ofDocument read.toJson.text = .ok read ∧
      read.validate = .ok () := by
  intro document read
  -- What the document leaves out differs from the standard settings here, and is not read.
  let settings : Settings := ⟨true, true, true, ⟨"", [""], 2⟩, some "report.json"⟩
  let mention : Mention := ⟨false, true, false, some ⟨false, false, true⟩, false⟩
  let symbols : Json := .obj [(some "size_arg", .nat 2)]
  let fields : List (Option String × Json) :=
    [(some "other", .null), (some "alloc", symbols), (some "force_profile_calls", .bool true)]
  have inner : settings.alloc.ListedBy ⟨false, false, true⟩ symbols :=
    ⟨_, rfl, Json.lists_present _ _⟩
  have listed : settings.ListedBy mention (.obj fields) :=
    ⟨some symbols, fields, rfl, .some inner, [(some "other", .null)],
      List.forall_mem_singleton.mpr ⟨"other", rfl, by decide⟩, List.reverse_perm fields.reverse⟩
  have space : Json.Blank [' '] := by decide
  have line : Json.Blank ['\n'] := by decide
  have body := Json.SpelledFields.more
    (.mk space (Json.spelledText_quote? (some "other")) space space .null .nil)
    (.more
      (.mk space (Json.spelledText_quote? (some "alloc")) .nil .nil
        (Json.spelled_chars symbols ⟨trivial, trivial⟩) .nil)
      (.last (.mk line (Json.spelledText_quote? (some "force_profile_calls")) .nil space .yes
        space)))
  have found := ofDocument_overrides.1 settings mention (.obj fields) document (by decide) listed
    ⟨[], _, [], .nil, .obj body, .nil, by decide⟩
  have valid := ofDocument_overrides.2.2 document read found
  exact ⟨found, ofDocument_overrides.2.1 read (by decide) valid, valid⟩

end Settings

end FlowProfile
