import MacosAuth.Helper.PrepareConfig
import MacosAuth.Helper.Settings
import MacosAuth.Helper.TrustedFiles
import MacosAuth.Helper.Verdict

/-!
# Prepared configurations

The output of `prepare_config` is the source table with a few fields set. Setting the
same fields again changes nothing. A configuration that has passed the validation leaves
`run_request` no reason to refuse it, as long as the files that it names are there and
are trusted.
-/

namespace MacosAuth
namespace Helper

open Codec
open Protocol (utf8)
open Effect Effect.Program

/-! ## Setting fields -/

/-- Set fields to texts, from left to right. -/
def setStrings (edits : List (String × String)) (table : Table) : Table :=
  edits.foldl (fun edited edit => edited.insert edit.1 (.string edit.2)) table

@[simp] theorem setStrings_nil (table : Table) : setStrings [] table = table := rfl

@[simp] theorem setStrings_cons
    (edit : String × String)
    (edits : List (String × String))
    (table : Table) :
    setStrings (edit :: edits) table =
      setStrings edits (table.insert edit.1 (.string edit.2)) := rfl

theorem setStrings_append
    (first second : List (String × String))
    (table : Table) :
    setStrings (first ++ second) table = setStrings second (setStrings first table) :=
  List.foldl_append

theorem lookup_setStrings_of_not_mem
    {edits : List (String × String)}
    {table : Table}
    {field : String}
    (other : field ∉ edits.map Prod.fst) :
    (setStrings edits table).lookup field = table.lookup field := by
  induction edits generalizing table with
  | nil => rfl
  | cons edit edits inductionHypothesis =>
      rw [List.map_cons, List.mem_cons, not_or] at other
      rw [setStrings_cons, inductionHypothesis other.2, Finmap.lookup_insert_of_ne _ other.1]

/-- Setting fields to what they are changes nothing. -/
theorem setStrings_eq_self
    {edits : List (String × String)}
    {table : Table}
    (present : ∀ edit ∈ edits, table.lookup edit.1 = some (.string edit.2)) :
    setStrings edits table = table := by
  induction edits with
  | nil => rfl
  | cons edit edits inductionHypothesis =>
      have unchanged : table.insert edit.1 (.string edit.2) = table := by
        refine Finmap.ext_lookup fun field => ?_
        by_cases same : field = edit.1
        · rw [same, Finmap.lookup_insert, present edit List.mem_cons_self]
        · rw [Finmap.lookup_insert_of_ne _ same]
      rw [setStrings_cons, unchanged]
      exact inductionHypothesis fun other member => present other (List.mem_cons_of_mem _ member)

/-- Where the fields are distinct, each edit is found again. -/
theorem lookup_setStrings_of_mem
    {edits : List (String × String)}
    {table : Table}
    {field text : String}
    (distinct : (edits.map Prod.fst).Nodup)
    (member : (field, text) ∈ edits) :
    (setStrings edits table).lookup field = some (.string text) := by
  induction edits generalizing table with
  | nil => exact absurd member List.not_mem_nil
  | cons edit edits inductionHypothesis =>
      rw [List.map_cons, List.nodup_cons] at distinct
      rw [setStrings_cons]
      rcases List.mem_cons.mp member with rfl | inRest
      · rw [lookup_setStrings_of_not_mem distinct.1, Finmap.lookup_insert]
      · exact inductionHypothesis distinct.2 inRest

/-! ## The edits of a command -/

/-- The texts of the three paths. -/
structure PathTexts (args : PrepareConfigArgs) where
  socket : String
  hostKeyFile : String
  agentPubkeyFile : String
  socket_eq : decodeUtf8 args.socket = some socket
  hostKeyFile_eq : decodeUtf8 args.hostKeyFile = some hostKeyFile
  agentPubkeyFile_eq : decodeUtf8 args.agentPubkeyFile = some agentPubkeyFile

def PathTexts.edits {args : PrepareConfigArgs} (texts : PathTexts args) : List (String × String) :=
  [("socket_path", texts.socket), ("host_key_file", texts.hostKeyFile),
    ("agent_pubkey_file", texts.agentPubkeyFile)] ++
  (args.hostId.toList.map fun text => ("host_id", text)) ++
  args.hostname.toList.map fun text => ("hostname", text)

theorem insertSetting_eq
    (field : String)
    (setting : Option String)
    (table : Table) :
    insertSetting field setting table =
      setStrings (setting.toList.map fun text => (field, text)) table := by
  cases setting with
  | none => rfl
  | some text => rfl

/-- The relocation of the replay cache, as further edits. -/
def ReplayEdits (args : PrepareConfigArgs) (table : Table) (edits : List (String × String)) :
    Prop :=
  ("replay_cache_dir" ∉ table ∧ edits = []) ∨
    ("replay_cache_dir" ∈ table ∧ ∃ path text, args.replayCacheDir = some path ∧
      isPlainAbsolute path = true ∧ decodeUtf8 path = some text ∧
      edits = [("replay_cache_dir", text)])

theorem relocateReplayCache_eq_ok
    {args : PrepareConfigArgs}
    {table edited : Table}
    (relocated : relocateReplayCache args.replayCacheDir table = .ok edited) :
    ∃ edits, ReplayEdits args table edits ∧ edited = setStrings edits table := by
  unfold relocateReplayCache at relocated
  split at relocated
  · rename_i present
    split at relocated
    · rename_i path given
      obtain ⟨plain, text, decodes, rfl⟩ := insertPath_eq_ok_iff.mp relocated
      exact ⟨_, .inr ⟨present, path, text, given, plain, decodes, rfl⟩, rfl⟩
    · exact absurd relocated (by simp)
  · rename_i absent
    exact ⟨[], .inl ⟨absent, rfl⟩, (Except.ok.inj relocated).symm⟩

theorem relocateReplayCache_of_edits
    {args : PrepareConfigArgs}
    {table : Table}
    {edits : List (String × String)}
    (replays : ReplayEdits args table edits) :
    relocateReplayCache args.replayCacheDir table = .ok (setStrings edits table) := by
  unfold relocateReplayCache
  rcases replays with ⟨absent, rfl⟩ | ⟨present, path, text, given, plain, decodes, rfl⟩
  · rw [if_neg absent]
    rfl
  · rw [if_pos present, given]
    exact insertPath_eq_ok_iff.mpr ⟨plain, text, decodes, rfl⟩

/-- The paths of the command are absolute and without `..`. -/
def PlainPaths (args : PrepareConfigArgs) : Prop :=
  isPlainAbsolute args.socket = true ∧ isPlainAbsolute args.hostKeyFile = true ∧
    isPlainAbsolute args.agentPubkeyFile = true

theorem insertPath_of_decodes
    {field text : String}
    {path : Bytes}
    {table : Table}
    (plain : isPlainAbsolute path = true)
    (decodes : decodeUtf8 path = some text) :
    insertPath field path table = .ok (table.insert field (.string text)) :=
  insertPath_eq_ok_iff.mpr ⟨plain, text, decodes, rfl⟩

theorem editTable_eq
    {args : PrepareConfigArgs}
    (plain : PlainPaths args)
    (texts : PathTexts args)
    (table : Table) :
    editTable args table =
      relocateReplayCache args.replayCacheDir (setStrings texts.edits table) := by
  obtain ⟨socket, host, agent⟩ := plain
  unfold editTable
  rw [insertPath_of_decodes socket texts.socket_eq]
  change (insertPath "host_key_file" args.hostKeyFile _ >>= _) = _
  rw [insertPath_of_decodes host texts.hostKeyFile_eq]
  change (insertPath "agent_pubkey_file" args.agentPubkeyFile _ >>= _) = _
  rw [insertPath_of_decodes agent texts.agentPubkeyFile_eq]
  change relocateReplayCache args.replayCacheDir _ = _
  simp only [insertSetting_eq]
  rw [PathTexts.edits, setStrings_append, setStrings_append]
  rfl

theorem pathTexts_of_editTable
    {args : PrepareConfigArgs}
    {table edited : Table}
    (edits : editTable args table = .ok edited) :
    PlainPaths args ∧ Nonempty (PathTexts args) := by
  unfold editTable at edits
  obtain ⟨_, located, edits⟩ := Protocol.bind_eq_ok.mp edits
  obtain ⟨_, keyed, edits⟩ := Protocol.bind_eq_ok.mp edits
  obtain ⟨_, pinned, -⟩ := Protocol.bind_eq_ok.mp edits
  obtain ⟨socketPlain, socket, socket_eq, -⟩ := insertPath_eq_ok_iff.mp located
  obtain ⟨hostPlain, host, host_eq, -⟩ := insertPath_eq_ok_iff.mp keyed
  obtain ⟨agentPlain, agent, agent_eq, -⟩ := insertPath_eq_ok_iff.mp pinned
  exact ⟨⟨socketPlain, hostPlain, agentPlain⟩, ⟨⟨socket, host, agent, socket_eq, host_eq, agent_eq⟩⟩⟩

/-- The fields that the paths and the settings occupy. -/
theorem fields_edits
    {args : PrepareConfigArgs}
    (texts : PathTexts args) :
    texts.edits.map Prod.fst = ["socket_path", "host_key_file", "agent_pubkey_file"] ++
      (args.hostId.toList.map fun _ => "host_id") ++
      args.hostname.toList.map fun _ => "hostname" := by
  simp [PathTexts.edits]

theorem ReplayEdits.again
    {args : PrepareConfigArgs}
    {table : Table}
    {edits : List (String × String)}
    (replays : ReplayEdits args table edits) :
    ReplayEdits args (setStrings edits table) edits := by
  rcases replays with ⟨absent, rfl⟩ | ⟨present, path, text, given, plain, decodes, rfl⟩
  · exact .inl ⟨absent, rfl⟩
  · refine .inr ⟨?_, path, text, given, plain, decodes, rfl⟩
    rw [setStrings_cons, setStrings_nil, Finmap.mem_insert]
    exact .inl rfl

/-- The fields of all edits are distinct. -/
theorem nodup_fields
    {args : PrepareConfigArgs}
    (texts : PathTexts args)
    {table : Table}
    {edits : List (String × String)}
    (replays : ReplayEdits args table edits) :
    ((texts.edits ++ edits).map Prod.fst).Nodup := by
  rw [List.map_append, fields_edits]
  rcases replays with ⟨-, rfl⟩ | ⟨-, path, text, -, -, -, rfl⟩
  · cases args.hostId <;> cases args.hostname <;> simp
  · cases args.hostId <;> cases args.hostname <;> simp

/-- Everything that an edited table is made of. -/
structure Edited (args : PrepareConfigArgs) (table edited : Table) where
  plain : PlainPaths args
  texts : PathTexts args
  replayEdits : List (String × String)
  replays : ReplayEdits args (setStrings texts.edits table) replayEdits
  edited_eq : edited = setStrings (texts.edits ++ replayEdits) table

theorem edited_of_editTable
    {args : PrepareConfigArgs}
    {table edited : Table}
    (edits : editTable args table = .ok edited) :
    Nonempty (Edited args table edited) := by
  obtain ⟨plain, ⟨texts⟩⟩ := pathTexts_of_editTable edits
  rw [editTable_eq plain texts] at edits
  obtain ⟨replayEdits, replays, edited_eq⟩ := relocateReplayCache_eq_ok edits
  exact ⟨⟨plain, texts, replayEdits, replays, by rw [edited_eq, setStrings_append]⟩⟩

namespace Edited

variable {args : PrepareConfigArgs} {table edited : Table}

theorem lookup_of_mem
    (edits : Edited args table edited)
    {field text : String}
    (member : (field, text) ∈ edits.texts.edits ++ edits.replayEdits) :
    edited.lookup field = some (.string text) := by
  rw [edits.edited_eq]
  exact lookup_setStrings_of_mem (nodup_fields edits.texts edits.replays) member

/-- Editing the result once more has no effect. -/
theorem editTable_again (edits : Edited args table edited) :
    editTable args edited = .ok edited := by
  have settled : setStrings edits.texts.edits edited = edited :=
    setStrings_eq_self fun edit member => edits.lookup_of_mem (List.mem_append_left _ member)
  have replays : ReplayEdits args edited edits.replayEdits := by
    have again := edits.replays.again
    rwa [← setStrings_append, ← edits.edited_eq] at again
  have moved : setStrings edits.replayEdits edited = edited :=
    setStrings_eq_self fun edit member => edits.lookup_of_mem (List.mem_append_right _ member)
  rw [editTable_eq edits.plain edits.texts, settled, relocateReplayCache_of_edits replays, moved]

end Edited

/-! ## What the edits amount to -/

/-- The fields that a command may set. -/
def editedFields : List String :=
  ["socket_path", "host_key_file", "agent_pubkey_file", "host_id", "hostname",
    "replay_cache_dir"]

/-- The second table is the first with the given paths and settings, and nothing else
changed. -/
structure Relocates (args : PrepareConfigArgs) (table edited : Table) : Prop where
  socket : ∃ text, decodeUtf8 args.socket = some text ∧
    edited.lookup "socket_path" = some (.string text)
  hostKeyFile : ∃ text, decodeUtf8 args.hostKeyFile = some text ∧
    edited.lookup "host_key_file" = some (.string text)
  agentPubkeyFile : ∃ text, decodeUtf8 args.agentPubkeyFile = some text ∧
    edited.lookup "agent_pubkey_file" = some (.string text)
  hostId : edited.lookup "host_id" = (args.hostId.map .string <|> table.lookup "host_id")
  hostname : edited.lookup "hostname" = (args.hostname.map .string <|> table.lookup "hostname")
  replayCache : "replay_cache_dir" ∈ table -> ∃ path text, args.replayCacheDir = some path ∧
    decodeUtf8 path = some text ∧ edited.lookup "replay_cache_dir" = some (.string text)
  noReplayCache : "replay_cache_dir" ∉ table -> "replay_cache_dir" ∉ edited
  others (field : String) : field ∉ editedFields -> edited.lookup field = table.lookup field

theorem mem_edits_hostId
    {args : PrepareConfigArgs}
    {texts : PathTexts args}
    {text : String}
    (given : args.hostId = some text) :
    ("host_id", text) ∈ texts.edits := by
  simp [PathTexts.edits, given]

theorem mem_edits_hostname
    {args : PrepareConfigArgs}
    {texts : PathTexts args}
    {text : String}
    (given : args.hostname = some text) :
    ("hostname", text) ∈ texts.edits := by
  simp [PathTexts.edits, given]

/-- A field outside the edits is that of the table. -/
theorem Edited.lookup_of_not_mem
    {args : PrepareConfigArgs}
    {table edited : Table}
    (edits : Edited args table edited)
    {field : String}
    (notEdited : field ∉ edits.texts.edits.map Prod.fst)
    (notReplay : field ∉ edits.replayEdits.map Prod.fst) :
    edited.lookup field = table.lookup field := by
  rw [edits.edited_eq]
  refine lookup_setStrings_of_not_mem ?_
  rw [List.map_append, List.mem_append, not_or]
  exact ⟨notEdited, notReplay⟩

theorem ReplayEdits.fields
    {args : PrepareConfigArgs}
    {table : Table}
    {edits : List (String × String)}
    (replays : ReplayEdits args table edits)
    {field : String}
    (other : field ≠ "replay_cache_dir") :
    field ∉ edits.map Prod.fst := by
  rcases replays with ⟨-, rfl⟩ | ⟨-, path, text, -, -, -, rfl⟩
  · simp
  · simpa using other

theorem mem_table_iff
    {first second : Table}
    {field : String}
    (same : first.lookup field = second.lookup field) :
    field ∈ first ↔ field ∈ second := by
  rw [← Finmap.lookup_isSome, same, Finmap.lookup_isSome]

/-- The replay cache is none of the fields that are set first. -/
theorem replay_mem_setStrings_iff
    {args : PrepareConfigArgs}
    (texts : PathTexts args)
    (table : Table) :
    "replay_cache_dir" ∈ setStrings texts.edits table ↔ "replay_cache_dir" ∈ table := by
  refine mem_table_iff (lookup_setStrings_of_not_mem ?_)
  rw [fields_edits]
  cases args.hostId <;> cases args.hostname <;> simp

theorem Edited.relocates
    {args : PrepareConfigArgs}
    {table edited : Table}
    (edits : Edited args table edited) :
    Relocates args table edited := by
  have inTexts {field text : String} (member : (field, text) ∈ edits.texts.edits) :
      edited.lookup field = some (.string text) :=
    edits.lookup_of_mem (List.mem_append_left _ member)
  exact {
    socket := ⟨_, edits.texts.socket_eq, inTexts (by simp [PathTexts.edits])⟩
    hostKeyFile := ⟨_, edits.texts.hostKeyFile_eq, inTexts (by simp [PathTexts.edits])⟩
    agentPubkeyFile := ⟨_, edits.texts.agentPubkeyFile_eq, inTexts (by simp [PathTexts.edits])⟩
    hostId := by
      cases given : args.hostId with
      | some text => exact inTexts (mem_edits_hostId given)
      | none =>
          refine edits.lookup_of_not_mem ?_ (edits.replays.fields (by decide))
          rw [fields_edits, given]
          cases args.hostname <;> simp
    hostname := by
      cases given : args.hostname with
      | some text => exact inTexts (mem_edits_hostname given)
      | none =>
          refine edits.lookup_of_not_mem ?_ (edits.replays.fields (by decide))
          rw [fields_edits, given]
          cases args.hostId <;> simp
    replayCache := by
      intro present
      rcases edits.replays with ⟨absent, -⟩ | ⟨-, path, text, given, -, decodes, replayEdits⟩
      · exact absurd ((replay_mem_setStrings_iff edits.texts table).mpr present) absent
      · refine ⟨path, text, given, decodes, edits.lookup_of_mem (List.mem_append_right _ ?_)⟩
        rw [replayEdits]
        exact List.mem_singleton_self _
    noReplayCache := by
      intro absent present
      rcases edits.replays with ⟨-, replayEdits⟩ | ⟨moved, -⟩
      · have whole := edits.edited_eq
        rw [replayEdits, List.append_nil] at whole
        rw [whole] at present
        exact absent ((replay_mem_setStrings_iff edits.texts table).mp present)
      · exact absent ((replay_mem_setStrings_iff edits.texts table).mp moved)
    others := by
      intro field other
      simp only [editedFields, List.mem_cons, List.not_mem_nil, or_false, not_or] at other
      obtain ⟨notSocket, notHost, notAgent, notHostId, notHostname, notReplay⟩ := other
      refine edits.lookup_of_not_mem ?_ (edits.replays.fields notReplay)
      rw [fields_edits]
      cases args.hostId <;> cases args.hostname <;>
        simp [notSocket, notHost, notAgent, notHostId, notHostname] }

/-! ## The output -/

section Output

variable {crates : Crates} {toml : Toml} {args : PrepareConfigArgs} {table : Table}
variable {output : String}

/-- The edited table behind an output, and the validated configuration. -/
structure Printed
    (crates : Crates)
    (toml : Toml)
    (args : PrepareConfigArgs)
    (table edited : Table)
    (config : HelperConfig)
    (output : String) : Prop where
  edits : editTable args table = .ok edited
  prints : toml.print edited = some output
  parses : toml.parse output = some edited
  typed : HelperConfig.ofTable edited = some config
  checked : checkFields config = .ok ()

/-- What is left to do once the output has been found to be valid. -/
def budgetThen (config : HelperConfig) (output : String) : Routine HelperError String := do
  checkBudget (config.timeoutMs.getD 15000)
  return output

/-- For a valid output, only the clock can still make the command fail. -/
theorem Printed.prepareTable_eq
    {edited : Table}
    {config : HelperConfig}
    (lawful : toml.Lawful crates)
    (printed : Printed crates toml args table edited config output) :
    prepareTable crates toml args table = budgetThen config output := by
  have read : crates.configFromToml output = some config := by
    rw [lawful.configFromToml, printed.parses]
    exact printed.typed
  unfold prepareTable
  rw [printed.edits, ok_bind, printed.prints]
  dsimp only
  rw [read]
  dsimp only
  unfold validateConfigFields
  rw [printed.checked]
  rfl

theorem printed_of_ends
    (lawful : toml.Lawful crates)
    {trace : List HelperEvent}
    (ends : Ends (prepareTable crates toml args table) trace (.ok output)) :
    ∃ edited config, Printed crates toml args table edited config output := by
  unfold prepareTable at ends
  obtain ⟨_, _, edited, rfl, edits, ends⟩ := (ends_bind_ok _ _ _ _).mp ends
  have edits := ((ends_done _ _ _).mp edits).2.symm
  split at ends
  · exact absurd ((ends_fail _ _ _).mp ends).2 (by simp)
  · rename_i contents prints
    split at ends
    · exact absurd ((ends_fail _ _ _).mp ends).2 (by simp)
    · rename_i config typed
      obtain ⟨_, _, _, rfl, validated, returned⟩ := (ends_bind_ok _ _ _ _).mp ends
      obtain rfl := Except.ok.inj ((ends_pure _ _ _).mp returned).2
      obtain ⟨_, _, _, rfl, checked, -⟩ := (ends_bind_ok _ _ _ _).mp validated
      have parses := lawful.parse_print prints
      rw [lawful.configFromToml, parses] at typed
      exact ⟨edited, config, edits, prints, parses, typed, ((ends_done _ _ _).mp checked).2.symm⟩

/-- The command does with its own output what it has done with its source. -/
theorem Printed.again
    {edited : Table}
    {config : HelperConfig}
    (printed : Printed crates toml args table edited config output) :
    Printed crates toml args edited edited config output := by
  obtain ⟨edits⟩ := edited_of_editTable printed.edits
  exact { printed with edits := edits.editTable_again }

end Output

end Helper
end MacosAuth
