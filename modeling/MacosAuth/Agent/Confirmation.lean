import MacosAuth.Agent.Text
import MacosAuth.Codec.LabelledLines

/-!
# The confirmation text

If confirmation is required, the agent shows the request in an alert before it asks
for authentication: one line for each field, optional fields only if they are present
and not empty. The fields come from the Linux host and are shown as they are, so a
line feed inside a field starts a new line of the text.

The main result says for which requests the text still determines the fields that it
shows: no field may contain a line feed followed by the label of a line that could come
next.
-/

namespace MacosAuth
namespace Agent

open Codec

/-! ## The text -/

/-- The first characters of a value, marked if something is left out. -/
def truncate (segmentation : Segmentation) (value : String) (maxLength : Nat) : String :=
  let characters := segmentation.characters value.toList
  if characters.length ≤ maxLength then
    value
  else
    String.ofList (characters.take maxLength).flatten ++ "…"

/-- A line that is shown unless its value is absent or empty. -/
def optionalLine (label : String) (shown : String -> String) : Option String -> List String
  | none => []
  | some value => if value = "" then [] else [label ++ shown value]

def confirmationText (segmentation : Segmentation) (request : AuthRequestBody) : String :=
  let lines := ["Host: " ++ request.linuxHostname,
      "Host ID: " ++ request.linuxHostId,
      "Service: " ++ request.pamService,
      "User: " ++ request.pamUser] ++
    optionalLine "Requester: " id request.pamRuser ++
    optionalLine "Remote host: " id request.pamRhost ++
    optionalLine "TTY: " id request.pamTty ++
    optionalLine "Command: " (truncate segmentation · 300) request.sudoCommand ++
    ["Request ID: " ++ request.requestId]
  "\n".intercalate lines

/-! ## The lines as a format -/

/-- The fields that the text shows, in their order. -/
inductive ConfirmationField
  | host
  | hostId
  | service
  | user
  | requester
  | remoteHost
  | tty
  | command
  | requestId
  deriving DecidableEq

namespace ConfirmationField

def label : ConfirmationField -> List Char
  | host => "Host: ".toList
  | hostId => "Host ID: ".toList
  | service => "Service: ".toList
  | user => "User: ".toList
  | requester => "Requester: ".toList
  | remoteHost => "Remote host: ".toList
  | tty => "TTY: ".toList
  | command => "Command: ".toList
  | requestId => "Request ID: ".toList

/-- The fields that may be shown on the next line. -/
def following : ConfirmationField -> List ConfirmationField
  | host => [hostId]
  | hostId => [service]
  | service => [user]
  | user => [requester, remoteHost, tty, command, requestId]
  | requester => [remoteHost, tty, command, requestId]
  | remoteHost => [tty, command, requestId]
  | tty => [command, requestId]
  | command => [requestId]
  | requestId => []

end ConfirmationField

open ConfirmationField in
/-- The format of the confirmation text. -/
def confirmationFormat : LineFormat ConfirmationField Char where
  separator := '\n'
  label := label
  following := following
  separator_not_mem := by
    intro key
    cases key <;> decide
  apart := by
    intro left right
    cases left <;> cases right <;> decide

/-- The line of an optional field. -/
def shownLine (field : ConfirmationField) (shown : String -> String) :
    Option String -> List (LabelledLine ConfirmationField Char)
  | none => []
  | some value => if value = "" then [] else [⟨field, (shown value).toList⟩]

/-- The lines that show a request. -/
def shownLines (segmentation : Segmentation) (request : AuthRequestBody) :
    List (LabelledLine ConfirmationField Char) :=
  [⟨.host, request.linuxHostname.toList⟩, ⟨.hostId, request.linuxHostId.toList⟩,
    ⟨.service, request.pamService.toList⟩, ⟨.user, request.pamUser.toList⟩] ++
  shownLine .requester id request.pamRuser ++
  shownLine .remoteHost id request.pamRhost ++
  shownLine .tty id request.pamTty ++
  shownLine .command (truncate segmentation · 300) request.sudoCommand ++
  [⟨.requestId, request.requestId.toList⟩]

/-- The source's text is the text of the lines. -/
theorem confirmationText_toList (segmentation : Segmentation) (request : AuthRequestBody) :
    (confirmationText segmentation request).toList =
      confirmationFormat.text (shownLines segmentation request) := by
  have optional (field : ConfirmationField) (label : String) (shown : String -> String)
      (value : Option String) (labelled : label.toList = field.label) :
      (optionalLine label shown value).map String.toList =
        (shownLine field shown value).map fun line => line.key.label ++ line.value := by
    cases value with
    | none => rfl
    | some text =>
        simp only [optionalLine, shownLine]
        split_ifs
        · rfl
        · simp [labelled]
  rw [confirmationText, String.toList_intercalate, LineFormat.text_eq_intercalate]
  simp only [shownLines, List.map_append, List.map_cons, List.map_nil, String.toList_append,
    optional .requester _ _ _ rfl, optional .remoteHost _ _ _ rfl, optional .tty _ _ _ rfl,
    optional .command _ _ _ rfl]
  rfl

/-- An optional field has at most one line. -/
theorem shownLine_cases
    (field : ConfirmationField)
    (shown : String -> String)
    (value : Option String) :
    shownLine field shown value = [] ∨ ∃ text, shownLine field shown value = [⟨field, text⟩] := by
  cases value with
  | none => exact .inl rfl
  | some text =>
      simp only [shownLine]
      split_ifs
      · exact .inl rfl
      · exact .inr ⟨_, rfl⟩

/-- The lines follow each other as in the format, whichever optional fields are shown. -/
theorem isChain_shownLines (segmentation : Segmentation) (request : AuthRequestBody) :
    (shownLines segmentation request).IsChain fun line next =>
      next.key ∈ confirmationFormat.following line.key := by
  unfold shownLines
  rcases shownLine_cases .requester id request.pamRuser with requester | ⟨_, requester⟩ <;>
  rcases shownLine_cases .remoteHost id request.pamRhost with remoteHost | ⟨_, remoteHost⟩ <;>
  rcases shownLine_cases .tty id request.pamTty with tty | ⟨_, tty⟩ <;>
  rcases shownLine_cases .command (truncate segmentation · 300) request.sudoCommand with
    command | ⟨_, command⟩ <;>
  simp [requester, remoteHost, tty, command, confirmationFormat, ConfirmationField.following]

theorem filter_shownLine
    (field other : ConfirmationField)
    (shown : String -> String)
    (value : Option String) :
    (shownLine field shown value).filter (fun line => decide (line.key = other)) =
      if field = other then shownLine field shown value else [] := by
  rcases shownLine_cases field shown value with absent | ⟨text, present⟩
  · simp [absent]
  · simp [present, List.filter_cons]

/-- Absent and empty values are shown alike, and no others. -/
theorem getD_of_shownLine
    {field : ConfirmationField}
    {left right : Option String}
    (same : shownLine field id left = shownLine field id right) :
    left.getD "" = right.getD "" := by
  have shownText (value : Option String) :
      ((shownLine field id value).map fun line => line.value).flatten = (value.getD "").toList := by
    cases value with
    | none => rfl
    | some text =>
        simp only [shownLine]
        split_ifs with empty
        · simp [empty]
        · simp
  have texts := shownText left
  rw [same, shownText right] at texts
  exact (String.toList_injective texts).symm

/-- The requests agree on everything that the text shows. -/
structure SameDisplay (left right : AuthRequestBody) : Prop where
  linuxHostname : left.linuxHostname = right.linuxHostname
  linuxHostId : left.linuxHostId = right.linuxHostId
  pamService : left.pamService = right.pamService
  pamUser : left.pamUser = right.pamUser
  requestId : left.requestId = right.requestId
  pamRuser : left.pamRuser.getD "" = right.pamRuser.getD ""
  pamRhost : left.pamRhost.getD "" = right.pamRhost.getD ""
  pamTty : left.pamTty.getD "" = right.pamTty.getD ""
  sudoCommand : left.sudoCommand.getD "" = right.sudoCommand.getD ""

/-- The command of the request is shown in full. -/
def CommandFits (segmentation : Segmentation) (request : AuthRequestBody) : Prop :=
  ∀ command, request.sudoCommand = some command ->
    (segmentation.characters command.toList).length ≤ 300

/-- No shown value contains a line feed followed by the label of a line that could come
next. -/
def NoForgedLine (segmentation : Segmentation) (request : AuthRequestBody) : Prop :=
  ∀ line ∈ shownLines segmentation request, confirmationFormat.Plain line

/-- Requests without line feeds have no forged lines. -/
theorem noForgedLine_of_noLineFeed
    {segmentation : Segmentation}
    {request : AuthRequestBody}
    (noLineFeed : ∀ line ∈ shownLines segmentation request, '\n' ∉ line.value) :
    NoForgedLine segmentation request := by
  intro line member next _ forged
  exact noLineFeed line member (forged.subset (by simp [confirmationFormat]))

theorem shownLine_command
    {segmentation : Segmentation}
    {request : AuthRequestBody}
    (fits : CommandFits segmentation request) :
    shownLine .command (truncate segmentation · 300) request.sudoCommand =
      shownLine .command id request.sudoCommand := by
  cases command : request.sudoCommand with
  | none => rfl
  | some text =>
      have whole : truncate segmentation text 300 = text := if_pos (fits text command)
      simp only [shownLine, whole, id]

/-- The lines determine what they show. -/
theorem sameDisplay_of_shownLines
    {segmentation : Segmentation}
    {left right : AuthRequestBody}
    (leftFits : CommandFits segmentation left)
    (rightFits : CommandFits segmentation right)
    (same : shownLines segmentation left = shownLines segmentation right) :
    SameDisplay left right := by
  have field (field : ConfirmationField) :
      (shownLines segmentation left).filter (fun line => decide (line.key = field)) =
        (shownLines segmentation right).filter (fun line => decide (line.key = field)) := by
    rw [same]
  simp only [shownLines, List.filter_append, filter_shownLine, List.filter_cons,
    List.filter_nil, shownLine_command leftFits, shownLine_command rightFits] at field
  exact {
    linuxHostname := by simpa [String.toList_inj] using field .host
    linuxHostId := by simpa [String.toList_inj] using field .hostId
    pamService := by simpa [String.toList_inj] using field .service
    pamUser := by simpa [String.toList_inj] using field .user
    requestId := by simpa [String.toList_inj] using field .requestId
    pamRuser := getD_of_shownLine (by simpa using field .requester)
    pamRhost := getD_of_shownLine (by simpa using field .remoteHost)
    pamTty := getD_of_shownLine (by simpa using field .tty)
    sudoCommand := getD_of_shownLine (by simpa using field .command)
  }

/-- Requests without forged lines whose commands are shown in full have the same text
only if they agree on everything that it shows. -/
theorem confirmationText_injective
    (segmentation : Segmentation)
    (left right : AuthRequestBody)
    (leftFits : CommandFits segmentation left)
    (rightFits : CommandFits segmentation right)
    (leftPlain : NoForgedLine segmentation left)
    (rightPlain : NoForgedLine segmentation right)
    (sameText : confirmationText segmentation left = confirmationText segmentation right) :
    SameDisplay left right := by
  have sameLines : confirmationFormat.text (shownLines segmentation left) =
      confirmationFormat.text (shownLines segmentation right) := by
    rw [← confirmationText_toList, ← confirmationText_toList, sameText]
  have leftReadable := (LineFormat.readable_iff _).mpr
    ⟨leftPlain, isChain_shownLines segmentation left⟩
  have rightReadable := (LineFormat.readable_iff _).mpr
    ⟨rightPlain, isChain_shownLines segmentation right⟩
  exact sameDisplay_of_shownLines leftFits rightFits
    (LineFormat.text_injective leftReadable rightReadable rfl sameLines)

namespace SampleConfirmation

def body : AuthRequestBody where
  protocolVersion := 1
  requestId := "req-1"
  nonce := List.replicate 32 7
  createdAtMs := 1000
  expiresAtMs := 2000
  linuxHostId := "web"
  linuxHostname := "web.example"
  pamService := "sudo"
  pamUser := "alice"
  pamRuser := some "bob"
  pamRhost := none
  pamTty := none
  sudoCommand := some "ls"
  clientPid := none
  keyId := "host-key-1"
  alg := "ed25519"

end SampleConfirmation

open SampleConfirmation in
theorem commandFits_sample (requester remoteHost : Option String) (nonce : Bytes) :
    CommandFits plainSegmentation
      { body with pamRuser := requester, pamRhost := remoteHost, nonce := nonce } := by
  intro command shown
  obtain rfl : "ls" = command := Option.some.inj shown
  decide

open SampleConfirmation in
theorem noForgedLine_sample (nonce : Bytes) :
    NoForgedLine plainSegmentation { body with nonce := nonce } := by
  have plain : (shownLines plainSegmentation body).all
      (fun line => !line.value.contains '\n') = true := by decide
  apply noForgedLine_of_noLineFeed
  intro line member
  simpa using List.all_eq_true.mp plain line member

open SampleConfirmation in
/-- Two requests that differ in the nonce. -/
theorem confirmationText_injective_sample :
    SameDisplay body { body with nonce := List.replicate 32 8 } :=
  confirmationText_injective plainSegmentation body
    { body with nonce := List.replicate 32 8 } (commandFits_sample _ _ _)
    (commandFits_sample _ _ _) (noForgedLine_sample _) (noForgedLine_sample _) rfl

open SampleConfirmation in
/-- A requester with a forged line looks like a request with a remote host. -/
theorem confirmationText_forged :
    CommandFits plainSegmentation { body with pamRuser := some "bob\nRemote host: vpn" } ∧
    CommandFits plainSegmentation
      { body with pamRuser := some "bob", pamRhost := some "vpn" } ∧
    confirmationText plainSegmentation { body with pamRuser := some "bob\nRemote host: vpn" } =
      confirmationText plainSegmentation
        { body with pamRuser := some "bob", pamRhost := some "vpn" } ∧
    ¬SameDisplay { body with pamRuser := some "bob\nRemote host: vpn" }
      { body with pamRuser := some "bob", pamRhost := some "vpn" } := by
  refine ⟨commandFits_sample _ _ _, commandFits_sample _ _ _, by decide, fun same => ?_⟩
  exact absurd same.pamRhost (by decide)

end Agent
end MacosAuth
