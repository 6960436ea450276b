import MacosAuth.Helper.Diagnosis

/-!
# Sources of keys

A key comes from a text on the command line or from a file, and giving both is refused. A
source is loadable if some environment lets it be loaded: a file, if its path can be walked,
and a text, if it is a key.
-/

namespace MacosAuth
namespace Helper

open Codec
open Protocol (utf8)
open Effect Effect.Program

/-! ## Paths -/

/-- The walk to a trusted path has names to look up. -/
def Walkable (path : Bytes) : Prop :=
  ∃ names, Trust.componentNames (pathComponents path) = .ok names

/-- What `fstat` may report of anything that is opened on the way. -/
def plainMetadata (directory : Bool) : Metadata where
  isDir := directory
  isFile := !directory
  uid := 0
  mode := 0

theorem canReturn_validate
    {file : File}
    {directory isPrivate : Bool} :
    (Trust.validate file false directory isPrivate).CanReturn () := by
  refine ⟨[⟨.fstat file, .ok (plainMetadata directory)⟩], Trust.ends_validate_ok.mpr ?_⟩
  refine ⟨plainMetadata directory, rfl, ?_⟩
  cases directory with
  | false => cases isPrivate <;> rfl
  | true => cases isPrivate <;> rfl

theorem canReturn_descend
    {directory isPrivate : Bool}
    {file : File}
    (names : List Bytes) :
    ∃ result, (Trust.descend false directory isPrivate file names).CanReturn result := by
  induction names generalizing file with
  | nil => exact ⟨file, canReturn_done file⟩
  | cons name rest inductionHypothesis =>
      obtain ⟨result, returns⟩ := @inductionHypothesis file
      refine ⟨result, ?_⟩
      unfold Trust.descend
      refine (canReturn_perform (.ok file)).bind ?_
      refine (canReturn_done file).bind ?_
      exact canReturn_validate.bind returns

/-- A path with names can be opened in some environment. -/
theorem canReturn_openPath
    {path : Bytes}
    {directory isPrivate : Bool}
    (walkable : Walkable path) :
    ∃ file, (Trust.openPath path false directory isPrivate).CanReturn file := by
  obtain ⟨names, named⟩ := walkable
  obtain ⟨file, walked⟩ := @canReturn_descend directory isPrivate 0 names
  refine ⟨file, ?_⟩
  unfold Trust.openPath
  rw [Bool.false_and, if_neg Bool.false_ne_true]
  have located : (Trust.absolutePath path).CanReturn path := by
    unfold Trust.absolutePath
    split
    · exact canReturn_done path
    · rename_i relative
      have joined : joinPath [] path = path := by simp [joinPath, relative]
      refine (canReturn_perform (.ok [])).bind ((canReturn_done []).bind ?_)
      rw [joined]
      exact canReturn_done path
  refine located.bind ?_
  rw [named]
  refine (canReturn_done names).bind ?_
  refine (canReturn_perform (.ok 0)).bind ((canReturn_done 0).bind ?_)
  exact canReturn_validate.bind (walked.bind (canReturn_validate.bind (canReturn_done file)))

/-- The components between the separators. -/
def partComponents (parts : List Bytes) : List Component :=
  parts.filterMap fun part =>
    if part = [] ∨ part = [0x2e] then none
    else if part = [0x2e, 0x2e] then some .parentDir
    else some (.normal part)

/-- How a path begins does not matter for its names. -/
theorem componentNames_pathComponents (path : Bytes) :
    Trust.componentNames (pathComponents path) =
      Trust.componentNames (partComponents (path.splitOn 0x2f)) := by
  unfold pathComponents
  dsimp only
  split
  · rfl
  · split
    · rfl
    · rfl

theorem componentNames_of_append
    {front back : List Component}
    (named : ∃ names, Trust.componentNames (front ++ back) = .ok names) :
    ∃ names, Trust.componentNames back = .ok names := by
  induction front with
  | nil => exact named
  | cons component front inductionHypothesis =>
      cases component with
      | rootDir => exact inductionHypothesis named
      | curDir => exact inductionHypothesis named
      | parentDir =>
          obtain ⟨names, equal⟩ := named
          exact absurd equal (by simp [Trust.componentNames])
      | normal name =>
          obtain ⟨names, equal⟩ := named
          rw [List.cons_append, Trust.componentNames] at equal
          cases checked : Trust.name name with
          | error error =>
              rw [checked] at equal
              cases equal
          | ok first =>
              cases others : Trust.componentNames (front ++ back) with
              | error error =>
                  rw [checked, others] at equal
                  cases equal
              | ok rest => exact inductionHypothesis ⟨rest, others⟩

/-- A path that cannot be walked cannot be walked below a directory either. -/
theorem walkable_of_joinPath
    {base path : Bytes}
    (relative : isAbsolute path = false)
    (walkable : Walkable (joinPath base path)) :
    Walkable path := by
  have below (front : Bytes)
      (named : Walkable (front ++ 0x2f :: path)) : Walkable path := by
    unfold Walkable at named ⊢
    rw [componentNames_pathComponents] at named ⊢
    rw [List.splitOn_append_cons_self, partComponents, List.filterMap_append] at named
    exact componentNames_of_append named
  unfold joinPath at walkable
  rw [relative, if_neg Bool.false_ne_true] at walkable
  split at walkable
  · rename_i separated
    rcases separated with final | empty
    · obtain ⟨front, rfl⟩ := List.getLast?_eq_some_iff.mp final
      rw [List.append_assoc, List.singleton_append] at walkable
      exact below front walkable
    · rw [empty, List.nil_append] at walkable
      exact walkable
  · rw [List.append_assoc, List.singleton_append] at walkable
    exact below base walkable

theorem walkable_of_canReturn
    {path : Bytes}
    {directory isPrivate : Bool}
    {file : File}
    (returns : (Trust.openPath path false directory isPrivate).CanReturn file) :
    Walkable path := by
  unfold Trust.openPath at returns
  rw [Bool.false_and, if_neg Bool.false_ne_true] at returns
  obtain ⟨absolute, located, opened⟩ := canReturn_bind_iff.mp returns
  obtain ⟨names, ⟨trace, named⟩, -⟩ := canReturn_bind_iff.mp opened
  have walkable : Walkable absolute := ⟨names, ((ends_done _ _ _).mp named).2.symm⟩
  unfold Trust.absolutePath at located
  split at located
  · obtain ⟨_, ended⟩ := located
    obtain rfl := Except.ok.inj ((ends_pure _ _ _).mp ended).2
    exact walkable
  · rename_i relative
    obtain ⟨answer, -, continued⟩ := canReturn_bind_iff.mp located
    obtain ⟨base, -, ⟨_, ended⟩⟩ := canReturn_bind_iff.mp continued
    obtain rfl := Except.ok.inj ((ends_pure _ _ _).mp ended).2
    exact walkable_of_joinPath (by simpa using relative) walkable

/-! ## Keys -/

/-- Both a text and a file are given for one key. -/
def Conflict (hex : Option String) (file : Option Bytes) : Prop :=
  hex.isSome ∧ file.isSome

instance (hex : Option String) (file : Option Bytes) : Decidable (Conflict hex file) :=
  inferInstanceAs (Decidable (_ ∧ _))

/-- The text is a key in hexadecimal. -/
def Decodes (hex : String) : Prop :=
  ∃ key, hexDecode (utf8 (String.ofList (trim hex.toList))) = some key ∧ key.length = 32

/-- The key from these sources can be loaded in some environment. -/
def Loadable : Option String -> Option Bytes -> Prop
  | some hex, none => Decodes hex
  | none, some path => Walkable path
  | _, _ => False

theorem decodeKey_of_decodes
    {hex : String}
    (decodes : Decodes hex)
    (label : String) :
    ∃ key, decodeKey (trim hex.toList) label = .ok key := by
  obtain ⟨key, decoded, length⟩ := decodes
  refine ⟨key, ?_⟩
  simp only [decodeKey, decoded, length, if_true]

theorem decodeKey_of_not_decodes
    {hex : String}
    (malformed : ¬Decodes hex)
    (label : String) :
    ∃ error, decodeKey (trim hex.toList) label = .error error := by
  cases decoded : hexDecode (utf8 (String.ofList (trim hex.toList))) with
  | none => exact ⟨.hex, by simp only [decodeKey, decoded]⟩
  | some key =>
      have length : key.length ≠ 32 := fun length => malformed ⟨key, decoded, length⟩
      refine ⟨.message (label ++ " must be exactly 32 bytes"), ?_⟩
      simp only [decodeKey, decoded, if_neg length]

/-- The file may end after what has been read. -/
theorem canReturn_readUpTo
    {file : File}
    {limit left : Nat}
    {gathered : Bytes} :
    (readUpTo file limit left gathered).CanReturn gathered := by
  cases left with
  | zero => exact canReturn_done gathered
  | succ left =>
      unfold readUpTo
      split
      · exact canReturn_done gathered
      · refine (canReturn_perform (.ok ⟨[], Nat.zero_le _⟩)).bind ?_
        change (if ([] : Bytes) = [] then pure gathered
          else readUpTo file limit left (gathered ++ [])).CanReturn gathered
        rw [if_pos rfl]
        exact canReturn_done gathered

theorem canReturn_readToString
    {file : File}
    {limit : Nat}
    {text : String}
    (nonempty : utf8 text ≠ [])
    (fits : (utf8 text).length ≤ limit + 1) :
    (readToString file (limit + 1)).CanReturn text := by
  have read : (readUpTo file (limit + 1) (limit + 1) []).CanReturn (utf8 text) := by
    unfold readUpTo
    rw [if_neg (by simp)]
    refine (canReturn_perform (.ok ⟨utf8 text, fits⟩)).bind ?_
    change (if utf8 text = [] then pure []
      else readUpTo file (limit + 1) limit ([] ++ utf8 text)).CanReturn (utf8 text)
    rw [if_neg nonempty, List.nil_append]
    exact canReturn_readUpTo
  unfold readToString
  refine read.bind ?_
  rw [decodeUtf8_utf8]
  exact canReturn_done text

/-- The text of a key that consists of zeros. -/
def zeros : String :=
  String.ofList (List.replicate 64 '0')

theorem length_utf8_zeros : (utf8 zeros).length = 64 := by
  decide

theorem canReturn_readKeyMaterial
    {path : Bytes}
    {isPrivate : Bool}
    (walkable : Walkable path) :
    (readKeyMaterial path false isPrivate).CanReturn zeros.toList := by
  obtain ⟨file, opened⟩ := @canReturn_openPath path false isPrivate walkable
  have fits : (utf8 zeros).length ≤ maxFrameLen := by
    rw [length_utf8_zeros]
    decide
  have nonempty : utf8 zeros ≠ [] := by
    intro empty
    exact absurd length_utf8_zeros (by simp [empty])
  have read : (readTrustedFile path false isPrivate).CanReturn zeros := by
    refine (canReturn_mapError.mpr opened).bind ?_
    refine (canReturn_mapError.mpr (canReturn_readToString nonempty (by omega))).bind ?_
    rw [if_neg (by omega)]
    exact canReturn_done zeros
  refine read.bind ?_
  have material : keyLine (lines zeros.toList) = some zeros.toList := by decide
  rw [material]
  exact canReturn_done zeros.toList

theorem walkable_of_canReturn_material
    {path : Bytes}
    {isPrivate : Bool}
    {material : List Char}
    (returns : (readKeyMaterial path false isPrivate).CanReturn material) :
    Walkable path := by
  obtain ⟨contents, read, -⟩ := canReturn_bind_iff.mp returns
  obtain ⟨file, opened, -⟩ := canReturn_bind_iff.mp read
  exact walkable_of_canReturn (canReturn_mapError.mp opened)

theorem canReturn_loadSigningKey_iff
    {hex : Option String}
    {file : Option Bytes} :
    (∃ key, (loadSigningKey hex file false).CanReturn key) ↔ Loadable hex file := by
  cases hex with
  | some hex =>
      cases file with
      | some path =>
          refine iff_of_false ?_ id
          rintro ⟨key, trace, ends⟩
          exact absurd ((ends_fail _ _ _).mp ends).2 (by simp)
      | none =>
          have inlined : loadSigningKey (some hex) none false =
              .done (decodeKey (trim hex.toList) "Ed25519 private key") := rfl
          rw [inlined]
          constructor
          · rintro ⟨key, trace, ends⟩
            by_contra malformed
            obtain ⟨error, failed⟩ := decodeKey_of_not_decodes malformed "Ed25519 private key"
            rw [failed] at ends
            exact absurd ((ends_done _ _ _).mp ends).2 (by simp)
          · intro decodes
            obtain ⟨key, decoded⟩ := decodeKey_of_decodes decodes "Ed25519 private key"
            rw [decoded]
            exact ⟨key, canReturn_done key⟩
  | none =>
      cases file with
      | some path =>
          constructor
          · rintro ⟨key, returns⟩
            obtain ⟨material, read, -⟩ := canReturn_bind_iff.mp returns
            exact walkable_of_canReturn_material read
          · intro walkable
            have decoded : decodeKey (trim zeros.toList) "Ed25519 private key" =
                .ok (List.replicate 32 0) := by
              decide
            refine ⟨List.replicate 32 0, (canReturn_readKeyMaterial walkable).bind ?_⟩
            rw [decoded]
            exact canReturn_done _
      | none =>
          refine iff_of_false ?_ id
          rintro ⟨key, trace, ends⟩
          exact absurd ((ends_fail _ _ _).mp ends).2 (by simp)

theorem not_loadable_of_conflict
    {hex : Option String}
    {file : Option Bytes}
    (conflict : Conflict hex file) :
    ¬Loadable hex file := by
  obtain ⟨given, named⟩ := conflict
  obtain ⟨hex, rfl⟩ := Option.isSome_iff_exists.mp given
  obtain ⟨path, rfl⟩ := Option.isSome_iff_exists.mp named
  exact id

/-- Key files that may differ only where a key is given are in the same conflict or
equal. -/
theorem eq_or_conflict
    {hex : Option String}
    {first second : Option Bytes}
    (same : hex = none -> first = second)
    (agree : Conflict hex first ↔ Conflict hex second) :
    first = second ∨ (Conflict hex first ∧ Conflict hex second) := by
  cases hex with
  | none => exact .inl (same rfl)
  | some hex =>
      cases first with
      | none =>
          cases second with
          | none => exact .inl rfl
          | some path => exact absurd (agree.mpr ⟨rfl, rfl⟩).2 (by simp)
      | some path => exact .inr ⟨⟨rfl, rfl⟩, agree.mp ⟨rfl, rfl⟩⟩

/-! ## Conflicts -/

/-- What `load_signing_key` and `load_public_key` do in development mode with a text. The
conflict has a message of its own. -/
structure LoadsKey
    (load : Option String -> Option Bytes -> Routine HelperError Bytes)
    (conflict : String) : Prop where
  text (hex : String) :
    ∃ label, load (some hex) none = .done (decodeKey (trim hex.toList) label) ∧
      label ++ " must be exactly 32 bytes" ≠ conflict
  both (hex : String) (path : Bytes) :
    load (some hex) (some path) = fail (.message conflict)

theorem loadsKey_loadSigningKey :
    LoadsKey (fun hex file => loadSigningKey hex file false)
      "provide only one of --key-hex or --key-file" where
  text _ := ⟨_, rfl, by decide⟩
  both _ _ := rfl

theorem loadsKey_loadPublicKey :
    LoadsKey (fun hex file => loadPublicKey hex file "agent public key" false)
      "provide only one agent public key source" where
  text _ := ⟨_, rfl, by decide⟩
  both _ _ := rfl

/-- A text on its own is never refused with the message of the conflict. -/
theorem LoadsKey.failsWith
    {load : Option String -> Option Bytes -> Routine HelperError Bytes}
    {conflict : String}
    (loads : LoadsKey load conflict)
    (hex : String) :
    FailsWith (· ≠ .message conflict) (load (some hex) none) := by
  obtain ⟨label, inlined, other⟩ := loads.text hex
  intro trace error ends
  rw [inlined] at ends
  have failed := ((ends_done _ _ _).mp ends).2
  unfold decodeKey at failed
  split at failed
  · obtain rfl := Except.error.inj failed
    exact HelperError.noConfusion
  · split at failed
    · exact nomatch failed
    · obtain rfl := Except.error.inj failed
      exact fun same => other (HelperError.message.inj same)

end Helper
end MacosAuth
