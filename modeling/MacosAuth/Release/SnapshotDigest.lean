import MacosAuth.Codec.Decimal
import MacosAuth.Codec.SelfDelimiting
import MacosAuth.Collections.Diverging
import MacosAuth.Protocol.Canonical

/-!
# The digest of a source snapshot

The digest of a snapshot is taken over its files and symbolic links in the order of their
paths: the path and the mode, each ended by a zero byte, and then the content. Nothing
says where a content ends, and the content of a regular file may be any bytes. So the
digest does not identify a tree: a file may hold what another tree has in a file of its
own. It identifies a tree in which every entry but the last is a symbolic link, in which no
bytes can be moved between a target and the next path, and of which the last content does not
end like a further entry.
-/

namespace MacosAuth
namespace Release

open Codec
open Collections (Diverges)
open Protocol (utf8)

/-- A file or a symbolic link of a snapshot: the parts of its relative path, its mode, and
its bytes or its target. -/
@[ext]
structure SnapshotEntry where
  path : List Bytes
  mode : Nat
  content : Bytes
  deriving DecidableEq

namespace SnapshotEntry

def isRegular (entry : SnapshotEntry) : Bool :=
  entry.mode &&& 0o170000 == 0o100000

def isSymlink (entry : SnapshotEntry) : Bool :=
  entry.mode &&& 0o170000 == 0o120000

/-- What is encoded comes from a string. -/
def IsText (bytes : Bytes) : Prop :=
  ∃ text : String, utf8 text = bytes

/-- A name in a directory. -/
structure IsName (name : Bytes) : Prop where
  text : IsText name
  nonempty : name ≠ []
  noZero : 0 ∉ name
  noSlash : 0x2f ∉ name
  notDot : name ≠ utf8 "."
  notDots : name ≠ utf8 ".."

/-- An entry that a directory tree can have. -/
structure Valid (entry : SnapshotEntry) : Prop where
  path_ne : entry.path ≠ []
  names : ∀ name ∈ entry.path, IsName name
  kind : entry.isRegular = true ∨ entry.isSymlink = true
  target : entry.isSymlink = true ->
    IsText entry.content ∧ entry.content ≠ [] ∧ 0 ∉ entry.content

end SnapshotEntry

/-- The files and symbolic links of a tree, in the order of their paths. None of them is
a directory in which another one lies. -/
@[ext]
structure SnapshotTree where
  entries : List SnapshotEntry
  valid : ∀ entry ∈ entries, entry.Valid
  sorted : entries.Pairwise fun first second => first.path < second.path
  separate : entries.Pairwise fun first second => ¬first.path <+: second.path

/-- `str` of a relative path, encoded. The mode is written with `decimal`. -/
def pathText (path : List Bytes) : Bytes :=
  [0x2f].intercalate path

/-- What the loop of `snapshot` feeds to the hash function. -/
def digestInput (tree : SnapshotTree) : Bytes :=
  tree.entries.flatMap fun entry =>
    terminated 0 (pathText entry.path) ++ terminated 0 (decimal entry.mode) ++ entry.content

/-! ## Paths and modes are delimited -/

theorem pathText_injective
    {left right : List Bytes}
    (leftNames : left ≠ [] ∧ ∀ name ∈ left, SnapshotEntry.IsName name)
    (rightNames : right ≠ [] ∧ ∀ name ∈ right, SnapshotEntry.IsName name)
    (equal : pathText left = pathText right) :
    left = right := by
  have leftParts : (pathText left).splitOn 0x2f = left :=
    List.splitOn_intercalate 0x2f (fun name member => (leftNames.2 name member).noSlash)
      leftNames.1
  have rightParts : (pathText right).splitOn 0x2f = right :=
    List.splitOn_intercalate 0x2f (fun name member => (rightNames.2 name member).noSlash)
      rightNames.1
  rw [← leftParts, equal, rightParts]

theorem mem_pathText
    {byte : UInt8}
    {path : List Bytes}
    (member : byte ∈ pathText path) :
    byte = 0x2f ∨ ∃ name ∈ path, byte ∈ name := by
  induction path with
  | nil => simp [pathText] at member
  | cons name rest inductionHypothesis =>
      cases rest with
      | nil => exact .inr ⟨name, by simp, by simpa [pathText] using member⟩
      | cons next others =>
          have split : byte ∈ name ∨ byte = 0x2f ∨ byte ∈ pathText (next :: others) := by
            simpa [pathText, List.intercalate_cons_cons] using member
          rcases split with inName | slash | inRest
          · exact .inr ⟨name, by simp, inName⟩
          · exact .inl slash
          · rcases inductionHypothesis inRest with slash | ⟨other, listed, inOther⟩
            · exact .inl slash
            · exact .inr ⟨other, List.mem_cons_of_mem _ listed, inOther⟩

theorem zero_notMem_pathText
    {path : List Bytes}
    (names : ∀ name ∈ path, SnapshotEntry.IsName name) :
    0 ∉ pathText path := by
  intro member
  rcases mem_pathText member with slash | ⟨name, listed, inName⟩
  · exact absurd slash (by decide)
  · exact (names name listed).noZero inName

/-- Paths that lead somewhere. -/
def IsPath (path : List Bytes) : Prop :=
  path ≠ [] ∧ ∀ name ∈ path, SnapshotEntry.IsName name

theorem selfDelimiting_mode :
    SelfDelimiting (fun _ => True) fun mode => terminated 0 (decimal mode) := by
  intro left right _ _ leftRest rightRest equal
  obtain ⟨texts, rests⟩ := selfDelimiting_terminated 0 _ _ (zero_notMem_decimal left)
    (zero_notMem_decimal right) _ _ equal
  exact ⟨decimal_injective texts, rests⟩

/-! ## Contents are not -/

/-- What is fed for these entries. -/
def fed (entries : List SnapshotEntry) : Bytes :=
  entries.flatMap fun entry =>
    terminated 0 (pathText entry.path) ++ terminated 0 (decimal entry.mode) ++ entry.content

theorem fed_cons (entry : SnapshotEntry) (rest : List SnapshotEntry) :
    fed (entry :: rest) = terminated 0 (pathText entry.path) ++
      (terminated 0 (decimal entry.mode) ++ (entry.content ++ fed rest)) := by
  simp [fed]

/-- Bytes before the entries and the first path are ended by the same zero. -/
theorem append_fed_cons (front : Bytes) (entry : SnapshotEntry) (rest : List SnapshotEntry) :
    front ++ fed (entry :: rest) = terminated 0 (front ++ pathText entry.path) ++
      (terminated 0 (decimal entry.mode) ++ (entry.content ++ fed rest)) := by
  simp [fed_cons, terminated]

theorem zero_mem_fed
    {entries : List SnapshotEntry}
    (nonempty : entries ≠ []) :
    0 ∈ fed entries := by
  cases entries with
  | nil => exact absurd rfl nonempty
  | cons entry rest => simp [fed_cons, terminated]

theorem SnapshotEntry.Valid.isPath
    {entry : SnapshotEntry}
    (valid : entry.Valid) :
    IsPath entry.path :=
  ⟨valid.path_ne, valid.names⟩

/-- Bytes without a zero before the entries reach up to the first mode, together with the first
path. -/
theorem fed_cons_inj
    {pending otherPending : Bytes}
    {entry other : SnapshotEntry}
    {rest others : List SnapshotEntry}
    (pendingNoZero : 0 ∉ pending)
    (otherNoZero : 0 ∉ otherPending)
    (valid : entry.Valid)
    (otherValid : other.Valid)
    (equal : pending ++ fed (entry :: rest) = otherPending ++ fed (other :: others)) :
    pending ++ pathText entry.path = otherPending ++ pathText other.path ∧
      entry.mode = other.mode ∧ entry.content ++ fed rest = other.content ++ fed others := by
  have noZero {front path : Bytes} (frontNoZero : 0 ∉ front) (pathNoZero : 0 ∉ path) :
      0 ∉ front ++ path := by
    rw [List.mem_append, not_or]
    exact ⟨frontNoZero, pathNoZero⟩
  rw [append_fed_cons, append_fed_cons] at equal
  obtain ⟨texts, modes⟩ := selfDelimiting_terminated 0 _ _
    (noZero pendingNoZero (zero_notMem_pathText valid.names))
    (noZero otherNoZero (zero_notMem_pathText otherValid.names)) _ _ equal
  obtain ⟨sameMode, contents⟩ := selfDelimiting_mode _ _ trivial trivial _ _ modes
  exact ⟨texts, sameMode, contents⟩

/-! ## Rigid trees -/

/-- The paths are in order, and none lies below another. -/
def Diverging (entries : List SnapshotEntry) : Prop :=
  entries.Pairwise fun first second => Diverges first.path second.path

theorem SnapshotTree.diverging (tree : SnapshotTree) : Diverging tree.entries :=
  (tree.sorted.and tree.separate).imp fun ordered => Diverges.iff_lt_and_not_prefix.mpr ordered

theorem SnapshotTree.exists_of_diverging
    {entries : List SnapshotEntry}
    (valid : ∀ entry ∈ entries, entry.Valid)
    (diverging : Diverging entries) :
    ∃ tree : SnapshotTree, tree.entries = entries :=
  ⟨{ entries := entries
     valid := valid
     sorted := diverging.imp fun diverges => (Diverges.iff_lt_and_not_prefix.mp diverges).1
     separate := diverging.imp fun diverges => (Diverges.iff_lt_and_not_prefix.mp diverges).2 },
    rfl⟩

/-- Entries whose bytes are those of no other tree, as is shown below. -/
structure Rigid (entries : List SnapshotEntry) : Prop where
  /-- Only the last content may be any bytes. -/
  links (before after : List SnapshotEntry) (entry next : SnapshotEntry) :
    entries = before ++ entry :: next :: after -> entry.isSymlink = true
  /-- No bytes can be moved between a target and the next path. -/
  boundaries (before after : List SnapshotEntry) (entry next : SnapshotEntry) (content : Bytes)
      (path : List Bytes) :
    entries = before ++ entry :: next :: after ->
    entry.content ++ pathText next.path = content ++ pathText path ->
    SnapshotEntry.Valid { entry with content := content } ->
    SnapshotEntry.Valid { next with path := path } ->
    Diverges entry.path path ->
    (∀ following ∈ after.head?, Diverges path following.path) ->
    path = next.path
  /-- The last content does not end like a further entry. -/
  last (before : List SnapshotEntry) (entry further : SnapshotEntry) (content : Bytes) :
    entries = before ++ [entry] ->
    further.Valid ->
    Diverges entry.path further.path ->
    entry.content ≠ content ++ (terminated 0 (pathText further.path) ++
      (terminated 0 (decimal further.mode) ++ further.content))

theorem Rigid.tail
    {entry : SnapshotEntry}
    {rest : List SnapshotEntry}
    (rigid : Rigid (entry :: rest)) :
    Rigid rest where
  links before _ _ _ split := rigid.links (entry :: before) _ _ _ (congrArg (entry :: ·) split)
  boundaries before _ _ _ _ _ split :=
    rigid.boundaries (entry :: before) _ _ _ _ _ (congrArg (entry :: ·) split)
  last before _ _ _ split := rigid.last (entry :: before) _ _ _ (congrArg (entry :: ·) split)

/-- What lies before the first entry lies before all. -/
theorem Diverging.of_head
    {entries : List SnapshotEntry}
    {path : List Bytes}
    {entry : SnapshotEntry}
    (diverging : Diverging entries)
    (before : ∀ first ∈ entries.head?, Diverges path first.path)
    (member : entry ∈ entries) :
    Diverges path entry.path := by
  cases entries with
  | nil => exact absurd member List.not_mem_nil
  | cons first rest =>
      have start := before first rfl
      rcases List.mem_cons.mp member with rfl | later
      · exact start
      · exact start.trans ((List.pairwise_cons.mp diverging).1 entry later)

section Unique

variable {entry other : SnapshotEntry} {rest others : List SnapshotEntry}

/-- The entries after two entries of the same mode are the same, and so are the contents. The
induction is on the entries of the rigid tree. It carries that the first path lies before the
next path of the other tree: when a path has been moved beyond the following one, the next
path has been moved as well. -/
theorem Rigid.unique
    (rigid : Rigid (entry :: rest))
    (valid : ∀ listed ∈ entry :: rest, listed.Valid)
    (otherValid : ∀ listed ∈ other :: others, listed.Valid)
    (diverging : Diverging (entry :: rest))
    (otherDiverging : Diverging (other :: others))
    (before : ∀ next ∈ others.head?, Diverges entry.path next.path)
    (sameMode : entry.mode = other.mode)
    (equal : entry.content ++ fed rest = other.content ++ fed others) :
    entry.content = other.content ∧ rest = others := by
  have othersDiverging : Diverging others := (List.pairwise_cons.mp otherDiverging).2
  induction rest generalizing entry other others with
  | nil =>
      rcases List.eq_nil_or_concat' others with rfl | ⟨middle, further, rfl⟩
      · exact ⟨by simpa [fed] using equal, rfl⟩
      · refine absurd ?_ (rigid.last [] entry further (other.content ++ fed middle) rfl
          (otherValid further (by simp)) (othersDiverging.of_head before (by simp)))
        simpa [fed] using equal
  | cons next rest inductionHypothesis =>
      have link : entry.isSymlink = true := rigid.links [] rest entry next rfl
      have otherLink : other.isSymlink = true := by
        rw [SnapshotEntry.isSymlink, ← sameMode]
        exact link
      have noZero := ((valid entry List.mem_cons_self).target link).2.2
      have otherTarget := (otherValid other List.mem_cons_self).target otherLink
      cases others with
      | nil =>
          have zero : 0 ∈ entry.content ++ fed (next :: rest) :=
            List.mem_append_right _ (zero_mem_fed (List.cons_ne_nil _ _))
          rw [equal] at zero
          exact absurd (by simpa [fed] using zero) otherTarget.2.2
      | cons otherNext others =>
          have nextValid := valid next (by simp)
          have otherNextValid := otherValid otherNext (by simp)
          obtain ⟨texts, modes, contents⟩ :=
            fed_cons_inj noZero otherTarget.2.2 nextValid otherNextValid equal
          have later (crossed : ∀ following ∈ others.head?, Diverges next.path following.path) :
              next.content = otherNext.content ∧ rest = others :=
            inductionHypothesis rigid.tail
              (fun listed member => valid listed (List.mem_cons_of_mem _ member))
              (fun listed member => otherValid listed (List.mem_cons_of_mem _ member))
              (List.pairwise_cons.mp diverging).2 othersDiverging crossed modes contents
              (List.pairwise_cons.mp othersDiverging).2
          have otherLater {following : SnapshotEntry} (member : following ∈ others.head?) :
              Diverges otherNext.path following.path :=
            (List.pairwise_cons.mp othersDiverging).1 following (List.mem_of_mem_head? member)
          by_cases stays : ∀ following ∈ rest.head?, Diverges otherNext.path following.path
          · -- Only this boundary would have been moved.
            have samePath : otherNext.path = next.path :=
              rigid.boundaries [] rest entry next other.content otherNext.path rfl texts
                { valid entry List.mem_cons_self with target := fun _ => otherTarget }
                { nextValid with
                  path_ne := otherNextValid.path_ne
                  names := otherNextValid.names }
                (before otherNext rfl) stays
            obtain ⟨sameContent, rfl⟩ := later fun following member =>
              samePath ▸ otherLater member
            rw [samePath] at texts
            exact ⟨List.append_cancel_right texts,
              congrArg (· :: rest) (SnapshotEntry.ext samePath.symm modes sameContent)⟩
          · -- The path has been moved beyond the following one, and so on up to the last.
            push Not at stays
            obtain ⟨following, follows, beyond⟩ := stays
            have nextLater : Diverges next.path following.path :=
              (List.pairwise_cons.mp (List.pairwise_cons.mp diverging).2).1 following
                (List.mem_of_mem_head? follows)
            obtain ⟨-, rfl⟩ := later fun otherFollowing member =>
              (nextLater.cross (otherLater member)).resolve_right beyond
            exact absurd (otherLater follows) beyond

/-- Rigid entries are told from all others. -/
theorem Rigid.eq_of_fed_eq
    {entries others : List SnapshotEntry}
    (rigid : Rigid entries)
    (valid : ∀ listed ∈ entries, listed.Valid)
    (otherValid : ∀ listed ∈ others, listed.Valid)
    (diverging : Diverging entries)
    (otherDiverging : Diverging others)
    (equal : fed entries = fed others) :
    entries = others := by
  cases entries with
  | nil =>
      by_contra different
      have zero := zero_mem_fed fun empty => different empty.symm
      rw [← equal] at zero
      exact absurd zero (by simp [fed])
  | cons entry rest =>
      cases others with
      | nil =>
          have zero := zero_mem_fed (List.cons_ne_nil entry rest)
          rw [equal] at zero
          exact absurd zero (by simp [fed])
      | cons other others =>
          have entryValid := valid entry List.mem_cons_self
          have otherEntryValid := otherValid other List.mem_cons_self
          obtain ⟨texts, modes, contents⟩ := fed_cons_inj List.not_mem_nil List.not_mem_nil
            entryValid otherEntryValid (congrArg ([] ++ ·) equal)
          have samePath : entry.path = other.path :=
            pathText_injective entryValid.isPath otherEntryValid.isPath texts
          have before (next : SnapshotEntry) (first : next ∈ others.head?) :
              Diverges entry.path next.path :=
            samePath ▸ (List.pairwise_cons.mp otherDiverging).1 next (List.mem_of_mem_head? first)
          obtain ⟨sameContent, rfl⟩ := rigid.unique valid otherValid diverging otherDiverging
            before modes contents
          exact congrArg (· :: rest) (SnapshotEntry.ext samePath modes sameContent)

end Unique

/-! ## Trees with the same digest -/

/-- With another content and other entries after it, an entry may spell the same bytes. -/
theorem SnapshotTree.exists_same_of_replaced
    {tree : SnapshotTree}
    {before rest : List SnapshotEntry}
    {entry : SnapshotEntry}
    (content : Bytes)
    (others : List SnapshotEntry)
    (split : tree.entries = before ++ entry :: rest)
    (valid : SnapshotEntry.Valid { entry with content := content })
    (othersValid : ∀ other ∈ others, other.Valid)
    (diverging : Diverging (entry :: others))
    (spells : content ++ fed others = entry.content ++ fed rest)
    (different : content ≠ entry.content) :
    ∃ other : SnapshotTree, other ≠ tree ∧ digestInput other = digestInput tree := by
  have treeDiverging := tree.diverging
  rw [Diverging, split, List.pairwise_append] at treeDiverging
  obtain ⟨beforeDiverging, -, across⟩ := treeDiverging
  obtain ⟨other, otherEntries⟩ : ∃ other : SnapshotTree,
      other.entries = before ++ { entry with content := content } :: others := by
    refine SnapshotTree.exists_of_diverging ?_ ?_
    · intro listed member
      rcases List.mem_append.mp member with earlier | here
      · exact tree.valid listed (by simp [split, earlier])
      · rcases List.mem_cons.mp here with rfl | later
        · exact valid
        · exact othersValid listed later
    · refine List.pairwise_append.mpr ⟨beforeDiverging, List.pairwise_cons.mpr
        (List.pairwise_cons.mp diverging), fun first earlier second here => ?_⟩
      have start := across first earlier entry List.mem_cons_self
      rcases List.mem_cons.mp here with rfl | later
      · exact start
      · exact start.trans ((List.pairwise_cons.mp diverging).1 second later)
  refine ⟨other, fun same => different ?_, ?_⟩
  · rw [← same, otherEntries] at split
    exact congrArg SnapshotEntry.content (List.cons.inj (List.append_cancel_left split)).1
  · change fed other.entries = fed tree.entries
    rw [otherEntries, split]
    simp only [fed, List.flatMap_append, List.flatMap_cons, List.append_assoc] at spells ⊢
    rw [spells]

/-- A tree with a regular file that is not its last entry shares its digest with another
tree, in which the file holds the bytes of all the entries after it. -/
theorem exists_same_of_regular
    {tree : SnapshotTree}
    {before rest : List SnapshotEntry}
    {entry : SnapshotEntry}
    (split : tree.entries = before ++ entry :: rest)
    (notLink : entry.isSymlink ≠ true)
    (followed : rest ≠ []) :
    ∃ other : SnapshotTree, other ≠ tree ∧ digestInput other = digestInput tree := by
  have valid := tree.valid entry (by simp [split])
  refine SnapshotTree.exists_same_of_replaced (entry.content ++ fed rest) [] split
    { valid with target := fun link => absurd link notLink } (by simp)
    (List.pairwise_singleton _ _) (by simp [fed]) fun same => ?_
  have zero := zero_mem_fed followed
  rw [List.append_right_eq_self.mp same] at zero
  exact absurd zero List.not_mem_nil

/-- So does a tree of which a boundary can be moved. -/
theorem exists_same_of_boundary
    {tree : SnapshotTree}
    {before after : List SnapshotEntry}
    {entry next : SnapshotEntry}
    {content : Bytes}
    {path : List Bytes}
    (split : tree.entries = before ++ entry :: next :: after)
    (texts : entry.content ++ pathText next.path = content ++ pathText path)
    (valid : SnapshotEntry.Valid { entry with content := content })
    (nextValid : SnapshotEntry.Valid { next with path := path })
    (diverges : Diverges entry.path path)
    (stays : ∀ following ∈ after.head?, Diverges path following.path)
    (moved : path ≠ next.path) :
    ∃ other : SnapshotTree, other ≠ tree ∧ digestInput other = digestInput tree := by
  have treeValid (listed : SnapshotEntry) (member : listed ∈ next :: after) : listed.Valid := by
    refine tree.valid listed ?_
    rw [split]
    exact List.mem_append_right _ (List.mem_cons_of_mem _ member)
  have treeDiverging := tree.diverging
  rw [Diverging, split, List.pairwise_append] at treeDiverging
  have afterDiverging : Diverging after :=
    (List.pairwise_cons.mp (List.pairwise_cons.mp treeDiverging.2.1).2).2
  have later (listed : SnapshotEntry) (member : listed ∈ after) : Diverges path listed.path :=
    afterDiverging.of_head stays member
  refine SnapshotTree.exists_same_of_replaced content ({ next with path := path } :: after) split
    valid ?_ ?_ ?_ ?_
  · intro listed member
    rcases List.mem_cons.mp member with rfl | inAfter
    · exact nextValid
    · exact treeValid listed (List.mem_cons_of_mem _ inAfter)
  · refine List.pairwise_cons.mpr ⟨fun listed member => ?_,
      List.pairwise_cons.mpr ⟨later, afterDiverging⟩⟩
    rcases List.mem_cons.mp member with rfl | inAfter
    · exact diverges
    · exact diverges.trans (later listed inAfter)
  · rw [append_fed_cons, append_fed_cons, texts]
  · intro same
    rw [same] at texts
    exact moved (pathText_injective nextValid.isPath (treeValid next List.mem_cons_self).isPath
      (List.append_cancel_left texts).symm)

/-- So does a tree of which the last content ends like a further entry. -/
theorem exists_same_of_last
    {tree : SnapshotTree}
    {before : List SnapshotEntry}
    {entry further : SnapshotEntry}
    {content : Bytes}
    (split : tree.entries = before ++ [entry])
    (furtherValid : further.Valid)
    (diverges : Diverges entry.path further.path)
    (ends : entry.content = content ++ (terminated 0 (pathText further.path) ++
      (terminated 0 (decimal further.mode) ++ further.content))) :
    ∃ other : SnapshotTree, other ≠ tree ∧ digestInput other = digestInput tree := by
  have valid := tree.valid entry (by simp [split])
  have zero : 0 ∈ entry.content := by simp [ends, terminated]
  refine SnapshotTree.exists_same_of_replaced content [further] split
    { valid with target := fun link => absurd zero (valid.target link).2.2 }
    (by simpa using furtherValid) (by simpa [Diverging] using diverges) ?_ fun same => ?_
  · rw [ends]
    simp [fed]
  · rw [same] at ends
    exact absurd (List.append_right_eq_self.mp ends.symm) (by simp [terminated])

/-- The digest identifies a tree exactly when the tree is rigid. -/
theorem digestInput_identifies_iff (tree : SnapshotTree) :
    (∀ other, digestInput tree = digestInput other -> tree = other) ↔ Rigid tree.entries := by
  constructor
  · intro identifies
    have alone (shared : ∃ other : SnapshotTree,
        other ≠ tree ∧ digestInput other = digestInput tree) : False := by
      obtain ⟨other, different, same⟩ := shared
      exact different (identifies other same.symm).symm
    refine ⟨?_, ?_, ?_⟩
    · intro before after entry next split
      by_contra notLink
      exact alone (exists_same_of_regular split notLink (List.cons_ne_nil _ _))
    · intro before after entry next content path split texts valid nextValid diverges stays
      by_contra moved
      exact alone (exists_same_of_boundary split texts valid nextValid diverges stays moved)
    · intro before entry further content split furtherValid diverges ends
      exact alone (exists_same_of_last split furtherValid diverges ends)
  · intro rigid other equal
    exact SnapshotTree.ext (rigid.eq_of_fed_eq tree.valid other.valid tree.diverging
      other.diverging equal)

/-- A regular file in the root of the tree, with the mode 644. -/
def regularFile (name : String) (content : Bytes) : SnapshotEntry :=
  ⟨[utf8 name], 0o100644, content⟩

theorem kind_regularFile (name : String) (content : Bytes) :
    (regularFile name content).mode &&& 0o170000 = 0o100000 :=
  show (0o100644 &&& 0o170000 : Nat) = 0o100000 from by decide

theorem valid_regularFile
    {name : String}
    (isName : SnapshotEntry.IsName (utf8 name))
    (content : Bytes) :
    (regularFile name content).Valid where
  path_ne := List.cons_ne_nil _ _
  names := by simpa [regularFile] using isName
  kind := .inl (beq_iff_eq.mpr (kind_regularFile name content))
  target := fun symlink => absurd (beq_iff_eq.mp symlink)
    (kind_regularFile name content ▸ by decide)

theorem isName_a : SnapshotEntry.IsName (utf8 "a") :=
  ⟨⟨"a", rfl⟩, by decide, by decide, by decide, by decide, by decide⟩

theorem isName_b : SnapshotEntry.IsName (utf8 "b") :=
  ⟨⟨"b", rfl⟩, by decide, by decide, by decide, by decide, by decide⟩

def twoFiles : SnapshotTree where
  entries := [regularFile "a" (utf8 "X"), regularFile "b" (utf8 "Y")]
  valid := by
    rintro entry (_ | ⟨_, _ | ⟨_, ⟨⟩⟩⟩)
    · exact valid_regularFile isName_a _
    · exact valid_regularFile isName_b _
  sorted := by decide
  separate := by decide

def oneFile : SnapshotTree where
  entries := [regularFile "a" (utf8 "Xb" ++ 0 :: utf8 "33188" ++ 0 :: utf8 "Y")]
  valid := by
    rintro entry (_ | ⟨_, ⟨⟩⟩)
    exact valid_regularFile isName_a _
  sorted := List.pairwise_singleton _ _
  separate := List.pairwise_singleton _ _

/-- Two files have the digest of one file. -/
theorem digestInput_twoFiles :
    ¬(digestInput twoFiles = digestInput oneFile -> twoFiles = oneFile) := by
  intro identifies
  have same : digestInput twoFiles = digestInput oneFile := by decide
  have lengths := congrArg (fun tree => tree.entries.length) (identifies same)
  exact absurd lengths (by decide)

end Release
end MacosAuth
