import MacosAuth.Release.Collection

/-!
# The order of the sources

A collection depends on the set of its sources only. Another order, and sources that are
named more than once, lead to the same release, up to the line ends of the checksum files
that the builders wrote and to the time of the collection. Sources that disagree about a
package make it fail in every order.
-/

namespace MacosAuth
namespace Release

open Codec (Bytes)
open Collections
open Protocol (bind_eq_ok)

section SourceOrder

variable {python : Python} {host : Host} {request : Request} {expected : Description}
  {out staged : Option Directory} {chosen : Chosen} {items : List Item}

/-- Two files of one name in two collections. -/
inductive SameFile (python : Python) (name : String) : Option Node -> Option Node -> Prop
  | same (node : Option Node) : SameFile python name node node
  /-- Checksum files have the same text. -/
  | checksum
      {package : String}
      {left right : Bytes}
      (isChecksum : name = checksumName package)
      (sameText : python.textOf left = python.textOf right) :
      SameFile python name (some (.file left)) (some (.file right))
  /-- Indices have the same artifacts and the same source. -/
  | index
      {left right : Bytes}
      {index index' : Json}
      (isIndex : name ∈ ["BUILD-METADATA.txt", "BUILD-METADATA-darwin-arm64.txt"])
      (leftWritten : python.encode (python.dumps index ++ "\n") = some left)
      (rightWritten : python.encode (python.dumps index' ++ "\n") = some right)
      (sameArtifacts : index.field "artifacts" = index'.field "artifacts")
      (sameSource : index.field "source" = index'.field "source") :
      SameFile python name (some (.file left)) (some (.file right))

/-- The contents of the files in the output directory and in the sources. -/
def offeredContents (host : Host) (request : Request) (out : Option Directory) : Set Bytes :=
  { content | (∃ directory, out = some directory ∧ content ∈ directory.contents) ∨
    ∃ source ∈ request.sources, ∃ directory,
      sourceDirectory host request out source = some directory ∧ content ∈ directory.contents }

/-- The host at another time, listing directories in another order. -/
def Host.later
    (host : Host)
    (now : String)
    (listing : List String -> List String)
    (listing_perm : ∀ names, (listing names).Perm names) :
    Host :=
  { host with now, listing, listing_perm }

/-! ## What local sources offer -/

theorem isRemote_allSources
    (areLocal : ∀ source ∈ request.sources, isRemote source = false)
    (outLocal : isRemote (host.resolve request.outDir) = false) :
    ∀ source ∈ allSources host request staged, isRemote source = false := by
  intro source member
  unfold allSources at member
  split at member
  · split at member
    · rcases List.mem_cons.mp member with rfl | listed
      · exact outLocal
      · exact areLocal source listed
    · exact areLocal source member
  · exact areLocal source member

/-- The packages of a local source are the packages of its directory. -/
theorem sourcePackages_eq_ok
    {source : String}
    {packages : List ArtifactPath}
    (isLocal : isRemote source = false) :
    sourcePackages host request staged 0 source = .ok packages ↔
      ∃ directory, sourceDirectory host request staged source = some directory ∧
        (packageFiles directory).isEmpty = false ∧
        packages = (packageFiles directory).map fun name =>
          { directory, location := host.resolve source, name } := by
  simp only [sourcePackages, openSource, isLocal, bind, Except.bind]
  cases found : sourceDirectory host request staged source with
  | none => simp
  | some directory =>
      by_cases empty : packageFiles directory = []
      · simp [refuse, empty]
      · simp only [Bool.false_eq_true, if_false, refuse, List.isEmpty_iff, empty,
          Except.ok.injEq, Option.some.injEq, exists_eq_left', Bool.eq_false_iff, ne_eq,
          not_false_eq_true, true_and]
        exact eq_comm

/-- What is at a name of the release in a source once `stage` has been called. -/
theorem sourceDirectory_of_staged
    {source name : String}
    {directory : Directory}
    {node : Node}
    (regular : ∀ directory, out = some directory -> Regular directory)
    (stages : stage host out = .ok staged)
    (other : name ∉ stageNames)
    (found : sourceDirectory host request staged source = some directory)
    (looked : directory.lookup name = some node) :
    ∃ before, sourceDirectory host request out source = some before ∧
      before.lookup name = some node := by
  unfold sourceDirectory at found ⊢
  split
  · rename_i isOut
    rw [if_pos isOut] at found
    subst found
    have same := stage_of_regular regular stages other
    rw [Option.getD_some, looked] at same
    cases out with
    | none => simp at same
    | some before => exact ⟨before, rfl, same.symm⟩
  · rename_i notOut
    rw [if_neg notOut] at found
    exact ⟨directory, found, looked⟩

/-- A source that offers a package does so once `stage` has been called. -/
theorem sourceDirectory_staged
    {source name : String}
    {directory : Directory}
    (regular : ∀ directory, out = some directory -> Regular directory)
    (stages : stage host out = .ok staged)
    (found : sourceDirectory host request out source = some directory)
    (listed : name ∈ packageFiles directory) :
    ∃ after, sourceDirectory host request staged source = some after ∧
      name ∈ packageFiles after ∧
      ∀ role : Role, after.lookup (role.nameOf name) = directory.lookup (role.nameOf name) := by
  obtain ⟨isKey, isFinal⟩ := List.mem_filter.mp (mem_sorted.mp listed)
  unfold sourceDirectory at found ⊢
  split
  · rename_i isOut
    rw [if_pos isOut] at found
    subst found
    have same (role : Role) := stage_of_regular regular stages
      (notMem_stageNames (.inr ⟨name, role, isFinal, rfl⟩))
    rw [← AList.mem_keys, ← AList.lookup_isSome] at isKey
    cases staged with
    | none =>
        have nothing := same .package
        rw [Option.getD_none, Option.getD_some, AList.lookup_empty] at nothing
        rw [show directory.lookup name = none from nothing.symm] at isKey
        cases isKey
    | some after =>
        refine ⟨after, rfl, mem_sorted.mpr (List.mem_filter.mpr ⟨?_, isFinal⟩), same⟩
        rw [← AList.mem_keys, ← AList.lookup_isSome, show after.lookup name = _ from same .package]
        exact isKey
  · rename_i notOut
    rw [if_neg notOut] at found
    exact ⟨directory, found, listed, fun _ => rfl⟩

/-- Where the files of an offered package come from. -/
theorem content_of_offered
    {packages : List ArtifactPath}
    {package : ArtifactPath}
    {bundle : Bundle}
    (regular : ∀ directory, out = some directory -> Regular directory)
    (areLocal : ∀ source ∈ request.sources, isRemote source = false)
    (outLocal : isRemote (host.resolve request.outDir) = false)
    (stages : stage host out = .ok staged)
    (offer : offered host request staged 0 (allSources host request staged) = .ok packages)
    (member : package ∈ packages)
    (holds : package.Holds bundle) :
    bundle.package ∈ offeredContents host request out := by
  have isFinal := isFinalPackage_of_offered offer package member
  have allLocal : ∀ source ∈ allSources host request staged, isRemote source = false :=
    isRemote_allSources areLocal outLocal
  obtain ⟨source, listed, own, opened, isOwn⟩ :=
    (mem_offered_of_local allLocal offer package).mp member
  obtain ⟨directory, found, _, rfl⟩ := (sourcePackages_eq_ok (allLocal source listed)).mp opened
  obtain ⟨name, _, rfl⟩ := List.mem_map.mp isOwn
  have plain : name ∉ stageNames := notMem_stageNames (.inr ⟨name, .package, isFinal, rfl⟩)
  obtain ⟨before, isSource, looked⟩ := sourceDirectory_of_staged regular stages plain found holds.1
  have isSourceOrOut : source ∈ request.sources ∨ source = host.resolve request.outDir := by
    unfold allSources at listed
    split at listed
    · split at listed
      · exact (List.mem_cons.mp listed).symm
      · exact .inl listed
    · exact .inl listed
  rcases isSourceOrOut with isListed | rfl
  · exact .inr ⟨source, isListed, before, isSource, name, looked⟩
  · rw [sourceDirectory, if_pos (host.resolve_resolve _)] at isSource
    exact .inl ⟨before, isSource, name, looked⟩

/-! ## Another order -/

/-- The items of two collections from the same packages. -/
theorem sameItems
    {packages packages' : List ArtifactPath}
    {items' : List Item}
    {contents : Set Bytes}
    {version : String}
    (noCollision : contents.InjOn python.sha256)
    (offeredIn : ∀ package ∈ packages', ∀ bundle, package.Holds bundle -> bundle.package ∈ contents)
    (samePackages : ∀ package, package ∈ packages ↔ package ∈ packages')
    (agreeing : Agreeing ArtifactPath.name (stamp python) packages')
    (stock : Stock python expected version
      (insertAll (keyed ArtifactPath.name packages) ∅) items)
    (stock' : Stock python expected version
      (insertAll (keyed ArtifactPath.name packages') ∅) items') :
    items.map Item.pinned = items'.map Item.pinned := by
  have sameNames : items.map Item.name = items'.map Item.name := by
    rw [stock.names, stock'.names]
    apply sorted_eq_of_perm
    apply (List.perm_ext_iff_of_nodup (AList.keys_nodup _) (AList.keys_nodup _)).mpr
    intro name
    rw [← AList.mem_keys, ← AList.mem_keys, mem_insertAll_keyed, mem_insertAll_keyed]
    simp only [samePackages]
  apply map_pinned_eq sameNames
  intro item member other otherMember sameName
  obtain ⟨package, looked, holds⟩ := stock.holds item member
  obtain ⟨package', looked', holds'⟩ := stock'.holds other otherMember
  rw [← sameName] at looked'
  have sameStamp := agreeing.lookup samePackages looked looked'
  rw [stamp_of_holds holds, stamp_of_holds holds', Prod.mk.injEq, Except.ok.injEq,
    Except.ok.injEq] at sameStamp
  have isOffered := (samePackages package).mp (mem_of_lookup_keyed looked).1
  exact pinned_of_metadata noCollision (offeredIn package isOffered _ holds)
    (offeredIn package' (mem_of_lookup_keyed looked').1 _ holds') (stock.genuine item member)
    (stock'.genuine other otherMember) sameName sameStamp.2

theorem sameEntries
    {items' : List Item}
    (samePinned : items.map Item.pinned = items'.map Item.pinned) :
    items.map (Item.entry python) = items'.map (Item.entry python) := by
  have entries := congrArg (List.map (Item.entry python)) samePinned
  rw [List.map_map, List.map_map] at entries
  exact entries

theorem sameListText
    {items' : List Item}
    (samePinned : items.map Item.pinned = items'.map Item.pinned)
    (macos : Bool) :
    listText python (platformItems macos items) = listText python (platformItems macos items') := by
  rw [← listText_pinned, samePinned, listText_pinned]

theorem samePlatforms
    {items' : List Item}
    (samePinned : items.map Item.pinned = items'.map Item.pinned)
    (macos : Bool) :
    platformItems macos items = [] ↔ platformItems macos items' = [] := by
  have filtered (list : List Item) :
      platformItems macos (list.map Item.pinned) = (platformItems macos list).map Item.pinned :=
    List.filter_map
  rw [← List.map_eq_nil_iff (f := Item.pinned), ← filtered, samePinned, filtered,
    List.map_eq_nil_iff]

/-- The loop does not read the time or the list of sources of the request. -/
theorem gather_later
    {sources list : List String}
    {now : String}
    {listing : List String -> List String}
    {listing_perm : ∀ names, (listing names).Perm names}
    {index : Nat} :
    gather python (host.later now listing listing_perm) { request with sources } expected out
        index list chosen =
      gather python host request expected out index list chosen := by
  induction list generalizing index chosen with
  | nil => rfl
  | cons source rest inductionHypothesis =>
      simp only [gather, inductionHypothesis]
      rfl

/-- The same collection from sources in another order, at another time. -/
theorem Collects.reordered
    {sources : List String}
    {now : String}
    {listing : List String -> List String}
    {listing_perm : ∀ names, (listing names).Perm names}
    {index : Json}
    {files : ListFiles}
    (regular : ∀ directory, out = some directory -> Regular directory)
    (areLocal : ∀ source ∈ request.sources, isRemote source = false)
    (outLocal : isRemote (host.resolve request.outDir) = false)
    (noCollision : (offeredContents host request out).InjOn python.sha256)
    (same : ∀ source, source ∈ request.sources ↔ source ∈ sources)
    (collects : Collects python host request out expected staged chosen items index files) :
    ∃ chosen' items' index' files',
      Collects python (host.later now listing listing_perm) { request with sources } out expected
        staged chosen' items' index' files' ∧
      items.map Item.pinned = items'.map Item.pinned ∧
      files'.linux = files.linux ∧ files'.macos = files.macos ∧
      index.field "artifacts" = index'.field "artifacts" ∧
      index.field "source" = index'.field "source" := by
  have allLocal : ∀ source ∈ allSources host request staged, isRemote source = false :=
    isRemote_allSources areLocal outLocal
  have sameAll : ∀ source, source ∈ allSources host request staged ↔
      source ∈ allSources host { request with sources } staged := by
    intro source
    unfold allSources
    split
    · split <;> simp [same]
    · exact same source
  have stages := collects.stages
  obtain ⟨packages, packages', samePackages, offer, agreeing, rfl, gathered'⟩ :=
    gather_of_same_sources allLocal sameAll collects.gathered
  obtain ⟨items', stock'⟩ := exists_stock gathered'
  have offeredIn : ∀ package ∈ packages', ∀ bundle, package.Holds bundle ->
      bundle.package ∈ offeredContents host request out :=
    fun package member bundle holds => content_of_offered regular areLocal outLocal stages offer
      ((samePackages package).mpr member) holds
  have samePinned := sameItems noCollision offeredIn samePackages agreeing collects.stock stock'
  obtain ⟨_, _, described⟩ := collects.described
  obtain ⟨revision, status, hasRevision, hasStatus, _, _, rfl⟩ :=
    (describe_eq_ok collects.stock).mp described
  have described' : describe python (host.later now listing listing_perm) { request with sources }
      expected _ = .ok (_, _, _) :=
    (describe_eq_ok stock').mpr ⟨revision, status, hasRevision, hasStatus, rfl, rfl, rfl⟩
  obtain ⟨indexFile, indexEncoded⟩ := python.encode_dumps
    (releaseIndex (host.later now listing listing_perm) { request with sources } expected revision
      (status != "") (items'.map (Item.entry python)))
  refine ⟨_, items', _, ⟨indexFile, files.linux, files.macos⟩,
    ⟨collects.source, stages, ?_, stock', ?_, ⟨_, _, described'⟩, ⟨indexEncoded, ?_, ?_⟩⟩,
    samePinned, rfl, rfl, ?_, rfl⟩
  · rw [gather_later]
    exact gathered'
  · intro none
    apply collects.nonempty
    rw [← List.map_eq_nil_iff (f := Item.pinned), samePinned, none, List.map_nil]
  · intro nonempty
    rw [← sameListText samePinned]
    exact collects.encode.linux fun none => nonempty ((samePlatforms samePinned false).mp none)
  · intro nonempty
    rw [← sameListText samePinned]
    exact collects.encode.macos fun none => nonempty ((samePlatforms samePinned true).mp none)
  · exact congrArg Json.array (sameEntries samePinned)

/-- Two assembled releases that differ in the line ends of their checksum files and in the time
of their index at most. -/
structure Alike
    (python : Python)
    (expected : Description)
    (version : String)
    (chosen : Chosen)
    (items : List Item)
    (index : Json)
    (files : ListFiles)
    (chosen' : Chosen)
    (items' : List Item)
    (index' : Json)
    (files' : ListFiles) :
    Prop where
  stock : Stock python expected version chosen items
  stock' : Stock python expected version chosen' items'
  encode : files.Encode python items index
  encode' : files'.Encode python items' index'
  samePinned : items.map Item.pinned = items'.map Item.pinned
  sameLinux : files'.linux = files.linux
  sameMacos : files'.macos = files.macos
  sameArtifacts : index.field "artifacts" = index'.field "artifacts"
  sameSource : index.field "source" = index'.field "source"

namespace Alike

variable {version name : String} {chosen' : Chosen} {items' : List Item} {index index' : Json}
  {files files' : ListFiles}

theorem symm (alike : Alike python expected version chosen items index files chosen' items' index'
    files') :
    Alike python expected version chosen' items' index' files' chosen items index files :=
  ⟨alike.stock', alike.stock, alike.encode', alike.encode, alike.samePinned.symm,
    alike.sameLinux.symm, alike.sameMacos.symm, alike.sameArtifacts.symm, alike.sameSource.symm⟩

/-- The releases have the same names, with files that are the same. -/
theorem sameFile
    (alike : Alike python expected version chosen items index files chosen' items' index' files')
    (member : name ∈ assembled chosen items files) :
    name ∈ assembled chosen' items' files' ∧
      SameFile python name ((assembled chosen items files).lookup name)
        ((assembled chosen' items' files').lookup name) := by
  have found {node : Node} (listed : (name, node) ∈ files'.entries items') :
      name ∈ assembled chosen' items' files' ∧
        (assembled chosen' items' files').lookup name = some node :=
    ⟨(mem_assembled alike.stock').mpr (.inl ⟨node, listed⟩), lookup_assembled_list listed⟩
  have written : SameFile python name (some (.file files.index)) (some (.file files'.index)) ∨
      name ∉ ["BUILD-METADATA.txt", "BUILD-METADATA-darwin-arm64.txt"] := by
    rw [or_iff_not_imp_right, not_not]
    exact fun isIndex => .index isIndex alike.encode.index alike.encode'.index
      alike.sameArtifacts alike.sameSource
  rcases (mem_assembled alike.stock).mp member with
    ⟨node, listed⟩ | ⟨item, itemMember, role, rfl⟩
  · rw [lookup_assembled_list listed]
    have platforms := samePlatforms alike.samePinned
    rcases ListFiles.mem_entries.mp listed with
      ⟨rfl, rfl⟩ | ⟨some, rfl, rfl⟩ | ⟨some, ⟨rfl, rfl⟩ | ⟨rfl, rfl⟩⟩
    · obtain ⟨isKey, looked⟩ := found (ListFiles.mem_entries.mpr (.inl ⟨rfl, rfl⟩))
      rw [looked]
      exact ⟨isKey, written.resolve_right (by simp)⟩
    · rw [ne_eq, platforms] at some
      obtain ⟨isKey, looked⟩ := found (ListFiles.mem_entries.mpr (.inr (.inl ⟨some, rfl, rfl⟩)))
      rw [looked, alike.sameLinux]
      exact ⟨isKey, .same _⟩
    · rw [ne_eq, platforms] at some
      obtain ⟨isKey, looked⟩ :=
        found (ListFiles.mem_entries.mpr (.inr (.inr ⟨some, .inl ⟨rfl, rfl⟩⟩)))
      rw [looked, alike.sameMacos]
      exact ⟨isKey, .same _⟩
    · rw [ne_eq, platforms] at some
      obtain ⟨isKey, looked⟩ :=
        found (ListFiles.mem_entries.mpr (.inr (.inr ⟨some, .inr ⟨rfl, rfl⟩⟩)))
      rw [looked]
      exact ⟨isKey, written.resolve_right (by simp)⟩
  · have pinnedMember : item.pinned ∈ items'.map Item.pinned :=
      alike.samePinned ▸ List.mem_map_of_mem itemMember
    obtain ⟨other, otherMember, same⟩ := List.mem_map.mp pinnedMember
    obtain ⟨sameName, samePackage, sameMetadata⟩ := Item.eq_of_pinned same
    have isKey : role.nameOf item.name ∈ assembled chosen' items' files' :=
      (mem_assembled alike.stock').mpr (.inr ⟨other, otherMember, role, by rw [sameName]⟩)
    have looked : (assembled chosen' items' files').lookup (role.nameOf item.name) =
        some (.file (other.bundle.content role)) := by
      rw [← sameName]
      exact lookup_assembled_role alike.stock' otherMember role
    refine ⟨isKey, ?_⟩
    rw [lookup_assembled_role alike.stock itemMember, looked]
    cases role with
    | package =>
        rw [Bundle.content, Bundle.content, samePackage]
        exact .same _
    | metadata =>
        rw [Bundle.content, Bundle.content, sameMetadata]
        exact .same _
    | checksum =>
        exact .checksum rfl
          ((alike.stock.genuine item itemMember).line_eq (alike.stock'.genuine other otherMember)
            same.symm)

end Alike

/-- Sources that disagree about a package make a collection fail. -/
theorem conflict_fails
    {source source' name : String}
    {directory directory' : Directory}
    (regular : ∀ directory, out = some directory -> Regular directory)
    (areLocal : ∀ source ∈ request.sources, isRemote source = false)
    (outLocal : isRemote (host.resolve request.outDir) = false)
    (noCollision : (offeredContents host request out).InjOn python.sha256)
    (listed : source ∈ request.sources)
    (listed' : source' ∈ request.sources)
    (found : sourceDirectory host request out source = some directory)
    (found' : sourceDirectory host request out source' = some directory')
    (offers : name ∈ packageFiles directory)
    (offers' : name ∈ packageFiles directory')
    (differ : directory.lookup name ≠ directory'.lookup name ∨
      directory.lookup (metadataName name) ≠ directory'.lookup (metadataName name)) :
    (collect python host request out).1 ≠ .ok () := by
  intro succeeds
  obtain ⟨expected, staged, chosen, items, index, files, collects⟩ :=
    exists_collects_of_ok (Prod.ext succeeds rfl)
  have stages := collects.stages
  obtain ⟨packages, offer, accepted, agreeing, _⟩ := gather_empty_eq_ok.mp collects.gathered
  have allLocal : ∀ source ∈ allSources host request staged, isRemote source = false :=
    isRemote_allSources areLocal outLocal
  have offeredBy {source : String} {directory : Directory} (listed : source ∈ request.sources)
      (found : sourceDirectory host request out source = some directory)
      (offers : name ∈ packageFiles directory) :
      ∃ package ∈ packages, package.name = name ∧ ∀ role : Role,
        package.directory.lookup (role.nameOf name) = directory.lookup (role.nameOf name) := by
    obtain ⟨after, foundAfter, offersAfter, same⟩ :=
      sourceDirectory_staged regular stages found offers
    have inAll : source ∈ allSources host request staged := by
      unfold allSources
      split
      · split
        · exact List.mem_cons_of_mem _ listed
        · exact listed
      · exact listed
    refine ⟨⟨after, host.resolve source, name⟩, ?_, rfl, same⟩
    refine (mem_offered_of_local allLocal offer _).mpr ⟨source, inAll, _,
      (sourcePackages_eq_ok (allLocal source inAll)).mpr ⟨after, foundAfter, ?_, rfl⟩,
      List.mem_map_of_mem offersAfter⟩
    rw [List.isEmpty_eq_false_iff]
    exact List.ne_nil_of_mem offersAfter
  obtain ⟨package, member, isName, same⟩ := offeredBy listed found offers
  obtain ⟨package', member', isName', same'⟩ := offeredBy listed' found' offers'
  obtain ⟨item, _, holds, _⟩ := accepted package member
  obtain ⟨item', _, holds', _⟩ := accepted package' member'
  have sameStamp := agreeing package member package' member' (isName.trans isName'.symm)
  rw [stamp_of_holds holds, stamp_of_holds holds', Prod.mk.injEq, Except.ok.injEq,
    Except.ok.injEq] at sameStamp
  have samePackage := noCollision
    (content_of_offered regular areLocal outLocal stages offer member holds)
    (content_of_offered regular areLocal outLocal stages offer member' holds') sameStamp.1
  rw [ArtifactPath.holds_iff, isName] at holds
  rw [ArtifactPath.holds_iff, isName'] at holds'
  have looked (role : Role) := (same role).symm.trans (holds role)
  have looked' (role : Role) := (same' role).symm.trans (holds' role)
  rcases differ with differ | differ
  · apply differ
    exact (looked .package).trans (by rw [Bundle.content, samePackage]; exact (looked' .package).symm)
  · apply differ
    exact (looked .metadata).trans
      (by rw [Bundle.content, sameStamp.2]; exact (looked' .metadata).symm)

/-- A collection that succeeds also does so from its sources in another order, at another time,
and with the same release. -/
theorem collect_reordered
    (host : Host)
    (request : Request)
    (sources : List String)
    (now : String)
    (listing : List String -> List String)
    (listing_perm : ∀ names, (listing names).Perm names)
    (regular : ∀ directory, out = some directory -> Regular directory)
    (areLocal : ∀ source ∈ request.sources, isRemote source = false)
    (outLocal : isRemote (host.resolve request.outDir) = false)
    (noCollision : (offeredContents host request out).InjOn python.sha256)
    (same : ∀ source, source ∈ request.sources ↔ source ∈ sources)
    (succeeds : (collect python host request out).1 = .ok ()) :
    ∃ after after',
      collect python host request out = (.ok (), some after) ∧
      collect python (host.later now listing listing_perm) { request with sources } out =
        (.ok (), some after') ∧
      ∀ name, SameFile python name (after.lookup name) (after'.lookup name) := by
  obtain ⟨expected, staged, chosen, items, index, files, collects⟩ :=
    exists_collects_of_ok (Prod.ext succeeds rfl)
  obtain ⟨chosen', items', index', files', collects', samePinned, sameLinux, sameMacos,
    sameArtifacts, sameSource⟩ := collects.reordered regular areLocal outLocal noCollision same
  have alike : Alike python expected request.version chosen items index files chosen' items'
      index' files' := ⟨collects.stock, collects'.stock, collects.encode, collects'.encode,
    samePinned, sameLinux, sameMacos, sameArtifacts, sameSource⟩
  obtain ⟨after, ends, looked⟩ := collects.collect_eq regular
  obtain ⟨after', ends', looked'⟩ := collects'.collect_eq regular
  refine ⟨after, after', ends, ends', ?_⟩
  intro name
  rw [looked, looked']
  by_cases member : name ∈ assembled chosen items files
  · obtain ⟨member', sameFile⟩ := alike.sameFile member
    rw [if_pos member, if_pos member']
    exact sameFile
  · have notMember : name ∉ assembled chosen' items' files' :=
      fun member' => member (alike.symm.sameFile member').1
    rw [if_neg member, if_neg notMember]
    exact .same _

/-- The order and the number of local sources matter neither for the success of a collection
nor for the release in the output directory, and sources that disagree about a package make
every collection fail. -/
theorem collection_ignores_source_order
    {sources : List String}
    {now : String}
    {listing : List String -> List String}
    {listing_perm : ∀ names, (listing names).Perm names}
    (regular : ∀ directory, out = some directory -> Regular directory)
    (areLocal : ∀ source ∈ request.sources, isRemote source = false)
    (outLocal : isRemote (host.resolve request.outDir) = false)
    (noCollision : (offeredContents host request out).InjOn python.sha256)
    (same : ∀ source, source ∈ request.sources ↔ source ∈ sources) :
    ((collect python host request out).1 = .ok () ↔
      (collect python (host.later now listing listing_perm) { request with sources } out).1 =
        .ok ()) ∧
    (∀ after after',
      collect python host request out = (.ok (), some after) ->
      collect python (host.later now listing listing_perm) { request with sources } out =
        (.ok (), some after') ->
      ∀ name, SameFile python name (after.lookup name) (after'.lookup name)) ∧
    ∀ source ∈ request.sources, ∀ source' ∈ request.sources, ∀ directory directory',
      sourceDirectory host request out source = some directory ->
      sourceDirectory host request out source' = some directory' ->
      ∀ name ∈ packageFiles directory, name ∈ packageFiles directory' ->
        (directory.lookup name ≠ directory'.lookup name ∨
          directory.lookup (metadataName name) ≠ directory'.lookup (metadataName name)) ->
        (collect python host request out).1 ≠ .ok () ∧
          (collect python (host.later now listing listing_perm) { request with sources } out).1 ≠
            .ok () := by
  have sameContents : offeredContents (host.later now listing listing_perm)
      { request with sources } out = offeredContents host request out := by
    ext content
    simp only [offeredContents, ← same]
    rfl
  have forward (succeeds : (collect python host request out).1 = .ok ()) :=
    collect_reordered host request sources now listing listing_perm regular areLocal outLocal
      noCollision same succeeds
  have iff : (collect python host request out).1 = .ok () ↔
      (collect python (host.later now listing listing_perm) { request with sources } out).1 =
        .ok () := by
    constructor
    · intro succeeds
      obtain ⟨_, _, _, ends, _⟩ := forward succeeds
      rw [ends]
    · intro succeeds
      obtain ⟨_, _, _, ends, _⟩ := collect_reordered (host.later now listing listing_perm)
        { request with sources } request.sources host.now host.listing host.listing_perm regular
        (fun source member => areLocal source ((same source).mpr member)) outLocal
        (sameContents ▸ noCollision) (fun source => (same source).symm) succeeds
      exact congrArg Prod.fst ends
  refine ⟨iff, ?_, ?_⟩
  · intro after after' ends ends'
    obtain ⟨first, second, firstEnds, secondEnds, sameFiles⟩ := forward (congrArg Prod.fst ends)
    rw [ends, Prod.mk.injEq, Option.some.injEq] at firstEnds
    rw [ends', Prod.mk.injEq, Option.some.injEq] at secondEnds
    rw [firstEnds.2, secondEnds.2]
    exact sameFiles
  · intro source listed source' listed' directory directory' found found' name offers offers' differ
    have fails := conflict_fails regular areLocal outLocal noCollision listed listed' found found'
      offers offers' differ
    exact ⟨fails, fun succeeds => fails (iff.mpr succeeds)⟩

end SourceOrder

namespace SampleRelease

/-- The package of the other builder. -/
def mirrorPackage : ArtifactPath where
  directory := mirror
  location := "/mirror"
  name := packageName

/-- The checksum file of the other builder has the same text. -/
theorem textOf_mirrorText : python.textOf (utf8 mirrorText) = some lineText := by
  have translated : translateNewlines mirrorText.toList = lineText.toList := by
    decide +kernel
  have decoded : python.decode (utf8 mirrorText) = some mirrorText := decode_utf8 _
  rw [Python.textOf, decoded, Option.map_some, translated, String.ofList_toList]

def mirrorItem : Item where
  name := packageName
  bundle := { package, metadata := utf8 metadataText, checksum := utf8 mirrorText }
  record := record

theorem mirrorPackage_accepted
    {sources : List String} :
    Accepted python (request sources) source mirrorPackage :=
  ⟨mirrorItem, rfl, ⟨rfl, rfl, rfl⟩,
    { parsed := jsonOf_metadataText
      identity := by rfl
      digest := by rfl
      line := textOf_mirrorText
      origin := by rfl }, rfl⟩

/-- Both builders offer the package, and the copy of the one that is named last is taken. -/
theorem collects_mirrored :
    Collects python host (request ["/mirror", "/builder"]) none source none chosen [item] index
      listFiles := by
  refine collects_of_gathered (gather_empty_eq_ok.mpr
    ⟨[mirrorPackage, builderPackage], rfl, ?_, ?_, rfl⟩)
  · intro package member
    rcases List.mem_pair.mp member with rfl | rfl
    · exact mirrorPackage_accepted
    · exact builderPackage_accepted
  · intro package member other otherMember _
    rcases List.mem_pair.mp member with rfl | rfl <;>
      rcases List.mem_pair.mp otherMember with rfl | rfl <;> rfl

end SampleRelease

open SampleRelease in
/-- Two builders whose checksum files differ in the end of the line. -/
theorem collection_ignores_source_order_sample :
    ∃ after after',
      collect python host (request ["/mirror", "/builder"]) none = (.ok (), some after) ∧
      collect python (host.later "2026-01-04T00:00:00Z" List.reverse List.reverse_perm)
        (request ["/builder", "/mirror", "/builder", "/mirror"]) none = (.ok (), some after') ∧
      ∀ name, SameFile python name (after.lookup name) (after'.lookup name) := by
  have none_regular : ∀ directory, none = some directory -> Regular directory := by
    simp
  have noCollision :
      (offeredContents host (request ["/mirror", "/builder"]) none).InjOn python.sha256 := by
    refine sha256_injOn ?_
    rintro content (⟨_, impossible, _⟩ | ⟨source, listed, directory, found, member⟩)
    · cases impossible
    · rcases List.mem_pair.mp listed with rfl | rfl
      · cases found
        exact mirror_hasFiles content member
      · cases found
        exact builder_hasFiles content member
  obtain ⟨after, succeeds, _⟩ := collects_mirrored.collect_eq none_regular
  have sameSources : ∀ source, source ∈ (request ["/mirror", "/builder"]).sources ↔
      source ∈ ["/builder", "/mirror", "/builder", "/mirror"] := by
    intro source
    simp only [request, List.mem_cons, List.not_mem_nil, or_false]
    tauto
  have succeedsLater : (collect python
      (host.later "2026-01-04T00:00:00Z" List.reverse List.reverse_perm)
      (request ["/builder", "/mirror", "/builder", "/mirror"]) none).1 = .ok () :=
    (collection_ignores_source_order none_regular (by decide) rfl noCollision sameSources).1.mp
      (congrArg Prod.fst succeeds)
  obtain ⟨_, _, _, _, _, _, collectsLater⟩ :=
    exists_collects_of_ok (Prod.ext succeedsLater rfl)
  obtain ⟨after', endsLater, _⟩ := collectsLater.collect_eq none_regular
  exact ⟨after, after', succeeds, endsLater,
    (collection_ignores_source_order none_regular (by decide) rfl noCollision sameSources).2.1
      after after' succeeds endsLater⟩

end Release
end MacosAuth
