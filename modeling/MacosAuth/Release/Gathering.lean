import MacosAuth.Release.Provenance

/-!
# The gathering of packages

The loop of `collect` over its sources keeps the latest copy of each package and compares
every newcomer with it. It is a collection that compares: it succeeds exactly when every
offered package is accepted and no two packages with one name differ in their digest or in
their metadata file. For sources on this machine the offered packages do not depend on where
in the list a source stands.
-/

namespace MacosAuth
namespace Release

open Codec (Bytes)
open Collections
open Protocol (bind_eq_ok)

variable {python : Python} {host : Host} {request : Request} {expected : Description}
  {out : Option Directory} {chosen : Chosen} {packages : List ArtifactPath}

/-- A package that the loop accepts, with what its files hold. -/
def Accepts
    (python : Python)
    (request : Request)
    (expected : Description)
    (package : ArtifactPath)
    (item : Item) :
    Prop :=
  item.name = package.name ∧ package.Holds item.bundle ∧
    item.IsGenuine python expected request.version ∧
    checkScope request package item.record = .ok ()

/-- What is compared of two copies of a package. -/
def stamp (python : Python) (package : ArtifactPath) :
    Except Exception String × Except Exception Bytes :=
  (package.digest python, package.metadataPath.readBytes)

theorem stamp_of_holds
    {package : ArtifactPath}
    {bundle : Bundle}
    (holds : package.Holds bundle) :
    stamp python package = (.ok (python.sha256 bundle.package), .ok bundle.metadata) := by
  simp [stamp, ArtifactPath.digest, ArtifactPath.readBytes_of_file holds.1,
    ArtifactPath.readBytes_of_file holds.2.1, bind, Except.bind]

/-- Two copies differ when their stamps do. -/
theorem differs_eq
    {previous package : ArtifactPath}
    {bundle bundle' : Bundle}
    (holds : previous.Holds bundle)
    (holds' : package.Holds bundle') :
    differs python previous package =
      .ok (decide (stamp python previous ≠ stamp python package)) := by
  rw [stamp_of_holds holds, stamp_of_holds holds']
  simp only [differs, ArtifactPath.digest, ArtifactPath.readBytes_of_file holds.1,
    ArtifactPath.readBytes_of_file holds'.1, ArtifactPath.readBytes_of_file holds.2.1,
    ArtifactPath.readBytes_of_file holds'.2.1, bind, Except.bind]
  by_cases sameDigest : python.sha256 bundle.package = python.sha256 bundle'.package <;>
    by_cases sameMetadata : bundle.metadata = bundle'.metadata <;>
    simp [sameDigest, sameMetadata]

/-- The loop accepts the package. -/
def Accepted
    (python : Python)
    (request : Request)
    (expected : Description)
    (package : ArtifactPath) :
    Prop :=
  ∃ item, Accepts python request expected package item

theorem readRecord_iff_accepts
    {package : ArtifactPath}
    {record : Json} :
    (readRecord python package (some expected) (some request.version) true = .ok record ∧
        checkScope request package record = .ok ()) ↔
      ∃ item, item.record = record ∧ Accepts python request expected package item := by
  rw [readRecord_eq_ok]
  constructor
  · rintro ⟨⟨bundle, holds, genuine⟩, inScope⟩
    exact ⟨⟨package.name, bundle, record⟩, rfl, rfl, holds, genuine, inScope⟩
  · rintro ⟨item, rfl, sameName, holds, genuine, inScope⟩
    rw [Item.IsGenuine, sameName] at genuine
    exact ⟨⟨item.bundle, holds, genuine⟩, inScope⟩

/-- The body of the loop accepts, compares and keeps. -/
theorem compares_choose :
    Compares ArtifactPath.name (choose python request expected)
      (Accepted python request expected) (stamp python) := by
  intro kept package result keptAccepted
  have compared (accepted : Accepted python request expected package) :
      compareWithKept python kept package = .ok () ↔
        ∀ other, kept.lookup package.name = some other -> stamp python other = stamp python package := by
    obtain ⟨item, _, holds, _⟩ := accepted
    unfold compareWithKept
    cases looked : kept.lookup package.name with
    | none => simp
    | some previous =>
        obtain ⟨_, _, previousHolds, _⟩ := keptAccepted previous looked
        simp [differs_eq previousHolds holds, bind_eq_ok]
  simp only [choose, bind_eq_ok, Except.ok.injEq]
  constructor
  · rintro ⟨record, read, ⟨⟩, inScope, ⟨⟩, comparison, rfl⟩
    obtain ⟨item, _, accepts⟩ := readRecord_iff_accepts.mp ⟨read, inScope⟩
    exact ⟨⟨item, accepts⟩, (compared ⟨item, accepts⟩).mp comparison, rfl⟩
  · rintro ⟨⟨item, accepts⟩, agrees, rfl⟩
    obtain ⟨read, inScope⟩ := readRecord_iff_accepts.mpr ⟨item, rfl, accepts⟩
    exact ⟨item.record, read, (), inScope, (), (compared ⟨item, accepts⟩).mpr agrees, rfl⟩

/-! ## All packages on offer -/

/-- The packages of the sources, one after the other. -/
def offered (host : Host) (request : Request) (out : Option Directory) :
    Nat -> List String -> Except Exception (List ArtifactPath)
  | _, [] => .ok []
  | index, source :: rest => do
      let packages ← sourcePackages host request out index source
      let others ← offered host request out (index + 1) rest
      .ok (packages ++ others)

theorem gather_eq_ok
    {index : Nat}
    {sources : List String}
    {result : Chosen} :
    gather python host request expected out index sources chosen = .ok result ↔
      ∃ packages, offered host request out index sources = .ok packages ∧
        packages.foldlM (choose python request expected) chosen = .ok result := by
  induction sources generalizing index chosen with
  | nil => simp [gather, offered, pure, Except.pure]
  | cons source rest inductionHypothesis =>
      simp only [gather, offered, bind_eq_ok, inductionHypothesis, Except.ok.injEq]
      constructor
      · rintro ⟨packages, opened, next, folded, others, offer, rest⟩
        refine ⟨_, ⟨packages, opened, others, offer, rfl⟩, ?_⟩
        rw [List.foldlM_append, folded]
        exact rest
      · rintro ⟨_, ⟨packages, opened, others, offer, rfl⟩, folded⟩
        rw [List.foldlM_append, bind_eq_ok] at folded
        obtain ⟨next, first, second⟩ := folded
        exact ⟨packages, opened, next, first, others, offer, second⟩

/-- What the loop has kept in the end. -/
theorem gather_empty_eq_ok
    {index : Nat}
    {sources : List String}
    {result : Chosen} :
    gather python host request expected out index sources ∅ = .ok result ↔
      ∃ packages, offered host request out index sources = .ok packages ∧
        (∀ package ∈ packages, Accepted python request expected package) ∧
        Agreeing ArtifactPath.name (stamp python) packages ∧
        result = insertAll (keyed ArtifactPath.name packages) ∅ := by
  rw [gather_eq_ok]
  exact exists_congr fun packages => and_congr_right fun _ => compares_choose.foldlM_eq_ok

/-! ## Sources on this machine -/

/-- The place of a local source in the list does not matter. -/
theorem sourcePackages_of_local
    {source : String}
    (isLocal : isRemote source = false)
    (index : Nat) :
    sourcePackages host request out index source = sourcePackages host request out 0 source := by
  simp [sourcePackages, openSource, isLocal]

/-- What local sources offer, whatever their order. -/
theorem mem_offered_of_local
    {index : Nat}
    {sources : List String}
    (areLocal : ∀ source ∈ sources, isRemote source = false)
    (offer : offered host request out index sources = .ok packages)
    (package : ArtifactPath) :
    package ∈ packages ↔
      ∃ source ∈ sources, ∃ own, sourcePackages host request out 0 source = .ok own ∧
        package ∈ own := by
  induction sources generalizing index packages with
  | nil =>
      rw [offered, Except.ok.injEq] at offer
      simp [← offer]
  | cons source rest inductionHypothesis =>
      rw [List.forall_mem_cons] at areLocal
      simp only [offered, bind_eq_ok, Except.ok.injEq, sourcePackages_of_local areLocal.1] at offer
      obtain ⟨own, opened, others, restOffer, rfl⟩ := offer
      rw [List.mem_append, inductionHypothesis areLocal.2 restOffer]
      simp [opened]

/-- Local sources offer packages when each of them does. -/
theorem offered_succeeds_iff_of_local
    {sources : List String}
    (areLocal : ∀ source ∈ sources, isRemote source = false)
    (index : Nat) :
    (∃ packages, offered host request out index sources = .ok packages) ↔
      ∀ source ∈ sources, ∃ own, sourcePackages host request out 0 source = .ok own := by
  induction sources generalizing index with
  | nil => simp [offered]
  | cons source rest inductionHypothesis =>
      rw [List.forall_mem_cons] at areLocal ⊢
      rw [← inductionHypothesis areLocal.2 (index + 1)]
      simp only [offered, bind_eq_ok, Except.ok.injEq, sourcePackages_of_local areLocal.1]
      constructor
      · rintro ⟨_, own, opened, others, offer, _⟩
        exact ⟨⟨own, opened⟩, others, offer⟩
      · rintro ⟨⟨own, opened⟩, others, offer⟩
        exact ⟨_, own, opened, others, offer, rfl⟩

/-- Two lists of the same local sources are gathered alike: both fail or both succeed, and
then they offer the same packages. -/
theorem gather_of_same_sources
    {sources sources' : List String}
    (areLocal : ∀ source ∈ sources, isRemote source = false)
    (same : ∀ source, source ∈ sources ↔ source ∈ sources')
    {result : Chosen}
    (gathered : gather python host request expected out 0 sources ∅ = .ok result) :
    ∃ packages packages',
      (∀ package, package ∈ packages ↔ package ∈ packages') ∧
      offered host request out 0 sources = .ok packages ∧
      Agreeing ArtifactPath.name (stamp python) packages' ∧
      result = insertAll (keyed ArtifactPath.name packages) ∅ ∧
      gather python host request expected out 0 sources' ∅ =
        .ok (insertAll (keyed ArtifactPath.name packages') ∅) := by
  have areLocal' : ∀ source ∈ sources', isRemote source = false :=
    fun source member => areLocal source ((same source).mpr member)
  obtain ⟨packages, offer, accepted, agreeing, rfl⟩ := gather_empty_eq_ok.mp gathered
  have opened := (offered_succeeds_iff_of_local areLocal 0).mp ⟨packages, offer⟩
  obtain ⟨packages', offer'⟩ :=
    (offered_succeeds_iff_of_local areLocal' 0).mpr fun source member =>
      opened source ((same source).mpr member)
  have samePackages : ∀ package, package ∈ packages ↔ package ∈ packages' := by
    intro package
    rw [mem_offered_of_local areLocal offer, mem_offered_of_local areLocal' offer']
    simp only [same]
  have agreeing' : Agreeing ArtifactPath.name (stamp python) packages' :=
    fun first firstMember second secondMember =>
      agreeing first ((samePackages first).mpr firstMember) second
        ((samePackages second).mpr secondMember)
  refine ⟨packages, packages', samePackages, offer, agreeing', rfl, ?_⟩
  refine gather_empty_eq_ok.mpr ⟨packages', offer', ?_, agreeing', rfl⟩
  exact fun package member => accepted package ((samePackages package).mpr member)

end Release
end MacosAuth
