import Mathlib.Data.List.AList

/-!
# Collecting items by key

Items with keys are put into a store one after the other, and a later item takes the place
of an earlier one with the same key.

A collection may compare every newcomer with the item that is kept for its key, and fail
when the two differ. Only the latest item is kept, but the comparison is of an equivalence,
and so the collection succeeds exactly when no two items with one key differ. This does not
depend on the order of the items or on how often an item comes.
-/

namespace Collections

variable {κ α β ε : Type} [DecidableEq κ]

/-- Put the items in, one after the other. -/
def insertAll
    (items : List (κ × α))
    (kept : AList fun _ : κ => α) :
    AList fun _ : κ => α :=
  items.foldl (fun kept item => kept.insert item.1 item.2) kept

variable {items others : List (κ × α)} {kept : AList fun _ : κ => α} {key : κ} {value : α}

@[simp] theorem insertAll_nil : insertAll [] kept = kept :=
  rfl

@[simp] theorem insertAll_cons (item : κ × α) :
    insertAll (item :: items) kept = insertAll items (kept.insert item.1 item.2) :=
  rfl

theorem insertAll_append :
    insertAll (items ++ others) kept = insertAll others (insertAll items kept) :=
  List.foldl_append

theorem lookup_insertAll_of_notMem (absent : key ∉ items.map Prod.fst) :
    (insertAll items kept).lookup key = kept.lookup key := by
  induction items generalizing kept with
  | nil => rfl
  | cons item items inductionHypothesis =>
      rw [List.map_cons, List.mem_cons, not_or] at absent
      rw [insertAll_cons, inductionHypothesis absent.2, AList.lookup_insert_ne absent.1]

/-- What is found was put in, or it was there before and nothing took its place. -/
theorem mem_of_lookup_insertAll (found : (insertAll items kept).lookup key = some value) :
    (key, value) ∈ items ∨ key ∉ items.map Prod.fst ∧ kept.lookup key = some value := by
  induction items generalizing kept with
  | nil => exact .inr ⟨by simp, found⟩
  | cons item items inductionHypothesis =>
      rcases inductionHypothesis found with member | ⟨absent, looked⟩
      · exact .inl (List.mem_cons_of_mem _ member)
      · by_cases same : key = item.1
        · subst same
          rw [AList.lookup_insert] at looked
          rw [← Option.some.inj looked]
          exact .inl List.mem_cons_self
        · rw [AList.lookup_insert_ne same] at looked
          refine .inr ⟨?_, looked⟩
          rw [List.map_cons, List.mem_cons, not_or]
          exact ⟨same, absent⟩

theorem mem_insertAll : key ∈ insertAll items kept ↔ key ∈ items.map Prod.fst ∨ key ∈ kept := by
  induction items generalizing kept with
  | nil => simp
  | cons item items inductionHypothesis =>
      rw [insertAll_cons, inductionHypothesis, AList.mem_insert, List.map_cons, List.mem_cons]
      tauto

/-- There is an item under every key that was put in. -/
theorem exists_lookup_insertAll
    (kept : AList fun _ : κ => α)
    (isKey : key ∈ items.map Prod.fst) :
    ∃ value, (insertAll items kept).lookup key = some value :=
  Option.isSome_iff_exists.mp (AList.lookup_isSome.mpr (mem_insertAll.mpr (.inl isKey)))

/-- An item is found under its key if no other item with the key has another value. -/
theorem lookup_insertAll
    (member : (key, value) ∈ items)
    (unique : ∀ other, (key, other) ∈ items -> other = value) :
    (insertAll items kept).lookup key = some value := by
  have isKey : key ∈ items.map Prod.fst := List.mem_map_of_mem member
  obtain ⟨other, found⟩ := exists_lookup_insertAll kept isKey
  rcases mem_of_lookup_insertAll found with otherMember | ⟨absent, _⟩
  · rw [found, unique other otherMember]
  · exact absurd isKey absent

/-! ## Collections that compare -/

/-- Items with their keys. -/
def keyed (keyOf : α -> κ) (items : List α) : List (κ × α) :=
  items.map fun item => (keyOf item, item)

/-- A step accepts valid items only, and it compares the newcomer with the item that is
kept for its key by their stamps. -/
def Compares
    (keyOf : α -> κ)
    (step : (AList fun _ : κ => α) -> α -> Except ε (AList fun _ : κ => α))
    (valid : α -> Prop)
    (stamp : α -> β) :
    Prop :=
  ∀ kept item result,
    (∀ other, kept.lookup (keyOf item) = some other -> valid other) ->
      (step kept item = .ok result ↔
        valid item ∧
          (∀ other, kept.lookup (keyOf item) = some other -> stamp other = stamp item) ∧
          result = kept.insert (keyOf item) item)

/-- No two of the items with one key have different stamps. -/
def Agreeing (keyOf : α -> κ) (stamp : α -> β) (items : List α) : Prop :=
  ∀ item ∈ items, ∀ other ∈ items, keyOf item = keyOf other -> stamp item = stamp other

section Comparing

variable
  {keyOf : α -> κ}
  {step : (AList fun _ : κ => α) -> α -> Except ε (AList fun _ : κ => α)}
  {valid : α -> Prop}
  {stamp : α -> β}
  {items others : List α}
  {kept result : AList fun _ : κ => α}

/-- The comparison with the latest item carries over to all earlier ones, because equal
stamps are an equivalence. -/
theorem Compares.foldlM_eq_ok_of_kept
    (compares : Compares keyOf step valid stamp)
    (keptValid : ∀ key other, kept.lookup key = some other -> valid other) :
    items.foldlM step kept = .ok result ↔
      (∀ item ∈ items, valid item) ∧
        (∀ item ∈ items, ∀ other, kept.lookup (keyOf item) = some other ->
          stamp other = stamp item) ∧
        Agreeing keyOf stamp items ∧ result = insertAll (keyed keyOf items) kept := by
  induction items generalizing kept with
  | nil => simp [Agreeing, keyed, pure, Except.pure, eq_comm]
  | cons item items inductionHypothesis =>
      have bound : (item :: items).foldlM step kept = .ok result ↔
          ∃ next, step kept item = .ok next ∧ items.foldlM step next = .ok result := by
        rw [List.foldlM_cons]
        cases step kept item <;> simp [bind, Except.bind]
      have nextValid (itemValid : valid item) : ∀ key other,
          (kept.insert (keyOf item) item).lookup key = some other -> valid other := by
        intro key other found
        by_cases same : key = keyOf item
        · subst same
          rw [AList.lookup_insert] at found
          rw [← Option.some.inj found]
          exact itemValid
        · rw [AList.lookup_insert_ne same] at found
          exact keptValid key other found
      rw [bound]
      constructor
      · rintro ⟨next, stepped, rest⟩
        obtain ⟨itemValid, agrees, rfl⟩ := (compares kept item next (keptValid _)).mp stepped
        obtain ⟨restValid, withNext, among, rfl⟩ :=
          (inductionHypothesis (nextValid itemValid)).mp rest
        have withItem : ∀ other ∈ items, keyOf other = keyOf item -> stamp item = stamp other := by
          intro other member same
          apply withNext other member
          rw [same, AList.lookup_insert]
        refine ⟨List.forall_mem_cons.mpr ⟨itemValid, restValid⟩, ?_, ?_, rfl⟩
        · rw [List.forall_mem_cons]
          refine ⟨agrees, ?_⟩
          intro other member earlier found
          by_cases same : keyOf other = keyOf item
          · rw [same] at found
            rw [agrees earlier found, withItem other member same]
          · apply withNext other member
            rwa [AList.lookup_insert_ne same]
        · intro first firstMember second secondMember same
          rcases List.mem_cons.mp firstMember with rfl | firstLater <;>
            rcases List.mem_cons.mp secondMember with rfl | secondLater
          · rfl
          · exact withItem second secondLater same.symm
          · exact (withItem first firstLater same).symm
          · exact among first firstLater second secondLater same
      · rintro ⟨allValid, withKept, among, rfl⟩
        rw [List.forall_mem_cons] at allValid withKept
        refine ⟨kept.insert (keyOf item) item,
          (compares kept item _ (keptValid _)).mpr ⟨allValid.1, withKept.1, rfl⟩, ?_⟩
        refine (inductionHypothesis (nextValid allValid.1)).mpr ⟨allValid.2, ?_, ?_, rfl⟩
        · intro other member earlier found
          by_cases same : keyOf other = keyOf item
          · rw [same, AList.lookup_insert] at found
            rw [← Option.some.inj found]
            exact among item List.mem_cons_self other (List.mem_cons_of_mem _ member) same.symm
          · rw [AList.lookup_insert_ne same] at found
            exact withKept.2 other member earlier found
        · intro first firstMember second secondMember same
          exact among first (List.mem_cons_of_mem _ firstMember) second
            (List.mem_cons_of_mem _ secondMember) same

/-- A collection into an empty store succeeds when all items are valid and those with one
key agree. -/
theorem Compares.foldlM_eq_ok (compares : Compares keyOf step valid stamp) :
    items.foldlM step ∅ = .ok result ↔
      (∀ item ∈ items, valid item) ∧ Agreeing keyOf stamp items ∧
        result = insertAll (keyed keyOf items) ∅ := by
  have nothing : ∀ key other, (∅ : AList fun _ : κ => α).lookup key = some other ->
      valid other := by
    intro key other found
    simp at found
  rw [compares.foldlM_eq_ok_of_kept nothing]
  simp

/-- What is kept is one of the items, under its key. -/
theorem mem_of_lookup_keyed
    {key : κ}
    {value : α}
    (found : (insertAll (keyed keyOf items) ∅).lookup key = some value) :
    value ∈ items ∧ keyOf value = key := by
  rcases mem_of_lookup_insertAll found with member | ⟨_, impossible⟩
  · obtain ⟨item, itemMember, same⟩ := List.mem_map.mp member
    rw [Prod.mk.injEq] at same
    obtain ⟨rfl, rfl⟩ := same
    exact ⟨itemMember, rfl⟩
  · simp at impossible

theorem mem_insertAll_keyed {key : κ} :
    key ∈ insertAll (keyed keyOf items) ∅ ↔ ∃ item ∈ items, keyOf item = key := by
  rw [mem_insertAll, keyed, List.map_map]
  simp

/-- Two agreeing collections of the same items keep items with the same stamp. -/
theorem Agreeing.lookup
    {key : κ}
    {value other : α}
    (agreeing : Agreeing keyOf stamp others)
    (same : ∀ item, item ∈ items ↔ item ∈ others)
    (found : (insertAll (keyed keyOf items) ∅).lookup key = some value)
    (otherFound : (insertAll (keyed keyOf others) ∅).lookup key = some other) :
    stamp value = stamp other := by
  obtain ⟨member, rfl⟩ := mem_of_lookup_keyed found
  obtain ⟨otherMember, sameKey⟩ := mem_of_lookup_keyed otherFound
  exact agreeing value ((same value).mp member) other otherMember sameKey.symm

end Comparing

end Collections
