import DurableActors.Data.Json
import DurableActors.Data.KeyOrder

/-!
# JSON documents up to the order of keys

Two documents are the same up to the order of keys when they agree after the fields of their objects
have been reordered, at every depth.  Reading a document into maps that are kept in key order gives
one representative of each class.

Main results:

- Theorem {lit}`canonical_eq_of_sorted`: a document in key order is its own representative.
- Theorem {lit}`same_iff`: documents are the same exactly when their representatives are equal.
-/

namespace Json

open KeyOrder

variable {ν : Type}

/-! ## Definitions -/

mutual
/-- The keys of every object are distinct. -/
def Distinct : Json ν → Prop
  | array items => DistinctItems items
  | object fields => (fields.map Prod.fst).Nodup ∧ DistinctFields fields
  | _ => True

def DistinctItems : List (Json ν) → Prop
  | [] => True
  | item :: items => Distinct item ∧ DistinctItems items

def DistinctFields : List (String × Json ν) → Prop
  | [] => True
  | (_, value) :: fields => Distinct value ∧ DistinctFields fields
end

mutual
/-- The keys of every object increase strictly. -/
def Sorted : Json ν → Prop
  | array items => SortedItems items
  | object fields => KeyOrdered fields ∧ SortedFields fields
  | _ => True

def SortedItems : List (Json ν) → Prop
  | [] => True
  | item :: items => Sorted item ∧ SortedItems items

def SortedFields : List (String × Json ν) → Prop
  | [] => True
  | (_, value) :: fields => Sorted value ∧ SortedFields fields
end

mutual
/-- The document with every object read into a map in key order. -/
def canonical : Json ν → Json ν
  | null => null
  | boolean value => boolean value
  | number value => number value
  | string text => string text
  | array items => array (canonicalItems items)
  | object fields => object (collect (canonicalFields fields))

def canonicalItems : List (Json ν) → List (Json ν)
  | [] => []
  | item :: items => canonical item :: canonicalItems items

def canonicalFields : List (String × Json ν) → List (String × Json ν)
  | [] => []
  | (key, value) :: fields => (key, canonical value) :: canonicalFields fields
end

mutual
/-- The documents are equal up to the order of the fields of their objects. -/
def Same : Json ν → Json ν → Prop
  | array items, other => ∃ items', other = array items' ∧ SameItems items items'
  | object fields, other =>
      ∃ fields' reordered, other = object fields' ∧ fields'.Perm reordered ∧
        SameFields fields reordered
  | scalar, other => scalar = other

def SameItems : List (Json ν) → List (Json ν) → Prop
  | [], items' => items' = []
  | item :: items, items' =>
      ∃ item' rest, items' = item' :: rest ∧ Same item item' ∧ SameItems items rest

/-- The fields have the same keys in the same order, and their values are the same. -/
def SameFields : List (String × Json ν) → List (String × Json ν) → Prop
  | [], fields' => fields' = []
  | (key, value) :: fields, fields' =>
      ∃ value' rest, fields' = (key, value') :: rest ∧ Same value value' ∧ SameFields fields rest
end

/-! ## Fields -/

variable {items items' : List (Json ν)} {fields fields' : List (String × Json ν)}

theorem canonicalFields_eq_map (fields : List (String × Json ν)) :
    canonicalFields fields = fields.map fun field => (field.1, canonical field.2) := by
  induction fields with
  | nil => rfl
  | cons field fields ih => rw [canonicalFields, ih, List.map_cons]

theorem map_fst_canonicalFields (fields : List (String × Json ν)) :
    (canonicalFields fields).map Prod.fst = fields.map Prod.fst := by
  rw [canonicalFields_eq_map, List.map_map]
  rfl

theorem sortedFields_iff : SortedFields fields ↔ ∀ field ∈ fields, Sorted field.2 := by
  induction fields with
  | nil => simp [SortedFields]
  | cons field fields ih => rw [SortedFields, ih, List.forall_mem_cons]

theorem distinctFields_iff : DistinctFields fields ↔ ∀ field ∈ fields, Distinct field.2 := by
  induction fields with
  | nil => simp [DistinctFields]
  | cons field fields ih => rw [DistinctFields, ih, List.forall_mem_cons]

/-! ## Documents in key order -/

mutual
theorem sorted_canonical : (document : Json ν) → Sorted (canonical document)
  | null | boolean _ | number _ | string _ => by simp [canonical, Sorted]
  | array items => by
    simp only [canonical, Sorted]
    exact sortedItems_canonicalItems items
  | object fields => by
    simp only [canonical, Sorted]
    refine ⟨keyOrdered_collect _, sortedFields_iff.mpr fun field hfield => ?_⟩
    exact sortedFields_iff.mp (sortedFields_canonicalFields fields) field (mem_of_collect hfield)

theorem sortedItems_canonicalItems : (items : List (Json ν)) → SortedItems (canonicalItems items)
  | [] => trivial
  | item :: items => ⟨sorted_canonical item, sortedItems_canonicalItems items⟩

theorem sortedFields_canonicalFields :
    (fields : List (String × Json ν)) → SortedFields (canonicalFields fields)
  | [] => trivial
  | (_, value) :: fields => ⟨sorted_canonical value, sortedFields_canonicalFields fields⟩
end

mutual
/-- A document in key order is its own representative. -/
theorem canonical_eq_of_sorted : {document : Json ν} → Sorted document →
    canonical document = document
  | null, _ | boolean _, _ | number _, _ | string _, _ => rfl
  | array items, h => by
    rw [canonical, canonicalItems_eq_of_sorted h]
  | object fields, h => by
    rw [canonical, canonicalFields_eq_of_sorted h.2, h.1.collect_eq]

theorem canonicalItems_eq_of_sorted : {items : List (Json ν)} → SortedItems items →
    canonicalItems items = items
  | [], _ => rfl
  | item :: items, h => by
    rw [canonicalItems, canonical_eq_of_sorted h.1, canonicalItems_eq_of_sorted h.2]

theorem canonicalFields_eq_of_sorted : {fields : List (String × Json ν)} → SortedFields fields →
    canonicalFields fields = fields
  | [], _ => rfl
  | (key, value) :: fields, h => by
    rw [canonicalFields, canonical_eq_of_sorted h.1, canonicalFields_eq_of_sorted h.2]
end

mutual
theorem Sorted.distinct : {document : Json ν} → Sorted document → Distinct document
  | null, _ | boolean _, _ | number _, _ | string _, _ => trivial
  | array _, h => SortedItems.distinctItems h
  | object _, h => ⟨h.1.nodup_keys, SortedFields.distinctFields h.2⟩

theorem SortedItems.distinctItems : {items : List (Json ν)} → SortedItems items →
    DistinctItems items
  | [], _ => trivial
  | _ :: _, h => ⟨Sorted.distinct h.1, SortedItems.distinctItems h.2⟩

theorem SortedFields.distinctFields : {fields : List (String × Json ν)} → SortedFields fields →
    DistinctFields fields
  | [], _ => trivial
  | _ :: _, h => ⟨Sorted.distinct h.1, SortedFields.distinctFields h.2⟩
end

/-! ## Representatives -/

/-- Objects have equal representatives exactly when their fields do, after a reordering. -/
theorem collect_canonicalFields_eq_iff (hkeys : (fields.map Prod.fst).Nodup)
    (hkeys' : (fields'.map Prod.fst).Nodup) :
    collect (canonicalFields fields) = collect (canonicalFields fields') ↔
      ∃ reordered, fields'.Perm reordered ∧ canonicalFields fields = canonicalFields reordered := by
  have hcanonical : ((canonicalFields fields).map Prod.fst).Nodup := by
    rwa [map_fst_canonicalFields]
  have hcanonical' : ((canonicalFields fields').map Prod.fst).Nodup := by
    rwa [map_fst_canonicalFields]
  constructor
  · intro h
    have hperm : (canonicalFields fields).Perm (canonicalFields fields') := by
      have hcollected := collect_perm hcanonical'
      rw [← h] at hcollected
      exact (collect_perm hcanonical).symm.trans hcollected
    rw [canonicalFields_eq_map fields'] at hperm
    have hcomp := congrFun (congrFun
      (List.eq_map_comp_perm fun field : String × Json ν => (field.1, canonical field.2))
      (canonicalFields fields)) fields'
    obtain ⟨reordered, heq, hreordered⟩ := hcomp.mpr hperm
    exact ⟨reordered, hreordered.symm, heq.trans (canonicalFields_eq_map reordered).symm⟩
  · rintro ⟨reordered, hperm, heq⟩
    rw [heq]
    have hfields : (canonicalFields fields').Perm (canonicalFields reordered) := by
      rw [canonicalFields_eq_map, canonicalFields_eq_map]
      exact hperm.map _
    exact (collect_congr hfields hcanonical').symm

mutual
/-- Documents are the same exactly when their representatives are equal. -/
theorem same_iff : {document other : Json ν} → Distinct document → Distinct other →
    (Same document other ↔ canonical document = canonical other)
  | null, other, _, _ => by cases other <;> simp [Same, canonical]
  | boolean _, other, _, _ => by cases other <;> simp [Same, canonical]
  | number _, other, _, _ => by cases other <;> simp [Same, canonical]
  | string _, other, _, _ => by cases other <;> simp [Same, canonical]
  | array items, array items', h, h' => by
    simp only [Same, canonical, array.injEq]
    rw [← sameItems_iff h h']
    simp
  | object fields, object fields', h, h' => by
    simp only [Same, canonical, object.injEq]
    rw [collect_canonicalFields_eq_iff h.1 h'.1]
    constructor
    · rintro ⟨_, reordered, rfl, hperm, hsame⟩
      refine ⟨reordered, hperm, (sameFields_iff h.2 ?_).mp hsame⟩
      exact distinctFields_iff.mpr fun field hfield =>
        distinctFields_iff.mp h'.2 field (hperm.mem_iff.mpr hfield)
    · rintro ⟨reordered, hperm, heq⟩
      refine ⟨fields', reordered, rfl, hperm, (sameFields_iff h.2 ?_).mpr heq⟩
      exact distinctFields_iff.mpr fun field hfield =>
        distinctFields_iff.mp h'.2 field (hperm.mem_iff.mpr hfield)
  | array _, null, _, _ | array _, boolean _, _, _ | array _, number _, _, _
  | array _, string _, _, _ | array _, object _, _, _ => by simp [Same, canonical]
  | object _, null, _, _ | object _, boolean _, _, _ | object _, number _, _, _
  | object _, string _, _, _ | object _, array _, _, _ => by simp [Same, canonical]

theorem sameItems_iff : {items items' : List (Json ν)} → DistinctItems items →
    DistinctItems items' → (SameItems items items' ↔ canonicalItems items = canonicalItems items')
  | [], [], _, _ => by simp [SameItems]
  | [], _ :: _, _, _ => by simp [SameItems, canonicalItems]
  | _ :: _, [], _, _ => by simp [SameItems, canonicalItems]
  | item :: items, item' :: items', h, h' => by
    simp only [canonicalItems, List.cons.injEq]
    rw [← same_iff h.1 h'.1, ← sameItems_iff h.2 h'.2]
    simp [SameItems]

theorem sameFields_iff : {fields fields' : List (String × Json ν)} → DistinctFields fields →
    DistinctFields fields' →
    (SameFields fields fields' ↔ canonicalFields fields = canonicalFields fields')
  | [], [], _, _ => by simp [SameFields]
  | [], _ :: _, _, _ => by simp [SameFields, canonicalFields]
  | _ :: _, [], _, _ => by simp [SameFields, canonicalFields]
  | (key, value) :: fields, (key', value') :: fields', h, h' => by
    simp only [canonicalFields, List.cons.injEq, Prod.mk.injEq]
    rw [← same_iff h.1 h'.1, ← sameFields_iff h.2 h'.2]
    simp only [SameFields, List.cons.injEq, Prod.mk.injEq]
    constructor
    · rintro ⟨_, _, ⟨⟨rfl, rfl⟩, rfl⟩, hvalue, hfields⟩
      exact ⟨⟨rfl, hvalue⟩, hfields⟩
    · rintro ⟨⟨rfl, hvalue⟩, hfields⟩
      exact ⟨_, _, ⟨⟨rfl, rfl⟩, rfl⟩, hvalue, hfields⟩
end

/-- A document is the same as its representative. -/
theorem same_canonical {document : Json ν} (h : Distinct document) :
    Same document (canonical document) := by
  have hsorted := sorted_canonical document
  rw [same_iff h hsorted.distinct, canonical_eq_of_sorted hsorted]

end Json
