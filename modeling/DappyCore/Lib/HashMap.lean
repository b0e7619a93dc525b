import Mathlib.Data.List.AList

/-!
Hash maps: finitely many keys with one value each. Mathlib's association lists give lookup,
insertion and removal; here are the operations over all entries. The order in which a hash
map is walked is unspecified, so a loop over one is given its order from outside.
-/

namespace DappyCore.Lib

abbrev HashMap (K V : Type) := AList (fun _ : K => V)

namespace HashMap

variable {K V : Type}

/-- The map with the entries that satisfy `p`. -/
def retain (p : K → V → Bool) (m : HashMap K V) : HashMap K V where
  entries := m.entries.filter fun e => p e.1 e.2
  nodupKeys := m.nodupKeys.sublist List.filter_sublist

/-- The map with every value rewritten. -/
def mapValues (f : V → V) (m : HashMap K V) : HashMap K V where
  entries := m.entries.map fun e => ⟨e.1, f e.2⟩
  nodupKeys := by
    have h := m.nodupKeys
    simpa [List.NodupKeys, List.keys, Function.comp_def] using h

/-- An order in which to walk a hash map: some permutation of its entries. -/
structure Order (K V : Type) where
  visit : HashMap K V → List (Σ _ : K, V)
  perm : ∀ m, (visit m).Perm m.entries

/-- The order in which the entries happen to be listed. -/
def Order.listed : Order K V := ⟨AList.entries, fun _ => .refl _⟩

lemma Order.nodup_keys (o : Order K V) (m : HashMap K V) : (o.visit m).NodupKeys :=
  (List.perm_nodupKeys (o.perm m)).mpr m.nodupKeys

variable [DecidableEq K]

lemma mem_entries_iff {m : HashMap K V} {k : K} {v : V} :
    (⟨k, v⟩ : Σ _ : K, V) ∈ m.entries ↔ m.lookup k = some v :=
  (List.mem_dlookup_iff m.nodupKeys).symm

lemma Order.mem_visit (o : Order K V) {m : HashMap K V} {k : K} {v : V} :
    (⟨k, v⟩ : Σ _ : K, V) ∈ o.visit m ↔ m.lookup k = some v := by
  rw [(o.perm m).mem_iff, mem_entries_iff]

@[simp] lemma lookup_mapValues (f : V → V) (m : HashMap K V) (k : K) :
    (mapValues f m).lookup k = (m.lookup k).map f :=
  @List.dlookup_map₂ K _ (fun _ => V) (fun _ => V) _ (fun _ => f) k

@[simp] lemma lookup_retain (p : K → V → Bool) (m : HashMap K V) (k : K) :
    (retain p m).lookup k = (m.lookup k).filter (p k) := by
  ext v
  rw [← mem_entries_iff, Option.filter_eq_some_iff, ← mem_entries_iff]
  simp [retain]

lemma lookup_insert_of {m : HashMap K V} {k k' : K} {v : V} :
    (m.insert k v).lookup k' = if k' = k then some v else m.lookup k' := by
  split_ifs with h
  · rw [h, AList.lookup_insert]
  · rw [AList.lookup_insert_ne h]

lemma lookup_erase_of {m : HashMap K V} {k k' : K} :
    (m.erase k).lookup k' = if k' = k then none else m.lookup k' := by
  split_ifs with h
  · rw [h, AList.lookup_erase]
  · rw [AList.lookup_erase_ne h]

end HashMap

end DappyCore.Lib
