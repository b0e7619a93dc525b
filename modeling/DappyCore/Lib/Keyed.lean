import Mathlib.Data.List.Nodup
import Mathlib.Data.List.Perm.Basic
import Mathlib.Data.List.Induction

/-!
Lists of entries with keys: sorted by key, and filled so that of several entries with one key the
last stays.
-/

namespace DappyCore.Lib.Keyed

variable {α κ : Type}

/-! ### Sorting -/

/-- A total order, as a test. -/
structure OrderTest (le : κ → κ → Bool) : Prop where
  total : ∀ a b, le a b || le b a
  trans : ∀ {a b c}, le a b → le b c → le a c
  antisymm : ∀ {a b}, le a b → le b a → a = b

lemma orderTest_le : OrderTest fun a b : String => decide (a ≤ b) where
  total a b := by simpa using String.le_total a b
  trans hab hbc := decide_eq_true (String.le_trans (of_decide_eq_true hab) (of_decide_eq_true hbc))
  antisymm hab hba := String.le_antisymm (of_decide_eq_true hab) (of_decide_eq_true hba)

/-- Entries with one key stay in their order. -/
def sortBy (le : κ → κ → Bool) (key : α → κ) (l : List α) : List α :=
  l.mergeSort fun a b => le (key a) (key b)

section Sorting

variable {le : κ → κ → Bool} {key : α → κ} {l l₁ l₂ : List α}

lemma sortBy_perm (l : List α) : (sortBy le key l).Perm l := List.mergeSort_perm ..

lemma pairwise_sortBy (hle : OrderTest le) (l : List α) :
    (sortBy le key l).Pairwise fun a b => le (key a) (key b) := by
  have htrans (a b c : α) : le (key a) (key b) → le (key b) (key c) → le (key a) (key c) :=
    hle.trans
  exact List.pairwise_mergeSort htrans (fun a b => hle.total (key a) (key b)) l

/-- Where no two have one key, none stands beside its like. -/
lemma pairwise_sortBy_of_nodup (hle : OrderTest le) (h : (l.map key).Nodup) :
    (sortBy le key l).Pairwise fun a b => le (key a) (key b) ∧ key a ≠ key b := by
  have hne : ((sortBy le key l).map key).Nodup := ((sortBy_perm l).map key).nodup_iff.mpr h
  rw [List.Nodup, List.pairwise_map] at hne
  exact (pairwise_sortBy hle l).and hne

/-- **Entries with one key** are not rearranged. -/
theorem filter_sortBy [DecidableEq κ] (hle : OrderTest le) (k : κ) (l : List α) :
    (sortBy le key l).filter (key · = k) = l.filter (key · = k) := by
  have hrefl : ∀ a, le a a := fun a => by simpa using hle.total a a
  have hpair : (l.filter (key · = k)).Pairwise fun a b => le (key a) (key b) := by
    refine List.pairwise_of_forall_mem_list fun a ha b hb => ?_
    have hka : key a = k := by simpa using (List.mem_filter.mp ha).2
    have hkb : key b = k := by simpa using (List.mem_filter.mp hb).2
    rw [hka, hkb]
    exact hrefl k
  have htrans (a b c : α) : le (key a) (key b) → le (key b) (key c) → le (key a) (key c) :=
    hle.trans
  have hsub : (l.filter (key · = k)).Sublist (sortBy le key l) :=
    List.sublist_mergeSort htrans (fun a b => hle.total (key a) (key b)) hpair List.filter_sublist
  have hfilter := hsub.filter (key · = k)
  rw [List.filter_filter] at hfilter
  simp only [Bool.and_self] at hfilter
  exact (hfilter.eq_of_length ((sortBy_perm l).filter _).length_eq.symm).symm

/-- **The order in which entries come** is lost where no two have one key. -/
theorem sortBy_eq_of_perm (hle : OrderTest le) (h : l₁.Perm l₂)
    (hkey : ∀ a ∈ l₁, ∀ b ∈ l₁, key a = key b → a = b) :
    sortBy le key l₁ = sortBy le key l₂ := by
  have hperm : (sortBy le key l₁).Perm (sortBy le key l₂) :=
    (sortBy_perm l₁).trans (h.trans (sortBy_perm l₂).symm)
  refine List.Perm.eq_of_pairwise ?_ (pairwise_sortBy hle l₁) (pairwise_sortBy hle l₂) hperm
  intro a b ha hb hab hba
  refine hkey a ((sortBy_perm l₁).mem_iff.mp ha) b ?_ (hle.antisymm hab hba)
  exact h.mem_iff.mpr ((sortBy_perm l₂).mem_iff.mp hb)

/-- Where what is found in an item leads back to it, what is found in all leads back to some. -/
lemma map_filterMap_sublist {f : κ → Option α} (h : ∀ k a, f k = some a → key a = k)
    (l : List κ) : ((l.filterMap f).map key).Sublist l := by
  induction l with
  | nil => simp
  | cons k l ih =>
    cases hf : f k with
    | none =>
      rw [List.filterMap_cons_none hf]
      exact ih.cons k
    | some a =>
      rw [List.filterMap_cons_some hf, List.map_cons, h k a hf]
      exact ih.cons_cons k

end Sorting

/-! ### Filling -/

variable [DecidableEq κ] {key : α → κ}

/-- An entry takes the last place, and the place of those with its key. -/
def put (key : α → κ) (l : List α) (a : α) : List α := l.filter (key · ≠ key a) ++ [a]

def find (key : α → κ) (l : List α) (k : κ) : Option α := l.find? (key · = k)

lemma nodup_put {l : List α} (h : (l.map key).Nodup) (a : α) : ((put key l a).map key).Nodup := by
  rw [put, List.map_append, List.map_singleton, List.nodup_append]
  refine ⟨h.sublist (List.Sublist.map _ List.filter_sublist), List.nodup_singleton _, ?_⟩
  intro k hk k' hk' heq
  obtain ⟨b, hb, rfl⟩ := List.mem_map.mp hk
  have hne : key b ≠ key a := by simpa using (List.mem_filter.mp hb).2
  exact hne (heq.trans (List.mem_singleton.mp hk'))

lemma find_put (l : List α) (a : α) (k : κ) :
    find key (put key l a) k = if key a = k then some a else find key l k := by
  have hfind : [a].find? (key · = k) = if key a = k then some a else none := by
    rw [List.find?_cons]
    by_cases h : key a = k <;> simp [h]
  unfold find put
  rw [List.find?_append, hfind]
  by_cases h : key a = k
  · have hnone : (l.filter (key · ≠ key a)).find? (key · = k) = none := by
      refine List.find?_eq_none.mpr fun b hb => ?_
      simpa [h] using (List.mem_filter.mp hb).2
    rw [hnone, if_pos h, if_pos h, Option.none_or]
  · have hsame : (l.filter (key · ≠ key a)).find? (key · = k) = l.find? (key · = k) := by
      rw [List.find?_filter]
      congr 1
      funext b
      by_cases hb : key b = k
      · simp [hb, Ne.symm h]
      · simp [hb]
    rw [hsame, if_neg h, if_neg h, Option.or_none]

/-- **What is put last** for a key is found. -/
theorem find_foldl_put (as l : List α) (k : κ) : find key (as.foldl (put key) l) k =
    (as.filter (key · = k)).getLast?.or (find key l k) := by
  induction as generalizing l with
  | nil => rfl
  | cons a as ih =>
    rw [List.foldl_cons, ih, find_put, List.filter_cons]
    by_cases h : key a = k
    · rw [if_pos h, if_pos (decide_eq_true h), List.getLast?_cons]
      cases (as.filter (key · = k)).getLast? <;> rfl
    · rw [if_neg h, if_neg (by simpa using h)]

/-- **An entry that comes last** is found, though they are sorted before they are put. -/
theorem find_last {le : κ → κ → Bool} (hle : OrderTest le) (as l : List α) (a : α) :
    find key ((sortBy le key (as ++ [a])).foldl (put key) l) (key a) = some a := by
  rw [find_foldl_put, filter_sortBy hle, List.filter_append]
  simp

/-- **Put again**, an entry loses its place to one behind it: what a test finds first stays the
same unless it was this entry, and another passes the test too. -/
theorem find?_put_eq_iff {l : List α} {a : α} {p : α → Bool} (hnd : (l.map key).Nodup)
    (ha : a ∈ l) : (put key l a).find? p = l.find? p ↔
      ¬ (l.find? p = some a ∧ ∃ b ∈ l, key b ≠ key a ∧ p b) := by
  obtain ⟨before, after, rfl⟩ := List.append_of_mem ha
  -- no other entry has the key
  have hkeys : (before ++ after).filter (key · ≠ key a) = before ++ after := by
    refine List.filter_eq_self.mpr fun b hb => ?_
    have hnot := (List.nodup_cons.mp ((List.perm_middle.map key).nodup hnd)).1
    have hb' : key b ≠ key a := fun e => hnot (e ▸ List.mem_map_of_mem hb)
    simpa using hb'
  have hput : put key (before ++ a :: after) a = before ++ after ++ [a] := by
    rw [put, List.filter_append, List.filter_cons_of_neg (by simp), ← List.filter_append, hkeys]
  have hne {b : α} (hb : b ∈ before ++ after) : key b ≠ key a := by
    have hmem := List.of_mem_filter (hkeys ▸ hb)
    simpa using hmem
  rw [hput, List.find?_append, List.find?_append, List.find?_append, List.find?_cons,
    List.find?_cons]
  cases hbefore : before.find? p with
  | some b =>
    -- an entry before it is found first, and stays so
    have hb := hne (List.mem_append_left after (List.mem_of_find?_eq_some hbefore))
    refine iff_of_true rfl ?_
    rintro ⟨he, -⟩
    exact hb (congrArg key (Option.some.inj he))
  | none =>
    cases hp : p a with
    | false =>
      -- the entry is never found
      refine iff_of_true (by simp) ?_
      rintro ⟨he, -⟩
      rw [Option.none_or] at he
      have hpa := List.find?_some he
      rw [hp] at hpa
      cases hpa
    | true =>
      cases hafter : after.find? p with
      | none =>
        -- it is the only one to pass
        refine iff_of_true rfl ?_
        rintro ⟨-, b, hb, hkey, hpb⟩
        rcases List.mem_append.mp hb with hb | hb
        · exact List.find?_eq_none.mp hbefore b hb hpb
        · rcases List.mem_cons.mp hb with rfl | hb
          · exact hkey rfl
          · exact List.find?_eq_none.mp hafter b hb hpb
      | some b =>
        -- it is found first, and then the one behind it
        have hb := List.mem_of_find?_eq_some hafter
        have hkey := hne (List.mem_append_right before hb)
        refine iff_of_false (fun he => hkey (congrArg key (Option.some.inj he))) ?_
        refine not_not_intro ⟨rfl, b, ?_, hkey, List.find?_some hafter⟩
        exact List.mem_append_right before (List.mem_cons_of_mem a hb)

/-- What leaves the keys alone may be done before or after. -/
lemma map_put {f : α → α} (hf : ∀ a, key (f a) = key a) (l : List α) (a : α) :
    (put key l a).map f = put key (l.map f) (f a) := by
  rw [put, put, List.map_append, List.map_singleton, List.filter_map, hf]
  congr 2
  refine List.filter_congr fun b _ => ?_
  rw [Function.comp_apply, hf]

lemma map_foldl_put {f : α → α} (hf : ∀ a, key (f a) = key a) (as l : List α) :
    (as.foldl (put key) l).map f = (as.map f).foldl (put key) (l.map f) := by
  induction as generalizing l with
  | nil => rfl
  | cons a as ih => rw [List.foldl_cons, ih, map_put hf, List.map_cons, List.foldl_cons]

/-- Entries of different keys are put one behind the other. -/
lemma foldl_put_of_nodup {as l : List α} (h : ((l ++ as).map key).Nodup) :
    as.foldl (put key) l = l ++ as := by
  induction as generalizing l with
  | nil => simp
  | cons a as ih =>
    have hput : put key l a = l ++ [a] := by
      rw [put, List.filter_eq_self.mpr]
      intro b hb
      rw [List.map_append, List.nodup_append] at h
      have hne := h.2.2 (key b) (List.mem_map_of_mem hb) (key a) (by simp)
      simpa using hne
    have happend : l ++ a :: as = l ++ [a] ++ as := by simp
    rw [List.foldl_cons, hput, happend]
    exact ih (happend ▸ h)

/-- Of the entries of a key the last stays. -/
lemma filter_foldl_put (as : List α) (k : κ) :
    (as.foldl (put key) []).filter (key · = k) = (as.filter (key · = k)).getLast?.toList := by
  induction as using List.reverseRecOn with
  | nil => rfl
  | append_singleton as a ih =>
    rw [List.foldl_append, List.foldl_cons, List.foldl_nil, put, List.filter_append,
      List.filter_filter, List.filter_append]
    by_cases hk : key a = k
    · have hnone : (as.foldl (put key) []).filter
          (fun b => decide (key b = k) && decide (key b ≠ key a)) = [] := by
        refine List.filter_eq_nil_iff.mpr fun b _ => ?_
        simp [hk]
      rw [hnone]
      simp [hk]
    · have hsame : (as.foldl (put key) []).filter
          (fun b => decide (key b = k) && decide (key b ≠ key a)) =
            (as.foldl (put key) []).filter (key · = k) := by
        refine List.filter_congr fun b _ => ?_
        by_cases hb : key b = k
        · simp [hb, Ne.symm hk]
        · simp [hb]
      rw [hsame, ih]
      simp [hk]

end DappyCore.Lib.Keyed
