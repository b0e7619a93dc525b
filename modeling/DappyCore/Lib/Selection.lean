import Mathlib.Data.List.Basic
import Mathlib.Data.List.Perm.Basic

/-!
Reading a selection: each source has items, one of them at most is chosen, and what is chosen is
read until something cannot be.
-/

namespace DappyCore.Lib.Selection

variable {σ α β ε : Type}

/-! ### Reading -/

section Reading

variable {read : α → Except ε β} {l : List α} {out : List β}

lemma mapM_cons_eq_ok {a : α} : (a :: l).mapM read = .ok out ↔
    ∃ b bs, read a = .ok b ∧ l.mapM read = .ok bs ∧ out = b :: bs := by
  rw [List.mapM_cons]
  cases read a with
  | error e => exact ⟨nofun, fun ⟨_, _, h, _⟩ => nomatch h⟩
  | ok b =>
    cases l.mapM read with
    | error e => exact ⟨nofun, fun ⟨_, _, _, h, _⟩ => nomatch h⟩
    | ok bs =>
      constructor
      · intro h
        exact ⟨b, bs, rfl, rfl, (Except.ok.inj h).symm⟩
      · rintro ⟨_, _, h, hs, rfl⟩
        cases h
        cases hs
        rfl

/-- **All is read** where each item is. -/
theorem mapM_eq_ok_iff : l.mapM read = .ok out ↔ l.map read = out.map .ok := by
  induction l generalizing out with
  | nil =>
    rw [List.mapM_nil, List.map_nil]
    cases out with
    | nil => exact ⟨fun _ => rfl, fun _ => rfl⟩
    | cons b out => exact ⟨nofun, nofun⟩
  | cons a l ih =>
    rw [mapM_cons_eq_ok, List.map_cons]
    constructor
    · rintro ⟨b, bs, hb, hbs, rfl⟩
      rw [hb, ih.mp hbs, List.map_cons]
    · intro h
      cases out with
      | nil => cases h
      | cons b out =>
        obtain ⟨hb, hbs⟩ := List.cons.inj h
        exact ⟨b, out, hb, ih.mpr hbs, rfl⟩

lemma isOk_of_mapM (h : l.mapM read = .ok out) {a : α} (ha : a ∈ l) : (read a).isOk := by
  have hmem : read a ∈ out.map .ok := mapM_eq_ok_iff.mp h ▸ List.mem_map_of_mem ha
  obtain ⟨b, -, hb⟩ := List.mem_map.mp hmem
  rw [← hb]
  rfl

/-- What can be read, of what there is. -/
lemma mapM_filter_isOk (read : α → Except ε β) (l : List α) :
    (l.filter fun a => (read a).isOk).mapM read = .ok (l.filterMap fun a => (read a).toOption) := by
  rw [mapM_eq_ok_iff]
  induction l with
  | nil => rfl
  | cons a l ih =>
    rw [List.filter_cons, List.filterMap_cons]
    cases h : read a with
    | error e => exact ih
    | ok b => simpa [Except.isOk, Except.toBool, Except.toOption, h] using ih

lemma mapM_of_isOk (h : ∀ a ∈ l, (read a).isOk) :
    l.mapM read = .ok (l.filterMap fun a => (read a).toOption) := by
  have hall := mapM_filter_isOk read l
  rwa [List.filter_eq_self.mpr h] at hall

end Reading

/-! ### Choosing -/

section Lengths

variable {a b : σ → List α} {l : List σ}

lemma length_flatMap_le (hle : ∀ s ∈ l, (a s).length ≤ (b s).length) :
    (l.flatMap a).length ≤ (l.flatMap b).length := by
  induction l with
  | nil => exact Nat.le_refl _
  | cons s l ih =>
    obtain ⟨hs, hl⟩ := List.forall_mem_cons.mp hle
    have hrest := ih hl
    simp only [List.flatMap_cons, List.length_append]
    omega

/-- Where as much comes of all sources as there is to come, it comes of each. -/
lemma length_eq_of_flatMap (hle : ∀ s ∈ l, (a s).length ≤ (b s).length)
    (h : (l.flatMap a).length = (l.flatMap b).length) :
    ∀ s ∈ l, (a s).length = (b s).length := by
  induction l with
  | nil => simp
  | cons s l ih =>
    obtain ⟨hs, hl⟩ := List.forall_mem_cons.mp hle
    have hrest := length_flatMap_le hl
    simp only [List.flatMap_cons, List.length_append] at h
    exact List.forall_mem_cons.mpr ⟨by omega, ih hl (by omega)⟩

lemma eq_of_length_flatMap (hsub : ∀ s ∈ l, (a s).Sublist (b s))
    (h : (l.flatMap a).length = (l.flatMap b).length) : ∀ s ∈ l, a s = b s := by
  intro s hs
  exact (hsub s hs).eq_of_length (length_eq_of_flatMap (fun s hs => (hsub s hs).length_le) h s hs)

end Lengths

lemma filterMap_eq_flatMap_toList (chosen : σ → Option α) (l : List σ) :
    l.filterMap chosen = l.flatMap fun s => (chosen s).toList := by
  induction l with
  | nil => rfl
  | cons s l ih =>
    rw [List.filterMap_cons, List.flatMap_cons, ih]
    cases chosen s <;> rfl

variable {chosen : σ → Option α} {items : σ → List α} {read : α → Except ε β} {sources : List σ}

/-- **A selection is complete**, so that what is read is all that can be, exactly where in each
source that which can be read is what is chosen. -/
theorem complete_iff (hchosen : ∀ s ∈ sources, ∀ a ∈ chosen s, a ∈ items s) :
    (∃ out, (sources.filterMap chosen).mapM read = .ok out ∧
      out.Perm ((sources.flatMap items).filterMap fun a => (read a).toOption)) ↔
    ∀ s ∈ sources, (items s).filter (fun a => (read a).isOk) = (chosen s).toList := by
  have hfilter : (sources.flatMap items).filter (fun a => (read a).isOk) =
      sources.flatMap fun s => (items s).filter fun a => (read a).isOk := List.filter_flatMap ..
  rw [filterMap_eq_flatMap_toList]
  constructor
  · rintro ⟨out, hread, hperm⟩ s hs
    have hsub : ∀ s ∈ sources,
        (chosen s).toList.Sublist ((items s).filter fun a => (read a).isOk) := by
      intro s hs
      cases hc : chosen s with
      | none => exact List.nil_sublist _
      | some a =>
        have hmem : a ∈ sources.flatMap fun s => (chosen s).toList :=
          List.mem_flatMap.mpr ⟨s, hs, by simp [hc]⟩
        rw [Option.toList_some, List.singleton_sublist, List.mem_filter]
        exact ⟨hchosen s hs a hc, isOk_of_mapM hread hmem⟩
    have hlen : (sources.flatMap fun s => (chosen s).toList).length =
        (sources.flatMap fun s => (items s).filter fun a => (read a).isOk).length := by
      have hchosenLen := congrArg List.length (mapM_eq_ok_iff.mp hread)
      have hitemsLen := congrArg List.length (mapM_eq_ok_iff.mp
        (mapM_filter_isOk read (sources.flatMap items)))
      rw [List.length_map, List.length_map] at hchosenLen hitemsLen
      rw [← hfilter, hchosenLen, hitemsLen, hperm.length_eq]
    exact (eq_of_length_flatMap hsub hlen s hs).symm
  · intro h
    have hall : (sources.flatMap fun s => (chosen s).toList) =
        (sources.flatMap items).filter fun a => (read a).isOk := by
      rw [hfilter]
      exact List.flatMap_congr fun s hs => (h s hs).symm
    exact ⟨_, hall ▸ mapM_filter_isOk _ _, .refl _⟩

end DappyCore.Lib.Selection
