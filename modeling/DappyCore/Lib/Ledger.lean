import DappyCore.Lib.HashMap

/-!
A ledger of numbered requests: all that were issued, in order, and those still open. As long
as every number is above the ones before it, a number says which request is meant.
-/

namespace DappyCore.Lib

structure Ledger (ρ : Type) where
  issued : List (ℤ × ρ)
  outstanding : HashMap ℤ ρ

namespace Ledger

variable {ρ : Type}

def new : Ledger ρ := ⟨[], ∅⟩

def issue (l : Ledger ρ) (n : ℤ) (r : ρ) : Ledger ρ :=
  ⟨l.issued ++ [(n, r)], l.outstanding.insert n r⟩

def close (l : Ledger ρ) (n : ℤ) : Ledger ρ := { l with outstanding := l.outstanding.erase n }

/-- The numbers go up, none is above `top`, and what is open was issued. -/
structure Fresh (l : Ledger ρ) (top : ℤ) : Prop where
  le_top : ∀ e ∈ l.issued, e.1 ≤ top
  increasing : l.issued.Pairwise (·.1 < ·.1)
  mem_issued : ∀ n r, l.outstanding.lookup n = some r → (n, r) ∈ l.issued

variable {l : Ledger ρ} {top n : ℤ} {r : ρ}

lemma mem_issue {n' : ℤ} {r' : ρ} :
    (n', r') ∈ (l.issue n r).issued ↔ (n', r') ∈ l.issued ∨ n' = n ∧ r' = r := by
  simp [issue]

lemma lookup_issue (n' : ℤ) :
    (l.issue n r).outstanding.lookup n' =
      if n' = n then some r else l.outstanding.lookup n' :=
  HashMap.lookup_insert_of

lemma lookup_close (n' : ℤ) :
    (l.close n).outstanding.lookup n' = if n' = n then none else l.outstanding.lookup n' :=
  HashMap.lookup_erase_of

lemma fresh_new (top : ℤ) : (new : Ledger ρ).Fresh top where
  le_top := by simp [new]
  increasing := by simp [new]
  mem_issued := by simp [new]

lemma Fresh.mono (h : l.Fresh top) {top' : ℤ} (hle : top ≤ top') : l.Fresh top' where
  le_top e he := by
    have h1 := h.le_top e he
    omega
  increasing := h.increasing
  mem_issued := h.mem_issued

lemma Fresh.issue (h : l.Fresh top) (hn : top < n) (r : ρ) : (l.issue n r).Fresh n where
  le_top := by
    intro e he
    rcases List.mem_append.mp he with he | he
    · have h1 := h.le_top e he
      omega
    · obtain rfl := List.mem_singleton.mp he
      exact Int.le_refl n
  increasing := by
    refine List.pairwise_append.mpr ⟨h.increasing, by simp, ?_⟩
    intro e he e' he'
    obtain rfl := List.mem_singleton.mp he'
    have h1 := h.le_top e he
    show e.1 < n
    omega
  mem_issued := by
    intro n' r' hr
    rw [lookup_issue] at hr
    split_ifs at hr with e
    · obtain rfl := Option.some.inj hr
      exact List.mem_append_right _ (e ▸ List.mem_singleton_self _)
    · exact List.mem_append_left _ (h.mem_issued n' r' hr)

lemma Fresh.close (h : l.Fresh top) (n : ℤ) : (l.close n).Fresh top where
  le_top := h.le_top
  increasing := h.increasing
  mem_issued := by
    intro n' r' hr
    rw [lookup_close] at hr
    split_ifs at hr
    exact h.mem_issued n' r' hr

/-- A number says which request is meant. -/
lemma Fresh.unique (h : l.Fresh top) {r' : ρ} (hr : (n, r) ∈ l.issued)
    (hr' : (n, r') ∈ l.issued) : r = r' := by
  have hnd : (l.issued.map (·.1)).Nodup := by
    rw [List.Nodup, List.pairwise_map]
    exact h.increasing.imp fun hlt => by omega
  exact congrArg Prod.snd (List.inj_on_of_nodup_map hnd hr hr' rfl)

lemma Fresh.lookup_of_lt (h : l.Fresh top) (hn : top < n) : l.outstanding.lookup n = none := by
  rw [Option.eq_none_iff_forall_ne_some]
  intro r hr
  have hle := h.le_top _ (h.mem_issued n r hr)
  omega

end Ledger

end DappyCore.Lib
