import DappyCore.Remapper
import Mathlib.Data.List.Find
import Mathlib.Data.List.Induction
import Mathlib.Data.List.Nodup

/-!
The remapper over runs of calls, against the maps that are in flight. Its two tables are no longer
inverse once a client uses a number again while it is in flight.
-/

namespace DappyCore.Remapper

/-! ### Runs -/

inductive Call
  | map (clientSeq : ClientSeq) (backendSeq : BackendSeq)
  | unmap (backendSeq : BackendSeq)
  deriving DecidableEq

def MessageRemapper.perform (r : MessageRemapper) : Call → MessageRemapper
  | .map c b => r.map c b
  | .unmap b => (r.unmap b).1

/-- The backend number that a call maps. -/
def Call.mapped : Call → Option BackendSeq
  | map _ b => some b
  | unmap _ => none

/-- The maps in flight, the latest first. -/
def follow (flights : List (ClientSeq × BackendSeq)) : Call → List (ClientSeq × BackendSeq)
  | .map c b => (c, b) :: flights
  | .unmap b => flights.filter (·.2 ≠ b)

/-- The remapper after a run. -/
def remapped (calls : List Call) : MessageRemapper :=
  calls.foldl MessageRemapper.perform .new

/-- What is in flight after a run. -/
def inFlight (calls : List Call) : List (ClientSeq × BackendSeq) := calls.foldl follow []

/-- What was mapped last for a client number, of what is in flight. -/
def latest (flights : List (ClientSeq × BackendSeq)) (c : ClientSeq) : Option BackendSeq :=
  (flights.find? (·.1 = c)).map (·.2)

/-- No backend number is mapped twice. -/
def Fresh (calls : List Call) : Prop := (calls.filterMap Call.mapped).Nodup

/-- The remapper knows each map while it is in flight, and the last one for each client number. -/
structure Faithful (calls : List Call) : Prop where
  client : ∀ c b, (remapped calls).lookupClient b = some c ↔ (c, b) ∈ inFlight calls
  backend : ∀ c, (remapped calls).lookupBackend c = latest (inFlight calls) c

variable {calls : List Call} {call : Call} {c : ClientSeq} {b : BackendSeq}
  {flights : List (ClientSeq × BackendSeq)}

lemma remapped_concat (calls : List Call) (call : Call) :
    remapped (calls ++ [call]) = (remapped calls).perform call := by
  rw [remapped, List.foldl_append]
  rfl

lemma inFlight_concat (calls : List Call) (call : Call) :
    inFlight (calls ++ [call]) = follow (inFlight calls) call := by
  rw [inFlight, List.foldl_append]
  rfl

/-! ### Fresh numbers -/

lemma Fresh.before {before : List Call} (h : Fresh calls) (hpre : before <+: calls) :
    Fresh before := h.sublist (hpre.sublist.filterMap Call.mapped)

lemma Fresh.notMem (h : Fresh (calls ++ [.map c b])) : b ∉ calls.filterMap Call.mapped := by
  rw [Fresh, List.filterMap_append] at h
  exact fun hb => (List.disjoint_of_nodup_append h) hb (List.mem_singleton_self b)

/-- What is in flight was mapped. -/
lemma mapped_of_mem (h : (c, b) ∈ inFlight calls) : b ∈ calls.filterMap Call.mapped := by
  induction calls using List.reverseRecOn with
  | nil => cases h
  | append_singleton calls call ih =>
    rw [inFlight_concat] at h
    rw [List.filterMap_append, List.mem_append]
    cases call with
    | map c' b' =>
      rcases List.mem_cons.mp h with heq | hmem
      · obtain ⟨rfl, rfl⟩ := Prod.mk.inj heq
        exact .inr (List.mem_singleton_self b)
      · exact .inl (ih hmem)
    | unmap b' => exact .inl (ih (List.mem_of_mem_filter h))

/-! ### Client numbers -/

/-- **The way back is right** in every run: a backend number leads to the client's own. -/
theorem lookupClient_remapped (h : Fresh calls) :
    (remapped calls).lookupClient b = some c ↔ (c, b) ∈ inFlight calls := by
  induction calls using List.reverseRecOn generalizing c b with
  | nil => simp [remapped, MessageRemapper.new, MessageRemapper.lookupClient, inFlight]
  | append_singleton calls call ih =>
    have hih := ih (h.before (List.prefix_append calls [call])) (c := c) (b := b)
    rw [remapped_concat, inFlight_concat]
    cases call with
    | map c' b' =>
      rw [MessageRemapper.perform, MessageRemapper.lookupClient_map, follow, List.mem_cons]
      split_ifs with hb
      · subst hb
        have hnot : (c, b) ∉ inFlight calls := fun hmem => h.notMem (mapped_of_mem hmem)
        rw [or_iff_left hnot, Option.some_inj, Prod.mk.injEq, and_iff_left rfl, eq_comm]
      · rw [hih, or_iff_right fun heq => hb (Prod.mk.inj heq).2]
    | unmap b' =>
      rw [MessageRemapper.perform, MessageRemapper.lookupClient_unmap, follow, List.mem_filter]
      split_ifs with hb
      · simp [hb]
      · rw [hih]
        simp [hb]

lemma unique_of_mem (h : Fresh calls) {c' : ClientSeq} (hc : (c, b) ∈ inFlight calls)
    (hc' : (c', b) ∈ inFlight calls) : c' = c := by
  have hlookup := (lookupClient_remapped h).mpr hc
  have hlookup' := (lookupClient_remapped h).mpr hc'
  exact Option.some.inj (hlookup'.symm.trans hlookup)

/-! ### Backend numbers -/

lemma latest_cons (c' : ClientSeq) : latest ((c, b) :: flights) c' =
    if c' = c then some b else latest flights c' := by
  unfold latest
  rw [List.find?_cons]
  by_cases h : c' = c
  · simp [h]
  · simp [h, Ne.symm h]

lemma latest_eq_none_iff : latest flights c = none ↔ ∀ b, (c, b) ∉ flights := by
  rw [latest, Option.map_eq_none_iff, List.find?_eq_none]
  constructor
  · intro h b hmem
    exact h _ hmem (by simp)
  · rintro h ⟨c', b⟩ hmem hc
    obtain rfl : c' = c := by simpa using hc
    exact h b hmem

/-- The end of one client's map leaves the numbers of the others. -/
lemma latest_filter_of_ne (hunique : ∀ c', (c', b) ∈ flights → c' = c) {c' : ClientSeq}
    (hne : c' ≠ c) : latest (flights.filter (·.2 ≠ b)) c' = latest flights c' := by
  unfold latest
  rw [List.find?_filter]
  congr 1
  refine List.find?_congr ?_
  rintro ⟨c'', b''⟩ hmem
  by_cases hb : b'' = b
  · subst hb
    have hc : c'' ≠ c' := fun heq => hne (heq.symm.trans (hunique c'' hmem))
    simp [hc]
  · simp [hb]

lemma latest_filter_eq_none_iff : latest (flights.filter (·.2 ≠ b)) c = none ↔
    ∀ b', (c, b') ∈ flights → b' = b := by
  rw [latest_eq_none_iff]
  refine forall_congr' fun b' => ?_
  rw [List.mem_filter, not_and]
  simp

lemma Faithful.map (h : Faithful calls) (hfresh : Fresh (calls ++ [.map c b])) :
    Faithful (calls ++ [.map c b]) where
  client _ _ := lookupClient_remapped hfresh
  backend c' := by
    rw [remapped_concat, inFlight_concat, MessageRemapper.perform,
      MessageRemapper.lookupBackend_map, follow, latest_cons, h.backend]

/-- The end of a map that is not in flight changes nothing. -/
lemma Faithful.unmap_of_none (h : Faithful calls) (hfresh : Fresh (calls ++ [.unmap b]))
    (hb : (remapped calls).lookupClient b = none) (hnot : ∀ c, (c, b) ∉ inFlight calls) :
    Faithful (calls ++ [.unmap b]) where
  client _ _ := lookupClient_remapped hfresh
  backend c := by
    have hkept : (inFlight calls).filter (·.2 ≠ b) = inFlight calls := by
      refine List.filter_eq_self.mpr ?_
      rintro ⟨c, b'⟩ hmem
      have hne : b' ≠ b := fun heq => hnot c (heq ▸ hmem)
      simpa using hne
    rw [remapped_concat, inFlight_concat, MessageRemapper.perform,
      MessageRemapper.unmap_of_none hb, follow, hkept]
    exact h.backend c

/-- The end of a map takes out the client's number, whichever map that led to. -/
lemma Faithful.unmap_iff (h : Faithful calls) (hfresh : Fresh (calls ++ [.unmap b])) :
    Faithful (calls ++ [.unmap b]) ↔
      ∀ c b', (c, b) ∈ inFlight calls → (c, b') ∈ inFlight calls → b' = b := by
  have hbefore := hfresh.before (List.prefix_append calls [.unmap b])
  cases hb : (remapped calls).lookupClient b with
  | none =>
    -- the number stands for nothing
    have hnot : ∀ c, (c, b) ∉ inFlight calls := fun c hmem => by
      rw [(h.client c b).mpr hmem] at hb
      cases hb
    exact iff_of_true (h.unmap_of_none hfresh hb hnot) fun c _ hmem => absurd hmem (hnot c)
  | some c =>
    have hmem := (h.client c b).mp hb
    have hunique : ∀ c', (c', b) ∈ inFlight calls → c' = c := fun c' => unique_of_mem hbefore hmem
    constructor
    · -- the client's number has no entry any more, so that nothing else was sent under it
      intro hafter c' b' hc' hb'
      obtain rfl := hunique c' hc'
      have hbackend := hafter.backend c'
      rw [remapped_concat, inFlight_concat, MessageRemapper.perform,
        MessageRemapper.lookupBackend_unmap hb, if_pos rfl] at hbackend
      exact latest_filter_eq_none_iff.mp hbackend.symm b' hb'
    · -- no other was sent under it, so that losing its entry is right
      intro hone
      refine ⟨fun _ _ => lookupClient_remapped hfresh, fun c' => ?_⟩
      rw [remapped_concat, inFlight_concat, MessageRemapper.perform,
        MessageRemapper.lookupBackend_unmap hb, follow]
      split_ifs with hc
      · rw [hc, latest_filter_eq_none_iff.mpr fun b' => hone c b' hmem]
      · rw [latest_filter_of_ne hunique hc, h.backend]

/-! ### The law -/

lemma faithful_nil : Faithful [] where
  client c b := by simp [remapped, MessageRemapper.new, MessageRemapper.lookupClient, inFlight]
  backend c := by
    simp [remapped, MessageRemapper.new, MessageRemapper.lookupBackend, inFlight, latest]

/-- **The remapper is a faithful table** all along a run of fresh numbers exactly when no map ends
while another of the same client number is in flight. -/
theorem remapper_faithful_iff (hfresh : Fresh calls) :
    (∀ before, before <+: calls → Faithful before) ↔
      ∀ before b, before ++ [.unmap b] <+: calls →
        ∀ c b', (c, b) ∈ inFlight before → (c, b') ∈ inFlight before → b' = b := by
  constructor
  · intro h before b hpre
    have hbefore := h before ((List.prefix_append before [.unmap b]).trans hpre)
    exact (hbefore.unmap_iff (hfresh.before hpre)).mp (h _ hpre)
  · intro h before
    induction before using List.reverseRecOn with
    | nil => exact fun _ => faithful_nil
    | append_singleton before call ih =>
      intro hpre
      have hbefore := ih ((List.prefix_append before [call]).trans hpre)
      cases call with
      | map c b => exact hbefore.map (hfresh.before hpre)
      | unmap b => exact (hbefore.unmap_iff (hfresh.before hpre)).mpr (h before b hpre)

/-- Two requests of one number, the first of which is answered. -/
def reused : List Call := [.map ⟨1⟩ ⟨10⟩, .map ⟨1⟩ ⟨11⟩, .unmap ⟨10⟩]

lemma fresh_reused : Fresh reused := by
  unfold Fresh
  decide

theorem remapper_faithful_iff_reused : (∀ before, before <+: reused → Faithful before) ↔
    ∀ before b, before ++ [.unmap b] <+: reused →
      ∀ c b', (c, b) ∈ inFlight before → (c, b') ∈ inFlight before → b' = b :=
  remapper_faithful_iff fresh_reused

theorem answer_forgets_the_other : Fresh reused ∧
    ¬ ∀ before, before <+: reused → Faithful before := by
  refine ⟨fresh_reused, fun h => ?_⟩
  have hbackend := (h reused List.prefix_rfl).backend ⟨1⟩
  exact absurd hbackend (by decide)

end DappyCore.Remapper
